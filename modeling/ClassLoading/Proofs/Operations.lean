import ClassLoading.Loader.Requests
import ClassLoading.Proofs.Changes

/-! Every operation of a loader is a run of changes. A load ends with its name loaded if it answers
with a class, and the classes it builds are made; an initialization is nothing but loads and marks
on classes, which leave their fixed parts alone. -/
namespace ClassLoading

namespace Loader

variable {config : LoaderConfig} {search : ClassSearch} {s t : Loader}

/-! ### Changes that no load makes -/

theorem Change.updateClass {id : ClassId} {f : LoadedClass → LoadedClass}
    (hf : ∀ c, s.classes[id]? = some c → (f c).fixed = c.fixed) :
    Change config search s (s.updateClass id f) := .grow rfl rfl (.modify _ hf)

theorem attachObject_extends (s : Loader) (classClass id : ClassId) :
    (s.attachObject classClass id).classes.Extends s.classes := by
  unfold attachObject
  split
  · exact .refl _
  · simp only [Loader.updateClass, (pooledObject_fields ..).2.2]
    exact .modify _ fun _ _ => rfl

theorem Change.attachObject (classClass id : ClassId) :
    Change config search s (s.attachObject classClass id) :=
  .grow (attachObject_registry ..) (attachObject_slots ..) (attachObject_extends _ _ _)

theorem addClass_extends (s : Loader) (c : LoadedClass) :
    (s.addClass c).classes.Extends (s.classes.push c) := by
  unfold addClass attachIfReady
  split
  · exact attachObject_extends _ _ _
  · exact .refl _

theorem Change.addClass (c : LoadedClass) : Change config search s (s.addClass c) :=
  .grow (addClass_registry ..) (addClass_slots ..)
    ((ClassTable.Extends.push _ c).trans (addClass_extends s c))

theorem Change.noteLookup (name : String) : Change config search s (s.noteLookup name) := by
  unfold Loader.noteLookup
  split
  · exact .grow rfl rfl (.refl _)
  · exact .grow rfl rfl (.refl _)

theorem Change.release (name : String) : Change config search s (s.release name) :=
  .grow rfl rfl (.refl _)

/-! ### Loads -/

/-- Induction along a load and the loads it calls for. -/
theorem load_induct (env : Environment) {P : Loader → String → Prop}
    {Q : Loader → List String → Prop}
    (done : ∀ s name r, s.slot? name = some (.done r) → P s name)
    (loading : ∀ s name, s.slot? name = some .loading → P s name)
    (unknown : ∀ s name e, s.slot? name = none → Blueprint.ofName env.search name = .error e →
      P s name)
    (known : ∀ s name plan, s.slot? name = none → Blueprint.ofName env.search name = .ok plan →
      Q ((s.acquire mainThread name).noteLookup name) plan.dependencies → P s name)
    (nil : ∀ s, Q s [])
    (cons : ∀ s name rest, P s name → (∀ id t, s.load env name = (.ok id, t) → Q t rest) →
      Q s (name :: rest)) :
    (∀ s name, P s name) ∧ ∀ s names, Q s names := by
  apply loadRun.mutual_induct env P Q
  case case1 => exact done
  case case2 => exact loading
  case case3 => exact fun s name hs e he => unknown s name e hs he
  case case4 => exact fun s name hs plan hp => known s name plan hs hp
  case case5 => exact nil
  case case6 =>
    intro s name rest e t h heq hname
    refine cons s name rest hname fun id u hload => ?_
    rw [load, heq] at hload
    cases hload
  case case7 =>
    intro s name rest id t h heq hname hrest
    refine cons s name rest hname fun i u hload => ?_
    rw [load, heq] at hload
    cases hload
    exact hrest

theorem loadAll_keeps (env : Environment) (s : Loader) (names : List String) :
    s.Keeps env.names (s.loadAll env names).2 := (s.loadAllRun env names).property

/-- Inside its own load, a name is loading in the slot that the load has taken. -/
theorem loadingAt_loadAll (env : Environment) (s : Loader) (name : String) (names : List String) :
    (((s.acquire mainThread name).noteLookup name).loadAll env names).2.LoadingAt name
      s.slots.size :=
  (loadAll_keeps env _ names).loading _ _ (noteLookup_loadingAt (acquire_loadingAt ..))

theorem Changes.complete {name : String} {slot : SlotId} {r : Except LoadError LoadedClass}
    (own : s.LoadingAt name slot)
    (made : ∀ c, r = .ok c → (s.addClass c).Made config search name s.classes.size) :
    Changes config search s (s.complete name slot r).2 := by
  have hlt : slot < s.slots.size := (Array.getElem?_eq_some_iff.1 own.2).1
  cases r with
  | error e =>
    have hpublish : Change config search s (s.publish slot (.error e)) := .publish own nofun
    have hforget : Change config search (s.publish slot (.error e))
        ((s.publish slot (.error e)).forget name slot) :=
      .forget (e := e) name (by simp [Loader.publish, hlt])
    exact ((Changes.of hpublish).trans (.of hforget)).trans (.of (.release name))
  | ok c =>
    have hadd : Change config search s (s.addClass c) := .addClass c
    have hpublish : Change config search (s.addClass c)
        ((s.addClass c).publish slot (.ok s.classes.size)) :=
      .publish own.addClass fun id hid => by cases hid; exact made c rfl
    exact ((Changes.of hadd).trans (.of hpublish)).trans (.of (.release name))

theorem findLoaded?_complete {name : String} {slot : SlotId} (own : s.LoadingAt name slot)
    (c : LoadedClass) :
    (s.complete name slot (.ok c)).2.findLoaded? name = some s.classes.size := by
  have hlt : slot < s.slots.size := (Array.getElem?_eq_some_iff.1 own.2).1
  refine findLoaded?_eq_some_iff.2 ⟨slot, own.addClass.1, ?_⟩
  simp [Loader.complete, Loader.publish, Loader.release, addClass_slots, hlt]

theorem complete_fst_eq_ok {name : String} {slot : SlotId} {r : Except LoadError LoadedClass}
    {id : ClassId} (h : (s.complete name slot r).1 = .ok id) :
    id = s.classes.size ∧ ∃ c, r = .ok c := by
  cases r with
  | error e => cases h
  | ok c =>
    cases h
    exact ⟨rfl, c, rfl⟩

/-- What a load does: it is a run of changes, and it loads the class that it answers with. -/
structure LoadsTo (config : LoaderConfig) (search : ClassSearch) (s : Loader) (name : String)
    (r : Except LoadError ClassId × Loader) : Prop where
  changes : Changes config search s r.2
  loaded : ∀ id, r.1 = .ok id → r.2.findLoaded? name = some id

structure LoadsAllTo (config : LoaderConfig) (search : ClassSearch) (s : Loader)
    (names : List String) (r : Except LoadError (List ClassId) × Loader) : Prop where
  changes : Changes config search s r.2
  loaded : ∀ ids, r.1 = .ok ids →
    List.Forall₂ (fun name id => r.2.findLoaded? name = some id) names ids

theorem Changes.acquire (config : LoaderConfig) (search : ClassSearch) {s : Loader} {name : String}
    (hn : s.slot? name = none) (thread : ThreadId) :
    Changes config search s ((s.acquire thread name).noteLookup name) :=
  (Changes.of (.acquire thread hn)).trans (.of (.noteLookup name))

theorem loadsTo (env : Environment) :
    (∀ s name, s.Sound env.config env.search →
      LoadsTo env.config env.search s name (s.load env name)) ∧
    ∀ s names, s.Sound env.config env.search →
      LoadsAllTo env.config env.search s names (s.loadAll env names) := by
  apply load_induct env
  case done =>
    intro s name r hs _
    rw [load_of_done hs]
    refine ⟨.refl, ?_⟩
    rintro id rfl
    simp [findLoaded?, hs]
  case loading =>
    intro s name hs _
    rw [load_of_loading hs]
    refine ⟨.refl, ?_⟩
    rintro id ⟨⟩
  case unknown =>
    intro s name e hs he _
    rw [load_of_blueprint_error hs he]
    refine ⟨(Changes.acquire _ _ hs mainThread).trans (.complete ?_ ?_), ?_⟩
    · exact noteLookup_loadingAt (acquire_loadingAt ..)
    · rintro c ⟨⟩
    · rintro id ⟨⟩
  case known =>
    intro s name plan hs hplan hdeps hsound
    have hstart := Changes.acquire env.config env.search hs mainThread
    have own := loadingAt_loadAll env s name plan.dependencies
    replace hdeps := hdeps (hstart.sound hsound)
    rw [load_of_blueprint hs hplan]
    generalize ((s.acquire mainThread name).noteLookup name).loadAll env plan.dependencies = deps
      at hdeps own
    obtain ⟨r, t⟩ := deps
    have ht := (hstart.trans hdeps.changes).sound hsound
    refine ⟨(hstart.trans hdeps.changes).trans (.complete own fun c hc => ?_), fun id hid => ?_⟩
    · obtain ⟨ids, rfl, hbuild⟩ := bind_eq_ok_iff.1 hc
      exact ht.made_of_build hplan (hdeps.loaded ids rfl) hbuild (.of (.addClass c))
        (addClass_extends _ _)
    · obtain ⟨rfl, c, hc⟩ := complete_fst_eq_ok hid
      simp only [hc]
      exact findLoaded?_complete own c
  case nil =>
    intro s _
    rw [loadAll_nil]
    refine ⟨.refl, ?_⟩
    rintro ids ⟨⟩
    exact .nil
  case cons =>
    intro s name rest hname hrest hs
    replace hname := hname hs
    rw [loadAll_cons]
    cases hl : s.load env name with
    | mk r t =>
    rw [hl] at hname
    cases r with
    | error e =>
      refine ⟨hname.changes, ?_⟩
      rintro ids ⟨⟩
    | ok id =>
      have ht := hname.changes.sound hs
      replace hrest := hrest id t hl ht
      refine ⟨hname.changes.trans hrest.changes, fun ids hids => ?_⟩
      cases hmore : (t.loadAll env rest).1 with
      | error e => simp [hmore, Except.map] at hids
      | ok more =>
        simp only [hmore, Except.map, Except.ok.injEq] at hids
        subst hids
        exact .cons (hrest.changes.findLoaded? ht.toTidy (hname.loaded id rfl))
          (hrest.loaded more hmore)

theorem Sound.load (env : Environment) (hs : s.Sound env.config env.search) (name : String) :
    LoadsTo env.config env.search s name (s.load env name) := (loadsTo env).1 s name hs

theorem Sound.loadAll (env : Environment) (hs : s.Sound env.config env.search)
    (names : List String) :
    LoadsAllTo env.config env.search s names (s.loadAll env names) := (loadsTo env).2 s names hs

/-! ### Initializations -/

theorem initClass_of_none {env : Environment} {id : ClassId} (hc : s.classes[id]? = none) :
    s.initClass env id = (.ok (), s) := by
  rw [initClass, initClassRun]
  split
  · rfl
  · simp_all

theorem initSuper_of_run {env : Environment} {superClass : Option ClassId}
    {r : Except LoadError Unit} {h : s.Keeps env.names t}
    (heq : (match superClass with
      | none => ⟨(.ok (), s), .refl ..⟩
      | some parent => s.initClassRun env parent : Run env.names s LoadError Unit) = ⟨(r, t), h⟩) :
    s.initSuper env superClass = (r, t) := by
  cases superClass with
  | none => exact congrArg Subtype.val heq
  | some parent => exact congrArg Subtype.val heq

/-- Induction along an initialization, the actions of the initializers it runs and the
initializations these call for. -/
theorem init_call_induct (env : Environment) {I : Loader → ClassId → Prop}
    {A : Loader → ClassId → List Action → Prop} {L : Loader → String → Prop}
    (absent : ∀ s id, s.classes[id]? = none → I s id)
    (answered : ∀ s id c r, s.classes[id]? = some c → c.initAnswer? = some r → I s id)
    (started : ∀ s id c, s.classes[id]? = some c → c.initAnswer? = none →
      (∀ parent, I (s.updateClass id LoadedClass.startInit) parent) →
      (∀ t run actions, (s.updateClass id LoadedClass.startInit).initSuper env c.superClass =
        (.ok (), t) → env.initializerOf? c = some (run, actions) →
        A (t.noteRun run) id actions) → I s id)
    (nil : ∀ s id, A s id []) (fail : ∀ s id message rest, A s id (.fail message :: rest))
    (load : ∀ s id name rest, (∀ i t, s.load env name = (.ok i, t) → A t id rest) →
      A s id (.load name :: rest))
    (init : ∀ s id name rest, L s name → (∀ i t, s.loadInit env name = (.ok i, t) → A t id rest) →
      A s id (.init name :: rest))
    (tryInit : ∀ s id name rest, L s name → A (s.loadInit env name).2 id rest →
      A s id (.tryInit name :: rest))
    (set : ∀ s id slot value rest, (∀ t, s.setStatic id slot value = (true, t) → A t id rest) →
      A s id (.set slot value :: rest))
    (loadInit : ∀ s name, (∀ id t, s.load env name = (.ok id, t) → I t id) → L s name) :
    (∀ s id, I s id) ∧ (∀ s id actions, A s id actions) ∧ ∀ s name, L s name := by
  apply initClassRun.mutual_induct env I A L
  case case1 => exact absent
  case case2 => exact fun s id c hc r ha => answered s id c r hc ha
  case case3 =>
    intro s id c hc ha _ runs e t h heq ih
    refine started s id c hc ha ih fun u run actions hsuper hown => ?_
    rw [initSuper_of_run (r := .error e) heq] at hsuper
    cases hsuper
  case case4 =>
    intro s id c hc ha _ runs t h heq hown ih
    refine started s id c hc ha ih fun u run actions hsuper hown' => ?_
    rw [hown] at hown'
    cases hown'
  case case5 =>
    intro s id c hc ha _ runs t h heq run actions hown ih hact
    refine started s id c hc ha ih fun u run' actions' hsuper hown' => ?_
    rw [initSuper_of_run (r := .ok ()) heq] at hsuper
    rw [hown] at hown'
    cases hsuper
    cases hown'
    exact hact
  case case6 => exact nil
  case case7 => exact fail
  case case8 =>
    intro s id name rest e t h heq
    refine load s id name rest fun i u hload => ?_
    rw [Loader.load, heq] at hload
    cases hload
  case case9 =>
    intro s id name rest i t h heq hrest
    refine load s id name rest fun j u hload => ?_
    rw [Loader.load, heq] at hload
    cases hload
    exact hrest
  case case10 =>
    intro s id name rest e t h heq hname
    refine init s id name rest hname fun i u hload => ?_
    rw [Loader.loadInit, heq] at hload
    cases hload
  case case11 =>
    intro s id name rest i t h heq hname hrest
    refine init s id name rest hname fun j u hload => ?_
    rw [Loader.loadInit, heq] at hload
    cases hload
    exact hrest
  case case12 =>
    intro s id name rest r t h heq hname hrest
    refine tryInit s id name rest hname ?_
    rwa [Loader.loadInit, heq]
  case case13 =>
    intro s id slot value rest t heq
    refine set s id slot value rest fun u hset => ?_
    rw [heq] at hset
    cases hset
  case case14 =>
    intro s id slot value rest t heq _ hrest
    refine set s id slot value rest fun u hset => ?_
    rw [heq] at hset
    cases hset
    exact hrest
  case case15 =>
    intro s name e t h heq
    refine loadInit s name fun id u hload => ?_
    rw [Loader.load, heq] at hload
    cases hload
  case case16 =>
    intro s name id t h heq hinit
    refine loadInit s name fun i u hload => ?_
    rw [Loader.load, heq] at hload
    cases hload
    exact hinit

/-- What holds of every load, of every mark on a class and of every stored value holds of every
initialization. -/
theorem init_induct (env : Environment) {R : Loader → Loader → Prop} (refl : ∀ s, R s s)
    (trans : ∀ {s t u}, R s t → R t u → R s u) (load : ∀ s name, R s (s.load env name).2)
    (start : ∀ s id, R s (s.updateClass id LoadedClass.startInit))
    (finish : ∀ s id r, R s (s.endInit id r)) (note : ∀ s run, R s (s.noteRun run))
    (store : ∀ s id slot value, R s (s.setStatic id slot value).2) :
    (∀ s id, R s (s.initClass env id).2) ∧ (∀ s id actions, R s (s.act env id actions).2) ∧
      ∀ s name, R s (s.loadInit env name).2 := by
  apply init_call_induct env
  case absent =>
    intro s id hc
    rw [initClass_of_none hc]
    exact refl s
  case answered =>
    intro s id c r hc ha
    rw [initClass_of_answer hc ha]
    exact refl s
  case started =>
    intro s id c hc ha ih hact
    have above : R s ((s.updateClass id LoadedClass.startInit).initSuper env c.superClass).2 := by
      refine trans (start s id) ?_
      cases c.superClass with
      | none => exact refl _
      | some parent => exact ih parent
    rw [initClass_of_start hc ha]
    cases hsuper : (s.updateClass id LoadedClass.startInit).initSuper env c.superClass with
    | mk r t =>
    rw [hsuper] at above
    cases r with
    | error e => exact trans above (finish ..)
    | ok _ =>
      cases hown : env.initializerOf? c with
      | none =>
        simp only [initOwn, hown]
        exact trans above (finish ..)
      | some own =>
        simp only [initOwn, hown]
        exact trans (trans (trans above (note ..)) (hact t own.1 own.2 hsuper hown)) (finish ..)
  case nil =>
    intro s id
    rw [act_nil]
    exact refl s
  case fail =>
    intro s id message rest
    rw [act_fail]
    exact refl s
  case load =>
    intro s id name rest hrest
    have hload := load s name
    rw [act_load]
    cases hl : s.load env name with
    | mk r t =>
    rw [hl] at hload
    cases r with
    | error e => exact hload
    | ok i => exact trans hload (hrest i t hl)
  case init =>
    intro s id name rest hname hrest
    rw [act_init]
    cases hl : s.loadInit env name with
    | mk r t =>
    rw [hl] at hname
    cases r with
    | error e => exact hname
    | ok i => exact trans hname (hrest i t hl)
  case tryInit =>
    intro s id name rest hname hrest
    rw [act_tryInit]
    exact trans hname hrest
  case set =>
    intro s id slot value rest hrest
    have hstore := store s id slot value
    rw [act_set]
    cases hset : s.setStatic id slot value with
    | mk stored t =>
    rw [hset] at hstore
    cases stored with
    | false => exact refl s
    | true => exact trans hstore (hrest t hset)
  case loadInit =>
    intro s name hinit
    have hload := load s name
    rw [loadInit_eq]
    cases hl : s.load env name with
    | mk r t =>
    rw [hl] at hload
    cases r with
    | error e => exact hload
    | ok id => exact trans hload (hinit id t hl)

/-- Storing a static value is a change of one class, if it is any. -/
theorem setStatic_eq (s : Loader) (id : ClassId) (slot : Nat) (value : Value) :
    (s.setStatic id slot value).2 = s ∨
      (s.setStatic id slot value).2 =
        s.updateClass id fun c => (c.setStatic? slot value).getD c := by
  unfold setStatic
  split
  · exact .inr rfl
  · exact .inl rfl

end Loader

end ClassLoading
