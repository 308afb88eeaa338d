import ClassLoading.Proofs.Blame
import ClassLoading.Proofs.FailedLoads
import ClassLoading.Proofs.HistoryIndependence
import ClassLoading.Proofs.Machines

/-! Which class is at fault when a load fails. An error passes through the loads around it as it is,
so it has to be told on its own whose it is. An error that does not come from a circle of loads is a
fault of the class that it names, wherever that class is met. A circle is closed at a name that is
in progress further out, and the error is on its way to the load of that very name; what that load
does does not depend on the loads around it, as none of them is what the circle is closed at. So the
class that is named fails in the same way when it is loaded on its own. -/
namespace ClassLoading

namespace Loader

variable {config : LoaderConfig} {search : ClassSearch} {env : Environment} {s t u v : Loader}
  {name : String} {e : LoadError}

/-! ### Loads with less around them -/

/-- Two sound loaders, of which the second has in progress only what the first has. -/
structure Within (config : LoaderConfig) (search : ClassSearch) (s t : Loader) : Prop where
  outer : s.Sound config search
  inner : t.Sound config search
  outerClean : s.Clean
  innerClean : t.Clean
  loading : ∀ name, t.slot? name = some .loading → s.slot? name = some .loading

/-- If the error comes from a circle that is closed at a name in progress, then the name is in
progress in the second loader as well. -/
def SharesCircle (s t : Loader) (e : LoadError) : Prop :=
  ∀ name, e = .circular name → s.slot? name = some .loading → t.slot? name = some .loading

theorem SharesCircle.settles (h : SharesCircle s t e) (hs : Settles s u) (ht : Settles t v) :
    SharesCircle u v e := fun n he hn =>
  (ht.loading_iff n).2 (h n he ((hs.loading_iff n).1 hn))

theorem SharesCircle.acquire (h : SharesCircle s t e) (hs : s.Tidy) (ht : t.Tidy) (name : String)
    (thread : ThreadId) : SharesCircle ((s.acquire thread name).noteLookup name)
      ((t.acquire thread name).noteLookup name) e := by
  intro n he hn
  rw [slot?_noteLookup, slot?_acquire hs] at hn
  rw [slot?_noteLookup, slot?_acquire ht]
  split
  · rfl
  · next hne =>
    rw [if_neg hne] at hn
    exact h n he hn

theorem complete_fst_eq_error {slot : SlotId} {r : Except LoadError LoadedClass} :
    (s.complete name slot r).1 = .error e ↔ r = .error e := by
  cases r with
  | error e' => exact ⟨fun h => congrArg _ (Except.error.inj h), fun h => congrArg _
      (Except.error.inj h)⟩
  | ok c => exact ⟨nofun, nofun⟩

namespace Within

theorem settles (h : Within config search s t) (hs : Changes config search s u)
    (ht : Changes config search t v) (hsu : Settles s u) (htv : Settles t v) :
    Within config search u v :=
  ⟨hs.sound h.outer, ht.sound h.inner, hsu.clean h.outerClean, htv.clean h.innerClean,
    fun n hn => (hsu.loading_iff n).2 (h.loading n ((htv.loading_iff n).1 hn))⟩

theorem acquire (h : Within config search s t) (hs : s.slot? name = none)
    (ht : t.slot? name = none) (thread : ThreadId) :
    Within config search ((s.acquire thread name).noteLookup name)
      ((t.acquire thread name).noteLookup name) := by
  refine ⟨(Changes.acquire _ _ hs thread).sound h.outer,
    (Changes.acquire _ _ ht thread).sound h.inner, h.outerClean.acquire h.outer.toTidy name thread,
    h.innerClean.acquire h.inner.toTidy name thread, fun n hn => ?_⟩
  rw [slot?_noteLookup, slot?_acquire h.inner.toTidy] at hn
  rw [slot?_noteLookup, slot?_acquire h.outer.toTidy]
  split
  · rfl
  · next hne =>
    rw [if_neg hne] at hn
    exact h.loading n hn

theorem leadsTo (h : Within config search s t) (hl : s.LeadsTo search name) :
    t.LeadsTo search name := fun other hother => hl other (h.loading other hother)

/-- What is loaded with more in progress loads with less in progress. -/
theorem load_isOk (h : Within config search s t) (hl : s.LeadsTo search name)
    (initializer : StaticInitializer) (hn : Loadable config search name) :
    ∃ id, (t.load ⟨config, search, initializer⟩ name).1 = .ok id :=
  Loads.of_loadable ⟨config, search, initializer⟩ hn t h.inner h.innerClean
    ((h.leadsTo hl).unblocked hn)

/-- A name whose load fails is not loaded, nor has it come into progress. -/
theorem slot?_eq_none (h : Within config search s t) (hl : s.LeadsTo search name)
    {initializer : StaticInitializer} (hs : s.slot? name = none)
    (he : (s.load ⟨config, search, initializer⟩ name).1 = .error e) : t.slot? name = none := by
  cases ht : t.slot? name with
  | none => rfl
  | some x =>
    cases x with
    | loading =>
      rw [h.loading name ht] at hs
      cases hs
    | done r =>
      cases r with
      | error e' => exact absurd ht (h.innerClean name e')
      | ok i =>
        have hloaded : t.findLoaded? name = some i := by simp [findLoaded?, ht]
        have hn := h.inner.loadable hloaded
        obtain ⟨j, hj⟩ := Loads.of_loadable ⟨config, search, initializer⟩ hn s h.outer h.outerClean
          (hl.unblocked hn)
        rw [he] at hj
        cases hj

/-- Dependencies that have been loaded with more in progress are loaded with less, and then the
class is built to the same effect. -/
theorem build_error (h : Within config search s t) {plan : Blueprint}
    {initializer : StaticInitializer} (hl : ∀ d ∈ plan.dependencies, s.LeadsTo search d)
    {is : List ClassId}
    (hs : s.loadAll ⟨config, search, initializer⟩ plan.dependencies = (.ok is, u))
    (ht : t.loadAll ⟨config, search, initializer⟩ plan.dependencies = (x, v))
    (he : plan.build config u.classes name is = .error e) :
    x.bind (plan.build config v.classes name) = .error e := by
  have hleft := h.outer.loadAll ⟨config, search, initializer⟩ plan.dependencies
  have hright := h.inner.loadAll ⟨config, search, initializer⟩ plan.dependencies
  rw [hs] at hleft
  rw [ht] at hright
  have hu := hleft.changes.sound h.outer
  have hloadable : ∀ d ∈ plan.dependencies, Loadable config search d := by
    intro d hd
    obtain ⟨i, -, hi⟩ := exists_of_mem_forall₂ (hleft.loaded is rfl).flip hd
    exact hu.loadable hi
  obtain ⟨js, hjs⟩ : ∃ js, x = .ok js := by
    have hok : ∃ js, (t.loadAll ⟨config, search, initializer⟩ plan.dependencies).1 = .ok js :=
      loadAll_isOk h.inner h.innerClean fun d hd =>
        ⟨(h.leadsTo (hl d hd)).unblocked (hloadable d hd), .of_loadable _ (hloadable d hd)⟩
    rwa [ht] at hok
  subst hjs
  have halike : List.Forall₂ (ClassTable.Alike u.classes v.classes) is js :=
    forall₂_of_common (hleft.loaded is rfl) (hright.loaded js rfl) fun d i j hi hj =>
      hu.alike (hright.changes.sound h.inner) hi hj
  have hagree : Agree (Twin u.classes v.classes) (plan.build config u.classes name is)
    (plan.build config v.classes name js) := Twin.build config plan halike
  rw [he] at hagree
  show plan.build config v.classes name js = .error e
  generalize plan.build config v.classes name js = y at hagree
  cases hagree
  rfl

/-- A load fails with less in progress as it does with more, unless it has failed on a circle that
is closed further out. -/
theorem load_error (initializer : StaticInitializer) :
    (∀ s name, ∀ t e, Within config search s t → s.LeadsTo search name → SharesCircle s t e →
      (s.load ⟨config, search, initializer⟩ name).1 = .error e →
        (t.load ⟨config, search, initializer⟩ name).1 = .error e) ∧
    ∀ s names, ∀ t e, Within config search s t → (∀ d ∈ names, s.LeadsTo search d) →
      SharesCircle s t e → (s.loadAll ⟨config, search, initializer⟩ names).1 = .error e →
        (t.loadAll ⟨config, search, initializer⟩ names).1 = .error e := by
  apply load_induct ⟨config, search, initializer⟩
  case done =>
    intro s name r hs t e h _ _ he
    rw [load_of_done hs] at he
    exact absurd (he ▸ hs) (h.outerClean name e)
  case loading =>
    intro s name hs t e h _ hshares he
    rw [load_of_loading hs] at he
    cases he
    rw [load_of_loading (hshares name rfl hs)]
  case unknown =>
    intro s name e' hs (hplan : Blueprint.ofName search name = .error e') t e h hl _ he
    have ht := h.slot?_eq_none hl hs he
    rw [load_of_blueprint_error hs hplan] at he
    rwa [load_of_blueprint_error ht hplan]
  case known =>
    intro s name plan hs (hplan : Blueprint.ofName search name = .ok plan) hdeps t e h hl hshares he
    have ht := h.slot?_eq_none hl hs he
    have hstart := h.acquire hs ht mainThread
    have hlstart : ∀ d ∈ plan.dependencies,
        ((s.acquire mainThread name).noteLookup name).LeadsTo search d := fun d hd =>
      hl.acquire h.outer.toTidy ⟨plan, hplan, hd⟩ mainThread
    replace hdeps := hdeps _ e hstart hlstart
      (hshares.acquire h.outer.toTidy h.inner.toTidy name mainThread)
    rw [load_of_blueprint hs hplan, complete_fst_eq_error] at he
    rw [load_of_blueprint ht hplan, complete_fst_eq_error]
    cases hu : ((s.acquire mainThread name).noteLookup name).loadAll
      ⟨config, search, initializer⟩ plan.dependencies with
    | mk x u =>
    cases hv : ((t.acquire mainThread name).noteLookup name).loadAll
      ⟨config, search, initializer⟩ plan.dependencies with
    | mk y v =>
    rw [hu] at he hdeps
    rw [hv] at hdeps
    cases x with
    | error e' =>
      cases he
      obtain rfl : y = .error e := hdeps rfl
      rfl
    | ok is => exact hstart.build_error hlstart hu hv he
  case nil =>
    intro s t e _ _ _ he
    rw [loadAll_nil] at he
    cases he
  case cons =>
    intro s name rest hname hrest t e h hl hshares he
    obtain ⟨hlname, hlrest⟩ := List.forall_mem_cons.1 hl
    have hleft := h.outer.load ⟨config, search, initializer⟩ name
    have hright := h.inner.load ⟨config, search, initializer⟩ name
    have hsettles := h.outer.load_settles ⟨config, search, initializer⟩ name
    have hsettles' := h.inner.load_settles ⟨config, search, initializer⟩ name
    replace hname := hname t e h hlname hshares
    rw [loadAll_cons] at he ⊢
    cases hs : s.load ⟨config, search, initializer⟩ name with
    | mk x u =>
    cases ht : t.load ⟨config, search, initializer⟩ name with
    | mk y v =>
    rw [hs] at he hname hleft hsettles
    rw [ht] at hname hright hsettles'
    cases x with
    | error e' =>
      cases he
      obtain rfl : y = .error e := hname rfl
      rfl
    | ok i =>
      obtain ⟨j, hj⟩ := h.load_isOk hlname initializer
        ((hleft.changes.sound h.outer).loadable (hleft.loaded i rfl))
      rw [ht] at hj
      cases hj
      have hmore := hrest i u hs v e (h.settles hleft.changes hright.changes hsettles hsettles')
        (fun d hd => (hlrest d hd).of_settles hsettles) (hshares.settles hsettles hsettles')
      exact map_eq_error_iff.2 (hmore (map_eq_error_iff.1 he))

end Within

/-! ### The class at fault -/

/-- A name fails with an error in every loader at rest, and if the error is that of a circle, then
there is one. -/
structure FailsAlone (env : Environment) (name : String) (e : LoadError) : Prop where
  fails : ∀ t : Loader, t.Sound env.config env.search → t.AtRest →
    (t.load env name).1 = .error e
  circle : ∀ other, e = .circular other → Relation.TransGen env.search.Needs other other

/-- The error of a load names a class that the load needs, and that class fails on its own unless it
is in progress further out, where the circle is closed. -/
def Attributed (env : Environment) (s : Loader) (name : String) (e : LoadError) : Prop :=
  ∃ culprit, e.className? = some culprit ∧ Relation.ReflTransGen env.search.Needs name culprit ∧
    (s.slot? culprit = some .loading ∧ e = .circular culprit ∨ FailsAlone env culprit e)

theorem Attributed.of_settles (h : Attributed env t name e) (hst : Settles s t) :
    Attributed env s name e := by
  obtain ⟨culprit, hname, hneeds, hloading | halone⟩ := h
  · exact ⟨culprit, hname, hneeds, .inl ⟨(hst.loading_iff culprit).1 hloading.1, hloading.2⟩⟩
  · exact ⟨culprit, hname, hneeds, .inr halone⟩

/-- A load that was begun and fails, on no circle but its own, fails in the same way in any loader
at rest. -/
theorem failsAlone_of_error (hs : s.Sound env.config env.search) (hc : s.Clean)
    (hl : s.LeadsTo env.search name) (free : s.slot? name = none)
    (he : (s.load env name).1 = .error e)
    (hcircle : ∀ other, e = .circular other →
      other = name ∧ Relation.TransGen env.search.Needs name name) : FailsAlone env name e := by
  refine ⟨fun t ht hrest => ?_, fun other hother => ?_⟩
  · refine (Within.load_error env.initializer).1 s name t e
      ⟨hs, ht, hc, hrest.clean, fun n hn => absurd hn (hrest.not_loading n)⟩ hl ?_ he
    intro n hn hloading
    rw [(hcircle n hn).1, free] at hloading
    cases hloading
  · obtain ⟨rfl, hneeds⟩ := hcircle other hother
    exact hneeds

theorem Attributed.of_fault (hs : s.Sound env.config env.search) (hc : s.Clean)
    (hl : s.LeadsTo env.search name) (free : s.slot? name = none)
    (he : (s.load env name).1 = .error e) (hfault : e.FaultOf name) : Attributed env s name e :=
  ⟨name, hfault.className, .refl, .inr (failsAlone_of_error hs hc hl free he fun other hother =>
    absurd hother (hfault.notCircular other))⟩

theorem load_attributed (env : Environment) :
    (∀ s name, s.Sound env.config env.search → s.Clean → s.LeadsTo env.search name → ∀ e,
      (s.load env name).1 = .error e → Attributed env s name e) ∧
    ∀ s names, s.Sound env.config env.search → s.Clean → (∀ d ∈ names, s.LeadsTo env.search d) →
      ∀ e, (s.loadAll env names).1 = .error e → ∃ d ∈ names, Attributed env s d e := by
  apply load_induct env
  case done =>
    intro s name r hs _ hc _ e he
    rw [load_of_done hs] at he
    exact absurd (he ▸ hs) (hc name e)
  case loading =>
    intro s name hs _ _ _ e he
    rw [load_of_loading hs] at he
    cases he
    exact ⟨name, rfl, .refl, .inl ⟨hs, rfl⟩⟩
  case unknown =>
    intro s name e' free hplan hs hc hl e he
    refine .of_fault hs hc hl free he ?_
    rw [load_of_blueprint_error free hplan, complete_fst_eq_error] at he
    cases he
    exact Blueprint.blames_ofName _ hplan
  case known =>
    intro s name plan free hplan hdeps hs hc hl e he
    have hstart := (Changes.acquire env.config env.search free mainThread).sound hs
    have hresult := he
    rw [load_of_blueprint free hplan, complete_fst_eq_error] at hresult
    replace hdeps := hdeps hstart (hc.acquire hs.toTidy name mainThread)
      (fun d hd => hl.acquire hs.toTidy ⟨plan, hplan, hd⟩ mainThread) e
    cases hu : ((s.acquire mainThread name).noteLookup name).loadAll env plan.dependencies with
    | mk x u =>
    rw [hu] at hresult hdeps
    cases x with
    | ok is => exact .of_fault hs hc hl free he (plan.blames_build is e hresult)
    | error e' =>
      cases hresult
      obtain ⟨d, hd, culprit, hname, hneeds, ⟨hloading, hcircle⟩ | halone⟩ := hdeps rfl
      · have hfirst : env.search.Needs name d := ⟨plan, hplan, hd⟩
        rw [slot?_noteLookup, slot?_acquire hs.toTidy] at hloading
        by_cases hsame : culprit = name
        · -- the circle has come back to the load itself
          subst hsame
          refine ⟨culprit, hname, .refl, .inr (failsAlone_of_error hs hc hl free he ?_)⟩
          intro other hother
          rw [hcircle] at hother
          cases hother
          exact ⟨rfl, .head' hfirst hneeds⟩
        · rw [if_neg hsame] at hloading
          exact ⟨culprit, hname, .head hfirst hneeds, .inl ⟨hloading, hcircle⟩⟩
      · exact ⟨culprit, hname, .head ⟨plan, hplan, hd⟩ hneeds, .inr halone⟩
  case nil =>
    intro s _ _ _ e he
    rw [loadAll_nil] at he
    cases he
  case cons =>
    intro s name rest hname hrest hs hc hl e he
    obtain ⟨hlname, hlrest⟩ := List.forall_mem_cons.1 hl
    have hload := hs.load env name
    have hsettles := hs.load_settles env name
    replace hname := hname hs hc hlname e
    rw [loadAll_cons] at he
    cases hu : s.load env name with
    | mk x u =>
    rw [hu] at he hname hload hsettles
    cases x with
    | error e' =>
      cases he
      exact ⟨name, List.mem_cons_self, hname rfl⟩
    | ok i =>
      obtain ⟨d, hd, hattributed⟩ := hrest i u hu (hload.changes.sound hs) (hsettles.clean hc)
        (fun d hd => (hlrest d hd).of_settles hsettles) e (map_eq_error_iff.1 he)
      exact ⟨d, List.mem_cons_of_mem _ hd, hattributed.of_settles hsettles⟩

end Loader

/-! ### An array of a class that extends itself -/

theorem Loader.AtRest.slot?_eq_none {config : LoaderConfig} {search : ClassSearch} {s : Loader}
    {name : String} (h : s.AtRest) (hs : s.Sound config search)
    (hn : ¬Loadable config search name) : s.slot? name = none := by
  cases hslot : s.slot? name with
  | none => rfl
  | some x =>
    obtain ⟨id, rfl⟩ := h.loaded name x hslot
    have hloaded : s.findLoaded? name = some id := by simp [findLoaded?, hslot]
    exact absurd (hs.loadable hloaded) hn

namespace SmallPath

theorem ofName_loops : Blueprint.ofName search "[LLoop;" = .ok (.array (.object "Loop")) := rfl

theorem not_loadable_loops : ¬Loadable .standard search "[LLoop;" := fun h =>
  not_loadable_loop .standard (h.needed ⟨_, ofName_loops, List.mem_cons_self⟩)

theorem load_loop {env : Environment} {s : Loader} (hsearch : env.search = search) (hs : s.Tidy)
    (free : s.slot? "Loop" = none) : (s.load env "Loop").1 = .error (.circular "Loop") := by
  have hloading : ((s.acquire mainThread "Loop").noteLookup "Loop").slot? "Loop" =
      some .loading := by
    rw [Loader.slot?_noteLookup, Loader.slot?_acquire hs, if_pos rfl]
  rw [Loader.load_of_blueprint free (hsearch ▸ ofName_loop), Loader.complete_fst_eq_error]
  simp only [Blueprint.dependencies, Option.toList_some, List.append_nil, Loader.loadAll_cons,
    Loader.load_of_loading hloading]
  rfl

end SmallPath

namespace Machine.Reachable

variable {config : LoaderConfig} {search : ClassSearch} {m : Machine}

/-- When nothing is in progress, the error of a load names a class that the load needs. The class is
not loaded, its own load fails with the very same error, and if the error is that of a circular
dependency then the class depends on itself. -/
theorem load_error_attributed (hm : m.Reachable config search) (hrest : m.loader.AtRest)
    (initializer : StaticInitializer) (name : String) (e : LoadError)
    (he : (m.loader.load ⟨config, search, initializer⟩ name).1 = .error e) :
    ∃ culprit, e.className? = some culprit ∧
      Relation.ReflTransGen search.Needs name culprit ∧
      (m.loader.load ⟨config, search, initializer⟩ name).2.findLoaded? culprit = none ∧
      ((m.loader.load ⟨config, search, initializer⟩ name).2.load ⟨config, search, initializer⟩
        culprit).1 = .error e ∧
      ∀ other, e = .circular other →
        other = culprit ∧ Relation.TransGen search.Needs culprit culprit := by
  have hs := hm.sound.loader
  have hfinishes := Loader.Finishes.load ⟨config, search, initializer⟩ m.loader name
  have ht := (hs.load ⟨config, search, initializer⟩ name).changes.sound hs
  have hrest' := hrest.finishes hs hfinishes
  obtain ⟨culprit, hname, hneeds, ⟨hloading, -⟩ | halone⟩ :=
    (Loader.load_attributed ⟨config, search, initializer⟩).1 m.loader name hs hrest.clean
      (fun other hother => absurd hother (hrest.not_loading other)) e he
  · exact absurd hloading (hrest.not_loading culprit)
  · have hfails := halone.fails _ ht hrest'
    refine ⟨culprit, hname, hneeds, ?_, hfails, fun other hother => ?_⟩
    · rw [Option.eq_none_iff_forall_not_mem]
      intro id hid
      rw [Loader.load_eq_of_findLoaded? hid] at hfails
      cases hfails
    · have hcircle := halone.circle other hother
      rw [hother] at hname
      cases hname
      exact ⟨rfl, hcircle⟩

/-- An array of a class that extends itself fails for the fault of that class. -/
theorem array_of_loop_attributed : ∃ s : Loader,
    Reachable .standard SmallPath.search ⟨s, #[]⟩ ∧ s.AtRest ∧
      (s.load ⟨.standard, SmallPath.search, .skip⟩ "[LLoop;").1 = .error (.circular "Loop") ∧
      Relation.ReflTransGen SmallPath.search.Needs "[LLoop;" "Loop" ∧
      (s.load ⟨.standard, SmallPath.search, .skip⟩ "[LLoop;").2.findLoaded? "Loop" = none ∧
      ((s.load ⟨.standard, SmallPath.search, .skip⟩ "[LLoop;").2.load
        ⟨.standard, SmallPath.search, .skip⟩ "Loop").1 = .error (.circular "Loop") ∧
      Relation.TransGen SmallPath.search.Needs "Loop" "Loop" := by
  obtain ⟨s, hs⟩ := (Loader.bootstrap_isOk_iff ⟨.standard, SmallPath.search, .skip⟩).2
    SmallPath.loadable_class
  have hhistory : Loader.History .standard SmallPath.search s := .ready .skip hs
  have hm : Reachable .standard SmallPath.search ⟨s, #[]⟩ := .ready .skip hs
  have he : (s.load ⟨.standard, SmallPath.search, .skip⟩ "[LLoop;").1 =
      .error (.circular "Loop") := by
    have hloop := hhistory.atRest.slot?_eq_none hhistory.sound
      (SmallPath.not_loadable_loop .standard)
    have harray := hhistory.atRest.slot?_eq_none hhistory.sound SmallPath.not_loadable_loops
    have hload : s.load ⟨.standard, SmallPath.search, .skip⟩ "[LLoop;" = _ :=
      Loader.load_of_blueprint harray SmallPath.ofName_loops
    have hfirst : (((s.acquire mainThread "[LLoop;").noteLookup "[LLoop;").load
        ⟨.standard, SmallPath.search, .skip⟩ "Loop").1 = .error (.circular "Loop") :=
      SmallPath.load_loop rfl
        ((Loader.Changes.acquire _ _ harray mainThread).sound hhistory.sound).toTidy (by
          rw [Loader.slot?_noteLookup, Loader.slot?_acquire hhistory.sound.toTidy]
          exact hloop)
    rw [hload, Loader.complete_fst_eq_error]
    simp only [Blueprint.dependencies, FieldType.className, Loader.loadAll_cons]
    split
    · next heq =>
      rw [heq] at hfirst
      cases hfirst
      rfl
    · next heq =>
      rw [heq] at hfirst
      cases hfirst
  obtain ⟨culprit, hname, hneeds, hnone, hfails, hcircle⟩ :=
    load_error_attributed hm hhistory.atRest .skip "[LLoop;" _ he
  cases hname
  exact ⟨s, hm, hhistory.atRest, he, hneeds, hnone, hfails, (hcircle _ rfl).2⟩

end Machine.Reachable

end ClassLoading
