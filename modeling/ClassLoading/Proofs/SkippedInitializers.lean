import ClassLoading.Proofs.Initializing

/-! Loaders that leave out the static initializers. Between requests a class is as it left its
definition or, where requests initialize, ordinary and initialized; none is in between, and none has
failed. So a request for initialization always succeeds, and how far the class has come that a
request was for depends on its kind alone. -/
namespace ClassLoading

/-- The stage of a class of a kind that a request was for, with its initialization or without. -/
def ClassKind.stageAfter (run : Bool) : ClassKind → Stage
  | .ordinary => if run then .initialized else .resolved
  | .primitive _ => .initialized
  | .array _ _ => .resolved

/-- Only the initialization of ordinary classes makes a difference. -/
theorem ClassKind.stageAfter_eq_of_ne {kind : ClassKind} (h : kind ≠ .ordinary) (run run' : Bool) :
    kind.stageAfter run = kind.stageAfter run' := by
  cases kind with
  | ordinary => exact absurd rfl h
  | primitive type => rfl
  | array component dimensions => rfl

namespace LoadedClass

/-! ### Single classes -/

/-- A class as it left its definition. -/
structure Untouched (c : LoadedClass) : Prop where
  stage : c.stage = c.kind.stageAfter false
  status : c.kind = .ordinary → c.initStatus = .notStarted

/-- An ordinary class whose initialization is over. -/
structure Initialized (c : LoadedClass) : Prop where
  kind : c.kind = .ordinary
  stage : c.stage = .initialized
  status : c.initStatus = .done

/-- What requests that initialize, or that do not, make of a class. -/
def Idle (run : Bool) (c : LoadedClass) : Prop := c.Untouched ∨ run = true ∧ c.Initialized

variable {run : Bool} {c d : LoadedClass}

theorem Untouched.of_standing (h : c.Untouched) (heq : d.standing = c.standing) :
    d.Untouched := by
  obtain ⟨-, hkind, hstage, hstatus⟩ := eq_of_standing heq
  constructor
  · rw [hstage, hkind, h.stage]
  · rw [hkind, hstatus]
    exact h.status

theorem Initialized.of_standing (h : c.Initialized) (heq : d.standing = c.standing) :
    d.Initialized := by
  obtain ⟨-, hkind, hstage, hstatus⟩ := eq_of_standing heq
  exact ⟨hkind.trans h.kind, hstage.trans h.stage, hstatus.trans h.status⟩

theorem Idle.of_standing (h : c.Idle run) (heq : d.standing = c.standing) : d.Idle run :=
  h.imp (fun hc => hc.of_standing heq) fun hc => ⟨hc.1, hc.2.of_standing heq⟩

theorem untouched_buildOrdinary {config : LoaderConfig} {classes : ClassTable} {name : String}
    {file : ClassFile} {superClass : Option ClassId} {interfaces : List ClassId}
    (h : Blueprint.buildOrdinary config classes name file superClass interfaces = .ok c) :
    c.Untouched := by
  have hprogress := Blueprint.progress_buildOrdinary h
  simp only [progress, Prod.mk.injEq] at hprogress
  obtain ⟨hkind, hstage, hstatus, -⟩ := hprogress
  exact ⟨by rw [hkind, hstage]; rfl, fun _ => hstatus⟩

theorem untouched_build {config : LoaderConfig} {classes : ClassTable} {name : String}
    {plan : Blueprint} {ids : List ClassId} (h : plan.build config classes name ids = .ok c) :
    c.Untouched := by
  unfold Blueprint.build at h
  split at h
  · cases h
    exact ⟨rfl, nofun⟩
  · cases h
    exact ⟨rfl, nofun⟩
  · cases h
  · exact untouched_buildOrdinary h
  · exact untouched_buildOrdinary h
  · cases h

/-- What classes have as they leave their definition, and what depends on their standing alone. -/
structure Lasting (P : LoadedClass → Prop) : Prop where
  untouched : ∀ {c}, c.Untouched → P c
  of_standing : ∀ {c d}, P c → d.standing = c.standing → P d

theorem lasting_idle (run : Bool) : Lasting (Idle run) := ⟨.inl, Idle.of_standing⟩

theorem Untouched.initAnswer?_eq_none (h : c.Untouched) (ho : c.kind = .ordinary) :
    c.initAnswer? = none := initAnswer?_eq_none_iff.2 ⟨ho, h.status ho⟩

theorem Idle.initAnswer?_ne_error (h : c.Idle run) (e : LoadError) :
    c.initAnswer? ≠ some (.error e) := by
  rcases h with h | ⟨-, h⟩
  · by_cases ho : c.kind = .ordinary
    · rw [h.initAnswer?_eq_none ho]
      exact nofun
    · simp [initAnswer?, ho]
  · simp [initAnswer?, h.kind, h.status]

theorem initAnswer?_startInit (ho : c.kind = .ordinary) :
    c.startInit.initAnswer? = some (.ok ()) := by
  simp [initAnswer?, startInit, ho]

theorem initialized_endInit (ho : c.kind = .ordinary) : (c.endInit (.ok ())).Initialized := by
  refine ⟨ho, ?_, rfl⟩
  simp only [endInit, advance]
  cases c.stage <;> rfl

end LoadedClass

theorem Environment.initializerOf?_of_skip {env : Environment} (h : env.initializer = .skip)
    (c : LoadedClass) : env.initializerOf? c = none := by
  simp [initializerOf?, h]

namespace Loader

variable {run : Bool} {env : Environment} {s t : Loader} {id : ClassId}

/-! ### Loads -/

/-- Every class of the table has the property. -/
def Every (P : LoadedClass → Prop) (s : Loader) : Prop :=
  ∀ (id : ClassId) (c : LoadedClass), s.classes[id]? = some c → P c

section

variable {P : LoadedClass → Prop}

theorem Every.of_classes (h : s.Every P) (ht : t.classes = s.classes) : t.Every P := by
  intro i c hc
  rw [ht] at hc
  exact h i c hc

theorem Every.push (h : s.Every P) {c : LoadedClass} (hc : P c)
    (ht : t.classes = s.classes.push c) : t.Every P := by
  intro i d hd
  rw [ht, Array.getElem?_push] at hd
  split at hd
  · cases hd
    exact hc
  · exact h i d hd

theorem Every.updateClass (h : s.Every P) {f : LoadedClass → LoadedClass}
    (hf : ∀ c, s.classes[id]? = some c → P (f c)) : (s.updateClass id f).Every P := by
  intro i d hd
  rw [getElem?_updateClass] at hd
  split at hd
  · next heq =>
    obtain ⟨c, hc, rfl⟩ := Option.map_eq_some_iff.1 hd
    exact hf c (heq ▸ hc)
  · exact h i d hd

theorem Every.addClass (hP : LoadedClass.Lasting P) (h : s.Every P) {c : LoadedClass}
    (hc : c.Untouched) : (s.addClass c).Every P := by
  have hstanding : (s.addedClass c).standing = c.standing := by
    unfold addedClass
    split <;> rfl
  exact h.push (hP.untouched (hc.of_standing hstanding)) (congrArg Loader.classes (addClass_eq s c))

theorem Every.attachObject (hP : LoadedClass.Lasting P) (h : s.Every P) (classClass id : ClassId) :
    (s.attachObject classClass id).Every P := by
  unfold Loader.attachObject
  split
  · exact h
  · next c _ =>
    have hpooled := h.of_classes (pooledObject_fields s classClass id c.name).2.2
    exact hpooled.updateClass fun d hd => hP.of_standing (hpooled id d hd) rfl

theorem load_every (hP : LoadedClass.Lasting P) (env : Environment) :
    (∀ (s : Loader) (name : String), s.Sound env.config env.search → s.Every P →
      (s.load env name).2.Every P) ∧
    ∀ (s : Loader) (names : List String), s.Sound env.config env.search → s.Every P →
      (s.loadAll env names).2.Every P := by
  refine load_preserves env (fun s name _ _ h => h.of_classes (classes_noteLookup ..))
    fun s name slot r _ _ hbuilds h => ?_
  cases r with
  | error e => exact h
  | ok c =>
    obtain ⟨plan, ids, -, -, hbuild⟩ := hbuilds c rfl
    exact (h.addClass hP (LoadedClass.untouched_build hbuild)).of_classes rfl

theorem every_bootstrap (hP : LoadedClass.Lasting P) (h : bootstrap env = .ok t) : t.Every P :=
  bootstrap_preserves (fun _ _ hc => by cases hc) (load_every hP env) (fun _ _ hs => hs)
    (fun _ classClass id hs => hs.attachObject hP classClass id) h

end

/-- Requests that initialize, or that do not, have made of every class what they can. -/
def Idle (run : Bool) (s : Loader) : Prop :=
  ∀ (id : ClassId) (c : LoadedClass), s.classes[id]? = some c → c.Idle run

theorem load_idle (env : Environment) :
    (∀ (s : Loader) (name : String), s.Sound env.config env.search → s.Idle run →
      (s.load env name).2.Idle run) ∧
    ∀ (s : Loader) (names : List String), s.Sound env.config env.search → s.Idle run →
      (s.loadAll env names).2.Idle run := load_every (LoadedClass.lasting_idle run) env

/-- Each class stays as it is, or its initialization has started and has come to its end. -/
def StaysOrEnds (s t : Loader) : Prop :=
  ∀ (i : ClassId) (d : LoadedClass), t.classes[i]? = some d → ∃ c, s.classes[i]? = some c ∧
    (d.standing = c.standing ∨ c.initAnswer? = none ∧ d.Initialized)

theorem StaysOrEnds.refl (s : Loader) : StaysOrEnds s s := fun _ d hd => ⟨d, hd, .inl rfl⟩

/-- An initialization that starts ends well if all that happens in between does. -/
theorem StaysOrEnds.endInit {c : LoadedClass} (hc : s.classes[id]? = some c)
    (ha : c.initAnswer? = none)
    (h : StaysOrEnds (s.updateClass id LoadedClass.startInit) t) :
    StaysOrEnds s (t.endInit id (.ok ())) := by
  obtain ⟨ho, -⟩ := LoadedClass.initAnswer?_eq_none_iff.1 ha
  intro i d hd
  rw [Loader.endInit, getElem?_updateClass] at hd
  split at hd
  · next heq =>
    subst heq
    obtain ⟨e, he, rfl⟩ := Option.map_eq_some_iff.1 hd
    obtain ⟨b, hb, hcases⟩ := h id e he
    rw [getElem?_updateClass, if_pos rfl, hc] at hb
    cases hb
    have hkind : e.kind = .ordinary := by
      rcases hcases with hstanding | ⟨-, hdone⟩
      · exact (LoadedClass.eq_of_standing hstanding).2.1.trans ho
      · exact hdone.kind
    exact ⟨c, hc, .inr ⟨ha, LoadedClass.initialized_endInit hkind⟩⟩
  · next hne =>
    obtain ⟨b, hb, hcases⟩ := h i d hd
    rw [getElem?_updateClass, if_neg hne] at hb
    exact ⟨b, hb, hcases⟩

/-- No class refuses its initialization because of an earlier failure. -/
def Willing (s : Loader) : Prop :=
  ∀ (i : ClassId) (c : LoadedClass) (e : LoadError), s.classes[i]? = some c →
    c.initAnswer? ≠ some (.error e)

theorem Willing.startInit (h : s.Willing) {c : LoadedClass} (hc : s.classes[id]? = some c)
    (ha : c.initAnswer? = none) : (s.updateClass id LoadedClass.startInit).Willing := by
  obtain ⟨ho, -⟩ := LoadedClass.initAnswer?_eq_none_iff.1 ha
  intro i b e hb
  rw [getElem?_updateClass] at hb
  split at hb
  · next heq =>
    rw [← heq, hc] at hb
    cases hb
    rw [LoadedClass.initAnswer?_startInit ho]
    exact nofun
  · exact h i b e hb

/-- No class is loaded and none is looked up on the way. -/
structure LoadsNothing (s t : Loader) : Prop where
  lookups : t.lookups = s.lookups
  findLoaded? : ∀ name, t.findLoaded? name = s.findLoaded? name

theorem LoadsNothing.refl (s : Loader) : LoadsNothing s s := ⟨rfl, fun _ => rfl⟩

theorem init_of_skip (hskip : env.initializer = .skip) :
    (∀ (s : Loader) (id : ClassId), s.Willing →
      ∃ t, s.initClass env id = (.ok (), t) ∧ StaysOrEnds s t ∧ LoadsNothing s t) ∧
    (∀ (_ : Loader) (_ : ClassId) (_ : List Action), True) ∧ ∀ (_ : Loader) (_ : String), True := by
  apply init_call_induct env
  case absent => exact fun s id hc _ => ⟨s, initClass_of_none hc, .refl s, .refl s⟩
  case answered =>
    intro s id c r hc ha hs
    cases r with
    | error e => exact absurd ha (hs id c e hc)
    | ok u => exact ⟨s, initClass_of_answer hc ha, .refl s, .refl s⟩
  case started =>
    intro s id c hc ha ih _ hs
    obtain ⟨t, hsuper, ht, hnothing⟩ : ∃ t, (s.updateClass id LoadedClass.startInit).initSuper env
        c.superClass = (.ok (), t) ∧ StaysOrEnds (s.updateClass id LoadedClass.startInit) t ∧
          LoadsNothing (s.updateClass id LoadedClass.startInit) t := by
      cases c.superClass with
      | none => exact ⟨_, rfl, .refl _, .refl _⟩
      | some parent => exact ih parent (hs.startInit hc ha)
    refine ⟨t.endInit id (.ok ()), ?_, ht.endInit hc ha, hnothing.lookups, hnothing.findLoaded?⟩
    rw [initClass_of_start hc ha, hsuper]
    simp only [initOwn, env.initializerOf?_of_skip hskip]
  -- there are no static initializers whose actions would matter
  all_goals intros; trivial

/-- A request for initialization succeeds, loads nothing, and is over with the class initialized,
unless it is of a kind that has no initialization. -/
theorem Idle.initClass (h : s.Idle true) (hs : s.Sound env.config env.search)
    (hskip : env.initializer = .skip) (id : ClassId) :
    ∃ t, s.initClass env id = (.ok (), t) ∧ t.Idle true ∧ LoadsNothing s t ∧
      ∀ d, t.classes[id]? = some d → d.stage = d.kind.stageAfter true := by
  obtain ⟨t, heq, ht, hnothing⟩ := (init_of_skip hskip).1 s id fun i c e hc =>
    (h i c hc).initAnswer?_ne_error e
  have hidle : t.Idle true := by
    intro i d hd
    obtain ⟨c, hc, hstanding | ⟨-, hdone⟩⟩ := ht i d hd
    · exact (h i c hc).of_standing hstanding
    · exact .inr ⟨rfl, hdone⟩
  refine ⟨t, heq, hidle, hnothing, fun d hd => ?_⟩
  rcases hidle id d hd with huntouched | ⟨-, hdone⟩
  · have hne : d.kind ≠ .ordinary := by
      intro ho
      obtain ⟨c, hc, hstanding | ⟨-, hdone⟩⟩ := ht id d hd
      · have hkind := (LoadedClass.eq_of_standing hstanding).2.1
        obtain ⟨d', hd', houtcome⟩ := hs.initClass_outcome hc (hkind.symm.trans ho)
        rw [heq, hd] at hd'
        cases hd'
        simpa [huntouched.status ho] using houtcome.succeeds (by rw [heq])
      · simpa [huntouched.status ho] using hdone.status
    rw [huntouched.stage, ClassKind.stageAfter_eq_of_ne hne false true]
  · rw [hdone.stage, hdone.kind]
    rfl

end Loader

end ClassLoading
