import ClassLoading.Proofs.Lookups
import ClassLoading.Proofs.Preparation

/-! The static values of a class from its preparation on. Loads, links, class objects and the marks
of an initialization leave the static values of every class alone, whichever thread they are the
work of. In a run with any number of threads that stores nothing else in the cells of a class, the
class therefore has the values that it was prepared with. -/
namespace ClassLoading

/-! ### Classes that nothing was stored to -/

namespace LoadedClass

variable {config : LoaderConfig} {search : ClassSearch} {c d e : LoadedClass}

/-- The same class with the same static values. -/
def SameStatics (d c : LoadedClass) : Prop := d.fixed = c.fixed ∧ d.statics = c.statics

theorem SameStatics.trans (h : e.SameStatics d) (h' : d.SameStatics c) : e.SameStatics c :=
  ⟨h.1.trans h'.1, h.2.trans h'.2⟩

/-- The class has the static values that it was built with. -/
def AsBuilt (config : LoaderConfig) (search : ClassSearch) (c : LoadedClass) : Prop :=
  ∃ past plan ids built, Blueprint.ofName search c.name = .ok plan ∧
    plan.build config past c.name ids = .ok built ∧ c.SameStatics built

theorem AsBuilt.of_build {past : ClassTable} {name : String} {plan : Blueprint} {ids : List ClassId}
    (hplan : Blueprint.ofName search name = .ok plan)
    (hbuild : plan.build config past name ids = .ok c) : c.AsBuilt config search := by
  obtain rfl := (Blueprint.references_build hbuild).1
  exact ⟨past, plan, ids, c, hplan, hbuild, rfl, rfl⟩

theorem AsBuilt.of_same (h : c.AsBuilt config search) (hd : d.SameStatics c) :
    d.AsBuilt config search := by
  obtain ⟨past, plan, ids, built, hplan, hbuild, hsame⟩ := h
  have hname : d.name = c.name := congrArg (·.name) hd.1
  rw [← hname] at hplan hbuild
  exact ⟨past, plan, ids, built, hplan, hbuild, hd.trans hsame⟩

theorem StartsOut.of_same {constants : Bool} {pool : ConstantPool} (h : c.StartsOut constants pool)
    (hd : d.SameStatics c) : d.StartsOut constants pool := by
  have hfields : d.fields = c.fields := congrArg (·.fields) hd.1
  refine ⟨?_, ?_⟩
  · rw [hfields, hd.2]
    exact h.cells
  · rw [hfields, hd.2]
    exact h.values

theorem sameStatics_startInit (c : LoadedClass) : c.startInit.SameStatics c := ⟨rfl, rfl⟩

theorem sameStatics_endInit (c : LoadedClass) (r : Except LoadError Unit) :
    (c.endInit r).SameStatics c := ⟨c.fixed_endInit r, by cases r <;> rfl⟩

theorem sameStatics_link (c : LoadedClass) (index : UInt16) (target : ClassId) :
    (c.link index target).SameStatics c := ⟨c.fixed_link index target, c.statics_link index target⟩

end LoadedClass

theorem Blueprint.startsOut_buildOrdinary {config : LoaderConfig} {classes : ClassTable}
    {name : String} {file : ClassFile} {superClass : Option ClassId} {interfaces : List ClassId}
    {c : LoadedClass} (h : buildOrdinary config classes name file superClass interfaces = .ok c) :
    c.StartsOut config.constantStatics file.pool := by
  obtain ⟨declared, prepared, hdeclared, -, hprepared, hresolved⟩ := buildOrdinary_eq_ok h
  have hstarts := ((blank_of_declared hdeclared).advance .verified).startsOut hprepared
  obtain ⟨constants, -, rfl⟩ := LoadedClass.resolve_eq_ok hresolved
  exact ⟨hstarts.cells, hstarts.values⟩

namespace LoadedClass.AsBuilt

variable {config : LoaderConfig} {search : ClassSearch} {c : LoadedClass} {file : ClassFile}
  {superName : Option String} {interfaceNames : List String}

theorem exists_buildOrdinary (h : c.AsBuilt config search)
    (hplan : Blueprint.ofName search c.name = .ok (.ordinary file superName interfaceNames)) :
    ∃ past superClass interfaces built,
      Blueprint.buildOrdinary config past c.name file superClass interfaces = .ok built ∧
        c.SameStatics built := by
  obtain ⟨past, plan, ids, built, hplan', hbuild, hsame⟩ := h
  rw [hplan] at hplan'
  cases hplan'
  cases superName with
  | none => exact ⟨past, none, ids, built, hbuild, hsame⟩
  | some parent =>
    cases ids with
    | nil => cases hbuild
    | cons id ids => exact ⟨past, some id, ids, built, hbuild, hsame⟩

/-- The class of a file has the fields that the file declares, and their cells are as they were
prepared. -/
theorem startsOut (h : c.AsBuilt config search)
    (hplan : Blueprint.ofName search c.name = .ok (.ordinary file superName interfaceNames)) :
    (∃ declarations slot, file.fields.mapM (file.pool.decodeField c.name) = .ok declarations ∧
        c.fields = FieldDeclaration.layout slot 0 declarations) ∧
      c.StartsOut config.constantStatics file.pool := by
  obtain ⟨past, superClass, interfaces, built, hbuild, hsame⟩ := h.exists_buildOrdinary hplan
  obtain ⟨declarations, methods, hdecode, -, houtline⟩ := Blueprint.outline_buildOrdinary hbuild
  have hfields : c.fields = built.fields := congrArg (·.fields) hsame.1
  rw [hfields]
  exact ⟨⟨declarations, _, hdecode, congrArg (·.fields) houtline⟩,
    (Blueprint.startsOut_buildOrdinary hbuild).of_same hsame⟩

end LoadedClass.AsBuilt

/-! ### What leaves static values alone -/

namespace Loader

/-- The classes of the later table are new, or they have the static values that they had. -/
def KeepsStatics (config : LoaderConfig) (search : ClassSearch) (s t : Loader) : Prop :=
  ∀ (id : ClassId) (d : LoadedClass), t.classes[id]? = some d →
    (∃ c, s.classes[id]? = some c ∧ d.SameStatics c) ∨ d.AsBuilt config search

variable {config : LoaderConfig} {search : ClassSearch} {env : Environment} {s t u : Loader}

namespace KeepsStatics

theorem of_classes (h : t.classes = s.classes) : KeepsStatics config search s t := by
  intro id d hd
  rw [h] at hd
  exact .inl ⟨d, hd, rfl, rfl⟩

theorem refl (s : Loader) : KeepsStatics config search s s := of_classes rfl

theorem trans (h : KeepsStatics config search s t) (h' : KeepsStatics config search t u) :
    KeepsStatics config search s u := by
  intro id e he
  rcases h' id e he with ⟨d, hd, hsame⟩ | hbuilt
  · rcases h id d hd with ⟨c, hc, hsame'⟩ | hbuilt
    · exact .inl ⟨c, hc, hsame.trans hsame'⟩
    · exact .inr (hbuilt.of_same hsame)
  · exact .inr hbuilt

theorem updateClass (s : Loader) (id : ClassId) {f : LoadedClass → LoadedClass}
    (hf : ∀ c, (f c).SameStatics c) : KeepsStatics config search s (s.updateClass id f) := by
  intro i d hd
  rw [getElem?_updateClass] at hd
  split at hd
  · next heq =>
    subst heq
    obtain ⟨c, hc, rfl⟩ := Option.map_eq_some_iff.1 hd
    exact .inl ⟨c, hc, hf c⟩
  · exact .inl ⟨d, hd, rfl, rfl⟩

theorem attachObject (s : Loader) (classClass id : ClassId) :
    KeepsStatics config search s (s.attachObject classClass id) := by
  unfold Loader.attachObject
  split
  · exact refl s
  · next c hc =>
    obtain ⟨-, -, hclasses⟩ := pooledObject_fields s classClass id c.name
    exact (of_classes hclasses).trans (updateClass _ id fun _ => ⟨rfl, rfl⟩)

theorem addClass {c : LoadedClass} (h : c.AsBuilt config search) :
    KeepsStatics config search s (s.addClass c) := by
  intro id d hd
  rw [addClass_eq, Array.getElem?_push] at hd
  split at hd
  · cases hd
    refine .inr (h.of_same ⟨fixed_addedClass s c, ?_⟩)
    unfold addedClass
    split <;> rfl
  · exact .inl ⟨d, hd, rfl, rfl⟩

end KeepsStatics

theorem load_keepsStatics (env : Environment) (past : Loader) :
    (∀ s name, s.Sound env.config env.search → KeepsStatics env.config env.search past s →
      KeepsStatics env.config env.search past (s.load env name).2) ∧
    ∀ s names, s.Sound env.config env.search → KeepsStatics env.config env.search past s →
      KeepsStatics env.config env.search past (s.loadAll env names).2 := by
  refine load_preserves env (fun s name _ _ h => h.trans (.of_classes (classes_noteLookup ..))) ?_
  intro s name slot r _ _ hbuilds h
  cases r with
  | error e => exact h.trans (.of_classes rfl)
  | ok c =>
    obtain ⟨plan, ids, hplan, -, hbuild⟩ := hbuilds c rfl
    exact (h.trans (.addClass (.of_build hplan hbuild))).trans (.of_classes rfl)

theorem Sound.load_keepsStatics (env : Environment) (hs : s.Sound env.config env.search)
    (name : String) :
    KeepsStatics env.config env.search s (s.load env name).2 :=
  (Loader.load_keepsStatics env s).1 s name hs (.refl s)

theorem Sound.resolveClass_keepsStatics (hs : s.Sound env.config env.search)
    (id : Fin s.classes.size) (index : UInt16) :
    KeepsStatics env.config env.search s (s.resolveClass env id index).2 := by
  have hlink : ∀ (t : Loader) (target : ClassId),
      KeepsStatics env.config env.search t (t.updateClass id (·.link index target)) :=
    fun t target => .updateClass t id fun c => c.sameStatics_link index target
  simp only [resolveClass]
  split
  · exact .refl s
  · exact .refl s
  · next other _ =>
    split
    · exact hlink s id
    · have hload := hs.load_keepsStatics env other
      split
      · next heq => rwa [heq] at hload
      · next target t heq =>
        rw [heq] at hload
        exact hload.trans (hlink t target)
  · exact .refl s

theorem KeepsStatics.bootstrap (h : bootstrap env = .ok s) :
    KeepsStatics env.config env.search empty s :=
  bootstrap_preserves (.refl empty) (load_keepsStatics env empty)
    (fun _ _ hk => hk.trans (.of_classes rfl))
    (fun t classClass id hk => hk.trans (.attachObject t classClass id)) h

end Loader

/-! ### A loader at work -/

/-- A loader with its own thread, at one moment of its work, and the threads that load beside it. -/
structure Scene where
  machine : Machine
  focus : Focus
  frames : List Frame

namespace Scene

def loader (p : Scene) : Loader := p.machine.loader

def moment (p : Scene) : Moment := ⟨p.loader, p.focus, p.frames⟩

/-- A loader that is ready and has not been asked for anything. -/
def ready (s : Loader) : Scene := ⟨⟨s, #[]⟩, .free, []⟩

/-- A move of the loader's own thread or of one of the others. -/
inductive Step (config : LoaderConfig) (search : ClassSearch) : Scene → Scene → Prop
  | own {p : Scene} {q : Moment} (initializer : StaticInitializer)
      (h : Move ⟨config, search, initializer⟩ p.moment q) :
      Step config search p ⟨⟨q.loader, p.machine.threads⟩, q.focus, q.frames⟩
  | other {p : Scene} {m : Machine} (initializer : StaticInitializer)
      (h : Machine.Move ⟨config, search, initializer⟩ p.machine m) :
      Step config search p ⟨m, p.focus, p.frames⟩

def Steps (config : LoaderConfig) (search : ClassSearch) : Scene → Scene → Prop :=
  Relation.ReflTransGen (Step config search)

/-- A cell of a class is given another value, on request or by a static initializer. -/
def Stores (id : ClassId) (p q : Scene) : Prop :=
  p.focus = .free ∧ ∃ slot value t, p.loader.setStatic id slot value = (true, t) ∧
    t ≠ p.loader ∧ q = ⟨⟨t, p.machine.threads⟩, .free, p.frames⟩

/-- Runs that give no cell of a class another value. -/
def StepsSparing (config : LoaderConfig) (search : ClassSearch) (id : ClassId) :
    Scene → Scene → Prop :=
  Relation.ReflTransGen fun p q => Step config search p q ∧ ¬Stores id p q

variable {config : LoaderConfig} {search : ClassSearch} {p q : Scene} {s : Loader} {id : ClassId}
  {c : LoadedClass}

theorem Step.turns (h : Step config search p q) :
    Machine.Turns config search p.machine q.machine := by
  cases h with
  | own initializer h => exact Machine.turns_of_effects h.effects
  | other initializer h => exact .single (.move initializer h)

theorem Steps.turns (h : Steps config search p q) :
    Machine.Turns config search p.machine q.machine := by
  induction h with
  | refl => exact .refl
  | tail _ hlast ih => exact ih.trans hlast.turns

theorem StepsSparing.steps (h : StepsSparing config search id p q) : Steps config search p q :=
  Relation.ReflTransGen.mono (fun _ _ (hstep : Step config search _ _ ∧ _) => hstep.1) _ _ h

end Scene

/-! ### Only stores change static values -/

/-- A store changes the static values of its class at most. -/
theorem Loader.sameStatics_of_setStatic {s t : Loader} {id i : ClassId} {slot : Nat} {value : Value}
    {stored : Bool} (h : s.setStatic id slot value = (stored, t)) {d : LoadedClass}
    (hd : t.classes[i]? = some d) :
    (∃ c, s.classes[i]? = some c ∧ d.SameStatics c) ∨ id = i ∧ stored = true := by
  unfold setStatic at h
  split at h
  · cases h
    rw [getElem?_updateClass] at hd
    split at hd
    · next heq => exact .inr ⟨heq, rfl⟩
    · exact .inl ⟨d, hd, rfl, rfl⟩
  · cases h
    exact .inl ⟨d, hd, rfl, rfl⟩

theorem Move.keepsStatics {env : Environment} {p q : Moment} (h : Move env p q)
    (hs : p.loader.Sound env.config env.search) :
    Loader.KeepsStatics env.config env.search p.loader q.loader ∨
      ∃ id slot value, p.focus = .free ∧
        q = ⟨(p.loader.setStatic id slot value).2, .free, p.frames⟩ := by
  have hend : ∀ (s : Loader) (id : ClassId) (r : Except LoadError Unit),
      Loader.KeepsStatics env.config env.search s (s.endInit id r) := fun s id r =>
    .updateClass s id fun c => c.sameStatics_endInit r
  cases h with
  | store s frames id slot value => exact .inr ⟨id, slot, value, rfl, rfl⟩
  | load s frames name => exact .inl (hs.load_keepsStatics env name)
  | object s frames id =>
    left
    simp only [Loader.objectOf]
    split
    · exact .attachObject s _ id
    · exact .refl s
  | resolve s frames id index => exact .inl (hs.resolveClass_keepsStatics id index)
  | init s frames id => exact .inl (.refl s)
  | absent frames hc => exact .inl (.refl _)
  | answer frames hc ha => exact .inl (.refl _)
  | start frames hc ha => exact .inl (.updateClass _ _ LoadedClass.sameStatics_startInit)
  | giveUp s id frames e => exact .inl (hend s id _)
  | skip frames hc hi => exact .inl (hend _ _ _)
  | enter frames hc hi => exact .inl (.of_classes rfl)
  | leave frames hc r => exact .inl (hend _ _ _)
  | resume s r hframes => exact .inl (.refl s)

theorem Machine.Sound.keepsStatics {config : LoaderConfig} {search : ClassSearch}
    {initializer : StaticInitializer} {m m' : Machine} (hs : m.Sound config search)
    (h : Move ⟨config, search, initializer⟩ m m') :
    Loader.KeepsStatics config search m.loader m'.loader := by
  cases h with
  | spawn name => exact .refl _
  | call name hid => exact .refl _
  | step id hstep =>
    obtain ⟨thread, t, next, hid, hthread, rfl⟩ := step_cases hstep
    have hv := hs.valid thread (Array.mem_toList_iff.2 (Array.mem_of_getElem? hid))
    cases hthread with
    | built hd hb =>
      obtain ⟨name, ⟨rfl, hplan, -⟩, -⟩ := hv
      exact .addClass (.of_build hplan hb)
    | planned hp => exact .of_classes (Loader.classes_noteLookup ..)
    | unknown hp => exact .of_classes (Loader.classes_noteLookup ..)
    | _ => exact .of_classes rfl

namespace Scene

variable {config : LoaderConfig} {search : ClassSearch} {p q : Scene} {s : Loader} {id : ClassId}
  {c : LoadedClass}

theorem Step.statics (h : Step config search p q) (hp : p.machine.Sound config search)
    (hc : q.loader.classes[id]? = some c) :
    ((∃ b, p.loader.classes[id]? = some b ∧ c.SameStatics b) ∨ c.AsBuilt config search) ∨
      Stores id p q := by
  cases h with
  | other initializer h => exact .inl (hp.keepsStatics h id c hc)
  | own initializer h =>
    rcases h.keepsStatics hp.loader with hkeeps | ⟨target, slot, value, hfree, rfl⟩
    · exact .inl (hkeeps id c hc)
    · rcases Loader.sameStatics_of_setStatic rfl hc with hkept | ⟨rfl, hstored⟩
      · exact .inl (.inl hkept)
      · by_cases hsame : (p.loader.setStatic target slot value).2 = p.loader
        · change (p.loader.setStatic target slot value).2.classes[target]? = some c at hc
          rw [hsame] at hc
          exact .inl (.inl ⟨c, hc, rfl, rfl⟩)
        · exact .inr ⟨hfree, slot, value, _, Prod.ext hstored rfl, hsame, rfl⟩

/-- A class has the static values that it was built with, as long as it is given no others. -/
theorem StepsSparing.asBuilt {initializer : StaticInitializer}
    (hs : Loader.bootstrap ⟨config, search, initializer⟩ = .ok s)
    (h : StepsSparing config search id (ready s) q) (hc : q.loader.classes[id]? = some c) :
    c.AsBuilt config search := by
  induction h generalizing c with
  | refl =>
    obtain ⟨b, hb, -⟩ | hbuilt := Loader.KeepsStatics.bootstrap hs id c hc
    · cases hb
    · exact hbuilt
  | tail hbefore hlast ih =>
    have hturns := Steps.turns (StepsSparing.steps hbefore)
    have hsound := ((Machine.Reachable.ready initializer hs).sound.turns hturns).1
    rcases hlast.1.statics hsound hc with (⟨b, hb, hsame⟩ | hbuilt) | hstores
    · exact (ih hb).of_same hsame
    · exact hbuilt
    · exact absurd hstores hlast.2

end Scene

/-- Preparation gives the static fields of a class their constants or rejects the class, and the
classes of a loader have what preparation gave them until something else is stored. -/
theorem statics_start_as_prepared (config : LoaderConfig) :
    (∀ classes name file superClass interfaces declared verified,
      Blueprint.declaredClass classes name file superClass interfaces = .ok declared →
      declared.verify config classes = .ok verified →
      (∃ declarations, file.fields.mapM (file.pool.decodeField name) = .ok declarations ∧
        verified.name = name ∧ verified.fields =
          FieldDeclaration.layout (classes.inheritedSlots superClass) 0 declarations) ∧
      verified.Prepares config file.pool) ∧
    ∀ search initializer s q, Loader.bootstrap ⟨config, search, initializer⟩ = .ok s →
      ∀ id, Scene.StepsSparing config search id (.ready s) q →
      ∀ name file superName interfaceNames, q.loader.findLoaded? name = some id →
        Blueprint.ofName search name = .ok (.ordinary file superName interfaceNames) →
        ∃ c, q.loader.classes[id]? = some c ∧
          (∃ declarations slot, file.fields.mapM (file.pool.decodeField name) = .ok declarations ∧
            c.fields = FieldDeclaration.layout slot 0 declarations) ∧
          c.StartsOut config.constantStatics file.pool := by
  constructor
  · intro classes name file superClass interfaces declared verified hdeclared hverified
    obtain rfl := LoadedClass.verify_eq_ok hverified
    obtain ⟨declarations, hdecode, hfields, -⟩ := Blueprint.statics_of_declared hdeclared
    exact ⟨⟨declarations, hdecode, (Blueprint.hasPool_of_declared hdeclared).2, hfields⟩,
      ((Blueprint.blank_of_declared hdeclared).advance .verified).prepares⟩
  · intro search initializer s q hs id hq name file superName interfaceNames hid hplan
    have hturns := Scene.Steps.turns (Scene.StepsSparing.steps hq)
    have hsound := ((Machine.Reachable.ready initializer hs).sound.turns hturns).1
    obtain ⟨c, hc, rfl, -⟩ := hsound.loader.exists_linked hid
    exact ⟨c, hc, (hq.asBuilt hs hc).startsOut hplan⟩

/-! ### A class with constants -/

namespace ConstantPath

/-- A class file whose static fields, with an instance field among them, are a constant number, a
constant string and a field without a constant. -/
def objectFile : ClassFile :=
  { ClassFile.ofFields objectName none [] with
    pool := ⟨[.utf8 objectName, .classRef 1, .utf8 "ConstantValue", .utf8 "count", .utf8 "I",
      .integer 7, .utf8 "label", .utf8 "Ljava/lang/String;", .utf8 "Hi", .string 9, .utf8 "size",
      .utf8 "J"]⟩
    fields := [⟨24, 4, 5, [⟨3, [0, 6]⟩]⟩, ⟨0, 11, 12, []⟩, ⟨24, 7, 8, [⟨3, [0, 10]⟩]⟩,
      ⟨8, 11, 12, []⟩] }

def search : ClassSearch :=
  .ofFiles [(objectName, objectFile), (classClassName, OddPath.classFile)]

theorem ofName_object : Blueprint.ofName search objectName = .ok (.ordinary objectFile none []) :=
  Blueprint.ofName_of_file (by decide) rfl ⟨by decide +kernel, rfl, rfl, rfl⟩

theorem ofName_class : Blueprint.ofName search classClassName =
    .ok (.ordinary OddPath.classFile (some objectName) []) :=
  Blueprint.ofName_of_file (by decide) rfl OddPath.standsFor_class

theorem decode_object : objectFile.fields.mapM (objectFile.pool.decodeField objectName) =
    .ok [⟨24, "count", .primitive .int, some 6⟩, ⟨0, "size", .primitive .long, none⟩,
      ⟨24, "label", .object stringName, some 10⟩, ⟨8, "size", .primitive .long, none⟩] := rfl

theorem loadable_object : Loadable .standard search objectName := by
  refine .of_plan ofName_object nofun ⟨mapM_isOk_iff.1 ⟨_, decode_object⟩, nofun, by decide, nofun,
    fun _ => .inr rfl, nofun, fun _ m hm d hd _ _ index hindex => ?_, fun owner member hmem => ?_⟩
  · obtain ⟨d', hmem, hd'⟩ := exists_of_mem_forall₂ (forall₂_of_mapM decode_object).flip hm
    rw [hd] at hd'
    cases hd'
    simp only [List.mem_cons, List.not_mem_nil, or_false] at hmem
    rcases hmem with rfl | rfl | rfl | rfl <;> cases hindex
    · exact ⟨.integer 7, rfl, rfl⟩
    · exact ⟨.string 9, rfl, fun _ => rfl⟩
  · simp [objectFile] at hmem

theorem loadable_class : Loadable .standard search classClassName := by
  refine .of_plan ofName_class (List.forall_mem_singleton.2 loadable_object)
    (ClassFile.passes_ofFields_nil ?_)
  rintro ⟨file, superName, interfaceNames, hplan, hflags⟩
  rw [ofName_object] at hplan
  cases hplan
  exact absurd hflags (by decide)

end ConstantPath

/-- A class with constants as it is prepared, and as it still is in a loader that is about to
initialize it. -/
theorem constantFields_start_as_prepared : ∃ declared verified prepared s q id c,
    Blueprint.declaredClass #[] objectName ConstantPath.objectFile none [] = .ok declared ∧
      declared.verify .standard #[] = .ok verified ∧ verified.prepare .standard = .ok prepared ∧
      prepared.statics = #[.int 7, .string "Hi", .long 0] ∧
      prepared.StartsOut true ConstantPath.objectFile.pool ∧
      Loader.bootstrap ⟨.standard, ConstantPath.search, .skip⟩ = .ok s ∧
      Scene.StepsSparing .standard ConstantPath.search id (.ready s) q ∧ q.focus = .call id ∧
      q.loader.findLoaded? objectName = some id ∧ q.loader.classes[id]? = some c ∧
      c.StartsOut true ConstantPath.objectFile.pool ∧ c.statics[0]? = some (.int 7) := by
  have hstatics : (do
      let declared ← Blueprint.declaredClass #[] objectName ConstantPath.objectFile none []
      let verified ← declared.verify .standard #[]
      let prepared ← verified.prepare .standard
      return prepared.statics) = .ok #[.int 7, .string "Hi", .long 0] := by decide +kernel
  obtain ⟨declared, hdeclared, hstatics⟩ := bind_eq_ok_iff.1 hstatics
  obtain ⟨verified, hverified, hstatics⟩ := bind_eq_ok_iff.1 hstatics
  obtain ⟨prepared, hprepared, hstatics⟩ := bind_eq_ok_iff.1 hstatics
  obtain ⟨hfile, hrun⟩ := statics_start_as_prepared .standard
  have hprepares := (hfile _ _ _ _ _ _ _ hdeclared hverified).2
  obtain ⟨s, hs⟩ := (Loader.bootstrap_isOk_iff ⟨.standard, ConstantPath.search, .skip⟩).2
    ConstantPath.loadable_class
  have hsound := (Machine.Reachable.ready .skip hs).sound.loader
  obtain ⟨classClass, hclassClass⟩ := Loader.findLoaded?_bootstrap hs
  obtain ⟨id, hid⟩ := hsound.exists_needed hclassClass
    ⟨_, ConstantPath.ofName_class, List.mem_singleton.2 rfl⟩
  have hq : Scene.StepsSparing .standard ConstantPath.search id (.ready s)
      ⟨⟨s, #[]⟩, .call id, []⟩ := by
    refine .single ⟨.own (p := .ready s) (q := ⟨s, .call id, []⟩) .skip (.init s [] id), ?_⟩
    rintro ⟨-, slot, value, t, -, -, hq⟩
    cases hq
  obtain ⟨c, hc, ⟨declarations, slot, hdecode, hfields⟩, hstarts⟩ :=
    hrun _ _ s _ hs id hq _ _ _ _ hid ConstantPath.ofName_object
  rw [ConstantPath.decode_object] at hdecode
  cases hdecode
  have hcount := hstarts.values ⟨24, "count", .primitive .int, 0, some 6⟩
    (hfields ▸ List.mem_cons_self) rfl
  obtain ⟨value, hvalue, hwith⟩ := hcount
  refine ⟨declared, verified, prepared, s, _, id, c, hdeclared, hverified, hprepared,
    Except.ok.inj hstatics, (hprepares.starts prepared hprepared).2, hs, hq, rfl, hid, hc, hstarts,
    ?_⟩
  cases hwith with
  | zero hnone => exact absurd ⟨rfl, rfl, 6, rfl, rfl, rfl⟩ hnone
  | constant used hconstant ht hk hkind hv =>
    obtain ⟨-, -, hindex⟩ := hconstant
    cases hindex
    cases hk
    cases hv
    exact hvalue

end ClassLoading
