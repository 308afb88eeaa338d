import ClassLoading.Proofs.Checks
import ClassLoading.Proofs.ClassFileFormat
import ClassLoading.Proofs.Settling

/-! The names that can be loaded at all, which the search and the configuration decide. A name is
loadable when its blueprint can be drawn, everything the blueprint depends on is loadable, and the
class passes its checks. The dependencies of a loadable name are never circular; so a load of one
succeeds unless it is asked for while one of its own dependencies is still loading. Conversely
whatever a sound loader has loaded is loadable. -/
namespace ClassLoading

/-- The class of a name cannot be built before that of the other. -/
def ClassSearch.Needs (search : ClassSearch) (name other : String) : Prop :=
  ∃ plan, Blueprint.ofName search name = .ok plan ∧ other ∈ plan.dependencies

/-- The least set of names that holds with a name all that can be built from it. -/
inductive Loadable (config : LoaderConfig) (search : ClassSearch) : String → Prop
  | primitive {name : String} {type : Option Primitive}
      (isPrimitive : primitiveClass? name = some type) : Loadable config search name
  | array {name : String} {component : FieldType} (isArray : Blueprint.isArrayName name)
      (descriptor : FieldType.ofDescriptor name = .ok (.array component))
      (component : Loadable config search component.className)
      (object : Loadable config search objectName)
      (cloneable : Loadable config search cloneableName)
      (serializable : Loadable config search serializableName) : Loadable config search name
  | ordinary {name : String} {bytes : List UInt8} {file : ClassFile} {superName : Option String}
      {interfaceNames : List String} (isSearched : Blueprint.isSearched name)
      (found : search.find name = .ok bytes) (parsed : ClassFile.parse bytes = .ok file)
      (declared : file.className = .ok name) (superName_eq : file.superName = .ok superName)
      (interfaceNames_eq : file.interfaceNames = .ok interfaceNames)
      (superClass : ∀ parent, superName = some parent → Loadable config search parent)
      (interfaces : ∀ other ∈ interfaceNames, Loadable config search other)
      (passes : file.Passes config search name superName interfaceNames) :
      Loadable config search name

/-- A class file whose bytes are read back and which names its class and the supertypes. -/
structure ClassFile.StandsFor (file : ClassFile) (name : String) (superName : Option String)
    (interfaceNames : List String) : Prop where
  parsed : ClassFile.parse file.encode = .ok file
  declared : file.className = .ok name
  superName_eq : file.superName = .ok superName
  interfaceNames_eq : file.interfaceNames = .ok interfaceNames

namespace Blueprint

variable {config : LoaderConfig} {search : ClassSearch} {classes : ClassTable} {name : String}
  {plan : Blueprint} {ids : List ClassId} {c : LoadedClass}

/-! ### Blueprints -/

theorem ofBytes_eq_ok_iff {bytes : List UInt8} :
    ofBytes name bytes = .ok plan ↔
      ∃ file superName interfaceNames, ClassFile.parse bytes = .ok file ∧
        file.className = .ok name ∧ file.superName = .ok superName ∧
        file.interfaceNames = .ok interfaceNames ∧
        plan = .ordinary file superName interfaceNames := by
  constructor
  · intro h
    obtain ⟨file, hfile, h⟩ := bind_eq_ok_iff.1 h
    obtain ⟨declared, hdeclared, h⟩ := bind_eq_ok_iff.1 h
    split at h
    · next heq =>
      subst heq
      obtain ⟨superName, hsuper, h⟩ := bind_eq_ok_iff.1 h
      obtain ⟨interfaceNames, hinterfaces, h⟩ := bind_eq_ok_iff.1 h
      cases h
      exact ⟨file, superName, interfaceNames, mapError_eq_ok_iff.1 hfile,
        mapError_eq_ok_iff.1 hdeclared, mapError_eq_ok_iff.1 hsuper,
        mapError_eq_ok_iff.1 hinterfaces, rfl⟩
    · cases h
  · rintro ⟨file, superName, interfaceNames, hfile, hdeclared, hsuper, hinterfaces, rfl⟩
    refine bind_eq_ok_iff.2 ⟨file, mapError_eq_ok_iff.2 hfile, bind_eq_ok_iff.2
      ⟨name, mapError_eq_ok_iff.2 hdeclared, (if_pos rfl).trans (bind_eq_ok_iff.2
        ⟨superName, mapError_eq_ok_iff.2 hsuper, bind_eq_ok_iff.2
          ⟨interfaceNames, mapError_eq_ok_iff.2 hinterfaces, rfl⟩⟩)⟩⟩

theorem primitiveClass?_of_isArrayName (h : isArrayName name) : primitiveClass? name = none := by
  cases hp : primitiveClass? name with
  | none => rfl
  | some type =>
    obtain ⟨l, l', heq, -⟩ := List.lookup_eq_some_iff.1 hp
    have hmem : (name, type) ∈ primitiveClasses := by simp [heq]
    have hnone : ∀ entry ∈ primitiveClasses, ¬isArrayName entry.1 := by decide
    exact absurd h (hnone _ hmem)

theorem ofName_of_isSearched (h : isSearched name) {bytes : List UInt8}
    (hf : search.find name = .ok bytes) : ofName search name = ofBytes name bytes := by
  simp only [isSearched, Bool.and_eq_true, Option.isNone_iff_eq_none, Bool.not_eq_true'] at h
  rw [ofName, h.1, hf]
  simp [h.2]

/-- What a name stands for whose class file is found. -/
theorem ofName_of_file (h : isSearched name) {file : ClassFile} {superName : Option String}
    {interfaceNames : List String} (found : search.find name = .ok file.encode)
    (stands : file.StandsFor name superName interfaceNames) :
    ofName search name = .ok (.ordinary file superName interfaceNames) := by
  rw [ofName_of_isSearched h found]
  exact ofBytes_eq_ok_iff.2 ⟨file, superName, interfaceNames, stands.parsed, stands.declared,
    stands.superName_eq, stands.interfaceNames_eq, rfl⟩

/-- How a blueprint comes about, by its kind. -/
theorem ofName_cases (h : ofName search name = .ok plan) :
    (∃ type, primitiveClass? name = some type ∧ plan = .primitive type) ∨
      (∃ component, isArrayName name ∧ FieldType.ofDescriptor name = .ok (.array component) ∧
        plan = .array component) ∨
      ∃ bytes, isSearched name ∧ search.find name = .ok bytes ∧ ofBytes name bytes = .ok plan := by
  unfold ofName at h
  split at h
  · next type htype =>
    cases h
    exact .inl ⟨type, htype, rfl⟩
  · next hnone =>
    split at h
    · next harray =>
      unfold ofArrayName at h
      split at h
      · next component hdescriptor =>
        cases h
        exact .inr (.inl ⟨component, harray, hdescriptor, rfl⟩)
      · cases h
      · cases h
    · next harray =>
      split at h
      · next bytes hfind => exact .inr (.inr ⟨bytes, by simp [isSearched, hnone, harray], hfind, h⟩)
      · cases h

/-- What is asked of a class beyond its dependencies. -/
def Passes (config : LoaderConfig) (search : ClassSearch) (name : String) : Blueprint → Prop
  | .ordinary file superName interfaceNames =>
    file.Passes config search name superName interfaceNames
  | _ => True

/-- A class is an interface exactly if its file declares one. -/
theorem isInterface_build (hplan : ofName search name = .ok plan)
    (h : plan.build config classes name ids = .ok c) :
    c.isInterface ↔ search.HasInterface name := by
  have hiff : search.HasInterface name ↔ ∃ file superName interfaceNames,
      plan = .ordinary file superName interfaceNames ∧ Access.isInterface file.flags := by
    simp only [ClassSearch.HasInterface, hplan, Except.ok.injEq]
  have hordinary : ∀ {file superClass interfaces},
      buildOrdinary config classes name file superClass interfaces = .ok c →
        c.isInterface = Access.isInterface file.flags := by
    intro file superClass interfaces hbuild
    obtain ⟨declarations, methods, -, -, houtline⟩ := outline_buildOrdinary hbuild
    have hflags : c.flags = file.flags := congrArg (·.flags) houtline
    rw [LoadedClass.isInterface, hflags]
  rw [hiff]
  unfold build at h
  split at h
  · cases h
    refine ⟨fun hi => ?_, by rintro ⟨_, _, _, ⟨⟩, -⟩⟩
    have hprimitive : Access.isInterface Access.primitiveWord = false := by decide
    have := hprimitive.symm.trans hi
    cases this
  · cases h
    refine ⟨fun hi => ?_, by rintro ⟨_, _, _, ⟨⟩, -⟩⟩
    have harray : ∀ isPublic, Access.isInterface (Access.arrayWord isPublic) = false := by decide
    have := (harray _).symm.trans hi
    cases this
  · cases h
  · rw [hordinary h]
    simp
  · rw [hordinary h]
    simp
  · cases h

theorem build_isOk_iff (hplan : ofName search name = .ok plan)
    (h : List.Forall₂ (classes.Stands search) plan.dependencies ids) :
    (∃ c, plan.build config classes name ids = .ok c) ↔ plan.Passes config search name := by
  cases plan with
  | primitive type => exact ⟨fun _ => trivial, fun _ => ⟨_, rfl⟩⟩
  | array component =>
    refine ⟨fun _ => trivial, fun _ => ?_⟩
    cases h with
    | cons _ h =>
      cases h with
      | cons _ h => exact ⟨_, rfl⟩
  | ordinary file superName interfaceNames =>
    have hc : file.pool.Closed := by
      obtain ⟨_, -, ⟨⟩⟩ | ⟨_, -, -, ⟨⟩⟩ | ⟨bytes, -, -, hbytes⟩ := ofName_cases hplan
      obtain ⟨_, _, _, hparse, -, -, -, heq⟩ := ofBytes_eq_ok_iff.1 hbytes
      cases heq
      exact (ClassFile.parse_indexed hparse).constants
    cases superName with
    | none => exact buildOrdinary_isOk_iff hc .nil h
    | some parent =>
      cases h with
      | cons hp hi => exact buildOrdinary_isOk_iff hc (.cons hp .nil) hi

end Blueprint

/-! ### Loadable names -/

namespace Loadable

variable {config : LoaderConfig} {search : ClassSearch} {name : String}

/-- Induction over blueprints instead of the three kinds of names. -/
theorem plan_induct {P : String → Prop}
    (h : ∀ name plan, Blueprint.ofName search name = .ok plan →
      (∀ d ∈ plan.dependencies, Loadable config search d ∧ P d) →
      plan.Passes config search name → P name)
    (hn : Loadable config search name) : P name := by
  induction hn with
  | @primitive name type isPrimitive =>
    refine h name (.primitive type) (by rw [Blueprint.ofName, isPrimitive]) ?_ trivial
    simp [Blueprint.dependencies]
  | @array name component isArray descriptor hcomponent hobject hcloneable hserializable ih₁ ih₂ ih₃
      ih₄ =>
    refine h name (.array component) ?_ ?_ trivial
    · rw [Blueprint.ofName, Blueprint.primitiveClass?_of_isArrayName isArray, Blueprint.ofArrayName,
        descriptor]
      simp [isArray]
    · simp only [Blueprint.dependencies, List.forall_mem_cons]
      exact ⟨⟨hcomponent, ih₁⟩, ⟨hobject, ih₂⟩, ⟨hcloneable, ih₃⟩, ⟨hserializable, ih₄⟩,
        List.forall_mem_nil _⟩
  | @ordinary name bytes file superName interfaceNames isSearched found parsed declared superName_eq
      interfaceNames_eq hsuper hinterfaces passes ihs ihi =>
    refine h name (.ordinary file superName interfaceNames) ?_ ?_ passes
    · rw [Blueprint.ofName_of_isSearched isSearched found]
      exact Blueprint.ofBytes_eq_ok_iff.2
        ⟨file, superName, interfaceNames, parsed, declared, superName_eq, interfaceNames_eq, rfl⟩
    · intro d hd
      rcases List.mem_append.1 hd with hd | hd
      · have hparent := Option.mem_toList.1 hd
        exact ⟨hsuper d hparent, ihs d hparent⟩
      · exact ⟨hinterfaces d hd, ihi d hd⟩

theorem of_plan {plan : Blueprint} (hplan : Blueprint.ofName search name = .ok plan)
    (hdeps : ∀ d ∈ plan.dependencies, Loadable config search d)
    (hpasses : plan.Passes config search name) : Loadable config search name := by
  obtain ⟨type, htype, rfl⟩ | ⟨component, harray, hdescriptor, rfl⟩ | ⟨bytes, hs, hf, hb⟩ :=
    Blueprint.ofName_cases hplan
  · exact .primitive htype
  · simp only [Blueprint.dependencies, List.forall_mem_cons] at hdeps
    exact .array harray hdescriptor hdeps.1 hdeps.2.1 hdeps.2.2.1 hdeps.2.2.2.1
  · obtain ⟨file, superName, interfaceNames, hp, hd, hsn, hin, rfl⟩ :=
      Blueprint.ofBytes_eq_ok_iff.1 hb
    refine .ordinary hs hf hp hd hsn hin (fun parent hparent => hdeps parent ?_)
      (fun other hother => hdeps other ?_) hpasses
    · simp [Blueprint.dependencies, hparent]
    · simp [Blueprint.dependencies, hother]

theorem exists_plan (h : Loadable config search name) :
    ∃ plan, Blueprint.ofName search name = .ok plan ∧
      (∀ d ∈ plan.dependencies, Loadable config search d) ∧ plan.Passes config search name := by
  refine h.plan_induct (P := fun n => ∃ plan, Blueprint.ofName search n = .ok plan ∧
    (∀ d ∈ plan.dependencies, Loadable config search d) ∧ plan.Passes config search n)
    fun n plan hplan hdeps hpasses => ?_
  exact ⟨plan, hplan, fun d hd => (hdeps d hd).1, hpasses⟩

theorem needed (h : Loadable config search name) {d : String} (hd : search.Needs name d) :
    Loadable config search d := by
  obtain ⟨plan, hplan, hdeps, -⟩ := h.exists_plan
  obtain ⟨plan', hplan', hmem⟩ := hd
  rw [hplan] at hplan'
  cases hplan'
  exact hdeps d hmem

theorem acc (h : Loadable config search name) :
    Acc (fun other name => search.Needs name other) name := by
  refine h.plan_induct fun n plan hplan hdeps _ => ⟨n, fun d hd => ?_⟩
  obtain ⟨plan', hplan', hmem⟩ := hd
  rw [hplan] at hplan'
  cases hplan'
  exact (hdeps d hmem).2

/-- No loadable name needs itself, however indirectly. -/
theorem acyclic (h : Loadable config search name) :
    ¬Relation.TransGen search.Needs name name := by
  have hacc := h.acc.transGen
  clear h
  intro hcycle
  induction hacc with
  | intro n _ ih => exact ih n (Relation.transGen_swap.2 hcycle) hcycle

end Loadable

/-! ### Loaded names are loadable -/

theorem ClassTable.Stands.of_extends {search : ClassSearch} {now past : ClassTable} {name : String}
    {id : ClassId} (hs : now.Stands search name id) (h : now.Extends past) (hid : id < past.size) :
    past.Stands search name id := by
  obtain ⟨d, hd, hiff⟩ := hs
  have hc : past[id]? = some past[id] := Array.getElem?_eq_getElem hid
  obtain ⟨d', hd', hfixed⟩ := h id _ hc
  rw [hd] at hd'
  cases hd'
  have hflags : d.flags = past[id].flags := congrArg (·.flags) hfixed
  refine ⟨past[id], hc, ?_⟩
  rw [LoadedClass.isInterface, ← hflags]
  exact hiff

namespace Loader

variable {config : LoaderConfig} {search : ClassSearch} {s : Loader} {name : String} {id : ClassId}

theorem Sound.stands (hs : s.Sound config search) (h : s.findLoaded? name = some id) :
    s.classes.Stands search name id := by
  obtain ⟨past, plan, ids, c, rfl, hext, hplan, -, hbuild⟩ := hs.made name id h
  obtain ⟨d, hd, hfixed⟩ := hext past.size c (by simp)
  have hflags : d.flags = c.flags := congrArg (·.flags) hfixed
  refine ⟨d, hd, ?_⟩
  rw [LoadedClass.isInterface, hflags]
  exact Blueprint.isInterface_build hplan hbuild

theorem Sound.loadable (hs : s.Sound config search) (h : s.findLoaded? name = some id) :
    Loadable config search name := by
  -- what a class depends on stands before it in the table
  induction id using Nat.strongRecOn generalizing name with
  | ind id ih =>
    obtain ⟨past, plan, ids, c, hsize, hext, hplan, hdeps, hbuild⟩ := hs.made name id h
    have hpast := (ClassTable.Extends.push past c).trans hext
    have hstands : List.Forall₂ (past.Stands search) plan.dependencies ids :=
      hdeps.imp fun d i hd => (hs.stands hd.1).of_extends hpast (hsize ▸ hd.2)
    refine .of_plan hplan (fun d hd => ?_) ((Blueprint.build_isOk_iff hplan hstands).1 ⟨c, hbuild⟩)
    obtain ⟨i, -, hi, hlt⟩ := exists_of_mem_forall₂ hdeps.flip hd
    exact ih i hlt hi

/-! ### Loadable names load -/

/-- Nothing that a name needs is loading, nor is the name itself. -/
def Unblocked (search : ClassSearch) (s : Loader) (name : String) : Prop :=
  ∀ other, Relation.ReflTransGen search.Needs name other → s.slot? other ≠ some .loading

theorem Unblocked.of_settles {t : Loader} (h : s.Unblocked search name) (hst : Settles s t) :
    t.Unblocked search name := fun other hother hloading =>
  h other hother ((hst.loading_iff other).1 hloading)

/-- What a loadable name needs stays unblocked when the load of the name begins. -/
theorem Unblocked.acquire (hs : s.Tidy) (h : s.Unblocked search name)
    (hn : Loadable config search name) {d : String} (hd : search.Needs name d) (thread : ThreadId) :
    ((s.acquire thread name).noteLookup name).Unblocked search d := by
  intro other hother hloading
  rw [slot?_noteLookup, slot?_acquire hs] at hloading
  by_cases hname : other = name
  · subst hname
    exact hn.acyclic (.head' hd hother)
  · rw [if_neg hname] at hloading
    exact h other (.head hd hother) hloading

theorem Clean.acquire (hs : s.Tidy) (hc : s.Clean) (name : String) (thread : ThreadId) :
    ((s.acquire thread name).noteLookup name).Clean := by
  intro n e he
  rw [slot?_noteLookup, slot?_acquire hs] at he
  split at he
  · cases he
  · exact hc n e he

/-- A name goes through in every state that does not block it. -/
def Loads (env : Environment) (name : String) : Prop :=
  ∀ s : Loader, s.Sound env.config env.search → s.Clean → s.Unblocked env.search name →
    ∃ id, (s.load env name).1 = .ok id

theorem loadAll_isOk {env : Environment} {names : List String}
    (hs : s.Sound env.config env.search) (hc : s.Clean)
    (h : ∀ d ∈ names, s.Unblocked env.search d ∧ Loads env d) :
    ∃ ids, (s.loadAll env names).1 = .ok ids := by
  induction names generalizing s with
  | nil => exact ⟨[], by rw [loadAll_nil]⟩
  | cons d rest ih =>
    obtain ⟨⟨hopen, hloads⟩, hrest⟩ := List.forall_mem_cons.1 h
    obtain ⟨id, hid⟩ := hloads s hs hc hopen
    have hload := hs.load env d
    have hsettles := hs.load_settles env d
    rw [loadAll_cons]
    cases hl : s.load env d with
    | mk r t =>
    rw [hl] at hid hload hsettles
    cases hid
    obtain ⟨ids, hids⟩ := ih (hload.changes.sound hs) (hsettles.clean hc) fun n hn =>
      ⟨(hrest n hn).1.of_settles hsettles, (hrest n hn).2⟩
    exact ⟨id :: ids, by simp [hids, Except.map]⟩

theorem Loads.of_loadable (env : Environment) (h : Loadable env.config env.search name) :
    Loads env name := by
  refine h.plan_induct fun n plan hplan hdeps hpasses s hs hc hopen => ?_
  have hn : Loadable env.config env.search n := .of_plan hplan (fun d hd => (hdeps d hd).1) hpasses
  cases hslot : s.slot? n with
  | some x =>
    cases x with
    | loading => exact absurd hslot (hopen n .refl)
    | done r =>
      rw [load_of_done hslot]
      cases r with
      | error e => exact absurd hslot (hc n e)
      | ok id => exact ⟨id, rfl⟩
  | none =>
    have hstart := (Changes.acquire env.config env.search hslot mainThread).sound hs
    obtain ⟨ids, hids⟩ := loadAll_isOk hstart (hc.acquire hs.toTidy n mainThread) fun d hd =>
      ⟨hopen.acquire hs.toTidy hn ⟨plan, hplan, hd⟩ mainThread, (hdeps d hd).2⟩
    have hall := hstart.loadAll env plan.dependencies
    have hstands := (hall.loaded ids hids).imp fun d i hd => (hall.changes.sound hstart).stands hd
    obtain ⟨c, hbuild⟩ := (Blueprint.build_isOk_iff hplan hstands).2 hpasses
    rw [load_of_blueprint hslot hplan]
    simp only [hids, Except.bind, hbuild]
    exact ⟨_, rfl⟩

theorem AtRest.unblocked (h : s.AtRest) (name : String) : s.Unblocked search name :=
  fun other _ => h.not_loading other

/-- Between requests, exactly the loadable names load. -/
theorem AtRest.load_isOk_iff (env : Environment) (h : s.AtRest)
    (hs : s.Sound env.config env.search) :
    (∃ id, (s.load env name).1 = .ok id) ↔ Loadable env.config env.search name := by
  constructor
  · rintro ⟨id, hid⟩
    have hload := hs.load env name
    exact (hload.changes.sound hs).loadable (hload.loaded id hid)
  · exact fun hn => Loads.of_loadable env hn s hs h.clean (h.unblocked name)

/-- A loader gets ready exactly if it can load the class of class objects. -/
theorem bootstrap_isOk_iff (env : Environment) :
    (∃ t, bootstrap env = .ok t) ↔ Loadable env.config env.search classClassName := by
  rw [← atRest_empty.load_isOk_iff env sound_empty]
  constructor
  · rintro ⟨t, h⟩
    obtain ⟨classClass, s, ids, u, hload, -, -⟩ := bootstrap_eq_ok h
    exact ⟨classClass, by rw [hload]⟩
  · rintro ⟨classClass, hid⟩
    have hload := Finishes.load env empty classClassName
    have hsound := (sound_empty.load env classClassName).changes.sound sound_empty
    unfold bootstrap
    generalize empty.load env classClassName = r at hid hload hsound
    obtain ⟨r, s⟩ := r
    cases hid
    have hready : Finishes env.config env.search s { s with classClass := some classClass } :=
      .of_grow rfl rfl (.refl _) rfl
    have hrest := (atRest_empty.finishes sound_empty hload).finishes hsound hready
    have hsound' := (hready hsound (atRest_empty.finishes sound_empty hload).manned).1.sound hsound
    have hprimitive : ∀ d ∈ primitiveNames, Loadable env.config env.search d := by
      intro d hd
      have hsome : ∀ n ∈ primitiveNames, (primitiveClass? n).isSome := by decide
      obtain ⟨type, htype⟩ := Option.isSome_iff_exists.1 (hsome d hd)
      exact .primitive htype
    obtain ⟨ids, hids⟩ := loadAll_isOk hsound' hrest.clean fun d hd =>
      ⟨hrest.unblocked d, .of_loadable env (hprimitive d hd)⟩
    cases hall : { s with classClass := some classClass }.loadAll env primitiveNames with
    | mk r u =>
    rw [hall] at hids
    cases hids
    exact ⟨u.attachAll classClass, by simp only [hall]⟩

theorem History.exists_of_loadable (h : Loadable config search classClassName) :
    ∃ s, History config search s := by
  obtain ⟨s, hs⟩ := (bootstrap_isOk_iff ⟨config, search, .skip⟩).2 h
  exact ⟨s, .ready .skip hs⟩

end Loader

/-! ### A small class path -/

/-- The search that knows some class files by name. -/
def ClassSearch.ofFiles (files : List (String × ClassFile)) : ClassSearch where
  find name := match files.lookup name with
    | some file => .ok file.encode
    | none => .error (.notFound name)
  names := files.map (·.1)
  mem_names name bytes h := by
    split at h
    · next file hfile =>
      obtain ⟨l, l', heq, -⟩ := List.lookup_eq_some_iff.1 hfile
      simp [heq]
    · cases h

/-- The file of a class with fields and nothing else. -/
def ClassFile.ofFields (name : String) (superName : Option String)
    (fields : List (UInt16 × String × String)) : ClassFile where
  magic := 0xCAFEBABE
  minor := 0
  major := 52
  pool := ⟨.utf8 name :: .classRef 1 :: .utf8 (superName.getD name) :: .classRef 3 ::
    fields.flatMap fun field => [.utf8 field.2.1, .utf8 field.2.2]⟩
  flags := 0x21
  thisClass := 2
  superClass := if superName.isSome then 4 else 0
  interfaces := []
  fields := fields.mapIdx fun i field =>
    ⟨field.1, (5 + 2 * i).toUInt16, (6 + 2 * i).toUInt16, []⟩
  methods := []
  attributes := []

theorem ClassFile.passes_ofFields_nil {search : ClassSearch} {name parent : String}
    (h : ¬search.HasInterface parent) :
    (ClassFile.ofFields name (some parent) []).Passes .standard search name (some parent) [] := by
  have hversion : (45 : UInt16) ≤ 52 ∧ (52 : UInt16) ≤ 69 := by decide
  refine ⟨nofun, nofun, hversion, ?_, nofun, nofun, fun _ => nofun, fun owner member hmem => ?_⟩
  · rintro _ ⟨⟩
    exact h
  · simp [ofFields] at hmem

namespace SmallPath

def objectFile : ClassFile := .ofFields objectName none []

def classFile : ClassFile :=
  .ofFields classClassName (some objectName)
    [(0, "hash", "J"), (8, "count", "I"), (0, "depth", "I")]

/-- The file of a class that extends itself. -/
def loopFile : ClassFile := .ofFields "Loop" (some "Loop") []

def search : ClassSearch :=
  .ofFiles [(objectName, objectFile), (classClassName, classFile), ("Loop", loopFile)]

theorem standsFor_object : objectFile.StandsFor objectName none [] :=
  ⟨by decide +kernel, rfl, rfl, rfl⟩

theorem ofName_object : Blueprint.ofName search objectName = .ok (.ordinary objectFile none []) :=
  Blueprint.ofName_of_file (by decide) rfl standsFor_object

theorem ofName_class :
    Blueprint.ofName search classClassName = .ok (.ordinary classFile (some objectName) []) :=
  Blueprint.ofName_of_file (by decide) rfl ⟨by decide +kernel, rfl, rfl, rfl⟩

theorem decode_class : classFile.fields.mapM (classFile.pool.decodeField classClassName) =
    .ok [⟨0, "hash", .primitive .long, none⟩, ⟨8, "count", .primitive .int, none⟩,
      ⟨0, "depth", .primitive .int, none⟩] := rfl

theorem ofName_loop :
    Blueprint.ofName search "Loop" = .ok (.ordinary loopFile (some "Loop") []) :=
  Blueprint.ofName_of_file (by decide) rfl ⟨by decide +kernel, rfl, rfl, rfl⟩

/-- The root class can be loaded from any class path that has its file. -/
theorem loadable_of_objectFile {search : ClassSearch}
    (hplan : Blueprint.ofName search objectName = .ok (.ordinary objectFile none [])) :
    Loadable .standard search objectName := by
  refine .of_plan hplan nofun ⟨nofun, nofun, by decide, nofun, fun _ => .inr rfl, nofun,
    fun _ => nofun, fun owner member hmem => ?_⟩
  simp [objectFile, ClassFile.ofFields] at hmem

theorem loadable_object : Loadable .standard search objectName :=
  loadable_of_objectFile ofName_object

theorem loadable_class : Loadable .standard search classClassName := by
  refine .of_plan ofName_class (List.forall_mem_singleton.2 loadable_object) ⟨?_, nofun, by decide,
    ?_, nofun, nofun, ?_, fun owner member hmem => ?_⟩
  · exact mapM_isOk_iff.1 ⟨_, decode_class⟩
  · rintro _ ⟨⟩ ⟨file, superName, interfaceNames, hplan, hflags⟩
    rw [ofName_object] at hplan
    cases hplan
    exact absurd hflags (by decide)
  · intro _ m hm d hd _ hfinal
    have hnone : ∀ m ∈ classFile.fields, ∀ d,
        (classFile.pool.decodeField classClassName m).toOption = some d →
          ¬Access.isFinal d.flags := by decide
    exact absurd hfinal (hnone m hm d (by rw [hd]; rfl))
  · simp [classFile, ClassFile.ofFields] at hmem

theorem not_loadable_loop (config : LoaderConfig) : ¬Loadable config search "Loop" := fun h =>
  h.acyclic (.single ⟨_, ofName_loop, List.mem_singleton.2 rfl⟩)

end SmallPath

end ClassLoading
