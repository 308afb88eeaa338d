import ClassLoading.Proofs.Building
import ClassLoading.Proofs.Settling

/-! What a load adds to a loader. All classes and class objects that were there stay exactly as they
are, and no static initializer runs; what is new are classes fresh from their definition. Every
class of the table is loaded under its name, so no two classes of the table share a name. -/
namespace ClassLoading

/-! ### Fresh classes -/

namespace LoadedClass

/-- A class as it leaves its definition: linked, and with its initialization ahead of it unless it
is of a kind that has none. -/
structure Fresh (c : LoadedClass) : Prop where
  linked : c.stage = .resolved ∨ c.stage = .initialized
  ordinary : c.kind = .ordinary → c.stage = .resolved ∧ c.initStatus = .notStarted
  synthetic : c.kind ≠ .ordinary → c.initStatus = .done

/-- How far a class has come. -/
def progress (c : LoadedClass) : ClassKind × Stage × InitStatus × Option Nat :=
  (c.kind, c.stage, c.initStatus, c.classObject)

theorem progress_link (c : LoadedClass) (index : UInt16) (target : ClassId) :
    (c.link index target).progress = c.progress := by
  unfold link
  split <;> rfl

end LoadedClass

namespace Blueprint

variable {config : LoaderConfig} {classes : ClassTable} {name : String} {file : ClassFile}
  {superClass : Option ClassId} {interfaces : List ClassId} {c : LoadedClass} {plan : Blueprint}
  {ids : List ClassId}

theorem progress_declaredClass
    (h : declaredClass classes name file superClass interfaces = .ok c) :
    c.progress = (.ordinary, .loaded, .notStarted, none) := by
  obtain ⟨constants, -, h⟩ := bind_eq_ok_iff.1 h
  obtain ⟨declarations, -, h⟩ := bind_eq_ok_iff.1 h
  obtain ⟨methods, -, h⟩ := bind_eq_ok_iff.1 h
  cases h
  exact linked_eq LoadedClass.progress_link ..

theorem progress_buildOrdinary
    (h : buildOrdinary config classes name file superClass interfaces = .ok c) :
    c.progress = (.ordinary, .resolved, .notStarted, none) := by
  obtain ⟨declared, prepared, hdeclared, -, hprepared, hresolved⟩ := buildOrdinary_eq_ok h
  obtain ⟨statics, -, rfl⟩ := LoadedClass.prepare_eq_ok hprepared
  obtain ⟨constants, -, rfl⟩ := LoadedClass.resolve_eq_ok hresolved
  have hprogress := progress_declaredClass hdeclared
  simp only [LoadedClass.progress, Prod.mk.injEq] at hprogress
  obtain ⟨hkind, hstage, hstatus, hobject⟩ := hprogress
  simp only [LoadedClass.progress, LoadedClass.advance, hkind, hstage, hstatus, hobject]
  decide

theorem fresh_buildOrdinary
    (h : buildOrdinary config classes name file superClass interfaces = .ok c) :
    c.Fresh ∧ c.classObject = none := by
  have hprogress := progress_buildOrdinary h
  simp only [LoadedClass.progress, Prod.mk.injEq] at hprogress
  obtain ⟨hkind, hstage, hstatus, hobject⟩ := hprogress
  exact ⟨⟨.inl hstage, fun _ => ⟨hstage, hstatus⟩, fun hne => absurd hkind hne⟩, hobject⟩

theorem fresh_build (h : plan.build config classes name ids = .ok c) :
    c.Fresh ∧ c.classObject = none := by
  unfold build at h
  split at h
  · cases h
    exact ⟨⟨.inr rfl, nofun, fun _ => rfl⟩, rfl⟩
  · cases h
    exact ⟨⟨.inl rfl, nofun, fun _ => rfl⟩, rfl⟩
  · cases h
  · exact fresh_buildOrdinary h
  · exact fresh_buildOrdinary h
  · cases h

end Blueprint

namespace Loader

variable {s t u : Loader}

/-! ### Additions -/

/-- All classes, class objects and runs are as they were, and the classes that are new are fresh. -/
structure Adds (s t : Loader) : Prop where
  classes : ∀ {id : ClassId} {c}, s.classes[id]? = some c → t.classes[id]? = some c
  fresh : ∀ {id : ClassId} {c}, t.classes[id]? = some c → s.classes[id]? = some c ∨ c.Fresh
  objects : ∀ {k : ObjectId} {o}, s.objects[k]? = some o → t.objects[k]? = some o
  classClass : t.classClass = s.classClass
  runs : t.runs = s.runs

namespace Adds

theorem of_eq (hc : t.classes = s.classes) (ho : t.objects = s.objects)
    (hk : t.classClass = s.classClass) (hr : t.runs = s.runs) : Adds s t where
  classes h := hc ▸ h
  fresh h := .inl (hc ▸ h)
  objects h := ho ▸ h
  classClass := hk
  runs := hr

theorem refl (s : Loader) : Adds s s := of_eq rfl rfl rfl rfl

theorem trans (h : Adds s t) (h' : Adds t u) : Adds s u where
  classes hc := h'.classes (h.classes hc)
  fresh hc := by
    rcases h'.fresh hc with hc | hc
    · exact h.fresh hc
    · exact .inr hc
  objects ho := h'.objects (h.objects ho)
  classClass := h'.classClass.trans h.classClass
  runs := h'.runs.trans h.runs

theorem noteLookup (s : Loader) (name : String) : Adds s (s.noteLookup name) := by
  unfold Loader.noteLookup
  split
  · exact of_eq rfl rfl rfl rfl
  · exact refl s

theorem pooledObject (s : Loader) (classClass id : ClassId) (name : String) :
    Adds s (s.pooledObject classClass id name).2 := by
  unfold Loader.pooledObject
  split
  · exact refl s
  · refine ⟨fun h => h, fun h => .inl h, fun ho => ?_, rfl, rfl⟩
    have hlt := (Array.getElem?_eq_some_iff.1 ho).1
    rw [Array.getElem?_push, if_neg (Nat.ne_of_lt hlt)]
    exact ho

end Adds

/-! ### New classes -/

/-- The class as it stands in the table once it has been added. -/
def addedClass (s : Loader) (c : LoadedClass) : LoadedClass :=
  match s.classClass with
  | none => c
  | some classClass =>
    { c with classObject :=
        c.classObject.or (some (s.pooledObject classClass s.classes.size c.name).1) }

/-- The pool of objects once a class has been added. -/
def addedObjects (s : Loader) (c : LoadedClass) : Array ClassObject :=
  match s.classClass with
  | none => s.objects
  | some classClass => (s.pooledObject classClass s.classes.size c.name).2.objects

theorem addClass_eq (s : Loader) (c : LoadedClass) :
    s.addClass c =
      { s with classes := s.classes.push (s.addedClass c), objects := s.addedObjects c } := by
  unfold addClass attachIfReady addedClass addedObjects
  cases s.classClass with
  | none => rfl
  | some classClass =>
    have hmodify : ∀ f : LoadedClass → LoadedClass,
        (s.classes.push c).modify s.classes.size f = s.classes.push (f c) := by
      intro f
      apply Array.ext_getElem?
      intro i
      simp only [Array.getElem?_modify, Array.getElem?_push]
      split <;> split <;> simp_all
    simp only [attachObject, Array.getElem?_push_size, pooledObject, object?, updateClass]
    split <;> simp only [hmodify]

theorem fixed_addedClass (s : Loader) (c : LoadedClass) : (s.addedClass c).fixed = c.fixed := by
  unfold addedClass
  split <;> rfl

theorem name_addedClass (s : Loader) (c : LoadedClass) : (s.addedClass c).name = c.name :=
  congrArg (·.name) (fixed_addedClass s c)

theorem fresh_addedClass {c : LoadedClass} (h : c.Fresh) (s : Loader) : (s.addedClass c).Fresh := by
  unfold addedClass
  split
  · exact h
  · exact ⟨h.linked, h.ordinary, h.synthetic⟩

theorem Adds.addClass {c : LoadedClass} (h : c.Fresh) : Adds s (s.addClass c) := by
  rw [addClass_eq]
  refine ⟨fun hc => ?_, fun hc => ?_, fun ho => ?_, rfl, rfl⟩
  · have hlt := (Array.getElem?_eq_some_iff.1 hc).1
    rw [Array.getElem?_push, if_neg (Nat.ne_of_lt hlt)]
    exact hc
  · rw [Array.getElem?_push] at hc
    split at hc
    · cases hc
      exact .inr (fresh_addedClass h s)
    · exact .inl hc
  · simp only [addedObjects]
    split
    · exact ho
    · exact (Adds.pooledObject ..).objects ho

theorem Adds.complete {name : String} {slot : SlotId} {r : Except LoadError LoadedClass}
    (h : ∀ c, r = .ok c → c.Fresh) : Adds s (s.complete name slot r).2 := by
  cases r with
  | error e => exact of_eq rfl rfl rfl rfl
  | ok c => exact (Adds.addClass (h c rfl)).trans (of_eq rfl rfl rfl rfl)

theorem Adds.acquire (s : Loader) (thread : ThreadId) (name : String) :
    Adds s ((s.acquire thread name).noteLookup name) := by
  have hstart : Adds s (s.acquire thread name) := of_eq rfl rfl rfl rfl
  exact hstart.trans (noteLookup ..)

/-! ### What loads preserve -/

/-- The result that a load of a name comes to, once the classes it depends on are loaded. -/
def Builds (env : Environment) (s : Loader) (name : String) (r : Except LoadError LoadedClass) :
    Prop :=
  ∀ c, r = .ok c → ∃ plan ids, Blueprint.ofName env.search name = .ok plan ∧
    List.Forall₂ (fun d i => s.findLoaded? d = some i) plan.dependencies ids ∧
    plan.build env.config s.classes name ids = .ok c

/-- What every beginning and every end of a load preserves is preserved by loads, where an end comes
only for slots that a load has taken. -/
theorem load_preserves_taking (env : Environment) {P : Loader → Prop} (Taken : SlotId → Prop)
    (takes : ∀ s, P s → Taken s.slots.size)
    (begins : ∀ s name, s.Sound env.config env.search → s.slot? name = none → P s →
      P ((s.acquire mainThread name).noteLookup name))
    (ends : ∀ s name slot r, s.Sound env.config env.search → s.LoadingAt name slot → Taken slot →
      s.Builds env name r → P s → P (s.complete name slot r).2) :
    (∀ s name, s.Sound env.config env.search → P s → P (s.load env name).2) ∧
      ∀ s names, s.Sound env.config env.search → P s → P (s.loadAll env names).2 := by
  apply load_induct env
  case done =>
    intro s name r hs _ hp
    rwa [load_of_done hs]
  case loading =>
    intro s name hs _ hp
    rwa [load_of_loading hs]
  case unknown =>
    intro s name e free he hs hp
    rw [load_of_blueprint_error free he]
    have hstart := (Changes.acquire env.config env.search free mainThread).sound hs
    refine ends _ name _ _ hstart (noteLookup_loadingAt (acquire_loadingAt ..)) (takes s hp)
      (fun c hc => ?_) (begins s name hs free hp)
    cases hc
  case known =>
    intro s name plan free hplan hdeps hs hp
    rw [load_of_blueprint free hplan]
    have hstart := (Changes.acquire env.config env.search free mainThread).sound hs
    have hall := hstart.loadAll env plan.dependencies
    have own := loadingAt_loadAll env s name plan.dependencies
    replace hdeps := hdeps hstart (begins s name hs free hp)
    generalize ((s.acquire mainThread name).noteLookup name).loadAll env plan.dependencies = deps
      at hall own hdeps
    obtain ⟨r, t⟩ := deps
    refine ends t name _ _ (hall.changes.sound hstart) own (takes s hp) (fun c hc => ?_) hdeps
    obtain ⟨ids, rfl, hbuild⟩ := bind_eq_ok_iff.1 hc
    exact ⟨plan, ids, hplan, hall.loaded ids rfl, hbuild⟩
  case nil =>
    intro s _ hp
    rwa [loadAll_nil]
  case cons =>
    intro s name rest hname hrest hs hp
    have hload := hs.load env name
    replace hname := hname hs hp
    rw [loadAll_cons]
    cases hl : s.load env name with
    | mk r t =>
    rw [hl] at hname hload
    cases r with
    | error e => exact hname
    | ok id => exact hrest id t hl (hload.changes.sound hs) hname

/-- What every beginning and every end of a load preserves is preserved by loads. -/
theorem load_preserves (env : Environment) {P : Loader → Prop}
    (begins : ∀ s name, s.Sound env.config env.search → s.slot? name = none → P s →
      P ((s.acquire mainThread name).noteLookup name))
    (ends : ∀ s name slot r, s.Sound env.config env.search → s.LoadingAt name slot →
      s.Builds env name r → P s → P (s.complete name slot r).2) :
    (∀ s name, s.Sound env.config env.search → P s → P (s.load env name).2) ∧
      ∀ s names, s.Sound env.config env.search → P s → P (s.loadAll env names).2 :=
  load_preserves_taking env (fun _ => True) (fun _ _ => trivial) begins
    fun s name slot r hs own _ hbuilds hp => ends s name slot r hs own hbuilds hp

/-- What loads and class objects preserve holds of a loader that has got ready. -/
theorem bootstrap_preserves {env : Environment} {P : Loader → Prop} (start : P empty)
    (loads : (∀ s name, s.Sound env.config env.search → P s → P (s.load env name).2) ∧
      ∀ s names, s.Sound env.config env.search → P s → P (s.loadAll env names).2)
    (ready : ∀ s classClass, P s → P { s with classClass := some classClass })
    (attach : ∀ s classClass id, P s → P (s.attachObject classClass id))
    (h : bootstrap env = .ok t) : P t := by
  obtain ⟨classClass, s, ids, u, hload, hall, rfl⟩ := bootstrap_eq_ok h
  have hs := loads.1 empty classClassName sound_empty start
  have hsound := (sound_empty.load env classClassName).changes.sound sound_empty
  rw [hload] at hs hsound
  have hchange : Changes env.config env.search s { s with classClass := some classClass } :=
    .of (.grow rfl rfl (.refl _))
  have hu := loads.2 _ primitiveNames (hchange.sound hsound) (ready s classClass hs)
  rw [hall] at hu
  simp only [attachAll]
  generalize u.loadedNames.filterMap u.findLoaded? = loaded
  clear h hall
  induction loaded generalizing u with
  | nil => exact hu
  | cons id loaded ih => exact ih _ (attach u classClass id hu)

variable {env : Environment} {name : String} {slot : SlotId} {r : Except LoadError LoadedClass}

theorem Builds.fresh (h : s.Builds env name r) {c : LoadedClass} (hc : r = .ok c) :
    c.name = name ∧ c.Fresh ∧ c.classObject = none := by
  obtain ⟨plan, ids, -, -, hbuild⟩ := h c hc
  exact ⟨(Blueprint.references_build hbuild).1, Blueprint.fresh_build hbuild⟩

theorem Builds.changes (h : s.Builds env name r) (hs : s.Sound env.config env.search)
    (own : s.LoadingAt name slot) :
    Changes env.config env.search s (s.complete name slot r).2 := by
  refine .complete own fun c hc => ?_
  obtain ⟨plan, ids, hplan, hids, hbuild⟩ := h c hc
  exact hs.made_of_build hplan hids hbuild (.of (.addClass c)) (addClass_extends s c)

theorem load_adds (env : Environment) (past : Loader) :
    (∀ s name, s.Sound env.config env.search → Adds past s → Adds past (s.load env name).2) ∧
      ∀ s names, s.Sound env.config env.search → Adds past s →
        Adds past (s.loadAll env names).2 := by
  refine load_preserves env (fun s name _ _ h => h.trans (.acquire ..)) ?_
  intro s name slot r _ _ hbuilds h
  exact h.trans (.complete fun c hc => (hbuilds.fresh hc).2.1)

theorem Sound.load_adds (env : Environment) (hs : s.Sound env.config env.search) (name : String) :
    Adds s (s.load env name).2 := (Loader.load_adds env s).1 s name hs (.refl s)

/-! ### Registered classes -/

/-- Every class of the table is loaded under its name. -/
def Registered (s : Loader) : Prop :=
  ∀ (id : ClassId) (c : LoadedClass), s.classes[id]? = some c → s.findLoaded? c.name = some id

theorem registered_empty : Registered empty := by
  intro id c hc
  cases hc

theorem Registered.name_inj (h : s.Registered) {i j : ClassId} {c d : LoadedClass}
    (hc : s.classes[i]? = some c) (hd : s.classes[j]? = some d) (hname : c.name = d.name) :
    i = j := by
  have hi := h i c hc
  rw [hname, h j d hd] at hi
  exact (Option.some.inj hi).symm

theorem classes_noteLookup (s : Loader) (name : String) :
    (s.noteLookup name).classes = s.classes := by
  unfold noteLookup
  split <;> rfl

theorem classes_complete_ok (s : Loader) (name : String) (slot : SlotId) (c : LoadedClass) :
    (s.complete name slot (.ok c)).2.classes = s.classes.push (s.addedClass c) :=
  congrArg Loader.classes (addClass_eq s c)

theorem Registered.updateClass (h : s.Registered) {id : ClassId} {f : LoadedClass → LoadedClass}
    (hf : ∀ c, (f c).fixed = c.fixed) : (s.updateClass id f).Registered := by
  intro i c hc
  simp only [Loader.updateClass, Array.getElem?_modify] at hc
  split at hc
  · next heq =>
    obtain ⟨d, hd, rfl⟩ := Option.map_eq_some_iff.1 hc
    have hname : (f d).name = d.name := congrArg (·.name) (hf d)
    rw [hname]
    exact h i d (heq ▸ hd)
  · exact h i c hc

theorem Registered.acquire (h : s.Registered) (hs : s.Tidy) (free : s.slot? name = none)
    (thread : ThreadId) : ((s.acquire thread name).noteLookup name).Registered := by
  intro id c hid
  rw [classes_noteLookup] at hid
  obtain ⟨slot, hl, hslot⟩ := findLoaded?_eq_some_iff.1 (h id c hid)
  have hne : c.name ≠ name := by
    intro heq
    rw [heq, hs.lookup_of_slot?_none free] at hl
    cases hl
  rw [findLoaded?, slot?_noteLookup, slot?_acquire hs, if_neg hne]
  exact h id c hid

theorem Registered.complete (h : s.Registered) (hs : s.Sound env.config env.search)
    (own : s.LoadingAt name slot) (hr : s.Builds env name r) :
    (s.complete name slot r).2.Registered := by
  have ht := hr.changes hs own
  intro id d hd
  cases r with
  | error e => exact ht.findLoaded? hs.toTidy (h id d hd)
  | ok c =>
    rw [classes_complete_ok, Array.getElem?_push] at hd
    split at hd
    · next hid =>
      cases hd
      rw [name_addedClass, (hr.fresh rfl).1, hid]
      exact findLoaded?_complete own c
    · exact ht.findLoaded? hs.toTidy (h id d hd)

/-! ### Classes of files -/

section OfFile

variable {config : LoaderConfig} {search : ClassSearch} {id : ClassId} {file : ClassFile}
  {superName : Option String} {interfaceNames : List String}

/-- The class of a file that is loaded was built from the file, on top of the class that the file
names as its super class. -/
theorem Sound.exists_buildOrdinary (hs : s.Sound config search) (hid : s.findLoaded? name = some id)
    (hplan : Blueprint.ofName search name = .ok (.ordinary file superName interfaceNames)) :
    ∃ past superClass interfaces built c, s.classes[id]? = some c ∧ c.fixed = built.fixed ∧
      Option.Rel (fun parent i => s.findLoaded? parent = some i) superName superClass ∧
      s.classes.Extends past ∧ (∀ i, superClass = some i → i < past.size) ∧
      Blueprint.buildOrdinary config past name file superClass interfaces = .ok built := by
  obtain ⟨past, plan, ids, built, rfl, hext, hplan', hdeps, hbuild⟩ := hs.made name id hid
  rw [hplan] at hplan'
  cases hplan'
  obtain ⟨c, hc, hfixed⟩ := hext past.size built (by simp)
  have hpast := (ClassTable.Extends.push past built).trans hext
  cases superName with
  | none => exact ⟨past, none, ids, built, c, hc, hfixed, .none, hpast, nofun, hbuild⟩
  | some parent =>
    simp only [Blueprint.dependencies, Option.toList_some, List.singleton_append] at hdeps
    cases hdeps with
    | cons hparent hrest =>
      refine ⟨past, _, _, built, c, hc, hfixed, .some hparent.1, hpast, ?_, hbuild⟩
      rintro _ ⟨⟩
      exact hparent.2

/-- The class of a file that is loaded has the methods of the file, and the super class that the
file names is loaded as well. -/
theorem Sound.exists_ordinary (hs : s.Sound config search) (hid : s.findLoaded? name = some id)
    (hplan : Blueprint.ofName search name = .ok (.ordinary file superName interfaceNames)) :
    ∃ c, s.classes[id]? = some c ∧ c.name = name ∧ c.kind = .ordinary ∧
      file.methods.mapM (file.pool.decodeMethod name) = .ok c.methods ∧
      Option.Rel (fun parent i => s.findLoaded? parent = some i) superName c.superClass := by
  obtain ⟨past, superClass, interfaces, built, c, hc, hfixed, hsuper, -, -, hbuilt⟩ :=
    hs.exists_buildOrdinary hid hplan
  obtain ⟨declarations, methods, -, hmethods, houtline⟩ := Blueprint.outline_buildOrdinary hbuilt
  have hkept : c.outline = built.outline := congrArg (fun c => { c with constants := #[] }) hfixed
  rw [houtline] at hkept
  have hcMethods : c.methods = methods := congrArg (·.methods) hkept
  have hcSuper : c.superClass = superClass := congrArg (·.superClass) hkept
  refine ⟨c, hc, congrArg (·.name) hkept, congrArg (·.kind) hkept, ?_, ?_⟩
  · rw [hmethods, hcMethods]
  · rwa [hcSuper]

end OfFile

end Loader

end ClassLoading
