import ClassLoading.Proofs.Agreement
import ClassLoading.Proofs.ClassTables

/-! What a built class looks like. The steps after the declaration of a class, linking included,
leave its outline alone: its name, flags, supertypes, fields, slots and methods are those that its
file declares. It refers only to classes that it was built from. -/
namespace ClassLoading

namespace LoadedField

/-- The static values once the field has got its constant, if there is one. -/
def put (field : LoadedField) (statics : Array Value) : Option Value → Array Value
  | some value => statics.setIfInBounds field.slot value
  | none => statics

theorem size_put (field : LoadedField) (statics : Array Value) (prepared : Option Value) :
    (field.put statics prepared).size = statics.size := by
  cases prepared with
  | none => rfl
  | some value => exact Array.size_setIfInBounds

end LoadedField

namespace LoadedClass

/-- The fixed part of a class without its constants. -/
def outline (c : LoadedClass) : LoadedClass := { c.fixed with constants := #[] }

variable {config : LoaderConfig} {classes : ClassTable} {c d : LoadedClass}

theorem verify_eq_ok (h : c.verify config classes = .ok d) : d = c.advance .verified := by
  unfold verify at h
  split at h
  · cases h
  · cases h
    rfl

theorem fillStatics_cons (c : LoadedClass) (field : LoadedField) (rest : List LoadedField)
    (statics : Array Value) :
    c.fillStatics (field :: rest) statics =
      c.preparedValue? field >>= fun prepared => c.fillStatics rest (field.put statics prepared) := by
  rw [fillStatics]
  congr 1
  funext prepared
  cases prepared <;> rfl

theorem size_fillStatics {fields : List LoadedField} {statics filled : Array Value}
    (h : c.fillStatics fields statics = .ok filled) : filled.size = statics.size := by
  induction fields generalizing statics with
  | nil =>
    cases h
    rfl
  | cons field rest ih =>
    rw [fillStatics_cons] at h
    obtain ⟨prepared, -, h⟩ := bind_eq_ok_iff.1 h
    rw [ih h, field.size_put]

theorem prepare_eq_ok (h : c.prepare config = .ok d) :
    ∃ statics, statics.size = c.statics.size ∧ d = { c with statics }.advance .prepared := by
  unfold prepare at h
  split at h
  · split at h
    · next statics hfill =>
      cases h
      exact ⟨statics, size_fillStatics hfill, rfl⟩
    · cases h
  · cases h
    exact ⟨c.statics, rfl, rfl⟩

theorem resolve_eq_ok (h : c.resolve classes = .ok d) :
    ∃ constants, c.constants.toList.mapM (c.resolveConstant classes) = .ok constants ∧
      d = { c with constants := constants.toArray }.advance .resolved := by
  unfold resolve at h
  split at h
  · next constants hmap =>
    cases h
    exact ⟨constants, hmap, rfl⟩
  · cases h

theorem outline_prepare (h : c.prepare config = .ok d) : d.outline = c.outline := by
  obtain ⟨statics, hsize, rfl⟩ := prepare_eq_ok h
  simp [outline, fixed, advance, hsize]

theorem outline_resolve (h : c.resolve classes = .ok d) : d.outline = c.outline := by
  obtain ⟨constants, -, rfl⟩ := resolve_eq_ok h
  simp [outline, fixed, advance]

end LoadedClass

/-- The slots that an instance has for the fields of its super class. -/
def ClassTable.inheritedSlots (classes : ClassTable) (superClass : Option ClassId) : Nat :=
  ((superClass.bind (classes[·]?)).map (·.instanceSlots)).getD 0

namespace Blueprint

/-- The outline that a class file declares. -/
def fileOutline (classes : ClassTable) (name : String) (file : ClassFile)
    (superClass : Option ClassId) (interfaces : List ClassId)
    (declarations : List FieldDeclaration) (methods : List LoadedMethod) : LoadedClass where
  name := name
  kind := .ordinary
  flags := file.flags
  minor := file.minor
  major := file.major
  superClass := superClass
  interfaces := interfaces
  fields := FieldDeclaration.layout (classes.inheritedSlots superClass) 0 declarations
  instanceSlots :=
    classes.inheritedSlots superClass + FieldDeclaration.instanceWidth declarations
  statics := Array.replicate (declarations.filter (·.isStatic)).length .null
  methods := methods
  constants := #[]
  stage := .loaded
  initStatus := .notStarted
  classObject := none

variable {config : LoaderConfig} {classes : ClassTable} {name : String} {file : ClassFile}
  {superClass : Option ClassId} {interfaces : List ClassId} {c : LoadedClass}

/-- What no link changes in a class is unchanged once the constants of its supertypes are linked. -/
theorem linked_eq {α : Type} {f : LoadedClass → α}
    (hf : ∀ (c : LoadedClass) (index : UInt16) (target : ClassId), f (c.link index target) = f c)
    (c : LoadedClass) (index : UInt16) (superClass : Option ClassId)
    (links : List (UInt16 × ClassId)) :
    f (links.foldl (fun (c : LoadedClass) entry => c.link entry.1 entry.2) (match superClass with
      | some parent => c.link index parent
      | none => c)) = f c := by
  have hfold : ∀ c : LoadedClass,
      f (links.foldl (fun c entry => c.link entry.1 entry.2) c) = f c := by
    induction links with
    | nil => exact fun c => rfl
    | cons entry links ih =>
      intro c
      rw [List.foldl_cons, ih, hf]
  rw [hfold]
  cases superClass with
  | none => rfl
  | some parent => exact hf c index parent

theorem declaredClass_eq_ok (h : declaredClass classes name file superClass interfaces = .ok c) :
    ∃ constants declarations methods, LoadedConstant.ofPool file.pool = .ok constants ∧
      file.fields.mapM (file.pool.decodeField name) = .ok declarations ∧
      file.methods.mapM (file.pool.decodeMethod name) = .ok methods ∧
      c.fixed = { fileOutline classes name file superClass interfaces declarations methods with
        constants := (constants.map (·.unlinked)).toArray } := by
  obtain ⟨constants, hconstants, h⟩ := bind_eq_ok_iff.1 h
  obtain ⟨declarations, hdeclarations, h⟩ := bind_eq_ok_iff.1 h
  obtain ⟨methods, hmethods, h⟩ := bind_eq_ok_iff.1 h
  refine ⟨constants, declarations, methods, mapError_eq_ok_iff.1 hconstants, hdeclarations,
    hmethods, ?_⟩
  cases h
  refine (linked_eq LoadedClass.fixed_link ..).trans ?_
  simp [LoadedClass.fixed, fileOutline, ClassTable.inheritedSlots]

/-- How an ordinary class is built, step by step. -/
theorem buildOrdinary_eq_ok
    (h : buildOrdinary config classes name file superClass interfaces = .ok c) :
    ∃ declared prepared, declaredClass classes name file superClass interfaces = .ok declared ∧
      declared.verificationFault? config classes = none ∧
      (declared.advance .verified).prepare config = .ok prepared ∧
      prepared.resolve classes = .ok c := by
  obtain ⟨declared, hdeclared, h⟩ := bind_eq_ok_iff.1 h
  obtain ⟨verified, hverified, h⟩ := bind_eq_ok_iff.1 h
  obtain ⟨prepared, hprepared, hresolved⟩ := bind_eq_ok_iff.1 h
  rw [LoadedClass.verify_eq_ok hverified] at hprepared
  refine ⟨declared, prepared, hdeclared, ?_, hprepared, hresolved⟩
  unfold LoadedClass.verify at hverified
  split at hverified
  · cases hverified
  · assumption

theorem outline_buildOrdinary
    (h : buildOrdinary config classes name file superClass interfaces = .ok c) :
    ∃ declarations methods, file.fields.mapM (file.pool.decodeField name) = .ok declarations ∧
      file.methods.mapM (file.pool.decodeMethod name) = .ok methods ∧
      c.outline = fileOutline classes name file superClass interfaces declarations methods := by
  obtain ⟨declared, prepared, hdeclared, -, hprepared, hresolved⟩ := buildOrdinary_eq_ok h
  obtain ⟨constants, declarations, methods, -, hfields, hmethods, hfixed⟩ :=
    declaredClass_eq_ok hdeclared
  refine ⟨declarations, methods, hfields, hmethods, ?_⟩
  calc c.outline = prepared.outline := LoadedClass.outline_resolve hresolved
    _ = (declared.advance .verified).outline := LoadedClass.outline_prepare hprepared
    _ = { declared.fixed with constants := #[] } := rfl
    _ = fileOutline classes name file superClass interfaces declarations methods := by
      rw [hfixed]
      rfl

end Blueprint

/-! ### Links to static fields -/

/-- The static slot that a reference to a field of the class itself is linked to. -/
def LoadedConstant.staticSlot? : LoadedConstant → Option Nat
  | .fieldRef _ _ (some (.ofClass slot)) => some slot
  | _ => none

theorem LoadedConstant.staticSlot?_unlinked (constant : LoadedConstant) :
    constant.unlinked.staticSlot? = constant.staticSlot? := by
  cases constant <;> rfl

theorem LoadedConstant.staticSlot?_ofConstant {pool : ConstantPool} {raw : Constant}
    {constant : LoadedConstant} (h : ofConstant pool raw = .ok constant) :
    constant.staticSlot? = none := by
  cases raw with
  | utf8 _ => cases h; rfl
  | integer _ => cases h; rfl
  | float _ => cases h; rfl
  | long _ => cases h; rfl
  | double _ => cases h; rfl
  | methodHandle _ _ => cases h; rfl
  | unusable => cases h; rfl
  | classRef _ => obtain ⟨_, -, h⟩ := bind_eq_ok_iff.1 h; cases h; rfl
  | string _ => obtain ⟨_, -, h⟩ := bind_eq_ok_iff.1 h; cases h; rfl
  | methodType _ => obtain ⟨_, -, h⟩ := bind_eq_ok_iff.1 h; cases h; rfl
  | moduleRef _ => obtain ⟨_, -, h⟩ := bind_eq_ok_iff.1 h; cases h; rfl
  | packageRef _ => obtain ⟨_, -, h⟩ := bind_eq_ok_iff.1 h; cases h; rfl
  | dynamic _ _ => obtain ⟨_, -, h⟩ := bind_eq_ok_iff.1 h; cases h; rfl
  | invokeDynamic _ _ => obtain ⟨_, -, h⟩ := bind_eq_ok_iff.1 h; cases h; rfl
  | _ =>
    obtain ⟨_, -, h⟩ := bind_eq_ok_iff.1 h
    obtain ⟨_, -, h⟩ := bind_eq_ok_iff.1 h
    cases h
    rfl

/-- Every linked static slot is the slot of a static field of the class. -/
def LoadedClass.LinksOwn (c : LoadedClass) : Prop :=
  ∀ constant ∈ c.constants, ∀ slot, constant.staticSlot? = some slot →
    ∃ field ∈ c.fields, field.isStatic ∧ field.slot = slot

theorem LoadedClass.staticSlot?_resolveConstant {classes : ClassTable} {c : LoadedClass}
    {old new : LoadedConstant} (h : c.resolveConstant classes old = .ok new) {slot : Nat}
    (hold : old.staticSlot? = none) (hnew : new.staticSlot? = some slot) :
    ∃ field ∈ c.fields, field.isStatic ∧ field.slot = slot := by
  unfold resolveConstant at h
  split at h
  · next owner member link =>
    split at h
    · obtain ⟨type, -, h⟩ := bind_eq_ok_iff.1 h
      cases h
      cases link with
      | some link => cases link <;> simp_all [LoadedConstant.staticSlot?]
      | none =>
        unfold fieldLink? at hnew
        split at hnew
        · next field hfield =>
          cases hnew
          have hmem := List.mem_of_find?_eq_some hfield
          have hp := List.find?_some hfield
          simp only [Bool.and_eq_true] at hp
          exact ⟨field, hmem, hp.1.1, rfl⟩
        · cases hfield : (c.ownInstanceField? member.name type).or
              (c.superClass.bind (classes.instanceField? · member.name type)) with
          | none => simp [hfield, LoadedConstant.staticSlot?] at hnew
          | some field => simp [hfield, LoadedConstant.staticSlot?] at hnew
    · cases h
      rw [hold] at hnew
      cases hnew
  · cases h
    rw [hold] at hnew
    cases hnew

/-! ### References and slots -/

/-- The classes that a class refers to as its component and its supertypes. -/
def LoadedClass.references (c : LoadedClass) : List ClassId :=
  c.component?.toList ++ c.superClass.toList ++ c.interfaces

/-- The fields of a class are laid out after the slots of its super class, and its static values
are as many as its static fields. -/
def LoadedClass.LaidOut (classes : ClassTable) (c : LoadedClass) : Prop :=
  ∃ declarations : List FieldDeclaration,
    c.fields = FieldDeclaration.layout (classes.inheritedSlots c.superClass) 0 declarations ∧
      c.instanceSlots =
        classes.inheritedSlots c.superClass + FieldDeclaration.instanceWidth declarations ∧
      c.statics.size = (declarations.filter (·.isStatic)).length

namespace Blueprint

variable {config : LoaderConfig} {classes : ClassTable} {name : String} {file : ClassFile}
  {superClass : Option ClassId} {interfaces : List ClassId} {c : LoadedClass} {plan : Blueprint}
  {ids : List ClassId}

theorem references_buildOrdinary
    (h : buildOrdinary config classes name file superClass interfaces = .ok c) :
    c.name = name ∧ c.references = superClass.toList ++ interfaces := by
  obtain ⟨declarations, methods, -, -, houtline⟩ := outline_buildOrdinary h
  have hname : c.name = name := congrArg (·.name) houtline
  have hkind : c.kind = .ordinary := congrArg (·.kind) houtline
  have hsuper : c.superClass = superClass := congrArg (·.superClass) houtline
  have hinterfaces : c.interfaces = interfaces := congrArg (·.interfaces) houtline
  simp [LoadedClass.references, LoadedClass.component?, hname, hkind, hsuper, hinterfaces]

/-- A class has the name it was built for and refers only to what it was built from. -/
theorem references_build (h : plan.build config classes name ids = .ok c) :
    c.name = name ∧ ∀ id ∈ c.references, id ∈ ids := by
  unfold build at h
  split at h
  · cases h
    exact ⟨rfl, nofun⟩
  · cases h
    exact ⟨rfl, fun id hid => hid⟩
  · cases h
  · obtain ⟨hname, hreferences⟩ := references_buildOrdinary h
    exact ⟨hname, fun id hid => by simpa [hreferences] using hid⟩
  · obtain ⟨hname, hreferences⟩ := references_buildOrdinary h
    exact ⟨hname, fun id hid => by simpa [hreferences] using hid⟩
  · cases h

theorem laidOut_buildOrdinary
    (h : buildOrdinary config classes name file superClass interfaces = .ok c) :
    c.LaidOut classes := by
  obtain ⟨declarations, methods, -, -, houtline⟩ := outline_buildOrdinary h
  have hsuper : c.superClass = superClass := congrArg (·.superClass) houtline
  refine ⟨declarations, ?_, ?_, ?_⟩
  · rw [hsuper]
    exact congrArg (·.fields) houtline
  · rw [hsuper]
    exact congrArg (·.instanceSlots) houtline
  · have := congrArg (·.statics.size) houtline
    simpa [LoadedClass.outline, LoadedClass.fixed, fileOutline] using this

theorem linksOwn_buildOrdinary
    (h : buildOrdinary config classes name file superClass interfaces = .ok c) : c.LinksOwn := by
  obtain ⟨declared, prepared, hdeclared, -, hprepared, hresolved⟩ := buildOrdinary_eq_ok h
  obtain ⟨constants, declarations, methods, hconstants, -, -, hfixed⟩ :=
    declaredClass_eq_ok hdeclared
  obtain ⟨statics, -, rfl⟩ := LoadedClass.prepare_eq_ok hprepared
  obtain ⟨resolved, hmap, rfl⟩ := LoadedClass.resolve_eq_ok hresolved
  intro constant hconstant slot hslot
  have hresolved : constant ∈ resolved := List.mem_toArray.1 hconstant
  obtain ⟨old, hold, hresolve⟩ := exists_of_mem_forall₂ (forall₂_of_mapM hmap) hresolved
  have hunlinked : old.unlinked ∈ declared.fixed.constants := by
    simp only [LoadedClass.fixed, Array.mem_map]
    exact ⟨old, Array.mem_toList_iff.1 hold, rfl⟩
  rw [hfixed] at hunlinked
  have hnone : old.staticSlot? = none := by
    simp only [List.mem_toArray, List.mem_map] at hunlinked
    obtain ⟨constant, hmem, heq⟩ := hunlinked
    obtain ⟨raw, -, hraw⟩ := exists_of_mem_forall₂ (forall₂_of_mapM hconstants) hmem
    rw [← LoadedConstant.staticSlot?_unlinked, ← heq, LoadedConstant.staticSlot?_unlinked]
    exact LoadedConstant.staticSlot?_ofConstant hraw
  exact LoadedClass.staticSlot?_resolveConstant hresolve hnone hslot

theorem linksOwn_build (h : plan.build config classes name ids = .ok c) : c.LinksOwn := by
  unfold build at h
  split at h
  · cases h
    exact nofun
  · cases h
    exact nofun
  · cases h
  · exact linksOwn_buildOrdinary h
  · exact linksOwn_buildOrdinary h
  · cases h

theorem laidOut_build (h : plan.build config classes name ids = .ok c) : c.LaidOut classes := by
  unfold build at h
  split at h
  · cases h
    exact ⟨[], rfl, rfl, rfl⟩
  · cases h
    exact ⟨[], rfl, rfl, rfl⟩
  · cases h
  · exact laidOut_buildOrdinary h
  · exact laidOut_buildOrdinary h
  · cases h

end Blueprint

end ClassLoading
