import ClassLoading.Proofs.ArrayNames
import ClassLoading.Proofs.RuntimePool

/-! The slots that a class links the references to its own fields to. The field that a name and type
stand for is that of the nearest class, from the class upwards, that declares one at all. Linking
looks for it in two passes: among the static fields of the class itself, and then for the nearest
instance field. Where the nearest declaration is a static field of a super class the second pass
goes on past it, and if it comes upon an instance field there, the reference is linked to that field
instead of being left to be linked on use. In all other cases the two searches agree. -/
namespace ClassLoading

/-! ### The nearest declaration -/

/-- The class itself declares a field of the name and type, static or not. -/
def LoadedClass.declares (c : LoadedClass) (name : String) (type : FieldType) : Bool :=
  c.fields.any fun field => field.name == name && field.type == type

theorem LoadedClass.declares_iff {c : LoadedClass} {name : String} {type : FieldType} :
    c.declares name type ↔
      (∃ field, c.staticField? name type = some field) ∨
        ∃ field, c.ownInstanceField? name type = some field := by
  simp only [declares, staticField?, ownInstanceField?, ← Option.isSome_iff_exists,
    List.find?_isSome, List.any_eq_true, ← exists_or]
  refine exists_congr fun field => ?_
  cases field.isStatic <;> simp

theorem LoadedClass.ownInstanceField?_of_not_declares {c : LoadedClass} {name : String}
    {type : FieldType} (h : ¬c.declares name type) : c.ownInstanceField? name type = none :=
  Option.eq_none_iff_forall_not_mem.2 fun _ hmem => h (declares_iff.2 (.inr ⟨_, hmem⟩))

namespace ClassTable

variable {classes : ClassTable} {id i : ClassId} {c d : LoadedClass} {name : String}
  {type : FieldType} {field : LoadedField}

/-- The nearest class, from a class upwards, that declares a field of the name and type. -/
def declarer? (classes : ClassTable) (id : ClassId) (name : String) (type : FieldType) :
    Option ClassId :=
  (classes.superChain id).find? fun i => classes[i]?.any (·.declares name type)

/-- What a reference to a field of a class is to be linked to: the nearest declaration, if this is
an instance field or a static field of the class itself. -/
def resolvedLink? (classes : ClassTable) (id : ClassId) (name : String) (type : FieldType) :
    Option FieldLink := do
  let i ← classes.declarer? id name type
  let d ← classes[i]?
  match d.staticField? name type with
  | some field => if i = id then some (.ofClass field.slot) else none
  | none => (d.ownInstanceField? name type).map fun field => .ofInstance field.slot

/-- The nearest declaration is a static field of a super class, and that class or one further up
declares an instance field of the same name and type. -/
def Hides (classes : ClassTable) (id : ClassId) (name : String) (type : FieldType) : Prop :=
  ∃ i d, classes.declarer? id name type = some i ∧ i ≠ id ∧ classes[i]? = some d ∧
    (d.staticField? name type).isSome ∧ (classes.instanceField? id name type).isSome

theorem exists_of_declarer? (h : classes.declarer? id name type = some i) :
    ∃ d, classes[i]? = some d ∧ d.declares name type := by
  have hany := List.find?_some h
  cases hd : classes[i]? with
  | none => simp [hd] at hany
  | some d => exact ⟨d, rfl, by simpa [hd] using hany⟩

theorem declarer?_of_declares (hc : classes[id]? = some c) (h : c.declares name type) :
    classes.declarer? id name type = some id := by
  rw [declarer?, superChain, List.find?_cons_of_pos (by simpa [hc] using h)]

theorem declarer?_of_parent {parent : ClassId}
    (hchain : classes.superChain id = id :: classes.superChain parent)
    (hc : classes[id]? = some c) (h : ¬c.declares name type) :
    classes.declarer? id name type = classes.declarer? parent name type := by
  rw [declarer?, hchain, List.find?_cons_of_neg (by simpa [hc] using h), declarer?]

/-- Where nothing is declared there is no instance field. -/
theorem instanceField?_of_declarer?_none (h : classes.declarer? id name type = none) :
    classes.instanceField? id name type = none := by
  rw [declarer?, List.find?_eq_none] at h
  rw [instanceField?, List.findSome?_eq_none_iff]
  intro i hi
  cases hd : classes[i]? with
  | none => rfl
  | some d =>
    have hnot := h i hi
    rw [hd, Option.any_some] at hnot
    exact d.ownInstanceField?_of_not_declares hnot

/-- An instance field of the class with the nearest declaration is the nearest instance field. -/
theorem instanceField?_of_declarer? (h : classes.declarer? id name type = some i)
    (hd : classes[i]? = some d) (hfield : d.ownInstanceField? name type = some field) :
    classes.instanceField? id name type = some field := by
  rw [declarer?] at h
  rw [instanceField?]
  generalize classes.superChain id = chain at h ⊢
  induction chain with
  | nil => cases h
  | cons j chain ih =>
    rw [List.find?_cons] at h
    rw [List.findSome?_cons]
    cases hj : classes[j]?.any (·.declares name type) with
    | true =>
      rw [hj] at h
      cases h
      rw [hd, Option.bind_some, hfield]
    | false =>
      rw [hj] at h
      have hnone : classes[j]?.bind (·.ownInstanceField? name type) = none := by
        cases he : classes[j]? with
        | none => rfl
        | some e =>
          rw [he, Option.any_some] at hj
          exact e.ownInstanceField?_of_not_declares (by simp [hj])
      rw [hnone]
      exact ih h

/-- A class has no static field of a name and type whose nearest declaration is not its own. -/
theorem staticField?_of_declarer? (hc : classes[id]? = some c)
    (h : classes.declarer? id name type ≠ some id) : c.staticField? name type = none :=
  Option.eq_none_iff_forall_not_mem.2 fun _ hmem =>
    h (declarer?_of_declares hc (LoadedClass.declares_iff.2 (.inl ⟨_, hmem⟩)))

theorem Extends.instanceField?_eq {past now : ClassTable} (h : Extends now past)
    (hid : id < past.size) (name : String) (type : FieldType) :
    now.instanceField? id name type = past.instanceField? id name type := by
  rw [instanceField?_eq_find?, instanceField?_eq_find?, h.instanceFields_eq hid]

/-! ### The two searches -/

/-- What a class links a reference to one of its own fields to. -/
def foundLink? (classes : ClassTable) (id : ClassId) (c : LoadedClass) (name : String)
    (type : FieldType) : Option FieldLink :=
  match c.staticField? name type with
  | some field => some (.ofClass field.slot)
  | none => (classes.instanceField? id name type).map fun field => .ofInstance field.slot

theorem foundLink?_of_hides (hc : classes[id]? = some c) (h : classes.Hides id name type) :
    classes.resolvedLink? id name type = none ∧
      ∃ field, classes.instanceField? id name type = some field ∧
        classes.foundLink? id c name type = some (.ofInstance field.slot) := by
  obtain ⟨i, d, hi, hne, hd, hstatic, hinstance⟩ := h
  obtain ⟨shadow, hshadow⟩ := Option.isSome_iff_exists.1 hstatic
  obtain ⟨field, hfield⟩ := Option.isSome_iff_exists.1 hinstance
  refine ⟨by simp [resolvedLink?, hi, hd, hshadow, hne], field, hfield, ?_⟩
  have hown : c.staticField? name type = none :=
    staticField?_of_declarer? hc (by simpa [hi] using hne)
  rw [foundLink?, hown, hfield, Option.map_some]

theorem foundLink?_of_not_hides (hc : classes[id]? = some c) (h : ¬classes.Hides id name type) :
    classes.foundLink? id c name type = classes.resolvedLink? id name type := by
  cases hi : classes.declarer? id name type with
  | none =>
    have hown : c.staticField? name type = none := staticField?_of_declarer? hc (by simp [hi])
    simp [foundLink?, hown, instanceField?_of_declarer?_none hi, resolvedLink?, hi]
  | some i =>
    obtain ⟨d, hd, hdeclares⟩ := exists_of_declarer? hi
    by_cases hself : i = id
    · subst hself
      rw [hc] at hd
      cases hd
      cases hstatic : c.staticField? name type with
      | some field => simp [foundLink?, resolvedLink?, hi, hc, hstatic]
      | none =>
        obtain ⟨field, hfield⟩ : ∃ field, c.ownInstanceField? name type = some field := by
          simpa [hstatic] using LoadedClass.declares_iff.1 hdeclares
        simp [foundLink?, resolvedLink?, hi, hc, hstatic, hfield,
          instanceField?_of_declarer? hi hc hfield]
    · have hown : c.staticField? name type = none :=
        staticField?_of_declarer? hc (by simpa [hi] using hself)
      cases hstatic : d.staticField? name type with
      | some shadow =>
        have hnone : classes.instanceField? id name type = none := by
          rw [← Option.not_isSome_iff_eq_none]
          exact fun hsome => h ⟨i, d, hi, hself, hd, by simp [hstatic], hsome⟩
        simp [foundLink?, hown, hnone, resolvedLink?, hi, hd, hstatic, hself]
      | none =>
        obtain ⟨field, hfield⟩ : ∃ field, d.ownInstanceField? name type = some field := by
          simpa [hstatic] using LoadedClass.declares_iff.1 hdeclares
        simp [foundLink?, hown, instanceField?_of_declarer? hi hd hfield, resolvedLink?, hi, hd,
          hstatic, hfield]

end ClassTable

/-! ### The references of a class -/

/-- A reference to a field has been linked if it names the class itself, and then to what the class
finds among its own static fields and the instance fields. -/
def LoadedClass.LinkedIn (classes : ClassTable) (c : LoadedClass) (owner : String)
    (member : NameAndType) (link : Option FieldLink) : Prop :=
  (owner ≠ c.name → link = none) ∧ (owner = c.name → ∃ type,
    FieldType.ofDescriptor member.descriptor = .ok type ∧
      link = c.fieldLink? classes member.name type)

namespace Blueprint

variable {config : LoaderConfig} {classes : ClassTable} {name : String} {file : ClassFile}
  {superClass : Option ClassId} {interfaces : List ClassId} {c : LoadedClass} {plan : Blueprint}
  {ids : List ClassId} {owner : String} {member : NameAndType} {link : Option FieldLink}

theorem linkedIn_buildOrdinary
    (h : buildOrdinary config classes name file superClass interfaces = .ok c)
    (hmem : .fieldRef owner member link ∈ c.constants) :
    c.LinkedIn classes owner member link := by
  obtain ⟨declared, prepared, hdeclared, -, hprepared, hresolved⟩ := buildOrdinary_eq_ok h
  have hpool := (hasPool_of_prepared hprepared (hasPool_of_declared hdeclared).1).1
  obtain ⟨constants, hmap, rfl⟩ := LoadedClass.resolve_eq_ok hresolved
  obtain ⟨old, hold, hnew⟩ :=
    exists_of_mem_forall₂ (forall₂_of_mapM hmap) (List.mem_toArray.1 hmem)
  unfold LoadedClass.resolveConstant at hnew
  split at hnew
  · next owner' member' link' =>
    -- before it is resolved the reference has no link
    obtain ⟨raw, -, hraw⟩ := hpool.mem_fieldRef_iff.1 (Array.mem_toList_iff.1 hold)
    obtain ⟨-, -, -, -, -, -, -, rfl⟩ := LoadedConstant.ofConstant_eq_fieldRef_iff.1 hraw
    by_cases howner : owner' = prepared.name
    · rw [if_pos howner] at hnew
      obtain ⟨type, htype, hnew⟩ := bind_eq_ok_iff.1 hnew
      cases hnew
      exact ⟨fun hother => absurd howner hother, fun _ => ⟨type, htype, rfl⟩⟩
    · rw [if_neg howner] at hnew
      cases hnew
      exact ⟨fun _ => rfl, fun hown => absurd hown howner⟩
  · next hother =>
    cases hnew
    exact absurd rfl (hother owner member link)

theorem linkedIn_build (h : plan.build config classes name ids = .ok c)
    (hmem : .fieldRef owner member link ∈ c.constants) :
    c.LinkedIn classes owner member link := by
  unfold build at h
  split at h
  · cases h
    simp [buildPrimitive, synthetic] at hmem
  · cases h
    simp [buildArray, synthetic] at hmem
  · cases h
  · exact linkedIn_buildOrdinary h hmem
  · exact linkedIn_buildOrdinary h hmem
  · cases h

end Blueprint

/-- A reference of the pool is one of the class, linked or not. -/
theorem LoadedClass.Mirrors.exists_fieldRef {pool : ConstantPool} {c : LoadedClass}
    (h : c.Mirrors pool) {o m : UInt16} {owner name descriptor : String}
    (hraw : .fieldRef o m ∈ pool.slots) (howner : pool.className o = .ok owner)
    (hmember : pool.nameAndType m = .ok (name, descriptor)) :
    ∃ link, .fieldRef owner ⟨name, descriptor⟩ link ∈ c.constants := by
  obtain ⟨k, hk, hmirror⟩ := exists_of_mem_forall₂ h.flip hraw
  cases hmirror with
  | fieldRef link howner' hmember' =>
    rw [howner] at howner'
    rw [hmember] at hmember'
    cases howner'
    cases hmember'
    exact ⟨link, Array.mem_toList_iff.1 hk⟩

theorem LoadedClass.mem_constants_of_fixed {c d : LoadedClass} (h : d.fixed = c.fixed)
    {owner : String} {member : NameAndType} {link : Option FieldLink} :
    .fieldRef owner member link ∈ d.constants ↔ .fieldRef owner member link ∈ c.constants := by
  have hmem : ∀ e : LoadedClass, LoadedConstant.fieldRef owner member link ∈ e.constants ↔
      LoadedConstant.fieldRef owner member link ∈ e.fixed.constants := by
    intro e
    rw [fixed, Array.mem_map]
    constructor
    · exact fun he => ⟨_, he, rfl⟩
    · rintro ⟨k, hk, hunlinked⟩
      cases k <;> cases hunlinked
      exact hk
  rw [hmem, h, ← hmem]

namespace Loader

variable {config : LoaderConfig} {search : ClassSearch} {s : Loader} {name : String}
  {id : ClassId} {c : LoadedClass} {owner : String} {member : NameAndType}
  {link : Option FieldLink} {type : FieldType}

/-- The classes that have been loaded since do not change what a class finds. -/
theorem Sound.linked (hs : s.Sound config search) (h : s.findLoaded? name = some id)
    (hc : s.classes[id]? = some c) (hmem : .fieldRef owner member link ∈ c.constants) :
    (owner ≠ c.name → link = none) ∧ (owner = c.name → ∃ type,
      FieldType.ofDescriptor member.descriptor = .ok type ∧
        link = s.classes.foundLink? id c member.name type) := by
  have hfound := hs.instanceField?_eq ⟨name, h⟩ hc
  obtain ⟨e, he, -, hrefs⟩ := hs.exists_linked h
  obtain ⟨past, plan, ids, built, rfl, hext, -, -, hbuild⟩ := hs.made name id h
  obtain ⟨d, hd, hfixed⟩ := hext past.size built (by simp)
  rw [hc] at hd he
  cases hd
  cases he
  have hname : c.name = built.name := congrArg (·.name) hfixed
  have hfields : c.fields = built.fields := congrArg (·.fields) hfixed
  have hsuper : c.superClass = built.superClass := congrArg (·.superClass) hfixed
  obtain ⟨hother, hown⟩ :=
    Blueprint.linkedIn_build hbuild ((LoadedClass.mem_constants_of_fixed hfixed).1 hmem)
  refine ⟨fun hne => hother (hname ▸ hne), fun heq => ?_⟩
  obtain ⟨type, htype, hlink⟩ := hown (heq.trans hname)
  refine ⟨type, htype, hlink.trans ?_⟩
  have hstatic : built.staticField? member.name type = c.staticField? member.name type := by
    rw [LoadedClass.staticField?, LoadedClass.staticField?, hfields]
  have hinstance : built.ownInstanceField? member.name type =
      c.ownInstanceField? member.name type := by
    rw [LoadedClass.ownInstanceField?, LoadedClass.ownInstanceField?, hfields]
  have habove : built.superClass.bind (past.instanceField? · member.name type) =
      c.superClass.bind (s.classes.instanceField? · member.name type) := by
    rw [← hsuper]
    cases hparent : c.superClass with
    | none => rfl
    | some parent =>
      have hlt := (hrefs parent (by simp [LoadedClass.references, hparent])).1
      have hgrown := (ClassTable.Extends.push past built).trans hext
      exact (hgrown.instanceField?_eq hlt member.name type).symm
  cases hown : c.staticField? member.name type <;>
    simp only [LoadedClass.fieldLink?, ClassTable.foundLink?, hfound, hstatic, hown, hinstance,
      habove]

/-- What a class finds has its slot among the values of the class or in its instances. -/
theorem Sound.slot_lt (hs : s.Sound config search) (h : s.findLoaded? name = some id)
    (hc : s.classes[id]? = some c) (field : String) (type : FieldType) :
    (∀ slot, s.classes.foundLink? id c field type = some (.ofClass slot) → slot < c.statics.size) ∧
    ∀ slot, s.classes.foundLink? id c field type = some (.ofInstance slot) →
      slot < c.instanceSlots := by
  obtain ⟨d, hd, htiled⟩ := hs.tiled h
  rw [hc] at hd
  cases hd
  unfold ClassTable.foundLink?
  cases hstatic : c.staticField? field type with
  | some found =>
    refine ⟨fun slot hslot => ?_, fun slot => nofun⟩
    cases hslot
    have hp := List.find?_some hstatic
    simp only [Bool.and_eq_true] at hp
    have hmem : found.slot ∈ (c.fields.filter (·.isStatic)).map (·.slot) :=
      List.mem_map_of_mem (List.mem_filter.2 ⟨List.mem_of_find?_eq_some hstatic, hp.1.1⟩)
    rw [htiled.statics] at hmem
    exact List.mem_range.1 hmem
  | none =>
    refine ⟨fun slot hslot => ?_, fun slot hslot => ?_⟩
    · obtain ⟨found, -, hfound⟩ := Option.map_eq_some_iff.1 hslot
      cases hfound
    · obtain ⟨found, hfound, heq⟩ := Option.map_eq_some_iff.1 hslot
      cases heq
      rw [ClassTable.instanceField?_eq_find?] at hfound
      have hcovers : found.Covers found.slot :=
        ⟨Nat.le_refl _, Nat.lt_add_of_pos_right found.type.width_pos⟩
      exact (htiled.covered found.slot).1 ⟨found, List.mem_of_find?_eq_some hfound, hcovers⟩

/-- The class of a file has the fields that the file declares, in some slots, and mirrors its
pool. -/
theorem Sound.exists_declared (hs : s.Sound config search) (h : s.findLoaded? name = some id)
    {file : ClassFile} {superName : Option String} {interfaceNames : List String}
    {declarations : List FieldDeclaration}
    (hplan : Blueprint.ofName search name = .ok (.ordinary file superName interfaceNames))
    (hdecode : file.fields.mapM (file.pool.decodeField name) = .ok declarations) :
    ∃ c slot, s.classes[id]? = some c ∧ c.name = name ∧ c.Mirrors file.pool ∧
      c.fields = FieldDeclaration.layout slot 0 declarations := by
  obtain ⟨past, superClass, interfaces, built, c, hc, hfixed, -, -, -, hbuilt⟩ :=
    hs.exists_buildOrdinary h hplan
  obtain ⟨declarations', methods, hdecode', -, houtline⟩ :=
    Blueprint.outline_buildOrdinary hbuilt
  rw [hdecode] at hdecode'
  cases hdecode'
  have hkept : c.outline = built.outline := congrArg (fun c => { c with constants := #[] }) hfixed
  rw [houtline] at hkept
  exact ⟨c, past.inheritedSlots superClass, hc, congrArg (·.name) hkept,
    (LoadedClass.mirrors_buildOrdinary hbuilt).of_fixed hfixed, congrArg (·.fields) hkept⟩

end Loader

/-! ### A static field between two classes -/

/-- The descriptors of all references to fields can be read. -/
def ClassFile.refersWell (file : ClassFile) : Bool :=
  file.pool.slots.all fun
    | .fieldRef _ member => match file.pool.nameAndType member with
      | .ok texts => (FieldType.ofDescriptor texts.2).isOk
      | .error _ => true
    | _ => true

/-- A class file with a super class and fields that are not final, and with neither interfaces nor
methods, passes if its descriptors can be read. -/
theorem ClassFile.passes_of_fields {search : ClassSearch} {name parent : String} {file : ClassFile}
    {declarations : List FieldDeclaration} (hparent : ¬search.HasInterface parent)
    (hmajor : file.major = 52) (hmethods : file.methods = [])
    (hdecode : file.fields.mapM (file.pool.decodeField name) = .ok declarations)
    (hfinal : ∀ d ∈ declarations, ¬Access.isFinal d.flags) (hrefers : file.refersWell) :
    file.Passes .standard search name (some parent) [] := by
  refine ⟨mapM_isOk_iff.1 ⟨declarations, hdecode⟩, by simp [hmethods], ?_, ?_, nofun, nofun, ?_, ?_⟩
  · rw [hmajor]
    decide
  · rintro _ ⟨⟩
    exact hparent
  · intro _ m hm d hd _ hdfinal
    obtain ⟨d', hmem, hd'⟩ := exists_of_mem_forall₂ (forall₂_of_mapM hdecode).flip hm
    rw [hd] at hd'
    cases hd'
    exact absurd hdfinal (hfinal d hmem)
  · intro owner member hmem _ texts htexts
    have hok := List.all_eq_true.1 hrefers _ hmem
    simp only [htexts] at hok
    cases htype : FieldType.ofDescriptor texts.2 with
    | ok type => exact ⟨type, rfl⟩
    | error e =>
      rw [htype] at hok
      cases hok

namespace HidingPath

/-- The file of a class with two instance fields. -/
def baseFile : ClassFile := .ofFields "Base" (some objectName) [(0, "f", "I"), (0, "h", "J")]

/-- The file of a class with a static field that has the name and type of an inherited one. -/
def middleFile : ClassFile := .ofFields "Middle" (some "Base") [(8, "f", "I")]

/-- The file of a class that refers to a static field of its own and to the fields above it. -/
def leafFile : ClassFile :=
  { ClassFile.ofFields "Leaf" (some "Middle") [(8, "g", "I")] with
    pool := ⟨[.utf8 "Leaf", .classRef 1, .utf8 "Middle", .classRef 3, .utf8 "g", .utf8 "I",
      .nameAndType 5 6, .fieldRef 2 7, .utf8 "f", .nameAndType 9 6, .fieldRef 2 10, .utf8 "h",
      .utf8 "J", .nameAndType 12 13, .fieldRef 2 14]⟩ }

def search : ClassSearch :=
  .ofFiles [(objectName, SmallPath.objectFile), (classClassName, OddPath.classFile),
    ("Base", baseFile), ("Middle", middleFile), ("Leaf", leafFile)]

theorem ofName_object :
    Blueprint.ofName search objectName = .ok (.ordinary SmallPath.objectFile none []) :=
  Blueprint.ofName_of_file (by decide) rfl SmallPath.standsFor_object

theorem ofName_class : Blueprint.ofName search classClassName =
    .ok (.ordinary OddPath.classFile (some objectName) []) :=
  Blueprint.ofName_of_file (by decide) rfl OddPath.standsFor_class

theorem ofName_base :
    Blueprint.ofName search "Base" = .ok (.ordinary baseFile (some objectName) []) :=
  Blueprint.ofName_of_file (by decide) rfl ⟨by decide +kernel, rfl, rfl, rfl⟩

theorem ofName_middle :
    Blueprint.ofName search "Middle" = .ok (.ordinary middleFile (some "Base") []) :=
  Blueprint.ofName_of_file (by decide) rfl ⟨by decide +kernel, rfl, rfl, rfl⟩

theorem ofName_leaf :
    Blueprint.ofName search "Leaf" = .ok (.ordinary leafFile (some "Middle") []) :=
  Blueprint.ofName_of_file (by decide) rfl ⟨by decide +kernel, rfl, rfl, rfl⟩

theorem decode_base : baseFile.fields.mapM (baseFile.pool.decodeField "Base") =
    .ok [⟨0, "f", .primitive .int, none⟩, ⟨0, "h", .primitive .long, none⟩] := rfl

theorem decode_middle : middleFile.fields.mapM (middleFile.pool.decodeField "Middle") =
    .ok [⟨8, "f", .primitive .int, none⟩] := rfl

theorem decode_leaf : leafFile.fields.mapM (leafFile.pool.decodeField "Leaf") =
    .ok [⟨8, "g", .primitive .int, none⟩] := rfl

/-- A name whose file is that of no interface. -/
theorem not_hasInterface {name : String} {file : ClassFile} {superName : Option String}
    (hplan : Blueprint.ofName search name = .ok (.ordinary file superName []))
    (hflags : file.flags = 0x21) : ¬search.HasInterface name := by
  rintro ⟨file', superName', interfaceNames, hplan', hinterface⟩
  rw [hplan] at hplan'
  cases hplan'
  rw [hflags] at hinterface
  exact absurd hinterface (by decide)

theorem loadable_object : Loadable .standard search objectName :=
  SmallPath.loadable_of_objectFile ofName_object

theorem loadable_class : Loadable .standard search classClassName :=
  .of_plan ofName_class (List.forall_mem_singleton.2 loadable_object)
    (ClassFile.passes_ofFields_nil (not_hasInterface ofName_object rfl))

theorem loadable_base : Loadable .standard search "Base" :=
  .of_plan ofName_base (List.forall_mem_singleton.2 loadable_object)
    (ClassFile.passes_of_fields (not_hasInterface ofName_object rfl) rfl rfl decode_base (by decide)
      rfl)

theorem loadable_middle : Loadable .standard search "Middle" :=
  .of_plan ofName_middle (List.forall_mem_singleton.2 loadable_base)
    (ClassFile.passes_of_fields (not_hasInterface ofName_base rfl) rfl rfl decode_middle (by decide)
      rfl)

theorem loadable_leaf : Loadable .standard search "Leaf" :=
  .of_plan ofName_leaf (List.forall_mem_singleton.2 loadable_middle)
    (ClassFile.passes_of_fields (not_hasInterface ofName_middle rfl) rfl rfl decode_leaf (by decide)
      rfl)

/-- The three classes have been loaded, one on top of the other. -/
structure Loaded (s : Loader) (leaf middle base : ClassId) (c d e : LoadedClass) : Prop where
  history : s.History .standard search
  found : s.findLoaded? "Leaf" = some leaf
  classes : s.classes[leaf]? = some c ∧ s.classes[middle]? = some d ∧ s.classes[base]? = some e
  leafChain : s.classes.superChain leaf = leaf :: s.classes.superChain middle
  middleChain : s.classes.superChain middle = middle :: s.classes.superChain base
  distinct : middle ≠ leaf
  mirrors : c.name = "Leaf" ∧ c.Mirrors leafFile.pool
  leafFields : c.fields = [⟨8, "g", .primitive .int, 0, none⟩]
  middleFields : d.fields = [⟨8, "f", .primitive .int, 0, none⟩]
  baseFields : ∃ slot, e.fields = [⟨0, "f", .primitive .int, slot, none⟩,
    ⟨0, "h", .primitive .long, slot + 1, none⟩]

theorem exists_loaded : ∃ s leaf middle base c d e, Loaded s leaf middle base c d e := by
  obtain ⟨s, hs, hloaded, -⟩ := Loader.History.exists_loaded loadable_class
    (List.forall_mem_singleton.2 loadable_leaf)
  have hsound := hs.sound
  obtain ⟨leaf, hleaf⟩ := hloaded "Leaf" (by decide)
  obtain ⟨-, middle, -, -, hmiddle, hof, hlt⟩ := hsound.exists_super hleaf ofName_leaf
  obtain ⟨-, base, -, -, hbase, hof', hlt'⟩ := hsound.exists_super hmiddle ofName_middle
  obtain ⟨c, i, hc, hname, hmirrors, hcfields⟩ :=
    hsound.exists_declared hleaf ofName_leaf decode_leaf
  obtain ⟨d, j, hd, -, -, hdfields⟩ := hsound.exists_declared hmiddle ofName_middle decode_middle
  obtain ⟨e, k, he, -, -, hefields⟩ := hsound.exists_declared hbase ofName_base decode_base
  exact ⟨s, leaf, middle, base, c, d, e, hs, hleaf, ⟨hc, hd, he⟩,
    Loader.superChain_of_superOf hof hlt, Loader.superChain_of_superOf hof' hlt',
    Nat.ne_of_lt hlt, ⟨hname, hmirrors⟩, hcfields, hdfields, k, hefields⟩

section Loaded

variable {s : Loader} {leaf middle base : ClassId} {c d e : LoadedClass}

/-- The static field stands between the class and the instance field of the same name and type. -/
theorem Loaded.hides (h : Loaded s leaf middle base c d e) :
    s.classes.Hides leaf "f" (.primitive .int) := by
  obtain ⟨hleaf, hmiddle, hbase⟩ := h.classes
  have hpassed : ¬c.declares "f" (.primitive .int) := by
    simp [LoadedClass.declares, h.leafFields]
  have hstatic : (d.staticField? "f" (.primitive .int)).isSome := by
    simp [LoadedClass.staticField?, h.middleFields, LoadedField.isStatic, Access.isStatic]
  have hfield : (s.classes.instanceField? leaf "f" (.primitive .int)).isSome := by
    obtain ⟨slot, hslot⟩ := h.baseFields
    rw [ClassTable.instanceField?, List.findSome?_isSome_iff]
    refine ⟨base, ?_, ?_⟩
    · rw [h.leafChain, h.middleChain, ClassTable.superChain]
      simp
    · simp [hbase, LoadedClass.ownInstanceField?, hslot, LoadedField.isStatic, Access.isStatic]
  refine ⟨middle, d, ?_, h.distinct, hmiddle, hstatic, hfield⟩
  rw [ClassTable.declarer?_of_parent h.leafChain hleaf hpassed]
  exact ClassTable.declarer?_of_declares hmiddle
    (LoadedClass.declares_iff.2 (.inl (Option.isSome_iff_exists.1 hstatic)))

/-- Nothing stands between the class and the other inherited field. -/
theorem Loaded.declarer? (h : Loaded s leaf middle base c d e) :
    s.classes.declarer? leaf "h" (.primitive .long) = some base := by
  obtain ⟨hleaf, hmiddle, hbase⟩ := h.classes
  obtain ⟨slot, hslot⟩ := h.baseFields
  rw [ClassTable.declarer?_of_parent h.leafChain hleaf
      (by simp [LoadedClass.declares, h.leafFields]),
    ClassTable.declarer?_of_parent h.middleChain hmiddle
      (by simp [LoadedClass.declares, h.middleFields])]
  exact ClassTable.declarer?_of_declares hbase (by simp [LoadedClass.declares, hslot])

end Loaded

end HidingPath

namespace Machine.Reachable

variable {config : LoaderConfig} {search : ClassSearch} {m : Machine} {name owner : String}
  {id : ClassId} {c : LoadedClass} {member : NameAndType} {link : Option FieldLink}

/-- In every state of a loader that threads and requests can bring about, a reference of a loaded
class to a field has no link if it names another class, and only to slots that there are if it has
one. A reference to a field of the class itself is linked as the nearest declaration says, exactly
if this is not a static field of a super class that hides an instance field. -/
theorem link_eq_resolved_iff_not_hides (hm : m.Reachable config search)
    (h : m.loader.findLoaded? name = some id) (hc : m.loader.classes[id]? = some c)
    (hmem : .fieldRef owner member link ∈ c.constants) :
    (owner ≠ c.name → link = none) ∧
    (∀ slot, link = some (.ofClass slot) → slot < c.statics.size) ∧
    (∀ slot, link = some (.ofInstance slot) → slot < c.instanceSlots) ∧
    (owner = c.name → ∃ type, FieldType.ofDescriptor member.descriptor = .ok type ∧
      (link = m.loader.classes.resolvedLink? id member.name type ↔
        ¬m.loader.classes.Hides id member.name type) ∧
      (m.loader.classes.Hides id member.name type →
        ∃ field, m.loader.classes.instanceField? id member.name type = some field ∧
          link = some (.ofInstance field.slot))) := by
  have hs := hm.sound.loader
  obtain ⟨hother, hown⟩ := hs.linked h hc hmem
  by_cases howner : owner = c.name
  · obtain ⟨type, htype, rfl⟩ := hown howner
    obtain ⟨hstatic, hinstance⟩ := hs.slot_lt h hc member.name type
    refine ⟨fun hne => absurd howner hne, hstatic, hinstance, fun _ => ⟨type, htype, ?_, ?_⟩⟩
    · constructor
      · intro heq hhides
        obtain ⟨hnone, field, -, hfound⟩ := ClassTable.foundLink?_of_hides hc hhides
        rw [hnone, hfound] at heq
        cases heq
      · exact ClassTable.foundLink?_of_not_hides hc
    · exact fun hhides => (ClassTable.foundLink?_of_hides hc hhides).2
  · obtain rfl := hother howner
    exact ⟨fun _ => rfl, nofun, nofun, fun heq => absurd heq howner⟩

/-- An instance field two classes up is found past a class that declares another one. -/
theorem inherited_field_linked : ∃ (m : Machine) (id : ClassId) (c : LoadedClass)
    (link : Option FieldLink) (slot : Nat), m.Reachable .standard HidingPath.search ∧
      m.loader.findLoaded? "Leaf" = some id ∧ m.loader.classes[id]? = some c ∧
      .fieldRef "Leaf" ⟨"h", "J"⟩ link ∈ c.constants ∧
      ¬m.loader.classes.Hides id "h" (.primitive .long) ∧
      link = m.loader.classes.resolvedLink? id "h" (.primitive .long) ∧
      link = some (.ofInstance slot) ∧ slot < c.instanceSlots := by
  obtain ⟨s, leaf, middle, base, c, d, e, h⟩ := HidingPath.exists_loaded
  have hm := of_history h.history
  obtain ⟨hleaf, -, hbase⟩ := h.classes
  obtain ⟨slot, hslot⟩ := h.baseFields
  have hstatic : e.staticField? "h" (.primitive .long) = none := by
    simp [LoadedClass.staticField?, hslot, LoadedField.isStatic, Access.isStatic]
  have hfield : e.ownInstanceField? "h" (.primitive .long) =
      some ⟨0, "h", .primitive .long, slot + 1, none⟩ := by
    simp [LoadedClass.ownInstanceField?, hslot, LoadedField.isStatic, Access.isStatic]
  have hnot : ¬s.classes.Hides leaf "h" (.primitive .long) := by
    rintro ⟨i, d', hi, -, hd', hsome, -⟩
    rw [h.declarer?] at hi
    cases hi
    rw [hbase] at hd'
    cases hd'
    simp [hstatic] at hsome
  obtain ⟨link, hmem⟩ : ∃ link, .fieldRef "Leaf" ⟨"h", "J"⟩ link ∈ c.constants :=
    h.mirrors.2.exists_fieldRef (o := 2) (m := 14) (by decide) rfl rfl
  obtain ⟨-, -, hbound, hown⟩ := link_eq_resolved_iff_not_hides hm h.found hleaf hmem
  obtain ⟨type, htype, hiff, -⟩ := hown h.mirrors.1.symm
  cases htype
  have hlink := hiff.2 hnot
  have hvalue : link = some (.ofInstance (slot + 1)) := by
    simp [hlink, ClassTable.resolvedLink?, h.declarer?, hbase, hstatic, hfield]
  exact ⟨⟨s, #[]⟩, leaf, c, link, slot + 1, hm, h.found, hleaf, hmem, hnot, hlink, hvalue,
    hbound _ hvalue⟩

/-- A reference to a static field of the super class is linked to a slot of the instances, which
belongs to a field that the static one hides. -/
theorem hidden_field_linked : ∃ (m : Machine) (id : ClassId) (c : LoadedClass) (slot : Nat),
    m.Reachable .standard HidingPath.search ∧ m.loader.findLoaded? "Leaf" = some id ∧
      m.loader.classes[id]? = some c ∧
      .fieldRef "Leaf" ⟨"f", "I"⟩ (some (.ofInstance slot)) ∈ c.constants ∧
      FieldType.ofDescriptor "I" = .ok (.primitive .int) ∧
      m.loader.classes.resolvedLink? id "f" (.primitive .int) = none := by
  obtain ⟨s, leaf, middle, base, c, d, e, h⟩ := HidingPath.exists_loaded
  obtain ⟨hleaf, -, -⟩ := h.classes
  obtain ⟨link, hmem⟩ : ∃ link, .fieldRef "Leaf" ⟨"f", "I"⟩ link ∈ c.constants :=
    h.mirrors.2.exists_fieldRef (o := 2) (m := 10) (by decide) rfl rfl
  obtain ⟨type, htype, rfl⟩ := (h.history.sound.linked h.found hleaf hmem).2 h.mirrors.1.symm
  cases htype
  obtain ⟨hnone, field, -, hlink⟩ := ClassTable.foundLink?_of_hides hleaf h.hides
  have hlink : s.classes.foundLink? leaf c "f" (.primitive .int) = some (.ofInstance field.slot) :=
    hlink
  rw [hlink] at hmem
  exact ⟨⟨s, #[]⟩, leaf, c, field.slot, of_history h.history, h.found, hleaf, hmem, rfl, hnone⟩

end Machine.Reachable

end ClassLoading
