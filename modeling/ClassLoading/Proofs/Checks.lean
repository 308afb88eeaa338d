import ClassLoading.Proofs.Building
import ClassLoading.Proofs.PoolReferences

/-! The checks on the way from a class file to a class, said of the file. An ordinary class can be
built exactly when its members decode, its version is one of those that are taken, its super class
is no interface and its interfaces are, its constant static fields have constants of their kinds,
and the descriptors of the references to its own fields are in order. -/
namespace ClassLoading

/-! ### Constants -/

namespace LoadedConstant

variable {pool : ConstantPool} {raw : Constant} {constant : LoadedConstant}

theorem kind_unlinked (constant : LoadedConstant) : constant.unlinked.kind = constant.kind := by
  cases constant <;> rfl

theorem kind_ofConstant (h : ofConstant pool raw = .ok constant) : constant.kind = raw.kind := by
  cases raw with
  | utf8 _ | integer _ | float _ | long _ | double _ | methodHandle _ _ | unusable =>
    cases h
    rfl
  | classRef _ | string _ | methodType _ | moduleRef _ | packageRef _ | dynamic _ _
  | invokeDynamic _ _ =>
    obtain ⟨_, -, h⟩ := bind_eq_ok_iff.1 h
    cases h
    rfl
  | fieldRef _ _ | methodRef _ _ | interfaceMethodRef _ _ | nameAndType _ _ =>
    obtain ⟨_, -, h⟩ := bind_eq_ok_iff.1 h
    obtain ⟨_, -, h⟩ := bind_eq_ok_iff.1 h
    cases h
    rfl

/-- In a closed pool every constant can be loaded. -/
theorem ofConstant_isOk (hc : pool.Closed) (hraw : raw ∈ pool.slots) :
    ∃ constant, ofConstant pool raw = .ok constant := by
  have hlead := hc raw hraw
  cases raw with
  | utf8 _ | integer _ | float _ | long _ | double _ | methodHandle _ _ | unusable =>
    exact ⟨_, rfl⟩
  | classRef _ | string _ | methodType _ | moduleRef _ | packageRef _ =>
    simp only [Constant.references, List.mem_singleton, forall_eq] at hlead
    obtain ⟨text, ht⟩ := ConstantPool.leads_utf8_iff.1 hlead
    exact ⟨_, bind_eq_ok_iff.2 ⟨text, ht, rfl⟩⟩
  | dynamic _ _ | invokeDynamic _ _ =>
    simp only [Constant.references, List.mem_singleton, forall_eq] at hlead
    obtain ⟨texts, ht⟩ := hc.nameAndType_of_leads hlead
    exact ⟨_, bind_eq_ok_iff.2 ⟨_, bind_eq_ok_iff.2 ⟨texts, ht, rfl⟩, rfl⟩⟩
  | fieldRef _ _ | methodRef _ _ | interfaceMethodRef _ _ =>
    simp only [Constant.references, List.mem_cons, List.not_mem_nil, or_false, forall_eq_or_imp,
      forall_eq] at hlead
    obtain ⟨name, hn⟩ := hc.className_of_leads hlead.1
    obtain ⟨texts, ht⟩ := hc.nameAndType_of_leads hlead.2
    exact ⟨_, bind_eq_ok_iff.2 ⟨name, hn, bind_eq_ok_iff.2
      ⟨_, bind_eq_ok_iff.2 ⟨texts, ht, rfl⟩, rfl⟩⟩⟩
  | nameAndType _ _ =>
    simp only [Constant.references, List.mem_cons, List.not_mem_nil, or_false, forall_eq_or_imp,
      forall_eq] at hlead
    obtain ⟨name, hn⟩ := ConstantPool.leads_utf8_iff.1 hlead.1
    obtain ⟨descriptor, hd⟩ := ConstantPool.leads_utf8_iff.1 hlead.2
    exact ⟨_, bind_eq_ok_iff.2 ⟨name, hn, bind_eq_ok_iff.2 ⟨descriptor, hd, rfl⟩⟩⟩

theorem ofPool_isOk (hc : pool.Closed) : ∃ constants, ofPool pool = .ok constants :=
  mapM_isOk_iff.2 fun _ hraw => ofConstant_isOk hc hraw

theorem map_kind_ofPool {constants : List LoadedConstant} (h : ofPool pool = .ok constants) :
    constants.map (·.kind) = pool.slots.map (·.kind) := by
  have hall : List.Forall₂ (fun raw constant => ofConstant pool raw = .ok constant) pool.slots
      constants := forall₂_of_mapM h
  clear h
  generalize pool.slots = slots at hall
  induction hall with
  | nil => rfl
  | cons hraw _ ih => rw [List.map_cons, List.map_cons, kind_ofConstant hraw, ih]

theorem kind_eq_unusable_iff : constant.kind = .unusable ↔ constant = .unusable := by
  cases constant <;> simp [kind]

end LoadedConstant

theorem Constant.kind_eq_unusable_iff {k : Constant} : k.kind = .unusable ↔ k = .unusable := by
  cases k <;> simp [kind]

theorem UInt16.toNat_pos {index : UInt16} (h : index ≠ 0) : 0 < index.toNat :=
  Nat.pos_of_ne_zero fun h0 => h (UInt16.toNat_inj.1 h0)

/-- An index leads to a constant of a kind, in a pool. -/
theorem ConstantPool.get_kind_iff {pool : ConstantPool} {index : UInt16} {kind : ConstantKind} :
    (∃ k, pool.get index = .ok k ∧ k.kind = kind) ↔
      0 < index.toNat ∧ (pool.slots.map (·.kind))[index.toNat - 1]? = some kind ∧
        kind ≠ .unusable := by
  simp only [get_eq_ok_iff, List.getElem?_map, Option.map_eq_some_iff]
  constructor
  · rintro ⟨k, ⟨hpos, hk, hu⟩, rfl⟩
    exact ⟨hpos, ⟨k, hk, rfl⟩, fun h => hu (Constant.kind_eq_unusable_iff.1 h)⟩
  · rintro ⟨hpos, ⟨k, hk, rfl⟩, hu⟩
    exact ⟨k, ⟨hpos, hk, fun h => hu (Constant.kind_eq_unusable_iff.2 h)⟩, rfl⟩

namespace LoadedClass

variable {config : LoaderConfig} {classes : ClassTable} {c : LoadedClass} {index : UInt16}

theorem constant_eq_ok_iff {k : LoadedConstant} :
    c.constant index = .ok k ↔
      0 < index.toNat ∧ c.constants[index.toNat - 1]? = some k ∧ k ≠ .unusable := by
  unfold constant
  by_cases h0 : index = 0
  · simp [h0]
  · have hpos := UInt16.toNat_pos h0
    rw [if_neg h0]
    split
    · next hs => simp [hs]
    · next hs =>
      simp only [hs, reduceCtorEq, Option.some.injEq, false_iff]
      rintro ⟨-, rfl, hu⟩
      exact hu rfl
    · next k' hu hs =>
      simp only [hs, Except.ok.injEq, Option.some.injEq]
      exact ⟨fun h => ⟨hpos, h, h ▸ hu⟩, fun h => h.2.1⟩

/-- An index leads to a constant of a kind, in a loaded class. -/
theorem constant_kind_iff {kind : ConstantKind} :
    (∃ k, c.constant index = .ok k ∧ k.kind = kind) ↔
      0 < index.toNat ∧ (c.constants.toList.map (·.kind))[index.toNat - 1]? = some kind ∧
        kind ≠ .unusable := by
  simp only [constant_eq_ok_iff, List.getElem?_map, Option.map_eq_some_iff, Array.getElem?_toList]
  constructor
  · rintro ⟨k, ⟨hpos, hk, hu⟩, rfl⟩
    exact ⟨hpos, ⟨k, hk, rfl⟩, fun h => hu (LoadedConstant.kind_eq_unusable_iff.1 h)⟩
  · rintro ⟨hpos, ⟨k, hk, rfl⟩, hu⟩
    exact ⟨k, ⟨hpos, hk, fun h => hu (LoadedConstant.kind_eq_unusable_iff.2 h)⟩, rfl⟩

/-! ### Preparation -/

/-- A static field of the type may have a constant of the kind: a number or a string takes its own
kind, and what takes no constant takes any. -/
def Suits (kind : ConstantKind) : FieldType → Prop
  | .array _ => True
  | .object name => name = stringName → kind = .string
  | .primitive p => kind = expectedKind (.primitive p)

theorem constantValue?_isOk_iff (index : UInt16) {type : FieldType} {k : LoadedConstant} :
    (∃ value, constantValue? type index k = .ok value) ↔ Suits k.kind type := by
  cases type with
  | array e => exact ⟨fun _ => trivial, fun _ => ⟨none, rfl⟩⟩
  | object name =>
    by_cases hname : name = stringName
    · subst hname
      cases k <;> simp [constantValue?, Suits, LoadedConstant.kind]
    · simp [constantValue?, Suits, hname]
  | primitive p =>
    cases p <;> cases k <;> simp [constantValue?, Suits, expectedKind, LoadedConstant.kind]

theorem preparedValue?_isOk_iff {field : LoadedField} :
    (∃ value, c.preparedValue? field = .ok value) ↔
      (field.isStatic → Access.isFinal field.flags → ∀ index, field.constantIndex = some index →
        ∃ k, c.constant index = .ok k ∧ Suits k.kind field.type) := by
  unfold preparedValue?
  cases hindex : field.constantIndex with
  | none => simp
  | some index =>
    by_cases hfinal : (field.isStatic && Access.isFinal field.flags) = true
    · simp only [hfinal, if_true, bind_eq_ok_iff]
      simp only [Bool.and_eq_true] at hfinal
      simp only [hfinal.1, hfinal.2, Option.some.injEq, forall_eq', true_imp_iff]
      constructor
      · rintro ⟨value, k, hk, hvalue⟩
        exact ⟨k, hk, (constantValue?_isOk_iff index).1 ⟨value, hvalue⟩⟩
      · rintro ⟨k, hk, hsuits⟩
        obtain ⟨value, hvalue⟩ := (constantValue?_isOk_iff index).2 hsuits
        exact ⟨value, k, hk, hvalue⟩
    · simp only [hfinal, Bool.false_eq_true, if_false]
      simp only [Bool.and_eq_true, not_and] at hfinal
      exact ⟨fun _ hs hf => absurd hf (hfinal hs), fun _ => ⟨none, rfl⟩⟩

theorem fillStatics_isOk_iff {fields : List LoadedField} (statics : Array Value) :
    (∃ filled, c.fillStatics fields statics = .ok filled) ↔
      ∀ field ∈ fields, ∃ value, c.preparedValue? field = .ok value := by
  induction fields generalizing statics with
  | nil => exact ⟨nofun, fun _ => ⟨statics, rfl⟩⟩
  | cons field rest ih =>
    simp only [fillStatics_cons, bind_eq_ok_iff, List.forall_mem_cons]
    constructor
    · rintro ⟨filled, prepared, hv, h⟩
      exact ⟨⟨prepared, hv⟩, (ih _).1 ⟨filled, h⟩⟩
    · rintro ⟨⟨prepared, hv⟩, hrest⟩
      obtain ⟨filled, h⟩ := (ih (field.put statics prepared)).2 hrest
      exact ⟨filled, prepared, hv, h⟩

theorem prepare_isOk_iff :
    (∃ d, c.prepare config = .ok d) ↔
      (config.constantStatics →
        ∀ field ∈ c.fields, ∃ value, c.preparedValue? field = .ok value) := by
  rw [← fillStatics_isOk_iff c.statics]
  unfold prepare
  cases config.constantStatics with
  | true =>
    simp only [if_true, true_imp_iff]
    cases c.fillStatics c.fields c.statics with
    | error e => simp
    | ok statics => simp
  | false => simp

/-! ### Resolution -/

theorem resolveConstant_isOk_iff {k : LoadedConstant} :
    (∃ k', c.resolveConstant classes k = .ok k') ↔
      ∀ member link, k = .fieldRef c.name member link →
        ∃ type, FieldType.ofDescriptor member.descriptor = .ok type := by
  cases k with
  | fieldRef owner member link =>
    by_cases howner : owner = c.name
    · simp only [resolveConstant, howner, if_true, bind_eq_ok_iff]
      constructor
      · rintro ⟨k', type, htype, -⟩ m l heq
        cases heq
        exact ⟨type, htype⟩
      · intro h
        obtain ⟨type, htype⟩ := h member link rfl
        exact ⟨_, type, htype, rfl⟩
    · simp only [resolveConstant, howner, if_false]
      exact ⟨fun _ m l heq => absurd (by cases heq; rfl) howner, fun _ => ⟨_, rfl⟩⟩
  | _ => exact ⟨fun _ => nofun, fun _ => ⟨_, rfl⟩⟩

theorem resolve_isOk_iff :
    (∃ d, c.resolve classes = .ok d) ↔
      ∀ k ∈ c.constants, ∀ member link, k = .fieldRef c.name member link →
        ∃ type, FieldType.ofDescriptor member.descriptor = .ok type := by
  have hmap := mapM_isOk_iff (f := c.resolveConstant classes) (l := c.constants.toList)
  simp only [Array.mem_toList_iff, resolveConstant_isOk_iff] at hmap
  rw [← hmap]
  unfold resolve
  cases c.constants.toList.mapM (c.resolveConstant classes) with
  | error e => simp
  | ok constants => simp

end LoadedClass

/-! ### Verification -/

/-- The class file of a name declares an interface. -/
def ClassSearch.HasInterface (search : ClassSearch) (name : String) : Prop :=
  ∃ file superName interfaceNames,
    Blueprint.ofName search name = .ok (.ordinary file superName interfaceNames) ∧
      Access.isInterface file.flags

/-- The class at a place is an interface exactly if the class file of the name declares one. -/
def ClassTable.Stands (search : ClassSearch) (classes : ClassTable) (name : String)
    (id : ClassId) : Prop :=
  ∃ c, classes[id]? = some c ∧ (c.isInterface ↔ search.HasInterface name)

namespace LoadedClass

variable {config : LoaderConfig} {search : ClassSearch} {classes : ClassTable} {c : LoadedClass}
  {superName : Option String} {interfaceNames : List String}

theorem interfaceFault?_eq_none_iff
    (h : List.Forall₂ (classes.Stands search) interfaceNames c.interfaces) :
    verificationFault?.interfaceFault? classes c = none ↔
      ∀ other ∈ interfaceNames, search.HasInterface other := by
  unfold verificationFault?.interfaceFault?
  rw [Option.map_eq_none_iff, List.find?_eq_none]
  generalize c.interfaces = ids at h
  induction h with
  | nil => simp
  | cons hstands _ ih =>
    obtain ⟨d, hd, hiff⟩ := hstands
    rw [List.filterMap_cons, hd, List.forall_mem_cons, List.forall_mem_cons, ih]
    simp [hiff]

theorem verificationFault?_eq_none_iff
    (hs : List.Forall₂ (classes.Stands search) superName.toList c.superClass.toList)
    (hi : List.Forall₂ (classes.Stands search) interfaceNames c.interfaces) :
    c.verificationFault? config classes = none ↔
      (config.leastMajor ≤ c.major ∧ c.major ≤ config.greatestMajor) ∧
        (∀ parent, superName = some parent → ¬search.HasInterface parent) ∧
        (superName = none → c.isInterface ∨ c.name = objectName) ∧
        ∀ other ∈ interfaceNames, search.HasInterface other := by
  rw [← interfaceFault?_eq_none_iff hi]
  unfold verificationFault?
  by_cases hversion : c.major < config.leastMajor ∨ config.greatestMajor < c.major
  · rw [if_pos hversion]
    refine ⟨nofun, fun h => absurd hversion ?_⟩
    rw [not_or, UInt16.not_lt, UInt16.not_lt]
    exact h.1
  · rw [if_neg hversion]
    rw [not_or, UInt16.not_lt, UInt16.not_lt] at hversion
    cases hsuper : c.superClass with
    | none =>
      rw [hsuper] at hs
      cases superName with
      | some parent => cases hs
      | none =>
        by_cases hroot : c.isInterface ∨ c.name = objectName
        · have hcond : (!c.isInterface && c.name != objectName) = false := by
            rcases hroot with h | h <;> simp [h]
          simp [hcond, hversion, hroot]
        · have hcond : (!c.isInterface && c.name != objectName) = true := by
            simpa [not_or] using hroot
          simp [hcond, hroot]
    | some id =>
      rw [hsuper] at hs
      cases superName with
      | none => cases hs
      | some parent =>
        cases hs with
        | cons hstands _ =>
        obtain ⟨d, hd, hiff⟩ := hstands
        by_cases hd' : d.isInterface
        · simp [hd, hd', hiff.1 hd']
        · simp [hd, hd', mt hiff.2 hd', hversion]

end LoadedClass

/-! ### Class files that pass -/

/-- All that is asked of a class file beyond its format before it becomes the class of a name. -/
structure ClassFile.Passes (config : LoaderConfig) (search : ClassSearch) (name : String)
    (superName : Option String) (interfaceNames : List String) (file : ClassFile) : Prop where
  fields : ∀ m ∈ file.fields, ∃ d, file.pool.decodeField name m = .ok d
  methods : ∀ m ∈ file.methods, ∃ method, file.pool.decodeMethod name m = .ok method
  version : config.leastMajor ≤ file.major ∧ file.major ≤ config.greatestMajor
  superClass : ∀ parent, superName = some parent → ¬search.HasInterface parent
  /-- Only an interface and the root of all classes do without a super class. -/
  root : superName = none → Access.isInterface file.flags ∨ name = objectName
  interfaces : ∀ other ∈ interfaceNames, search.HasInterface other
  constants : config.constantStatics → ∀ m ∈ file.fields, ∀ d,
    file.pool.decodeField name m = .ok d → d.isStatic → Access.isFinal d.flags →
      ∀ index, d.constantIndex = some index →
        ∃ k, file.pool.get index = .ok k ∧ LoadedClass.Suits k.kind d.type
  references : ∀ owner member, Constant.fieldRef owner member ∈ file.pool.slots →
    file.pool.className owner = .ok name → ∀ texts, file.pool.nameAndType member = .ok texts →
      ∃ type, FieldType.ofDescriptor texts.2 = .ok type

namespace FieldDeclaration

theorem forall_mem_layout {P : LoadedField → Prop} (instanceSlot staticSlot : Nat)
    (declarations : List FieldDeclaration)
    (hP : ∀ (d : FieldDeclaration) slot, P (d.atSlot slot) ↔ P (d.atSlot 0)) :
    (∀ field ∈ layout instanceSlot staticSlot declarations, P field) ↔
      ∀ d ∈ declarations, P (d.atSlot 0) := by
  induction declarations generalizing instanceSlot staticSlot with
  | nil => simp [layout]
  | cons first rest ih =>
    unfold layout
    split
    · rw [List.forall_mem_cons, List.forall_mem_cons, hP, ih]
    · rw [List.forall_mem_cons, List.forall_mem_cons, hP, ih]

end FieldDeclaration

theorem LoadedConstant.ofConstant_eq_fieldRef_iff {pool : ConstantPool} {raw : Constant}
    {owner : String} {member : NameAndType} {link : Option FieldLink} :
    ofConstant pool raw = .ok (.fieldRef owner member link) ↔
      ∃ o m texts, raw = .fieldRef o m ∧ pool.className o = .ok owner ∧
        pool.nameAndType m = .ok texts ∧ member = ⟨texts.1, texts.2⟩ ∧ link = none := by
  constructor
  · intro h
    have hkind := kind_ofConstant h
    cases raw <;> cases hkind
    next o m =>
    obtain ⟨name, hname, h⟩ := bind_eq_ok_iff.1 h
    obtain ⟨_, hmember, h⟩ := bind_eq_ok_iff.1 h
    obtain ⟨texts, htexts, hmember⟩ := bind_eq_ok_iff.1 hmember
    cases hmember
    cases h
    exact ⟨o, m, texts, rfl, hname, htexts, rfl, rfl⟩
  · rintro ⟨o, m, texts, rfl, howner, htexts, rfl, rfl⟩
    rw [ofConstant, memberOf, howner, htexts]
    rfl

namespace Blueprint

variable {config : LoaderConfig} {search : ClassSearch} {classes : ClassTable} {name : String}
  {file : ClassFile} {superName : Option String} {interfaceNames : List String}
  {superClass : Option ClassId} {interfaces : List ClassId} {c : LoadedClass}

/-- The class has the constants of the pool, linked or not. -/
def HasPool (pool : ConstantPool) (c : LoadedClass) : Prop :=
  ∃ constants, LoadedConstant.ofPool pool = .ok constants ∧
    c.constants.toList.map (·.unlinked) = constants.map (·.unlinked)

theorem HasPool.map_kind {pool : ConstantPool} (h : HasPool pool c) :
    c.constants.toList.map (·.kind) = pool.slots.map (·.kind) := by
  obtain ⟨constants, hpool, heq⟩ := h
  rw [← LoadedConstant.map_kind_ofPool hpool]
  have := congrArg (List.map (·.kind)) heq
  simpa [Function.comp_def, LoadedConstant.kind_unlinked] using this

theorem HasPool.constant_iff {pool : ConstantPool} (h : HasPool pool c) {index : UInt16}
    {type : FieldType} :
    (∃ k, c.constant index = .ok k ∧ LoadedClass.Suits k.kind type) ↔
      ∃ k, pool.get index = .ok k ∧ LoadedClass.Suits k.kind type := by
  have hkind : ∀ kind, (∃ k, c.constant index = .ok k ∧ k.kind = kind) ↔
      ∃ k, pool.get index = .ok k ∧ k.kind = kind := fun kind => by
    rw [LoadedClass.constant_kind_iff, ConstantPool.get_kind_iff, h.map_kind]
  constructor
  · rintro ⟨k, hk, hsuits⟩
    obtain ⟨k', hk', heq⟩ := (hkind k.kind).1 ⟨k, hk, rfl⟩
    exact ⟨k', hk', heq ▸ hsuits⟩
  · rintro ⟨k, hk, hsuits⟩
    obtain ⟨k', hk', heq⟩ := (hkind k.kind).2 ⟨k, hk, rfl⟩
    exact ⟨k', hk', heq ▸ hsuits⟩

/-- The field references of a class are those of its pool. -/
theorem HasPool.mem_fieldRef_iff {pool : ConstantPool} (h : HasPool pool c) {owner : String}
    {member : NameAndType} {link : Option FieldLink} :
    LoadedConstant.fieldRef owner member link ∈ c.constants ↔
      ∃ raw ∈ pool.slots,
        LoadedConstant.ofConstant pool raw = .ok (.fieldRef owner member link) := by
  obtain ⟨constants, hpool, heq⟩ := h
  have hmem : ∀ l : List LoadedConstant, LoadedConstant.fieldRef owner member link ∈ l ↔
      LoadedConstant.fieldRef owner member link ∈ l.map (·.unlinked) := by
    intro l
    rw [List.mem_map]
    constructor
    · exact fun hl => ⟨_, hl, rfl⟩
    · rintro ⟨k, hk, hunlinked⟩
      cases k <;> cases hunlinked
      exact hk
  rw [← Array.mem_toList_iff, hmem, heq, ← hmem]
  have hall : List.Forall₂ (fun raw constant => LoadedConstant.ofConstant pool raw = .ok constant)
      pool.slots constants := forall₂_of_mapM hpool
  constructor
  · exact fun hk => exists_of_mem_forall₂ hall hk
  · rintro ⟨raw, hraw, hk⟩
    obtain ⟨k, hkmem, hk'⟩ := exists_of_mem_forall₂ hall.flip hraw
    rw [hk] at hk'
    cases hk'
    exact hkmem

theorem declaredClass_isOk_iff (hc : file.pool.Closed) :
    (∃ c, declaredClass classes name file superClass interfaces = .ok c) ↔
      (∀ m ∈ file.fields, ∃ d, file.pool.decodeField name m = .ok d) ∧
        ∀ m ∈ file.methods, ∃ method, file.pool.decodeMethod name m = .ok method := by
  rw [← mapM_isOk_iff, ← mapM_isOk_iff]
  constructor
  · rintro ⟨c, h⟩
    obtain ⟨-, declarations, methods, -, hfields, hmethods, -⟩ := declaredClass_eq_ok h
    exact ⟨⟨declarations, hfields⟩, methods, hmethods⟩
  · rintro ⟨⟨declarations, hfields⟩, methods, hmethods⟩
    obtain ⟨constants, hconstants⟩ := LoadedConstant.ofPool_isOk hc
    refine ⟨_, bind_eq_ok_iff.2 ⟨constants, by rw [hconstants]; rfl, bind_eq_ok_iff.2
      ⟨declarations, hfields, bind_eq_ok_iff.2 ⟨methods, hmethods, rfl⟩⟩⟩⟩

variable {declared prepared : LoadedClass}

theorem hasPool_of_declared
    (h : declaredClass classes name file superClass interfaces = .ok declared) :
    HasPool file.pool declared ∧ declared.name = name := by
  obtain ⟨constants, declarations, methods, hconstants, -, -, hfixed⟩ := declaredClass_eq_ok h
  refine ⟨⟨constants, hconstants, ?_⟩, congrArg (·.name) hfixed⟩
  have := congrArg (fun c => c.constants.toList) hfixed
  simpa [LoadedClass.fixed] using this

theorem hasPool_of_prepared (h : (declared.advance .verified).prepare config = .ok prepared)
    (hpool : HasPool file.pool declared) :
    HasPool file.pool prepared ∧ prepared.name = declared.name := by
  obtain ⟨statics, -, rfl⟩ := LoadedClass.prepare_eq_ok h
  exact ⟨hpool, rfl⟩

theorem verifiable_iff
    (h : declaredClass classes name file superClass interfaces = .ok declared)
    (hs : List.Forall₂ (classes.Stands search) superName.toList superClass.toList)
    (hi : List.Forall₂ (classes.Stands search) interfaceNames interfaces) :
    declared.verificationFault? config classes = none ↔
      (config.leastMajor ≤ file.major ∧ file.major ≤ config.greatestMajor) ∧
        (∀ parent, superName = some parent → ¬search.HasInterface parent) ∧
        (superName = none → Access.isInterface file.flags ∨ name = objectName) ∧
        ∀ other ∈ interfaceNames, search.HasInterface other := by
  obtain ⟨constants, declarations, methods, -, -, -, hfixed⟩ := declaredClass_eq_ok h
  have hname : declared.name = name := congrArg (·.name) hfixed
  have hflags : declared.flags = file.flags := congrArg (·.flags) hfixed
  have hmajor : declared.major = file.major := congrArg (·.major) hfixed
  have hsuper : declared.superClass = superClass := congrArg (·.superClass) hfixed
  have hinterfaces : declared.interfaces = interfaces := congrArg (·.interfaces) hfixed
  rw [LoadedClass.verificationFault?_eq_none_iff (hsuper ▸ hs) (hinterfaces ▸ hi),
    LoadedClass.isInterface, hname, hflags, hmajor]

/-- The constants of a declared class suit its fields exactly if those of its file do. -/
theorem preparable_iff
    (h : declaredClass classes name file superClass interfaces = .ok declared) :
    (∃ prepared, (declared.advance .verified).prepare config = .ok prepared) ↔
      (config.constantStatics → ∀ m ∈ file.fields, ∀ d, file.pool.decodeField name m = .ok d →
        d.isStatic → Access.isFinal d.flags → ∀ index, d.constantIndex = some index →
          ∃ k, file.pool.get index = .ok k ∧ LoadedClass.Suits k.kind d.type) := by
  obtain ⟨constants, declarations, methods, -, hdecode, -, hfixed⟩ := declaredClass_eq_ok h
  have hpool : HasPool file.pool (declared.advance .verified) := (hasPool_of_declared h).1
  have hlaid : (declared.advance .verified).fields =
      FieldDeclaration.layout (classes.inheritedSlots superClass) 0 declarations :=
    congrArg (·.fields) hfixed
  rw [LoadedClass.prepare_isOk_iff, hlaid,
    FieldDeclaration.forall_mem_layout _ _ _ fun d slot => Iff.rfl]
  simp only [LoadedClass.preparedValue?_isOk_iff, hpool.constant_iff]
  have hall := forall₂_of_mapM hdecode
  constructor
  · intro h hconfig m hm d hd
    obtain ⟨d', hmem, hd'⟩ := exists_of_mem_forall₂ hall.flip hm
    rw [hd] at hd'
    cases hd'
    exact h hconfig d hmem
  · intro h hconfig d hd
    obtain ⟨m, hm, hmd⟩ := exists_of_mem_forall₂ hall hd
    exact h hconfig m hm d hmd

theorem resolvable_iff (hpool : HasPool file.pool c) (hname : c.name = name) :
    (∃ d, c.resolve classes = .ok d) ↔
      ∀ owner member, Constant.fieldRef owner member ∈ file.pool.slots →
        file.pool.className owner = .ok name → ∀ texts,
          file.pool.nameAndType member = .ok texts →
            ∃ type, FieldType.ofDescriptor texts.2 = .ok type := by
  rw [LoadedClass.resolve_isOk_iff]
  constructor
  · intro h owner member hmem howner texts htexts
    refine h _ (hpool.mem_fieldRef_iff.2 ⟨_, hmem, ?_⟩) ⟨texts.1, texts.2⟩ none rfl
    exact LoadedConstant.ofConstant_eq_fieldRef_iff.2
      ⟨owner, member, texts, rfl, hname ▸ howner, htexts, rfl, rfl⟩
  · rintro h k hk member link rfl
    obtain ⟨raw, hraw, hconstant⟩ := hpool.mem_fieldRef_iff.1 hk
    obtain ⟨o, m, texts, rfl, howner, htexts, rfl, rfl⟩ :=
      LoadedConstant.ofConstant_eq_fieldRef_iff.1 hconstant
    exact h o m hraw (hname ▸ howner) texts htexts

theorem buildOrdinary_isOk_iff (hc : file.pool.Closed)
    (hs : List.Forall₂ (classes.Stands search) superName.toList superClass.toList)
    (hi : List.Forall₂ (classes.Stands search) interfaceNames interfaces) :
    (∃ c, buildOrdinary config classes name file superClass interfaces = .ok c) ↔
      file.Passes config search name superName interfaceNames := by
  constructor
  · rintro ⟨c, h⟩
    obtain ⟨declared, prepared, hdeclared, hverify, hprepare, hresolve⟩ := buildOrdinary_eq_ok h
    obtain ⟨hpool, hname⟩ := hasPool_of_declared hdeclared
    obtain ⟨hpool', hname'⟩ := hasPool_of_prepared hprepare hpool
    obtain ⟨hfields, hmethods⟩ := (declaredClass_isOk_iff hc).1 ⟨declared, hdeclared⟩
    obtain ⟨hversion, hparent, hroot, hothers⟩ := (verifiable_iff hdeclared hs hi).1 hverify
    exact ⟨hfields, hmethods, hversion, hparent, hroot, hothers,
      (preparable_iff hdeclared).1 ⟨prepared, hprepare⟩,
      (resolvable_iff hpool' (hname'.trans hname)).1 ⟨c, hresolve⟩⟩
  · intro h
    obtain ⟨declared, hdeclared⟩ := (declaredClass_isOk_iff hc).2 ⟨h.fields, h.methods⟩
    have hverify := (verifiable_iff hdeclared hs hi).2
      ⟨h.version, h.superClass, h.root, h.interfaces⟩
    obtain ⟨prepared, hprepare⟩ := (preparable_iff hdeclared).2 h.constants
    obtain ⟨hpool, hname⟩ := hasPool_of_declared hdeclared
    obtain ⟨hpool', hname'⟩ := hasPool_of_prepared hprepare hpool
    obtain ⟨c, hresolve⟩ := (resolvable_iff hpool' (hname'.trans hname)).2 h.references
    refine ⟨c, bind_eq_ok_iff.2 ⟨declared, hdeclared, bind_eq_ok_iff.2 ⟨_, ?_, bind_eq_ok_iff.2
      ⟨prepared, hprepare, hresolve⟩⟩⟩⟩
    rw [LoadedClass.verify, hverify]

end Blueprint

end ClassLoading
