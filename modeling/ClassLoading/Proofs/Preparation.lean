import ClassLoading.Proofs.FieldLayout
import ClassLoading.Proofs.RuntimePool

/-! What preparation makes of the static fields of a class. Each of them has a cell of its own, and
the cell starts with the zero of the field's type. Where constants are used, the cell of a final
field that can have a constant gets its constant instead, and the first field whose constant cannot
be used, in the order of declaration, ends the preparation. -/
namespace ClassLoading

/-- The value that a constant of the pool gives to a field. -/
inductive ConstantPool.Denotes (pool : ConstantPool) : Constant → Value → Prop
  | integer (value : Int32) : Denotes pool (.integer value) (.int value)
  | float (bits : UInt32) : Denotes pool (.float bits) (.float bits)
  | long (value : Int64) : Denotes pool (.long value) (.long value)
  | double (bits : UInt64) : Denotes pool (.double bits) (.double bits)
  | string {index : UInt16} {text : String} (h : pool.utf8 index = .ok text) :
      Denotes pool (.string index) (.string text)

/-- Numbers and strings have constants, other objects and arrays have none. -/
def FieldType.takesConstant : FieldType → Bool
  | .primitive _ => true
  | .object name => name == stringName
  | .array _ => false

namespace LoadedField

/-- A static final field has a `ConstantValue`. -/
def HasConstant (field : LoadedField) (index : UInt16) : Prop :=
  field.isStatic ∧ Access.isFinal field.flags ∧ field.constantIndex = some index

/-- The field's constant, if it has one, is there and of a kind for its type. -/
def Fits (pool : ConstantPool) (field : LoadedField) : Prop :=
  ∀ index, field.HasConstant index →
    ∃ k, pool.get index = .ok k ∧ LoadedClass.Suits k.kind field.type

/-- What is wrong with the constant of a field. -/
inductive Offends (pool : ConstantPool) (field : LoadedField) : PoolError → Prop
  | missing {index : UInt16} {cause : PoolError} (h : field.HasConstant index)
      (hk : pool.get index = .error cause) : Offends pool field cause
  | unfit {index : UInt16} {k : Constant} (h : field.HasConstant index)
      (hk : pool.get index = .ok k) (hs : ¬LoadedClass.Suits k.kind field.type) :
      Offends pool field (.mismatch index (LoadedClass.expectedKind field.type) k.kind)

/-- The value that the cell of a static field starts with. -/
inductive StartsWith (constants : Bool) (pool : ConstantPool) (field : LoadedField) : Value → Prop
  | constant {index : UInt16} {k : Constant} {value : Value} (used : constants)
      (h : field.HasConstant index) (ht : field.type.takesConstant) (hk : pool.get index = .ok k)
      (hkind : k.kind = LoadedClass.expectedKind field.type) (hv : pool.Denotes k value) :
      StartsWith constants pool field value
  | zero (h : ¬(constants ∧ field.type.takesConstant ∧ ∃ index, field.HasConstant index)) :
      StartsWith constants pool field (.zero field.type)

theorem Offends.not_fits {pool : ConstantPool} {field : LoadedField} {cause : PoolError}
    (h : field.Offends pool cause) : ¬field.Fits pool := by
  intro hfits
  cases h with
  | missing h hk =>
    obtain ⟨k, hk', -⟩ := hfits _ h
    rw [hk] at hk'
    cases hk'
  | unfit h hk hs =>
    obtain ⟨k, hk', hsuits⟩ := hfits _ h
    rw [hk] at hk'
    cases hk'
    exact hs hsuits

theorem getElem?_put (field : LoadedField) (statics : Array Value) (prepared : Option Value)
    (i : Nat) :
    (field.put statics prepared)[i]? =
      if field.slot = i then statics[i]?.map prepared.getD else statics[i]? := by
  cases prepared with
  | none =>
    have hsame : statics[i]?.map none.getD = statics[i]? := by cases statics[i]? <;> rfl
    rw [hsame, ite_self]
    rfl
  | some value =>
    simp only [put, Array.getElem?_setIfInBounds]
    by_cases hi : field.slot = i
    · subst hi
      by_cases hlt : field.slot < statics.size <;> simp [hlt]
    · rw [if_neg hi, if_neg hi]

end LoadedField

/-- The cells of a class before anything is stored in them. -/
structure LoadedClass.StartsOut (constants : Bool) (pool : ConstantPool) (c : LoadedClass) :
    Prop where
  /-- Every cell belongs to one static field, and in the order of the fields. -/
  cells : (c.fields.filter (·.isStatic)).map (·.slot) = List.range c.statics.size
  values : ∀ field ∈ c.fields, field.isStatic →
    ∃ value, c.statics[field.slot]? = some value ∧ field.StartsWith constants pool value

/-- What becomes of a class that is prepared. -/
structure LoadedClass.Prepares (config : LoaderConfig) (pool : ConstantPool) (c : LoadedClass) :
    Prop where
  accepts : config.constantStatics →
    ((∃ d, c.prepare config = .ok d) ↔ ∀ field ∈ c.fields, field.Fits pool)
  /-- The first field that offends is the one that is reported. -/
  rejects : ∀ e, c.prepare config = .error e →
    config.constantStatics ∧ ∃ before field after cause, c.fields = before ++ field :: after ∧
      (∀ earlier ∈ before, earlier.Fits pool) ∧ field.Offends pool cause ∧
      e = .badConstant c.name cause
  unchecked : config.constantStatics = false → ∃ d, c.prepare config = .ok d
  starts : ∀ d, c.prepare config = .ok d →
    d.fields = c.fields ∧ d.StartsOut config.constantStatics pool

/-! ### One field -/

namespace LoadedClass

variable {pool : ConstantPool} {raw : Constant} {k : LoadedConstant} {type : FieldType}
  {index : UInt16} {value : Value} {cause : PoolError} {c : LoadedClass} {field : LoadedField}

theorem denotes_of_constantValue? (h : raw.MirroredBy pool k)
    (hv : constantValue? type index k = .ok (some value)) :
    type.takesConstant ∧ raw.kind = expectedKind type ∧ pool.Denotes raw value := by
  cases type with
  | array e => cases hv
  | object name =>
    by_cases hname : name = stringName
    · subst hname
      cases h <;> cases hv
      next htext => exact ⟨rfl, rfl, .string htext⟩
    · simp [constantValue?, hname] at hv
  | primitive p =>
    refine ⟨rfl, ?_⟩
    cases p <;> cases h <;> cases hv <;> exact ⟨rfl, by constructor⟩

theorem takesConstant_of_constantValue? (hv : constantValue? type index k = .ok none) :
    type.takesConstant = false := by
  cases type with
  | array e => rfl
  | object name =>
    by_cases hname : name = stringName
    · subst hname
      cases k <;> cases hv
    · simpa [FieldType.takesConstant] using hname
  | primitive p => cases p <;> cases k <;> cases hv

theorem constantValue?_eq_error (hv : constantValue? type index k = .error cause) :
    ¬Suits k.kind type ∧ cause = .mismatch index (expectedKind type) k.kind := by
  constructor
  · intro hsuits
    obtain ⟨value, hvalue⟩ := (constantValue?_isOk_iff index).2 hsuits
    rw [hv] at hvalue
    cases hvalue
  · cases type with
    | array e => cases hv
    | object name =>
      by_cases hname : name = stringName
      · subst hname
        cases k <;> cases hv <;> rfl
      · simp [constantValue?, hname] at hv
    | primitive p => cases p <;> cases k <;> cases hv <;> rfl

theorem preparedValue?_of_hasConstant (h : field.HasConstant index) :
    c.preparedValue? field = c.constant index >>= constantValue? field.type index := by
  obtain ⟨hs, hf, hindex⟩ := h
  simp [preparedValue?, hs, hf, hindex]

theorem preparedValue?_of_not_hasConstant (h : ∀ index, ¬field.HasConstant index) :
    c.preparedValue? field = .ok none := by
  unfold preparedValue?
  split
  · next index hindex =>
    refine if_neg fun hflags => h index ?_
    rw [Bool.and_eq_true] at hflags
    exact ⟨hflags.1, hflags.2, hindex⟩
  · rfl

/-- Preparation of one field reads the constant that the class shows for one of the pool. -/
theorem Mirrors.preparedValue?_cases (h : c.Mirrors pool) (hindex : field.HasConstant index) :
    (∃ cause, pool.get index = .error cause ∧ c.preparedValue? field = .error cause) ∨
      ∃ raw k, pool.get index = .ok raw ∧ raw.MirroredBy pool k ∧
        c.preparedValue? field = constantValue? field.type index k := by
  rw [preparedValue?_of_hasConstant hindex]
  have hagree := h.agree index
  generalize hraw : pool.get index = x at hagree
  generalize c.constant index = y at hagree
  cases hagree with
  | error e => exact .inl ⟨e, rfl, rfl⟩
  | ok hk => exact .inr ⟨_, _, rfl, hk, rfl⟩

theorem Mirrors.offends (h : c.Mirrors pool) (he : c.preparedValue? field = .error cause) :
    field.Offends pool cause := by
  by_cases hindex : ∃ index, field.HasConstant index
  · obtain ⟨index, hindex⟩ := hindex
    obtain ⟨e, hget, heq⟩ | ⟨raw, k, hget, hk, heq⟩ := h.preparedValue?_cases hindex
    · rw [he] at heq
      cases heq
      exact .missing hindex hget
    · obtain ⟨hsuits, rfl⟩ := constantValue?_eq_error (heq ▸ he)
      rw [hk.kind_eq] at hsuits ⊢
      exact .unfit hindex hget hsuits
  · rw [preparedValue?_of_not_hasConstant fun index hi => hindex ⟨index, hi⟩] at he
    cases he

theorem Mirrors.startsWith (h : c.Mirrors pool) {prepared : Option Value}
    (hv : c.preparedValue? field = .ok prepared) :
    field.StartsWith true pool (prepared.getD (.zero field.type)) := by
  by_cases hindex : ∃ index, field.HasConstant index
  · obtain ⟨index, hindex⟩ := hindex
    obtain ⟨e, -, heq⟩ | ⟨raw, k, hget, hk, heq⟩ := h.preparedValue?_cases hindex
    · rw [hv] at heq
      cases heq
    · rw [hv] at heq
      cases prepared with
      | none =>
        have htype := takesConstant_of_constantValue? heq.symm
        exact .zero fun hused => by simp [htype] at hused
      | some value =>
        obtain ⟨htype, hkind, hdenotes⟩ := denotes_of_constantValue? hk heq.symm
        exact .constant rfl hindex htype hget hkind hdenotes
  · rw [preparedValue?_of_not_hasConstant fun index hi => hindex ⟨index, hi⟩] at hv
    cases hv
    exact .zero fun hused => hindex hused.2.2

theorem Mirrors.fits_iff (h : c.Mirrors pool) :
    (∃ prepared, c.preparedValue? field = .ok prepared) ↔ field.Fits pool := by
  constructor
  · rintro ⟨prepared, hv⟩ index hindex
    obtain ⟨e, -, heq⟩ | ⟨raw, k, hget, hk, heq⟩ := h.preparedValue?_cases hindex
    · rw [hv] at heq
      cases heq
    · refine ⟨raw, hget, ?_⟩
      rw [← hk.kind_eq]
      exact (constantValue?_isOk_iff index).1 ⟨prepared, heq.symm.trans hv⟩
  · intro hfits
    cases hv : c.preparedValue? field with
    | ok prepared => exact ⟨prepared, rfl⟩
    | error cause => exact absurd hfits (h.offends hv).not_fits

/-! ### All fields in turn -/

variable {fields : List LoadedField} {statics filled : Array Value}

theorem fillStatics_eq_error (h : c.fillStatics fields statics = .error cause) :
    ∃ before field after, fields = before ++ field :: after ∧
      (∀ earlier ∈ before, ∃ prepared, c.preparedValue? earlier = .ok prepared) ∧
      c.preparedValue? field = .error cause := by
  induction fields generalizing statics with
  | nil => cases h
  | cons first rest ih =>
    rw [fillStatics_cons] at h
    cases hv : c.preparedValue? first with
    | error e =>
      rw [hv] at h
      cases h
      exact ⟨[], first, rest, rfl, nofun, hv⟩
    | ok prepared =>
      rw [hv] at h
      obtain ⟨before, field, after, rfl, hbefore, he⟩ := ih h
      exact ⟨first :: before, field, after, rfl,
        List.forall_mem_cons.2 ⟨⟨prepared, hv⟩, hbefore⟩, he⟩

/-- A field leaves the cells of the other static fields alone. -/
theorem getElem?_put_of_ne {prepared : Option Value} {i : Nat}
    (hv : c.preparedValue? field = .ok prepared) (hi : field.isStatic → field.slot ≠ i) :
    (field.put statics prepared)[i]? = statics[i]? := by
  by_cases hs : field.isStatic
  · rw [LoadedField.getElem?_put, if_neg (hi hs)]
  · rw [preparedValue?_of_not_hasConstant fun index hindex => hs hindex.1] at hv
    cases hv
    rfl

theorem getElem?_fillStatics_of_ne (h : c.fillStatics fields statics = .ok filled) {i : Nat}
    (hi : ∀ field ∈ fields, field.isStatic → field.slot ≠ i) : filled[i]? = statics[i]? := by
  induction fields generalizing statics with
  | nil =>
    cases h
    rfl
  | cons first rest ih =>
    rw [fillStatics_cons] at h
    obtain ⟨prepared, hv, h⟩ := bind_eq_ok_iff.1 h
    rw [List.forall_mem_cons] at hi
    rw [ih h hi.2, getElem?_put_of_ne hv hi.1]

/-- With cells of their own, all static fields end up with what is prepared for them. -/
theorem getElem?_fillStatics (h : c.fillStatics fields statics = .ok filled)
    (hcells : ((fields.filter (·.isStatic)).map (·.slot)).Nodup) (hf : field ∈ fields)
    (hs : field.isStatic) :
    ∃ prepared, c.preparedValue? field = .ok prepared ∧
      filled[field.slot]? = statics[field.slot]?.map prepared.getD := by
  induction fields generalizing statics with
  | nil => cases hf
  | cons first rest ih =>
    rw [fillStatics_cons] at h
    obtain ⟨prepared, hv, h⟩ := bind_eq_ok_iff.1 h
    have hrest : ((rest.filter (·.isStatic)).map (·.slot)).Nodup :=
      hcells.sublist ((List.sublist_cons_self first rest).filter _ |>.map _)
    have hfirst : first.isStatic → ∀ other ∈ rest, other.isStatic → other.slot ≠ first.slot := by
      intro hs other ho hso heq
      rw [List.filter_cons_of_pos hs, List.map_cons, List.nodup_cons] at hcells
      exact hcells.1 (heq ▸ List.mem_map_of_mem (List.mem_filter.2 ⟨ho, hso⟩))
    rcases List.mem_cons.1 hf with rfl | hf
    · refine ⟨prepared, hv, ?_⟩
      rw [getElem?_fillStatics_of_ne h (hfirst hs), LoadedField.getElem?_put, if_pos rfl]
    · obtain ⟨own, hown, heq⟩ := ih h hrest hf
      refine ⟨own, hown, ?_⟩
      rw [heq, getElem?_put_of_ne hv fun hs' => (hfirst hs' field hf hs).symm]

/-! ### Preparation as a whole -/

/-- A class with the constants of a pool, and with zero in the cell of every static field. -/
structure Blank (pool : ConstantPool) (c : LoadedClass) : Prop where
  mirrors : c.Mirrors pool
  cells : (c.fields.filter (·.isStatic)).map (·.slot) = List.range c.statics.size
  zeros : ∀ field ∈ c.fields, field.isStatic → c.statics[field.slot]? = some (.zero field.type)

variable {config : LoaderConfig} {d : LoadedClass}

theorem Blank.advance (h : c.Blank pool) (stage : Stage) : (c.advance stage).Blank pool :=
  ⟨h.mirrors, h.cells, h.zeros⟩

theorem Blank.startsOut (h : c.Blank pool) (hp : c.prepare config = .ok d) :
    d.StartsOut config.constantStatics pool := by
  unfold prepare at hp
  cases hconfig : config.constantStatics with
  | false =>
    rw [hconfig] at hp
    cases hp
    refine ⟨h.cells, fun field hf hs => ⟨_, h.zeros field hf hs, .zero fun hused => ?_⟩⟩
    exact Bool.false_ne_true hused.1
  | true =>
    rw [hconfig, if_pos rfl] at hp
    split at hp
    · next filled hfill =>
      cases hp
      refine ⟨?_, fun field hf hs => ?_⟩
      · have hcells := h.cells
        rwa [← size_fillStatics hfill] at hcells
      · have hnodup : ((c.fields.filter (·.isStatic)).map (·.slot)).Nodup :=
          h.cells ▸ List.nodup_range
        obtain ⟨prepared, hv, heq⟩ := getElem?_fillStatics hfill hnodup hf hs
        rw [h.zeros field hf hs] at heq
        exact ⟨_, heq, h.mirrors.startsWith hv⟩
    · cases hp

theorem prepare_eq_error {e : LoadError} (h : c.prepare config = .error e) :
    config.constantStatics ∧
      ∃ cause, c.fillStatics c.fields c.statics = .error cause ∧ e = .badConstant c.name cause := by
  unfold prepare at h
  split at h
  · next hconfig =>
    split at h
    · cases h
    · next cause hfill =>
      cases h
      exact ⟨hconfig, cause, hfill, rfl⟩
  · cases h

theorem Blank.prepares (h : c.Blank pool) : c.Prepares config pool := by
  constructor
  case accepts =>
    intro hconfig
    rw [prepare_isOk_iff]
    simp only [h.mirrors.fits_iff, hconfig, true_imp_iff]
  case rejects =>
    intro e he
    obtain ⟨hconfig, cause, hfill, rfl⟩ := prepare_eq_error he
    obtain ⟨before, field, after, hfields, hbefore, hcause⟩ := fillStatics_eq_error hfill
    exact ⟨hconfig, before, field, after, cause, hfields,
      fun earlier hm => h.mirrors.fits_iff.1 (hbefore earlier hm), h.mirrors.offends hcause, rfl⟩
  case unchecked =>
    intro hconfig
    rw [prepare_isOk_iff, hconfig]
    exact nofun
  case starts =>
    intro d hd
    refine ⟨?_, h.startsOut hd⟩
    obtain ⟨statics, -, rfl⟩ := prepare_eq_ok hd
    rfl

end LoadedClass

/-! ### Classes from files -/

theorem LoadedClass.statics_link (c : LoadedClass) (index : UInt16) (target : ClassId) :
    (c.link index target).statics = c.statics := by
  unfold link
  split <;> rfl

namespace Blueprint

variable {config : LoaderConfig} {classes : ClassTable} {name : String} {file : ClassFile}
  {superClass : Option ClassId} {interfaces : List ClassId} {c declared verified : LoadedClass}

/-- A class is declared with zeros for its static values, one for each static field. -/
theorem statics_of_declared
    (h : declaredClass classes name file superClass interfaces = .ok declared) :
    ∃ declarations, file.fields.mapM (file.pool.decodeField name) = .ok declarations ∧
      declared.fields =
        FieldDeclaration.layout (classes.inheritedSlots superClass) 0 declarations ∧
      declared.statics =
        ((declarations.filter (·.isStatic)).map fun field => Value.zero field.type).toArray := by
  obtain ⟨constants, -, h⟩ := bind_eq_ok_iff.1 h
  obtain ⟨declarations, hdecode, h⟩ := bind_eq_ok_iff.1 h
  obtain ⟨methods, -, h⟩ := bind_eq_ok_iff.1 h
  cases h
  have hfields : ∀ (c : LoadedClass) (index : UInt16) (target : ClassId),
      (c.link index target).fields = c.fields := fun c index target =>
    congrArg (·.fields) (c.fixed_link index target)
  exact ⟨declarations, hdecode, linked_eq (f := LoadedClass.fields) hfields ..,
    linked_eq (f := LoadedClass.statics) LoadedClass.statics_link ..⟩

theorem blank_of_declared
    (h : declaredClass classes name file superClass interfaces = .ok declared) :
    declared.Blank file.pool := by
  obtain ⟨declarations, -, hfields, hstatics⟩ := statics_of_declared h
  have hcells : (declared.fields.filter (·.isStatic)).map (·.slot) =
      List.range declared.statics.size := by
    rw [hfields, hstatics, FieldDeclaration.map_slot_layout, List.range_eq_range']
    simp
  refine ⟨LoadedClass.mirrors_of_hasPool (hasPool_of_declared h).1, hcells, fun field hf hs => ?_⟩
  obtain ⟨i, hi⟩ := List.mem_iff_getElem?.1 (List.mem_filter.2 ⟨hf, hs⟩)
  -- the field at this place among the static ones has its cell at the same place
  rw [hfields, FieldDeclaration.filter_isStatic_layout, List.getElem?_map, List.getElem?_zipIdx,
    Option.map_map] at hi
  obtain ⟨declaration, hdeclaration, rfl⟩ := Option.map_eq_some_iff.1 hi
  show declared.statics[0 + i]? = some (.zero declaration.type)
  rw [hstatics, Nat.zero_add, List.getElem?_toArray, List.getElem?_map, hdeclaration]
  rfl

end Blueprint

end ClassLoading
