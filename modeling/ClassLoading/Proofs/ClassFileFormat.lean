import ClassLoading.Proofs.ConstantFormat
import ClassLoading.Proofs.PoolReferences

/-! The class file format as a predicate on class files, and the parser against it. A class file is
well formed when its counts and lengths fit their fields, the slots behind wide constants are the
unusable ones, and every index leads to a constant of the kind that its place calls for. Parsing
accepts exactly the encodings of well-formed class files and gives back the file that was encoded.
-/
namespace ClassLoading

open Reader (pure_eq_ok_iff offset_eq_ok_iff take_eq_ok_iff u8_eq_ok_iff u16_eq_ok_iff
  u32_eq_ok_iff u64_eq_ok_iff fail_ne_ok Reads)

/-! ### Tables -/

theorem Attribute.reads_read :
    Reads Attribute.read (fun a => a.payload.length < 2 ^ 32) Attribute.encode := by
  intro c c' a
  simp only [Attribute.read, Attribute.encode, Reader.bind_eq_ok_iff, u16_eq_ok_iff, u32_eq_ok_iff,
    take_eq_ok_iff, pure_eq_ok_iff, Cursor.spans_nil, Cursor.spans_append]
  constructor
  · rintro ⟨name, c₁, h₁, n, c₂, h₂, payload, c₃, ⟨hl, h₃⟩, rfl, rfl⟩
    have hn : payload.length.toUInt32 = n := by rw [hl]; simp
    refine ⟨?_, c₂, ⟨c₁, h₁, ?_⟩, h₃⟩
    · show payload.length < 2 ^ 32
      rw [hl]
      exact n.toNat_lt
    · show c₁.Spans (Bytes.u32 payload.length.toUInt32) c₂
      rw [hn]
      exact h₂
  · rintro ⟨hlt, c₂, ⟨c₁, h₁, h₂⟩, h₃⟩
    exact ⟨a.name, c₁, h₁, _, c₂, h₂, a.payload, c', ⟨(toNat_toUInt32 hlt).symm, h₃⟩, rfl, rfl⟩

/-- The attributes fit their table. -/
def AttributesFit (attributes : List Attribute) : Prop :=
  attributes.length < 2 ^ 16 ∧ ∀ a ∈ attributes, a.payload.length < 2 ^ 32

theorem Member.reads_read :
    Reads Member.read (fun m => AttributesFit m.attributes) Member.encode := by
  intro c c' m
  simp only [Member.read, Member.encode, Reader.bind_eq_ok_iff, u16_eq_ok_iff,
    Attribute.reads_read.table _ _ _, pure_eq_ok_iff, Cursor.spans_nil, Cursor.spans_append]
  constructor
  · rintro ⟨flags, c₁, h₁, name, c₂, h₂, descriptor, c₃, h₃, attributes, c₄, ⟨hf, h₄⟩, rfl, rfl⟩
    exact ⟨hf, c₃, ⟨c₂, ⟨c₁, h₁, h₂⟩, h₃⟩, h₄⟩
  · rintro ⟨hf, c₃, ⟨c₂, ⟨c₁, h₁, h₂⟩, h₃⟩, h₄⟩
    exact ⟨_, c₁, h₁, _, c₂, h₂, _, c₃, h₃, m.attributes, c', ⟨hf, h₄⟩, rfl, rfl⟩

/-! ### Method bodies -/

theorem ExceptionHandler.reads_read :
    Reads ExceptionHandler.read (fun _ => True) ExceptionHandler.encode := by
  intro c c' h
  simp only [ExceptionHandler.read, ExceptionHandler.encode, Reader.bind_eq_ok_iff, u16_eq_ok_iff,
    pure_eq_ok_iff, Cursor.spans_nil, Cursor.spans_append, true_and]
  constructor
  · rintro ⟨start, c₁, h₁, stop, c₂, h₂, handler, c₃, h₃, catchType, c₄, h₄, rfl, rfl⟩
    exact ⟨c₃, ⟨c₂, ⟨c₁, h₁, h₂⟩, h₃⟩, h₄⟩
  · rintro ⟨c₃, ⟨c₂, ⟨c₁, h₁, h₂⟩, h₃⟩, h₄⟩
    exact ⟨_, c₁, h₁, _, c₂, h₂, _, c₃, h₃, _, c', h₄, rfl, rfl⟩

/-- Every count and length of a method body fits its field. -/
structure Code.Fits (body : Code) : Prop where
  code : body.code.length < 2 ^ 32
  handlers : body.handlers.length < 2 ^ 16
  attributes : AttributesFit body.attributes

theorem Code.reads_read : Reads Code.read Code.Fits Code.encode := by
  intro c c' body
  simp only [Code.read, Code.encode, Reader.bind_eq_ok_iff, u16_eq_ok_iff, u32_eq_ok_iff,
    take_eq_ok_iff, ExceptionHandler.reads_read.table _ _ _, Attribute.reads_read.table _ _ _,
    pure_eq_ok_iff, Cursor.spans_nil, Cursor.spans_append]
  constructor
  · rintro ⟨maxStack, c₁, h₁, maxLocals, c₂, h₂, n, c₃, h₃, code, c₄, ⟨hl, h₄⟩, handlers, c₅,
      ⟨⟨hh, -⟩, h₅⟩, attributes, c₆, ⟨ha, h₆⟩, rfl, rfl⟩
    have hn : code.length.toUInt32 = n := by rw [hl]; simp
    refine ⟨⟨?_, hh, ha⟩, c₅, ⟨c₄, ⟨c₃, ⟨c₂, ⟨c₁, h₁, h₂⟩, ?_⟩, h₄⟩, h₅⟩, h₆⟩
    · show code.length < 2 ^ 32
      rw [hl]
      exact n.toNat_lt
    · show c₂.Spans (Bytes.u32 code.length.toUInt32) c₃
      rw [hn]
      exact h₃
  · rintro ⟨hf, c₅, ⟨c₄, ⟨c₃, ⟨c₂, ⟨c₁, h₁, h₂⟩, h₃⟩, h₄⟩, h₅⟩, h₆⟩
    exact ⟨_, c₁, h₁, _, c₂, h₂, _, c₃, h₃, _, c₄, ⟨(toNat_toUInt32 hf.code).symm, h₄⟩, _, c₅,
      ⟨⟨hf.handlers, fun _ _ => trivial⟩, h₅⟩, _, c', ⟨hf.attributes, h₆⟩, rfl, rfl⟩

/-- Whether attributes fit their table is decided by their payloads. -/
theorem attributesFit_congr {as bs : List Attribute}
    (h : as.map Attribute.payload = bs.map Attribute.payload) :
    AttributesFit as ↔ AttributesFit bs := by
  have hfit (cs : List Attribute) : AttributesFit cs ↔
      (cs.map Attribute.payload).length < 2 ^ 16 ∧
        ∀ payload ∈ cs.map Attribute.payload, payload.length < 2 ^ 32 := by
    simp [AttributesFit]
  rw [hfit, h, ← hfit]

/-- Reading the body of a method accepts exactly the encodings of the bodies that fit, and what the
attributes of a body are called plays no part in it. -/
theorem Code.parse_ok_iff_fits_encode (payload : List UInt8) (body : Code) :
    (Code.parse payload = .ok body ↔ body.Fits ∧ payload = body.encode) ∧
      ∀ attributes : List Attribute,
        attributes.map Attribute.payload = body.attributes.map Attribute.payload →
        (Code.parse { body with attributes }.encode = .ok { body with attributes } ↔
          body.Fits) := by
  have hparse (payload : List UInt8) (body : Code) :
      Code.parse payload = .ok body ↔ body.Fits ∧ payload = body.encode :=
    Code.reads_read.run_eq_ok_iff
  refine ⟨hparse payload body, fun attributes h => ?_⟩
  rw [hparse, and_iff_left rfl]
  constructor
  · intro hf
    exact ⟨hf.code, hf.handlers, (attributesFit_congr h).1 hf.attributes⟩
  · intro hf
    exact ⟨hf.code, hf.handlers, (attributesFit_congr h).2 hf.attributes⟩

/-- A body with a handler and an attribute. -/
def Code.guarded : Code where
  maxStack := 1
  maxLocals := 2
  code := [0x2A, 0xB1]
  handlers := [⟨0, 1, 1, 0⟩]
  attributes := [⟨9, [1, 2, 3]⟩]

theorem Code.guarded_reads_unnamed :
    Code.parse { Code.guarded with attributes := [⟨0, [1, 2, 3]⟩] }.encode =
      .ok { Code.guarded with attributes := [⟨0, [1, 2, 3]⟩] } := by
  have hparse : Code.parse Code.guarded.encode = .ok Code.guarded := by decide +kernel
  have hfits := ((Code.parse_ok_iff_fits_encode _ Code.guarded).1.1 hparse).1
  exact ((Code.parse_ok_iff_fits_encode [] Code.guarded).2 [⟨0, [1, 2, 3]⟩] rfl).2 hfits

/-! ### Class files -/

namespace ClassFile

/-- The encoding of a class file, with the count in front of its constants given apart. -/
def encodeCounted (count : UInt16) (file : ClassFile) : List UInt8 :=
  Bytes.u32 file.magic ++ Bytes.u16 file.minor ++ Bytes.u16 file.major ++
    (Bytes.u16 count ++ file.pool.slots.flatMap Constant.encode) ++ Bytes.u16 file.flags ++
    Bytes.u16 file.thisClass ++ Bytes.u16 file.superClass ++
    Bytes.table Bytes.u16 file.interfaces ++ Bytes.table Member.encode file.fields ++
    Bytes.table Member.encode file.methods ++ Bytes.table Attribute.encode file.attributes

/-- Every count and length of a class file fits its field, and the slots are spaced. -/
structure Fits (file : ClassFile) : Prop where
  magic : file.magic = magicNumber
  spaced : file.pool.Spaced
  writable : ConstantPool.Writable file.pool.slots
  interfaces : file.interfaces.length < 2 ^ 16
  fields : file.fields.length < 2 ^ 16 ∧ ∀ m ∈ file.fields, AttributesFit m.attributes
  methods : file.methods.length < 2 ^ 16 ∧ ∀ m ∈ file.methods, AttributesFit m.attributes
  attributes : AttributesFit file.attributes

theorem readMagic_eq_ok_iff {c c' : Cursor} {magic : UInt32} :
    readMagic c = .ok (magic, c') ↔ magic = magicNumber ∧ c.Spans (Bytes.u32 magic) c' := by
  simp only [readMagic, Reader.bind_eq_ok_iff, u32_eq_ok_iff]
  constructor
  · rintro ⟨n, c₁, h₁, h⟩
    by_cases hn : n = magicNumber
    · rw [if_pos hn, pure_eq_ok_iff, Cursor.spans_nil] at h
      obtain ⟨rfl, rfl⟩ := h
      exact ⟨hn, h₁⟩
    · rw [if_neg hn] at h
      exact absurd h fail_ne_ok
  · rintro ⟨rfl, h⟩
    exact ⟨_, c', h, by rw [if_pos rfl]; rfl⟩

theorem read_eq_ok_iff {c c' : Cursor} {file : ClassFile} :
    read c = .ok (file, c') ↔
      file.Fits ∧ ∃ n : UInt16, file.pool.slots.length = n.toNat - 1 ∧
        c.Spans (file.encodeCounted n) c' := by
  simp only [read, Reader.bind_eq_ok_iff, readMagic_eq_ok_iff, u16_eq_ok_iff,
    ConstantPool.read_eq_ok_iff, Reader.reads_u16.table _ _ _, Member.reads_read.table _ _ _,
    Attribute.reads_read.table _ _ _, pure_eq_ok_iff, Cursor.spans_nil]
  constructor
  · rintro ⟨magic, c₁, ⟨hmagic, h₁⟩, minor, c₂, h₂, major, c₃, h₃, pool, c₄,
      ⟨n, hn, hs, hw, h₄⟩, flags, c₅, h₅, this, c₆, h₆, super, c₇, h₇, interfaces, c₈,
      ⟨⟨hi, -⟩, h₈⟩, fields, c₉, ⟨hf, h₉⟩, methods, c₁₀, ⟨hm, h₁₀⟩, attributes, c₁₁, ⟨ha, h₁₁⟩,
      rfl, rfl⟩
    refine ⟨⟨hmagic, hs, hw, hi, hf, hm, ha⟩, n, hn, ?_⟩
    exact (((((((((h₁.append h₂).append h₃).append h₄).append h₅).append h₆).append h₇).append
      h₈).append h₉).append h₁₀).append h₁₁
  · rintro ⟨hfits, n, hn, h⟩
    rw [encodeCounted] at h
    obtain ⟨c₁₀, h, h₁₁⟩ := Cursor.spans_append.1 h
    obtain ⟨c₉, h, h₁₀⟩ := Cursor.spans_append.1 h
    obtain ⟨c₈, h, h₉⟩ := Cursor.spans_append.1 h
    obtain ⟨c₇, h, h₈⟩ := Cursor.spans_append.1 h
    obtain ⟨c₆, h, h₇⟩ := Cursor.spans_append.1 h
    obtain ⟨c₅, h, h₆⟩ := Cursor.spans_append.1 h
    obtain ⟨c₄, h, h₅⟩ := Cursor.spans_append.1 h
    obtain ⟨c₃, h, h₄⟩ := Cursor.spans_append.1 h
    obtain ⟨c₂, h, h₃⟩ := Cursor.spans_append.1 h
    obtain ⟨c₁, h₁, h₂⟩ := Cursor.spans_append.1 h
    exact ⟨_, c₁, ⟨hfits.magic, h₁⟩, _, c₂, h₂, _, c₃, h₃, _, c₄,
      ⟨n, hn, hfits.spaced, hfits.writable, h₄⟩, _, c₅, h₅, _, c₆, h₆, _, c₇, h₇, _, c₈,
      ⟨⟨hfits.interfaces, fun _ _ => trivial⟩, h₈⟩, _, c₉, ⟨hfits.fields, h₉⟩, _, c₁₀,
      ⟨hfits.methods, h₁₀⟩, _, c', ⟨hfits.attributes, h₁₁⟩, rfl, rfl⟩

/-- Every index of a class file leads to a constant of the kind its place calls for. -/
structure Indexed (file : ClassFile) : Prop where
  constants : file.pool.Closed
  thisClass : file.pool.Leads file.thisClass (some .classRef)
  superClass : file.superClass = 0 ∨ file.pool.Leads file.superClass (some .classRef)
  interfaces : ∀ i ∈ file.interfaces, file.pool.Leads i (some .classRef)
  members : ∀ m ∈ file.fields ++ file.methods,
    file.pool.Leads m.name (some .utf8) ∧ file.pool.Leads m.descriptor (some .utf8) ∧
      ∀ a ∈ m.attributes, file.pool.Leads a.name (some .utf8)
  attributes : ∀ a ∈ file.attributes, file.pool.Leads a.name (some .utf8)

/-- What the format asks of a class file. -/
structure WellFormed (file : ClassFile) : Prop where
  fits : file.Fits
  slots : file.pool.slots.length ≤ 65534
  indexed : file.Indexed

theorem checkAttributes_eq_ok_iff {pool : ConstantPool} {attributes : List Attribute} :
    checkAttributes pool attributes = .ok () ↔
      ∀ a ∈ attributes, pool.Leads a.name (some .utf8) := by
  simp only [checkAttributes, forM_eq_ok_iff, discard_eq_ok_iff, ConstantPool.leads_utf8_iff]

theorem checkMember_eq_ok_iff {pool : ConstantPool} {m : Member} :
    checkMember pool m = .ok () ↔
      pool.Leads m.name (some .utf8) ∧ pool.Leads m.descriptor (some .utf8) ∧
        ∀ a ∈ m.attributes, pool.Leads a.name (some .utf8) := by
  rw [← checkAttributes_eq_ok_iff, ConstantPool.leads_utf8_iff, ConstantPool.leads_utf8_iff,
    ← discard_eq_ok_iff, ← discard_eq_ok_iff, checkMember, then_eq_ok_iff, then_eq_ok_iff]

theorem superName_isOk_iff {file : ClassFile} (hc : file.pool.Closed) :
    (∃ name, file.superName = .ok name) ↔
      file.superClass = 0 ∨ file.pool.Leads file.superClass (some .classRef) := by
  rw [superName]
  by_cases h0 : file.superClass = 0
  · rw [if_pos h0]
    exact ⟨fun _ => .inl h0, fun _ => ⟨none, rfl⟩⟩
  · rw [if_neg h0]
    constructor
    · rintro ⟨name, h⟩
      cases hn : file.pool.className file.superClass with
      | error e =>
        rw [hn] at h
        cases h
      | ok text => exact .inr (ConstantPool.leads_of_className hn)
    · rintro (h | h)
      · exact absurd h h0
      · obtain ⟨text, ht⟩ := hc.className_of_leads h
        exact ⟨some text, by rw [ht]; rfl⟩

theorem interfaceNames_isOk_iff {file : ClassFile} (hc : file.pool.Closed) :
    (∃ names, file.interfaceNames = .ok names) ↔
      ∀ i ∈ file.interfaces, file.pool.Leads i (some .classRef) := by
  rw [interfaceNames, mapM_isOk_iff]
  exact ⟨fun h i hi => (h i hi).elim fun _ hn => ConstantPool.leads_of_className hn,
    fun h i hi => hc.className_of_leads (h i hi)⟩

theorem checkIndices_eq_ok_iff {file : ClassFile} (h : file.pool.slots.length < 2 ^ 16) :
    file.checkIndices = .ok () ↔ file.Indexed := by
  simp only [checkIndices, then_eq_ok_iff, discard_eq_ok_iff,
    ConstantPool.checkReferences_eq_ok_iff h, forM_eq_ok_iff, checkMember_eq_ok_iff,
    checkAttributes_eq_ok_iff]
  constructor
  · rintro ⟨hc, ⟨name, hn⟩, hs, hi, hm, ha⟩
    exact ⟨hc, ConstantPool.leads_of_className hn, (superName_isOk_iff hc).1 hs,
      (interfaceNames_isOk_iff hc).1 hi, hm, ha⟩
  · rintro ⟨hc, hn, hs, hi, hm, ha⟩
    exact ⟨hc, hc.className_of_leads hn, (superName_isOk_iff hc).2 hs,
      (interfaceNames_isOk_iff hc).2 hi, hm, ha⟩

/-- An index that leads somewhere needs a slot to lead to. -/
theorem Indexed.slots_pos {file : ClassFile} (h : file.Indexed) :
    0 < file.pool.slots.length := by
  obtain ⟨k, -, hk, -⟩ := h.thisClass
  have := (List.getElem?_eq_some_iff.1 hk).1
  omega

theorem parse_eq_ok_iff {bytes : List UInt8} {file : ClassFile} :
    parse bytes = .ok file ↔ read.run bytes = .ok file ∧ file.checkIndices = .ok () := by
  rw [parse, bind_eq_ok_iff]
  constructor
  · rintro ⟨a, hr, h⟩
    cases hc : a.checkIndices with
    | error e =>
      rw [hc] at h
      cases h
    | ok u =>
      rw [hc] at h
      cases h
      exact ⟨hr, hc⟩
  · rintro ⟨hr, hc⟩
    exact ⟨file, hr, by rw [hc]; rfl⟩

theorem parse_indexed {bytes : List UInt8} {file : ClassFile} (h : parse bytes = .ok file) :
    file.Indexed := by
  obtain ⟨hread, hcheck⟩ := parse_eq_ok_iff.1 h
  obtain ⟨c, hread, -⟩ := Reader.run_eq_ok_iff.1 hread
  obtain ⟨-, n, hn, -⟩ := read_eq_ok_iff.1 hread
  have hlt := n.toNat_lt
  exact (checkIndices_eq_ok_iff (by omega)).1 hcheck

/-- Parsing accepts exactly the encodings of well-formed class files. -/
theorem parse_ok_iff_wellFormed_encode (bytes : List UInt8) (file : ClassFile) :
    parse bytes = .ok file ↔ file.WellFormed ∧ bytes = file.encode := by
  rw [parse_eq_ok_iff, Reader.run_eq_ok_iff]
  simp only [read_eq_ok_iff]
  constructor
  · rintro ⟨⟨c', ⟨hfits, n, hn, hspan⟩, hrest⟩, hcheck⟩
    have hlt := n.toNat_lt
    have hidx := (checkIndices_eq_ok_iff (by omega)).1 hcheck
    have hpos := hidx.slots_pos
    -- a count of zero would leave no slot for the class itself
    have hcount : file.pool.count.toUInt16 = n := by
      rw [ConstantPool.count, hn, Nat.sub_add_cancel (by omega)]
      simp
    refine ⟨⟨hfits, by omega, hidx⟩, ?_⟩
    have hb := Cursor.eq_of_spans_start hspan hrest
    rw [hb, ← hcount]
    rfl
  · rintro ⟨⟨hfits, hslots, hidx⟩, rfl⟩
    have hcount : file.pool.slots.length = file.pool.count.toUInt16.toNat - 1 := by
      rw [toNat_toUInt16 (by rw [ConstantPool.count]; omega), ConstantPool.count]
      omega
    exact ⟨⟨_, ⟨hfits, file.pool.count.toUInt16, hcount, Cursor.spans_start file.encode⟩, rfl⟩,
      (checkIndices_eq_ok_iff (by omega)).2 hidx⟩

end ClassFile

end ClassLoading
