import ClassLoading.Proofs.Checks
import ClassLoading.Proofs.ClassFileFormat
import ClassLoading.Proofs.Loadable

/-! The pool of a class file beside the constants of a class built from it. Slot by slot a constant
of the class shows what the indices of the constant in the pool lead to, so an index that is looked
up on both sides gives the same answer or the same fault. The indices that give one are told by the
bytes of the file: each constant takes as many as its width, and starts where those written before
it end. -/
namespace ClassLoading

/-- How many indices a constant takes. -/
def Constant.width (k : Constant) : Nat := if k.isWide then 2 else 1

/-- The constants of a pool as a class file writes them, one after the other. -/
def ConstantPool.written (pool : ConstantPool) : List Constant :=
  pool.slots.filter (· ≠ .unusable)

/-- What a constant of a class shows of a constant of the pool: literals as they are, and in place
of an index what it leads to. What the constant has been linked to is left open. -/
inductive Constant.MirroredBy (pool : ConstantPool) : Constant → LoadedConstant → Prop
  | utf8 (text : String) : MirroredBy pool (.utf8 text) (.utf8 text)
  | integer (value : Int32) : MirroredBy pool (.integer value) (.integer value)
  | float (bits : UInt32) : MirroredBy pool (.float bits) (.float bits)
  | long (value : Int64) : MirroredBy pool (.long value) (.long value)
  | double (bits : UInt64) : MirroredBy pool (.double bits) (.double bits)
  | classRef {index : UInt16} {name : String} (target : Option ClassId)
      (h : pool.utf8 index = .ok name) : MirroredBy pool (.classRef index) (.classRef name target)
  | string {index : UInt16} {text : String} (h : pool.utf8 index = .ok text) :
      MirroredBy pool (.string index) (.string text)
  | fieldRef {o m : UInt16} {owner name descriptor : String} (link : Option FieldLink)
      (howner : pool.className o = .ok owner)
      (hmember : pool.nameAndType m = .ok (name, descriptor)) :
      MirroredBy pool (.fieldRef o m) (.fieldRef owner ⟨name, descriptor⟩ link)
  | methodRef {o m : UInt16} {owner name descriptor : String}
      (howner : pool.className o = .ok owner)
      (hmember : pool.nameAndType m = .ok (name, descriptor)) :
      MirroredBy pool (.methodRef o m) (.methodRef owner ⟨name, descriptor⟩)
  | interfaceMethodRef {o m : UInt16} {owner name descriptor : String}
      (howner : pool.className o = .ok owner)
      (hmember : pool.nameAndType m = .ok (name, descriptor)) :
      MirroredBy pool (.interfaceMethodRef o m) (.interfaceMethodRef owner ⟨name, descriptor⟩)
  | nameAndType {n d : UInt16} {name descriptor : String} (hname : pool.utf8 n = .ok name)
      (hdescriptor : pool.utf8 d = .ok descriptor) :
      MirroredBy pool (.nameAndType n d) (.nameAndType ⟨name, descriptor⟩)
  | methodHandle (kind : UInt8) (reference : UInt16) :
      MirroredBy pool (.methodHandle kind reference) (.methodHandle kind reference)
  | methodType {index : UInt16} {descriptor : String} (h : pool.utf8 index = .ok descriptor) :
      MirroredBy pool (.methodType index) (.methodType descriptor)
  | dynamic (bootstrap : UInt16) {m : UInt16} {name descriptor : String}
      (hmember : pool.nameAndType m = .ok (name, descriptor)) :
      MirroredBy pool (.dynamic bootstrap m) (.dynamic bootstrap ⟨name, descriptor⟩)
  | invokeDynamic (bootstrap : UInt16) {m : UInt16} {name descriptor : String}
      (hmember : pool.nameAndType m = .ok (name, descriptor)) :
      MirroredBy pool (.invokeDynamic bootstrap m) (.invokeDynamic bootstrap ⟨name, descriptor⟩)
  | moduleRef {index : UInt16} {name : String} (h : pool.utf8 index = .ok name) :
      MirroredBy pool (.moduleRef index) (.moduleRef name)
  | packageRef {index : UInt16} {name : String} (h : pool.utf8 index = .ok name) :
      MirroredBy pool (.packageRef index) (.packageRef name)
  | unusable : MirroredBy pool .unusable .unusable

/-! ### Constants that mirror a pool -/

namespace Constant.MirroredBy

variable {pool : ConstantPool} {raw : Constant} {k : LoadedConstant}

theorem kind_eq (h : raw.MirroredBy pool k) : k.kind = raw.kind := by
  cases h <;> rfl

theorem unusable_iff (h : raw.MirroredBy pool k) : k = .unusable ↔ raw = .unusable := by
  rw [← LoadedConstant.kind_eq_unusable_iff, ← Constant.kind_eq_unusable_iff, h.kind_eq]

theorem of_memberOf {index : UInt16} {member : NameAndType}
    (h : LoadedConstant.memberOf pool index = .ok member) :
    pool.nameAndType index = .ok (member.name, member.descriptor) := by
  obtain ⟨texts, htexts, h⟩ := bind_eq_ok_iff.1 h
  cases h
  exact htexts

theorem of_ofConstant (h : LoadedConstant.ofConstant pool raw = .ok k) :
    raw.MirroredBy pool k := by
  cases raw with
  | utf8 text => cases h; exact .utf8 text
  | integer value => cases h; exact .integer value
  | float bits => cases h; exact .float bits
  | long value => cases h; exact .long value
  | double bits => cases h; exact .double bits
  | methodHandle kind reference => cases h; exact .methodHandle kind reference
  | unusable => cases h; exact .unusable
  | classRef index =>
    obtain ⟨name, hname, h⟩ := bind_eq_ok_iff.1 h
    cases h
    exact .classRef none hname
  | string index =>
    obtain ⟨text, htext, h⟩ := bind_eq_ok_iff.1 h
    cases h
    exact .string htext
  | methodType index =>
    obtain ⟨descriptor, hdescriptor, h⟩ := bind_eq_ok_iff.1 h
    cases h
    exact .methodType hdescriptor
  | moduleRef index =>
    obtain ⟨name, hname, h⟩ := bind_eq_ok_iff.1 h
    cases h
    exact .moduleRef hname
  | packageRef index =>
    obtain ⟨name, hname, h⟩ := bind_eq_ok_iff.1 h
    cases h
    exact .packageRef hname
  | dynamic bootstrap m =>
    obtain ⟨member, hmember, h⟩ := bind_eq_ok_iff.1 h
    cases h
    exact .dynamic bootstrap (of_memberOf hmember)
  | invokeDynamic bootstrap m =>
    obtain ⟨member, hmember, h⟩ := bind_eq_ok_iff.1 h
    cases h
    exact .invokeDynamic bootstrap (of_memberOf hmember)
  | nameAndType n d =>
    obtain ⟨name, hname, h⟩ := bind_eq_ok_iff.1 h
    obtain ⟨descriptor, hdescriptor, h⟩ := bind_eq_ok_iff.1 h
    cases h
    exact .nameAndType hname hdescriptor
  | fieldRef o m =>
    obtain ⟨owner, howner, h⟩ := bind_eq_ok_iff.1 h
    obtain ⟨member, hmember, h⟩ := bind_eq_ok_iff.1 h
    cases h
    exact .fieldRef none howner (of_memberOf hmember)
  | methodRef o m =>
    obtain ⟨owner, howner, h⟩ := bind_eq_ok_iff.1 h
    obtain ⟨member, hmember, h⟩ := bind_eq_ok_iff.1 h
    cases h
    exact .methodRef howner (of_memberOf hmember)
  | interfaceMethodRef o m =>
    obtain ⟨owner, howner, h⟩ := bind_eq_ok_iff.1 h
    obtain ⟨member, hmember, h⟩ := bind_eq_ok_iff.1 h
    cases h
    exact .interfaceMethodRef howner (of_memberOf hmember)

/-- Class constants may lead to a class or not. -/
theorem unlinked_iff : raw.MirroredBy pool k.unlinked ↔ raw.MirroredBy pool k := by
  cases k with
  | classRef name target =>
    constructor
    · intro h
      cases h with
      | classRef _ hname => exact .classRef target hname
    · intro h
      cases h with
      | classRef _ hname => exact .classRef none hname
  | _ => exact Iff.rfl

/-- Resolution links references to fields and does nothing else. -/
theorem resolveConstant {classes : ClassTable} {c : LoadedClass} {new : LoadedConstant}
    (h : c.resolveConstant classes k = .ok new) (hk : raw.MirroredBy pool k) :
    raw.MirroredBy pool new := by
  unfold LoadedClass.resolveConstant at h
  split at h
  · split at h
    · obtain ⟨type, -, h⟩ := bind_eq_ok_iff.1 h
      cases h
      cases hk with
      | fieldRef _ howner hmember => exact .fieldRef _ howner hmember
    · cases h
      exact hk
  · cases h
    exact hk

end Constant.MirroredBy

namespace LoadedClass

variable {pool : ConstantPool} {c d : LoadedClass} {index : UInt16}

/-- The class has a mirror image of every slot of the pool. -/
def Mirrors (c : LoadedClass) (pool : ConstantPool) : Prop :=
  List.Forall₂ (Constant.MirroredBy pool) pool.slots c.constants.toList

theorem Mirrors.of_unlinked (h : c.Mirrors pool)
    (heq : d.constants.toList.map (·.unlinked) = c.constants.toList.map (·.unlinked)) :
    d.Mirrors pool := by
  have hiff : ∀ constants : List LoadedConstant,
      List.Forall₂ (Constant.MirroredBy pool) pool.slots (constants.map (·.unlinked)) ↔
        List.Forall₂ (Constant.MirroredBy pool) pool.slots constants := by
    intro constants
    simp only [List.forall₂_map_right_iff, Constant.MirroredBy.unlinked_iff]
  rw [Mirrors, ← hiff, heq, hiff]
  exact h

theorem Mirrors.of_fixed (h : c.Mirrors pool) (hfixed : d.fixed = c.fixed) : d.Mirrors pool := by
  refine h.of_unlinked ?_
  have := congrArg (fun c => c.constants.toList) hfixed
  simpa [fixed] using this

theorem mirrors_of_hasPool (h : Blueprint.HasPool pool c) : c.Mirrors pool := by
  obtain ⟨constants, hpool, heq⟩ := h
  have hall : List.Forall₂ (Constant.MirroredBy pool) pool.slots constants :=
    (forall₂_of_mapM hpool).imp fun _ _ hraw => .of_ofConstant hraw
  have hplain : ({ c with constants := constants.toArray } : LoadedClass).Mirrors pool := by
    simpa [Mirrors] using hall
  exact hplain.of_unlinked (by simpa using heq)

theorem Mirrors.resolve {classes : ClassTable} (h : c.Mirrors pool)
    (hresolve : c.resolve classes = .ok d) : d.Mirrors pool := by
  obtain ⟨constants, hmap, rfl⟩ := resolve_eq_ok hresolve
  have hall : List.Forall₂ (Constant.MirroredBy pool) pool.slots constants := by
    have hstep := forall₂_of_mapM hmap
    clear hmap hresolve
    unfold Mirrors at h
    generalize pool.slots = slots, c.constants.toList = old at h hstep
    induction h generalizing constants with
    | nil =>
      cases hstep
      exact .nil
    | cons hraw _ ih =>
      cases hstep with
      | cons hnew hstep => exact .cons (hraw.resolveConstant hnew) (ih _ hstep)
  simpa [Mirrors, advance] using hall

/-- A class is built with a mirror image of the pool of its file. -/
theorem mirrors_buildOrdinary {config : LoaderConfig} {classes : ClassTable} {name : String}
    {file : ClassFile} {superClass : Option ClassId} {interfaces : List ClassId}
    (h : Blueprint.buildOrdinary config classes name file superClass interfaces = .ok c) :
    c.Mirrors file.pool := by
  obtain ⟨declared, prepared, hdeclared, -, hprepared, hresolved⟩ :=
    Blueprint.buildOrdinary_eq_ok h
  have hpool := (Blueprint.hasPool_of_declared hdeclared).1
  exact (mirrors_of_hasPool (Blueprint.hasPool_of_prepared hprepared hpool).1).resolve hresolved

/-- Pool and class answer alike at every index. -/
theorem Mirrors.agree (h : c.Mirrors pool) (index : UInt16) :
    Agree (Constant.MirroredBy pool) (pool.get index) (c.constant index) := by
  have hcount : c.constants.size + 1 = pool.count := by
    rw [ConstantPool.count, h.length_eq, Array.length_toList]
  by_cases h0 : index = 0
  · rw [ConstantPool.get, constant, if_pos h0, if_pos h0, hcount]
    exact .error _
  · have hpos := UInt16.toNat_pos h0
    rcases getElem?_of_forall₂ h (index.toNat - 1) with ⟨hraw, hk⟩ | ⟨raw, k, hraw, hk, hmirror⟩
    · rw [Array.getElem?_toList] at hk
      rw [ConstantPool.get, constant, if_neg h0, if_neg h0, hraw, hk, hcount]
      exact .error _
    · rw [Array.getElem?_toList] at hk
      by_cases hunusable : raw = .unusable
      · rw [hunusable] at hraw
        rw [hmirror.unusable_iff.2 hunusable] at hk
        rw [ConstantPool.get, constant, if_neg h0, if_neg h0, hraw, hk]
        exact .error _
      · rw [ConstantPool.get_eq_ok_iff.2 ⟨hpos, hraw, hunusable⟩,
          constant_eq_ok_iff.2 ⟨hpos, hk, mt hmirror.unusable_iff.1 hunusable⟩]
        exact .ok hmirror

end LoadedClass

/-! ### Indices and bytes -/

namespace ConstantPool

variable {pool : ConstantPool} {index : UInt16} {k : Constant}

/-- Where a list of constants is cut in front of one of them, the cut is at its head or within its
tail. -/
theorem exists_cut_cons {first : Constant} {rest : List Constant} {offset : Nat} :
    (∃ before after, first :: rest = before ++ k :: after ∧
        offset = (before.map Constant.width).sum) ↔
      (k = first ∧ offset = 0) ∨ ∃ before after, rest = before ++ k :: after ∧
        offset = first.width + (before.map Constant.width).sum := by
  constructor
  · rintro ⟨before, after, hcut, rfl⟩
    cases before with
    | nil =>
      cases hcut
      exact .inl ⟨rfl, rfl⟩
    | cons _ before =>
      cases hcut
      exact .inr ⟨before, after, rfl, by simp⟩
  · rintro (⟨rfl, rfl⟩ | ⟨before, after, rfl, rfl⟩)
    · exact ⟨[], rest, rfl, rfl⟩
    · exact ⟨first :: before, after, rfl, by simp⟩

/-- A constant stands where the widths of those written before it end, one further in the slots
behind a wide one. -/
theorem getElem?_eq_some_iff_written {afterWide : Bool} {slots : List Constant}
    (h : SpacedFrom afterWide slots) (hk : k ≠ .unusable) (i : Nat) :
    slots[i]? = some k ↔ ∃ before after, slots.filter (· ≠ .unusable) = before ++ k :: after ∧
      i = afterWide.toNat + (before.map Constant.width).sum := by
  induction slots generalizing afterWide i with
  | nil => simp
  | cons first rest ih =>
    obtain ⟨hfirst, hrest⟩ := h
    cases afterWide with
    | true =>
      obtain rfl := hfirst.2 rfl
      cases i with
      | zero =>
        refine ⟨fun hzero => absurd (Option.some.inj hzero).symm hk, ?_⟩
        rintro ⟨before, -, -, hoffset⟩
        rw [Bool.toNat_true] at hoffset
        omega
      | succ i => simp [ih hrest, Constant.isWide, Nat.add_comm 1]
    | false =>
      have hkept : first ≠ .unusable := by simpa using hfirst
      have hwidth : first.width = first.isWide.toNat + 1 := by
        unfold Constant.width
        cases first.isWide <;> rfl
      rw [List.filter_cons_of_pos (by simpa using hkept)]
      simp only [Bool.toNat_false, Nat.zero_add, exists_cut_cons]
      cases i with
      | zero =>
        have hlater : ∀ before : List Constant,
            0 ≠ first.width + (before.map Constant.width).sum := fun before => by omega
        simp [hlater, eq_comm]
      | succ i =>
        have hshift : ∀ before : List Constant,
            i + 1 = first.width + (before.map Constant.width).sum ↔
              i = first.isWide.toNat + (before.map Constant.width).sum := fun before => by omega
        simp [ih hrest, hshift]

theorem get_eq_ok_iff_written (h : pool.Spaced) :
    pool.get index = .ok k ↔ ∃ before after, pool.written = before ++ k :: after ∧
      index.toNat = 1 + (before.map Constant.width).sum := by
  have hslots := getElem?_eq_some_iff_written (k := k) (spaced_iff.1 h)
  simp only [Bool.toNat_false, Nat.zero_add] at hslots
  rw [get_eq_ok_iff]
  constructor
  · rintro ⟨hpos, hget, hk⟩
    obtain ⟨before, after, hcut, hoffset⟩ := (hslots hk _).1 hget
    exact ⟨before, after, hcut, by omega⟩
  · rintro ⟨before, after, hcut, hindex⟩
    have hmem : k ∈ pool.written := by
      rw [hcut]
      simp
    have hk : k ≠ .unusable := by simpa using (List.mem_filter.1 hmem).2
    exact ⟨by omega, (hslots hk _).2 ⟨before, after, hcut, by omega⟩, hk⟩

theorem encode_eq_written (pool : ConstantPool) :
    pool.encode = Bytes.u16 pool.count.toUInt16 ++ pool.written.flatMap Constant.encode := by
  have hskip : ∀ slots : List Constant, slots.flatMap Constant.encode
      = (slots.filter (· ≠ .unusable)).flatMap Constant.encode := by
    intro slots
    induction slots with
    | nil => rfl
    | cons first rest ih =>
      by_cases hfirst : first = .unusable
      · simp [hfirst, Constant.encode, ih]
      · simp [hfirst, ih]
  rw [encode, hskip, written]

theorem findAttribute_isOk {attributes : List Attribute}
    (h : ∀ a ∈ attributes, pool.Leads a.name (some .utf8)) (name : String) :
    ∃ found, pool.findAttribute name attributes = .ok found := by
  induction attributes with
  | nil => exact ⟨none, rfl⟩
  | cons a rest ih =>
    obtain ⟨ha, hrest⟩ := List.forall_mem_cons.1 h
    obtain ⟨text, htext⟩ := leads_utf8_iff.1 ha
    rw [findAttribute, htext]
    by_cases heq : text = name
    · exact ⟨some a, by simp [heq, bind, Except.bind]; rfl⟩
    · obtain ⟨found, hfound⟩ := ih hrest
      exact ⟨found, by simp [heq, bind, Except.bind, hfound]⟩

/-- Only an index beyond the pool or of an unusable slot leads nowhere. -/
theorem get_eq_error {e : PoolError} (h : pool.get index = .error e) :
    e = .outOfRange index pool.count ∨ e = .unusable index := by
  unfold get at h
  split at h
  · cases h
    exact .inl rfl
  · split at h <;> cases h
    · exact .inl rfl
    · exact .inr rfl

end ConstantPool

namespace ClassFile

variable {bytes : List UInt8} {file : ClassFile}

/-- A file that is parsed from some bytes is written as these bytes. -/
theorem eq_encode_of_parse (h : parse bytes = .ok file) :
    file.pool.Spaced ∧ file.pool.count < 2 ^ 16 ∧ bytes = file.encode := by
  have hpos := (parse_indexed h).slots_pos
  obtain ⟨hread, -⟩ := parse_eq_ok_iff.1 h
  obtain ⟨c, hread, hrest⟩ := Reader.run_eq_ok_iff.1 hread
  obtain ⟨hfits, n, hn, hspan⟩ := read_eq_ok_iff.1 hread
  have hcount : file.pool.count = n.toNat := by
    rw [ConstantPool.count]
    omega
  refine ⟨hfits.spaced, hcount ▸ n.toNat_lt, ?_⟩
  have hbytes := Cursor.eq_of_spans_start hspan hrest
  have hwritten : file.pool.count.toUInt16 = n := by
    rw [hcount]
    simp
  rw [hbytes, ← hwritten]
  rfl

/-- The count of the constants stands behind the magic number and the two numbers of the version. -/
theorem bigEndian_count (h : file.pool.count < 2 ^ 16) :
    Reader.bigEndian ((file.encode.drop 8).take 2) = file.pool.count := by
  obtain ⟨rest, hrest⟩ : ∃ rest, file.encode =
      (Bytes.u32 file.magic ++ Bytes.u16 file.minor ++ Bytes.u16 file.major) ++
        (Bytes.u16 file.pool.count.toUInt16 ++ rest) := by
    simp only [encode, ConstantPool.encode, List.append_assoc]
    exact ⟨_, rfl⟩
  have hhead : (Bytes.u32 file.magic ++ Bytes.u16 file.minor ++
      Bytes.u16 file.major).length = 8 := by simp [Bytes.u32, Bytes.u16]
  rw [hrest, List.drop_left' hhead, List.take_left' (by simp [Bytes.u16]), Bytes.u16,
    toNat_toUInt16 h, Reader.bigEndian_bytes (by omega)]

/-- What a class file that was parsed from some bytes has, and any class built from it. -/
structure PoolServes (bytes : List UInt8) (file : ClassFile) : Prop where
  count : Reader.bigEndian ((bytes.drop 8).take 2) = file.pool.count
  loads : ∃ constants, LoadedConstant.ofPool file.pool = .ok constants ∧
    constants.length = file.pool.count - 1
  answers : ∀ config classes name superClass interfaces built (c : LoadedClass),
    Blueprint.buildOrdinary config classes name file superClass interfaces = .ok built →
      c.fixed = built.fixed → ∀ index, Agree (fun raw k => k.kind = raw.kind ∧
        raw.MirroredBy file.pool k) (file.pool.get index) (c.constant index)
  faults : ∀ index e, file.pool.get index = .error e →
    e = .outOfRange index file.pool.count ∨ e = .unusable index
  bytes : bytes = file.encode ∧ file.pool.encode =
    Bytes.u16 file.pool.count.toUInt16 ++ file.pool.written.flatMap Constant.encode
  indices : ∀ index k, file.pool.get index = .ok k ↔
    ∃ before after, file.pool.written = before ++ k :: after ∧
      index.toNat = 1 + (before.map Constant.width).sum
  className : ∃ name, file.className = .ok name
  superName : ∃ name, file.superName = .ok name
  interfaceNames : ∃ names, file.interfaceNames = .ok names
  members : ∀ m ∈ file.fields ++ file.methods, (∃ name, file.pool.utf8 m.name = .ok name) ∧
    ∃ descriptor, file.pool.utf8 m.descriptor = .ok descriptor
  attributes : ∀ attributes ∈ file.attributes :: (file.fields ++ file.methods).map (·.attributes),
    ∀ name, ∃ found, file.pool.findAttribute name attributes = .ok found

/-- The pool of a parsed class file has the count that is written in the bytes, gives its constants
at the indices where the bytes put them, serves every lookup of the file, and answers at every index
as any class built from the file does. -/
theorem poolServes_of_parse (h : parse bytes = .ok file) : file.PoolServes bytes := by
  have hidx := parse_indexed h
  obtain ⟨hspaced, hcount, rfl⟩ := eq_encode_of_parse h
  have hleads : ∀ attributes ∈ file.attributes :: (file.fields ++ file.methods).map (·.attributes),
      ∀ a ∈ attributes, file.pool.Leads a.name (some .utf8) := by
    refine List.forall_mem_cons.2 ⟨hidx.attributes, fun attributes hmem => ?_⟩
    obtain ⟨m, hm, rfl⟩ := List.mem_map.1 hmem
    exact (hidx.members m hm).2.2
  refine ⟨bigEndian_count hcount, ?_, ?_, fun _ _ => ConstantPool.get_eq_error,
    ⟨rfl, file.pool.encode_eq_written⟩, fun _ _ => ConstantPool.get_eq_ok_iff_written hspaced,
    hidx.constants.className_of_leads hidx.thisClass,
    (superName_isOk_iff hidx.constants).2 hidx.superClass,
    (interfaceNames_isOk_iff hidx.constants).2 hidx.interfaces, ?_, ?_⟩
  · obtain ⟨constants, hconstants⟩ := LoadedConstant.ofPool_isOk hidx.constants
    have hlength := (forall₂_of_mapM hconstants).length_eq
    exact ⟨constants, hconstants, by rw [← hlength, ConstantPool.count, Nat.add_sub_cancel]⟩
  · intro config classes name superClass interfaces built c hbuilt hfixed index
    have hagree := ((LoadedClass.mirrors_buildOrdinary hbuilt).of_fixed hfixed).agree index
    exact hagree.imp fun raw k hmirror => ⟨hmirror.kind_eq, hmirror⟩
  · intro m hm
    obtain ⟨hname, hdescriptor, -⟩ := hidx.members m hm
    exact ⟨ConstantPool.leads_utf8_iff.1 hname, ConstantPool.leads_utf8_iff.1 hdescriptor⟩
  · intro attributes hmem name
    exact ConstantPool.findAttribute_isOk (hleads attributes hmem) name

/-- A class file with a wide constant in the middle of its pool and one in the last slot. -/
def wideConstants : ClassFile :=
  { ClassFile.ofFields objectName none [] with
    pool := ⟨[.utf8 objectName, .classRef 1, .long 7, .unusable, .nameAndType 1 1, .double 1]⟩ }

theorem wideConstants_poolServes : ∃ c, parse wideConstants.encode = .ok wideConstants ∧
    Blueprint.buildOrdinary .standard #[] objectName wideConstants none [] = .ok c ∧
      c.constant 6 = .ok (.double 1) ∧ c.constant 4 = .error (.unusable 4) ∧
      c.constant 7 = .error (.outOfRange 7 7) ∧
      wideConstants.PoolServes wideConstants.encode := by
  have hbuilt : (Blueprint.buildOrdinary .standard #[] objectName wideConstants none []).map
      (fun c => (c.constant 6, c.constant 4, c.constant 7)) =
        .ok (.ok (.double 1), .error (.unusable 4), .error (.outOfRange 7 7)) := by decide +kernel
  cases hc : Blueprint.buildOrdinary .standard #[] objectName wideConstants none [] with
  | error e =>
    rw [hc] at hbuilt
    cases hbuilt
  | ok c =>
    rw [hc] at hbuilt
    have hall := Except.ok.inj hbuilt
    simp only [Prod.mk.injEq] at hall
    exact ⟨c, by decide +kernel, rfl, hall.1, hall.2.1, hall.2.2,
      poolServes_of_parse (by decide +kernel)⟩

end ClassFile

end ClassLoading
