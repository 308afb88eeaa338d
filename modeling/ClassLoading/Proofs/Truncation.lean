import ClassLoading.Proofs.ClassFileFormat

/-! Where the format ends. A class file is a sequence of items: numbers of fixed width, and payloads
whose length stands in front of them. A reader that goes over a sequence of items needs all of it and
nothing more. Bytes that end early are refused at the start of the first item that is not there in
full, and bytes that go on are refused with their number; where a file ends can be read off its bytes
alone. -/
namespace ClassLoading

namespace Bytes

/-- Of `n` bytes, the items in front of `offset` are there in full and the one at `offset` is not. -/
def BreaksAt (items : List (List UInt8)) (n offset : Nat) : Prop :=
  ∃ before item after, items = before ++ item :: after ∧ offset = before.flatten.length ∧
    offset ≤ n ∧ n < offset + item.length

theorem BreaksAt.append_right {items : List (List UInt8)} {n offset : Nat}
    (h : BreaksAt items n offset) (more : List (List UInt8)) :
    BreaksAt (items ++ more) n offset := by
  obtain ⟨before, item, after, rfl, hoff, hle, hlt⟩ := h
  exact ⟨before, item, after ++ more, by simp, hoff, hle, hlt⟩

theorem BreaksAt.append_left {items : List (List UInt8)} {n offset : Nat}
    (h : BreaksAt items n offset) (first : List (List UInt8)) :
    BreaksAt (first ++ items) (first.flatten.length + n) (first.flatten.length + offset) := by
  obtain ⟨before, item, after, rfl, rfl, hle, hlt⟩ := h
  refine ⟨first ++ before, item, after, by simp, ?_, ?_, ?_⟩
  · rw [List.flatten_append, List.length_append]
  · omega
  · omega

/-- The items of a table: its count, and those of its entries. -/
def tableItems {α : Type} (items : α → List (List UInt8)) (entries : List α) :
    List (List UInt8) :=
  u16 entries.length.toUInt16 :: entries.flatMap items

theorem flatten_flatMap {α : Type} {items : α → List (List UInt8)} {encode : α → List UInt8}
    (h : ∀ a, (items a).flatten = encode a) (entries : List α) :
    (entries.flatMap items).flatten = entries.flatMap encode := by
  induction entries with
  | nil => rfl
  | cons a entries ih => rw [List.flatMap_cons, List.flatten_append, h, ih, List.flatMap_cons]

theorem flatten_tableItems {α : Type} {items : α → List (List UInt8)} {encode : α → List UInt8}
    (h : ∀ a, (items a).flatten = encode a) (entries : List α) :
    (tableItems items entries).flatten = table encode entries := by
  rw [tableItems, table, List.flatten_cons, flatten_flatMap h]

end Bytes

open Bytes (BreaksAt tableItems)

/-! ### Readers that go over items -/

namespace Reader

variable {α β : Type}

/-- The reader gives `a` for the items, whatever follows them, and nothing but truncation for a part
of them. -/
structure Itemizes (p : Reader α) (items : List (List UInt8)) (a : α) : Prop where
  reads : ∀ {c c' : Cursor}, c.Spans items.flatten c' → p c = .ok (a, c')
  stops : ∀ {c : Cursor}, c.rest <+: items.flatten → c.rest ≠ items.flatten →
    ∃ k, p c = .error (.truncated (c.offset + k)) ∧ BreaksAt items c.rest.length k

theorem Itemizes.pure (a : α) : Itemizes (Pure.pure a) [] a where
  reads h := pure_eq_ok_iff.2 ⟨rfl, h⟩
  stops h hne := absurd (List.prefix_nil.1 h) hne

theorem Itemizes.take {n : Nat} {bytes : List UInt8} (hl : bytes.length = n) :
    Itemizes (take n) [bytes] bytes where
  reads h := take_eq_ok_iff.2 ⟨hl, by simpa using h⟩
  stops {c} h hne := by
    rw [List.flatten_singleton] at h hne
    have hlt : c.rest.length < bytes.length :=
      lt_of_le_of_ne h.length_le fun heq => hne (h.eq_of_length heq)
    refine ⟨0, ?_, [], bytes, [], rfl, rfl, Nat.zero_le _, by omega⟩
    rw [Reader.take, if_neg (by rw [hasBytes_iff]; omega), Nat.add_zero]

theorem Itemizes.bind {p : Reader α} {f : α → Reader β} {items more : List (List UInt8)} {a : α}
    {b : β} (hp : Itemizes p items a) (hf : Itemizes (f a) more b) :
    Itemizes (p >>= f) (items ++ more) b where
  reads {c c'} h := by
    rw [List.flatten_append, Cursor.spans_append] at h
    obtain ⟨c₁, h₁, h₂⟩ := h
    exact bind_eq_ok_iff.2 ⟨a, c₁, hp.reads h₁, hf.reads h₂⟩
  stops {c} h hne := by
    rw [List.flatten_append] at h hne
    by_cases hall : items.flatten <+: c.rest
    · obtain ⟨rest, hrest⟩ := hall
      rw [← hrest, List.prefix_append_right_inj] at h
      have hne' : rest ≠ more.flatten := fun heq => hne (by rw [← hrest, heq])
      have hread : p c = .ok (a, ⟨c.offset + items.flatten.length, rest⟩) :=
        hp.reads ⟨hrest.symm, rfl⟩
      obtain ⟨k, hk, hb⟩ := hf.stops (c := ⟨c.offset + items.flatten.length, rest⟩) h hne'
      refine ⟨items.flatten.length + k, ?_, ?_⟩
      · rw [bind_apply, hread, ← Nat.add_assoc]
        exact hk
      · rw [← hrest, List.length_append]
        exact hb.append_left items
    · have hin := (List.prefix_or_prefix_of_prefix h (List.prefix_append ..)).resolve_right hall
      obtain ⟨k, hk, hb⟩ := hp.stops hin fun heq => hall (by rw [heq])
      exact ⟨k, by rw [bind_apply, hk], hb.append_right more⟩

theorem Itemizes.map {p : Reader α} {items : List (List UInt8)} {a : α} (hp : Itemizes p items a)
    (f : α → β) : Itemizes (do return f (← p)) items (f a) := by
  have h := hp.bind (f := fun a => Pure.pure (f a)) (Itemizes.pure (f a))
  rwa [List.append_nil] at h

/-- Where a reader starts makes no difference to the items it goes over. -/
theorem Itemizes.offset {f : Nat → Reader β} {items : List (List UInt8)} {b : β}
    (h : ∀ start, Itemizes (f start) items b) : Itemizes (Reader.offset >>= f) items b where
  reads {c _} hs := (h c.offset).reads hs
  stops {c} hp hne := (h c.offset).stops hp hne

theorem Itemizes.number {width : Nat} {f : List UInt8 → α} {bytes : List UInt8} {a : α}
    (hl : bytes.length = width) (ha : f bytes = a) :
    Itemizes (do return f (← Reader.take width)) [bytes] a := by
  rw [← ha]
  exact (Itemizes.take hl).map f

theorem itemizes_u8 (n : UInt8) : Itemizes u8 [Bytes.u8 n] n :=
  .number rfl (by simp [bigEndian, Bytes.u8])

theorem itemizes_u16 (n : UInt16) : Itemizes u16 [Bytes.u16 n] n :=
  .number (Bytes.length_bigEndian ..) (by rw [Bytes.u16, bigEndian_bytes n.toNat_lt]; simp)

theorem itemizes_u32 (n : UInt32) : Itemizes u32 [Bytes.u32 n] n :=
  .number (Bytes.length_bigEndian ..) (by rw [Bytes.u32, bigEndian_bytes n.toNat_lt]; simp)

theorem itemizes_u64 (n : UInt64) : Itemizes u64 [Bytes.u64 n] n :=
  .number (Bytes.length_bigEndian ..) (by rw [Bytes.u64, bigEndian_bytes n.toNat_lt]; simp)

theorem Itemizes.times {p : Reader α} {items : α → List (List UInt8)} {entries : List α}
    (h : ∀ a ∈ entries, Itemizes p (items a) a) :
    Itemizes (Reader.times p entries.length) (entries.flatMap items) entries := by
  induction entries with
  | nil => exact .pure []
  | cons a entries ih =>
    have hrest := ih fun b hb => h b (List.mem_cons_of_mem a hb)
    rw [List.flatMap_cons]
    exact (h a (by simp)).bind (hrest.map (a :: ·))

theorem Itemizes.table {p : Reader α} {items : α → List (List UInt8)} {entries : List α}
    (hl : entries.length < 2 ^ 16) (h : ∀ a ∈ entries, Itemizes p (items a) a) :
    Itemizes (Reader.table p) (tableItems items entries) entries := by
  refine (itemizes_u16 entries.length.toUInt16).bind ?_
  rw [toNat_toUInt16 hl]
  exact Itemizes.times h

end Reader

/-! ### The items of the format -/

open Reader (Itemizes itemizes_u8 itemizes_u16 itemizes_u32 itemizes_u64)

def Constant.items : Constant → List (List UInt8)
  | .utf8 text =>
    [Bytes.u8 1, Bytes.u16 (ModifiedUtf8.encode text).length.toUInt16, ModifiedUtf8.encode text]
  | .integer value => [Bytes.u8 3, Bytes.u32 value.toUInt32]
  | .float bits => [Bytes.u8 4, Bytes.u32 bits]
  | .long value => [Bytes.u8 5, Bytes.u64 value.toUInt64]
  | .double bits => [Bytes.u8 6, Bytes.u64 bits]
  | .classRef name => [Bytes.u8 7, Bytes.u16 name]
  | .string text => [Bytes.u8 8, Bytes.u16 text]
  | .fieldRef owner member => [Bytes.u8 9, Bytes.u16 owner, Bytes.u16 member]
  | .methodRef owner member => [Bytes.u8 10, Bytes.u16 owner, Bytes.u16 member]
  | .interfaceMethodRef owner member => [Bytes.u8 11, Bytes.u16 owner, Bytes.u16 member]
  | .nameAndType name descriptor => [Bytes.u8 12, Bytes.u16 name, Bytes.u16 descriptor]
  | .methodHandle kind reference => [Bytes.u8 15, Bytes.u8 kind, Bytes.u16 reference]
  | .methodType descriptor => [Bytes.u8 16, Bytes.u16 descriptor]
  | .dynamic bootstrap member => [Bytes.u8 17, Bytes.u16 bootstrap, Bytes.u16 member]
  | .invokeDynamic bootstrap member => [Bytes.u8 18, Bytes.u16 bootstrap, Bytes.u16 member]
  | .moduleRef name => [Bytes.u8 19, Bytes.u16 name]
  | .packageRef name => [Bytes.u8 20, Bytes.u16 name]
  | .unusable => []

def Attribute.items (a : Attribute) : List (List UInt8) :=
  [Bytes.u16 a.name, Bytes.u32 a.payload.length.toUInt32, a.payload]

def Member.items (m : Member) : List (List UInt8) :=
  [Bytes.u16 m.flags, Bytes.u16 m.name, Bytes.u16 m.descriptor] ++
    tableItems Attribute.items m.attributes

/-- The items of a class file, with the count in front of its constants given apart. -/
def ClassFile.items (count : UInt16) (file : ClassFile) : List (List UInt8) :=
  [Bytes.u32 file.magic, Bytes.u16 file.minor, Bytes.u16 file.major, Bytes.u16 count] ++
    file.pool.slots.flatMap Constant.items ++
    [Bytes.u16 file.flags, Bytes.u16 file.thisClass, Bytes.u16 file.superClass] ++
    tableItems (fun i => [Bytes.u16 i]) file.interfaces ++ tableItems Member.items file.fields ++
    tableItems Member.items file.methods ++ tableItems Attribute.items file.attributes

def ExceptionHandler.items (h : ExceptionHandler) : List (List UInt8) :=
  [Bytes.u16 h.start, Bytes.u16 h.stop, Bytes.u16 h.handler, Bytes.u16 h.catchType]

def Code.items (c : Code) : List (List UInt8) :=
  [Bytes.u16 c.maxStack, Bytes.u16 c.maxLocals, Bytes.u32 c.code.length.toUInt32, c.code] ++
    tableItems ExceptionHandler.items c.handlers ++ tableItems Attribute.items c.attributes

theorem Constant.flatten_items (k : Constant) : k.items.flatten = k.encode := by
  cases k <;> simp [items, encode]

theorem Attribute.flatten_items (a : Attribute) : a.items.flatten = a.encode := by
  simp [items, encode]

theorem Member.flatten_items (m : Member) : m.items.flatten = m.encode := by
  simp [items, encode, Bytes.flatten_tableItems Attribute.flatten_items]

theorem ClassFile.flatten_items (count : UInt16) (file : ClassFile) :
    (file.items count).flatten = file.encodeCounted count := by
  have hinterfaces : (tableItems (fun i => [Bytes.u16 i]) file.interfaces).flatten =
      Bytes.table Bytes.u16 file.interfaces :=
    Bytes.flatten_tableItems (fun i => List.flatten_singleton) file.interfaces
  simp [items, encodeCounted, Bytes.flatten_flatMap Constant.flatten_items, hinterfaces,
    Bytes.flatten_tableItems Member.flatten_items, Bytes.flatten_tableItems Attribute.flatten_items]

theorem ExceptionHandler.flatten_items (h : ExceptionHandler) : h.items.flatten = h.encode := by
  simp [items, encode]

theorem Code.flatten_items (c : Code) : c.items.flatten = c.encode := by
  simp [items, encode, Bytes.flatten_tableItems ExceptionHandler.flatten_items,
    Bytes.flatten_tableItems Attribute.flatten_items]

/-! ### The readers of the format -/

namespace Constant

theorem itemizes_readText {text : String} (h : (ModifiedUtf8.encode text).length < 2 ^ 16) :
    Itemizes readText
      [Bytes.u16 (ModifiedUtf8.encode text).length.toUInt16, ModifiedUtf8.encode text]
      (.utf8 text) := by
  refine (itemizes_u16 _).bind (.offset fun start => ?_)
  refine (Itemizes.take (toNat_toUInt16 h).symm).bind ?_
  rw [ModifiedUtf8.decode?_eq_some_iff.2 rfl]
  exact .pure (Constant.utf8 text)

/-- The tag of a constant decides what follows it. -/
theorem itemizes_tagged {k : Constant} {tag : UInt8} {items : List (List UInt8)}
    (h : ∀ start, Itemizes (readTagged start tag) items k) :
    Itemizes Constant.read (Bytes.u8 tag :: items) k :=
  .offset fun start => (itemizes_u8 tag).bind (h start)

theorem itemizes_read {k : Constant} (hk : k.Fits) : Itemizes Constant.read k.items k := by
  cases k with
  | unusable => exact hk.elim
  | utf8 text => exact itemizes_tagged fun _ => itemizes_readText hk
  | integer value =>
    have h := (itemizes_u32 value.toUInt32).map fun n => Constant.integer n.toInt32
    rw [Int32.toInt32_toUInt32] at h
    exact itemizes_tagged fun _ => h
  | float bits => exact itemizes_tagged fun _ => (itemizes_u32 bits).map Constant.float
  | long value =>
    have h := (itemizes_u64 value.toUInt64).map fun n => Constant.long n.toInt64
    rw [Int64.toInt64_toUInt64] at h
    exact itemizes_tagged fun _ => h
  | double bits => exact itemizes_tagged fun _ => (itemizes_u64 bits).map Constant.double
  | classRef n | string n | methodType n | moduleRef n | packageRef n =>
    exact itemizes_tagged fun _ => (itemizes_u16 n).map _
  | methodHandle kind n =>
    exact itemizes_tagged fun _ => (itemizes_u8 kind).bind ((itemizes_u16 n).map _)
  | fieldRef m n | methodRef m n | interfaceMethodRef m n | nameAndType m n | dynamic m n
  | invokeDynamic m n =>
    exact itemizes_tagged fun _ => (itemizes_u16 m).bind ((itemizes_u16 n).map _)

end Constant

theorem ConstantPool.itemizes_readSlots {n : Nat} {slots : List Constant}
    (hl : slots.length = n) (hs : SpacedFrom false slots) (hw : Writable slots) :
    Itemizes (readSlots n) (slots.flatMap Constant.items) slots := by
  induction n using Nat.strong_induction_on generalizing slots with
  | _ n ih =>
  match n, slots with
  | 0, [] => exact .pure []
  | 1, [k] =>
    have hk : k ≠ .unusable := by simpa [SpacedFrom] using hs
    rw [List.flatMap_singleton]
    exact (Constant.itemizes_read (hw k (by simp) hk)).map ([·])
  | n + 2, k :: next :: rest =>
    obtain ⟨hk, hs⟩ := hs
    have hk' : k ≠ .unusable := by simpa using hk
    rw [List.flatMap_cons]
    refine (Constant.itemizes_read (hw k (by simp) hk')).bind ?_
    cases hwide : k.isWide with
    | true =>
      -- the slot behind a wide constant has no items
      rw [hwide] at hs
      obtain rfl : next = .unusable := by simpa using hs.1
      exact (ih n (by omega) (by simpa using hl) hs.2 fun k hm => hw k (by simp [hm])).map
        (k :: .unusable :: ·)
    | false =>
      rw [hwide] at hs
      exact (ih (n + 1) (by omega) (by simpa using hl) hs
        fun k hm => hw k (List.mem_cons_of_mem _ hm)).map (k :: ·)

theorem Attribute.itemizes_read {a : Attribute} (h : a.payload.length < 2 ^ 32) :
    Itemizes Attribute.read a.items a :=
  (itemizes_u16 a.name).bind <| (itemizes_u32 _).bind <|
    (Itemizes.take (toNat_toUInt32 h).symm).map (Attribute.mk a.name)

theorem AttributesFit.itemizes {attributes : List Attribute} (h : AttributesFit attributes) :
    Itemizes (Reader.table Attribute.read) (tableItems Attribute.items attributes) attributes :=
  .table h.1 fun a ha => Attribute.itemizes_read (h.2 a ha)

theorem Member.itemizes_read {m : Member} (h : AttributesFit m.attributes) :
    Itemizes Member.read m.items m :=
  (itemizes_u16 m.flags).bind <| (itemizes_u16 m.name).bind <| (itemizes_u16 m.descriptor).bind <|
    h.itemizes.map (Member.mk m.flags m.name m.descriptor)

theorem ClassFile.itemizes_read {file : ClassFile} {count : UInt16} (hf : file.Fits)
    (hl : file.pool.slots.length = count.toNat - 1) :
    Itemizes ClassFile.read (file.items count) file := by
  have hmagic : Itemizes readMagic [Bytes.u32 file.magic] file.magic := by
    refine (itemizes_u32 file.magic).bind ?_
    rw [if_pos hf.magic]
    exact .pure file.magic
  have hpool : Itemizes ConstantPool.read
      (Bytes.u16 count :: file.pool.slots.flatMap Constant.items) file.pool :=
    (itemizes_u16 count).bind <|
      (ConstantPool.itemizes_readSlots hl (ConstantPool.spaced_iff.1 hf.spaced) hf.writable).map
        ConstantPool.mk
  have hinterfaces := Itemizes.table hf.interfaces fun i _ => itemizes_u16 i
  have hfields := Itemizes.table hf.fields.1 fun m hm => Member.itemizes_read (hf.fields.2 m hm)
  have hmethods := Itemizes.table hf.methods.1 fun m hm => Member.itemizes_read (hf.methods.2 m hm)
  simp only [items, List.append_assoc]
  exact hmagic.bind <| (itemizes_u16 file.minor).bind <| (itemizes_u16 file.major).bind <|
    hpool.bind <| (itemizes_u16 file.flags).bind <| (itemizes_u16 file.thisClass).bind <|
    (itemizes_u16 file.superClass).bind <| hinterfaces.bind <| hfields.bind <| hmethods.bind <|
    hf.attributes.itemizes.map fun attributes => { file with attributes }

theorem ExceptionHandler.itemizes_read (h : ExceptionHandler) :
    Itemizes ExceptionHandler.read h.items h :=
  (itemizes_u16 h.start).bind <| (itemizes_u16 h.stop).bind <| (itemizes_u16 h.handler).bind <|
    (itemizes_u16 h.catchType).map (ExceptionHandler.mk h.start h.stop h.handler)

theorem Code.itemizes_read {body : Code} (hf : body.Fits) :
    Itemizes Code.read body.items body := by
  have hhandlers :=
    Itemizes.table hf.handlers fun h _ => ExceptionHandler.itemizes_read h
  simp only [items, List.append_assoc]
  exact (itemizes_u16 body.maxStack).bind <| (itemizes_u16 body.maxLocals).bind <|
    (itemizes_u32 _).bind <| (Itemizes.take (toNat_toUInt32 hf.code).symm).bind <|
    hhandlers.bind <| hf.attributes.itemizes.map fun attributes => { body with attributes }

/-! ### Readers and indices -/

namespace Reader

variable {α β : Type}

/-- The reader does not look an index up: none of its errors says that a constant is wrong. -/
def IndexFree (p : Reader α) : Prop := ∀ c cause, p c ≠ .error (.badConstant cause)

theorem indexFree_pure (a : α) : IndexFree (Pure.pure a) := nofun

theorem indexFree_fail {e : ParseError} (h : ∀ cause, e ≠ .badConstant cause) :
    IndexFree (fail e : Reader α) := fun _ cause he => h cause (Except.error.inj he)

theorem indexFree_offset : IndexFree offset := nofun

theorem indexFree_take (n : Nat) : IndexFree (take n) := by
  intro c cause h
  rw [take] at h
  split at h <;> cases h

theorem IndexFree.bind {p : Reader α} {f : α → Reader β} (hp : IndexFree p)
    (hf : ∀ a, IndexFree (f a)) : IndexFree (p >>= f) := by
  intro c cause h
  rw [bind_apply] at h
  split at h
  · next a c' _ => exact hf a c' cause h
  · next e he =>
    cases h
    exact hp c cause he

theorem IndexFree.map {p : Reader α} (hp : IndexFree p) (f : α → β) :
    IndexFree (do return f (← p)) := hp.bind fun a => indexFree_pure (f a)

theorem indexFree_u8 : IndexFree u8 := (indexFree_take 1).map _

theorem indexFree_u16 : IndexFree u16 := (indexFree_take 2).map _

theorem indexFree_u32 : IndexFree u32 := (indexFree_take 4).map _

theorem indexFree_u64 : IndexFree u64 := (indexFree_take 8).map _

theorem IndexFree.times {p : Reader α} (hp : IndexFree p) (n : Nat) : IndexFree (times p n) := by
  induction n with
  | zero => exact indexFree_pure []
  | succ n ih => exact hp.bind fun a => ih.map (a :: ·)

theorem IndexFree.table {p : Reader α} (hp : IndexFree p) : IndexFree (table p) :=
  indexFree_u16.bind fun n => hp.times n.toNat

theorem IndexFree.run {p : Reader α} (hp : IndexFree p) (bytes : List UInt8)
    (cause : PoolError) : p.run bytes ≠ .error (.badConstant cause) := by
  intro h
  rw [Reader.run] at h
  split at h
  · split at h <;> cases h
  · next e he =>
    cases h
    exact hp _ cause he

end Reader

open Reader (IndexFree indexFree_pure indexFree_fail indexFree_offset indexFree_take indexFree_u8
  indexFree_u16 indexFree_u32 indexFree_u64)

theorem Constant.indexFree_read : IndexFree Constant.read := by
  refine indexFree_offset.bind fun start => indexFree_u8.bind fun tag => ?_
  fun_cases readTagged start tag
  case case1 =>
    refine indexFree_u16.bind fun n => indexFree_offset.bind fun start =>
      (indexFree_take n.toNat).bind fun bytes => ?_
    split
    · exact indexFree_pure _
    · exact indexFree_fail (by simp)
  case case2 | case3 => exact indexFree_u32.map _
  case case4 | case5 => exact indexFree_u64.map _
  case case12 => exact indexFree_u8.bind fun _ => indexFree_u16.map _
  case case6 | case7 | case13 | case16 | case17 => exact indexFree_u16.map _
  case case8 | case9 | case10 | case11 | case14 | case15 =>
    exact indexFree_u16.bind fun _ => indexFree_u16.map _
  case case18 => exact indexFree_fail (by simp)

theorem ConstantPool.indexFree_readSlots (n : Nat) : IndexFree (readSlots n) := by
  fun_induction readSlots n with
  | case1 => exact indexFree_pure []
  | case2 => exact Constant.indexFree_read.map _
  | case3 n ihwide ih =>
    refine Constant.indexFree_read.bind fun k => ?_
    split
    · exact ihwide.map _
    · exact ih.map _

theorem Attribute.indexFree_read : IndexFree Attribute.read :=
  indexFree_u16.bind fun _ => indexFree_u32.bind fun n => (indexFree_take n.toNat).map _

theorem Member.indexFree_read : IndexFree Member.read :=
  indexFree_u16.bind fun _ => indexFree_u16.bind fun _ => indexFree_u16.bind fun _ =>
    Attribute.indexFree_read.table.map _

theorem ClassFile.indexFree_read : IndexFree ClassFile.read := by
  have hmagic : IndexFree readMagic := by
    refine indexFree_u32.bind fun magic => ?_
    split
    · exact indexFree_pure _
    · exact indexFree_fail (by simp)
  have hpool : IndexFree ConstantPool.read :=
    indexFree_u16.bind fun n => (ConstantPool.indexFree_readSlots (n.toNat - 1)).map _
  exact hmagic.bind fun _ => indexFree_u16.bind fun _ => indexFree_u16.bind fun _ =>
    hpool.bind fun _ => indexFree_u16.bind fun _ => indexFree_u16.bind fun _ =>
    indexFree_u16.bind fun _ => indexFree_u16.table.bind fun _ =>
    Member.indexFree_read.table.bind fun _ => Member.indexFree_read.table.bind fun _ =>
    Attribute.indexFree_read.table.map _

theorem ClassFile.parse_of_read_error {bytes : List UInt8} {e : ParseError}
    (h : read.run bytes = .error e) : parse bytes = .error e := by
  rw [parse, h]
  rfl

/-- A class file is consumed completely when it is parsed or only an index of it is refused. -/
theorem ClassFile.exists_read_iff {bytes : List UInt8} :
    (∃ file, read.run bytes = .ok file) ↔
      (∃ file, parse bytes = .ok file) ∨ ∃ cause, parse bytes = .error (.badConstant cause) := by
  constructor
  · rintro ⟨file, h⟩
    cases hc : file.checkIndices with
    | ok _ => exact .inl ⟨file, parse_eq_ok_iff.2 ⟨h, hc⟩⟩
    | error cause =>
      refine .inr ⟨cause, ?_⟩
      simp only [parse, h, hc, bind, Except.bind]
      rfl
  · rintro (⟨file, h⟩ | ⟨cause, h⟩)
    · exact ⟨file, (parse_eq_ok_iff.1 h).1⟩
    · cases hr : read.run bytes with
      | ok file => exact ⟨file, rfl⟩
      | error e =>
        rw [parse_of_read_error hr] at h
        cases h
        exact absurd hr (indexFree_read.run bytes cause)

/-! ### Where the format ends -/

/-- The parser takes the items together and neither less nor more. -/
structure Delimits {α : Type} (parse : List UInt8 → Except ParseError α)
    (items : List (List UInt8)) : Prop where
  truncated : ∀ bytes, bytes <+: items.flatten → bytes ≠ items.flatten →
    ∃ offset, parse bytes = .error (.truncated offset) ∧ BreaksAt items bytes.length offset
  trailing : ∀ more ≠ [],
    parse (items.flatten ++ more) = .error (.trailingBytes more.length)

theorem Reader.Itemizes.delimits {α : Type} {p : Reader α} {items : List (List UInt8)} {a : α}
    (h : Itemizes p items a) : Delimits p.run items where
  truncated bytes hp hne := by
    obtain ⟨k, hk, hb⟩ := h.stops (c := Cursor.start bytes) hp hne
    refine ⟨k, ?_, hb⟩
    rw [Reader.run, hk]
    simp [Cursor.start]
  trailing more hne := by
    have hread : p (Cursor.start (items.flatten ++ more)) =
        .ok (a, ⟨items.flatten.length, more⟩) := h.reads ⟨rfl, by simp [Cursor.start]⟩
    simp [Reader.run, hread, hne]

theorem Delimits.of_errors {α β : Type} {parse : List UInt8 → Except ParseError α}
    {parse' : List UInt8 → Except ParseError β} {items : List (List UInt8)}
    (h : Delimits parse items)
    (he : ∀ bytes e, parse bytes = .error e → parse' bytes = .error e) :
    Delimits parse' items where
  truncated bytes hp hne := by
    obtain ⟨offset, ho, hb⟩ := h.truncated bytes hp hne
    exact ⟨offset, he bytes _ ho, hb⟩
  trailing more hne := he _ _ (h.trailing more hne)

/-- Every class file that is consumed completely, and every payload of `Code` and `ConstantValue`
that is accepted, is a sequence of items that delimits itself. -/
theorem parsers_delimit_items :
    (∀ bytes, ((∃ file, ClassFile.parse bytes = .ok file) ∨
        ∃ cause, ClassFile.parse bytes = .error (.badConstant cause)) →
      ∃ file count, ClassFile.read.run bytes = .ok file ∧
        bytes = (ClassFile.items count file).flatten ∧
        Delimits ClassFile.parse (ClassFile.items count file)) ∧
    (∀ payload body, Code.parse payload = .ok body →
      payload = body.items.flatten ∧ Delimits Code.parse body.items) ∧
    ∀ payload index, ConstantValue.parse payload = .ok index →
      payload = [Bytes.u16 index].flatten ∧ Delimits ConstantValue.parse [Bytes.u16 index] := by
  refine ⟨fun bytes h => ?_, fun payload body h => ?_, fun payload index h => ?_⟩
  · obtain ⟨file, hrun⟩ := ClassFile.exists_read_iff.2 h
    obtain ⟨c', hread, hrest⟩ := Reader.run_eq_ok_iff.1 hrun
    obtain ⟨hfits, count, hl, hspan⟩ := ClassFile.read_eq_ok_iff.1 hread
    refine ⟨file, count, hrun, ?_, ?_⟩
    · rw [ClassFile.flatten_items]
      exact Cursor.eq_of_spans_start hspan hrest
    · exact (ClassFile.itemizes_read hfits hl).delimits.of_errors
        fun _ _ => ClassFile.parse_of_read_error
  · obtain ⟨c', hread, hrest⟩ := Reader.run_eq_ok_iff.1 h
    obtain ⟨hfits, hspan⟩ := (Code.reads_read _ _ _).1 hread
    refine ⟨?_, (Code.itemizes_read hfits).delimits⟩
    rw [Code.flatten_items]
    exact Cursor.eq_of_spans_start hspan hrest
  · obtain ⟨c', hread, hrest⟩ := Reader.run_eq_ok_iff.1 h
    refine ⟨?_, (itemizes_u16 index).delimits⟩
    rw [List.flatten_singleton]
    exact Cursor.eq_of_spans_start (Reader.u16_eq_ok_iff.1 hread) hrest

/-- A file with one text, which is no class for it to be. -/
def ClassFile.oneText : ClassFile where
  magic := magicNumber
  minor := 0
  major := 52
  pool := ⟨[.utf8 "A"]⟩
  flags := 0
  thisClass := 1
  superClass := 0
  interfaces := []
  fields := []
  methods := []
  attributes := []

/-- A method body that returns at once. -/
def Code.onlyReturn : Code := ⟨0, 1, [0xB1], [], []⟩

theorem oneText_delimits :
    (∃ file count, ClassFile.read.run ClassFile.oneText.encode = .ok file ∧
      ClassFile.oneText.encode = (ClassFile.items count file).flatten ∧
      Delimits ClassFile.parse (ClassFile.items count file)) ∧
    Delimits Code.parse Code.onlyReturn.items ∧ Delimits ConstantValue.parse [Bytes.u16 5] := by
  have hfile : ClassFile.parse ClassFile.oneText.encode =
      .error (.badConstant (.mismatch 1 .classRef .utf8)) := by decide +kernel
  have hbody : Code.parse Code.onlyReturn.encode = .ok Code.onlyReturn := by decide +kernel
  have hindex : ConstantValue.parse [0, 5] = .ok 5 := by decide +kernel
  exact ⟨parsers_delimit_items.1 _ (.inr ⟨_, hfile⟩), (parsers_delimit_items.2.1 _ _ hbody).2,
    (parsers_delimit_items.2.2 _ _ hindex).2⟩

-- cut behind the tag of the text, in its length, and behind its length
example : [11, 12, 13].map (fun n => ClassFile.parse (ClassFile.oneText.encode.take n)) =
    [.error (.truncated 11), .error (.truncated 11), .error (.truncated 13)] := by
  decide +kernel

end ClassLoading
