import ClassLoading.Proofs.ModifiedUtf8
import ClassLoading.Proofs.Reading

/-! The format of the constant pool. Reading a constant inverts writing it, for the constants whose
lengths fit their fields; and reading a pool inverts writing it, for the pools in which the unusable
slots are those behind wide constants and the last slot may be wide by itself. -/
namespace ClassLoading

open Reader (pure_eq_ok_iff offset_eq_ok_iff take_eq_ok_iff u8_eq_ok_iff u16_eq_ok_iff
  u32_eq_ok_iff u64_eq_ok_iff fail_ne_ok Reads)

/-! ### Constants -/

namespace Constant

/-- The constant can stand in a file: it is usable, and its text is not too long. -/
def Fits : Constant → Prop
  | .utf8 text => (ModifiedUtf8.encode text).length < 2 ^ 16
  | .unusable => False
  | _ => True

theorem Fits.ne_unusable {k : Constant} (h : k.Fits) : k ≠ .unusable := by
  rintro rfl
  exact h

theorem readText_eq_ok_iff {c c' : Cursor} {k : Constant} :
    readText c = .ok (k, c') ↔
      ∃ text, k = .utf8 text ∧ (ModifiedUtf8.encode text).length < 2 ^ 16 ∧
        c.Spans (Bytes.u16 (ModifiedUtf8.encode text).length.toUInt16 ++
          ModifiedUtf8.encode text) c' := by
  simp only [readText, Reader.bind_eq_ok_iff, u16_eq_ok_iff, offset_eq_ok_iff, take_eq_ok_iff,
    Cursor.spans_append]
  constructor
  · rintro ⟨n, c₁, h₁, start, c₂, ⟨-, rfl⟩, bytes, c₃, ⟨hl, h₃⟩, h⟩
    cases ht : ModifiedUtf8.decode? bytes with
    | none =>
      rw [ht] at h
      exact absurd h fail_ne_ok
    | some text =>
      rw [ht, pure_eq_ok_iff, Cursor.spans_nil] at h
      obtain ⟨rfl, rfl⟩ := h
      obtain rfl := ModifiedUtf8.decode?_eq_some_iff.1 ht
      have hn : (ModifiedUtf8.encode text).length.toUInt16 = n := by rw [hl]; simp
      refine ⟨text, rfl, ?_, c₂, ?_, h₃⟩
      · rw [hl]
        exact n.toNat_lt
      · rw [hn]
        exact h₁
  · rintro ⟨text, rfl, hlt, c₁, h₁, h₂⟩
    refine ⟨_, c₁, h₁, _, c₁, ⟨rfl, rfl⟩, _, c', ⟨(toNat_toUInt16 hlt).symm, h₂⟩, ?_⟩
    rw [ModifiedUtf8.decode?_eq_some_iff.2 rfl]
    rfl

/-- The tag of a constant and what follows it. -/
theorem spans_tagged {tag : UInt8} {n : Nat} {c c₁ c' : Cursor} {bytes : List UInt8}
    (ht : tag.toNat = n) (h₁ : c.Spans (Bytes.u8 tag) c₁) (h₂ : c₁.Spans bytes c') :
    c.Spans (Bytes.u8 (UInt8.ofNat n) ++ bytes) c' := by
  subst ht
  rw [UInt8.ofNat_toNat]
  exact h₁.append h₂

/-- A constant that is read goes over its encoding, tag and payload. -/
theorem spans_of_readTagged {start : Nat} {tag : UInt8} {c c₁ c' : Cursor} {k : Constant}
    (h₁ : c.Spans (Bytes.u8 tag) c₁) (h : readTagged start tag c₁ = .ok (k, c')) :
    k.Fits ∧ c.Spans k.encode c' := by
  revert h
  fun_cases readTagged start tag <;> intro h
  case case1 ht =>
    obtain ⟨text, rfl, hlt, h₂⟩ := readText_eq_ok_iff.1 h
    refine ⟨hlt, ?_⟩
    rw [encode, List.append_assoc]
    exact spans_tagged ht h₁ h₂
  case case2 ht =>
    obtain ⟨n, hn, rfl⟩ := Reader.map_eq_ok_iff.1 h
    refine ⟨trivial, ?_⟩
    rw [encode, UInt32.toUInt32_toInt32]
    exact spans_tagged ht h₁ (u32_eq_ok_iff.1 hn)
  case case3 ht =>
    obtain ⟨n, hn, rfl⟩ := Reader.map_eq_ok_iff.1 h
    exact ⟨trivial, spans_tagged ht h₁ (u32_eq_ok_iff.1 hn)⟩
  case case4 ht =>
    obtain ⟨n, hn, rfl⟩ := Reader.map_eq_ok_iff.1 h
    refine ⟨trivial, ?_⟩
    rw [encode, UInt64.toUInt64_toInt64]
    exact spans_tagged ht h₁ (u64_eq_ok_iff.1 hn)
  case case5 ht =>
    obtain ⟨n, hn, rfl⟩ := Reader.map_eq_ok_iff.1 h
    exact ⟨trivial, spans_tagged ht h₁ (u64_eq_ok_iff.1 hn)⟩
  case case12 ht =>
    obtain ⟨a, b, c₂, ha, hb, rfl⟩ := Reader.map₂_eq_ok_iff.1 h
    exact ⟨trivial, (spans_tagged ht h₁ (u8_eq_ok_iff.1 ha)).append (u16_eq_ok_iff.1 hb)⟩
  -- the constants that hold one index
  case case6 ht | case7 ht | case13 ht | case16 ht | case17 ht =>
    obtain ⟨n, hn, rfl⟩ := Reader.map_eq_ok_iff.1 h
    exact ⟨trivial, spans_tagged ht h₁ (u16_eq_ok_iff.1 hn)⟩
  -- the constants that hold two indices
  case case8 ht | case9 ht | case10 ht | case11 ht | case14 ht | case15 ht =>
    obtain ⟨a, b, c₂, ha, hb, rfl⟩ := Reader.map₂_eq_ok_iff.1 h
    exact ⟨trivial, (spans_tagged ht h₁ (u16_eq_ok_iff.1 ha)).append (u16_eq_ok_iff.1 hb)⟩
  case case18 => exact absurd h fail_ne_ok

theorem read_eq_readTagged {tag : UInt8} {c c₁ : Cursor} (h : c.Spans (Bytes.u8 tag) c₁) :
    Constant.read c = readTagged c.offset tag c₁ := by
  have hu := u8_eq_ok_iff.2 h
  show (Reader.u8 >>= fun tag => readTagged c.offset tag) c = readTagged c.offset tag c₁
  rw [Reader.bind_apply, hu]

theorem read_of_spans {k : Constant} {c c' : Cursor} (hk : k.Fits) (h : c.Spans k.encode c') :
    Constant.read c = .ok (k, c') := by
  cases k with
  | unusable => exact hk.elim
  | utf8 text =>
    rw [encode, List.append_assoc, Cursor.spans_append] at h
    obtain ⟨c₁, h₁, h₂⟩ := h
    exact (read_eq_readTagged h₁).trans (readText_eq_ok_iff.2 ⟨text, rfl, hk, h₂⟩)
  | integer value =>
    obtain ⟨c₁, h₁, h₂⟩ := Cursor.spans_append.1 h
    exact (read_eq_readTagged h₁).trans
      (Reader.map_eq_ok_iff.2 ⟨_, u32_eq_ok_iff.2 h₂, by rw [Int32.toInt32_toUInt32]⟩)
  | float bits =>
    obtain ⟨c₁, h₁, h₂⟩ := Cursor.spans_append.1 h
    exact (read_eq_readTagged h₁).trans (Reader.map_eq_ok_iff.2 ⟨_, u32_eq_ok_iff.2 h₂, rfl⟩)
  | long value =>
    obtain ⟨c₁, h₁, h₂⟩ := Cursor.spans_append.1 h
    exact (read_eq_readTagged h₁).trans
      (Reader.map_eq_ok_iff.2 ⟨_, u64_eq_ok_iff.2 h₂, by rw [Int64.toInt64_toUInt64]⟩)
  | double bits =>
    obtain ⟨c₁, h₁, h₂⟩ := Cursor.spans_append.1 h
    exact (read_eq_readTagged h₁).trans (Reader.map_eq_ok_iff.2 ⟨_, u64_eq_ok_iff.2 h₂, rfl⟩)
  | classRef _ | string _ | methodType _ | moduleRef _ | packageRef _ =>
    obtain ⟨c₁, h₁, h₂⟩ := Cursor.spans_append.1 h
    exact (read_eq_readTagged h₁).trans (Reader.map_eq_ok_iff.2 ⟨_, u16_eq_ok_iff.2 h₂, rfl⟩)
  | methodHandle kind reference =>
    obtain ⟨c₂, h₂, h₃⟩ := Cursor.spans_append.1 h
    obtain ⟨c₁, h₁, h₂⟩ := Cursor.spans_append.1 h₂
    exact (read_eq_readTagged h₁).trans
      (Reader.map₂_eq_ok_iff.2 ⟨_, _, c₂, u8_eq_ok_iff.2 h₂, u16_eq_ok_iff.2 h₃, rfl⟩)
  | fieldRef _ _ | methodRef _ _ | interfaceMethodRef _ _ | nameAndType _ _ | dynamic _ _
  | invokeDynamic _ _ =>
    obtain ⟨c₂, h₂, h₃⟩ := Cursor.spans_append.1 h
    obtain ⟨c₁, h₁, h₂⟩ := Cursor.spans_append.1 h₂
    exact (read_eq_readTagged h₁).trans
      (Reader.map₂_eq_ok_iff.2 ⟨_, _, c₂, u16_eq_ok_iff.2 h₂, u16_eq_ok_iff.2 h₃, rfl⟩)

theorem reads_read : Reads Constant.read Fits encode := by
  intro c c' k
  constructor
  · intro h
    rw [Constant.read, Reader.bind_eq_ok_iff] at h
    obtain ⟨start, c₁, h₀, h⟩ := h
    obtain ⟨rfl, rfl⟩ := offset_eq_ok_iff.1 h₀
    obtain ⟨tag, c₂, h₁, h⟩ := Reader.bind_eq_ok_iff.1 h
    exact spans_of_readTagged (u8_eq_ok_iff.1 h₁) h
  · rintro ⟨hk, h⟩
    exact read_of_spans hk h

end Constant

/-! ### Slots -/

namespace ConstantPool

/-- Unusable slots stand behind the wide constants, and nowhere else. -/
def Spaced (pool : ConstantPool) : Prop :=
  ∀ i k, pool.slots[i]? = some k →
    (k = .unusable ↔ ∃ j wide, j + 1 = i ∧ pool.slots[j]? = some wide ∧ wide.isWide = true)

/-- The same rule slot by slot, given whether the slot in front is wide. -/
def SpacedFrom : Bool → List Constant → Prop
  | _, [] => True
  | afterWide, k :: rest => (k = .unusable ↔ afterWide = true) ∧ SpacedFrom k.isWide rest

theorem spacedFrom_iff {afterWide : Bool} {slots : List Constant} :
    SpacedFrom afterWide slots ↔
      ∀ i k, slots[i]? = some k →
        (k = .unusable ↔ i = 0 ∧ afterWide = true ∨
          ∃ j wide, j + 1 = i ∧ slots[j]? = some wide ∧ wide.isWide = true) := by
  induction slots generalizing afterWide with
  | nil => simp [SpacedFrom]
  | cons first rest ih =>
    rw [SpacedFrom, ih]
    constructor
    · rintro ⟨hf, hrest⟩ i k hi
      cases i with
      | zero =>
        obtain rfl : first = k := by simpa using hi
        simpa using hf
      | succ i =>
        rw [hrest i k (by simpa using hi)]
        cases i with
        | zero => simp
        | succ i => simp [Nat.add_right_cancel_iff]
    · intro h
      refine ⟨by simpa using h 0 first (by simp), fun i k hi => ?_⟩
      rw [h (i + 1) k (by simpa using hi)]
      cases i with
      | zero => simp
      | succ i => simp [Nat.add_right_cancel_iff]

theorem spaced_iff {pool : ConstantPool} : pool.Spaced ↔ SpacedFrom false pool.slots := by
  simp [Spaced, spacedFrom_iff]

/-- The constants of a pool that are usable can be written. -/
def Writable (slots : List Constant) : Prop := ∀ k ∈ slots, k ≠ .unusable → k.Fits

theorem writable_cons {k : Constant} {slots : List Constant} (hk : k.Fits)
    (h : Writable slots) : Writable (k :: slots) := by
  intro k' hm hu
  rcases List.mem_cons.1 hm with rfl | hm
  · exact hk
  · exact h k' hm hu

theorem writable_unusable {slots : List Constant} (h : Writable slots) :
    Writable (.unusable :: slots) := by
  intro k hm hu
  rcases List.mem_cons.1 hm with rfl | hm
  · exact absurd rfl hu
  · exact h k hm hu

theorem readSlots_eq_ok_iff {n : Nat} {c c' : Cursor} {slots : List Constant} :
    readSlots n c = .ok (slots, c') ↔
      slots.length = n ∧ SpacedFrom false slots ∧ Writable slots ∧
        c.Spans (slots.flatMap Constant.encode) c' := by
  induction n using Nat.strong_induction_on generalizing c c' slots with
  | _ n ih =>
  match n with
  | 0 =>
    rw [readSlots, pure_eq_ok_iff]
    constructor
    · rintro ⟨rfl, h⟩
      exact ⟨rfl, trivial, by simp [Writable], h⟩
    · rintro ⟨hl, -, -, h⟩
      obtain rfl := List.length_eq_zero_iff.1 hl
      exact ⟨rfl, h⟩
  | 1 =>
    rw [readSlots, Reader.map_eq_ok_iff]
    simp only [Constant.reads_read _ _ _]
    constructor
    · rintro ⟨k, ⟨hk, h⟩, rfl⟩
      refine ⟨rfl, ?_, ?_, ?_⟩
      · simpa [SpacedFrom] using hk.ne_unusable
      · simpa [Writable] using fun _ => hk
      · simpa using h
    · rintro ⟨hl, hs, hw, h⟩
      obtain ⟨k, rfl⟩ := List.length_eq_one_iff.1 hl
      have hk : k ≠ .unusable := by simpa [SpacedFrom] using hs
      exact ⟨k, ⟨hw k (by simp) hk, by simpa using h⟩, rfl⟩
  | n + 2 =>
    rw [readSlots, Reader.bind_eq_ok_iff]
    simp only [Constant.reads_read _ _ _]
    constructor
    · rintro ⟨k, c₁, ⟨hk, h₁⟩, h⟩
      cases hwide : k.isWide with
      | true =>
        rw [hwide, if_pos rfl, Reader.map_eq_ok_iff] at h
        obtain ⟨rest, hr, rfl⟩ := h
        obtain ⟨hl, hs, hw, h₂⟩ := (ih n (by omega)).1 hr
        refine ⟨by simp [hl], ?_, writable_cons hk (writable_unusable hw), ?_⟩
        · have hu : Constant.unusable.isWide = false := rfl
          simpa [SpacedFrom, hk.ne_unusable, hwide, hu] using hs
        · simpa [List.flatMap_cons, Constant.encode] using h₁.append h₂
      | false =>
        rw [hwide, if_neg (by simp), Reader.map_eq_ok_iff] at h
        obtain ⟨rest, hr, rfl⟩ := h
        obtain ⟨hl, hs, hw, h₂⟩ := (ih (n + 1) (by omega)).1 hr
        refine ⟨by simp [hl], ?_, writable_cons hk hw, ?_⟩
        · simpa [SpacedFrom, hk.ne_unusable, hwide] using hs
        · simpa [List.flatMap_cons] using h₁.append h₂
    · rintro ⟨hl, hs, hw, h⟩
      obtain ⟨k, next, rest, rfl⟩ : ∃ k next rest, slots = k :: next :: rest := by
        match slots, hl with
        | k :: next :: rest, _ => exact ⟨k, next, rest, rfl⟩
      obtain ⟨hk, hs⟩ := hs
      have hk' : k ≠ .unusable := by simpa using hk
      rw [List.flatMap_cons, Cursor.spans_append] at h
      obtain ⟨c₁, h₁, h₂⟩ := h
      simp only [List.length_cons, Nat.add_right_cancel_iff] at hl
      refine ⟨k, c₁, ⟨hw k (by simp) hk', h₁⟩, ?_⟩
      cases hwide : k.isWide with
      | true =>
        rw [hwide] at hs
        obtain rfl : next = .unusable := by simpa using hs.1
        rw [if_pos rfl, Reader.map_eq_ok_iff]
        exact ⟨rest, (ih n (by omega)).2 ⟨hl, hs.2, fun k hm => hw k (by simp [hm]),
          by simpa [List.flatMap_cons, Constant.encode] using h₂⟩, rfl⟩
      | false =>
        rw [hwide] at hs
        rw [if_neg (by simp), Reader.map_eq_ok_iff]
        exact ⟨next :: rest, (ih (n + 1) (by omega)).2 ⟨by simp [hl], hs,
          fun k hm => hw k (List.mem_cons_of_mem _ hm), h₂⟩, rfl⟩

/-- The count in front of the constants is one more than the slots; a count of zero is read as one
of one. -/
theorem read_eq_ok_iff {c c' : Cursor} {pool : ConstantPool} :
    read c = .ok (pool, c') ↔
      ∃ n : UInt16, pool.slots.length = n.toNat - 1 ∧ pool.Spaced ∧ Writable pool.slots ∧
        c.Spans (Bytes.u16 n ++ pool.slots.flatMap Constant.encode) c' := by
  simp only [read, Reader.bind_eq_ok_iff, u16_eq_ok_iff, readSlots_eq_ok_iff, pure_eq_ok_iff,
    Cursor.spans_nil, Cursor.spans_append, spaced_iff]
  constructor
  · rintro ⟨n, c₁, h₁, slots, c₂, ⟨hl, hs, hw, h₂⟩, rfl, rfl⟩
    exact ⟨n, hl, hs, hw, c₁, h₁, h₂⟩
  · rintro ⟨n, hl, hs, hw, c₁, h₁, h₂⟩
    exact ⟨n, c₁, h₁, pool.slots, c', ⟨hl, hs, hw, h₂⟩, rfl, rfl⟩

end ConstantPool

end ClassLoading
