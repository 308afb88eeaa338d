import Mathlib.Tactic.Linarith
import Mathlib.Tactic.Positivity
import Mathlib.Tactic.Ring
import ClassLoading.ClassFile.Encoding

/-! Readers against encoders. A reader that succeeds has gone over some bytes, from one cursor to a
later one, and every reader of the class file format goes over exactly the encoding of the value it
gives. Such facts are stated as equivalences with `Cursor.Spans`, so they compose along a chain of
readers by splitting the bytes. -/
namespace ClassLoading

theorem toNat_toUInt16 {n : Nat} (h : n < 2 ^ 16) : n.toUInt16.toNat = n := by simpa using h

theorem toNat_toUInt32 {n : Nat} (h : n < 2 ^ 32) : n.toUInt32.toNat = n := by simpa using h

/-- The bytes that lie between two cursors. -/
def Cursor.Spans (c : Cursor) (bytes : List UInt8) (c' : Cursor) : Prop :=
  c.rest = bytes ++ c'.rest ∧ c'.offset = c.offset + bytes.length

namespace Cursor

theorem spans_nil {c c' : Cursor} : c.Spans [] c' ↔ c' = c := by
  obtain ⟨o, r⟩ := c
  obtain ⟨o', r'⟩ := c'
  simp only [Spans, List.nil_append, List.length_nil, Nat.add_zero, Cursor.mk.injEq]
  exact ⟨fun h => ⟨h.2, h.1.symm⟩, fun h => ⟨h.2.symm, h.1⟩⟩

theorem Spans.append {c c₁ c₂ : Cursor} {a b : List UInt8} (h₁ : c.Spans a c₁)
    (h₂ : c₁.Spans b c₂) : c.Spans (a ++ b) c₂ := by
  refine ⟨?_, ?_⟩
  · rw [h₁.1, h₂.1, List.append_assoc]
  · rw [h₂.2, h₁.2, List.length_append, Nat.add_assoc]

theorem spans_append {c c₂ : Cursor} {a b : List UInt8} :
    c.Spans (a ++ b) c₂ ↔ ∃ c₁, c.Spans a c₁ ∧ c₁.Spans b c₂ := by
  constructor
  · intro h
    refine ⟨⟨c.offset + a.length, b ++ c₂.rest⟩, ⟨?_, rfl⟩, rfl, ?_⟩
    · rw [h.1, List.append_assoc]
    · rw [h.2, List.length_append, Nat.add_assoc]
  · rintro ⟨c₁, h₁, h₂⟩
    exact h₁.append h₂

theorem eq_of_spans_start {bytes b : List UInt8} {c : Cursor} (h : (start bytes).Spans b c)
    (hr : c.rest = []) : bytes = b := by
  have := h.1
  rwa [hr, List.append_nil] at this

theorem spans_start (bytes : List UInt8) : (start bytes).Spans bytes ⟨bytes.length, []⟩ := by
  simp [Spans, start]

end Cursor

/-! ### Digits in base 256 -/

namespace Bytes

@[simp] theorem length_bigEndian (width n : Nat) : (bigEndian width n).length = width := by
  induction width with
  | zero => rfl
  | succ width ih => simp [bigEndian, ih]

/-- What stands above the digits that are written does not matter. -/
theorem bigEndian_add_mul (width k n : Nat) :
    bigEndian width (k * 256 ^ width + n) = bigEndian width n := by
  induction width generalizing k with
  | zero => rfl
  | succ width ih =>
    have hpow : k * 256 ^ (width + 1) = k * 256 * 256 ^ width := by ring
    rw [bigEndian, bigEndian, hpow, ih]
    congr 1
    rw [Nat.add_comm, Nat.add_mul_div_right _ _ (by positivity)]
    apply UInt8.toNat_inj.1
    simp [UInt8.toNat_ofNat']

end Bytes

namespace Reader

theorem bigEndian_foldl (bytes : List UInt8) (n : Nat) :
    bytes.foldl (fun n b => n * 256 + b.toNat) n = n * 256 ^ bytes.length + bigEndian bytes := by
  induction bytes generalizing n with
  | nil => simp [bigEndian]
  | cons b bytes ih =>
    rw [bigEndian, List.foldl_cons, List.foldl_cons, ih, ih (0 * 256 + b.toNat), List.length_cons]
    ring

theorem bigEndian_cons (b : UInt8) (bytes : List UInt8) :
    bigEndian (b :: bytes) = b.toNat * 256 ^ bytes.length + bigEndian bytes := by
  rw [bigEndian, List.foldl_cons, bigEndian_foldl]
  simp

theorem bigEndian_lt (bytes : List UInt8) : bigEndian bytes < 256 ^ bytes.length := by
  induction bytes with
  | nil => simp [bigEndian]
  | cons b bytes ih =>
    have hb : b.toNat < 256 := b.toNat_lt
    rw [bigEndian_cons, List.length_cons, pow_succ]
    nlinarith [Nat.zero_le (bigEndian bytes)]

theorem bigEndian_bytes {width n : Nat} (h : n < 256 ^ width) :
    bigEndian (Bytes.bigEndian width n) = n := by
  induction width generalizing n with
  | zero =>
    have : n = 0 := by simpa using h
    rw [this]
    rfl
  | succ width ih =>
    have hpos : 0 < 256 ^ width := by positivity
    have hq : n / 256 ^ width < 256 := by
      rw [Nat.div_lt_iff_lt_mul hpos, ← pow_succ']
      exact h
    have hmod := Nat.div_add_mod' n (256 ^ width)
    have htail : Bytes.bigEndian width n = Bytes.bigEndian width (n % 256 ^ width) := by
      conv_lhs => rw [← hmod]
      exact Bytes.bigEndian_add_mul ..
    rw [Bytes.bigEndian, bigEndian_cons, Bytes.length_bigEndian, htail, ih (Nat.mod_lt _ hpos)]
    rw [UInt8.toNat_ofNat', Nat.mod_eq_of_lt hq]
    exact hmod

theorem bytes_bigEndian (bytes : List UInt8) :
    Bytes.bigEndian bytes.length (bigEndian bytes) = bytes := by
  induction bytes with
  | nil => rfl
  | cons b bytes ih =>
    have hlt := bigEndian_lt bytes
    rw [List.length_cons, Bytes.bigEndian, bigEndian_cons, Bytes.bigEndian_add_mul, ih]
    congr 1
    rw [Nat.add_comm, Nat.add_mul_div_right _ _ (by positivity), Nat.div_eq_of_lt hlt]
    simp

/-! ### Single items -/

variable {α β γ : Type}

theorem bind_eq_ok_iff {p : Reader α} {f : α → Reader β} {c c' : Cursor} {b : β} :
    (p >>= f) c = .ok (b, c') ↔ ∃ a c₁, p c = .ok (a, c₁) ∧ f a c₁ = .ok (b, c') := by
  rw [bind_apply]
  constructor
  · intro h
    split at h
    · next a c₁ hp => exact ⟨a, c₁, hp, h⟩
    · cases h
  · rintro ⟨a, c₁, hp, hf⟩
    rw [hp]
    exact hf

theorem pure_eq_ok_iff {a b : α} {c c' : Cursor} :
    (Pure.pure a : Reader α) c = .ok (b, c') ↔ b = a ∧ c.Spans [] c' := by
  simp only [pure_apply, Except.ok.injEq, Prod.mk.injEq, Cursor.spans_nil]
  exact ⟨fun h => ⟨h.1.symm, h.2.symm⟩, fun h => ⟨h.1.symm, h.2.symm⟩⟩

theorem map_eq_ok_iff {p : Reader α} {f : α → β} {c c' : Cursor} {b : β} :
    (do return f (← p) : Reader β) c = .ok (b, c') ↔ ∃ a, p c = .ok (a, c') ∧ b = f a := by
  simp only [bind_eq_ok_iff, pure_eq_ok_iff, Cursor.spans_nil]
  constructor
  · rintro ⟨a, c₁, hp, rfl, rfl⟩
    exact ⟨a, hp, rfl⟩
  · rintro ⟨a, hp, rfl⟩
    exact ⟨a, c', hp, rfl, rfl⟩

theorem map₂_eq_ok_iff {p : Reader α} {q : Reader β} {f : α → β → γ} {c c' : Cursor} {x : γ} :
    (do return f (← p) (← q) : Reader γ) c = .ok (x, c') ↔
      ∃ a b c₁, p c = .ok (a, c₁) ∧ q c₁ = .ok (b, c') ∧ x = f a b := by
  simp only [bind_eq_ok_iff, pure_eq_ok_iff, Cursor.spans_nil]
  constructor
  · rintro ⟨a, c₁, hp, b, c₂, hq, rfl, rfl⟩
    exact ⟨a, b, c₁, hp, hq, rfl⟩
  · rintro ⟨a, b, c₁, hp, hq, rfl⟩
    exact ⟨a, c₁, hp, b, c', hq, rfl, rfl⟩

theorem fail_ne_ok {e : ParseError} {c c' : Cursor} {a : α} :
    (fail e : Reader α) c ≠ .ok (a, c') := nofun

theorem offset_eq_ok_iff {c c' : Cursor} {n : Nat} :
    offset c = .ok (n, c') ↔ n = c.offset ∧ c' = c := by
  simp only [offset, Except.ok.injEq, Prod.mk.injEq]
  exact ⟨fun h => ⟨h.1.symm, h.2.symm⟩, fun h => ⟨h.1.symm, h.2.symm⟩⟩

theorem take_eq_ok_iff {n : Nat} {c c' : Cursor} {bytes : List UInt8} :
    take n c = .ok (bytes, c') ↔ bytes.length = n ∧ c.Spans bytes c' := by
  obtain ⟨o, r⟩ := c
  obtain ⟨o', r'⟩ := c'
  simp only [take, Cursor.Spans]
  constructor
  · intro h
    split at h
    · next hn =>
      have hle := hasBytes_iff.1 hn
      simp only [Except.ok.injEq, Prod.mk.injEq, Cursor.mk.injEq] at h
      obtain ⟨rfl, rfl, rfl⟩ := h
      have hlen : (r.take n).length = n := by rw [List.length_take]; omega
      exact ⟨hlen, (List.take_append_drop n r).symm, by rw [hlen]⟩
    · cases h
  · rintro ⟨rfl, rfl, rfl⟩
    rw [if_pos (hasBytes_iff.2 (by simp))]
    simp

/-- A reader of `width` bytes that turns them into a number goes over the digits of the number. -/
theorem number_eq_ok_iff (width : Nat) (ofNat : Nat → α) (toNat : α → Nat)
    (hof : ∀ n < 256 ^ width, toNat (ofNat n) = n) (hto : ∀ a, ofNat (toNat a) = a)
    (hlt : ∀ a, toNat a < 256 ^ width) {c c' : Cursor} {a : α} :
    (do return ofNat (bigEndian (← take width)) : Reader α) c = .ok (a, c') ↔
      c.Spans (Bytes.bigEndian width (toNat a)) c' := by
  simp only [bind_eq_ok_iff, take_eq_ok_iff, pure_eq_ok_iff, Cursor.spans_nil]
  constructor
  · rintro ⟨bytes, c₁, ⟨rfl, hs⟩, rfl, rfl⟩
    rw [hof _ (bigEndian_lt bytes), bytes_bigEndian]
    exact hs
  · intro hs
    refine ⟨_, c', ⟨Bytes.length_bigEndian .., hs⟩, ?_, rfl⟩
    rw [bigEndian_bytes (hlt a), hto]

theorem u8_eq_ok_iff {c c' : Cursor} {n : UInt8} :
    u8 c = .ok (n, c') ↔ c.Spans (Bytes.u8 n) c' := by
  rw [u8, number_eq_ok_iff 1 Nat.toUInt8 UInt8.toNat (fun n hn => by simpa using hn) (by simp)
    fun a => a.toNat_lt]
  simp [Bytes.bigEndian, Bytes.u8]

theorem u16_eq_ok_iff {c c' : Cursor} {n : UInt16} :
    u16 c = .ok (n, c') ↔ c.Spans (Bytes.u16 n) c' :=
  number_eq_ok_iff 2 Nat.toUInt16 UInt16.toNat (fun n hn => by simpa using hn) (by simp)
    fun a => a.toNat_lt

theorem u32_eq_ok_iff {c c' : Cursor} {n : UInt32} :
    u32 c = .ok (n, c') ↔ c.Spans (Bytes.u32 n) c' :=
  number_eq_ok_iff 4 Nat.toUInt32 UInt32.toNat (fun n hn => by simpa using hn) (by simp)
    fun a => a.toNat_lt

theorem u64_eq_ok_iff {c c' : Cursor} {n : UInt64} :
    u64 c = .ok (n, c') ↔ c.Spans (Bytes.u64 n) c' :=
  number_eq_ok_iff 8 Nat.toUInt64 UInt64.toNat (fun n hn => by simpa using hn) (by simp)
    fun a => a.toNat_lt

/-! ### Lists of items -/

/-- The reader accepts the encodings of the values that fit, whatever follows them, and nothing
else. -/
def Reads (p : Reader α) (fits : α → Prop) (encode : α → List UInt8) : Prop :=
  ∀ c c' a, p c = .ok (a, c') ↔ fits a ∧ c.Spans (encode a) c'

theorem reads_u16 : Reads u16 (fun _ => True) Bytes.u16 := fun c c' n => by
  rw [u16_eq_ok_iff, true_and]

variable {p : Reader α} {fits : α → Prop} {encode : α → List UInt8}

theorem Reads.times (hp : Reads p fits encode) {n : Nat} {c c' : Cursor} {items : List α} :
    Reader.times p n c = .ok (items, c') ↔
      items.length = n ∧ (∀ a ∈ items, fits a) ∧ c.Spans (items.flatMap encode) c' := by
  induction n generalizing c c' items with
  | zero =>
    rw [Reader.times, pure_eq_ok_iff]
    constructor
    · rintro ⟨rfl, hs⟩
      exact ⟨rfl, by simp, hs⟩
    · rintro ⟨hl, _, hs⟩
      obtain rfl := List.length_eq_zero_iff.1 hl
      exact ⟨rfl, hs⟩
  | succ n ih =>
    simp only [Reader.times, bind_eq_ok_iff, pure_eq_ok_iff, Cursor.spans_nil, hp _ _ _, ih]
    constructor
    · rintro ⟨a, c₁, ⟨ha, h₁⟩, rest, c₂, ⟨hl, hrest, h₂⟩, rfl, rfl⟩
      refine ⟨by simp [hl], ?_, ?_⟩
      · simpa using ⟨ha, hrest⟩
      · rw [List.flatMap_cons]
        exact h₁.append h₂
    · rintro ⟨hl, hall, hs⟩
      obtain ⟨a, rest, rfl⟩ := List.exists_cons_of_length_eq_add_one hl
      rw [List.flatMap_cons, Cursor.spans_append] at hs
      obtain ⟨c₁, h₁, h₂⟩ := hs
      simp only [List.length_cons, Nat.add_right_cancel_iff] at hl
      simp only [List.mem_cons, forall_eq_or_imp] at hall
      exact ⟨a, c₁, ⟨hall.1, h₁⟩, rest, c', ⟨hl, hall.2, h₂⟩, rfl, rfl⟩

theorem Reads.table (hp : Reads p fits encode) :
    Reads (Reader.table p) (fun items => items.length < 2 ^ 16 ∧ ∀ a ∈ items, fits a)
      (Bytes.table encode) := by
  intro c c' items
  simp only [Reader.table, bind_eq_ok_iff, u16_eq_ok_iff, hp.times, Bytes.table,
    Cursor.spans_append]
  constructor
  · rintro ⟨n, c₁, h₁, hl, hall, h₂⟩
    have hn : items.length.toUInt16 = n := by rw [hl]; simp
    refine ⟨⟨?_, hall⟩, c₁, ?_, h₂⟩
    · rw [hl]
      exact n.toNat_lt
    · rw [hn]
      exact h₁
  · rintro ⟨⟨hlt, hall⟩, c₁, h₁, h₂⟩
    have hn : items.length.toUInt16.toNat = items.length := by simpa using hlt
    exact ⟨_, c₁, h₁, hn.symm, hall, h₂⟩

theorem run_eq_ok_iff {bytes : List UInt8} {a : α} :
    p.run bytes = .ok a ↔ ∃ c', p (Cursor.start bytes) = .ok (a, c') ∧ c'.rest = [] := by
  rw [Reader.run]
  constructor
  · intro h
    split at h
    · next a' c' hc =>
      split at h
      · next hr =>
        cases h
        exact ⟨c', hc, List.isEmpty_iff.1 hr⟩
      · cases h
    · cases h
  · rintro ⟨c', hc, hr⟩
    rw [hc]
    simp [hr]

/-- Run on a whole text, a reader accepts exactly the encodings of what fits. -/
theorem Reads.run_eq_ok_iff (hp : Reads p fits encode) {bytes : List UInt8} {a : α} :
    p.run bytes = .ok a ↔ fits a ∧ bytes = encode a := by
  rw [Reader.run_eq_ok_iff]
  constructor
  · rintro ⟨c', hread, hrest⟩
    have h := (hp _ _ _).1 hread
    exact ⟨h.1, Cursor.eq_of_spans_start h.2 hrest⟩
  · rintro ⟨hfits, rfl⟩
    exact ⟨_, (hp _ _ _).2 ⟨hfits, Cursor.spans_start (encode a)⟩, rfl⟩

end Reader

end ClassLoading
