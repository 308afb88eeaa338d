import ClassLoading.Text.ModifiedUtf8

/-! Modified UTF-8 is read back exactly: decoding gives a text from the bytes the text is encoded
as, and from no others. The two layers are taken apart, bytes against units and units against
characters, and each layer is one equivalence. -/
namespace ClassLoading.ModifiedUtf8

/-! ### Units and bytes -/

theorem toUInt8_eq_iff {n : Nat} {b : UInt8} (h : n < 256) : n.toUInt8 = b ↔ n = b.toNat := by
  rw [← UInt8.toNat_inj, UInt8.toNat_ofNat', Nat.mod_eq_of_lt (by simpa using h)]

theorem isTail_iff {b : UInt8} : isTail b = true ↔ 0x80 ≤ b.toNat ∧ b.toNat < 0xC0 := by
  simp [isTail]

theorem unitBytes_eq_one {u : Nat} (h : 0 < u ∧ u < 0x80) : unitBytes u = [u.toUInt8] := by
  rw [unitBytes, if_pos h]

theorem unitBytes_eq_two {u : Nat} (h : u = 0 ∨ 0x80 ≤ u) (hu : u < 0x800) :
    unitBytes u = [(0xC0 + u / 64).toUInt8, (0x80 + u % 64).toUInt8] := by
  rw [unitBytes, if_neg (by omega), if_pos hu]

theorem unitBytes_eq_three {u : Nat} (h : 0x800 ≤ u) :
    unitBytes u =
      [(0xE0 + u / 4096).toUInt8, (0x80 + u / 64 % 64).toUInt8, (0x80 + u % 64).toUInt8] := by
  rw [unitBytes, if_neg (by omega), if_neg (by omega)]

theorem unitOfTwo?_eq_some_iff {a b : UInt8} {u : Nat} :
    unitOfTwo? a b = some u ↔ (u = 0 ∨ 0x80 ≤ u) ∧ u < 0x800 ∧ unitBytes u = [a, b] := by
  simp only [unitOfTwo?, Option.ite_none_right_eq_some, Option.some.injEq, isTail_iff]
  constructor
  · rintro ⟨h, rfl⟩
    refine ⟨by omega, by omega, ?_⟩
    rw [unitBytes_eq_two (by omega) (by omega), List.cons.injEq, List.cons.injEq,
      toUInt8_eq_iff (by omega), toUInt8_eq_iff (by omega)]
    exact ⟨by omega, by omega, rfl⟩
  · rintro ⟨h, hu, hb⟩
    rw [unitBytes_eq_two h hu, List.cons.injEq, List.cons.injEq, toUInt8_eq_iff (by omega),
      toUInt8_eq_iff (by omega)] at hb
    obtain ⟨ha, hb, -⟩ := hb
    exact ⟨by omega, by omega⟩

theorem unitOfThree?_eq_some_iff {a b c : UInt8} {u : Nat} :
    unitOfThree? a b c = some u ↔ 0x800 ≤ u ∧ u < 0x10000 ∧ unitBytes u = [a, b, c] := by
  simp only [unitOfThree?, Option.ite_none_right_eq_some, Option.some.injEq, isTail_iff]
  constructor
  · rintro ⟨h, rfl⟩
    refine ⟨by omega, by omega, ?_⟩
    rw [unitBytes_eq_three (by omega), List.cons.injEq, List.cons.injEq, List.cons.injEq,
      toUInt8_eq_iff (by omega), toUInt8_eq_iff (by omega), toUInt8_eq_iff (by omega)]
    exact ⟨by omega, by omega, by omega, rfl⟩
  · rintro ⟨h, hu, hb⟩
    rw [unitBytes_eq_three h, List.cons.injEq, List.cons.injEq, List.cons.injEq,
      toUInt8_eq_iff (by omega), toUInt8_eq_iff (by omega), toUInt8_eq_iff (by omega)] at hb
    obtain ⟨ha, hb, hc, -⟩ := hb
    exact ⟨by omega, by omega⟩

/-- A byte that starts a three-byte form starts no two-byte form. -/
theorem unitOfTwo?_eq_none {a b : UInt8} (h : 0xE0 ≤ a.toNat) : unitOfTwo? a b = none := by
  rw [unitOfTwo?]
  simp only [ite_eq_right_iff, reduceCtorEq, imp_false]
  omega

theorem units?_unitBytes_append {u : Nat} (h : u < 0x10000) (rest : List UInt8) :
    units? (unitBytes u ++ rest) = (units? rest).map (u :: ·) := by
  by_cases h₁ : 0 < u ∧ u < 0x80
  · have hu : u.toUInt8.toNat = u := by simp; omega
    rw [unitBytes_eq_one h₁, List.cons_append, List.nil_append, units?.eq_def]
    simp only [hu, if_pos h₁]
  by_cases h₂ : u < 0x800
  · have hb := unitBytes_eq_two (by omega) h₂
    have ha : (0xC0 + u / 64).toUInt8.toNat = 0xC0 + u / 64 := by simp; omega
    have hu := unitOfTwo?_eq_some_iff.2 ⟨by omega, h₂, hb⟩
    rw [hb, List.cons_append, List.cons_append, List.nil_append, units?.eq_def]
    simp only [hu]
    rw [if_neg (by omega)]
  · have hb := unitBytes_eq_three (u := u) (by omega)
    have ha : (0xE0 + u / 4096).toUInt8.toNat = 0xE0 + u / 4096 := by simp; omega
    have hu := unitOfThree?_eq_some_iff.2 ⟨by omega, h, hb⟩
    rw [hb, List.cons_append, List.cons_append, List.cons_append, List.nil_append, units?.eq_def]
    simp only [unitOfTwo?_eq_none (a := (0xE0 + u / 4096).toUInt8) (by omega), hu]
    rw [if_neg (by omega)]

theorem units?_flatMap {units : List Nat} (h : ∀ u ∈ units, u < 0x10000) :
    units? (units.flatMap unitBytes) = some units := by
  induction units with
  | nil => rfl
  | cons u units ih =>
    simp only [List.mem_cons, forall_eq_or_imp] at h
    rw [List.flatMap_cons, units?_unitBytes_append h.1, ih h.2, Option.map_some]

theorem eq_flatMap_of_units? {bytes : List UInt8} {units : List Nat}
    (h : units? bytes = some units) :
    (∀ u ∈ units, u < 0x10000) ∧ bytes = units.flatMap unitBytes := by
  fun_induction units? bytes generalizing units with
  | case1 =>
    cases h
    exact ⟨by simp, rfl⟩
  | case2 a rest ha ih =>
    obtain ⟨more, hm, rfl⟩ := Option.map_eq_some_iff.1 h
    obtain ⟨hall, rfl⟩ := ih hm
    have := a.toNat_lt
    refine ⟨by simpa using ⟨by omega, hall⟩, ?_⟩
    rw [List.flatMap_cons, unitBytes_eq_one ha]
    simp
  | case3 => cases h
  | case4 a _ b rest u hu ih =>
    obtain ⟨more, hm, rfl⟩ := Option.map_eq_some_iff.1 h
    obtain ⟨hall, rfl⟩ := ih hm
    obtain ⟨-, hlt, hb⟩ := unitOfTwo?_eq_some_iff.1 hu
    refine ⟨by simpa using ⟨by omega, hall⟩, ?_⟩
    rw [List.flatMap_cons, hb]
    rfl
  | case5 => cases h
  | case6 a _ b _ c rest u hu ih =>
    obtain ⟨more, hm, rfl⟩ := Option.map_eq_some_iff.1 h
    obtain ⟨hall, rfl⟩ := ih hm
    obtain ⟨-, hlt, hb⟩ := unitOfThree?_eq_some_iff.1 hu
    refine ⟨by simpa using ⟨hlt, hall⟩, ?_⟩
    rw [List.flatMap_cons, hb]
    rfl
  | case7 => cases h

/-! ### Characters and units -/

theorem toNat_ofNat {n : Nat} (h : n < 0xD800 ∨ 0xDFFF < n ∧ n < 0x110000) :
    (Char.ofNat n).toNat = n := by
  have hv : n.isValidChar := h
  rw [Char.ofNat, dif_pos hv]
  rfl

theorem toNat_valid (c : Char) : c.toNat < 0xD800 ∨ 0xDFFF < c.toNat ∧ c.toNat < 0x110000 :=
  c.valid

theorem charUnits_lt {c : Char} {u : Nat} (h : u ∈ charUnits c) : u < 0x10000 := by
  have hc := toNat_valid c
  rw [charUnits] at h
  split at h
  · rw [List.mem_singleton.1 h]
    assumption
  · simp only [List.mem_cons, List.not_mem_nil, or_false] at h
    omega

theorem chars?_charUnits_append (c : Char) (rest : List Nat) :
    chars? (charUnits c ++ rest) = (chars? rest).map (c :: ·) := by
  have hc := toNat_valid c
  rw [charUnits]
  split
  · have hh : isHigh c.toNat = false := by simp [isHigh]; omega
    have hl : isLow c.toNat = false := by simp [isLow]; omega
    rw [List.cons_append, List.nil_append, chars?.eq_def]
    simp [hh, hl]
  · have hh : isHigh (0xD800 + (c.toNat - 0x10000) / 0x400) = true := by simp [isHigh]; omega
    have hl : isLow (0xDC00 + (c.toNat - 0x10000) % 0x400) = true := by simp [isLow]; omega
    have hn : 0x10000 + (0xD800 + (c.toNat - 0x10000) / 0x400 - 0xD800) * 0x400 +
        (0xDC00 + (c.toNat - 0x10000) % 0x400 - 0xDC00) = c.toNat := by omega
    rw [List.cons_append, List.cons_append, List.nil_append, chars?, if_pos hh]
    simp only [if_pos hl]
    rw [hn, Char.ofNat_toNat]

theorem chars?_flatMap (chars : List Char) : chars? (chars.flatMap charUnits) = some chars := by
  induction chars with
  | nil => rfl
  | cons c chars ih => rw [List.flatMap_cons, chars?_charUnits_append, ih, Option.map_some]

theorem eq_flatMap_of_chars? {units : List Nat} {chars : List Char}
    (h : chars? units = some chars) (hlt : ∀ u ∈ units, u < 0x10000) :
    units = chars.flatMap charUnits := by
  fun_induction chars? units generalizing chars with
  | case1 =>
    cases h
    rfl
  | case2 => cases h
  | case3 u hu v rest hv ih =>
    obtain ⟨more, hm, rfl⟩ := Option.map_eq_some_iff.1 h
    simp only [isHigh, isLow, Bool.and_eq_true, decide_eq_true_eq] at hu hv
    simp only [List.mem_cons, forall_eq_or_imp] at hlt
    have hn := toNat_ofNat (n := 0x10000 + (u - 0xD800) * 0x400 + (v - 0xDC00)) (by omega)
    rw [List.flatMap_cons, ← ih hm hlt.2.2, charUnits, hn, if_neg (by omega)]
    simp only [List.cons_append, List.nil_append, List.cons.injEq, and_true]
    omega
  | case4 => cases h
  | case5 => cases h
  | case6 u rest hh hl ih =>
    obtain ⟨more, hm, rfl⟩ := Option.map_eq_some_iff.1 h
    simp only [isHigh, isLow, Bool.and_eq_true, decide_eq_true_eq] at hh hl
    simp only [List.mem_cons, forall_eq_or_imp] at hlt
    have hn := toNat_ofNat (n := u) (by omega)
    rw [List.flatMap_cons, ← ih hm hlt.2, charUnits, hn, if_pos hlt.1]
    rfl

/-! ### Texts -/

theorem encode_eq (text : String) :
    encode text = (text.toList.flatMap charUnits).flatMap unitBytes := by
  rw [encode, List.flatMap_assoc]

/-- Decoding inverts encoding and accepts nothing else. -/
theorem decode?_eq_some_iff {bytes : List UInt8} {text : String} :
    decode? bytes = some text ↔ bytes = encode text := by
  rw [encode_eq]
  constructor
  · intro h
    obtain ⟨chars, hb, rfl⟩ := Option.map_eq_some_iff.1 h
    obtain ⟨units, hu, hc⟩ := Option.bind_eq_some_iff.1 hb
    obtain ⟨hlt, rfl⟩ := eq_flatMap_of_units? hu
    rw [eq_flatMap_of_chars? hc hlt, String.toList_ofList]
  · rintro rfl
    have hlt : ∀ u ∈ text.toList.flatMap charUnits, u < 0x10000 := by
      intro u hu
      obtain ⟨c, _, hc⟩ := List.mem_flatMap.1 hu
      exact charUnits_lt hc
    rw [decode?, units?_flatMap hlt, Option.bind_some, chars?_flatMap, Option.map_some,
      String.ofList_toList]

end ClassLoading.ModifiedUtf8
