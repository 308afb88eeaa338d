/-! The two alphabets of entry names in archives: UTF-8, where bytes that form no character are
read as the replacement character, and the 437 code page, where every byte is a character. -/
namespace ClassLoading.Text

/-! ### UTF-8 with replacement -/

/-- What a lead byte starts: its share of the character and the ranges of the bytes to follow. -/
def utf8Lead (b : Nat) : Option (Nat × List (Nat × Nat)) :=
  let tail := (0x80, 0xBF)
  if b < 0x80 then some (b, [])
  else if 0xC2 ≤ b ∧ b ≤ 0xDF then some (b - 0xC0, [tail])
  else if b = 0xE0 then some (0, [(0xA0, 0xBF), tail])
  else if b = 0xED then some (0xD, [(0x80, 0x9F), tail])
  else if 0xE1 ≤ b ∧ b ≤ 0xEF then some (b - 0xE0, [tail, tail])
  else if b = 0xF0 then some (0, [(0x90, 0xBF), tail, tail])
  else if 0xF1 ≤ b ∧ b ≤ 0xF3 then some (b - 0xF0, [tail, tail, tail])
  else if b = 0xF4 then some (4, [(0x80, 0x8F), tail, tail])
  else none

/-- Reads bytes of the given ranges; the character is missing when one does not fit, and reading
goes on with that byte. -/
def utf8Tail (value : Nat) : List (Nat × Nat) → List UInt8 → Option Char × List UInt8
  | [], bytes => (some (Char.ofNat value), bytes)
  | _ :: _, [] => (none, [])
  | (low, high) :: ranges, b :: bytes =>
    if low ≤ b.toNat ∧ b.toNat ≤ high then utf8Tail (value * 64 + (b.toNat - 0x80)) ranges bytes
    else (none, b :: bytes)

theorem utf8Tail_length_le (value : Nat) (ranges : List (Nat × Nat)) (bytes : List UInt8) :
    (utf8Tail value ranges bytes).2.length ≤ bytes.length := by
  fun_induction utf8Tail value ranges bytes with
  | case1 => simp
  | case2 => simp
  | case3 _ _ _ _ _ _ _ ih => exact Nat.le_succ_of_le ih
  | case4 => simp

def utf8Chars : List UInt8 → List Char
  | [] => []
  | b :: bytes =>
    match utf8Lead b.toNat with
    | none => '\uFFFD' :: utf8Chars bytes
    | some (value, ranges) =>
      have := utf8Tail_length_le value ranges bytes
      (utf8Tail value ranges bytes).1.getD '\uFFFD' :: utf8Chars (utf8Tail value ranges bytes).2
termination_by bytes => bytes.length

/-! ### Code page 437 -/

/-- The characters from byte 128 on. -/
def codePage437 : Array Char :=
  ("ÇüéâäàåçêëèïîìÄÅÉæÆôöòûùÿÖÜ¢£¥₧ƒáíóúñÑªº¿⌐¬½¼¡«»░▒▓│┤╡╢╖╕╣║╗╝╜╛┐" ++
    "└┴┬├─┼╞╟╚╔╩╦╠═╬╧╨╤╥╙╘╒╓╫╪┘┌█▄▌▐▀αßΓπΣσµτΦΘΩδ∞φε∩≡±≥≤⌠⌡÷≈°∙·√ⁿ²■\u00A0").toList.toArray

def codePageChar (b : UInt8) : Char :=
  if b < 128 then Char.ofNat b.toNat else codePage437.getD (b.toNat - 128) '\uFFFD'

end ClassLoading.Text
