/-! The modified UTF-8 of class files. A text is cut into 16-bit units, surrogate pairs included,
and each unit is written in one to three bytes; the zero unit takes two, so no zero byte ever
stands in an encoded text. Decoding accepts the shortest form of a unit and nothing else, and
refuses a surrogate without its partner. -/
namespace ClassLoading.ModifiedUtf8

/-! ### Units and bytes -/

def unitBytes (u : Nat) : List UInt8 :=
  if 0 < u ∧ u < 0x80 then [u.toUInt8]
  else if u < 0x800 then [(0xC0 + u / 64).toUInt8, (0x80 + u % 64).toUInt8]
  else [(0xE0 + u / 4096).toUInt8, (0x80 + u / 64 % 64).toUInt8, (0x80 + u % 64).toUInt8]

/-- Bytes that continue a unit. -/
def isTail (b : UInt8) : Bool := 0x80 ≤ b.toNat && b.toNat < 0xC0

/-- The unit of a two-byte form, where it is the shortest form. -/
def unitOfTwo? (a b : UInt8) : Option Nat :=
  let u := (a.toNat - 0xC0) * 64 + (b.toNat - 0x80)
  if 0xC0 ≤ a.toNat ∧ a.toNat < 0xE0 ∧ isTail b ∧ (u = 0 ∨ 0x80 ≤ u) then some u else none

/-- The unit of a three-byte form, where it is the shortest form. -/
def unitOfThree? (a b c : UInt8) : Option Nat :=
  let u := (a.toNat - 0xE0) * 4096 + (b.toNat - 0x80) * 64 + (c.toNat - 0x80)
  if 0xE0 ≤ a.toNat ∧ a.toNat < 0xF0 ∧ isTail b ∧ isTail c ∧ 0x800 ≤ u then some u else none

def units? : List UInt8 → Option (List Nat)
  | [] => some []
  | a :: rest =>
    if 0 < a.toNat ∧ a.toNat < 0x80 then (units? rest).map (a.toNat :: ·)
    else match rest with
      | [] => none
      | b :: rest =>
        match unitOfTwo? a b with
        | some u => (units? rest).map (u :: ·)
        | none =>
          match rest with
          | [] => none
          | c :: rest =>
            match unitOfThree? a b c with
            | some u => (units? rest).map (u :: ·)
            | none => none

/-! ### Characters and units -/

def charUnits (c : Char) : List Nat :=
  if c.toNat < 0x10000 then [c.toNat]
  else [0xD800 + (c.toNat - 0x10000) / 0x400, 0xDC00 + (c.toNat - 0x10000) % 0x400]

def isHigh (u : Nat) : Bool := 0xD800 ≤ u && u < 0xDC00

def isLow (u : Nat) : Bool := 0xDC00 ≤ u && u < 0xE000

def chars? : List Nat → Option (List Char)
  | [] => some []
  | u :: rest =>
    if isHigh u then
      match rest with
      | [] => none
      | v :: rest =>
        if isLow v then
          (chars? rest).map (Char.ofNat (0x10000 + (u - 0xD800) * 0x400 + (v - 0xDC00)) :: ·)
        else none
    else if isLow u then none
    else (chars? rest).map (Char.ofNat u :: ·)

/-! ### Texts -/

def encode (text : String) : List UInt8 :=
  text.toList.flatMap fun c => (charUnits c).flatMap unitBytes

def decode? (bytes : List UInt8) : Option String :=
  ((units? bytes).bind chars?).map String.ofList

end ClassLoading.ModifiedUtf8
