/-! Decompression of DEFLATE data. The data is a list of bits, each byte from its lowest bit up. A
block is stored as it is, or holds symbols of a literal and a distance code; a code is given by the
lengths of its words, and words of one length are numbered upwards. Every symbol takes at least one
bit, so the bits that are left bound the work. -/
namespace ClassLoading.Inflate

abbrev Bits := List Bool

def bitsOf (bytes : List UInt8) : Bits :=
  bytes.flatMap fun b => (List.range 8).map fun i => b.toNat.testBit i

/-- A number of `n` bits, lowest first. -/
def number? : Nat → Bits → Option (Nat × Bits)
  | 0, bits => some (0, bits)
  | _ + 1, [] => none
  | n + 1, b :: bits => (number? n bits).map fun (v, rest) => (b.toNat + 2 * v, rest)

theorem number?_length {n v : Nat} {bits rest : Bits} (h : number? n bits = some (v, rest)) :
    rest.length + n = bits.length := by
  fun_induction number? n bits generalizing v with
  | case1 => cases h; simp
  | case2 => simp at h
  | case3 n b bits ih =>
    obtain ⟨⟨w, r⟩, hw, he⟩ := Option.map_eq_some_iff.1 h
    cases he
    simp only [List.length_cons, ← ih hw]
    omega

/-! ### Codes -/

/-- The number of words of each length, from length 1 up, and the symbols in the order of their
words. -/
structure Code where
  counts : List Nat
  symbols : Array Nat

def maxLength : Nat := 15

def Code.ofLengths (lengths : List Nat) : Code where
  counts := (List.range maxLength).map fun i => lengths.count (i + 1)
  symbols := ((List.range maxLength).flatMap fun i =>
    (lengths.zipIdx.filter fun entry => entry.1 == i + 1).map (·.2)).toArray

/-- Reads the next word, given the value `word` read so far, the `first` word of the current
length and the `index` of its symbol. -/
def Code.symbolFrom? (symbols : Array Nat) :
    List Nat → (word first index : Nat) → Bits → Option (Nat × Bits)
  | [], _, _, _, _ => none
  | _ :: _, _, _, _, [] => none
  | count :: counts, word, first, index, b :: bits =>
    let word := 2 * word + b.toNat
    if word < first + count then (symbols[index + (word - first)]?).map fun s => (s, bits)
    else symbolFrom? symbols counts word (2 * (first + count)) (index + count) bits

def Code.symbol? (code : Code) (bits : Bits) : Option (Nat × Bits) :=
  Code.symbolFrom? code.symbols code.counts 0 0 0 bits

theorem Code.symbolFrom?_length_lt {symbols : Array Nat} {counts : List Nat}
    {word first index s : Nat} {bits rest : Bits}
    (h : Code.symbolFrom? symbols counts word first index bits = some (s, rest)) :
    rest.length < bits.length := by
  fun_induction Code.symbolFrom? symbols counts word first index bits with
  | case1 => simp at h
  | case2 => simp at h
  | case3 =>
    obtain ⟨_, _, he⟩ := Option.map_eq_some_iff.1 h
    cases he
    simp
  | case4 _ _ _ _ _ _ _ _ _ ih => exact Nat.lt_succ_of_lt (ih h)

/-! ### Symbols -/

/-- Shortest length and extra bits of the symbols from 257 on. -/
def lengthTable : Array (Nat × Nat) :=
  #[(3, 0), (4, 0), (5, 0), (6, 0), (7, 0), (8, 0), (9, 0), (10, 0), (11, 1), (13, 1), (15, 1),
    (17, 1), (19, 2), (23, 2), (27, 2), (31, 2), (35, 3), (43, 3), (51, 3), (59, 3), (67, 4),
    (83, 4), (99, 4), (115, 4), (131, 5), (163, 5), (195, 5), (227, 5), (258, 0)]

/-- Shortest distance and extra bits of the distance symbols. -/
def distanceTable : Array (Nat × Nat) :=
  #[(1, 0), (2, 0), (3, 0), (4, 0), (5, 1), (7, 1), (9, 2), (13, 2), (17, 3), (25, 3), (33, 4),
    (49, 4), (65, 5), (97, 5), (129, 6), (193, 6), (257, 7), (385, 7), (513, 8), (769, 8),
    (1025, 9), (1537, 9), (2049, 10), (3073, 10), (4097, 11), (6145, 11), (8193, 12), (12289, 12),
    (16385, 13), (24577, 13)]

/-- A base value plus the extra bits that follow its symbol. -/
def extended? (table : Array (Nat × Nat)) (symbol : Nat) (bits : Bits) : Option (Nat × Bits) :=
  table[symbol]?.bind fun (base, extra) =>
    (number? extra bits).map fun (v, rest) => (base + v, rest)

theorem extended?_length_le {table : Array (Nat × Nat)} {symbol v : Nat} {bits rest : Bits}
    (h : extended? table symbol bits = some (v, rest)) : rest.length ≤ bits.length := by
  obtain ⟨⟨base, extra⟩, _, h⟩ := Option.bind_eq_some_iff.1 h
  obtain ⟨⟨w, r⟩, hw, he⟩ := Option.map_eq_some_iff.1 h
  cases he
  have := number?_length hw
  omega

/-- A length and the distance to copy from. -/
def reference? (distances : Code) (symbol : Nat) (bits : Bits) : Option ((Nat × Nat) × Bits) :=
  (extended? lengthTable (symbol - 257) bits).bind fun (length, bits) =>
    (distances.symbol? bits).bind fun (symbol, bits) =>
      (extended? distanceTable symbol bits).map fun (distance, bits) => ((length, distance), bits)

theorem reference?_length_le {distances : Code} {symbol : Nat} {r : Nat × Nat} {bits rest : Bits}
    (h : reference? distances symbol bits = some (r, rest)) : rest.length ≤ bits.length := by
  obtain ⟨⟨_, b₁⟩, h₁, h⟩ := Option.bind_eq_some_iff.1 h
  obtain ⟨⟨_, b₂⟩, h₂, h⟩ := Option.bind_eq_some_iff.1 h
  obtain ⟨⟨_, b₃⟩, h₃, he⟩ := Option.map_eq_some_iff.1 h
  cases he
  have := extended?_length_le h₁
  have := Code.symbolFrom?_length_lt h₂
  have := extended?_length_le h₃
  omega

/-- Appends `length` bytes, each the one that stands `distance` before it. -/
def copyBack (out : Array UInt8) (distance : Nat) : Nat → Option (Array UInt8)
  | 0 => some out
  | length + 1 =>
    if distance ≤ out.size then
      out[out.size - distance]?.bind fun b => copyBack (out.push b) distance length
    else none

/-- One step of a block: a byte, the end, or a stretch to copy. -/
inductive Token where
  | literal (byte : UInt8)
  | stop
  | copy (length distance : Nat)

def token? (literals distances : Code) (bits : Bits) : Option (Token × Bits) :=
  (literals.symbol? bits).bind fun (symbol, rest) =>
    if symbol < 256 then some (.literal symbol.toUInt8, rest)
    else if symbol = 256 then some (.stop, rest)
    else (reference? distances symbol rest).map fun (r, rest) => (.copy r.1 r.2, rest)

theorem token?_length_lt {literals distances : Code} {token : Token} {bits rest : Bits}
    (h : token? literals distances bits = some (token, rest)) : rest.length < bits.length := by
  obtain ⟨⟨symbol, after⟩, hs, h⟩ := Option.bind_eq_some_iff.1 h
  have hlt := Code.symbolFrom?_length_lt hs
  dsimp only at h
  split at h
  · cases h; exact hlt
  · split at h
    · cases h; exact hlt
    · obtain ⟨⟨r, b⟩, hr, he⟩ := Option.map_eq_some_iff.1 h
      cases he
      exact Nat.lt_of_le_of_lt (reference?_length_le hr) hlt

/-- The tokens of a block up to its end. -/
def tokens? (literals distances : Code) (bits : Bits) (out : Array UInt8) :
    Option (Array UInt8 × Bits) :=
  match h : token? literals distances bits with
  | none => none
  | some (token, rest) =>
    have := token?_length_lt h
    match token with
    | .literal byte => tokens? literals distances rest (out.push byte)
    | .stop => some (out, rest)
    | .copy length distance =>
      match copyBack out distance length with
      | none => none
      | some out => tokens? literals distances rest out
termination_by bits.length

/-! ### Blocks -/

def fixedLiterals : Code :=
  .ofLengths (List.replicate 144 8 ++ List.replicate 112 9 ++ List.replicate 24 7 ++
    List.replicate 8 8)

def fixedDistances : Code := .ofLengths (List.replicate 30 5)

/-- The order in which the lengths of the code for code lengths are given. -/
def lengthOrder : List Nat := [16, 17, 18, 0, 8, 7, 9, 6, 10, 5, 11, 4, 12, 3, 13, 2, 14, 1, 15]

def numbers? (width : Nat) : Nat → Bits → Option (List Nat × Bits)
  | 0, bits => some ([], bits)
  | n + 1, bits => do
    let (v, bits) ← number? width bits
    let (vs, bits) ← numbers? width n bits
    return (v :: vs, bits)

/-- Code lengths until `total` of them are there. Symbols above 15 repeat the length before or
zero. -/
def codeLengths? (code : Code) (total : Nat) (lengths : List Nat) (bits : Bits) :
    Option (List Nat × Bits) :=
  if total ≤ lengths.length then some (lengths, bits)
  else match h : code.symbol? bits with
    | none => none
    | some (symbol, rest) =>
      have := Code.symbolFrom?_length_lt h
      if symbol < 16 then codeLengths? code total (lengths ++ [symbol]) rest
      else
        let (value, base, extra) : Option Nat × Nat × Nat :=
          if symbol = 16 then (lengths.getLast?, 3, 2)
          else if symbol = 17 then (some 0, 3, 3)
          else (some 0, 11, 7)
        match value, h' : number? extra rest with
        | some value, some (n, after) =>
          have := number?_length h'
          codeLengths? code total (lengths ++ List.replicate (base + n) value) after
        | _, _ => none
termination_by bits.length

/-- The two codes at the head of a block that brings its own. -/
def ownCodes? (bits : Bits) : Option ((Code × Code) × Bits) := do
  let (literals, bits) ← number? 5 bits
  let (distances, bits) ← number? 5 bits
  let (count, bits) ← number? 4 bits
  let (given, bits) ← numbers? 3 (count + 4) bits
  let lengths := (List.range 19).map fun symbol => ((lengthOrder.zip given).lookup symbol).getD 0
  let total := literals + 257 + distances + 1
  let (lengths, bits) ← codeLengths? (.ofLengths lengths) total [] bits
  if lengths.length = total then
    return ((.ofLengths (lengths.take (literals + 257)), .ofLengths (lengths.drop (literals + 257))),
      bits)
  else none

/-- A stored block starts at a whole byte, with its length and the complement of its length. -/
def stored? (bits : Bits) (out : Array UInt8) : Option (Array UInt8 × Bits) := do
  let (length, bits) ← number? 16 (bits.drop (bits.length % 8))
  let (complement, bits) ← number? 16 bits
  if length + complement = 0xFFFF then
    let (bytes, bits) ← numbers? 8 length bits
    return (out ++ (bytes.map Nat.toUInt8).toArray, bits)
  else none

/-- The contents of a block of the given kind. -/
def block? (kind : Nat) (bits : Bits) (out : Array UInt8) : Option (Array UInt8 × Bits) :=
  match kind with
  | 0 => stored? bits out
  | 1 => tokens? fixedLiterals fixedDistances bits out
  | 2 => do
    let ((literals, distances), bits) ← ownCodes? bits
    tokens? literals distances bits out
  | _ => none

/-- The blocks of a stream up to the one marked as last. A block that took no bits would repeat
for ever and counts as corrupt. -/
def blocks? (bits : Bits) (out : Array UInt8) : Option (Array UInt8) := do
  let (last, rest) ← number? 1 bits
  let (kind, rest) ← number? 2 rest
  let (out, rest) ← block? kind rest out
  if last = 1 then return out
  else if rest.length < bits.length then blocks? rest out
  else none
termination_by bits.length

/-- The data behind a DEFLATE stream, where the stream is sound. What follows it is not read. -/
def inflate? (bytes : List UInt8) : Option (List UInt8) :=
  (blocks? (bitsOf bytes) #[]).map Array.toList

end ClassLoading.Inflate
