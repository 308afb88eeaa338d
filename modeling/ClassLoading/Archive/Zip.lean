import ClassLoading.Archive.Crc32
import ClassLoading.Archive.Inflate
import ClassLoading.Text.Names

/-! ZIP archives. The end record, looked for from the back, gives the central directory; each of its
headers names an entry and the place of its data. Bytes in front of the archive shift every offset
by the same amount, which shows in where the first central header really stands. An archive whose
headers do not hold together is no archive. -/
namespace ClassLoading.Zip

structure Entry where
  name : String
  encrypted : Bool
  method : Nat
  checksum : UInt32
  dataStart : Nat
  dataSize : Nat
  deriving Repr, Inhabited

/-- A little-endian number of `width` bytes. -/
def number? (data : Array UInt8) (start : Nat) : Nat → Option Nat
  | 0 => some 0
  | width + 1 => do return (← data[start]?).toNat + 256 * (← number? data (start + 1) width)

def slice (data : Array UInt8) (start size : Nat) : List UInt8 :=
  (data.extract start (start + size)).toList

def endSignature : Nat := 0x06054b50
def centralSignature : Nat := 0x02014b50
def localSignature : Nat := 0x04034b50

def signedAt (data : Array UInt8) (signature start : Nat) : Bool :=
  number? data start 4 == some signature

/-- Offset of an entry's data behind its local header. -/
def dataStart? (data : Array UInt8) (header : Nat) : Option Nat := do
  if !signedAt data localSignature header then none
  let name ← number? data (header + 26) 2
  let extra ← number? data (header + 28) 2
  if header + 30 ≤ data.size then return header + 30 + name + extra else none

/-- One central header, with the offset of the next. `shift` is the number of bytes in front of the
archive and `directory` the start of the central directory, before which every entry lies. -/
def central? (data : Array UInt8) (shift directory start : Nat) : Option (Entry × Nat) := do
  if !signedAt data centralSignature start then none
  let flags ← number? data (start + 8) 2
  let method ← number? data (start + 10) 2
  let checksum ← number? data (start + 16) 4
  let dataSize ← number? data (start + 20) 4
  let name ← number? data (start + 28) 2
  let extra ← number? data (start + 30) 2
  let comment ← number? data (start + 32) 2
  let header ← number? data (start + 42) 4
  let next := start + 46 + name + extra + comment
  if data.size < next then none
  if directory ≤ header + shift then none
  let dataStart ← dataStart? data (header + shift)
  if directory < dataStart then none
  let bytes := slice data (start + 46) name
  let name := if flags.testBit 11 then Text.utf8Chars bytes else bytes.map Text.codePageChar
  return ({
    name := String.ofList name, encrypted := flags.testBit 0, method,
    checksum := checksum.toUInt32, dataStart, dataSize }, next)

def centrals? (data : Array UInt8) (shift directory : Nat) : Nat → Nat → Option (List Entry)
  | 0, _ => some []
  | n + 1, start => do
    let (entry, next) ← central? data shift directory start
    return entry :: (← centrals? data shift directory n next)

/-- The entries behind the end record at `start`, if one stands there and all holds together. -/
def entriesAt? (data : Array UInt8) (start : Nat) : Option (List Entry) := do
  if !signedAt data endSignature start then none
  let disk ← number? data (start + 4) 2
  let directoryDisk ← number? data (start + 6) 2
  let here ← number? data (start + 8) 2
  let total ← number? data (start + 10) 2
  let offset ← number? data (start + 16) 4
  let comment ← number? data (start + 20) 2
  if data.size < start + 22 + comment then none
  if disk ≠ directoryDisk then none
  if total = 0 then return []
  if start ≤ offset then none
  let directory ← ((List.range (start - offset)).map (offset + ·)).find?
    (signedAt data centralSignature)
  centrals? data (directory - offset) directory here directory

/-- Adds an entry; of entries with one name, the last stands at the place of the first. -/
def insert (entries : List Entry) (entry : Entry) : List Entry :=
  if entries.any (·.name == entry.name) then
    entries.map fun other => if other.name == entry.name then entry else other
  else entries ++ [entry]

/-- The entries of an archive, or nothing when the data is no archive. -/
def entries? (data : Array UInt8) : Option (List Entry) :=
  ((List.range data.size).reverse.findSome? (entriesAt? data)).map (·.foldl insert [])

/-- What can be wrong with the data of an entry. -/
inductive DataFault where
  | corrupt
  | checksum
  deriving DecidableEq, Repr, Inhabited

/-- Whether the method of an entry is one of the two that can be undone, and no key is needed. -/
def Entry.isReadable (entry : Entry) : Bool :=
  !entry.encrypted && (entry.method == 0 || entry.method == 8)

def Entry.contents (data : Array UInt8) (entry : Entry) : Except DataFault (List UInt8) :=
  let raw := slice data entry.dataStart entry.dataSize
  match if entry.method = 0 then some raw else Inflate.inflate? raw with
  | none => .error .corrupt
  | some bytes => if Crc32.checksum bytes = entry.checksum then .ok bytes else .error .checksum

end ClassLoading.Zip
