import ClassLoading.ClassFile.Error

/-! Readers of big-endian binary data. A reader takes a cursor, which is the unread bytes with the
offset they start at, and gives a value with the cursor behind it or the reason it stopped. An item
that does not fit is reported at the offset where the item starts, and nothing of it is consumed. -/
namespace ClassLoading

structure Cursor where
  offset : Nat
  rest : List UInt8
  deriving DecidableEq, Repr, Inhabited

def Cursor.start (bytes : List UInt8) : Cursor := ⟨0, bytes⟩

def Reader (α : Type) : Type := Cursor → Except ParseError (α × Cursor)

namespace Reader

variable {α β : Type}

def pure (a : α) : Reader α := fun c => .ok (a, c)

def bind (p : Reader α) (f : α → Reader β) : Reader β := fun c =>
  match p c with
  | .ok (a, c') => f a c'
  | .error e => .error e

instance : Monad Reader where
  pure := Reader.pure
  bind := Reader.bind

@[simp] theorem pure_apply (a : α) (c : Cursor) : (Pure.pure a : Reader α) c = .ok (a, c) := rfl

theorem bind_apply (p : Reader α) (f : α → Reader β) (c : Cursor) :
    (p >>= f) c = match p c with
      | .ok (a, c') => f a c'
      | .error e => .error e := rfl

def fail (error : ParseError) : Reader α := fun _ => .error error

def offset : Reader Nat := fun c => .ok (c.offset, c)

/-- Whether a list has at least `n` bytes; it is followed no further than that. -/
def hasBytes (rest : List UInt8) : Nat → Bool
  | 0 => true
  | n + 1 => !(rest.drop n).isEmpty

theorem hasBytes_iff {rest : List UInt8} {n : Nat} : hasBytes rest n = true ↔ n ≤ rest.length := by
  cases n with
  | zero => exact ⟨fun _ => Nat.zero_le _, fun _ => rfl⟩
  | succ n =>
    simp only [hasBytes, Bool.not_eq_true', List.isEmpty_eq_false_iff, ne_eq, List.drop_eq_nil_iff]
    omega

/-- The next `n` bytes, all of them or none. -/
def take (n : Nat) : Reader (List UInt8) := fun c =>
  if hasBytes c.rest n then .ok (c.rest.take n, ⟨c.offset + n, c.rest.drop n⟩)
  else .error (.truncated c.offset)

/-- The value of big-endian digits in base 256. -/
def bigEndian (bytes : List UInt8) : Nat := bytes.foldl (fun n b => n * 256 + b.toNat) 0

def u8 : Reader UInt8 := do return (bigEndian (← take 1)).toUInt8
def u16 : Reader UInt16 := do return (bigEndian (← take 2)).toUInt16
def u32 : Reader UInt32 := do return (bigEndian (← take 4)).toUInt32
def u64 : Reader UInt64 := do return (bigEndian (← take 8)).toUInt64

/-- The same item `n` times. -/
def times (p : Reader α) : Nat → Reader (List α)
  | 0 => Pure.pure []
  | n + 1 => do return (← p) :: (← times p n)

/-- A count of two bytes and as many items. -/
def table (p : Reader α) : Reader (List α) := do times p (← u16).toNat

/-- Reads the whole of some bytes. -/
def run (p : Reader α) (bytes : List UInt8) : Except ParseError α :=
  match p (Cursor.start bytes) with
  | .ok (a, c) => if c.rest.isEmpty then .ok a else .error (.trailingBytes c.rest.length)
  | .error e => .error e

end Reader

end ClassLoading
