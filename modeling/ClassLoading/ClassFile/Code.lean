import ClassLoading.ClassFile.Format

/-! The two attributes the loader looks into: `Code`, the body of a method, and `ConstantValue`,
the index of a field's constant. Each must fill its payload exactly. -/
namespace ClassLoading

open Reader (u16 u32 take table)

structure ExceptionHandler where
  start : UInt16
  stop : UInt16
  handler : UInt16
  /-- Zero catches everything. -/
  catchType : UInt16
  deriving DecidableEq, Repr, Inhabited

structure Code where
  maxStack : UInt16
  maxLocals : UInt16
  code : List UInt8
  handlers : List ExceptionHandler
  attributes : List Attribute
  deriving DecidableEq, Repr, Inhabited

def ExceptionHandler.read : Reader ExceptionHandler := do
  return ⟨← u16, ← u16, ← u16, ← u16⟩

def Code.attributeName : String := "Code"

def Code.read : Reader Code := do
  let maxStack ← u16
  let maxLocals ← u16
  let length ← u32
  let code ← take length.toNat
  let handlers ← table ExceptionHandler.read
  let attributes ← table Attribute.read
  return { maxStack, maxLocals, code, handlers, attributes }

def Code.parse (payload : List UInt8) : Except ParseError Code := Code.read.run payload

def ConstantValue.attributeName : String := "ConstantValue"

def ConstantValue.parse (payload : List UInt8) : Except ParseError UInt16 := u16.run payload

/-- Finds the named attribute and decodes it; a list without it gives `none`. -/
def ConstantPool.decodeAttribute {α : Type} (pool : ConstantPool) (name : String)
    (decode : List UInt8 → Except ParseError α) (attributes : List Attribute) :
    Except ParseError (Option α) :=
  match pool.findAttribute name attributes with
  | .error cause => .error (.badConstant cause)
  | .ok none => .ok none
  | .ok (some a) => some <$> decode a.payload

end ClassLoading
