import ClassLoading.Access

/-! What can be wrong with a class file: an index into the constant pool that does not lead to the
required kind of constant, or bytes that do not have the format. Offsets count from the start of
the bytes being read. -/
namespace ClassLoading

inductive ConstantKind where
  | utf8
  | integer
  | float
  | long
  | double
  | classRef
  | string
  | fieldRef
  | methodRef
  | interfaceMethodRef
  | nameAndType
  | methodHandle
  | methodType
  | dynamic
  | invokeDynamic
  | moduleRef
  | packageRef
  | unusable
  deriving DecidableEq, Repr, Inhabited

def ConstantKind.label : ConstantKind → String
  | .utf8 => "Utf8"
  | .integer => "Integer"
  | .float => "Float"
  | .long => "Long"
  | .double => "Double"
  | .classRef => "Class"
  | .string => "String"
  | .fieldRef => "Fieldref"
  | .methodRef => "Methodref"
  | .interfaceMethodRef => "InterfaceMethodref"
  | .nameAndType => "NameAndType"
  | .methodHandle => "MethodHandle"
  | .methodType => "MethodType"
  | .dynamic => "Dynamic"
  | .invokeDynamic => "InvokeDynamic"
  | .moduleRef => "Module"
  | .packageRef => "Package"
  | .unusable => "Unusable"

inductive PoolError where
  /-- Indices run from 1 and stay below `count`. -/
  | outOfRange (index : UInt16) (count : Nat)
  /-- The slot is the upper half of a `long` or `double`. -/
  | unusable (index : UInt16)
  | mismatch (index : UInt16) (expected found : ConstantKind)
  deriving DecidableEq, Repr, Inhabited

def PoolError.message : PoolError → String
  | .outOfRange index count =>
    "constant pool index " ++ toString index.toNat ++ " out of range 1.." ++ toString count
  | .unusable index =>
    "constant pool index " ++ toString index.toNat ++
      " is the unusable upper half of a long or double"
  | .mismatch index expected found =>
    "constant pool index " ++ toString index.toNat ++ ": expected " ++ expected.label ++
      ", found " ++ found.label

inductive ParseError where
  | invalidMagic (magic : UInt32)
  /-- The item that starts at `offset` does not fit into the bytes. -/
  | truncated (offset : Nat)
  | unknownConstantTag (tag : UInt8) (offset : Nat)
  | invalidText (offset : Nat)
  | trailingBytes (remaining : Nat)
  | badConstant (cause : PoolError)
  deriving DecidableEq, Repr, Inhabited

/-- Eight lower-case hexadecimal digits. -/
def hexWord (w : UInt32) : String :=
  let digits := hexDigits w.toNat
  String.ofList (List.replicate (8 - digits.length) '0') ++ digits

def ParseError.message : ParseError → String
  | .invalidMagic magic => "invalid magic number 0x" ++ hexWord magic
  | .truncated offset => "class file truncated at byte " ++ toString offset
  | .unknownConstantTag tag offset =>
    "unknown constant pool tag " ++ toString tag.toNat ++ " at byte " ++ toString offset
  | .invalidText offset => "invalid modified utf-8 string at byte " ++ toString offset
  | .trailingBytes remaining =>
    toString remaining ++ " unexpected trailing bytes after class attributes"
  | .badConstant cause => cause.message

end ClassLoading
