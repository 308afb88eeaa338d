import ClassLoading.Bytes.Reader
import ClassLoading.ClassFile.Basic
import ClassLoading.Text.ModifiedUtf8

/-! Reading a class file from its bytes. The tables are read first, in the order they stand in the
file, and what is left over is refused; only then are the indices tested. -/
namespace ClassLoading

open Reader (u8 u16 u32 u64 take times table)

def ClassFile.magicNumber : UInt32 := 0xCAFEBABE

/-- A length of two bytes and a text in modified UTF-8. -/
def Constant.readText : Reader Constant := do
  let length ← u16
  let start ← Reader.offset
  match ModifiedUtf8.decode? (← take length.toNat) with
  | some text => return .utf8 text
  | none => Reader.fail (.invalidText start)

/-- The constant behind a tag, which stands at `start`. -/
def Constant.readTagged (start : Nat) (tag : UInt8) : Reader Constant :=
  match tag.toNat with
  | 1 => readText
  | 3 => do return .integer (← u32).toInt32
  | 4 => do return .float (← u32)
  | 5 => do return .long (← u64).toInt64
  | 6 => do return .double (← u64)
  | 7 => do return .classRef (← u16)
  | 8 => do return .string (← u16)
  | 9 => do return .fieldRef (← u16) (← u16)
  | 10 => do return .methodRef (← u16) (← u16)
  | 11 => do return .interfaceMethodRef (← u16) (← u16)
  | 12 => do return .nameAndType (← u16) (← u16)
  | 15 => do return .methodHandle (← u8) (← u16)
  | 16 => do return .methodType (← u16)
  | 17 => do return .dynamic (← u16) (← u16)
  | 18 => do return .invokeDynamic (← u16) (← u16)
  | 19 => do return .moduleRef (← u16)
  | 20 => do return .packageRef (← u16)
  | _ => Reader.fail (.unknownConstantTag tag start)

def Constant.read : Reader Constant := do
  let start ← Reader.offset
  readTagged start (← u8)

/-- Reads constants until the given number of slots is filled. A wide constant in the last slot
has no unusable slot behind it. -/
def ConstantPool.readSlots : Nat → Reader (List Constant)
  | 0 => return []
  | 1 => return [← Constant.read]
  | n + 2 => do
    let constant ← Constant.read
    if constant.isWide then return constant :: .unusable :: (← readSlots n)
    return constant :: (← readSlots (n + 1))

def ConstantPool.read : Reader ConstantPool := do
  return ⟨← readSlots ((← u16).toNat - 1)⟩

def Attribute.read : Reader Attribute := do
  let name ← u16
  let length ← u32
  return ⟨name, ← take length.toNat⟩

def Member.read : Reader Member := do
  return ⟨← u16, ← u16, ← u16, ← table Attribute.read⟩

namespace ClassFile

def readMagic : Reader UInt32 := do
  let magic ← u32
  if magic = magicNumber then return magic else Reader.fail (.invalidMagic magic)

def read : Reader ClassFile := do
  let magic ← readMagic
  let minor ← u16
  let major ← u16
  let pool ← ConstantPool.read
  let flags ← u16
  let thisClass ← u16
  let superClass ← u16
  let interfaces ← table u16
  let fields ← table Member.read
  let methods ← table Member.read
  let attributes ← table Attribute.read
  return {
    magic, minor, major, pool, flags, thisClass, superClass, interfaces, fields, methods,
    attributes }

def parse (bytes : List UInt8) : Except ParseError ClassFile := do
  let file ← read.run bytes
  match file.checkIndices with
  | .ok () => return file
  | .error cause => throw (.badConstant cause)

end ClassFile

end ClassLoading
