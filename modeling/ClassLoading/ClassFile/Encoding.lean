import Mathlib.Algebra.Group.Nat.Defs
import ClassLoading.ClassFile.Code

/-! The bytes of a class file, written table by table. An unusable slot has no bytes of its own:
the wide constant in front of it accounts for both. -/
namespace ClassLoading

namespace Bytes

/-- The `width` lowest digits of a number in base 256, most significant first. -/
def bigEndian : Nat → Nat → List UInt8
  | 0, _ => []
  | width + 1, n => (n / 256 ^ width).toUInt8 :: bigEndian width n

def u8 (n : UInt8) : List UInt8 := [n]
def u16 (n : UInt16) : List UInt8 := bigEndian 2 n.toNat
def u32 (n : UInt32) : List UInt8 := bigEndian 4 n.toNat
def u64 (n : UInt64) : List UInt8 := bigEndian 8 n.toNat

/-- A count of two bytes and the items one after the other. -/
def table {α : Type} (encode : α → List UInt8) (items : List α) : List UInt8 :=
  u16 items.length.toUInt16 ++ items.flatMap encode

end Bytes

open Bytes (u8 u16 u32 u64 table)

def Constant.encode : Constant → List UInt8
  | .utf8 text =>
    u8 1 ++ u16 (ModifiedUtf8.encode text).length.toUInt16 ++ ModifiedUtf8.encode text
  | .integer value => u8 3 ++ u32 value.toUInt32
  | .float bits => u8 4 ++ u32 bits
  | .long value => u8 5 ++ u64 value.toUInt64
  | .double bits => u8 6 ++ u64 bits
  | .classRef name => u8 7 ++ u16 name
  | .string text => u8 8 ++ u16 text
  | .fieldRef owner member => u8 9 ++ u16 owner ++ u16 member
  | .methodRef owner member => u8 10 ++ u16 owner ++ u16 member
  | .interfaceMethodRef owner member => u8 11 ++ u16 owner ++ u16 member
  | .nameAndType name descriptor => u8 12 ++ u16 name ++ u16 descriptor
  | .methodHandle kind reference => u8 15 ++ u8 kind ++ u16 reference
  | .methodType descriptor => u8 16 ++ u16 descriptor
  | .dynamic bootstrap member => u8 17 ++ u16 bootstrap ++ u16 member
  | .invokeDynamic bootstrap member => u8 18 ++ u16 bootstrap ++ u16 member
  | .moduleRef name => u8 19 ++ u16 name
  | .packageRef name => u8 20 ++ u16 name
  | .unusable => []

def ConstantPool.encode (pool : ConstantPool) : List UInt8 :=
  u16 pool.count.toUInt16 ++ pool.slots.flatMap Constant.encode

def Attribute.encode (a : Attribute) : List UInt8 :=
  u16 a.name ++ u32 a.payload.length.toUInt32 ++ a.payload

def Member.encode (m : Member) : List UInt8 :=
  u16 m.flags ++ u16 m.name ++ u16 m.descriptor ++ table Attribute.encode m.attributes

def ClassFile.encode (file : ClassFile) : List UInt8 :=
  u32 file.magic ++ u16 file.minor ++ u16 file.major ++ file.pool.encode ++ u16 file.flags ++
    u16 file.thisClass ++ u16 file.superClass ++ table u16 file.interfaces ++
    table Member.encode file.fields ++ table Member.encode file.methods ++
    table Attribute.encode file.attributes

def ExceptionHandler.encode (h : ExceptionHandler) : List UInt8 :=
  u16 h.start ++ u16 h.stop ++ u16 h.handler ++ u16 h.catchType

def Code.encode (c : Code) : List UInt8 :=
  u16 c.maxStack ++ u16 c.maxLocals ++ u32 c.code.length.toUInt32 ++ c.code ++
    table ExceptionHandler.encode c.handlers ++ table Attribute.encode c.attributes

end ClassLoading
