import ClassLoading.Loaded.Class
import ClassLoading.Loaded.Error

/-! Declared fields and methods, decoded, and the layout of the fields. Instance slots go on where
those of the super class end, and a `long` or `double` takes two; static slots count from zero, one
for each field. -/
namespace ClassLoading

/-- A declared field before it has a slot. -/
structure FieldDeclaration where
  flags : UInt16
  name : String
  type : FieldType
  constantIndex : Option UInt16
  deriving DecidableEq, Repr, Inhabited

def FieldDeclaration.isStatic (field : FieldDeclaration) : Bool := Access.isStatic field.flags

namespace ConstantPool

def decodeField (pool : ConstantPool) (className : String) (m : Member) :
    Except LoadError FieldDeclaration := do
  let name ← (pool.utf8 m.name).mapError (.badConstant className)
  let descriptor ← (pool.utf8 m.descriptor).mapError (.badConstant className)
  let type ← (FieldType.ofDescriptor descriptor).mapError (.invalidDescriptor className)
  let constantIndex ←
    (pool.decodeAttribute ConstantValue.attributeName ConstantValue.parse m.attributes).mapError
      (.ofParse className)
  return { flags := m.flags, name, type, constantIndex }

def decodeMethod (pool : ConstantPool) (className : String) (m : Member) :
    Except LoadError LoadedMethod := do
  let name ← (pool.utf8 m.name).mapError (.badConstant className)
  let descriptor ← (pool.utf8 m.descriptor).mapError (.badConstant className)
  let type ← (MethodType.ofDescriptor descriptor).mapError (.invalidDescriptor className)
  let code ←
    (pool.decodeAttribute Code.attributeName Code.parse m.attributes).mapError (.ofParse className)
  return { flags := m.flags, name, type, code }

end ConstantPool

namespace FieldDeclaration

def atSlot (field : FieldDeclaration) (slot : Nat) : LoadedField :=
  { flags := field.flags, name := field.name, type := field.type, slot,
    constantIndex := field.constantIndex }

/-- The fields with their slots, given the next free instance slot and the next static one. -/
def layout (instanceSlot staticSlot : Nat) : List FieldDeclaration → List LoadedField
  | [] => []
  | field :: rest =>
    if field.isStatic then
      field.atSlot staticSlot :: layout instanceSlot (staticSlot + 1) rest
    else field.atSlot instanceSlot :: layout (instanceSlot + field.type.width) staticSlot rest

/-- The slots that the instance fields of a list take together. -/
def instanceWidth : List FieldDeclaration → Nat
  | [] => 0
  | field :: rest => (if field.isStatic then 0 else field.type.width) + instanceWidth rest

end FieldDeclaration

end ClassLoading
