import ClassLoading.ClassFile.Constant

/-! Constants of a loaded class. Indices are replaced by what they stand for, so a loaded class does
without its class file; a class constant also remembers the class it was resolved to, and a
reference to a field of the class itself the slot it was linked to. -/
namespace ClassLoading

/-- The place of a class in its loader's table, which grows in the order of definition. -/
abbrev ClassId := Nat

structure NameAndType where
  name : String
  descriptor : String
  deriving DecidableEq, Repr, Inhabited

inductive FieldLink where
  | ofClass (slot : Nat)
  | ofInstance (slot : Nat)
  deriving DecidableEq, Repr, Inhabited

inductive LoadedConstant where
  | utf8 (text : String)
  | integer (value : Int32)
  | float (bits : UInt32)
  | long (value : Int64)
  | double (bits : UInt64)
  | classRef (name : String) (target : Option ClassId)
  | string (text : String)
  | fieldRef (owner : String) (member : NameAndType) (link : Option FieldLink)
  | methodRef (owner : String) (member : NameAndType)
  | interfaceMethodRef (owner : String) (member : NameAndType)
  | nameAndType (member : NameAndType)
  | methodHandle (kind : UInt8) (reference : UInt16)
  | methodType (descriptor : String)
  | dynamic (bootstrap : UInt16) (member : NameAndType)
  | invokeDynamic (bootstrap : UInt16) (member : NameAndType)
  | moduleRef (name : String)
  | packageRef (name : String)
  | unusable
  deriving DecidableEq, Repr, Inhabited

namespace LoadedConstant

def kind : LoadedConstant → ConstantKind
  | .utf8 _ => .utf8
  | .integer _ => .integer
  | .float _ => .float
  | .long _ => .long
  | .double _ => .double
  | .classRef _ _ => .classRef
  | .string _ => .string
  | .fieldRef _ _ _ => .fieldRef
  | .methodRef _ _ => .methodRef
  | .interfaceMethodRef _ _ => .interfaceMethodRef
  | .nameAndType _ => .nameAndType
  | .methodHandle _ _ => .methodHandle
  | .methodType _ => .methodType
  | .dynamic _ _ => .dynamic
  | .invokeDynamic _ _ => .invokeDynamic
  | .moduleRef _ => .moduleRef
  | .packageRef _ => .packageRef
  | .unusable => .unusable

/-- Remembers the class a class constant leads to, unless it already has one. -/
def resolveTo (target : ClassId) : LoadedConstant → LoadedConstant
  | .classRef name none => .classRef name (some target)
  | constant => constant

def memberOf (pool : ConstantPool) (index : UInt16) : Except PoolError NameAndType := do
  let (name, descriptor) ← pool.nameAndType index
  return ⟨name, descriptor⟩

def ofConstant (pool : ConstantPool) : Constant → Except PoolError LoadedConstant
  | .utf8 text => return .utf8 text
  | .integer value => return .integer value
  | .float bits => return .float bits
  | .long value => return .long value
  | .double bits => return .double bits
  | .classRef name => return .classRef (← pool.utf8 name) none
  | .string text => return .string (← pool.utf8 text)
  | .fieldRef owner member =>
    return .fieldRef (← pool.className owner) (← memberOf pool member) none
  | .methodRef owner member => return .methodRef (← pool.className owner) (← memberOf pool member)
  | .interfaceMethodRef owner member =>
    return .interfaceMethodRef (← pool.className owner) (← memberOf pool member)
  | .nameAndType name descriptor =>
    return .nameAndType ⟨← pool.utf8 name, ← pool.utf8 descriptor⟩
  | .methodHandle kind reference => return .methodHandle kind reference
  | .methodType descriptor => return .methodType (← pool.utf8 descriptor)
  | .dynamic bootstrap member => return .dynamic bootstrap (← memberOf pool member)
  | .invokeDynamic bootstrap member => return .invokeDynamic bootstrap (← memberOf pool member)
  | .moduleRef name => return .moduleRef (← pool.utf8 name)
  | .packageRef name => return .packageRef (← pool.utf8 name)
  | .unusable => return .unusable

/-- The constants of a pool, slot by slot. -/
def ofPool (pool : ConstantPool) : Except PoolError (List LoadedConstant) :=
  pool.slots.mapM (ofConstant pool)

end LoadedConstant

end ClassLoading
