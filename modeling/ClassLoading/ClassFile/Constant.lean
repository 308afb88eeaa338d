import ClassLoading.ClassFile.Error

/-! The constant pool. Slots are numbered from 1; a `long` or `double` takes its slot and the next,
which is unusable. A constant refers to others by index, and `ConstantPool.checkReferences` tests
that each such index leads to a constant of the required kind. -/
namespace ClassLoading

inductive Constant where
  | utf8 (text : String)
  | integer (value : Int32)
  /-- IEEE bits, so that every payload of a NaN is kept. -/
  | float (bits : UInt32)
  | long (value : Int64)
  | double (bits : UInt64)
  | classRef (name : UInt16)
  | string (text : UInt16)
  | fieldRef (owner nameAndType : UInt16)
  | methodRef (owner nameAndType : UInt16)
  | interfaceMethodRef (owner nameAndType : UInt16)
  | nameAndType (name descriptor : UInt16)
  | methodHandle (kind : UInt8) (reference : UInt16)
  | methodType (descriptor : UInt16)
  | dynamic (bootstrap nameAndType : UInt16)
  | invokeDynamic (bootstrap nameAndType : UInt16)
  | moduleRef (name : UInt16)
  | packageRef (name : UInt16)
  | unusable
  deriving DecidableEq, Repr, Inhabited

namespace Constant

def kind : Constant → ConstantKind
  | .utf8 _ => .utf8
  | .integer _ => .integer
  | .float _ => .float
  | .long _ => .long
  | .double _ => .double
  | .classRef _ => .classRef
  | .string _ => .string
  | .fieldRef _ _ => .fieldRef
  | .methodRef _ _ => .methodRef
  | .interfaceMethodRef _ _ => .interfaceMethodRef
  | .nameAndType _ _ => .nameAndType
  | .methodHandle _ _ => .methodHandle
  | .methodType _ => .methodType
  | .dynamic _ _ => .dynamic
  | .invokeDynamic _ _ => .invokeDynamic
  | .moduleRef _ => .moduleRef
  | .packageRef _ => .packageRef
  | .unusable => .unusable

def isWide : Constant → Bool
  | .long _ | .double _ => true
  | _ => false

end Constant

structure ConstantPool where
  slots : List Constant
  deriving DecidableEq, Repr, Inhabited

namespace ConstantPool

/-- One more than the number of slots, as a class file writes it. -/
def count (pool : ConstantPool) : Nat := pool.slots.length + 1

/-- The constant at a 1-based index. -/
def get (pool : ConstantPool) (index : UInt16) : Except PoolError Constant :=
  if index = 0 then .error (.outOfRange index pool.count)
  else match pool.slots[index.toNat - 1]? with
    | none => .error (.outOfRange index pool.count)
    | some .unusable => .error (.unusable index)
    | some constant => .ok constant

def utf8 (pool : ConstantPool) (index : UInt16) : Except PoolError String := do
  match ← pool.get index with
  | .utf8 text => return text
  | other => throw (.mismatch index .utf8 other.kind)

def className (pool : ConstantPool) (index : UInt16) : Except PoolError String := do
  match ← pool.get index with
  | .classRef name => pool.utf8 name
  | other => throw (.mismatch index .classRef other.kind)

/-- Name and descriptor behind a name-and-type constant. -/
def nameAndType (pool : ConstantPool) (index : UInt16) : Except PoolError (String × String) := do
  match ← pool.get index with
  | .nameAndType name descriptor => return (← pool.utf8 name, ← pool.utf8 descriptor)
  | other => throw (.mismatch index .nameAndType other.kind)

/-- The usable constants with their indices. -/
def usable (pool : ConstantPool) : List (UInt16 × Constant) :=
  (pool.slots.zipIdx.filter fun entry => entry.1 != .unusable).map
    fun entry => ((entry.2 + 1).toUInt16, entry.1)

/-- Tests the indices that one constant holds, in the order they stand in it. -/
def checkConstant (pool : ConstantPool) (index : UInt16) : Constant → Except PoolError Unit
  | .classRef name | .moduleRef name | .packageRef name => do discard (pool.utf8 name)
  | .string text => do discard (pool.utf8 text)
  | .methodType descriptor => do discard (pool.utf8 descriptor)
  | .fieldRef owner member | .methodRef owner member | .interfaceMethodRef owner member => do
    discard (pool.className owner)
    discard (pool.nameAndType member)
  | .nameAndType _ _ => do discard (pool.nameAndType index)
  | .dynamic _ member | .invokeDynamic _ member => do discard (pool.nameAndType member)
  | .methodHandle _ reference => do discard (pool.get reference)
  | .utf8 _ | .integer _ | .float _ | .long _ | .double _ | .unusable => return ()

/-- Tests the usable constants in the order of their indices; the first fault is the answer. -/
def checkReferences (pool : ConstantPool) : Except PoolError Unit :=
  pool.usable.forM fun (index, constant) => pool.checkConstant index constant

end ConstantPool

end ClassLoading
