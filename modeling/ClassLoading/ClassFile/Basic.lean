import ClassLoading.ClassFile.Constant

/-! A class file as its tables: the constant pool, the class's own indices, and the declared fields
and methods with their attributes, whose contents are left as bytes. -/
namespace ClassLoading

structure Attribute where
  name : UInt16
  payload : List UInt8
  deriving DecidableEq, Repr, Inhabited

/-- A declared field or method. -/
structure Member where
  flags : UInt16
  name : UInt16
  descriptor : UInt16
  attributes : List Attribute
  deriving DecidableEq, Repr, Inhabited

structure ClassFile where
  magic : UInt32
  minor : UInt16
  major : UInt16
  pool : ConstantPool
  flags : UInt16
  thisClass : UInt16
  /-- Zero when the class has no super class. -/
  superClass : UInt16
  interfaces : List UInt16
  fields : List Member
  methods : List Member
  attributes : List Attribute
  deriving DecidableEq, Repr, Inhabited

namespace ClassFile

def className (file : ClassFile) : Except PoolError String := file.pool.className file.thisClass

def superName (file : ClassFile) : Except PoolError (Option String) :=
  if file.superClass = 0 then .ok none else some <$> file.pool.className file.superClass

def interfaceNames (file : ClassFile) : Except PoolError (List String) :=
  file.interfaces.mapM file.pool.className

end ClassFile

/-- The first attribute of a list that has the given name. -/
def ConstantPool.findAttribute (pool : ConstantPool) (name : String) :
    List Attribute → Except PoolError (Option Attribute)
  | [] => .ok none
  | a :: rest => do
    if (← pool.utf8 a.name) = name then return some a
    pool.findAttribute name rest

namespace ClassFile

def checkAttributes (pool : ConstantPool) (attributes : List Attribute) : Except PoolError Unit :=
  attributes.forM fun a => do discard (pool.utf8 a.name)

def checkMember (pool : ConstantPool) (m : Member) : Except PoolError Unit := do
  discard (pool.utf8 m.name)
  discard (pool.utf8 m.descriptor)
  checkAttributes pool m.attributes

/-- Tests every index of the file that leads into the constant pool. -/
def checkIndices (file : ClassFile) : Except PoolError Unit := do
  file.pool.checkReferences
  discard file.className
  discard file.superName
  discard file.interfaceNames
  (file.fields ++ file.methods).forM (checkMember file.pool)
  checkAttributes file.pool file.attributes

end ClassFile

end ClassLoading
