import ClassLoading.ClassFile.Code
import ClassLoading.Descriptor
import ClassLoading.Loaded.Constant
import ClassLoading.Text.Split

/-! A class as its loader holds it. What the class declares never changes; its static values, its
lifecycle stage, the state of its initialization, its class object and its resolved references do. -/
namespace ClassLoading

/-- Contents of a static field. Floating-point values are IEEE bits. -/
inductive Value where
  /-- Also `boolean`, `byte`, `char` and `short`. -/
  | int (value : Int32)
  | long (value : Int64)
  | float (bits : UInt32)
  | double (bits : UInt64)
  | string (text : String)
  | null
  deriving DecidableEq, Repr, Inhabited

def Value.zero : FieldType → Value
  | .primitive .long => .long 0
  | .primitive .float => .float 0
  | .primitive .double => .double 0
  | .primitive _ => .int 0
  | .object _ | .array _ => .null

structure LoadedField where
  flags : UInt16
  name : String
  type : FieldType
  /-- Place in the instance layout or, for a static field, among the static values. -/
  slot : Nat
  /-- Index of the field's `ConstantValue`. -/
  constantIndex : Option UInt16
  deriving DecidableEq, Repr, Inhabited

def LoadedField.isStatic (field : LoadedField) : Bool := Access.isStatic field.flags

structure LoadedMethod where
  flags : UInt16
  name : String
  type : MethodType
  /-- Missing for abstract and native methods. -/
  code : Option Code
  deriving DecidableEq, Repr, Inhabited

inductive ClassKind where
  | ordinary
  /-- No type is `void`. -/
  | primitive (type : Option Primitive)
  | array (component : ClassId) (dimensions : Nat)
  deriving DecidableEq, Repr, Inhabited

/-- Lifecycle of a class, which only moves forward. -/
inductive Stage where
  | loaded
  | verified
  | prepared
  | resolved
  | initialized
  deriving DecidableEq, Repr, Inhabited

namespace Stage

def rank : Stage → Nat
  | .loaded => 0
  | .verified => 1
  | .prepared => 2
  | .resolved => 3
  | .initialized => 4

def label : Stage → String
  | .loaded => "Loaded"
  | .verified => "Verified"
  | .prepared => "Prepared"
  | .resolved => "Resolved"
  | .initialized => "Initialized"

/-- The later of two stages. -/
def advance (stage next : Stage) : Stage := if stage.rank ≤ next.rank then next else stage

end Stage

inductive InitStatus where
  | notStarted
  | running
  | done
  | failed
  deriving DecidableEq, Repr, Inhabited

structure LoadedClass where
  name : String
  kind : ClassKind
  flags : UInt16
  minor : UInt16
  major : UInt16
  superClass : Option ClassId
  interfaces : List ClassId
  /-- Declared fields only; inherited ones stay with the super classes. -/
  fields : List LoadedField
  /-- Slots of an instance, inherited ones included. -/
  instanceSlots : Nat
  statics : Array Value
  methods : List LoadedMethod
  constants : Array LoadedConstant
  stage : Stage
  initStatus : InitStatus
  /-- The class object, by its place in the loader's pool. -/
  classObject : Option Nat
  deriving DecidableEq, Repr, Inhabited

namespace LoadedClass

/-- The name with dots for slashes. -/
def binaryName (c : LoadedClass) : String := Text.replace '/' '.' c.name

def isInterface (c : LoadedClass) : Bool := Access.isInterface c.flags

def isPrimitive (c : LoadedClass) : Bool :=
  match c.kind with
  | .primitive _ => true
  | _ => false

def isArray (c : LoadedClass) : Bool :=
  match c.kind with
  | .array _ _ => true
  | _ => false

def component? (c : LoadedClass) : Option ClassId :=
  match c.kind with
  | .array component _ => some component
  | _ => none

/-- Zero for all but arrays. -/
def dimensions (c : LoadedClass) : Nat :=
  match c.kind with
  | .array _ dimensions => dimensions
  | _ => 0

/-- The first declared field of a name. -/
def field? (c : LoadedClass) (name : String) : Option LoadedField :=
  c.fields.find? (·.name == name)

def staticField? (c : LoadedClass) (name : String) (type : FieldType) : Option LoadedField :=
  c.fields.find? fun field => field.isStatic && field.name == name && field.type == type

def ownInstanceField? (c : LoadedClass) (name : String) (type : FieldType) : Option LoadedField :=
  c.fields.find? fun field => !field.isStatic && field.name == name && field.type == type

def method? (c : LoadedClass) (name : String) (type : MethodType) : Option LoadedMethod :=
  c.methods.find? fun method => method.name == name && method.type == type

/-- The constant at a 1-based index. -/
def constant (c : LoadedClass) (index : UInt16) : Except PoolError LoadedConstant :=
  if index = 0 then .error (.outOfRange index (c.constants.size + 1))
  else match c.constants[index.toNat - 1]? with
    | none => .error (.outOfRange index (c.constants.size + 1))
    | some .unusable => .error (.unusable index)
    | some constant => .ok constant

/-- Lets the class constant at a 1-based index lead to a class. -/
def link (c : LoadedClass) (index : UInt16) (target : ClassId) : LoadedClass :=
  if index = 0 then c
  else { c with constants := c.constants.modify (index.toNat - 1) (·.resolveTo target) }

def advance (c : LoadedClass) (stage : Stage) : LoadedClass :=
  { c with stage := c.stage.advance stage }

end LoadedClass

/-! ### The table of loaded classes -/

abbrev ClassTable := Array LoadedClass

namespace ClassTable

/-- A class and its super classes, nearest first. A super class stands earlier in the table than
its sub classes, and a reference that does not lead earlier is not followed. -/
def superChain (classes : ClassTable) (id : ClassId) : List ClassId :=
  id :: match classes[id]?.bind (·.superClass) with
    | none => []
    | some parent => if parent < id then superChain classes parent else []

def isSubclass (classes : ClassTable) (id other : ClassId) : Bool :=
  (classes.superChain id).contains other

/-- The nearest declaration of an instance field, from a class upwards. -/
def instanceField? (classes : ClassTable) (id : ClassId) (name : String) (type : FieldType) :
    Option LoadedField :=
  (classes.superChain id).findSome? fun c => classes[c]?.bind (·.ownInstanceField? name type)

def name? (classes : ClassTable) (id : ClassId) : Option String := classes[id]?.map (·.name)

end ClassTable

end ClassLoading
