import ClassLoading.Definition.Fields

/-! The steps that take a class from loaded to resolved: verification of its version and
supertypes, preparation of its static values, and resolution of the references to its own fields. -/
namespace ClassLoading

def objectName : String := "java/lang/Object"
def cloneableName : String := "java/lang/Cloneable"
def serializableName : String := "java/io/Serializable"
def classClassName : String := "java/lang/Class"
def stringName : String := "java/lang/String"

structure LoaderConfig where
  classPath : ClassPath
  /-- Class files of an older major version are refused. -/
  leastMajor : UInt16
  /-- Class files of a newer major version are refused. -/
  greatestMajor : UInt16
  /-- Whether preparation gives constant static fields their constants. -/
  constantStatics : Bool
  deriving Repr, Inhabited

def LoaderConfig.standard : LoaderConfig := ⟨.empty, 45, 69, true⟩

def LoaderConfig.ofVariables (settings : Variables) : LoaderConfig :=
  { LoaderConfig.standard with classPath := .ofVariables settings }

namespace LoadedClass

/-! ### Verification -/

/-- The first structural rule a class breaks. -/
def verificationFault? (config : LoaderConfig) (classes : ClassTable) (c : LoadedClass) :
    Option VerificationFault :=
  if c.major < config.leastMajor ∨ config.greatestMajor < c.major then
    some (.unsupportedVersion c.major c.minor config.leastMajor config.greatestMajor)
  else match c.superClass.bind (classes[·]?) with
    | some parent =>
      if parent.isInterface then some (.superIsInterface parent.name) else interfaceFault?
    | none =>
      if !c.isInterface && c.name != objectName then some .missingSuper else interfaceFault?
where
  interfaceFault? : Option VerificationFault :=
    ((c.interfaces.filterMap (classes[·]?)).find? (!·.isInterface)).map
      fun other => .notAnInterface other.name

def verify (config : LoaderConfig) (classes : ClassTable) (c : LoadedClass) :
    Except LoadError LoadedClass :=
  match c.verificationFault? config classes with
  | some fault => .error (.verification c.name fault)
  | none => .ok (c.advance .verified)

/-! ### Preparation -/

/-- The kind of constant that a field of some type takes. -/
def expectedKind : FieldType → ConstantKind
  | .primitive .long => .long
  | .primitive .float => .float
  | .primitive .double => .double
  | .primitive _ => .integer
  | .object _ | .array _ => .string

/-- The value that a constant gives a field, `none` where the type takes no constant. -/
def constantValue? (type : FieldType) (index : UInt16) (constant : LoadedConstant) :
    Except PoolError (Option Value) :=
  match type, constant with
  | .array _, _ => .ok none
  | .object name, constant =>
    if name = stringName then
      match constant with
      | .string text => .ok (some (.string text))
      | other => .error (.mismatch index .string other.kind)
    else .ok none
  | .primitive .long, .long value => .ok (some (.long value))
  | .primitive .float, .float bits => .ok (some (.float bits))
  | .primitive .double, .double bits => .ok (some (.double bits))
  | .primitive .boolean, .integer value | .primitive .byte, .integer value
  | .primitive .char, .integer value | .primitive .short, .integer value
  | .primitive .int, .integer value => .ok (some (.int value))
  | type, other => .error (.mismatch index (expectedKind type) other.kind)

/-- The constant of a static final field. -/
def preparedValue? (c : LoadedClass) (field : LoadedField) : Except PoolError (Option Value) :=
  match field.constantIndex with
  | some index =>
    if field.isStatic && Access.isFinal field.flags then do
      constantValue? field.type index (← c.constant index)
    else .ok none
  | none => .ok none

/-- Gives the fields their constants in turn; the first unfit constant ends it. -/
def fillStatics (c : LoadedClass) : List LoadedField → Array Value → Except PoolError (Array Value)
  | [], statics => .ok statics
  | field :: rest, statics => do
    match ← c.preparedValue? field with
    | some value => c.fillStatics rest (statics.setIfInBounds field.slot value)
    | none => c.fillStatics rest statics

def prepare (config : LoaderConfig) (c : LoadedClass) : Except LoadError LoadedClass :=
  if config.constantStatics then
    match c.fillStatics c.fields c.statics with
    | .ok statics => .ok ({ c with statics }.advance .prepared)
    | .error cause => .error (.badConstant c.name cause)
  else .ok (c.advance .prepared)

/-! ### Resolution -/

/-- The slot behind a name and type: a static field of the class itself, else the nearest instance
field. A static field of a super class is left to be linked on use. -/
def fieldLink? (classes : ClassTable) (c : LoadedClass) (name : String) (type : FieldType) :
    Option FieldLink :=
  match c.staticField? name type with
  | some field => some (.ofClass field.slot)
  | none =>
    ((c.ownInstanceField? name type).or
      (c.superClass.bind (classes.instanceField? · name type))).map fun field =>
        .ofInstance field.slot

/-- Links a constant that refers to a field of the class itself. -/
def resolveConstant (classes : ClassTable) (c : LoadedClass) :
    LoadedConstant → Except DescriptorError LoadedConstant
  | .fieldRef owner member link =>
    if owner = c.name then do
      let type ← FieldType.ofDescriptor member.descriptor
      return .fieldRef owner member (link.or (c.fieldLink? classes member.name type))
    else .ok (.fieldRef owner member link)
  | constant => .ok constant

def resolve (classes : ClassTable) (c : LoadedClass) : Except LoadError LoadedClass :=
  match c.constants.toList.mapM (c.resolveConstant classes) with
  | .ok constants => .ok ({ c with constants := constants.toArray }.advance .resolved)
  | .error cause => .error (.invalidDescriptor c.name cause)

end LoadedClass

end ClassLoading
