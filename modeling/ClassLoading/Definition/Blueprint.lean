import ClassLoading.Definition.Linking

/-! From a name to a class in two halves. A blueprint says what kind of class a name stands for and
which other classes it needs; once those are loaded, in the blueprint's order, the class is built
from them without any further request. -/
namespace ClassLoading

inductive Blueprint where
  | primitive (type : Option Primitive)
  | array (component : FieldType)
  | ordinary (file : ClassFile) (superName : Option String) (interfaceNames : List String)
  deriving Repr, Inhabited

namespace Blueprint

/-- The classes to load before this one, in order. -/
def dependencies : Blueprint → List String
  | .primitive _ => []
  | .array component => [component.className, objectName, cloneableName, serializableName]
  | .ordinary _ superName interfaceNames => superName.toList ++ interfaceNames

/-- The blueprint of a class file that was found for a name. -/
def ofBytes (name : String) (bytes : List UInt8) : Except LoadError Blueprint := do
  let file ← (ClassFile.parse bytes).mapError (.ofParse name)
  let declared ← file.className.mapError (.badConstant name)
  if declared = name then
    let superName ← file.superName.mapError (.badConstant name)
    let interfaceNames ← file.interfaceNames.mapError (.badConstant name)
    return .ordinary file superName interfaceNames
  else throw (.nameMismatch name declared)

/-- The blueprint of an array name. -/
def ofArrayName (name : String) : Except LoadError Blueprint :=
  match FieldType.ofDescriptor name with
  | .ok (.array component) => .ok (.array component)
  | .ok _ => .error (.invalidDescriptor name ⟨name⟩)
  | .error cause => .error (.invalidDescriptor name cause)

def isArrayName (name : String) : Bool := name.toList.head? == some '['

/-- Whether a name is looked up: array and primitive classes are not. -/
def isSearched (name : String) : Bool := (primitiveClass? name).isNone && !isArrayName name

def ofName (search : ClassSearch) (name : String) : Except LoadError Blueprint :=
  match primitiveClass? name with
  | some type => .ok (.primitive type)
  | none =>
    if isArrayName name then ofArrayName name
    else match search.find name with
      | .ok bytes => ofBytes name bytes
      | .error cause => .error (.ofSearch name cause)

/-! ### Building -/

/-- A class that comes from no file. -/
def synthetic (classes : ClassTable) (name : String) (kind : ClassKind) (flags : UInt16)
    (superClass : Option ClassId) (interfaces : List ClassId) (stage : Stage) : LoadedClass where
  name := name
  kind := kind
  flags := flags
  minor := 0
  major := 0
  superClass := superClass
  interfaces := interfaces
  fields := []
  instanceSlots := ((superClass.bind (classes[·]?)).map (·.instanceSlots)).getD 0
  statics := #[]
  methods := []
  constants := #[]
  stage := stage
  initStatus := .done
  classObject := none

def buildPrimitive (classes : ClassTable) (name : String) (type : Option Primitive) :
    LoadedClass :=
  synthetic classes name (.primitive type) Access.primitiveWord none [] .initialized

def buildArray (classes : ClassTable) (name : String) (component superClass : ClassId)
    (interfaces : List ClassId) : LoadedClass :=
  let isPublic := (classes[component]?.map fun c => c.isPrimitive || Access.isPublic c.flags).getD
    false
  let dimensions := (name.toList.takeWhile (· == '[')).length
  synthetic classes name (.array component dimensions) (Access.arrayWord isPublic)
    (some superClass) interfaces .resolved

/-- A class as its file declares it, with the constants of its supertypes linked. -/
def declaredClass (classes : ClassTable) (name : String) (file : ClassFile)
    (superClass : Option ClassId) (interfaces : List ClassId) : Except LoadError LoadedClass := do
  let constants ← (LoadedConstant.ofPool file.pool).mapError (.badConstant name)
  let declarations ← file.fields.mapM (file.pool.decodeField name)
  let methods ← file.methods.mapM (file.pool.decodeMethod name)
  let inherited := ((superClass.bind (classes[·]?)).map (·.instanceSlots)).getD 0
  let declared : LoadedClass := {
    name, kind := .ordinary, flags := file.flags, minor := file.minor, major := file.major
    superClass, interfaces
    fields := FieldDeclaration.layout inherited 0 declarations
    instanceSlots := inherited + FieldDeclaration.instanceWidth declarations
    statics := ((declarations.filter (·.isStatic)).map fun field => Value.zero field.type).toArray
    methods, constants := constants.toArray
    stage := .loaded, initStatus := .notStarted, classObject := none }
  let linked := match superClass with
    | some parent => declared.link file.superClass parent
    | none => declared
  return (file.interfaces.zip interfaces).foldl (fun c entry => c.link entry.1 entry.2) linked

def buildOrdinary (config : LoaderConfig) (classes : ClassTable) (name : String) (file : ClassFile)
    (superClass : Option ClassId) (interfaces : List ClassId) : Except LoadError LoadedClass := do
  let declared ← declaredClass classes name file superClass interfaces
  let verified ← declared.verify config classes
  let prepared ← verified.prepare config
  prepared.resolve classes

/-- Builds the class of a blueprint from the classes its dependencies were loaded as. -/
def build (config : LoaderConfig) (classes : ClassTable) (name : String) :
    Blueprint → List ClassId → Except LoadError LoadedClass
  | .primitive type, _ => .ok (buildPrimitive classes name type)
  | .array _, component :: parent :: interfaces =>
    .ok (buildArray classes name component parent interfaces)
  | .array _, _ => .error (.notFound name)
  | .ordinary file none _, interfaces => buildOrdinary config classes name file none interfaces
  | .ordinary file (some _) _, parent :: interfaces =>
    buildOrdinary config classes name file (some parent) interfaces
  | .ordinary _ (some _) _, [] => .error (.notFound name)

end Blueprint

end ClassLoading
