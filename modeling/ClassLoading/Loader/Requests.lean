import ClassLoading.Loader.Initialization

/-! The requests a loader answers besides loading and initialization: class objects, classes by
their dotted names, and the classes that constants refer to. A loader is ready for requests once it
has loaded the class of class objects and the primitive classes and every class has its object. -/
namespace ClassLoading

namespace Loader

/-! ### Getting ready -/

/-- The names of the primitive classes. -/
def primitiveNames : List String := primitiveClasses.map fun entry => entry.1

/-- Gives every loaded class its object. -/
def attachAll (s : Loader) (classClass : ClassId) : Loader :=
  (s.loadedNames.filterMap s.findLoaded?).foldl (fun t id => t.attachObject classClass id) s

/-- A loader that has answered no request yet. -/
def bootstrap (env : Environment) : Except LoadError Loader :=
  match empty.load env classClassName with
  | (.error e, _) => .error (.bootstrap e)
  | (.ok classClass, s) =>
    match { s with classClass := some classClass }.loadAll env primitiveNames with
    | (.error e, _) => .error (.bootstrap e)
    | (.ok _, t) => .ok (t.attachAll classClass)

/-- The names that are looked up while a loader gets ready, whether it gets there or not. -/
def bootstrapLookups (env : Environment) : List String :=
  match empty.load env classClassName with
  | (.error _, s) => s.lookups
  | (.ok classClass, s) =>
    ({ s with classClass := some classClass }.loadAll env primitiveNames).2.lookups

/-! ### Class objects -/

/-- The object of a class in the table. -/
def objectOf (s : Loader) (id : ClassId) : Except LoadError ObjectId × Loader :=
  match s.classClass, s.classes.name? id with
  | some classClass, some name =>
    (.ok (s.pooledObject classClass id name).1, s.attachObject classClass id)
  | _, _ => (.error (.notFound classClassName), s)

/-- Goes on with a class that was asked for, unless it could not be had. -/
def withObject : Except LoadError ClassId × Loader → Except LoadError ObjectId × Loader
  | (.error e, s) => (.error e, s)
  | (.ok id, s) => s.objectOf id

/-- The object of the class of a name, which is loaded if need be. -/
def loadObject (env : Environment) (s : Loader) (name : String) :
    Except LoadError ObjectId × Loader :=
  withObject (s.load env name)

/-- Names that cannot be asked for in the dotted spelling. -/
def isUndotted (name : String) : Bool :=
  name.toList.contains '/' || (primitiveClass? name).isSome

/-- The object of the class of a dotted name; the class is initialized as well if `run` says so. -/
def forName (env : Environment) (s : Loader) (name : String) (run : Bool) :
    Except LoadError ObjectId × Loader :=
  if isUndotted name then (.error (.notFound name), s)
  else
    let internal := Text.replace '.' '/' name
    withObject (if run then s.loadInit env internal else s.load env internal)

/-! ### Classes behind constants -/

/-- The class that a class constant refers to, loaded if need be and remembered in the constant. -/
def resolveClass (env : Environment) (s : Loader) (id : Fin s.classes.size) (index : UInt16) :
    Except LoadError ClassId × Loader :=
  let c := s.classes[id]
  match c.constant index with
  | .error cause => (.error (.badConstant c.name cause), s)
  | .ok (.classRef _ (some target)) => (.ok target, s)
  | .ok (.classRef name none) =>
    if name = c.name then (.ok id, s.updateClass id (·.link index id))
    else match s.load env name with
      | (.error e, t) => (.error e, t)
      | (.ok target, t) => (.ok target, t.updateClass id (·.link index target))
  | .ok other => (.error (.badConstant c.name (.mismatch index .classRef other.kind)), s)

end Loader

end ClassLoading
