import ClassLoading.Definition.Blueprint
import ClassLoading.Loader.InFlight

/-! The state of a class loader. The registry leads from a name to a slot, and a slot is either
loading or holds the result of its load. A load takes a slot, defines the class, publishes the
result in the slot, forgets the slot again if the result is an error, and gives up its ownership;
each of these is one operation on the state. -/
namespace ClassLoading

abbrev SlotId := Nat

inductive Slot where
  | loading
  | done (result : Except LoadError ClassId)
  deriving Inhabited

abbrev ObjectId := Nat

/-- The object that stands for one class. -/
structure ClassObject where
  /-- The class's name, which the pool knows the object by. -/
  key : String
  entity : ClassId
  /-- The class of the object itself. -/
  classClass : ClassId
  deriving DecidableEq, Repr, Inhabited

/-- The dotted name of the class an object stands for. -/
def ClassObject.name (object : ClassObject) : String := Text.replace '/' '.' object.key

/-- One run of a static initializer and the length of its code. -/
structure InitializerRun where
  className : String
  codeLength : Option Nat
  deriving DecidableEq, Repr, Inhabited

structure Loader where
  classes : ClassTable
  slots : Array Slot
  registry : List (String × SlotId)
  inFlight : InFlight
  /-- At most one object for each class name. -/
  objects : Array ClassObject
  /-- The class of class objects, once it is loaded. -/
  classClass : Option ClassId
  /-- Every name that was looked up, oldest first. -/
  lookups : List String
  /-- Every static initializer that was run, oldest first. -/
  runs : List InitializerRun
  deriving Inhabited

namespace Loader

def empty : Loader where
  classes := #[]
  slots := #[]
  registry := []
  inFlight := .empty
  objects := #[]
  classClass := none
  lookups := []
  runs := []

def slot? (s : Loader) (name : String) : Option Slot :=
  (s.registry.lookup name).bind (s.slots[·]?)

/-- The class of a name that has been loaded; loads nothing. -/
def findLoaded? (s : Loader) (name : String) : Option ClassId :=
  match s.slot? name with
  | some (.done (.ok id)) => some id
  | _ => none

/-- The names of all loaded classes. -/
def loadedNames (s : Loader) : List String :=
  (s.registry.map (·.1)).filter fun name => (s.findLoaded? name).isSome

def isLoading (s : Loader) (name : String) : Bool :=
  match s.slot? name with
  | some .loading => true
  | _ => false

/-! ### The steps of a load -/

/-- Takes a fresh slot for a name. -/
def acquire (s : Loader) (thread : ThreadId) (name : String) : Loader :=
  { s with
    slots := s.slots.push .loading
    registry := (name, s.slots.size) :: s.registry
    inFlight := s.inFlight.start thread name }

/-- Records the look-up of a name, where the name is one that is looked up. -/
def noteLookup (s : Loader) (name : String) : Loader :=
  if Blueprint.isSearched name then { s with lookups := s.lookups ++ [name] } else s

def updateClass (s : Loader) (id : ClassId) (f : LoadedClass → LoadedClass) : Loader :=
  { s with classes := s.classes.modify id f }

/-- The pool's object for a class name. -/
def object? (s : Loader) (name : String) : Option ObjectId :=
  s.objects.findIdx? (·.key == name)

/-- The pool's object for a class, made on the first request. -/
def pooledObject (s : Loader) (classClass id : ClassId) (name : String) : ObjectId × Loader :=
  match s.object? name with
  | some object => (object, s)
  | none => (s.objects.size, { s with objects := s.objects.push ⟨name, id, classClass⟩ })

/-- Makes sure that the pool has an object for a class and that the class points to it. -/
def attachObject (s : Loader) (classClass id : ClassId) : Loader :=
  match s.classes[id]? with
  | none => s
  | some c =>
    (s.pooledObject classClass id c.name).2.updateClass id fun c' =>
      { c' with classObject :=
          c'.classObject.or (some (s.pooledObject classClass id c.name).1) }

/-- Attaches a class object as soon as there is a class for objects. -/
def attachIfReady (s : Loader) (id : ClassId) : Loader :=
  match s.classClass with
  | some classClass => s.attachObject classClass id
  | none => s

/-- Adds a class to the table, under the next free place. -/
def addClass (s : Loader) (c : LoadedClass) : Loader :=
  { s with classes := s.classes.push c }.attachIfReady s.classes.size

/-- Fills a slot, for all who wait on it. -/
def publish (s : Loader) (slot : SlotId) (result : Except LoadError ClassId) : Loader :=
  { s with slots := s.slots.setIfInBounds slot (.done result) }

/-- Takes a name out of the registry if it still has the given slot. -/
def forget (s : Loader) (name : String) (slot : SlotId) : Loader :=
  { s with registry := s.registry.filter fun entry => entry != (name, slot) }

def release (s : Loader) (name : String) : Loader :=
  { s with inFlight := s.inFlight.finish name }

/-- Ends a load: a class is added and published, an error published and forgotten. -/
def complete (s : Loader) (name : String) (slot : SlotId) :
    Except LoadError LoadedClass → Except LoadError ClassId × Loader
  | .ok c =>
    (.ok s.classes.size, ((s.addClass c).publish slot (.ok s.classes.size)).release name)
  | .error e => (.error e, ((s.publish slot (.error e)).forget name slot).release name)

end Loader

end ClassLoading
