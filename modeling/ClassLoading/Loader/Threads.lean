import ClassLoading.Loader.Requests

/-! Loads by several threads at once. Every thread is at one activity of the innermost load it has
begun, and below it stand the classes whose definitions called for that load. One step of a thread
does what happens under one lock: it looks at the registry, takes a slot, registers a wait, fills a
slot, and so on. Any order of steps is a run; `Machine.settle` takes turns. -/
namespace ClassLoading

/-- A class that is being defined: it has a slot and a blueprint, and some of the classes that it
depends on are loaded. -/
structure Definition where
  name : String
  slot : SlotId
  plan : Blueprint
  loaded : List ClassId
  todo : List String
  deriving Repr, Inhabited

/-- What a thread does next. -/
inductive Activity where
  /-- Look for the name in the registry. -/
  | lookup (name : String)
  /-- Take a slot for the name, unless it has got one meanwhile. -/
  | register (name : String)
  /-- See whether the slot of another load holds a class. -/
  | inspect (name : String) (slot : SlotId)
  /-- Register as waiting for the slot, unless the wait could not end. -/
  | requestWait (name : String) (slot : SlotId)
  /-- Wait until the slot is filled. -/
  | await (name : String) (slot : SlotId)
  | stopWaiting (result : Except LoadError ClassId)
  /-- Find out what the name stands for. -/
  | search (name : String) (slot : SlotId)
  /-- Load the next dependency, or build the class when there is none. -/
  | define (definition : Definition)
  | publish (name : String) (slot : SlotId) (result : Except LoadError ClassId)
  | forget (name : String) (slot : SlotId) (error : LoadError)
  | release (name : String) (result : Except LoadError ClassId)
  /-- Hand the result to the caller. -/
  | answer (result : Except LoadError ClassId)
  deriving Inhabited

structure Thread where
  activity : Activity
  /-- The definitions that called for the load, innermost first. -/
  callers : List Definition
  deriving Inhabited

namespace Thread

/-- A thread that starts with the load of a class. -/
def start (name : String) : Thread := ⟨.lookup name, []⟩

/-- The result of a thread that has ended. -/
def result? : Thread → Option (Except LoadError ClassId)
  | ⟨.answer result, []⟩ => some result
  | _ => none

/-- What is left to do once a class has been published. -/
def afterPublish (name : String) (slot : SlotId) : Except LoadError ClassId → Activity
  | .ok id => .release name (.ok id)
  | .error e => .forget name slot e

/-- The class that a definition makes of its loaded dependencies, in the table if all is well. -/
def build (env : Environment) (s : Loader) (d : Definition) : Except LoadError ClassId × Loader :=
  match d.plan.build env.config s.classes d.name d.loaded with
  | .ok c => (.ok s.classes.size, s.addClass c)
  | .error e => (.error e, s)

/-- One step of a thread; there is none for a thread that has ended or that must wait. -/
def step (env : Environment) (s : Loader) (me : ThreadId) : Thread → Option (Loader × Thread)
  | ⟨.lookup name, callers⟩ =>
    match s.registry.lookup name with
    | some slot => some (s, ⟨.inspect name slot, callers⟩)
    | none => some (s, ⟨.register name, callers⟩)
  | ⟨.register name, callers⟩ =>
    match s.registry.lookup name with
    | some slot => some (s, ⟨.inspect name slot, callers⟩)
    | none => some (s.acquire me name, ⟨.search name s.slots.size, callers⟩)
  | ⟨.inspect name slot, callers⟩ =>
    match s.slots[slot]? with
    | some (.done (.ok id)) => some (s, ⟨.answer (.ok id), callers⟩)
    | _ => some (s, ⟨.requestWait name slot, callers⟩)
  | ⟨.requestWait name slot, callers⟩ =>
    match s.inFlight.waitFor me name with
    | .ok table => some ({ s with inFlight := table }, ⟨.await name slot, callers⟩)
    | .error e => some (s, ⟨.answer (.error e), callers⟩)
  | ⟨.await _ slot, callers⟩ =>
    match s.slots[slot]? with
    | some (.done result) => some (s, ⟨.stopWaiting result, callers⟩)
    | _ => none
  | ⟨.stopWaiting result, callers⟩ =>
    some ({ s with inFlight := s.inFlight.stopWaiting me }, ⟨.answer result, callers⟩)
  | ⟨.search name slot, callers⟩ =>
    match Blueprint.ofName env.search name with
    | .ok plan =>
      some (s.noteLookup name, ⟨.define ⟨name, slot, plan, [], plan.dependencies⟩, callers⟩)
    | .error e => some (s.noteLookup name, ⟨.publish name slot (.error e), callers⟩)
  | ⟨.define d, callers⟩ =>
    match d.todo with
    | name :: todo => some (s, ⟨.lookup name, { d with todo } :: callers⟩)
    | [] =>
      let (result, t) := build env s d
      some (t, ⟨.publish d.name d.slot result, callers⟩)
  | ⟨.publish name slot result, callers⟩ =>
    some (s.publish slot result, ⟨afterPublish name slot result, callers⟩)
  | ⟨.forget name slot e, callers⟩ =>
    some (s.forget name slot, ⟨.release name (.error e), callers⟩)
  | ⟨.release name result, callers⟩ => some (s.release name, ⟨.answer result, callers⟩)
  | ⟨.answer _, []⟩ => none
  | ⟨.answer (.ok id), d :: callers⟩ =>
    some (s, ⟨.define { d with loaded := d.loaded ++ [id] }, callers⟩)
  | ⟨.answer (.error e), d :: callers⟩ => some (s, ⟨.publish d.name d.slot (.error e), callers⟩)

end Thread

/-- A loader and the threads that use it, each known by its place. -/
structure Machine where
  loader : Loader
  threads : Array Thread
  deriving Inhabited

namespace Machine

def start (s : Loader) (names : List String) : Machine := ⟨s, (names.map Thread.start).toArray⟩

/-- The step of one thread of a machine. -/
def step (env : Environment) (m : Machine) (id : ThreadId) : Option Machine :=
  match m.threads[id]? with
  | none => none
  | some thread =>
    match thread.step env m.loader id with
    | none => none
    | some (s, next) => some ⟨s, m.threads.setIfInBounds id next⟩

/-- Steps of threads in the given order; a thread that cannot move is passed over. -/
def run (env : Environment) (m : Machine) (schedule : List ThreadId) : Machine :=
  schedule.foldl (fun m id => (m.step env id).getD m) m

/-! ### Taking turns -/

/-- The name that a thread is about to look up. -/
def searched? (m : Machine) (id : ThreadId) : Option String :=
  match m.threads[id]? with
  | some ⟨.search name _, _⟩ => some name
  | _ => none

/-- The names of `meet` that some thread is about to look up, added to those that were before. -/
def arrivals (m : Machine) (meet arrived : List String) : List String :=
  ((List.range m.threads.size).filterMap m.searched?).foldl
    (fun names name => if meet.contains name && !names.contains name then name :: names else names)
    arrived

/-- Whether the look-up of a thread has to wait until every name of `meet` has been reached. -/
def isHeld (m : Machine) (meet arrived : List String) (id : ThreadId) : Bool :=
  match m.searched? id with
  | some name => meet.contains name && !meet.all arrived.contains
  | none => false

/-- The threads that can take a step. -/
def movable (env : Environment) (m : Machine) (meet arrived : List String) : List ThreadId :=
  (List.range m.threads.size).filter fun id =>
    !m.isHeld meet arrived id && (m.step env id).isSome

/-- Turns of all threads, at most the given number of rounds, until no thread can move. -/
def settle (env : Environment) (meet arrived : List String) : Nat → Machine → Machine
  | 0, m => m
  | rounds + 1, m =>
    let arrived := m.arrivals meet arrived
    match m.movable env meet arrived with
    | [] => m
    | turn => (m.run env turn).settle env meet arrived rounds

end Machine

/-! ### Requests made at once -/

/-- A number of rounds that is enough for any loads of some names. A thread defines a class once,
and the dependencies of a class are no more than the bytes of its file or of its array name. -/
def Environment.rounds (env : Environment) (names : List String) : Nat :=
  let fileSize (name : String) : Nat := match env.search.find name with
    | .ok bytes => bytes.length
    | .error _ => 0
  let sizes := names.map String.length ++ env.names.map fun name => name.length + fileSize name
  64 * (names.length + 1) * sizes.foldl (· + ·) 1

namespace Loader

/-- Loads by one thread for each name. The first look-up of every name in `meet` is put off until
all of them are at their look-ups, or until nothing else can be done. -/
def loadTogether (env : Environment) (s : Loader) (names meet : List String) :
    List (Option (Except LoadError ClassId)) × Loader :=
  let rounds := env.rounds names
  let m := ((Machine.start s names).settle env meet [] rounds).settle env [] [] rounds
  (m.threads.toList.map Thread.result?, m.loader)

/-- Initializes the classes of the loads that went well, one after the other. -/
def initEach (env : Environment) (s : Loader) :
    List (Option (Except LoadError ClassId)) → List (Option (Except LoadError ClassId)) × Loader
  | [] => ([], s)
  | some (.ok id) :: rest =>
    let (r, t) := s.initClass env id
    let (more, u) := t.initEach env rest
    (some (r.map fun _ => id) :: more, u)
  | other :: rest =>
    let (more, t) := s.initEach env rest
    (other :: more, t)

end Loader

end ClassLoading
