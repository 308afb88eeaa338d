import ClassLoading.Loaded.Error

/-! Which thread is loading which class, and which class every blocked thread waits for. A thread
may wait for a class unless the chain of owners and waits that starts at the class leads back to
the thread itself: that wait could never end. -/
namespace ClassLoading

abbrev ThreadId := Nat

structure InFlight where
  owners : List (String × ThreadId)
  waiting : List (ThreadId × String)
  deriving DecidableEq, Repr, Inhabited

namespace InFlight

def empty : InFlight := ⟨[], []⟩

def owner? (table : InFlight) (name : String) : Option ThreadId := table.owners.lookup name

/-- Records a thread as the one that loads a class. -/
def start (table : InFlight) (thread : ThreadId) (name : String) : InFlight :=
  { table with owners := (name, thread) :: table.owners.filter (·.1 != name) }

def finish (table : InFlight) (name : String) : InFlight :=
  { table with owners := table.owners.filter (·.1 != name) }

/-- The owner of the class that a thread waits for. -/
def blocker? (table : InFlight) (thread : ThreadId) : Option ThreadId :=
  (table.waiting.lookup thread).bind table.owner?

/-- Whether a thread is among the first threads of the chain that starts at `current` and goes from
a waiting thread to the one it waits for. -/
def leadsTo (table : InFlight) (thread : ThreadId) : Nat → Option ThreadId → Bool
  | 0, _ | _, none => false
  | n + 1, some current =>
    current == thread || table.leadsTo thread n (table.blocker? current)

/-- Registers a thread as waiting for a class, or refuses the wait. No chain is longer than the
number of waiting threads, so following one link more than that misses none. -/
def waitFor (table : InFlight) (thread : ThreadId) (name : String) : Except LoadError InFlight :=
  if table.leadsTo thread (table.waiting.length + 1) (table.owner? name) then
    .error (.circular name)
  else .ok { table with
    waiting := (thread, name) :: table.waiting.filter (·.1 != thread) }

def stopWaiting (table : InFlight) (thread : ThreadId) : InFlight :=
  { table with waiting := table.waiting.filter (·.1 != thread) }

end InFlight

end ClassLoading
