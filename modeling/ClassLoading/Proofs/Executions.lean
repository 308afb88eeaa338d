import ClassLoading.Proofs.Deadlock
import ClassLoading.Proofs.Moments

/-! A request, step by step. One thread serves it with a stack of what is left to be done: it looks
into the registry, takes a slot, goes down to a dependency, builds a class, starts an initializer,
performs an action of it, and so on, one after the other. Nothing bounds the number of steps, and a
thread that waits for a slot which nobody fills stands still; a request that could not be served
would show here as a run without end or as one that is stuck. -/
namespace ClassLoading

/-- What a request is at: something that is under way, or the result of something. -/
inductive Execution.Task where
  | load (thread : Thread)
  | init (id : ClassId)
  /-- The actions of the static initializer of a class. -/
  | act (id : ClassId) (actions : List Action)
  /-- The primitive classes that a loader is yet to load before it is ready. -/
  | primitives (classClass : ClassId) (names : List String)
  | loaded (result : Except LoadError ClassId)
  | inited (result : Except LoadError Unit)
  | acted (result : Except String Unit)
  | handed (result : Except LoadError ObjectId)
  | stored (done : Bool)
  | ready (result : Except LoadError Unit)
  /-- There was no class to ask about. -/
  | nothing

/-- What a result is waited for. -/
inductive Execution.Continuation where
  /-- The class is to be initialized once it is loaded. -/
  | thenInit
  /-- The class is the answer once it is initialized. -/
  | thenAnswer (id : ClassId)
  /-- The super class comes first, then the static initializer of the class itself. -/
  | above (id : ClassId) (c : LoadedClass)
  | own (id : ClassId) (name : String)
  /-- The actions that follow; unless a failure is tolerated they are left out after one. -/
  | script (id : ClassId) (tolerant : Bool) (rest : List Action)
  | thenObject
  | thenLink (id : ClassId) (index : UInt16)
  | thenPrimitives
  | nextPrimitive (classClass : ClassId) (rest : List String)

structure Execution where
  loader : Loader
  task : Execution.Task
  /-- The innermost first. -/
  pending : List Execution.Continuation

namespace Execution

/-! ### Steps -/

/-- The next task with the result of the one before. -/
def Continuation.resume (env : Environment) (s : Loader) (rest : List Continuation) :
    Continuation → Task → Option Execution
  | .thenInit, .loaded (.ok id) => some ⟨s, .init id, .thenAnswer id :: rest⟩
  | .thenInit, .loaded (.error e) => some ⟨s, .loaded (.error e), rest⟩
  | .thenAnswer id, .inited result => some ⟨s, .loaded (result.map fun _ => id), rest⟩
  | .above id _, .inited (.error e) => some ⟨s.endInit id (.error e), .inited (.error e), rest⟩
  | .above id c, .inited (.ok ()) =>
    match env.initializerOf? c with
    | none => some ⟨s.endInit id (.ok ()), .inited (.ok ()), rest⟩
    | some (run, actions) => some ⟨s.noteRun run, .act id actions, .own id c.name :: rest⟩
  | .own id name, .acted result =>
    some ⟨s.endInit id (result.mapError (.initialization name)),
      .inited (result.mapError (.initialization name)), rest⟩
  | .script id _ actions, .loaded (.ok _) => some ⟨s, .act id actions, rest⟩
  | .script id true actions, .loaded (.error _) => some ⟨s, .act id actions, rest⟩
  | .script _ false _, .loaded (.error e) => some ⟨s, .acted (.error e.message), rest⟩
  | .thenObject, .loaded (.ok id) => some ⟨(s.objectOf id).2, .handed (s.objectOf id).1, rest⟩
  | .thenObject, .loaded (.error e) => some ⟨s, .handed (.error e), rest⟩
  | .thenLink id index, .loaded (.ok target) =>
    some ⟨s.updateClass id (·.link index target), .loaded (.ok target), rest⟩
  | .thenLink _ _, .loaded (.error e) => some ⟨s, .loaded (.error e), rest⟩
  | .thenPrimitives, .loaded (.ok classClass) =>
    some ⟨{ s with classClass := some classClass },
      .primitives classClass Loader.primitiveNames, rest⟩
  | .nextPrimitive classClass names, .loaded (.ok _) => some ⟨s, .primitives classClass names, rest⟩
  | .thenPrimitives, .loaded (.error e) | .nextPrimitive _ _, .loaded (.error e) =>
    some ⟨s, .ready (.error (.bootstrap e)), rest⟩
  | _, _ => none

/-- One step of an execution; there is none when all is done, and none for a thread that waits. -/
def step (env : Environment) : Execution → Option Execution
  | ⟨s, .load thread, pending⟩ =>
    match thread.result? with
    | some result => some ⟨s, .loaded result, pending⟩
    | none => (thread.step env s mainThread).map fun next => ⟨next.1, .load next.2, pending⟩
  | ⟨s, .init id, pending⟩ =>
    match s.classes[id]? with
    | none => some ⟨s, .inited (.ok ()), pending⟩
    | some c =>
      match c.initAnswer? with
      | some answer => some ⟨s, .inited answer, pending⟩
      | none =>
        let super : Task := match c.superClass with
          | none => .inited (.ok ())
          | some parent => .init parent
        some ⟨s.updateClass id LoadedClass.startInit, super, .above id c :: pending⟩
  | ⟨s, .act _ [], pending⟩ => some ⟨s, .acted (.ok ()), pending⟩
  | ⟨s, .act _ (.fail message :: _), pending⟩ => some ⟨s, .acted (.error message), pending⟩
  | ⟨s, .act id (.load name :: rest), pending⟩ =>
    some ⟨s, .load (.start name), .script id false rest :: pending⟩
  | ⟨s, .act id (.init name :: rest), pending⟩ =>
    some ⟨s, .load (.start name), .thenInit :: .script id false rest :: pending⟩
  | ⟨s, .act id (.tryInit name :: rest), pending⟩ =>
    some ⟨s, .load (.start name), .thenInit :: .script id true rest :: pending⟩
  | ⟨s, .act id (.set slot value :: rest), pending⟩ =>
    match s.setStatic id slot value with
    | (false, _) => some ⟨s, .acted (.error noSuchSlot), pending⟩
    | (true, t) => some ⟨t, .act id rest, pending⟩
  | ⟨s, .primitives classClass [], pending⟩ =>
    some ⟨s.attachAll classClass, .ready (.ok ()), pending⟩
  | ⟨s, .primitives classClass (name :: rest), pending⟩ =>
    some ⟨s, .load (.start name), .nextPrimitive classClass rest :: pending⟩
  | ⟨_, _, []⟩ => none
  | ⟨s, result, next :: rest⟩ => next.resume env s rest result

/-- An execution of the getting ready of a loader. -/
def boot : Execution := ⟨.empty, .load (.start classClassName), [.thenPrimitives]⟩

def Runs (env : Environment) : Execution → Execution → Prop :=
  Relation.ReflTransGen fun now next => now.step env = some next

/-- The execution goes on until nothing is left to be done, and it does not go on for ever. -/
structure EndsAt (env : Environment) (start last : Execution) : Prop where
  runs : Runs env start last
  done : last.pending = []
  halts : last.step env = none
  finite : Acc (fun next now => now.step env = some next) start

variable {env : Environment} {a b c : Execution} {s t : Loader}

namespace Runs

theorem of (h : a.step env = some b) : Runs env a b := Relation.ReflTransGen.single h

theorem trans (h : Runs env a b) (h' : Runs env b c) : Runs env a c :=
  Relation.ReflTransGen.trans h h'

theorem head (h : a.step env = some b) (h' : Runs env b c) : Runs env a c := .trans (.of h) h'

/-- Every execution has at most one next step, so one that has come to its end has no other way. -/
theorem acc (h : Runs env a b) (hb : b.step env = none) :
    Acc (fun next now => now.step env = some next) a := by
  induction h using Relation.ReflTransGen.head_induction_on with
  | refl =>
    refine ⟨b, fun next hnext => ?_⟩
    rw [hb] at hnext
    cases hnext
  | @head now next hstep _ ih =>
    refine ⟨now, fun other hother => ?_⟩
    rw [hstep] at hother
    cases hother
    exact ih

theorem endsAt (h : Runs env a b) (done : b.pending = []) (halts : b.step env = none) :
    EndsAt env a b := ⟨h, done, halts, h.acc halts⟩

/-- The steps of the thread are steps of the execution. -/
theorem load {thread next : Thread} (h : Machine.Steps env mainThread (s, thread) (t, next))
    (pending : List Continuation) :
    Runs env ⟨s, .load thread, pending⟩ ⟨t, .load next, pending⟩ := by
  generalize hbefore : (s, thread) = before at h
  generalize hafter : (t, next) = after at h
  induction h generalizing t next with
  | refl =>
    subst hbefore
    cases hafter
    exact .refl
  | @tail middle _ _ hstep ih =>
    subst hafter
    refine (ih rfl).trans (.of ?_)
    have hresult : middle.2.result? = none := by
      unfold Thread.result?
      split
      · next heq =>
        rw [heq] at hstep
        cases hstep
      · rfl
    simp only [step, hresult, hstep, Option.map_some]

end Runs

end Execution

/-! ### Loads -/

/-- What becomes of a definition when all its dependencies have been asked for. -/
def Definition.after (d : Definition) : Except LoadError (List ClassId) → Activity
  | .ok ids => .define { d with loaded := d.loaded ++ ids, todo := [] }
  | .error e => .publish d.name d.slot (.error e)

namespace Loader

/-- All that is loading is loaded by the one thread there is, and no failure is left behind. -/
structure Solo (s : Loader) : Prop where
  clean : s.Clean
  manned : s.Manned
  own : ∀ name, s.slot? name = some .loading → s.inFlight.owner? name = some mainThread

variable {env : Environment} {config : LoaderConfig} {search : ClassSearch} {s t : Loader}
  {name : String}

theorem AtRest.solo (h : s.AtRest) : s.Solo :=
  ⟨h.clean, h.manned, fun name hloading => absurd hloading (h.not_loading name)⟩

theorem Solo.acquire (h : s.Solo) (hs : s.Tidy) (name : String) :
    ((s.acquire mainThread name).noteLookup name).Solo := by
  refine ⟨h.clean.acquire hs name mainThread, h.manned.acquire hs mainThread, fun n hn => ?_⟩
  rw [slot?_noteLookup, slot?_acquire hs] at hn
  rw [inFlight_acquire, InFlight.owner?_start]
  split
  · rfl
  · next hne =>
    rw [if_neg hne] at hn
    exact h.own n hn

theorem Solo.load (h : s.Solo) (hs : s.Sound env.config env.search) (name : String) :
    (s.load env name).2.Solo := by
  have hsettles := hs.load_settles env name
  have hflight := (inFlight_load env).1 s name hs h.manned
  refine ⟨hsettles.clean h.clean, h.manned.of_settles hsettles hflight, fun n hn => ?_⟩
  rw [hflight]
  exact h.own n ((hsettles.loading_iff n).1 hn)

open Machine (Steps)

/-- A load that fails publishes the error, lets the registry forget it and gives up its name. -/
theorem steps_publish_error (s : Loader) (name : String) (slot : SlotId) (e : LoadError)
    (callers : List Definition) :
    Steps env mainThread (s, ⟨.publish name slot (.error e), callers⟩)
      ((s.complete name slot (.error e)).2, ⟨.answer (.error e), callers⟩) :=
  calc
    Steps env mainThread _ (s.publish slot (.error e), ⟨.forget name slot e, callers⟩) :=
      .single rfl
    Steps env mainThread _ ((s.publish slot (.error e)).forget name slot,
        ⟨.release name (.error e), callers⟩) := .single rfl
    Steps env mainThread _ ((s.complete name slot (.error e)).2,
        ⟨.answer (.error e), callers⟩) := .single rfl

/-- A definition with all its dependencies is built, and the load ends as the building does. -/
theorem steps_build {d : Definition} (hd : d.todo = []) {built : Except LoadError LoadedClass}
    (hb : d.plan.build env.config s.classes d.name d.loaded = built) (callers : List Definition) :
    Steps env mainThread (s, ⟨.define d, callers⟩)
      ((s.complete d.name d.slot built).2,
        ⟨.answer (s.complete d.name d.slot built).1, callers⟩) := by
  cases built with
  | error e =>
    calc
      Steps env mainThread (s, ⟨.define d, callers⟩)
          (s, ⟨.publish d.name d.slot (.error e), callers⟩) :=
        .single (by simp only [Thread.step, hd, Thread.build, hb])
      Steps env mainThread _ ((s.complete d.name d.slot (.error e)).2,
          ⟨.answer (.error e), callers⟩) := steps_publish_error ..
  | ok c =>
    calc
      Steps env mainThread (s, ⟨.define d, callers⟩)
          (s.addClass c, ⟨.publish d.name d.slot (.ok s.classes.size), callers⟩) :=
        .single (by simp only [Thread.step, hd, Thread.build, hb])
      Steps env mainThread _ ((s.addClass c).publish d.slot (.ok s.classes.size),
          ⟨.release d.name (.ok s.classes.size), callers⟩) := .single rfl
      Steps env mainThread _ ((s.complete d.name d.slot (.ok c)).2,
          ⟨.answer (.ok s.classes.size), callers⟩) := .single rfl

/-- A name without a slot is registered and looked up. -/
theorem steps_search (env : Environment) (free : s.registry.lookup name = none)
    (callers : List Definition) :
    Steps env mainThread (s, ⟨.lookup name, callers⟩)
      (s.acquire mainThread name, ⟨.search name s.slots.size, callers⟩) :=
  calc
    Steps env mainThread (s, ⟨.lookup name, callers⟩) (s, ⟨.register name, callers⟩) :=
      .single (by simp only [Thread.step, free])
    Steps env mainThread _ (s.acquire mainThread name, ⟨.search name s.slots.size, callers⟩) :=
      .single (by simp only [Thread.step, free])

/-- The thread that is the only one comes from the call of a load to its answer, whoever has called;
it never waits, since it owns itself whatever is loading. -/
theorem steps_load (env : Environment) :
    (∀ s name, s.Sound env.config env.search → s.Solo → ∀ callers,
      Steps env mainThread (s, ⟨.lookup name, callers⟩)
        ((s.load env name).2, ⟨.answer (s.load env name).1, callers⟩)) ∧
    ∀ s names, s.Sound env.config env.search → s.Solo → ∀ d callers, d.todo = names →
      Steps env mainThread (s, ⟨.define d, callers⟩)
        ((s.loadAll env names).2, ⟨d.after (s.loadAll env names).1, callers⟩) := by
  apply load_induct env
  case done =>
    intro s name r hslot _ hsolo callers
    obtain ⟨slot, hlookup, hfilled⟩ := slot?_eq_some_iff.1 hslot
    rw [load_of_done hslot]
    cases r with
    | error e => exact absurd hslot (hsolo.clean name e)
    | ok id =>
      exact .head (b := (s, ⟨.inspect name slot, callers⟩)) (by simp only [Thread.step, hlookup])
        (.single (by simp only [Thread.step, hfilled]))
  case loading =>
    intro s name hslot _ hsolo callers
    obtain ⟨slot, hlookup, hfilled⟩ := slot?_eq_some_iff.1 hslot
    have hrefused := InFlight.waitFor_own (hsolo.own name hslot)
    rw [load_of_loading hslot]
    calc
      Steps env mainThread (s, ⟨.lookup name, callers⟩) (s, ⟨.inspect name slot, callers⟩) :=
        .single (by simp only [Thread.step, hlookup])
      Steps env mainThread _ (s, ⟨.requestWait name slot, callers⟩) :=
        .single (by simp only [Thread.step, hfilled])
      Steps env mainThread _ (s, ⟨.answer (.error (.circular name)), callers⟩) :=
        .single (by simp only [Thread.step, hrefused])
  case unknown =>
    intro s name e hslot he hs _ callers
    rw [load_of_blueprint_error hslot he]
    have hsearch := steps_search env (hs.lookup_of_slot?_none hslot) callers
    refine (hsearch.tail ?_).trans (steps_publish_error _ name s.slots.size e callers)
    simp only [Thread.step, he]
  case known =>
    intro s name plan hslot hplan hdeps hs hsolo callers
    have hstart := (Changes.acquire env.config env.search hslot mainThread).sound hs
    replace hdeps := hdeps hstart (hsolo.acquire hs.toTidy name)
      ⟨name, s.slots.size, plan, [], plan.dependencies⟩ callers rfl
    have hsearch := steps_search env (hs.lookup_of_slot?_none hslot) callers
    have hdefine : Thread.step env (s.acquire mainThread name) mainThread
        ⟨.search name s.slots.size, callers⟩ =
          some ((s.acquire mainThread name).noteLookup name,
            ⟨.define ⟨name, s.slots.size, plan, [], plan.dependencies⟩, callers⟩) := by
      simp only [Thread.step, hplan]
    replace hdeps := (hsearch.tail hdefine).trans hdeps
    rw [load_of_blueprint hslot hplan]
    generalize ((s.acquire mainThread name).noteLookup name).loadAll env plan.dependencies = deps
      at hdeps
    obtain ⟨r, t⟩ := deps
    cases r with
    | error e => exact hdeps.trans (steps_publish_error t name s.slots.size e callers)
    | ok ids =>
      exact hdeps.trans (steps_build (d := ⟨name, s.slots.size, plan, ids, []⟩) rfl rfl callers)
  case nil =>
    intro s _ _ d callers hd
    rw [loadAll_nil]
    have hsame : d.after (.ok []) = .define d := by
      simp only [Definition.after, List.append_nil, ← hd]
    rw [hsame]
  case cons =>
    intro s name rest hname hrest hs hsolo d callers hd
    have hload := hs.load env name
    have hsolo' := hsolo.load hs name
    have hcall : Thread.step env s mainThread ⟨.define d, callers⟩ =
        some (s, ⟨.lookup name, { d with todo := rest } :: callers⟩) := by
      simp only [Thread.step, hd]
    have hanswer : Steps env mainThread (s, ⟨.define d, callers⟩)
        ((s.load env name).2, ⟨.answer (s.load env name).1, { d with todo := rest } :: callers⟩) :=
      .head hcall (hname hs hsolo _)
    rw [loadAll_cons]
    cases hl : s.load env name with
    | mk r t =>
    rw [hl] at hload hsolo' hanswer
    cases r with
    | error e => exact hanswer.tail rfl
    | ok id =>
      replace hrest := hrest id t hl (hload.changes.sound hs) hsolo'
        { d with loaded := d.loaded ++ [id], todo := rest } callers rfl
      have hreturn : Thread.step env t mainThread
          ⟨.answer (.ok id), { d with todo := rest } :: callers⟩ =
            some (t, ⟨.define { d with loaded := d.loaded ++ [id], todo := rest }, callers⟩) := rfl
      have hnext := (hanswer.tail hreturn).trans hrest
      dsimp only
      generalize t.loadAll env rest = more at hnext
      obtain ⟨r, u⟩ := more
      cases r with
      | error e => exact hnext
      | ok ids =>
        simpa only [Definition.after, Except.map, List.append_assoc, List.singleton_append]
          using hnext

end Loader

end ClassLoading
