import ClassLoading.Proofs.Executions
import ClassLoading.Proofs.Initializing

/-! Every request comes to its end. A load goes down from a name to names that are fewer or shorter,
and an initialization uses up one of the initializations that are still possible; so whatever the
class files name and whatever the static initializers ask for, the execution of a request arrives at
the state and the answer that the request has as a function, with nothing left on its stack. -/
namespace ClassLoading

open Execution (Runs)

namespace Loader

/-- A loader that nobody is in the middle of using for a load. -/
structure Calm (env : Environment) (s : Loader) : Prop where
  sound : s.Sound env.config env.search
  atRest : s.AtRest

variable {env : Environment} {s t : Loader}

theorem Settled.calm (h : s.Settled env) : s.Calm env := ⟨h.sound, h.atRest⟩

theorem calm_empty (env : Environment) : Calm env empty := ⟨sound_empty, atRest_empty⟩

theorem Calm.finishes (h : s.Calm env) (hst : Finishes env.config env.search s t) : t.Calm env :=
  ⟨(hst h.sound h.atRest.manned).1.sound h.sound, h.atRest.finishes h.sound hst⟩

theorem Calm.load (h : s.Calm env) (name : String) : (s.load env name).2.Calm env :=
  h.finishes (.load env s name)

theorem Calm.serve (h : s.Calm env) (request : Request) : (s.serve env request).Calm env :=
  h.finishes (.serve env s request)

theorem Calm.startInit (h : s.Calm env) (id : ClassId) :
    (s.updateClass id LoadedClass.startInit).Calm env :=
  h.finishes (.updateClass id LoadedClass.fixed_startInit)

theorem Calm.noteRun (h : s.Calm env) (run : InitializerRun) : (s.noteRun run).Calm env :=
  h.finishes (.of_grow rfl rfl (.refl _) rfl)

theorem Calm.initSuper (h : s.Calm env) (superClass : Option ClassId) :
    (s.initSuper env superClass).2.Calm env := by
  cases superClass with
  | none => exact h
  | some parent => exact h.serve (.init parent)

theorem Calm.runs_load (h : s.Calm env) (name : String)
    (pending : List Execution.Continuation) :
    Runs env ⟨s, .load (.start name), pending⟩
      ⟨(s.load env name).2, .loaded (s.load env name).1, pending⟩ :=
  (Runs.load ((steps_load env).1 s name h.sound h.atRest.solo []) pending).trans (.of rfl)

end Loader

/-! ### Initializations -/

/-- An initialization, the actions of an initializer and a load with an initialization all run from
their calls to their results, whatever is still to be done after them. -/
theorem runs_init (env : Environment) :
    (∀ (s : Loader) (id : ClassId), s.Calm env → ∀ pending,
      Runs env ⟨s, .init id, pending⟩
        ⟨(s.initClass env id).2, .inited (s.initClass env id).1, pending⟩) ∧
    (∀ (s : Loader) (id : ClassId) (actions : List Action), s.Calm env → ∀ pending,
      Runs env ⟨s, .act id actions, pending⟩
        ⟨(s.act env id actions).2, .acted (s.act env id actions).1, pending⟩) ∧
    ∀ (s : Loader) (name : String), s.Calm env → ∀ pending,
      Runs env ⟨s, .load (.start name), .thenInit :: pending⟩
        ⟨(s.loadInit env name).2, .loaded (s.loadInit env name).1, pending⟩ := by
  apply Loader.init_call_induct env
  case absent =>
    intro s id hc _ pending
    rw [Loader.initClass_of_none hc]
    exact .of (by simp only [Execution.step, hc])
  case answered =>
    intro s id c r hc ha _ pending
    rw [Loader.initClass_of_answer hc ha]
    exact .of (by simp only [Execution.step, hc, ha])
  case started =>
    intro s id c hc ha habove hown hs pending
    have hstarted := hs.startInit id
    have hcalm := hstarted.initSuper c.superClass
    have hsuper : Runs env ⟨s, .init id, pending⟩
        ⟨((s.updateClass id LoadedClass.startInit).initSuper env c.superClass).2,
          .inited ((s.updateClass id LoadedClass.startInit).initSuper env c.superClass).1,
          .above id c :: pending⟩ := by
      cases hparent : c.superClass with
      | none => exact .of (by simp only [Execution.step, hc, ha, hparent, Loader.initSuper])
      | some parent =>
        exact .head (by simp only [Execution.step, hc, ha, hparent]) (habove parent hstarted _)
    rw [Loader.initClass_of_start hc ha]
    generalize hx : (s.updateClass id LoadedClass.startInit).initSuper env c.superClass = x
      at hsuper hcalm
    obtain ⟨r, t⟩ := x
    cases r with
    | error e => exact hsuper.trans (.of rfl)
    | ok _ =>
      simp only [Loader.initOwn]
      cases hi : env.initializerOf? c with
      | none =>
        exact hsuper.trans (.of (by simp only [Execution.step, Execution.Continuation.resume, hi]))
      | some own =>
        obtain ⟨run, actions⟩ := own
        have henter : Runs env ⟨t, .inited (.ok ()), .above id c :: pending⟩
            ⟨t.noteRun run, .act id actions, .own id c.name :: pending⟩ :=
          .of (by simp only [Execution.step, Execution.Continuation.resume, hi])
        have hact := hown t run actions hx hi (hcalm.noteRun run) (.own id c.name :: pending)
        exact (hsuper.trans henter).trans (hact.trans (.of rfl))
  case nil =>
    intro s id _ pending
    rw [Loader.act_nil]
    exact .of rfl
  case fail =>
    intro s id message rest _ pending
    rw [Loader.act_fail]
    exact .of rfl
  case load =>
    intro s id name rest hrest hs pending
    have hcalm := hs.load name
    have hload : Runs env ⟨s, .act id (.load name :: rest), pending⟩ ⟨(s.load env name).2,
        .loaded (s.load env name).1, .script id false rest :: pending⟩ :=
      .head rfl (hs.runs_load name _)
    rw [Loader.act_load]
    cases hl : s.load env name with
    | mk r t =>
    rw [hl] at hcalm hload
    cases r with
    | error e => exact hload.trans (.of rfl)
    | ok i => exact hload.trans (.head rfl (hrest i t hl hcalm pending))
  case init =>
    intro s id name rest hname hrest hs pending
    have hcalm : (s.loadInit env name).2.Calm env := hs.serve (.loadInit name)
    have hload : Runs env ⟨s, .act id (.init name :: rest), pending⟩ ⟨(s.loadInit env name).2,
        .loaded (s.loadInit env name).1, .script id false rest :: pending⟩ :=
      .head rfl (hname hs _)
    rw [Loader.act_init]
    cases hl : s.loadInit env name with
    | mk r t =>
    rw [hl] at hcalm hload
    cases r with
    | error e => exact hload.trans (.of rfl)
    | ok i => exact hload.trans (.head rfl (hrest i t hl hcalm pending))
  case tryInit =>
    intro s id name rest hname hrest hs pending
    have hcalm : (s.loadInit env name).2.Calm env := hs.serve (.loadInit name)
    have hload : Runs env ⟨s, .act id (.tryInit name :: rest), pending⟩ ⟨(s.loadInit env name).2,
        .loaded (s.loadInit env name).1, .script id true rest :: pending⟩ :=
      .head rfl (hname hs _)
    have hgoes : Runs env ⟨(s.loadInit env name).2, .loaded (s.loadInit env name).1,
        .script id true rest :: pending⟩ ⟨(s.loadInit env name).2, .act id rest, pending⟩ := by
      cases (s.loadInit env name).1 <;> exact .of rfl
    rw [Loader.act_tryInit]
    exact (hload.trans hgoes).trans (hrest hcalm pending)
  case set =>
    intro s id slot value rest hrest hs pending
    have hcalm : (s.setStatic id slot value).2.Calm env := hs.serve (.setStatic id slot value)
    rw [Loader.act_set]
    cases hset : s.setStatic id slot value with
    | mk stored t =>
    rw [hset] at hcalm
    cases stored with
    | false => exact .of (by simp only [Execution.step, hset])
    | true => exact .head (by simp only [Execution.step, hset]) (hrest t hset hcalm pending)
  case loadInit =>
    intro s name hinit hs pending
    have hcalm := hs.load name
    have hload := hs.runs_load name (.thenInit :: pending)
    rw [Loader.loadInit_eq]
    cases hl : s.load env name with
    | mk r t =>
    rw [hl] at hcalm hload
    cases r with
    | error e => exact hload.trans (.of rfl)
    | ok id => exact hload.trans (.head rfl ((hinit id t hl hcalm _).trans (.of rfl)))

/-! ### Requests -/

/-- A request at its beginning; some are answered at once. -/
def Execution.start (s : Loader) : Request → Execution
  | .load name => ⟨s, .load (.start name), []⟩
  | .loadInit name => ⟨s, .load (.start name), [.thenInit]⟩
  | .init id => ⟨s, .init id, []⟩
  | .object id => ⟨(s.objectOf id).2, .handed (s.objectOf id).1, []⟩
  | .loadObject name => ⟨s, .load (.start name), [.thenObject]⟩
  | .forName name run =>
    if Loader.isUndotted name then ⟨s, .handed (.error (.notFound name)), []⟩
    else ⟨s, .load (.start (Text.replace '.' '/' name)),
      if run then [.thenInit, .thenObject] else [.thenObject]⟩
  | .resolveClass id index =>
    if h : id < s.classes.size then
      let c := s.classes[id]
      match c.constant index with
      | .error cause => ⟨s, .loaded (.error (.badConstant c.name cause)), []⟩
      | .ok (.classRef _ (some target)) => ⟨s, .loaded (.ok target), []⟩
      | .ok (.classRef name none) =>
        if name = c.name then ⟨s.updateClass id (·.link index id), .loaded (.ok id), []⟩
        else ⟨s, .load (.start name), [.thenLink id index]⟩
      | .ok other =>
        ⟨s, .loaded (.error (.badConstant c.name (.mismatch index .classRef other.kind))), []⟩
    else ⟨s, .nothing, []⟩
  | .setStatic id slot value =>
    ⟨(s.setStatic id slot value).2, .stored (s.setStatic id slot value).1, []⟩

namespace Loader

/-- What a request is answered. -/
def reply (env : Environment) (s : Loader) : Request → Execution.Task
  | .load name => .loaded (s.load env name).1
  | .loadInit name => .loaded (s.loadInit env name).1
  | .init id => .inited (s.initClass env id).1
  | .object id => .handed (s.objectOf id).1
  | .loadObject name => .handed (s.loadObject env name).1
  | .forName name run => .handed (s.forName env name run).1
  | .resolveClass id index =>
    if h : id < s.classes.size then .loaded (s.resolveClass env ⟨id, h⟩ index).1 else .nothing
  | .setStatic id slot value => .stored (s.setStatic id slot value).1

variable {env : Environment} {s : Loader}

theorem runs_withObject {a : Execution} {r : Except LoadError ClassId × Loader}
    {pending : List Execution.Continuation}
    (h : Runs env a ⟨r.2, .loaded r.1, .thenObject :: pending⟩) :
    Runs env a ⟨(withObject r).2, .handed (withObject r).1, pending⟩ := by
  obtain ⟨r, t⟩ := r
  cases r with
  | error e => exact h.trans (.of rfl)
  | ok id => exact h.trans (.of rfl)

theorem Calm.runs_resolveClass (h : s.Calm env) (id : Fin s.classes.size) (index : UInt16) :
    Runs env (.start s (.resolveClass id index))
      ⟨(s.resolveClass env id index).2, .loaded (s.resolveClass env id index).1, []⟩ := by
  simp only [Execution.start, id.isLt, dif_pos]
  have hc : s.classes[id.1] = s.classes[id] := rfl
  rw [hc]
  unfold resolveClass
  split
  · next heq =>
    simp only [heq]
    exact .refl
  · next heq =>
    simp only [heq]
    exact .refl
  · next name heq =>
    simp only [heq]
    split
    · exact .refl
    · have hload := h.runs_load name [.thenLink id index]
      generalize s.load env name = loaded at hload
      obtain ⟨r, t⟩ := loaded
      cases r with
      | error e => exact hload.trans (.of rfl)
      | ok target => exact hload.trans (.of rfl)
  · next heq =>
    simp only [heq]
    exact .refl

theorem Calm.runs_request (h : s.Calm env) (request : Request) :
    Runs env (.start s request) ⟨s.serve env request, s.reply env request, []⟩ := by
  obtain ⟨hinit, -, hloadInit⟩ := runs_init env
  cases request with
  | load name => exact h.runs_load name []
  | loadInit name => exact hloadInit s name h []
  | init id => exact hinit s id h []
  | object id => exact .refl
  | loadObject name => exact runs_withObject (h.runs_load name [.thenObject])
  | forName name run =>
    simp only [Execution.start, Loader.serve, reply, forName]
    split
    · exact .refl
    · apply runs_withObject
      cases run with
      | true => exact hloadInit s _ h [.thenObject]
      | false => exact h.runs_load _ [.thenObject]
  | resolveClass id index =>
    by_cases hlt : id < s.classes.size
    · simp only [Loader.serve, reply, hlt, dif_pos]
      exact h.runs_resolveClass ⟨id, hlt⟩ index
    · simp only [Execution.start, Loader.serve, reply, hlt, dif_neg, not_false_eq_true]
      exact .refl
  | setStatic id slot value => exact .refl

theorem halts_reply (env : Environment) (s t : Loader) (request : Request) :
    Execution.step env ⟨t, s.reply env request, []⟩ = none := by
  cases request with
  | resolveClass id index =>
    simp only [reply]
    split <;> rfl
  | _ => rfl

/-! ### Getting ready -/

/-- The primitive classes are loaded in order, up to the first that fails. -/
theorem Calm.runs_primitives (h : s.Calm env) (classClass : ClassId) (names : List String)
    (pending : List Execution.Continuation) :
    Runs env ⟨s, .primitives classClass names, pending⟩
      (match s.loadAll env names with
      | (.ok _, t) => ⟨t.attachAll classClass, .ready (.ok ()), pending⟩
      | (.error e, t) => ⟨t, .ready (.error (.bootstrap e)), pending⟩) := by
  induction names generalizing s with
  | nil =>
    rw [loadAll_nil]
    exact .of rfl
  | cons name rest ih =>
    have hcalm := h.load name
    have hload : Runs env ⟨s, .primitives classClass (name :: rest), pending⟩ ⟨(s.load env name).2,
        .loaded (s.load env name).1, .nextPrimitive classClass rest :: pending⟩ :=
      .head rfl (h.runs_load name _)
    rw [loadAll_cons]
    cases hl : s.load env name with
    | mk r t =>
    rw [hl] at hcalm hload
    cases r with
    | error e => exact hload.trans (.of rfl)
    | ok id =>
      have hrest := hload.trans (.head rfl (ih hcalm))
      dsimp only at hrest ⊢
      generalize t.loadAll env rest = more at hrest
      obtain ⟨r, u⟩ := more
      cases r <;> exact hrest

/-- The state that a loader is in when it is ready, or has failed to get ready, and the answer. -/
theorem runs_boot (env : Environment) :
    ∃ t, Runs env .boot ⟨t, .ready ((bootstrap env).map fun _ => ()), []⟩ ∧
      ∀ s, bootstrap env = .ok s → t = s := by
  have hload := (calm_empty env).runs_load classClassName [.thenPrimitives]
  have hcalm := (calm_empty env).load classClassName
  unfold bootstrap
  generalize empty.load env classClassName = loaded at hload hcalm
  obtain ⟨r, s⟩ := loaded
  cases r with
  | error e => exact ⟨s, hload.trans (.of rfl), nofun⟩
  | ok classClass =>
    have hready : Calm env { s with classClass := some classClass } :=
      hcalm.finishes (.of_grow rfl rfl (.refl _) rfl)
    have hall := hload.trans (.head rfl (hready.runs_primitives classClass primitiveNames []))
    dsimp only at hall ⊢
    generalize { s with classClass := some classClass }.loadAll env primitiveNames = more at hall
    obtain ⟨r, t⟩ := more
    cases r with
    | error e => exact ⟨t, hall, nofun⟩
    | ok ids => exact ⟨t.attachAll classClass, hall, fun u hu => Except.ok.inj hu⟩

end Loader

/-! ### The end of every request -/

/-- Whatever the class files on the class path say and whatever the static initializers do: the
getting ready of a loader ends, and so does every request from every moment of a session, inside a
static initializer or outside. No bound on the steps is needed for this: every one of these
executions is finite, and it has served the request when it ends. -/
theorem Session.requests_end (env : Environment) :
    (∃ t, Execution.EndsAt env .boot
        ⟨t, .ready ((Loader.bootstrap env).map fun _ => ()), []⟩ ∧
      ∀ s, Loader.bootstrap env = .ok s → t = s) ∧
    ∀ p, Session env p → ∀ request, Execution.EndsAt env (.start p.loader request)
      ⟨p.loader.serve env request, p.loader.reply env request, []⟩ := by
  refine ⟨?_, fun p hp request => ?_⟩
  · obtain ⟨t, hruns, ht⟩ := Loader.runs_boot env
    exact ⟨t, hruns.endsAt rfl rfl, ht⟩
  · exact (hp.settled.calm.runs_request request).endsAt rfl (Loader.halts_reply ..)

/-- A static initializer that asks for its own class, for the root class and for a class that does
not exist. -/
theorem Session.classClass_initialization_ends : ∃ (env : Environment) (s : Loader),
    env = ⟨.standard, StartPath.search,
      .script fun name => [.init name, .tryInit objectName, .load "[[LNowhere;"]⟩ ∧
    Session env ⟨s, .free, []⟩ ∧
    Execution.EndsAt env (.start s (.loadInit classClassName))
      ⟨(s.loadInit env classClassName).2, .loaded (s.loadInit env classClassName).1, []⟩ := by
  let env : Environment := ⟨.standard, StartPath.search,
    .script fun name => [.init name, .tryInit objectName, .load "[[LNowhere;"]⟩
  obtain ⟨s, hs⟩ := (Loader.bootstrap_isOk_iff env).2 StartPath.loadable_class
  have hsession : Session env ⟨s, .free, []⟩ := ⟨s, hs, .refl _⟩
  exact ⟨env, s, rfl, hsession,
    (Session.requests_end env).2 _ hsession (.loadInit classClassName)⟩

end ClassLoading
