import ClassLoading.Proofs.ClassObjects

/-! One thread at work on a loader, moment by moment. A request may call for the initialization of a
class, this for that of its super class and then for the static initializer of the class itself, and
the initializer may make requests of its own; the calls that are not over yet stand on a stack. What
an initializer asks for, and whether it fails, is left open, so that whatever a script does is among
the moves. Every operation of a loader, with all the initializers that it runs, is a sequence of
moves. -/
namespace ClassLoading

/-- A call for the initialization of a class that is not over yet. -/
inductive Frame where
  /-- The super class comes first. -/
  | above (id : ClassId)
  /-- The static initializer is running. -/
  | own (id : ClassId)
  deriving DecidableEq, Repr, Inhabited

def Frame.id : Frame → ClassId
  | .above id | .own id => id

/-- What comes next. -/
inductive Focus where
  /-- A request, or the end of the static initializer on top of the stack. -/
  | free
  /-- A call for the initialization of a class. -/
  | call (id : ClassId)
  /-- The return from such a call. -/
  | back (result : Except LoadError Unit)

/-- The call for the super class, where there is one. -/
def Focus.toSuper : Option ClassId → Focus
  | none => .back (.ok ())
  | some parent => .call parent

structure Moment where
  loader : Loader
  focus : Focus
  /-- The innermost call first. -/
  frames : List Frame

/-- Requests come from outside or from a static initializer. -/
def TakesRequests (frames : List Frame) : Prop := ∀ id rest, frames ≠ .above id :: rest

inductive Move (env : Environment) : Moment → Moment → Prop
  | load (s : Loader) (frames : List Frame) (name : String) :
      Move env ⟨s, .free, frames⟩ ⟨(s.load env name).2, .free, frames⟩
  | object (s : Loader) (frames : List Frame) (id : ClassId) :
      Move env ⟨s, .free, frames⟩ ⟨(s.objectOf id).2, .free, frames⟩
  | store (s : Loader) (frames : List Frame) (id : ClassId) (slot : Nat) (value : Value) :
      Move env ⟨s, .free, frames⟩ ⟨(s.setStatic id slot value).2, .free, frames⟩
  | resolve (s : Loader) (frames : List Frame) (id : Fin s.classes.size) (index : UInt16) :
      Move env ⟨s, .free, frames⟩ ⟨(s.resolveClass env id index).2, .free, frames⟩
  | init (s : Loader) (frames : List Frame) (id : ClassId) :
      Move env ⟨s, .free, frames⟩ ⟨s, .call id, frames⟩
  | absent {s : Loader} {id : ClassId} (frames : List Frame) (hc : s.classes[id]? = none) :
      Move env ⟨s, .call id, frames⟩ ⟨s, .back (.ok ()), frames⟩
  | answer {s : Loader} {id : ClassId} {c : LoadedClass} {r : Except LoadError Unit}
      (frames : List Frame) (hc : s.classes[id]? = some c) (ha : c.initAnswer? = some r) :
      Move env ⟨s, .call id, frames⟩ ⟨s, .back r, frames⟩
  | start {s : Loader} {id : ClassId} {c : LoadedClass} (frames : List Frame)
      (hc : s.classes[id]? = some c) (ha : c.initAnswer? = none) :
      Move env ⟨s, .call id, frames⟩
        ⟨s.updateClass id LoadedClass.startInit, .toSuper c.superClass, .above id :: frames⟩
  | giveUp (s : Loader) (id : ClassId) (frames : List Frame) (e : LoadError) :
      Move env ⟨s, .back (.error e), .above id :: frames⟩
        ⟨s.endInit id (.error e), .back (.error e), frames⟩
  | skip {s : Loader} {id : ClassId} {c : LoadedClass} (frames : List Frame)
      (hc : s.classes[id]? = some c) (hi : env.initializerOf? c = none) :
      Move env ⟨s, .back (.ok ()), .above id :: frames⟩
        ⟨s.endInit id (.ok ()), .back (.ok ()), frames⟩
  /-- The static initializer starts. -/
  | enter {s : Loader} {id : ClassId} {c : LoadedClass} {run : InitializerRun}
      {actions : List Action} (frames : List Frame) (hc : s.classes[id]? = some c)
      (hi : env.initializerOf? c = some (run, actions)) :
      Move env ⟨s, .back (.ok ()), .above id :: frames⟩ ⟨s.noteRun run, .free, .own id :: frames⟩
  | leave {s : Loader} {id : ClassId} {c : LoadedClass} (frames : List Frame)
      (hc : s.classes[id]? = some c) (r : Except String Unit) :
      Move env ⟨s, .free, .own id :: frames⟩
        ⟨s.endInit id (r.mapError (.initialization c.name)),
          .back (r.mapError (.initialization c.name)), frames⟩
  | resume (s : Loader) (r : Except LoadError Unit) {frames : List Frame}
      (h : TakesRequests frames) : Move env ⟨s, .back r, frames⟩ ⟨s, .free, frames⟩

def Moves (env : Environment) : Moment → Moment → Prop := Relation.ReflTransGen (Move env)

/-- The moments of a loader that has got ready and goes on to answer requests. -/
def Session (env : Environment) (p : Moment) : Prop :=
  ∃ s, Loader.bootstrap env = .ok s ∧ Moves env ⟨s, .free, []⟩ p

variable {env : Environment} {s t : Loader} {frames : List Frame} {p q r : Moment}

namespace Moves

theorem refl (p : Moment) : Moves env p p := Relation.ReflTransGen.refl

theorem of (h : Move env p q) : Moves env p q := Relation.ReflTransGen.single h

theorem trans (h : Moves env p q) (h' : Moves env q r) : Moves env p r :=
  Relation.ReflTransGen.trans h h'

end Moves

theorem Session.moves (h : Session env p) (hq : Moves env p q) : Session env q := by
  obtain ⟨s, hs, hp⟩ := h
  exact ⟨s, hs, hp.trans hq⟩

/-- What holds when the loader is ready and is kept by every move holds at every moment. -/
theorem Session.induct {P : Moment → Prop} (ready : ∀ s, Loader.bootstrap env = .ok s →
      P ⟨s, .free, []⟩) (move : ∀ p q, Session env p → Move env p q → P p → P q)
    (h : Session env p) : P p := by
  obtain ⟨s, hs, hp⟩ := h
  induction hp with
  | refl => exact ready s hs
  | tail hp hlast ih => exact move _ _ ⟨s, hs, hp⟩ hlast ih

/-! ### What a move does to the loader -/

/-- What happens to a loader in a move: a load, a mark on a class, a note in the log, or the request
for a class object. -/
inductive Effect (env : Environment) (s : Loader) : Loader → Prop
  | load (name : String) : Effect env s (s.load env name).2
  | mark (id : ClassId) {f : LoadedClass → LoadedClass} (hf : ∀ c, (f c).fixed = c.fixed)
      (ho : ∀ c, (f c).classObject = c.classObject) : Effect env s (s.updateClass id f)
  | note (run : InitializerRun) : Effect env s (s.noteRun run)
  | attach (classClass id : ClassId) : Effect env s (s.attachObject classClass id)

def Effects (env : Environment) : Loader → Loader → Prop := Relation.ReflTransGen (Effect env)

namespace LoadedClass

variable (c : LoadedClass)

theorem classObject_endInit (r : Except LoadError Unit) :
    (c.endInit r).classObject = c.classObject := by
  cases r <;> rfl

theorem classObject_setStatic? (slot : Nat) (value : Value) :
    ((c.setStatic? slot value).getD c).classObject = c.classObject := by
  unfold setStatic?
  split <;> rfl

theorem classObject_link (index : UInt16) (target : ClassId) :
    (c.link index target).classObject = c.classObject := by
  unfold link
  split <;> rfl

end LoadedClass

namespace Effects

theorem refl (s : Loader) : Effects env s s := Relation.ReflTransGen.refl

theorem of (h : Effect env s t) : Effects env s t := Relation.ReflTransGen.single h

theorem trans {u : Loader} (h : Effects env s t) (h' : Effects env t u) : Effects env s u :=
  Relation.ReflTransGen.trans h h'

theorem endInit (s : Loader) (id : ClassId) (r : Except LoadError Unit) :
    Effects env s (s.endInit id r) :=
  .of (.mark id (fun c => c.fixed_endInit r) fun c => c.classObject_endInit r)

theorem link (s : Loader) (id : ClassId) (index : UInt16) (target : ClassId) :
    Effects env s (s.updateClass id (·.link index target)) :=
  .of (.mark id (fun c => c.fixed_link index target) fun c => c.classObject_link index target)

theorem objectOf (s : Loader) (id : ClassId) : Effects env s (s.objectOf id).2 := by
  unfold Loader.objectOf
  split
  · exact .of (.attach ..)
  · exact .refl s

theorem setStatic (s : Loader) (id : ClassId) (slot : Nat) (value : Value) :
    Effects env s (s.setStatic id slot value).2 := by
  rcases Loader.setStatic_eq s id slot value with heq | heq
  · rw [heq]
    exact .refl s
  · rw [heq]
    exact .of (.mark id (fun c => c.fixed_setStatic? slot value) fun c =>
      c.classObject_setStatic? slot value)

theorem resolveClass (s : Loader) (id : Fin s.classes.size) (index : UInt16) :
    Effects env s (s.resolveClass env id index).2 := by
  simp only [Loader.resolveClass]
  split
  · exact .refl s
  · exact .refl s
  · next name _ =>
    split
    · exact .link s id index id
    · have hload : Effects env s (s.load env name).2 := .of (.load name)
      split
      · next heq => rwa [heq] at hload
      · next target t heq =>
        rw [heq] at hload
        exact hload.trans (.link t id index target)
  · exact .refl s

end Effects

theorem Move.effects (h : Move env p q) : Effects env p.loader q.loader := by
  cases h with
  | load s frames name => exact .of (.load name)
  | object s frames id => exact .objectOf s id
  | store s frames id slot value => exact .setStatic s id slot value
  | resolve s frames id index => exact .resolveClass s id index
  | init s frames id => exact .refl s
  | absent frames hc => exact .refl _
  | answer frames hc ha => exact .refl _
  | start frames hc ha => exact .of (.mark _ LoadedClass.fixed_startInit fun _ => rfl)
  | giveUp s id frames e => exact .endInit s id _
  | skip frames hc hi => exact .endInit _ _ _
  | enter frames hc hi => exact .of (.note _)
  | leave frames hc r => exact .endInit _ _ _
  | resume s r hframes => exact .refl s

theorem Moves.effects (h : Moves env p q) : Effects env p.loader q.loader := by
  induction h with
  | refl => exact .refl _
  | tail _ hlast ih => exact ih.trans hlast.effects

/-- What a loader keeps through all effects: it is sound, at rest, and each class has its object. -/
structure Loader.Settled (env : Environment) (s : Loader) : Prop where
  sound : s.Sound env.config env.search
  atRest : s.AtRest
  mirrored : s.Mirrored

theorem Effect.changes (h : Effect env s t) (hs : s.Sound env.config env.search) :
    Loader.Changes env.config env.search s t := by
  cases h with
  | load name => exact (hs.load env name).changes
  | mark id hf ho => exact .of (.updateClass fun c _ => hf c)
  | note run => exact .of (.grow rfl rfl (.refl _))
  | attach classClass id => exact .of (.attachObject classClass id)

theorem Effect.finishes (h : Effect env s t) :
    Loader.Finishes env.config env.search s t := by
  cases h with
  | load name => exact .load env s name
  | mark id hf ho => exact .updateClass id hf
  | note run => exact .of_grow rfl rfl (.refl _) rfl
  | attach classClass id => exact .attachObject s classClass id

theorem Effect.mirrored (h : Effect env s t) (hs : s.Sound env.config env.search)
    (hm : s.Mirrored) : t.Mirrored := by
  cases h with
  | load name => exact hm.load hs name
  | mark id hf ho => exact hm.updateClass id hf ho
  | note run => exact ⟨hm.registered, ⟨hm.pooled.entity, hm.pooled.object⟩, hm.attached, hm.ready⟩
  | attach classClass id =>
    rw [hm.attachObject_eq]
    exact hm

theorem Effects.changes (h : Effects env s t) (hs : s.Sound env.config env.search) :
    Loader.Changes env.config env.search s t := by
  induction h with
  | refl => exact .refl
  | tail _ hlast ih => exact ih.trans (hlast.changes (ih.sound hs))

theorem Effects.settled (h : Effects env s t) (hs : s.Settled env) : t.Settled env := by
  induction h with
  | refl => exact hs
  | tail _ hlast ih =>
    exact ⟨(hlast.changes ih.sound).sound ih.sound, ih.atRest.finishes ih.sound hlast.finishes,
      hlast.mirrored ih.sound ih.mirrored⟩

theorem Loader.settled_bootstrap (h : Loader.bootstrap env = .ok s) : s.Settled env :=
  ⟨(Loader.bootstrap_changes h).sound Loader.sound_empty,
    Loader.atRest_empty.finishes Loader.sound_empty (Loader.Finishes.bootstrap h),
    Loader.mirrored_bootstrap h⟩

theorem Session.settled (h : Session env p) : p.loader.Settled env := by
  obtain ⟨s, hs, hp⟩ := h
  exact hp.effects.settled (Loader.settled_bootstrap hs)

/-! ### Operations are sequences of moves -/

/-- Whether a class has an initializer to run, and how it is logged, does not change. -/
theorem Environment.initializerOf?_eq_of_fixed (env : Environment) {c d : LoadedClass}
    (h : d.fixed = c.fixed) : env.initializerOf? d = env.initializerOf? c := by
  have hname : d.name = c.name := congrArg (·.name) h
  have hmethods : d.methods = c.methods := congrArg (·.methods) h
  simp only [Environment.initializerOf?, LoadedClass.method?, hname, hmethods]

theorem takesRequests_nil : TakesRequests [] := nofun

theorem takesRequests_own (id : ClassId) (frames : List Frame) :
    TakesRequests (.own id :: frames) := nofun

theorem Loader.Sound.initSuper_changes (env : Environment) (hs : s.Sound env.config env.search)
    (superClass : Option ClassId) :
    Loader.Changes env.config env.search s (s.initSuper env superClass).2 := by
  cases superClass with
  | none => exact .refl
  | some parent => exact hs.serve env (.init parent)

/-- An initialization goes from its call to its return, whoever has called, and the actions of an
initializer and the requests among them go on from one request to the next. -/
theorem moves_init (env : Environment) :
    (∀ (s : Loader) (id : ClassId), s.Sound env.config env.search → ∀ frames,
      Moves env ⟨s, .call id, frames⟩
        ⟨(s.initClass env id).2, .back (s.initClass env id).1, frames⟩) ∧
    (∀ (s : Loader) (id : ClassId) (actions : List Action), s.Sound env.config env.search →
      ∀ frames, TakesRequests frames →
        Moves env ⟨s, .free, frames⟩ ⟨(s.act env id actions).2, .free, frames⟩) ∧
    ∀ (s : Loader) (name : String), s.Sound env.config env.search →
      ∀ frames, TakesRequests frames →
        Moves env ⟨s, .free, frames⟩ ⟨(s.loadInit env name).2, .free, frames⟩ := by
  apply Loader.init_call_induct env
  case absent =>
    intro s id hc _ frames
    rw [Loader.initClass_of_none hc]
    exact .of (.absent frames hc)
  case answered =>
    intro s id c r hc ha _ frames
    rw [Loader.initClass_of_answer hc ha]
    exact .of (.answer frames hc ha)
  case started =>
    intro s id c hc ha habove hown hs frames
    have hstart : Loader.Changes env.config env.search s
        (s.updateClass id LoadedClass.startInit) :=
      .of (.updateClass fun c _ => LoadedClass.fixed_startInit c)
    have hstarted := hstart.sound hs
    have hsuper := hstarted.initSuper_changes env c.superClass
    have hmoves : ∀ frames, Moves env
        ⟨s.updateClass id LoadedClass.startInit, .toSuper c.superClass, frames⟩
        ⟨((s.updateClass id LoadedClass.startInit).initSuper env c.superClass).2,
          .back ((s.updateClass id LoadedClass.startInit).initSuper env c.superClass).1,
          frames⟩ := by
      intro frames
      cases c.superClass with
      | none => exact .refl _
      | some parent => exact habove parent hstarted frames
    replace hmoves := (Moves.of (.start frames hc ha)).trans (hmoves (.above id :: frames))
    rw [Loader.initClass_of_start hc ha]
    generalize hx : (s.updateClass id LoadedClass.startInit).initSuper env c.superClass = x
      at hmoves hsuper
    obtain ⟨r, t⟩ := x
    cases r with
    | error e => exact hmoves.trans (.of (.giveUp t id frames e))
    | ok _ =>
      -- the class is read before its super class is initialized and has the same initializer after
      have hst := hstart.trans hsuper
      obtain ⟨d, hd, hfixed⟩ := hst.classes id c hc
      have hinitializer := env.initializerOf?_eq_of_fixed hfixed
      have hname : d.name = c.name := congrArg (·.name) hfixed
      simp only [Loader.initOwn]
      cases hi : env.initializerOf? c with
      | none => exact hmoves.trans (.of (.skip frames hd (hinitializer.trans hi)))
      | some own =>
        obtain ⟨run, actions⟩ := own
        have hnote : Loader.Changes env.config env.search t (t.noteRun run) :=
          .of (.grow rfl rfl (.refl _))
        have hsound := (hst.trans hnote).sound hs
        have hact := hown t run actions hx hi hsound (.own id :: frames)
          (takesRequests_own id frames)
        obtain ⟨d', hd', hfixed'⟩ := (hact.effects.changes hsound).classes id d hd
        have hname' : d'.name = c.name := (congrArg (·.name) hfixed').trans hname
        have henter := hmoves.trans (.of (.enter frames hd (hinitializer.trans hi)))
        have hleave := (henter.trans hact).trans
          (.of (.leave frames hd' ((t.noteRun run).act env id actions).1))
        rwa [hname'] at hleave
  case nil =>
    intro s id _ frames _
    rw [Loader.act_nil]
    exact .refl _
  case fail =>
    intro s id message rest _ frames _
    rw [Loader.act_fail]
    exact .refl _
  case load =>
    intro s id name rest hrest hs frames hframes
    have hload := hs.load env name
    have hmove : Moves env ⟨s, .free, frames⟩ ⟨(s.load env name).2, .free, frames⟩ :=
      .of (.load s frames name)
    rw [Loader.act_load]
    cases hl : s.load env name with
    | mk r t =>
    rw [hl] at hload hmove
    cases r with
    | error e => exact hmove
    | ok i => exact hmove.trans (hrest i t hl (hload.changes.sound hs) frames hframes)
  case init =>
    intro s id name rest hname hrest hs frames hframes
    have hchanges := hs.serve env (.loadInit name)
    have hmoves := hname hs frames hframes
    rw [Loader.act_init]
    simp only [Loader.serve] at hchanges
    cases hl : s.loadInit env name with
    | mk r t =>
    rw [hl] at hchanges hmoves
    cases r with
    | error e => exact hmoves
    | ok i => exact hmoves.trans (hrest i t hl (hchanges.sound hs) frames hframes)
  case tryInit =>
    intro s id name rest hname hrest hs frames hframes
    have hchanges := hs.serve env (.loadInit name)
    rw [Loader.act_tryInit]
    exact (hname hs frames hframes).trans (hrest (hchanges.sound hs) frames hframes)
  case set =>
    intro s id slot value rest hrest hs frames hframes
    have hchanges := hs.serve env (.setStatic id slot value)
    have hmove : Moves env ⟨s, .free, frames⟩
        ⟨(s.setStatic id slot value).2, .free, frames⟩ := .of (.store s frames id slot value)
    rw [Loader.act_set]
    simp only [Loader.serve] at hchanges
    cases hset : s.setStatic id slot value with
    | mk stored t =>
    rw [hset] at hchanges hmove
    cases stored with
    | false => exact .refl _
    | true => exact hmove.trans (hrest t hset (hchanges.sound hs) frames hframes)
  case loadInit =>
    intro s name hinit hs frames hframes
    have hload := hs.load env name
    have hmove : Moves env ⟨s, .free, frames⟩ ⟨(s.load env name).2, .free, frames⟩ :=
      .of (.load s frames name)
    rw [Loader.loadInit_eq]
    cases hl : s.load env name with
    | mk r t =>
    rw [hl] at hload hmove
    cases r with
    | error e => exact hmove
    | ok id =>
      have hcall := hmove.trans (.of (.init t frames id))
      have hback := hcall.trans (hinit id t hl (hload.changes.sound hs) frames)
      exact hback.trans (.of (.resume _ _ hframes))

theorem moves_withObject {r : Except LoadError ClassId × Loader}
    (h : Moves env ⟨s, .free, frames⟩ ⟨r.2, .free, frames⟩) :
    Moves env ⟨s, .free, frames⟩ ⟨(Loader.withObject r).2, .free, frames⟩ := by
  obtain ⟨r, t⟩ := r
  cases r with
  | error e => exact h
  | ok id => exact h.trans (.of (.object t frames id))

/-- Every request is served by a sequence of moves. -/
theorem moves_serve (hs : s.Sound env.config env.search) (request : Request)
    (hframes : TakesRequests frames) :
    Moves env ⟨s, .free, frames⟩ ⟨s.serve env request, .free, frames⟩ := by
  obtain ⟨hinit, -, hloadInit⟩ := moves_init env
  have hload : ∀ name, Moves env ⟨s, .free, frames⟩ ⟨(s.load env name).2, .free, frames⟩ :=
    fun name => .of (.load s frames name)
  cases request with
  | load name => exact hload name
  | loadInit name => exact hloadInit s name hs frames hframes
  | init id =>
    have hcall : Moves env ⟨s, .free, frames⟩ ⟨s, .call id, frames⟩ := .of (.init s frames id)
    exact (hcall.trans (hinit s id hs frames)).trans (.of (.resume _ _ hframes))
  | object id => exact .of (.object s frames id)
  | loadObject name => exact moves_withObject (hload name)
  | forName name run =>
    simp only [Loader.serve, Loader.forName]
    split
    · exact .refl _
    · apply moves_withObject
      split
      · exact hloadInit s _ hs frames hframes
      · exact hload _
  | resolveClass id index =>
    simp only [Loader.serve]
    split
    · next hlt => exact .of (.resolve s frames ⟨id, hlt⟩ index)
    · exact .refl _
  | setStatic id slot value => exact .of (.store s frames id slot value)

end ClassLoading
