import Mathlib.Data.List.Chain
import ClassLoading.Proofs.HistoryIndependence
import ClassLoading.Proofs.Lifecycles
import ClassLoading.Proofs.Moments

/-! The life of a class under initialization. The classes whose initialization is under way are
those with a call on the stack; a call for a super class stands right above the one that waits for
it. So a static initializer starts only once its super class is initialized or is itself under way
further down the stack, it starts once only, and an initialization that has come to an end is never
taken up again. -/
namespace ClassLoading

/-! ### The stack of calls -/

/-- The super class of a class of the table. -/
def Loader.SuperOf (s : Loader) (child parent : ClassId) : Prop :=
  s.classes[child]?.bind (·.superClass) = some parent

/-- The calls on the stack are those of the classes whose initialization is under way, and a call
above one that waits for its super class is for that super class. -/
structure Stacked (s : Loader) (frames : List Frame) : Prop where
  coherent : ∀ {id : ClassId} {c : LoadedClass}, s.classes[id]? = some c → c.Coherent
  nodup : (frames.map Frame.id).Nodup
  running : ∀ {id : ClassId}, id ∈ frames.map Frame.id ↔
    ∃ c, s.classes[id]? = some c ∧ c.initStatus = .running
  chain : frames.IsChain fun inner outer => ∀ child, outer = .above child →
    s.SuperOf child inner.id

variable {env : Environment} {s t : Loader} {frames : List Frame} {frame : Frame} {id : ClassId}
  {c : LoadedClass}

theorem Loader.SuperOf.of_extends {child parent : ClassId} (h : s.SuperOf child parent)
    (hst : t.classes.Extends s.classes) : t.SuperOf child parent := by
  obtain ⟨c, hc, hsuper⟩ := Option.bind_eq_some_iff.1 h
  obtain ⟨d, hd, hfixed⟩ := hst child c hc
  have heq : d.superClass = c.superClass := congrArg (·.superClass) hfixed
  rw [SuperOf, hd, Option.bind_some, heq, hsuper]

theorem Loader.Steady.classes (h : Loader.Steady s t) : t.classes.Extends s.classes := by
  intro id c hc
  obtain ⟨d, hd, heq⟩ := h.kept hc
  exact ⟨d, hd, (LoadedClass.eq_of_standing heq).1⟩

theorem Stacked.steady (h : Stacked s frames) (hst : Loader.Steady s t) : Stacked t frames where
  coherent hd := by
    rcases hst.fresh hd with ⟨c, hc, heq⟩ | hfresh
    · exact (h.coherent hc).of_standing heq
    · exact hfresh.coherent
  nodup := h.nodup
  running {id} := by
    rw [h.running]
    constructor
    · rintro ⟨c, hc, hr⟩
      obtain ⟨d, hd, heq⟩ := hst.kept hc
      exact ⟨d, hd, (LoadedClass.eq_of_standing heq).2.2.2.trans hr⟩
    · rintro ⟨d, hd, hr⟩
      rcases hst.fresh hd with ⟨c, hc, heq⟩ | hfresh
      · exact ⟨c, hc, (LoadedClass.eq_of_standing heq).2.2.2.symm.trans hr⟩
      · exact absurd hr hfresh.not_running
  chain := h.chain.imp fun inner outer hsuper child hchild =>
    (hsuper child hchild).of_extends hst.classes

/-- A class that is marked is the only one to change. -/
theorem Loader.getElem?_updateClass (s : Loader) (id i : ClassId) (f : LoadedClass → LoadedClass) :
    (s.updateClass id f).classes[i]? = if id = i then s.classes[i]?.map f else s.classes[i]? :=
  Array.getElem?_modify

theorem Stacked.start (h : Stacked s frames) (hc : s.classes[id]? = some c)
    (ha : c.initAnswer? = none)
    (hasked : ∀ child rest, frames = .above child :: rest → s.SuperOf child id) :
    Stacked (s.updateClass id LoadedClass.startInit) (.above id :: frames) where
  coherent {i d} hd := by
    rw [Loader.getElem?_updateClass] at hd
    split at hd
    · next heq =>
      subst heq
      rw [hc, Option.map_some] at hd
      cases hd
      exact (h.coherent hc).startInit ha
    · exact h.coherent hd
  nodup := by
    refine List.nodup_cons.2 ⟨fun hmem => ?_, h.nodup⟩
    obtain ⟨d, hd, hr⟩ := h.running.1 hmem
    rw [Frame.id, hc] at hd
    cases hd
    rw [(LoadedClass.initAnswer?_eq_none_iff.1 ha).2] at hr
    cases hr
  running {i} := by
    rw [List.map_cons, List.mem_cons, h.running, Loader.getElem?_updateClass]
    by_cases heq : id = i
    · subst heq
      simp [hc, Frame.id, LoadedClass.startInit]
    · simp [heq, Ne.symm heq, Frame.id]
  chain := by
    have hst : (s.updateClass id LoadedClass.startInit).classes.Extends s.classes :=
      .modify _ fun d _ => d.fixed_startInit
    refine List.isChain_cons.2 ⟨fun outer hhead child hchild => ?_, h.chain.imp
      fun inner outer hsuper child hchild => (hsuper child hchild).of_extends hst⟩
    obtain ⟨rest, hframes⟩ := List.head?_eq_some_iff.1 hhead
    exact (hasked child rest (hchild ▸ hframes)).of_extends hst

theorem Stacked.exists_running (h : Stacked s (frame :: frames)) :
    ∃ c, s.classes[frame.id]? = some c ∧ c.initStatus = .running :=
  h.running.1 List.mem_cons_self

theorem LoadedClass.initStatus_endInit (c : LoadedClass) (r : Except LoadError Unit) :
    (c.endInit r).initStatus = if r.isOk then .done else .failed := by
  cases r <;> rfl

theorem Stacked.finish (h : Stacked s (frame :: frames)) (r : Except LoadError Unit) :
    Stacked (s.endInit frame.id r) frames where
  coherent {i d} hd := by
    obtain ⟨c, hc, hr⟩ := h.exists_running
    rw [Loader.endInit, Loader.getElem?_updateClass] at hd
    split at hd
    · next heq =>
      rw [← heq, hc, Option.map_some] at hd
      cases hd
      exact (h.coherent hc).endInit hr r
    · exact h.coherent hd
  nodup := (List.nodup_cons.1 h.nodup).2
  running {i} := by
    have hmem : i = frame.id ∨ i ∈ frames.map Frame.id ↔ _ := List.mem_cons.symm.trans h.running
    rw [Loader.endInit, Loader.getElem?_updateClass]
    by_cases heq : frame.id = i
    · subst heq
      have hnot := (List.nodup_cons.1 h.nodup).1
      simp only [hnot, if_true, false_iff]
      rintro ⟨d, hd, hr⟩
      obtain ⟨c, -, rfl⟩ := Option.map_eq_some_iff.1 hd
      rw [LoadedClass.initStatus_endInit] at hr
      split at hr <;> cases hr
    · rw [if_neg heq, ← hmem]
      simp [Ne.symm heq]
  chain := by
    have hst : (s.endInit frame.id r).classes.Extends s.classes :=
      .modify _ fun d _ => d.fixed_endInit r
    exact (List.isChain_cons.1 h.chain).2.imp
      fun inner outer hsuper child hchild => (hsuper child hchild).of_extends hst

theorem Stacked.enter (h : Stacked s (.above id :: frames)) (run : InitializerRun) :
    Stacked (s.noteRun run) (.own id :: frames) where
  coherent := h.coherent
  nodup := h.nodup
  running := h.running
  chain := List.isChain_cons.2 (List.isChain_cons.1 h.chain)

/-! ### The log of static initializers -/

/-- No static initializer was run twice, and each that was run belongs to a class whose
initialization has come that far. -/
structure Logged (s : Loader) (frames : List Frame) : Prop where
  once : (s.runs.map (·.className)).Nodup
  entered : ∀ run ∈ s.runs, ∃ (id : ClassId) (c : LoadedClass), s.classes[id]? = some c ∧
    c.name = run.className ∧ c.initStatus ≠ .notStarted ∧ .above id ∉ frames

theorem Logged.of_kept {frames' : List Frame} (h : Logged s frames) (hruns : t.runs = s.runs)
    (hkept : ∀ (id : ClassId) (c : LoadedClass), s.classes[id]? = some c →
      c.initStatus ≠ .notStarted → ∃ d, t.classes[id]? = some d ∧ d.name = c.name ∧
        d.initStatus ≠ .notStarted ∧ (.above id ∉ frames → .above id ∉ frames')) :
    Logged t frames' where
  once := by rw [hruns]; exact h.once
  entered run hrun := by
    obtain ⟨id, c, hc, hname, hstatus, hframes⟩ := h.entered run (hruns ▸ hrun)
    obtain ⟨d, hd, hname', hstatus', hframes'⟩ := hkept id c hc hstatus
    exact ⟨id, d, hd, hname'.trans hname, hstatus', hframes' hframes⟩

theorem Logged.steady (h : Logged s frames) (hst : Loader.Steady s t) : Logged t frames := by
  refine h.of_kept hst.runs fun id c hc hstatus => ?_
  obtain ⟨d, hd, heq⟩ := hst.kept hc
  obtain ⟨hfixed, -, -, hstatus'⟩ := LoadedClass.eq_of_standing heq
  exact ⟨d, hd, congrArg (·.name) hfixed, hstatus'.symm ▸ hstatus, fun hframes => hframes⟩

theorem Logged.start (h : Logged s frames) (hc : s.classes[id]? = some c)
    (ha : c.initAnswer? = none) :
    Logged (s.updateClass id LoadedClass.startInit) (.above id :: frames) := by
  refine h.of_kept rfl fun i d hd hstatus => ?_
  have hne : id ≠ i := by
    rintro rfl
    rw [hc] at hd
    cases hd
    exact hstatus (LoadedClass.initAnswer?_eq_none_iff.1 ha).2
  refine ⟨d, ?_, rfl, hstatus, fun hframes => ?_⟩
  · rw [Loader.getElem?_updateClass, if_neg hne, hd]
  · simp [Ne.symm hne, hframes]

theorem Logged.finish (h : Logged s (frame :: frames)) (r : Except LoadError Unit) :
    Logged (s.endInit frame.id r) frames := by
  refine h.of_kept rfl fun i d hd hstatus => ?_
  have hframes : .above i ∉ frame :: frames → .above i ∉ frames :=
    fun hmem hmem' => hmem (List.mem_cons_of_mem _ hmem')
  rw [Loader.endInit, Loader.getElem?_updateClass]
  split
  · refine ⟨d.endInit r, by rw [hd, Option.map_some], congrArg (·.name) (d.fixed_endInit r), ?_,
      hframes⟩
    rw [LoadedClass.initStatus_endInit]
    split <;> simp
  · exact ⟨d, hd, rfl, hstatus, hframes⟩

/-- The initializer of a class whose initialization has just got past its super class has not been
run before. -/
theorem Logged.enter {run : InitializerRun} (h : Logged s (.above id :: frames))
    (hstacked : Stacked s (.above id :: frames)) (hs : s.Registered)
    (hc : s.classes[id]? = some c) (hname : run.className = c.name) :
    Logged (s.noteRun run) (.own id :: frames) := by
  have hnot : .above id ∉ frames := fun hmem =>
    (List.nodup_cons.1 hstacked.nodup).1 (List.mem_map.2 ⟨_, hmem, rfl⟩)
  constructor
  · simp only [Loader.noteRun, List.map_append, List.map_cons, List.map_nil]
    refine h.once.append (List.nodup_singleton _) fun name hold hnew => ?_
    obtain ⟨old, hmem, rfl⟩ := List.mem_map.1 hold
    obtain ⟨i, d, hd, hold, -, hframes⟩ := h.entered old hmem
    have heq : i = id := hs.name_inj hd hc (hold.trans ((List.mem_singleton.1 hnew).trans hname))
    exact hframes (heq ▸ List.mem_cons_self)
  · intro new hnew
    rcases List.mem_append.1 hnew with hold | hnew
    · obtain ⟨i, d, hd, hold, hstatus, hframes⟩ := h.entered new hold
      exact ⟨i, d, hd, hold, hstatus, fun hmem => by simp_all⟩
    · rw [List.mem_singleton.1 hnew]
      obtain ⟨d, hd, hr⟩ := hstacked.exists_running
      rw [Frame.id, hc] at hd
      cases hd
      exact ⟨id, c, hc, hname.symm, by simp [hr], by simp [hnot]⟩

/-! ### What comes next -/

/-- A call for a super class is for that of the class that waits for it, and a call that has gone
well leaves the class initialized or under way. -/
structure Focused (p : Moment) : Prop where
  free : p.focus = .free → TakesRequests p.frames
  asked : ∀ {id child : ClassId} {rest : List Frame}, p.focus = .call id →
    p.frames = .above child :: rest → p.loader.SuperOf child id
  answered : ∀ {child parent : ClassId} {rest : List Frame} {d : LoadedClass},
    p.focus = .back (.ok ()) → p.frames = .above child :: rest → p.loader.SuperOf child parent →
    p.loader.classes[parent]? = some d → d.kind = .ordinary →
      d.initStatus = .done ∨ d.initStatus = .running

/-- What holds at every moment. -/
structure Consistent (p : Moment) : Prop where
  stacked : Stacked p.loader p.frames
  logged : Logged p.loader p.frames
  focused : Focused p

namespace Consistent

theorem quiet (h : Consistent ⟨s, .free, frames⟩) (hst : Loader.Steady s t) :
    Consistent ⟨t, .free, frames⟩ :=
  ⟨h.stacked.steady hst, h.logged.steady hst, fun _ => h.focused.free rfl, nofun, nofun⟩

theorem start (h : Consistent ⟨s, .call id, frames⟩) (hc : s.classes[id]? = some c)
    (ha : c.initAnswer? = none) :
    Consistent ⟨s.updateClass id LoadedClass.startInit, .toSuper c.superClass,
      .above id :: frames⟩ := by
  refine ⟨h.stacked.start hc ha fun child rest hframes => h.focused.asked rfl hframes,
    h.logged.start hc ha, ?_⟩
  have hsuper : ∀ parent, (s.updateClass id LoadedClass.startInit).SuperOf id parent ↔
      c.superClass = some parent := by
    intro parent
    rw [Loader.SuperOf, Loader.getElem?_updateClass, if_pos rfl, hc, Option.map_some,
      Option.bind_some]
    rfl
  cases hparent : c.superClass with
  | none =>
    refine ⟨nofun, nofun, fun _ hframes hof => ?_⟩
    cases hframes
    rw [hsuper, hparent] at hof
    cases hof
  | some parent =>
    refine ⟨nofun, fun hcall hframes => ?_, nofun⟩
    cases hcall
    cases hframes
    exact (hsuper parent).2 hparent

theorem finish {focus : Focus} (h : Consistent ⟨s, focus, frame :: frames⟩)
    (r : Except LoadError Unit) : Consistent ⟨s.endInit frame.id r, .back r, frames⟩ := by
  refine ⟨h.stacked.finish r, h.logged.finish r, nofun, nofun, fun {child parent rest d} hback
    hframes hof hd _ => ?_⟩
  cases hback
  cases hframes
  -- the class that has just been initialized is the super class that was waited for
  have hof' : s.SuperOf child frame.id :=
    (List.isChain_cons.1 h.stacked.chain).1 _ rfl child rfl
  have hst : (s.endInit frame.id (.ok ())).classes.Extends s.classes :=
    .modify _ fun d _ => d.fixed_endInit _
  have heq : frame.id = parent := Option.some.inj ((hof'.of_extends hst).symm.trans hof)
  rw [Loader.endInit, Loader.getElem?_updateClass, if_pos heq] at hd
  obtain ⟨c, -, rfl⟩ := Option.map_eq_some_iff.1 hd
  exact .inl rfl

end Consistent

theorem Environment.className_of_initializerOf? {run : InitializerRun} {actions : List Action}
    (h : env.initializerOf? c = some (run, actions)) : run.className = c.name := by
  unfold Environment.initializerOf? at h
  split at h
  · cases h
    rfl
  · cases h

variable {p q : Moment}

theorem Move.consistent (h : Move env p q) (hs : p.loader.Settled env) (hp : Consistent p) :
    Consistent q := by
  cases h with
  | load s frames name => exact hp.quiet (.of_adds (hs.sound.load_adds env name))
  | object s frames id => exact hp.quiet (.objectOf s id)
  | store s frames id slot value => exact hp.quiet (.setStatic s id slot value)
  | resolve s frames id index => exact hp.quiet (.resolveClass hs.sound id index)
  | init s frames id =>
    refine ⟨hp.stacked, hp.logged, nofun, fun _ hframes => ?_, nofun⟩
    exact absurd hframes (hp.focused.free rfl _ _)
  | absent frames hc =>
    refine ⟨hp.stacked, hp.logged, nofun, nofun, fun _ hframes hof hd _ => ?_⟩
    have hof' := hp.focused.asked rfl hframes
    rw [Loader.SuperOf, hof'] at hof
    cases hof
    rw [hc] at hd
    cases hd
  | answer frames hc ha =>
    refine ⟨hp.stacked, hp.logged, nofun, nofun, fun hback hframes hof hd ho => ?_⟩
    cases hback
    have hof' := hp.focused.asked rfl hframes
    rw [Loader.SuperOf, hof'] at hof
    cases hof
    rw [hc] at hd
    cases hd
    exact LoadedClass.initAnswer?_eq_ok ha ho
  | start frames hc ha => exact hp.start hc ha
  | giveUp s id frames e => exact hp.finish _
  | skip frames hc hi => exact hp.finish _
  | enter frames hc hi =>
    refine ⟨hp.stacked.enter _, hp.logged.enter hp.stacked hs.mirrored.registered hc
      (env.className_of_initializerOf? hi), fun _ => takesRequests_own _ _, nofun, nofun⟩
  | leave frames hc r => exact hp.finish _
  | resume s r hframes => exact ⟨hp.stacked, hp.logged, fun _ => hframes, nofun, nofun⟩

theorem Session.consistent (h : Session env p) : Consistent p := by
  refine Session.induct (fun s hs => ?_) (fun p q hp hmove ih => hmove.consistent hp.settled ih) h
  have hempty : Consistent ⟨.empty, .free, []⟩ :=
    ⟨⟨nofun, List.nodup_nil, by simp [Loader.empty], List.isChain_nil⟩, ⟨List.nodup_nil, nofun⟩,
      fun _ => takesRequests_nil, nofun, nofun⟩
  exact hempty.quiet (.bootstrap hs)

/-- Requests lead from one moment between requests to the next, at the top as well as inside a
static initializer. -/
theorem Session.moves_serve (h : Session env p) (hfree : p.focus = .free) (request : Request) :
    Moves env p ⟨p.loader.serve env request, .free, p.frames⟩ := by
  have hframes := h.consistent.focused.free hfree
  have hs := h.settled.sound
  obtain ⟨s, focus, frames⟩ := p
  cases hfree
  exact ClassLoading.moves_serve hs request hframes

/-! ### The life of a class -/

theorem Loader.Steady.advances (h : Loader.Steady s t) (hc : s.classes[id]? = some c) :
    ∃ d, t.classes[id]? = some d ∧ c.Advances d := by
  obtain ⟨d, hd, heq⟩ := h.kept hc
  exact ⟨d, hd, .of_standing heq⟩

theorem Loader.advances_updateClass {i : ClassId} {f : LoadedClass → LoadedClass}
    (hf : ∀ d, s.classes[i]? = some d → d.Advances (f d)) (hc : s.classes[id]? = some c) :
    ∃ d, (s.updateClass i f).classes[id]? = some d ∧ c.Advances d := by
  rw [Loader.getElem?_updateClass]
  split
  · next heq => exact ⟨f c, by rw [hc, Option.map_some], hf c (heq ▸ hc)⟩
  · exact ⟨c, hc, .refl c⟩

theorem Stacked.advances_endInit (h : Stacked s (frame :: frames)) (r : Except LoadError Unit)
    (hc : s.classes[id]? = some c) :
    ∃ d, (s.endInit frame.id r).classes[id]? = some d ∧ c.Advances d := by
  refine Loader.advances_updateClass (fun d hd => ?_) hc
  obtain ⟨d', hd', hr⟩ := h.exists_running
  rw [hd] at hd'
  cases hd'
  exact LoadedClass.advances_endInit hr r

/-- A move lets every class come further, and runs at most one static initializer more. -/
theorem Move.advances (h : Move env p q) (hs : p.loader.Settled env) (hp : Consistent p) :
    p.loader.runs <+: q.loader.runs ∧ ∀ (id : ClassId) (c : LoadedClass),
      p.loader.classes[id]? = some c → ∃ d, q.loader.classes[id]? = some d ∧ c.Advances d := by
  have quiet : ∀ {s t : Loader}, Loader.Steady s t → s.runs <+: t.runs ∧
      ∀ (id : ClassId) (c : LoadedClass), s.classes[id]? = some c →
        ∃ d, t.classes[id]? = some d ∧ c.Advances d := fun hst =>
    ⟨hst.runs ▸ List.prefix_refl _, fun _ _ hc => hst.advances hc⟩
  cases h with
  | load s frames name => exact quiet (.of_adds (hs.sound.load_adds env name))
  | object s frames id => exact quiet (.objectOf s id)
  | store s frames id slot value => exact quiet (.setStatic s id slot value)
  | resolve s frames id index => exact quiet (.resolveClass hs.sound id index)
  | init s frames id => exact quiet (.refl s)
  | absent frames hc => exact quiet (.refl _)
  | answer frames hc ha => exact quiet (.refl _)
  | start frames hc ha =>
    refine ⟨List.prefix_refl _, fun i d hd => Loader.advances_updateClass (fun e he => ?_) hd⟩
    rw [hc] at he
    cases he
    exact LoadedClass.advances_startInit ha
  | giveUp s id frames e =>
    exact ⟨List.prefix_refl _, fun i d hd => hp.stacked.advances_endInit _ hd⟩
  | skip frames hc hi =>
    exact ⟨List.prefix_refl _, fun i d hd => hp.stacked.advances_endInit _ hd⟩
  | enter frames hc hi => exact ⟨List.prefix_append .., fun i d hd => ⟨d, hd, .refl d⟩⟩
  | leave frames hc r =>
    exact ⟨List.prefix_refl _, fun i d hd => hp.stacked.advances_endInit _ hd⟩
  | resume s r hframes => exact quiet (.refl s)

theorem Session.advances (hp : Session env p) (h : Moves env p q) :
    p.loader.runs <+: q.loader.runs ∧ ∀ (id : ClassId) (c : LoadedClass),
      p.loader.classes[id]? = some c → ∃ d, q.loader.classes[id]? = some d ∧ c.Advances d := by
  induction h with
  | refl => exact ⟨List.prefix_refl _, fun id c hc => ⟨c, hc, .refl c⟩⟩
  | tail hmoves hlast ih =>
    have hmid := hp.moves hmoves
    obtain ⟨hruns, hlater⟩ := hlast.advances hmid.settled hmid.consistent
    refine ⟨ih.1.trans hruns, fun id c hc => ?_⟩
    obtain ⟨d, hd, hcd⟩ := ih.2 id c hc
    obtain ⟨e, he, hde⟩ := hlater id d hd
    exact ⟨e, he, hcd.trans hde⟩

/-- A static initializer that starts belongs to the class that is called on top of the stack, whose
super class, if it is an ordinary one, is initialized or is called further down the stack. -/
def Moment.StartsInOrder (p : Moment) (run : InitializerRun) : Prop :=
  ∃ (id : ClassId) (c : LoadedClass) (rest : List Frame), p.frames = .above id :: rest ∧
    p.loader.classes[id]? = some c ∧ c.name = run.className ∧
    ∀ parent, c.superClass = some parent → ∃ d, p.loader.classes[parent]? = some d ∧
      (d.kind = .ordinary → d.initStatus = .done ∨
        d.initStatus = .running ∧ ∃ frame ∈ p.frames, frame.id = parent)

theorem Loader.Settled.exists_super (hs : s.Settled env) (hc : s.classes[id]? = some c)
    {parent : ClassId} (hparent : c.superClass = some parent) :
    ∃ d, s.classes[parent]? = some d := by
  obtain ⟨c', hc', hrefs⟩ :=
    (hs.sound.made c.name id (hs.mirrored.registered id c hc)).exists_class
  rw [hc] at hc'
  cases hc'
  have hlt := hrefs parent (by simp [LoadedClass.references, hparent])
  have hid := (Array.getElem?_eq_some_iff.1 hc).1
  exact ⟨_, Array.getElem?_eq_getElem (Nat.lt_trans hlt hid)⟩

theorem Move.startsInOrder {run : InitializerRun} (h : Move env p q) (hs : p.loader.Settled env)
    (hp : Consistent p) (hrun : q.loader.runs = p.loader.runs ++ [run]) : p.StartsInOrder run := by
  have quiet : ∀ {s t : Loader}, t.runs = s.runs → t.runs ≠ s.runs ++ [run] := by
    intro s t heq
    simp [heq]
  cases h with
  | load s frames name => exact absurd hrun (quiet (hs.sound.load_adds env name).runs)
  | object s frames id => exact absurd hrun (quiet (Loader.Steady.objectOf s id).runs)
  | store s frames id slot value =>
    exact absurd hrun (quiet (Loader.Steady.setStatic s id slot value).runs)
  | resolve s frames id index =>
    exact absurd hrun (quiet (Loader.Steady.resolveClass hs.sound id index).runs)
  | init s frames id => exact absurd hrun (quiet rfl)
  | absent frames hc => exact absurd hrun (quiet rfl)
  | answer frames hc ha => exact absurd hrun (quiet rfl)
  | start frames hc ha => exact absurd hrun (quiet rfl)
  | giveUp s id frames e => exact absurd hrun (quiet rfl)
  | skip frames hc hi => exact absurd hrun (quiet rfl)
  | leave frames hc r => exact absurd hrun (quiet rfl)
  | resume s r hframes => exact absurd hrun (quiet rfl)
  | @enter s id c run' actions frames hc hi =>
    have heq : run' = run := by simpa [Loader.noteRun] using hrun
    refine ⟨id, c, frames, rfl, hc, ?_, fun parent hparent => ?_⟩
    · rw [← env.className_of_initializerOf? hi, heq]
    · obtain ⟨d, hd⟩ := hs.exists_super hc hparent
      refine ⟨d, hd, fun ho => ?_⟩
      have hof : s.SuperOf id parent := by rw [Loader.SuperOf, hc, Option.bind_some, hparent]
      refine (hp.focused.answered rfl rfl hof hd ho).imp_right fun hr => ⟨hr, ?_⟩
      exact List.mem_map.1 (hp.stacked.running.2 ⟨d, hd, hr⟩)

/-- The static initializer of a class starts once that of its super class has been passed by. -/
theorem Moves.exists_enter (hc : s.classes[id]? = some c) (hca : c.initAnswer? = none)
    (hsuper : c.superClass = some parent) (hd : s.classes[parent]? = some d)
    (hda : d.initAnswer? = none) (htop : d.superClass = none)
    (hnone : env.initializerOf? d = none) (hown : env.initializerOf? c = some (run, actions)) :
    ∃ p q, Moves env ⟨s, .free, []⟩ p ∧ Move env p q ∧
      q.loader.runs = p.loader.runs ++ [run] := by
  have hne : id ≠ parent := by
    rintro rfl
    rw [hc] at hd
    cases hd
    rw [hsuper] at htop
    cases htop
  let s₁ := s.updateClass id LoadedClass.startInit
  let s₂ := s₁.updateClass parent LoadedClass.startInit
  let s₃ := s₂.endInit parent (.ok ())
  have hd₁ : s₁.classes[parent]? = some d := by
    rw [Loader.getElem?_updateClass, if_neg hne, hd]
  have hd₂ : s₂.classes[parent]? = some d.startInit := by
    rw [Loader.getElem?_updateClass, if_pos rfl, hd₁, Option.map_some]
  have hc₃ : s₃.classes[id]? = some c.startInit := by
    change (s₂.updateClass parent _).classes[id]? = _
    rw [Loader.getElem?_updateClass, if_neg hne.symm, Loader.getElem?_updateClass,
      if_neg hne.symm, Loader.getElem?_updateClass, if_pos rfl, hc, Option.map_some]
  have call : Move env ⟨s, .call id, []⟩ ⟨s₁, .toSuper c.superClass, [.above id]⟩ :=
    .start [] hc hca
  have above : Move env ⟨s₁, .call parent, [.above id]⟩
      ⟨s₂, .toSuper d.superClass, [.above parent, .above id]⟩ := .start [.above id] hd₁ hda
  rw [hsuper] at call
  rw [htop] at above
  have back : Move env ⟨s₂, .back (.ok ()), [.above parent, .above id]⟩
      ⟨s₃, .back (.ok ()), [.above id]⟩ := .skip _ hd₂ hnone
  exact ⟨_, _, (((Moves.of (.init s [] id)).trans (.of call)).trans (.of above)).trans (.of back),
    .enter [] hc₃ hown, rfl⟩

/-! ### What a call comes to -/

namespace Loader

/-- What a call for the initialization of an ordinary class comes to. -/
structure InitOutcome (env : Environment) (s : Loader) (id : ClassId) (before after : LoadedClass) :
    Prop where
  fails : (∃ e, (s.initClass env id).1 = .error e) ↔ after.initStatus = .failed
  succeeds : (s.initClass env id).1 = .ok () →
    after.initStatus = .done ∨ after.initStatus = .running
  running : after.initStatus = .running ↔ before.initStatus = .running
  unchanged : before.initStatus = .running → s.initClass env id = (.ok (), s)

/-- An initialization that starts ends with a mark on the class that says how it went. -/
theorem Sound.initClass_of_start (hs : s.Sound env.config env.search)
    (hc : s.classes[id]? = some c) (ha : c.initAnswer? = none) :
    ∃ (r : Except LoadError Unit) (t : Loader) (d : LoadedClass),
      s.initClass env id = (r, t.endInit id r) ∧ t.classes[id]? = some d := by
  have hstart : Changes env.config env.search s (s.updateClass id LoadedClass.startInit) :=
    .of (.updateClass fun c _ => c.fixed_startInit)
  have hsuper := (hstart.sound hs).initSuper_changes env c.superClass
  rw [Loader.initClass_of_start hc ha]
  generalize (s.updateClass id LoadedClass.startInit).initSuper env c.superClass = x at hsuper
  obtain ⟨r, t⟩ := x
  obtain ⟨d, hd, -⟩ := (hstart.trans hsuper).classes id c hc
  cases r with
  | error e => exact ⟨.error e, t, d, rfl, hd⟩
  | ok u =>
    simp only [initOwn]
    split
    · exact ⟨.ok (), t, d, rfl, hd⟩
    · next run actions _ =>
      have hnote : Changes env.config env.search t (t.noteRun run) :=
        .of (.grow rfl rfl (.refl _))
      have hsound := ((hstart.trans hsuper).trans hnote).sound hs
      have hact := ((moves_init env).2.1 (t.noteRun run) id actions hsound [] takesRequests_nil)
      obtain ⟨d', hd', -⟩ := (hact.effects.changes hsound).classes id d hd
      exact ⟨_, _, d', rfl, hd'⟩

theorem Sound.initClass_outcome (hs : s.Sound env.config env.search)
    (hc : s.classes[id]? = some c) (ho : c.kind = .ordinary) :
    ∃ d, (s.initClass env id).2.classes[id]? = some d ∧ InitOutcome env s id c d := by
  cases ha : c.initAnswer? with
  | none =>
    obtain ⟨-, hstatus⟩ := LoadedClass.initAnswer?_eq_none_iff.1 ha
    obtain ⟨r, t, d, heq, hd⟩ := hs.initClass_of_start hc ha
    refine ⟨d.endInit r, ?_, ?_⟩
    · rw [heq, endInit, getElem?_updateClass, if_pos rfl, hd, Option.map_some]
    · cases r with
      | error e => constructor <;> simp [heq, hstatus, LoadedClass.endInit]
      | ok u => constructor <;> simp [heq, hstatus, LoadedClass.endInit, LoadedClass.advance]
  | some r =>
    have heq : s.initClass env id = (r, s) := initClass_of_answer hc ha
    refine ⟨c, by rw [heq, hc], ?_⟩
    rw [LoadedClass.initAnswer?, if_pos ho] at ha
    cases hstatus : c.initStatus <;> rw [hstatus] at ha <;> cases ha <;> constructor <;>
      simp [heq, hstatus]

end Loader

/-! ### A class path with a static initializer -/

namespace StartPath

/-- The class of class objects, with a static initializer that has no code. -/
def classFile : ClassFile where
  magic := 0xCAFEBABE
  minor := 0
  major := 52
  pool := ⟨[.utf8 classClassName, .classRef 1, .utf8 objectName, .classRef 3,
    .utf8 initializerName, .utf8 "()V"]⟩
  flags := 0x21
  thisClass := 2
  superClass := 4
  interfaces := []
  fields := []
  methods := [⟨8, 5, 6, []⟩]
  attributes := []

def search : ClassSearch :=
  .ofFiles [(objectName, SmallPath.objectFile), (classClassName, classFile)]

theorem ofName_object :
    Blueprint.ofName search objectName = .ok (.ordinary SmallPath.objectFile none []) :=
  Blueprint.ofName_of_file (by decide) rfl SmallPath.standsFor_object

theorem ofName_class :
    Blueprint.ofName search classClassName = .ok (.ordinary classFile (some objectName) []) :=
  Blueprint.ofName_of_file (by decide) rfl ⟨by decide +kernel, rfl, rfl, rfl⟩

theorem loadable_object : Loadable .standard search objectName :=
  SmallPath.loadable_of_objectFile ofName_object

theorem decodeMethod_class : classFile.methods.mapM (classFile.pool.decodeMethod classClassName) =
    .ok [⟨8, initializerName, initializerType, none⟩] := by decide +kernel

theorem loadable_class : Loadable .standard search classClassName := by
  refine .of_plan ofName_class (List.forall_mem_singleton.2 loadable_object)
    ⟨nofun, mapM_isOk_iff.1 ⟨_, decodeMethod_class⟩, by decide, ?_, nofun, nofun, fun _ => nofun,
      fun owner member hmem => ?_⟩
  · rintro _ ⟨⟩ ⟨file, superName, interfaceNames, hplan, hflags⟩
    rw [ofName_object] at hplan
    cases hplan
    exact absurd hflags (by decide)
  · simp [classFile] at hmem

end StartPath

/-! ### The whole life -/

/-- The life of classes under initialization, at every moment between requests, inside a request and
inside a static initializer, whatever the initializers do. -/
theorem Session.initialization_lifecycle (h : Session env p) :
    (p.loader.runs.map (·.className)).Nodup ∧
    (∀ (q : Moment) (run : InitializerRun), Move env p q →
      q.loader.runs = p.loader.runs ++ [run] → p.StartsInOrder run) ∧
    (∀ (id : ClassId) (c : LoadedClass), p.loader.classes[id]? = some c → c.kind = .ordinary →
      ∃ d, (p.loader.initClass env id).2.classes[id]? = some d ∧
        p.loader.InitOutcome env id c d) ∧
    (∀ q, Moves env p q → p.loader.runs <+: q.loader.runs ∧
      ∀ (id : ClassId) (c : LoadedClass), p.loader.classes[id]? = some c →
        ∃ d, q.loader.classes[id]? = some d ∧ c.Advances d) ∧
    (p.frames = [] → ∀ (id : ClassId) (c : LoadedClass), p.loader.classes[id]? = some c →
      c.initStatus ≠ .running) ∧
    (∀ (id : ClassId) (c : LoadedClass), p.loader.classes[id]? = some c → c.kind = .ordinary →
      (c.stage = .initialized ↔ c.initStatus = .done)) ∧
    (p.focus = .free → ∀ request,
      Moves env p ⟨p.loader.serve env request, .free, p.frames⟩) := by
  have hs := h.settled
  have hp := h.consistent
  refine ⟨hp.logged.once, fun q run hmove hrun => hmove.startsInOrder hs hp hrun,
    fun id c hc ho => hs.sound.initClass_outcome hc ho, fun q hq => h.advances hq,
    fun hframes id c hc hr => ?_, fun id c hc ho => (hp.stacked.coherent hc).ordinary ho,
    fun hfree request => h.moves_serve hfree request⟩
  have hmem := hp.stacked.running.2 ⟨c, hc, hr⟩
  rw [hframes] at hmem
  cases hmem

/-- The static initializer of the class of class objects starts after the root class has been
initialized. -/
theorem Session.classClass_starts : ∃ (env : Environment) (p q : Moment) (run : InitializerRun),
    Session env p ∧ Move env p q ∧ q.loader.runs = p.loader.runs ++ [run] ∧
      run.className = classClassName ∧ p.StartsInOrder run ∧
      (q.loader.runs.map (·.className)).Nodup := by
  let env : Environment := ⟨.standard, StartPath.search, .script fun _ => [.init objectName]⟩
  obtain ⟨s, hs⟩ := (Loader.bootstrap_isOk_iff env).2 StartPath.loadable_class
  have hs' : Session env ⟨s, .free, []⟩ := ⟨s, hs, .refl _⟩
  have hnew : ∀ {id : ClassId} {c : LoadedClass}, s.classes[id]? = some c → c.kind = .ordinary →
      c.initAnswer? = none := by
    intro id c hc ho
    have hfresh : c.Fresh := by
      refine ((Loader.Steady.bootstrap hs).fresh hc).resolve_left ?_
      rintro ⟨d, hd, -⟩
      cases hd
    exact LoadedClass.initAnswer?_eq_none_iff.2 ⟨ho, (hfresh.ordinary ho).2⟩
  obtain ⟨id, hid⟩ := Loader.findLoaded?_bootstrap hs
  obtain ⟨c, hc, hname, hcKind, hcMethods, hcSuper⟩ :=
    hs'.settled.sound.exists_ordinary hid StartPath.ofName_class
  rw [StartPath.decodeMethod_class] at hcMethods
  injection hcMethods with hcMethods
  cases hsuper : c.superClass with
  | none =>
    rw [hsuper] at hcSuper
    cases hcSuper
  | some parent =>
    rw [hsuper] at hcSuper
    cases hcSuper with
    | some hparent =>
      obtain ⟨d, hd, -, hdKind, hdMethods, hdSuper⟩ :=
        hs'.settled.sound.exists_ordinary hparent StartPath.ofName_object
      injection hdMethods with hdMethods
      have htop : d.superClass = none := by
        generalize d.superClass = above at hdSuper
        cases hdSuper
        rfl
      have hnone : env.initializerOf? d = none := by
        simp [env, Environment.initializerOf?, LoadedClass.method?, ← hdMethods]
      have hown : env.initializerOf? c = some (⟨classClassName, none⟩, [.init objectName]) := by
        simp [env, Environment.initializerOf?, LoadedClass.method?, ← hcMethods, hname]
      obtain ⟨p, q, hmoves, hmove, hrun⟩ := Moves.exists_enter hc (hnew hc hcKind) hsuper hd
        (hnew hd hdKind) htop hnone hown
      have hp := hs'.moves hmoves
      obtain ⟨-, hstart, -⟩ := Session.initialization_lifecycle hp
      obtain ⟨honce, -⟩ := Session.initialization_lifecycle (hp.moves (.of hmove))
      exact ⟨env, p, q, _, hp, hmove, hrun, rfl, hstart q _ hmove hrun, honce⟩

end ClassLoading
