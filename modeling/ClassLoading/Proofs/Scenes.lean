import ClassLoading.Proofs.InitialValues
import ClassLoading.Proofs.SharedObjects
import ClassLoading.Proofs.SkippedInitializers

/-! What holds at every moment of a loader that works for its own thread, static initializers
included, while other threads load. A load of its own takes a slot that no thread holds, so it never
adds a class that a thread has built and not published yet: every class keeps its name to itself,
and has its own object. Only ordinary classes are ever initialized; all others rest at the stage in
which they left their definition. -/
namespace ClassLoading

/-! ### Classes that rest -/

/-- A class that is not ordinary is at the stage in which it left its definition. -/
def LoadedClass.Rests (c : LoadedClass) : Prop :=
  c.kind ≠ .ordinary → c.stage = c.kind.stageAfter false

theorem LoadedClass.lasting_rests : Lasting Rests where
  untouched h _ := h.stage
  of_standing h heq hkind := by
    obtain ⟨-, hkind', hstage, -⟩ := eq_of_standing heq
    rw [hkind'] at hkind ⊢
    exact hstage.trans (h hkind)

theorem LoadedClass.Rests.of_ordinary {c : LoadedClass} (h : c.kind = .ordinary) : c.Rests :=
  fun hne => absurd h hne

/-- All classes but ordinary ones rest, and only ordinary ones are under way. -/
structure Poised (s : Loader) (frames : List Frame) : Prop where
  rests : s.Every LoadedClass.Rests
  ordinary : ∀ frame ∈ frames, ∃ c, s.classes[frame.id]? = some c ∧ c.kind = .ordinary

section

variable {env : Environment} {s t : Loader} {frames : List Frame} {p q : Moment}

theorem Poised.of_extends (h : Poised s frames) (ht : t.Every LoadedClass.Rests)
    (hext : t.classes.Extends s.classes) : Poised t frames := by
  refine ⟨ht, fun frame hframe => ?_⟩
  obtain ⟨c, hc, hkind⟩ := h.ordinary frame hframe
  obtain ⟨d, hd, hfixed⟩ := hext frame.id c hc
  exact ⟨d, hd, (congrArg (·.kind) hfixed).trans hkind⟩

/-- The marks of an initialization are put on ordinary classes. -/
theorem Poised.mark {frame : Frame} (h : Poised s (frame :: frames))
    {f : LoadedClass → LoadedClass} (hf : ∀ c, (f c).fixed = c.fixed) :
    Poised (s.updateClass frame.id f) (frame :: frames) := by
  obtain ⟨c, hc, hkind⟩ := h.ordinary frame List.mem_cons_self
  refine h.of_extends (h.rests.updateClass fun d hd => .of_ordinary ?_) (.modify _ fun d _ => hf d)
  rw [hc] at hd
  cases hd
  exact (congrArg (·.kind) (hf c)).trans hkind

theorem Poised.tail {frame : Frame} (h : Poised s (frame :: frames)) : Poised s frames :=
  ⟨h.rests, fun f hf => h.ordinary f (List.mem_cons_of_mem _ hf)⟩

theorem Poised.standing (h : Poised s frames) (id : ClassId) {f : LoadedClass → LoadedClass}
    (hf : ∀ c, (f c).standing = c.standing) : Poised (s.updateClass id f) frames :=
  h.of_extends (h.rests.updateClass fun c hc =>
      LoadedClass.lasting_rests.of_standing (h.rests id c hc) (hf c))
    (.modify _ fun c _ => (LoadedClass.eq_of_standing (hf c)).1)

theorem Poised.load (h : Poised s frames) (hs : s.Sound env.config env.search) (name : String) :
    Poised (s.load env name).2 frames :=
  h.of_extends ((Loader.load_every LoadedClass.lasting_rests env).1 s name hs h.rests)
    (hs.load env name).changes.classes

theorem Poised.resolveClass (h : Poised s frames) (hs : s.Sound env.config env.search)
    (id : Fin s.classes.size) (index : UInt16) :
    Poised (s.resolveClass env id index).2 frames := by
  simp only [Loader.resolveClass]
  split
  · exact h
  · exact h
  · next name _ =>
    split
    · exact h.standing id fun c => c.standing_link index id
    · have hload := h.load hs name
      split
      · next heq => rwa [heq] at hload
      · next target t heq =>
        rw [heq] at hload
        exact hload.standing id fun c => c.standing_link index target
  · exact h

theorem Move.poised (h : Move env p q) (hs : p.loader.Sound env.config env.search)
    (hp : Poised p.loader p.frames) : Poised q.loader q.frames := by
  cases h with
  | load s frames name => exact hp.load hs name
  | object s frames id =>
    simp only [Loader.objectOf]
    split
    · exact hp.of_extends (hp.rests.attachObject LoadedClass.lasting_rests _ id)
        (Loader.attachObject_extends s _ id)
    · exact hp
  | store s frames id slot value =>
    rcases Loader.setStatic_eq s id slot value with heq | heq
    · rw [heq]
      exact hp
    · rw [heq]
      exact hp.standing id fun c => c.standing_setStatic? slot value
  | resolve s frames id index => exact hp.resolveClass hs id index
  | init s frames id => exact hp
  | absent frames hc => exact hp
  | answer frames hc ha => exact hp
  | @start s id c frames hc ha =>
    have hkind := (LoadedClass.initAnswer?_eq_none_iff.1 ha).1
    have hp' : Poised s (.above id :: frames) :=
      ⟨hp.rests, List.forall_mem_cons.2 ⟨⟨c, hc, hkind⟩, hp.ordinary⟩⟩
    exact hp'.mark LoadedClass.fixed_startInit
  | giveUp s id frames e => exact (hp.mark fun c => c.fixed_endInit _).tail
  | skip frames hc hi => exact (hp.mark fun c => c.fixed_endInit _).tail
  | enter frames hc hi =>
    exact ⟨hp.rests, List.forall_mem_cons.2 (List.forall_mem_cons.1 hp.ordinary)⟩
  | leave frames hc r => exact (hp.mark fun c => c.fixed_endInit _).tail
  | resume s r hframes => exact hp

theorem Moves.poised (h : Moves env p q) (hs : p.loader.Sound env.config env.search)
    (hp : Poised p.loader p.frames) : Poised q.loader q.frames := by
  induction h with
  | refl => exact hp
  | tail hmid hlast ih => exact hlast.poised ((Moves.effects hmid).changes hs |>.sound hs) ih

/-- Whatever an initialization runs, the classes that are not ordinary rest. -/
theorem Loader.Every.initClass (h : s.Every LoadedClass.Rests)
    (hs : s.Sound env.config env.search) (id : ClassId) :
    (s.initClass env id).2.Every LoadedClass.Rests := by
  have hp : Poised s [] := ⟨h, nofun⟩
  exact (((moves_init env).1 s id hs []).poised hs hp).rests

end

/-! ### Requests beside threads -/

namespace Machine

variable {config : LoaderConfig} {search : ClassSearch} {env : Environment} {m m' : Machine}
  {name : String} {slot : SlotId} {t : Loader} {r : Except LoadError LoadedClass}

theorem Stocked.supplied (h : m.Stocked) (hs : m.Sound config search) : m.loader.Supplied :=
  ⟨h.pooled, h.attached, h.distinct hs, h.ready⟩

/-- The loader takes a name that no thread holds. -/
theorem Sound.acquire (hs : m.Sound config search) (free : m.loader.slot? name = none) :
    (Machine.mk ((m.loader.acquire mainThread name).noteLookup name) m.threads).Sound config
      search := by
  have hchanges := Loader.Changes.acquire config search free mainThread
  refine ⟨hchanges.sound hs.loader, fun thread ht => (hs.valid thread ht).mono hchanges
    hs.loader.toTidy, fun load hl => ?_, hs.distinct⟩
  have own := hs.loading load hl
  exact Loader.noteLookup_loadingAt (own.acquire (Loader.ne_of_slot?_none free own))

/-- The loader ends a load in a slot that no thread holds. -/
theorem Sound.complete (hs : m.Sound env.config env.search) (own : m.loader.LoadingAt name slot)
    (hslot : ∀ load ∈ m.held, load.2 ≠ slot) (hr : m.loader.Builds env name r) :
    (Machine.mk (m.loader.complete name slot r).2 m.threads).Sound env.config env.search := by
  have hchanges := hr.changes hs.loader own
  refine ⟨hchanges.sound hs.loader, fun thread ht => (hs.valid thread ht).mono hchanges
    hs.loader.toTidy, fun load hl => ?_, hs.distinct⟩
  have hload := hs.loading load hl
  refine hload.complete (fun hname => hslot load hl ?_) (hslot load hl) r
  exact Option.some.inj (hload.1.symm.trans (hname ▸ own.1))

/-- A change that leaves the table and the pool alone leaves every class in its place. -/
theorem Stocked.of_classes (h : m.Stocked) (hs : m.Sound config search)
    (hchanges : Loader.Changes config search m.loader t) (hclasses : t.classes = m.loader.classes)
    (hobjects : t.objects = m.loader.objects) (hclass : t.classClass = m.loader.classClass) :
    (Machine.mk t m.threads).Stocked := by
  have hsame : Loader.SameObjects m.loader t := fun i => by rw [hclasses]
  obtain ⟨classClass, hready⟩ := h.ready
  refine ⟨fun id c hc => ?_, h.pooled.of_sameObjects hsame hobjects hclass,
    h.attached.of_sameObjects hsame, classClass, hclass.trans hready⟩
  rw [hclasses] at hc
  exact (h.housed id c hc).imp_left (hchanges.findLoaded? hs.loader.toTidy)

theorem Stocked.acquire (h : m.Stocked) (hs : m.Sound config search)
    (free : m.loader.slot? name = none) :
    (Machine.mk ((m.loader.acquire mainThread name).noteLookup name) m.threads).Stocked := by
  refine h.of_classes hs (.acquire config search free mainThread) (Loader.classes_noteLookup ..) ?_
    (Loader.Adds.acquire m.loader mainThread name).classClass
  unfold Loader.noteLookup
  split <;> rfl

/-- The class that a load of the loader's own adds has a name that no class has. -/
theorem Stocked.complete (h : m.Stocked) (hs : m.Sound env.config env.search)
    (own : m.loader.LoadingAt name slot) (hslot : ∀ load ∈ m.held, load.2 ≠ slot)
    (hr : m.loader.Builds env name r) :
    (Machine.mk (m.loader.complete name slot r).2 m.threads).Stocked := by
  have hchanges := hr.changes hs.loader own
  cases r with
  | error e => exact h.of_classes hs hchanges rfl rfl rfl
  | ok c =>
    obtain ⟨hname, -, hobject⟩ := hr.fresh rfl
    obtain ⟨classClass, hready⟩ := h.ready
    have hnew : ∀ (i : ClassId) (d : LoadedClass), m.loader.classes[i]? = some d →
        d.name ≠ c.name := by
      intro i d hd heq
      rw [hname] at heq
      rcases h.housed i d hd with hloaded | ⟨j, slot', callers, hj⟩
      · rw [heq, Loader.findLoaded?, own.slot?_eq] at hloaded
        cases hloaded
      · -- the thread that is about to publish the class holds the name in the same slot
        obtain ⟨thread, hthread, hheld⟩ := loads_of_publish hj
        have hmem : (d.name, slot') ∈ m.held := List.mem_flatMap.2
          ⟨thread, Array.mem_toList_iff.2 (Array.mem_of_getElem? hthread), hheld⟩
        have hlookup := (hs.loading _ hmem).1
        rw [heq, own.1] at hlookup
        exact hslot _ hmem (Option.some.inj hlookup).symm
    have hsame : Loader.SameObjects (m.loader.addClass c)
        (m.loader.complete name slot (.ok c)).2 := fun _ => rfl
    refine ⟨fun id d hd => ?_, ?_, (h.attached.addClass hready c).of_sameObjects hsame, classClass,
      ?_⟩
    · rw [Loader.classes_complete_ok, Array.getElem?_push] at hd
      split at hd
      · next hid =>
        cases hd
        rw [Loader.name_addedClass, hname, hid]
        exact .inl (Loader.findLoaded?_complete own c)
      · exact (h.housed id d hd).imp_left (hchanges.findLoaded? hs.loader.toTidy)
    · exact (h.pooled.addClass (h.distinct hs) hobject hnew).of_sameObjects hsame rfl rfl
    · show (m.loader.addClass c).classClass = some classClass
      rw [Loader.addClass_eq]
      exact hready

theorem Stocked.load (env : Environment) (h : m.Stocked) (hs : m.Sound env.config env.search)
    (name : String) : (Machine.mk (m.loader.load env name).2 m.threads).Stocked := by
  -- the loads that this one leads to take new slots, and the threads hold older ones
  refine ((Loader.load_preserves_taking env
    (P := fun t => (Machine.mk t m.threads).Sound env.config env.search ∧
      (Machine.mk t m.threads).Stocked)
    (fun slot => ∀ load ∈ m.held, load.2 ≠ slot) ?_ ?_ ?_).1 m.loader name hs.loader
      ⟨hs, h⟩).2
  · rintro t ⟨ht, -⟩ load hl
    exact Nat.ne_of_lt (ht.loader.toTidy.slot_lt (ht.loading load hl).1)
  · rintro t name - free ⟨ht, hstocked⟩
    exact ⟨ht.acquire free, hstocked.acquire ht free⟩
  · rintro t name slot r - own hslot hr ⟨ht, hstocked⟩
    exact ⟨ht.complete own hslot hr, hstocked.complete ht own hslot hr⟩

theorem Stocked.effect (env : Environment) (h : m.Stocked) (hs : m.Sound env.config env.search)
    (he : Effect env m.loader t) : (Machine.mk t m.threads).Stocked := by
  cases he with
  | load name => exact h.load env hs name
  | mark id hf ho =>
    have hsame := Loader.SameObjects.updateClass m.loader id hf ho
    refine ⟨fun i d hd => ?_, h.pooled.of_sameObjects hsame rfl rfl,
      h.attached.of_sameObjects hsame, h.ready⟩
    obtain ⟨c, hc, hname, -⟩ := hsame.symm.exists_class hd
    rw [← hname]
    exact h.housed i c hc
  | note run => exact h.of_classes hs (.of (.grow rfl rfl (.refl _))) rfl rfl rfl
  | attach classClass id =>
    rw [(h.supplied hs).attachObject_eq]
    exact h

theorem Stocked.turn (h : m.Stocked) (hs : m.Sound config search) (ht : Turn config search m m') :
    m'.Stocked := by
  cases ht with
  | request initializer he => exact h.effect ⟨config, search, initializer⟩ hs he
  | move initializer hm => exact h.move ⟨config, search, initializer⟩ hs hm

theorem Stocked.turns (h : m.Stocked) (hs : m.Sound config search)
    (ht : Turns config search m m') : m'.Stocked := by
  induction ht with
  | refl => exact h
  | tail hmid hlast ih => exact ih.turn (hs.turns hmid).1 hlast

/-- What a request leaves behind is in order, with the same threads beside it. -/
theorem Stocked.effects (h : m.Stocked) (hs : m.Sound env.config env.search)
    (he : Effects env m.loader t) :
    (Machine.mk t m.threads).Sound env.config env.search ∧ (Machine.mk t m.threads).Stocked := by
  have hturns : Turns env.config env.search m ⟨t, m.threads⟩ := turns_of_effects he
  exact ⟨(hs.turns hturns).1, h.turns hs hturns⟩

/-- Every class keeps its name and its object through the effects of a request. -/
theorem Stocked.keeps_object (h : m.Stocked) (hs : m.Sound env.config env.search)
    (he : Effects env m.loader t) {id : ClassId} {c : LoadedClass}
    (hc : m.loader.classes[id]? = some c) :
    ∃ d, t.classes[id]? = some d ∧ d.name = c.name ∧ d.classObject = c.classObject := by
  induction he with
  | refl => exact ⟨c, hc, rfl, rfl⟩
  | tail hmid hlast ih =>
    obtain ⟨d, hd, hname, hobject⟩ := ih
    obtain ⟨hs', h'⟩ := h.effects hs hmid
    obtain ⟨e, he, hname', hobject'⟩ := hlast.keeps_object hs'.loader (h'.supplied hs') hd
    exact ⟨e, he, hname'.trans hname, hobject'.trans hobject⟩

/-- A move of the threads leaves all but new classes as they are. -/
theorem Move.every {P : LoadedClass → Prop} (hP : LoadedClass.Lasting P)
    (h : m.loader.Every P) (hm : Move env m m') : m'.loader.Every P := by
  cases hm with
  | spawn name => exact h
  | call name hid => exact h
  | step i hstep =>
    obtain ⟨thread, t, next, -, hthread, rfl⟩ := step_cases hstep
    rcases hthread.table_cases with ⟨hclasses, -⟩ | ⟨d, c, callers, -, rfl, hbuild, -⟩
    · exact h.of_classes hclasses
    · exact h.addClass hP (LoadedClass.untouched_build hbuild)

end Machine

/-! ### Scenes that come about -/

namespace Scene

variable {config : LoaderConfig} {search : ClassSearch} {p q : Scene} {s : Loader}

/-- The moments of a loader that has got ready and goes on to work. -/
def Reachable (config : LoaderConfig) (search : ClassSearch) (q : Scene) : Prop :=
  ∃ initializer s, Loader.bootstrap ⟨config, search, initializer⟩ = .ok s ∧
    Steps config search (.ready s) q

theorem steps_of_moves {initializer : StaticInitializer} {q : Moment}
    (h : Moves ⟨config, search, initializer⟩ p.moment q) :
    Steps config search p ⟨⟨q.loader, p.machine.threads⟩, q.focus, q.frames⟩ := by
  induction h with
  | refl => exact .refl
  | tail _ hlast ih => exact ih.tail (.own initializer hlast)

/-- What requests make of a loader, one after the other, comes about. -/
theorem Reachable.of_history (h : Loader.History config search s) :
    Reachable config search (.ready s) := by
  induction h with
  | ready initializer hs => exact ⟨initializer, _, hs, .refl⟩
  | serve initializer request hpast ih =>
    obtain ⟨first, t, ht, hsteps⟩ := ih
    let env : Environment := ⟨config, search, initializer⟩
    have hmoves : Moves env _ _ := moves_serve hpast.sound request takesRequests_nil
    exact ⟨first, t, ht, hsteps.trans (steps_of_moves (p := .ready _) hmoves)⟩

theorem Reachable.sound (h : Reachable config search q) : q.machine.Sound config search := by
  obtain ⟨initializer, s, hs, hsteps⟩ := h
  exact ((Machine.Reachable.ready initializer hs).sound.turns hsteps.turns).1

theorem Reachable.stocked (h : Reachable config search q) : q.machine.Stocked := by
  obtain ⟨initializer, s, hs, hsteps⟩ := h
  exact (Machine.stocked_of_mirrored (Loader.mirrored_bootstrap hs)).turns
    (Machine.Reachable.ready initializer hs).sound hsteps.turns

theorem Reachable.supplied (h : Reachable config search q) : q.loader.Supplied :=
  h.stocked.supplied h.sound

theorem Reachable.poised (h : Reachable config search q) : Poised q.loader q.frames := by
  obtain ⟨initializer, s, hs, hsteps⟩ := h
  induction hsteps with
  | refl => exact ⟨Loader.every_bootstrap LoadedClass.lasting_rests hs, nofun⟩
  | tail hmid hlast ih =>
    have hsound := Reachable.sound ⟨initializer, s, hs, hmid⟩
    cases hlast with
    | own initializer hmove => exact hmove.poised hsound.loader ih
    | other initializer hmove =>
      refine ih.of_extends (Machine.Move.every LoadedClass.lasting_rests ih.rests hmove) ?_
      exact (hsound.turn (.move initializer hmove)).2.1.classes

end Scene

end ClassLoading
