import ClassLoading.Proofs.ClassObjects
import ClassLoading.Proofs.Deadlock

/-! Classes and their objects while several threads load. From the moment a class is built to the
moment it is published only the thread that has built it knows it, and this thread still holds the
name; so no two classes of the table share a name, and every class has its own object before any
other thread can get hold of it. -/
namespace ClassLoading

/-- Only the step that builds a class touches the table of classes and the pool of objects. -/
theorem Thread.Step.table_cases {env : Environment} {s t : Loader} {me : ThreadId}
    {thread next : Thread} (h : Step env s me thread t next) :
    (t.classes = s.classes ∧ t.objects = s.objects ∧ t.classClass = s.classClass) ∨
    ∃ (d : Definition) (c : LoadedClass) (callers : List Definition),
      thread = ⟨.define d, callers⟩ ∧ t = s.addClass c ∧
      d.plan.build env.config s.classes d.name d.loaded = .ok c ∧
      next = ⟨.publish d.name d.slot (.ok s.classes.size), callers⟩ := by
  cases h with
  | @built d c callers hd hb => exact .inr ⟨d, c, callers, rfl, rfl, hb, rfl⟩
  | planned hp =>
    left
    unfold Loader.noteLookup
    split <;> exact ⟨rfl, rfl, rfl⟩
  | unknown hp =>
    left
    unfold Loader.noteLookup
    split <;> exact ⟨rfl, rfl, rfl⟩
  | _ => exact .inl ⟨rfl, rfl, rfl⟩

namespace Machine

variable {config : LoaderConfig} {search : ClassSearch} {env : Environment} {m : Machine}
  {i j : ThreadId} {name : String} {slot : SlotId} {id : ClassId} {c : LoadedClass}
  {thread next : Thread} {t : Loader}

/-! ### Names in progress -/

/-- A name that is loading is held by one thread and in one slot. -/
theorem Sound.loads_name_unique (h : m.Sound config search) {slot' : SlotId}
    (hi : m.Loads i name slot) (hj : m.Loads j name slot') : i = j ∧ slot = slot' := by
  have hslot : slot = slot' := Option.some.inj
    ((h.loadingAt_of_loads hi).1.symm.trans (h.loadingAt_of_loads hj).1)
  subst hslot
  exact ⟨h.loads_unique hi hj, rfl⟩

theorem Sound.not_loaded_of_loads (h : m.Sound config search) (hi : m.Loads i name slot) :
    m.loader.findLoaded? name ≠ some id := by
  intro hid
  rw [Loader.findLoaded?, (h.loadingAt_of_loads hi).slot?_eq] at hid
  cases hid

/-- Some thread has built the class and has yet to publish it. -/
def Publishes (m : Machine) (name : String) (id : ClassId) : Prop :=
  ∃ (i : ThreadId) (slot : SlotId) (callers : List Definition),
    m.threads[i]? = some ⟨.publish name slot (.ok id), callers⟩

theorem loads_of_publish {result : Except LoadError ClassId} {callers : List Definition}
    (h : m.threads[i]? = some ⟨.publish name slot result, callers⟩) : m.Loads i name slot :=
  ⟨_, h, by simp [Thread.held, Activity.held?]⟩

theorem loads_of_define {d : Definition} {callers : List Definition}
    (h : m.threads[i]? = some ⟨.define d, callers⟩) : m.Loads i d.name d.slot :=
  ⟨_, h, by simp [Thread.held, Activity.held?]⟩

/-- The class that a thread has built is the only one of its name that is not published. -/
theorem Sound.publishes_unique (h : m.Sound config search) {id' : ClassId}
    (hid : m.Publishes name id) (hid' : m.Publishes name id') : id = id' := by
  obtain ⟨i, slot, callers, hi⟩ := hid
  obtain ⟨j, slot', callers', hj⟩ := hid'
  obtain ⟨rfl, -⟩ := h.loads_name_unique (loads_of_publish hi) (loads_of_publish hj)
  rw [hi] at hj
  cases hj
  rfl

/-! ### Classes and objects -/

/-- Every class of the table is loaded or about to be published, and has its object. -/
structure Stocked (m : Machine) : Prop where
  housed : ∀ (id : ClassId) (c : LoadedClass), m.loader.classes[id]? = some c →
    m.loader.findLoaded? c.name = some id ∨ m.Publishes c.name id
  pooled : m.loader.Pooled
  attached : m.loader.Attached
  ready : ∃ classClass, m.loader.classClass = some classClass

theorem Stocked.distinct (h : m.Stocked) (hs : m.Sound config search) : m.loader.Distinct := by
  intro i j c d hc hd hname
  rcases h.housed i c hc with hi | hi <;> rcases h.housed j d hd with hj | hj
  · exact Option.some.inj (hi.symm.trans (hname ▸ hj))
  · obtain ⟨_, _, _, hj⟩ := hj
    exact absurd (hname ▸ hi) (hs.not_loaded_of_loads (loads_of_publish hj))
  · obtain ⟨_, _, _, hi⟩ := hi
    exact absurd (hname ▸ hj) (hs.not_loaded_of_loads (loads_of_publish hi))
  · exact hs.publishes_unique (hname ▸ hi) hj

/-- The name of a class that is being defined is not that of a class of the table. -/
theorem Stocked.name_ne (h : m.Stocked) (hs : m.Sound config search) {d : Definition}
    {callers : List Definition} (hi : m.threads[i]? = some ⟨.define d, callers⟩)
    (hc : m.loader.classes[id]? = some c) : c.name ≠ d.name := by
  intro hname
  have hloads := loads_of_define hi
  rcases h.housed id c hc with hloaded | ⟨j, slot, callers', hj⟩
  · exact hs.not_loaded_of_loads hloads (hname ▸ hloaded)
  · obtain ⟨rfl, -⟩ := hs.loads_name_unique (hname ▸ loads_of_publish hj) hloads
    rw [hi] at hj
    cases hj

/-! ### Steps -/

theorem Publishes.step (h : m.Publishes name id) (hi : m.threads[i]? = some thread)
    (hne : ∀ slot, thread.activity ≠ .publish name slot (.ok id)) :
    (Machine.mk t (m.threads.setIfInBounds i next)).Publishes name id := by
  obtain ⟨j, slot, callers, hj⟩ := h
  refine ⟨j, slot, callers, ?_⟩
  rw [getElem?_setIfInBounds hi, if_neg, hj]
  rintro rfl
  rw [hi] at hj
  cases hj
  exact hne slot rfl

theorem Stocked.step (h : m.Stocked) (hs : m.Sound env.config env.search)
    (hi : m.threads[i]? = some thread) (hstep : Thread.Step env m.loader i thread t next) :
    (Machine.mk t (m.threads.setIfInBounds i next)).Stocked := by
  have hchanges := hstep.changes
    (hs.valid thread (Array.mem_toList_iff.2 (Array.mem_of_getElem? hi))) (hs.mem_loading hi)
  obtain ⟨classClass, hready⟩ := h.ready
  rcases hstep.table_cases with ⟨hclasses, hobjects, hclass⟩ |
    ⟨d, c, callers, rfl, rfl, hbuild, rfl⟩
  · have hsame : Loader.SameObjects m.loader t := fun i => by rw [hclasses]
    refine ⟨fun id c hc => ?_, h.pooled.of_sameObjects hsame hobjects hclass,
      h.attached.of_sameObjects hsame, classClass, hclass.trans hready⟩
    rw [hclasses] at hc
    rcases h.housed id c hc with hloaded | hpublishes
    · exact .inl (hchanges.findLoaded? hs.loader.toTidy hloaded)
    · by_cases hown : ∃ slot, thread.activity = .publish c.name slot (.ok id)
      · obtain ⟨slot, hactivity⟩ := hown
        obtain ⟨activity, callers⟩ := thread
        cases hactivity
        have own := hs.loadingAt_of_loads (loads_of_publish hi)
        cases hstep with
        | published =>
          left
          rw [Loader.findLoaded?, Loader.slot?_publish hs.loader.toTidy own, if_pos rfl]
      · exact .inr (hpublishes.step hi fun slot hactivity => hown ⟨slot, hactivity⟩)
  · have hname : c.name = d.name := (Blueprint.references_build hbuild).1
    have hnone := (Blueprint.fresh_build hbuild).2
    have hnew : ∀ (k : ClassId) (e : LoadedClass), m.loader.classes[k]? = some e →
        e.name ≠ c.name := fun k e he => hname ▸ h.name_ne hs hi he
    refine ⟨fun id e he => ?_, h.pooled.addClass (h.distinct hs) hnone hnew,
      h.attached.addClass hready c, classClass, ?_⟩
    · rw [Loader.addClass_eq, Array.getElem?_push] at he
      split at he
      · next hid =>
        cases he
        rw [Loader.name_addedClass, hname, hid]
        exact .inr ⟨i, d.slot, callers, by rw [getElem?_setIfInBounds hi, if_pos rfl]⟩
      · rcases h.housed id e he with hloaded | hpublishes
        · exact .inl (hchanges.findLoaded? hs.loader.toTidy hloaded)
        · refine .inr (hpublishes.step hi fun slot hactivity => ?_)
          cases hactivity
    · rw [Loader.addClass_eq]
      exact hready

/-! ### Threads that come and go -/

theorem Stocked.of_threads (h : m.Stocked) {threads : Array Thread}
    (hkeep : ∀ (j : ThreadId) (name : String) (slot : SlotId) (id : ClassId)
      (callers : List Definition), m.threads[j]? = some ⟨.publish name slot (.ok id), callers⟩ →
        threads[j]? = some ⟨.publish name slot (.ok id), callers⟩) :
    (Machine.mk m.loader threads).Stocked := by
  refine ⟨fun id c hc => (h.housed id c hc).imp_right ?_, h.pooled, h.attached, h.ready⟩
  rintro ⟨j, slot, callers, hj⟩
  exact ⟨j, slot, callers, hkeep j _ slot id callers hj⟩

theorem Stocked.move {m' : Machine} (env : Environment) (h : m.Stocked)
    (hs : m.Sound env.config env.search) (hm : Move env m m') : m'.Stocked := by
  cases hm with
  | spawn name =>
    refine h.of_threads fun j name slot id callers hj => ?_
    have hlt := (Array.getElem?_eq_some_iff.1 hj).1
    rw [Array.getElem?_push, if_neg (Nat.ne_of_lt hlt), hj]
  | call name hid =>
    refine h.of_threads fun j name slot id callers hj => ?_
    rw [getElem?_setIfInBounds hid, if_neg, hj]
    rintro rfl
    rw [hid] at hj
    cases hj
  | step i hstep =>
    obtain ⟨thread, s, next, hi, hthread, rfl⟩ := step_cases hstep
    exact h.step hs hi hthread

theorem stocked_of_mirrored {s : Loader} (h : s.Mirrored) : (Machine.mk s #[]).Stocked := by
  obtain ⟨classClass, hready, -⟩ := h.ready
  exact ⟨fun id c hc => .inl (h.registered id c hc), h.pooled, h.attached, classClass, hready⟩

end Machine

end ClassLoading
