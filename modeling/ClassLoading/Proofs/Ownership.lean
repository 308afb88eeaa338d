import ClassLoading.Proofs.Machines
import ClassLoading.Proofs.Settling
import ClassLoading.Proofs.WaitGraph

/-! Who loads what, and who waits for whom, while threads take their steps. As long as no thread
gives up the ownership of a name that another has since begun to load, every name that is loading
is on record as owned by the thread that loads it, the waits on record are those of the threads
that wait, and no chain of waits comes back. -/
namespace ClassLoading

/-! ### The effects of steps -/

/-- Whether a thread is on record as waiting. -/
def Activity.isWaiting : Activity → Bool
  | .await _ _ | .stopWaiting _ => true
  | _ => false

namespace Thread

/-- What a step does to the registry, the slots, the table of loads in flight and the thread. -/
inductive Effect (s : Loader) (me : ThreadId) (thread : Thread) (t : Loader) (next : Thread) : Prop
  | quiet (registry : t.registry = s.registry) (slots : t.slots = s.slots)
      (inFlight : t.inFlight = s.inFlight) (held : next.held = thread.held)
      (same : next.activity.isWaiting = thread.activity.isWaiting)
      (awake : ∀ name slot, next.activity ≠ .await name slot)
  | begun {name : String} (free : s.registry.lookup name = none) (state : t = s.acquire me name)
      (held : next.held = (name, s.slots.size) :: thread.held)
      (busy : thread.activity.isWaiting = false) (busy' : next.activity.isWaiting = false)
  | waits {name : String} {slot : SlotId} {table : InFlight}
      (granted : s.inFlight.waitFor me name = .ok table) (state : t = { s with inFlight := table })
      (held : next.held = thread.held) (awaits : next.activity = .await name slot)
  | resumed (state : t = { s with inFlight := s.inFlight.stopWaiting me })
      (held : next.held = thread.held) (busy' : next.activity.isWaiting = false)
  | published {name : String} {slot : SlotId} {result : Except LoadError ClassId}
      (state : t = s.publish slot result) (held : thread.held = (name, slot) :: next.held)
      (busy : thread.activity.isWaiting = false) (busy' : next.activity.isWaiting = false)
  | forgotten {name : String} {slot : SlotId} (state : t = s.forget name slot)
      (held : next.held = thread.held) (busy : thread.activity.isWaiting = false)
      (busy' : next.activity.isWaiting = false)
  | released {name : String} {result : Except LoadError ClassId} (state : t = s.release name)
      (held : next.held = thread.held) (busy : thread.activity = .release name result)
      (busy' : next.activity.isWaiting = false)

theorem Step.effect {env : Environment} {s t : Loader} {me : ThreadId} {thread next : Thread}
    (h : Step env s me thread t next) : Effect s me thread t next := by
  cases h with
  | begun hl => exact .begun hl rfl rfl rfl rfl
  | waits hw => exact .waits hw rfl rfl rfl
  | resumed => exact .resumed rfl rfl rfl
  | @published name slot result callers =>
    cases result with
    | error e => exact .published rfl rfl rfl rfl
    | ok id => exact .published rfl rfl rfl rfl
  | forgotten => exact .forgotten rfl rfl rfl rfl
  | released => exact .released rfl rfl rfl rfl
  | planned hp =>
    refine .quiet ?_ ?_ ?_ rfl rfl nofun <;> unfold Loader.noteLookup <;> split <;> rfl
  | unknown hp =>
    refine .quiet ?_ ?_ ?_ rfl rfl nofun <;> unfold Loader.noteLookup <;> split <;> rfl
  | built hd hb =>
    exact .quiet (Loader.addClass_registry ..) (Loader.addClass_slots ..)
      (Loader.inFlight_addClass ..) rfl rfl nofun
  | _ => exact .quiet rfl rfl rfl rfl rfl nofun

end Thread

/-! ### Machines -/

namespace Machine

variable {config : LoaderConfig} {search : ClassSearch} {env : Environment} {m m' : Machine}
  {id other : ThreadId} {thread next : Thread} {s t : Loader} {name : String} {slot : SlotId}

theorem getElem?_setIfInBounds (h : m.threads[id]? = some thread) (other : ThreadId) :
    (m.threads.setIfInBounds id next)[other]? =
      if other = id then some next else m.threads[other]? := by
  have hlt : id < m.threads.size := (Array.getElem?_eq_some_iff.1 h).1
  rw [Array.getElem?_setIfInBounds]
  by_cases ho : other = id
  · rw [if_pos ho, if_pos ho.symm, if_pos hlt]
  · rw [if_neg ho, if_neg (Ne.symm ho)]

/-- The thread has taken the slot for the name and not yet filled it. -/
def Loads (m : Machine) (id : ThreadId) (name : String) (slot : SlotId) : Prop :=
  ∃ thread, m.threads[id]? = some thread ∧ (name, slot) ∈ thread.held

/-- Every name that is loading is on record as owned by the thread that loads it. -/
def Recorded (m : Machine) : Prop :=
  ∀ name slot, m.loader.LoadingAt name slot →
    ∃ id, m.Loads id name slot ∧ m.loader.inFlight.owner? name = some id

/-- The waits on record are those of the threads that wait. -/
structure Watches (m : Machine) : Prop where
  awaiting : ∀ id name slot callers, m.threads[id]? = some ⟨.await name slot, callers⟩ →
    m.loader.inFlight.waiting.lookup id = some name
  idle : ∀ id, (∀ thread, m.threads[id]? = some thread → thread.activity.isWaiting = false) →
    m.loader.inFlight.waiting.lookup id = none

/-- A thread gives up a name that is loading, so that another thread has begun to load it. -/
def Overtaken (m : Machine) (id : ThreadId) : Prop :=
  ∃ name result callers, m.threads[id]? = some ⟨.release name result, callers⟩ ∧
    m.loader.isLoading name

theorem Loads.step (h : m.Loads other name slot) (hid : m.threads[id]? = some thread)
    (hheld : (name, slot) ∈ thread.held → (name, slot) ∈ next.held) :
    (Machine.mk t (m.threads.setIfInBounds id next)).Loads other name slot := by
  obtain ⟨owner, howner, hmem⟩ := h
  by_cases ho : other = id
  · subst ho
    rw [hid] at howner
    cases howner
    exact ⟨next, by rw [getElem?_setIfInBounds hid, if_pos rfl], hheld hmem⟩
  · exact ⟨owner, by rw [getElem?_setIfInBounds hid, if_neg ho]; exact howner, hmem⟩

theorem Recorded.step (h : m.Recorded) (hs : m.loader.Tidy) (hid : m.threads[id]? = some thread)
    (heffect : Thread.Effect m.loader id thread t next) (hgentle : ¬m.Overtaken id) :
    (Machine.mk t (m.threads.setIfInBounds id next)).Recorded := by
  intro n i hl
  -- in most cases the name was loading before, by the same thread and with the same owner
  have hkeep : m.loader.LoadingAt n i → ((n, i) ∈ thread.held → (n, i) ∈ next.held) →
      t.inFlight.owner? n = m.loader.inFlight.owner? n →
      ∃ owner, (Machine.mk t (m.threads.setIfInBounds id next)).Loads owner n i ∧
        t.inFlight.owner? n = some owner := by
    intro hold hheld howner
    obtain ⟨owner, hloads, ho⟩ := h n i hold
    exact ⟨owner, hloads.step hid hheld, howner.trans ho⟩
  cases heffect with
  | quiet registry slots inFlight held same awake =>
    refine hkeep ⟨registry ▸ hl.1, slots ▸ hl.2⟩ (fun hmem => held ▸ hmem) (by rw [inFlight])
  | @begun name free state held busy busy' =>
    subst state
    have howner := InFlight.owner?_start m.loader.inFlight id name n
    by_cases hn : n = name
    · subst hn
      have hi : i = m.loader.slots.size := by
        have := hl.1
        simp only [Loader.acquire, List.lookup_cons, beq_self_eq_true] at this
        exact (Option.some.inj this).symm
      rw [if_pos rfl] at howner
      refine ⟨id, ⟨next, by rw [getElem?_setIfInBounds hid, if_pos rfl], ?_⟩, howner⟩
      rw [held, hi]
      exact List.mem_cons_self
    · rw [if_neg hn] at howner
      have hb : (n == name) = false := by simpa using hn
      have hlookup : m.loader.registry.lookup n = some i := by
        have := hl.1
        rwa [Loader.acquire, List.lookup_cons, hb] at this
      have hslot : m.loader.slots[i]? = some .loading := by
        have := hl.2
        have hlt := hs.slot_lt hlookup
        rwa [Loader.acquire, Array.getElem?_push, if_neg (Nat.ne_of_lt hlt)] at this
      exact hkeep ⟨hlookup, hslot⟩ (fun hmem => by rw [held]; exact List.mem_cons_of_mem _ hmem)
        howner
  | @waits name slot table granted state held awaits =>
    subst state
    obtain ⟨rfl, -⟩ := InFlight.waitFor_eq_ok granted
    exact hkeep hl (fun hmem => held ▸ hmem) rfl
  | resumed state held busy' =>
    subst state
    exact hkeep hl (fun hmem => held ▸ hmem) rfl
  | @published name slot result state held busy busy' =>
    subst state
    have hne : slot ≠ i := by
      rintro rfl
      have := hl.2
      simp only [Loader.publish, Array.getElem?_setIfInBounds, if_true] at this
      split at this <;> cases this
    have hslot : m.loader.slots[i]? = some .loading := by
      have := hl.2
      rwa [Loader.publish, Array.getElem?_setIfInBounds, if_neg hne] at this
    refine hkeep ⟨hl.1, hslot⟩ (fun hmem => ?_) rfl
    rw [held] at hmem
    rcases List.mem_cons.1 hmem with heq | hmem
    · cases heq
      exact absurd rfl hne
    · exact hmem
  | forgotten state held busy busy' =>
    subst state
    exact hkeep ⟨hs.lookup_of_forget hl.1, hl.2⟩ (fun hmem => held ▸ hmem) rfl
  | @released name result state held busy busy' =>
    subst state
    have howner := InFlight.owner?_finish m.loader.inFlight name n
    have hn : n ≠ name := by
      rintro rfl
      obtain ⟨activity, callers⟩ := thread
      cases busy
      exact hgentle ⟨n, result, callers, hid, Loader.isLoading_iff.2 ⟨i, hl⟩⟩
    rw [if_neg hn] at howner
    exact hkeep hl (fun hmem => held ▸ hmem) howner

/-- The threads other than the one that steps are on record as before, if their waits are. -/
theorem Watches.of_lookup (h : m.Watches) (hid : m.threads[id]? = some thread)
    (hothers : ∀ other, other ≠ id → t.inFlight.waiting.lookup other =
      m.loader.inFlight.waiting.lookup other)
    (hawaits : ∀ name slot, next.activity = .await name slot →
      t.inFlight.waiting.lookup id = some name)
    (hidle : next.activity.isWaiting = false → t.inFlight.waiting.lookup id = none) :
    (Machine.mk t (m.threads.setIfInBounds id next)).Watches := by
  constructor
  · intro other name slot callers hother
    rw [getElem?_setIfInBounds hid] at hother
    by_cases ho : other = id
    · subst ho
      rw [if_pos rfl] at hother
      cases hother
      exact hawaits name slot rfl
    · rw [if_neg ho] at hother
      exact (hothers other ho).trans (h.awaiting other name slot callers hother)
  · intro other hother
    simp only [getElem?_setIfInBounds hid] at hother
    by_cases ho : other = id
    · subst ho
      exact hidle (hother next (if_pos rfl))
    · simp only [if_neg ho] at hother
      exact (hothers other ho).trans (h.idle other hother)

theorem Watches.idle_of_busy (h : m.Watches) (hid : m.threads[id]? = some thread)
    (hbusy : thread.activity.isWaiting = false) :
    m.loader.inFlight.waiting.lookup id = none := by
  refine h.idle id fun other hother => ?_
  rw [hid] at hother
  cases hother
  exact hbusy

theorem Watches.step (h : m.Watches) (hacyclic : m.loader.inFlight.Acyclic)
    (hid : m.threads[id]? = some thread) (heffect : Thread.Effect m.loader id thread t next) :
    (Machine.mk t (m.threads.setIfInBounds id next)).Watches ∧ t.inFlight.Acyclic := by
  -- a thread that goes from one activity to the next without waiting keeps the waits as they are
  have hbusy : thread.activity.isWaiting = false → next.activity.isWaiting = false →
      t.inFlight.waiting = m.loader.inFlight.waiting →
      (Machine.mk t (m.threads.setIfInBounds id next)).Watches := by
    intro hthread hnext heq
    refine h.of_lookup hid (fun other _ => by rw [heq]) (fun name slot ha => ?_) fun _ => ?_
    · rw [ha] at hnext
      cases hnext
    · rw [heq]
      exact h.idle_of_busy hid hthread
  cases heffect with
  | quiet registry slots inFlight held same awake =>
    refine ⟨h.of_lookup hid (fun other _ => by rw [inFlight])
      (fun name slot ha => absurd ha (awake name slot)) fun hnext => ?_, inFlight ▸ hacyclic⟩
    rw [inFlight]
    exact h.idle_of_busy hid (same ▸ hnext)
  | @begun name free state held busy busy' =>
    subst state
    exact ⟨hbusy busy busy' rfl, hacyclic.start (h.idle_of_busy hid busy) name⟩
  | @waits name slot table granted state held awaits =>
    subst state
    refine ⟨?_, hacyclic.waitFor granted⟩
    obtain ⟨rfl, -⟩ := InFlight.waitFor_eq_ok granted
    refine h.of_lookup hid (fun other ho => ?_) (fun n i ha => ?_) fun hnext => ?_
    · exact (InFlight.lookup_waitFor other).trans (if_neg ho)
    · rw [awaits] at ha
      cases ha
      exact (InFlight.lookup_waitFor id).trans (if_pos rfl)
    · rw [awaits] at hnext
      cases hnext
  | resumed state held busy' =>
    subst state
    refine ⟨h.of_lookup hid (fun other ho => ?_) (fun n i ha => ?_) fun _ => ?_,
      hacyclic.stopWaiting id⟩
    · exact (InFlight.lookup_stopWaiting ..).trans (if_neg ho)
    · rw [ha] at busy'
      cases busy'
    · exact (InFlight.lookup_stopWaiting ..).trans (if_pos rfl)
  | published state held busy busy' =>
    subst state
    exact ⟨hbusy busy busy' rfl, hacyclic⟩
  | forgotten state held busy busy' =>
    subst state
    exact ⟨hbusy busy busy' rfl, hacyclic⟩
  | @released name result state held busy busy' =>
    subst state
    exact ⟨hbusy (by rw [busy]; rfl) busy' rfl, hacyclic.finish name⟩

/-! ### Moves -/

/-- All that a run without overtaking keeps. -/
structure Orderly (config : LoaderConfig) (search : ClassSearch) (m : Machine) : Prop where
  sound : m.Sound config search
  recorded : m.Recorded
  watches : m.Watches
  acyclic : m.loader.inFlight.Acyclic

/-- The move is a step of a thread that is overtaken. -/
def Disturbs (env : Environment) (m m' : Machine) : Prop :=
  ∃ id, m.Overtaken id ∧ m.step env id = some m'

/-- A loader at rest, before there are any threads. -/
theorem orderly_of_atRest (hs : s.Sound config search) (hr : s.AtRest) :
    (Machine.mk s #[]).Orderly config search := by
  have hidle : (Machine.mk s #[]).loader.inFlight = .empty := hr.idle
  refine ⟨⟨hs, nofun, nofun, List.nodup_nil⟩, fun name slot hl => ?_, ⟨nofun, fun id _ => ?_⟩, ?_⟩
  · exact absurd hl.slot?_eq (hr.not_loading name)
  · rw [hidle]
    rfl
  · rw [hidle]
    exact InFlight.acyclic_empty

namespace Orderly

theorem spawn (h : m.Orderly config search) (name : String) :
    (Machine.mk m.loader (m.threads.push (.start name))).Orderly config search := by
  have hpush : ∀ {id : ThreadId} {thread : Thread}, m.threads[id]? = some thread →
      (m.threads.push (.start name))[id]? = some thread := by
    intro id thread hid
    have hlt : id < m.threads.size := (Array.getElem?_eq_some_iff.1 hid).1
    rw [Array.getElem?_push, if_neg (Nat.ne_of_lt hlt)]
    exact hid
  refine ⟨h.sound.spawn name, fun n i hl => ?_, ⟨fun id n i callers hid => ?_, fun id hid => ?_⟩,
    h.acyclic⟩
  · obtain ⟨id, ⟨thread, hid, hmem⟩, howner⟩ := h.recorded n i hl
    exact ⟨id, ⟨thread, hpush hid, hmem⟩, howner⟩
  · simp only [Array.getElem?_push] at hid
    split at hid
    · cases hid
    · exact h.watches.awaiting id n i callers hid
  · exact h.watches.idle id fun thread hthread => hid thread (hpush hthread)

theorem call (h : m.Orderly config search) {result : Except LoadError ClassId} (name : String)
    (hid : m.threads[id]? = some ⟨.answer result, []⟩) :
    (Machine.mk m.loader (m.threads.setIfInBounds id (.start name))).Orderly config search := by
  have heffect : Thread.Effect m.loader id ⟨.answer result, []⟩ m.loader (.start name) :=
    .quiet rfl rfl rfl rfl rfl nofun
  have hgentle : ¬m.Overtaken id := by
    rintro ⟨n, r, callers, hrelease, -⟩
    rw [hid] at hrelease
    cases hrelease
  obtain ⟨hwatches, hacyclic⟩ := h.watches.step h.acyclic hid heffect
  exact ⟨h.sound.call name hid, h.recorded.step h.sound.loader.toTidy hid heffect hgentle, hwatches,
    hacyclic⟩

theorem move (h : m.Orderly env.config env.search) (hm : Move env m m')
    (hgentle : ¬Disturbs env m m') : m'.Orderly env.config env.search := by
  have hsound := h.sound.move env hm
  cases hm with
  | spawn name => exact h.spawn name
  | call name hid => exact h.call name hid
  | step id hstep =>
    have hnot : ¬m.Overtaken id := fun ho => hgentle ⟨id, ho, hstep⟩
    obtain ⟨thread, s, next, hid, hthread, rfl⟩ := step_cases hstep
    obtain ⟨hwatches, hacyclic⟩ := h.watches.step h.acyclic hid hthread.effect
    exact ⟨hsound, h.recorded.step h.sound.loader.toTidy hid hthread.effect hnot, hwatches,
      hacyclic⟩

end Orderly

end Machine

end ClassLoading
