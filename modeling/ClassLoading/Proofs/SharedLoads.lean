import ClassLoading.Proofs.FailedLoads
import ClassLoading.Proofs.SharedObjects

/-! Loads of the same names by several threads, in the order in which their steps can be observed. A
slot is begun by one thread, which is the only one to fill it; whoever waits for the slot comes away
with what that thread has put in. A name that has been published with a class is never begun again,
so all calls that are answered with a class for the name are answered with the same one. -/
namespace ClassLoading

/-- What can be observed of the loads of a machine. -/
inductive Event where
  /-- A thread takes a slot for a name and goes on to define the class. -/
  | begins (thread : ThreadId) (name : String) (slot : SlotId)
  | publishes (thread : ThreadId) (name : String) (slot : SlotId)
      (result : Except LoadError ClassId)
  /-- A call for a name has its result, and has waited for a slot to get it if there is one. -/
  | returns (thread : ThreadId) (name : String) (result : Except LoadError ClassId)
      (waited : Option SlotId)

/-- What can be observed when a thread goes over to the next one. -/
def Thread.event? (me : ThreadId) : Thread → Thread → Option Event
  | ⟨.register name, _⟩, ⟨.search _ slot, _⟩ => some (.begins me name slot)
  | ⟨.publish name slot result, _⟩, _ => some (.publishes me name slot result)
  | ⟨.await name slot, _⟩, ⟨.stopWaiting result, _⟩ => some (.returns me name result (some slot))
  | ⟨.inspect name _, _⟩, ⟨.answer result, _⟩ => some (.returns me name result none)
  | ⟨.requestWait name _, _⟩, ⟨.answer result, _⟩ => some (.returns me name result none)
  | ⟨.release name result, _⟩, _ => some (.returns me name result none)
  | _, _ => none

/-- The thread that an event is observed of. -/
def Event.thread : Event → ThreadId
  | .begins i _ _ | .publishes i _ _ _ | .returns i _ _ _ => i

/-- The result that the innermost call of a thread has come to. -/
def Activity.result? : Activity → Option (Except LoadError ClassId)
  | .stopWaiting result | .answer result => some result
  | _ => none

/-- A name that cannot be found is not in the registry between requests. -/
theorem Loader.Settled.lookup_eq_none {env : Environment} {s : Loader} {name : String}
    {e : LoadError} (hs : s.Settled env) (he : Blueprint.ofName env.search name = .error e) :
    s.registry.lookup name = none := by
  refine hs.sound.lookup_of_slot?_none ?_
  cases hslot : s.slot? name with
  | none => rfl
  | some x =>
    obtain ⟨id, rfl⟩ := hs.atRest.loaded name x hslot
    have hid : s.findLoaded? name = some id := by simp only [Loader.findLoaded?, hslot]
    obtain ⟨past, plan, ids, c, -, -, hplan, -⟩ := hs.sound.made name id hid
    rw [he] at hplan
    cases hplan

theorem Loader.noteLookup_registry (s : Loader) (name : String) :
    (s.noteLookup name).registry = s.registry ∧ (s.noteLookup name).slots = s.slots := by
  unfold Loader.noteLookup
  split <;> exact ⟨rfl, rfl⟩

namespace Thread

variable {env : Environment} {s t : Loader} {i : ThreadId} {thread next : Thread}

theorem thread_of_event? {e : Event} (h : thread.event? i next = some e) : e.thread = i := by
  unfold event? at h
  split at h <;> cases h <;> rfl

/-- A thread comes to a result with a return that is observed, or it has come to it before and has
just waited for it. -/
theorem Step.result_cases (h : Step env s i thread t next) {result : Except LoadError ClassId}
    (hr : next.activity.result? = some result) :
    (∃ name waited, thread.event? i next = some (.returns i name result waited) ∧
        (next.activity = .stopWaiting result → waited.isSome)) ∨
      thread.event? i next = none ∧ thread.activity = .stopWaiting result ∧
        next.activity = .answer result := by
  cases h with
  | hit _ | refused _ | released =>
    cases hr
    exact .inl ⟨_, none, rfl, nofun⟩
  | woken _ =>
    cases hr
    exact .inl ⟨_, some _, rfl, fun _ => rfl⟩
  | resumed =>
    cases hr
    exact .inr ⟨rfl, rfl, rfl⟩
  | @published name slot result' callers => cases result' <;> cases hr
  | _ => cases hr

end Thread

namespace Machine

/-- The machines that threads bring about on a loader, with all that was observed, newest first. -/
inductive Run (env : Environment) (s : Loader) : List Event → Machine → Prop
  | nil : Run env s [] ⟨s, #[]⟩
  | spawn {trace : List Event} {m : Machine} (h : Run env s trace m) (name : String) :
      Run env s trace ⟨m.loader, m.threads.push (.start name)⟩
  | call {trace : List Event} {m : Machine} {id : ThreadId} {result : Except LoadError ClassId}
      (h : Run env s trace m) (name : String) (hid : m.threads[id]? = some ⟨.answer result, []⟩) :
      Run env s trace ⟨m.loader, m.threads.setIfInBounds id (.start name)⟩
  | step {trace : List Event} {m : Machine} {thread next : Thread} {t : Loader}
      (h : Run env s trace m) (i : ThreadId) (hi : m.threads[i]? = some thread)
      (hstep : thread.step env m.loader i = some (t, next)) :
      Run env s ((thread.event? i next).toList ++ trace) ⟨t, m.threads.setIfInBounds i next⟩

variable {config : LoaderConfig} {search : ClassSearch} {env : Environment} {s t : Loader}
  {trace : List Event} {m m' : Machine} {i : ThreadId} {thread next : Thread} {name : String}
  {slot : SlotId}

/-! ### What is observed of a run -/

theorem Run.move_of_step (hi : m.threads[i]? = some thread)
    (hstep : thread.step env m.loader i = some (t, next)) :
    Move env m ⟨t, m.threads.setIfInBounds i next⟩ :=
  .step i (by simp only [Machine.step, hi, hstep])

theorem Run.exists_move (h : Run env s trace m) (hm : Move env m m') :
    ∃ trace, Run env s trace m' := by
  cases hm with
  | spawn name => exact ⟨trace, h.spawn name⟩
  | call name hid => exact ⟨trace, h.call name hid⟩
  | step i hstep =>
    unfold Machine.step at hstep
    split at hstep
    · cases hstep
    · next thread hi =>
      split at hstep
      · cases hstep
      · next t next hnext =>
        cases hstep
        exact ⟨_, h.step i hi hnext⟩

/-- Every way for a machine to move is observed in some run, and only these are. -/
theorem exists_run_iff : (∃ trace, Run env s trace m) ↔ Moves env ⟨s, #[]⟩ m := by
  constructor
  · rintro ⟨trace, h⟩
    induction h with
    | nil => exact .refl
    | spawn _ name ih => exact ih.tail (.spawn _ name)
    | call _ name hid ih => exact ih.tail (.call name hid)
    | step _ i hi hstep ih => exact ih.tail (Run.move_of_step hi hstep)
  · intro h
    induction h with
    | refl => exact ⟨[], .nil⟩
    | tail _ hmove ih =>
      obtain ⟨trace, htrace⟩ := ih
      exact htrace.exists_move hmove

/-- What one thread's activity knows of the slot that it looks at or waits for. -/
def Asks (s : Loader) (trace : List Event) : Activity → Prop
  | .inspect name slot =>
    (∃ id, s.slots[slot]? = some (.done (.ok id))) ∨ ∃ owner, .begins owner name slot ∈ trace
  | .requestWait name slot | .await name slot => ∃ owner, .begins owner name slot ∈ trace
  | _ => True

/-- What has been observed fits the state. -/
structure Traced (trace : List Event) (m : Machine) : Prop where
  owner : ∀ {i name slot}, m.Loads i name slot → .begins i name slot ∈ trace
  bounded : ∀ {i name slot}, .begins i name slot ∈ trace → slot < m.loader.slots.size
  once : ∀ {i j name other slot}, .begins i name slot ∈ trace → .begins j other slot ∈ trace →
    i = j ∧ name = other
  filled : ∀ {i name slot r}, .begins i name slot ∈ trace →
    m.loader.slots[slot]? = some (.done r) → .publishes i name slot r ∈ trace
  published : ∀ {i name slot r}, .publishes i name slot r ∈ trace →
    .begins i name slot ∈ trace ∧ m.loader.slots[slot]? = some (.done r)
  loaded : ∀ {i name slot id}, .publishes i name slot (.ok id) ∈ trace →
    m.loader.findLoaded? name = some id
  returned : ∀ {i name id waited}, .returns i name (.ok id) waited ∈ trace →
    m.loader.findLoaded? name = some id
  registered : ∀ {name slot}, m.loader.registry.lookup name = some slot →
    (∃ id, m.loader.slots[slot]? = some (.done (.ok id))) ∨
      ∃ owner, .begins owner name slot ∈ trace
  asks : ∀ {i : ThreadId} {thread : Thread}, m.threads[i]? = some thread →
    Asks m.loader trace thread.activity

/-! ### Moves -/

theorem Asks.mono {activity : Activity} {trace' : List Event} (h : Asks s trace activity)
    (hslots : ∀ (slot : SlotId) (id : ClassId), s.slots[slot]? = some (.done (.ok id)) →
      t.slots[slot]? = some (.done (.ok id))) (htrace : ∀ e ∈ trace, e ∈ trace') :
    Asks t trace' activity := by
  cases activity with
  | inspect name slot =>
    rcases h with ⟨id, hid⟩ | ⟨owner, howner⟩
    · exact .inl ⟨id, hslots slot id hid⟩
    · exact .inr ⟨owner, htrace _ howner⟩
  | requestWait name slot =>
    obtain ⟨owner, howner⟩ := h
    exact ⟨owner, htrace _ howner⟩
  | await name slot =>
    obtain ⟨owner, howner⟩ := h
    exact ⟨owner, htrace _ howner⟩
  | _ => trivial

theorem Loads.of_step {j : ThreadId} (hi : m.threads[i]? = some thread)
    (hheld : ∀ load ∈ next.held, load ∈ thread.held)
    (h : (Machine.mk t (m.threads.setIfInBounds i next)).Loads j name slot) :
    m.Loads j name slot := by
  obtain ⟨other, hj, hmem⟩ := h
  rw [getElem?_setIfInBounds hi] at hj
  split at hj
  · next heq =>
    cases hj
    exact ⟨thread, heq ▸ hi, hheld _ hmem⟩
  · exact ⟨other, hj, hmem⟩

namespace Traced

/-- The slots are as they were, and no thread holds or waits for what it did not before. -/
theorem transfer (h : Traced trace m) (hslots : m'.loader.slots = m.loader.slots)
    (hregistry : ∀ {name slot}, m'.loader.registry.lookup name = some slot →
      m.loader.registry.lookup name = some slot)
    (hloaded : ∀ {name id}, m.loader.findLoaded? name = some id →
      m'.loader.findLoaded? name = some id)
    (howner : ∀ {i name slot}, m'.Loads i name slot → m.Loads i name slot)
    (hasks : ∀ {i : ThreadId} {thread : Thread}, m'.threads[i]? = some thread →
      Asks m'.loader trace thread.activity) : Traced trace m' where
  owner hl := h.owner (howner hl)
  bounded hb := by rw [hslots]; exact h.bounded hb
  once := h.once
  filled hb hf := h.filled hb (by rwa [hslots] at hf)
  published hp := by rw [hslots]; exact h.published hp
  loaded hp := hloaded (h.loaded hp)
  returned hr := hloaded (h.returned hr)
  registered hl := by rw [hslots]; exact h.registered (hregistry hl)
  asks := hasks

theorem asks_step (h : Traced trace m) (hi : m.threads[i]? = some thread)
    {trace' : List Event} (hslots : ∀ (slot : SlotId) (id : ClassId),
      m.loader.slots[slot]? = some (.done (.ok id)) → t.slots[slot]? = some (.done (.ok id)))
    (htrace : ∀ e ∈ trace, e ∈ trace') (hnext : Asks t trace' next.activity) {j : ThreadId}
    {other : Thread} (hj : (m.threads.setIfInBounds i next)[j]? = some other) :
    Asks t trace' other.activity := by
  rw [getElem?_setIfInBounds hi] at hj
  split at hj
  · cases hj
    exact hnext
  · exact (h.asks hj).mono hslots htrace

theorem quiet (h : Traced trace m) (hi : m.threads[i]? = some thread)
    (hslots : t.slots = m.loader.slots)
    (hregistry : ∀ {name slot}, t.registry.lookup name = some slot →
      m.loader.registry.lookup name = some slot)
    (hloaded : ∀ {name id}, m.loader.findLoaded? name = some id → t.findLoaded? name = some id)
    (hheld : next.held = thread.held) (hnext : Asks t trace next.activity) :
    Traced trace ⟨t, m.threads.setIfInBounds i next⟩ :=
  h.transfer hslots hregistry hloaded (Loads.of_step hi fun _ hmem => hheld ▸ hmem)
    (h.asks_step hi (fun _ _ hid => hslots ▸ hid) (fun _ he => he) hnext)

theorem note {waited : Option SlotId} {result : Except LoadError ClassId} (h : Traced trace m)
    (i : ThreadId) (hr : m.loader.Answers name result) :
    Traced (.returns i name result waited :: trace) m where
  owner hl := List.mem_cons_of_mem _ (h.owner hl)
  bounded hb := h.bounded (by simpa using hb)
  once hb hb' := h.once (by simpa using hb) (by simpa using hb')
  filled hb hf := List.mem_cons_of_mem _ (h.filled (by simpa using hb) hf)
  published hp := by simpa using h.published (by simpa using hp)
  loaded hp := h.loaded (by simpa using hp)
  returned {j n id w} hret := by
    rcases List.mem_cons.1 hret with heq | hret
    · cases heq
      exact hr id rfl
    · exact h.returned hret
  registered hl := (h.registered hl).imp_right fun ⟨owner, ho⟩ => ⟨owner, List.mem_cons_of_mem _ ho⟩
  asks hj := (h.asks hj).mono (fun _ _ hid => hid) fun _ he => List.mem_cons_of_mem _ he

/-- A thread takes a slot that nothing has been observed of. -/
theorem acquire (h : Traced trace m) (hi : m.threads[i]? = some thread)
    (hloaded : ∀ {n id}, m.loader.findLoaded? n = some id →
      (m.loader.acquire i name).findLoaded? n = some id)
    (hheld : next.held = (name, m.loader.slots.size) :: thread.held)
    (hnext : ∀ s trace, Asks s trace next.activity) :
    Traced (.begins i name m.loader.slots.size :: trace)
      ⟨m.loader.acquire i name, m.threads.setIfInBounds i next⟩ := by
  have hold : ∀ {k : SlotId} {x : Slot}, m.loader.slots[k]? = some x →
      (m.loader.acquire i name).slots[k]? = some x := by
    intro k x hx
    have hlt := (Array.getElem?_eq_some_iff.1 hx).1
    simp only [Loader.acquire, Array.getElem?_push, Nat.ne_of_lt hlt, if_false, hx]
  have hdone : ∀ {k : SlotId} {r : Except LoadError ClassId},
      (m.loader.acquire i name).slots[k]? = some (.done r) →
        m.loader.slots[k]? = some (.done r) := by
    intro k r hr
    simp only [Loader.acquire, Array.getElem?_push] at hr
    split at hr
    · cases hr
    · exact hr
  refine ⟨fun {j n k} hl => ?_, fun {j n k} hb => ?_, fun {j j' n n' k} hb hb' => ?_,
    fun {j n k r} hb hr => ?_, fun {j n k r} hp => ?_, fun {j n k id} hp => ?_,
    fun {j n id w} hret => ?_, fun {n k} hl => ?_, fun {j other} hj => ?_⟩
  · obtain ⟨other, hj, hmem⟩ := hl
    rw [getElem?_setIfInBounds hi] at hj
    split at hj
    · next heq =>
      cases hj
      rw [hheld] at hmem
      rcases List.mem_cons.1 hmem with hpair | hmem
      · cases hpair
        exact heq ▸ List.mem_cons_self
      · exact List.mem_cons_of_mem _ (h.owner ⟨thread, heq ▸ hi, hmem⟩)
    · exact List.mem_cons_of_mem _ (h.owner ⟨other, hj, hmem⟩)
  · simp only [Loader.acquire, Array.size_push]
    rcases List.mem_cons.1 hb with heq | hb
    · cases heq
      exact Nat.lt_succ_self _
    · exact Nat.lt_succ_of_lt (h.bounded hb)
  · rcases List.mem_cons.1 hb with heq | hb <;> rcases List.mem_cons.1 hb' with heq' | hb'
    · cases heq
      cases heq'
      exact ⟨rfl, rfl⟩
    · cases heq
      exact absurd (h.bounded hb') (Nat.lt_irrefl _)
    · cases heq'
      exact absurd (h.bounded hb) (Nat.lt_irrefl _)
    · exact h.once hb hb'
  · rcases List.mem_cons.1 hb with heq | hb
    · cases heq
      have hlt := (Array.getElem?_eq_some_iff.1 (hdone hr)).1
      exact absurd hlt (Nat.lt_irrefl _)
    · exact List.mem_cons_of_mem _ (h.filled hb (hdone hr))
  · have hp : .publishes j n k r ∈ trace := by simpa using hp
    obtain ⟨hb, hr⟩ := h.published hp
    exact ⟨List.mem_cons_of_mem _ hb, hold hr⟩
  · have hp : .publishes j n k (.ok id) ∈ trace := by simpa using hp
    exact hloaded (h.loaded hp)
  · have hret : .returns j n (.ok id) w ∈ trace := by simpa using hret
    exact hloaded (h.returned hret)
  · simp only [Loader.acquire, List.lookup_cons] at hl
    split at hl
    · next heq =>
      cases hl
      rw [beq_iff_eq.1 heq]
      exact .inr ⟨i, List.mem_cons_self⟩
    · rcases h.registered hl with ⟨id, hid⟩ | ⟨owner, howner⟩
      · exact .inl ⟨id, hold hid⟩
      · exact .inr ⟨owner, List.mem_cons_of_mem _ howner⟩
  · exact h.asks_step hi (fun _ _ hid => hold hid) (fun _ he => List.mem_cons_of_mem _ he)
      (hnext _ _) hj

/-- The thread that has begun a slot fills it. -/
theorem publish {result : Except LoadError ClassId} (h : Traced trace m)
    (hi : m.threads[i]? = some thread) (own : m.loader.LoadingAt name slot) (hs : m.loader.Tidy)
    (hloaded : ∀ {n id}, m.loader.findLoaded? n = some id →
      (m.loader.publish slot result).findLoaded? n = some id)
    (hheld : thread.held = (name, slot) :: next.held)
    (hnext : ∀ s trace, Asks s trace next.activity) :
    Traced (.publishes i name slot result :: trace)
      ⟨m.loader.publish slot result, m.threads.setIfInBounds i next⟩ := by
  have hlt : slot < m.loader.slots.size := (Array.getElem?_eq_some_iff.1 own.2).1
  have hmine : .begins i name slot ∈ trace :=
    h.owner ⟨thread, hi, by rw [hheld]; exact List.mem_cons_self⟩
  have hslots : ∀ k : SlotId, (m.loader.publish slot result).slots[k]? =
      if slot = k then some (.done result) else m.loader.slots[k]? := by
    intro k
    simp only [Loader.publish, Array.getElem?_setIfInBounds]
    rw [if_pos hlt]
  have hold : ∀ {k : SlotId} {r : Except LoadError ClassId},
      m.loader.slots[k]? = some (.done r) →
        (m.loader.publish slot result).slots[k]? = some (.done r) := by
    intro k r hr
    rw [hslots, if_neg, hr]
    rintro rfl
    rw [own.2] at hr
    cases hr
  refine ⟨fun {j n k} hl => ?_, fun {j n k} hb => ?_, fun {j j' n n' k} hb hb' => ?_,
    fun {j n k r} hb hr => ?_, fun {j n k r} hp => ?_, fun {j n k id} hp => ?_,
    fun {j n id w} hret => ?_, fun {n k} hl => ?_, fun {j other} hj => ?_⟩
  · refine List.mem_cons_of_mem _ (h.owner (Loads.of_step hi (fun load hmem => ?_) hl))
    rw [hheld]
    exact List.mem_cons_of_mem _ hmem
  · simp only [Loader.publish, Array.size_setIfInBounds]
    have hb : .begins j n k ∈ trace := by simpa using hb
    exact h.bounded hb
  · have hb : .begins j n k ∈ trace := by simpa using hb
    have hb' : .begins j' n' k ∈ trace := by simpa using hb'
    exact h.once hb hb'
  · have hb : .begins j n k ∈ trace := by simpa using hb
    rw [hslots] at hr
    split at hr
    · next heq =>
      subst heq
      cases hr
      obtain ⟨rfl, rfl⟩ := h.once hmine hb
      exact List.mem_cons_self
    · exact List.mem_cons_of_mem _ (h.filled hb hr)
  · rcases List.mem_cons.1 hp with heq | hp
    · cases heq
      exact ⟨List.mem_cons_of_mem _ hmine, by rw [hslots, if_pos rfl]⟩
    · obtain ⟨hb, hr⟩ := h.published hp
      exact ⟨List.mem_cons_of_mem _ hb, hold hr⟩
  · rcases List.mem_cons.1 hp with heq | hp
    · cases heq
      rw [Loader.findLoaded?, Loader.slot?_publish hs own, if_pos rfl]
    · exact hloaded (h.loaded hp)
  · have hret : .returns j n (.ok id) w ∈ trace := by simpa using hret
    exact hloaded (h.returned hret)
  · rcases h.registered hl with ⟨id, hid⟩ | ⟨owner, howner⟩
    · exact .inl ⟨id, hold hid⟩
    · exact .inr ⟨owner, List.mem_cons_of_mem _ howner⟩
  · exact h.asks_step hi (fun _ _ hid => hold hid) (fun _ he => List.mem_cons_of_mem _ he)
      (hnext _ _) hj

theorem step (h : Traced trace m) (hs : m.Sound env.config env.search)
    (hi : m.threads[i]? = some thread) (hstep : Thread.Step env m.loader i thread t next) :
    Traced ((thread.event? i next).toList ++ trace) ⟨t, m.threads.setIfInBounds i next⟩ := by
  have hvalid := hs.valid thread (Array.mem_toList_iff.2 (Array.mem_of_getElem? hi))
  have hchanges := hstep.changes hvalid (hs.mem_loading hi)
  have hloaded : ∀ {n id}, m.loader.findLoaded? n = some id → t.findLoaded? n = some id :=
    fun hid => hchanges.findLoaded? hs.loader.toTidy hid
  have hasks := h.asks hi
  obtain ⟨_, ha, -⟩ := hvalid
  cases hstep with
  | found hl => exact h.quiet hi rfl id hloaded rfl (h.registered hl)
  | missed hl => exact h.quiet hi rfl id hloaded rfl trivial
  | beaten hl => exact h.quiet hi rfl id hloaded rfl (h.registered hl)
  | begun hl => exact h.acquire hi hloaded rfl fun _ _ => trivial
  | hit hid =>
    refine note ?_ i (ha.2.answers hid)
    exact h.quiet hi rfl (fun hl => hl) hloaded rfl trivial
  | unready hid =>
    refine h.quiet hi rfl (fun hl => hl) hloaded rfl (hasks.resolve_left ?_)
    rintro ⟨id, hid'⟩
    exact hid id hid'
  | waits hw => exact h.quiet hi rfl (fun hl => hl) hloaded rfl hasks
  | refused hw =>
    refine note ?_ i (fun _ => nofun)
    exact h.quiet hi rfl (fun hl => hl) hloaded rfl trivial
  | woken hr =>
    refine note ?_ i (ha.2.answers hr)
    exact h.quiet hi rfl (fun hl => hl) hloaded rfl trivial
  | resumed => exact h.quiet hi rfl (fun hl => hl) hloaded rfl trivial
  | @planned n k plan callers hp =>
    obtain ⟨hregistry, hslots⟩ := Loader.noteLookup_registry m.loader n
    exact h.quiet hi hslots (fun hl => by rwa [hregistry] at hl) hloaded rfl trivial
  | @unknown n k e callers hp =>
    obtain ⟨hregistry, hslots⟩ := Loader.noteLookup_registry m.loader n
    exact h.quiet hi hslots (fun hl => by rwa [hregistry] at hl) hloaded rfl trivial
  | descends hd => exact h.quiet hi rfl (fun hl => hl) hloaded rfl trivial
  | built hd hb =>
    exact h.quiet hi (Loader.addClass_slots ..)
      (fun hl => by rwa [Loader.addClass_registry] at hl) hloaded rfl trivial
  | unbuilt hd hb => exact h.quiet hi rfl (fun hl => hl) hloaded rfl trivial
  | @published n k result callers =>
    have own := hs.mem_loading hi (n, k) (by simp [Thread.held, Activity.held?])
    refine h.publish hi own hs.loader.toTidy hloaded ?_ fun _ _ => ?_
    · cases result <;> rfl
    · cases result <;> trivial
  | forgotten =>
    exact h.quiet hi rfl (fun hl => hs.loader.toTidy.lookup_of_forget hl) hloaded rfl trivial
  | released =>
    refine note ?_ i (hchanges.answers hs.loader.toTidy (ha.1 ▸ ha.2))
    exact h.quiet hi rfl (fun hl => hl) hloaded rfl trivial
  | returned => exact h.quiet hi rfl (fun hl => hl) hloaded rfl trivial
  | failed => exact h.quiet hi rfl (fun hl => hl) hloaded rfl trivial

end Traced

/-! ### Runs -/

/-- What must have been observed before. -/
def Follows (earlier : List Event) : Event → Prop
  | .begins _ name _ => ∀ owner slot id, .publishes owner name slot (.ok id) ∉ earlier
  | .returns _ name result (some slot) =>
    ∃ owner, .begins owner name slot ∈ earlier ∧ .publishes owner name slot result ∈ earlier
  | _ => True

theorem Traced.follows (h : Traced trace m) (hi : m.threads[i]? = some thread)
    (hstep : Thread.Step env m.loader i thread t next) {e : Event}
    (he : thread.event? i next = some e) : Follows trace e := by
  have hasks := h.asks hi
  cases hstep with
  | begun hl =>
    cases he
    intro owner slot id hp
    have hid := h.loaded hp
    rw [Loader.findLoaded?, Loader.slot?, hl] at hid
    cases hid
  | woken hr =>
    cases he
    obtain ⟨owner, howner⟩ := hasks
    exact ⟨owner, howner, h.filled howner hr⟩
  | published =>
    cases he
    trivial
  | hit hid =>
    cases he
    trivial
  | refused hw =>
    cases he
    trivial
  | released =>
    cases he
    trivial
  | _ => cases he

namespace Run

theorem sound (h : Run env s trace m) (hs : s.Sound env.config env.search) :
    m.Sound env.config env.search := by
  induction h with
  | nil => exact ⟨hs, nofun, nofun, List.nodup_nil⟩
  | spawn _ name ih => exact ih.spawn name
  | call _ name hid ih => exact ih.call name hid
  | step _ i hi hstep ih => exact ih.move env (move_of_step hi hstep)

theorem stocked (h : Run env s trace m) (hs : s.Settled env) : m.Stocked := by
  induction h with
  | nil => exact stocked_of_mirrored hs.mirrored
  | spawn hm name ih => exact ih.move env (hm.sound hs.sound) (.spawn _ name)
  | call hm name hid ih => exact ih.move env (hm.sound hs.sound) (.call name hid)
  | step hm i hi hstep ih => exact ih.move env (hm.sound hs.sound) (move_of_step hi hstep)

theorem traced (h : Run env s trace m) (hs : s.Settled env) : Traced trace m := by
  induction h with
  | nil =>
    refine ⟨?_, nofun, nofun, nofun, nofun, nofun, nofun, fun hl => ?_, nofun⟩
    · rintro i name slot ⟨thread, hi, -⟩
      cases hi
    · exact .inl (hs.atRest.registered_done hs.sound.toTidy (hs.sound.lookup_eq_some_iff.1 hl))
  | @spawn trace m hm name ih =>
    have hthreads : ∀ {j : ThreadId} {thread : Thread},
        (m.threads.push (.start name))[j]? = some thread →
          m.threads[j]? = some thread ∨ thread = .start name := by
      intro j thread hj
      rw [Array.getElem?_push] at hj
      split at hj
      · cases hj
        exact .inr rfl
      · exact .inl hj
    refine ih.transfer rfl (fun hl => hl) (fun hid => hid) ?_ fun hj => ?_
    · rintro j n k ⟨thread, hj, hmem⟩
      rcases hthreads hj with hj | rfl
      · exact ⟨thread, hj, hmem⟩
      · cases hmem
    · rcases hthreads hj with hj | rfl
      · exact ih.asks hj
      · trivial
  | call hm name hid ih => exact ih.quiet hid rfl (fun hl => hl) (fun hid => hid) rfl trivial
  | step hm i hi hstep ih => exact ih.step (hm.sound hs.sound) hi (Thread.step_cases hstep)

theorem follows (h : Run env s trace m) (hs : s.Settled env) :
    ∀ later e earlier, trace = later ++ e :: earlier → Follows earlier e := by
  induction h with
  | nil => simp
  | spawn hm name ih => exact ih
  | call hm name hid ih => exact ih
  | @step trace m thread next t hm i hi hstep ih =>
    intro later e earlier heq
    cases hevent : thread.event? i next with
    | none => exact ih later e earlier (by simpa [hevent] using heq)
    | some new =>
      rw [hevent] at heq
      cases later with
      | nil =>
        cases heq
        exact (hm.traced hs).follows hi (Thread.step_cases hstep) hevent
      | cons latest later =>
        cases heq
        exact ih later e earlier rfl

/-- The result that a thread has come to is that of the return that was last observed of it. -/
theorem latest (h : Run env s trace m) (hi : m.threads[i]? = some thread)
    {result : Except LoadError ClassId} (hr : thread.activity.result? = some result) :
    ∃ name waited, trace.find? (·.thread == i) = some (.returns i name result waited) ∧
      (thread.activity = .stopWaiting result → waited.isSome) := by
  induction h generalizing thread with
  | nil => cases hi
  | @spawn trace m _ name ih =>
    rw [Array.getElem?_push] at hi
    split at hi
    · cases hi
      cases hr
    · exact ih hi hr
  | call _ name hid ih =>
    rw [getElem?_setIfInBounds hid] at hi
    split at hi
    · cases hi
      cases hr
    · exact ih hi hr
  | @step trace m moved next t _ j hj hstep ih =>
    rw [getElem?_setIfInBounds hj] at hi
    split at hi
    · next heq =>
      subst heq
      cases hi
      obtain ⟨name, waited, hevent, hwaited⟩ | ⟨hevent, hbefore, hafter⟩ :=
        (Thread.step_cases hstep).result_cases hr
      · exact ⟨name, waited, by simp [hevent, Event.thread], hwaited⟩
      · obtain ⟨name, waited, hfind, -⟩ := ih hj (by rw [hbefore]; rfl)
        exact ⟨name, waited, by simpa [hevent] using hfind, fun hstop => by simp [hafter] at hstop⟩
    · next hne =>
      obtain ⟨name, waited, hfind, hwaited⟩ := ih hi hr
      refine ⟨name, waited, ?_, hwaited⟩
      cases hevent : moved.event? j next with
      | none => exact hfind
      | some e =>
        have hother : e.thread ≠ i := fun heq => hne (heq.symm.trans (Thread.thread_of_event? hevent))
        simpa [hother] using hfind

theorem first {u : Loader} {a b : Thread} (h : Run env s trace ⟨u, #[a, b]⟩)
    (hstep : a.step env u 0 = some (t, next)) :
    Run env s ((a.event? 0 next).toList ++ trace) ⟨t, #[next, b]⟩ := h.step 0 rfl hstep

theorem second {u : Loader} {a b : Thread} (h : Run env s trace ⟨u, #[a, b]⟩)
    (hstep : b.step env u 1 = some (t, next)) :
    Run env s ((b.event? 1 next).toList ++ trace) ⟨t, #[a, next]⟩ := h.step 1 rfl hstep

/-- Two threads ask for a name that cannot be found, and the second waits for the first, until it
has its answer. -/
theorem exists_shared_failure (hs : s.Settled env) {e : LoadError}
    (he : Blueprint.ofName env.search name = .error e) :
    ∃ m, Run env s [.returns 1 name (.error e) (some s.slots.size),
      .publishes 0 name s.slots.size (.error e), .begins 0 name s.slots.size] m ∧
        m.threads[1]? = some ⟨.answer (.error e), []⟩ := by
  have free := hs.lookup_eq_none he
  let slot := s.slots.size
  let u := s.acquire 0 name
  have own : u.LoadingAt name slot := Loader.acquire_loadingAt ..
  obtain ⟨table, hgranted⟩ : ∃ table, u.inFlight.waitFor 1 name = .ok table := by
    simp [u, Loader.acquire, hs.atRest.idle, InFlight.waitFor, InFlight.leadsTo, InFlight.owner?,
      InFlight.start, InFlight.empty]
  let v := { u with inFlight := table }.noteLookup name
  have hpublished : (v.publish slot (.error e)).slots[slot]? = some (.done (.error e)) := by
    have hlt : slot < v.slots.size := by
      rw [(Loader.noteLookup_registry _ name).2]
      exact (Array.getElem?_eq_some_iff.1 own.2).1
    simp [Loader.publish, hlt]
  have hmissed : (Thread.start name).step env s 0 = some (s, ⟨.register name, []⟩) := by
    simp only [Thread.start, Thread.step, free]
  have hbegun : Thread.step env s 0 ⟨.register name, []⟩ = some (u, ⟨.search name slot, []⟩) := by
    simp only [Thread.step, free]
    rfl
  have hfound : (Thread.start name).step env u 1 = some (u, ⟨.inspect name slot, []⟩) := by
    simp only [Thread.start, Thread.step, own.1]
  have hunready : Thread.step env u 1 ⟨.inspect name slot, []⟩ =
      some (u, ⟨.requestWait name slot, []⟩) := by
    simp only [Thread.step, own.2]
  have hwaits : Thread.step env u 1 ⟨.requestWait name slot, []⟩ =
      some ({ u with inFlight := table }, ⟨.await name slot, []⟩) := by
    simp only [Thread.step, hgranted]
  have hunknown : Thread.step env { u with inFlight := table } 0 ⟨.search name slot, []⟩ =
      some (v, ⟨.publish name slot (.error e), []⟩) := by
    simp only [Thread.step, he]
    rfl
  have hwoken : Thread.step env (v.publish slot (.error e)) 1 ⟨.await name slot, []⟩ =
      some (v.publish slot (.error e), ⟨.stopWaiting (.error e), []⟩) := by
    simp only [Thread.step, hpublished]
  have hstart : Run env s [] ⟨s, #[.start name, .start name]⟩ := (Run.nil.spawn name).spawn name
  have hfirst : Run env s [.begins 0 name slot] ⟨u, #[⟨.search name slot, []⟩, .start name]⟩ :=
    (hstart.first hmissed).first hbegun
  have hsecond : Run env s [.begins 0 name slot]
      ⟨{ u with inFlight := table }, #[⟨.search name slot, []⟩, ⟨.await name slot, []⟩]⟩ :=
    ((hfirst.second hfound).second hunready).second hwaits
  have hends : Run env s [.publishes 0 name slot (.error e), .begins 0 name slot]
      ⟨v.publish slot (.error e), #[⟨.forget name slot e, []⟩, ⟨.await name slot, []⟩]⟩ :=
    (hsecond.first hunknown).first rfl
  exact ⟨_, (hends.second hwoken).second rfl, rfl⟩

/-- However the steps of threads that load classes follow upon one another: one thread at a time
defines a name; whoever waits for a slot comes away with what the thread that has begun the slot has
published; all calls that are answered with a class for a name are answered with the same class; a
name that was published with a class is never begun again; every class that a call is answered
with has its object; a thread that has waited goes on to answer with the result that it has come
away with; and what a thread answers is always the result that was last observed of it. -/
theorem loads_agree (hs : Session env ⟨s, .free, []⟩) (h : Run env s trace m) :
    (∀ i j name slot slot', m.Loads i name slot → m.Loads j name slot' → i = j ∧ slot = slot') ∧
    (∀ later earlier i name result slot,
      trace = later ++ .returns i name result (some slot) :: earlier →
        ∃ owner, .begins owner name slot ∈ earlier ∧
          .publishes owner name slot result ∈ earlier ∧
          ∀ other n r, .publishes other n slot r ∈ trace →
            other = owner ∧ n = name ∧ r = result) ∧
    (∀ i j name a b waited waited', .returns i name (.ok a) waited ∈ trace →
      .returns j name (.ok b) waited' ∈ trace → a = b) ∧
    (∀ later earlier i name slot id, trace = later ++ .publishes i name slot (.ok id) :: earlier →
      ∀ j slot', .begins j name slot' ∉ later) ∧
    (∀ i name a waited, .returns i name (.ok a) waited ∈ trace →
      ∃ c k classClass, m.loader.classes[a]? = some c ∧ c.name = name ∧ c.classObject = some k ∧
        m.loader.classClass = some classClass ∧
        m.loader.objects[k]? = some ⟨name, a, classClass⟩) ∧
    (∀ i callers result, m.threads[i]? = some ⟨.stopWaiting result, callers⟩ →
      (∃ name slot, trace.find? (·.thread == i) = some (.returns i name result (some slot))) ∧
        ∃ t, Run env s trace ⟨t, m.threads.setIfInBounds i ⟨.answer result, callers⟩⟩) ∧
    (∀ i callers result, m.threads[i]? = some ⟨.answer result, callers⟩ →
      ∃ name waited, trace.find? (·.thread == i) = some (.returns i name result waited)) := by
  have hsettled : s.Settled env := hs.settled
  have hsound := h.sound hsettled.sound
  have htraced := h.traced hsettled
  refine ⟨fun i j name slot slot' hi hj => hsound.loads_name_unique hi hj,
    fun later earlier i name result slot heq => ?_,
    fun i j name a b waited waited' ha hb => ?_,
    fun later earlier i name slot id heq j slot' hmem => ?_, fun i name a waited ha => ?_,
    fun i callers result hi => ?_, fun i callers result hi => ?_⟩
  · obtain ⟨owner, hbegun, hpublished⟩ := h.follows hsettled later _ earlier heq
    refine ⟨owner, hbegun, hpublished, fun other n r hp => ?_⟩
    have hmem : ∀ e ∈ earlier, e ∈ trace := by
      intro e he
      rw [heq]
      exact List.mem_append_right _ (List.mem_cons_of_mem _ he)
    obtain ⟨hbegun', hfilled'⟩ := htraced.published hp
    obtain ⟨-, hfilled⟩ := htraced.published (hmem _ hpublished)
    obtain ⟨rfl, rfl⟩ := htraced.once hbegun' (hmem _ hbegun)
    rw [hfilled] at hfilled'
    cases hfilled'
    exact ⟨rfl, rfl, rfl⟩
  · exact Option.some.inj ((htraced.returned ha).symm.trans (htraced.returned hb))
  · obtain ⟨latest, middle, rfl⟩ := List.append_of_mem hmem
    have hfollows := h.follows hsettled latest _
      (middle ++ .publishes i name slot (.ok id) :: earlier) (by rw [heq, List.append_assoc]; rfl)
    exact hfollows i slot id (List.mem_append_right _ List.mem_cons_self)
  · have hstocked := h.stocked hsettled
    exact hstocked.pooled.exists_object hstocked.attached hsound.loader (htraced.returned ha)
  · obtain ⟨name, waited, hfind, hwaited⟩ := h.latest hi rfl
    obtain ⟨slot, rfl⟩ := Option.isSome_iff_exists.1 (hwaited rfl)
    exact ⟨⟨name, slot, hfind⟩, _, h.step i hi rfl⟩
  · obtain ⟨name, waited, hfind, -⟩ := h.latest hi rfl
    exact ⟨name, waited, hfind⟩

/-- Two threads share the failure to find a class: the second, which has waited, answers with what
the first has published, and nothing else was ever published in the slot. -/
theorem missing_class_agreed : ∃ (env : Environment) (s : Loader) (m : Machine)
    (trace : List Event) (slot : SlotId) (e : LoadError), Session env ⟨s, .free, []⟩ ∧
      Run env s trace m ∧ .returns 1 "Gone" (.error e) (some slot) ∈ trace ∧
      .publishes 0 "Gone" slot (.error e) ∈ trace ∧
      (∀ other n r, .publishes other n slot r ∈ trace → other = 0 ∧ n = "Gone" ∧ r = .error e) ∧
      m.threads[1]? = some ⟨.answer (.error e), []⟩ ∧
      ∃ name waited, trace.find? (·.thread == 1) = some (.returns 1 name (.error e) waited) := by
  let env : Environment := ⟨.standard, SmallPath.search, .skip⟩
  obtain ⟨s, hs⟩ := (Loader.bootstrap_isOk_iff env).2 SmallPath.loadable_class
  have hp : Session env ⟨s, .free, []⟩ := ⟨s, hs, .refl _⟩
  have hnone : Blueprint.ofName env.search "Gone" =
      .error (.ofSearch "Gone" (.notFound "Gone")) := rfl
  have hsettled : s.Settled env := hp.settled
  obtain ⟨m, hrun, hanswer⟩ := exists_shared_failure hsettled hnone
  obtain ⟨-, hwaits, -, -, -, -, hlast⟩ := loads_agree hp hrun
  obtain ⟨owner, -, hpublished, honly⟩ := hwaits [] _ _ _ _ _ rfl
  obtain ⟨rfl, -⟩ := honly 0 _ _ (List.mem_cons_of_mem _ List.mem_cons_self)
  exact ⟨env, s, m, _, _, _, hp, hrun, List.mem_cons_self, List.mem_cons_of_mem _ hpublished,
    honly, hanswer, hlast 1 _ _ hanswer⟩

end Run

end Machine

end ClassLoading
