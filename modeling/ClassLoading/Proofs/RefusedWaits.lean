import ClassLoading.Proofs.Blame
import ClassLoading.Proofs.Deadlock

/-! Why a load is answered that its class depends on itself. A wait is refused when the chain of
owners and waits that starts at the wanted class comes back to the thread. The chain is read at one
moment, while the other threads go on; but its links stand for what does not change: the owner on
record for a name has the name on its stack, and what a thread on record as waiting waits for is
needed by every name on its stack. So the chain is one of dependencies, whichever records are
missing, and a wait is only refused for a class that needs itself. All other answers of this kind
only pass a refusal on. -/
namespace ClassLoading

/-! ### Errors that are reported -/

/-- Whoever is told of a circle is told of one that exists. -/
def Reports {α : Type} (circle : String → Prop) (x : Except LoadError α) : Prop :=
  ∀ name, x = .error (.circular name) → circle name

theorem reports_ok {α : Type} {circle : String → Prop} (a : α) : Reports circle (.ok a) := nofun

/-- No circle is met where no class is loaded. -/
theorem Blames.reports {α : Type} {circle : String → Prop} {name : String} {x : Except LoadError α}
    (h : Blames name x) : Reports circle x := fun other heq =>
  absurd rfl ((h _ heq).notCircular other)

/-! ### What a thread has on its stack -/

theorem Loader.exists_noteLookup_eq (s : Loader) (name : String) :
    ∃ lookups, s.noteLookup name = { s with lookups } := by
  unfold noteLookup
  split
  · exact ⟨_, rfl⟩
  · exact ⟨s.lookups, rfl⟩

/-- The name that an activity is about. -/
def Activity.name? : Activity → Option String
  | .lookup name | .register name | .inspect name _ | .requestWait name _ | .await name _
  | .search name _ | .publish name _ _ | .forget name _ _ | .release name _ => some name
  | .define d => some d.name
  | .stopWaiting _ | .answer _ => none

/-- The name that an activity keeps its thread on record for as the owner. -/
def Activity.guard? : Activity → Option String
  | .search name _ | .publish name _ _ | .forget name _ _ | .release name _ => some name
  | .define d => some d.name
  | _ => none

namespace Thread

def names (thread : Thread) : List String :=
  thread.activity.name?.toList ++ thread.callers.map (·.name)

def guards (thread : Thread) : List String :=
  thread.activity.guard?.toList ++ thread.callers.map (·.name)

/-- What a step does to the record of the loads in flight and to the names on the stack that the
record knows. -/
inductive Recording (s : Loader) (me : ThreadId) (thread : Thread) (t : Loader) (next : Thread) :
    Prop
  | quiet (inFlight : t.inFlight = s.inFlight) (guards : next.guards = thread.guards)
      (same : next.activity.isWaiting = thread.activity.isWaiting)
  | begun {name : String} (inFlight : t.inFlight = s.inFlight.start me name)
      (guards : next.guards = name :: thread.guards) (busy : thread.activity.isWaiting = false)
  | waits {name : String} {slot : SlotId} {callers : List Definition}
      (before : thread = ⟨.requestWait name slot, callers⟩)
      (after : next = ⟨.await name slot, callers⟩)
      (inFlight : t.inFlight = { s.inFlight with
        waiting := (me, name) :: s.inFlight.waiting.filter (·.1 != me) })
  | resumed (inFlight : t.inFlight = s.inFlight.stopWaiting me)
      (guards : next.guards = thread.guards)
  | released {name : String} (inFlight : t.inFlight = s.inFlight.finish name)
      (guards : thread.guards = name :: next.guards) (busy : thread.activity.isWaiting = false)

variable {env : Environment} {config : LoaderConfig} {search : ClassSearch} {s t : Loader}
  {me : ThreadId} {thread next : Thread}

theorem Step.recording (h : Step env s me thread t next) : Recording s me thread t next := by
  cases h with
  | begun hl => exact .begun rfl rfl rfl
  | waits hw =>
    obtain ⟨rfl, -⟩ := InFlight.waitFor_eq_ok hw
    exact .waits rfl rfl rfl
  | resumed => exact .resumed rfl rfl
  | released => exact .released rfl rfl rfl
  | @planned name slot plan callers hp =>
    obtain ⟨lookups, heq⟩ := s.exists_noteLookup_eq name
    exact .quiet (by rw [heq]) rfl rfl
  | @unknown name slot e callers hp =>
    obtain ⟨lookups, heq⟩ := s.exists_noteLookup_eq name
    exact .quiet (by rw [heq]) rfl rfl
  | built hd hb => exact .quiet (Loader.inFlight_addClass ..) rfl rfl
  | @published name slot result callers => cases result <;> exact .quiet rfl rfl rfl
  | _ => exact .quiet rfl rfl rfl

end Thread

theorem Definition.Valid.needs {search : ClassSearch} {s : Loader} {d : Definition} {name : String}
    {rest : List String} (h : d.Valid search s (name :: rest)) : search.Needs d.name name := by
  obtain ⟨hplan, done, heq, -⟩ := h
  exact ⟨d.plan, hplan, by simp [heq]⟩

/-- Whatever is on a stack needs what stands above it. -/
theorem CallersValid.needs {search : ClassSearch} {s : Loader} {name : String}
    {callers : List Definition} (h : CallersValid search s name callers) :
    ∀ d ∈ callers, Relation.TransGen search.Needs d.name name := by
  induction callers generalizing name with
  | nil => nofun
  | cons d callers ih =>
    obtain ⟨hd, hrest⟩ := h
    refine List.forall_mem_cons.2 ⟨.single hd.needs, fun outer houter => ?_⟩
    exact (ih hrest outer houter).tail hd.needs

/-- A step comes only to names that were on the stack or that one of these needs. -/
theorem Thread.Step.names_cases {env : Environment} {config : LoaderConfig} {s t : Loader}
    {me : ThreadId} {thread next : Thread} (h : Step env s me thread t next)
    (hv : thread.Valid config env.search s) {n : String} (hn : n ∈ next.names) :
    n ∈ thread.names ∨ ∃ outer ∈ thread.names, env.search.Needs outer n := by
  cases h with
  | @descends d name todo callers hd =>
    obtain ⟨_, ⟨-, hdef⟩, -⟩ := hv
    rw [hd] at hdef
    simp only [names, Activity.name?, Option.toList_some, List.singleton_append, List.map_cons,
      List.mem_cons] at hn ⊢
    rcases hn with rfl | rfl | hn
    · exact .inr ⟨d.name, .inl rfl, hdef.needs⟩
    · exact .inl (.inl rfl)
    · exact .inl (.inr hn)
  | @published name slot result callers => cases result <;> exact .inl hn
  | hit hi => exact .inl (List.mem_cons_of_mem _ hn)
  | refused hw => exact .inl (List.mem_cons_of_mem _ hn)
  | woken hi => exact .inl (List.mem_cons_of_mem _ hn)
  | released => exact .inl (List.mem_cons_of_mem _ hn)
  | _ => exact .inl hn

/-! ### The record -/

namespace Machine

/-- The thread has the name on its stack, past the point where it became the owner. -/
def Guards (m : Machine) (id : ThreadId) (n : String) : Prop :=
  ∃ thread, m.threads[id]? = some thread ∧ n ∈ thread.guards

/-- The thread waits, and every name that it guards needs the other name. -/
def WaitsFor (search : ClassSearch) (m : Machine) (id : ThreadId) (n : String) : Prop :=
  ∃ thread, m.threads[id]? = some thread ∧ thread.activity.isWaiting ∧
    ∀ g ∈ thread.guards, Relation.TransGen search.Needs g n

/-- The record of the loads in flight tells the truth, though perhaps not all of it. -/
structure Truthful (search : ClassSearch) (m : Machine) : Prop where
  owners : ∀ n id, m.loader.inFlight.owner? n = some id → m.Guards id n
  waits : ∀ id n, m.loader.inFlight.waiting.lookup id = some n → m.WaitsFor search id n

variable {config : LoaderConfig} {search : ClassSearch} {env : Environment} {m m' : Machine}
  {id other : ThreadId} {thread next : Thread} {s t : Loader} {name n : String} {slot : SlotId}

/-- A chain of owners and waits that comes back to a thread is a chain of dependencies. -/
theorem Truthful.needs_of_leadsTo (h : m.Truthful search)
    (hid : m.threads[id]? = some thread)
    (hthread : ∀ g ∈ thread.guards, Relation.TransGen search.Needs g name) {links : Nat}
    (hchain : m.loader.inFlight.leadsTo id links (some other))
    (howner : m.loader.inFlight.owner? n = some other) :
    Relation.TransGen search.Needs n name := by
  induction links generalizing other n with
  | zero => cases hchain
  | succ links ih =>
    obtain ⟨owner, hother, hguard⟩ := h.owners n other howner
    simp only [InFlight.leadsTo, Bool.or_eq_true, beq_iff_eq] at hchain
    rcases hchain with rfl | hchain
    · rw [hid] at hother
      cases hother
      exact hthread n hguard
    · -- the owner waits for a class that is loaded by the next thread of the chain
      cases hnext : m.loader.inFlight.blocker? other with
      | none =>
        rw [hnext] at hchain
        cases links <;> cases hchain
      | some further =>
        rw [hnext] at hchain
        obtain ⟨wanted, hwanted, hfurther⟩ := Option.bind_eq_some_iff.1 hnext
        obtain ⟨waiter, hwaiter, -, hneeds⟩ := h.waits other wanted hwanted
        rw [hother] at hwaiter
        cases hwaiter
        exact (hneeds n hguard).trans (ih hchain hfurther)

/-- What a thread asks to wait for is needed by every name that it guards. -/
theorem Sound.needs_of_requestWait (hs : m.Sound config search) {callers : List Definition}
    (hid : m.threads[id]? = some ⟨.requestWait name slot, callers⟩) :
    ∀ g ∈ callers.map (·.name), Relation.TransGen search.Needs g name := by
  have hvalid := hs.valid _ (Array.mem_toList_iff.2 (Array.mem_of_getElem? hid))
  obtain ⟨_, ⟨rfl, -⟩, hcallers⟩ := hvalid
  exact List.forall_mem_map.2 hcallers.needs

/-- A wait is refused only for a class that needs itself. -/
theorem Truthful.refused (h : m.Truthful search) (hs : m.Sound config search)
    {callers : List Definition} (hid : m.threads[id]? = some ⟨.requestWait name slot, callers⟩)
    {e : LoadError} (hrefused : m.loader.inFlight.waitFor id name = .error e) :
    e = .circular name ∧ Relation.TransGen search.Needs name name := by
  unfold InFlight.waitFor at hrefused
  split at hrefused
  · next hchain =>
    cases hrefused
    refine ⟨rfl, ?_⟩
    cases howner : m.loader.inFlight.owner? name with
    | none =>
      rw [howner] at hchain
      cases hchain
    | some other =>
      rw [howner] at hchain
      exact h.needs_of_leadsTo hid (hs.needs_of_requestWait hid) hchain howner
  · cases hrefused

/-! ### What keeps the record truthful -/

theorem Guards.step (h : m.Guards other n) (hid : m.threads[id]? = some thread)
    (hkeep : n ∈ thread.guards → n ∈ next.guards) :
    (Machine.mk t (m.threads.setIfInBounds id next)).Guards other n := by
  obtain ⟨owner, hother, hguard⟩ := h
  unfold Guards
  rw [getElem?_setIfInBounds hid]
  split
  · next heq =>
    rw [heq, hid] at hother
    cases hother
    exact ⟨next, rfl, hkeep hguard⟩
  · exact ⟨owner, hother, hguard⟩

theorem WaitsFor.step (h : m.WaitsFor search other n) (hid : m.threads[id]? = some thread)
    (hne : other ≠ id) :
    (Machine.mk t (m.threads.setIfInBounds id next)).WaitsFor search other n := by
  unfold WaitsFor
  rw [getElem?_setIfInBounds hid, if_neg hne]
  exact h

theorem WaitsFor.ne_of_busy (h : m.WaitsFor search other n) (hid : m.threads[id]? = some thread)
    (hbusy : thread.activity.isWaiting = false) : other ≠ id := by
  rintro rfl
  obtain ⟨waiter, hwaiter, hwaiting, -⟩ := h
  rw [hid] at hwaiter
  cases hwaiter
  rw [hbusy] at hwaiting
  cases hwaiting

theorem Truthful.owners_step (h : m.Truthful search) (hid : m.threads[id]? = some thread)
    (hr : Thread.Recording m.loader id thread t next) (howner : t.inFlight.owner? n = some other) :
    (Machine.mk t (m.threads.setIfInBounds id next)).Guards other n := by
  cases hr with
  | quiet inFlight guards same =>
    rw [inFlight] at howner
    exact (h.owners n other howner).step hid fun hn => guards ▸ hn
  | @begun name inFlight guards busy =>
    rw [inFlight, InFlight.owner?_start] at howner
    split at howner
    · next heq =>
      cases howner
      refine ⟨next, by rw [getElem?_setIfInBounds hid, if_pos rfl], ?_⟩
      rw [guards, heq]
      exact List.mem_cons_self
    · refine (h.owners n other howner).step hid fun hn => ?_
      rw [guards]
      exact List.mem_cons_of_mem _ hn
  | waits before after inFlight =>
    subst before after
    rw [inFlight] at howner
    exact (h.owners n other howner).step hid fun hn => hn
  | resumed inFlight guards =>
    rw [inFlight] at howner
    exact (h.owners n other howner).step hid fun hn => guards ▸ hn
  | @released name inFlight guards busy =>
    rw [inFlight, InFlight.owner?_finish] at howner
    split at howner
    · cases howner
    · next hne =>
      refine (h.owners n other howner).step hid fun hn => ?_
      rw [guards] at hn
      exact (List.mem_cons.1 hn).resolve_left hne

theorem Truthful.waits_step (h : m.Truthful search) (hs : m.Sound config search)
    (hid : m.threads[id]? = some thread) (hr : Thread.Recording m.loader id thread t next)
    (hlookup : t.inFlight.waiting.lookup other = some n) :
    (Machine.mk t (m.threads.setIfInBounds id next)).WaitsFor search other n := by
  cases hr with
  | quiet inFlight guards same =>
    rw [inFlight] at hlookup
    have hold := h.waits other n hlookup
    by_cases heq : other = id
    · subst heq
      obtain ⟨waiter, hwaiter, hwaiting, hneeds⟩ := hold
      rw [hid] at hwaiter
      cases hwaiter
      refine ⟨next, by rw [getElem?_setIfInBounds hid, if_pos rfl], same ▸ hwaiting, ?_⟩
      rw [guards]
      exact hneeds
    · exact hold.step hid heq
  | begun inFlight guards busy =>
    rw [inFlight] at hlookup
    have hold := h.waits other n hlookup
    exact hold.step hid (hold.ne_of_busy hid busy)
  | @waits name slot callers before after inFlight =>
    subst before after
    rw [inFlight] at hlookup
    replace hlookup := (InFlight.lookup_waitFor other).symm.trans hlookup
    split at hlookup
    · next heq =>
      cases hlookup
      refine ⟨_, by rw [getElem?_setIfInBounds hid, if_pos heq], rfl, ?_⟩
      exact hs.needs_of_requestWait hid
    · next hne => exact (h.waits other n hlookup).step hid hne
  | resumed inFlight guards =>
    rw [inFlight, InFlight.lookup_stopWaiting] at hlookup
    split at hlookup
    · cases hlookup
    · next hne => exact (h.waits other n hlookup).step hid hne
  | released inFlight guards busy =>
    rw [inFlight] at hlookup
    have hold := h.waits other n hlookup
    exact hold.step hid (hold.ne_of_busy hid busy)

theorem Truthful.step (h : m.Truthful search) (hs : m.Sound config search)
    (hid : m.threads[id]? = some thread) (hr : Thread.Recording m.loader id thread t next) :
    (Machine.mk t (m.threads.setIfInBounds id next)).Truthful search :=
  ⟨fun _ _ => h.owners_step hid hr, fun _ _ => h.waits_step hs hid hr⟩

theorem Truthful.spawn (h : m.Truthful search) (name : String) :
    (Machine.mk m.loader (m.threads.push (.start name))).Truthful search := by
  have hpush : ∀ {id : ThreadId} {thread : Thread}, m.threads[id]? = some thread →
      (m.threads.push (.start name))[id]? = some thread := by
    intro id thread hid
    have hlt : id < m.threads.size := (Array.getElem?_eq_some_iff.1 hid).1
    rw [Array.getElem?_push, if_neg (Nat.ne_of_lt hlt)]
    exact hid
  refine ⟨fun n id ho => ?_, fun id n ho => ?_⟩
  · obtain ⟨thread, hid, hguard⟩ := h.owners n id ho
    exact ⟨thread, hpush hid, hguard⟩
  · obtain ⟨thread, hid, hneeds⟩ := h.waits id n ho
    exact ⟨thread, hpush hid, hneeds⟩

end Machine

/-! ### Answers -/

/-- A result in the slot, if there is one, reports no circle that does not exist. -/
def Loader.Fair (circle : String → Prop) (s : Loader) (slot : SlotId) : Prop :=
  ∀ result, s.slots[slot]? = some (.done result) → Reports circle result

/-- What an activity has to report, now or once a slot is filled. -/
def Activity.Honest (circle : String → Prop) (s : Loader) : Activity → Prop
  | .lookup _ | .register _ | .search _ _ | .define _ => True
  | .inspect _ slot | .requestWait _ slot | .await _ slot => s.Fair circle slot
  | .stopWaiting result | .publish _ _ result | .release _ result | .answer result =>
    Reports circle result
  | .forget _ _ e => ∀ name, e = .circular name → circle name

namespace Loader.Fair

variable {circle : String → Prop} {s t : Loader} {slot : SlotId}

theorem congr (h : s.Fair circle slot) (heq : t.slots = s.slots) : t.Fair circle slot := by
  intro result hresult
  rw [heq] at hresult
  exact h result hresult

theorem acquire (h : s.Fair circle slot) (thread : ThreadId) (name : String) :
    (s.acquire thread name).Fair circle slot := by
  intro result hresult
  simp only [Loader.acquire, Array.getElem?_push] at hresult
  split at hresult
  · cases hresult
  · exact h result hresult

theorem publish (h : s.Fair circle slot) {result : Except LoadError ClassId}
    (hr : Reports circle result) (i : SlotId) : (s.publish i result).Fair circle slot := by
  intro found hfound
  simp only [Loader.publish, Array.getElem?_setIfInBounds] at hfound
  split at hfound
  · split at hfound
    · cases hfound
      exact hr
    · cases hfound
  · exact h found hfound

end Loader.Fair

theorem Activity.Honest.mono {circle : String → Prop} {s t : Loader} {activity : Activity}
    (h : activity.Honest circle s) (hfair : ∀ slot, s.Fair circle slot → t.Fair circle slot) :
    activity.Honest circle t := by
  cases activity with
  | inspect name slot => exact hfair slot h
  | requestWait name slot => exact hfair slot h
  | await name slot => exact hfair slot h
  | _ => exact h

namespace Thread.Step

variable {env : Environment} {circle : String → Prop} {s t : Loader} {me : ThreadId}
  {thread next : Thread}

/-- A step fills slots only with what the thread has to report. -/
theorem fair (h : Step env s me thread t next) (hthread : thread.activity.Honest circle s)
    {slot : SlotId} (hslot : s.Fair circle slot) : t.Fair circle slot := by
  cases h with
  | begun hl => exact hslot.acquire _ _
  | published => exact hslot.publish hthread _
  | @planned name slot plan callers hp =>
    obtain ⟨lookups, heq⟩ := s.exists_noteLookup_eq name
    exact hslot.congr (by rw [heq])
  | @unknown name slot e callers hp =>
    obtain ⟨lookups, heq⟩ := s.exists_noteLookup_eq name
    exact hslot.congr (by rw [heq])
  | built hd hb => exact hslot.congr (Loader.addClass_slots ..)
  | _ => exact hslot.congr rfl

theorem fair_registry (h : Step env s me thread t next) (hs : s.Tidy)
    (hthread : thread.activity.Honest circle s)
    (hregistry : ∀ name slot, s.registry.lookup name = some slot → s.Fair circle slot) :
    ∀ name slot, t.registry.lookup name = some slot → t.Fair circle slot := by
  intro name slot hl
  have hold : s.registry.lookup name = some slot → t.Fair circle slot := fun hl =>
    h.fair hthread (hregistry name slot hl)
  cases h with
  | @begun n callers hn =>
    simp only [Loader.acquire, List.lookup_cons] at hl
    split at hl
    · cases hl
      intro result hresult
      simp [Loader.acquire] at hresult
    · exact hold hl
  | forgotten => exact hold (hs.lookup_of_forget hl)
  | @planned name slot plan callers hp =>
    obtain ⟨lookups, heq⟩ := s.exists_noteLookup_eq name
    exact hold (by rwa [heq] at hl)
  | @unknown name slot e callers hp =>
    obtain ⟨lookups, heq⟩ := s.exists_noteLookup_eq name
    exact hold (by rwa [heq] at hl)
  | built hd hb => exact hold (Loader.addClass_registry .. ▸ hl)
  | _ => exact hold hl

/-- What a thread has to report after a step is a refusal, or was reported to it. -/
theorem honest (h : Step env s me thread t next) (hthread : thread.activity.Honest circle s)
    (hregistry : ∀ name slot, s.registry.lookup name = some slot → s.Fair circle slot)
    (hrefused : ∀ name slot callers e, thread = ⟨.requestWait name slot, callers⟩ →
      s.inFlight.waitFor me name = .error e → ∀ n, e = .circular n → circle n) :
    next.activity.Honest circle t := by
  cases h with
  | found hl => exact hregistry _ _ hl
  | missed hl => trivial
  | beaten hl => exact hregistry _ _ hl
  | begun hl => trivial
  | hit hi => exact reports_ok _
  | unready hi => exact hthread
  | waits hw => exact hthread
  | refused hw => exact fun n heq => hrefused _ _ _ _ rfl hw n (Except.error.inj heq)
  | woken hi => exact hthread _ hi
  | resumed => exact hthread
  | planned hp => trivial
  | @unknown name slot e callers hp =>
    exact fun n heq =>
      Blueprint.blames_ofName.reports n (hp.trans (congrArg _ (Except.error.inj heq)))
  | descends hd => trivial
  | built hd hb => exact reports_ok _
  | @unbuilt d e callers hd hb =>
    exact fun n heq =>
      (d.plan.blames_build d.loaded).reports n (hb.trans (congrArg _ (Except.error.inj heq)))
  | @published name slot result callers =>
    cases result with
    | error e => exact fun n heq => hthread n (congrArg _ heq)
    | ok id => exact reports_ok _
  | forgotten => exact fun n heq => hthread n (Except.error.inj heq)
  | released => exact hthread
  | returned => trivial
  | failed => exact hthread

end Thread.Step

/-! ### Runs -/

/-- The name is asked for, or something that is asked for needs it. -/
def ClassSearch.Reached (search : ClassSearch) (asked : String → Prop) (name : String) : Prop :=
  ∃ root, asked root ∧ Relation.ReflTransGen search.Needs root name

/-- The name is on a circle of dependencies, and what is asked for leads there. -/
def ClassSearch.OnCircle (search : ClassSearch) (asked : String → Prop) (name : String) : Prop :=
  Relation.TransGen search.Needs name name ∧ search.Reached asked name

namespace Machine

/-- All that a run keeps in which only some names are asked for. -/
structure Honest (config : LoaderConfig) (search : ClassSearch) (asked : String → Prop)
    (m : Machine) : Prop where
  sound : m.Sound config search
  truthful : m.Truthful search
  reached : ∀ (id : ThreadId) (thread : Thread), m.threads[id]? = some thread →
    ∀ n ∈ thread.names, search.Reached asked n
  registry : ∀ name slot, m.loader.registry.lookup name = some slot →
    m.loader.Fair (search.OnCircle asked) slot
  answers : ∀ (id : ThreadId) (thread : Thread), m.threads[id]? = some thread →
    thread.activity.Honest (search.OnCircle asked) m.loader

variable {config : LoaderConfig} {search : ClassSearch} {asked : String → Prop}
  {env : Environment} {m m' : Machine} {id : ThreadId} {thread next : Thread} {s t : Loader}

theorem honest_of_atRest (hs : s.Sound config search) (hr : s.AtRest) :
    (Machine.mk s #[]).Honest config search asked := by
  have hidle : (Machine.mk s #[]).loader.inFlight = .empty := hr.idle
  refine ⟨⟨hs, nofun, nofun, List.nodup_nil⟩, ⟨fun n id ho => ?_, fun id n ho => ?_⟩, nofun,
    fun name slot hl result hresult => ?_, nofun⟩
  · rw [hidle] at ho
    cases ho
  · rw [hidle] at ho
    cases ho
  · obtain ⟨i, hi⟩ := hr.loaded name (.done result) (by simp [Loader.slot?, hl, hresult])
    cases hi
    exact reports_ok i

/-- A thread that asks for a name or takes a step, while the others stand still. -/
theorem Honest.replace (h : m.Honest config search asked)
    (hsound : (Machine.mk t (m.threads.setIfInBounds id next)).Sound config search)
    (hid : m.threads[id]? = some thread)
    (hrecord : Thread.Recording m.loader id thread t next)
    (hreached : ∀ n ∈ next.names, search.Reached asked n)
    (hfair : ∀ slot, m.loader.Fair (search.OnCircle asked) slot →
      t.Fair (search.OnCircle asked) slot)
    (hregistry : ∀ name slot, t.registry.lookup name = some slot →
      t.Fair (search.OnCircle asked) slot)
    (hanswers : next.activity.Honest (search.OnCircle asked) t) :
    (Machine.mk t (m.threads.setIfInBounds id next)).Honest config search asked := by
  refine ⟨hsound, h.truthful.step h.sound hid hrecord, fun other thread' hother => ?_, hregistry,
    fun other thread' hother => ?_⟩
  · rw [getElem?_setIfInBounds hid] at hother
    split at hother
    · cases hother
      exact hreached
    · exact h.reached other thread' hother
  · rw [getElem?_setIfInBounds hid] at hother
    split at hother
    · cases hother
      exact hanswers
    · exact (h.answers other thread' hother).mono hfair

theorem Honest.spawn (h : m.Honest config search asked) {name : String} (hasked : asked name) :
    (Machine.mk m.loader (m.threads.push (.start name))).Honest config search asked := by
  refine ⟨h.sound.spawn name, h.truthful.spawn name, fun id thread hid => ?_, h.registry,
    fun id thread hid => ?_⟩
  · simp only [Array.getElem?_push] at hid
    split at hid
    · cases hid
      exact List.forall_mem_singleton.2 ⟨name, hasked, .refl⟩
    · exact h.reached id thread hid
  · simp only [Array.getElem?_push] at hid
    split at hid
    · cases hid
      trivial
    · exact h.answers id thread hid

theorem Honest.step (h : m.Honest env.config env.search asked)
    (hsound : (Machine.mk t (m.threads.setIfInBounds id next)).Sound env.config env.search)
    (hid : m.threads[id]? = some thread) (hstep : Thread.Step env m.loader id thread t next) :
    (Machine.mk t (m.threads.setIfInBounds id next)).Honest env.config env.search asked := by
  have hvalid := h.sound.valid _ (Array.mem_toList_iff.2 (Array.mem_of_getElem? hid))
  have hthread := h.answers id thread hid
  refine h.replace hsound hid hstep.recording (fun n hn => ?_) (fun slot => hstep.fair hthread)
    (hstep.fair_registry h.sound.loader.toTidy hthread h.registry)
    (hstep.honest hthread h.registry ?_)
  · rcases hstep.names_cases hvalid hn with hold | ⟨outer, houter, hneeds⟩
    · exact h.reached id thread hid n hold
    · obtain ⟨root, hroot, hpath⟩ := h.reached id thread hid outer houter
      exact ⟨root, hroot, hpath.tail hneeds⟩
  · rintro name slot callers e rfl hrefused n rfl
    obtain ⟨heq, hcycle⟩ := h.truthful.refused h.sound hid hrefused
    cases heq
    exact ⟨hcycle, h.reached id _ hid name List.mem_cons_self⟩

theorem Honest.move (h : m.Honest env.config env.search asked) (hm : Move env m m')
    (hasked : ∀ (id : ThreadId) name, m'.threads[id]? = some (Thread.start name) → asked name) :
    m'.Honest env.config env.search asked := by
  have hsound := h.sound.move env hm
  cases hm with
  | spawn name => exact h.spawn (hasked m.threads.size name (by simp))
  | @call id result name hid =>
    have hname : asked name :=
      hasked id name (by rw [getElem?_setIfInBounds hid, if_pos rfl])
    have hreached : env.search.Reached asked name := ⟨name, hname, .refl⟩
    exact h.replace hsound hid (.quiet rfl rfl rfl) (List.forall_mem_singleton.2 hreached)
      (fun slot hslot => hslot) h.registry trivial
  | step id hstep =>
    obtain ⟨thread, s, next, hid, hthread, rfl⟩ := step_cases hstep
    exact h.step hsound hid hthread

theorem Honest.run (env : Environment) (h : m.Honest env.config env.search asked)
    {ms : List Machine} (hrun : List.IsChain (Move env) (m :: ms))
    (hasked : ∀ m' ∈ ms, ∀ (id : ThreadId) name, m'.threads[id]? = some (Thread.start name) →
      asked name) :
    ∀ m' ∈ ms, m'.Honest env.config env.search asked := by
  induction ms generalizing m with
  | nil => nofun
  | cons m' ms ih =>
    obtain ⟨hmove, hrest⟩ := List.isChain_cons_cons.1 hrun
    obtain ⟨hfirst, hlater⟩ := List.forall_mem_cons.1 hasked
    have hnext := h.move hmove hfirst
    exact List.forall_mem_cons.2 ⟨hnext, ih hnext hrest hlater⟩

/-- Some thread makes a call for the name, which no other load called for. -/
def Requested (ms : List Machine) (name : String) : Prop :=
  ∃ m ∈ ms, ∃ id : ThreadId, m.threads[id]? = some (Thread.start name)

/-- A call, at the bottom of a stack or further up, is answered that the class depends on itself. -/
def Complains (m : Machine) (name : String) : Prop :=
  ∃ (id : ThreadId) (callers : List Definition),
    m.threads[id]? = some ⟨.answer (.error (.circular name)), callers⟩

/-- From a loader that has answered requests, whatever the threads ask for and in whichever order
they take their steps: a name that a load is told to be circular needs itself, and something that
was asked for leads to it; so nobody is told so where no circle can be reached from what was asked
for. -/
theorem complains_only_of_circles {s : Loader} (hs : Loader.History config search s)
    (initializer : StaticInitializer) {ms : List Machine}
    (hrun : List.IsChain (Move ⟨config, search, initializer⟩) (⟨s, #[]⟩ :: ms)) :
    (∀ m ∈ ms, ∀ name, m.Complains name → search.OnCircle (Requested ms) name) ∧
      ((∀ name, search.Reached (Requested ms) name → ¬Relation.TransGen search.Needs name name) →
        ∀ m ∈ ms, ∀ name, ¬m.Complains name) := by
  have hstart : (Machine.mk s #[]).Honest config search (Requested ms) :=
    honest_of_atRest hs.sound hs.atRest
  have hhonest := Honest.run ⟨config, search, initializer⟩ hstart hrun
    fun m hm id name hid => ⟨m, hm, id, hid⟩
  have hcircle : ∀ m ∈ ms, ∀ name, m.Complains name → search.OnCircle (Requested ms) name := by
    rintro m hm name ⟨id, callers, hid⟩
    exact (hhonest m hm).answers id _ hid name rfl
  refine ⟨hcircle, fun hacyclic m hm name hname => ?_⟩
  obtain ⟨hcycle, hreached⟩ := hcircle m hm name hname
  exact hacyclic name hreached hcycle

/-- A thread that loads a class which extends itself is told so, and one that loads the root class
is not. -/
theorem loop_complains : ∃ (s : Loader) (ms : List Machine) (m : Machine),
    Loader.History .standard SmallPath.search s ∧
      List.IsChain (Move ⟨.standard, SmallPath.search, .skip⟩) (⟨s, #[]⟩ :: ms) ∧ m ∈ ms ∧
      m.Complains "Loop" ∧ SmallPath.search.OnCircle (Requested ms) "Loop" ∧
      Move ⟨.standard, SmallPath.search, .skip⟩ ⟨s, #[]⟩ ⟨s, #[.start objectName]⟩ ∧
      ∀ name, ¬(Machine.mk s #[.start objectName]).Complains name := by
  obtain ⟨s, hs⟩ := Loader.History.exists_of_loadable SmallPath.loadable_class
  let env : Environment := ⟨.standard, SmallPath.search, .skip⟩
  have hfree := hs.lookup_eq_none (SmallPath.not_loadable_loop _)
  obtain ⟨t, -, hsteps⟩ : ∃ t : Loader, t.registry.lookup "Loop" = none ∧
      Steps env 0 (s, .start "Loop") (t, ⟨.release "Loop" (.error (.circular "Loop")), []⟩) :=
    steps_to_release 0 hs.sound SmallPath.ofName_loop rfl hfree
  have hmoves : Moves env ⟨s, #[]⟩
      ⟨t.release "Loop", #[⟨.answer (.error (.circular "Loop")), []⟩]⟩ :=
    calc
      Moves env ⟨s, #[]⟩ ⟨s, #[.start "Loop"]⟩ := .single (.spawn _ "Loop")
      Moves env _ ⟨t, #[⟨.release "Loop" (.error (.circular "Loop")), []⟩]⟩ :=
        .of_steps hsteps rfl rfl
      Moves env _ ⟨t.release "Loop", #[⟨.answer (.error (.circular "Loop")), []⟩]⟩ :=
        .single (.step 0 rfl)
  obtain ⟨ms, hrun, hlast⟩ := List.exists_isChain_cons_of_relationReflTransGen hmoves
  have hmem : Machine.mk (t.release "Loop") #[⟨.answer (.error (.circular "Loop")), []⟩] ∈ ms := by
    have hany := List.getLast_mem (List.cons_ne_nil (Machine.mk s #[]) ms)
    rw [hlast] at hany
    exact (List.mem_cons.1 hany).resolve_left nofun
  have hspawn : Move env ⟨s, #[]⟩ ⟨s, #[.start objectName]⟩ := .spawn _ objectName
  have hno : ∀ name, ¬SmallPath.search.Needs objectName name := by
    rintro name ⟨plan, hplan, hname⟩
    rw [SmallPath.ofName_object] at hplan
    cases hplan
    cases hname
  refine ⟨s, ms, _, hs, hrun, hmem, ⟨0, [], rfl⟩,
    (complains_only_of_circles hs .skip hrun).1 _ hmem "Loop" ⟨0, [], rfl⟩, hspawn, fun name => ?_⟩
  have hsecond : List.IsChain (Move env) [⟨s, #[]⟩, ⟨s, #[.start objectName]⟩] :=
    List.isChain_cons_cons.2 ⟨hspawn, .singleton _⟩
  refine (complains_only_of_circles hs .skip hsecond).2 ?_ _ List.mem_cons_self name
  rintro n ⟨root, ⟨m, hm, id, hid⟩, hreached⟩ hcycle
  cases List.mem_singleton.1 hm
  have hroot : root = objectName := by
    match id, hid with
    | 0, hid => exact (Activity.lookup.inj (congrArg Thread.activity (Option.some.inj hid))).symm
  subst hroot
  rcases Relation.ReflTransGen.cases_head hreached with rfl | ⟨next, hnext, -⟩
  · obtain ⟨next, hnext, -⟩ := Relation.TransGen.head'_iff.1 hcycle
    exact hno next hnext
  · exact hno next hnext

end Machine

end ClassLoading
