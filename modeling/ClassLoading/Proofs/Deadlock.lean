import ClassLoading.Proofs.Loadable
import ClassLoading.Proofs.Ownership

/-! When threads that load classes can come to wait for one another for good. They never do in a
run in which no thread gives up a name that another has begun to load: then every name in progress
is on record, and whoever asks for a name that it is loading itself is told of the circle. A load
that fails gives up its name only after the registry has forgotten it, though, and a thread that
takes the name in between loses its record: when it comes back to the name it waits for itself. -/
namespace ClassLoading

/-- Between requests, a name that cannot be loaded is not in the registry. -/
theorem Loader.History.lookup_eq_none {config : LoaderConfig} {search : ClassSearch} {s : Loader}
    {name : String} (hs : History config search s) (hn : ¬Loadable config search name) :
    s.registry.lookup name = none := by
  refine hs.sound.toTidy.lookup_of_slot?_none ?_
  cases hslot : s.slot? name with
  | none => rfl
  | some x =>
    obtain ⟨id, rfl⟩ := hs.atRest.loaded name x hslot
    have hloaded : s.findLoaded? name = some id := by simp [findLoaded?, hslot]
    exact absurd (hs.sound.loadable hloaded) hn

namespace Machine

/-- Some threads all wait for slots that are still loading and that threads among them load. -/
def Deadlocked (m : Machine) : Prop :=
  ∃ blocked : Set ThreadId, blocked.Nonempty ∧ ∀ id ∈ blocked, ∃ name slot callers,
    m.threads[id]? = some ⟨.await name slot, callers⟩ ∧ m.loader.slots[slot]? = some .loading ∧
      ∃ other ∈ blocked, ∃ n, m.Loads other n slot

/-- The machine with one thread at another activity. -/
def become (m : Machine) (id : ThreadId) (activity : Activity) (callers : List Definition) :
    Machine := ⟨m.loader, m.threads.setIfInBounds id ⟨activity, callers⟩⟩

/-- A thread that asks for a name it is loading finds its own slot and is told of the circle. -/
structure Reenters (env : Environment) (m : Machine) (id : ThreadId) (name : String)
    (slot : SlotId) : Prop where
  lookup : ∀ callers, m.threads[id]? = some ⟨.lookup name, callers⟩ →
    m.step env id = some (m.become id (.inspect name slot) callers)
  register : ∀ callers, m.threads[id]? = some ⟨.register name, callers⟩ →
    m.step env id = some (m.become id (.inspect name slot) callers)
  inspect : ∀ callers, m.threads[id]? = some ⟨.inspect name slot, callers⟩ →
    m.step env id = some (m.become id (.requestWait name slot) callers)
  refused : ∀ callers, m.threads[id]? = some ⟨.requestWait name slot, callers⟩ →
    m.step env id = some (m.become id (.answer (.error (.circular name))) callers)

structure Safe (env : Environment) (m : Machine) : Prop where
  live : ¬m.Deadlocked
  recorded : m.Recorded
  reentry : ∀ id name slot, m.Loads id name slot → m.Reenters env id name slot

variable {config : LoaderConfig} {search : ClassSearch} {env : Environment} {m m' : Machine}
  {id other : ThreadId} {name : String} {slot : SlotId}

/-! ### Runs without overtaking -/

theorem Sound.loadingAt_of_loads (h : m.Sound config search) (hl : m.Loads id name slot) :
    m.loader.LoadingAt name slot := by
  obtain ⟨thread, hid, hmem⟩ := hl
  exact h.mem_loading hid (name, slot) hmem

/-- A slot has one thread that loads it. -/
theorem Sound.loads_unique (h : m.Sound config search) (hid : m.Loads id name slot)
    (hother : m.Loads other name slot) : id = other := by
  obtain ⟨thread, hid, hmem⟩ := hid
  obtain ⟨thread', hother, hmem'⟩ := hother
  have hdisjoint := (List.nodup_flatMap.1 h.distinct).2
  rw [List.pairwise_iff_getElem] at hdisjoint
  obtain ⟨hlt, rfl⟩ := Array.getElem?_eq_some_iff.1 hid
  obtain ⟨hlt', rfl⟩ := Array.getElem?_eq_some_iff.1 hother
  rcases Nat.lt_trichotomy id other with hcmp | heq | hcmp
  · exact absurd hmem' (hdisjoint id other (by simpa using hlt) (by simpa using hlt') hcmp hmem)
  · exact heq
  · exact absurd hmem (hdisjoint other id (by simpa using hlt') (by simpa using hlt) hcmp hmem')

/-- In an orderly machine, a thread that waits for a slot is blocked by the thread that loads it. -/
theorem Orderly.blocks (h : m.Orderly config search) {callers : List Definition} {n : String}
    (hid : m.threads[id]? = some ⟨.await name slot, callers⟩)
    (hslot : m.loader.slots[slot]? = some .loading) (hother : m.Loads other n slot) :
    m.loader.inFlight.Blocks other id := by
  have hvalid := h.sound.valid _ (Array.mem_toList_iff.2 (Array.mem_of_getElem? hid))
  obtain ⟨_, ⟨rfl, hbelongs⟩, -⟩ := hvalid
  have hl : m.loader.LoadingAt name slot := by
    rcases hbelongs with hl | ⟨e, he⟩
    · exact ⟨hl, hslot⟩
    · rw [hslot] at he
      cases he
  obtain ⟨owner, hloads, howner⟩ := h.recorded name slot hl
  have hn : n = name :=
    h.sound.loader.toTidy.name_eq_of_lookup (h.sound.loadingAt_of_loads hother).1 hl.1
  subst hn
  rw [h.sound.loads_unique hother hloads]
  exact Option.bind_eq_some_iff.2 ⟨n, h.watches.awaiting id n slot callers hid, howner⟩

theorem Orderly.not_deadlocked (h : m.Orderly config search) : ¬m.Deadlocked := by
  rintro ⟨blocked, hne, hall⟩
  obtain ⟨id, hid, hmin⟩ := h.acyclic.has_min blocked hne
  obtain ⟨name, slot, callers, hthread, hslot, other, hother, n, hloads⟩ := hall id hid
  exact hmin other hother (h.blocks hthread hslot hloads)

theorem Orderly.safe (h : m.Orderly env.config env.search) : m.Safe env := by
  refine ⟨h.not_deadlocked, h.recorded, fun id name slot hloads => ?_⟩
  have hl := h.sound.loadingAt_of_loads hloads
  refine ⟨fun callers hid => ?_, fun callers hid => ?_, fun callers hid => ?_,
    fun callers hid => ?_⟩
  · simp only [step, hid, Thread.step, hl.1]
    rfl
  · simp only [step, hid, Thread.step, hl.1]
    rfl
  · simp only [step, hid, Thread.step, hl.2]
    rfl
  · obtain ⟨owner, hloads', howner⟩ := h.recorded name slot hl
    rw [h.sound.loads_unique hloads' hloads] at howner
    simp only [step, hid, Thread.step, InFlight.waitFor_own howner]
    rfl

/-- A thread that is overtaken takes the record from the thread that now loads the name. -/
theorem Disturbs.not_recorded (h : Disturbs env m m') : ¬m'.Recorded := by
  obtain ⟨id, ⟨name, result, callers, hid, hloading⟩, hstep⟩ := h
  obtain ⟨slot, hl⟩ := Loader.isLoading_iff.1 hloading
  simp only [step, hid, Thread.step] at hstep
  cases hstep
  intro hrecorded
  obtain ⟨owner, -, howner⟩ := hrecorded name slot hl
  have hnone := InFlight.owner?_finish m.loader.inFlight name name
  rw [if_pos rfl] at hnone
  have howner : (m.loader.inFlight.finish name).owner? name = some owner := howner
  rw [hnone] at howner
  cases howner

theorem Orderly.safe_iff (env : Environment) (h : m.Orderly env.config env.search)
    {ms : List Machine} (hrun : List.IsChain (Move env) (m :: ms)) :
    (∀ m' ∈ m :: ms, m'.Safe env) ↔ List.IsChain (fun m m' => ¬Disturbs env m m') (m :: ms) := by
  induction ms generalizing m with
  | nil => exact ⟨fun _ => .singleton m, fun _ => List.forall_mem_singleton.2 h.safe⟩
  | cons m' ms ih =>
    obtain ⟨hmove, hrest⟩ := List.isChain_cons_cons.1 hrun
    rw [List.forall_mem_cons, List.isChain_cons_cons]
    constructor
    · rintro ⟨-, hsafe⟩
      have hgentle : ¬Disturbs env m m' := fun hd =>
        hd.not_recorded (hsafe m' List.mem_cons_self).recorded
      exact ⟨hgentle, (ih (h.move hmove hgentle) hrest).1 hsafe⟩
    · rintro ⟨hgentle, hchain⟩
      exact ⟨h.safe, (ih (h.move hmove hgentle) hrest).2 hchain⟩

/-! ### A thread that waits for itself -/

/-- Steps of one thread while all others stand still. -/
abbrev Steps (env : Environment) (id : ThreadId) : Loader × Thread → Loader × Thread → Prop :=
  Relation.ReflTransGen fun before after => before.2.step env before.1 id = some after

abbrev Moves (env : Environment) : Machine → Machine → Prop := Relation.ReflTransGen (Move env)

theorem Moves.reachable {initializer : StaticInitializer}
    (h : Moves ⟨config, search, initializer⟩ m m') (hm : m.Reachable config search) :
    m'.Reachable config search := by
  induction h with
  | refl => exact hm
  | tail _ hmove ih => exact ih.move initializer hmove

theorem Moves.of_steps {thread next : Thread} {t : Loader} {threads : Array Thread}
    (h : Steps env id (m.loader, thread) (t, next)) (hid : m.threads[id]? = some thread)
    (hthreads : threads = m.threads.setIfInBounds id next) : Moves env m ⟨t, threads⟩ := by
  subst hthreads
  generalize hafter : (t, next) = after at h
  induction h generalizing t next with
  | refl =>
    cases hafter
    have hsame : m.threads.setIfInBounds id thread = m.threads := by
      apply Array.ext_getElem?
      intro i
      rw [getElem?_setIfInBounds hid]
      split
      · next heq => rw [heq, hid]
      · rfl
    rw [hsame]
  | @tail middle _ _ hstep ih =>
    subst hafter
    refine (ih rfl).tail (.step id ?_)
    have hmiddle : (m.threads.setIfInBounds id middle.2)[id]? = some middle.2 := by
      rw [getElem?_setIfInBounds hid, if_pos rfl]
    simp only [step, hmiddle, hstep, Array.setIfInBounds_setIfInBounds]

variable {s : Loader} {plan : Blueprint}

/-- A thread that loads a class which depends on itself comes back to the class's own slot. -/
theorem steps_to_own_slot (hplan : Blueprint.ofName env.search name = .ok plan)
    (hself : plan.dependencies = [name]) (hl : s.LoadingAt name slot) :
    Steps env id (s, ⟨.search name slot, []⟩)
      (s.noteLookup name, ⟨.requestWait name slot, [⟨name, slot, plan, [], []⟩]⟩) := by
  have hl' : (s.noteLookup name).LoadingAt name slot := Loader.noteLookup_loadingAt hl
  calc
    Steps env id (s, ⟨.search name slot, []⟩)
        (s.noteLookup name, ⟨.define ⟨name, slot, plan, [], [name]⟩, []⟩) :=
      .single (by simp only [Thread.step, hplan, hself])
    Steps env id _ (s.noteLookup name, ⟨.lookup name, [⟨name, slot, plan, [], []⟩]⟩) := .single rfl
    Steps env id _ (s.noteLookup name, ⟨.inspect name slot, [⟨name, slot, plan, [], []⟩]⟩) :=
      .single (by simp only [Thread.step, hl'.1])
    Steps env id _ (s.noteLookup name, ⟨.requestWait name slot, [⟨name, slot, plan, [], []⟩]⟩) :=
      .single (by simp only [Thread.step, hl'.2])

/-- A thread that loads such a class by itself is told of the circle and gives up the class. -/
theorem steps_to_release (id : ThreadId) (hs : s.Sound env.config env.search)
    (hplan : Blueprint.ofName env.search name = .ok plan) (hself : plan.dependencies = [name])
    (free : s.registry.lookup name = none) :
    ∃ t : Loader, t.registry.lookup name = none ∧
      Steps env id (s, .start name) (t, ⟨.release name (.error (.circular name)), []⟩) := by
  have hslot : s.slot? name = none := by simp [Loader.slot?, free]
  let slot := s.slots.size
  let u := (s.acquire id name).noteLookup name
  let v := u.publish slot (.error (.circular name))
  have hl : u.LoadingAt name slot := Loader.noteLookup_loadingAt (Loader.acquire_loadingAt ..)
  have hrefused : u.inFlight.waitFor id name = .error (.circular name) := by
    rw [Loader.inFlight_acquire]
    exact InFlight.waitFor_own ((InFlight.owner?_start ..).trans (if_pos rfl))
  have hv : v.Tidy :=
    ((Loader.Changes.acquire env.config env.search hslot id).sound hs).toTidy.publish slot _
  refine ⟨v.forget name slot, ?_, ?_⟩
  · refine (hv.forget name slot).lookup_of_slot?_none ?_
    have hregistered : v.registry.lookup name = some slot := hl.1
    rw [Loader.slot?_forget hv hregistered, if_pos rfl]
  · calc
      Steps env id (s, .start name) (s, ⟨.register name, []⟩) :=
        .single (by simp only [Thread.start, Thread.step, free])
      Steps env id _ (s.acquire id name, ⟨.search name slot, []⟩) :=
        .single (by simp only [Thread.step, free]; rfl)
      Steps env id _ (u, ⟨.requestWait name slot, [⟨name, slot, plan, [], []⟩]⟩) :=
        steps_to_own_slot hplan hself (Loader.acquire_loadingAt ..)
      Steps env id _ (u, ⟨.answer (.error (.circular name)), [⟨name, slot, plan, [], []⟩]⟩) :=
        .single (by simp only [Thread.step, hrefused])
      Steps env id _ (u, ⟨.publish name slot (.error (.circular name)), []⟩) := .single rfl
      Steps env id _ (v, ⟨.forget name slot (.circular name), []⟩) := .single rfl
      Steps env id _ (v.forget name slot, ⟨.release name (.error (.circular name)), []⟩) :=
        .single rfl

/-- Two threads that load a class which depends on itself: the second takes the name after the first
has let the registry forget it and before the first has given it up. -/
theorem exists_deadlock (env : Environment) (hs : s.Sound env.config env.search)
    (hplan : Blueprint.ofName env.search name = .ok plan) (hself : plan.dependencies = [name])
    (free : s.registry.lookup name = none) :
    ∃ m, Moves env ⟨s, #[]⟩ m ∧ m.Deadlocked ∧ ¬m.Recorded := by
  obtain ⟨t, hfree, hfirst⟩ := steps_to_release 0 hs hplan hself free
  -- the second thread takes the name, and then the first gives it up
  let u := (t.acquire 1 name).release name
  have hl : u.LoadingAt name t.slots.size := (Loader.acquire_loadingAt t 1 name).release
  have hl' : (u.noteLookup name).LoadingAt name t.slots.size := Loader.noteLookup_loadingAt hl
  have hnone : (u.noteLookup name).inFlight.owner? name = none := by
    have hflight : (u.noteLookup name).inFlight = u.inFlight := by
      unfold Loader.noteLookup
      split <;> rfl
    rw [hflight]
    exact (InFlight.owner?_finish ..).trans (if_pos rfl)
  obtain ⟨table, hgranted, howners⟩ : ∃ table,
      (u.noteLookup name).inFlight.waitFor 1 name = .ok table ∧
        table.owners = (u.noteLookup name).inFlight.owners := by
    simp [InFlight.waitFor, hnone, InFlight.leadsTo]
  have hsecond : Steps env 1 (t, .start name) (t.acquire 1 name, ⟨.search name t.slots.size, []⟩) :=
    calc
      Steps env 1 (t, .start name) (t, ⟨.register name, []⟩) :=
        .single (by simp only [Thread.start, Thread.step, hfree])
      Steps env 1 _ (t.acquire 1 name, ⟨.search name t.slots.size, []⟩) :=
        .single (by simp only [Thread.step, hfree])
  have hwaits : Steps env 1 (u, ⟨.search name t.slots.size, []⟩)
      ({ u.noteLookup name with inFlight := table },
        ⟨.await name t.slots.size, [⟨name, t.slots.size, plan, [], []⟩]⟩) :=
    (steps_to_own_slot hplan hself hl).tail (by simp only [Thread.step, hgranted])
  refine ⟨⟨{ u.noteLookup name with inFlight := table }, #[⟨.answer (.error (.circular name)), []⟩,
    ⟨.await name t.slots.size, [⟨name, t.slots.size, plan, [], []⟩]⟩]⟩, ?_, ?_, ?_⟩
  · calc
      Moves env ⟨s, #[]⟩ ⟨s, #[.start name]⟩ := .single (.spawn _ name)
      Moves env _ ⟨s, #[.start name, .start name]⟩ := .single (.spawn _ name)
      Moves env _ ⟨t, #[⟨.release name (.error (.circular name)), []⟩, .start name]⟩ :=
        .of_steps hfirst rfl rfl
      Moves env _ ⟨t.acquire 1 name, #[⟨.release name (.error (.circular name)), []⟩,
          ⟨.search name t.slots.size, []⟩]⟩ := .of_steps hsecond rfl rfl
      Moves env _ ⟨u, #[⟨.answer (.error (.circular name)), []⟩,
          ⟨.search name t.slots.size, []⟩]⟩ := .single (.step 0 rfl)
      Moves env _ ⟨{ u.noteLookup name with inFlight := table },
          #[⟨.answer (.error (.circular name)), []⟩,
            ⟨.await name t.slots.size, [⟨name, t.slots.size, plan, [], []⟩]⟩]⟩ :=
        .of_steps hwaits rfl rfl
  · refine ⟨{1}, Set.singleton_nonempty 1, ?_⟩
    rintro _ rfl
    exact ⟨name, t.slots.size, _, rfl, hl'.2, 1, rfl, name, _, rfl, List.mem_singleton.2 rfl⟩
  · intro hrecorded
    obtain ⟨owner, -, howner⟩ := hrecorded name t.slots.size hl'
    have howner : table.owners.lookup name = some owner := howner
    rw [howners] at howner
    exact Option.some_ne_none owner (howner.symm.trans hnone)

/-- On a class path with a class that extends itself. -/
theorem exists_deadlock_smallPath : ∃ s m,
    Loader.bootstrap ⟨.standard, SmallPath.search, .skip⟩ = .ok s ∧
      Moves ⟨.standard, SmallPath.search, .skip⟩ ⟨s, #[]⟩ m ∧ m.Deadlocked ∧ ¬m.Recorded := by
  obtain ⟨s, hs⟩ := (Loader.bootstrap_isOk_iff ⟨.standard, SmallPath.search, .skip⟩).2
    SmallPath.loadable_class
  have hhistory : Loader.History .standard SmallPath.search s := .ready .skip hs
  have hfree := hhistory.lookup_eq_none (SmallPath.not_loadable_loop _)
  obtain ⟨m, hmoves, hdeadlocked⟩ := exists_deadlock ⟨.standard, SmallPath.search, .skip⟩
    hhistory.sound SmallPath.ofName_loop rfl hfree
  exact ⟨s, m, hs, hmoves, hdeadlocked⟩

/-! ### When threads are safe -/

/-- Threads that load classes can deadlock, and a name can be loading without an owner. -/
theorem loop_deadlocks : ∃ m, Reachable .standard SmallPath.search m ∧ m.Deadlocked ∧
    ¬m.Recorded := by
  obtain ⟨s, m, hs, hmoves, hdeadlocked⟩ := exists_deadlock_smallPath
  exact ⟨m, hmoves.reachable (.ready .skip hs), hdeadlocked⟩

/-- From a loader that has answered requests, a run of threads is safe throughout exactly if no
thread in it gives up a name that another thread has begun to load. -/
theorem safe_iff_not_overtaken {s : Loader} (hs : Loader.History config search s)
    (initializer : StaticInitializer) {ms : List Machine}
    (hrun : List.IsChain (Move ⟨config, search, initializer⟩) (⟨s, #[]⟩ :: ms)) :
    (∀ m ∈ Machine.mk s #[] :: ms, m.Safe ⟨config, search, initializer⟩) ↔
      List.IsChain (fun m m' => ¬Disturbs ⟨config, search, initializer⟩ m m')
        (Machine.mk s #[] :: ms) := by
  have horderly := orderly_of_atRest hs.sound hs.atRest
  exact horderly.safe_iff ⟨config, search, initializer⟩ hrun

/-- A run that is safe, and one that is not since a thread in it is overtaken. -/
theorem exists_safe_and_overtaken_runs : ∃ (s : Loader) (ms : List Machine),
    Loader.History .standard SmallPath.search s ∧
      (∀ m ∈ [Machine.mk s #[], ⟨s, #[.start objectName]⟩],
        m.Safe ⟨.standard, SmallPath.search, .skip⟩) ∧
      List.IsChain (Move ⟨.standard, SmallPath.search, .skip⟩) (⟨s, #[]⟩ :: ms) ∧
      ¬List.IsChain (fun m m' => ¬Disturbs ⟨.standard, SmallPath.search, .skip⟩ m m')
        (⟨s, #[]⟩ :: ms) := by
  obtain ⟨s, m, hready, hmoves, hdeadlocked, -⟩ := exists_deadlock_smallPath
  have hs : Loader.History .standard SmallPath.search s := .ready .skip hready
  have hspawn : List.IsChain (Move ⟨.standard, SmallPath.search, .skip⟩)
      [Machine.mk s #[], ⟨s, #[.start objectName]⟩] :=
    List.isChain_cons_cons.2 ⟨.spawn _ objectName, .singleton _⟩
  obtain ⟨ms, hrun, hlast⟩ := List.exists_isChain_cons_of_relationReflTransGen hmoves
  refine ⟨s, ms, hs, (safe_iff_not_overtaken hs .skip hspawn).2 ?_, hrun, fun hgentle => ?_⟩
  · refine List.isChain_cons_cons.2 ⟨?_, .singleton _⟩
    rintro ⟨id, ⟨name, result, callers, hid, -⟩, -⟩
    cases hid
  · have hsafe := (safe_iff_not_overtaken hs .skip hrun).2 hgentle m (hlast ▸ List.getLast_mem _)
    exact hsafe.live hdeadlocked

end Machine

end ClassLoading
