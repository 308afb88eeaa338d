import ClassLoading.Loader.Threads
import ClassLoading.Proofs.Histories

/-! What one step of a thread can do, and what it does to a loader that other threads use as well.
A thread holds the slots that it has taken and not yet filled. As long as every held slot is still
loading under its name and no slot is held twice, a step is a run of changes, and the loads that
wait further down the thread remain in order. -/
namespace ClassLoading

/-! ### Steps -/

namespace Thread

/-- The steps of a thread, each with what it finds. -/
inductive Step (env : Environment) (s : Loader) (me : ThreadId) : Thread → Loader → Thread → Prop
  | found {name slot callers} (h : s.registry.lookup name = some slot) :
      Step env s me ⟨.lookup name, callers⟩ s ⟨.inspect name slot, callers⟩
  | missed {name callers} (h : s.registry.lookup name = none) :
      Step env s me ⟨.lookup name, callers⟩ s ⟨.register name, callers⟩
  | beaten {name slot callers} (h : s.registry.lookup name = some slot) :
      Step env s me ⟨.register name, callers⟩ s ⟨.inspect name slot, callers⟩
  | begun {name callers} (h : s.registry.lookup name = none) :
      Step env s me ⟨.register name, callers⟩ (s.acquire me name)
        ⟨.search name s.slots.size, callers⟩
  | hit {name slot id callers} (h : s.slots[slot]? = some (.done (.ok id))) :
      Step env s me ⟨.inspect name slot, callers⟩ s ⟨.answer (.ok id), callers⟩
  | unready {name slot callers} (h : ∀ id, s.slots[slot]? ≠ some (.done (.ok id))) :
      Step env s me ⟨.inspect name slot, callers⟩ s ⟨.requestWait name slot, callers⟩
  | waits {name slot table callers} (h : s.inFlight.waitFor me name = .ok table) :
      Step env s me ⟨.requestWait name slot, callers⟩ { s with inFlight := table }
        ⟨.await name slot, callers⟩
  | refused {name slot e callers} (h : s.inFlight.waitFor me name = .error e) :
      Step env s me ⟨.requestWait name slot, callers⟩ s ⟨.answer (.error e), callers⟩
  | woken {name slot result callers} (h : s.slots[slot]? = some (.done result)) :
      Step env s me ⟨.await name slot, callers⟩ s ⟨.stopWaiting result, callers⟩
  | resumed {result callers} :
      Step env s me ⟨.stopWaiting result, callers⟩
        { s with inFlight := s.inFlight.stopWaiting me } ⟨.answer result, callers⟩
  | planned {name slot plan callers} (h : Blueprint.ofName env.search name = .ok plan) :
      Step env s me ⟨.search name slot, callers⟩ (s.noteLookup name)
        ⟨.define ⟨name, slot, plan, [], plan.dependencies⟩, callers⟩
  | unknown {name slot e callers} (h : Blueprint.ofName env.search name = .error e) :
      Step env s me ⟨.search name slot, callers⟩ (s.noteLookup name)
        ⟨.publish name slot (.error e), callers⟩
  | descends {d : Definition} {name todo callers} (h : d.todo = name :: todo) :
      Step env s me ⟨.define d, callers⟩ s ⟨.lookup name, { d with todo } :: callers⟩
  | built {d : Definition} {c callers} (h : d.todo = [])
      (hb : d.plan.build env.config s.classes d.name d.loaded = .ok c) :
      Step env s me ⟨.define d, callers⟩ (s.addClass c)
        ⟨.publish d.name d.slot (.ok s.classes.size), callers⟩
  | unbuilt {d : Definition} {e callers} (h : d.todo = [])
      (hb : d.plan.build env.config s.classes d.name d.loaded = .error e) :
      Step env s me ⟨.define d, callers⟩ s ⟨.publish d.name d.slot (.error e), callers⟩
  | published {name slot result callers} :
      Step env s me ⟨.publish name slot result, callers⟩ (s.publish slot result)
        ⟨afterPublish name slot result, callers⟩
  | forgotten {name slot e callers} :
      Step env s me ⟨.forget name slot e, callers⟩ (s.forget name slot)
        ⟨.release name (.error e), callers⟩
  | released {name result callers} :
      Step env s me ⟨.release name result, callers⟩ (s.release name) ⟨.answer result, callers⟩
  | returned {id d callers} :
      Step env s me ⟨.answer (.ok id), d :: callers⟩ s
        ⟨.define { d with loaded := d.loaded ++ [id] }, callers⟩
  | failed {e} {d : Definition} {callers} :
      Step env s me ⟨.answer (.error e), d :: callers⟩ s
        ⟨.publish d.name d.slot (.error e), callers⟩

variable {env : Environment} {s t : Loader} {me : ThreadId} {thread next : Thread}

theorem step_cases (h : thread.step env s me = some (t, next)) :
    Step env s me thread t next := by
  obtain ⟨activity, callers⟩ := thread
  cases activity with
  | lookup name =>
    simp only [step] at h
    split at h <;> cases h
    · next hl => exact .found hl
    · next hl => exact .missed hl
  | register name =>
    simp only [step] at h
    split at h <;> cases h
    · next hl => exact .beaten hl
    · next hl => exact .begun hl
  | inspect name slot =>
    simp only [step] at h
    split at h <;> cases h
    · next hs => exact .hit hs
    · next hs => exact .unready hs
  | requestWait name slot =>
    simp only [step] at h
    split at h <;> cases h
    · next hw => exact .waits hw
    · next hw => exact .refused hw
  | await name slot =>
    simp only [step] at h
    split at h <;> cases h
    next hs => exact .woken hs
  | stopWaiting result =>
    cases h
    exact .resumed
  | search name slot =>
    simp only [step] at h
    split at h <;> cases h
    · next hp => exact .planned hp
    · next hp => exact .unknown hp
  | define d =>
    cases htodo : d.todo with
    | nil =>
      simp only [step, htodo, build] at h
      split at h <;> cases h
      · next hb => exact .built htodo hb
      · next hb => exact .unbuilt htodo hb
    | cons name todo =>
      simp only [step, htodo] at h
      cases h
      exact .descends htodo
  | publish name slot result =>
    cases h
    exact .published
  | forget name slot e =>
    cases h
    exact .forgotten
  | release name result =>
    cases h
    exact .released
  | answer result =>
    cases callers with
    | nil => cases h
    | cons d callers =>
      cases result <;> cases h
      · exact .failed
      · exact .returned

end Thread

/-! ### Loads under way -/

namespace Loader

/-- The slot was taken for the name: it still is the name's, or the load failed. -/
def Belongs (s : Loader) (name : String) (slot : SlotId) : Prop :=
  s.registry.lookup name = some slot ∨ ∃ e, s.slots[slot]? = some (.done (.error e))

/-- A load of the name may be answered with the result. -/
def Answers (s : Loader) (name : String) (result : Except LoadError ClassId) : Prop :=
  ∀ id, result = .ok id → s.findLoaded? name = some id

variable {config : LoaderConfig} {search : ClassSearch} {s t : Loader} {name : String}
  {slot : SlotId} {result : Except LoadError ClassId}

theorem Belongs.answers (h : s.Belongs name slot) (hs : s.slots[slot]? = some (.done result)) :
    s.Answers name result := by
  rintro id rfl
  rcases h with hl | ⟨e, he⟩
  · exact findLoaded?_eq_some_iff.2 ⟨slot, hl, hs⟩
  · rw [he] at hs
    cases hs

theorem Change.failed (h : Change config search s t) {e : LoadError}
    (hs : s.slots[slot]? = some (.done (.error e))) :
    t.slots[slot]? = some (.done (.error e)) := by
  cases h with
  | grow registry slots classes => rw [slots, hs]
  | acquire thread free =>
    have hlt : slot < s.slots.size := (Array.getElem?_eq_some_iff.1 hs).1
    simp only [Loader.acquire, Array.getElem?_push, Nat.ne_of_lt hlt, if_false, hs]
  | @publish _ i _ own made =>
    have hne : i ≠ slot := by
      rintro rfl
      rw [own.2] at hs
      cases hs
    simp only [Loader.publish, Array.getElem?_setIfInBounds, hne, if_false, hs]
  | forget name failed => exact hs

theorem Change.belongs (h : Change config search s t) (hs : s.Tidy) (hb : s.Belongs name slot) :
    t.Belongs name slot := by
  rcases hb with hl | ⟨e, he⟩
  · cases h with
    | grow registry slots classes => exact .inl (by rw [registry, hl])
    | @acquire thread n free =>
      have hne : (name == n) = false := by
        rw [beq_eq_false_iff_ne]
        rintro rfl
        rw [hs.lookup_of_slot?_none free] at hl
        cases hl
      exact .inl (by simp [Loader.acquire, List.lookup_cons, hne, hl])
    | publish own made => exact .inl hl
    | @forget n i e failed =>
      by_cases hi : slot = i
      · exact .inr ⟨e, hi ▸ failed⟩
      · exact .inl (hs.lookup_forget hl hi)
  · exact .inr ⟨e, h.failed he⟩

theorem Changes.belongs (h : Changes config search s t) (hs : s.Tidy) (hb : s.Belongs name slot) :
    t.Belongs name slot := (h.preserves hs hb fun _ _ hc hu hp => hc.belongs hu hp).1

theorem Changes.failed (h : Changes config search s t) (hs : s.Tidy) {e : LoadError}
    (hf : s.slots[slot]? = some (.done (.error e))) : t.slots[slot]? = some (.done (.error e)) :=
  (h.preserves hs hf fun _ _ hc _ hp => hc.failed hp).1

theorem Changes.answers (h : Changes config search s t) (hs : s.Tidy) (ha : s.Answers name result) :
    t.Answers name result := fun id hid => h.findLoaded? hs (ha id hid)

end Loader

section

variable (config : LoaderConfig) (search : ClassSearch) (s : Loader)

/-- The definition has loaded its first dependencies and those that are pending come next. -/
def Definition.Valid (d : Definition) (pending : List String) : Prop :=
  Blueprint.ofName search d.name = .ok d.plan ∧ ∃ done, d.plan.dependencies = done ++ pending ∧
    List.Forall₂ (fun name id => s.findLoaded? name = some id) done d.loaded

/-- The activity belongs to a load of the name. -/
def Activity.Valid (name : String) : Activity → Prop
  | .lookup n | .register n | .search n _ => n = name
  | .inspect n slot | .requestWait n slot | .await n slot => n = name ∧ s.Belongs n slot
  | .stopWaiting result | .answer result => s.Answers name result
  | .define d => d.name = name ∧ d.Valid search s d.todo
  | .publish n _ result => n = name ∧ ∀ id, result = .ok id → s.Made config search name id
  | .forget n slot e => n = name ∧ s.slots[slot]? = some (.done (.error e))
  | .release n result => n = name ∧ s.Answers name result

/-- Every definition waits for the class that the one above it, and at the top the thread, loads. -/
def CallersValid : String → List Definition → Prop
  | _, [] => True
  | name, d :: callers => d.Valid search s (name :: d.todo) ∧ CallersValid d.name callers

def Thread.Valid (thread : Thread) : Prop :=
  ∃ name, thread.activity.Valid config search s name ∧ CallersValid search s name thread.callers

end

variable {config : LoaderConfig} {search : ClassSearch} {s t : Loader}

theorem Definition.Valid.mono {d : Definition} {pending : List String}
    (h : d.Valid search s pending) (hc : Loader.Changes config search s t) (hs : s.Tidy) :
    d.Valid search t pending := by
  obtain ⟨hplan, done, heq, hdone⟩ := h
  exact ⟨hplan, done, heq, hdone.imp fun n id hn => hc.findLoaded? hs hn⟩

theorem Activity.Valid.mono {activity : Activity} {name : String}
    (h : activity.Valid config search s name) (hc : Loader.Changes config search s t)
    (hs : s.Tidy) : activity.Valid config search t name := by
  cases activity with
  | lookup n => exact h
  | register n => exact h
  | search n slot => exact h
  | inspect n slot => exact ⟨h.1, hc.belongs hs h.2⟩
  | requestWait n slot => exact ⟨h.1, hc.belongs hs h.2⟩
  | await n slot => exact ⟨h.1, hc.belongs hs h.2⟩
  | stopWaiting result => exact hc.answers hs h
  | answer result => exact hc.answers hs h
  | define d => exact ⟨h.1, h.2.mono hc hs⟩
  | publish n slot result => exact ⟨h.1, fun id hid => hc.made hs (h.2 id hid)⟩
  | forget n slot e => exact ⟨h.1, hc.failed hs h.2⟩
  | release n result => exact ⟨h.1, hc.answers hs h.2⟩

theorem CallersValid.mono {callers : List Definition} {name : String}
    (h : CallersValid search s name callers) (hc : Loader.Changes config search s t)
    (hs : s.Tidy) : CallersValid search t name callers := by
  induction callers generalizing name with
  | nil => trivial
  | cons d callers ih => exact ⟨h.1.mono hc hs, ih h.2⟩

theorem Thread.Valid.mono {thread : Thread} (h : thread.Valid config search s)
    (hc : Loader.Changes config search s t) (hs : s.Tidy) : thread.Valid config search t := by
  obtain ⟨name, ha, hcallers⟩ := h
  exact ⟨name, ha.mono hc hs, hcallers.mono hc hs⟩

/-! ### Held slots -/

/-- The name and slot of an activity that has yet to fill the slot. -/
def Activity.held? : Activity → Option (String × SlotId)
  | .search name slot | .publish name slot _ => some (name, slot)
  | .define d => some (d.name, d.slot)
  | _ => none

/-- The names and slots that a thread has taken and not yet filled, innermost first. -/
def Thread.held (thread : Thread) : List (String × SlotId) :=
  thread.activity.held?.toList ++ thread.callers.map fun d => (d.name, d.slot)

namespace Thread.Step

variable {env : Environment} {me : ThreadId} {thread next : Thread}

/-- A step takes a fresh slot, fills a held one, or leaves what is held and loading as it is. -/
theorem held_cases (h : Step env s me thread t next) (hs : s.Tidy)
    (hv : thread.Valid config search s) :
    (next.held = thread.held ∧ ∀ name slot, s.LoadingAt name slot → t.LoadingAt name slot) ∨
    (∃ name, s.registry.lookup name = none ∧ t = s.acquire me name ∧
      next.held = (name, s.slots.size) :: thread.held) ∨
    ∃ name slot result, t = s.publish slot result ∧ thread.held = (name, slot) :: next.held := by
  cases h with
  | @begun name callers hl => exact .inr (.inl ⟨name, hl, rfl, rfl⟩)
  | @published name slot result callers =>
    refine .inr (.inr ⟨name, slot, result, rfl, ?_⟩)
    cases result <;> rfl
  | @forgotten name slot e callers =>
    refine .inl ⟨rfl, fun n i hn => ?_⟩
    obtain ⟨_, ⟨-, hfailed⟩, -⟩ := hv
    have hne : i ≠ slot := by
      rintro rfl
      rw [hn.2] at hfailed
      cases hfailed
    exact ⟨hs.lookup_forget hn.1 hne, hn.2⟩
  | planned hp => exact .inl ⟨rfl, fun n i hn => Loader.noteLookup_loadingAt hn⟩
  | unknown hp => exact .inl ⟨rfl, fun n i hn => Loader.noteLookup_loadingAt hn⟩
  | built hd hb => exact .inl ⟨rfl, fun n i hn => hn.addClass⟩
  | found hl => exact .inl ⟨rfl, fun n i hn => hn⟩
  | missed hl => exact .inl ⟨rfl, fun n i hn => hn⟩
  | beaten hl => exact .inl ⟨rfl, fun n i hn => hn⟩
  | hit hi => exact .inl ⟨rfl, fun n i hn => hn⟩
  | unready hi => exact .inl ⟨rfl, fun n i hn => hn⟩
  | waits hw => exact .inl ⟨rfl, fun n i hn => hn⟩
  | refused hw => exact .inl ⟨rfl, fun n i hn => hn⟩
  | woken hi => exact .inl ⟨rfl, fun n i hn => hn⟩
  | resumed => exact .inl ⟨rfl, fun n i hn => hn⟩
  | descends hd => exact .inl ⟨rfl, fun n i hn => hn⟩
  | unbuilt hd hb => exact .inl ⟨rfl, fun n i hn => hn⟩
  | released => exact .inl ⟨rfl, fun n i hn => hn⟩
  | returned => exact .inl ⟨rfl, fun n i hn => hn⟩
  | failed => exact .inl ⟨rfl, fun n i hn => hn⟩

theorem changes (h : Step env s me thread t next) (hv : thread.Valid env.config env.search s)
    (hheld : ∀ load ∈ thread.held, s.LoadingAt load.1 load.2) :
    Loader.Changes env.config env.search s t := by
  obtain ⟨name, ha, -⟩ := hv
  cases h with
  | begun hl => exact .of (.acquire me (by simp [Loader.slot?, hl]))
  | planned hp => exact .of (.noteLookup _)
  | unknown hp => exact .of (.noteLookup _)
  | built hd hb => exact .of (.addClass _)
  | @published n slot result callers =>
    obtain ⟨rfl, hmade⟩ := ha
    exact .of (.publish (hheld (n, slot) (by simp [Thread.held, Activity.held?])) hmade)
  | forgotten => exact .of (.forget _ ha.2)
  | released => exact .of (.release _)
  | waits hw => exact .of (.grow rfl rfl (.refl _))
  | resumed => exact .of (.grow rfl rfl (.refl _))
  | _ => exact .refl

theorem valid (h : Step env s me thread t next) (hs : s.Sound env.config env.search)
    (hv : thread.Valid env.config env.search s)
    (hheld : ∀ load ∈ thread.held, s.LoadingAt load.1 load.2) :
    next.Valid env.config env.search t := by
  have hc := h.changes hv hheld
  obtain ⟨name, ha, hcallers⟩ := hv
  cases h with
  | found hl => exact ⟨name, ⟨ha, .inl hl⟩, hcallers⟩
  | missed hl => exact ⟨name, ha, hcallers⟩
  | beaten hl => exact ⟨name, ⟨ha, .inl hl⟩, hcallers⟩
  | begun hl => exact ⟨name, ha, hcallers.mono hc hs.toTidy⟩
  | hit hi =>
    obtain ⟨rfl, hb⟩ := ha
    exact ⟨_, hb.answers hi, hcallers⟩
  | unready hi => exact ⟨name, ha, hcallers⟩
  | waits hw => exact ⟨name, ⟨ha.1, hc.belongs hs.toTidy ha.2⟩, hcallers.mono hc hs.toTidy⟩
  | refused hw => exact ⟨name, nofun, hcallers⟩
  | woken hi =>
    obtain ⟨rfl, hb⟩ := ha
    exact ⟨_, hb.answers hi, hcallers⟩
  | resumed => exact ⟨name, hc.answers hs.toTidy ha, hcallers.mono hc hs.toTidy⟩
  | planned hp =>
    cases ha
    exact ⟨_, ⟨rfl, hp, [], rfl, .nil⟩, hcallers.mono hc hs.toTidy⟩
  | unknown hp => exact ⟨name, ⟨ha, nofun⟩, hcallers.mono hc hs.toTidy⟩
  | @descends d n todo callers hd =>
    obtain ⟨rfl, hdef⟩ := ha
    rw [hd] at hdef
    exact ⟨n, rfl, hdef, hcallers⟩
  | @built d c callers hd hb =>
    obtain ⟨rfl, hplan, done, heq, hdone⟩ := ha
    rw [hd, List.append_nil] at heq
    rw [← heq] at hdone
    have hmade := hs.made_of_build hplan hdone hb hc (Loader.addClass_extends s c)
    exact ⟨_, ⟨rfl, fun id hid => by cases hid; exact hmade⟩, hcallers.mono hc hs.toTidy⟩
  | unbuilt hd hb => exact ⟨name, ⟨ha.1, nofun⟩, hcallers⟩
  | @published n slot result callers =>
    obtain ⟨rfl, hmade⟩ := ha
    have own := hheld (n, slot) (by simp [Thread.held, Activity.held?])
    have hlt : slot < s.slots.size := (Array.getElem?_eq_some_iff.1 own.2).1
    have hfilled : (s.publish slot result).slots[slot]? = some (.done result) := by
      simp [Loader.publish, hlt]
    refine ⟨n, ?_, hcallers.mono hc hs.toTidy⟩
    cases result with
    | error e => exact ⟨rfl, hfilled⟩
    | ok id => exact ⟨rfl, Loader.Belongs.answers (.inl own.1) hfilled⟩
  | forgotten => exact ⟨name, ⟨ha.1, nofun⟩, hcallers.mono hc hs.toTidy⟩
  | released => exact ⟨name, hc.answers hs.toTidy ha.2, hcallers.mono hc hs.toTidy⟩
  | @returned id d callers =>
    obtain ⟨⟨hplan, done, heq, hdone⟩, hrest⟩ := hcallers
    refine ⟨d.name, ⟨rfl, hplan, done ++ [name], by simpa using heq, ?_⟩, hrest⟩
    exact List.rel_append hdone (.cons (ha id rfl) .nil)
  | failed => exact ⟨_, ⟨rfl, nofun⟩, hcallers.2⟩

end Thread.Step

end ClassLoading
