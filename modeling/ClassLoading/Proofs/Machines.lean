import Mathlib.Data.List.Perm.Basic
import ClassLoading.Proofs.ThreadSteps

/-! Loaders with any number of threads. A move starts a thread, lets one that has its answer make a
new call, or takes one step of one thread; in between the loader may answer whole requests of its
own. Whatever the order, the loader stays sound, every thread stays valid, and the slots that the
threads hold are loading and held only once. -/
namespace ClassLoading

namespace Machine

inductive Move (env : Environment) : Machine → Machine → Prop
  | spawn (m : Machine) (name : String) : Move env m ⟨m.loader, m.threads.push (.start name)⟩
  | call {m : Machine} {id : ThreadId} {result : Except LoadError ClassId} (name : String)
      (h : m.threads[id]? = some ⟨.answer result, []⟩) :
      Move env m ⟨m.loader, m.threads.setIfInBounds id (.start name)⟩
  | step {m m' : Machine} (id : ThreadId) (h : m.step env id = some m') : Move env m m'

/-- The states of a loader that has got ready and is then used by threads and by requests. -/
inductive Reachable (config : LoaderConfig) (search : ClassSearch) : Machine → Prop
  | ready {s : Loader} (initializer : StaticInitializer)
      (h : Loader.bootstrap ⟨config, search, initializer⟩ = .ok s) :
      Reachable config search ⟨s, #[]⟩
  | serve {m : Machine} (initializer : StaticInitializer) (request : Request)
      (h : Reachable config search m) :
      Reachable config search
        ⟨m.loader.serve ⟨config, search, initializer⟩ request, m.threads⟩
  | move {m m' : Machine} (initializer : StaticInitializer) (h : Reachable config search m)
      (hm : Move ⟨config, search, initializer⟩ m m') : Reachable config search m'

/-- All that the threads hold. -/
def held (m : Machine) : List (String × SlotId) := m.threads.toList.flatMap Thread.held

structure Sound (config : LoaderConfig) (search : ClassSearch) (m : Machine) : Prop where
  loader : m.loader.Sound config search
  valid : ∀ thread ∈ m.threads.toList, thread.Valid config search m.loader
  loading : ∀ load ∈ m.held, m.loader.LoadingAt load.1 load.2
  distinct : m.held.Nodup

variable {config : LoaderConfig} {search : ClassSearch} {env : Environment} {m m' : Machine}

theorem step_cases {id : ThreadId} (h : m.step env id = some m') :
    ∃ thread s next, m.threads[id]? = some thread ∧ Thread.Step env m.loader id thread s next ∧
      m' = ⟨s, m.threads.setIfInBounds id next⟩ := by
  unfold step at h
  split at h
  · cases h
  · next thread hthread =>
    split at h
    · cases h
    · next s next hstep =>
      cases h
      exact ⟨thread, s, next, hthread, Thread.step_cases hstep, rfl⟩

/-- Besides what one thread holds, which thread it is does not matter. -/
theorem exists_held_perm {id : ThreadId} {thread : Thread} (h : m.threads[id]? = some thread) :
    ∃ rest, m.held.Perm (thread.held ++ rest) ∧ ∀ s next,
      (Machine.mk s (m.threads.setIfInBounds id next)).held.Perm (next.held ++ rest) := by
  have hlt : id < m.threads.toList.length := (Array.getElem?_eq_some_iff.1 h).1
  have hsplit : m.threads.toList = m.threads.toList.take id ++ thread ::
      m.threads.toList.drop (id + 1) := by
    have hget : m.threads.toList[id] = thread := by
      have := (Array.getElem?_eq_some_iff.1 h).2
      simpa using this
    rw [← hget, ← List.drop_eq_getElem_cons hlt, List.take_append_drop]
  refine ⟨(m.threads.toList.take id).flatMap Thread.held ++
    (m.threads.toList.drop (id + 1)).flatMap Thread.held, ?_, fun s next => ?_⟩
  · have heq : m.held = (m.threads.toList.take id).flatMap Thread.held ++ (thread.held ++
        (m.threads.toList.drop (id + 1)).flatMap Thread.held) := by
      rw [held]
      conv_lhs => rw [hsplit]
      rw [List.flatMap_append, List.flatMap_cons]
    rw [heq]
    exact List.perm_append_comm_assoc ..
  · simp only [held, Array.toList_setIfInBounds]
    rw [List.set_eq_take_append_cons_drop, if_pos hlt, List.flatMap_append, List.flatMap_cons]
    exact List.perm_append_comm_assoc ..

theorem held_push (m : Machine) (thread : Thread) :
    (Machine.mk m.loader (m.threads.push thread)).held = m.held ++ thread.held := by
  simp [held]

/-! ### What stays -/

theorem Sound.spawn (h : m.Sound config search) (name : String) :
    (Machine.mk m.loader (m.threads.push (.start name))).Sound config search := by
  have hheld : (Machine.mk m.loader (m.threads.push (.start name))).held = m.held := by
    rw [held_push]
    exact List.append_nil _
  refine ⟨h.loader, fun thread ht => ?_, by rw [hheld]; exact h.loading, by
    rw [hheld]; exact h.distinct⟩
  rw [Array.toList_push, List.mem_append, List.mem_singleton] at ht
  rcases ht with ht | rfl
  · exact h.valid thread ht
  · exact ⟨name, rfl, trivial⟩

theorem Sound.call (h : m.Sound config search) {id : ThreadId}
    {result : Except LoadError ClassId} (name : String)
    (hid : m.threads[id]? = some ⟨.answer result, []⟩) :
    (Machine.mk m.loader (m.threads.setIfInBounds id (.start name))).Sound config search := by
  obtain ⟨rest, hm, hm'⟩ := exists_held_perm hid
  have hperm := (hm' m.loader (.start name)).trans hm.symm
  refine ⟨h.loader, fun thread ht => ?_, fun load hl => h.loading load (hperm.mem_iff.1 hl),
    hperm.nodup_iff.2 h.distinct⟩
  rw [Array.toList_setIfInBounds] at ht
  rcases List.mem_or_eq_of_mem_set ht with ht | rfl
  · exact h.valid thread ht
  · exact ⟨name, rfl, trivial⟩

theorem Sound.mem_loading (h : m.Sound config search) {id : ThreadId} {thread : Thread}
    (hid : m.threads[id]? = some thread) :
    ∀ load ∈ thread.held, m.loader.LoadingAt load.1 load.2 := by
  intro load hl
  obtain ⟨rest, hm, -⟩ := exists_held_perm hid
  exact h.loading load (hm.mem_iff.2 (List.mem_append_left _ hl))

/-- The slots that are held after a step of a thread are loading and held only once. -/
theorem Sound.held_step (h : m.Sound config search) {id : ThreadId} {thread next : Thread}
    {s : Loader} (hid : m.threads[id]? = some thread)
    (hstep : Thread.Step env m.loader id thread s next) (hv : thread.Valid config search m.loader) :
    (∀ load ∈ (Machine.mk s (m.threads.setIfInBounds id next)).held, s.LoadingAt load.1 load.2) ∧
      (Machine.mk s (m.threads.setIfInBounds id next)).held.Nodup := by
  have htidy := h.loader.toTidy
  obtain ⟨rest, hm, hm'⟩ := exists_held_perm hid
  replace hm' := hm' s next
  rcases hstep.held_cases htidy hv with ⟨heq, hkeep⟩ | ⟨name, hl, rfl, heq⟩ |
    ⟨name, slot, result, rfl, heq⟩
  · rw [heq] at hm'
    have hperm := hm'.trans hm.symm
    exact ⟨fun load hload => hkeep _ _ (h.loading load (hperm.mem_iff.1 hload)),
      hperm.nodup_iff.2 h.distinct⟩
  · rw [heq, List.cons_append] at hm'
    have hperm := hm'.trans (hm.symm.cons _)
    refine ⟨fun load hload => ?_,
      hperm.nodup_iff.2 (List.nodup_cons.2 ⟨fun hmem => ?_, h.distinct⟩)⟩
    · rcases List.mem_cons.1 (hperm.mem_iff.1 hload) with rfl | hload
      · exact Loader.acquire_loadingAt ..
      · have hold := h.loading load hload
        refine hold.acquire ?_
        rintro rfl
        rw [hold.1] at hl
        cases hl
    · have hlt := htidy.slot_lt (h.loading _ hmem).1
      exact Nat.lt_irrefl _ hlt
  · rw [heq, List.cons_append] at hm
    have hdistinct := List.nodup_cons.1 (hm.nodup_iff.1 h.distinct)
    have own : m.loader.LoadingAt name slot := h.loading _ (hm.mem_iff.2 List.mem_cons_self)
    refine ⟨fun load hload => ?_, hm'.nodup_iff.2 hdistinct.2⟩
    have hrest := hm'.mem_iff.1 hload
    have hl := h.loading load (hm.mem_iff.2 (List.mem_cons_of_mem _ hrest))
    refine hl.publish fun hslot => hdistinct.1 ?_
    have hname : load.1 = name := htidy.name_eq_of_lookup hl.1 (hslot ▸ own.1)
    rwa [← hname, ← hslot]

theorem Sound.move (env : Environment) (h : m.Sound env.config env.search) (hm : Move env m m') :
    m'.Sound env.config env.search := by
  cases hm with
  | spawn name => exact h.spawn name
  | call name hid => exact h.call name hid
  | step id hstep =>
    obtain ⟨thread, s, next, hid, hthread, rfl⟩ := step_cases hstep
    have hv : thread.Valid env.config env.search m.loader :=
      h.valid thread (Array.mem_toList_iff.2 (Array.mem_of_getElem? hid))
    have hchanges := hthread.changes hv (h.mem_loading hid)
    obtain ⟨hloading, hdistinct⟩ := h.held_step hid hthread hv
    refine ⟨hchanges.sound h.loader, fun other ho => ?_, hloading, hdistinct⟩
    rw [Array.toList_setIfInBounds] at ho
    rcases List.mem_or_eq_of_mem_set ho with ho | rfl
    · exact (h.valid other ho).mono hchanges h.loader.toTidy
    · exact hthread.valid h.loader hv (h.mem_loading hid)

theorem Sound.serve (env : Environment) (h : m.Sound env.config env.search) (request : Request) :
    (Machine.mk (m.loader.serve env request) m.threads).Sound env.config env.search := by
  have hchanges := h.loader.serve env request
  exact ⟨hchanges.sound h.loader, fun thread ht => (h.valid thread ht).mono hchanges
    h.loader.toTidy, fun load hl => Loader.serve_loadingAt env request (h.loading load hl),
    h.distinct⟩

theorem Reachable.sound (h : Reachable config search m) : m.Sound config search := by
  induction h with
  | ready initializer h =>
    exact ⟨(Loader.bootstrap_changes h).sound Loader.sound_empty, nofun, nofun, List.nodup_nil⟩
  | serve initializer request _ ih => exact Sound.serve ⟨config, search, initializer⟩ ih request
  | move initializer _ hm ih => exact Sound.move ⟨config, search, initializer⟩ ih hm

end Machine

end ClassLoading
