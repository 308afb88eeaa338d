import ClassLoading.Proofs.Histories

/-! What an operation does to the registry as a whole. A load, whether it succeeds or fails, leaves
every slot of the registry as it was, except that names without a slot may have become loaded: it
leaves nothing loading and nothing failed behind. So between requests a loader is at rest: all that
is registered is loaded, and no thread is in flight. -/
namespace ClassLoading

namespace Loader

variable {config : LoaderConfig} {search : ClassSearch} {s t u : Loader}

/-! ### Slots by name -/

theorem slot?_eq_some_iff {name : String} {x : Slot} :
    s.slot? name = some x ↔ ∃ slot, s.registry.lookup name = some slot ∧ s.slots[slot]? = some x :=
  Option.bind_eq_some_iff

theorem slot?_congr (hr : t.registry = s.registry) (hs : t.slots = s.slots) (name : String) :
    t.slot? name = s.slot? name := by
  rw [slot?, slot?, hr, hs]

theorem slot?_addClass (s : Loader) (c : LoadedClass) (name : String) :
    (s.addClass c).slot? name = s.slot? name :=
  slot?_congr (addClass_registry ..) (addClass_slots ..) name

theorem slot?_noteLookup (s : Loader) (n name : String) :
    (s.noteLookup n).slot? name = s.slot? name := by
  unfold noteLookup
  split <;> rfl

theorem slot?_acquire (hs : s.Tidy) {name : String} (thread : ThreadId) (n : String) :
    (s.acquire thread name).slot? n = if n = name then some .loading else s.slot? n := by
  by_cases hn : n = name
  · subst hn
    simp [slot?, acquire]
  · have hb : (n == name) = false := by simpa using hn
    rw [if_neg hn]
    cases hl : s.registry.lookup n with
    | none => simp [slot?, acquire, List.lookup_cons, hb, hl]
    | some i =>
      have hi := hs.slot_lt hl
      simp [slot?, acquire, List.lookup_cons, hb, hl, Array.getElem?_push, Nat.ne_of_lt hi]

theorem slot?_publish (hs : s.Tidy) {name : String} {slot : SlotId} (own : s.LoadingAt name slot)
    (result : Except LoadError ClassId) (n : String) :
    (s.publish slot result).slot? n = if n = name then some (.done result) else s.slot? n := by
  have hlt : slot < s.slots.size := (Array.getElem?_eq_some_iff.1 own.2).1
  by_cases hn : n = name
  · subst hn
    simp [slot?, publish, own.1, hlt]
  · rw [if_neg hn]
    cases hl : s.registry.lookup n with
    | none => simp [slot?, publish, hl]
    | some i =>
      have hne : slot ≠ i := by
        rintro rfl
        exact hn (hs.name_eq_of_lookup hl own.1)
      simp [slot?, publish, hl, hne]

theorem slot?_forget (hs : s.Tidy) {name : String} {slot : SlotId}
    (hl : s.registry.lookup name = some slot) (n : String) :
    (s.forget name slot).slot? n = if n = name then none else s.slot? n := by
  have hf := hs.forget name slot
  by_cases hn : n = name
  · subst hn
    rw [if_pos rfl, Option.eq_none_iff_forall_not_mem]
    intro x hx
    obtain ⟨i, hi, -⟩ := slot?_eq_some_iff.1 hx
    have hmem := hf.lookup_eq_some_iff.1 hi
    have heq : i = slot := by
      have := hs.lookup_eq_some_iff.2 (List.mem_of_mem_filter hmem)
      rw [hl] at this
      exact (Option.some.inj this).symm
    subst heq
    simp [forget] at hmem
  · rw [if_neg hn]
    have hlookup : (s.forget name slot).registry.lookup n = s.registry.lookup n := by
      simp only [forget]
      exact lookup_filter_ne fun b _ => by simp [hn]
    rw [slot?, slot?, hlookup]
    rfl

/-- The slot that a load leaves to its name. -/
def settledSlot (s : Loader) : Except LoadError LoadedClass → Option Slot
  | .ok _ => some (.done (.ok s.classes.size))
  | .error _ => none

theorem slot?_complete (hs : s.Tidy) {name : String} {slot : SlotId} (own : s.LoadingAt name slot)
    (r : Except LoadError LoadedClass) (n : String) :
    (s.complete name slot r).2.slot? n = if n = name then s.settledSlot r else s.slot? n := by
  cases r with
  | error e =>
    have hp := hs.publish slot (.error e)
    have heq : (s.complete name slot (.error e)).2.slot? n =
        ((s.publish slot (.error e)).forget name slot).slot? n := rfl
    rw [heq, slot?_forget hp own.1, slot?_publish hs own]
    by_cases hn : n = name <;> simp [hn, settledSlot]
  | ok c =>
    have ha : (s.addClass c).Tidy := hs.congr (addClass_registry ..) (addClass_slots ..)
    have heq : (s.complete name slot (.ok c)).2.slot? n =
        ((s.addClass c).publish slot (.ok s.classes.size)).slot? n := rfl
    rw [heq, slot?_publish ha own.addClass, slot?_addClass]
    rfl

/-! ### Settling -/

/-- Every slot of the registry is as it was, but names without one may have become loaded. -/
def Settles (s t : Loader) : Prop :=
  ∀ name, t.slot? name = s.slot? name ∨
    s.slot? name = none ∧ ∃ id, t.slot? name = some (.done (.ok id))

theorem Settles.refl (s : Loader) : Settles s s := fun _ => .inl rfl

theorem Settles.trans (h : Settles s t) (h' : Settles t u) : Settles s u := by
  intro name
  rcases h name with heq | ⟨hnone, id, hid⟩
  · rw [← heq]
    exact h' name
  · rcases h' name with heq' | ⟨hnone', -⟩
    · exact .inr ⟨hnone, id, heq'.trans hid⟩
    · rw [hid] at hnone'
      cases hnone'

theorem Settles.of_eq (hr : t.registry = s.registry) (hs : t.slots = s.slots) : Settles s t :=
  fun name => .inl (slot?_congr hr hs name)

theorem Settles.loading_iff (h : Settles s t) (name : String) :
    t.slot? name = some .loading ↔ s.slot? name = some .loading := by
  rcases h name with heq | ⟨hnone, id, hid⟩
  · rw [heq]
  · rw [hnone, hid]
    exact ⟨nofun, nofun⟩

/-- No load that failed is left in the registry. -/
def Clean (s : Loader) : Prop := ∀ name e, s.slot? name ≠ some (.done (.error e))

theorem Settles.clean (h : Settles s t) (hs : s.Clean) : t.Clean := by
  intro name e he
  rcases h name with heq | ⟨-, id, hid⟩
  · exact hs name e (heq ▸ he)
  · rw [hid] at he
    cases he

/-- A load that has come to its end settles its name, whatever it has loaded in between. -/
theorem Settles.complete {name : String} {thread : ThreadId} (hs : s.Tidy) (ht : t.Tidy)
    (free : s.slot? name = none) (own : t.LoadingAt name s.slots.size)
    (h : Settles ((s.acquire thread name).noteLookup name) t)
    (r : Except LoadError LoadedClass) :
    Settles s (t.complete name s.slots.size r).2 := by
  intro n
  rw [slot?_complete ht own]
  by_cases hn : n = name
  · rw [if_pos hn, hn]
    cases r with
    | error e => exact .inl free.symm
    | ok c => exact .inr ⟨free, _, rfl⟩
  · have hstart : ((s.acquire thread name).noteLookup name).slot? n = s.slot? n := by
      rw [slot?_noteLookup, slot?_acquire hs, if_neg hn]
    rw [if_neg hn, ← hstart]
    exact h n

theorem load_settles (env : Environment) :
    (∀ s name, s.Sound env.config env.search → Settles s (s.load env name).2) ∧
      ∀ s names, s.Sound env.config env.search → Settles s (s.loadAll env names).2 := by
  apply load_induct env
  case done =>
    intro s name r hs _
    rw [load_of_done hs]
    exact .refl s
  case loading =>
    intro s name hs _
    rw [load_of_loading hs]
    exact .refl s
  case unknown =>
    intro s name e free he hs
    rw [load_of_blueprint_error free he]
    have ht := (Changes.acquire env.config env.search free mainThread).sound hs
    have own : ((s.acquire mainThread name).noteLookup name).LoadingAt name s.slots.size :=
      noteLookup_loadingAt (acquire_loadingAt ..)
    exact .complete hs.toTidy ht.toTidy free own (.refl _) _
  case known =>
    intro s name plan free hplan hdeps hs
    rw [load_of_blueprint free hplan]
    have hstart := (Changes.acquire env.config env.search free mainThread).sound hs
    have ht := (hstart.loadAll env plan.dependencies).changes.sound hstart
    exact .complete hs.toTidy ht.toTidy free (loadingAt_loadAll ..) (hdeps hstart) _
  case nil =>
    intro s _
    rw [loadAll_nil]
    exact .refl s
  case cons =>
    intro s name rest hname hrest hs
    have hload := hs.load env name
    replace hname := hname hs
    rw [loadAll_cons]
    cases hl : s.load env name with
    | mk r t =>
    rw [hl] at hname hload
    cases r with
    | error e => exact hname
    | ok id => exact hname.trans (hrest id t hl (hload.changes.sound hs))

theorem Sound.load_settles (env : Environment) (hs : s.Sound env.config env.search)
    (name : String) : Settles s (s.load env name).2 := (Loader.load_settles env).1 s name hs

theorem Sound.loadAll_settles (env : Environment) (hs : s.Sound env.config env.search)
    (names : List String) : Settles s (s.loadAll env names).2 :=
  (Loader.load_settles env).2 s names hs

/-! ### Ownership -/

/-- Only names that are loading have an owner. -/
def Manned (s : Loader) : Prop := ∀ entry ∈ s.inFlight.owners, s.slot? entry.1 = some .loading

theorem Manned.of_settles (hm : s.Manned) (h : Settles s t) (heq : t.inFlight = s.inFlight) :
    t.Manned := fun entry he => (h.loading_iff _).2 (hm entry (heq ▸ he))

theorem inFlight_acquire (s : Loader) (thread : ThreadId) (name : String) :
    ((s.acquire thread name).noteLookup name).inFlight = s.inFlight.start thread name := by
  unfold noteLookup
  split <;> rfl

theorem Manned.acquire (hm : s.Manned) (hs : s.Tidy) {name : String} (thread : ThreadId) :
    ((s.acquire thread name).noteLookup name).Manned := by
  intro entry he
  rw [inFlight_acquire] at he
  rw [slot?_noteLookup, slot?_acquire hs]
  split
  · rfl
  · next hne =>
    rcases List.mem_cons.1 he with rfl | he
    · exact absurd rfl hne
    · exact hm entry (List.mem_of_mem_filter he)

theorem inFlight_attachObject (s : Loader) (classClass id : ClassId) :
    (s.attachObject classClass id).inFlight = s.inFlight := by
  unfold attachObject
  split
  · rfl
  · simp only [updateClass, pooledObject]
    split <;> rfl

theorem inFlight_addClass (s : Loader) (c : LoadedClass) :
    (s.addClass c).inFlight = s.inFlight := by
  unfold addClass attachIfReady
  split
  · exact inFlight_attachObject ..
  · rfl

theorem inFlight_complete (s : Loader) (name : String) (slot : SlotId)
    (r : Except LoadError LoadedClass) :
    (s.complete name slot r).2.inFlight = s.inFlight.finish name := by
  cases r with
  | error e => rfl
  | ok c =>
    show (s.addClass c).inFlight.finish name = s.inFlight.finish name
    rw [inFlight_addClass]

/-- Ownership that was given to a name without an owner and taken back leaves no trace. -/
theorem Manned.finish_start (hm : s.Manned) {name : String} (free : s.slot? name = none)
    (thread : ThreadId) : (s.inFlight.start thread name).finish name = s.inFlight := by
  have hnone : ∀ entry ∈ s.inFlight.owners, (entry.1 != name) = true := by
    intro entry he
    refine bne_iff_ne.2 ?_
    rintro rfl
    rw [hm entry he] at free
    cases free
  simp only [InFlight.finish, InFlight.start, List.filter_cons, bne_self_eq_false]
  rw [List.filter_eq_self.2 hnone]
  simp [List.filter_eq_self.2 hnone]

theorem inFlight_load (env : Environment) :
    (∀ (s : Loader) (name : String), s.Sound env.config env.search → s.Manned →
      (s.load env name).2.inFlight = s.inFlight) ∧
    ∀ (s : Loader) (names : List String), s.Sound env.config env.search → s.Manned →
      (s.loadAll env names).2.inFlight = s.inFlight := by
  apply load_induct env
  case done =>
    intro s name r hs _ _
    rw [load_of_done hs]
  case loading =>
    intro s name hs _ _
    rw [load_of_loading hs]
  case unknown =>
    intro s name e free he hs hm
    rw [load_of_blueprint_error free he, inFlight_complete, inFlight_acquire,
      hm.finish_start free]
  case known =>
    intro s name plan free hplan hdeps hs hm
    have hsound := (Changes.acquire env.config env.search free mainThread).sound hs
    rw [load_of_blueprint free hplan, inFlight_complete, hdeps hsound (hm.acquire hs.toTidy _),
      inFlight_acquire, hm.finish_start free]
  case nil =>
    intro s _ _
    rw [loadAll_nil]
  case cons =>
    intro s name rest hname hrest hs hm
    have hload := hs.load env name
    have hsettles := hs.load_settles env name
    replace hname := hname hs hm
    rw [loadAll_cons]
    cases hl : s.load env name with
    | mk r t =>
    rw [hl] at hname hload hsettles
    cases r with
    | error e => exact hname
    | ok id =>
      have ht := hrest id t hl (hload.changes.sound hs) (hm.of_settles hsettles hname)
      exact ht.trans hname

/-! ### Rest -/

/-- What an operation of one thread does to a sound loader: it is a run of changes, it settles, and
all ownership is as it was. -/
def Finishes (config : LoaderConfig) (search : ClassSearch) (s t : Loader) : Prop :=
  s.Sound config search → s.Manned →
    Changes config search s t ∧ Settles s t ∧ t.inFlight = s.inFlight

namespace Finishes

theorem refl (s : Loader) : Finishes config search s s := fun _ _ => ⟨.refl, .refl s, rfl⟩

theorem trans (h : Finishes config search s t) (h' : Finishes config search t u) :
    Finishes config search s u := by
  intro hs hm
  obtain ⟨hc, hsettles, hflight⟩ := h hs hm
  obtain ⟨hc', hsettles', hflight'⟩ := h' (hc.sound hs) (hm.of_settles hsettles hflight)
  exact ⟨hc.trans hc', hsettles.trans hsettles', hflight'.trans hflight⟩

theorem of_grow (hr : t.registry = s.registry) (hs : t.slots = s.slots)
    (hc : t.classes.Extends s.classes) (hf : t.inFlight = s.inFlight) :
    Finishes config search s t := fun _ _ => ⟨.of (.grow hr hs hc), .of_eq hr hs, hf⟩

theorem updateClass (id : ClassId) {f : LoadedClass → LoadedClass}
    (hf : ∀ c, (f c).fixed = c.fixed) : Finishes config search s (s.updateClass id f) :=
  .of_grow rfl rfl (.modify _ fun c _ => hf c) rfl

theorem attachObject (s : Loader) (classClass id : ClassId) :
    Finishes config search s (s.attachObject classClass id) :=
  .of_grow (attachObject_registry ..) (attachObject_slots ..) (attachObject_extends _ _ _)
    (inFlight_attachObject ..)

theorem attachAll (s : Loader) (classClass : ClassId) :
    Finishes config search s (s.attachAll classClass) := by
  unfold Loader.attachAll
  generalize s.loadedNames.filterMap s.findLoaded? = ids
  induction ids generalizing s with
  | nil => exact refl s
  | cons id ids ih => exact (attachObject s classClass id).trans (ih _)

theorem load (env : Environment) (s : Loader) (name : String) :
    Finishes env.config env.search s (s.load env name).2 := fun hs hm =>
  ⟨(hs.load env name).changes, hs.load_settles env name, (inFlight_load env).1 s name hs hm⟩

theorem loadAll (env : Environment) (s : Loader) (names : List String) :
    Finishes env.config env.search s (s.loadAll env names).2 := fun hs hm =>
  ⟨(hs.loadAll env names).changes, hs.loadAll_settles env names,
    (inFlight_load env).2 s names hs hm⟩

theorem serve (env : Environment) (s : Loader) (request : Request) :
    Finishes env.config env.search s (s.serve env request) :=
  serve_induct env refl trans (load env) (fun _ id _ hf => .updateClass id hf)
    (fun _ _ => .of_grow rfl rfl (.refl _) rfl) attachObject s request

theorem bootstrap {env : Environment} (h : bootstrap env = .ok t) :
    Finishes env.config env.search empty t := by
  obtain ⟨classClass, s, ids, u, hload, hall, rfl⟩ := bootstrap_eq_ok h
  have hs : Finishes env.config env.search empty s := by
    have := load env empty classClassName
    rwa [hload] at this
  have hready : Finishes env.config env.search s { s with classClass := some classClass } :=
    .of_grow rfl rfl (.refl _) rfl
  have hu : Finishes env.config env.search { s with classClass := some classClass } u := by
    have := loadAll env { s with classClass := some classClass } primitiveNames
    rwa [hall] at this
  exact ((hs.trans hready).trans hu).trans (attachAll u classClass)

end Finishes

/-- All that is registered is loaded, and no thread is in flight. -/
structure AtRest (s : Loader) : Prop where
  loaded : ∀ name x, s.slot? name = some x → ∃ id, x = .done (.ok id)
  idle : s.inFlight = .empty

theorem AtRest.manned (h : s.AtRest) : s.Manned := by
  intro entry he
  rw [h.idle] at he
  cases he

theorem AtRest.clean (h : s.AtRest) : s.Clean := by
  intro name e he
  obtain ⟨id, hid⟩ := h.loaded name _ he
  cases hid

theorem AtRest.not_loading (h : s.AtRest) (name : String) : s.slot? name ≠ some .loading := by
  intro hloading
  obtain ⟨id, hid⟩ := h.loaded name _ hloading
  cases hid

theorem AtRest.finishes (h : s.AtRest) (hs : s.Sound config search)
    (hst : Finishes config search s t) : t.AtRest := by
  obtain ⟨-, hsettles, hflight⟩ := hst hs h.manned
  refine ⟨fun name x hx => ?_, hflight.trans h.idle⟩
  rcases hsettles name with heq | ⟨-, id, hid⟩
  · exact h.loaded name x (heq ▸ hx)
  · rw [hid] at hx
    exact ⟨id, (Option.some.inj hx).symm⟩

theorem atRest_empty : AtRest empty := ⟨nofun, rfl⟩

/-- A loader that answers one request after the other is at rest in between. -/
theorem History.atRest (h : History config search s) : s.AtRest := by
  induction h with
  | ready initializer h => exact atRest_empty.finishes sound_empty (Finishes.bootstrap h)
  | serve initializer request hs ih =>
    exact ih.finishes hs.sound (Finishes.serve ⟨config, search, initializer⟩ _ request)

end Loader

end ClassLoading
