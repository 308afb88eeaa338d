import Mathlib.Data.List.Nodup
import Mathlib.Logic.Relation
import ClassLoading.Proofs.Agreement
import ClassLoading.Proofs.ClassTables

/-! The changes a loader can undergo, whatever brings them about: its table of classes grows, a
name that has no slot takes a fresh one, a slot that is loading is filled, and a failed slot is
forgotten. A class is published only when it was made, that is, built from the loaded classes that
its blueprint depends on; and since no change takes a loaded class away or alters its fixed part,
every loaded class stays made for good. -/
namespace ClassLoading

namespace Loader

theorem findLoaded?_eq_some_iff {s : Loader} {name : String} {id : ClassId} :
    s.findLoaded? name = some id ↔
      ∃ slot, s.registry.lookup name = some slot ∧ s.slots[slot]? = some (.done (.ok id)) := by
  unfold findLoaded? slot?
  cases s.registry.lookup name with
  | none => simp
  | some slot =>
    simp only [Option.bind_some, Option.some.injEq, exists_eq_left']
    split <;> simp_all

/-! ### The registry -/

/-- The registry has one slot for a name, one name for a slot, and slots that exist. -/
structure Tidy (s : Loader) : Prop where
  names : (s.registry.map Prod.fst).Nodup
  slots : (s.registry.map Prod.snd).Nodup
  bound : ∀ name slot, (name, slot) ∈ s.registry → slot < s.slots.size

theorem tidy_empty : Tidy empty := ⟨List.nodup_nil, List.nodup_nil, nofun⟩

namespace Tidy

variable {s : Loader} {name other : String} {slot : SlotId}

theorem lookup_eq_some_iff (h : s.Tidy) :
    s.registry.lookup name = some slot ↔ (name, slot) ∈ s.registry := by
  constructor
  · intro hl
    obtain ⟨l, l', heq, -⟩ := List.lookup_eq_some_iff.1 hl
    simp [heq]
  · intro hm
    obtain ⟨l, l', heq⟩ := List.append_of_mem hm
    refine List.lookup_eq_some_iff.2 ⟨l, l', heq, fun e he => ?_⟩
    have hnames := h.names
    rw [heq, List.map_append, List.map_cons] at hnames
    have hne : e.1 ≠ name := fun heq =>
      List.disjoint_of_nodup_append hnames (List.mem_map_of_mem he) (by simp [heq])
    simpa using hne.symm

theorem name_eq_of_lookup (h : s.Tidy) (hn : s.registry.lookup name = some slot)
    (ho : s.registry.lookup other = some slot) : name = other := by
  rw [h.lookup_eq_some_iff] at hn ho
  have := List.inj_on_of_nodup_map h.slots hn ho rfl
  exact (Prod.mk.inj this).1

theorem slot_lt (h : s.Tidy) (hn : s.registry.lookup name = some slot) : slot < s.slots.size :=
  h.bound name slot (h.lookup_eq_some_iff.1 hn)

theorem lookup_of_slot?_none (h : s.Tidy) (hn : s.slot? name = none) :
    s.registry.lookup name = none := by
  cases hl : s.registry.lookup name with
  | none => rfl
  | some slot =>
    have := h.slot_lt hl
    simp [slot?, hl, this] at hn

theorem congr {t : Loader} (h : s.Tidy) (hr : t.registry = s.registry)
    (hs : t.slots = s.slots) : t.Tidy :=
  ⟨hr ▸ h.names, hr ▸ h.slots, by rw [hr, hs]; exact h.bound⟩

theorem acquire (h : s.Tidy) (hn : s.slot? name = none) (thread : ThreadId) :
    (s.acquire thread name).Tidy := by
  have hl := h.lookup_of_slot?_none hn
  constructor
  · refine List.nodup_cons.2 ⟨fun hm => ?_, h.names⟩
    obtain ⟨e, he, rfl⟩ := List.mem_map.1 hm
    rw [h.lookup_eq_some_iff.2 he] at hl
    cases hl
  · refine List.nodup_cons.2 ⟨fun hm => ?_, h.slots⟩
    obtain ⟨e, he, hsize⟩ := List.mem_map.1 hm
    exact Nat.ne_of_lt (h.bound e.1 e.2 he) hsize
  · intro n i hm
    simp only [Loader.acquire, Array.size_push]
    rcases List.mem_cons.1 hm with heq | hm
    · cases heq
      exact Nat.lt_succ_self _
    · exact Nat.lt_succ_of_lt (h.bound n i hm)

theorem publish (h : s.Tidy) (slot : SlotId) (result : Except LoadError ClassId) :
    (s.publish slot result).Tidy :=
  ⟨h.names, h.slots, by simpa [Loader.publish] using h.bound⟩

theorem forget (h : s.Tidy) (name : String) (slot : SlotId) : (s.forget name slot).Tidy :=
  ⟨h.names.sublist (List.filter_sublist.map _), h.slots.sublist (List.filter_sublist.map _),
    fun n i hm => h.bound n i (List.mem_of_mem_filter hm)⟩

theorem lookup_forget (h : s.Tidy) {i : SlotId} (hn : s.registry.lookup other = some i)
    (hi : i ≠ slot) : (s.forget name slot).registry.lookup other = some i := by
  rw [(h.forget name slot).lookup_eq_some_iff]
  refine List.mem_filter.2 ⟨h.lookup_eq_some_iff.1 hn, ?_⟩
  simp [hi]

theorem lookup_of_forget (h : s.Tidy) {i : SlotId}
    (hn : (s.forget name slot).registry.lookup other = some i) :
    s.registry.lookup other = some i := by
  rw [(h.forget name slot).lookup_eq_some_iff] at hn
  exact h.lookup_eq_some_iff.2 (List.mem_of_mem_filter hn)

end Tidy

/-! ### Changes -/

section

variable (config : LoaderConfig) (search : ClassSearch)

/-- The class at a place was built for a name, from the classes that its dependencies were loaded
as and from the classes that stood in the table before it. -/
def Made (s : Loader) (name : String) (id : ClassId) : Prop :=
  ∃ (past : ClassTable) (plan : Blueprint) (ids : List ClassId) (c : LoadedClass),
    past.size = id ∧ s.classes.Extends (past.push c) ∧
      Blueprint.ofName search name = .ok plan ∧
      List.Forall₂ (fun dependency i => s.findLoaded? dependency = some i ∧ i < id)
        plan.dependencies ids ∧
      plan.build config past name ids = .ok c

inductive Change : Loader → Loader → Prop
  | grow {s t : Loader} (registry : t.registry = s.registry) (slots : t.slots = s.slots)
      (classes : t.classes.Extends s.classes) : Change s t
  | acquire {s : Loader} (thread : ThreadId) {name : String} (free : s.slot? name = none) :
      Change s (s.acquire thread name)
  | publish {s : Loader} {name : String} {slot : SlotId} {result : Except LoadError ClassId}
      (own : s.LoadingAt name slot) (made : ∀ id, result = .ok id → s.Made config search name id) :
      Change s (s.publish slot result)
  | forget {s : Loader} (name : String) {slot : SlotId} {e : LoadError}
      (failed : s.slots[slot]? = some (.done (.error e))) : Change s (s.forget name slot)

/-- Any number of changes. -/
def Changes : Loader → Loader → Prop := Relation.ReflTransGen (Change config search)

/-- The registry is tidy and every loaded class was made. -/
structure Sound (s : Loader) : Prop extends Tidy s where
  made : ∀ name id, s.findLoaded? name = some id → s.Made config search name id

end

variable {config : LoaderConfig} {search : ClassSearch} {s t : Loader}

theorem sound_empty : Sound config search empty := ⟨tidy_empty, nofun⟩

namespace Change

theorem tidy (h : Change config search s t) (hs : s.Tidy) : t.Tidy := by
  cases h with
  | grow registry slots classes => exact hs.congr registry slots
  | acquire thread free => exact hs.acquire free thread
  | publish own made => exact hs.publish ..
  | forget name failed => exact hs.forget ..

theorem classes (h : Change config search s t) : t.classes.Extends s.classes := by
  cases h with
  | grow registry slots classes => exact classes
  | acquire thread free => exact .refl _
  | publish own made => exact .refl _
  | forget name failed => exact .refl _

theorem findLoaded? (h : Change config search s t) (hs : s.Tidy) {name : String} {id : ClassId}
    (hn : s.findLoaded? name = some id) : t.findLoaded? name = some id := by
  obtain ⟨i, hl, hi⟩ := findLoaded?_eq_some_iff.1 hn
  cases h with
  | grow registry slots classes =>
    exact findLoaded?_eq_some_iff.2 ⟨i, by rw [registry, hl], by rw [slots, hi]⟩
  | @acquire thread n free =>
    have hne : (name == n) = false := by
      rw [beq_eq_false_iff_ne]
      rintro rfl
      rw [hs.lookup_of_slot?_none free] at hl
      cases hl
    have hlt := hs.slot_lt hl
    refine findLoaded?_eq_some_iff.2 ⟨i, by simp [Loader.acquire, List.lookup_cons, hne, hl], ?_⟩
    simp only [Loader.acquire, Array.getElem?_push, Nat.ne_of_lt hlt, if_false, hi]
  | @publish _ slot _ own made =>
    have hne : slot ≠ i := by
      rintro rfl
      rw [own.2] at hi
      cases hi
    refine findLoaded?_eq_some_iff.2 ⟨i, hl, ?_⟩
    simp only [Loader.publish, Array.getElem?_setIfInBounds, hne, if_false, hi]
  | @forget n slot e failed =>
    have hne : i ≠ slot := by
      rintro rfl
      rw [failed] at hi
      cases hi
    exact findLoaded?_eq_some_iff.2 ⟨i, hs.lookup_forget hl hne, hi⟩

/-- A name that is loaded after a change was loaded before or has just been published. -/
theorem findLoaded?_or (h : Change config search s t) (hs : s.Tidy) {name : String} {id : ClassId}
    (hn : t.findLoaded? name = some id) :
    s.findLoaded? name = some id ∨ s.Made config search name id := by
  obtain ⟨i, hl, hi⟩ := findLoaded?_eq_some_iff.1 hn
  cases h with
  | grow registry slots classes =>
    exact .inl (findLoaded?_eq_some_iff.2 ⟨i, by rw [← registry, hl], by rw [← slots, hi]⟩)
  | @acquire thread n free =>
    left
    simp only [Loader.acquire, List.lookup_cons] at hl
    simp only [Loader.acquire, Array.getElem?_push] at hi
    split at hi
    · cases hi
    · next hne =>
      split at hl
      · cases hl
        exact absurd rfl hne
      · exact findLoaded?_eq_some_iff.2 ⟨i, hl, hi⟩
  | @publish n slot result own made =>
    simp only [Loader.publish, Array.getElem?_setIfInBounds] at hi
    split at hi
    · next heq =>
      subst heq
      rw [if_pos (hs.slot_lt own.1)] at hi
      cases hi
      rw [hs.name_eq_of_lookup hl own.1]
      exact .inr (made id rfl)
    · exact .inl (findLoaded?_eq_some_iff.2 ⟨i, hl, hi⟩)
  | @forget n slot e failed =>
    exact .inl (findLoaded?_eq_some_iff.2 ⟨i, hs.lookup_of_forget hl, hi⟩)

theorem made (h : Change config search s t) (hs : s.Tidy) {name : String} {id : ClassId}
    (hm : s.Made config search name id) : t.Made config search name id := by
  obtain ⟨past, plan, ids, c, hid, hext, hplan, hdeps, hbuild⟩ := hm
  refine ⟨past, plan, ids, c, hid, hext.trans h.classes, hplan, ?_, hbuild⟩
  exact hdeps.imp fun d i hd => ⟨h.findLoaded? hs hd.1, hd.2⟩

theorem sound (h : Change config search s t) (hs : s.Sound config search) :
    t.Sound config search := by
  refine ⟨h.tidy hs.toTidy, fun name id hn => ?_⟩
  rcases h.findLoaded?_or hs.toTidy hn with hn | hm
  · exact h.made hs.toTidy (hs.made name id hn)
  · exact h.made hs.toTidy hm

end Change

/-! ### Runs of changes -/

namespace Changes

variable {u : Loader}

theorem refl : Changes config search s s := Relation.ReflTransGen.refl

theorem of (h : Change config search s t) : Changes config search s t :=
  Relation.ReflTransGen.single h

theorem trans (h : Changes config search s t) (h' : Changes config search t u) :
    Changes config search s u := Relation.ReflTransGen.trans h h'

/-- What every change preserves in a tidy state is preserved by a run. -/
theorem preserves (h : Changes config search s t) {P : Loader → Prop} (hs : s.Tidy) (hp : P s)
    (hstep : ∀ u v, Change config search u v → u.Tidy → P u → P v) : P t ∧ t.Tidy := by
  induction h with
  | refl => exact ⟨hp, hs⟩
  | tail _ hlast ih => exact ⟨hstep _ _ hlast ih.2 ih.1, hlast.tidy ih.2⟩

theorem sound (h : Changes config search s t) (hs : s.Sound config search) :
    t.Sound config search :=
  (h.preserves hs.toTidy hs fun _ _ hc _ hp => hc.sound hp).1

theorem findLoaded? (h : Changes config search s t) (hs : s.Tidy) {name : String} {id : ClassId}
    (hn : s.findLoaded? name = some id) : t.findLoaded? name = some id :=
  (h.preserves hs hn fun _ _ hc hu hp => hc.findLoaded? hu hp).1

theorem made (h : Changes config search s t) (hs : s.Tidy) {name : String} {id : ClassId}
    (hm : s.Made config search name id) : t.Made config search name id :=
  (h.preserves hs hm fun _ _ hc hu hp => hc.made hu hp).1

theorem classes (h : Changes config search s t) : t.classes.Extends s.classes := by
  induction h with
  | refl => exact .refl _
  | tail _ hlast ih => exact ih.trans hlast.classes

end Changes

/-! ### Made classes -/

theorem Made.lt_size {name : String} {id : ClassId} (h : s.Made config search name id) :
    id < s.classes.size := by
  obtain ⟨past, plan, ids, c, rfl, hext, -⟩ := h
  have hle := hext.size_le
  rw [Array.size_push] at hle
  exact hle

theorem Sound.lt_size (hs : s.Sound config search) {name : String} {id : ClassId}
    (h : s.findLoaded? name = some id) : id < s.classes.size := (hs.made name id h).lt_size

/-- A class that is built from loaded classes and put at the end of the table is made. -/
theorem Sound.made_of_build (hs : s.Sound config search) {name : String} {plan : Blueprint}
    {ids : List ClassId} {c : LoadedClass} (hplan : Blueprint.ofName search name = .ok plan)
    (hids : List.Forall₂ (fun d i => s.findLoaded? d = some i) plan.dependencies ids)
    (hbuild : plan.build config s.classes name ids = .ok c) (ht : Changes config search s t)
    (hc : t.classes.Extends (s.classes.push c)) :
    t.Made config search name s.classes.size := by
  refine ⟨s.classes, plan, ids, c, rfl, hc, hplan, ?_, hbuild⟩
  exact hids.imp fun d i hd => ⟨ht.findLoaded? hs.toTidy hd, hs.lt_size hd⟩

end Loader

end ClassLoading
