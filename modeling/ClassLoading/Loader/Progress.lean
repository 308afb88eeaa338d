import ClassLoading.Loader.State

/-! What bounds the work of a loader. While a class loads, its name counts as loading, so a nested
load has one name less to descend into; and a class can be initialized only once, so every start of
an initialization uses up one of the classes that are loaded but not started or could still be
loaded. `Keeps` is the relation between the states before and after any operation on which both
bounds rest. -/
namespace ClassLoading

/-! ### Counting -/

theorem countP_lt_of_mem {α : Type} {p q : α → Bool} {l : List α} {a : α}
    (hpq : ∀ b ∈ l, p b = true → q b = true) (ha : a ∈ l) (hp : p a = false) (hq : q a = true) :
    l.countP p < l.countP q := by
  induction l with
  | nil => cases ha
  | cons b l ih =>
    have hle : l.countP p ≤ l.countP q :=
      List.countP_mono_left fun x hx => hpq x (List.mem_cons_of_mem _ hx)
    rw [List.countP_cons, List.countP_cons]
    rcases List.mem_cons.1 ha with rfl | hal
    · simp only [hp, hq]
      simp
      omega
    · have hlt := ih (fun x hx => hpq x (List.mem_cons_of_mem _ hx)) hal
      have hb := hpq b List.mem_cons_self
      split <;> split <;> first | omega | simp_all

theorem lookup_filter_ne {α β : Type} [BEq α] [LawfulBEq α] {l : List (α × β)} {k : α}
    {p : α × β → Bool} (h : ∀ b, (k, b) ∈ l → p (k, b) = true) :
    (l.filter p).lookup k = l.lookup k := by
  induction l with
  | nil => rfl
  | cons e l ih =>
    have ih := ih fun b hb => h b (List.mem_cons_of_mem _ hb)
    by_cases he : k == e.1
    · have hk : e = (k, e.2) := by rw [beq_iff_eq.1 he]
      have hp : p e = true := by rw [hk]; exact h _ (by rw [← hk]; exact List.mem_cons_self)
      rw [List.filter_cons_of_pos hp, List.lookup_cons, List.lookup_cons, he]
    · have hne : (k == e.1) = false := by simpa using he
      by_cases hp : p e = true
      · rw [List.filter_cons_of_pos hp, List.lookup_cons, List.lookup_cons, hne]
        exact ih
      · rw [List.filter_cons_of_neg hp, List.lookup_cons, hne]
        exact ih

namespace Loader

/-- The name is loading, in the given slot. -/
def LoadingAt (s : Loader) (name : String) (slot : SlotId) : Prop :=
  s.registry.lookup name = some slot ∧ s.slots[slot]? = some .loading

theorem LoadingAt.slot?_eq {s : Loader} {name : String} {slot : SlotId}
    (h : s.LoadingAt name slot) : s.slot? name = some .loading := by
  simp [slot?, h.1, h.2]

theorem isLoading_iff {s : Loader} {name : String} :
    s.isLoading name = true ↔ ∃ slot, s.LoadingAt name slot := by
  constructor
  · intro h
    unfold isLoading at h
    split at h
    · next hs =>
      obtain ⟨slot, hl, hs⟩ := Option.bind_eq_some_iff.1 hs
      exact ⟨slot, hl, hs⟩
    · cases h
  · rintro ⟨slot, h⟩
    simp [isLoading, h.slot?_eq]

/-- Names of the search that a nested load can still descend into. -/
def available (names : List String) (s : Loader) : Nat := names.countP fun name => !s.isLoading name

def isUnstarted (c : LoadedClass) : Bool := c.initStatus == .notStarted

/-- Initializations that can still start: of classes that are loaded and not started, and of names
that are not loaded. -/
def potential (names : List String) (s : Loader) : Nat :=
  names.countP (fun name => (s.findLoaded? name).isNone) + s.classes.countP isUnstarted

/-- Every name that is loading stays so, and no initialization becomes possible that was not. -/
structure Keeps (names : List String) (s t : Loader) : Prop where
  loading : ∀ name slot, s.LoadingAt name slot → t.LoadingAt name slot
  potential : t.potential names ≤ s.potential names

namespace Keeps

variable {names : List String} {s t u : Loader}

theorem refl (names : List String) (s : Loader) : Keeps names s s := ⟨fun _ _ h => h, Nat.le_refl _⟩

theorem trans (h : Keeps names s t) (h' : Keeps names t u) : Keeps names s u :=
  ⟨fun n i hs => h'.loading n i (h.loading n i hs), Nat.le_trans h'.potential h.potential⟩

theorem available_le (h : Keeps names s t) : t.available names ≤ s.available names := by
  refine List.countP_mono_left fun n _ hn => ?_
  simp only [Bool.not_eq_true'] at hn ⊢
  refine Bool.eq_false_iff.2 fun hs => Bool.eq_false_iff.1 hn ?_
  obtain ⟨i, hi⟩ := isLoading_iff.1 hs
  exact isLoading_iff.2 ⟨i, h.loading n i hi⟩

/-- The registry and its slots decide both bounds, together with the statuses of the classes. -/
theorem of_eq (hr : t.registry = s.registry) (hs : t.slots = s.slots)
    (hc : t.classes.countP isUnstarted ≤ s.classes.countP isUnstarted) : Keeps names s t := by
  refine ⟨fun n i h => ?_, ?_⟩
  · exact ⟨by rw [hr]; exact h.1, by rw [hs]; exact h.2⟩
  · have hf : ∀ n, t.findLoaded? n = s.findLoaded? n := by
      intro n
      simp [findLoaded?, slot?, hr, hs]
    simp only [Loader.potential, hf]
    omega

end Keeps

/-! ### Classes -/

theorem countP_modify_le {l : List LoadedClass} {i : Nat} {f : LoadedClass → LoadedClass}
    (hf : ∀ c, isUnstarted (f c) = true → isUnstarted c = true) :
    (l.modify i f).countP isUnstarted ≤ l.countP isUnstarted := by
  induction l generalizing i with
  | nil => simp
  | cons c l ih =>
    cases i with
    | zero =>
      have := hf c
      simp only [List.modify_zero_cons, List.countP_cons]
      split <;> split <;> simp_all
    | succ i =>
      have := ih (i := i)
      simp only [List.modify_succ_cons, List.countP_cons]
      omega

theorem countP_modify_lt {l : List LoadedClass} {i : Nat} {f : LoadedClass → LoadedClass}
    {c : LoadedClass} (hi : l[i]? = some c) (hc : isUnstarted c = true)
    (hf : isUnstarted (f c) = false) :
    (l.modify i f).countP isUnstarted < l.countP isUnstarted := by
  induction l generalizing i with
  | nil => simp at hi
  | cons d l ih =>
    cases i with
    | zero =>
      cases hi
      simp [hc, hf]
    | succ i =>
      have := ih hi
      simp only [List.modify_succ_cons, List.countP_cons]
      omega

/-- Changing a class keeps the bounds unless it takes back the start of an initialization. -/
theorem Keeps.updateClass {names : List String} {s : Loader} {id : ClassId}
    {f : LoadedClass → LoadedClass}
    (hf : ∀ c, isUnstarted (f c) = true → isUnstarted c = true) :
    Keeps names s (s.updateClass id f) := by
  refine .of_eq rfl rfl ?_
  simp only [← Array.countP_toList, Loader.updateClass, Array.toList_modify]
  exact countP_modify_le hf

/-- The start of an initialization lowers the bound. -/
theorem potential_updateClass_lt {names : List String} {s : Loader} {id : ClassId}
    {f : LoadedClass → LoadedClass} {c : LoadedClass} (hi : s.classes[id]? = some c)
    (hc : isUnstarted c = true) (hf : isUnstarted (f c) = false) :
    (s.updateClass id f).potential names < s.potential names := by
  have hlt : (s.updateClass id f).classes.countP isUnstarted < s.classes.countP isUnstarted := by
    simp only [← Array.countP_toList, Loader.updateClass, Array.toList_modify]
    exact countP_modify_lt (by simpa using hi) hc hf
  have hf : ∀ n, (s.updateClass id f).findLoaded? n = s.findLoaded? n := fun _ => rfl
  simp only [Loader.potential, hf]
  omega

theorem pooledObject_fields (s : Loader) (classClass id : ClassId) (name : String) :
    (s.pooledObject classClass id name).2.registry = s.registry ∧
      (s.pooledObject classClass id name).2.slots = s.slots ∧
      (s.pooledObject classClass id name).2.classes = s.classes := by
  unfold pooledObject
  split <;> exact ⟨rfl, rfl, rfl⟩

theorem attachObject_registry (s : Loader) (classClass id : ClassId) :
    (s.attachObject classClass id).registry = s.registry := by
  unfold attachObject
  split
  · rfl
  · exact (pooledObject_fields ..).1

theorem attachObject_slots (s : Loader) (classClass id : ClassId) :
    (s.attachObject classClass id).slots = s.slots := by
  unfold attachObject
  split
  · rfl
  · exact (pooledObject_fields ..).2.1

theorem attachObject_countP_le (s : Loader) (classClass id : ClassId) :
    (s.attachObject classClass id).classes.countP isUnstarted ≤
      s.classes.countP isUnstarted := by
  unfold attachObject
  split
  · exact Nat.le_refl _
  · simp only [← Array.countP_toList, Loader.updateClass, Array.toList_modify,
      (pooledObject_fields ..).2.2]
    exact countP_modify_le fun _ h => h

theorem Keeps.attachObject {names : List String} {s : Loader} {classClass id : ClassId} :
    Keeps names s (s.attachObject classClass id) :=
  .of_eq (attachObject_registry ..) (attachObject_slots ..) (attachObject_countP_le ..)

theorem addClass_registry (s : Loader) (c : LoadedClass) :
    (s.addClass c).registry = s.registry := by
  unfold addClass attachIfReady
  split
  · exact attachObject_registry ..
  · rfl

theorem addClass_slots (s : Loader) (c : LoadedClass) : (s.addClass c).slots = s.slots := by
  unfold addClass attachIfReady
  split
  · exact attachObject_slots ..
  · rfl

theorem addClass_countP_le (s : Loader) (c : LoadedClass) :
    (s.addClass c).classes.countP isUnstarted ≤
      s.classes.countP isUnstarted + if isUnstarted c then 1 else 0 := by
  rw [← Array.countP_push]
  unfold addClass attachIfReady
  split
  · exact attachObject_countP_le ..
  · exact Nat.le_refl _

/-! ### Loads -/

theorem acquire_loadingAt (s : Loader) (thread : ThreadId) (name : String) :
    (s.acquire thread name).LoadingAt name s.slots.size := by
  simp [LoadingAt, acquire]

theorem LoadingAt.acquire {s : Loader} {thread : ThreadId} {name n : String} {i : SlotId}
    (h : s.LoadingAt n i) (hne : n ≠ name) : (s.acquire thread name).LoadingAt n i := by
  have hi : i < s.slots.size := by
    obtain ⟨hi, _⟩ := Array.getElem?_eq_some_iff.1 h.2
    exact hi
  have hb : (n == name) = false := by simpa using hne
  refine ⟨by simp [Loader.acquire, List.lookup_cons, hb, h.1], ?_⟩
  simp only [Loader.acquire, Array.getElem?_push]
  rw [if_neg (Nat.ne_of_lt hi)]
  exact h.2

theorem ne_of_slot?_none {s : Loader} {name n : String} {i : SlotId} (hs : s.slot? name = none)
    (h : s.LoadingAt n i) : n ≠ name := by
  rintro rfl
  rw [h.slot?_eq] at hs
  cases hs

theorem findLoaded?_acquire_isSome {s : Loader} {thread : ThreadId} {name n : String}
    (hs : s.slot? name = none) (h : (s.findLoaded? n).isSome) :
    ((s.acquire thread name).findLoaded? n).isSome := by
  have hne : n ≠ name := by
    rintro rfl
    simp [findLoaded?, hs] at h
  have hb : (n == name) = false := by simpa using hne
  have hslot : (s.acquire thread name).slot? n = s.slot? n := by
    cases hl : s.registry.lookup n with
    | none => simp [slot?, acquire, List.lookup_cons, hb, hl]
    | some i =>
      have hi : i < s.slots.size := by
        rcases Nat.lt_or_ge i s.slots.size with hi | hi
        · exact hi
        · simp [findLoaded?, slot?, hl, Array.getElem?_eq_none hi] at h
      simp only [slot?, acquire, List.lookup_cons, hb, hl, Option.bind_some, Array.getElem?_push]
      rw [if_neg (Nat.ne_of_lt hi)]
  simpa [findLoaded?, hslot] using h

/-- Fewer names count as not loaded when every loaded name stays loaded. -/
theorem countP_isNone_le {names : List String} {s t : Loader}
    (h : ∀ n, (s.findLoaded? n).isSome → (t.findLoaded? n).isSome) :
    names.countP (fun n => (t.findLoaded? n).isNone) ≤
      names.countP fun n => (s.findLoaded? n).isNone := by
  refine List.countP_mono_left fun n _ hn => ?_
  cases hs : s.findLoaded? n with
  | none => rfl
  | some id =>
    have := h n (by simp [hs])
    simp_all

theorem Keeps.acquire {names : List String} {s : Loader} {thread : ThreadId} {name : String}
    (hs : s.slot? name = none) : Keeps names s (s.acquire thread name) := by
  refine ⟨fun n i h => h.acquire (ne_of_slot?_none hs h), ?_⟩
  exact Nat.add_le_add_right
    (countP_isNone_le fun n h => findLoaded?_acquire_isSome hs h) _

theorem Keeps.noteLookup {names : List String} {s : Loader} {name : String} :
    Keeps names s (s.noteLookup name) := by
  unfold Loader.noteLookup
  split
  · exact .of_eq rfl rfl (Nat.le_refl _)
  · exact .refl ..

theorem noteLookup_loadingAt {s : Loader} {name n : String} {i : SlotId}
    (h : s.LoadingAt n i) : (s.noteLookup name).LoadingAt n i :=
  (@Keeps.noteLookup [] s name).loading n i h

/-- A name of the search that starts to load is no longer available. -/
theorem available_acquire_lt {names : List String} {s : Loader} {thread : ThreadId}
    {name : String} (hs : s.slot? name = none) (hm : name ∈ names) :
    ((s.acquire thread name).noteLookup name).available names < s.available names := by
  have hk : Keeps names s ((s.acquire thread name).noteLookup name) :=
    (Keeps.acquire hs).trans .noteLookup
  refine countP_lt_of_mem (a := name) (fun n _ hn => ?_) hm ?_ ?_
  · simp only [Bool.not_eq_true'] at hn ⊢
    refine Bool.eq_false_iff.2 fun h => Bool.eq_false_iff.1 hn ?_
    obtain ⟨i, hi⟩ := isLoading_iff.1 h
    exact isLoading_iff.2 ⟨i, hk.loading n i hi⟩
  · simp only [Bool.not_eq_false']
    exact isLoading_iff.2 ⟨_, noteLookup_loadingAt (acquire_loadingAt s thread name)⟩
  · simp [isLoading, hs]

theorem LoadingAt.publish {s : Loader} {n : String} {i slot : SlotId}
    {result : Except LoadError ClassId} (h : s.LoadingAt n i) (hne : i ≠ slot) :
    (s.publish slot result).LoadingAt n i := by
  refine ⟨h.1, ?_⟩
  simp only [Loader.publish, Array.getElem?_setIfInBounds]
  rw [if_neg (Ne.symm hne)]
  exact h.2

theorem LoadingAt.forget {s : Loader} {name n : String} {i slot : SlotId}
    (h : s.LoadingAt n i) (hne : n ≠ name) : (s.forget name slot).LoadingAt n i := by
  refine ⟨?_, h.2⟩
  simp only [Loader.forget]
  rw [lookup_filter_ne fun b _ => by simp [hne], h.1]

/-- Publishing into a slot that was loading leaves every loaded name loaded. -/
theorem findLoaded?_publish_isSome {s : Loader} {n : String} {slot : SlotId}
    {result : Except LoadError ClassId} (hs : s.slots[slot]? = some .loading)
    (h : (s.findLoaded? n).isSome) : ((s.publish slot result).findLoaded? n).isSome := by
  cases hl : s.registry.lookup n with
  | none => simp [findLoaded?, slot?, hl] at h
  | some i =>
    have hne : slot ≠ i := by
      rintro rfl
      simp [findLoaded?, slot?, hl, hs] at h
    have hslot : (s.publish slot result).slot? n = s.slot? n := by
      simp only [slot?, Loader.publish, hl, Option.bind_some, Array.getElem?_setIfInBounds]
      rw [if_neg hne]
    simpa [findLoaded?, hslot] using h

theorem findLoaded?_forget_isSome {s : Loader} {name n : String} {slot : SlotId}
    (hs : (s.findLoaded? name) = none) (h : (s.findLoaded? n).isSome) :
    ((s.forget name slot).findLoaded? n).isSome := by
  have hne : n ≠ name := by
    rintro rfl
    simp [hs] at h
  have hslot : (s.forget name slot).slot? n = s.slot? n := by
    simp only [slot?, Loader.forget]
    rw [lookup_filter_ne fun b _ => by simp [hne]]
  simpa [findLoaded?, hslot] using h

theorem findLoaded?_release (s : Loader) (name n : String) :
    (s.release name).findLoaded? n = s.findLoaded? n := rfl

theorem LoadingAt.release {s : Loader} {name n : String} {i : SlotId} (h : s.LoadingAt n i) :
    (s.release name).LoadingAt n i := h

/-- A load that fails leaves every loaded name loaded. -/
theorem findLoaded?_complete_error {s : Loader} {name n : String} {slot : SlotId} {e : LoadError}
    (hown : s.LoadingAt name slot) (h : (s.findLoaded? n).isSome) :
    ((s.complete name slot (.error e)).2.findLoaded? n).isSome := by
  have hlt : slot < s.slots.size := (Array.getElem?_eq_some_iff.1 hown.2).1
  have hp : (s.publish slot (.error e)).findLoaded? name = none := by
    simp [findLoaded?, slot?, Loader.publish, hown.1, Array.getElem?_setIfInBounds, hlt]
  simp only [Loader.complete, findLoaded?_release]
  exact findLoaded?_forget_isSome hp (findLoaded?_publish_isSome hown.2 h)

theorem LoadingAt.addClass {s : Loader} {c : LoadedClass} {n : String} {i : SlotId}
    (h : s.LoadingAt n i) : (s.addClass c).LoadingAt n i :=
  ⟨by rw [addClass_registry]; exact h.1, by rw [addClass_slots]; exact h.2⟩

theorem findLoaded?_addClass (s : Loader) (c : LoadedClass) (n : String) :
    (s.addClass c).findLoaded? n = s.findLoaded? n := by
  simp only [findLoaded?, slot?, addClass_registry, addClass_slots]

/-- A load that succeeds leaves every loaded name loaded and adds its own. -/
theorem findLoaded?_complete_ok {s : Loader} {name n : String} {slot : SlotId} {c : LoadedClass}
    (hown : s.LoadingAt name slot) (h : n = name ∨ (s.findLoaded? n).isSome) :
    ((s.complete name slot (.ok c)).2.findLoaded? n).isSome := by
  rcases h with rfl | h
  · have hlt : slot < s.slots.size := (Array.getElem?_eq_some_iff.1 hown.2).1
    simp [findLoaded?, slot?, Loader.complete, Loader.publish, Loader.release, addClass_registry,
      addClass_slots, hown.1, Array.getElem?_setIfInBounds, hlt]
  · rw [← findLoaded?_addClass s c] at h
    simp only [Loader.complete, findLoaded?_release]
    exact findLoaded?_publish_isSome hown.addClass.2 h

theorem LoadingAt.complete {s : Loader} {name n : String} {i slot : SlotId}
    (h : s.LoadingAt n i) (hn : n ≠ name) (hi : i ≠ slot) (r : Except LoadError LoadedClass) :
    (s.complete name slot r).2.LoadingAt n i := by
  cases r with
  | error e => exact ((h.publish hi).forget hn).release
  | ok c => exact (h.addClass.publish hi).release

/-- Ending a load keeps the bounds of the state before it: the new class takes the place that its
name had among those not loaded. -/
theorem potential_complete_le {names : List String} {s : Loader} {name : String} {slot : SlotId}
    (hown : s.LoadingAt name slot) (r : Except LoadError LoadedClass)
    (hn : ∀ c, r = .ok c → isUnstarted c = true → name ∈ names) :
    (s.complete name slot r).2.potential names ≤ s.potential names := by
  cases r with
  | error e =>
    exact Nat.add_le_add_right
      (countP_isNone_le fun n h => findLoaded?_complete_error hown h) _
  | ok c =>
    have hcount : (s.complete name slot (.ok c)).2.classes.countP isUnstarted ≤
        s.classes.countP isUnstarted + if isUnstarted c then 1 else 0 := addClass_countP_le s c
    unfold Loader.potential
    cases hc : isUnstarted c with
    | false =>
      rw [hc] at hcount
      exact Nat.add_le_add
        (countP_isNone_le fun n h => findLoaded?_complete_ok hown (.inr h)) hcount
    | true =>
      rw [hc] at hcount
      have hlt : names.countP (fun n =>
          ((s.complete name slot (.ok c)).2.findLoaded? n).isNone) <
            names.countP fun n => (s.findLoaded? n).isNone := by
        refine countP_lt_of_mem (fun n _ h => ?_) (hn c rfl hc) ?_ ?_
        · cases hf : s.findLoaded? n with
          | none => rfl
          | some id =>
            have := findLoaded?_complete_ok (c := c) (n := n) hown (.inr (by simp [hf]))
            simp_all
        · have := findLoaded?_complete_ok (c := c) (n := name) hown (.inl rfl)
          simpa [Option.isNone_iff_eq_none, Option.isSome_iff_ne_none] using this
        · simp [findLoaded?, hown.slot?_eq]
      simp only [if_true] at hcount
      omega

theorem Keeps.complete {names : List String} {s t : Loader} {name : String} {thread : ThreadId}
    {r : Except LoadError LoadedClass} (hs : s.slot? name = none)
    (hk : Keeps names ((s.acquire thread name).noteLookup name) t)
    (hn : ∀ c, r = .ok c → isUnstarted c = true → name ∈ names) :
    Keeps names s (t.complete name s.slots.size r).2 := by
  have hst : Keeps names s t := ((Keeps.acquire hs).trans .noteLookup).trans hk
  have hown : t.LoadingAt name s.slots.size :=
    hk.loading _ _ (noteLookup_loadingAt (acquire_loadingAt s thread name))
  refine ⟨fun n i h => ?_, Nat.le_trans (potential_complete_le hown r hn) hst.potential⟩
  have hi : i ≠ s.slots.size := Nat.ne_of_lt (Array.getElem?_eq_some_iff.1 h.2).1
  exact (hst.loading n i h).complete (ne_of_slot?_none hs h) hi r

end Loader

end ClassLoading
