import ClassLoading.Loader.Initialization

/-! What stays of a loaded class whatever happens to it, and what stays of a table of classes as it
grows. A class that is initialized, written to, linked or given its object keeps its fixed part, and
a later table extends an earlier one in that every class keeps its place and its fixed part. What is
read of a class to define another one, its name, flags and fields and those of its super classes, is
read of fixed parts only. -/
namespace ClassLoading

/-- The constant as it is before any class constant leads to a class. -/
def LoadedConstant.unlinked : LoadedConstant → LoadedConstant
  | .classRef name _ => .classRef name none
  | constant => constant

theorem LoadedConstant.unlinked_resolveTo (target : ClassId) (constant : LoadedConstant) :
    (constant.resolveTo target).unlinked = constant.unlinked := by
  unfold resolveTo
  split <;> rfl

namespace LoadedClass

/-- The class without anything that may change in it; of the static values only their number is
kept. -/
def fixed (c : LoadedClass) : LoadedClass :=
  { c with
    statics := Array.replicate c.statics.size .null
    constants := c.constants.map (·.unlinked)
    stage := .loaded
    initStatus := .notStarted
    classObject := none }

theorem fixed_startInit (c : LoadedClass) : c.startInit.fixed = c.fixed := rfl

theorem fixed_advance (c : LoadedClass) (stage : Stage) : (c.advance stage).fixed = c.fixed := rfl

theorem fixed_endInit (c : LoadedClass) (r : Except LoadError Unit) :
    (c.endInit r).fixed = c.fixed := by
  cases r <;> rfl

theorem fixed_setStatic? (c : LoadedClass) (slot : Nat) (value : Value) :
    ((c.setStatic? slot value).getD c).fixed = c.fixed := by
  unfold setStatic?
  split
  · simp [fixed]
  · rfl

theorem fixed_link (c : LoadedClass) (index : UInt16) (target : ClassId) :
    (c.link index target).fixed = c.fixed := by
  unfold link
  split
  · rfl
  · simp only [fixed, mk.injEq, true_and, and_true]
    apply Array.ext_getElem?
    intro i
    simp only [Array.getElem?_map, Array.getElem?_modify]
    split
    · simp [Function.comp_def, LoadedConstant.unlinked_resolveTo]
    · rfl

theorem statics_size_eq_of_fixed {c d : LoadedClass} (h : c.fixed = d.fixed) :
    c.statics.size = d.statics.size := by
  have := congrArg (fun c => c.statics.size) h
  simpa [fixed] using this

end LoadedClass

namespace ClassTable

/-! ### Tables that grow -/

/-- Every class of the earlier table has its place and its fixed part in the later one. -/
def Extends (now past : ClassTable) : Prop :=
  ∀ (id : ClassId) (c : LoadedClass),
    past[id]? = some c → ∃ d, now[id]? = some d ∧ d.fixed = c.fixed

namespace Extends

variable {past now later : ClassTable}

theorem refl (classes : ClassTable) : Extends classes classes := fun _ c h => ⟨c, h, rfl⟩

theorem trans (h : Extends now past) (h' : Extends later now) : Extends later past := by
  intro id c hc
  obtain ⟨d, hd, hdc⟩ := h id c hc
  obtain ⟨e, he, hed⟩ := h' id d hd
  exact ⟨e, he, hed.trans hdc⟩

theorem push (classes : ClassTable) (c : LoadedClass) : Extends (classes.push c) classes := by
  intro id d hd
  have hlt := (Array.getElem?_eq_some_iff.1 hd).1
  refine ⟨d, ?_, rfl⟩
  rw [Array.getElem?_push, if_neg (Nat.ne_of_lt hlt)]
  exact hd

theorem modify (classes : ClassTable) {id : ClassId} {f : LoadedClass → LoadedClass}
    (hf : ∀ c, classes[id]? = some c → (f c).fixed = c.fixed) :
    Extends (classes.modify id f) classes := by
  intro i c hc
  rw [Array.getElem?_modify]
  by_cases hi : id = i
  · subst hi
    exact ⟨f c, by simp [hc], hf c hc⟩
  · exact ⟨c, by simp [hi, hc], rfl⟩

theorem size_le (h : Extends now past) : past.size ≤ now.size := by
  refine Nat.le_of_not_lt fun hlt => ?_
  obtain ⟨d, hd, -⟩ := h now.size past[now.size] (by simp)
  simp at hd

/-- Below the size of the earlier table, the later one has the same fixed parts. -/
theorem map_fixed_eq (h : Extends now past) {id : ClassId} (hid : id < past.size) :
    now[id]?.map (·.fixed) = past[id]?.map (·.fixed) := by
  obtain ⟨d, hd, hfixed⟩ := h id past[id] (by simp [hid])
  simp [hd, hid, hfixed]

/-- Whatever is read of a fixed part is the same in both tables. -/
theorem map_eq (h : Extends now past) {id : ClassId} (hid : id < past.size) {α : Type}
    (f : LoadedClass → α) (hf : ∀ c, f c.fixed = f c) : now[id]?.map f = past[id]?.map f := by
  have := congrArg (Option.map f) (h.map_fixed_eq hid)
  simpa [Function.comp_def, hf] using this

theorem superClass_eq (h : Extends now past) {id : ClassId} (hid : id < past.size) :
    now[id]?.bind (·.superClass) = past[id]?.bind (·.superClass) := by
  obtain ⟨d, hd, hfixed⟩ := h id past[id] (by simp [hid])
  have : d.superClass = past[id].superClass := congrArg (·.superClass) hfixed
  simp [hd, hid, this]

end Extends

/-! ### Super classes -/

theorem superChain_of_some {classes : ClassTable} {id parent : ClassId}
    (h : classes[id]?.bind (·.superClass) = some parent) (hlt : parent < id) :
    classes.superChain id = id :: classes.superChain parent := by
  rw [superChain, h]
  simp [hlt]

theorem superChain_of_none {classes : ClassTable} {id : ClassId}
    (h : classes[id]?.bind (·.superClass) = none) : classes.superChain id = [id] := by
  rw [superChain, h]

theorem le_of_mem_superChain {classes : ClassTable} {id other : ClassId}
    (h : other ∈ classes.superChain id) : other ≤ id := by
  induction id using Nat.strongRecOn with
  | ind id ih =>
    rw [superChain] at h
    rcases List.mem_cons.1 h with rfl | h
    · exact Nat.le_refl _
    · split at h
      · cases h
      · next parent _ =>
        split at h
        · next hlt => exact Nat.le_of_lt (Nat.lt_of_le_of_lt (ih parent hlt h) hlt)
        · cases h

/-- A class that a table had already keeps its super classes as the table grows. -/
theorem Extends.superChain_eq {past now : ClassTable} (h : Extends now past) {id : ClassId}
    (hid : id < past.size) : now.superChain id = past.superChain id := by
  induction id using Nat.strongRecOn with
  | ind id ih =>
    rw [superChain, superChain, h.superClass_eq hid]
    split
    · rfl
    · next parent _ =>
      by_cases hlt : parent < id
      · rw [if_pos hlt, if_pos hlt, ih parent hlt (Nat.lt_trans hlt hid)]
      · rw [if_neg hlt, if_neg hlt]

/-- The fields of an instance of a class: its own ones and then those of its super classes. -/
def instanceFields (classes : ClassTable) (id : ClassId) : List LoadedField :=
  (classes.superChain id).flatMap fun id =>
    ((classes[id]?.map (·.fields)).getD []).filter fun field => !field.isStatic

theorem Extends.instanceFields_eq {past now : ClassTable} (h : Extends now past) {id : ClassId}
    (hid : id < past.size) : now.instanceFields id = past.instanceFields id := by
  unfold instanceFields
  rw [h.superChain_eq hid, List.flatMap_def, List.flatMap_def]
  refine congrArg List.flatten (List.map_congr_left fun i hi => ?_)
  rw [h.map_eq (Nat.lt_of_le_of_lt (le_of_mem_superChain hi) hid) (·.fields) fun _ => rfl]

theorem instanceFields_of_parent {classes : ClassTable} {id parent : ClassId} {c : LoadedClass}
    (hc : classes[id]? = some c) (hs : c.superClass = some parent) (hlt : parent < id) :
    classes.instanceFields id =
      c.fields.filter (fun field => !field.isStatic) ++ classes.instanceFields parent := by
  rw [instanceFields, superChain_of_some (by simp [hc, hs]) hlt, List.flatMap_cons]
  simp [hc, instanceFields]

theorem instanceFields_of_root {classes : ClassTable} {id : ClassId} {c : LoadedClass}
    (hc : classes[id]? = some c) (hs : c.superClass = none) :
    classes.instanceFields id = c.fields.filter fun field => !field.isStatic := by
  rw [instanceFields, superChain_of_none (by simp [hc, hs])]
  simp [hc]

/-- The nearest instance field of a name and type is the first such field of an instance. -/
theorem instanceField?_eq_find? (classes : ClassTable) (id : ClassId) (name : String)
    (type : FieldType) :
    classes.instanceField? id name type =
      (classes.instanceFields id).find? fun field => field.name == name && field.type == type := by
  unfold instanceField? instanceFields
  induction classes.superChain id with
  | nil => rfl
  | cons i chain ih =>
    rw [List.findSome?_cons, List.flatMap_cons, List.find?_append, ← ih, List.find?_filter]
    cases classes[i]? with
    | none => simp
    | some c =>
      simp only [Option.bind_some, Option.map_some, Option.getD_some,
        LoadedClass.ownInstanceField?, Bool.and_assoc, Bool.decide_and, Bool.decide_eq_true]
      cases c.fields.find? fun field =>
        !field.isStatic && (field.name == name && field.type == type)
      <;> rfl

end ClassTable

end ClassLoading
