import ClassLoading.Proofs.ArrayNames
import ClassLoading.Proofs.Scenes

/-! What array classes are made of. An array class is built on its component and on three classes
that are the same for all arrays, one level at a time. Down the components, all of which are loaded,
there is in the end a class that is no array, and whether an array is public depends on this class
alone. Nothing else differs from one array to the next, and no initialization changes them. -/
namespace ClassLoading

theorem Access.isPublic_arrayWord (b : Bool) : Access.isPublic (Access.arrayWord b) = b := by
  cases b <;> decide

/-- An array class is final and abstract, and public if it is said to be. -/
theorem Access.arrayWord_eq (b : Bool) :
    Access.arrayWord b = (if b then 0x0001 else 0) ||| 0x0010 ||| 0x0400 := by
  cases b <;> decide

theorem LoadedClass.exists_kind_of_isArray {c : LoadedClass} (h : c.isArray) :
    ∃ component dimensions, c.kind = .array component dimensions := by
  unfold isArray at h
  split at h
  · next component dimensions hkind => exact ⟨component, dimensions, hkind⟩
  · cases h

namespace Loader

/-- Down the components, each loaded under its name, there is in the end a class that is no array.
-/
inductive Element (s : Loader) : ClassId → LoadedClass → Prop
  | here {id : ClassId} {c : LoadedClass} (loaded : s.findLoaded? c.name = some id)
      (atPlace : s.classes[id]? = some c) (noArray : ¬c.isArray) : Element s id c
  | inside {id component : ClassId} {c e : LoadedClass} (loaded : s.findLoaded? c.name = some id)
      (atPlace : s.classes[id]? = some c) (has : c.component? = some component)
      (rest : Element s component e) : Element s id e

/-- What all array classes have in common, and that they are public if their element is primitive or
public itself. -/
structure ArrayOf (s : Loader) (c e : LoadedClass) : Prop where
  flags : c.flags =
    (if e.isPrimitive || Access.isPublic e.flags then 0x0001 else 0) ||| 0x0010 ||| 0x0400
  object : ∃ root object, s.findLoaded? objectName = some root ∧ s.classes[root]? = some object ∧
    c.superClass = some root ∧ c.instanceSlots = object.instanceSlots
  interfaces : ∃ cloneable serializable, s.findLoaded? cloneableName = some cloneable ∧
    s.findLoaded? serializableName = some serializable ∧ c.interfaces = [cloneable, serializable]

variable {config : LoaderConfig} {search : ClassSearch} {s : Loader} {name : String}
  {id component : ClassId} {c d e : LoadedClass}

/-! ### One level -/

/-- What a class was built on has not changed since, marks and links apart. -/
theorem exists_of_extends_push {classes past : ClassTable} {built : LoadedClass}
    (h : classes.Extends (past.push built)) {i : ClassId} (hi : i < past.size) :
    ∃ b d, past[i]? = some b ∧ classes[i]? = some d ∧ d.fixed = b.fixed := by
  have hb : (past.push built)[i]? = some past[i] := by
    rw [Array.getElem?_push, if_neg (Nat.ne_of_lt hi), Array.getElem?_eq_getElem hi]
  obtain ⟨d, hd, hsame⟩ := h i _ hb
  exact ⟨_, d, Array.getElem?_eq_getElem hi, hd, hsame⟩

/-- An array class is built on its component and on the classes that all arrays are built on, which
are loaded and stand in front of it. -/
theorem Sound.exists_buildArray (hs : s.Sound config search) (h : s.findLoaded? name = some id)
    (hc : s.classes[id]? = some c) (harray : c.isArray) :
    ∃ (past : ClassTable) (component root cloneable serializable : ClassId), id = past.size ∧
      let built := Blueprint.buildArray past name component root [cloneable, serializable]
      s.classes.Extends (past.push built) ∧ c.fixed = built.fixed ∧
      (s.IsLoaded component ∧ component < past.size) ∧
      (s.findLoaded? objectName = some root ∧ root < past.size) ∧
      s.findLoaded? cloneableName = some cloneable ∧
      s.findLoaded? serializableName = some serializable := by
  obtain ⟨i, dimensions, hkind⟩ := LoadedClass.exists_kind_of_isArray harray
  have hcomponent? : c.component? = some i := by simp [LoadedClass.component?, hkind]
  have hname := hs.isArrayName_of_component? h hc hcomponent?
  obtain ⟨past, plan, ids, built, rfl, hext, hplan, hdeps, hbuild⟩ := hs.made name id h
  obtain ⟨c', hc', hfixed⟩ := hext past.size built (by simp)
  rw [hc] at hc'
  cases hc'
  obtain ⟨type, htype, -⟩ | ⟨t, -, -, rfl⟩ | ⟨bytes, hsearched, -⟩ := Blueprint.ofName_cases hplan
  · rw [Blueprint.primitiveClass?_of_isArrayName hname] at htype
    cases htype
  · simp only [Blueprint.dependencies, List.forall₂_cons_left_iff,
      List.forall₂_nil_left_iff] at hdeps
    obtain ⟨component, _, hcomponent, ⟨root, _, hroot, ⟨cloneable, _, hcloneable, ⟨serializable, _,
      hserializable, rfl, rfl⟩, rfl⟩, rfl⟩, rfl⟩ := hdeps
    cases hbuild
    exact ⟨past, component, root, cloneable, serializable, rfl, hext, hfixed,
      ⟨⟨_, hcomponent.1⟩, hcomponent.2⟩, hroot, hcloneable.1, hserializable.1⟩
  · simp [Blueprint.isSearched, hname] at hsearched

theorem Sound.exists_arrayOf_component (hs : s.Sound config search)
    (h : s.findLoaded? name = some id) (hc : s.classes[id]? = some c) (harray : c.isArray) :
    ∃ component d, c.component? = some component ∧ component < id ∧ s.IsLoaded component ∧
      s.classes[component]? = some d ∧ s.ArrayOf c d := by
  obtain ⟨past, component, root, cloneable, serializable, rfl, hext, hfixed, ⟨hloaded, hlt⟩,
    ⟨hroot, hlt'⟩, hcloneable, hserializable⟩ := hs.exists_buildArray h hc harray
  obtain ⟨b, d, hb, hd, hsame⟩ := exists_of_extends_push hext hlt
  obtain ⟨top, object, htop, hobject, hsame'⟩ := exists_of_extends_push hext hlt'
  refine ⟨component, d, congrArg (·.component?) hfixed, hlt, hloaded, hd, ?_,
    ⟨root, object, hroot, hobject, congrArg (·.superClass) hfixed, ?_⟩,
    cloneable, serializable, hcloneable, hserializable, congrArg (·.interfaces) hfixed⟩
  · have hflags : c.flags = Access.arrayWord ((past[component]?.map fun c =>
        c.isPrimitive || Access.isPublic c.flags).getD false) := congrArg (·.flags) hfixed
    have hdflags : d.flags = b.flags := congrArg (·.flags) hsame
    have hprimitive : d.isPrimitive = b.isPrimitive := congrArg (·.isPrimitive) hsame
    rw [hflags, hb, hdflags, hprimitive]
    exact Access.arrayWord_eq _
  · have hslots : c.instanceSlots = (past[root]?.map (·.instanceSlots)).getD 0 :=
      congrArg (·.instanceSlots) hfixed
    rw [hslots, htop]
    exact (congrArg (·.instanceSlots) hsame').symm

/-! ### All levels -/

/-- Between an array and its element there are only arrays, which are as public as the element. -/
theorem ArrayOf.trans (h : s.ArrayOf c d) (hd : s.ArrayOf d e) (harray : d.isArray) :
    s.ArrayOf c e := by
  obtain ⟨component, dimensions, hkind⟩ := LoadedClass.exists_kind_of_isArray harray
  have hprimitive : d.isPrimitive = false := by simp [LoadedClass.isPrimitive, hkind]
  have hpublic : Access.isPublic d.flags = (e.isPrimitive || Access.isPublic e.flags) := by
    rw [hd.flags, ← Access.arrayWord_eq, Access.isPublic_arrayWord]
  refine ⟨?_, h.object, h.interfaces⟩
  rw [h.flags, hprimitive, hpublic, Bool.false_or]

/-- A component stands in front of its array, so the element is reached at some depth. -/
theorem Sound.exists_element (hs : s.Sound config search) (h : s.IsLoaded id)
    (hc : s.classes[id]? = some c) (harray : c.isArray) :
    ∃ e, s.Element id e ∧ s.ArrayOf c e := by
  induction id using Nat.strong_induction_on generalizing c with
  | _ id ih =>
    obtain ⟨c', hc', hname⟩ := hs.exists_named h
    rw [hc] at hc'
    cases hc'
    obtain ⟨component, d, hcomponent, hlt, hloaded, hd, hof⟩ :=
      hs.exists_arrayOf_component hname hc harray
    by_cases hinner : d.isArray
    · obtain ⟨e, helement, hof'⟩ := ih component hlt hloaded hd hinner
      exact ⟨e, .inside hname hc hcomponent helement, hof.trans hof' hinner⟩
    · obtain ⟨d', hd', hname'⟩ := hs.exists_named hloaded
      rw [hd] at hd'
      cases hd'
      exact ⟨d, .inside hname hc hcomponent (.here hname' hd hinner), hof⟩

/-! ### Names with brackets -/

/-- A text with brackets in front of it. -/
def bracketed (k : Nat) (text : String) : String := String.ofList (List.replicate k '[') ++ text

theorem toList_bracketed (k : Nat) (text : String) :
    (bracketed k text).toList = List.replicate k '[' ++ text.toList := by
  simp [bracketed]

/-- The component of an array of arrays has the same name with one bracket less. -/
theorem Sound.exists_loaded_bracketed (hs : s.Sound config search) {k : Nat} {text : String}
    (h : s.findLoaded? (bracketed (k + 2) text) = some id) :
    ∃ component, s.findLoaded? (bracketed (k + 1) text) = some component := by
  obtain ⟨c, hc, -⟩ := hs.exists_linked h
  have harray : Blueprint.isArrayName (bracketed (k + 2) text) := by
    simp [Blueprint.isArrayName, toList_bracketed, List.replicate_succ]
  obtain ⟨t, component, hname, hcomponent, -⟩ := hs.kind_of_array h hc harray
  have hchars := FieldType.toList_of_ofDescriptor hname
  rw [toList_bracketed, List.replicate_succ, FieldType.chars, List.cons_append,
    List.cons_inj_right] at hchars
  refine ⟨component, ?_⟩
  -- behind the first bracket there is another one, so the component is spelled by its own name
  cases t with
  | primitive p =>
    cases p <;> simp [FieldType.chars, Primitive.letter, List.replicate_succ] at hchars
  | object name => simp [FieldType.chars, List.replicate_succ] at hchars
  | array element =>
    have hclass : (FieldType.array element).className = bracketed (k + 1) text := by
      rw [← String.toList_inj, FieldType.className, FieldType.toList_descriptor, ← hchars,
        toList_bracketed]
    rwa [← hclass]

theorem Sound.exists_loaded_of_le (hs : s.Sound config search) {k j : Nat} {text : String}
    (h : s.findLoaded? (bracketed k text) = some id) (hj : 1 ≤ j) (hle : j ≤ k) :
    ∃ i, s.findLoaded? (bracketed j text) = some i := by
  induction k, hle using Nat.le_induction generalizing id with
  | base => exact ⟨id, h⟩
  | succ k hle ih =>
    obtain ⟨n, rfl⟩ := Nat.exists_eq_add_of_le' (hj.trans hle)
    obtain ⟨component, hcomponent⟩ := hs.exists_loaded_bracketed h
    exact ih hcomponent

/-! ### Initializations -/

/-- Initializes classes one after the other, each time with static initializers of its own. -/
def initAll (config : LoaderConfig) (search : ClassSearch) (s : Loader)
    (calls : List (StaticInitializer × ClassId)) : Loader :=
  calls.foldl (fun t call => (t.initClass ⟨config, search, call.1⟩ call.2).2) s

/-- A class that is no ordinary one stays at its stage, whatever is initialized. -/
theorem Every.exists_initAll (h : s.Every LoadedClass.Rests) (hs : s.Sound config search)
    (hc : s.classes[id]? = some c) (hkind : c.kind ≠ .ordinary)
    (calls : List (StaticInitializer × ClassId)) :
    ∃ d, (s.initAll config search calls).classes[id]? = some d ∧
      d.stage = c.kind.stageAfter false := by
  induction calls generalizing s c with
  | nil => exact ⟨c, hc, h id c hc hkind⟩
  | cons call calls ih =>
    let env : Environment := ⟨config, search, call.1⟩
    have hchanges := hs.serve env (.init call.2)
    obtain ⟨d, hd, hfixed⟩ := hchanges.classes id c hc
    have hdkind : d.kind = c.kind := congrArg (·.kind) hfixed
    rw [← hdkind] at hkind ⊢
    have hrests : (s.initClass env call.2).2.Every LoadedClass.Rests := h.initClass hs call.2
    exact ih hrests (hchanges.sound hs) hd hkind

end Loader

namespace Scene

variable {config : LoaderConfig} {search : ClassSearch} {q : Scene}

/-- At every moment, an array class is built of a chain of loaded components that ends in a class
that is no array; it is final, abstract and as public as that class, below the root class and the
two interfaces of arrays, with no fields of its own. It is resolved and stays so. With a name all
names with fewer brackets are loaded. -/
theorem Reachable.arrays_uniform (hq : Reachable config search q) :
    (∀ id c, q.loader.IsLoaded id → q.loader.classes[id]? = some c → c.isArray →
      (∃ e, q.loader.Element id e ∧ q.loader.ArrayOf c e) ∧ c.stage = .resolved ∧
      (∀ initializer, q.loader.initClass ⟨config, search, initializer⟩ id = (.ok (), q.loader)) ∧
      ∀ calls, ∃ d, (q.loader.initAll config search calls).classes[id]? = some d ∧
        d.stage = .resolved) ∧
    ∀ k j text, (∃ id, q.loader.findLoaded? (Loader.bracketed k text) = some id) → 1 ≤ j → j < k →
      ∃ id, q.loader.findLoaded? (Loader.bracketed j text) = some id := by
  have hs := hq.sound.loader
  refine ⟨fun id c hid hc harray => ?_, fun k j text ⟨id, h⟩ hj hlt =>
    hs.exists_loaded_of_le h hj (Nat.le_of_lt hlt)⟩
  obtain ⟨component, dimensions, hkind⟩ := LoadedClass.exists_kind_of_isArray harray
  have hne : c.kind ≠ .ordinary := by simp [hkind]
  have hstage : c.kind.stageAfter false = .resolved := by rw [hkind]; rfl
  refine ⟨hs.exists_element hid hc harray, (hq.poised.rests id c hc hne).trans hstage,
    fun initializer => Loader.initClass_of_answer hc (by simp [LoadedClass.initAnswer?, hne]),
    fun calls => ?_⟩
  rw [← hstage]
  exact hq.poised.rests.exists_initAll hs hc hne calls

theorem Reachable.matrix_uniform : ∃ (q : Scene) (matrix row : ClassId) (c : LoadedClass),
    Reachable .standard ArrayPath.search q ∧ q.loader.findLoaded? "[[I" = some matrix ∧
      q.loader.classes[matrix]? = some c ∧ c.isArray ∧ c.stage = .resolved ∧
      (∃ e, q.loader.Element matrix e ∧ q.loader.ArrayOf c e) ∧
      q.loader.findLoaded? "[I" = some row := by
  have hint : primitiveClass? "int" = some (some .int) := rfl
  have hrow : Loadable .standard ArrayPath.search "[I" :=
    ArrayPath.loadable_array rfl (.primitive hint)
  have hall : ∀ n ∈ ["[[I"], Loadable .standard ArrayPath.search n :=
    List.forall_mem_singleton.2 (ArrayPath.loadable_array rfl hrow)
  obtain ⟨s, hs, hloaded, -⟩ := Loader.History.exists_loaded ArrayPath.loadable_class hall
  obtain ⟨matrix, hmatrix⟩ := hloaded "[[I" (by decide)
  have hq := of_history hs
  obtain ⟨c, hc, -⟩ := hs.sound.exists_linked hmatrix
  obtain ⟨t, component, -, -, hkind⟩ := hs.sound.kind_of_array hmatrix hc (by decide)
  have harray : c.isArray := by simp [LoadedClass.isArray, hkind]
  obtain ⟨harrays, hnames⟩ := arrays_uniform hq
  obtain ⟨helement, hstage, -⟩ := harrays matrix c ⟨_, hmatrix⟩ hc harray
  obtain ⟨row, hrow⟩ := hnames 2 1 "I" ⟨matrix, hmatrix⟩ (by decide) (by decide)
  exact ⟨.ready s, matrix, row, c, hq, hmatrix, hc, harray, hstage, helement, hrow⟩

end Scene

end ClassLoading
