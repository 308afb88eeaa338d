import ClassLoading.Proofs.Descriptors
import ClassLoading.Proofs.FailedLoads
import ClassLoading.Proofs.RootClass

/-! How array classes are spelled. The name of an array class is a descriptor, and the component is
the class that stands for the type behind the first bracket: a base type is spelled by its letter,
an array by its own name, and a class of a file by its name between `L` and `;`. What stands there
is handed to the loader as it is, though, and the loader knows primitive and array classes by names
as well. So the spelling can be read back from the component exactly as long as no array has been
loaded with such a name between `L` and `;`. -/
namespace ClassLoading

/-- How a class is spelled as a type; nothing is of type `void`. -/
def LoadedClass.descriptor? (c : LoadedClass) : Option String :=
  match c.kind with
  | .primitive type => type.map fun p => (FieldType.primitive p).descriptor
  | .ordinary => some (FieldType.object c.name).descriptor
  | .array _ _ => some c.name

/-- An array class has its name and its dimensions from its component. -/
structure LoadedClass.SpelledAfter (c component : LoadedClass) : Prop where
  name : ∃ descriptor, component.descriptor? = some descriptor ∧ c.name = "[" ++ descriptor
  dimensions : c.dimensions = component.dimensions + 1
  ordinary : "[L".toList <+: c.name.toList → component.kind = .ordinary

namespace FieldType

/-- The brackets in front of a descriptor are as many as the type has dimensions. -/
theorem length_takeWhile_chars (t : FieldType) :
    (t.chars.takeWhile (· == '[')).length = t.dimensions := by
  induction t with
  | primitive p => cases p <;> rfl
  | object name => rfl
  | array element ih =>
    rw [chars, List.takeWhile_cons_of_pos (by rfl), List.length_cons, ih, dimensions]

theorem primitiveClass?_keyword (p : Primitive) : primitiveClass? p.keyword = some (some p) := by
  cases p <;> decide

theorem isArrayName_descriptor (element : FieldType) :
    Blueprint.isArrayName (array element).descriptor := by
  simp [Blueprint.isArrayName, toList_descriptor, chars]

end FieldType

namespace Loader

/-- Every array class is spelled after its component, and no two have the same. -/
structure Spelled (s : Loader) : Prop where
  arrays : ∀ name id c component, s.findLoaded? name = some id → s.classes[id]? = some c →
    c.component? = some component → ∃ d, s.findLoaded? d.name = some component ∧
      s.classes[component]? = some d ∧ c.SpelledAfter d
  distinct : ∀ name other id i c d, s.findLoaded? name = some id → s.findLoaded? other = some i →
    s.classes[id]? = some c → s.classes[i]? = some d → c.isArray → c.component? = d.component? →
      id = i

/-- What an array spells between `L` and `;` is the name of a class with a file. -/
def WrapsFiles (s : Loader) : Prop :=
  ∀ name id wrapped, s.findLoaded? name = some id →
    FieldType.ofDescriptor name = .ok (.array (.object wrapped)) → Blueprint.isSearched wrapped

variable {config : LoaderConfig} {search : ClassSearch} {s : Loader} {name : String}
  {id component : ClassId} {c d : LoadedClass}

/-! ### Array classes and their components -/

theorem Sound.kind_of_primitive (hs : s.Sound config search) (h : s.findLoaded? name = some id)
    (hc : s.classes[id]? = some c) {type : Option Primitive}
    (htype : primitiveClass? name = some type) : c.kind = .primitive type := by
  obtain ⟨past, plan, ids, built, rfl, hext, hplan, -, hbuild⟩ := hs.made name id h
  obtain ⟨d, hd, hfixed⟩ := hext past.size built (by simp)
  rw [hc] at hd
  cases hd
  rw [Blueprint.ofName, htype] at hplan
  cases hplan
  cases hbuild
  exact congrArg (·.kind) hfixed

/-- The class of an array name counts the brackets of the name and has as its component the class
that stands for the rest. -/
theorem Sound.kind_of_array (hs : s.Sound config search) (h : s.findLoaded? name = some id)
    (hc : s.classes[id]? = some c) (harray : Blueprint.isArrayName name) :
    ∃ t component, FieldType.ofDescriptor name = .ok (.array t) ∧
      s.findLoaded? t.className = some component ∧
      c.kind = .array component (name.toList.takeWhile (· == '[')).length := by
  obtain ⟨past, plan, ids, built, rfl, hext, hplan, hdeps, hbuild⟩ := hs.made name id h
  obtain ⟨d, hd, hfixed⟩ := hext past.size built (by simp)
  rw [hc] at hd
  cases hd
  have hkind : c.kind = built.kind := congrArg (·.kind) hfixed
  obtain ⟨type, htype, -⟩ | ⟨t, -, hname, rfl⟩ | ⟨bytes, hsearched, -⟩ :=
    Blueprint.ofName_cases hplan
  · rw [Blueprint.primitiveClass?_of_isArrayName harray] at htype
    cases htype
  · cases hdeps with
    | @cons _ component _ _ hcomponent hdeps =>
    cases hdeps with
    | cons _ _ =>
    cases hbuild
    exact ⟨t, component, hname, hcomponent.1, hkind⟩
  · simp [Blueprint.isSearched, harray] at hsearched

/-- Only a class with the name of an array has a component. -/
theorem Sound.isArrayName_of_component? (hs : s.Sound config search)
    (h : s.findLoaded? name = some id) (hc : s.classes[id]? = some c)
    (hcomponent : c.component? = some component) : Blueprint.isArrayName name := by
  obtain ⟨hkind, -⟩ | ⟨-, harray, -⟩ | ⟨hkind, -⟩ := hs.kind_cases h hc
  · unfold LoadedClass.isPrimitive at hkind
    unfold LoadedClass.component? at hcomponent
    split at hcomponent <;> simp_all
  · exact harray
  · simp [LoadedClass.component?, hkind] at hcomponent

theorem Sound.exists_component (hs : s.Sound config search) (h : s.findLoaded? name = some id)
    (hc : s.classes[id]? = some c) (hcomponent : c.component? = some component) :
    ∃ t d, FieldType.ofDescriptor name = .ok (.array t) ∧
      s.findLoaded? t.className = some component ∧ s.classes[component]? = some d ∧
      d.name = t.className ∧ c.dimensions = t.dimensions + 1 := by
  obtain ⟨t, i, hname, hloaded, hkind⟩ :=
    hs.kind_of_array h hc (hs.isArrayName_of_component? h hc hcomponent)
  have hi : i = component := by simpa [LoadedClass.component?, hkind] using hcomponent
  subst hi
  obtain ⟨d, hd, hdname, -⟩ := hs.exists_linked hloaded
  refine ⟨t, d, hname, hloaded, hd, hdname, ?_⟩
  rw [LoadedClass.dimensions, hkind, FieldType.toList_of_ofDescriptor hname,
    FieldType.length_takeWhile_chars, FieldType.dimensions]

/-- The class that stands for a type is spelled as the type and has as many dimensions, unless it
was taken for a class of a file and is none. -/
theorem Sound.descriptor?_of_className (hs : s.Sound config search) {t : FieldType}
    (h : s.findLoaded? t.className = some id) (hc : s.classes[id]? = some c)
    (hfile : ∀ wrapped, t = .object wrapped → Blueprint.isSearched wrapped) :
    c.descriptor? = some t.descriptor ∧ c.dimensions = t.dimensions := by
  obtain ⟨d, hd, hname, -⟩ := hs.exists_linked h
  rw [hc] at hd
  cases hd
  cases t with
  | primitive p =>
    have hkind := hs.kind_of_primitive h hc (FieldType.primitiveClass?_keyword p)
    simp [LoadedClass.descriptor?, LoadedClass.dimensions, hkind, FieldType.dimensions]
  | object wrapped =>
    have hkind := (hs.kind_eq_ordinary_iff h hc).2 (hfile wrapped rfl)
    have hname : c.name = wrapped := hname
    simp [LoadedClass.descriptor?, LoadedClass.dimensions, hkind, hname, FieldType.dimensions]
  | array element =>
    obtain ⟨-, i, -, -, hkind⟩ := hs.kind_of_array h hc (FieldType.isArrayName_descriptor element)
    have hname : c.name = (FieldType.array element).descriptor := hname
    refine ⟨by simp [LoadedClass.descriptor?, hkind, hname], ?_⟩
    rw [LoadedClass.dimensions, hkind, FieldType.className, FieldType.toList_descriptor,
      FieldType.length_takeWhile_chars]

theorem Sound.spelledAfter_iff (hs : s.Sound config search) (h : s.findLoaded? name = some id)
    (hc : s.classes[id]? = some c) (hcomponent : c.component? = some component)
    (hd : s.classes[component]? = some d) :
    c.SpelledAfter d ↔ ∀ wrapped, FieldType.ofDescriptor name = .ok (.array (.object wrapped)) →
      Blueprint.isSearched wrapped := by
  obtain ⟨t, d', hname, hloaded, hd', -, hdimensions⟩ := hs.exists_component h hc hcomponent
  rw [hd] at hd'
  cases hd'
  obtain ⟨c', hc', hcname, -⟩ := hs.exists_linked h
  rw [hc] at hc'
  cases hc'
  have hspelling : c.name = (FieldType.array t).descriptor :=
    hcname.trans (FieldType.eq_descriptor_of_ofDescriptor hname)
  constructor
  · rintro hspelled wrapped hwrapped
    rw [hname] at hwrapped
    cases hwrapped
    refine (hs.kind_eq_ordinary_iff hloaded hd).1 (hspelled.ordinary ?_)
    rw [hspelling, FieldType.toList_descriptor]
    exact ⟨_, rfl⟩
  · intro hfile
    have hfile : ∀ wrapped, t = .object wrapped → Blueprint.isSearched wrapped := by
      rintro wrapped rfl
      exact hfile wrapped hname
    obtain ⟨hdescriptor, hinner⟩ := hs.descriptor?_of_className hloaded hd hfile
    refine ⟨⟨_, hdescriptor, ?_⟩, by rw [hdimensions, hinner], fun hprefix => ?_⟩
    · rw [hspelling]
      apply String.toList_inj.1
      simp [FieldType.toList_descriptor, FieldType.chars]
    · rw [hspelling, FieldType.toList_descriptor] at hprefix
      -- only a class name starts with `L`
      cases t with
      | primitive p => cases p <;> simp [FieldType.chars, Primitive.letter] at hprefix
      | object wrapped => exact (hs.kind_eq_ordinary_iff hloaded hd).2 (hfile wrapped rfl)
      | array element => simp [FieldType.chars] at hprefix

theorem Spelled.wrapsFiles (h : s.Spelled) (hs : s.Sound config search) : s.WrapsFiles := by
  intro name id wrapped hid hname
  obtain ⟨c, hc, -⟩ := hs.exists_linked hid
  have harray : Blueprint.isArrayName name := by
    rw [Blueprint.isArrayName, FieldType.toList_of_ofDescriptor hname]
    rfl
  obtain ⟨-, component, -, -, hkind⟩ := hs.kind_of_array hid hc harray
  have hcomponent : c.component? = some component := by simp [LoadedClass.component?, hkind]
  obtain ⟨d, -, hd, hspelled⟩ := h.arrays name id c component hid hc hcomponent
  exact (hs.spelledAfter_iff hid hc hcomponent hd).1 hspelled wrapped hname

theorem WrapsFiles.spelledAfter (h : s.WrapsFiles) (hs : s.Sound config search)
    (hid : s.findLoaded? name = some id) (hc : s.classes[id]? = some c)
    (hcomponent : c.component? = some component) :
    ∃ d, s.findLoaded? d.name = some component ∧ s.classes[component]? = some d ∧
      c.SpelledAfter d := by
  obtain ⟨t, d, -, hloaded, hd, hdname, -⟩ := hs.exists_component hid hc hcomponent
  exact ⟨d, hdname ▸ hloaded, hd,
    (hs.spelledAfter_iff hid hc hcomponent hd).2 fun wrapped => h name id wrapped hid⟩

theorem WrapsFiles.spelled (h : s.WrapsFiles) (hs : s.Sound config search) : s.Spelled := by
  refine ⟨fun name id c component hid hc => h.spelledAfter hs hid hc, ?_⟩
  intro name other id i c d hid hi hc hd harray heq
  cases hcomponent : c.component? with
  | none =>
    unfold LoadedClass.component? at hcomponent
    unfold LoadedClass.isArray at harray
    split at hcomponent <;> simp_all
  | some component =>
    -- the two are both spelled after the same class, so they have one name
    obtain ⟨e, -, he, ⟨descriptor, hdescriptor, hname⟩, -, -⟩ := h.spelledAfter hs hid hc hcomponent
    obtain ⟨e', -, he', ⟨descriptor', hdescriptor', hother⟩, -, -⟩ :=
      h.spelledAfter hs hi hd (heq ▸ hcomponent)
    rw [he] at he'
    cases he'
    rw [hdescriptor] at hdescriptor'
    cases hdescriptor'
    obtain ⟨c', hc', hcname⟩ := hs.exists_named ⟨name, hid⟩
    obtain ⟨d', hd', hdname⟩ := hs.exists_named ⟨other, hi⟩
    rw [hc] at hc'
    rw [hd] at hd'
    cases hc'
    cases hd'
    rw [hname, ← hother, hdname] at hcname
    exact (Option.some.inj hcname).symm

end Loader

/-- Any number of loadable names can be loaded, and with them only what they need. -/
theorem Loader.History.exists_loaded {config : LoaderConfig} {search : ClassSearch}
    {names : List String} (hready : Loadable config search classClassName)
    (h : ∀ n ∈ names, Loadable config search n) :
    ∃ s, History config search s ∧ (∀ n ∈ names, ∃ id, s.findLoaded? n = some id) ∧
      ∀ n id, s.findLoaded? n = some id → n ∈ primitiveNames ∨
        ∃ d ∈ classClassName :: names, Relation.ReflTransGen search.Needs d n := by
  induction names with
  | nil =>
    obtain ⟨s, hs⟩ := (bootstrap_isOk_iff ⟨config, search, .skip⟩).2 hready
    refine ⟨s, .ready .skip hs, nofun, fun n id hid => ?_⟩
    rcases bootstrap_needs hs hid with hneeds | hprimitive
    · exact .inr ⟨_, List.mem_cons_self, hneeds⟩
    · exact .inl hprimitive
  | cons name names ih =>
    obtain ⟨hname, hnames⟩ := List.forall_mem_cons.1 h
    obtain ⟨s, hs, hloaded, honly⟩ := ih hnames
    let env : Environment := ⟨config, search, .skip⟩
    have hload := hs.sound.load env name
    obtain ⟨id, hid⟩ := (hs.atRest.load_isOk_iff env hs.sound).2 hname
    refine ⟨_, hs.serve .skip (.load name), List.forall_mem_cons.2 ⟨⟨id, hload.loaded id hid⟩,
      fun n hn => ?_⟩, fun n i hi => ?_⟩
    · obtain ⟨j, hj⟩ := hloaded n hn
      exact ⟨j, hload.changes.findLoaded? hs.sound.toTidy hj⟩
    · rcases (load_needs env).1 s name hs.sound n i hi with hold | hneeds
      · refine (honly n i hold).imp_right fun ⟨d, hd, hneeds⟩ => ⟨d, ?_, hneeds⟩
        rcases List.mem_cons.1 hd with rfl | hd
        · exact List.mem_cons_self
        · exact List.mem_cons_of_mem _ (List.mem_cons_of_mem _ hd)
      · exact .inr ⟨name, List.mem_cons_of_mem _ List.mem_cons_self, hneeds⟩

theorem Machine.Reachable.of_history {config : LoaderConfig} {search : ClassSearch} {s : Loader}
    (h : Loader.History config search s) : Reachable config search ⟨s, #[]⟩ := by
  induction h with
  | ready initializer h => exact .ready initializer h
  | serve initializer request _ ih => exact ih.serve initializer request

/-! ### A class path with arrays -/

/-- The file of an interface without members. -/
def ClassFile.ofInterface (name : String) : ClassFile :=
  { ClassFile.ofFields name (some objectName) [] with flags := 0x601 }

namespace ArrayPath

def search : ClassSearch :=
  .ofFiles [(objectName, SmallPath.objectFile), (classClassName, OddPath.classFile),
    (cloneableName, .ofInterface cloneableName), (serializableName, .ofInterface serializableName)]

theorem ofName_object :
    Blueprint.ofName search objectName = .ok (.ordinary SmallPath.objectFile none []) :=
  Blueprint.ofName_of_file (by decide) rfl SmallPath.standsFor_object

theorem ofName_class : Blueprint.ofName search classClassName =
    .ok (.ordinary OddPath.classFile (some objectName) []) :=
  Blueprint.ofName_of_file (by decide) rfl OddPath.standsFor_class

theorem ofName_cloneable : Blueprint.ofName search cloneableName =
    .ok (.ordinary (.ofInterface cloneableName) (some objectName) []) :=
  Blueprint.ofName_of_file (by decide) rfl ⟨by decide +kernel, rfl, rfl, rfl⟩

theorem ofName_serializable : Blueprint.ofName search serializableName =
    .ok (.ordinary (.ofInterface serializableName) (some objectName) []) :=
  Blueprint.ofName_of_file (by decide) rfl ⟨by decide +kernel, rfl, rfl, rfl⟩

theorem not_hasInterface_object : ¬search.HasInterface objectName := by
  rintro ⟨file, superName, interfaceNames, hplan, hflags⟩
  rw [ofName_object] at hplan
  cases hplan
  exact absurd hflags (by decide)

theorem passes_ofInterface (name : String) :
    (ClassFile.ofInterface name).Passes .standard search name (some objectName) [] := by
  have hversion : (45 : UInt16) ≤ 52 ∧ (52 : UInt16) ≤ 69 := by decide
  refine ⟨nofun, nofun, hversion, ?_, nofun, nofun, fun _ => nofun, fun owner member hmem => ?_⟩
  · rintro _ ⟨⟩
    exact not_hasInterface_object
  · simp [ClassFile.ofInterface, ClassFile.ofFields] at hmem

theorem loadable_object : Loadable .standard search objectName :=
  SmallPath.loadable_of_objectFile ofName_object

theorem loadable_class : Loadable .standard search classClassName :=
  .of_plan ofName_class (List.forall_mem_singleton.2 loadable_object)
    (ClassFile.passes_ofFields_nil not_hasInterface_object)

theorem loadable_cloneable : Loadable .standard search cloneableName :=
  .of_plan ofName_cloneable (List.forall_mem_singleton.2 loadable_object) (passes_ofInterface _)

theorem loadable_serializable : Loadable .standard search serializableName :=
  .of_plan ofName_serializable (List.forall_mem_singleton.2 loadable_object) (passes_ofInterface _)

/-- Arrays of all that can be loaded can be loaded. -/
theorem loadable_array {t : FieldType} {name : String}
    (h : FieldType.ofDescriptor name = .ok (.array t))
    (ht : Loadable .standard search t.className) : Loadable .standard search name := by
  refine .array ?_ h ht loadable_object loadable_cloneable loadable_serializable
  rw [Blueprint.isArrayName, FieldType.toList_of_ofDescriptor h]
  rfl

/-- All that is needed by the class of class objects, by arrays of arrays of numbers and by arrays
of objects. -/
def names : List String :=
  [classClassName, objectName, cloneableName, serializableName, "[[I", "[I", "int",
    "[Ljava/lang/Object;"]

/-- What these names stand for, in their order. -/
def plans : List Blueprint :=
  [.ordinary OddPath.classFile (some objectName) [], .ordinary SmallPath.objectFile none [],
    .ordinary (.ofInterface cloneableName) (some objectName) [],
    .ordinary (.ofInterface serializableName) (some objectName) [],
    .array (.array (.primitive .int)), .array (.primitive .int), .primitive (some .int),
    .array (.object objectName)]

theorem mem_names_of_needs {n d : String} (hn : n ∈ names)
    (h : Relation.ReflTransGen search.Needs n d) : d ∈ names := by
  have hplans : List.Forall₂ (fun n plan => Blueprint.ofName search n = .ok plan) names plans :=
    .cons ofName_class (.cons ofName_object (.cons ofName_cloneable (.cons ofName_serializable
      (.cons rfl (.cons rfl (.cons rfl (.cons rfl .nil)))))))
  have hclosed : ∀ plan ∈ plans, ∀ d ∈ plan.dependencies, d ∈ names := by decide
  induction h with
  | refl => exact hn
  | tail _ hneeds ih =>
    obtain ⟨plan, hplan, hd⟩ := hneeds
    obtain ⟨plan', hmem, hplan'⟩ := exists_of_mem_forall₂ hplans.flip ih
    rw [hplan] at hplan'
    cases hplan'
    exact hclosed plan hmem _ hd

/-- Whether a name that is spelled as an array of some class has that class looked up. -/
def wrapsSearched (name : String) : Bool :=
  match FieldType.ofDescriptor name with
  | .ok (.array (.object wrapped)) => Blueprint.isSearched wrapped
  | _ => true

end ArrayPath

/-! ### The spelling of arrays -/

namespace Machine.Reachable

variable {config : LoaderConfig} {search : ClassSearch} {m : Machine}

/-- Array classes are spelled after their components, and different ones have different components,
exactly as long as no array has been loaded that has the name of a primitive or an array class
between `L` and `;`. -/
theorem spelled_iff_wrapsFiles (hm : m.Reachable config search) :
    m.loader.Spelled ↔ m.loader.WrapsFiles :=
  ⟨fun h => h.wrapsFiles hm.sound.loader, fun h => h.spelled hm.sound.loader⟩

theorem nested_arrays_spelled : ∃ (m : Machine) (matrix objects : ClassId),
    m.Reachable .standard ArrayPath.search ∧ m.loader.findLoaded? "[[I" = some matrix ∧
      m.loader.findLoaded? "[Ljava/lang/Object;" = some objects ∧ m.loader.WrapsFiles ∧
      m.loader.Spelled := by
  have hint : primitiveClass? "int" = some (some .int) := rfl
  have hrow : Loadable .standard ArrayPath.search "[I" :=
    ArrayPath.loadable_array rfl (.primitive hint)
  have hloadable : ∀ n ∈ ["[[I", "[Ljava/lang/Object;"],
      Loadable .standard ArrayPath.search n := by
    refine List.forall_mem_cons.2 ⟨ArrayPath.loadable_array rfl hrow, ?_⟩
    refine List.forall_mem_singleton.2 ?_
    exact ArrayPath.loadable_array rfl ArrayPath.loadable_object
  obtain ⟨s, hs, hloaded, honly⟩ :=
    Loader.History.exists_loaded ArrayPath.loadable_class hloadable
  obtain ⟨matrix, hmatrix⟩ := hloaded "[[I" (by decide)
  obtain ⟨objects, hobjects⟩ := hloaded "[Ljava/lang/Object;" (by decide)
  have hm := of_history hs
  have hwraps : s.WrapsFiles := by
    intro name id wrapped hid hname
    have hnames : name ∈ Loader.primitiveNames ∨ name ∈ ArrayPath.names := by
      refine (honly name id hid).imp_right fun ⟨d, hd, hneeds⟩ => ?_
      have hall : ∀ n ∈ [classClassName, "[[I", "[Ljava/lang/Object;"], n ∈ ArrayPath.names := by
        decide
      exact ArrayPath.mem_names_of_needs (hall d hd) hneeds
    have hsearched : ∀ n ∈ Loader.primitiveNames ++ ArrayPath.names, ArrayPath.wrapsSearched n := by
      decide
    have hwrapped := hsearched name (List.mem_append.2 hnames)
    rwa [ArrayPath.wrapsSearched, hname] at hwrapped
  exact ⟨⟨s, #[]⟩, matrix, objects, hm, hmatrix, hobjects, hwraps,
    (spelled_iff_wrapsFiles hm).2 hwraps⟩

/-- Between `L` and `;` the name of a primitive class makes one more array of numbers, and that of
an array one with too few dimensions. -/
theorem wrapped_names_not_spelled : ∃ (m : Machine) (numbers wrapped nested int : ClassId)
    (c d e : LoadedClass), m.Reachable .standard ArrayPath.search ∧
      m.loader.findLoaded? "[I" = some numbers ∧ m.loader.classes[numbers]? = some c ∧
      m.loader.findLoaded? "[Lint;" = some wrapped ∧ m.loader.classes[wrapped]? = some d ∧
      m.loader.findLoaded? "[L[I;" = some nested ∧ m.loader.classes[nested]? = some e ∧
      m.loader.findLoaded? "int" = some int ∧ c.component? = some int ∧ d.component? = some int ∧
      numbers ≠ wrapped ∧ e.component? = some numbers ∧ e.dimensions = c.dimensions ∧
      ¬m.loader.Spelled := by
  have hprimitive : primitiveClass? "int" = some (some .int) := rfl
  have hint : Loadable .standard ArrayPath.search "int" := .primitive hprimitive
  have hnumbers : Loadable .standard ArrayPath.search "[I" := ArrayPath.loadable_array rfl hint
  have hloadable : ∀ n ∈ ["[I", "[Lint;", "[L[I;"], Loadable .standard ArrayPath.search n := by
    refine List.forall_mem_cons.2 ⟨hnumbers, List.forall_mem_cons.2 ⟨?_, List.forall_mem_singleton.2
      ?_⟩⟩
    · exact ArrayPath.loadable_array (t := .object "int") rfl hint
    · exact ArrayPath.loadable_array (t := .object "[I") rfl hnumbers
  obtain ⟨s, hs, hloaded, -⟩ := Loader.History.exists_loaded ArrayPath.loadable_class hloadable
  have hsound := hs.sound
  obtain ⟨numbers, hnumbers⟩ := hloaded "[I" (by decide)
  obtain ⟨wrapped, hwrapped⟩ := hloaded "[Lint;" (by decide)
  obtain ⟨nested, hnested⟩ := hloaded "[L[I;" (by decide)
  obtain ⟨c, hc, -⟩ := hsound.exists_linked hnumbers
  obtain ⟨d, hd, -⟩ := hsound.exists_linked hwrapped
  obtain ⟨e, he, -⟩ := hsound.exists_linked hnested
  obtain ⟨t, int, ht, hint, hckind⟩ := hsound.kind_of_array hnumbers hc (by decide)
  obtain ⟨t', int', ht', hint', hdkind⟩ := hsound.kind_of_array hwrapped hd (by decide)
  obtain ⟨t'', numbers', ht'', hnumbers', hekind⟩ := hsound.kind_of_array hnested he (by decide)
  cases ht
  cases ht'
  cases ht''
  have hint : s.findLoaded? "int" = some int := hint
  have hint' : s.findLoaded? "int" = some int' := hint'
  have hnumbers' : s.findLoaded? "[I" = some numbers' := hnumbers'
  rw [hint] at hint'
  rw [hnumbers] at hnumbers'
  cases hint'
  cases hnumbers'
  refine ⟨⟨s, #[]⟩, numbers, wrapped, nested, int, c, d, e, of_history hs, hnumbers, hc, hwrapped,
    hd, hnested, he, hint, by simp [LoadedClass.component?, hckind],
    by simp [LoadedClass.component?, hdkind], ?_, by simp [LoadedClass.component?, hekind],
    by simp [LoadedClass.dimensions, hckind, hekind], fun hspelled => ?_⟩
  · rintro rfl
    exact absurd (hsound.findLoaded?_inj hnumbers hwrapped) (by decide)
  · exact absurd (hspelled.wrapsFiles hsound _ _ "int" hwrapped rfl) (by decide)

end Machine.Reachable

end ClassLoading
