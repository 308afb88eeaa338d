import ClassLoading.Proofs.Hierarchy

/-! What stands above a class. Verification looks at the immediate super class only, and asks of it
only that it is no interface. When the super classes that class files name have files themselves,
this is enough: every class above another is an ordinary one, and all chains of super classes end at
the root class. When a file names a primitive or an array class instead, the class is accepted all
the same and its chain takes another way. -/
namespace ClassLoading

/-- The class file of a name declares an interface and names no super class. -/
def ClassSearch.HasBareInterface (search : ClassSearch) (name : String) : Prop :=
  ∃ file interfaceNames,
    Blueprint.ofName search name = .ok (.ordinary file none interfaceNames) ∧
      Access.isInterface file.flags

/-- The class can be extended: it comes from a file and is no interface. -/
def LoadedClass.IsProper (c : LoadedClass) : Prop := c.kind = .ordinary ∧ ¬c.isInterface

theorem Loadable.passes {config : LoaderConfig} {search : ClassSearch} {name : String}
    (h : Loadable config search name) {plan : Blueprint}
    (hplan : Blueprint.ofName search name = .ok plan) : plan.Passes config search name := by
  obtain ⟨plan', hplan', -, hpasses⟩ := h.exists_plan
  rw [hplan] at hplan'
  cases hplan'
  exact hpasses

namespace Loader

/-- What is above the class of a name on its super chain. -/
structure RootedAt (search : ClassSearch) (s : Loader) (name : String) (id : ClassId) : Prop where
  proper : ∀ i ∈ (s.classes.superChain id).tail, ∃ d, s.classes[i]? = some d ∧ d.IsProper
  alone : search.HasBareInterface name → s.classes.superChain id = [id]
  ends : ¬search.HasBareInterface name → ∃ root, s.findLoaded? objectName = some root ∧
    (s.classes.superChain id).getLast? = some root ∧ s.classes.isSubclass id root

/-- Nothing is above the root class, and it is at the top of every other chain. -/
structure Rooted (search : ClassSearch) (s : Loader) : Prop where
  top : ∀ root c, s.findLoaded? objectName = some root → s.classes[root]? = some c →
    c.superClass = none
  chains : ∀ name id c, s.findLoaded? name = some id → s.classes[id]? = some c →
    ¬c.isPrimitive → s.RootedAt search name id

/-- What is loaded extends only what has a class file, and arrays do not extend an interface. -/
structure ExtendsFiles (search : ClassSearch) (s : Loader) : Prop where
  files : ∀ name id file parent interfaceNames, s.findLoaded? name = some id →
    Blueprint.ofName search name = .ok (.ordinary file (some parent) interfaceNames) →
      Blueprint.isSearched parent
  arrays : ∀ name id, s.findLoaded? name = some id → Blueprint.isArrayName name →
    ¬search.HasInterface objectName

variable {config : LoaderConfig} {search : ClassSearch} {s : Loader} {name : String}
  {id parent root : ClassId} {c d : LoadedClass}

/-! ### Kinds of loaded classes -/

/-- A loaded class is primitive, an array on top of the root class, or of a file that passed. -/
theorem Sound.kind_cases (hs : s.Sound config search) (h : s.findLoaded? name = some id)
    (hc : s.classes[id]? = some c) :
    (c.isPrimitive ∧ c.superClass = none ∧ ¬Blueprint.isSearched name ∧
      ¬Blueprint.isArrayName name) ∨
    (c.isArray ∧ Blueprint.isArrayName name ∧
      ∃ parent, c.superClass = some parent ∧ s.findLoaded? objectName = some parent) ∨
    (c.kind = .ordinary ∧ Blueprint.isSearched name ∧ ∃ file superName interfaceNames,
      Blueprint.ofName search name = .ok (.ordinary file superName interfaceNames) ∧
        file.Passes config search name superName interfaceNames ∧
        Option.Rel (fun parent i => s.findLoaded? parent = some i) superName c.superClass) := by
  obtain ⟨past, plan, ids, built, rfl, hext, hplan, hdeps, hbuild⟩ := hs.made name id h
  obtain ⟨d, hd, hfixed⟩ := hext past.size built (by simp)
  rw [hc] at hd
  cases hd
  have hkind : c.kind = built.kind := congrArg (·.kind) hfixed
  have hsuper : c.superClass = built.superClass := congrArg (·.superClass) hfixed
  obtain ⟨type, htype, rfl⟩ | ⟨component, harray, -, rfl⟩ | ⟨bytes, hsearched, -, hbytes⟩ :=
    Blueprint.ofName_cases hplan
  · cases hbuild
    refine .inl ⟨by simp [LoadedClass.isPrimitive, hkind, Blueprint.buildPrimitive,
      Blueprint.synthetic], hsuper, by simp [Blueprint.isSearched, htype], fun harray => ?_⟩
    rw [Blueprint.primitiveClass?_of_isArrayName harray] at htype
    cases htype
  · cases hdeps with
    | cons _ hdeps =>
    cases hdeps with
    | cons hobject _ =>
    cases hbuild
    exact .inr (.inl ⟨by simp [LoadedClass.isArray, hkind, Blueprint.buildArray,
      Blueprint.synthetic], harray, _, hsuper, hobject.1⟩)
  · obtain ⟨file, superName, interfaceNames, -, -, -, -, rfl⟩ :=
      Blueprint.ofBytes_eq_ok_iff.1 hbytes
    obtain ⟨d, hd, -, hordinary, -, hparent⟩ := hs.exists_ordinary h hplan
    rw [hc] at hd
    cases hd
    exact .inr (.inr ⟨hordinary, hsearched, file, superName, interfaceNames, hplan,
      (hs.loadable h).passes hplan, hparent⟩)

theorem Sound.kind_eq_ordinary_iff (hs : s.Sound config search) (h : s.findLoaded? name = some id)
    (hc : s.classes[id]? = some c) : c.kind = .ordinary ↔ Blueprint.isSearched name := by
  obtain ⟨hkind, -, hname, -⟩ | ⟨hkind, hname, -⟩ | ⟨hkind, hname, -⟩ := hs.kind_cases h hc
  · refine iff_of_false (fun hordinary => ?_) hname
    simp [LoadedClass.isPrimitive, hordinary] at hkind
  · refine iff_of_false (fun hordinary => ?_) (by simp [Blueprint.isSearched, hname])
    simp [LoadedClass.isArray, hordinary] at hkind
  · exact iff_of_true hkind hname

/-- A class is proper exactly if its name is that of a file that declares no interface. -/
theorem Sound.isProper_iff (hs : s.Sound config search) (h : s.findLoaded? name = some id)
    (hc : s.classes[id]? = some c) :
    c.IsProper ↔ Blueprint.isSearched name ∧ ¬search.HasInterface name := by
  obtain ⟨d, hd, hiff⟩ := hs.stands h
  rw [hc] at hd
  cases hd
  rw [LoadedClass.IsProper, hs.kind_eq_ordinary_iff h hc, hiff]

/-! ### Chains -/

theorem Rooted.isProper (hr : s.Rooted search) (h : s.findLoaded? name = some id)
    (hc : s.classes[id]? = some c) (hp : ¬c.isPrimitive) (hs : s.SuperOf id parent)
    (hlt : parent < id) : ∃ d, s.classes[parent]? = some d ∧ d.IsProper := by
  refine (hr.chains name id c h hc hp).proper parent ?_
  rw [superChain_of_superOf hs hlt, List.tail_cons, ClassTable.superChain]
  exact List.mem_cons_self

theorem Sound.extendsFiles (hs : s.Sound config search) (hr : s.Rooted search) :
    s.ExtendsFiles search := by
  constructor
  · intro name id file parentName interfaceNames h hplan
    obtain ⟨c, parent, hc, hkind, hloaded, hof, hlt⟩ := hs.exists_super h hplan
    have hp : ¬c.isPrimitive := by simp [LoadedClass.isPrimitive, hkind]
    obtain ⟨d, hd, hproper⟩ := hr.isProper h hc hp hof hlt
    exact ((hs.isProper_iff hloaded hd).1 hproper).1
  · intro name id h harray
    obtain ⟨c, hc, -⟩ := hs.exists_linked h
    obtain ⟨-, -, -, hno⟩ | ⟨hkind, -, parent, hparent, hloaded⟩ | ⟨-, hsearched, -⟩ :=
      hs.kind_cases h hc
    · exact absurd harray hno
    · have hp : ¬c.isPrimitive := by
        cases hc : c.kind <;> simp [LoadedClass.isArray, LoadedClass.isPrimitive, hc] at hkind ⊢
      have hof : s.SuperOf id parent := (superOf_iff hc).2 hparent
      obtain ⟨d, hd, hproper⟩ := hr.isProper h hc hp hof (hs.superOf ⟨name, h⟩ hof).1
      exact ((hs.isProper_iff hloaded hd).1 hproper).2
    · simp [Blueprint.isSearched, harray] at hsearched

/-- The super class of a class is proper. -/
theorem ExtendsFiles.isProper (hx : s.ExtendsFiles search) (hs : s.Sound config search)
    (h : s.IsLoaded id) (hp : s.SuperOf id parent) :
    ∃ d, s.classes[parent]? = some d ∧ d.IsProper := by
  obtain ⟨name, h⟩ := h
  obtain ⟨c, hc, hparent⟩ := Option.bind_eq_some_iff.1 hp
  obtain ⟨d, hd, -⟩ := hs.exists_named (hs.superOf ⟨name, h⟩ hp).2
  refine ⟨d, hd, ?_⟩
  obtain ⟨-, hnone, -⟩ | ⟨-, harray, root, hroot, hloaded⟩ |
    ⟨-, -, file, superName, interfaceNames, hplan, hpasses, hsuper⟩ := hs.kind_cases h hc
  · rw [hnone] at hparent
    cases hparent
  · rw [hroot] at hparent
    cases hparent
    exact (hs.isProper_iff hloaded hd).2 ⟨by decide, hx.arrays name id h harray⟩
  · rw [hparent] at hsuper
    cases hsuper with
    | some hloaded =>
    exact (hs.isProper_iff hloaded hd).2 ⟨hx.files name id file _ interfaceNames h hplan,
      hpasses.superClass _ rfl⟩

theorem ExtendsFiles.proper (hx : s.ExtendsFiles search) (hs : s.Sound config search)
    (h : s.IsLoaded id) :
    ∀ i ∈ (s.classes.superChain id).tail, ∃ d, s.classes[i]? = some d ∧ d.IsProper := by
  refine hs.super_induct (P := fun id => ∀ i ∈ (s.classes.superChain id).tail,
    ∃ d, s.classes[i]? = some d ∧ d.IsProper) ?_ ?_ h
  · intro id _ hroot i hi
    rw [superChain_of_root hroot] at hi
    cases hi
  · intro id parent hid hparent hlt _ ih i hi
    rw [superChain_of_superOf hparent hlt, List.tail_cons, ← List.cons_head?_tail
      (hs.climbs (hs.superOf hid hparent).2).start] at hi
    rcases List.mem_cons.1 hi with rfl | hi
    · exact hx.isProper hs hid hparent
    · exact ih i hi

/-- Of the classes that extend nothing, only the root class is proper. -/
theorem Sound.objectName_of_isProper (hs : s.Sound config search)
    (h : s.findLoaded? name = some id) (hc : s.classes[id]? = some c) (hp : c.IsProper)
    (htop : c.superClass = none) : name = objectName := by
  obtain ⟨hprimitive, -⟩ | ⟨-, -, parent, hparent, -⟩ |
    ⟨-, -, file, superName, interfaceNames, hplan, hpasses, hsuper⟩ := hs.kind_cases h hc
  · simp [LoadedClass.isPrimitive, hp.1] at hprimitive
  · rw [htop] at hparent
    cases hparent
  · rw [htop] at hsuper
    cases hsuper
    refine (hpasses.root rfl).resolve_left fun hinterface => ?_
    exact ((hs.isProper_iff h hc).1 hp).2 ⟨file, none, interfaceNames, hplan, hinterface⟩

/-- Above a class that extends another, the chain ends at the root class. -/
theorem ExtendsFiles.getLast?_superChain (hx : s.ExtendsFiles search)
    (hs : s.Sound config search) (h : s.IsLoaded id) (hp : s.SuperOf id parent) :
    ∃ root, s.findLoaded? objectName = some root ∧ root < id ∧
      (s.classes.superChain id).getLast? = some root := by
  obtain ⟨hlt, hloaded⟩ := hs.superOf h hp
  have hclimbs := hs.climbs hloaded
  have hchain := superChain_of_superOf hp hlt
  cases habove : s.classes.superChain parent with
  | nil =>
    rw [habove] at hclimbs
    cases hclimbs.start
  | cons first rest =>
  obtain ⟨root, hroot⟩ : ∃ root, (first :: rest).getLast? = some root := ⟨_, List.getLast?_cons⟩
  rw [habove] at hclimbs hchain
  have hmem : root ∈ first :: rest := List.mem_of_getLast? hroot
  obtain ⟨c, hc, hname⟩ := hs.exists_named (hclimbs.loaded root hmem)
  obtain ⟨d, hd, hproper⟩ := hx.proper hs h root (by rw [hchain]; exact hmem)
  rw [hc] at hd
  cases hd
  have htop : c.superClass = none := Option.eq_none_iff_forall_not_mem.2 fun above habove =>
    hclimbs.top root hroot above ((superOf_iff hc).2 habove)
  rw [hs.objectName_of_isProper hname hc hproper htop] at hname
  refine ⟨root, hname, ?_, by rw [hchain, List.getLast?_cons_cons, hroot]⟩
  exact Nat.lt_of_le_of_lt (ClassTable.le_of_mem_superChain (habove ▸ hmem)) hlt

theorem ExtendsFiles.rooted (hx : s.ExtendsFiles search) (hs : s.Sound config search) :
    s.Rooted search := by
  constructor
  · intro root c hroot hc
    refine Option.eq_none_iff_forall_not_mem.2 fun parent hparent => ?_
    obtain ⟨last, hlast, hlt, -⟩ :=
      hx.getLast?_superChain hs ⟨_, hroot⟩ ((superOf_iff hc).2 hparent)
    rw [hroot] at hlast
    cases hlast
    exact Nat.lt_irrefl root hlt
  · intro name id c h hc hp
    refine ⟨hx.proper hs ⟨name, h⟩, ?_, fun hbare => ?_⟩
    · rintro ⟨file, interfaceNames, hplan, -⟩
      exact superChain_of_root (hs.not_superOf h hplan)
    · have hends : ∃ root, s.findLoaded? objectName = some root ∧
          (s.classes.superChain id).getLast? = some root := by
        cases hparent : c.superClass with
        | some parent =>
          obtain ⟨root, hroot, -, hlast⟩ :=
            hx.getLast?_superChain hs ⟨_, h⟩ ((superOf_iff hc).2 hparent)
          exact ⟨root, hroot, hlast⟩
        | none =>
          -- neither a primitive class nor an array nor a bare interface: the root class itself
          obtain ⟨hprimitive, -⟩ | ⟨-, -, parent, hsuper, -⟩ |
            ⟨-, -, file, superName, interfaceNames, hplan, hpasses, hsuper⟩ := hs.kind_cases h hc
          · exact absurd hprimitive hp
          · rw [hparent] at hsuper
            cases hsuper
          · rw [hparent] at hsuper
            cases hsuper
            have hname : name = objectName := (hpasses.root rfl).resolve_left fun hinterface =>
              hbare ⟨file, interfaceNames, hplan, hinterface⟩
            rw [hname] at h
            refine ⟨id, h, ?_⟩
            rw [superChain_of_root fun above habove => ?_, List.getLast?_singleton]
            rw [superOf_iff hc, hparent] at habove
            cases habove
      obtain ⟨root, hroot, hlast⟩ := hends
      exact ⟨root, hroot, hlast, List.contains_iff_mem.2 (List.mem_of_getLast? hlast)⟩

end Loader

/-! ### A class on top of a primitive one -/

namespace OddPath

/-- The file of a class that extends a primitive class. -/
def oddFile : ClassFile := .ofFields "Odd" (some "int") []

def classFile : ClassFile := .ofFields classClassName (some objectName) []

def search : ClassSearch :=
  .ofFiles [(objectName, SmallPath.objectFile), (classClassName, classFile), ("Odd", oddFile)]

theorem standsFor_class : classFile.StandsFor classClassName (some objectName) [] :=
  ⟨by decide +kernel, rfl, rfl, rfl⟩

theorem ofName_object :
    Blueprint.ofName search objectName = .ok (.ordinary SmallPath.objectFile none []) :=
  Blueprint.ofName_of_file (by decide) rfl SmallPath.standsFor_object

theorem ofName_class :
    Blueprint.ofName search classClassName = .ok (.ordinary classFile (some objectName) []) :=
  Blueprint.ofName_of_file (by decide) rfl standsFor_class

theorem ofName_odd : Blueprint.ofName search "Odd" = .ok (.ordinary oddFile (some "int") []) :=
  Blueprint.ofName_of_file (by decide) rfl ⟨by decide +kernel, rfl, rfl, rfl⟩

theorem loadable_class : Loadable .standard search classClassName := by
  refine .of_plan ofName_class (List.forall_mem_singleton.2
    (SmallPath.loadable_of_objectFile ofName_object)) (ClassFile.passes_ofFields_nil ?_)
  rintro ⟨file, superName, interfaceNames, hplan, hflags⟩
  rw [ofName_object] at hplan
  cases hplan
  exact absurd hflags (by decide)

theorem loadable_odd : Loadable .standard search "Odd" := by
  refine .of_plan ofName_odd (List.forall_mem_singleton.2 (.primitive rfl))
    (ClassFile.passes_ofFields_nil ?_)
  rintro ⟨file, superName, interfaceNames, hplan, -⟩
  cases hplan

end OddPath

theorem SmallPath.isSearched_super {name parent : String} {file : ClassFile}
    {interfaceNames : List String}
    (h : Blueprint.ofName search name = .ok (.ordinary file (some parent) interfaceNames)) :
    Blueprint.isSearched parent := by
  obtain ⟨_, -, ⟨⟩⟩ | ⟨_, -, -, ⟨⟩⟩ | ⟨bytes, -, hfind, -⟩ := Blueprint.ofName_cases h
  have hname : name ∈ [objectName, classClassName, "Loop"] := search.mem_names name bytes hfind
  simp only [List.mem_cons, List.not_mem_nil, or_false] at hname
  obtain rfl | rfl | rfl := hname
  · rw [ofName_object] at h
    cases h
  · rw [ofName_class] at h
    cases h
    decide
  · rw [ofName_loop] at h
    cases h
    decide

/-! ### The root of all classes -/

namespace Machine.Reachable

variable {config : LoaderConfig} {search : ClassSearch} {m : Machine}

/-- Super classes are proper classes and all chains end at the root class exactly as long as no
class file that has been loaded names a primitive or an array class as its super class, and no array
has been loaded on top of a root class that is an interface. -/
theorem rooted_iff_extendsFiles (hm : m.Reachable config search) :
    m.loader.Rooted search ↔ m.loader.ExtendsFiles search :=
  ⟨hm.sound.loader.extendsFiles, fun hx => hx.rooted hm.sound.loader⟩

theorem small_rooted : ∃ (m : Machine) (id : ClassId), m.Reachable .standard SmallPath.search ∧
    m.loader.findLoaded? classClassName = some id ∧ m.loader.ExtendsFiles SmallPath.search ∧
      m.loader.Rooted SmallPath.search := by
  obtain ⟨s, hs⟩ := (Loader.bootstrap_isOk_iff ⟨.standard, SmallPath.search, .skip⟩).2
    SmallPath.loadable_class
  have hm : Reachable .standard SmallPath.search ⟨s, #[]⟩ := .ready .skip hs
  obtain ⟨id, hid⟩ := Loader.findLoaded?_bootstrap hs
  have hx : s.ExtendsFiles SmallPath.search := by
    refine ⟨fun _ _ _ _ _ _ hplan => SmallPath.isSearched_super hplan, fun _ _ _ _ => ?_⟩
    rintro ⟨file, superName, interfaceNames, hplan, hflags⟩
    rw [SmallPath.ofName_object] at hplan
    cases hplan
    exact absurd hflags (by decide)
  exact ⟨⟨s, #[]⟩, id, hm, hid, hx, (rooted_iff_extendsFiles hm).2 hx⟩

/-- A class that is neither primitive nor an interface has a primitive class above it, and is no
subclass of the root class. -/
theorem odd_not_below_object : ∃ (m : Machine) (id int root : ClassId) (c : LoadedClass),
    m.Reachable .standard OddPath.search ∧ m.loader.findLoaded? "Odd" = some id ∧
      m.loader.findLoaded? "int" = some int ∧ m.loader.findLoaded? objectName = some root ∧
      m.loader.classes[id]? = some c ∧ c.IsProper ∧ m.loader.classes.superChain id = [id, int] ∧
      ¬m.loader.classes.isSubclass id root ∧ ¬m.loader.Rooted OddPath.search := by
  let env : Environment := ⟨.standard, OddPath.search, .skip⟩
  obtain ⟨s, hready⟩ := (Loader.bootstrap_isOk_iff env).2 OddPath.loadable_class
  have hs : Loader.History .standard OddPath.search s := .ready .skip hready
  have hm : Reachable .standard OddPath.search ⟨s.serve env (.load "Odd"), #[]⟩ :=
    .serve .skip (.load "Odd") (.ready .skip hready)
  generalize ht : s.serve env (.load "Odd") = t at hm
  have hsound : t.Sound .standard OddPath.search := hm.sound.loader
  obtain ⟨id, hid⟩ := (hs.atRest.load_isOk_iff env hs.sound).2 OddPath.loadable_odd
  have hload := hs.sound.load env "Odd"
  have hodd : t.findLoaded? "Odd" = some id := ht ▸ hload.loaded id hid
  obtain ⟨classClass, hclass⟩ := Loader.findLoaded?_bootstrap hready
  have hclass : t.findLoaded? classClassName = some classClass :=
    ht ▸ hload.changes.findLoaded? hs.sound.toTidy hclass
  obtain ⟨-, root, -, -, hroot, -⟩ := hsound.exists_super hclass OddPath.ofName_class
  obtain ⟨c, int, hc, -, hint, hof, hlt⟩ := hsound.exists_super hodd OddPath.ofName_odd
  have htop : ∀ parent, ¬t.SuperOf int parent := by
    intro parent hparent
    obtain ⟨d, hd, habove⟩ := Option.bind_eq_some_iff.1 hparent
    obtain ⟨-, hnone, -⟩ | ⟨-, harray, -⟩ | ⟨-, hsearched, -⟩ := hsound.kind_cases hint hd
    · rw [hnone] at habove
      cases habove
    · exact absurd harray (by decide)
    · exact absurd hsearched (by decide)
  have hchain : t.classes.superChain id = [id, int] := by
    rw [Loader.superChain_of_superOf hof hlt, Loader.superChain_of_root htop]
  have hproper : c.IsProper := by
    refine (hsound.isProper_iff hodd hc).2 ⟨by decide, ?_⟩
    rintro ⟨file, superName, interfaceNames, hplan, hflags⟩
    rw [OddPath.ofName_odd] at hplan
    cases hplan
    exact absurd hflags (by decide)
  refine ⟨⟨t, #[]⟩, id, int, root, c, hm, hodd, hint, hroot, hc, hproper, hchain, fun hsub => ?_,
    fun hrooted => ?_⟩
  · rw [ClassTable.isSubclass, hchain, List.contains_iff_mem, List.mem_pair] at hsub
    rcases hsub with rfl | rfl
    · exact absurd (hsound.findLoaded?_inj hroot hodd) (by decide)
    · exact absurd (hsound.findLoaded?_inj hroot hint) (by decide)
  · have hx := hsound.extendsFiles hrooted
    exact absurd (hx.files _ _ _ _ _ hodd OddPath.ofName_odd) (by decide)

end Machine.Reachable

end ClassLoading
