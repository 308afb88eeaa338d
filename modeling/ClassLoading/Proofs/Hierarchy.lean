import ClassLoading.Proofs.FieldLayout
import ClassLoading.Proofs.Initializing

/-! The hierarchy of the loaded classes. A class refers to its component, its super class and its
interfaces, and each of these is the class that the registry has under its own name. They all stand
before it in the table, so no reference comes back to where it started: the walk up the super
classes visits every one of them and ends, and to be a subclass is a partial order. -/
namespace ClassLoading

namespace Loader

variable {config : LoaderConfig} {search : ClassSearch} {s : Loader} {name : String}
  {id other parent : ClassId} {c : LoadedClass}

/-- Some name is loaded as the class at the place. -/
def IsLoaded (s : Loader) (id : ClassId) : Prop := ∃ name, s.findLoaded? name = some id

/-- The other class is the component, the super class or an interface of the first. -/
def Refers (s : Loader) (id other : ClassId) : Prop :=
  ∃ c, s.classes[id]? = some c ∧ other ∈ c.references

/-- The chain goes from a class to its super class, and so on until there is none. -/
structure Climbs (s : Loader) (id : ClassId) (chain : List ClassId) : Prop where
  start : chain.head? = some id
  links : chain.IsChain s.SuperOf
  loaded : ∀ i ∈ chain, s.IsLoaded i
  top : ∀ last, chain.getLast? = some last → ∀ parent, ¬s.SuperOf last parent

theorem superOf_iff (hc : s.classes[id]? = some c) :
    s.SuperOf id parent ↔ c.superClass = some parent := by
  rw [SuperOf, hc, Option.bind_some]

theorem SuperOf.refers (h : s.SuperOf id parent) : s.Refers id parent := by
  obtain ⟨c, hc, hparent⟩ := Option.bind_eq_some_iff.1 h
  exact ⟨c, hc, by simp [LoadedClass.references, hparent]⟩

/-! ### References -/

/-- A loaded class has its name, and what it refers to is loaded and stands before it. -/
theorem Sound.exists_linked (hs : s.Sound config search) (h : s.findLoaded? name = some id) :
    ∃ c, s.classes[id]? = some c ∧ c.name = name ∧
      ∀ i ∈ c.references, i < id ∧ s.IsLoaded i := by
  obtain ⟨past, plan, ids, built, rfl, hext, -, hdeps, hbuild⟩ := hs.made name id h
  obtain ⟨c, hc, hfixed⟩ := hext past.size built (by simp)
  obtain ⟨hname, hrefs⟩ := Blueprint.references_build hbuild
  refine ⟨c, hc, (congrArg (·.name) hfixed).trans hname, fun i hi => ?_⟩
  rw [LoadedClass.references_eq_of_fixed hfixed] at hi
  obtain ⟨dependency, -, hloaded, hlt⟩ := exists_of_mem_forall₂ hdeps (hrefs i hi)
  exact ⟨hlt, dependency, hloaded⟩

theorem Sound.findLoaded?_inj (hs : s.Sound config search) {otherName : String}
    (h : s.findLoaded? name = some id) (h' : s.findLoaded? otherName = some id) :
    name = otherName := by
  obtain ⟨c, hc, hname, -⟩ := hs.exists_linked h
  obtain ⟨d, hd, hother, -⟩ := hs.exists_linked h'
  rw [hc] at hd
  cases hd
  exact hname.symm.trans hother

/-- The class at a place that some name is loaded as is the one of its own name. -/
theorem Sound.exists_named (hs : s.Sound config search) (h : s.IsLoaded id) :
    ∃ c, s.classes[id]? = some c ∧ s.findLoaded? c.name = some id := by
  obtain ⟨name, hname⟩ := h
  obtain ⟨c, hc, rfl, -⟩ := hs.exists_linked hname
  exact ⟨c, hc, hname⟩

theorem Sound.refers (hs : s.Sound config search) (h : s.IsLoaded id) (hr : s.Refers id other) :
    other < id ∧ s.IsLoaded other := by
  obtain ⟨name, hname⟩ := h
  obtain ⟨c, hc, -, hrefs⟩ := hs.exists_linked hname
  obtain ⟨d, hd, hmem⟩ := hr
  rw [hc] at hd
  cases hd
  exact hrefs other hmem

theorem Sound.superOf (hs : s.Sound config search) (h : s.IsLoaded id)
    (hp : s.SuperOf id parent) : parent < id ∧ s.IsLoaded parent := hs.refers h hp.refers

/-- References lead to earlier places only, however many are followed. -/
theorem Sound.refers_transGen (hs : s.Sound config search) (h : s.IsLoaded id)
    (hr : Relation.TransGen s.Refers id other) : other < id ∧ s.IsLoaded other := by
  induction hr with
  | single hr => exact hs.refers h hr
  | tail _ hr ih =>
    obtain ⟨hlt, hloaded⟩ := hs.refers ih.2 hr
    exact ⟨Nat.lt_trans hlt ih.1, hloaded⟩

/-! ### Super classes -/

theorem superChain_of_superOf (h : s.SuperOf id parent) (hlt : parent < id) :
    s.classes.superChain id = id :: s.classes.superChain parent :=
  ClassTable.superChain_of_some h hlt

theorem superChain_of_root (h : ∀ parent, ¬s.SuperOf id parent) :
    s.classes.superChain id = [id] :=
  ClassTable.superChain_of_none (Option.eq_none_iff_forall_not_mem.2 h)

/-- The class of a file that names a super class extends the class of that name. -/
theorem Sound.exists_super (hs : s.Sound config search) (h : s.findLoaded? name = some id)
    {file : ClassFile} {parentName : String} {interfaceNames : List String}
    (hplan : Blueprint.ofName search name = .ok (.ordinary file (some parentName) interfaceNames)) :
    ∃ c parent, s.classes[id]? = some c ∧ c.kind = .ordinary ∧
      s.findLoaded? parentName = some parent ∧ s.SuperOf id parent ∧ parent < id := by
  obtain ⟨c, hc, -, hkind, -, hsuper⟩ := hs.exists_ordinary h hplan
  cases hparent : c.superClass with
  | none =>
    rw [hparent] at hsuper
    cases hsuper
  | some parent =>
    rw [hparent] at hsuper
    cases hsuper with
    | some hloaded =>
    have hof : s.SuperOf id parent := (superOf_iff hc).2 hparent
    exact ⟨c, parent, hc, hkind, hloaded, hof, (hs.superOf ⟨name, h⟩ hof).1⟩

/-- The class of a file that names no super class extends nothing. -/
theorem Sound.not_superOf (hs : s.Sound config search) (h : s.findLoaded? name = some id)
    {file : ClassFile} {interfaceNames : List String}
    (hplan : Blueprint.ofName search name = .ok (.ordinary file none interfaceNames))
    (parent : ClassId) : ¬s.SuperOf id parent := by
  obtain ⟨c, hc, -, -, -, hsuper⟩ := hs.exists_ordinary h hplan
  intro hparent
  rw [superOf_iff hc] at hparent
  rw [hparent] at hsuper
  cases hsuper

/-- Induction from the top of the hierarchy down. -/
theorem Sound.super_induct (hs : s.Sound config search) {P : ClassId → Prop}
    (root : ∀ id, s.IsLoaded id → (∀ parent, ¬s.SuperOf id parent) → P id)
    (below : ∀ id parent, s.IsLoaded id → s.SuperOf id parent → parent < id →
      s.IsLoaded parent → P parent → P id) (h : s.IsLoaded id) : P id := by
  induction id using Nat.strongRecOn with
  | ind id ih =>
    by_cases hroot : ∃ parent, s.SuperOf id parent
    · obtain ⟨parent, hparent⟩ := hroot
      obtain ⟨hlt, hloaded⟩ := hs.superOf h hparent
      exact below id parent h hparent hlt hloaded (ih parent hlt hloaded)
    · exact root id h (not_exists.1 hroot)

theorem Sound.climbs (hs : s.Sound config search) (h : s.IsLoaded id) :
    s.Climbs id (s.classes.superChain id) := by
  refine hs.super_induct (P := fun id => s.Climbs id (s.classes.superChain id)) ?_ ?_ h
  · intro id hid hroot
    rw [superChain_of_root hroot]
    refine ⟨rfl, .singleton id, List.forall_mem_singleton.2 hid, fun last hlast => ?_⟩
    cases hlast
    exact hroot
  · intro id parent hid hparent hlt _ ih
    rw [superChain_of_superOf hparent hlt]
    obtain ⟨hstart, hlinks, hloaded, htop⟩ := ih
    cases hchain : s.classes.superChain parent with
    | nil => simp [hchain] at hstart
    | cons first rest =>
      rw [hchain] at hstart hlinks hloaded htop
      cases hstart
      refine ⟨rfl, List.isChain_cons_cons.2 ⟨hparent, hlinks⟩,
        List.forall_mem_cons.2 ⟨hid, hloaded⟩, fun last hlast => htop last ?_⟩
      rwa [List.getLast?_cons_cons] at hlast

/-- The walk up from a class meets exactly its super classes, near and far, and itself. -/
theorem Sound.isSubclass_iff (hs : s.Sound config search) (h : s.IsLoaded id) :
    s.classes.isSubclass id other ↔ Relation.ReflTransGen s.SuperOf id other := by
  rw [ClassTable.isSubclass, List.contains_iff_mem]
  constructor
  · refine hs.super_induct (P := fun id => other ∈ s.classes.superChain id →
      Relation.ReflTransGen s.SuperOf id other) ?_ ?_ h
    · intro id _ hroot hmem
      rw [superChain_of_root hroot, List.mem_singleton] at hmem
      exact hmem ▸ .refl
    · intro id parent _ hparent hlt _ ih hmem
      rw [superChain_of_superOf hparent hlt] at hmem
      rcases List.mem_cons.1 hmem with rfl | hmem
      · exact .refl
      · exact .head hparent (ih hmem)
  · intro hr
    induction hr using Relation.ReflTransGen.head_induction_on with
    | refl =>
      rw [ClassTable.superChain]
      exact List.mem_cons_self
    | head hparent _ ih =>
      obtain ⟨hlt, hloaded⟩ := hs.superOf h hparent
      rw [superChain_of_superOf hparent hlt]
      exact List.mem_cons_of_mem _ (ih hloaded)

theorem Sound.isSubclass_trans (hs : s.Sound config search) (h : s.IsLoaded id)
    (hio : s.classes.isSubclass id other) (hop : s.classes.isSubclass other parent) :
    s.classes.isSubclass id parent := by
  have hup := (hs.isSubclass_iff h).1 hio
  have hother : s.IsLoaded other :=
    (hs.climbs h).loaded other (List.contains_iff_mem.1 hio)
  exact (hs.isSubclass_iff h).2 (hup.trans ((hs.isSubclass_iff hother).1 hop))

theorem isSubclass_refl (s : Loader) (id : ClassId) : s.classes.isSubclass id id := by
  rw [ClassTable.isSubclass, ClassTable.superChain, List.contains_iff_mem]
  exact List.mem_cons_self

theorem isSubclass_antisymm (hio : s.classes.isSubclass id other)
    (hoi : s.classes.isSubclass other id) : id = other :=
  Nat.le_antisymm (ClassTable.le_of_mem_superChain (List.contains_iff_mem.1 hoi))
    (ClassTable.le_of_mem_superChain (List.contains_iff_mem.1 hio))

/-- The walk for a field looks at the class itself and then goes on at its super class. -/
theorem Sound.instanceField?_eq (hs : s.Sound config search) (h : s.IsLoaded id)
    (hc : s.classes[id]? = some c) (field : String) (type : FieldType) :
    s.classes.instanceField? id field type = (c.ownInstanceField? field type).or
      (c.superClass.bind fun parent => s.classes.instanceField? parent field type) := by
  have hown : s.classes[id]?.bind (·.ownInstanceField? field type) =
      c.ownInstanceField? field type := by rw [hc, Option.bind_some]
  rw [ClassTable.instanceField?]
  cases hsuper : c.superClass with
  | none =>
    rw [ClassTable.superChain_of_none (by rw [hc, Option.bind_some, hsuper]),
      List.findSome?_singleton, hown]
    simp
  | some parent =>
    have hparent := (superOf_iff hc).2 hsuper
    rw [superChain_of_superOf hparent (hs.superOf h hparent).1, List.findSome?_cons, hown,
      Option.bind_some, ClassTable.instanceField?]
    cases c.ownInstanceField? field type <;> rfl

end Loader

/-! ### The whole hierarchy -/

namespace Machine.Reachable

variable {config : LoaderConfig} {search : ClassSearch} {m : Machine}

/-- In every state of a loader that threads and requests can bring about: a loaded class refers only
to what the registry has under the names of these classes; no chain of references comes back; the
walks up the super classes visit all of them and end; and to be a subclass is a partial order of the
loaded classes, namely to have the other class among the super classes or to be it. -/
theorem hierarchy_wellFounded (hm : m.Reachable config search) :
    (∀ name id, m.loader.findLoaded? name = some id → ∃ c, m.loader.classes[id]? = some c ∧
      c.name = name ∧ ∀ i ∈ c.references, ∃ d, m.loader.classes[i]? = some d ∧
        m.loader.findLoaded? d.name = some i) ∧
    (∀ id, m.loader.IsLoaded id → ¬Relation.TransGen m.loader.Refers id id) ∧
    (∀ id, m.loader.IsLoaded id → m.loader.Climbs id (m.loader.classes.superChain id)) ∧
    (∀ id c field type, m.loader.IsLoaded id → m.loader.classes[id]? = some c →
      m.loader.classes.instanceField? id field type = (c.ownInstanceField? field type).or
        (c.superClass.bind fun parent => m.loader.classes.instanceField? parent field type)) ∧
    (∀ a b, m.loader.IsLoaded a →
      (m.loader.classes.isSubclass a b ↔ Relation.ReflTransGen m.loader.SuperOf a b)) ∧
    (∀ a, m.loader.classes.isSubclass a a) ∧
    (∀ a b c, m.loader.IsLoaded a → m.loader.classes.isSubclass a b →
      m.loader.classes.isSubclass b c → m.loader.classes.isSubclass a c) ∧
    (∀ a b, m.loader.classes.isSubclass a b → m.loader.classes.isSubclass b a → a = b) := by
  have hs := hm.sound.loader
  refine ⟨fun name id h => ?_, fun id h hcycle => ?_, fun id h => hs.climbs h,
    fun id c field type h hc => hs.instanceField?_eq h hc field type,
    fun a b h => hs.isSubclass_iff h, m.loader.isSubclass_refl,
    fun a b c h => hs.isSubclass_trans h, fun a b => Loader.isSubclass_antisymm⟩
  · obtain ⟨c, hc, hname, hrefs⟩ := hs.exists_linked h
    exact ⟨c, hc, hname, fun i hi => hs.exists_named (hrefs i hi).2⟩
  · exact Nat.lt_irrefl id (hs.refers_transGen h hcycle).1

/-- The class of class objects is a subclass of the root class, which the registry has under the
name that it has itself, and not the other way round. -/
theorem classClass_below_object : ∃ (m : Machine) (id : ClassId) (root : ClassId),
    m.Reachable .standard SmallPath.search ∧ m.loader.findLoaded? classClassName = some id ∧
      m.loader.findLoaded? objectName = some root ∧ m.loader.classes.isSubclass id root ∧
      ¬m.loader.classes.isSubclass root id ∧ m.loader.Climbs id [id, root] := by
  obtain ⟨s, hs⟩ := (Loader.bootstrap_isOk_iff ⟨.standard, SmallPath.search, .skip⟩).2
    SmallPath.loadable_class
  have hm : Reachable .standard SmallPath.search ⟨s, #[]⟩ := .ready .skip hs
  have hsound := hm.sound.loader
  obtain ⟨id, hid⟩ := Loader.findLoaded?_bootstrap hs
  obtain ⟨c, root, -, -, hroot, hof, hlt⟩ := hsound.exists_super hid SmallPath.ofName_class
  obtain ⟨-, -, hclimbs, -, hiff, -, -, hanti⟩ := hierarchy_wellFounded hm
  have hbelow := (hiff id root ⟨_, hid⟩).2 (.single hof)
  have hchain : s.classes.superChain id = [id, root] := by
    rw [Loader.superChain_of_superOf hof hlt,
      Loader.superChain_of_root (hsound.not_superOf hroot SmallPath.ofName_object)]
  refine ⟨⟨s, #[]⟩, id, root, hm, hid, hroot, hbelow, fun habove => ?_, ?_⟩
  · exact Nat.ne_of_gt hlt (hanti id root hbelow habove)
  · rw [← hchain]
    exact hclimbs id ⟨_, hid⟩

end Machine.Reachable

end ClassLoading
