import ClassLoading.Proofs.ClassObjects
import ClassLoading.Proofs.Loadable

/-! Which names a load makes loaded. With a class all that it needs is loaded, and nothing else comes
along; and when a class fails on one of its dependencies, those that were loaded before it stay. -/
namespace ClassLoading

namespace Loader

variable {config : LoaderConfig} {search : ClassSearch} {env : Environment} {s t : Loader}
  {name n : String} {id : ClassId}

/-! ### What a load has loaded -/

theorem findLoaded?_congr (h : t.slot? n = s.slot? n) : t.findLoaded? n = s.findLoaded? n := by
  rw [findLoaded?, findLoaded?, h]

theorem findLoaded?_begin (hs : s.Tidy) (free : s.slot? name = none) (thread : ThreadId) :
    ((s.acquire thread name).noteLookup name).findLoaded? n = s.findLoaded? n := by
  by_cases hn : n = name
  · subst hn
    rw [findLoaded?, findLoaded?, slot?_noteLookup, slot?_acquire hs, if_pos rfl, free]
  · exact findLoaded?_congr (by rw [slot?_noteLookup, slot?_acquire hs, if_neg hn])

theorem findLoaded?_end {slot : SlotId} {r : Except LoadError LoadedClass} (hs : s.Tidy)
    (own : s.LoadingAt name slot) (hn : n ≠ name) :
    (s.complete name slot r).2.findLoaded? n = s.findLoaded? n :=
  findLoaded?_congr (by rw [slot?_complete hs own, if_neg hn])

/-- A load makes no other names loaded than that of the class and those of the classes that it
needs, directly or indirectly. -/
theorem load_needs (env : Environment) :
    (∀ (s : Loader) (name : String), s.Sound env.config env.search → ∀ n id,
      (s.load env name).2.findLoaded? n = some id → s.findLoaded? n = some id ∨
        Relation.ReflTransGen env.search.Needs name n) ∧
    ∀ (s : Loader) (names : List String), s.Sound env.config env.search → ∀ n id,
      (s.loadAll env names).2.findLoaded? n = some id → s.findLoaded? n = some id ∨
        ∃ d ∈ names, Relation.ReflTransGen env.search.Needs d n := by
  apply load_induct env
  case done =>
    intro s name r hs _ n id hid
    rw [load_of_done hs] at hid
    exact .inl hid
  case loading =>
    intro s name hs _ n id hid
    rw [load_of_loading hs] at hid
    exact .inl hid
  case unknown =>
    intro s name e free he hs n id hid
    have hstart := (Changes.acquire env.config env.search free mainThread).sound hs
    by_cases hn : n = name
    · exact .inr (hn ▸ .refl)
    · rw [load_of_blueprint_error free he, findLoaded?_end hstart.toTidy
        (noteLookup_loadingAt (acquire_loadingAt ..)) hn, findLoaded?_begin hs.toTidy free] at hid
      exact .inl hid
  case known =>
    intro s name plan free hplan hdeps hs n id hid
    have hstart := (Changes.acquire env.config env.search free mainThread).sound hs
    have own := loadingAt_loadAll env s name plan.dependencies
    have hall := (hstart.loadAll env plan.dependencies).changes.sound hstart
    by_cases hn : n = name
    · exact .inr (hn ▸ .refl)
    · rw [load_of_blueprint free hplan, findLoaded?_end hall.toTidy own hn] at hid
      rcases hdeps hstart n id hid with hold | ⟨d, hd, hneeds⟩
      · exact .inl (by rwa [findLoaded?_begin hs.toTidy free] at hold)
      · exact .inr (.head ⟨plan, hplan, hd⟩ hneeds)
  case nil =>
    intro s _ n id hid
    rw [loadAll_nil] at hid
    exact .inl hid
  case cons =>
    intro s name rest hname hrest hs n id hid
    have hload := hs.load env name
    replace hname := hname hs n id
    rw [loadAll_cons] at hid
    cases hl : s.load env name with
    | mk r t =>
    rw [hl] at hname hload hid
    cases r with
    | error e => exact (hname hid).imp_right fun hneeds => ⟨name, List.mem_cons_self, hneeds⟩
    | ok i =>
      rcases hrest i t hl (hload.changes.sound hs) n id hid with hmid | ⟨d, hd, hneeds⟩
      · exact (hname hmid).imp_right fun hneeds => ⟨name, List.mem_cons_self, hneeds⟩
      · exact .inr ⟨d, List.mem_cons_of_mem _ hd, hneeds⟩

/-- With a class, everything is loaded that it needs. -/
theorem Sound.exists_needed (hs : s.Sound config search) (h : s.findLoaded? name = some id)
    {d : String} (hd : search.Needs name d) : ∃ i, s.findLoaded? d = some i := by
  obtain ⟨plan, hplan, hmem⟩ := hd
  obtain ⟨past, plan', ids, c, -, -, hplan', hdeps, -⟩ := hs.made name id h
  rw [hplan] at hplan'
  cases hplan'
  obtain ⟨i, -, hi, -⟩ := exists_of_mem_forall₂ hdeps.flip hmem
  exact ⟨i, hi⟩

/-! ### What a loader has loaded when it gets ready -/

theorem findLoaded?_attachAll (s : Loader) (classClass : ClassId) (name : String) :
    (s.attachAll classClass).findLoaded? name = s.findLoaded? name := by
  unfold attachAll
  generalize s.loadedNames.filterMap s.findLoaded? = ids
  induction ids generalizing s with
  | nil => rfl
  | cons id ids ih => rw [List.foldl_cons, ih, findLoaded?_attachObject]

/-- A loader that has just got ready has loaded what the class of class objects needs, and the
primitive classes. -/
theorem bootstrap_needs {env : Environment} {t : Loader} (h : bootstrap env = .ok t)
    (hid : t.findLoaded? name = some id) :
    Relation.ReflTransGen env.search.Needs classClassName name ∨ name ∈ primitiveNames := by
  obtain ⟨classClass, s, ids, u, hload, hall, rfl⟩ := bootstrap_eq_ok h
  have hs := sound_empty.load env classClassName
  have hfirst := (load_needs env).1 empty classClassName sound_empty name id
  rw [hload] at hs hfirst
  have hready : Changes env.config env.search s { s with classClass := some classClass } :=
    .of (.grow rfl rfl (.refl _))
  have hmore := (load_needs env).2 _ primitiveNames
    (hready.sound (hs.changes.sound sound_empty)) name id
  rw [hall] at hmore
  rw [findLoaded?_attachAll] at hid
  rcases hmore hid with hold | ⟨d, hd, hneeds⟩
  · rcases hfirst hold with hempty | hneeds
    · cases hempty
    · exact .inl hneeds
  · -- primitive classes need nothing
    rcases Relation.ReflTransGen.cases_head hneeds with rfl | ⟨e, ⟨plan, hplan, he⟩, -⟩
    · exact .inr hd
    · have hsome : ∀ n ∈ primitiveNames, (primitiveClass? n).isSome := by decide
      obtain ⟨type, htype⟩ := Option.isSome_iff_exists.1 (hsome d hd)
      rw [Blueprint.ofName, htype] at hplan
      cases hplan
      cases he

/-! ### A load that may fail -/

/-- The first class that a name depends on is loaded with it, and stays loaded if the name fails. -/
theorem AtRest.exists_first_needed (h : s.AtRest) (hs : s.Sound env.config env.search)
    {plan : Blueprint} {d : String} {rest : List String}
    (hplan : Blueprint.ofName env.search name = .ok plan) (hd : plan.dependencies = d :: rest)
    (hloadable : Loadable env.config env.search d) :
    ∃ id, (s.load env name).2.findLoaded? d = some id := by
  have hneeds : env.search.Needs name d := ⟨plan, hplan, hd ▸ List.mem_cons_self⟩
  cases hslot : s.slot? name with
  | some x =>
    obtain ⟨id, rfl⟩ := h.loaded name x hslot
    have hid : s.findLoaded? name = some id := by simp only [findLoaded?, hslot]
    rw [load_of_done hslot]
    exact hs.exists_needed hid hneeds
  | none =>
    have hstart := (Changes.acquire env.config env.search hslot mainThread).sound hs
    have own := loadingAt_loadAll env s name plan.dependencies
    have hall := hstart.loadAll env plan.dependencies
    have hne : d ≠ name := by
      rintro rfl
      exact hloadable.acyclic (.single hneeds)
    -- only the name itself is in progress when its first dependency is asked for
    have hopen : ((s.acquire mainThread name).noteLookup name).Unblocked env.search d := by
      intro other hother hloading
      rw [slot?_noteLookup, slot?_acquire hs.toTidy] at hloading
      split at hloading
      · next heq =>
        subst heq
        exact hloadable.acyclic (.tail' hother hneeds)
      · exact h.not_loading other hloading
    have hload := hstart.load env d
    obtain ⟨id, hid⟩ := Loads.of_loadable env hloadable _ hstart
      (h.clean.acquire hs.toTidy name mainThread) hopen
    refine ⟨id, ?_⟩
    rw [load_of_blueprint hslot hplan, findLoaded?_end (hall.changes.sound hstart).toTidy own hne,
      hd, loadAll_cons]
    cases hl : ((s.acquire mainThread name).noteLookup name).load env d with
    | mk r t =>
    rw [hl] at hid hload
    cases hid
    have ht := hload.changes.sound hstart
    exact (ht.loadAll env rest).changes.findLoaded? ht.toTidy (hload.loaded id rfl)

end Loader

/-! ### A class path with a gap -/

namespace GapPath

def baseFile : ClassFile := .ofFields "Base" (some objectName) []

/-- The file of a class whose interface has no file. -/
def brokenFile : ClassFile :=
  { ClassFile.ofFields "Broken" (some "Base") [] with
    pool := ⟨[.utf8 "Broken", .classRef 1, .utf8 "Base", .classRef 3, .utf8 "Gone", .classRef 5]⟩
    interfaces := [6] }

def search : ClassSearch :=
  .ofFiles [(objectName, SmallPath.objectFile),
    (classClassName, .ofFields classClassName (some objectName) []), ("Base", baseFile),
    ("Broken", brokenFile)]

theorem ofName_object :
    Blueprint.ofName search objectName = .ok (.ordinary SmallPath.objectFile none []) :=
  Blueprint.ofName_of_file (by decide) rfl SmallPath.standsFor_object

theorem ofName_class : Blueprint.ofName search classClassName =
    .ok (.ordinary (.ofFields classClassName (some objectName) []) (some objectName) []) :=
  Blueprint.ofName_of_file (by decide) rfl ⟨by decide +kernel, rfl, rfl, rfl⟩

theorem ofName_base :
    Blueprint.ofName search "Base" = .ok (.ordinary baseFile (some objectName) []) :=
  Blueprint.ofName_of_file (by decide) rfl ⟨by decide +kernel, rfl, rfl, rfl⟩

theorem ofName_broken :
    Blueprint.ofName search "Broken" = .ok (.ordinary brokenFile (some "Base") ["Gone"]) :=
  Blueprint.ofName_of_file (by decide) rfl ⟨by decide +kernel, rfl, rfl, rfl⟩

theorem not_hasInterface_object : ¬search.HasInterface objectName := by
  rintro ⟨file, superName, interfaceNames, hplan, hflags⟩
  rw [ofName_object] at hplan
  cases hplan
  exact absurd hflags (by decide)

theorem loadable_object : Loadable .standard search objectName :=
  SmallPath.loadable_of_objectFile ofName_object

theorem loadable_class : Loadable .standard search classClassName :=
  .of_plan ofName_class (List.forall_mem_singleton.2 loadable_object)
    (ClassFile.passes_ofFields_nil not_hasInterface_object)

theorem loadable_base : Loadable .standard search "Base" :=
  .of_plan ofName_base (List.forall_mem_singleton.2 loadable_object)
    (ClassFile.passes_ofFields_nil not_hasInterface_object)

theorem not_loadable_broken : ¬Loadable .standard search "Broken" := by
  intro h
  have hneeds : search.Needs "Broken" "Gone" :=
    ⟨_, ofName_broken, List.mem_cons_of_mem _ List.mem_cons_self⟩
  obtain ⟨plan, hplan, -⟩ := (h.needed hneeds).exists_plan
  cases hplan

/-- A loader that has just got ready has not loaded anything besides. -/
theorem findLoaded?_base {initializer : StaticInitializer} {s : Loader}
    (hs : Loader.bootstrap ⟨.standard, search, initializer⟩ = .ok s) :
    s.findLoaded? "Base" = none := by
  cases hid : s.findLoaded? "Base" with
  | none => rfl
  | some id =>
    rcases Loader.bootstrap_needs hs hid with hneeds | hprimitive
    · -- the class of class objects needs the root class, and that one needs nothing
      rcases Relation.ReflTransGen.cases_head hneeds with heq | ⟨d, ⟨plan, hplan, hd⟩, hneeds⟩
      · exact absurd heq (by decide)
      · cases (show Blueprint.ofName search classClassName = .ok plan from hplan).symm.trans
          ofName_class
        cases List.mem_singleton.1 hd
        rcases Relation.ReflTransGen.cases_head hneeds with heq | ⟨d, ⟨plan, hplan, hd⟩, -⟩
        · exact absurd heq (by decide)
        · cases (show Blueprint.ofName search objectName = .ok plan from hplan).symm.trans
            ofName_object
          cases hd
    · exact absurd hprimitive (by decide)

end GapPath

end ClassLoading
