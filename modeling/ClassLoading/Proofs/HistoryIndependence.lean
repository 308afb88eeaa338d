import ClassLoading.Proofs.Dependencies
import ClassLoading.Proofs.Portraits

/-! The answer to a load does not depend on what a loader has done before. A class that two loaders
have both loaded looks the same in both, whatever else they have loaded and in whatever order. And
of two loads of one name that stand at the same depth, with the same names in progress around them,
one may find a class loaded where the other still has to build it, but a class that is loaded
anywhere is loadable, and its load cannot have closed a circle: so they agree on failure, too. -/
namespace ClassLoading

namespace Loader

variable {config : LoaderConfig} {search : ClassSearch} {s t s' t' : Loader} {name : String}
  {i j : ClassId}

/-! ### Loaded classes look the same -/

theorem Made.exists_class (h : s.Made config search name i) :
    ∃ c, s.classes[i]? = some c ∧ ∀ r ∈ c.references, r < i := by
  obtain ⟨past, plan, ids, built, rfl, hext, -, hdeps, hbuild⟩ := h
  obtain ⟨c, hc, hfixed⟩ := hext past.size built (by simp)
  refine ⟨c, hc, fun r hr => ?_⟩
  rw [LoadedClass.references_eq_of_fixed hfixed] at hr
  obtain ⟨_, -, -, hlt⟩ := exists_of_mem_forall₂ hdeps ((Blueprint.references_build hbuild).2 r hr)
  exact hlt

/-- A loaded class looks as it did in every table that it stood in before. -/
theorem Sound.portrait?_eq (hs : s.Sound config search) (h : s.findLoaded? name = some i)
    {past : ClassTable} (hext : s.classes.Extends past) (hi : i < past.size) :
    s.classes.portrait? i = past.portrait? i := by
  obtain ⟨c, hc, hrefs⟩ := (hs.made name i h).exists_class
  have hold : past[i]? = some past[i] := Array.getElem?_eq_getElem hi
  obtain ⟨d, hd, hfixed⟩ := hext i _ hold
  rw [hc] at hd
  cases hd
  refine hext.portrait?_eq hold fun r hr => ?_
  rw [← LoadedClass.references_eq_of_fixed hfixed] at hr
  exact Nat.lt_trans (hrefs r hr) hi

theorem Sound.alike (hs : s.Sound config search) (ht : t.Sound config search)
    (hi : s.findLoaded? name = some i) (hj : t.findLoaded? name = some j) :
    ClassTable.Alike s.classes t.classes i j := by
  -- along the order in which one of the two has defined its classes
  induction i using Nat.strongRecOn generalizing name j with
  | ind i ih =>
    obtain ⟨A, plan, is, c, hA, hextA, hplan, his, hc⟩ := hs.made name i hi
    obtain ⟨B, plan', js, d, hB, hextB, hplan', hjs, hd⟩ := ht.made name j hj
    rw [hplan] at hplan'
    cases hplan'
    have hpastA := (ClassTable.Extends.push A c).trans hextA
    have hpastB := (ClassTable.Extends.push B d).trans hextB
    -- the dependencies looked the same when the two classes were built from them
    have halike : List.Forall₂ (ClassTable.Alike A B) is js := by
      refine forall₂_of_common his hjs fun n i' j' hi' hj' => ?_
      obtain ⟨portrait, hp, hq⟩ := ih i' hi'.2 hi'.1 hj'.1
      rw [hs.portrait?_eq hi'.1 hpastA (hA ▸ hi'.2)] at hp
      rw [ht.portrait?_eq hj'.1 hpastB (hB ▸ hj'.2)] at hq
      exact ⟨portrait, hp, hq⟩
    have hagree : Agree (Twin A B) (plan.build config A name is) (plan.build config B name js) :=
      Twin.build config plan halike
    rw [hc, hd] at hagree
    cases hagree with
    | ok htwin =>
    have hleft := hs.portrait?_eq hi hextA (by simp [hA])
    have hright := ht.portrait?_eq hj hextB (by simp [hB])
    have hsame := htwin.portrait?_push
    rw [hA, hB, ← hleft, ← hright] at hsame
    obtain ⟨e, he, -⟩ := (hs.made name i hi).exists_class
    have hsome : s.classes.portrait? i = some _ := congrArg (Option.map _) he
    exact ⟨_, hsome, hsame ▸ hsome⟩

/-! ### Loads at the same depth -/

/-- Two sound loaders with the same names in progress. -/
structure Abreast (config : LoaderConfig) (search : ClassSearch) (s t : Loader) : Prop where
  left : s.Sound config search
  right : t.Sound config search
  leftClean : s.Clean
  rightClean : t.Clean
  loading : ∀ name, s.slot? name = some .loading ↔ t.slot? name = some .loading

/-- All that is loading has come to need a name. -/
def LeadsTo (search : ClassSearch) (s : Loader) (name : String) : Prop :=
  ∀ other, s.slot? other = some .loading → Relation.TransGen search.Needs other name

/-- On the way to a loadable name there is nothing that the name needs. -/
theorem LeadsTo.unblocked (h : s.LeadsTo search name) (hn : Loadable config search name) :
    s.Unblocked search name := fun other hother hloading =>
  hn.acyclic (.trans_right hother (h other hloading))

theorem LeadsTo.of_settles (h : s.LeadsTo search name) (hst : Settles s t) :
    t.LeadsTo search name := fun other hother => h other ((hst.loading_iff other).1 hother)

theorem LeadsTo.acquire (hs : s.Tidy) (h : s.LeadsTo search name) {d : String}
    (hd : search.Needs name d) (thread : ThreadId) :
    ((s.acquire thread name).noteLookup name).LeadsTo search d := by
  intro other hother
  rw [slot?_noteLookup, slot?_acquire hs] at hother
  by_cases hname : other = name
  · subst hname
    exact .single hd
  · rw [if_neg hname] at hother
    exact (h other hother).tail hd

namespace Abreast

theorem symm (h : Abreast config search s t) : Abreast config search t s :=
  ⟨h.right, h.left, h.rightClean, h.leftClean, fun name => (h.loading name).symm⟩

theorem settles (h : Abreast config search s t) (hs : Changes config search s s')
    (ht : Changes config search t t') (hs' : Settles s s') (ht' : Settles t t') :
    Abreast config search s' t' := by
  refine ⟨hs.sound h.left, ht.sound h.right, hs'.clean h.leftClean, ht'.clean h.rightClean, ?_⟩
  intro name
  rw [hs'.loading_iff, ht'.loading_iff]
  exact h.loading name

theorem acquire (h : Abreast config search s t) (hs : s.slot? name = none)
    (ht : t.slot? name = none) (thread : ThreadId) :
    Abreast config search ((s.acquire thread name).noteLookup name)
      ((t.acquire thread name).noteLookup name) := by
  refine ⟨(Changes.acquire _ _ hs thread).sound h.left,
    (Changes.acquire _ _ ht thread).sound h.right, h.leftClean.acquire h.left.toTidy name thread,
    h.rightClean.acquire h.right.toTidy name thread, fun n => ?_⟩
  rw [slot?_noteLookup, slot?_noteLookup, slot?_acquire h.left.toTidy, slot?_acquire h.right.toTidy]
  by_cases hn : n = name
  · rw [if_pos hn, if_pos hn]
  · rw [if_neg hn, if_neg hn]
    exact h.loading n

theorem leadsTo_iff (h : Abreast config search s t) :
    s.LeadsTo search name ↔ t.LeadsTo search name :=
  forall_congr' fun other => imp_congr_left (h.loading other)

/-- What one of two loaders has loaded, the other can load. -/
theorem exists_load_of_done (h : Abreast config search s t) (hl : s.LeadsTo search name)
    {r : Except LoadError ClassId} (hs : s.slot? name = some (.done r))
    (initializer : StaticInitializer) :
    (∃ i, r = .ok i) ∧ ∃ j, (t.load ⟨config, search, initializer⟩ name).1 = .ok j := by
  cases r with
  | error e => exact absurd hs (h.leftClean name e)
  | ok i =>
    have hloaded : s.findLoaded? name = some i := by simp [findLoaded?, hs]
    have hn := h.left.loadable hloaded
    refine ⟨⟨i, rfl⟩, ?_⟩
    exact Loads.of_loadable ⟨config, search, initializer⟩ hn t h.right h.rightClean
      ((h.leadsTo_iff.1 hl).unblocked hn)

theorem not_ofName_error (hs : s.Sound config search) (hc : s.Clean) {e : LoadError}
    {r : Except LoadError ClassId} (h : s.slot? name = some (.done r)) :
    Blueprint.ofName search name ≠ .error e := by
  cases r with
  | error e' => exact absurd h (hc name e')
  | ok i =>
    obtain ⟨_, plan, _, _, -, -, hplan, -⟩ := hs.made name i (by simp [findLoaded?, h])
    rw [hplan]
    rintro ⟨⟩

theorem complete_agree {R : LoadedClass → LoadedClass → Prop} {slot slot' : SlotId}
    {x y : Except LoadError LoadedClass} (h : Agree R x y) :
    Agree (fun _ _ => True) (s.complete name slot x).1 (t.complete name slot' y).1 := by
  cases h with
  | error e => exact .error e
  | ok _ => exact .ok trivial

/-- A class is built alike from dependencies that are loaded on both sides. -/
theorem build_agree {plan : Blueprint} {x y : Except LoadError (List ClassId)}
    (hs : s.Sound config search) (ht : t.Sound config search) (h : Agree (fun _ _ => True) x y)
    (hx : ∀ ids, x = .ok ids →
      List.Forall₂ (fun d id => s.findLoaded? d = some id) plan.dependencies ids)
    (hy : ∀ ids, y = .ok ids →
      List.Forall₂ (fun d id => t.findLoaded? d = some id) plan.dependencies ids) :
    Agree (Twin s.classes t.classes) (x.bind (plan.build config s.classes name))
      (y.bind (plan.build config t.classes name)) := by
  cases h with
  | error e => exact .error e
  | @ok is js _ =>
    have halike : List.Forall₂ (ClassTable.Alike s.classes t.classes) is js :=
      forall₂_of_common (hx is rfl) (hy js rfl) fun d i j hi hj => hs.alike ht hi hj
    exact Twin.build config plan halike

theorem load_agree (initializer initializer' : StaticInitializer) :
    (∀ s name, ∀ t, Abreast config search s t → s.LeadsTo search name →
      Agree (fun _ _ => True) (s.load ⟨config, search, initializer⟩ name).1
        (t.load ⟨config, search, initializer'⟩ name).1) ∧
    ∀ s names, ∀ t, Abreast config search s t → (∀ d ∈ names, s.LeadsTo search d) →
      Agree (fun _ _ => True) (s.loadAll ⟨config, search, initializer⟩ names).1
        (t.loadAll ⟨config, search, initializer'⟩ names).1 := by
  apply load_induct ⟨config, search, initializer⟩
  case done =>
    intro s name r hs t h hl
    obtain ⟨⟨i, rfl⟩, j, hj⟩ := h.exists_load_of_done hl hs initializer'
    rw [load_of_done hs, hj]
    exact .ok trivial
  case loading =>
    intro s name hs t h _
    rw [load_of_loading hs, load_of_loading ((h.loading name).1 hs)]
    exact .error _
  case unknown =>
    intro s name e hs (he : Blueprint.ofName search name = .error e) t h hl
    cases ht : t.slot? name with
    | none =>
      rw [load_of_blueprint_error hs he, load_of_blueprint_error ht he]
      exact .error e
    | some x =>
      cases x with
      | loading => simp [(h.loading name).2 ht] at hs
      | done r => exact absurd he (not_ofName_error h.right h.rightClean ht)
  case known =>
    intro s name plan hs (hplan : Blueprint.ofName search name = .ok plan) hdeps t h hl
    cases ht : t.slot? name with
    | some x =>
      cases x with
      | loading => simp [(h.loading name).2 ht] at hs
      | done r =>
        obtain ⟨⟨j, rfl⟩, i, hi⟩ :=
          h.symm.exists_load_of_done (h.leadsTo_iff.1 hl) ht initializer
        rw [load_of_done ht, hi]
        exact .ok trivial
    | none =>
      have hstart := h.acquire hs ht mainThread
      have hagree := hdeps _ hstart fun d hd =>
        hl.acquire h.left.toTidy ⟨plan, hplan, hd⟩ mainThread
      have hleft := hstart.left.loadAll ⟨config, search, initializer⟩ plan.dependencies
      have hright := hstart.right.loadAll ⟨config, search, initializer'⟩ plan.dependencies
      rw [load_of_blueprint hs hplan, load_of_blueprint ht hplan]
      exact complete_agree (build_agree (hleft.changes.sound hstart.left)
        (hright.changes.sound hstart.right) hagree hleft.loaded hright.loaded)
  case nil =>
    intro s t _ _
    rw [loadAll_nil, loadAll_nil]
    exact .ok trivial
  case cons =>
    intro s name rest hname hrest t h hl
    obtain ⟨hlname, hlrest⟩ := List.forall_mem_cons.1 hl
    have hagree := hname t h hlname
    have hleft := h.left.load ⟨config, search, initializer⟩ name
    have hright := h.right.load ⟨config, search, initializer'⟩ name
    have hsettles := h.left.load_settles ⟨config, search, initializer⟩ name
    have hsettles' := h.right.load_settles ⟨config, search, initializer'⟩ name
    rw [loadAll_cons, loadAll_cons]
    cases hs : s.load ⟨config, search, initializer⟩ name with
    | mk x u =>
    cases ht : t.load ⟨config, search, initializer'⟩ name with
    | mk y v =>
    rw [hs] at hagree hleft hsettles
    rw [ht] at hagree hright hsettles'
    cases hagree with
    | error e => exact .error e
    | @ok i j _ =>
      have hmore := hrest i u hs v (h.settles hleft.changes hright.changes hsettles hsettles')
        fun d hd => (hlrest d hd).of_settles hsettles
      exact hmore.map fun _ _ _ => trivial

end Abreast

theorem AtRest.abreast (hs : s.AtRest) (ht : t.AtRest) (hs' : s.Sound config search)
    (ht' : t.Sound config search) : Abreast config search s t :=
  ⟨hs', ht', hs.clean, ht.clean, fun name =>
    iff_of_false (hs.not_loading name) (ht.not_loading name)⟩

/-- Whatever a loader has been asked before, it loads exactly the loadable names, and any two
loaders answer with the same error or with classes that look the same. -/
theorem History.load_outcome (hs : History config search s) (ht : History config search t)
    (initializer initializer' : StaticInitializer) (name : String) :
    ((∃ id, (s.load ⟨config, search, initializer⟩ name).1 = .ok id) ↔
        Loadable config search name) ∧
      Agree (ClassTable.Alike (s.load ⟨config, search, initializer⟩ name).2.classes
          (t.load ⟨config, search, initializer'⟩ name).2.classes)
        (s.load ⟨config, search, initializer⟩ name).1
        (t.load ⟨config, search, initializer'⟩ name).1 := by
  refine ⟨hs.atRest.load_isOk_iff ⟨config, search, initializer⟩ hs.sound, ?_⟩
  have habreast := hs.atRest.abreast ht.atRest hs.sound ht.sound
  have hagree := (Abreast.load_agree initializer initializer').1 s name t habreast
    fun other hother => absurd hother (hs.atRest.not_loading other)
  have hleft := hs.sound.load ⟨config, search, initializer⟩ name
  have hright := ht.sound.load ⟨config, search, initializer'⟩ name
  generalize s.load ⟨config, search, initializer⟩ name = r at hagree hleft
  generalize t.load ⟨config, search, initializer'⟩ name = r' at hagree hright
  obtain ⟨x, u⟩ := r
  obtain ⟨y, v⟩ := r'
  cases hagree with
  | error e => exact .error e
  | @ok i j _ =>
    exact .ok ((hleft.changes.sound hs.sound).alike (hright.changes.sound ht.sound)
      (hleft.loaded i rfl) (hright.loaded j rfl))

/-- A class that a loader which has just got ready has still to load, and that another loader has
loaded on the way to a failure. -/
theorem History.load_outcome_after_failure : ∃ s t : Loader,
    History .standard GapPath.search s ∧ History .standard GapPath.search t ∧
      s.findLoaded? "Base" = none ∧ (∃ id, t.findLoaded? "Base" = some id) ∧
      (∃ id, (s.load ⟨.standard, GapPath.search, .skip⟩ "Base").1 = .ok id) ∧
      Agree (ClassTable.Alike
          (s.load ⟨.standard, GapPath.search, .skip⟩ "Base").2.classes
          (t.load ⟨.standard, GapPath.search, .skip⟩ "Base").2.classes)
        (s.load ⟨.standard, GapPath.search, .skip⟩ "Base").1
        (t.load ⟨.standard, GapPath.search, .skip⟩ "Base").1 := by
  let env : Environment := ⟨.standard, GapPath.search, .skip⟩
  obtain ⟨s, hready⟩ := (bootstrap_isOk_iff env).2 GapPath.loadable_class
  have hs : History .standard GapPath.search s := .ready .skip hready
  have ht := hs.serve .skip (.load "Broken")
  have hsound : s.Sound env.config env.search := hs.sound
  have hbase := hs.atRest.exists_first_needed hsound GapPath.ofName_broken rfl
    GapPath.loadable_base
  obtain ⟨hiff, hagree⟩ := History.load_outcome hs ht .skip .skip "Base"
  exact ⟨s, _, hs, ht, GapPath.findLoaded?_base hready, hbase, hiff.2 GapPath.loadable_base, hagree⟩

end Loader

end ClassLoading
