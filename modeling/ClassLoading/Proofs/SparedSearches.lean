import ClassLoading.Proofs.HistoryIndependence
import ClassLoading.Proofs.Lookups

/-! How much a loader searches that has loaded more than another. With a class all that it needs is
loaded, so where one loader answers from its registry, the other looks up nothing but what the first
has loaded; everywhere else the two loads go the same way. So of what the one with less looks up,
the one with more looks up exactly the names that it has not loaded, and in the same order. And what
a loader has looked up and not loaded cannot be loaded, so only such names are looked up again. -/
namespace ClassLoading

namespace Loader

variable {config : LoaderConfig} {search : ClassSearch} {env : Environment}
  {s t s' t' u v : Loader} {name n : String} {id : ClassId} {found more : List String}

/-! ### Loaders that have loaded more -/

/-- The first loader has loaded whatever the second has. -/
def Covers (s t : Loader) : Prop :=
  ∀ n id, t.findLoaded? n = some id → ∃ i, s.findLoaded? n = some i

theorem Covers.refl (s : Loader) : s.Covers s := fun _ id hid => ⟨id, hid⟩

theorem Covers.trans (h : s.Covers t) (h' : t.Covers u) : s.Covers u := fun n id hid =>
  have ⟨i, hi⟩ := h' n id hid
  h n i hi

/-- With a class, everything is loaded that it needs, directly or indirectly. -/
theorem Sound.exists_of_needs (hs : s.Sound config search) (h : s.findLoaded? name = some id)
    (hn : Relation.ReflTransGen search.Needs name n) : ∃ i, s.findLoaded? n = some i := by
  induction hn with
  | refl => exact ⟨id, h⟩
  | tail _ hlast ih =>
    obtain ⟨i, hi⟩ := ih
    exact hs.exists_needed hi hlast

/-- A load adds nothing that is not loaded with the class itself. -/
theorem Covers.load (hs : s.Sound env.config env.search) (ht : t.Sound env.config env.search)
    (h : s.Covers t) (hname : s.findLoaded? name = some id) : s.Covers (t.load env name).2 := by
  intro n j hj
  rcases (load_needs env).1 t name ht n j hj with hold | hneeds
  · exact h n j hold
  · exact hs.exists_of_needs hname hneeds

theorem Covers.begin (hs : s.Tidy) (ht : t.Tidy) (hfree : s.slot? name = none)
    (hfree' : t.slot? name = none) (thread : ThreadId) (h : s.Covers t) :
    ((s.acquire thread name).noteLookup name).Covers ((t.acquire thread name).noteLookup name) := by
  intro n id hid
  rw [findLoaded?_begin ht hfree'] at hid
  rw [findLoaded?_begin hs hfree]
  exact h n id hid

/-- What the end of a load adds, the end of another adds as well if they agree. -/
theorem Covers.complete {slot slot' : SlotId} {R : LoadedClass → LoadedClass → Prop}
    {x y : Except LoadError LoadedClass} (hs : s.Tidy) (ht : t.Tidy) (own : s.LoadingAt name slot)
    (own' : t.LoadingAt name slot') (hxy : Agree R x y) (h : s.Covers t) :
    (s.complete name slot x).2.Covers (t.complete name slot' y).2 := by
  intro n id hid
  by_cases hn : n = name
  · subst hn
    rw [findLoaded?, slot?_complete ht own', if_pos rfl] at hid
    rw [findLoaded?, slot?_complete hs own, if_pos rfl]
    cases hxy with
    | error e => cases hid
    | ok _ => exact ⟨_, rfl⟩
  · rw [findLoaded?_end ht own' hn] at hid
    rw [findLoaded?_end hs own hn]
    exact h n id hid

/-! ### Two loads of one name -/

/-- The names that a loader has not loaded. -/
def missing (s : Loader) (names : List String) : List String :=
  names.filter fun n => (s.findLoaded? n).isNone

theorem missing_append (s : Loader) (names more : List String) :
    s.missing (names ++ more) = s.missing names ++ s.missing more := List.filter_append ..

theorem missing_congr {names : List String}
    (h : ∀ n ∈ names, s.findLoaded? n = none ↔ t.findLoaded? n = none) :
    s.missing names = t.missing names := by
  refine List.filter_congr fun n hn => ?_
  rw [Bool.eq_iff_iff, Option.isNone_iff_eq_none, Option.isNone_iff_eq_none]
  exact h n hn

/-- Two loaders come to new states, and what the second has looked up on the way, the first has
looked up as well unless it had loaded it. -/
structure Spares (s t s' t' : Loader) (found : List String) : Prop where
  lookups : t'.lookups = t.lookups ++ found
  spared : s'.lookups = s.lookups ++ s.missing found
  fresh : ∀ n ∈ found, t.findLoaded? n = none
  covers : s'.Covers t'

theorem Spares.refl (h : s.Covers t) : Spares s t s t [] :=
  ⟨(List.append_nil _).symm, (List.append_nil _).symm, nofun, h⟩

/-- The second stretch goes on from the first, on which the first loader has loaded nothing new but
what the second has loaded as well. -/
theorem Spares.trans (h : Spares s t u v found) (h' : Spares u v s' t' more) (hs : u.Covers s)
    (ht : v.Covers t) (hnew : ∀ n i, u.findLoaded? n = some i →
      (∃ j, s.findLoaded? n = some j) ∨ ∃ j, v.findLoaded? n = some j) :
    Spares s t s' t' (found ++ more) := by
  have hmissing : u.missing more = s.missing more := by
    refine missing_congr fun n hn => ⟨fun hu => ?_, fun hold => ?_⟩
    · rw [Option.eq_none_iff_forall_ne_some]
      intro i hi
      obtain ⟨j, hj⟩ := hs n i hi
      cases hu.symm.trans hj
    · rw [Option.eq_none_iff_forall_ne_some]
      intro i hi
      obtain ⟨j, hj⟩ | ⟨j, hj⟩ := hnew n i hi
      · cases hold.symm.trans hj
      · cases (h'.fresh n hn).symm.trans hj
  refine ⟨?_, ?_, List.forall_mem_append.2 ⟨h.fresh, fun n hn => ?_⟩, h'.covers⟩
  · rw [h'.lookups, h.lookups, List.append_assoc]
  · rw [h'.spared, h.spared, hmissing, missing_append, List.append_assoc]
  · rw [Option.eq_none_iff_forall_ne_some]
    intro i hi
    obtain ⟨j, hj⟩ := ht n i hi
    cases (h'.fresh n hn).symm.trans hj

/-- Where a loader knows nothing of a name, one that has loaded less does not either. -/
theorem Abreast.slot?_eq_none (h : Abreast config search s t) (hcovers : s.Covers t)
    (hs : s.slot? name = none) : t.slot? name = none := by
  cases ht : t.slot? name with
  | none => rfl
  | some x =>
    cases x with
    | loading => simp [(h.loading name).2 ht] at hs
    | done r =>
      cases r with
      | error e => exact absurd ht (h.rightClean name e)
      | ok j =>
        obtain ⟨i, hi⟩ := hcovers name j (by simp [findLoaded?, ht])
        simp [findLoaded?, hs] at hi

theorem Spares.start (hs : s.Tidy) (ht : t.Tidy) (hfree : s.slot? name = none)
    (hfree' : t.slot? name = none) (thread : ThreadId) (h : s.Covers t) :
    Spares s t ((s.acquire thread name).noteLookup name) ((t.acquire thread name).noteLookup name)
      ([name].filter Blueprint.isSearched) := by
  have hname : ∀ n ∈ [name].filter Blueprint.isSearched, n = name := fun n hn =>
    List.mem_singleton.1 (List.mem_of_mem_filter hn)
  have hmissing : s.missing ([name].filter Blueprint.isSearched) =
      [name].filter Blueprint.isSearched := by
    refine List.filter_eq_self.2 fun n hn => ?_
    simp [hname n hn, findLoaded?, hfree]
  refine ⟨lookups_noteLookup .., ?_, fun n hn => ?_, h.begin hs ht hfree hfree' thread⟩
  · rw [hmissing]
    exact lookups_noteLookup ..
  · rw [hname n hn, findLoaded?, hfree']

theorem Spares.complete {slot slot' : SlotId} {R : LoadedClass → LoadedClass → Prop}
    {x y : Except LoadError LoadedClass} (hs : s'.Tidy) (ht : t'.Tidy)
    (own : s'.LoadingAt name slot) (own' : t'.LoadingAt name slot') (hxy : Agree R x y)
    (h : Spares s t s' t' found) :
    Spares s t (s'.complete name slot x).2 (t'.complete name slot' y).2 found := by
  refine ⟨?_, ?_, h.fresh, h.covers.complete hs ht own own' hxy⟩
  · rw [lookups_complete, h.lookups]
  · rw [lookups_complete, h.spared]

/-- A class that fails itself cannot be loaded. -/
theorem FailsItself.not_loadable {e : LoadError} (ht : t.Sound env.config env.search)
    (h : t.FailsItself env name e) : ¬Loadable env.config env.search name := by
  intro hloadable
  obtain ⟨plan, hplan, -, hpasses⟩ := hloadable.exists_plan
  rcases h with herror | ⟨plan', ids, hplan', hdeps, hbuild⟩
  · cases hplan.symm.trans herror
  · cases hplan.symm.trans hplan'
    obtain ⟨c, hc⟩ := (Blueprint.build_isOk_iff hplan (hdeps.imp fun d i => ht.stands)).2 hpasses
    cases hbuild.symm.trans hc

/-- No member of the chain of a failure can be loaded, as each needs the next. -/
theorem FailureChain.not_loadable {e : LoadError} {chain : List String}
    (ht : t.Sound env.config env.search)
    (h : FailureChain env (fun _ => False) t name e chain) :
    ∀ n ∈ chain, ¬Loadable env.config env.search n := by
  obtain ⟨culprit, hlast, hend⟩ := h.last
  have hfinal (hne : chain ≠ []) : chain.getLast hne = culprit :=
    Option.some.inj ((List.getLast?_eq_some_getLast hne).symm.trans hlast)
  have hleads : ∀ n ∈ chain, Relation.ReflTransGen env.search.Needs n culprit :=
    h.edges.backwards_induction _ _ (fun _ _ => .head) fun hne => hfinal hne ▸ .refl
  refine h.edges.backwards_induction _ _ (fun x y hneeds hy hx => hy (hx.needed hneeds))
    fun hne => ?_
  rw [hfinal hne]
  rcases hend with hself | ⟨other, hneeds, ⟨⟨⟩⟩ | hother, -⟩
  · exact hself.not_loadable ht
  · exact fun hculprit => hculprit.acyclic (.head' hneeds (hleads other hother))

/-- Of the names that have been looked up, those are loaded that can be, and no others are. -/
def Tracks (env : Environment) (s : Loader) : Prop :=
  ∀ n, Blueprint.isSearched n → ((∃ id, s.findLoaded? n = some id) ↔
    n ∈ s.lookups ∧ Loadable env.config env.search n)

/-- A name that a load adds has been looked up on the way. -/
theorem Searches.mem_of_new (h : s.Searches env name found) (hrest : s.AtRest)
    (hs : s.Sound env.config env.search) (hn : Blueprint.isSearched n)
    (hold : s.findLoaded? n = none) (hnew : (s.load env name).2.findLoaded? n = some id) :
    n ∈ found := by
  obtain ⟨found', failed, hlooks, -⟩ := (load_looksUp env).1 s name hs
  obtain rfl := List.append_cancel_left (h.lookups.symm.trans hlooks.lookups)
  refine (hlooks.mem_iff n).2 ⟨hn, hrest.slot?_eq_none_iff.2 hold, .inl fun hnone => ?_⟩
  simp [findLoaded?, hnone] at hnew

/-- What was looked up in vain is in the chain of a failure. -/
theorem Searches.exists_loaded (h : s.Searches env name found)
    (ht : (s.load env name).2.Sound env.config env.search) (hn : n ∈ found)
    (hloadable : Loadable env.config env.search n) :
    ∃ id, (s.load env name).2.findLoaded? n = some id := by
  refine Option.ne_none_iff_exists'.1 fun hnone => ?_
  cases hr : (s.load env name).1 with
  | ok id =>
    obtain ⟨-, i, c, hi, -⟩ := (h.loaded id hr n).1 hn
    cases hnone.symm.trans hi
  | error e =>
    obtain ⟨chain, hchain, hiff⟩ := h.failed e hr
    exact hchain.not_loadable ht n ((hiff n).1 ⟨hn, hnone⟩).1 hloadable

theorem Tracks.load (h : s.Tracks env) (hrest : s.AtRest) (hs : s.Sound env.config env.search)
    (name : String) : (s.load env name).2.Tracks env := by
  intro n hn
  have hchanges := (hs.load env name).changes
  have ht := hchanges.sound hs
  obtain ⟨found, hfound⟩ := hrest.exists_searches hs name
  rw [hfound.lookups, List.mem_append]
  constructor
  · rintro ⟨id, hid⟩
    refine ⟨?_, ht.loadable hid⟩
    cases hold : s.findLoaded? n with
    | some i => exact .inl ((h n hn).1 ⟨i, hold⟩).1
    | none => exact .inr (hfound.mem_of_new hrest hs hn hold hid)
  · rintro ⟨hold | hnew, hloadable⟩
    · obtain ⟨i, hi⟩ := (h n hn).2 ⟨hold, hloadable⟩
      exact ⟨i, hchanges.findLoaded? hs.toTidy hi⟩
    · exact hfound.exists_loaded ht hnew hloadable

end Loader

end ClassLoading
