import ClassLoading.Proofs.FaultAttribution
import ClassLoading.Proofs.RootClass
import ClassLoading.Proofs.SharedObjects

/-! Which names a load looks up. A load that meets a name without a slot looks it up and takes the
slot in one go, so no name is looked up twice; the slot is given back only if the load of the name
fails, and then so does the load that has called for it. What was looked up for nothing is therefore
one chain of calls, from the name that was asked for down to the class at fault. -/
namespace ClassLoading

namespace Loader

variable {env : Environment} {s t u : Loader} {name n : String} {slot : SlotId}
  {found more failed : List String}

/-! ### The log of look-ups -/

theorem lookups_attachObject (s : Loader) (classClass id : ClassId) :
    (s.attachObject classClass id).lookups = s.lookups := by
  unfold attachObject
  split
  · rfl
  · simp only [updateClass, pooledObject]
    split <;> rfl

theorem lookups_addClass (s : Loader) (c : LoadedClass) :
    (s.addClass c).lookups = s.lookups := by
  unfold addClass attachIfReady
  split
  · exact lookups_attachObject ..
  · rfl

theorem lookups_complete (s : Loader) (name : String) (slot : SlotId)
    (r : Except LoadError LoadedClass) :
    (s.complete name slot r).2.lookups = s.lookups := by
  cases r with
  | error e => rfl
  | ok c => exact lookups_addClass s c

theorem lookups_noteLookup (s : Loader) (name : String) :
    (s.noteLookup name).lookups = s.lookups ++ [name].filter Blueprint.isSearched := by
  unfold noteLookup
  by_cases h : Blueprint.isSearched name <;> simp [h]

/-- Nothing is left out of the log: what a name stands for that is not looked up is the same for
every search. -/
theorem ofName_eq_of_not_isSearched (h : ¬Blueprint.isSearched name) (search search' : ClassSearch) :
    Blueprint.ofName search name = Blueprint.ofName search' name := by
  rw [Blueprint.ofName, Blueprint.ofName]
  cases hp : primitiveClass? name with
  | some type => rfl
  | none =>
    have harray : Blueprint.isArrayName name = true := by simpa [Blueprint.isSearched, hp] using h
    simp [harray]

/-! ### One load -/

/-- The names that were looked up on the way to a later state: each of them once, and they are the
names without a slot that have one now, or are among those that have lost theirs again. -/
structure LooksUp (s t : Loader) (found failed : List String) : Prop where
  lookups : t.lookups = s.lookups ++ found
  nodup : found.Nodup
  mem_iff : ∀ n, n ∈ found ↔ Blueprint.isSearched n ∧ s.slot? n = none ∧
    (t.slot? n ≠ none ∨ n ∈ failed)
  failed : ∀ n ∈ failed, t.slot? n = none
  keeps : ∀ n, t.slot? n = none → s.slot? n = none

namespace LooksUp

theorem refl (s : Loader) : LooksUp s s [] [] where
  lookups := (List.append_nil _).symm
  nodup := .nil
  mem_iff n := by simp
  failed := nofun
  keeps _ h := h

theorem trans (h : LooksUp s t found []) (h' : LooksUp t u more failed) :
    LooksUp s u (found ++ more) failed where
  lookups := by rw [h'.lookups, h.lookups, List.append_assoc]
  nodup := by
    refine List.nodup_append'.2 ⟨h.nodup, h'.nodup, fun n hn hn' => ?_⟩
    have hsome := ((h.mem_iff n).1 hn).2.2
    have hnone := ((h'.mem_iff n).1 hn').2.1
    simp [hnone] at hsome
  mem_iff n := by
    rw [List.mem_append, h.mem_iff, h'.mem_iff]
    have hfailed := h'.failed n
    have hkeeps := h.keeps n
    have hkeeps' := h'.keeps n
    simp only [List.not_mem_nil, or_false]
    tauto
  failed := h'.failed
  keeps n hn := h.keeps n (h'.keeps n hn)

/-- A load begins with the look-up of its name, where the name is one that is looked up. -/
theorem start (hs : s.Tidy) (free : s.slot? name = none) (thread : ThreadId) :
    LooksUp s ((s.acquire thread name).noteLookup name) ([name].filter Blueprint.isSearched) [] := by
  have hslot : ∀ n, ((s.acquire thread name).noteLookup name).slot? n =
      if n = name then some .loading else s.slot? n := by
    intro n
    rw [slot?_noteLookup, slot?_acquire hs]
  refine ⟨lookups_noteLookup .., (List.nodup_singleton name).filter _, fun n => ?_, nofun,
    fun n hn => ?_⟩
  · rw [hslot, List.mem_filter, List.mem_singleton]
    by_cases hn : n = name
    · simp [hn, free]
    · simp only [hn, false_and, if_false, List.not_mem_nil, or_false]
      tauto
  · rw [hslot] at hn
    split at hn
    · cases hn
    · exact hn

theorem complete_ok (ht : t.Tidy) (own : t.LoadingAt name slot) (h : LooksUp s t found failed)
    (c : LoadedClass) : LooksUp s (t.complete name slot (.ok c)).2 found failed := by
  -- the slot of the name goes from loading to done; every other slot stays
  have hslot : ∀ n, (t.complete name slot (.ok c)).2.slot? n = none ↔ t.slot? n = none := by
    intro n
    rw [slot?_complete ht own]
    by_cases hn : n = name
    · simp [hn, own.slot?_eq, settledSlot]
    · simp [hn]
  refine ⟨by rw [lookups_complete, h.lookups], h.nodup, fun n => ?_, fun n hn => ?_, fun n hn => ?_⟩
  · rw [h.mem_iff, ne_eq, ne_eq, hslot]
  · exact (hslot n).2 (h.failed n hn)
  · exact h.keeps n ((hslot n).1 hn)

theorem complete_error (ht : t.Tidy) (own : t.LoadingAt name slot) (free : s.slot? name = none)
    (h : LooksUp s t found failed) (e : LoadError) :
    LooksUp s (t.complete name slot (.error e)).2 found (name :: failed) := by
  have hslot : ∀ n, (t.complete name slot (.error e)).2.slot? n = none ↔
      n = name ∨ t.slot? n = none := by
    intro n
    rw [slot?_complete ht own]
    by_cases hn : n = name
    · simp [hn, settledSlot]
    · simp [hn]
  have hown : t.slot? name ≠ none := by simp [own.slot?_eq]
  refine ⟨by rw [lookups_complete, h.lookups], h.nodup, fun n => ?_, fun n hn => ?_, fun n hn => ?_⟩
  · rw [h.mem_iff, ne_eq, ne_eq, hslot, List.mem_cons]
    by_cases hn : n = name
    · subst hn
      tauto
    · tauto
  · rw [hslot]
    exact (List.mem_cons.1 hn).imp_right (h.failed n)
  · rcases (hslot n).1 hn with rfl | hn
    · exact free
    · exact h.keeps n hn

end LooksUp

/-! ### The chain of a failure -/

/-- The definition of the class itself fails: there is no blueprint of it, or everything that the
blueprint depends on is loaded and the class cannot be built from it. -/
def FailsItself (env : Environment) (t : Loader) (name : String) (e : LoadError) : Prop :=
  Blueprint.ofName env.search name = .error e ∨
    ∃ plan ids, Blueprint.ofName env.search name = .ok plan ∧
      List.Forall₂ (fun d id => t.findLoaded? d = some id) plan.dependencies ids ∧
      plan.build env.config t.classes name ids = .error e

/-- The calls from a name down to the class at fault, each for a class that the one before depends
on. The last class fails itself, or it asks for a class that is in flight. -/
structure FailureChain (env : Environment) (busy : String → Prop) (t : Loader) (name : String)
    (e : LoadError) (chain : List String) : Prop where
  head : chain.head? = some name
  edges : chain.IsChain env.search.Needs
  defined : ∀ n ∈ chain, primitiveClass? n = none
  last : ∃ culprit, chain.getLast? = some culprit ∧ (t.FailsItself env culprit e ∨
    ∃ other, env.search.Needs culprit other ∧ (busy other ∨ other ∈ chain) ∧ e = .circular other)

theorem FailsItself.complete {e e' : LoadError} (h : t.FailsItself env n e) (ht : t.Tidy)
    (own : t.LoadingAt name slot) :
    (t.complete name slot (.error e')).2.FailsItself env n e := by
  rcases h with h | ⟨plan, ids, hplan, hdeps, hbuild⟩
  · exact .inl h
  · refine .inr ⟨plan, ids, hplan, hdeps.imp fun d id hd => ?_, hbuild⟩
    have hne : d ≠ name := by
      rintro rfl
      rw [findLoaded?, own.slot?_eq] at hd
      cases hd
    rwa [findLoaded?_end ht own hne]

/-! A primitive class needs nothing and cannot fail. -/

theorem primitiveClass?_of_needs {search : ClassSearch} (h : search.Needs name n) :
    primitiveClass? name = none := by
  obtain ⟨plan, hplan, hmem⟩ := h
  cases htype : primitiveClass? name with
  | none => rfl
  | some type =>
    rw [Blueprint.ofName, htype] at hplan
    cases hplan
    cases hmem

theorem FailsItself.primitiveClass?_eq_none {e : LoadError} (h : t.FailsItself env name e) :
    primitiveClass? name = none := by
  cases htype : primitiveClass? name with
  | none => rfl
  | some type =>
    have hprimitive : Blueprint.ofName env.search name = .ok (.primitive type) := by
      rw [Blueprint.ofName, htype]
    rw [FailsItself, hprimitive] at h
    rcases h with h | ⟨plan, ids, hplan, -, hbuild⟩
    · cases h
    · cases hplan
      cases hbuild

/-- How a load ends that fails: its name is in flight already, or there is a chain from it. -/
def GivesUp (env : Environment) (s t : Loader) (name : String) (e : LoadError)
    (failed : List String) : Prop :=
  (s.slot? name = some .loading ∧ e = .circular name ∧ failed = []) ∨
    FailureChain env (fun n => s.slot? n = some .loading) t name e failed

/-- The load of a class gives up when that of one of its dependencies does. -/
theorem GivesUp.complete {d : String} {e : LoadError} (hs : s.Tidy) (ht : t.Tidy)
    (own : t.LoadingAt name slot) (hd : env.search.Needs name d) {thread : ThreadId}
    (h : GivesUp env ((s.acquire thread name).noteLookup name) t d e failed) :
    FailureChain env (fun n => s.slot? n = some .loading)
      (t.complete name slot (.error e)).2 name e (name :: failed) := by
  have hbusy : ∀ n, ((s.acquire thread name).noteLookup name).slot? n = some .loading →
      n = name ∨ s.slot? n = some .loading := by
    intro n hn
    rw [slot?_noteLookup, slot?_acquire hs] at hn
    split at hn
    · next heq => exact .inl heq
    · exact .inr hn
  have hname := primitiveClass?_of_needs hd
  obtain ⟨hloading, rfl, rfl⟩ | ⟨hhead, hedges, hdefined, culprit, hlast, hend⟩ := h
  · refine ⟨rfl, .singleton _, by simpa using hname, name, rfl, .inr ⟨d, hd, ?_, rfl⟩⟩
    rw [List.mem_singleton]
    exact (hbusy d hloading).symm
  · obtain ⟨rest, rfl⟩ : ∃ rest, failed = d :: rest := by
      cases failed with
      | nil => cases hhead
      | cons first rest =>
        cases hhead
        exact ⟨rest, rfl⟩
    refine ⟨rfl, .cons_cons hd hedges, List.forall_mem_cons.2 ⟨hname, hdefined⟩, culprit,
      by rw [List.getLast?_cons_cons, hlast], ?_⟩
    rcases hend with hself | ⟨other, hneeds, hother, rfl⟩
    · exact .inl (hself.complete ht own)
    · refine .inr ⟨other, hneeds, ?_, rfl⟩
      rcases hother with hother | hother
      · exact (hbusy other hother).symm.imp_right fun (h : other = name) => by simp [h]
      · exact .inr (List.mem_cons_of_mem _ hother)

/-- The load of a class that fails itself gives up the class alone. -/
theorem FailsItself.failureChain {busy : String → Prop} {e : LoadError}
    (h : t.FailsItself env name e) : FailureChain env busy t name e [name] :=
  ⟨rfl, .singleton _, by simpa using h.primitiveClass?_eq_none, name, rfl, .inl h⟩

/-- What a load looks up, and what it gives up if it fails. -/
theorem load_looksUp (env : Environment) :
    (∀ (s : Loader) (name : String), s.Sound env.config env.search → ∃ found failed,
      LooksUp s (s.load env name).2 found failed ∧
        (∀ id, (s.load env name).1 = .ok id → failed = []) ∧
        (s.Clean → ∀ e, (s.load env name).1 = .error e →
          GivesUp env s (s.load env name).2 name e failed)) ∧
    ∀ (s : Loader) (names : List String), s.Sound env.config env.search → ∃ found failed,
      LooksUp s (s.loadAll env names).2 found failed ∧
        (∀ ids, (s.loadAll env names).1 = .ok ids → failed = []) ∧
        (s.Clean → ∀ e, (s.loadAll env names).1 = .error e →
          ∃ d ∈ names, GivesUp env s (s.loadAll env names).2 d e failed) := by
  apply load_induct env
  case done =>
    intro s name r hs _
    rw [load_of_done hs]
    refine ⟨[], [], .refl s, fun _ _ => rfl, fun hclean e he => ?_⟩
    cases he
    exact absurd hs (hclean name e)
  case loading =>
    intro s name hs _
    rw [load_of_loading hs]
    refine ⟨[], [], .refl s, fun _ _ => rfl, fun _ e he => ?_⟩
    cases he
    exact .inl ⟨hs, rfl, rfl⟩
  case unknown =>
    intro s name e free he hs
    have hstart := (Changes.acquire env.config env.search free mainThread).sound hs
    have own : ((s.acquire mainThread name).noteLookup name).LoadingAt name s.slots.size :=
      noteLookup_loadingAt (acquire_loadingAt ..)
    have hlooks := LooksUp.start hs.toTidy free mainThread
    rw [load_of_blueprint_error free he]
    refine ⟨_, [name], hlooks.complete_error hstart.toTidy own free e, nofun, fun _ e' he' => ?_⟩
    cases he'
    exact .inr (FailsItself.failureChain (.inl he))
  case known =>
    intro s name plan free hplan hdeps hs
    have hstart := (Changes.acquire env.config env.search free mainThread).sound hs
    have hall := hstart.loadAll env plan.dependencies
    have own := loadingAt_loadAll env s name plan.dependencies
    replace hdeps := hdeps hstart
    rw [load_of_blueprint free hplan]
    generalize ((s.acquire mainThread name).noteLookup name).loadAll env plan.dependencies = deps
      at hdeps hall own
    obtain ⟨r, t⟩ := deps
    have ht := (hall.changes.sound hstart).toTidy
    obtain ⟨found, failed, hlooks, hok, herror⟩ := hdeps
    replace hlooks := (LooksUp.start hs.toTidy free mainThread).trans hlooks
    cases r with
    | error e =>
      refine ⟨_, name :: failed, hlooks.complete_error ht own free e, nofun,
        fun hclean e' he' => .inr ?_⟩
      cases he'
      obtain ⟨d, hd, hgives⟩ := herror (hclean.acquire hs.toTidy name mainThread) e rfl
      exact hgives.complete hs.toTidy ht own ⟨plan, hplan, hd⟩
    | ok ids =>
      obtain rfl := hok ids rfl
      simp only [Except.bind]
      cases hbuild : plan.build env.config t.classes name ids with
      | ok c =>
        exact ⟨_, [], hlooks.complete_ok ht own c, fun _ _ => rfl, fun _ e he => nomatch he⟩
      | error e =>
        refine ⟨_, [name], hlooks.complete_error ht own free e, nofun, fun _ e' he' => .inr ?_⟩
        cases he'
        have hself : t.FailsItself env name e := .inr ⟨plan, ids, hplan, hall.loaded ids rfl, hbuild⟩
        exact (hself.complete ht own).failureChain
  case nil =>
    intro s _
    rw [loadAll_nil]
    exact ⟨[], [], .refl s, fun _ _ => rfl, fun _ e he => nomatch he⟩
  case cons =>
    intro s name rest hname hrest hs
    have hload := hs.load env name
    have hsettles := hs.load_settles env name
    obtain ⟨found, failed, hlooks, hok, herror⟩ := hname hs
    rw [loadAll_cons]
    cases hl : s.load env name with
    | mk r t =>
    rw [hl] at hload hsettles hlooks hok herror
    cases r with
    | error e =>
      refine ⟨found, failed, hlooks, nofun, fun hclean e' he' => ?_⟩
      cases he'
      exact ⟨name, List.mem_cons_self, herror hclean _ rfl⟩
    | ok id =>
      obtain rfl := hok id rfl
      obtain ⟨more, failed, hlooks', hok', herror'⟩ := hrest id t hl (hload.changes.sound hs)
      refine ⟨found ++ more, failed, hlooks.trans hlooks', fun ids hids => ?_,
        fun hclean e he => ?_⟩
      · cases hmore : (t.loadAll env rest).1 with
        | error e => simp [hmore, Except.map] at hids
        | ok rest => exact hok' rest hmore
      · have hmore := map_eq_error_iff.1 he
        obtain ⟨d, hd, hgives⟩ := herror' (hsettles.clean hclean) e hmore
        refine ⟨d, List.mem_cons_of_mem _ hd, ?_⟩
        simpa only [GivesUp, hsettles.loading_iff] using hgives

/-! ### Loads between requests -/

theorem AtRest.slot?_eq_none_iff (h : s.AtRest) : s.slot? n = none ↔ s.findLoaded? n = none := by
  cases hx : s.slot? n with
  | none => simp [findLoaded?, hx]
  | some x =>
    obtain ⟨id, rfl⟩ := h.loaded n x hx
    simp [findLoaded?, hx]

/-- What one load looks up. -/
structure Searches (env : Environment) (s : Loader) (name : String) (found : List String) :
    Prop where
  lookups : (s.load env name).2.lookups = s.lookups ++ found
  once : found.Nodup
  fresh : ∀ n ∈ found, primitiveClass? n = none ∧ ¬Blueprint.isArrayName n ∧
    s.findLoaded? n = none
  /-- A load that succeeds looks up the ordinary classes that it adds to the registry. -/
  loaded : ∀ id, (s.load env name).1 = .ok id → ∀ n, n ∈ found ↔ s.findLoaded? n = none ∧
    ∃ i c, (s.load env name).2.findLoaded? n = some i ∧
      (s.load env name).2.classes[i]? = some c ∧ c.kind = .ordinary
  /-- A load that fails looks up nothing in vain but the names of one chain of calls. -/
  failed : ∀ e, (s.load env name).1 = .error e → ∃ chain,
    FailureChain env (fun _ => False) (s.load env name).2 name e chain ∧
      ∀ n, (n ∈ found ∧ (s.load env name).2.findLoaded? n = none) ↔
        n ∈ chain ∧ ¬Blueprint.isArrayName n

theorem isSearched_iff :
    Blueprint.isSearched n ↔ primitiveClass? n = none ∧ ¬Blueprint.isArrayName n := by
  simp [Blueprint.isSearched]

theorem AtRest.exists_searches (h : s.AtRest) (hs : s.Sound env.config env.search)
    (name : String) : ∃ found, s.Searches env name found := by
  have ht := (hs.load env name).changes.sound hs
  have hrest := h.finishes hs (.load env s name)
  obtain ⟨found, failed, hlooks, hok, herror⟩ := (load_looksUp env).1 s name hs
  refine ⟨found, hlooks.lookups, hlooks.nodup, fun n hn => ?_, fun id hid n => ?_, fun e he => ?_⟩
  · obtain ⟨hsearched, hfree, -⟩ := (hlooks.mem_iff n).1 hn
    obtain ⟨hprimitive, harray⟩ := isSearched_iff.1 hsearched
    exact ⟨hprimitive, harray, h.slot?_eq_none_iff.1 hfree⟩
  · obtain rfl := hok id hid
    rw [hlooks.mem_iff, h.slot?_eq_none_iff, ne_eq, hrest.slot?_eq_none_iff]
    constructor
    · rintro ⟨hsearched, hfree, hloaded | ⟨⟨⟩⟩⟩
      obtain ⟨i, hi⟩ := Option.ne_none_iff_exists'.1 hloaded
      obtain ⟨c, hc, -⟩ := ht.stands hi
      exact ⟨hfree, i, c, hi, hc, (ht.kind_eq_ordinary_iff hi hc).2 hsearched⟩
    · rintro ⟨hfree, i, c, hi, hc, hkind⟩
      exact ⟨(ht.kind_eq_ordinary_iff hi hc).1 hkind, hfree, .inl (by simp [hi])⟩
  · obtain ⟨hloading, -⟩ | hchain := herror h.clean e he
    · exact absurd hloading (h.not_loading name)
    · refine ⟨failed, ⟨hchain.head, hchain.edges, hchain.defined, ?_⟩, fun n => ?_⟩
      · obtain ⟨culprit, hlast, hend⟩ := hchain.last
        refine ⟨culprit, hlast, hend.imp_right ?_⟩
        rintro ⟨other, hneeds, hbusy | hmem, heq⟩
        · exact absurd hbusy (h.not_loading other)
        · exact ⟨other, hneeds, .inr hmem, heq⟩
      · have hfailed := hlooks.failed n
        have hkeeps := hlooks.keeps n
        have hdefined := hchain.defined n
        rw [hlooks.mem_iff, isSearched_iff, ← hrest.slot?_eq_none_iff]
        tauto

/-! ### Runs -/

/-- What was looked up on the way to a later state had not been loaded before. -/
def LooksUpNew (s t : Loader) : Prop :=
  ∃ later, t.lookups = s.lookups ++ later ∧ ∀ n ∈ later, s.findLoaded? n = none

theorem LooksUpNew.of_eq (h : t.lookups = s.lookups) : LooksUpNew s t :=
  ⟨[], by rw [h, List.append_nil], nofun⟩

theorem LooksUpNew.trans (h : LooksUpNew s t) (h' : LooksUpNew t u)
    (hkeeps : ∀ n id, s.findLoaded? n = some id → t.findLoaded? n = some id) :
    LooksUpNew s u := by
  obtain ⟨later, hlater, hnew⟩ := h
  obtain ⟨last, hlast, hnew'⟩ := h'
  refine ⟨later ++ last, by rw [hlast, hlater, List.append_assoc], fun n hn => ?_⟩
  rcases List.mem_append.1 hn with hn | hn
  · exact hnew n hn
  · rw [Option.eq_none_iff_forall_ne_some]
    intro id hid
    have hnone := hnew' n hn
    rw [hkeeps n id hid] at hnone
    cases hnone

end Loader

theorem Effect.looksUpNew {env : Environment} {s t : Loader} (h : Effect env s t)
    (hs : s.Sound env.config env.search) : s.LooksUpNew t := by
  cases h with
  | load name =>
    obtain ⟨found, failed, hlooks, -⟩ := (Loader.load_looksUp env).1 s name hs
    refine ⟨found, hlooks.lookups, fun n hn => ?_⟩
    rw [Loader.findLoaded?, ((hlooks.mem_iff n).1 hn).2.1]
  | mark id hf ho => exact .of_eq rfl
  | note run => exact .of_eq rfl
  | attach classClass id => exact .of_eq (Loader.lookups_attachObject ..)

theorem Effect.loadingAt {env : Environment} {s t : Loader} (h : Effect env s t) {name : String}
    {slot : SlotId} (own : s.LoadingAt name slot) : t.LoadingAt name slot := by
  cases h with
  | load n => exact (Loader.load_keeps env s n).loading name slot own
  | mark id hf ho => exact own
  | note run => exact own
  | attach classClass id =>
    exact (@Loader.Keeps.attachObject [] s classClass id).loading name slot own

/-- A step of a thread looks up nothing but the name that the thread is at. -/
theorem Thread.Step.lookups_cases {env : Environment} {s t : Loader} {me : ThreadId}
    {thread next : Thread} (h : Step env s me thread t next) :
    t.lookups = s.lookups ∨ ∃ name slot callers, thread = ⟨.search name slot, callers⟩ ∧
      t = s.noteLookup name := by
  cases h with
  | planned hp => exact .inr ⟨_, _, _, rfl, rfl⟩
  | unknown hp => exact .inr ⟨_, _, _, rfl, rfl⟩
  | built hd hb => exact .inl (Loader.lookups_addClass ..)
  | _ => exact .inl rfl

namespace Machine

variable {config : LoaderConfig} {search : ClassSearch} {env : Environment} {m m' : Machine}

/-- One turn of a run: a load or another effect of a request on the loader, or a move of the
threads. -/
inductive Turn (config : LoaderConfig) (search : ClassSearch) : Machine → Machine → Prop
  | request {m : Machine} {t : Loader} (initializer : StaticInitializer)
      (h : Effect ⟨config, search, initializer⟩ m.loader t) : Turn config search m ⟨t, m.threads⟩
  | move {m m' : Machine} (initializer : StaticInitializer)
      (h : Move ⟨config, search, initializer⟩ m m') : Turn config search m m'

def Turns (config : LoaderConfig) (search : ClassSearch) : Machine → Machine → Prop :=
  Relation.ReflTransGen (Turn config search)

theorem turns_of_effects {initializer : StaticInitializer} {t : Loader}
    (h : Effects ⟨config, search, initializer⟩ m.loader t) :
    Turns config search m ⟨t, m.threads⟩ := by
  induction h with
  | refl => exact .refl
  | tail _ hlast ih => exact ih.tail (.request (m := ⟨_, m.threads⟩) initializer hlast)

/-- A whole request is a run, with every load that its static initializers ask for a turn of its
own. -/
theorem turns_serve (hs : m.Sound config search) (initializer : StaticInitializer)
    (request : Request) :
    Turns config search m ⟨m.loader.serve ⟨config, search, initializer⟩ request, m.threads⟩ :=
  turns_of_effects (moves_serve hs.loader request takesRequests_nil).effects

theorem Sound.turn (hs : m.Sound config search) (h : Turn config search m m') :
    m'.Sound config search ∧ Loader.Changes config search m.loader m'.loader ∧
      m.loader.LooksUpNew m'.loader := by
  cases h with
  | request initializer h =>
    have hchanges := h.changes hs.loader
    exact ⟨⟨hchanges.sound hs.loader, fun thread ht => (hs.valid thread ht).mono hchanges
      hs.loader.toTidy, fun load hl => h.loadingAt (hs.loading load hl), hs.distinct⟩, hchanges,
      h.looksUpNew hs.loader⟩
  | move initializer h =>
    refine ⟨Sound.move ⟨config, search, initializer⟩ hs h, ?_⟩
    cases h with
    | spawn name => exact ⟨.refl, .of_eq rfl⟩
    | call name hid => exact ⟨.refl, .of_eq rfl⟩
    | step id hstep =>
      obtain ⟨thread, t, next, hid, hthread, rfl⟩ := step_cases hstep
      have hv := hs.valid thread (Array.mem_toList_iff.2 (Array.mem_of_getElem? hid))
      refine ⟨hthread.changes hv (hs.mem_loading hid), ?_⟩
      rcases hthread.lookups_cases with heq | ⟨name, slot, callers, rfl, rfl⟩
      · exact .of_eq heq
      · -- the thread holds the name, which is still loading
        have own := hs.mem_loading hid (name, slot) (by simp [Thread.held, Activity.held?])
        refine ⟨_, Loader.lookups_noteLookup .., fun n hn => ?_⟩
        obtain rfl := List.mem_singleton.1 (List.mem_of_mem_filter hn)
        rw [Loader.findLoaded?, own.slot?_eq]

theorem Sound.turns (hs : m.Sound config search) (h : Turns config search m m') :
    m'.Sound config search ∧ Loader.Changes config search m.loader m'.loader ∧
      m.loader.LooksUpNew m'.loader := by
  induction h with
  | refl => exact ⟨hs, .refl, .of_eq rfl⟩
  | tail _ hlast ih =>
    obtain ⟨hmid, hchanges, hnew⟩ := ih
    obtain ⟨hlast, hchanges', hnew'⟩ := hmid.turn hlast
    exact ⟨hlast, hchanges.trans hchanges',
      hnew.trans hnew' fun n id => hchanges.findLoaded? hs.loader.toTidy⟩

/-- Between requests, a load looks up each name at most once, and only names of files that are not
loaded: those of the classes that it adds, and if it fails those of the chain of calls that has
failed. In no run is a name looked up again that is loaded. -/
theorem Reachable.looks_up_once (hm : m.Reachable config search) :
    (m.loader.AtRest → ∀ initializer name,
      ∃ found, m.loader.Searches ⟨config, search, initializer⟩ name found) ∧
    ∀ m₁ m₂, Turns config search m m₁ → Turns config search m₁ m₂ →
      ∀ name id, m₁.loader.findLoaded? name = some id →
        ∃ later, m₂.loader.lookups = m₁.loader.lookups ++ later ∧ name ∉ later := by
  refine ⟨fun hrest initializer name => hrest.exists_searches hm.sound.loader name,
    fun m₁ m₂ h₁ h₂ name id hid => ?_⟩
  obtain ⟨later, hlater, hnew⟩ := ((hm.sound.turns h₁).1.turns h₂).2.2
  refine ⟨later, hlater, fun hmem => ?_⟩
  rw [hnew name hmem] at hid
  cases hid

/-- A class that extends itself is looked up once and in vain. -/
theorem loop_looked_up_once : ∃ (s : Loader) (found : List String),
    Reachable .standard SmallPath.search ⟨s, #[]⟩ ∧ s.AtRest ∧
      (s.load ⟨.standard, SmallPath.search, .skip⟩ "Loop").1 = .error (.circular "Loop") ∧
      s.Searches ⟨.standard, SmallPath.search, .skip⟩ "Loop" found ∧ found.count "Loop" = 1 ∧
      (s.load ⟨.standard, SmallPath.search, .skip⟩ "Loop").2.findLoaded? "Loop" = none := by
  obtain ⟨s, hs⟩ := (Loader.bootstrap_isOk_iff ⟨.standard, SmallPath.search, .skip⟩).2
    SmallPath.loadable_class
  have hhistory : Loader.History .standard SmallPath.search s := .ready .skip hs
  have hm : Reachable .standard SmallPath.search ⟨s, #[]⟩ := .ready .skip hs
  have he : (s.load ⟨.standard, SmallPath.search, .skip⟩ "Loop").1 = .error (.circular "Loop") :=
    SmallPath.load_loop rfl hhistory.sound.toTidy
      (hhistory.atRest.slot?_eq_none hhistory.sound (SmallPath.not_loadable_loop .standard))
  obtain ⟨found, hfound⟩ := hm.looks_up_once.1 hhistory.atRest .skip "Loop"
  obtain ⟨chain, hchain, hiff⟩ := hfound.failed _ he
  have hmem : "Loop" ∈ chain := List.mem_of_mem_head? hchain.head
  obtain ⟨hmem, hnone⟩ := (hiff "Loop").2 ⟨hmem, by decide⟩
  exact ⟨s, found, hm, hhistory.atRest, he, hfound, List.count_eq_one_of_mem hfound.once hmem, hnone⟩

end Machine

end ClassLoading
