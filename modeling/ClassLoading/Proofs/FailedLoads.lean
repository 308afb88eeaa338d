import ClassLoading.Proofs.RegistryAndPool

/-! What a load leaves behind, whether it succeeds or fails. It touches nothing that was loaded
before, runs nothing, and ends with all of its own bookkeeping undone. What it has loaded on the way
to a failure are classes that the failed one depends on; these are complete and stay loaded. -/
namespace ClassLoading

namespace Loader

variable {env : Environment} {s t : Loader} {name n : String} {id : ClassId}

/-- A load that fails does not leave its name loaded. -/
theorem AtRest.findLoaded?_of_error (h : s.AtRest) (hs : s.Sound env.config env.search)
    {e : LoadError} (he : (s.load env name).1 = .error e) :
    (s.load env name).2.findLoaded? name = none := by
  rw [Option.eq_none_iff_forall_not_mem]
  intro id hid
  have hloadable := ((hs.load env name).changes.sound hs).loadable hid
  obtain ⟨i, hi⟩ := (h.load_isOk_iff env hs).2 hloadable
  rw [he] at hi
  cases hi

theorem AtRest.registered_done (h : s.AtRest) (hs : s.Tidy) {slot : SlotId}
    (hmem : (n, slot) ∈ s.registry) : ∃ id, s.slots[slot]? = some (.done (.ok id)) := by
  have hl := hs.lookup_eq_some_iff.2 hmem
  have hx := Array.getElem?_eq_getElem (hs.slot_lt hl)
  obtain ⟨id, hid⟩ := h.loaded n _ (slot?_eq_some_iff.2 ⟨slot, hl, hx⟩)
  exact ⟨id, hid ▸ hx⟩

/-- Everything that was there before is there as it was: classes under their names with all that
belongs to them, class objects, and the log of static initializers. -/
structure Untouched (s t : Loader) : Prop where
  loaded : ∀ name id, s.findLoaded? name = some id → t.findLoaded? name = some id
  classes : ∀ (id : ClassId) (c : LoadedClass), s.classes[id]? = some c → t.classes[id]? = some c
  objects : ∀ (k : ObjectId) (o : ClassObject), s.objects[k]? = some o → t.objects[k]? = some o
  runs : t.runs = s.runs

/-- Nothing is in progress: every entry of the registry is a class that was published, and no thread
loads or waits. -/
structure Finished (s : Loader) : Prop where
  published : ∀ name slot, (name, slot) ∈ s.registry →
    ∃ id, s.slots[slot]? = some (.done (.ok id))
  owners : s.inFlight.owners = []
  waiting : s.inFlight.waiting = []

end Loader

/-- A load that is asked for between requests leaves everything else as it was and nothing undone,
and if it fails, then all that it has loaded are classes that the failed one depends on, which are
complete and are what every later load answers with. -/
theorem Session.load_leaves {env : Environment} {p : Moment} (h : Session env p)
    (hfree : p.focus = .free) (name : String) :
    p.loader.Untouched (p.loader.load env name).2 ∧ (p.loader.load env name).2.Finished ∧
      ∀ e, (p.loader.load env name).1 = .error e →
        (p.loader.load env name).2.findLoaded? name = none ∧
        ∀ n id, p.loader.findLoaded? n = none →
          (p.loader.load env name).2.findLoaded? n = some id →
            n ≠ name ∧ Relation.TransGen env.search.Needs name n ∧
            (∃ c k, (p.loader.load env name).2.Represents n id c k) ∧
            ∀ q, Moves env ⟨(p.loader.load env name).2, .free, p.frames⟩ q →
              q.loader.load env n = (.ok id, q.loader) := by
  obtain ⟨s, focus, frames⟩ := p
  cases hfree
  have hs := h.settled
  have hnext := h.moves (.of (.load s frames name))
  have ht := hnext.settled
  have hload := hs.sound.load env name
  have hadds := hs.sound.load_adds env name
  refine ⟨⟨fun n id hid => hload.changes.findLoaded? hs.sound.toTidy hid,
      fun id c hc => hadds.classes hc, fun k o ho => hadds.objects ho, hadds.runs⟩,
    ⟨fun n slot hmem => ht.atRest.registered_done ht.sound.toTidy hmem,
      congrArg InFlight.owners ht.atRest.idle, congrArg InFlight.waiting ht.atRest.idle⟩,
    fun e he => ?_⟩
  have hnone := hs.atRest.findLoaded?_of_error hs.sound he
  refine ⟨hnone, fun n id hold hid => ?_⟩
  have hne : n ≠ name := by
    rintro rfl
    rw [hnone] at hid
    cases hid
  refine ⟨hne, ?_, ht.mirrored.represents ht.sound hnext.consistent.stacked.coherent hid,
    fun q hq => ?_⟩
  · rcases (Loader.load_needs env).1 s name hs.sound n id hid with hid' | hneeds
    · rw [hold] at hid'
      cases hid'
    · exact (Relation.reflTransGen_iff_eq_or_transGen.1 hneeds).resolve_left hne
  · exact Loader.load_eq_of_findLoaded?
      ((hq.effects.changes ht.sound).findLoaded? ht.sound.toTidy hid)

/-- The load of a class whose interface is missing leaves its super class behind, which had to be
loaded first. -/
theorem Session.broken_leaves_base : ∃ (env : Environment) (s : Loader) (e : LoadError)
    (id : ClassId), Session env ⟨s, .free, []⟩ ∧ (s.load env "Broken").1 = .error e ∧
      s.Untouched (s.load env "Broken").2 ∧ (s.load env "Broken").2.Finished ∧
      (s.load env "Broken").2.findLoaded? "Broken" = none ∧ s.findLoaded? "Base" = none ∧
      (s.load env "Broken").2.findLoaded? "Base" = some id ∧
      Relation.TransGen env.search.Needs "Broken" "Base" ∧
      (∃ c k, (s.load env "Broken").2.Represents "Base" id c k) ∧
      (s.load env "Broken").2.load env "Base" = (.ok id, (s.load env "Broken").2) := by
  let env : Environment := ⟨.standard, GapPath.search, .skip⟩
  obtain ⟨s, hready⟩ := (Loader.bootstrap_isOk_iff env).2 GapPath.loadable_class
  have hp : Session env ⟨s, .free, []⟩ := ⟨s, hready, .refl _⟩
  have hs := hp.settled
  obtain ⟨hsame, hdone, hfailed⟩ := Session.load_leaves hp rfl "Broken"
  have hnone := GapPath.findLoaded?_base hready
  obtain ⟨id, hid⟩ := hs.atRest.exists_first_needed hs.sound GapPath.ofName_broken rfl
    GapPath.loadable_base
  cases hr : (s.load env "Broken").1 with
  | error e =>
    obtain ⟨hgone, hnew⟩ := hfailed e hr
    obtain ⟨-, hneeds, hrepresents, hlater⟩ := hnew "Base" id hnone hid
    exact ⟨env, s, e, id, hp, hr, hsame, hdone, hgone, hnone, hid, hneeds, hrepresents,
      hlater _ (.refl _)⟩
  | ok i =>
    exact absurd ((hs.atRest.load_isOk_iff env hs.sound).1 ⟨i, hr⟩) GapPath.not_loadable_broken

end ClassLoading
