import ClassLoading.Proofs.Additions

/-! How far a class has come in its life, and which operations leave it where it is. The stage of a
class and the state of its initialization fit together; a class comes further only when its
initialization starts or ends. Loads, stores, links and class objects are quiet: under them every
class stands as it did. -/
namespace ClassLoading

/-! ### Single classes -/

namespace LoadedClass

variable {c d : LoadedClass}

/-- The stage of a class and the state of its initialization fit together. -/
structure Coherent (c : LoadedClass) : Prop where
  linked : c.stage = .resolved ∨ c.stage = .initialized
  ordinary : c.kind = .ordinary → (c.stage = .initialized ↔ c.initStatus = .done)
  synthetic : c.kind ≠ .ordinary → c.initStatus = .done

/-- All that matters for initialization. -/
def standing (c : LoadedClass) : LoadedClass × Stage × InitStatus :=
  (c.fixed, c.stage, c.initStatus)

theorem Fresh.coherent (h : c.Fresh) : c.Coherent where
  linked := h.linked
  ordinary ho := by
    obtain ⟨hstage, hstatus⟩ := h.ordinary ho
    simp [hstage, hstatus]
  synthetic := h.synthetic

theorem Fresh.not_running (h : c.Fresh) : c.initStatus ≠ .running := by
  by_cases ho : c.kind = .ordinary
  · simp [(h.ordinary ho).2]
  · simp [h.synthetic ho]

theorem eq_of_standing (h : d.standing = c.standing) :
    d.fixed = c.fixed ∧ d.kind = c.kind ∧ d.stage = c.stage ∧ d.initStatus = c.initStatus := by
  simp only [standing, Prod.mk.injEq] at h
  exact ⟨h.1, congrArg (·.kind) h.1, h.2⟩

theorem Fresh.of_standing (h : c.Fresh) (heq : d.standing = c.standing) : d.Fresh := by
  obtain ⟨-, hkind, hstage, hstatus⟩ := eq_of_standing heq
  constructor
  · rw [hstage]
    exact h.linked
  · rw [hkind, hstage, hstatus]
    exact h.ordinary
  · rw [hkind, hstatus]
    exact h.synthetic

theorem Coherent.of_standing (h : c.Coherent) (heq : d.standing = c.standing) : d.Coherent := by
  obtain ⟨-, hkind, hstage, hstatus⟩ := eq_of_standing heq
  constructor
  · rw [hstage]
    exact h.linked
  · rw [hkind, hstage, hstatus]
    exact h.ordinary
  · rw [hkind, hstatus]
    exact h.synthetic

theorem standing_setStatic? (c : LoadedClass) (slot : Nat) (value : Value) :
    ((c.setStatic? slot value).getD c).standing = c.standing := by
  simp only [standing, c.fixed_setStatic? slot value]
  unfold setStatic?
  split <;> rfl

theorem standing_link (c : LoadedClass) (index : UInt16) (target : ClassId) :
    (c.link index target).standing = c.standing := by
  have hprogress := c.progress_link index target
  simp only [progress, Prod.mk.injEq] at hprogress
  simp only [standing, c.fixed_link index target, hprogress.2.1, hprogress.2.2.1]

theorem initAnswer?_eq_none_iff :
    c.initAnswer? = none ↔ c.kind = .ordinary ∧ c.initStatus = .notStarted := by
  unfold initAnswer?
  split
  · cases h : c.initStatus <;> simp_all
  · simp_all

theorem initAnswer?_eq_ok (h : c.initAnswer? = some (.ok ())) (ho : c.kind = .ordinary) :
    c.initStatus = .done ∨ c.initStatus = .running := by
  unfold initAnswer? at h
  rw [if_pos ho] at h
  cases hstatus : c.initStatus <;> simp_all

theorem Coherent.startInit (h : c.Coherent) (ha : c.initAnswer? = none) :
    c.startInit.Coherent := by
  obtain ⟨ho, hstatus⟩ := initAnswer?_eq_none_iff.1 ha
  have hstage : c.stage ≠ .initialized := by
    intro heq
    have hdone := (h.ordinary ho).1 heq
    rw [hstatus] at hdone
    cases hdone
  exact ⟨h.linked, fun _ => iff_of_false hstage nofun, fun hne => absurd ho hne⟩

theorem Coherent.endInit (h : c.Coherent) (hr : c.initStatus = .running)
    (r : Except LoadError Unit) : (c.endInit r).Coherent := by
  have ho : c.kind = .ordinary := by
    by_contra hne
    have hdone := h.synthetic hne
    rw [hr] at hdone
    cases hdone
  have hstage : c.stage = .resolved := by
    refine h.linked.resolve_right fun heq => ?_
    have hdone := (h.ordinary ho).1 heq
    rw [hr] at hdone
    cases hdone
  cases r with
  | error e =>
    refine ⟨.inl hstage, fun _ => ?_, fun hne => absurd ho hne⟩
    simp [LoadedClass.endInit, hstage]
  | ok u =>
    have hend : (c.endInit (.ok u)).stage = .initialized := by
      simp [LoadedClass.endInit, advance, Stage.advance, Stage.rank, hstage]
    exact ⟨.inr hend, fun _ => iff_of_true hend rfl, fun hne => absurd ho hne⟩

/-- A class comes further in its life, and what has come to an end stays so. -/
structure Advances (c d : LoadedClass) : Prop where
  done : c.initStatus = .done → d.initStatus = .done
  failed : c.initStatus = .failed → d.initStatus = .failed
  stage : c.stage.rank ≤ d.stage.rank

theorem Advances.refl (c : LoadedClass) : Advances c c := ⟨id, id, Nat.le_refl _⟩

theorem Advances.trans {e : LoadedClass} (h : Advances c d) (h' : Advances d e) : Advances c e :=
  ⟨fun hc => h'.done (h.done hc), fun hc => h'.failed (h.failed hc),
    Nat.le_trans h.stage h'.stage⟩

theorem Advances.of_standing (heq : d.standing = c.standing) : Advances c d := by
  obtain ⟨-, -, hstage, hstatus⟩ := eq_of_standing heq
  exact ⟨hstatus.trans, hstatus.trans, Nat.le_of_eq (congrArg Stage.rank hstage.symm)⟩

theorem advances_startInit (ha : c.initAnswer? = none) : Advances c c.startInit := by
  obtain ⟨-, hstatus⟩ := initAnswer?_eq_none_iff.1 ha
  exact ⟨fun h => by simp [hstatus] at h, fun h => by simp [hstatus] at h, Nat.le_refl _⟩

theorem advances_endInit (hr : c.initStatus = .running) (r : Except LoadError Unit) :
    Advances c (c.endInit r) := by
  refine ⟨fun h => by simp [hr] at h, fun h => by simp [hr] at h, ?_⟩
  cases r with
  | error e => exact Nat.le_refl _
  | ok u =>
    simp only [LoadedClass.endInit, advance, Stage.advance]
    split
    · assumption
    · exact Nat.le_refl _

end LoadedClass

/-! ### Quiet moves -/

/-- Every class stands as it did, the classes that are new are fresh, and no static initializer has
been run. -/
structure Loader.Steady (s t : Loader) : Prop where
  kept : ∀ {id : ClassId} {c : LoadedClass}, s.classes[id]? = some c →
    ∃ d, t.classes[id]? = some d ∧ d.standing = c.standing
  fresh : ∀ {id : ClassId} {d : LoadedClass}, t.classes[id]? = some d →
    (∃ c, s.classes[id]? = some c ∧ d.standing = c.standing) ∨ d.Fresh
  runs : t.runs = s.runs

namespace Loader.Steady

variable {s t u : Loader} {env : Environment}

theorem of_adds (h : Adds s t) : Steady s t where
  kept hc := ⟨_, h.classes hc, rfl⟩
  fresh hd := (h.fresh hd).imp (fun hc => ⟨_, hc, rfl⟩) id
  runs := h.runs

theorem refl (s : Loader) : Steady s s := .of_adds (.refl s)

theorem trans (h : Steady s t) (h' : Steady t u) : Steady s u where
  kept hc := by
    obtain ⟨d, hd, heq⟩ := h.kept hc
    obtain ⟨e, he, heq'⟩ := h'.kept hd
    exact ⟨e, he, heq'.trans heq⟩
  fresh he := by
    rcases h'.fresh he with ⟨d, hd, heq⟩ | hfresh
    · rcases h.fresh hd with ⟨c, hc, heq'⟩ | hfresh
      · exact .inl ⟨c, hc, heq.trans heq'⟩
      · exact .inr (hfresh.of_standing heq)
    · exact .inr hfresh
  runs := h'.runs.trans h.runs

theorem updateClass (s : Loader) (id : ClassId) {f : LoadedClass → LoadedClass}
    (hf : ∀ c, (f c).standing = c.standing) : Steady s (s.updateClass id f) where
  kept {i c} hc := by
    simp only [Loader.updateClass, Array.getElem?_modify, hc, Option.map_some]
    split
    · exact ⟨f c, rfl, hf c⟩
    · exact ⟨c, rfl, rfl⟩
  fresh {i d} hd := by
    simp only [Loader.updateClass, Array.getElem?_modify] at hd
    split at hd
    · obtain ⟨c, hc, rfl⟩ := Option.map_eq_some_iff.1 hd
      exact .inl ⟨c, hc, hf c⟩
    · exact .inl ⟨d, hd, rfl⟩
  runs := rfl

theorem setStatic (s : Loader) (id : ClassId) (slot : Nat) (value : Value) :
    Steady s (s.setStatic id slot value).2 := by
  rcases setStatic_eq s id slot value with heq | heq
  · rw [heq]
    exact refl s
  · rw [heq]
    exact updateClass s id fun c => c.standing_setStatic? slot value

theorem attachObject (s : Loader) (classClass id : ClassId) :
    Steady s (s.attachObject classClass id) := by
  unfold Loader.attachObject
  split
  · exact refl s
  · exact (of_adds (.pooledObject ..)).trans (updateClass _ id fun c => rfl)

theorem objectOf (s : Loader) (id : ClassId) : Steady s (s.objectOf id).2 := by
  unfold Loader.objectOf
  split
  · exact attachObject ..
  · exact refl s

theorem resolveClass (hs : s.Sound env.config env.search) (id : Fin s.classes.size)
    (index : UInt16) : Steady s (s.resolveClass env id index).2 := by
  simp only [Loader.resolveClass]
  split
  · exact refl s
  · exact refl s
  · next name _ =>
    split
    · exact updateClass s id fun c => c.standing_link index id
    · have hload := of_adds (hs.load_adds env name)
      split
      · next heq => rwa [heq] at hload
      · next target t heq =>
        rw [heq] at hload
        exact hload.trans (updateClass t id fun c => c.standing_link index target)
  · exact refl s

theorem bootstrap (h : bootstrap env = .ok t) : Steady empty t := by
  refine bootstrap_preserves (refl empty) ⟨fun s name hs hp => ?_, fun s names hs hp => ?_⟩
    (fun s classClass hp => ?_) (fun s classClass id hp => hp.trans (attachObject s classClass id)) h
  · exact hp.trans (of_adds (hs.load_adds env name))
  · exact hp.trans (of_adds ((load_adds env s).2 s names hs (.refl s)))
  · exact hp.trans ⟨fun hc => ⟨_, hc, rfl⟩, fun hd => .inl ⟨_, hd, rfl⟩, rfl⟩

end Loader.Steady

end ClassLoading
