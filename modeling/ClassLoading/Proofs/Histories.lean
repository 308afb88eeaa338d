import ClassLoading.Proofs.Operations

/-! The states of a loader that answers one request after the other. A request may come from
anywhere and ask for anything; the static initializers that it sets off may do anything as well, and
need not do the same twice. Every such history is a run of changes, so its loader is sound. -/
namespace ClassLoading

/-- A request to a loader. -/
inductive Request where
  | load (name : String)
  | loadInit (name : String)
  | init (id : ClassId)
  | object (id : ClassId)
  | loadObject (name : String)
  | forName (name : String) (run : Bool)
  | resolveClass (id : ClassId) (index : UInt16)
  | setStatic (id : ClassId) (slot : Nat) (value : Value)
  deriving DecidableEq, Repr, Inhabited

namespace Loader

/-- The state that a request leaves behind, whatever it is answered. -/
def serve (env : Environment) (s : Loader) : Request → Loader
  | .load name => (s.load env name).2
  | .loadInit name => (s.loadInit env name).2
  | .init id => (s.initClass env id).2
  | .object id => (s.objectOf id).2
  | .loadObject name => (s.loadObject env name).2
  | .forName name run => (s.forName env name run).2
  | .resolveClass id index =>
    if h : id < s.classes.size then (s.resolveClass env ⟨id, h⟩ index).2 else s
  | .setStatic id slot value => (s.setStatic id slot value).2

/-- The states of a loader that has got ready and then answered requests. -/
inductive History (config : LoaderConfig) (search : ClassSearch) : Loader → Prop
  | ready {s : Loader} (initializer : StaticInitializer)
      (h : bootstrap ⟨config, search, initializer⟩ = .ok s) : History config search s
  | serve {s : Loader} (initializer : StaticInitializer) (request : Request)
      (h : History config search s) :
      History config search (s.serve ⟨config, search, initializer⟩ request)

variable {config : LoaderConfig} {search : ClassSearch} {s : Loader}

/-- What holds of every load, of every change that leaves the fixed part of a class alone and of
every class object holds of every request. -/
theorem serve_induct (env : Environment) {R : Loader → Loader → Prop} (refl : ∀ s, R s s)
    (trans : ∀ {s t u}, R s t → R t u → R s u) (load : ∀ s name, R s (s.load env name).2)
    (mark : ∀ s id f, (∀ c : LoadedClass, (f c).fixed = c.fixed) → R s (s.updateClass id f))
    (note : ∀ s run, R s (s.noteRun run))
    (attach : ∀ s classClass id, R s (s.attachObject classClass id)) (s : Loader)
    (request : Request) : R s (s.serve env request) := by
  have store : ∀ s id slot value, R s (s.setStatic id slot value).2 := by
    intro s id slot value
    rcases setStatic_eq s id slot value with heq | heq
    · rw [heq]
      exact refl s
    · rw [heq]
      exact mark s id _ fun c => LoadedClass.fixed_setStatic? c slot value
  obtain ⟨init, -, loadInit⟩ := init_induct env refl trans load
    (fun s id => mark s id _ LoadedClass.fixed_startInit)
    (fun s id r => mark s id _ fun c => LoadedClass.fixed_endInit c r) note store
  have object : ∀ s id, R s (s.objectOf id).2 := by
    intro s id
    unfold objectOf
    split
    · exact attach ..
    · exact refl s
  have withObject : ∀ {s : Loader} {r : Except LoadError ClassId × Loader}, R s r.2 →
      R s (withObject r).2 := by
    rintro s ⟨r, t⟩ h
    cases r with
    | error e => exact h
    | ok id => exact trans h (object t id)
  cases request with
  | load name => exact load s name
  | loadInit name => exact loadInit s name
  | init id => exact init s id
  | object id => exact object s id
  | loadObject name => exact withObject (load s name)
  | forName name run =>
    simp only [serve, forName]
    split
    · exact refl s
    · apply withObject
      split
      · exact loadInit s _
      · exact load s _
  | resolveClass id index =>
    simp only [serve]
    split
    · simp only [resolveClass]
      split
      · exact refl s
      · exact refl s
      · next name _ =>
        split
        · exact mark s _ _ fun c => LoadedClass.fixed_link ..
        · have hload := load s name
          split
          · next heq => rwa [heq] at hload
          · next heq =>
            rw [heq] at hload
            exact trans hload (mark _ _ _ fun c => LoadedClass.fixed_link ..)
      · exact refl s
    · exact refl s
  | setStatic id slot value => exact store s id slot value

theorem Sound.serve (env : Environment) (hs : s.Sound env.config env.search) (request : Request) :
    Changes env.config env.search s (s.serve env request) := by
  apply serve_induct env (R := fun s t => s.Sound env.config env.search →
    Changes env.config env.search s t)
  · exact fun s _ => .refl
  · exact fun hst htu hs => (hst hs).trans (htu ((hst hs).sound hs))
  · exact fun s name hs => (hs.load env name).changes
  · exact fun s id f hf _ => .of (.updateClass fun c _ => hf c)
  · exact fun s run _ => .of (.grow rfl rfl (.refl _))
  · exact fun s classClass id _ => .of (.attachObject classClass id)
  · exact hs

/-- A name that is loading goes on loading while a request is answered. -/
theorem serve_loadingAt (env : Environment) (request : Request) {name : String} {slot : SlotId}
    (h : s.LoadingAt name slot) : (s.serve env request).LoadingAt name slot := by
  apply serve_induct env (R := fun s t => s.LoadingAt name slot → t.LoadingAt name slot)
  · exact fun s h => h
  · exact fun hst htu h => htu (hst h)
  · exact fun s n h => (load_keeps env s n).loading name slot h
  · exact fun s id f _ h => h
  · exact fun s run h => h
  · exact fun s classClass id h =>
      (@Keeps.attachObject [] s classClass id).loading name slot h
  · exact h

/-! ### Getting ready -/

variable {env : Environment}

theorem attachAll_changes (s : Loader) (classClass : ClassId) :
    Changes config search s (s.attachAll classClass) := by
  unfold attachAll
  generalize s.loadedNames.filterMap s.findLoaded? = ids
  induction ids generalizing s with
  | nil => exact .refl
  | cons id ids ih => exact (Changes.of (.attachObject classClass id)).trans (ih _)

theorem bootstrap_eq_ok {t : Loader} (h : bootstrap env = .ok t) :
    ∃ classClass s ids u, empty.load env classClassName = (.ok classClass, s) ∧
      { s with classClass := some classClass }.loadAll env primitiveNames = (.ok ids, u) ∧
      t = u.attachAll classClass := by
  unfold bootstrap at h
  split at h
  · cases h
  · next classClass s hload =>
    split at h
    · cases h
    · next ids u hall =>
      cases h
      exact ⟨classClass, s, ids, u, hload, hall, rfl⟩

theorem bootstrap_changes {t : Loader} (h : bootstrap env = .ok t) :
    Changes env.config env.search empty t := by
  obtain ⟨classClass, s, ids, u, hload, hall, rfl⟩ := bootstrap_eq_ok h
  have hs : Changes env.config env.search empty s := by
    have := (sound_empty.load env classClassName).changes
    rwa [hload] at this
  have hready : Changes env.config env.search empty { s with classClass := some classClass } :=
    hs.trans (.of (.grow rfl rfl (.refl _)))
  have hu : Changes env.config env.search { s with classClass := some classClass } u := by
    have := ((hready.sound sound_empty).loadAll env primitiveNames).changes
    rwa [hall] at this
  exact (hready.trans hu).trans (attachAll_changes u classClass)

/-- A loader that is ready has loaded the class of class objects. -/
theorem findLoaded?_bootstrap {t : Loader} (h : bootstrap env = .ok t) :
    ∃ id, t.findLoaded? classClassName = some id := by
  obtain ⟨classClass, s, ids, u, hload, hall, rfl⟩ := bootstrap_eq_ok h
  have hs := sound_empty.load env classClassName
  rw [hload] at hs
  have hready : Changes env.config env.search s { s with classClass := some classClass } :=
    .of (.grow rfl rfl (.refl _))
  have hsound := hready.sound (hs.changes.sound sound_empty)
  have hu := (hsound.loadAll env primitiveNames).changes
  rw [hall] at hu
  exact ⟨classClass, ((hready.trans hu).trans (attachAll_changes u classClass)).findLoaded?
    (hs.changes.sound sound_empty).toTidy (hs.loaded classClass rfl)⟩

theorem History.sound (h : History config search s) : s.Sound config search := by
  induction h with
  | ready initializer h => exact (bootstrap_changes h).sound sound_empty
  | serve initializer request _ ih =>
    exact (ih.serve ⟨config, search, initializer⟩ request).sound ih

end Loader

end ClassLoading
