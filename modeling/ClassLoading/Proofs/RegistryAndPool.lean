import ClassLoading.Proofs.Initializing

/-! The registry of classes and the pool of class objects go together. At every moment the two have
the same names; under each name there is one class and one object, and these point to each other.
Once a name has them, every later request for the name is answered with the same class and the same
object. -/
namespace ClassLoading

variable {env : Environment} {s t : Loader} {name : String} {id : ClassId} {k : ObjectId}
  {c : LoadedClass} {p : Moment}

/-- Every class keeps its name and its object. -/
theorem Effect.keeps_object (h : Effect env s t) (hs : s.Sound env.config env.search)
    (hm : s.Supplied) (hc : s.classes[id]? = some c) :
    ∃ d, t.classes[id]? = some d ∧ d.name = c.name ∧ d.classObject = c.classObject := by
  cases h with
  | load name => exact ⟨c, (hs.load_adds env name).classes hc, rfl, rfl⟩
  | mark i hf ho => exact (Loader.SameObjects.updateClass _ i hf ho).exists_class hc
  | note run => exact ⟨c, hc, rfl, rfl⟩
  | attach classClass i =>
    rw [hm.attachObject_eq]
    exact ⟨c, hc, rfl, rfl⟩

theorem Effects.keeps_object (h : Effects env s t) (hs : s.Settled env)
    (hc : s.classes[id]? = some c) :
    ∃ d, t.classes[id]? = some d ∧ d.name = c.name ∧ d.classObject = c.classObject := by
  induction h with
  | refl => exact ⟨c, hc, rfl, rfl⟩
  | tail hmid hlast ih =>
    have hs' := Effects.settled hmid hs
    obtain ⟨d, hd, hname, hobject⟩ := ih
    obtain ⟨e, he, hname', hobject'⟩ := hlast.keeps_object hs'.sound hs'.mirrored.supplied hd
    exact ⟨e, he, hname'.trans hname, hobject'.trans hobject⟩

namespace Loader

/-- What a loaded name stands for: a linked class of this name and the only object that the pool
has under it, each of which points to the other. -/
structure Represents (s : Loader) (name : String) (id : ClassId) (c : LoadedClass) (k : ObjectId) :
    Prop where
  atPlace : s.classes[id]? = some c
  named : c.name = name
  linked : c.stage = .resolved ∨ c.stage = .initialized
  attached : c.classObject = some k
  object : ∃ classClass, s.classClass = some classClass ∧
    s.findLoaded? classClassName = some classClass ∧ s.objects[k]? = some ⟨name, id, classClass⟩
  only : ∀ (j : ObjectId) (o : ClassObject), s.objects[j]? = some o → o.key = name → j = k

/-- The answers to the requests for a name that stands for a class and an object. -/
structure AnswersWith (env : Environment) (s : Loader) (name : String) (id : ClassId)
    (k : ObjectId) : Prop where
  findLoaded? : s.findLoaded? name = some id
  load : s.load env name = (.ok id, s)
  loadInit : ∀ i, (s.loadInit env name).1 = .ok i → i = id
  object? : s.object? name = some k
  objectOf : s.objectOf id = (.ok k, s)
  loadObject : s.loadObject env name = (.ok k, s)
  forName : ∀ dotted, isUndotted dotted = false → Text.replace '.' '/' dotted = name →
    s.forName env dotted false = (.ok k, s)
  forNameInit : ∀ dotted j, Text.replace '.' '/' dotted = name →
    (s.forName env dotted true).1 = .ok j → j = k

theorem Mirrored.represents (h : s.Mirrored) (hs : s.Sound env.config env.search)
    (hlinked : ∀ {id : ClassId} {c : LoadedClass}, s.classes[id]? = some c → c.Coherent)
    (hid : s.findLoaded? name = some id) : ∃ c k, s.Represents name id c k := by
  obtain ⟨c, k, classClass, hc, hname, hk, hclass, ho⟩ := h.pooled.exists_object h.attached hs hid
  obtain ⟨_, hready, hloaded⟩ := h.ready
  rw [hclass] at hready
  cases hready
  refine ⟨c, k, hc, hname, (hlinked hc).linked, hk, ⟨classClass, hclass, hloaded, ho⟩, ?_⟩
  intro j o' ho' hkey'
  exact h.pooled.key_unique h.registered.distinct hc hk ho' (hkey'.trans hname.symm)

theorem Mirrored.object?_eq_some_iff (h : s.Mirrored) :
    s.object? name = some k ↔ ∃ (id : ClassId) (c : LoadedClass),
      s.classes[id]? = some c ∧ c.name = name ∧ c.classObject = some k :=
  h.supplied.object?_eq_some_iff

/-- A name is loaded exactly if the pool has an object for it. -/
theorem Mirrored.loaded_iff_pooled (h : s.Mirrored) (hs : s.Sound env.config env.search) :
    (∃ id, s.findLoaded? name = some id) ↔ ∃ k, s.object? name = some k := by
  constructor
  · rintro ⟨id, hid⟩
    obtain ⟨c, k, -, hc, hname, hk, -⟩ := h.pooled.exists_object h.attached hs hid
    exact ⟨k, h.object?_eq_some_iff.2 ⟨id, c, hc, hname, hk⟩⟩
  · rintro ⟨k, hk⟩
    obtain ⟨id, c, hc, rfl, -⟩ := h.object?_eq_some_iff.1 hk
    exact ⟨id, h.registered id c hc⟩

theorem load_eq_of_findLoaded? (hid : s.findLoaded? name = some id) :
    s.load env name = (.ok id, s) := by
  obtain ⟨slot, hl, hslot⟩ := findLoaded?_eq_some_iff.1 hid
  exact load_of_done (slot?_eq_some_iff.2 ⟨slot, hl, hslot⟩)

theorem loadInit_eq_ok {i : ClassId} (hload : s.load env name = (.ok id, s))
    (hi : (s.loadInit env name).1 = .ok i) : i = id := by
  rw [loadInit_eq, hload] at hi
  simp only at hi
  cases hr : (s.initClass env id).1 with
  | error e =>
    rw [hr] at hi
    cases hi
  | ok u =>
    rw [hr] at hi
    cases hi
    rfl

/-- A class of the table is what all requests for its name are answered with, and so is its object,
also after an initialization. -/
theorem Settled.answersWith (h : s.Settled env) (hc : s.classes[id]? = some c)
    (hk : c.classObject = some k) : s.AnswersWith env c.name id k := by
  have hid := h.mirrored.registered id c hc
  have hload : s.load env c.name = (.ok id, s) := load_eq_of_findLoaded? hid
  have hobject := h.mirrored.objectOf_eq hc hk
  refine ⟨hid, hload, fun i => loadInit_eq_ok hload,
    h.mirrored.object?_eq_some_iff.2 ⟨id, c, hc, rfl, hk⟩, hobject, ?_, ?_, ?_⟩
  · rw [loadObject, hload, withObject, hobject]
  · intro dotted hdotted hname
    simp only [forName, hdotted, hname, hload, withObject, hobject, Bool.false_eq_true, if_false]
  · intro dotted j hname hj
    simp only [forName, hname, if_true] at hj
    split at hj
    · cases hj
    · rw [loadInit_eq, hload] at hj
      have hinit := ((moves_init env).1 s id h.sound []).effects
      simp only at hj hinit
      generalize s.initClass env id = x at hj hinit
      obtain ⟨r, t⟩ := x
      cases r with
      | error e => cases hj
      | ok u =>
        obtain ⟨d, hd, -, hobject'⟩ := hinit.keeps_object h hc
        have heq := (hinit.settled h).mirrored.objectOf_eq hd (hobject'.trans hk)
        simp only [Except.map, withObject, heq] at hj
        cases hj
        rfl

end Loader

/-- At every moment the registry and the pool have the same names, each of which stands for one
class and one object, and whatever moves follow, requests for a name are answered with these. -/
theorem Session.registry_mirrors_pool (h : Session env p) :
    (∀ (name : String) (id : ClassId), p.loader.findLoaded? name = some id →
      ∃ c k, p.loader.Represents name id c k) ∧
    (p.loader.objects.toList.map (·.key)).Perm p.loader.loadedNames ∧
    p.loader.objects.size = p.loader.loadedNames.length ∧
    (∀ name, (∃ id, p.loader.findLoaded? name = some id) ↔ ∃ k, p.loader.object? name = some k) ∧
    (∀ (q : Moment) (name : String) (id : ClassId) (k : ObjectId), Moves env p q →
      p.loader.findLoaded? name = some id → p.loader.object? name = some k →
        q.loader.AnswersWith env name id k) := by
  have hs := h.settled
  have hperm := hs.mirrored.keys_perm_loadedNames hs.sound
  refine ⟨fun name id hid => hs.mirrored.represents hs.sound h.consistent.stacked.coherent hid,
    hperm, by simpa using hperm.length_eq,
    fun name => hs.mirrored.loaded_iff_pooled hs.sound, fun q name id k hq hid hk => ?_⟩
  obtain ⟨i, c, hc, rfl, hobject⟩ := hs.mirrored.object?_eq_some_iff.1 hk
  have heq : i = id := Option.some.inj ((hs.mirrored.registered i c hc).symm.trans hid)
  subst heq
  obtain ⟨d, hd, hname, hobject'⟩ := hq.effects.keeps_object hs hc
  rw [← hname]
  exact (h.moves hq).settled.answersWith hd (hobject'.trans hobject)

/-- The class of class objects has its object as soon as there is one, and keeps it when it is asked
for and initialized by its dotted name. -/
theorem Session.classClass_keeps_object : ∃ (env : Environment) (s : Loader) (id : ClassId)
    (k : ObjectId), Session env ⟨s, .free, []⟩ ∧ s.findLoaded? classClassName = some id ∧
      s.object? classClassName = some k ∧
      (s.serve env (.forName "java.lang.Class" true)).AnswersWith env classClassName id k := by
  let env : Environment := ⟨.standard, SmallPath.search, .script fun _ => [.load "int"]⟩
  obtain ⟨s, hs⟩ := (Loader.bootstrap_isOk_iff env).2 SmallPath.loadable_class
  have hp : Session env ⟨s, .free, []⟩ := ⟨s, hs, .refl _⟩
  obtain ⟨id, hid⟩ := Loader.findLoaded?_bootstrap hs
  obtain ⟨-, -, -, hiff, hlater⟩ := Session.registry_mirrors_pool hp
  obtain ⟨k, hk⟩ := (hiff classClassName).1 ⟨id, hid⟩
  exact ⟨env, s, id, k, hp, hid, hk,
    hlater _ classClassName id k (hp.moves_serve rfl (.forName "java.lang.Class" true)) hid hk⟩

end ClassLoading
