import ClassLoading.Proofs.Additions

/-! The pool of class objects. An object stands for the class of its name, and the two point to each
other; as long as no two classes share a name, there is nothing else in the pool, and a second
request for the object of a class finds the first one. Once a loader is ready, every class of its
table has an object, so the pool and the registry have the same names. -/
namespace ClassLoading

namespace Loader

variable {config : LoaderConfig} {search : ClassSearch} {env : Environment} {s t : Loader}
  {id classClass : ClassId} {c : LoadedClass} {k : ObjectId} {name : String}

/-! ### The pool -/

/-- No two classes of the table have the same name. -/
def Distinct (s : Loader) : Prop :=
  ∀ (i j : ClassId) (c d : LoadedClass),
    s.classes[i]? = some c → s.classes[j]? = some d → c.name = d.name → i = j

theorem Registered.distinct (h : s.Registered) : s.Distinct :=
  fun _ _ _ _ hc hd hname => h.name_inj hc hd hname

/-- Classes and objects that point to one another. -/
structure Pooled (s : Loader) : Prop where
  entity : ∀ (k : ObjectId) (o : ClassObject), s.objects[k]? = some o →
    s.classClass = some o.classClass ∧
      ∃ c, s.classes[o.entity]? = some c ∧ c.name = o.key ∧ c.classObject = some k
  object : ∀ (id : ClassId) (c : LoadedClass) (k : ObjectId), s.classes[id]? = some c →
    c.classObject = some k → ∃ o, s.objects[k]? = some o ∧ o.entity = id

/-- Every class of the table has its object. -/
def Attached (s : Loader) : Prop :=
  ∀ (id : ClassId) (c : LoadedClass), s.classes[id]? = some c → ∃ k, c.classObject = some k

theorem pooled_empty : Pooled empty := by
  refine ⟨fun k o ho => ?_, fun id c k hc => ?_⟩
  · cases ho
  · cases hc

/-- An object is known by the name of its class. -/
theorem Pooled.object_eq (h : s.Pooled) (hc : s.classes[id]? = some c)
    (hk : c.classObject = some k) :
    ∃ o, s.objects[k]? = some o ∧ o.key = c.name ∧ o.entity = id ∧
      s.classClass = some o.classClass := by
  obtain ⟨o, ho, rfl⟩ := h.object id c k hc hk
  obtain ⟨hclass, d, hd, hname, -⟩ := h.entity k o ho
  rw [hc] at hd
  cases hd
  exact ⟨o, ho, hname.symm, rfl, hclass⟩

theorem Pooled.key_unique (h : s.Pooled) (hd : s.Distinct) (hc : s.classes[id]? = some c)
    (hk : c.classObject = some k) {j : ObjectId} {o : ClassObject} (ho : s.objects[j]? = some o)
    (hkey : o.key = c.name) : j = k := by
  obtain ⟨-, d, hentity, hname, hj⟩ := h.entity j o ho
  have heq : o.entity = id := hd _ _ d c hentity hc (hname.trans hkey)
  rw [heq, hc] at hentity
  cases hentity
  rw [hk] at hj
  exact (Option.some.inj hj).symm

theorem Pooled.object?_eq_some_iff (h : s.Pooled) (hd : s.Distinct) :
    s.object? name = some k ↔
      ∃ (id : ClassId) (c : LoadedClass),
        s.classes[id]? = some c ∧ c.name = name ∧ c.classObject = some k := by
  constructor
  · intro hk
    obtain ⟨hlt, hkey, -⟩ := Array.findIdx?_eq_some_iff_getElem.1 hk
    obtain ⟨-, c, hc, hname, hobject⟩ := h.entity k s.objects[k] (Array.getElem?_eq_getElem hlt)
    exact ⟨_, c, hc, hname.trans (beq_iff_eq.1 hkey), hobject⟩
  · rintro ⟨id, c, hc, rfl, hk⟩
    obtain ⟨o, ho, hkey, -, -⟩ := h.object_eq hc hk
    cases hj : s.object? c.name with
    | none =>
      have hnone := Array.findIdx?_eq_none_iff.1 hj o (Array.mem_of_getElem? ho)
      simp [hkey] at hnone
    | some j =>
      obtain ⟨hlt, hkey, -⟩ := Array.findIdx?_eq_some_iff_getElem.1 hj
      rw [h.key_unique hd hc hk (Array.getElem?_eq_getElem hlt) (beq_iff_eq.1 hkey)]

/-- A loaded name has a class, and the class one object. -/
theorem Pooled.exists_object (h : s.Pooled) (ha : s.Attached) (hs : s.Sound config search)
    (hid : s.findLoaded? name = some id) :
    ∃ c k classClass, s.classes[id]? = some c ∧ c.name = name ∧ c.classObject = some k ∧
      s.classClass = some classClass ∧ s.objects[k]? = some ⟨name, id, classClass⟩ := by
  obtain ⟨past, plan, ids, built, rfl, hext, -, -, hbuild⟩ := hs.made name id hid
  obtain ⟨c, hc, hfixed⟩ := hext past.size built (by simp)
  have hname : c.name = built.name := congrArg (·.name) hfixed
  rw [(Blueprint.references_build hbuild).1] at hname
  obtain ⟨k, hk⟩ := ha _ c hc
  obtain ⟨⟨key, entity, classClass⟩, ho, rfl, rfl, hclass⟩ := h.object_eq hc hk
  exact ⟨c, k, classClass, hc, hname, hk, hclass, by rw [ho, hname]⟩

/-! ### Attaching objects -/

/-- Attaching an object a second time changes nothing. -/
theorem Pooled.attachObject_of_some (h : s.Pooled) (hd : s.Distinct)
    (hc : s.classes[id]? = some c) (hk : c.classObject = some k) (classClass : ClassId) :
    s.attachObject classClass id = s := by
  have hobject : s.object? c.name = some k :=
    (h.object?_eq_some_iff hd).2 ⟨id, c, hc, rfl, hk⟩
  have hmodify : ∀ f : LoadedClass → LoadedClass, f c = c → s.classes.modify id f = s.classes := by
    intro f hf
    apply Array.ext_getElem?
    intro i
    rw [Array.getElem?_modify]
    split
    · next heq => rw [← heq, hc, Option.map_some, hf]
    · rfl
  simp only [attachObject, hc, pooledObject, hobject, updateClass]
  rw [hmodify _ (by rw [hk, Option.some_or, ← hk])]

theorem Pooled.attachObject_of_none (h : s.Pooled) (hd : s.Distinct)
    (hc : s.classes[id]? = some c) (hk : c.classObject = none) (classClass : ClassId) :
    s.attachObject classClass id =
      { s with
        classes := s.classes.modify id fun c =>
          { c with classObject := c.classObject.or (some s.objects.size) }
        objects := s.objects.push ⟨c.name, id, classClass⟩ } := by
  have hobject : s.object? c.name = none := by
    rw [Option.eq_none_iff_forall_not_mem]
    intro j hj
    obtain ⟨i, d, hi, hname, hj⟩ := (h.object?_eq_some_iff hd).1 hj
    rw [hd i id d c hi hc hname, hc] at hi
    cases hi
    rw [hk] at hj
    cases hj
  simp only [attachObject, hc, pooledObject, hobject, updateClass]

theorem Pooled.attachObject (h : s.Pooled) (hd : s.Distinct) (id : ClassId)
    (ready : s.classClass = some classClass) : (s.attachObject classClass id).Pooled := by
  cases hc : s.classes[id]? with
  | none =>
    have hsame : s.attachObject classClass id = s := by simp only [Loader.attachObject, hc]
    rwa [hsame]
  | some c =>
    cases hk : c.classObject with
    | some k => rwa [h.attachObject_of_some hd hc hk]
    | none =>
      rw [h.attachObject_of_none hd hc hk]
      have hnew : ∀ f : LoadedClass → LoadedClass,
          (s.classes.modify id f)[id]? = some (f c) := by
        intro f
        rw [Array.getElem?_modify, if_pos rfl, hc, Option.map_some]
      have hold : ∀ (f : LoadedClass → LoadedClass) (i : ClassId), i ≠ id →
          (s.classes.modify id f)[i]? = s.classes[i]? := by
        intro f i hi
        rw [Array.getElem?_modify, if_neg (Ne.symm hi)]
      constructor
      · intro j o ho
        simp only [Array.getElem?_push] at ho
        split at ho
        · next hj =>
          cases ho
          exact ⟨ready, _, hnew _, rfl, by simp [hk, hj]⟩
        · obtain ⟨hclass, d, hentity, hname, hj⟩ := h.entity j o ho
          have hne : o.entity ≠ id := by
            intro heq
            rw [heq, hc] at hentity
            cases hentity
            rw [hk] at hj
            cases hj
          exact ⟨hclass, d, (hold _ _ hne).trans hentity, hname, hj⟩
      · intro i d j hi hj
        simp only [Array.getElem?_push]
        by_cases hid : i = id
        · subst hid
          rw [hnew] at hi
          cases hi
          simp only [hk, Option.none_or, Option.some.injEq] at hj
          exact ⟨_, if_pos hj.symm, rfl⟩
        · rw [hold _ _ hid] at hi
          obtain ⟨o, ho, hentity⟩ := h.object i d j hi hj
          have hlt := (Array.getElem?_eq_some_iff.1 ho).1
          exact ⟨o, (if_neg (Nat.ne_of_lt hlt)).trans ho, hentity⟩

theorem fixed_attachObject (s : Loader) (classClass id i : ClassId) :
    (s.attachObject classClass id).classes[i]?.map (·.fixed) = s.classes[i]?.map (·.fixed) := by
  unfold Loader.attachObject
  split
  · rfl
  · simp only [updateClass, (pooledObject_fields ..).2.2, Array.getElem?_modify]
    split
    · rw [Option.map_map]
      rfl
    · rfl

theorem findLoaded?_attachObject (s : Loader) (classClass id : ClassId) (name : String) :
    (s.attachObject classClass id).findLoaded? name = s.findLoaded? name := by
  rw [findLoaded?, findLoaded?,
    slot?_congr (attachObject_registry ..) (attachObject_slots ..)]

theorem Registered.attachObject (h : s.Registered) (classClass id : ClassId) :
    (s.attachObject classClass id).Registered := by
  intro i c hc
  have hfixed := fixed_attachObject s classClass id i
  rw [hc, Option.map_some] at hfixed
  obtain ⟨d, hd, heq⟩ := Option.map_eq_some_iff.1 hfixed.symm
  have hname : c.name = d.name := congrArg (·.name) heq.symm
  rw [findLoaded?_attachObject, hname]
  exact h i d hd

theorem classClass_attachObject (s : Loader) (classClass id : ClassId) :
    (s.attachObject classClass id).classClass = s.classClass := by
  unfold Loader.attachObject
  split
  · rfl
  · simp only [updateClass, pooledObject]
    split <;> rfl

/-! ### New classes -/

theorem Pooled.push (h : s.Pooled) (hc : c.classObject = none) :
    { s with classes := s.classes.push c }.Pooled := by
  constructor
  · intro j o ho
    obtain ⟨hclass, d, hd, hname, hj⟩ := h.entity j o ho
    have hlt := (Array.getElem?_eq_some_iff.1 hd).1
    refine ⟨hclass, d, ?_, hname, hj⟩
    simp only [Array.getElem?_push, Nat.ne_of_lt hlt, if_false, hd]
  · intro i d j hi hj
    simp only [Array.getElem?_push] at hi
    split at hi
    · cases hi
      rw [hc] at hj
      cases hj
    · exact h.object i d j hi hj

theorem Distinct.push (h : s.Distinct)
    (hnew : ∀ (i : ClassId) (d : LoadedClass), s.classes[i]? = some d → d.name ≠ c.name) :
    { s with classes := s.classes.push c }.Distinct := by
  intro i j a b hi hj hname
  simp only [Array.getElem?_push] at hi hj
  split at hi <;> split at hj
  · next heq heq' => exact heq.trans heq'.symm
  · cases hi
    exact absurd hname.symm (hnew j b hj)
  · cases hj
    exact absurd hname (hnew i a hi)
  · exact h i j a b hi hj hname

/-- A class of a new name is added together with its object. -/
theorem Pooled.addClass (h : s.Pooled) (hd : s.Distinct) (hc : c.classObject = none)
    (hnew : ∀ (i : ClassId) (d : LoadedClass), s.classes[i]? = some d → d.name ≠ c.name) :
    (s.addClass c).Pooled := by
  unfold Loader.addClass attachIfReady
  split
  · next classClass hready => exact (h.push hc).attachObject (hd.push hnew) _ hready
  · exact h.push hc

theorem Attached.addClass (h : s.Attached) (ready : s.classClass = some classClass)
    (c : LoadedClass) : (s.addClass c).Attached := by
  intro i d hd
  rw [addClass_eq, Array.getElem?_push] at hd
  split at hd
  · cases hd
    simp only [addedClass, ready]
    cases c.classObject with
    | none => exact ⟨_, rfl⟩
    | some k => exact ⟨k, rfl⟩
  · exact h i d hd

/-! ### What else happens to classes -/

/-- The table has the same classes by name, each with the same object as before. -/
def SameObjects (s t : Loader) : Prop :=
  ∀ i : ClassId, t.classes[i]?.map (fun c => (c.name, c.classObject)) =
    s.classes[i]?.map fun c => (c.name, c.classObject)

theorem SameObjects.exists_class (h : SameObjects s t) (hc : s.classes[id]? = some c) :
    ∃ d, t.classes[id]? = some d ∧ d.name = c.name ∧ d.classObject = c.classObject := by
  have heq := h id
  rw [hc, Option.map_some] at heq
  obtain ⟨d, hd, hlabel⟩ := Option.map_eq_some_iff.1 heq
  simp only [Prod.mk.injEq] at hlabel
  exact ⟨d, hd, hlabel⟩

theorem SameObjects.symm (h : SameObjects s t) : SameObjects t s := fun i => (h i).symm

theorem SameObjects.updateClass (s : Loader) (id : ClassId) {f : LoadedClass → LoadedClass}
    (hf : ∀ c, (f c).fixed = c.fixed) (hobject : ∀ c, (f c).classObject = c.classObject) :
    SameObjects s (s.updateClass id f) := by
  have hname : ∀ c, (f c).name = c.name := fun c => congrArg (·.name) (hf c)
  intro i
  simp only [Loader.updateClass, Array.getElem?_modify]
  split
  · simp [Function.comp_def, hname, hobject]
  · rfl

theorem Pooled.of_sameObjects (h : s.Pooled) (hst : SameObjects s t)
    (ho : t.objects = s.objects) (hk : t.classClass = s.classClass) : t.Pooled := by
  constructor
  · intro j o hj
    rw [ho] at hj
    obtain ⟨hclass, c, hc, hname, hobject⟩ := h.entity j o hj
    obtain ⟨d, hd, hname', hobject'⟩ := hst.exists_class hc
    exact ⟨hk.trans hclass, d, hd, hname'.trans hname, hobject'.trans hobject⟩
  · intro i d j hd hj
    obtain ⟨c, hc, -, hobject⟩ := hst.symm.exists_class hd
    rw [ho]
    exact h.object i c j hc (hobject.trans hj)

theorem Attached.of_sameObjects (h : s.Attached) (hst : SameObjects s t) : t.Attached := by
  intro i d hd
  obtain ⟨c, hc, -, hobject⟩ := hst.symm.exists_class hd
  obtain ⟨j, hj⟩ := h i c hc
  exact ⟨j, hobject.symm.trans hj⟩

/-! ### Loads -/

theorem load_pooled (env : Environment) :
    (∀ (s : Loader) (name : String), s.Sound env.config env.search →
      s.Registered ∧ s.Pooled → (s.load env name).2.Registered ∧ (s.load env name).2.Pooled) ∧
    ∀ (s : Loader) (names : List String), s.Sound env.config env.search →
      s.Registered ∧ s.Pooled →
        (s.loadAll env names).2.Registered ∧ (s.loadAll env names).2.Pooled := by
  refine load_preserves env (P := fun s => s.Registered ∧ s.Pooled) ?_ ?_
  · rintro s name hs free ⟨hr, hp⟩
    refine ⟨hr.acquire hs.toTidy free _, ?_⟩
    have hadds := Adds.acquire s mainThread name
    refine hp.of_sameObjects (fun i => by rw [classes_noteLookup]; rfl) ?_ hadds.classClass
    unfold noteLookup
    split <;> rfl
  · rintro s name slot r hs own hbuilds ⟨hr, hp⟩
    refine ⟨hr.complete hs own hbuilds, ?_⟩
    cases r with
    | error e => exact hp.of_sameObjects (fun _ => rfl) rfl rfl
    | ok c =>
      obtain ⟨hname, -, hobject⟩ := hbuilds.fresh rfl
      have hadded : (s.addClass c).Pooled := by
        refine hp.addClass hr.distinct hobject fun i d hd heq => ?_
        have hloaded := hr i d hd
        rw [heq, hname, findLoaded?, own.slot?_eq] at hloaded
        cases hloaded
      exact hadded.of_sameObjects (fun _ => rfl) rfl rfl

theorem load_attached (env : Environment) :
    (∀ (s : Loader) (name : String), s.Sound env.config env.search →
      s.Attached ∧ s.classClass = some classClass →
        (s.load env name).2.Attached ∧ (s.load env name).2.classClass = some classClass) ∧
    ∀ (s : Loader) (names : List String), s.Sound env.config env.search →
      s.Attached ∧ s.classClass = some classClass →
        (s.loadAll env names).2.Attached ∧
          (s.loadAll env names).2.classClass = some classClass := by
  refine load_preserves env (P := fun s => s.Attached ∧ s.classClass = some classClass) ?_ ?_
  · rintro s name hs free ⟨ha, hready⟩
    refine ⟨ha.of_sameObjects fun i => ?_, (Adds.acquire s mainThread name).classClass.trans hready⟩
    rw [classes_noteLookup]
    rfl
  · rintro s name slot r hs own hbuilds ⟨ha, hready⟩
    have hadds : Adds s (s.complete name slot r).2 :=
      .complete fun c hc => (hbuilds.fresh hc).2.1
    refine ⟨?_, hadds.classClass.trans hready⟩
    cases r with
    | error e => exact ha
    | ok c => exact ha.addClass hready c

/-! ### Loaders that are ready -/

/-- Every class of the table has its own object, and there is a class for more of them. -/
structure Supplied (s : Loader) : Prop where
  pooled : s.Pooled
  attached : s.Attached
  distinct : s.Distinct
  ready : ∃ classClass, s.classClass = some classClass

namespace Supplied

theorem attachObject_eq (h : s.Supplied) (classClass id : ClassId) :
    s.attachObject classClass id = s := by
  cases hc : s.classes[id]? with
  | none => simp only [attachObject, hc]
  | some c =>
    obtain ⟨k, hk⟩ := h.attached id c hc
    exact h.pooled.attachObject_of_some h.distinct hc hk classClass

theorem object?_eq_some_iff (h : s.Supplied) :
    s.object? name = some k ↔ ∃ (id : ClassId) (c : LoadedClass),
      s.classes[id]? = some c ∧ c.name = name ∧ c.classObject = some k :=
  h.pooled.object?_eq_some_iff h.distinct

/-- The request for an object is answered without any change. -/
theorem objectOf_eq (h : s.Supplied) (hc : s.classes[id]? = some c) (hk : c.classObject = some k) :
    s.objectOf id = (.ok k, s) := by
  obtain ⟨classClass, hready⟩ := h.ready
  have hobject : s.object? c.name = some k := h.object?_eq_some_iff.2 ⟨id, c, hc, rfl, hk⟩
  simp only [objectOf, hready, ClassTable.name?, hc, Option.map_some, pooledObject, hobject,
    h.attachObject_eq]

end Supplied

/-- The table, the registry and the pool have the same names, and the class of class objects is
loaded. -/
structure Mirrored (s : Loader) : Prop where
  registered : s.Registered
  pooled : s.Pooled
  attached : s.Attached
  ready : ∃ classClass, s.classClass = some classClass ∧
    s.findLoaded? classClassName = some classClass

/-- An object that is attached stays attached, and the class asked for has one. -/
theorem classObject_attachObject {i : ClassId} {d : LoadedClass}
    (hd : (s.attachObject classClass id).classes[i]? = some d) :
    ∃ c, s.classes[i]? = some c ∧ (∀ k, c.classObject = some k → d.classObject = some k) ∧
      (i = id → ∃ k, d.classObject = some k) := by
  unfold Loader.attachObject at hd
  split at hd
  · next hnone =>
    refine ⟨d, hd, fun _ h => h, ?_⟩
    rintro rfl
    rw [hnone] at hd
    cases hd
  · simp only [updateClass, (pooledObject_fields ..).2.2, Array.getElem?_modify] at hd
    split at hd
    · obtain ⟨c, hc, rfl⟩ := Option.map_eq_some_iff.1 hd
      refine ⟨c, hc, fun k hk => by simp [hk], fun _ => ?_⟩
      cases c.classObject with
      | none => exact ⟨_, rfl⟩
      | some k => exact ⟨k, rfl⟩
    · next hne => exact ⟨d, hd, fun _ h => h, fun heq => absurd heq.symm hne⟩

/-- Attaching objects to classes one after the other leaves none of them without. -/
theorem foldl_attachObject (ids : List ClassId) (hr : s.Registered) (hp : s.Pooled)
    (hready : s.classClass = some classClass)
    (hids : ∀ (i : ClassId) (c : LoadedClass), s.classes[i]? = some c →
      (∃ k, c.classObject = some k) ∨ i ∈ ids) :
    (ids.foldl (fun t id => t.attachObject classClass id) s).Registered ∧
      (ids.foldl (fun t id => t.attachObject classClass id) s).Pooled ∧
      (ids.foldl (fun t id => t.attachObject classClass id) s).Attached ∧
      (ids.foldl (fun t id => t.attachObject classClass id) s).classClass = some classClass := by
  induction ids generalizing s with
  | nil =>
    refine ⟨hr, hp, fun i c hc => ?_, hready⟩
    rcases hids i c hc with hk | hmem
    · exact hk
    · cases hmem
  | cons id ids ih =>
    refine ih (hr.attachObject classClass id) (hp.attachObject hr.distinct id hready)
      ((classClass_attachObject ..).trans hready) fun i d hd => ?_
    obtain ⟨c, hc, hkeep, hid⟩ := classObject_attachObject hd
    rcases hids i c hc with ⟨k, hk⟩ | hmem
    · exact .inl ⟨k, hkeep k hk⟩
    · rcases List.mem_cons.1 hmem with heq | hmem
      · exact .inl (hid heq)
      · exact .inr hmem

theorem mem_loadedNames_iff : name ∈ s.loadedNames ↔ ∃ id, s.findLoaded? name = some id := by
  simp only [loadedNames, List.mem_filter, Option.isSome_iff_exists, and_iff_right_iff_imp]
  rintro ⟨id, hid⟩
  obtain ⟨slot, hl, -⟩ := findLoaded?_eq_some_iff.1 hid
  obtain ⟨l, l', heq, -⟩ := List.lookup_eq_some_iff.1 hl
  simp [heq]

theorem mirrored_bootstrap (h : bootstrap env = .ok t) : t.Mirrored := by
  obtain ⟨classClass, s, ids, u, hload, hall, rfl⟩ := bootstrap_eq_ok h
  have hs := sound_empty.load env classClassName
  have hadds := sound_empty.load_adds env classClassName
  have hpooled := (load_pooled env).1 empty classClassName sound_empty
    ⟨registered_empty, pooled_empty⟩
  rw [hload] at hs hadds hpooled
  have hready : Changes env.config env.search s { s with classClass := some classClass } :=
    .of (.grow rfl rfl (.refl _))
  have hsound := hready.sound (hs.changes.sound sound_empty)
  -- before there is a class for them there are no objects
  have hnone : { s with classClass := some classClass }.Pooled := by
    refine ⟨fun k o ho => ?_, hpooled.2.object⟩
    have hclass := (hpooled.2.entity k o ho).1
    rw [hadds.classClass] at hclass
    cases hclass
  have hu := (hsound.loadAll env primitiveNames).changes
  have huadds := (load_adds env { s with classClass := some classClass }).2 _ primitiveNames hsound
    (.refl _)
  obtain ⟨hur, hup⟩ := (load_pooled env).2 _ primitiveNames hsound ⟨hpooled.1, hnone⟩
  rw [hall] at hu huadds hur hup
  obtain ⟨htr, htp, hta, htc⟩ := foldl_attachObject (u.loadedNames.filterMap u.findLoaded?) hur hup
    huadds.classClass fun i c hc => .inr (List.mem_filterMap.2
      ⟨c.name, mem_loadedNames_iff.2 ⟨i, hur i c hc⟩, hur i c hc⟩)
  refine ⟨htr, htp, hta, classClass, htc, ?_⟩
  exact ((hready.trans hu).trans (attachAll_changes u classClass)).findLoaded?
    (hs.changes.sound sound_empty).toTidy (hs.loaded classClass rfl)

namespace Mirrored

theorem load (h : s.Mirrored) (hs : s.Sound env.config env.search) (name : String) :
    (s.load env name).2.Mirrored := by
  obtain ⟨classClass, hready, hclass⟩ := h.ready
  obtain ⟨hr, hp⟩ := (load_pooled env).1 s name hs ⟨h.registered, h.pooled⟩
  obtain ⟨ha, hready'⟩ := (load_attached env).1 s name hs ⟨h.attached, hready⟩
  exact ⟨hr, hp, ha, classClass, hready',
    (hs.load env name).changes.findLoaded? hs.toTidy hclass⟩

theorem updateClass (h : s.Mirrored) (id : ClassId) {f : LoadedClass → LoadedClass}
    (hf : ∀ c, (f c).fixed = c.fixed) (hobject : ∀ c, (f c).classObject = c.classObject) :
    (s.updateClass id f).Mirrored := by
  have hsame := SameObjects.updateClass s id hf hobject
  exact ⟨h.registered.updateClass hf, h.pooled.of_sameObjects hsame rfl rfl,
    h.attached.of_sameObjects hsame, h.ready⟩

theorem supplied (h : s.Mirrored) : s.Supplied := by
  obtain ⟨classClass, hready, -⟩ := h.ready
  exact ⟨h.pooled, h.attached, h.registered.distinct, classClass, hready⟩

theorem attachObject_eq (h : s.Mirrored) (classClass id : ClassId) :
    s.attachObject classClass id = s := h.supplied.attachObject_eq classClass id

theorem objectOf_eq (h : s.Mirrored) (hc : s.classes[id]? = some c) (hk : c.classObject = some k) :
    s.objectOf id = (.ok k, s) := h.supplied.objectOf_eq hc hk

/-- The pool has the names that are loaded, each once. -/
theorem keys_perm_loadedNames (h : s.Mirrored) (hs : s.Sound config search) :
    (s.objects.toList.map (·.key)).Perm s.loadedNames := by
  have hloaded : s.loadedNames.Nodup := hs.names.filter _
  refine (List.perm_ext_iff_of_nodup ?_ hloaded).2 fun name => ?_
  · rw [List.nodup_iff_getElem?_ne_getElem?]
    intro i j hij hj heq
    simp only [List.length_map, Array.length_toList] at hj
    have hi := Nat.lt_trans hij hj
    simp only [List.getElem?_map, Array.getElem?_toList, Array.getElem?_eq_getElem hi,
      Array.getElem?_eq_getElem hj, Option.map_some, Option.some.injEq] at heq
    obtain ⟨-, c, hc, hname, hk⟩ := h.pooled.entity i s.objects[i] (Array.getElem?_eq_getElem hi)
    have hsame : j = i := h.pooled.key_unique h.registered.distinct hc hk
      (Array.getElem?_eq_getElem hj) (heq.symm.trans hname.symm)
    exact Nat.ne_of_lt hij hsame.symm
  · rw [mem_loadedNames_iff, List.mem_map]
    constructor
    · rintro ⟨o, ho, rfl⟩
      obtain ⟨k, hk⟩ := List.mem_iff_getElem?.1 ho
      obtain ⟨-, c, hc, hname, -⟩ := h.pooled.entity k o (by rwa [Array.getElem?_toList] at hk)
      exact ⟨o.entity, hname ▸ h.registered _ c hc⟩
    · rintro ⟨id, hid⟩
      obtain ⟨c, k, classClass, -, -, -, -, ho⟩ := h.pooled.exists_object h.attached hs hid
      exact ⟨_, Array.mem_toList_iff.2 (Array.mem_of_getElem? ho), rfl⟩

end Mirrored

end Loader

end ClassLoading
