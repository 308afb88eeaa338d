import ClassLoading.Proofs.ArrayNames
import ClassLoading.Proofs.Scenes

/-! Dotted names. A class is asked for by its name with dots for slashes, and its object goes by the
same spelling. The two spellings can be turned into each other as long as neither has the separator
of the other in it: names with slashes are refused, and a class whose own name has a dot is not told
by its dotted name. The names of primitive classes have no separators at all and are refused, so no
spelling leads to them. -/
namespace ClassLoading

namespace Text

variable {old new : Char} {text : String}

theorem toList_replace (old new : Char) (text : String) :
    (replace old new text).toList = text.toList.map fun c => if c = old then new else c := by
  simp [replace]

/-- A character that was not there can be replaced back. -/
theorem replace_replace (h : new ∉ text.toList) :
    replace new old (replace old new text) = text := by
  rw [← String.toList_inj, toList_replace, toList_replace, List.map_map]
  refine (List.map_congr_left fun c hc => ?_).trans (List.map_id _)
  have hne : c ≠ new := ne_of_mem_of_not_mem hc h
  by_cases hold : c = old <;> simp [hold, hne]

theorem notMem_replace (h : old ≠ new) : old ∉ (replace old new text).toList := by
  rw [toList_replace, List.mem_map]
  rintro ⟨c, -, hc⟩
  split at hc
  · exact h hc.symm
  · contradiction

/-- Nothing has been replaced in a text that does not have the new character. -/
theorem replace_eq_self (h : new ∉ (replace old new text).toList) :
    replace old new text = text := by
  rw [toList_replace, List.mem_map] at h
  rw [← String.toList_inj, toList_replace]
  refine (List.map_congr_left fun c hc => ?_).trans (List.map_id _)
  exact if_neg fun hold => h ⟨c, hc, if_pos hold⟩

/-- With the separators replaced, only a primitive class name is one. -/
theorem primitiveClass?_of_replace (hnew : new = '.' ∨ new = '/')
    (h : (primitiveClass? (replace old new text)).isSome) : (primitiveClass? text).isSome := by
  obtain ⟨type, htype⟩ := Option.isSome_iff_exists.1 h
  obtain ⟨l, l', heq, -⟩ := List.lookup_eq_some_iff.1 htype
  have hmem : (replace old new text, type) ∈ primitiveClasses := by simp [heq]
  have hplain : ∀ entry ∈ primitiveClasses, '.' ∉ entry.1.toList ∧ '/' ∉ entry.1.toList := by
    decide
  obtain ⟨hdot, hslash⟩ := hplain _ hmem
  -- the new separator is not in the name, so it has not come in for an old one
  have hself : replace old new text = text := by
    obtain rfl | rfl := hnew
    · exact replace_eq_self hdot
    · exact replace_eq_self hslash
  rwa [hself] at h

end Text

namespace Loader

variable {config : LoaderConfig} {search : ClassSearch} {env : Environment} {s t : Loader}
  {name text : String} {id : ClassId} {c : LoadedClass} {k : ObjectId} {run : Bool}

theorem isUndotted_eq_false_iff :
    isUndotted text = false ↔ '/' ∉ text.toList ∧ ¬(primitiveClass? text).isSome := by
  simp [isUndotted]

/-- A class is primitive exactly if its name says so. -/
theorem Sound.isPrimitive_iff (hs : s.Sound config search) (h : s.findLoaded? name = some id)
    (hc : s.classes[id]? = some c) : c.isPrimitive ↔ (primitiveClass? name).isSome := by
  constructor
  · intro hprimitive
    by_contra hnone
    obtain ⟨-, -, hsearched, harray⟩ | ⟨harray, -⟩ | ⟨hkind, -⟩ := hs.kind_cases h hc
    · exact hsearched (by simpa [Blueprint.isSearched, harray] using hnone)
    · cases hkind : c.kind <;> simp_all [LoadedClass.isArray, LoadedClass.isPrimitive]
    · simp [LoadedClass.isPrimitive, hkind] at hprimitive
  · intro hsome
    obtain ⟨type, htype⟩ := Option.isSome_iff_exists.1 hsome
    simp [LoadedClass.isPrimitive, hs.kind_of_primitive h hc htype]

/-- The object of a loaded class is at hand, and asking for it by the name of the class changes
nothing. -/
theorem Supplied.loadObject_eq (h : s.Supplied) (hid : s.findLoaded? name = some id)
    (hc : s.classes[id]? = some c) (hk : c.classObject = some k) :
    s.loadObject env name = (.ok k, s) := by
  rw [loadObject, load_eq_of_findLoaded? hid, withObject, h.objectOf_eq hc hk]

/-- A request for a dotted name that is not refused loads the class of the name, possibly
initializes it and ends with its object. -/
theorem Sound.forName_eq_ok (hs : s.Sound env.config env.search)
    (h : s.forName env text run = (.ok k, t)) :
    isUndotted text = false ∧ ∃ id u v, s.load env (Text.replace '.' '/' text) = (.ok id, u) ∧
      Effects env u v ∧ v.objectOf id = (.ok k, t) := by
  unfold forName at h
  split at h
  · cases h
  · next hdotted =>
    refine ⟨Bool.eq_false_iff.2 hdotted, ?_⟩
    have hload := hs.load env (Text.replace '.' '/' text)
    simp only at h
    rw [loadInit_eq] at h
    generalize s.load env (Text.replace '.' '/' text) = x at h hload
    obtain ⟨_ | id, u⟩ := x
    · cases run <;> cases h
    · refine ⟨id, u, ?_⟩
      cases run with
      | false => exact ⟨u, rfl, .refl u, h⟩
      | true =>
        have hinit := ((moves_init env).1 u id (hload.changes.sound hs) []).effects
        simp only [if_true] at h hinit
        generalize u.initClass env id = y at h hinit
        obtain ⟨_ | _, v⟩ := y
        · cases h
        · exact ⟨v, rfl, hinit, h⟩

end Loader

namespace Machine

variable {env : Environment} {m : Machine} {text : String} {run : Bool} {id : ClassId}
  {c : LoadedClass} {k : ObjectId} {t : Loader}

/-- A class that is told by its dotted name is found without any change. -/
theorem Stocked.forName_binaryName (h : m.Stocked) (hs : m.Sound env.config env.search)
    (hid : m.loader.IsLoaded id) (hc : m.loader.classes[id]? = some c) (hprimitive : ¬c.isPrimitive)
    (hdot : '.' ∉ c.name.toList) (hk : c.classObject = some k) :
    m.loader.forName env c.binaryName false = (.ok k, m.loader) := by
  obtain ⟨c', hc', hname⟩ := hs.loader.exists_named hid
  rw [hc] at hc'
  cases hc'
  have hdotted : Loader.isUndotted c.binaryName = false := by
    refine Loader.isUndotted_eq_false_iff.2 ⟨Text.notMem_replace (by decide), fun hsome => ?_⟩
    exact hprimitive ((hs.loader.isPrimitive_iff hname hc).2
      (Text.primitiveClass?_of_replace (.inl rfl) hsome))
  have hinternal : Text.replace '.' '/' c.binaryName = c.name := Text.replace_replace hdot
  have hobject : m.loader.loadObject env c.name = (.ok k, m.loader) :=
    (h.supplied hs).loadObject_eq hname hc hk
  simp only [Loader.forName, hdotted, hinternal, Bool.false_eq_true, if_false]
  exact hobject

/-- The object that a request for a dotted name ends with is that of the class which the name with
slashes is loaded as. -/
theorem Stocked.exists_of_forName (h : m.Stocked) (hs : m.Sound env.config env.search)
    (hname : m.loader.forName env text run = (.ok k, t)) :
    ∃ id c, t.findLoaded? (Text.replace '.' '/' text) = some id ∧ t.classes[id]? = some c ∧
      c.name = Text.replace '.' '/' text ∧ c.classObject = some k ∧ t.Supplied ∧
      t.Sound env.config env.search ∧
      (m.loader.loadObject env (Text.replace '.' '/' text)).1 = .ok k := by
  obtain ⟨-, id, u, v, hload, hlater, hobject⟩ := hs.loader.forName_eq_ok hname
  have hfirst : Effects env m.loader (m.loader.load env _).2 :=
    .of (.load (Text.replace '.' '/' text))
  have hid := (hs.loader.load env _).loaded id (by rw [hload])
  rw [hload] at hfirst hid
  obtain ⟨hu, hstocked⟩ := h.effects hs hfirst
  obtain ⟨hv, hstocked'⟩ := hstocked.effects hu hlater
  obtain ⟨c, j, -, hc, hcname, hj, -⟩ :=
    hstocked.pooled.exists_object hstocked.attached hu.loader hid
  -- the class has its object from its load on and keeps it through its initialization
  obtain ⟨d, hd, hdname, hdobject⟩ := hstocked.keeps_object hu hlater hc
  have hk : d.classObject = some j := hdobject.trans hj
  have hsupplied := hstocked'.supplied hv
  rw [hsupplied.objectOf_eq hd hk] at hobject
  cases hobject
  refine ⟨id, d, (hlater.changes hu.loader).findLoaded? hu.loader.toTidy hid, hd,
    hdname.trans hcname, hk, hsupplied, hv.loader, ?_⟩
  rw [Loader.loadObject, hload, Loader.withObject, (hstocked.supplied hu).objectOf_eq hc hj]

end Machine

namespace Scene

variable {env : Environment} {q : Scene}

/-- At every moment, a class that is not primitive and has no dot in its name is told by its dotted
name, and asking for it changes nothing. The object that a request for a text ends with has this
text as its name, stands for a class that is not primitive and is the object of the class whose name
has slashes for the dots. -/
theorem Reachable.forName_inverse (hq : Reachable env.config env.search q) :
    (∀ id c, q.loader.IsLoaded id → q.loader.classes[id]? = some c → ¬c.isPrimitive →
      '.' ∉ c.name.toList → ∃ k o, q.loader.forName env c.binaryName false = (.ok k, q.loader) ∧
        q.loader.object? c.name = some k ∧ q.loader.objects[k]? = some o ∧ o.entity = id) ∧
    ∀ text run k t, q.loader.forName env text run = (.ok k, t) →
      ∃ o c, t.objects[k]? = some o ∧ o.name = text ∧ t.classes[o.entity]? = some c ∧
        ¬c.isPrimitive ∧ (q.loader.loadObject env (Text.replace '.' '/' text)).1 = .ok k ∧
        t.loadObject env (Text.replace '.' '/' text) = (.ok k, t) := by
  constructor
  · intro id c hid hc hprimitive hdot
    obtain ⟨k, hk⟩ := hq.supplied.attached id c hc
    obtain ⟨o, ho, -, hentity, -⟩ := hq.supplied.pooled.object_eq hc hk
    exact ⟨k, o, hq.stocked.forName_binaryName hq.sound hid hc hprimitive hdot hk,
      hq.supplied.object?_eq_some_iff.2 ⟨id, c, hc, rfl, hk⟩, ho, hentity⟩
  · intro text run k t h
    obtain ⟨hdotted, -⟩ := hq.sound.loader.forName_eq_ok h
    obtain ⟨hslash, hnone⟩ := Loader.isUndotted_eq_false_iff.1 hdotted
    obtain ⟨id, c, hid, hc, hname, hk, hsupplied, hsound, hobject⟩ :=
      hq.stocked.exists_of_forName hq.sound h
    obtain ⟨o, ho, hkey, rfl, -⟩ := hsupplied.pooled.object_eq hc hk
    refine ⟨o, c, ho, ?_, hc, fun hprimitive => hnone ?_, hobject,
      hsupplied.loadObject_eq hid hc hk⟩
    · rw [ClassObject.name, hkey, hname]
      exact Text.replace_replace hslash
    · have hsome := (hsound.isPrimitive_iff hid hc).1 hprimitive
      exact Text.primitiveClass?_of_replace (.inr rfl) hsome

/-- The class of class objects is told by its dotted name. -/
theorem Reachable.classClass_told : ∃ (env : Environment) (q : Scene) (k : ObjectId)
    (o : ClassObject), Reachable env.config env.search q ∧
      q.loader.forName env "java.lang.Class" false = (.ok k, q.loader) ∧
      q.loader.object? classClassName = some k ∧ q.loader.objects[k]? = some o ∧
      o.name = "java.lang.Class" ∧
      q.loader.loadObject env classClassName = (.ok k, q.loader) := by
  let env : Environment := ⟨.standard, SmallPath.search, .script fun _ => [.load "int"]⟩
  obtain ⟨s, hs⟩ := (Loader.bootstrap_isOk_iff env).2 SmallPath.loadable_class
  have hq : Reachable env.config env.search (.ready s) := ⟨env.initializer, s, hs, .refl⟩
  obtain ⟨id, hid⟩ := Loader.findLoaded?_bootstrap hs
  obtain ⟨c, hc, hname, -⟩ := hq.sound.loader.exists_linked hid
  have hprimitive : ¬c.isPrimitive := by
    rw [hq.sound.loader.isPrimitive_iff hid hc]
    decide
  have hbinary : c.binaryName = "java.lang.Class" := by
    rw [LoadedClass.binaryName, hname, ← String.toList_inj, Text.toList_replace]
    decide
  have hdot : '.' ∉ c.name.toList := by
    rw [hname]
    decide
  have hinternal : Text.replace '.' '/' "java.lang.Class" = classClassName := by
    rw [← hbinary, ← hname]
    exact Text.replace_replace hdot
  obtain ⟨htold, hasked⟩ := forName_inverse hq
  obtain ⟨k, -, hforName, hobject, -⟩ := htold id c ⟨_, hid⟩ hc hprimitive hdot
  rw [hbinary] at hforName
  rw [hname] at hobject
  obtain ⟨o, -, ho, honame, -, -, -, hload⟩ := hasked _ _ k _ hforName
  rw [hinternal] at hload
  exact ⟨env, .ready s, k, o, hq, hforName, hobject, ho, honame, hload⟩

end Scene

end ClassLoading
