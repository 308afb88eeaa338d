import ClassLoading.Proofs.FailedLoads
import ClassLoading.Proofs.Hierarchy
import ClassLoading.Proofs.RuntimePool
import ClassLoading.Proofs.SharedObjects

/-! Class constants as a cache in front of the registry. A class constant is resolved when the class
is built, if it names a supertype, or else by a request. Either way it then leads to the class that
the registry has for its name, and as the registry never takes a class back, it goes on to do so. A
request for the class behind a constant therefore is a load of the name that the constant has. -/
namespace ClassLoading

theorem modify_eq_self {α : Type} {xs : Array α} {i : Nat} {f : α → α}
    (h : ∀ x, xs[i]? = some x → f x = x) : xs.modify i f = xs := by
  apply Array.ext_getElem?
  intro j
  rw [Array.getElem?_modify]
  split
  · next heq =>
    subst heq
    cases hx : xs[i]? with
    | none => rfl
    | some x => exact congrArg some (h x hx)
  · rfl

/-- The pool has at an index a class constant whose name may lead to the class. -/
def ConstantPool.Names (pool : ConstantPool) (leads : String → ClassId → Prop) (index : UInt16)
    (id : ClassId) : Prop :=
  ∃ name, pool.className index = .ok name ∧ leads name id

/-! ### The constants of one class -/

namespace LoadedClass

variable {leads : String → ClassId → Prop} {c d : LoadedClass} {index : UInt16} {target : ClassId}
  {pool : ConstantPool}

/-- Every class constant that is resolved leads where its name may lead. -/
def RefersTo (leads : String → ClassId → Prop) (c : LoadedClass) : Prop :=
  ∀ name target, LoadedConstant.classRef name (some target) ∈ c.constants → leads name target

theorem RefersTo.mono {leads' : String → ClassId → Prop} (h : c.RefersTo leads)
    (hl : ∀ name id, leads name id → leads' name id) : c.RefersTo leads' :=
  fun name target hm => hl name target (h name target hm)

theorem RefersTo.of_constants (h : c.RefersTo leads) (heq : d.constants = c.constants) :
    d.RefersTo leads := fun name target hm => h name target (heq ▸ hm)

/-- What a link does to the constant at its index and to all others. -/
theorem getElem?_link (h0 : index ≠ 0) (i : Nat) :
    (c.link index target).constants[i]? =
      if index.toNat - 1 = i then c.constants[i]?.map (·.resolveTo target)
      else c.constants[i]? := by
  rw [link, if_neg h0]
  exact Array.getElem?_modify

theorem RefersTo.link (h : c.RefersTo leads)
    (hname : ∀ name, c.constant index = .ok (.classRef name none) → leads name target) :
    (c.link index target).RefersTo leads := by
  by_cases h0 : index = 0
  · rwa [LoadedClass.link, if_pos h0]
  · intro name target' hm
    obtain ⟨i, hi⟩ := Array.mem_iff_getElem?.1 hm
    rw [getElem?_link h0] at hi
    split at hi
    · next heq =>
      obtain ⟨k, hk, hnew⟩ := Option.map_eq_some_iff.1 hi
      subst heq
      unfold LoadedConstant.resolveTo at hnew
      split at hnew
      · cases hnew
        exact hname name (constant_eq_ok_iff.2 ⟨UInt16.toNat_pos h0, hk, nofun⟩)
      · rw [hnew] at hk
        exact h name target' (Array.mem_of_getElem? hk)
    · exact h name target' (Array.mem_of_getElem? hi)

theorem name_link (c : LoadedClass) (index : UInt16) (target : ClassId) :
    (c.link index target).name = c.name := congrArg (·.name) (c.fixed_link index target)

theorem ne_zero_of_constant {k : LoadedConstant} (h : c.constant index = .ok k) : index ≠ 0 := by
  rintro rfl
  exact absurd (constant_eq_ok_iff.1 h).1 (by decide)

theorem constant_link {name : String} (h : c.constant index = .ok (.classRef name none)) :
    (c.link index target).constant index = .ok (.classRef name (some target)) := by
  obtain ⟨hpos, hk, -⟩ := constant_eq_ok_iff.1 h
  refine constant_eq_ok_iff.2 ⟨hpos, ?_, nofun⟩
  rw [getElem?_link (ne_zero_of_constant h), if_pos rfl, hk]
  rfl

theorem link_of_resolved {name : String} {old : ClassId}
    (h : c.constant index = .ok (.classRef name (some old))) : c.link index target = c := by
  obtain ⟨-, hk, -⟩ := constant_eq_ok_iff.1 h
  rw [link, if_neg (ne_zero_of_constant h), modify_eq_self]
  intro k hk'
  rw [hk] at hk'
  cases hk'
  rfl

/-! ### Building -/

/-- The name that a class constant shows is that of the class constant of the pool. -/
theorem Mirrors.className_eq (h : c.Mirrors pool) {name shown : String} {old : Option ClassId}
    (hname : pool.className index = .ok name)
    (hshown : c.constant index = .ok (.classRef shown old)) : shown = name := by
  have hagree := h.agree index
  rw [hshown] at hagree
  rw [ConstantPool.className] at hname
  cases hget : pool.get index with
  | error e =>
    rw [hget] at hagree
    cases hagree
  | ok raw =>
    rw [hget] at hagree hname
    cases hagree with
    | ok hmirror =>
      cases hmirror with
      | classRef _ hutf8 =>
        have : Except.ok shown = Except.ok name := hutf8.symm.trans hname
        exact Except.ok.inj this

theorem Mirrors.link (h : c.Mirrors pool) : (c.link index target).Mirrors pool :=
  h.of_fixed (c.fixed_link index target)

/-- Links to the classes that the pool names keep what the constants lead to in order. -/
theorem RefersTo.links (links : List (UInt16 × ClassId)) (h : c.RefersTo leads)
    (hc : c.Mirrors pool)
    (hlinks : ∀ entry ∈ links, pool.Names leads entry.1 entry.2) :
    (links.foldl (fun c entry => c.link entry.1 entry.2) c).RefersTo leads := by
  induction links generalizing c with
  | nil => exact h
  | cons entry links ih =>
    obtain ⟨name, hname, hloaded⟩ := hlinks entry List.mem_cons_self
    refine ih (h.link fun shown hshown => ?_) hc.link fun entry hm =>
      hlinks entry (List.mem_cons_of_mem _ hm)
    rwa [hc.className_eq hname hshown]

end LoadedClass

/-- No constant of a pool is resolved yet. -/
theorem LoadedConstant.ofConstant_ne_resolved {pool : ConstantPool} {raw : Constant} {name : String}
    {target : ClassId} : ofConstant pool raw ≠ .ok (.classRef name (some target)) := by
  intro h
  have hkind := kind_ofConstant h
  cases raw <;> cases hkind
  obtain ⟨_, -, h⟩ := bind_eq_ok_iff.1 h
  cases h

theorem ClassFile.className_superClass {file : ClassFile} {name : String}
    (h : file.superName = .ok (some name)) : file.pool.className file.superClass = .ok name := by
  rw [superName] at h
  split at h
  · cases h
  · cases hname : file.pool.className file.superClass with
    | error e =>
      rw [hname] at h
      cases h
    | ok shown =>
      rw [hname] at h
      cases h
      rfl

namespace Blueprint

variable {config : LoaderConfig} {search : ClassSearch} {classes : ClassTable} {name : String}
  {file : ClassFile} {superName : Option String} {interfaceNames : List String}
  {superClass : Option ClassId} {interfaces : List ClassId} {c : LoadedClass} {plan : Blueprint}
  {ids : List ClassId} {leads : String → ClassId → Prop}

theorem refersTo_declaredClass
    (hs : ∀ parent, superClass = some parent → file.pool.Names leads file.superClass parent)
    (hi : List.Forall₂ (file.pool.Names leads) file.interfaces interfaces)
    (h : declaredClass classes name file superClass interfaces = .ok c) : c.RefersTo leads := by
  obtain ⟨constants, hconstants, h⟩ := bind_eq_ok_iff.1 h
  obtain ⟨declarations, -, h⟩ := bind_eq_ok_iff.1 h
  obtain ⟨methods, -, h⟩ := bind_eq_ok_iff.1 h
  have hpool := mapError_eq_ok_iff.1 hconstants
  have hplain : ∀ d : LoadedClass, d.constants = constants.toArray →
      d.RefersTo leads ∧ d.Mirrors file.pool := by
    intro d hd
    refine ⟨fun other target hm => ?_, LoadedClass.mirrors_of_hasPool ⟨constants, hpool, by rw [hd]⟩⟩
    rw [hd, List.mem_toArray] at hm
    obtain ⟨raw, -, hraw⟩ := exists_of_mem_forall₂ (forall₂_of_mapM hpool) hm
    exact absurd hraw LoadedConstant.ofConstant_ne_resolved
  have hi : ∀ entry ∈ file.interfaces.zip interfaces, file.pool.Names leads entry.1 entry.2 :=
    fun entry => (List.forall₂_iff_zip.1 hi).2
  cases h
  cases superClass with
  | none => exact LoadedClass.RefersTo.links _ (hplain _ rfl).1 (hplain _ rfl).2 hi
  | some parent =>
    obtain ⟨other, hother, hloaded⟩ := hs parent rfl
    refine LoadedClass.RefersTo.links _ ((hplain _ rfl).1.link fun shown hshown => ?_)
      (hplain _ rfl).2.link hi
    rwa [(hplain _ rfl).2.className_eq hother hshown]

theorem refersTo_buildOrdinary
    (hs : ∀ parent, superClass = some parent → file.pool.Names leads file.superClass parent)
    (hi : List.Forall₂ (file.pool.Names leads) file.interfaces interfaces)
    (h : buildOrdinary config classes name file superClass interfaces = .ok c) :
    c.RefersTo leads := by
  obtain ⟨declared, prepared, hdeclared, -, hprepared, hresolved⟩ := buildOrdinary_eq_ok h
  have hrefers := refersTo_declaredClass hs hi hdeclared
  obtain ⟨statics, -, rfl⟩ := LoadedClass.prepare_eq_ok hprepared
  obtain ⟨constants, hmap, rfl⟩ := LoadedClass.resolve_eq_ok hresolved
  intro other target hm
  -- resolution leaves class constants as they are
  have hm : LoadedConstant.classRef other (some target) ∈ constants := by
    simpa [LoadedClass.advance] using hm
  obtain ⟨old, hold, hnew⟩ := exists_of_mem_forall₂ (forall₂_of_mapM hmap) hm
  unfold LoadedClass.resolveConstant at hnew
  split at hnew
  · split at hnew
    · obtain ⟨type, -, hnew⟩ := bind_eq_ok_iff.1 hnew
      cases hnew
    · cases hnew
  · cases hnew
    exact hrefers other target (by simpa [LoadedClass.advance] using hold)

/-- A class is built with class constants that lead to the classes it is built from. -/
theorem refersTo_build (hplan : ofName search name = .ok plan)
    (hids : List.Forall₂ leads plan.dependencies ids)
    (h : plan.build config classes name ids = .ok c) : c.RefersTo leads := by
  obtain ⟨type, -, rfl⟩ | ⟨component, -, -, rfl⟩ | ⟨bytes, -, -, hbytes⟩ := ofName_cases hplan
  · cases h
    exact nofun
  · rcases ids with _ | ⟨a, _ | ⟨b, ids⟩⟩ <;> cases h
    exact nofun
  · obtain ⟨file, superName, interfaceNames, -, -, hsuper, hinterfaces, rfl⟩ :=
      ofBytes_eq_ok_iff.1 hbytes
    have hnames : ∀ interfaces,
        List.Forall₂ leads interfaceNames interfaces →
          List.Forall₂ (file.pool.Names leads) file.interfaces interfaces := fun _ hall =>
      forall₂_of_common (forall₂_of_mapM hinterfaces).flip hall fun other _ _ hother hid =>
        ⟨other, hother, hid⟩
    cases superName with
    | none =>
      refine refersTo_buildOrdinary ?_ (hnames ids hids) h
      rintro _ ⟨⟩
    | some parentName =>
      simp only [dependencies, Option.toList_some, List.singleton_append] at hids
      cases hids with
      | cons hp hrest =>
        refine refersTo_buildOrdinary ?_ (hnames _ hrest) h
        rintro _ ⟨⟩
        exact ⟨parentName, ClassFile.className_superClass hsuper, hp⟩

end Blueprint

namespace Loader

variable {env : Environment} {s t : Loader} {name : String} {slot : SlotId}
  {r : Except LoadError LoadedClass}

/-! ### The constants of all classes -/

/-- Where a class constant may lead to: the class that the registry has for its name or, before that
is published, the class that has the constant. -/
def Leads (s : Loader) (id : ClassId) (c : LoadedClass) (name : String) (target : ClassId) : Prop :=
  s.findLoaded? name = some target ∨ name = c.name ∧ target = id

/-- The resolved class constants of all classes are in order. -/
def Faithful (s : Loader) : Prop :=
  ∀ (id : ClassId) (c : LoadedClass), s.classes[id]? = some c → c.RefersTo (s.Leads id c)

theorem faithful_empty : Faithful empty := by
  intro id c hc
  cases hc

namespace Faithful

/-- A change keeps the constants in order if it keeps what is loaded and leaves the constants of
every class alone that is not in order by itself. -/
theorem of_loaded (h : s.Faithful)
    (hl : ∀ name id, s.findLoaded? name = some id → t.findLoaded? name = some id)
    (hc : ∀ (id : ClassId) (d : LoadedClass), t.classes[id]? = some d →
      (∃ c, s.classes[id]? = some c ∧ d.constants = c.constants ∧ d.name = c.name) ∨
        d.RefersTo (s.Leads id d)) :
    t.Faithful := by
  intro id d hd
  have hleads : d.RefersTo (s.Leads id d) := by
    rcases hc id d hd with ⟨c, hc, heq, hname⟩ | hd
    · refine ((h id c hc).mono fun n i hi => ?_).of_constants heq
      rwa [Leads, hname]
    · exact hd
  exact hleads.mono fun n i hi => hi.imp_left (hl n i)

theorem of_classes (h : s.Faithful) (heq : t.classes = s.classes)
    (hl : ∀ name id, s.findLoaded? name = some id → t.findLoaded? name = some id) : t.Faithful :=
  h.of_loaded hl fun _ d hd => .inl ⟨d, heq ▸ hd, rfl, rfl⟩

theorem updateClass (h : s.Faithful) {id : ClassId} {f : LoadedClass → LoadedClass}
    (hname : ∀ c, (f c).name = c.name) (hf : ∀ c, s.classes[id]? = some c →
      (f c).constants = c.constants ∨ (f c).RefersTo (s.Leads id c)) :
    (s.updateClass id f).Faithful := by
  refine h.of_loaded (fun _ _ hid => hid) fun i d hd => ?_
  rw [getElem?_updateClass] at hd
  split at hd
  · next heq =>
    subst heq
    obtain ⟨c, hc, rfl⟩ := Option.map_eq_some_iff.1 hd
    rcases hf c hc with heq | hrefers
    · exact .inl ⟨c, hc, heq, hname c⟩
    · refine .inr (hrefers.mono fun n i hi => ?_)
      rwa [Leads, hname]
  · exact .inl ⟨d, hd, rfl, rfl⟩

theorem attachObject (h : s.Faithful) (classClass id : ClassId) :
    (s.attachObject classClass id).Faithful := by
  unfold Loader.attachObject
  split
  · exact h
  · next c hc =>
    have hpooled : (s.pooledObject classClass id c.name).2.Faithful := by
      obtain ⟨hregistry, hslots, hclasses⟩ := pooledObject_fields s classClass id c.name
      refine h.of_classes hclasses fun n i hi => ?_
      rwa [findLoaded?_congr (slot?_congr hregistry hslots n)]
    exact hpooled.updateClass (fun _ => rfl) fun _ _ => .inl rfl

theorem addClass (h : s.Faithful) {c : LoadedClass}
    (hc : c.RefersTo fun n i => s.findLoaded? n = some i) : (s.addClass c).Faithful := by
  refine h.of_loaded (fun n i hi => ?_) fun id d hd => ?_
  · rwa [findLoaded?_congr (slot?_addClass ..)]
  · rw [addClass_eq, Array.getElem?_push] at hd
    split at hd
    · cases hd
      refine .inr (fun n i hm => .inl (hc n i ?_))
      unfold addedClass at hm
      split at hm <;> exact hm
    · exact .inl ⟨d, hd, rfl, rfl⟩

theorem complete (h : s.Faithful) (hs : s.Sound env.config env.search)
    (own : s.LoadingAt name slot) (hr : s.Builds env name r) :
    (s.complete name slot r).2.Faithful := by
  have hkeeps := hr.changes hs own
  cases r with
  | error e => exact h.of_classes rfl fun _ _ hid => hkeeps.findLoaded? hs.toTidy hid
  | ok c =>
    obtain ⟨plan, ids, hplan, hids, hbuild⟩ := hr c rfl
    have hadded := h.addClass (Blueprint.refersTo_build hplan hids hbuild)
    refine hadded.of_classes rfl fun n i hi => ?_
    rw [findLoaded?_congr (slot?_addClass ..)] at hi
    exact hkeeps.findLoaded? hs.toTidy hi

end Faithful

theorem load_faithful (env : Environment) :
    (∀ (s : Loader) (name : String), s.Sound env.config env.search → s.Faithful →
      (s.load env name).2.Faithful) ∧
    ∀ (s : Loader) (names : List String), s.Sound env.config env.search → s.Faithful →
      (s.loadAll env names).2.Faithful := by
  refine load_preserves env (fun s name hs free h => ?_) fun s name slot r hs own hr h =>
    Faithful.complete h hs own hr
  refine Faithful.of_classes h (classes_noteLookup ..) fun n i hi => ?_
  rwa [findLoaded?_begin hs.toTidy free]

/-- The resolved constants of a class that is loaded lead to what the registry has for them. -/
theorem Faithful.findLoaded? (h : s.Faithful) (hs : s.Sound env.config env.search) {id : ClassId}
    (hid : s.findLoaded? name = some id) {c : LoadedClass} (hc : s.classes[id]? = some c)
    {other : String} {target : ClassId}
    (hk : LoadedConstant.classRef other (some target) ∈ c.constants) :
    s.findLoaded? other = some target := by
  rcases h id c hc other target hk with hother | ⟨rfl, rfl⟩
  · exact hother
  · obtain ⟨c', hc', rfl, -⟩ := hs.exists_linked hid
    rw [hc] at hc'
    cases hc'
    exact hid

/-! ### Requests for the class behind a constant -/

theorem updateClass_eq_self {id : ClassId} {f : LoadedClass → LoadedClass}
    (h : ∀ c, s.classes[id]? = some c → f c = c) : s.updateClass id f = s := by
  rw [updateClass, modify_eq_self h]

/-- The outcome of a load, remembered in the class constant that it was asked for. -/
def remember (id : ClassId) (index : UInt16) :
    Except LoadError ClassId × Loader → Except LoadError ClassId × Loader
  | (.error e, t) => (.error e, t)
  | (.ok target, t) => (.ok target, t.updateClass id (·.link index target))

/-- A request for the class behind a class constant is a load of the name that the constant has. -/
theorem Faithful.resolveClass_eq (h : s.Faithful) (hs : s.Sound env.config env.search)
    {id : Fin s.classes.size} (hid : s.findLoaded? name = some id.val) {c : LoadedClass}
    (hc : s.classes[id.val]? = some c) {index : UInt16} {other : String} {target : Option ClassId}
    (hk : c.constant index = .ok (.classRef other target)) :
    s.resolveClass env id index = remember id index (s.load env other) := by
  obtain rfl : s.classes[id] = c := by simpa using hc
  simp only [resolveClass, hk]
  cases target with
  | some target =>
    have hmem := Array.mem_of_getElem? (LoadedClass.constant_eq_ok_iff.1 hk).2.1
    have hsame : s.updateClass id (·.link index target) = s := updateClass_eq_self fun c hc' => by
      rw [hc] at hc'
      cases hc'
      exact LoadedClass.link_of_resolved hk
    rw [load_eq_of_findLoaded? (h.findLoaded? hs hid hc hmem), remember, hsame]
  | none =>
    by_cases hself : other = s.classes[id].name
    · obtain ⟨c, hc', hname, -⟩ := hs.exists_linked hid
      rw [hc] at hc'
      cases hc'
      rw [← hname, ← hself] at hid
      simp only [if_pos hself, load_eq_of_findLoaded? hid, remember]
    · simp only [if_neg hself]
      cases s.load env other with
      | mk r t => cases r <;> rfl

theorem resolveClass_of_error {id : Fin s.classes.size} {c : LoadedClass}
    (hc : s.classes[id.val]? = some c) {index : UInt16} {cause : PoolError}
    (hk : c.constant index = .error cause) :
    s.resolveClass env id index = (.error (.badConstant c.name cause), s) := by
  obtain rfl : s.classes[id] = c := by simpa using hc
  simp only [resolveClass, hk]

theorem resolveClass_of_mismatch {id : Fin s.classes.size} {c : LoadedClass}
    (hc : s.classes[id.val]? = some c) {index : UInt16} {k : LoadedConstant}
    (hk : c.constant index = .ok k) (hkind : k.kind ≠ .classRef) :
    s.resolveClass env id index =
      (.error (.badConstant c.name (.mismatch index .classRef k.kind)), s) := by
  obtain rfl : s.classes[id] = c := by simpa using hc
  cases k with
  | classRef name target => exact absurd rfl hkind
  | _ => simp only [resolveClass, hk]

/-- What a request for the class behind a constant leaves of the class and of the constant. -/
theorem Sound.constant_remember (hs : s.Sound env.config env.search) {id : ClassId}
    {c : LoadedClass} (hc : s.classes[id]? = some c) {index : UInt16} {other : String}
    {target : Option ClassId} (hk : c.constant index = .ok (.classRef other target)) :
    ∃ d, (remember id index (s.load env other)).2.classes[id]? = some d ∧
      d.constant index = .ok (.classRef other (target.or (s.load env other).1.toOption)) := by
  have hkept := (hs.load_adds env other).classes hc
  cases hl : s.load env other with
  | mk r t =>
  rw [hl] at hkept
  cases r with
  | error e => exact ⟨c, hkept, by simpa [Except.toOption] using hk⟩
  | ok i =>
    refine ⟨c.link index i, ?_, ?_⟩
    · rw [remember, getElem?_updateClass, if_pos rfl, hkept]
      rfl
    · cases target with
      | none => exact LoadedClass.constant_link hk
      | some target => rwa [LoadedClass.link_of_resolved hk]

theorem Faithful.link (h : s.Faithful) {id : ClassId} {index : UInt16} {target : ClassId}
    (hk : ∀ c, s.classes[id]? = some c → ∀ other,
      c.constant index = .ok (.classRef other none) → s.Leads id c other target) :
    (s.updateClass id (·.link index target)).Faithful :=
  h.updateClass (fun c => c.name_link index target) fun c hc =>
    .inr ((h id c hc).link (hk c hc))

theorem Faithful.resolveClass (h : s.Faithful) (hs : s.Sound env.config env.search)
    (id : Fin s.classes.size) (index : UInt16) : (s.resolveClass env id index).2.Faithful := by
  have hc : s.classes[id.val]? = some s.classes[id] := by simp
  simp only [Loader.resolveClass]
  split
  · exact h
  · exact h
  · next other hk =>
    split
    · next hself =>
      refine h.link fun c hc' other' hk' => ?_
      rw [hc] at hc'
      cases hc'
      rw [hk] at hk'
      cases hk'
      exact .inr ⟨hself, rfl⟩
    · have hload := (load_faithful env).1 s other hs h
      have hloaded := hs.load env other
      have hkept := (hs.load_adds env other).classes hc
      split
      · next heq => rwa [heq] at hload
      · next target t heq =>
        rw [heq] at hload hloaded hkept
        refine hload.link fun c hc' other' hk' => ?_
        rw [hkept] at hc'
        cases hc'
        rw [hk] at hk'
        cases hk'
        exact .inl (hloaded.loaded target rfl)
  · exact h

theorem faithful_bootstrap (h : bootstrap env = .ok s) : s.Faithful :=
  bootstrap_preserves faithful_empty (load_faithful env)
    (fun _ _ hf => hf.of_classes rfl fun _ _ hid => hid)
    (fun _ classClass id hf => hf.attachObject classClass id) h

end Loader

/-! ### Every state -/

theorem LoadedClass.constants_endInit (c : LoadedClass) (r : Except LoadError Unit) :
    (c.endInit r).constants = c.constants ∧ (c.endInit r).name = c.name := by
  cases r <;> exact ⟨rfl, rfl⟩

theorem LoadedClass.constants_setStatic? (c : LoadedClass) (slot : Nat) (value : Value) :
    ((c.setStatic? slot value).getD c).constants = c.constants ∧
      ((c.setStatic? slot value).getD c).name = c.name := by
  unfold LoadedClass.setStatic?
  split <;> exact ⟨rfl, rfl⟩

theorem Move.faithful {env : Environment} {p q : Moment} (h : Move env p q)
    (hs : p.loader.Sound env.config env.search) (hp : p.loader.Faithful) :
    q.loader.Faithful := by
  have hend : ∀ {s : Loader} (id : ClassId) (r : Except LoadError Unit), s.Faithful →
      (s.endInit id r).Faithful := fun id r hf =>
    hf.updateClass (fun c => (c.constants_endInit r).2) fun c _ => .inl (c.constants_endInit r).1
  cases h with
  | load s frames name => exact (Loader.load_faithful env).1 s name hs hp
  | object s frames id =>
    simp only [Loader.objectOf]
    split
    · exact hp.attachObject _ id
    · exact hp
  | store s frames id slot value =>
    rcases Loader.setStatic_eq s id slot value with heq | heq
    · rw [heq]
      exact hp
    · rw [heq]
      exact hp.updateClass (fun c => (c.constants_setStatic? slot value).2) fun c _ =>
        .inl (c.constants_setStatic? slot value).1
  | resolve s frames id index => exact hp.resolveClass hs id index
  | init s frames id => exact hp
  | absent frames hc => exact hp
  | answer frames hc ha => exact hp
  | start frames hc ha => exact hp.updateClass (fun _ => rfl) fun _ _ => .inl rfl
  | giveUp s id frames e => exact hend id _ hp
  | skip frames hc hi => exact hend _ _ hp
  | enter frames hc hi => exact hp.of_classes rfl fun _ _ hid => hid
  | leave frames hc r => exact hend _ _ hp
  | resume s r hframes => exact hp

theorem Moves.faithful {env : Environment} {p q : Moment} (h : Moves env p q)
    (hs : p.loader.Sound env.config env.search) (hp : p.loader.Faithful) :
    q.loader.Faithful := by
  induction h with
  | refl => exact hp
  | tail hmoves hlast ih => exact hlast.faithful ((Moves.effects hmoves).changes hs |>.sound hs) ih

theorem Session.faithful {env : Environment} {p : Moment} (h : Session env p) :
    p.loader.Faithful := by
  obtain ⟨s, hs, hp⟩ := h
  exact hp.faithful (Loader.settled_bootstrap hs).sound (Loader.faithful_bootstrap hs)

namespace Machine

variable {config : LoaderConfig} {search : ClassSearch} {m m' : Machine}

theorem Sound.faithful_move {initializer : StaticInitializer} (hs : m.Sound config search)
    (h : Move ⟨config, search, initializer⟩ m m')
    (hf : m.loader.Faithful) : m'.loader.Faithful := by
  cases h with
  | spawn name => exact hf
  | call name hid => exact hf
  | step id hstep =>
    obtain ⟨thread, t, next, hid, hthread, rfl⟩ := step_cases hstep
    have hv := hs.valid thread (Array.mem_toList_iff.2 (Array.mem_of_getElem? hid))
    have hkeeps : ∀ n i, m.loader.findLoaded? n = some i → t.findLoaded? n = some i :=
      fun _ _ => (hthread.changes hv (hs.mem_loading hid)).findLoaded? hs.loader.toTidy
    cases hthread with
    | built hd hb =>
      obtain ⟨name, ⟨rfl, hplan, done, hdone, hloaded⟩, -⟩ := hv
      rw [hd, List.append_nil] at hdone
      exact hf.addClass (Blueprint.refersTo_build hplan (hdone ▸ hloaded) hb)
    | planned hp => exact hf.of_classes (Loader.classes_noteLookup ..) hkeeps
    | unknown hp => exact hf.of_classes (Loader.classes_noteLookup ..) hkeeps
    | _ => exact hf.of_classes rfl hkeeps

theorem Reachable.faithful (h : m.Reachable config search) : m.loader.Faithful := by
  induction h with
  | ready initializer h => exact Loader.faithful_bootstrap h
  | serve initializer request hm ih =>
    exact Moves.faithful (moves_serve hm.sound.loader request takesRequests_nil) hm.sound.loader ih
  | move initializer hm hmove ih =>
    exact hm.sound.faithful_move hmove ih

end Machine

/-- Class constants stand in front of the registry: what they lead to is what it has, and to ask for
the class behind one is to load the class of its name. -/
structure Loader.CachesLoads (env : Environment) (s : Loader) : Prop where
  resolved : ∀ name id c, s.findLoaded? name = some id → s.classes[id]? = some c →
    ∀ other target, LoadedConstant.classRef other (some target) ∈ c.constants →
      s.findLoaded? other = some target
  /-- The answer is that of a load, and so is the state but for the constant, which has the class
  if there is one. -/
  loads : ∀ name (id : Fin s.classes.size) c, s.findLoaded? name = some id.val →
    s.classes[id.val]? = some c →
    ∀ index other target, c.constant index = .ok (.classRef other target) →
      (s.resolveClass env id index).1 = (s.load env other).1 ∧
      (s.resolveClass env id index).2 = (Loader.remember id index (s.load env other)).2 ∧
      ∃ d, (s.resolveClass env id index).2.classes[id.val]? = some d ∧
        d.constant index = .ok (.classRef other (s.load env other).1.toOption)
  /-- Any other index is refused, and nothing is loaded. -/
  refuses : ∀ name (id : Fin s.classes.size) c, s.findLoaded? name = some id.val →
    s.classes[id.val]? = some c →
    ∀ index, (∀ other target, c.constant index ≠ .ok (.classRef other target)) →
      ∃ cause, s.resolveClass env id index = (.error (.badConstant c.name cause), s) ∧
        (c.constant index = .error cause ∨
          ∃ k, c.constant index = .ok k ∧ cause = .mismatch index .classRef k.kind)

theorem Loader.Faithful.cachesLoads {env : Environment} {s : Loader} (h : s.Faithful)
    (hs : s.Sound env.config env.search) : s.CachesLoads env where
  resolved name id c hid hc other target hk := h.findLoaded? hs hid hc hk
  loads name id c hid hc index other target hk := by
    have heq := h.resolveClass_eq hs hid hc hk
    refine ⟨?_, by rw [heq], ?_⟩
    · rw [heq]
      cases s.load env other with
      | mk r t => cases r <;> rfl
    · obtain ⟨d, hd, hconstant⟩ := hs.constant_remember hc hk
      refine ⟨d, by rw [heq]; exact hd, ?_⟩
      rw [hconstant]
      cases target with
      | none => rfl
      | some target =>
        have hmem := Array.mem_of_getElem? (LoadedClass.constant_eq_ok_iff.1 hk).2.1
        rw [Loader.load_eq_of_findLoaded? (h.findLoaded? hs hid hc hmem)]
        rfl
  refuses name id c hid hc index hk := by
    cases hconstant : c.constant index with
    | error cause => exact ⟨cause, Loader.resolveClass_of_error hc hconstant, .inl rfl⟩
    | ok k =>
      have hkind : k.kind ≠ .classRef := by
        intro hkind
        cases k <;> cases hkind
        exact hk _ _ hconstant
      exact ⟨_, Loader.resolveClass_of_mismatch hc hconstant hkind, .inr ⟨k, rfl, rfl⟩⟩

/-- In every state of a loader, whatever its threads and its initializers do, class constants stand
in front of the registry. -/
theorem classConstants_cache_loads (config : LoaderConfig) (search : ClassSearch)
    (initializer : StaticInitializer) :
    (∀ m : Machine, m.Reachable config search →
      m.loader.CachesLoads ⟨config, search, initializer⟩) ∧
    ∀ p, Session ⟨config, search, initializer⟩ p →
      p.loader.CachesLoads ⟨config, search, initializer⟩ :=
  ⟨fun _ hm => hm.faithful.cachesLoads hm.sound.loader, fun _ hp =>
    hp.faithful.cachesLoads hp.settled.sound⟩

/-- The constant that the class of class objects has for its super class. -/
theorem classClass_super_cached : ∃ (s : Loader) (id : Fin s.classes.size) (root : ClassId),
    Machine.Reachable .standard SmallPath.search ⟨s, #[]⟩ ∧
      s.findLoaded? classClassName = some id.val ∧ s.findLoaded? objectName = some root ∧
      (s.resolveClass ⟨.standard, SmallPath.search, .skip⟩ id 4).1 = .ok root := by
  obtain ⟨s, hs⟩ := (Loader.bootstrap_isOk_iff ⟨.standard, SmallPath.search, .skip⟩).2
    SmallPath.loadable_class
  have hm : Machine.Reachable .standard SmallPath.search ⟨s, #[]⟩ := .ready .skip hs
  obtain ⟨id, hid⟩ := Loader.findLoaded?_bootstrap hs
  obtain ⟨past, superClass, interfaces, built, c, hc, hfixed, hsuper, -, -, hbuilt⟩ :=
    hm.sound.loader.exists_buildOrdinary hid SmallPath.ofName_class
  cases hsuper with
  | @some _ root hroot =>
  have hlt := (Array.getElem?_eq_some_iff.1 hc).1
  have hmirrors := (LoadedClass.mirrors_buildOrdinary hbuilt).of_fixed hfixed
  have hconstant : ∃ target, c.constant 4 = .ok (.classRef objectName target) := by
    have hagree := hmirrors.agree 4
    have hget : SmallPath.classFile.pool.get 4 = .ok (.classRef 3) := rfl
    have hutf8 : SmallPath.classFile.pool.utf8 3 = .ok objectName := rfl
    rw [hget] at hagree
    generalize c.constant 4 = x at hagree ⊢
    cases hagree with
    | ok hk =>
      cases hk with
      | classRef target hname =>
        rw [hutf8] at hname
        cases hname
        exact ⟨target, rfl⟩
  obtain ⟨target, hk⟩ := hconstant
  have hcaches := (classConstants_cache_loads .standard SmallPath.search .skip).1 ⟨s, #[]⟩ hm
  refine ⟨s, ⟨id, hlt⟩, root, hm, hid, hroot, ?_⟩
  rw [(hcaches.loads classClassName ⟨id, hlt⟩ c hid hc 4 objectName target hk).1,
    Loader.load_eq_of_findLoaded? hroot]

end ClassLoading
