import ClassLoading.Proofs.Building

/-! What a class looks like from outside, whatever table it stands in. A portrait keeps the fixed
part of a class with other classes by name in place of their places in the table. A class is built
from the portraits of its dependencies alone: from tables in which these look the same, building
fails with the same error or gives classes that look the same. -/
namespace ClassLoading

/-! ### Portraits -/

/-- The kind without the place of an array's component. -/
def ClassKind.bare : ClassKind → ClassKind
  | .array _ dimensions => .array 0 dimensions
  | kind => kind

/-- The fixed part of a class without its references to other classes. -/
def LoadedClass.bare (c : LoadedClass) : LoadedClass :=
  { c.fixed with kind := c.kind.bare, superClass := none, interfaces := [] }

theorem LoadedClass.component?_eq_of_fixed {c d : LoadedClass} (h : c.fixed = d.fixed) :
    c.component? = d.component? := by
  have hkind : c.kind = d.kind := congrArg (·.kind) h
  rw [component?, hkind]
  rfl

theorem LoadedClass.references_eq_of_fixed {c d : LoadedClass} (h : c.fixed = d.fixed) :
    c.references = d.references := by
  have hsuper : c.superClass = d.superClass := congrArg (·.superClass) h
  have hinterfaces : c.interfaces = d.interfaces := congrArg (·.interfaces) h
  rw [references, references, component?_eq_of_fixed h, hsuper, hinterfaces]

theorem LoadedClass.bare_eq_of_fixed {c d : LoadedClass} (h : c.fixed = d.fixed) :
    c.bare = d.bare := by
  have hkind : c.kind = d.kind := congrArg (·.kind) h
  rw [bare, bare, h, hkind]

/-- What a class is made of, with other classes by name. -/
structure Portrait where
  declared : LoadedClass
  superName : Option String
  interfaceNames : List String
  componentName : Option String
  /-- The fields of an instance, those of super classes included. -/
  instanceFields : List LoadedField
  deriving DecidableEq, Repr, Inhabited

namespace ClassTable

def portrait? (classes : ClassTable) (id : ClassId) : Option Portrait :=
  classes[id]?.map fun c =>
    { declared := c.bare
      superName := c.superClass.bind classes.name?
      interfaceNames := c.interfaces.filterMap classes.name?
      componentName := c.component?.bind classes.name?
      instanceFields := classes.instanceFields id }

/-- Two classes, each in its own table, look the same. -/
def Alike (A B : ClassTable) (i j : ClassId) : Prop :=
  ∃ portrait, A.portrait? i = some portrait ∧ B.portrait? j = some portrait

variable {A B : ClassTable} {i j : ClassId}

theorem Alike.exists_bare (h : Alike A B i j) :
    ∃ c d, A[i]? = some c ∧ B[j]? = some d ∧ c.bare = d.bare ∧
      A.instanceFields i = B.instanceFields j := by
  obtain ⟨portrait, hi, hj⟩ := h
  obtain ⟨c, hc, hi⟩ := Option.map_eq_some_iff.1 hi
  obtain ⟨d, hd, hj⟩ := Option.map_eq_some_iff.1 hj
  have heq := hi.trans hj.symm
  exact ⟨c, d, hc, hd, congrArg Portrait.declared heq, congrArg Portrait.instanceFields heq⟩

theorem Alike.lt_size (h : Alike A B i j) : i < A.size ∧ j < B.size := by
  obtain ⟨c, d, hc, hd, -⟩ := h.exists_bare
  exact ⟨(Array.getElem?_eq_some_iff.1 hc).1, (Array.getElem?_eq_some_iff.1 hd).1⟩

/-- Whatever is read of the bare part is the same on both sides. -/
theorem Alike.map_eq (h : Alike A B i j) {α : Type} (f : LoadedClass → α)
    (hf : ∀ c, f c.bare = f c) : A[i]?.map f = B[j]?.map f := by
  obtain ⟨c, d, hc, hd, hbare, -⟩ := h.exists_bare
  rw [hc, hd, Option.map_some, Option.map_some, ← hf c, ← hf d, hbare]

theorem Alike.name?_eq (h : Alike A B i j) : A.name? i = B.name? j :=
  h.map_eq (·.name) fun _ => rfl

theorem Alike.instanceField?_eq (h : Alike A B i j) (name : String) (type : FieldType) :
    A.instanceField? i name type = B.instanceField? j name type := by
  obtain ⟨c, d, -, -, -, hfields⟩ := h.exists_bare
  rw [instanceField?_eq_find?, instanceField?_eq_find?, hfields]

theorem name?_push {classes : ClassTable} {c : LoadedClass} {id : ClassId}
    (h : id < classes.size) : name? (classes.push c) id = classes.name? id :=
  (Extends.push classes c).map_eq h (·.name) fun _ => rfl

/-- A class whose references stand in the table looks the same as the table grows. -/
theorem Extends.portrait?_eq {past now : ClassTable} (h : Extends now past) {id : ClassId}
    {c : LoadedClass} (hc : past[id]? = some c) (hrefs : ∀ i ∈ c.references, i < past.size) :
    now.portrait? id = past.portrait? id := by
  have hid : id < past.size := (Array.getElem?_eq_some_iff.1 hc).1
  obtain ⟨d, hd, hfixed⟩ := h id c hc
  have hsuper : d.superClass = c.superClass := congrArg (·.superClass) hfixed
  have hinterfaces : d.interfaces = c.interfaces := congrArg (·.interfaces) hfixed
  have hcomponent := LoadedClass.component?_eq_of_fixed hfixed
  have hbare := LoadedClass.bare_eq_of_fixed hfixed
  have hname : ∀ i ∈ c.references, now.name? i = past.name? i := fun i hi =>
    h.map_eq (hrefs i hi) (·.name) fun _ => rfl
  simp only [portrait?, hc, hd, Option.map_some, Option.some.injEq, Portrait.mk.injEq, hbare,
    hsuper, hinterfaces, hcomponent, h.instanceFields_eq hid, true_and, and_true]
  refine ⟨?_, ?_, ?_⟩
  · cases hs : c.superClass with
    | none => rfl
    | some parent => exact hname parent (by simp [LoadedClass.references, hs])
  · exact List.filterMap_congr fun i hi => hname i (by simp [LoadedClass.references, hi])
  · cases hk : c.component? with
    | none => rfl
    | some component => exact hname component (by simp [LoadedClass.references, hk])

end ClassTable

/-! ### Twins -/

/-- Two classes that are being built, each for its own table, look the same so far. -/
structure Twin (A B : ClassTable) (c d : LoadedClass) : Prop where
  bare : c.bare = d.bare
  superClass : List.Forall₂ (ClassTable.Alike A B) c.superClass.toList d.superClass.toList
  interfaces : List.Forall₂ (ClassTable.Alike A B) c.interfaces d.interfaces
  component : List.Forall₂ (ClassTable.Alike A B) c.component?.toList d.component?.toList

namespace Twin

variable {A B : ClassTable} {c d c' d' : LoadedClass}

theorem of_fixed (h : Twin A B c d) (hc : c'.fixed = c.fixed) (hd : d'.fixed = d.fixed) :
    Twin A B c' d' := by
  have hsuper : ∀ {a b : LoadedClass}, a.fixed = b.fixed → a.superClass = b.superClass :=
    fun hab => congrArg (·.superClass) hab
  have hinterfaces : ∀ {a b : LoadedClass}, a.fixed = b.fixed → a.interfaces = b.interfaces :=
    fun hab => congrArg (·.interfaces) hab
  constructor
  · rw [LoadedClass.bare_eq_of_fixed hc, LoadedClass.bare_eq_of_fixed hd, h.bare]
  · rw [hsuper hc, hsuper hd]
    exact h.superClass
  · rw [hinterfaces hc, hinterfaces hd]
    exact h.interfaces
  · rw [LoadedClass.component?_eq_of_fixed hc, LoadedClass.component?_eq_of_fixed hd]
    exact h.component

/-- The super classes, where there are any, look the same. -/
theorem superClass_cases (h : Twin A B c d) :
    c.superClass = none ∧ d.superClass = none ∨
      ∃ i j, c.superClass = some i ∧ d.superClass = some j ∧ ClassTable.Alike A B i j := by
  have hsuper := h.superClass
  cases hc : c.superClass with
  | none =>
    cases hd : d.superClass with
    | none => exact .inl ⟨rfl, rfl⟩
    | some j =>
      rw [hc, hd] at hsuper
      cases hsuper
  | some i =>
    cases hd : d.superClass with
    | none =>
      rw [hc, hd] at hsuper
      cases hsuper
    | some j =>
      rw [hc, hd] at hsuper
      cases hsuper with
      | cons hij _ => exact .inr ⟨i, j, rfl, rfl, hij⟩

/-- Twins at the ends of their tables look the same. -/
theorem portrait?_push (h : Twin A B c d) :
    ClassTable.portrait? (A.push c) A.size = ClassTable.portrait? (B.push d) B.size := by
  have hname : ∀ i j, ClassTable.Alike A B i j →
      ClassTable.name? (A.push c) i = ClassTable.name? (B.push d) j := by
    intro i j hij
    rw [ClassTable.name?_push hij.lt_size.1, ClassTable.name?_push hij.lt_size.2, hij.name?_eq]
  have hfields : ClassTable.instanceFields (A.push c) A.size =
      ClassTable.instanceFields (B.push d) B.size := by
    have hown : c.fields = d.fields := congrArg (·.fields) h.bare
    rcases h.superClass_cases with ⟨hc, hd⟩ | ⟨i, j, hc, hd, hij⟩
    · rw [ClassTable.instanceFields_of_root (by simp) hc,
        ClassTable.instanceFields_of_root (by simp) hd, hown]
    · obtain ⟨hi, hj⟩ := hij.lt_size
      obtain ⟨-, -, -, -, -, hinherited⟩ := hij.exists_bare
      rw [ClassTable.instanceFields_of_parent (by simp) hc hi,
        ClassTable.instanceFields_of_parent (by simp) hd hj, hown,
        (ClassTable.Extends.push A c).instanceFields_eq hi,
        (ClassTable.Extends.push B d).instanceFields_eq hj, hinherited]
  simp only [ClassTable.portrait?, Array.getElem?_push_size, Option.map_some, h.bare, hfields,
    bind_eq_of_forall₂ h.superClass hname, filterMap_eq_of_forall₂ h.interfaces hname,
    bind_eq_of_forall₂ h.component hname]

/-! ### Verification of twins -/

theorem isInterface_eq (h : c.bare = d.bare) : c.isInterface = d.isInterface := by
  have hflags : c.flags = d.flags := congrArg (·.flags) h
  rw [LoadedClass.isInterface, hflags]
  rfl

theorem inheritedSlots_eq {sup sup' : Option ClassId}
    (h : List.Forall₂ (ClassTable.Alike A B) sup.toList sup'.toList) :
    A.inheritedSlots sup = B.inheritedSlots sup' := by
  unfold ClassTable.inheritedSlots
  rw [Option.map_bind, Option.map_bind]
  exact congrArg (·.getD 0)
    (bind_eq_of_forall₂ h fun i j hij => hij.map_eq (·.instanceSlots) fun _ => rfl)

theorem notAnInterface_eq {is js : List ClassId} (h : List.Forall₂ (ClassTable.Alike A B) is js) :
    ((is.filterMap (A[·]?)).find? (!·.isInterface)).map (·.name) =
      ((js.filterMap (B[·]?)).find? (!·.isInterface)).map (·.name) := by
  induction h with
  | nil => rfl
  | cons hij _ ih =>
    obtain ⟨c, d, hc, hd, hbare, -⟩ := hij.exists_bare
    have hname : c.name = d.name := congrArg (·.name) hbare
    rw [List.filterMap_cons, List.filterMap_cons, hc, hd]
    simp only [List.find?_cons, isInterface_eq hbare]
    cases d.isInterface with
    | true => exact ih
    | false => simp [hname]

theorem verificationFault?_eq (config : LoaderConfig) (h : Twin A B c d) :
    c.verificationFault? config A = d.verificationFault? config B := by
  have hmajor : c.major = d.major := congrArg (·.major) h.bare
  have hminor : c.minor = d.minor := congrArg (·.minor) h.bare
  have hname : c.name = d.name := congrArg (·.name) h.bare
  have hinterfaces : LoadedClass.verificationFault?.interfaceFault? A c =
      LoadedClass.verificationFault?.interfaceFault? B d := by
    have := congrArg (Option.map VerificationFault.notAnInterface) (notAnInterface_eq h.interfaces)
    rwa [Option.map_map, Option.map_map] at this
  unfold LoadedClass.verificationFault?
  rw [hmajor, hminor, hname, hinterfaces, isInterface_eq h.bare]
  rcases h.superClass_cases with ⟨hc, hd⟩ | ⟨i, j, hc, hd, hij⟩
  · rw [hc, hd]
    rfl
  · obtain ⟨a, b, ha, hb, hbare, -⟩ := hij.exists_bare
    have hparent : a.name = b.name := congrArg (·.name) hbare
    simp only [hc, hd, Option.bind_some, ha, hb, isInterface_eq hbare, hparent]

theorem verify (config : LoaderConfig) (h : Twin A B c d) :
    Agree (Twin A B) (c.verify config A) (d.verify config B) := by
  have hname : c.name = d.name := congrArg (·.name) h.bare
  unfold LoadedClass.verify
  rw [h.verificationFault?_eq config, hname]
  cases d.verificationFault? config B with
  | none => exact .ok (h.of_fixed (c.fixed_advance _) (d.fixed_advance _))
  | some fault => exact .error _

/-! ### Preparation of twins -/

theorem constantValue?_unlinked (type : FieldType) (index : UInt16) (constant : LoadedConstant) :
    LoadedClass.constantValue? type index constant.unlinked =
      LoadedClass.constantValue? type index constant := by
  cases constant with
  | classRef name target =>
    cases type with
    | primitive p => cases p <;> rfl
    | object n => rfl
    | array e => rfl
  | _ => rfl

theorem constant_bare (c : LoadedClass) (index : UInt16) :
    c.bare.constant index = (c.constant index).map (·.unlinked) := by
  unfold LoadedClass.constant
  simp only [LoadedClass.bare, LoadedClass.fixed, Array.size_map, Array.getElem?_map]
  split
  · rfl
  · cases c.constants[index.toNat - 1]? with
    | none => rfl
    | some constant => cases constant <;> rfl

theorem preparedValue?_bare (c : LoadedClass) (field : LoadedField) :
    c.bare.preparedValue? field = c.preparedValue? field := by
  unfold LoadedClass.preparedValue?
  split
  · next index _ =>
    split
    · rw [constant_bare]
      cases c.constant index with
      | error e => rfl
      | ok constant => exact constantValue?_unlinked ..
    · rfl
  · rfl

/-- Which constants fit does not depend on the values that the fields have before. -/
theorem fillStatics (h : c.bare = d.bare) (fields : List LoadedField) {statics filled : Array Value}
    (hsize : statics.size = filled.size) :
    Agree (fun a b : Array Value => a.size = b.size) (c.fillStatics fields statics)
      (d.fillStatics fields filled) := by
  induction fields generalizing statics filled with
  | nil => exact .ok hsize
  | cons field rest ih =>
    have hvalue : c.preparedValue? field = d.preparedValue? field := by
      rw [← preparedValue?_bare c, ← preparedValue?_bare d, h]
    rw [LoadedClass.fillStatics_cons, LoadedClass.fillStatics_cons, hvalue]
    refine (Agree.refl _).bind fun prepared _ heq => ?_
    subst heq
    exact ih (by rw [field.size_put, field.size_put, hsize])

theorem prepare (config : LoaderConfig) (h : Twin A B c d) :
    Agree (Twin A B) (c.prepare config) (d.prepare config) := by
  have hname : c.name = d.name := congrArg (·.name) h.bare
  have hfields : c.fields = d.fields := congrArg (·.fields) h.bare
  have hsize : c.statics.size = d.statics.size := by
    have := congrArg (·.statics.size) h.bare
    simpa [LoadedClass.bare, LoadedClass.fixed] using this
  have hkeep : ∀ {c : LoadedClass} {statics : Array Value}, statics.size = c.statics.size →
      ({ c with statics }.advance .prepared).fixed = c.fixed := by
    intro c statics hs
    simp [LoadedClass.fixed, LoadedClass.advance, hs]
  unfold LoadedClass.prepare
  split
  · have hfill := fillStatics h.bare c.fields hsize
    cases hc : c.fillStatics c.fields c.statics with
    | error e =>
      rw [hc, hfields] at hfill
      cases hd : d.fillStatics d.fields d.statics <;> rw [hd] at hfill <;> cases hfill
      rw [hname]
      exact .error _
    | ok statics =>
      rw [hc, hfields] at hfill
      cases hd : d.fillStatics d.fields d.statics <;> rw [hd] at hfill <;> cases hfill
      exact .ok (h.of_fixed (hkeep (LoadedClass.size_fillStatics hc))
        (hkeep (LoadedClass.size_fillStatics hd)))
  · exact .ok (h.of_fixed (c.fixed_advance _) (d.fixed_advance _))

/-! ### Resolution of twins -/

theorem fieldLink?_eq (h : Twin A B c d) (name : String) (type : FieldType) :
    c.fieldLink? A name type = d.fieldLink? B name type := by
  have hfields : c.fields = d.fields := congrArg (·.fields) h.bare
  have hinherited := bind_eq_of_forall₂ h.superClass fun i j hij =>
    hij.instanceField?_eq name type
  unfold LoadedClass.fieldLink? LoadedClass.staticField? LoadedClass.ownInstanceField?
  rw [hfields, hinherited]

theorem resolveConstant_eq (h : Twin A B c d) (constant : LoadedConstant) :
    c.resolveConstant A constant = d.resolveConstant B constant := by
  have hname : c.name = d.name := congrArg (·.name) h.bare
  cases constant with
  | fieldRef owner member link =>
    simp only [LoadedClass.resolveConstant, hname, h.fieldLink?_eq]
  | _ => rfl

/-- Where the class constants lead has no part in resolution. -/
theorem resolveConstant_unlinked (classes : ClassTable) (c : LoadedClass)
    (constant : LoadedConstant) :
    c.resolveConstant classes constant.unlinked =
      (c.resolveConstant classes constant).map (·.unlinked) := by
  cases constant with
  | fieldRef owner member link =>
    simp only [LoadedClass.resolveConstant, LoadedConstant.unlinked]
    split
    · cases FieldType.ofDescriptor member.descriptor with
      | error e => rfl
      | ok type => rfl
    · rfl
  | _ => rfl

theorem mapM_map_unlinked {ε : Type} {f : LoadedConstant → Except ε LoadedConstant}
    (hf : ∀ constant, f constant.unlinked = (f constant).map (·.unlinked))
    (constants : List LoadedConstant) :
    (constants.map (·.unlinked)).mapM f = (constants.mapM f).map (List.map (·.unlinked)) := by
  induction constants with
  | nil => rfl
  | cons constant constants ih =>
    rw [List.map_cons, List.mapM_cons, List.mapM_cons, hf, ih]
    cases f constant with
    | error e => rfl
    | ok first => cases constants.mapM f <;> rfl

theorem resolve (h : Twin A B c d) :
    Agree (Twin A B) (c.resolve A) (d.resolve B) := by
  have hname : c.name = d.name := congrArg (·.name) h.bare
  have hconstants : c.constants.toList.map (·.unlinked) = d.constants.toList.map (·.unlinked) := by
    have := congrArg (fun c => c.constants.toList) h.bare
    simpa [LoadedClass.bare, LoadedClass.fixed] using this
  have hfun : c.resolveConstant A = d.resolveConstant B := funext h.resolveConstant_eq
  have hmap : (c.constants.toList.mapM (c.resolveConstant A)).map (List.map (·.unlinked)) =
      (d.constants.toList.mapM (d.resolveConstant B)).map (List.map (·.unlinked)) := by
    rw [← mapM_map_unlinked (resolveConstant_unlinked A c),
      ← mapM_map_unlinked (resolveConstant_unlinked B d), hconstants, hfun]
  unfold LoadedClass.resolve
  have hagree := Agree.of_map_eq hmap
  generalize c.constants.toList.mapM (c.resolveConstant A) = x at hagree
  generalize d.constants.toList.mapM (d.resolveConstant B) = y at hagree
  cases hagree with
  | error e =>
    rw [hname]
    exact .error _
  | @ok resolved resolved' heq =>
    refine .ok ⟨?_, h.superClass, h.interfaces, h.component⟩
    have hbare := h.bare
    simp only [LoadedClass.bare, LoadedClass.fixed, LoadedClass.mk.injEq] at hbare ⊢
    simp only [LoadedClass.advance, List.map_toArray, heq, hbare, and_self]

/-! ### Building twins -/

variable {file : ClassFile} {name : String} {sup sup' : Option ClassId} {is js : List ClassId}

theorem declaredClass (hs : List.Forall₂ (ClassTable.Alike A B) sup.toList sup'.toList)
    (hi : List.Forall₂ (ClassTable.Alike A B) is js) :
    Agree (Twin A B) (Blueprint.declaredClass A name file sup is)
      (Blueprint.declaredClass B name file sup' js) := by
  have hslots : A.inheritedSlots sup = B.inheritedSlots sup' := inheritedSlots_eq hs
  unfold ClassTable.inheritedSlots at hslots
  unfold Blueprint.declaredClass
  refine (Agree.refl _).bind fun constants _ heq => ?_
  subst heq
  refine (Agree.refl _).bind fun declarations _ heq => ?_
  subst heq
  refine (Agree.refl _).bind fun methods _ heq => ?_
  subst heq
  -- linking does not show, so what is left to compare are the declarations themselves
  refine .ok (of_fixed ⟨?_, hs, hi, .nil⟩
    (Blueprint.linked_eq LoadedClass.fixed_link _ file.superClass sup _)
    (Blueprint.linked_eq LoadedClass.fixed_link _ file.superClass sup' _))
  simp only [LoadedClass.bare, LoadedClass.fixed, hslots]

theorem buildOrdinary (config : LoaderConfig) (sup sup' : Option ClassId)
    (hs : List.Forall₂ (ClassTable.Alike A B) sup.toList sup'.toList)
    (hi : List.Forall₂ (ClassTable.Alike A B) is js) :
    Agree (Twin A B) (Blueprint.buildOrdinary config A name file sup is)
      (Blueprint.buildOrdinary config B name file sup' js) :=
  (declaredClass hs hi).bind fun _ _ h => (h.verify config).bind fun _ _ h =>
    (h.prepare config).bind fun _ _ h => h.resolve

theorem buildArray {component component' parent parent' : ClassId}
    (hc : ClassTable.Alike A B component component') (hp : ClassTable.Alike A B parent parent')
    (hi : List.Forall₂ (ClassTable.Alike A B) is js) :
    Twin A B (Blueprint.buildArray A name component parent is)
      (Blueprint.buildArray B name component' parent' js) := by
  have hpublic := hc.map_eq (fun c => c.isPrimitive || Access.isPublic c.flags) fun c => by
    unfold LoadedClass.isPrimitive LoadedClass.bare
    cases c.kind <;> rfl
  have hslots := hp.map_eq (·.instanceSlots) fun _ => rfl
  refine ⟨?_, .cons hp .nil, hi, .cons hc .nil⟩
  simp only [LoadedClass.bare, LoadedClass.fixed, Blueprint.buildArray, Blueprint.synthetic,
    Option.bind_some, hpublic, hslots, ClassKind.bare]

/-- A blueprint makes the same of dependencies that look the same. -/
theorem build (config : LoaderConfig) (plan : Blueprint)
    (h : List.Forall₂ (ClassTable.Alike A B) is js) :
    Agree (Twin A B) (plan.build config A name is) (plan.build config B name js) := by
  cases plan with
  | primitive type => exact .ok ⟨rfl, .nil, .nil, .nil⟩
  | array component =>
    cases h with
    | nil => exact .error _
    | cons hc h =>
      cases h with
      | nil => exact .error _
      | cons hp hi => exact .ok (buildArray hc hp hi)
  | ordinary file superName interfaceNames =>
    cases superName with
    | none => exact buildOrdinary config none none .nil h
    | some parentName =>
      cases h with
      | nil => exact .error _
      | @cons i j _ _ hp hi =>
        exact buildOrdinary config (some i) (some j) (.cons hp .nil) hi

end Twin

end ClassLoading
