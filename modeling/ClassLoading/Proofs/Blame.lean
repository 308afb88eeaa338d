import ClassLoading.Proofs.Building

/-! Whom the errors of building a class are about. The blueprint of a name is drawn and its class is
built without a load in between, and whatever goes wrong is put down to the name itself, never to a
circle of loads. -/
namespace ClassLoading

/-- The error is a fault of the class of a name, not of the loads around it. -/
structure LoadError.FaultOf (name : String) (e : LoadError) : Prop where
  className : e.className? = some name
  notCircular : ∀ other, e ≠ .circular other

/-- A computation fails, if at all, with a fault of the class of a name. -/
def Blames {α : Type} (name : String) (x : Except LoadError α) : Prop :=
  ∀ e, x = .error e → e.FaultOf name

section

variable {α β ε : Type} {name : String}

theorem blames_ok (a : α) : Blames name (.ok a) := nofun

theorem blames_error {e : LoadError} (h : e.FaultOf name) :
    Blames name (.error e : Except LoadError α) := fun _ heq => Except.error.inj heq ▸ h

theorem Blames.bind {x : Except LoadError α} {f : α → Except LoadError β} (hx : Blames name x)
    (hf : ∀ a, x = .ok a → Blames name (f a)) : Blames name (x >>= f) := by
  cases x with
  | error e => exact blames_error (hx e rfl)
  | ok a => exact hf a rfl

theorem blames_mapError {x : Except ε α} {f : ε → LoadError} (hf : ∀ e, (f e).FaultOf name) :
    Blames name (x.mapError f) := by
  cases x with
  | error e => exact blames_error (hf e)
  | ok a => exact blames_ok a

theorem Blames.mapM {f : α → Except LoadError β} (hf : ∀ a, Blames name (f a)) (l : List α) :
    Blames name (l.mapM f) := by
  induction l with
  | nil => exact blames_ok []
  | cons a l ih =>
    rw [List.mapM_cons]
    exact (hf a).bind fun b _ => ih.bind fun bs _ => blames_ok (b :: bs)

theorem blames_badConstant (name : String) (x : Except PoolError α) :
    Blames name (x.mapError (.badConstant name)) := blames_mapError fun _ => ⟨rfl, nofun⟩

theorem blames_invalidDescriptor (name : String) (x : Except DescriptorError α) :
    Blames name (x.mapError (.invalidDescriptor name)) := blames_mapError fun _ => ⟨rfl, nofun⟩

theorem blames_ofParse (name : String) (x : Except ParseError α) :
    Blames name (x.mapError (.ofParse name)) :=
  blames_mapError fun cause => by cases cause <;> exact ⟨rfl, nofun⟩

theorem blames_decodeField (pool : ConstantPool) (name : String) (m : Member) :
    Blames name (pool.decodeField name m) :=
  (blames_badConstant _ _).bind fun _ _ => (blames_badConstant _ _).bind fun _ _ =>
    (blames_invalidDescriptor _ _).bind fun _ _ => (blames_ofParse _ _).bind fun _ _ => blames_ok _

theorem blames_decodeMethod (pool : ConstantPool) (name : String) (m : Member) :
    Blames name (pool.decodeMethod name m) :=
  (blames_badConstant _ _).bind fun _ _ => (blames_badConstant _ _).bind fun _ _ =>
    (blames_invalidDescriptor _ _).bind fun _ _ => (blames_ofParse _ _).bind fun _ _ => blames_ok _

end

namespace LoadedClass

variable {config : LoaderConfig} {classes : ClassTable}

theorem blames_verify (c : LoadedClass) : Blames c.name (c.verify config classes) := by
  unfold verify
  split
  · exact blames_error ⟨rfl, nofun⟩
  · exact blames_ok _

theorem blames_prepare (c : LoadedClass) : Blames c.name (c.prepare config) := by
  unfold prepare
  split
  · split
    · exact blames_ok _
    · exact blames_error ⟨rfl, nofun⟩
  · exact blames_ok _

theorem blames_resolve (c : LoadedClass) : Blames c.name (c.resolve classes) := by
  unfold resolve
  split
  · exact blames_ok _
  · exact blames_error ⟨rfl, nofun⟩

end LoadedClass

namespace Blueprint

variable {config : LoaderConfig} {search : ClassSearch} {classes : ClassTable} {name : String}

theorem blames_ofBytes (bytes : List UInt8) : Blames name (ofBytes name bytes) := by
  refine (blames_ofParse _ _).bind fun file _ => (blames_badConstant _ _).bind fun declared _ => ?_
  split
  · exact (blames_badConstant _ _).bind fun _ _ => (blames_badConstant _ _).bind fun _ _ =>
      blames_ok _
  · exact blames_error ⟨rfl, nofun⟩

/-- What a name stands for is found out without any load. -/
theorem blames_ofName : Blames name (ofName search name) := by
  unfold ofName
  split
  · exact blames_ok _
  · split
    · unfold ofArrayName
      split
      · exact blames_ok _
      · exact blames_error ⟨rfl, nofun⟩
      · exact blames_error ⟨rfl, nofun⟩
    · split
      · exact blames_ofBytes _
      · next cause _ => cases cause <;> exact blames_error ⟨rfl, nofun⟩

theorem blames_buildOrdinary (file : ClassFile) (superClass : Option ClassId)
    (interfaces : List ClassId) :
    Blames name (buildOrdinary config classes name file superClass interfaces) := by
  refine Blames.bind ?_ fun declared hdeclared => ?_
  · exact (blames_badConstant _ _).bind fun _ _ =>
      (Blames.mapM (blames_decodeField _ _) _).bind fun _ _ =>
        (Blames.mapM (blames_decodeMethod _ _) _).bind fun _ _ => blames_ok _
  -- the later steps name the class as it was declared
  obtain ⟨_, _, _, -, -, -, hfixed⟩ := declaredClass_eq_ok hdeclared
  have hname : declared.name = name := congrArg (·.name) hfixed
  refine (hname ▸ declared.blames_verify).bind fun verified hverified => ?_
  have hverified : verified.name = name := LoadedClass.verify_eq_ok hverified ▸ hname
  refine (hverified ▸ verified.blames_prepare).bind fun prepared hprepared => ?_
  have hprepared : prepared.name = verified.name :=
    congrArg (·.name) (LoadedClass.outline_prepare hprepared)
  exact hprepared.trans hverified ▸ prepared.blames_resolve

/-- Neither does the building of a class load anything. -/
theorem blames_build (plan : Blueprint) (ids : List ClassId) :
    Blames name (plan.build config classes name ids) := by
  unfold build
  split
  · exact blames_ok _
  · exact blames_ok _
  · exact blames_error ⟨rfl, nofun⟩
  · exact blames_buildOrdinary _ none _
  · next parent _ => exact blames_buildOrdinary _ (some parent) _
  · exact blames_error ⟨rfl, nofun⟩

end Blueprint

end ClassLoading
