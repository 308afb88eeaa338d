import ClassLoading.Loader.Load

/-! Static initialization. A class is initialized at most once: its super class first, then its own
static initializer, which may itself load and initialize classes. A request for a class whose
initialization is running returns at once, and one for a class whose initialization failed fails.
Every start uses up one of the initializations that are still possible, so requests end whatever
the initializers ask for. -/
namespace ClassLoading

def initializerName : String := "<clinit>"

/-- Static initializers take nothing and return nothing. -/
def initializerType : MethodType := ⟨[], none⟩

def earlierFailure : String := "an earlier initialization attempt failed"

def noSuchSlot : String := "no such slot"

namespace LoadedClass

/-- The answer to a request that need not run anything. -/
def initAnswer? (c : LoadedClass) : Option (Except LoadError Unit) :=
  if c.kind = .ordinary then
    match c.initStatus with
    | .done | .running => some (.ok ())
    | .failed => some (.error (.initialization c.name earlierFailure))
    | .notStarted => none
  else some (.ok ())

theorem isUnstarted_of_initAnswer? {c : LoadedClass} (h : c.initAnswer? = none) :
    Loader.isUnstarted c = true := by
  unfold initAnswer? at h
  split at h
  · split at h <;> simp_all [Loader.isUnstarted]
  · cases h

def startInit (c : LoadedClass) : LoadedClass := { c with initStatus := .running }

def endInit (c : LoadedClass) : Except LoadError Unit → LoadedClass
  | .ok () => { c with initStatus := .done }.advance .initialized
  | .error _ => { c with initStatus := .failed }

theorem isUnstarted_endInit (c : LoadedClass) (r : Except LoadError Unit) :
    Loader.isUnstarted (c.endInit r) = false := by
  cases r <;> rfl

/-- Stores a static value; there may be no such slot. -/
def setStatic? (c : LoadedClass) (slot : Nat) (value : Value) : Option LoadedClass :=
  if slot < c.statics.size then
    some { c with statics := c.statics.setIfInBounds slot value }
  else none

end LoadedClass

/-- The static initializer of a class, where it has one that is run. -/
def Environment.initializerOf? (env : Environment) (c : LoadedClass) :
    Option (InitializerRun × List Action) :=
  match env.initializer, c.method? initializerName initializerType with
  | .script actions, some method =>
    some (⟨c.name, method.code.map (·.code.length)⟩, actions c.name)
  | _, _ => none

namespace Loader

def noteRun (s : Loader) (run : InitializerRun) : Loader := { s with runs := s.runs ++ [run] }

theorem Keeps.noteRun {names : List String} {s : Loader} {run : InitializerRun} :
    Keeps names s (s.noteRun run) := .of_eq rfl rfl (Nat.le_refl _)

/-- Stores a static value of a class, or says that there is no such slot. -/
def setStatic (s : Loader) (id : ClassId) (slot : Nat) (value : Value) : Bool × Loader :=
  match s.classes[id]?.bind (·.setStatic? slot value) with
  | some _ => (true, s.updateClass id fun c => (c.setStatic? slot value).getD c)
  | none => (false, s)

theorem Keeps.setStatic {names : List String} {s : Loader} {id : ClassId} {slot : Nat}
    {value : Value} : Keeps names s (s.setStatic id slot value).2 := by
  unfold Loader.setStatic
  split
  · refine .updateClass fun c h => ?_
    unfold LoadedClass.setStatic? at h
    split at h <;> exact h
  · exact .refl ..

/-- The state after the end of an initialization. -/
def endInit (s : Loader) (id : ClassId) (r : Except LoadError Unit) : Loader :=
  s.updateClass id (·.endInit r)

theorem Keeps.endInit {names : List String} {s : Loader} {id : ClassId}
    {r : Except LoadError Unit} : Keeps names s (s.endInit id r) :=
  .updateClass fun c h => by simp [LoadedClass.isUnstarted_endInit] at h

theorem Keeps.startInit {names : List String} {s : Loader} {id : ClassId} :
    Keeps names s (s.updateClass id LoadedClass.startInit) :=
  .updateClass fun c h => by simp [LoadedClass.startInit, isUnstarted] at h

mutual

def initClassRun (env : Environment) (s : Loader) (id : ClassId) :
    Run env.names s LoadError Unit :=
  match hc : s.classes[id]? with
  | none => ⟨(.ok (), s), .refl ..⟩
  | some c =>
    match ha : c.initAnswer? with
    | some answer => ⟨(answer, s), .refl ..⟩
    | none =>
      have : (s.updateClass id LoadedClass.startInit).potential env.names < s.potential env.names :=
        potential_updateClass_lt hc (LoadedClass.isUnstarted_of_initAnswer? ha) rfl
      let above : Run env.names (s.updateClass id LoadedClass.startInit) LoadError Unit :=
        match c.superClass with
        | none => ⟨(.ok (), s.updateClass id LoadedClass.startInit), .refl ..⟩
        | some parent => initClassRun env (s.updateClass id LoadedClass.startInit) parent
      match above with
      | ⟨(.error e, t), h⟩ =>
        ⟨(.error e, t.endInit id (.error e)), (Keeps.startInit.trans h).trans .endInit⟩
      | ⟨(.ok (), t), h⟩ =>
        match env.initializerOf? c with
        | none => ⟨(.ok (), t.endInit id (.ok ())), (Keeps.startInit.trans h).trans .endInit⟩
        | some (run, actions) =>
          let own := actRun env (t.noteRun run) id actions
          let r := own.val.1.mapError (.initialization c.name)
          ⟨(r, own.val.2.endInit id r),
            (((Keeps.startInit.trans h).trans .noteRun).trans own.property).trans .endInit⟩
termination_by (s.potential env.names, 0, 0)
decreasing_by
  · exact .left _ _ this
  · exact .left _ _ (Nat.lt_of_le_of_lt (h.trans .noteRun).potential this)

def loadInitRun (env : Environment) (s : Loader) (name : String) :
    Run env.names s LoadError ClassId :=
  match s.loadRun env name with
  | ⟨(.error e, t), h⟩ => ⟨(.error e, t), h⟩
  | ⟨(.ok id, t), h⟩ =>
    let own := initClassRun env t id
    ⟨(own.val.1.map fun _ => id, own.val.2), h.trans own.property⟩
termination_by (s.potential env.names, 1, 0)
decreasing_by
  rcases Nat.lt_or_eq_of_le h.potential with hlt | heq
  · exact .left _ _ hlt
  · rw [heq]
    exact .right _ (.left _ _ Nat.zero_lt_one)

/-- Performs the actions of an initializer for a class, up to the first that fails. -/
def actRun (env : Environment) (s : Loader) (id : ClassId) :
    (actions : List Action) → Run env.names s String Unit
  | [] => ⟨(.ok (), s), .refl ..⟩
  | .fail message :: _ => ⟨(.error message, s), .refl ..⟩
  | .load name :: rest =>
    match s.loadRun env name with
    | ⟨(.error e, t), h⟩ => ⟨(.error e.message, t), h⟩
    | ⟨(.ok _, t), h⟩ =>
      let more := actRun env t id rest
      ⟨more.val, h.trans more.property⟩
  | .init name :: rest =>
    match loadInitRun env s name with
    | ⟨(.error e, t), h⟩ => ⟨(.error e.message, t), h⟩
    | ⟨(.ok _, t), h⟩ =>
      let more := actRun env t id rest
      ⟨more.val, h.trans more.property⟩
  | .tryInit name :: rest =>
    match loadInitRun env s name with
    | ⟨(_, t), h⟩ =>
      let more := actRun env t id rest
      ⟨more.val, h.trans more.property⟩
  | .set slot value :: rest =>
    match hset : s.setStatic id slot value with
    | (false, t) => ⟨(.error noSuchSlot, s), .refl ..⟩
    | (true, t) =>
      have h : s.Keeps env.names t := by
        have := @Keeps.setStatic env.names s id slot value
        rwa [hset] at this
      let more := actRun env t id rest
      ⟨more.val, h.trans more.property⟩
termination_by actions => (s.potential env.names, 2, actions.length)
decreasing_by
  · exact lex_of_le h.potential (Nat.le_refl _) (by simp)
  · exact .right _ (.left _ _ (by omega))
  · exact lex_of_le h.potential (Nat.le_refl _) (by simp)
  · exact .right _ (.left _ _ (by omega))
  · exact lex_of_le h.potential (Nat.le_refl _) (by simp)
  · exact lex_of_le h.potential (Nat.le_refl _) (by simp)

end

/-- Initializes a class, unless that has happened or is under way. -/
def initClass (env : Environment) (s : Loader) (id : ClassId) : Except LoadError Unit × Loader :=
  (s.initClassRun env id).val

/-- Loads and initializes the class of a name. -/
def loadInit (env : Environment) (s : Loader) (name : String) :
    Except LoadError ClassId × Loader :=
  (s.loadInitRun env name).val

/-- Performs the actions of an initializer for a class. -/
def act (env : Environment) (s : Loader) (id : ClassId) (actions : List Action) :
    Except String Unit × Loader :=
  (s.actRun env id actions).val

/-! ### How an initialization goes -/

theorem initClass_of_answer {env : Environment} {s : Loader} {id : ClassId} {c : LoadedClass}
    {r : Except LoadError Unit} (hc : s.classes[id]? = some c) (ha : c.initAnswer? = some r) :
    s.initClass env id = (r, s) := by
  rw [initClass, initClassRun]
  split
  · simp_all
  · next c' hc' =>
    rw [hc] at hc'
    cases hc'
    split
    · simp_all
    · next hn => rw [ha] at hn; cases hn

/-- The initialization of the super class, where there is one. -/
def initSuper (env : Environment) (s : Loader) : Option ClassId → Except LoadError Unit × Loader
  | none => (.ok (), s)
  | some parent => s.initClass env parent

/-- The static initializer of a class that has been marked as running, and the end of it. -/
def initOwn (env : Environment) (s : Loader) (id : ClassId) (c : LoadedClass) :
    Except LoadError Unit × Loader :=
  match env.initializerOf? c with
  | none => (.ok (), s.endInit id (.ok ()))
  | some (run, actions) =>
    let own := (s.noteRun run).act env id actions
    let r := own.1.mapError (.initialization c.name)
    (r, own.2.endInit id r)

theorem initClass_of_start {env : Environment} {s : Loader} {id : ClassId} {c : LoadedClass}
    (hc : s.classes[id]? = some c) (ha : c.initAnswer? = none) :
    s.initClass env id =
      match (s.updateClass id LoadedClass.startInit).initSuper env c.superClass with
      | (.error e, t) => (.error e, t.endInit id (.error e))
      | (.ok (), t) => t.initOwn env id c := by
  rw [initClass, initClassRun]
  split
  · simp_all
  · next c' hc' =>
    rw [hc] at hc'
    cases hc'
    split
    · simp_all
    · cases hsuper : c.superClass with
      | none =>
        simp only [initSuper, initOwn, act]
        split <;> rfl
      | some parent =>
        simp only [initSuper, initClass]
        generalize initClassRun env (s.updateClass id LoadedClass.startInit) parent = above
        obtain ⟨⟨r, t⟩, h⟩ := above
        cases r with
        | error e => rfl
        | ok u =>
          simp only [initOwn, act]
          split <;> rfl

theorem loadInit_eq (env : Environment) (s : Loader) (name : String) :
    s.loadInit env name =
      match s.load env name with
      | (.error e, t) => (.error e, t)
      | (.ok id, t) => ((t.initClass env id).1.map fun _ => id, (t.initClass env id).2) := by
  rw [loadInit, loadInitRun, load]
  split <;> simp_all [initClass]

@[simp] theorem act_nil (env : Environment) (s : Loader) (id : ClassId) :
    s.act env id [] = (.ok (), s) := by
  rw [act, actRun]

@[simp] theorem act_fail (env : Environment) (s : Loader) (id : ClassId) (message : String)
    (rest : List Action) : s.act env id (.fail message :: rest) = (.error message, s) := by
  rw [act, actRun]

theorem act_load (env : Environment) (s : Loader) (id : ClassId) (name : String)
    (rest : List Action) :
    s.act env id (.load name :: rest) =
      match s.load env name with
      | (.error e, t) => (.error e.message, t)
      | (.ok _, t) => t.act env id rest := by
  rw [act, actRun, load]
  split <;> simp_all [act]

theorem act_init (env : Environment) (s : Loader) (id : ClassId) (name : String)
    (rest : List Action) :
    s.act env id (.init name :: rest) =
      match s.loadInit env name with
      | (.error e, t) => (.error e.message, t)
      | (.ok _, t) => t.act env id rest := by
  rw [act, actRun, loadInit]
  split <;> simp_all [act]

theorem act_tryInit (env : Environment) (s : Loader) (id : ClassId) (name : String)
    (rest : List Action) :
    s.act env id (.tryInit name :: rest) = (s.loadInit env name).2.act env id rest := by
  rw [act, actRun, loadInit]
  split
  next heq => rw [heq, act]

theorem act_set (env : Environment) (s : Loader) (id : ClassId) (slot : Nat) (value : Value)
    (rest : List Action) :
    s.act env id (.set slot value :: rest) =
      match s.setStatic id slot value with
      | (false, _) => (.error noSuchSlot, s)
      | (true, t) => t.act env id rest := by
  rw [act, actRun]
  split <;> simp_all [act]

end Loader

end ClassLoading
