import ClassLoading.Failure
import ClassLoading.Loader.Progress

/-! Loading a class with all the classes it depends on. A name that is already loaded is answered
from the registry, one that is still loading closes a circle, and any other is looked up, its
dependencies are loaded in order and the class is built from them. A load descends into an array's
component, which has a shorter name, or from a class file into its supertypes, and then the file's
name is one less of the finitely many that the search knows: every load ends. -/
namespace ClassLoading

/-- What a static initializer does. -/
inductive Action where
  | fail (message : String)
  | load (name : String)
  | init (name : String)
  /-- As `init`, but a failure is ignored. -/
  | tryInit (name : String)
  | set (slot : Nat) (value : Value)
  deriving DecidableEq, Repr, Inhabited

/-- How static initializers are run. -/
inductive StaticInitializer where
  | skip
  | script (actions : String → List Action)

/-- What a loader is set up with. -/
structure Environment where
  config : LoaderConfig
  search : ClassSearch
  initializer : StaticInitializer

def Environment.names (env : Environment) : List String := env.search.names

/-- A result with the state it leaves behind, which keeps the bounds of the state before. -/
abbrev Run (names : List String) (s : Loader) (ε α : Type) : Type :=
  { r : Except ε α × Loader // s.Keeps names r.2 }

/-! ### The measure -/

/-- How deep a load can descend without looking up a name. -/
def rank (name : String) : Nat :=
  if Blueprint.isArrayName name then name.toList.length + 1 else 1

def maxRank (names : List String) : Nat := names.foldr (fun name n => max (rank name) n) 0

theorem rank_pos (name : String) : 0 < rank name := by
  unfold rank
  split <;> omega

theorem rank_le_length (name : String) : rank name ≤ name.toList.length + 1 := by
  unfold rank
  split <;> omega

theorem rank_le_maxRank (name : String) (names : List String) :
    rank name ≤ maxRank (name :: names) := Nat.le_max_left ..

theorem maxRank_le_maxRank (name : String) (names : List String) :
    maxRank names ≤ maxRank (name :: names) := Nat.le_max_right ..

namespace Blueprint

theorem ofName_ordinary {search : ClassSearch} {name : String} {file : ClassFile}
    {superName : Option String} {interfaceNames : List String}
    (h : ofName search name = .ok (.ordinary file superName interfaceNames)) :
    name ∈ search.names := by
  unfold ofName at h
  split at h
  · cases h
  · split at h
    · unfold ofArrayName at h
      split at h <;> cases h
    · split at h
      · next bytes hf => exact search.mem_names name bytes hf
      · cases h

/-- A class file never is the blueprint of an array. -/
theorem ofBytes_ne_array {name : String} {bytes : List UInt8} {component : FieldType} :
    ofBytes name bytes ≠ .ok (.array component) := by
  intro h
  obtain ⟨file, _, h⟩ := bind_eq_ok_iff.1 h
  obtain ⟨declared, _, h⟩ := bind_eq_ok_iff.1 h
  split at h
  · obtain ⟨superName, _, h⟩ := bind_eq_ok_iff.1 h
    obtain ⟨interfaceNames, _, h⟩ := bind_eq_ok_iff.1 h
    cases h
  · cases h

theorem ofName_array {search : ClassSearch} {name : String} {component : FieldType}
    (h : ofName search name = .ok (.array component)) :
    name.toList = '[' :: component.chars := by
  unfold ofName at h
  split at h
  · cases h
  · split at h
    · unfold ofArrayName at h
      split at h <;> cases h
      next hd =>
      unfold FieldType.ofDescriptor at hd
      split at hd
      · next hr =>
        cases hd
        simpa [FieldType.chars] using FieldType.eq_chars_of_read? hr
      · cases hd
    · split at h
      · exact absurd h ofBytes_ne_array
      · cases h

theorem rank_className_lt {name : String} {component : FieldType}
    (h : name.toList = '[' :: component.chars) : rank component.className < rank name := by
  have hname : rank name = component.chars.length + 2 := by
    simp [rank, isArrayName, h]
  rw [hname]
  cases component with
  | primitive p => cases p <;> decide
  | object n =>
    have := rank_le_length n
    simp only [FieldType.className, FieldType.chars, List.length_cons, List.length_append]
    omega
  | array e =>
    have := rank_le_length (FieldType.array e).descriptor
    simp only [FieldType.descriptor, String.toList_ofList] at this
    simp only [FieldType.className, FieldType.descriptor]
    omega

/-- A blueprint only asks for names of a lower rank, unless it comes from the search. -/
theorem maxRank_dependencies_lt {search : ClassSearch} {name : String} {plan : Blueprint}
    (h : ofName search name = .ok plan) :
    name ∈ search.names ∨ maxRank plan.dependencies < rank name := by
  cases plan with
  | primitive type => exact .inr (rank_pos name)
  | ordinary file superName interfaceNames => exact .inl (ofName_ordinary h)
  | array component =>
    have hlt := rank_className_lt (ofName_array h)
    have ho : rank objectName = 1 := by decide
    have hc : rank cloneableName = 1 := by decide
    have hs : rank serializableName = 1 := by decide
    have := rank_pos component.className
    right
    simp only [dependencies, maxRank, List.foldr, ho, hc, hs]
    omega

/-- Only a class that was looked up starts out without its initialization. -/
theorem mem_names_of_build {search : ClassSearch} {config : LoaderConfig} {classes : ClassTable}
    {name : String} {plan : Blueprint} {ids : List ClassId} {c : LoadedClass}
    (h : ofName search name = .ok plan) (hb : plan.build config classes name ids = .ok c)
    (hc : Loader.isUnstarted c = true) : name ∈ search.names := by
  cases plan with
  | primitive type =>
    cases hb
    simp [Loader.isUnstarted, buildPrimitive, synthetic] at hc
  | array component =>
    rcases ids with _ | ⟨a, _ | ⟨b, ids⟩⟩ <;> cases hb
    simp [Loader.isUnstarted, buildArray, synthetic] at hc
  | ordinary file superName interfaceNames => exact ofName_ordinary h

end Blueprint

/-- The measure of a load, and of a list of loads, goes down in the order of these three. -/
theorem lex_of_le {a a' b b' c c' : Nat} (ha : a' ≤ a) (hb : b' ≤ b) (hc : c' < c) :
    Prod.Lex (· < ·) (Prod.Lex (· < ·) (· < ·)) (a', b', c') (a, b, c) := by
  rcases Nat.lt_or_eq_of_le ha with h | rfl
  · exact .left _ _ h
  · rcases Nat.lt_or_eq_of_le hb with h | rfl
    · exact .right _ (.left _ _ h)
    · exact .right _ (.right _ hc)

/-! ### Loading -/

/-- The thread of a loader that is used by one thread only. -/
def mainThread : ThreadId := 0

namespace Loader

mutual

def loadRun (env : Environment) (s : Loader) (name : String) : Run env.names s LoadError ClassId :=
  match hs : s.slot? name with
  | some (.done result) => ⟨(result, s), .refl ..⟩
  | some .loading => ⟨(.error (.circular name), s), .refl ..⟩
  | none =>
    match hb : Blueprint.ofName env.search name with
    | .error e =>
      ⟨((s.acquire mainThread name).noteLookup name).complete name s.slots.size (.error e),
        .complete hs (.refl ..) nofun⟩
    | .ok plan =>
      let deps := loadAllRun env ((s.acquire mainThread name).noteLookup name) plan.dependencies
      ⟨deps.val.2.complete name s.slots.size
          (deps.val.1.bind (plan.build env.config deps.val.2.classes name)),
        .complete hs deps.property fun c hc hu => by
          cases hd : deps.val.1 with
          | error e => simp [hd, Except.bind] at hc
          | ok ids =>
            rw [hd] at hc
            exact Blueprint.mem_names_of_build hb hc hu⟩
termination_by (s.available env.names, 2 * rank name, 0)
decreasing_by
  rcases Blueprint.maxRank_dependencies_lt hb with hm | hr
  · exact .left _ _ (available_acquire_lt hs hm)
  · have hle : ((s.acquire mainThread name).noteLookup name).available env.names ≤
        s.available env.names := ((Keeps.acquire hs).trans .noteLookup).available_le
    rcases Nat.lt_or_eq_of_le hle with h | h
    · exact .left _ _ h
    · rw [h]
      exact .right _ (.left _ _ (by omega))

def loadAllRun (env : Environment) (s : Loader) :
    (names : List String) → Run env.names s LoadError (List ClassId)
  | [] => ⟨(.ok [], s), .refl ..⟩
  | name :: rest =>
    match loadRun env s name with
    | ⟨(.error e, t), h⟩ => ⟨(.error e, t), h⟩
    | ⟨(.ok id, t), h⟩ =>
      let more := loadAllRun env t rest
      ⟨(more.val.1.map (id :: ·), more.val.2), h.trans more.property⟩
termination_by names => (s.available env.names, 2 * maxRank names + 1, names.length)
decreasing_by
  · have := rank_le_maxRank name rest
    exact .right _ (.left _ _ (by omega))
  · have := maxRank_le_maxRank name rest
    exact lex_of_le h.available_le (by omega) (by simp)

end

/-- Loads the class of a name, unless it is loaded already. -/
def load (env : Environment) (s : Loader) (name : String) : Except LoadError ClassId × Loader :=
  (s.loadRun env name).val

/-- Loads classes in order, up to the first that fails. -/
def loadAll (env : Environment) (s : Loader) (names : List String) :
    Except LoadError (List ClassId) × Loader :=
  (s.loadAllRun env names).val

theorem load_keeps (env : Environment) (s : Loader) (name : String) :
    s.Keeps env.names (s.load env name).2 := (s.loadRun env name).property

/-! ### How a load goes -/

theorem load_of_done {env : Environment} {s : Loader} {name : String}
    {r : Except LoadError ClassId} (h : s.slot? name = some (.done r)) :
    s.load env name = (r, s) := by
  rw [load, loadRun]
  split <;> simp_all

theorem load_of_loading {env : Environment} {s : Loader} {name : String}
    (h : s.slot? name = some .loading) : s.load env name = (.error (.circular name), s) := by
  rw [load, loadRun]
  split <;> simp_all

theorem load_of_blueprint_error {env : Environment} {s : Loader} {name : String} {e : LoadError}
    (h : s.slot? name = none) (hb : Blueprint.ofName env.search name = .error e) :
    s.load env name =
      ((s.acquire mainThread name).noteLookup name).complete name s.slots.size (.error e) := by
  rw [load, loadRun]
  split
  · simp_all
  · simp_all
  · split <;> simp_all

theorem load_of_blueprint {env : Environment} {s : Loader} {name : String} {plan : Blueprint}
    (h : s.slot? name = none) (hb : Blueprint.ofName env.search name = .ok plan) :
    s.load env name =
      let deps := ((s.acquire mainThread name).noteLookup name).loadAll env plan.dependencies
      deps.2.complete name s.slots.size
        (deps.1.bind (plan.build env.config deps.2.classes name)) := by
  rw [load, loadRun]
  split
  · simp_all
  · simp_all
  · split
    · simp_all
    · next p hp =>
      rw [hb] at hp
      cases hp
      rfl

@[simp] theorem loadAll_nil (env : Environment) (s : Loader) : s.loadAll env [] = (.ok [], s) := by
  rw [loadAll, loadAllRun]

theorem loadAll_cons (env : Environment) (s : Loader) (name : String) (rest : List String) :
    s.loadAll env (name :: rest) =
      match s.load env name with
      | (.error e, t) => (.error e, t)
      | (.ok id, t) =>
        ((t.loadAll env rest).1.map (id :: ·), (t.loadAll env rest).2) := by
  rw [loadAll, loadAllRun, load]
  split <;> simp_all [loadAll]

end Loader

end ClassLoading
