import ClassLoading.ClassPath.Warning
import ClassLoading.CommandLine.Options
import ClassLoading.Loader.Requests

/-! The command: it loads the named classes one after the other with a single loader, prints a
summary of each, and reports those that fail. Next to its errors it shows the log, which has the
warnings of every search of the class path. How a line of the log is dressed up, with the time and
the place it comes from, is left out, and so are the lines that are shown on demand only. -/
namespace ClassLoading.CommandLine

/-- What is noted besides the output: that the class path has been searched for a class, with the
warnings that this left in the log, or an error. -/
inductive Notice where
  | searched (name : String) (warnings : List Warning)
  | failure (error : LoadError)
  | misuse (error : UsageError)
  deriving DecidableEq, Repr, Inhabited

def Notice.isError : Notice → Bool
  | .searched _ _ => false
  | .failure _ | .misuse _ => true

def Notice.lines : Notice → List String
  | .searched _ warnings => warnings.map ("WARN " ++ ·.message)
  | .failure error => ["Error: " ++ String.intercalate ": " error.chain]
  | .misuse error => ["error: " ++ error.message]

/-- Lines as they are printed. -/
def printed (lines : List String) : String := String.join (lines.map (· ++ "\n"))

/-- What a run of the command leaves behind. -/
structure Outcome where
  code : Nat
  output : String
  notices : List Notice
  deriving DecidableEq, Repr, Inhabited

namespace Outcome

/-- What is printed besides the output when the log is turned off. -/
def errors (outcome : Outcome) : String :=
  printed ((outcome.notices.filter Notice.isError).flatMap Notice.lines)

/-- What is printed besides the output. -/
def diagnostics (outcome : Outcome) : String := printed (outcome.notices.flatMap Notice.lines)

/-- A run before which something has been noted. -/
def after (first : List Notice) (outcome : Outcome) : Outcome :=
  { outcome with notices := first ++ outcome.notices }

end Outcome

def helpText : String :=
  "Load and link classes from a class path\n\nUsage: java [OPTIONS] <CLASS>...\n\nArguments:\n" ++
  "  <CLASS>...  Classes to load, as internal (`java/lang/String`) or binary " ++
  "(`java.lang.String`) names\n\nOptions:\n" ++
  "      --bootclasspath <PATHS>  Bootstrap class path, searched first (defaults to " ++
  "$JVM_BOOTCLASSPATH)\n" ++
  "      --extdirs <PATHS>        Extension directories (defaults to $JVM_EXTDIRS)\n" ++
  "  -c, --classpath <PATHS>      User class path (defaults to $CLASSPATH)\n" ++
  "      --init                   Run static initializers of the named classes\n" ++
  "  -h, --help                   Print help\n"

/-! ### Summaries -/

def fieldLine (field : LoadedField) : String :=
  let storage := if field.isStatic then "static" else "instance"
  "  field " ++ field.name ++ " " ++ field.type.descriptor ++ " (" ++ storage ++ " slot " ++
    toString field.slot ++ ")"

def methodLine (method : LoadedMethod) : String :=
  let length := (method.code.map (·.code.length)).getD 0
  "  method " ++ method.name ++ method.type.descriptor ++ " (" ++ toString length ++
    " bytes of code)"

/-- The lines that describe a class whose supertypes stand in the table. -/
def summary (classes : ClassTable) (c : LoadedClass) : List String :=
  let binaryNames (ids : List ClassId) : List String :=
    ids.filterMap fun id => classes[id]?.map (·.binaryName)
  [c.binaryName ++ " (" ++ FlagTable.classes.describe c.flags ++ ")"] ++
  (binaryNames c.superClass.toList).map ("  extends " ++ ·) ++
  (binaryNames c.interfaces).map ("  implements " ++ ·) ++
  ["  version " ++ toString c.major.toNat ++ "." ++ toString c.minor.toNat ++ ", state " ++
      c.stage.label,
    "  " ++ toString c.instanceSlots ++ " instance slots, " ++ toString c.statics.size ++
      " static fields"] ++
  c.fields.map fieldLine ++ c.methods.map methodLine

/-! ### Runs -/

/-- Loads one class, named in the dotted or in the slashed spelling. -/
def loadNamed (env : Environment) (s : Loader) (name : String) (run : Bool) :
    Except LoadError LoadedClass × Loader :=
  match s.forName env (Text.replace '/' '.' name) run with
  | (.error e, t) => (.error e, t)
  | (.ok object, t) =>
    match t.objects[object]?.bind (t.classes[·.entity]?) with
    | some c => (.ok c, t)
    | none => (.error (.notFound name), t)

/-- Searches for classes, where the warnings of each search are given. -/
def searches (log : String → List Warning) (names : List String) : List Notice :=
  names.map fun name => .searched name (log name)

/-- The searches that a loader has made since it was another. -/
def searchesSince (log : String → List Warning) (s t : Loader) : List Notice :=
  searches log (t.lookups.drop s.lookups.length)

/-- Loads classes in order. Failures do not keep the others from being loaded. -/
def loadEach (env : Environment) (log : String → List Warning) (run : Bool) :
    Loader → List String → Outcome
  | _, [] => ⟨0, "", []⟩
  | s, name :: rest =>
    let (result, t) := loadNamed env s name run
    let more := loadEach env log run t rest
    match result with
    | .ok c =>
      ⟨more.code, printed (summary t.classes c) ++ more.output,
        searchesSince log s t ++ more.notices⟩
    | .error e => ⟨1, more.output, searchesSince log s t ++ .failure e :: more.notices⟩

/-- What the loader of a run is set up with. The static initializers themselves are left out. -/
def Options.environment (options : Options) (tree : FileTree) (settings : Variables) :
    Environment where
  config := { LoaderConfig.standard with classPath := options.classPath settings }
  search := .disk tree (options.classPath settings)
  initializer := .skip

/-- A run with the given options. It begins with the searches of getting ready, even where the
loader does not get ready. -/
def load (tree : FileTree) (settings : Variables) (options : Options) : Outcome :=
  let env := options.environment tree settings
  let log := (options.classPath settings).warnings tree
  let opening := searches log (Loader.bootstrapLookups env)
  match Loader.bootstrap env with
  | .error e => ⟨1, "", opening ++ [.failure e]⟩
  | .ok s => (loadEach env log options.run s options.classes).after opening

def run (tree : FileTree) (settings : Variables) (arguments : List String) : Outcome :=
  match parse arguments with
  | .error e => ⟨2, "", [.misuse e]⟩
  | .ok .help => ⟨0, helpText, []⟩
  | .ok (.load options) => load tree settings options

end ClassLoading.CommandLine
