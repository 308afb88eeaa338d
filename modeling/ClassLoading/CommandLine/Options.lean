import ClassLoading.ClassPath.Root

/-! The arguments of the command. Options stand in any order among the class names until a double
dash; an option is given once at most, and the value of a search path is attached to its option or
is the next argument. Arguments are read from left to right, and the first that asks for help or
cannot be understood settles the matter. -/
namespace ClassLoading.CommandLine

structure Options where
  /-- Search paths that take the place of those in the environment. -/
  searchPaths : List (RootKind × String)
  /-- Whether the named classes are initialized as well. -/
  run : Bool
  classes : List String
  deriving DecidableEq, Repr, Inhabited

def Options.initial : Options := ⟨[], false, []⟩

inductive UsageError where
  | unknownOption (argument : String)
  | repeatedOption (option : String)
  | missingValue (option : String)
  | unexpectedValue (option : String)
  | noClass
  deriving DecidableEq, Repr, Inhabited

def UsageError.message : UsageError → String
  | .unknownOption argument => "unexpected argument '" ++ argument ++ "' found"
  | .repeatedOption option => "the argument '" ++ option ++ "' cannot be used multiple times"
  | .missingValue option => "a value is required for '" ++ option ++ "' but none was supplied"
  | .unexpectedValue option => "unexpected value for '" ++ option ++ "' found; no more were expected"
  | .noClass => "the following required arguments were not provided:\n  <CLASS>..."

inductive Invocation where
  | help
  | load (options : Options)
  deriving DecidableEq, Repr, Inhabited

/-! ### Single arguments -/

/-- What one argument means by itself. -/
inductive Argument where
  | className (name : String)
  | searchPath (kind : RootKind) (value : Option String)
  | run
  | help
  | endOfOptions
  | refused (error : UsageError)
  deriving DecidableEq, Repr, Inhabited

/-- The option that gives the search path of a kind. -/
def searchPathOption : RootKind → String
  | .bootstrap => "bootclasspath"
  | .extension => "extdirs"
  | .user => "classpath"

def runOption : String := "init"

def helpOption : String := "help"

/-- An option without a value, which takes none. -/
def plainOption (name : String) (value : Option String) (meaning : Argument) : Argument :=
  if value.isNone then meaning else .refused (.unexpectedValue ("--" ++ name))

def longOption (name : String) (value : Option String) : Argument :=
  match RootKind.all.find? (searchPathOption · = name) with
  | some kind => .searchPath kind value
  | none =>
    if name = runOption then plainOption name value .run
    else if name = helpOption then plainOption name value .help
    else .refused (.unknownOption ("--" ++ name))

/-- A value that stands behind a single letter, with or without an equals sign. -/
def attachedValue : List Char → Option String
  | [] => none
  | '=' :: value => some (String.ofList value)
  | value => some (String.ofList value)

def shortOption (letter : Char) (rest : List Char) : Argument :=
  if letter = 'c' then .searchPath .user (attachedValue rest)
  else if letter = 'h' then .help
  else .refused (.unknownOption ("-" ++ String.singleton letter))

def Argument.ofText (text : String) : Argument :=
  match text.toList with
  | ['-', '-'] => .endOfOptions
  | '-' :: '-' :: rest =>
    let name := String.ofList (rest.takeWhile (· != '='))
    match rest.dropWhile (· != '=') with
    | [] => longOption name none
    | _ :: value => longOption name (some (String.ofList value))
  | '-' :: letter :: rest => shortOption letter rest
  | _ => .className text

/-! ### All arguments -/

namespace Options

def setRun (options : Options) : Except UsageError Options :=
  if options.run then .error (.repeatedOption ("--" ++ runOption))
  else .ok { options with run := true }

def setSearchPath (options : Options) (kind : RootKind) (value : String) :
    Except UsageError Options :=
  if (options.searchPaths.lookup kind).isSome then
    .error (.repeatedOption ("--" ++ searchPathOption kind))
  else .ok { options with searchPaths := options.searchPaths ++ [(kind, value)] }

def addClasses (options : Options) (names : List String) : Options :=
  { options with classes := options.classes ++ names }

def finish (options : Options) : Except UsageError Invocation :=
  if options.classes.isEmpty then .error .noClass else .ok (.load options)

/-- Reads arguments on top of what is already known. -/
def read (options : Options) : List String → Except UsageError Invocation
  | [] => options.finish
  | text :: rest =>
    match Argument.ofText text with
    | .className name => (options.addClasses [name]).read rest
    | .endOfOptions => (options.addClasses rest).finish
    | .refused error => .error error
    | .help => .ok .help
    | .run =>
      match options.setRun with
      | .error error => .error error
      | .ok options => options.read rest
    | .searchPath kind (some value) =>
      match options.setSearchPath kind value with
      | .error error => .error error
      | .ok options => options.read rest
    | .searchPath kind none =>
      match rest with
      | [] => .error (.missingValue ("--" ++ searchPathOption kind))
      | value :: rest =>
        match Argument.ofText value with
        | .className value =>
          match options.setSearchPath kind value with
          | .error error => .error error
          | .ok options => options.read rest
        | _ => .error (.missingValue ("--" ++ searchPathOption kind))

end Options

def parse (arguments : List String) : Except UsageError Invocation := Options.initial.read arguments

/-- The class path of the options, with the environment for the kinds they leave out. -/
def Options.classPath (options : Options) (settings : Variables) : ClassPath :=
  .ofSearchPaths (fun kind => options.searchPaths.lookup kind) settings

end ClassLoading.CommandLine
