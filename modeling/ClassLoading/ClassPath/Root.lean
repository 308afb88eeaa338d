import ClassLoading.Text.Split

/-! The class path: directories and archives in the order in which they are searched. Bootstrap
roots come before extension roots and those before user roots; within a kind the roots keep the
order in which they were added. -/
namespace ClassLoading

inductive RootKind where
  | bootstrap
  | extension
  | user
  deriving DecidableEq, Repr, Inhabited

namespace RootKind

def rank : RootKind → Nat
  | .bootstrap => 0
  | .extension => 1
  | .user => 2

def all : List RootKind := [.bootstrap, .extension, .user]

/-- The environment variable that lists the roots of a kind. -/
def variableName : RootKind → String
  | .bootstrap => "JVM_BOOTCLASSPATH"
  | .extension => "JVM_EXTDIRS"
  | .user => "CLASSPATH"

end RootKind

structure Root where
  kind : RootKind
  /-- A directory, searched with all below it, or an archive. -/
  path : String
  deriving DecidableEq, Repr, Inhabited

structure ClassPath where
  roots : List Root
  deriving DecidableEq, Repr, Inhabited

/-- Environment variables with their values. -/
abbrev Variables := List (String × String)

namespace ClassPath

def empty : ClassPath := ⟨[]⟩

/-- Adds a root behind every root of its own or an earlier kind. -/
def push (classPath : ClassPath) (kind : RootKind) (path : String) : ClassPath :=
  let before := fun (root : Root) => decide (root.kind.rank ≤ kind.rank)
  ⟨classPath.roots.takeWhile before ++ ⟨kind, path⟩ :: classPath.roots.dropWhile before⟩

/-- The entries of a search path: texts between colons, the empty ones left out. -/
def searchPathEntries (text : String) : List String :=
  (Text.split ':' text).filter (· ≠ "")

def pushSearchPath (classPath : ClassPath) (kind : RootKind) (text : String) : ClassPath :=
  (searchPathEntries text).foldl (·.push kind ·) classPath

/-- The class path that the environment gives; a missing variable gives no roots. -/
def ofVariables (settings : Variables) : ClassPath :=
  RootKind.all.foldl (fun classPath kind =>
    match settings.lookup kind.variableName with
    | some text => classPath.pushSearchPath kind text
    | none => classPath) empty

/-- The class path of explicit search paths, one for each kind at most; a kind without one keeps
the roots the environment gives it. -/
def ofSearchPaths (given : RootKind → Option String) (settings : Variables) : ClassPath :=
  RootKind.all.foldl (fun classPath kind =>
    match given kind with
    | some text => classPath.pushSearchPath kind text
    | none =>
      ((ofVariables settings).roots.filter (·.kind = kind)).foldl
        (fun classPath root => classPath.push kind root.path) classPath) empty

end ClassPath

end ClassLoading
