import ClassLoading.ClassPath.Search
import ClassLoading.Text.Quoted

/-! What a search says in the log. The walk passes over archives that cannot be opened and the
search over candidates that cannot be read, each with a warning. A search ends the walk as soon as
it is settled, so nothing is said of what lies behind; and since every search walks anew, what it
meets again it says again. Only warnings are kept here, the other lines of the log are not shown
unless they are asked for. -/
namespace ClassLoading

inductive Warning where
  | archive (path : String) (fault : ArchiveFault)
  | candidate (source : Source) (error : SearchError)
  deriving DecidableEq, Repr, Inhabited

def Source.description : Source → String
  | .file path => "File(" ++ Text.quoted path ++ ")"
  | .entry archive name =>
    "ArchiveEntry \x7b archive: " ++ Text.quoted archive ++ ", entry: " ++ Text.quoted name ++
      " \x7d"

def Warning.message : Warning → String
  | .archive path fault => "skipping unreadable archive " ++ path ++ ": " ++ fault.message
  | .candidate source error => "skipping " ++ source.description ++ ": " ++ error.message

/-! ### The walk -/

/-- Whether a path that is no directory is opened as an archive. -/
def Pending.isArchive (tree : FileTree) (pending : Pending) : Bool :=
  (tree.bytes? pending.path).isSome &&
    match pending.names.getLast? with
    | none => true
    | some name => (Path.splitExtension name).2 == some "jar"

/-- The warning that the walk gives when it comes to a path. -/
def Pending.warning? (tree : FileTree) (pending : Pending) : Option Warning :=
  if pending.isArchive tree then
    match tree.openArchive pending.path with
    | .error (.archive _ fault) => some (.archive pending.path fault)
    | _ => none
  else none

/-- What the walk comes upon. -/
inductive Find where
  | offered (candidate : Candidate)
  | skipped (warning : Warning)
  deriving DecidableEq, Repr, Inhabited

def Find.candidate? : Find → Option Candidate
  | .offered candidate => some candidate
  | .skipped _ => none

def Pending.finds (tree : FileTree) (pending : Pending) : List Find :=
  (pending.warning? tree).toList.map .skipped ++ (pending.candidates tree).map .offered

def ClassPath.finds (tree : FileTree) (classPath : ClassPath) : List Find :=
  (classPath.passed tree).flatMap (Pending.finds tree)

theorem Pending.filterMap_finds (tree : FileTree) (pending : Pending) :
    (pending.finds tree).filterMap Find.candidate? = pending.candidates tree := by
  simp [finds, List.filterMap_map, Function.comp_def, Find.candidate?]

theorem ClassPath.filterMap_finds (tree : FileTree) (classPath : ClassPath) :
    (classPath.finds tree).filterMap Find.candidate? = classPath.candidates tree := by
  simp only [finds, candidates, List.filterMap_flatMap, Pending.filterMap_finds]

/-! ### The search -/

/-- The search for a class among the finds of the walk, with what it says in the log. -/
def locateLogged (tree : FileTree) (name : String) :
    List Find → List Warning × Except SearchError (Candidate × List UInt8)
  | [] => ([], .error (.notFound name))
  | .skipped warning :: rest =>
    let (more, result) := locateLogged tree name rest
    (warning :: more, result)
  | .offered candidate :: rest =>
    if candidate.name = name then ([], (candidate.read tree).map fun bytes => (candidate, bytes))
    else if candidate.fits name then
      match candidate.read tree with
      | .ok bytes =>
        if declares bytes name then ([], .ok (candidate, bytes)) else locateLogged tree name rest
      | .error e =>
        let (more, result) := locateLogged tree name rest
        (.candidate candidate.source e :: more, result)
    else locateLogged tree name rest

/-- The log changes nothing of the answer. -/
theorem locateLogged_snd (tree : FileTree) (name : String) (finds : List Find) :
    (locateLogged tree name finds).2 = locate tree name (finds.filterMap Find.candidate?) := by
  fun_induction locateLogged tree name finds with
  | case1 => rfl
  | case2 warning rest more result heq ih =>
    rw [heq] at ih
    exact ih
  | case3 candidate rest hname => simp [Find.candidate?, locate, hname]
  | case4 candidate rest hname hfits bytes hread hdeclares =>
    simp [Find.candidate?, locate, hname, hfits, hread, hdeclares]
  | case5 candidate rest hname hfits bytes hread hdeclares ih =>
    simp [Find.candidate?, locate, hname, hfits, hread, hdeclares, ih]
  | case6 candidate rest hname hfits e hread more result heq ih =>
    simpa [Find.candidate?, locate, hname, hfits, hread, heq] using ih
  | case7 candidate rest hname hfits ih => simp [Find.candidate?, locate, hname, hfits, ih]

/-- What the search of a class path for a class says in the log. -/
def ClassPath.warnings (tree : FileTree) (classPath : ClassPath) (name : String) : List Warning :=
  (locateLogged tree name (classPath.finds tree)).1

end ClassLoading
