import ClassLoading.ClassPath.Candidate

/-! The walk over a class path. Roots are taken in order and directories depth first; a directory is
entered the first time one of its paths comes up and passed over from then on, so loops of links
end and every directory serves the first root that reaches it. -/
namespace ClassLoading

/-- A path that the walk has still to look at: the root's kind, the path's spelling, and the names
that lead to it from the root. -/
structure Pending where
  kind : RootKind
  path : String
  names : List String
  deriving DecidableEq, Repr, Inhabited

namespace Pending

def ofRoot (root : Root) : Pending := ⟨root.kind, root.path, []⟩

def child (pending : Pending) (name : String) : Pending :=
  ⟨pending.kind, Path.join pending.path name, pending.names ++ [name]⟩

end Pending

/-- The name of a class file's entry without its extension. -/
def Zip.Entry.className? (entry : Zip.Entry) : Option String :=
  if ".class".toList.isSuffixOf entry.name.toList then
    some (String.ofList (entry.name.toList.take (entry.name.length - 6)))
  else none

/-- The candidates of an archive, in the order of its entries; none when it cannot be opened. -/
def archiveCandidates (tree : FileTree) (kind : RootKind) (path : String) : List Candidate :=
  match tree.openArchive path with
  | .error _ => []
  | .ok (_, entries) => entries.filterMap fun entry =>
      entry.className?.map fun name => ⟨kind, name, .entry path entry.name⟩

/-- The candidates of a path that is no directory. A file that is a root counts as an archive;
below a root the extension decides. -/
def Pending.candidates (tree : FileTree) (pending : Pending) : List Candidate :=
  if (tree.bytes? pending.path).isNone then []
  else match pending.names.getLast? with
    | none => archiveCandidates tree pending.kind pending.path
    | some name =>
      match Path.splitExtension name with
      | (_, some "jar") => archiveCandidates tree pending.kind pending.path
      | (stem, some "class") =>
        [⟨pending.kind, Path.logicalName pending.names.dropLast stem, .file pending.path⟩]
      | _ => []

/-- The directories that the walk has not entered. -/
def FileTree.unvisited (tree : FileTree) (visited : List Location) : List Location :=
  tree.directories.filter fun location => decide (location ∉ visited)

theorem FileTree.unvisited_cons_length_lt {tree : FileTree} {visited : List Location}
    {location : Location} (h : location ∈ tree.directories) (hv : location ∉ visited) :
    (tree.unvisited (location :: visited)).length < (tree.unvisited visited).length := by
  have hsub : tree.unvisited (location :: visited) =
      (tree.unvisited visited).filter (fun l => decide (l ≠ location)) := by
    simp only [unvisited, List.filter_filter]
    refine List.filter_congr fun l _ => ?_
    simp
  rw [hsub]
  refine List.length_filter_lt_length_iff_exists.2 ⟨location, ?_, by simp⟩
  exact List.mem_filter.2 ⟨h, by simpa using hv⟩

/-- The paths that are no directories, in the order of the walk. -/
def FileTree.passedFrom (tree : FileTree) (visited : List Location) : List Pending → List Pending
  | [] => []
  | pending :: rest =>
    match h : tree.directory? pending.path with
    | none => pending :: tree.passedFrom visited rest
    | some location =>
      if hv : location ∈ visited then tree.passedFrom visited rest
      else
        have := unvisited_cons_length_lt (FileTree.directory?_mem h) hv
        tree.passedFrom (location :: visited)
          ((tree.entries location).map pending.child ++ rest)
termination_by todo => ((tree.unvisited visited).length, todo.length)

/-- The paths that the walk over a class path comes to and that are no directories. -/
def ClassPath.passed (tree : FileTree) (classPath : ClassPath) : List Pending :=
  tree.passedFrom [] (classPath.roots.map Pending.ofRoot)

/-- Every class file that the roots of a class path offer, in the order of the search. -/
def ClassPath.candidates (tree : FileTree) (classPath : ClassPath) : List Candidate :=
  (classPath.passed tree).flatMap (Pending.candidates tree)

end ClassLoading
