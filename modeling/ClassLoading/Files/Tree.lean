import ClassLoading.Text.Split

/-! A finite tree of directories, files and symbolic links, and the resolution of paths in it. A
node is known by its location, the names on the way to it from the root with the innermost first;
a location whose way holds no link is what a path resolves to. Resolution follows at most
`linkLimit` links, so a loop of links leads nowhere. -/
namespace ClassLoading

abbrev Location := List String

inductive Node where
  | file (bytes : List UInt8)
  | directory
  | link (target : String)
  deriving DecidableEq, Repr, Inhabited

structure FileTree where
  nodes : List (Location × Node)
  /-- Where relative paths start. -/
  working : Location
  deriving Repr, Inhabited

namespace FileTree

def linkLimit : Nat := 40

def node? (tree : FileTree) (location : Location) : Option Node :=
  if location = [] then some .directory else tree.nodes.lookup location

/-- Every directory of the tree, the root first. -/
def directories (tree : FileTree) : List Location :=
  [] :: (tree.nodes.filter fun entry => entry.2 == .directory).map (·.1)

/-- The names that stand in a directory. -/
def entries (tree : FileTree) (directory : Location) : List String :=
  tree.nodes.filterMap fun (location, _) =>
    match location with
    | [] => none
    | name :: parent => if parent = directory then some name else none

/-- Where a path starts, given the directory that a relative one starts in. -/
def origin (path : String) (directory : Location) : Location :=
  if path.toList.head? = some '/' then [] else directory

/-- Follows names from a directory. A file can only come last, so a path that goes on behind a
file, be it by a mere slash, leads nowhere. -/
def walk (tree : FileTree) (links : Nat) (location : Location) : List String → Option Location
  | [] => some location
  | name :: rest =>
    if name = "" ∨ name = "." then tree.walk links location rest
    else if name = ".." then tree.walk links location.tail rest
    else match tree.node? (name :: location) with
      | none => none
      | some .directory => tree.walk links (name :: location) rest
      | some (.file _) => if rest.isEmpty then some (name :: location) else none
      | some (.link target) =>
        match links with
        | 0 => none
        | links + 1 =>
          tree.walk links (origin target location) (Text.split '/' target ++ rest)
termination_by names => (links, names.length)

/-- The location a path leads to once its links are followed. -/
def resolve? (tree : FileTree) (path : String) : Option Location :=
  if path = "" then none
  else tree.walk linkLimit (origin path tree.working) (Text.split '/' path)

/-- The directory a path leads to. -/
def directory? (tree : FileTree) (path : String) : Option Location :=
  (tree.resolve? path).filter fun location => tree.node? location == some .directory

/-- The contents of the file a path leads to. -/
def bytes? (tree : FileTree) (path : String) : Option (List UInt8) :=
  match (tree.resolve? path).bind tree.node? with
  | some (.file bytes) => some bytes
  | _ => none

theorem mem_directories {tree : FileTree} {location : Location}
    (h : tree.node? location = some .directory) : location ∈ tree.directories := by
  unfold node? at h
  split at h
  · next hl => simp [directories, hl]
  · refine List.mem_cons_of_mem _ (List.mem_map.2 ⟨(location, .directory), ?_, rfl⟩)
    refine List.mem_filter.2 ⟨?_, by simp⟩
    obtain ⟨l₁, l₂, hn, _⟩ := List.lookup_eq_some_iff.1 h
    simp [hn]

theorem directory?_mem {tree : FileTree} {path : String} {location : Location}
    (h : tree.directory? path = some location) : location ∈ tree.directories := by
  obtain ⟨_, hd⟩ := Option.filter_eq_some_iff.1 h
  exact mem_directories (by simpa using hd)

/-! ### Laying out a tree -/

def empty : FileTree := ⟨[], []⟩

def insert (tree : FileTree) (location : Location) (node : Node) : FileTree :=
  { tree with nodes := tree.nodes.filter (fun entry => entry.1 != location) ++ [(location, node)] }

/-- Walks down some names and makes a directory of every name that leads nowhere. -/
def makeDirectories (tree : FileTree) (location : Location) :
    List String → FileTree × Location
  | [] => (tree, location)
  | name :: rest =>
    match tree.walk linkLimit location [name] with
    | some next => tree.makeDirectories next rest
    | none => (tree.insert (name :: location) .directory).makeDirectories (name :: location) rest

/-- Puts a node at a path, with the directories on the way to it. -/
def place (tree : FileTree) (path : String) (node : Node) : FileTree :=
  let names := Text.split '/' path
  let start := origin path tree.working
  match node, names.getLast? with
  | .directory, _ => (tree.makeDirectories start names).1
  | _, none => tree
  | node, some name =>
    let (tree, location) := tree.makeDirectories start names.dropLast
    tree.insert (name :: location) node

/-- The tree with its working directory moved into a new directory. -/
def workIn (tree : FileTree) (path : String) : FileTree :=
  let (tree, location) := tree.makeDirectories tree.working (Text.split '/' path)
  { tree with working := location }

end FileTree

end ClassLoading
