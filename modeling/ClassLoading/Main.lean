import ClassLoading.CommandLine.Run

/-! The program itself. It copies what the class path leads to into a file tree, hands the tree to
the command together with the arguments and the environment, and prints what comes back. -/
namespace ClassLoading.CommandLine

/-- The path without links, if it leads anywhere. -/
def realPath? (path : String) : IO (Option String) := do
  try
    let real ← IO.FS.realPath path
    if ← real.pathExists then return some real.toString else return none
  catch _ => return none

def isDirectory (path : String) : IO Bool := do (← IO.FS.realPath path).isDir

/-- Copies a name that stands in a directory, given by its real path, and gives the real path that
the name leads to. -/
def copyName (tree : FileTree) (directory name : String) : IO (FileTree × Option String) := do
  let path := Path.join directory name
  match ← realPath? path with
  | none => return (tree, none)
  | some real =>
    let node ← if ← isDirectory real then pure Node.directory
      else Node.file <$> (·.toList) <$> IO.FS.readBinFile real
    let tree := tree.place real node
    return (if real = path then tree else tree.place path (.link real), some real)

/-- Copies the names of a path in turn, and gives the real path that it leads to. -/
def copyPath (tree : FileTree) (directory : String) :
    List String → IO (FileTree × Option String)
  | [] => return (tree, some directory)
  | name :: rest => do
    if name = "" ∨ name = "." then return ← copyPath tree directory rest
    let (tree, real?) ← if name = ".." then pure (tree, ← realPath? (Path.join directory ".."))
      else copyName tree directory name
    match real? with
    | none => return (tree, none)
    | some real => copyPath tree real rest

/-- Copies everything below some directories. -/
def copyDirectories (tree : FileTree) (directories : List String) : IO FileTree := do
  let mut tree := tree
  let mut todo := directories
  let mut visited : List String := []
  while true do
    match todo with
    | [] => break
    | directory :: rest =>
      todo := rest
      if visited.contains directory then continue
      visited := directory :: visited
      for entry in ← (← IO.FS.realPath directory).readDir do
        let (copied, real?) ← copyName tree directory entry.fileName
        tree := copied
        if let some real := real? then
          if ← isDirectory real then todo := real :: todo
  return tree

/-- The part of the disk that some paths lead to. -/
def copyDisk (paths : List String) : IO FileTree := do
  let working := (← IO.FS.realPath ".").toString
  let mut tree := FileTree.empty.workIn working
  let mut directories : List String := []
  for path in paths do
    let start := if path.toList.head? = some '/' then "/" else working
    let (copied, real?) ← copyPath tree start (Text.split '/' path)
    tree := copied
    if let some real := real? then
      if ← isDirectory real then directories := directories ++ [real]
  copyDirectories tree directories

end ClassLoading.CommandLine

open ClassLoading CommandLine in
def main (arguments : List String) : IO UInt32 := do
  let values ← RootKind.all.mapM fun kind => do
    return (kind.variableName, ← IO.getEnv kind.variableName)
  let settings : Variables := values.filterMap fun (name, value) => value.map (name, ·)
  let classPath := match parse arguments with
    | .ok (.load options) => options.classPath settings
    | _ => ClassPath.empty
  let tree ← copyDisk (classPath.roots.map (·.path))
  let outcome := CommandLine.run tree settings arguments
  IO.print outcome.output
  IO.eprint outcome.diagnostics
  return outcome.code.toUInt32
