import ClassLoading.Archive.Zip
import ClassLoading.ClassPath.Root
import ClassLoading.Files.Path
import ClassLoading.Files.Tree

/-! Class files that a class path offers, before any of them is read. A candidate has a logical
name, the slash-separated path of the class file without its extension, and a place to read it
from. -/
namespace ClassLoading

inductive Source where
  | file (path : String)
  | entry (archive name : String)
  deriving DecidableEq, Repr, Inhabited

structure Candidate where
  kind : RootKind
  name : String
  source : Source
  deriving DecidableEq, Repr, Inhabited

/-- Why bytes could not be read. -/
inductive ReadFault where
  | missing
  | notAFile
  | corrupt
  | checksum
  | broken
  deriving DecidableEq, Repr, Inhabited

def ReadFault.message : ReadFault → String
  | .missing => "No such file or directory (os error 2)"
  | .notAFile => "Is a directory (os error 21)"
  | .corrupt => "corrupt deflate stream"
  | .checksum => "Invalid checksum"
  | .broken => "broken"

/-- Why an archive or one of its entries could not be opened. -/
inductive ArchiveFault where
  | notAnArchive
  | noSuchEntry
  | unsupported
  deriving DecidableEq, Repr, Inhabited

def ArchiveFault.message : ArchiveFault → String
  | .notAnArchive => "invalid Zip archive: Could not find EOCD"
  | .noSuchEntry => "specified file not found in archive"
  | .unsupported => "unsupported Zip archive: Compression method not supported"

inductive SearchError where
  | notFound (name : String)
  | unreadable (path : String) (fault : ReadFault)
  | archive (path : String) (fault : ArchiveFault)
  deriving DecidableEq, Repr, Inhabited

def SearchError.message : SearchError → String
  | .notFound name => "class " ++ name ++ " not found on the class path"
  | .unreadable path fault => "failed to read " ++ path ++ ": " ++ fault.message
  | .archive path fault => "failed to read archive " ++ path ++ ": " ++ fault.message

namespace FileTree

/-- The contents of the file at a path; a directory has none. -/
def read (tree : FileTree) (path : String) : Except SearchError (List UInt8) :=
  match (tree.resolve? path).bind tree.node? with
  | some (.file bytes) => .ok bytes
  | some _ => .error (.unreadable path .notAFile)
  | none => .error (.unreadable path .missing)

/-- The data of an archive and its entries. A directory can be opened but is no archive. -/
def openArchive (tree : FileTree) (path : String) :
    Except SearchError (Array UInt8 × List Zip.Entry) :=
  match (tree.resolve? path).bind tree.node? with
  | none => .error (.unreadable path .missing)
  | some (.file bytes) =>
    match Zip.entries? bytes.toArray with
    | some entries => .ok (bytes.toArray, entries)
    | none => .error (.archive path .notAnArchive)
  | some _ => .error (.archive path .notAnArchive)

def readEntry (tree : FileTree) (path name : String) : Except SearchError (List UInt8) := do
  let (data, entries) ← tree.openArchive path
  match entries.find? (·.name == name) with
  | none => throw (.archive path .noSuchEntry)
  | some entry =>
    if !entry.isReadable then throw (.archive path .unsupported)
    match entry.contents data with
    | .ok bytes => return bytes
    | .error .corrupt => throw (.unreadable (Path.join path name) .corrupt)
    | .error .checksum => throw (.unreadable (Path.join path name) .checksum)

end FileTree

namespace Candidate

def read (tree : FileTree) (candidate : Candidate) : Except SearchError (List UInt8) :=
  match candidate.source with
  | .file path => tree.read path
  | .entry archive name => tree.readEntry archive name

/-- Whether a candidate may hold a class. An archive entry has exactly the class's name; a loose
file may lie below further directories. -/
def fits (candidate : Candidate) (name : String) : Bool :=
  candidate.name == name ||
    match candidate.source with
    | .entry _ _ => false
    | .file _ => ('/' :: name.toList).isSuffixOf candidate.name.toList

end Candidate

end ClassLoading
