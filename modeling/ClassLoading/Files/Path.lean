import ClassLoading.Text.Split

/-! Spelling of paths. Paths are texts with `/` between their names; a walk spells each file it
finds by joining names to the path it started from, so the spelling shows the way taken. -/
namespace ClassLoading.Path

/-- A path followed by a name or relative path; an absolute one stands for itself. -/
def join (base name : String) : String :=
  if name.toList.head? = some '/' then name
  else if base = "" then name
  else if base.toList.getLast? = some '/' then base ++ name
  else base ++ "/" ++ name

/-- A file name cut at its last dot. A name that starts with its only dot has no extension. -/
def splitExtension (name : String) : String × Option String :=
  let reversed := name.toList.reverse
  match reversed.dropWhile (· != '.') with
  | [] | [_] => (name, none)
  | _ :: stem =>
    (String.ofList stem.reverse, some (String.ofList (reversed.takeWhile (· != '.')).reverse))

/-- The names of a relative path with the extension of its last one dropped, joined again. A stem
that is a single dot says nothing behind a directory. -/
def logicalName (directories : List String) (stem : String) : String :=
  String.intercalate "/"
    (if stem = "." ∧ directories ≠ [] then directories else directories ++ [stem])

end ClassLoading.Path
