import Mathlib.Data.List.Basic
import Mathlib.Data.List.Flatten
import ClassLoading.CommandLine.Run

/-! What several runs of the command leave behind together. Runs that are made one after the other
print what each of them prints, in order, and fail if one of them has failed. A run that does the
work of all of them repeats some of their searches and spares itself the others: those for classes
that it keeps once it has found them. -/
namespace ClassLoading.CommandLine

/-- The class that has been searched for. -/
def Notice.searched? : Notice → Option String
  | .searched name _ => some name
  | .failure _ | .misuse _ => none

section

variable {once : String → Prop} [DecidablePred once] {seen seen' found : List String}
  {notices : List Notice} {log : String → List Warning}

/-- Leaves out the searches for classes that need to be searched for but once and have been searched
for before, in these notices or in what they follow. -/
def dropRepeats (once : String → Prop) [DecidablePred once] (seen : List String) :
    List Notice → List Notice
  | [] => []
  | .searched name warnings :: rest =>
    if name ∈ seen ∧ once name then dropRepeats once seen rest
    else .searched name warnings :: dropRepeats once (name :: seen) rest
  | .failure e :: rest => .failure e :: dropRepeats once seen rest
  | .misuse e :: rest => .misuse e :: dropRepeats once seen rest

end

namespace Outcome

variable {once : String → Prop} [DecidablePred once] {o p : Outcome} {os : List Outcome}

/-- A run without its repeated searches, where some classes may have been searched for before. -/
def dropRepeats (once : String → Prop) [DecidablePred once] (seen : List String) (o : Outcome) :
    Outcome :=
  { o with notices := CommandLine.dropRepeats once seen o.notices }

end Outcome

end ClassLoading.CommandLine
