import ClassLoading.ClassPath.Search
import ClassLoading.Descriptor

/-! Why a class could not be loaded or initialized. Every error but a failed bootstrap names the
class that is at fault; those that pass on an error of a lower layer keep it as their cause. -/
namespace ClassLoading

/-- A structural rule that a class breaks. -/
inductive VerificationFault where
  | unsupportedVersion (major minor least greatest : UInt16)
  | superIsInterface (superName : String)
  | missingSuper
  | notAnInterface (name : String)
  deriving DecidableEq, Repr, Inhabited

def VerificationFault.message : VerificationFault → String
  | .unsupportedVersion major minor least greatest =>
    "unsupported class file version " ++ toString major.toNat ++ "." ++ toString minor.toNat ++
      " (supported major versions " ++ toString least.toNat ++ "..=" ++ toString greatest.toNat ++
      ")"
  | .superIsInterface name => "super class " ++ name ++ " is an interface"
  | .missingSuper => "missing super class"
  | .notAnInterface name => name ++ " is not an interface"

inductive LoadError where
  | notFound (name : String)
  | malformed (name : String) (cause : ParseError)
  | verification (name : String) (fault : VerificationFault)
  | circular (name : String)
  | unreadable (name : String) (cause : SearchError)
  | nameMismatch (requested found : String)
  | invalidDescriptor (name : String) (cause : DescriptorError)
  | badConstant (name : String) (cause : PoolError)
  | initialization (name : String) (reason : String)
  | bootstrap (cause : LoadError)
  deriving DecidableEq, Repr, Inhabited

namespace LoadError

def message : LoadError → String
  | .notFound name => "class " ++ name ++ " not found"
  | .malformed name _ => "failed to parse class " ++ name
  | .verification name fault => "class " ++ name ++ " failed verification: " ++ fault.message
  | .circular name => "circular dependency while loading " ++ name
  | .unreadable name _ => "failed to read class " ++ name
  | .nameMismatch requested found => "class file for " ++ requested ++ " defines " ++ found
  | .invalidDescriptor name _ => "invalid descriptor in class " ++ name
  | .badConstant name _ => "bad constant in class " ++ name
  | .initialization name reason => "initialization of " ++ name ++ " failed: " ++ reason
  | .bootstrap _ => "failed to bootstrap the class loader"

/-- The class an error is about. -/
def className? : LoadError → Option String
  | .notFound name | .malformed name _ | .verification name _ | .circular name
  | .unreadable name _ | .nameMismatch name _ | .invalidDescriptor name _ | .badConstant name _
  | .initialization name _ => some name
  | .bootstrap _ => none

/-- The messages of an error and of the errors behind it, outermost first. -/
def chain : LoadError → List String
  | .bootstrap cause => message (.bootstrap cause) :: cause.chain
  | .malformed name cause => [message (.malformed name cause), cause.message]
  | .unreadable name cause =>
    message (.unreadable name cause) :: cause.message :: match cause with
      | .notFound _ => []
      | .unreadable _ fault => [fault.message]
      | .archive _ fault => [fault.message]
  | .invalidDescriptor name cause => [message (.invalidDescriptor name cause), cause.message]
  | .badConstant name cause => [message (.badConstant name cause), cause.message]
  | e => [e.message]

def ofSearch (name : String) : SearchError → LoadError
  | .notFound _ => .notFound name
  | cause => .unreadable name cause

def ofParse (name : String) : ParseError → LoadError
  | .badConstant cause => .badConstant name cause
  | cause => .malformed name cause

end LoadError

end ClassLoading
