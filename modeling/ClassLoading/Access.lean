/-! Access flags of classes, fields and methods: the masks, the tests the loader makes, and the
text of a flag word. Known flags are named in the order of their table; what is left of the word
follows as one hexadecimal number. -/
namespace ClassLoading

/-- Lower-case hexadecimal digits without padding. -/
def hexDigits (n : Nat) : String := String.ofList (Nat.toDigits 16 n)

/-- The flags that one kind of declaration knows. -/
structure FlagTable where
  label : String
  flags : List (String × UInt16)

namespace FlagTable

def classes : FlagTable where
  label := "ClassAccessFlag"
  flags := [("PUBLIC", 0x0001), ("FINAL", 0x0010), ("SUPER", 0x0020), ("INTERFACE", 0x0200),
    ("ABSTRACT", 0x0400), ("SYNTHETIC", 0x1000), ("ANNOTATION", 0x2000), ("ENUM", 0x4000),
    ("MODULE", 0x8000)]

def fields : FlagTable where
  label := "FieldAccessFlag"
  flags := [("PUBLIC", 0x0001), ("PRIVATE", 0x0002), ("PROTECTED", 0x0004), ("STATIC", 0x0008),
    ("FINAL", 0x0010), ("VOLATILE", 0x0040), ("TRANSIENT", 0x0080), ("SYNTHETIC", 0x1000),
    ("ENUM", 0x4000)]

def methods : FlagTable where
  label := "MethodAccessFlag"
  flags := [("PUBLIC", 0x0001), ("PRIVATE", 0x0002), ("PROTECTED", 0x0004), ("STATIC", 0x0008),
    ("FINAL", 0x0010), ("SYNCHRONIZED", 0x0020), ("BRIDGE", 0x0040), ("VARARGS", 0x0080),
    ("NATIVE", 0x0100), ("ABSTRACT", 0x0400), ("STRICT", 0x0800), ("SYNTHETIC", 0x1000)]

/-- The bits of a word that no flag of the table covers. -/
def leftover (table : FlagTable) (word : UInt16) : UInt16 :=
  table.flags.foldl (fun rest flag => rest &&& ~~~flag.2) word

def describe (table : FlagTable) (word : UInt16) : String :=
  let named := (table.flags.filter fun flag => word &&& flag.2 == flag.2).map (·.1)
  let rest := table.leftover word
  let unnamed := if rest != 0 || named.isEmpty then ["0x" ++ hexDigits rest.toNat] else []
  table.label ++ "(" ++ String.intercalate " | " (named ++ unnamed) ++ ")"

end FlagTable

namespace Access

def isPublic (word : UInt16) : Bool := word &&& 0x0001 == 0x0001
def isStatic (word : UInt16) : Bool := word &&& 0x0008 == 0x0008
def isFinal (word : UInt16) : Bool := word &&& 0x0010 == 0x0010
def isInterface (word : UInt16) : Bool := word &&& 0x0200 == 0x0200

/-- Primitive classes are public, final and abstract. -/
def primitiveWord : UInt16 := 0x0411

/-- Array classes are final and abstract, and public when their component is. -/
def arrayWord (isPublic : Bool) : UInt16 := if isPublic then 0x0411 else 0x0410

end Access

end ClassLoading
