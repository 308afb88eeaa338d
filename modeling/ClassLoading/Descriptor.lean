/-! Field and method descriptors. A descriptor spells a type with one letter for a primitive,
`L` name `;` for a class and a leading `[` for each array dimension; a method lists its parameters
between parentheses and then its result, `V` for none. Reading and writing work on the same
characters, so a text that is read is the text the type is written as. -/
namespace ClassLoading

inductive Primitive where
  | boolean
  | byte
  | char
  | short
  | int
  | long
  | float
  | double
  deriving DecidableEq, Repr, Inhabited

namespace Primitive

def letter : Primitive → Char
  | .boolean => 'Z'
  | .byte => 'B'
  | .char => 'C'
  | .short => 'S'
  | .int => 'I'
  | .long => 'J'
  | .float => 'F'
  | .double => 'D'

def ofLetter? : Char → Option Primitive
  | 'Z' => some .boolean
  | 'B' => some .byte
  | 'C' => some .char
  | 'S' => some .short
  | 'I' => some .int
  | 'J' => some .long
  | 'F' => some .float
  | 'D' => some .double
  | _ => none

/-- The keyword of the type, which is also the name of its class. -/
def keyword : Primitive → String
  | .boolean => "boolean"
  | .byte => "byte"
  | .char => "char"
  | .short => "short"
  | .int => "int"
  | .long => "long"
  | .float => "float"
  | .double => "double"

/-- A `long` or a `double` takes two slots. -/
def isWide : Primitive → Bool
  | .long | .double => true
  | _ => false

theorem ofLetter?_letter (p : Primitive) : ofLetter? p.letter = some p := by
  cases p <;> rfl

theorem letter_of_ofLetter? {c : Char} {p : Primitive} (h : ofLetter? c = some p) :
    p.letter = c := by
  unfold ofLetter? at h
  split at h <;> cases h <;> rfl

end Primitive

/-- The primitive classes in their order of definition, `void` last and without a type. -/
def primitiveClasses : List (String × Option Primitive) :=
  [("boolean", some .boolean), ("byte", some .byte), ("char", some .char), ("short", some .short),
   ("int", some .int), ("long", some .long), ("float", some .float), ("double", some .double),
   ("void", none)]

/-- The type behind a primitive class name; the inner `none` is `void`. -/
def primitiveClass? (name : String) : Option (Option Primitive) :=
  primitiveClasses.lookup name

inductive FieldType where
  | primitive (type : Primitive)
  | object (name : String)
  | array (element : FieldType)
  deriving DecidableEq, Repr, Inhabited

namespace FieldType

def chars : FieldType → List Char
  | .primitive p => [p.letter]
  | .object name => 'L' :: (name.toList ++ [';'])
  | .array element => '[' :: element.chars

def descriptor (t : FieldType) : String := String.ofList t.chars

def isWide : FieldType → Bool
  | .primitive p => p.isWide
  | _ => false

def isPrimitive : FieldType → Bool
  | .primitive _ => true
  | _ => false

def keyword? : FieldType → Option String
  | .primitive p => some p.keyword
  | _ => none

/-- The class that stands for the type: the keyword of a primitive, the name of an object type
and the descriptor of an array. -/
def className : FieldType → String
  | .primitive p => p.keyword
  | .object name => name
  | .array element => (FieldType.array element).descriptor

/-- How many array dimensions stand in front of the innermost element. -/
def dimensions : FieldType → Nat
  | .array element => element.dimensions + 1
  | _ => 0

def innermost : FieldType → FieldType
  | .array element => element.innermost
  | t => t

/-- Slots a field of the type takes in an instance. -/
def width (t : FieldType) : Nat := if t.isWide then 2 else 1

/-- Reads one type from the front of a text. A class name runs to the first `;`. -/
def read? : List Char → Option (FieldType × List Char)
  | [] => none
  | '[' :: rest => (read? rest).map fun (t, rest) => (.array t, rest)
  | 'L' :: rest =>
    match rest.dropWhile (· != ';') with
    | [] => none
    | _ :: after => some (.object (String.ofList (rest.takeWhile (· != ';'))), after)
  | c :: rest => (Primitive.ofLetter? c).map fun p => (.primitive p, rest)

theorem read?_length_lt {text rest : List Char} {t : FieldType}
    (h : read? text = some (t, rest)) : rest.length < text.length := by
  fun_induction read? text generalizing t with
  | case1 => simp at h
  | case2 text ih =>
    obtain ⟨⟨u, r⟩, hu, he⟩ := Option.map_eq_some_iff.1 h
    cases he
    exact Nat.lt_succ_of_lt (ih hu)
  | case3 => simp at h
  | case4 text c after hd =>
    cases h
    have hl : (text.dropWhile (· != ';')).length ≤ text.length :=
      (List.dropWhile_sublist _).length_le
    rw [hd] at hl
    simp only [List.length_cons] at hl ⊢
    omega
  | case5 c text =>
    obtain ⟨p, _, he⟩ := Option.map_eq_some_iff.1 h
    cases he
    simp

/-- A type is read from the very characters it is written as. -/
theorem eq_chars_of_read? {text rest : List Char} {t : FieldType}
    (h : read? text = some (t, rest)) : text = t.chars ++ rest := by
  fun_induction read? text generalizing t with
  | case1 => simp at h
  | case2 text ih =>
    obtain ⟨⟨u, r⟩, hu, he⟩ := Option.map_eq_some_iff.1 h
    cases he
    simpa [chars] using ih hu
  | case3 => simp at h
  | case4 text c after hd =>
    cases h
    have hc : c = ';' := by
      have := List.head_dropWhile_not (· != ';') (l := text) (by simp [hd])
      simpa [hd] using this
    have hsplit := List.takeWhile_append_dropWhile (p := (· != ';')) (l := text)
    rw [hd, hc] at hsplit
    simpa [chars, String.toList_ofList] using hsplit.symm
  | case5 c text _ _ =>
    obtain ⟨p, hp, he⟩ := Option.map_eq_some_iff.1 h
    cases he
    simp [chars, Primitive.letter_of_ofLetter? hp]

/-- Reads as many types as stand at the front of a text. -/
def readMany (text : List Char) : List FieldType × List Char :=
  match h : read? text with
  | none => ([], text)
  | some (t, rest) =>
    have := read?_length_lt h
    let (more, after) := readMany rest
    (t :: more, after)
termination_by text.length

end FieldType

/-- A text that is no descriptor. -/
structure DescriptorError where
  text : String
  deriving DecidableEq, Repr, Inhabited

def DescriptorError.message (e : DescriptorError) : String :=
  "invalid descriptor `" ++ e.text ++ "`"

namespace FieldType

def ofDescriptor (text : String) : Except DescriptorError FieldType :=
  match read? text.toList with
  | some (t, []) => .ok t
  | _ => .error ⟨text⟩

end FieldType

/-- Parameter types and result of a method; no result is `void`. -/
structure MethodType where
  parameters : List FieldType
  result : Option FieldType
  deriving DecidableEq, Repr, Inhabited

namespace MethodType

def resultChars : Option FieldType → List Char
  | none => ['V']
  | some t => t.chars

def chars (m : MethodType) : List Char :=
  '(' :: (m.parameters.flatMap FieldType.chars ++ ')' :: resultChars m.result)

def descriptor (m : MethodType) : String := String.ofList m.chars

def readResult? : List Char → Option (Option FieldType)
  | ['V'] => some none
  | text =>
    match FieldType.read? text with
    | some (t, []) => some (some t)
    | _ => none

def read? : List Char → Option MethodType
  | '(' :: text =>
    match FieldType.readMany text with
    | (parameters, ')' :: rest) => (readResult? rest).map fun result => ⟨parameters, result⟩
    | _ => none
  | _ => none

def ofDescriptor (text : String) : Except DescriptorError MethodType :=
  match read? text.toList with
  | some m => .ok m
  | none => .error ⟨text⟩

end MethodType

end ClassLoading
