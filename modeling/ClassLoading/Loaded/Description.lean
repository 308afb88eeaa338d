import ClassLoading.Loaded.Class
import ClassLoading.Text.Quoted

/-! A loaded class in one line of text, for diagnostics: what it declares, with other classes by
name only, and how far it has come. -/
namespace ClassLoading

/-! ### Shapes -/

/-- A named group of fields. -/
def recordText (name : String) (fields : List (String × String)) : String :=
  name ++ " \x7b " ++ String.intercalate ", " (fields.map fun (key, value) => key ++ ": " ++ value) ++
    " \x7d"

def listText (items : List String) : String := "[" ++ String.intercalate ", " items ++ "]"

def optionText : Option String → String
  | none => "None"
  | some text => "Some(" ++ text ++ ")"

/-! ### Parts of a class -/

/-- The name of the type in diagnostics. -/
def Primitive.label (type : Primitive) : String := type.keyword.capitalize

def FieldType.describe : FieldType → String
  | .primitive type => type.label
  | .object name => "Object(" ++ Text.quoted name ++ ")"
  | .array element => "Array(" ++ element.describe ++ ")"

def LoadedField.describe (field : LoadedField) : String :=
  recordText "FieldInfo" [
    ("access_flags", FlagTable.fields.describe field.flags),
    ("name", Text.quoted field.name),
    ("descriptor", "FieldDescriptor(" ++ field.type.describe ++ ")"),
    ("slot", toString field.slot),
    ("constant_value", optionText (field.constantIndex.map fun index => toString index.toNat))]

namespace ClassTable

def describeKind (classes : ClassTable) : ClassKind → String
  | .ordinary => "ordinary"
  | .primitive _ => "primitive"
  | .array component dimensions =>
    "array of " ++ (classes.name? component).getD "" ++ " (" ++ toString dimensions ++ "d)"

/-- The description of a class whose supertypes and component stand in the table. The number of its
loader is left blank. -/
def describe (classes : ClassTable) (c : LoadedClass) : String :=
  let nameText (id : ClassId) : String := Text.quoted ((classes.name? id).getD "")
  recordText "RuntimeClass" [
    ("name", Text.quoted c.name),
    ("kind", Text.quoted (classes.describeKind c.kind)),
    ("access_flags", FlagTable.classes.describe c.flags),
    ("loader_id", "_"),
    ("super_class", optionText (c.superClass.map nameText)),
    ("interfaces", listText (c.interfaces.map nameText)),
    ("fields", listText (c.fields.map (·.describe))),
    ("instance_slot_count", toString c.instanceSlots),
    ("methods", toString c.methods.length),
    ("state", c.stage.label)]

end ClassTable

end ClassLoading
