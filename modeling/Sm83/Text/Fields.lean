/-!
# Named fields as text

A value with named fields is shown as its name and, in braces, each field's name and text.  A field
that may be missing shows which of the two it is.
-/

namespace Sm83.Text.Fields

/-- A name and its fields in braces; `ending` stands after the last field. -/
def group (name : String) (fields : List (String × String)) (ending : String) : String :=
  name ++ " \x7b " ++ ", ".intercalate (fields.map fun field => field.1 ++ ": " ++ field.2) ++ ending

/-- A text that may be missing. -/
def optional : Option String → String
  | none => "None"
  | some text => "Some(" ++ text ++ ")"

end Sm83.Text.Fields
