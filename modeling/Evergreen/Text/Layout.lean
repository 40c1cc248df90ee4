/-!
# The layout of diagnostic texts

A value with named parts is written as its name and the parts in braces; two dots stand for
the parts that are left out.
-/

namespace Evergreen.Text

/-- Writes `name { a: x, b: y }`. -/
def record (name : String) (fields : List (String × String)) : String :=
  name ++ " \x7b " ++ ", ".intercalate (fields.map fun (f, v) => f ++ ": " ++ v) ++ " \x7d"

/-- Writes `name { a: x, .. }`: like `record`, with parts left out. -/
def partialRecord (name : String) (fields : List (String × String)) : String :=
  name ++ " \x7b " ++ String.join (fields.map fun (f, v) => f ++ ": " ++ v ++ ", ") ++
    ".. \x7d"

/-- Writes `name(x)`. -/
def wrapped (name inner : String) : String := name ++ "(" ++ inner ++ ")"

/-- Writes `true` or `false`. -/
def ofBool (b : Bool) : String := if b then "true" else "false"

end Evergreen.Text
