import TypedLinks.Text.Basic

/-!
# JSON values

The values that a JSON document can hold. The members of an object stand in the order of the
document; where a name occurs more than once, its last member counts.
-/

namespace TypedLinks

/-- A JSON value. A number with a fraction or an exponent keeps its text. -/
inductive Json where
  | null
  | bool (value : Bool)
  | integer (value : Int)
  | real (text : List Char)
  | string (value : Text)
  | array (items : List Json)
  | object (members : List (Text × Json))

namespace Json

/-- The value of a name among the members of an object. -/
def member? (members : List (Text × Json)) (name : Text) : Option Json :=
  (members.reverse.find? (·.1 = name)).map (·.2)

/-- The text of a string. -/
def string? : Json → Option Text
  | string t => some t
  | _ => none

/-- The items of an array. -/
def array? : Json → Option (List Json)
  | array items => some items
  | _ => none

/-- The members of an object. -/
def object? : Json → Option (List (Text × Json))
  | object members => some members
  | _ => none

end Json

end TypedLinks
