import DataAccess.Keyed

/-!
JSON values. Whole numbers and floats are told apart, as `1` and `1.0` are different values
of a record; the fields of an object are in ascending order of their names.
-/
namespace DataAccess

inductive Json where
  | null
  | bool (b : Bool)
  | integer (n : Int)
  | real (x : Float)
  | text (s : String)
  | array (items : List Json)
  | object (fields : List (String × Json))
deriving Inhabited, BEq

namespace Json

def ofFields (fields : List (String × Json)) : Json := .object (Keyed.ofList fields)

/-- What a value is called in an error message. -/
def kind : Json → String
  | .null => "null"
  | .bool _ => "a boolean"
  | .integer _ | .real _ => "a number"
  | .text _ => "a string"
  | .array _ => "an array"
  | .object _ => "an object"

end Json
end DataAccess
