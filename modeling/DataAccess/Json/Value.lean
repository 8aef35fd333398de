import DataAccess.Decimal.Binary64
import DataAccess.Json.Text
import DataAccess.Value

/-!
Between JSON and bindable values. A column of a result row becomes JSON, and a field of a
record becomes a value; null stands for an absent field, and nested JSON is stored as its
compact text.
-/
namespace DataAccess.Json

/-- The JSON of a column. JSON has no NaN and no infinity; bytes become numbers. -/
def ofValue : Value → Json
  | .null => .null
  | .integer n => .integer n.toInt
  | .real x => if x.isFinite then .real x else .null
  | .text s => .text s
  | .blob bytes => .array (bytes.map fun b => .integer b.toNat)

def floatOfInt (n : Int) : Float := Decimal.nearestFloat (n < 0) n.natAbs 1

/-- The signed word that equals the number, if one does. -/
def toInt64? (n : Int) : Option Int64 :=
  if Int64.minValue.toInt ≤ n ∧ n ≤ Int64.maxValue.toInt then some (Int64.ofInt n) else none

/-- The value of a field; none if the field is to be left out. -/
def toValue? : Json → Option Value
  | .null => none
  | .bool b => some (toValue b)
  | .integer n =>
    match toInt64? n with
    | some i => some (.integer i)
    | none => some (.real (floatOfInt n))
  | .real x => some (.real x)
  | .text s => some (.text s)
  | .array items => some (.text (Json.array items).toText)
  | .object fields => some (.text (Json.object fields).toText)

end DataAccess.Json
