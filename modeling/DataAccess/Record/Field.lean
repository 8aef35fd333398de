import DataAccess.Record.Row
import DataAccess.Text.Quoted

/-!
Typed fields of records. The fields of a row are checked in the row's order, so that the
first field of a wrong type is reported before any missing one; an optional field may be
null or absent, and unknown fields are ignored.
-/
namespace DataAccess.Record

/-- What a field is called when it is not what was wanted. Floats are written as in JSON. -/
def description : Json → String
  | .null => "null"
  | .bool b => s!"boolean \x60{b}\x60"
  | .integer n => s!"integer \x60{n}\x60"
  | .real x => s!"floating point \x60{Json.floatText x}\x60"
  | .text s => s!"string {Text.quoted s}"
  | .array _ => "sequence"
  | .object _ => "map"

def readInteger : Json → Except RowFault Int64
  | .integer n =>
    match Json.toInt64? n with
    | some i => .ok i
    | none => .error (.outOfRange (description (.integer n)) "i64")
  | j => .error (.wrongType (description j) "i64")

/-- Whole numbers are read as the nearest float. -/
def readReal : Json → Except RowFault Float
  | .real x => .ok x
  | .integer n => .ok (Json.floatOfInt n)
  | j => .error (.wrongType (description j) "f64")

def readText : Json → Except RowFault String
  | .text s => .ok s
  | j => .error (.wrongType (description j) "a string")

def readBool : Json → Except RowFault Bool
  | .bool b => .ok b
  | j => .error (.wrongType (description j) "a boolean")

def readOptional {α : Type} (read : Json → Except RowFault α) : Json → Except RowFault (Option α)
  | .null => .ok none
  | j => (read j).map some

/-- A check that a field has the type of its record's field. -/
abbrev Check := Json → Except RowFault Unit

def checkOf {α : Type} (read : Json → Except RowFault α) : Check :=
  fun j => (read j).map fun _ => ()

/-- Checks the known fields of a row in the row's order. -/
def checkFields (checks : List (String × Check)) : Row → Except RowFault Unit
  | [] => .ok ()
  | (name, j) :: rest => do
    match checks.lookup name with
    | some check => check j
    | none => .ok ()
    checkFields checks rest

def required {α : Type} (row : Row) (name : String) (read : Json → Except RowFault α) :
    Except RowFault α :=
  match row.get? name with
  | some j => read j
  | none => .error (.missingField name)

def optional {α : Type} (row : Row) (name : String) (read : Json → Except RowFault α) :
    Except RowFault (Option α) :=
  match row.get? name with
  | some j => readOptional read j
  | none => .ok none

end DataAccess.Record
