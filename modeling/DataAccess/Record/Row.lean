import DataAccess.Error
import DataAccess.Json.Value
import DataAccess.Sql.Statement

/-!
Rows and column lists. A result row is a JSON object under its column names, and a record
that is a JSON object gives a column list in ascending order of names, without its null
fields.
-/
namespace DataAccess

/-- Column names with their JSON, each name once and in ascending order. -/
abbrev Row := Keyed Json

/-- The row of the columns of a result; of equal names the last one counts. -/
def Row.ofColumns (columns : List (String × Value)) : Row :=
  Keyed.ofList (columns.map fun c => (c.1, Json.ofValue c.2))

/-- The columns of the fields that are not null. -/
def Row.toColumns (row : Row) : Sql.Columns :=
  row.filterMap fun f => f.2.toValue?.map fun v => (f.1, v)

/-- The columns of a record, which must be an object. -/
def Json.toColumns : Json → Except Error Sql.Columns
  | .object fields => .ok (Row.toColumns fields)
  | j => .error (.mapping (.notAnObject j.kind))

/-- A record as serialization leaves it: JSON, or the reason why there is none. -/
abbrev Record := Except RowFault Json

instance : Coe Json Record := ⟨.ok⟩

def Record.toColumns : Record → Except Error Sql.Columns
  | .ok j => j.toColumns
  | .error fault => .error (.row fault)

end DataAccess
