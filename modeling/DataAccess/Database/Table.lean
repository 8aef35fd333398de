import DataAccess.Database.Scan.Way
import DataAccess.Error

/-!
Tables: a schema, rows in ascending order of their identifiers, and the largest identifier
ever stored. Storing a row converts each cell to the affinity of its column and then checks
the constraints, first that required cells are present and then that unique ones are new.
-/
namespace DataAccess.Database

structure Column where
  name : String
  affinity : Affinity
  required : Bool
  unique : Bool
  default : Cell

structure Schema where
  name : String
  /-- The column of the row identifiers, which comes first. -/
  key : String
  columns : List Column
  /-- Identifiers are never used again. -/
  autoincrement : Bool
  /-- A column that refers to the identifiers of another table. -/
  reference : Option (String × String)

structure StoredRow where
  id : Int64
  cells : List Cell

/-- Whether two rows are stored as the same bytes. -/
def StoredRow.identical (r s : StoredRow) : Bool :=
  r.id == s.id && r.cells.length == s.cells.length &&
    (r.cells.zip s.cells).all fun c => c.1.identical c.2

structure Table where
  schema : Schema
  rows : List StoredRow
  sequence : Int

namespace Schema

def columnInfo (s : Schema) : List ColumnInfo :=
  ⟨s.key, some .integer⟩ :: s.columns.map fun c => ⟨c.name, some c.affinity⟩

/-- Whether a column has an index of its own; the one of the row identifiers is the first. -/
def isIndexed (s : Schema) : Nat → Bool
  | 0 => true
  | i + 1 => (s.columns[i]?).any (·.unique)

/-- The estimated width of the cells of a column, in words of four bytes. -/
def width (c : ColumnInfo) : Nat := if c.affinity = some .text then 5 else 1

/-- The row identifiers, and the index of the first unique column. -/
def shape (s : Schema) : TableShape :=
  let rowWidth := (s.columnInfo.map width).foldl (· + ·) 0
  let entryWidth (i : Nat) : Nat := ((s.columnInfo[i]?).map width).getD 1 + 1
  match s.columns.findIdx? (·.unique) with
  | none => ⟨0, none, 0, false⟩
  | some i =>
    let entry := Estimate.ofNat (4 * entryWidth (i + 1))
    let row := Estimate.ofNat (4 * rowWidth)
    ⟨0, some (i + 1), 1 + 15 * entry / row, entry < row⟩

end Schema

def StoredRow.toCells (r : StoredRow) : List Cell := .integer r.id :: r.cells

namespace Table

def empty (s : Schema) : Table := ⟨s, [], 0⟩

def relationRows (t : Table) : List (List Cell) := t.rows.map (·.toCells)

def contains (t : Table) (id : Int64) : Bool := t.rows.any (·.id == id)

/-- The least positive identifier that no row has. -/
def vacantId? (t : Table) : Option Int64 :=
  ((List.range (t.rows.length + 1)).map fun i => Int64.ofNat (i + 1)).find? (!t.contains ·)

/-- The identifier of the next row that is not given one: the one after the largest. If there
is none, one that is vacant will do, unless it may have been used before. -/
def nextId (t : Table) : Except DatabaseFault Int64 :=
  let largest := match t.rows.getLast? with | some r => r.id.toInt | none => 0
  let next := if t.schema.autoincrement then max largest t.sequence + 1 else largest + 1
  if next ≤ Int64.maxValue.toInt then .ok (Int64.ofInt next)
  else if t.schema.autoincrement then .error .full
  else match t.vacantId? with
    | some id => .ok id
    | none => .error .full

def place (r : StoredRow) : List StoredRow → List StoredRow
  | [] => [r]
  | s :: rest => if r.id.toInt < s.id.toInt then r :: s :: rest else s :: place r rest

def convert (t : Table) (cells : List Cell) : List Cell :=
  (t.schema.columns.zip cells).map fun c => c.1.affinity.store c.2

/-- The first required column whose cell is null. -/
def missing? (t : Table) (cells : List Cell) : Option String :=
  (t.schema.columns.zip cells).findSome? fun c =>
    if c.1.required && c.2.isNull then some c.1.name else none

/-- Whether another row holds the cell in the column of an index. -/
def taken (rows : List StoredRow) (index : Nat) (c : Cell) : Bool :=
  rows.any fun r => match r.cells[index]? with
    | some d => !d.isNull && d.compare c = .eq
    | none => false

/-- The first unique column whose cell another row holds. -/
def repeated? (t : Table) (others : List StoredRow) (cells : List Cell) : Option String :=
  (t.schema.columns.zip cells).zipIdx.findSome? fun c =>
    if c.1.1.unique && !c.1.2.isNull && taken others c.2 c.1.2 then some c.1.1.name else none

def check (t : Table) (others : List StoredRow) (r : StoredRow) : Except DatabaseFault Unit :=
  match t.missing? r.cells with
  | some column => .error (.notNull t.schema.name column)
  | none =>
    if others.any (·.id == r.id) then .error (.unique t.schema.name t.schema.key)
    else match t.repeated? others r.cells with
      | some column => .error (.unique t.schema.name column)
      | none => .ok ()

/-- Stores a new row; a null identifier is replaced by the next one. -/
def insert (t : Table) (id : Cell) (cells : List Cell) : Except DatabaseFault (Int64 × Table) := do
  let id ← if id.isNull then t.nextId
    else match rowIdOf? id with
      | some n => .ok n
      | none => .error .datatypeMismatch
  let r : StoredRow := ⟨id, t.convert cells⟩
  t.check t.rows r
  return (id, { t with rows := place r t.rows, sequence := max t.sequence id.toInt })

/-- Replaces the row of an identifier; answers the new row. -/
def replace (t : Table) (old : Int64) (id : Cell) (cells : List Cell) :
    Except DatabaseFault (StoredRow × Table) := do
  let id ← match rowIdOf? id with
    | some n => .ok n
    | none => .error .datatypeMismatch
  let others := t.rows.filter (·.id != old)
  let r : StoredRow := ⟨id, t.convert cells⟩
  t.check others r
  return (r, { t with rows := place r others })

def remove (t : Table) (ids : List Int64) : Table :=
  { t with rows := t.rows.filter fun r => !ids.contains r.id }

end Table
end DataAccess.Database
