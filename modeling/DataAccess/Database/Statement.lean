import DataAccess.Database.Query
import DataAccess.Database.Table
import DataAccess.Engine

/-!
Statements, as written and as prepared for the contents of a database. A statement that fails
has no effect on the contents; whether it has written anything before is another matter, since
also what was written and taken back is a new version of the database.
-/
namespace DataAccess.Database

inductive Statement where
  /-- A text without a statement. -/
  | nothing
  | query (q : Query)
  | insert (table : TableRef) (columns : Option (List String)) (rows : List (List Written))
  | update (table : TableRef) (assignments : List (String × Written)) (filter : Option Written)
  | delete (table : TableRef) (filter : Option Written)
  | begin (mode : LockMode)
  | commit
  | rollback
  /-- Asks whether the connection reads uncommitted data, or sets it. -/
  | readUncommitted (flag : Option Bool)

/-- A statement whose names have been replaced. -/
inductive Prepared where
  | nothing
  | query (q : PreparedQuery)
  /-- For each column of the table, the position of its cell in the rows to insert. -/
  | insert (table : String) (sources : List (Option Nat)) (rows : List (List Term))
  | update (table : String) (assignments : List (Nat × Term)) (filter : Option Term)
  | delete (table : String) (filter : Option Term)
  | begin (mode : LockMode)
  | commit
  | rollback
  | readUncommitted (flag : Option Bool)

abbrev Contents := List Table

namespace Contents

def table? (db : Contents) (name : String) : Option Table :=
  db.find? fun t => sameName t.schema.name name

def setTable (db : Contents) (t : Table) : Contents :=
  db.map fun u => if u.schema.name = t.schema.name then t else u

/-- The contents with a table after a statement on it, which may have written nothing. -/
def afterwards (db : Contents) (touched : Bool) (t : Table) : Contents :=
  if touched then db.setTable t else db

/-- The schema that all tables belong to. -/
def schemaName : String := "main"

/-- A table by its name; a missing one is reported as it is written. -/
def tableOrFault (db : Contents) (t : TableRef) : Except DatabaseFault Table :=
  let written := (t.schema.map (· ++ ".")).getD "" ++ t.name
  match if t.schema.all (sameName schemaName) then db.table? t.name else none with
  | some t => .ok t
  | none => .error (.noSuchTable written)

/-- The rows that a query on a table, or on nothing, starts from. Without a table there is one
row. -/
def rows (db : Contents) (table : Option String) : List (List Cell) :=
  match table with
  | none => [[]]
  | some name => ((db.table? name).map (·.relationRows)).getD []

/-- Whether a row refers to an identifier that its parent does not have. -/
def isDangling (db : Contents) : Bool :=
  db.any fun t =>
    match t.schema.reference with
    | none => false
    | some (column, parent) =>
      match t.schema.columns.findIdx? (·.name = column), db.table? parent with
      | some i, some p => t.rows.any fun r =>
        match r.cells[i]? with
        | some (.integer id) => !p.contains id
        | some .null | none => false
        | some _ => true
      | _, _ => false

/-- Whether a table refers to another or is referred to. -/
def isRelated (db : Contents) (t : Table) : Bool :=
  t.schema.reference.isSome ||
    db.any fun u => u.schema.reference.any (sameName t.schema.name ·.2)

end Contents

/-- The columns of a table, as a statement refers to them. -/
def Table.header (t : Table) (r : TableRef) : Header :=
  ⟨some r.qualifier, t.schema.columnInfo, some t.schema.shape⟩

/-- What is found or else is an error of the statement. -/
def orRejected {α : Type} (a : Option α) : Except DatabaseFault α :=
  match a with
  | some a => .ok a
  | none => .error .rejected

/-- The position in a row to insert of the cell for each column; without a list of columns all
are given in their order. -/
def Table.sources? (t : Table) (h : Header) (columns : Option (List String)) :
    Option (Nat × List (Option Nat)) :=
  let positions := List.range t.schema.columnInfo.length
  match columns with
  | none => some (positions.length, positions.map some)
  | some names => do
    let given ← names.mapM h.position?
    return (given.length, positions.map fun i => given.findIdx? (· = i))

/-- Finds what the names of a statement mean. A missing table is reported before anything else
that is wrong with names or numbers of cells. -/
def Statement.prepare (db : Contents) : Statement → Except DatabaseFault Prepared
  | .nothing => .ok .nothing
  | .query q => do
    let header ← match q.table with
      | none => .ok Header.none
      | some r => (db.tableOrFault r).map (·.header r)
    return .query (← q.prepare header)
  | .insert r columns rows => do
    let t ← db.tableOrFault r
    let (width, sources) ← orRejected (t.sources? (t.header r) columns)
    let rows ← orRejected (rows.mapM fun row =>
      if row.length = width then row.mapM (·.resolve? .none [] false) else none)
    return .insert t.schema.name sources rows
  | .update r assignments filter => do
    let t ← db.tableOrFault r
    let h := t.header r
    let assignments ← orRejected (assignments.mapM fun (a : String × Written) => do
      return (← h.position? a.1, ← a.2.resolve? h [] false))
    let filter ← orRejected (filter.mapM (·.resolve? h [] false))
    return .update t.schema.name assignments filter
  | .delete r filter => do
    let t ← db.tableOrFault r
    let filter ← orRejected (filter.mapM (·.resolve? (t.header r) [] false))
    return .delete t.schema.name filter
  | .begin mode => .ok (.begin mode)
  | .commit => .ok .commit
  | .rollback => .ok .rollback
  | .readUncommitted flag => .ok (.readUncommitted flag)

/-- Whether a statement inserts no more than one row. -/
def Prepared.isSingle : Prepared → Bool
  | .insert _ _ rows => rows.length ≤ 1
  | _ => true

/-- What a statement that writes has done. -/
structure Done where
  contents : Contents
  changed : Nat
  lastRowId : Option Int64

structure Effect where
  result : Except DatabaseFault Done
  /-- It has written, even if to no effect. -/
  touched : Bool

namespace Table

def matching (t : Table) (params : List Cell) (filter : Option Term) : List StoredRow :=
  t.rows.filter fun r =>
    match filter with
    | none => true
    | some e => (e.eval ⟨params, t.schema.columnInfo, r.toCells, []⟩).truth? = some true

/-- The cell for each column of a row to insert: the one given, or the column's default. -/
def rowFor (t : Table) (sources : List (Option Nat)) (given : List Cell) : List Cell :=
  (sources.zip (.null :: t.schema.columns.map (·.default))).map fun c =>
    (c.1.bind fun i => given[i]?).getD c.2

/-- Inserts rows one after the other; answers the last identifier, and whether any row has been
inserted, also if a later one is refused. -/
def insertRows (t : Table) (params : List Cell) (sources : List (Option Nat)) :
    List (List Term) → Except DatabaseFault (Option Int64 × Table) × Bool
  | [] => (.ok (none, t), false)
  | row :: rest =>
    let cells := t.rowFor sources (row.map (·.eval ⟨params, [], [], []⟩))
    match t.insert (cells.headD .null) cells.tail with
    | .error e => (.error e, false)
    | .ok (id, t) =>
      let (result, _) := insertRows t params sources rest
      (result.map fun r => (some (r.1.getD id), r.2), true)

/-- The cells of a row after assignments, all of which see the row as it was; of two to the
same column the last counts. -/
def assigned (t : Table) (params : List Cell) (assignments : List (Nat × Term))
    (r : StoredRow) : List Cell :=
  let env : Env := ⟨params, t.schema.columnInfo, r.toCells, []⟩
  r.toCells.zipIdx.map fun c =>
    match assignments.reverse.find? (·.1 = c.2) with
    | some a => a.2.eval env
    | none => c.1

/-- Updates rows one after the other; also answers whether anything has been written. A row
that stays the same is not written again, unless an index may have to change. -/
def updateRows (t : Table) (params : List Cell) (assignments : List (Nat × Term)) :
    List StoredRow → Except DatabaseFault Table × Bool
  | [] => (.ok t, false)
  | r :: rest =>
    let cells := t.assigned params assignments r
    match t.replace r.id (cells.headD .null) cells.tail with
    | .error e => (.error e, false)
    | .ok (s, u) =>
      let writes := assignments.any (t.schema.isIndexed ·.1) || !r.identical s
      let (result, later) := updateRows u params assignments rest
      (result, writes || later)

end Table

/-- Runs a statement that writes. Where no reference has to be looked at, deleting all rows of
a table writes it anew, even if it is empty. -/
def Prepared.write (foreignKeys : Bool) (params : List Cell) (db : Contents) : Prepared → Effect
  | .insert name sources rows =>
    match db.table? name with
    | none => ⟨.error (.noSuchTable name), false⟩
    | some t =>
      let (result, touched) := t.insertRows params sources rows
      ⟨result.map fun r => ⟨db.afterwards touched r.2, rows.length, r.1⟩, touched⟩
  | .update name assignments filter =>
    match db.table? name with
    | none => ⟨.error (.noSuchTable name), false⟩
    | some t =>
      let rows := t.matching params filter
      let (result, touched) := t.updateRows params assignments rows
      ⟨result.map fun t => ⟨db.afterwards touched t, rows.length, none⟩, touched⟩
  | .delete name filter =>
    match db.table? name with
    | none => ⟨.error (.noSuchTable name), false⟩
    | some t =>
      let rows := t.matching params filter
      let clears := filter.isNone && !(foreignKeys && db.isRelated t)
      ⟨.ok ⟨db.afterwards (!rows.isEmpty) (t.remove (rows.map (·.id))), rows.length, none⟩,
        clears || !rows.isEmpty⟩
  | _ => ⟨.ok ⟨db, 0, none⟩, false⟩

end DataAccess.Database
