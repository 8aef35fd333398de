import DataAccess.Database.Directory
import DataAccess.Database.Parser.Statement

/-!
Connections and their transactions. The store of a source holds the committed contents, the
number of the commit that made them, and whether some connection may write. A transaction
sees the contents as they were at its first use, and its own changes; it may write only
while no other does and no newer commit has been made.
-/
namespace DataAccess.Database

structure Store where
  committed : Contents
  version : Nat
  writeLocked : Bool

/-- What a transaction sees. -/
structure View where
  contents : Contents
  /-- The commit that it started from. -/
  version : Nat
  /-- It holds the write lock of the store. -/
  holdsLock : Bool
  /-- Something has been written through it, even if to no effect. -/
  written : Bool

inductive LinkState where
  | autocommit
  /-- In a transaction, with no view until its first use. -/
  | open (view : Option View)

structure Link where
  state : LinkState
  foreignKeys : Bool
  readUncommitted : Bool
  /-- The rows changed by the last statement that can change any. -/
  changes : Nat
  lastRowId : Int64
  /-- The database in memory that belongs to this connection alone. -/
  memory : Option Store

abbrev Use (α : Type) := Access DatabaseFault Store Link α

namespace Store

def empty (schemas : List Schema) : Store := ⟨schemas.map Table.empty, 0, false⟩

def view (s : Store) : View := ⟨s.committed, s.version, false, false⟩

def unlock (s : Store) : Store := { s with writeLocked := false }

/-- Makes the contents of a view the newest commit, if anything has been written. -/
def adopt (s : Store) (contents : Contents) (written : Bool) : Store :=
  if written then { s with committed := contents, version := s.version + 1 } else s

end Store

namespace Link

def fresh (foreignKeys : Bool) (memory : Option Store) : Link :=
  ⟨.autocommit, foreignKeys, false, 0, 0, memory⟩

def isAutocommit (l : Link) : Bool :=
  match l.state with
  | .autocommit => true
  | .open _ => false

end Link

/-- Runs on the database of the link in place of the shared store, if it has its own. -/
def onOwn {α : Type} (use : Use α) : Use α := fun store link =>
  match link.memory with
  | none => use store link
  | some own =>
    let (result, own, link) := use own link
    (result, store, { link with memory := some own })

def takeLock (s : Store) (view : Option View) : Except DatabaseFault (View × Store) :=
  let v := view.getD s.view
  if v.holdsLock then .ok (v, s)
  else if s.writeLocked ∨ v.version ≠ s.version then .error .locked
  else .ok ({ v with holdsLock := true }, { s with writeLocked := true })

def begin (mode : LockMode) : Use Unit := fun s l =>
  match mode, l.state with
  | .deferred, .autocommit => (.ok (), s, { l with state := .open none })
  | .deferred, .open _ => (.error .beginInTransaction, s, l)
  | _, .autocommit =>
    match takeLock s none with
    | .ok (v, s) => (.ok (), s, { l with state := .open (some v) })
    | .error e => (.error e, s, l)
  | _, .open view =>
    -- The lock is taken before the transaction around it is noticed.
    match takeLock s view with
    | .ok (v, s) => (.error .beginInTransaction, s, { l with state := .open (some v) })
    | .error e => (.error e, s, l)

/-- Ends the transaction; its changes are kept or dropped, and its lock is given up. -/
def close (keep : Bool) (view : Option View) (s : Store) : Store :=
  match view with
  | some v =>
    if v.holdsLock then
      if keep then (s.adopt v.contents v.written).unlock else s.unlock
    else s
  | none => s

/-- A transaction that would leave a reference without its row stays open. -/
def commit : Use Unit := fun s l =>
  match l.state with
  | .autocommit => (.error .commitOutsideTransaction, s, l)
  | .open view =>
    if l.foreignKeys && view.any fun v => v.contents.isDangling then
      (.error .foreignKey, s, l)
    else (.ok (), close true view s, { l with state := .autocommit })

def rollback : Use Unit := fun s l =>
  match l.state with
  | .autocommit => (.error .rollbackOutsideTransaction, s, l)
  | .open view => (.ok (), close false view s, { l with state := .autocommit })

/-- What a statement answers: rows, and the names of their columns. -/
structure RowSet where
  names : List String
  rows : List (List Cell)

def RowSet.none : RowSet := ⟨[], []⟩

/-- Runs a query on what the connection sees. A query without a table sees nothing, and so
does not start the view of its transaction. -/
def read (q : PreparedQuery) (params : List Cell) : Use RowSet := fun s l =>
  let answer (db : Contents) : Except DatabaseFault RowSet :=
    (q.run params (db.rows q.table)).map fun rows => ⟨q.names, rows⟩
  match l.state with
  | .autocommit => (answer s.committed, s, l)
  | .open view =>
    let v := view.getD s.view
    (answer v.contents, s, if q.table.isSome then { l with state := .open (some v) } else l)

/-- The link after a statement that can change rows; one that fails has changed none. -/
def Link.noted (l : Link) (d : Except DatabaseFault Done) : Link :=
  match d with
  | .ok d => { l with changes := d.changed, lastRowId := d.lastRowId.getD l.lastRowId }
  | .error _ => { l with changes := 0 }

/-- Runs a statement that writes. Outside a transaction it commits at once, and is refused if
it leaves a reference without its row. A single row that no identifier is left for ends the
transaction. -/
def write (st : Prepared) (params : List Cell) : Use RowSet := fun s l =>
  match l.state with
  | .autocommit =>
    if s.writeLocked then (.error .locked, s, l.noted (.error .locked))
    else
      let effect := st.write l.foreignKeys params s.committed
      let result := effect.result.bind fun d =>
        if l.foreignKeys && d.contents.isDangling then .error .foreignKey else .ok d
      match result with
      | .ok d => (.ok .none, s.adopt d.contents effect.touched, l.noted result)
      | .error e => (.error e, s, l.noted result)
  | .open view =>
    match takeLock s view with
    | .error e => (.error e, s, l.noted (.error e))
    | .ok (v, s) =>
      let effect := st.write l.foreignKeys params v.contents
      let v := { v with written := v.written || effect.touched }
      let l := l.noted effect.result
      match effect.result with
      | .ok d => (.ok .none, s, { l with state := .open (some { v with contents := d.contents }) })
      | .error e =>
        if e = .full ∧ st.isSingle then
          (.error e, close false (some v) s, { l with state := .autocommit })
        else (.error e, s, { l with state := .open (some v) })

def runPrepared (st : Prepared) (params : List Cell) : Use RowSet := fun s l =>
  let control (use : Use Unit) : Except DatabaseFault RowSet × Store × Link :=
    let (result, s, l) := use s l
    (result.map fun _ => .none, s, l)
  match st with
  | .nothing => (.error .noStatement, s, l)
  | .query q => read q params s l
  | .begin mode => control (begin mode)
  | .commit => control commit
  | .rollback => control rollback
  | .readUncommitted none =>
    (.ok ⟨["read_uncommitted"], [[.integer (if l.readUncommitted then 1 else 0)]]⟩, s, l)
  | .readUncommitted (some _) => (.ok .none, s, l)
  | st => write st params s l

/-- The contents that a statement is prepared against. -/
def visible (s : Store) (l : Link) : Contents :=
  match l.state with
  | .open (some v) => v.contents
  | _ => s.committed

/-- The number of values that a statement was given, as far as they are looked at. -/
def checkParams (supplied needed : Nat) : Except DatabaseFault Unit :=
  if supplied = needed then .ok ()
  else .error (.wrongParameterCount (min supplied (needed + 1)) needed)

def prepare (b : Sql.Bound) (db : Contents) : Except DatabaseFault Prepared :=
  match Statement.ofText? b.sql with
  | none => .error .rejected
  | some (st, needed) => do
    let prepared ← st.prepare db
    checkParams b.params.length needed
    return prepared

/-- How the connection is going to read by a statement that sets it. -/
def setting? (b : Sql.Bound) : Option Bool :=
  match Statement.ofText? b.sql with
  | some (.readUncommitted flag, _) => flag
  | _ => none

/-- A setting is made while its statement is prepared. -/
def Link.tuned (l : Link) (b : Sql.Bound) : Link :=
  { l with readUncommitted := (setting? b).getD l.readUncommitted }

def runText (b : Sql.Bound) : Use RowSet := fun s l =>
  let l := l.tuned b
  match prepare b (visible s l) with
  | .error e => (.error e, s, l)
  | .ok st => runPrepared st (b.params.map Cell.ofValue) s l

def query (b : Sql.Bound) : Use (List ResultRow) := fun s l =>
  let (result, s, l) := runText b s l
  (result.map fun found =>
    found.rows.map fun row => (found.names.zip row).map fun c => (c.1, c.2.toValue), s, l)

/-- A statement that gives a row is refused; one that can change no rows answers the number
that the last statement before it changed. -/
def execute (b : Sql.Bound) : Use Nat := fun s l =>
  let (result, s, l) := runText b s l
  (result.bind fun found =>
    if found.rows.isEmpty then .ok l.changes else .error .executeReturnedRows, s, l)

def engine : Engine DatabaseFault Store Link where
  begin mode := onOwn (begin mode)
  commit := onOwn commit
  rollback := onOwn rollback
  execute b := onOwn (execute b)
  query b := onOwn (query b)
  autocommit := Link.isAutocommit
  readUncommitted := Link.readUncommitted
  setReadUncommitted flag l := { l with readUncommitted := flag }
  lastInsertId := Link.lastRowId

/-- The store of a source and a new connection to it, with tables of the given schemas. -/
def connect (schemas : List Schema) (c : SourceConfig) : Except Error (Store × Link) :=
  let store := Store.empty schemas
  if c.connects then .ok (store, Link.fresh c.foreignKeys (if c.isMemory then some store else none))
  else .error .pool

end DataAccess.Database
