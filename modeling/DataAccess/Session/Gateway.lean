import DataAccess.Page
import DataAccess.Record.Kind
import DataAccess.Session.Basic
import DataAccess.Sql.Template
import DataAccess.Text.Blank

/-!
Gateways: the operations of a session on one data source. An operation first binds its SQL;
only then does it resolve a connection, use it, and give it up. Updates and deletes without
any condition are refused before anything else.
-/
namespace DataAccess

/-- Arguments of free-form SQL. Named ones fill the holes of a template. -/
inductive Args where
  | none
  | positional (values : List Value)
  | named (params : Params)

def Args.bind (sql : String) : Args → Except Error Sql.Bound
  | .none => Sql.Bound.make sql []
  | .positional values => Sql.Bound.make sql values
  | .named params => Sql.bindTemplate sql params

/-- A whole number spelled with an optional plus sign, within an unsigned word. -/
def readTotal? (s : String) : Option UInt64 :=
  let cs := Text.trimBlank s.toList
  let digits := match cs with | '+' :: rest => rest | cs => cs
  let n := Decimal.valueOfDigits digits
  if digits.isEmpty ∨ ¬digits.all Decimal.isDigit ∨ UInt64.size ≤ n then none
  else some (UInt64.ofNat n)

/-- The count in a row; missing and null count as zero. -/
def totalOf (row : Row) : Except Error UInt64 :=
  let total : Option UInt64 :=
    match row.get? Sql.totalColumn with
    | none | some .null => some 0
    | some (.integer n) => if 0 ≤ n ∧ n < UInt64.size then some (UInt64.ofNat n.toNat) else none
    | some (.text s) => readTotal? s
    | some _ => none
  match total with
  | some n => .ok n
  | none =>
    let text := ((row.get? Sql.totalColumn).map Json.toText).getD ""
    .error (.mapping (.notARowCount Sql.totalColumn text))

/-- The count in the first row; no row counts as zero. -/
def totalOfRows : List Row → Except Error UInt64
  | [] => .ok 0
  | row :: _ => totalOf row

/-- An operation on a session: its result and the registry after it. -/
abbrev Operation (Store Link α : Type) :=
  Session → Registry Store Link → Except Error α × Registry Store Link

structure Gateway where
  source : String
deriving DecidableEq, Repr

namespace Gateway

variable {Fault Store Link α β : Type} [Reportable Fault]

def default (r : Registry Store Link) : Gateway := ⟨r.default⟩

def named (source : String) (r : Registry Store Link) : Except Error Gateway :=
  (r.get source).map fun _ => ⟨source⟩

/-- Runs a bound statement, or fails as binding it failed, leaving everything as it is. -/
def run (bound : Except Error Sql.Bound) (use : Sql.Bound → Operation Store Link α) :
    Operation Store Link α := fun s r =>
  match bound with
  | .error e => (.error e, r)
  | .ok b => use b s r

def andThen (op : Operation Store Link α) (f : α → Except Error β) : Operation Store Link β :=
  fun s r => ((op s r).1.bind f, (op s r).2)

def runQuery (E : Engine Fault Store Link) (g : Gateway) (b : Sql.Bound) :
    Operation Store Link (List Row) :=
  andThen (Session.withLink g.source (E.query b)) fun rows => .ok (rows.map Row.ofColumns)

def runUpdate (E : Engine Fault Store Link) (g : Gateway) (b : Sql.Bound) :
    Operation Store Link Nat :=
  Session.withLink g.source (E.execute b)

/-- The rows that match, in an order if one is given; an empty set matches every row. -/
def select (E : Engine Fault Store Link) (g : Gateway) (read : Row → Except RowFault α)
    (table : String) (conditions : Sql.ConditionSet) (order : List Sql.OrderTerm) :
    Operation Store Link (List α) :=
  run (Sql.Statement.select table conditions order).bind fun b =>
    andThen (g.runQuery E b) (readRows read)

def count (E : Engine Fault Store Link) (g : Gateway) (table : String)
    (conditions : Sql.ConditionSet) : Operation Store Link UInt64 :=
  run (Sql.Statement.count table conditions).bind fun b => andThen (g.runQuery E b) totalOfRows

def bindInsert (table : String) (record : Record) : Except Error Sql.Bound := do
  (Sql.Statement.insert table (← Record.toColumns record)).bind

def bindUpdate (table : String) (record : Record) (conditions : Sql.ConditionSet) :
    Except Error Sql.Bound :=
  if conditions.isEmpty then .error (.conditionRequired "update")
  else do (Sql.Statement.update table (← Record.toColumns record) conditions).bind

def bindDelete (table : String) (conditions : Sql.ConditionSet) : Except Error Sql.Bound :=
  if conditions.isEmpty then .error (.conditionRequired "delete")
  else (Sql.Statement.delete table conditions).bind

/-- Stores the fields of a record that are not null; answers the number of rows. -/
def insert (E : Engine Fault Store Link) (g : Gateway) (table : String) (record : Record) :
    Operation Store Link Nat :=
  run (bindInsert table record) (g.runUpdate E)

def insertReturningId (E : Engine Fault Store Link) (g : Gateway) (table : String)
    (record : Record) : Operation Store Link Int64 :=
  run (bindInsert table record) fun b =>
    Session.withLink g.source fun store link =>
      match E.execute b store link with
      | (.ok _, store, link) => (.ok (E.lastInsertId link), store, link)
      | (.error e, store, link) => (.error e, store, link)

/-- Changes the fields of a record that are not null on every row that matches. -/
def update (E : Engine Fault Store Link) (g : Gateway) (table : String) (record : Record)
    (conditions : Sql.ConditionSet) : Operation Store Link Nat :=
  run (bindUpdate table record conditions) (g.runUpdate E)

def delete (E : Engine Fault Store Link) (g : Gateway) (table : String)
    (conditions : Sql.ConditionSet) : Operation Store Link Nat :=
  run (bindDelete table conditions) (g.runUpdate E)

def queryRows (E : Engine Fault Store Link) (g : Gateway) (sql : String) (args : Args) :
    Operation Store Link (List Row) :=
  run (args.bind sql) (g.runQuery E)

def query (E : Engine Fault Store Link) (g : Gateway) (read : Row → Except RowFault α)
    (sql : String) (args : Args) : Operation Store Link (List α) :=
  andThen (g.queryRows E sql args) (readRows read)

/-- The row of a query that matches at most one. -/
def selectOne (E : Engine Fault Store Link) (g : Gateway) (read : Row → Except RowFault α)
    (sql : String) (args : Args) : Operation Store Link (Option α) :=
  andThen (g.queryRows E sql args) fun rows =>
    match rows with
    | [] => .ok none
    | [row] => ((read row).mapError .row).map some
    | rows => .error (.multipleRows rows.length)

def exec (E : Engine Fault Store Link) (g : Gateway) (sql : String) (args : Args) :
    Operation Store Link Nat :=
  run (args.bind sql) (g.runUpdate E)

/-- The query that counts the rows of another. -/
def countSql (sql : String) : String :=
  "select count(0) as " ++ Sql.totalColumn ++ " from (" ++ sql ++ ") as _t"

def limitSql (sql : String) : String :=
  sql ++ " limit \x7b" ++ PageRequest.startParam ++ "\x7d,\x7b" ++ PageRequest.sizeParam ++ "\x7d"

/-- Binds the count query and the data query of a page. -/
def bindPage (sql countSql : String) (request : PageRequest) :
    Except Error (Sql.Bound × Sql.Bound) := do
  request.validate
  let count ← Sql.bindTemplate countSql request.params
  let data ← Sql.bindTemplate (limitSql sql) request.dataParams
  return (count, data)

def pageCount : List Row → Except Error UInt64
  | [] => .ok 0
  | [row] => totalOf row
  | rows => .error (.multipleRows rows.length)

def selectPageWithCount (E : Engine Fault Store Link) (g : Gateway)
    (read : Row → Except RowFault α) (sql countSql : String) (request : PageRequest) :
    Operation Store Link (PageResult α) :=
  fun s r =>
    match bindPage sql countSql request with
    | .error e => (.error e, r)
    | .ok (count, data) =>
      match andThen (g.runQuery E count) pageCount s r with
      | (.error e, r) => (.error e, r)
      | (.ok total, r) =>
        andThen (g.runQuery E data)
          (fun rows => (readRows read rows).map fun rows => .make rows request total) s r

def selectPage (E : Engine Fault Store Link) (g : Gateway) (read : Row → Except RowFault α)
    (sql : String) (request : PageRequest) : Operation Store Link (PageResult α) :=
  g.selectPageWithCount E read sql (countSql sql) request

end Gateway
end DataAccess
