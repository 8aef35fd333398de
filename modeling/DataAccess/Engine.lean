import DataAccess.Sql.Bound

/-!
What the coordinator asks of a database engine. All connections of a data source share its
store; a link is what one connection keeps for itself. Every use of a connection yields a
result, the store and the link, also when it fails.
-/
namespace DataAccess

inductive LockMode where
  | deferred | immediate | exclusive
deriving DecidableEq, Repr

/-- One use of a connection. -/
abbrev Access (Fault Store Link α : Type) := Store → Link → Except Fault α × Store × Link

/-- The columns of one result row, in order. -/
abbrev ResultRow := List (String × Value)

structure Engine (Fault Store Link : Type) where
  begin : LockMode → Access Fault Store Link Unit
  commit : Access Fault Store Link Unit
  rollback : Access Fault Store Link Unit
  /-- Runs a statement that returns no rows; answers the number of rows changed. -/
  execute : Sql.Bound → Access Fault Store Link Nat
  query : Sql.Bound → Access Fault Store Link (List ResultRow)
  /-- No transaction is open. -/
  autocommit : Link → Bool
  readUncommitted : Link → Bool
  setReadUncommitted : Bool → Link → Link
  lastInsertId : Link → Int64

/-- Failures of engines that can be reported as failures of a database. -/
class Reportable (Fault : Type) where
  report : Fault → DatabaseFault

instance : Reportable DatabaseFault := ⟨id⟩

def Error.ofFault {Fault : Type} [Reportable Fault] (fault : Fault) : Error :=
  .database (Reportable.report fault)

end DataAccess
