import DataAccess.Engine

/-!
Isolation levels. A level fixes how a transaction locks when it begins, and the weakest level
also lets its connections read uncommitted data while it lasts.
-/
namespace DataAccess

inductive Level where
  | readUncommitted | readCommitted | repeatableRead | serializable
deriving DecidableEq, Repr

namespace Level

def name : Level → String
  | .readUncommitted => "ReadUncommitted"
  | .readCommitted => "ReadCommitted"
  | .repeatableRead => "RepeatableRead"
  | .serializable => "Serializable"

def lockMode : Level → LockMode
  | .readUncommitted | .readCommitted => .deferred
  | .repeatableRead => .immediate
  | .serializable => .exclusive

variable {Fault Store Link : Type}

/-- Begins a transaction on one connection. Where that fails the connection reads committed
data again. -/
def begin (E : Engine Fault Store Link) (level : Level) : Access Fault Store Link Unit :=
    fun store link =>
  let uncommitted : Bool := level = .readUncommitted
  match E.begin level.lockMode store (E.setReadUncommitted uncommitted link) with
  | (.ok (), store, link) => (.ok (), store, link)
  | (.error e, store, link) =>
    (.error e, store, if uncommitted then E.setReadUncommitted false link else link)

end Level

inductive Outcome where
  | commit | rollback
deriving DecidableEq, Repr

variable {Fault Store Link : Type}

/-- Ends a transaction on one connection. A transaction that a failed commit leaves open is
rolled back, and the connection reads committed data again. -/
def Outcome.finish (E : Engine Fault Store Link) (o : Outcome) (level : Level) :
    Access Fault Store Link Unit := fun store link =>
  let (result, store, link) :=
    match o with
    | .commit => E.commit store link
    | .rollback => E.rollback store link
  let (store, link) :=
    if E.autocommit link then (store, link) else (E.rollback store link).2
  (result, store,
    if level = .readUncommitted then E.setReadUncommitted false link else link)

end DataAccess
