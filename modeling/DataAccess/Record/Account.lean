import DataAccess.Record.Field

/-!
Accounts as typed records: an identifier that is absent until the account is stored, an
owner and a whole balance.
-/
namespace DataAccess

structure Account where
  id : Option Int64
  owner : String
  balance : Int64

namespace Account

open Record

def checks : List (String × Check) :=
  [("id", checkOf (readOptional readInteger)), ("owner", checkOf readText),
    ("balance", checkOf readInteger)]

def ofRow (row : Row) : Except RowFault Account := do
  checkFields checks row
  let id ← optional row "id" readInteger
  let owner ← required row "owner" readText
  let balance ← required row "balance" readInteger
  return ⟨id, owner, balance⟩

def toJson (a : Account) : Json :=
  .ofFields [("id", .ofValue (toValue a.id)), ("owner", .text a.owner),
    ("balance", .ofValue (toValue a.balance))]

end Account
end DataAccess
