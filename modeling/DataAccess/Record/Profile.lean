import DataAccess.Record.Field

/-!
Profiles as typed records, with fields of every type that a record may have.
-/
namespace DataAccess

structure Profile where
  id : Option Int64
  displayName : String
  balance : Float
  active : Bool
  nickname : Option String

namespace Profile

open Record

def checks : List (String × Check) :=
  [("id", checkOf (readOptional readInteger)), ("display_name", checkOf readText),
    ("balance", checkOf readReal), ("active", checkOf readBool),
    ("nickname", checkOf (readOptional readText))]

def ofRow (row : Row) : Except RowFault Profile := do
  checkFields checks row
  let id ← optional row "id" readInteger
  let displayName ← required row "display_name" readText
  let balance ← required row "balance" readReal
  let active ← required row "active" readBool
  let nickname ← optional row "nickname" readText
  return ⟨id, displayName, balance, active, nickname⟩

def toJson (p : Profile) : Json :=
  .ofFields [("id", .ofValue (toValue p.id)), ("display_name", .text p.displayName),
    ("balance", .ofValue (toValue p.balance)), ("active", .bool p.active),
    ("nickname", .ofValue (toValue p.nickname))]

end Profile
end DataAccess
