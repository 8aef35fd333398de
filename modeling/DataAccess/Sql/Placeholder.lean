import DataAccess.Decimal.Digit
import DataAccess.Sql.Region

/-!
Positional placeholders. A bare `?` takes the index after the largest one used so far and
`?NNN` names its index, so the number of parameters a text needs is the largest index used.
-/
namespace DataAccess.Sql

open Decimal (isDigit valueOfDigits)

/-- The index that digits spell; none without digits or beyond a machine word. -/
def indexOfDigits (digits : List Char) : Option Nat :=
  if digits.isEmpty ∨ UInt64.size ≤ valueOfDigits digits then none else some (valueOfDigits digits)

/-- The live placeholders in order, each with the index it names, if it names one. -/
def placeholders : List (Char × Bool) → List (Option Nat)
  | [] => []
  | (c, live) :: rest =>
    if live ∧ c = '?' then
      indexOfDigits ((rest.takeWhile fun m => m.2 && isDigit m.1).map Prod.fst) ::
        placeholders rest
    else placeholders rest

/-- The largest index used once a placeholder is added. It is a machine word, and counts on from the
largest one of these at zero. -/
def addIndex (largest : Nat) : Option Nat → Nat
  | none => (largest + 1) % UInt64.size
  | some index => max largest index

/-- The number of parameters that SQL text needs. -/
def countPlaceholders (sql : String) : Nat :=
  (placeholders (scan sql.toList)).foldl addIndex 0

end DataAccess.Sql
