/-!
Decimal digits and the numbers that they spell.
-/
namespace DataAccess.Decimal

def isDigit (c : Char) : Bool := '0' ≤ c ∧ c ≤ '9'

/-- The number that decimal digits spell; zero for no digits. -/
def valueOfDigits (digits : List Char) : Nat :=
  digits.foldl (fun n d => 10 * n + (d.toNat - '0'.toNat)) 0

end DataAccess.Decimal
