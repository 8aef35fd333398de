/-!
Estimates on a logarithmic scale. Numbers of rows and costs of visiting them are given as tenths
of a binary logarithm, so that a product is a sum, and a sum needs a table.
-/
namespace DataAccess.Database

abbrev Estimate := Int

namespace Estimate

/-- Tenths of the binary logarithm of eighths, from `8 / 8` on. -/
def eighths : List Estimate := [0, 2, 3, 5, 6, 7, 8, 9]

def ofNat (n : Nat) : Estimate :=
  let whole := n.log2
  10 * whole + (eighths[n * 8 / Nat.pow 2 whole - 8]?).getD 0

/-- What a smaller number adds to a greater one, by the distance of the two. -/
def excesses : List Estimate :=
  [10, 10, 9, 9, 8, 8, 7, 7, 7, 6, 6, 6, 5, 5, 5, 4, 4, 4, 4, 3, 3, 3, 3, 3, 3,
    2, 2, 2, 2, 2, 2, 2]

def sum (a b : Estimate) : Estimate :=
  let distance := (max a b - min a b).toNat
  max a b + (excesses[distance]?).getD (if distance ≤ 49 then 1 else 0)

/-- The cost of finding one among some number of rows by its place in an order. -/
def search (rows : Estimate) : Estimate := if rows ≤ 10 then 0 else ofNat rows.toNat - 33

end Estimate
end DataAccess.Database
