import DataAccess.Database.Scan.Estimate
import DataAccess.Database.Scan.Test

/-!
Ways to visit the rows of a table that a filter keeps, with their costs. The rows can be visited
in the order of their identifiers or in that of an index on a unique column, all of them or
those that pass a test of the column, or by one branch of a disjunction after the other.
-/
namespace DataAccess.Database

/-- What a table offers for visits of its rows. -/
structure TableShape where
  /-- The position of the column of the row identifiers, in whose order rows are stored. -/
  key : Nat
  /-- The position of a column that has an index. -/
  index : Option Nat
  /-- The cost of reading an entry of the index. -/
  entryCost : Estimate
  /-- The entries of the index are smaller than rows. -/
  isSlim : Bool

inductive Path where
  | byKey
  | byIndex
  /-- By the branches of the conjunct at a position. -/
  | byBranches (conjunct : Nat)
deriving DecidableEq, Repr

structure Way where
  path : Path
  /-- The positions of the conjuncts that it makes use of. -/
  used : List Nat
  /-- The first test that it makes use of. -/
  test : Option TestKind
  cost : Estimate
  /-- The number of rows that pass all conjuncts. -/
  rows : Estimate

namespace Way

/-- A table is taken to have about a million rows. -/
def allRows : Estimate := 200

def rowCost : Estimate := 16

/-- What a table offers, and whether the index alone has all cells that are asked for. -/
structure Setting where
  shape : TableShape
  covered : Bool

/-- The rows that are left of some number by the conjuncts that a way makes no use of. -/
def leftBy (conjuncts : List Term) (used : List Nat) (rows : Estimate) : Estimate :=
  let others := (conjuncts.zipIdx.filter fun c => !used.contains c.2 && !c.1.isFixed).map (·.1)
  let cull := ((others.filter (·.isEquality)).map fun t =>
    if t.isNearZero then (10 : Estimate) else 20).foldl max 0
  min (rows - others.length) (allRows - cull)

/-- The cost of visiting rows that are found by a test. -/
def searchCost (s : Setting) (path : Path) (rows : Estimate) : Estimate :=
  let start := Estimate.search allRows
  if path = .byKey then Estimate.sum start (rows + rowCost)
  else
    let entries := Estimate.sum start (rows + s.shape.entryCost)
    if s.covered then entries else Estimate.sum entries (rows + rowCost)

/-- The rows between bounds: a bound keeps a quarter of them, and two keep less. That cells are
present hardly bounds them. -/
def rowsBetween (low high : Option TestKind) : Estimate :=
  let bounds := low.toList ++ high.toList
  let pair : Estimate := if bounds.length = 2 then 20 else 0
  min (allRows - 20 * bounds.countP (· ≠ .notNull) - pair) (allRows - bounds.length)

/-- Whether a path can make use of a test; identifiers are never null. -/
def takes (path : Path) (kind : TestKind) : Bool :=
  path ≠ .byKey || (kind ≠ .null && kind ≠ .notNull)

/-- The tests of a column that a path can make use of, with their positions. Of bounds that
make no difference only the first is given. -/
def usable (own outer : List Term) (path : Path) (column : Nat) : List (Nat × TestKind) :=
  let terms := own ++ outer
  let tests := (terms ++ terms.flatMap (·.implied)).zipIdx.filterMap fun c =>
    match c.1.test? with
    | some t => if t.column = column ∧ takes path t.kind then some (c.2, t.kind) else none
    | none => none
  tests.eraseDupsBy fun a b =>
    a.2 = b.2 && (a.2 = .above || a.2 = .below) && (a.1 < own.length) == (b.1 < own.length)

/-- The ways along a path that start from tests of its column. -/
def searches (s : Setting) (own outer : List Term) (path : Path) (column : Nat) : List Way :=
  let tests := usable own outer path column
  let way (used : List Nat) (kind : TestKind) (rows times : Estimate) : Way :=
    ⟨path, used, some kind, searchCost s path rows + times, leftBy own used (rows + times)⟩
  tests.flatMap fun (i, kind) =>
    match kind with
    | .equal | .same => [way [i] kind 0 0]
    | .member n => [way [i] kind 0 (Estimate.ofNat n)]
    | .null => [way [i] kind 10 0]
    | .below => [way [i] kind (rowsBetween none (some kind)) 0]
    | .above | .notNull =>
      way [i] kind (rowsBetween (some kind) none) 0 :: tests.filterMap fun (j, high) =>
        if high = .below then some (way [i, j] kind (rowsBetween (some kind) (some high)) 0)
        else none

/-- The ways that make use of some of the conjuncts. Where these are those of a branch, `outer`
are the conjuncts beside the disjunction; each branch of one needs a test of its own. -/
def guided (s : Setting) : (fuel : Nat) → (own outer : List Term) → List Way
  | 0, _, _ => []
  | fuel + 1, own, outer =>
    let along := searches s own outer .byKey s.shape.key ++
      (match s.shape.index with
        | some column => searches s own outer .byIndex column
        | none => [])
    along ++ own.zipIdx.filterMap fun (t, i) => do
      guard (t.branches.all (·.conjuncts.any (·.isTest s.shape.key)))
      let found := t.branches.map fun b => guided s fuel b.conjuncts ((own ++ outer).eraseIdx i)
      let costs ← found.mapM fun ways => (ways.map (·.cost)).min?
      let rows ← found.mapM fun ways => (ways.map (·.rows)).min?
      let cost ← costs.tail.foldl Estimate.sum <$> costs.head?
      let total ← rows.tail.foldl Estimate.sum <$> rows.head?
      return ⟨.byBranches i, [i], none, cost + 1, total⟩

/-- The ways that visit all rows. The index is considered if it has all cells that are asked
for, or else if rows are wanted in an order that it may give. -/
def complete (s : Setting) (conjuncts : List Term) (wanted : List (Option Nat)) : List Way :=
  let rows := leftBy conjuncts [] allRows
  let byKey : Way := ⟨.byKey, [], none, allRows + rowCost, rows⟩
  match s.shape.index with
  | none => [byKey]
  | some column =>
    let inIndex (i : Nat) : Bool := i = s.shape.key || i = column
    let helps := wanted.any (·.any inIndex)
    let entries := allRows + s.shape.entryCost
    let tested := conjuncts.takeWhile fun t => t.positions.all inIndex
    let fetched := allRows + rowCost - tested.length -
      19 * tested.countP (·.isEquality)
    let cost := if s.covered then entries else Estimate.sum entries fetched
    if helps || (s.covered && s.shape.isSlim) then [byKey, ⟨.byIndex, [], none, cost, rows⟩]
    else [byKey]

/-- The first of the ways with the least measure. -/
def best? (measure : Way → List Estimate) : List Way → Option Way
  | [] => none
  | w :: rest =>
    match best? measure rest with
    | some v => if measure v < measure w then some v else some w
    | none => some w

end Way
end DataAccess.Database
