import DataAccess.Database.Scan.Way

/-!
Plans: the way to visit the rows of a table that costs least, where rows that do not come in the
order they are wanted in have to be sorted. What shows of a plan is the order of rows that are
equal in the order they are wanted in, and of all rows if they are wanted in none.
-/
namespace DataAccess.Database

/-- The order that rows are wanted in. -/
structure Wanted where
  /-- For each term the column that it consists of, and whether it descends. -/
  terms : List (Option Nat × Bool)
  /-- Rows are grouped by the terms, so that equal ones only have to be neighbours. -/
  grouping : Bool
  limit : Option Estimate
  outputs : Nat

/-- How far the rows come as they are wanted. -/
structure Delivery where
  /-- The positions of the terms that they are in the order of. -/
  terms : List Nat
  /-- The direction of the visit, if a term has decided on it. -/
  descends : Option Bool
  /-- No two rows are equal in the columns that they come in the order of. -/
  distinct : Bool

namespace Wanted

/-- Goes through the columns that rows come in the order of. -/
def follow (w : Wanted) (key : Nat) (test : Option TestKind) :
    (leading : Bool) → List Nat → Delivery → Delivery
  | _, [], d => d
  | leading, c :: rest, d =>
    let isMember : Bool := match test with
      | some (.member _) => true
      | _ => false
    let d := if c ≠ key ∧ !isMember then { d with distinct := false } else d
    let fits (t : (Option Nat × Bool) × Nat) : Bool := t.1.1 = some c && !d.terms.contains t.2
    let stopped := if leading then { d with distinct := false } else d
    match w.terms.zipIdx.find? fits with
    | some ((_, descends), i) =>
      if w.grouping then
        follow w key test false rest
          { d with terms := i :: d.terms, distinct := d.distinct || c = key }
      else if d.descends.all (· = descends) then
        follow w key test false rest
          ⟨i :: d.terms, some descends, d.distinct || c = key⟩
      else stopped
    | none => stopped

/-- The terms that are the same in all rows that pass the conjuncts. -/
def settled (w : Wanted) (conjuncts : List Term) : List Nat :=
  let columns := conjuncts.filterMap fun t =>
    match t.test? with
    | some ⟨c, .equal⟩ | some ⟨c, .same⟩ | some ⟨c, .null⟩ => some c
    | _ => none
  (w.terms.zipIdx.filter fun t => t.1.1.any columns.contains).map (·.2)

def delivery (w : Wanted) (shape : TableShape) (conjuncts : List Term) (way : Way) : Delivery :=
  let start : Delivery := ⟨w.settled conjuncts, none, true⟩
  match way.path, shape.index with
  | .byKey, _ => w.follow shape.key way.test true [shape.key] start
  | .byIndex, some column =>
    match way.test with
    | some .equal => w.follow shape.key way.test false [shape.key] start
    | some .same | some .null =>
      w.follow shape.key way.test false [shape.key] { start with distinct := false }
    | _ => w.follow shape.key way.test true [column, shape.key] start
  | _, _ => ⟨[], none, false⟩

/-- The number of terms, from the first on, that the rows come in the order of. -/
def fulfilled (w : Wanted) (d : Delivery) : Nat :=
  if d.distinct then w.terms.length
  else ((List.range w.terms.length).takeWhile d.terms.contains).length

/-- The cost of sorting rows of which the first terms are in order. -/
def sortCost (w : Wanted) (rows : Estimate) (fulfilled : Nat) : Estimate :=
  let cells := Estimate.ofNat ((w.outputs + 59) / 30)
  let partly : Estimate := if fulfilled = 0 then 0
    else Estimate.ofNat ((w.terms.length - fulfilled) * 100 / w.terms.length) - 66
  let limited : Estimate := if w.limit.isNone then 0 else if fulfilled = 0 then 10 else 16
  let compared := match w.limit with
    | some n => min rows n
    | none => rows
  rows + cells + partly + limited + Estimate.search compared

end Wanted

namespace Way

/-- Whether no more than one row passes the conjuncts. -/
def isSingle (shape : TableShape) (conjuncts : List Term) : Bool :=
  conjuncts.any fun t =>
    match t.test? with
    | some ⟨c, .equal⟩ => c = shape.key || shape.index = some c
    | some ⟨c, .same⟩ => c = shape.key
    | _ => false

/-- Whether a way starts from a test that pins its column down. -/
def isPinned (w : Way) : Bool :=
  match w.test with
  | some .equal | some .same | some .null | some (.member _) => true
  | _ => false

/-- The way that costs least without sorting. -/
def unsorted? (s : Setting) (fuel : Nat) (conjuncts : List Term) (wanted : List (Option Nat)) :
    Option Way :=
  best? (fun w => [w.cost, w.rows]) (complete s conjuncts wanted ++ guided s fuel conjuncts [])

/-- The way that costs least. If the one without sorting is pinned down, no way that visits all
rows is considered. -/
def choose? (s : Setting) (fuel : Nat) (conjuncts : List Term) (w : Wanted) : Option Way := do
  let columns := w.terms.map (·.1)
  let first ← unsorted? s fuel conjuncts columns
  if w.terms.isEmpty then return first
  let ways := guided s fuel conjuncts []
  best? (fun way =>
    let n := w.fulfilled (w.delivery s.shape conjuncts way)
    if n < w.terms.length then
      [Estimate.sum way.cost (w.sortCost (first.rows + 1) n) + 3, way.rows, way.cost]
    else [way.cost, way.rows, way.cost - 2])
    (if first.isPinned then ways else complete s conjuncts columns ++ ways)

end Way

inductive Visit where
  | byKey
  /-- In the order of the cells of a column, and then of the identifiers. -/
  | byColumn (column : Nat)
  /-- First the rows for which a term holds, then the others. -/
  | split (t : Term) (inside outside : Visit)

namespace Visit

/-- Whether a conjunct is looked at within the branches of another one. -/
def guides (t : Term) : Bool :=
  t.test?.any (·.kind ≠ .notNull) || !t.branches.isEmpty

/-- The visit along a path. Each branch is visited in its own way, which makes use of the other
conjuncts too. -/
def along (s : Way.Setting) : (fuel : Nat) → (conjuncts : List Term) → Path → Visit
  | 0, _, _ => .byKey
  | _, _, .byKey => .byKey
  | _, _, .byIndex => (s.shape.index.map .byColumn).getD .byKey
  | fuel + 1, conjuncts, .byBranches i =>
    let others := (conjuncts.eraseIdx i).filter guides
    let branches := ((conjuncts[i]?).map (·.branches)).getD []
    branches.foldr (fun b outside =>
      let inner := b.conjuncts ++ others
      let inside := match Way.unsorted? s fuel inner [] with
        | some w => along s fuel inner w.path
        | none => .byKey
      .split b inside outside) .byKey

/-- Puts rows that are in the order of their identifiers into the order of a visit. -/
def arrange (holds : Term → List Cell → Bool) : Visit → List (List Cell) → List (List Cell)
  | .byKey, rows => rows
  | .byColumn column, rows =>
    let cell (row : List Cell) : Cell := (row[column]?).getD .null
    rows.mergeSort fun a b => (cell a).compare (cell b) ≠ .gt
  | .split t inside outside, rows =>
    inside.arrange holds (rows.filter (holds t)) ++
      outside.arrange holds (rows.filter (!holds t ·))

end Visit

structure Plan where
  visit : Visit
  descends : Bool
  /-- The rows come as they are wanted. -/
  fulfills : Bool

namespace Plan

/-- The rows as they come. -/
def asStored : Plan := ⟨.byKey, false, false⟩

/-- The plan for the conjuncts of a filter. `sameOrder` says that rows are grouped by terms
which the groups are then ordered by. -/
def make (s : Way.Setting) (filter : Option Term) (w : Wanted) (sameOrder : Bool) : Plan :=
  let conjuncts := (filter.map (·.conjuncts)).getD []
  let fuel := (filter.map (·.depth)).getD 0 + 1
  if Way.isSingle s.shape conjuncts then { asStored with fulfills := true }
  else match Way.choose? s fuel conjuncts w with
    | none => asStored
    | some way =>
      let directed := if sameOrder then { w with grouping := false } else w
      let d := directed.delivery s.shape conjuncts way
      let fulfills := w.fulfilled (w.delivery s.shape conjuncts way) = w.terms.length
      let turns := !directed.grouping && d.descends = some true &&
        (!w.grouping || directed.fulfilled d = w.terms.length)
      ⟨Visit.along s fuel conjuncts way.path, turns, fulfills⟩

/-- The rows of a table in the order of the plan. -/
def arrange (p : Plan) (holds : Term → List Cell → Bool) (rows : List (List Cell)) :
    List (List Cell) :=
  let visited := p.visit.arrange holds rows
  if p.descends then visited.reverse else visited

end Plan
end DataAccess.Database
