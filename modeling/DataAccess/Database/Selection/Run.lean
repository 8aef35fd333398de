import DataAccess.Database.Scan.Plan
import DataAccess.Database.Selection.Basic
import DataAccess.Error

/-!
Running selections. The rows of a table are visited as the plan says, then grouped, ordered and
cut; sorting keeps the order of what is equal.
-/
namespace DataAccess.Database

/-- Cells to order by, each with whether it descends. -/
abbrev SortKey := List (Cell × Bool)

def SortKey.compare : SortKey → SortKey → Ordering
  | (a, down) :: as, (b, _) :: bs =>
    let o := a.compare b
    (if down then o.swap else o).then (SortKey.compare as bs)
  | _, _ => .eq

/-- Sorts by a key; what has equal keys keeps its order. -/
def sortByKey {α : Type} (key : α → SortKey) (l : List α) : List (SortKey × α) :=
  (l.map fun a => (key a, a)).mergeSort fun a b => a.1.compare b.1 ≠ .gt

namespace Selection

/-- The columns that terms consist of, with whether they descend. -/
def wantedColumns (terms : List (Term × Bool)) : List (Option Nat × Bool) :=
  terms.map fun t => (t.1.column?, t.2)

/-- The terms to group by with their directions. The groups ascend, unless there are as many
terms to order by, which then lend them their directions. -/
def groupTerms (s : Selection) : List (Term × Bool) :=
  if s.order.length = s.groupBy.length then s.groupBy.zip (s.order.map (·.2))
  else s.groupBy.map (·, false)

/-- The order that the rows of the relation are wanted in. -/
def wanted (s : Selection) : Wanted :=
  if s.isAggregate then ⟨wantedColumns s.groupTerms, true, none, s.outputs.length⟩
  else
    let limit := (s.limit.bind (·.wholeNumber?)).bind fun n =>
      if 0 ≤ n then some (Estimate.ofNat n.toNat) else none
    ⟨wantedColumns s.order, false, limit, s.outputs.length⟩

/-- Whether the groups are ordered by the columns that they are grouped by. -/
def groupsAsOrdered (s : Selection) : Bool :=
  let columns := wantedColumns s.order
  s.isAggregate && columns.all (·.1.isSome) && columns = wantedColumns s.groupTerms

/-- The plan for visiting the rows; those of another selection come as they are. -/
def plan (s : Selection) : Plan :=
  match s.table with
  | none => .asStored
  | some shape =>
    let covered : Bool := s.positions.all fun i => i = shape.key || shape.index = some i
    .make ⟨shape, covered⟩ s.filter s.wanted s.groupsAsOrdered

/-- The groups of the rows: one for each key to group by, one of all rows for a plain count, and
otherwise each row by itself. -/
def groups (s : Selection) (fulfilled : Bool) (params : List Cell) (rows : List (List Cell)) :
    List (List (List Cell)) :=
  if !s.isAggregate then rows.map ([·])
  else if s.groupBy.isEmpty then [rows]
  else
    let key (row : List Cell) : SortKey :=
      s.groupTerms.map fun t => (t.1.eval ⟨params, s.columns, row, []⟩, t.2)
    let keyed := if fulfilled then rows.map fun row => (key row, row) else sortByKey key rows
    (keyed.splitBy fun a b => a.1.compare b.1 = .eq).map fun run => run.map (·.2)

/-- A whole number of rows. -/
def rowCount (params : List Cell) (t : Term) : Except DatabaseFault Int :=
  match rowIdOf? (t.eval ⟨params, [], [], []⟩) with
  | some n => .ok n.toInt
  | none => .error .datatypeMismatch

/-- A negative limit is none, and where nothing is wanted the rows to skip do not matter. -/
def cut {α : Type} (s : Selection) (params : List Cell) (l : List α) :
    Except DatabaseFault (List α) := do
  let limit ← s.limit.mapM (rowCount params)
  if limit = some 0 then return []
  let offset ← s.offset.mapM (rowCount params)
  let l := l.drop (offset.getD 0).toNat
  return match limit with
    | some n => if n < 0 then l else l.take n.toNat
    | none => l

/-- The results over the rows of a relation. Outside of counts, a group is represented by its
first row, and an empty one by nulls. -/
def run (s : Selection) (params : List Cell) (rows : List (List Cell)) :
    Except DatabaseFault (List (List Cell)) := do
  let env (row : List Cell) (group : List (List Cell)) : Env := ⟨params, s.columns, row, group⟩
  let holds (t : Term) (row : List Cell) : Bool := (t.eval (env row [])).truth? = some true
  let kept := rows.filter fun row => s.filter.all (holds · row)
  let visited := s.plan.arrange holds kept
  let envs := (s.groups s.plan.fulfills params visited).map fun g => env (g.headD []) g
  let key (e : Env) : SortKey := s.order.map fun t => (t.1.eval e, t.2)
  let shown ← s.cut params (if s.isOrdered then (sortByKey key envs).map (·.2) else envs)
  return shown.map fun e => s.outputs.map (·.eval e)

/-- Whether a selection gives the same whatever its relation is: none of its results are wanted,
or a part of its filter that is the same for all rows does not hold. -/
def isIdle (s : Selection) (params : List Cell) : Bool :=
  let cell (t : Term) : Cell := t.eval ⟨params, [], [], []⟩
  s.limit.any (fun t => rowIdOf? (cell t) = some 0) ||
    ((s.filter.map (·.conjuncts)).getD []).any fun t => t.isFixed && (cell t).truth? != some true

/-- Runs selections over one another, the outermost first, over the rows of a relation. Those
inside an idle one do not run, so that they cannot fail. -/
def runAll (params : List Cell) (rows : List (List Cell)) :
    List Selection → Except DatabaseFault (List (List Cell))
  | [] => .ok rows
  | s :: inner => do
    let relation ← if s.isIdle params then .ok [] else runAll params rows inner
    s.run params relation

end Selection
end DataAccess.Database
