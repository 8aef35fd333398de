import DataAccess.Database.Expr

/-!
The tests that a filter consists of, as far as they can guide a visit of the rows of a table:
those of a single column against what is the same for all rows.
-/
namespace DataAccess.Database

inductive TestKind where
  | equal
  /-- Equal, where null equals itself. -/
  | same
  /-- Equal to one of some number of cells. -/
  | member (count : Nat)
  | null
  | notNull
  | below
  | above
deriving DecidableEq, Repr

structure ColumnTest where
  column : Nat
  kind : TestKind
deriving DecidableEq, Repr

def CompareOp.testKind? : CompareOp → Option TestKind
  | .eq => some .equal
  | .ne => none
  | .lt | .le => some .below
  | .gt | .ge => some .above

/-- The comparison with its sides exchanged. -/
def CompareOp.mirror : CompareOp → CompareOp
  | .lt => .gt
  | .le => .ge
  | .gt => .lt
  | .ge => .le
  | op => op

/-- The comparison that holds if one of two comparisons of the same cells holds. -/
def CompareOp.either? (a b : CompareOp) : Option CompareOp :=
  if a = b then if a = .ne then none else some a
  else if [a, b].all [CompareOp.eq, .lt, .le].contains then some .le
  else if [a, b].all [CompareOp.eq, .gt, .ge].contains then some .ge
  else none

namespace Expr

def positions : Term → List Nat
  | .literal _ | .number _ | .truth _ | .param _ | .unknown => []
  | .ref i => [i]
  | .plus e | .negate e | .not e | .castText e | .count e => e.positions
  | .arith _ a b | .compare _ a b | .member a b | .like a b | .same a b | .and a b | .or a b =>
    a.positions ++ b.positions

/-- Whether a term is the same for all rows. -/
def isFixed (t : Term) : Bool := t.positions.isEmpty

/-- Membership of a column in a list. -/
def memberTest? : Term → Option ColumnTest
  | .member (.ref i) e => if e.isFixed then some ⟨i, .member 1⟩ else none
  | .or (.member (.ref i) e) rest =>
    match memberTest? rest with
    | some ⟨j, .member n⟩ => if i = j ∧ e.isFixed then some ⟨i, .member (n + 1)⟩ else none
    | _ => none
  | _ => none

/-- The terms that all have to hold. -/
def conjuncts : Term → List Term
  | .and a b => a.conjuncts ++ b.conjuncts
  | t => [t]

/-- The terms of which one has to hold; membership in a list is one of them. -/
def disjuncts : Term → List Term
  | .or a b =>
    if (memberTest? (.or a b)).isSome then [.or a b] else a.disjuncts ++ b.disjuncts
  | t => [t]

/-- The column, the comparison and the fixed term that a comparison consists of. -/
def bound? : Term → Option (Nat × CompareOp × Term)
  | .compare op (.ref i) e => if e.isFixed then some (i, op, e) else none
  | .compare op e (.ref i) => if e.isFixed then some (i, op.mirror, e) else none
  | _ => none

/-- The comparisons that follow from a disjunction of two terms, because either of them compares
the same column with the same term. -/
def implied (t : Term) : List Term :=
  match t.disjuncts with
  | [a, b] => a.conjuncts.flatMap fun s => b.conjuncts.filterMap fun r => do
    let (i, p, e) ← s.bound?
    let (j, q, d) ← r.bound?
    if i = j ∧ e == d then (p.either? q).map (.compare · (.ref i) e) else none
  | _ => []

/-- A test that is no disjunction. -/
def plainTest? : Term → Option ColumnTest
  | .compare op a b =>
    (Expr.compare op a b).bound?.bind fun (i, op, _) => op.testKind?.map (⟨i, ·⟩)
  | .same (.ref _) (.truth _) => none
  | .same (.ref i) (.literal .null) => some ⟨i, .null⟩
  | .same (.ref i) e => if e.isFixed then some ⟨i, .same⟩ else none
  | .not (.same (.ref i) (.literal .null)) => some ⟨i, .notNull⟩
  | t =>
    match t.memberTest? with
    | some ⟨i, .member 1⟩ => some ⟨i, .equal⟩
    | found => found

/-- The test that a term is; equality with one of several cells is membership. -/
def test? (t : Term) : Option ColumnTest :=
  t.plainTest?.or (match t.disjuncts.mapM plainTest? with
    | some (⟨i, .equal⟩ :: rest) =>
      if rest.all (· = ⟨i, .equal⟩) then some ⟨i, .member (rest.length + 1)⟩ else none
    | _ => none)

/-- Several terms of which one has to hold, and which are no test together. -/
def branches (t : Term) : List Term :=
  if t.test?.isSome ∨ t.disjuncts.length < 2 then [] else t.disjuncts

/-- Whether a term tests a column, be it against another one or by what follows; that identifiers
are present is no test. -/
def isTest (key : Nat) (t : Term) : Bool :=
  match t with
  | .compare op a b => op ≠ .ne && (a.column?.isSome || b.column?.isSome)
  | t => !t.implied.isEmpty || t.test?.any fun found =>
    found.column ≠ key || (found.kind ≠ .null && found.kind ≠ .notNull)

/-- Whether a term requires a column to equal something, perhaps another column. -/
def isEquality : Term → Bool
  | .compare .eq (.ref _) _ | .compare .eq _ (.ref _) => true
  | .same (.ref _) (.truth _) | .same (.ref _) (.literal .null) => false
  | .same (.ref _) _ => true
  | .member (.ref _) e => e.isFixed
  | _ => false

/-- Whether what a column has to equal is a whole number next to zero. -/
def isNearZero : Term → Bool
  | .compare .eq _ e | .same _ e | .member _ e => e.wholeNumber?.any fun n => -1 ≤ n ∧ n ≤ 1
  | _ => false

end Expr
end DataAccess.Database
