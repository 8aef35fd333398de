import DataAccess.Database.Affinity
import DataAccess.Database.Like

/-!
Expressions over references and the parameters of a statement. As written, an expression
refers to names; resolved, to positions in a row. Truth has three values; null is the unknown
one. A count looks at all rows of the row's group.
-/
namespace DataAccess.Database

inductive ArithOp where
  | add | sub | mul
deriving DecidableEq, Repr

inductive CompareOp where
  | eq | ne | lt | le | gt | ge
deriving DecidableEq, Repr

inductive Expr (Ref : Type) where
  | literal (c : Cell)
  /-- A numeral without its sign. -/
  | number (n : Decimal.Numeral)
  /-- A truth value by its name. -/
  | truth (b : Bool)
  | param (index : Nat)
  | ref (r : Ref)
  /-- The same cell, which belongs to no column any more. -/
  | plus (e : Expr Ref)
  | negate (e : Expr Ref)
  | arith (op : ArithOp) (a b : Expr Ref)
  | compare (op : CompareOp) (a b : Expr Ref)
  /-- Equality with a member of a list, to which only the affinity of the left side applies. -/
  | member (a b : Expr Ref)
  | like (e pattern : Expr Ref)
  /-- Equality where null equals itself; with a truth value by name, whether the left side
  counts as that. -/
  | same (a b : Expr Ref)
  | not (e : Expr Ref)
  | and (a b : Expr Ref)
  | or (a b : Expr Ref)
  | castText (e : Expr Ref)
  /-- The number of rows in the group where the expression is not null. -/
  | count (e : Expr Ref)
  /-- A call of a function that there is not. -/
  | unknown
deriving BEq

namespace Expr

variable {Ref Other : Type}

/-- Replaces every reference by an expression; none if one of them has no replacement, or if a
function is unknown. -/
def bind? (f : Ref → Option (Expr Other)) : Expr Ref → Option (Expr Other)
  | .literal c => some (.literal c)
  | .number n => some (.number n)
  | .truth b => some (.truth b)
  | .param index => some (.param index)
  | .ref r => f r
  | .plus e => return .plus (← e.bind? f)
  | .negate e => return .negate (← e.bind? f)
  | .arith op a b => return .arith op (← a.bind? f) (← b.bind? f)
  | .compare op a b => return .compare op (← a.bind? f) (← b.bind? f)
  | .member a b => return .member (← a.bind? f) (← b.bind? f)
  | .like e p => return .like (← e.bind? f) (← p.bind? f)
  | .same a b => return .same (← a.bind? f) (← b.bind? f)
  | .not e => return .not (← e.bind? f)
  | .and a b => return .and (← a.bind? f) (← b.bind? f)
  | .or a b => return .or (← a.bind? f) (← b.bind? f)
  | .castText e => return .castText (← e.bind? f)
  | .count e => return .count (← e.bind? f)
  | .unknown => none

def hasCount : Expr Ref → Bool
  | .literal _ | .number _ | .truth _ | .param _ | .ref _ | .unknown => false
  | .plus e | .negate e | .not e | .castText e => e.hasCount
  | .arith _ a b | .compare _ a b | .member a b | .like a b | .same a b | .and a b | .or a b =>
    a.hasCount || b.hasCount
  | .count _ => true

/-- No count stands inside another. -/
def countsOnce : Expr Ref → Bool
  | .literal _ | .number _ | .truth _ | .param _ | .ref _ | .unknown => true
  | .plus e | .negate e | .not e | .castText e => e.countsOnce
  | .arith _ a b | .compare _ a b | .member a b | .like a b | .same a b | .and a b | .or a b =>
    a.countsOnce && b.countsOnce
  | .count e => !e.hasCount

/-- The longest chain of operators, where a list of members counts once. -/
def depth : Expr Ref → Nat
  | .literal _ | .number _ | .truth _ | .param _ | .ref _ | .unknown => 1
  | .or (.member a b) rest => max (max a.depth b.depth + 1) rest.depth
  | .plus e | .negate e | .not e | .castText e | .count e => e.depth + 1
  | .arith _ a b | .compare _ a b | .member a b | .like a b | .same a b | .and a b | .or a b =>
    max a.depth b.depth + 1

/-- A whole number that is written out, perhaps with signs, within a word of 32 bits. -/
def wholeNumber? : Expr Ref → Option Int
  | .number n => if n.isWhole ∧ n.toInt ≤ Int32.maxValue.toInt then some n.toInt else none
  | .literal (.integer n) =>
    if Int32.minValue.toInt ≤ n.toInt ∧ n.toInt ≤ Int32.maxValue.toInt then some n.toInt
    else none
  | .plus e => e.wholeNumber?
  | .negate e => e.wholeNumber?.map (- ·)
  | _ => none

end Expr

/-- A column of a relation; a column of an expression has no affinity. -/
structure ColumnInfo where
  name : String
  affinity : Option Affinity
deriving DecidableEq, Repr

/-- Names are compared without regard to the case of ASCII letters. -/
def sameName (a b : String) : Bool := a.map Char.toLower = b.map Char.toLower

def position? (columns : List ColumnInfo) (name : String) : Option Nat :=
  columns.findIdx? fun c => sameName c.name name

/-- An expression over the positions of a row. -/
abbrev Term := Expr Nat

structure Env where
  params : List Cell
  columns : List ColumnInfo
  row : List Cell
  group : List (List Cell)

def Expr.column? : Term → Option Nat
  | .ref i => some i
  | _ => none

/-- The affinity of a column, or of a cast. -/
def Expr.affinity? (columns : List ColumnInfo) : Term → Option Affinity
  | .ref i => (columns[i]?).bind (·.affinity)
  | .castText _ => some .text
  | _ => none

def CompareOp.holds : CompareOp → Ordering → Bool
  | .eq, o => o = .eq
  | .ne, o => o ≠ .eq
  | .lt, o => o = .lt
  | .le, o => o ≠ .gt
  | .gt, o => o = .gt
  | .ge, o => o ≠ .lt

/-- Compares two cells after an affinity has been applied to both. -/
def compareCells (op : CompareOp) (affinity : Affinity) (a b : Cell) : Option Bool :=
  if a.isNull || b.isNull then none
  else some (op.holds ((affinity.prepare a).compare (affinity.prepare b)))

/-- Whole numbers give a whole number if it fits, and a float otherwise. -/
def ArithOp.apply (op : ArithOp) (a b : Cell) : Cell :=
  let real (x : Float) : Cell := if x.isNaN then .null else .real x
  let exact (m n : Int) : Int :=
    match op with | .add => m + n | .sub => m - n | .mul => m * n
  let float (x y : Float) : Float :=
    match op with | .add => x + y | .sub => x - y | .mul => x * y
  match a.number?, b.number? with
  | some (.integer m), some (.integer n) =>
    let i := exact m.toInt n.toInt
    if Int64.minValue.toInt ≤ i ∧ i ≤ Int64.maxValue.toInt then .integer (Int64.ofInt i)
    else real (float a.toReal b.toReal)
  | some _, some _ => real (float a.toReal b.toReal)
  | _, _ => .null

def and3 : Option Bool → Option Bool → Option Bool
  | some false, _ | _, some false => some false
  | some true, some true => some true
  | _, _ => none

def or3 : Option Bool → Option Bool → Option Bool
  | some true, _ | _, some true => some true
  | some false, some false => some false
  | _, _ => none

def castToText (c : Cell) : Cell :=
  match c.textBytes? with
  | some utf8 => .text utf8
  | none => .null

/-- The cell of a term. A sign in front of a numeral belongs to it. -/
def Expr.eval (env : Env) : Term → Cell
  | .literal c => c
  | .number n => cellOfNumeral n
  | .truth b => .ofBool? (some b)
  | .param index => (env.params[index - 1]?).getD .null
  | .ref i => (env.row[i]?).getD .null
  | .plus e => e.eval env
  | .negate (.number n) => cellOfNumeral { n with sign := .minus }
  | .negate e => ArithOp.sub.apply (.integer 0) (e.eval env)
  | .arith op a b => op.apply (a.eval env) (b.eval env)
  | .compare op a b =>
    .ofBool? (compareCells op
      (comparisonAffinity (a.affinity? env.columns) (b.affinity? env.columns))
      (a.eval env) (b.eval env))
  | .member a b =>
    .ofBool? (compareCells .eq ((a.affinity? env.columns).getD .blob) (a.eval env) (b.eval env))
  | .like e pattern => .ofBool? ((e.eval env).like? (pattern.eval env))
  | .same a (.truth b) => .ofBool? (some ((a.eval env).truth? == some b))
  | .same a b =>
    let affinity := comparisonAffinity (a.affinity? env.columns) (b.affinity? env.columns)
    .ofBool? (some ((compareCells .eq affinity (a.eval env) (b.eval env)).getD
      ((a.eval env).isNull && (b.eval env).isNull)))
  | .not e => .ofBool? ((e.eval env).truth?.map (!·))
  | .and a b => .ofBool? (and3 (a.eval env).truth? (b.eval env).truth?)
  | .or a b => .ofBool? (or3 (a.eval env).truth? (b.eval env).truth?)
  | .castText e => castToText (e.eval env)
  | .count e =>
    .integer (Int64.ofNat (env.group.countP fun row => !(e.eval { env with row := row }).isNull))
  | .unknown => .null

end DataAccess.Database
