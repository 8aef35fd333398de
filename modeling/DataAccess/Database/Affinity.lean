import DataAccess.Database.Cell

/-!
Affinities. A column prefers a kind of cell: what is stored in it is converted to that kind
if nothing is lost, and the other side of a comparison with it likewise.
-/
namespace DataAccess.Database

inductive Affinity where
  /-- Anything is kept as it is. -/
  | blob
  | text
  | integer
deriving DecidableEq, Repr

/-- A float that equals a whole number strictly within the signed words becomes that number. -/
def wholeIfExact (x : Float) : Cell :=
  let n := x.toInt64
  if compareIntReal n.toInt x = .eq ∧ n ≠ Int64.minValue ∧ n ≠ Int64.maxValue then .integer n
  else .real x

/-- Text that spells a number becomes that number. -/
def toNumeric : Cell → Cell
  | .text utf8 => (numberOfText? utf8).getD (.text utf8)
  | c => c

/-- A number becomes its text. -/
def toTextual : Cell → Cell
  | .integer n => .text (((Cell.integer n).textBytes?).getD [])
  | .real x => .text (((Cell.real x).textBytes?).getD [])
  | c => c

def Affinity.store : Affinity → Cell → Cell
  | .blob, c => c
  | .text, c => toTextual c
  | .integer, c =>
    match toNumeric c with
    | .real x => wholeIfExact x
    | c => c

/-- The affinity that a comparison applies to both sides. A side without affinity is no
column. -/
def comparisonAffinity : Option Affinity → Option Affinity → Affinity
  | some a, some b => if a = .integer ∨ b = .integer then .integer else .blob
  | some a, none | none, some a => a
  | none, none => .blob

def Affinity.prepare : Affinity → Cell → Cell
  | .blob, c => c
  | .text, c => toTextual c
  | .integer, c => toNumeric c

/-- The row identifier that a cell stands for, if it stands for one. -/
def rowIdOf? (c : Cell) : Option Int64 :=
  match Affinity.integer.store c with
  | .integer n => some n
  | _ => none

end DataAccess.Database
