import DataAccess.Decimal.Binary64

/-!
Decimal digits of floats: the fewest digits that read back as the same float, found on exact
quotients of naturals.
-/
namespace DataAccess.Decimal

/-- A positive decimal `digits * 10 ^ exponent` whose last digit is not zero. -/
structure Digits where
  digits : Nat
  exponent : Int
deriving DecidableEq, Repr

/-- Moves the trailing zeros of a numeral into the exponent; at most `fuel` of them. -/
def Digits.trim (fuel : Nat) (digits : Nat) (exponent : Int) : Digits :=
  match fuel with
  | 0 => ⟨digits, exponent⟩
  | fuel + 1 =>
    if digits % 10 = 0 then trim fuel (digits / 10) (exponent + 1) else ⟨digits, exponent⟩

/-- Every positive float is above `10 ^ -400`. -/
def magnitudeScale : Nat := 400

/-- The position of the decimal point: the least `k` with `a / b < 10 ^ k`. -/
def pointPosition (a b : Nat) : Int :=
  ((Nat.repr (a * Nat.pow 10 magnitudeScale / b)).length : Int) - magnitudeScale

/-- `a / b` divided by `10 ^ s`, as a quotient. -/
def scaleDown (a b : Nat) : Int → Nat × Nat
  | .ofNat s => (a, b * Nat.pow 10 s)
  | .negSucc s => (a * Nat.pow 10 (s + 1), b)

/-- The reals that round to a float, in quarters of its unit: from `low` to `high` around
`mid`, the ends included exactly if the significand is even. -/
structure Interval where
  low : Nat
  mid : Nat
  high : Nat
  closed : Bool

def Dyadic.interval (d : Dyadic) : Interval :=
  let mid := 4 * d.significand
  let narrow := d.significand = Nat.pow 2 52 ∧ -1074 < d.exponent
  ⟨if narrow then mid - 1 else mid - 2, mid, mid + 2, d.significand % 2 = 0⟩

/-- Whether the quotient `n / d` lies in the interval. -/
def Interval.contains (i : Interval) (n d : Nat) : Bool :=
  if i.closed then i.low * d ≤ n && n ≤ i.high * d else i.low * d < n && n < i.high * d

/-- The neighbour of the value on the grid of `count` digits that reads back, if one does; of
two the nearer, and of two equally near the even one. -/
def Dyadic.onGrid? (d : Dyadic) (point : Int) (count : Nat) : Option Digits :=
  let i := d.interval
  let exponent := point - count
  let quarter : Dyadic := { d with significand := 1, exponent := d.exponent - 2 }
  let (a, b) := quarter.ratio 1
  -- A grid point `g` is worth `g * 10 ^ exponent / (a / b)` quarters.
  let (n, m) := scaleDown a b exponent
  let below := i.mid * n / m
  let inside (g : Nat) : Bool := i.contains (g * m) n
  let twice := 2 * (i.mid * n)
  let middle := (2 * below + 1) * m
  let nearest :=
    if twice < middle then below
    else if middle < twice then below + 1
    else below + below % 2
  let other := if nearest = below then below + 1 else below
  if inside nearest then some (Digits.trim 20 nearest exponent)
  else if inside other then some (Digits.trim 20 other exponent)
  else none

/-- The fewest digits that read back as the float; seventeen always do. -/
def Dyadic.shortest (d : Dyadic) : Digits :=
  let (a, b) := d.ratio 1
  let point := pointPosition a b
  ((List.range' 1 17).findSome? (d.onGrid? point)).getD ⟨d.significand, 0⟩

end DataAccess.Decimal
