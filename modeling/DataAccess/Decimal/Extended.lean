import DataAccess.Decimal.Numeral
import DataAccess.Decimal.Shortest

/-!
Magnitudes of 64 significant bits. Every product is rounded to the nearest such magnitude, a
tie to the even significand, and powers of ten are multiplied in by hundreds, tens and ones.
Reading a numeral and choosing the digits of a float this way is close to the exact value, but
not always the nearest to it.
-/
namespace DataAccess.Decimal

/-- The magnitude `significand * 2 ^ exponent`. -/
structure Extended where
  significand : Nat
  exponent : Int
deriving DecidableEq, Repr

namespace Extended

def nearest (a b : Nat) : Extended :=
  if a = 0 then ⟨0, 0⟩
  else
    let guess : Int := (a.log2 : Int) - b.log2 - 63
    let (n, d) := scaleByPow2 a b (-guess)
    let unit : Int := if n < d * Nat.pow 2 63 then guess - 1 else guess
    let (n, d) := scaleByPow2 a b (-unit)
    ⟨roundHalfEven n d, unit⟩

def ofDyadic (d : Dyadic) : Extended := ⟨d.significand, d.exponent⟩

def ratio (x : Extended) : Nat × Nat :=
  match x.exponent with
  | .ofNat e => (x.significand * Nat.pow 2 e, 1)
  | .negSucc e => (x.significand, Nat.pow 2 (e + 1))

def less (x y : Extended) : Bool := x.ratio.1 * y.ratio.2 < y.ratio.1 * x.ratio.2

def floor (x : Extended) : Nat := x.ratio.1 / x.ratio.2

def mul (x y : Extended) : Extended :=
  let product := x.significand * y.significand
  let shift := product.log2 + 1 - 64
  ⟨roundHalfEven product (Nat.pow 2 shift), x.exponent + y.exponent + shift⟩

def mulRepeatedly (factor : Extended) (count : Nat) (x : Extended) : Extended :=
  count.repeat (·.mul factor) x

def scaleByTen (x : Extended) (power : Int) : Extended :=
  let factor (k : Nat) : Extended :=
    if 0 ≤ power then nearest (Nat.pow 10 k) 1 else nearest 1 (Nat.pow 10 k)
  let n := power.natAbs
  mulRepeatedly (factor 1) (n % 10)
    (mulRepeatedly (factor 10) (n % 100 / 10) (mulRepeatedly (factor 100) (n / 100) x))

def greatestFloat : Extended := ⟨Nat.pow 2 53 - 1, 971⟩

/-- The float nearest to a magnitude; those above the greatest float are infinite. -/
def toFloat (negative : Bool) (x : Extended) : Float :=
  if greatestFloat.less x then nearestFloat negative (Nat.pow 2 1024) 1
  else nearestFloat negative x.ratio.1 x.ratio.2

end Extended

/-- A number below this one has room for a further digit. -/
def digitLimit : Nat := (UInt64.size - 10) / 10

/-- Appends digits to a number while it has room; with how many they are. -/
def appendDigits (n : Nat) (digits : List Char) : Nat × Nat :=
  digits.foldl (fun r d => if r.1 < digitLimit then (valueOfDigits [d] + 10 * r.1, r.2 + 1) else r)
    (n, 0)

/-- Moves up to `fuel` tens from the exponent into the digits, while there is room. -/
def absorbTens : Nat → Nat → Int → Nat × Int
  | 0, n, e => (n, e)
  | fuel + 1, n, e =>
    if 0 < e ∧ n < (UInt64.size - 1) / 10 then absorbTens fuel (10 * n) (e - 1) else (n, e)

/-- Moves up to `fuel` zeros at the end of the digits into a negative exponent. -/
def releaseTens : Nat → Nat → Int → Nat × Int
  | 0, n, e => (n, e)
  | fuel + 1, n, e => if e < 0 ∧ n % 10 = 0 then releaseTens fuel (n / 10) (e + 1) else (n, e)

/-- Powers beyond this one are out of the range of floats in either direction. -/
def powerLimit : Int := 10000

/-- The float of a numeral, of whose digits only about nineteen count. -/
def Numeral.toFloatExtended (n : Numeral) : Float :=
  let (whole, keptWhole) := appendDigits 0 n.whole
  let (digits, keptFraction) := appendDigits whole (n.fraction.getD [])
  if digits = 0 then nearestFloat n.negative 0 1
  else
    let power := max (-powerLimit) (min powerLimit n.tenPower) +
      ((n.whole.length - keptWhole : Nat) : Int) - keptFraction
    let (digits, power) := absorbTens 20 digits power
    let (digits, power) := releaseTens 20 digits power
    if power = 0 then nearestFloat n.negative digits 1
    else ((Extended.nearest digits 1).scaleByTen power).toFloat n.negative

namespace Extended

/-- Multiplies by a factor of ten to some power while a test holds, at most `fuel` times; with
the power that has been taken out. -/
def scaleWhile (test : Extended → Bool) (factor : Extended) (power : Int) :
    Nat → Extended × Int → Extended × Int
  | 0, r => r
  | fuel + 1, r =>
    if test r.1 then scaleWhile test factor power fuel (r.1.mul factor, r.2 - power) else r

/-- A magnitude from `10 ^ 17` to below `10 ^ 19` and the power of ten to multiply it with. -/
def normalize (x : Extended) : Extended × Int :=
  let ten (k : Nat) : Extended := nearest (Nat.pow 10 k) 1
  let tenth (k : Nat) : Extended := nearest 1 (Nat.pow 10 k)
  let atLeast (y x : Extended) : Bool := !x.less y
  if x.less (ten 19) then
    scaleWhile (·.less (ten 17)) (ten 1) 1 12
      (scaleWhile (·.less (ten 7)) (ten 10) 10 12
        (scaleWhile (·.less (tenth 97)) (ten 100) 100 4 (x, 0)))
  else
    scaleWhile (atLeast (ten 19)) (tenth 1) (-1) 12
      (scaleWhile (atLeast (ten 29)) (tenth 10) (-10) 12
        (scaleWhile (atLeast (ten 119)) (tenth 100) (-100) 4 (x, 0)))

/-- The first `count` significant digits; one more decides on rounding up. -/
def leadingDigits (x : Extended) (count : Nat) : Digits :=
  let (y, power) := x.normalize
  let digits := y.floor
  let excess := (Nat.repr digits).length - count
  Digits.trim (count + 1) ((digits / Nat.pow 10 (excess - 1) + 5) / 10) (power + excess)

end Extended
end DataAccess.Decimal
