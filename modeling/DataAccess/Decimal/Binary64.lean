/-!
Binary floats as exact numbers. A finite float is a sign and `significand * 2 ^ exponent`,
and a non-negative quotient of naturals has a nearest float, a tie going to the even
significand.
-/
namespace DataAccess.Decimal

/-- A finite magnitude `significand * 2 ^ exponent`. -/
structure Dyadic where
  negative : Bool
  significand : Nat
  exponent : Int
deriving DecidableEq, Repr

namespace Dyadic

/-- The exact value of a finite float; none for infinities and NaN. -/
def ofFloat? (x : Float) : Option Dyadic :=
  let bits : Nat := x.toBits.toNat
  let negative := decide (Nat.pow 2 63 ≤ bits)
  let biased : Nat := bits / Nat.pow 2 52 % Nat.pow 2 11
  let fraction : Nat := bits % Nat.pow 2 52
  if biased = 2047 then none
  else if biased = 0 then some ⟨negative, fraction, -1074⟩
  else some ⟨negative, Nat.pow 2 52 + fraction, (biased : Int) - 1075⟩

/-- The magnitude as a quotient, multiplied by `scale`. -/
def ratio (d : Dyadic) (scale : Nat) : Nat × Nat :=
  match d.exponent with
  | .ofNat e => (scale * d.significand * Nat.pow 2 e, 1)
  | .negSucc e => (scale * d.significand, Nat.pow 2 (e + 1))

end Dyadic

/-- `a / b` rounded to the nearest integer, a tie to the even one. -/
def roundHalfEven (a b : Nat) : Nat :=
  let q := a / b
  let r := a % b
  if 2 * r < b then q
  else if b < 2 * r then q + 1
  else q + q % 2

/-- `a / b` times `2 ^ k`, as a quotient. -/
def scaleByPow2 (a b : Nat) : Int → Nat × Nat
  | .ofNat k => (a * Nat.pow 2 k, b)
  | .negSucc k => (a, b * Nat.pow 2 (k + 1))

/-- The bits of the positive float nearest to `a / b`, infinity included. -/
def nearestBits (a b : Nat) : Nat :=
  if a = 0 then 0
  else
    let guess : Int := (a.log2 : Int) - b.log2 - 52
    let (n, d) := scaleByPow2 a b (-guess)
    let unit : Int := max (if n < d * Nat.pow 2 52 then guess - 1 else guess) (-1074)
    let (n, d) := scaleByPow2 a b (-unit)
    let significand := roundHalfEven n d
    let step := (unit + 1074).toNat
    min (step * Nat.pow 2 52 + significand) (2047 * Nat.pow 2 52)

def nearestFloat (negative : Bool) (a b : Nat) : Float :=
  Float.ofBits (UInt64.ofNat ((if negative then Nat.pow 2 63 else 0) + nearestBits a b))

/-- The float nearest to `digits * 10 ^ exponent`. Beyond the range of floats the power is
not computed. -/
def floatOfDecimal (negative : Bool) (digits : Nat) (exponent : Int) : Float :=
  let size : Int := (Nat.repr digits).length
  if digits = 0 ∨ size + exponent < -400 then nearestFloat negative 0 1
  else if 400 < size + exponent then nearestFloat negative (Nat.pow 10 400) 1
  else match exponent with
    | .ofNat e => nearestFloat negative (digits * Nat.pow 10 e) 1
    | .negSucc e => nearestFloat negative digits (Nat.pow 10 (e + 1))

end DataAccess.Decimal
