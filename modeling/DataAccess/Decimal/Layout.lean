import DataAccess.Decimal.Shortest

/-!
Written forms of decimals. A layout says where the decimal point may stand in positional
notation, and how the scientific notation used otherwise looks.
-/
namespace DataAccess.Decimal

structure Layout where
  /-- The first and the last point position written positionally, where `0.DDD * 10 ^ k` has
  position `k`. -/
  positional : Int × Int
  /-- Whether a lone digit before the exponent is followed by `.0`. -/
  pointBeforeExponent : Bool
  /-- The least number of digits of an exponent. -/
  exponentWidth : Nat

def zeros (n : Nat) : String := String.ofList (List.replicate n '0')

/-- Digits with a point at position `k`, and at least one digit on either side of it. -/
def positionalText (ds : List Char) (k : Int) : String :=
  match k with
  | .ofNat (n + 1) =>
    if ds.length ≤ n + 1 then String.ofList ds ++ zeros (n + 1 - ds.length) ++ ".0"
    else String.ofList (ds.take (n + 1)) ++ "." ++ String.ofList (ds.drop (n + 1))
  | k => "0." ++ zeros (-k).toNat ++ String.ofList ds

def scientificText (l : Layout) (ds : List Char) (exponent : Int) : String :=
  let lead := String.ofList (ds.take 1)
  let rest := String.ofList (ds.drop 1)
  let tail := if rest.isEmpty then (if l.pointBeforeExponent then ".0" else "") else "." ++ rest
  let power := Nat.repr exponent.natAbs
  lead ++ tail ++ (if exponent < 0 then "e-" else "e+") ++
    zeros (l.exponentWidth - power.length) ++ power

def Layout.text (l : Layout) (d : Digits) : String :=
  let ds := (Nat.repr d.digits).toList
  let k := (ds.length : Int) + d.exponent
  if l.positional.1 ≤ k ∧ k ≤ l.positional.2 then positionalText ds k
  else scientificText l ds (k - 1)

/-- The written form of a finite float whose digits are chosen by `choose`; none for infinities
and NaN. Zero keeps its sign. -/
def Layout.floatText? (l : Layout) (choose : Dyadic → Digits) (x : Float) : Option String :=
  (Dyadic.ofFloat? x).map fun d =>
    (if d.negative then "-" else "") ++
      (if d.significand = 0 then "0.0" else l.text (choose d))

end DataAccess.Decimal
