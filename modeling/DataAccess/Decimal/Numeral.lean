import DataAccess.Decimal.Binary64
import DataAccess.Decimal.Digit

/-!
Decimal numerals as written: a sign, whole digits, perhaps a fraction and perhaps a power of
ten. Reading takes the longest numeral at the front of a text; which numerals a format
admits is the format's decision.
-/
namespace DataAccess.Decimal

inductive Sign where
  | none | plus | minus
deriving DecidableEq, Repr

/-- `fraction` and `power` are present if a point or an exponent mark was read. -/
structure Numeral where
  sign : Sign
  whole : List Char
  fraction : Option (List Char)
  power : Option (Sign × List Char)
deriving DecidableEq, Repr

def readSign : List Char → Sign × List Char
  | '+' :: rest => (.plus, rest)
  | '-' :: rest => (.minus, rest)
  | cs => (.none, cs)

def readDigits (cs : List Char) : List Char × List Char :=
  (cs.takeWhile isDigit, cs.dropWhile isDigit)

def readFraction : List Char → Option (List Char) × List Char
  | '.' :: rest => (some (readDigits rest).1, (readDigits rest).2)
  | cs => (none, cs)

/-- An exponent mark counts only with digits behind it. -/
def readPower (cs : List Char) : Option (Sign × List Char) × List Char :=
  match cs with
  | c :: rest =>
    if c = 'e' ∨ c = 'E' then
      let (sign, rest) := readSign rest
      let (digits, rest) := readDigits rest
      if digits.isEmpty then (none, cs) else (some (sign, digits), rest)
    else (none, cs)
  | [] => (none, [])

namespace Numeral

def read (cs : List Char) : Numeral × List Char :=
  let (sign, cs) := readSign cs
  let (whole, cs) := readDigits cs
  let (fraction, cs) := readFraction cs
  let (power, cs) := readPower cs
  (⟨sign, whole, fraction, power⟩, cs)

/-- Whether any digit stands before the exponent mark. -/
def hasDigits (n : Numeral) : Bool := !(n.whole.isEmpty && (n.fraction.getD []).isEmpty)

/-- Neither a point nor an exponent. -/
def isWhole (n : Numeral) : Bool := n.fraction.isNone && n.power.isNone

def negative (n : Numeral) : Bool := n.sign = .minus

def toInt (n : Numeral) : Int :=
  if n.negative then -(valueOfDigits n.whole : Int) else valueOfDigits n.whole

def tenPower (n : Numeral) : Int :=
  match n.power with
  | none => 0
  | some (sign, digits) =>
    if sign = .minus then -(valueOfDigits digits : Int) else valueOfDigits digits

def toFloat (n : Numeral) : Float :=
  let fraction := n.fraction.getD []
  floatOfDecimal n.negative (valueOfDigits (n.whole ++ fraction)) (n.tenPower - fraction.length)

end Numeral
end DataAccess.Decimal
