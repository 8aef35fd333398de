import DataAccess.Decimal.Numeral
import DataAccess.Text.Hex
import DataAccess.Toml.Basic

/-!
Numbers, dates and times of TOML text. Digits may be grouped by single underscores. A whole
number fits a signed machine word, and a decimal one has no leading zero. Dates and times are
told apart from numbers, but kept as written.
-/
namespace DataAccess.Toml

open Decimal (Numeral Sign isDigit)

/-- A character of a bare key; numbers, dates and truth values consist of them as well. -/
def isBare (c : Char) : Bool := c.isAlphanum ∨ c = '-' ∨ c = '_'

def bareWord (cs : List Char) : List Char := cs.takeWhile isBare

def dropWord? (cs : List Char) : Option (List Char) :=
  if (bareWord cs).isEmpty then none else some (cs.dropWhile isBare)

/-- Each underscore stands between two digits, and there is a digit. -/
def isGrouped : (afterDigit : Bool) → List Char → Bool
  | afterDigit, [] => afterDigit
  | afterDigit, c :: rest =>
    if c = '_' then afterDigit && isGrouped false rest else isGrouped true rest

/-- Grouped digits without their underscores. -/
def readDigits? (digit : Char → Bool) (cs : List Char) : Option (List Char × List Char) :=
  let isPart := fun c => digit c || c == '_'
  let part := cs.takeWhile isPart
  if isGrouped false part then some (part.filter (· ≠ '_'), cs.dropWhile isPart) else none

def integer? (n : Int) : Option Value :=
  if Int64.minValue.toInt ≤ n ∧ n ≤ Int64.maxValue.toInt then some (.integer n) else none

/-- A whole number to the base of sixteen, eight or two, from the text behind its mark. -/
def readBased? (base : Nat) (cs : List Char) : Option (Value × List Char) := do
  let isBaseDigit := fun c => (Text.hexValue? c).any (· < base)
  let (digits, rest) ← readDigits? isBaseDigit cs
  let value := digits.foldl (fun n d => base * n + (Text.hexValue? d).getD 0) 0
  return (← integer? value, rest)

def readFraction? : List Char → Option (Option (List Char) × List Char)
  | '.' :: rest => (readDigits? isDigit rest).map fun r => (some r.1, r.2)
  | cs => some (none, cs)

def readPower? (cs : List Char) : Option (Option (Sign × List Char) × List Char) :=
  match cs with
  | [] => some (none, [])
  | c :: rest =>
    if c = 'e' ∨ c = 'E' then
      let (sign, rest) := Decimal.readSign rest
      (readDigits? isDigit rest).map fun r => (some (sign, r.1), r.2)
    else some (none, cs)

/-- A finite number in decimal digits; one with a point or an exponent is a float. -/
def readDecimal? (sign : Sign) (cs : List Char) : Option (Value × List Char) := do
  let (whole, rest) ← readDigits? isDigit cs
  if whole.head? = some '0' ∧ whole ≠ ['0'] then none
  let (fraction, rest) ← readFraction? rest
  let (power, rest) ← readPower? rest
  let n : Numeral := ⟨sign, whole, fraction, power⟩
  let value ←
    if n.isWhole then integer? n.toInt
    else if n.toFloat.isFinite then some (.real n.toFloat)
    else none
  return (value, rest)

def readUnsigned? (sign : Sign) (cs : List Char) : Option (Value × List Char) :=
  match cs with
  | '0' :: 'x' :: rest => if sign = .minus then none else readBased? 16 rest
  | '0' :: 'o' :: rest => if sign = .minus then none else readBased? 8 rest
  | '0' :: 'b' :: rest => if sign = .minus then none else readBased? 2 rest
  | 'i' :: 'n' :: 'f' :: rest =>
    some (.real (if sign = .minus then -1.0 / 0.0 else 1.0 / 0.0), rest)
  | 'n' :: 'a' :: 'n' :: rest => some (.real (0.0 / 0.0), rest)
  | _ => readDecimal? sign cs

/-- A plus sign may stand before any number. -/
def readNumber? (cs : List Char) : Option (Value × List Char) := do
  let cs := match cs with | '+' :: rest => rest | _ => cs
  let (value, rest) ←
    match cs with
    | '-' :: rest => readUnsigned? .minus rest
    | _ => readUnsigned? .none cs
  if rest.head?.any isBare then none else some (value, rest)

/-- A word that starts like a number, or is one, is a date or a time if it has the mark between
the two, a dash inside that belongs to no exponent, or a colon behind it. -/
def startsMoment (cs : List Char) : Bool :=
  let word := bareWord cs
  let exponent := (word.zip word.tail).any fun p => (p.1 = 'e' ∨ p.1 = 'E') ∧ p.2 = '-'
  (cs.head?.any (fun c => c = '-' ∨ isDigit c) ∨ word = ['i', 'n', 'f'] ∨ word = ['n', 'a', 'n']) ∧
    (word.any (fun c => c = 't' ∨ c = 'T') ∨ (word.tail.contains '-' ∧ ¬exponent) ∨
      (cs.dropWhile isBare).head? = some ':')

def skipPart? (mark : Char) (cs : List Char) : Option (List Char) :=
  match cs with
  | [] => some []
  | c :: rest => if c = mark then dropWord? rest else some cs

/-- Skips minutes, seconds with their fraction, and an offset, from the colon behind the
hour. -/
def skipTime? : List Char → Option (List Char)
  | ':' :: rest => do
    match ← dropWord? rest with
    | ':' :: rest =>
      let rest ← dropWord? rest
      skipPart? ':' (← skipPart? '+' (← skipPart? '.' rest))
    | _ => none
  | cs => some cs

/-- One blank may stand between a date and its time. -/
def skipDate (cs : List Char) : List Char :=
  match cs.dropWhile isBare with
  | ' ' :: rest => (dropWord? rest).getD (' ' :: rest)
  | rest => rest

def readMoment? (cs : List Char) : Option (Value × List Char) :=
  (skipTime? (skipDate cs)).map fun rest =>
    (.moment (String.ofList (cs.take (cs.length - rest.length))), rest)

end DataAccess.Toml
