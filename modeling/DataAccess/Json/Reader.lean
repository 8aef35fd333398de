import DataAccess.Decimal.Numeral
import DataAccess.Json.Basic
import DataAccess.Text.Hex

/-!
Reading JSON text. A number without point and exponent is whole if it fits a signed or
unsigned machine word, and a float otherwise; of equal field names the last one counts.
-/
namespace DataAccess.Json

def isSpace (c : Char) : Bool := c = ' ' ∨ c = '\n' ∨ c = '\r' ∨ c = '\t'

def skipSpace (cs : List Char) : List Char := cs.dropWhile isSpace

/-- The whole number or float of a numeral. There is no whole negative zero. -/
def ofNumeral (n : Decimal.Numeral) : Json :=
  let i := n.toInt
  if n.isWhole ∧ Int64.minValue.toInt ≤ i ∧ i < UInt64.size ∧ ¬(n.negative ∧ i = 0) then
    .integer i
  else .real n.toFloat

def readNumber? (cs : List Char) : Option (Json × List Char) :=
  let (n, rest) := Decimal.Numeral.read cs
  let padded : Bool := match n.whole with | '0' :: _ :: _ => true | _ => false
  if n.whole.isEmpty ∨ padded ∨ n.sign = .plus ∨ n.fraction = some [] then none
  else some (ofNumeral n, rest)

def simpleEscape? : Char → Option Char
  | '\x22' => some '\x22'
  | '\\' => some '\\'
  | '/' => some '/'
  | 'b' => some '\x08'
  | 'f' => some '\x0c'
  | 'n' => some '\n'
  | 'r' => some '\r'
  | 't' => some '\t'
  | _ => none

/-- The character of a pair of surrogate escapes. -/
def surrogatePair? (high low : List Char) : Option Char := do
  let high ← Text.hexNumber? high
  let low ← Text.hexNumber? low
  if 0xD800 ≤ high ∧ high < 0xDC00 ∧ 0xDC00 ≤ low ∧ low < 0xE000 then
    some (Char.ofNat (0x10000 + (high - 0xD800) * 0x400 + (low - 0xDC00)))
  else none

def readString? : List Char → Option (List Char × List Char)
  | [] => none
  | '\x22' :: rest => some ([], rest)
  | '\\' :: 'u' :: a :: b :: c :: d :: rest =>
    match rest with
    | '\\' :: 'u' :: e :: f :: g :: h :: tail =>
      match surrogatePair? [a, b, c, d] [e, f, g, h] with
      | some ch => (readString? tail).map fun r => (ch :: r.1, r.2)
      | none =>
        (Text.codePoint? [a, b, c, d]).bind fun ch =>
          (readString? ('\\' :: 'u' :: e :: f :: g :: h :: tail)).map fun r => (ch :: r.1, r.2)
    | rest =>
      (Text.codePoint? [a, b, c, d]).bind fun ch =>
        (readString? rest).map fun r => (ch :: r.1, r.2)
  | '\\' :: c :: rest =>
    (simpleEscape? c).bind fun e => (readString? rest).map fun r => (e :: r.1, r.2)
  | c :: rest =>
    if c.toNat < 32 then none else (readString? rest).map fun r => (c :: r.1, r.2)

def readWord? (word : String) (j : Json) (cs : List Char) : Option (Json × List Char) :=
  if cs.take word.length = word.toList then some (j, cs.drop word.length) else none

mutual

/-- One value at the front of a text, by at most `fuel` nested steps. -/
def readValue? : Nat → List Char → Option (Json × List Char)
  | 0, _ => none
  | fuel + 1, cs =>
    match skipSpace cs with
    | '\x22' :: rest => (readString? rest).map fun r => (.text (String.ofList r.1), r.2)
    | '[' :: rest =>
      match skipSpace rest with
      | ']' :: rest => some (.array [], rest)
      | rest => (readItems? fuel rest).map fun r => (.array r.1, r.2)
    | '\x7b' :: rest =>
      match skipSpace rest with
      | '\x7d' :: rest => some (.object [], rest)
      | rest => (readFields? fuel rest).map fun r => (ofFields r.1, r.2)
    | 't' :: rest => readWord? "rue" (.bool true) rest
    | 'f' :: rest => readWord? "alse" (.bool false) rest
    | 'n' :: rest => readWord? "ull" .null rest
    | rest => readNumber? rest

def readItems? : Nat → List Char → Option (List Json × List Char)
  | 0, _ => none
  | fuel + 1, cs =>
    match readValue? fuel cs with
    | none => none
    | some (a, rest) =>
      match skipSpace rest with
      | ',' :: rest => (readItems? fuel rest).map fun r => (a :: r.1, r.2)
      | ']' :: rest => some ([a], rest)
      | _ => none

def readFields? : Nat → List Char → Option (List (String × Json) × List Char)
  | 0, _ => none
  | fuel + 1, cs =>
    match skipSpace cs with
    | '\x22' :: rest =>
      match readString? rest with
      | none => none
      | some (key, rest) =>
        match skipSpace rest with
        | ':' :: rest =>
          match readValue? fuel rest with
          | none => none
          | some (a, rest) =>
            match skipSpace rest with
            | ',' :: rest =>
              (readFields? fuel rest).map fun r => ((String.ofList key, a) :: r.1, r.2)
            | '\x7d' :: rest => some ([(String.ofList key, a)], rest)
            | _ => none
        | _ => none
    | _ => none

end

/-- The value that a text spells. Every nested step but one in two takes a character. -/
def ofText? (s : String) : Option Json :=
  match readValue? (2 * s.length + 2) s.toList with
  | some (a, rest) => if (skipSpace rest).isEmpty then some a else none
  | none => none

end DataAccess.Json
