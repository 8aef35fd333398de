import DataAccess.Decimal.Extended
import DataAccess.Decimal.Layout
import DataAccess.Text.Utf8
import DataAccess.Value

/-!
Stored cells. Text is kept as bytes, since a cast can make text of any bytes. Cells are
ordered by kind first: null, numbers by their exact value, text by bytes, blobs by bytes.
-/
namespace DataAccess.Database

inductive Cell where
  | null
  | integer (n : Int64)
  | real (x : Float)
  | text (utf8 : List UInt8)
  | blob (bytes : List UInt8)
deriving BEq, Inhabited

namespace Cell

/-- The cell of a bound value. There is no NaN: it is null. -/
def ofValue : Value → Cell
  | .null => .null
  | .integer n => .integer n
  | .real x => if x.isNaN then .null else .real x
  | .text s => .text (Text.encodeUtf8 s)
  | .blob bytes => .blob bytes

/-- The value that a result shows; bytes of text that are no characters are replaced. -/
def toValue : Cell → Value
  | .null => .null
  | .integer n => .integer n
  | .real x => .real x
  | .text utf8 => .text (Text.decodeLossy utf8)
  | .blob bytes => .blob bytes

def isNull : Cell → Bool
  | .null => true
  | _ => false

def ofBool? : Option Bool → Cell
  | none => .null
  | some b => .integer (if b then 1 else 0)

/-- Whether two cells are stored as the same bytes. Equal numbers of different kinds are not,
nor are the two zeros among floats. -/
def identical : Cell → Cell → Bool
  | .null, .null => true
  | .integer m, .integer n => m == n
  | .real x, .real y => x.toBits == y.toBits
  | .text s, .text t => s == t
  | .blob s, .blob t => s == t
  | _, _ => false

end Cell

def compareBytes : List UInt8 → List UInt8 → Ordering
  | [], [] => .eq
  | [], _ :: _ => .lt
  | _ :: _, [] => .gt
  | a :: as, b :: bs => (compare a b).then (compareBytes as bs)

/-- The exact order of a whole number and a float that is not NaN. -/
def compareIntReal (n : Int) (x : Float) : Ordering :=
  match Decimal.Dyadic.ofFloat? x with
  | none => if x < 0 then .gt else .lt
  | some d =>
    let m : Int := if d.negative then -d.significand else d.significand
    match d.exponent with
    | .ofNat e => compare n (m * Int.pow 2 e)
    | .negSucc e => compare (n * Int.pow 2 (e + 1)) m

def compareReal (x y : Float) : Ordering := if x < y then .lt else if y < x then .gt else .eq

namespace Cell

def rank : Cell → Nat
  | .null => 0
  | .integer _ | .real _ => 1
  | .text _ => 2
  | .blob _ => 3

def compare (a b : Cell) : Ordering :=
  match a, b with
  | .integer m, .integer n => Ord.compare m.toInt n.toInt
  | .integer m, .real y => compareIntReal m.toInt y
  | .real x, .integer n => (compareIntReal n.toInt x).swap
  | .real x, .real y => compareReal x y
  | .text s, .text t => compareBytes s t
  | .blob s, .blob t => compareBytes s t
  | a, b => Ord.compare a.rank b.rank

/-- Floats have fifteen significant digits as text, and always a point. -/
def realLayout : Decimal.Layout := ⟨(-3, 15), true, 2⟩

def realText (x : Float) : String :=
  if x == 0 then "0.0"
  else
    let digits (d : Decimal.Dyadic) := (Decimal.Extended.ofDyadic d).leadingDigits 15
    (realLayout.floatText? digits x).getD (if x < 0 then "-Inf" else "Inf")

/-- The bytes of a cell as text; none for null. -/
def textBytes? : Cell → Option (List UInt8)
  | .null => none
  | .integer n => some (Text.encodeUtf8 (toString n.toInt))
  | .real x => some (Text.encodeUtf8 (realText x))
  | .text utf8 => some utf8
  | .blob bytes => some bytes

end Cell

def isTextSpace (c : Char) : Bool :=
  c = ' ' ∨ c = '\t' ∨ c = '\n' ∨ c = '\x0b' ∨ c = '\x0c' ∨ c = '\r'

/-- The characters of text, one for each byte that is not part of a character. -/
def charsOf (utf8 : List UInt8) : List Char := (Text.decodeLossy utf8).toList

/-- The whole number of a numeral if it fits a signed word, and its float otherwise. -/
def cellOfNumeral (n : Decimal.Numeral) : Cell :=
  let i := n.toInt
  if n.isWhole ∧ Int64.minValue.toInt ≤ i ∧ i ≤ Int64.maxValue.toInt then .integer (Int64.ofInt i)
  else .real n.toFloatExtended

/-- The number that text spells, blanks around it aside. -/
def numberOfText? (utf8 : List UInt8) : Option Cell :=
  let (n, rest) := Decimal.Numeral.read ((charsOf utf8).dropWhile isTextSpace)
  if n.hasDigits ∧ rest.all isTextSpace then some (cellOfNumeral n) else none

/-- The numeral at the front of text, which may be without digits. -/
def leadingNumeral (utf8 : List UInt8) : Decimal.Numeral :=
  (Decimal.Numeral.read ((charsOf utf8).dropWhile isTextSpace)).1

/-- The number at the front of text; zero if there is none. -/
def leadingNumber (utf8 : List UInt8) : Cell :=
  let n := leadingNumeral utf8
  if n.hasDigits then cellOfNumeral n else .integer 0

namespace Cell

/-- The number that arithmetic uses; none for null. -/
def number? : Cell → Option Cell
  | .null => none
  | .text utf8 => some (leadingNumber utf8)
  | .blob bytes => some (leadingNumber bytes)
  | c => some c

/-- The float that arithmetic uses where whole numbers do not do. A sign in front of no digits
is that of zero. -/
def toReal : Cell → Float
  | .null => 0
  | .integer n => Float.ofInt n.toInt
  | .real x => x
  | .text utf8 => (leadingNumeral utf8).toFloatExtended
  | .blob bytes => (leadingNumeral bytes).toFloatExtended

/-- Whether a cell counts as true; none for null. -/
def truth? (c : Cell) : Option Bool :=
  match c.number? with
  | some (.integer n) => some (n != 0)
  | some (.real x) => some (x != 0)
  | _ => none

end Cell

end DataAccess.Database
