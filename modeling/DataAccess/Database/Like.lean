import DataAccess.Database.Cell

/-!
Patterns: `%` stands for any run of characters and `_` for one character; letters of ASCII
match in either case. A pattern is matched from its end: one row of answers, an answer for
each end of the text, follows from the row before it, so the work is the product of the two
lengths.
-/
namespace DataAccess.Database

/-- The bits of a code point that its first byte holds. -/
def leadBits (b : UInt8) : Nat :=
  let n := b.toNat
  if n < 0xE0 then n - 0xC0 else if n < 0xF0 then n - 0xE0 else if n < 0xF8 then n - 0xF0
  else if n < 0xFC then n - 0xF8 else if n < 0xFE then n - 0xFC else 0

/-- A first byte takes all continuation bytes behind it, however many; code points that have no
place in text become the replacement character. -/
def assembledPoint (lead : UInt8) (tail : List UInt8) : Nat :=
  let c := tail.foldl (fun c b => (c * 64 + b.toNat % 64) % UInt32.size) (leadBits lead)
  if c < 0x80 ∨ c / 0x800 = 0xD800 / 0x800 ∨ c / 2 = 0xFFFE / 2 then 0xFFFD else c

/-- The code points of a text up to its first zero byte. A continuation byte without a first
byte stands for itself. -/
def codePoints : List UInt8 → List Nat
  | [] => []
  | b :: rest =>
    if b = 0 then []
    else if b < 0xC0 then b.toNat :: codePoints rest
    else
      assembledPoint b (rest.takeWhile Text.isContinuation) ::
        codePoints (rest.dropWhile Text.isContinuation)
termination_by bytes => bytes.length
decreasing_by
  · simp
  · have := (List.dropWhile_sublist Text.isContinuation (l := rest)).length_le
    simp only [List.length_cons]
    omega

/-- An ASCII letter in lower case; any other code point itself. -/
def foldCase (c : Nat) : Nat := if 65 ≤ c ∧ c ≤ 90 then c + 32 else c

/-- For each end of a text, whether it matches a pattern that starts with `p`; `row` answers
for the rest of the pattern. -/
def likeRow (p : Nat) (text : List Nat) (row : List Bool) : List Bool :=
  if p = '%'.toNat then
    row.foldr (fun b later => (b || later.headD false) :: later) []
  else
    let one := List.zipWith (fun c b => (p = '_'.toNat || foldCase p = foldCase c) && b) text row.tail
    one ++ [false]

/-- Only the empty end matches the empty pattern. -/
def emptyRow (text : List Nat) : List Bool := text.map (fun _ => false) ++ [true]

def likeMatch (pattern text : List Nat) : Bool :=
  (pattern.foldr (fun p row => likeRow p text row) (emptyRow text)).headD false

/-- Whether a cell matches a pattern; none if one of them is null. -/
def Cell.like? (c pattern : Cell) : Option Bool :=
  match c.textBytes?, pattern.textBytes? with
  | some t, some p => some (likeMatch (codePoints p) (codePoints t))
  | _, _ => none

end DataAccess.Database
