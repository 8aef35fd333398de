/-!
Lexical regions of SQL text. A scan with one character of lookahead flags each character as
live code or as part of a quoted literal, a quoted identifier or a comment. Doubled quotes
close and reopen their literal, so they need no rule of their own.
-/
namespace DataAccess.Sql

inductive Region where
  | code
  /-- Inside a literal or identifier that ends at `close`. -/
  | quoted (close : Char)
  | lineComment
  /-- Between the two characters that open a block comment. -/
  | blockOpen
  | blockComment (afterStar : Bool)
deriving DecidableEq, Repr

/-- The delimiter that ends what the character opens. -/
def closingQuote (c : Char) : Option Char :=
  if c = '\x27' ∨ c = '\x22' ∨ c = '\x60' then some c
  else if c = '[' then some ']'
  else none

/-- The region after a character, and whether the character is live code. -/
def Region.step (c : Char) (next : Option Char) : Region → Region × Bool
  | .code =>
    if c = '-' ∧ next = some '-' then (.lineComment, false)
    else if c = '/' ∧ next = some '*' then (.blockOpen, false)
    else match closingQuote c with
      | some close => (.quoted close, false)
      | none => (.code, true)
  | .quoted close => (if c = close then .code else .quoted close, false)
  | .lineComment => (if c = '\n' then .code else .lineComment, false)
  | .blockOpen => (.blockComment false, false)
  | .blockComment afterStar =>
    (if afterStar ∧ c = '/' then .code else .blockComment (c = '*'), false)

/-- Each character with its live flag. -/
def Region.scan (r : Region) : List Char → List (Char × Bool)
  | [] => []
  | c :: rest => (c, (r.step c rest.head?).2) :: (r.step c rest.head?).1.scan rest

/-- The region in which a text ends. -/
def Region.after (r : Region) : List Char → Region
  | [] => r
  | c :: rest => (r.step c rest.head?).1.after rest

/-- The live flags of SQL text, which starts as code. -/
def scan (text : List Char) : List (Char × Bool) := Region.code.scan text

theorem Region.map_fst_scan (r : Region) (text : List Char) :
    (r.scan text).map Prod.fst = text := by
  induction text generalizing r with
  | nil => rfl
  | cons c rest ih => simp [Region.scan, ih]

theorem Region.length_scan (r : Region) (text : List Char) :
    (r.scan text).length = text.length := by
  rw [← List.length_map (f := Prod.fst), r.map_fst_scan]

end DataAccess.Sql
