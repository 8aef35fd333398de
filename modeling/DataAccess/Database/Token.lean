import DataAccess.Database.Cell
import DataAccess.Text.Hex

/-!
Tokens of SQL statements. Comments and blanks separate tokens; parameters are numbered as
they are read, where a bare one and a new name take the index after the largest so far. A
statement ends at the first semicolon behind a token, and what follows is not looked at; a
zero character ends the whole text.
-/
namespace DataAccess.Database

/-- How a name is written. -/
inductive Quoting where
  | bare
  /-- In double quotes, where it is text if nothing has the name. -/
  | double
  /-- In backticks or brackets. -/
  | other
deriving DecidableEq, Repr

inductive Token where
  /-- A keyword or a bare name. -/
  | word (s : String)
  /-- A name in quotes or brackets. -/
  | name (s : String) (quoting : Quoting)
  | text (s : String)
  | number (n : Decimal.Numeral)
  /-- A whole number in hexadecimal digits. -/
  | bits (n : UInt64)
  | param (index : Nat)
  | symbol (s : String)
deriving DecidableEq

/-- A token with the text from its start, and the text from the start of the token after it. -/
structure Lexeme where
  token : Token
  start : List Char
  next : List Char

/-- The parameters read so far: the largest index, and the indices of names. -/
structure Numbering where
  largest : Nat
  names : List (String × Nat)

def isWordStart (c : Char) : Bool := c.isAlpha || c = '_' || 128 ≤ c.toNat

def isWordChar (c : Char) : Bool := c.isAlphanum || c = '_' || c = '$' || 128 ≤ c.toNat

/-- The text up to a quote that is not doubled, and what follows that quote. -/
def readQuoted? (close : Char) : List Char → Option (List Char × List Char)
  | [] => none
  | [c] => if c = close then some ([], []) else none
  | c :: d :: rest =>
    if c = close then
      if d = close then (readQuoted? close rest).map fun r => (close :: r.1, r.2)
      else some ([], d :: rest)
    else (readQuoted? close (d :: rest)).map fun r => (c :: r.1, r.2)

/-- What follows the end of a block comment; nothing if it is not closed. -/
def afterBlockComment : List Char → List Char
  | '*' :: '/' :: rest => rest
  | _ :: rest => afterBlockComment rest
  | [] => []

/-- A blank that a token can end at. A vertical tab only continues other blanks. -/
def isBlank (c : Char) : Bool := c = ' ' ∨ c = '\t' ∨ c = '\n' ∨ c = '\x0c' ∨ c = '\r'

/-- Skips blanks, byte order marks and comments, at most `fuel` of them. -/
def skipBlank : Nat → List Char → List Char
  | 0, cs => cs
  | fuel + 1, cs =>
    match cs with
    | '-' :: '-' :: rest => skipBlank fuel (rest.dropWhile (· ≠ '\n'))
    | '/' :: '*' :: c :: rest => skipBlank fuel (afterBlockComment (c :: rest))
    | c :: rest =>
      if isBlank c then skipBlank fuel (rest.dropWhile isTextSpace)
      else if c = '\ufeff' then skipBlank fuel rest
      else c :: rest
    | [] => []

/-- Parameters have indices up to this one. -/
def maxParam : Nat := 32766

/-- Reads the rest of a parameter behind its question mark. -/
def readIndexed? (ns : Numbering) (cs : List Char) : Option (Token × List Char × Numbering) :=
  let digits := cs.takeWhile Decimal.isDigit
  let rest := cs.dropWhile Decimal.isDigit
  let index := if digits.isEmpty then ns.largest + 1 else Decimal.valueOfDigits digits
  if 1 ≤ index ∧ index ≤ maxParam then
    some (.param index, rest, { ns with largest := max ns.largest index })
  else none

/-- Reads the rest of a named parameter behind its mark. -/
def readNamed? (ns : Numbering) (mark : Char) (cs : List Char) :
    Option (Token × List Char × Numbering) :=
  let name := String.ofList (mark :: cs.takeWhile isWordChar)
  let rest := cs.dropWhile isWordChar
  if (cs.takeWhile isWordChar).isEmpty then none
  else match ns.names.lookup name with
    | some index => some (.param index, rest, ns)
    | none =>
      let index := ns.largest + 1
      some (.param index, rest, ⟨index, (name, index) :: ns.names⟩)

/-- A digit or an underscore between digits. -/
def isGroupedDigit (digit : Char → Bool) (c : Char) : Bool := digit c || c = '_'

/-- Every underscore stands between two digits. -/
def isGrouped (digit : Char → Bool) : (afterDigit : Bool) → List Char → Bool
  | _, [] => true
  | afterDigit, c :: rest =>
    if c = '_' then afterDigit && rest.head?.any digit && isGrouped digit false rest
    else isGrouped digit (digit c) rest

/-- The exponent at the front of a text: a mark, perhaps a sign, and at least one digit. -/
def splitPower (cs : List Char) : List Char × List Char :=
  let signed : Bool := match cs with
    | e :: s :: d :: _ => (e = 'e' ∨ e = 'E') ∧ (s = '+' ∨ s = '-') ∧ Decimal.isDigit d
    | _ => false
  let plain : Bool := match cs with
    | e :: d :: _ => (e = 'e' ∨ e = 'E') ∧ Decimal.isDigit d
    | _ => false
  let mark := if signed then 2 else if plain then 1 else 0
  let isPart := isGroupedDigit Decimal.isDigit
  if mark = 0 then ([], cs)
  else (cs.take mark ++ (cs.drop mark).takeWhile isPart, (cs.drop mark).dropWhile isPart)

/-- The characters of a decimal number at the front of a text, and the text behind it. -/
def splitNumber (cs : List Char) : List Char × List Char :=
  let isPart := isGroupedDigit Decimal.isDigit
  let whole := cs.takeWhile isPart
  let (fraction, rest) := match cs.dropWhile isPart with
    | '.' :: rest => ('.' :: rest.takeWhile isPart, rest.dropWhile isPart)
    | rest => ([], rest)
  let (power, rest) := splitPower rest
  (whole ++ fraction ++ power, rest)

def isHexDigit (c : Char) : Bool := (Text.hexValue? c).isSome

/-- At most sixteen hexadecimal digits, leading zeros aside. -/
def readBits? (cs : List Char) : Option Token :=
  let digits := cs.filter (· ≠ '_')
  if isGrouped isHexDigit false cs ∧ (digits.dropWhile (· = '0')).length ≤ 16 then
    (Text.hexNumber? digits).map fun n => .bits (UInt64.ofNat n)
  else none

/-- A number at the front of a text; no word may follow it directly. -/
def readNumber? (cs : List Char) : Option (Token × List Char) :=
  let ended (rest : List Char) : Bool := !rest.head?.any isWordChar
  let hex : Bool := match cs with
    | '0' :: x :: d :: _ => (x = 'x' ∨ x = 'X') ∧ isHexDigit d
    | _ => false
  if hex then
    let isPart := isGroupedDigit isHexDigit
    let rest := (cs.drop 2).dropWhile isPart
    if ended rest then (readBits? ((cs.drop 2).takeWhile isPart)).map (·, rest) else none
  else
    let (part, rest) := splitNumber cs
    if ended rest ∧ isGrouped Decimal.isDigit false part then
      some (.number (Decimal.Numeral.read (part.filter (· ≠ '_'))).1, rest)
    else none

def symbols : List String :=
  ["<=", ">=", "<>", "!=", "==", "(", ")", ",", ";", "*", "+", "-", "=", "<", ">", "."]

def readSymbol? (cs : List Char) : Option (Token × List Char) :=
  symbols.findSome? fun s =>
    if cs.take s.length = s.toList then some (.symbol s, cs.drop s.length) else none

/-- The token at the front of a text that does not start with a blank. -/
def readToken? (ns : Numbering) (cs : List Char) : Option (Token × List Char × Numbering) :=
  let quoted (close : Char) (rest : List Char) (token : String → Token) :=
    (readQuoted? close rest).map fun r => (token (String.ofList r.1), r.2, ns)
  match cs with
  | [] => none
  | c :: rest =>
    if c = '\x27' then quoted c rest .text
    else if c = '\x22' then quoted c rest (.name · .double)
    else if c = '\x60' then quoted c rest (.name · .other)
    else if c = '[' then
      match rest.dropWhile (· ≠ ']') with
      | _ :: tail => some (.name (String.ofList (rest.takeWhile (· ≠ ']'))) .other, tail, ns)
      | [] => none
    else if c = '?' then readIndexed? ns rest
    else if c = ':' ∨ c = '@' ∨ c = '$' then readNamed? ns c rest
    else if isWordStart c then
      some (.word (String.ofList (cs.takeWhile isWordChar)), cs.dropWhile isWordChar, ns)
    else if Decimal.isDigit c ∨ (c = '.' ∧ rest.head?.any Decimal.isDigit) then
      (readNumber? cs).map fun r => (r.1, r.2, ns)
    else (readSymbol? cs).map fun r => (r.1, r.2, ns)

/-- The tokens of the first statement of a text that starts with no blank, and the number of
its parameters, by at most `fuel` tokens; `started` once there is a token. -/
def readTokens? : Nat → (started : Bool) → Numbering → List Char → Option (List Lexeme × Nat)
  | 0, _, _, _ => none
  | fuel + 1, started, ns, start =>
    if start.isEmpty then some ([], ns.largest)
    else match readToken? ns start with
      | none => none
      | some (token, rest, ns) =>
        let next := skipBlank (rest.length + 1) rest
        if token = .symbol ";" then
          if started then some ([], ns.largest) else readTokens? fuel false ns next
        else (readTokens? fuel true ns next).map fun r => (⟨token, start, next⟩ :: r.1, r.2)

/-- Every token takes a character. -/
def tokens? (sql : String) : Option (List Lexeme × Nat) :=
  let text := sql.toList.takeWhile (· ≠ '\x00')
  readTokens? (text.length + 1) false ⟨0, []⟩ (skipBlank (text.length + 1) text)

end DataAccess.Database
