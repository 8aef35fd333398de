import DataAccess.Database.Keyword
import DataAccess.Database.Token

/-!
Readers of tokens. A reader takes the tokens at the front and gives back the rest; keywords are
read without regard to case.
-/
namespace DataAccess.Database

abbrev Reader (α : Type) := List Lexeme → Option (α × List Lexeme)

namespace Parser

def isWord (word : String) : List Lexeme → Bool
  | ⟨.word s, _, _⟩ :: _ => s.map Char.toLower = word
  | _ => false

def keyword? (word : String) (ts : List Lexeme) : Option (List Lexeme) :=
  if isWord word ts then some (ts.drop 1) else none

def keywords? (words : List String) (ts : List Lexeme) : Option (List Lexeme) :=
  words.foldlM (fun ts w => keyword? w ts) ts

def isSymbol (s : String) : List Lexeme → Bool
  | ⟨.symbol t, _, _⟩ :: _ => t = s
  | _ => false

def symbol? (s : String) (ts : List Lexeme) : Option (List Lexeme) :=
  if isSymbol s ts then some (ts.drop 1) else none

/-- A name with how it is written; one in single quotes is not among the operands. -/
def quotedName? (place : NamePlace) : Reader (String × Quoting)
  | ⟨.word s, _, _⟩ :: ts => if place.admits s then some ((s, .bare), ts) else none
  | ⟨.name s quoting, _, _⟩ :: ts => some ((s, quoting), ts)
  | ⟨.text s, _, _⟩ :: ts => if place = .operand then none else some ((s, .other), ts)
  | _ => none

def name? (place : NamePlace) : Reader String := fun ts =>
  (quotedName? place ts).map fun r => (r.1.1, r.2)

/-- A name behind a keyword or, where that is allowed, without it. -/
def givenName? (place : NamePlace) : Reader (Option String) := fun ts =>
  match keyword? "as" ts with
  | some ts => (name? .declared ts).map fun r => (some r.1, r.2)
  | none =>
    match name? place ts with
    | some (name, ts) => some (some name, ts)
    | none => some (none, ts)

/-- The text from the first of some tokens up to the token behind them, without the blanks at
its end. -/
def textBetween (ts rest : List Lexeme) : String :=
  match ts, (ts.take (ts.length - rest.length)).getLast? with
  | first :: _, some last =>
    let text := first.start.take (first.start.length - last.next.length)
    String.ofList (text.reverse.dropWhile isTextSpace).reverse
  | _, _ => ""

/-- Reads items separated by commas, at most `fuel` of them. -/
def separated? {α : Type} (item : Reader α) : Nat → Reader (List α)
  | 0, _ => none
  | fuel + 1, ts => do
    let (a, ts) ← item ts
    match symbol? "," ts with
    | some ts => (separated? item fuel ts).map fun r => (a :: r.1, r.2)
    | none => some ([a], ts)

/-- Reads what follows keywords if they are there. -/
def after? {α : Type} (words : List String) (read : Reader α) : Reader (Option α) := fun ts =>
  match keywords? words ts with
  | some ts => (read ts).map fun r => (some r.1, r.2)
  | none => some (none, ts)

def parenthesized? {α : Type} (read : Reader α) : Reader α := fun ts => do
  let ts ← symbol? "(" ts
  let (a, ts) ← read ts
  let ts ← symbol? ")" ts
  some (a, ts)

end Parser
end DataAccess.Database
