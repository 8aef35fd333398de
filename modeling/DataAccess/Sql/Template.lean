import DataAccess.Params
import DataAccess.Sql.Bound

/-!
Templates: SQL text with named placeholders. A live brace directly before an identifier and a
closing brace opens a hole, which becomes `?` bound to the value of its name; every other
character is kept, also braces that open no hole.
-/
namespace DataAccess.Sql

def isNameStart (c : Char) : Bool := c.isAlpha || c = '_'

def isNameChar (c : Char) : Bool := c.isAlphanum || c = '_' || c = '.'

def isIdentifier : List Char → Bool
  | [] => false
  | c :: rest => isNameStart c && rest.all isNameChar

/-- The identifier that flagged text starts with, if a closing brace directly follows it. -/
def holeName? (rest : List (Char × Bool)) : Option (List Char) :=
  let name := (rest.takeWhile fun m => isNameChar m.1).map Prod.fst
  match rest.drop name.length with
  | ('\x7d', _) :: _ => if isIdentifier name then some name else none
  | _ => none

inductive Piece where
  | kept (c : Char)
  | hole (name : List Char)
deriving DecidableEq, Repr

/-- The pieces of flagged text, after `skip` characters that a hole has taken. -/
def pieces : Nat → List (Char × Bool) → List Piece
  | _, [] => []
  | skip + 1, _ :: rest => pieces skip rest
  | 0, (c, live) :: rest =>
    match if live ∧ c = '\x7b' then holeName? rest else none with
    | some name => .hole name :: pieces (name.length + 1) rest
    | none => .kept c :: pieces 0 rest

/-- The names of the holes, in order and with repetition. -/
def holeNames (ps : List Piece) : List String :=
  ps.filterMap fun | .hole name => some (String.ofList name) | .kept _ => none

/-- The text with `?` for each hole. -/
def positionalText (ps : List Piece) : List Char :=
  ps.map fun | .hole _ => '?' | .kept c => c

def lookUp (params : Params) (name : String) : Except Error Value :=
  match params.get? name with
  | some v => .ok v
  | none => .error (.missingParameter name)

/-- Binds a template. The leftmost name without a value is reported before a placeholder
that the template spells out. -/
def bindTemplate (template : String) (params : Params) : Except Error Bound := do
  let ps := pieces 0 (scan template.toList)
  let values ← (holeNames ps).mapM (lookUp params)
  Bound.make (String.ofList (positionalText ps)) values

end DataAccess.Sql
