import DataAccess.Database.Scan.Way
import DataAccess.Database.Token

/-!
What names mean. A name is that of a column, or of the row identifier, or of an item of the
selection it stands in, in this order; failing that, one in double quotes is text, and the bare
words for truth values are these.
-/
namespace DataAccess.Database

/-- A name as written, perhaps with the name of a table before it. -/
structure Name where
  qualifier : Option String
  name : String
  quoting : Quoting
deriving DecidableEq, Repr

abbrev Written := Expr Name

/-- The columns that names may refer to. -/
structure Header where
  /-- What the columns may be qualified by. -/
  qualifier : Option String
  columns : List ColumnInfo
  /-- The table that has the columns. -/
  table : Option TableShape

/-- Nothing to refer to. -/
def Header.none : Header := ⟨.none, [], .none⟩

/-- The names that a row identifier has besides that of its column. -/
def rowIdNames : List String := ["rowid", "oid", "_rowid_"]

/-- The position of a column or of the row identifier. -/
def Header.position? (h : Header) (name : String) : Option Nat :=
  (Database.position? h.columns name).or
    (if rowIdNames.any (sameName name) then h.table.map (·.key) else Option.none)

/-- The items of a selection that have names, by these. -/
abbrev Aliases := List (String × Term)

def truthWord? (name : String) : Option Bool :=
  if sameName name "true" then some true else if sameName name "false" then some false else none

/-- What a name that belongs to no column and no item stands for. -/
def Name.asLiteral? (n : Name) : Option Term :=
  match n.quoting with
  | .double => some (.literal (.text (Text.encodeUtf8 n.name)))
  | .bare => (truthWord? n.name).map .truth
  | .other => none

/-- What a name stands for. -/
def Name.resolve? (h : Header) (aliases : Aliases) (n : Name) : Option Term :=
  match n.qualifier with
  | some q => if h.qualifier.any (sameName q) then (h.position? n.name).map .ref else none
  | none =>
    ((h.position? n.name).map .ref).or
      (((aliases.find? (sameName n.name ·.1)).map (·.2)).or n.asLiteral?)

/-- Replaces the names of an expression. Counts may stand in it only if `counts` says so. -/
def Expr.resolve? (h : Header) (aliases : Aliases) (counts : Bool) (e : Written) : Option Term := do
  let t ← e.bind? (Name.resolve? h aliases)
  if t.countsOnce ∧ (counts ∨ !t.hasCount) then some t else none

end DataAccess.Database
