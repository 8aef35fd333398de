/-!
Words with a meaning of their own, and where each of them may still be a name. Most words can
name anything wherever their own meaning does not fit.
-/
namespace DataAccess.Database

/-- Words that are never names. -/
def reservedWords : List String :=
  ["add", "all", "alter", "and", "as", "autoincrement", "between", "case", "check", "collate",
    "commit", "constraint", "create", "default", "deferrable", "delete", "distinct", "drop",
    "else", "escape", "except", "exists", "foreign", "from", "group", "having", "in", "index",
    "insert", "intersect", "into", "is", "isnull", "join", "limit", "not", "nothing", "notnull",
    "null", "on", "or", "order", "primary", "references", "returning", "select", "set", "table",
    "then", "to", "transaction", "union", "unique", "update", "using", "values", "when", "where"]

/-- Words of joins, which are names except where a name may follow without a keyword. -/
def joinWords : List String :=
  ["cross", "full", "indexed", "inner", "left", "natural", "outer", "right"]

/-- Words that are operators directly behind an expression. -/
def patternWords : List String := ["glob", "like", "match", "regexp"]

/-- Words that start an expression of their own form. -/
def callWords : List String := ["cast", "raise"]

inductive NamePlace where
  /-- Behind a keyword, or at the place of a table or a column. -/
  | declared
  | operand
  /-- Behind an expression, which it names. -/
  | afterExpr
  /-- Behind a table or a selection in parentheses, which it names. -/
  | afterTable
deriving DecidableEq, Repr

/-- Whether a word can be a name in its place. -/
def NamePlace.admits (place : NamePlace) (word : String) : Bool :=
  let w := word.map Char.toLower
  let barred : List String :=
    match place with
    | .declared => []
    | .operand => callWords
    | .afterExpr => joinWords ++ patternWords
    | .afterTable => joinWords
  !reservedWords.contains w && !barred.contains w

end DataAccess.Database
