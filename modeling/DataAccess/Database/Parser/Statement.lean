import DataAccess.Database.Parser.Expr
import DataAccess.Database.Statement

/-!
Reading statements from tokens. Readers that nest are bounded by fuel, of which every token
needs a fixed amount.
-/
namespace DataAccess.Database

namespace Parser

/-- A star, perhaps behind the name of a table. -/
def star? : Reader (Option String) := fun ts =>
  match symbol? "*" ts with
  | some ts => some (none, ts)
  | none => do
    let (qualifier, ts) ← name? .declared ts
    let ts ← symbol? "." ts
    let ts ← symbol? "*" ts
    some (some qualifier, ts)

def item? (fuel : Nat) : Reader Item := fun ts =>
  match star? ts with
  | some (qualifier, ts) => some (.star qualifier, ts)
  | none => do
    let (e, rest) ← wholeExpr? fuel ts
    let (given, after) ← givenName? .afterExpr rest
    some (.expr e given (textBetween ts rest), after)

def orderTerm? (fuel : Nat) : Reader (Written × Bool) := fun ts => do
  let (e, ts) ← wholeExpr? fuel ts
  match keyword? "desc" ts, keyword? "asc" ts with
  | some ts, _ => some ((e, true), ts)
  | none, some ts => some ((e, false), ts)
  | none, none => some ((e, false), ts)

/-- A limit, perhaps with an offset before a comma or behind a keyword. -/
def limit? (fuel : Nat) : Reader (Option Written × Option Written) := fun ts =>
  match keyword? "limit" ts with
  | none => some ((none, none), ts)
  | some ts => do
    let (a, ts) ← wholeExpr? fuel ts
    match symbol? "," ts, keyword? "offset" ts with
    | some ts, _ => do
      let (b, ts) ← wholeExpr? fuel ts
      some ((some b, some a), ts)
    | none, some ts => do
      let (b, ts) ← wholeExpr? fuel ts
      some ((some a, some b), ts)
    | none, none => some ((some a, none), ts)

/-- The clauses behind the source of a selection. -/
def clauses? (fuel : Nat) (items : List Item) : Reader Select := fun ts => do
  let (filter, ts) ← after? ["where"] (wholeExpr? fuel) ts
  let (groupBy, ts) ← after? ["group", "by"] (separated? (wholeExpr? fuel) fuel) ts
  let (order, ts) ← after? ["order", "by"] (separated? (orderTerm? fuel) fuel) ts
  let (limits, ts) ← limit? fuel ts
  some (⟨items, filter, groupBy.getD [], order.getD [], limits.1, limits.2⟩, ts)

/-- A table by its name, perhaps with that of its schema before it. -/
def tableName? : Reader (Option String × String) := fun ts => do
  let (name, ts) ← name? .declared ts
  match symbol? "." ts with
  | none => some ((none, name), ts)
  | some ts => (name? .declared ts).map fun r => ((some name, r.1), r.2)

def query? : Nat → Reader Query
  | 0, _ => none
  | fuel + 1, ts => do
    let ts ← keyword? "select" ts
    let (items, ts) ← separated? (item? fuel) fuel ts
    match keyword? "from" ts with
    | none => do
      let (s, ts) ← clauses? fuel items ts
      some (⟨none, s, []⟩, ts)
    | some ts =>
      match symbol? "(" ts with
      | some ts => do
        let (q, ts) ← query? fuel ts
        let ts ← symbol? ")" ts
        let (given, ts) ← givenName? .afterTable ts
        let (s, ts) ← clauses? fuel items ts
        some ({ q with outer := q.outer ++ [(given, s)] }, ts)
      | none => do
        let ((schema, name), ts) ← tableName? ts
        let (given, ts) ← givenName? .afterTable ts
        let (s, ts) ← clauses? fuel items ts
        some (⟨some ⟨schema, name, given⟩, s, []⟩, ts)

/-- The table of a statement that writes; a name that it goes by needs its keyword. -/
def target? : Reader TableRef := fun ts => do
  let ((schema, name), ts) ← tableName? ts
  let (given, ts) ← after? ["as"] (name? .declared) ts
  some (⟨schema, name, given⟩, ts)

/-- Whether all rows have the same number of cells. -/
def isRectangular (rows : List (List Written)) : Bool :=
  rows.all fun r => some r.length = rows.head?.map (·.length)

def insert? (fuel : Nat) : Reader Statement := fun ts => do
  let ts ← keywords? ["insert", "into"] ts
  let (table, ts) ← target? ts
  let (columns, ts) ←
    if isSymbol "(" ts then
      (parenthesized? (separated? (name? .declared) fuel) ts).map fun r => (some r.1, r.2)
    else some (none, ts)
  let ts ← keyword? "values" ts
  let row := parenthesized? (separated? (wholeExpr? fuel) fuel)
  let (rows, ts) ← separated? row fuel ts
  if isRectangular rows then some (.insert table columns rows, ts) else none

def assignment? (fuel : Nat) : Reader (String × Written) := fun ts => do
  let (name, ts) ← name? .declared ts
  let ts ← (symbol? "=" ts).or (symbol? "==" ts)
  let (e, ts) ← wholeExpr? fuel ts
  some ((name, e), ts)

def update? (fuel : Nat) : Reader Statement := fun ts => do
  let ts ← keyword? "update" ts
  let (table, ts) ← target? ts
  let ts ← keyword? "set" ts
  let (assignments, ts) ← separated? (assignment? fuel) fuel ts
  let (filter, ts) ← after? ["where"] (wholeExpr? fuel) ts
  some (.update table assignments filter, ts)

def delete? (fuel : Nat) : Reader Statement := fun ts => do
  let ts ← keywords? ["delete", "from"] ts
  let (table, ts) ← target? ts
  let (filter, ts) ← after? ["where"] (wholeExpr? fuel) ts
  some (.delete table filter, ts)

/-- Skips the keyword for transactions, and a name behind it. -/
def skipTransaction (ts : List Lexeme) : List Lexeme :=
  match keyword? "transaction" ts with
  | some ts => ((name? .declared ts).map (·.2)).getD ts
  | none => ts

def control? : Reader Statement := fun ts =>
  match keyword? "begin" ts, keyword? "commit" ts, keyword? "end" ts, keyword? "rollback" ts with
  | some ts, _, _, _ =>
    match keyword? "deferred" ts, keyword? "immediate" ts, keyword? "exclusive" ts with
    | some ts, _, _ => some (.begin .deferred, skipTransaction ts)
    | _, some ts, _ => some (.begin .immediate, skipTransaction ts)
    | _, _, some ts => some (.begin .exclusive, skipTransaction ts)
    | none, none, none => some (.begin .deferred, skipTransaction ts)
  | _, some ts, _, _ | _, _, some ts, _ => some (.commit, skipTransaction ts)
  | _, _, _, some ts => some (.rollback, skipTransaction ts)
  | none, none, none, none => none

/-- A setting that is on or off. -/
def flag? : Reader Bool
  | ⟨.word s, _, _⟩ :: ts =>
    if s.map Char.toLower ∈ ["on", "true", "yes"] then some (true, ts)
    else if s.map Char.toLower ∈ ["off", "false", "no"] then some (false, ts)
    else none
  | ⟨.number n, _, _⟩ :: ts =>
    if n.isWhole ∧ n.toInt = 1 then some (true, ts)
    else if n.isWhole ∧ n.toInt = 0 then some (false, ts)
    else none
  | _ => none

/-- Of the settings of a connection only how it reads. -/
def pragma? : Reader Statement := fun ts => do
  let ts ← keywords? ["pragma", "read_uncommitted"] ts
  match symbol? "=" ts, symbol? "(" ts with
  | some ts, _ => (flag? ts).map fun r => (.readUncommitted (some r.1), r.2)
  | none, some _ => (parenthesized? flag? ts).map fun r => (.readUncommitted (some r.1), r.2)
  | none, none => some (.readUncommitted none, ts)

def statement? (fuel : Nat) (ts : List Lexeme) : Option Statement :=
  let whole (r : Option (Statement × List Lexeme)) : Option Statement :=
    match r with
    | some (s, []) => some s
    | _ => none
  if ts.isEmpty then some .nothing
  else (whole ((query? fuel ts).map fun r => (.query r.1, r.2))).orElse fun _ =>
    (whole (insert? fuel ts)).orElse fun _ =>
      (whole (update? fuel ts)).orElse fun _ =>
        (whole (delete? fuel ts)).orElse fun _ =>
          (whole (control? ts)).orElse fun _ => whole (pragma? ts)

end Parser

/-- The first statement of a text with the number of its parameters. A token needs no more
than four nested readers. -/
def Statement.ofText? (sql : String) : Option (Statement × Nat) :=
  match tokens? sql with
  | none => none
  | some (ts, count) => (Parser.statement? (4 * ts.length + 16) ts).map (·, count)

end DataAccess.Database
