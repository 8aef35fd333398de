import DataAccess.Database.Parser.Basic
import DataAccess.Database.Scope

/-!
Reading expressions by the strength of their operators. Behind an operand every operator of at
least a given strength is taken, from the left, and its right side takes the stronger ones; a
test that ends in a list or a keyword of its own is complete there, so that also an operator
stronger than the test may follow it.
-/
namespace DataAccess.Database.Parser

/-- From the weakest to the strongest. -/
def orStrength : Nat := 1
def andStrength : Nat := 2
def notStrength : Nat := 3
def testStrength : Nat := 4
def orderStrength : Nat := 5
def sumStrength : Nat := 6
def productStrength : Nat := 7

def negated (flag : Bool) (e : Written) : Written := if flag then .not e else e

/-- A zero that is written out, or what stands for membership in the empty list. -/
def isZero : Written → Bool
  | .number n => n.isWhole ∧ n.toInt = 0
  | .literal (.integer n) => n = 0
  | .truth b => !b
  | _ => false

/-- A conjunction with a zero is zero, whatever the other side is. -/
def conjunction (a b : Written) : Written :=
  if isZero a ∨ isZero b then .literal (.integer 0) else .and a b

/-- An operator between two operands that consists of a symbol or one keyword. -/
def binaryOp? : List Lexeme → Option (Nat × (Written → Written → Written))
  | ⟨.symbol s, _, _⟩ :: _ =>
    if s = "=" ∨ s = "==" then some (testStrength, .compare .eq)
    else if s = "<>" ∨ s = "!=" then some (testStrength, .compare .ne)
    else if s = "<" then some (orderStrength, .compare .lt)
    else if s = "<=" then some (orderStrength, .compare .le)
    else if s = ">" then some (orderStrength, .compare .gt)
    else if s = ">=" then some (orderStrength, .compare .ge)
    else if s = "+" then some (sumStrength, .arith .add)
    else if s = "-" then some (sumStrength, .arith .sub)
    else if s = "*" then some (productStrength, .arith .mul)
    else none
  | ts =>
    if isWord "and" ts then some (andStrength, conjunction)
    else if isWord "or" ts then some (orStrength, .or)
    else if isWord "like" ts then some (testStrength, .like)
    else none

/-- Of several signs in a row, a plus behind another is left out. -/
def unplussed : Written → Written
  | .plus e => e
  | e => e

/-- Membership in a list; nothing is in the empty one, whatever it is. -/
def memberOf (e : Written) : List Written → Written
  | [] => .literal (.integer 0)
  | [a] => .member e a
  | a :: rest => .or (.member e a) (memberOf e rest)

/-- Whether an expression is or is not in a list. -/
def membership (flag : Bool) (e : Written) (list : List Written) : Written :=
  if list.isEmpty then .truth flag else negated flag (memberOf e list)

/-- A call of a function. Without arguments, a count is that of all rows. -/
def call (function : String) (arguments : List Written) : Written :=
  if sameName function "count" then
    match arguments with
    | [] => .count (.literal (.integer 1))
    | [e] => .count e
    | _ => .unknown
  else .unknown

/-- A test for null without a right side. -/
def nullTest? (ts : List Lexeme) : Option (Bool × List Lexeme) :=
  match keyword? "isnull" ts, keyword? "notnull" ts, keywords? ["not", "null"] ts with
  | some ts, _, _ => some (false, ts)
  | _, some ts, _ | _, _, some ts => some (true, ts)
  | none, none, none => none

/-- A column, perhaps with the name of its table and that of the schema before it. -/
def reference? : Reader Written := fun ts =>
  let path := do
    let (q, ts) ← quotedName? .declared ts
    let ts ← symbol? "." ts
    let (n, ts) ← quotedName? .declared ts
    some ((q, n), ts)
  match path with
  | none => (quotedName? .operand ts).map fun r => (.ref ⟨none, r.1.1, r.1.2⟩, r.2)
  | some ((q, n), ts) =>
    let third := (symbol? "." ts).bind (quotedName? .declared)
    match third with
    | none => some (.ref ⟨some q.1, n.1, n.2⟩, ts)
    | some (column, ts) =>
      if sameName q.1 "main" then some (.ref ⟨some n.1, column.1, column.2⟩, ts) else none

mutual

/-- Reads an expression whose operators have at least a given strength. -/
def expr? : Nat → (strength : Nat) → Reader Written
  | 0, _, _ => none
  | fuel + 1, strength, ts => do
    let (a, ts) ← operand? fuel ts
    operators? fuel strength a ts

def operators? : Nat → (strength : Nat) → Written → Reader Written
  | 0, _, _, _ => none
  | fuel + 1, strength, a, ts =>
    match binaryOp? ts with
    | some (s, combine) =>
      if s < strength then some (a, ts)
      else do
        let (b, ts) ← expr? fuel (s + 1) (ts.drop 1)
        operators? fuel strength (combine a b) ts
    | none =>
      if testStrength < strength then some (a, ts)
      else match nullTest? ts, keyword? "is" ts with
        | some (flag, ts), _ => operators? fuel strength (negated flag (.same a (.literal .null))) ts
        | none, some ts => do
          let (b, rest) ← expr? fuel (testStrength + 1) ((keyword? "not" ts).getD ts)
          operators? fuel strength (negated (isWord "not" ts) (.same a b)) rest
        | none, none =>
          let flag := isWord "not" ts
          let inner := if flag then ts.drop 1 else ts
          match keyword? "like" inner, keyword? "in" inner, keyword? "between" inner with
          | some ts, _, _ => do
            let (b, ts) ← expr? fuel (testStrength + 1) ts
            operators? fuel strength (negated flag (.like a b)) ts
          | _, some ts, _ => do
            let ts ← symbol? "(" ts
            let (list, ts) ← if isSymbol ")" ts then some ([], ts) else exprs? fuel ts
            let ts ← symbol? ")" ts
            operators? fuel strength (membership flag a list) ts
          | _, _, some ts => do
            let (low, ts) ← expr? fuel notStrength ts
            let ts ← keyword? "and" ts
            let (high, ts) ← expr? fuel (testStrength + 1) ts
            operators? fuel strength
              (negated flag (.and (.compare .ge a low) (.compare .le a high))) ts
          | none, none, none => some (a, ts)

/-- A literal, parameter, column, call, cast, operand with a sign or expression in
parentheses; a negation takes all operators stronger than itself. -/
def operand? : Nat → Reader Written
  | 0, _ => none
  | fuel + 1, ts =>
    match reference? ts with
    | some r =>
      match quotedName? .operand ts with
      | some ((function, _), ⟨.symbol "(", _, _⟩ :: ts) =>
        (arguments? fuel ts).map fun a => (call function a.1, a.2)
      | _ => some r
    | none =>
      match ts with
      | ⟨.number n, _, _⟩ :: ts => some (.number n, ts)
      | ⟨.bits n, _, _⟩ :: ts => some (.literal (.integer n.toInt64), ts)
      | ⟨.text s, _, _⟩ :: ts => some (.literal (.text (Text.encodeUtf8 s)), ts)
      | ⟨.param index, _, _⟩ :: ts => some (.param index, ts)
      | ⟨.symbol "-", _, _⟩ :: ts => (operand? fuel ts).map fun r => (.negate (unplussed r.1), r.2)
      | ⟨.symbol "+", _, _⟩ :: ts => (operand? fuel ts).map fun r => (.plus (unplussed r.1), r.2)
      | ⟨.symbol "(", _, _⟩ :: ts => do
        let (e, ts) ← expr? fuel 0 ts
        let ts ← symbol? ")" ts
        some (e, ts)
      | ts =>
        match keyword? "null" ts, keyword? "not" ts, keyword? "cast" ts with
        | some ts, _, _ => some (.literal .null, ts)
        | _, some ts, _ => (expr? fuel notStrength ts).map fun r => (.not r.1, r.2)
        | _, _, some ts => do
          let ts ← symbol? "(" ts
          let (e, ts) ← expr? fuel 0 ts
          let ts ← keywords? ["as", "text"] ts
          let ts ← symbol? ")" ts
          some (.castText e, ts)
        | none, none, none => none

/-- The arguments of a call, behind its parenthesis; a star stands for none. -/
def arguments? : Nat → Reader (List Written)
  | 0, _ => none
  | fuel + 1, ts =>
    match symbol? ")" ts, symbol? "*" ts with
    | some ts, _ => some ([], ts)
    | none, some ts => (symbol? ")" ts).map ([], ·)
    | none, none => do
      let (list, ts) ← exprs? fuel ts
      let ts ← symbol? ")" ts
      some (list, ts)

def exprs? : Nat → Reader (List Written)
  | 0, _ => none
  | fuel + 1, ts => do
    let (e, ts) ← expr? fuel 0 ts
    match symbol? "," ts with
    | some ts => (exprs? fuel ts).map fun r => (e :: r.1, r.2)
    | none => some ([e], ts)

end

/-- Expressions nest no deeper than this. -/
def maxDepth : Nat := 1000

def wholeExpr? (fuel : Nat) : Reader Written := fun ts =>
  (expr? fuel 0 ts).bind fun r => if r.1.depth ≤ maxDepth then some r else none

end DataAccess.Database.Parser
