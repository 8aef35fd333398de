import DataAccess.Sql.Bound

/-!
Where clauses. Each condition is written as a fragment with its values in order, members are
joined by their set's connective, and nested sets stand in parentheses. A nested set without
any condition is left out; a set without any condition has no where clause at all.
-/
namespace DataAccess.Sql

/-- A piece of a clause and the values that its placeholders are bound to. -/
structure Fragment where
  text : String
  params : List Value

def Connective.separator : Connective → String
  | .and => " and "
  | .or => " or "

/-- Joins fragments; the values follow the order of the text. -/
def Fragment.join (separator : String) (fs : List Fragment) : Fragment :=
  ⟨String.intercalate separator (fs.map (·.text)), (fs.map (·.params)).flatten⟩

def Fragment.inParentheses (f : Fragment) : Fragment := ⟨"(" ++ f.text ++ ")", f.params⟩

/-- One `?` for each value, in a list. -/
def marks (vs : List Value) : String := String.intercalate ", " (vs.map fun _ => "?")

/-- The written condition. The tests for null ignore their operand. -/
def Condition.fragment (c : Condition) : Except Error Fragment :=
  match c.comparator, c.operand with
  | .isNull, _ => .ok ⟨c.field ++ " is null", []⟩
  | .isNotNull, _ => .ok ⟨c.field ++ " is not null", []⟩
  | .isIn, .sequence vs =>
    if vs.isEmpty then .error (.invalidCondition (.emptySequence c.field))
    else .ok ⟨c.field ++ " in (" ++ marks vs ++ ")", vs⟩
  | .notIn, .sequence vs =>
    if vs.isEmpty then .error (.invalidCondition (.emptySequence c.field))
    else .ok ⟨c.field ++ " not in (" ++ marks vs ++ ")", vs⟩
  | .isIn, _ | .notIn, _ => .error (.invalidCondition (.noSequence c.field))
  | .between, .sequence [low, high] => .ok ⟨c.field ++ " between ? and ?", [low, high]⟩
  | .between, _ => .error (.invalidCondition (.notTwoValues c.field))
  | .raw, operand =>
    if countPlaceholders c.field = operand.values.length then
      .ok ⟨"(" ++ c.field ++ ")", operand.values⟩
    else
      .error (.parameterCountMismatch (countPlaceholders c.field) operand.values.length)
  | comparator, .single v =>
    .ok ⟨c.field ++ " " ++ comparator.operator?.getD "=" ++ " ?", [v]⟩
  | comparator, _ => .error (.invalidCondition (.noSingleValue c.field comparator))

/-- The written members, without the groups that hold no condition. -/
def Members.fragments : Members → Except Error (List Fragment)
  | .nil => .ok []
  | .condition c rest => do
    let f ← c.fragment
    return f :: (← rest.fragments)
  | .group k inner rest =>
    if inner.isEmpty then rest.fragments
    else do
      let f := (Fragment.join k.separator (← inner.fragments)).inParentheses
      return f :: (← rest.fragments)

def ConditionSet.fragment (s : ConditionSet) : Except Error Fragment := do
  return Fragment.join s.connective.separator (← s.members.fragments)

/-- The where clause with its leading blank, or nothing. -/
def ConditionSet.whereClause (s : ConditionSet) : Except Error Fragment := do
  let f ← s.fragment
  return if f.text.isEmpty then f else ⟨" where " ++ f.text, f.params⟩

/-- A statement text followed by the where clause of a set. -/
def bindConditions (start : String) (s : ConditionSet) : Except Error Bound := do
  let f ← s.whereClause
  Bound.make (start ++ f.text) f.params

end DataAccess.Sql
