import DataAccess.Value

/-!
Filter conditions. A condition compares a field with its operand, a condition set joins
conditions and nested sets by one connective, and an order term names a column and a
direction. Building them never fails: whether an operand fits its comparator is decided when
a set is written as a where clause.
-/
namespace DataAccess.Sql

inductive Comparator where
  | eq | ne | gt | ge | lt | le
  | like | notLike
  | isIn | notIn
  | isNull | isNotNull
  | between
  /-- The field is a fragment of SQL with placeholders of its own. -/
  | raw
deriving DecidableEq, Repr

def Comparator.name : Comparator → String
  | .eq => "Eq" | .ne => "Ne" | .gt => "Gt" | .ge => "Ge" | .lt => "Lt" | .le => "Le"
  | .like => "Like" | .notLike => "NotLike"
  | .isIn => "In" | .notIn => "NotIn"
  | .isNull => "IsNull" | .isNotNull => "IsNotNull"
  | .between => "Between"
  | .raw => "Raw"

/-- The operator between a field and a single value. -/
def Comparator.operator? : Comparator → Option String
  | .eq => some "="
  | .ne => some "<>"
  | .gt => some ">"
  | .ge => some ">="
  | .lt => some "<"
  | .le => some "<="
  | .like => some "like"
  | .notLike => some "not like"
  | _ => none

inductive Operand where
  | none
  | single (v : Value)
  | sequence (vs : List Value)

/-- The values of an operand in binding order. -/
def Operand.values : Operand → List Value
  | .none => []
  | .single v => [v]
  | .sequence vs => vs

structure Condition where
  field : String
  comparator : Comparator
  operand : Operand

inductive Connective where
  | and | or
deriving DecidableEq, Repr

/-- The members of a condition set in order: conditions, and groups with a connective of
their own. -/
inductive Members where
  | nil
  | condition (c : Condition) (rest : Members)
  | group (connective : Connective) (inner rest : Members)

namespace Members

def append : Members → Members → Members
  | .nil, ms => ms
  | .condition c rest, ms => .condition c (rest.append ms)
  | .group k inner rest, ms => .group k inner (rest.append ms)

/-- The conditions at any depth, in order. -/
def leaves : Members → List Condition
  | .nil => []
  | .condition c rest => c :: rest.leaves
  | .group _ inner rest => inner.leaves ++ rest.leaves

theorem leaves_append (ms ns : Members) : (ms.append ns).leaves = ms.leaves ++ ns.leaves := by
  induction ms with
  | nil => rfl
  | condition c rest ih => simp [append, leaves, ih]
  | group k inner rest _ ih => simp [append, leaves, ih]

def size (ms : Members) : Nat := ms.leaves.length

/-- No condition at any depth. -/
def isEmpty (ms : Members) : Bool := ms.leaves.isEmpty

end Members

structure ConditionSet where
  connective : Connective
  members : Members

namespace ConditionSet

/-- The empty set whose members are joined by `and`. -/
def all : ConditionSet := ⟨.and, .nil⟩

/-- The empty set whose members are joined by `or`. -/
def any : ConditionSet := ⟨.or, .nil⟩

def push (s : ConditionSet) (c : Condition) : ConditionSet :=
  { s with members := s.members.append (.condition c .nil) }

def pushGroup (s group : ConditionSet) : ConditionSet :=
  { s with members := s.members.append (.group group.connective group.members .nil) }

/-- The conditions at any depth, in order. -/
def leaves (s : ConditionSet) : List Condition := s.members.leaves

theorem leaves_push (s : ConditionSet) (c : Condition) : (s.push c).leaves = s.leaves ++ [c] := by
  simp [leaves, push, Members.leaves_append, Members.leaves]

theorem leaves_pushGroup (s group : ConditionSet) :
    (s.pushGroup group).leaves = s.leaves ++ group.leaves := by
  simp [leaves, pushGroup, Members.leaves_append, Members.leaves]

def ofList (cs : List Condition) : ConditionSet := cs.foldl push all

def size (s : ConditionSet) : Nat := s.members.size

def isEmpty (s : ConditionSet) : Bool := s.members.isEmpty

end ConditionSet

inductive Direction where
  | asc | desc
deriving DecidableEq, Repr

structure OrderTerm where
  column : String
  direction : Direction
deriving DecidableEq, Repr

end DataAccess.Sql
