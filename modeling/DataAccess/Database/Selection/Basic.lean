import DataAccess.Database.Scan.Way

/-!
Selections over the positions of a row: which rows of a relation are kept, how they are grouped,
what is computed of each group, in which order, and how many of the results are given.
-/
namespace DataAccess.Database

structure Selection where
  columns : List ColumnInfo
  /-- What the relation offers for visits, if it is a table. -/
  table : Option TableShape
  outputs : List Term
  filter : Option Term
  groupBy : List Term
  /-- Terms with whether they descend. -/
  order : List (Term × Bool)
  limit : Option Term
  offset : Option Term

namespace Selection

/-- One result for each group. -/
def isAggregate (s : Selection) : Bool := s.outputs.any (·.hasCount) || !s.groupBy.isEmpty

/-- Only groups are ordered by counts. -/
def countsGroups (s : Selection) : Bool := s.isAggregate || s.order.all (!·.1.hasCount)

/-- No more than some number of rows is given. -/
def isLimited (s : Selection) : Bool := s.limit.isSome || s.offset.isSome

def isOrdered (s : Selection) : Bool := !s.order.isEmpty

def positions (s : Selection) : List Nat :=
  (s.outputs ++ s.filter.toList ++ s.groupBy ++ s.order.map (·.1)).flatMap (·.positions)

end Selection
end DataAccess.Database
