import DataAccess.Database.Selection.Basic

/-!
Selections over one another. A selection that only computes something of each row is fused with
the one around it into one selection over the same relation, and an order that nothing shows is
dropped.
-/
namespace DataAccess.Database.Selection

/-- What a term over the results of a selection is over the rows of its relation. A truth value
that has been computed is a number. -/
def substitute? (inner : Selection) (t : Term) : Option Term :=
  t.bind? fun i => (inner.outputs[i]?).map fun
    | .truth b => .literal (.ofBool? (some b))
    | output => output

/-- Both of two conditions that may be absent. -/
def bothOf : Option Term → Option Term → Option Term
  | some a, some b => some (.and a b)
  | some a, none => some a
  | none, b => b

/-- One selection for a selection over another one. -/
def over? (s inner : Selection) : Option Selection := do
  let filter ← s.filter.mapM inner.substitute?
  let order ← s.order.mapM fun (t : Term × Bool) => do return (← inner.substitute? t.1, t.2)
  return { inner with
    outputs := ← s.outputs.mapM inner.substitute?
    filter := bothOf inner.filter filter
    groupBy := ← s.groupBy.mapM inner.substitute?
    order := if s.isOrdered then order else inner.order
    limit := s.limit.or inner.limit
    offset := s.offset }

/-- Whether a selection can be fused with the one around it. The inner one has a relation and
does not group; its order is the only one and does not precede a grouping, and its limit, which
skips no rows, is the last thing to happen. Without an order of its own a limit may keep any
rows, so that it may happen after the order around it. -/
def admits (s inner : Selection) : Bool :=
  !inner.columns.isEmpty && !inner.isAggregate &&
    (!inner.isOrdered || !(s.isOrdered || s.isAggregate)) &&
    (!inner.isLimited || (inner.offset.isNone && s.filter.isNone && !s.isAggregate && !s.isLimited))

/-- Drops the order of a selection that neither groups nor limits, if its results are ordered
again. -/
def withoutIdleOrder (s inner : Selection) : Selection :=
  if s.isOrdered && !inner.isAggregate && !inner.isLimited then { inner with order := [] }
  else inner

/-- Fuses a selection with those inside it, from the outermost on, as far as possible. -/
def fuse (s : Selection) : List Selection → List Selection
  | [] => [s]
  | inner :: rest =>
    let inner := s.withoutIdleOrder inner
    match if s.admits inner then s.over? inner else none with
    | some fused => fuse fused rest
    | none => s :: fuse inner rest

end DataAccess.Database.Selection
