import DataAccess.Database.Scope
import DataAccess.Database.Selection.Fusion
import DataAccess.Database.Selection.Run

/-!
Queries as written: selections stacked on a table, on nothing, or on one another. Preparing a
query finds what its names mean and names the columns of every selection.
-/
namespace DataAccess.Database

inductive Item where
  /-- All columns, perhaps qualified. -/
  | star (qualifier : Option String)
  /-- An expression with its name, if it is given one, and its text. -/
  | expr (e : Written) (name : Option String) (text : String)

structure Select where
  items : List Item
  filter : Option Written
  groupBy : List Written
  /-- Terms with whether they descend. -/
  order : List (Written × Bool)
  limit : Option Written
  offset : Option Written

/-- A table by its name, perhaps with that of its schema, and the name it is given. -/
structure TableRef where
  schema : Option String
  name : String
  given : Option String

/-- What the columns of a table are qualified by. -/
def TableRef.qualifier (t : TableRef) : String := t.given.getD t.name

/-- The innermost selection reads the table; each further one reads the one before it, under
the name that it is given. -/
structure Query where
  table : Option TableRef
  inner : Select
  outer : List (Option String × Select)

structure ResultColumn where
  term : Term
  /-- The name that it has been given. -/
  given : Option String
  /-- The name that it consists of. -/
  reference : Option String
  text : String

namespace ResultColumn

/-- The name in a result: the one given, that of the column as declared, or the text. -/
def shownName (h : Header) (c : ResultColumn) : String :=
  c.given.getD (match c.term with
    | .ref i => ((h.columns[i]?).map (·.name)).getD c.text
    | _ => c.text)

/-- The name for the selection around: the one given, the one written, or the text; a truth
value is no name. -/
def innerName (index : Nat) (c : ResultColumn) : String :=
  let name := c.given.getD (c.reference.getD c.text)
  if (truthWord? name).isSome then s!"column{index + 1}" else name

end ResultColumn

/-- A name without the number that told it apart before. -/
def nameStem (name : String) : String :=
  let reversed := name.toList.reverse
  match reversed.dropWhile Decimal.isDigit with
  | ':' :: stem => String.ofList stem.reverse
  | _ => name

/-- Numbers a name until it is new, from `count` on and at most `fuel` times. -/
def distinctName (taken : List String) : (fuel count : Nat) → String → String
  | 0, _, name => name
  | fuel + 1, count, name =>
    if taken.any (sameName name) then
      distinctName taken fuel (count + 1) (nameStem name ++ ":" ++ toString count)
    else name

/-- Tells equal names apart; the first of them stays as it is. -/
def distinctNames (names : List String) : List String :=
  names.foldl (fun taken name => taken ++ [distinctName taken (taken.length + 1) 1 name]) []

namespace Select

/-- What is wrong with the stars of a selection that reads something known as `qualifier`. -/
def starFault? (source : Bool) (qualifier : Option String) (s : Select) : Option DatabaseFault :=
  s.items.findSome? fun
    | .star none => if source then none else some .rejected
    | .star (some q) => if qualifier.any (sameName q) then none else some (.noSuchTable q)
    | .expr _ _ _ => none

def itemColumns? (h : Header) : Item → Option (List ResultColumn)
  | .star _ =>
    some (h.columns.zipIdx.map fun (c, i) => ⟨.ref i, some c.name, none, c.name⟩)
  | .expr e name text => do
    let reference := match e with
      | .ref n => some n.name
      | _ => none
    return [⟨← e.resolve? h [] true, name, reference, text⟩]

def columns? (h : Header) (s : Select) : Option (List ResultColumn) :=
  (s.items.mapM (itemColumns? h)).map List.flatten

/-- The item at a position that is written as a number; none if there is no such item. -/
def itemAt? (columns : List ResultColumn) (position : Int) : Option Term :=
  if 1 ≤ position then (columns[position.toNat - 1]?).map (·.term) else none

/-- A term to group by: the position of an item, or an expression. -/
def groupTerm? (h : Header) (aliases : Aliases) (columns : List ResultColumn) (e : Written) :
    Option Term := do
  let t ← match e.wholeNumber? with
    | some position => itemAt? columns position
    | none => e.resolve? h aliases false
  if t.hasCount then none else some t

/-- A term to order by: the name of an item, its position, or an expression. -/
def orderTerm? (h : Header) (aliases : Aliases) (columns : List ResultColumn) (e : Written) :
    Option Term :=
  let named : Option Term := match e with
    | .ref ⟨none, name, _⟩ => (aliases.find? (sameName name ·.1)).map (·.2)
    | _ => none
  named.or (match e.wholeNumber? with
    | some position => itemAt? columns position
    | none => e.resolve? h aliases true)

/-- Finds what the names of a selection mean. The one row that comes of nothing needs no
order. -/
def resolve? (h : Header) (s : Select) : Option (Selection × List ResultColumn) := do
  let columns ← s.columns? h
  let aliases : Aliases := columns.filterMap fun c => c.given.map (·, c.term)
  let filter ← s.filter.mapM (·.resolve? h aliases false)
  let groupBy ← s.groupBy.mapM (groupTerm? h aliases columns)
  let order ← s.order.mapM fun (t : Written × Bool) => do
    return (← orderTerm? h aliases columns t.1, t.2)
  let limit ← s.limit.mapM (·.resolve? .none [] false)
  let offset ← s.offset.mapM (·.resolve? .none [] false)
  let order := if h.columns.isEmpty then [] else order
  return (⟨h.columns, h.table, columns.map (·.term), filter, groupBy, order, limit, offset⟩, columns)

end Select

/-- A query whose names have been replaced. -/
structure PreparedQuery where
  table : Option String
  /-- The selections over one another, the outermost first. -/
  selections : List Selection
  names : List String

/-- The columns of a selection, as the selection around it sees them. -/
def innerHeader (h : Header) (qualifier : Option String) (columns : List ResultColumn) : Header :=
  let names := distinctNames (columns.zipIdx.map fun c => c.1.innerName c.2)
  ⟨qualifier, (names.zip columns).map fun c => ⟨c.1, c.2.term.affinity? h.columns⟩, none⟩

namespace Query

/-- What is wrong with the stars of a query, from the inside out. -/
def starFault? (q : Query) : Option DatabaseFault :=
  (q.inner.starFault? q.table.isSome (q.table.map (·.qualifier))).or
    (q.outer.findSome? fun s => s.2.starFault? true s.1)

/-- Finds what the names of selections mean that stand in those to come, the innermost first;
`inner` are the selections inside, and `h` are their columns or those of the table. An order by
a count without groups is refused if it is still there after the selections have been fused. -/
def resolveAll? (h : Header) (inner : List Selection) (s : Select) :
    List (Option String × Select) → Option (List Selection × List String)
  | [] => do
    let (selection, columns) ← s.resolve? h
    let fused := selection.fuse inner
    guard (fused.all (·.countsGroups))
    return (fused, columns.map (·.shownName h))
  | (qualifier, next) :: rest => do
    let (selection, columns) ← s.resolve? h
    resolveAll? (innerHeader h qualifier columns) (selection :: inner) next rest

/-- Finds what the names of a query mean; `h` are the columns of its table. -/
def prepare (q : Query) (h : Header) : Except DatabaseFault PreparedQuery :=
  match q.starFault? with
  | some fault => .error fault
  | none =>
    match resolveAll? h [] q.inner q.outer with
    | none => .error .rejected
    | some (selections, names) => .ok ⟨q.table.map (·.name), selections, names⟩

end Query

/-- The rows of a query over the rows of its table. -/
def PreparedQuery.run (q : PreparedQuery) (params : List Cell) (rows : List (List Cell)) :
    Except DatabaseFault (List (List Cell)) :=
  Selection.runAll params rows q.selections

end DataAccess.Database
