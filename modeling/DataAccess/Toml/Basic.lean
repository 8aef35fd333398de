/-!
Values and tables of TOML text. How a table came to be decides what may still be added to it:
one in braces is closed, one that grew by dotted keys takes further dotted keys, and one that a
longer header implied takes its own header, once. A table keeps its fields in their order, and
a field that is written twice is kept twice; whoever reads the table decides.
-/
namespace DataAccess.Toml

inductive Origin where
  | braces
  | dotted
  /-- By the header of a table within it. -/
  | implied
  | header
deriving DecidableEq, Repr

inductive Value where
  | text (s : String)
  | integer (n : Int)
  | real (x : Float)
  | bool (b : Bool)
  /-- A date, a time or both, as written. -/
  | moment (s : String)
  | list (items : List Value)
  | table (origin : Origin) (fields : List (String × Value))
  /-- The tables of one repeated header; only the last can be added to. -/
  | tables (items : List (List (String × Value)))
deriving Inhabited

abbrev Fields := List (String × Value)

/-- Headers look only at what headers made. -/
def Value.hasHeader : Value → Bool
  | .table .implied _ | .table .header _ | .tables _ => true
  | _ => false

/-- Changes the first field of that key with a value that `owns` accepts, or adds one. -/
def alter? (owns : Value → Bool) (key : String) (f : Option Value → Option Value) :
    Fields → Option Fields
  | [] => (f none).map fun v => [(key, v)]
  | (k, v) :: rest =>
    if k = key ∧ owns v then (f (some v)).map fun v => (k, v) :: rest
    else (alter? owns key f rest).map ((k, v) :: ·)

def addDotted? : List String → Value → Fields → Option Fields
  | [], _, _ => none
  | [key], v, fields => some (fields ++ [(key, v)])
  | key :: more, v, fields =>
    alter? (fun _ => true) key (fun
      | none => (addDotted? more v []).map (.table .dotted)
      | some (.table .dotted inner) => (addDotted? more v inner).map (.table .dotted)
      | some _ => none) fields

/-- Adds the fields under a header to a document. -/
def addSection? : List String → (repeated : Bool) → Fields → Fields → Option Fields
  | [], _, _, _ => none
  | [key], repeated, body, fields =>
    alter? Value.hasHeader key (fun
      | none => some (if repeated then .tables [body] else .table .header body)
      | some (.table .implied inner) =>
        if repeated then none else some (.table .header (inner ++ body))
      | some (.tables items) => if repeated then some (.tables (items ++ [body])) else none
      | some _ => none) fields
  | key :: more, repeated, body, fields =>
    alter? Value.hasHeader key (fun
      | none => (addSection? more repeated body []).map (.table .implied)
      | some (.table origin inner) =>
        (addSection? more repeated body inner).map (.table origin)
      | some (.tables items) =>
        (addSection? more repeated body (items.getLast?.getD [])).map fun last =>
          .tables (items.dropLast ++ [last])
      | some _ => none) fields

/-- What a line of a document says. -/
inductive Line where
  | header (path : List String) (repeated : Bool)
  | field (path : List String) (value : Value)

def ofDotted? (fields : List (List String × Value)) : Option Fields :=
  fields.foldlM (fun table f => addDotted? f.1 f.2 table) []

/-- The fields before the first header, and the headers with the fields below each. -/
def sections : List Line →
    List (List String × Value) × List ((List String × Bool) × List (List String × Value))
  | [] => ([], [])
  | .field path value :: rest => ((path, value) :: (sections rest).1, (sections rest).2)
  | .header path repeated :: rest =>
    ([], ((path, repeated), (sections rest).1) :: (sections rest).2)

def ofLines? (lines : List Line) : Option Fields := do
  let (own, headed) := sections lines
  headed.foldlM (fun document s => do
    addSection? s.1.1 s.1.2 (← ofDotted? s.2) document) (← ofDotted? own)

/-! Reading a table. -/

/-- What a field holds, if the table has it; none if it is there twice or does not fit. -/
def optional? {α : Type} (key : String) (read : Value → Option α) (fields : Fields) :
    Option (Option α) :=
  match fields.filter (·.1 = key) with
  | [] => some none
  | [(_, v)] => (read v).map some
  | _ => none

def required? {α : Type} (key : String) (read : Value → Option α) (fields : Fields) :
    Option α :=
  (optional? key read fields).join

namespace Value

def text? : Value → Option String
  | .text s => some s
  | _ => none

def bool? : Value → Option Bool
  | .bool b => some b
  | _ => none

def natural? (bound : Nat) : Value → Option Nat
  | .integer n => if 0 ≤ n ∧ n < bound then some n.toNat else none
  | _ => none

def uint32? (v : Value) : Option UInt32 := (v.natural? UInt32.size).map UInt32.ofNat

def uint64? (v : Value) : Option UInt64 := (v.natural? UInt64.size).map UInt64.ofNat

end Value
end DataAccess.Toml
