import DataAccess.Registry
import DataAccess.Session.Level

/-!
Transactions across data sources. A transaction holds one connection of every source. It
begins on the sources in order of their names and, where one fails, is undone on those
before; it ends on all of them whatever fails, and the first failure is its result.
-/
namespace DataAccess

structure Transaction where
  level : Level
  /-- The number of the connection held at each source. -/
  links : Keyed Nat

variable {Fault Store Link : Type}

namespace Source

/-- Takes a connection and begins on it; a connection on which that fails goes back. -/
def begin [Reportable Fault] (E : Engine Fault Store Link) (level : Level)
    (s : Source Store Link) : Except Error Nat × Source Store Link :=
  match s.pool.checkout? with
  | none => (.error .pool, s)
  | some (n, p) =>
    match p.use n (level.begin E) with
    | (.ok (), p) => (.ok n, { s with pool := p })
    | (.error e, p) => (.error (.ofFault e), { s with pool := p.release n })

/-- Ends the transaction on a connection and puts it back. -/
def finish (E : Engine Fault Store Link) (o : Outcome) (level : Level) (n : Nat)
    (s : Source Store Link) : Except Fault Unit × Source Store Link :=
  let (result, p) := s.pool.use n (o.finish E level)
  (result, { s with pool := p.release n })

end Source

namespace Transaction

/-- Begins on each source in turn. Where one fails, those before it are rolled back. -/
def beginAll [Reportable Fault] (E : Engine Fault Store Link) (level : Level) :
    Keyed (Source Store Link) → Except Error (Keyed Nat) × Keyed (Source Store Link)
  | [] => (.ok [], [])
  | (name, s) :: rest =>
    match s.begin E level with
    | (.error e, s) => (.error e, (name, s) :: rest)
    | (.ok n, s) =>
      match beginAll E level rest with
      | (.ok links, rest) => (.ok ((name, n) :: links), (name, s) :: rest)
      | (.error e, rest) => (.error e, (name, (s.finish E .rollback level n).2) :: rest)

def begin [Reportable Fault] (E : Engine Fault Store Link) (level : Level)
    (r : Registry Store Link) : Except Error Transaction × Registry Store Link :=
  let (result, sources) := beginAll E level r.sources
  (result.map (⟨level, ·⟩), { r with sources := sources })

/-- Ends the transaction on each source in turn, also after failures. -/
def finishAll (E : Engine Fault Store Link) (o : Outcome) (t : Transaction) :
    Keyed (Source Store Link) → Except Fault Unit × Keyed (Source Store Link)
  | [] => (.ok (), [])
  | (name, s) :: rest =>
    let (first, s) :=
      match t.links.get? name with
      | some n => s.finish E o t.level n
      | none => (.ok (), s)
    let (later, rest) := finishAll E o t rest
    (match first with | .error e => .error e | .ok () => later, (name, s) :: rest)

/-- Ends the transaction and puts all its connections back. -/
def finish [Reportable Fault] (E : Engine Fault Store Link) (o : Outcome) (t : Transaction)
    (r : Registry Store Link) : Except Error Unit × Registry Store Link :=
  let (result, sources) := t.finishAll E o r.sources
  (result.mapError .ofFault, { r with sources := sources })

end Transaction
end DataAccess
