import DataAccess.Keyed
import DataAccess.Source
import DataAccess.Text.Quoted

/-!
The registry of data sources: sources by name in ascending order, one of them the default.
-/
namespace DataAccess

structure Registry (Store Link : Type) where
  sources : Keyed (Source Store Link)
  default : String

namespace Registry

variable {Store Link : Type}

/-- Adds sources one after the other, refusing a name that occurred before. -/
def addAll (m : Keyed (Source Store Link)) :
    List (Source Store Link) → Except Error (Keyed (Source Store Link))
  | [] => .ok m
  | s :: rest =>
    if m.contains s.name then .error (.config (.registeredTwice s.name))
    else addAll (m.insert s.name s) rest

/-- The registry of opened sources. A name given twice is reported before a default that is
not among them. -/
def ofSources (default : String) (sources : List (Source Store Link)) :
    Except Error (Registry Store Link) := do
  let m ← addAll [] sources
  if m.contains default then return ⟨m, default⟩
  else .error (.config (.defaultNotRegistered default))

/-- Validates a configuration, opens its sources in order and registers them. -/
def ofConfig (connect : SourceConfig → Except Error (Store × Link)) (c : Config) :
    Except OpenFailure (Registry Store Link) := do
  c.validate.mapError .refused
  let sources ← c.sources.mapM (Source.ofConfig connect)
  let default ← c.defaultName.mapError .refused
  (ofSources default sources).mapError .refused

def get (r : Registry Store Link) (name : String) : Except Error (Source Store Link) :=
  match r.sources.get? name with
  | some s => .ok s
  | none => .error (.unknownDataSource name)

def defaultSource? (r : Registry Store Link) : Option (Source Store Link) :=
  r.sources.get? r.default

def names (r : Registry Store Link) : List String := r.sources.keys

def size (r : Registry Store Link) : Nat := r.sources.length

def isEmpty (r : Registry Store Link) : Bool := r.sources.isEmpty

/-- Replaces the source of a name by one with another pool. -/
def setPool (r : Registry Store Link) (name : String) (p : Pool Store Link) :
    Registry Store Link :=
  { r with sources := r.sources.modify name fun s => { s with pool := p } }

/-- The sources with their numbers of connections and of idle connections. -/
def describe (r : Registry Store Link) : String :=
  let source (e : String × Source Store Link) : String :=
    let size := e.2.pool.size
    let idle := e.2.pool.idle.length
    Text.quoted e.1 ++ ": DataSource \x7b name: " ++ Text.quoted e.2.name ++
      s!", state: State \x7b connections: {size}, idle_connections: {idle} \x7d \x7d"
  "DataSourceRegistry \x7b sources: \x7b" ++ String.intercalate ", " (r.sources.map source) ++
    "\x7d, default: " ++ Text.quoted r.default ++ " \x7d"

end Registry
end DataAccess
