import DataAccess.Config.Basic
import DataAccess.Pool

/-!
Data sources: a configuration and the pool opened from it. Opening refuses a configuration
that does not validate, and fails where no connection can be made.
-/
namespace DataAccess

structure Source (Store Link : Type) where
  config : SourceConfig
  pool : Pool Store Link

/-- Demands of the pool itself, which it makes by stopping the program. -/
inductive PoolDemand where
  | positiveSize
  | idleWithinSize
  | positiveTimeout
deriving DecidableEq, Repr

inductive OpenFailure where
  | refused (e : Error)
  | aborted (demand : PoolDemand)
deriving DecidableEq, Repr

/-- The first demand that the settings of a pool do not meet. -/
def SourceConfig.unmetDemand? (c : SourceConfig) : Option PoolDemand :=
  if c.maxSize = 0 then some .positiveSize
  else if c.minIdle?.any (c.maxSize < ·) then some .idleWithinSize
  else if c.connectionTimeout = 0 then some .positiveTimeout
  else none

namespace Source

variable {Store Link : Type}

def name (s : Source Store Link) : String := s.config.name

def checkedOut (s : Source Store Link) : Nat := s.pool.checkedOut

/-- Opens the source with all its connections. `connect` gives the store and a new link, or
says why there is no connection to be had. -/
def ofConfig (connect : SourceConfig → Except Error (Store × Link)) (c : SourceConfig) :
    Except OpenFailure (Source Store Link) :=
  match c.validate with
  | .error e => .error (.refused e)
  | .ok () =>
    match c.unmetDemand? with
    | some demand => .error (.aborted demand)
    | none =>
      match connect c with
      | .ok (store, link) => .ok ⟨c, Pool.fresh c.maxSize.toNat store link⟩
      | .error e => .error (.refused e)

end Source
end DataAccess
