import DataAccess.Source

/-!
The settings that a connection reports of itself.
-/
namespace DataAccess

structure Pragmas where
  autocommit : Bool
  busyTimeout : Nat
  foreignKeys : Bool
  journalMode : String
  readUncommitted : Bool
deriving DecidableEq, Repr

/-- The journal mode in force: a database in memory has no journal file. -/
def SourceConfig.effectiveJournalMode (c : SourceConfig) : String :=
  if c.isMemory then (if c.journalMode = "off" then "off" else "memory") else c.journalMode

def Source.pragmas {Fault Store Link : Type} (E : Engine Fault Store Link)
    (s : Source Store Link) (n : Nat) : Pragmas :=
  ⟨E.autocommit (s.pool.link n), s.config.busyTimeout.toNat, s.config.foreignKeys,
    s.config.effectiveJournalMode, E.readUncommitted (s.pool.link n)⟩

end DataAccess
