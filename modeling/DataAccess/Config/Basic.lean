import DataAccess.Error
import DataAccess.Text.Blank

/-!
Configuration: named data sources with their pool settings, and the name of the default one.
A setting that is not given has a default; validation looks at one source after the other
and then at the default name.
-/
namespace DataAccess

structure SourceConfig where
  name : String
  /-- A database file, or `:memory:` for a private database of each connection. -/
  path : String
  maxSize? : Option UInt32
  minIdle? : Option UInt32
  connectionTimeout? : Option UInt64
  busyTimeout? : Option UInt64
  foreignKeys? : Option Bool
  journalMode? : Option String

namespace SourceConfig

def maxSize (c : SourceConfig) : UInt32 := c.maxSize?.getD 8

/-- In milliseconds. -/
def connectionTimeout (c : SourceConfig) : UInt64 := c.connectionTimeout?.getD 30000

/-- In milliseconds. -/
def busyTimeout (c : SourceConfig) : UInt64 := c.busyTimeout?.getD 5000

def foreignKeys (c : SourceConfig) : Bool := c.foreignKeys?.getD true

/-- In lower case. -/
def journalMode (c : SourceConfig) : String := (c.journalMode?.getD "wal").map Char.toLower

def isMemory (c : SourceConfig) : Bool := c.path = ":memory:"

def journalModes : List String := ["delete", "truncate", "persist", "memory", "wal", "off"]

def validate (c : SourceConfig) : Except Error Unit :=
  if (Text.trimBlank c.name.toList).isEmpty then .error (.config .blankName)
  else if c.maxSize = 0 then .error (.config (.zeroMaxSize c.name))
  else if c.minIdle?.any (c.maxSize < ·) then
    .error (.config (.idleAboveMax c.name (c.minIdle?.getD 0).toNat c.maxSize.toNat))
  else if c.journalMode ∉ journalModes then
    .error (.config (.unsupportedJournalMode c.name c.journalMode))
  else .ok ()

end SourceConfig

structure Config where
  default : Option String
  sources : List SourceConfig

namespace Config

/-- The name given, or that of the only source. -/
def defaultName (c : Config) : Except Error String :=
  match c.default, c.sources with
  | some name, _ => .ok name
  | none, [only] => .ok only.name
  | none, _ => .error (.config .defaultUnnamed)

def validate (c : Config) : Except Error Unit :=
  if c.sources.isEmpty then .error (.config .noSource)
  else do
    c.sources.forM SourceConfig.validate
    let name ← c.defaultName
    if c.sources.any (·.name = name) then .ok ()
    else .error (.config (.defaultNotConfigured name))

end Config
end DataAccess
