import DataAccess.Sql.Condition

/-!
Failures and their messages. A failure is recorded by its cause; the wording of all of them
is here. Failures that an application raises itself carry a text of its own.
-/
namespace DataAccess

/-- Why an operand does not fit its comparator. -/
inductive ConditionFault where
  | emptySequence (field : String)
  | noSequence (field : String)
  | notTwoValues (field : String)
  | noSingleValue (field : String) (comparator : Sql.Comparator)
  | stated (text : String)
deriving DecidableEq, Repr

def ConditionFault.message : ConditionFault → String
  | .emptySequence field => s!"'{field}' needs at least one value for in"
  | .noSequence field => s!"'{field}' needs a sequence of values for in"
  | .notTwoValues field => s!"'{field}' needs exactly two values for between"
  | .noSingleValue field comparator => s!"'{field}' needs a single value for {comparator.name}"
  | .stated text => text

inductive TransactionFault where
  | connectionsInUse
  | stated (text : String)
deriving DecidableEq, Repr

def TransactionFault.message : TransactionFault → String
  | .connectionsInUse => "transaction connections are still in use"
  | .stated text => text

inductive PageFault where
  | sizeZero
  | stated (text : String)
deriving DecidableEq, Repr

def PageFault.message : PageFault → String
  | .sizeZero => "page size must be at least 1"
  | .stated text => text

/-- Why a record has no columns, or a row no count. -/
inductive MappingFault where
  | nothingToInsert (table : String)
  | nothingToUpdate (table : String)
  | notAnObject (kind : String)
  | notARowCount (column text : String)
  | stated (text : String)
deriving DecidableEq, Repr

def MappingFault.message : MappingFault → String
  | .nothingToInsert table => s!"nothing to insert into {table}: the record has no non-null fields"
  | .nothingToUpdate table => s!"nothing to update in {table}: the record has no non-null fields"
  | .notAnObject kind =>
    s!"a record must serialize to an object with named fields, got {kind}"
  | .notARowCount column text => s!"count column '{column}' is not a row count: {text}"
  | .stated text => text

inductive ConfigFault where
  /-- The text is malformed or does not fit the settings. -/
  | unreadable
  | blankName
  | zeroMaxSize (name : String)
  | idleAboveMax (name : String) (minIdle maxSize : Nat)
  | unsupportedJournalMode (name mode : String)
  | noSource
  | defaultUnnamed
  | defaultNotConfigured (name : String)
  | registeredTwice (name : String)
  | defaultNotRegistered (name : String)
  | stated (text : String)
deriving DecidableEq, Repr

def ConfigFault.message : ConfigFault → String
  | .unreadable => "<toml>"
  | .blankName => "data source name must not be empty"
  | .zeroMaxSize name => s!"data source '{name}': max_size must be at least 1"
  | .idleAboveMax name minIdle maxSize =>
    s!"data source '{name}': min_idle ({minIdle}) exceeds max_size ({maxSize})"
  | .unsupportedJournalMode name mode =>
    s!"data source '{name}': unsupported journal_mode '{mode}'"
  | .noSource => "at least one data source is required"
  | .defaultUnnamed => "a default data source must be named when several are configured"
  | .defaultNotConfigured name => s!"default data source '{name}' is not configured"
  | .registeredTwice name => s!"data source '{name}' registered twice"
  | .defaultNotRegistered name => s!"default data source '{name}' is not registered"
  | .stated text => text

/-- Failures that a database reports, or that a caller makes of its answers. -/
inductive DatabaseFault where
  /-- The statement does not parse, or names something that does not exist. -/
  | rejected
  | noSuchTable (name : String)
  /-- The text has no statement to run. -/
  | noStatement
  | wrongParameterCount (supplied needed : Nat)
  | locked
  | full
  | notNull (table column : String)
  | unique (table column : String)
  | foreignKey
  | datatypeMismatch
  | beginInTransaction
  | commitOutsideTransaction
  | rollbackOutsideTransaction
  | executeReturnedRows
  | queryReturnedNoRows
  | notReadOnly
  | stated (text : String)
deriving DecidableEq, Repr

def DatabaseFault.message : DatabaseFault → String
  | .rejected => "statement rejected"
  | .noSuchTable name => s!"no such table: {name}"
  | .noStatement => "not an error"
  | .wrongParameterCount supplied needed =>
    s!"Wrong number of parameters passed to query. Got {supplied}, needed {needed}"
  | .locked => "database is locked"
  | .full => "database or disk is full"
  | .notNull table column => s!"NOT NULL constraint failed: {table}.{column}"
  | .unique table column => s!"UNIQUE constraint failed: {table}.{column}"
  | .foreignKey => "FOREIGN KEY constraint failed"
  | .datatypeMismatch => "datatype mismatch"
  | .beginInTransaction => "cannot start a transaction within a transaction"
  | .commitOutsideTransaction => "cannot commit - no transaction is active"
  | .rollbackOutsideTransaction => "cannot rollback - no transaction is active"
  | .executeReturnedRows => "Execute returned results - did you mean to call query?"
  | .queryReturnedNoRows => "Query returned no rows"
  | .notReadOnly => "Query is not read-only"
  | .stated text => text

/-- Why a row does not fit a record, or a record cannot be written; `got` and `wanted` are
descriptions. -/
inductive RowFault where
  | wrongType (got wanted : String)
  | outOfRange (got wanted : String)
  | missingField (name : String)
  | stated (text : String)
deriving DecidableEq, Repr

def RowFault.message : RowFault → String
  | .wrongType got wanted => s!"invalid type: {got}, expected {wanted}"
  | .outOfRange got wanted => s!"invalid value: {got}, expected {wanted}"
  | .missingField name => s!"missing field \x60{name}\x60"
  | .stated text => text

inductive FileFault where
  | notFound
  | notUtf8
  | stated (text : String)
deriving DecidableEq, Repr

def FileFault.message : FileFault → String
  | .notFound => "No such file or directory (os error 2)"
  | .notUtf8 => "stream did not contain valid UTF-8"
  | .stated text => text

inductive Error where
  | missingParameter (name : String)
  | parameterCountMismatch (placeholders params : Nat)
  | invalidCondition (fault : ConditionFault)
  /-- An update or delete without any condition. -/
  | conditionRequired (operation : String)
  | multipleRows (count : Nat)
  | noActiveTransaction
  | transactionActive
  | transaction (fault : TransactionFault)
  | unknownDataSource (name : String)
  | invalidPage (fault : PageFault)
  | mapping (fault : MappingFault)
  | config (fault : ConfigFault)
  | database (fault : DatabaseFault)
  /-- No connection came free, or none could be opened. -/
  | pool
  | row (fault : RowFault)
  | file (fault : FileFault)
deriving DecidableEq, Repr

namespace Error

def message : Error → String
  | .missingParameter name =>
    s!"Missing parameter: no value supplied for placeholder \x7b{name}\x7d"
  | .parameterCountMismatch placeholders params =>
    s!"Parameter count mismatch: SQL has {placeholders} placeholder(s) but {params} " ++
      "parameter(s) were bound"
  | .invalidCondition fault => s!"Invalid condition: {fault.message}"
  | .conditionRequired operation =>
    s!"Condition required: unconditional {operation} is refused, write the SQL explicitly instead"
  | .multipleRows count =>
    s!"Multiple rows error: expected at most one row but the query returned {count}"
  | .noActiveTransaction => "Transaction error: no transaction in progress"
  | .transactionActive =>
    "Transaction error: a transaction is already in progress for this session"
  | .transaction fault => s!"Transaction error: {fault.message}"
  | .unknownDataSource name => s!"Unknown data source: {name}"
  | .invalidPage fault => s!"Invalid page request: {fault.message}"
  | .mapping fault => s!"Mapping error: {fault.message}"
  | .config fault => s!"Configuration error: {fault.message}"
  | .database fault => s!"Database error: {fault.message}"
  | .pool => "Connection pool error: timed out waiting for connection"
  | .row fault => s!"JSON error: {fault.message}"
  | .file fault => s!"I/O error: {fault.message}"

/-- Raised by the database or by a connection pool. -/
def isDatabaseError : Error → Bool
  | .database _ | .pool => true
  | _ => false

end Error
end DataAccess
