import DataAccess.Config.Basic
import DataAccess.Text.Utf8
import DataAccess.Toml.Reader

/-!
Reading a configuration: a TOML document with a list of sources and perhaps the name of the
default one. Fields that mean nothing are skipped; a document that is malformed or lacks a
setting is unreadable as a whole.
-/
namespace DataAccess

namespace SourceConfig

def ofFields? (fields : Toml.Fields) : Option SourceConfig := do
  return {
    name := ← Toml.required? "name" Toml.Value.text? fields
    path := ← Toml.required? "path" Toml.Value.text? fields
    maxSize? := ← Toml.optional? "max_size" Toml.Value.uint32? fields
    minIdle? := ← Toml.optional? "min_idle" Toml.Value.uint32? fields
    connectionTimeout? :=
      ← Toml.optional? "connection_timeout_ms" Toml.Value.uint64? fields
    busyTimeout? := ← Toml.optional? "busy_timeout_ms" Toml.Value.uint64? fields
    foreignKeys? := ← Toml.optional? "foreign_keys" Toml.Value.bool? fields
    journalMode? := ← Toml.optional? "journal_mode" Toml.Value.text? fields }

/-- All settings in the order of their declaration. -/
def ofItems? : List Toml.Value → Option SourceConfig
  | [name, path, maxSize, minIdle, connectionTimeout, busyTimeout, foreignKeys, journalMode] =>
    do return {
      name := ← name.text?
      path := ← path.text?
      maxSize? := some (← maxSize.uint32?)
      minIdle? := some (← minIdle.uint32?)
      connectionTimeout? := some (← connectionTimeout.uint64?)
      busyTimeout? := some (← busyTimeout.uint64?)
      foreignKeys? := some (← foreignKeys.bool?)
      journalMode? := some (← journalMode.text?) }
  | _ => none

/-- A source is a table, or the list of all its settings. -/
def ofToml? : Toml.Value → Option SourceConfig
  | .table _ fields => ofFields? fields
  | .list items => ofItems? items
  | _ => none

def listOfToml? : Toml.Value → Option (List SourceConfig)
  | .list items => items.mapM ofToml?
  | .tables items => items.mapM ofFields?
  | _ => none

end SourceConfig

namespace Config

def ofFields? (fields : Toml.Fields) : Option Config := do
  return {
    default := ← Toml.optional? "default" Toml.Value.text? fields
    sources := ← Toml.required? "data_sources" SourceConfig.listOfToml? fields }

def ofText (s : String) : Except Error Config := do
  match (Toml.ofText? s).bind ofFields? with
  | none => .error (.config .unreadable)
  | some c =>
    c.validate
    return c

/-- Reads a file by its bytes; none is a missing file. -/
def ofFile : Option (List UInt8) → Except Error Config
  | none => .error (.file .notFound)
  | some bytes =>
    match Text.decodeStrict? bytes with
    | none => .error (.file .notUtf8)
    | some s => ofText s

end Config
end DataAccess
