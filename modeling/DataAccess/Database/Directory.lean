import DataAccess.Config.Basic

/-!
Where databases can be. The files of all sources stand in one directory, which has no others
inside.
-/
namespace DataAccess.SourceConfig

/-- The names that lead down to the file of a path, after every step back up has been taken.
Above the directory of the databases there is nothing to go down to again. -/
def route (c : SourceConfig) : List String :=
  (c.path.splitOn "/").foldl (fun names name =>
    if name = "" ∨ name = "." then names
    else if name = ".." then names.dropLast
    else names ++ [name]) []

/-- The longest name of a file, in bytes. A write-ahead log needs a journal to start, whose name
is longer by the word `-journal`. -/
def nameLimit (c : SourceConfig) : Nat := if c.journalMode = "wal" then 247 else 255

/-- Whether the path is that of a file which can be there. -/
def isReachable (c : SourceConfig) : Bool :=
  !c.path.contains '\x00' && (c.path.splitOn "/").all (·.utf8ByteSize ≤ 255) &&
    match c.route with
    | [name] => decide (name.utf8ByteSize ≤ c.nameLimit)
    | _ => false

/-- Whether a connection can be made; a busy timeout is a signed word of 32 bits. -/
def connects (c : SourceConfig) : Bool :=
  (c.isMemory || c.isReachable) && c.busyTimeout < 0x80000000

end DataAccess.SourceConfig
