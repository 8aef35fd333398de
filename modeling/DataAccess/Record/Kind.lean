import DataAccess.Record.Account
import DataAccess.Record.Profile

/-!
The kinds of records that rows are read as: plain rows, accounts and profiles. A record that
has been read is given back as JSON with all its fields.
-/
namespace DataAccess

inductive RecordKind where
  | row | account | profile
deriving DecidableEq, Repr

namespace RecordKind

def name : RecordKind → String
  | .row => "map"
  | .account => "struct Account"
  | .profile => "struct Profile"

def read (k : RecordKind) (row : Row) : Except RowFault Json :=
  match k with
  | .row => .ok (.object row)
  | .account => (Account.ofRow row).map Account.toJson
  | .profile => (Profile.ofRow row).map Profile.toJson

def readJson (k : RecordKind) : Json → Except RowFault Json
  | .object fields => k.read fields
  | j => .error (.wrongType (Record.description j) k.name)

end RecordKind

/-- Reads every row, failing at the first that does not fit. -/
def readRows {α : Type} (read : Row → Except RowFault α) (rows : List Row) :
    Except Error (List α) :=
  (rows.mapM read).mapError .row

end DataAccess
