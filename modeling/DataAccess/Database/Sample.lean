import DataAccess.Database.Table

/-!
A sample schema: accounts, transfers that refer to them, and free-form notes.
-/
namespace DataAccess.Database.Sample

def accounts : Schema where
  name := "accounts"
  key := "id"
  columns := [⟨"owner", .text, true, false, .null⟩, ⟨"balance", .integer, true, false, .integer 0⟩]
  autoincrement := true
  reference := none

def transfers : Schema where
  name := "transfers"
  key := "id"
  columns := [⟨"account_id", .integer, true, false, .null⟩,
    ⟨"amount", .integer, true, false, .null⟩]
  autoincrement := true
  reference := some ("account_id", "accounts")

def notes : Schema where
  name := "notes"
  key := "id"
  columns := [⟨"tag", .text, false, true, .null⟩, ⟨"body", .blob, false, false, .null⟩,
    ⟨"extra", .blob, false, false, .null⟩]
  autoincrement := false
  reference := none

def schemas : List Schema := [accounts, transfers, notes]

end DataAccess.Database.Sample
