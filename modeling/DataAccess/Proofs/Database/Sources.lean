import DataAccess.Database.Connection
import DataAccess.Database.Sample
import DataAccess.Proofs.Registry

/-!
Sources of sample tables, in memory and in a file.
-/
namespace DataAccess

def SourceConfig.inMemory (name : String) (size : UInt32) : SourceConfig :=
  ⟨name, ":memory:", some size, none, none, none, none, none⟩

theorem SourceConfig.validate_inMemory {name : String} {size : UInt32}
    (hname : (Text.trimBlank name.toList).isEmpty = false) (hsize : size ≠ 0) :
    (inMemory name size).validate = .ok () := by
  have hmode : (inMemory name size).journalMode ∈ journalModes := by
    show "wal".map Char.toLower ∈ journalModes
    decide +kernel
  unfold validate
  rw [if_neg (by simpa [inMemory] using hname), if_neg (by simpa [inMemory, maxSize] using hsize),
    if_neg (by simp [inMemory]), if_neg (not_not_intro hmode)]

namespace Database

def opened (c : SourceConfig) : Source Store Link :=
  let store := Store.empty Sample.schemas
  let link := Link.fresh c.foreignKeys (if c.isMemory then some store else none)
  ⟨c, Pool.fresh c.maxSize.toNat store link⟩

theorem ofConfig_of_connects {c : SourceConfig} (hvalid : c.validate = .ok ())
    (hdemand : c.unmetDemand? = none) (hconnects : c.connects = true) :
    Source.ofConfig (connect Sample.schemas) c = .ok (opened c) :=
  Source.ofConfig_eq_ok_iff.2 ⟨hvalid, hdemand, _, _, if_pos hconnects, rfl⟩

def inMemory (name : String) (size : UInt32) : Source Store Link := opened (.inMemory name size)

theorem ofConfig_inMemory {name : String} {size : UInt32}
    (hname : (Text.trimBlank name.toList).isEmpty = false) (hsize : size ≠ 0) :
    Source.ofConfig (connect Sample.schemas) (.inMemory name size) = .ok (inMemory name size) := by
  have hdemand : (SourceConfig.inMemory name size).unmetDemand? = none := by
    simp [SourceConfig.unmetDemand?, SourceConfig.inMemory, SourceConfig.maxSize, hsize,
      SourceConfig.connectionTimeout]
  have htimeout : (SourceConfig.inMemory name size).busyTimeout < 0x80000000 := by
    show (5000 : UInt64) < 0x80000000
    decide
  have hmemory : (SourceConfig.inMemory name size).isMemory = true := rfl
  exact ofConfig_of_connects (SourceConfig.validate_inMemory hname hsize) hdemand
    (by simp [SourceConfig.connects, htimeout, hmemory])

def pairInMemory : List (Source Store Link) := [inMemory "main" 2, inMemory "aux" 1]

theorem pairInMemory_opened : ∀ s ∈ pairInMemory,
    Source.ofConfig (connect Sample.schemas) s.config = .ok s := by
  intro s hs
  rcases List.mem_pair.1 hs with rfl | rfl
  · exact ofConfig_inMemory (by decide) (by decide)
  · exact ofConfig_inMemory (by decide) (by decide)

theorem exists_registry_of_pair : ∃ r, Registry.ofSources "main" pairInMemory = .ok r :=
  ⟨⟨[("aux", _), ("main", _)], "main"⟩, rfl⟩

/-- Connections to a database in memory share no file. -/
def file (c : SourceConfig) : Option String := if c.isMemory then none else some c.path

theorem isOpened_pair {r : Registry Store Link}
    (hr : Registry.ofSources "main" pairInMemory = .ok r) :
    Registry.IsOpened (connect Sample.schemas) file "main" pairInMemory r where
  opened := pairInMemory_opened
  registered := hr
  files := by
    have hfile : file (inMemory "main" 2).config = none := rfl
    exact .cons (fun _ _ => .inl hfile) (.cons (fun _ hs => absurd hs List.not_mem_nil) .nil)

/-- A source in a file, with two connections to its store. -/
def inFile : Source Store Link := opened ⟨"main", "db", some 2, none, none, none, none, none⟩

theorem ofConfig_inFile : Source.ofConfig (connect Sample.schemas) inFile.config = .ok inFile := by
  have hpath : "db".splitOn "/" = ["db"] := by
    have haux : String.splitOnAux "db" "/" 0 0 0 [] = ["db"] := by
      rw [String.splitOnAux, String.splitOnAux, String.splitOnAux]
      decide +kernel
    exact haux
  have hplain : "db".contains '\x00' = false := by simp
  have hconnects : inFile.config.connects = true := by
    unfold SourceConfig.connects SourceConfig.isReachable SourceConfig.route inFile opened
    dsimp only
    rw [hpath, hplain]
    decide +kernel
  have hvalid : inFile.config.validate = .ok () := by decide +kernel
  exact ofConfig_of_connects hvalid (by decide +kernel) hconnects

theorem exists_registry_of_inFile : ∃ r, Registry.ofSources "main" [inFile] = .ok r :=
  ⟨⟨[("main", _)], "main"⟩, rfl⟩

theorem isOpened_inFile {r : Registry Store Link}
    (hr : Registry.ofSources "main" [inFile] = .ok r) :
    Registry.IsOpened (connect Sample.schemas) file "main" [inFile] r where
  opened s hs := by
    rw [List.mem_singleton.1 hs]
    exact ofConfig_inFile
  registered := hr
  files := .cons (fun _ hs => absurd hs List.not_mem_nil) .nil

end Database

end DataAccess
