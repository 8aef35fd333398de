import DataAccess.Engine
import DataAccess.Proofs.Record.RoundTrip

/-!
Rows that are read and written back. A row keeps of each name what its last column holds, as JSON;
its fields are then written as the columns of a record. On the way nothing is lost but nulls and
floats that are not finite, whole numbers and floats are not mixed up, and bytes turn into the text of
a list of numbers.
-/
namespace DataAccess

/-- What is written for a column that was read with this value; none if it is left out. -/
def Value.writtenBack? : Value → Option Value
  | .null => none
  | .integer n => some (.integer n)
  | .real x => if x.isFinite then some (.real x) else none
  | .text s => some (.text s)
  | .blob bytes =>
    some (.text ("[" ++ String.intercalate "," (bytes.map fun b => toString b.toNat) ++ "]"))

theorem Value.exists_writtenBack?_iff {v : Value} : (∃ w, v.writtenBack? = some w) ↔
    v ≠ .null ∧ ∀ x, v = .real x → x.isFinite = true := by
  cases v <;> simp [writtenBack?]

namespace Json

theorem itemsText_eq (items : List Json) :
    itemsText items = String.intercalate "," (items.map toText) := by
  induction items with
  | nil => rfl
  | cons a rest ih =>
    cases rest with
    | nil => rw [itemsText, List.map_singleton, String.intercalate_singleton]
    | cons b rest =>
      rw [itemsText, ih, List.map_cons, List.map_cons, List.map_cons, String.intercalate_cons_cons]
      rintro ⟨⟩

theorem toText_bytes (bytes : List UInt8) :
    (Json.array (bytes.map fun b => .integer b.toNat)).toText =
      "[" ++ String.intercalate "," (bytes.map fun b => toString b.toNat) ++ "]" := by
  rw [toText, itemsText_eq, List.map_map]
  rfl

/-- A column that is not null comes back from its JSON, unless it has none. -/
theorem toValue?_ofValue (v : Value) : (ofValue v).toValue? = v.writtenBack? := by
  cases v with
  | null => rfl
  | integer n => rw [ofValue, toValue?, toInt64?_toInt, Value.writtenBack?]
  | real x =>
    rw [ofValue, Value.writtenBack?]
    split_ifs <;> rfl
  | text s => rfl
  | blob bytes => rw [ofValue, toValue?, toText_bytes, Value.writtenBack?]

end Json

def ResultRow.IsLast (columns : ResultRow) (name : String) (v : Value) : Prop :=
  ∃ before after, columns = before ++ (name, v) :: after ∧ name ∉ after.map Prod.fst

theorem ResultRow.isLast_iff {columns : ResultRow} {name : String} {v : Value} :
    columns.IsLast name v ↔ Keyed.get? columns.reverse name = some v := by
  unfold Keyed.get? IsLast
  rw [List.lookup_eq_some_iff]
  constructor
  · rintro ⟨before, after, rfl, hafter⟩
    refine ⟨after.reverse, before.reverse, by simp, fun e he => bne_iff_ne.2 ?_⟩
    rintro rfl
    exact hafter (List.mem_map_of_mem (List.mem_reverse.1 he))
  · rintro ⟨after, before, h, hafter⟩
    refine ⟨before.reverse, after.reverse, ?_, fun hmem => ?_⟩
    · rw [← List.reverse_reverse columns, h]
      simp
    · obtain ⟨e, he, rfl⟩ := List.mem_map.1 hmem
      exact bne_iff_ne.1 (hafter e (List.mem_reverse.1 he)) rfl

namespace Row

theorem get?_ofColumns (columns : ResultRow) (name : String) :
    (ofColumns columns).get? name = (Keyed.get? columns.reverse name).map Json.ofValue := by
  rw [ofColumns, Keyed.get?_ofList, ← List.map_reverse, Keyed.get?_map]

theorem ascending_ofColumns (columns : ResultRow) : (ofColumns columns).Ascending :=
  Keyed.ascending_ofList _

theorem ascending_toColumns {row : Row} (h : row.Ascending) : Keyed.Ascending row.toColumns := by
  refine List.Pairwise.filterMap _ ?_ h
  rintro e e' hlt c hc c' hc'
  obtain ⟨v, -, rfl⟩ := Option.map_eq_some_iff.1 hc
  obtain ⟨v', -, rfl⟩ := Option.map_eq_some_iff.1 hc'
  exact hlt

theorem mem_toColumns_iff {columns : ResultRow} {name : String} {v : Value} :
    (name, v) ∈ (ofColumns columns).toColumns ↔
      ∃ read, columns.IsLast name read ∧ read.writtenBack? = some v := by
  have hrow := ascending_ofColumns columns
  rw [← (ascending_toColumns hrow).get?_eq_some_iff, get?_toColumns hrow, get?_ofColumns,
    Option.bind_map, Option.bind_eq_some_iff]
  simp only [ResultRow.isLast_iff, Function.comp_apply, Json.toValue?_ofValue]

/-- A row that was read is written back without loss. Its columns are in strictly ascending order of
names, one for each name whose last value is neither null nor a float that is not finite; and that
value is written as it was read, where bytes become the text of a list of numbers. -/
theorem toColumns_ofColumns (columns : ResultRow) :
    ∃ written, (Json.object (ofColumns columns)).toColumns = .ok written ∧
      (written.map Prod.fst).Pairwise (· < ·) ∧
      (∀ name, name ∈ written.map Prod.fst ↔ ∃ read, columns.IsLast name read ∧
        read ≠ .null ∧ ∀ x, read = .real x → x.isFinite = true) ∧
      ∀ name v, (name, v) ∈ written ↔
        ∃ read, columns.IsLast name read ∧ read.writtenBack? = some v := by
  refine ⟨_, rfl, List.pairwise_map.2 (ascending_toColumns (ascending_ofColumns columns)),
    fun name => ?_, fun name v => mem_toColumns_iff⟩
  simp only [← Value.exists_writtenBack?_iff, List.mem_map, Prod.exists, mem_toColumns_iff]
  constructor
  · rintro ⟨_, v, ⟨read, hlast, hv⟩, rfl⟩
    exact ⟨read, hlast, v, hv⟩
  · rintro ⟨read, hlast, v, hv⟩
    exact ⟨name, v, ⟨read, hlast, hv⟩, rfl⟩

/-- The first of two columns with one name is dropped, and zero keeps its sign. -/
example : (ofColumns [("b", .integer 1), ("a", .blob [0, 255]), ("b", .real (-0.0)),
    ("c", .null)]).toColumns = [("a", .text "[0,255]"), ("b", .real (-0.0))] := rfl

end Row

end DataAccess
