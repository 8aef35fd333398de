import DataAccess.Proofs.Except
import DataAccess.Proofs.Keyed
import DataAccess.Record.Kind

/-!
Records that are written and read back. A field is written as the value of its JSON and read as the
JSON of that value; a null field is not written, and its column stays null. Whole numbers, finite floats,
texts and absent fields come back as they were. A boolean comes back as a whole number, which no
field for a boolean takes, so a record that has one can be stored but never read.
-/
namespace DataAccess

namespace Row

/-- The row of a table with these columns once the values are stored; a column that is not among
them is null. -/
def stored (names : List String) (columns : Sql.Columns) : Row :=
  .ofColumns (names.map fun name => (name, (columns.lookup name).getD .null))

theorem ascending_stored (names : List String) (columns : Sql.Columns) :
    (stored names columns).Ascending := Keyed.ascending_ofList _

/-- The value of a field is found under its name, unless it is null. -/
theorem get?_toColumns {row : Row} (h : row.Ascending) (name : String) :
    Keyed.get? row.toColumns name = (row.get? name).bind Json.toValue? := by
  induction row with
  | nil => rfl
  | cons e rest ih =>
    obtain ⟨k, j⟩ := e
    obtain ⟨hk, hrest⟩ := Keyed.ascending_cons.1 h
    have hnone : Keyed.get? rest k = none :=
      Keyed.get?_eq_none_iff.2 fun hmem => String.lt_irrefl k (hk k hmem)
    unfold toColumns at ih ⊢
    rw [List.filterMap_cons, Keyed.get?_cons]
    cases hv : j.toValue? with
    | none =>
      dsimp only [Option.map_none]
      rw [ih hrest]
      split_ifs with hname
      · rw [hname, hnone, Option.bind_some, hv]
        rfl
      · rfl
    | some v =>
      dsimp only [Option.map_some]
      rw [Keyed.get?_cons, ih hrest]
      split_ifs
      · rw [Option.bind_some, hv]
      · rfl

end Row

namespace Json

/-- The JSON that is read where a field with this JSON was written. -/
def kept (j : Json) : Json := .ofValue (j.toValue?.getD .null)

theorem toInt64?_toInt (n : Int64) : toInt64? n.toInt = some n := by
  have hrange : Int64.minValue.toInt ≤ n.toInt ∧ n.toInt ≤ Int64.maxValue.toInt :=
    ⟨n.minValue_le_toInt, n.toInt_le⟩
  unfold toInt64?
  rw [if_pos hrange, Int64.ofInt_toInt]

theorem kept_integer (n : Int64) : kept (.integer n.toInt) = .integer n.toInt := by
  rw [kept, toValue?, toInt64?_toInt]
  rfl

theorem kept_real {x : Float} (h : x.isFinite = true) : kept (.real x) = .real x := if_pos h

theorem kept_bool (b : Bool) : kept (.bool b) = .integer (if b then 1 else 0) := by
  cases b <;> rfl

end Json

theorem Row.get?_stored {names : List String} {name : String} (h : name ∈ names)
    (fields : List (String × Json)) :
    (stored names (Row.toColumns (Keyed.ofList fields))).get? name =
      some ((Keyed.get? fields.reverse name).getD .null).kept := by
  have hvalue := get?_toColumns (Keyed.ascending_ofList fields) name
  rw [Keyed.get?_ofList] at hvalue
  unfold stored ofColumns
  rw [Keyed.get?_ofList, List.map_map, ← List.map_reverse]
  refine (Keyed.get?_map_self _ names.reverse name).trans ?_
  rw [if_pos (List.mem_reverse.2 h)]
  show some (Json.ofValue ((Keyed.get? _ name).getD .null)) = _
  rw [hvalue]
  cases Keyed.get? fields.reverse name <;> rfl

namespace Record

variable {α : Type} {row : Row} {name : String} {read : Json → Except RowFault α} {a : α}

def Reads (row : Row) (name : String) (read : Json → Except RowFault α) (a : α) : Prop :=
  ∃ j, row.get? name = some j ∧ read j = .ok a

theorem Reads.required (h : Reads row name read a) : required row name read = .ok a := by
  obtain ⟨j, hj, hread⟩ := h
  unfold Record.required
  rw [hj]
  exact hread

theorem Reads.optional {a : Option α} (h : Reads row name (readOptional read) a) :
    optional row name read = .ok a := by
  obtain ⟨j, hj, hread⟩ := h
  unfold Record.optional
  rw [hj]
  exact hread

theorem Reads.checked (h : Reads row name read a) :
    ∀ j, row.get? name = some j → checkOf read j = .ok () := by
  intro j hj
  obtain ⟨j', hj', hread⟩ := h
  rw [hj'] at hj
  cases hj
  unfold checkOf
  rw [hread]
  rfl

/-- A row whose known fields all pass their checks is let through. -/
theorem checkFields_ok {checks : List (String × Check)} (hrow : row.Ascending)
    (h : ∀ e ∈ checks, ∀ j, row.get? e.1 = some j → e.2 j = .ok ()) :
    checkFields checks row = .ok () := by
  have step (part : Row) (hpart : ∀ e ∈ part, row.get? e.1 = some e.2) :
      checkFields checks part = .ok () := by
    induction part with
    | nil => rfl
    | cons e rest ih =>
      have hrest := ih fun e' he' => hpart e' (List.mem_cons_of_mem _ he')
      unfold checkFields
      cases hc : checks.lookup e.1 with
      | none => exact hrest
      | some check =>
        have hcheck : check e.2 = .ok () :=
          h _ (Keyed.mem_of_get?_eq_some hc) _ (hpart e List.mem_cons_self)
        dsimp only
        rw [hcheck]
        exact hrest
  exact step row fun e he => hrow.get?_of_mem he

/-- Of a row whose first known field does not pass its check, that field is reported. -/
theorem checkFields_first {checks : List (String × Check)} {check : Check} {j : Json}
    {fault : RowFault} (hrow : row.Ascending) (hfirst : ∀ e ∈ checks, ¬ e.1 < name)
    (hcheck : checks.lookup name = some check) (hj : row.get? name = some j)
    (hfault : check j = .error fault) : checkFields checks row = .error fault := by
  induction row with
  | nil => cases hj
  | cons e rest ih =>
    obtain ⟨k, j'⟩ := e
    obtain ⟨hk, hrest⟩ := Keyed.ascending_cons.1 hrow
    rw [Keyed.get?_cons] at hj
    unfold checkFields
    split_ifs at hj with hname
    · cases hj
      rw [← hname, hcheck]
      dsimp only
      rw [hfault]
      rfl
    · have hunknown : checks.lookup k = none := by
        by_contra hc
        obtain ⟨check', hc⟩ := Option.ne_none_iff_exists'.1 hc
        refine hfirst _ (Keyed.mem_of_get?_eq_some hc) (hk name ?_)
        by_contra hmem
        rw [Keyed.get?_eq_none_iff.2 hmem] at hj
        cases hj
      rw [hunknown]
      exact ih hrest hj

theorem readInteger_kept (n : Int64) : readInteger (Json.integer n.toInt).kept = .ok n := by
  rw [Json.kept_integer, readInteger, Json.toInt64?_toInt]

theorem readOptional_integer_kept (n : Option Int64) :
    readOptional readInteger (Json.ofValue (toValue n)).kept = .ok n := by
  cases n with
  | none => rfl
  | some n =>
    show readOptional readInteger (Json.integer n.toInt).kept = _
    have hread := readInteger_kept n
    rw [Json.kept_integer] at hread ⊢
    rw [readOptional, hread]
    · rfl
    · rintro ⟨⟩

theorem readOptional_text_kept (text : Option String) :
    readOptional readText (Json.ofValue (toValue text)).kept = .ok text := by
  cases text <;> rfl

theorem readReal_kept {x : Float} (h : x.isFinite = true) :
    readReal (Json.ofValue (toValue x)).kept = .ok x := by
  have hvalue : Json.ofValue (toValue x) = .real x := if_pos h
  rw [hvalue, Json.kept_real h]
  rfl

end Record

open Record

namespace Account

def names : List String := checks.map Prod.fst

theorem ofRow_of_reads {row : Row} (hrow : row.Ascending) {a : Account}
    (hid : Reads row "id" (readOptional readInteger) a.id) (howner : Reads row "owner" readText a.owner)
    (hbalance : Reads row "balance" readInteger a.balance) : ofRow row = .ok a := by
  have hchecks : checkFields checks row = .ok () := by
    apply checkFields_ok hrow
    simp only [checks, List.forall_mem_cons]
    exact ⟨hid.checked, howner.checked, hbalance.checked, List.forall_mem_nil _⟩
  unfold ofRow
  rw [hchecks, hid.optional, howner.required, hbalance.required]
  rfl

theorem ofRow_stored (a : Account) (others : List String) :
    ∃ columns, a.toJson.toColumns = .ok columns ∧
      ofRow (.stored (names ++ others) columns) = .ok a := by
  have hfield {name : String} (h : name ∈ names) :=
    Row.get?_stored (List.mem_append_left others h) [("id", .ofValue (toValue a.id)),
      ("owner", .text a.owner), ("balance", .ofValue (toValue a.balance))]
  refine ⟨_, rfl, ofRow_of_reads (Row.ascending_stored _ _) ?_ ?_ ?_⟩
  · exact ⟨_, hfield (by decide), readOptional_integer_kept a.id⟩
  · exact ⟨_, hfield (by decide), rfl⟩
  · exact ⟨_, hfield (by decide), readInteger_kept a.balance⟩

end Account

namespace Profile

def names : List String := checks.map Prod.fst

theorem ofRow_of_reads {row : Row} (hrow : row.Ascending) {p : Profile}
    (hid : Reads row "id" (readOptional readInteger) p.id)
    (hname : Reads row "display_name" readText p.displayName)
    (hbalance : Reads row "balance" readReal p.balance) (hactive : Reads row "active" readBool p.active)
    (hnickname : Reads row "nickname" (readOptional readText) p.nickname) : ofRow row = .ok p := by
  have hchecks : checkFields checks row = .ok () := by
    apply checkFields_ok hrow
    simp only [checks, List.forall_mem_cons]
    exact ⟨hid.checked, hname.checked, hbalance.checked, hactive.checked, hnickname.checked,
      List.forall_mem_nil _⟩
  unfold ofRow
  rw [hchecks, hid.optional, hname.required, hbalance.required, hactive.required, hnickname.optional]
  rfl

def fields (p : Profile) : List (String × Json) :=
  [("id", .ofValue (toValue p.id)), ("display_name", .text p.displayName),
    ("balance", .ofValue (toValue p.balance)), ("active", .bool p.active),
    ("nickname", .ofValue (toValue p.nickname))]

def stored (p : Profile) (others : List String) : Row :=
  .stored (names ++ others) (Row.toColumns (Keyed.ofList p.fields))

theorem ascending_stored (p : Profile) (others : List String) : (p.stored others).Ascending :=
  Row.ascending_stored _ _

/-- What a column holds of a profile that is stored. -/
theorem get?_stored (p : Profile) (others : List String) {name : String} (h : name ∈ names) :
    (p.stored others).get? name = some ((Keyed.get? p.fields.reverse name).getD .null).kept :=
  Row.get?_stored (List.mem_append_left others h) p.fields

/-- The boolean is the first field in order of names, so it is what is reported. -/
theorem ofRow_of_integer {row : Row} (hrow : row.Ascending) {n : Int}
    (hactive : row.get? "active" = some (.integer n)) :
    ofRow row = .error (.wrongType (description (.integer n)) "a boolean") := by
  have hchecks : checkFields checks row =
      .error (.wrongType (description (.integer n)) "a boolean") :=
    checkFields_first hrow (by decide) rfl hactive rfl
  unfold ofRow
  rw [hchecks]
  rfl

theorem ofRow_stored (p : Profile) (others : List String) :
    ofRow (p.stored others) =
      .error (.wrongType (description (.integer (if p.active then 1 else 0))) "a boolean") := by
  apply ofRow_of_integer (p.ascending_stored others)
  rw [p.get?_stored others (by decide), ← Json.kept_bool]
  rfl

/-- With the boolean in place everything else is read as it was written. -/
theorem ofRow_insert_active {p : Profile} (h : p.balance.isFinite = true) (others : List String) :
    ofRow ((p.stored others).insert "active" (.bool p.active)) = .ok p := by
  have hfield {name : String} (h : name ∈ names) (hne : name ≠ "active") :
      ((p.stored others).insert "active" (.bool p.active)).get? name =
        some ((Keyed.get? p.fields.reverse name).getD .null).kept := by
    rw [Keyed.get?_insert, if_neg hne, p.get?_stored others h]
  refine ofRow_of_reads ((p.ascending_stored others).insert _ _) ?_ ?_ ?_ ?_ ?_
  · exact ⟨_, hfield (by decide) (by decide), readOptional_integer_kept p.id⟩
  · exact ⟨_, hfield (by decide) (by decide), rfl⟩
  · exact ⟨_, hfield (by decide) (by decide), readReal_kept h⟩
  · exact ⟨.bool p.active, by rw [Keyed.get?_insert, if_pos rfl], rfl⟩
  · exact ⟨_, hfield (by decide) (by decide), readOptional_text_kept p.nickname⟩

end Profile

namespace Record

/-- An account that is stored is read back as it was, whatever it holds and whatever else the table has
columns for. A profile that is stored can never be read: its boolean comes back as a whole number
and is refused. With a boolean in its place the profile would be read as it was, so nothing else is
lost. -/
theorem account_survives_profile_refused (others : List String) :
    (∀ a : Account, ∃ columns, a.toJson.toColumns = .ok columns ∧
      Account.ofRow (.stored (Account.names ++ others) columns) = .ok a) ∧
    ∀ p : Profile, ∃ columns, p.toJson.toColumns = .ok columns ∧
      Profile.ofRow (.stored (Profile.names ++ others) columns) =
        .error (.wrongType (description (.integer (if p.active then 1 else 0))) "a boolean") ∧
      (p.balance.isFinite = true → Profile.ofRow ((Row.stored (Profile.names ++ others) columns).insert
        "active" (.bool p.active)) = .ok p) := by
  refine ⟨fun a => a.ofRow_stored others, fun p => ⟨_, rfl, p.ofRow_stored others, fun h => ?_⟩⟩
  exact Profile.ofRow_insert_active h others

def ann : Profile := ⟨none, "ann", 12.5, true, none⟩

theorem ofRow_stored_ann : ann.balance.isFinite = true ∧ ∃ columns,
    ann.toJson.toColumns = .ok columns ∧ Profile.ofRow (.stored Profile.names columns) ≠ .ok ann := by
  refine ⟨by decide, _, rfl, ?_⟩
  have hrefused := ann.ofRow_stored []
  unfold Profile.stored at hrefused
  rw [List.append_nil] at hrefused
  intro hok
  cases hrefused.symm.trans hok

end Record

end DataAccess
