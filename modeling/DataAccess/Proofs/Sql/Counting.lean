import DataAccess.Proofs.Sql.Layout

/-!
Counting the placeholders of joined texts. A bare placeholder counts on from the largest index in front of
it, and a number is an index as it stands. So behind other text a text needs the larger of two counts: the
one that it has alone, and the one in front of it with its bare placeholders added to that:
`countPlaceholders_append`. A head that no placeholder is in changes nothing, whatever follows it, and
statements that differ in their heads alone are bound alike: `Statement.bind_filtered`.
-/
namespace DataAccess.Sql

open Decimal (isDigit)

def bareIn : List (Char × Bool) → Nat
  | [] => 0
  | (c, live) :: rest =>
    (if live ∧ c = '?' ∧ ∀ m ∈ rest.head?, isDigit m.1 = false then 1 else 0) + bareIn rest

/-- The live question marks of SQL text that no digit follows. -/
def bareCount (sql : String) : Nat := bareIn (scan sql.toList)

theorem numberOf_takeWhile_eq_none {text : List Char} :
    numberOf (text.takeWhile isDigit) = none ↔ ∀ c ∈ text.head?, isDigit c = false := by
  cases text with
  | nil => simp [numberOf]
  | cons c text =>
    by_cases hc : isDigit c = true
    · simp [numberOf, hc]
    · simp [numberOf, hc]

/-- The marks without a number are the live question marks that no digit follows. -/
theorem Region.count_bare (r : Region) (text : List Char) :
    (flaggedMarks (r.scan text)).count (some none) = bareIn (r.scan text) := by
  induction text generalizing r with
  | nil => rfl
  | cons c rest ih =>
    have hhead : (∀ m ∈ ((r.step c rest.head?).1.scan rest).head?, isDigit m.1 = false) ↔
        ∀ d ∈ rest.head?, isDigit d = false := by
      cases rest with
      | nil => simp [scan]
      | cons d rest => simp [scan]
    rw [flaggedMarks_scan_cons, scan, bareIn, List.count_cons, ih, Nat.add_comm]
    simp only [hhead, ← numberOf_takeWhile_eq_none, ← and_assoc]
    congr 1
    by_cases hc : (r.step c rest.head?).2 = true ∧ c = '?'
    · simp [hc]
    · simp [hc]

/-- A text needs, behind one that ends as code, the larger of what it needs alone and of what is needed in
front of it together with its bare placeholders. No comment opens at the join, no digit follows it, and what
is counted behind it fits a machine word. -/
theorem countPlaceholders_append {s t : String} (hcode : Region.code.after s.toList = .code)
    (hparted : Parted s.toList t.toList) (hdigit : ∀ c ∈ t.toList.head?, isDigit c = false)
    (hwords : HasWordIndices t) (hfits : countPlaceholders s + bareCount t < UInt64.size) :
    countPlaceholders (s ++ t) =
      max (countPlaceholders s + bareCount t) (countPlaceholders t) := by
  have hjoins : Joins s.toList t.toList := by
    intro a ha b hb
    exact ⟨hparted a ha b hb, by simp [runsOn, hdigit b hb]⟩
  have hbare : (marksOf t.toList).count (some none) = bareCount t :=
    Region.code.count_bare t.toList
  have hmax : largestIndex (countPlaceholders s) (marksOf t.toList) =
      max (countPlaceholders s + bareCount t) (countPlaceholders t) := by
    rw [largestIndex_eq_max, hbare, ← countPlaceholders_eq_largestIndex hwords]
  have hlt : largestIndex (countPlaceholders s) (marksOf t.toList) < UInt64.size := by
    rw [hmax, countPlaceholders_eq_largestIndex hwords]
    exact max_lt hfits hwords
  rw [countPlaceholders_eq, String.toList_append, marksOf_append hcode hjoins, countFrom_append,
    ← countPlaceholders_eq, countFrom_eq_largestIndex hlt, hmax]

/-- A number in front can be larger than what is counted on from the text behind it. -/
theorem countPlaceholders_append_select :
    Region.code.after "select ?2, '?'".toList = .code ∧ bareCount ", ?, ?1" = 1 ∧
      countPlaceholders ("select ?2, '?'" ++ ", ?, ?1") = 3 := by
  have hcode : Region.code.after "select ?2, '?'".toList = .code := by decide +kernel
  have hparted : Parted "select ?2, '?'".toList ", ?, ?1".toList := by
    intro a _ b hb
    obtain rfl : ',' = b := Option.some.inj hb
    simp [opensComment]
  have hdigit : ∀ c ∈ ", ?, ?1".toList.head?, isDigit c = false := by
    intro c hc
    obtain rfl : ',' = c := Option.some.inj hc
    rfl
  have hs : countPlaceholders "select ?2, '?'" = 2 := by decide +kernel
  have ht : countPlaceholders ", ?, ?1" = 1 := by decide +kernel
  have hbare : bareCount ", ?, ?1" = 1 := by decide +kernel
  have hwords : HasWordIndices ", ?, ?1" := by
    unfold HasWordIndices
    decide +kernel
  have hfits : countPlaceholders "select ?2, '?'" + bareCount ", ?, ?1" < UInt64.size := by
    rw [hs, hbare]
    decide
  refine ⟨hcode, hbare, ?_⟩
  rw [countPlaceholders_append hcode hparted hdigit hwords hfits, hs, ht, hbare]
  rfl

/-- What is counted wraps around behind the largest machine word. -/
example : countPlaceholders "select ?18446744073709551615 ?" = 0 := by decide +kernel

def Bound.IsHeaded (head : String) (b c : Bound) : Prop :=
  c.sql = head ++ b.sql ∧ c.params = b.params

theorem Bound.make_plain {head : String} (h : IsPlain head) (rest : String) (vs : List Value) :
    SameOutcome (IsHeaded head) (make rest vs) (make (head ++ rest) vs) := by
  have hcount := countPlaceholders_plain h rest
  unfold make
  by_cases hvs : countPlaceholders rest = vs.length
  · rw [dif_pos hvs, dif_pos (hcount.trans hvs)]
    exact .ok ⟨rfl, rfl⟩
  · rw [dif_neg hvs, dif_neg (hcount ▸ hvs), hcount]
    exact .error _

/-- A plain head in front of a filtered text changes neither failure nor values. -/
theorem bindConditions_plain {head : String} (h : IsPlain head) (start : String)
    (s : ConditionSet) :
    SameOutcome (Bound.IsHeaded head) (bindConditions start s)
      (bindConditions (head ++ start) s) := by
  unfold bindConditions
  cases s.whereClause with
  | error e => exact .error e
  | ok f =>
    rw [ok_bind, ok_bind, String.append_assoc]
    exact Bound.make_plain h (start ++ f.text) f.params

/-- Selecting without an order, counting and deleting with the same filter fail with the same error, or are
bound to the same values and to the same text behind the head of each. -/
theorem Statement.bind_filtered (table : String) (s : ConditionSet) :
    (∃ e, (select table s []).bind = .error e ∧ (count table s).bind = .error e ∧
        (delete table s).bind = .error e) ∨
      ∃ (rest : String) (params : List Value) (selected counted deleted : Bound),
        (select table s []).bind = .ok selected ∧ (count table s).bind = .ok counted ∧
          (delete table s).bind = .ok deleted ∧
          selected.sql = "select * from " ++ rest ∧ selected.params = params ∧
          counted.sql = "select count(0) as total from " ++ rest ∧ counted.params = params ∧
          deleted.sql = "delete from " ++ rest ∧ deleted.params = params := by
  have hselect : (select table s []).bind = bindConditions ("select * from " ++ table) s := by
    simp [bind, bindConditions, orderClause]
  have hcount : (count table s).bind =
      bindConditions ("select count(0) as total from " ++ table) s := rfl
  have hdelete : (delete table s).bind = bindConditions ("delete from " ++ table) s := rfl
  have hplain : IsPlain "select * from " ∧ IsPlain "select count(0) as total from " ∧
      IsPlain "delete from " := by decide
  -- each is compared with the table and its filter alone
  have hselected := bindConditions_plain hplain.1 table s
  have hcounted := bindConditions_plain hplain.2.1 table s
  have hdeleted := bindConditions_plain hplain.2.2 table s
  rw [hselect, hcount, hdelete]
  generalize bindConditions table s = base at hselected hcounted hdeleted
  cases base with
  | error e => exact .inl ⟨e, hselected.of_error, hcounted.of_error, hdeleted.of_error⟩
  | ok b =>
    obtain ⟨selected, hs, hselectedSql, hselectedParams⟩ := hselected.of_ok
    obtain ⟨counted, hc, hcountedSql, hcountedParams⟩ := hcounted.of_ok
    obtain ⟨deleted, hd, hdeletedSql, hdeletedParams⟩ := hdeleted.of_ok
    exact .inr ⟨b.sql, b.params, selected, counted, deleted, hs, hc, hd, hselectedSql,
      hselectedParams, hcountedSql, hcountedParams, hdeletedSql, hdeletedParams⟩

end DataAccess.Sql
