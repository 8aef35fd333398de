import DataAccess.Proofs.Session.Refusal
import DataAccess.Proofs.Session.Uses

/-!
Changes to rows are filtered. An update or delete counts the conditions of its set at every depth before
it binds anything, while its clause is written member by member, where groups are left out. Both agree
on which sets are empty: a set with a condition somewhere has a clause in which every condition stands,
and no SQL without such a clause reaches a database.
-/
namespace DataAccess

variable {Fault Store Link : Type} [Reportable Fault]

namespace Sql

theorem infix_intercalate (separator : String) {text : String} {texts : List String}
    (h : text ∈ texts) : text.toList <:+: (String.intercalate separator texts).toList := by
  rw [String.toList_intercalate]
  induction texts with
  | nil => cases h
  | cons first rest ih =>
    cases rest with
    | nil =>
      cases List.mem_singleton.1 h
      simp [List.intercalate_singleton]
    | cons second rest =>
      rw [List.map_cons, List.map_cons, List.intercalate_cons_cons, ← List.map_cons]
      rcases List.mem_cons.1 h with rfl | h
      · exact ⟨[], _, (List.append_assoc _ _ _).symm⟩
      · exact (ih h).trans (List.suffix_append _ _).isInfix

theorem Fragment.infix_join (separator : String) {f : Fragment} {fs : List Fragment} (h : f ∈ fs) :
    f.text.toList <:+: (join separator fs).text.toList :=
  infix_intercalate separator (List.mem_map_of_mem h)

theorem Fragment.infix_inParentheses (f : Fragment) :
    f.text.toList <:+: f.inParentheses.text.toList := by
  refine ⟨['('], [')'], ?_⟩
  simp [inParentheses]

/-- Every condition, at any depth, stands in one of the fragments of the members. -/
theorem Members.exists_fragment {ms : Members} {fs : List Fragment} (h : ms.fragments = .ok fs) :
    ∀ c ∈ ms.leaves, ∃ f, c.fragment = .ok f ∧ ∃ g ∈ fs, f.text.toList <:+: g.text.toList := by
  induction ms generalizing fs with
  | nil => exact fun c hc => nomatch hc
  | condition c rest ih =>
    obtain ⟨f, hf, h⟩ := exists_of_bind_ok h
    obtain ⟨gs, hgs, h⟩ := exists_of_bind_ok h
    cases h
    intro d hd
    rcases List.mem_cons.1 hd with rfl | hd
    · exact ⟨f, hf, f, List.mem_cons_self, List.infix_refl _⟩
    · obtain ⟨f', hf', g, hg, hin⟩ := ih hgs d hd
      exact ⟨f', hf', g, List.mem_cons_of_mem _ hg, hin⟩
  | group k inner rest ihInner ihRest =>
    unfold fragments at h
    intro d hd
    rcases List.mem_append.1 hd with hd | hd
    · have hne : ¬ inner.isEmpty = true := by
        intro he
        rw [List.isEmpty_iff.1 he] at hd
        cases hd
      rw [if_neg hne] at h
      obtain ⟨inside, hinside, h⟩ := exists_of_bind_ok h
      obtain ⟨gs, hgs, h⟩ := exists_of_bind_ok h
      cases h
      obtain ⟨f, hf, g, hg, hin⟩ := ihInner hinside d hd
      refine ⟨f, hf, _, List.mem_cons_self, ?_⟩
      exact hin.trans ((Fragment.infix_join _ hg).trans (Fragment.infix_inParentheses _))
    · split_ifs at h with he
      · exact ihRest h d hd
      · obtain ⟨inside, -, h⟩ := exists_of_bind_ok h
        obtain ⟨gs, hgs, h⟩ := exists_of_bind_ok h
        cases h
        obtain ⟨f, hf, g, hg, hin⟩ := ihRest hgs d hd
        exact ⟨f, hf, g, List.mem_cons_of_mem _ hg, hin⟩

/-- A written condition has text, also where its field has none. -/
theorem Condition.text_ne_empty {c : Condition} {f : Fragment} (h : c.fragment = .ok f) :
    f.text ≠ "" := by
  by_cases hraw : c.comparator = .raw
  · unfold fragment at h
    rw [hraw] at h
    dsimp only at h
    split_ifs at h
    cases h
    simp
  · obtain ⟨-, tail, htext, htail, -⟩ := fragment_written h hraw
    rw [htext]
    intro hempty
    exact htail (String.append_eq_empty_iff.1 hempty).2

theorem Members.fragments_of_isEmpty {ms : Members} (h : ms.isEmpty = true) :
    ms.fragments = .ok [] := by
  induction ms with
  | nil => rfl
  | condition c rest _ => cases h
  | group k inner rest _ ih =>
    have hleaves : inner.leaves ++ rest.leaves = [] := List.isEmpty_iff.1 h
    obtain ⟨hinner, hrest⟩ := List.append_eq_nil_iff.1 hleaves
    have hempty : inner.isEmpty = true := List.isEmpty_iff.2 hinner
    unfold fragments
    rw [if_pos hempty]
    exact ih (List.isEmpty_iff.2 hrest)

/-- A clause that filters: it has text, and the text of every condition of the set stands in it. -/
structure ConditionSet.IsClause (s : ConditionSet) (clause : String) : Prop where
  ne_empty : clause ≠ ""
  written : ∀ c ∈ s.leaves, ∃ f, c.fragment = .ok f ∧ f.text.toList <:+: clause.toList

namespace ConditionSet

theorem isEmpty_iff {s : ConditionSet} : s.isEmpty = true ↔ s.leaves = [] := List.isEmpty_iff

theorem whereClause_of_isEmpty {s : ConditionSet} (h : s.isEmpty = true) :
    ∃ f, s.whereClause = .ok f ∧ f.text = "" := by
  refine ⟨⟨"", []⟩, ?_, rfl⟩
  unfold whereClause fragment
  rw [Members.fragments_of_isEmpty h]
  rfl

theorem whereClause_of_not_isEmpty {s : ConditionSet} {f : Fragment} (h : s.whereClause = .ok f)
    (hne : ¬ s.isEmpty = true) : ∃ clause, f.text = " where " ++ clause ∧ s.IsClause clause := by
  obtain ⟨body, hbody, h⟩ := exists_of_bind_ok h
  obtain ⟨fs, hfs, hjoin⟩ := exists_of_bind_ok hbody
  cases hjoin
  have hwritten : ∀ c ∈ s.leaves, ∃ f, c.fragment = .ok f ∧
      f.text.toList <:+: (Fragment.join s.connective.separator fs).text.toList := by
    intro c hc
    obtain ⟨f, hf, g, hg, hin⟩ := Members.exists_fragment hfs c hc
    exact ⟨f, hf, hin.trans (Fragment.infix_join _ hg)⟩
  have htext : (Fragment.join s.connective.separator fs).text ≠ "" := by
    obtain ⟨c, hc⟩ := List.exists_mem_of_ne_nil _ fun hnil => hne (isEmpty_iff.2 hnil)
    obtain ⟨f, hf, hin⟩ := hwritten c hc
    intro hempty
    rw [hempty] at hin
    exact Condition.text_ne_empty hf (String.toList_eq_nil_iff.1 (List.infix_nil.1 hin))
  rw [if_neg (fun he => htext (String.isEmpty_iff.1 he))] at h
  cases h
  exact ⟨_, rfl, htext, hwritten⟩

/-- The clause of a set is left out just when the set counts as empty. -/
theorem whereClause_eq_empty_iff (s : ConditionSet) :
    (∃ f, s.whereClause = .ok f ∧ f.text = "") ↔ s.isEmpty = true := by
  refine ⟨?_, whereClause_of_isEmpty⟩
  rintro ⟨f, hf, hempty⟩
  by_contra hne
  obtain ⟨clause, htext, -⟩ := whereClause_of_not_isEmpty hf hne
  rw [htext] at hempty
  exact absurd (String.append_eq_empty_iff.1 hempty).1 (by decide)

/-- Groups in groups without a condition leave nothing behind, a condition without a field does. -/
example : (ConditionSet.all.pushGroup (ConditionSet.any.pushGroup .all)).whereClause = .ok ⟨"", []⟩ ∧
    (((ConditionSet.all.pushGroup .any).pushGroup
      (ConditionSet.any.push ⟨"", .isNull, .none⟩)).whereClause) = .ok ⟨" where ( is null)", []⟩ :=
  ⟨rfl, rfl⟩

theorem whereClause_ne_conditionRequired (s : ConditionSet) (word : String) :
    s.whereClause ≠ .error (.conditionRequired word) := by
  intro h
  rw [← failure?_eq_some_iff, s.failure?_whereClause] at h
  obtain ⟨c, -, hc⟩ := List.exists_of_findSome?_eq_some h
  by_cases hfits : c.Fits
  · rw [Condition.failure?_of_fits hfits] at hc
    cases hc
  · rw [Condition.failure?_of_not_fits hfits, Option.some.injEq] at hc
    unfold Condition.fault at hc
    split at hc <;> cases hc

end ConditionSet

theorem Bound.make_ne_conditionRequired (sql : String) (params : List Value) (word : String) :
    Bound.make sql params ≠ .error (.conditionRequired word) := by
  unfold make
  split_ifs <;> rintro ⟨⟩

end Sql

theorem Record.toColumns_ne_conditionRequired (record : Record) (word : String) :
    Record.toColumns record ≠ .error (.conditionRequired word) := by
  cases record with
  | error fault => rintro ⟨⟩
  | ok j => cases j <;> rintro ⟨⟩

inductive Change where
  | update (table : String) (record : Record)
  | delete (table : String)

namespace Change

def word : Change → String
  | .update _ _ => "update"
  | .delete _ => "delete"

def operation (E : Engine Fault Store Link) (g : Gateway) (conditions : Sql.ConditionSet) :
    Change → Operation Store Link Nat
  | .update table record => g.update E table record conditions
  | .delete table => g.delete E table conditions

def bind (conditions : Sql.ConditionSet) : Change → Except Error Sql.Bound
  | .update table record => Gateway.bindUpdate table record conditions
  | .delete table => Gateway.bindDelete table conditions

def head : Change → Except Error String
  | .update table record => do
    let columns ← Record.toColumns record
    return "update " ++ table ++ " set " ++
      String.intercalate ", " (columns.names.map (· ++ " = ?"))
  | .delete table => .ok ("delete from " ++ table)

/-- SQL of the change, where a clause written from the conditions follows the head. -/
def IsFiltered (c : Change) (conditions : Sql.ConditionSet) (b : Sql.Bound) : Prop :=
  ∃ head clause, c.head = .ok head ∧ b.sql = head ++ " where " ++ clause ∧
    conditions.IsClause clause

section

variable {c : Change} {conditions : Sql.ConditionSet}

theorem operation_eq (E : Engine Fault Store Link) (g : Gateway) (conditions : Sql.ConditionSet)
    (c : Change) : c.operation E g conditions = Gateway.run (c.bind conditions) (g.runUpdate E) := by
  cases c <;> rfl

theorem bind_of_isEmpty (h : conditions.isEmpty = true) :
    c.bind conditions = .error (.conditionRequired c.word) := by
  cases c <;> exact if_pos h

theorem bind_update (h : ¬ conditions.isEmpty = true) (table : String) (record : Record) :
    (update table record).bind conditions =
      Record.toColumns record >>= fun columns => (Sql.Statement.update table columns conditions).bind :=
  if_neg h

theorem bind_delete (h : ¬ conditions.isEmpty = true) (table : String) :
    (delete table).bind conditions = (Sql.Statement.delete table conditions).bind :=
  if_neg h

theorem isFiltered_of_make {start : String} {f : Sql.Fragment} {params : List Value} {b : Sql.Bound}
    (hne : ¬ conditions.isEmpty = true) (hstart : c.head = .ok start)
    (hf : conditions.whereClause = .ok f)
    (h : Sql.Bound.make (start ++ f.text) params = .ok b) : c.IsFiltered conditions b := by
  obtain ⟨clause, htext, hclause⟩ := Sql.ConditionSet.whereClause_of_not_isEmpty hf hne
  refine ⟨start, clause, hstart, ?_, hclause⟩
  rw [(Sql.Bound.make_ok h).1, htext, String.append_assoc]

/-- SQL that could be bound is the head of the change and the clause of its set. -/
theorem isFiltered_of_bind {b : Sql.Bound} (h : c.bind conditions = .ok b) :
    c.IsFiltered conditions b := by
  have hne : ¬ conditions.isEmpty = true := by
    intro hempty
    rw [bind_of_isEmpty hempty] at h
    cases h
  cases c with
  | update table record =>
    rw [bind_update hne] at h
    obtain ⟨columns, hcolumns, h⟩ := exists_of_bind_ok h
    rw [Sql.Statement.bind] at h
    split_ifs at h
    obtain ⟨f, hf, h⟩ := exists_of_bind_ok h
    refine isFiltered_of_make hne ?_ hf h
    rw [head, hcolumns]
    rfl
  | delete table =>
    rw [bind_delete hne] at h
    obtain ⟨f, hf, h⟩ := exists_of_bind_ok h
    exact isFiltered_of_make hne rfl hf h

/-- Nothing else that is wrong with a change is reported as a missing condition. -/
theorem bind_ne_conditionRequired (h : ¬ conditions.isEmpty = true) (word : String) :
    c.bind conditions ≠ .error (.conditionRequired word) := by
  have hclause (f : Sql.Fragment → Except Error Sql.Bound)
      (hf : ∀ g, f g ≠ .error (.conditionRequired word)) :
      (conditions.whereClause >>= f) ≠ .error (.conditionRequired word) :=
    bind_ne_error (conditions.whereClause_ne_conditionRequired word) hf
  cases c with
  | update table record =>
    rw [bind_update h]
    refine bind_ne_error (record.toColumns_ne_conditionRequired word) fun columns => ?_
    rw [Sql.Statement.bind]
    split_ifs
    · rintro ⟨⟩
    · exact hclause _ fun g => Sql.Bound.make_ne_conditionRequired _ _ word
  | delete table =>
    rw [bind_delete h]
    exact hclause _ fun g => Sql.Bound.make_ne_conditionRequired _ _ word

/-- Nor is what can go wrong on a connection. -/
theorem runUpdate_ne_conditionRequired (E : Engine Fault Store Link) (g : Gateway) (b : Sql.Bound)
    (s : Session) (r : Registry Store Link) (word : String) :
    (g.runUpdate E b s r).1 ≠ .error (.conditionRequired word) := by
  unfold Gateway.runUpdate
  cases hc : s.connection? g.source r with
  | none =>
    rw [Session.withLink_none _ hc]
    unfold Session.obstacle
    split_ifs <;> rintro ⟨⟩
  | some found =>
    rw [Session.withLink_some _ hc]
    cases (found.1.pool.use found.2 (E.execute b)).1 <;> rintro ⟨⟩

theorem operation_of_isEmpty (h : conditions.isEmpty = true) (E : Engine Fault Store Link) (g : Gateway)
    (s : Session) (r : Registry Store Link) :
    c.operation E g conditions s r = (.error (.conditionRequired c.word), r) := by
  rw [operation_eq, bind_of_isEmpty h]
  rfl

theorem operation_ne_conditionRequired (h : ¬ conditions.isEmpty = true) (E : Engine Fault Store Link)
    (g : Gateway) (s : Session) (r : Registry Store Link) (word : String) :
    (c.operation E g conditions s r).1 ≠ .error (.conditionRequired word) := by
  rw [operation_eq]
  have hbind := bind_ne_conditionRequired (c := c) h word
  cases hb : c.bind conditions with
  | error e =>
    intro he
    cases he
    exact hbind hb
  | ok b => exact runUpdate_ne_conditionRequired E g b s r word

/-- A change has no use for SQL that is not filtered. -/
theorem operation_congr {E E' : Engine Fault Store Link}
    (h : ∀ b, c.IsFiltered conditions b → E.execute b = E'.execute b) (g : Gateway) :
    c.operation E g conditions = c.operation E' g conditions := by
  rw [operation_eq, operation_eq]
  cases hb : c.bind conditions with
  | error e => rfl
  | ok b =>
    show Session.withLink g.source (E.execute b) = Session.withLink g.source (E'.execute b)
    rw [h b (isFiltered_of_bind hb)]

/-- An update or delete is refused for want of a condition just when its set has none at any depth,
whatever the session and the sources are like, and is then refused before a connection is asked for.
Else no SQL of it reaches a database without a where clause in which every condition of the set
stands: engines that execute such SQL alike cannot be told apart by it, whatever else they do. For
the clause of a set is left out just when the set counts as empty. -/
theorem operation_filtered (c : Change) (conditions : Sql.ConditionSet) :
    (∀ {Store Link : Type} (E : Engine Fault Store Link) (g : Gateway) (s : Session)
        (r : Registry Store Link),
      ((c.operation E g conditions s r).1 = .error (.conditionRequired c.word) ↔
        conditions.leaves = []) ∧
      (conditions.leaves = [] → (c.operation E g conditions s r).2 = r)) ∧
    (∀ {Store Link : Type} (E E' : Engine Fault Store Link) (g : Gateway),
      (∀ b, c.IsFiltered conditions b → E.execute b = E'.execute b) →
        c.operation E g conditions = c.operation E' g conditions) ∧
    ((∃ f, conditions.whereClause = .ok f ∧ f.text = "") ↔ conditions.isEmpty = true) := by
  refine ⟨fun E g s r => ?_, fun E E' g h => operation_congr h g, ?_⟩
  · rw [← Sql.ConditionSet.isEmpty_iff]
    refine ⟨⟨fun h => ?_, fun h => ?_⟩, fun h => ?_⟩
    · by_contra hne
      exact operation_ne_conditionRequired hne E g s r _ h
    · rw [operation_of_isEmpty h]
    · rw [operation_of_isEmpty h]
  · exact conditions.whereClause_eq_empty_iff

end

end Change

end DataAccess
