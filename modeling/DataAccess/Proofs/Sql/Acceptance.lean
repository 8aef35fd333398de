import DataAccess.Proofs.Sql.ClauseBinding
import DataAccess.Proofs.Sql.Reading

/-!
Which drafts are bound. A set is written just when every condition in it has an operand that fits its
comparator, and else the first condition that has none is what fails. Where the placeholders of
fragments are bare, nothing is left to fail once the set is written: joined text has the
placeholders of its parts, so that counting them agrees with the values.
-/
namespace DataAccess.Sql

def Condition.fault (c : Condition) : Error :=
  match c.comparator, c.operand with
  | .isIn, .sequence _ | .notIn, .sequence _ => .invalidCondition (.emptySequence c.field)
  | .isIn, _ | .notIn, _ => .invalidCondition (.noSequence c.field)
  | .between, _ => .invalidCondition (.notTwoValues c.field)
  | .raw, operand => .parameterCountMismatch (countPlaceholders c.field) operand.values.length
  | comparator, _ => .invalidCondition (.noSingleValue c.field comparator)

/-- No placeholder of a fragment of SQL names an index. -/
def Condition.IsBare (c : Condition) : Prop :=
  c.comparator = .raw → ∀ m ∈ marksOf c.field.toList, m = none ∨ m = some none

theorem Condition.failure?_of_fits {c : Condition} (h : c.Fits) : failure? c.fragment = none := by
  rw [failure?_eq_none_iff]
  by_cases hraw : c.comparator = .raw
  · exact ⟨_, fragment_of_fits_raw h hraw⟩
  · exact ⟨_, fragment_of_fits h hraw⟩

theorem Condition.failure?_of_not_fits {c : Condition} (h : ¬ c.Fits) :
    failure? c.fragment = some c.fault := by
  obtain ⟨field, k, operand⟩ := c
  rw [failure?_eq_some_iff]
  unfold Fits at h
  dsimp only at h
  cases k with
  | isNull | isNotNull => exact absurd trivial h
  | isIn | notIn =>
    cases operand with
    | sequence vs =>
      have hvs : vs = [] := by
        by_contra hne
        exact h ⟨vs, rfl, hne⟩
      subst hvs
      rfl
    | _ => rfl
  | between =>
    cases operand with
    | sequence vs =>
      match vs with
      | [low, high] => exact absurd ⟨low, high, rfl⟩ h
      | [] | [_] | _ :: _ :: _ :: _ => rfl
    | _ => rfl
  | raw => exact if_neg h
  | _ =>
    cases operand with
    | single v => exact absurd ⟨v, rfl⟩ h
    | _ => rfl

/-- The members fail as the first of their conditions that fails. -/
theorem Members.failure?_fragments (ms : Members) :
    failure? ms.fragments = ms.leaves.findSome? fun c => failure? c.fragment := by
  induction ms with
  | nil => rfl
  | condition c rest ih =>
    rw [fragments, leaves, List.findSome?_cons, ← ih]
    refine (failure?_bind fun f => failure?_bind_pure rest.fragments (f :: ·)).trans ?_
    cases failure? c.fragment <;> rfl
  | group k inner rest ihInner ihRest =>
    rw [fragments, leaves, List.findSome?_append, ← ihInner, ← ihRest]
    by_cases he : inner.isEmpty = true
    -- a group that is left out has no condition that could fail
    · have hnone : inner.leaves = [] := List.isEmpty_iff.1 he
      rw [if_pos he, ihInner, hnone]
      rfl
    · rw [if_neg he]
      apply failure?_bind
      intro fs
      exact failure?_bind_pure rest.fragments _

theorem ConditionSet.failure?_whereClause (s : ConditionSet) :
    failure? s.whereClause = s.leaves.findSome? fun c => failure? c.fragment := by
  unfold whereClause fragment leaves
  rw [← Members.failure?_fragments]
  exact (failure?_bind_pure _ _).trans (failure?_bind_pure _ _)

theorem findSome?_of_fits {cs : List Condition} (h : ∀ c ∈ cs, c.Fits) :
    (cs.findSome? fun c => failure? c.fragment) = none :=
  List.findSome?_eq_none_iff.2 fun c hc => Condition.failure?_of_fits (h c hc)

theorem findSome?_of_not_fits {before after : List Condition} {c : Condition}
    (h : ∀ a ∈ before, a.Fits) (hc : ¬ c.Fits) :
    ((before ++ c :: after).findSome? fun c => failure? c.fragment) = some c.fault := by
  rw [List.findSome?_append, findSome?_of_fits h, List.findSome?_cons,
    Condition.failure?_of_not_fits hc]
  rfl

/-- Bare placeholders are the live question marks. -/
theorem count_flaggedMarks {A : List (Char × Bool)} (h : ∀ n, some (some n) ∉ flaggedMarks A) :
    (flaggedMarks A).count (some none) = A.count ('?', true) := by
  induction A with
  | nil => rfl
  | cons e A ih =>
    obtain ⟨c, live⟩ := e
    have hA := ih fun n hn => h n (List.mem_cons_of_mem _ hn)
    by_cases hc : live = true ∧ c = '?'
    · obtain ⟨rfl, rfl⟩ := hc
      rw [flaggedMarks, if_pos ⟨rfl, rfl⟩] at h ⊢
      generalize numberOf ((A.takeWhile fun m => m.2 && Decimal.isDigit m.1).map Prod.fst) = m at h ⊢
      cases m with
      | none => rw [List.count_cons_self, List.count_cons_self, hA]
      | some n => exact absurd List.mem_cons_self (h n)
    · have hne : (c, live) ≠ ('?', true) := by
        rintro heq
        cases heq
        exact hc ⟨rfl, rfl⟩
      rw [flaggedMarks, if_neg hc, List.count_cons_of_ne (by simp), List.count_cons_of_ne hne, hA]

/-- Where no placeholder names an index, as many indices as there are live question marks are given. -/
theorem largestIndex_of_bare {sql : String} (h : ∀ n, some (some n) ∉ marksOf sql.toList) :
    largestIndex 0 (marksOf sql.toList) = (scan sql.toList).count ('?', true) := by
  rw [largestIndex_bare h, Nat.zero_add]
  exact count_flaggedMarks h

/-- Bare placeholders of parts add up to the values of the parts. -/
theorem largestIndex_parts_eq {ps : List Part}
    (hcounted : ∀ p ∈ ps, largestIndex 0 (marksOf p.text) = p.values.length)
    (h : ∀ n, some (some n) ∉ marksOfParts ps) :
    largestIndex 0 (marksOfParts ps) = (valuesOf ps).length := by
  induction ps with
  | nil => rfl
  | cons p ps ih =>
    have hps : ∀ n, some (some n) ∉ marksOfParts ps := by
      intro n hn
      exact h n (List.mem_append_right _ hn)
    have hrest := ih (fun q hq => hcounted q (List.mem_cons_of_mem p hq)) hps
    have hfront : largestIndex 0 (marksOf p.text) = p.values.length := hcounted p List.mem_cons_self
    show largestIndex 0 (marksOf p.text ++ marksOfParts ps) = _
    rw [largestIndex_append, hfront, valuesOf_cons, List.length_append]
    -- bare placeholders are numbered on from whatever is in front of them
    rw [largestIndex_bare hps] at hrest ⊢
    omega

theorem Laid.bare {ps : List Part} (hl : Laid ps) (h : ∀ c, .condition c ∈ ps → c.IsBare) :
    ∀ n, some (some n) ∉ marksOfParts ps := by
  intro n hn
  obtain ⟨p, hp, hmark⟩ := List.mem_flatMap.1 hn
  obtain ⟨c, rfl, hraw⟩ := hl.numbered p hp n hmark
  rw [(Condition.raw_eqs hraw).1] at hmark
  rcases h c hp hraw _ hmark with hm | hm
  · cases hm
  · cases hm

theorem valuesOf_written (ps : List Part) : valuesOf (written ps) = valuesOf ps := by
  induction ps with
  | nil => rfl
  | cons p ps ih => cases p <;> simp [ih, Part.values]

namespace Draft

variable {d : Draft} {b : Bound}

theorem condition_mem_parts {c : Condition} (h : .condition c ∈ d.parts) : c ∈ d.leaves := by
  have hmem : .condition c ∈ written d.parts := List.mem_filter.2 ⟨h, rfl⟩
  rw [d.written_parts] at hmem
  simpa using hmem

theorem valuesOf_parts (d : Draft) :
    valuesOf d.parts = d.columns.values ++ d.leaves.flatMap Condition.values := by
  rw [← valuesOf_written, d.written_parts, valuesOf_append]
  have hcolumns : valuesOf (d.columns.map fun e => .column e.1 e.2) = d.columns.values := by
    unfold valuesOf Columns.values
    rw [List.flatMap_map, List.map_eq_flatMap]
    rfl
  have hleaves : valuesOf (d.leaves.map .condition) = d.leaves.flatMap Condition.values :=
    List.flatMap_map _ _ _
  rw [hcolumns, hleaves]

theorem unnumbered (hbare : ∀ c ∈ d.leaves, c.IsBare) (hl : Laid d.parts) :
    ∀ n, some (some n) ∉ marksOfParts d.parts :=
  hl.bare fun c hc => hbare c (condition_mem_parts hc)

/-- Bare placeholders are given as many indices as there are values. -/
theorem largestIndex_parts (hbare : ∀ c ∈ d.leaves, c.IsBare)
    (hlen : (textOf d.parts).length < UInt64.size) (hl : Laid d.parts) :
    largestIndex 0 (marksOfParts d.parts) = (valuesOf d.parts).length ∧
      largestIndex 0 (marksOfParts d.parts) < UInt64.size := by
  have hnone := unnumbered hbare hl
  have hword {ms : List (Option Mark)} (hms : ms.Sublist (marksOfParts d.parts)) :
      largestIndex 0 ms < UInt64.size := by
    have hle : largestIndex 0 ms ≤ 0 + ms.length :=
      largestIndex_le_add fun n hn => absurd (hms.subset hn) (hnone n)
    have hlength := hms.length_le
    rw [length_marksOfParts] at hlength
    omega
  refine ⟨largestIndex_parts_eq (fun p hp => hl.counted p hp (hword ?_)) hnone, hword (.refl _)⟩
  obtain ⟨front, back, hps⟩ := List.append_of_mem hp
  rw [hps, marksOfParts_split]
  exact (List.sublist_append_left _ _).trans (List.sublist_append_right _ _)

/-- The where clause fails as the first condition that fails. -/
theorem failure?_filter (d : Draft) :
    failure? d.filter.whereClause = d.leaves.findSome? fun c => failure? c.fragment := by
  rw [ConditionSet.failure?_whereClause, d.leaves_filter]

theorem bind_ok (hd : d.Stands) (hbare : ∀ c ∈ d.leaves, c.IsBare)
    (hlen : (textOf d.parts).length < UInt64.size) (hcolumns : d.HasColumns)
    (h : ∀ c ∈ d.leaves, c.Fits) : ∃ b, d.bind = .ok b := by
  have hwhere : failure? d.filter.whereClause = none :=
    d.failure?_filter.trans (findSome?_of_fits h)
  obtain ⟨f, hf⟩ := failure?_eq_none_iff.1 hwhere
  obtain ⟨hwrites, hlaid⟩ := writes_around hf hd
  rw [bind_eq hcolumns, hf, ok_bind]
  generalize d.around f = g at hwrites ⊢
  obtain ⟨hvalues, hword⟩ := largestIndex_parts hbare hlen hlaid
  have hcount : countPlaceholders g.text = g.params.length := by
    rw [countPlaceholders_eq, hwrites.text, hwrites.params, hlaid.marks]
    exact (countFrom_eq_largestIndex hword).trans hvalues
  exact ⟨_, dif_pos hcount⟩

theorem bind_error {before after : List Condition} {c : Condition} (hcolumns : d.HasColumns)
    (hleaves : d.leaves = before ++ c :: after) (h : ∀ a ∈ before, a.Fits) (hc : ¬ c.Fits) :
    d.bind = .error c.fault := by
  have hwhere : failure? d.filter.whereClause = some c.fault := by
    rw [d.failure?_filter, hleaves]
    exact findSome?_of_not_fits h hc
  rw [bind_eq hcolumns, failure?_eq_some_iff.1 hwhere, error_bind]

theorem fits_of_bind_ok (hcolumns : d.HasColumns) (h : d.bind = .ok b) :
    ∀ c ∈ d.leaves, c.Fits := by
  rw [bind_eq hcolumns] at h
  obtain ⟨f, hf, -⟩ := exists_of_bind_ok h
  have hwhere : failure? d.filter.whereClause = none := failure?_eq_none_iff.2 ⟨f, hf⟩
  rw [d.failure?_filter, List.findSome?_eq_none_iff] at hwhere
  intro c hc
  by_contra hn
  have hfails := Condition.failure?_of_not_fits hn
  rw [hwhere c hc] at hfails
  cases hfails

/-- A draft over plain names whose fragments have bare placeholders is bound just when every
condition in it, at any depth, has an operand that fits. It has the values of its columns and then
those of its conditions, in order, and one live question mark for each; or else it fails for the
first condition whose operand does not fit. -/
theorem bind_accepts (hd : d.Stands) (hbare : ∀ c ∈ d.leaves, c.IsBare)
    (hlen : (textOf d.parts).length < UInt64.size) (hcolumns : d.HasColumns) :
    ((∃ b, d.bind = .ok b) ↔ ∀ c ∈ d.leaves, c.Fits) ∧
      (∀ b, d.bind = .ok b →
        b.params = d.columns.values ++ d.leaves.flatMap Condition.values ∧
          (scan b.sql.toList).count ('?', true) = b.params.length) ∧
      ∀ before c after, d.leaves = before ++ c :: after → (∀ a ∈ before, a.Fits) → ¬ c.Fits →
        d.bind = .error c.fault := by
  refine ⟨⟨fun ⟨b, hb⟩ => fits_of_bind_ok hcolumns hb, bind_ok hd hbare hlen hcolumns⟩, ?_, ?_⟩
  · intro b hb
    obtain ⟨hwrites, hlaid⟩ := writes hb hd
    have hunnumbered : ∀ n, some (some n) ∉ marksOf b.sql.toList := by
      rw [hwrites.text, hlaid.marks]
      exact unnumbered hbare hlaid
    refine ⟨hwrites.params.trans d.valuesOf_parts, ?_⟩
    rw [← largestIndex_of_bare hunnumbered, hwrites.text, hwrites.params, hlaid.marks]
    exact (largestIndex_parts hbare hlen hlaid).1
  · intro before c after hleaves h hc
    exact bind_error hcolumns hleaves h hc

def sizesDraft (sizes : Operand) : Draft :=
  .statement (.update "notes" [("body", .text "b")]
    (((ConditionSet.all.push ⟨"id", .isIn, .sequence [.integer 1, .integer 2]⟩).pushGroup
      .any).pushGroup ((ConditionSet.any.push ⟨"size", .between, sizes⟩).push
        ⟨"tag = ? or tag = '?'", .raw, .single (.text "t")⟩)))

theorem leaves_sizesDraft (sizes : Operand) :
    (sizesDraft sizes).leaves = [⟨"id", .isIn, .sequence [.integer 1, .integer 2]⟩,
      ⟨"size", .between, sizes⟩, ⟨"tag = ? or tag = '?'", .raw, .single (.text "t")⟩] := rfl

theorem stands_sizesDraft (sizes : Operand) : (sizesDraft sizes).Stands := by
  have hid : IsPlain "id" := by decide
  have hsize : IsPlain "size" := by decide
  have htag : Region.code.after "tag = ? or tag = '?'".toList = .code := by decide +kernel
  refine ⟨by decide, by decide, ?_⟩
  show ∀ c ∈ (sizesDraft sizes).leaves, c.Stands
  rw [leaves_sizesDraft]
  simp only [List.forall_mem_cons]
  exact ⟨hid, hsize, htag, List.forall_mem_nil _⟩

theorem isBare_sizesDraft (sizes : Operand) : ∀ c ∈ (sizesDraft sizes).leaves, c.IsBare := by
  have hmarks : ∀ m ∈ marksOf "tag = ? or tag = '?'".toList, m = none ∨ m = some none := by
    decide +kernel
  intro c hc hraw
  rw [leaves_sizesDraft] at hc
  simp only [List.mem_cons, List.not_mem_nil, or_false] at hc
  rcases hc with rfl | rfl | rfl
  · cases hraw
  · cases hraw
  · exact hmarks

theorem bind_accepts_sizes :
    (∃ b, (sizesDraft (.sequence [.integer 3, .integer 9])).bind = .ok b ∧
      b.params = [.text "b", .integer 1, .integer 2, .integer 3, .integer 9, .text "t"] ∧
      (scan b.sql.toList).count ('?', true) = 6) ∧
    (sizesDraft (.single (.integer 3))).bind = .error (.invalidCondition (.notTwoValues "size")) := by
  have hid : Condition.Fits ⟨"id", .isIn, .sequence [.integer 1, .integer 2]⟩ :=
    ⟨_, rfl, List.cons_ne_nil _ _⟩
  have htag : countPlaceholders "tag = ? or tag = '?'" = 1 := by decide +kernel
  have haccepts (sizes : Operand)
      (hlen : (textOf (sizesDraft sizes).parts).length < UInt64.size) :=
    bind_accepts (stands_sizesDraft sizes) (isBare_sizesDraft sizes) hlen (List.cons_ne_nil _ _)
  constructor
  · obtain ⟨hok, hbound, -⟩ := haccepts (.sequence [.integer 3, .integer 9]) (by decide +kernel)
    have hfits : ∀ c ∈ (sizesDraft (.sequence [.integer 3, .integer 9])).leaves, c.Fits := by
      rw [leaves_sizesDraft]
      simp only [List.forall_mem_cons]
      exact ⟨hid, ⟨_, _, rfl⟩, htag, List.forall_mem_nil _⟩
    obtain ⟨b, hb⟩ := hok.2 hfits
    obtain ⟨hparams, hlive⟩ := hbound b hb
    refine ⟨b, hb, hparams, ?_⟩
    rw [hlive, hparams]
    rfl
  · obtain ⟨-, -, hfails⟩ := haccepts (.single (.integer 3)) (by decide +kernel)
    refine hfails [_] _ [_] (leaves_sizesDraft _) (List.forall_mem_singleton.2 hid) ?_
    rintro ⟨low, high, heq⟩
    cases heq

end Draft

end DataAccess.Sql
