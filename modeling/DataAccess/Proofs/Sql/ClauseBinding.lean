import DataAccess.Proofs.Sql.Layout

/-!
What the placeholders of written SQL are bound to. A part is numbered on from the parts before it,
and its placeholders get its own values as long as they are bare. A number in a fragment of SQL
is an index of the whole text, which the count of placeholders need not notice:
`Draft.follows_iff` says exactly when every placeholder is bound to a value of its own part.
-/
namespace DataAccess.Sql

/-- The placeholder that has index `i` where its part is numbered alone has the index in the whole
text under which the `i`-th value of the part is. -/
def Follows (b : Bound) (ps : List Part) : Prop :=
  ∀ before p after, ps = before ++ p :: after →
    ∀ (j i : Nat), (indices 0 (marksOf p.text))[j]? = some (some i) →
      (indicesOf b.sql)[(textOf before).length + j]? =
          some (some ((valuesOf before).length + i)) ∧
        1 ≤ i ∧ i ≤ p.values.length ∧
        b.params[(valuesOf before).length + i - 1]? = p.values[i - 1]?

/-- Only fragments of SQL with no value before them name indices, and only those of their own
values. -/
def NumberedFirst (ps : List Part) : Prop :=
  ∀ before c after, ps = before ++ .condition c :: after → c.comparator = .raw →
    ∀ n, some (some n) ∈ marksOf c.field.toList →
      valuesOf before = [] ∧ 1 ≤ n ∧ n ≤ c.operand.values.length

def Part.isFixed : Part → Bool
  | .fixed _ => true
  | _ => false

def written (ps : List Part) : List Part := ps.filter (!·.isFixed)

@[simp] theorem written_nil : written [] = [] := rfl

@[simp] theorem written_fixed (text : String) (ps : List Part) :
    written (.fixed text :: ps) = written ps := rfl

@[simp] theorem written_column (name : String) (v : Value) (ps : List Part) :
    written (.column name v :: ps) = .column name v :: written ps := rfl

@[simp] theorem written_condition (c : Condition) (ps : List Part) :
    written (.condition c :: ps) = .condition c :: written ps := rfl

@[simp] theorem written_append (ps qs : List Part) :
    written (ps ++ qs) = written ps ++ written qs := List.filter_append _ _

theorem written_joinParts (separator : String) (items : List (List Part)) :
    written (joinParts separator items) = items.flatMap written := by
  unfold joinParts
  induction items with
  | nil => rfl
  | cons ps items ih =>
    by_cases hn : items = []
    · simp [hn]
    · rw [List.intercalate_cons_of_ne_nil hn]
      simp [ih]

theorem Members.written_items (ms : Members) :
    ms.items.flatMap written = ms.leaves.map .condition := by
  induction ms with
  | nil => rfl
  | condition c rest ih =>
    have hparts : written c.parts = [.condition c] := by
      unfold Condition.parts
      split <;> rfl
    simp [Members.items, Members.leaves, hparts, ih]
  | group k inner rest ihInner ihRest =>
    unfold Members.items
    by_cases he : inner.isEmpty = true
    · have hnone : inner.leaves = [] := by simpa [Members.isEmpty] using he
      simp [he, ihRest, Members.leaves, hnone]
    · simp [he, ihRest, Members.leaves, written_joinParts, ihInner]

theorem ConditionSet.written_parts (s : ConditionSet) :
    written s.parts = s.leaves.map .condition := by
  unfold ConditionSet.parts
  split
  · rename_i he
    have hnone : s.leaves = [] := by
      simpa [ConditionSet.isEmpty, Members.isEmpty, ConditionSet.leaves] using he
    rw [hnone]
    rfl
  · rw [written_fixed, written_joinParts, Members.written_items]
    rfl

/-- Apart from fixed text a draft has its columns and then its conditions as its parts. -/
theorem Draft.written_parts (d : Draft) :
    written d.parts =
      d.columns.map (fun e => .column e.1 e.2) ++ d.leaves.map .condition := by
  have hcolumns (columns : Columns) :
      columns.flatMap (fun e => [Part.column e.1 e.2]) = columns.map fun e => .column e.1 e.2 :=
    List.map_eq_flatMap.symm
  cases d with
  | conditions start s => simp [parts, columns, leaves, ConditionSet.written_parts]
  | statement st =>
    cases st with
    | select table s order => simp [parts, columns, leaves, ConditionSet.written_parts]
    | count table s => simp [parts, columns, leaves, ConditionSet.written_parts]
    | insert table columns =>
      simp [parts, Draft.columns, leaves, written_joinParts, List.flatMap_map, hcolumns]
    | update table columns s =>
      simp [parts, Draft.columns, leaves, written_joinParts, List.flatMap_map, hcolumns,
        ConditionSet.written_parts]
    | delete table s => simp [parts, columns, leaves, ConditionSet.written_parts]

def marksOfParts (ps : List Part) : List (Option Mark) := ps.flatMap fun p => marksOf p.text

theorem marksOfParts_split (before : List Part) (p : Part) (after : List Part) :
    marksOfParts (before ++ p :: after) =
      marksOfParts before ++ (marksOf p.text ++ marksOfParts after) := by
  simp [marksOfParts]

theorem length_marksOfParts (ps : List Part) : (marksOfParts ps).length = (textOf ps).length := by
  unfold marksOfParts textOf
  induction ps with
  | nil => rfl
  | cons p ps ih => simp [length_marksOf, ih]

/-- Parts that are numbered as they have values reach no index beyond their values. -/
theorem largestIndex_parts_le {ps : List Part}
    (h : ∀ p ∈ ps, largestIndex 0 (marksOf p.text) = p.values.length) :
    largestIndex 0 (marksOfParts ps) ≤ (valuesOf ps).length := by
  unfold marksOfParts
  induction ps with
  | nil => simp [largestIndex]
  | cons p ps ih =>
    have hps := ih fun q hq => h q (List.mem_cons_of_mem p hq)
    have hstep := largestIndex_add_le p.values.length 0 (ps.flatMap fun p => marksOf p.text)
    rw [List.flatMap_cons, largestIndex_append, h p List.mem_cons_self, valuesOf_cons,
      List.length_append]
    rw [Nat.add_zero] at hstep
    omega

section Binding

variable {b : Bound} {ps before after : List Part} {p : Part}

/-- A part is numbered on from the parts before it. -/
theorem Laid.getElem?_indices (hl : Laid ps) (hw : b.Writes ps)
    (hps : ps = before ++ p :: after) {j : Nat} (hj : j < (marksOf p.text).length) :
    (indicesOf b.sql)[(textOf before).length + j]? =
      (indices (largestIndex 0 (marksOfParts before)) (marksOf p.text))[j]? := by
  have hmarks : marksOf (textOf ps) = marksOfParts before ++
      (marksOf p.text ++ marksOfParts after) := by
    rw [hl.marks, ← marksOfParts_split, ← hps]
    rfl
  have hfront : (indices 0 (marksOfParts before)).length = (textOf before).length := by
    rw [length_indices, length_marksOfParts]
  unfold indicesOf
  rw [hw.text, hmarks, indices_append, ← hfront,
    List.getElem?_append_right (Nat.le_add_right _ _), Nat.add_sub_cancel_left, indices_append,
    List.getElem?_append_left (by rwa [length_indices])]

/-- The values of a part stand behind those of the parts before it. -/
theorem Bound.Writes.getElem?_params (hw : b.Writes ps) (hps : ps = before ++ p :: after) {i : Nat}
    (hi : i < p.values.length) :
    b.params[(valuesOf before).length + i]? = p.values[i]? := by
  rw [hw.params, hps, valuesOf_append, valuesOf_cons,
    List.getElem?_append_right (Nat.le_add_right _ _), Nat.add_sub_cancel_left,
    List.getElem?_append_left hi]

theorem Condition.raw_eqs {c : Condition} (h : c.comparator = .raw) :
    (Part.condition c).text = c.field.toList ∧ (Part.condition c).values = c.operand.values := by
  constructor
  · rw [Part.text, Condition.text, if_pos h]
  · rw [Part.values, Condition.values, h]

/-- As no other part names indices, the condition on fragments is one on all parts. -/
theorem Laid.numberedFirst_iff (hl : Laid ps) :
    NumberedFirst ps ↔ ∀ before p after, ps = before ++ p :: after →
      ∀ n, some (some n) ∈ marksOf p.text →
        valuesOf before = [] ∧ 1 ≤ n ∧ n ≤ p.values.length := by
  constructor
  · intro h before p after hps n hn
    obtain ⟨c, rfl, hraw⟩ := hl.numbered p (by simp [hps]) n hn
    obtain ⟨htext, hvalues⟩ := Condition.raw_eqs hraw
    rw [hvalues]
    exact h before c after hps hraw n (htext ▸ hn)
  · intro h before c after hps hraw n hn
    obtain ⟨htext, hvalues⟩ := Condition.raw_eqs hraw
    rw [← hvalues]
    exact h before _ after hps n (htext ▸ hn)

section

variable (hl : Laid ps) (hw : b.Writes ps) (hlen : b.sql.length + b.params.length < UInt64.size)
  (h : NumberedFirst ps)

include hl hw hlen h

/-- Where fragments name no more indices than they have values, no index is beyond a machine word. -/
theorem Laid.largestIndex_lt {ms : List (Option Mark)} (hms : ms.Sublist (marksOfParts ps)) :
    largestIndex 0 ms < UInt64.size := by
  have hnumbers : ∀ n, some (some n) ∈ ms → n ≤ b.params.length := by
    intro n hn
    obtain ⟨q, hq, hmark⟩ := List.mem_flatMap.1 (hms.subset hn)
    obtain ⟨front, back, hqs⟩ := List.append_of_mem hq
    have hle := (hl.numberedFirst_iff.1 h front q back hqs n hmark).2.2
    rw [hw.params, hqs, valuesOf_append, valuesOf_cons, List.length_append, List.length_append]
    omega
  have hle := largestIndex_le_add hnumbers
  have hlength := hms.length_le
  rw [length_marksOfParts, ← hw.text, String.length_toList] at hlength
  omega

/-- As many indices as there are values are in front of each part, and in it. -/
theorem Laid.largestIndex_split (hps : ps = before ++ p :: after) :
    largestIndex 0 (marksOfParts before) = (valuesOf before).length ∧
      largestIndex 0 (marksOf p.text) = p.values.length := by
  have hcounted : ∀ q ∈ ps, largestIndex 0 (marksOf q.text) = q.values.length := by
    intro q hq
    refine hl.counted q hq (hl.largestIndex_lt hw hlen h ?_)
    obtain ⟨front, back, hqs⟩ := List.append_of_mem hq
    rw [hqs, marksOfParts_split]
    exact (List.sublist_append_left _ _).trans (List.sublist_append_right _ _)
  have htotal : largestIndex 0 (marksOfParts ps) = (valuesOf ps).length := by
    have hword : HasWordIndices b.sql := by
      unfold HasWordIndices
      rw [hw.text, hl.marks]
      exact hl.largestIndex_lt hw hlen h (.refl _)
    have hcount := b.count_eq
    rw [countPlaceholders_eq_largestIndex hword, hw.text, hl.marks, hw.params] at hcount
    exact hcount
  have hbefore : largestIndex 0 (marksOfParts before) ≤ (valuesOf before).length :=
    largestIndex_parts_le fun q hq => hcounted q (by simp [hps, hq])
  have hrest : largestIndex 0 (marksOfParts (p :: after)) ≤ (valuesOf (p :: after)).length :=
    largestIndex_parts_le fun q hq => hcounted q (by rw [hps]; exact List.mem_append_right _ hq)
  have hstep :=
    largestIndex_add_le (largestIndex 0 (marksOfParts before)) 0 (marksOfParts (p :: after))
  rw [hps, valuesOf_append, List.length_append] at htotal
  have hsplit : marksOfParts (before ++ p :: after) =
      marksOfParts before ++ marksOfParts (p :: after) := by simp [marksOfParts]
  rw [hsplit, largestIndex_append] at htotal
  rw [Nat.add_zero] at hstep
  exact ⟨by omega, hcounted p (by simp [hps])⟩

/-- Where fragments name their own indices first, a part is numbered as alone. -/
theorem Laid.follows : Follows b ps := by
  intro before p after hps j i hi
  obtain ⟨hbefore, hpart⟩ := hl.largestIndex_split hw hlen h hps
  rw [hl.numberedFirst_iff] at h
  have hj : j < (marksOf p.text).length := by
    rw [← length_indices 0]
    exact (List.getElem?_eq_some_iff.1 hi).1
  have hindex : (indices (valuesOf before).length (marksOf p.text))[j]? =
      some (some ((valuesOf before).length + i)) := by
    by_cases hbare : ∀ n, some (some n) ∉ marksOf p.text
    · have hshift := indices_bare hbare (valuesOf before).length 0
      rw [Nat.add_zero] at hshift
      rw [hshift, List.getElem?_map, hi]
      rfl
    · push Not at hbare
      obtain ⟨n, hn⟩ := hbare
      have hnone := (h before p after hps n hn).1
      rw [hnone]
      simpa using hi
  have hpos : 1 ≤ i :=
    one_le_index (fun n hn => (h before p after hps n hn).2.1) (List.mem_of_getElem? hi)
  have hle : i ≤ p.values.length := by
    rw [← hpart]
    exact index_le_largestIndex (List.mem_of_getElem? hi)
  refine ⟨?_, hpos, hle, ?_⟩
  · rw [hl.getElem?_indices hw hps hj, hbefore, hindex]
  · rw [Nat.add_sub_assoc hpos]
    exact hw.getElem?_params hps (by omega)

end

/-- A number in a fragment is the index alone and in the whole text. -/
theorem Laid.numberedFirst (hl : Laid ps) (hw : b.Writes ps) (h : Follows b ps) :
    NumberedFirst ps := by
  rw [hl.numberedFirst_iff]
  intro before p after hps n hn
  obtain ⟨j, hj⟩ := List.mem_iff_getElem?.1 hn
  have hlt : j < (marksOf p.text).length := (List.getElem?_eq_some_iff.1 hj).1
  have hat (g : Nat) : (indices g (marksOf p.text))[j]? = some (some n) := index_of_mark g hj
  obtain ⟨hindex, hpos, hle, -⟩ := h before p after hps j n (hat 0)
  rw [hl.getElem?_indices hw hps hlt, hat] at hindex
  have hsum : n = (valuesOf before).length + n := by simpa using hindex
  exact ⟨List.length_eq_zero_iff.1 (by omega), hpos, hle⟩

end Binding

/-- Written SQL is the parts of its draft one after another, with their values in order, and every
placeholder is bound to a value of its own part just when fragments of SQL name indices only
before any other value. -/
theorem Draft.follows_iff {d : Draft} {b : Bound} (h : d.bind = .ok b) (hd : d.Stands)
    (hlen : b.sql.length + b.params.length < UInt64.size) :
    b.sql.toList = textOf d.parts ∧ b.params = valuesOf d.parts ∧
      written d.parts =
        d.columns.map (fun e => .column e.1 e.2) ++ d.leaves.map .condition ∧
      (Follows b d.parts ↔ NumberedFirst d.parts) := by
  obtain ⟨hw, hl⟩ := Draft.writes h hd
  exact ⟨hw.text, hw.params, d.written_parts, hl.numberedFirst hw, hl.follows hw hlen⟩

def fragmentDraft (sql : String) (vs : List Value) : Draft :=
  .statement (.delete "notes" ⟨.and, .condition ⟨"body", .eq, .single (.text "b")⟩
    (.condition ⟨sql, .raw, .sequence vs⟩ .nil)⟩)

theorem parts_fragmentDraft (sql : String) (vs : List Value) :
    (fragmentDraft sql vs).parts = [.fixed "delete from notes", .fixed " where ",
      .condition ⟨"body", .eq, .single (.text "b")⟩, .fixed " and ", .fixed "(",
      .condition ⟨sql, .raw, .sequence vs⟩, .fixed ")"] := rfl

theorem stands_fragmentDraft (sql : String) (h : Region.code.after sql.toList = .code)
    (vs : List Value) : (fragmentDraft sql vs).Stands := by
  refine ⟨by decide, fun c hc => ?_⟩
  rcases List.mem_pair.1 hc with rfl | rfl
  · show IsPlain "body"
    decide
  · exact h

theorem follows_bare_fragment :
    ∃ b, (fragmentDraft "tag = ? or extra = ?" [.text "v", .text "w"]).bind = .ok b ∧
      Follows b (fragmentDraft "tag = ? or extra = ?" [.text "v", .text "w"]).parts := by
  have hbind : (fragmentDraft "tag = ? or extra = ?" [.text "v", .text "w"]).bind =
      .ok ⟨"delete from notes where body = ? and (tag = ? or extra = ?)",
        [.text "b", .text "v", .text "w"], by decide +kernel⟩ := by rfl
  have hstands := stands_fragmentDraft "tag = ? or extra = ?" (by decide +kernel)
    [.text "v", .text "w"]
  refine ⟨_, hbind, (Draft.follows_iff hbind hstands (by decide)).2.2.2.2 ?_⟩
  intro before c after hps hraw n hn
  have hc : Part.condition c ∈
      (fragmentDraft "tag = ? or extra = ?" [.text "v", .text "w"]).parts := by simp [hps]
  rw [parts_fragmentDraft] at hc
  simp only [List.mem_cons, Part.condition.injEq, reduceCtorEq, List.not_mem_nil, or_false,
    false_or] at hc
  rcases hc with rfl | rfl
  · exact absurd hraw (by decide)
  · have hbare : (marksOf "tag = ? or extra = ?".toList).all (·.all (·.isNone)) = true := by
      decide +kernel
    simpa using List.all_eq_true.1 hbare _ hn

/-- The index in the fragment is one of the text in front of it, where the value of another
condition is. -/
theorem follows_numbered_fragment :
    ∃ b, (fragmentDraft "tag = ? or extra = ?1" [.text "v"]).bind = .ok b ∧
      (fragmentDraft "tag = ? or extra = ?1" [.text "v"]).Stands ∧
      b.params = [.text "b", .text "v"] ∧
      ¬ Follows b (fragmentDraft "tag = ? or extra = ?1" [.text "v"]).parts := by
  refine ⟨⟨"delete from notes where body = ? and (tag = ? or extra = ?1)",
    [.text "b", .text "v"], by decide +kernel⟩, by rfl,
    stands_fragmentDraft _ (by decide +kernel) _, rfl, fun h => ?_⟩
  have hlast := (h [.fixed "delete from notes", .fixed " where ",
      .condition ⟨"body", .eq, .single (.text "b")⟩, .fixed " and ", .fixed "("]
    (.condition ⟨"tag = ? or extra = ?1", .raw, .sequence [.text "v"]⟩) [.fixed ")"] rfl 19 1
    (by decide +kernel)).1
  exact absurd hlast (by decide +kernel)

end DataAccess.Sql
