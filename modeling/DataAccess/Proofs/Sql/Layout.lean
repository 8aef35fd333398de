import DataAccess.Proofs.Except
import DataAccess.Proofs.Sql.Numbering
import DataAccess.Proofs.Sql.Template
import DataAccess.Sql.Statement

/-!
The layout of written SQL. A statement is laid out as parts: fixed text, the placeholders of its
columns, and its conditions, where a fragment of SQL stands apart from its parentheses. Parts that
are joined where nothing runs on keep the placeholders that each has alone.
-/
namespace DataAccess.Sql

open Decimal (isDigit)

/-- The values that a condition binds; the tests for null ignore their operand. -/
def Condition.values (c : Condition) : List Value :=
  match c.comparator with
  | .isNull | .isNotNull => []
  | _ => c.operand.values

def Condition.text (c : Condition) : String :=
  if c.comparator = .raw then c.field
  else match c.fragment with
    | .ok f => f.text
    | .error _ => ""

inductive Part where
  | fixed (text : String)
  | column (name : String) (v : Value)
  | condition (c : Condition)

def Part.text : Part → List Char
  | .fixed text => text.toList
  | .column _ _ => ['?']
  | .condition c => c.text.toList

def Part.values : Part → List Value
  | .fixed _ => []
  | .column _ v => [v]
  | .condition c => c.values

def textOf (ps : List Part) : List Char := ps.flatMap Part.text

def valuesOf (ps : List Part) : List Value := ps.flatMap Part.values

def joinParts (separator : String) (items : List (List Part)) : List Part :=
  [Part.fixed separator].intercalate items

def Condition.parts (c : Condition) : List Part :=
  if c.comparator = .raw then [.fixed "(", .condition c, .fixed ")"] else [.condition c]

def Members.items : Members → List (List Part)
  | .nil => []
  | .condition c rest => c.parts :: rest.items
  | .group k inner rest =>
    if inner.isEmpty then rest.items
    else (.fixed "(" :: (joinParts k.separator inner.items ++ [.fixed ")"])) :: rest.items

def ConditionSet.parts (s : ConditionSet) : List Part :=
  if s.isEmpty then []
  else .fixed " where " :: joinParts s.connective.separator s.members.items

/-- What SQL is bound from: a statement, or a set of conditions behind a text. -/
inductive Draft where
  | statement (st : Statement)
  | conditions (start : String) (s : ConditionSet)

namespace Draft

def bind : Draft → Except Error Bound
  | .statement st => st.bind
  | .conditions start s => bindConditions start s

def parts : Draft → List Part
  | .statement (.select table s order) =>
    .fixed ("select * from " ++ table) :: (s.parts ++ [.fixed (orderClause order)])
  | .statement (.count table s) =>
    .fixed ("select count(0) as " ++ totalColumn ++ " from " ++ table) :: s.parts
  | .statement (.insert table columns) =>
    .fixed ("insert into " ++ table ++ " (" ++ String.intercalate ", " columns.names ++
        ") values (") ::
      (joinParts ", " (columns.map fun e => [.column e.1 e.2]) ++ [.fixed ")"])
  | .statement (.update table columns s) =>
    .fixed ("update " ++ table ++ " set ") ::
      (joinParts ", " (columns.map fun e => [.fixed (e.1 ++ " = "), .column e.1 e.2]) ++ s.parts)
  | .statement (.delete table s) => .fixed ("delete from " ++ table) :: s.parts
  | .conditions start s => .fixed start :: s.parts

def columns : Draft → Columns
  | .statement (.insert _ columns) => columns
  | .statement (.update _ columns _) => columns
  | _ => []

def leaves : Draft → List Condition
  | .statement (.select _ s _) => s.leaves
  | .statement (.count _ s) => s.leaves
  | .statement (.insert _ _) => []
  | .statement (.update _ _ s) => s.leaves
  | .statement (.delete _ s) => s.leaves
  | .conditions _ s => s.leaves

end Draft

/-- Text of characters that code is made of, whatever surrounds them, without placeholders. -/
def IsPlain (text : String) : Prop := ∀ c ∈ text.toList, isInert c = true ∧ c ≠ '?'

instance (text : String) : Decidable (IsPlain text) :=
  List.decidableBAll (fun c => isInert c = true ∧ c ≠ '?') text.toList

/-- Names of letters, digits, underscores and dots are plain. -/
theorem isPlain_of_isNameChar {name : String} (h : ∀ c ∈ name.toList, isNameChar c = true) :
    IsPlain name := by
  intro c hc
  refine ⟨isInert_of_isNameChar (h c hc), ?_⟩
  rintro rfl
  exact absurd (h _ hc) (by decide)

theorem IsPlain.append {s t : String} (hs : IsPlain s) (ht : IsPlain t) : IsPlain (s ++ t) := by
  intro c hc
  rw [String.toList_append, List.mem_append] at hc
  exact hc.elim (hs c) (ht c)

theorem IsPlain.intercalate {separator : String} (hs : IsPlain separator) {texts : List String}
    (h : ∀ t ∈ texts, IsPlain t) : IsPlain (separator.intercalate texts) := by
  induction texts with
  | nil =>
    intro c hc
    simp at hc
  | cons t texts ih =>
    have ht : IsPlain t := h t List.mem_cons_self
    have hrest := ih fun u hu => h u (List.mem_cons_of_mem t hu)
    by_cases hn : texts = []
    · rwa [hn, String.intercalate_singleton]
    · rw [String.intercalate_cons_of_ne_nil hn]
      exact (ht.append hs).append hrest

theorem IsPlain.after {text : String} (h : IsPlain text) :
    Region.code.after text.toList = .code := Region.after_inert fun c hc => (h c hc).1

theorem IsPlain.unmarked {text : String} (h : IsPlain text) : Unmarked text.toList := by
  have hmarks := marksOf_inert h []
  rw [List.append_nil] at hmarks
  intro m hm
  rw [hmarks] at hm
  exact (List.mem_append.1 hm).elim List.eq_of_mem_replicate (by simp [marksOf, scan, Region.scan,
    flaggedMarks])

theorem largestIndex_unmarked {text : List Char} (h : Unmarked text) :
    largestIndex 0 (marksOf text) = 0 := by
  have hnone {m : Mark} : some m ∉ marksOf text := fun hm => by cases h _ hm
  rw [largestIndex_bare fun n => hnone, List.count_eq_zero.2 hnone]

/-- Plain text in front is counted as nothing, whatever text follows it. -/
theorem countPlaceholders_plain {head : String} (h : IsPlain head) (rest : String) :
    countPlaceholders (head ++ rest) = countPlaceholders rest := by
  have hnone : ∀ m ∈ List.replicate head.toList.length (none : Option Mark), m = none := by simp
  rw [countPlaceholders_eq, countPlaceholders_eq, String.toList_append, marksOf_inert h,
    countFrom_append, countFrom_unmarked hnone]

/-- Nothing runs on into text that starts with one of these. -/
theorem joins_of_head {s t : List Char} (h : ∀ b ∈ t.head?, b ∈ [' ', ',', '(', ')', '?']) :
    Joins s t := by
  intro a _ b hb
  have hb := h b hb
  simp only [List.mem_cons, List.not_mem_nil, or_false] at hb
  rcases hb with rfl | rfl | rfl | rfl | rfl <;> simp [opensComment, runsOn, isDigit]

/-- Text that ends with one of these runs on into nothing. -/
theorem joins_of_last {s t : List Char} (h : ∀ a ∈ s.getLast?, a ∈ [' ', '(']) : Joins s t := by
  intro a ha b _
  have ha := h a ha
  simp only [List.mem_cons, List.not_mem_nil, or_false] at ha
  rcases ha with rfl | rfl <;> simp [opensComment, runsOn, isDigit]

structure IsSeparator (text : String) : Prop where
  plain : IsPlain text
  head : text.toList.head? ∈ [some ' ', some ',']
  last : text.toList.getLast? = some ' '

instance (text : String) : Decidable (IsSeparator text) :=
  decidable_of_iff (IsPlain text ∧ text.toList.head? ∈ [some ' ', some ','] ∧
      text.toList.getLast? = some ' ')
    ⟨fun ⟨hplain, hhead, hlast⟩ => ⟨hplain, hhead, hlast⟩,
      fun ⟨hplain, hhead, hlast⟩ => ⟨hplain, hhead, hlast⟩⟩

/-- Parts that keep their marks when joined, each with one value for every placeholder. -/
structure Laid (ps : List Part) : Prop where
  marks : marksOf (textOf ps) = ps.flatMap fun p => marksOf p.text
  code : Region.code.after (textOf ps) = .code
  counted : ∀ p ∈ ps, largestIndex 0 (marksOf p.text) < UInt64.size →
    largestIndex 0 (marksOf p.text) = p.values.length
  /-- Only fragments of SQL name indices. -/
  numbered : ∀ p ∈ ps, ∀ n, some (some n) ∈ marksOf p.text →
    ∃ c, p = .condition c ∧ c.comparator = .raw

@[simp] theorem textOf_append (ps qs : List Part) : textOf (ps ++ qs) = textOf ps ++ textOf qs :=
  List.flatMap_append

@[simp] theorem valuesOf_append (ps qs : List Part) :
    valuesOf (ps ++ qs) = valuesOf ps ++ valuesOf qs := List.flatMap_append

@[simp] theorem textOf_cons (p : Part) (ps : List Part) :
    textOf (p :: ps) = p.text ++ textOf ps := List.flatMap_cons

@[simp] theorem valuesOf_cons (p : Part) (ps : List Part) :
    valuesOf (p :: ps) = p.values ++ valuesOf ps := List.flatMap_cons

@[simp] theorem textOf_nil : textOf [] = [] := rfl

@[simp] theorem valuesOf_nil : valuesOf [] = [] := rfl

namespace Laid

theorem nil : Laid [] := ⟨rfl, rfl, by simp, by simp⟩

theorem singleton {p : Part} (hcode : Region.code.after p.text = .code)
    (hcount : largestIndex 0 (marksOf p.text) < UInt64.size →
      largestIndex 0 (marksOf p.text) = p.values.length)
    (hnumber : ∀ n, some (some n) ∈ marksOf p.text → ∃ c, p = .condition c ∧ c.comparator = .raw) :
    Laid [p] := by
  constructor
  · simp
  · simpa using hcode
  · simpa using hcount
  · simpa using hnumber

theorem append {ps qs : List Part} (hp : Laid ps) (hq : Laid qs)
    (h : Joins (textOf ps) (textOf qs)) : Laid (ps ++ qs) := by
  constructor
  · rw [textOf_append, marksOf_append hp.code h, hp.marks, hq.marks, List.flatMap_append]
  · rw [textOf_append, Region.after_append _ h.parted, hp.code, hq.code]
  · intro p hm
    exact (List.mem_append.1 hm).elim (hp.counted p) (hq.counted p)
  · intro p hm
    exact (List.mem_append.1 hm).elim (hp.numbered p) (hq.numbered p)

theorem unmarked {text : String} (hcode : Region.code.after text.toList = .code)
    (hmarks : Unmarked text.toList) : Laid [.fixed text] := by
  refine singleton hcode (fun _ => largestIndex_unmarked hmarks) fun n hn => ?_
  exact absurd (hmarks _ hn) (by simp)

theorem fixed {text : String} (h : IsPlain text) : Laid [.fixed text] :=
  unmarked h.after h.unmarked

theorem column (name : String) (v : Value) : Laid [.column name v] :=
  singleton rfl (fun _ => rfl) (by simp [Part.text, marksOf, scan, Region.scan, flaggedMarks, numberOf])

theorem inParentheses {ps : List Part} (h : Laid ps) :
    Laid (.fixed "(" :: (ps ++ [.fixed ")"])) := by
  have hopen : Laid [.fixed "("] := Laid.fixed (by decide)
  have hclose : Laid [.fixed ")"] := Laid.fixed (by decide)
  refine hopen.append (h.append hclose (joins_of_head ?_)) (joins_of_last ?_)
  · simp [Part.text]
  · simp [Part.text]

/-- Laid items stay laid when a separator joins them. -/
theorem join {separator : String} {items : List (List Part)} (h : ∀ ps ∈ items, Laid ps)
    (hseparator : IsSeparator separator) : Laid (joinParts separator items) := by
  obtain ⟨hplain, hhead, hlast⟩ := hseparator
  unfold joinParts
  induction items with
  | nil => exact nil
  | cons ps items ih =>
    have hps : Laid ps := h ps List.mem_cons_self
    have hrest := ih fun qs hq => h qs (List.mem_cons_of_mem ps hq)
    by_cases hn : items = []
    · rwa [hn, List.intercalate_singleton]
    · rw [List.intercalate_cons_of_ne_nil hn]
      refine (hps.append (fixed hplain) (joins_of_head ?_)).append hrest (joins_of_last ?_)
      · intro b hb
        have hb : separator.toList.head? = some b := by simpa [Part.text] using hb
        rw [hb] at hhead
        simp only [List.mem_cons, Option.some.injEq, List.not_mem_nil, or_false] at hhead ⊢
        tauto
      · intro a ha
        have ha : a = ' ' := by simpa [Part.text, hlast, List.getLast?_append] using ha.symm
        simp [ha]

end Laid

structure Tail (text : String) (n : Nat) : Prop where
  inert : ∀ c ∈ text.toList, isInert c = true ∧ isDigit c = false
  count : text.toList.count '?' = n

instance (text : String) (n : Nat) : Decidable (Tail text n) :=
  have := List.decidableBAll (fun c => isInert c = true ∧ isDigit c = false) text.toList
  decidable_of_iff
    ((∀ c ∈ text.toList, isInert c = true ∧ isDigit c = false) ∧ text.toList.count '?' = n)
    ⟨fun ⟨hinert, hcount⟩ => ⟨hinert, hcount⟩, fun ⟨hinert, hcount⟩ => ⟨hinert, hcount⟩⟩

namespace Tail

theorem append {s t : String} {m n : Nat} (hs : Tail s m) (ht : Tail t n) :
    Tail (s ++ t) (m + n) := by
  constructor
  · intro c hc
    rw [String.toList_append, List.mem_append] at hc
    exact hc.elim (hs.inert c) (ht.inert c)
  · rw [String.toList_append, List.count_append, hs.count, ht.count]

theorem placeholders (vs : List Value) : Tail (marks vs) vs.length := by
  unfold Sql.marks
  induction vs with
  | nil =>
    show Tail "" 0
    decide
  | cons v vs ih =>
    have hmark : Tail "?" 1 := by decide
    have hseparator : Tail ", " 0 := by decide
    by_cases hn : vs = []
    · rw [hn]
      exact hmark
    · rw [List.map_cons, String.intercalate_cons_of_ne_nil (by simpa using hn), List.length_cons,
        Nat.add_comm]
      exact Tail.append (m := 1) (hmark.append hseparator) ih

/-- Text without digits has bare placeholders alone. -/
theorem marksOf {text : String} {n : Nat} (h : Tail text n) :
    Sql.marksOf text.toList = text.toList.map fun c => if c = '?' then some none else none := by
  obtain ⟨hinert, -⟩ := h
  unfold Sql.marksOf scan
  generalize text.toList = s at hinert
  induction s with
  | nil => rfl
  | cons c s ih =>
    have hrest := ih fun d hd => hinert d (List.mem_cons_of_mem c hd)
    have hdigits : (Region.code.scan s).takeWhile (fun m => m.2 && isDigit m.1) = [] := by
      cases s with
      | nil => rfl
      | cons d s => simp [Region.scan, (hinert d (by simp)).2]
    rw [Region.scan, Region.step_inert (hinert c List.mem_cons_self).1, flaggedMarks, hdigits,
      hrest]
    simp [numberOf]

end Tail

theorem tail_operator (k : Comparator) : Tail (" " ++ k.operator?.getD "=" ++ " ?") 1 := by
  cases k <;> decide

theorem Tail.list {head : String} (h : Tail head 0) (vs : List Value) :
    Tail (head ++ marks vs ++ ")") vs.length := by
  have hclose : Tail ")" 0 := by decide
  simpa using (h.append (placeholders vs)).append hclose

/-- A condition that is not a fragment of SQL is written as its field and a tail. -/
theorem Condition.fragment_written {c : Condition} {f : Fragment} (h : c.fragment = .ok f)
    (hraw : c.comparator ≠ .raw) :
    f.params = c.values ∧
      ∃ tail, f.text = c.field ++ tail ∧ tail ≠ "" ∧ Tail tail f.params.length := by
  obtain ⟨field, k, operand⟩ := c
  unfold Condition.fragment at h
  unfold Condition.values
  dsimp only at h hraw ⊢
  split at h
  · have htail : Tail " is null" 0 := by decide
    cases h
    exact ⟨rfl, " is null", rfl, by decide, htail⟩
  · have htail : Tail " is not null" 0 := by decide
    cases h
    exact ⟨rfl, " is not null", rfl, by decide, htail⟩
  · rename_i vs
    have htail : Tail " in (" 0 := by decide
    split_ifs at h with hvs
    cases h
    exact ⟨rfl, _, by simp only [String.append_assoc], by simp, htail.list vs⟩
  · rename_i vs
    have htail : Tail " not in (" 0 := by decide
    split_ifs at h with hvs
    cases h
    exact ⟨rfl, _, by simp only [String.append_assoc], by simp, htail.list vs⟩
  · cases h
  · cases h
  · have htail : Tail " between ? and ?" 2 := by decide
    cases h
    exact ⟨rfl, " between ? and ?", rfl, by decide, htail⟩
  · cases h
  · exact absurd rfl hraw
  · rename_i v hnull hnotNull _ _ _ _
    have htail := tail_operator k
    cases h
    refine ⟨?_, " " ++ k.operator?.getD "=" ++ " ?", by simp only [String.append_assoc], by simp,
      htail⟩
    split
    · exact absurd rfl hnull
    · exact absurd rfl hnotNull
    · rfl
  · cases h

/-- A fragment of SQL ends as code; any other condition has a plain field. -/
def Condition.Stands (c : Condition) : Prop :=
  if c.comparator = .raw then Region.code.after c.field.toList = .code else IsPlain c.field

structure Fragment.Writes (f : Fragment) (ps : List Part) : Prop where
  text : f.text.toList = textOf ps
  params : f.params = valuesOf ps

/-- A fragment of SQL stands in parentheses. -/
theorem Condition.writes_raw {c : Condition} {f : Fragment} (h : c.fragment = .ok f)
    (hraw : c.comparator = .raw) (hc : Region.code.after c.field.toList = .code) :
    f.Writes [.fixed "(", .condition c, .fixed ")"] ∧
      Laid [.fixed "(", .condition c, .fixed ")"] := by
  have htext : c.text = c.field := if_pos hraw
  have hvalues : c.values = c.operand.values := by
    unfold Condition.values
    rw [hraw]
  unfold Condition.fragment at h
  rw [hraw] at h
  dsimp only at h
  split_ifs at h with hcount
  cases h
  refine ⟨⟨by simp [Part.text, htext], by simp [Part.values, hvalues]⟩, ?_⟩
  have hfield : Laid [.condition c] := by
    refine Laid.singleton ?_ ?_ fun n _ => ⟨c, rfl, hraw⟩
    · rwa [Part.text, htext]
    · rw [Part.text, htext, Part.values, hvalues]
      exact fun hword => (countPlaceholders_eq_largestIndex hword).symm.trans hcount
  exact hfield.inParentheses

/-- Any other condition is bare text. -/
theorem Condition.writes_written {c : Condition} {f : Fragment} (h : c.fragment = .ok f)
    (hraw : c.comparator ≠ .raw) (hc : IsPlain c.field) :
    f.Writes [.condition c] ∧ Laid [.condition c] ∧ textOf [.condition c] ≠ [] := by
  have htext : c.text = f.text := by
    unfold Condition.text
    rw [if_neg hraw, h]
  obtain ⟨hparams, tail, hf, hne, htail⟩ := Condition.fragment_written h hraw
  have hmarks : marksOf f.text.toList = List.replicate c.field.toList.length none ++
      tail.toList.map fun c => if c = '?' then some none else none := by
    rw [hf, String.toList_append, marksOf_inert hc, htail.marksOf]
  have hbare : ∀ n, some (some n) ∉ marksOf f.text.toList := by simp [hmarks]
  have hcount (s : List Char) : (s.map fun c =>
      if c = '?' then some (none : Mark) else none).count (some none) = s.count '?' := by
    unfold List.count
    rw [List.countP_map]
    apply List.countP_congr
    intro d _
    simp
  refine ⟨⟨by simp [Part.text, htext], by simp [Part.values, hparams]⟩, ?_, ?_⟩
  · refine Laid.singleton ?_ ?_ fun n hn => ?_
    · rw [Part.text, htext, hf, String.toList_append]
      apply Region.after_inert
      intro d hd
      exact (List.mem_append.1 hd).elim (fun hd => (hc d hd).1) fun hd => (htail.inert d hd).1
    · rw [Part.text, htext, largestIndex_bare hbare, hmarks, List.count_append, hcount, htail.count,
        Part.values, ← hparams]
      simp [List.count_replicate]
    · rw [Part.text, htext] at hn
      exact absurd hn (hbare n)
  · simpa [Part.text, htext, hf] using fun _ => hne

/-- A condition is written as its parts. -/
theorem Condition.writes {c : Condition} {f : Fragment} (h : c.fragment = .ok f)
    (hc : c.Stands) : f.Writes c.parts ∧ Laid c.parts ∧ textOf c.parts ≠ [] := by
  unfold Condition.Stands at hc
  unfold Condition.parts
  by_cases hraw : c.comparator = .raw
  · rw [if_pos hraw] at hc ⊢
    obtain ⟨hwrites, hlaid⟩ := Condition.writes_raw h hraw hc
    exact ⟨hwrites, hlaid, by simp [Part.text]⟩
  · rw [if_neg hraw] at hc ⊢
    exact Condition.writes_written h hraw hc

/-- Joined fragments are written as their joined parts. -/
theorem Fragment.Writes.join {fs : List Fragment} {items : List (List Part)}
    (h : List.Forall₂ Fragment.Writes fs items) (separator : String) :
    (Fragment.join separator fs).Writes (joinParts separator items) := by
  unfold Fragment.join joinParts
  induction h with
  | nil => exact ⟨by simp, rfl⟩
  | @cons f ps fs items hf hrest ih =>
    obtain ⟨hftext, hfparams⟩ := hf
    obtain ⟨htext, hparams⟩ := ih
    by_cases hn : items = []
    · subst hn
      cases hrest
      exact ⟨by simpa using hftext, by simpa using hfparams⟩
    · have hfs : fs ≠ [] := by
        rintro rfl
        cases hrest
        exact hn rfl
      constructor
      · rw [List.map_cons, String.intercalate_cons_of_ne_nil (by simpa using hfs),
          List.intercalate_cons_of_ne_nil hn]
        simp only at htext
        simp [htext, hftext, Part.text]
      · rw [List.intercalate_cons_of_ne_nil hn]
        simp only at hparams
        simp [hparams, hfparams, Part.values]

theorem Laid.join_members {items : List (List Part)} (h : ∀ ps ∈ items, Laid ps)
    (k : Connective) : Laid (joinParts k.separator items) := by
  have hseparator : IsSeparator k.separator := by cases k <;> decide
  exact Laid.join h hseparator

/-- The members are written as their items. -/
theorem Members.writes {ms : Members} {fs : List Fragment} (h : ms.fragments = .ok fs)
    (hms : ∀ c ∈ ms.leaves, c.Stands) :
    List.Forall₂ Fragment.Writes fs ms.items ∧
      ∀ ps ∈ ms.items, Laid ps ∧ textOf ps ≠ [] := by
  induction ms generalizing fs with
  | nil =>
    cases h
    exact ⟨.nil, by simp [Members.items]⟩
  | condition c rest ih =>
    unfold Members.fragments at h
    obtain ⟨f, hf, h⟩ := exists_of_bind_ok h
    obtain ⟨gs, hfs, h⟩ := exists_of_bind_ok h
    cases h
    obtain ⟨hwrites, hlaid⟩ := Condition.writes hf (hms c (by simp [Members.leaves]))
    obtain ⟨hrest, hlaids⟩ := ih hfs fun d hd => hms d (by simp [Members.leaves, hd])
    refine ⟨.cons hwrites hrest, ?_⟩
    intro ps hps
    rcases List.mem_cons.1 hps with rfl | hps
    · exact hlaid
    · exact hlaids ps hps
  | group k inner rest ihInner ihRest =>
    unfold Members.fragments at h
    unfold Members.items
    have hinner : ∀ d ∈ inner.leaves, d.Stands := fun d hd => hms d (by simp [Members.leaves, hd])
    have hrest : ∀ d ∈ rest.leaves, d.Stands := fun d hd => hms d (by simp [Members.leaves, hd])
    by_cases he : inner.isEmpty = true
    · rw [if_pos he] at h ⊢
      exact ihRest h hrest
    · rw [if_neg he] at h ⊢
      obtain ⟨gs, hf, h⟩ := exists_of_bind_ok h
      obtain ⟨hs, hfs, h⟩ := exists_of_bind_ok h
      cases h
      obtain ⟨hwrites, hlaid⟩ := ihInner hf hinner
      obtain ⟨hwritesRest, hlaidRest⟩ := ihRest hfs hrest
      obtain ⟨htext, hparams⟩ := Fragment.Writes.join hwrites k.separator
      refine ⟨.cons ?_ hwritesRest, ?_⟩
      · constructor
        · simp [Fragment.inParentheses, htext, Part.text]
        · simp [Fragment.inParentheses, hparams, Part.values]
      · intro ps hps
        rcases List.mem_cons.1 hps with rfl | hps
        · refine ⟨?_, by simp [Part.text]⟩
          exact (Laid.join_members (fun ps hps => (hlaid ps hps).1) k).inParentheses
        · exact hlaidRest ps hps

theorem Members.items_eq_nil_iff (ms : Members) : ms.items = [] ↔ ms.isEmpty = true := by
  induction ms with
  | nil => simp [Members.items, Members.isEmpty, Members.leaves]
  | condition c rest _ => simp [Members.items, Members.isEmpty, Members.leaves]
  | group k inner rest _ ih =>
    unfold Members.items
    by_cases he : inner.isEmpty = true
    · rw [if_pos he, ih]
      unfold Members.isEmpty at he ⊢
      simp only [List.isEmpty_iff] at he
      simp [Members.leaves, he]
    · rw [if_neg he]
      unfold Members.isEmpty at he ⊢
      simp only [List.isEmpty_iff] at he
      simp [Members.leaves, he]

theorem textOf_joinParts_ne_nil (separator : String) {items : List (List Part)}
    (hne : items ≠ []) (h : ∀ ps ∈ items, textOf ps ≠ []) :
    textOf (joinParts separator items) ≠ [] := by
  obtain ⟨ps, items, rfl⟩ := List.exists_cons_of_ne_nil hne
  have hps := h ps List.mem_cons_self
  unfold joinParts
  by_cases hn : items = []
  · simpa [hn] using hps
  · rw [List.intercalate_cons_of_ne_nil hn]
    simp [hps]

/-- A where clause is written as the parts of its set. -/
theorem ConditionSet.writes {s : ConditionSet} {f : Fragment} (h : s.whereClause = .ok f)
    (hs : ∀ c ∈ s.leaves, c.Stands) :
    f.Writes s.parts ∧ Laid s.parts ∧ ∀ b ∈ (textOf s.parts).head?, b = ' ' := by
  unfold ConditionSet.whereClause at h
  unfold ConditionSet.parts
  obtain ⟨f', hf, h⟩ := exists_of_bind_ok h
  obtain ⟨fs, hfs, hjoin⟩ := exists_of_bind_ok hf
  cases hjoin
  obtain ⟨hwrites, hlaid⟩ := Members.writes hfs hs
  have hjoined := Fragment.Writes.join hwrites s.connective.separator
  by_cases he : s.isEmpty = true
  · have hitems : s.members.items = [] := (Members.items_eq_nil_iff _).2 he
    rw [hitems] at hwrites
    cases hwrites
    rw [if_pos he]
    cases h
    refine ⟨⟨?_, ?_⟩, Laid.nil, by simp⟩
    · rfl
    · rfl
  · have hitems : s.members.items ≠ [] := fun hn => he ((Members.items_eq_nil_iff _).1 hn)
    have htext := textOf_joinParts_ne_nil s.connective.separator hitems fun ps hps =>
      (hlaid ps hps).2
    have hempty : ¬ (Fragment.join s.connective.separator fs).text.isEmpty = true := by
      rw [String.isEmpty_iff]
      intro hn
      apply htext
      rw [← hjoined.text, hn]
      rfl
    rw [if_neg he]
    have hf : f = ⟨" where " ++ (Fragment.join s.connective.separator fs).text,
        (Fragment.join s.connective.separator fs).params⟩ := by
      simpa [hempty, pure, Except.pure] using h.symm
    subst hf
    have hwhere : Laid [.fixed " where "] := Laid.fixed (by decide)
    have hbody := Laid.join_members (fun ps hps => (hlaid ps hps).1) s.connective
    refine ⟨⟨?_, ?_⟩, hwhere.append hbody (joins_of_last ?_), ?_⟩
    · simp [hjoined.text, Part.text]
    · simp [hjoined.params, Part.values]
    · simp [Part.text]
    · simp [Part.text]

structure Bound.Writes (b : Bound) (ps : List Part) : Prop where
  text : b.sql.toList = textOf ps
  params : b.params = valuesOf ps

theorem Bound.make_ok {sql : String} {params : List Value} {b : Bound}
    (h : Bound.make sql params = .ok b) : b.sql = sql ∧ b.params = params := by
  unfold Bound.make at h
  split_ifs at h
  cases h
  exact ⟨rfl, rfl⟩

/-- Conditions behind a text are written as the parts of the set behind it. -/
theorem writes_conditions {start : String} {s : ConditionSet} {f : Fragment}
    (h : s.whereClause = .ok f) (hstart : Laid [.fixed start]) (hs : ∀ c ∈ s.leaves, c.Stands) :
    Fragment.Writes ⟨start ++ f.text, f.params⟩ (.fixed start :: s.parts) ∧
      Laid (.fixed start :: s.parts) := by
  obtain ⟨hwrites, hlaid, hhead⟩ := ConditionSet.writes h hs
  refine ⟨⟨?_, ?_⟩, hstart.append hlaid (joins_of_head fun b hb => ?_)⟩
  · simp [hwrites.text, Part.text]
  · simp [hwrites.params, Part.values]
  · simp [hhead b hb]

theorem isPlain_orderClause {order : List OrderTerm} (h : ∀ t ∈ order, IsPlain t.column) :
    IsPlain (orderClause order) := by
  unfold orderClause
  split
  · decide
  · refine IsPlain.append (by decide) (IsPlain.intercalate (by decide) fun t ht => ?_)
    obtain ⟨term, hterm, rfl⟩ := List.mem_map.1 ht
    have hword : IsPlain term.direction.word := by cases term.direction <;> decide
    exact ((h term hterm).append (by decide)).append hword

theorem head_orderClause (order : List OrderTerm) :
    ∀ b ∈ (orderClause order).toList.head?, b = ' ' := by
  unfold orderClause
  split
  · simp
  · simp

/-- Each column written as a fragment, joined, is written as its parts. -/
theorem writes_columns (columns : Columns) (text : String → String)
    (parts : String × Value → List Part)
    (h : ∀ e ∈ columns, Fragment.Writes ⟨text e.1, [e.2]⟩ (parts e)) :
    (String.intercalate ", " (columns.names.map text)).toList =
        textOf (joinParts ", " (columns.map parts)) ∧
      columns.values = valuesOf (joinParts ", " (columns.map parts)) := by
  have hitems : List.Forall₂ Fragment.Writes
      (columns.map fun e => ⟨text e.1, [e.2]⟩) (columns.map parts) := by
    rw [List.forall₂_map_left_iff, List.forall₂_map_right_iff, List.forall₂_same]
    exact h
  obtain ⟨htext, hparams⟩ := Fragment.Writes.join hitems ", "
  constructor
  · rw [← htext]
    simp [Fragment.join, Columns.names, Function.comp_def]
  · rw [← hparams]
    simp only [Fragment.join, Columns.values, List.map_map]
    exact List.map_eq_flatMap.trans List.flatMap_def

theorem laid_columns (columns : Columns) (parts : String × Value → List Part)
    (h : ∀ e ∈ columns, Laid (parts e)) : Laid (joinParts ", " (columns.map parts)) := by
  refine Laid.join ?_ (by decide)
  intro ps hps
  obtain ⟨e, he, rfl⟩ := List.mem_map.1 hps
  exact h e he

theorem joins_of_suffix {text suffix : String} {t : List Char}
    (h : suffix.toList.getLast? ∈ [some ' ', some '(']) :
    Joins (textOf [.fixed (text ++ suffix)]) t := by
  refine joins_of_last fun a ha => ?_
  have htext : (textOf [.fixed (text ++ suffix)]).getLast? = suffix.toList.getLast? := by
    simp only [List.mem_cons, List.not_mem_nil, or_false] at h
    rcases h with h | h <;> simp [Part.text, h, List.getLast?_append]
  rw [← htext, Option.mem_def.1 ha] at h
  simpa using h

section Statements

variable {table : String} {columns : Columns} {s : ConditionSet} {f : Fragment}

theorem writes_select {order : List OrderTerm} (h : s.whereClause = .ok f)
    (htable : IsPlain table) (hs : ∀ c ∈ s.leaves, c.Stands)
    (horder : ∀ t ∈ order, IsPlain t.column) :
    Fragment.Writes ⟨"select * from " ++ table ++ f.text ++ orderClause order, f.params⟩
        (Draft.statement (.select table s order)).parts ∧
      Laid (Draft.statement (.select table s order)).parts := by
  obtain ⟨hwrites, hlaid, hhead⟩ := ConditionSet.writes h hs
  have hstart : Laid [.fixed ("select * from " ++ table)] :=
    Laid.fixed (.append (by decide) htable)
  have hend : Laid [.fixed (orderClause order)] := Laid.fixed (isPlain_orderClause horder)
  have hrest : Laid (s.parts ++ [.fixed (orderClause order)]) := by
    refine hlaid.append hend (joins_of_head fun c hc => ?_)
    simp [head_orderClause order c (by simpa [Part.text] using hc)]
  refine ⟨⟨?_, ?_⟩, hstart.append hrest (joins_of_head fun c hc => ?_)⟩
  · simp [Draft.parts, hwrites.text, Part.text]
  · simp [Draft.parts, hwrites.params, Part.values]
  · change c ∈ (textOf (s.parts ++ [.fixed (orderClause order)])).head? at hc
    rw [textOf_append] at hc
    cases hp : textOf s.parts with
    | nil => simp [head_orderClause order c (by simpa [hp, Part.text] using hc)]
    | cons d ds =>
      rw [hp] at hc hhead
      simp [hhead c (by simpa using hc)]

theorem writes_insert (htable : IsPlain table) (hcolumns : ∀ e ∈ columns, IsPlain e.1) :
    Fragment.Writes ⟨"insert into " ++ table ++ " (" ++ String.intercalate ", " columns.names ++
        ") values (" ++ marks columns.values ++ ")", columns.values⟩
        (Draft.statement (.insert table columns)).parts ∧
      Laid (Draft.statement (.insert table columns)).parts := by
  obtain ⟨htext, hvalues⟩ := writes_columns columns (fun _ => "?")
    (fun e => [.column e.1 e.2]) fun e _ => ⟨by simp [Part.text], rfl⟩
  have hmarks : marks columns.values =
      String.intercalate ", " (columns.names.map fun _ => "?") := by
    unfold marks Columns.values Columns.names
    rw [List.map_map, List.map_map]
    rfl
  have hlaid := laid_columns columns (fun e => [.column e.1 e.2])
    fun e _ => Laid.column e.1 e.2
  have hnames : IsPlain (String.intercalate ", " columns.names) := by
    refine IsPlain.intercalate (by decide) fun t ht => ?_
    obtain ⟨e, he, rfl⟩ := List.mem_map.1 ht
    exact hcolumns e he
  have hstart : Laid [.fixed ("insert into " ++ table ++ " (" ++
      String.intercalate ", " columns.names ++ ") values (")] := by
    have hopen : IsPlain ("insert into " ++ table ++ " (") :=
      .append (.append (by decide) htable) (by decide)
    exact Laid.fixed (.append (.append hopen hnames) (by decide))
  have hclose : Laid [.fixed ")"] := Laid.fixed (by decide)
  have hrest := hlaid.append hclose (joins_of_head (by simp [Part.text]))
  refine ⟨⟨?_, ?_⟩, hstart.append hrest (joins_of_suffix (by decide))⟩
  · simp only [Draft.parts, hmarks, String.toList_append, htext, textOf_cons, textOf_append,
      textOf_nil, Part.text, List.append_assoc, List.append_nil]
  · simp [Draft.parts, hvalues, Part.values]

theorem writes_update (h : s.whereClause = .ok f) (htable : IsPlain table)
    (hcolumns : ∀ e ∈ columns, IsPlain e.1) (hs : ∀ c ∈ s.leaves, c.Stands) :
    Fragment.Writes ⟨"update " ++ table ++ " set " ++
        String.intercalate ", " (columns.names.map (· ++ " = ?")) ++ f.text,
        columns.values ++ f.params⟩ (Draft.statement (.update table columns s)).parts ∧
      Laid (Draft.statement (.update table columns s)).parts := by
  obtain ⟨hwhere, hlaid, hhead⟩ := ConditionSet.writes h hs
  obtain ⟨htext, hvalues⟩ := writes_columns columns (· ++ " = ?")
    (fun e => [.fixed (e.1 ++ " = "), .column e.1 e.2]) fun e _ =>
      ⟨by simp [Part.text], rfl⟩
  have hassign := laid_columns columns
    (fun e => [.fixed (e.1 ++ " = "), .column e.1 e.2]) fun e he =>
      (Laid.fixed ((hcolumns e he).append (by decide))).append (Laid.column e.1 e.2)
        (joins_of_head (by simp [Part.text]))
  have hstart : Laid [.fixed ("update " ++ table ++ " set ")] :=
    Laid.fixed (.append (.append (by decide) htable) (by decide))
  have hrest := hassign.append hlaid (joins_of_head fun c hc => by simp [hhead c hc])
  refine ⟨⟨?_, ?_⟩, hstart.append hrest (joins_of_suffix (by decide))⟩
  · simp only [Draft.parts, String.toList_append, htext, hwhere.text, textOf_cons,
      textOf_append, Part.text, List.append_assoc]
  · simp [Draft.parts, hvalues, hwhere.params, Part.values]

end Statements

namespace Draft

/-- The names are plain, fragments of SQL end as code, and so does the text in front of a set,
which has no placeholder. -/
def Stands : Draft → Prop
  | .statement (.select table s order) =>
    IsPlain table ∧ (∀ c ∈ s.leaves, c.Stands) ∧ ∀ t ∈ order, IsPlain t.column
  | .statement (.count table s) => IsPlain table ∧ ∀ c ∈ s.leaves, c.Stands
  | .statement (.insert table columns) => IsPlain table ∧ ∀ e ∈ columns, IsPlain e.1
  | .statement (.update table columns s) =>
    IsPlain table ∧ (∀ e ∈ columns, IsPlain e.1) ∧ ∀ c ∈ s.leaves, c.Stands
  | .statement (.delete table s) => IsPlain table ∧ ∀ c ∈ s.leaves, c.Stands
  | .conditions start s =>
    Region.code.after start.toList = .code ∧ Unmarked start.toList ∧ ∀ c ∈ s.leaves, c.Stands

def HasColumns : Draft → Prop
  | .statement (.insert _ columns) | .statement (.update _ columns _) => columns ≠ []
  | _ => True

def filter : Draft → ConditionSet
  | .statement (.select _ s _) => s
  | .statement (.count _ s) => s
  | .statement (.insert _ _) => .all
  | .statement (.update _ _ s) => s
  | .statement (.delete _ s) => s
  | .conditions _ s => s

variable {d : Draft}

theorem leaves_filter (d : Draft) : d.filter.leaves = d.leaves := by
  cases d with
  | conditions start s => rfl
  | statement st => cases st <;> rfl

theorem hasColumns_of_ok {b : Bound} (h : d.bind = .ok b) : d.HasColumns := by
  cases d with
  | conditions start s => trivial
  | statement st =>
    cases st with
    | insert table columns =>
      rintro rfl
      cases h
    | update table columns s =>
      rintro rfl
      cases h
    | _ => trivial

def around : Draft → Fragment → Fragment
  | .statement (.select table _ order), f =>
    ⟨"select * from " ++ table ++ f.text ++ orderClause order, f.params⟩
  | .statement (.count table _), f =>
    ⟨"select count(0) as " ++ totalColumn ++ " from " ++ table ++ f.text, f.params⟩
  | .statement (.insert table columns), _ =>
    ⟨"insert into " ++ table ++ " (" ++ String.intercalate ", " columns.names ++ ") values (" ++
      marks columns.values ++ ")", columns.values⟩
  | .statement (.update table columns _), f =>
    ⟨"update " ++ table ++ " set " ++ String.intercalate ", " (columns.names.map (· ++ " = ?")) ++
      f.text, columns.values ++ f.params⟩
  | .statement (.delete table _), f => ⟨"delete from " ++ table ++ f.text, f.params⟩
  | .conditions start _, f => ⟨start ++ f.text, f.params⟩

/-- Once the where clause is written, what is left is to count placeholders. -/
theorem bind_eq (h : d.HasColumns) :
    d.bind = d.filter.whereClause >>= fun f => Bound.make (d.around f).text (d.around f).params := by
  cases d with
  | conditions start s => rfl
  | statement st =>
    cases st with
    | insert table columns =>
      have hne : ¬ columns.isEmpty = true := mt List.isEmpty_iff.1 h
      have hall : ConditionSet.all.whereClause = .ok ⟨"", []⟩ := rfl
      rw [bind, Statement.bind, if_neg hne, filter, hall, ok_bind]
      dsimp only [around]
    | update table columns s =>
      have hne : ¬ columns.isEmpty = true := mt List.isEmpty_iff.1 h
      rw [bind, Statement.bind, if_neg hne]
      rfl
    | _ => rfl

/-- A draft with its where clause is written as its parts. -/
theorem writes_around {f : Fragment} (h : d.filter.whereClause = .ok f) (hd : d.Stands) :
    (d.around f).Writes d.parts ∧ Laid d.parts := by
  cases d with
  | conditions start s =>
    obtain ⟨hcode, hmarks, hs⟩ := hd
    exact writes_conditions h (.unmarked hcode hmarks) hs
  | statement st =>
    cases st with
    | select table s order =>
      obtain ⟨htable, hs, horder⟩ := hd
      exact writes_select h htable hs horder
    | count table s =>
      obtain ⟨htable, hs⟩ := hd
      exact writes_conditions h (.fixed (.append (by decide) htable)) hs
    | insert table columns =>
      obtain ⟨htable, hnames⟩ := hd
      exact writes_insert htable hnames
    | update table columns s =>
      obtain ⟨htable, hnames, hs⟩ := hd
      exact writes_update h htable hnames hs
    | delete table s =>
      obtain ⟨htable, hs⟩ := hd
      exact writes_conditions h (.fixed (.append (by decide) htable)) hs

/-- What a draft binds is written as its parts, which are laid. -/
theorem writes {b : Bound} (h : d.bind = .ok b) (hd : d.Stands) :
    b.Writes d.parts ∧ Laid d.parts := by
  rw [bind_eq (hasColumns_of_ok h)] at h
  obtain ⟨f, hf, hmake⟩ := exists_of_bind_ok h
  obtain ⟨hwrites, hlaid⟩ := writes_around hf hd
  generalize d.around f = g at hmake hwrites
  obtain ⟨hsql, hparams⟩ := Bound.make_ok hmake
  exact ⟨⟨hsql ▸ hwrites.text, hparams ▸ hwrites.params⟩, hlaid⟩

end Draft

end DataAccess.Sql
