import DataAccess.Proofs.Sql.Layout
import DataAccess.Proofs.Sql.Lexing

/-!
Reading what is written. A condition is read as one leaf, a group as one operand, and the members of a
set as their trees, joined from the left, so that the leaves are the conditions in their order.
-/
namespace DataAccess.Sql

def Condition.Fits (c : Condition) : Prop :=
  match c.comparator with
  | .isNull | .isNotNull => True
  | .isIn | .notIn => ∃ vs, c.operand = .sequence vs ∧ vs ≠ []
  | .between => ∃ low high, c.operand = .sequence [low, high]
  | .raw => countPlaceholders c.field = c.operand.values.length
  | _ => ∃ v, c.operand = .single v

/-- The field is a name, or a fragment of SQL that stays in its parentheses. -/
def Condition.IsReadable (c : Condition) : Prop :=
  if c.comparator = .raw then IsInline c.field else IsName c.field

instance (c : Condition) : Decidable c.IsReadable :=
  inferInstanceAs (Decidable (if c.comparator = .raw then IsInline c.field else IsName c.field))

def Condition.leaf (c : Condition) : Leaf :=
  if c.comparator = .raw then .fragment c.field
  else .test c.field c.comparator c.values.length

def Condition.marked (c : Condition) : MarkedText :=
  if c.comparator = .raw then ('(', true) :: unmarked (c.field ++ ")") else unmarked c.text

def Comparator.tail (vs : List Value) : Comparator → String
  | .isNull => " is null"
  | .isNotNull => " is not null"
  | .isIn => " in (" ++ marks vs ++ ")"
  | .notIn => " not in (" ++ marks vs ++ ")"
  | .between => " between ? and ?"
  | k => " " ++ k.operator?.getD "=" ++ " ?"

theorem Condition.fragment_of_fits {c : Condition} (h : c.Fits) (hraw : c.comparator ≠ .raw) :
    c.fragment = .ok ⟨c.field ++ c.comparator.tail c.values, c.values⟩ := by
  obtain ⟨field, k, operand⟩ := c
  unfold Fits at h
  dsimp only at h hraw
  cases k with
  | isNull | isNotNull => rfl
  | isIn | notIn =>
    obtain ⟨vs, rfl, hvs⟩ := h
    simp [fragment, values, Comparator.tail, Operand.values, hvs, String.append_assoc]
  | between =>
    obtain ⟨low, high, rfl⟩ := h
    rfl
  | raw => exact absurd rfl hraw
  | _ =>
    obtain ⟨v, rfl⟩ := h
    simp [fragment, values, Comparator.tail, Operand.values, String.append_assoc]

theorem Condition.fragment_of_fits_raw {c : Condition} (h : c.Fits) (hraw : c.comparator = .raw) :
    c.fragment = .ok ⟨"(" ++ c.field ++ ")", c.operand.values⟩ := by
  unfold Fits at h
  unfold fragment
  rw [hraw] at h ⊢
  exact if_pos h

theorem Condition.takes_of_fits {c : Condition} (h : c.Fits) (hraw : c.comparator ≠ .raw) :
    c.comparator.Takes c.values.length := by
  obtain ⟨field, k, operand⟩ := c
  unfold Fits at h
  dsimp only at h hraw
  cases k with
  | isNull | isNotNull => rfl
  | isIn | notIn =>
    obtain ⟨vs, rfl, hvs⟩ := h
    exact List.length_pos_of_ne_nil hvs
  | between =>
    obtain ⟨low, high, rfl⟩ := h
    rfl
  | raw => exact absurd rfl hraw
  | _ =>
    obtain ⟨v, rfl⟩ := h
    rfl

theorem closes_marks (vs : List Value) : Closes (unmarked (marks vs)) (Token.list vs.length) := by
  have hmark : Closes (unmarked "?") [.mark] := by decide +kernel
  have hcomma : Closes (unmarked ", ") [.comma] := by decide +kernel
  unfold marks
  induction vs with
  | nil => rfl
  | cons v vs ih =>
    cases vs with
    | nil =>
      rw [List.map_singleton, String.intercalate_singleton]
      exact hmark
    | cons w vs =>
      rw [List.map_cons, String.intercalate_cons_of_ne_nil (by simp), unmarked_append,
        unmarked_append]
      exact (hmark.append hcomma).append ih

def Comparator.fixed : List Comparator := [.eq, .ne, .gt, .ge, .lt, .le, .like, .notLike, .between]

theorem Comparator.lexes_fixed {k : Comparator} (h : k ∈ fixed) (vs : List Value) :
    Lexes (unmarked (k.tail vs)) (k.tokens vs.length) := by
  have hall : ∀ k ∈ fixed, Closes (unmarked (k.tail [])) (k.tokens 0) := by decide +kernel
  have hk := hall k h
  have htail : k.tail vs = k.tail [] ∧ k.tokens vs.length = k.tokens 0 := by
    cases k with
    | isIn | notIn | isNull | isNotNull | raw => simp [fixed] at h
    | _ => exact ⟨rfl, rfl⟩
  rw [htail.1, htail.2]
  exact hk.lexes

theorem Comparator.lexes_tail {k : Comparator} (hraw : k ≠ .raw) (vs : List Value) :
    Lexes (unmarked (k.tail vs)) (k.tokens vs.length) := by
  have hclose : Closes (unmarked ")") [.rightParen] := by decide +kernel
  cases k with
  | isNull =>
    have htext : " is null" = " is " ++ Keyword.null.text := by decide +kernel
    have his : Closes (unmarked " is ") [.keyword .is] := by decide +kernel
    show Lexes (unmarked " is null") _
    rw [htext, unmarked_append]
    exact his.append_lexes (Keyword.lexes .null)
  | isNotNull =>
    have htext : " is not null" = " is not " ++ Keyword.null.text := by decide +kernel
    have his : Closes (unmarked " is not ") [.keyword .is, .keyword .not] := by decide +kernel
    show Lexes (unmarked " is not null") _
    rw [htext, unmarked_append]
    exact his.append_lexes (Keyword.lexes .null)
  | isIn =>
    have hopen : Closes (unmarked " in (") [.keyword .in, .leftParen] := by decide +kernel
    unfold tail
    rw [unmarked_append, unmarked_append, List.append_assoc]
    exact (hopen.append ((closes_marks vs).append hclose)).lexes
  | notIn =>
    have hopen : Closes (unmarked " not in (") [.keyword .not, .keyword .in, .leftParen] := by
      decide +kernel
    unfold tail
    rw [unmarked_append, unmarked_append, List.append_assoc]
    exact (hopen.append ((closes_marks vs).append hclose)).lexes
  | raw => exact absurd rfl hraw
  | _ => exact lexes_fixed (by decide) vs

theorem Comparator.head_tail (k : Comparator) (vs : List Value) :
    (unmarked (k.tail vs)).head? = some (' ', false) := by
  cases k <;> simp [tail, unmarked]

/-- A readable condition is written, and its text is one leaf. -/
theorem Condition.reads {c : Condition} (hfits : c.Fits) (h : c.IsReadable) :
    (∃ f, c.fragment = .ok f ∧ f.text.toList = c.marked.map Prod.fst) ∧
      Lexes c.marked c.leaf.tokens ∧ c.leaf.IsWritten := by
  unfold IsReadable at h
  by_cases hraw : c.comparator = .raw
  · rw [if_pos hraw] at h
    have hfragment := fragment_of_fits_raw hfits hraw
    unfold marked leaf
    rw [if_pos hraw, if_pos hraw]
    refine ⟨⟨_, hfragment, ?_⟩, h.closes.lexes, trivial⟩
    simp [unmarked, Function.comp_def]
  · rw [if_neg hraw] at h
    have hfragment := fragment_of_fits hfits hraw
    have htext : c.text = c.field ++ c.comparator.tail c.values := by
      unfold text
      rw [if_neg hraw, hfragment]
    unfold marked leaf
    rw [if_neg hraw, if_neg hraw, htext]
    refine ⟨⟨_, hfragment, ?_⟩, ?_, takes_of_fits hfits hraw⟩
    · simp [unmarked, Function.comp_def]
    · rw [unmarked_append]
      refine h.lexes.append (Comparator.lexes_tail hraw c.values) fun b hb => ?_
      rw [Comparator.head_tail] at hb
      cases hb
      decide +kernel

def joinMarked (k : Connective) (items : List MarkedText) : MarkedText :=
  (unmarked k.separator).intercalate items

/-- The written members, without the groups that hold no condition. -/
def Members.marked : Members → List MarkedText
  | .nil => []
  | .condition c rest => c.marked :: rest.marked
  | .group k inner rest =>
    if inner.isEmpty then rest.marked
    else (('(', false) :: (joinMarked k inner.marked ++ [(')', false)])) :: rest.marked

/-- The where clause, where the parentheses of fragments are marked. -/
def ConditionSet.marked (s : ConditionSet) : MarkedText :=
  if s.isEmpty then [] else unmarked " where " ++ joinMarked s.connective s.members.marked

def Connective.node : Connective → Tree → Tree → Tree
  | .and => .and
  | .or => .or

def Members.trees : Members → List Tree
  | .nil => []
  | .condition c rest => .leaf c.leaf :: rest.trees
  | .group k inner rest =>
    match inner.trees with
    | [] => rest.trees
    | t :: ts => ts.foldl k.node t :: rest.trees

def Reads (text : MarkedText) (t : Tree) : Prop := ∃ ts, Lexes text ts ∧ Derives .operand ts t

theorem map_joinMarked (k : Connective) (items : List MarkedText) :
    (joinMarked k items).map Prod.fst =
      k.separator.toList.intercalate (items.map (·.map Prod.fst)) := by
  unfold joinMarked
  induction items with
  | nil => rfl
  | cons item items ih =>
    by_cases hn : items = []
    · simp [hn]
    · rw [List.intercalate_cons_of_ne_nil hn, List.map_cons,
        List.intercalate_cons_of_ne_nil (by simpa using hn), List.map_append, List.map_append, ih]
      simp [unmarked, Function.comp_def]

theorem Members.fragments_of_fits {ms : Members}
    (h : ∀ c ∈ ms.leaves, ∃ f, c.fragment = .ok f ∧ f.text.toList = c.marked.map Prod.fst) :
    ∃ fs, ms.fragments = .ok fs ∧
      fs.map (·.text.toList) = ms.marked.map (·.map Prod.fst) := by
  induction ms with
  | nil => exact ⟨[], rfl, rfl⟩
  | condition c rest ih =>
    obtain ⟨f, hf, htext⟩ := h c (by simp [leaves])
    obtain ⟨fs, hfs, htexts⟩ := ih fun d hd => h d (by simp [leaves, hd])
    refine ⟨f :: fs, ?_, ?_⟩
    · simp [fragments, hf, hfs, bind, Except.bind, pure, Except.pure]
    · simp [marked, htext, htexts]
  | group k inner rest ihInner ihRest =>
    obtain ⟨gs, hgs, hinner⟩ := ihInner fun d hd => h d (by simp [leaves, hd])
    obtain ⟨fs, hfs, htexts⟩ := ihRest fun d hd => h d (by simp [leaves, hd])
    unfold fragments marked
    by_cases he : inner.isEmpty = true
    · rw [if_pos he, if_pos he]
      exact ⟨fs, hfs, htexts⟩
    · rw [if_neg he, if_neg he]
      refine ⟨(Fragment.join k.separator gs).inParentheses :: fs, ?_, ?_⟩
      · simp [hgs, hfs, bind, Except.bind, pure, Except.pure]
      · simp only [List.map_cons, htexts, Fragment.inParentheses, Fragment.join,
          String.toList_append, String.toList_intercalate, List.map_append, List.map_nil,
          map_joinMarked, ← hinner, List.map_map, Function.comp_def]
        rfl

def Connective.keyword : Connective → Keyword
  | .and => .and
  | .or => .or

def Connective.strength : Connective → Strength
  | .and => .conjunction
  | .or => .disjunction

namespace Derives

variable {ts us : List Token} {a b : Tree}

theorem start (k : Connective) (h : Derives .operand ts a) : Derives k.strength ts a := by
  cases k with
  | and => exact .operand h
  | or => exact .conjunction (.operand h)

theorem node (k : Connective) (ha : Derives k.strength ts a) (hb : Derives .operand us b) :
    Derives k.strength (ts ++ .keyword k.keyword :: us) (k.node a b) := by
  cases k with
  | and => exact .and ha hb
  | or => exact .or ha (.operand hb)

theorem disjunction (k : Connective) (h : Derives k.strength ts a) :
    Derives .disjunction ts a := by
  cases k with
  | and => exact .conjunction h
  | or => exact h

end Derives

theorem joinMarked_cons (k : Connective) (item : MarkedText) (items : List MarkedText) :
    joinMarked k (item :: items) = item ++ items.flatMap (unmarked k.separator ++ ·) := by
  unfold joinMarked
  induction items generalizing item with
  | nil => simp
  | cons next items ih =>
    rw [List.intercalate_cons_of_ne_nil (List.cons_ne_nil next items), ih]
    simp

theorem closes_separator (k : Connective) :
    Closes (unmarked k.separator) [.keyword k.keyword] := by
  cases k <;> decide +kernel

theorem head_separator (k : Connective) (text : MarkedText) :
    ∀ c ∈ (unmarked k.separator ++ text).head?, isBreak c = true := by
  have hhead : (unmarked k.separator).head? = some (' ', false) := by cases k <;> decide +kernel
  intro c hc
  rw [List.head?_append, hhead] at hc
  cases hc
  decide +kernel

/-- Operands behind others with the same connective. -/
theorem reads_joined (k : Connective) {text : MarkedText} {ts : List Token} {t : Tree}
    {items : List MarkedText} {trees : List Tree} (hlex : Lexes text ts)
    (h : Derives k.strength ts t) (hitems : List.Forall₂ Reads items trees) :
    ∃ us, Lexes (text ++ items.flatMap (unmarked k.separator ++ ·)) us ∧
      Derives k.strength us (trees.foldl k.node t) := by
  -- The text grows at its end, as equal operators group from the left.
  induction hitems generalizing text ts t with
  | nil => exact ⟨ts, by simpa using hlex, h⟩
  | @cons item tree items trees hread _ ih =>
    obtain ⟨us, hus, htree⟩ := hread
    have hnext := hlex.append ((closes_separator k).append_lexes hus) (head_separator k item)
    obtain ⟨vs, hvs, hall⟩ := ih hnext (h.node k htree)
    refine ⟨vs, ?_, hall⟩
    simpa using hvs

/-- The members of a set are read as the trees of its members, joined from the left. -/
theorem reads_joinMarked (k : Connective) {items : List MarkedText} {t : Tree} {ts : List Tree}
    (h : List.Forall₂ Reads items (t :: ts)) :
    ∃ us, Lexes (joinMarked k items) us ∧ Derives .disjunction us (ts.foldl k.node t) := by
  cases h with
  | cons hfirst hrest =>
    obtain ⟨us, hus, htree⟩ := hfirst
    obtain ⟨vs, hvs, hall⟩ := reads_joined k hus (htree.start k) hrest
    rw [joinMarked_cons]
    exact ⟨vs, hvs, hall.disjunction k⟩

theorem Members.trees_eq_nil_iff (ms : Members) : ms.trees = [] ↔ ms.isEmpty = true := by
  induction ms with
  | nil => exact ⟨fun _ => rfl, fun _ => rfl⟩
  | condition c rest _ => simp [trees, isEmpty, leaves]
  | group k inner rest ihInner ihRest =>
    unfold isEmpty at ihInner ihRest ⊢
    rw [List.isEmpty_iff] at ihInner ihRest ⊢
    unfold trees leaves
    cases htrees : inner.trees with
    | nil => simp [ihInner.1 htrees, ihRest]
    | cons t ts =>
      have hinner : inner.leaves ≠ [] := fun hn => List.cons_ne_nil t ts (htrees ▸ ihInner.2 hn)
      simp [hinner]

theorem Members.reads {ms : Members}
    (h : ∀ c ∈ ms.leaves, Lexes c.marked c.leaf.tokens ∧ c.leaf.IsWritten) :
    List.Forall₂ Reads ms.marked ms.trees := by
  induction ms with
  | nil => exact .nil
  | condition c rest ih =>
    obtain ⟨hlex, hwritten⟩ := h c (by simp [leaves])
    exact .cons ⟨_, hlex, .leaf hwritten⟩ (ih fun d hd => h d (by simp [leaves, hd]))
  | group k inner rest ihInner ihRest =>
    have hinner := ihInner fun d hd => h d (by simp [leaves, hd])
    have hrest := ihRest fun d hd => h d (by simp [leaves, hd])
    have hempty := inner.trees_eq_nil_iff
    unfold marked trees
    cases htrees : inner.trees with
    | nil =>
      rw [if_pos (hempty.1 htrees)]
      exact hrest
    | cons t ts =>
      rw [if_neg fun he => List.cons_ne_nil t ts (htrees ▸ hempty.2 he)]
      rw [htrees] at hinner
      obtain ⟨us, hus, htree⟩ := reads_joinMarked k hinner
      have hopen : Closes [('(', false)] [.leftParen] := by decide +kernel
      have hclose : Closes [(')', false)] [.rightParen] := by decide +kernel
      refine .cons ⟨_, hopen.append_lexes (hus.append hclose.lexes ?_), .group htree⟩ hrest
      decide +kernel

theorem leaves_node (k : Connective) (a b : Tree) :
    (k.node a b).leaves = a.leaves ++ b.leaves := by cases k <;> rfl

theorem leaves_foldl (k : Connective) (t : Tree) (ts : List Tree) :
    (ts.foldl k.node t).leaves = t.leaves ++ ts.flatMap Tree.leaves := by
  induction ts generalizing t with
  | nil => simp
  | cons u ts ih => rw [List.foldl_cons, ih, leaves_node, List.flatMap_cons, List.append_assoc]

/-- The leaves are the conditions in their order. -/
theorem Members.leaves_trees (ms : Members) :
    ms.trees.flatMap Tree.leaves = ms.leaves.map Condition.leaf := by
  induction ms with
  | nil => rfl
  | condition c rest ih => simp [trees, leaves, Tree.leaves, ih]
  | group k inner rest ihInner ihRest =>
    unfold trees leaves
    rw [List.map_append, ← ihInner, ← ihRest]
    cases inner.trees with
    | nil => rfl
    | cons t ts => simp [leaves_foldl]

/-- The tree of a where clause. -/
def readClause (text : MarkedText) : Option Tree :=
  (lex text).bind fun
    | .keyword .where :: ts => parse ts
    | _ => none

section

variable {text : MarkedText} {ts : List Token} {t : Tree}

/-- The tree is the one that the grammar has for the tokens behind `where`. -/
theorem readClause_eq_some_iff : readClause text = some t ↔
    ∃ ts, lex text = some (.keyword .where :: ts) ∧ Derives .disjunction ts t := by
  unfold readClause
  constructor
  · intro h
    obtain ⟨ts, hlex, hparse⟩ := Option.bind_eq_some_iff.1 h
    split at hparse
    · exact ⟨_, hlex, parse_eq_some_iff.1 hparse⟩
    · cases hparse
  · rintro ⟨ts, hlex, hderives⟩
    rw [hlex]
    exact parse_eq_some_iff.2 hderives

theorem readClause_where (hlex : Lexes text ts) (h : Derives .disjunction ts t) :
    readClause (unmarked " where " ++ text) = some t := by
  have hwhere : Closes (unmarked " where ") [.keyword .where] := by decide +kernel
  exact readClause_eq_some_iff.2 ⟨ts, (hwhere.append_lexes hlex).lex, h⟩

theorem ne_nil_of_reads (hlex : Lexes text ts) (h : Derives .disjunction ts t) : text ≠ [] := by
  rintro rfl
  have hnil : ts = [] := Option.some.inj (hlex.lex.symm.trans rfl)
  rw [hnil] at h
  cases parse_eq_some_iff.2 h

end

end DataAccess.Sql
