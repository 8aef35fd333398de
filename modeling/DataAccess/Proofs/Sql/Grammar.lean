import DataAccess.Sql.Condition
import Mathlib.Data.List.Basic
import Mathlib.Tactic.Common

/-!
The grammar of conditions in SQL. Tests are joined by `or`, which binds loosest, and by `and`;
parentheses hold a condition of their own, but for those of lists, and `between` has an `and` of
its own. Reading finds the tree of a condition just when the grammar has one, so there is one at most.
-/
namespace DataAccess.Sql

inductive Keyword where
  | «where» | and | or | not | is | null | like | «in» | between
deriving DecidableEq, Repr

inductive Sign where
  | eq | ne | gt | ge | lt | le
deriving DecidableEq, Repr

inductive Token where
  | keyword (k : Keyword)
  | name (s : String)
  | sign (s : Sign)
  /-- A placeholder. -/
  | mark
  | comma
  | leftParen
  | rightParen
  /-- A fragment of SQL in its parentheses. -/
  | fragment (text : String)
deriving DecidableEq, Repr

def Sign.comparator : Sign → Comparator
  | .eq => .eq
  | .ne => .ne
  | .gt => .gt
  | .ge => .ge
  | .lt => .lt
  | .le => .le

def Token.list : Nat → List Token
  | 0 => []
  | n + 1 => .mark :: (List.replicate n [.comma, .mark]).flatten

theorem Token.list_concat (n : Nat) : list (n + 2) = list (n + 1) ++ [.comma, .mark] := by
  have hitems : (List.replicate (n + 1) [Token.comma, .mark]).flatten =
      (List.replicate n [Token.comma, .mark]).flatten ++ [.comma, .mark] := by
    rw [List.replicate_succ', List.flatten_append]
    rfl
  exact congrArg (Token.mark :: ·) hitems

/-- What a test has behind its field, with a number of placeholders. -/
def Comparator.tokens (n : Nat) : Comparator → List Token
  | .eq => [.sign .eq, .mark]
  | .ne => [.sign .ne, .mark]
  | .gt => [.sign .gt, .mark]
  | .ge => [.sign .ge, .mark]
  | .lt => [.sign .lt, .mark]
  | .le => [.sign .le, .mark]
  | .like => [.keyword .like, .mark]
  | .notLike => [.keyword .not, .keyword .like, .mark]
  | .isIn => .keyword .in :: .leftParen :: (Token.list n ++ [.rightParen])
  | .notIn => .keyword .not :: .keyword .in :: .leftParen :: (Token.list n ++ [.rightParen])
  | .isNull => [.keyword .is, .keyword .null]
  | .isNotNull => [.keyword .is, .keyword .not, .keyword .null]
  | .between => [.keyword .between, .mark, .keyword .and, .mark]
  | .raw => []

def Comparator.Takes (n : Nat) : Comparator → Prop
  | .isIn | .notIn => 1 ≤ n
  | .isNull | .isNotNull => n = 0
  | .between => n = 2
  | .raw => False
  | _ => n = 1

inductive Leaf where
  | test (field : String) (comparator : Comparator) (count : Nat)
  | fragment (text : String)
deriving DecidableEq, Repr

def Leaf.tokens : Leaf → List Token
  | .test field k n => .name field :: k.tokens n
  | .fragment text => [.fragment text]

def Leaf.IsWritten : Leaf → Prop
  | .test _ k n => k.Takes n
  | .fragment _ => True

inductive Tree where
  | leaf (l : Leaf)
  | and (a b : Tree)
  | or (a b : Tree)
deriving DecidableEq, Repr

def Tree.leaves : Tree → List Leaf
  | .leaf l => [l]
  | .and a b | .or a b => a.leaves ++ b.leaves

inductive Strength where
  | disjunction | conjunction | operand

/-- Tokens have a tree. Equal operators group from the left. -/
inductive Derives : Strength → List Token → Tree → Prop
  | leaf {l : Leaf} (h : l.IsWritten) : Derives .operand l.tokens (.leaf l)
  | group {ts : List Token} {t : Tree} (h : Derives .disjunction ts t) :
      Derives .operand (.leftParen :: (ts ++ [.rightParen])) t
  | operand {ts : List Token} {t : Tree} (h : Derives .operand ts t) :
      Derives .conjunction ts t
  | and {ts us : List Token} {a b : Tree} (ha : Derives .conjunction ts a)
      (hb : Derives .operand us b) :
      Derives .conjunction (ts ++ .keyword .and :: us) (.and a b)
  | conjunction {ts : List Token} {t : Tree} (h : Derives .conjunction ts t) :
      Derives .disjunction ts t
  | or {ts us : List Token} {a b : Tree} (ha : Derives .disjunction ts a)
      (hb : Derives .conjunction us b) :
      Derives .disjunction (ts ++ .keyword .or :: us) (.or a b)

/-- How far a test has been read behind its field. -/
inductive Progress where
  | field | not | is | isNot
  | compare (s : Sign)
  | like (negated : Bool)
  | low | conj | high
  | list (negated : Bool)
  /-- In a list, with a number of placeholders, before the next. -/
  | item (negated : Bool) (n : Nat)
  /-- In a list, behind a placeholder, with a number of others before it. -/
  | more (negated : Bool) (n : Nat)

namespace Progress

def next : Progress → Token → Option (Progress ⊕ Comparator × Nat)
  | .field, .sign s => some (.inl (.compare s))
  | .field, .keyword .like => some (.inl (.like false))
  | .field, .keyword .in => some (.inl (.list false))
  | .field, .keyword .not => some (.inl .not)
  | .field, .keyword .is => some (.inl .is)
  | .field, .keyword .between => some (.inl .low)
  | .not, .keyword .like => some (.inl (.like true))
  | .not, .keyword .in => some (.inl (.list true))
  | .is, .keyword .null => some (.inr (.isNull, 0))
  | .is, .keyword .not => some (.inl .isNot)
  | .isNot, .keyword .null => some (.inr (.isNotNull, 0))
  | .compare s, .mark => some (.inr (s.comparator, 1))
  | .like negated, .mark => some (.inr (if negated then .notLike else .like, 1))
  | .low, .mark => some (.inl .conj)
  | .conj, .keyword .and => some (.inl .high)
  | .high, .mark => some (.inr (.between, 2))
  | .list negated, .leftParen => some (.inl (.item negated 0))
  | .item negated n, .mark => some (.inl (.more negated n))
  | .more negated n, .comma => some (.inl (.item negated (n + 1)))
  | .more negated n, .rightParen => some (.inr (if negated then .notIn else .isIn, n + 1))
  | _, _ => none

def negation (negated : Bool) : List Token := if negated then [.keyword .not] else []

def tokens : Progress → List Token
  | .field => []
  | .not => [.keyword .not]
  | .is => [.keyword .is]
  | .isNot => [.keyword .is, .keyword .not]
  | .compare s => [.sign s]
  | .like negated => negation negated ++ [.keyword .like]
  | .low => [.keyword .between]
  | .conj => [.keyword .between, .mark]
  | .high => [.keyword .between, .mark, .keyword .and]
  | .list negated => negation negated ++ [.keyword .in]
  | .item negated 0 => negation negated ++ [.keyword .in, .leftParen]
  | .item negated (n + 1) =>
    negation negated ++ [.keyword .in, .leftParen] ++ Token.list (n + 1) ++ [.comma]
  | .more negated n => negation negated ++ [.keyword .in, .leftParen] ++ Token.list (n + 1)

theorem tokens_of_next {p p' : Progress} {t : Token} (h : p.next t = some (.inl p')) :
    p'.tokens = p.tokens ++ [t] := by
  cases p with
  | list negated =>
    cases t <;> cases h
    cases negated <;> rfl
  | item negated n =>
    cases t <;> cases h
    cases n with
    | zero => simp [tokens, Token.list]
    | succ n => simp [tokens, Token.list_concat]
  | _ =>
    cases t with
    | keyword k => cases k <;> cases h <;> rfl
    | _ => cases h <;> rfl

theorem written_of_next {p : Progress} {t : Token} {k : Comparator} {n : Nat}
    (h : p.next t = some (.inr (k, n))) : k.Takes n ∧ k.tokens n = p.tokens ++ [t] := by
  cases p with
  | compare s =>
    cases t <;> cases h
    cases s <;> exact ⟨rfl, rfl⟩
  | like negated =>
    cases t <;> cases h
    cases negated <;> exact ⟨rfl, rfl⟩
  | more negated m =>
    cases t <;> cases h
    cases negated <;> exact ⟨Nat.succ_pos m, by simp [Comparator.tokens, tokens, negation]⟩
  | _ =>
    cases t with
    | keyword k => cases k <;> cases h <;> exact ⟨rfl, rfl⟩
    | _ => cases h <;> exact ⟨rfl, rfl⟩

end Progress

inductive Stage where
  | operand
  | within (field : String) (p : Progress)
  | complete

/-- What has been read at one depth of parentheses. -/
structure Frame where
  /-- The disjunction up to the last `or`. -/
  ors : Option Tree
  /-- The conjunction behind it. -/
  ands : Option Tree

namespace Frame

def empty : Frame := ⟨none, none⟩

def add (f : Frame) (t : Tree) : Frame :=
  { f with ands := some (match f.ands with
    | none => t
    | some a => .and a t) }

def close (f : Frame) : Option Tree :=
  f.ands.map fun a => match f.ors with
    | none => a
    | some o => .or o a

end Frame

structure Reading where
  /-- What stands before each parenthesis that is open, from the inside. -/
  outer : List Frame
  frame : Frame
  stage : Stage

namespace Reading

def start : Reading := ⟨[], .empty, .operand⟩

def step (r : Reading) (t : Token) : Option Reading :=
  match r.stage, t with
  | .operand, .leftParen => some ⟨r.frame :: r.outer, .empty, .operand⟩
  | .operand, .fragment text => some ⟨r.outer, r.frame.add (.leaf (.fragment text)), .complete⟩
  | .operand, .name s => some ⟨r.outer, r.frame, .within s .field⟩
  | .within s p, t => (p.next t).map fun
    | .inl p => ⟨r.outer, r.frame, .within s p⟩
    | .inr (k, n) => ⟨r.outer, r.frame.add (.leaf (.test s k n)), .complete⟩
  | .complete, .keyword .and => some ⟨r.outer, r.frame, .operand⟩
  | .complete, .keyword .or => r.frame.close.map fun t => ⟨r.outer, ⟨some t, none⟩, .operand⟩
  | .complete, .rightParen =>
    match r.outer with
    | [] => none
    | f :: outer => r.frame.close.map fun t => ⟨outer, f.add t, .complete⟩
  | _, _ => none

def run (r : Reading) (ts : List Token) : Option Reading := ts.foldlM step r

def finish (r : Reading) : Option Tree :=
  match r.outer, r.stage with
  | [], .complete => r.frame.close
  | _, _ => none

@[simp] theorem run_nil (r : Reading) : r.run [] = some r := rfl

@[simp] theorem run_cons (r : Reading) (t : Token) (ts : List Token) :
    r.run (t :: ts) = (r.step t).bind (·.run ts) := rfl

theorem run_append (r : Reading) (ts us : List Token) :
    r.run (ts ++ us) = (r.run ts).bind (·.run us) := List.foldlM_append

end Reading

def parse (ts : List Token) : Option Tree := (Reading.start.run ts).bind Reading.finish

namespace Reading

variable {outer : List Frame} {frame : Frame} {s : String}

/-- A list is read up to its parenthesis. -/
theorem run_more (negated : Bool) (n m : Nat) :
    (⟨outer, frame, .within s (.more negated n)⟩ : Reading).run
        ((List.replicate m [Token.comma, .mark]).flatten ++ [.rightParen]) =
      some ⟨outer, frame.add (.leaf (.test s (if negated then .notIn else .isIn) (n + m + 1))),
        .complete⟩ := by
  induction m generalizing n with
  | zero => rfl
  | succ m ih =>
    rw [List.replicate_succ, List.flatten_cons]
    have hrest := ih (n + 1)
    rw [Nat.add_right_comm n 1 m] at hrest
    exact hrest

/-- A test is read up to its end. -/
theorem run_test {k : Comparator} {n : Nat} (h : k.Takes n) :
    (⟨outer, frame, .within s .field⟩ : Reading).run (k.tokens n) =
      some ⟨outer, frame.add (.leaf (.test s k n)), .complete⟩ := by
  cases k with
  | isIn =>
    obtain ⟨m, rfl⟩ := Nat.exists_eq_succ_of_ne_zero (Nat.ne_of_gt h)
    have hlist := @run_more outer frame s false 0 m
    rw [Nat.zero_add] at hlist
    exact hlist
  | notIn =>
    obtain ⟨m, rfl⟩ := Nat.exists_eq_succ_of_ne_zero (Nat.ne_of_gt h)
    have hlist := @run_more outer frame s true 0 m
    rw [Nat.zero_add] at hlist
    exact hlist
  | raw => cases h
  | _ =>
    cases h
    rfl

theorem run_derives {g : Strength} {ts : List Token} {t : Tree} (h : Derives g ts t) :
    match g with
    | .operand => ∀ outer frame, (⟨outer, frame, .operand⟩ : Reading).run ts =
        some ⟨outer, frame.add t, .complete⟩
    | .conjunction => ∀ outer ors, (⟨outer, ⟨ors, none⟩, .operand⟩ : Reading).run ts =
        some ⟨outer, ⟨ors, some t⟩, .complete⟩
    | .disjunction => ∀ outer, ∃ frame, frame.close = some t ∧
        (⟨outer, .empty, .operand⟩ : Reading).run ts = some ⟨outer, frame, .complete⟩ := by
  induction h with
  | @leaf l h =>
    intro outer frame
    cases l with
    | fragment text => rfl
    | test s k n => exact run_test h
  | @group ts t h ih =>
    intro outer frame
    obtain ⟨inner, hclose, hrun⟩ := ih (frame :: outer)
    simp [step, run_append, hrun, hclose]
  | operand h ih => exact fun outer ors => ih outer ⟨ors, none⟩
  | @and ts us a b ha hb iha ihb =>
    intro outer ors
    simp [run_append, iha, ihb, step, Frame.add]
  | conjunction h ih =>
    intro outer
    exact ⟨⟨none, _⟩, rfl, ih outer none⟩
  | @or ts us a b ha hb iha ihb =>
    intro outer
    obtain ⟨left, hclose, hrun⟩ := iha outer
    refine ⟨⟨some a, some b⟩, rfl, ?_⟩
    simp [run_append, hrun, step, hclose, ihb]

end Reading

inductive Frame.Awaits : Frame → List Token → Prop
  | start : Frame.Awaits .empty []
  | or {ts : List Token} {o : Tree} (h : Derives .disjunction ts o) :
      Frame.Awaits ⟨some o, none⟩ (ts ++ [.keyword .or])
  | and {ors : Option Tree} {ts us : List Token} {a : Tree} (h : Frame.Awaits ⟨ors, none⟩ ts)
      (ha : Derives .conjunction us a) :
      Frame.Awaits ⟨ors, some a⟩ (ts ++ us ++ [.keyword .and])

inductive Frame.Holds : Frame → List Token → Prop
  | mk {ors : Option Tree} {ts us : List Token} {a : Tree} (h : Frame.Awaits ⟨ors, none⟩ ts)
      (ha : Derives .conjunction us a) : Frame.Holds ⟨ors, some a⟩ (ts ++ us)

namespace Frame

variable {f : Frame} {ts us : List Token} {t : Tree}

theorem Awaits.add (h : f.Awaits ts) (ht : Derives .operand us t) : (f.add t).Holds (ts ++ us) := by
  cases h with
  | start => exact .mk .start (.operand ht)
  | or ho => exact .mk (.or ho) (.operand ht)
  | and hf ha =>
    have hand := Holds.mk hf (.and ha ht)
    simpa [Frame.add] using hand

theorem Holds.close (h : f.Holds ts) (hclose : f.close = some t) : Derives .disjunction ts t := by
  obtain ⟨hf, ha⟩ := h
  cases hclose
  cases hf with
  | start => exact .conjunction ha
  | or ho =>
    have hor := Derives.or ho ha
    simpa using hor

theorem Holds.and (h : f.Holds ts) : f.Awaits (ts ++ [.keyword .and]) := by
  obtain ⟨hf, ha⟩ := h
  exact .and hf ha

end Frame

/-- Tokens with open parentheses, up to the innermost one. -/
inductive Enclosing : List Frame → List Token → Prop
  | nil : Enclosing [] []
  | cons {f : Frame} {fs : List Frame} {ts us : List Token} (h : Enclosing fs ts)
      (hf : f.Awaits us) : Enclosing (f :: fs) (ts ++ us ++ [.leftParen])

def Stage.Reaches (f : Frame) (ts : List Token) : Stage → Prop
  | .operand => f.Awaits ts
  | .within s p => ∃ us, f.Awaits us ∧ ts = us ++ .name s :: p.tokens
  | .complete => f.Holds ts

def Reading.Reaches (r : Reading) (ts : List Token) : Prop :=
  ∃ us vs, Enclosing r.outer us ∧ r.stage.Reaches r.frame vs ∧ ts = us ++ vs

theorem Reading.Reaches.step {r r' : Reading} {ts : List Token} {t : Token} (h : r.Reaches ts)
    (hstep : r.step t = some r') : r'.Reaches (ts ++ [t]) := by
  obtain ⟨outer, frame, stage⟩ := r
  obtain ⟨us, vs, houter, hstage, rfl⟩ := h
  have hoperand {l : Leaf} (hl : l.IsWritten) {ws : List Token} (hws : frame.Awaits ws) :
      (frame.add (.leaf l)).Holds (ws ++ l.tokens) := hws.add (.leaf hl)
  cases stage with
  | operand =>
    cases t with
    | leftParen =>
      cases hstep
      exact ⟨us ++ vs ++ [.leftParen], [], .cons houter hstage, .start, (List.append_nil _).symm⟩
    | fragment text =>
      cases hstep
      refine ⟨us, vs ++ [.fragment text], houter, ?_, List.append_assoc us vs _⟩
      exact hoperand (l := .fragment text) trivial hstage
    | name s =>
      cases hstep
      exact ⟨us, vs ++ [.name s], houter, ⟨vs, hstage, rfl⟩, List.append_assoc us vs _⟩
    | _ => cases hstep
  | within s p =>
    obtain ⟨ws, hws, rfl⟩ := hstage
    obtain ⟨next, hnext, hr⟩ := Option.map_eq_some_iff.1 hstep
    cases next with
    | inl p' =>
      cases hr
      refine ⟨us, ws ++ .name s :: p'.tokens, houter, ⟨ws, hws, rfl⟩, ?_⟩
      simp [Progress.tokens_of_next hnext]
    | inr found =>
      obtain ⟨k, n⟩ := found
      cases hr
      obtain ⟨htakes, htokens⟩ := Progress.written_of_next hnext
      refine ⟨us, ws ++ .name s :: k.tokens n, houter, ?_, by simp [htokens]⟩
      exact hoperand (l := .test s k n) htakes hws
  | complete =>
    cases t with
    | keyword k =>
      cases k with
      | and =>
        cases hstep
        exact ⟨us, vs ++ [Token.keyword .and], houter, Frame.Holds.and hstage,
          List.append_assoc us vs _⟩
      | or =>
        obtain ⟨o, hclose, hr⟩ := Option.map_eq_some_iff.1 hstep
        cases hr
        exact ⟨us, vs ++ [Token.keyword .or], houter, .or (Frame.Holds.close hstage hclose),
          List.append_assoc us vs _⟩
      | _ => cases hstep
    | rightParen =>
      cases houter with
      | nil => cases hstep
      | @cons f fs ts ws h hf =>
        obtain ⟨o, hclose, hr⟩ := Option.map_eq_some_iff.1 hstep
        cases hr
        refine ⟨ts, ws ++ .leftParen :: (vs ++ [.rightParen]), h, ?_, by simp⟩
        exact hf.add (.group (Frame.Holds.close hstage hclose))
    | _ => cases hstep

theorem Reading.Reaches.run {r r' : Reading} {ts us : List Token} (h : r.Reaches ts)
    (hrun : r.run us = some r') : r'.Reaches (ts ++ us) := by
  induction us generalizing r ts with
  | nil =>
    cases hrun
    rwa [List.append_nil]
  | cons t us ih =>
    obtain ⟨r₁, hstep, hrest⟩ := Option.bind_eq_some_iff.1 hrun
    have hreaches := ih (h.step hstep) hrest
    rwa [List.append_assoc] at hreaches

/-- Reading finds the tree that the grammar has, and no other. -/
theorem parse_eq_some_iff {ts : List Token} {t : Tree} :
    parse ts = some t ↔ Derives .disjunction ts t := by
  constructor
  · intro h
    obtain ⟨r, hrun, hfinish⟩ := Option.bind_eq_some_iff.1 h
    have hstart : Reading.start.Reaches [] := ⟨[], [], .nil, Frame.Awaits.start, rfl⟩
    obtain ⟨us, vs, houter, hstage, hts⟩ := hstart.run hrun
    unfold Reading.finish at hfinish
    split at hfinish
    · rename_i hnone hcomplete
      rw [hcomplete] at hstage
      rw [hnone] at houter
      cases houter
      rw [List.nil_append, List.nil_append] at hts
      rw [hts]
      exact Frame.Holds.close hstage hfinish
    · cases hfinish
  · intro h
    obtain ⟨frame, hclose, hrun⟩ := Reading.run_derives h []
    unfold parse Reading.start
    rw [hrun]
    exact hclose

end DataAccess.Sql
