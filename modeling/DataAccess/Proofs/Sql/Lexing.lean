import DataAccess.Database.Keyword
import DataAccess.Database.Token
import DataAccess.Proofs.Sql.Grammar
import DataAccess.Proofs.Sql.Region
import Mathlib.Data.List.Chain

/-!
The tokens of conditions in SQL. A parenthesis can be marked as one that opens a fragment of SQL, which
is then one token up to the parenthesis that closes it. Text with quotes, brackets or comments has no
tokens here. Pieces of text have the tokens of the pieces when a word does not run on from one to the next.
-/
namespace DataAccess.Sql

open Database (isBlank isWordChar)

/-- Text in which a parenthesis can be marked as one that opens a fragment. -/
abbrev MarkedText := List (Char × Bool)

def unmarked (s : String) : MarkedText := s.toList.map (·, false)

@[simp] theorem unmarked_append (s t : String) : unmarked (s ++ t) = unmarked s ++ unmarked t := by
  simp [unmarked]

def Keyword.text : Keyword → String
  | .where => "where"
  | .and => "and"
  | .or => "or"
  | .not => "not"
  | .is => "is"
  | .null => "null"
  | .like => "like"
  | .in => "in"
  | .between => "between"

def Keyword.all : List Keyword := [.where, .and, .or, .not, .is, .null, .like, .in, .between]

def keywords : List String :=
  Database.reservedWords ++ Database.joinWords ++ Database.patternWords ++ Database.callWords

def wordToken? (s : String) : Option Token :=
  let w := s.map Char.toLower
  match Keyword.all.find? (·.text = w) with
  | some k => some (.keyword k)
  | none => if w ∈ keywords then none else some (.name s)

/-- A character of a word. A name stays one word where it is qualified. -/
def runsInWord (c : Char) : Bool := isWordChar c || c = '.'

/-- A word that is no keyword. -/
structure IsName (s : String) : Prop where
  chars : ∀ c ∈ s.toList, runsInWord c = true
  ne_empty : s ≠ ""
  free : s.map Char.toLower ∉ keywords

instance (s : String) : Decidable (IsName s) :=
  -- It is named, as the characters could also be decided one by one for all there are.
  have := List.decidableBAll (fun c => runsInWord c = true) s.toList
  decidable_of_iff
    ((∀ c ∈ s.toList, runsInWord c = true) ∧ s ≠ "" ∧ s.map Char.toLower ∉ keywords)
    ⟨fun ⟨hchars, hne, hfree⟩ => ⟨hchars, hne, hfree⟩,
      fun ⟨hchars, hne, hfree⟩ => ⟨hchars, hne, hfree⟩⟩

theorem Keyword.text_mem (k : Keyword) : k.text ∈ keywords := by
  cases k <;> decide +kernel

theorem IsName.wordToken {s : String} (h : IsName s) : wordToken? s = some (.name s) := by
  have hnone : Keyword.all.find? (·.text = s.map Char.toLower) = none := by
    rw [List.find?_eq_none]
    intro k _ hk
    apply h.free
    rw [← of_decide_eq_true hk]
    exact k.text_mem
  unfold wordToken?
  simp only [hnone]
  exact if_neg h.free

def Sign.text : Sign → String
  | .eq => "="
  | .ne => "<>"
  | .gt => ">"
  | .ge => ">="
  | .lt => "<"
  | .le => "<="

def Sign.all : List Sign := [.eq, .ne, .gt, .ge, .lt, .le]

def isSignChar (c : Char) : Bool := c = '<' ∨ c = '=' ∨ c = '>'

/-- What a token has been read of. -/
inductive Pending where
  | none
  | word (text : List Char)
  | sign (text : List Char)
  /-- In a fragment, with a number of parentheses open in it. -/
  | fragment (depth : Nat) (text : List Char)
deriving DecidableEq

namespace Pending

def flush : Pending → Option (List Token)
  | .none => some []
  | .word text => (wordToken? (String.ofList text)).map ([·])
  | .sign text => (Sign.all.find? (·.text = String.ofList text)).map ([.sign ·])
  | .fragment _ _ => Option.none

def enter (c : Char) (opens : Bool) : Option (List Token × Pending) :=
  if runsInWord c then some ([], .word [c])
  else if isSignChar c then some ([], .sign [c])
  else if isBlank c then some ([], .none)
  else if c = '?' then some ([.mark], .none)
  else if c = ',' then some ([.comma], .none)
  else if c = '(' then some (if opens then ([], .fragment 0 []) else ([.leftParen], .none))
  else if c = ')' then some ([.rightParen], .none)
  else Option.none

def inside (depth : Nat) (text : List Char) (c : Char) : Option (List Token × Pending) :=
  if (closingQuote c).isSome ∨ text.getLast?.any (opensComment · c) then Option.none
  else if c = '(' then some ([], .fragment (depth + 1) (text ++ [c]))
  else if c = ')' then
    match depth with
    | 0 => some ([.fragment (String.ofList text)], .none)
    | depth + 1 => some ([], .fragment depth (text ++ [c]))
  else some ([], .fragment depth (text ++ [c]))

def next (p : Pending) (c : Char) (opens : Bool) : Option (List Token × Pending) :=
  p.flush.bind fun ts => (enter c opens).map fun r => (ts ++ r.1, r.2)

def step (p : Pending) (c : Char × Bool) : Option (List Token × Pending) :=
  match p with
  | .none => enter c.1 c.2
  | .word text =>
    if runsInWord c.1 then some ([], .word (text ++ [c.1])) else p.next c.1 c.2
  | .sign text =>
    if isSignChar c.1 then some ([], .sign (text ++ [c.1])) else p.next c.1 c.2
  | .fragment depth text => inside depth text c.1

def run (p : Pending) : MarkedText → Option (List Token × Pending)
  | [] => some ([], p)
  | c :: rest => (p.step c).bind fun r => (r.2.run rest).map fun q => (r.1 ++ q.1, q.2)

theorem run_cons (p : Pending) (c : Char × Bool) (rest : MarkedText) :
    p.run (c :: rest) =
      (p.step c).bind fun r => (r.2.run rest).map fun q => (r.1 ++ q.1, q.2) := rfl

theorem run_append (p : Pending) (s t : MarkedText) :
    p.run (s ++ t) = (p.run s).bind fun r => (r.2.run t).map fun q => (r.1 ++ q.1, q.2) := by
  induction s generalizing p with
  | nil => simp [run]
  | cons c s ih =>
    rw [List.cons_append, run_cons, run_cons]
    cases p.step c with
    | none => rfl
    | some r =>
      simp only [Option.bind_some, ih]
      cases r.2.run s with
      | none => rfl
      | some q =>
        simp only [Option.bind_some, Option.map_some]
        cases q.2.run t <;> simp

end Pending

def lex (text : MarkedText) : Option (List Token) :=
  (Pending.none.run text).bind fun r => r.2.flush.map (r.1 ++ ·)

/-- A piece of text has tokens, of which the last may be open to run on. -/
def Lexes (text : MarkedText) (ts : List Token) : Prop :=
  ∃ us p vs, Pending.none.run text = some (us, p) ∧ p.flush = some vs ∧ us ++ vs = ts

def Closes (text : MarkedText) (ts : List Token) : Prop :=
  Pending.none.run text = some (ts, .none)

instance (text : MarkedText) (ts : List Token) : Decidable (Closes text ts) :=
  inferInstanceAs (Decidable (Pending.none.run text = some (ts, .none)))

/-- No token runs on to the character. -/
def isBreak (c : Char × Bool) : Bool := !runsInWord c.1 && !isSignChar c.1

theorem Closes.lexes {text : MarkedText} {ts : List Token} (h : Closes text ts) : Lexes text ts :=
  ⟨ts, .none, [], h, rfl, List.append_nil ts⟩

theorem Lexes.lex {text : MarkedText} {ts : List Token} (h : Lexes text ts) :
    lex text = some ts := by
  obtain ⟨us, p, vs, hrun, hflush, rfl⟩ := h
  unfold Sql.lex
  simp [hrun, hflush]

theorem Closes.append {s t : MarkedText} {ts us : List Token} (hs : Closes s ts)
    (ht : Closes t us) : Closes (s ++ t) (ts ++ us) := by
  unfold Closes at hs ht ⊢
  simp [Pending.run_append, hs, ht]

theorem Closes.append_lexes {s t : MarkedText} {ts us : List Token} (hs : Closes s ts)
    (ht : Lexes t us) : Lexes (s ++ t) (ts ++ us) := by
  obtain ⟨vs, p, ws, hrun, hflush, rfl⟩ := ht
  unfold Closes at hs
  refine ⟨ts ++ vs, p, ws, ?_, hflush, List.append_assoc ts vs ws⟩
  simp [Pending.run_append, hs, hrun]

/-- A token that does not run on ends where the next one starts. -/
theorem Pending.step_of_isBreak {p : Pending} {vs : List Token} (h : p.flush = some vs)
    {c : Char × Bool} (hc : isBreak c = true) :
    p.step c = (enter c.1 c.2).map fun r => (vs ++ r.1, r.2) := by
  unfold isBreak at hc
  simp only [Bool.and_eq_true, Bool.not_eq_true'] at hc
  have hnext : p.next c.1 c.2 = (enter c.1 c.2).map fun r => (vs ++ r.1, r.2) := by
    unfold next
    rw [h]
    rfl
  cases p with
  | none =>
    cases h
    simp [step]
  | word text => simpa [step, hc.1] using hnext
  | sign text => simpa [step, hc.2] using hnext
  | fragment depth text => cases h

theorem Lexes.append {s t : MarkedText} {ts us : List Token} (hs : Lexes s ts) (ht : Lexes t us)
    (hbreak : ∀ c ∈ t.head?, isBreak c = true) : Lexes (s ++ t) (ts ++ us) := by
  obtain ⟨vs, p, ws, hrun, hflush, rfl⟩ := hs
  cases t with
  | nil =>
    obtain ⟨vs', p', ws', hrun', hflush', rfl⟩ := ht
    cases hrun'
    cases hflush'
    exact ⟨vs, p, ws, by simpa using hrun, hflush, by simp⟩
  | cons c t =>
    obtain ⟨vs', p', ws', hrun', hflush', rfl⟩ := ht
    have hstep := Pending.step_of_isBreak hflush (hbreak c rfl)
    have hnone : Pending.none.step c = Pending.enter c.1 c.2 := rfl
    refine ⟨vs ++ ws ++ vs', p', ws', ?_, hflush', by simp⟩
    unfold Pending.run at hrun'
    rw [hnone] at hrun'
    obtain ⟨r, hr, hrest⟩ := Option.bind_eq_some_iff.1 hrun'
    obtain ⟨q, hq, hdone⟩ := Option.map_eq_some_iff.1 hrest
    cases hdone
    rw [Pending.run_append, hrun]
    simp [Pending.run, hstep, hr, hq]

theorem Keyword.lexes (k : Keyword) : Lexes (unmarked k.text) [.keyword k] := by
  refine ⟨[], .word k.text.toList, [.keyword k], ?_, ?_, rfl⟩
  · cases k <;> decide +kernel
  · cases k <;> decide +kernel

theorem Pending.run_word {s : List Char} (h : ∀ c ∈ s, runsInWord c = true) (text : List Char) :
    (Pending.word text).run (s.map (·, false)) = some ([], .word (text ++ s)) := by
  induction s generalizing text with
  | nil => simp [run]
  | cons c s ih =>
    have hc := h c List.mem_cons_self
    have hrest := ih (fun d hd => h d (List.mem_cons_of_mem c hd)) (text ++ [c])
    rw [List.map_cons, run_cons]
    simp [step, hc, hrest]

/-- A name is one token. -/
theorem IsName.lexes {s : String} (h : IsName s) : Lexes (unmarked s) [.name s] := by
  unfold unmarked
  cases hs : s.toList with
  | nil => exact absurd (String.toList_eq_nil_iff.1 hs) h.ne_empty
  | cons c rest =>
    have hstart := h.chars c (by simp [hs])
    have hrest : ∀ d ∈ rest, runsInWord d = true := fun d hd => h.chars d (by simp [hs, hd])
    refine ⟨[], .word (c :: rest), [.name s], ?_, ?_, rfl⟩
    · rw [List.map_cons, Pending.run_cons]
      simp [Pending.step, Pending.enter, hstart, Pending.run_word hrest [c]]
    · have hword : wordToken? (String.ofList (c :: rest)) = some (.name s) := by
        rw [← hs, String.ofList_toList]
        exact h.wordToken
      exact congrArg (Option.map ([·])) hword

/-- The number of parentheses that are open behind a text; none where one is closed that was not
open. -/
def depthAfter : Nat → List Char → Option Nat
  | depth, [] => some depth
  | depth, c :: rest =>
    if c = '(' then depthAfter (depth + 1) rest
    else if c = ')' then
      match depth with
      | 0 => none
      | depth + 1 => depthAfter depth rest
    else depthAfter depth rest

/-- Text without quotes, brackets and comments in which every parenthesis has its partner. -/
structure IsInline (s : String) : Prop where
  bare : ∀ c ∈ s.toList, closingQuote c = none
  uncommented : s.toList.IsChain fun a b => opensComment a b = false
  balanced : depthAfter 0 s.toList = some 0

instance (s : String) : Decidable (IsInline s) :=
  have := List.decidableBAll (fun c => closingQuote c = none) s.toList
  decidable_of_iff ((∀ c ∈ s.toList, closingQuote c = none) ∧
      (s.toList.IsChain fun a b => opensComment a b = false) ∧ depthAfter 0 s.toList = some 0)
    ⟨fun ⟨hbare, huncommented, hbalanced⟩ => ⟨hbare, huncommented, hbalanced⟩,
      fun ⟨hbare, huncommented, hbalanced⟩ => ⟨hbare, huncommented, hbalanced⟩⟩

theorem Pending.run_fragment {s text : List Char} {depth depth' : Nat}
    (hbare : ∀ c ∈ s, closingQuote c = Option.none)
    (hchain : s.IsChain fun a b => opensComment a b = false) (hparted : Parted text s)
    (h : depthAfter depth s = some depth') :
    (Pending.fragment depth text).run (s.map (·, false)) =
      some ([], .fragment depth' (text ++ s)) := by
  induction s generalizing depth text with
  | nil =>
    cases h
    simp [run]
  | cons c s ih =>
    have hc := hbare c List.mem_cons_self
    have hopens : text.getLast?.any (opensComment · c) = false := by
      cases hlast : text.getLast? with
      | none => rfl
      | some a => exact hparted a hlast c rfl
    have hrest {depth : Nat} (h : depthAfter depth s = some depth') :
        (Pending.fragment depth (text ++ [c])).run (s.map (·, false)) =
          some ([], .fragment depth' (text ++ c :: s)) := by
      have hnext : Parted (text ++ [c]) s := by
        intro a ha b hb
        rw [List.getLast?_concat] at ha
        cases ha
        exact hchain.rel_head? hb
      have hrun := ih (fun d hd => hbare d (List.mem_cons_of_mem c hd)) hchain.tail hnext h
      simpa using hrun
    unfold depthAfter at h
    rw [List.map_cons, run_cons]
    simp only [step, inside, hc, hopens, Option.isSome_none, Bool.false_eq_true, or_self, if_false]
    split_ifs at h ⊢ with hopen hclose
    · simp [hrest h]
    · cases depth with
      | zero => cases h
      | succ depth => simp [hrest h]
    · simp [hrest h]

/-- A fragment of SQL in its parentheses is one token. -/
theorem IsInline.closes {s : String} (h : IsInline s) :
    Closes (('(', true) :: unmarked (s ++ ")")) [.fragment s] := by
  have hparted : Parted [] s.toList := fun a ha => by cases ha
  have hrun := Pending.run_fragment h.bare h.uncommented hparted h.balanced
  have hopen : Pending.none.step ('(', true) = some ([], .fragment 0 []) := rfl
  have hclose : (Pending.fragment 0 s.toList).step (')', false) =
      some ([.fragment s], .none) := by
    have hcomment : s.toList.getLast?.any (opensComment · ')') = false := by
      cases s.toList.getLast? with
      | none => rfl
      | some a => simp [opensComment]
    have hquote : closingQuote ')' = none := rfl
    simp [Pending.step, Pending.inside, hcomment, hquote]
  unfold Closes
  rw [Pending.run_cons, hopen, unmarked_append, Option.bind_some, Pending.run_append]
  unfold unmarked
  rw [hrun]
  simp [Pending.run, hclose]

end DataAccess.Sql
