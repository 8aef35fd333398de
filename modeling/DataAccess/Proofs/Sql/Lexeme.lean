import DataAccess.Proofs.Sql.Region
import Mathlib.Data.List.Infix

/-!
Whole tokens of SQL text. A lexeme is a single character or runs from an opening delimiter through the
delimiter that closes it, or to the end of the text. A lexer that reads one whole lexeme after another
flags every character as the scan with one character of lookahead does: `scan_eq_lexemes`.
-/
namespace DataAccess.Sql

inductive Enclosure where
  | lineComment | blockComment
  | quoted | doubleQuoted | backquoted
  | bracketed
deriving DecidableEq, Repr

namespace Enclosure

def all : List Enclosure :=
  [.lineComment, .blockComment, .quoted, .doubleQuoted, .backquoted, .bracketed]

def opener : Enclosure → List Char
  | .lineComment => ['-', '-']
  | .blockComment => ['/', '*']
  | .quoted => ['\x27']
  | .doubleQuoted => ['\x22']
  | .backquoted => ['\x60']
  | .bracketed => ['[']

def closer : Enclosure → List Char
  | .lineComment => ['\n']
  | .blockComment => ['*', '/']
  | .quoted => ['\x27']
  | .doubleQuoted => ['\x22']
  | .backquoted => ['\x60']
  | .bracketed => [']']

def escapes : Enclosure → Bool
  | .quoted | .doubleQuoted | .backquoted => true
  | .lineComment | .blockComment | .bracketed => false

def ending (e : Enclosure) (closed : Bool) : List Char := if closed then e.closer else []

/-- In front of the rest of the text, no closing delimiter begins in the body but doubled ones. -/
inductive Holds (e : Enclosure) : List Char → List Char → Prop where
  | nil (rest : List Char) : Holds e [] rest
  | escaped {body rest : List Char} (h : e.escapes = true) (hbody : Holds e body rest) :
      Holds e (e.closer ++ (e.closer ++ body)) rest
  | char {c : Char} {body rest : List Char} (h : ¬ e.closer <+: c :: (body ++ rest))
      (hbody : Holds e body rest) : Holds e (c :: body) rest

structure Encloses (e : Enclosure) (body : List Char) (closed : Bool) (rest : List Char) :
    Prop where
  holds : e.Holds body (e.ending closed ++ rest)
  undoubled : closed = true → e.escapes = true → ¬ e.closer <+: rest
  unclosed : closed = false → rest = []

theorem closer_ne_nil (e : Enclosure) : e.closer ≠ [] := by
  cases e <;> decide

/-- Reads through the closing delimiter or to the end: the body, whether it is closed, and the rest. -/
def through (e : Enclosure) (text : List Char) : List Char × Bool × List Char :=
  match text with
  | [] => ([], false, [])
  | c :: tail =>
    let behind := (c :: tail).drop e.closer.length
    if e.closer <+: c :: tail then
      if e.escapes = true ∧ e.closer <+: behind then
        let r := e.through (behind.drop e.closer.length)
        (e.closer ++ (e.closer ++ r.1), r.2)
      else ([], true, behind)
    else
      let r := e.through tail
      (c :: r.1, r.2)
termination_by text.length
decreasing_by
  · have := List.length_pos_iff.2 e.closer_ne_nil
    simp only [List.length_drop, List.length_cons]
    omega
  · simp

theorem encloses_through (e : Enclosure) (text : List Char) :
    text = (e.through text).1 ++ (e.ending (e.through text).2.1 ++ (e.through text).2.2) ∧
      e.Encloses (e.through text).1 (e.through text).2.1 (e.through text).2.2 := by
  fun_induction through e text with
  | case1 => exact ⟨rfl, .nil _, by simp, by simp⟩
  | case2 c tail behind hcloser hescaped r ih =>
    obtain ⟨hescapes, hdoubled⟩ := hescaped
    obtain ⟨htext, holds, undoubled, unclosed⟩ := ih
    refine ⟨?_, .escaped hescapes holds, undoubled, unclosed⟩
    calc c :: tail = e.closer ++ behind := List.prefix_append_drop hcloser
      _ = e.closer ++ (e.closer ++ behind.drop e.closer.length) := by
        rw [← List.prefix_append_drop hdoubled]
      _ = e.closer ++ (e.closer ++ r.1) ++ (e.ending r.2.1 ++ r.2.2) := by
        rw [htext, List.append_assoc, List.append_assoc]
  | case3 c tail behind hcloser hescaped =>
    refine ⟨List.prefix_append_drop hcloser, .nil _, fun _ hescapes hdoubled => ?_, by simp⟩
    exact hescaped ⟨hescapes, hdoubled⟩
  | case4 c tail hcloser r ih =>
    obtain ⟨htext, holds, undoubled, unclosed⟩ := ih
    refine ⟨congrArg (c :: ·) htext, .char ?_ holds, undoubled, unclosed⟩
    rwa [← htext]

theorem through_char {e : Enclosure} {c : Char} {tail : List Char} (h : ¬ e.closer <+: c :: tail) :
    e.through (c :: tail) = (c :: (e.through tail).1, (e.through tail).2) := by
  rw [through, if_neg h]

theorem through_closer (e : Enclosure) (behind : List Char) :
    e.through (e.closer ++ behind) =
      if e.escapes = true ∧ e.closer <+: behind then
        (e.closer ++ (e.closer ++ (e.through (behind.drop e.closer.length)).1),
          (e.through (behind.drop e.closer.length)).2)
      else ([], true, behind) := by
  obtain ⟨c, tail, hcons⟩ : ∃ c tail, e.closer ++ behind = c :: tail :=
    List.exists_cons_of_ne_nil (by simp [e.closer_ne_nil])
  have hcloser : e.closer <+: c :: tail := ⟨behind, hcons⟩
  have hbehind : (c :: tail).drop e.closer.length = behind := by rw [← hcons, List.drop_left]
  rw [hcons, through, if_pos hcloser, hbehind]

/-- Nothing else than the body is read. -/
theorem Encloses.through_eq {e : Enclosure} {body rest : List Char} {closed : Bool}
    (h : e.Encloses body closed rest) :
    e.through (body ++ (e.ending closed ++ rest)) = (body, closed, rest) := by
  obtain ⟨holds, undoubled, unclosed⟩ := h
  generalize hends : e.ending closed ++ rest = ends at holds ⊢
  induction holds with
  | nil ends =>
    subst hends
    cases closed with
    | false =>
      rw [unclosed rfl]
      simp [ending, through]
    | true =>
      have hrest : ¬ (e.escapes = true ∧ e.closer <+: rest) := fun h => undoubled rfl h.1 h.2
      exact (e.through_closer rest).trans (if_neg hrest)
  | @escaped body ends hescapes _ ih =>
    have hdoubled : e.closer <+: e.closer ++ (body ++ ends) := List.prefix_append _ _
    rw [List.append_assoc, List.append_assoc, through_closer, if_pos ⟨hescapes, hdoubled⟩,
      List.drop_left, ih hends]
  | char hcloser _ ih => rw [List.cons_append, through_char hcloser, ih hends]

end Enclosure

inductive Lexeme where
  /-- A character of the code. -/
  | single (c : Char)
  | enclosed (e : Enclosure) (body : List Char) (closed : Bool)
deriving DecidableEq, Repr

namespace Lexeme

def text : Lexeme → List Char
  | .single c => [c]
  | .enclosed e body closed => e.opener ++ (body ++ e.ending closed)

def flagged : Lexeme → List (Char × Bool)
  | .single c => [(c, true)]
  | .enclosed e body closed => (enclosed e body closed).text.map (·, false)

/-- In front of the rest of the text the lexeme is a whole one. -/
def Precedes (rest : List Char) : Lexeme → Prop
  | .single c => ∀ e : Enclosure, ¬ e.opener <+: c :: rest
  | .enclosed e body closed => e.Encloses body closed rest

end Lexeme

/-- Whole lexemes, one after another, make up the text. -/
inductive Spells : List Lexeme → List Char → Prop where
  | nil : Spells [] []
  | cons {l : Lexeme} {ls : List Lexeme} {rest : List Char} (h : l.Precedes rest)
      (hls : Spells ls rest) : Spells (l :: ls) (l.text ++ rest)

def opened? (text : List Char) : Option Enclosure := Enclosure.all.find? (·.opener <+: text)

/-- Reads whole lexemes from the start of the text on. -/
def lexemes (text : List Char) : List Lexeme :=
  match text with
  | [] => []
  | c :: tail =>
    match opened? (c :: tail) with
    | none => .single c :: lexemes tail
    | some e =>
      let r := e.through ((c :: tail).drop e.opener.length)
      .enclosed e r.1 r.2.1 :: lexemes r.2.2
termination_by text.length
decreasing_by
  · simp
  · have hopener : 0 < e.opener.length := by cases e <;> decide
    have hlength := congrArg List.length
      (e.encloses_through ((c :: tail).drop e.opener.length)).1
    simp only [List.length_drop, List.length_append, List.length_cons] at hlength ⊢
    omega

theorem opened?_eq_some {text : List Char} {e : Enclosure} (h : opened? text = some e) :
    e.opener <+: text := by
  simpa using List.find?_some h

theorem opened?_eq_none {text : List Char} (h : opened? text = none) (e : Enclosure) :
    ¬ e.opener <+: text := by
  have he : e ∈ Enclosure.all := by cases e <;> decide
  simpa using List.find?_eq_none.1 h e he

/-- A text opens with one delimiter at most. -/
theorem opened?_opener (e : Enclosure) (text : List Char) : opened? (e.opener ++ text) = some e := by
  cases e <;> simp [opened?, Enclosure.all, Enclosure.opener]

theorem spells_lexemes (text : List Char) : Spells (lexemes text) text := by
  fun_induction lexemes text with
  | case1 => exact .nil
  | case2 c tail hnone ih => exact .cons (opened?_eq_none hnone) ih
  | case3 c tail e hsome r ih =>
    obtain ⟨htext, hencloses⟩ := e.encloses_through ((c :: tail).drop e.opener.length)
    have hspells := Spells.cons (l := .enclosed e r.1 r.2.1) hencloses ih
    have htext : (Lexeme.enclosed e r.1 r.2.1).text ++ r.2.2 = c :: tail := by
      calc e.opener ++ (r.1 ++ e.ending r.2.1) ++ r.2.2
          = e.opener ++ (c :: tail).drop e.opener.length := by
            rw [htext, List.append_assoc, List.append_assoc]
        _ = c :: tail := (List.prefix_append_drop (opened?_eq_some hsome)).symm
    rwa [htext] at hspells

/-- A whole lexeme is read as one. -/
theorem lexemes_text {l : Lexeme} {rest : List Char} (h : l.Precedes rest) :
    lexemes (l.text ++ rest) = l :: lexemes rest := by
  cases l with
  | single c =>
    have hnone : opened? (c :: rest) = none := by
      rw [opened?, List.find?_eq_none]
      exact fun e _ he => h e (of_decide_eq_true he)
    rw [Lexeme.text, List.singleton_append, lexemes, hnone]
  | enclosed e body closed =>
    obtain ⟨c, tail, hcons⟩ : ∃ c tail, e.opener ++ (body ++ (e.ending closed ++ rest)) = c :: tail :=
      List.exists_cons_of_ne_nil (by cases e <;> simp [Enclosure.opener])
    have hsome : opened? (c :: tail) = some e := by rw [← hcons, opened?_opener]
    have hbehind : (c :: tail).drop e.opener.length = body ++ (e.ending closed ++ rest) := by
      rw [← hcons, List.drop_left]
    rw [Lexeme.text, List.append_assoc, List.append_assoc, hcons, lexemes, hsome]
    simp only [hbehind, h.through_eq]

/-- The lexemes of a text are the one way to spell it. -/
theorem lexemes_eq_iff {text : List Char} {ls : List Lexeme} :
    lexemes text = ls ↔ Spells ls text := by
  constructor
  · rintro rfl
    exact spells_lexemes text
  · intro h
    induction h with
    | nil => rw [lexemes]
    | cons hl _ ih => rw [lexemes_text hl, ih]

example : lexemes "/*/?*/\x27it\x27\x27s\x27-".toList =
    [.enclosed .blockComment ['/', '?'] true,
      .enclosed .quoted ['i', 't', '\x27', '\x27', 's'] true, .single '-'] := by cbv

def Enclosure.region : Enclosure → Region
  | .lineComment => .lineComment
  | .blockComment => .blockComment false
  | .quoted => .quoted '\x27'
  | .doubleQuoted => .quoted '\x22'
  | .backquoted => .quoted '\x60'
  | .bracketed => .quoted ']'

/-- In front of the text the region is one between the delimiters. In a block comment a star may
have been read, but then no slash follows. -/
def Enclosure.Within (e : Enclosure) (r : Region) (text : List Char) : Prop :=
  if e = .blockComment then
    ∃ afterStar, r = .blockComment afterStar ∧ (afterStar = true → ¬ ['/'] <+: text)
  else r = e.region

namespace Enclosure

variable {e : Enclosure} {r : Region} {c : Char} {body rest : List Char}

theorem within_region (e : Enclosure) (text : List Char) : e.Within e.region text := by
  unfold Within
  split_ifs with he
  · subst he
    exact ⟨false, rfl, by simp⟩
  · rfl

theorem scan_opener (e : Enclosure) (text : List Char) :
    Region.code.scan (e.opener ++ text) = e.opener.map (·, false) ++ e.region.scan text := by
  cases e <;> simp [opener, region, Region.scan, Region.step, closingQuote]

theorem Within.scan_closer (h : e.Within r (e.closer ++ rest)) :
    r.scan (e.closer ++ rest) = e.closer.map (·, false) ++ Region.code.scan rest := by
  cases e with
  | blockComment =>
    obtain ⟨afterStar, rfl, -⟩ := h
    simp [closer, Region.scan, Region.step]
  | lineComment | quoted | doubleQuoted | backquoted | bracketed =>
    obtain rfl : r = _ := h
    simp [closer, region, Region.scan, Region.step]

/-- A quote that is doubled closes the literal and opens it again. -/
theorem Within.scan_doubled (hescapes : e.escapes = true)
    (h : e.Within r (e.closer ++ (e.closer ++ rest))) :
    r.scan (e.closer ++ (e.closer ++ rest)) =
      (e.closer ++ e.closer).map (·, false) ++ e.region.scan rest := by
  have hopener : e.closer = e.opener := by cases e <;> first | rfl | simp [escapes] at hescapes
  rw [h.scan_closer, hopener, scan_opener, List.map_append, List.append_assoc]

theorem Within.step (hcloser : ¬ e.closer <+: c :: rest) (h : e.Within r (c :: rest)) :
    (r.step c rest.head?).2 = false ∧ e.Within (r.step c rest.head?).1 rest := by
  cases e with
  | blockComment =>
    obtain ⟨afterStar, rfl, hslash⟩ := h
    have hopen : ¬ (afterStar = true ∧ c = '/') := by
      rintro ⟨hstar, rfl⟩
      exact hslash hstar (by simp)
    simp only [Region.step, if_neg hopen]
    refine ⟨trivial, _, rfl, fun hstar hrest => hcloser ?_⟩
    rw [of_decide_eq_true hstar]
    exact List.cons_prefix_cons.2 ⟨rfl, hrest⟩
  | lineComment | quoted | doubleQuoted | backquoted | bracketed =>
    obtain rfl : r = _ := h
    have hc : c ≠ _ := fun hc => hcloser (List.cons_prefix_cons.2 ⟨hc.symm, List.nil_prefix⟩)
    simp [Within, region, Region.step, hc]

/-- Nothing between the delimiters is live. -/
theorem Holds.scan (h : e.Holds body rest) (hr : e.Within r (body ++ rest)) :
    ∃ r', e.Within r' rest ∧ r.scan (body ++ rest) = body.map (·, false) ++ r'.scan rest := by
  induction h generalizing r with
  | nil rest => exact ⟨r, hr, rfl⟩
  | @escaped body rest hescapes _ ih =>
    obtain ⟨r', hr', hscan⟩ := ih (e.within_region (body ++ rest))
    refine ⟨r', hr', ?_⟩
    rw [List.append_assoc, List.append_assoc] at hr ⊢
    rw [hr.scan_doubled hescapes, hscan]
    simp
  | char hcloser _ ih =>
    obtain ⟨hlive, hnext⟩ := hr.step hcloser
    obtain ⟨r', hr', hscan⟩ := ih hnext
    refine ⟨r', hr', ?_⟩
    rw [List.cons_append, Region.scan, hlive, hscan, List.map_cons, List.cons_append]

end Enclosure

/-- In front of the rest of the text, a whole lexeme is flagged as one and code follows it. -/
theorem Lexeme.Precedes.scan {l : Lexeme} {rest : List Char} (h : l.Precedes rest) :
    Region.code.scan (l.text ++ rest) = l.flagged ++ Region.code.scan rest := by
  cases l with
  | single c =>
    have hstep : Region.code.step c rest.head? = (.code, true) := by
      have hpair {a b : Char} (e : Enclosure) (he : e.opener = [a, b]) :
          ¬ (c = a ∧ rest.head? = some b) := by
        rintro ⟨rfl, hrest⟩
        obtain ⟨tail, rfl⟩ := List.head?_eq_some_iff.1 hrest
        exact h e (he ▸ ⟨tail, rfl⟩)
      have hquote {a : Char} (e : Enclosure) (he : e.opener = [a]) : c ≠ a := by
        rintro rfl
        exact h e (he ▸ ⟨rest, rfl⟩)
      have hclosing : closingQuote c = none := by
        simp [closingQuote, hquote .quoted rfl, hquote .doubleQuoted rfl, hquote .backquoted rfl,
          hquote .bracketed rfl]
      simp only [Region.step, if_neg (hpair .lineComment rfl), if_neg (hpair .blockComment rfl),
        hclosing]
    rw [text, List.singleton_append, Region.scan, hstep]
    rfl
  | enclosed e body closed =>
    obtain ⟨r, hr, hscan⟩ := h.holds.scan (e.within_region _)
    have hend : r.scan (e.ending closed ++ rest) =
        (e.ending closed).map (·, false) ++ Region.code.scan rest := by
      cases closed with
      | true => exact hr.scan_closer
      | false =>
        rw [h.unclosed rfl]
        rfl
    rw [text, List.append_assoc, List.append_assoc, Enclosure.scan_opener, hscan, hend, flagged, text]
    simp

/-- The scan flags the characters of a text as the lexemes do that spell it, and there is one way to
spell it. -/
theorem scan_eq_lexemes (text : List Char) :
    Spells (lexemes text) text ∧ (∀ ls, Spells ls text → ls = lexemes text) ∧
      scan text = (lexemes text).flatMap Lexeme.flagged := by
  have hscan {ls : List Lexeme} (h : Spells ls text) : scan text = ls.flatMap Lexeme.flagged := by
    unfold scan
    induction h with
    | nil => rfl
    | cons hl _ ih => rw [hl.scan, ih, List.flatMap_cons]
  have hspells := spells_lexemes text
  exact ⟨hspells, fun ls h => (lexemes_eq_iff.2 h).symm, hscan hspells⟩

end DataAccess.Sql
