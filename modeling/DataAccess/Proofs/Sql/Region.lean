import DataAccess.Sql.Region
import Mathlib.Data.List.Basic
import Mathlib.Tactic.Common

/-!
Scanning in pieces. Text scans as its pieces do, unless two characters that meet where they are
joined open a comment. Characters that open nothing leave code as it is.
-/
namespace DataAccess.Sql

def opensComment (a b : Char) : Bool := (a = '-' ∧ b = '-') ∨ (a = '/' ∧ b = '*')

/-- The last character of one text and the first of the next do not open a comment. -/
def Parted (s t : List Char) : Prop := ∀ a ∈ s.getLast?, ∀ b ∈ t.head?, opensComment a b = false

theorem Parted.of_append {front s t : List Char} (h : Parted (front ++ s) t) : Parted s t := by
  intro a ha b hb
  refine h a ?_ b hb
  rw [List.getLast?_append, Option.mem_def.1 ha, Option.some_or]
  rfl

theorem Parted.tail {c : Char} {s t : List Char} (h : Parted (c :: s) t) : Parted s t := by
  rw [← List.singleton_append] at h
  exact h.of_append

/-- A character that code is made of, whatever follows it. -/
def isInert (c : Char) : Bool := closingQuote c = none ∧ c ≠ '-' ∧ c ≠ '/'

theorem isInert_iff (c : Char) :
    isInert c = true ↔ c ∉ ['\x27', '\x22', '\x60', '[', '-', '/'] := by
  simp only [isInert, decide_eq_true_eq, List.mem_cons, List.not_mem_nil, or_false, not_or]
  unfold closingQuote
  split_ifs with hq hb
  · simp only [false_and, false_iff]
    rintro ⟨h1, h2, h3, -⟩
    exact hq.elim h1 fun h => h.elim h2 h3
  · simp [hb]
  · simp only [not_or] at hq
    simp [hq, hb]

/-- Characters of a class that none of the special ones belongs to are inert. -/
theorem isInert_of_class {p : Char → Bool} {c : Char} (h : p c = true)
    (hp : ['\x27', '\x22', '\x60', '[', '-', '/'].all (fun d => !p d) = true) :
    isInert c = true := by
  rw [isInert_iff]
  intro hc
  have := List.all_eq_true.1 hp c hc
  simp [h] at this

namespace Region

/-- Of the next character only matters whether it opens a comment with this one. -/
theorem step_congr (r : Region) {c : Char} {next other : Option Char}
    (h : next.any (opensComment c) = other.any (opensComment c)) :
    r.step c next = r.step c other := by
  have open_iff (o : Option Char) : o.any (opensComment c) = true ↔
      (c = '-' ∧ o = some '-') ∨ (c = '/' ∧ o = some '*') := by
    cases o with
    | none => simp
    | some d => simp [opensComment]
  have hi := open_iff next
  rw [h, open_iff other] at hi
  cases r with
  | code =>
    simp only [step]
    by_cases hd : c = '-'
    · simp only [hd] at hi ⊢
      simp at hi
      simp [hi]
    · by_cases hs : c = '/'
      · simp only [hs] at hi ⊢
        simp at hi
        simp [hi]
      · simp [hd, hs]
  | quoted close => rfl
  | lineComment => rfl
  | blockOpen => rfl
  | blockComment afterStar => rfl

theorem step_none (r : Region) {c : Char} {next : Option Char}
    (h : ∀ b ∈ next, opensComment c b = false) : r.step c next = r.step c none := by
  apply step_congr
  cases next with
  | none => rfl
  | some b => simpa using h b rfl

theorem step_append (r : Region) {c : Char} {s t : List Char}
    (h : Parted (c :: s) t) : r.step c (s ++ t).head? = r.step c s.head? := by
  cases s with
  | nil => exact r.step_none fun b hb => h c rfl b hb
  | cons d s => rfl

theorem scan_append (r : Region) {s t : List Char} (h : Parted s t) :
    r.scan (s ++ t) = r.scan s ++ (r.after s).scan t := by
  induction s generalizing r with
  | nil => rfl
  | cons c s ih => simp only [List.cons_append, scan, after, r.step_append h, ih _ h.tail]

theorem after_append (r : Region) {s t : List Char} (h : Parted s t) :
    r.after (s ++ t) = (r.after s).after t := by
  induction s generalizing r with
  | nil => rfl
  | cons c s ih => simp only [List.cons_append, after, r.step_append h, ih _ h.tail]

theorem step_inert {c : Char} (h : isInert c = true) (next : Option Char) :
    code.step c next = (code, true) := by
  simp only [isInert, decide_eq_true_eq] at h
  simp [step, h]

theorem scan_inert {s : List Char} (h : ∀ c ∈ s, isInert c = true) (t : List Char) :
    code.scan (s ++ t) = s.map (·, true) ++ code.scan t := by
  induction s with
  | nil => rfl
  | cons c s ih =>
    have hc := step_inert (h c List.mem_cons_self) (s ++ t).head?
    simp only [List.cons_append, scan, hc, List.map_cons]
    rw [ih fun d hd => h d (List.mem_cons_of_mem c hd)]

theorem after_inert_append {s : List Char} (h : ∀ c ∈ s, isInert c = true) (t : List Char) :
    code.after (s ++ t) = code.after t := by
  induction s with
  | nil => rfl
  | cons c s ih =>
    simp only [List.cons_append, after, step_inert (h c List.mem_cons_self)]
    exact ih fun d hd => h d (List.mem_cons_of_mem c hd)

theorem after_inert {s : List Char} (h : ∀ c ∈ s, isInert c = true) : code.after s = code := by
  rw [← List.append_nil s, after_inert_append h]
  rfl

/-- A live character that is inert was read in code, and code follows it. -/
theorem step_live {r : Region} {c : Char} {next : Option Char} (hc : isInert c = true)
    (h : (r.step c next).2 = true) : r = code ∧ r.step c next = (code, true) := by
  cases r with
  | code => exact ⟨rfl, step_inert hc next⟩
  | quoted close => simp [step] at h
  | lineComment => simp [step] at h
  | blockOpen => simp [step] at h
  | blockComment afterStar => simp [step] at h

end Region
end DataAccess.Sql
