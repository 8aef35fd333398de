import DataAccess.Proofs.Sql.Region
import DataAccess.Sql.Placeholder
import Mathlib.Data.List.TakeWhile
import Mathlib.Order.MinMax
import Mathlib.Tactic.Common

/-!
The numbering of placeholders. Counting asks for the largest index alone; the numbering says which
index the placeholder at each position of a text has. A bare placeholder takes the index after
the largest so far, and a number is an index as it stands. Counting keeps to machine words: it reads
a number beyond them as if it were not there, and counts on from the largest of them at zero. Where
all indices are machine words, it finds the largest one: `countFrom_eq_largestIndex`.
-/
namespace DataAccess.Sql

open Decimal (isDigit valueOfDigits)

/-- A placeholder as it is written: the number that it names, if it names one. -/
abbrev Mark := Option Nat

def numberOf (digits : List Char) : Mark :=
  if digits.isEmpty then none else some (valueOfDigits digits)

def flaggedMarks : List (Char × Bool) → List (Option Mark)
  | [] => []
  | (c, live) :: rest =>
    (if live ∧ c = '?' then
      some (numberOf ((rest.takeWhile fun m => m.2 && isDigit m.1).map Prod.fst))
    else none) :: flaggedMarks rest

/-- The index of the placeholder at each position, behind text with a largest index. -/
def indices (largest : Nat) : List (Option Mark) → List (Option Nat)
  | [] => []
  | none :: ms => none :: indices largest ms
  | some m :: ms =>
    some (m.getD (largest + 1)) :: indices (max largest (m.getD (largest + 1))) ms

/-- The largest index that the numbering reaches. -/
def largestIndex (largest : Nat) : List (Option Mark) → Nat
  | [] => largest
  | none :: ms => largestIndex largest ms
  | some m :: ms => largestIndex (max largest (m.getD (largest + 1))) ms

def Mark.counted (m : Mark) : Option Nat := m.filter (· < UInt64.size)

/-- The largest index that counting reaches. -/
def countFrom (largest : Nat) : List (Option Mark) → Nat
  | [] => largest
  | none :: ms => countFrom largest ms
  | some m :: ms => countFrom (addIndex largest m.counted) ms

def marksOf (text : List Char) : List (Option Mark) := flaggedMarks (scan text)

def indicesOf (sql : String) : List (Option Nat) := indices 0 (marksOf sql.toList)

/-- The second character continues the number of a placeholder that the first belongs to. -/
def runsOn (a b : Char) : Bool := (a = '?' ∨ isDigit a) ∧ isDigit b

def Joins (s t : List Char) : Prop :=
  ∀ a ∈ s.getLast?, ∀ b ∈ t.head?, opensComment a b = false ∧ runsOn a b = false

theorem Joins.parted {s t : List Char} (h : Joins s t) : Parted s t :=
  fun a ha b hb => (h a ha b hb).1

private theorem takeWhile_joined {p : Char × Bool → Bool} {A B : List (Char × Bool)}
    (h : ∀ a ∈ A.getLast?, p a = true → ∀ b ∈ B.head?, p b = false) (hA : A ≠ []) :
    (A ++ B).takeWhile p = A.takeWhile p := by
  rw [List.takeWhile_append]
  split
  · rename_i hall
    have heq : A.takeWhile p = A := (List.takeWhile_sublist p).eq_of_length hall
    have hp : ∀ a ∈ A, p a = true := by
      intro a ha
      rw [← heq] at ha
      exact List.mem_takeWhile_imp ha
    have hlast := h (A.getLast hA) (List.getLast?_eq_some_getLast hA)
      (hp _ (List.getLast_mem hA))
    have hB : B.takeWhile p = [] := by
      cases B with
      | nil => rfl
      | cons b B => simp [hlast b rfl]
    rw [hB, List.append_nil, heq]
  · rfl

theorem flaggedMarks_append {A B : List (Char × Bool)}
    (h : ∀ a ∈ A.getLast?, ∀ b ∈ B.head?, runsOn a.1 b.1 = false) :
    flaggedMarks (A ++ B) = flaggedMarks A ++ flaggedMarks B := by
  induction A with
  | nil => rfl
  | cons e A ih =>
    obtain ⟨c, live⟩ := e
    by_cases hA : A = []
    · subst hA
      have hB : c = '?' → (B.takeWhile fun m => m.2 && isDigit m.1) = [] := by
        intro hc
        cases B with
        | nil => rfl
        | cons b B =>
          have hb := h (c, live) rfl b rfl
          have : isDigit b.1 = false := by simpa [runsOn, hc] using hb
          simp [this]
      by_cases hc : live ∧ c = '?'
      · simp [flaggedMarks, hc, hB hc.2]
      · simp [flaggedMarks, hc]
    · have hlast : (((c, live) :: A).getLast?) = A.getLast? := by
        obtain ⟨d, A, rfl⟩ := List.exists_cons_of_ne_nil hA
        simp
      rw [hlast] at h
      have htake : (A ++ B).takeWhile (fun m => m.2 && isDigit m.1) =
          A.takeWhile fun m => m.2 && isDigit m.1 := by
        apply takeWhile_joined _ hA
        intro a ha hd b hb
        have hab := h a ha b hb
        simp only [Bool.and_eq_true] at hd
        have : isDigit b.1 = false := by simpa [runsOn, hd.2] using hab
        simp [this]
      simp only [List.cons_append, flaggedMarks, htake, ih h]

theorem length_flaggedMarks (A : List (Char × Bool)) : (flaggedMarks A).length = A.length := by
  induction A with
  | nil => rfl
  | cons e A ih => simp [flaggedMarks, ih]

theorem length_marksOf (text : List Char) : (marksOf text).length = text.length := by
  rw [marksOf, length_flaggedMarks, scan, Region.length_scan]

/-- Text that ends as code keeps its marks when other text is joined to it. -/
theorem marksOf_append {s t : List Char} (hs : Region.code.after s = .code) (h : Joins s t) :
    marksOf (s ++ t) = marksOf s ++ marksOf t := by
  unfold marksOf scan
  rw [Region.scan_append _ h.parted, hs]
  apply flaggedMarks_append
  intro a ha b hb
  have hlast : a.1 ∈ s.getLast? := by
    rw [← Region.code.map_fst_scan s, List.getLast?_map]
    exact Option.mem_map_of_mem Prod.fst ha
  have hhead : b.1 ∈ t.head? := by
    rw [← Region.code.map_fst_scan t, List.head?_map]
    exact Option.mem_map_of_mem Prod.fst hb
  exact (h _ hlast _ hhead).2

/-- In code, the digits of a number are read as they stand. -/
theorem takeWhile_scan_digits (text : List Char) :
    ((Region.code.scan text).takeWhile fun m => m.2 && isDigit m.1).map Prod.fst =
      text.takeWhile isDigit := by
  induction text with
  | nil => rfl
  | cons c text ih =>
    by_cases hc : isDigit c = true
    · have hinert : isInert c = true := isInert_of_class hc (by decide)
      simp [Region.scan, Region.step_inert hinert, hc, ih]
    · simp [Region.scan, hc]

/-- Where text is scanned, a character is a placeholder if it is a live question mark, and names
the number directly behind it. -/
theorem flaggedMarks_scan_cons (r : Region) (c : Char) (rest : List Char) :
    flaggedMarks (r.scan (c :: rest)) =
      (if (r.step c rest.head?).2 = true ∧ c = '?' then some (numberOf (rest.takeWhile isDigit))
        else none) :: flaggedMarks ((r.step c rest.head?).1.scan rest) := by
  rw [Region.scan, flaggedMarks]
  by_cases hc : (r.step c rest.head?).2 = true ∧ c = '?'
  · obtain ⟨hlive, rfl⟩ := hc
    obtain ⟨-, hstep⟩ := Region.step_live (by decide) hlive
    rw [hstep, takeWhile_scan_digits]
  · rw [if_neg hc, if_neg hc]

def Unmarked (text : List Char) : Prop := ∀ m ∈ marksOf text, m = none

theorem flaggedMarks_map_live {s : List Char} (h : ∀ c ∈ s, c ≠ '?') (B : List (Char × Bool)) :
    flaggedMarks (s.map (·, true) ++ B) = List.replicate s.length none ++ flaggedMarks B := by
  induction s with
  | nil => rfl
  | cons c s ih =>
    have hc : c ≠ '?' := h c List.mem_cons_self
    simp only [List.map_cons, List.cons_append, flaggedMarks, hc, and_false, if_false,
      List.length_cons, List.replicate_succ]
    rw [ih fun d hd => h d (List.mem_cons_of_mem c hd)]

theorem marksOf_inert {s : List Char} (h : ∀ c ∈ s, isInert c = true ∧ c ≠ '?')
    (t : List Char) : marksOf (s ++ t) = List.replicate s.length none ++ marksOf t := by
  unfold marksOf scan
  rw [Region.scan_inert fun c hc => (h c hc).1, flaggedMarks_map_live fun c hc => (h c hc).2]

theorem length_indices (g : Nat) (ms : List (Option Mark)) :
    (indices g ms).length = ms.length := by
  induction ms generalizing g with
  | nil => rfl
  | cons m ms ih => cases m <;> simp [indices, ih]

theorem indices_append (g : Nat) (ms ns : List (Option Mark)) :
    indices g (ms ++ ns) = indices g ms ++ indices (largestIndex g ms) ns := by
  induction ms generalizing g with
  | nil => rfl
  | cons m ms ih => cases m <;> simp [indices, largestIndex, ih]

/-- The largest index is the largest of those before and all those given. -/
theorem largestIndex_le_iff (g : Nat) (ms : List (Option Mark)) (b : Nat) :
    largestIndex g ms ≤ b ↔ g ≤ b ∧ ∀ i, some i ∈ indices g ms → i ≤ b := by
  induction ms generalizing g with
  | nil => simp [largestIndex, indices]
  | cons m ms ih =>
    cases m with
    | none => simp [largestIndex, indices, ih]
    | some m =>
      rw [largestIndex, ih, max_le_iff]
      simp only [indices, List.mem_cons, Option.some.injEq]
      constructor
      · rintro ⟨⟨hg, hm⟩, hi⟩
        exact ⟨hg, fun i h => h.elim (fun h => h ▸ hm) (hi i)⟩
      · rintro ⟨hg, hi⟩
        exact ⟨⟨hg, hi _ (.inl rfl)⟩, fun i h => hi i (.inr h)⟩

theorem index_le_largestIndex {g i : Nat} {ms : List (Option Mark)}
    (h : some i ∈ indices g ms) : i ≤ largestIndex g ms :=
  ((largestIndex_le_iff g ms _).1 le_rfl).2 i h

/-- The index at the position of a mark. -/
theorem getElem?_indices (g : Nat) (ms : List (Option Mark)) (m : Mark)
    (ns : List (Option Mark)) :
    (indices g (ms ++ some m :: ns))[ms.length]? =
      some (some (m.getD (largestIndex g ms + 1))) := by
  rw [indices_append, List.getElem?_append_right (by rw [length_indices])]
  simp [length_indices, indices]

/-- A list around one of its places. -/
theorem split_at {α : Type} {l : List α} {j : Nat} {a : α} (h : l[j]? = some a) :
    l = l.take j ++ a :: l.drop (j + 1) ∧ (l.take j).length = j := by
  obtain ⟨hj, ha⟩ := List.getElem?_eq_some_iff.1 h
  refine ⟨?_, by simp; omega⟩
  rw [← ha, List.getElem_cons_drop, List.take_append_drop]

theorem index_of_mark (g : Nat) {ms : List (Option Mark)} {j : Nat} {m : Mark}
    (h : ms[j]? = some (some m)) :
    (indices g ms)[j]? = some (some (m.getD (largestIndex g (ms.take j) + 1))) := by
  obtain ⟨hsplit, hlen⟩ := split_at h
  have hat := getElem?_indices g (ms.take j) m (ms.drop (j + 1))
  rwa [← hsplit, hlen] at hat

/-- Bare placeholders behind other text are numbered on from its largest index. -/
theorem indices_bare {ms : List (Option Mark)} (h : ∀ n, some (some n) ∉ ms) (o g : Nat) :
    indices (o + g) ms = (indices g ms).map (Option.map (o + ·)) := by
  induction ms generalizing g with
  | nil => rfl
  | cons m ms ih =>
    have hms : ∀ n, some (some n) ∉ ms := fun n hn => h n (List.mem_cons_of_mem m hn)
    cases m with
    | none => simp [indices, ih hms]
    | some m =>
      cases m with
      | some n => exact absurd List.mem_cons_self (h n)
      | none =>
        have hmax (k : Nat) : max k (k + 1) = k + 1 := max_eq_right (by omega)
        simp only [indices, Option.getD_none, hmax, List.map_cons, Option.map_some]
        rw [Nat.add_assoc, ih hms]

theorem one_le_index {g i : Nat} {ms : List (Option Mark)}
    (h : ∀ n, some (some n) ∈ ms → 1 ≤ n) (hi : some i ∈ indices g ms) : 1 ≤ i := by
  induction ms generalizing g with
  | nil => simp [indices] at hi
  | cons m ms ih =>
    have hms : ∀ n, some (some n) ∈ ms → 1 ≤ n := fun n hn => h n (List.mem_cons_of_mem m hn)
    cases m with
    | none => exact ih hms (by simpa [indices] using hi)
    | some m =>
      simp only [indices, List.mem_cons, Option.some.injEq] at hi
      rcases hi with rfl | hi
      · cases m with
        | none => simp
        | some n => exact h n List.mem_cons_self
      · exact ih hms hi

theorem foldl_placeholders (g : Nat) (A : List (Char × Bool)) :
    (placeholders A).foldl addIndex g = countFrom g (flaggedMarks A) := by
  induction A generalizing g with
  | nil => rfl
  | cons e A ih =>
    obtain ⟨c, live⟩ := e
    have hindex (ds : List Char) : indexOfDigits ds = Mark.counted (numberOf ds) := by
      unfold indexOfDigits Mark.counted numberOf
      cases ds.isEmpty <;> simp [Option.filter]
      split <;> split <;> first | rfl | omega
    by_cases hc : live ∧ c = '?'
    · simp [placeholders, flaggedMarks, hc, countFrom, ih, hindex]
    · simp [placeholders, flaggedMarks, hc, countFrom, ih]

theorem countPlaceholders_eq (sql : String) :
    countPlaceholders sql = countFrom 0 (marksOf sql.toList) := foldl_placeholders 0 _

theorem countFrom_append (g : Nat) (ms ns : List (Option Mark)) :
    countFrom g (ms ++ ns) = countFrom (countFrom g ms) ns := by
  induction ms generalizing g with
  | nil => rfl
  | cons m ms ih => cases m <;> simp [countFrom, ih]

theorem countFrom_lt {g : Nat} (hg : g < UInt64.size) (ms : List (Option Mark)) :
    countFrom g ms < UInt64.size := by
  induction ms generalizing g with
  | nil => exact hg
  | cons m ms ih =>
    cases m with
    | none => exact ih hg
    | some m =>
      refine ih ?_
      cases hm : m.counted with
      | none => exact Nat.mod_lt _ (by decide)
      | some n => exact max_lt hg (by simpa using (Option.filter_eq_some_iff.1 hm).2)

/-- What is counted is a machine word. -/
theorem countPlaceholders_lt (sql : String) : countPlaceholders sql < UInt64.size := by
  rw [countPlaceholders_eq]
  exact countFrom_lt (by decide) _

theorem countFrom_unmarked {ms : List (Option Mark)} (h : ∀ m ∈ ms, m = none) (g : Nat) :
    countFrom g ms = g := by
  induction ms with
  | nil => rfl
  | cons m ms ih =>
    rw [h m List.mem_cons_self]
    exact ih fun k hk => h k (List.mem_cons_of_mem m hk)

theorem largestIndex_append (g : Nat) (ms ns : List (Option Mark)) :
    largestIndex g (ms ++ ns) = largestIndex (largestIndex g ms) ns := by
  induction ms generalizing g with
  | nil => rfl
  | cons m ms ih => cases m <;> simp [largestIndex, ih]

theorem le_largestIndex (g : Nat) (ms : List (Option Mark)) : g ≤ largestIndex g ms :=
  ((largestIndex_le_iff g ms _).1 le_rfl).1

/-- Numbering from an index on reaches the larger of two indices: the one that it reaches from zero on,
and the one that it starts from with one more for each bare placeholder. -/
theorem largestIndex_eq_max (g : Nat) (ms : List (Option Mark)) :
    largestIndex g ms = max (g + ms.count (some none)) (largestIndex 0 ms) := by
  induction ms generalizing g with
  | nil => simp [largestIndex]
  | cons m ms ih =>
    cases m with
    | none => simpa [largestIndex] using ih g
    | some m =>
      rw [largestIndex, largestIndex, ih (max g (m.getD (g + 1))), ih (max 0 (m.getD (0 + 1)))]
      cases m with
      | none =>
        rw [List.count_cons_self]
        simp only [Option.getD_none]
        omega
      | some n =>
        rw [List.count_cons_of_ne (by simp)]
        simp only [Option.getD_some]
        omega

/-- Behind other text a text needs no more further indices than it needs alone. -/
theorem largestIndex_add_le (o g : Nat) (ms : List (Option Mark)) :
    largestIndex (o + g) ms ≤ o + largestIndex g ms := by
  rw [largestIndex_eq_max (o + g), largestIndex_eq_max g]
  omega

/-- Each bare placeholder needs an index of its own. -/
theorem count_bare_le_largestIndex (ms : List (Option Mark)) :
    ms.count (some none) ≤ largestIndex 0 ms := by
  rw [largestIndex_eq_max]
  omega

theorem largestIndex_bare {ms : List (Option Mark)} (h : ∀ n, some (some n) ∉ ms) (g : Nat) :
    largestIndex g ms = g + ms.count (some none) := by
  induction ms generalizing g with
  | nil => rfl
  | cons m ms ih =>
    have hms := ih fun n hn => h n (List.mem_cons_of_mem m hn)
    cases m with
    | none => simpa [largestIndex] using hms g
    | some m =>
      cases m with
      | some n => exact absurd List.mem_cons_self (h n)
      | none =>
        rw [largestIndex, hms, List.count_cons_self]
        simp only [Option.getD_none]
        omega

/-- No index is larger than the largest number with one more for each place behind it. -/
theorem largestIndex_le_add {ms : List (Option Mark)} {b : Nat}
    (h : ∀ n, some (some n) ∈ ms → n ≤ b) : largestIndex 0 ms ≤ b + ms.length := by
  induction ms with
  | nil => exact Nat.zero_le _
  | cons m ms ih =>
    have hms := ih fun n hn => h n (List.mem_cons_of_mem m hn)
    have hcount := List.count_le_length (a := (some none : Option Mark)) (l := ms)
    rw [List.length_cons]
    cases m with
    | none =>
      rw [largestIndex]
      omega
    | some m =>
      rw [largestIndex, largestIndex_eq_max]
      cases m with
      | none =>
        simp only [Option.getD_none]
        omega
      | some n =>
        have hn := h n List.mem_cons_self
        simp only [Option.getD_some]
        omega

/-- Where all indices are machine words, counting finds the largest of them. -/
theorem countFrom_eq_largestIndex {g : Nat} {ms : List (Option Mark)}
    (h : largestIndex g ms < UInt64.size) : countFrom g ms = largestIndex g ms := by
  induction ms generalizing g with
  | nil => rfl
  | cons m ms ih =>
    cases m with
    | none => exact ih h
    | some m =>
      have hadd : addIndex g m.counted = max g (m.getD (g + 1)) := by
        have hle := (le_largestIndex _ ms).trans_lt h
        cases m with
        | none =>
          have hmod : (g + 1) % UInt64.size = g + 1 := Nat.mod_eq_of_lt (by simpa using hle)
          simpa [Mark.counted, addIndex] using hmod
        | some n =>
          have hn : n < UInt64.size := (le_max_right g n).trans_lt hle
          simp [Mark.counted, addIndex, Option.filter, hn]
      rw [largestIndex, countFrom, hadd]
      exact ih h

/-- All indices of the placeholders of SQL text are machine words. -/
def HasWordIndices (sql : String) : Prop := largestIndex 0 (marksOf sql.toList) < UInt64.size

theorem countPlaceholders_eq_largestIndex {sql : String} (h : HasWordIndices sql) :
    countPlaceholders sql = largestIndex 0 (marksOf sql.toList) := by
  rw [countPlaceholders_eq]
  exact countFrom_eq_largestIndex h

end DataAccess.Sql
