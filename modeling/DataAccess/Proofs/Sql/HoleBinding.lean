import DataAccess.Proofs.Except
import DataAccess.Proofs.Sql.Numbering
import DataAccess.Proofs.Sql.Template
import Mathlib.Data.List.Infix

/-!
What the holes of a template are bound to. The database gives the placeholder of a hole an index,
and the value at that index is the one of the hole's name if the index is the rank of the hole.
A digit directly behind a hole becomes part of its placeholder and names another index, which
the count of placeholders need not notice: `bindTemplate_holesBound_iff` says exactly when every
hole has the value of its name, and that it does where no digit follows a hole.
-/
namespace DataAccess.Sql

open Decimal (isDigit)

/-- The place of a hole among the holes, counted from one, by the pieces before it. -/
def rank (before : List Piece) : Nat := (holeNames before).length + 1

def spelled (after : List Piece) : Mark := numberOf ((positionalText after).takeWhile isDigit)

/-- The placeholder of every hole has the rank of the hole as its index, where the value of the
hole's name is. -/
def HolesBound (template : String) (params : Params) (b : Bound) : Prop :=
  ∀ before name after, pieces 0 (scan template.toList) = before ++ .hole name :: after →
    (indicesOf b.sql)[before.length]? = some (some (rank before)) ∧
      b.params[rank before - 1]? = params.get? (String.ofList name)

/-- Digits behind the hole spell its rank. Without digits, the placeholders that the template
spells out before the hole have smaller indices than its rank. -/
def HoleFits (indices : List (Option Nat)) (before after : List Piece) : Prop :=
  match spelled after with
  | some n => n = rank before
  | none => ∀ (j i : Nat), before[j]? = some (.kept '?') → indices[j]? = some (some i) →
      i < rank before

private theorem marks_suffix (A B : List (Char × Bool)) :
    ∃ M, M.length = A.length ∧ flaggedMarks (A ++ B) = M ++ flaggedMarks B := by
  induction A with
  | nil => exact ⟨[], rfl, rfl⟩
  | cons e A ih =>
    obtain ⟨M, hM, hmarks⟩ := ih
    exact ⟨_ :: M, by simp [hM], by rw [List.cons_append, flaggedMarks, hmarks, List.cons_append]⟩

/-- The mark of a hole names the number spelled behind it. -/
theorem Cut.marks_hole {text name : List Char} {ps before after : List Piece}
    (h : Cut .code text ps) (hps : ps = before ++ .hole name :: after) :
    ∃ M N, M.length = before.length ∧
      marksOf (positionalText ps) = M ++ some (spelled after) :: N := by
  obtain ⟨A, hA, hscan⟩ := h.scan_hole hps
  obtain ⟨M, hM, hmarks⟩ := marks_suffix A (('?', true) ::
    Region.code.scan (positionalText after))
  refine ⟨M, flaggedMarks (Region.code.scan (positionalText after)), hM.trans hA, ?_⟩
  rw [marksOf, scan, hscan, hmarks, flaggedMarks, takeWhile_scan_digits]
  simp [spelled]

private theorem marks_char {A : List (Char × Bool)} {j : Nat} {m : Mark}
    (h : (flaggedMarks A)[j]? = some (some m)) : (A.map Prod.fst)[j]? = some '?' := by
  induction A generalizing j with
  | nil => simp [flaggedMarks] at h
  | cons e A ih =>
    obtain ⟨c, live⟩ := e
    cases j with
    | zero =>
      simp only [flaggedMarks, List.getElem?_cons_zero, Option.some.injEq] at h
      split_ifs at h with hc
      simp [hc.2]
    | succ j => simpa using ih (by simpa [flaggedMarks] using h)

/-- A placeholder of positional text stands for a hole or is spelled out. -/
theorem piece_of_mark {ps : List Piece} {j : Nat} {m : Mark}
    (h : (marksOf (positionalText ps))[j]? = some (some m)) :
    (∃ name, ps[j]? = some (.hole name)) ∨ ps[j]? = some (.kept '?') := by
  have hchar := marks_char h
  rw [scan, Region.map_fst_scan, positionalText, List.getElem?_map] at hchar
  obtain ⟨p, hp, hc⟩ := Option.map_eq_some_iff.1 hchar
  cases p with
  | hole name => exact .inl ⟨name, hp⟩
  | kept c => exact .inr (by simpa [hp] using hc)

private theorem mark_of_index {g j i : Nat} {ms : List (Option Mark)}
    (h : (indices g ms)[j]? = some (some i)) : ∃ m, ms[j]? = some (some m) := by
  induction ms generalizing g j with
  | nil => simp [indices] at h
  | cons m ms ih =>
    cases m with
    | none =>
      cases j with
      | zero => simp [indices] at h
      | succ j => simpa using ih (by simpa [indices] using h)
    | some m =>
      cases j with
      | zero => exact ⟨m, rfl⟩
      | succ j => simpa using ih (by simpa [indices] using h)

private theorem last_hole {ps : List Piece} (h : 0 < (holeNames ps).length) :
    ∃ before name after, ps = before ++ .hole name :: after ∧
      rank before = (holeNames ps).length := by
  induction ps with
  | nil => simp [holeNames] at h
  | cons p ps ih =>
    by_cases hps : 0 < (holeNames ps).length
    · obtain ⟨before, name, after, rfl, hrank⟩ := ih hps
      refine ⟨p :: before, name, after, rfl, ?_⟩
      cases p with
      | kept c => simpa [rank] using hrank
      | hole n => simpa [rank] using hrank
    · cases p with
      | kept c => exact absurd h (by simpa using hps)
      | hole name =>
        refine ⟨[], name, ps, rfl, ?_⟩
        rw [holeNames_hole, List.length_cons, Nat.eq_zero_of_not_pos hps]
        rfl

/-- Behind holes that have their ranks, and further placeholders with indices no larger, the next
index is the next rank. -/
theorem largestIndex_of_ranks {before : List Piece} {M : List (Option Mark)}
    (hpiece : ∀ (j : Nat) (m : Mark), M[j]? = some (some m) →
      (∃ name, before[j]? = some (.hole name)) ∨ before[j]? = some (.kept '?'))
    (hholes : ∀ b name a, before = b ++ .hole name :: a →
      (indices 0 M)[b.length]? = some (some (rank b)))
    (hkept : ∀ (j i : Nat), before[j]? = some (.kept '?') →
      (indices 0 M)[j]? = some (some i) → i < rank before) :
    largestIndex 0 M = (holeNames before).length := by
  apply le_antisymm
  · refine (largestIndex_le_iff 0 M _).2 ⟨Nat.zero_le _, fun i hi => ?_⟩
    obtain ⟨j, hj⟩ := List.mem_iff_getElem?.1 hi
    obtain ⟨m, hm⟩ := mark_of_index hj
    rcases hpiece j m hm with ⟨name, hhole⟩ | hspelled
    · obtain ⟨hsplit, hlen⟩ := split_at hhole
      have hrank := hholes _ name _ hsplit
      rw [hlen, hj] at hrank
      have hi : i = rank (before.take j) := by simpa using hrank
      have hcount := congrArg (fun l => (holeNames l).length) hsplit
      simp only [holeNames_append, holeNames_hole, List.length_append, List.length_cons] at hcount
      unfold rank at hi
      omega
    · exact Nat.le_of_lt_succ (hkept j i hspelled hj)
  · by_cases hpos : 0 < (holeNames before).length
    · obtain ⟨b, name, a, hb, hrank⟩ := last_hole hpos
      rw [← hrank]
      exact index_le_largestIndex (List.mem_of_getElem? (hholes b name a hb))
    · omega

section Holes

variable {text : List Char} {ps : List Piece}

/-- Where every hole fits, the index of each is its rank. The induction is on how far in front
the hole stands, as its index depends on those of the holes before it. -/
theorem Cut.index_of_fits (h : Cut .code text ps)
    (hfits : ∀ before name after, ps = before ++ .hole name :: after →
      HoleFits (indices 0 (marksOf (positionalText ps))) before after)
    {before after : List Piece} {name : List Char} (hps : ps = before ++ .hole name :: after) :
    (indices 0 (marksOf (positionalText ps)))[before.length]? = some (some (rank before)) := by
  induction hn : before.length using Nat.strongRecOn generalizing before name after with
  | ind n ih =>
    subst hn
    obtain ⟨M, N, hM, hmarks⟩ := h.marks_hole hps
    have hfit := hfits before name after hps
    have hindex := getElem?_indices 0 M (spelled after) N
    rw [← hmarks, hM] at hindex
    rw [hindex]
    unfold HoleFits at hfit
    cases hs : spelled after with
    | some n =>
      rw [hs] at hfit
      simp [hfit]
    | none =>
      rw [hs] at hfit
      have hfront {j : Nat} (hj : j < before.length) :
          (indices 0 (marksOf (positionalText ps)))[j]? = (indices 0 M)[j]? := by
        rw [hmarks, indices_append]
        exact List.getElem?_append_left (by rwa [length_indices, hM])
      have hlargest : largestIndex 0 M = (holeNames before).length := by
        apply largestIndex_of_ranks
        · intro j m hm
          have hj : j < before.length := hM ▸ (List.getElem?_eq_some_iff.1 hm).1
          have hmark : (marksOf (positionalText ps))[j]? = some (some m) := by
            rw [hmarks]
            exact (List.getElem?_append_left (by rwa [hM])).trans hm
          have hpiece := piece_of_mark hmark
          rwa [hps, List.getElem?_append_left hj] at hpiece
        · intro b name' a hb
          have hlt : b.length < before.length := by simp [hb]
          have hsplit : ps = b ++ .hole name' :: (a ++ .hole name :: after) := by
            rw [hps, hb, List.append_assoc, List.cons_append]
          rw [← hfront hlt]
          exact ih b.length hlt hsplit rfl
        · intro j i hj hi
          exact hfit j i hj (hfront (List.getElem?_eq_some_iff.1 hj).1 ▸ hi)
      rw [hlargest]
      rfl

/-- A hole whose index is its rank fits. -/
theorem Cut.fits_of_index (h : Cut .code text ps) {before after : List Piece}
    {name : List Char} (hps : ps = before ++ .hole name :: after)
    (hindex : (indices 0 (marksOf (positionalText ps)))[before.length]? =
      some (some (rank before))) :
    HoleFits (indices 0 (marksOf (positionalText ps))) before after := by
  obtain ⟨M, N, hM, hmarks⟩ := h.marks_hole hps
  have hat := getElem?_indices 0 M (spelled after) N
  rw [← hmarks, hM, hindex] at hat
  unfold HoleFits
  cases hs : spelled after with
  | some n => simpa [hs] using hat.symm
  | none =>
    intro j i hkept hi
    have hrank : rank before = largestIndex 0 M + 1 := by simpa [hs] using hat
    have hj : j < (indices 0 M).length := by
      rw [length_indices, hM]
      exact (List.getElem?_eq_some_iff.1 hkept).1
    rw [hmarks, indices_append, List.getElem?_append_left hj] at hi
    have := index_le_largestIndex (List.mem_of_getElem? hi)
    omega

end Holes

abbrev BareHoles : List Piece → List (Option Mark) → Prop :=
  List.Forall₂ fun p m => ∀ name, p = Piece.hole name → m = some none

/-- Every bare hole is given a further index. -/
theorem BareHoles.le_largestIndex {ps : List Piece} {ms : List (Option Mark)}
    (h : BareHoles ps ms) (g : Nat) : g + (holeNames ps).length ≤ largestIndex g ms := by
  induction h generalizing g with
  | nil => simp [holeNames, largestIndex]
  | @cons p m ps ms hp _ ih =>
    cases p with
    | hole name =>
      rw [hp name rfl, largestIndex]
      have hrest := ih (max g (g + 1))
      simp only [holeNames_hole, List.length_cons, Option.getD_none]
      omega
    | kept c =>
      have hstep : g ≤ largestIndex g [m] := Sql.le_largestIndex g [m]
      have hrest := ih (largestIndex g [m])
      rw [← largestIndex_append, List.singleton_append] at hrest
      rw [holeNames_kept]
      omega

/-- Where there are no more indices than holes, and all holes are bare, a placeholder between them
that is spelled out names an index no larger than the number of holes before it. -/
theorem BareHoles.index_le {before after : List Piece} {ms ns : List (Option Mark)} {m : Mark}
    (ha : BareHoles after ns)
    (hcount : largestIndex 0 (ms ++ some m :: ns) ≤
      (holeNames before).length + (holeNames after).length) :
    m.getD (largestIndex 0 ms + 1) ≤ (holeNames before).length := by
  have hns := ha.le_largestIndex (max (largestIndex 0 ms) (m.getD (largestIndex 0 ms + 1)))
  rw [largestIndex_append, largestIndex] at hcount
  omega

/-- The marks of positional text in which no digit follows a hole. -/
theorem Cut.bareHoles {text : List Char} {ps : List Piece} (h : Cut .code text ps)
    (hbare : ∀ before name after, ps = before ++ .hole name :: after → spelled after = none) :
    BareHoles ps (marksOf (positionalText ps)) := by
  refine List.forall₂_iff_get.2 ⟨?_, fun i hi hi' name hname => ?_⟩
  · rw [length_marksOf, length_positionalText]
  · have hat : ps[i]? = some (.hole name) := by
      rw [List.getElem?_eq_getElem hi]
      exact congrArg some hname
    obtain ⟨hsplit, hlen⟩ := split_at hat
    obtain ⟨M, N, hM, hmarks⟩ := h.marks_hole hsplit
    rw [hbare _ _ _ hsplit] at hmarks
    have hmark : (marksOf (positionalText ps))[i]? = some (some none) := by
      rw [hmarks, List.getElem?_append_right (by omega)]
      simp [hM, hlen]
    exact (List.getElem?_eq_some_iff.1 hmark).2

/-- Where no digit follows a hole and every index is counted for a hole, every hole fits. -/
theorem Cut.fits_of_bare {text : List Char} {ps : List Piece} (h : Cut .code text ps)
    (hbare : ∀ before name after, ps = before ++ .hole name :: after → spelled after = none)
    (hcount : largestIndex 0 (marksOf (positionalText ps)) = (holeNames ps).length)
    {before after : List Piece} {name : List Char} (hps : ps = before ++ .hole name :: after) :
    HoleFits (indices 0 (marksOf (positionalText ps))) before after := by
  unfold HoleFits
  rw [hbare before name after hps]
  intro j i hkept hi
  have hj : j < before.length := (List.getElem?_eq_some_iff.1 hkept).1
  have hat : ps[j]? = some (.kept '?') := by rw [hps, List.getElem?_append_left hj, hkept]
  obtain ⟨m, hm⟩ := mark_of_index hi
  obtain ⟨hpieces, hlen⟩ := split_at hat
  obtain ⟨hmarks, -⟩ := split_at hm
  have hback := List.forall₂_drop (j + 1) (h.bareHoles hbare)
  generalize marksOf (positionalText ps) = M at *
  have htotal := congrArg (fun l => (holeNames l).length) hpieces
  simp only [holeNames_append, holeNames_kept, List.length_append] at htotal
  have hle : m.getD (largestIndex 0 (M.take j) + 1) ≤ (holeNames (ps.take j)).length :=
    BareHoles.index_le hback (by rw [← hmarks]; omega)
  have hindex := index_of_mark 0 hm
  rw [hi] at hindex
  have hindex : i = m.getD (largestIndex 0 (M.take j) + 1) := by simpa using hindex
  have htake : (holeNames (ps.take j)).length ≤ (holeNames before).length := by
    rw [hps, List.take_append_of_le_length (by omega)]
    exact ((List.take_sublist j before).filterMap _).length_le
  unfold rank
  omega

/-- The values of a template's names, one for each hole. -/
theorem mapM_lookUp {params : Params} {names : List String} {values : List Value}
    (h : names.mapM (lookUp params) = .ok values) :
    values.map some = names.map params.get? := by
  have hvalues := forall₂_of_mapM_ok h
  clear h
  induction hvalues with
  | nil => rfl
  | @cons name v names values hv _ ih =>
    unfold lookUp at hv
    split at hv
    · rename_i w hw
      cases hv
      rw [List.map_cons, List.map_cons, hw, ih]
    · cases hv

/-- What a bound template is made of. -/
theorem bindTemplate_ok {template : String} {params : Params} {b : Bound}
    (h : bindTemplate template params = .ok b) :
    b.sql.toList = positionalText (pieces 0 (scan template.toList)) ∧
      b.params.map some = (holeNames (pieces 0 (scan template.toList))).map params.get? ∧
      countPlaceholders b.sql = b.params.length := by
  unfold bindTemplate at h
  obtain ⟨values, hvs, hmake⟩ := exists_of_bind_ok h
  unfold Bound.make at hmake
  split_ifs at hmake with hcount
  cases hmake
  exact ⟨String.toList_ofList, mapM_lookUp hvs, by simpa using hcount⟩

/-- A bound template has a placeholder for each hole, and each hole has the value of its name just
when it fits. It does where no digit follows a hole and all indices are machine words. -/
theorem bindTemplate_holesBound_iff {template : String} {params : Params} {b : Bound}
    (h : bindTemplate template params = .ok b) :
    b.sql.toList = positionalText (pieces 0 (scan template.toList)) ∧
      (HolesBound template params b ↔
        ∀ before name after, pieces 0 (scan template.toList) = before ++ .hole name :: after →
          HoleFits (indicesOf b.sql) before after) ∧
      (HasWordIndices b.sql →
        (∀ before name after, pieces 0 (scan template.toList) = before ++ .hole name :: after →
          spelled after = none) → HolesBound template params b) := by
  obtain ⟨hsql, hvalues, hcount⟩ := bindTemplate_ok h
  have hcut : Cut .code template.toList (pieces 0 (scan template.toList)) := cut_pieces _ _
  have hlen := congrArg List.length hvalues
  rw [List.length_map, List.length_map] at hlen
  have hlargest (hword : HasWordIndices b.sql) :
      largestIndex 0 (marksOf (positionalText (pieces 0 (scan template.toList)))) =
        (holeNames (pieces 0 (scan template.toList))).length := by
    rw [← hsql, ← countPlaceholders_eq_largestIndex hword, hcount, hlen]
  unfold HolesBound indicesOf
  rw [hsql]
  generalize pieces 0 (scan template.toList) = ps at *
  have hvalue {before after : List Piece} {name : List Char}
      (hps : ps = before ++ .hole name :: after) :
      b.params[rank before - 1]? = params.get? (String.ofList name) := by
    have hat : (holeNames ps)[rank before - 1]? = some (String.ofList name) := by
      simp [hps, rank]
    have hval := congrArg (fun l => l[rank before - 1]?) hvalues
    simp only [List.getElem?_map, hat, Option.map_some] at hval
    obtain ⟨v, hv, hname⟩ := Option.map_eq_some_iff.1 hval
    rw [hv, hname]
  have hbound (hfits : ∀ before name after, ps = before ++ .hole name :: after →
      HoleFits (indices 0 (marksOf (positionalText ps))) before after) :
      ∀ before name after, ps = before ++ .hole name :: after →
        (indices 0 (marksOf (positionalText ps)))[before.length]? = some (some (rank before)) ∧
          b.params[rank before - 1]? = params.get? (String.ofList name) := by
    intro before name after hps
    exact ⟨hcut.index_of_fits hfits hps, hvalue hps⟩
  refine ⟨rfl, ⟨fun hholes before name after hps => ?_, hbound⟩, fun hword hbare => ?_⟩
  · exact hcut.fits_of_index hps (hholes before name after hps).1
  · exact hbound fun before name after hps => hcut.fits_of_bare hbare (hlargest hword) hps

theorem bindTemplate_holesBound_pair :
    ∃ b, bindTemplate "select \x7ba\x7d, \x7bb\x7d"
        (Params.ofList [("a", .integer 1), ("b", .integer 2)]) = .ok b ∧
      HolesBound "select \x7ba\x7d, \x7bb\x7d"
        (Params.ofList [("a", .integer 1), ("b", .integer 2)]) b := by
  have hbind : bindTemplate "select \x7ba\x7d, \x7bb\x7d"
      (Params.ofList [("a", .integer 1), ("b", .integer 2)]) =
      .ok ⟨"select ?, ?", [.integer 1, .integer 2], by decide +kernel⟩ := by rfl
  have hword : HasWordIndices "select ?, ?" := by
    unfold HasWordIndices
    decide +kernel
  refine ⟨_, hbind, (bindTemplate_holesBound_iff hbind).2.2 hword fun before name after hps => ?_⟩
  have hbare : ((pieces 0 (scan "select \x7ba\x7d, \x7bb\x7d".toList)).tails.all fun
      | [] => true
      | .kept _ :: _ => true
      | .hole _ :: after => spelled after = none) = true := by decide +kernel
  have := List.all_eq_true.1 hbare (.hole name :: after)
    ((List.mem_tails _ _).2 ⟨before, hps.symm⟩)
  simpa using this

/-- The first hole gets the value of the second where digits swap their indices. -/
theorem bindTemplate_digit_behind_hole :
    ∃ b, bindTemplate "select \x7ba\x7d2, \x7bb\x7d1"
        (Params.ofList [("a", .integer 1), ("b", .integer 2)]) = .ok b ∧
      ¬ HolesBound "select \x7ba\x7d2, \x7bb\x7d1"
        (Params.ofList [("a", .integer 1), ("b", .integer 2)]) b := by
  refine ⟨⟨"select ?2, ?1", [.integer 1, .integer 2], by decide +kernel⟩, by rfl, fun h => ?_⟩
  have hfirst := (h ("select ".toList.map .kept) "a".toList
    ((pieces 0 (scan "select \x7ba\x7d2, \x7bb\x7d1".toList)).drop 8) (by decide +kernel)).1
  exact absurd hfirst (by decide +kernel)

end DataAccess.Sql
