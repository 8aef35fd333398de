import DataAccess.Proofs.Sql.Counting
import DataAccess.Proofs.Sql.Joining

/-!
Placeholders that a template spells out. They are refused when they make the count of placeholders differ from
the number of names, and a number that is no larger than the number of names in front of it does not.
`bindTemplate_spelledOut` says that, where no digit stands directly behind a name in braces, the
templates with such numbers alone are let through, and that a bare question mark needs such a digit.
-/
namespace DataAccess.Sql

open Decimal (isDigit)

def namesBefore (ms : List (Char × Bool)) (i : Nat) : Nat :=
  ((List.range i).filterMap (nameAt? ms)).length

/-- A digit stands directly behind the name in braces that starts at a position. -/
def digitBehind (ms : List (Char × Bool)) (j : Nat) : Bool :=
  (nameAt? ms j).any fun name => ms[j + name.length + 2]?.any fun m => isDigit m.1

def digitsBehind (ms : List (Char × Bool)) : Nat := (List.range ms.length).countP (digitBehind ms)

/-- Every placeholder that flagged text spells out has a number, no larger than that of the names in front of
it: `taken` of them, and the names in braces of the text itself. -/
def Reuses (taken : Nat) (ms : List (Char × Bool)) : Prop :=
  ∀ i m, (flaggedMarks ms)[i]? = some (some m) →
    ∃ n ∈ m, n ≤ taken + namesBefore ms i

theorem namesBefore_append (A ms : List (Char × Bool)) (i : Nat) :
    namesBefore (A ++ ms) (A.length + i) =
      namesBefore (A ++ ms) A.length + namesBefore ms i := by
  unfold namesBefore
  rw [List.range_add, List.filterMap_append, List.filterMap_map, List.length_append]
  congr 2
  exact List.filterMap_congr fun i _ => nameAt?_append A ms i

/-- The names in front of a part of the text are those that are not in the rest. -/
theorem namesBefore_length {A ms : List (Char × Bool)} :
    namesBefore (A ++ ms) A.length + (namesIn ms).length = (namesIn (A ++ ms)).length := by
  rw [namesIn_append, List.length_append]
  rfl

theorem digitBehind_append (A ms : List (Char × Bool)) (j : Nat) :
    digitBehind (A ++ ms) (A.length + j) = digitBehind ms j := by
  unfold digitBehind
  rw [nameAt?_append]
  congr 1
  funext name
  rw [Nat.add_assoc, Nat.add_assoc, List.getElem?_append_right (Nat.le_add_right _ _),
    Nat.add_sub_cancel_left, Nat.add_assoc]

theorem digitsBehind_append (A ms : List (Char × Bool)) :
    digitsBehind (A ++ ms) =
      (List.range A.length).countP (digitBehind (A ++ ms)) + digitsBehind ms := by
  unfold digitsBehind
  rw [List.length_append, List.range_add, List.countP_append, List.countP_map]
  congr 1
  exact List.countP_congr fun i _ => by rw [Function.comp, digitBehind_append]

/-- Placeholders of a text in two parts: those of the first, and those of the rest behind the names of the
first. -/
theorem reuses_append {A ms : List (Char × Bool)} {M : List (Option Mark)}
    (hmarks : flaggedMarks (A ++ ms) = M ++ flaggedMarks ms) (hM : M.length = A.length)
    (taken : Nat) :
    Reuses taken (A ++ ms) ↔
      (∀ i m, M[i]? = some (some m) →
        ∃ n ∈ m, n ≤ taken + namesBefore (A ++ ms) i) ∧
      Reuses (taken + namesBefore (A ++ ms) A.length) ms := by
  unfold Reuses
  rw [hmarks]
  constructor
  · intro h
    refine ⟨fun i m hm => h i m ?_, fun i m hm => ?_⟩
    · rw [List.getElem?_append_left (List.getElem?_eq_some_iff.1 hm).1, hm]
    · rw [Nat.add_assoc, ← namesBefore_append]
      refine h (A.length + i) m ?_
      rw [List.getElem?_append_right (by omega), hM, Nat.add_sub_cancel_left, hm]
  · rintro ⟨hfront, hrest⟩ i m hm
    rcases Nat.lt_or_ge i M.length with hi | hi
    · rw [List.getElem?_append_left hi] at hm
      exact hfront i m hm
    · obtain ⟨k, rfl⟩ := Nat.exists_eq_add_of_le (hM ▸ hi)
      rw [namesBefore_append, ← Nat.add_assoc]
      refine hrest k m ?_
      rwa [List.getElem?_append_right hi, hM, Nat.add_sub_cancel_left] at hm

/-- A character that starts no name in braces. -/
theorem reuses_kept {c : Char} {live : Bool} {ms : List (Char × Bool)} {m : Option Mark}
    (h : nameAt? ((c, live) :: ms) 0 = none)
    (hmark : flaggedMarks ((c, live) :: ms) = m :: flaggedMarks ms) (taken : Nat) :
    Reuses taken ((c, live) :: ms) ↔
      (∀ k, m = some k → ∃ n ∈ k, n ≤ taken) ∧ Reuses taken ms := by
  have happend := reuses_append (A := [(c, live)]) (M := [m]) hmark rfl taken
  have hnone : namesBefore ((c, live) :: ms) 1 = 0 := by simp [namesBefore, h]
  rw [List.singleton_append, List.length_singleton, hnone, Nat.add_zero] at happend
  rw [happend]
  refine and_congr_left fun _ => ⟨fun hfirst k hk => hfirst 0 k (by simp [hk]), ?_⟩
  intro hfirst i k hk
  cases i with
  | zero => exact hfirst k (by simpa using hk)
  | succ i => simp at hk

theorem not_mem_source {name : List Char} (hid : isIdentifier name = true) :
    ∀ c ∈ (Piece.hole name).source, c ≠ '?' := by
  rintro c hc rfl
  simp only [Piece.source, List.mem_cons, List.mem_append, List.not_mem_nil, or_false] at hc
  rcases hc with hopen | hname | hclose
  · exact absurd hopen (by decide)
  · exact absurd (isNameChar_of_isIdentifier hid _ hname) (by decide)
  · exact absurd hclose (by decide)

/-- A name in braces. -/
theorem reuses_name {name : List Char} (hid : isIdentifier name = true) (ms : List (Char × Bool))
    (taken : Nat) :
    Reuses taken ((Piece.hole name).source.map (·, true) ++ ms) ↔ Reuses (taken + 1) ms := by
  obtain ⟨-, hnames⟩ := flaggedReplaced_name hid ms
  have hcount : namesBefore ((Piece.hole name).source.map (·, true) ++ ms)
      ((Piece.hole name).source.map (·, true)).length = 1 := by
    have hlength := congrArg List.length hnames
    rw [← namesBefore_length, List.length_cons] at hlength
    omega
  have hmarks := flaggedMarks_map_live (not_mem_source hid) ms
  rw [reuses_append hmarks (by simp), hcount]
  refine and_iff_right fun i m hm => ?_
  have hnone := List.eq_of_mem_replicate (List.mem_of_getElem? hm)
  cases hnone

/-- A digit behind a name in braces is the first character behind it. -/
theorem digitBehind_source {name : List Char} (hid : isIdentifier name = true)
    (ms : List (Char × Bool)) :
    digitBehind ((Piece.hole name).source.map (·, true) ++ ms) 0 =
      ms.head?.any fun m => isDigit m.1 := by
  have hget : ((Piece.hole name).source.map (·, true) ++ ms)[0 + name.length + 2]? = ms.head? := by
    rw [List.getElem?_append_right (by simp [Piece.source]), List.head?_eq_getElem?]
    simp [Piece.source]
  unfold digitBehind
  rw [nameAt?_source hid, Option.any_some, hget]

theorem digitsBehind_kept {c : Char} {live : Bool} {ms : List (Char × Bool)}
    (h : nameAt? ((c, live) :: ms) 0 = none) : digitsBehind ((c, live) :: ms) = digitsBehind ms := by
  have happend := digitsBehind_append [(c, live)] ms
  rw [List.singleton_append, List.length_singleton] at happend
  rw [happend]
  simp [digitBehind, h]

theorem digitsBehind_name {name : List Char} (hid : isIdentifier name = true)
    (ms : List (Char × Bool)) :
    digitsBehind ((Piece.hole name).source.map (·, true) ++ ms) =
      (if ms.head?.any (fun m => isDigit m.1) then 1 else 0) + digitsBehind ms := by
  have hrange : List.range ((Piece.hole name).source.map (·, true)).length =
      0 :: (List.range (name.length + 1)).map Nat.succ := by
    rw [← List.range_succ_eq_map]
    simp [Piece.source]
  have hrest : ((List.range (name.length + 1)).map Nat.succ).countP
      (digitBehind ((Piece.hole name).source.map (·, true) ++ ms)) = 0 := by
    rw [List.countP_eq_zero]
    simp only [List.forall_mem_map, List.mem_range]
    intro j hj
    simp [digitBehind, nameAt?_within_source hid ms hj]
  rw [digitsBehind_append, hrange, List.countP_cons, hrest, digitBehind_source hid, Nat.zero_add]

section Marks

variable {r : Region} {c : Char} {rest text tail : List Char} {ps : List Piece}

theorem Cut.takeWhile_isDigit (h : Cut r text ps) :
    (positionalText ps).takeWhile isDigit = text.takeWhile isDigit := by
  induction h with
  | nil r => rfl
  | @kept r c rest ps _ _ ih =>
    change (c :: positionalText ps).takeWhile isDigit = _
    rw [List.takeWhile_cons, List.takeWhile_cons, ih]
  | hole _ _ _ =>
    change ('?' :: positionalText _).takeWhile isDigit = _
    rw [List.takeWhile_cons, List.takeWhile_cons]
    rfl

/-- A placeholder that is kept names in the bound text what it names in the template. -/
theorem Cut.exists_mark (h : Cut (r.step c rest.head?).1 rest ps) :
    ∃ m, flaggedMarks (r.scan (c :: rest)) =
        m :: flaggedMarks ((r.step c rest.head?).1.scan rest) ∧
      flaggedMarks (r.scan (positionalText (.kept c :: ps))) =
        m :: flaggedMarks ((r.step c rest.head?).1.scan (positionalText ps)) := by
  refine ⟨_, flaggedMarks_scan_cons r c rest, ?_⟩
  change flaggedMarks (r.scan (c :: positionalText ps)) = _
  rw [flaggedMarks_scan_cons, h.step_head, h.takeWhile_isDigit]

theorem Cut.flaggedMarks_hole (h : Cut .code tail ps) (name : List Char) :
    flaggedMarks (Region.code.scan (positionalText (.hole name :: ps))) =
      some (numberOf (tail.takeWhile isDigit)) ::
        flaggedMarks (Region.code.scan (positionalText ps)) := by
  change flaggedMarks (Region.code.scan ('?' :: positionalText ps)) = _
  rw [flaggedMarks_scan_cons, Region.step_inert (by decide), h.takeWhile_isDigit]
  rfl

theorem numberOf_eq_none_iff (tail : List Char) :
    numberOf (tail.takeWhile isDigit) = none ↔
      (Region.code.scan tail).head?.any (fun m => isDigit m.1) = false := by
  rw [numberOf_takeWhile_eq_none]
  cases tail <;> simp [Region.scan]

/-- Of the bare placeholders of the bound text, those that are kept are bare in the template, and each name in
braces gives one unless a digit stands behind it. -/
theorem Cut.count_bare (h : Cut r text ps) :
    (flaggedMarks (r.scan (positionalText ps))).count (some none) + digitsBehind (r.scan text) =
      (flaggedMarks (r.scan text)).count (some none) + (holeNames ps).length := by
  induction h with
  | nil r => rfl
  | @kept r c rest ps hkept hcut ih =>
    obtain ⟨m, hmark, hmark'⟩ := hcut.exists_mark
    have hdigits : digitsBehind (r.scan (c :: rest)) =
        digitsBehind ((r.step c rest.head?).1.scan rest) := digitsBehind_kept (nameAt?_of_kept hkept)
    rw [hmark, hmark', hdigits, List.count_cons, List.count_cons, holeNames_kept]
    omega
  | @hole name tail ps hid hcut ih =>
    rw [hcut.flaggedMarks_hole, scan_source hid, digitsBehind_name hid,
      flaggedMarks_map_live (not_mem_source hid), List.count_cons, List.count_append,
      List.count_replicate, holeNames_hole, List.length_cons]
    simp only [beq_iff_eq, Option.some.injEq, numberOf_eq_none_iff, reduceCtorEq, if_false]
    cases (Region.code.scan tail).head?.any (fun m => isDigit m.1) with
    | false =>
      rw [if_pos rfl, if_neg Bool.false_ne_true]
      omega
    | true =>
      rw [if_neg (Ne.symm Bool.false_ne_true), if_pos rfl]
      omega

/-- A placeholder that needs no further index has a number, and one that is not beyond the indices so far. -/
theorem Mark.max_getD_eq_iff (largest : Nat) (m : Mark) :
    max largest (m.getD (largest + 1)) = largest ↔ ∃ n ∈ m, n ≤ largest := by
  cases m with
  | none => simp
  | some n => simp

/-- Where no digit stands behind a name in braces, each name needs an index. No more indices are needed than
there are names just when every other placeholder has a number that is taken already when it is reached. -/
theorem Cut.largestIndex_eq_iff (h : Cut r text ps) (hbare : digitsBehind (r.scan text) = 0)
    (taken : Nat) :
    taken + (holeNames ps).length ≤
        largestIndex taken (flaggedMarks (r.scan (positionalText ps))) ∧
      (largestIndex taken (flaggedMarks (r.scan (positionalText ps))) =
        taken + (holeNames ps).length ↔ Reuses taken (r.scan text)) := by
  induction h generalizing taken with
  | nil r =>
    refine ⟨le_rfl, iff_of_true rfl ?_⟩
    intro i m hm
    simp [Region.scan, flaggedMarks] at hm
  | @kept r c rest ps hkept hcut ih =>
    obtain ⟨m, hmark, hmark'⟩ := hcut.exists_mark
    have hfirst := nameAt?_of_kept hkept
    specialize ih ((digitsBehind_kept hfirst).symm.trans hbare)
    have hreuses := reuses_kept hfirst hmark taken
    rw [hmark', holeNames_kept]
    change _ ∧ (_ ↔ Reuses taken ((c, (r.step c rest.head?).2) :: _))
    rw [hreuses]
    cases m with
    | none => simpa [largestIndex] using ih taken
    | some k =>
      obtain ⟨hle, heq⟩ := ih (max taken (k.getD (taken + 1)))
      have hstep := le_max_left taken (k.getD (taken + 1))
      have htaken := Mark.max_getD_eq_iff taken k
      simp only [largestIndex, Option.some.injEq, forall_eq', ← htaken]
      refine ⟨by omega, ?_, ?_⟩
      · intro hcount
        have hmax : max taken (k.getD (taken + 1)) = taken := by omega
        rw [hmax] at heq hcount
        exact ⟨hmax, heq.1 hcount⟩
      · rintro ⟨hmax, hrest⟩
        rw [hmax] at heq ⊢
        exact heq.2 hrest
  | @hole name tail ps hid hcut ih =>
    rw [scan_source hid, digitsBehind_name hid, Nat.add_eq_zero_iff] at hbare
    obtain ⟨hdigit, hrest⟩ := hbare
    have hnone : numberOf (tail.takeWhile isDigit) = none := by
      rw [numberOf_eq_none_iff]
      simpa using hdigit
    obtain ⟨hle, heq⟩ := ih hrest (taken + 1)
    have hmax : max taken (Option.getD (none : Mark) (taken + 1)) = taken + 1 :=
      max_eq_right (Nat.le_succ taken)
    rw [scan_source hid, hcut.flaggedMarks_hole, hnone, largestIndex, hmax, holeNames_hole,
      List.length_cons, reuses_name hid, ← heq]
    exact ⟨by omega, by omega⟩

end Marks

/-- Where all names have values, what is left of binding is the count. -/
theorem bindTemplate_of_values {template : String} {params : Params}
    (h : ∀ name ∈ templateNames template, (params.get? name).isSome = true) :
    ∃ values : List Value, values.length = (templateNames template).length ∧
      bindTemplate template params = Bound.make (substituted template) values := by
  have hfind : ((templateNames template).find? fun name => (params.get? name).isNone) = none := by
    rw [List.find?_eq_none]
    intro name hname hnone
    rw [Option.isNone_iff_eq_none] at hnone
    exact absurd (h name hname) (by simp [hnone])
  have hlook : (templateNames template).mapM (lookUp params) =
      .ok ((templateNames template).filterMap params.get?) := by
    rw [mapM_lookUp_eq, hfind]
  have hvalues := congrArg List.length (mapM_lookUp hlook)
  rw [List.length_map, List.length_map] at hvalues
  exact ⟨_, hvalues, by rw [bindTemplate_eq, hlook, ok_bind]⟩

/-- The names of a bound template have values. -/
theorem isSome_of_bindTemplate {template : String} {params : Params} {b : Bound}
    (h : bindTemplate template params = .ok b) :
    ∀ name ∈ templateNames template, (params.get? name).isSome = true := by
  obtain ⟨-, hvalues, -⟩ := bindTemplate_ok h
  have hnames := (cut_pieces .code template.toList).replaced.2
  change templateNames template = holeNames (pieces 0 (scan template.toList)) at hnames
  intro name hname
  have hmem := List.mem_map_of_mem (f := params.get?) hname
  rw [hnames, ← hvalues] at hmem
  obtain ⟨v, -, hv⟩ := List.mem_map.1 hmem
  rw [← hv]
  rfl

theorem exists_bindTemplate_iff {template : String} {params : Params} :
    (∃ b, bindTemplate template params = .ok b) ↔
      (∀ name ∈ templateNames template, (params.get? name).isSome = true) ∧
        countPlaceholders (substituted template) = (templateNames template).length := by
  constructor
  · rintro ⟨b, hb⟩
    have hvalues := isSome_of_bindTemplate hb
    obtain ⟨values, hlength, hbind⟩ := bindTemplate_of_values hvalues
    rw [← hlength, ← Bound.exists_make_iff, ← hbind]
    exact ⟨hvalues, b, hb⟩
  · rintro ⟨hvalues, hcount⟩
    obtain ⟨values, hlength, hbind⟩ := bindTemplate_of_values hvalues
    rw [hbind, Bound.exists_make_iff, hlength]
    exact hcount

theorem marksOf_substituted (template : String) :
    marksOf (substituted template).toList = flaggedMarks
      (Region.code.scan (positionalText (pieces 0 (Region.code.scan template.toList)))) := by
  have htext : replaced (scan template.toList) = positionalText _ :=
    (cut_pieces .code template.toList).replaced.1
  rw [substituted, marksOf, scan, htext, String.toList_ofList]

/-- Let the indices of the placeholders be machine words, once names in braces are replaced. The bare
placeholders that a bound template spells out are no more than the names in braces with a digit directly
behind them. Where there is no such digit, a template is bound just when its names have values and each
placeholder that it spells out has a number, no larger than the number of names in front of it; else
more placeholders than names are counted, which is the failure. -/
theorem bindTemplate_spelledOut (template : String) (params : Params)
    (hwords : HasWordIndices (substituted template)) :
    (∀ b, bindTemplate template params = .ok b →
        bareCount template ≤ digitsBehind (scan template.toList)) ∧
      (digitsBehind (scan template.toList) = 0 →
        ((∃ b, bindTemplate template params = .ok b) ↔
            (∀ name ∈ templateNames template, (params.get? name).isSome = true) ∧
              Reuses 0 (scan template.toList)) ∧
          ((∀ name ∈ templateNames template, (params.get? name).isSome = true) →
            ¬ Reuses 0 (scan template.toList) →
              ∃ counted > (templateNames template).length, bindTemplate template params =
                .error (.parameterCountMismatch counted (templateNames template).length))) := by
  have hcut := cut_pieces .code template.toList
  have hnames : templateNames template = holeNames _ := hcut.replaced.2
  have hmarks := countPlaceholders_eq_largestIndex hwords
  rw [marksOf_substituted] at hmarks
  constructor
  · intro b hb
    have hcount := (exists_bindTemplate_iff.1 ⟨b, hb⟩).2
    have hbare := hcut.count_bare
    have hle := count_bare_le_largestIndex (flaggedMarks
      (Region.code.scan (positionalText (pieces 0 (Region.code.scan template.toList)))))
    rw [← hmarks, hcount] at hle
    rw [Region.count_bare .code template.toList, ← hnames] at hbare
    change bareIn (Region.code.scan _) ≤ digitsBehind (Region.code.scan _)
    omega
  · intro hdigits
    obtain ⟨hle, heq⟩ := hcut.largestIndex_eq_iff hdigits 0
    rw [Nat.zero_add, ← hnames, ← hmarks] at hle heq
    refine ⟨exists_bindTemplate_iff.trans (and_congr_right fun _ => heq), ?_⟩
    intro hvalues hreuses
    obtain ⟨values, hlength, hbind⟩ := bindTemplate_of_values hvalues
    have hne := mt heq.1 hreuses
    refine ⟨countPlaceholders (substituted template), by omega, ?_⟩
    rw [hbind, Bound.make, dif_neg (hlength ▸ hne), hlength]

/-- A digit behind a name in braces takes the bare placeholder in front of it, and without one a bare
placeholder is one too many. -/
theorem bindTemplate_spelledOut_bare :
    (∃ b, bindTemplate "select ?, \x7ba\x7d1" (Params.ofList [("a", .integer 1)]) = .ok b ∧
        bareCount "select ?, \x7ba\x7d1" = 1 ∧
        bareCount "select ?, \x7ba\x7d1" ≤ digitsBehind (scan "select ?, \x7ba\x7d1".toList)) ∧
      digitsBehind (scan "select \x7ba\x7d, ?".toList) = 0 ∧
      ∃ counted > 1, bindTemplate "select \x7ba\x7d, ?" (Params.ofList [("a", .integer 1)]) =
        .error (.parameterCountMismatch counted 1) := by
  have hok : bindTemplate "select ?, \x7ba\x7d1" (Params.ofList [("a", .integer 1)]) =
      .ok ⟨"select ?, ?1", [.integer 1], by decide +kernel⟩ := by rfl
  have hdigits : digitsBehind (scan "select \x7ba\x7d, ?".toList) = 0 := by decide +kernel
  have hnames : templateNames "select \x7ba\x7d, ?" = ["a"] := by decide +kernel
  have hvalues : ∀ name ∈ templateNames "select \x7ba\x7d, ?",
      ((Params.ofList [("a", .integer 1)]).get? name).isSome = true := by
    rw [hnames]
    decide
  have hreuses : ¬ Reuses 0 (scan "select \x7ba\x7d, ?".toList) := by
    intro h
    obtain ⟨n, hn, -⟩ := h 12 none (by decide +kernel)
    cases hn
  have hwords : HasWordIndices (substituted "select ?, \x7ba\x7d1") ∧
      HasWordIndices (substituted "select \x7ba\x7d, ?") := by
    unfold HasWordIndices
    decide +kernel
  refine ⟨⟨_, hok, by decide +kernel, ?_⟩, hdigits, ?_⟩
  · exact (bindTemplate_spelledOut _ _ hwords.1).1 _ hok
  · have hrefused := ((bindTemplate_spelledOut _ _ hwords.2).2 hdigits).2 hvalues hreuses
    rwa [hnames] at hrefused

/-- A number that a name in front of it has taken is bound to the value of that name. -/
theorem bindTemplate_numbered_behind_hole :
    ∃ b, bindTemplate "select \x7ba\x7d, ?1" (Params.ofList [("a", .integer 1)]) = .ok b ∧
      b.sql = "select ?, ?1" ∧ b.params = [.integer 1] ∧
      ('?', true) ∈ scan "select \x7ba\x7d, ?1".toList ∧
      (flaggedMarks (scan "select \x7ba\x7d, ?1".toList))[12]? = some (some (some 1)) :=
  ⟨⟨"select ?, ?1", [.integer 1], by decide +kernel⟩, by rfl, rfl, rfl, by decide +kernel,
    by decide +kernel⟩

end DataAccess.Sql
