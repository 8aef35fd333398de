import DataAccess.Proofs.Sql.HoleBinding

/-!
Templates as substitutions. Where the names of a template stand is said of each position of the text by
itself: a live brace there, directly before an identifier and a closing brace. Binding a template replaces
each of them by one placeholder, keeps all other characters, and gives the values of the names in order:
`bindTemplate_substitutes`.
-/
namespace DataAccess.Sql

/-- The name that stands in braces from a position of flagged text on, if its opening brace is live. -/
def nameAt? (ms : List (Char × Bool)) (i : Nat) : Option (List Char) :=
  let behind := (ms.drop (i + 1)).map Prod.fst
  let name := behind.takeWhile (· ≠ '\x7d')
  if ms[i]? = some ('\x7b', true) ∧ isIdentifier name = true ∧ name ++ ['\x7d'] <+: behind then
    some name
  else none

/-- A name in braces takes the position, which is not the first one of it. -/
def IsTaken (ms : List (Char × Bool)) (i : Nat) : Prop :=
  ∃ j < i, ∃ name ∈ nameAt? ms j, i < j + name.length + 2

instance (ms : List (Char × Bool)) (i : Nat) : Decidable (IsTaken ms i) :=
  inferInstanceAs (Decidable (∃ j < i, ∃ name ∈ nameAt? ms j, i < j + name.length + 2))

def replacement (ms : List (Char × Bool)) (i : Nat) : List Char :=
  if (nameAt? ms i).isSome then ['?']
  else if IsTaken ms i then []
  else (ms[i]?.map Prod.fst).toList

def namesIn (ms : List (Char × Bool)) : List (List Char) :=
  (List.range ms.length).filterMap (nameAt? ms)

def replaced (ms : List (Char × Bool)) : List Char :=
  (List.range ms.length).flatMap (replacement ms)

def flaggedReplacement (ms : List (Char × Bool)) (i : Nat) : List (Char × Bool) :=
  if (nameAt? ms i).isSome then [('?', true)]
  else if IsTaken ms i then []
  else ms[i]?.toList

def flaggedReplaced (ms : List (Char × Bool)) : List (Char × Bool) :=
  (List.range ms.length).flatMap (flaggedReplacement ms)

/-- The names in braces of a template. -/
def templateNames (template : String) : List String :=
  (namesIn (scan template.toList)).map String.ofList

/-- The template with one placeholder for each name in braces. -/
def substituted (template : String) : String := String.ofList (replaced (scan template.toList))

theorem nameAt?_eq_some {ms : List (Char × Bool)} {i : Nat} {name : List Char} :
    nameAt? ms i = some name ↔ ms[i]? = some ('\x7b', true) ∧ isIdentifier name = true ∧
      name ++ ['\x7d'] <+: (ms.drop (i + 1)).map Prod.fst := by
  unfold nameAt?
  generalize (ms.drop (i + 1)).map Prod.fst = behind
  dsimp only
  constructor
  · intro h
    split_ifs at h with hname
    obtain rfl := Option.some.inj h
    exact hname
  · rintro ⟨hbrace, hid, hprefix⟩
    have htake : behind.takeWhile (· ≠ '\x7d') = name := by
      obtain ⟨tail, rfl⟩ := hprefix
      have hchars : ∀ c ∈ name, decide (c ≠ '\x7d') = true := by
        intro c hc
        apply decide_eq_true
        rintro rfl
        exact absurd (isNameChar_of_isIdentifier hid _ hc) (by decide)
      rw [List.append_assoc, List.takeWhile_append_of_pos hchars]
      simp
    rw [htake, if_pos ⟨hbrace, hid, hprefix⟩]

theorem nameAt?_append (A ms : List (Char × Bool)) (i : Nat) :
    nameAt? (A ++ ms) (A.length + i) = nameAt? ms i := by
  have hdrop : (A ++ ms).drop (A.length + i + 1) = ms.drop (i + 1) := by
    rw [Nat.add_assoc, List.drop_append, List.drop_eq_nil_of_le (by omega)]
    simp
  have hget : (A ++ ms)[A.length + i]? = ms[i]? := by
    rw [List.getElem?_append_right (by omega), Nat.add_sub_cancel_left]
  unfold nameAt?
  rw [hdrop, hget]

def Apart (A ms : List (Char × Bool)) : Prop :=
  ∀ j < A.length, ∀ name ∈ nameAt? (A ++ ms) j, j + name.length + 2 ≤ A.length

theorem isTaken_append {A ms : List (Char × Bool)} (h : Apart A ms) (i : Nat) :
    IsTaken (A ++ ms) (A.length + i) ↔ IsTaken ms i := by
  unfold IsTaken
  constructor
  · rintro ⟨j, hj, name, hname, hi⟩
    by_cases hlt : j < A.length
    · have := h j hlt name hname
      omega
    · obtain ⟨k, rfl⟩ := Nat.exists_eq_add_of_le (Nat.le_of_not_lt hlt)
      rw [nameAt?_append] at hname
      exact ⟨k, by omega, name, hname, by omega⟩
  · rintro ⟨j, hj, name, hname, hi⟩
    refine ⟨A.length + j, by omega, name, ?_, by omega⟩
    rwa [nameAt?_append]

theorem flaggedReplacement_append {A ms : List (Char × Bool)} (h : Apart A ms) (i : Nat) :
    flaggedReplacement (A ++ ms) (A.length + i) = flaggedReplacement ms i := by
  unfold flaggedReplacement
  simp only [nameAt?_append, isTaken_append h, List.getElem?_append_right (Nat.le_add_right _ _),
    Nat.add_sub_cancel_left]

theorem namesIn_append (A ms : List (Char × Bool)) :
    namesIn (A ++ ms) = (List.range A.length).filterMap (nameAt? (A ++ ms)) ++ namesIn ms := by
  unfold namesIn
  rw [List.length_append, List.range_add, List.filterMap_append, List.filterMap_map]
  congr 1
  exact List.filterMap_congr fun i _ => nameAt?_append A ms i

theorem flaggedReplaced_append {A ms : List (Char × Bool)} (h : Apart A ms) :
    flaggedReplaced (A ++ ms) =
      (List.range A.length).flatMap (flaggedReplacement (A ++ ms)) ++ flaggedReplaced ms := by
  unfold flaggedReplaced
  rw [List.length_append, List.range_add, List.flatMap_append, List.flatMap_map]
  congr 1
  exact List.flatMap_congr fun i _ => flaggedReplacement_append h i

/-- The replaced text is the one that the flags belong to. -/
theorem map_fst_flaggedReplaced (ms : List (Char × Bool)) :
    (flaggedReplaced ms).map Prod.fst = replaced ms := by
  unfold flaggedReplaced replaced
  rw [List.map_flatMap]
  refine List.flatMap_congr fun i _ => ?_
  unfold flaggedReplacement replacement
  split_ifs
  · rfl
  · rfl
  · cases ms[i]? <;> rfl

/-- A character that starts no name in braces stays where it is. -/
theorem flaggedReplaced_kept {c : Char} {live : Bool} {ms : List (Char × Bool)}
    (h : nameAt? ((c, live) :: ms) 0 = none) :
    flaggedReplaced ((c, live) :: ms) = (c, live) :: flaggedReplaced ms ∧
      namesIn ((c, live) :: ms) = namesIn ms := by
  have hapart : Apart [(c, live)] ms := by
    intro j hj name hname
    obtain rfl : j = 0 := by simpa using hj
    simp [h] at hname
  have htaken : ¬ IsTaken ((c, live) :: ms) 0 := fun ⟨j, hj, _⟩ => absurd hj (by simp)
  have hreplaced := flaggedReplaced_append hapart
  have hnames := namesIn_append [(c, live)] ms
  rw [List.singleton_append] at hreplaced hnames
  constructor
  · rw [hreplaced]
    simp [flaggedReplacement, h, htaken]
  · rw [hnames]
    simp [h]

/-- A name in braces starts with its opening brace. -/
theorem nameAt?_source {name : List Char} (hid : isIdentifier name = true)
    (ms : List (Char × Bool)) :
    nameAt? ((Piece.hole name).source.map (·, true) ++ ms) 0 = some name := by
  refine nameAt?_eq_some.2 ⟨rfl, hid, ms.map Prod.fst, ?_⟩
  simp [Piece.source, Function.comp_def]

/-- No other one starts within it. -/
theorem nameAt?_within_source {name : List Char} (hid : isIdentifier name = true)
    (ms : List (Char × Bool)) {j : Nat} (hj : j < name.length + 1) :
    nameAt? ((Piece.hole name).source.map (·, true) ++ ms) (j + 1) = none := by
  rw [Option.eq_none_iff_forall_ne_some]
  intro other hother
  have hbrace := (nameAt?_eq_some.1 hother).1
  rw [List.getElem?_append_left (by simpa [Piece.source] using hj), Piece.source, List.map_cons,
    List.getElem?_cons_succ] at hbrace
  have hmem : '\x7b' ∈ name ++ ['\x7d'] := by simpa using List.mem_of_getElem? hbrace
  rcases List.mem_append.1 hmem with hname | hclose
  · exact absurd (isNameChar_of_isIdentifier hid _ hname) (by decide)
  · exact absurd hclose (by decide)

/-- A name in braces becomes one live placeholder. -/
theorem flaggedReplaced_name {name : List Char} (hid : isIdentifier name = true)
    (ms : List (Char × Bool)) :
    flaggedReplaced ((Piece.hole name).source.map (·, true) ++ ms) =
        ('?', true) :: flaggedReplaced ms ∧
      namesIn ((Piece.hole name).source.map (·, true) ++ ms) = name :: namesIn ms := by
  set A : List (Char × Bool) := (Piece.hole name).source.map (·, true) with hA
  have hlength : A.length = name.length + 2 := by simp [hA, Piece.source]
  have hfirst : nameAt? (A ++ ms) 0 = some name := nameAt?_source hid ms
  have hothers {j : Nat} (hj : j < name.length + 1) : nameAt? (A ++ ms) (j + 1) = none :=
    nameAt?_within_source hid ms hj
  have hapart : Apart A ms := by
    intro j hj other hother
    cases j with
    | zero =>
      obtain rfl : name = other := Option.some.inj (hfirst.symm.trans hother)
      omega
    | succ j =>
      rw [hothers (by omega)] at hother
      cases hother
  have hrange : List.range A.length = 0 :: (List.range (name.length + 1)).map Nat.succ := by
    rw [hlength, List.range_succ_eq_map]
  rw [flaggedReplaced_append hapart, namesIn_append, hrange]
  constructor
  · have hrest : ((List.range (name.length + 1)).map Nat.succ).flatMap
        (flaggedReplacement (A ++ ms)) = [] := by
      simp only [List.flatMap_eq_nil_iff, List.forall_mem_map, List.mem_range]
      intro j hj
      have htaken : IsTaken (A ++ ms) (j + 1) := ⟨0, by omega, name, hfirst, by omega⟩
      simp [flaggedReplacement, hothers hj, htaken]
    rw [List.flatMap_cons, hrest]
    simp [flaggedReplacement, hfirst]
  · have hrest : ((List.range (name.length + 1)).map Nat.succ).filterMap (nameAt? (A ++ ms)) = [] := by
      simp only [List.filterMap_eq_nil_iff, List.forall_mem_map, List.mem_range]
      exact fun j hj => hothers hj
    rw [List.filterMap_cons, hfirst, hrest]
    rfl

/-- A character that is kept starts no name in braces. -/
theorem nameAt?_of_kept {r : Region} {c : Char} {rest : List Char}
    (h : ∀ name tail, r = .code → c = '\x7b' → rest = name ++ '\x7d' :: tail →
      isIdentifier name = false) : nameAt? (r.scan (c :: rest)) 0 = none := by
  rw [Option.eq_none_iff_forall_ne_some]
  intro name hname
  obtain ⟨hbrace, hid, tail, hrest⟩ := nameAt?_eq_some.1 hname
  rw [Region.scan, List.getElem?_cons_zero, Option.some.injEq, Prod.mk.injEq] at hbrace
  obtain ⟨rfl, hlive⟩ := hbrace
  obtain ⟨rfl, -⟩ := Region.step_live (by decide) hlive
  have hcut := h name tail rfl rfl (by simpa [Region.scan, Region.map_fst_scan] using hrest.symm)
  rw [hid] at hcut
  cases hcut

theorem scan_source {name : List Char} (hid : isIdentifier name = true) (tail : List Char) :
    Region.code.scan ('\x7b' :: (name ++ '\x7d' :: tail)) =
      (Piece.hole name).source.map (·, true) ++ Region.code.scan tail := by
  rw [← Region.scan_inert (isInert_source hid), Piece.source, List.cons_append,
    List.append_assoc, List.singleton_append]

/-- Replacing by position and cutting from the start on come to the same, and what is kept is live in one
where it is in the other. -/
theorem Cut.flaggedReplaced {r : Region} {text : List Char} {ps : List Piece} (h : Cut r text ps) :
    flaggedReplaced (r.scan text) = r.scan (positionalText ps) ∧
      (namesIn (r.scan text)).map String.ofList = holeNames ps := by
  induction h with
  | nil r => exact ⟨rfl, rfl⟩
  | @kept r c rest ps hkept hcut ih =>
    have hnone := nameAt?_of_kept hkept
    have hscan : r.scan (positionalText (.kept c :: ps)) =
        (c, (r.step c rest.head?).2) :: (r.step c rest.head?).1.scan (positionalText ps) := by
      rw [← hcut.step_head r c]
      rfl
    rw [Region.scan] at hnone ⊢
    obtain ⟨hreplaced, hnames⟩ := flaggedReplaced_kept hnone
    rw [hreplaced, hnames, hscan, ih.1, ih.2]
    exact ⟨rfl, rfl⟩
  | @hole name tail ps hid _ ih =>
    have hscan : Region.code.scan (positionalText (.hole name :: ps)) =
        ('?', true) :: Region.code.scan (positionalText ps) := by
      show Region.code.scan ('?' :: positionalText ps) = _
      rw [Region.scan, Region.step_inert (by decide)]
    obtain ⟨hreplaced, hnames⟩ := flaggedReplaced_name hid (Region.code.scan tail)
    rw [scan_source hid, hreplaced, hnames, hscan, ih.1, List.map_cons, ih.2]
    exact ⟨rfl, rfl⟩

theorem Cut.replaced {r : Region} {text : List Char} {ps : List Piece} (h : Cut r text ps) :
    replaced (r.scan text) = positionalText ps ∧
      (namesIn (r.scan text)).map String.ofList = holeNames ps := by
  obtain ⟨hreplaced, hnames⟩ := h.flaggedReplaced
  rw [← map_fst_flaggedReplaced, hreplaced, Region.map_fst_scan]
  exact ⟨rfl, hnames⟩

/-- A name in braces takes more than two characters. -/
theorem Cut.two_mul_length_holeNames_le {r : Region} {text : List Char} {ps : List Piece}
    (h : Cut r text ps) : 2 * (holeNames ps).length ≤ text.length := by
  induction h with
  | nil r => exact le_rfl
  | kept _ _ ih =>
    rw [holeNames_kept, List.length_cons]
    omega
  | hole _ _ ih =>
    simp only [holeNames_hole, List.length_cons, List.length_append]
    omega

theorem two_mul_length_templateNames_le (template : String) :
    2 * (templateNames template).length ≤ template.length := by
  have hcut := cut_pieces .code template.toList
  have hnames : templateNames template = holeNames _ := hcut.replaced.2
  rw [hnames]
  exact hcut.two_mul_length_holeNames_le

theorem mapM_lookUp_eq (params : Params) (names : List String) :
    names.mapM (lookUp params) =
      match names.find? fun name => (params.get? name).isNone with
      | some name => .error (.missingParameter name)
      | none => .ok (names.filterMap params.get?) := by
  induction names with
  | nil => rfl
  | cons name names ih =>
    rw [List.mapM_cons, ih, lookUp, List.find?_cons, List.filterMap_cons]
    cases hget : params.get? name with
    | none => rfl
    | some v =>
      simp only [Option.isNone_some]
      cases names.find? fun name => (params.get? name).isNone with
      | none => rfl
      | some missing => rfl

/-- The leftmost name without a value is the failure. Otherwise the text is bound to the values of its
names, one for each, if it needs as many. -/
theorem bindTemplate_substitutes (template : String) (params : Params) :
    match (templateNames template).find? fun name => (params.get? name).isNone with
    | some name => bindTemplate template params = .error (.missingParameter name)
    | none => ∃ values, values.map some = (templateNames template).map params.get? ∧
        if countPlaceholders (substituted template) = values.length then
          ∃ b, bindTemplate template params = .ok b ∧ b.sql = substituted template ∧
            b.params = values
        else bindTemplate template params = .error
          (.parameterCountMismatch (countPlaceholders (substituted template)) values.length) := by
  have hbind : bindTemplate template params =
      (templateNames template).mapM (lookUp params) >>= Bound.make (substituted template) := by
    obtain ⟨hreplaced, hnames⟩ := (cut_pieces .code template.toList).replaced
    unfold bindTemplate templateNames substituted scan
    rw [hreplaced, hnames]
  have hlook := mapM_lookUp_eq params (templateNames template)
  rw [hbind]
  generalize substituted template = sql
  cases hfind : (templateNames template).find? fun name => (params.get? name).isNone with
  | some name =>
    rw [hfind] at hlook
    rw [hlook]
    exact error_bind _ _
  | none =>
    rw [hfind] at hlook
    refine ⟨_, mapM_lookUp hlook, ?_⟩
    rw [hlook, ok_bind, Bound.make]
    split_ifs with hcount
    · exact ⟨_, rfl, rfl, rfl⟩
    · rfl

example : substituted "\x7ba\x7d2 \x27\x7bb\x7d\x27 \x7b\x7bc.d\x7d" = "?2 \x27\x7bb\x7d\x27 \x7b?" := by
  cbv

end DataAccess.Sql
