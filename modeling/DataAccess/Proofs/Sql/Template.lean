import DataAccess.Proofs.Sql.Region
import DataAccess.Sql.Template
import Mathlib.Tactic.Common

/-!
How templates are cut. The pieces of a template spell it out, a hole is cut out of code and leaves
code behind it, and the text with a placeholder for each hole scans as the template does.
-/
namespace DataAccess.Sql

def Piece.source : Piece → List Char
  | .kept c => [c]
  | .hole name => '\x7b' :: (name ++ ['\x7d'])

/-- The pieces that text is cut into where it is read in a region. -/
inductive Cut : Region → List Char → List Piece → Prop where
  | nil (r : Region) : Cut r [] []
  | kept {r : Region} {c : Char} {rest : List Char} {ps : List Piece}
      (h : ∀ name tail, r = .code → c = '\x7b' → rest = name ++ '\x7d' :: tail →
        isIdentifier name = false)
      (hps : Cut (r.step c rest.head?).1 rest ps) : Cut r (c :: rest) (.kept c :: ps)
  | hole {name tail : List Char} {ps : List Piece} (h : isIdentifier name = true)
      (hps : Cut .code tail ps) :
      Cut .code ('\x7b' :: (name ++ '\x7d' :: tail)) (.hole name :: ps)

theorem isInert_of_isNameChar {c : Char} (h : isNameChar c = true) : isInert c = true :=
  isInert_of_class h (by decide)

theorem isNameChar_of_isIdentifier {name : List Char} (h : isIdentifier name = true) :
    ∀ c ∈ name, isNameChar c = true := by
  cases name with
  | nil => simp
  | cons c name =>
    simp only [isIdentifier, Bool.and_eq_true, List.all_eq_true] at h
    intro d hd
    rcases List.mem_cons.1 hd with rfl | hd
    · have hstart := h.1
      simp only [isNameStart, Bool.or_eq_true] at hstart
      rcases hstart with ha | hu
      · simp [isNameChar, Char.isAlphanum, ha]
      · simp [isNameChar, hu]
    · exact h.2 d hd

theorem isInert_source {name : List Char} (h : isIdentifier name = true) :
    ∀ c ∈ (Piece.hole name).source, isInert c = true := by
  intro c hc
  rcases List.mem_cons.1 hc with rfl | hc
  · decide
  · rcases List.mem_append.1 hc with hc | hc
    · exact isInert_of_isNameChar (isNameChar_of_isIdentifier h c hc)
    · rw [List.mem_singleton.1 hc]
      decide

private theorem drop_length_takeWhile {α : Type} (p : α → Bool) (l : List α) :
    l.drop (l.takeWhile p).length = l.dropWhile p := by
  calc l.drop (l.takeWhile p).length
      = (l.takeWhile p ++ l.dropWhile p).drop (l.takeWhile p).length := by
        rw [List.takeWhile_append_dropWhile]
    _ = l.dropWhile p := List.drop_left' rfl

private theorem holeName?_flagged {ms : List (Char × Bool)} {name : List Char}
    (h : holeName? ms = some name) :
    isIdentifier name = true ∧ ∃ tail, ms.map Prod.fst = name ++ '\x7d' :: tail := by
  unfold holeName? at h
  dsimp only at h
  rw [List.length_map, drop_length_takeWhile] at h
  have hsplit := List.takeWhile_append_dropWhile (p := fun m => isNameChar m.1) (l := ms)
  split at h
  · rename_i live rest hdrop
    split_ifs at h with hid
    obtain rfl := Option.some.inj h
    refine ⟨hid, rest.map Prod.fst, ?_⟩
    rw [hdrop] at hsplit
    conv_lhs => rw [← hsplit]
    simp
  · simp at h

theorem holeName?_eq_some {text name : List Char}
    (h : holeName? (Region.code.scan text) = some name) :
    isIdentifier name = true ∧ ∃ tail, text = name ++ '\x7d' :: tail := by
  have hname := holeName?_flagged h
  rwa [Region.code.map_fst_scan] at hname

/-- What reads as a hole is one. -/
theorem holeName?_scan {name : List Char} (h : isIdentifier name = true) (tail : List Char) :
    holeName? (Region.code.scan (name ++ '\x7d' :: tail)) = some name := by
  have hchars := isNameChar_of_isIdentifier h
  have htake : (Region.code.scan (name ++ '\x7d' :: tail)).takeWhile (fun m => isNameChar m.1) =
      name.map (·, true) := by
    rw [Region.scan_inert fun c hc => isInert_of_isNameChar (hchars c hc),
      List.takeWhile_append_of_pos (by simpa using hchars)]
    simp [Region.scan, show isNameChar '\x7d' = false by decide]
  unfold holeName?
  dsimp only
  rw [htake, Region.scan_inert fun c hc => isInert_of_isNameChar (hchars c hc)]
  simp [Region.scan, h, Function.comp_def]

theorem pieces_eq_drop (skip : Nat) (ms : List (Char × Bool)) :
    pieces skip ms = pieces 0 (ms.drop skip) := by
  induction skip generalizing ms with
  | zero => rfl
  | succ skip ih =>
    cases ms with
    | nil => simp [pieces]
    | cons m ms => rw [pieces, ih, List.drop_succ_cons]

private theorem pieces_hole {name : List Char} (h : isIdentifier name = true)
    (tail : List Char) :
    pieces 0 (Region.code.scan ('\x7b' :: (name ++ '\x7d' :: tail))) =
      .hole name :: pieces 0 (Region.code.scan tail) := by
  have hinert : ∀ c ∈ name ++ ['\x7d'], isInert c = true := fun c hc =>
    isInert_source h c (List.mem_cons_of_mem _ hc)
  have hscan : Region.code.scan (name ++ '\x7d' :: tail) =
      (name ++ ['\x7d']).map (·, true) ++ Region.code.scan tail := by
    rw [← Region.scan_inert hinert, List.append_assoc]
    rfl
  rw [Region.scan, Region.step_inert (by decide), pieces]
  simp only [and_self, if_true, holeName?_scan h]
  rw [pieces_eq_drop, hscan, List.drop_left' (by simp)]

private theorem pieces_kept {r : Region} {c : Char} {rest : List Char}
    (h : ∀ name tail, r = .code → c = '\x7b' → rest = name ++ '\x7d' :: tail →
      isIdentifier name = false) :
    pieces 0 (r.scan (c :: rest)) = .kept c :: pieces 0 ((r.step c rest.head?).1.scan rest) := by
  rw [Region.scan, pieces]
  split
  · rename_i name hname
    split_ifs at hname with hlive
    obtain ⟨live, rfl⟩ := hlive
    obtain ⟨rfl, hstep⟩ := Region.step_live (by decide) live
    rw [hstep] at hname
    obtain ⟨hid, tail, rfl⟩ := holeName?_eq_some hname
    simp [h name tail rfl rfl rfl] at hid
  · rfl

/-- Reading cuts text as described. -/
theorem cut_pieces (r : Region) (text : List Char) : Cut r text (pieces 0 (r.scan text)) := by
  induction hn : text.length using Nat.strongRecOn generalizing r text with
  | ind n ih =>
    subst hn
    cases text with
    | nil => exact .nil r
    | cons c rest =>
      by_cases hkept : ∀ name tail, r = .code → c = '\x7b' → rest = name ++ '\x7d' :: tail →
          isIdentifier name = false
      · rw [pieces_kept hkept]
        exact .kept hkept (ih rest.length (by simp) _ rest rfl)
      · push Not at hkept
        obtain ⟨name, tail, rfl, rfl, rfl, hid⟩ := hkept
        have hid : isIdentifier name = true := by simpa using hid
        rw [pieces_hole hid]
        exact .hole hid (ih tail.length (by simp; omega) _ tail rfl)

/-- A text and the text with its placeholders do not differ in what their first characters open. -/
theorem Cut.step_head {r : Region} {text : List Char} {ps : List Piece} (h : Cut r text ps)
    (s : Region) (c : Char) : s.step c (positionalText ps).head? = s.step c text.head? := by
  cases h with
  | nil r => rfl
  | kept _ _ => rfl
  | hole _ _ =>
    apply s.step_congr
    simp [positionalText, opensComment]

/-- The placeholder of a hole is live, and code follows it. -/
theorem Cut.scan_hole {r : Region} {text name : List Char} {ps before after : List Piece}
    (h : Cut r text ps) (hps : ps = before ++ .hole name :: after) :
    ∃ A, A.length = before.length ∧
      r.scan (positionalText ps) = A ++ ('?', true) :: Region.code.scan (positionalText after) := by
  induction h generalizing before with
  | nil r => simp at hps
  | @kept r c rest ps hkept hcut ih =>
    cases before with
    | nil => simp at hps
    | cons p before =>
      obtain ⟨A, hA, hscan⟩ := ih (List.cons.inj hps).2
      refine ⟨(c, (r.step c rest.head?).2) :: A, by simp [hA], ?_⟩
      have hhead := hcut.step_head r c
      show r.scan (c :: positionalText ps) = _
      rw [Region.scan, hhead, hscan, List.cons_append]
  | @hole name' tail ps hid hcut ih =>
    have hmark : Region.code.scan (positionalText (.hole name' :: ps)) =
        ('?', true) :: Region.code.scan (positionalText ps) := by
      show Region.code.scan ('?' :: positionalText ps) = _
      rw [Region.scan, Region.step_inert (by decide)]
    rw [hmark]
    cases before with
    | nil =>
      rw [(List.cons.inj hps).2]
      exact ⟨[], rfl, rfl⟩
    | cons p before =>
      obtain ⟨A, hA, hscan⟩ := ih (List.cons.inj hps).2
      exact ⟨('?', true) :: A, by simp [hA], by rw [hscan, List.cons_append]⟩

@[simp] theorem holeNames_kept (c : Char) (ps : List Piece) :
    holeNames (.kept c :: ps) = holeNames ps := rfl

@[simp] theorem holeNames_hole (name : List Char) (ps : List Piece) :
    holeNames (.hole name :: ps) = String.ofList name :: holeNames ps := rfl

@[simp] theorem holeNames_append (ps qs : List Piece) :
    holeNames (ps ++ qs) = holeNames ps ++ holeNames qs := List.filterMap_append

theorem length_positionalText (ps : List Piece) : (positionalText ps).length = ps.length :=
  List.length_map _

end DataAccess.Sql
