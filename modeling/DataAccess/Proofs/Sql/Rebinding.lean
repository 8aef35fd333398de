import DataAccess.Proofs.Sql.Joining

/-!
Bound text as a template. Replacing names in braces brings characters together that stood apart, yet what is
kept is live afterwards just where it was, every placeholder put in is live, and no name in braces comes
about. So nothing is left to bind: as a template, the text stays as it is and asks for the same number of
values, of which there are none: `bindTemplate_rebinds`.
-/
namespace DataAccess.Sql

def keptPieces (text : List Char) : List Piece := text.map .kept

@[simp] theorem positionalText_keptPieces (text : List Char) :
    positionalText (keptPieces text) = text := by
  simp [positionalText, keptPieces, Function.comp_def]

@[simp] theorem holeNames_keptPieces (text : List Char) : holeNames (keptPieces text) = [] := by
  induction text with
  | nil => rfl
  | cons c text ih => exact ih

/-- Up to the first placeholder, positional text starts as the template does. -/
theorem Cut.exists_append {r : Region} {text s t : List Char} {ps : List Piece} (h : Cut r text ps)
    (hs : '?' ∉ s) (hps : positionalText ps = s ++ t) : ∃ u, text = s ++ u := by
  induction h generalizing s with
  | nil r =>
    obtain ⟨rfl, -⟩ := List.append_eq_nil_iff.1 hps.symm
    exact ⟨[], rfl⟩
  | @kept r c rest ps _ _ ih =>
    cases s with
    | nil => exact ⟨_, rfl⟩
    | cons d s =>
      obtain ⟨rfl, hrest⟩ := List.cons.inj hps
      obtain ⟨u, rfl⟩ := ih (fun hmem => hs (List.mem_cons_of_mem _ hmem)) hrest
      exact ⟨u, rfl⟩
  | @hole name tail ps _ _ _ =>
    cases s with
    | nil => exact ⟨_, rfl⟩
    | cons d s =>
      obtain ⟨rfl, -⟩ := List.cons.inj hps
      exact absurd List.mem_cons_self hs

/-- Positional text is kept as it is: a name in braces that it had would have no placeholder in it, so
that the template would have it as well. -/
theorem Cut.positional {r : Region} {text : List Char} {ps : List Piece} (h : Cut r text ps) :
    Cut r (positionalText ps) (keptPieces (positionalText ps)) := by
  induction h with
  | nil r => exact .nil r
  | @kept r c rest ps hkept hcut ih =>
    refine .kept (fun name tail hr hc hrest => ?_) ?_
    · by_contra hname
      have hid : isIdentifier name = true := by simpa using hname
      have hmark : '?' ∉ name ++ ['\x7d'] := by
        intro hmem
        rcases List.mem_append.1 hmem with hmem | hmem
        · exact absurd (isNameChar_of_isIdentifier hid _ hmem) (by decide)
        · exact absurd hmem (by decide)
      have hfront : positionalText ps = (name ++ ['\x7d']) ++ tail := by
        rw [List.append_assoc, List.singleton_append]
        exact hrest
      obtain ⟨u, hu⟩ := hcut.exists_append hmark hfront
      exact hname (hkept name u hr hc (by rw [hu, List.append_assoc, List.singleton_append]))
    · change Cut (r.step c (positionalText ps).head?).1 _ _
      rw [hcut.step_head r c]
      exact ih
  | @hole name tail ps _ _ ih =>
    change Cut .code ('?' :: positionalText ps) (.kept '?' :: keptPieces (positionalText ps))
    refine .kept (fun _ _ _ hc => absurd hc (by decide)) ?_
    rw [Region.step_inert (by decide)]
    exact ih

theorem namesIn_eq_nil_iff {ms : List (Char × Bool)} :
    namesIn ms = [] ↔ ∀ i, nameAt? ms i = none := by
  unfold namesIn
  simp only [List.filterMap_eq_nil_iff, List.mem_range]
  refine ⟨fun h i => ?_, fun h i _ => h i⟩
  rcases Nat.lt_or_ge i ms.length with hi | hi
  · exact h i hi
  · rw [Option.eq_none_iff_forall_ne_some]
    intro name hname
    have hbrace := (nameAt?_eq_some.1 hname).1
    rw [List.getElem?_eq_none hi] at hbrace
    cases hbrace

/-- What a template is bound as has the characters of the template with their flags and a live placeholder
for each name, has no name in braces, and is bound as it stands, whatever the parameters: again as it was
if it has no values, and else short of all that it had. -/
theorem bindTemplate_rebinds {template : String} {params : Params} {b : Bound}
    (h : bindTemplate template params = .ok b) :
    scan b.sql.toList = flaggedReplaced (scan template.toList) ∧
      (∀ i, nameAt? (scan b.sql.toList) i = none) ∧
      ∀ others, (b.params = [] → bindTemplate b.sql others = .ok b) ∧
        (b.params ≠ [] → bindTemplate b.sql others =
          .error (.parameterCountMismatch b.params.length 0)) := by
  obtain ⟨hsql, -, hcount⟩ := bindTemplate_ok h
  have hcut := cut_pieces .code template.toList
  obtain ⟨htext, hnames⟩ := hcut.positional.replaced
  obtain ⟨hflags, -⟩ := hcut.flaggedReplaced
  change b.sql.toList = positionalText (pieces 0 (Region.code.scan template.toList)) at hsql
  rw [← hsql] at htext hnames hflags
  rw [positionalText_keptPieces] at htext
  rw [holeNames_keptPieces, List.map_eq_nil_iff] at hnames
  have hsame : substituted b.sql = b.sql := by
    unfold substituted
    exact (congrArg String.ofList htext).trans String.ofList_toList
  have hnone : templateNames b.sql = [] := List.map_eq_nil_iff.2 hnames
  refine ⟨hflags.symm, namesIn_eq_nil_iff.1 hnames, fun others => ?_⟩
  have hbind : bindTemplate b.sql others = Bound.make b.sql [] := by
    rw [bindTemplate_eq, hnone, hsame]
    rfl
  rw [hbind]
  obtain ⟨sql, values, hvalues⟩ := b
  dsimp only at hcount ⊢
  constructor
  · rintro rfl
    exact dif_pos hcount
  · intro hne
    have hlength : countPlaceholders sql ≠ ([] : List Value).length := by
      rw [hcount]
      exact mt List.length_eq_zero_iff.1 hne
    rw [Bound.make, dif_neg hlength, hcount]
    rfl

/-- Braces around a name in braces are left over, and a dash on either side of one opens no comment. -/
theorem bindTemplate_rebinds_nested :
    ∃ b, bindTemplate "\x7b\x7ba\x7d\x7d -\x7ba\x7d- '\x7ba\x7d'"
        (Params.ofList [("a", .integer 1)]) = .ok b ∧ b.sql = "\x7b?\x7d -?- '\x7ba\x7d'" ∧
      bindTemplate b.sql (Params.ofList [("a", .integer 1)]) =
        .error (.parameterCountMismatch 2 0) := by
  have hbind : bindTemplate "\x7b\x7ba\x7d\x7d -\x7ba\x7d- '\x7ba\x7d'"
      (Params.ofList [("a", .integer 1)]) =
      .ok ⟨"\x7b?\x7d -?- '\x7ba\x7d'", [.integer 1, .integer 1], by decide +kernel⟩ := by rfl
  obtain ⟨-, -, hagain⟩ := bindTemplate_rebinds hbind
  exact ⟨_, hbind, rfl, (hagain _).2 (List.cons_ne_nil _ _)⟩

end DataAccess.Sql
