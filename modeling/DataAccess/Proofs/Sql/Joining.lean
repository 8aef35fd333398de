import DataAccess.Proofs.Sql.Substitution

/-!
Templates inside other text. Text in front of a template or behind it changes nothing of what becomes of
the template, unless a comment opens or a name in braces closes across the join. Behind a literal or a
comment that is left open, text stays as it is, names in braces included.
-/
namespace DataAccess.Sql

/-- No name in braces opens in the first text and closes in the second. -/
def Sealed (s t : List Char) : Prop :=
  ∀ front behind name tail, s = front ++ '\x7b' :: behind →
    behind ++ t = name ++ '\x7d' :: tail → isIdentifier name = true → name.length < behind.length

namespace Sealed

variable {s t : List Char}

theorem of_append {front : List Char} (h : Sealed (front ++ s) t) : Sealed s t := by
  intro front' behind name tail hs
  exact h (front ++ front') behind name tail (by rw [hs, List.append_assoc])

theorem tail {c : Char} (h : Sealed (c :: s) t) : Sealed s t := by
  rw [← List.singleton_append] at h
  exact h.of_append

/-- Neither a name nor its closing brace goes on in the second text. -/
theorem of_head (h : ∀ b ∈ t.head?, isNameChar b = false ∧ b ≠ '\x7d') : Sealed s t := by
  intro front behind name tail _ hjoin hid
  rcases List.append_eq_append_iff.1 hjoin with ⟨rest, hname, ht⟩ | ⟨rest, hbehind, htail⟩
  · cases rest with
    | nil => exact absurd rfl (h '\x7d' (by simp [ht])).2
    | cons b rest =>
      have hb := (h b (by simp [ht])).1
      rw [isNameChar_of_isIdentifier hid b (by simp [hname])] at hb
      cases hb
  · cases rest with
    | nil =>
      rw [List.nil_append] at htail
      exact absurd rfl (h '\x7d' (by rw [← htail]; rfl)).2
    | cons b rest => simp [hbehind]

theorem of_not_mem (h : '\x7b' ∉ s) : Sealed s t := by
  intro front behind name tail hs
  exact absurd (by simp [hs]) h

end Sealed

theorem Cut.append {r : Region} {s t : List Char} {ps qs : List Piece} (hs : Cut r s ps)
    (ht : Cut (r.after s) t qs) (hparted : Parted s t) (hsealed : Sealed s t) :
    Cut r (s ++ t) (ps ++ qs) := by
  induction hs with
  | nil r => exact ht
  | @kept r c rest ps hkept _ ih =>
    rw [List.cons_append, List.cons_append]
    refine .kept (fun name tail hr hc hrest => ?_) ?_
    · by_contra hname
      have hid : isIdentifier name = true := by simpa using hname
      have hlt := hsealed [] rest name tail (by rw [hc]; rfl) hrest hid
      -- the name closes in front of the join, where it would have been cut out
      rcases List.append_eq_append_iff.1 hrest with ⟨_, hlong, -⟩ | ⟨within, hwithin, htail⟩
      · rw [hlong, List.length_append] at hlt
        omega
      · cases within with
        | nil => simp [hwithin] at hlt
        | cons b within =>
          obtain rfl : '\x7d' = b := (List.cons.inj htail).1
          exact hname (hkept name within hr hc hwithin)
    · rw [r.step_append hparted]
      exact ih ht hparted.tail hsealed.tail
  | @hole name tail ps hid _ ih =>
    have hsource : '\x7b' :: (name ++ '\x7d' :: tail) = (Piece.hole name).source ++ tail := by
      simp [Piece.source]
    rw [hsource] at ht hparted hsealed
    rw [Region.after_inert_append (isInert_source hid)] at ht
    have hrest := ih ht hparted.of_append hsealed.of_append
    rw [List.cons_append, List.append_assoc, List.cons_append, List.cons_append]
    exact .hole hid hrest

/-- A text ends as it does with placeholders for its names. -/
theorem Cut.after_positional {r : Region} {text : List Char} {ps : List Piece} (h : Cut r text ps) :
    r.after (positionalText ps) = r.after text := by
  induction h with
  | nil r => rfl
  | @kept r c rest ps _ hcut ih =>
    have hhead := hcut.step_head r c
    show r.after (c :: positionalText ps) = _
    rw [Region.after, Region.after, hhead, ih]
  | @hole name tail ps hid _ ih =>
    have hsource : '\x7b' :: (name ++ '\x7d' :: tail) = (Piece.hole name).source ++ tail := by
      simp [Piece.source]
    show Region.code.after ('?' :: positionalText ps) = _
    rw [hsource, Region.after_inert_append (isInert_source hid), ← ih, Region.after,
      Region.step_inert (by decide)]

theorem after_substituted (template : String) :
    Region.code.after (substituted template).toList = Region.code.after template.toList := by
  have hcut := cut_pieces .code template.toList
  unfold substituted scan
  rw [String.toList_ofList, hcut.replaced.1, hcut.after_positional]

/-- Names in braces are replaced in each of two texts by itself. -/
theorem replaced_join (r : Region) {s t : List Char} (hparted : Parted s t) (hsealed : Sealed s t) :
    replaced (r.scan (s ++ t)) = replaced (r.scan s) ++ replaced ((r.after s).scan t) ∧
      (namesIn (r.scan (s ++ t))).map String.ofList =
        (namesIn (r.scan s)).map String.ofList ++
          (namesIn ((r.after s).scan t)).map String.ofList := by
  have hs := cut_pieces r s
  have ht := cut_pieces (r.after s) t
  obtain ⟨hreplaced, hnames⟩ := (hs.append ht hparted hsealed).replaced
  rw [hreplaced, hnames, hs.replaced.1, hs.replaced.2, ht.replaced.1, ht.replaced.2]
  exact ⟨List.map_append, holeNames_append _ _⟩

theorem substituted_append {s t : String} (hcode : Region.code.after s.toList = .code)
    (hparted : Parted s.toList t.toList) (hsealed : Sealed s.toList t.toList) :
    substituted (s ++ t) = substituted s ++ substituted t ∧
      templateNames (s ++ t) = templateNames s ++ templateNames t := by
  obtain ⟨hreplaced, hnames⟩ := replaced_join .code hparted hsealed
  unfold substituted templateNames scan
  rw [String.toList_append, hreplaced, hnames, hcode, String.ofList_append]
  exact ⟨rfl, rfl⟩

/-- The last characters of what closes a literal, a quoted name or a comment. -/
def closing : List Char := ['\x27', '\x22', '\x60', ']', '\n', '/']

def Region.Occurs : Region → Prop
  | .quoted close => close ∈ closing
  | _ => True

namespace Region

theorem Occurs.step {r : Region} (h : r.Occurs) (c : Char) (next : Option Char) :
    (r.step c next).1.Occurs := by
  cases r with
  | code =>
    rw [Region.step]
    split_ifs with hline hblock
    · trivial
    · trivial
    · unfold closingQuote
      split_ifs with hquote hbracket
      · rcases hquote with rfl | rfl | rfl <;> exact List.mem_of_elem_eq_true rfl
      · exact List.mem_of_elem_eq_true rfl
      · trivial
  | quoted close =>
    rw [Region.step]
    split_ifs
    · trivial
    · exact h
  | lineComment =>
    rw [Region.step]
    split_ifs <;> trivial
  | blockOpen => trivial
  | blockComment afterStar =>
    rw [Region.step]
    split_ifs <;> trivial

theorem Occurs.after {r : Region} (h : r.Occurs) (text : List Char) : (r.after text).Occurs := by
  induction text generalizing r with
  | nil => exact h
  | cons c rest ih => exact ih (h.step c rest.head?)

/-- A character that closes nothing is not live in an open literal or comment, and leaves it open. -/
theorem step_open {r : Region} (h : r.Occurs) (hopen : r ≠ .code) {c : Char} (hc : c ∉ closing)
    (next : Option Char) : (r.step c next).1 ≠ .code ∧ (r.step c next).2 = false := by
  cases r with
  | code => exact absurd rfl hopen
  | quoted close =>
    have hne : c ≠ close := fun heq => hc (heq ▸ h)
    simp [step, hne]
  | lineComment =>
    have hne : c ≠ '\n' := fun heq => hc (heq ▸ by decide)
    simp [step, hne]
  | blockOpen => simp [step]
  | blockComment afterStar =>
    have hne : c ≠ '/' := fun heq => hc (heq ▸ by decide)
    simp [step, hne]

theorem scan_open {r : Region} (h : r.Occurs) (hopen : r ≠ .code) {text : List Char}
    (ht : ∀ c ∈ text, c ∉ closing) : r.scan text = text.map (·, false) := by
  induction text generalizing r with
  | nil => rfl
  | cons c rest ih =>
    obtain ⟨hstep, hlive⟩ := step_open h hopen (ht c List.mem_cons_self) rest.head?
    rw [scan, hlive, ih (h.step c _) hstep fun d hd => ht d (List.mem_cons_of_mem c hd)]
    rfl

end Region

/-- Where no brace opens in code, nothing is replaced. -/
theorem replaced_of_not_mem {ms : List (Char × Bool)} (h : ('\x7b', true) ∉ ms) :
    replaced ms = ms.map Prod.fst ∧ namesIn ms = [] := by
  induction ms with
  | nil => exact ⟨rfl, rfl⟩
  | cons m ms ih =>
    obtain ⟨c, live⟩ := m
    rw [List.mem_cons, not_or] at h
    have hnone : nameAt? ((c, live) :: ms) 0 = none := by
      rw [Option.eq_none_iff_forall_ne_some]
      intro name hname
      exact h.1 (Option.some.inj (nameAt?_eq_some.1 hname).1).symm
    obtain ⟨hreplaced, hnames⟩ := flaggedReplaced_kept hnone
    rw [← map_fst_flaggedReplaced, hreplaced, List.map_cons, map_fst_flaggedReplaced, hnames,
      (ih h.2).1, (ih h.2).2]
    exact ⟨rfl, rfl⟩

theorem substituted_of_not_mem {text : String} (h : '\x7b' ∉ text.toList) :
    substituted text = text ∧ templateNames text = [] := by
  have hmem : ('\x7b', true) ∉ scan text.toList := by
    intro hmem
    refine h ?_
    rw [← Region.map_fst_scan .code text.toList]
    exact List.mem_map_of_mem hmem
  obtain ⟨hreplaced, hnames⟩ := replaced_of_not_mem hmem
  have htext : (scan text.toList).map Prod.fst = text.toList := Region.map_fst_scan _ _
  unfold substituted templateNames
  rw [hreplaced, hnames, htext, String.ofList_toList]
  exact ⟨rfl, rfl⟩

theorem substituted_append_open {s t : String} (hopen : Region.code.after s.toList ≠ .code)
    (ht : ∀ c ∈ t.toList, c ∉ closing) (hparted : Parted s.toList t.toList)
    (hsealed : Sealed s.toList t.toList) :
    substituted (s ++ t) = substituted s ++ t ∧ templateNames (s ++ t) = templateNames s := by
  have hoccurs : (Region.code.after s.toList).Occurs := Region.Occurs.after (r := .code) trivial _
  obtain ⟨hreplaced, hnames⟩ := replaced_join .code hparted hsealed
  have hdead : ('\x7b', true) ∉ (Region.code.after s.toList).scan t.toList := by
    rw [Region.scan_open hoccurs hopen ht]
    simp
  obtain ⟨hkept, hnone⟩ := replaced_of_not_mem hdead
  rw [hkept, Region.map_fst_scan] at hreplaced
  rw [hnone, List.map_nil, List.append_nil] at hnames
  unfold substituted templateNames scan
  rw [String.toList_append, hreplaced, hnames, String.ofList_append, String.ofList_toList]
  exact ⟨rfl, rfl⟩

/-- A text with values is accepted when it needs as many as there are. -/
theorem Bound.exists_make_iff {sql : String} {params : List Value} :
    (∃ b, Bound.make sql params = .ok b) ↔ countPlaceholders sql = params.length := by
  unfold Bound.make
  split_ifs with hcount <;> simp [hcount]

theorem Bound.make_ne_missing (sql : String) (params : List Value) (name : String) :
    Bound.make sql params ≠ .error (.missingParameter name) := by
  unfold Bound.make
  split_ifs <;> simp

/-- A template is bound by looking its names up and counting the placeholders of what it becomes. -/
theorem bindTemplate_eq (template : String) (params : Params) :
    bindTemplate template params =
      (templateNames template).mapM (lookUp params) >>= Bound.make (substituted template) := by
  obtain ⟨hreplaced, hnames⟩ := (cut_pieces .code template.toList).replaced
  unfold bindTemplate templateNames substituted scan
  rw [hreplaced, hnames]

end DataAccess.Sql
