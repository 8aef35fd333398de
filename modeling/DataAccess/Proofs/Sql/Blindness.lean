import DataAccess.Proofs.Sql.Joining
import DataAccess.Proofs.Sql.Layout

/-!
Binding does not look at values. Two drafts that differ in nothing but their values are bound to the same
SQL text, or fail with the same error, and what the text is bound to is taken from the same places of
both. So is a template with two maps of parameters that have the same names: `bind_alike`.
-/
namespace DataAccess.Sql

/-- The values of two runs, in pairs, are some of those that the runs were given, in order. -/
def DrawnFrom (given : List (Value × Value)) (vs vs' : List Value) : Prop :=
  ∃ drawn : List (Value × Value), drawn.Sublist given ∧ vs = drawn.map Prod.fst ∧
    vs' = drawn.map Prod.snd

namespace DrawnFrom

variable {given given' : List (Value × Value)} {vs vs' ws ws' : List Value}

theorem nil (given : List (Value × Value)) : DrawnFrom given [] [] :=
  ⟨[], List.nil_sublist given, rfl, rfl⟩

theorem zip (h : vs.length = vs'.length) : DrawnFrom (vs.zip vs') vs vs' :=
  ⟨vs.zip vs', .refl _, (List.map_fst_zip h.le).symm, (List.map_snd_zip h.ge).symm⟩

theorem append (h : DrawnFrom given vs vs') (h' : DrawnFrom given' ws ws') :
    DrawnFrom (given ++ given') (vs ++ ws) (vs' ++ ws') := by
  obtain ⟨drawn, hdrawn, rfl, rfl⟩ := h
  obtain ⟨drawn', hdrawn', rfl, rfl⟩ := h'
  exact ⟨drawn ++ drawn', hdrawn.append hdrawn', List.map_append.symm, List.map_append.symm⟩

theorem length (h : DrawnFrom given vs vs') : vs.length = vs'.length := by
  obtain ⟨drawn, -, rfl, rfl⟩ := h
  rw [List.length_map, List.length_map]

end DrawnFrom

structure Fragment.Tied (given : List (Value × Value)) (f f' : Fragment) : Prop where
  text : f.text = f'.text
  params : DrawnFrom given f.params f'.params

theorem marks_congr {vs vs' : List Value} (h : vs.length = vs'.length) : marks vs = marks vs' := by
  unfold marks
  rw [List.map_const', List.map_const', h]

inductive Operand.Alike : Operand → Operand → Prop
  | none : Alike .none .none
  | single (v v' : Value) : Alike (.single v) (.single v')
  | sequence {vs vs' : List Value} (h : vs.length = vs'.length) :
    Alike (.sequence vs) (.sequence vs')

theorem Operand.Alike.length {o o' : Operand} (h : o.Alike o') :
    o.values.length = o'.values.length := by
  cases h with
  | none => rfl
  | single v v' => rfl
  | sequence h => exact h

structure Condition.Alike (c c' : Condition) : Prop where
  field : c.field = c'.field
  comparator : c.comparator = c'.comparator
  operand : c.operand.Alike c'.operand

inductive Members.Alike : Members → Members → Prop
  | nil : Alike .nil .nil
  | condition {c c' : Condition} {rest rest' : Members} (hc : c.Alike c')
    (hrest : Alike rest rest') : Alike (.condition c rest) (.condition c' rest')
  | group {k : Connective} {inner inner' rest rest' : Members} (hinner : Alike inner inner')
    (hrest : Alike rest rest') : Alike (.group k inner rest) (.group k inner' rest')

structure ConditionSet.Alike (s s' : ConditionSet) : Prop where
  connective : s.connective = s'.connective
  members : s.members.Alike s'.members

/-- Statements on the same table and columns and in the same order, or sets behind the same text, whose
conditions are alike. -/
inductive Draft.Alike : Draft → Draft → Prop
  | select (table : String) {s s' : ConditionSet} (h : s.Alike s') (order : List OrderTerm) :
    Alike (.statement (.select table s order)) (.statement (.select table s' order))
  | count (table : String) {s s' : ConditionSet} (h : s.Alike s') :
    Alike (.statement (.count table s)) (.statement (.count table s'))
  | insert (table : String) {columns columns' : Columns} (h : columns.names = columns'.names) :
    Alike (.statement (.insert table columns)) (.statement (.insert table columns'))
  | update (table : String) {columns columns' : Columns} (h : columns.names = columns'.names)
    {s s' : ConditionSet} (hs : s.Alike s') :
    Alike (.statement (.update table columns s)) (.statement (.update table columns' s'))
  | delete (table : String) {s s' : ConditionSet} (h : s.Alike s') :
    Alike (.statement (.delete table s)) (.statement (.delete table s'))
  | conditions (start : String) {s s' : ConditionSet} (h : s.Alike s') :
    Alike (.conditions start s) (.conditions start s')

def operandValues (cs : List Condition) : List Value := cs.flatMap fun c => c.operand.values

/-- The values that a draft is given: those of its columns, then those of its operands in order. -/
def Draft.given (d : Draft) : List Value := d.columns.values ++ operandValues d.leaves

/-- Of the operand of a fragment of SQL the number of values is compared, not the values. -/
theorem Operand.Alike.raw {o o' : Operand} (h : o.Alike o') (field : String) :
    SameOutcome (Fragment.Tied (o.values.zip o'.values))
      (Condition.fragment ⟨field, .raw, o⟩) (Condition.fragment ⟨field, .raw, o'⟩) := by
  unfold Condition.fragment
  dsimp only
  rw [h.length]
  split_ifs
  · exact .ok ⟨rfl, .zip h.length⟩
  · exact .error _

theorem Condition.Alike.fragment {c c' : Condition} (h : c.Alike c') :
    SameOutcome (Fragment.Tied (c.operand.values.zip c'.operand.values)) c.fragment c'.fragment := by
  obtain ⟨field, comparator, operand⟩ := c
  obtain ⟨field', comparator', operand'⟩ := c'
  obtain ⟨rfl, rfl, hoperand⟩ := h
  dsimp only at hoperand ⊢
  have hdrawn := DrawnFrom.zip hoperand.length
  have hraw := hoperand.raw field
  cases hoperand with
  | none =>
    cases comparator with
    | isNull | isNotNull => exact .ok ⟨rfl, .nil _⟩
    | raw => exact hraw
    | _ => exact .error _
  | single v v' =>
    cases comparator with
    | isNull | isNotNull => exact .ok ⟨rfl, .nil _⟩
    | raw => exact hraw
    | isIn | notIn | between => exact .error _
    | _ => exact .ok ⟨rfl, hdrawn⟩
  | @sequence vs vs' h =>
    have hmarks := marks_congr h
    cases comparator with
    | isNull | isNotNull => exact .ok ⟨rfl, .nil _⟩
    | raw => exact hraw
    | isIn | notIn =>
      match vs, vs' with
      | [], [] => exact .error _
      | _ :: _, _ :: _ => exact .ok ⟨by simp only [hmarks], hdrawn⟩
    | between =>
      match vs, vs' with
      | [low, high], [low', high'] => exact .ok ⟨rfl, hdrawn⟩
      | [], [] | [_], [_] | _ :: _ :: _ :: _, _ :: _ :: _ :: _ => exact .error _
    | _ => exact .error _

theorem Members.Alike.leaves {ms ms' : Members} (h : ms.Alike ms') :
    List.Forall₂ Condition.Alike ms.leaves ms'.leaves := by
  induction h with
  | nil => exact .nil
  | condition hc _ ih => exact .cons hc ih
  | group _ _ ihInner ihRest => exact List.rel_append ihInner ihRest

theorem Members.Alike.isEmpty {ms ms' : Members} (h : ms.Alike ms') :
    ms.isEmpty = ms'.isEmpty := by
  have hlength := h.leaves.length_eq
  unfold Members.isEmpty
  rw [Bool.eq_iff_iff, List.isEmpty_iff_length_eq_zero, List.isEmpty_iff_length_eq_zero, hlength]

theorem length_operandValues {cs cs' : List Condition} (h : List.Forall₂ Condition.Alike cs cs') :
    (operandValues cs).length = (operandValues cs').length := by
  unfold operandValues
  induction h with
  | nil => rfl
  | cons hc _ ih => simp only [List.flatMap_cons, List.length_append, hc.operand.length, ih]

theorem zip_operandValues_append {cs cs' : List Condition}
    (h : List.Forall₂ Condition.Alike cs cs') (ds ds' : List Condition) :
    (operandValues (cs ++ ds)).zip (operandValues (cs' ++ ds')) =
      (operandValues cs).zip (operandValues cs') ++ (operandValues ds).zip (operandValues ds') := by
  have hlength := length_operandValues h
  unfold operandValues at hlength ⊢
  rw [List.flatMap_append, List.flatMap_append, List.zip_append hlength]

structure Tied (given : List (Value × Value)) (fs fs' : List Fragment) : Prop where
  text : fs.map (·.text) = fs'.map (·.text)
  params : DrawnFrom given (fs.map (·.params)).flatten (fs'.map (·.params)).flatten

theorem Tied.cons {given given' : List (Value × Value)} {f f' : Fragment} {fs fs' : List Fragment}
    (hf : f.Tied given f') (hfs : Tied given' fs fs') :
    Tied (given ++ given') (f :: fs) (f' :: fs') := by
  refine ⟨?_, hf.params.append hfs.params⟩
  rw [List.map_cons, List.map_cons, hf.text, hfs.text]

theorem Tied.join {given : List (Value × Value)} {fs fs' : List Fragment} (h : Tied given fs fs')
    (separator : String) : (Fragment.join separator fs).Tied given (Fragment.join separator fs') :=
  ⟨congrArg (String.intercalate separator) h.text, h.params⟩

theorem Members.Alike.fragments {ms ms' : Members} (h : ms.Alike ms') :
    SameOutcome (Tied ((operandValues ms.leaves).zip (operandValues ms'.leaves)))
      ms.fragments ms'.fragments := by
  induction h with
  | nil => exact .ok ⟨rfl, .nil _⟩
  | @condition c c' rest rest' hc hrest ih =>
    have hgiven := zip_operandValues_append (.cons hc .nil) rest.leaves rest'.leaves
    unfold Members.fragments Members.leaves
    rw [← List.singleton_append, ← List.singleton_append (l := rest'.leaves), hgiven]
    refine hc.fragment.bind fun f f' hf => ih.bind fun fs fs' hfs => .ok (Tied.cons ?_ hfs)
    simpa [operandValues] using hf
  | @group k inner inner' rest rest' hinner hrest ihInner ihRest =>
    have hempty := hinner.isEmpty
    unfold Members.fragments Members.leaves
    -- a group is left out in both runs or in none
    rw [← hempty]
    split_ifs with he
    · rw [List.isEmpty_iff.1 he, List.isEmpty_iff.1 (hempty.symm.trans he)]
      exact ihRest
    · rw [zip_operandValues_append hinner.leaves]
      refine ihInner.bind fun gs gs' hgs => ihRest.bind fun fs fs' hfs => .ok (Tied.cons ?_ hfs)
      have hjoined := hgs.join k.separator
      exact ⟨by simp only [Fragment.inParentheses, hjoined.text], hjoined.params⟩

theorem ConditionSet.Alike.whereClause {s s' : ConditionSet} (h : s.Alike s') :
    SameOutcome (Fragment.Tied ((operandValues s.leaves).zip (operandValues s'.leaves)))
      s.whereClause s'.whereClause := by
  obtain ⟨connective, members⟩ := s
  obtain ⟨connective', members'⟩ := s'
  obtain ⟨rfl, hmembers⟩ := h
  unfold ConditionSet.whereClause ConditionSet.fragment
  refine (hmembers.fragments.bind fun fs fs' hfs => .ok (hfs.join _)).bind fun f f' hf => .ok ?_
  rw [hf.text]
  split_ifs
  · exact hf
  · exact ⟨rfl, hf.params⟩

theorem Bound.make_alike {R : List Value → List Value → Prop} {vs vs' : List Value}
    (hlength : vs.length = vs'.length) (h : R vs vs') (sql : String) :
    SameOutcome (fun b b' => b.sql = b'.sql ∧ R b.params b'.params)
      (Bound.make sql vs) (Bound.make sql vs') := by
  unfold Bound.make
  by_cases hcount : countPlaceholders sql = vs.length
  · rw [dif_pos hcount, dif_pos (hcount.trans hlength)]
    exact .ok ⟨rfl, h⟩
  · rw [dif_neg hcount, dif_neg (hlength ▸ hcount), hlength]
    exact .error _

theorem Columns.length_values {columns columns' : Columns} (h : columns.names = columns'.names) :
    columns.values.length = columns'.values.length := by
  have hlength := congrArg List.length h
  unfold names at hlength
  unfold values
  rwa [List.length_map, List.length_map] at hlength ⊢

namespace Draft.Alike

variable {d d' : Draft}

theorem names (h : d.Alike d') : d.columns.names = d'.columns.names := by
  cases h with
  | insert table h => exact h
  | update table h hs => exact h
  | _ => rfl

theorem filter (h : d.Alike d') : d.filter.Alike d'.filter := by
  cases h with
  | insert table h => exact ⟨rfl, .nil⟩
  | select table h order => exact h
  | count table h => exact h
  | update table h hs => exact hs
  | delete table h => exact h
  | conditions start h => exact h

theorem text_around (h : d.Alike d') {f f' : Fragment} (hf : f.text = f'.text) :
    (d.around f).text = (d'.around f').text := by
  have hnames := h.names
  have hmarks := marks_congr (Columns.length_values hnames)
  unfold Draft.around
  cases h with
  | insert table h =>
    dsimp only [Draft.columns] at hnames hmarks ⊢
    rw [hnames, hmarks]
  | update table h hs =>
    dsimp only [Draft.columns] at hnames ⊢
    rw [hnames, hf]
  | _ =>
    dsimp only
    rw [hf]

theorem params_around (h : d.Alike d') {f f' : Fragment}
    (hf : DrawnFrom ((operandValues d.leaves).zip (operandValues d'.leaves)) f.params f'.params) :
    DrawnFrom (d.given.zip d'.given) (d.around f).params (d'.around f').params := by
  have hlength := Columns.length_values h.names
  have hgiven : d.given.zip d'.given = d.columns.values.zip d'.columns.values ++
      (operandValues d.leaves).zip (operandValues d'.leaves) := List.zip_append hlength
  have hcolumns := DrawnFrom.zip hlength
  rw [hgiven]
  unfold Draft.around
  cases h with
  | insert table h =>
    have hbound := hcolumns.append (DrawnFrom.nil ((operandValues []).zip (operandValues [])))
    rw [List.append_nil, List.append_nil] at hbound
    exact hbound
  | update table h hs => exact hcolumns.append hf
  | _ => exact hcolumns.append hf

theorem hasColumns (h : d.Alike d') : d.HasColumns ↔ d'.HasColumns := by
  have hnames := congrArg List.isEmpty h.names
  unfold Columns.names at hnames
  rw [List.isEmpty_map, List.isEmpty_map, Bool.eq_iff_iff, List.isEmpty_iff, List.isEmpty_iff]
    at hnames
  cases h with
  | insert table h => exact not_congr hnames
  | update table h hs => exact not_congr hnames
  | _ => exact Iff.rfl

/-- Where columns are missing, nothing but the table decides how binding fails. -/
theorem bind_bare (h : d.Alike d') (hd : ¬ d.HasColumns) :
    ∃ e, d.bind = .error e ∧ d'.bind = .error e := by
  have hd' : ¬ d'.HasColumns := mt h.hasColumns.2 hd
  cases h with
  | @insert table columns columns' h =>
    obtain rfl : columns = [] := not_not.1 hd
    obtain rfl : columns' = [] := not_not.1 hd'
    exact ⟨_, rfl, rfl⟩
  | @update table columns columns' h s s' hs =>
    obtain rfl : columns = [] := not_not.1 hd
    obtain rfl : columns' = [] := not_not.1 hd'
    exact ⟨_, rfl, rfl⟩
  | _ => exact absurd trivial hd

end Draft.Alike

def SameNames (p p' : Params) : Prop := ∀ name, (p.get? name).isSome = (p'.get? name).isSome

variable {p p' : Params}

theorem SameNames.lookUp (h : SameNames p p') (name : String) :
    SameOutcome (fun v v' => p.get? name = some v ∧ p'.get? name = some v') (lookUp p name)
      (lookUp p' name) := by
  specialize h name
  unfold Sql.lookUp
  cases hv : p.get? name with
  | none =>
    rw [hv, Option.isSome_none, eq_comm, Option.isSome_eq_false_iff, Option.isNone_iff_eq_none] at h
    rw [h]
    exact .error _
  | some v =>
    rw [hv, Option.isSome_some, eq_comm, Option.isSome_iff_exists] at h
    obtain ⟨v', hv'⟩ := h
    rw [hv']
    exact .ok ⟨rfl, rfl⟩

theorem SameNames.mapM_lookUp (h : SameNames p p') (names : List String) :
    SameOutcome (fun vs vs' => vs.map some = names.map p.get? ∧ vs'.map some = names.map p'.get?)
      (names.mapM (Sql.lookUp p)) (names.mapM (Sql.lookUp p')) := by
  induction names with
  | nil => exact .ok ⟨rfl, rfl⟩
  | cons name names ih =>
    rw [List.mapM_cons, List.mapM_cons]
    refine (h.lookUp name).bind fun v v' hv => ih.bind fun vs vs' hvs => .ok ?_
    simp only [List.map_cons, hv, hvs, and_self]

/-- Nothing that values are decides whether SQL is bound, with which error it is not, or what its text
is. Each parameter of a draft stands for one value that the draft is given, the same one in both runs, and
each parameter of a template for the value of one of its names. -/
theorem bind_alike :
    (∀ {d d' : Draft}, d.Alike d' →
      SameOutcome
        (fun b b' => b.sql = b'.sql ∧ DrawnFrom (d.given.zip d'.given) b.params b'.params)
        d.bind d'.bind) ∧
      ∀ (template : String) {p p' : Params}, SameNames p p' →
        SameOutcome
          (fun b b' => b.sql = b'.sql ∧
            b.params.map some = (templateNames template).map p.get? ∧
            b'.params.map some = (templateNames template).map p'.get?)
          (bindTemplate template p) (bindTemplate template p') := by
  constructor
  · intro d d' h
    by_cases hd : d.HasColumns
    · rw [Draft.bind_eq hd, Draft.bind_eq (h.hasColumns.1 hd)]
      have hwhere := h.filter.whereClause
      rw [d.leaves_filter, d'.leaves_filter] at hwhere
      refine hwhere.bind fun f f' hf => ?_
      have hparams := h.params_around hf.params
      rw [h.text_around hf.text]
      exact Bound.make_alike hparams.length hparams _
    · obtain ⟨e, he, he'⟩ := h.bind_bare hd
      rw [he, he']
      exact .error e
  · intro template p p' h
    rw [bindTemplate_eq, bindTemplate_eq]
    refine (h.mapM_lookUp _).bind fun vs vs' hvs => ?_
    have hlength : vs.length = vs'.length := by
      have hnames := congrArg List.length hvs.1
      have hnames' := congrArg List.length hvs.2
      rw [List.length_map, List.length_map] at hnames hnames'
      rw [hnames, hnames']
    exact Bound.make_alike (R := fun vs vs' => vs.map some = (templateNames template).map p.get? ∧
      vs'.map some = (templateNames template).map p'.get?) hlength hvs _

def Draft.deleteNotes (body : String) : Draft :=
  .statement (.delete "notes" ⟨.and, .condition ⟨"body", .eq, .single (.text body)⟩ .nil⟩)

theorem Draft.alike_deleteNotes (body body' : String) :
    (deleteNotes body).Alike (deleteNotes body') :=
  .delete "notes" ⟨rfl, .condition ⟨rfl, rfl, .single _ _⟩ .nil⟩

theorem sameNames_ofList_singleton (name : String) (v v' : Value) :
    SameNames (Params.ofList [(name, v)]) (Params.ofList [(name, v')]) := by
  intro other
  unfold Params.ofList
  rw [List.foldl_cons, List.foldl_cons, List.foldl_nil, List.foldl_nil, Params.get?_insert,
    Params.get?_insert]
  split_ifs <;> rfl

/-- Text that would close a literal, open a comment or name a parameter is bound like any other. -/
theorem bind_alike_hostile :
    (∃ b, (Draft.deleteNotes "\x27 or 1 = 1 -- ? \x7bbody\x7d /*").bind = .ok b ∧
        b.sql = "delete from notes where body = ?") ∧
      ∃ b, bindTemplate "select id from notes where body = \x7bbody\x7d"
          (Params.ofList [("body", .text "\x27 or 1 = 1 -- ? \x7bbody\x7d /*")]) = .ok b ∧
        b.sql = "select id from notes where body = ?" := by
  have hdelete : (Draft.deleteNotes "b").bind =
      .ok ⟨"delete from notes where body = ?", [.text "b"], by decide +kernel⟩ := by rfl
  have hselect : bindTemplate "select id from notes where body = \x7bbody\x7d"
      (Params.ofList [("body", .text "b")]) =
      .ok ⟨"select id from notes where body = ?", [.text "b"], by decide +kernel⟩ := by rfl
  have hdraft := bind_alike.1
    (Draft.alike_deleteNotes "b" "\x27 or 1 = 1 -- ? \x7bbody\x7d /*")
  have htemplate := bind_alike.2 "select id from notes where body = \x7bbody\x7d"
    (sameNames_ofList_singleton "body" (.text "b") (.text "\x27 or 1 = 1 -- ? \x7bbody\x7d /*"))
  rw [hdelete] at hdraft
  rw [hselect] at htemplate
  obtain ⟨b, hb, hsql, -⟩ := hdraft.of_ok
  obtain ⟨b', hb', hsql', -⟩ := htemplate.of_ok
  exact ⟨⟨b, hb, hsql.symm⟩, b', hb', hsql'.symm⟩

end DataAccess.Sql
