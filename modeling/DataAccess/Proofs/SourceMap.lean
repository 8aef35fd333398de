import DataAccess.Proofs.Registration

/-!
The registry as a map from names to sources. It is determined by which sources it was given: it holds
just these, each under its own name, and the order in which they came leaves no trace in it. So
transactions, which go through the registry from one end to the other, begin and end on its sources
in one order whatever the list was.
-/
namespace DataAccess

variable {Store Link : Type}

namespace Registry

variable {default name : String} {sources sources' : List (Source Store Link)}
  {r r' : Registry Store Link} {s : Source Store Link}

def all (r : Registry Store Link) : List (Source Store Link) := r.sources.map Prod.snd

/-- The registry of these sources, whose names are all different, with this one as the default. -/
structure IsOf (r : Registry Store Link) (default : String) (sources : List (Source Store Link)) :
    Prop where
  distinct : (sources.map Source.name).Nodup
  registered : default ∈ sources.map Source.name
  default_eq : r.default = default
  ascending : r.sources.Ascending
  perm : r.sources.Perm (sources.map fun s => (s.name, s))

/-- Sources with names of their own are added, and their names are those that can be looked up. -/
theorem exists_addAll (h : (sources.map Source.name).Nodup) :
    ∃ m, addAll [] sources = .ok m ∧ m.Ascending ∧ m.Perm (sources.map fun s => (s.name, s)) ∧
      ∀ name, m.contains name = true ↔ name ∈ sources.map Source.name := by
  obtain ⟨m, hm, hperm⟩ := addAll_of_nodup (m := []) List.Pairwise.nil h
  have hkeys : m.keys.Perm (sources.map Source.name) := by
    have hmap := hperm.map Prod.fst
    rwa [List.nil_append, List.map_map] at hmap
  exact ⟨m, hm, (addAll_ok hm List.Pairwise.nil).1, hperm,
    fun _ => contains_iff.trans hkeys.mem_iff⟩

theorem ofSources_of_nodup (h : (sources.map Source.name).Nodup)
    (hdefault : default ∈ sources.map Source.name) :
    ∃ r, ofSources default sources = .ok r ∧ r.IsOf default sources := by
  obtain ⟨m, hm, hascending, hperm, hcontains⟩ := exists_addAll h
  refine ⟨⟨m, default⟩, ?_, h, hdefault, rfl, hascending, hperm⟩
  rw [ofSources, hm, ok_bind, if_pos ((hcontains _).2 hdefault)]
  rfl

theorem ofSources_of_missing (h : (sources.map Source.name).Nodup)
    (hdefault : default ∉ sources.map Source.name) :
    ofSources default sources = .error (.config (.defaultNotRegistered default)) := by
  obtain ⟨m, hm, -, -, hcontains⟩ := exists_addAll h
  rw [ofSources, hm, ok_bind, if_neg fun hc => hdefault ((hcontains _).1 hc)]

/-- The sources are added before the default is looked for. -/
theorem ofSources_of_repeated {before after : List (Source Store Link)}
    (h : (before.map Source.name).Nodup) (hs : s.name ∈ before.map Source.name) :
    ofSources default (before ++ s :: after) = .error (.config (.registeredTwice s.name)) := by
  rw [ofSources, addAll_of_repeated h hs, error_bind]

theorem exists_repeated (default : String) (h : ¬ (sources.map Source.name).Nodup) :
    ∃ before s after, sources = before ++ s :: after ∧ (before.map Source.name).Nodup ∧
      s.name ∈ before.map Source.name ∧
      ofSources default sources = .error (.config (.registeredTwice s.name)) := by
  obtain ⟨before, s, after, rfl, hbefore, hs⟩ := exists_first_repetition h
  exact ⟨before, s, after, rfl, hbefore, hs, ofSources_of_repeated hbefore hs⟩

theorem exists_ofSources_iff : (∃ r, ofSources default sources = .ok r) ↔
    (sources.map Source.name).Nodup ∧ default ∈ sources.map Source.name := by
  constructor
  · rintro ⟨r, hr⟩
    have hdistinct : (sources.map Source.name).Nodup := by
      by_contra h
      obtain ⟨-, s, -, -, -, -, herror⟩ := exists_repeated default h
      cases hr.symm.trans herror
    refine ⟨hdistinct, ?_⟩
    by_contra h
    cases hr.symm.trans (ofSources_of_missing hdistinct h)
  · rintro ⟨hdistinct, hdefault⟩
    obtain ⟨r, hr, -⟩ := ofSources_of_nodup hdistinct hdefault
    exact ⟨r, hr⟩

theorem isOf_of_ofSources (h : ofSources default sources = .ok r) : r.IsOf default sources := by
  obtain ⟨hdistinct, hdefault⟩ := exists_ofSources_iff.1 ⟨r, h⟩
  obtain ⟨r', hr', hof⟩ := ofSources_of_nodup hdistinct hdefault
  cases h.symm.trans hr'
  exact hof

namespace IsOf

theorem mem_iff (h : r.IsOf default sources) :
    (name, s) ∈ r.sources ↔ s ∈ sources ∧ s.name = name := by
  rw [h.perm.mem_iff, List.mem_map]
  constructor
  · rintro ⟨s', hs', heq⟩
    cases heq
    exact ⟨hs', rfl⟩
  · rintro ⟨hs, rfl⟩
    exact ⟨s, hs, rfl⟩

theorem get_eq_ok_iff (h : r.IsOf default sources) :
    r.get name = .ok s ↔ s ∈ sources ∧ s.name = name := by
  rw [← h.mem_iff, Registry.get]
  constructor
  · intro hget
    cases hsource : r.sources.get? name with
    | none =>
      rw [hsource] at hget
      cases hget
    | some s' =>
      rw [hsource] at hget
      cases hget
      exact Keyed.mem_of_get?_eq_some hsource
  · intro hmem
    rw [h.ascending.get?_of_mem hmem]

theorem names_perm (h : r.IsOf default sources) : r.names.Perm (sources.map Source.name) := by
  have hnames := h.perm.map Prod.fst
  rwa [List.map_map] at hnames

theorem get_eq_error_iff (h : r.IsOf default sources) :
    r.get name = .error (.unknownDataSource name) ↔ name ∉ sources.map Source.name := by
  rw [← h.names_perm.mem_iff, Registry.get, names, ← Keyed.get?_eq_none_iff]
  cases r.sources.get? name <;> simp

theorem all_perm (h : r.IsOf default sources) : r.all.Perm sources := by
  have hall := h.perm.map Prod.snd
  rwa [List.map_map, Function.comp_def, List.map_id'] at hall

/-- Every source is under its own name. -/
theorem map_name_all (h : r.IsOf default sources) : r.all.map Source.name = r.names := by
  unfold all names Keyed.keys
  rw [List.map_map]
  apply List.map_congr_left
  rintro ⟨name, s⟩ hmem
  exact (h.mem_iff.1 hmem).2

theorem pairwise_names (h : r.IsOf default sources) : r.names.Pairwise (· < ·) :=
  List.pairwise_map.2 h.ascending

theorem pairwise_all (h : r.IsOf default sources) : r.all.Pairwise (·.name < ·.name) := by
  rw [← List.pairwise_map (f := Source.name), h.map_name_all]
  exact h.pairwise_names

theorem defaultSource?_eq (h : r.IsOf default sources) :
    ∃ s ∈ sources, s.name = default ∧ r.defaultSource? = some s := by
  obtain ⟨s, hs, hname⟩ := List.mem_map.1 h.registered
  refine ⟨s, hs, hname, ?_⟩
  rw [defaultSource?, h.default_eq]
  exact h.ascending.get?_of_mem (h.mem_iff.2 ⟨hs, hname⟩)

theorem of_perm (h : r.IsOf default sources) (hperm : sources'.Perm sources) :
    r.IsOf default sources' where
  distinct := (hperm.map _).nodup_iff.2 h.distinct
  registered := (hperm.map _).mem_iff.2 h.registered
  default_eq := h.default_eq
  ascending := h.ascending
  perm := h.perm.trans (hperm.map _).symm

theorem unique (h : r.IsOf default sources) (h' : r'.IsOf default sources) : r = r' := by
  obtain ⟨m, d⟩ := r
  obtain ⟨m', d'⟩ := r'
  obtain rfl : m = m' := h.ascending.eq_of_perm h'.ascending (h.perm.trans h'.perm.symm)
  obtain rfl : d = d' := h.default_eq.trans h'.default_eq.symm
  rfl

end IsOf

theorem ofSources_eq_ok_iff : ofSources default sources = .ok r ↔ r.IsOf default sources := by
  refine ⟨isOf_of_ofSources, fun h => ?_⟩
  obtain ⟨r', hr', hof⟩ := ofSources_of_nodup h.distinct h.registered
  rw [hr', h.unique hof]

/-- A list of sources makes a registry just when their names are all different and the default is one of
them. A name that is given twice is reported before a default that is missing, at the first source whose
name was given before. The registry holds just these sources in ascending order of names, finds each of
them by its name and nothing else, has its default, and is the same for any order of the list. -/
theorem ofSources_faithful (default : String) (sources : List (Source Store Link)) :
    ((∃ r, ofSources default sources = .ok r) ↔
      (sources.map Source.name).Nodup ∧ default ∈ sources.map Source.name) ∧
    (¬ (sources.map Source.name).Nodup → ∃ before s after, sources = before ++ s :: after ∧
      (before.map Source.name).Nodup ∧ s.name ∈ before.map Source.name ∧
      ofSources default sources = .error (.config (.registeredTwice s.name))) ∧
    ((sources.map Source.name).Nodup → default ∉ sources.map Source.name →
      ofSources default sources = .error (.config (.defaultNotRegistered default))) ∧
    ∀ r, ofSources default sources = .ok r →
      r.names.Pairwise (· < ·) ∧ r.all.Pairwise (·.name < ·.name) ∧
      r.all.map Source.name = r.names ∧ r.all.Perm sources ∧
      (∀ name s, r.get name = .ok s ↔ s ∈ sources ∧ s.name = name) ∧
      (∀ name, r.get name = .error (.unknownDataSource name) ↔ name ∉ sources.map Source.name) ∧
      r.default = default ∧ (∃ s ∈ sources, s.name = default ∧ r.defaultSource? = some s) ∧
      ∀ sources' : List (Source Store Link), sources'.Perm sources →
        ofSources default sources' = .ok r := by
  refine ⟨exists_ofSources_iff, exists_repeated default, ofSources_of_missing, fun r hr => ?_⟩
  have h := isOf_of_ofSources hr
  exact ⟨h.pairwise_names, h.pairwise_all, h.map_name_all, h.all_perm, fun _ _ => h.get_eq_ok_iff,
    fun _ => h.get_eq_error_iff, h.default_eq, h.defaultSource?_eq,
    fun _ hperm => ofSources_eq_ok_iff.2 (h.of_perm hperm)⟩

end Registry

end DataAccess
