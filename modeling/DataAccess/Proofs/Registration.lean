import DataAccess.Proofs.Database.Sources
import Mathlib.Data.List.Induction
import Mathlib.Data.List.Nodup

/-!
Which configurations can be registered. Validation looks at one source after the other and then for
the default among their names; a name that is given twice is found by the registry alone, which looks
for it as it adds the opened sources one by one. Nothing else is left to fail.
-/
namespace DataAccess

variable {Store Link α β : Type}

/-- What is given twice is given twice somewhere first. -/
theorem exists_first_repetition {f : α → β} {l : List α} (h : ¬ (l.map f).Nodup) :
    ∃ before a after, l = before ++ a :: after ∧ (before.map f).Nodup ∧ f a ∈ before.map f := by
  induction l using List.reverseRecOn with
  | nil => exact absurd List.nodup_nil h
  | append_singleton l a ih =>
    by_cases hl : (l.map f).Nodup
    · refine ⟨l, a, [], rfl, hl, ?_⟩
      by_contra ha
      apply h
      rw [List.map_append, List.nodup_append_comm]
      exact List.nodup_cons.2 ⟨ha, hl⟩
    · obtain ⟨before, b, after, rfl, hbefore, hb⟩ := ih hl
      exact ⟨before, b, after ++ [a], by simp, hbefore, hb⟩

namespace Registry

theorem addAll_append (m : Keyed (Source Store Link)) (l l' : List (Source Store Link)) :
    addAll m (l ++ l') = addAll m l >>= fun m' => addAll m' l' := by
  induction l generalizing m with
  | nil => rfl
  | cons s rest ih =>
    rw [List.cons_append, addAll, addAll]
    split_ifs
    · rfl
    · exact ih _

theorem contains_iff {m : Keyed (Source Store Link)} {name : String} :
    m.contains name = true ↔ name ∈ m.keys := by
  unfold Keyed.contains
  rw [Option.isSome_iff_ne_none, ne_eq, Keyed.get?_eq_none_iff, not_not]

/-- Sources with names of their own are all added. -/
theorem addAll_of_nodup {m : Keyed (Source Store Link)} {l : List (Source Store Link)}
    (hm : m.Ascending) (h : (m.keys ++ l.map Source.name).Nodup) :
    ∃ m', addAll m l = .ok m' ∧ m'.Perm (m ++ l.map fun s => (s.name, s)) := by
  induction l generalizing m with
  | nil => exact ⟨m, rfl, by simp⟩
  | cons s rest ih =>
    have hnew : s.name ∉ m.keys := by
      intro hmem
      exact List.disjoint_of_nodup_append h hmem List.mem_cons_self
    have hperm : (m.insert s.name s).Perm ((s.name, s) :: m) := by
      have hinsert := hm.insert_perm s.name s
      rwa [Keyed.erase_of_get?_eq_none (Keyed.get?_eq_none_iff.2 hnew)] at hinsert
    have hkeys : ((m.insert s.name s).keys ++ rest.map Source.name).Perm
        (m.keys ++ (s :: rest).map Source.name) :=
      ((hperm.map Prod.fst).append_right _).trans List.perm_middle.symm
    obtain ⟨m', hm', hadded⟩ := ih (hm.insert s.name s) (hkeys.nodup_iff.2 h)
    refine ⟨m', ?_, hadded.trans ((hperm.append_right _).trans List.perm_middle.symm)⟩
    rw [addAll, if_neg (fun hc => hnew (contains_iff.1 hc)), hm']

/-- The first source whose name was given before is reported. -/
theorem addAll_of_repeated {before after : List (Source Store Link)} {s : Source Store Link}
    (h : (before.map Source.name).Nodup) (hs : s.name ∈ before.map Source.name) :
    addAll [] (before ++ s :: after) = .error (.config (.registeredTwice s.name)) := by
  obtain ⟨m, hm, hperm⟩ := addAll_of_nodup (m := []) List.Pairwise.nil h
  have hmem : s.name ∈ m.keys := by
    have hkeys : m.keys.Perm (before.map Source.name) := by
      simpa [Keyed.keys, Function.comp_def] using hperm.map Prod.fst
    exact hkeys.mem_iff.2 hs
  rw [addAll_append, hm, ok_bind, addAll, if_pos (contains_iff.2 hmem)]

end Registry

theorem Config.default_of_validate {c : Config} (h : c.validate = .ok ()) :
    ∃ name, c.defaultName = .ok name ∧ name ∈ c.sources.map (·.name) := by
  unfold validate at h
  split_ifs at h
  obtain ⟨-, -, h⟩ := exists_of_bind_ok h
  obtain ⟨name, hname, h⟩ := exists_of_bind_ok h
  split_ifs at h with hany
  obtain ⟨s, hs, heq⟩ := List.any_eq_true.1 hany
  exact ⟨name, hname, List.mem_map.2 ⟨s, hs, of_decide_eq_true heq⟩⟩

namespace Registry

variable {connect : SourceConfig → Except Error (Store × Link)} {c : Config}

def CanOpen (connect : SourceConfig → Except Error (Store × Link)) (c : Config) : Prop :=
  ∀ s ∈ c.sources, ∃ src : Source Store Link, Source.ofConfig connect s = .ok src

abbrev Opened (connect : SourceConfig → Except Error (Store × Link))
    (configs : List SourceConfig) (sources : List (Source Store Link)) : Prop :=
  List.Forall₂ (fun s src => Source.ofConfig connect s = .ok src) configs sources

theorem Opened.names {configs : List SourceConfig} {sources : List (Source Store Link)}
    (h : Opened connect configs sources) : sources.map Source.name = configs.map (·.name) := by
  induction h with
  | nil => rfl
  | cons hsrc hrest ih =>
    obtain ⟨store, link, -, rfl⟩ := Source.ofConfig_ok hsrc
    rw [List.map_cons, List.map_cons, ih]
    rfl

/-- Once everything is opened, what is left is to add the sources. -/
theorem exists_ofConfig_eq (hvalid : c.validate = .ok ()) (hopen : CanOpen connect c)
    {name : String} (hname : c.defaultName = .ok name) :
    ∃ sources, Opened connect c.sources sources ∧
      ofConfig connect c = (ofSources name sources).mapError .refused := by
  obtain ⟨sources, hsources⟩ := exists_mapM_ok hopen
  refine ⟨sources, forall₂_of_mapM_ok hsources, ?_⟩
  unfold ofConfig
  rw [hvalid, hsources, hname]
  rfl

theorem ofConfig_of_nodup (hvalid : c.validate = .ok ()) (hopen : CanOpen connect c)
    (h : (c.sources.map (·.name)).Nodup) :
    ∃ r sources, ofConfig connect c = .ok r ∧ r.sources.Ascending ∧
      c.defaultName = .ok r.default ∧ Opened connect c.sources sources ∧
      r.sources.Perm (sources.map fun s => (s.name, s)) := by
  obtain ⟨name, hname, hmem⟩ := Config.default_of_validate hvalid
  obtain ⟨sources, hsources, hofConfig⟩ := exists_ofConfig_eq hvalid hopen hname
  rw [← hsources.names] at h hmem
  obtain ⟨m, hm, hperm⟩ := addAll_of_nodup (m := []) List.Pairwise.nil h
  rw [List.nil_append] at hperm
  have hkeys : m.keys.Perm (sources.map Source.name) := by
    have hmap := hperm.map Prod.fst
    rwa [List.map_map] at hmap
  refine ⟨⟨m, name⟩, sources, ?_, (addAll_ok hm List.Pairwise.nil).1, hname, hsources, hperm⟩
  rw [hofConfig, ofSources, hm, ok_bind, if_pos (contains_iff.2 (hkeys.mem_iff.2 hmem))]
  rfl

/-- The first name that is given twice is reported. -/
theorem ofConfig_of_repeated (hvalid : c.validate = .ok ()) (hopen : CanOpen connect c)
    {before after : List SourceConfig} {s : SourceConfig} (hc : c.sources = before ++ s :: after)
    (hbefore : (before.map (·.name)).Nodup) (hs : s.name ∈ before.map (·.name)) :
    ofConfig connect c = .error (.refused (.config (.registeredTwice s.name))) := by
  obtain ⟨name, hname, -⟩ := Config.default_of_validate hvalid
  obtain ⟨sources, hsources, hofConfig⟩ := exists_ofConfig_eq hvalid hopen hname
  have hnames := hsources.names
  rw [hc, List.map_append, List.map_cons] at hnames
  obtain ⟨before', rest, rfl, hbefore', hrest⟩ := List.map_eq_append_iff.1 hnames
  obtain ⟨src, after', rfl, hsrc, -⟩ := List.map_eq_cons_iff.1 hrest
  rw [← hbefore'] at hbefore hs
  rw [← hsrc] at hs
  rw [hofConfig, ofSources, addAll_of_repeated hbefore hs, hsrc]
  rfl

/-- A valid configuration whose sources can all be opened is registered if no name is given twice: with
just the configured names, each for the source opened from its own settings, and with the configured
default. Else it is refused for the first source whose name another one before it has, although
validation has nothing against it. -/
theorem ofConfig_registers (hvalid : c.validate = .ok ()) (hopen : CanOpen connect c) :
    ((c.sources.map (·.name)).Nodup → ∃ r, ofConfig connect c = .ok r ∧
      r.names.Perm (c.sources.map (·.name)) ∧ c.defaultName = .ok r.default ∧
      ∀ s ∈ c.sources, ∃ src, Source.ofConfig connect s = .ok src ∧ r.get s.name = .ok src) ∧
    (¬ (c.sources.map (·.name)).Nodup → ∃ before s after, c.sources = before ++ s :: after ∧
      (before.map (·.name)).Nodup ∧ s.name ∈ before.map (·.name) ∧
      ofConfig connect c = .error (.refused (.config (.registeredTwice s.name)))) := by
  constructor
  · intro h
    obtain ⟨r, sources, hr, hascending, hdefault, hsources, hperm⟩ :=
      ofConfig_of_nodup hvalid hopen h
    refine ⟨r, hr, ?_, hdefault, fun s hs => ?_⟩
    · have hnames := hperm.map Prod.fst
      rw [List.map_map] at hnames
      exact hnames.trans (.of_eq hsources.names)
    · obtain ⟨src, hsrc, hopened⟩ := exists_of_forall₂ hsources hs
      have hname : src.name = s.name := by
        obtain ⟨store, link, -, rfl⟩ := Source.ofConfig_ok hopened
        rfl
      have hmem := hperm.mem_iff.2 (List.mem_map_of_mem hsrc)
      refine ⟨src, hopened, ?_⟩
      rw [Registry.get, ← hname, hascending.get?_of_mem hmem]
  · intro h
    obtain ⟨before, s, after, hc, hbefore, hs⟩ := exists_first_repetition h
    exact ⟨before, s, after, hc, hbefore, hs, ofConfig_of_repeated hvalid hopen hc hbefore hs⟩

def inMemoryConfig (default : String) (names : List String) : Config :=
  ⟨some default, names.map (.inMemory · 2)⟩

section

variable {names : List String}
  (h : ∀ name ∈ names, (Text.trimBlank name.toList).isEmpty = false)

include h

theorem validate_inMemoryConfig {default : String} (hdefault : default ∈ names) :
    (inMemoryConfig default names).validate = .ok () := by
  have hsources : (inMemoryConfig default names).sources.forM SourceConfig.validate = .ok () := by
    apply forM_of_forall_ok
    intro s hs
    obtain ⟨name, hname, rfl⟩ := List.mem_map.1 hs
    exact SourceConfig.validate_inMemory (h name hname) (by decide)
  have hany : (inMemoryConfig default names).sources.any (·.name = default) = true :=
    List.any_eq_true.2 ⟨_, List.mem_map_of_mem hdefault, by simp [SourceConfig.inMemory]⟩
  have hne : ¬ (inMemoryConfig default names).sources.isEmpty = true := by
    intro hempty
    rw [List.isEmpty_iff.1 hempty] at hany
    cases hany
  unfold Config.validate
  rw [if_neg hne, hsources]
  exact if_pos hany

theorem canOpen_inMemoryConfig (default : String) :
    CanOpen (Database.connect Database.Sample.schemas) (inMemoryConfig default names) := by
  intro s hs
  obtain ⟨name, hname, rfl⟩ := List.mem_map.1 hs
  exact ⟨_, Database.ofConfig_inMemory (h name hname) (by decide)⟩

end

theorem ofConfig_registers_pair :
    (∃ r, ofConfig (Database.connect Database.Sample.schemas) (inMemoryConfig "b" ["b", "a"]) = .ok r ∧
      r.names.Perm ["b", "a"] ∧ r.default = "b") ∧
    ofConfig (Database.connect Database.Sample.schemas) (inMemoryConfig "b" ["b", "b"]) =
      .error (.refused (.config (.registeredTwice "b"))) := by
  constructor
  · have hnames : ∀ name ∈ ["b", "a"], (Text.trimBlank name.toList).isEmpty = false := by decide
    obtain ⟨hok, -⟩ := ofConfig_registers (validate_inMemoryConfig hnames List.mem_cons_self)
      (canOpen_inMemoryConfig hnames "b")
    have hdistinct : ["b", "a"].Nodup := by decide
    obtain ⟨r, hr, hperm, hdefault, -⟩ := hok hdistinct
    exact ⟨r, hr, hperm, (Except.ok.inj hdefault).symm⟩
  · have hnames : ∀ name ∈ ["b", "b"], (Text.trimBlank name.toList).isEmpty = false := by decide
    obtain ⟨-, htwice⟩ := ofConfig_registers (validate_inMemoryConfig hnames List.mem_cons_self)
      (canOpen_inMemoryConfig hnames "b")
    have hdistinct : ¬ ["b", "b"].Nodup := by decide
    obtain ⟨before, s, after, hc, -, -, htwice⟩ := htwice hdistinct
    have hs : s ∈ (inMemoryConfig "b" ["b", "b"]).sources := by
      rw [hc]
      exact List.mem_append_right _ List.mem_cons_self
    have hname : s.name = "b" := by
      rcases List.mem_pair.1 hs with rfl | rfl <;> rfl
    rwa [hname] at htwice

/-- Validation passes though a name is given twice, and nothing is registered. -/
theorem ofConfig_twins :
    (inMemoryConfig "main" ["main", "main"]).validate = .ok () ∧
      CanOpen (Database.connect Database.Sample.schemas) (inMemoryConfig "main" ["main", "main"]) ∧
      ∀ r, ofConfig (Database.connect Database.Sample.schemas)
        (inMemoryConfig "main" ["main", "main"]) ≠ .ok r := by
  have hnames : ∀ name ∈ ["main", "main"], (Text.trimBlank name.toList).isEmpty = false := by decide
  have hvalid := validate_inMemoryConfig hnames (List.mem_cons_self (a := "main"))
  have hopen := canOpen_inMemoryConfig hnames "main"
  refine ⟨hvalid, hopen, fun r hr => ?_⟩
  have hsources : (inMemoryConfig "main" ["main", "main"]).sources =
      [.inMemory "main" 2] ++ .inMemory "main" 2 :: [] := rfl
  have hrepeated := ofConfig_of_repeated hvalid hopen hsources (List.nodup_singleton _)
    (List.mem_singleton.2 rfl)
  rw [hrepeated] at hr
  cases hr

end Registry

end DataAccess
