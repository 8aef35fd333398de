import DataAccess.Proofs.Except
import DataAccess.Proofs.Keyed
import DataAccess.Registry

/-!
What a registry is made of: the sources it was given, in order of their names, each with the pool
that it was opened with.
-/
namespace DataAccess

variable {Store Link : Type}

namespace Registry

theorem addAll_ok {m m' : Keyed (Source Store Link)} {l : List (Source Store Link)}
    (h : addAll m l = .ok m') (hm : m.Ascending) :
    m'.Ascending ∧ ∀ name s, m'.get? name = some s →
      m.get? name = some s ∨ s ∈ l ∧ s.name = name := by
  induction l generalizing m with
  | nil =>
    cases h
    exact ⟨hm, fun name s hs => .inl hs⟩
  | cons s rest ih =>
    unfold addAll at h
    split_ifs at h with hc
    obtain ⟨hascending, hsource⟩ := ih h (hm.insert s.name s)
    refine ⟨hascending, fun name t ht => ?_⟩
    rcases hsource name t ht with hin | ⟨hin, hname⟩
    · rw [Keyed.get?_insert] at hin
      split_ifs at hin with heq
      · cases hin
        exact .inr ⟨List.mem_cons_self, heq.symm⟩
      · exact .inl hin
    · exact .inr ⟨List.mem_cons_of_mem s hin, hname⟩

/-- A registry holds sources that it was given, under their names. -/
theorem ofSources_ok {default : String} {sources : List (Source Store Link)}
    {r : Registry Store Link} (h : ofSources default sources = .ok r) :
    r.sources.Ascending ∧
      ∀ name s, r.sources.get? name = some s → s ∈ sources ∧ s.name = name := by
  obtain ⟨m, ha, h⟩ := exists_of_bind_ok h
  split_ifs at h with hc
  cases h
  obtain ⟨hascending, hsource⟩ := addAll_ok ha List.Pairwise.nil
  refine ⟨hascending, fun name s hs => ?_⟩
  rcases hsource name s hs with hin | hin
  · simp [Keyed.get?] at hin
  · exact hin

end Registry

/-- A source is opened with all its connections idle and alike. -/
theorem Source.ofConfig_eq_ok_iff {connect : SourceConfig → Except Error (Store × Link)}
    {c : SourceConfig} {s : Source Store Link} :
    Source.ofConfig connect c = .ok s ↔ c.validate = .ok () ∧ c.unmetDemand? = none ∧
      ∃ store link, connect c = .ok (store, link) ∧
        s = ⟨c, Pool.fresh c.maxSize.toNat store link⟩ := by
  unfold Source.ofConfig
  cases c.validate with
  | error e => simp
  | ok u =>
    cases c.unmetDemand? with
    | some demand => simp
    | none =>
      cases connect c with
      | error e => simp
      | ok made =>
        obtain ⟨store, link⟩ := made
        simp [eq_comm]

theorem Source.ofConfig_ok {connect : SourceConfig → Except Error (Store × Link)}
    {c : SourceConfig} {s : Source Store Link} (h : Source.ofConfig connect c = .ok s) :
    ∃ store link, connect c = .ok (store, link) ∧
      s = ⟨c, Pool.fresh c.maxSize.toNat store link⟩ :=
  (Source.ofConfig_eq_ok_iff.1 h).2.2

/-- The registry is one of opened sources, and no two of them share a file: `file` is the one that a
configuration leads to, if its connections are to share any. -/
structure Registry.IsOpened {File : Type} (connect : SourceConfig → Except Error (Store × Link))
    (file : SourceConfig → Option File) (default : String) (sources : List (Source Store Link))
    (r : Registry Store Link) : Prop where
  opened : ∀ s ∈ sources, Source.ofConfig connect s.config = .ok s
  registered : Registry.ofSources default sources = .ok r
  files : sources.Pairwise fun s s' =>
    file s.config = none ∨ file s.config ≠ file s'.config

end DataAccess
