import DataAccess.Database.Connection
import DataAccess.Database.Sample
import DataAccess.Source
import Mathlib.Tactic.Common

/-!
Opening a data source. A pool stops the program where a demand of its own is not met. Validation
foresees the two demands on numbers of connections; the time to wait for a connection it does not
look at, so a configuration with a time of zero passes it and stops the program.
-/
namespace DataAccess

variable {Store Link : Type} {c : SourceConfig} {demand : PoolDemand}

def PoolDemand.IsMet (c : SourceConfig) : PoolDemand → Prop
  | .positiveSize => 0 < c.maxSize
  | .idleWithinSize => ∀ idle, c.minIdle? = some idle → idle ≤ c.maxSize
  | .positiveTimeout => 0 < c.connectionTimeout

namespace SourceConfig

theorem any_above_eq_false_iff {limit? : Option UInt32} {bound : UInt32} :
    limit?.any (bound < ·) = false ↔ ∀ limit, limit? = some limit → limit ≤ bound := by
  cases limit? <;> simp

theorem unmetDemand?_eq_none_iff : c.unmetDemand? = none ↔ ∀ demand : PoolDemand, demand.IsMet c := by
  unfold unmetDemand?
  constructor
  · intro h
    split_ifs at h with hsize hidle htimeout
    rintro (_ | _ | _)
    · exact UInt32.pos_iff_ne_zero.2 hsize
    · exact any_above_eq_false_iff.1 (Bool.eq_false_iff.2 hidle)
    · exact UInt64.pos_iff_ne_zero.2 htimeout
  · intro h
    have hidle := any_above_eq_false_iff.2 (h .idleWithinSize)
    rw [if_neg (UInt32.pos_iff_ne_zero.1 (h .positiveSize)), hidle, if_neg Bool.false_ne_true,
      if_neg (UInt64.pos_iff_ne_zero.1 (h .positiveTimeout))]

theorem not_isMet_of_unmetDemand? (h : c.unmetDemand? = some demand) : ¬ demand.IsMet c := by
  unfold unmetDemand? at h
  split_ifs at h with hsize hidle htimeout <;> cases h
  · exact fun hmet => UInt32.pos_iff_ne_zero.1 hmet hsize
  · intro hmet
    rw [any_above_eq_false_iff.2 hmet] at hidle
    cases hidle
  · exact fun hmet => UInt64.pos_iff_ne_zero.1 hmet htimeout

theorem isMet_of_validate (h : c.validate = .ok ()) :
    PoolDemand.positiveSize.IsMet c ∧ PoolDemand.idleWithinSize.IsMet c := by
  unfold validate at h
  split_ifs at h with hname hsize hidle hmode
  exact ⟨UInt32.pos_iff_ne_zero.2 hsize, any_above_eq_false_iff.1 (Bool.eq_false_iff.2 hidle)⟩

/-- Only a time that is given can be zero. -/
theorem isMet_positiveTimeout_iff :
    PoolDemand.positiveTimeout.IsMet c ↔ c.connectionTimeout? ≠ some 0 := by
  show 0 < c.connectionTimeout ↔ _
  unfold connectionTimeout
  rw [UInt64.pos_iff_ne_zero]
  cases c.connectionTimeout? <;> simp

theorem unmetDemand?_of_validate (h : c.validate = .ok ()) :
    c.unmetDemand? = some demand ↔ c.connectionTimeout? = some 0 ∧ demand = .positiveTimeout := by
  obtain ⟨hsize, hidle⟩ := isMet_of_validate h
  have honly {demand : PoolDemand} (hunmet : ¬ demand.IsMet c) : demand = .positiveTimeout := by
    cases demand with
    | positiveSize => exact absurd hsize hunmet
    | idleWithinSize => exact absurd hidle hunmet
    | positiveTimeout => rfl
  constructor
  · intro hdemand
    have hunmet := not_isMet_of_unmetDemand? hdemand
    obtain rfl := honly hunmet
    exact ⟨not_not.1 fun htimeout => hunmet (isMet_positiveTimeout_iff.2 htimeout), rfl⟩
  · rintro ⟨htimeout, rfl⟩
    have hunmet : c.unmetDemand? ≠ none := fun hnone =>
      isMet_positiveTimeout_iff.1 (unmetDemand?_eq_none_iff.1 hnone .positiveTimeout) htimeout
    obtain ⟨demand, hdemand⟩ := Option.ne_none_iff_exists'.1 hunmet
    rw [hdemand, honly (not_isMet_of_unmetDemand? hdemand)]

end SourceConfig

namespace Source

theorem ofConfig_eq_aborted_iff {connect : SourceConfig → Except Error (Store × Link)} :
    ofConfig connect c = .error (.aborted demand) ↔
      c.validate = .ok () ∧ c.unmetDemand? = some demand := by
  unfold ofConfig
  cases c.validate with
  | error e => simp
  | ok u =>
    cases c.unmetDemand? with
    | some demand' => simp
    | none =>
      dsimp only
      cases connect c <;> simp

/-- Opening stops the program for a configuration just when that is valid and sets the time to wait for a
connection to zero. Validation vouches for the other demands of the pool, and for this one nothing
does. In all other cases there is a source or an error. -/
theorem ofConfig_aborts_iff (connect : SourceConfig → Except Error (Store × Link)) (c : SourceConfig) :
    (c.validate = .ok () → PoolDemand.positiveSize.IsMet c ∧ PoolDemand.idleWithinSize.IsMet c ∧
      (PoolDemand.positiveTimeout.IsMet c ↔ c.connectionTimeout? ≠ some 0)) ∧
    (∀ demand, ofConfig connect c = .error (.aborted demand) ↔
      c.validate = .ok () ∧ c.connectionTimeout? = some 0 ∧ demand = .positiveTimeout) ∧
    (((∃ s, ofConfig connect c = .ok s) ∨ ∃ e, ofConfig connect c = .error (.refused e)) ↔
      ¬ (c.validate = .ok () ∧ c.connectionTimeout? = some 0)) := by
  have haborted (demand : PoolDemand) : ofConfig connect c = .error (.aborted demand) ↔
      c.validate = .ok () ∧ c.connectionTimeout? = some 0 ∧ demand = .positiveTimeout := by
    rw [ofConfig_eq_aborted_iff, and_congr_right_iff]
    exact SourceConfig.unmetDemand?_of_validate
  refine ⟨fun h => ?_, haborted, ?_⟩
  · obtain ⟨hsize, hidle⟩ := SourceConfig.isMet_of_validate h
    exact ⟨hsize, hidle, SourceConfig.isMet_positiveTimeout_iff⟩
  · have htimeout := haborted .positiveTimeout
    rw [eq_self, and_true] at htimeout
    rw [← htimeout]
    cases hopen : ofConfig connect c with
    | ok s => simp
    | error failure =>
      cases failure with
      | refused e => simp
      | aborted demand =>
        obtain ⟨-, -, rfl⟩ := (haborted demand).1 hopen
        simp

def impatient : SourceConfig := ⟨"main", ":memory:", none, none, some 0, none, none, none⟩

theorem ofConfig_impatient : impatient.validate = .ok () ∧ ¬ PoolDemand.positiveTimeout.IsMet impatient ∧
    ofConfig (Database.connect Database.Sample.schemas) impatient =
      .error (.aborted .positiveTimeout) := by
  have hvalid : impatient.validate = .ok () := by decide +kernel
  have hunmet : impatient.unmetDemand? = some .positiveTimeout := by decide
  exact ⟨hvalid, SourceConfig.not_isMet_of_unmetDemand? hunmet,
    ofConfig_eq_aborted_iff.2 ⟨hvalid, hunmet⟩⟩

end Source

end DataAccess
