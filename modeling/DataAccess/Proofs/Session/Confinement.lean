import DataAccess.Proofs.Session.Contents
import DataAccess.Proofs.Session.Uses

/-!
Statements inside transactions. A statement that controls no transaction changes no committed contents
while the transaction of its connection is open, so neither does a script that is started in it, and a
transaction that is open after a script has been open throughout.
-/
namespace DataAccess

variable {Fault Store Link Contents : Type} {E : Engine Fault Store Link}
  {L : Ledger Store Link Contents} {control : Sql.Bound → Prop} {store : Store} {link : Link}

/-- What the coordinator relies on of statements that control no transactions. -/
structure Engine.Confines (E : Engine Fault Store Link) (L : Ledger Store Link Contents)
    (control : Sql.Bound → Prop) : Prop where
  keeps : ∀ {sent : Sent} {store link}, ¬ control sent.bound → E.autocommit link = false →
    L.Keeps (store, link) (sent.run E store link).2
  /-- Only a statement that fails can end a transaction by itself. -/
  remains : ∀ {sent : Sent} {store link}, ¬ control sent.bound → E.autocommit link = false →
    (sent.run E store link).1 = false → E.autocommit (sent.run E store link).2.2 = false
  unbegun : ∀ {sent : Sent} {store link}, ¬ control sent.bound → E.autocommit link = true →
    E.autocommit (sent.run E store link).2.2 = true

namespace Script

theorem keeps_run (hC : E.Confines L control) (c : Script) (store : Store) (link : Link)
    (h : ∀ t ∈ (c.run E store link).1, ¬ control t.sent.bound ∧ E.autocommit t.before.2 = false) :
    L.Keeps (store, link) (c.run E store link).2 := by
  have hrun := c.run_induction E store link
    (P := fun turns store' link' =>
      (∀ t ∈ turns, ¬ control t.sent.bound ∧ E.autocommit t.before.2 = false) →
        L.Keeps (store, link) (store', link')) (fun _ => .of_link rfl) ?_
  · exact hrun h
  · intro turns store' link' sent _ _ ih hall
    obtain ⟨hsent, hopen⟩ := hall (sent.turn E store' link') (by simp)
    exact (ih fun t ht => hall t (List.mem_append_left _ ht)).trans (hC.keeps hsent hopen)

/-- A script that is started in a transaction goes on in it, as it stops at a failure. -/
theorem before_run (hC : E.Confines L control) {c : Script} (hc : ∀ b ∈ c.statements, ¬ control b)
    (store : Store) (hopen : E.autocommit link = false) :
    ∀ t ∈ (c.run E store link).1, E.autocommit t.before.2 = false := by
  have hrun := c.run_induction E store link
    (P := fun turns _ link' => (∀ t ∈ turns, E.autocommit t.before.2 = false) ∧
      ((∀ t ∈ turns, t.failed = false) → E.autocommit link' = false))
    ⟨fun _ ht => absurd ht List.not_mem_nil, fun _ => hopen⟩ ?_
  · exact hrun.1
  · rintro turns store' link' sent hsent hturns ⟨hbefore, hopen'⟩
    have hopen' := hopen' hturns
    refine ⟨fun t ht => ?_, fun hall => ?_⟩
    · rcases List.mem_append.1 ht with ht | ht
      · exact hbefore t ht
      · rw [List.mem_singleton.1 ht]
        exact hopen'
    · exact hC.remains (hc _ hsent) hopen' (hall (sent.turn E store' link') (by simp))

/-- A transaction that is open after a script has been open throughout. -/
theorem isInside_run (hC : E.Confines L control) (c : Script) (store : Store) (link : Link)
    (hc : ∀ t ∈ (c.run E store link).1, ¬ control t.sent.bound)
    (hopen : E.autocommit (c.run E store link).2.2 = false) :
    E.autocommit link = false ∧ ∀ t ∈ (c.run E store link).1, t.IsInside E := by
  have hrun := c.run_induction E store link
    (P := fun turns _ link' => (∀ t ∈ turns, ¬ control t.sent.bound) →
      E.autocommit link' = false → E.autocommit link = false ∧ ∀ t ∈ turns, t.IsInside E) ?_ ?_
  · exact hrun hc hopen
  · exact fun _ hopen => ⟨hopen, fun _ ht => absurd ht List.not_mem_nil⟩
  · intro turns store' link' sent _ _ ih hcontrol hafter
    have hsent : ¬ control sent.bound := hcontrol (sent.turn E store' link') (by simp)
    have hbefore : E.autocommit link' = false := by
      by_contra hauto
      rw [hC.unbegun hsent (by simpa using hauto)] at hafter
      cases hafter
    obtain ⟨hstart, hturns⟩ := ih (fun t ht => hcontrol t (List.mem_append_left _ ht)) hbefore
    refine ⟨hstart, fun t ht => ?_⟩
    rcases List.mem_append.1 ht with ht | ht
    · exact hturns t ht
    · rw [List.mem_singleton.1 ht]
      exact ⟨hbefore, hafter⟩

end Script

end DataAccess
