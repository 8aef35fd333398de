import DataAccess.Proofs.Session.Conservation

/-!
Borrowed connections. A connection lent by a transaction comes back before the transaction ends, so
that a session without a transaction never has one in the hands of its caller.
-/
namespace DataAccess

variable {Fault Store Link : Type} [Reportable Fault] {E : Engine Fault Store Link}

namespace Session

def LendsWithin (s : Session) : Prop := s.isLent = true → s.isActive = true

theorem lendsWithin_idle : Session.idle.LendsWithin := fun h => by cases h

theorem LendsWithin.of_handles {s s' : Session} (h : s.LendsWithin)
    (ht : s'.transaction = s.transaction) (hsub : ∀ e ∈ s'.handles, e ∈ s.handles) :
    s'.LendsWithin := by
  intro hlent
  obtain ⟨e, he, htrans⟩ := List.any_eq_true.1 hlent
  have hactive : s.isActive = true := h (List.any_eq_true.2 ⟨e, hsub e he, htrans⟩)
  unfold isActive at hactive ⊢
  rwa [ht]

theorem LendsWithin.begin {s : Session} (h : s.LendsWithin) (level : Level)
    (r : Registry Store Link) : (s.begin E level r).2.1.LendsWithin := by
  unfold Session.begin
  split_ifs with hlent
  · exact h
  · cases ht : s.transaction with
    | some t => exact h
    | none =>
      cases hb : Transaction.begin E level r with
      | mk result r' =>
        cases result with
        | error e => exact h
        | ok t => exact fun _ => rfl

theorem LendsWithin.finish {s : Session} (h : s.LendsWithin) (o : Outcome)
    (r : Registry Store Link) : (s.finish E o r).2.1.LendsWithin := by
  unfold Session.finish
  split_ifs with hlent
  · exact h
  · cases ht : s.transaction with
    | none => exact h
    | some t => exact fun hagain => absurd hagain hlent

theorem LendsWithin.release {s : Session} (h : s.LendsWithin) (key : String)
    (r : Registry Store Link) : (s.release key r).2.1.LendsWithin := by
  unfold Session.release
  cases s.handles.get? key with
  | none => exact h
  | some old => exact h.of_handles rfl fun e he => List.mem_of_mem_filter he

theorem LendsWithin.keep {s : Session} (h : s.LendsWithin) (key : String) {handle : Handle}
    (hh : handle.isTransactional = true → s.isActive = true) (r : Registry Store Link) :
    (s.keep key handle r).1.LendsWithin := by
  intro hlent
  obtain ⟨e, he, htrans⟩ := List.any_eq_true.1 hlent
  rcases Keyed.mem_of_mem_insert he with rfl | he
  · exact hh htrans
  · exact h (List.any_eq_true.2 ⟨e, he, htrans⟩)

/-- Only a session with a transaction resolves connections of one. -/
theorem isActive_of_resolve {s : Session} {source : String} {h : Handle}
    {r r' : Registry Store Link} (hr : s.resolve source r = (.ok h, r'))
    (hh : h.isTransactional = true) : s.isActive = true := by
  unfold resolve at hr
  unfold isActive
  cases ht : s.transaction with
  | some t => rfl
  | none =>
    cases htake : takePooled source r with
    | mk result taken =>
      cases result with
      | error e => simp [ht, htake, Except.map] at hr
      | ok n =>
        simp only [ht, htake, Except.map, Prod.mk.injEq, Except.ok.injEq] at hr
        rw [← hr.1] at hh
        cases hh

end Session

namespace World

def LendsWithin (w : World Store Link) : Prop := ∀ id, (w.session id).LendsWithin

namespace LendsWithin

variable {w : World Store Link}

theorem insert (hw : w.LendsWithin) (id : String) {s : Session} (hs : s.LendsWithin)
    (r : Registry Store Link) : (⟨r, w.sessions.insert id s⟩ : World Store Link).LendsWithin := by
  intro other
  rw [session_insert]
  split_ifs
  · exact hs
  · exact hw other

theorem giveUp (hw : w.LendsWithin) (key : String) : (w.giveUp key).2.LendsWithin := by
  unfold World.giveUp
  cases w.keeper? key with
  | none => exact hw
  | some id => exact hw.insert id ((hw id).release key w.registry) _

theorem keep (hw : w.LendsWithin) (id key : String) {h : Handle}
    (hh : h.isTransactional = true → (w.session id).isActive = true) :
    (w.keep id key h).LendsWithin := by
  have hgiven := hw.giveUp key
  have hactive (htrans : h.isTransactional = true) :
      ((w.giveUp key).2.session id).isActive = true := by
    have hbefore := hh htrans
    unfold Session.isActive at hbefore ⊢
    rwa [transaction_giveUp]
  exact hgiven.insert id ((hgiven id).keep key hactive (w.giveUp key).2.registry) _

theorem run_atom (hw : w.LendsWithin) (id : String) {c : Command}
    (hc : ∀ level steps, c ≠ .inTransaction level steps) : (run E id c w).2.2.LendsWithin := by
  cases c with
  | inTransaction level steps => exact absurd rfl (hc level steps)
  | begin level =>
    unfold run
    exact hw.insert id ((hw id).begin level w.registry) _
  | commit =>
    unfold run
    exact hw.insert id ((hw id).finish .commit w.registry) _
  | rollback =>
    unfold run
    exact hw.insert id ((hw id).finish .rollback w.registry) _
  | fail text =>
    unfold run
    exact hw
  | drop =>
    unfold run drop
    intro other
    dsimp only
    rw [session_erase]
    split_ifs
    · exact Session.lendsWithin_idle
    · exact hw other
  | debug =>
    unfold run
    exact hw
  | resolve source key =>
    unfold run
    rcases resolve_cases E w id source key with hsame | ⟨h, r', hr, hgiven | ⟨key, hkept⟩⟩
    · dsimp only
      rwa [hsame]
    · dsimp only
      rw [hgiven]
      exact hw
    · dsimp only
      rw [hkept]
      have hw' : (⟨r', w.sessions⟩ : World Store Link).LendsWithin := hw
      exact hw'.keep id key fun htrans => Session.isActive_of_resolve hr htrans
  | hold source key =>
    unfold run
    rcases w.hold_cases id source key with hsame | ⟨n, r', hr, hkept⟩
    · dsimp only
      rwa [hsame]
    · dsimp only
      rw [hkept]
      have hw' : (⟨r', w.sessions⟩ : World Store Link).LendsWithin := hw
      exact hw'.keep id key fun htrans => by cases htrans
  | release key =>
    unfold run
    exact hw.giveUp key
  | through target q =>
    unfold run
    cases w.gateway target with
    | error e => exact hw
    | ok g =>
      obtain ⟨hsessions, -⟩ := w.exchange_request E.respects_any id g (q := q) fun _ _ => trivial
      intro other
      unfold session
      dsimp only
      rw [hsessions]
      exact hw other

end LendsWithin

/-- No run leaves a connection of a transaction lent behind the end of the transaction. -/
theorem runAll_lendsWithin (E : Engine Fault Store Link) (r : Registry Store Link) (id : String)
    (steps : List Command.Step) : (runAll E id steps ⟨r, []⟩).2.LendsWithin := by
  refine runAll_induction id steps _ (fun a ha w hw => ?_) fun other => ?_
  · exact hw.run_atom a.1 (Command.atomsOfSteps_simple id steps a ha)
  · exact Session.lendsWithin_idle

end World
end DataAccess
