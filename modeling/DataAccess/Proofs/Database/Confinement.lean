import DataAccess.Proofs.Database.Locks
import DataAccess.Proofs.Session.Confinement

/-!
What statements do to the transactions of connections to stores of tables. Those that control none
leave the committed contents alone inside a transaction, and end it only as they fail.
-/
namespace DataAccess.Database

theorem snd_run (sent : Sent) (s : Store) (l : Link) :
    (sent.run engine s l).2 = (onOwn (runText sent.bound) s l).2 := by
  have honOwn {α : Type} {use : Use α} (h : ∀ s l, (use s l).2 = (runText sent.bound s l).2) :
      (onOwn use s l).2 = (onOwn (runText sent.bound) s l).2 := by
    unfold onOwn
    cases l.memory with
    | none => exact h s l
    | some own => simp only [h]
  cases sent with
  | update b => exact honOwn fun _ _ => rfl
  | query b => exact honOwn fun _ _ => rfl

/-- An update that answers rows is refused. -/
def refuses : Sent → RowSet → Bool
  | .update _, found => !found.rows.isEmpty
  | .query _, _ => false

theorem fst_run (sent : Sent) (s : Store) (l : Link) :
    (sent.run engine s l).1 =
      match (runText sent.bound (l.memory.getD s) l).1 with
      | .ok found => refuses sent found
      | .error _ => true := by
  cases sent with
  | update b =>
    have hfst : (engine.execute b s l).1 = (execute b (l.memory.getD s) l).1 := onOwn_fst _ s l
    unfold Sent.run Sent.bound refuses
    dsimp only
    rw [hfst]
    unfold execute
    dsimp only
    cases (runText b (l.memory.getD s) l).1 with
    | error e => rfl
    | ok found =>
      unfold Except.bind
      dsimp only
      split_ifs with hrows
      · simp [hrows, failure?]
      · simp [hrows, failure?]
  | query b =>
    have hfst : (engine.query b s l).1 = (query b (l.memory.getD s) l).1 := onOwn_fst _ s l
    unfold Sent.run Sent.bound refuses
    dsimp only
    rw [hfst]
    unfold query
    dsimp only
    cases (runText b (l.memory.getD s) l).1 with
    | error e => rfl
    | ok found => rfl

/-- What a statement has come to in a transaction that it does not control. -/
structure Confined (s : Store) (l : Link) (out : Except DatabaseFault RowSet × Store × Link) :
    Prop where
  memory : out.2.2.memory = l.memory
  committed : out.2.1.committed = s.committed
  remains : ∀ r, out.1 = .ok r → out.2.2.isAutocommit = false

section

variable {s : Store} {l : Link}

theorem confined_read (q : PreparedQuery) (params : List Cell) (hopen : l.isAutocommit = false) :
    Confined s l (read q params s l) := by
  unfold Link.isAutocommit at hopen
  unfold read
  cases hstate : l.state with
  | autocommit => simp [hstate] at hopen
  | «open» view =>
    dsimp only
    refine ⟨?_, rfl, fun _ _ => ?_⟩
    · split_ifs <;> rfl
    · split_ifs
      · rfl
      · simp [Link.isAutocommit, hstate]

theorem confined_write (st : Prepared) (params : List Cell) (hopen : l.isAutocommit = false) :
    Confined s l (write st params s l) := by
  have hmemory := (guards_write st params s l).memory
  unfold Link.isAutocommit at hopen
  unfold write at hmemory ⊢
  cases hstate : l.state with
  | autocommit => simp [hstate] at hopen
  | «open» view =>
    simp only [hstate] at hmemory ⊢
    cases hlock : takeLock s view with
    | error e =>
      rw [hlock] at hmemory
      exact ⟨hmemory, rfl, fun r hr => by cases hr⟩
    | ok taken =>
      obtain ⟨v, s'⟩ := taken
      have hcommitted := committed_of_takeLock hlock
      simp only [hlock] at hmemory ⊢
      cases hresult : (st.write l.foreignKeys params v.contents).result with
      | ok d =>
        simp only [hresult] at hmemory ⊢
        exact ⟨hmemory, hcommitted, fun _ _ => rfl⟩
      | error e =>
        simp only [hresult] at hmemory ⊢
        split_ifs at hmemory ⊢
        · exact ⟨hmemory, (committed_close_false _ s').trans hcommitted, fun r hr => by cases hr⟩
        · exact ⟨hmemory, hcommitted, fun r hr => by cases hr⟩

theorem confined_runText {b : Sql.Bound} (hb : ¬ isControl b = true)
    (hopen : l.isAutocommit = false) : Confined s l (runText b s l) := by
  have hself {r : Except DatabaseFault RowSet} {l' : Link} (hmemory : l'.memory = l.memory)
      (hstate : l'.state = l.state) : Confined s l (r, s, l') := by
    refine ⟨hmemory, rfl, fun _ _ => ?_⟩
    unfold Link.isAutocommit at hopen ⊢
    rwa [hstate]
  have htuned {out : Except DatabaseFault RowSet × Store × Link} (h : Confined s (l.tuned b) out) :
      Confined s l out := ⟨h.memory, h.committed, h.remains⟩
  unfold runText
  dsimp only
  cases hp : prepare b (visible s (l.tuned b)) with
  | error e => exact hself rfl rfl
  | ok p =>
    have hcontrol := isControl_prepare hp hb
    cases p with
    | begin mode | commit | rollback => cases hcontrol
    | nothing => exact hself rfl rfl
    | query q => exact htuned (confined_read q _ hopen)
    | insert table sources rows | update table assignments filter | delete table filter =>
      exact htuned (confined_write _ _ hopen)
    | readUncommitted flag =>
      cases flag with
      | none => exact hself rfl rfl
      | some flag => exact hself rfl rfl

end

/-- Stores of tables confine what statements do to the transactions that they are run in. -/
theorem confines_engine : engine.Confines ledger fun b => isControl b = true where
  keeps {sent s l} hb hopen := by
    have hconfined := confined_runText (s := l.memory.getD s) hb hopen
    have halters : Alters (runText sent.bound) id (l.memory.getD s) l :=
      ⟨hconfined.memory, hconfined.committed⟩
    rw [snd_run]
    exact halters.changes
  remains {sent s l} hb hopen hdone := by
    have hconfined := confined_runText (s := l.memory.getD s) hb hopen
    have hauto := isAutocommit_onOwn (runText sent.bound) s l
    rw [fst_run] at hdone
    rw [snd_run]
    cases hrun : (runText sent.bound (l.memory.getD s) l).1 with
    | error e =>
      rw [hrun] at hdone
      cases hdone
    | ok r => exact hauto.trans (hconfined.remains r hrun)
  unbegun {sent s l} hb hauto := by
    rw [snd_run]
    exact (isAutocommit_onOwn _ s l).trans (isAutocommit_runText hb _ hauto)

end DataAccess.Database
