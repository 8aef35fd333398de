import DataAccess.Proofs.Database.Confinement
import DataAccess.Proofs.Session.Journal

/-!
What the transactions on a store see. One that has the lock of the store has started from what is
committed and keeps what its statements have made of that, until it commits just that.
-/
namespace DataAccess.Database

theorem visible_of_autocommit {l : Link} (h : l.isAutocommit = true) (s : Store) :
    visible s l = s.committed := by
  unfold Link.isAutocommit at h
  unfold visible
  split
  · rename_i v hstate
    rw [hstate] at h
    cases h
  · rfl

theorem visible_of_state {l : Link} {v : View} (h : l.state = .open (some v)) (s : Store) :
    visible s l = v.contents := by
  unfold visible
  rw [h]

theorem Link.of_state {l l' : Link} (h : l'.state = l.state) :
    l'.isAutocommit = l.isAutocommit ∧ l'.locks = l.locks ∧ ∀ s, visible s l' = visible s l := by
  unfold isAutocommit locks visible
  rw [h]
  exact ⟨rfl, rfl, fun _ => rfl⟩

structure Advances (s : Store) (l : Link) (after : Store × Link) : Prop where
  guards : Guards s l after
  keeps : l.isAutocommit = false → after.2.isAutocommit = false → after.1.committed = s.committed
  locks : l.isAutocommit = false → after.2.isAutocommit = false → l.locks = true →
    after.2.locks = true
  first : l.Agrees s → ¬ l.locks = true → after.2.locks = true → visible s l = s.committed
  unlocked : l.isAutocommit = false → after.2.isAutocommit = false → ¬ after.2.locks = true →
    visible after.1 after.2 = visible s l
  begun : l.isAutocommit = true → after.2.locks = true →
    visible after.1 after.2 = after.1.committed

namespace Advances

variable {s s' : Store} {l l' : Link} {after : Store × Link}

/-- No transaction is open afterwards. -/
theorem of_autocommit (hguards : Guards s l after) (h : after.2.isAutocommit = true) :
    Advances s l after := by
  have hclosed {p : Prop} (hopen : after.2.isAutocommit = false) : p := by
    rw [h] at hopen
    cases hopen
  have hunlocked {p : Prop} (hlocks : after.2.locks = true) : p := by
    rw [Link.locks_of_autocommit h] at hlocks
    cases hlocks
  exact ⟨hguards, fun _ => hclosed, fun _ => hclosed, fun _ _ => hunlocked, fun _ => hclosed,
    fun _ => hunlocked⟩

/-- The store and the transaction stay as they are. -/
theorem of_state (hmemory : l'.memory = l.memory) (hstate : l'.state = l.state) :
    Advances s l (s, l') := by
  obtain ⟨-, hlocks, hvisible⟩ := Link.of_state hstate
  constructor
  · exact .of_state hmemory rfl hstate
  · exact fun _ _ => rfl
  · exact fun _ _ h => hlocks.trans h
  · exact fun _ hnot h => absurd (hlocks.symm.trans h) hnot
  · exact fun _ _ _ => hvisible s
  · intro hauto h
    rw [Link.locks_of_autocommit ((Link.of_state hstate).1.trans hauto)] at h
    cases h

/-- The transaction has the lock afterwards. -/
theorem of_takeLock {view : Option View} {v v' : View} (hstate : l.state = .open view)
    (h : takeLock s view = .ok (v, s')) (hmemory : l'.memory = l.memory)
    (hstate' : l'.state = .open (some v')) (hlock : v'.holdsLock = true)
    (hv' : v.Agrees s' → v'.Agrees s') : Advances s l (s', l') := by
  have hlocks : l'.locks = true := (Link.locks_of_state hstate').trans hlock
  have hopen : l.isAutocommit = false := by
    unfold Link.isAutocommit
    rw [hstate]
  constructor
  · exact .of_takeLock (.inl hstate) h hmemory hstate' hv'
  · exact fun _ _ => committed_of_takeLock h
  · exact fun _ _ _ => hlocks
  · intro hl hnot _
    obtain ⟨hv, hheld, hcontents, hwritten, hcommitted, -⟩ := takeLock_ok h (hl.getD hstate)
    have hview : (view.getD s.view).written = false := by
      by_contra hw
      have hholds := (hl.getD hstate).written (by simpa using hw)
      cases view with
      | none => cases hholds
      | some u => exact hnot ((Link.locks_of_state hstate).trans hholds)
    rw [Link.visible_eq s hstate, ← hcontents, ← hcommitted]
    exact hv.current (hwritten.trans hview) (hv.locked hheld).2
  · exact fun _ _ hnot => absurd hlocks hnot
  · intro hauto
    rw [hopen] at hauto
    cases hauto

theorem begin (mode : LockMode) (s : Store) (l : Link) :
    Advances s l (Database.begin mode s l).2 := by
  have hguards := guards_begin mode s l
  obtain ⟨hstate, hb⟩ | ⟨v, s', hstate, hlock, hb⟩ | ⟨view, v, s', hstate, hlock, hb⟩ | ⟨_, hb⟩ :=
    begin_cases mode s l
  · rw [hb] at hguards ⊢
    have hauto := Link.isAutocommit_of_state hstate
    refine ⟨hguards, ?_, ?_, fun _ _ => ?_, ?_, fun _ => ?_⟩
    · simp [hauto]
    · simp [hauto]
    · exact fun _ => visible_of_autocommit hauto s
    · simp [hauto]
    · exact fun h => by cases h
  · rw [hb] at hguards ⊢
    have hauto := Link.isAutocommit_of_state hstate
    refine ⟨hguards, ?_, ?_, fun _ _ _ => visible_of_autocommit hauto s, ?_, fun _ _ => ?_⟩
    · simp [hauto]
    · simp [hauto]
    · simp [hauto]
    · rw [visible_of_state rfl, contents_of_takeLock hlock, committed_of_takeLock hlock]
      rfl
  · rw [hb]
    exact .of_takeLock hstate hlock rfl rfl (holdsLock_of_takeLock hlock) fun hv => hv
  · rw [hb]
    exact .of_state rfl rfl

theorem commit (s : Store) (l : Link) : Advances s l (Database.commit s l).2 := by
  have hguards := guards_commit s l
  unfold Database.commit at hguards ⊢
  split
  · exact .of_state rfl rfl
  · rename_i view hstate
    simp only [hstate] at hguards
    split_ifs at hguards ⊢
    · exact .of_state rfl rfl
    · exact .of_autocommit hguards rfl

theorem rollback (s : Store) (l : Link) : Advances s l (Database.rollback s l).2 :=
  .of_autocommit (guards_rollback s l) (rollback_ends s l)

theorem read (q : PreparedQuery) (params : List Cell) (s : Store) (l : Link) :
    Advances s l (Database.read q params s l).2 := by
  have hguards := guards_read q params s l
  unfold Database.read at hguards ⊢
  dsimp only at hguards ⊢
  split
  · exact .of_state rfl rfl
  · rename_i view hstate
    simp only [hstate] at hguards
    dsimp only
    split_ifs at hguards ⊢
    · cases view with
      | some v => exact .of_state rfl hstate.symm
      | none =>
        have hlocks : ¬ l.locks = true := by simp [Link.locks, hstate]
        refine ⟨hguards, fun _ _ => rfl, fun _ _ h => absurd h hlocks, fun _ _ h => ?_,
          fun _ _ _ => ?_, fun _ h => ?_⟩
        · cases h
        · rw [visible_of_state rfl, Link.visible_eq s hstate]
        · cases h
    · exact .of_state rfl rfl

theorem write (st : Prepared) (params : List Cell) (s : Store) (l : Link) :
    Advances s l (Database.write st params s l).2 := by
  have hguards := guards_write st params s l
  cases hstate : l.state with
  | autocommit =>
    exact .of_autocommit hguards
      ((keepsModes_write st params).autocommit s l (Link.isAutocommit_of_state hstate))
  | «open» view =>
    unfold Database.write at hguards ⊢
    rw [hstate] at hguards ⊢
    dsimp only at hguards ⊢
    cases hlock : takeLock s view with
    | error f => exact .of_state (l.noted_eq _).2 (l.noted_eq _).1
    | ok taken =>
      obtain ⟨v, s'⟩ := taken
      simp only [hlock] at hguards
      have hholds := holdsLock_of_takeLock hlock
      dsimp only
      cases hd : (st.write l.foreignKeys params v.contents).result with
      | ok d =>
        refine .of_takeLock hstate hlock (l.noted_eq _).2 rfl hholds fun hv => ?_
        exact hv.wrote hholds fun htouched => Prepared.contents_of_not_touched htouched hd
      | error f =>
        simp only [hd] at hguards
        dsimp only
        split_ifs at hguards ⊢
        · exact .of_autocommit hguards rfl
        · exact .of_takeLock hstate hlock (l.noted_eq _).2 rfl hholds fun hv =>
            hv.wrote hholds fun _ => rfl

/-- How the connection reads does not matter. -/
theorem of_tuned {b : Sql.Bound} (h : Advances s (l.tuned b) after) : Advances s l after :=
  ⟨⟨h.guards.memory, h.guards.agrees, h.guards.others⟩, h.keeps, h.locks, h.first, h.unlocked,
    h.begun⟩

theorem runText (b : Sql.Bound) (s : Store) (l : Link) :
    Advances s l (Database.runText b s l).2 := by
  unfold Database.runText
  dsimp only
  cases prepare b (visible s (l.tuned b)) with
  | error e => exact .of_state rfl rfl
  | ok p =>
    refine .of_tuned (b := b) ?_
    cases p with
    | nothing => exact .of_state rfl rfl
    | query q => exact read q _ s _
    | insert table sources rows | update table assignments filter | delete table filter =>
      exact write _ _ s _
    | begin mode => exact begin mode s _
    | commit => exact commit s _
    | rollback => exact rollback s _
    | readUncommitted flag =>
      cases flag with
      | none => exact .of_state rfl rfl
      | some flag => exact .of_state rfl rfl

end Advances

theorem visible_of_locks {l : Link} (h : l.locks = true) (s s' : Store) :
    visible s l = visible s' l := by
  unfold Link.locks at h
  unfold visible
  split
  · rfl
  · rename_i hnot
    split at h
    · rename_i v hstate
      exact absurd hstate (hnot v)
    · cases h

theorem read_fst (q : PreparedQuery) (params : List Cell) (s : Store) (l : Link) :
    (read q params s l).1 =
      (q.run params ((visible s l).rows q.table)).map fun rows => ⟨q.names, rows⟩ := by
  unfold read
  cases hstate : l.state with
  | autocommit => rw [visible_of_autocommit (Link.isAutocommit_of_state hstate)]
  | «open» view => rw [Link.visible_eq s hstate]

theorem visible_read (q : PreparedQuery) (params : List Cell) (s : Store) (l : Link) :
    visible (read q params s l).2.1 (read q params s l).2.2 = visible s l := by
  unfold read
  cases hstate : l.state with
  | autocommit => rfl
  | «open» view =>
    dsimp only
    split_ifs
    · rw [visible_of_state rfl, Link.visible_eq s hstate]
    · rfl

def lone (db : Contents) : Store × Link := (⟨db, 0, false⟩, .fresh false none)

/-- What a statement has answered and left in a transaction. A statement that has failed or answers
rows has left the contents as they were, and one that has not failed does the same alone. -/
structure Repeats (found : Contents) (out alone : Except DatabaseFault RowSet × Store × Link) :
    Prop where
  unchanged : (∀ r, out.1 = .ok r → ¬ r.rows.isEmpty = true) → visible out.2.1 out.2.2 = found
  done : ∀ r, out.1 = .ok r → ∃ r', alone.1 = .ok r' ∧ r'.rows.isEmpty = r.rows.isEmpty ∧
    alone.2.1.committed = visible out.2.1 out.2.2

theorem runText_of_error {b : Sql.Bound} {e : DatabaseFault} {s : Store} {l : Link}
    (h : prepare b (visible s l) = .error e) : runText b s l = (.error e, s, l.tuned b) := by
  have htuned : prepare b (visible s (l.tuned b)) = .error e := h
  unfold runText
  simp only [htuned]

theorem runText_of_ok {b : Sql.Bound} {p : Prepared} {s : Store} {l : Link}
    (h : prepare b (visible s l) = .ok p) :
    runText b s l = runPrepared p (b.params.map Cell.ofValue) s (l.tuned b) := by
  have htuned : prepare b (visible s (l.tuned b)) = .ok p := h
  unfold runText
  simp only [htuned]

namespace Repeats

variable {found : Contents} {s : Store} {l : Link}

theorem of_error {e : DatabaseFault} {alone : Except DatabaseFault RowSet × Store × Link}
    (h : visible s l = found) : Repeats found (.error e, s, l) alone :=
  ⟨fun _ => h, fun _ h => by cases h⟩

theorem read (q : PreparedQuery) (params : List Cell) (b : Sql.Bound) :
    Repeats (visible s l) (Database.read q params s l)
      (Database.read q params (lone (visible s l)).1 ((lone (visible s l)).2.tuned b)) := by
  refine ⟨fun _ => visible_read q params s l, fun r hr => ⟨r, ?_, rfl, (visible_read q params s l).symm⟩⟩
  rw [read_fst] at hr ⊢
  exact hr

/-- A statement that writes on a lone connection. -/
theorem write_lone {st : Prepared} {params : List Cell} {db : Contents} {d : Done}
    (h : (st.write false params db).result = .ok d) (b : Sql.Bound) :
    (Database.write st params (lone db).1 ((lone db).2.tuned b)).1 = .ok .none ∧
      (Database.write st params (lone db).1 ((lone db).2.tuned b)).2.1.committed = d.contents := by
  have hwrite : Database.write st params (lone db).1 ((lone db).2.tuned b) =
      (.ok .none, (lone db).1.adopt d.contents (st.write false params db).touched,
        ((lone db).2.tuned b).noted (.ok d)) := by
    unfold Database.write lone Link.tuned Link.fresh
    simp only [h]
    rfl
  rw [hwrite]
  refine ⟨rfl, ?_⟩
  unfold Store.adopt
  split_ifs with htouched
  · rfl
  · exact (Prepared.contents_of_not_touched (by simpa using htouched) h).symm

theorem write {st : Prepared} {params : List Cell} (hopen : l.isAutocommit = false)
    (hafter : (Database.write st params s l).2.2.isAutocommit = false) (b : Sql.Bound) :
    Repeats (visible s l) (Database.write st params s l)
      (Database.write st params (lone (visible s l)).1 ((lone (visible s l)).2.tuned b)) := by
  obtain ⟨view, hstate⟩ : ∃ view, l.state = .open view := by
    unfold Link.isAutocommit at hopen
    cases hstate : l.state with
    | autocommit => simp [hstate] at hopen
    | «open» view => exact ⟨view, rfl⟩
  generalize halone : Database.write st params (lone (visible s l)).1
    ((lone (visible s l)).2.tuned b) = alone
  unfold Database.write at hafter ⊢
  rw [hstate] at hafter ⊢
  dsimp only at hafter ⊢
  cases hlock : takeLock s view with
  | error f => exact of_error ((Link.of_state (l.noted_eq _).1).2.2 s)
  | ok taken =>
    obtain ⟨v, s'⟩ := taken
    simp only [hlock] at hafter
    have hvisible : visible s l = v.contents :=
      (Link.visible_eq s hstate).trans (contents_of_takeLock hlock).symm
    dsimp only
    cases hd : (st.write l.foreignKeys params v.contents).result with
    | ok d =>
      refine ⟨fun hrows => absurd rfl (hrows _ rfl), fun r hr => ?_⟩
      cases hr
      rw [st.result_write, ← hvisible] at hd
      obtain ⟨hanswer, hcommitted⟩ := write_lone hd b
      rw [halone] at hanswer hcommitted
      exact ⟨_, hanswer, rfl, hcommitted⟩
    | error f =>
      simp only [hd] at hafter
      dsimp only
      split_ifs at hafter ⊢
      · cases hafter
      · refine of_error ?_
        rw [hvisible]
        exact visible_of_state (v := v.wrote v.contents _) rfl s'

theorem runText {b : Sql.Bound} (hb : ¬ isControl b = true) (hopen : l.isAutocommit = false)
    (hafter : (Database.runText b s l).2.2.isAutocommit = false) :
    Repeats (visible s l) (Database.runText b s l)
      (Database.runText b (lone (visible s l)).1 (lone (visible s l)).2) := by
  cases hp : prepare b (visible s l) with
  | error e =>
    rw [runText_of_error hp]
    exact of_error rfl
  | ok p =>
    -- alone the statement is prepared for the same contents
    have hlone : Database.runText b (lone (visible s l)).1 (lone (visible s l)).2 = _ :=
      runText_of_ok hp
    rw [runText_of_ok hp] at hafter ⊢
    rw [hlone]
    have hcontrol := isControl_prepare hp hb
    cases p with
    | nothing => exact of_error rfl
    | query q => exact read (l := l.tuned b) q _ b
    | insert table sources rows | update table assignments filter | delete table filter =>
      exact write (l := l.tuned b) hopen hafter b
    | begin mode | commit | rollback => cases hcontrol
    | readUncommitted flag =>
      cases flag with
      | none => exact ⟨fun _ => rfl, fun r hr => by cases hr; exact ⟨_, rfl, rfl, rfl⟩⟩
      | some flag => exact ⟨fun _ => rfl, fun r hr => by cases hr; exact ⟨_, rfl, rfl, rfl⟩⟩

end Repeats

def journal : Journal Store Link Contents where
  toLedger := ledger
  sees s l := visible (l.memory.getD s) l
  writes l := l.locks = true
  valid s l := l.Agrees (l.memory.getD s)
  apart l m := l.memory = none → m.memory = none → ¬ (l.locks = true ∧ m.locks = true)

theorem committed_journal (s : Store) (l : Link) :
    journal.committed s l = (l.memory.getD s).committed := by
  have hcommitted : journal.committed s l = (l.memory.map (·.committed)).getD s.committed := rfl
  rw [hcommitted]
  cases l.memory with
  | none => rfl
  | some own => rfl

/-- A connection with its own database has nothing to do with the others. -/
theorem safe_onOwn {α : Type} {use : Use α} {s : Store} {l : Link}
    (h : Guards (l.memory.getD s) l (use (l.memory.getD s) l).2) :
    journal.Safe (s, l) (onOwn use s l).2 := by
  unfold onOwn
  cases hl : l.memory with
  | some own =>
    rw [hl] at h
    refine ⟨fun hvalid => ?_, fun _ m hm _ => ⟨hm, fun hown => by cases hown⟩,
      fun _ m _ _ hlocks => ⟨rfl, visible_of_locks hlocks _ _⟩⟩
    have hagrees : l.Agrees (l.memory.getD s) := hvalid
    rw [hl] at hagrees
    exact fun v hv => h.agrees hagrees v hv
  | none =>
    rw [hl] at h
    have hmemory : (use s l).2.2.memory = none := h.memory.trans hl
    have hagrees (hvalid : journal.valid s l) : l.Agrees s := by
      have h : l.Agrees (l.memory.getD s) := hvalid
      rwa [hl] at h
    have hothers (hvalid : journal.valid s l) (m : Link) (hm : journal.valid s m)
        (hapart : journal.apart l m) (hshared : m.memory = none) :
        m.Agrees (use s l).2.1 ∧ ¬ ((use s l).2.2.locks = true ∧ m.locks = true) ∧
          (m.locks = true → (use s l).2.1.committed = s.committed) := by
      have hm' : m.Agrees (m.memory.getD s) := hm
      rw [hshared] at hm'
      exact h.others (hagrees hvalid) m hm' (hapart hl hshared)
    constructor
    · intro hvalid
      have hafter : (use s l).2.2.Agrees ((use s l).2.2.memory.getD (use s l).2.1) := by
        rw [hmemory]
        exact h.agrees (hagrees hvalid)
      exact hafter
    · intro hvalid m hm hapart
      refine ⟨?_, fun _ hshared => (hothers hvalid m hm hapart hshared).2.1⟩
      have hafter : m.Agrees (m.memory.getD (use s l).2.1) := by
        cases hown : m.memory with
        | none => exact (hothers hvalid m hm hapart hown).1
        | some own =>
          have hm' : m.Agrees (m.memory.getD s) := hm
          rwa [hown] at hm'
      exact hafter
    · intro hvalid m hm hapart hlocks
      refine ⟨?_, visible_of_locks hlocks _ _⟩
      rw [committed_journal, committed_journal]
      cases hown : m.memory with
      | none => exact (hothers hvalid m hm hapart hown).2.2 hlocks
      | some own => rfl

section

variable {α : Type} {use : Use α} {s : Store} {l : Link}

theorem sees_onOwn (h : (use (l.memory.getD s) l).2.2.memory = l.memory) :
    journal.sees (onOwn use s l).2.1 (onOwn use s l).2.2 =
      visible (use (l.memory.getD s) l).2.1 (use (l.memory.getD s) l).2.2 := by
  unfold onOwn journal
  cases hl : l.memory with
  | none =>
    rw [hl] at h
    have hmemory : (use s l).2.2.memory = none := h
    simp [hmemory]
  | some own => exact (Link.of_state rfl).2.2 _

theorem committed_onOwn (h : (use (l.memory.getD s) l).2.2.memory = l.memory) :
    journal.committed (onOwn use s l).2.1 (onOwn use s l).2.2 =
      (use (l.memory.getD s) l).2.1.committed := by
  rw [committed_journal]
  unfold onOwn
  cases hl : l.memory with
  | none =>
    rw [hl] at h
    have hmemory : (use s l).2.2.memory = none := h
    simp [hmemory]
  | some own => rfl

theorem committed_close_true {view : Option View} (hl : l.Agrees s) (hstate : l.state = .open view) :
    (close true view s).committed = if l.locks then visible s l else s.committed := by
  cases view with
  | none => simp [close, Link.locks, hstate]
  | some v =>
    rw [Link.locks_of_state hstate, visible_of_state hstate]
    unfold close
    by_cases hlock : v.holdsLock = true
    · simp only [hlock, if_true]
      unfold Store.adopt Store.unlock
      split_ifs with hwritten
      · rfl
      · exact ((hl v hstate).current (by simpa using hwritten) ((hl v hstate).locked hlock).2).symm
    · simp [hlock]

/-- A commit makes what the connection sees the contents of the store, if it has the lock. -/
theorem alters_commit (hl : l.Agrees s) (h : (commit s l).1 = .ok ()) :
    Alters commit (fun db => if l.locks then visible s l else db) s l := by
  unfold commit at h
  split at h
  · cases h
  · rename_i view hstate
    split_ifs at h with hdangling
    constructor
    · simp [commit, hstate, hdangling]
    · simpa [commit, hstate, hdangling] using committed_close_true hl hstate

end

theorem continues_run (sent : Sent) {s : Store} {l : Link} (hvalid : journal.valid s l)
    (hopen : l.isAutocommit = false) (hafter : (sent.run engine s l).2.2.isAutocommit = false) :
    journal.Continues (sent.turn engine s l) := by
  have hadvances := Advances.runText sent.bound (l.memory.getD s) l
  obtain ⟨hauto, hlocks, -⟩ := Link.of_state (onOwn_state (runText sent.bound) s l)
  have hsees := sees_onOwn hadvances.guards.memory
  unfold Sent.turn
  rw [snd_run] at hafter ⊢
  rw [hauto] at hafter
  constructor
  · have halters : Alters (runText sent.bound) id (l.memory.getD s) l :=
      ⟨hadvances.guards.memory, hadvances.keeps hopen hafter⟩
    exact halters.changes
  · exact fun hw => hlocks.trans (hadvances.locks hopen hafter hw)
  · intro hnot hw
    have hfirst := hadvances.first hvalid hnot (hlocks.symm.trans hw)
    exact hfirst.trans (committed_journal s l).symm
  · exact fun hnot => hsees.trans (hadvances.unlocked hopen hafter fun hw => hnot (hlocks.trans hw))

theorem faithful_run (sent : Sent) {s : Store} {l : Link}
    (hopen : l.isAutocommit = false) (hafter : (sent.run engine s l).2.2.isAutocommit = false) :
    journal.IsFaithful engine (fun b => isControl b = true) (sent.turn engine s l) := by
  by_cases hb : isControl sent.bound = true
  · exact .inl hb
  have hadvances := Advances.runText sent.bound (l.memory.getD s) l
  rw [snd_run, (Link.of_state (onOwn_state (runText sent.bound) s l)).1] at hafter
  have hrepeats := Repeats.runText hb hopen hafter
  have hfailed := fst_run sent s l
  have hleft : journal.left (sent.turn engine s l) =
      visible (runText sent.bound (l.memory.getD s) l).2.1
        (runText sent.bound (l.memory.getD s) l).2.2 := by
    unfold Journal.left Sent.turn
    rw [snd_run]
    exact sees_onOwn hadvances.guards.memory
  set found := visible (l.memory.getD s) l with hfound
  cases hrun : (runText sent.bound (l.memory.getD s) l).1 with
  | error e =>
    rw [hrun] at hfailed
    refine .inr (.inl ⟨hfailed, hleft.trans (hrepeats.unchanged fun r hr => ?_)⟩)
    rw [hrun] at hr
    cases hr
  | ok r =>
    rw [hrun] at hfailed
    obtain ⟨r', hr', hrows, hcommitted⟩ := hrepeats.done r hrun
    have halone := fst_run sent (lone found).1 (lone found).2
    have hmemory : (lone found).2.memory.getD (lone found).1 = (lone found).1 := rfl
    rw [hmemory, hr'] at halone
    by_cases hrefused : refuses sent r = true
    · refine .inr (.inl ⟨hfailed.trans hrefused, hleft.trans (hrepeats.unchanged fun u hu => ?_)⟩)
      rw [hrun] at hu
      cases hu
      cases sent with
      | update b => simpa [refuses] using hrefused
      | query b => cases hrefused
    · have hsame : refuses sent r' = refuses sent r := by
        cases sent with
        | update b => exact congrArg (!·) hrows
        | query b => rfl
      refine .inr (.inr ⟨(lone found).1, (lone found).2, Link.agrees_of_autocommit rfl _, rfl, rfl,
        .inl ⟨(halone.trans hsame).trans hfailed.symm, ?_⟩⟩)
      have hlone := committed_onOwn (Advances.runText sent.bound (lone found).1 (lone found).2).guards.memory
      have hsent : (sent.turn engine s l).sent = sent := rfl
      rw [hleft, hsent, snd_run]
      exact hlone.trans hcommitted

theorem sees_begin {mode : LockMode} {s : Store} {l : Link} (h : (begin mode s l).1 = .ok ())
    (hlocks : (begin mode s l).2.2.locks = true) :
    visible (begin mode s l).2.1 (begin mode s l).2.2 = (begin mode s l).2.1.committed :=
  (Advances.begin mode s l).begun (begin_done h).1 hlocks

/-- New connections are outside of transactions. -/
theorem connect_apart {schemas : List Schema} {c : SourceConfig} {store : Store} {link : Link}
    (h : connect schemas c = .ok (store, link)) :
    journal.valid store link ∧ journal.apart link link := by
  have hauto := (connect_modes h).1
  refine ⟨Link.agrees_of_autocommit hauto _, fun _ _ hboth => ?_⟩
  rw [Link.locks_of_autocommit hauto] at hboth
  cases hboth.1

/-- Stores of tables keep transactions apart. -/
theorem journals_engine : engine.Journals journal fun b => isControl b = true where
  apart_symm h hm hl hboth := h hl hm hboth.symm
  set_safe flag s l :=
    ⟨fun h => h, fun _ m hm hapart => ⟨hm, hapart⟩, fun _ _ _ _ _ => ⟨rfl, rfl⟩⟩
  begin_safe mode s l := safe_onOwn (guards_begin mode _ l)
  statement_safe o s l := by
    cases o with
    | commit => exact safe_onOwn (guards_commit _ l)
    | rollback => exact safe_onOwn (guards_rollback _ l)
  sent_safe sent s l := by
    rw [snd_run]
    exact safe_onOwn (Advances.runText sent.bound _ l).guards
  begin_done := by
    intro mode s l after hvalid h hwrites
    have hb : onOwn (begin mode) s l = (.ok (), after) := h
    have hfst := onOwn_fst (begin mode) s l
    have hstate := Link.of_state (onOwn_state (begin mode) s l)
    have hmemory := (guards_begin mode (l.memory.getD s) l).memory
    have hsees := sees_onOwn hmemory
    have hcommitted := committed_onOwn hmemory
    rw [hb] at hfst hstate hsees hcommitted
    rw [hsees, hcommitted]
    exact sees_begin hfst.symm (hstate.2.1.symm.trans hwrites)
  commit_done := by
    intro s l after hvalid h
    have hc : onOwn commit s l = (.ok (), after) := h
    have hfst := onOwn_fst commit s l
    rw [hc] at hfst
    have hchanges := (alters_commit hvalid hfst.symm).changes
    rw [hc] at hchanges
    constructor
    · intro hwrites
      have hlocks : l.locks = true := hwrites
      simp only [hlocks, if_true] at hchanges
      exact hchanges
    · intro hnot
      have hlocks : ¬ l.locks = true := hnot
      simp only [hlocks] at hchanges
      exact hchanges
  begun sent {s l} hvalid hauto hafter hwrites := by
    have hadvances := Advances.runText sent.bound (l.memory.getD s) l
    have hstate := Link.of_state (onOwn_state (runText sent.bound) s l)
    rw [snd_run] at hwrites ⊢
    rw [sees_onOwn hadvances.guards.memory, committed_onOwn hadvances.guards.memory]
    exact hadvances.begun hauto (hstate.2.1.symm.trans hwrites)
  continues sent {_ _} hvalid hopen hafter := continues_run sent hvalid hopen hafter
  faithful sent {_ _} _ hopen hafter := faithful_run sent hopen hafter

end DataAccess.Database
