import DataAccess.Database.Connection
import DataAccess.Proofs.Except

/-!
The modes of connections to stores of tables. Only transactions change whether a connection is in
autocommit mode, only a pragma changes whether it reads uncommitted data, and an open transaction
can always be rolled back.
-/
namespace DataAccess.Database

structure KeepsModes {α : Type} (use : Use α) : Prop where
  flag : ∀ s l, (use s l).2.2.readUncommitted = l.readUncommitted
  autocommit : ∀ s l, l.isAutocommit = true → (use s l).2.2.isAutocommit = true

/-- The databases of connections do not matter for their modes. -/
theorem onOwn_link {α : Type} (use : Use α) (s : Store) (l : Link) :
    ∃ own, (onOwn use s l).2.2.readUncommitted = (use own l).2.2.readUncommitted ∧
      (onOwn use s l).2.2.isAutocommit = (use own l).2.2.isAutocommit ∧
      (onOwn use s l).1 = (use own l).1 := by
  unfold onOwn
  cases l.memory with
  | none => exact ⟨s, rfl, rfl, rfl⟩
  | some own => exact ⟨own, rfl, rfl, rfl⟩

theorem KeepsModes.onOwn {α : Type} {use : Use α} (h : KeepsModes use) :
    KeepsModes (Database.onOwn use) := by
  constructor
  · intro s l
    obtain ⟨own, hflag, -, -⟩ := onOwn_link use s l
    rw [hflag, h.flag]
  · intro s l hl
    obtain ⟨own, -, hauto, -⟩ := onOwn_link use s l
    rw [hauto]
    exact h.autocommit own l hl

/-- All that beginning a transaction can come to. -/
theorem begin_cases (mode : LockMode) (s : Store) (l : Link) :
    (l.state = .autocommit ∧ begin mode s l = (.ok (), s, { l with state := .open none })) ∨
    (∃ v s', l.state = .autocommit ∧ takeLock s none = .ok (v, s') ∧
      begin mode s l = (.ok (), s', { l with state := .open (some v) })) ∨
    (∃ view v s', l.state = .open view ∧ takeLock s view = .ok (v, s') ∧
      begin mode s l =
        (.error .beginInTransaction, s', { l with state := .open (some v) })) ∨
    ∃ e, begin mode s l = (.error e, s, l) := by
  unfold begin
  split
  · exact .inl ⟨‹_›, rfl⟩
  · exact .inr (.inr (.inr ⟨_, rfl⟩))
  · rename_i hstate
    cases hlock : takeLock s none with
    | ok r => exact .inr (.inl ⟨r.1, r.2, hstate, rfl, rfl⟩)
    | error e => exact .inr (.inr (.inr ⟨e, rfl⟩))
  · rename_i view _ hstate
    cases hlock : takeLock s view with
    | ok r => exact .inr (.inr (.inl ⟨view, r.1, r.2, hstate, hlock, rfl⟩))
    | error e => exact .inr (.inr (.inr ⟨e, rfl⟩))

theorem begin_flag (mode : LockMode) (s : Store) (l : Link) :
    (begin mode s l).2.2.readUncommitted = l.readUncommitted := by
  obtain ⟨-, hb⟩ | ⟨_, _, -, -, hb⟩ | ⟨_, _, _, -, -, hb⟩ | ⟨_, hb⟩ := begin_cases mode s l <;>
    rw [hb]

theorem begin_done {mode : LockMode} {s : Store} {l : Link} (h : (begin mode s l).1 = .ok ()) :
    l.isAutocommit = true ∧ (begin mode s l).2.2.isAutocommit = false := by
  obtain ⟨hstate, hb⟩ | ⟨_, _, hstate, -, hb⟩ | ⟨_, _, _, -, -, hb⟩ | ⟨_, hb⟩ :=
    begin_cases mode s l
  · exact ⟨by simp [Link.isAutocommit, hstate], by rw [hb]; rfl⟩
  · exact ⟨by simp [Link.isAutocommit, hstate], by rw [hb]; rfl⟩
  · rw [hb] at h
    cases h
  · rw [hb] at h
    cases h

theorem begin_failed {mode : LockMode} {s : Store} {l : Link} {e : DatabaseFault}
    (h : (begin mode s l).1 = .error e) : (begin mode s l).2.2.isAutocommit = l.isAutocommit := by
  obtain ⟨-, hb⟩ | ⟨_, _, -, -, hb⟩ | ⟨_, _, _, hstate, -, hb⟩ | ⟨_, hb⟩ := begin_cases mode s l
  · rw [hb] at h
    cases h
  · rw [hb] at h
    cases h
  · rw [hb]
    simp [Link.isAutocommit, hstate]
  · rw [hb]

theorem commit_flag (s : Store) (l : Link) :
    (commit s l).2.2.readUncommitted = l.readUncommitted := by
  unfold commit
  split
  · rfl
  · split <;> rfl

theorem rollback_flag (s : Store) (l : Link) :
    (rollback s l).2.2.readUncommitted = l.readUncommitted := by
  unfold rollback
  split <;> rfl

theorem rollback_ends (s : Store) (l : Link) : (rollback s l).2.2.isAutocommit = true := by
  unfold rollback
  split
  · rename_i hstate
    simp [Link.isAutocommit, hstate]
  · rfl

theorem keepsModes_read (q : PreparedQuery) (params : List Cell) :
    KeepsModes (read q params) := by
  constructor
  · intro s l
    unfold read
    dsimp only
    split
    · rfl
    · split <;> rfl
  · intro s l hl
    unfold read
    dsimp only
    split
    · exact hl
    · rename_i hstate
      simp [Link.isAutocommit, hstate] at hl

theorem noted_modes (l : Link) (d : Except DatabaseFault Done) :
    (l.noted d).readUncommitted = l.readUncommitted ∧
      (l.noted d).isAutocommit = l.isAutocommit := by
  cases d with
  | ok d => exact ⟨rfl, rfl⟩
  | error e => exact ⟨rfl, rfl⟩

theorem keepsModes_write (st : Prepared) (params : List Cell) : KeepsModes (write st params) := by
  constructor
  · intro s l
    unfold write
    dsimp only
    split
    · split
      · exact (noted_modes l _).1
      · split
        · exact (noted_modes l _).1
        · exact (noted_modes l _).1
    · split
      · exact (noted_modes l _).1
      · split
        · exact (noted_modes l _).1
        · split
          · exact (noted_modes l _).1
          · exact (noted_modes l _).1
  · intro s l hl
    unfold write
    dsimp only
    split
    · split
      · exact (noted_modes l _).2.trans hl
      · split
        · exact (noted_modes l _).2.trans hl
        · exact (noted_modes l _).2.trans hl
    · rename_i hstate
      simp [Link.isAutocommit, hstate] at hl

def Prepared.isControl : Prepared → Bool
  | .begin _ | .commit | .rollback => true
  | _ => false

def Statement.isControl : Statement → Bool
  | .begin _ | .commit | .rollback => true
  | _ => false

/-- Preparing keeps apart what controls transactions and what does not. -/
theorem Statement.isControl_prepare {st : Statement} {db : Contents} {p : Prepared}
    (h : st.prepare db = .ok p) : p.isControl = st.isControl := by
  cases st with
  | nothing =>
    cases h
    rfl
  | query q =>
    unfold Statement.prepare at h
    dsimp only at h
    split at h
    · obtain ⟨header, -, h⟩ := exists_of_bind_ok h
      obtain ⟨q, -, h⟩ := exists_of_bind_ok h
      cases h
      rfl
    · obtain ⟨header, -, h⟩ := exists_of_bind_ok h
      obtain ⟨q, -, h⟩ := exists_of_bind_ok h
      cases h
      rfl
  | insert r columns rows =>
    obtain ⟨t, -, h⟩ := exists_of_bind_ok h
    obtain ⟨⟨width, sources⟩, -, h⟩ := exists_of_bind_ok h
    obtain ⟨rows, -, h⟩ := exists_of_bind_ok h
    cases h
    rfl
  | update r assignments filter =>
    obtain ⟨t, -, h⟩ := exists_of_bind_ok h
    obtain ⟨assignments, -, h⟩ := exists_of_bind_ok h
    obtain ⟨filter, -, h⟩ := exists_of_bind_ok h
    cases h
    rfl
  | delete r filter =>
    obtain ⟨t, -, h⟩ := exists_of_bind_ok h
    obtain ⟨filter, -, h⟩ := exists_of_bind_ok h
    cases h
    rfl
  | begin mode =>
    cases h
    rfl
  | commit =>
    cases h
    rfl
  | rollback =>
    cases h
    rfl
  | readUncommitted flag =>
    cases h
    rfl

/-- A statement that begins or ends a transaction. -/
def isControl (b : Sql.Bound) : Bool :=
  (Statement.ofText? b.sql).any fun found => found.1.isControl

theorem isControl_prepare {b : Sql.Bound} {db : Contents} {p : Prepared}
    (h : prepare b db = .ok p) (hb : ¬ isControl b = true) : p.isControl = false := by
  unfold prepare at h
  unfold isControl at hb
  split at h
  · cases h
  · rename_i st needed hst
    obtain ⟨q, hq, h⟩ := exists_of_bind_ok h
    obtain ⟨u, -, h⟩ := exists_of_bind_ok h
    cases h
    rw [Statement.isControl_prepare hq]
    simpa [hst] using hb

theorem keepsModes_runPrepared {p : Prepared} (hp : p.isControl = false) (params : List Cell) :
    KeepsModes (runPrepared p params) := by
  cases p with
  | nothing => exact ⟨fun _ _ => rfl, fun _ _ hl => hl⟩
  | query q => exact keepsModes_read q params
  | insert table sources rows => exact keepsModes_write _ params
  | update table assignments filter => exact keepsModes_write _ params
  | delete table filter => exact keepsModes_write _ params
  | begin mode => cases hp
  | commit => cases hp
  | rollback => cases hp
  | readUncommitted flag =>
    cases flag with
    | none => exact ⟨fun _ _ => rfl, fun _ _ hl => hl⟩
    | some flag => exact ⟨fun _ _ => rfl, fun _ _ hl => hl⟩

theorem readUncommitted_runPrepared (p : Prepared) (params : List Cell) (s : Store) (l : Link) :
    (runPrepared p params s l).2.2.readUncommitted = l.readUncommitted := by
  by_cases hp : p.isControl = false
  · exact (keepsModes_runPrepared hp params).flag s l
  · cases p with
    | begin mode => exact begin_flag mode s l
    | commit => exact commit_flag s l
    | rollback => exact rollback_flag s l
    | nothing | query q | insert table sources rows | update table assignments filter
    | delete table filter | readUncommitted flag => exact absurd rfl hp

/-- A connection reads as the statement sets it, or as it did. -/
theorem readUncommitted_runText (b : Sql.Bound) (s : Store) (l : Link) :
    (runText b s l).2.2.readUncommitted = (setting? b).getD l.readUncommitted := by
  unfold runText
  dsimp only
  cases prepare b (visible s (l.tuned b)) with
  | error e => rfl
  | ok p => exact readUncommitted_runPrepared p _ s (l.tuned b)

/-- A statement that controls transactions, or sets how the connection reads. -/
def governs (b : Sql.Bound) : Bool := isControl b || (setting? b).isSome

theorem isAutocommit_runText {b : Sql.Bound} (hb : ¬ isControl b = true) (s : Store) {l : Link}
    (hl : l.isAutocommit = true) : (runText b s l).2.2.isAutocommit = true := by
  unfold runText
  dsimp only
  cases hp : prepare b (visible s (l.tuned b)) with
  | error e => exact hl
  | ok p => exact (keepsModes_runPrepared (isControl_prepare hp hb) _).autocommit s _ hl

theorem keepsModes_runText {b : Sql.Bound} (hb : ¬ governs b = true) : KeepsModes (runText b) := by
  obtain ⟨hcontrol, hsetting⟩ : ¬ isControl b = true ∧ setting? b = none := by
    simpa [governs] using hb
  constructor
  · intro s l
    rw [readUncommitted_runText, hsetting]
    rfl
  · exact fun s l hl => isAutocommit_runText hcontrol s hl

theorem keepsModes_execute {b : Sql.Bound} (hb : ¬ governs b = true) : KeepsModes (execute b) :=
  ⟨(keepsModes_runText hb).flag, (keepsModes_runText hb).autocommit⟩

theorem keepsModes_query {b : Sql.Bound} (hb : ¬ governs b = true) : KeepsModes (query b) :=
  ⟨(keepsModes_runText hb).flag, (keepsModes_runText hb).autocommit⟩

theorem connect_modes {schemas : List Schema} {c : SourceConfig} {store : Store} {link : Link}
    (h : connect schemas c = .ok (store, link)) :
    link.isAutocommit = true ∧ link.readUncommitted = false := by
  unfold connect at h
  dsimp only at h
  by_cases hconnects : c.connects = true
  · rw [if_pos hconnects] at h
    cases h
    exact ⟨rfl, rfl⟩
  · rw [if_neg hconnects] at h
    cases h

end DataAccess.Database
