import DataAccess.Proofs.Database.Modes
import DataAccess.Proofs.Session.Contents

/-!
The contents of stores and of databases in memory. The engine over stores of tables begins and ends
transactions as the coordinator relies on, and leaves how a connection reads to what sets it.
-/
namespace DataAccess.Database

/-- The committed contents of stores; a database in memory belongs to its connection. -/
def ledger : Ledger Store Link Contents where
  shared s := s.committed
  own l := l.memory.map (·.committed)

/-- A use of a connection changes the contents of the store that it is given by `f`, and leaves alone
which database the connection is on. -/
structure Alters {α : Type} (use : Use α) (f : Contents → Contents) (s : Store) (l : Link) :
    Prop where
  memory : (use s l).2.2.memory = l.memory
  committed : (use s l).2.1.committed = f s.committed

theorem onOwn_fst {α : Type} (use : Use α) (s : Store) (l : Link) :
    (onOwn use s l).1 = (use (l.memory.getD s) l).1 := by
  unfold onOwn
  cases l.memory with
  | none => rfl
  | some own => rfl

theorem onOwn_state {α : Type} (use : Use α) (s : Store) (l : Link) :
    (onOwn use s l).2.2.state = (use (l.memory.getD s) l).2.2.state := by
  unfold onOwn
  cases l.memory with
  | none => rfl
  | some own => rfl

theorem onOwn_readUncommitted {α : Type} (use : Use α) (s : Store) (l : Link) :
    (onOwn use s l).2.2.readUncommitted = (use (l.memory.getD s) l).2.2.readUncommitted := by
  unfold onOwn
  cases l.memory with
  | none => rfl
  | some own => rfl

theorem Alters.changes {α : Type} {use : Use α} {f : Contents → Contents} {s : Store} {l : Link}
    (h : Alters use f (l.memory.getD s) l) : ledger.Changes f (s, l) (onOwn use s l).2 := by
  unfold onOwn
  cases hm : l.memory with
  | none =>
    rw [hm] at h
    have hmemory : (use s l).2.2.memory = none := h.memory.trans hm
    constructor
    · simp [ledger, hm, hmemory]
    · simpa [ledger, hm] using h.committed
  | some own =>
    rw [hm] at h
    constructor
    · simpa [ledger, hm] using h.committed
    · simp [ledger, hm]

theorem committed_of_takeLock {s s' : Store} {view : Option View} {v : View}
    (h : takeLock s view = .ok (v, s')) : s'.committed = s.committed := by
  unfold takeLock at h
  dsimp only at h
  split_ifs at h with hlock hbusy
  · cases h
    rfl
  · cases h
    rfl

theorem alters_begin (mode : LockMode) (s : Store) (l : Link) : Alters (begin mode) id s l := by
  obtain ⟨-, hb⟩ | ⟨_, _, -, hlock, hb⟩ | ⟨_, _, _, -, hlock, hb⟩ | ⟨_, hb⟩ :=
    begin_cases mode s l
  · exact ⟨by rw [hb], by rw [hb]; rfl⟩
  · exact ⟨by rw [hb], by rw [hb]; exact committed_of_takeLock hlock⟩
  · exact ⟨by rw [hb], by rw [hb]; exact committed_of_takeLock hlock⟩
  · exact ⟨by rw [hb], by rw [hb]; rfl⟩

theorem committed_close_false (view : Option View) (s : Store) :
    (close false view s).committed = s.committed := by
  unfold close
  split
  · split <;> rfl
  · rfl

theorem alters_rollback (s : Store) (l : Link) : Alters rollback id s l := by
  unfold rollback
  constructor
  · split <;> rfl
  · split
    · rfl
    · exact committed_close_false _ s

theorem isOpen_of_commit {s : Store} {l : Link} (h : (commit s l).1 = .ok ()) :
    l.isAutocommit = false := by
  unfold commit at h
  split at h
  · cases h
  · rename_i hstate
    simp [Link.isAutocommit, hstate]

theorem alters_commit_failed {s : Store} {l : Link} {e : DatabaseFault}
    (h : (commit s l).1 = .error e) : Alters commit id s l := by
  unfold commit at h
  split at h
  · rename_i hstate
    constructor <;> simp [commit, hstate]
  · rename_i view hstate
    split_ifs at h with hdangling
    constructor <;> simp [commit, hstate, hdangling]

theorem isAutocommit_onOwn {α : Type} (use : Use α) (s : Store) (l : Link) :
    (onOwn use s l).2.2.isAutocommit = (use (l.memory.getD s) l).2.2.isAutocommit := by
  unfold Link.isAutocommit
  rw [onOwn_state]

/-- The engine over stores of tables begins and ends transactions as the coordinator relies on. -/
theorem transacts_engine : engine.Transacts ledger where
  set_autocommit _ _ := rfl
  set_own _ _ := rfl
  begin_done := by
    intro mode s l after h
    have hb : onOwn (begin mode) s l = (.ok (), after) := h
    have hfst := onOwn_fst (begin mode) s l
    have hauto := isAutocommit_onOwn (begin mode) s l
    rw [hb] at hfst hauto
    obtain ⟨hbefore, hafter⟩ := begin_done hfst.symm
    exact ⟨hbefore, hauto.trans hafter⟩
  begin_failed := by
    intro mode s l e after h
    have hb : onOwn (begin mode) s l = (.error e, after) := h
    have hfst := onOwn_fst (begin mode) s l
    have hauto := isAutocommit_onOwn (begin mode) s l
    rw [hb] at hfst hauto
    exact hauto.trans (begin_failed hfst.symm)
  begin_keeps mode s l := (alters_begin mode _ l).changes
  commit_done := by
    intro s l after h
    have hc : onOwn commit s l = (.ok (), after) := h
    have hfst := onOwn_fst commit s l
    rw [hc] at hfst
    exact isOpen_of_commit hfst.symm
  commit_failed := by
    intro s l e after h
    have hc : onOwn commit s l = (.error e, after) := h
    have hfst := onOwn_fst commit s l
    rw [hc] at hfst
    have hchanges := (alters_commit_failed hfst.symm).changes
    rwa [hc] at hchanges
  rollback_keeps s l := (alters_rollback _ l).changes
  undone o s l result after _ _ := by
    have hauto := isAutocommit_onOwn rollback after.1 after.2
    exact hauto.trans (rollback_ends _ _)

theorem tunable_engine : engine.Tunable where
  set _ _ := rfl
  begin mode s l := (onOwn_readUncommitted (begin mode) s l).trans (begin_flag mode _ l)
  statement o s l := by
    cases o with
    | commit => exact (onOwn_readUncommitted commit s l).trans (commit_flag _ l)
    | rollback => exact (onOwn_readUncommitted rollback s l).trans (rollback_flag _ l)

end DataAccess.Database
