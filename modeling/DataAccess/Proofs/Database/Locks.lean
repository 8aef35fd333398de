import DataAccess.Proofs.Database.Contents

/-!
Stores that several connections share. One connection at a time may write to a store; the others keep
what they have seen and cannot write to it once it is out of date.
-/
namespace DataAccess.Database

/-- Whether references are enforced does not matter for what a statement writes. -/
theorem Prepared.result_write (st : Prepared) (foreignKeys : Bool) (params : List Cell)
    (db : Contents) :
    (st.write foreignKeys params db).result = (st.write false params db).result := by
  unfold write
  cases st with
  | delete table filter =>
    dsimp only
    cases db.table? table with
    | none => rfl
    | some t => rfl
  | _ => rfl

theorem Prepared.contents_of_not_touched {st : Prepared} {foreignKeys : Bool} {params : List Cell}
    {db : Contents} {d : Done} (h : (st.write foreignKeys params db).touched = false)
    (hd : (st.write foreignKeys params db).result = .ok d) : d.contents = db := by
  unfold write at h hd
  cases st with
  | insert table sources rows =>
    cases ht : db.table? table with
    | none => simp [ht] at hd
    | some t =>
      simp only [ht] at h hd
      rw [h] at hd
      cases hr : (t.insertRows params sources rows).1 with
      | error e => simp [hr, Except.map] at hd
      | ok r =>
        simp only [hr, Except.map, Except.ok.injEq] at hd
        rw [← hd]
        rfl
  | update table assignments filter =>
    cases ht : db.table? table with
    | none => simp [ht] at hd
    | some t =>
      simp only [ht] at h hd
      rw [h] at hd
      cases hr : (t.updateRows params assignments (t.matching params filter)).1 with
      | error e => simp [hr, Except.map] at hd
      | ok r =>
        simp only [hr, Except.map, Except.ok.injEq] at hd
        rw [← hd]
        rfl
  | delete table filter =>
    cases ht : db.table? table with
    | none => simp [ht] at hd
    | some t =>
      simp only [ht, Except.ok.injEq] at h hd
      rw [Bool.or_eq_false_iff] at h
      rw [← hd, h.2]
      rfl
  | _ =>
    cases hd
    rfl

/-- What a transaction sees can be there while the store is in its state. -/
structure View.Agrees (v : View) (s : Store) : Prop where
  version : v.version ≤ s.version
  locked : v.holdsLock = true → s.writeLocked = true ∧ v.version = s.version
  written : v.written = true → v.holdsLock = true
  current : v.written = false → v.version = s.version → v.contents = s.committed

theorem View.agrees_view (s : Store) : s.view.Agrees s where
  version := Nat.le_refl _
  locked h := by cases h
  written h := by cases h
  current _ _ := rfl

def Link.Agrees (l : Link) (s : Store) : Prop := ∀ v, l.state = .open (some v) → v.Agrees s

def Link.locks (l : Link) : Bool :=
  match l.state with
  | .open (some v) => v.holdsLock
  | _ => false

theorem Link.Agrees.getD {l : Link} {s : Store} (h : l.Agrees s) {view : Option View}
    (hstate : l.state = .open view) : (view.getD s.view).Agrees s := by
  cases view with
  | none => exact View.agrees_view s
  | some v => exact h v hstate

/-- A transaction that has the lock sees what is committed, but for what it has written itself. -/
theorem takeLock_ok {s s' : Store} {view : Option View} {v : View}
    (h : takeLock s view = .ok (v, s')) (hview : (view.getD s.view).Agrees s) :
    v.Agrees s' ∧ v.holdsLock = true ∧ v.contents = (view.getD s.view).contents ∧
      v.written = (view.getD s.view).written ∧ s'.committed = s.committed ∧
      s'.version = s.version ∧ ((view.getD s.view).holdsLock = true ∨ s.writeLocked = false) := by
  unfold takeLock at h
  dsimp only at h
  split_ifs at h with hlock hbusy
  · cases h
    exact ⟨hview, hlock, rfl, rfl, rfl, rfl, .inl hlock⟩
  · cases h
    rw [not_or, not_not] at hbusy
    obtain ⟨hfree, hversion⟩ := hbusy
    exact ⟨⟨hview.version, fun _ => ⟨rfl, hversion⟩, fun _ => rfl, hview.current⟩, rfl, rfl, rfl, rfl,
      rfl, .inr (by simpa using hfree)⟩

theorem Link.visible_eq {l : Link} (s : Store) {view : Option View} (hstate : l.state = .open view) :
    visible s l = (view.getD s.view).contents := by
  unfold visible
  rw [hstate]
  cases view with
  | none => rfl
  | some v => rfl

theorem holdsLock_of_takeLock {s s' : Store} {view : Option View} {v : View}
    (h : takeLock s view = .ok (v, s')) : v.holdsLock = true := by
  unfold takeLock at h
  dsimp only at h
  split_ifs at h with hlock hbusy
  · cases h
    exact hlock
  · cases h
    rfl

theorem contents_of_takeLock {s s' : Store} {view : Option View} {v : View}
    (h : takeLock s view = .ok (v, s')) : v.contents = (view.getD s.view).contents := by
  unfold takeLock at h
  dsimp only at h
  split_ifs at h with hlock hbusy
  · cases h
    rfl
  · cases h
    rfl

def View.wrote (v : View) (contents : Contents) (touched : Bool) : View :=
  { v with contents := contents, written := v.written || touched }

theorem View.Agrees.wrote {v : View} {s : Store} (hv : v.Agrees s) (hlock : v.holdsLock = true)
    {contents : Contents} {touched : Bool} (h : touched = false → contents = v.contents) :
    (v.wrote contents touched).Agrees s := by
  refine ⟨hv.version, hv.locked, fun _ => hlock, fun hwritten hversion => ?_⟩
  obtain ⟨hbefore, htouched⟩ := Bool.or_eq_false_iff.1 hwritten
  exact (h htouched).trans (hv.current hbefore hversion)

/-- What a use of a connection to a store leaves of the other connections to it. -/
structure Guards (s : Store) (l : Link) (after : Store × Link) : Prop where
  memory : after.2.memory = l.memory
  agrees : l.Agrees s → after.2.Agrees after.1
  others : l.Agrees s → ∀ m : Link, m.Agrees s → ¬ (l.locks = true ∧ m.locks = true) →
    m.Agrees after.1 ∧ ¬ (after.2.locks = true ∧ m.locks = true) ∧
      (m.locks = true → after.1.committed = s.committed)

namespace Guards

variable {s : Store} {l : Link} {after : Store × Link}

theorem trans {after' : Store × Link} (h : Guards s l after) (h' : Guards after.1 after.2 after') :
    Guards s l after' := by
  refine ⟨h'.memory.trans h.memory, fun hl => h'.agrees (h.agrees hl), fun hl m hm hapart => ?_⟩
  obtain ⟨hm₁, hapart₁, hcommitted₁⟩ := h.others hl m hm hapart
  obtain ⟨hm₂, hapart₂, hcommitted₂⟩ := h'.others (h.agrees hl) m hm₁ hapart₁
  exact ⟨hm₂, hapart₂, fun hlocks => (hcommitted₂ hlocks).trans (hcommitted₁ hlocks)⟩

/-- The store stays as it is. -/
theorem of_same (hmemory : after.2.memory = l.memory) (hstore : after.1 = s)
    (hagrees : l.Agrees s → after.2.Agrees s) (hlocks : after.2.locks = true → l.locks = true) :
    Guards s l after := by
  refine ⟨hmemory, fun hl => ?_, fun _ m hm hapart => ?_⟩
  · rw [hstore]
    exact hagrees hl
  · rw [hstore]
    exact ⟨hm, fun hboth => hapart ⟨hlocks hboth.1, hboth.2⟩, fun _ => rfl⟩

/-- The store and the transaction of the connection stay as they are. -/
theorem of_state (hmemory : after.2.memory = l.memory) (hstore : after.1 = s)
    (hstate : after.2.state = l.state) : Guards s l after := by
  refine .of_same hmemory hstore (fun hl v hv => hl v (hstate ▸ hv)) fun h => ?_
  unfold Link.locks at h ⊢
  rwa [hstate] at h

/-- No other connection has the lock, as this one has it or nobody does. -/
theorem of_free (hmemory : after.2.memory = l.memory)
    (hfree : l.Agrees s → l.locks = true ∨ s.writeLocked = false)
    (hagrees : l.Agrees s → after.2.Agrees after.1)
    (hversion : l.Agrees s → s.version ≤ after.1.version ∧
      (after.1.version = s.version → after.1.committed = s.committed)) : Guards s l after := by
  refine ⟨hmemory, hagrees, fun hl m hm hapart => ?_⟩
  obtain ⟨hle, hsame⟩ := hversion hl
  have hunlocked : ¬ m.locks = true := by
    intro hlocks
    rcases hfree hl with hheld | hopen
    · exact hapart ⟨hheld, hlocks⟩
    · unfold Link.locks at hlocks
      split at hlocks
      · rename_i v hstate
        rw [((hm v hstate).locked hlocks).1] at hopen
        cases hopen
      · cases hlocks
  refine ⟨fun v hv => ?_, fun hboth => hunlocked hboth.2, fun hlocks => absurd hlocks hunlocked⟩
  have hagree := hm v hv
  have hnot : ¬ v.holdsLock = true := by
    intro hlock
    unfold Link.locks at hunlocked
    rw [hv] at hunlocked
    exact hunlocked hlock
  constructor
  · exact Nat.le_trans hagree.version hle
  · exact fun hlock => absurd hlock hnot
  · exact hagree.written
  · intro hwritten hcurrent
    have hstale := hagree.version
    have heq : after.1.version = s.version := by omega
    rw [hsame heq]
    exact hagree.current hwritten (hcurrent.trans heq)

end Guards

theorem Link.agrees_of_autocommit {l : Link} (h : l.isAutocommit = true) (s : Store) :
    l.Agrees s := by
  intro v hv
  unfold Link.isAutocommit at h
  rw [hv] at h
  cases h

theorem Link.locks_of_autocommit {l : Link} (h : l.isAutocommit = true) : l.locks = false := by
  unfold Link.isAutocommit at h
  unfold Link.locks
  split at h
  · rename_i hstate
    rw [hstate]
  · cases h

theorem Link.isAutocommit_of_state {l : Link} (h : l.state = .autocommit) :
    l.isAutocommit = true := by
  unfold Link.isAutocommit
  rw [h]

theorem Link.locks_of_state {l : Link} {v : View} (h : l.state = .open (some v)) :
    l.locks = v.holdsLock := by
  unfold Link.locks
  rw [h]

theorem Link.agrees_of_state {l : Link} {v : View} {s : Store} (h : l.state = .open (some v))
    (hv : v.Agrees s) : l.Agrees s := by
  intro u hu
  rw [h] at hu
  cases hu
  exact hv

/-- A transaction that has taken the lock keeps it and the store as they are. -/
theorem Guards.of_takeLock {s s' : Store} {l l' : Link} {view : Option View} {v v' : View}
    (hstate : l.state = .open view ∨ l.state = .autocommit ∧ view = none)
    (h : takeLock s view = .ok (v, s')) (hmemory : l'.memory = l.memory)
    (hstate' : l'.state = .open (some v')) (hv' : v.Agrees s' → v'.Agrees s') :
    Guards s l (s', l') := by
  have hview (hl : l.Agrees s) : (view.getD s.view).Agrees s := by
    rcases hstate with hstate | ⟨-, hview⟩
    · exact hl.getD hstate
    · rw [hview]
      exact View.agrees_view s
  refine .of_free hmemory (fun hl => ?_) (fun hl => ?_) fun hl => ?_
  · obtain ⟨-, -, -, -, -, -, hfree⟩ := takeLock_ok h (hview hl)
    refine hfree.imp_left fun hheld => ?_
    rcases hstate with hstate | ⟨-, hnone⟩
    · cases view with
      | none => cases hheld
      | some u => exact (Link.locks_of_state hstate).trans hheld
    · rw [hnone] at hheld
      cases hheld
  · obtain ⟨hv, -⟩ := takeLock_ok h (hview hl)
    exact Link.agrees_of_state hstate' (hv' hv)
  · obtain ⟨-, -, -, -, hcommitted, hversion, -⟩ := takeLock_ok h (hview hl)
    exact ⟨Nat.le_of_eq hversion.symm, fun _ => hcommitted⟩

theorem guards_begin (mode : LockMode) (s : Store) (l : Link) :
    Guards s l (begin mode s l).2 := by
  obtain ⟨-, hb⟩ | ⟨v, s', hstate, hlock, hb⟩ | ⟨view, v, s', hstate, hlock, hb⟩ | ⟨_, hb⟩ :=
    begin_cases mode s l <;> rw [hb]
  · refine .of_same rfl rfl (fun _ v hv => by cases hv) fun h => ?_
    cases h
  · exact .of_takeLock (.inr ⟨hstate, rfl⟩) hlock rfl rfl fun hv => hv
  · exact .of_takeLock (.inl hstate) hlock rfl rfl fun hv => hv
  · exact .of_state rfl rfl rfl

/-- A transaction that ends gives up its lock; what it has written is a new version. -/
theorem guards_close {s : Store} {l l' : Link} {view : Option View} (keep : Bool)
    (hstate : l.state = .open view) (hmemory : l'.memory = l.memory)
    (hstate' : l'.state = .autocommit) : Guards s l (close keep view s, l') := by
  have hauto := Link.isAutocommit_of_state hstate'
  have hclosed : close keep view s = s ∨ l.locks = true ∧
      s.version ≤ (close keep view s).version ∧
        ((close keep view s).version = s.version → (close keep view s).committed = s.committed) := by
    unfold close
    cases view with
    | none => exact .inl rfl
    | some v =>
      dsimp only
      split_ifs with hlock hkeep
      · refine .inr ⟨(Link.locks_of_state hstate).trans hlock, ?_⟩
        unfold Store.adopt Store.unlock
        split_ifs
        · exact ⟨Nat.le_succ _, fun h => absurd h (Nat.succ_ne_self _)⟩
        · exact ⟨Nat.le_refl _, fun _ => rfl⟩
      · exact .inr ⟨(Link.locks_of_state hstate).trans hlock, Nat.le_refl _, fun _ => rfl⟩
      · exact .inl rfl
  rcases hclosed with hsame | ⟨hlocks, hversion⟩
  · refine .of_same hmemory hsame (fun _ => Link.agrees_of_autocommit hauto s) fun h => ?_
    have hl' : l'.locks = false := Link.locks_of_autocommit hauto
    rw [hl'] at h
    cases h
  · exact .of_free hmemory (fun _ => .inl hlocks) (fun _ => Link.agrees_of_autocommit hauto _)
      fun _ => hversion

theorem guards_commit (s : Store) (l : Link) : Guards s l (commit s l).2 := by
  unfold commit
  split
  · exact .of_state rfl rfl rfl
  · rename_i view hstate
    split
    · exact .of_state rfl rfl rfl
    · exact guards_close true hstate rfl rfl

theorem guards_rollback (s : Store) (l : Link) : Guards s l (rollback s l).2 := by
  unfold rollback
  split
  · exact .of_state rfl rfl rfl
  · rename_i view hstate
    exact guards_close false hstate rfl rfl

theorem guards_read (q : PreparedQuery) (params : List Cell) (s : Store) (l : Link) :
    Guards s l (read q params s l).2 := by
  unfold read
  dsimp only
  split
  · exact .of_state rfl rfl rfl
  · rename_i view hstate
    split
    · refine .of_same rfl rfl (fun hl => Link.agrees_of_state rfl (hl.getD hstate)) fun h => ?_
      cases view with
      | none => cases h
      | some v => exact (Link.locks_of_state hstate).trans h
    · exact .of_state rfl rfl rfl

theorem Link.noted_eq (l : Link) (d : Except DatabaseFault Done) :
    (l.noted d).state = l.state ∧ (l.noted d).memory = l.memory := by
  cases d with
  | ok d => exact ⟨rfl, rfl⟩
  | error e => exact ⟨rfl, rfl⟩

theorem guards_write (st : Prepared) (params : List Cell) (s : Store) (l : Link) :
    Guards s l (write st params s l).2 := by
  unfold write
  dsimp only
  split
  · rename_i hstate
    split_ifs with hlocked
    · exact .of_state (l.noted_eq _).2 rfl (l.noted_eq _).1
    · split
      · have hauto : ∀ d, (l.noted d).isAutocommit = true := fun d =>
          Link.isAutocommit_of_state ((l.noted_eq d).1.trans hstate)
        refine .of_free (l.noted_eq _).2 (fun _ => .inr (by simpa using hlocked))
          (fun _ => Link.agrees_of_autocommit (hauto _) _) fun _ => ?_
        unfold Store.adopt
        split_ifs
        · exact ⟨Nat.le_succ _, fun h => absurd h (Nat.succ_ne_self _)⟩
        · exact ⟨Nat.le_refl _, fun _ => rfl⟩
      · exact .of_state (l.noted_eq _).2 rfl (l.noted_eq _).1
  · rename_i view hstate
    split
    · exact .of_state (l.noted_eq _).2 rfl (l.noted_eq _).1
    · rename_i v s' hlock
      have hholds := holdsLock_of_takeLock hlock
      split
      · rename_i d hd
        refine .of_takeLock (.inl hstate) hlock (l.noted_eq _).2 rfl fun hv => ?_
        exact hv.wrote hholds fun htouched => Prepared.contents_of_not_touched htouched hd
      · have hfailed : Guards s l (s', { l.noted (st.write l.foreignKeys params v.contents).result with
            state := .open (some (v.wrote v.contents
              (st.write l.foreignKeys params v.contents).touched)) }) :=
          .of_takeLock (.inl hstate) hlock (l.noted_eq _).2 rfl fun hv =>
            hv.wrote hholds fun _ => rfl
        split_ifs
        · exact hfailed.trans (guards_close false rfl rfl rfl)
        · exact hfailed

end DataAccess.Database
