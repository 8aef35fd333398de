import DataAccess.Proofs.Session.EachSource
import DataAccess.Proofs.Session.Uses

/-!
What connections to one database see of each other. A transaction that has started to write keeps all
others from changing the contents under it until it ends, so what it commits is what its statements have
made of the contents, each of what the one before it has left.
-/
namespace DataAccess

variable {Fault Store Link Contents : Type}

/-- How the contents of databases show to connections in transactions. -/
structure Journal (Store Link Contents : Type) extends Ledger Store Link Contents where
  /-- What the statements of the connection see. -/
  sees : Store → Link → Contents
  /-- The transaction of the connection has started to write. -/
  writes : Link → Prop
  /-- The connection can be in this state while the store is in its own. -/
  valid : Store → Link → Prop
  /-- Two connections can be in their states at once. -/
  apart : Link → Link → Prop

namespace Journal

variable {E : Engine Fault Store Link} {J : Journal Store Link Contents} {control : Sql.Bound → Prop}
  {a b c : Store × Link} {store store' : Store} {link : Link} {turns : List (Turn Store Link)}
  {t : Turn Store Link} {db db' : Contents}

def found (J : Journal Store Link Contents) (t : Turn Store Link) : Contents :=
  J.sees t.before.1 t.before.2

def left (J : Journal Store Link Contents) (t : Turn Store Link) : Contents :=
  J.sees t.after.1 t.after.2

/-- Statements lead from contents to others. Each has found what the one before it has left, but for
those that have left what they found. -/
inductive Applies (J : Journal Store Link Contents) :
    List (Turn Store Link) → Contents → Contents → Prop
  | nil {db : Contents} : Journal.Applies J [] db db
  | idle {t : Turn Store Link} {turns : List (Turn Store Link)} {db db' : Contents}
      (ht : J.left t = J.found t) (h : Journal.Applies J turns db db') :
      Journal.Applies J (t :: turns) db db'
  | effect {t : Turn Store Link} {turns : List (Turn Store Link)} {db' : Contents}
      (h : Journal.Applies J turns (J.left t) db') : Journal.Applies J (t :: turns) (J.found t) db'

theorem Applies.of_idle (h : ∀ t ∈ turns, J.left t = J.found t) : J.Applies turns db db := by
  induction turns with
  | nil => exact .nil
  | cons t turns ih =>
    exact .idle (h t List.mem_cons_self) (ih fun u hu => h u (List.mem_cons_of_mem t hu))

theorem Applies.snoc (h : J.Applies turns db (J.found t)) :
    J.Applies (turns ++ [t]) db (J.left t) := by
  generalize hlast : J.found t = last at h
  induction h with
  | nil =>
    rw [← hlast]
    exact .effect .nil
  | idle ht _ ih => exact .idle ht (ih hlast)
  | effect _ ih => exact .effect (ih hlast)

/-- A connection without a transaction, to a database with the contents that the statement has found,
on which the statement does what it has done: at once, or in a transaction of its own where what it
leaves cannot be committed. -/
def Makes (E : Engine Fault Store Link) (J : Journal Store Link Contents) (t : Turn Store Link) : Prop :=
  ∃ store link, J.valid store link ∧ E.autocommit link = true ∧
    J.committed store link = J.found t ∧
    ((t.sent.run E store link).1 = t.failed ∧
        J.committed (t.sent.run E store link).2.1 (t.sent.run E store link).2.2 = J.left t ∨
      ∃ mode begun, E.begin mode store link = (.ok (), begun) ∧
        (t.sent.run E begun.1 begun.2).1 = t.failed ∧
        J.sees (t.sent.run E begun.1 begun.2).2.1 (t.sent.run E begun.1 begun.2).2.2 = J.left t ∧
        ∃ f, (E.commit (t.sent.run E begun.1 begun.2).2.1
          (t.sent.run E begun.1 begun.2).2.2).1 = .error f)

/-- A statement in a transaction does what it does without one, unless it controls transactions or
fails without effect. -/
def IsFaithful (E : Engine Fault Store Link) (J : Journal Store Link Contents)
    (control : Sql.Bound → Prop) (t : Turn Store Link) : Prop :=
  control t.sent.bound ∨ t.failed = true ∧ J.left t = J.found t ∨ J.Makes E t

/-- A use of a connection keeps states valid, and changes neither the contents under another one that
writes nor what that one sees. -/
structure Safe (J : Journal Store Link Contents) (a b : Store × Link) : Prop where
  valid : J.valid a.1 a.2 → J.valid b.1 b.2
  apart : J.valid a.1 a.2 → ∀ m, J.valid a.1 m → J.apart a.2 m → J.valid b.1 m ∧ J.apart b.2 m
  under : J.valid a.1 a.2 → ∀ m, J.valid a.1 m → J.apart a.2 m → J.writes m →
    J.committed b.1 m = J.committed a.1 m ∧ J.sees b.1 m = J.sees a.1 m

theorem Safe.refl (a : Store × Link) : J.Safe a a :=
  ⟨id, fun _ _ hm hapart => ⟨hm, hapart⟩, fun _ _ _ _ _ => ⟨rfl, rfl⟩⟩

theorem Safe.trans (h : J.Safe a b) (h' : J.Safe b c) : J.Safe a c := by
  constructor
  · exact fun ha => h'.valid (h.valid ha)
  · intro ha m hm hapart
    obtain ⟨hm', hapart'⟩ := h.apart ha m hm hapart
    exact h'.apart (h.valid ha) m hm' hapart'
  · intro ha m hm hapart hwrites
    obtain ⟨hm', hapart'⟩ := h.apart ha m hm hapart
    obtain ⟨hcommitted, hsees⟩ := h.under ha m hm hapart hwrites
    obtain ⟨hcommitted', hsees'⟩ := h'.under (h.valid ha) m hm' hapart' hwrites
    exact ⟨hcommitted'.trans hcommitted, hsees'.trans hsees⟩

/-- What a statement does to the transaction that it is run in. -/
structure Continues (J : Journal Store Link Contents) (t : Turn Store Link) : Prop where
  keeps : J.Keeps t.before t.after
  writes : J.writes t.before.2 → J.writes t.after.2
  /-- A transaction starts to write only where it sees what is committed. -/
  first : ¬ J.writes t.before.2 → J.writes t.after.2 →
    J.found t = J.committed t.before.1 t.before.2
  unwritten : ¬ J.writes t.after.2 → J.left t = J.found t

/-- The statements of a transaction account for what its connection sees. -/
structure Records (E : Engine Fault Store Link) (J : Journal Store Link Contents)
    (control : Sql.Bound → Prop) (turns : List (Turn Store Link)) (store : Store) (link : Link) :
    Prop where
  written : J.writes link → J.Applies turns (J.committed store link) (J.sees store link)
  unwritten : ¬ J.writes link → ∀ t ∈ turns, J.left t = J.found t
  faithful : ∀ t ∈ turns, J.IsFaithful E control t

namespace Records

/-- No statement has been run yet. -/
theorem nil (h : J.writes link → J.sees store link = J.committed store link) :
    J.Records E control [] store link where
  written hwrites := by
    rw [h hwrites]
    exact .nil
  unwritten _ _ ht := absurd ht List.not_mem_nil
  faithful _ ht := absurd ht List.not_mem_nil

/-- Another connection has changed the store, but not under a connection that writes. -/
theorem of_under (h : J.Records E control turns store link)
    (hunder : J.writes link → J.committed store' link = J.committed store link ∧
      J.sees store' link = J.sees store link) : J.Records E control turns store' link where
  written hwrites := by
    obtain ⟨hcommitted, hsees⟩ := hunder hwrites
    rw [hcommitted, hsees]
    exact h.written hwrites
  unwritten := h.unwritten
  faithful := h.faithful

theorem snoc (h : J.Records E control turns t.before.1 t.before.2) (ht : J.Continues t)
    (hfaithful : J.IsFaithful E control t) :
    J.Records E control (turns ++ [t]) t.after.1 t.after.2 where
  written hwrites := by
    have hcommitted : J.committed t.after.1 t.after.2 = J.committed t.before.1 t.before.2 :=
      ht.keeps.committed
    rw [hcommitted]
    refine Applies.snoc ?_
    by_cases hbefore : J.writes t.before.2
    · exact h.written hbefore
    · rw [ht.first hbefore hwrites]
      exact .of_idle (h.unwritten hbefore)
  unwritten hnot u hu := by
    rcases List.mem_append.1 hu with hu | hu
    · exact h.unwritten (fun hbefore => hnot (ht.writes hbefore)) u hu
    · rw [List.mem_singleton.1 hu]
      exact ht.unwritten hnot
  faithful u hu := by
    rcases List.mem_append.1 hu with hu | hu
    · exact h.faithful u hu
    · rw [List.mem_singleton.1 hu]
      exact hfaithful

end Records

end Journal

/-- What the coordinator relies on of connections to one database. Statements that control
transactions are told from the others. -/
structure Engine.Journals (E : Engine Fault Store Link) (J : Journal Store Link Contents)
    (control : Sql.Bound → Prop) : Prop where
  apart_symm : ∀ {l m}, J.apart l m → J.apart m l
  set_safe : ∀ flag store link, J.Safe (store, link) (store, E.setReadUncommitted flag link)
  begin_safe : ∀ mode store link, J.Safe (store, link) (E.begin mode store link).2
  statement_safe : ∀ (o : Outcome) store link, J.Safe (store, link) (o.statement E store link).2
  sent_safe : ∀ (sent : Sent) store link, J.Safe (store, link) (sent.run E store link).2
  begin_done : ∀ {mode store link after}, J.valid store link →
    E.begin mode store link = (.ok (), after) → J.writes after.2 →
      J.sees after.1 after.2 = J.committed after.1 after.2
  /-- A transaction commits what it sees if it has started to write, and otherwise nothing. -/
  commit_done : ∀ {store link after}, J.valid store link → E.commit store link = (.ok (), after) →
    (J.writes link → J.Changes (fun _ => J.sees store link) (store, link) after) ∧
      (¬ J.writes link → J.Keeps (store, link) after)
  /-- A statement can begin a transaction. -/
  begun : ∀ (sent : Sent) {store link}, J.valid store link → E.autocommit link = true →
    E.autocommit (sent.run E store link).2.2 = false → J.writes (sent.run E store link).2.2 →
      J.sees (sent.run E store link).2.1 (sent.run E store link).2.2 =
        J.committed (sent.run E store link).2.1 (sent.run E store link).2.2
  continues : ∀ (sent : Sent) {store link}, J.valid store link → E.autocommit link = false →
    E.autocommit (sent.run E store link).2.2 = false → J.Continues (sent.turn E store link)
  faithful : ∀ (sent : Sent) {store link}, J.valid store link → E.autocommit link = false →
    E.autocommit (sent.run E store link).2.2 = false → J.IsFaithful E control (sent.turn E store link)

/-- The statements of the transaction of a connection, once another one has been run. There are none
where that one has begun or ended the transaction. -/
def Engine.note (E : Engine Fault Store Link) (turns : List (Turn Store Link)) (t : Turn Store Link) :
    List (Turn Store Link) :=
  if E.autocommit t.before.2 || E.autocommit t.after.2 then [] else turns ++ [t]

/-- The statements of the transaction that is open after some have been run on a connection. -/
def Engine.current (E : Engine Fault Store Link) (turns : List (Turn Store Link)) :
    List (Turn Store Link) := turns.foldl E.note []

theorem Engine.current_append (E : Engine Fault Store Link) (turns later : List (Turn Store Link)) :
    E.current (turns ++ later) = later.foldl E.note (E.current turns) := List.foldl_append

theorem Engine.foldl_note {E : Engine Fault Store Link} {turns : List (Turn Store Link)}
    (h : ∀ t ∈ turns, t.IsInside E)
    (earlier : List (Turn Store Link)) : turns.foldl E.note earlier = earlier ++ turns := by
  induction turns generalizing earlier with
  | nil => exact (List.append_nil earlier).symm
  | cons t turns ih =>
    obtain ⟨hbefore, hafter⟩ := h t List.mem_cons_self
    have hnote : E.note earlier t = earlier ++ [t] := by
      unfold Engine.note
      rw [hbefore, hafter]
      rfl
    rw [List.foldl_cons, hnote, ih (fun u hu => h u (List.mem_cons_of_mem t hu)), List.append_assoc]
    rfl

section Script

variable {E : Engine Fault Store Link} {J : Journal Store Link Contents} {control : Sql.Bound → Prop}
  {store : Store} {link : Link} {turns : List (Turn Store Link)}

theorem Journal.Records.note (hJ : E.Journals J control) (sent : Sent) (hvalid : J.valid store link)
    (h : E.autocommit link = false → J.Records E control turns store link)
    (hopen : E.autocommit (sent.run E store link).2.2 = false) :
    J.Records E control (E.note turns (sent.turn E store link)) (sent.run E store link).2.1
      (sent.run E store link).2.2 := by
  unfold Engine.note
  cases hauto : E.autocommit link with
  | true =>
    rw [if_pos (by simp [Sent.turn, hauto])]
    exact .nil (hJ.begun sent hvalid hauto hopen)
  | false =>
    rw [if_neg (by simp [Sent.turn, hauto, hopen])]
    exact (h hauto).snoc (hJ.continues sent hvalid hauto hopen) (hJ.faithful sent hvalid hauto hopen)

namespace Script

theorem safe_run (hJ : E.Journals J control) (c : Script) (store : Store) (link : Link) :
    J.Safe (store, link) (c.run E store link).2 := by
  refine c.run_induction E store link (P := fun _ store' link' => J.Safe (store, link) (store', link')) (.refl _) ?_
  exact fun _ store' link' sent _ _ h => h.trans (hJ.sent_safe sent store' link')

/-- The statements of a script are recorded in their order. -/
theorem records_run (hJ : E.Journals J control) (c : Script) (hvalid : J.valid store link)
    (h : E.autocommit link = false → J.Records E control turns store link)
    (hopen : E.autocommit (c.run E store link).2.2 = false) :
    J.Records E control ((c.run E store link).1.foldl E.note turns) (c.run E store link).2.1
      (c.run E store link).2.2 := by
  have hrun := c.run_induction E store link
    (P := fun ran store' link' => J.valid store' link' ∧ (E.autocommit link' = false →
      J.Records E control (ran.foldl E.note turns) store' link')) ⟨hvalid, h⟩ ?_
  · exact hrun.2 hopen
  · rintro ran store' link' sent - - ⟨hvalid', hrecords⟩
    refine ⟨(hJ.sent_safe sent store' link').valid hvalid', fun hopen' => ?_⟩
    rw [List.foldl_append]
    exact Journal.Records.note hJ sent hvalid' hrecords hopen'

end Script

end Script

namespace Journal

variable {E : Engine Fault Store Link} {J : Journal Store Link Contents} {control : Sql.Bound → Prop}
  {mine mine' : Nat → Prop} {p p' p'' : Pool Store Link} {s s' : Source Store Link} {n : Nat}
  {level : Level}

structure Coherent (J : Journal Store Link Contents) (p : Pool Store Link) : Prop where
  valid : ∀ n, J.valid p.store (p.link n)
  apart : ∀ n m, n ≠ m → J.apart (p.link n) (p.link m)

/-- A pool before and after some of its connections were used. The others are as they were, and so is
what those of them that write are on and see. -/
structure Tends (J : Journal Store Link Contents) (mine : Nat → Prop) (p p' : Pool Store Link) :
    Prop where
  link : ∀ m, ¬ mine m → p'.link m = p.link m
  coherent : J.Coherent p → J.Coherent p'
  under : J.Coherent p → ∀ m, ¬ mine m → J.writes (p.link m) →
    J.committed p'.store (p.link m) = J.committed p.store (p.link m) ∧
      J.sees p'.store (p.link m) = J.sees p.store (p.link m)

namespace Tends

theorem of_quiet (hstore : p'.store = p.store) (hlink : p'.link = p.link) : J.Tends mine p p' := by
  refine ⟨fun m _ => by rw [hlink], fun h => ?_, fun _ m _ _ => by rw [hstore]; exact ⟨rfl, rfl⟩⟩
  constructor
  · rw [hstore, hlink]
    exact h.valid
  · rw [hlink]
    exact h.apart

theorem trans (h : J.Tends mine p p') (h' : J.Tends mine p' p'') : J.Tends mine p p'' := by
  constructor
  · exact fun m hm => (h'.link m hm).trans (h.link m hm)
  · exact fun hp => h'.coherent (h.coherent hp)
  · intro hp m hm hwrites
    have hlink := h.link m hm
    have hlater := h'.under (h.coherent hp) m hm (hlink ▸ hwrites)
    rw [hlink] at hlater
    obtain ⟨hcommitted, hsees⟩ := h.under hp m hm hwrites
    exact ⟨hlater.1.trans hcommitted, hlater.2.trans hsees⟩

theorem mono (h : J.Tends mine p p') (hsub : ∀ n, mine n → mine' n) : J.Tends mine' p p' :=
  ⟨fun m hm => h.link m fun hm' => hm (hsub m hm'), h.coherent,
    fun hp m hm => h.under hp m fun hm' => hm (hsub m hm')⟩

/-- One connection is used. -/
theorem of_put (hJ : E.Journals J control) (hn : mine n) {after : Store × Link}
    (h : J.Safe (p.store, p.link n) after) : J.Tends mine p (p.put n after) := by
  have hother {m : Nat} (hm : m ≠ n) : (p.put n after).link m = p.link m := if_neg hm
  have hself : (p.put n after).link n = after.2 := if_pos rfl
  have hne {m : Nat} (hm : ¬ mine m) : m ≠ n := fun heq => hm (heq ▸ hn)
  constructor
  · exact fun m hm => hother (hne hm)
  · intro hp
    have hafter (m : Nat) (hm : m ≠ n) := h.apart (hp.valid n) (p.link m) (hp.valid m)
      (hp.apart n m hm.symm)
    constructor
    · intro m
      by_cases hm : m = n
      · rw [hm, hself]
        exact h.valid (hp.valid n)
      · rw [hother hm]
        exact (hafter m hm).1
    · intro m k hmk
      by_cases hm : m = n
      · have hk : k ≠ n := fun hk => hmk (hm.trans hk.symm)
        rw [hm, hself, hother hk]
        exact (hafter k hk).2
      · rw [hother hm]
        by_cases hk : k = n
        · rw [hk, hself]
          exact hJ.apart_symm (hafter m hm).2
        · rw [hother hk]
          exact hp.apart m k hmk
  · intro hp m hm hwrites
    exact h.under (hp.valid n) (p.link m) (hp.valid m) (hp.apart n m (hne hm).symm) hwrites

end Tends

theorem safe_begin (hJ : E.Journals J control) (level : Level) (store : Store) (link : Link) :
    J.Safe (store, link) (level.begin E store link).2 := by
  have hset := hJ.set_safe (decide (level = .readUncommitted)) store link
  have hbegin := hJ.begin_safe level.lockMode store
    (E.setReadUncommitted (decide (level = .readUncommitted)) link)
  unfold Level.begin
  dsimp only
  cases hb : E.begin level.lockMode store
      (E.setReadUncommitted (decide (level = .readUncommitted)) link) with
  | mk result after =>
    rw [hb] at hbegin
    cases result with
    | ok u => exact hset.trans hbegin
    | error e =>
      dsimp only
      split_ifs
      · exact (hset.trans hbegin).trans (hJ.set_safe _ _ _)
      · exact hset.trans hbegin

theorem safe_finish (hJ : E.Journals J control) (o : Outcome) (level : Level) (store : Store)
    (link : Link) : J.Safe (store, link) (o.finish E level store link).2 := by
  have hstatement := hJ.statement_safe o store link
  have hclose (after : Store × Link) : J.Safe after (E.close after) := by
    unfold Engine.close
    split_ifs
    · exact .refl after
    · exact hJ.statement_safe .rollback after.1 after.2
  rw [Outcome.finish_eq]
  unfold Level.reset
  dsimp only
  split_ifs
  · exact (hstatement.trans (hclose _)).trans (hJ.set_safe _ _ _)
  · exact hstatement.trans (hclose _)

/-- A transaction that has just begun has run nothing. -/
theorem records_begin (hJ : E.Journals J control) {store store' : Store} {link link' : Link}
    (hvalid : J.valid store link) (h : level.begin E store link = (.ok (), store', link')) :
    J.Records E control [] store' link' := by
  unfold Level.begin at h
  dsimp only at h
  split at h
  · rename_i hb
    cases h
    exact .nil (hJ.begin_done ((hJ.set_safe _ store link).valid hvalid) hb)
  · cases h

variable [Reportable Fault]

theorem tends_begin (hJ : E.Journals J control) {result : Except Error Nat}
    (h : s.begin E level = (result, s')) : J.Tends (· ∈ s.pool.idle) s.pool s'.pool := by
  rcases Source.begin_cases (E := E) level s with
    ⟨-, hnone⟩ | ⟨n, rest, outcome, store, link, hidle, ha, hcase⟩
  · rw [hnone] at h
    cases h
    exact .of_quiet rfl rfl
  · have hsafe := safe_begin hJ level s.pool.store (s.pool.link n)
    rw [ha] at hsafe
    have hn : n ∈ s.pool.idle := by simp [hidle]
    have hput : J.Tends (· ∈ s.pool.idle) s.pool (s.pool.put n (store, link)) :=
      .of_put hJ hn hsafe
    rw [hcase] at h
    cases outcome with
    | ok u =>
      cases h
      exact hput.trans (.of_quiet rfl rfl)
    | error e =>
      cases h
      exact hput

theorem records_of_begin (hJ : E.Journals J control) (hcoherent : J.Coherent s.pool)
    (h : s.begin E level = (.ok n, s')) :
    J.Records E control [] s'.pool.store (s'.pool.link n) := by
  rcases Source.begin_cases (E := E) level s with
    ⟨-, hnone⟩ | ⟨m, rest, outcome, store, link, -, ha, hcase⟩
  · rw [hnone] at h
    cases h
  · rw [hcase] at h
    cases outcome with
    | error e => cases h
    | ok u =>
      cases h
      have hlink : (({ s.pool with idle := rest, store := store } : Pool Store Link).setLink n
          link).link n = link := if_pos rfl
      dsimp only
      rw [hlink]
      exact records_begin hJ (hcoherent.valid n) ha

omit [Reportable Fault] in
theorem tends_finish (hJ : E.Journals J control) (o : Outcome) (level : Level) (n : Nat)
    (s : Source Store Link) : J.Tends (· = n) s.pool (s.finish E o level n).2.pool := by
  have hput : J.Tends (· = n) s.pool
      (s.pool.put n (o.finish E level s.pool.store (s.pool.link n)).2) := by
    refine .of_put hJ ?_ (safe_finish hJ o level _ _)
    rfl
  exact hput.trans (.of_quiet rfl rfl)

theorem tends_unbegun (hJ : E.Journals J control) {tried : Option Nat}
    (h : Source.Unbegun E level s tried s') :
    J.Tends (· ∈ s.pool.idle) s.pool s'.pool := by
  cases h with
  | unreached => exact .of_quiet rfl rfl
  | refused hb => exact tends_begin hJ hb
  | @undone n s₁ hb =>
    have hn : n ∈ s.pool.idle := List.mem_of_mem_head? (Source.head?_of_begin hb)
    exact (tends_begin hJ hb).trans ((tends_finish hJ .rollback level n s₁).mono fun m hm => hm ▸ hn)

end Journal

end DataAccess
