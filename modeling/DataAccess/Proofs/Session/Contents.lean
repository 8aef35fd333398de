import DataAccess.Proofs.Session.Occupancy

/-!
The contents of databases, and how connections read them. Beginning a transaction and rolling it back
leave all committed contents as they are, and so does a commit that fails. A transaction makes its
connection read uncommitted data or not, as its level says, and one that has ended or not begun leaves
it reading committed data.
-/
namespace DataAccess

variable {Fault Store Link Contents : Type}

/-- How the committed contents of databases show in stores and connections. -/
structure Ledger (Store Link Contents : Type) where
  shared : Store → Contents
  /-- The contents of a database that belongs to the connection alone. -/
  own : Link → Option Contents

namespace Ledger

variable {L : Ledger Store Link Contents} {f g : Contents → Contents} {a b c : Store × Link}

def committed (L : Ledger Store Link Contents) (store : Store) (link : Link) : Contents :=
  (L.own link).getD (L.shared store)

/-- The contents of the connection's database are changed by `f`, and no others are. -/
structure Changes (L : Ledger Store Link Contents) (f : Contents → Contents)
    (a b : Store × Link) : Prop where
  own : L.own b.2 = (L.own a.2).map f
  shared : L.shared b.1 = if (L.own a.2).isSome then L.shared a.1 else f (L.shared a.1)

abbrev Keeps (L : Ledger Store Link Contents) (a b : Store × Link) : Prop := L.Changes id a b

theorem keeps_iff : L.Keeps a b ↔ L.own b.2 = L.own a.2 ∧ L.shared b.1 = L.shared a.1 := by
  constructor
  · intro h
    exact ⟨by simpa using h.own, by simpa using h.shared⟩
  · rintro ⟨hown, hshared⟩
    exact ⟨by simpa using hown, by simpa using hshared⟩

theorem Changes.of_link {store : Store} {link link' : Link} (h : L.own link' = L.own link) :
    L.Keeps (store, link) (store, link') := keeps_iff.2 ⟨h, rfl⟩

theorem Changes.trans (h : L.Changes f a b) (h' : L.Changes g b c) : L.Changes (g ∘ f) a c := by
  constructor
  · rw [h'.own, h.own, Option.map_map]
  · rw [h'.shared, h.shared, h.own, Option.isSome_map]
    split_ifs <;> rfl

/-- What else is done to the contents of another database does not matter. -/
theorem Changes.congr (h : L.Changes f a b)
    (hfg : f (L.committed a.1 a.2) = g (L.committed a.1 a.2)) : L.Changes g a b := by
  have hown := h.own
  have hshared := h.shared
  unfold Ledger.committed at hfg
  cases ha : L.own a.2 with
  | some c =>
    rw [ha] at hfg hown hshared
    refine ⟨?_, by simpa [ha] using hshared⟩
    rw [hown, ha]
    exact congrArg some hfg
  | none =>
    rw [ha] at hfg hown hshared
    exact ⟨by simpa [ha] using hown, by simpa [ha] using hshared.trans hfg⟩

theorem Changes.committed (h : L.Changes f a b) :
    L.committed b.1 b.2 = f (L.committed a.1 a.2) := by
  have hown := h.own
  have hshared := h.shared
  unfold Ledger.committed
  cases ha : L.own a.2 with
  | some c => simp [hown, ha]
  | none => simpa [hown, ha] using hshared

end Ledger

structure Source.Changes (L : Ledger Store Link Contents) (n : Nat) (f : Contents → Contents)
    (s s' : Source Store Link) : Prop where
  own : L.Changes f (s.pool.store, s.pool.link n) (s'.pool.store, s'.pool.link n)
  others : ∀ m, m ≠ n → L.own (s'.pool.link m) = L.own (s.pool.link m)

theorem Source.changes_of_quiet {L : Ledger Store Link Contents} {s s' : Source Store Link} (n : Nat)
    (hstore : s'.pool.store = s.pool.store) (hlink : s'.pool.link = s.pool.link) :
    s.Changes L n id s' := by
  constructor
  · rw [hstore, hlink]
    exact .of_link rfl
  · intro m _
    rw [hlink]

theorem Source.Changes.trans {L : Ledger Store Link Contents} {s s' s'' : Source Store Link}
    {n : Nat} {f g : Contents → Contents} (h : s.Changes L n f s') (h' : s'.Changes L n g s'') :
    s.Changes L n (g ∘ f) s'' :=
  ⟨h.own.trans h'.own, fun m hm => (h'.others m hm).trans (h.others m hm)⟩

def Outcome.statement (E : Engine Fault Store Link) : Outcome → Access Fault Store Link Unit
  | .commit => E.commit
  | .rollback => E.rollback

/-- What is left once a transaction that is still open has been rolled back. -/
def Engine.close (E : Engine Fault Store Link) (after : Store × Link) : Store × Link :=
  if E.autocommit after.2 then after else (E.rollback after.1 after.2).2

def Level.reset (E : Engine Fault Store Link) (level : Level) (link : Link) : Link :=
  if level = .readUncommitted then E.setReadUncommitted false link else link

theorem Outcome.finish_eq (E : Engine Fault Store Link) (o : Outcome) (level : Level) (store : Store)
    (link : Link) :
    o.finish E level store link =
      ((o.statement E store link).1, (E.close (o.statement E store link).2).1,
        level.reset E (E.close (o.statement E store link).2).2) := by
  cases o <;> rfl

/-- What the coordinator relies on of transactions. -/
structure Engine.Transacts (E : Engine Fault Store Link) (L : Ledger Store Link Contents) : Prop where
  set_autocommit : ∀ flag link,
    E.autocommit (E.setReadUncommitted flag link) = E.autocommit link
  set_own : ∀ flag link, L.own (E.setReadUncommitted flag link) = L.own link
  /-- A transaction does not begin inside another. -/
  begin_done : ∀ {mode store link after}, E.begin mode store link = (.ok (), after) →
    E.autocommit link = true ∧ E.autocommit after.2 = false
  begin_failed : ∀ {mode store link e after}, E.begin mode store link = (.error e, after) →
    E.autocommit after.2 = E.autocommit link
  begin_keeps : ∀ mode store link, L.Keeps (store, link) (E.begin mode store link).2
  /-- Only an open transaction can be committed. -/
  commit_done : ∀ {store link after}, E.commit store link = (.ok (), after) →
    E.autocommit link = false
  /-- A commit that fails makes nothing permanent. -/
  commit_failed : ∀ {store link e after}, E.commit store link = (.error e, after) →
    L.Keeps (store, link) after
  rollback_keeps : ∀ store link, L.Keeps (store, link) (E.rollback store link).2
  /-- A transaction that a commit, or a first rollback, leaves open can be rolled back. -/
  undone : ∀ (o : Outcome) {store link result after},
    o.statement E store link = (result, after) → E.autocommit after.2 = false →
      E.autocommit (E.rollback after.1 after.2).2.2 = true

namespace Engine.Transacts

variable {E : Engine Fault Store Link} {L : Ledger Store Link Contents}

theorem begun (hE : E.Transacts L) {level : Level} {store : Store} {link : Link}
    {after : Store × Link} (h : level.begin E store link = (.ok (), after)) :
    E.autocommit link = true ∧ E.autocommit after.2 = false ∧ L.Keeps (store, link) after := by
  have hkeeps := hE.begin_keeps level.lockMode store
    (E.setReadUncommitted (decide (level = .readUncommitted)) link)
  have hset : L.Keeps (store, link)
      (store, E.setReadUncommitted (decide (level = .readUncommitted)) link) :=
    .of_link (hE.set_own _ _)
  unfold Level.begin at h
  dsimp only at h
  split at h
  · rename_i store₁ link₁ hb
    cases h
    obtain ⟨hbefore, hafter⟩ := hE.begin_done hb
    rw [hb] at hkeeps
    exact ⟨(hE.set_autocommit _ _).symm.trans hbefore, hafter, hset.trans hkeeps⟩
  · cases h

theorem unbegun (hE : E.Transacts L) {level : Level} {e : Fault} {store : Store}
    {link : Link} {after : Store × Link} (h : level.begin E store link = (.error e, after)) :
    E.autocommit after.2 = E.autocommit link ∧ L.Keeps (store, link) after := by
  have hkeeps := hE.begin_keeps level.lockMode store
    (E.setReadUncommitted (decide (level = .readUncommitted)) link)
  have hset : L.Keeps (store, link)
      (store, E.setReadUncommitted (decide (level = .readUncommitted)) link) :=
    .of_link (hE.set_own _ _)
  unfold Level.begin at h
  dsimp only at h
  split at h
  · cases h
  · rename_i f store₁ link₁ hb
    cases h
    rw [hb] at hkeeps
    have hauto := (hE.begin_failed hb).trans (hE.set_autocommit _ _)
    have hall := hset.trans hkeeps
    split_ifs
    · exact ⟨(hE.set_autocommit _ _).trans hauto, hall.trans (Ledger.Changes.of_link (hE.set_own _ _))⟩
    · exact ⟨hauto, hall⟩

/-- A rollback, and a commit that fails, leave the contents as they are. -/
theorem unsettled (hE : E.Transacts L) {o : Outcome} {store : Store} {link : Link}
    {result : Except Fault Unit} {after : Store × Link}
    (h : o.statement E store link = (result, after)) (hfails : o = .commit → result ≠ .ok ()) :
    L.Keeps (store, link) after := by
  cases o with
  | commit =>
    cases result with
    | ok u => exact absurd rfl (hfails rfl)
    | error e => exact hE.commit_failed h
  | rollback =>
    have hkeeps := hE.rollback_keeps store link
    have hafter : (E.rollback store link).2 = after := congrArg Prod.snd h
    rwa [hafter] at hkeeps

theorem closed (hE : E.Transacts L) {o : Outcome} {store : Store} {link : Link}
    {result : Except Fault Unit} {after : Store × Link}
    (h : o.statement E store link = (result, after)) :
    E.autocommit (E.close after).2 = true ∧ L.Keeps after (E.close after) := by
  unfold Engine.close
  split_ifs with hauto
  · exact ⟨hauto, Ledger.keeps_iff.2 ⟨rfl, rfl⟩⟩
  · exact ⟨hE.undone o h (by simpa using hauto), hE.rollback_keeps after.1 after.2⟩

theorem reset (hE : E.Transacts L) (level : Level) (link : Link) :
    E.autocommit (level.reset E link) = E.autocommit link ∧
      L.own (level.reset E link) = L.own link := by
  unfold Level.reset
  split_ifs
  · exact ⟨hE.set_autocommit _ _, hE.set_own _ _⟩
  · exact ⟨rfl, rfl⟩

/-- Ending a transaction on a connection leaves it in autocommit mode, whatever fails, and changes no
contents but by the statement that ends it. -/
theorem finished (hE : E.Transacts L) (o : Outcome) (level : Level) (store : Store) (link : Link) :
    E.autocommit (o.finish E level store link).2.2 = true ∧
      L.Keeps (o.statement E store link).2 (o.finish E level store link).2 := by
  rw [Outcome.finish_eq]
  cases hs : o.statement E store link with
  | mk result after =>
    obtain ⟨hauto, hkeeps⟩ := hE.closed hs
    obtain ⟨hresetAuto, hresetOwn⟩ := hE.reset level (E.close after).2
    exact ⟨hresetAuto.trans hauto, hkeeps.trans (.of_link hresetOwn)⟩

end Engine.Transacts

structure Engine.Tunable (E : Engine Fault Store Link) : Prop where
  set : ∀ flag link, E.readUncommitted (E.setReadUncommitted flag link) = flag
  begin : ∀ mode store link,
    E.readUncommitted (E.begin mode store link).2.2 = E.readUncommitted link
  statement : ∀ (o : Outcome) store link,
    E.readUncommitted (o.statement E store link).2.2 = E.readUncommitted link

namespace Engine.Tunable

variable {E : Engine Fault Store Link}

theorem begun (hE : E.Tunable) (level : Level) (store : Store) (link : Link) :
    E.readUncommitted (level.begin E store link).2.2 =
      match (level.begin E store link).1 with
      | .ok () => decide (level = .readUncommitted)
      | .error _ => false := by
  have hflag := hE.begin level.lockMode store
    (E.setReadUncommitted (decide (level = .readUncommitted)) link)
  rw [hE.set] at hflag
  unfold Level.begin
  dsimp only
  cases hb : E.begin level.lockMode store
      (E.setReadUncommitted (decide (level = .readUncommitted)) link) with
  | mk result after =>
    rw [hb] at hflag
    cases result with
    | ok u => exact hflag
    | error e =>
      dsimp only
      split_ifs with hlevel
      · exact hE.set _ _
      · exact hflag.trans (by simpa using hlevel)

theorem finished (hE : E.Tunable) (o : Outcome) (level : Level) (store : Store) {link : Link}
    (hlink : E.readUncommitted link = decide (level = .readUncommitted)) :
    E.readUncommitted (o.finish E level store link).2.2 = false := by
  have hstatement := (hE.statement o store link).trans hlink
  have hclose (after : Store × Link) :
      E.readUncommitted (E.close after).2 = E.readUncommitted after.2 := by
    unfold Engine.close
    split_ifs
    · rfl
    · exact hE.statement .rollback after.1 after.2
  rw [Outcome.finish_eq]
  unfold Level.reset
  dsimp only
  split_ifs with hlevel
  · exact hE.set _ _
  · exact ((hclose _).trans hstatement).trans (by simpa using hlevel)

end Engine.Tunable

end DataAccess
