import DataAccess.Proofs.Session.Contents

/-!
Transactions, source by source. Sources have nothing in common but the order in which they are
visited: a transaction begins unless some source refuses it, and then for the reason of the first
one; it ends on every source as if there were no other, and the first failure is its result.
-/
namespace DataAccess

variable {Fault Store Link : Type}

theorem Level.begin_fst (E : Engine Fault Store Link) (level : Level) (store : Store) (link : Link) :
    (level.begin E store link).1 =
      (E.begin level.lockMode store
        (E.setReadUncommitted (decide (level = .readUncommitted)) link)).1 := by
  unfold Level.begin
  dsimp only
  split
  · rename_i h
    rw [h]
  · rename_i h
    rw [h]

variable [Reportable Fault]

/-- Why a transaction does not begin on a source: no connection is idle, or the one on top does not
begin. -/
def Source.refusal? (E : Engine Fault Store Link) (level : Level) (s : Source Store Link) :
    Option Error :=
  match s.pool.idle with
  | [] => some .pool
  | n :: _ =>
    match (E.begin level.lockMode s.pool.store
      (E.setReadUncommitted (decide (level = .readUncommitted)) (s.pool.link n))).1 with
    | .ok () => none
    | .error e => some (.ofFault e)

variable {E : Engine Fault Store Link} {level : Level}

theorem Source.begin_refusal (E : Engine Fault Store Link) (level : Level) (s : Source Store Link) :
    match s.refusal? E level with
    | some e => ∃ s', s.begin E level = (.error e, s')
    | none => ∃ n s', s.begin E level = (.ok n, s') := by
  unfold Source.refusal? Source.begin Pool.checkout?
  cases hidle : s.pool.idle with
  | nil => exact ⟨s, rfl⟩
  | cons n rest =>
    dsimp only
    rw [← Level.begin_fst]
    unfold Pool.use
    cases hb : level.begin E s.pool.store (s.pool.link n) with
    | mk result after =>
      cases result with
      | ok u => exact ⟨n, _, rfl⟩
      | error f => exact ⟨_, rfl⟩

theorem Source.head?_of_begin {s s' : Source Store Link} {n : Nat}
    (h : s.begin E level = (.ok n, s')) : s.pool.idle.head? = some n := by
  rcases Source.begin_cases (E := E) level s with
    ⟨-, hnone⟩ | ⟨m, rest, result, store, link, hidle, -, hcase⟩
  · rw [hnone] at h
    cases h
  · rw [hcase] at h
    cases result with
    | error e => cases h
    | ok u =>
      cases h
      rw [hidle]
      rfl

/-- A source on which a transaction has not begun after all: it was not reached, refused, or was
rolled back. With it the connection that has been tried. -/
inductive Source.Unbegun (E : Engine Fault Store Link) (level : Level) (s : Source Store Link) :
    Option Nat → Source Store Link → Prop
  | unreached : Source.Unbegun E level s none s
  | refused {e : Error} {s' : Source Store Link} (h : s.begin E level = (.error e, s')) :
    Source.Unbegun E level s s.pool.idle.head? s'
  | undone {n : Nat} {s' : Source Store Link} (h : s.begin E level = (.ok n, s')) :
    Source.Unbegun E level s (some n) (s'.finish E .rollback level n).2

/-- The connections that a transaction tries to begin on: the one on top of each source, up to the
first source that refuses it. -/
def Transaction.tried (E : Engine Fault Store Link) (level : Level) :
    Keyed (Source Store Link) → Keyed Nat
  | [] => []
  | (name, s) :: rest =>
    match s.pool.idle.head? with
    | none => []
    | some n => (name, n) :: if (s.refusal? E level).isSome then [] else tried E level rest

namespace Transaction

/-- Whether a transaction begins is decided by the first source that refuses it. -/
theorem beginAll_refusal (E : Engine Fault Store Link) (level : Level) (m : Keyed (Source Store Link)) :
    match m.findSome? fun entry => entry.2.refusal? E level with
    | some e => ∃ m', beginAll E level m = (.error e, m')
    | none => ∃ links m', beginAll E level m = (.ok links, m') := by
  induction m with
  | nil => exact ⟨[], [], rfl⟩
  | cons entry rest ih =>
    obtain ⟨name, s⟩ := entry
    have hs := s.begin_refusal E level
    rw [List.findSome?_cons]
    unfold beginAll
    cases hr : s.refusal? E level with
    | some f =>
      rw [hr] at hs
      obtain ⟨s', hb⟩ := hs
      exact ⟨_, by rw [hb]⟩
    | none =>
      rw [hr] at hs
      obtain ⟨n, s', hb⟩ := hs
      dsimp only
      cases hrest : List.findSome? (fun entry => entry.2.refusal? E level) rest with
      | some e =>
        rw [hrest] at ih
        obtain ⟨rest', hall⟩ := ih
        exact ⟨_, by rw [hb, hall]⟩
      | none =>
        rw [hrest] at ih
        obtain ⟨links, rest', hall⟩ := ih
        exact ⟨_, _, by rw [hb, hall]⟩

theorem begun_of_beginAll {m m' : Keyed (Source Store Link)} {links : Keyed Nat}
    (h : beginAll E level m = (.ok links, m')) {name : String} {s' : Source Store Link}
    (hs' : m'.get? name = some s') :
    ∃ s n, m.get? name = some s ∧ links.get? name = some n ∧ s.begin E level = (.ok n, s') := by
  induction m generalizing m' links with
  | nil =>
    cases h
    simp [Keyed.get?] at hs'
  | cons entry rest ih =>
    obtain ⟨other, s⟩ := entry
    unfold beginAll at h
    cases hb : s.begin E level with
    | mk result t =>
      cases result with
      | error e => simp [hb] at h
      | ok n =>
        cases hr : beginAll E level rest with
        | mk later rest' =>
          cases later with
          | error e => simp [hb, hr] at h
          | ok ns =>
            simp only [hb, hr, Prod.mk.injEq, Except.ok.injEq] at h
            obtain ⟨rfl, rfl⟩ := h
            rw [Keyed.get?_cons] at hs' ⊢
            rw [Keyed.get?_cons]
            split_ifs at hs' ⊢ with heq
            · cases hs'
              exact ⟨s, n, rfl, rfl, hb⟩
            · exact ih hr hs'

theorem tried_of_refused {name : String} {s s' : Source Store Link} {e : Error}
    (h : s.begin E level = (.error e, s')) (rest : Keyed (Source Store Link)) :
    tried E level ((name, s) :: rest) = (s.pool.idle.head?.map (name, ·)).toList := by
  have hrefusal := s.begin_refusal E level
  rw [h] at hrefusal
  unfold tried
  cases s.pool.idle.head? with
  | none => rfl
  | some n =>
    cases hr : s.refusal? E level with
    | some f => rfl
    | none =>
      rw [hr] at hrefusal
      obtain ⟨m, t, heq⟩ := hrefusal
      cases heq

theorem tried_of_begun {name : String} {s s' : Source Store Link} {n : Nat}
    (h : s.begin E level = (.ok n, s')) (rest : Keyed (Source Store Link)) :
    tried E level ((name, s) :: rest) = (name, n) :: tried E level rest := by
  have hrefusal := s.begin_refusal E level
  rw [h] at hrefusal
  rw [tried, Source.head?_of_begin h]
  cases hr : s.refusal? E level with
  | none => rfl
  | some f =>
    rw [hr] at hrefusal
    obtain ⟨t, heq⟩ := hrefusal
    cases heq

theorem unbegun_of_beginAll {m m' : Keyed (Source Store Link)} {e : Error}
    (h : beginAll E level m = (.error e, m')) {name : String} {s' : Source Store Link}
    (hs' : m'.get? name = some s') :
    ∃ s, m.get? name = some s ∧ Source.Unbegun E level s ((tried E level m).get? name) s' := by
  induction m generalizing m' with
  | nil => cases h
  | cons entry rest ih =>
    obtain ⟨other, s⟩ := entry
    unfold beginAll at h
    cases hb : s.begin E level with
    | mk result t =>
      cases result with
      | error f =>
        simp only [hb, Prod.mk.injEq] at h
        obtain ⟨-, rfl⟩ := h
        rw [tried_of_refused hb]
        rw [Keyed.get?_cons] at hs' ⊢
        split_ifs at hs' ⊢ with heq
        · cases hs'
          have htried : Keyed.get? (s.pool.idle.head?.map (other, ·)).toList name =
              s.pool.idle.head? := by
            cases s.pool.idle.head? with
            | none => rfl
            | some n => simp [Keyed.get?, heq]
          rw [htried]
          exact ⟨s, rfl, .refused hb⟩
        · have htried : Keyed.get? (s.pool.idle.head?.map (other, ·)).toList name = none := by
            cases s.pool.idle.head? with
            | none => rfl
            | some n => simp [Keyed.get?, heq]
          rw [htried]
          exact ⟨s', hs', .unreached⟩
      | ok n =>
        cases hr : beginAll E level rest with
        | mk later rest' =>
          cases later with
          | ok ns => simp [hb, hr] at h
          | error f =>
            simp only [hb, hr, Prod.mk.injEq] at h
            obtain ⟨hf, rfl⟩ := h
            cases hf
            rw [tried_of_begun hb]
            rw [Keyed.get?_cons] at hs' ⊢
            rw [Keyed.get?_cons]
            split_ifs at hs' ⊢ with heq
            · cases hs'
              exact ⟨s, rfl, .undone hb⟩
            · exact ih hr hs'

def fault? (E : Engine Fault Store Link) (o : Outcome) (t : Transaction)
    (entry : String × Source Store Link) : Option Fault :=
  (t.links.get? entry.1).bind fun n =>
    match (o.statement E entry.2.pool.store (entry.2.pool.link n)).1 with
    | .ok () => none
    | .error f => some f

omit [Reportable Fault] in
/-- The first failure is the result. -/
theorem finishAll_fst (o : Outcome) (t : Transaction) (m : Keyed (Source Store Link)) :
    (t.finishAll E o m).1 =
      match m.findSome? (t.fault? E o) with
      | none => .ok ()
      | some f => .error f := by
  induction m with
  | nil => rfl
  | cons entry rest ih =>
    obtain ⟨name, s⟩ := entry
    rw [List.findSome?_cons]
    unfold finishAll fault?
    dsimp only
    rw [ih]
    cases hn : t.links.get? name with
    | none => rfl
    | some n =>
      have hresult : (s.finish E o t.level n).1 =
          (o.statement E s.pool.store (s.pool.link n)).1 := by
        unfold Source.finish Pool.use
        rw [Outcome.finish_eq]
      dsimp only [Option.bind_some]
      rw [hresult]
      cases (o.statement E s.pool.store (s.pool.link n)).1 with
      | ok u => rfl
      | error f => rfl

omit [Reportable Fault] in
/-- Every source is ended on its own. -/
theorem source_of_finishAll {o : Outcome} {t : Transaction} {m : Keyed (Source Store Link)}
    {name : String} {s' : Source Store Link} (hs' : (t.finishAll E o m).2.get? name = some s') :
    ∃ s, m.get? name = some s ∧
      s' = match t.links.get? name with
        | some n => (s.finish E o t.level n).2
        | none => s := by
  induction m with
  | nil => simp [finishAll, Keyed.get?] at hs'
  | cons entry rest ih =>
    obtain ⟨other, s⟩ := entry
    unfold finishAll at hs'
    dsimp only at hs'
    rw [Keyed.get?_cons] at hs' ⊢
    split_ifs at hs' ⊢ with heq
    · subst heq
      cases hs'
      refine ⟨s, rfl, ?_⟩
      cases t.links.get? name with
      | none => rfl
      | some n => rfl
    · exact ih hs'

end Transaction

theorem Session.finish_eq (E : Engine Fault Store Link) (o : Outcome) (s : Session)
    (r : Registry Store Link) :
    s.finish E o r =
      if s.isLent then (.error (.transaction .connectionsInUse), s, r)
      else match s.transaction with
        | none => (.error .noActiveTransaction, s, r)
        | some t =>
          ((match r.sources.findSome? (t.fault? E o) with
            | none => .ok ()
            | some f => .error (.ofFault f)), { s with transaction := none },
            { r with sources := (t.finishAll E o r.sources).2 }) := by
  unfold Session.finish Transaction.finish
  split_ifs with hlent
  · rfl
  · cases s.transaction with
    | none => rfl
    | some t =>
      dsimp only
      rw [Transaction.finishAll_fst]
      cases r.sources.findSome? (t.fault? E o) with
      | none => rfl
      | some f => rfl

end DataAccess
