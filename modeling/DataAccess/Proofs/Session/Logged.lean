import DataAccess.Proofs.Session.Journal

/-!
Sessions over connections that record what they run. Whatever a command of a session does at a source,
the connections of transactions go on to account for what they see by the statements that have been run
on them since their transactions began.
-/
namespace DataAccess

variable {Fault Store Link Contents : Type} [Reportable Fault]

/-- What a command of a session does at one source, where the session holds connections before and
after it, and what it makes of the statements that the session has run there. -/
inductive Source.Step (E : Engine Fault Store Link) (asked : List Sql.Bound) (commits : Prop)
    (s : Source Store Link) (held held' : List Nat) :
    (List (Turn Store Link) → List (Turn Store Link)) → Source Store Link → Prop
  | quiet {s' : Source Store Link} (hstore : s'.pool.store = s.pool.store)
      (hlink : s'.pool.link = s.pool.link) (hheld : ∀ n ∈ held', n ∈ held) :
      Source.Step E asked commits s held held' (fun log => log) s'
  | begun {level : Level} {n : Nat} {s' : Source Store Link} (h : s.begin E level = (.ok n, s'))
      (hnone : held = []) (hheld : held' = [n]) :
      Source.Step E asked commits s held held' (fun _ => []) s'
  | unbegun {level : Level} {tried : Option Nat} {s' : Source Store Link}
      (h : Source.Unbegun E level s tried s')
      (hnone : held = []) (hheld : held' = []) :
      Source.Step E asked commits s held held' (fun _ => []) s'
  | ended {o : Outcome} {level : Level} {n : Nat} {s₀ : Source Store Link}
      (hstore : s₀.pool.store = s.pool.store) (hlink : s₀.pool.link = s.pool.link)
      (hcommits : o = .commit → commits) (hn : n ∈ held) (hheld : held' = []) :
      Source.Step E asked commits s held held' (fun log => log) (s₀.finish E o level n).2
  | ran {c : Script} {n : Nat} (hc : ∀ b ∈ c.statements, b ∈ asked)
      (hn : n ∈ held ∨ held = [] ∧ n ∈ s.pool.idle) (hone : ∀ m ∈ held, m = n)
      (hheld : held' = held) :
      Source.Step E asked commits s held held'
        (fun log => log ++ (c.run E s.pool.store (s.pool.link n)).1)
        (s.after n (c.run E s.pool.store (s.pool.link n)).2)

namespace Source.Step

variable {E : Engine Fault Store Link} {J : Journal Store Link Contents} {control : Sql.Bound → Prop}
  {asked : List Sql.Bound} {commits : Prop} {s s' : Source Store Link} {held held' : List Nat}
  {f : List (Turn Store Link) → List (Turn Store Link)} {turns : List (Turn Store Link)}

/-- No connections are used but those of the session and idle ones. -/
theorem tends (hJ : E.Journals J control) (h : s.Step E asked commits held held' f s') :
    J.Tends (fun n => n ∈ s.pool.idle ∨ n ∈ held) s.pool s'.pool := by
  cases h with
  | quiet hstore hlink hheld => exact .of_quiet hstore hlink
  | begun hb hnone hheld => exact (Journal.tends_begin hJ hb).mono fun _ hn => .inl hn
  | unbegun hb hnone hheld => exact (Journal.tends_unbegun hJ hb).mono fun _ hn => .inl hn
  | @ended o level n s₀ hstore hlink hcommits hn hheld =>
    have hquiet : J.Tends (fun n => n ∈ s.pool.idle ∨ n ∈ held) s.pool s₀.pool :=
      .of_quiet hstore hlink
    exact hquiet.trans ((Journal.tends_finish hJ o level n s₀).mono fun m hm => .inr (hm ▸ hn))
  | @ran c n hc hn hone hheld =>
    refine .of_put hJ ?_ (c.safe_run hJ s.pool.store (s.pool.link n))
    rcases hn with hn | ⟨-, hn⟩
    · exact .inr hn
    · exact .inl hn

/-- The connections of the session record what the log of the session says. -/
theorem records (hJ : E.Journals J control) (h : s.Step E asked commits held held' f s')
    (hcoherent : J.Coherent s.pool)
    (hturns : ∀ n ∈ held, E.autocommit (s.pool.link n) = false →
      J.Records E control (E.current turns) s.pool.store (s.pool.link n)) :
    ∀ n ∈ held', E.autocommit (s'.pool.link n) = false →
      J.Records E control (E.current (f turns)) s'.pool.store (s'.pool.link n) := by
  intro n hn hopen
  cases h with
  | quiet hstore hlink hheld =>
    rw [hstore, hlink]
    rw [hlink] at hopen
    exact hturns n (hheld n hn) hopen
  | begun hb hnone hheld =>
    rw [hheld, List.mem_singleton] at hn
    rw [hn]
    exact Journal.records_of_begin hJ hcoherent hb
  | unbegun hb hnone hheld =>
    rw [hheld] at hn
    cases hn
  | ended hstore hlink hcommits hmine hheld =>
    rw [hheld] at hn
    cases hn
  | @ran c m hc hmine hone hheld =>
    rw [hheld] at hn
    obtain rfl := hone n hn
    have hlink : (s.after n (c.run E s.pool.store (s.pool.link n)).2).pool.link n =
        (c.run E s.pool.store (s.pool.link n)).2.2 := if_pos rfl
    rw [hlink] at hopen ⊢
    rw [E.current_append]
    exact c.records_run hJ (hcoherent.valid n) (hturns n hn) hopen

end Source.Step

theorem Session.mem_held {s : Session} {name : String} {n : Nat} :
    n ∈ s.held name ↔ ∃ t, s.transaction = some t ∧ t.links.get? name = some n := by
  unfold held
  rw [Option.mem_toList, Option.bind_eq_some_iff]

theorem Session.held_eq_nil {s : Session} (h : s.transaction = none) (name : String) :
    s.held name = [] := by
  unfold held
  rw [h]
  rfl

theorem Session.held_congr {s s' : Session} (h : s'.transaction = s.transaction) (name : String) :
    s'.held name = s.held name := by
  unfold held
  rw [h]

abbrev Log (Store Link : Type) := String → String → List (Turn Store Link)

def Outcome.command : Outcome → Command
  | .commit => .commit
  | .rollback => .rollback

def Outcome.answer : Outcome → Answer
  | .commit => .committed
  | .rollback => .rolledBack

namespace World

theorem run_command (E : Engine Fault Store Link) (o : Outcome) (id : String) (w : World Store Link) :
    run E id o.command w =
      ((w.onSession id (Session.finish E o)).1.map fun _ => o.answer, none,
        (w.onSession id (Session.finish E o)).2) := by
  cases o with
  | commit =>
    unfold Outcome.command run
    rfl
  | rollback =>
    unfold Outcome.command run
    rfl

def ran (E : Engine Fault Store Link) (id : String) (target : Target) (q : Request)
    (w : World Store Link) (name : String) : List (Turn Store Link) :=
  match w.gateway target with
  | .error _ => []
  | .ok g =>
    match (w.session id).connection? g.source w.registry with
    | none => []
    | some (src, n) =>
      if name = g.source then (q.script.run E src.pool.store (src.pool.link n)).1 else []

/-- The log after a command. -/
def logged (E : Engine Fault Store Link) (id : String) (c : Command) (w : World Store Link)
    (log : Log Store Link) : Log Store Link := fun own name =>
  if own = id then
    match c with
    | .begin _ => if (w.session id).isActive then log own name else []
    | .through target q => log own name ++ w.ran E id target q name
    | _ => log own name
  else log own name

section Step

variable {E : Engine Fault Store Link} {w : World Store Link} {id : String}

/-- What a command does at each source. -/
def Steps (E : Engine Fault Store Link) (id : String) (c : Command) (w w' : World Store Link) :
    Prop :=
  ∀ name s', w'.registry.sources.get? name = some s' →
    ∃ s f, w.registry.sources.get? name = some s ∧
      (∀ log, w.logged E id c log id name = f (log id name)) ∧
      s.Step E c.statements (c = .commit ∧ ¬ (w.session id).isLent = true)
        ((w.session id).held name) ((w'.session id).held name) f s'

theorem Steps.of_quiet {c : Command} {w' : World Store Link} (h : w.registry.Quiet w'.registry)
    (hlog : ∀ log name, w.logged E id c log id name = log id name)
    (hheld : ∀ name, ∀ n ∈ (w'.session id).held name, n ∈ (w.session id).held name) :
    w.Steps E id c w' := by
  intro name s' hs'
  obtain ⟨s, hs, hstore, hlink⟩ := h.source name s' hs'
  exact ⟨s, _, hs, fun log => hlog log name, .quiet hstore hlink (hheld name)⟩

omit [Reportable Fault] in
theorem logged_self (E : Engine Fault Store Link) (id : String) (w : World Store Link) (log : Log Store Link)
    {c : Command} (hbegin : ∀ level, c ≠ .begin level) (hthrough : ∀ target q, c ≠ .through target q)
    (name : String) : w.logged E id c log id name = log id name := by
  unfold logged
  rw [if_pos rfl]
  cases c with
  | begin level => exact absurd rfl (hbegin level)
  | through target q => exact absurd rfl (hthrough target q)
  | _ => rfl

theorem steps_begin (E : Engine Fault Store Link) (level : Level)
    (id : String) (w : World Store Link) :
    w.Steps E id (.begin level) (run E id (.begin level) w).2.2 := by
  have hlog (log : Log Store Link) (name : String) : w.logged E id (.begin level) log id name =
      if (w.session id).isActive then log id name else [] := by
    unfold logged
    rw [if_pos rfl]
  have hidle (ht : (w.session id).transaction = none) : ¬ (w.session id).isActive = true := by
    unfold Session.isActive
    rw [ht]
    exact Bool.false_ne_true
  intro name s' hs'
  unfold run onSession at hs' ⊢
  rcases Session.begin_cases E level (w.session id) w.registry with
    ⟨e, hb⟩ | ⟨ht, ⟨links, m, hm, hb⟩ | ⟨e, m, hm, hb⟩⟩
  · rw [hb] at hs' ⊢
    dsimp only at hs' ⊢
    rw [session_insert_self]
    by_cases hactive : (w.session id).isActive = true
    · exact ⟨s', _, hs', fun log => by rw [hlog, if_pos hactive],
        .quiet rfl rfl fun n hn => hn⟩
    · have ht : (w.session id).transaction = none := Option.not_isSome_iff_eq_none.1 hactive
      have hnone := Session.held_eq_nil ht name
      have hunreached : Source.Unbegun E level s' none s' := .unreached
      exact ⟨s', _, hs', fun log => by rw [hlog, if_neg hactive],
        .unbegun hunreached hnone hnone⟩
  · rw [hb] at hs' ⊢
    dsimp only at hs' ⊢
    rw [session_insert, if_pos rfl]
    obtain ⟨s, n, hs, hn, hbegin⟩ := Transaction.begun_of_beginAll hm hs'
    refine ⟨s, _, hs, fun log => by rw [hlog, if_neg (hidle ht)],
      .begun hbegin (Session.held_eq_nil ht name) ?_⟩
    unfold Session.held
    simp [hn]
  · rw [hb] at hs' ⊢
    dsimp only at hs' ⊢
    rw [session_insert_self]
    obtain ⟨s, hs, hunbegun⟩ := Transaction.unbegun_of_beginAll hm hs'
    have hnone := Session.held_eq_nil ht name
    exact ⟨s, _, hs, fun log => by rw [hlog, if_neg (hidle ht)], .unbegun hunbegun hnone hnone⟩

/-- A session that ends its transaction gives up the connections that it held. -/
theorem step_finishAll {asked : List Sql.Bound} {commits : Prop} {o : Outcome} (ho : o = .commit → commits) {s : Session}
    {t : Transaction} (ht : s.transaction = some t) {r r₀ : Registry Store Link}
    (hquiet : r.Quiet r₀) {name : String} {s' : Source Store Link}
    (hs' : (t.finishAll E o r₀.sources).2.get? name = some s') :
    ∃ src, r.sources.get? name = some src ∧
      src.Step E asked commits (s.held name) [] (fun log => log) s' := by
  obtain ⟨s₀, hs₀, heq⟩ := Transaction.source_of_finishAll hs'
  obtain ⟨src, hsrc, hstore, hlink⟩ := hquiet.source name s₀ hs₀
  refine ⟨src, hsrc, ?_⟩
  cases hn : t.links.get? name with
  | none =>
    rw [hn] at heq
    rw [heq]
    exact .quiet hstore hlink fun _ hnot => absurd hnot List.not_mem_nil
  | some n =>
    rw [hn] at heq
    dsimp only at heq
    rw [heq]
    exact .ended hstore hlink ho (Session.mem_held.2 ⟨t, ht, hn⟩) rfl

theorem steps_finish (E : Engine Fault Store Link) (o : Outcome) (id : String) (w : World Store Link) :
    w.Steps E id o.command (run E id o.command w).2.2 := by
  have hlog (log : Log Store Link) (name : String) : w.logged E id o.command log id name = log id name :=
    logged_self E id w log (by cases o <;> exact fun _ h => by cases h)
      (by cases o <;> exact fun _ _ h => by cases h) name
  rw [run_command]
  unfold onSession
  rw [Session.finish_eq]
  split_ifs with hlent
  · refine .of_quiet (.refl _) hlog fun name n hn => ?_
    rwa [session_insert_self] at hn
  · cases ht : (w.session id).transaction with
    | none =>
      refine .of_quiet (.refl _) hlog fun name n hn => ?_
      rwa [session_insert_self] at hn
    | some t =>
      have ho : o = .commit → o.command = .commit ∧ ¬ (w.session id).isLent = true :=
        fun h => ⟨by rw [h]; rfl, hlent⟩
      intro name s' hs'
      obtain ⟨s, hs, hstep⟩ := step_finishAll ho ht (.refl w.registry) hs'
      have hidle : ({ w.session id with transaction := none } : Session).held name = [] :=
        Session.held_eq_nil rfl name
      refine ⟨s, fun log => log, hs, fun log => hlog log name, ?_⟩
      dsimp only
      rw [session_insert, if_pos rfl, hidle]
      exact hstep

theorem steps_drop (E : Engine Fault Store Link) (id : String) (w : World Store Link) : w.Steps E id .drop (w.drop E id) := by
  have hlog (log : Log Store Link) (name : String) : w.logged E id .drop log id name = log id name :=
    logged_self E id w log (fun _ h => by cases h) (fun _ _ h => by cases h) name
  have hheld (name : String) : ((w.drop E id).session id).held name = [] := by
    unfold drop
    rw [session_erase, if_pos rfl]
    rfl
  have hquiet := Session.quiet_giveUpAll (w.session id).handles w.registry
  intro name s' hs'
  rw [hheld]
  unfold drop Session.drop at hs'
  cases ht : (w.session id).transaction with
  | none =>
    rw [ht] at hs'
    obtain ⟨s, hs, hstore, hlink⟩ := hquiet.source name s' hs'
    exact ⟨s, _, hs, fun log => hlog log name,
      .quiet hstore hlink fun _ hnot => absurd hnot List.not_mem_nil⟩
  | some t =>
    rw [ht] at hs'
    have ho : Outcome.rollback = .commit → Command.drop = .commit ∧
        ¬ (w.session id).isLent = true := fun h => by cases h
    obtain ⟨s, hs, hstep⟩ := step_finishAll ho ht hquiet hs'
    exact ⟨s, _, hs, fun log => hlog log name, hstep⟩

theorem steps_through (E : Engine Fault Store Link) (target : Target) (q : Request) (id : String)
    (w : World Store Link) :
    w.Steps E id (.through target q) (run E id (.through target q) w).2.2 := by
  have hlog (log : Log Store Link) (name : String) : w.logged E id (.through target q) log id name =
      log id name ++ w.ran E id target q name := by
    unfold logged
    rw [if_pos rfl]
  unfold run
  cases hg : w.gateway target with
  | error e =>
    refine .of_quiet (.refl _) (fun log name => ?_) fun _ _ hn => hn
    rw [hlog]
    simp only [ran, hg, List.append_nil]
  | ok g =>
    obtain ⟨hsessions, hsources⟩ := w.get?_request E id g q
    have hheld (name : String) :
        ((w.request E id g q).2.session id).held name = (w.session id).held name := by
      unfold session
      rw [hsessions]
    intro name s' hs'
    dsimp only at hs' ⊢
    rw [hheld]
    cases hc : (w.session id).connection? g.source w.registry with
    | none =>
      rw [hc] at hsources
      dsimp only at hsources
      rw [hsources] at hs'
      refine ⟨s', _, hs', fun log => ?_, .quiet rfl rfl fun _ hn => hn⟩
      rw [hlog]
      simp only [ran, hg, hc, List.append_nil]
    | some found =>
      obtain ⟨src, n⟩ := found
      obtain ⟨hsrc, hn⟩ := Session.connection?_eq_some.1 hc
      rw [hc] at hsources
      rw [hsources name] at hs'
      split_ifs at hs' with hname
      · cases hs'
        subst hname
        refine ⟨src, _, hsrc, fun log => ?_, .ran (c := q.script) ?_ ?_ ?_ rfl⟩
        · rw [hlog]
          simp only [ran, hg, hc, if_true]
        · rw [Request.statements_script]
          exact fun b hb => hb
        · unfold Session.link? at hn
          cases ht : (w.session id).transaction with
          | some t =>
            rw [ht] at hn
            exact .inl (Session.mem_held.2 ⟨t, ht, hn⟩)
          | none =>
            rw [ht] at hn
            exact .inr ⟨Session.held_eq_nil ht _, List.mem_of_mem_head? hn⟩
        · intro m hm
          obtain ⟨t, ht, hm⟩ := Session.mem_held.1 hm
          unfold Session.link? at hn
          rw [ht] at hn
          exact Option.some.inj (hm.symm.trans hn)
      · refine ⟨s', _, hs', fun log => ?_, .quiet rfl rfl fun _ hn => hn⟩
        rw [hlog]
        simp only [ran, hg, hc, if_neg hname, List.append_nil]

/-- What the commands without steps inside do at each source. -/
theorem steps_run_atom (E : Engine Fault Store Link) (id : String) {c : Command}
    (hc : ∀ level steps, c ≠ .inTransaction level steps) (w : World Store Link) :
    w.Steps E id c (run E id c w).2.2 := by
  cases c with
  | inTransaction level steps => exact absurd rfl (hc level steps)
  | begin level => exact steps_begin E level id w
  | commit => exact steps_finish E .commit id w
  | rollback => exact steps_finish E .rollback id w
  | drop =>
    unfold run
    exact steps_drop E id w
  | through target q => exact steps_through E target q id w
  | fail text =>
    unfold run
    exact .of_quiet (.refl _) (logged_self E id w · (by simp) (by simp)) fun _ _ hn => hn
  | debug =>
    unfold run
    exact .of_quiet (.refl _) (logged_self E id w · (by simp) (by simp)) fun _ _ hn => hn
  | resolve source key =>
    unfold run
    refine .of_quiet (w.quiet_resolve E id source key) (logged_self E id w · (by simp) (by simp))
      fun name n hn => ?_
    rwa [Session.held_congr (transaction_resolve w id source key id)] at hn
  | hold source key =>
    unfold run
    refine .of_quiet (w.quiet_hold id source key) (logged_self E id w · (by simp) (by simp))
      fun name n hn => ?_
    rwa [Session.held_congr (transaction_hold w id source key id)] at hn
  | release key =>
    unfold run
    refine .of_quiet (w.quiet_giveUp key) (logged_self E id w · (by simp) (by simp))
      fun name n hn => ?_
    have hn : n ∈ ((w.giveUp key).2.session id).held name := hn
    rwa [Session.held_congr (transaction_giveUp w key id)] at hn

end Step

/-- The states that commands of sessions lead to, with their logs. -/
inductive Logged (E : Engine Fault Store Link) (start : Registry Store Link) :
    Log Store Link → World Store Link → Prop
  | start : World.Logged E start (fun _ _ => []) ⟨start, []⟩
  | step {log : Log Store Link} {w : World Store Link} (h : World.Logged E start log w) (id : String)
      {c : Command} (hc : ∀ level steps, c ≠ .inTransaction level steps) :
      World.Logged E start (w.logged E id c log) (run E id c w).2.2

/-- All that a run can do is made of commands without steps inside. -/
theorem runAll_logged (E : Engine Fault Store Link) (start : Registry Store Link) (id : String)
    (steps : List Command.Step) : ∃ log, Logged E start log (runAll E id steps ⟨start, []⟩).2 := by
  refine runAll_induction (P := fun w => ∃ log, Logged E start log w) id steps _ ?_ ⟨_, .start⟩
  rintro a ha w ⟨log, h⟩
  exact ⟨_, h.step a.1 (Command.atomsOfSteps_simple id steps a ha)⟩

/-- What holds of every connection that a session holds, given what the session has run on it. -/
def Accounts (P : List (Turn Store Link) → Store → Link → Prop) (log : Log Store Link)
    (w : World Store Link) : Prop :=
  ∀ name s, w.registry.sources.get? name = some s → ∀ id, ∀ n ∈ (w.session id).held name,
    P (log id name) s.pool.store (s.pool.link n)

structure Journaled (E : Engine Fault Store Link) (J : Journal Store Link Contents)
    (control : Sql.Bound → Prop) (log : Log Store Link) (w : World Store Link) : Prop where
  coherent : ∀ name s, w.registry.sources.get? name = some s → J.Coherent s.pool
  records : w.Accounts (fun turns store link => E.autocommit link = false →
    J.Records E control (E.current turns) store link) log

section

variable {E : Engine Fault Store Link} {J : Journal Store Link Contents} {control : Sql.Bound → Prop}
  {w : World Store Link} {id : String} {log : Log Store Link} {start : Registry Store Link}

/-- A command keeps what its steps keep of the connections of its own session, if other connections
can change only what is not written on. -/
theorem Accounts.run_atom {P : List (Turn Store Link) → Store → Link → Prop} (hJ : E.Journals J control)
    (hsound : w.Sound (fun _ _ => True) start fun _ => [])
    (hcoherent : ∀ name s, w.registry.sources.get? name = some s → J.Coherent s.pool)
    {id : String} {c : Command} (hc : ∀ level steps, c ≠ .inTransaction level steps)
    (hown : ∀ {s s' : Source Store Link} {held held' : List Nat}
      {f : List (Turn Store Link) → List (Turn Store Link)} {turns : List (Turn Store Link)},
      J.Coherent s.pool →
      s.Step E c.statements (c = .commit ∧ ¬ (w.session id).isLent = true) held held' f s' →
      (∀ n ∈ held, P turns s.pool.store (s.pool.link n)) →
      ∀ n ∈ held', P (f turns) s'.pool.store (s'.pool.link n))
    (hother : ∀ {turns : List (Turn Store Link)} {store store' : Store} {link : Link},
      (J.writes link → J.committed store' link = J.committed store link ∧
        J.sees store' link = J.sees store link) → P turns store link → P turns store' link)
    (hw : w.Accounts P log) : (run E id c w).2.2.Accounts P (w.logged E id c log) := by
  intro name s' hs' own n hn
  obtain ⟨s, f, hs, hlog, hstep⟩ := steps_run_atom E id hc w name s' hs'
  have hpool := hcoherent name s hs
  by_cases hself : own = id
  · subst hself
    rw [hlog]
    exact hown hpool hstep (hw name s hs own) n hn
  · rw [Session.held_congr (transaction_run_atom hself hc w)] at hn
    obtain ⟨hidle, hothers⟩ := hsound.apart hs hn
    have htends := hstep.tends hJ
    have hnot : ¬ (n ∈ s.pool.idle ∨ n ∈ (w.session id).held name) :=
      not_or.2 ⟨hidle, hothers id (Ne.symm hself)⟩
    have hsame : w.logged E id c log own name = log own name := if_neg hself
    rw [htends.link n hnot, hsame]
    exact hother (htends.under hpool n hnot) (hw name s hs own n hn)

theorem Journaled.run_atom (hJ : E.Journals J control)
    (hsound : w.Sound (fun _ _ => True) start fun _ => []) (hw : w.Journaled E J control log)
    (id : String) {c : Command} (hc : ∀ level steps, c ≠ .inTransaction level steps) :
    (run E id c w).2.2.Journaled E J control (w.logged E id c log) where
  coherent name s' hs' := by
    obtain ⟨s, f, hs, -, hstep⟩ := steps_run_atom E id hc w name s' hs'
    exact (hstep.tends hJ).coherent (hw.coherent name s hs)
  records := hw.records.run_atom hJ hsound hw.coherent hc
    (fun hcoherent hstep hturns n hn => hstep.records hJ hcoherent hturns n hn)
    fun hunder hrecords hopen => (hrecords hopen).of_under hunder

variable {File : Type} {connect : SourceConfig → Except Error (Store × Link)}
  {file : SourceConfig → Option File} {default : String} {sources : List (Source Store Link)}

theorem Logged.sound (hr : Registry.IsOpened connect file default sources start)
    (h : Logged E start log w) : w.Sound (fun _ _ => True) start fun _ => [] := by
  induction h with
  | start => exact sound_start (fun _ _ => True) hr.opened hr.registered fun _ _ _ _ => trivial
  | step _ id hc ih => exact ih.run_atom E.respects_any id hc fun _ _ => trivial

theorem Logged.journaled (hJ : E.Journals J control) (hconnect : ∀ {c store link},
      connect c = .ok (store, link) → J.valid store link ∧ J.apart link link)
    (hr : Registry.IsOpened connect file default sources start) (h : Logged E start log w) :
    w.Journaled E J control log := by
  induction h with
  | start =>
    constructor
    · intro name s hs
      have hin := ((Registry.ofSources_ok hr.registered).2 name s hs).1
      obtain ⟨store, link, hmade, heq⟩ := Source.ofConfig_ok (hr.opened s hin)
      rw [heq]
      exact ⟨fun _ => (hconnect hmade).1, fun _ _ _ => (hconnect hmade).2⟩
    · intro name s hs id n hn
      cases hn
  | step h id hc ih => exact ih.run_atom hJ (h.sound hr) id hc

end

end World

end DataAccess
