import DataAccess.Proofs.Session.Isolation

/-!
Units of work. What runs inside a transaction is a program of its own: it takes steps, looks at their
results, and may itself commit, roll back, begin again or nest another unit. Whatever it does, the
session has no transaction afterwards, the failure of the unit is what is reported, and success means
that the last commit did not fail anywhere. A unit of requests alone is committed as a whole where it
succeeds, and undone as a whole where it fails, unless one of its statements has ended the transaction of
its connection by itself: what it runs there afterwards is committed at once.
-/
namespace DataAccess

variable {Fault Store Link Contents α β : Type} [Reportable Fault]

/-- Commands of sessions, each chosen by the results of those before it, and further units of work in
transactions of their own, up to a result. -/
inductive Work : Type → Type 1 where
  | done {α : Type} (result : Except Error α) : Work α
  | step {α : Type} (own : Option String) (c : Command) (next : Except Error Answer → Work α) :
    Work α
  | inTransaction {α β : Type} (level : Level) (inner : Work β) (next : Except Error β → Work α) :
    Work α

abbrev Statements (Store Link : Type) := String → List (Turn Store Link)

namespace World

def statements (E : Engine Fault Store Link) (id : String) (c : Command) (w : World Store Link) :
    Statements Store Link :=
  match c with
  | .through target q => w.ran E id target q
  | _ => fun _ => []

end World

namespace Work

def run (E : Engine Fault Store Link) (id : String) {α : Type} :
    Work α → World Store Link → Except Error α × Statements Store Link × World Store Link
  | .done result, w => (result, fun _ => [], w)
  | .step own c next, w =>
    let (result, _, w') := World.run E (own.getD id) c w
    let (result, later, w'') := (next result).run E id w'
    (result, fun name => w.statements E (own.getD id) c name ++ later name, w'')
  | .inTransaction level inner next, w =>
    let (result, first, w') := w.inTransaction E id level (inner.run E id) fun _ => []
    let (result, later, w'') := (next result).run E id w'
    (result, fun name => first name ++ later name, w'')

/-- The unit asks for nothing but requests of its own session whose statements are not of a kind. -/
def AsksOnly (control : Sql.Bound → Prop) {α : Type} : Work α → Prop
  | .done _ => True
  | .step own c next => own = none ∧ (∃ target q, c = .through target q) ∧
    (∀ b ∈ c.statements, ¬ control b) ∧ ∀ result, (next result).AsksOnly control
  | .inTransaction _ _ _ => False

def ofSteps : List Command.Step → Work Unit
  | [] => .done (.ok ())
  | (own, c) :: rest => .step own c fun
    | .ok _ => ofSteps rest
    | .error e => .done (.error e)

end Work

def Outcome.ofResult : Except Error α → Outcome
  | .ok _ => .commit
  | .error _ => .rollback

namespace World

variable {E : Engine Fault Store Link} {w w₁ w₂ : World Store Link} {id : String} {level : Level}

section

variable {body : World Store Link → Except Error α × β × World Store Link} {skipped : β}

theorem inTransaction_refused {e : Error}
    (h : w.onSession id (Session.begin E level) = (.error e, w₁)) :
    w.inTransaction E id level body skipped = (.error e, skipped, w₁) := by
  unfold inTransaction
  rw [h]

theorem inTransaction_begun (h : w.onSession id (Session.begin E level) = (.ok (), w₁)) :
    w.inTransaction E id level body skipped =
      (match (body w₁).1 with
        | .ok a => ((body w₁).2.2.onSession id (Session.finish E .commit)).1.map fun _ => a
        | .error e => .error e,
        (body w₁).2.1,
        ((body w₁).2.2.onSession id (Session.finish E (.ofResult (body w₁).1))).2) := by
  unfold inTransaction
  rw [h]
  dsimp only
  cases hb : body w₁ with
  | mk result rest =>
    cases result with
    | ok a => rfl
    | error e => rfl

end

/-- To begin and to end a transaction around a unit are commands of its session. -/
theorem onSession_begin (E : Engine Fault Store Link) (id : String) (level : Level)
    (w : World Store Link) :
    (w.onSession id (Session.begin E level)).2 = (run E id (.begin level) w).2.2 := by
  unfold run
  rfl

theorem onSession_finish (E : Engine Fault Store Link) (id : String) (o : Outcome)
    (w : World Store Link) :
    (w.onSession id (Session.finish E o)).2 = (run E id o.command w).2.2 := by
  rw [run_command]

end World

namespace Work

variable {E : Engine Fault Store Link}

/-- What every command without steps inside keeps, a unit of work keeps. -/
theorem run_induction {P : World Store Link → Prop}
    (h : ∀ id c, (∀ level steps, c ≠ .inTransaction level steps) →
      ∀ w, P w → P (World.run E id c w).2.2)
    (f : Work α) (id : String) (w : World Store Link) (hw : P w) : P (f.run E id w).2.2 := by
  induction f generalizing w with
  | done result => exact hw
  | step own c next ih =>
    refine ih _ _ (World.run_induction (own.getD id) c w (fun a ha => ?_) hw)
    exact h a.1 a.2 (Command.atoms_simple _ c a ha)
  | inTransaction level inner next ihInner ihNext =>
    have hbegin : P (w.onSession id (Session.begin E level)).2 := by
      rw [World.onSession_begin]
      exact h id _ (fun _ _ heq => by cases heq) w hw
    have hinner : P (w.inTransaction E id level (inner.run E id) fun _ => []).2.2 := by
      cases hb : w.onSession id (Session.begin E level) with
      | mk result w₁ =>
        rw [hb] at hbegin
        cases result with
        | error e =>
          rw [World.inTransaction_refused hb]
          exact hbegin
        | ok u =>
          rw [World.inTransaction_begun hb, World.onSession_finish]
          refine h id _ (fun _ _ heq => ?_) _ (ihInner w₁ hbegin)
          cases hr : (inner.run E id w₁).1 <;> rw [hr] at heq <;> cases heq
    exact ihNext _ _ hinner

/-- A unit of work keeps every connection in its place. -/
theorem sound_run {start : Registry Store Link} (f : Work α) (id : String) {w : World Store Link}
    (hw : w.Sound (fun _ _ => True) start fun _ => []) :
    (f.run E id w).2.2.Sound (fun _ _ => True) start fun _ => [] :=
  f.run_induction (fun own _ hc _ hw => hw.run_atom E.respects_any own hc fun _ _ => trivial) id w hw

theorem run_ofSteps (E : Engine Fault Store Link) (id : String) (steps : List Command.Step)
    (w : World Store Link) :
    ((ofSteps steps).run E id w).1 = (World.runUntilFailure E id steps w).1 ∧
      ((ofSteps steps).run E id w).2.2 = (World.runUntilFailure E id steps w).2.2 := by
  induction steps generalizing w with
  | nil =>
    unfold World.runUntilFailure
    exact ⟨rfl, rfl⟩
  | cons step rest ih =>
    obtain ⟨own, c⟩ := step
    unfold World.runUntilFailure ofSteps run
    cases hr : World.run E (own.getD id) c w with
    | mk result after =>
      cases result with
      | error e => simp only [hr, run, and_self]
      | ok a =>
        simp only [hr]
        exact ih after.2

/-- The steps of a command in a transaction are a unit of work. -/
theorem inTransaction_ofSteps (E : Engine Fault Store Link) (id : String) (level : Level)
    (steps : List Command.Step) (w : World Store Link) :
    (World.run E id (.inTransaction level steps) w).1 =
        (w.inTransaction E id level ((ofSteps steps).run E id) fun _ => []).1.map (fun _ => .done) ∧
      (World.run E id (.inTransaction level steps) w).2.2 =
        (w.inTransaction E id level ((ofSteps steps).run E id) fun _ => []).2.2 := by
  unfold World.run
  cases hb : w.onSession id (Session.begin E level) with
  | mk result w₁ =>
    cases result with
    | error e =>
      rw [World.inTransaction_refused hb, World.inTransaction_refused hb]
      exact ⟨rfl, rfl⟩
    | ok u =>
      obtain ⟨hresult, hafter⟩ := run_ofSteps E id steps w₁
      rw [World.inTransaction_begun hb, World.inTransaction_begun hb, hresult, hafter]
      exact ⟨rfl, rfl⟩

end Work

section

variable {E : Engine Fault Store Link} {L : Ledger Store Link Contents}
  {J : Journal Store Link Contents} {control : Sql.Bound → Prop}

theorem Source.changes_of_begin (hE : E.Transacts L) {level : Level} {s s' : Source Store Link}
    {n : Nat} (h : s.begin E level = (.ok n, s')) : s.Changes L n (fun db => db) s' := by
  rcases Source.begin_cases (E := E) level s with
    ⟨-, hnone⟩ | ⟨m, rest, result, store, link, -, ha, hcase⟩
  · rw [hnone] at h
    cases h
  · rw [hcase] at h
    cases result with
    | error e => cases h
    | ok u =>
      cases h
      have hlink : (({ s.pool with idle := rest, store := store } : Pool Store Link).setLink n
          link).link n = link := if_pos rfl
      refine ⟨?_, fun k hk => congrArg L.own (if_neg hk)⟩
      dsimp only
      rw [hlink]
      exact (hE.begun ha).2.2

omit [Reportable Fault] in
/-- What is applied to unchanged contents is applied to those before. -/
theorem Source.Applied.of_changes {s s' s'' : Source Store Link} {n : Nat}
    {turns : List (Turn Store Link)} (h : s.Changes J.toLedger n (fun db => db) s')
    (h' : s'.Applied E J control n turns s'') : s.Applied E J control n turns s'' := by
  obtain ⟨db, hchanges, happlies, hfaithful⟩ := h'
  have hcommitted := h.own.committed
  rw [hcommitted] at happlies
  exact ⟨db, h.trans hchanges, happlies, hfaithful⟩

namespace World

/-- How each source is related to what has become of it, given the connection that a transaction holds
of it. -/
structure Relates (links : Keyed Nat)
    (R : String → Nat → Source Store Link → Source Store Link → Prop) (w w' : World Store Link) :
    Prop where
  names : w'.registry.names = w.registry.names
  source : ∀ name s', w'.registry.sources.get? name = some s' →
    ∃ s n, w.registry.sources.get? name = some s ∧ links.get? name = some n ∧ R name n s s'

variable {w w' w'' w₁ : World Store Link} {id : String} {level : Level} {t : Transaction}
  {log log' log'' : Log Store Link} {start : Registry Store Link} {ran later : Statements Store Link}

section

variable {links : Keyed Nat} {R S T : String → Nat → Source Store Link → Source Store Link → Prop}

omit [Reportable Fault] in
theorem Relates.trans (h : w.Relates links R w') (h' : w'.Relates links S w'')
    (hT : ∀ {name n s s' s''}, R name n s s' → S name n s' s'' → T name n s s'') :
    w.Relates links T w'' := by
  refine ⟨h'.names.trans h.names, fun name s'' hs'' => ?_⟩
  obtain ⟨s', n, hs', hn, hlater⟩ := h'.source name s'' hs''
  obtain ⟨s, m, hs, hm, hfirst⟩ := h.source name s' hs'
  obtain rfl : n = m := Option.some.inj (hn.symm.trans hm)
  exact ⟨s, n, hs, hn, hT hfirst hlater⟩

omit [Reportable Fault] in
theorem relates_of_forall (hlinks : links.keys = w.registry.names)
    (hnames : w'.registry.names = w.registry.names)
    (h : ∀ name s s' n, w.registry.sources.get? name = some s → links.get? name = some n →
      w'.registry.sources.get? name = some s' → R name n s s') : w.Relates links R w' := by
  refine ⟨hnames, fun name s' hs' => ?_⟩
  obtain ⟨s, n, hs, hn⟩ := exists_link hlinks hnames hs'
  exact ⟨s, n, hs, hn, h name s s' n hs hn hs'⟩

end

/-- A session that begins has a transaction with a connection of every source, and no contents are
changed. -/
theorem transaction_of_begin (hE : E.Transacts L)
    (h : w.onSession id (Session.begin E level) = (.ok (), w₁)) :
    ¬ (w.session id).isActive = true ∧ ∃ t, (w₁.session id).transaction = some t ∧
      ∀ name s', w₁.registry.sources.get? name = some s' →
        ∃ s n, w.registry.sources.get? name = some s ∧ t.links.get? name = some n ∧
          s.Changes L n (fun db => db) s' := by
  unfold onSession at h
  rcases Session.begin_cases E level (w.session id) w.registry with
    ⟨e, hb⟩ | ⟨hnone, ⟨links, m, hm, hb⟩ | ⟨e, m, hm, hb⟩⟩
  · rw [hb] at h
    cases h
  · rw [hb] at h
    cases h
    have hidle : ¬ (w.session id).isActive = true := by
      unfold Session.isActive
      rw [hnone]
      exact Bool.false_ne_true
    refine ⟨hidle, ⟨level, links⟩, ?_, fun name s' hs' => ?_⟩
    · rw [session_insert, if_pos rfl]
    · obtain ⟨s, n, hs, hn, hbegin⟩ := Transaction.begun_of_beginAll hm hs'
      exact ⟨s, n, hs, hn, Source.changes_of_begin hE hbegin⟩
  · rw [hb] at h
    cases h

/-- A session that is refused is as it was, and so are all sources if it has a transaction. -/
theorem undisturbed_of_begin {e : Error}
    (h : w.onSession id (Session.begin E level) = (.error e, w₁)) :
    (∀ other, w₁.session other = w.session other) ∧
      ((w.session id).isActive = true → w₁.registry = w.registry) := by
  unfold onSession at h
  rcases Session.begin_cases E level (w.session id) w.registry with
    ⟨f, hb⟩ | ⟨hnone, ⟨links, m, hm, hb⟩ | ⟨f, m, hm, hb⟩⟩
  · rw [hb] at h
    cases h
    exact ⟨session_insert_self w.registry w id, fun _ => rfl⟩
  · rw [hb] at h
    cases h
  · rw [hb] at h
    cases h
    refine ⟨session_insert_self _ w id, fun hactive => ?_⟩
    unfold Session.isActive at hactive
    rw [hnone] at hactive
    cases hactive

/-- A request leaves all sessions as they are. -/
theorem sessions_through (E : Engine Fault Store Link) (id : String) (target : Target) (q : Request)
    (w : World Store Link) : (run E id (.through target q) w).2.2.sessions = w.sessions := by
  unfold run
  cases hg : w.gateway target with
  | error e => rfl
  | ok g => exact (w.get?_request E id g q).1

/-- What requests of a session come to inside its transaction: the log has grown by the statements that
they have run, and no contents are changed where all of these were run inside the transaction. -/
structure Extends (E : Engine Fault Store Link) (L : Ledger Store Link Contents)
    (control : Sql.Bound → Prop) (start : Registry Store Link) (id : String) (t : Transaction)
    (log : Log Store Link) (w : World Store Link) (ran : Statements Store Link)
    (log' : Log Store Link) (w' : World Store Link) : Prop where
  logged : Logged E start log' w'
  log : ∀ name, log' id name = log id name ++ ran name
  allowed : ∀ name, ∀ u ∈ ran name, ¬ control u.sent.bound
  transaction : (w'.session id).transaction = some t
  relates : w.Relates t.links (fun name n s s' =>
    (∀ u ∈ ran name, E.autocommit u.before.2 = false) → s.Changes L n (fun db => db) s') w'

theorem Extends.trans (h : Extends E L control start id t log w ran log' w')
    (h' : Extends E L control start id t log' w' later log'' w'') :
    Extends E L control start id t log w (fun name => ran name ++ later name) log'' w'' where
  logged := h'.logged
  log name := by rw [h'.log, h.log, List.append_assoc]
  allowed name u hu := by
    rcases List.mem_append.1 hu with hu | hu
    · exact h.allowed name u hu
    · exact h'.allowed name u hu
  transaction := h'.transaction
  relates := h.relates.trans h'.relates fun hfirst hlater hbefore =>
    (hfirst fun u hu => hbefore u (List.mem_append_left _ hu)).trans
      (hlater fun u hu => hbefore u (List.mem_append_right _ hu))

omit [Reportable Fault] in
/-- The statements of a request are statements that it asks for. -/
theorem bound_mem_of_ran {target : Target} {q : Request} {name : String} {u : Turn Store Link}
    (hu : u ∈ w.ran E id target q name) : u.sent.bound ∈ q.statements := by
  unfold ran at hu
  cases hg : w.gateway target with
  | error e => simp [hg] at hu
  | ok g =>
    cases hc : (w.session id).connection? g.source w.registry with
    | none => simp [hg, hc] at hu
    | some found =>
      obtain ⟨src, n⟩ := found
      simp only [hg, hc] at hu
      split_ifs at hu with hname
      · rw [← Request.statements_script]
        exact Script.bound_mem_statements u hu
      · cases hu

section

variable {File : Type} {connect : SourceConfig → Except Error (Store × Link)}
  {file : SourceConfig → Option File} {default : String} {sources : List (Source Store Link)}
  (hE : E.Transacts L) (hC : E.Confines L control)
  (hr : Registry.IsOpened connect file default sources start)

include hr

theorem Logged.links (h : Logged E start log w) (ht : (w.session id).transaction = some t) :
    t.links.keys = w.registry.names :=
  (((h.sound hr).wellKept id).links t ht).trans (h.sound hr).names.symm

theorem Extends.refl (h : Logged E start log w) (ht : (w.session id).transaction = some t) :
    Extends E L control start id t log w (fun _ => []) log w where
  logged := h
  log name := (List.append_nil _).symm
  allowed _ _ hu := absurd hu List.not_mem_nil
  transaction := ht
  relates := relates_of_forall (h.links hr ht) rfl fun name s s' n hs hn hs' _ => by
    rw [hs] at hs'
    cases hs'
    exact Source.changes_of_quiet n rfl rfl

include hE hC

theorem Extends.through (h : Logged E start log w) (ht : (w.session id).transaction = some t)
    (target : Target) {q : Request} (hq : ∀ b ∈ q.statements, ¬ control b) :
    Extends E L control start id t log w (w.ran E id target q)
      (w.logged E id (.through target q) log) (run E id (.through target q) w).2.2 where
  logged := h.step id fun _ _ heq => by cases heq
  log name := by
    unfold World.logged
    rw [if_pos rfl]
  allowed name u hu := hq _ (bound_mem_of_ran hu)
  transaction := by
    unfold session
    rw [sessions_through]
    exact ht
  relates := by
    refine relates_of_forall (h.links hr ht) (names_run (h.sound hr) id _) ?_
    intro name s s' n hs hn hs' hbefore
    obtain ⟨s₀, f, hs₀, hlog, hstep⟩ := steps_through E target q id w name s' hs'
    rw [hs] at hs₀
    cases hs₀
    have hheld : (w.session id).held name = [n] := by
      unfold Session.held
      simp [ht, hn]
    have hran : f [] = w.ran E id target q name := by
      rw [← hlog fun _ _ => []]
      unfold World.logged
      rw [if_pos rfl]
      rfl
    refine hstep.changes hE hC hheld (fun u hu => ?_) fun hcommits => by cases hcommits.1
    rw [hran] at hu
    exact ⟨hq _ (bound_mem_of_ran hu), hbefore u hu⟩

/-- A unit that only asks leaves the transaction around it as it is, and its statements in the log. -/
theorem extends_run {f : Work α} (hf : f.AsksOnly control) (h : Logged E start log w)
    (ht : (w.session id).transaction = some t) :
    ∃ log', Extends E L control start id t log w (f.run E id w).2.1 log' (f.run E id w).2.2 := by
  induction f generalizing w log with
  | done result => exact ⟨log, .refl hr h ht⟩
  | step own c next ih =>
    obtain ⟨rfl, ⟨target, q, rfl⟩, hq, hnext⟩ := hf
    have hfirst := Extends.through hE hC hr h ht target hq
    obtain ⟨log', hlater⟩ := ih _ (hnext _) hfirst.logged hfirst.transaction
    exact ⟨log', hfirst.trans hlater⟩
  | inTransaction level inner next ihInner ihNext => exact hf.elim

end

/-- How a transaction around a unit of work has ended, whose own result is given. -/
structure Concludes (E : Engine Fault Store Link) (id : String) (result : Except Error α)
    (w : World Store Link) (outcome : Except Error α) (w' : World Store Link) : Prop where
  inactive : (w'.session id).isActive = false
  released : ∀ name, (w'.session id).held name = []
  /-- The unit has succeeded, and left a transaction that every source has committed. -/
  committed : ∀ a, outcome = .ok a → result = .ok a ∧ ¬ (w.session id).isLent = true ∧
    ∃ t, (w.session id).transaction = some t ∧ t.links.keys = w.registry.names ∧
      ∀ e ∈ w.registry.sources, t.fault? E .commit e = none
  failed : ∀ e, result = .error e → outcome = .error e

/-- A session ends what it has, whether ending fails or not, unless a connection of it is lent. -/
theorem transaction_of_finish (E : Engine Fault Store Link) (o : Outcome)
    (hlent : ¬ (w.session id).isLent = true) :
    ((w.onSession id (Session.finish E o)).2.session id).transaction = none := by
  unfold onSession
  rw [Session.finish_eq, if_neg hlent]
  cases ht : (w.session id).transaction with
  | none =>
    dsimp only
    rw [session_insert_self]
    exact ht
  | some t =>
    dsimp only
    rw [session_insert, if_pos rfl]

theorem faults_of_finish {o : Outcome} (h : (w.onSession id (Session.finish E o)).1 = .ok ()) :
    ∃ t, (w.session id).transaction = some t ∧
      ∀ e ∈ w.registry.sources, t.fault? E o e = none := by
  unfold onSession at h
  rw [Session.finish_eq] at h
  split_ifs at h with hlent
  cases ht : (w.session id).transaction with
  | none =>
    rw [ht] at h
    cases h
  | some t =>
    rw [ht] at h
    refine ⟨t, rfl, ?_⟩
    dsimp only at h
    cases hfaults : w.registry.sources.findSome? (t.fault? E o) with
    | none => simpa using hfaults
    | some f =>
      rw [hfaults] at h
      cases h

theorem concludes_finish (hw : w.Sound (fun _ _ => True) start fun _ => [])
    (hlent : ¬ (w.session id).isLent = true) (result : Except Error α) :
    Concludes E id result w
      (match result with
        | .ok a => (w.onSession id (Session.finish E .commit)).1.map fun _ => a
        | .error e => .error e)
      (w.onSession id (Session.finish E (.ofResult result))).2 where
  inactive := by
    unfold Session.isActive
    rw [transaction_of_finish E _ hlent]
    rfl
  released := Session.held_eq_nil (transaction_of_finish E _ hlent)
  committed a h := by
    cases result with
    | error e => cases h
    | ok b =>
      dsimp only at h
      cases hfinish : (w.onSession id (Session.finish E .commit)).1 with
      | error e =>
        rw [hfinish] at h
        cases h
      | ok u =>
        rw [hfinish] at h
        cases h
        obtain ⟨t, ht, hfaults⟩ := faults_of_finish hfinish
        exact ⟨rfl, hlent, t, ht, ((hw.wellKept id).links t ht).trans hw.names.symm, hfaults⟩
  failed e h := by rw [h]

section

variable {File : Type} {connect : SourceConfig → Except Error (Store × Link)}
  {file : SourceConfig → Option File} {default : String} {sources : List (Source Store Link)}

/-- A commit at the end of a unit applies its statements, which were all run inside the transaction. -/
theorem Extends.applied_of_commit (hE : E.Transacts J.toLedger) (hC : E.Confines J.toLedger control)
    (hJ : E.Journals J control) (hconnect : ∀ {c store link}, connect c = .ok (store, link) →
      J.valid store link ∧ J.apart link link)
    (hr : Registry.IsOpened connect file default sources start)
    (h : Extends E J.toLedger control start id t log w ran log' w')
    (hlog : ∀ name, log id name = [])
    (hlent : ¬ (w'.session id).isLent = true)
    (hcommit : (w'.onSession id (Session.finish E .commit)).1 = .ok ()) {name : String}
    {s s' : Source Store Link} {n : Nat} (hs : w'.registry.sources.get? name = some s)
    (hn : t.links.get? name = some n)
    (hs' : (run E id .commit w').2.2.registry.sources.get? name = some s') :
    s.Applied E J control n (ran name) s' ∧ ∀ u ∈ ran name, u.IsInside E := by
  obtain ⟨t', ht', hfaults⟩ := faults_of_finish hcommit
  rw [h.transaction] at ht'
  cases ht'
  have hresult : (E.commit s.pool.store (s.pool.link n)).1 = .ok () := by
    have hfault := hfaults (name, s) (Keyed.mem_of_get?_eq_some hs)
    unfold Transaction.fault? at hfault
    rw [hn] at hfault
    unfold Outcome.statement at hfault
    cases hc : (E.commit s.pool.store (s.pool.link n)).1 with
    | ok u => rfl
    | error f => simp [hc] at hfault
  have hran : log' id name = ran name := by rw [h.log, hlog, List.nil_append]
  have hsound := h.logged.sound hr
  have hascending := (Registry.ofSources_ok hr.registered).1.of_keys hsound.names
  have happlied := applied_of_commits hE hJ (h.logged.journaled hJ hconnect hr) h.transaction
    (h.logged.links hr h.transaction) hascending hs hn hs' ⟨rfl, hlent, hresult⟩
  have hinside := h.logged.isInside hC hJ hconnect hr name s hs id n
    (Session.mem_held.2 ⟨t, h.transaction, hn⟩)
  rw [hran] at happlied hinside
  have hall := hinside (h.allowed name) (hE.commit_done (Prod.ext hresult rfl))
  have hcurrent : E.current (ran name) = ran name := E.foldl_note hall []
  rw [hcurrent] at happlied
  exact ⟨happlied, hall⟩

/-- A unit of requests that is rolled back has changed nothing where all its statements were run inside
the transaction, and one that is committed has applied them all. -/
theorem relates_of_unit (hE : E.Transacts J.toLedger) (hC : E.Confines J.toLedger control)
    (hr : Registry.IsOpened connect file default sources start) {f : Work α}
    (hf : f.AsksOnly control) (h : Logged E start log w)
    (hb : w.onSession id (Session.begin E level) = (.ok (), w₁))
    (hlent : ¬ ((f.run E id w₁).2.2.session id).isLent = true) :
    ∃ t, (w₁.session id).transaction = some t ∧
      w.Relates t.links (fun name n s s' =>
        (∀ u ∈ (f.run E id w₁).2.1 name, E.autocommit u.before.2 = false) →
          s.Changes J.toLedger n (fun db => db) s')
        ((f.run E id w₁).2.2.onSession id (Session.finish E .rollback)).2 ∧
      (E.Journals J control →
        (∀ {c store link}, connect c = .ok (store, link) →
          J.valid store link ∧ J.apart link link) →
        ((f.run E id w₁).2.2.onSession id (Session.finish E .commit)).1 = .ok () →
        w.Relates t.links (fun name n s s' =>
          s.Applied E J control n ((f.run E id w₁).2.1 name) s')
          ((f.run E id w₁).2.2.onSession id (Session.finish E .commit)).2) := by
  obtain ⟨hidle, t, ht, hbegun⟩ := transaction_of_begin hE hb
  have hw₁ : (run E id (.begin level) w).2.2 = w₁ := by rw [← onSession_begin, hb]
  have hlogged₁ := h.step id (c := .begin level) fun _ _ heq => by cases heq
  have hnames := names_run (h.sound hr) id (E := E) (.begin level)
  rw [hw₁] at hlogged₁ hnames
  have hbegin : w.Relates t.links (fun _ n s s' => s.Changes J.toLedger n (fun db => db) s') w₁ :=
    ⟨hnames, hbegun⟩
  obtain ⟨log', hextends⟩ := extends_run hE hC hr hf hlogged₁ ht
  have hnone (name : String) : w.logged E id (.begin level) log id name = [] := by
    unfold logged
    rw [if_pos rfl, if_neg hidle]
  have hbody : w.Relates t.links (fun name n s s' =>
      (∀ u ∈ (f.run E id w₁).2.1 name, E.autocommit u.before.2 = false) →
        s.Changes J.toLedger n (fun db => db) s') (f.run E id w₁).2.2 :=
    hbegin.trans hextends.relates fun hfirst hlater hbefore => hfirst.trans (hlater hbefore)
  have hlinks := hextends.logged.links hr hextends.transaction
  have hsound := hextends.logged.sound hr
  refine ⟨t, ht, ?_, fun hJ hconnect hcommit => ?_⟩
  · rw [onSession_finish]
    have hends := relates_of_forall hlinks (names_run hsound id Outcome.rollback.command)
      fun name s s' n hs hn hs' => changes_of_not_commits hE hC hextends.transaction hn hs hs'
        (fun b hb => absurd hb List.not_mem_nil) (.inl rfl) fun h => by cases h.1
    exact hbody.trans hends fun hfirst hlater hbefore => (hfirst hbefore).trans hlater
  · rw [onSession_finish]
    have hends := relates_of_forall hlinks (names_run hsound id Outcome.commit.command)
      fun name s s' n hs hn hs' =>
        hextends.applied_of_commit hE hC hJ hconnect hr hnone hlent hcommit hs hn hs'
    exact hbody.trans hends fun hfirst hlater =>
      .of_changes (hfirst fun u hu => (hlater.2 u hu).1) hlater.1

end

/-- In every state of a run, a transaction around a unit of work either does not begin, and then nothing
of the unit is run, or it is over afterwards, unless the unit has kept a connection of it. Success is
reported only if the unit has reported it and the commit at its end has failed on no source, and the
failure of the unit whatever the rollback does. If success is reported of a unit of requests, all its
statements are applied. One that has failed has changed nothing at a source where each of its statements
was run inside the transaction. -/
theorem runAll_inTransaction_ends (hE : E.Transacts J.toLedger) (hC : E.Confines J.toLedger control)
    {File : Type} {connect : SourceConfig → Except Error (Store × Link)}
    {file : SourceConfig → Option File} {default : String} {sources : List (Source Store Link)}
    {r : Registry Store Link} (hr : Registry.IsOpened connect file default sources r) (id : String)
    (steps : List Command.Step) (hw : (runAll E id steps ⟨r, []⟩).2 = w) (own : String)
    (level : Level) (f : Work α) :
    match w.onSession own (Session.begin E level) with
    | (.error e, w₁) =>
      w.inTransaction E own level (f.run E own) (fun _ => []) = (.error e, fun _ => [], w₁) ∧
        (∀ other, w₁.session other = w.session other) ∧
        ((w.session own).isActive = true → w₁.registry = w.registry)
    | (.ok (), w₁) =>
      ∀ result ran w₂, f.run E own w₁ = (result, ran, w₂) → ¬ (w₂.session own).isLent = true →
        ∃ outcome w',
          w.inTransaction E own level (f.run E own) (fun _ => []) = (outcome, ran, w') ∧
          Concludes E own result w₂ outcome w' ∧
          (f.AsksOnly control → ∃ t, (w₁.session own).transaction = some t ∧
            (∀ e, result = .error e → w.Relates t.links (fun name n s s' =>
              (∀ u ∈ ran name, E.autocommit u.before.2 = false) →
                s.Changes J.toLedger n (fun db => db) s') w') ∧
            (E.Journals J control →
              (∀ {c store link}, connect c = .ok (store, link) →
                J.valid store link ∧ J.apart link link) →
              ∀ a, outcome = .ok a → w.Relates t.links (fun name n s s' =>
                s.Applied E J control n (ran name) s') w')) := by
  obtain ⟨log, hlogged⟩ := runAll_logged E r id steps
  rw [hw] at hlogged
  have hsound := hlogged.sound hr
  cases hb : w.onSession own (Session.begin E level) with
  | mk begun w₁ =>
    cases begun with
    | error e => exact ⟨inTransaction_refused hb, undisturbed_of_begin hb⟩
    | ok u =>
      intro result ran w₂ hrun hlent
      have hsound₁ : w₁.Sound (fun _ _ => True) r fun _ => [] := by
        have hbegun := hsound.run_atom E.respects_any own (c := .begin level)
          (fun _ _ heq => by cases heq) fun _ _ => trivial
        rwa [← onSession_begin, hb] at hbegun
      have hsound₂ := f.sound_run (E := E) own hsound₁
      have hin : w.inTransaction E own level (f.run E own) (fun _ => []) = _ :=
        inTransaction_begun hb
      rw [hrun] at hin hsound₂
      have hends := concludes_finish (E := E) hsound₂ hlent result
      refine ⟨_, _, hin, hends, fun hf => ?_⟩
      have hunit := relates_of_unit hE hC hr hf hlogged hb
      rw [hrun] at hunit
      obtain ⟨t, ht, hrollback, hcommit⟩ := hunit hlent
      refine ⟨t, ht, fun e he => ?_, fun hJ hconnect a ha => ?_⟩
      · rw [he]
        exact hrollback
      · have hresult := (hends.committed a ha).1
        dsimp only at ha
        rw [hresult] at ha ⊢
        refine hcommit hJ hconnect ?_
        cases hfinish : (w₂.onSession own (Session.finish E .commit)).1 with
        | ok u => rfl
        | error e =>
          rw [hfinish] at ha
          cases ha

end World

end

namespace World

def noting : Command :=
  .through .default (.exec "insert into notes (id, tag) values (1, 'x')" .none)

/-- A unit that writes a note is run without failure and applied; one that tries to write it twice
fails and changes nothing. -/
theorem runAll_inTransaction_ends_inFile :
    ∃ r, Registry.ofSources "main" [Database.inFile] = .ok r ∧
      (∃ t ran w', (⟨r, []⟩ : World _ _).inTransaction Database.engine "a" .readCommitted
          ((Work.ofSteps [(none, noting)]).run Database.engine "a") (fun _ => []) = (.ok (), ran, w') ∧
        (ran "main").map (·.failed) = [false] ∧
        Relates t (fun name n s s' => s.Applied Database.engine Database.journal
          (fun b => Database.isControl b = true) n (ran name) s') ⟨r, []⟩ w') ∧
      ∃ e ran w' s s' n, (⟨r, []⟩ : World _ _).inTransaction Database.engine "a" .readCommitted
          ((Work.ofSteps [(none, noting), (none, noting)]).run Database.engine "a") (fun _ => []) =
            (.error e, ran, w') ∧
        (ran "main").map (·.failed) = [false, true] ∧ r.sources.get? "main" = some s ∧
        w'.registry.sources.get? "main" = some s' ∧
        Source.Changes Database.ledger n (fun db => db) s s' := by
  obtain ⟨r, hr⟩ := Database.exists_registry_of_inFile
  set w : World Database.Store Database.Link := ⟨r, []⟩ with hw
  set w₁ := (w.onSession "a" (Session.begin Database.engine .readCommitted)).2 with hw₁
  have hbegun : w.onSession "a" (Session.begin Database.engine .readCommitted) = (.ok (), w₁) := by
    cases hr
    rfl
  have hends (steps : List Command.Step) := runAll_inTransaction_ends (J := Database.journal)
    Database.transacts_engine Database.confines_engine (Database.isOpened_inFile hr) "a" []
    (rfl : _ = w) "a" .readCommitted (Work.ofSteps steps)
  rw [hbegun] at hends
  have hasks : ∀ steps : List Command.Step, (∀ step ∈ steps, step = (none, noting)) →
      (Work.ofSteps steps).AsksOnly fun b => Database.isControl b = true := by
    intro steps hsteps
    induction steps with
    | nil => trivial
    | cons step rest ih =>
      rw [hsteps step List.mem_cons_self]
      refine ⟨rfl, ⟨_, _, rfl⟩, by decide +kernel, fun result => ?_⟩
      cases result with
      | ok a => exact ih fun u hu => hsteps u (List.mem_cons_of_mem step hu)
      | error e => trivial
  have hunit (steps : List Command.Step) := hends steps
    ((Work.ofSteps steps).run Database.engine "a" w₁).1
    ((Work.ofSteps steps).run Database.engine "a" w₁).2.1
    ((Work.ofSteps steps).run Database.engine "a" w₁).2.2 rfl
  refine ⟨r, hr, ?_, ?_⟩
  · specialize hunit [(none, noting)]
    generalize hrun : (Work.ofSteps [(none, noting)]).run Database.engine "a" w₁ = out at hunit
    have hstate : (out.2.2.session "a").isLent = false ∧
        (out.2.1 "main").map (·.failed) = [false] ∧
        (w.inTransaction Database.engine "a" .readCommitted
          ((Work.ofSteps [(none, noting)]).run Database.engine "a") fun _ => []).1.toBool = true := by
      rw [← hrun]
      cases hr
      decide +kernel
    obtain ⟨hlent, hran, hok⟩ := hstate
    obtain ⟨outcome, w', hin, -, hcontents⟩ := hunit (by simp [hlent])
    obtain ⟨t, -, -, happlied⟩ := hcontents (hasks _ (by simp))
    rw [hin] at hok
    cases outcome with
    | error e => cases hok
    | ok u =>
      exact ⟨t.links, _, w', hin, hran, happlied Database.journals_engine Database.connect_apart u rfl⟩
  · specialize hunit [(none, noting), (none, noting)]
    generalize hrun : (Work.ofSteps [(none, noting), (none, noting)]).run Database.engine "a" w₁ =
      out at hunit
    have hstate : (out.2.2.session "a").isLent = false ∧
        (out.2.1 "main").map (·.failed) = [false, true] ∧ out.1.toBool = false ∧
        ((out.2.1 "main").all fun u => !u.before.2.isAutocommit) = true ∧
        ((w.inTransaction Database.engine "a" .readCommitted
          ((Work.ofSteps [(none, noting), (none, noting)]).run Database.engine "a")
            fun _ => []).2.2.registry.sources.get? "main").isSome = true := by
      rw [← hrun]
      cases hr
      decide +kernel
    obtain ⟨hlent, hran, hfails, hbefore, hafter⟩ := hstate
    obtain ⟨outcome, w', hin, hconcludes, hcontents⟩ := hunit (by simp [hlent])
    obtain ⟨t, -, hundone, -⟩ := hcontents (hasks _ (by simp))
    cases hresult : out.1 with
    | ok u => simp [hresult, Except.toBool] at hfails
    | error e =>
      rw [hin] at hafter
      obtain ⟨s', hs'⟩ := Option.isSome_iff_exists.1 hafter
      obtain ⟨s, n, hs, -, hkeeps⟩ := (hundone e hresult).source "main" s' hs'
      rw [hconcludes.failed e hresult] at hin
      refine ⟨e, _, w', s, s', n, hin, hran, hs, hs', hkeeps fun u hu => ?_⟩
      have hopen : u.before.2.isAutocommit = false := by simpa using List.all_eq_true.1 hbefore u hu
      exact hopen

/-- Takes steps whatever becomes of them, and fails in the end. -/
def heedless : List Command.Step → Work Unit
  | [] => .done (.error (.transaction (.stated "late")))
  | (own, c) :: rest => .step own c fun _ => heedless rest

/-- A unit goes on after one of its statements has ended the transaction. What it has inserted since is
there although the unit has failed. -/
theorem inTransaction_escapes_ended :
    ∃ r w' s s', Registry.ofSources "main" [Database.inFile] = .ok r ∧
      (heedless (exhausting ++ [(none, opening)])).AsksOnly (fun b => Database.isControl b = true) ∧
      ((⟨r, []⟩ : World _ _).inTransaction Database.engine "a" .readCommitted
        ((heedless (exhausting ++ [(none, opening)])).run Database.engine "a") fun _ => []).1 =
          .error (.transaction (.stated "late")) ∧
      ((⟨r, []⟩ : World _ _).inTransaction Database.engine "a" .readCommitted
        ((heedless (exhausting ++ [(none, opening)])).run Database.engine "a") fun _ => []).2.2 = w' ∧
      r.sources.get? "main" = some s ∧ w'.registry.sources.get? "main" = some s' ∧
      (s.pool.store.committed.rows (some "accounts")).length = 0 ∧
      (s'.pool.store.committed.rows (some "accounts")).length = 1 := by
  obtain ⟨r, hr⟩ := Database.exists_registry_of_inFile
  set out := (⟨r, []⟩ : World _ _).inTransaction Database.engine "a" .readCommitted
    ((heedless (exhausting ++ [(none, opening)])).run Database.engine "a") fun _ => [] with hout
  have hasks : (heedless (exhausting ++ [(none, opening)])).AsksOnly
      fun b => Database.isControl b = true := by
    have hfree : ∀ b ∈ ((exhausting ++ [(none, opening)]).flatMap fun step : Command.Step =>
        step.2.statements),
        ¬ Database.isControl b = true := by decide +kernel
    refine ⟨rfl, ⟨_, _, rfl⟩, fun b hb => hfree b ?_, fun _ => ⟨rfl, ⟨_, _, rfl⟩, fun b hb => hfree b ?_,
      fun _ => ⟨rfl, ⟨_, _, rfl⟩, fun b hb => hfree b ?_, fun _ => trivial⟩⟩⟩
    · exact List.mem_append_left _ hb
    · exact List.mem_append_right _ (List.mem_append_left _ hb)
    · exact List.mem_append_right _ (List.mem_append_right _ (List.mem_append_left _ hb))
  have hstate : failure? out.1 = some (.transaction (.stated "late")) ∧
      (r.sources.get? "main").map
        (fun s => (s.pool.store.committed.rows (some "accounts")).length) = some 0 ∧
      (out.2.2.registry.sources.get? "main").map
        (fun s => (s.pool.store.committed.rows (some "accounts")).length) = some 1 := by
    rw [hout]
    cases hr
    decide +kernel
  obtain ⟨hresult, hbefore, hafter⟩ := hstate
  obtain ⟨s, hs, hbefore⟩ := Option.map_eq_some_iff.1 hbefore
  obtain ⟨s', hs', hafter⟩ := Option.map_eq_some_iff.1 hafter
  have hfails : out.1 = .error (.transaction (.stated "late")) := by
    cases h : out.1 with
    | ok u =>
      rw [h] at hresult
      cases hresult
    | error e =>
      rw [h] at hresult
      exact congrArg _ (Option.some.inj hresult)
  exact ⟨r, out.2.2, s, s', hr, hasks, hfails, rfl, hs, hs', hbefore, hafter⟩

end World

end DataAccess
