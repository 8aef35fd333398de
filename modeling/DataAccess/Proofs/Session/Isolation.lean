import DataAccess.Proofs.Database.Confinement
import DataAccess.Proofs.Session.Ending

/-!
Isolation. While its transactions are open, nothing that a session does changes committed contents but a
commit that succeeds, and that makes of them what its statements have made. A statement that ends the
transaction of its connection by itself takes this away from those after it: the session goes on to use
the connection, and what they write is committed at once.
-/
namespace DataAccess

variable {Fault Store Link Contents : Type} [Reportable Fault]

namespace Source.Step

variable {E : Engine Fault Store Link} {L : Ledger Store Link Contents} {control : Sql.Bound → Prop}
  {asked : List Sql.Bound} {commits : Prop} {s s' : Source Store Link} {held held' : List Nat}
  {f : List (Turn Store Link) → List (Turn Store Link)} {turns : List (Turn Store Link)} {n : Nat}

/-- A step of a session changes no contents unless it commits. -/
theorem changes (hE : E.Transacts L) (hC : E.Confines L control)
    (h : s.Step E asked commits held held' f s') (hheld : held = [n])
    (hturns : ∀ t ∈ f [], ¬ control t.sent.bound ∧ E.autocommit t.before.2 = false)
    (hcommits : commits → (E.commit s.pool.store (s.pool.link n)).1 ≠ .ok ()) :
    s.Changes L n (fun db => db) s' := by
  cases h with
  | quiet hstore hlink _ => exact changes_of_quiet n hstore hlink
  | begun _ hnone _ | unbegun _ hnone _ =>
    rw [hheld] at hnone
    cases hnone
  | @ended o level m s₀ hstore hlink ho hm _ =>
    rw [hheld, List.mem_singleton] at hm
    subst hm
    refine (changes_of_quiet m hstore hlink).trans (Source.changes_finish hE level fun heq => ?_)
    rw [hstore, hlink]
    exact hcommits (ho heq)
  | @ran c m hc hm _ _ =>
    rw [hheld] at hm
    obtain rfl : m = n := by simpa using hm
    have hlink : (s.after m (c.run E s.pool.store (s.pool.link m)).2).pool.link m =
        (c.run E s.pool.store (s.pool.link m)).2.2 := if_pos rfl
    refine ⟨?_, fun k hk => congrArg L.own (if_neg hk)⟩
    rw [hlink]
    exact c.keeps_run hC s.pool.store (s.pool.link m) hturns

/-- The statements of a step are run inside a transaction that is open before it. -/
theorem before (hC : E.Confines L control) (h : s.Step E asked commits held held' f s')
    (hasked : ∀ b ∈ asked, ¬ control b) (hheld : held = [n])
    (hopen : asked = [] ∨ E.autocommit (s.pool.link n) = false) :
    ∀ t ∈ f [], ¬ control t.sent.bound ∧ E.autocommit t.before.2 = false := by
  cases h with
  | quiet _ _ _ | begun _ _ _ | unbegun _ _ _ | ended _ _ _ _ _ =>
    exact fun _ ht => absurd ht List.not_mem_nil
  | @ran c m hc hm _ _ =>
    rw [hheld] at hm
    obtain rfl : m = n := by simpa using hm
    intro t ht
    have hmem := hc _ (Script.bound_mem_statements t ht)
    refine ⟨hasked _ hmem, ?_⟩
    rcases hopen with hnone | hopen
    · rw [hnone] at hmem
      cases hmem
    · exact c.before_run hC (fun b hb => hasked b (hc b hb)) s.pool.store hopen t ht

/-- The statements of a transaction that is open afterwards were all run inside it. -/
theorem isInside (hC : E.Confines L control) (h : s.Step E asked commits held held' f s')
    (hturns : ∀ n ∈ held, (∀ t ∈ turns, ¬ control t.sent.bound) →
      E.autocommit (s.pool.link n) = false → ∀ t ∈ turns, t.IsInside E) :
    ∀ n ∈ held', (∀ t ∈ f turns, ¬ control t.sent.bound) →
      E.autocommit (s'.pool.link n) = false → ∀ t ∈ f turns, t.IsInside E := by
  intro n hn hcontrol hopen
  cases h with
  | quiet hstore hlink hheld =>
    rw [hlink] at hopen
    exact hturns n (hheld n hn) hcontrol hopen
  | begun _ _ _ | unbegun _ _ _ => exact fun _ ht => absurd ht List.not_mem_nil
  | ended _ _ _ _ hheld =>
    rw [hheld] at hn
    cases hn
  | @ran c m _ _ hone hheld =>
    rw [hheld] at hn
    obtain rfl := hone n hn
    have hlink : (s.after n (c.run E s.pool.store (s.pool.link n)).2).pool.link n =
        (c.run E s.pool.store (s.pool.link n)).2.2 := if_pos rfl
    rw [hlink] at hopen
    obtain ⟨hbefore, hinside⟩ := c.isInside_run hC s.pool.store (s.pool.link n)
      (fun t ht => hcontrol t (List.mem_append_right _ ht)) hopen
    intro t ht
    rcases List.mem_append.1 ht with ht | ht
    · exact hturns n hn (fun u hu => hcontrol u (List.mem_append_left _ hu)) hbefore t ht
    · exact hinside t ht

end Source.Step

namespace World

variable {E : Engine Fault Store Link} {L : Ledger Store Link Contents}
  {J : Journal Store Link Contents} {control : Sql.Bound → Prop} {w w' : World Store Link}
  {id : String} {t : Transaction} {log : Log Store Link} {start : Registry Store Link}

omit [Reportable Fault] in
theorem exists_link {links : Keyed Nat} (hlinks : links.keys = w.registry.names)
    (hnames : w'.registry.names = w.registry.names) {name : String} {s' : Source Store Link}
    (hs' : w'.registry.sources.get? name = some s') :
    ∃ s n, w.registry.sources.get? name = some s ∧ links.get? name = some n := by
  have hs : w.registry.sources.get? name ≠ none := by
    rw [Ne, Keyed.get?_eq_none_iff, ← Registry.names, ← hnames, Registry.names,
      ← Keyed.get?_eq_none_iff, hs']
    exact Option.some_ne_none s'
  have hn : links.get? name ≠ none := by
    rw [Ne, Keyed.get?_eq_none_iff, hlinks, Registry.names, ← Keyed.get?_eq_none_iff]
    exact hs
  obtain ⟨s, hs⟩ := Option.ne_none_iff_exists'.1 hs
  obtain ⟨n, hn⟩ := Option.ne_none_iff_exists'.1 hn
  exact ⟨s, n, hs, hn⟩

theorem names_run (hw : w.Sound (fun _ _ => True) start fun _ => []) (id : String) (c : Command) :
    (run E id c w).2.2.registry.names = w.registry.names := by
  have hafter := run_induction (P := fun w => w.Sound (fun _ _ => True) start fun _ => []) (E := E)
    id c w (fun a ha w hw => hw.run_atom E.respects_any a.1 (Command.atoms_simple id c a ha)
      fun _ _ => trivial) hw
  exact hafter.names.trans hw.names.symm

/-- A session with a transaction does not run steps in another. -/
theorem registry_inTransaction (ht : (w.session id).transaction = some t) (level : Level)
    (steps : List (Option String × Command)) :
    (run E id (.inTransaction level steps) w).2.2.registry = w.registry := by
  unfold run inTransaction onSession
  rcases Session.begin_cases E level (w.session id) w.registry with ⟨e, hb⟩ | ⟨hnone, -⟩
  · rw [hb]
  · rw [ht] at hnone
    cases hnone

def Commits (E : Engine Fault Store Link) (id : String) (c : Command) (w : World Store Link)
    (s : Source Store Link) (n : Nat) : Prop :=
  c = .commit ∧ ¬ (w.session id).isLent = true ∧
    (E.commit s.pool.store (s.pool.link n)).1 = .ok ()

section

variable {c : Command} {name : String} {s s' : Source Store Link} {n : Nat}

theorem changes_of_not_commits (hE : E.Transacts L) (hC : E.Confines L control)
    (ht : (w.session id).transaction = some t) (hn : t.links.get? name = some n)
    (hs : w.registry.sources.get? name = some s)
    (hs' : (run E id c w).2.2.registry.sources.get? name = some s')
    (hc : ∀ b ∈ c.statements, ¬ control b)
    (hopen : c.statements = [] ∨ E.autocommit (s.pool.link n) = false)
    (hnot : ¬ w.Commits E id c s n) : s.Changes L n (fun db => db) s' := by
  by_cases hcomposite : ∃ level steps, c = .inTransaction level steps
  · obtain ⟨level, steps, rfl⟩ := hcomposite
    rw [registry_inTransaction ht, hs] at hs'
    cases hs'
    exact Source.changes_of_quiet n rfl rfl
  · obtain ⟨s₀, f, hs₀, -, hstep⟩ := steps_run_atom E id (by simpa using hcomposite) w name s' hs'
    rw [hs] at hs₀
    cases hs₀
    have hheld : (w.session id).held name = [n] := by
      unfold Session.held
      simp [ht, hn]
    exact hstep.changes hE hC hheld (hstep.before hC hc hheld hopen) fun hcommits hresult =>
      hnot ⟨hcommits.1, hcommits.2, hresult⟩

theorem applied_of_commits (hE : E.Transacts J.toLedger) (hJ : E.Journals J control)
    (hw : w.Journaled E J control log) (ht : (w.session id).transaction = some t)
    (hlinks : t.links.keys = w.registry.names) (hascending : w.registry.sources.Ascending)
    (hs : w.registry.sources.get? name = some s) (hn : t.links.get? name = some n)
    (hs' : (run E id c w).2.2.registry.sources.get? name = some s') (hc : w.Commits E id c s n) :
    s.Applied E J control n (E.current (log id name)) s' := by
  obtain ⟨rfl, hlent, hresult⟩ := hc
  have hrun := run_command E .commit id w
  unfold Outcome.command at hrun
  rw [hrun] at hs'
  unfold onSession at hs'
  rw [Session.finish_eq, if_neg hlent, ht] at hs'
  obtain ⟨s₀, m, hs₀, hm, hended⟩ :=
    (hasEnded_finishAll hE hJ hw .commit ht hlinks hascending).source name s' hs'
  rw [hs] at hs₀
  cases hs₀
  rw [hn] at hm
  cases hm
  exact hended.committed rfl hresult

end

section

variable {File : Type} {connect : SourceConfig → Except Error (Store × Link)}
  {file : SourceConfig → Option File} {default : String} {sources : List (Source Store Link)}

/-- Where no statement of a transaction controls transactions, those that the session has run since it
began are those of the transaction, if that is open. -/
theorem Logged.isInside (hC : E.Confines L control) (hJ : E.Journals J control)
    (hconnect : ∀ {c store link}, connect c = .ok (store, link) →
      J.valid store link ∧ J.apart link link)
    (hr : Registry.IsOpened connect file default sources start) (h : Logged E start log w) :
    w.Accounts (fun turns _ link => (∀ u ∈ turns, ¬ control u.sent.bound) →
      E.autocommit link = false → ∀ u ∈ turns, u.IsInside E) log := by
  induction h with
  | start =>
    intro name s hs id n hn
    cases hn
  | step h id hc ih =>
    exact ih.run_atom hJ (h.sound hr) (h.journaled hJ hconnect hr).coherent hc
      (fun _ hstep hturns => hstep.isInside hC hturns) fun _ hturns => hturns

end

/-- In every state that commands of sessions lead to, whatever a session with a transaction does next
changes no committed contents, but a commit that succeeds at a source: that makes of them what the
statements have made that the session has run there since it began. For a command that runs a
statement it is so where no statement has ended the transaction of the connection by itself. -/
theorem logged_isolated {E : Engine Fault Store Link} {J : Journal Store Link Contents}
    {control : Sql.Bound → Prop} (hE : E.Transacts J.toLedger) (hC : E.Confines J.toLedger control)
    {File : Type} {connect : SourceConfig → Except Error (Store × Link)}
    {file : SourceConfig → Option File} {default : String} {sources : List (Source Store Link)}
    {r : Registry Store Link} (hr : Registry.IsOpened connect file default sources r) :
    (∀ id steps, ∃ log, Logged E r log (runAll E id steps ⟨r, []⟩).2) ∧
    ∀ log w, Logged E r log w → ∀ id t, (w.session id).transaction = some t →
      ∀ c name s', (run E id c w).2.2.registry.sources.get? name = some s' →
        ∃ s n, w.registry.sources.get? name = some s ∧ t.links.get? name = some n ∧
          ((∀ b ∈ c.statements, ¬ control b) →
            (c.statements = [] ∨ E.autocommit (s.pool.link n) = false) →
            ¬ w.Commits E id c s n → s.Changes J.toLedger n (fun db => db) s') ∧
          (E.Journals J control →
            (∀ {c store link}, connect c = .ok (store, link) →
              J.valid store link ∧ J.apart link link) →
            (∀ u ∈ log id name, ¬ control u.sent.bound) →
            w.Commits E id c s n → s.Applied E J control n (log id name) s') := by
  refine ⟨runAll_logged E r, ?_⟩
  intro log w h id t ht c name s' hs'
  have hsound := h.sound hr
  have hlinks := ((hsound.wellKept id).links t ht).trans hsound.names.symm
  obtain ⟨s, n, hs, hn⟩ := exists_link hlinks (names_run hsound id c) hs'
  refine ⟨s, n, hs, hn, changes_of_not_commits hE hC ht hn hs hs', ?_⟩
  intro hJ hconnect hcontrol hcommits
  have hascending := (Registry.ofSources_ok hr.registered).1.of_keys hsound.names
  have happlied := applied_of_commits hE hJ (h.journaled hJ hconnect hr) ht hlinks hascending hs hn
    hs' hcommits
  have hopen := hE.commit_done (Prod.ext hcommits.2.2 rfl)
  have hinside := h.isInside hC hJ hconnect hr name s hs id n (Session.mem_held.2 ⟨t, ht, hn⟩)
    hcontrol hopen
  have hcurrent : E.current (log id name) = log id name := E.foldl_note hinside []
  rwa [hcurrent] at happlied

/-- A session has written a note, and another one is refused. A further note changes nothing yet, and a
commit applies what has been written. -/
theorem logged_isolated_inFile :
    ∃ r log w s n s' s'', Registry.ofSources "main" [Database.inFile] = .ok r ∧
      Logged Database.engine r log w ∧ (w.session "a").isActive = true ∧
      (log "a" "main").map (·.sent.bound.sql) = ["insert into notes (id, tag) values (1, 'x')"] ∧
      (log "b" "main").map (·.failed) = [true] ∧
      (run Database.engine "a" (.through .default
          (.exec "insert into notes (id, tag) values (2, 'y')" .none)) w).2.2.registry.sources.get?
        "main" = some s' ∧ Source.Changes Database.ledger n (fun db => db) s s' ∧
      (run Database.engine "a" .commit w).2.2.registry.sources.get? "main" = some s'' ∧
      s.Applied Database.engine Database.journal (fun b => Database.isControl b = true) n
        (log "a" "main") s'' := by
  obtain ⟨r, hr⟩ := Database.exists_registry_of_inFile
  obtain ⟨-, hisolated⟩ := logged_isolated (J := Database.journal) Database.transacts_engine
    Database.confines_engine (Database.isOpened_inFile hr)
  have hlogged : Logged Database.engine r _ _ := ((Logged.start.step "a" (c := .begin .readCommitted)
      fun _ _ h => by cases h).step "a" (c := .through .default
        (.exec "insert into notes (id, tag) values (1, 'x')" .none)) fun _ _ h => by cases h).step
      "b" (c := .through .default (.exec "insert into notes (id, tag) values (2, 'y')" .none))
        fun _ _ h => by cases h
  generalize hlog : logged _ _ _ _ _ = log at hlogged
  generalize hw : (run Database.engine _ _ _).2.2 = w at hlogged
  set write : Command := .through .default
    (.exec "insert into notes (id, tag) values (2, 'y')" .none) with hwrite
  have hstate : (w.session "a").transaction.isSome = true ∧ (w.session "a").isLent = false ∧
      (log "a" "main").map (·.sent.bound.sql) = ["insert into notes (id, tag) values (1, 'x')"] ∧
      (log "b" "main").map (·.failed) = [true] ∧
      ((log "a" "main").all fun u => !Database.isControl u.sent.bound) = true ∧
      (write.statements.all fun b => !Database.isControl b) = true ∧
      (w.registry.sources.all fun e => ((w.session "a").held e.1).all fun n =>
        !(e.2.pool.link n).isAutocommit &&
          (Database.engine.commit e.2.pool.store (e.2.pool.link n)).1.toBool) = true ∧
      ((run Database.engine "a" write w).2.2.registry.sources.get? "main").isSome = true ∧
      ((run Database.engine "a" .commit w).2.2.registry.sources.get? "main").isSome = true := by
    rw [← hlog, ← hw]
    cases hr
    decide +kernel
  obtain ⟨hactive, hlent, ha, hb, hasked, hwritten, hlinks, hwrites, hcommits⟩ := hstate
  obtain ⟨t, ht⟩ := Option.isSome_iff_exists.1 hactive
  obtain ⟨s', hs'⟩ := Option.isSome_iff_exists.1 hwrites
  obtain ⟨s'', hs''⟩ := Option.isSome_iff_exists.1 hcommits
  obtain ⟨s, n, hs, hn, hkeeps, -⟩ := hisolated log w hlogged "a" t ht write "main" s' hs'
  obtain ⟨s₀, m, hs₀, hm, -, happlied⟩ := hisolated log w hlogged "a" t ht .commit "main" s'' hs''
  rw [hs] at hs₀
  cases hs₀
  rw [hn] at hm
  cases hm
  have hlink := List.all_eq_true.1 (List.all_eq_true.1 hlinks _ (Keyed.mem_of_get?_eq_some hs)) n
    (Session.mem_held.2 ⟨t, ht, hn⟩)
  obtain ⟨hopen, hcommit⟩ : (s.pool.link n).isAutocommit = false ∧
      (Database.engine.commit s.pool.store (s.pool.link n)).1.toBool = true := by simpa using hlink
  refine ⟨r, log, w, s, n, s', s'', hr, hlogged, hactive, ha, hb, hs', ?_, hs'', ?_⟩
  · exact hkeeps (by simpa using hwritten) (.inr hopen) fun h => absurd h.1 (by simp [hwrite])
  · refine happlied Database.journals_engine Database.connect_apart (by simpa using hasked)
      ⟨rfl, by simp [hlent], ?_⟩
    cases hc : (Database.engine.commit s.pool.store (s.pool.link n)).1 with
    | ok u => rfl
    | error e =>
      rw [hc] at hcommit
      cases hcommit

/-- Takes the last row identifier of a table, and asks for one more. -/
def exhausting : List Command.Step :=
  [(none, .through .default
      (.exec "insert into accounts (id, owner, balance) values (9223372036854775807, 'a', 0)" .none)),
    (none, .through .default (.exec "insert into accounts (owner, balance) values ('b', 0)" .none))]

def opening : Command :=
  .through .default (.exec "insert into accounts (id, owner, balance) values (5, 'c', 0)" .none)

/-- Where no row identifier is left, a statement ends the transaction of its connection. The session is
active, and yet what it inserts next is committed. -/
theorem runAll_escapes_ended :
    ∃ r w w' s s', Registry.ofSources "main" [Database.inFile] = .ok r ∧
      (runAll Database.engine "a" ((none, .begin .readCommitted) :: exhausting) ⟨r, []⟩).2 = w ∧
      (∀ a ∈ Command.atomsOfSteps "a" (exhausting ++ [(none, opening)]),
        ∀ b ∈ a.2.statements, Database.isControl b = false) ∧
      (w.session "a").isActive = true ∧ w.registry.sources.get? "main" = some s ∧
      (run Database.engine "a" opening w).2.2 = w' ∧ (w'.session "a").isActive = true ∧
      w'.registry.sources.get? "main" = some s' ∧
      (s.pool.store.committed.rows (some "accounts")).length = 0 ∧
      (s'.pool.store.committed.rows (some "accounts")).length = 1 := by
  obtain ⟨r, hr⟩ := Database.exists_registry_of_inFile
  set w := (runAll Database.engine "a" ((none, .begin .readCommitted) :: exhausting) ⟨r, []⟩).2
    with hw
  set w' := (run Database.engine "a" opening w).2.2 with hw'
  have hstate : (w.session "a").isActive = true ∧ (w'.session "a").isActive = true ∧
      (w.registry.sources.get? "main").map
        (fun s => (s.pool.store.committed.rows (some "accounts")).length) = some 0 ∧
      (w'.registry.sources.get? "main").map
        (fun s => (s.pool.store.committed.rows (some "accounts")).length) = some 1 := by
    rw [hw', hw]
    cases hr
    decide +kernel
  obtain ⟨hactive, hactive', hbefore, hafter⟩ := hstate
  obtain ⟨s, hs, hbefore⟩ := Option.map_eq_some_iff.1 hbefore
  obtain ⟨s', hs', hafter⟩ := Option.map_eq_some_iff.1 hafter
  exact ⟨r, w, w', s, s', hr, rfl, by decide +kernel, hactive, hs, rfl, hactive', hs', hbefore, hafter⟩

end World

end DataAccess
