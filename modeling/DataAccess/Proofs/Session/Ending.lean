import DataAccess.Proofs.Database.Journal
import DataAccess.Proofs.Session.Logged

/-!
Ending a transaction. Its connections are ended one after the other in the order of the names of their
sources, whatever happens on the others: where the commit succeeds the contents of the source are what
the statements of the transaction have made of them, where it fails they are as they were, and the
connection is idle and in autocommit mode in either case.
-/
namespace DataAccess

variable {Fault Store Link Contents : Type}

namespace Registry

def finishOn (E : Engine Fault Store Link) (o : Outcome) (level : Level) (r : Registry Store Link)
    (entry : String × Nat) : Except Fault Unit × Registry Store Link :=
  match r.sources.get? entry.1 with
  | none => (.ok (), r)
  | some s => ((s.finish E o level entry.2).1, r.setPool entry.1 (s.finish E o level entry.2).2.pool)

/-- Ends the transaction on one connection after the other, also after failures. -/
def finishEach (E : Engine Fault Store Link) (o : Outcome) (level : Level) :
    Keyed Nat → Registry Store Link → List (Except Fault Unit) × Registry Store Link
  | [], r => ([], r)
  | entry :: rest, r =>
    let (first, r) := r.finishOn E o level entry
    let (later, r) := finishEach E o level rest r
    (first :: later, r)

variable {E : Engine Fault Store Link} {o : Outcome} {level : Level}

theorem finishEach_cons {name : String} {s : Source Store Link} {links : Keyed Nat}
    (hname : name ∉ links.keys) (m : Keyed (Source Store Link)) (default : String) :
    finishEach E o level links ⟨(name, s) :: m, default⟩ =
      ((finishEach E o level links ⟨m, default⟩).1,
        ⟨(name, s) :: (finishEach E o level links ⟨m, default⟩).2.sources, default⟩) := by
  induction links generalizing m with
  | nil => rfl
  | cons entry rest ih =>
    obtain ⟨hne, hrest⟩ : name ≠ entry.1 ∧ name ∉ Keyed.keys rest := by
      simpa [Keyed.keys, not_or] using hname
    unfold finishEach finishOn
    simp only [Keyed.get?_cons, if_neg hne.symm]
    cases m.get? entry.1 with
    | none => simp only [ih hrest]
    | some u =>
      have hset (p : Pool Store Link) : (⟨(name, s) :: m, default⟩ : Registry Store Link).setPool
          entry.1 p = ⟨(name, s) :: m.modify entry.1 fun s => { s with pool := p }, default⟩ := by
        unfold setPool Keyed.modify
        rw [List.map_cons, if_neg hne]
      simp only [hset, ih hrest]
      rfl

/-- All sources of a transaction are ended one after the other. -/
theorem finishAll_eq_finishEach {t : Transaction} {links : Keyed Nat} {m : Keyed (Source Store Link)}
    (hlinks : ∀ entry ∈ links, t.links.get? entry.1 = some entry.2) (hkeys : links.keys = m.keys)
    (hm : m.Ascending) (default : String) :
    (finishEach E o t.level links ⟨m, default⟩).2 = ⟨(t.finishAll E o m).2, default⟩ ∧
      (t.finishAll E o m).1 =
        match (finishEach E o t.level links ⟨m, default⟩).1.findSome? failure? with
        | none => .ok ()
        | some f => .error f := by
  induction m generalizing links with
  | nil =>
    obtain rfl : links = [] := by simpa [Keyed.keys] using hkeys
    exact ⟨rfl, rfl⟩
  | cons entry rest ih =>
    obtain ⟨name, s⟩ := entry
    cases links with
    | nil => simp [Keyed.keys] at hkeys
    | cons link links =>
      obtain ⟨other, n⟩ := link
      obtain ⟨rfl, hrest⟩ : other = name ∧ Keyed.keys links = Keyed.keys rest := by
        simpa [Keyed.keys] using hkeys
      obtain ⟨hlt, hascending⟩ := Keyed.ascending_cons.1 hm
      have hnot : other ∉ Keyed.keys rest := fun h => absurd (hlt other h) (String.lt_irrefl other)
      have hn := hlinks (other, n) List.mem_cons_self
      obtain ⟨hlater, hresult⟩ := ih (fun e he => hlinks e (List.mem_cons_of_mem _ he)) hrest hascending
      have hmodify (f : Source Store Link → Source Store Link) : Keyed.modify rest other f = rest := by
        refine (List.map_congr_left fun e he => ?_).trans rest.map_id
        have hne : e.1 ≠ other := by
          rintro rfl
          exact hnot (List.mem_map_of_mem he)
        rw [if_neg hne, id]
      have hset : (⟨(other, s) :: rest, default⟩ : Registry Store Link).setPool other
          (s.finish E o t.level n).2.pool =
            ⟨(other, (s.finish E o t.level n).2) :: rest, default⟩ := by
        unfold setPool
        have hcons (f : Source Store Link → Source Store Link) :
            Keyed.modify ((other, s) :: rest) other f = (other, f s) :: rest := by
          rw [Keyed.modify, List.map_cons, if_pos rfl]
          exact congrArg _ (hmodify f)
        rw [hcons]
        rfl
      unfold finishEach finishOn Transaction.finishAll
      simp only [Keyed.get?_cons, if_true, hset, hn]
      rw [finishEach_cons (hrest ▸ hnot), hlater, hresult]
      refine ⟨rfl, ?_⟩
      rw [List.findSome?_cons]
      cases (s.finish E o t.level n).1 with
      | ok u => rfl
      | error f => rfl

end Registry

/-- The contents of the database of one connection are what statements have made of them, and no others
are changed. -/
def Source.Applied (E : Engine Fault Store Link) (J : Journal Store Link Contents)
    (control : Sql.Bound → Prop) (n : Nat) (turns : List (Turn Store Link))
    (s s' : Source Store Link) : Prop :=
  ∃ db, s.Changes J.toLedger n (fun _ => db) s' ∧
    J.Applies turns (J.committed s.pool.store (s.pool.link n)) db ∧
    ∀ t ∈ turns, J.IsFaithful E control t

/-- A source before and after the transaction of one of its connections has ended. -/
structure Source.Ended (E : Engine Fault Store Link) (J : Journal Store Link Contents)
    (control : Sql.Bound → Prop) (o : Outcome) (level : Level) (n : Nat)
    (turns : List (Turn Store Link)) (s s' : Source Store Link) : Prop where
  /-- The statement has been run, and what it left open has been rolled back. -/
  finished : (s'.pool.store, s'.pool.link n) =
    (o.finish E level s.pool.store (s.pool.link n)).2
  committed : o = .commit → (E.commit s.pool.store (s.pool.link n)).1 = .ok () →
    s.Applied E J control n turns s'
  kept : (o = .commit → (E.commit s.pool.store (s.pool.link n)).1 ≠ .ok ()) →
    s.Changes J.toLedger n (fun db => db) s'
  autocommit : E.autocommit (s'.pool.link n) = true
  idle : s'.pool.idle = n :: s.pool.idle
  others : ∀ m, m ≠ n → s'.pool.link m = s.pool.link m
  size : s'.pool.size = s.pool.size
  config : s'.config = s.config

section

variable {E : Engine Fault Store Link} {J : Journal Store Link Contents} {control : Sql.Bound → Prop}

/-- A transaction that is committed makes what it has seen the contents. -/
theorem Journal.Records.commit (hE : E.Transacts J.toLedger) (hJ : E.Journals J control)
    {store : Store} {link : Link} {after : Store × Link} {turns : List (Turn Store Link)}
    (hvalid : J.valid store link)
    (h : E.autocommit link = false → J.Records E control turns store link)
    (hcommit : E.commit store link = (.ok (), after)) :
    ∃ db, J.Changes (fun _ => db) (store, link) after ∧
      J.Applies turns (J.committed store link) db ∧ ∀ t ∈ turns, J.IsFaithful E control t := by
  have hrecords := h (hE.commit_done hcommit)
  obtain ⟨hwritten, hunwritten⟩ := hJ.commit_done hvalid hcommit
  by_cases hwrites : J.writes link
  · exact ⟨_, hwritten hwrites, hrecords.written hwrites, hrecords.faithful⟩
  · exact ⟨_, (hunwritten hwrites).congr rfl, .of_idle (hrecords.unwritten hwrites),
      hrecords.faithful⟩

/-- To end a transaction without a commit that succeeds changes no contents. -/
theorem Source.changes_finish {L : Ledger Store Link Contents} (hE : E.Transacts L) {o : Outcome}
    (level : Level) {n : Nat} {s : Source Store Link}
    (hfails : o = .commit → (E.commit s.pool.store (s.pool.link n)).1 ≠ .ok ()) :
    s.Changes L n (fun db => db) (s.finish E o level n).2 := by
  have hlink : (s.finish E o level n).2.pool.link n =
      (o.finish E level s.pool.store (s.pool.link n)).2.2 := if_pos rfl
  have hunsettled := hE.unsettled (o := o) (Prod.ext rfl rfl) fun ho => by
    subst ho
    exact hfails rfl
  refine ⟨?_, fun m hm => congrArg L.own (if_neg hm)⟩
  rw [hlink]
  exact hunsettled.trans (hE.finished o level s.pool.store (s.pool.link n)).2

theorem Source.ended_finish (hE : E.Transacts J.toLedger) (hJ : E.Journals J control) (o : Outcome)
    (level : Level) {n : Nat} {turns : List (Turn Store Link)} {s : Source Store Link}
    (hvalid : J.valid s.pool.store (s.pool.link n))
    (h : E.autocommit (s.pool.link n) = false →
      J.Records E control turns s.pool.store (s.pool.link n)) :
    s.Ended E J control o level n turns (s.finish E o level n).2 := by
  have hfinished : ((s.finish E o level n).2.pool.store, (s.finish E o level n).2.pool.link n) =
      (o.finish E level s.pool.store (s.pool.link n)).2 := Prod.ext rfl (if_pos rfl)
  have hlinks : ∀ m, m ≠ n → (s.finish E o level n).2.pool.link m = s.pool.link m :=
    fun m hm => if_neg hm
  obtain ⟨hauto, hkeeps⟩ := hE.finished o level s.pool.store (s.pool.link n)
  rw [← hfinished] at hauto hkeeps
  refine ⟨hfinished, fun ho hcommit => ?_, Source.changes_finish hE level, hauto, rfl, hlinks, rfl,
    rfl⟩
  subst ho
  obtain ⟨db, hchanges, happlies, hfaithful⟩ := Journal.Records.commit hE hJ hvalid h
    (Prod.ext hcommit rfl)
  exact ⟨db, ⟨hchanges.trans hkeeps, fun m hm => congrArg J.own (hlinks m hm)⟩, happlies, hfaithful⟩

end

namespace World

def Undisturbed (w w' : World Store Link) : Prop :=
  w'.registry = w.registry ∧ ∀ id, w'.session id = w.session id

theorem undisturbed_insert (w : World Store Link) (id : String) :
    w.Undisturbed ⟨w.registry, w.sessions.insert id (w.session id)⟩ :=
  ⟨rfl, session_insert_self w.registry w id⟩

/-- A session whose transaction has ended on every source. -/
structure HasEnded (E : Engine Fault Store Link) (J : Journal Store Link Contents)
    (control : Sql.Bound → Prop) (o : Outcome) (id : String) (t : Transaction)
    (log : Log Store Link) (w w' : World Store Link) : Prop where
  session : w'.session id = { w.session id with transaction := none }
  others : ∀ other, other ≠ id → w'.session other = w.session other
  names : w'.registry.names = w.registry.names
  /-- The transaction has been ended on one connection after the other. -/
  order : w'.registry = (w.registry.finishEach E o t.level t.links).2
  source : ∀ name s', w'.registry.sources.get? name = some s' →
    ∃ s n, w.registry.sources.get? name = some s ∧ t.links.get? name = some n ∧
      s.Ended E J control o t.level n (E.current (log id name)) s'

variable [Reportable Fault] {E : Engine Fault Store Link} {J : Journal Store Link Contents}
  {control : Sql.Bound → Prop} {w : World Store Link} {log : Log Store Link} {id : String}
  {t : Transaction}

omit [Reportable Fault] in
theorem hasEnded_finishAll (hE : E.Transacts J.toLedger) (hJ : E.Journals J control)
    (hw : w.Journaled E J control log) (o : Outcome) (ht : (w.session id).transaction = some t)
    (hlinks : t.links.keys = w.registry.names) (hascending : w.registry.sources.Ascending) :
    w.HasEnded E J control o id t log
      ⟨{ w.registry with sources := (t.finishAll E o w.registry.sources).2 },
        w.sessions.insert id { w.session id with transaction := none }⟩ where
  session := by rw [session_insert, if_pos rfl]
  others other hne := by
    rw [session_insert, if_neg hne]
    rfl
  names := (t.moves_finishAll E.respects_any o w.registry.sources).1
  order := by
    have hlinksAscending : t.links.Ascending := hascending.of_keys hlinks
    exact (Registry.finishAll_eq_finishEach
      (fun entry he => hlinksAscending.get?_of_mem he) hlinks hascending w.registry.default).1.symm
  source name s' hs' := by
    obtain ⟨s, hs, heq⟩ := Transaction.source_of_finishAll hs'
    have hmem : t.links.get? name ≠ none := by
      rw [Ne, Keyed.get?_eq_none_iff, hlinks]
      intro hout
      rw [Registry.names, ← Keyed.get?_eq_none_iff, hs] at hout
      cases hout
    obtain ⟨n, hn⟩ := Option.ne_none_iff_exists'.1 hmem
    rw [hn] at heq
    dsimp only at heq
    rw [heq]
    exact ⟨s, n, hs, hn, Source.ended_finish hE hJ o t.level ((hw.coherent name s hs).valid n)
      (hw.records name s hs id n (Session.mem_held.2 ⟨t, ht, hn⟩))⟩

/-- In every state that commands of sessions lead to, a commit or a rollback ends the transaction of its
session on one connection after the other, in the order of the names of all sources, and the first
failure is its result. Where the commit of a source succeeds, the statements of the transaction are
applied, and otherwise nothing is. While a connection of the transaction is lent, or where there is
none, nothing is disturbed. -/
theorem logged_finish_everySource {E : Engine Fault Store Link} {J : Journal Store Link Contents}
    {control : Sql.Bound → Prop} (hE : E.Transacts J.toLedger) (hJ : E.Journals J control)
    {File : Type} {connect : SourceConfig → Except Error (Store × Link)}
    (hconnect : ∀ {c store link}, connect c = .ok (store, link) →
      J.valid store link ∧ J.apart link link)
    {file : SourceConfig → Option File} {default : String} {sources : List (Source Store Link)}
    {r : Registry Store Link} (hr : Registry.IsOpened connect file default sources r) :
    (∀ id steps, ∃ log, Logged E r log (runAll E id steps ⟨r, []⟩).2) ∧
    ∀ log w, Logged E r log w → ∀ id o, w.registry.sources.Ascending ∧ ∃ w',
      if (w.session id).isLent then
        run E id o.command w = (.error (.transaction .connectionsInUse), none, w') ∧
          w.Undisturbed w'
      else match (w.session id).transaction with
        | none => run E id o.command w = (.error .noActiveTransaction, none, w') ∧
          w.Undisturbed w'
        | some t =>
          t.links.keys = w.registry.names ∧
          run E id o.command w =
            ((match (w.registry.finishEach E o t.level t.links).1.findSome? failure? with
              | none => .ok o.answer
              | some f => .error (.ofFault f)), none, w') ∧
            w.HasEnded E J control o id t log w' := by
  refine ⟨runAll_logged E r, fun log w h id o => ?_⟩
  have hsound := h.sound hr
  have hascending := (Registry.ofSources_ok hr.registered).1.of_keys hsound.names
  refine ⟨hascending, (w.onSession id (Session.finish E o)).2, ?_⟩
  rw [run_command]
  unfold onSession
  rw [Session.finish_eq]
  split_ifs with hlent
  · exact ⟨rfl, w.undisturbed_insert id⟩
  · cases ht : (w.session id).transaction with
    | none => exact ⟨rfl, w.undisturbed_insert id⟩
    | some t =>
      have hlinks := ((hsound.wellKept id).links t ht).trans hsound.names.symm
      have hlinksAscending : t.links.Ascending := hascending.of_keys hlinks
      have hresult := (Registry.finishAll_eq_finishEach (E := E) (o := o)
        (fun entry he => hlinksAscending.get?_of_mem he) hlinks hascending w.registry.default).2
      rw [Transaction.finishAll_fst] at hresult
      refine ⟨hlinks, ?_, hasEnded_finishAll hE hJ (h.journaled hJ hconnect hr) o ht hlinks
        hascending⟩
      have hfirst : w.registry.sources.findSome? (t.fault? E o) =
          (w.registry.finishEach E o t.level t.links).1.findSome? failure? := by
        revert hresult
        cases w.registry.sources.findSome? (t.fault? E o) with
        | none => cases (w.registry.finishEach E o t.level t.links).1.findSome? failure? <;> simp
        | some f => cases (w.registry.finishEach E o t.level t.links).1.findSome? failure? <;> simp
      refine Prod.ext ?_ rfl
      dsimp only
      rw [hfirst]
      cases (w.registry.finishEach E o t.level t.links).1.findSome? failure? with
      | none => rfl
      | some f => rfl

/-- A transfer from no account keeps one source from committing; the note that the transaction has
written to the other is there afterwards. -/
theorem logged_finish_pair :
    ∃ r log w w', Registry.ofSources "main" Database.pairInMemory = .ok r ∧
      Logged Database.engine r log w ∧
      (log "a" "aux").map (·.failed) = [false] ∧ (log "a" "main").map (·.failed) = [false] ∧
      run Database.engine "a" .commit w = (.error (.database .foreignKey), none, w') ∧
      ∃ t, (w.session "a").transaction = some t ∧
        w.HasEnded Database.engine Database.journal (fun b => Database.isControl b = true) .commit "a"
          t log w' := by
  obtain ⟨r, hr⟩ := Database.exists_registry_of_pair
  have hpair := Database.isOpened_pair hr
  obtain ⟨-, hfinish⟩ := logged_finish_everySource Database.transacts_engine
    Database.journals_engine Database.connect_apart hpair
  have hlogged : Logged Database.engine r _ _ := ((Logged.start.step "a" (c := .begin .readCommitted)
      fun _ _ h => by cases h).step "a" (c := .through (.named "aux")
        (.exec "insert into transfers (account_id, amount) values (9, 5)" .none))
      fun _ _ h => by cases h).step "a" (c := .through .default
        (.exec "insert into notes (id, tag) values (1, 'x')" .none)) fun _ _ h => by cases h
  generalize hlog : logged _ _ _ _ _ = log at hlogged
  generalize hw : (run Database.engine _ _ _).2.2 = w at hlogged
  have hstate : (log "a" "aux").map (·.failed) = [false] ∧
      (log "a" "main").map (·.failed) = [false] ∧ (w.session "a").isLent = false ∧
      (w.session "a").transaction.map (fun t =>
        (w.registry.finishEach Database.engine .commit t.level t.links).1.findSome? failure?) =
          some (some .foreignKey) := by
    rw [← hlog, ← hw]
    cases hr
    decide +kernel
  obtain ⟨haux, hmain, hlent, hfault⟩ := hstate
  obtain ⟨t, ht, hfault⟩ := Option.map_eq_some_iff.1 hfault
  obtain ⟨-, w', hend⟩ := hfinish log w hlogged "a" .commit
  rw [hlent, ht] at hend
  dsimp only [if_false] at hend
  rw [hfault] at hend
  exact ⟨r, log, w, w', hr, hlogged, haux, hmain, hend.2.1, t, ht, hend.2.2⟩

end World

end DataAccess
