import DataAccess.Proofs.Database.Contents
import DataAccess.Proofs.Session.Borrowing
import DataAccess.Proofs.Session.EachSource

/-!
Beginning is all or nothing. Either a session holds an open connection of every source afterwards,
or it reports why the first source that refused did so, and nothing shows that it has tried but that
the connections it has tried read committed data.
-/
namespace DataAccess

variable {Fault Store Link Contents : Type}

/-- Two states of a source between which nothing shows of a transaction: its databases hold the same,
and every connection is where it was and as it was. One that has been tried reads committed data. -/
structure Source.Same (E : Engine Fault Store Link) (L : Ledger Store Link Contents)
    (tried : Option Nat) (s s' : Source Store Link) : Prop where
  config : s'.config = s.config
  size : s'.pool.size = s.pool.size
  idle : s'.pool.idle = s.pool.idle
  shared : L.shared s'.pool.store = L.shared s.pool.store
  own : ∀ n, L.own (s'.pool.link n) = L.own (s.pool.link n)
  autocommit : ∀ n, E.autocommit (s'.pool.link n) = E.autocommit (s.pool.link n)
  reads : ∀ n, E.readUncommitted (s'.pool.link n) =
    if tried = some n then false else E.readUncommitted (s.pool.link n)

namespace Source.Same

variable {E : Engine Fault Store Link} {L : Ledger Store Link Contents} {s s' : Source Store Link}

theorem refl (s : Source Store Link) : s.Same E L none s :=
  ⟨rfl, rfl, rfl, rfl, fun _ => rfl, fun _ => rfl, fun _ => rfl⟩

/-- One idle connection has had its turn and is idle again. -/
theorem of_turn {n : Nat} (hconfig : s'.config = s.config) (hsize : s'.pool.size = s.pool.size)
    (hidle : s'.pool.idle = s.pool.idle) (hlink : ∀ m, m ≠ n → s'.pool.link m = s.pool.link m)
    (hkeeps : L.Keeps (s.pool.store, s.pool.link n) (s'.pool.store, s'.pool.link n))
    (hauto : E.autocommit (s'.pool.link n) = E.autocommit (s.pool.link n))
    (hreads : E.readUncommitted (s'.pool.link n) = false) : s.Same E L (some n) s' := by
  obtain ⟨hown, hshared⟩ := Ledger.keeps_iff.1 hkeeps
  have heach {α : Type} {f : Link → α} (h : f (s'.pool.link n) = f (s.pool.link n)) (m : Nat) :
      f (s'.pool.link m) = f (s.pool.link m) := by
    by_cases hm : m = n
    · rwa [hm]
    · rw [hlink m hm]
  refine ⟨hconfig, hsize, hidle, hshared, heach hown, heach hauto, fun m => ?_⟩
  by_cases hm : m = n
  · rw [hm, if_pos rfl]
    exact hreads
  · rw [hlink m hm, if_neg fun heq => hm (Option.some.inj heq).symm]

variable [Reportable Fault]

/-- Where a transaction has not begun, nothing else shows of it. -/
theorem of_unbegun (hE : E.Transacts L) (hreads : E.Tunable) {level : Level} {tried : Option Nat}
    (h : Source.Unbegun E level s tried s') : s.Same E L tried s' := by
  cases h with
  | unreached => exact refl s
  | refused hb =>
    rcases Source.begin_cases (E := E) level s with
      ⟨hidle, hnone⟩ | ⟨n, rest, result, store, link, hidle, ha, hcase⟩
    · rw [hnone] at hb
      cases hb
      rw [hidle]
      exact refl s
    · rw [hcase] at hb
      cases result with
      | ok u => cases hb
      | error f =>
        cases hb
        obtain ⟨hauto, hkeeps⟩ := hE.unbegun ha
        have hflag := hreads.begun level s.pool.store (s.pool.link n)
        rw [ha] at hflag
        have hlink : (({ s.pool with store := store } : Pool Store Link).setLink n link).link n =
            link := if_pos rfl
        rw [hidle]
        refine of_turn rfl rfl rfl (fun m hm => if_neg hm) ?_ ?_ ?_
        · rw [hlink]
          exact hkeeps
        · rw [hlink]
          exact hauto
        · rw [hlink]
          exact hflag
  | @undone n s₁ hb =>
    rcases Source.begin_cases (E := E) level s with
      ⟨-, hnone⟩ | ⟨m, rest, result, store, link, hidle, ha, hcase⟩
    · rw [hnone] at hb
      cases hb
    · rw [hcase] at hb
      cases result with
      | error f => cases hb
      | ok u =>
        cases hb
        obtain ⟨hbefore, -, hbegun⟩ := hE.begun ha
        have hflag := hreads.begun level s.pool.store (s.pool.link n)
        rw [ha] at hflag
        obtain ⟨hauto, hkeeps⟩ := hE.finished .rollback level store link
        set s₁ : Source Store Link := { s with pool :=
          ({ s.pool with idle := rest, store := store } : Pool Store Link).setLink n link }
        have hlink₁ : s₁.pool.link n = link := if_pos rfl
        have hlink : (s₁.finish E .rollback level n).2.pool.link n =
            (Outcome.rollback.finish E level store link).2.2 := by
          rw [← hlink₁]
          exact if_pos rfl
        have hstore : (s₁.finish E .rollback level n).2.pool.store =
            (Outcome.rollback.finish E level store link).2.1 := by
          rw [← hlink₁]
          rfl
        refine of_turn rfl rfl hidle.symm (fun m hm => (if_neg hm).trans (if_neg hm)) ?_ ?_ ?_
        · rw [hlink, hstore]
          exact (hbegun.trans (hE.rollback_keeps store link)).trans hkeeps
        · rw [hlink]
          exact hauto.trans hbefore.symm
        · rw [hlink]
          exact hreads.finished .rollback level store hflag

end Source.Same

variable [Reportable Fault]

theorem Source.autocommit_of_begin {E : Engine Fault Store Link} {L : Ledger Store Link Contents}
    (hE : E.Transacts L) {level : Level} {s s' : Source Store Link} {n : Nat}
    (h : s.begin E level = (.ok n, s')) : E.autocommit (s'.pool.link n) = false := by
  rcases Source.begin_cases (E := E) level s with
    ⟨-, hnone⟩ | ⟨m, rest, result, store, link, -, ha, hcase⟩
  · rw [hnone] at h
    cases h
  · rw [hcase] at h
    cases result with
    | error e => cases h
    | ok u =>
      cases h
      have hlink : (({ s.pool with idle := rest, store := store } : Pool Store Link).setLink n
          link).link n = link := if_pos rfl
      dsimp only
      rw [hlink]
      exact (hE.begun ha).2.1

section Session

variable {E : Engine Fault Store Link} {level : Level}

theorem Session.begin_active {s : Session} (h : s.isActive = true) (r : Registry Store Link) :
    s.begin E level r =
      (.error (if s.isLent then .transaction .connectionsInUse else .transactionActive), s, r) := by
  obtain ⟨t, ht⟩ := Option.isSome_iff_exists.1 h
  unfold Session.begin
  split_ifs with hlent
  · rfl
  · simp only [ht]

theorem Session.begin_inactive {s : Session} (hs : s.LendsWithin) (h : ¬ s.isActive = true)
    (r : Registry Store Link) :
    s.begin E level r =
      match Transaction.beginAll E level r.sources with
      | (.ok links, m) => (.ok (), ⟨some ⟨level, links⟩, s.handles⟩, ⟨m, r.default⟩)
      | (.error e, m) => (.error e, s, ⟨m, r.default⟩) := by
  have hlent : ¬ s.isLent = true := fun hlent => h (hs hlent)
  have ht : s.transaction = none := Option.not_isSome_iff_eq_none.1 h
  unfold Session.begin Transaction.begin
  simp only [hlent, ht]
  cases Transaction.beginAll E level r.sources with
  | mk result m =>
    cases result with
    | ok links => rfl
    | error e => rfl

end Session

namespace World

/-- Why a session does not begin a transaction: it has one, or the first source in the order of names
that refuses it. -/
def refusal? (E : Engine Fault Store Link) (id : String) (level : Level) (w : World Store Link) :
    Option Error :=
  if (w.session id).isActive then
    some (if (w.session id).isLent then .transaction .connectionsInUse else .transactionActive)
  else w.registry.sources.findSome? fun entry => entry.2.refusal? E level

/-- A session has a transaction of a level, with a connection of every source that is out of its pool
and in a transaction. -/
def HasBegun (E : Engine Fault Store Link) (id : String) (level : Level) (w : World Store Link) : Prop :=
  ∃ t, (w.session id).transaction = some t ∧ t.level = level ∧ t.links.keys = w.registry.names ∧
    ∀ name s, w.registry.sources.get? name = some s →
      ∃ n, t.links.get? name = some n ∧ n ∉ s.pool.idle ∧ E.autocommit (s.pool.link n) = false

def tried (E : Engine Fault Store Link) (id : String) (level : Level) (w : World Store Link) :
    Keyed Nat :=
  if (w.session id).isActive then [] else Transaction.tried E level w.registry.sources

/-- Nothing shows of a transaction between two states, but that the connections it has tried read
committed data. -/
structure Same (E : Engine Fault Store Link) (L : Ledger Store Link Contents) (tried : Keyed Nat)
    (w w' : World Store Link) : Prop where
  session : ∀ id, w'.session id = w.session id
  default : w'.registry.default = w.registry.default
  names : w'.registry.names = w.registry.names
  source : ∀ name s', w'.registry.sources.get? name = some s' →
    ∃ s, w.registry.sources.get? name = some s ∧ s.Same E L (tried.get? name) s'

def ReadsAlike (E : Engine Fault Store Link) (w w' : World Store Link) : Prop :=
  ∀ name s s', w.registry.sources.get? name = some s → w'.registry.sources.get? name = some s' →
    ∀ n, E.readUncommitted (s'.pool.link n) = E.readUncommitted (s.pool.link n)

section

variable {E : Engine Fault Store Link} {L : Ledger Store Link Contents} {w w' : World Store Link}
  {id : String} {level : Level}

omit [Reportable Fault] in
/-- It shows in how connections read just where one of those tried has read uncommitted data. -/
theorem Same.readsAlike_iff {tried : Keyed Nat} (h : w.Same E L tried w') :
    w.ReadsAlike E w' ↔ ∀ name s n, w.registry.sources.get? name = some s →
      tried.get? name = some n → E.readUncommitted (s.pool.link n) = false := by
  constructor
  · intro halike name s n hs hn
    have hmem : w'.registry.sources.get? name ≠ none := by
      rw [Ne, Keyed.get?_eq_none_iff, ← Registry.names, h.names, Registry.names,
        ← Keyed.get?_eq_none_iff, hs]
      exact Option.some_ne_none s
    obtain ⟨s', hs'⟩ := Option.ne_none_iff_exists'.1 hmem
    obtain ⟨s₀, hs₀, hsame⟩ := h.source name s' hs'
    rw [hs] at hs₀
    cases hs₀
    rw [← halike name s s' hs hs' n, hsame.reads n, if_pos hn]
  · intro hreads name s s' hs hs' n
    obtain ⟨s₀, hs₀, hsame⟩ := h.source name s' hs'
    rw [hs] at hs₀
    cases hs₀
    rw [hsame.reads n]
    split_ifs with hn
    · exact (hreads name s n hs hn).symm
    · rfl

theorem begin_active (h : (w.session id).isActive = true) :
    run E id (.begin level) w =
      (.error (if (w.session id).isLent then .transaction .connectionsInUse
        else .transactionActive), none, ⟨w.registry, w.sessions.insert id (w.session id)⟩) := by
  unfold run onSession
  rw [Session.begin_active h]
  rfl

/-- A session that no source refuses has begun. -/
theorem begin_granted {start : Registry Store Link} (hE : E.Transacts L)
    (hsound : w.Sound (fun _ _ => True) start fun _ => []) (hlends : w.LendsWithin)
    (h : w.refusal? E id level = none) :
    ∃ w', run E id (.begin level) w = (.ok .begun, none, w') ∧ w'.HasBegun E id level := by
  unfold refusal? at h
  split_ifs at h with hactive
  have hall := Transaction.beginAll_refusal E level w.registry.sources
  rw [h] at hall
  obtain ⟨links, m, hm⟩ := hall
  set w' : World Store Link := ⟨⟨m, w.registry.default⟩,
    w.sessions.insert id ⟨some ⟨level, links⟩, (w.session id).handles⟩⟩
  have hon : w.onSession id (Session.begin E level) = (.ok (), w') := by
    unfold onSession
    rw [Session.begin_inactive (hlends id) hactive, hm]
  have ht : (w'.session id).transaction = some ⟨level, links⟩ := by
    rw [session_insert, if_pos rfl]
  have hafter := hsound.begin E.respects_any id level
  rw [hon] at hafter
  unfold run
  rw [hon]
  refine ⟨w', rfl, ⟨level, links⟩, ht, rfl, ?_, fun name s' hs' => ?_⟩
  · exact ((hafter.wellKept id).links _ ht).trans hafter.names.symm
  · obtain ⟨s, n, hs, hn, hb⟩ := Transaction.begun_of_beginAll hm hs'
    have hheld : n ∈ (w'.session id).held name := by
      unfold Session.held
      rw [ht]
      simp [hn]
    exact ⟨n, hn, (hafter.apart hs' hheld).1, Source.autocommit_of_begin hE hb⟩

/-- A session that does not begin leaves nothing else behind. -/
theorem begin_refused (hE : E.Transacts L) (hreads : E.Tunable) (hlends : w.LendsWithin)
    {e : Error} (h : w.refusal? E id level = some e) :
    ∃ w', run E id (.begin level) w = (.error e, none, w') ∧ w.Same E L (w.tried E id level) w' ∧
      ((w.session id).isActive = true → w'.registry = w.registry) := by
  unfold refusal? at h
  by_cases hactive : (w.session id).isActive = true
  · rw [if_pos hactive, Option.some.injEq] at h
    have hrun : run E id (.begin level) w = _ := begin_active hactive
    rw [h] at hrun
    have htried : w.tried E id level = [] := if_pos hactive
    refine ⟨_, hrun, ?_, fun _ => rfl⟩
    rw [htried]
    exact ⟨session_insert_self _ w id, rfl, rfl, fun name s hs => ⟨s, hs, .refl s⟩⟩
  · rw [if_neg hactive] at h
    have hall := Transaction.beginAll_refusal E level w.registry.sources
    rw [h] at hall
    obtain ⟨m, hm⟩ := hall
    have hon : w.onSession id (Session.begin E level) = (.error e, ⟨⟨m, w.registry.default⟩,
        w.sessions.insert id (w.session id)⟩) := by
      unfold onSession
      rw [Session.begin_inactive (hlends id) hactive, hm]
    have htried : w.tried E id level = Transaction.tried E level w.registry.sources :=
      if_neg hactive
    unfold run
    rw [hon, htried]
    refine ⟨_, rfl, ⟨session_insert_self _ w id, rfl, ?_, fun name s' hs' => ?_⟩,
      fun hagain => absurd hagain hactive⟩
    · exact (Transaction.beginAll_error E.respects_any hm).1
    · obtain ⟨s, hs, hunbegun⟩ := Transaction.unbegun_of_beginAll hm hs'
      exact ⟨s, hs, .of_unbegun hE hreads hunbegun⟩

end

/-- In each state of a run, a session that begins has a transaction with an open connection of every
source, or reports the first source that refused. Then nothing shows that it has tried, unless a
connection that it has tried read uncommitted data before: that one does not from then on. -/
theorem runAll_begin_allOrNothing {E : Engine Fault Store Link} {L : Ledger Store Link Contents}
    (hE : E.Transacts L) (hreads : E.Tunable) {File : Type}
    {connect : SourceConfig → Except Error (Store × Link)} {file : SourceConfig → Option File}
    {default : String} {sources : List (Source Store Link)} {r : Registry Store Link}
    (hr : Registry.IsOpened connect file default sources r) (id : String)
    (steps : List Command.Step) {w : World Store Link} (hw : (runAll E id steps ⟨r, []⟩).2 = w)
    (own : String) (level : Level) :
    w.registry.sources.Ascending ∧
      match w.refusal? E own level with
      | none =>
        ∃ w', run E own (.begin level) w = (.ok .begun, none, w') ∧ w'.HasBegun E own level
      | some e =>
        ∃ w', run E own (.begin level) w = (.error e, none, w') ∧
          w.Same E L (w.tried E own level) w' ∧
          ((w.session own).isActive = true → w'.registry = w.registry) ∧
          (w.ReadsAlike E w' ↔ ∀ name s n, w.registry.sources.get? name = some s →
            (w.tried E own level).get? name = some n →
              E.readUncommitted (s.pool.link n) = false) := by
  have hstart := sound_start (fun _ _ => True) hr.opened hr.registered fun _ _ _ _ => trivial
  have hsound : (runAll E id steps ⟨r, []⟩).2.Sound (fun _ _ => True) r fun _ => [] :=
    hstart.runAll E.respects_any id fun _ _ _ _ => trivial
  have hlends := runAll_lendsWithin E r id steps
  rw [hw] at hsound hlends
  refine ⟨?_, ?_⟩
  · exact (Registry.ofSources_ok hr.registered).1.of_keys hsound.names
  · cases hrefusal : w.refusal? E own level with
    | none => exact begin_granted hE hsound hlends hrefusal
    | some e =>
      obtain ⟨w', hrun, hsame, hactive⟩ := begin_refused hE hreads hlends hrefusal
      exact ⟨w', hrun, hsame, hactive, hsame.readsAlike_iff⟩

/-- Another session keeps both connections of the second source, so that a transaction is undone on the
first one. -/
theorem runAll_begin_pair :
    ∃ r w w', Registry.ofSources "main" Database.pairInMemory = .ok r ∧
      (runAll Database.engine "b" [(none, .hold "main" "k"), (none, .hold "main" "l")]
        ⟨r, []⟩).2 = w ∧
      run Database.engine "a" (.begin .serializable) w = (.error .pool, none, w') ∧
      w.Same Database.engine Database.ledger [("aux", 0)] w' ∧ w.ReadsAlike Database.engine w' := by
  obtain ⟨r, hr⟩ := Database.exists_registry_of_pair
  obtain ⟨-, hbegin⟩ := runAll_begin_allOrNothing Database.transacts_engine Database.tunable_engine
    (Database.isOpened_pair hr) "b" [(none, .hold "main" "k"), (none, .hold "main" "l")] rfl "a"
    .serializable
  set w := (runAll Database.engine "b" [(none, .hold "main" "k"), (none, .hold "main" "l")]
    ⟨r, []⟩).2 with hw
  have hstate : w.refusal? Database.engine "a" .serializable = some .pool ∧
      w.tried Database.engine "a" .serializable = [("aux", 0)] ∧
      (w.registry.sources.all fun e => !(e.2.pool.link 0).readUncommitted) = true := by
    rw [hw]
    cases hr
    exact ⟨rfl, rfl, rfl⟩
  obtain ⟨hrefusal, htried, hflags⟩ := hstate
  rw [hrefusal, htried] at hbegin
  obtain ⟨w', hrun, hsame, -, hreads⟩ := hbegin
  refine ⟨r, w, w', hr, rfl, hrun, hsame, hreads.2 fun name s n hs hn => ?_⟩
  obtain ⟨-, rfl⟩ : name = "aux" ∧ n = 0 := by simpa using Keyed.mem_of_get?_eq_some hn
  have hflag := List.all_eq_true.1 hflags _ (Keyed.mem_of_get?_eq_some hs)
  have hreads : (s.pool.link 0).readUncommitted = false := by simpa using hflag
  exact hreads

/-- A connection that has been set to read uncommitted data does not once a transaction has failed to
begin on it, as another session has the lock. -/
theorem runAll_begin_resets_pragma :
    ∃ r w w', Registry.ofSources "main" [Database.inFile] = .ok r ∧
      (runAll Database.engine "b" [(none, .begin .serializable),
        (some "a", .through .default (.exec "PRAGMA read_uncommitted = 1" .none))] ⟨r, []⟩).2 = w ∧
      run Database.engine "a" (.begin .repeatableRead) w = (.error (.database .locked), none, w') ∧
      ¬ w.ReadsAlike Database.engine w' := by
  obtain ⟨r, hr⟩ := Database.exists_registry_of_inFile
  have hlends := runAll_lendsWithin Database.engine r "b" [(none, .begin .serializable),
    (some "a", .through .default (.exec "PRAGMA read_uncommitted = 1" .none))]
  set w := (runAll Database.engine "b" [(none, .begin .serializable),
    (some "a", .through .default (.exec "PRAGMA read_uncommitted = 1" .none))] ⟨r, []⟩).2 with hw
  have hstate : w.refusal? Database.engine "a" .repeatableRead = some (.database .locked) ∧
      w.tried Database.engine "a" .repeatableRead = [("main", 1)] ∧
      (w.registry.sources.get? "main").map (fun s => (s.pool.link 1).readUncommitted) =
        some true := by
    rw [hw]
    cases hr
    decide +kernel
  obtain ⟨hrefusal, htried, hflag⟩ := hstate
  obtain ⟨s, hs, hflag⟩ := Option.map_eq_some_iff.1 hflag
  obtain ⟨w', hrun, hsame, -⟩ := begin_refused Database.transacts_engine Database.tunable_engine
    hlends hrefusal
  refine ⟨r, w, w', hr, rfl, hrun, fun halike => ?_⟩
  have hfalse : (s.pool.link 1).readUncommitted = false :=
    hsame.readsAlike_iff.1 halike "main" s 1 hs (by rw [htried]; rfl)
  rw [hflag] at hfalse
  cases hfalse

end World

end DataAccess
