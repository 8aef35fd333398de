import DataAccess.Proofs.Database.Modes
import DataAccess.Proofs.Session.Conservation

/-!
The state of connections in their roles. With an engine that keeps its modes apart, idle and lent
connections are in autocommit mode and read committed data, and a connection in a transaction
reads uncommitted data just when the level of the transaction says so.
-/
namespace DataAccess

variable {Fault Store Link : Type} [Reportable Fault]

/-- What a run relies on of an engine. Statements that control transactions or connections are
told from the others, which leave both modes of a connection as they are. -/
structure Engine.Lawful (E : Engine Fault Store Link) (control : Sql.Bound → Prop) : Prop where
  set_flag : ∀ flag link, E.readUncommitted (E.setReadUncommitted flag link) = flag
  set_autocommit : ∀ flag link,
    E.autocommit (E.setReadUncommitted flag link) = E.autocommit link
  begin_flag : ∀ mode store link,
    E.readUncommitted (E.begin mode store link).2.2 = E.readUncommitted link
  /-- A transaction that does not begin leaves the connection in autocommit mode. -/
  begin_failed : ∀ {mode store link e store' link'},
    E.begin mode store link = (.error e, store', link') → E.autocommit link = true →
      E.autocommit link' = true
  commit_flag : ∀ store link,
    E.readUncommitted (E.commit store link).2.2 = E.readUncommitted link
  rollback_flag : ∀ store link,
    E.readUncommitted (E.rollback store link).2.2 = E.readUncommitted link
  /-- An open transaction can be rolled back. -/
  rollback_ends : ∀ store link, E.autocommit link = false →
    E.autocommit (E.rollback store link).2.2 = true
  execute_flag : ∀ {b}, ¬ control b → ∀ store link,
    E.readUncommitted (E.execute b store link).2.2 = E.readUncommitted link
  execute_autocommit : ∀ {b}, ¬ control b → ∀ store link, E.autocommit link = true →
    E.autocommit (E.execute b store link).2.2 = true
  query_flag : ∀ {b}, ¬ control b → ∀ store link,
    E.readUncommitted (E.query b store link).2.2 = E.readUncommitted link
  query_autocommit : ∀ {b}, ¬ control b → ∀ store link, E.autocommit link = true →
    E.autocommit (E.query b store link).2.2 = true

namespace Database

/-- The engine over stores of tables keeps the modes of its connections apart. -/
theorem lawful_engine : engine.Lawful fun b => governs b = true where
  set_flag _ _ := rfl
  set_autocommit _ _ := rfl
  begin_flag mode s l := by
    obtain ⟨own, hflag, -, -⟩ := onOwn_link (begin mode) s l
    exact hflag.trans (begin_flag mode own l)
  begin_failed := by
    intro mode s l e s' l' h hl
    obtain ⟨own, -, hauto, hresult⟩ := onOwn_link (begin mode) s l
    have hb : onOwn (begin mode) s l = (.error e, s', l') := h
    rw [hb] at hauto hresult
    exact hauto.trans ((begin_failed hresult.symm).trans hl)
  commit_flag s l := by
    obtain ⟨own, hflag, -, -⟩ := onOwn_link commit s l
    exact hflag.trans (commit_flag own l)
  rollback_flag s l := by
    obtain ⟨own, hflag, -, -⟩ := onOwn_link rollback s l
    exact hflag.trans (rollback_flag own l)
  rollback_ends s l _ := by
    obtain ⟨own, -, hauto, -⟩ := onOwn_link rollback s l
    exact hauto.trans (rollback_ends own l)
  execute_flag hb := (keepsModes_execute hb).onOwn.flag
  execute_autocommit hb := (keepsModes_execute hb).onOwn.autocommit
  query_flag hb := (keepsModes_query hb).onOwn.flag
  query_autocommit hb := (keepsModes_query hb).onOwn.autocommit

end Database

/-- The state in which a connection of a role is. -/
def Engine.IsTidy (E : Engine Fault Store Link) : Role → Link → Prop
  | none, link => E.autocommit link = true ∧ E.readUncommitted link = false
  | some level, link => E.readUncommitted link = decide (level = .readUncommitted)

namespace Engine.Lawful

variable {E : Engine Fault Store Link} {control : Sql.Bound → Prop}

omit [Reportable Fault] in
theorem begun (hE : E.Lawful control) {level : Level} {store store' : Store} {link link' : Link}
    (h : level.begin E store link = (.ok (), store', link')) :
    E.IsTidy (some level) link' := by
  have hflag := hE.begin_flag level.lockMode store
    (E.setReadUncommitted (decide (level = .readUncommitted)) link)
  rw [hE.set_flag] at hflag
  unfold Level.begin at h
  dsimp only at h
  split at h
  · rename_i store₁ link₁ hb
    rw [hb] at hflag
    cases h
    exact hflag
  · cases h

omit [Reportable Fault] in
theorem unbegun (hE : E.Lawful control) {level : Level} {e : Fault}
    {store store' : Store} {link link' : Link}
    (h : level.begin E store link = (.error e, store', link')) (hlink : E.IsTidy none link) :
    E.IsTidy none link' := by
  have hflag := hE.begin_flag level.lockMode store
    (E.setReadUncommitted (decide (level = .readUncommitted)) link)
  rw [hE.set_flag] at hflag
  unfold Level.begin at h
  dsimp only at h
  split at h
  · cases h
  · rename_i f store₁ link₁ hb
    rw [hb] at hflag
    have hauto := hE.begin_failed hb ((hE.set_autocommit _ _).trans hlink.1)
    cases h
    split_ifs with hlevel
    · exact ⟨(hE.set_autocommit _ _).trans hauto, hE.set_flag _ _⟩
    · exact ⟨hauto, hflag.trans (by simpa using hlevel)⟩

omit [Reportable Fault] in
/-- A transaction that is still open is rolled back. -/
theorem closed (hE : E.Lawful control) (store : Store) (link : Link) :
    E.autocommit (if E.autocommit link then (store, link) else (E.rollback store link).2).2 =
        true ∧
      E.readUncommitted (if E.autocommit link then (store, link) else (E.rollback store link).2).2 =
        E.readUncommitted link := by
  split_ifs with hauto
  · exact ⟨hauto, rfl⟩
  · exact ⟨hE.rollback_ends _ _ (by simpa using hauto), hE.rollback_flag _ _⟩

omit [Reportable Fault] in
theorem reset (hE : E.Lawful control) {level : Level} {link : Link}
    (hauto : E.autocommit link = true)
    (hflag : E.readUncommitted link = decide (level = .readUncommitted)) :
    E.IsTidy none (if level = .readUncommitted then E.setReadUncommitted false link else link) := by
  split_ifs with hlevel
  · exact ⟨(hE.set_autocommit _ _).trans hauto, hE.set_flag _ _⟩
  · exact ⟨hauto, hflag.trans (by simpa using hlevel)⟩

omit [Reportable Fault] in
/-- Whatever ends the transaction, the connection is as before it. -/
theorem finished (hE : E.Lawful control) (o : Outcome) (level : Level) (store : Store)
    {link : Link} (hlink : E.IsTidy (some level) link) :
    E.IsTidy none (o.finish E level store link).2.2 := by
  have hend (store₁ : Store) (link₁ : Link)
      (hflag : E.readUncommitted link₁ = decide (level = .readUncommitted)) :=
    hE.reset (hE.closed store₁ link₁).1 ((hE.closed store₁ link₁).2.trans hflag)
  cases o with
  | commit => exact hend _ _ ((hE.commit_flag store link).trans hlink)
  | rollback => exact hend _ _ ((hE.rollback_flag store link).trans hlink)

omit [Reportable Fault] in
/-- The modes of connections are kept by transactions and by statements that control neither. -/
theorem respects (hE : E.Lawful control) : E.Respects E.IsTidy fun b => ¬ control b where
  begun h _ := hE.begun h
  unbegun h hlink := hE.unbegun h hlink
  finished o level store _ hlink := hE.finished o level store hlink
  executed hb role store link hlink := by
    cases role with
    | none =>
      exact ⟨hE.execute_autocommit hb store link hlink.1,
        (hE.execute_flag hb store link).trans hlink.2⟩
    | some level => exact (hE.execute_flag hb store link).trans hlink
  queried hb role store link hlink := by
    cases role with
    | none =>
      exact ⟨hE.query_autocommit hb store link hlink.1,
        (hE.query_flag hb store link).trans hlink.2⟩
    | some level => exact (hE.query_flag hb store link).trans hlink

end Engine.Lawful

namespace World

/-- In each state of a run without control statements, idle connections are in autocommit mode
and read committed data, and those of a session read uncommitted data as its level says. -/
theorem runAll_tidy {E : Engine Fault Store Link} {control : Sql.Bound → Prop}
    (hE : E.Lawful control) {connect : SourceConfig → Except Error (Store × Link)}
    (hconnect : ∀ c store link, connect c = .ok (store, link) →
      E.autocommit link = true ∧ E.readUncommitted link = false)
    {default : String} {sources : List (Source Store Link)} {r : Registry Store Link}
    (hopen : ∀ s ∈ sources, Source.ofConfig connect s.config = .ok s)
    (hr : Registry.ofSources default sources = .ok r) (id : String) (steps : List Command.Step)
    (hsteps : ∀ a ∈ Command.atomsOfSteps id steps, ∀ b ∈ a.2.statements, ¬ control b) :
    ∀ name s, (runAll E id steps ⟨r, []⟩).2.registry.sources.get? name = some s →
      (∀ n ∈ s.pool.idle, E.autocommit (s.pool.link n) = true ∧
        E.readUncommitted (s.pool.link n) = false) ∧
      ∀ other t n, ((runAll E id steps ⟨r, []⟩).2.session other).transaction = some t →
        t.links.get? name = some n →
        (E.readUncommitted (s.pool.link n) = true ↔ t.level = .readUncommitted) := by
  have hstart := sound_start E.IsTidy hopen hr hconnect
  have hw := hstart.runAll hE.respects id hsteps
  intro name s hs
  have hfits := hw.fits name s hs
  constructor
  · intro n hn
    exact hfits (n, none) (List.mem_append_left _ (List.mem_map_of_mem hn))
  · intro other t n ht hn
    have hheld : (n, some t.level) ∈
        ((runAll E id steps ⟨r, []⟩).2.session other).holdings name := by
      rw [Session.holdings_some ht]
      exact List.mem_append_left _ (by simp [Transaction.holdings, hn])
    have hplace : (n, some t.level) ∈ (runAll E id steps ⟨r, []⟩).2.holdings name :=
      (holdings_session hw.ascending other name).mem_iff.2 (List.mem_append_left _ hheld)
    have htidy : E.readUncommitted (s.pool.link n) = decide (t.level = .readUncommitted) :=
      hfits (n, some t.level) (List.mem_append_right _ (List.mem_append_right _ hplace))
    rw [htidy, decide_eq_true_iff]

/-- A transaction that reads uncommitted data deletes the notes and is committed, while another
session cannot begin. -/
theorem runAll_tidy_pair :
    ∃ r w, Registry.ofSources "main" Database.pairInMemory = .ok r ∧
      (runAll Database.engine "a" [(none, .begin .readUncommitted),
        (none, .through .default (.exec "delete from notes" .none)),
        (some "b", .begin .serializable), (none, .commit)] ⟨r, []⟩).2 = w ∧
      ∀ name s, w.registry.sources.get? name = some s →
        (∀ n ∈ s.pool.idle, (s.pool.link n).isAutocommit = true ∧
          (s.pool.link n).readUncommitted = false) ∧
        ∀ other t n, (w.session other).transaction = some t → t.links.get? name = some n →
          ((s.pool.link n).readUncommitted = true ↔ t.level = .readUncommitted) := by
  obtain ⟨r, hr⟩ := Database.exists_registry_of_pair
  have hsteps : ((Command.atomsOfSteps "a" [(none, .begin .readUncommitted),
      (none, .through .default (.exec "delete from notes" .none)),
      (some "b", .begin .serializable), (none, .commit)]).all fun a =>
        a.2.statements.all fun b => !Database.governs b) = true := by decide +kernel
  refine ⟨r, _, hr, rfl, runAll_tidy Database.lawful_engine ?_ Database.pairInMemory_opened hr
    "a" _ ?_⟩
  · exact fun c store link h => Database.connect_modes h
  · intro a ha b hb
    have := List.all_eq_true.1 (List.all_eq_true.1 hsteps a ha) b hb
    simpa using this

end World
end DataAccess
