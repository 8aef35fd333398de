import DataAccess.Session.Gateway
import DataAccess.Session.Pragmas

/-!
Several sessions over one registry, and the steps they can take. A step names its session or
is taken by the session of the steps around it; a transaction around further steps stops at
the first of them that fails and rolls back. Every step leaves an entry with its result and
the state of its session after it.
-/
namespace DataAccess

inductive Target where
  | default
  | named (source : String)
  /-- Without asking whether the source is registered. -/
  | unchecked (source : String)
deriving DecidableEq, Repr

inductive Request where
  | dataSource
  | insert (table : String) (record : Record)
  | insertReturningId (table : String) (record : Record)
  | update (table : String) (record : Record) (conditions : Sql.ConditionSet)
  | delete (table : String) (conditions : Sql.ConditionSet)
  | count (table : String) (conditions : Sql.ConditionSet)
  | select (kind : RecordKind) (table : String) (conditions : Sql.ConditionSet)
      (order : List Sql.OrderTerm)
  | exec (sql : String) (args : Args)
  | query (kind : RecordKind) (sql : String) (args : Args)
  | selectOne (kind : RecordKind) (sql : String) (args : Args)
  | page (kind : RecordKind) (sql : String) (countSql : Option String) (request : PageRequest)

inductive Command where
  | begin (level : Level)
  | commit
  | rollback
  /-- The steps run inside a transaction. -/
  | inTransaction (level : Level) (steps : List (Option String × Command))
  | fail (text : String)
  | drop
  | debug
  /-- Resolves a connection, and keeps it if a name is given. -/
  | resolve (source : String) (keep : Option String)
  /-- Takes a connection from a pool and keeps it. -/
  | hold (source : String) (keep : String)
  | release (keep : String)
  | through (target : Target) (request : Request)

/-- A step with the session that takes it, if it names one. -/
abbrev Command.Step := Option String × Command

inductive Answer where
  | begun | committed | rolledBack | done | dropped | held
  | text (s : String)
  | changed (rows : Nat)
  | rowId (id : Int64)
  | total (rows : UInt64)
  | rows (records : List Json)
  | row (record : Option Json)
  | page (result : PageResult Json)
  | resolved (handle : Handle) (pragmas : Pragmas)
  | released (found : Bool)

structure World (Store Link : Type) where
  registry : Registry Store Link
  sessions : Keyed Session

/-- What shows of a session: whether it has a transaction, and the connections checked out of
each source. -/
structure SessionState where
  level : Option Level
  checkedOut : Keyed Nat
deriving DecidableEq, Repr

inductive Entry where
  | mk (result : Except Error Answer) (state : SessionState) (inner : Option (List Entry))

namespace World

variable {Fault Store Link α β : Type}

/-- The session of a name, which starts idle. -/
def session (w : World Store Link) (id : String) : Session :=
  (w.sessions.get? id).getD Session.idle

def state (w : World Store Link) (id : String) : SessionState :=
  ⟨(w.session id).level?, w.registry.sources.map fun e => (e.1, e.2.checkedOut)⟩

/-- Runs what may change a session and the registry. -/
def onSession (id : String)
    (f : Session → Registry Store Link → Except Error α × Session × Registry Store Link)
    (w : World Store Link) : Except Error α × World Store Link :=
  let (result, s, r) := f (w.session id) w.registry
  (result, ⟨r, w.sessions.insert id s⟩)

/-- Runs an operation, which leaves the session as it is. -/
def operate (id : String) (op : Operation Store Link α) (w : World Store Link) :
    Except Error α × World Store Link :=
  let (result, r) := op (w.session id) w.registry
  (result, { w with registry := r })

def gateway (target : Target) (w : World Store Link) : Except Error Gateway :=
  match target with
  | .default => .ok (Gateway.default w.registry)
  | .named source => Gateway.named source w.registry
  | .unchecked source => .ok ⟨source⟩

def request [Reportable Fault] (E : Engine Fault Store Link) (id : String) (g : Gateway)
    (q : Request) (w : World Store Link) : Except Error Answer × World Store Link :=
  let go {α : Type} (op : Operation Store Link α) (answer : α → Answer) :
      Except Error Answer × World Store Link :=
    let (result, w) := w.operate id op
    (result.map answer, w)
  match q with
  | .dataSource => (.ok (.text g.source), w)
  | .insert table record => go (g.insert E table record) .changed
  | .insertReturningId table record => go (g.insertReturningId E table record) .rowId
  | .update table record conditions => go (g.update E table record conditions) .changed
  | .delete table conditions => go (g.delete E table conditions) .changed
  | .count table conditions => go (g.count E table conditions) .total
  | .select kind table conditions order => go (g.select E kind.read table conditions order) .rows
  | .exec sql args => go (g.exec E sql args) .changed
  | .query kind sql args => go (g.query E kind.read sql args) .rows
  | .selectOne kind sql args => go (g.selectOne E kind.read sql args) .row
  | .page kind sql none page => go (g.selectPage E kind.read sql page) .page
  | .page kind sql (some countSql) page =>
    go (g.selectPageWithCount E kind.read sql countSql page) .page

/-- The session that keeps a connection under a name; all sessions share these names. -/
def keeper? (key : String) (w : World Store Link) : Option String :=
  (w.sessions.find? fun e => (e.2.handles.get? key).isSome).map (·.1)

/-- Gives up what is kept under a name, whichever session keeps it; false if nothing is. -/
def giveUp (key : String) (w : World Store Link) : Bool × World Store Link :=
  match w.keeper? key with
  | none => (false, w)
  | some id =>
    let (found, s, r) := (w.session id).release key w.registry
    (found, ⟨r, w.sessions.insert id s⟩)

/-- Keeps a connection for a session; what had the name before is given up. -/
def keep (id key : String) (h : Handle) (w : World Store Link) : World Store Link :=
  let w := (w.giveUp key).2
  let (s, r) := (w.session id).keep key h w.registry
  ⟨r, w.sessions.insert id s⟩

/-- Resolves a connection and reports its settings; it is kept or given up at once. -/
def resolve (E : Engine Fault Store Link) (id source : String) (keep : Option String)
    (w : World Store Link) : Except Error Answer × World Store Link :=
  match w.operate id (fun s r => s.resolve source r) with
  | (.error e, w) => (.error e, w)
  | (.ok h, w) =>
    match w.registry.get source with
    | .error e => (.error e, { w with registry := Session.giveUp h w.registry })
    | .ok src =>
      let answer := Answer.resolved h (src.pragmas E h.link)
      match keep with
      | some key => (.ok answer, w.keep id key h)
      | none => (.ok answer, { w with registry := Session.giveUp h w.registry })

def hold (id source key : String) (w : World Store Link) :
    Except Error Answer × World Store Link :=
  match w.operate id (fun _ r => Session.takePooled source r) with
  | (.error e, w) => (.error e, w)
  | (.ok n, w) => (.ok .held, w.keep id key (.pooled source n))

def release (key : String) (w : World Store Link) : Except Error Answer × World Store Link :=
  let (found, w) := w.giveUp key
  (.ok (.released found), w)

/-- Drops a session; its name may start anew. -/
def drop [Reportable Fault] (E : Engine Fault Store Link) (id : String)
    (w : World Store Link) : World Store Link :=
  ⟨(w.session id).drop E w.registry, w.sessions.erase id⟩

/-- Runs a body inside a transaction: committed if the body succeeds and rolled back if it
fails, where the failure of the body is the result whatever the rollback does. -/
def inTransaction [Reportable Fault] (E : Engine Fault Store Link) (id : String) (level : Level)
    (body : World Store Link → Except Error α × β × World Store Link) (skipped : β)
    (w : World Store Link) : Except Error α × β × World Store Link :=
  match w.onSession id (Session.begin E level) with
  | (.error e, w) => (.error e, skipped, w)
  | (.ok (), w) =>
    match body w with
    | (.ok a, trace, w) =>
      let (result, w) := w.onSession id (Session.finish E .commit)
      (result.map fun _ => a, trace, w)
    | (.error e, trace, w) =>
      (.error e, trace, (w.onSession id (Session.finish E .rollback)).2)

mutual

/-- Runs one command for a session; the entries are those of the steps inside it. -/
def run [Reportable Fault] (E : Engine Fault Store Link) (id : String) (c : Command)
    (w : World Store Link) : Except Error Answer × Option (List Entry) × World Store Link :=
  match c with
  | .begin level =>
    let (result, w) := w.onSession id (Session.begin E level)
    (result.map fun _ => .begun, none, w)
  | .commit =>
    let (result, w) := w.onSession id (Session.finish E .commit)
    (result.map fun _ => .committed, none, w)
  | .rollback =>
    let (result, w) := w.onSession id (Session.finish E .rollback)
    (result.map fun _ => .rolledBack, none, w)
  | .inTransaction level steps =>
    let (result, entries, w) := w.inTransaction E id level (runUntilFailure E id steps) []
    (result.map fun _ => .done, some entries, w)
  | .fail text => (.error (.transaction (.stated text)), none, w)
  | .drop => (.ok .dropped, none, w.drop E id)
  | .debug => (.ok (.text ((w.session id).describe w.registry.default)), none, w)
  | .resolve source keep =>
    let (result, w) := w.resolve E id source keep
    (result, none, w)
  | .hold source key =>
    let (result, w) := w.hold id source key
    (result, none, w)
  | .release key =>
    let (result, w) := w.release key
    (result, none, w)
  | .through target q =>
    match w.gateway target with
    | .error e => (.error e, none, w)
    | .ok g =>
      let (result, w) := w.request E id g q
      (result, none, w)

/-- Runs steps up to the first that fails. -/
def runUntilFailure [Reportable Fault] (E : Engine Fault Store Link) (id : String)
    (steps : List (Option String × Command)) (w : World Store Link) :
    Except Error Unit × List Entry × World Store Link :=
  match steps with
  | [] => (.ok (), [], w)
  | (own, c) :: rest =>
    let id' := own.getD id
    let (result, inner, w) := run E id' c w
    let entry := Entry.mk result (w.state id') inner
    match result with
    | .error e => (.error e, [entry], w)
    | .ok _ =>
      let (result, entries, w) := runUntilFailure E id rest w
      (result, entry :: entries, w)

end

/-- Runs every step, also after failures. -/
def runAll [Reportable Fault] (E : Engine Fault Store Link) (id : String) :
    List Command.Step → World Store Link → List Entry × World Store Link
  | [], w => ([], w)
  | (own, c) :: rest, w =>
    let id' := own.getD id
    let (result, inner, w) := run E id' c w
    let entry := Entry.mk result (w.state id') inner
    let (entries, w) := runAll E id rest w
    (entry :: entries, w)

end World
end DataAccess
