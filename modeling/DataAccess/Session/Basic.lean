import DataAccess.Session.Transaction

/-!
Sessions. A session is one unit of work over a registry: while it has a transaction, all its
operations use the connections of the transaction; otherwise each operation takes a
connection of its own and puts it back. Connections that a caller has resolved and not yet
released stay with the session under names; while one of them belongs to the transaction,
the transaction can neither begin nor end.
-/
namespace DataAccess

/-- A connection that a caller holds. -/
inductive Handle where
  /-- Lent by the transaction. -/
  | transactional (source : String) (link : Nat)
  /-- Taken from the pool for the caller alone. -/
  | pooled (source : String) (link : Nat)
deriving DecidableEq, Repr

namespace Handle

def isTransactional : Handle → Bool
  | .transactional _ _ => true
  | .pooled _ _ => false

def source : Handle → String
  | .transactional s _ | .pooled s _ => s

def link : Handle → Nat
  | .transactional _ n | .pooled _ n => n

def describe (h : Handle) : String :=
  s!"ScopedConnection \x7b transactional: {h.isTransactional} \x7d"

end Handle

structure Session where
  transaction : Option Transaction
  /-- The connections held by the caller, by the names it gave them. -/
  handles : Keyed Handle

namespace Session

variable {Fault Store Link α : Type}

def idle : Session := ⟨none, []⟩

def isActive (s : Session) : Bool := s.transaction.isSome

def level? (s : Session) : Option Level := s.transaction.map (·.level)

/-- A connection of the transaction is in the hands of the caller. -/
def isLent (s : Session) : Bool := s.handles.any (·.2.isTransactional)

def describe (default : String) (s : Session) : String :=
  let level := match s.level? with
    | some l => s!"Some({l.name})"
    | none => "None"
  "Session \x7b default: " ++ Text.quoted default ++ s!", isolation_level: {level} \x7d"

def begin [Reportable Fault] (E : Engine Fault Store Link) (level : Level) (s : Session)
    (r : Registry Store Link) : Except Error Unit × Session × Registry Store Link :=
  if s.isLent then (.error (.transaction .connectionsInUse), s, r)
  else match s.transaction with
    | some _ => (.error .transactionActive, s, r)
    | none =>
      match Transaction.begin E level r with
      | (.ok t, r) => (.ok (), { s with transaction := some t }, r)
      | (.error e, r) => (.error e, s, r)

/-- Ends the transaction; the session is idle afterwards, also where ending failed. -/
def finish [Reportable Fault] (E : Engine Fault Store Link) (o : Outcome) (s : Session)
    (r : Registry Store Link) : Except Error Unit × Session × Registry Store Link :=
  if s.isLent then (.error (.transaction .connectionsInUse), s, r)
  else match s.transaction with
    | none => (.error .noActiveTransaction, s, r)
    | some t =>
      let (result, r) := t.finish E o r
      (result, { s with transaction := none }, r)

def takePooled (source : String) (r : Registry Store Link) :
    Except Error Nat × Registry Store Link :=
  match r.get source with
  | .error e => (.error e, r)
  | .ok src =>
    match src.pool.checkout? with
    | none => (.error .pool, r)
    | some (n, p) => (.ok n, r.setPool source p)

/-- The connection that an operation on a source uses: that of the transaction, or one from
the pool. -/
def resolve (source : String) (s : Session) (r : Registry Store Link) :
    Except Error Handle × Registry Store Link :=
  match s.transaction with
  | some t =>
    match t.links.get? source with
    | some n => (.ok (.transactional source n), r)
    | none => (.error (.unknownDataSource source), r)
  | none =>
    let (result, r) := takePooled source r
    (result.map (.pooled source), r)

/-- Gives a connection up; one of the pool goes back there. -/
def giveUp (h : Handle) (r : Registry Store Link) : Registry Store Link :=
  match h with
  | .transactional _ _ => r
  | .pooled source n =>
    match r.sources.get? source with
    | some src => r.setPool source (src.pool.release n)
    | none => r

def useHandle [Reportable Fault] (h : Handle) (access : Access Fault Store Link α)
    (r : Registry Store Link) : Except Error α × Registry Store Link :=
  match r.get h.source with
  | .error e => (.error e, r)
  | .ok src =>
    let (result, p) := src.pool.use h.link access
    (result.mapError .ofFault, r.setPool h.source p)

/-- Resolves a connection, uses it once and gives it up. -/
def withLink [Reportable Fault] (source : String) (access : Access Fault Store Link α)
    (s : Session) (r : Registry Store Link) : Except Error α × Registry Store Link :=
  match s.resolve source r with
  | (.error e, r) => (.error e, r)
  | (.ok h, r) =>
    let (result, r) := useHandle h access r
    (result, giveUp h r)

/-- Keeps a connection under a name; one that had the name is given up. -/
def keep (key : String) (h : Handle) (s : Session) (r : Registry Store Link) :
    Session × Registry Store Link :=
  let r := match s.handles.get? key with | some old => giveUp old r | none => r
  ({ s with handles := s.handles.insert key h }, r)

/-- Gives up what was kept under a name; false if nothing was. -/
def release (key : String) (s : Session) (r : Registry Store Link) :
    Bool × Session × Registry Store Link :=
  match s.handles.get? key with
  | some h => (true, { s with handles := s.handles.erase key }, giveUp h r)
  | none => (false, s, r)

/-- Gives up all kept connections and rolls an open transaction back. -/
def drop [Reportable Fault] (E : Engine Fault Store Link) (s : Session)
    (r : Registry Store Link) : Registry Store Link :=
  let r := s.handles.foldl (fun r e => giveUp e.2 r) r
  match s.transaction with
  | some t => (t.finish E .rollback r).2
  | none => r

end Session
end DataAccess
