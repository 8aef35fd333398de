import DataAccess.Proofs.Session.Conservation

/-!
What a session does with connections. Each request is a script of statements, all of which it runs on
one connection: that of its transaction, or the one that is idle on top. Taking connections and giving
them up changes nothing but which of them are idle.
-/
namespace DataAccess

variable {Fault Store Link α β : Type}

/-- The connection that a session uses at a source whose idle connections are given. -/
def Session.link? (source : String) (s : Session) (idle : List Nat) : Option Nat :=
  match s.transaction with
  | some t => t.links.get? source
  | none => idle.head?

def Session.connection? (source : String) (s : Session) (r : Registry Store Link) :
    Option (Source Store Link × Nat) :=
  (r.sources.get? source).bind fun src => (s.link? source src.pool.idle).map (src, ·)

theorem Session.connection?_eq_some {source : String} {s : Session} {r : Registry Store Link}
    {src : Source Store Link} {n : Nat} :
    s.connection? source r = some (src, n) ↔
      r.sources.get? source = some src ∧ s.link? source src.pool.idle = some n := by
  unfold connection?
  rw [Option.bind_eq_some_iff]
  constructor
  · rintro ⟨src', hsrc, h⟩
    obtain ⟨m, hm, h⟩ := Option.map_eq_some_iff.1 h
    cases h
    exact ⟨hsrc, hm⟩
  · rintro ⟨hsrc, hn⟩
    exact ⟨src, hsrc, by rw [hn]; rfl⟩

def Pool.put (p : Pool Store Link) (n : Nat) (after : Store × Link) : Pool Store Link :=
  { p with store := after.1 }.setLink n after.2

theorem Pool.use_snd (p : Pool Store Link) (n : Nat) (access : Access Fault Store Link α) :
    (p.use n access).2 = p.put n (access p.store (p.link n)).2 := rfl

theorem Pool.link_put (p : Pool Store Link) (n : Nat) (after : Store × Link) (m : Nat) :
    (p.put n after).link m = if m = n then after.2 else p.link m := rfl

theorem Pool.store_put (p : Pool Store Link) (n : Nat) (after : Store × Link) :
    (p.put n after).store = after.1 := rfl

theorem Pool.put_put (p : Pool Store Link) (n : Nat) (a b : Store × Link) :
    (p.put n a).put n b = p.put n b := by
  unfold put setLink
  congr 1
  funext m
  dsimp only
  split_ifs <;> rfl

theorem Pool.put_self (p : Pool Store Link) (n : Nat) : p.put n (p.store, p.link n) = p := by
  have hlink : (fun m => if m = n then p.link n else p.link m) = p.link := by
    funext m
    split_ifs with h
    · rw [h]
    · rfl
  unfold put setLink
  dsimp only
  rw [hlink]

/-- A connection that is taken, used and put back is used in its place. -/
theorem Pool.use_of_checkout? {p q : Pool Store Link} {n : Nat} (h : p.checkout? = some (n, q))
    (access : Access Fault Store Link α) :
    (q.use n access).1 = (p.use n access).1 ∧ (q.use n access).2.release n = (p.use n access).2 := by
  obtain ⟨hidle, hq⟩ := idle_of_checkout? h
  rw [hq]
  refine ⟨rfl, ?_⟩
  unfold use release setLink
  rw [← hidle]

def Source.after (s : Source Store Link) (n : Nat) (after : Store × Link) : Source Store Link :=
  { s with pool := s.pool.put n after }

theorem Registry.setPool_setPool (r : Registry Store Link) (name : String) (p q : Pool Store Link) :
    (r.setPool name p).setPool name q = r.setPool name q := by
  unfold Registry.setPool Keyed.modify
  rw [List.map_map]
  congr 1
  refine List.map_congr_left fun e _ => ?_
  by_cases h : e.1 = name
  · simp [h]
  · simp [h]

theorem Registry.get?_setPool (r : Registry Store Link) (name other : String)
    (p : Pool Store Link) :
    (r.setPool name p).sources.get? other =
      if other = name then (r.sources.get? other).map fun s => { s with pool := p }
      else r.sources.get? other :=
  Keyed.get?_modify r.sources name (fun s => { s with pool := p }) other

inductive Sent where
  | update (b : Sql.Bound)
  | query (b : Sql.Bound)

namespace Sent

def bound : Sent → Sql.Bound
  | .update b | .query b => b

def run (E : Engine Fault Store Link) (sent : Sent) (store : Store) (link : Link) :
    Bool × Store × Link :=
  match sent with
  | .update b => ((failure? (E.execute b store link).1).isSome, (E.execute b store link).2)
  | .query b => ((failure? (E.query b store link).1).isSome, (E.query b store link).2)

end Sent

/-- A statement that has been run, with the store and the connection before and after it. -/
structure Turn (Store Link : Type) where
  sent : Sent
  failed : Bool
  before : Store × Link
  after : Store × Link

def Sent.turn (E : Engine Fault Store Link) (sent : Sent) (store : Store) (link : Link) :
    Turn Store Link :=
  ⟨sent, (sent.run E store link).1, (store, link), (sent.run E store link).2⟩

def Turn.IsInside (E : Engine Fault Store Link) (t : Turn Store Link) : Prop :=
  E.autocommit t.before.2 = false ∧ E.autocommit t.after.2 = false

/-- The statements of a request. -/
inductive Script where
  | nothing
  | single (sent : Sent)
  /-- The data query is run once the count query has answered a number. -/
  | page (count data : Sql.Bound)

namespace Script

def ofBound (f : Sql.Bound → Sent) : Except Error Sql.Bound → Script
  | .ok b => .single (f b)
  | .error _ => .nothing

def ofPage : Except Error (Sql.Bound × Sql.Bound) → Script
  | .ok (count, data) => .page count data
  | .error _ => .nothing

def statements : Script → List Sql.Bound
  | .nothing => []
  | .single sent => [sent.bound]
  | .page count data => [count, data]

/-- Runs a script on a connection; also answers the statements that have been run, in order. -/
def run (E : Engine Fault Store Link) (c : Script) (store : Store) (link : Link) :
    List (Turn Store Link) × Store × Link :=
  match c with
  | .nothing => ([], store, link)
  | .single sent => ([sent.turn E store link], (sent.run E store link).2)
  | .page count data =>
    let first := (Sent.query count).turn E store link
    match (E.query count store link).1 with
    | .error _ => ([first], first.after)
    | .ok rows =>
      match Gateway.pageCount (rows.map Row.ofColumns) with
      | .error _ => ([first], first.after)
      | .ok _ =>
        let second := (Sent.query data).turn E first.after.1 first.after.2
        ([first, second], second.after)

section

variable {E : Engine Fault Store Link} {count data : Sql.Bound} {store : Store} {link : Link}
  {after : Store × Link}

theorem run_page_error {e : Fault} (h : E.query count store link = (.error e, after)) :
    (page count data).run E store link = ([(Sent.query count).turn E store link], after) := by
  unfold run
  simp only [h, Sent.turn, Sent.run]

theorem run_page_stopped {rows : List ResultRow} (h : E.query count store link = (.ok rows, after))
    {e : Error} (hn : Gateway.pageCount (rows.map Row.ofColumns) = .error e) :
    (page count data).run E store link = ([(Sent.query count).turn E store link], after) := by
  unfold run
  simp only [h, hn, Sent.turn, Sent.run]

theorem run_page_ok {rows : List ResultRow} (h : E.query count store link = (.ok rows, after))
    {total : UInt64} (hn : Gateway.pageCount (rows.map Row.ofColumns) = .ok total) :
    (page count data).run E store link =
      ([(Sent.query count).turn E store link, (Sent.query data).turn E after.1 after.2],
        (E.query data after.1 after.2).2) := by
  unfold run
  simp only [h, hn, Sent.turn, Sent.run]

/-- What holds before a script and is kept by each of its statements holds after it. A statement is
run only after statements that have not failed. -/
theorem run_induction (E : Engine Fault Store Link) (c : Script) (store : Store) (link : Link)
    {P : List (Turn Store Link) → Store → Link → Prop} (hstart : P [] store link)
    (hturn : ∀ turns store link, ∀ sent : Sent, sent.bound ∈ c.statements →
      (∀ t ∈ turns, t.failed = false) → P turns store link →
        P (turns ++ [sent.turn E store link]) (sent.run E store link).2.1
          (sent.run E store link).2.2) :
    P (c.run E store link).1 (c.run E store link).2.1 (c.run E store link).2.2 := by
  have hfirst (sent : Sent) (hsent : sent.bound ∈ c.statements) :=
    hturn [] store link sent hsent (fun _ ht => absurd ht List.not_mem_nil) hstart
  cases c with
  | nothing => exact hstart
  | single sent => exact hfirst sent List.mem_cons_self
  | page count data =>
    have hcount := hfirst (.query count) List.mem_cons_self
    have hafter : ((Sent.query count).run E store link).2 = (E.query count store link).2 := rfl
    rw [hafter] at hcount
    cases hq : E.query count store link with
    | mk result after =>
      rw [hq] at hcount
      cases result with
      | error e =>
        rw [run_page_error hq]
        exact hcount
      | ok rows =>
        cases hn : Gateway.pageCount (rows.map Row.ofColumns) with
        | error e =>
          rw [run_page_stopped hq hn]
          exact hcount
        | ok total =>
          have hok : ∀ t ∈ [(Sent.query count).turn E store link], t.failed = false := by
            intro t ht
            rw [List.mem_singleton.1 ht]
            simp only [Sent.turn, Sent.run, hq]
            rfl
          have hdata := hturn _ _ _ (.query data)
            (List.mem_cons_of_mem _ List.mem_cons_self) hok hcount
          rw [run_page_ok hq hn]
          exact hdata

theorem bound_mem_statements {c : Script} :
    ∀ t ∈ (c.run E store link).1, t.sent.bound ∈ c.statements := by
  refine c.run_induction E store link
    (P := fun turns _ _ => ∀ t ∈ turns, t.sent.bound ∈ c.statements)
    (fun _ ht => absurd ht List.not_mem_nil) ?_
  intro turns store' link' sent hsent _ ih t ht
  rcases List.mem_append.1 ht with ht | ht
  · exact ih t ht
  · rw [List.mem_singleton.1 ht]
    exact hsent

end

end Script

variable [Reportable Fault]

theorem Session.useHandle_of_get? {h : Handle} (access : Access Fault Store Link α)
    {r : Registry Store Link} {src : Source Store Link} (hsrc : r.sources.get? h.source = some src) :
    useHandle h access r = ((src.pool.use h.link access).1.mapError .ofFault,
      r.setPool h.source (src.pool.use h.link access).2) := by
  unfold useHandle Registry.get
  rw [hsrc]

theorem Session.giveUp_of_get? {source : String} (n : Nat) {r : Registry Store Link}
    {src : Source Store Link} (hsrc : r.sources.get? source = some src) :
    giveUp (.pooled source n) r = r.setPool source (src.pool.release n) := by
  unfold giveUp
  simp only [hsrc]

/-- Why a session has no connection: nothing is idle where it would take one, or else its source is not
known. -/
def Session.obstacle (source : String) (s : Session) (r : Registry Store Link) : Error :=
  if s.isActive = false ∧ (r.sources.get? source).isSome then .pool else .unknownDataSource source

theorem Session.withLink_none {source : String} (access : Access Fault Store Link α) {s : Session}
    {r : Registry Store Link} (h : s.connection? source r = none) :
    s.withLink source access r = (.error (s.obstacle source r), r) := by
  unfold connection? link? at h
  unfold withLink resolve obstacle isActive
  cases ht : s.transaction with
  | some t =>
    cases hn : t.links.get? source with
    | none =>
      simp only [hn]
      rfl
    | some n =>
      cases hsrc : r.sources.get? source with
      | some src => simp [hsrc, ht, hn] at h
      | none =>
        have hget : r.get source = .error (.unknownDataSource source) := by
          unfold Registry.get
          rw [hsrc]
        simp only [hn, useHandle, Handle.source, hget, giveUp]
        rfl
  | none =>
    unfold takePooled Registry.get Pool.checkout?
    cases hsrc : r.sources.get? source with
    | none => rfl
    | some src =>
      cases hidle : src.pool.idle with
      | cons n rest => simp [hsrc, ht, hidle] at h
      | nil =>
        simp only [hidle]
        rfl

theorem Session.withLink_some {source : String} (access : Access Fault Store Link α) {s : Session}
    {r : Registry Store Link} {src : Source Store Link} {n : Nat}
    (h : s.connection? source r = some (src, n)) :
    s.withLink source access r = ((src.pool.use n access).1.mapError .ofFault,
      r.setPool source (src.pool.use n access).2) := by
  obtain ⟨hsrc, hn⟩ := connection?_eq_some.1 h
  have hget : r.get source = .ok src := by
    unfold Registry.get
    rw [hsrc]
  unfold link? at hn
  unfold withLink resolve
  cases ht : s.transaction with
  | some t =>
    rw [ht] at hn
    dsimp only at hn
    have huse := useHandle_of_get? (h := .transactional source n) access hsrc
    simp only [hn, huse]
    rfl
  | none =>
    rw [ht] at hn
    obtain ⟨rest, hidle⟩ := List.head?_eq_some_iff.1 hn
    set q : Pool Store Link := { src.pool with idle := rest }
    have hc : src.pool.checkout? = some (n, q) := by
      unfold Pool.checkout?
      rw [hidle]
    obtain ⟨hresult, hpool⟩ := Pool.use_of_checkout? hc access
    have htake : takePooled source r = (.ok n, r.setPool source q) := by
      unfold takePooled
      simp only [hget, hc]
    have htaken : (r.setPool source q).sources.get? source = some { src with pool := q } := by
      rw [Registry.get?_setPool, if_pos rfl, hsrc]
      rfl
    have huse := useHandle_of_get? (h := .pooled source n) access htaken
    have hused : ((r.setPool source q).setPool source (q.use n access).2).sources.get? source =
        some { src with pool := (q.use n access).2 } := by
      rw [Registry.get?_setPool, if_pos rfl, htaken]
      rfl
    have hgive := giveUp_of_get? n hused
    rw [Registry.setPool_setPool, Registry.setPool_setPool, hpool] at hgive
    simp only [htake, Except.map, huse, Handle.source, Handle.link, Registry.setPool_setPool,
      hgive, hresult]

/-- A use of its connection leaves a session with the same one. -/
theorem Session.connection?_setPool {source : String} {s : Session} {r : Registry Store Link}
    {src : Source Store Link} {n : Nat} (h : s.connection? source r = some (src, n))
    {p : Pool Store Link} (hidle : p.idle = src.pool.idle) :
    s.connection? source (r.setPool source p) = some ({ src with pool := p }, n) := by
  obtain ⟨hsrc, hn⟩ := connection?_eq_some.1 h
  rw [connection?_eq_some, Registry.get?_setPool, if_pos rfl, hsrc, hidle]
  exact ⟨rfl, hn⟩

def Request.script : Request → Script
  | .dataSource => .nothing
  | .insert table record | .insertReturningId table record =>
    .ofBound .update (Gateway.bindInsert table record)
  | .update table record conditions => .ofBound .update (Gateway.bindUpdate table record conditions)
  | .delete table conditions => .ofBound .update (Gateway.bindDelete table conditions)
  | .count table conditions => .ofBound .query (Sql.Statement.count table conditions).bind
  | .select _ table conditions order =>
    .ofBound .query (Sql.Statement.select table conditions order).bind
  | .exec sql args => .ofBound .update (args.bind sql)
  | .query _ sql args | .selectOne _ sql args => .ofBound .query (args.bind sql)
  | .page _ sql countSql request =>
    .ofPage (Gateway.bindPage sql (countSql.getD (Gateway.countSql sql)) request)

theorem Script.statements_ofBound (bound : Except Error Sql.Bound) :
    (ofBound .update bound).statements = boundOf bound ∧
      (ofBound .query bound).statements = boundOf bound := by
  cases bound with
  | ok b => exact ⟨rfl, rfl⟩
  | error e => exact ⟨rfl, rfl⟩

theorem Script.statements_ofPage (sql countSql : String) (request : PageRequest) :
    (ofPage (Gateway.bindPage sql countSql request)).statements =
      pageStatements sql countSql request := by
  unfold pageStatements
  cases Gateway.bindPage sql countSql request with
  | ok p => rfl
  | error e => rfl

theorem Request.statements_script (q : Request) : q.script.statements = q.statements := by
  cases q with
  | dataSource => rfl
  | page kind sql countSql request => exact Script.statements_ofPage sql _ request
  | count table conditions => exact (Script.statements_ofBound _).2
  | select kind table conditions order => exact (Script.statements_ofBound _).2
  | query kind sql args => exact (Script.statements_ofBound _).2
  | selectOne kind sql args => exact (Script.statements_ofBound _).2
  | insert table record => exact (Script.statements_ofBound _).1
  | insertReturningId table record => exact (Script.statements_ofBound _).1
  | update table record conditions => exact (Script.statements_ofBound _).1
  | delete table conditions => exact (Script.statements_ofBound _).1
  | exec sql args => exact (Script.statements_ofBound _).1

/-- An operation runs a script on the connection of its session at a source, and does nothing else. -/
def Operation.Plays (E : Engine Fault Store Link) (source : String) (c : Script)
    (op : Operation Store Link α) : Prop :=
  ∀ (s : Session) (r : Registry Store Link),
    match s.connection? source r with
    | none => (op s r).2 = r
    | some (src, n) => ∀ name, (op s r).2.sources.get? name =
        if name = source then some (src.after n (c.run E src.pool.store (src.pool.link n)).2)
        else r.sources.get? name

namespace Operation.Plays

variable {E : Engine Fault Store Link} {source : String} {c : Script} {op : Operation Store Link α}

omit [Reportable Fault] in
theorem nothing (h : ∀ s r, (op s r).2 = r) : Operation.Plays E source .nothing op := by
  intro s r
  rw [h]
  cases hc : s.connection? source r with
  | none => rfl
  | some c =>
    obtain ⟨src, n⟩ := c
    intro name
    split_ifs with hname
    · rw [hname]
      unfold Script.run Source.after
      rw [Pool.put_self]
      exact (Session.connection?_eq_some.1 hc).1
    · rfl

theorem withLink {access : Access Fault Store Link α}
    (h : ∀ store link, (access store link).2 = (c.run E store link).2) :
    Operation.Plays E source c (Session.withLink source access) := by
  intro s r
  cases hc : s.connection? source r with
  | none =>
    rw [Session.withLink_none access hc]
  | some found =>
    obtain ⟨src, n⟩ := found
    intro name
    rw [Session.withLink_some access hc, Registry.get?_setPool, Pool.use_snd, h]
    split_ifs with hname
    · rw [hname, (Session.connection?_eq_some.1 hc).1]
      rfl
    · rfl

omit [Reportable Fault] in
theorem andThen (h : Operation.Plays E source c op) (f : α → Except Error β) :
    Operation.Plays E source c (Gateway.andThen op f) := h

omit [Reportable Fault] in
theorem run {f : Sql.Bound → Sent} {bound : Except Error Sql.Bound}
    {use : Sql.Bound → Operation Store Link α}
    (h : ∀ b, Operation.Plays E source (.single (f b)) (use b)) :
    Operation.Plays E source (.ofBound f bound) (Gateway.run bound use) := by
  cases bound with
  | ok b => exact h b
  | error e => exact nothing fun _ _ => rfl

theorem page (g : Gateway) (read : Row → Except RowFault α) (sql countSql : String)
    (request : PageRequest) :
    Operation.Plays E g.source (.ofPage (Gateway.bindPage sql countSql request))
      (g.selectPageWithCount E read sql countSql request) := by
  intro s r
  unfold Gateway.selectPageWithCount Gateway.runQuery Gateway.andThen
  cases Gateway.bindPage sql countSql request with
  | error e =>
    have hnone : Operation.Plays E g.source .nothing
        fun (_ : Session) (r : Registry Store Link) => ((.error e : Except Error Unit), r) :=
      nothing fun _ _ => rfl
    exact hnone s r
  | ok bound =>
    obtain ⟨count, data⟩ := bound
    cases hc : s.connection? g.source r with
    | none =>
      simp only [Session.withLink_none (E.query count) hc, Except.bind]
    | some found =>
      obtain ⟨src, n⟩ := found
      intro name
      have hsrc := (Session.connection?_eq_some.1 hc).1
      have hfirst := Session.withLink_some (E.query count) hc
      have hsecond := Session.withLink_some (E.query data)
        (Session.connection?_setPool hc (p := (src.pool.use n (E.query count)).2) rfl)
      have hget (p : Pool Store Link) : (r.setPool g.source p).sources.get? name =
          if name = g.source then some { src with pool := p } else r.sources.get? name := by
        rw [Registry.get?_setPool]
        split_ifs with hname
        · rw [hname, hsrc]
          rfl
        · rfl
      rw [Pool.use_snd] at hfirst hsecond
      unfold Pool.use at hfirst
      unfold Script.ofPage Source.after
      cases hq : E.query count src.pool.store (src.pool.link n) with
      | mk result after =>
        rw [hq] at hfirst hsecond
        cases result with
        | error e =>
          rw [Script.run_page_error hq]
          simp only [hfirst, Except.mapError, Except.bind, hget]
        | ok rows =>
          simp only [hfirst, Except.mapError, Except.bind]
          cases hn : Gateway.pageCount (rows.map Row.ofColumns) with
          | error e =>
            rw [Script.run_page_stopped hq hn]
            simp only [hget]
          | ok total =>
            rw [Script.run_page_ok hq hn]
            simp only [hsecond, Registry.setPool_setPool, hget, Pool.use_snd, Pool.put_put,
              Pool.link_put, if_true, Pool.store_put]

end Operation.Plays

/-- A request runs its script on the connection of its session, and does nothing else. -/
theorem World.get?_request (E : Engine Fault Store Link) (id : String) (g : Gateway) (q : Request)
    (w : World Store Link) :
    (w.request E id g q).2.sessions = w.sessions ∧
      match (w.session id).connection? g.source w.registry with
      | none => (w.request E id g q).2.registry = w.registry
      | some (src, n) => ∀ name, (w.request E id g q).2.registry.sources.get? name =
        if name = g.source then
          some (src.after n (q.script.run E src.pool.store (src.pool.link n)).2)
        else w.registry.sources.get? name := by
  have hupdate {bound : Except Error Sql.Bound} :
      Operation.Plays E g.source (.ofBound .update bound) (Gateway.run bound (g.runUpdate E)) :=
    .run fun b => .withLink fun _ _ => rfl
  have hrunQuery (b : Sql.Bound) : Operation.Plays E g.source (.single (.query b)) (g.runQuery E b) :=
    .andThen (.withLink fun _ _ => rfl) _
  have hquery {bound : Except Error Sql.Bound} :
      Operation.Plays E g.source (.ofBound .query bound) (Gateway.run bound (g.runQuery E)) :=
    .run hrunQuery
  cases q with
  | dataSource =>
    have hnone : Operation.Plays E g.source .nothing
        fun (_ : Session) (r : Registry Store Link) => ((.ok () : Except Error Unit), r) :=
      .nothing fun _ _ => rfl
    exact ⟨rfl, hnone (w.session id) w.registry⟩
  | insert table record => exact ⟨rfl, hupdate _ _⟩
  | insertReturningId table record =>
    refine ⟨rfl, Operation.Plays.run (fun b => .withLink fun store link => ?_) _ _⟩
    have hrun : ((Script.single (.update b)).run E store link).2 = (E.execute b store link).2 := rfl
    rw [hrun]
    cases E.execute b store link with
    | mk result after =>
      cases result with
      | ok n => rfl
      | error e => rfl
  | update table record conditions => exact ⟨rfl, hupdate _ _⟩
  | delete table conditions => exact ⟨rfl, hupdate _ _⟩
  | count table conditions =>
    exact ⟨rfl, Operation.Plays.run (fun b => .andThen (hrunQuery b) _) _ _⟩
  | select kind table conditions order =>
    exact ⟨rfl, Operation.Plays.run (fun b => .andThen (hrunQuery b) _) _ _⟩
  | exec sql args => exact ⟨rfl, hupdate _ _⟩
  | query kind sql args =>
    have hop : Operation.Plays E g.source _ (g.query E kind.read sql args) := .andThen hquery _
    exact ⟨rfl, hop _ _⟩
  | selectOne kind sql args =>
    have hop : Operation.Plays E g.source _ (g.selectOne E kind.read sql args) := .andThen hquery _
    exact ⟨rfl, hop _ _⟩
  | page kind sql countSql request =>
    cases countSql with
    | none => exact ⟨rfl, Operation.Plays.page g kind.read sql _ request _ _⟩
    | some text => exact ⟨rfl, Operation.Plays.page g kind.read sql text request _ _⟩

structure Registry.Quiet (r r' : Registry Store Link) : Prop where
  source : ∀ name s', r'.sources.get? name = some s' →
    ∃ s, r.sources.get? name = some s ∧ s'.pool.store = s.pool.store ∧ s'.pool.link = s.pool.link

namespace Registry.Quiet

variable {r r' r'' : Registry Store Link}

theorem refl (r : Registry Store Link) : r.Quiet r := ⟨fun _ s hs => ⟨s, hs, rfl, rfl⟩⟩

theorem trans (h : r.Quiet r') (h' : r'.Quiet r'') : r.Quiet r'' := by
  refine ⟨fun name s'' hs'' => ?_⟩
  obtain ⟨s', hs', hstore', hlink'⟩ := h'.source name s'' hs''
  obtain ⟨s, hs, hstore, hlink⟩ := h.source name s' hs'
  exact ⟨s, hs, hstore'.trans hstore, hlink'.trans hlink⟩

theorem setPool {name : String} {s : Source Store Link} {p : Pool Store Link}
    (hs : r.sources.get? name = some s) (hstore : p.store = s.pool.store)
    (hlink : p.link = s.pool.link) : r.Quiet (r.setPool name p) := by
  refine ⟨fun other s' hs' => ?_⟩
  rw [get?_setPool] at hs'
  split_ifs at hs' with heq
  · rw [heq, hs] at hs'
    cases hs'
    exact ⟨s, heq ▸ hs, hstore, hlink⟩
  · exact ⟨s', hs', rfl, rfl⟩

end Registry.Quiet

namespace Session

variable {r r' : Registry Store Link}

theorem quiet_giveUp (h : Handle) (r : Registry Store Link) : r.Quiet (giveUp h r) := by
  cases h with
  | transactional source n => exact .refl r
  | pooled source n =>
    cases hsrc : r.sources.get? source with
    | none =>
      unfold giveUp
      simp only [hsrc]
      exact .refl r
    | some src =>
      rw [giveUp_of_get? n hsrc]
      exact .setPool hsrc rfl rfl

theorem quiet_takePooled {source : String} {n : Nat} (h : takePooled source r = (.ok n, r')) :
    r.Quiet r' := by
  unfold takePooled Registry.get at h
  cases hsrc : r.sources.get? source with
  | none => simp [hsrc] at h
  | some src =>
    cases hc : src.pool.checkout? with
    | none => simp [hsrc, hc] at h
    | some c =>
      obtain ⟨m, q⟩ := c
      obtain ⟨-, hq⟩ := Pool.idle_of_checkout? hc
      simp only [hsrc, hc, Prod.mk.injEq] at h
      rw [← h.2]
      exact .setPool hsrc (by rw [hq]) (by rw [hq])

theorem quiet_resolve {source : String} {s : Session} {h : Handle}
    (hr : s.resolve source r = (.ok h, r')) : r.Quiet r' := by
  unfold resolve at hr
  cases ht : s.transaction with
  | some t =>
    cases hn : t.links.get? source with
    | none => simp [ht, hn] at hr
    | some n =>
      simp only [ht, hn, Prod.mk.injEq] at hr
      exact hr.2 ▸ .refl r
  | none =>
    cases htake : takePooled source r with
    | mk result taken =>
      cases result with
      | error e => simp [ht, htake, Except.map] at hr
      | ok n =>
        simp only [ht, htake, Except.map, Prod.mk.injEq] at hr
        exact hr.2 ▸ quiet_takePooled htake

theorem quiet_release (key : String) (s : Session) (r : Registry Store Link) :
    r.Quiet (s.release key r).2.2 := by
  unfold release
  cases s.handles.get? key with
  | none => exact .refl r
  | some h => exact quiet_giveUp h r

theorem quiet_keep (key : String) (h : Handle) (s : Session) (r : Registry Store Link) :
    r.Quiet (s.keep key h r).2 := by
  unfold keep
  cases s.handles.get? key with
  | none => exact .refl r
  | some old => exact quiet_giveUp old r

theorem quiet_giveUpAll (hs : Keyed Handle) (r : Registry Store Link) :
    r.Quiet (hs.foldl (fun r e => giveUp e.2 r) r) := by
  induction hs generalizing r with
  | nil => exact .refl r
  | cons e hs ih => exact (quiet_giveUp e.2 r).trans (ih _)

end Session

namespace World

theorem quiet_giveUp (key : String) (w : World Store Link) :
    w.registry.Quiet (w.giveUp key).2.registry := by
  unfold giveUp
  cases w.keeper? key with
  | none => exact .refl _
  | some id => exact (w.session id).quiet_release key w.registry

theorem quiet_keep (id key : String) (h : Handle) (w : World Store Link) :
    w.registry.Quiet (w.keep id key h).registry :=
  (w.quiet_giveUp key).trans (Session.quiet_keep key h _ _)

omit [Reportable Fault] in
/-- Whoever resolves, keeps or gives up connections leaves them all as they are. -/
theorem quiet_resolve (E : Engine Fault Store Link) (id source : String) (key : Option String)
    (w : World Store Link) : w.registry.Quiet (w.resolve E id source key).2.registry := by
  rcases resolve_cases E w id source key with hsame | ⟨h, r', hr, hgiven | ⟨key, hkept⟩⟩
  · rw [hsame]
    exact .refl _
  · rw [hgiven]
    exact (Session.quiet_resolve hr).trans (Session.quiet_giveUp h r')
  · rw [hkept]
    exact (Session.quiet_resolve hr).trans (quiet_keep id key h ⟨r', w.sessions⟩)

theorem quiet_hold (id source key : String) (w : World Store Link) :
    w.registry.Quiet (w.hold id source key).2.registry := by
  rcases w.hold_cases id source key with hsame | ⟨n, r', hr, hkept⟩
  · rw [hsame]
    exact .refl _
  · rw [hkept]
    exact (Session.quiet_takePooled hr).trans (quiet_keep id key _ ⟨r', w.sessions⟩)

end World

/-- A session that begins is refused at once, or what its transaction meets at the sources decides. -/
theorem Session.begin_cases (E : Engine Fault Store Link) (level : Level) (s : Session)
    (r : Registry Store Link) :
    (∃ e, s.begin E level r = (.error e, s, r)) ∨
      s.transaction = none ∧
        ((∃ links m, Transaction.beginAll E level r.sources = (.ok links, m) ∧
          s.begin E level r = (.ok (), ⟨some ⟨level, links⟩, s.handles⟩, ⟨m, r.default⟩)) ∨
        ∃ e m, Transaction.beginAll E level r.sources = (.error e, m) ∧
          s.begin E level r = (.error e, s, ⟨m, r.default⟩)) := by
  unfold Session.begin Transaction.begin
  split_ifs with hlent
  · exact .inl ⟨_, rfl⟩
  · cases ht : s.transaction with
    | some t => exact .inl ⟨_, rfl⟩
    | none =>
      refine .inr ⟨rfl, ?_⟩
      cases hb : Transaction.beginAll E level r.sources with
      | mk result m =>
        cases result with
        | ok links => exact .inl ⟨links, m, rfl, rfl⟩
        | error e => exact .inr ⟨e, m, rfl, rfl⟩

end DataAccess
