import DataAccess.Proofs.Session.Refusal
import DataAccess.Proofs.Session.Uses

/-!
What calls need of the pools. A call uses the connection that its session has at a source: that of the
transaction, or else the one that is idle on top, which it puts back before it takes one again. Which other
connections are idle, there and at all other sources, makes no difference to it, and it leaves as many
checked out as there were: `Call.operate_footprint`.
-/
namespace DataAccess

variable {Fault Store Link α β : Type} [Reportable Fault]

def Source.withIdle (s : Source Store Link) (idle : List Nat) : Source Store Link :=
  { s with pool := { s.pool with idle := idle } }

namespace Registry

def withIdle (r : Registry Store Link) (idle : String → List Nat) : Registry Store Link :=
  { r with sources := r.sources.map fun e => (e.1, e.2.withIdle (idle e.1)) }

def occupancy (r : Registry Store Link) (name : String) : Option (Nat × List Nat) :=
  (r.sources.get? name).map fun s => (s.pool.checkedOut, s.pool.idle)

theorem get?_withIdle (r : Registry Store Link) (idle : String → List Nat) (name : String) :
    (r.withIdle idle).sources.get? name =
      (r.sources.get? name).map (·.withIdle (idle name)) := by
  obtain ⟨sources, default⟩ := r
  unfold withIdle
  dsimp only
  induction sources with
  | nil => rfl
  | cons e rest ih =>
    obtain ⟨key, s⟩ := e
    rw [List.map_cons, Keyed.get?_cons, Keyed.get?_cons, ih]
    split_ifs with h
    · rw [h]
      rfl
    · rfl

theorem setPool_withIdle (r : Registry Store Link) (idle : String → List Nat) (name : String)
    (p : Pool Store Link) :
    (r.withIdle idle).setPool name { p with idle := idle name } =
      (r.setPool name p).withIdle idle := by
  unfold withIdle setPool Keyed.modify
  dsimp only
  rw [List.map_map, List.map_map]
  congr 1
  refine List.map_congr_left fun e _ => ?_
  by_cases h : e.1 = name
  · simp [h, Source.withIdle]
  · simp [h]

theorem occupancy_setPool {r : Registry Store Link} {source : String} {src : Source Store Link}
    (hsrc : r.sources.get? source = some src) {p : Pool Store Link} (hsize : p.size = src.pool.size)
    (hidle : p.idle = src.pool.idle) (name : String) :
    (r.setPool source p).occupancy name = r.occupancy name := by
  unfold occupancy
  rw [get?_setPool]
  split_ifs with h
  · rw [h, hsrc]
    simp [Pool.checkedOut, hsize, hidle]
  · rfl

end Registry

def Operation.followedBy (op : Operation Store Link α) (next : α → Operation Store Link β) :
    Operation Store Link β := fun s r =>
  match op s r with
  | (.error e, r) => (.error e, r)
  | (.ok a, r) => next a s r

def Session.IsServed (source : String) (s : Session) (r : Registry Store Link) : Prop :=
  s.isActive = true ∨ ∃ out n rest, r.occupancy source = some (out, n :: rest)

/-- The session has the connection at the source that it would have with other connections idle. -/
def Session.SharesLink (source : String) (s : Session) (r : Registry Store Link)
    (idle : List Nat) : Prop :=
  ∀ out now, r.occupancy source = some (out, now) → s.link? source idle = s.link? source now

/-- An operation on a source needs its session to have a connection there, and leaves all others alone. -/
structure Operation.Confined (source : String) (op : Operation Store Link α) : Prop where
  /-- What it takes it puts back where it was. -/
  neutral : ∀ s r name, (op s r).2.occupancy name = r.occupancy name
  served : ∀ s r, s.IsServed source r → (op s r).1 ≠ .error .pool
  /-- It would fail, or do something else, if it took a second connection or one of another source. -/
  blind : ∀ s r idle, s.SharesLink source r (idle source) →
    op s (r.withIdle idle) = ((op s r).1, (op s r).2.withIdle idle)

namespace Operation.Confined

variable {source : String} {op : Operation Store Link α}

theorem error {e : Error} (he : e ≠ .pool) :
    Operation.Confined source fun (_ : Session) (r : Registry Store Link) =>
      ((.error e : Except Error α), r) where
  neutral _ _ _ := rfl
  served _ _ _ h := he (Except.error.inj h)
  blind _ _ _ _ := rfl

theorem andThen (h : Operation.Confined source op) {f : α → Except Error β}
    (hf : ∀ a, f a ≠ .error .pool) : Operation.Confined source (Gateway.andThen op f) where
  neutral := h.neutral
  served s r hs hpool := by
    unfold Gateway.andThen at hpool
    have hop := h.served s r hs
    cases hr : (op s r).1 with
    | error e =>
      rw [hr] at hop hpool
      obtain rfl : e = .pool := Except.error.inj hpool
      exact hop rfl
    | ok a =>
      rw [hr] at hpool
      exact hf a hpool
  blind s r idle hidle := by
    unfold Gateway.andThen
    rw [h.blind s r idle hidle]

theorem run {bound : Except Error Sql.Bound} (hbound : Refuses bound)
    {use : Sql.Bound → Operation Store Link α} (h : ∀ b, Operation.Confined source (use b)) :
    Operation.Confined source (Gateway.run bound use) := by
  cases bound with
  | ok b => exact h b
  | error e =>
    refine error fun he => ?_
    have := hbound e rfl
    rw [he] at this
    cases this

theorem followedBy (h : Operation.Confined source op) {next : α → Operation Store Link β}
    (hnext : ∀ a, Operation.Confined source (next a)) :
    Operation.Confined source (op.followedBy next) := by
  -- the second operation finds idle what the first has found, so that it is served where the first is
  have hneutral := h.neutral
  have hserved := h.served
  have hblind := h.blind
  unfold Operation.followedBy
  constructor
  · intro s r name
    specialize hneutral s r name
    cases hr : op s r with
    | mk result r' =>
      rw [hr] at hneutral
      cases result with
      | error e => exact hneutral
      | ok a => exact ((hnext a).neutral s r' name).trans hneutral
  · intro s r hs
    specialize hneutral s r source
    specialize hserved s r hs
    cases hr : op s r with
    | mk result r' =>
      rw [hr] at hneutral hserved
      cases result with
      | error e => exact fun he => hserved (congrArg _ (Except.error.inj he))
      | ok a =>
        refine (hnext a).served s r' ?_
        unfold Session.IsServed
        rwa [hneutral]
  · intro s r idle hidle
    specialize hneutral s r source
    rw [hblind s r idle hidle]
    cases hr : op s r with
    | mk result r' =>
      rw [hr] at hneutral
      cases result with
      | error e => rfl
      | ok a =>
        refine (hnext a).blind s r' idle ?_
        unfold Session.SharesLink
        rwa [hneutral]

end Operation.Confined

namespace Session

variable {source : String} {s : Session} {r : Registry Store Link}

theorem connection?_withIdle {idle : String → List Nat}
    (h : s.SharesLink source r (idle source)) :
    s.connection? source (r.withIdle idle) =
      (s.connection? source r).map fun c => (c.1.withIdle (idle source), c.2) := by
  unfold connection?
  rw [Registry.get?_withIdle]
  cases hsrc : r.sources.get? source with
  | none => rfl
  | some src =>
    have hoccupancy : r.occupancy source = some (src.pool.checkedOut, src.pool.idle) := by
      unfold Registry.occupancy
      rw [hsrc]
      rfl
    have hlink : s.link? source (idle source) = s.link? source src.pool.idle :=
      h _ _ hoccupancy
    rw [Option.map_some, Option.bind_some, Option.bind_some, Option.map_map]
    unfold Source.withIdle
    rw [hlink]
    rfl

/-- Where a connection is idle, or a transaction has them all, no pool is in the way. -/
theorem obstacle_ne_pool (h : s.IsServed source r) (hnone : s.connection? source r = none) :
    s.obstacle source r ≠ .pool := by
  unfold obstacle
  split_ifs with hobstacle
  · obtain ⟨hactive, -⟩ := hobstacle
    rcases h with h | ⟨out, n, rest, hoccupancy⟩
    · rw [hactive] at h
      cases h
    · obtain ⟨src, hsrc, hidle⟩ := Option.map_eq_some_iff.1 hoccupancy
      have htransaction : s.transaction = none := by simpa [isActive] using hactive
      have hlink : s.link? source src.pool.idle = some n := by
        unfold link?
        rw [htransaction, (Prod.mk.inj hidle).2]
        rfl
      rw [connection?_eq_some.2 ⟨hsrc, hlink⟩] at hnone
      cases hnone
  · simp

end Session

theorem Operation.Confined.withLink (source : String) (access : Access Fault Store Link α) :
    Operation.Confined source (Session.withLink source access) where
  neutral s r name := by
    cases hc : s.connection? source r with
    | none => rw [Session.withLink_none access hc]
    | some c =>
      obtain ⟨src, n⟩ := c
      rw [Session.withLink_some access hc]
      have hsrc := (Session.connection?_eq_some.1 hc).1
      exact Registry.occupancy_setPool (p := (src.pool.use n access).2) hsrc rfl rfl name
  served s r hs := by
    cases hc : s.connection? source r with
    | none =>
      rw [Session.withLink_none access hc]
      intro hpool
      exact Session.obstacle_ne_pool hs hc (Except.error.inj hpool)
    | some c =>
      obtain ⟨src, n⟩ := c
      rw [Session.withLink_some access hc]
      cases (src.pool.use n access).1 with
      | ok a => simp [Except.mapError]
      | error e => simp [Except.mapError, Error.ofFault]
  blind s r idle hidle := by
    have hother := Session.connection?_withIdle hidle
    cases hc : s.connection? source r with
    | none =>
      rw [hc] at hother
      rw [Session.withLink_none access hc, Session.withLink_none access hother]
      unfold Session.obstacle
      rw [Registry.get?_withIdle, Option.isSome_map]
    | some c =>
      obtain ⟨src, n⟩ := c
      rw [hc] at hother
      rw [Session.withLink_some access hc, Session.withLink_some access hother,
        ← Registry.setPool_withIdle]
      rfl

theorem Refuses.ne_pool {x : Except Error α} (h : Refuses x) : x ≠ .error .pool := by
  intro hx
  have := h _ hx
  cases this

theorem readRows_ne_pool (read : Row → Except RowFault α) (rows : List Row) :
    readRows read rows ≠ .error .pool := by
  unfold readRows
  cases rows.mapM read with
  | ok records => simp [Except.mapError]
  | error e => simp [Except.mapError]

namespace Gateway

variable {E : Engine Fault Store Link}

theorem refuses_bindInsert (table : String) (record : Record) : Refuses (bindInsert table record) :=
  (Record.refuses_toColumns record).bind fun _ => Sql.Statement.refuses_bind _

theorem refuses_bindUpdate (table : String) (record : Record) (conditions : Sql.ConditionSet) :
    Refuses (bindUpdate table record conditions) := by
  unfold bindUpdate
  split_ifs
  · exact .error rfl
  · exact (Record.refuses_toColumns record).bind fun _ => Sql.Statement.refuses_bind _

theorem refuses_bindDelete (table : String) (conditions : Sql.ConditionSet) :
    Refuses (bindDelete table conditions) := by
  unfold bindDelete
  split_ifs
  · exact .error rfl
  · exact Sql.Statement.refuses_bind _

theorem refuses_bindPage (sql countSql : String) (request : PageRequest) :
    Refuses (bindPage sql countSql request) :=
  request.refuses_validate.bind fun _ => (Sql.refuses_bindTemplate _ _).bind fun _ =>
    (Sql.refuses_bindTemplate _ _).bind fun _ => .ok _

theorem refuses_totalOf (row : Row) : Refuses (totalOf row) := by
  unfold totalOf
  dsimp only
  split
  · exact .ok _
  · exact .error rfl

theorem totalOfRows_ne_pool (rows : List Row) : totalOfRows rows ≠ .error .pool := by
  cases rows with
  | nil => simp [totalOfRows]
  | cons row rest => exact (refuses_totalOf row).ne_pool

theorem pageCount_ne_pool (rows : List Row) : pageCount rows ≠ .error .pool := by
  match rows with
  | [] => simp [pageCount]
  | [row] => exact (refuses_totalOf row).ne_pool
  | _ :: _ :: _ => simp [pageCount]

theorem confined_runQuery (E : Engine Fault Store Link) (g : Gateway) (b : Sql.Bound) :
    Operation.Confined g.source (g.runQuery E b) :=
  (Operation.Confined.withLink g.source (E.query b)).andThen fun _ => by simp

theorem confined_update (E : Engine Fault Store Link) (g : Gateway) {bound : Except Error Sql.Bound}
    (h : Refuses bound) : Operation.Confined g.source (run bound (g.runUpdate E)) :=
  .run h fun b => .withLink g.source (E.execute b)

theorem confined_queryRows (E : Engine Fault Store Link) (g : Gateway) (sql : String) (args : Args) :
    Operation.Confined g.source (g.queryRows E sql args) :=
  .run (args.refuses_bind sql) (confined_runQuery E g)

theorem confined_select (E : Engine Fault Store Link) (g : Gateway) (read : Row → Except RowFault α)
    (table : String) (conditions : Sql.ConditionSet) (order : List Sql.OrderTerm) :
    Operation.Confined g.source (g.select E read table conditions order) :=
  .run (Sql.Statement.refuses_bind _) fun b =>
    (confined_runQuery E g b).andThen (readRows_ne_pool read)

/-- The data query of a page is run where the count query has answered a number. -/
theorem selectPageWithCount_eq (E : Engine Fault Store Link) (g : Gateway)
    (read : Row → Except RowFault α) {sql countSql : String} {request : PageRequest}
    {count data : Sql.Bound} (h : bindPage sql countSql request = .ok (count, data)) :
    g.selectPageWithCount E read sql countSql request =
      (andThen (g.runQuery E count) pageCount).followedBy fun total =>
        andThen (g.runQuery E data) fun rows =>
          (readRows read rows).map fun rows => .make rows request total := by
  funext s r
  unfold selectPageWithCount Operation.followedBy
  rw [h]
  dsimp only
  cases andThen (g.runQuery E count) pageCount s r with
  | mk result r' => cases result <;> rfl

theorem confined_page (E : Engine Fault Store Link) (g : Gateway) (read : Row → Except RowFault α)
    (sql countSql : String) (request : PageRequest) :
    Operation.Confined g.source (g.selectPageWithCount E read sql countSql request) := by
  have hrefuses := refuses_bindPage sql countSql request
  cases hbound : bindPage sql countSql request with
  | error e =>
    unfold selectPageWithCount
    rw [hbound] at hrefuses ⊢
    refine .error fun he => ?_
    rw [he] at hrefuses
    exact hrefuses.ne_pool rfl
  | ok bound =>
    obtain ⟨count, data⟩ := bound
    have hdata (total : UInt64) : Operation.Confined g.source (andThen (g.runQuery E data)
        fun rows => (readRows read rows).map fun rows => PageResult.make rows request total) := by
      refine (confined_runQuery E g data).andThen fun rows => ?_
      have hrows := readRows_ne_pool read rows
      cases hread : readRows read rows with
      | ok records => simp [Except.map]
      | error e =>
        rw [hread] at hrows
        exact fun he => hrows (congrArg _ (Except.error.inj he))
    rw [selectPageWithCount_eq E g read hbound]
    exact ((confined_runQuery E g count).andThen pageCount_ne_pool).followedBy hdata

end Gateway

theorem Call.confined (E : Engine Fault Store Link) (g : Gateway) (read : Row → Except RowFault α)
    (c : Call) : Operation.Confined g.source (c.perform E g read) := by
  have answering {β : Type} {op : Operation Store Link β} {reply : β → Reply α}
      (h : Operation.Confined g.source op) : Operation.Confined g.source (answering op reply) :=
    h.andThen fun _ => by simp
  cases c with
  | select table conditions => exact answering (g.confined_select E read table conditions [])
  | selectOrdered table conditions order =>
    exact answering (g.confined_select E read table conditions order)
  | count table conditions =>
    exact answering (.run (Sql.Statement.refuses_bind _) fun b =>
      (g.confined_runQuery E b).andThen Gateway.totalOfRows_ne_pool)
  | update table record conditions =>
    exact answering (g.confined_update E (Gateway.refuses_bindUpdate table record conditions))
  | delete table conditions =>
    exact answering (g.confined_update E (Gateway.refuses_bindDelete table conditions))
  | insert table record =>
    exact answering (g.confined_update E (Gateway.refuses_bindInsert table record))
  | insertReturningId table record =>
    exact answering (.run (Gateway.refuses_bindInsert table record) fun b => .withLink g.source _)
  | query sql args =>
    exact answering ((g.confined_queryRows E sql args).andThen (readRows_ne_pool read))
  | queryRows sql args => exact answering (g.confined_queryRows E sql args)
  | selectOne sql args =>
    refine answering ((g.confined_queryRows E sql args).andThen fun rows => ?_)
    match rows with
    | [] => simp
    | [row] =>
      dsimp only
      cases read row with
      | ok record => simp [Except.mapError, Except.map]
      | error fault => simp [Except.mapError, Except.map]
    | _ :: _ :: _ => simp
  | exec sql args => exact answering (g.confined_update E (args.refuses_bind sql))
  | selectPage sql request =>
    exact answering (g.confined_page E read sql (Gateway.countSql sql) request)
  | selectPageWithCount sql countSql request =>
    exact answering (g.confined_page E read sql countSql request)

def World.withIdle (w : World Store Link) (idle : String → List Nat) : World Store Link :=
  { w with registry := w.registry.withIdle idle }

theorem World.operate_confined {g : Gateway} {op : Operation Store Link α}
    (h : Operation.Confined g.source op) (id : String) (w : World Store Link)
    {idle : String → List Nat}
    (hidle : (w.session id).SharesLink g.source w.registry (idle g.source)) :
    (w.withIdle idle).operate id op = ((w.operate id op).1, (w.operate id op).2.withIdle idle) := by
  have hblind := h.blind (w.session id) w.registry idle hidle
  have hsession : (w.withIdle idle).session id = w.session id := rfl
  unfold operate
  rw [hsession]
  unfold withIdle
  dsimp only
  rw [hblind]

/-- Whether it succeeds or fails, a call leaves all sessions as they are, and of every source as many
connections checked out as there were, with the same ones idle. In a transaction it takes none from a
pool: no pool fails it, and it does the same whichever connections are idle. Outside of one it has no more
than one out at a time: the pool of its source fails it only if nothing is idle there, and it does the same
as long as the connection on top is, whichever others are. -/
theorem Call.operate_footprint (E : Engine Fault Store Link) (g : Gateway)
    (read : Row → Except RowFault α) (c : Call) (id : String) (w : World Store Link) :
    let after := w.operate id (c.perform E g read)
    after.2.sessions = w.sessions ∧
      (∀ name, after.2.registry.occupancy name = w.registry.occupancy name) ∧
      ((w.session id).isActive = true → after.1 ≠ .error .pool ∧
        ∀ idle, (w.withIdle idle).operate id (c.perform E g read) =
          (after.1, after.2.withIdle idle)) ∧
      ((w.session id).isActive = false →
        ∀ src n rest, w.registry.sources.get? g.source = some src → src.pool.idle = n :: rest →
          after.1 ≠ .error .pool ∧
          ∀ idle, (idle g.source).head? = some n →
            (w.withIdle idle).operate id (c.perform E g read) =
              (after.1, after.2.withIdle idle)) := by
  have hconfined := c.confined E g read
  refine ⟨rfl, hconfined.neutral _ _, fun hactive => ?_, fun hactive src n rest hsrc hidle => ?_⟩
  · refine ⟨hconfined.served _ _ (.inl hactive), fun idle => ?_⟩
    refine World.operate_confined hconfined id w fun out now _ => ?_
    obtain ⟨t, ht⟩ := Option.isSome_iff_exists.1 hactive
    unfold Session.link?
    rw [ht]
  · have hoccupancy : w.registry.occupancy g.source = some (src.pool.checkedOut, n :: rest) := by
      unfold Registry.occupancy
      rw [hsrc, ← hidle]
      rfl
    refine ⟨hconfined.served _ _ (.inr ⟨_, n, rest, hoccupancy⟩), fun idle hhead => ?_⟩
    refine World.operate_confined hconfined id w fun out now hnow => ?_
    have htransaction : (w.session id).transaction = none := by
      simpa [Session.isActive] using hactive
    obtain rfl : n :: rest = now := (Prod.mk.inj (Option.some.inj (hoccupancy.symm.trans hnow))).2
    unfold Session.link?
    rw [htransaction]
    exact hhead

def World.ofLone (idle : List Nat) : World Database.Store Database.Link :=
  ⟨⟨[("main", (Database.inMemory "main" 1).withIdle idle)],
    "main"⟩, [("a", ⟨some ⟨.serializable, [("main", 0)]⟩, []⟩)]⟩

/-- A page needs nothing of the pool in a transaction, and the single connection outside of one. -/
theorem Call.operate_footprint_lone :
    ((World.ofLone []).operate "a" ((Call.selectPage "select id from notes" ⟨1, 10, .empty⟩).perform
        Database.engine ⟨"main"⟩ RecordKind.row.read)).1 ≠ .error .pool ∧
      ((World.ofLone [0]).operate "b"
        ((Call.selectPage "select id from notes" ⟨1, 10, .empty⟩).perform
          Database.engine ⟨"main"⟩ RecordKind.row.read)).1 ≠ .error .pool :=
  ⟨((operate_footprint Database.engine ⟨"main"⟩ RecordKind.row.read _ "a"
      (World.ofLone [])).2.2.1 rfl).1,
    ((operate_footprint Database.engine ⟨"main"⟩ RecordKind.row.read _ "b"
      (World.ofLone [0])).2.2.2 rfl _ 0 [] rfl rfl).1⟩

end DataAccess
