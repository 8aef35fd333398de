import DataAccess.Proofs.Sql.Acceptance
import DataAccess.Session.World

/-!
Refused calls. A call is refused for what its arguments are: an update or delete of everything, a page
without rows, a record without columns, or SQL that cannot be bound. All of this is found out
before a connection is asked for, so a refusal is the same whatever the session, the pools and
the databases are like, and leaves them as they are.
-/
namespace DataAccess

variable {α β : Type}

/-- Errors that arguments alone cause. -/
def Error.isRefusal : Error → Bool
  | .missingParameter _ | .parameterCountMismatch _ _ | .invalidCondition _ => true
  | .conditionRequired _ | .invalidPage _ | .mapping _ | .row _ => true
  | _ => false

def Refuses (x : Except Error α) : Prop := ∀ e, x = .error e → e.isRefusal = true

namespace Refuses

theorem ok (a : α) : Refuses (.ok a) := fun _ h => nomatch h

theorem error {e : Error} (h : e.isRefusal = true) : Refuses (.error e : Except Error α) := by
  intro e' he
  cases he
  exact h

theorem bind {x : Except Error α} {f : α → Except Error β} (hx : Refuses x)
    (hf : ∀ a, Refuses (f a)) : Refuses (x >>= f) := by
  intro e h
  cases x with
  | error e' =>
    cases h
    exact hx e rfl
  | ok a => exact hf a e h

theorem mapM {f : α → Except Error β} (h : ∀ a, Refuses (f a)) (l : List α) :
    Refuses (l.mapM f) := by
  induction l with
  | nil => exact .ok []
  | cons a l ih =>
    rw [List.mapM_cons]
    exact (h a).bind fun b => ih.bind fun bs => .ok (b :: bs)

end Refuses

namespace Sql

theorem refuses_make (sql : String) (params : List Value) : Refuses (Bound.make sql params) := by
  unfold Bound.make
  split_ifs
  · exact .ok _
  · exact .error rfl

theorem Condition.isRefusal_fault (c : Condition) : c.fault.isRefusal = true := by
  unfold fault
  split <;> rfl

theorem ConditionSet.refuses_whereClause (s : ConditionSet) : Refuses s.whereClause := by
  intro e h
  have hfirst : (s.leaves.findSome? fun c => failure? c.fragment) = some e := by
    rw [← s.failure?_whereClause]
    exact failure?_eq_some_iff.2 h
  obtain ⟨c, -, hc⟩ := List.exists_of_findSome?_eq_some hfirst
  by_cases hfits : c.Fits
  · rw [Condition.failure?_of_fits hfits] at hc
    cases hc
  · rw [Condition.failure?_of_not_fits hfits] at hc
    cases hc
    exact c.isRefusal_fault

theorem Statement.refuses_bind (st : Statement) : Refuses st.bind := by
  cases st with
  | select table s order => exact s.refuses_whereClause.bind fun f => refuses_make _ _
  | count table s => exact s.refuses_whereClause.bind fun f => refuses_make _ _
  | insert table columns =>
    rw [bind]
    split_ifs
    · exact .error rfl
    · exact refuses_make _ _
  | update table columns s =>
    rw [bind]
    split_ifs
    · exact .error rfl
    · exact s.refuses_whereClause.bind fun f => refuses_make _ _
  | delete table s => exact s.refuses_whereClause.bind fun f => refuses_make _ _

theorem refuses_bindTemplate (template : String) (params : Params) :
    Refuses (bindTemplate template params) := by
  have hlook (name : String) : Refuses (lookUp params name) := by
    unfold lookUp
    split
    · exact .ok _
    · exact .error rfl
  exact (Refuses.mapM hlook _).bind fun values => refuses_make _ _

end Sql

theorem Args.refuses_bind (sql : String) (args : Args) : Refuses (args.bind sql) := by
  cases args with
  | none => exact Sql.refuses_make _ _
  | positional values => exact Sql.refuses_make _ _
  | named params => exact Sql.refuses_bindTemplate _ _

theorem Json.refuses_toColumns (record : Json) : Refuses record.toColumns := by
  cases record with
  | object fields => exact .ok _
  | _ => exact .error rfl

theorem Record.refuses_toColumns (record : Record) : Refuses (Record.toColumns record) := by
  cases record with
  | ok j => exact j.refuses_toColumns
  | error fault => exact .error rfl

theorem PageRequest.refuses_validate (request : PageRequest) : Refuses request.validate := by
  unfold validate
  split_ifs
  · exact .error rfl
  · exact .ok ()

inductive Call where
  | select (table : String) (conditions : Sql.ConditionSet)
  | selectOrdered (table : String) (conditions : Sql.ConditionSet) (order : List Sql.OrderTerm)
  | count (table : String) (conditions : Sql.ConditionSet)
  | update (table : String) (record : Record) (conditions : Sql.ConditionSet)
  | delete (table : String) (conditions : Sql.ConditionSet)
  | insert (table : String) (record : Record)
  | insertReturningId (table : String) (record : Record)
  | query (sql : String) (args : Args)
  | queryRows (sql : String) (args : Args)
  | selectOne (sql : String) (args : Args)
  | exec (sql : String) (args : Args)
  | selectPage (sql : String) (request : PageRequest)
  | selectPageWithCount (sql countSql : String) (request : PageRequest)

inductive Reply (α : Type) where
  | records (records : List α)
  | total (rows : UInt64)
  | changed (rows : Nat)
  | rowId (id : Int64)
  | rows (rows : List Row)
  | record (record : Option α)
  | page (result : PageResult α)

namespace Call

section Perform

variable {Fault Store Link : Type} [Reportable Fault]

def answering (op : Operation Store Link α) (reply : α → Reply β) :
    Operation Store Link (Reply β) := Gateway.andThen op fun a => .ok (reply a)

def perform (E : Engine Fault Store Link) (g : Gateway) (read : Row → Except RowFault α) :
    Call → Operation Store Link (Reply α)
  | .select table conditions => answering (g.select E read table conditions []) .records
  | .selectOrdered table conditions order =>
    answering (g.select E read table conditions order) .records
  | .count table conditions => answering (g.count E table conditions) .total
  | .update table record conditions => answering (g.update E table record conditions) .changed
  | .delete table conditions => answering (g.delete E table conditions) .changed
  | .insert table record => answering (g.insert E table record) .changed
  | .insertReturningId table record => answering (g.insertReturningId E table record) .rowId
  | .query sql args => answering (g.query E read sql args) .records
  | .queryRows sql args => answering (g.queryRows E sql args) .rows
  | .selectOne sql args => answering (g.selectOne E read sql args) .record
  | .exec sql args => answering (g.exec E sql args) .changed
  | .selectPage sql request => answering (g.selectPage E read sql request) .page
  | .selectPageWithCount sql countSql request =>
    answering (g.selectPageWithCount E read sql countSql request) .page

end Perform

/-- The conditions that a call must have, with what it is called where it has none. -/
def guarded? : Call → Option (String × Sql.ConditionSet)
  | .update _ _ conditions => some ("update", conditions)
  | .delete _ conditions => some ("delete", conditions)
  | _ => none

def page? : Call → Option PageRequest
  | .selectPage _ request | .selectPageWithCount _ _ request => some request
  | _ => none

def record? : Call → Option Record
  | .update _ record _ | .insert _ record | .insertReturningId _ record => some record
  | _ => none

def columnBindings (record : Record) (statement : Sql.Columns → Sql.Statement) :
    List (Except Error Sql.Bound) :=
  (Record.toColumns record).toOption.toList.map fun columns => (statement columns).bind

def pageBindings (sql countSql : String) (request : PageRequest) :
    List (Except Error Sql.Bound) :=
  [Sql.bindTemplate countSql request.params,
    Sql.bindTemplate (Gateway.limitSql sql) request.dataParams]

/-- Everything that a call binds, whether or not binding fails. -/
def bindings : Call → List (Except Error Sql.Bound)
  | .select table conditions => [(Sql.Statement.select table conditions []).bind]
  | .selectOrdered table conditions order => [(Sql.Statement.select table conditions order).bind]
  | .count table conditions => [(Sql.Statement.count table conditions).bind]
  | .update table record conditions => columnBindings record (.update table · conditions)
  | .delete table conditions => [(Sql.Statement.delete table conditions).bind]
  | .insert table record | .insertReturningId table record =>
    columnBindings record (.insert table ·)
  | .query sql args | .queryRows sql args | .selectOne sql args | .exec sql args =>
    [args.bind sql]
  | .selectPage sql request => pageBindings sql (Gateway.countSql sql) request
  | .selectPageWithCount sql countSql request => pageBindings sql countSql request

/-- The arguments of a call are such that it cannot be run. -/
inductive Fault (c : Call) : Error → Prop
  | unconditional {operation : String} {conditions : Sql.ConditionSet}
      (hc : c.guarded? = some (operation, conditions)) (h : conditions.isEmpty = true) :
      Fault c (.conditionRequired operation)
  | page {request : PageRequest} {e : Error} (hc : c.page? = some request)
      (h : request.validate = .error e) : Fault c e
  | record {record : Record} {e : Error} (hc : c.record? = some record)
      (h : Record.toColumns record = .error e) : Fault c e
  | binding {e : Error} (h : .error e ∈ c.bindings) : Fault c e

theorem refuses_of_mem_bindings {c : Call} : ∀ x ∈ c.bindings, Refuses x := by
  have hcolumns (record : Record) (statement : Sql.Columns → Sql.Statement) :
      ∀ x ∈ columnBindings record statement, Refuses x := by
    intro x hx
    obtain ⟨columns, -, rfl⟩ := List.mem_map.1 hx
    exact (statement columns).refuses_bind
  have hpage (sql countSql : String) (request : PageRequest) :
      ∀ x ∈ pageBindings sql countSql request, Refuses x := by
    intro x hx
    rcases List.mem_pair.1 hx with rfl | rfl
    · exact Sql.refuses_bindTemplate _ _
    · exact Sql.refuses_bindTemplate _ _
  cases c with
  | update table record conditions => exact hcolumns record _
  | insert table record | insertReturningId table record => exact hcolumns record _
  | select table conditions | selectOrdered table conditions order | count table conditions
  | delete table conditions => exact List.forall_mem_singleton.2 (Sql.Statement.refuses_bind _)
  | query sql args | queryRows sql args | selectOne sql args | exec sql args =>
    exact List.forall_mem_singleton.2 (args.refuses_bind sql)
  | selectPage sql request => exact hpage sql _ request
  | selectPageWithCount sql countSql request => exact hpage sql countSql request

theorem Fault.isRefusal {c : Call} {e : Error} (h : c.Fault e) : e.isRefusal = true := by
  cases h with
  | unconditional hc h => rfl
  | page hc h => exact PageRequest.refuses_validate _ e h
  | record hc h => exact Record.refuses_toColumns _ e h
  | binding h => exact refuses_of_mem_bindings _ h e rfl

/-- The first fault: of the conditions, the page, the record, and then the SQL in order. -/
def refusal? (c : Call) : Option Error :=
  (c.guarded?.bind fun guarded =>
      if guarded.2.isEmpty then some (.conditionRequired guarded.1) else none).or <|
    (c.page?.bind fun request => failure? request.validate).or <|
      (c.record?.bind fun record => failure? (Record.toColumns record)).or <|
        c.bindings.findSome? failure?

theorem fault_of_refusal {c : Call} {e : Error} (h : c.refusal? = some e) : c.Fault e := by
  unfold refusal? at h
  rcases Option.or_eq_some_iff.1 h with h | ⟨-, h⟩
  · obtain ⟨⟨operation, conditions⟩, hc, h⟩ := Option.bind_eq_some_iff.1 h
    dsimp only at h
    split_ifs at h with hempty
    cases h
    exact .unconditional hc hempty
  rcases Option.or_eq_some_iff.1 h with h | ⟨-, h⟩
  · obtain ⟨request, hc, h⟩ := Option.bind_eq_some_iff.1 h
    exact .page hc (failure?_eq_some_iff.1 h)
  rcases Option.or_eq_some_iff.1 h with h | ⟨-, h⟩
  · obtain ⟨record, hc, h⟩ := Option.bind_eq_some_iff.1 h
    exact .record hc (failure?_eq_some_iff.1 h)
  · obtain ⟨x, hx, h⟩ := List.exists_of_findSome?_eq_some h
    rw [failure?_eq_some_iff.1 h] at hx
    exact .binding hx

theorem refusal_of_fault {c : Call} {e : Error} (h : c.Fault e) : ∃ e', c.refusal? = some e' := by
  by_contra hn
  have hnone : c.refusal? = none := by
    rw [Option.eq_none_iff_forall_not_mem]
    intro e' he
    exact hn ⟨e', he⟩
  unfold refusal? at hnone
  simp only [Option.or_eq_none_iff] at hnone
  obtain ⟨hguarded, hpage, hrecord, hbindings⟩ := hnone
  cases h with
  | unconditional hc h =>
    rw [hc] at hguarded
    simp [h] at hguarded
  | page hc h =>
    rw [hc, Option.bind_some, h] at hpage
    cases hpage
  | record hc h =>
    rw [hc, Option.bind_some, h] at hrecord
    cases hrecord
  | binding h =>
    have hx := List.findSome?_eq_none_iff.1 hbindings _ h
    cases hx

section Refused

variable {Fault Store Link : Type} [Reportable Fault] {E : Engine Fault Store Link} {g : Gateway}
  {read : Row → Except RowFault α} {s : Session} {r : Registry Store Link} {e : Error}

theorem andThen_error {op : Operation Store Link α} {f : α → Except Error β}
    (h : op s r = (.error e, r)) : Gateway.andThen op f s r = (.error e, r) := by
  unfold Gateway.andThen
  rw [h]
  rfl

theorem error_of_answering {op : Operation Store Link α} {reply : α → Reply β}
    (h : answering op reply s r = (.error e, r)) : op s r = (.error e, r) := by
  unfold answering Gateway.andThen at h
  cases hop : op s r with
  | mk result r' =>
    rw [hop] at h
    cases result with
    | error e' =>
      cases h
      rfl
    | ok a => cases h

theorem run_error {bound : Except Error Sql.Bound} {use : Sql.Bound → Operation Store Link α}
    (h : failure? bound = some e) : Gateway.run bound use s r = (.error e, r) := by
  rw [failure?_eq_some_iff.1 h]
  rfl

theorem page_error {sql countSql : String} {request : PageRequest}
    (h : failure? (Gateway.bindPage sql countSql request) = some e) :
    g.selectPageWithCount E read sql countSql request s r = (.error e, r) := by
  unfold Gateway.selectPageWithCount
  rw [failure?_eq_some_iff.1 h]

end Refused

theorem failure?_columns (record : Record) (statement : Sql.Columns → Sql.Statement) :
    failure? (Record.toColumns record >>= fun columns => (statement columns).bind) =
      (failure? (Record.toColumns record)).or
        ((columnBindings record statement).findSome? failure?) := by
  unfold columnBindings
  cases Record.toColumns record with
  | error e => rfl
  | ok columns => exact List.findSome?_singleton.symm

theorem failure?_bindUpdate (table : String) (record : Record) (conditions : Sql.ConditionSet) :
    failure? (Gateway.bindUpdate table record conditions) =
      (if conditions.isEmpty then some (.conditionRequired "update") else none).or
        ((failure? (Record.toColumns record)).or
          ((columnBindings record (.update table · conditions)).findSome? failure?)) := by
  unfold Gateway.bindUpdate
  rw [← failure?_columns]
  split_ifs <;> rfl

theorem failure?_bindDelete (table : String) (conditions : Sql.ConditionSet) :
    failure? (Gateway.bindDelete table conditions) =
      (if conditions.isEmpty then some (.conditionRequired "delete") else none).or
        ([(Sql.Statement.delete table conditions).bind].findSome? failure?) := by
  unfold Gateway.bindDelete
  rw [List.findSome?_singleton]
  split_ifs <;> rfl

theorem failure?_bindPage (sql countSql : String) (request : PageRequest) :
    failure? (Gateway.bindPage sql countSql request) =
      (failure? request.validate).or
        ((pageBindings sql countSql request).findSome? failure?) := by
  unfold Gateway.bindPage pageBindings
  apply failure?_bind
  intro _
  rw [List.findSome?_cons, List.findSome?_singleton]
  refine (failure?_bind fun count => failure?_bind_pure _ (Prod.mk count)).trans ?_
  cases failure? (Sql.bindTemplate countSql request.params) <;> rfl

variable {Fault Store Link : Type} [Reportable Fault]

/-- A refusal is found before the gateway asks for a connection. -/
theorem perform_of_refusal {c : Call} {e : Error} (h : c.refusal? = some e)
    (E : Engine Fault Store Link) (g : Gateway) (read : Row → Except RowFault α) (s : Session)
    (r : Registry Store Link) : c.perform E g read s r = (.error e, r) := by
  have hone {x : Except Error Sql.Bound} (h : [x].findSome? failure? = some e) :
      failure? x = some e := by rwa [List.findSome?_singleton] at h
  -- each operation checks everything at once, in the order of `refusal?`
  cases c with
  | select table conditions => exact andThen_error (run_error (hone h))
  | selectOrdered table conditions order => exact andThen_error (run_error (hone h))
  | count table conditions => exact andThen_error (run_error (hone h))
  | update table record conditions =>
    exact andThen_error (run_error ((failure?_bindUpdate _ _ _).trans h))
  | delete table conditions => exact andThen_error (run_error ((failure?_bindDelete _ _).trans h))
  | insert table record => exact andThen_error (run_error ((failure?_columns _ _).trans h))
  | insertReturningId table record =>
    exact andThen_error (run_error ((failure?_columns _ _).trans h))
  | query sql args => exact andThen_error (andThen_error (run_error (hone h)))
  | queryRows sql args => exact andThen_error (run_error (hone h))
  | selectOne sql args => exact andThen_error (andThen_error (run_error (hone h)))
  | exec sql args => exact andThen_error (run_error (hone h))
  | selectPage sql request =>
    exact andThen_error (page_error ((failure?_bindPage _ _ _).trans h))
  | selectPageWithCount sql countSql request =>
    exact andThen_error (page_error ((failure?_bindPage _ _ _).trans h))

/-- A call whose arguments are at fault answers with one of its faults, the same one in every state
of the session, the pools and the databases, and leaves them as they are. No fault is an error of a
pool, of a database or about a data source. -/
theorem perform_refused {c : Call} (h : ∃ e, c.Fault e) :
    ∃ e, c.Fault e ∧
      (e ≠ .pool ∧ (∀ fault, e ≠ .database fault) ∧ ∀ source, e ≠ .unknownDataSource source) ∧
      ∀ {Fault Store Link α : Type} [Reportable Fault] (E : Engine Fault Store Link) (g : Gateway)
        (read : Row → Except RowFault α) (s : Session) (r : Registry Store Link),
        c.perform E g read s r = (.error e, r) := by
  obtain ⟨e', h⟩ := h
  obtain ⟨e, he⟩ := refusal_of_fault h
  have hfault : c.Fault e := fault_of_refusal he
  have hrefusal : e.isRefusal = true := hfault.isRefusal
  refine ⟨e, hfault, ⟨?_, ?_, ?_⟩, perform_of_refusal he⟩
  · rintro rfl
    cases hrefusal
  · rintro fault rfl
    cases hrefusal
  · rintro source rfl
    cases hrefusal

def tagPage : Call :=
  .selectPageWithCount "select * from notes where tag = \x7btag\x7d"
    "select count(0) as total from notes" ⟨1, 10, .empty⟩

theorem bindings_tagPage : ∃ b, tagPage.bindings = [.ok b, .error (.missingParameter "tag")] := by
  have hcount : Sql.countPlaceholders "select count(0) as total from notes" = 0 := by decide +kernel
  refine ⟨⟨"select count(0) as total from notes", [], hcount⟩, ?_⟩
  rfl

theorem perform_refused_tagPage :
    ∃ e, tagPage.Fault e ∧ e = .missingParameter "tag" ∧
      ∀ {Fault Store Link α : Type} [Reportable Fault] (E : Engine Fault Store Link) (g : Gateway)
        (read : Row → Except RowFault α) (s : Session) (r : Registry Store Link),
        tagPage.perform E g read s r = (.error e, r) := by
  obtain ⟨b, hb⟩ := bindings_tagPage
  have hfault : tagPage.Fault (.missingParameter "tag") := by
    refine .binding ?_
    rw [hb]
    exact List.mem_pair.2 (.inr rfl)
  obtain ⟨e, he, -, hperform⟩ := perform_refused ⟨_, hfault⟩
  refine ⟨e, he, ?_, hperform⟩
  cases he with
  | unconditional hc h => cases hc
  | page hc h =>
    cases hc
    cases h
  | record hc h => cases hc
  | binding h =>
    rw [hb] at h
    rcases List.mem_pair.1 h with h | h
    · cases h
    · cases h
      rfl

end Call

def Request.call? : Request → Option Call
  | .dataSource => none
  | .insert table record => some (.insert table record)
  | .insertReturningId table record => some (.insertReturningId table record)
  | .update table record conditions => some (.update table record conditions)
  | .delete table conditions => some (.delete table conditions)
  | .count table conditions => some (.count table conditions)
  | .select _ table conditions order => some (.selectOrdered table conditions order)
  | .exec sql args => some (.exec sql args)
  | .query _ sql args => some (.query sql args)
  | .selectOne _ sql args => some (.selectOne sql args)
  | .page _ sql none request => some (.selectPage sql request)
  | .page _ sql (some countSql) request => some (.selectPageWithCount sql countSql request)

/-- A step that makes a refused call leaves all sessions and sources as they are. -/
theorem World.request_of_refusal {Fault Store Link : Type} [Reportable Fault] {q : Request} {c : Call} {e : Error}
    (hq : q.call? = some c) (h : c.refusal? = some e) (E : Engine Fault Store Link) (id : String)
    (g : Gateway) (w : World Store Link) : w.request E id g q = (.error e, w) := by
  have hperform (kind : RecordKind) :=
    Call.perform_of_refusal h E g kind.read (w.session id) w.registry
  have hstep {β : Type} {op : Operation Store Link β} {reply : β → Reply Json} (answer : β → Answer)
      (hop : Call.answering op reply (w.session id) w.registry = (.error e, w.registry)) :
      ((w.operate id op).1.map answer, (w.operate id op).2) = (.error e, w) := by
    unfold World.operate
    rw [Call.error_of_answering hop]
    rfl
  cases q with
  | dataSource => cases hq
  | page kind sql countSql request =>
    cases countSql with
    | none =>
      cases hq
      exact hstep _ (hperform kind)
    | some text =>
      cases hq
      exact hstep _ (hperform kind)
  | select kind table conditions order =>
    cases hq
    exact hstep _ (hperform kind)
  | query kind sql args | selectOne kind sql args =>
    cases hq
    exact hstep _ (hperform kind)
  | _ =>
    cases hq
    exact hstep _ (hperform .row)

end DataAccess
