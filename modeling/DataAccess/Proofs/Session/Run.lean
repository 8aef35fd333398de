import DataAccess.Proofs.Session.Lending
import DataAccess.Session.World

/-!
Runs. A command is made of atoms, the commands without further steps inside, each taken by its own
session; what every atom keeps is kept by the command and by every run. The statements of a request
are all that it can send to a connection.
-/
namespace DataAccess

variable {Fault Store Link α β : Type} [Reportable Fault]

def boundOf (b : Except Error Sql.Bound) : List Sql.Bound := b.toOption.toList

def pageStatements (sql countSql : String) (request : PageRequest) : List Sql.Bound :=
  match Gateway.bindPage sql countSql request with
  | .ok (count, data) => [count, data]
  | .error _ => []

def Request.statements : Request → List Sql.Bound
  | .dataSource => []
  | .insert table record | .insertReturningId table record =>
    boundOf (Gateway.bindInsert table record)
  | .update table record conditions => boundOf (Gateway.bindUpdate table record conditions)
  | .delete table conditions => boundOf (Gateway.bindDelete table conditions)
  | .count table conditions => boundOf (Sql.Statement.count table conditions).bind
  | .select _ table conditions order => boundOf (Sql.Statement.select table conditions order).bind
  | .exec sql args | .query _ sql args | .selectOne _ sql args => boundOf (args.bind sql)
  | .page _ sql countSql request =>
    pageStatements sql (countSql.getD (Gateway.countSql sql)) request

def Command.statements : Command → List Sql.Bound
  | .through _ q => q.statements
  | _ => []

/-- The operation leaves the connections of its session in their places and roles. -/
def Operation.Keeps (fits : Role → Link → Prop) (op : Operation Store Link α) : Prop :=
  ∀ s r, Registry.Exchange fits r (op s r).2 s.holdings s.holdings

namespace Operation.Keeps

variable {fits : Role → Link → Prop}

theorem run {bound : Except Error Sql.Bound} {use : Sql.Bound → Operation Store Link α}
    (h : ∀ b ∈ boundOf bound, Operation.Keeps fits (use b)) :
    Operation.Keeps fits (Gateway.run bound use) := by
  intro s r
  cases bound with
  | error e => exact .refl r _
  | ok b => exact h b (by simp [boundOf, Except.toOption]) s r

theorem andThen {op : Operation Store Link α} (h : Operation.Keeps fits op)
    (f : α → Except Error β) : Operation.Keeps fits (Gateway.andThen op f) := fun s r => h s r

theorem withLink {source : String} {access : Access Fault Store Link α}
    (haccess : ∀ role store link, fits role link → fits role (access store link).2.2) :
    Operation.Keeps fits (Session.withLink source access) := fun s r =>
  Session.exchange_withLink haccess s r

end Operation.Keeps

section

variable {E : Engine Fault Store Link} {fits : Role → Link → Prop} {allowed : Sql.Bound → Prop}

theorem Gateway.keeps_runQuery (hE : E.Respects fits allowed) (g : Gateway) {b : Sql.Bound}
    (hb : allowed b) : Operation.Keeps fits (g.runQuery E b) :=
  (Operation.Keeps.withLink (hE.queried hb)).andThen _

theorem Gateway.keeps_runUpdate (hE : E.Respects fits allowed) (g : Gateway) {b : Sql.Bound}
    (hb : allowed b) : Operation.Keeps fits (g.runUpdate E b) :=
  Operation.Keeps.withLink (hE.executed hb)

theorem Gateway.keeps_insertReturningId (hE : E.Respects fits allowed) (g : Gateway)
    {table : String} {record : Record} (h : ∀ b ∈ boundOf (bindInsert table record), allowed b) :
    Operation.Keeps fits (g.insertReturningId E table record) := by
  refine .run fun b hb => .withLink fun role store link hfits => ?_
  have hexec := hE.executed (h b hb) role store link hfits
  cases he : E.execute b store link with
  | mk result after =>
    obtain ⟨store', link'⟩ := after
    rw [he] at hexec
    cases result with
    | error e => exact hexec
    | ok n => exact hexec

theorem Gateway.keeps_page {read : Row → Except RowFault α} (hE : E.Respects fits allowed)
    (g : Gateway) {sql countSql : String} {request : PageRequest}
    (h : ∀ b ∈ pageStatements sql countSql request, allowed b) :
    Operation.Keeps fits (g.selectPageWithCount E read sql countSql request) := by
  intro s r
  unfold selectPageWithCount
  cases hp : bindPage sql countSql request with
  | error e => exact .refl r _
  | ok p =>
    obtain ⟨count, data⟩ := p
    unfold pageStatements at h
    rw [hp] at h
    have hcount : allowed count := h count (by simp)
    have hdata : allowed data := h data (by simp)
    have hfirst := (g.keeps_runQuery hE hcount).andThen pageCount s r
    dsimp only
    cases hc : Gateway.andThen (g.runQuery E count) pageCount s r with
    | mk result r' =>
      rw [hc] at hfirst
      cases result with
      | error e => exact hfirst
      | ok total => exact hfirst.trans ((g.keeps_runQuery hE hdata).andThen _ s r')

/-- A request of allowed statements changes no session and no places of connections. -/
theorem World.exchange_request (hE : E.Respects fits allowed) (id : String) (g : Gateway)
    {q : Request} (hq : ∀ b ∈ q.statements, allowed b) (w : World Store Link) :
    (w.request E id g q).2.sessions = w.sessions ∧
      w.registry.Exchange fits (w.request E id g q).2.registry (w.session id).holdings
        (w.session id).holdings := by
  have hupdate {bound : Except Error Sql.Bound} (h : ∀ b ∈ boundOf bound, allowed b) :
      Operation.Keeps fits (Gateway.run bound (g.runUpdate E)) :=
    .run fun b hb => g.keeps_runUpdate hE (h b hb)
  have hquery {bound : Except Error Sql.Bound} (h : ∀ b ∈ boundOf bound, allowed b) :
      Operation.Keeps fits (Gateway.run bound (g.runQuery E)) :=
    .run fun b hb => g.keeps_runQuery hE (h b hb)
  have hpage (kind : RecordKind) {sql countSql : String} {request : PageRequest}
      (h : ∀ b ∈ pageStatements sql countSql request, allowed b) :
      Operation.Keeps fits (g.selectPageWithCount E kind.read sql countSql request) :=
    g.keeps_page hE h
  cases q with
  | dataSource => exact ⟨rfl, .refl _ _⟩
  | insert table record => exact ⟨rfl, hupdate hq _ _⟩
  | insertReturningId table record => exact ⟨rfl, g.keeps_insertReturningId hE hq _ _⟩
  | update table record conditions => exact ⟨rfl, hupdate hq _ _⟩
  | delete table conditions => exact ⟨rfl, hupdate hq _ _⟩
  | count table conditions =>
    exact ⟨rfl, Operation.Keeps.run (fun b hb => (g.keeps_runQuery hE (hq b hb)).andThen _) _ _⟩
  | select kind table conditions order =>
    exact ⟨rfl, Operation.Keeps.run (fun b hb => (g.keeps_runQuery hE (hq b hb)).andThen _) _ _⟩
  | exec sql args => exact ⟨rfl, hupdate hq _ _⟩
  | query kind sql args =>
    have hkeeps : Operation.Keeps fits (g.query E kind.read sql args) := (hquery hq).andThen _
    exact ⟨rfl, hkeeps _ _⟩
  | selectOne kind sql args =>
    have hkeeps : Operation.Keeps fits (g.selectOne E kind.read sql args) := (hquery hq).andThen _
    exact ⟨rfl, hkeeps _ _⟩
  | page kind sql countSql request =>
    cases countSql with
    | none => exact ⟨rfl, hpage kind hq _ _⟩
    | some text => exact ⟨rfl, hpage kind hq _ _⟩

end

mutual

/-- The commands without steps inside that a command is made of, each with its session. -/
def Command.atoms (id : String) : Command → List (String × Command)
  | .inTransaction level steps =>
    (id, .begin level) :: (Command.atomsOfSteps id steps ++ [(id, .commit), (id, .rollback)])
  | c => [(id, c)]

def Command.atomsOfSteps (id : String) : List (Option String × Command) → List (String × Command)
  | [] => []
  | (own, c) :: rest => c.atoms (own.getD id) ++ Command.atomsOfSteps id rest

end

mutual

theorem Command.atoms_simple (id : String) (c : Command) :
    ∀ a ∈ c.atoms id, ∀ level steps, a.2 ≠ .inTransaction level steps :=
  match c with
  | .inTransaction level steps => by
    intro a ha
    simp only [Command.atoms, List.mem_cons, List.mem_append, List.not_mem_nil, or_false] at ha
    rcases ha with rfl | ha | rfl | rfl
    · exact fun _ _ h => by cases h
    · exact Command.atomsOfSteps_simple id steps a ha
    · exact fun _ _ h => by cases h
    · exact fun _ _ h => by cases h
  | .begin _ | .commit | .rollback | .fail _ | .drop | .debug | .resolve _ _ | .hold _ _
  | .release _ | .through _ _ => by
    intro a ha level steps h
    rw [List.mem_singleton.1 ha] at h
    cases h

theorem Command.atomsOfSteps_simple (id : String) (steps : List (Option String × Command)) :
    ∀ a ∈ Command.atomsOfSteps id steps, ∀ level inner, a.2 ≠ .inTransaction level inner :=
  match steps with
  | [] => by simp [Command.atomsOfSteps]
  | (own, c) :: rest => by
    intro a ha
    rcases List.mem_append.1 ha with ha | ha
    · exact Command.atoms_simple (own.getD id) c a ha
    · exact Command.atomsOfSteps_simple id rest a ha

end

namespace World

variable {E : Engine Fault Store Link}

omit [Reportable Fault] in
/-- A session that resolves a connection leaves all as it was, or has the connection, which is
kept or given up. -/
theorem resolve_cases (E : Engine Fault Store Link) (w : World Store Link) (id source : String)
    (key : Option String) :
    (w.resolve E id source key).2 = w ∨
      ∃ h r', (w.session id).resolve source w.registry = (.ok h, r') ∧
        ((w.resolve E id source key).2 = ⟨Session.giveUp h r', w.sessions⟩ ∨
          ∃ own, (w.resolve E id source key).2 = World.keep id own h ⟨r', w.sessions⟩) := by
  unfold resolve operate
  cases hr : (w.session id).resolve source w.registry with
  | mk result r' =>
    cases result with
    | error e =>
      obtain rfl := Session.resolve_error hr
      left
      simp only [hr]
    | ok h =>
      refine .inr ⟨h, r', rfl, ?_⟩
      simp only [hr]
      cases r'.get source with
      | error e => exact .inl rfl
      | ok src =>
        cases key with
        | none => exact .inl rfl
        | some key => exact .inr ⟨key, rfl⟩

/-- A caller that takes a pooled connection keeps it. -/
theorem hold_cases (w : World Store Link) (id source key : String) :
    (w.hold id source key).2 = w ∨
      ∃ n r', Session.takePooled source w.registry = (.ok n, r') ∧
        (w.hold id source key).2 = World.keep id key (.pooled source n) ⟨r', w.sessions⟩ := by
  unfold hold operate
  cases hr : Session.takePooled source w.registry with
  | mk result r' =>
    cases result with
    | error e =>
      obtain rfl := Session.takePooled_error hr
      left
      simp only [hr]
    | ok n =>
      refine .inr ⟨n, r', rfl, ?_⟩
      simp only [hr]

variable {P : World Store Link → Prop}

mutual

/-- What all atoms of a command keep, the command keeps. -/
theorem run_induction (id : String) (c : Command) (w : World Store Link)
    (h : ∀ a ∈ c.atoms id, ∀ w, P w → P (run E a.1 a.2 w).2.2) (hw : P w) :
    P (run E id c w).2.2 :=
  match c with
  | .inTransaction level steps => by
    have hbegin := h (id, .begin level) (by simp [Command.atoms]) w hw
    have hcommit := h (id, .commit) (by simp [Command.atoms])
    have hrollback := h (id, .rollback) (by simp [Command.atoms])
    have hbody (w : World Store Link) (hw : P w) : P (runUntilFailure E id steps w).2.2 :=
      runUntilFailure_induction id steps w (fun a ha => h a (by simp [Command.atoms, ha])) hw
    unfold run inTransaction
    unfold run at hbegin
    dsimp only at hbegin
    cases hb : w.onSession id (Session.begin E level) with
    | mk result w₁ =>
      rw [hb] at hbegin
      cases result with
      | error e => exact hbegin
      | ok u =>
        have hsteps := hbody w₁ hbegin
        cases hs : runUntilFailure E id steps w₁ with
        | mk result rest =>
          obtain ⟨entries, w₂⟩ := rest
          rw [hs] at hsteps
          cases result with
          | error e =>
            have := hrollback w₂ hsteps
            simp only [hs]
            unfold run at this
            exact this
          | ok a =>
            have := hcommit w₂ hsteps
            simp only [hs]
            unfold run at this
            exact this
  | .begin level => h (id, .begin level) (by simp [Command.atoms]) w hw
  | .commit => h (id, .commit) (by simp [Command.atoms]) w hw
  | .rollback => h (id, .rollback) (by simp [Command.atoms]) w hw
  | .fail text => h (id, .fail text) (by simp [Command.atoms]) w hw
  | .drop => h (id, .drop) (by simp [Command.atoms]) w hw
  | .debug => h (id, .debug) (by simp [Command.atoms]) w hw
  | .resolve source keep => h (id, .resolve source keep) (by simp [Command.atoms]) w hw
  | .hold source key => h (id, .hold source key) (by simp [Command.atoms]) w hw
  | .release key => h (id, .release key) (by simp [Command.atoms]) w hw
  | .through target q => h (id, .through target q) (by simp [Command.atoms]) w hw

theorem runUntilFailure_induction (id : String) (steps : List (Option String × Command))
    (w : World Store Link)
    (h : ∀ a ∈ Command.atomsOfSteps id steps, ∀ w, P w → P (run E a.1 a.2 w).2.2) (hw : P w) :
    P (runUntilFailure E id steps w).2.2 :=
  match steps with
  | [] => by
    unfold runUntilFailure
    exact hw
  | (own, c) :: rest => by
    have hfirst := run_induction (own.getD id) c w
      (fun a ha => h a (by simp [Command.atomsOfSteps, ha])) hw
    have hrest (w : World Store Link) (hw : P w) : P (runUntilFailure E id rest w).2.2 :=
      runUntilFailure_induction id rest w
        (fun a ha => h a (by simp [Command.atomsOfSteps, ha])) hw
    unfold runUntilFailure
    cases hr : run E (own.getD id) c w with
    | mk result after =>
      obtain ⟨inner, w₁⟩ := after
      rw [hr] at hfirst
      cases result with
      | error e =>
        simp only [hr]
        exact hfirst
      | ok a =>
        simp only [hr]
        exact hrest w₁ hfirst

end

/-- What all atoms of all steps keep, a run keeps. -/
theorem runAll_induction (id : String) (steps : List Command.Step) (w : World Store Link)
    (h : ∀ a ∈ Command.atomsOfSteps id steps, ∀ w, P w → P (run E a.1 a.2 w).2.2) (hw : P w) :
    P (runAll E id steps w).2 := by
  induction steps generalizing w with
  | nil => exact hw
  | cons step rest ih =>
    obtain ⟨own, c⟩ := step
    have hfirst := run_induction (own.getD id) c w
      (fun a ha => h a (by simp [Command.atomsOfSteps, ha])) hw
    exact ih _ (fun a ha => h a (by simp [Command.atomsOfSteps, ha])) hfirst

end World
end DataAccess
