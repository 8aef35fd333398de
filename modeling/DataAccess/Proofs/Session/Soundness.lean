import DataAccess.Proofs.Session.Run

/-!
Sound worlds. Each connection of a source is at one place and fits its role there, and every active
session holds one connection of every source. All commands keep a world sound, hence so do runs.
-/
namespace DataAccess

variable {Fault Store Link : Type} [Reportable Fault]

namespace Session

/-- The handles of a session are in order, and its transaction holds one connection of each of
the named sources. -/
structure WellKept (names : List String) (s : Session) : Prop where
  handles : s.handles.Ascending
  links : ∀ t, s.transaction = some t → t.links.keys = names

theorem wellKept_idle (names : List String) : Session.idle.WellKept names :=
  ⟨List.Pairwise.nil, fun t ht => by cases ht⟩

section

variable {E : Engine Fault Store Link} {fits : Role → Link → Prop} {allowed : Sql.Bound → Prop}

theorem WellKept.begin (hE : E.Respects fits allowed) (level : Level) {names : List String}
    {s : Session} {r : Registry Store Link} (hs : s.WellKept names) (hr : r.names = names) :
    (s.begin E level r).2.1.WellKept names := by
  unfold Session.begin
  split_ifs with hlent
  · exact hs
  · cases ht : s.transaction with
    | some t => exact hs
    | none =>
      unfold Transaction.begin
      cases hb : Transaction.beginAll E level r.sources with
      | mk result sources =>
        cases result with
        | error e => exact hs
        | ok links =>
          obtain ⟨hkeys, -, -⟩ := Transaction.beginAll_ok hE hb
          refine ⟨hs.handles, fun t ht => ?_⟩
          cases ht
          exact hkeys.trans hr

theorem WellKept.finish (o : Outcome) {names : List String} {s : Session}
    (hs : s.WellKept names) (r : Registry Store Link) :
    (s.finish E o r).2.1.WellKept names := by
  unfold Session.finish
  split_ifs with hlent
  · exact hs
  · cases ht : s.transaction with
    | none => exact hs
    | some t => exact ⟨hs.handles, fun t ht => by cases ht⟩

theorem WellKept.release {names : List String} {s : Session} (hs : s.WellKept names)
    (key : String) (r : Registry Store Link) : (s.release key r).2.1.WellKept names := by
  unfold Session.release
  cases s.handles.get? key with
  | none => exact hs
  | some h => exact ⟨hs.handles.erase key, hs.links⟩

theorem WellKept.keep {names : List String} {s : Session} (hs : s.WellKept names) (key : String)
    (h : Handle) (r : Registry Store Link) : (s.keep key h r).1.WellKept names :=
  ⟨hs.handles.insert key h, hs.links⟩

end
end Session

namespace World

def holdings (w : World Store Link) (name : String) : Holdings :=
  w.sessions.flatMap fun e => e.2.holdings name

theorem session_insert (r : Registry Store Link) (m : Keyed Session) (id other : String)
    (s : Session) :
    (⟨r, m.insert id s⟩ : World Store Link).session other =
      if other = id then s else (⟨r, m⟩ : World Store Link).session other := by
  unfold session
  rw [Keyed.get?_insert]
  split_ifs <;> rfl

theorem session_insert_self (r : Registry Store Link) (w : World Store Link) (id other : String) :
    (⟨r, w.sessions.insert id (w.session id)⟩ : World Store Link).session other =
      w.session other := by
  rw [session_insert]
  split_ifs with h
  · rw [h]
  · rfl

/-- The holdings of one session beside those of the others. -/
theorem holdings_session {w : World Store Link} (hw : w.sessions.Ascending) (id name : String) :
    (w.holdings name).Perm ((w.session id).holdings name ++
      (w.sessions.erase id).flatMap fun e => e.2.holdings name) := by
  unfold holdings session
  cases hs : w.sessions.get? id with
  | none =>
    rw [Keyed.erase_of_get?_eq_none hs]
    exact .refl _
  | some s => exact (hw.perm_cons_erase hs).flatMap_right _

theorem holdings_insert (r : Registry Store Link) {m : Keyed Session} (hm : m.Ascending)
    (id : String) (s : Session) (name : String) :
    ((⟨r, m.insert id s⟩ : World Store Link).holdings name).Perm (s.holdings name ++
      (m.erase id).flatMap fun e => e.2.holdings name) :=
  (hm.insert_perm id s).flatMap_right _

/-- The sources are those that a run started with. Every connection has one place, also those in
transit, and fits its role there. -/
structure Sound (fits : Role → Link → Prop) (start : Registry Store Link)
    (transit : String → Holdings) (w : World Store Link) : Prop where
  names : w.registry.names = start.names
  ascending : w.sessions.Ascending
  session : ∀ e ∈ w.sessions, e.2.WellKept start.names
  config : ∀ name s, w.registry.sources.get? name = some s →
    ∃ s₀, start.sources.get? name = some s₀ ∧ s.config = s₀.config ∧ s.pool.size = s₀.pool.size
  places : ∀ name s, w.registry.sources.get? name = some s →
    ((s.places (transit name ++ w.holdings name)).map Prod.fst).Perm (List.range s.pool.size)
  fits : ∀ name s, w.registry.sources.get? name = some s →
    ∀ p ∈ s.places (transit name ++ w.holdings name), fits p.2 (s.pool.link p.1)

namespace Sound

variable {fits : Role → Link → Prop} {start : Registry Store Link}
  {transit transit' : String → Holdings} {w : World Store Link}

/-- Before a run all connections are idle. -/
theorem of_idle (h : ∀ name s, start.sources.get? name = some s →
      s.pool.idle.Perm (List.range s.pool.size) ∧ ∀ n ∈ s.pool.idle, fits none (s.pool.link n)) :
    (⟨start, []⟩ : World Store Link).Sound fits start fun _ => [] := by
  have hplaces (s : Source Store Link) (name : String) :
      s.places ([] ++ (⟨start, []⟩ : World Store Link).holdings name) =
        s.pool.idle.map (·, none) := List.append_nil _
  constructor
  · rfl
  · exact List.Pairwise.nil
  · exact fun e he => absurd he List.not_mem_nil
  · exact fun name s hs => ⟨s, hs, rfl, rfl⟩
  · intro name s hs
    rw [hplaces, List.map_map]
    simpa [Function.comp_def] using (h name s hs).1
  · intro name s hs p hp
    rw [hplaces] at hp
    obtain ⟨n, hn, rfl⟩ := List.mem_map.1 hp
    exact (h name s hs).2 n hn

theorem wellKept (hw : w.Sound fits start transit) (id : String) :
    (w.session id).WellKept start.names := by
  unfold World.session
  cases hs : w.sessions.get? id with
  | none => exact Session.wellKept_idle _
  | some s => exact hw.session (id, s) (Keyed.mem_of_get?_eq_some hs)

/-- A held connection is neither idle nor held by another session. -/
theorem apart (hw : w.Sound fits start fun _ => []) {id name : String} {n : Nat}
    {s : Source Store Link} (hs : w.registry.sources.get? name = some s)
    (hn : n ∈ (w.session id).held name) :
    n ∉ s.pool.idle ∧ ∀ other, other ≠ id → n ∉ (w.session other).held name := by
  have hmem {own : String} (h : n ∈ (w.session own).held name) :
      n ∈ ((w.session own).holdings name).map Prod.fst := by
    simp [Session.holdings, h]
  have hperm := (Source.Moves.places_perm s (holdings_session hw.ascending id name)).map Prod.fst
  have hnodup : ((s.places (w.holdings name)).map Prod.fst).Nodup :=
    (hw.places name s hs).nodup_iff.2 List.nodup_range
  rw [hperm.nodup_iff] at hnodup
  unfold Source.places at hnodup
  rw [List.map_append, List.map_append] at hnodup
  obtain ⟨-, hheld, hidle⟩ := List.nodup_append.1 hnodup
  obtain ⟨-, -, hothers⟩ := List.nodup_append.1 hheld
  constructor
  · intro hin
    exact hidle n (by simpa using hin) n (List.mem_append_left _ (hmem hn)) rfl
  · intro other hne hother
    refine hothers n (hmem hn) n ?_ rfl
    unfold World.session at hother
    cases hget : w.sessions.get? other with
    | none =>
      rw [hget] at hother
      cases hother
    | some s' =>
      have hin : (other, s') ∈ w.sessions.erase id :=
        List.mem_filter.2 ⟨Keyed.mem_of_get?_eq_some hget, by simpa using hne⟩
      rw [hget] at hother
      refine List.mem_map.2 ⟨(n, s'.level?), List.mem_flatMap.2 ⟨(other, s'), hin, ?_⟩, rfl⟩
      have hother : n ∈ s'.held name := hother
      simp [Session.holdings, hother]

/-- An exchange of connections keeps a world sound. -/
theorem exchange (hw : w.Sound fits start transit) {r' : Registry Store Link} {m : Keyed Session}
    (hx : w.registry.Exchange fits r' (fun name => transit name ++ w.holdings name)
      fun name => transit' name ++ (⟨r', m⟩ : World Store Link).holdings name)
    (hm : m.Ascending) (hk : ∀ e ∈ m, e.2.WellKept start.names) :
    (⟨r', m⟩ : World Store Link).Sound fits start transit' := by
  constructor
  · exact hx.names.trans hw.names
  · exact hm
  · exact hk
  · intro name s' hs'
    obtain ⟨s, hs, hmoves⟩ := hx.source name s' hs'
    rw [hmoves.size, hmoves.config]
    exact hw.config name s hs
  · intro name s' hs'
    obtain ⟨s, hs, hmoves⟩ := hx.source name s' hs'
    rw [hmoves.size]
    exact hmoves.perm.trans (hw.places name s hs)
  · intro name s' hs'
    obtain ⟨s, hs, hmoves⟩ := hx.source name s' hs'
    exact hmoves.fits ((hw.places name s hs).nodup_iff.2 List.nodup_range) (hw.fits name s hs)

/-- An exchange with one session, which changes, keeps a world sound. -/
theorem update (hw : w.Sound fits start transit) (id : String) {r' : Registry Store Link}
    {s' : Session}
    (hx : w.registry.Exchange fits r' (fun name => transit name ++ (w.session id).holdings name)
      fun name => transit' name ++ s'.holdings name)
    (hk : s'.WellKept start.names) :
    (⟨r', w.sessions.insert id s'⟩ : World Store Link).Sound fits start transit' := by
  have hall := hx.extend fun name => (w.sessions.erase id).flatMap fun e => e.2.holdings name
  refine hw.exchange (hall.congr (fun name => ?_) fun name => ?_) (hw.ascending.insert id s') ?_
  · rw [List.append_assoc]
    exact (holdings_session hw.ascending id name).append_left _
  · rw [List.append_assoc]
    exact (holdings_insert r' hw.ascending id s' name).append_left _
  · intro e he
    rcases List.mem_cons.1 ((hw.ascending.insert_perm id s').mem_iff.1 he) with rfl | he
    · exact hk
    · exact hw.session e (List.mem_of_mem_filter he)

/-- An exchange with one session, which stays as it is, keeps a world sound. -/
theorem operate (hw : w.Sound fits start transit) (id : String) {r' : Registry Store Link}
    (hx : w.registry.Exchange fits r' (fun name => transit name ++ (w.session id).holdings name)
      fun name => transit' name ++ (w.session id).holdings name) :
    (⟨r', w.sessions⟩ : World Store Link).Sound fits start transit' := by
  have hall := hx.extend fun name => (w.sessions.erase id).flatMap fun e => e.2.holdings name
  have hholdings (name : String) := holdings_session hw.ascending id name
  refine hw.exchange (hall.congr (fun name => ?_) fun name => ?_) hw.ascending hw.session
  · rw [List.append_assoc]
    exact (hholdings name).append_left _
  · rw [List.append_assoc]
    exact (hholdings name).append_left _

theorem release (hw : w.Sound fits start transit) (key : String) :
    (w.giveUp key).2.Sound fits start transit := by
  unfold World.giveUp
  cases w.keeper? key with
  | none => exact hw
  | some id =>
    have hs := hw.wellKept id
    exact hw.update id ((Session.exchange_release hs.handles key w.registry).extend_left transit)
      (hs.release key w.registry)

/-- A connection in transit that is kept has its place. -/
theorem keep {h : Handle} (hw : w.Sound fits start h.holdings) (id key : String) :
    (w.keep id key h).Sound fits start fun _ => [] := by
  unfold World.keep
  have hgiven := hw.release key
  have hs := hgiven.wellKept id
  exact hgiven.update id (Session.exchange_keep hs.handles key h _)
    (hs.keep key h (w.giveUp key).2.registry)

/-- A connection in transit that is given up has its place. -/
theorem giveUp {h : Handle} (hw : w.Sound fits start h.holdings) :
    (⟨Session.giveUp h w.registry, w.sessions⟩ : World Store Link).Sound fits start fun _ => [] := by
  have hx := Session.exchange_giveUp fits h w.registry w.holdings
  exact hw.exchange hx hw.ascending hw.session

section

variable {E : Engine Fault Store Link} {allowed : Sql.Bound → Prop}

theorem begin (hE : E.Respects fits allowed) (hw : w.Sound fits start fun _ => []) (id : String)
    (level : Level) : (w.onSession id (Session.begin E level)).2.Sound fits start fun _ => [] :=
  hw.update id (Session.exchange_begin hE level _ _) ((hw.wellKept id).begin hE level hw.names)

theorem finish (hE : E.Respects fits allowed) (hw : w.Sound fits start fun _ => []) (id : String)
    (o : Outcome) : (w.onSession id (Session.finish E o)).2.Sound fits start fun _ => [] :=
  hw.update id (Session.exchange_finish hE o _ _) ((hw.wellKept id).finish o _)

theorem drop (hE : E.Respects fits allowed) (hw : w.Sound fits start fun _ => []) (id : String) :
    (w.drop E id).Sound fits start fun _ => [] := by
  unfold World.drop
  have hx := (Session.exchange_drop hE (w.session id) w.registry).extend fun name =>
    (w.sessions.erase id).flatMap fun e => e.2.holdings name
  refine hw.exchange (hx.congr (fun name => ?_) fun name => .refl _) (hw.ascending.erase id) ?_
  · exact holdings_session hw.ascending id name
  · exact fun e he => hw.session e (List.mem_of_mem_filter he)

omit [Reportable Fault] in
theorem resolve (hw : w.Sound fits start fun _ => []) (id source : String) (key : Option String) :
    (w.resolve E id source key).2.Sound fits start fun _ => [] := by
  rcases resolve_cases E w id source key with hsame | ⟨h, r', hr, hdone⟩
  · rwa [hsame]
  · obtain ⟨hx, -⟩ := Session.exchange_resolve fits hr
    have htaken : (⟨r', w.sessions⟩ : World Store Link).Sound fits start h.holdings :=
      hw.operate id hx
    rcases hdone with hgiven | ⟨key, hkept⟩
    · rw [hgiven]
      exact htaken.giveUp
    · rw [hkept]
      exact htaken.keep id key

theorem hold (hw : w.Sound fits start fun _ => []) (id source key : String) :
    (w.hold id source key).2.Sound fits start fun _ => [] := by
  rcases w.hold_cases id source key with hsame | ⟨n, r', hr, hkept⟩
  · rwa [hsame]
  · have htaken : (⟨r', w.sessions⟩ : World Store Link).Sound fits start
        (Handle.pooled source n).holdings := hw.operate id (Session.exchange_takePooled hr _)
    rw [hkept]
    exact htaken.keep id key

theorem request (hE : E.Respects fits allowed) (hw : w.Sound fits start fun _ => []) (id : String)
    (g : Gateway) {q : Request} (hq : ∀ b ∈ q.statements, allowed b) :
    (w.request E id g q).2.Sound fits start fun _ => [] := by
  obtain ⟨hsessions, hx⟩ := w.exchange_request hE id g hq
  have hdone : (⟨(w.request E id g q).2.registry, w.sessions⟩ : World Store Link).Sound fits start
      fun _ => [] := hw.operate id hx
  rwa [← hsessions] at hdone

/-- An atom keeps a world sound. -/
theorem run_atom (hE : E.Respects fits allowed) (hw : w.Sound fits start fun _ => []) (id : String)
    {c : Command} (hc : ∀ level steps, c ≠ .inTransaction level steps)
    (hb : ∀ b ∈ c.statements, allowed b) :
    (run E id c w).2.2.Sound fits start fun _ => [] := by
  cases c with
  | inTransaction level steps => exact absurd rfl (hc level steps)
  | begin level =>
    unfold run
    exact hw.begin hE id level
  | commit =>
    unfold run
    exact hw.finish hE id .commit
  | rollback =>
    unfold run
    exact hw.finish hE id .rollback
  | fail text =>
    unfold run
    exact hw
  | drop =>
    unfold run
    exact hw.drop hE id
  | debug =>
    unfold run
    exact hw
  | resolve source key =>
    unfold run
    exact hw.resolve id source key
  | hold source key =>
    unfold run
    exact hw.hold id source key
  | release key =>
    unfold run
    exact hw.release key
  | through target q =>
    unfold run
    cases hg : w.gateway target with
    | error e => exact hw
    | ok g => exact hw.request hE id g hb

/-- A run of allowed statements keeps a world sound. -/
theorem runAll (hE : E.Respects fits allowed) (hw : w.Sound fits start fun _ => []) (id : String)
    {steps : List Command.Step}
    (hb : ∀ a ∈ Command.atomsOfSteps id steps, ∀ b ∈ a.2.statements, allowed b) :
    (World.runAll E id steps w).2.Sound fits start fun _ => [] := by
  refine runAll_induction id steps w (fun a ha w hw => ?_) hw
  exact hw.run_atom hE a.1 (Command.atomsOfSteps_simple id steps a ha) (hb a ha)

end
end Sound
end World
end DataAccess
