import DataAccess.Proofs.Database.Sources
import DataAccess.Proofs.Session.Soundness

/-!
Conservation of connections. In every state that a run reaches, each connection of a source is at
one place: idle in its pool, held by the transaction of a session, or lent to a caller. Active
sessions hold one of every source, and no session disturbs what another holds.
-/
namespace DataAccess

variable {Fault Store Link : Type} [Reportable Fault]

omit [Reportable Fault] in
/-- Where nothing has to hold of connections, every engine keeps it. -/
theorem Engine.respects_any (E : Engine Fault Store Link) :
    E.Respects (fun _ _ => True) fun _ => True :=
  ⟨fun _ _ => trivial, fun _ _ => trivial, fun _ _ _ _ _ => trivial, fun _ _ _ _ _ => trivial,
    fun _ _ _ _ _ => trivial⟩

namespace World

variable {E : Engine Fault Store Link}

theorem session_erase (r : Registry Store Link) (m : Keyed Session) (id other : String) :
    (⟨r, m.erase id⟩ : World Store Link).session other =
      if other = id then Session.idle else (⟨r, m⟩ : World Store Link).session other := by
  unfold session
  rw [Keyed.get?_erase]
  split_ifs <;> rfl

theorem session_onSession {α : Type} {id other : String} (hne : other ≠ id)
    (f : Session → Registry Store Link → Except Error α × Session × Registry Store Link)
    (w : World Store Link) : (w.onSession id f).2.session other = w.session other := by
  unfold onSession
  dsimp only
  rw [session_insert, if_neg hne]
  rfl

theorem transaction_giveUp (w : World Store Link) (key other : String) :
    ((w.giveUp key).2.session other).transaction = (w.session other).transaction := by
  unfold giveUp
  cases w.keeper? key with
  | none => rfl
  | some id =>
    dsimp only
    rw [session_insert]
    split_ifs with h
    · subst h
      unfold Session.release
      cases (w.session other).handles.get? key with
      | none => rfl
      | some _ => rfl
    · rfl

theorem transaction_keep (w : World Store Link) (id key : String) (h : Handle) (other : String) :
    ((w.keep id key h).session other).transaction = (w.session other).transaction := by
  rw [← transaction_giveUp w key other]
  unfold keep
  dsimp only
  rw [session_insert]
  split_ifs with heq
  · subst heq
    rfl
  · rfl

omit [Reportable Fault] in
theorem transaction_resolve (w : World Store Link) (id source : String) (key : Option String)
    (other : String) :
    ((w.resolve E id source key).2.session other).transaction =
      (w.session other).transaction := by
  rcases resolve_cases E w id source key with hsame | ⟨h, r', -, hgiven | ⟨key, hkept⟩⟩
  · rw [hsame]
  · rw [hgiven]
    rfl
  · rw [hkept]
    exact transaction_keep ⟨r', w.sessions⟩ id key h other

theorem transaction_hold (w : World Store Link) (id source key other : String) :
    ((w.hold id source key).2.session other).transaction = (w.session other).transaction := by
  rcases w.hold_cases id source key with hsame | ⟨n, r', -, hkept⟩
  · rw [hsame]
  · rw [hkept]
    exact transaction_keep ⟨r', w.sessions⟩ id key (.pooled source n) other

/-- An atom leaves the transactions of the other sessions alone. -/
theorem transaction_run_atom {id other : String} (hne : other ≠ id) {c : Command}
    (hc : ∀ level steps, c ≠ .inTransaction level steps) (w : World Store Link) :
    ((run E id c w).2.2.session other).transaction = (w.session other).transaction := by
  cases c with
  | inTransaction level steps => exact absurd rfl (hc level steps)
  | begin level =>
    unfold run
    dsimp only
    rw [session_onSession hne]
  | commit =>
    unfold run
    dsimp only
    rw [session_onSession hne]
  | rollback =>
    unfold run
    dsimp only
    rw [session_onSession hne]
  | fail text =>
    unfold run
    rfl
  | drop =>
    unfold run drop
    dsimp only
    rw [session_erase, if_neg hne]
    rfl
  | debug =>
    unfold run
    rfl
  | resolve source key =>
    unfold run
    exact transaction_resolve w id source key other
  | hold source key =>
    unfold run
    exact transaction_hold w id source key other
  | release key =>
    unfold run
    exact transaction_giveUp w key other
  | through target q =>
    unfold run
    cases w.gateway target with
    | error e => rfl
    | ok g =>
      obtain ⟨hsessions, -⟩ := w.exchange_request E.respects_any id g (q := q) fun _ _ => trivial
      unfold session
      dsimp only
      rw [hsessions]

/-- A command changes the transactions of those sessions alone that take its steps. -/
theorem transaction_run {id other : String} {c : Command}
    (h : other ∉ (c.atoms id).map Prod.fst) (w : World Store Link) :
    ((run E id c w).2.2.session other).transaction = (w.session other).transaction := by
  refine run_induction (P := fun w' => (w'.session other).transaction =
    (w.session other).transaction) id c w (fun a ha w' hw' => ?_) rfl
  have hne : other ≠ a.1 := by
    rintro rfl
    exact h (List.mem_map_of_mem ha)
  rw [transaction_run_atom hne (Command.atoms_simple id c a ha), hw']

def held (w : World Store Link) (name : String) : List Nat :=
  w.sessions.flatMap fun e => e.2.held name

def lent (w : World Store Link) (name : String) : List Nat :=
  w.sessions.flatMap fun e => e.2.lent name

def active (w : World Store Link) : Nat := w.sessions.countP (·.2.isActive)

theorem holdings_perm (w : World Store Link) (name : String) :
    ((w.holdings name).map Prod.fst).Perm (w.held name ++ w.lent name) := by
  unfold holdings held lent
  induction w.sessions with
  | nil => exact .refl _
  | cons e rest ih =>
    have he : (e.2.holdings name).map Prod.fst = e.2.held name ++ e.2.lent name := by
      simp [Session.holdings, Function.comp_def]
    simp only [List.flatMap_cons, List.map_append, he]
    refine (ih.append_left _).trans ?_
    rw [List.append_assoc, List.append_assoc]
    refine List.Perm.append_left _ ?_
    rw [← List.append_assoc, ← List.append_assoc]
    exact List.perm_append_comm.append_right _

/-- The connections of the sources of a registry, in a state of a run from it. -/
structure Conserved (start : Registry Store Link) (w : World Store Link) : Prop where
  names : w.registry.names = start.names
  links : ∀ id t, (w.session id).transaction = some t →
    t.links.keys = start.names ∧ t.links.keys.Nodup
  /-- An active session holds one connection of every source, and any other holds none. -/
  held : ∀ id name, name ∈ start.names →
    ((w.session id).held name).length = if (w.session id).isActive then 1 else 0
  config : ∀ name s, w.registry.sources.get? name = some s →
    ∃ s₀, start.sources.get? name = some s₀ ∧ s.config = s₀.config
  /-- Every connection is idle, held by a session or lent to a caller, and only one of these. -/
  places : ∀ name s, w.registry.sources.get? name = some s →
    (s.pool.idle ++ (w.held name ++ w.lent name)).Perm (List.range s.config.maxSize.toNat)
  checkedOut : ∀ name s, w.registry.sources.get? name = some s →
    s.checkedOut = w.active + (w.lent name).length
  checkedOut_le : ∀ name s, w.registry.sources.get? name = some s →
    s.checkedOut ≤ s.config.maxSize.toNat

theorem length_held_session {names : List String} {s : Session} (hs : s.WellKept names)
    {name : String} (hname : name ∈ names) :
    (s.held name).length = if s.isActive then 1 else 0 := by
  unfold Session.held Session.isActive
  cases ht : s.transaction with
  | none => rfl
  | some t =>
    have hlink : t.links.get? name ≠ none := by
      rw [Ne, Keyed.get?_eq_none_iff, hs.links t ht]
      exact not_not_intro hname
    obtain ⟨n, hn⟩ := Option.ne_none_iff_exists'.1 hlink
    simp [hn]

theorem length_held {names : List String} {w : World Store Link}
    (hw : ∀ e ∈ w.sessions, e.2.WellKept names) {name : String} (hname : name ∈ names) :
    (w.held name).length = w.active := by
  unfold held active
  generalize w.sessions = m at hw
  induction m with
  | nil => rfl
  | cons e rest ih =>
    have hrest := ih fun e he => hw e (List.mem_cons_of_mem _ he)
    have he := length_held_session (hw e List.mem_cons_self) hname
    rw [List.flatMap_cons, List.length_append, hrest, he, List.countP_cons]
    omega

/-- A sound world conserves the connections of the registry that its run started with. -/
theorem Sound.conserved {fits : Role → Link → Prop} {start : Registry Store Link}
    {w : World Store Link} (hw : w.Sound fits start fun _ => [])
    (hstart : start.sources.Ascending)
    (hsize : ∀ name s, start.sources.get? name = some s → s.pool.size = s.config.maxSize.toNat) :
    w.Conserved start := by
  have hmax {name : String} {s : Source Store Link}
      (hs : w.registry.sources.get? name = some s) : s.pool.size = s.config.maxSize.toNat := by
    obtain ⟨s₀, hs₀, hconfig, hpool⟩ := hw.config name s hs
    rw [hpool, hconfig, hsize name s₀ hs₀]
  have hplaces {name : String} {s : Source Store Link}
      (hs : w.registry.sources.get? name = some s) :
      (s.pool.idle ++ (w.held name ++ w.lent name)).Perm
        (List.range s.config.maxSize.toNat) := by
    have hperm := hw.places name s hs
    unfold Source.places at hperm
    rw [List.map_append, List.nil_append, hmax hs] at hperm
    have hidle : (s.pool.idle.map fun n => (n, (none : Role))).map Prod.fst = s.pool.idle := by
      simp [Function.comp_def]
    rw [hidle] at hperm
    exact ((w.holdings_perm name).symm.append_left _).trans hperm
  have hcount {name : String} {s : Source Store Link}
      (hs : w.registry.sources.get? name = some s) :
      s.checkedOut = w.active + (w.lent name).length := by
    have hname : name ∈ start.names := by
      rw [← hw.names]
      by_contra hout
      rw [Registry.names, ← Keyed.get?_eq_none_iff, hs] at hout
      cases hout
    have hlength := (hplaces hs).length_eq
    rw [List.length_append, List.length_append, List.length_range,
      length_held hw.session hname, ← hmax hs] at hlength
    unfold Source.checkedOut Pool.checkedOut
    omega
  constructor
  · exact hw.names
  · intro id t ht
    have hlinks := (hw.wellKept id).links t ht
    refine ⟨hlinks, ?_⟩
    rw [hlinks]
    exact List.pairwise_map.2 (hstart.imp fun hlt heq => absurd (heq ▸ hlt) (String.lt_irrefl _))
  · exact fun id name hname => length_held_session (hw.wellKept id) hname
  · intro name s hs
    obtain ⟨s₀, hs₀, hconfig, -⟩ := hw.config name s hs
    exact ⟨s₀, hs₀, hconfig⟩
  · exact fun name s hs => hplaces hs
  · exact fun name s hs => hcount hs
  · intro name s hs
    rw [← hmax hs]
    exact Nat.sub_le _ _

/-- Opened sources have all their connections idle. -/
theorem sound_start (fits : Role → Link → Prop)
    {connect : SourceConfig → Except Error (Store × Link)} {default : String}
    {sources : List (Source Store Link)} {r : Registry Store Link}
    (hopen : ∀ s ∈ sources, Source.ofConfig connect s.config = .ok s)
    (hr : Registry.ofSources default sources = .ok r)
    (hfits : ∀ c store link, connect c = .ok (store, link) → fits none link) :
    (⟨r, []⟩ : World Store Link).Sound fits r fun _ => [] := by
  obtain ⟨-, hsource⟩ := Registry.ofSources_ok hr
  refine .of_idle fun name s hs => ?_
  obtain ⟨store, link, hconnect, heq⟩ := Source.ofConfig_ok (hopen s (hsource name s hs).1)
  rw [heq]
  exact ⟨.refl _, fun n _ => hfits s.config store link hconnect⟩

/-- Whatever the engine refuses, each state of a run conserves connections, and the steps of some
sessions leave the transactions of all others alone. -/
theorem runAll_conserved (E : Engine Fault Store Link)
    {connect : SourceConfig → Except Error (Store × Link)} {default : String}
    {sources : List (Source Store Link)} {r : Registry Store Link}
    (hopen : ∀ s ∈ sources, Source.ofConfig connect s.config = .ok s)
    (hr : Registry.ofSources default sources = .ok r) (id : String)
    (steps : List Command.Step) :
    (runAll E id steps ⟨r, []⟩).2.Conserved r ∧
      ∀ own c other, other ∉ (Command.atoms own c).map Prod.fst →
        ((run E own c (runAll E id steps ⟨r, []⟩).2).2.2.session other).transaction =
          ((runAll E id steps ⟨r, []⟩).2.session other).transaction := by
  constructor
  · have hstart := sound_start (fun _ _ => True) hopen hr fun _ _ _ _ => trivial
    have hw : (runAll E id steps ⟨r, []⟩).2.Sound (fun _ _ => True) r fun _ => [] :=
      hstart.runAll E.respects_any id fun _ _ _ _ => trivial
    obtain ⟨hascending, hsource⟩ := Registry.ofSources_ok hr
    refine hw.conserved hascending fun name s hs => ?_
    obtain ⟨store, link, -, heq⟩ := Source.ofConfig_ok (hopen s (hsource name s hs).1)
    rw [heq]
    rfl
  · exact fun own c other hother => transaction_run hother _

/-- The second session lends one connection and begins no transaction, as none is left of the
source that has a single one. -/
theorem runAll_conserved_pair :
    ∃ r, Registry.ofSources "main" Database.pairInMemory = .ok r ∧
      (runAll Database.engine "a" [(none, .begin .serializable), (some "b", .hold "main" "k"),
        (some "b", .begin .readCommitted), (none, .commit)] ⟨r, []⟩).2.Conserved r := by
  obtain ⟨r, hr⟩ := Database.exists_registry_of_pair
  exact ⟨r, hr, (runAll_conserved Database.engine Database.pairInMemory_opened hr "a" _).1⟩

end World
end DataAccess
