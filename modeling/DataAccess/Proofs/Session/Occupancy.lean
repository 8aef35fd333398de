import DataAccess.Proofs.Keyed
import DataAccess.Session.Basic

/-!
The places of connections. A connection is idle in its pool, held by a transaction or lent to a
caller. Every operation of a session moves connections from place to place, loses none and
leaves alone those that are elsewhere, and it keeps whatever has to hold of a connection in its
role as long as the engine does.
-/
namespace DataAccess

variable {Fault Store Link α : Type} [Reportable Fault]

/-- The level of the transaction that holds a connection; none of one that is idle or lent. -/
abbrev Role := Option Level

/-- The connections of a source that are outside its pool, with their roles. -/
abbrev Holdings := List (Nat × Role)

def Source.places (s : Source Store Link) (hs : Holdings) : Holdings :=
  s.pool.idle.map (·, none) ++ hs

/-- A source before and after connections of it changed places. Where none was at two places,
what has to hold of connections in their roles is kept. -/
structure Source.Moves (fits : Role → Link → Prop) (s s' : Source Store Link)
    (hs hs' : Holdings) : Prop where
  config : s'.config = s.config
  size : s'.pool.size = s.pool.size
  perm : ((s'.places hs').map Prod.fst).Perm ((s.places hs).map Prod.fst)
  frame : ∀ n, n ∉ (s.places hs).map Prod.fst → s'.pool.link n = s.pool.link n
  fits : ((s.places hs).map Prod.fst).Nodup →
    (∀ p ∈ s.places hs, fits p.2 (s.pool.link p.1)) →
    ∀ p ∈ s'.places hs', fits p.2 (s'.pool.link p.1)

namespace Source.Moves

variable {fits : Role → Link → Prop} {s s' s'' : Source Store Link} {hs hs' hs'' : Holdings}

theorem refl (s : Source Store Link) (hs : Holdings) : Source.Moves fits s s hs hs :=
  ⟨rfl, rfl, .refl _, fun _ _ => rfl, fun _ h => h⟩

theorem trans (h : Source.Moves fits s s' hs hs') (h' : Source.Moves fits s' s'' hs' hs'') :
    Source.Moves fits s s'' hs hs'' := by
  constructor
  · exact h'.config.trans h.config
  · exact h'.size.trans h.size
  · exact h'.perm.trans h.perm
  · intro n hn
    rw [h'.frame n fun hn' => hn (h.perm.mem_iff.1 hn'), h.frame n hn]
  · intro hnodup hfits
    exact h'.fits (h.perm.nodup_iff.2 hnodup) (h.fits hnodup hfits)

theorem places_perm (s : Source Store Link) (h : hs.Perm hs') :
    (s.places hs).Perm (s.places hs') := h.append_left _

/-- The order of what is outside the pool does not matter. -/
theorem congr {ks ks' : Holdings} (h : Source.Moves fits s s' hs hs') (hk : ks.Perm hs)
    (hk' : ks'.Perm hs') : Source.Moves fits s s' ks ks' := by
  have hbefore := places_perm s hk
  have hafter := places_perm s' hk'
  constructor
  · exact h.config
  · exact h.size
  · exact ((hafter.map _).trans h.perm).trans (hbefore.map _).symm
  · intro n hn
    exact h.frame n fun hn' => hn ((hbefore.map _).mem_iff.2 hn')
  · intro hnodup hfits p hp
    exact h.fits ((hbefore.map _).nodup_iff.1 hnodup)
      (fun q hq => hfits q (hbefore.mem_iff.2 hq)) p (hafter.mem_iff.1 hp)

/-- Connections elsewhere stay where and as they are. -/
theorem extend (h : Source.Moves fits s s' hs hs') (ks : Holdings) :
    Source.Moves fits s s' (hs ++ ks) (hs' ++ ks) := by
  have hplaces (s : Source Store Link) (hs : Holdings) :
      s.places (hs ++ ks) = s.places hs ++ ks := (List.append_assoc _ _ _).symm
  constructor
  · exact h.config
  · exact h.size
  · rw [hplaces, hplaces, List.map_append, List.map_append]
    exact h.perm.append_right _
  · intro n hn
    rw [hplaces, List.map_append] at hn
    exact h.frame n fun hn' => hn (List.mem_append_left _ hn')
  · rw [hplaces, hplaces, List.map_append]
    intro hnodup hfits p hp
    rcases List.mem_append.1 hp with hp | hp
    · exact h.fits (List.nodup_append.1 hnodup).1
        (fun q hq => hfits q (List.mem_append_left _ hq)) p hp
    · have hout : p.1 ∉ (s.places hs).map Prod.fst := fun hin =>
        (List.nodup_append.1 hnodup).2.2 p.1 hin p.1 (List.mem_map_of_mem hp) rfl
      rw [h.frame p.1 hout]
      exact hfits p (List.mem_append_right _ hp)

/-- One connection takes its turn: it changes its role or its state, and all others stay. -/
theorem of_turn {n : Nat} {role role' : Role} {rest : Holdings} (hconfig : s'.config = s.config)
    (hsize : s'.pool.size = s.pool.size) (hbefore : (s.places hs).Perm ((n, role) :: rest))
    (hafter : (s'.places hs').Perm ((n, role') :: rest))
    (hlink : ∀ m, m ≠ n → s'.pool.link m = s.pool.link m)
    (hfits : fits role (s.pool.link n) → fits role' (s'.pool.link n)) :
    Source.Moves fits s s' hs hs' := by
  constructor
  · exact hconfig
  · exact hsize
  · exact (hafter.map Prod.fst).trans (hbefore.map Prod.fst).symm
  · intro m hm
    apply hlink
    rintro rfl
    exact hm ((hbefore.map Prod.fst).mem_iff.2 List.mem_cons_self)
  · intro hnodup hall p hp
    have hnodup : (((n, role) :: rest).map Prod.fst).Nodup :=
      (hbefore.map Prod.fst).nodup_iff.1 hnodup
    rw [List.map_cons, List.nodup_cons] at hnodup
    rcases List.mem_cons.1 (hafter.mem_iff.1 hp) with rfl | hp
    · exact hfits (hall (n, role) (hbefore.mem_iff.2 List.mem_cons_self))
    · have hne : p.1 ≠ n := by
        rintro rfl
        have hin : p.1 ∈ rest.map Prod.fst := List.mem_map_of_mem hp
        exact hnodup.1 hin
      rw [hlink p.1 hne]
      exact hall p (hbefore.mem_iff.2 (List.mem_cons_of_mem _ hp))

end Source.Moves

/-- A registry before and after connections of its sources changed places. -/
structure Registry.Exchange (fits : Role → Link → Prop) (r r' : Registry Store Link)
    (hs hs' : String → Holdings) : Prop where
  names : r'.names = r.names
  default : r'.default = r.default
  source : ∀ name s', r'.sources.get? name = some s' →
    ∃ s, r.sources.get? name = some s ∧ Source.Moves fits s s' (hs name) (hs' name)

namespace Registry.Exchange

variable {fits : Role → Link → Prop} {r r' r'' : Registry Store Link}
  {hs hs' hs'' : String → Holdings}

theorem refl (r : Registry Store Link) (hs : String → Holdings) :
    Registry.Exchange fits r r hs hs :=
  ⟨rfl, rfl, fun _ s h => ⟨s, h, .refl s _⟩⟩

theorem trans (h : Registry.Exchange fits r r' hs hs')
    (h' : Registry.Exchange fits r' r'' hs' hs'') : Registry.Exchange fits r r'' hs hs'' := by
  refine ⟨h'.names.trans h.names, h'.default.trans h.default, fun name s'' hs'' => ?_⟩
  obtain ⟨s', hs', hmoves'⟩ := h'.source name s'' hs''
  obtain ⟨s, hs, hmoves⟩ := h.source name s' hs'
  exact ⟨s, hs, hmoves.trans hmoves'⟩

theorem congr {ks ks' : String → Holdings} (h : Registry.Exchange fits r r' hs hs')
    (hk : ∀ name, (ks name).Perm (hs name)) (hk' : ∀ name, (ks' name).Perm (hs' name)) :
    Registry.Exchange fits r r' ks ks' := by
  refine ⟨h.names, h.default, fun name s' hs' => ?_⟩
  obtain ⟨s, hs, hmoves⟩ := h.source name s' hs'
  exact ⟨s, hs, hmoves.congr (hk name) (hk' name)⟩

theorem extend (h : Registry.Exchange fits r r' hs hs') (ks : String → Holdings) :
    Registry.Exchange fits r r' (fun name => hs name ++ ks name)
      fun name => hs' name ++ ks name := by
  refine ⟨h.names, h.default, fun name s' hs' => ?_⟩
  obtain ⟨s, hs, hmoves⟩ := h.source name s' hs'
  exact ⟨s, hs, hmoves.extend (ks name)⟩

theorem extend_left (h : Registry.Exchange fits r r' hs hs') (ks : String → Holdings) :
    Registry.Exchange fits r r' (fun name => ks name ++ hs name)
      fun name => ks name ++ hs' name :=
  (h.extend ks).congr (fun _ => List.perm_append_comm) fun _ => List.perm_append_comm

/-- The pool of one source changes. -/
theorem setPool {name : String} {s : Source Store Link} {p : Pool Store Link}
    (hsource : r.sources.get? name = some s)
    (hmoves : Source.Moves fits s { s with pool := p } (hs name) (hs' name))
    (hother : ∀ other, other ≠ name → hs' other = hs other) :
    Registry.Exchange fits r (r.setPool name p) hs hs' := by
  refine ⟨Keyed.keys_modify r.sources name fun s => { s with pool := p }, rfl,
    fun other s' hs' => ?_⟩
  unfold Registry.setPool at hs'
  dsimp only at hs'
  rw [Keyed.get?_modify] at hs'
  split_ifs at hs' with heq
  · subst heq
    rw [hsource] at hs'
    cases hs'
    exact ⟨s, hsource, hmoves⟩
  · rw [hother other heq]
    exact ⟨s', hs', .refl s' _⟩

end Registry.Exchange
/-- Transactions and the allowed statements keep what has to hold of a connection in its role. -/
structure Engine.Respects (E : Engine Fault Store Link) (fits : Role → Link → Prop)
    (allowed : Sql.Bound → Prop) : Prop where
  begun : ∀ {level : Level} {store store' : Store} {link link' : Link},
    level.begin E store link = (.ok (), store', link') → fits none link → fits (some level) link'
  unbegun : ∀ {level : Level} {e : Fault} {store store' : Store} {link link' : Link},
    level.begin E store link = (.error e, store', link') → fits none link → fits none link'
  finished : ∀ (o : Outcome) (level : Level) (store : Store) (link : Link),
    fits (some level) link → fits none (o.finish E level store link).2.2
  executed : ∀ {b : Sql.Bound}, allowed b → ∀ (role : Role) (store : Store) (link : Link),
    fits role link → fits role (E.execute b store link).2.2
  queried : ∀ {b : Sql.Bound}, allowed b → ∀ (role : Role) (store : Store) (link : Link),
    fits role link → fits role (E.query b store link).2.2

section Source

variable {E : Engine Fault Store Link} {fits : Role → Link → Prop} {allowed : Sql.Bound → Prop}
  {s s' : Source Store Link} {n : Nat}

theorem Pool.idle_of_checkout? {p q : Pool Store Link} (h : p.checkout? = some (n, q)) :
    p.idle = n :: q.idle ∧ q = { p with idle := q.idle } := by
  unfold Pool.checkout? at h
  split at h
  · cases h
  · rename_i m rest hidle
    cases h
    exact ⟨hidle, rfl⟩

/-- A connection taken from the pool is lent. -/
theorem Pool.idle_eq_nil_of_checkout? {p : Pool Store Link} (h : p.checkout? = none) :
    p.idle = [] := by
  unfold Pool.checkout? at h
  cases hidle : p.idle with
  | nil => rfl
  | cons n rest =>
    rw [hidle] at h
    cases h

theorem Source.moves_checkout {q : Pool Store Link} (h : s.pool.checkout? = some (n, q))
    (hs : Holdings) :
    Source.Moves fits s { s with pool := q } hs ((n, none) :: hs) := by
  obtain ⟨hidle, hq⟩ := Pool.idle_of_checkout? h
  have hbefore : (s.places hs).Perm ((n, none) :: (q.idle.map (·, none) ++ hs)) := by
    unfold Source.places
    rw [hidle]
    rfl
  refine .of_turn rfl ?_ hbefore List.perm_middle (fun m _ => ?_) ?_
  · rw [hq]
  · rw [hq]
  · rw [hq]
    exact id

/-- A lent connection put back is idle. -/
theorem Source.moves_release (s : Source Store Link) (n : Nat) (hs : Holdings) :
    Source.Moves fits s { s with pool := s.pool.release n } ((n, none) :: hs) hs := by
  refine .of_turn rfl rfl List.perm_middle ?_ (fun _ _ => rfl) id
  exact .refl _

omit [Reportable Fault] in
theorem Pool.link_use (p : Pool Store Link) (n : Nat) (access : Access Fault Store Link α) (m : Nat) :
    (p.use n access).2.link m =
      if m = n then (access p.store (p.link n)).2.2 else p.link m := rfl

omit [Reportable Fault] in
/-- A connection that is used stays where it is. -/
theorem Source.moves_use {access : Access Fault Store Link α} {role : Role} {hs : Holdings}
    (hn : (n, role) ∈ hs)
    (haccess : ∀ store link, fits role link → fits role (access store link).2.2) :
    Source.Moves fits s { s with pool := (s.pool.use n access).2 } hs hs := by
  obtain ⟨front, back, rfl⟩ := List.append_of_mem hn
  have hplaces : (s.places (front ++ (n, role) :: back)).Perm
      ((n, role) :: (s.places (front ++ back))) := by
    unfold Source.places
    rw [← List.append_assoc, ← List.append_assoc]
    exact List.perm_middle
  refine .of_turn rfl rfl hplaces hplaces (fun m hm => ?_) fun hfits => ?_
  · rw [Pool.link_use, if_neg hm]
  · rw [Pool.link_use, if_pos rfl]
    exact haccess _ _ hfits

/-- Beginning on a source takes the connection that is idle on top. -/
theorem Source.begin_cases (level : Level) (s : Source Store Link) :
    (s.pool.idle = [] ∧ s.begin E level = (.error .pool, s)) ∨
      ∃ (n : Nat) (rest : List Nat) (result : Except Fault Unit) (store : Store)
        (link : Link), s.pool.idle = n :: rest ∧
        level.begin E s.pool.store (s.pool.link n) = (result, store, link) ∧
        s.begin E level =
          (match result with
          | .ok () => (.ok n, { s with pool :=
              ({ s.pool with idle := rest, store := store } : Pool Store Link).setLink n link })
          | .error e => (.error (.ofFault e), { s with pool :=
              ({ s.pool with store := store } : Pool Store Link).setLink n link })) := by
  unfold Source.begin
  cases hc : s.pool.checkout? with
  | none => exact .inl ⟨Pool.idle_eq_nil_of_checkout? hc, rfl⟩
  | some c =>
    obtain ⟨n, q⟩ := c
    obtain ⟨hidle, hq⟩ := Pool.idle_of_checkout? hc
    cases ha : level.begin E s.pool.store (s.pool.link n) with
    | mk result after =>
      obtain ⟨store, link⟩ := after
      refine .inr ⟨n, q.idle, result, store, link, hidle, ha, ?_⟩
      have huse : q.use n (level.begin E) =
          (result, ({ s.pool with idle := q.idle, store := store } : Pool Store Link).setLink n
            link) := by
        rw [hq]
        simp [Pool.use, ha]
      cases result with
      | ok u => simp [huse]
      | error e => simp [huse, Pool.release, Pool.setLink, hidle]

/-- A transaction that begins on a source holds a connection of it. -/
theorem Source.begin_ok (hE : E.Respects fits allowed) {level : Level}
    (h : s.begin E level = (.ok n, s')) (hs : Holdings) :
    Source.Moves fits s s' hs ((n, some level) :: hs) := by
  rcases Source.begin_cases (E := E) level s with
    ⟨-, hnone⟩ | ⟨m, rest, result, store, link, hidle, ha, hb⟩
  · rw [hnone] at h
    cases h
  · rw [hb] at h
    cases result with
    | error e => cases h
    | ok u =>
      cases h
      have hbefore : (s.places hs).Perm ((n, none) :: (rest.map (·, none) ++ hs)) := by
        unfold Source.places
        rw [hidle]
        rfl
      refine .of_turn rfl rfl hbefore List.perm_middle (fun k hk => ?_) fun hfits => ?_
      · exact if_neg hk
      · rw [show (Pool.setLink _ n link).link n = link from if_pos rfl]
        exact hE.begun ha hfits

/-- A connection on which a transaction does not begin stays idle. -/
theorem Source.begin_error (hE : E.Respects fits allowed) {level : Level} {e : Error}
    (h : s.begin E level = (.error e, s')) (hs : Holdings) : Source.Moves fits s s' hs hs := by
  rcases Source.begin_cases (E := E) level s with
    ⟨-, hnone⟩ | ⟨n, rest, result, store, link, hidle, ha, hb⟩
  · rw [hnone] at h
    cases h
    exact .refl s hs
  · rw [hb] at h
    cases result with
    | ok u => cases h
    | error f =>
      cases h
      have hplaces : (s.places hs).Perm ((n, none) :: (rest.map (·, none) ++ hs)) := by
        unfold Source.places
        rw [hidle]
        rfl
      refine .of_turn rfl rfl hplaces hplaces (fun k hk => ?_) fun hfits => ?_
      · exact if_neg hk
      · rw [show (Pool.setLink _ n link).link n = link from if_pos rfl]
        exact hE.unbegun ha hfits

omit [Reportable Fault] in
/-- A connection is idle once the transaction that holds it has ended. -/
theorem Source.moves_finish (hE : E.Respects fits allowed) (o : Outcome) (level : Level)
    (s : Source Store Link) (n : Nat) (hs : Holdings) :
    Source.Moves fits s (s.finish E o level n).2 ((n, some level) :: hs) hs := by
  refine .of_turn rfl rfl List.perm_middle (.refl _) (fun k hk => ?_) fun hfits => ?_
  · exact if_neg hk
  · have hlink : (s.finish E o level n).2.pool.link n =
        (o.finish E level s.pool.store (s.pool.link n)).2.2 := if_pos rfl
    rw [hlink]
    exact hE.finished o level _ _ hfits

end Source

section Sources

variable {E : Engine Fault Store Link} {fits : Role → Link → Prop} {allowed : Sql.Bound → Prop}

/-- A transaction that begins holds one connection of every source. -/
theorem Transaction.beginAll_ok (hE : E.Respects fits allowed) {level : Level}
    {m m' : Keyed (Source Store Link)} {links : Keyed Nat}
    (h : Transaction.beginAll E level m = (.ok links, m')) :
    links.keys = m.keys ∧ m'.keys = m.keys ∧ ∀ name s', m'.get? name = some s' →
      ∃ s n, m.get? name = some s ∧ links.get? name = some n ∧
        ∀ hs, Source.Moves fits s s' hs ((n, some level) :: hs) := by
  induction m generalizing m' links with
  | nil =>
    cases h
    exact ⟨rfl, rfl, fun name s' hs' => by simp [Keyed.get?] at hs'⟩
  | cons e rest ih =>
    obtain ⟨name, s⟩ := e
    unfold Transaction.beginAll at h
    cases hb : s.begin E level with
    | mk result t =>
      cases result with
      | error e => simp [hb] at h
      | ok n =>
        cases hr : Transaction.beginAll E level rest with
        | mk later rest' =>
          cases later with
          | error e => simp [hb, hr] at h
          | ok ns =>
            simp only [hb, hr, Prod.mk.injEq, Except.ok.injEq] at h
            obtain ⟨rfl, rfl⟩ := h
            obtain ⟨hlinks, hkeys, hsource⟩ := ih hr
            refine ⟨congrArg (name :: ·) hlinks, congrArg (name :: ·) hkeys, ?_⟩
            intro other s' hs'
            rw [Keyed.get?_cons] at hs' ⊢
            rw [Keyed.get?_cons]
            split_ifs at hs' ⊢ with heq
            · cases hs'
              exact ⟨s, n, rfl, rfl, Source.begin_ok hE hb⟩
            · exact hsource other s' hs'

/-- Where a transaction does not begin, no connection stays outside its pool. -/
theorem Transaction.beginAll_error (hE : E.Respects fits allowed) {level : Level} {e : Error}
    {m m' : Keyed (Source Store Link)} (h : Transaction.beginAll E level m = (.error e, m')) :
    m'.keys = m.keys ∧ ∀ name s', m'.get? name = some s' →
      ∃ s, m.get? name = some s ∧ ∀ hs, Source.Moves fits s s' hs hs := by
  induction m generalizing m' with
  | nil => cases h
  | cons entry rest ih =>
    obtain ⟨name, s⟩ := entry
    unfold Transaction.beginAll at h
    cases hb : s.begin E level with
    | mk result t =>
      cases result with
      | error f =>
        simp only [hb, Prod.mk.injEq] at h
        obtain ⟨-, rfl⟩ := h
        refine ⟨rfl, fun other s' hs' => ?_⟩
        rw [Keyed.get?_cons] at hs' ⊢
        split_ifs at hs' ⊢ with heq
        · cases hs'
          exact ⟨s, rfl, Source.begin_error hE hb⟩
        · exact ⟨s', hs', Source.Moves.refl s'⟩
      | ok n =>
        cases hr : Transaction.beginAll E level rest with
        | mk later rest' =>
          cases later with
          | ok ns => simp [hb, hr] at h
          | error f =>
            simp only [hb, hr, Prod.mk.injEq] at h
            obtain ⟨hf, rfl⟩ := h
            cases hf
            obtain ⟨hkeys, hsource⟩ := ih hr
            refine ⟨congrArg (name :: ·) hkeys, fun other s' hs' => ?_⟩
            rw [Keyed.get?_cons] at hs' ⊢
            split_ifs at hs' ⊢ with heq
            · cases hs'
              refine ⟨s, rfl, fun hs => ?_⟩
              exact (Source.begin_ok hE hb hs).trans (Source.moves_finish hE .rollback level t n hs)
            · exact hsource other s' hs'

def Transaction.holdings (t : Transaction) (name : String) : Holdings :=
  (t.links.get? name).toList.map (·, some t.level)

omit [Reportable Fault] in
/-- A transaction that ends gives up its connections, whatever fails. -/
theorem Transaction.moves_finishAll (hE : E.Respects fits allowed) (o : Outcome) (t : Transaction)
    (m : Keyed (Source Store Link)) :
    (t.finishAll E o m).2.keys = m.keys ∧ ∀ name s', (t.finishAll E o m).2.get? name = some s' →
      ∃ s, m.get? name = some s ∧
        ∀ hs, Source.Moves fits s s' (t.holdings name ++ hs) hs := by
  induction m with
  | nil => exact ⟨rfl, fun name s' hs' => by simp [Transaction.finishAll, Keyed.get?] at hs'⟩
  | cons entry rest ih =>
    obtain ⟨name, s⟩ := entry
    obtain ⟨hkeys, hsource⟩ := ih
    unfold Transaction.finishAll
    refine ⟨congrArg (name :: ·) hkeys, fun other s' hs' => ?_⟩
    dsimp only at hs'
    rw [Keyed.get?_cons] at hs' ⊢
    split_ifs at hs' ⊢ with heq
    · subst heq
      unfold Transaction.holdings
      cases hn : t.links.get? other with
      | none =>
        simp only [hn] at hs'
        cases hs'
        exact ⟨s, rfl, Source.Moves.refl s⟩
      | some n =>
        simp only [hn] at hs'
        cases hs'
        exact ⟨s, rfl, Source.moves_finish hE o t.level s n⟩
    · exact hsource other s' hs'

end Sources

end DataAccess
