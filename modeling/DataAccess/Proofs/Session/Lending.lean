import DataAccess.Proofs.Session.Occupancy

/-!
Sessions and the connections of their callers. Each operation of a session is an exchange of
connections between the pools, the transaction of the session and the handles it keeps.
-/
namespace DataAccess

variable {Fault Store Link α : Type} [Reportable Fault]

def Handle.lent (h : Handle) (name : String) : List Nat :=
  match h with
  | .transactional _ _ => []
  | .pooled source n => if source = name then [n] else []

def Handle.holdings (h : Handle) (name : String) : Holdings := (h.lent name).map (·, none)

namespace Session

def held (s : Session) (name : String) : List Nat :=
  (s.transaction.bind (·.links.get? name)).toList

def lent (s : Session) (name : String) : List Nat := s.handles.flatMap fun e => e.2.lent name

def holdings (s : Session) (name : String) : Holdings :=
  (s.held name).map (·, s.level?) ++ (s.lent name).map (·, none)

theorem holdings_none {s : Session} (h : s.transaction = none) (name : String) :
    s.holdings name = (s.lent name).map (·, none) := by
  unfold holdings held
  rw [h]
  rfl

theorem holdings_some {s : Session} {t : Transaction} (h : s.transaction = some t)
    (name : String) : s.holdings name = t.holdings name ++ (s.lent name).map (·, none) := by
  unfold holdings held level? Transaction.holdings
  rw [h]
  rfl

section

variable {E : Engine Fault Store Link} {fits : Role → Link → Prop} {allowed : Sql.Bound → Prop}
  {r r' : Registry Store Link}

theorem exchange_begin (hE : E.Respects fits allowed) (level : Level) (s : Session)
    (r : Registry Store Link) :
    r.Exchange fits (s.begin E level r).2.2 s.holdings (s.begin E level r).2.1.holdings := by
  unfold Session.begin
  split_ifs with hlent
  · exact .refl r _
  · cases ht : s.transaction with
    | some t => exact .refl r _
    | none =>
      unfold Transaction.begin
      cases hb : Transaction.beginAll E level r.sources with
      | mk result sources =>
        cases result with
        | error e =>
          obtain ⟨hkeys, hsource⟩ := Transaction.beginAll_error hE hb
          refine ⟨hkeys, rfl, fun name s' hs' => ?_⟩
          obtain ⟨src, hsrc, hmoves⟩ := hsource name s' hs'
          exact ⟨src, hsrc, hmoves _⟩
        | ok links =>
          obtain ⟨-, hkeys, hsource⟩ := Transaction.beginAll_ok hE hb
          refine ⟨hkeys, rfl, fun name s' hs' => ?_⟩
          obtain ⟨src, n, hsrc, hn, hmoves⟩ := hsource name s' hs'
          refine ⟨src, hsrc, ?_⟩
          dsimp only [Except.map]
          rw [holdings_none ht, holdings_some rfl, Transaction.holdings, hn]
          exact hmoves _

theorem exchange_finish (hE : E.Respects fits allowed) (o : Outcome) (s : Session)
    (r : Registry Store Link) :
    r.Exchange fits (s.finish E o r).2.2 s.holdings (s.finish E o r).2.1.holdings := by
  unfold Session.finish
  split_ifs with hlent
  · exact .refl r _
  · cases ht : s.transaction with
    | none => exact .refl r _
    | some t =>
      obtain ⟨hkeys, hsource⟩ := t.moves_finishAll hE o r.sources
      refine ⟨hkeys, rfl, fun name s' hs' => ?_⟩
      obtain ⟨src, hsrc, hmoves⟩ := hsource name s' hs'
      refine ⟨src, hsrc, ?_⟩
      rw [holdings_some ht, holdings_none rfl]
      exact hmoves _

theorem exchange_takePooled {source : String} {n : Nat}
    (h : takePooled source r = (.ok n, r')) (hs : String → Holdings) :
    r.Exchange fits r' hs fun name => (Handle.pooled source n).holdings name ++ hs name := by
  unfold takePooled Registry.get at h
  cases hsrc : r.sources.get? source with
  | none => simp [hsrc] at h
  | some src =>
    cases hc : src.pool.checkout? with
    | none => simp [hsrc, hc] at h
    | some c =>
      obtain ⟨m, q⟩ := c
      simp only [hsrc, hc, Prod.mk.injEq, Except.ok.injEq] at h
      obtain ⟨rfl, rfl⟩ := h
      refine .setPool hsrc ?_ fun other hother => ?_
      · simpa [Handle.holdings, Handle.lent] using Source.moves_checkout hc (hs source)
      · simp [Handle.holdings, Handle.lent, Ne.symm hother]

theorem takePooled_error {source : String} {e : Error}
    (h : takePooled source r = (.error e, r')) : r' = r := by
  unfold takePooled at h
  cases hsrc : r.get source with
  | error f =>
    simp only [hsrc, Prod.mk.injEq] at h
    exact h.2.symm
  | ok src =>
    cases hc : src.pool.checkout? with
    | none =>
      simp only [hsrc, hc, Prod.mk.injEq] at h
      exact h.2.symm
    | some c => simp [hsrc, hc] at h

theorem exchange_giveUp (fits : Role → Link → Prop) (h : Handle) (r : Registry Store Link)
    (hs : String → Holdings) :
    r.Exchange fits (giveUp h r) (fun name => h.holdings name ++ hs name) hs := by
  cases h with
  | transactional source n => exact .refl r hs
  | pooled source n =>
    cases hsrc : r.sources.get? source with
    | none =>
      simp only [giveUp, hsrc]
      refine ⟨rfl, rfl, fun name s' hs' => ⟨s', hs', ?_⟩⟩
      have hne : source ≠ name := by
        rintro rfl
        rw [hsrc] at hs'
        cases hs'
      simpa [Handle.holdings, Handle.lent, hne] using Source.Moves.refl s' (hs name)
    | some src =>
      simp only [giveUp, hsrc]
      refine .setPool hsrc ?_ fun other hother => ?_
      · simpa [Handle.holdings, Handle.lent] using src.moves_release n (hs source)
      · simp [Handle.holdings, Handle.lent, Ne.symm hother]

theorem exchange_useHandle {h : Handle} {access : Access Fault Store Link α} {role : Role}
    {hs : String → Holdings} (hn : (h.link, role) ∈ hs h.source)
    (haccess : ∀ store link, fits role link → fits role (access store link).2.2) :
    r.Exchange fits (useHandle h access r).2 hs hs := by
  unfold useHandle Registry.get
  cases hsrc : r.sources.get? h.source with
  | none => exact .refl r hs
  | some src => exact .setPool hsrc (Source.moves_use hn haccess) fun _ _ => rfl

/-- A resolved connection is one of the transaction, or a lent one. -/
theorem exchange_resolve (fits : Role → Link → Prop) {source : String} {s : Session} {h : Handle}
    (hr : s.resolve source r = (.ok h, r')) :
    r.Exchange fits r' s.holdings (fun name => h.holdings name ++ s.holdings name) ∧
      ∃ role, (h.link, role) ∈ h.holdings h.source ++ s.holdings h.source := by
  unfold resolve at hr
  cases ht : s.transaction with
  | some t =>
    cases hn : t.links.get? source with
    | none => simp [ht, hn] at hr
    | some n =>
      simp only [ht, hn, Prod.mk.injEq, Except.ok.injEq] at hr
      obtain ⟨rfl, rfl⟩ := hr
      refine ⟨.refl r _, some t.level, ?_⟩
      rw [holdings_some ht]
      simp [Handle.source, Handle.link, Transaction.holdings, hn]
  | none =>
    cases htake : takePooled source r with
    | mk result taken =>
      cases result with
      | error e => simp [ht, htake, Except.map] at hr
      | ok n =>
        simp only [ht, htake, Except.map, Prod.mk.injEq, Except.ok.injEq] at hr
        obtain ⟨rfl, rfl⟩ := hr
        refine ⟨exchange_takePooled htake _, none, ?_⟩
        simp [Handle.source, Handle.link, Handle.holdings, Handle.lent]

theorem resolve_error {source : String} {s : Session} {e : Error}
    (hr : s.resolve source r = (.error e, r')) : r' = r := by
  unfold resolve at hr
  cases ht : s.transaction with
  | some t =>
    cases hn : t.links.get? source with
    | none =>
      simp only [ht, hn, Prod.mk.injEq] at hr
      exact hr.2.symm
    | some n => simp [ht, hn] at hr
  | none =>
    cases htake : takePooled source r with
    | mk result taken =>
      cases result with
      | error f =>
        simp only [ht, htake, Except.map, Prod.mk.injEq] at hr
        exact hr.2 ▸ takePooled_error htake
      | ok n => simp [ht, htake, Except.map] at hr

/-- An access that respects every role leaves all connections where they are. -/
theorem exchange_withLink {source : String} {access : Access Fault Store Link α}
    (haccess : ∀ role store link, fits role link → fits role (access store link).2.2)
    (s : Session) (r : Registry Store Link) :
    r.Exchange fits (s.withLink source access r).2 s.holdings s.holdings := by
  unfold withLink
  cases hr : s.resolve source r with
  | mk result r' =>
    cases result with
    | error e =>
      rw [resolve_error hr]
      exact .refl r _
    | ok h =>
      obtain ⟨htake, role, hn⟩ := exchange_resolve fits hr
      exact (htake.trans (exchange_useHandle hn (haccess role))).trans (exchange_giveUp fits h _ _)

theorem lent_erase {s : Session} (hs : s.handles.Ascending) {key : String} {h : Handle}
    (hk : s.handles.get? key = some h) (name : String) :
    (s.lent name).Perm
      (h.lent name ++ { s with handles := s.handles.erase key }.lent name) :=
  (hs.perm_cons_erase hk).flatMap_right _

theorem lent_insert {s : Session} (hs : s.handles.Ascending) (key : String) (h : Handle)
    (name : String) :
    ({ s with handles := s.handles.insert key h }.lent name).Perm
      (h.lent name ++ { s with handles := s.handles.erase key }.lent name) :=
  (hs.insert_perm key h).flatMap_right _

/-- Where the transaction stays, so do the connections that it holds. -/
theorem holdings_perm {s s' : Session} {h : Handle} {name : String}
    (ht : s'.transaction = s.transaction)
    (hlent : (s'.lent name).Perm (h.lent name ++ s.lent name)) :
    (s'.holdings name).Perm (h.holdings name ++ s.holdings name) := by
  have hheld : (s'.held name).map (·, s'.level?) = (s.held name).map (·, s.level?) := by
    unfold held level?
    rw [ht]
  unfold holdings Handle.holdings
  rw [hheld]
  have hmap := hlent.map fun n => (n, (none : Role))
  rw [List.map_append] at hmap
  refine (hmap.append_left _).trans ?_
  rw [← List.append_assoc, ← List.append_assoc]
  exact List.perm_append_comm.append_right _

theorem exchange_release {s : Session} (hs : s.handles.Ascending) (key : String)
    (r : Registry Store Link) :
    r.Exchange fits (s.release key r).2.2 s.holdings (s.release key r).2.1.holdings := by
  unfold release
  cases hk : s.handles.get? key with
  | none => exact .refl r _
  | some h =>
    refine (exchange_giveUp fits h r _).congr (fun name => ?_) fun name => .refl _
    exact holdings_perm rfl (lent_erase hs hk name)

/-- A kept connection is lent from then on. -/
theorem exchange_keep {s : Session} (hs : s.handles.Ascending) (key : String) (h : Handle)
    (r : Registry Store Link) :
    r.Exchange fits (s.keep key h r).2 (fun name => h.holdings name ++ s.holdings name)
      (s.keep key h r).1.holdings := by
  unfold keep
  have hnew (name : String) : (holdings { s with handles := s.handles.insert key h } name).Perm
      (h.holdings name ++ holdings { s with handles := s.handles.erase key } name) :=
    holdings_perm rfl (lent_insert hs key h name)
  cases hk : s.handles.get? key with
  | none =>
    refine (Registry.Exchange.refl r _).congr (fun name => .refl _) fun name => ?_
    have herase : ({ s with handles := s.handles.erase key } : Session) = s := by
      rw [Keyed.erase_of_get?_eq_none hk]
    rw [herase] at hnew
    exact hnew name
  | some old =>
    have hold (name : String) : (s.holdings name).Perm
        (old.holdings name ++ holdings { s with handles := s.handles.erase key } name) :=
      holdings_perm rfl (lent_erase hs hk name)
    refine (exchange_giveUp fits old r _).congr (fun name => ?_) hnew
    refine ((hold name).append_left _).trans ?_
    rw [← List.append_assoc, ← List.append_assoc]
    exact List.perm_append_comm.append_right _

theorem exchange_giveUpAll (fits : Role → Link → Prop) (hs : Keyed Handle)
    (r : Registry Store Link) (ks : String → Holdings) :
    r.Exchange fits (hs.foldl (fun r e => giveUp e.2 r) r)
      (fun name => (hs.flatMap fun e => e.2.holdings name) ++ ks name) ks := by
  induction hs generalizing r with
  | nil => exact .refl r ks
  | cons e hs ih =>
    refine ((exchange_giveUp fits e.2 r _).congr (fun name => ?_) fun name => .refl _).trans (ih _)
    rw [List.flatMap_cons, List.append_assoc]

/-- A dropped session holds and lends nothing. -/
theorem exchange_drop (hE : E.Respects fits allowed) (s : Session) (r : Registry Store Link) :
    r.Exchange fits (s.drop E r) s.holdings fun _ => [] := by
  have hlent (name : String) : (s.lent name).map (·, (none : Role)) =
      s.handles.flatMap fun e => e.2.holdings name := by
    unfold lent Handle.holdings
    rw [List.map_flatMap]
  unfold drop
  cases ht : s.transaction with
  | none =>
    refine (exchange_giveUpAll fits s.handles r fun _ => []).congr (fun name => ?_) fun name => .refl _
    rw [holdings_none ht, hlent, List.append_nil]
  | some t =>
    have hgive := exchange_giveUpAll fits s.handles r t.holdings
    refine (hgive.congr (fun name => ?_) fun name => .refl _).trans ?_
    · rw [holdings_some ht, hlent]
      exact List.perm_append_comm
    · obtain ⟨hkeys, hsource⟩ := t.moves_finishAll hE .rollback
        (s.handles.foldl (fun r e => giveUp e.2 r) r).sources
      refine ⟨hkeys, rfl, fun name s' hs' => ?_⟩
      obtain ⟨src, hsrc, hmoves⟩ := hsource name s' hs'
      exact ⟨src, hsrc, by simpa using hmoves []⟩

end
end Session
end DataAccess
