import DataAccess.Keyed
import Mathlib.Data.List.Perm.Basic
import Mathlib.Tactic.Common

/-!
Association lists as maps. Looking a key up in a list that is changed or made from others, and an
entry set apart from the rest of an ascending list.
-/
namespace DataAccess.Keyed

variable {α : Type}

theorem get?_modify (m : Keyed α) (key : String) (f : α → α) (other : String) :
    (m.modify key f).get? other =
      if other = key then (m.get? other).map f else m.get? other := by
  induction m with
  | nil => simp [modify, get?]
  | cons e rest ih =>
    obtain ⟨k, b⟩ := e
    unfold modify at ih ⊢
    by_cases hk : k = key
    · subst hk
      simp only [List.map_cons, if_true, get?_cons, ih]
      split_ifs <;> rfl
    · simp only [List.map_cons, hk, if_false, get?_cons, ih]
      by_cases ho : other = k
      · subst ho
        simp [hk]
      · simp [ho]

theorem keys_modify (m : Keyed α) (key : String) (f : α → α) : (m.modify key f).keys = m.keys := by
  unfold modify keys
  rw [List.map_map]
  apply List.map_congr_left
  intro e _
  by_cases h : e.1 = key <;> simp [h]

theorem get?_erase (m : Keyed α) (key other : String) :
    (m.erase key).get? other = if other = key then none else m.get? other := by
  induction m with
  | nil => simp [erase, get?]
  | cons e rest ih =>
    obtain ⟨k, b⟩ := e
    unfold erase at ih ⊢
    by_cases hk : k = key
    · subst hk
      rw [List.filter_cons_of_neg (by simp), ih, get?_cons]
      split_ifs <;> rfl
    · rw [List.filter_cons_of_pos (by simpa using hk), get?_cons, get?_cons, ih]
      by_cases ho : other = k
      · subst ho
        simp [hk]
      · simp [ho]

theorem mem_of_get?_eq_some {m : Keyed α} {key : String} {a : α} (h : m.get? key = some a) :
    (key, a) ∈ m := by
  induction m with
  | nil => simp [get?] at h
  | cons e rest ih =>
    obtain ⟨k, b⟩ := e
    rw [get?_cons] at h
    split_ifs at h with hk
    · cases h
      subst hk
      exact List.mem_cons_self
    · exact List.mem_cons_of_mem _ (ih h)

theorem mem_of_mem_insert {m : Keyed α} {key : String} {a : α} {e : String × α}
    (h : e ∈ m.insert key a) : e = (key, a) ∨ e ∈ m := by
  induction m with
  | nil => exact .inl (List.mem_singleton.1 h)
  | cons first rest ih =>
    obtain ⟨k, b⟩ := first
    unfold insert at h
    split_ifs at h with hlt hk
    · exact List.mem_cons.1 h
    · exact (List.mem_cons.1 h).imp_right (List.mem_cons_of_mem _)
    · rcases List.mem_cons.1 h with rfl | h
      · exact .inr List.mem_cons_self
      · exact (ih h).imp_right (List.mem_cons_of_mem _)

theorem get?_eq_none_iff {m : Keyed α} {key : String} : m.get? key = none ↔ key ∉ m.keys := by
  induction m with
  | nil => simp [get?, keys]
  | cons e rest ih =>
    obtain ⟨k, b⟩ := e
    unfold keys at ih ⊢
    rw [get?_cons, List.map_cons, List.mem_cons, not_or, ← ih]
    split_ifs with hk
    · simp [hk]
    · simp [hk]

theorem erase_of_get?_eq_none {m : Keyed α} {key : String} (h : m.get? key = none) :
    m.erase key = m := by
  unfold erase
  rw [List.filter_eq_self]
  intro e he
  have hne : e.1 ≠ key := by
    rintro rfl
    exact get?_eq_none_iff.1 h (List.mem_map_of_mem he)
  simpa using hne

theorem erase_insert (m : Keyed α) (key : String) (a : α) :
    (m.insert key a).erase key = m.erase key := by
  induction m with
  | nil => simp [insert, erase]
  | cons e rest ih =>
    obtain ⟨k, b⟩ := e
    unfold erase at ih ⊢
    unfold insert
    split_ifs with hlt hk
    · rw [List.filter_cons_of_neg (by simp)]
    · subst hk
      rw [List.filter_cons_of_neg (by simp), List.filter_cons_of_neg (by simp)]
    · rw [List.filter_cons_of_pos (by simpa using hk), List.filter_cons_of_pos (by simpa using hk),
        ih]

theorem Ascending.of_keys {β : Type} {m : Keyed α} {m' : Keyed β} (h : m.Ascending)
    (hkeys : m'.keys = m.keys) : m'.Ascending := by
  have hall : (m.keys).Pairwise (· < ·) := List.pairwise_map.2 h
  rw [← hkeys] at hall
  exact List.pairwise_map.1 hall

theorem Ascending.erase {m : Keyed α} (h : m.Ascending) (key : String) :
    (m.erase key).Ascending := h.filter _

/-- The entry of a key beside the others. -/
theorem Ascending.perm_cons_erase {m : Keyed α} (h : m.Ascending) {key : String} {a : α}
    (ha : m.get? key = some a) : m.Perm ((key, a) :: m.erase key) := by
  induction m with
  | nil => simp [get?] at ha
  | cons e rest ih =>
    obtain ⟨k, b⟩ := e
    obtain ⟨hk, hrest⟩ := ascending_cons.1 h
    rw [get?_cons] at ha
    split_ifs at ha with hkey
    · cases ha
      subst hkey
      have hnone : Keyed.get? rest key = none :=
        get?_eq_none_iff.2 fun hmem => absurd (hk key hmem) (String.lt_irrefl key)
      have herase : Keyed.erase ((key, a) :: rest) key = rest := by
        unfold Keyed.erase
        rw [List.filter_cons_of_neg (by simp)]
        exact erase_of_get?_eq_none hnone
      rw [herase]
    · have herase : Keyed.erase ((k, b) :: rest) key = (k, b) :: Keyed.erase rest key := by
        unfold Keyed.erase
        rw [List.filter_cons_of_pos (by simpa using Ne.symm hkey)]
      rw [herase]
      exact ((ih hrest ha).cons _).trans (List.Perm.swap _ _ _)

theorem get?_append (m m' : Keyed α) (key : String) :
    Keyed.get? (m ++ m') key = (m.get? key).or (m'.get? key) := List.lookup_append

/-- Of equal keys the last one counts. -/
theorem get?_ofList (l : List (String × α)) (key : String) :
    (Keyed.ofList l).get? key = Keyed.get? l.reverse key := by
  have step (l : List (String × α)) (m : Keyed α) :
      (l.foldl (fun m e => m.insert e.1 e.2) m).get? key =
        (Keyed.get? l.reverse key).or (m.get? key) := by
    induction l generalizing m with
    | nil => rfl
    | cons e rest ih =>
      rw [List.foldl_cons, ih, List.reverse_cons, get?_append, Option.or_assoc, get?_insert,
        get?_cons]
      split_ifs <;> rfl
  rw [ofList, step]
  exact Option.or_none

theorem get?_map_self (f : String → α) (names : List String) (name : String) :
    Keyed.get? (names.map fun n => (n, f n)) name =
      if name ∈ names then some (f name) else none := by
  induction names with
  | nil => rfl
  | cons n names ih =>
    rw [List.map_cons, get?_cons, ih]
    by_cases hn : name = n
    · rw [if_pos hn, if_pos (hn ▸ List.mem_cons_self), hn]
    · simp [hn]

theorem Ascending.get?_of_mem {m : Keyed α} (h : m.Ascending) {key : String} {a : α}
    (ha : (key, a) ∈ m) : m.get? key = some a := by
  induction m with
  | nil => cases ha
  | cons e rest ih =>
    obtain ⟨k, b⟩ := e
    obtain ⟨hk, hrest⟩ := ascending_cons.1 h
    rw [get?_cons]
    rcases List.mem_cons.1 ha with heq | hmem
    · cases heq
      rw [if_pos rfl]
    · have hlt : k < key := hk key (List.mem_map_of_mem hmem)
      have hne : key ≠ k := fun heq => String.lt_irrefl k (heq ▸ hlt)
      rw [if_neg hne, ih hrest hmem]

theorem Ascending.get?_eq_some_iff {m : Keyed α} (h : m.Ascending) {key : String} {a : α} :
    m.get? key = some a ↔ (key, a) ∈ m :=
  ⟨mem_of_get?_eq_some, h.get?_of_mem⟩

theorem get?_map {β : Type} (f : α → β) (m : Keyed α) (key : String) :
    Keyed.get? (m.map fun e => (e.1, f e.2)) key = (m.get? key).map f := by
  induction m with
  | nil => rfl
  | cons e rest ih =>
    obtain ⟨k, a⟩ := e
    rw [List.map_cons, get?_cons, get?_cons, ih]
    split_ifs <;> rfl

/-- Ascending lists with the same entries are the same. -/
theorem Ascending.eq_of_perm {m m' : Keyed α} (h : m.Ascending) (h' : m'.Ascending)
    (hperm : m.Perm m') : m = m' :=
  hperm.eq_of_pairwise
    (fun _ _ _ _ hlt hgt => absurd (String.lt_trans hlt hgt) (String.lt_irrefl _)) h h'

theorem Ascending.insert_perm {m : Keyed α} (h : m.Ascending) (key : String) (a : α) :
    (m.insert key a).Perm ((key, a) :: m.erase key) := by
  have hperm := (h.insert key a).perm_cons_erase (by rw [get?_insert, if_pos rfl])
  rwa [erase_insert] at hperm

end DataAccess.Keyed
