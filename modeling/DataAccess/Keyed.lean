/-!
Association lists in ascending order of their text keys, each key once. Text is ordered by
its code points, which is also the order of its UTF-8 bytes.
-/
namespace DataAccess

/-- Key and value pairs, meant to be in strictly ascending order of keys. -/
abbrev Keyed (α : Type) := List (String × α)

namespace Keyed

variable {α : Type}

/-- Strictly ascending keys, hence each key once. -/
def Ascending (m : Keyed α) : Prop := m.Pairwise fun a b => a.1 < b.1

/-- Adds an entry in its place, or replaces the value under its key. -/
def insert (m : Keyed α) (key : String) (a : α) : Keyed α :=
  match m with
  | [] => [(key, a)]
  | (k, b) :: rest =>
    if key < k then (key, a) :: (k, b) :: rest
    else if k = key then (key, a) :: rest
    else (k, b) :: insert rest key a

def get? (m : Keyed α) (key : String) : Option α := m.lookup key

def keys (m : Keyed α) : List String := m.map Prod.fst

theorem get?_cons (k key : String) (a : α) (rest : Keyed α) :
    get? ((k, a) :: rest) key = if key = k then some a else get? rest key := by
  by_cases h : key = k
  · simp [get?, h]
  · have hb : (key == k) = false := by simpa using h
    simp [get?, List.lookup_cons, h, hb]

theorem get?_insert (m : Keyed α) (key other : String) (a : α) :
    (m.insert key a).get? other = if other = key then some a else m.get? other := by
  induction m with
  | nil => exact get?_cons key other a []
  | cons e rest ih =>
    obtain ⟨k, b⟩ := e
    unfold insert
    split
    · exact get?_cons key other a _
    · split
      · rename_i h
        subst h
        rw [get?_cons, get?_cons]
        split <;> rfl
      · rename_i hk
        rw [get?_cons, get?_cons, ih]
        by_cases h : other = k
        · simp [h, hk]
        · simp [h]

theorem mem_keys_insert (m : Keyed α) (key other : String) (a : α) :
    other ∈ (m.insert key a).keys ↔ other = key ∨ other ∈ m.keys := by
  induction m with
  | nil => simp [insert, keys]
  | cons e rest ih =>
    obtain ⟨k, b⟩ := e
    unfold insert
    split
    · simp [keys]
    · split
      · rename_i h
        simp [keys, h]
      · have ih' : other ∈ List.map Prod.fst (insert rest key a) ↔
            other = key ∨ other ∈ List.map Prod.fst rest := ih
        simp only [keys, List.map_cons, List.mem_cons, ih']
        exact or_left_comm

theorem ascending_cons {k : String} {b : α} {rest : Keyed α} :
    Ascending ((k, b) :: rest) ↔ (∀ other ∈ keys rest, k < other) ∧ Ascending rest := by
  simp [Ascending, keys]

/-- Inserting keeps the order. -/
theorem Ascending.insert {m : Keyed α} (h : m.Ascending) (key : String) (a : α) :
    (m.insert key a).Ascending := by
  induction m with
  | nil => simp [Keyed.insert, Ascending]
  | cons e rest ih =>
    obtain ⟨k, b⟩ := e
    obtain ⟨hk, hrest⟩ := ascending_cons.1 h
    unfold Keyed.insert
    split
    · rename_i hlt
      refine ascending_cons.2 ⟨fun other ho => ?_, h⟩
      rcases List.mem_cons.1 ho with rfl | ho
      · exact hlt
      · exact String.lt_trans hlt (hk other ho)
    · rename_i hlt
      split
      · rename_i heq
        subst heq
        exact ascending_cons.2 ⟨hk, hrest⟩
      · rename_i hne
        refine ascending_cons.2 ⟨fun other ho => ?_, ih hrest⟩
        rcases (mem_keys_insert rest key other a).1 ho with rfl | ho
        · exact Std.lt_of_le_of_ne (String.not_lt.1 hlt) hne
        · exact hk other ho

def contains (m : Keyed α) (key : String) : Bool := (m.get? key).isSome

/-- Replaces the value under a key, if the key occurs. -/
def modify (m : Keyed α) (key : String) (f : α → α) : Keyed α :=
  m.map fun e => if e.1 = key then (e.1, f e.2) else e

def erase (m : Keyed α) (key : String) : Keyed α := m.filter (·.1 != key)

/-- Of equal keys the last one counts. -/
def ofList (l : List (String × α)) : Keyed α :=
  l.foldl (fun m e => m.insert e.1 e.2) []

theorem ascending_ofList (l : List (String × α)) : (ofList l).Ascending := by
  have step (l : List (String × α)) (m : Keyed α) (h : m.Ascending) :
      (l.foldl (fun m e => m.insert e.1 e.2) m).Ascending := by
    induction l generalizing m with
    | nil => exact h
    | cons e rest ih => exact ih _ (h.insert e.1 e.2)
  exact step l [] List.Pairwise.nil

end Keyed
end DataAccess
