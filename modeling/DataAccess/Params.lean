import DataAccess.Value

/-!
Named parameters: a finite map from names to values. Inserting a name again replaces its
value, so every name occurs once.
-/
namespace DataAccess

structure Params where
  entries : List (String × Value)
  nodup : (entries.map Prod.fst).Nodup

namespace Params

def empty : Params := ⟨[], by simp⟩

instance : Inhabited Params := ⟨empty⟩

def size (p : Params) : Nat := p.entries.length

def isEmpty (p : Params) : Bool := p.entries.isEmpty

def get? (p : Params) (name : String) : Option Value := p.entries.lookup name

private theorem nodup_cons_filter (l : List (String × Value)) (h : (l.map Prod.fst).Nodup)
    (name : String) (v : Value) :
    (((name, v) :: l.filter (·.1 != name)).map Prod.fst).Nodup := by
  rw [List.map_cons, List.nodup_cons]
  refine ⟨?_, (List.filter_sublist.map Prod.fst).nodup h⟩
  simp only [List.mem_map, List.mem_filter, not_exists, not_and]
  rintro ⟨_, _⟩ ⟨_, hne⟩ rfl
  simp at hne

def insert (p : Params) (name : String) (v : Value) : Params :=
  ⟨(name, v) :: p.entries.filter (·.1 != name), nodup_cons_filter p.entries p.nodup name v⟩

/-- Of equal names the last one counts. -/
def ofList (l : List (String × Value)) : Params :=
  l.foldl (fun p e => p.insert e.1 e.2) empty

private theorem lookup_filter_ne (l : List (String × Value)) {name other : String}
    (h : other ≠ name) : (l.filter (·.1 != name)).lookup other = l.lookup other := by
  induction l with
  | nil => rfl
  | cons e l ih =>
    obtain ⟨k, v⟩ := e
    by_cases hk : k = name
    · subst hk
      have : (other == k) = false := by simpa using h
      simp [List.lookup_cons, ih, this]
    · simp [hk, List.lookup_cons, ih]

theorem get?_insert (p : Params) (name other : String) (v : Value) :
    (p.insert name v).get? other = if other = name then some v else p.get? other := by
  by_cases h : other = name
  · subst h
    simp [insert, get?]
  · have hb : (other == name) = false := by simpa using h
    simp [insert, get?, List.lookup_cons, hb, h, lookup_filter_ne]

/-- The same names with equal values; as for floats, NaN differs from itself. -/
instance : BEq Params :=
  ⟨fun p q => p.size == q.size &&
    p.entries.all fun e => match q.get? e.1 with | some v => v == e.2 | none => false⟩

end Params
end DataAccess
