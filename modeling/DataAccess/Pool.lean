import DataAccess.Engine

/-!
Connection pools. The connections of a pool are numbered from zero; those not in use form a
stack, so the one returned last is handed out first.
-/
namespace DataAccess

structure Pool (Store Link : Type) where
  size : Nat
  store : Store
  link : Nat → Link
  idle : List Nat

namespace Pool

variable {Fault Store Link α : Type}

/-- A pool whose connections are all idle and alike. -/
def fresh (size : Nat) (store : Store) (link : Link) : Pool Store Link :=
  ⟨size, store, fun _ => link, List.range size⟩

def checkedOut (p : Pool Store Link) : Nat := p.size - p.idle.length

def checkout? (p : Pool Store Link) : Option (Nat × Pool Store Link) :=
  match p.idle with
  | [] => none
  | n :: rest => some (n, { p with idle := rest })

def release (p : Pool Store Link) (n : Nat) : Pool Store Link := { p with idle := n :: p.idle }

theorem checkout?_release (p : Pool Store Link) (n : Nat) :
    (p.release n).checkout? = some (n, p) := rfl

theorem release_of_checkout? {p q : Pool Store Link} {n : Nat}
    (h : p.checkout? = some (n, q)) : q.release n = p := by
  obtain ⟨size, store, link, idle⟩ := p
  cases idle with
  | nil => simp [checkout?] at h
  | cons m rest =>
    simp only [checkout?, Option.some.injEq, Prod.mk.injEq] at h
    obtain ⟨rfl, rfl⟩ := h
    rfl

def setLink (p : Pool Store Link) (n : Nat) (l : Link) : Pool Store Link :=
  { p with link := fun m => if m = n then l else p.link m }

def use (p : Pool Store Link) (n : Nat) (access : Access Fault Store Link α) :
    Except Fault α × Pool Store Link :=
  let (result, store, link) := access p.store (p.link n)
  (result, { p with store := store }.setLink n link)

end Pool
end DataAccess
