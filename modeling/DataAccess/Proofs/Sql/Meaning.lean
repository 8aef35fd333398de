import DataAccess.Database.Expr
import DataAccess.Proofs.Sql.Reading

/-!
What where clauses mean. A clause is read as a tree that is true, false or unknown when the set of its
conditions is, whatever the conditions are.
-/
namespace DataAccess.Sql

def Connective.combine : Connective → Option Bool → Option Bool → Option Bool
  | .and => Database.and3
  | .or => Database.or3

def Connective.unit : Connective → Option Bool
  | .and => some true
  | .or => some false

theorem Connective.combine_assoc (k : Connective) (a b c : Option Bool) :
    k.combine (k.combine a b) c = k.combine a (k.combine b c) := by
  cases k <;> rcases a with _ | _ | _ <;> rcases b with _ | _ | _ <;>
    rcases c with _ | _ | _ <;> rfl

theorem Connective.combine_unit (k : Connective) (a : Option Bool) :
    k.combine a k.unit = a := by
  cases k <;> rcases a with _ | _ | _ <;> rfl

/-- The truth value of a tree by those of its leaves, which are counted from a number on. -/
def Tree.value (v : Nat → Option Bool) (n : Nat) : Tree → Option Bool
  | .leaf _ => v n
  | .and a b => Database.and3 (a.value v n) (b.value v (n + a.leaves.length))
  | .or a b => Database.or3 (a.value v n) (b.value v (n + a.leaves.length))

def Members.pruned : Members → Members
  | .nil => .nil
  | .condition c rest => .condition c rest.pruned
  | .group k inner rest =>
    if inner.isEmpty then rest.pruned else .group k inner.pruned rest.pruned

def Members.value (v : Nat → Option Bool) (k : Connective) (n : Nat) : Members → Option Bool
  | .nil => k.unit
  | .condition _ rest => k.combine (v n) (rest.value v k (n + 1))
  | .group k' inner rest => k.combine (inner.value v k' n) (rest.value v k (n + inner.size))

namespace ConditionSet

def pruned (s : ConditionSet) : ConditionSet := { s with members := s.members.pruned }

def value (v : Nat → Option Bool) (s : ConditionSet) : Option Bool :=
  s.members.value v s.connective 0

end ConditionSet

theorem Members.leaves_pruned (ms : Members) : ms.pruned.leaves = ms.leaves := by
  induction ms with
  | nil => rfl
  | condition c rest ih => simp [pruned, leaves, ih]
  | group k inner rest ihInner ihRest =>
    unfold pruned
    by_cases he : inner.isEmpty = true
    · have hinner : inner.leaves = [] := List.isEmpty_iff.1 he
      simp [he, leaves, hinner, ihRest]
    · simp [he, leaves, ihInner, ihRest]

def Tree.valueAll (v : Nat → Option Bool) (k : Connective) (n : Nat) : List Tree → Option Bool
  | [] => k.unit
  | t :: ts => k.combine (t.value v n) (valueAll v k (n + t.leaves.length) ts)

section

variable (v : Nat → Option Bool)

theorem value_node (k : Connective) (n : Nat) (a b : Tree) :
    (k.node a b).value v n = k.combine (a.value v n) (b.value v (n + a.leaves.length)) := by
  cases k <;> rfl

/-- Joining from the left or from the right makes no difference. -/
theorem value_foldl (k : Connective) (n : Nat) (t : Tree) (ts : List Tree) :
    (ts.foldl k.node t).value v n = Tree.valueAll v k n (t :: ts) := by
  induction ts generalizing t with
  | nil => exact (k.combine_unit _).symm
  | cons u ts ih =>
    rw [List.foldl_cons, ih]
    unfold Tree.valueAll
    rw [value_node, leaves_node, List.length_append, k.combine_assoc, ← Nat.add_assoc]
    rfl

theorem Members.value_trees (ms : Members) (k : Connective) (n : Nat) :
    Tree.valueAll v k n ms.trees = ms.pruned.value v k n := by
  induction ms generalizing k n with
  | nil => rfl
  | condition c rest ih =>
    unfold trees pruned
    unfold Tree.valueAll
    rw [ih]
    rfl
  | group k' inner rest ihInner ihRest =>
    have hempty := inner.trees_eq_nil_iff
    have hleaves := inner.leaves_trees
    unfold trees pruned
    cases htrees : inner.trees with
    | nil =>
      rw [if_pos (hempty.1 htrees)]
      exact ihRest k n
    | cons t ts =>
      rw [if_neg fun he => List.cons_ne_nil t ts (htrees ▸ hempty.2 he)]
      have hinner := ihInner k' n
      rw [htrees, ← value_foldl] at hinner
      have hlength : (ts.foldl k'.node t).leaves.length = inner.pruned.size := by
        unfold size
        rw [leaves_pruned, leaves_foldl, ← List.flatMap_cons, ← htrees, hleaves, List.length_map]
      unfold Tree.valueAll value
      rw [hinner, hlength, ihRest]

end

/-- The members of a set are written, and read as their trees. -/
theorem ConditionSet.fragment_reads {s : ConditionSet}
    (hs : ∀ c ∈ s.leaves, c.Fits ∧ c.IsReadable) :
    (∃ f, s.fragment = .ok f ∧
      f.text.toList = (joinMarked s.connective s.members.marked).map Prod.fst) ∧
    List.Forall₂ Reads s.members.marked s.members.trees := by
  have hconditions (c : Condition) (hc : c ∈ s.leaves) :=
    Condition.reads (hs c hc).1 (hs c hc).2
  obtain ⟨fs, hfs, htexts⟩ := Members.fragments_of_fits fun c hc => (hconditions c hc).1
  refine ⟨⟨Fragment.join s.connective.separator fs, ?_, ?_⟩,
    Members.reads fun c hc => (hconditions c hc).2⟩
  · unfold fragment
    rw [hfs]
    rfl
  · rw [map_joinMarked, ← htexts]
    simp [Fragment.join, String.toList_intercalate, Function.comp_def]

/-- A where clause with a condition is read as the conditions of its set, with the truth value of the
set whatever theirs are; a set without conditions has no where clause. -/
theorem ConditionSet.whereClause_means (s : ConditionSet)
    (hs : ∀ c ∈ s.leaves, c.Fits ∧ c.IsReadable) :
    ∃ f, s.whereClause = .ok f ∧ f.text.toList = s.marked.map Prod.fst ∧
      (s.isEmpty = true → f.text = "") ∧
      (s.isEmpty = false → ∃ t, readClause s.marked = some t ∧
        t.leaves = s.leaves.map Condition.leaf ∧ ∀ v, t.value v 0 = s.pruned.value v) := by
  obtain ⟨⟨f, hf, htext⟩, hreads⟩ := fragment_reads hs
  have hempty : s.members.trees = [] ↔ s.isEmpty = true := s.members.trees_eq_nil_iff
  have hleaves := s.members.leaves_trees
  unfold whereClause marked
  rw [hf]
  cases htrees : s.members.trees with
  | nil =>
    have hnone := hempty.1 htrees
    rw [htrees] at hreads
    cases hmarked : s.members.marked with
    | cons item items =>
      rw [hmarked] at hreads
      cases hreads
    | nil =>
      rw [hmarked] at htext
      have hnothing : f.text = "" := String.toList_eq_nil_iff.1 htext
      refine ⟨f, congrArg Except.ok (if_pos (String.isEmpty_iff.2 hnothing)), ?_,
        fun _ => hnothing, fun he => ?_⟩
      · rw [if_pos hnone, hnothing]
        rfl
      · rw [hnone] at he
        cases he
  | cons t ts =>
    have hsome : ¬ s.isEmpty = true := fun he => List.cons_ne_nil t ts (htrees ▸ hempty.2 he)
    rw [htrees] at hreads hleaves
    obtain ⟨us, hus, htree⟩ := reads_joinMarked s.connective hreads
    have hnot : ¬ f.text.isEmpty = true := by
      intro he
      rw [String.isEmpty_iff.1 he] at htext
      exact ne_nil_of_reads hus htree (List.map_eq_nil_iff.1 htext.symm)
    refine ⟨_, congrArg Except.ok (if_neg hnot), ?_, fun he => absurd he hsome,
      fun _ => ⟨ts.foldl s.connective.node t, ?_, ?_, fun v => ?_⟩⟩
    · rw [if_neg hsome]
      simp [htext, unmarked]
    · rw [if_neg hsome]
      exact readClause_where hus htree
    · rw [leaves_foldl]
      exact hleaves
    · rw [value_foldl, ← htrees]
      exact s.members.value_trees v s.connective 0

def nestedSet : ConditionSet :=
  ((ConditionSet.any.push ⟨"users.age", .between, .sequence [.integer 18, .integer 65]⟩).pushGroup
    (((ConditionSet.all.push ⟨"tag", .eq, .single .null⟩).pushGroup .any).push
      ⟨"name", .like, .single .null⟩)).push
    ⟨"vip = ? or (level > ?)", .raw, .sequence [.integer 1, .integer 2]⟩

theorem ConditionSet.whereClause_means_nested :
    ∃ f t, nestedSet.whereClause = .ok f ∧
      f.text = " where users.age between ? and ? or (tag = ? and name like ?) or (vip = ? or (level > ?))" ∧
      readClause nestedSet.marked = some t ∧
      t.leaves = nestedSet.leaves.map Condition.leaf ∧
      ∀ v, t.value v 0 = nestedSet.pruned.value v := by
  have hreadable : ∀ c ∈ nestedSet.leaves, c.IsReadable := by decide +kernel
  have hfits : ∀ c ∈ nestedSet.leaves, c.Fits := by
    have hleaves : nestedSet.leaves = [_, _, _, _] := rfl
    have hcount : countPlaceholders "vip = ? or (level > ?)" = 2 := by decide +kernel
    rw [hleaves]
    simp only [List.forall_mem_cons]
    exact ⟨⟨_, _, rfl⟩, ⟨_, rfl⟩, ⟨_, rfl⟩, hcount, List.forall_mem_nil _⟩
  have hs := fun c hc => And.intro (hfits c hc) (hreadable c hc)
  obtain ⟨f, hf, htext, -, hread⟩ := whereClause_means nestedSet hs
  obtain ⟨t, ht⟩ := hread (by decide +kernel)
  refine ⟨f, t, hf, String.toList_injective (htext.trans ?_), ht⟩
  decide +kernel

end DataAccess.Sql
