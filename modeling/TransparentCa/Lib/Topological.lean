import Mathlib

/- Graphs as lists of nodes with their predecessors, as `graphlib` takes them. A sorter
   gives some order in which every node stands behind its predecessors, or nothing when
   there is none; which one is its own business. `reach` is the search with a list of nodes
   still to visit: it ends in the nodes that can be reached and no others. -/
namespace Topological

variable {ν : Type} [DecidableEq ν]

/-- Every node with its predecessors. -/
abbrev Graph (ν : Type) := List (ν × List ν)

namespace Graph

variable (g : Graph ν)

/-- The nodes, those that only occur as predecessors too. -/
def nodes : List ν := (g.flatMap (fun entry => entry.1 :: entry.2)).dedup

def preds (n : ν) : List ν := (g.lookup n).getD []

/-- A node stands behind its predecessors. -/
def Before (order : List ν) : Prop :=
  ∀ entry ∈ g, ∀ p ∈ entry.2, order.idxOf p < order.idxOf entry.1

instance (order : List ν) : Decidable (g.Before order) :=
  inferInstanceAs (Decidable (∀ entry ∈ g, ∀ p ∈ entry.2, order.idxOf p < order.idxOf entry.1))

/-- A topological order. -/
structure IsOrder (order : List ν) : Prop where
  perm : order.Perm g.nodes
  before : g.Before order

end Graph

/-- `TopologicalSorter(graph).static_order()`, `none` for `CycleError`. -/
structure Sorter (ν : Type) [DecidableEq ν] where
  staticOrder : Graph ν → Option (List ν)
  isOrder : ∀ {g : Graph ν} {order : List ν}, staticOrder g = some order → g.IsOrder order
  isSome : ∀ {g : Graph ν} {order : List ν}, g.IsOrder order → (staticOrder g).isSome

/-- The sorter that tries every order. -/
def Sorter.search : Sorter ν where
  staticOrder g := g.nodes.permutations'.find? (fun order => g.Before order)
  isOrder h := ⟨List.mem_permutations'.mp (List.mem_of_find?_eq_some h),
    of_decide_eq_true (p := Graph.Before _ _) (List.find?_some h :)⟩
  isSome h := List.find?_isSome.mpr ⟨_, List.mem_permutations'.mpr h.perm, decide_eq_true h.before⟩

theorem Graph.IsOrder.mem_iff {g : Graph ν} {order : List ν} (h : g.IsOrder order) {n : ν} :
    n ∈ order ↔ ∃ entry ∈ g, n = entry.1 ∨ n ∈ entry.2 := by
  rw [h.perm.mem_iff, Graph.nodes, List.mem_dedup, List.mem_flatMap]
  simp only [List.mem_cons]

/-! ## Reachable nodes -/

section
variable (g : Graph ν)

/-- The search: `fuel` steps, the nodes to visit, the nodes visited. -/
def visit : Nat → List ν → List ν → List ν
  | 0, _, visited => visited
  | _ + 1, [], visited => visited
  | fuel + 1, n :: pending, visited =>
    if n ∈ visited then visit fuel pending visited
    else visit fuel (pending ++ g.preds n) (n :: visited)

/-- The predecessors of the nodes not visited yet. -/
def unvisited (visited : List ν) : Nat :=
  ((g.filter (fun entry => entry.1 ∉ visited)).map (fun entry => entry.2.length)).sum

/-- The nodes reached from these. -/
def reach (targets : List ν) : List ν := visit g (targets.length + unvisited g []) targets []

/-- `p` can be reached from `n`. -/
def Reaches : ν → ν → Prop := Relation.ReflTransGen (fun n p => p ∈ g.preds n)

variable {g}

/-- A visit takes the predecessors of its node off what is left. -/
theorem unvisited_cons {n : ν} {visited : List ν} (h : n ∉ visited) :
    (g.preds n).length + unvisited g (n :: visited) ≤ unvisited g visited := by
  unfold unvisited Graph.preds
  induction g with
  | nil => exact le_refl 0
  | cons entry g ih =>
    obtain ⟨m, ps⟩ := entry
    by_cases hm : m = n
    · subst hm
      have hrest : ((g.filter (fun entry => entry.1 ∉ m :: visited)).map
          (fun entry => entry.2.length)).sum ≤
          ((g.filter (fun entry => entry.1 ∉ visited)).map (fun entry => entry.2.length)).sum := by
        refine ((List.monotone_filter_right g ?_).map _).sum_le_sum (fun _ _ => Nat.zero_le _)
        intro entry hentry
        simp only [List.mem_cons, decide_eq_true_eq, not_or] at hentry ⊢
        exact hentry.2
      rw [List.lookup_cons, beq_self_eq_true, List.filter_cons_of_neg (by simp),
        List.filter_cons_of_pos (by simpa using h), List.map_cons, List.sum_cons]
      simp only [Option.getD_some]
      omega
    · have hlookup : List.lookup n ((m, ps) :: g) = g.lookup n := by
        rw [List.lookup_cons, beq_false_of_ne (Ne.symm hm)]
      rw [hlookup]
      by_cases hvisited : m ∈ visited
      · rw [List.filter_cons_of_neg (by simp [hvisited]), List.filter_cons_of_neg (by simp [hvisited])]
        exact ih
      · rw [List.filter_cons_of_pos (by simp [hvisited, hm]),
          List.filter_cons_of_pos (by simp [hvisited]), List.map_cons, List.sum_cons, List.map_cons,
          List.sum_cons]
        omega

/-- With steps enough, the search ends closed under predecessors. -/
theorem visit_closed {fuel : Nat} {pending visited : List ν}
    (hfuel : pending.length + unvisited g visited ≤ fuel)
    (hclosed : ∀ n ∈ visited, ∀ p ∈ g.preds n, p ∈ visited ∨ p ∈ pending) :
    (∀ n ∈ pending, n ∈ visit g fuel pending visited) ∧
      (∀ n ∈ visited, n ∈ visit g fuel pending visited) ∧
      ∀ n ∈ visit g fuel pending visited, ∀ p ∈ g.preds n, p ∈ visit g fuel pending visited := by
  induction fuel generalizing pending visited with
  | zero =>
    obtain rfl : pending = [] := List.eq_nil_of_length_eq_zero (by omega)
    exact ⟨fun n hn => absurd hn List.not_mem_nil, fun n hn => hn,
      fun n hn p hp => (hclosed n hn p hp).resolve_right List.not_mem_nil⟩
  | succ fuel ih =>
    cases pending with
    | nil =>
      exact ⟨fun n hn => absurd hn List.not_mem_nil, fun n hn => hn,
        fun n hn p hp => (hclosed n hn p hp).resolve_right List.not_mem_nil⟩
    | cons m pending =>
      rw [List.length_cons] at hfuel
      unfold visit
      split_ifs with hm
      · have hpending : ∀ n ∈ visited, ∀ p ∈ g.preds n, p ∈ visited ∨ p ∈ pending := by
          intro n hn p hp
          rcases hclosed n hn p hp with h | h
          · exact .inl h
          · rcases List.mem_cons.mp h with rfl | h
            · exact .inl hm
            · exact .inr h
        obtain ⟨h₁, h₂, h₃⟩ := ih (by omega) hpending
        refine ⟨fun n hn => ?_, h₂, h₃⟩
        rcases List.mem_cons.mp hn with rfl | hn
        · exact h₂ n hm
        · exact h₁ n hn
      · have hleft := unvisited_cons (g := g) hm
        have hpending : ∀ n ∈ m :: visited, ∀ p ∈ g.preds n,
            p ∈ m :: visited ∨ p ∈ pending ++ g.preds m := by
          intro n hn p hp
          rcases List.mem_cons.mp hn with rfl | hn
          · exact .inr (List.mem_append_right _ hp)
          · rcases hclosed n hn p hp with h | h
            · exact .inl (List.mem_cons_of_mem _ h)
            · rcases List.mem_cons.mp h with rfl | h
              · exact .inl List.mem_cons_self
              · exact .inr (List.mem_append_left _ h)
        obtain ⟨h₁, h₂, h₃⟩ := ih (by rw [List.length_append]; omega) hpending
        refine ⟨fun n hn => ?_, fun n hn => h₂ n (List.mem_cons_of_mem _ hn), h₃⟩
        rcases List.mem_cons.mp hn with rfl | hn
        · exact h₂ n List.mem_cons_self
        · exact h₁ n (List.mem_append_left _ hn)

/-- The search only goes along edges. -/
theorem visit_subset {fuel : Nat} {pending visited : List ν} {R : ν → Prop}
    (hedge : ∀ n p, R n → p ∈ g.preds n → R p) (hpending : ∀ n ∈ pending, R n)
    (hvisited : ∀ n ∈ visited, R n) : ∀ n ∈ visit g fuel pending visited, R n := by
  induction fuel generalizing pending visited with
  | zero => exact hvisited
  | succ fuel ih =>
    cases pending with
    | nil => exact hvisited
    | cons m pending =>
      obtain ⟨hm, hpending⟩ := List.forall_mem_cons.mp hpending
      unfold visit
      split_ifs with hin
      · exact ih hpending hvisited
      · refine ih (fun n hn => ?_) (List.forall_mem_cons.mpr ⟨hm, hvisited⟩)
        rcases List.mem_append.mp hn with hn | hn
        · exact hpending n hn
        · exact hedge m n hm hn

theorem mem_reach_iff {targets : List ν} {n : ν} :
    n ∈ reach g targets ↔ ∃ target ∈ targets, Reaches g target n := by
  constructor
  · refine visit_subset (R := fun n => ∃ target ∈ targets, Reaches g target n) ?_ ?_ ?_ n
    · rintro m p ⟨target, htarget, hreaches⟩ hp
      exact ⟨target, htarget, hreaches.tail hp⟩
    · exact fun m hm => ⟨m, hm, .refl⟩
    · exact fun m hm => absurd hm List.not_mem_nil
  · rintro ⟨target, htarget, hreaches⟩
    obtain ⟨hmem, -, hclosed⟩ := visit_closed (g := g) (le_refl (targets.length + unvisited g []))
      (fun m hm => absurd hm List.not_mem_nil)
    induction hreaches with
    | refl => exact hmem target htarget
    | tail _ hp ih => exact hclosed _ ih _ hp

end
end Topological
