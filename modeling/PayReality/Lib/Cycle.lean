import Mathlib.Data.List.Dedup
import Mathlib.Data.Finset.Card
import Mathlib.Logic.Relation

/-!
# Cycles of a finite graph

A depth-first search that follows every edge out of a node until it meets a node of its own path.
The graph is a list of nodes with successors, and the successors of each.

* `cyclesFrom`: the search from one node, with the depth it may still go.
* `cyclesFrom_sound`: where it finds something, the graph has a cycle.
* `acc_of_cyclesFrom`: where it finds nothing, every walk from the node ends.
-/

namespace Cycle

variable {α : Type} [DecidableEq α] (next : α → List α)

/-- The closed paths that the search from `node` meets, as the whole path from the first visit
of the node that closes it. -/
def cyclesFrom : ℕ → α → List α → List α → List (List α)
  | 0, _, _, _ => []
  | n + 1, node, path, visiting =>
    if node ∈ visiting then [path.drop (path.idxOf node)]
    else (next node).flatMap fun m => cyclesFrom n m (path ++ [m]) (node :: visiting)

/-- One step along an edge. -/
def Edge (a b : α) : Prop := b ∈ next a

variable {next}

theorem cyclesFrom_sound {n : ℕ} {node : α} {path visiting : List α}
    (hv : ∀ v ∈ visiting, Relation.TransGen (Edge next) v node)
    (h : cyclesFrom next n node path visiting ≠ []) : ∃ v, Relation.TransGen (Edge next) v v := by
  induction n generalizing node path visiting with
  | zero => exact absurd rfl h
  | succ n ih =>
    rw [cyclesFrom] at h
    by_cases hn : node ∈ visiting
    · exact ⟨node, hv node hn⟩
    · rw [if_neg hn] at h
      have hex : ∃ m ∈ next node, cyclesFrom next n m (path ++ [m]) (node :: visiting) ≠ [] := by
        by_contra hall
        push Not at hall
        exact h (List.flatMap_eq_nil_iff.2 hall)
      obtain ⟨m, hm, hfound⟩ := hex
      refine ih (fun v hvm => ?_) hfound
      rcases List.mem_cons.1 hvm with rfl | hvm
      · exact .single hm
      · exact (hv v hvm).tail hm

/-- Every walk from a node at which the search finds nothing ends, if it may go as deep as there
are nodes with successors that it has not passed. -/
theorem acc_of_cyclesFrom {keys : Finset α} (hkeys : ∀ a, next a ≠ [] → a ∈ keys) {n : ℕ}
    {node : α} {path visiting : List α} (hn : (keys \ visiting.toFinset).card < n)
    (h : cyclesFrom next n node path visiting = []) : Acc (fun a b => Edge next b a) node := by
  induction n generalizing node path visiting with
  | zero => exact absurd hn (Nat.not_lt_zero _)
  | succ n ih =>
    rw [cyclesFrom] at h
    by_cases hv : node ∈ visiting
    · rw [if_pos hv] at h
      cases h
    · rw [if_neg hv, List.flatMap_eq_nil_iff] at h
      refine .intro node fun m hm => ih ?_ (h m hm)
      have hkey : node ∈ keys := hkeys node (List.ne_nil_of_mem hm)
      have hmem : node ∈ keys \ visiting.toFinset := by simp [hkey, hv]
      have hlt : (keys \ (node :: visiting).toFinset).card < (keys \ visiting.toFinset).card := by
        refine Finset.card_lt_card ⟨fun a ha => ?_, fun hsub => ?_⟩
        · simp only [List.toFinset_cons, Finset.mem_sdiff, Finset.mem_insert, not_or] at ha ⊢
          exact ⟨ha.1, ha.2.2⟩
        · have := hsub hmem
          simp at this
      omega

omit [DecidableEq α] in
/-- No walk from an accessible node comes back to it. -/
theorem not_transGen_self {a : α} (h : Acc (fun a b => Edge next b a) a) :
    ¬ Relation.TransGen (Edge next) a a := by
  intro hcycle
  have hback : Relation.TransGen (fun a b => Edge next b a) a a := Relation.transGen_swap.2 hcycle
  have hacc := h.transGen
  clear h hcycle
  induction hacc with
  | intro b _ ih => exact ih b hback hback

end Cycle
