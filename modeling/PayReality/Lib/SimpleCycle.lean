import Mathlib.Data.List.Chain
import PayReality.Lib.Cycle

/-!
# The simple cycles of a finite graph

What the depth-first search of `Lib.Cycle` finds, and how deep it goes.

* `mem_cyclesFrom`: each closed path that it finds is a simple cycle.
* `walk_mem_cyclesFrom`: it finds every simple cycle that passes its first node.
* `search_eq`: it returns, whatever the graph.
-/

namespace Cycle

variable {α : Type} [DecidableEq α]

/-- A walk from a node back to it that passes no node twice. -/
structure SimpleCycle (r : α → α → Prop) (start : α) (rest : List α) : Prop where
  nodup : (start :: rest).Nodup
  walk : (start :: rest ++ [start]).IsChain r

omit [DecidableEq α] in
theorem SimpleCycle.imp {r s : α → α → Prop} (h : ∀ a b, r a b → s a b) {start : α}
    {rest : List α} (hc : SimpleCycle r start rest) : SimpleCycle s start rest :=
  ⟨hc.nodup, hc.walk.imp h⟩

variable (next : α → List α)

/-- The search, which is `none` where it would go deeper than it may. -/
def search : ℕ → α → List α → List α → Option (List (List α))
  | 0, _, _, _ => none
  | n + 1, node, path, visiting =>
    if node ∈ visiting then some [path.drop (path.idxOf node)]
    else ((next node).mapM fun m => search n m (path ++ [m]) (node :: visiting)).map List.flatten

variable {next}

theorem card_lt_of_key {keys : Finset α} {node : α} {visiting : List α} (hkey : node ∈ keys)
    (hv : node ∉ visiting) :
    (keys \ (node :: visiting).toFinset).card < (keys \ visiting.toFinset).card := by
  refine Finset.card_lt_card ⟨?_, ?_⟩
  · intro a ha
    simp only [List.toFinset_cons, Finset.mem_sdiff, Finset.mem_insert, not_or] at ha ⊢
    exact ⟨ha.1, ha.2.2⟩
  · intro hsub
    have hmem : node ∈ keys \ visiting.toFinset := by simp [hkey, hv]
    have := hsub hmem
    simp at this

theorem mapM_some {β γ : Type} {f : β → Option γ} {g : β → γ} {xs : List β}
    (h : ∀ x ∈ xs, f x = some (g x)) : xs.mapM f = some (xs.map g) := by
  induction xs with
  | nil => rfl
  | cons x xs ih =>
    have hx := h x (by simp)
    have hxs := ih fun y hy => h y (by simp [hy])
    simp [List.mapM_cons, hx, hxs]

section Depth

variable {keys : Finset α} (hkeys : ∀ a, next a ≠ [] → a ∈ keys)

include hkeys

/-- **The search returns**: no path is longer than there are nodes with successors. -/
theorem search_eq {n : ℕ} {node : α} {path visiting : List α}
    (hn : (keys \ visiting.toFinset).card < n) :
    search next n node path visiting = some (cyclesFrom next n node path visiting) := by
  induction n generalizing node path visiting with
  | zero => omega
  | succ n ih =>
    rw [search, cyclesFrom]
    by_cases hv : node ∈ visiting
    · simp [hv]
    · have hnext : ∀ m ∈ next node, search next n m (path ++ [m]) (node :: visiting) =
          some (cyclesFrom next n m (path ++ [m]) (node :: visiting)) := by
        intro m hm
        have := card_lt_of_key (hkeys node (List.ne_nil_of_mem hm)) hv
        exact ih (by omega)
      rw [if_neg hv, if_neg hv, mapM_some hnext]
      simp [List.flatMap]

/-- A deeper search finds the same. -/
theorem cyclesFrom_deeper {n k : ℕ} {node : α} {path visiting : List α}
    (hn : (keys \ visiting.toFinset).card < n) (hk : (keys \ visiting.toFinset).card < k) :
    cyclesFrom next n node path visiting = cyclesFrom next k node path visiting := by
  induction n generalizing k node path visiting with
  | zero => omega
  | succ n ih =>
    obtain ⟨k, rfl⟩ : ∃ l, k = l + 1 := ⟨k - 1, by omega⟩
    rw [cyclesFrom, cyclesFrom]
    by_cases hv : node ∈ visiting
    · simp [hv]
    · rw [if_neg hv, if_neg hv]
      refine List.flatMap_congr fun m hm => ?_
      have := card_lt_of_key (hkeys node (List.ne_nil_of_mem hm)) hv
      exact ih (by omega) (by omega)

/-- **Every simple cycle through its first node is found.** The walk so far is `pre`, and `rest` leads
from the node back to `target`, which is on it. -/
theorem walk_mem_cyclesFrom (pre rest : List α) {n : ℕ} {node target : α}
    (hn : (keys \ pre.reverse.toFinset).card < n) (hnodup : (pre ++ node :: rest).Nodup)
    (hwalk : (node :: rest ++ [target]).IsChain (Edge next)) (htarget : target ∈ pre ++ [node]) :
    ((pre ++ [node]) ++ rest ++ [target]).drop
        (((pre ++ [node]) ++ rest ++ [target]).idxOf target) ∈
      cyclesFrom next n node (pre ++ [node]) pre.reverse := by
  induction n generalizing node pre rest with
  | zero => omega
  | succ n ih =>
    have hfresh : node ∉ pre.reverse := by
      have := (List.nodup_append.1 hnodup).2.2
      intro hmem
      exact this node (by simpa using hmem) node (by simp) rfl
    have hkey : ∀ m, Edge next node m → node ∈ keys := fun m hm =>
      hkeys node (List.ne_nil_of_mem hm)
    have hvisiting : node :: pre.reverse = (pre ++ [node]).reverse := by simp
    rw [cyclesFrom, if_neg hfresh, List.mem_flatMap, hvisiting]
    cases rest with
    | nil =>
      have hedge : Edge next node target := by simpa using hwalk
      have hless := card_lt_of_key (hkey _ hedge) hfresh
      refine ⟨target, hedge, ?_⟩
      obtain ⟨n, rfl⟩ : ∃ l, n = l + 1 := ⟨n - 1, by omega⟩
      rw [cyclesFrom, if_pos (by simpa [or_comm] using htarget)]
      simp
    | cons m rest =>
      rw [List.cons_append, List.cons_append, List.isChain_cons_cons] at hwalk
      have hless := card_lt_of_key (hkey _ hwalk.1) hfresh
      refine ⟨m, hwalk.1, ?_⟩
      have hrest := ih (pre ++ [node]) rest
        (by rw [← hvisiting]; omega) (by simpa using hnodup) hwalk.2
        (List.mem_append_left [m] htarget)
      simpa using hrest

theorem simpleCycle_mem_cyclesFrom {n : ℕ} {start : α} {rest : List α} (hn : keys.card < n)
    (hc : SimpleCycle (Edge next) start rest) :
    start :: rest ++ [start] ∈ cyclesFrom next n start [start] [] := by
  have := walk_mem_cyclesFrom hkeys [] rest (n := n)
    (by simpa using hn) (by simpa using hc.nodup) hc.walk (by simp)
  simpa using this

end Depth

/-- **Each closed path that is found is a simple cycle.** The walk to the node is `pre`. -/
theorem mem_cyclesFrom (pre : List α) {n : ℕ} {node : α} {found : List α} (hnodup : pre.Nodup)
    (hwalk : (pre ++ [node]).IsChain (Edge next))
    (h : found ∈ cyclesFrom next n node (pre ++ [node]) pre.reverse) :
    ∃ start rest, SimpleCycle (Edge next) start rest ∧ found = start :: rest ++ [start] := by
  induction n generalizing node pre with
  | zero => simp [cyclesFrom] at h
  | succ n ih =>
    rw [cyclesFrom] at h
    by_cases hv : node ∈ pre.reverse
    · have hmem : node ∈ pre := by simpa using hv
      obtain ⟨before, rest, hsplit, hbefore⟩ := List.eq_append_cons_of_mem hmem
      subst hsplit
      have hfound : found = node :: rest ++ [node] := by
        simpa [hv, List.idxOf_append_of_notMem hbefore] using h
      have hclosed : before ++ (node :: rest ++ [node]) = before ++ node :: rest ++ [node] := by simp
      refine ⟨node, rest, ⟨(List.nodup_append.1 hnodup).2.1, ?_⟩, hfound⟩
      rw [← hclosed] at hwalk
      exact hwalk.right_of_append
    · rw [if_neg hv, List.mem_flatMap] at h
      obtain ⟨m, hm, hfound⟩ := h
      have hfresh : node ∉ pre := by simpa using hv
      refine ih (pre ++ [node]) ?_ ?_ (by simpa using hfound)
      · rw [List.nodup_append]
        refine ⟨hnodup, by simp, ?_⟩
        intro a ha b hb hab
        have : b = node := by simpa using hb
        exact hfresh (this ▸ hab ▸ ha)
      · refine hwalk.append (by simp) ?_
        simpa [Edge] using hm

end Cycle
