import PayReality.Evidence.Payload

/-!
# Dicts

A dict is the list of its members, with each key once. Two dicts with the same lookups have the same
members, and the text of a dict with sorted keys does not depend on their order.
-/

namespace PayReality

namespace Json

variable {kvs kvs' : List (String × Json)} {k : String} {v : Json}

theorem get?_eq_none : (obj kvs).get? k = none ↔ k ∉ kvs.map Prod.fst := by
  simp only [get?, Option.map_eq_none_iff, List.find?_eq_none, List.mem_map, decide_eq_true_eq]
  constructor
  · rintro h ⟨e, he, hk⟩
    exact h e he hk
  · intro h e he hk
    exact h ⟨e, he, hk⟩

theorem get?_isSome : ((obj kvs).get? k).isSome = true ↔ k ∈ kvs.map Prod.fst := by
  rw [Option.isSome_iff_ne_none, Ne, get?_eq_none, not_not]

theorem mem_of_get? (h : (obj kvs).get? k = some v) : (k, v) ∈ kvs := by
  obtain ⟨e, he, rfl⟩ := Option.map_eq_some_iff.1 h
  have hk : e.1 = k := by simpa using List.find?_some he
  rw [← hk]
  exact List.mem_of_find?_eq_some he

theorem get?_of_mem (hd : (kvs.map Prod.fst).Nodup) (h : (k, v) ∈ kvs) :
    (obj kvs).get? k = some v := by
  induction kvs with
  | nil => cases h
  | cons e kvs ih =>
    rw [List.map_cons, List.nodup_cons] at hd
    rcases List.mem_cons.1 h with rfl | h
    · simp [get?]
    · have hne : e.1 ≠ k := fun hk => hd.1 (hk ▸ List.mem_map_of_mem h)
      have := ih hd.2 h
      simpa [get?, hne] using this

/-- Two dicts with the same lookups have the same members. -/
theorem perm_of_get? (hd : (kvs.map Prod.fst).Nodup) (hd' : (kvs'.map Prod.fst).Nodup)
    (h : ∀ k, (obj kvs).get? k = (obj kvs').get? k) : kvs.Perm kvs' := by
  refine (List.perm_ext_iff_of_nodup (.of_map _ hd) (.of_map _ hd')).2 fun e => ?_
  constructor
  · intro he
    exact mem_of_get? ((h e.1).symm.trans (get?_of_mem hd he))
  · intro he
    exact mem_of_get? ((h e.1).trans (get?_of_mem hd' he))

theorem stableEntries_eq (kvs : List (String × Json)) :
    stableEntries kvs = kvs.map fun e => (e.1, e.2.stableRepr) := by
  induction kvs with
  | nil => rfl
  | cons e kvs ih => simp [stableEntries, ih]

/-- The text with sorted keys does not depend on the order of the members. -/
theorem stableRepr_perm (hd : (kvs.map Prod.fst).Nodup) (hp : kvs.Perm kvs') :
    (obj kvs).stableRepr = (obj kvs').stableRepr := by
  have hsorted : (stableEntries kvs).insertionSort (fun a b => a.1 ≤ b.1) =
      (stableEntries kvs').insertionSort fun a b => a.1 ≤ b.1 := by
    have hentries : (stableEntries kvs).Perm (stableEntries kvs') := by
      rw [stableEntries_eq, stableEntries_eq]
      exact hp.map _
    have hkeys : ((stableEntries kvs).map Prod.fst).Nodup := by
      rw [stableEntries_eq, List.map_map]
      exact hd
    have : Std.Total fun a b : String × List Token => a.1 ≤ b.1 := ⟨fun a b => le_total _ _⟩
    have : IsTrans (String × List Token) fun a b => a.1 ≤ b.1 := ⟨fun _ _ _ => le_trans⟩
    refine List.Perm.eq_of_pairwise (fun a b ha hb hab hba => ?_) (List.pairwise_insertionSort _ _)
      (List.pairwise_insertionSort _ _) (((List.perm_insertionSort _ _).trans hentries).trans
        (List.perm_insertionSort _ _).symm)
    rw [List.mem_insertionSort] at ha hb
    exact List.inj_on_of_nodup_map hkeys ha (hentries.mem_iff.2 hb) (le_antisymm hab hba)
  simp only [stableRepr, hsorted]

end Json

namespace IntentService

variable {d : List (String × Json)} {k : String} {v : Json}

theorem keys_withMember : (withMember d k v).map Prod.fst =
    if k ∈ d.map Prod.fst then d.map Prod.fst else d.map Prod.fst ++ [k] := by
  have hany : (d.any fun e => e.1 = k) = true ↔ k ∈ d.map Prod.fst := by simp
  unfold withMember
  by_cases hk : k ∈ d.map Prod.fst
  · rw [if_pos (hany.2 hk), if_pos hk, List.map_map]
    refine List.map_congr_left fun e _ => ?_
    by_cases he : e.1 = k <;> simp [he]
  · rw [if_neg (mt hany.1 hk), if_neg hk]
    simp

theorem nodup_withMember (hd : (d.map Prod.fst).Nodup) : ((withMember d k v).map Prod.fst).Nodup := by
  rw [keys_withMember]
  split
  · exact hd
  · next hk => exact hd.append (by simp) (by simpa using hk)

end IntentService

end PayReality
