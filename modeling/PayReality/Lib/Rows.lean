import Mathlib.Data.List.Nodup

/-!
# Rows with a key

A table is a list of rows, `get` finds the row with a key, and `update` changes it. Where no two rows
have one key, every row is found under its own.
-/

namespace Rows

variable {α κ : Type} [DecidableEq κ] {key : α → κ}

def get (key : α → κ) (rows : List α) (k : κ) : Option α := rows.find? fun r => key r = k

def update (key : α → κ) (rows : List α) (k : κ) (f : α → α) : List α :=
  rows.map fun r => if key r = k then f r else r

variable {rows rows' : List α} {k j : κ} {r : α} {f : α → α}

theorem mem_of_get (h : get key rows k = some r) : r ∈ rows := List.mem_of_find?_eq_some h

theorem key_of_get (h : get key rows k = some r) : key r = k := by
  have hk := List.find?_some h
  exact of_decide_eq_true hk

theorem get_of_mem (hd : (rows.map key).Nodup) (h : r ∈ rows) : get key rows (key r) = some r := by
  induction rows with
  | nil => cases h
  | cons a rows ih =>
    obtain ⟨ha, hd⟩ := List.nodup_cons.1 hd
    unfold get
    by_cases hk : key a = key r
    · rcases List.mem_cons.1 h with rfl | h
      · exact List.find?_cons_of_pos (decide_eq_true rfl)
      · exact absurd (hk ▸ List.mem_map_of_mem h) ha
    · rw [List.find?_cons_of_neg (by simpa using hk)]
      rcases List.mem_cons.1 h with rfl | h
      · exact absurd rfl hk
      · exact ih hd h

/-- A search by the key and something else finds the row with the key. -/
theorem get_of_find (hd : (rows.map key).Nodup) {p : α → Bool}
    (hp : ∀ r, p r = true → key r = k) (h : rows.find? p = some r) : get key rows k = some r := by
  have hk : key r = k := hp r (List.find?_some h)
  rw [← hk]
  exact get_of_mem hd (List.mem_of_find?_eq_some h)

omit [DecidableEq κ] in
/-- The key of a new last row is no other row's. -/
theorem key_ne_of_nodup_append (hd : ((rows ++ [r]).map key).Nodup) {a : α} (ha : a ∈ rows) :
    key a ≠ key r := by
  rw [List.map_append, List.nodup_append] at hd
  exact hd.2.2 _ (List.mem_map_of_mem ha) _ (List.mem_map_of_mem (List.mem_singleton_self r))

theorem get_of_nodup_append (hd : ((rows ++ [r]).map key).Nodup) : get key rows (key r) = none := by
  cases h : get key rows (key r) with
  | none => rfl
  | some a => exact absurd (key_of_get h) (key_ne_of_nodup_append hd (mem_of_get h))

theorem get_append : get key (rows ++ rows') k = (get key rows k).or (get key rows' k) :=
  List.find?_append

theorem keys_update (hf : ∀ r, key (f r) = key r) :
    (update key rows k f).map key = rows.map key := by
  unfold update
  rw [List.map_map]
  refine List.map_congr_left fun r _ => ?_
  show key (if key r = k then f r else r) = key r
  split
  · exact hf r
  · rfl

theorem get_map (hf : ∀ r, key (f r) = key r) :
    get key (rows.map f) k = (get key rows k).map f := by
  unfold get
  rw [List.find?_map]
  congr 2
  funext r
  show decide (key (f r) = k) = decide (key r = k)
  rw [hf]

theorem get_update (hf : ∀ r, key (f r) = key r) :
    get key (update key rows k f) j =
      (get key rows j).map fun r => if key r = k then f r else r := by
  refine get_map fun r => ?_
  split
  · exact hf r
  · rfl

theorem get_update_self (hf : ∀ r, key (f r) = key r) :
    get key (update key rows k f) k = (get key rows k).map f := by
  rw [get_update hf]
  cases h : get key rows k with
  | none => rfl
  | some r =>
    show some (if key r = k then f r else r) = some (f r)
    rw [if_pos (key_of_get h)]

theorem get_update_of_ne (hf : ∀ r, key (f r) = key r) (hj : j ≠ k) :
    get key (update key rows k f) j = get key rows j := by
  rw [get_update hf]
  cases h : get key rows j with
  | none => rfl
  | some r =>
    show some (if key r = k then f r else r) = some r
    rw [if_neg fun hk => hj ((key_of_get h).symm.trans hk)]

/-- An update leads from each row to one that is related to it, if it does so from the row that it
changes. -/
theorem exists_get_update (hf : ∀ r, key (f r) = key r) {R : α → α → Prop} (hrefl : ∀ r, R r r)
    (h : ∀ r, get key rows k = some r → R r (f r)) (hr : get key rows j = some r) :
    ∃ r', get key (update key rows k f) j = some r' ∧ R r r' := by
  rw [get_update hf, hr]
  refine ⟨_, rfl, ?_⟩
  show R r (if key r = k then f r else r)
  split
  · next hk => exact h r (((key_of_get hr).symm.trans hk) ▸ hr)
  · exact hrefl r

/-- A new row that a filter leaves out. -/
theorem filter_append_of_false {p : α → Bool} (h : p r = false) :
    (rows ++ [r]).filter p = rows.filter p := by
  rw [List.filter_append, List.filter_singleton, h]
  exact List.append_nil _

/-- An update of a row that a filter leaves out. -/
theorem filter_update {p : α → Bool}
    (h : ∀ r ∈ rows, key r = k → p r = false ∧ p (f r) = false) :
    (update key rows k f).filter p = rows.filter p := by
  unfold update
  induction rows with
  | nil => rfl
  | cons r rows ih =>
    rw [List.map_cons, List.filter_cons, List.filter_cons,
      ih fun r hr => h r (List.mem_cons_of_mem _ hr)]
    by_cases hk : key r = k
    · obtain ⟨hr, hf⟩ := h r List.mem_cons_self hk
      rw [if_pos hk, hr, hf]
      rfl
    · rw [if_neg hk]

end Rows
