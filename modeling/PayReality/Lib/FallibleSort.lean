import Mathlib.Data.List.Sort

/-!
# Sorting with comparisons that can fail

A stable sort that asks `<` alone, and fails where a comparison fails.

* `sort_returns`: it returns exactly if every two elements can be compared, whichever of them it
  compares.
* `sort_map`: where every comparison answers, it is the sort of the library.
-/

namespace FallibleSort

variable {α ε : Type} (lt : α → α → Except ε Bool)

/-- `x`, in front of the elements that are not below it. -/
def insert (x : α) : List α → Except ε (List α)
  | [] => .ok [x]
  | y :: ys => do
    if ← lt y x then return y :: (← insert x ys)
    return x :: y :: ys

def sort : List α → Except ε (List α)
  | [] => .ok []
  | x :: xs => do insert lt x (← sort xs)

/-- The comparison of two elements answers. -/
def Comparable (x y : α) : Prop := ∃ b, lt x y = .ok b

/-- A comparison that is a preorder on what can be compared. That nothing of `x ≤ y ≤ z` fails is
said of neighbours only; that `x` and `z` can be compared follows. -/
structure Lawful : Prop where
  symm : ∀ x y, Comparable lt x y → Comparable lt y x
  asymm : ∀ x y, lt x y = .ok true → lt y x = .ok false
  trans : ∀ x y z, lt y x = .ok false → lt z y = .ok false → lt z x = .ok false

/-- Nothing is below what stands in front of it. -/
abbrev Ordered (xs : List α) : Prop := xs.Pairwise fun x y => lt y x = .ok false

variable {lt} {x y : α} {xs ys zs : List α}

theorem insert_cons_true (h : lt y x = .ok true) :
    insert lt x (y :: ys) = (insert lt x ys).map (y :: ·) := by
  simp only [insert, h]
  cases insert lt x ys <;> rfl

theorem insert_cons_false (h : lt y x = .ok false) :
    insert lt x (y :: ys) = .ok (x :: y :: ys) := by
  simp only [insert, h]
  rfl

theorem insert_cons_error {e : ε} (h : lt y x = .error e) :
    insert lt x (y :: ys) = .error e := by
  simp only [insert, h]
  rfl

theorem insert_perm (h : insert lt x ys = .ok zs) : zs.Perm (x :: ys) := by
  induction ys generalizing zs with
  | nil =>
    cases h
    exact .refl _
  | cons y ys ih =>
    cases hlt : lt y x with
    | error e =>
      rw [insert_cons_error hlt] at h
      cases h
    | ok b =>
      cases b with
      | false =>
        rw [insert_cons_false hlt] at h
        cases h
        exact .refl _
      | true =>
        rw [insert_cons_true hlt] at h
        cases hins : insert lt x ys with
        | error e =>
          rw [hins] at h
          cases h
        | ok ws =>
          rw [hins] at h
          cases h
          exact ((ih hins).cons y).trans (.swap x y ys)

theorem insert_ordered (hlt : Lawful lt) (hys : Ordered lt ys) (h : insert lt x ys = .ok zs) :
    Ordered lt zs := by
  induction ys generalizing zs with
  | nil =>
    cases h
    simp [Ordered]
  | cons y ys ih =>
    have hcons := List.pairwise_cons.1 hys
    cases hyx : lt y x with
    | error e =>
      rw [insert_cons_error hyx] at h
      cases h
    | ok b =>
      cases b with
      | false =>
        rw [insert_cons_false hyx] at h
        cases h
        refine List.pairwise_cons.2 ⟨?_, hys⟩
        intro w hw
        by_cases hwy : w = y
        · rw [hwy]
          exact hyx
        · have hmem : w ∈ ys := by simpa [hwy] using hw
          exact hlt.trans x y w hyx (hcons.1 w hmem)
      | true =>
        rw [insert_cons_true hyx] at h
        cases hins : insert lt x ys with
        | error e =>
          rw [hins] at h
          cases h
        | ok ws =>
          rw [hins] at h
          cases h
          refine List.pairwise_cons.2 ⟨?_, ih hcons.2 hins⟩
          intro w hw
          have hmem := (insert_perm hins).mem_iff.1 hw
          by_cases hwx : w = x
          · rw [hwx]
            exact hlt.asymm y x hyx
          · have hmem : w ∈ ys := by simpa [hwx] using hmem
            exact hcons.1 w hmem

theorem insert_returns (h : ∀ y ∈ ys, Comparable lt y x) : ∃ zs, insert lt x ys = .ok zs := by
  induction ys with
  | nil => exact ⟨[x], rfl⟩
  | cons y ys ih =>
    obtain ⟨zs, hzs⟩ := ih fun w hw => h w (List.mem_cons_of_mem _ hw)
    obtain ⟨b, hb⟩ := h y List.mem_cons_self
    cases b with
    | false => exact ⟨x :: y :: ys, insert_cons_false hb⟩
    | true =>
      refine ⟨y :: zs, ?_⟩
      rw [insert_cons_true hb, hzs]
      rfl

theorem insert_error {e : ε} (h : insert lt x ys = .error e) : ∃ y ∈ ys, lt y x = .error e := by
  induction ys with
  | nil => cases h
  | cons y ys ih =>
    cases hyx : lt y x with
    | error e' =>
      rw [insert_cons_error hyx] at h
      cases h
      exact ⟨y, List.mem_cons_self, hyx⟩
    | ok b =>
      cases b with
      | false =>
        rw [insert_cons_false hyx] at h
        cases h
      | true =>
        rw [insert_cons_true hyx] at h
        cases hins : insert lt x ys with
        | ok ws =>
          rw [hins] at h
          cases h
        | error e' =>
          rw [hins] at h
          cases h
          obtain ⟨w, hw, hlt⟩ := ih hins
          exact ⟨w, List.mem_cons_of_mem _ hw, hlt⟩

/-- A sort fails as a comparison fails. -/
theorem sort_error {e : ε} (h : sort lt xs = .error e) : ∃ x y, lt x y = .error e := by
  induction xs with
  | nil => cases h
  | cons x xs ih =>
    simp only [sort] at h
    cases hsort : sort lt xs with
    | error e' =>
      rw [hsort] at h
      cases h
      exact ih hsort
    | ok ys =>
      rw [hsort] at h
      obtain ⟨y, -, hlt⟩ := insert_error h
      exact ⟨y, x, hlt⟩

theorem sort_cons_ok (h : sort lt (x :: xs) = .ok zs) :
    ∃ ys, sort lt xs = .ok ys ∧ insert lt x ys = .ok zs := by
  simp only [sort] at h
  cases hsort : sort lt xs with
  | error e =>
    rw [hsort] at h
    cases h
  | ok ys =>
    rw [hsort] at h
    exact ⟨ys, rfl, h⟩

theorem sort_perm (h : sort lt xs = .ok ys) : ys.Perm xs := by
  induction xs generalizing ys with
  | nil =>
    cases h
    exact .refl _
  | cons x xs ih =>
    obtain ⟨ws, hws, hins⟩ := sort_cons_ok h
    exact (insert_perm hins).trans ((ih hws).cons x)

theorem sort_ordered (hlt : Lawful lt) (h : sort lt xs = .ok ys) : Ordered lt ys := by
  induction xs generalizing ys with
  | nil =>
    cases h
    exact .nil
  | cons x xs ih =>
    obtain ⟨ws, hws, hins⟩ := sort_cons_ok h
    exact insert_ordered hlt (ih hws) hins

/-- **A sort returns exactly if every two elements can be compared.** What it returns is ordered, so
the comparisons that it has not made answer too. -/
theorem sort_returns (hlt : Lawful lt) :
    (∃ ys, sort lt xs = .ok ys) ↔ xs.Pairwise (Comparable lt) := by
  constructor
  · intro h
    obtain ⟨ys, hys⟩ := h
    have hcomparable : ys.Pairwise (Comparable lt) :=
      (sort_ordered hlt hys).imp fun h => hlt.symm _ _ ⟨false, h⟩
    exact (sort_perm hys).pairwise hcomparable fun h => hlt.symm _ _ h
  · intro h
    induction xs with
    | nil => exact ⟨[], rfl⟩
    | cons x xs ih =>
      have hcons := List.pairwise_cons.1 h
      obtain ⟨ws, hws⟩ := ih hcons.2
      obtain ⟨zs, hzs⟩ : ∃ zs, insert lt x ws = .ok zs := insert_returns fun y hy =>
        hlt.symm _ _ (hcons.1 y ((sort_perm hws).mem_iff.1 hy))
      refine ⟨zs, ?_⟩
      simp only [sort, hws]
      exact hzs

/-! ## Comparisons that answer -/

section Total

variable {β : Type} [LinearOrder β] {f : β → α}

theorem insert_map (hf : ∀ a b, lt (f a) (f b) = .ok (decide (a < b))) (a : β) (bs : List β) :
    insert lt (f a) (bs.map f) = .ok ((bs.orderedInsert (· ≤ ·) a).map f) := by
  induction bs with
  | nil => rfl
  | cons b bs ih =>
    rw [List.map_cons]
    by_cases hle : a ≤ b
    · have hlt : lt (f b) (f a) = .ok false := by simp [hf, hle]
      rw [insert_cons_false hlt]
      simp [hle]
    · have hlt : lt (f b) (f a) = .ok true := by simp [hf, not_le.1 hle]
      rw [insert_cons_true hlt, ih]
      simp [hle, Except.map]

theorem sort_map (hf : ∀ a b, lt (f a) (f b) = .ok (decide (a < b))) (bs : List β) :
    sort lt (bs.map f) = .ok ((bs.insertionSort (· ≤ ·)).map f) := by
  induction bs with
  | nil => rfl
  | cons b bs ih =>
    simp only [List.map_cons, sort, ih, List.insertionSort_cons]
    exact insert_map hf b _

end Total

end FallibleSort
