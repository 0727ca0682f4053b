import PayReality.Encoding
import PayReality.Lib.FallibleSort

/-!
# `sorted`

Python's `<` between values that `json.loads` returns: a preorder between values that it compares
(`pyLt_lawful`), so `sorted` returns exactly if it could compare any two of the elements.
-/

namespace PayReality

namespace Json

/-- `sorted(xs)`. -/
def sorted (xs : List Json) : Except PyError (List Json) := FallibleSort.sort pyLt xs

/-! ## Equality -/

theorem pyEq_iff_key {x y : Json} : x.pyEq y = true ↔ x.key true = y.key true := by
  simp [pyEq]

theorem pyEq_comm (x y : Json) : x.pyEq y = y.pyEq x := by
  unfold pyEq
  rw [decide_eq_decide]
  exact eq_comm

/-- What a value is as a number is in its tokens. -/
theorem number?_iff {x : Json} {p : ℚ} : x.number? = some p ↔ x.key true = [Token.mk 3 p ""] := by
  cases x <;> simp [number?, key, token_mk_inj]

theorem number?_congr {x y : Json} (h : x.pyEq y = true) : x.number? = y.number? := by
  have hkey := pyEq_iff_key.1 h
  cases hx : x.number? with
  | some p =>
    symm
    rwa [number?_iff, ← hkey, ← number?_iff]
  | none =>
    cases hy : y.number? with
    | none => rfl
    | some q =>
      rw [number?_iff, ← hkey, ← number?_iff, hx] at hy
      cases hy

theorem pyEq_arr_nil_cons (y : Json) (ys : List Json) : (arr []).pyEq (arr (y :: ys)) = false := by
  have hstop : y.key true ++ ((ys.map (key true)).flatten ++ [Token.stop]) ≠ [Token.stop] :=
    (term_key true y).ne_stop
  simp only [pyEq, key_arr, decide_eq_false_iff_not]
  intro h
  simp only [List.map_nil, List.flatten_nil, List.nil_append, List.map_cons, List.flatten_cons,
    List.append_assoc, List.cons.injEq, true_and] at h
  exact hstop h.symm

theorem pyEq_arr_cons (x y : Json) (xs ys : List Json) :
    (arr (x :: xs)).pyEq (arr (y :: ys)) = (x.pyEq y && (arr xs).pyEq (arr ys)) := by
  have hiff : (arr (x :: xs)).key true = (arr (y :: ys)).key true ↔
      x.key true = y.key true ∧ (arr xs).key true = (arr ys).key true := by
    simp only [key_arr, List.map_cons, List.flatten_cons, List.append_assoc, List.cons.injEq,
      true_and]
    constructor
    · intro h
      exact (term_key true x).prefixFree (term_key true y) h
    · intro h
      rw [h.1, h.2]
  simp only [pyEq, hiff, Bool.decide_and]

/-! ## Order -/

theorem pyLt_str (s t : String) : pyLt (.str s) (.str t) = .ok (decide (s < t)) := by
  rw [pyLt]

theorem pyLt_arr (xs ys : List Json) : pyLt (.arr xs) (.arr ys) = pyLtList xs ys := by
  rw [pyLt]

theorem decide_lt_swap {α : Type} [LinearOrder α] (a b : α) [Decidable (a < b)] [Decidable (b < a)]
    [Decidable (a = b)] : decide (b < a) = (!decide (a < b) && !decide (a = b)) := by
  rcases lt_trichotomy a b with hlt | heq | hgt
  · simp [hlt, hlt.asymm]
  · simp [heq]
  · simp [hgt, hgt.asymm, hgt.ne']

/-- The comparison the other way round. -/
theorem pyLt_swap (x y : Json) : ∀ b, pyLt x y = .ok b → pyLt y x = .ok (!b && !x.pyEq y) := by
  refine pyLt.induct (fun x y => ∀ b, pyLt x y = .ok b → pyLt y x = .ok (!b && !x.pyEq y))
    (fun xs ys => ∀ b, pyLtList xs ys = .ok b →
      pyLtList ys xs = .ok (!b && !(arr xs).pyEq (arr ys))) ?_ ?_ ?_ ?_ ?_ ?_ ?_ ?_ ?_ x y
  · intro s t b h
    rw [pyLt_str, Except.ok.injEq] at h
    have heq : (Json.str s).pyEq (.str t) = decide (s = t) := by
      simp [pyEq, key, token_mk_inj]
    rw [pyLt_str, ← h, heq, decide_lt_swap]
  · intro xs ys h b hb
    rw [pyLt_arr] at hb ⊢
    exact h b hb
  · intro x y hstr harr p q hq hp b h
    rw [pyLt.eq_3 x y hstr harr, hp, hq, Except.ok.injEq] at h
    have heq : x.pyEq y = decide (p = q) := by
      simp [pyEq, number?_iff.1 hp, number?_iff.1 hq, token_mk_inj]
    rw [pyLt.eq_3 y x (fun s t hy hx => hstr t s hx hy) fun xs ys hy hx => harr ys xs hx hy, hp, hq,
      ← h, heq]
    exact congrArg Except.ok (decide_lt_swap p q)
  · intro x y hstr harr hnone b h
    rw [pyLt.eq_3 x y hstr harr] at h
    cases hx : x.number? with
    | none => simp [hx] at h
    | some p =>
      cases hy : y.number? with
      | none => simp [hx, hy] at h
      | some q => exact absurd hy (hnone p q hx)
  · intro b h
    rw [pyLtList, Except.ok.injEq] at h
    rw [pyLtList, ← h]
    simp [pyEq]
  · intro y ys b h
    rw [pyLtList, Except.ok.injEq] at h
    rw [pyLtList, ← h]
    simp
  · intro x xs b h
    rw [pyLtList, Except.ok.injEq] at h
    have hne : (arr (x :: xs)).pyEq (arr []) = false := by
      rw [pyEq_comm, pyEq_arr_nil_cons]
    rw [pyLtList, ← h, hne]
    rfl
  · intro x xs y ys heq ih b h
    rw [pyLtList, if_pos heq] at h
    have hcomm : y.pyEq x = true := pyEq_comm x y ▸ heq
    rw [pyLtList, if_pos hcomm, pyEq_arr_cons, heq, Bool.true_and]
    exact ih b h
  · intro x xs y ys hne ih b h
    rw [pyLtList, if_neg hne] at h
    have hcomm : ¬ y.pyEq x = true := pyEq_comm x y ▸ hne
    rw [Bool.not_eq_true] at hne
    rw [pyLtList, if_neg hcomm, pyEq_arr_cons, hne, Bool.false_and, ih b h, hne]

/-- `<` does not tell apart what `==` does not; lists first. -/
theorem pyLtList_congr {xs : List Json}
    (hxs : ∀ x ∈ xs, ∀ x', x.pyEq x' = true → ∀ y, pyLt x y = pyLt x' y) {xs' : List Json}
    (h : (arr xs).pyEq (arr xs') = true) (ys : List Json) : pyLtList xs ys = pyLtList xs' ys := by
  induction xs generalizing xs' ys with
  | nil =>
    cases xs' with
    | nil => rfl
    | cons x' xs' => simp [pyEq_arr_nil_cons] at h
  | cons x xs ih =>
    cases xs' with
    | nil =>
      rw [pyEq_comm, pyEq_arr_nil_cons] at h
      cases h
    | cons x' xs' =>
      rw [pyEq_arr_cons, Bool.and_eq_true] at h
      cases ys with
      | nil => rw [pyLtList, pyLtList]
      | cons y ys =>
        have hlt := hxs x List.mem_cons_self x' h.1 y
        have heq : x.pyEq y = x'.pyEq y := by
          simp only [pyEq, pyEq_iff_key.1 h.1]
        rw [pyLtList, pyLtList, heq, hlt, ih (fun z hz => hxs z (List.mem_cons_of_mem _ hz)) h.2 ys]

theorem pyLt_of_ne {x y : Json} (hstr : ∀ s, x ≠ .str s) (harr : ∀ xs, x ≠ .arr xs) : pyLt x y =
    match x.number?, y.number? with
    | some p, some q => .ok (decide (p < q))
    | _, _ => .error .typeError :=
  pyLt.eq_3 x y (fun s _ hx _ => hstr s hx) fun xs _ hx _ => harr xs hx

theorem pyLt_congr : (x x' : Json) → x.pyEq x' = true → ∀ y, pyLt x y = pyLt x' y
  | str s, x', h, y => by
    cases x' <;> simp [pyEq, key, token_mk_inj] at h
    rw [h]
  | arr xs, x', h, y => by
    cases x' with
    | arr xs' =>
      cases y with
      | arr ys =>
        rw [pyLt_arr, pyLt_arr]
        exact pyLtList_congr (fun x _ x' hx y => pyLt_congr x x' hx y) h ys
      | _ => simp [pyLt, number?]
    | _ => simp [pyEq, key, token_mk_inj] at h
  | null, x', h, y | bool _, x', h, y | int _, x', h, y | float _, x', h, y | obj _, x', h, y => by
    have hstr : ∀ s, x' ≠ str s := by
      intro s hs
      rw [hs] at h
      simp [pyEq, key, token_mk_inj] at h
    have harr : ∀ xs, x' ≠ arr xs := by
      intro xs hxs
      rw [hxs] at h
      simp [pyEq, key, token_mk_inj] at h
    rw [pyLt_of_ne (by simp) (by simp), pyLt_of_ne hstr harr, number?_congr h]
termination_by x => sizeOf x
decreasing_by
  simp_wf
  have := List.sizeOf_lt_of_mem ‹_ ∈ xs›
  omega

theorem pyEq_of_not_lt {x y : Json} (h : pyLt x y = .ok false) (h' : pyLt y x = .ok false) :
    x.pyEq y = true := by
  have := pyLt_swap x y false h
  simpa [h'] using this

theorem pyLtList_trans {xs : List Json}
    (hxs : ∀ x ∈ xs, ∀ y z, pyLt y x = .ok false → pyLt z y = .ok false → pyLt z x = .ok false)
    {ys zs : List Json} (hyx : pyLtList ys xs = .ok false) (hzy : pyLtList zs ys = .ok false) :
    pyLtList zs xs = .ok false := by
  induction xs generalizing ys zs with
  | nil => cases zs <;> rw [pyLtList]
  | cons x xs ih =>
    cases ys with
    | nil =>
      rw [pyLtList] at hyx
      cases hyx
    | cons y ys =>
      cases zs with
      | nil =>
        rw [pyLtList] at hzy
        cases hzy
      | cons z zs =>
        rw [pyLtList] at hyx hzy ⊢
        by_cases hz : z.pyEq y = true
        · have hzx : z.pyEq x = y.pyEq x := by
            simp only [pyEq, pyEq_iff_key.1 hz]
          rw [if_pos hz] at hzy
          rw [hzx, pyLt_congr z y hz x]
          by_cases hy : y.pyEq x = true
          · rw [if_pos hy] at hyx ⊢
            exact ih (fun w hw => hxs w (List.mem_cons_of_mem _ hw)) hyx hzy
          · rw [if_neg hy] at hyx ⊢
            exact hyx
        · rw [if_neg hz] at hzy
          by_cases hy : y.pyEq x = true
          · have hzx : pyLt z x = .ok false := by
              have hswap := pyLt_swap z y false hzy
              rw [Bool.not_eq_true] at hz
              rw [pyLt_congr y x hy z, hz] at hswap
              exact pyLt_swap x z true hswap
            have hne : ¬ z.pyEq x = true := by
              intro h
              rw [pyEq_iff_key] at hz h hy
              exact hz (h.trans hy.symm)
            rw [if_neg hne]
            exact hzx
          · rw [if_neg hy] at hyx
            have hne : ¬ z.pyEq x = true := by
              intro h
              -- `x` and `y` would be below neither of each other.
              rw [pyLt_congr z x h y] at hzy
              exact hy (pyEq_of_not_lt hyx hzy)
            rw [if_neg hne]
            exact hxs x List.mem_cons_self y z hyx hzy

theorem pyLt_numbers {x y : Json} (hstr : ∀ s, x ≠ str s) (harr : ∀ xs, x ≠ arr xs)
    (h : pyLt y x = .ok false) :
    ∃ q p, y.number? = some q ∧ x.number? = some p ∧ ¬ q < p := by
  rw [pyLt.eq_3 y x (fun _ s _ hx => hstr s hx) fun _ xs _ hx => harr xs hx] at h
  cases hq : y.number? with
  | none => simp [hq] at h
  | some q =>
    cases hp : x.number? with
    | none => simp [hq, hp] at h
    | some p => exact ⟨q, p, rfl, rfl, by simpa [hq, hp] using h⟩

theorem pyLt_trans : (x y z : Json) → pyLt y x = .ok false → pyLt z y = .ok false →
    pyLt z x = .ok false
  | str r, y, z, hyx, hzy => by
    cases y with
    | str s =>
      cases z with
      | str t =>
        simp only [pyLt_str, Except.ok.injEq, decide_eq_false_iff_not, not_lt] at hyx hzy ⊢
        exact hyx.trans hzy
      | _ => simp [pyLt, number?] at hzy
    | _ => simp [pyLt, number?] at hyx
  | arr xs, y, z, hyx, hzy => by
    cases y with
    | arr ys =>
      cases z with
      | arr zs =>
        rw [pyLt_arr] at hyx hzy ⊢
        exact pyLtList_trans (fun x _ y z => pyLt_trans x y z) hyx hzy
      | _ => simp [pyLt, number?] at hzy
    | _ => simp [pyLt, number?] at hyx
  | null, y, z, hyx, hzy | bool _, y, z, hyx, hzy | int _, y, z, hyx, hzy
  | float _, y, z, hyx, hzy | obj _, y, z, hyx, hzy => by
    obtain ⟨q, p, hq, hp, hqp⟩ := pyLt_numbers (by simp) (by simp) hyx
    have hystr : ∀ s, y ≠ str s := by
      intro s hs
      rw [hs] at hq
      cases hq
    have hyarr : ∀ xs, y ≠ arr xs := by
      intro xs hxs
      rw [hxs] at hq
      cases hq
    obtain ⟨r, q', hr, hq', hrq⟩ := pyLt_numbers hystr hyarr hzy
    obtain rfl : q = q' := Option.some.inj (hq.symm.trans hq')
    have hrp : ¬ r < p := not_lt.2 ((not_lt.1 hqp).trans (not_lt.1 hrq))
    rw [pyLt.eq_3 z _ (by simp) (by simp), hr, hp]
    simp [hrp]
termination_by x => sizeOf x
decreasing_by
  simp_wf
  have := List.sizeOf_lt_of_mem ‹_ ∈ xs›
  omega

/-- **Python's `<` is a preorder on what it compares.** -/
theorem pyLt_lawful : FallibleSort.Lawful pyLt where
  symm x y h := by
    obtain ⟨b, hb⟩ := h
    exact ⟨_, pyLt_swap x y b hb⟩
  asymm x y h := by
    have := pyLt_swap x y true h
    simpa using this
  trans := pyLt_trans

/-- What Python does not compare is a `TypeError`. -/
theorem pyLt_error (x y : Json) : ∀ e, pyLt x y = .error e → e = .typeError := by
  refine pyLt.induct (fun x y => ∀ e, pyLt x y = .error e → e = .typeError)
    (fun xs ys => ∀ e, pyLtList xs ys = .error e → e = .typeError) ?_ ?_ ?_ ?_ ?_ ?_ ?_ ?_ ?_ x y
  · intro s t e h
    rw [pyLt_str] at h
    cases h
  · intro xs ys h e he
    rw [pyLt_arr] at he
    exact h e he
  · intro x y hstr harr p q hq hp e h
    rw [pyLt.eq_3 x y hstr harr, hp, hq] at h
    cases h
  · intro x y hstr harr hnone e h
    rw [pyLt.eq_3 x y hstr harr] at h
    split at h
    · next p q hp hq => exact absurd hq (hnone p q hp)
    · cases h
      rfl
  · intro e h
    rw [pyLtList] at h
    cases h
  · intro y ys e h
    rw [pyLtList] at h
    cases h
  · intro x xs e h
    rw [pyLtList] at h
    cases h
  · intro x xs y ys heq ih e h
    rw [pyLtList, if_pos heq] at h
    exact ih e h
  · intro x xs y ys hne ih e h
    rw [pyLtList, if_neg hne] at h
    exact ih e h

theorem sorted_error {xs : List Json} {e : PyError} (h : sorted xs = .error e) : e = .typeError := by
  obtain ⟨x, y, hlt⟩ := FallibleSort.sort_error h
  exact pyLt_error x y e hlt

/-- `sorted` returns exactly if Python can compare any two of the elements. -/
theorem sorted_returns {xs : List Json} :
    (∃ ys, sorted xs = .ok ys) ↔ xs.Pairwise (FallibleSort.Comparable pyLt) :=
  FallibleSort.sort_returns pyLt_lawful

theorem sorted_texts (ss : List String) :
    sorted (ss.map .str) = .ok ((ss.insertionSort (· ≤ ·)).map .str) :=
  FallibleSort.sort_map pyLt_str ss

end Json

end PayReality
