import Mathlib.Data.List.Basic
import Mathlib.Data.Nat.Find
import Mathlib.Data.String.Basic
import Mathlib.Order.Basic
import Mathlib.Tactic.Linarith

/-!
# Dates and their texts

The proleptic Gregorian calendar as days counted from year 1, and decimal numbers of a fixed width.

* `year_spec`, `month_spec`: the year and the month that a day is in.
* `digits_lt`: numbers of one width are ordered as their texts.
* `append_lt`, `InStep.append`: texts that begin with parts of one length.
-/

namespace Calendar

/-! ## Texts of one length -/

theorem append_lt {a b s t : List Char} (hlen : a.length = b.length) :
    a ++ s < b ++ t ↔ a < b ∨ a = b ∧ s < t := by
  induction a generalizing b with
  | nil =>
    cases b with
    | nil => simp
    | cons y b => simp at hlen
  | cons x a ih =>
    cases b with
    | nil => simp at hlen
    | cons y b =>
      have hlen' : a.length = b.length := by simpa using hlen
      simp only [List.cons_append, List.cons_lt_cons_iff, ih hlen', List.cons.injEq]
      by_cases hxy : x = y
      · simp [hxy]
      · simp [hxy]

/-! ## Numbers of a fixed width -/

def digit (d : ℕ) : Char := Char.ofNat (48 + d)

/-- The last `width` decimal digits of a number. -/
def digits : ℕ → ℕ → List Char
  | 0, _ => []
  | width + 1, n => digits width (n / 10) ++ [digit (n % 10)]

@[simp] theorem length_digits (width n : ℕ) : (digits width n).length = width := by
  induction width generalizing n with
  | zero => rfl
  | succ width ih => simp [digits, ih]

theorem digit_lt {d e : ℕ} (hd : d < 10) (he : e < 10) : digit d < digit e ↔ d < e := by
  have h : ∀ d < 10, ∀ e < 10, (digit d < digit e ↔ d < e) := by decide
  exact h d hd e he

theorem digit_inj {d e : ℕ} (hd : d < 10) (he : e < 10) (heq : digit d = digit e) : d = e := by
  have h : ∀ d < 10, ∀ e < 10, digit d = digit e → d = e := by decide
  exact h d hd e he heq

theorem digits_inj {width m n : ℕ} (hm : m < 10 ^ width) (hn : n < 10 ^ width)
    (h : digits width m = digits width n) : m = n := by
  induction width generalizing m n with
  | zero => omega
  | succ width ih =>
    rw [pow_succ] at hm hn
    obtain ⟨hrest, hlast⟩ := List.append_inj h (by simp)
    have hlast := digit_inj (Nat.mod_lt m (by omega)) (Nat.mod_lt n (by omega)) (by simpa using hlast)
    have hrest := ih (Nat.div_lt_of_lt_mul (by omega)) (Nat.div_lt_of_lt_mul (by omega)) hrest
    omega

/-- **Numbers of one width are ordered as their texts.** -/
theorem digits_lt {width m n : ℕ} (hm : m < 10 ^ width) (hn : n < 10 ^ width) :
    digits width m < digits width n ↔ m < n := by
  induction width generalizing m n with
  | zero => simp [digits]; omega
  | succ width ih =>
    rw [pow_succ] at hm hn
    have hm' : m / 10 < 10 ^ width := Nat.div_lt_of_lt_mul (by omega)
    have hn' : n / 10 < 10 ^ width := Nat.div_lt_of_lt_mul (by omega)
    have hsame : digits width (m / 10) = digits width (n / 10) ↔ m / 10 = n / 10 :=
      ⟨digits_inj hm' hn', fun h => by rw [h]⟩
    have hlast : [digit (m % 10)] < [digit (n % 10)] ↔ m % 10 < n % 10 := by
      rw [← digit_lt (Nat.mod_lt m (by omega)) (Nat.mod_lt n (by omega))]
      simp [List.cons_lt_cons_iff]
    rw [digits, digits, append_lt (by simp), ih hm' hn', hsame, hlast]
    omega

/-! ## Texts in the order of numbers -/

/-- Texts of one length that compare as two numbers do. -/
structure InStep (a b : List Char) (x y : ℕ) : Prop where
  length : a.length = b.length
  lt : a < b ↔ x < y
  eq : a = b ↔ x = y

namespace InStep

variable {a b s t : List Char} {x y u v k : ℕ}

theorem digits (width : ℕ) {m n : ℕ} (hm : m < 10 ^ width) (hn : n < 10 ^ width) :
    InStep (digits width m) (digits width n) m n where
  length := by simp
  lt := digits_lt hm hn
  eq := ⟨digits_inj hm hn, fun h => by rw [h]⟩

/-- The rest decides where the first parts are the same. -/
theorem append_lt (h : InStep a b x y) (hrest : s < t ↔ u < v) (hu : u < k) (hv : v < k) :
    a ++ s < b ++ t ↔ x * k + u < y * k + v := by
  rw [Calendar.append_lt h.length, h.lt, h.eq, hrest]
  constructor
  · intro hor
    obtain hlt | ⟨heq, hlt⟩ := hor
    · have : (x + 1) * k ≤ y * k := Nat.mul_le_mul_right k hlt
      rw [Nat.succ_mul] at this
      omega
    · rw [heq]
      omega
  · intro hlt
    by_cases hxy : x = y
    · subst hxy
      exact .inr ⟨rfl, by omega⟩
    · refine .inl (lt_of_le_of_ne ?_ hxy)
      by_contra hyx
      have : (y + 1) * k ≤ x * k := Nat.mul_le_mul_right k (by omega)
      rw [Nat.succ_mul] at this
      omega

theorem append (h : InStep a b x y) (hrest : InStep s t u v) (hu : u < k) (hv : v < k) :
    InStep (a ++ s) (b ++ t) (x * k + u) (y * k + v) where
  length := by simp [h.length, hrest.length]
  lt := h.append_lt hrest.lt hu hv
  eq := by
    have hboth : a ++ s = b ++ t ↔ a = b ∧ s = t :=
      ⟨fun heq => List.append_inj heq h.length, fun heq => by rw [heq.1, heq.2]⟩
    rw [hboth, h.eq, hrest.eq]
    constructor
    · intro heq
      rw [heq.1, heq.2]
    · intro heq
      have hk : 0 < k := by omega
      have hx : (x * k + u) / k = x := by
        rw [Nat.add_comm, Nat.add_mul_div_right _ _ hk, Nat.div_eq_of_lt hu, Nat.zero_add]
      have hy : (y * k + v) / k = y := by
        rw [Nat.add_comm, Nat.add_mul_div_right _ _ hk, Nat.div_eq_of_lt hv, Nat.zero_add]
      have hxy : x = y := by rw [← hx, heq, hy]
      subst hxy
      exact ⟨rfl, by omega⟩

/-- The same separator after both. -/
theorem separator (h : InStep a b x y) (c : Char) : InStep (a ++ [c]) (b ++ [c]) x y := by
  have hsame : InStep [c] [c] 0 0 := ⟨rfl, by simp, by simp⟩
  simpa using h.append hsame Nat.zero_lt_one Nat.zero_lt_one

end InStep

/-! ## Years and months -/

def isLeap (y : ℕ) : Bool := y % 4 = 0 && (y % 100 ≠ 0 || y % 400 = 0)

/-- The days before the first of January of a year. -/
def daysBeforeYear (y : ℕ) : ℕ := (y - 1) * 365 + (y - 1) / 4 - (y - 1) / 100 + (y - 1) / 400

def daysInMonth (y m : ℕ) : ℕ :=
  if m = 2 then if isLeap y then 29 else 28
  else if m = 4 ∨ m = 6 ∨ m = 9 ∨ m = 11 then 30
  else 31

/-- The days of a year before the first of a month. -/
def daysBeforeMonth (y : ℕ) : ℕ → ℕ
  | 0 => 0
  | 1 => 0
  | m + 2 => daysBeforeMonth y (m + 1) + daysInMonth y (m + 1)

/-- `date.toordinal`: the first of January of year 1 is day 1. -/
def toOrdinal (y m d : ℕ) : ℕ := daysBeforeYear y + daysBeforeMonth y m + d

/-- The year that a day is in. -/
def yearOf (n : ℕ) : ℕ := Nat.findGreatest (fun y => daysBeforeYear y < n) (n / 365 + 1)

/-- The month that the `n`th day of a year is in. -/
def monthOf (y n : ℕ) : ℕ := Nat.findGreatest (fun m => daysBeforeMonth y m < n) 12

theorem daysBeforeYear_succ (y : ℕ) (hy : 1 ≤ y) :
    daysBeforeYear (y + 1) = daysBeforeYear y + if isLeap y then 366 else 365 := by
  obtain ⟨z, rfl⟩ : ∃ z, y = z + 1 := ⟨y - 1, by omega⟩
  have hleap : isLeap (z + 1) = true ↔ 4 ∣ z + 1 ∧ (¬ 100 ∣ z + 1 ∨ 400 ∣ z + 1) := by
    simp [isLeap, Nat.dvd_iff_mod_eq_zero]
  have hle : z / 100 ≤ z := Nat.div_le_self z 100
  simp only [daysBeforeYear, Nat.add_sub_cancel, Nat.succ_div, hleap]
  by_cases h400 : 400 ∣ z + 1
  · have h100 : 100 ∣ z + 1 := (by decide : 100 ∣ 400).trans h400
    have h4 : 4 ∣ z + 1 := (by decide : 4 ∣ 100).trans h100
    simp only [h400, h100, h4, if_true, true_and, or_true]
    generalize z / 4 = a at *
    generalize z / 100 = b at *
    omega
  · by_cases h100 : 100 ∣ z + 1
    · have h4 : 4 ∣ z + 1 := (by decide : 4 ∣ 100).trans h100
      simp only [h400, h100, h4, if_true, if_false, not_true, or_self, and_false]
      generalize z / 4 = a at *
      generalize z / 100 = b at *
      omega
    · by_cases h4 : 4 ∣ z + 1
      · simp only [h400, h100, h4, if_true, if_false, not_false_eq_true, or_false, and_self]
        generalize z / 4 = a at *
        generalize z / 100 = b at *
        omega
      · simp only [h400, h100, h4, if_false, false_and]
        generalize z / 4 = a at *
        generalize z / 100 = b at *
        omega

theorem daysBeforeYear_mono : Monotone daysBeforeYear := by
  refine monotone_nat_of_le_succ fun y => ?_
  by_cases hy : 1 ≤ y
  · rw [daysBeforeYear_succ y hy]
    omega
  · have : y = 0 := by omega
    subst this
    decide

theorem daysBeforeMonth_succ (y : ℕ) {m : ℕ} (hm : 1 ≤ m) :
    daysBeforeMonth y (m + 1) = daysBeforeMonth y m + daysInMonth y m := by
  obtain ⟨l, rfl⟩ : ∃ l, m = l + 1 := ⟨m - 1, by omega⟩
  rfl

theorem daysBeforeMonth_end (y : ℕ) : daysBeforeMonth y 13 = if isLeap y then 366 else 365 := by
  simp only [daysBeforeMonth, daysInMonth]
  by_cases h : isLeap y = true <;> simp [h]

theorem daysBeforeMonth_mono (y : ℕ) : Monotone (daysBeforeMonth y) := by
  refine monotone_nat_of_le_succ fun m => ?_
  cases m with
  | zero => exact le_refl 0
  | succ m =>
    rw [daysBeforeMonth]
    omega

theorem year_spec {n : ℕ} (hn : 1 ≤ n) :
    1 ≤ yearOf n ∧ daysBeforeYear (yearOf n) < n ∧ n ≤ daysBeforeYear (yearOf n + 1) := by
  have hone : (fun y => daysBeforeYear y < n) 1 := by
    show daysBeforeYear 1 < n
    rw [show daysBeforeYear 1 = 0 by decide]
    omega
  have hle : 1 ≤ n / 365 + 1 := by omega
  refine ⟨Nat.le_findGreatest hle hone, Nat.findGreatest_spec (P := fun y => daysBeforeYear y < n) hle hone, ?_⟩
  by_cases hbound : yearOf n + 1 ≤ n / 365 + 1
  · exact not_lt.1 (Nat.findGreatest_is_greatest (P := fun y => daysBeforeYear y < n)
      (Nat.lt_succ_self _) hbound)
  · have hlarge : n ≤ daysBeforeYear (n / 365 + 2) := by
      simp only [daysBeforeYear]
      omega
    exact hlarge.trans (daysBeforeYear_mono (by omega))

theorem month_spec {y n : ℕ} (hn : 1 ≤ n) (hyear : n ≤ daysBeforeMonth y 13) :
    1 ≤ monthOf y n ∧ monthOf y n ≤ 12 ∧ daysBeforeMonth y (monthOf y n) < n ∧
      n ≤ daysBeforeMonth y (monthOf y n + 1) := by
  have hone : (fun m => daysBeforeMonth y m < n) 1 := by
    show 0 < n
    omega
  refine ⟨Nat.le_findGreatest (by omega) hone, Nat.findGreatest_le 12,
    Nat.findGreatest_spec (P := fun m => daysBeforeMonth y m < n) (by omega) hone, ?_⟩
  by_cases hbound : monthOf y n + 1 ≤ 12
  · exact not_lt.1 (Nat.findGreatest_is_greatest (P := fun m => daysBeforeMonth y m < n)
      (Nat.lt_succ_self _) hbound)
  · have : monthOf y n = 12 := le_antisymm (Nat.findGreatest_le 12) (by omega)
    rw [this]
    exact hyear

theorem dayOfYear_spec {n : ℕ} (hn : 1 ≤ n) :
    let day := n - daysBeforeYear (yearOf n)
    1 ≤ monthOf (yearOf n) day ∧ monthOf (yearOf n) day ≤ 12 ∧
      daysBeforeMonth (yearOf n) (monthOf (yearOf n) day) < day ∧
      day ≤ daysBeforeMonth (yearOf n) (monthOf (yearOf n) day + 1) := by
  obtain ⟨hpos, hafter, hbefore⟩ := year_spec hn
  rw [daysBeforeYear_succ _ hpos, ← daysBeforeMonth_end] at hbefore
  exact month_spec (by omega) (by omega)

theorem daysInMonth_le (y m : ℕ) : daysInMonth y m ≤ 31 := by
  simp only [daysInMonth]
  split_ifs <;> omega

/-! ## Dates -/

/-- A date of the calendar, from the first of January of year 1. -/
@[ext]
structure Date where
  year : ℕ
  month : ℕ
  day : ℕ
  year_pos : 1 ≤ year
  month_pos : 1 ≤ month
  month_le : month ≤ 12
  day_pos : 1 ≤ day
  day_le : day ≤ daysInMonth year month

namespace Date

def ordinal (d : Date) : ℕ := toOrdinal d.year d.month d.day

theorem ordinal_le_month (d : Date) :
    d.ordinal ≤ daysBeforeYear d.year + daysBeforeMonth d.year (d.month + 1) := by
  have := d.day_le
  simp only [ordinal, toOrdinal, daysBeforeMonth_succ d.year d.month_pos]
  omega

theorem ordinal_le_year (d : Date) : d.ordinal ≤ daysBeforeYear (d.year + 1) := by
  have hmonths : daysBeforeMonth d.year (d.month + 1) ≤ daysBeforeMonth d.year 13 :=
    daysBeforeMonth_mono d.year (by have := d.month_le; omega)
  have := d.ordinal_le_month
  rw [daysBeforeYear_succ d.year d.year_pos, ← daysBeforeMonth_end]
  omega

theorem lt_ordinal_month (d : Date) :
    daysBeforeYear d.year + daysBeforeMonth d.year d.month < d.ordinal := by
  have := d.day_pos
  simp only [ordinal, toOrdinal]
  omega

/-- **Dates are ordered by year, month and day.** -/
theorem ordinal_lt_of_lex {d e : Date}
    (h : d.year < e.year ∨ d.year = e.year ∧
      (d.month < e.month ∨ d.month = e.month ∧ d.day < e.day)) : d.ordinal < e.ordinal := by
  have hafter := e.lt_ordinal_month
  obtain hyear | ⟨hyear, hmonth | ⟨hmonth, hday⟩⟩ := h
  · have hmono : daysBeforeYear (d.year + 1) ≤ daysBeforeYear e.year := daysBeforeYear_mono hyear
    have := d.ordinal_le_year
    omega
  · have hmono : daysBeforeMonth d.year (d.month + 1) ≤ daysBeforeMonth d.year e.month :=
      daysBeforeMonth_mono d.year hmonth
    have := d.ordinal_le_month
    rw [← hyear] at hafter
    omega
  · simp only [ordinal, toOrdinal, hyear, hmonth]
    omega

/-- The date as one number, in mixed radix. -/
def code (d : Date) : ℕ := (d.year * 13 + d.month) * 32 + d.day

theorem day_lt (d : Date) : d.day < 32 := by
  have := d.day_le
  have := daysInMonth_le d.year d.month
  omega

theorem ordinal_lt {d e : Date} (h : d.code < e.code) : d.ordinal < e.ordinal := by
  have := d.day_lt
  have := e.day_lt
  have := d.month_le
  have := e.month_le
  simp only [code] at h
  exact ordinal_lt_of_lex (by omega)

theorem code_inj {d e : Date} (h : d.code = e.code) : d = e := by
  have := d.day_lt
  have := e.day_lt
  have := d.month_le
  have := e.month_le
  simp only [code] at h
  exact Date.ext (by omega) (by omega) (by omega)

theorem ordinal_lt_iff (d e : Date) : d.code < e.code ↔ d.ordinal < e.ordinal := by
  refine ⟨ordinal_lt, fun h => ?_⟩
  by_contra hle
  by_cases heq : d.code = e.code
  · rw [code_inj heq] at h
    exact lt_irrefl _ h
  · have : e.ordinal < d.ordinal := ordinal_lt (by omega)
    omega

theorem ordinal_eq_iff (d e : Date) : d.code = e.code ↔ d.ordinal = e.ordinal := by
  have hlt := ordinal_lt_iff d e
  have hgt := ordinal_lt_iff e d
  omega

/-- The date of a day, and the way back. -/
def ofOrdinal (n : ℕ) (hn : 1 ≤ n) : Date where
  year := yearOf n
  month := monthOf (yearOf n) (n - daysBeforeYear (yearOf n))
  day := n - daysBeforeYear (yearOf n) -
    daysBeforeMonth (yearOf n) (monthOf (yearOf n) (n - daysBeforeYear (yearOf n)))
  year_pos := (year_spec hn).1
  month_pos := (dayOfYear_spec hn).1
  month_le := (dayOfYear_spec hn).2.1
  day_pos := Nat.sub_pos_of_lt (dayOfYear_spec hn).2.2.1
  day_le := by
    obtain ⟨hpos, -, hafter, hbefore⟩ := dayOfYear_spec hn
    rw [daysBeforeMonth_succ _ hpos] at hbefore
    omega

theorem ordinal_ofOrdinal {n : ℕ} (hn : 1 ≤ n) : (ofOrdinal n hn).ordinal = n := by
  obtain ⟨-, hyear, -⟩ := year_spec hn
  obtain ⟨-, -, hmonth, -⟩ := dayOfYear_spec hn
  simp only [ordinal, toOrdinal, ofOrdinal]
  omega

end Date

end Calendar
