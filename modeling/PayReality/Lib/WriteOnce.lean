import Mathlib.Data.List.Perm.Basic
import Mathlib.Logic.Function.Basic

/-!
# Registers that are written once

A register takes a first value, and later only the same one. What a list of writes comes to does not
depend on its order (`puts_perm`).
-/

namespace WriteOnce

variable {K V : Type} [DecidableEq K]

/-- The register is empty, or has this value. -/
def Takes (m : K → Option V) (e : K × V) : Prop := m e.1 = none ∨ m e.1 = some e.2

/-- What a register takes after a write. -/
theorem takes_update {m : K → Option V} {a b : K × V} :
    Takes (Function.update m a.1 (some a.2)) b ↔ if b.1 = a.1 then a.2 = b.2 else Takes m b := by
  unfold Takes
  by_cases h : b.1 = a.1 <;> simp [h]

variable [DecidableEq V]

instance (m : K → Option V) (e : K × V) : Decidable (Takes m e) := inferInstanceAs (Decidable (_ ∨ _))

/-- A write. -/
def put (m : K → Option V) (e : K × V) : Option (K → Option V) :=
  if Takes m e then some (Function.update m e.1 (some e.2)) else none

/-- Writes, one after the other. -/
def puts (m : K → Option V) (l : List (K × V)) : Option (K → Option V) := l.foldlM put m

variable {m m' : K → Option V} {a b : K × V} {l l' : List (K × V)}

theorem put_eq_some : put m a = some m' ↔ Takes m a ∧ Function.update m a.1 (some a.2) = m' := by
  unfold put
  by_cases h : Takes m a <;> simp [h]

/-- Two writes in either order. -/
theorem put_comm (m : K → Option V) (a b : K × V) :
    ((put m a).bind fun m' => put m' b) = (put m b).bind fun m' => put m' a := by
  ext m'
  simp only [Option.bind_eq_some_iff, put_eq_some, and_assoc, exists_and_left,
    exists_eq_left', takes_update]
  by_cases hk : a.1 = b.1
  · by_cases hv : a.2 = b.2
    · rw [Prod.ext hk hv]
    · simp [hk, hv, Ne.symm hv]
  · simp only [hk, Ne.symm hk, if_false, Function.update_comm hk]
    tauto

theorem puts_cons : puts m (a :: l) = (put m a).bind fun m' => puts m' l := rfl

theorem puts_append : puts m (l ++ l') = (puts m l).bind fun m' => puts m' l' :=
  List.foldlM_append

/-- **The order does not matter.** -/
theorem puts_perm (h : l.Perm l') : puts m l = puts m l' := by
  induction h generalizing m with
  | nil => rfl
  | cons a _ ih => simp only [puts_cons, ih]
  | swap a b l =>
    simp only [puts_cons, ← Option.bind_assoc]
    rw [put_comm]
  | trans _ _ ih ih' => exact ih.trans ih'

end WriteOnce
