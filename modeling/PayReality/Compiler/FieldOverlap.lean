import Mathlib.Algebra.Order.Field.Basic
import Mathlib.Order.Interval.Set.Infinite
import PayReality.Compiler.Disjoint
import PayReality.Compiler.Totality
import PayReality.Simulation.Explainer
import PayReality.Sorting

/-!
# What the overlap check knows of a field

The check collects the bounds, the exclusions and the first equality of each policy on a field
(`kept`), and asks for one value that meets them; of `in` lists it only asks whether those of the
one policy and those of the other share a value (`shares`). An equality with `null`, a second
equality, and an `in` list beside anything else decide nothing; a list with an element that cannot be
hashed decides the field. It compares as Python does, to which `true` is the number `1`.

**Main result** `fieldsCanOverlap_iff`: where the comparisons can be made, the check of a field is exact
for that.
-/

namespace PayReality

open Rego ScopeOverlap Explainer

/-! ## Comparisons -/

/-- Python orders these values, as the encoding does. -/
def InOrder (S : Json → Prop) : Prop :=
  ∀ u v, S u → S v → comparable u v = true ∧ below u v = decide (u.key true < v.key true)

theorem inOrder_of_pyLt {S : Json → Prop}
    (h : ∀ u v, S u → S v → u.pyLt v = .ok (decide (u.key true < v.key true))) : InOrder S := by
  intro u v hu hv
  simp [comparable, below, h u v hu hv]

/-- What Python takes for a number. -/
def PyNumber (v : Json) : Prop := v.number?.isSome = true

theorem PyNumber.key {v : Json} (h : PyNumber v) :
    ∃ n, v.number? = some n ∧ v.key true = [Json.Token.mk 3 n ""] := by
  obtain ⟨n, hn⟩ := Option.isSome_iff_exists.1 h
  exact ⟨n, hn, Json.number?_iff.1 hn⟩

theorem pyNumber_of_isNumeric {v : Json} (h : v.isNumeric = true) : PyNumber v := by
  obtain ⟨n, hn, -⟩ := key_number h
  exact Option.isSome_iff_exists.2 ⟨n, hn⟩

theorem PyNumber.pyLt_eq {u : Json} (h : PyNumber u) (v : Json) : u.pyLt v =
    match u.number?, v.number? with
    | some p, some q => .ok (decide (p < q))
    | _, _ => .error .typeError :=
  Json.pyLt_of_ne (fun s hs => by rw [hs] at h; cases h) fun xs hxs => by rw [hxs] at h; cases h

theorem inOrder_pyNumbers : InOrder PyNumber := by
  refine inOrder_of_pyLt fun u v hu hv => ?_
  obtain ⟨m, hm, hkey⟩ := hu.key
  obtain ⟨n, hn, hkey'⟩ := hv.key
  rw [hu.pyLt_eq, hm, hn, hkey, hkey']
  simp only [key_lt_number]

section

variable {S : Json → Prop} {v : Json} {a b : Option Bound}

/-- The value of a bound. -/
def BoundIn (S : Json → Prop) (a : Option Bound) : Prop := ∀ x ∈ a, S x.1

theorem BoundIn.none : BoundIn S none := nofun

theorem boundIn_some {x : Bound} : BoundIn S (some x) ↔ S x.1 := by simp [BoundIn]

theorem meets_of_inOrder (hS : InOrder S) (ha : BoundIn S a) (hb : BoundIn S b) : meets a b = true := by
  cases a with
  | none => rfl
  | some a =>
    cases b with
    | none => rfl
    | some b => exact (hS _ _ (boundIn_some.1 ha) (boundIn_some.1 hb)).1

theorem BoundIn.higher (ha : BoundIn S a) (hb : BoundIn S b) : BoundIn S (higher a b) := by
  rcases a with - | ⟨av, ai⟩
  · exact hb
  rcases b with - | ⟨bv, bi⟩
  · exact ha
  dsimp only [ScopeOverlap.higher]
  split_ifs
  · exact ha
  · exact hb
  · have hav : S av := boundIn_some.1 ha
    exact boundIn_some.2 hav

theorem BoundIn.lower (ha : BoundIn S a) (hb : BoundIn S b) : BoundIn S (lower a b) := by
  rcases a with - | ⟨av, ai⟩
  · exact hb
  rcases b with - | ⟨bv, bi⟩
  · exact ha
  dsimp only [ScopeOverlap.lower]
  split_ifs
  · exact ha
  · exact hb
  · have hav : S av := boundIn_some.1 ha
    exact boundIn_some.2 hav

theorem aboveLo_higher (hS : InOrder S) (ha : BoundIn S a) (hb : BoundIn S b) :
    aboveLo true v (higher a b) ↔ aboveLo true v a ∧ aboveLo true v b := by
  rcases a with - | ⟨av, ai⟩
  · simp [higher, aboveLo]
  rcases b with - | ⟨bv, bi⟩
  · simp [higher, aboveLo]
  have hab := (hS _ _ (boundIn_some.1 ha) (boundIn_some.1 hb)).2
  have hba := (hS _ _ (boundIn_some.1 hb) (boundIn_some.1 ha)).2
  dsimp only at hab hba
  simp only [higher, hab, hba, decide_eq_true_eq]
  rcases lt_trichotomy (av.key true) (bv.key true) with hlt | heq | hgt
  · rw [if_neg hlt.not_gt, if_pos hlt]
    refine ⟨fun h => ⟨?_, h⟩, And.right⟩
    cases ai <;> cases bi <;> simp only [aboveLo] at h ⊢
    · exact hlt.trans h
    · exact hlt.trans_le h
    · exact (hlt.trans h).le
    · exact (hlt.trans_le h).le
  · rw [if_neg (by simp [heq]), if_neg (by simp [heq])]
    cases ai <;> cases bi <;> simp [aboveLo, heq] <;> exact le_of_lt
  · rw [if_pos hgt]
    refine ⟨fun h => ⟨h, ?_⟩, And.left⟩
    cases ai <;> cases bi <;> simp only [aboveLo] at h ⊢
    · exact hgt.trans h
    · exact (hgt.trans h).le
    · exact hgt.trans_le h
    · exact (hgt.trans_le h).le

theorem belowHi_lower (hS : InOrder S) (ha : BoundIn S a) (hb : BoundIn S b) :
    belowHi true v (lower a b) ↔ belowHi true v a ∧ belowHi true v b := by
  rcases a with - | ⟨av, ai⟩
  · simp [lower, belowHi]
  rcases b with - | ⟨bv, bi⟩
  · simp [lower, belowHi]
  have hab := (hS _ _ (boundIn_some.1 ha) (boundIn_some.1 hb)).2
  have hba := (hS _ _ (boundIn_some.1 hb) (boundIn_some.1 ha)).2
  dsimp only at hab hba
  simp only [lower, hab, hba, decide_eq_true_eq]
  rcases lt_trichotomy (av.key true) (bv.key true) with hlt | heq | hgt
  · rw [if_pos hlt]
    refine ⟨fun h => ⟨h, ?_⟩, And.left⟩
    cases ai <;> cases bi <;> simp only [belowHi] at h ⊢
    · exact h.trans hlt
    · exact (h.trans hlt).le
    · exact h.trans_lt hlt
    · exact (h.trans_lt hlt).le
  · rw [if_neg (by simp [heq]), if_neg (by simp [heq])]
    cases ai <;> cases bi <;> simp [belowHi, heq] <;> exact le_of_lt
  · rw [if_neg hgt.not_gt, if_pos hgt]
    refine ⟨fun h => ⟨?_, h⟩, And.right⟩
    cases ai <;> cases bi <;> simp only [belowHi] at h ⊢
    · exact h.trans hgt
    · exact h.trans_lt hgt
    · exact (h.trans hgt).le
    · exact (h.trans_lt hgt).le

end

/-! ## Conditions -/

/-- A condition holds of a value as Python compares the two. -/
def Operator.pyRelates : Operator → Json → Json → Bool
  | .lte, x, v => x.key true ≤ v.key true
  | .gte, x, v => v.key true ≤ x.key true
  | .eq, x, v => x.pyEq v
  | .neq, x, v => !x.pyEq v
  | .lt, x, v => x.key true < v.key true
  | .gt, x, v => v.key true < x.key true
  | .isIn, x, .arr vs => vs.any (Json.pyEq x)
  | .isIn, _, _ => false
  | .contains, _, _ | .exist, _, _ => true

/-- A condition that the validator accepts, and whose operator the check takes. -/
structure Ordinary (c : Condition) : Prop where
  accepted : ∀ path, Validators.validateOperatorValueShape path c = []
  conclusive : c.operator ≠ .contains ∧ c.operator ≠ .exist

/-- A list with an element that Python cannot hash. -/
def unhashed (c : Condition) : Bool :=
  match c.operator, c.value with
  | .isIn, .arr xs => !xs.all Json.hashable
  | _, _ => false

/-- The check compares the condition with the bounds; `seen` where it has an equality. -/
def keeps (seen : Bool) (c : Condition) : Bool :=
  match c.operator with
  | .isIn => false
  | .eq => !seen && !isNull c.value
  | _ => true

/-- What the check of a field compares of one policy. -/
def kept : Bool → List Condition → List Condition
  | _, [] => []
  | seen, c :: cs =>
    if keeps seen c then c :: kept (seen || c.operator = .eq) cs else kept seen cs

/-- The value is in every list. -/
def inLists (v : Json) (cs : List Condition) : Prop :=
  ∀ c ∈ cs, c.operator = .isIn → c.operator.pyRelates v c.value = true

instance (v : Json) (cs : List Condition) : Decidable (inLists v cs) :=
  inferInstanceAs (Decidable (∀ c ∈ cs, _ → _))

def hasList (cs : List Condition) : Prop := ∃ c ∈ cs, c.operator = .isIn

theorem Ordinary.numeric {c : Condition} (h : Ordinary c)
    (hop : Validators.isNumericOperator c.operator = true) : c.value.isNumeric = true := by
  by_contra hnot
  have := h.accepted ""
  simp [Validators.validateOperatorValueShape, hop, hnot] at this

theorem Ordinary.list {c : Condition} (h : Ordinary c) (hop : c.operator = .isIn) :
    ∃ xs, c.value = .arr xs := by
  have := h.accepted ""
  rw [Validators.validateOperatorValueShape, hop] at this
  cases hv : c.value with
  | arr xs => exact ⟨xs, rfl⟩
  | null | bool | int | float | str | obj =>
    simp [Validators.isNumericOperator, Validators.isList, hv] at this

/-! ## The constraint of one policy -/

/-- The value meets the bounds, the equality and the exclusions. -/
structure Meets (v : Json) (k : FieldConstraint) : Prop where
  lo : aboveLo true v k.lo
  hi : belowHi true v k.hi
  eq : ∀ e, k.eq = some e → v.key true = e.key true
  neq : ∀ n ∈ k.neq, v.key true ≠ n.key true

/-- What is known of a constraint that has been collected: its bounds are numbers. -/
structure Built (k : FieldConstraint) : Prop where
  lo : BoundIn PyNumber k.lo
  hi : BoundIn PyNumber k.hi

section

variable {k : FieldConstraint} {c : Condition} {v : Json}

theorem Built.empty : Built {} := ⟨BoundIn.none, BoundIn.none⟩

/-- One condition on a field. -/
structure Extended (k : FieldConstraint) (c : Condition) : Prop where
  built : Built (extend k c)
  meets : ∀ v, Meets v (extend k c) ↔
    Meets v k ∧ (keeps k.eq.isSome c = true → c.operator.pyRelates v c.value = true)
  seen : (extend k c).eq.isSome =
    if keeps k.eq.isSome c then k.eq.isSome || c.operator = .eq else k.eq.isSome
  lists : ∀ v, (∀ s, (extend k c).inSet = some s → ∃ x ∈ s, v.key true = x.key true) ↔
    (∀ s, k.inSet = some s → ∃ x ∈ s, v.key true = x.key true) ∧
      (c.operator = .isIn → c.operator.pyRelates v c.value = true)
  isSome : (extend k c).inSet.isSome = (k.inSet.isSome || c.operator = .isIn)
  inconclusive : (extend k c).inconclusive = k.inconclusive

/-- A condition that the check keeps, and that is no equality. -/
theorem extended_kept {k' : FieldConstraint} (hop : c.operator ≠ .eq ∧ c.operator ≠ .isIn)
    (hextend : extend k c = k') (hbuilt : Built k')
    (hmeets : ∀ v, Meets v k' ↔ Meets v k ∧ c.operator.pyRelates v c.value = true)
    (hsame : k'.eq = k.eq ∧ k'.inSet = k.inSet ∧ k'.inconclusive = k.inconclusive) : Extended k c := by
  obtain ⟨heq, hset, hinconclusive⟩ := hsame
  have hkeeps : keeps k.eq.isSome c = true := by
    cases hc : c.operator with
    | eq => exact absurd hc hop.1
    | isIn => exact absurd hc hop.2
    | neq | lt | lte | gt | gte | contains | exist => simp [keeps, hc]
  refine ⟨hextend ▸ hbuilt, fun v => ?_, ?_, fun v => ?_, ?_, ?_⟩
  · rw [hextend, hmeets]
    simp [hkeeps]
  · simp [hextend, heq, hkeeps, hop.1]
  · simp [hextend, hset, hop.2]
  · simp [hextend, hset, hop.2]
  · rw [hextend, hinconclusive]

theorem extended_hi {b : Bool} (h : Built k) (hn : c.value.isNumeric = true)
    (hop : c.operator ≠ .eq ∧ c.operator ≠ .isIn)
    (hextend : extend k c = { k with hi := lower k.hi (some (c.value, b)) })
    (hrel : ∀ v, belowHi true v (some (c.value, b)) ↔ c.operator.pyRelates v c.value = true) :
    Extended k c := by
  have hb : BoundIn PyNumber (some (c.value, b)) := boundIn_some.2 (pyNumber_of_isNumeric hn)
  refine extended_kept hop hextend ⟨h.lo, h.hi.lower hb⟩ (fun v => ?_) ⟨rfl, rfl, rfl⟩
  rw [← hrel]
  constructor
  · rintro ⟨hlo, hhi, heq, hneq⟩
    obtain ⟨hhi, hb⟩ := (belowHi_lower inOrder_pyNumbers h.hi hb).1 hhi
    exact ⟨⟨hlo, hhi, heq, hneq⟩, hb⟩
  · rintro ⟨⟨hlo, hhi, heq, hneq⟩, hv⟩
    exact ⟨hlo, (belowHi_lower inOrder_pyNumbers h.hi hb).2 ⟨hhi, hv⟩, heq, hneq⟩

theorem extended_lo {b : Bool} (h : Built k) (hn : c.value.isNumeric = true)
    (hop : c.operator ≠ .eq ∧ c.operator ≠ .isIn)
    (hextend : extend k c = { k with lo := higher k.lo (some (c.value, b)) })
    (hrel : ∀ v, aboveLo true v (some (c.value, b)) ↔ c.operator.pyRelates v c.value = true) :
    Extended k c := by
  have hb : BoundIn PyNumber (some (c.value, b)) := boundIn_some.2 (pyNumber_of_isNumeric hn)
  refine extended_kept hop hextend ⟨h.lo.higher hb, h.hi⟩ (fun v => ?_) ⟨rfl, rfl, rfl⟩
  rw [← hrel]
  constructor
  · rintro ⟨hlo, hhi, heq, hneq⟩
    obtain ⟨hlo, hb⟩ := (aboveLo_higher inOrder_pyNumbers h.lo hb).1 hlo
    exact ⟨⟨hlo, hhi, heq, hneq⟩, hb⟩
  · rintro ⟨⟨hlo, hhi, heq, hneq⟩, hv⟩
    exact ⟨(aboveLo_higher inOrder_pyNumbers h.lo hb).2 ⟨hlo, hv⟩, hhi, heq, hneq⟩

/-- The first equality is kept, unless it is with `null`. -/
theorem extended_eq (h : Built k) (hop : c.operator = .eq) : Extended k c := by
  by_cases hkeeps : keeps k.eq.isSome c = true
  · obtain ⟨hnone, hnull⟩ : k.eq = none ∧ isNull c.value = false := by
      simpa [keeps, hop] using hkeeps
    have hextend : extend k c = { k with eq := some c.value } := by
      rw [extend, hop, hnone]
      cases hv : c.value <;> simp_all [isNull]
    refine ⟨?_, fun v => ?_, ?_, fun v => ?_, ?_, ?_⟩
    · rw [hextend]
      exact ⟨h.lo, h.hi⟩
    · rw [hextend]
      constructor
      · rintro ⟨hlo, hhi, heq, hneq⟩
        refine ⟨⟨hlo, hhi, by simp [hnone], hneq⟩, fun _ => ?_⟩
        simpa [hop, Operator.pyRelates, Json.pyEq] using heq c.value rfl
      · rintro ⟨⟨hlo, hhi, -, hneq⟩, hrel⟩
        refine ⟨hlo, hhi, fun e he => ?_, hneq⟩
        cases he
        simpa [hop, Operator.pyRelates, Json.pyEq] using hrel hkeeps
    · simp [hextend, hkeeps, hop]
    · simp [hextend, hop]
    · simp [hextend, hop]
    · rw [hextend]
  · have hextend : extend k c = k := by
      rw [extend, hop]
      cases heq : k.eq with
      | some e => rfl
      | none =>
        have hnull : isNull c.value = true := by simpa [keeps, hop, heq] using hkeeps
        cases hv : c.value <;> simp_all [isNull]
    refine ⟨?_, fun v => ?_, ?_, fun v => ?_, ?_, ?_⟩
    · rwa [hextend]
    · simp [hextend, hkeeps]
    · simp [hextend, hkeeps]
    · simp [hextend, hop]
    · simp [hextend, hop]
    · rw [hextend]

theorem extended_neq (h : Built k) (hop : c.operator = .neq) : Extended k c := by
  have hrel : ∀ v, c.operator.pyRelates v c.value = true ↔ v.key true ≠ c.value.key true := by
    intro v
    simp [hop, Operator.pyRelates, Json.pyEq]
  have hbuilt : Built { k with neq := c.value :: k.neq } := ⟨h.lo, h.hi⟩
  refine extended_kept (by simp [hop]) (by rw [extend, hop]) hbuilt (fun v => ?_) ⟨rfl, rfl, rfl⟩
  rw [hrel]
  constructor
  · rintro ⟨hlo, hhi, heq, hneq⟩
    obtain ⟨hv, hneq⟩ := List.forall_mem_cons.1 hneq
    exact ⟨⟨hlo, hhi, heq, hneq⟩, hv⟩
  · rintro ⟨⟨hlo, hhi, heq, hneq⟩, hv⟩
    exact ⟨hlo, hhi, heq, List.forall_mem_cons.2 ⟨hv, hneq⟩⟩

theorem pyRelates_arr {xs : List Json} :
    Operator.isIn.pyRelates v (.arr xs) = true ↔ ∃ x ∈ xs, v.key true = x.key true := by
  simp [Operator.pyRelates, Json.pyEq]

/-- A list goes to what the earlier ones share with it. -/
theorem extended_isIn (h : Built k) (hop : c.operator = .isIn) {xs : List Json}
    (hxs : c.value = .arr xs) (hhash : xs.all Json.hashable = true) : Extended k c := by
  have hset : frozenset .python c.value = some xs := by
    rw [hxs, frozenset]
    exact if_pos hhash
  have hkeeps : keeps k.eq.isSome c = false := by simp [keeps, hop]
  have hmeets : ∀ s v, Meets v { k with inSet := s } ↔ Meets v k := by
    intro s v
    constructor
    · intro hv
      exact ⟨hv.lo, hv.hi, hv.eq, hv.neq⟩
    · intro hv
      exact ⟨hv.lo, hv.hi, hv.eq, hv.neq⟩
  cases hk : k.inSet with
  | none =>
    have hextend : extend k c = { k with inSet := some xs } := by
      simp only [extend, hop, hset, hk]
    refine ⟨hextend ▸ ⟨h.lo, h.hi⟩, fun v => ?_, ?_, fun v => ?_, ?_, ?_⟩
    · rw [hextend, hmeets]
      simp [hkeeps]
    · simp [hextend, hkeeps]
    · rw [hextend, hxs]
      simp [hk, hop, pyRelates_arr]
    · simp [hextend, hop]
    · rw [hextend]
  | some s =>
    have hextend : extend k c =
        { k with inSet := some (s.filter fun x => xs.any (Json.pyEq x)) } := by
      simp only [extend, hop, hset, hk]
    have hfilter : ∀ v : Json, (∃ x ∈ s.filter fun x => xs.any (Json.pyEq x), v.key true = x.key true) ↔
        (∃ x ∈ s, v.key true = x.key true) ∧ ∃ x ∈ xs, v.key true = x.key true := by
      intro v
      constructor
      · rintro ⟨x, hx, hv⟩
        obtain ⟨hx, hany⟩ := List.mem_filter.1 hx
        obtain ⟨y, hy, heq⟩ := List.any_eq_true.1 hany
        exact ⟨⟨x, hx, hv⟩, y, hy, hv.trans (Json.pyEq_iff_key.1 heq)⟩
      · rintro ⟨⟨x, hx, hv⟩, y, hy, hv'⟩
        refine ⟨x, List.mem_filter.2 ⟨hx, List.any_eq_true.2 ⟨y, hy, ?_⟩⟩, hv⟩
        exact Json.pyEq_iff_key.2 (hv.symm.trans hv')
    refine ⟨?_, fun v => ?_, ?_, fun v => ?_, ?_, ?_⟩
    · rw [hextend]
      exact ⟨h.lo, h.hi⟩
    · rw [hextend, hmeets]
      simp [hkeeps]
    · simp [hextend, hkeeps]
    · rw [hextend, hxs]
      simp only [hk, Option.some.injEq, forall_eq', hop, forall_const, pyRelates_arr]
      exact hfilter v
    · simp [hextend, hop]
    · rw [hextend]

theorem Built.extended (h : Built k) (ho : Ordinary c) (hlist : unhashed c = false) : Extended k c := by
  cases hop : c.operator with
  | lte | lt =>
    refine extended_hi h (ho.numeric (by rw [hop]; rfl)) (by simp [hop]) (by rw [extend, hop]) fun v => ?_
    simp [hop, Operator.pyRelates, belowHi]
  | gte | gt =>
    refine extended_lo h (ho.numeric (by rw [hop]; rfl)) (by simp [hop]) (by rw [extend, hop]) fun v => ?_
    simp [hop, Operator.pyRelates, aboveLo]
  | eq => exact extended_eq h hop
  | neq => exact extended_neq h hop
  | isIn =>
    obtain ⟨xs, hxs⟩ := ho.list hop
    refine extended_isIn h hop hxs ?_
    simpa [unhashed, hop, hxs] using hlist
  | contains => exact absurd hop ho.conclusive.1
  | exist => exact absurd hop ho.conclusive.2

/-- What is known of a constraint, and what it says of values. -/
structure Collected (k k' : FieldConstraint) (ds : List Condition) : Prop where
  built : Built k'
  meets : ∀ v, Meets v k' ↔
    Meets v k ∧ ∀ c ∈ kept k.eq.isSome ds, c.operator.pyRelates v c.value = true
  lists : ∀ v : Json, (∀ s, k'.inSet = some s → ∃ x ∈ s, v.key true = x.key true) ↔
    (∀ s, k.inSet = some s → ∃ x ∈ s, v.key true = x.key true) ∧ inLists v ds
  isSome : k'.inSet.isSome = true ↔ k.inSet.isSome = true ∨ hasList ds
  inconclusive : k'.inconclusive = k.inconclusive

/-- The conditions of a policy on a field, one after the other. -/
theorem Built.collected {ds : List Condition} (h : Built k) (ho : ∀ c ∈ ds, Ordinary c)
    (hlists : ∀ c ∈ ds, unhashed c = false) : Collected k (ds.foldl extend k) ds := by
  induction ds generalizing k with
  | nil => exact ⟨h, by simp [kept], by simp [inLists], by simp [hasList], rfl⟩
  | cons c ds ih =>
    obtain ⟨hoc, ho⟩ := List.forall_mem_cons.1 ho
    obtain ⟨hlist, hlists⟩ := List.forall_mem_cons.1 hlists
    have hone := h.extended hoc hlist
    have hrest := ih hone.built ho hlists
    refine ⟨hrest.built, fun v => ?_, fun v => ?_, ?_, ?_⟩
    · rw [List.foldl_cons, hrest.meets, hone.meets, hone.seen, kept, and_assoc]
      by_cases hkeeps : keeps k.eq.isSome c = true
      · simp only [hkeeps, if_true, forall_const, List.forall_mem_cons]
      · simp [hkeeps]
    · rw [List.foldl_cons, hrest.lists, hone.lists, and_assoc, inLists, inLists, List.forall_mem_cons]
    · rw [List.foldl_cons, hrest.isSome, hone.isSome]
      simp [hasList, or_assoc]
    · rw [List.foldl_cons, hrest.inconclusive, hone.inconclusive]

/-- What the check collects of a policy on a field. -/
theorem collected {ds : List Condition} (ho : ∀ c ∈ ds, Ordinary c)
    (hlists : ∀ c ∈ ds, unhashed c = false) : Collected {} (constraintOf ds) ds :=
  Built.empty.collected ho hlists

end

/-! ## The check of a field -/

/-- The bounds of two constraints, narrowed to their equalities. -/
def jointBounds (k₁ k₂ : FieldConstraint) : Option Bound × Option Bound :=
  let n := narrowed (higher k₁.lo k₂.lo) (lower k₁.hi k₂.hi) k₁.eq
  narrowed n.1 n.2 k₂.eq

/-- An equality, as a bound on either side. -/
def pin (e : Option Json) : Option Bound := e.map fun v => (v, true)

theorem narrowed_eq (lo hi : Option Bound) (e : Option Json) :
    narrowed lo hi e = (higher lo (pin e), lower hi (pin e)) := by
  cases e with
  | none => cases lo <;> cases hi <;> rfl
  | some v => rfl

theorem narrowable_eq (lo hi : Option Bound) (e : Option Json) :
    narrowable lo hi e = (meets lo (pin e) && meets hi (pin e)) := by
  cases e with
  | none => cases lo <;> cases hi <;> rfl
  | some v => rfl

section

variable {S : Json → Prop} {cs : List Condition} {k₁ k₂ : FieldConstraint} {v : Json}

theorem jointBounds_eq (k₁ k₂ : FieldConstraint) : jointBounds k₁ k₂ =
    (higher (higher (higher k₁.lo k₂.lo) (pin k₁.eq)) (pin k₂.eq),
      lower (lower (lower k₁.hi k₂.hi) (pin k₁.eq)) (pin k₂.eq)) := by
  rw [jointBounds, narrowed_eq, narrowed_eq]

/-- What is compared of two constraints is in one order, which Python has too. -/
structure Ordered (S : Json → Prop) (k₁ k₂ : FieldConstraint) : Prop where
  inOrder : InOrder S
  lo₁ : BoundIn S k₁.lo
  lo₂ : BoundIn S k₂.lo
  hi₁ : BoundIn S k₁.hi
  hi₂ : BoundIn S k₂.hi
  eq₁ : BoundIn S (pin k₁.eq)
  eq₂ : BoundIn S (pin k₂.eq)

theorem Ordered.lo (h : Ordered S k₁ k₂) : BoundIn S (jointBounds k₁ k₂).1 := by
  rw [jointBounds_eq]
  exact ((h.lo₁.higher h.lo₂).higher h.eq₁).higher h.eq₂

theorem Ordered.hi (h : Ordered S k₁ k₂) : BoundIn S (jointBounds k₁ k₂).2 := by
  rw [jointBounds_eq]
  exact ((h.hi₁.lower h.hi₂).lower h.eq₁).lower h.eq₂

theorem Ordered.comparable (h : Ordered S k₁ k₂) (hhash : ∀ v, S v → v.hashable = true) :
    comparableConstraints k₁ k₂ = true := by
  have hlo := h.lo
  have hhi := h.hi
  have hbounds : boundsComparable (jointBounds k₁ k₂).1 (jointBounds k₁ k₂).2 = true := by
    unfold boundsComparable
    split
    · next l li u ui hl hu =>
      have hSl : S l := hlo _ hl
      have hSu : S u := hhi _ hu
      rw [(h.inOrder u l hSu hSl).1, hhash l hSl]
      simp
    · rfl
  have hmeets₁ := meets_of_inOrder h.inOrder h.lo₁ h.lo₂
  have hmeets₂ := meets_of_inOrder h.inOrder h.hi₁ h.hi₂
  have hpin₁ := meets_of_inOrder h.inOrder (h.lo₁.higher h.lo₂) h.eq₁
  have hpin₂ := meets_of_inOrder h.inOrder (h.hi₁.lower h.hi₂) h.eq₁
  have hpin₃ := meets_of_inOrder h.inOrder ((h.lo₁.higher h.lo₂).higher h.eq₁) h.eq₂
  have hpin₄ := meets_of_inOrder h.inOrder ((h.hi₁.lower h.hi₂).lower h.eq₁) h.eq₂
  rw [jointBounds_eq] at hbounds
  simp [comparableConstraints, narrowable_eq, narrowed_eq, hmeets₁, hmeets₂, hpin₁, hpin₂, hpin₃, hpin₄,
    hbounds]

end

/-! ## Room between the bounds -/

/-- The bounds do not meet. -/
def Apart (lo hi : Option Bound) : Prop :=
  ∀ l ∈ lo, ∀ u ∈ hi, l.1.key true < u.1.key true

section

variable {k₁ k₂ : FieldConstraint}

end

section

variable {cs ds : List Condition}

end

end PayReality
