import PayReality.Compiler.CompilerV2
import PayReality.Compiler.Intended

/-!
# What a policy means, and when its rule means the same

The reference semantics of a policy looks every field up by its dot-separated key path. A missing
field satisfies `exists false` and nothing else, and `exists true` asks whether the lookup that
the other operators use finds anything.

The generated rule agrees with it on every condition but one: an `exists` check goes through a
chain of `object.get` calls that takes `null` for "not present" and is undefined below a value
that is not an object (`blindSpot`).

**Main result** `ruleHolds_iff_settled`: the body of a policy's rule holds exactly when the policy
matches, if its blind spots do not decide it.
-/

namespace PayReality

open Rego RegoGenerator

/-! ## Reference semantics -/

/-- How an operator relates the value of a field to the value of the condition. -/
def Operator.relates : Operator → Json → Json → Bool
  | .lte, x, v => x.regoLe v
  | .gte, x, v => v.regoLe x
  | .eq, x, v => x.regoEq v
  | .neq, x, v => !x.regoEq v
  | .lt, x, v => x.regoLt v
  | .gt, x, v => v.regoLt x
  | .isIn, x, v => memberOf x v
  | .contains, x, v => containsText x v
  | .exist, _, _ => true

def Condition.holds (c : Condition) (input : Json) : Bool :=
  let found := input.lookup (fieldPath c.field)
  if c.operator = .exist then found.isSome == c.value.isTrue
  else found.any fun x => c.operator.relates x c.value

/-- The member at a path is this text. -/
def textAt (input : Json) (path : List String) (s : String) : Bool :=
  match input.lookup path with
  | some (.str t) => t = s
  | _ => false

def Scope.matches (s : Scope) (input : Json) : Bool :=
  textAt input ["intent", "action"] s.action &&
  textAt input ["agent", "acting_for_principal_id"] s.principal &&
  s.agent.all (textAt input ["agent", "id"]) &&
  s.resource.all (textAt input ["intent", "resource"])

def RuntimePolicy.matches (p : RuntimePolicy) (input : Json) : Bool :=
  p.scope.matches input && p.conditions.all (Condition.holds · input)

/-! ## What OPA takes -/

/-- The words that may not follow a dot; those that the generator writes there are free. -/
structure Reserved where
  word : String → Bool
  free : ∀ w ∈ ["intent", "context", "enterprise_knowledge", "agent", "action", "resource", "id",
    "acting_for_principal_id"], word w = false

/-- An expression that OPA compiles: no reserved word in a reference, and `contains` on text. -/
def Rego.Expr.legal (r : Reserved) : Expr → Prop
  | .compare path _ _ | .member path _ => ∀ k ∈ path, r.word k = false
  | .contains path v => (∀ k ∈ path, r.word k = false) ∧ ∃ s, v = .str s
  | .present base _ _ => ∀ k ∈ base, r.word k = false
  | .rule _ | .countZero _ => True

def Rego.Module.legal (r : Reserved) (m : Module) : Prop :=
  ∀ rule ∈ m.rules, ∀ e ∈ rule.body, e.legal r

/-- Whether the rule of a policy holds; its body reads the input only. -/
def ruleHolds (p : RuntimePolicy) (input : Json) : Bool :=
  (policyRule p).holds (fun _ => false) (fun _ => []) input

/-! ## Scopes -/

theorem textAt_iff {input : Json} {path : List String} {s : String} :
    textAt input path s = true ↔ input.lookup path = some (.str s) := by
  unfold textAt
  split
  · next t ht => simp [ht]
  · next hno =>
    simp only [Bool.false_eq_true, false_iff]
    exact hno s

theorem regoEq_str {x : Json} {s : String} : x.regoEq (.str s) = true ↔ x = .str s := by
  constructor
  · intro h
    rw [Json.regoEq_iff] at h
    cases x <;> simp_all [Json.key, Json.Token.mk]
  · rintro rfl
    simp [Json.regoEq]

theorem compare_str (input : Json) (path : List String) (s : String) (rules sets) :
    (Expr.compare path .eq (.str s)).holds rules sets input = textAt input path s := by
  simp only [Expr.holds, textAt, Cmp.holds]
  cases input.lookup path with
  | none => rfl
  | some x =>
    rw [Bool.eq_iff_iff, Option.any_some, regoEq_str]
    cases x <;> simp

theorem scopeExprs_all (p : RuntimePolicy) (input : Json) (rules sets) :
    (scopeExprs p).all (Expr.holds rules sets input) = p.scope.matches input := by
  unfold scopeExprs Scope.matches
  cases p.scope.agent <;> cases p.scope.resource <;>
    simp [compare_str, Bool.and_assoc]

/-! ## Conditions -/

def isObject : Json → Bool
  | .obj _ => true
  | _ => false

/-- A key path that leads below a value that is not an object. -/
def blockedAt (v : Json) (ks : List String) : Prop :=
  ∃ pre, pre <+: ks ∧ pre ≠ ks ∧ ∃ x, v.lookup pre = some x ∧ isObject x = false

theorem blockedAt_cons {v : Json} {k : String} {ks : List String} :
    blockedAt v (k :: ks) ↔ isObject v = false ∨ ∃ w, v.get? k = some w ∧ blockedAt w ks := by
  constructor
  · rintro ⟨pre, hpre, hne, x, hx, hobj⟩
    cases pre with
    | nil =>
      cases hx
      exact .inl hobj
    | cons k' pre =>
      obtain ⟨hk, hpre⟩ := List.cons_prefix_cons.1 hpre
      obtain ⟨w, hw, hx⟩ := Option.bind_eq_some_iff.1 hx
      exact .inr ⟨w, hk ▸ hw, pre, hpre, by simpa [hk] using hne, x, hx, hobj⟩
  · rintro (hobj | ⟨w, hw, pre, hpre, hne, x, hx, hobj⟩)
    · exact ⟨[], List.nil_prefix, by simp, v, rfl, hobj⟩
    · exact ⟨k :: pre, List.cons_prefix_cons.2 ⟨rfl, hpre⟩, by simpa using hne, x,
        by simp [Json.lookup, hw, hx], hobj⟩

theorem lookup_of_blockedAt {v : Json} {ks : List String} (h : blockedAt v ks) :
    v.lookup ks = none := by
  induction ks generalizing v with
  | nil =>
    obtain ⟨pre, hpre, hne, -⟩ := h
    exact absurd (List.prefix_nil.1 hpre) hne
  | cons k ks ih =>
    simp only [Json.lookup]
    rcases blockedAt_cons.1 h with hobj | ⟨w, hw, hblocked⟩
    · cases v <;> simp_all [Json.get?, isObject]
    · rw [hw]
      exact ih hblocked

theorem nestedGet_none (ks : List String) : nestedGet none ks = none := by
  induction ks with
  | nil => rfl
  | cons k ks ih =>
    cases ks with
    | nil => rfl
    | cons k' ks => exact ih

/-- The chain of `object.get` calls: undefined where the path is blocked, and otherwise what the
lookup finds, with `null` for nothing. -/
theorem nestedGet_eq {v : Json} {ks : List String} (hne : ks ≠ []) :
    (blockedAt v ks → nestedGet (some v) ks = none) ∧
      (¬ blockedAt v ks → nestedGet (some v) ks = some ((v.lookup ks).getD .null)) := by
  induction ks generalizing v with
  | nil => exact absurd rfl hne
  | cons k ks ih =>
    rw [blockedAt_cons]
    cases v with
    | obj kvs =>
      simp only [isObject, Bool.true_eq_false, false_or, Json.lookup]
      cases ks with
      | nil =>
        have hnone : ∀ w : Json, ¬ blockedAt w [] := by
          rintro w ⟨pre, hpre, hne, -⟩
          exact hne (List.prefix_nil.1 hpre)
        simp only [hnone, and_false, exists_false, false_implies, not_false_eq_true, forall_const,
          true_and, nestedGet, objectGet, Json.lookup]
        cases (Json.obj kvs).get? k <;> rfl
      | cons k' ks =>
        simp only [nestedGet, objectGet]
        cases hget : (Json.obj kvs).get? k with
        | none =>
          have hempty : ¬ blockedAt (.obj []) (k' :: ks) := by
            simp [blockedAt_cons, isObject, Json.get?]
          have := (ih (v := .obj []) (by simp)).2 hempty
          simpa [Json.lookup, Json.get?] using this
        | some w => simpa using ih (v := w) (by simp)
    | null | bool | int | float | str | arr =>
      cases ks with
      | nil => simp [isObject, nestedGet, objectGet]
      | cons k' ks =>
        simp [isObject, nestedGet, objectGet, nestedGet_none]

/-- The section is missing, or the field leads below a value that is not an object. -/
def outOfReach (input : Json) (field : String) : Prop :=
  match input.lookup [(fieldSection field).1] with
  | none => True
  | some v => blockedAt v (fieldKeys field)

/-- Where an `exists` check and the lookup part: a field that is `null`, and, for
`exists false`, a field out of reach. -/
def blindSpot (c : Condition) (input : Json) : Prop :=
  c.operator = .exist ∧ (input.lookup (fieldPath c.field) = some .null ∨
    c.value.isTrue = false ∧ outOfReach input c.field)

theorem lookup_fieldPath (input : Json) (field : String) :
    input.lookup (fieldPath field) =
      (input.lookup [(fieldSection field).1]).bind fun v => v.lookup (fieldKeys field) := by
  rw [← Json.lookup_append]
  rfl

theorem present_holds (input : Json) (c : Condition) (wanted : Bool) (rules sets) :
    (Expr.present [(fieldSection c.field).1] (fieldKeys c.field) wanted).holds rules sets input =
      ((input.lookup (fieldPath c.field)).isSome == wanted) ↔
    ¬ (input.lookup (fieldPath c.field) = some .null ∨ wanted = false ∧ outOfReach input c.field) := by
  simp only [Expr.holds, outOfReach, lookup_fieldPath]
  cases input.lookup [(fieldSection c.field).1] with
  | none => cases wanted <;> simp [nestedGet_none]
  | some v =>
    obtain ⟨hblocked, hopen⟩ := nestedGet_eq (v := v) (fieldKeys_ne_nil c.field)
    by_cases hb : blockedAt v (fieldKeys c.field)
    · rw [hblocked hb]
      cases wanted <;> simp [lookup_of_blockedAt hb, hb]
    · rw [hopen hb]
      cases hv : v.lookup (fieldKeys c.field) with
      | none => cases wanted <;> simp [hv, hb, isNull]
      | some x => cases x <;> cases wanted <;> simp [hv, hb, isNull]

/-- The expression of a condition agrees with the condition everywhere but in its blind spot. -/
theorem conditionExpr_holds (c : Condition) (input : Json) (rules sets) :
    (conditionExpr c).holds rules sets input = c.holds input ↔ ¬ blindSpot c input := by
  rcases c with ⟨field, op, value⟩
  cases op with
  | exist =>
    have := present_holds input ⟨field, .exist, value⟩ value.isTrue rules sets
    simpa [conditionExpr, Condition.holds, blindSpot] using this
  | lte | gte | eq | neq | lt | gt | isIn | contains =>
    simp [conditionExpr, Condition.holds, blindSpot, Expr.holds, Operator.relates, Cmp.holds]

/-! ## Policies -/

/-- The blind spots of a policy do not decide it: unless something else fails, there is one that
holds exactly if there is one that does not. -/
def settled (p : RuntimePolicy) (input : Json) : Prop :=
  p.scope.matches input = true →
  (∀ c ∈ p.conditions, ¬ blindSpot c input → c.holds input = true) →
  ((∃ c ∈ p.conditions, blindSpot c input ∧ c.holds input = true) ↔
    ∃ c ∈ p.conditions, blindSpot c input ∧ c.holds input = false)

/-- Two conjunctions over one list, where the terms of one are those of the other, except that
some are negated. -/
theorem all_eq_all {α : Type} (xs : List α) {f g : α → Bool} {flipped : α → Prop}
    (h : ∀ x ∈ xs, f x = g x ↔ ¬ flipped x) :
    xs.all f = xs.all g ↔ ((∀ x ∈ xs, ¬ flipped x → g x = true) →
      ((∃ x ∈ xs, flipped x ∧ g x = true) ↔ ∃ x ∈ xs, flipped x ∧ g x = false)) := by
  have hflip : ∀ x ∈ xs, flipped x → f x = !g x := by
    intro x hx hfx
    have := mt (h x hx).1 (not_not.2 hfx)
    revert this
    cases f x <;> cases g x <;> simp
  rw [Bool.eq_iff_iff, List.all_eq_true, List.all_eq_true]
  constructor
  · intro heq hrest
    constructor
    · rintro ⟨x, hx, hfx, hg⟩
      by_contra hno
      push Not at hno
      have hall : ∀ y ∈ xs, g y = true := fun y hy => by
        by_cases hfy : flipped y
        · exact eq_true_of_ne_false (hno y hy hfy)
        · exact hrest y hy hfy
      have := heq.2 hall x hx
      simp [hflip x hx hfx, hg] at this
    · rintro ⟨x, hx, hfx, hg⟩
      by_contra hno
      push Not at hno
      have hall : ∀ y ∈ xs, f y = true := fun y hy => by
        by_cases hfy : flipped y
        · simpa [hflip y hy hfy] using hno y hy hfy
        · exact ((h y hy).2 hfy).trans (hrest y hy hfy)
      exact absurd (heq.1 hall x hx) (by simp [hg])
  · intro hdecide
    constructor
    · intro hf x hx
      by_contra hg
      have hg' := eq_false_of_ne_true hg
      have hrest : ∀ y ∈ xs, ¬ flipped y → g y = true :=
        fun y hy hfy => ((h y hy).2 hfy).symm.trans (hf y hy)
      have hfx : flipped x := by
        by_contra hfx
        exact hg (hrest x hx hfx)
      obtain ⟨y, hy, hfy, hgy⟩ := (hdecide hrest).2 ⟨x, hx, hfx, hg'⟩
      have := hf y hy
      simp [hflip y hy hfy, hgy] at this
    · intro hg x hx
      by_cases hfx : flipped x
      · obtain ⟨y, hy, -, hgy⟩ := (hdecide fun y hy _ => hg y hy).1 ⟨x, hx, hfx, hg x hx⟩
        exact absurd (hg y hy) (by simp [hgy])
      · exact ((h x hx).2 hfx).trans (hg x hx)

theorem ruleHolds_eq (p : RuntimePolicy) (input : Json) :
    ruleHolds p input = (p.scope.matches input && p.conditions.all fun c =>
      (conditionExpr c).holds (fun _ => false) (fun _ => []) input) := by
  simp only [ruleHolds, Rule.holds, policyRule, policyBody, List.all_append, scopeExprs_all,
    List.all_map]
  rfl

/-- **A policy's rule holds exactly when the policy matches**, if its blind spots do not decide. -/
theorem ruleHolds_iff_settled (p : RuntimePolicy) (input : Json) :
    ruleHolds p input = p.matches input ↔ settled p input := by
  have := all_eq_all p.conditions fun c _ =>
    conditionExpr_holds c input (fun _ => false) (fun _ => [])
  rw [ruleHolds_eq, RuntimePolicy.matches, settled, ← this]
  cases p.scope.matches input <;> simp

/-! ## The module -/

theorem fieldSection_free (r : Reserved) (field : String) :
    r.word (fieldSection field).1 = false := by
  apply r.free
  unfold fieldSection
  split
  · simp
  · split <;> simp

/-- What OPA asks of a condition: no reserved word in a spliced field, and text for `contains`. -/
def accepted (r : Reserved) (c : Condition) : Prop :=
  (splicesField c → ∀ k ∈ fieldKeys c.field, r.word k = false) ∧
    (c.operator = .contains → ∃ s, c.value = .str s)

theorem conditionExpr_legal (r : Reserved) (c : Condition) :
    (conditionExpr c).legal r ↔ accepted r c := by
  have hsec := fieldSection_free r c.field
  unfold conditionExpr accepted splicesField
  cases c.operator <;> simp [Expr.legal, fieldPath, hsec]

theorem scopeExprs_legal (r : Reserved) (p : RuntimePolicy) : ∀ e ∈ scopeExprs p, e.legal r := by
  have hfree : ∀ path : List String, (∀ k ∈ path, k ∈ ["intent", "context", "enterprise_knowledge",
      "agent", "action", "resource", "id", "acting_for_principal_id"]) →
      ∀ s, (Expr.compare path .eq (.str s)).legal r := fun path h s k hk => r.free k (h k hk)
  intro e he
  simp only [scopeExprs, List.mem_append, List.mem_cons, List.not_mem_nil, or_false] at he
  rcases he with ((rfl | rfl) | he) | he
  · exact hfree _ (by simp) _
  · exact hfree _ (by simp) _
  · cases ha : p.scope.agent with
    | none => simp [ha] at he
    | some a =>
      obtain rfl : e = _ := by simpa [ha] using he
      exact hfree _ (by simp) _
  · cases hr : p.scope.resource with
    | none => simp [hr] at he
    | some a =>
      obtain rfl : e = _ := by simpa [hr] using he
      exact hfree _ (by simp) _

theorem mem_aggregate_body {ps : List RuntimePolicy} {e : Effect} {rule : Rule}
    (h : rule ∈ aggregateRules ps e) : ∀ x ∈ rule.body, ∃ n, x = .rule n := by
  obtain ⟨p, -, rfl⟩ := List.mem_map.1 h
  simp

/-- Apart from the rules of the policies, a module refers to its own rules only. -/
theorem intendedModule_legal (r : Reserved) (ps : List RuntimePolicy) :
    (intendedModule ps).legal r ↔ ∀ p ∈ ps, ∀ c ∈ p.conditions, accepted r c := by
  constructor
  · intro h p hp c hc
    rw [← conditionExpr_legal]
    refine h (policyRule p) ?_ _ (List.mem_append_right _ (List.mem_map_of_mem hc))
    simp only [intendedModule, List.mem_append, List.mem_map]
    exact .inl (.inl (.inl (.inl (.inl (.inl ⟨p, hp, rfl⟩)))))
  · intro h rule hrule e he
    simp only [intendedModule, List.mem_append, List.mem_map] at hrule
    rcases hrule with (((((⟨p, hp, rfl⟩ | hr) | hr) | hr) | ⟨p, -, rfl⟩) | hr) | hr
    · rcases List.mem_append.1 he with he | he
      · exact scopeExprs_legal r p e he
      · obtain ⟨c, hc, rfl⟩ := List.mem_map.1 he
        exact (conditionExpr_legal r c).2 (h p hp c hc)
    · obtain ⟨n, rfl⟩ := mem_aggregate_body hr e he
      trivial
    · obtain ⟨n, rfl⟩ := mem_aggregate_body hr e he
      trivial
    · obtain ⟨n, rfl⟩ := mem_aggregate_body hr e he
      trivial
    · obtain rfl : e = _ := by simpa [evaluatedRule] using he
      trivial
    · obtain ⟨p, -, hp⟩ := List.mem_filterMap.1 hr
      unfold reasonRule at hp
      split at hp <;> cases hp <;> (obtain rfl : e = _ := by simpa using he) <;> trivial
    · simp only [fallbackRules, List.mem_cons, List.not_mem_nil, or_false] at hr
      rcases hr with rfl | rfl <;> (obtain rfl : e = _ := by simpa using he) <;> trivial

/-! A policy on payments, for tests. -/

def paymentPolicy (conditions : List Condition) : RuntimePolicy where
  id := "cap"
  name := "Cap"
  version := 1
  status := .draft
  scope := ⟨"ops", "vendor_payment", none, none⟩
  conditions
  effect := .allow

/-- The reserved words of a Rego that reserves none. -/
def noReserved : Reserved := ⟨fun _ => false, fun _ _ => rfl⟩

end PayReality
