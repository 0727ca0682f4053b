import Mathlib.Data.List.Pairwise
import PayReality.Compiler.Meaning

/-!
# At most one policy decides

The overlap check, run with Rego's comparisons, is sound for the rules that OPA evaluates: a pair
that it separates never matches one input (`not_both_hold`). The compiler runs it with Python's,
which take `true` for `1`.

**Main result** `compileBundle_oneDecides`: where Rego's comparisons separate every pair too, and
policies with one rule name agree on what they decide, at most one policy decides any input.
-/

namespace PayReality

open Rego RegoGenerator ScopeOverlap

/-! ## One field -/

/-- The value is not below the bound, in the order of Rego or of Python. -/
def aboveLo (py : Bool) (v : Json) : Option Bound → Prop
  | none => True
  | some (b, incl) => if incl then b.key py ≤ v.key py else b.key py < v.key py

/-- The value is not above the bound. -/
def belowHi (py : Bool) (v : Json) : Option Bound → Prop
  | none => True
  | some (b, incl) => if incl then v.key py ≤ b.key py else v.key py < b.key py

/-- The value meets everything a constraint has collected. -/
structure Satisfies (v : Json) (k : FieldConstraint) : Prop where
  lo : aboveLo false v k.lo
  hi : belowHi false v k.hi
  eq : ∀ e, k.eq = some e → v.key false = e.key false
  neq : ∀ n ∈ k.neq, v.key false ≠ n.key false
  inSet : ∀ s, k.inSet = some s → ∃ x ∈ s, v.key false = x.key false

theorem aboveLo_tighter {v : Json} {a b c : Option Bound} (h : tighterLo .rego a b = .ok c)
    (ha : aboveLo false v a) (hb : aboveLo false v b) : aboveLo false v c := by
  rcases a with - | ⟨av, ai⟩
  · cases h; exact hb
  · rcases b with - | ⟨bv, bi⟩
    · cases h; exact ha
    · simp only [tighterLo, ValueOrder.rego, Json.regoLt, bind, Except.bind, pure, Except.pure] at h
      split_ifs at h with h₁ h₂
      · cases h; exact ha
      · cases h; exact hb
      · cases h
        simp only [decide_eq_true_eq, not_lt] at h₁ h₂
        have heq := le_antisymm h₁ h₂
        cases ai <;> cases bi <;> simp_all [aboveLo]

theorem belowHi_tighter {v : Json} {a b c : Option Bound} (h : tighterHi .rego a b = .ok c)
    (ha : belowHi false v a) (hb : belowHi false v b) : belowHi false v c := by
  rcases a with - | ⟨av, ai⟩
  · cases h; exact hb
  · rcases b with - | ⟨bv, bi⟩
    · cases h; exact ha
    · simp only [tighterHi, ValueOrder.rego, Json.regoLt, bind, Except.bind, pure, Except.pure] at h
      split_ifs at h with h₁ h₂
      · cases h; exact ha
      · cases h; exact hb
      · cases h
        simp only [decide_eq_true_eq, not_lt] at h₁ h₂
        have heq := le_antisymm h₁ h₂
        cases ai <;> cases bi <;> simp_all [belowHi]

/-- One condition: a value that meets the constraint so far and the condition meets the new
constraint. -/
theorem Satisfies.addCondition {v : Json} {k k' : FieldConstraint} {c : Condition}
    (h : addCondition .rego k c = .ok k') (hk : Satisfies v k)
    (hc : c.operator.relates v c.value = true) : Satisfies v k' := by
  rcases c with ⟨field, op, value⟩
  obtain ⟨hlo, hhi, heq, hneq, hin⟩ := hk
  cases op with
  | lte =>
    obtain ⟨hi, hhi', h⟩ := bind_ok.1 h
    cases h
    exact ⟨hlo, belowHi_tighter hhi' hhi (Json.regoLe_iff.1 hc), heq, hneq, hin⟩
  | lt =>
    obtain ⟨hi, hhi', h⟩ := bind_ok.1 h
    cases h
    exact ⟨hlo, belowHi_tighter hhi' hhi (Json.regoLt_iff.1 hc), heq, hneq, hin⟩
  | gte =>
    obtain ⟨lo, hlo', h⟩ := bind_ok.1 h
    cases h
    exact ⟨aboveLo_tighter hlo' hlo (Json.regoLe_iff.1 hc), hhi, heq, hneq, hin⟩
  | gt =>
    obtain ⟨lo, hlo', h⟩ := bind_ok.1 h
    cases h
    exact ⟨aboveLo_tighter hlo' hlo (Json.regoLt_iff.1 hc), hhi, heq, hneq, hin⟩
  | eq =>
    simp only [ScopeOverlap.addCondition] at h
    have hv := Json.regoEq_iff.1 hc
    split at h
    · cases h; exact ⟨hlo, hhi, heq, hneq, hin⟩
    · cases h
      exact ⟨hlo, hhi, fun e he => by cases he; exact hv, hneq, hin⟩
    · cases h; exact ⟨hlo, hhi, heq, hneq, hin⟩
  | neq =>
    cases h
    have hv : v.key false ≠ value.key false := by
      simpa [Operator.relates, Json.regoEq] using hc
    exact ⟨hlo, hhi, heq, List.forall_mem_cons.2 ⟨hv, hneq⟩, hin⟩
  | isIn =>
    cases value with
    | arr xs =>
      have hmem : ∃ x ∈ xs, v.key false = x.key false := by
        simpa [Operator.relates, memberOf, Json.regoEq] using hc
      have hset : frozenset .rego (.arr xs) = some xs := by
        simp [frozenset, ValueOrder.rego]
      simp only [ScopeOverlap.addCondition, hset] at h
      cases hs : k.inSet with
      | none =>
        rw [hs] at h
        cases h
        exact ⟨hlo, hhi, heq, hneq, fun s hs => by cases hs; exact hmem⟩
      | some s =>
        rw [hs] at h
        cases h
        refine ⟨hlo, hhi, heq, hneq, fun t ht => ?_⟩
        cases ht
        obtain ⟨x, hx, hvx⟩ := hin s hs
        obtain ⟨y, hy, hvy⟩ := hmem
        refine ⟨x, List.mem_filter.2 ⟨hx, List.any_eq_true.2 ⟨y, hy, ?_⟩⟩, hvx⟩
        exact Json.regoEq_iff.2 (hvx.symm.trans hvy)
    | null | bool | int | float | str | obj => exact absurd hc (by simp [Operator.relates, memberOf])
  | contains | exist =>
    cases h
    exact ⟨hlo, hhi, heq, hneq, hin⟩

/-- All conditions on a field. -/
theorem Satisfies.build {v : Json} {cs : List Condition} {k : FieldConstraint}
    (h : buildFieldConstraint .rego cs = .ok k)
    (hcs : ∀ c ∈ cs, c.operator.relates v c.value = true) : Satisfies v k := by
  have hempty : Satisfies v {} := ⟨trivial, trivial, nofun, nofun, nofun⟩
  unfold buildFieldConstraint at h
  generalize ({} : FieldConstraint) = k₀ at h hempty
  induction cs generalizing k₀ with
  | nil => cases h; exact hempty
  | cons c cs ih =>
    obtain ⟨k₁, h₁, h⟩ := bind_ok.1 h
    exact ih (fun d hd => hcs d (List.mem_cons_of_mem _ hd)) k₁ h
      (hempty.addCondition h₁ (hcs c List.mem_cons_self))

theorem narrow_sound {v : Json} {lo hi lo' hi' : Option Bound} {e : Option Json}
    (h : narrow .rego lo hi e = .ok (lo', hi')) (hlo : aboveLo false v lo) (hhi : belowHi false v hi)
    (he : ∀ x, e = some x → v.key false = x.key false) : aboveLo false v lo' ∧ belowHi false v hi' := by
  cases e with
  | none => cases h; exact ⟨hlo, hhi⟩
  | some x =>
    have hx := he x rfl
    obtain ⟨lo₁, h₁, h⟩ := bind_ok.1 h
    obtain ⟨hi₁, h₂, h⟩ := bind_ok.1 h
    cases h
    exact ⟨aboveLo_tighter h₁ hlo (by simp [aboveLo, hx]),
      belowHi_tighter h₂ hhi (by simp [belowHi, hx])⟩

theorem boundsCanMeet_sound {v : Json} {lo hi : Option Bound} {neq₁ neq₂ : List Json}
    (h : boundsCanMeet .rego neq₁ neq₂ lo hi = .ok false) (hlo : aboveLo false v lo) (hhi : belowHi false v hi)
    (h₁ : ∀ n ∈ neq₁, v.key false ≠ n.key false) (h₂ : ∀ n ∈ neq₂, v.key false ≠ n.key false) :
    False := by
  rcases lo with - | ⟨l, li⟩
  · cases h
  rcases hi with - | ⟨u, ui⟩
  · cases h
  have hl : l.key false ≤ v.key false := by
    cases li
    · exact le_of_lt hlo
    · exact hlo
  have hu : v.key false ≤ u.key false := by
    cases ui
    · exact le_of_lt hhi
    · exact hhi
  have hpinned : l.key false = u.key false → v.key false = l.key false :=
    fun heq => le_antisymm (heq ▸ hu) hl
  simp only [boundsCanMeet, ValueOrder.contains, ValueOrder.rego, Json.regoLt, Json.regoEq,
    bind, Except.bind, pure, Except.pure, ↓reduceIte, decide_eq_true_eq, List.any_eq_true] at h
  split_ifs at h with hlt heq hincl hn₁ hn₂
  · exact absurd (hl.trans hu) (not_le.2 hlt)
  · -- The bounds coincide and one of them is strict.
    have hv := hpinned heq
    cases li <;> cases ui <;> simp_all [aboveLo, belowHi]
  · obtain ⟨n, hn, hln⟩ := hn₁
    exact h₁ n hn ((hpinned heq).trans hln)
  · obtain ⟨n, hn, hln⟩ := hn₂
    exact h₂ n hn ((hpinned heq).trans hln)
  · cases h
  · cases h

/-- **The check of one field is sound**: constraints that it separates have no common value. -/
theorem fieldsCanOverlap_sound {v : Json} {k₁ k₂ : FieldConstraint}
    (h : fieldsCanOverlap .rego k₁ k₂ = .ok false) (h₁ : Satisfies v k₁) (h₂ : Satisfies v k₂) :
    False := by
  unfold fieldsCanOverlap at h
  split at h
  · cases h
  obtain ⟨lo, hlo, h⟩ := bind_ok.1 h
  obtain ⟨hi, hhi, h⟩ := bind_ok.1 h
  have hlo' := aboveLo_tighter hlo h₁.lo h₂.lo
  have hhi' := belowHi_tighter hhi h₁.hi h₂.hi
  split at h
  · next hdiff =>
    unfold equalitiesDiffer at hdiff
    split at hdiff
    · next x y hx hy =>
      have := (h₁.eq x hx).symm.trans (h₂.eq y hy)
      simp [ValueOrder.rego, Json.regoEq, this] at hdiff
    · cases hdiff
  obtain ⟨⟨lo₁, hi₁⟩, hn₁, h⟩ := bind_ok.1 h
  obtain ⟨⟨lo₂, hi₂⟩, hn₂, h⟩ := bind_ok.1 h
  obtain ⟨hlo₁, hhi₁⟩ := narrow_sound hn₁ hlo' hhi' h₁.eq
  obtain ⟨hlo₂, hhi₂⟩ := narrow_sound hn₂ hlo₁ hhi₁ h₂.eq
  dsimp only at h
  split at h
  · next hdisj =>
    unfold setsDisjoint at hdisj
    split at hdisj
    · next s t hs ht =>
      obtain ⟨x, hx, hvx⟩ := h₁.inSet s hs
      obtain ⟨y, hy, hvy⟩ := h₂.inSet t ht
      have hany : (s.any fun x => t.any (ValueOrder.rego.eq x)) = true :=
        List.any_eq_true.2 ⟨x, hx, List.any_eq_true.2
          ⟨y, hy, Json.regoEq_iff.2 (hvx.symm.trans hvy)⟩⟩
      simp [hany] at hdisj
    · cases hdisj
  exact boundsCanMeet_sound h hlo₂ hhi₂ h₁.neq h₂.neq

/-! ## Two policies -/

theorem textAt_unique {input : Json} {path : List String} {s t : String}
    (hs : textAt input path s = true) (ht : textAt input path t = true) : s = t := by
  have := (textAt_iff.1 hs).symm.trans (textAt_iff.1 ht)
  simpa using this

theorem scopesCanOverlap_of_matches {p₁ p₂ : RuntimePolicy} {input : Json}
    (h₁ : p₁.scope.matches input = true) (h₂ : p₂.scope.matches input = true) :
    scopesCanOverlap p₁ p₂ = true := by
  simp only [Scope.matches, Bool.and_eq_true, Option.all_eq_true] at h₁ h₂
  obtain ⟨⟨⟨ha₁, hp₁⟩, hagent₁⟩, hresource₁⟩ := h₁
  obtain ⟨⟨⟨ha₂, hp₂⟩, hagent₂⟩, hresource₂⟩ := h₂
  simp only [scopesCanOverlap, Bool.and_eq_true, decide_eq_true_eq]
  refine ⟨⟨⟨textAt_unique hp₁ hp₂, textAt_unique ha₁ ha₂⟩, ?_⟩, ?_⟩
  · split
    · next a b ha hb => exact decide_eq_true (textAt_unique (hagent₁ a ha) (hagent₂ b hb))
    · rfl
  · split
    · next a b ha hb => exact decide_eq_true (textAt_unique (hresource₁ a ha) (hresource₂ b hb))
    · rfl

/-- A rule that holds finds a value for each of its conditions. -/
theorem found_of_ruleHolds {p : RuntimePolicy} {input : Json} (h : ruleHolds p input = true)
    {c : Condition} (hc : c ∈ p.conditions) (hop : c.operator ≠ .exist) :
    ∃ x, input.lookup (fieldPath c.field) = some x ∧ c.operator.relates x c.value = true := by
  rw [ruleHolds_eq, Bool.and_eq_true, List.all_eq_true] at h
  have hexpr := h.2 c hc
  rw [(conditionExpr_holds c input _ _).2 fun hb => hop hb.1] at hexpr
  simp only [Condition.holds, if_neg hop, Option.any_eq_true] at hexpr
  exact hexpr

/-- What a rule that holds says of the value of a field. -/
theorem relates_of_ruleHolds {p : RuntimePolicy} {input : Json} (h : ruleHolds p input = true)
    {field : String} {c : Condition} (hc : c ∈ conditionsOn p field) :
    c.operator.relates ((input.lookup (fieldPath field)).getD .null) c.value = true := by
  obtain ⟨hmem, hfield⟩ := List.mem_filter.1 hc
  obtain rfl : c.field = field := of_decide_eq_true hfield
  by_cases hop : c.operator = .exist
  · simp [hop, Operator.relates]
  · obtain ⟨x, hx, hrel⟩ := found_of_ruleHolds h hmem hop
    rwa [hx]

/-- **The check of two policies is sound under Rego's comparisons.** -/
theorem not_both_hold {p₁ p₂ : RuntimePolicy}
    (h : policiesCanJointlyMatch .rego p₁ p₂ = .ok false) {input : Json}
    (h₁ : ruleHolds p₁ input = true) (h₂ : ruleHolds p₂ input = true) : False := by
  have hscope : scopesCanOverlap p₁ p₂ = true := by
    rw [ruleHolds_eq, Bool.and_eq_true] at h₁ h₂
    exact scopesCanOverlap_of_matches h₁.1 h₂.1
  rw [policiesCanJointlyMatch, if_pos hscope] at h
  dsimp only at h
  split at h
  · next hany =>
    obtain ⟨r, hr, hfalse⟩ := List.any_eq_true.1 hany
    obtain ⟨field, -, hfield⟩ := List.mem_map.1 hr
    have hok : fieldCanOverlap .rego p₁ p₂ field = .ok false := by
      rw [hfield]
      revert hfalse
      cases r with
      | error e => simp [separates]
      | ok b => cases b <;> simp [separates]
    obtain ⟨k₁, hk₁, hok⟩ := bind_ok.1 hok
    obtain ⟨k₂, hk₂, hok⟩ := bind_ok.1 hok
    exact fieldsCanOverlap_sound hok (Satisfies.build hk₁ fun c hc => relates_of_ruleHolds h₁ hc)
      (Satisfies.build hk₂ fun c hc => relates_of_ruleHolds h₂ hc)
  · next hany =>
    -- No field separates the policies, so the loop does not end in `false`.
    have htrue : ∀ (rs : List (Except PyError Bool)) (b : Bool), b = true →
        ¬ rs.any separates = true →
        rs.foldlM (fun _ r => r) b ≠ .ok false := by
      intro rs
      induction rs with
      | nil => rintro b rfl - hnil; cases hnil
      | cons r rs ih =>
        intro b hb hno hfold
        obtain ⟨b', hb', hfold⟩ := bind_ok.1 hfold
        cases b' with
        | false => exact hno (by simp [hb', separates])
        | true => exact ih true rfl (fun hrs => hno (by simp [hrs])) hfold
    exact htrue _ true rfl hany h

/-! ## The module -/

theorem ruleName_ne (policyId : String) {n : String} (hn : n.toList.head? ≠ some 'p') :
    ruleNameForPolicy policyId ≠ n := by
  rintro rfl
  apply hn
  unfold ruleNameForPolicy
  rw [String.toList_ofList]
  rfl

/-- A rule that refers to another rule. -/
theorem holds_rule (h : Head) (n : String) (b : Bool) (rules sets) (input : Json) :
    (Rule.mk h [.rule n] b).holds rules sets input = rules n := by
  simp [Rule.holds, Expr.holds]

theorem holds_countZero (h : Head) (n : String) (b : Bool) (rules sets) (input : Json) :
    (Rule.mk h [.countZero n] b).holds rules sets input = (sets n).isEmpty := by
  simp [Rule.holds, Expr.holds]

theorem policyRule_holds (p : RuntimePolicy) (rules sets) (input : Json) :
    (policyRule p).holds rules sets input = ruleHolds p input := by
  have hscope := scopeExprs_all p input rules sets
  have hcond : ∀ c : Condition, (conditionExpr c).holds rules sets input =
      (conditionExpr c).holds (fun _ => false) (fun _ => []) input := by
    intro c
    unfold conditionExpr
    cases c.operator <;> rfl
  rw [ruleHolds_eq]
  simp only [Rule.holds, policyRule, policyBody, List.all_append, hscope, List.all_map,
    Function.comp_def, hcond]

/-- The rule of some policy under this name holds. -/
def nameHolds (ps : List RuntimePolicy) (input : Json) (n : String) : Prop :=
  ∃ q ∈ ps, ruleNameForPolicy q.id = n ∧ ruleHolds q input = true

theorem mem_rules {ps : List RuntimePolicy} {r : Rule} :
    r ∈ (intendedModule ps).rules ↔ (∃ p ∈ ps, r = policyRule p) ∨
      (∃ p ∈ ps, r = ⟨.bool (effectRuleName p.effect), [.rule (ruleNameForPolicy p.id)], true⟩) ∨
      (∃ p ∈ ps, r = evaluatedRule p) ∨ (∃ p ∈ ps, reasonRule p = some r) ∨ r ∈ fallbackRules := by
  have haggregate : (∃ p ∈ ps, r = ⟨.bool (effectRuleName p.effect),
      [.rule (ruleNameForPolicy p.id)], true⟩) ↔ r ∈ aggregateRules ps .allow ∨
        r ∈ aggregateRules ps .deny ∨ r ∈ aggregateRules ps .requireHumanReview := by
    simp only [aggregateRules, List.mem_map, List.mem_filter, decide_eq_true_eq]
    constructor
    · rintro ⟨p, hp, rfl⟩
      cases he : p.effect
      · exact .inl ⟨p, ⟨hp, he⟩, rfl⟩
      · exact .inr (.inl ⟨p, ⟨hp, he⟩, rfl⟩)
      · exact .inr (.inr ⟨p, ⟨hp, he⟩, rfl⟩)
    · rintro (⟨p, ⟨hp, he⟩, rfl⟩ | ⟨p, ⟨hp, he⟩, rfl⟩ | ⟨p, ⟨hp, he⟩, rfl⟩) <;>
        exact ⟨p, hp, by rw [he]⟩
  rw [haggregate]
  simp only [intendedModule, List.mem_append, List.mem_map, List.mem_filterMap, eq_comm (a := r),
    or_assoc]

section Strata

variable (ps : List RuntimePolicy) (rules : String → Bool) (sets : String → List Json)
  (input : Json) (n : String)

/-- When a boolean of the module is true: a policy's rule, its effect, or the fallback. -/
theorem truth_iff : (intendedModule ps).truth rules sets input n = true ↔
    nameHolds ps input n ∨
      (∃ p ∈ ps, effectRuleName p.effect = n ∧ rules (ruleNameForPolicy p.id) = true) ∨
      (n = "deny" ∧ sets "evaluated_mandates" = []) := by
  simp only [Module.truth, List.any_eq_true, mem_rules, Bool.and_eq_true]
  constructor
  · rintro ⟨r, ⟨p, hp, rfl⟩ | ⟨p, hp, rfl⟩ | ⟨p, hp, rfl⟩ | ⟨p, hp, hr⟩ | hr, hn, hh⟩
    · exact .inl ⟨p, hp, of_decide_eq_true hn, by rwa [policyRule_holds] at hh⟩
    · exact .inr (.inl ⟨p, hp, of_decide_eq_true hn, by rwa [holds_rule] at hh⟩)
    · cases hn
    · unfold reasonRule at hr
      split at hr <;> cases hr <;> cases hn
    · simp only [fallbackRules, List.mem_cons, List.not_mem_nil, or_false] at hr
      rcases hr with rfl | rfl
      · rw [holds_countZero, List.isEmpty_iff] at hh
        exact .inr (.inr ⟨(of_decide_eq_true hn).symm, hh⟩)
      · cases hn
  · rintro (⟨p, hp, rfl, hh⟩ | ⟨p, hp, rfl, hh⟩ | ⟨rfl, hh⟩)
    · exact ⟨_, .inl ⟨p, hp, rfl⟩, by simp [policyRule, Head.isBool], by rwa [policyRule_holds]⟩
    · exact ⟨_, .inr (.inl ⟨p, hp, rfl⟩), by simp [Head.isBool], by rwa [holds_rule]⟩
    · exact ⟨_, .inr (.inr (.inr (.inr List.mem_cons_self))), rfl, by simp [holds_countZero, hh]⟩

theorem mem_elements {v : Json} :
    v ∈ (intendedModule ps).elements rules sets input n ↔ n = "evaluated_mandates" ∧
      ∃ p ∈ ps, v = .str p.id ∧ rules (ruleNameForPolicy p.id) = true := by
  simp only [Module.elements, List.mem_filterMap, mem_rules, Option.ite_none_right_eq_some]
  constructor
  · rintro ⟨r, ⟨p, hp, rfl⟩ | ⟨p, hp, rfl⟩ | ⟨p, hp, rfl⟩ | ⟨p, hp, hr⟩ | hr, hh, hv⟩
    · cases hv
    · cases hv
    · simp only [evaluatedRule, Head.element?, Option.ite_none_right_eq_some, Option.some.injEq,
        holds_rule] at hv hh
      exact ⟨hv.1.symm, p, hp, hv.2.symm, hh⟩
    · unfold reasonRule at hr
      split at hr <;> cases hr <;> cases hv
    · simp only [fallbackRules, List.mem_cons, List.not_mem_nil, or_false] at hr
      rcases hr with rfl | rfl <;> cases hv
  · rintro ⟨rfl, p, hp, rfl, hh⟩
    exact ⟨_, .inr (.inr (.inl ⟨p, hp, rfl⟩)), by simpa [evaluatedRule, holds_rule] using hh,
      by simp [evaluatedRule, Head.element?]⟩

/-- Which reasons a module gives. -/
theorem mem_values {v : Json} (h : v ∈ (intendedModule ps).values rules sets input n) :
    (∃ p ∈ ps, p.effect ≠ .allow ∧ v = .str ("policy_matched:" ++ p.id) ∧
        rules (ruleNameForPolicy p.id) = true ∧
        n = (if p.effect = .deny then "deny_reason" else "review_reason")) ∨
      (n = "deny_reason" ∧ v = .str "no_policy_covers_scope" ∧ sets "evaluated_mandates" = []) := by
  simp only [Module.values, List.mem_filterMap, mem_rules, Option.ite_none_right_eq_some] at h
  obtain ⟨r, ⟨p, hp, rfl⟩ | ⟨p, hp, rfl⟩ | ⟨p, hp, rfl⟩ | ⟨p, hp, hr⟩ | hr, hh, hv⟩ := h
  · cases hv
  · cases hv
  · cases hv
  · unfold reasonRule at hr
    split at hr
    · next he =>
      cases hr
      simp only [Head.assigned?, Option.ite_none_right_eq_some, Option.some.injEq,
        holds_rule] at hv hh
      exact .inl ⟨p, hp, by simp [he], hv.2.symm, hh, by simp [he, hv.1]⟩
    · next he =>
      cases hr
      simp only [Head.assigned?, Option.ite_none_right_eq_some, Option.some.injEq,
        holds_rule] at hv hh
      exact .inl ⟨p, hp, by simp [he], hv.2.symm, hh, by simp [he, hv.1]⟩
    · cases hr
  · simp only [fallbackRules, List.mem_cons, List.not_mem_nil, or_false] at hr
    rcases hr with rfl | rfl
    · cases hv
    · simp only [Head.assigned?, Option.ite_none_right_eq_some, Option.some.injEq,
        holds_countZero, List.isEmpty_iff] at hv hh
      exact .inr ⟨hv.1.symm, hv.2.symm, hh⟩

end Strata

/-! The three strata of an intended module. -/

variable {ps : List RuntimePolicy} {input : Json}

theorem base_iff (ps : List RuntimePolicy) (input : Json) (n : String) :
    (intendedModule ps).base input n = true ↔ nameHolds ps input n := by
  rw [Module.base, truth_iff]
  simp

theorem mem_evaluated {v : Json} : v ∈ (intendedModule ps).sets₁ input "evaluated_mandates" ↔
    ∃ p ∈ ps, v = .str p.id ∧ nameHolds ps input (ruleNameForPolicy p.id) := by
  rw [Module.sets₁, mem_elements]
  simp [base_iff]

theorem evaluated_nil : (intendedModule ps).sets₁ input "evaluated_mandates" = [] ↔
    ∀ p ∈ ps, ruleHolds p input = false := by
  rw [List.eq_nil_iff_forall_not_mem]
  constructor
  · intro h p hp
    by_contra hholds
    exact h (.str p.id) (mem_evaluated.2 ⟨p, hp, rfl, p, hp, rfl, eq_true_of_ne_false hholds⟩)
  · intro h v hv
    obtain ⟨-, -, -, q, hq, -, hholds⟩ := mem_evaluated.1 hv
    simp [h q hq] at hholds

/-- What decides an outcome of the module: a policy whose name holds, or the fallback. -/
theorem isTrue_effect (e : Effect) :
    (intendedModule ps).isTrue input (effectRuleName e) = true ↔
      (∃ p ∈ ps, p.effect = e ∧ nameHolds ps input (ruleNameForPolicy p.id)) ∨
      (e = .deny ∧ ∀ p ∈ ps, ruleHolds p input = false) := by
  have hname : ¬ nameHolds ps input (effectRuleName e) := by
    rintro ⟨q, -, hq, -⟩
    exact ruleName_ne q.id (by cases e <;> decide) hq
  have heffect : ∀ e' : Effect, effectRuleName e' = effectRuleName e ↔ e' = e := by
    intro e'
    cases e <;> cases e' <;> decide
  have hdeny : effectRuleName e = "deny" ↔ e = .deny := heffect .deny |> fun h => by
    rw [← eq_comm (a := Effect.deny), ← h]
    exact eq_comm
  rw [Module.isTrue, truth_iff]
  simp only [hname, false_or, heffect, base_iff, hdeny, evaluated_nil]

/-! ## One policy decides -/

/-- What the claim of a single decision asks on one input. -/
structure OneDecides (ps : List RuntimePolicy) (b : PolicyBundle) (input : Json) : Prop where
  readAs : read b.regoSource = (intendedModule ps).lines
  bodies : ps.Pairwise fun p q => ¬ (ruleHolds p input = true ∧ ruleHolds q input = true)
  effects : ∀ e e' : Effect, (intendedModule ps).isTrue input (effectRuleName e) = true →
    (intendedModule ps).isTrue input (effectRuleName e') = true → e = e'
  reasons : ∀ n, ∀ v ∈ (intendedModule ps).assigned input n,
    ∀ w ∈ (intendedModule ps).assigned input n, v = w

/-- Policies that decide the same thing and give the same reason for it. -/
def decideAlike (p q : RuntimePolicy) : Prop :=
  p.effect = q.effect ∧ (p.effect = .allow ∨ p.id = q.id)

/-- What the compiler would have to check: spliced fields are identifiers, the overlap check with
Rego's comparisons separates every pair, and one rule name stands for one decision. -/
structure Separable (ps : List RuntimePolicy) : Prop where
  plain : ∀ p ∈ ps, plainFields p
  apart : ps.Pairwise fun p q => policiesCanJointlyMatch .rego p q = .ok false
  names : ∀ p ∈ ps, ∀ q ∈ ps, ruleNameForPolicy p.id = ruleNameForPolicy q.id → decideAlike p q

theorem Separable.bodies (h : Separable ps) (input : Json) :
    ps.Pairwise fun p q => ¬ (ruleHolds p input = true ∧ ruleHolds q input = true) :=
  h.apart.imp fun hpq ⟨hp, hq⟩ => not_both_hold hpq hp hq

/-- Whatever holds is one policy. -/
theorem Separable.eq_of_holds (h : Separable ps) {p q : RuntimePolicy} (hp : p ∈ ps) (hq : q ∈ ps)
    (hhp : ruleHolds p input = true) (hhq : ruleHolds q input = true) : p = q := by
  by_contra hne
  have : Std.Symm fun p q : RuntimePolicy =>
      ¬ (ruleHolds p input = true ∧ ruleHolds q input = true) := ⟨fun _ _ h h' => h h'.symm⟩
  exact (h.bodies input).forall hp hq hne ⟨hhp, hhq⟩

/-- The policy that decides an outcome. -/
theorem Separable.decider (h : Separable ps) {e : Effect}
    (he : (intendedModule ps).isTrue input (effectRuleName e) = true) :
    (∃ q ∈ ps, q.effect = e ∧ ruleHolds q input = true) ∨
      (e = .deny ∧ ∀ p ∈ ps, ruleHolds p input = false) := by
  rcases (isTrue_effect e).1 he with ⟨p, hp, hpe, q, hq, hname, hhq⟩ | hnone
  · exact .inl ⟨q, hq, (h.names q hq p hp hname).1.trans hpe, hhq⟩
  · exact .inr hnone

theorem Separable.effects (h : Separable ps) {e e' : Effect}
    (he : (intendedModule ps).isTrue input (effectRuleName e) = true)
    (he' : (intendedModule ps).isTrue input (effectRuleName e') = true) : e = e' := by
  rcases h.decider he with ⟨q, hq, rfl, hhq⟩ | ⟨rfl, hnone⟩ <;>
    rcases h.decider he' with ⟨q', hq', rfl, hhq'⟩ | ⟨rfl, hnone'⟩
  · rw [h.eq_of_holds hq hq' hhq hhq']
  · simp [hnone' q hq] at hhq
  · simp [hnone q' hq'] at hhq'
  · rfl

/-- The reason of an outcome: the policy that decides, or that none does. -/
theorem Separable.reason (h : Separable ps) {n : String} {v : Json}
    (hv : v ∈ (intendedModule ps).assigned input n) :
    (∃ q ∈ ps, v = .str ("policy_matched:" ++ q.id) ∧ ruleHolds q input = true) ∨
      (v = .str "no_policy_covers_scope" ∧ ∀ p ∈ ps, ruleHolds p input = false) := by
  rcases mem_values ps _ _ input n hv with ⟨p, hp, hallow, rfl, hname, -⟩ | ⟨-, rfl, hnone⟩
  · obtain ⟨q, hq, hqp, hhq⟩ := (base_iff ps input _).1 hname
    obtain ⟨heffect, hid⟩ := h.names q hq p hp hqp
    have : q.id = p.id := hid.resolve_left fun hqa => hallow (heffect.symm.trans hqa)
    exact .inl ⟨q, hq, by rw [this], hhq⟩
  · exact .inr ⟨rfl, evaluated_nil.1 hnone⟩

/-- **At most one policy decides**, on every input, where the bundle is accepted and its policies
are separable. -/
theorem compileBundle_oneDecides {vocabulary : Vocabulary} {ps : List RuntimePolicy}
    {bundleId : String} {bundleVersion : Int} {now : Timestamp} {b : PolicyBundle}
    {errors : List CompilerError}
    (h : CompilerV2.compileBundle vocabulary ps bundleId bundleVersion now = .ok ⟨some b, errors⟩)
    (hs : Separable ps) (input : Json) : OneDecides ps b input := by
  obtain ⟨-, -, -, hb⟩ := CompilerV2.compileBundle_ok h
  obtain ⟨rules, hrules, hsource, -⟩ := CompilerV2.buildBundle_ok hb
  refine ⟨hsource ▸ (read_regoSource hrules).2 hs.plain, hs.bodies input,
    fun e e' he he' => hs.effects he he', fun n v hv w hw => ?_⟩
  rcases hs.reason hv with ⟨q, hq, rfl, hhq⟩ | ⟨rfl, hnone⟩ <;>
    rcases hs.reason hw with ⟨q', hq', rfl, hhq'⟩ | ⟨rfl, hnone'⟩
  · rw [hs.eq_of_holds hq hq' hhq hhq']
  · simp [hnone' q hq] at hhq
  · simp [hnone q' hq'] at hhq'
  · rfl

/-! Two policies split by amount, which are separable, and a policy on the score `true` beside one on
scores up to zero: Python takes `true` for `1`, Rego puts it below every number. -/

def smallAmounts : RuntimePolicy := paymentPolicy [⟨"amount", .lte, .int 100⟩]

def largeAmounts : RuntimePolicy :=
  { paymentPolicy [⟨"amount", .gt, .int 100⟩] with id := "large", effect := .requireHumanReview }

theorem compileBundle_oneDecides_amounts :
    ∃ b, CompilerV2.compileBundle CompilerV2.genericVocabulary [smallAmounts, largeAmounts] "b" 1 0
        = .ok ⟨some b, []⟩ ∧ OneDecides [smallAmounts, largeAmounts] b .null := by
  obtain ⟨b, h⟩ := CompilerV2.exists_bundle CompilerV2.genericVocabulary
    [smallAmounts, largeAmounts] (by decide +kernel) (by decide +kernel) ⟨_, rfl⟩ "b" 1 0
  refine ⟨b, h, compileBundle_oneDecides h ⟨?_, ?_, ?_⟩ _⟩
  · simp only [List.forall_mem_cons, plainFields, splicesField, identifiers, smallAmounts,
      largeAmounts, paymentPolicy, List.not_mem_nil, false_implies, implies_true, and_true]
    decide
  · simp only [List.pairwise_cons, List.forall_mem_cons, List.not_mem_nil, false_implies,
      implies_true, and_true, List.Pairwise.nil]
    decide +kernel
  · simp only [List.forall_mem_cons, List.not_mem_nil, false_implies, implies_true, and_true,
      decideAlike]
    decide

/-- A payment whose caller sent `true` for the score. -/
def scoreTrue : Json := .obj
  [("intent", .obj [("action", .str "vendor_payment")]),
    ("context", .obj [("score", .bool true)]),
    ("agent", .obj [("id", .str "a"), ("acting_for_principal_id", .str "ops")])]

def goodScore : RuntimePolicy := paymentPolicy [⟨"context.score", .eq, .bool true⟩]

def lowScore : RuntimePolicy :=
  { paymentPolicy [⟨"context.score", .lte, .int 0⟩] with id := "low", effect := .deny }

theorem compileBundle_bothDecide :
    ∃ b, CompilerV2.compileBundle CompilerV2.genericVocabulary [goodScore, lowScore] "b" 1 0
        = .ok ⟨some b, []⟩ ∧ ¬ OneDecides [goodScore, lowScore] b scoreTrue := by
  obtain ⟨b, h⟩ := CompilerV2.exists_bundle CompilerV2.genericVocabulary
    [goodScore, lowScore] (by decide +kernel) (by decide +kernel) ⟨_, rfl⟩ "b" 1 0
  refine ⟨b, h, fun hone => ?_⟩
  have hboth : ruleHolds goodScore scoreTrue = true ∧ ruleHolds lowScore scoreTrue = true := by
    decide +kernel
  exact List.rel_of_pairwise_cons hone.bodies List.mem_cons_self hboth

end PayReality
