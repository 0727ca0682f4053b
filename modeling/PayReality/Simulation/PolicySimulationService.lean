import PayReality.Decision.Outcomes
import PayReality.Simulation.Explainer

/-!
# Simulation

`policy_simulation_service.py` and `dry_run.py`: policies are compiled, loaded into OPA under a
package of their own, and asked about an intent. The intent has the keys that were supplied, where
production has all of them, and there is no agent.

**Main results** `simulate_parity` and `simulate_agrees`: where a simulation decides as production
does.
-/

namespace PayReality

open Rego RegoGenerator

/-! ## Dry runs -/

/-- `DryRunResult`. -/
structure DryRunResult where
  allow : Json
  deny : Json
  requiresReview : Json
  evaluatedMandates : List Json
  reviewReason : Json
  denyReason : Json

/-- `list(v)` of a list; any other value OPA does not send. -/
def Json.listOf : Json → Except PyError (List Json)
  | .arr xs => .ok xs
  | _ => .error .typeError

/-- A reply that `raise_for_status` lets through, as JSON; anything else fails the dry run. -/
def OpaReply.json : OpaReply → Except PyError Json
  | .timeout | .transportError => .error .dryRun
  | .response status body =>
    if status / 100 ≠ 2 then .error .dryRun
    else
      match body with
      | none => .error .valueError
      | some body => .ok body

/-- `dry_run`, where OPA has loaded the module under a package of its own. -/
def dryRun (m : Module) (token : String) (sampleInput : Json) : Except PyError DryRunResult := do
  let body ← (({ m with package := ["payreality", "dryrun", token] } : Module).reply sampleInput).json
  let result := (← body.dictGet "result").getD (.obj [])
  let allow := (← result.dictGet "allow").getD (.bool false)
  let deny := (← result.dictGet "deny").getD (.bool false)
  let requiresReview := (← result.dictGet "requires_review").getD (.bool false)
  let evaluatedMandates ← ((← result.dictGet "evaluated_mandates").getD (.arr [])).listOf
  let reviewReason := (← result.dictGet "review_reason").getD .null
  let denyReason := (← result.dictGet "deny_reason").getD .null
  return { allow, deny, requiresReview, evaluatedMandates, reviewReason, denyReason }

namespace PolicySimulationService

open Explainer

/-- `SimulationInput`, without the name that is only shown. -/
structure SimulationInput where
  principal : String
  action : String
  resource : Option String := none
  amount : Option ℚ := none
  currency : Option String := none
  context : List (String × Json) := []

/-- `SimulationInput.to_intent`. -/
def SimulationInput.toIntent (s : SimulationInput) : List (String × Json) :=
  ("action", .str s.action) ::
    ((s.resource.map fun r => ("resource", .str r)).toList ++
      (s.amount.map fun a => ("amount", .float a)).toList ++
      (s.currency.map fun c => ("currency", .str c)).toList)

/-- `SimulationResult`: what is decided, and why. -/
structure SimulationResult where
  decision : Outcome
  reviewReason : Json
  denyReason : Json
  rules : List RuleEvaluation

/-- `_decision_from_flags`. -/
def decisionFromFlags (allow deny requiresReview : Bool) : Outcome :=
  if requiresReview then .humanReview
  else if allow && !deny then .allow
  else if deny then .deny
  else .humanReview

/-- `simulate`, for the policy and the other active ones, and the facts that were resolved. -/
def simulate (allPolicies : List RuntimePolicy) (bundleId : String) (version : ℕ) (now : Timestamp)
    (token : String) (simInput : SimulationInput) (enterpriseKnowledge : List (String × Json)) :
    Except PyError SimulationResult := do
  let compiled ← CompilerV2.compileBundle CompilerV2.genericVocabulary allPolicies bundleId version now
  match compiled.bundle with
  | none => throw .compilationRequired
  | some _ =>
    let r ← dryRun (intendedModule allPolicies) token
      (Engine.buildOpaInput (.obj simInput.toIntent) (.obj simInput.context) simInput.principal
        version none enterpriseKnowledge)
    return {
      decision := decisionFromFlags r.allow.truthy r.deny.truthy r.requiresReview.truthy
      reviewReason := r.reviewReason
      denyReason := r.denyReason
      rules := buildRuleEvaluations allPolicies simInput.toIntent simInput.context simInput.principal
        r.evaluatedMandates }

/-! ## The decision -/

variable {ps : List RuntimePolicy} {bundleId token : String} {version : ℕ} {now : Timestamp}
  {simInput : SimulationInput} {knowledge : List (String × Json)}

/-- What OPA is asked in a simulation. -/
def SimulationInput.opaInput (s : SimulationInput) (version : ℕ) (knowledge : List (String × Json)) :
    Json :=
  Engine.buildOpaInput (.obj s.toIntent) (.obj s.context) s.principal version none knowledge

/-- A dry run of a module that has an answer. -/
theorem dryRun_ok (token : String) {input document : Json}
    (h : (intendedModule ps).answer input = .ok document) :
    ∃ r, dryRun (intendedModule ps) token input = .ok r ∧
      r.allow = .bool ((intendedModule ps).isTrue input "allow") ∧
      r.deny = .bool ((intendedModule ps).isTrue input "deny") ∧
      r.requiresReview = .bool ((intendedModule ps).isTrue input "requires_review") := by
  have hallow := Engine.answer_get? h (n := "allow") (by simp)
  have hdeny := Engine.answer_get? h (n := "deny") (by simp)
  have hreview := Engine.answer_get? h (n := "requires_review") (by simp)
  obtain ⟨xs, hxs⟩ := Engine.answer_evaluated h
  obtain ⟨kvs, rfl⟩ := Engine.answer_obj h
  have hreply : ({ intendedModule ps with package := ["payreality", "dryrun", token] } :
      Module).reply input = .response 200 (some (.obj [("result", .obj kvs)])) := by
    show (intendedModule ps).reply input = _
    rw [Module.reply, h]
  refine ⟨⟨_, _, _, xs, ((Json.obj kvs).get? "review_reason").getD .null,
    ((Json.obj kvs).get? "deny_reason").getD .null⟩, ?_, rfl, rfl, rfl⟩
  have hjson : (OpaReply.response 200 (some (.obj [("result", .obj kvs)]))).json =
      .ok (.obj [("result", .obj kvs)]) := rfl
  have hbody : (Json.obj [("result", .obj kvs)]).dictGet "result" = .ok (some (.obj kvs)) := rfl
  have hresult : ∀ k, (Json.obj kvs).dictGet k = .ok ((Json.obj kvs).get? k) := fun _ => rfl
  unfold dryRun
  simp only [hreply, hjson, hbody, hresult, hallow, hdeny, hreview, hxs, Json.listOf, bind,
    Except.bind, pure, Except.pure, Option.getD_some]

theorem dryRun_error {input : Json} (h : (intendedModule ps).answer input = .error ()) :
    dryRun (intendedModule ps) token input = .error .dryRun := by
  have hreply : ({ intendedModule ps with package := ["payreality", "dryrun", token] } :
      Module).reply input = .response 500 none := by
    show (intendedModule ps).reply input = _
    rw [Module.reply, h]
  unfold dryRun
  rw [hreply]
  rfl

/-- **A simulation decides as the module does**, unless the reasons conflict: then it fails. -/
theorem simulate_decision (h : Deployable CompilerV2.genericVocabulary ps) :
    (simulate ps bundleId version now token simInput knowledge).map SimulationResult.decision =
      match (intendedModule ps).answer (simInput.opaInput version knowledge) with
      | .ok _ => .ok (Engine.outcomeOf ps (simInput.opaInput version knowledge))
      | .error _ => .error .dryRun := by
  obtain ⟨b, hb⟩ := h.bundle bundleId version now
  have hsim : simulate ps bundleId version now token simInput knowledge =
      (dryRun (intendedModule ps) token (simInput.opaInput version knowledge)).map fun r =>
        { decision := decisionFromFlags r.allow.truthy r.deny.truthy r.requiresReview.truthy
          reviewReason := r.reviewReason
          denyReason := r.denyReason
          rules := buildRuleEvaluations ps simInput.toIntent simInput.context simInput.principal
            r.evaluatedMandates } := by
    unfold simulate
    rw [hb]
    show (dryRun _ token (simInput.opaInput version knowledge) >>= _) = _
    cases dryRun (intendedModule ps) token (simInput.opaInput version knowledge) <;> rfl
  rw [hsim]
  cases hanswer : (intendedModule ps).answer (simInput.opaInput version knowledge) with
  | error e =>
    rw [dryRun_error hanswer]
    rfl
  | ok document =>
    obtain ⟨r, hr, hallow, hdeny, hreview⟩ := dryRun_ok token hanswer
    rw [hr]
    show Except.ok (decisionFromFlags _ _ _) = _
    rw [hallow, hdeny, hreview, Engine.outcomeOf, hanswer]
    rfl

/-! ## Omitted fields -/

variable {intent : Intent} {context : List (String × Json)} {principal agentId : String}

/-- The simulation of an intent, acting for a principal and in a context. -/
def simulationOf (intent : Intent) (context : List (String × Json)) (principal : String) :
    SimulationInput where
  principal
  action := intent.action
  resource := intent.resource
  amount := intent.amount
  currency := intent.currency
  context

/-- A comparison of a field that was left out. -/
def ComparesOmitted (intent : Intent) (c : Condition) : Prop :=
  c.operator ≠ .exist ∧ (fieldSection c.field).1 = "intent" ∧
    ∃ k, intent.omits k ∧ fieldKeys c.field = [k]

/-- An `exists false` below a field that was left out. -/
def AsksBelowOmitted (intent : Intent) (c : Condition) : Prop :=
  c.operator = .exist ∧ c.value.isTrue = false ∧ (fieldSection c.field).1 = "intent" ∧
    ∃ k ks, intent.omits k ∧ ks ≠ [] ∧ fieldKeys c.field = k :: ks

/-- What production asks OPA about an intent. -/
def productionInput (intent : Intent) (context : List (String × Json)) (principal agentId : String)
    (version : ℕ) (knowledge : List (String × Json)) : Json :=
  Engine.buildOpaInput (IntentService.intentSection intent) (.obj context) principal version
    (some agentId) knowledge

theorem get?_toIntent (k : String) :
    (Json.obj (simulationOf intent context principal).toIntent).get? k =
      if k = "action" then some (.str intent.action)
      else if k = "resource" then intent.resource.map .str
      else if k = "amount" then intent.amount.map .float
      else if k = "currency" then intent.currency.map .str
      else none := by
  rcases intent with ⟨_, _, _, action, amount, currency, _, resource, _, _, _, _⟩
  by_cases h1 : k = "action"
  · subst h1
    cases resource <;> cases amount <;> cases currency <;> rfl
  by_cases h2 : k = "resource"
  · subst h2
    cases resource <;> cases amount <;> cases currency <;> rfl
  by_cases h3 : k = "amount"
  · subst h3
    cases resource <;> cases amount <;> cases currency <;> rfl
  by_cases h4 : k = "currency"
  · subst h4
    cases resource <;> cases amount <;> cases currency <;> rfl
  have h1' := Ne.symm h1
  have h2' := Ne.symm h2
  have h3' := Ne.symm h3
  have h4' := Ne.symm h4
  cases resource <;> cases amount <;> cases currency <;>
    simp [Json.get?, simulationOf, SimulationInput.toIntent, h1, h2, h3, h4, h1', h2', h3', h4']

theorem get?_intentSection (k : String) :
    (IntentService.intentSection intent).get? k =
      if k = "action" then some (.str intent.action)
      else if k = "resource" then some (.ofText intent.resource)
      else if k = "amount" then some (.ofFloat intent.amount)
      else if k = "currency" then some (.ofText intent.currency)
      else none := by
  by_cases h1 : k = "action"
  · subst h1; rfl
  by_cases h2 : k = "resource"
  · subst h2; rfl
  by_cases h3 : k = "amount"
  · subst h3; rfl
  by_cases h4 : k = "currency"
  · subst h4; rfl
  have h1' := Ne.symm h1
  have h2' := Ne.symm h2
  have h3' := Ne.symm h3
  have h4' := Ne.symm h4
  simp [Json.get?, IntentService.intentSection, h1, h2, h3, h4, h1', h2', h3', h4']

/-- **The two intents differ in the omitted keys**: `null` in production, missing in a simulation. -/
theorem get?_omitted (context : List (String × Json)) (principal : String) {k : String} (h : intent.omits k) :
    (IntentService.intentSection intent).get? k = some .null ∧
      (Json.obj (simulationOf intent context principal).toIntent).get? k = none := by
  rw [get?_intentSection, get?_toIntent]
  rcases h with ⟨rfl, h⟩ | ⟨rfl, h⟩ | ⟨rfl, h⟩ <;> simp [h, Json.ofFloat, Json.ofText]

theorem get?_supplied {k : String} (h : ¬ intent.omits k) :
    (Json.obj (simulationOf intent context principal).toIntent).get? k =
      (IntentService.intentSection intent).get? k := by
  rw [get?_intentSection, get?_toIntent]
  simp only [Intent.omits, not_or, not_and] at h
  by_cases h1 : k = "action"
  · simp [h1]
  by_cases h2 : k = "resource"
  · obtain ⟨r, hr⟩ := Option.ne_none_iff_exists'.1 (h.2.2 h2)
    simp [h2, hr, Json.ofText]
  by_cases h3 : k = "amount"
  · obtain ⟨a, ha⟩ := Option.ne_none_iff_exists'.1 (h.1 h3)
    simp [h3, ha, Json.ofFloat]
  by_cases h4 : k = "currency"
  · obtain ⟨c, hc⟩ := Option.ne_none_iff_exists'.1 (h.2.1 h4)
    simp [h4, hc, Json.ofText]
  simp [h1, h2, h3, h4]

/-! ### Conditions -/

/-- A chain of `object.get` calls reads one member of an object. -/
theorem nestedGet_congr {kvs kvs' : List (String × Json)} {k : String}
    (h : (Json.obj kvs).get? k = (Json.obj kvs').get? k) (ks : List String) :
    nestedGet (some (.obj kvs)) (k :: ks) = nestedGet (some (.obj kvs')) (k :: ks) := by
  cases ks <;> simp [nestedGet, objectGet, h]

theorem expressionHolds_congr {c : Condition} {k : String} {ks : List String}
    (hkeys : fieldKeys c.field = k :: ks) {kvs kvs' : List (String × Json)}
    (h : (Json.obj kvs).get? k = (Json.obj kvs').get? k) :
    expressionHolds c (.obj kvs) = expressionHolds c (.obj kvs') := by
  unfold expressionHolds
  rw [hkeys, nestedGet_congr h ks, Json.lookup, Json.lookup, h]

/-- What an expression makes of a key that is `null`, and of one that is missing. -/
theorem expressionHolds_omitted {c : Condition} {k : String} {ks : List String}
    (hkeys : fieldKeys c.field = k :: ks) {kvs kvs' : List (String × Json)}
    (hnull : (Json.obj kvs).get? k = some .null) (hnone : (Json.obj kvs').get? k = none) :
    (c.operator ≠ .exist → (expressionHolds c (.obj kvs) = true → ks = []) ∧
        expressionHolds c (.obj kvs') = false) ∧
      (c.operator = .exist → ks = [] →
        expressionHolds c (.obj kvs) = expressionHolds c (.obj kvs')) ∧
      (c.operator = .exist → ks ≠ [] → expressionHolds c (.obj kvs) = false ∧
        expressionHolds c (.obj kvs') = !c.value.isTrue) := by
  refine ⟨fun hop => ⟨fun h => ?_, ?_⟩, fun hop hks => ?_, fun hop hks => ?_⟩
  · rw [expressionHolds, if_neg hop, hkeys, Json.lookup, hnull, Option.bind_some] at h
    cases ks with
    | nil => rfl
    | cons k' ks => simp [Json.lookup, Json.get?] at h
  · rw [expressionHolds, if_neg hop, hkeys, Json.lookup, hnone]
    rfl
  · rw [expressionHolds, if_pos hop, expressionHolds, if_pos hop, hkeys, hks]
    simp [nestedGet, objectGet, hnull, hnone]
  · obtain ⟨k', ks, rfl⟩ := List.exists_cons_of_ne_nil hks
    have hempty : ¬ blockedAt (.obj []) (k' :: ks) := by simp [blockedAt_cons, isObject, Json.get?]
    have hopen := (nestedGet_eq (v := .obj []) (show k' :: ks ≠ [] by simp)).2 hempty
    have hblocked := (nestedGet_eq (v := .null) (show k' :: ks ≠ [] by simp)).1
      (blockedAt_cons.2 (.inl rfl))
    rw [expressionHolds, if_pos hop, expressionHolds, if_pos hop, hkeys]
    simp only [nestedGet, objectGet, hnull, hnone, Option.getD_some, Option.getD_none]
    rw [hopen, hblocked]
    simp [Json.lookup, Json.get?, isNull]

section

variable {c : Condition} (context principal agentId version knowledge)

/-- A condition of another section, or of a key that was supplied. -/
theorem condition_supplied (h : (fieldSection c.field).1 = "intent" →
    ∀ k ks, fieldKeys c.field = k :: ks → ¬ intent.omits k) (rules sets) :
    (conditionExpr c).holds rules sets
        (productionInput intent context principal agentId version knowledge) =
      (conditionExpr c).holds rules sets
        ((simulationOf intent context principal).opaInput version knowledge) := by
  obtain ⟨k, ks, hkeys⟩ := List.exists_cons_of_ne_nil (fieldKeys_ne_nil c.field)
  rw [productionInput, SimulationInput.opaInput, IntentService.intentSection, conditionExpr_section,
    conditionExpr_section]
  rcases fieldSection_cases c.field with hs | hs | hs
  · simp [sectionOf, hs, simulationOf]
  · simp [sectionOf, hs]
  · simp only [sectionOf, hs]
    exact expressionHolds_congr hkeys (get?_supplied (h hs k ks hkeys)).symm

/-- A condition on a key that was left out, or below it. -/
theorem condition_omitted (hs : (fieldSection c.field).1 = "intent") {k : String} {ks : List String}
    (hkeys : fieldKeys c.field = k :: ks) (homits : intent.omits k) (rules sets) :
    (c.operator ≠ .exist → ((conditionExpr c).holds rules sets
          (productionInput intent context principal agentId version knowledge) = true → ks = []) ∧
        (conditionExpr c).holds rules sets
          ((simulationOf intent context principal).opaInput version knowledge) = false) ∧
      (c.operator = .exist → ks = [] → (conditionExpr c).holds rules sets
          (productionInput intent context principal agentId version knowledge) =
        (conditionExpr c).holds rules sets
          ((simulationOf intent context principal).opaInput version knowledge)) ∧
      (c.operator = .exist → ks ≠ [] → (conditionExpr c).holds rules sets
          (productionInput intent context principal agentId version knowledge) = false ∧
        (conditionExpr c).holds rules sets
          ((simulationOf intent context principal).opaInput version knowledge) =
            !c.value.isTrue) := by
  obtain ⟨hnull, hnone⟩ := get?_omitted context principal homits
  rw [productionInput, SimulationInput.opaInput, IntentService.intentSection, conditionExpr_section,
    conditionExpr_section]
  simp only [sectionOf, hs]
  exact expressionHolds_omitted hkeys hnull hnone

/-- **A condition that holds in production**: the simulation loses it if it compares a field that was
left out. -/
theorem condition_production (rules sets)
    (h : (conditionExpr c).holds rules sets
      (productionInput intent context principal agentId version knowledge) = true) :
    (conditionExpr c).holds rules sets
        ((simulationOf intent context principal).opaInput version knowledge) = true ↔
      ¬ ComparesOmitted intent c := by
  by_cases hsupplied : (fieldSection c.field).1 = "intent" →
      ∀ k ks, fieldKeys c.field = k :: ks → ¬ intent.omits k
  · rw [← condition_supplied version knowledge context principal agentId hsupplied, h]
    simp only [true_iff]
    rintro ⟨-, hs, k, homits, hkeys⟩
    exact hsupplied hs k [] hkeys homits
  push Not at hsupplied
  obtain ⟨hs, k, ks, hkeys, homits⟩ := hsupplied
  obtain ⟨hcompare, hexist, hbelow⟩ := condition_omitted version knowledge context
    principal agentId hs hkeys homits rules sets
  by_cases hop : c.operator = .exist
  · have hno : ¬ ComparesOmitted intent c := fun hc => hc.1 hop
    by_cases hks : ks = []
    · rw [← hexist hop hks, h]
      simp [hno]
    · rw [(hbelow hop hks).1] at h
      cases h
  · have hks := (hcompare hop).1 h
    rw [(hcompare hop).2]
    have : ComparesOmitted intent c := ⟨hop, hs, k, homits, hks ▸ hkeys⟩
    simp [this]

/-- **A condition that holds in a simulation**: production loses it if it asks below a field that was
left out. -/
theorem condition_simulation (rules sets)
    (h : (conditionExpr c).holds rules sets
      ((simulationOf intent context principal).opaInput version knowledge) = true) :
    (conditionExpr c).holds rules sets
        (productionInput intent context principal agentId version knowledge) = true ↔
      ¬ AsksBelowOmitted intent c := by
  by_cases hsupplied : (fieldSection c.field).1 = "intent" →
      ∀ k ks, fieldKeys c.field = k :: ks → ¬ intent.omits k
  · rw [condition_supplied version knowledge context principal agentId hsupplied, h]
    simp only [true_iff]
    rintro ⟨-, -, hs, k, ks, homits, -, hkeys⟩
    exact hsupplied hs k ks hkeys homits
  push Not at hsupplied
  obtain ⟨hs, k, ks, hkeys, homits⟩ := hsupplied
  obtain ⟨hcompare, hexist, hbelow⟩ := condition_omitted version knowledge context
    principal agentId hs hkeys homits rules sets
  by_cases hop : c.operator = .exist
  · by_cases hks : ks = []
    · rw [hexist hop hks, h]
      simp only [true_iff]
      rintro ⟨-, -, -, k', ks', -, hne, hkeys'⟩
      rw [hkeys, List.cons.injEq] at hkeys'
      exact hne (hkeys'.2 ▸ hks)
    · obtain ⟨hproduction, hsimulation⟩ := hbelow hop hks
      have hasks : AsksBelowOmitted intent c := by
        rw [hsimulation] at h
        exact ⟨hop, by simpa using h, hs, k, ks, homits, hks, hkeys⟩
      simp [hproduction, hasks]
  · rw [(hcompare hop).2] at h
    cases h

end

/-! ### Policies -/

/-- A policy that production and a simulation judge alike. What matches in production is not narrowed
to an agent and compares no field that was left out; what matches in the simulation does not ask
below one. -/
structure Insensitive (p : RuntimePolicy) (intent : Intent) (production simulation : Json) :
    Prop where
  narrowed : ruleHolds p production = true → p.scope.agent = none
  compares : ruleHolds p production = true → ∀ c ∈ p.conditions, ¬ ComparesOmitted intent c
  asksBelow : ruleHolds p simulation = true → ∀ c ∈ p.conditions, ¬ AsksBelowOmitted intent c

section

variable {p : RuntimePolicy} (version knowledge intent context principal agentId)

/-- The scopes match alike, except that a simulation has no agent. -/
theorem scope_simulation :
    p.scope.matches ((simulationOf intent context principal).opaInput version knowledge) = true ↔
      p.scope.agent = none ∧
        p.scope.matches (productionInput intent context principal agentId version knowledge) =
          true := by
  have haction : ∀ a, textAt ((simulationOf intent context principal).opaInput version knowledge)
      ["intent", "action"] a = textAt (productionInput intent context principal agentId version
        knowledge) ["intent", "action"] a := fun _ => rfl
  have hprincipal : ∀ a, textAt ((simulationOf intent context principal).opaInput version knowledge)
      ["agent", "acting_for_principal_id"] a = textAt (productionInput intent context principal agentId
        version knowledge) ["agent", "acting_for_principal_id"] a := fun _ => rfl
  have hagent : ∀ a, textAt ((simulationOf intent context principal).opaInput version knowledge)
      ["agent", "id"] a = false := fun _ => rfl
  have hresource : ∀ r : String, textAt ((simulationOf intent context principal).opaInput version
      knowledge) ["intent", "resource"] r = textAt (productionInput intent context principal agentId
        version knowledge) ["intent", "resource"] r := by
    intro r
    have hleft : ((simulationOf intent context principal).opaInput version knowledge).lookup
        ["intent", "resource"] = intent.resource.map .str := by
      rcases intent with ⟨_, _, _, _, amount, currency, _, resource, _, _, _, _⟩
      cases resource <;> cases amount <;> cases currency <;> rfl
    have hright : (productionInput intent context principal agentId version knowledge).lookup
        ["intent", "resource"] = some (.ofText intent.resource) := rfl
    unfold textAt
    rw [hleft, hright]
    cases intent.resource <;> rfl
  unfold Scope.matches
  cases p.scope.agent with
  | none => cases p.scope.resource <;> simp [haction, hprincipal, hresource]
  | some a => simp [hagent]

/-- **The rule of a policy is judged alike exactly if the policy is insensitive.** -/
theorem ruleHolds_alike :
    ruleHolds p (productionInput intent context principal agentId version knowledge) =
        ruleHolds p ((simulationOf intent context principal).opaInput version knowledge) ↔
      Insensitive p intent (productionInput intent context principal agentId version knowledge)
        ((simulationOf intent context principal).opaInput version knowledge) := by
  have hrule := fun input => ruleHolds_eq p input
  have hscope := scope_simulation (p := p) version knowledge intent context principal agentId
  constructor
  · intro heq
    have hconditions : ∀ input, ruleHolds p input = true → ∀ c ∈ p.conditions,
        (conditionExpr c).holds (fun _ => false) (fun _ => []) input = true := by
      intro input h
      rw [hrule, Bool.and_eq_true, List.all_eq_true] at h
      exact h.2
    refine ⟨fun h => ?_, fun h c hc => ?_, fun h c hc => ?_⟩
    · rw [heq, hrule, Bool.and_eq_true] at h
      exact (hscope.1 h.1).1
    · exact (condition_production version knowledge context principal agentId _ _
        (hconditions _ h c hc)).1 (hconditions _ (heq ▸ h) c hc)
    · exact (condition_simulation version knowledge context principal agentId _ _
        (hconditions _ h c hc)).1 (hconditions _ (heq ▸ h) c hc)
  · rintro ⟨hnarrowed, hcompares, hasks⟩
    rw [Bool.eq_iff_iff]
    constructor
    · intro h
      have hagent := hnarrowed h
      have hno := hcompares h
      rw [hrule, Bool.and_eq_true, List.all_eq_true] at h ⊢
      refine ⟨hscope.2 ⟨hagent, h.1⟩, fun c hc => ?_⟩
      exact (condition_production version knowledge context principal agentId _ _ (h.2 c hc)).2
        (hno c hc)
    · intro h
      have hno := hasks h
      rw [hrule, Bool.and_eq_true, List.all_eq_true] at h ⊢
      refine ⟨(hscope.1 h.1).2, fun c hc => ?_⟩
      exact (condition_simulation version knowledge context principal agentId _ _ (h.2 c hc)).2
        (hno c hc)

/-- No rule reads the version. -/
theorem ruleHolds_version (p : RuntimePolicy) (version' : ℕ) :
    ruleHolds p (productionInput intent context principal agentId version knowledge) =
      ruleHolds p (productionInput intent context principal agentId version' knowledge) := by
  have hscope : p.scope.matches (productionInput intent context principal agentId version knowledge) =
      p.scope.matches (productionInput intent context principal agentId version' knowledge) := rfl
  rw [ruleHolds_eq, ruleHolds_eq, hscope]
  congr 1
  rw [Bool.eq_iff_iff, List.all_eq_true, List.all_eq_true]
  refine forall₂_congr fun c _ => ?_
  rw [productionInput, productionInput, IntentService.intentSection, conditionExpr_section,
    conditionExpr_section]

end

/-! ## Agreement -/

/-- A simulation of an intent under policies, against production's decision where the same ones are
active. -/
def Agrees (ps qs : List RuntimePolicy) (bundleId : String) (version : ℕ) (now : Timestamp)
    (token : String) (active : ActivePolicy) (intent : Intent) (context : List (String × Json))
    (principal agentId : String) (knowledge : List (String × Json)) : Prop :=
  (simulate ps bundleId version now token (simulationOf intent context principal) knowledge).map
      SimulationResult.decision =
    (Engine.decision qs active (IntentService.intentSection intent) (.obj context) principal
      (some agentId) knowledge).map EngineDecision.outcome

section

variable (version : ℕ) (active : ActivePolicy) (intent : Intent)
  (context : List (String × Json)) (principal agentId : String) (knowledge : List (String × Json))

/-- Insensitive policies: the simulation agrees unless their reasons conflict. -/
theorem agrees_iff {ps qs : List RuntimePolicy} (h : Deployable CompilerV2.genericVocabulary ps)
    (hmem : ∀ p, p ∈ qs ↔ p ∈ ps)
    (halike : ∀ p ∈ ps,
      ruleHolds p (productionInput intent context principal agentId active.version knowledge) =
        ruleHolds p ((simulationOf intent context principal).opaInput version knowledge))
    (bundleId : String) (now : Timestamp) (token : String) :
    Agrees ps qs bundleId version now token active intent context principal agentId knowledge ↔
      Engine.OneReason qs
        (productionInput intent context principal agentId active.version knowledge) := by
  have hproduction : (Engine.decision qs active (IntentService.intentSection intent) (.obj context)
      principal (some agentId) knowledge).map EngineDecision.outcome =
        .ok (Engine.outcomeOf ps
          ((simulationOf intent context principal).opaInput version knowledge)) := by
    rw [Engine.decision_outcome, Engine.outcome_perm hmem]
    exact congrArg _ (Engine.outcome_congr halike)
  rw [Agrees, hproduction, simulate_decision h, Engine.oneReason_congr hmem halike,
    ← Engine.answer_ok_iff]
  cases (intendedModule ps).answer
    ((simulationOf intent context principal).opaInput version knowledge) with
  | error e => simp
  | ok document => simp

/-- **A simulation decides as production does**, for policies that are not narrowed to an agent and
that ask for no field that the intent leaves out, exactly if their reasons do not conflict. -/
theorem simulate_parity {ps qs : List RuntimePolicy}
    (h : Deployable CompilerV2.genericVocabulary ps) (hmem : ∀ p, p ∈ qs ↔ p ∈ ps)
    (hagent : ∀ p ∈ ps, p.scope.agent = none)
    (hfields : ∀ p ∈ ps, ∀ c ∈ p.conditions,
      ¬ ComparesOmitted intent c ∧ ¬ AsksBelowOmitted intent c)
    (bundleId : String) (now : Timestamp) (token : String) :
    Agrees ps qs bundleId version now token active intent context principal agentId knowledge ↔
      Engine.OneReason qs
        (productionInput intent context principal agentId active.version knowledge) := by
  refine agrees_iff version active intent context principal agentId knowledge h hmem ?_ bundleId now
    token
  intro p hp
  rw [ruleHolds_version active.version knowledge intent context principal agentId p version,
    ruleHolds_alike]
  exact ⟨fun _ => hagent p hp, fun _ c hc => (hfields p hp c hc).1,
    fun _ c hc => (hfields p hp c hc).2⟩

theorem oneReason_allow {p : RuntimePolicy} (hp : p.effect = .allow) (input : Json) :
    Engine.OneReason [p] input := by
  intro q hq _ _ _ hne
  obtain rfl := List.mem_singleton.1 hq
  exact absurd hp hne

/-- **The rules that are simulated as they are enforced**: of all sets of policies whose scopes and
conditions are of one kind, exactly those agree whose reasons do not conflict, if and only if every
policy of that kind that can be deployed is insensitive to what a simulation leaves out. -/
theorem simulate_agrees (Q : Scope → List Condition → Prop) (bundleId : String) (now : Timestamp)
    (token : String) :
    (∀ ps qs, Deployable CompilerV2.genericVocabulary ps → (∀ p, p ∈ qs ↔ p ∈ ps) →
      (∀ p ∈ ps, Q p.scope p.conditions) →
      (Agrees ps qs bundleId version now token active intent context principal agentId knowledge ↔
        Engine.OneReason qs
          (productionInput intent context principal agentId active.version knowledge))) ↔
      ∀ p : RuntimePolicy, Q p.scope p.conditions → Deployable CompilerV2.genericVocabulary [p] →
        Insensitive p intent
          (productionInput intent context principal agentId active.version knowledge)
          ((simulationOf intent context principal).opaInput version knowledge) := by
  have halike : ∀ p : RuntimePolicy, ruleHolds p (productionInput intent context principal agentId
      active.version knowledge) = ruleHolds p ((simulationOf intent context principal).opaInput version
        knowledge) ↔ Insensitive p intent (productionInput intent context principal agentId
          active.version knowledge) ((simulationOf intent context principal).opaInput version
            knowledge) := by
    intro p
    have hversion := ruleHolds_version active.version knowledge intent context principal agentId p
      version
    rw [hversion, ruleHolds_alike]
    constructor
    · rintro ⟨hnarrowed, hcompares, hasks⟩
      exact ⟨hversion ▸ hnarrowed, hversion ▸ hcompares, hasks⟩
    · rintro ⟨hnarrowed, hcompares, hasks⟩
      exact ⟨hversion ▸ hnarrowed, hversion ▸ hcompares, hasks⟩
  constructor
  · intro h p hp hdeployable
    have hallow := hdeployable.single List.mem_cons_self .allow
    have hagrees := h [{ p with effect := .allow }] [{ p with effect := .allow }] hallow
      (fun _ => Iff.rfl) fun q hq => by
        obtain rfl := List.mem_singleton.1 hq
        exact hp
    have hone := oneReason_allow (p := { p with effect := .allow }) rfl
    have hsame := hagrees.2 (hone _)
    obtain ⟨document, hdocument⟩ := Engine.answer_ok_iff.2
      (hone ((simulationOf intent context principal).opaInput version knowledge))
    rw [Agrees, simulate_decision hallow, hdocument, Engine.decision_outcome,
      Engine.outcome_single rfl, Engine.outcome_single rfl, Except.ok.injEq] at hsame
    refine (halike p).1 ?_
    show ruleHolds { p with effect := .allow } _ = ruleHolds { p with effect := .allow } _
    rw [Bool.eq_iff_iff]
    split at hsame <;> split at hsame <;> simp_all [productionInput, SimulationInput.opaInput]
  · intro h ps qs hdeployable hmem hQ
    refine agrees_iff version active intent context principal agentId knowledge hdeployable hmem ?_
      bundleId now token
    intro p hp
    exact (halike p).2 (h p (hQ p hp) (hdeployable.single hp p.effect))

end

/-! A payment under a policy that allows payments, and under the same policy narrowed to the agent. -/

def narrowedPolicy : RuntimePolicy :=
  { paymentPolicy [] with scope := ⟨"ops", "vendor_payment", some "agent", none⟩ }

theorem deployable_payment : Deployable CompilerV2.genericVocabulary [paymentPolicy []] where
  accepted := ⟨"b", 1, 0, _, rfl⟩
  plain := by
    intro p hp c hc _
    obtain rfl := List.mem_singleton.1 hp
    cases hc

theorem deployable_narrowed : Deployable CompilerV2.genericVocabulary [narrowedPolicy] where
  accepted := ⟨"b", 1, 0, _, rfl⟩
  plain := by
    intro p hp c hc _
    obtain rfl := List.mem_singleton.1 hp
    cases hc

theorem simulate_parity_payment :
    Agrees [paymentPolicy []] [paymentPolicy []] "b" 1 0 "t" ⟨0, 1, none⟩ noAmount [] "ops" "agent" [] ↔
      Engine.OneReason [paymentPolicy []] (productionInput noAmount [] "ops" "agent" 1 []) := by
  refine simulate_parity 1 ⟨0, 1, none⟩ noAmount [] "ops" "agent" [] deployable_payment
    (fun _ => Iff.rfl) ?_ ?_ "b" 0 "t"
  · intro p hp
    obtain rfl := List.mem_singleton.1 hp
    rfl
  · intro p hp c hc
    obtain rfl := List.mem_singleton.1 hp
    cases hc

theorem simulate_narrowed :
    (∃ b, CompilerV2.compileBundle CompilerV2.genericVocabulary [narrowedPolicy] "b" 1 0 =
      .ok ⟨some b, []⟩) ∧
    (simulate [narrowedPolicy] "b" 1 0 "t" (simulationOf noAmount [] "ops") []).map
      SimulationResult.decision = .ok .deny ∧
    (Engine.decision [narrowedPolicy] ⟨0, 1, none⟩ (IntentService.intentSection noAmount)
      (.obj []) "ops" (some "agent") []).map EngineDecision.outcome = .ok .allow := by
  refine ⟨⟨_, rfl⟩, ?_, ?_⟩
  · obtain ⟨document, hdocument⟩ := Engine.answer_ok_iff.2
      (oneReason_allow (p := narrowedPolicy) rfl ((simulationOf noAmount [] "ops").opaInput 1 []))
    rw [simulate_decision deployable_narrowed, hdocument, Engine.outcome_single rfl]
    exact congrArg Except.ok (if_neg (by decide +kernel))
  · rw [Engine.decision_outcome, Engine.outcome_single rfl]
    exact congrArg Except.ok (if_pos (by decide +kernel))

end PolicySimulationService

end PayReality
