import PayReality.Compiler.BundleBuilder

/-!
# The decision engine

`opa_client.py` and `domain/decision/engine.py`: a query to OPA, and what a decision makes of the
answer. Everything that is not an explicit answer of OPA is for a human to review.
-/

namespace PayReality

/-! ## The client -/

/-- What a request to OPA comes back with. -/
inductive OpaReply where
  | timeout
  /-- Any other `httpx.HTTPError`. -/
  | transportError
  /-- A status and a body; `none` where the body is not JSON. -/
  | response (status : Nat) (body : Option Json)

/-- `d.get(k)`: anything that is not a dict has no such method. -/
def Json.dictGet (d : Json) (k : String) : Except PyError (Option Json) :=
  match d with
  | .obj _ => .ok (d.get? k)
  | _ => .error .attributeError

/-- `HttpOpaClient.query`, on the reply. -/
def OpaReply.query : OpaReply → Except PyError Json
  | .timeout => .error .opaTimeout
  | .transportError => .error (.opaEvaluation "connection_error")
  | .response status body =>
    if status ≠ 200 then .error (.opaEvaluation ("http_" ++ toString status))
    else
      match body with
      | none => .error (.opaEvaluation "bad_response")
      | some body => do
        match ← body.dictGet "result" with
        | none | some .null => return .obj []
        | some result => return result

/-! ## The input -/

/-- `x` or `None`, as JSON. -/
def Json.ofText : Option String → Json
  | some s => .str s
  | none => .null

def Json.ofFloat : Option ℚ → Json
  | some q => .float q
  | none => .null

namespace Engine

def buildOpaInput (intent context : Json) (actingForPrincipalId : String) (policyVersion : Nat)
    (agentId : Option String) (enterpriseKnowledge : List (String × Json)) : Json :=
  .obj [("intent", intent), ("context", context),
    ("agent", .obj [("id", .ofText agentId), ("acting_for_principal_id", .str actingForPrincipalId)]),
    ("policy_version", .int policyVersion),
    ("enterprise_knowledge", .obj enterpriseKnowledge)]

/-! ## Decisions -/

def decisionEngineVersion : String := "1.0.0"

end Engine

inductive Outcome where
  | allow | deny | humanReview
  deriving DecidableEq, Repr

structure ActivePolicy where
  id : Nat
  version : Nat
  bundleHash : Option BundleHash

/-- `engine.Decision`. A reason is what OPA sent, whatever that is. -/
structure EngineDecision where
  outcome : Outcome
  reason : Json := .null
  evaluatedMandates : Json := .arr []
  policyId : Option Nat := none
  policyVersion : Option Nat := none
  policyBundleHash : Option BundleHash := none
  authorityVersion : String := Engine.decisionEngineVersion

namespace Engine

/-- A decision about an active policy. -/
def pinned (active : ActivePolicy) (outcome : Outcome) (reason : Json := .null)
    (evaluatedMandates : Json := .arr []) : EngineDecision where
  outcome
  reason
  evaluatedMandates
  policyId := some active.id
  policyVersion := some active.version
  policyBundleHash := active.bundleHash

/-- `x is True`, for a member that may be missing. -/
def isTrue (x : Option Json) : Bool := x.any Json.isTrue

/-- What a result document decides. -/
def decide (active : ActivePolicy) (result : Json) : Except PyError EngineDecision := do
  let evaluated := (← result.dictGet "evaluated_mandates").getD (.arr [])
  if isTrue (result.get? "requires_review") then
    return pinned active .humanReview ((result.get? "review_reason").getD .null) evaluated
  if isTrue (result.get? "allow") && !isTrue (result.get? "deny") then
    return pinned active .allow .null evaluated
  if isTrue (result.get? "deny") then
    return pinned active .deny ((result.get? "deny_reason").getD .null) evaluated
  return pinned active .humanReview (.str "undetermined")

/-- `evaluate`. The policy store and OPA are given by what they answer. -/
def evaluate (intent context : Json) (actingForPrincipalId : String)
    (getActive : Except PyError ActivePolicy) (opa : Json → OpaReply) (agentId : Option String)
    (enterpriseKnowledge : List (String × Json)) : Except PyError EngineDecision :=
  match getActive with
  | .error .noActivePolicy => .ok { outcome := .humanReview, reason := .str "no_active_policy" }
  | .error e => .error e
  | .ok active =>
    match (opa (buildOpaInput intent context actingForPrincipalId active.version agentId
        enterpriseKnowledge)).query with
    | .error .opaTimeout => .ok (pinned active .humanReview (.str "opa_timeout"))
    | .error (.opaEvaluation code) =>
        .ok (pinned active .humanReview (.str ("opa_error:" ++ code)))
    | .error e => .error e
    | .ok result => decide active result

/-! ## When a decision allows -/

/-- A result document that allows: `allow`, without `requires_review` and without `deny`. -/
structure Allows (result : Json) : Prop where
  allow : result.get? "allow" = some (.bool true)
  noReview : result.get? "requires_review" ≠ some (.bool true)
  noDeny : result.get? "deny" ≠ some (.bool true)

theorem isTrue_iff {x : Option Json} : isTrue x = true ↔ x = some (.bool true) := by
  cases x with
  | none => simp [isTrue]
  | some v => cases v with
    | bool b => cases b <;> simp [isTrue, Json.isTrue]
    | _ => simp [isTrue, Json.isTrue]

theorem decide_allow {active : ActivePolicy} {result : Json} {d : EngineDecision}
    (h : decide active result = .ok d) (ha : d.outcome = .allow) :
    Allows result ∧ d.evaluatedMandates = (result.get? "evaluated_mandates").getD (.arr []) ∧
      d = pinned active .allow .null d.evaluatedMandates := by
  obtain ⟨evaluated, he, h⟩ := bind_ok.1 h
  have he' : evaluated = result.get? "evaluated_mandates" := by
    cases result <;> simp_all [Json.dictGet]
  subst he'
  dsimp only at h
  split at h
  · cases h
    cases ha
  · next hreview =>
    split at h
    · next hallow =>
      cases h
      rw [Bool.and_eq_true, Bool.not_eq_true', isTrue_iff] at hallow
      exact ⟨⟨hallow.1, mt isTrue_iff.2 hreview,
        fun hd => by simp [isTrue_iff.2 hd] at hallow⟩, rfl, rfl⟩
    · split at h <;> cases h <;> cases ha

/-- **The engine allows only on OPA's word**: there is an active policy, and OPA answered the
input built for it with a document that allows. -/
theorem evaluate_allow {intent context : Json} {principal : String}
    {getActive : Except PyError ActivePolicy} {opa : Json → OpaReply} {agentId : Option String}
    {knowledge : List (String × Json)} {d : EngineDecision}
    (h : evaluate intent context principal getActive opa agentId knowledge = .ok d)
    (ha : d.outcome = .allow) :
    ∃ active result, getActive = .ok active ∧
      (opa (buildOpaInput intent context principal active.version agentId knowledge)).query
        = .ok result ∧ Allows result ∧
      d.evaluatedMandates = (result.get? "evaluated_mandates").getD (.arr []) := by
  unfold evaluate at h
  split at h
  · cases h
    cases ha
  · cases h
  · next active =>
    split at h
    · cases h
      cases ha
    · cases h
      cases ha
    · cases h
    · next result hquery =>
      obtain ⟨hallows, hevaluated, -⟩ := decide_allow h ha
      exact ⟨active, result, rfl, hquery, hallows, hevaluated⟩

end Engine

end PayReality
