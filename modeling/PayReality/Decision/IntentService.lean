import PayReality.Store.Queries

/-!
# Submitting an intent

`intent_service.py`: the guards before an intent exists, the two decisions made without OPA, the
evaluation, and the evidence. A submission that raises is rolled back, so it leaves no row.

All times that one submission reads are one time.
-/

namespace PayReality

/-- The key of the platform that signs evidence, and the hash that chains it. -/
structure Signer where
  payloadHash : EvidencePayload → String
  sign : EvidencePayload → String

/-- What a caller sends. -/
structure IntentRequest where
  action : String
  amount : Option ℚ
  currency : Option String
  counterparty : Option String
  context : List (String × Json)
  requestedAt : Timestamp
  nonce : String
  correlationId : Option String := none
  resource : Option String := none
  source : Option String := none

/-- The rows of one submission. -/
structure Recorded where
  intent : Intent
  decision : Decision
  evidence : Evidence

namespace IntentService

def normalizeSource (source : Option String) : IntentSource :=
  if source = some "manual_test" then .manualTest else .runtime

/-! ## Evidence -/

def evidenceStatusForOutcome : Outcome → EvidenceStatus
  | .allow => .verified
  | .deny => .rejected
  | .humanReview => .pending

def riskLevelText : RiskLevel → String
  | .low => "LOW"
  | .medium => "MEDIUM"
  | .high => "HIGH"
  | .critical => "CRITICAL"

variable (db : Db) (P : Platform) (S : Signer) (agent : Agent) (now : Timestamp)

/-- `_resolve_chain_scope`, which is also the organization that an intent is evaluated for. -/
def organizationOf : Option Uuid :=
  (db.principal agent.actingForPrincipalId).bind Principal.organizationId

def chain (organizationId : Option Uuid) : List Evidence :=
  db.evidence.filter fun e => e.organizationId = organizationId

/-- `ORDER BY sequence DESC NULLS LAST, created_at DESC, id DESC`: `d` comes before `e`. -/
def comesFirst (d e : Evidence) : Bool :=
  match d.sequence, e.sequence with
  | some m, some n => n < m || m = n && byTime
  | some _, none => true
  | none, some _ => false
  | none, none => byTime
where
  byTime := e.createdAt < d.createdAt || d.createdAt = e.createdAt && e.id < d.id

/-- `_previous_chain_hash`. -/
def previousChainHash (organizationId : Option Uuid) : Option String :=
  let tail := (chain db organizationId).foldl (fun best e =>
    match best with
    | some d => if comesFirst e d then some e else some d
    | none => some e) none
  tail.map fun e => S.payloadHash e.payload

def nextChainSequence (organizationId : Option Uuid) : ℕ :=
  ((chain db organizationId).filterMap Evidence.sequence).foldl max 0 + 1

/-- `_resolve_authority_ids_for_mandates`. -/
def resolveAuthorityIds (mandateIds : List String) : List Uuid :=
  (mandateIds.filterMap fun m => (P.uuid m).bind fun id =>
    (db.mandates.find? fun row => row.id = id).map Mandate.authorityId).foldl
      (fun ids a => if a ∈ ids then ids else ids ++ [a]) []

def riskClassification (keys : List String) (amount : Option ℚ) : String :=
  match db.highestDeclaredRiskLevel P keys, amount with
  | some level, _ => riskLevelText level
  | none, some a => Db.classifyRisk (some a)
  | none, none => "MEDIUM"

def appendEvidence (id : Uuid) (intent : Intent) (decisionId : Uuid) (outcome : Outcome)
    (keys : List String) (details : EvidenceDetails) : Evidence :=
  let organizationId := organizationOf db agent
  let payload : EvidencePayload :=
    { details with
      decisionId
      agentId := agent.id
      action := intent.action
      matchedMandateIds := keys.insertionSort (· ≤ ·)
      authorityOutcome := outcome
      riskClassification := riskClassification db P keys intent.amount
      recordedAt := now
      previousHash := previousChainHash db S organizationId
      amount := intent.amount
      currency := intent.currency
      resource := intent.resource
      authorityIds := resolveAuthorityIds db P details.mandateIds
      resolvedBy := details.authorityContext.map fun _ => "runtime_authority_context" }
  { id
    decisionId
    payload
    signature := S.sign payload
    status := evidenceStatusForOutcome outcome
    organizationId
    sequence := some (nextChainSequence db organizationId)
    createdAt := now }

/-! ## Evaluation -/

/-- One element of `evaluated_mandates` as `uuid.UUID` takes it: only a text does not raise
something that `resolve_mandate_ids` lets through. -/
def keyText : Json → Except PyError String
  | .str s => .ok s
  | .null => .error .typeError
  | _ => .error .attributeError

/-- The texts that a loop over `evaluated_mandates` meets. -/
def policyKeysOf : Json → Except PyError (List String)
  | .arr xs => xs.mapM keyText
  | .str s => .ok (s.toList.map fun c => String.ofList [c])
  | .obj kvs => .ok (kvs.map Prod.fst)
  | _ => .error .typeError

/-- `{**d, k: v}`. -/
def withMember (d : List (String × Json)) (k : String) (v : Json) : List (String × Json) :=
  if d.any fun e => e.1 = k then d.map fun e => if e.1 = k then (k, v) else e else d ++ [(k, v)]

def authorityContext (intent : Intent) : Json :=
  db.resolveRuntimeAuthorityContext P (db.principal agent.actingForPrincipalId) intent.amount now

/-- The facts that the active policies of the organization ask for; none where they conflict. -/
def resolvedFacts (intent : Intent) : List EnterpriseFact :=
  match organizationOf db agent with
  | none => []
  | some id =>
    match db.resolveFacts id intent.counterparty now (db.listEnterpriseKnowledgeKeys (some id)) with
    | .ok facts => facts
    | .error _ => []

def intentSection (intent : Intent) : Json :=
  .obj [("action", .str intent.action), ("amount", .ofFloat intent.amount),
    ("currency", .ofText intent.currency), ("resource", .ofText intent.resource)]

def contextSection (intent : Intent) : Json :=
  .obj (withMember (withMember intent.context "timestamp" (.str (P.isoformat intent.requestedAt)))
    "authority" (authorityContext db P agent now intent))

def enterpriseKnowledge (intent : Intent) : List (String × Json) :=
  (resolvedFacts db agent now intent).map fun f => (f.key, f.value)

/-- The input that OPA is sent for an intent. -/
def opaInput (intent : Intent) (policyVersion : ℕ) : Json :=
  Engine.buildOpaInput (intentSection intent) (contextSection db P agent now intent)
    (db.principalName P agent) policyVersion (some (P.uuidText agent.id))
    (enterpriseKnowledge db agent now intent)

/-- `_DbPolicyStore.get_active`. -/
def getActive (organizationId : Option Uuid) : Except PyError ActivePolicy :=
  match db.activePolicy organizationId with
  | some p => .ok ⟨p.version, p.version, some p.bundleHash⟩
  | none => .error .noActivePolicy

/-- The outcome and the reason of a decision after the check for overdue authority. -/
def finalOutcome (d : EngineDecision) (keys : List String) : Outcome × Json :=
  if d.outcome = .allow ∧ (db.findExpiredHighRiskAuthority P keys now).isSome then
    (.humanReview, .str "authority_review_overdue")
  else (d.outcome, d.reason)

/-- The rows of a decision that the engine made. -/
def recordEvaluated (intent : Intent) (d : EngineDecision) (keys : List String) : Recorded :=
  let (outcome, reason) := finalOutcome db P now d keys
  let mandateIds := db.resolveMandateIds P keys
  let system := db.resolveEnterpriseSystem P keys
  let principal := db.principal agent.actingForPrincipalId
  let decision : Decision :=
    { id := db.nextId + 1
      intentId := intent.id
      policyId := d.policyId
      outcome
      reason
      evaluatedMandates := d.evaluatedMandates
      createdAt := now
      evaluatedMandateIds := mandateIds
      enterpriseSystemId := system.map EnterpriseSystem.id }
  { intent
    decision
    evidence := appendEvidence db P S agent now (db.nextId + 2) intent decision.id outcome keys
      { principalId := principal.map Principal.id
        principalName := some (db.principalName P agent)
        authorityContext := some (authorityContext db P agent now intent)
        mandateIds
        authorityVersion := some d.authorityVersion
        policyVersion := d.policyVersion
        policyBundleHash := d.policyBundleHash
        enterpriseSystem := system
        factsEvaluated := (resolvedFacts db agent now intent).map fun f =>
          ⟨f.key, f.value, f.subject, f.sourceId, f.observedAt, f.expiresAt⟩ } }

variable (opa : Option Uuid → Json → OpaReply)

/-- `_evaluate_and_record`. -/
def evaluateAndRecord (intent : Intent) : Except PyError Recorded := do
  let organizationId := organizationOf db agent
  let d ← Engine.evaluate (intentSection intent) (contextSection db P agent now intent)
    (db.principalName P agent) (getActive db organizationId) (opa organizationId)
    (some (P.uuidText agent.id)) (enterpriseKnowledge db agent now intent)
  let keys ← policyKeysOf d.evaluatedMandates
  return recordEvaluated db P S agent now intent d keys

/-! ## Submission -/

/-- The rows of a decision made without OPA. -/
def recordUnevaluated (intent : Intent) (reason : String) : Recorded :=
  let decision : Decision :=
    { id := db.nextId + 1
      intentId := intent.id
      policyId := none
      outcome := .humanReview
      reason := .str reason
      evaluatedMandates := .arr []
      createdAt := now }
  { intent
    decision
    evidence := appendEvidence db P S agent now (db.nextId + 2) intent decision.id .humanReview
      [] {} }

/-- `ensure_active`, for the organization of the agent's principal, where there is one. -/
def organizationBlocked : Bool :=
  ((organizationOf db agent).bind db.organization).any fun o => o.status ≠ .active

def intentOf (req : IntentRequest) : Intent where
  id := db.nextId
  agentId := agent.id
  correlationId := req.correlationId
  action := req.action
  amount := req.amount
  currency := req.currency
  counterparty := req.counterparty
  resource := req.resource
  source := normalizeSource req.source
  context := req.context
  nonce := req.nonce
  requestedAt := req.requestedAt

/-- `submit_intent`. -/
def submitIntent (req : IntentRequest) : Except PyError Recorded :=
  let intent := intentOf db agent req
  if agent.status = .revoked then .error .agentRevoked
  else if agent.status = .retired then .error .agentRetired
  else if agent.status = .registered then .error .agentNotOperational
  else if organizationBlocked db agent then .error .organizationNotActive
  -- `uq_intents_agent_nonce`
  else if db.intents.any fun i => i.agentId = agent.id ∧ i.nonce = req.nonce then
    .error .replayDetected
  else if agent.status = .suspended then
    .ok (recordUnevaluated db P S agent now intent "AGENT_SUSPENDED")
  else if Db.isRecognizedScope req.action (db.listActiveScopeActions (organizationOf db agent)) then
    evaluateAndRecord db P S agent now opa intent
  else .ok (recordUnevaluated db P S agent now intent "unrecognized_action")

/-- The database after a submission has committed. -/
def record (r : Recorded) : Db :=
  { db with
    intents := db.intents ++ [r.intent]
    decisions := db.decisions ++ [r.decision]
    evidence := db.evidence ++ [r.evidence]
    nextId := db.nextId + 3 }

/-- The database after a submission, which commits at its end or not at all. -/
def submit (req : IntentRequest) : Db :=
  match submitIntent db P S agent now opa req with
  | .ok r => record db r
  | .error _ => db

/-- A submission leaves every other table alone. -/
theorem submit_records (req : IntentRequest) :
    (submit db P S agent now opa req).records = db.records := by
  unfold submit
  split <;> rfl

theorem submit_policies (req : IntentRequest) :
    (submit db P S agent now opa req).policies = db.policies := by
  unfold submit
  split <;> rfl

theorem submit_principals (req : IntentRequest) :
    (submit db P S agent now opa req).principals = db.principals := by
  unfold submit
  split <;> rfl

end IntentService

end PayReality
