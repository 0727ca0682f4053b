import PayReality.Evidence.Append
import PayReality.Integration.OperationIdentity

/-!
# Submitting an intent, statement by statement

`submit_intent`, `submit_attested_intent` and the tail that both share, `_evaluate_and_record`, as
programs of statements to the ledger. An intent is evaluated with the amount that was sent; the row
keeps what the column makes of it.

A row that was read is not read again within a transaction; after a rollback the columns that are
read again are ones that no code assigns twice.
-/

namespace PayReality

open Program

def OrganizationStatus.value : OrganizationStatus → String
  | .active => "active"
  | .deactivated => "deactivated"
  | .archived => "archived"

def AgentStatus.value : AgentStatus → String
  | .registered => "registered"
  | .active => "active"
  | .suspended => "suspended"
  | .revoked => "revoked"
  | .retired => "retired"

/-- What a submission returns. -/
structure Submitted where
  intent : IntentRow
  decision : Decision
  /-- `None` only where an earlier decision has no evidence. -/
  evidence : Option EvidenceRow

/-- What `runtime_truth_service.resolve` finds. -/
structure RuntimeTruth where
  principal : Option Principal
  principalName : String
  authorityContext : Json

namespace LedgerService

variable (H : OperationHost)

/-- A computation that sends nothing. -/
def lift {α : Type} : Except PyError α → LedgerService α
  | .ok a => pure a
  | .error e => throw e

/-! ## Evaluation -/

/-- `runtime_truth_service.resolve`. -/
def truthIn (db : Db) (t : Timestamp) (agent : Agent) (amount : Option ℚ) : RuntimeTruth :=
  let principal := db.principal agent.actingForPrincipalId
  ⟨principal, db.principalName H.toPlatform agent,
    db.resolveRuntimeAuthorityContext H.toPlatform principal amount t⟩

def resolveTruth (agent : Agent) (amount : Option ℚ) : LedgerService RuntimeTruth := do
  let v ← read
  let t ← now
  return truthIn H v.db t agent amount

/-- `resolve_facts`; none where they conflict. -/
def factsIn (db : Db) (t : Timestamp) (organizationId : Uuid) (subject : Option String)
    (keys : List String) : List EnterpriseFact :=
  match db.resolveFacts organizationId subject t keys with
  | .ok facts => facts
  | .error _ => []

/-- The facts that the active policies ask for. -/
def resolveFacts (organizationId : Option Uuid) (subject : Option String) :
    LedgerService (List EnterpriseFact) := do
  let v ← read
  match v.db.listEnterpriseKnowledgeKeys organizationId, organizationId with
  | [], _ | _, none => return []
  | keys, some o =>
    let v ← read
    let t ← now
    return factsIn v.db t o subject keys

/-- `{**context, "timestamp": …, "authority": …}`. -/
def evaluationContext (intent : Intent) (authority : Json) : Json :=
  .obj (IntentService.withMember (IntentService.withMember intent.context "timestamp"
    (.str (H.isoformat intent.requestedAt))) "authority" authority)

/-- The input that OPA is sent. -/
def evaluationInput (intent : Intent) (agent : Agent) (truth : RuntimeTruth)
    (facts : List EnterpriseFact) (policyVersion : ℕ) : Json :=
  Engine.buildOpaInput (IntentService.intentSection intent)
    (evaluationContext H intent truth.authorityContext) truth.principalName policyVersion
    (some (H.uuidText agent.id)) (facts.map fun f => (f.key, f.value))

/-- `decision_engine.evaluate`, which asks OPA if there is an active policy. -/
def evaluate (intent : Intent) (agent : Agent) (truth : RuntimeTruth)
    (facts : List EnterpriseFact) : LedgerService EngineDecision := do
  let organizationId := truth.principal.bind Principal.organizationId
  let v ← read
  let active := IntentService.getActive v.db organizationId
  let reply ← match active with
    | .ok a => queryOpa organizationId (evaluationInput H intent agent truth facts a.version)
    -- nothing is asked, and `Engine.evaluate` reads no reply
    | .error _ => pure OpaReply.timeout
  lift (Engine.evaluate (IntentService.intentSection intent)
    (evaluationContext H intent truth.authorityContext) truth.principalName active (fun _ => reply)
    (some (H.uuidText agent.id)) (facts.map fun f => (f.key, f.value)))

/-- The outcome and the reason after the check for overdue authority, made where the engine
allowed. -/
def finalOutcome (d : EngineDecision) (keys : List String) : LedgerService (Outcome × Json) := do
  if d.outcome = .allow then
    let v ← read
    let t ← now
    return IntentService.finalOutcome v.db H.toPlatform t d keys
  else return (d.outcome, d.reason)

/-- `_evaluate_and_record`. -/
def evaluateAndRecord (intent : Intent) (agent : Agent)
    (provenance : Option IntegrationProvenance) : LedgerService (Decision × EvidenceRow) := do
  let truth ← resolveTruth H agent intent.amount
  let facts ← resolveFacts (truth.principal.bind Principal.organizationId) intent.counterparty
  let d ← evaluate H intent agent truth facts
  let keys ← lift (IntentService.policyKeysOf d.evaluatedMandates)
  let v ← read
  let mandateIds := v.db.resolveMandateIds H.toPlatform keys
  let v ← read
  let system := v.db.resolveEnterpriseSystem H.toPlatform keys
  let (outcome, reason) ← finalOutcome H d keys
  let id ← uuid4
  let createdAt ← now
  let decision : Decision :=
    { id
      intentId := intent.id
      policyId := d.policyId
      outcome
      reason
      evaluatedMandates := d.evaluatedMandates
      createdAt
      evaluatedMandateIds := mandateIds
      enterpriseSystemId := system.map EnterpriseSystem.id }
  flushDecision decision
  let evidence ← appendEvidence H.toEvidenceHost
    { decisionId := decision.id
      agent
      action := intent.action
      amount := intent.amount
      matchedMandates := keys
      outcome
      status := IntentService.evidenceStatusForOutcome outcome
      resource := intent.resource
      currency := intent.currency
      details :=
        { principalId := truth.principal.map Principal.id
          principalName := some truth.principalName
          authorityContext := some truth.authorityContext
          mandateIds
          authorityVersion := some d.authorityVersion
          policyVersion := d.policyVersion
          policyBundleHash := d.policyBundleHash
          factsEvaluated := facts.map fun f =>
            ⟨f.key, f.value, f.subject, f.sourceId, f.observedAt, f.expiresAt⟩ }
      enterpriseSystemId := system.map EnterpriseSystem.id
      provenance }
  commit
  refresh
  refresh
  return (decision, evidence)

/-! ## Agents -/

/-- `ensure_active`, for the organization with this id, where there is one. -/
def ensureActive (organizationId : Option Uuid) (error : OrganizationStatus → PyError) :
    LedgerService Unit :=
  match organizationId with
  | none => pure ()
  | some id => do
    let v ← read
    match v.db.organization id with
    | none => pure ()
    | some o => if o.status = .active then pure () else throw (error o.status)

/-- What the column `amount` keeps of an intent. -/
def stored (intent : Intent) : Intent := { intent with amount := intent.amount.map H.numeric }

/-- A flush of an intent: whether the unique indexes let it through. The transaction is rolled back
where they do not. -/
def tryFlushIntent (row : IntentRow) : LedgerService Bool :=
  tryCatch (do flushIntent row; return true) fun e => do
    if e = .integrityError then
      rollback
      return false
    else throw e

/-- A decision made without OPA, its evidence, and the commit. -/
def recordUnevaluated (intent : Intent) (agent : Agent) (reason : String) :
    LedgerService (Decision × EvidenceRow) := do
  let id ← uuid4
  let createdAt ← now
  let decision : Decision :=
    { id
      intentId := intent.id
      policyId := none
      outcome := .humanReview
      reason := .str reason
      evaluatedMandates := .arr []
      createdAt }
  flushDecision decision
  let evidence ← appendEvidence H.toEvidenceHost
    { decisionId := decision.id
      agent
      action := intent.action
      amount := intent.amount
      matchedMandates := []
      outcome := .humanReview
      status := IntentService.evidenceStatusForOutcome .humanReview
      resource := intent.resource
      currency := intent.currency }
  commit
  refresh
  refresh
  return (decision, evidence)

def agentIntent (id : Uuid) (agent : Agent) (req : IntentRequest) : Intent where
  id
  agentId := agent.id
  correlationId := req.correlationId
  action := req.action
  amount := req.amount
  currency := req.currency
  counterparty := req.counterparty
  resource := req.resource
  source := IntentService.normalizeSource req.source
  context := req.context
  nonce := req.nonce
  requestedAt := req.requestedAt

/-- `submit_intent`. -/
def submitIntent (agent : Agent) (req : IntentRequest) : LedgerService Submitted := do
  if agent.status = .revoked then throw .agentRevoked
  if agent.status = .retired then throw .agentRetired
  if agent.status = .registered then throw .agentNotOperational
  let v ← read
  ensureActive (IntentService.organizationOf v.db agent) fun _ => .organizationNotActive
  let id ← uuid4
  let intent := agentIntent id agent req
  let row : IntentRow := { stored H intent with }
  if !(← tryFlushIntent row) then throw .replayDetected
  if agent.status = .suspended then
    let (decision, evidence) ← recordUnevaluated H intent agent "AGENT_SUSPENDED"
    return ⟨row, decision, some evidence⟩
  let v ← read
  let organizationId := IntentService.organizationOf v.db agent
  let v ← read
  if !Db.isRecognizedScope req.action (v.db.listActiveScopeActions organizationId) then
    let (decision, evidence) ← recordUnevaluated H intent agent "unrecognized_action"
    return ⟨row, decision, some evidence⟩
  let (decision, evidence) ← evaluateAndRecord H intent agent none
  return ⟨row, decision, some evidence⟩

end LedgerService

/-! ## Adapters -/

/-- What an adapter attests. -/
structure AttestedRequest where
  enforcementBindingId : Uuid
  originAgentId : Uuid
  sourceOperation : String
  action : String
  resource : Option String
  amount : Option ℚ
  currency : Option String
  counterparty : Option String
  context : List (String × Json)
  /-- A dict has each key once. -/
  distinct : (context.map Prod.fst).Nodup
  requestedAt : Timestamp
  nonce : String
  correlationId : Option String := none
  externalOperationId : String

/-- What `submit_attested_intent` has checked and computed before it looks for an earlier one. -/
structure Attested where
  binding : EnforcementBinding
  agent : Agent
  contractVersion : IntegrationContractVersion
  finalContext : List (String × Json)
  fingerprint : String

namespace IntegrationRuntimeService

open LedgerService

variable (H : OperationHost)

def rejection {α : Type} (reason : String) (keys : List String := []) : Except PyError α :=
  .error (.integrationRejection reason keys)

/-! ### What the contract asks -/

/-- `_RESERVED_CONTEXT_KEYS`. -/
def reservedContextKeys : List String := ["environment"]

/-- `_check_structural_field`. -/
def checkStructuralField {α : Type} (fieldName : String) (contractPath : Option String)
    (value : Option α) : Except PyError Unit :=
  match contractPath, value with
  | none, some _ => rejection ("unexpected_" ++ fieldName ++ "_not_declared_by_contract")
  | some _, none => rejection ("missing_required_" ++ fieldName ++ "_declared_by_contract")
  | none, none | some _, some _ => .ok ()

/-- The elements of the first list that the second has not, sorted. -/
def difference (xs ys : List String) : List String :=
  (xs.filter (· ∉ ys)).insertionSort (· ≤ ·)

/-- The checks of the context keys. -/
def checkContextKeys (bound supplied : List String) : Except PyError Unit :=
  let reserved := (reservedContextKeys.filter (· ∈ supplied)).insertionSort (· ≤ ·)
  if reserved ≠ [] then rejection "reserved_context_key_supplied:" reserved
  else if difference supplied bound ≠ [] then
    rejection "unexpected_context_keys:" (difference supplied bound)
  else if difference bound supplied ≠ [] then
    rejection "missing_required_context_keys:" (difference bound supplied)
  else .ok ()

/-- What the contract version asks of a request. -/
def checkContract (c : IntegrationContractVersion) (req : AttestedRequest) :
    Except PyError Unit := do
  if req.sourceOperation ≠ c.sourceOperation then rejection "source_operation_mismatch"
  if req.action ≠ c.canonicalAction then rejection "canonical_action_mismatch"
  checkStructuralField "resource" c.resourcePath req.resource
  checkStructuralField "amount" c.amountPath req.amount
  checkStructuralField "currency" c.currencyPath req.currency
  checkStructuralField "fact_subject" c.factSubjectPath req.counterparty
  checkContextKeys (c.contextBindings.map Prod.fst) (req.context.map Prod.fst)

/-- `{**context, "environment": binding.environment}`. -/
def finalContext (binding : EnforcementBinding) (req : AttestedRequest) : List (String × Json) :=
  IntentService.withMember req.context "environment" (.str binding.environment)

/-! ### Trust -/

/-- `_resolve_active_binding`. -/
def resolveActiveBinding (bindingId organizationId identityId : Uuid) :
    LedgerService EnforcementBinding := do
  let v ← read
  match v.db.enforcementBindings.find? fun b => b.id = bindingId ∧ b.organizationId = organizationId with
  | none => lift (rejection "enforcement_binding_not_found")
  | some b =>
    if b.integrationIdentityId ≠ identityId then lift (rejection "enforcement_binding_not_found")
    else if b.status ≠ .active then
      lift (rejection ("enforcement_binding_not_active:" ++ b.status.value))
    else return b

/-- `_resolve_origin_agent`. -/
def resolveOriginAgent (agentId organizationId bindingId : Uuid) : LedgerService Agent := do
  let v ← read
  match v.db.agent agentId with
  | none => lift (rejection "origin_agent_not_found")
  | some agent =>
    let v ← read
    if (v.db.principal agent.actingForPrincipalId).bind Principal.organizationId ≠
        some organizationId then
      lift (rejection "origin_agent_not_found")
    else if agent.status ≠ .active then
      lift (rejection ("origin_agent_not_eligible:" ++ agent.status.value))
    else
      let v ← read
      if ⟨bindingId, agentId⟩ ∈ v.db.enforcementBindingAgents then return agent
      else lift (rejection "origin_agent_not_allowed_for_binding")

/-- `db.get(IntegrationContractVersion, …)`, and the check of its organization. -/
def resolveContractVersion (id organizationId : Uuid) :
    LedgerService IntegrationContractVersion := do
  let v ← read
  match (v.db.contractVersion id).filter fun c => c.organizationId = organizationId with
  | none => lift (rejection "contract_version_not_found")
  | some c => return c

/-- The checks before anything is looked up. -/
def checkCaller (identity : IntegrationIdentity) (req : AttestedRequest) : Except PyError Unit :=
  match OperationIdentity.validateExternalOperationId req.externalOperationId with
  | some e => rejection ("invalid_external_operation_id:" ++ e)
  | none =>
    if identity.status ≠ .active then
      rejection ("integration_identity_not_active:" ++ identity.status.value)
    else .ok ()

/-- `submit_attested_intent`, as far as the fingerprint. -/
def attest (identity : IntegrationIdentity) (req : AttestedRequest) : LedgerService Attested := do
  lift (checkCaller identity req)
  ensureActive (some identity.organizationId) fun status =>
    .integrationRejection ("organization_not_active:" ++ status.value) []
  let binding ← resolveActiveBinding req.enforcementBindingId identity.organizationId identity.id
  let agent ← resolveOriginAgent req.originAgentId identity.organizationId binding.id
  let c ← resolveContractVersion binding.integrationContractVersionId identity.organizationId
  lift (checkContract c req)
  let fingerprint ← lift (OperationIdentity.fingerprint H agent.id c.contentHash
    req.sourceOperation req.action req.resource req.amount req.currency req.counterparty req.context)
  return ⟨binding, agent, c, finalContext binding req, fingerprint⟩

/-! ### The operation -/

/-- The scope in which an operation is recorded once. -/
def Attested.scope (a : Attested) (req : AttestedRequest) : Uuid × String × String :=
  (a.contractVersion.integrationId, a.binding.environment, req.externalOperationId)

/-- `find_existing_operation`. -/
def findExistingOperation (v : Snapshot) (scope : Uuid × String × String) : Option IntentRow :=
  v.intents.find? fun i => i.operationScope = some scope

/-- `get_earliest_evidence_for_decision`. -/
def earliestEvidence (rows : List EvidenceRow) (decisionId : Uuid) : Option EvidenceRow :=
  firstRow EvidenceRow.byTime (rows.filter fun e => e.decisionId = decisionId)

/-- `_load_operation_result`. -/
def loadOperationResult (existing : IntentRow) : LedgerService Submitted := do
  let v ← read
  match v.decisions.find? fun d => d.intentId = existing.id with
  | none => throw .attributeError
  | some decision =>
    let v ← read
    return ⟨existing, decision, earliestEvidence v.evidence decision.id⟩

/-- `_resolve_existing_or_conflict`. -/
def resolveExistingOrConflict (existing : IntentRow) (fingerprint : String) :
    LedgerService Submitted :=
  if existing.provenance.map IntegrationProvenance.canonicalOperationFingerprint = some fingerprint
  then loadOperationResult existing
  else throw .externalOperationConflict

def canonicalAction (identity : IntegrationIdentity) (req : AttestedRequest) (a : Attested) :
    Except PyError CanonicalAction :=
  CanonicalAction.build a.contractVersion.contentHash fun contractContentHash =>
    { organizationId := identity.organizationId
      agentId := a.agent.id
      action := req.action
      integrationIdentityId := identity.id
      integrationContractVersionId := a.contractVersion.id
      contractContentHash
      environment := a.binding.environment
      externalOperationId := req.externalOperationId
      resource := req.resource
      amount := req.amount
      currency := req.currency }

def attestedIntent (id : Uuid) (req : AttestedRequest) (a : Attested) : Intent where
  id
  agentId := a.agent.id
  correlationId := req.correlationId
  action := req.action
  amount := req.amount
  currency := req.currency
  counterparty := req.counterparty
  resource := req.resource
  source := IntentService.normalizeSource none
  context := a.finalContext
  nonce := req.nonce
  requestedAt := req.requestedAt

def provenanceOf (identity : IntegrationIdentity) (req : AttestedRequest) (a : Attested)
    (canonical : CanonicalAction) (digest : String) : IntegrationProvenance where
  integrationIdentityId := identity.id
  enforcementBindingId := a.binding.id
  integrationContractVersionId := a.contractVersion.id
  integrationContractContentHash := canonical.contractContentHash
  integrationId := a.contractVersion.integrationId
  environment := a.binding.environment
  sourceOperation := req.sourceOperation
  externalOperationId := req.externalOperationId
  canonicalOperationFingerprint := a.fingerprint
  canonicalActionSchemaVersion := CanonicalAction.schemaVersion
  canonicalActionDigest := digest

/-- `submit_attested_intent` for an operation that was not found. -/
def submitNewOperation (identity : IntegrationIdentity) (req : AttestedRequest) (a : Attested) :
    LedgerService Submitted := do
  let canonical ← lift (canonicalAction identity req a)
  let digest ← lift (canonical.canonicalDigest H)
  let id ← uuid4
  let intent := attestedIntent id req a
  let provenance := provenanceOf identity req a canonical digest
  let row : IntentRow := { stored H intent with provenance := some provenance }
  if ← tryFlushIntent row then
    let (decision, evidence) ← evaluateAndRecord H intent a.agent (some provenance)
    return ⟨row, decision, some evidence⟩
  else
    let v ← read
    match findExistingOperation v (Attested.scope a req) with
    | some existing => resolveExistingOrConflict existing a.fingerprint
    | none => throw .adapterReplayDetected

/-- `submit_attested_intent`. -/
def submitAttestedIntent (identity : IntegrationIdentity) (req : AttestedRequest) :
    LedgerService Submitted := do
  let a ← attest H identity req
  let v ← read
  match findExistingOperation v (Attested.scope a req) with
  | some existing => resolveExistingOrConflict existing a.fingerprint
  | none => submitNewOperation H identity req a

end IntegrationRuntimeService

end PayReality
