import PayReality.Execution.Enforcement

/-!
# Reviews and capabilities

`resolution_service.py` and `capability_service.py`. A capability is issued for a decision that was
allowed, or that a reviewer has approved, and is consumed once. Every reading of a row is a statement
of its own, and so is the one after the commit.
-/

namespace PayReality

open Program RecordProg

namespace IntentService

/-- `_resolve_chain_scope`. -/
def resolveChainScope (agentId : Uuid) : EnforcementService (Option Uuid) := do
  let d ← look
  match d.agent agentId with
  | none => return none
  | some agent => do
    let d ← look
    return (d.principal agent.actingForPrincipalId).bind Principal.organizationId

def getIntent (id : Uuid) : EnforcementService IntentRow := do
  let d ← look
  match d.intent id with
  | none => throw .attributeError
  | some intent => return intent

/-- `get_decision`, which raises here where there is none. -/
def getDecision (id : Uuid) : EnforcementService Decision := do
  let d ← look
  match d.decision id with
  | none => throw .decisionNotFound
  | some decision => return decision

/-- `get_decision_for_organization`; `error` is what it raises for the decision of another. -/
def getDecisionForOrganization (decisionId : Uuid) (organizationId : Option Uuid)
    (error : PyError := .crossOrganizationAccess) : EnforcementService (Decision × IntentRow) := do
  let decision ← getDecision decisionId
  let intent ← getIntent decision.intentId
  let owner ← resolveChainScope intent.agentId
  if owner ≠ organizationId then throw error
  return (decision, intent)

/-- `append_generic_evidence_event`, which reads the chain first. -/
def appendGenericEvidenceEvent (organizationId : Option Uuid) (decisionId : Uuid)
    (eventType : Option String) (details : Json) : EnforcementService EvidenceEvent := do
  let _ ← look
  let new ← draw
  return ⟨new.id, organizationId, decisionId, eventType, details, new.now⟩

end IntentService

open IntentService

namespace ResolutionService

/-- What a review adds to the evidence. -/
def reviewDetails (resolution : Resolution) (resolvedBy : String) : Json :=
  .obj [("approval_outcome", .str resolution.value.toUpper), ("approver", .str resolvedBy),
    ("reviewer", .str resolvedBy), ("review_outcome", .str resolution.value.toUpper)]

/-- The commit of a review; the loser of two at once raises as if it had come later. -/
def commitResolution (row : ResolutionRow) (event : EvidenceEvent) : EnforcementService Unit :=
  tryCatch (commit (.resolve row event)) fun e => do
    if e = .integrityError then
      rollback
      throw .decisionAlreadyResolved
    else throw e

/-- `resolve_decision`. -/
def resolveDecision (decisionId : Uuid) (organizationId : Option Uuid) (resolution : Resolution)
    (resolvedBy : String) : EnforcementService ResolutionRow := do
  let (decision, _) ← getDecisionForOrganization decisionId organizationId .decisionNotFound
  if decision.outcome ≠ .humanReview then throw .decisionNotHumanReview
  let d ← look
  if (d.resolutionOf decisionId).isSome then throw .decisionAlreadyResolved
  let event ← appendGenericEvidenceEvent organizationId decisionId none
    (reviewDetails resolution resolvedBy)
  let new ← draw
  let row : ResolutionRow := ⟨new.id, decisionId, resolution⟩
  commitResolution row event
  let _ ← look
  return row

end ResolutionService

namespace CapabilityService

variable (H : CapabilityHost)

/-! ## What must be active -/

/-- What four checks do: a row is read, and must be there and active. -/
def require (active : Enforcement → Bool) (error : PyError) : EnforcementService Unit := do
  let d ← look
  if !active d then throw error

/-- `_check_organization_active`. -/
def checkOrganizationActive (id : Uuid) : EnforcementService Unit :=
  require (fun d => d.organizationActive id) .tenantNotActive

/-- `_check_agent_active`. -/
def checkAgentActive (id : Uuid) : EnforcementService Unit :=
  require (fun d => d.agentActive id) .originAgentNotActive

/-- `_check_integration_identity_active`, where there is an identity to check. -/
def checkIntegrationIdentityActive : Option Uuid → EnforcementService Unit
  | none => pure ()
  | some id => require (fun d => d.identityActive id) .integrationIdentityNotActive

/-- `_check_enforcement_binding_active`, where there is a binding to check. -/
def checkEnforcementBindingActive : Option Uuid → EnforcementService Unit
  | none => pure ()
  | some id => require (fun d => d.bindingActive id) .enforcementBindingNotActive

/-! ## Issuing -/

structure IssuedCapability where
  token : String
  capabilityId : Uuid
  expiresAt : Timestamp

/-- What `_raise_for_existing_capability` raises. -/
def errorForExisting (row : CapabilityRow) (now : Timestamp) : PyError :=
  if row.consumedAt.isSome then .capabilityAlreadyConsumedForDecision
  else if row.expiresAt < now then .capabilityExpiredNotRenewed
  else .capabilityAlreadyIssued

/-- The look for a capability of the decision, which raises where there is one. -/
def rejectExistingCapability (decisionId : Uuid) : EnforcementService Unit := do
  let d ← look
  match d.capabilityOf decisionId with
  | none => pure ()
  | some existing => do
    let new ← draw
    throw (errorForExisting existing new.now)

/-- The commit of a capability; the loser of two at once raises as if it had come later. -/
def commitCapability (row : CapabilityRow) (reviewed : Bool) : EnforcementService Unit :=
  tryCatch (commit (.issue row reviewed)) fun e => do
    if e = .integrityError then
      rollback
      rejectExistingCapability row.decisionId
      throw e
    else throw e

/-- `_issue_and_persist`. -/
def issueAndPersist (organizationId : Uuid) (decision : Decision) (intent : IntentRow)
    (audience : String) (ttl : Timestamp) (reviewed : Bool) :
    EnforcementService IssuedCapability := do
  rejectExistingCapability decision.id
  checkOrganizationActive organizationId
  checkAgentActive intent.agentId
  let integrationIdentityId := intent.provenance.map IntegrationProvenance.integrationIdentityId
  let enforcementBindingId := intent.provenance.map IntegrationProvenance.enforcementBindingId
  checkIntegrationIdentityActive integrationIdentityId
  checkEnforcementBindingActive enforcementBindingId
  let d ← look
  let evidence := earliest (fun e => e.createdAt) (d.evidence.filter fun e => e.decisionId = decision.id)
  let new ← draw
  let payload := issuedPayload H organizationId decision.id intent
    ((evidence.map fun e => e.details).getD (.obj [])) audience new.nonce new.now ttl
  let token := H.encodeToken (sealed H payload)
  let row : CapabilityRow :=
    { id := new.id
      organizationId
      decisionId := decision.id
      nonce := payload.nonce
      tokenHash := H.tokenHash token
      expiresAt := payload.expiresAt
      integrationIdentityId
      enforcementBindingId }
  commitCapability row reviewed
  let _ ← look
  return ⟨token, row.id, row.expiresAt⟩

/-- `issue_capability_for_decision`. -/
def issueCapabilityForDecision (organizationId decisionId : Uuid) (audience : String)
    (ttl : Timestamp) : EnforcementService IssuedCapability := do
  let (decision, _) ← getDecisionForOrganization decisionId (some organizationId)
  if decision.outcome ≠ .allow then throw .decisionNotAllow
  let intent ← getIntent decision.intentId
  issueAndPersist H organizationId decision intent audience ttl false

/-- `issue_capability_for_reviewed_decision`. -/
def issueCapabilityForReviewedDecision (organizationId decisionId : Uuid) (audience : String)
    (ttl : Timestamp) : EnforcementService IssuedCapability := do
  let (decision, _) ← getDecisionForOrganization decisionId (some organizationId)
  if decision.outcome ≠ .humanReview then throw .decisionNotHumanReview
  let d ← look
  match d.resolutionOf decisionId with
  | none => throw .reviewNotResolved
  | some review => do
    if review.resolution ≠ .approved then throw .reviewNotApproved
    let intent ← getIntent decision.intentId
    issueAndPersist H organizationId decision intent audience ttl true

/-! ## Consuming -/

structure ConsumedCapability where
  capabilityId : Uuid
  decisionId : Uuid
  resource : String
  constraints : List (String × Json)

/-- `_extract_key_id`. -/
def extractKeyId (token : String) : Except PyError String :=
  match H.decodeToken token with
  | none => .error .valueError
  | some envelope => .ok envelope.keyId

/-- `get_public_key_for_key_id`, which raises here where there is none. -/
def publicKeyFor (token : String) : Except PyError String := do
  let keyId ← extractKeyId H token
  match SigningKeyService.getPublicKeyForKeyId H.keys keyId with
  | none => .error .invalidCapabilityToken
  | some key => .ok key

/-- The row that a token was issued with. -/
def findCapability (tokenHash : String) : EnforcementService CapabilityRow := do
  let d ← look
  match d.capabilities.find? fun c => c.tokenHash = tokenHash with
  | none => throw .capabilityTokenNotFound
  | some row => return row

/-- `_check_consumption_freshness`, and what it has read. -/
def checkConsumptionFreshness (row : CapabilityRow) : EnforcementService Dependencies := do
  let d ← look
  match d.decision row.decisionId with
  | none => throw .attributeError
  | some decision => do
    let intent ← getIntent decision.intentId
    checkOrganizationActive row.organizationId
    checkAgentActive intent.agentId
    checkIntegrationIdentityActive row.integrationIdentityId
    checkEnforcementBindingActive row.enforcementBindingId
    return ⟨row.organizationId, row.decisionId, decision.intentId, intent.agentId,
      row.integrationIdentityId, row.enforcementBindingId⟩

/-- `verify_and_consume_capability`. -/
def verifyAndConsumeCapability (token : String) (e : Presentation) :
    EnforcementService ConsumedCapability := do
  let row ← findCapability (H.tokenHash token)
  let _ ← look
  let publicKey ← lift (publicKeyFor H token)
  let new ← draw
  let payload ← lift (verifyCapabilityToken H token publicKey e new.now)
  let dependencies ← checkConsumptionFreshness row
  let new ← draw
  let consumed ← commitIf (.consume row.id dependencies new.now)
  -- the commit has expired the row, and its id is read again
  let _ ← look
  if !consumed then throw .capabilityTokenAlreadyConsumed
  return ⟨row.id, payload.decisionId, payload.resource, payload.constraints⟩

end CapabilityService

end PayReality
