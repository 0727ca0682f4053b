import PayReality.Execution.CapabilityService
import PayReality.Lib.RecordReports

/-!
# Execution receipts and reconciliation

`execution_receipt_service.py` and `execution_reconciliation_service.py`: what an adapter reports of
an external operation, and what the reports say of a decision. Nothing here changes a decision, an
intent, a capability or a receipt that is there.
-/

namespace PayReality

open Program RecordProg IntentService

/-- What an adapter reports. -/
structure ReceiptRequest where
  enforcementBindingId : Uuid
  decisionId : Uuid
  canonicalActionDigest : String
  externalOperationId : String
  destination : String
  status : String
  capabilityId : Option Uuid := none

namespace ExecutionReceiptService

variable (H : CapabilityHost)

def rejection {α : Type} (reason : String) : Except PyError α :=
  .error (.executionReceiptRejection reason)

/-- The kill switch: an organization that is found is active. -/
def checkOrganization (id : Uuid) : EnforcementService Unit := do
  let d ← look
  match d.organization id with
  | none => pure ()
  | some o =>
    if o.status = .active then pure ()
    else lift (rejection ("organization_not_active:" ++ o.status.value))

/-- `_resolve_owned_binding`. -/
def resolveOwnedBinding (bindingId organizationId identityId : Uuid) :
    EnforcementService BindingRow := do
  let d ← look
  match d.bindings.find? fun b => b.id = bindingId ∧ b.organizationId = organizationId with
  | none => lift (rejection "enforcement_binding_not_found")
  | some b =>
    if b.integrationIdentityId ≠ identityId then lift (rejection "enforcement_binding_not_found")
    else return b

/-- The lookup of the decision, which is told as a rejection where it raises for the decision. -/
def resolveDecision (decisionId organizationId : Uuid) :
    EnforcementService (Decision × IntentRow) :=
  tryCatch (getDecisionForOrganization decisionId (some organizationId)) fun e =>
    if e = .decisionNotFound ∨ e = .crossOrganizationAccess then
      lift (rejection "decision_not_found")
    else throw e

/-- The linkage of a receipt to the intent of its decision. -/
def checkIntentLinkage (identityId : Uuid) (req : ReceiptRequest) (intent : IntentRow) :
    Except PyError IntegrationProvenance :=
  match intent.provenance with
  | none => rejection "identity_not_bound_to_decision"
  | some p =>
    if p.integrationIdentityId ≠ identityId then rejection "identity_not_bound_to_decision"
    else if p.enforcementBindingId ≠ req.enforcementBindingId then
      rejection "enforcement_binding_not_bound_to_decision"
    else if p.canonicalActionDigest ≠ req.canonicalActionDigest then
      rejection "canonical_action_digest_mismatch"
    else if p.externalOperationId ≠ req.externalOperationId then
      rejection "external_operation_id_mismatch"
    else .ok p

/-- `_resolve_capability_linkage`. -/
def resolveCapabilityLinkage (binding : BindingRow) (req : ReceiptRequest) :
    EnforcementService Unit :=
  match req.capabilityId with
  | none =>
    if binding.enforcementAssurance = .capabilityRequired then
      lift (rejection "capability_required_but_not_supplied")
    else pure ()
  | some id => do
    let d ← look
    match (d.capability id).filter fun c => c.decisionId = req.decisionId with
    | none => lift (rejection "capability_not_found_for_decision")
    | some c =>
      if c.enforcementBindingId ≠ some req.enforcementBindingId then
        lift (rejection "capability_enforcement_binding_mismatch")
      else if c.consumedAt.isNone then lift (rejection "capability_not_consumed")
      else pure ()

/-- `_check_destination_consistency`. -/
def checkDestinationConsistency (operation : OperationScope) (destination : String) :
    EnforcementService Unit := do
  let d ← look
  match earliest (fun r => r.submittedAt) (d.receipts.filter fun r => r.operation = operation) with
  | none => pure ()
  | some prior =>
    if prior.destination ≠ destination then lift (rejection "destination_mismatch") else pure ()

/-- The first of the fields that a receipt needs and that has no text. -/
def missingField (req : ReceiptRequest) : Option String :=
  ([("canonical_action_digest", req.canonicalActionDigest),
    ("external_operation_id", req.externalOperationId),
    ("destination", req.destination)].find? fun e => Text.blank e.2).map Prod.fst

/-- `build_execution_receipt`, as the row that is stored. -/
def buildExecutionReceipt (identity : IntegrationIdentity) (req : ReceiptRequest)
    (p : IntegrationProvenance) (new : Drawn) : Except PyError ReceiptRow :=
  match ReceiptStatus.ofText req.status, missingField req with
  | none, _ => .error .invalidExecutionReceiptStatus
  | some _, some field => .error (.missingRequiredExecutionReceiptField field)
  | some status, none =>
    let row : ReceiptRow :=
      { id := new.id
        organizationId := identity.organizationId
        integrationIdentityId := identity.id
        enforcementBindingId := req.enforcementBindingId
        integrationId := p.integrationId
        environment := p.environment
        decisionId := req.decisionId
        capabilityId := req.capabilityId
        canonicalActionDigest := req.canonicalActionDigest
        externalOperationId := req.externalOperationId
        destination := req.destination
        status
        receiptDigest := ""
        submittedAt := new.now }
    .ok { row with receiptDigest := row.digest H }

/-- `_resolve_existing_or_conflict`. -/
def resolveExistingOrConflict (existing : ReceiptRow) (digest : String) : Except PyError ReceiptRow :=
  if existing.receiptDigest = digest then .ok existing else .error .executionReceiptConflict

/-- What the acceptance of a receipt records. -/
def acceptedDetails (row : ReceiptRow) : Json :=
  .obj [("integration_identity_id", .str (H.uuidText row.integrationIdentityId)),
    ("enforcement_binding_id", .str (H.uuidText row.enforcementBindingId)),
    ("capability_id", .ofText (row.capabilityId.map H.uuidText)),
    ("canonical_action_digest", .str row.canonicalActionDigest),
    ("external_operation_id", .str row.externalOperationId),
    ("destination", .str row.destination), ("status", .str row.status.value),
    ("receipt_digest", .str row.receiptDigest)]

/-- The commit of a receipt; the loser of two at once finds the other's, if that is why it lost. -/
def commitReceipt (row : ReceiptRow) (intentId : Uuid) (event : EvidenceEvent) :
    EnforcementService (Option ReceiptRow) :=
  tryCatch (do
      commit (.accept row intentId event)
      return none) fun e => do
    if e = .integrityError then
      rollback
      let d ← look
      match d.receiptOf row.operation row.status with
      | none => throw e
      | some raced => do
        let existing ← lift (resolveExistingOrConflict raced row.receiptDigest)
        return some existing
    else throw e

/-- The receipt is stored, unless one is there for its operation and status. -/
def recordReceipt (row : ReceiptRow) (intentId : Uuid) : EnforcementService ReceiptRow := do
  let d ← look
  match d.receiptOf row.operation row.status with
  | some existing => lift (resolveExistingOrConflict existing row.receiptDigest)
  | none => do
    let event ← appendGenericEvidenceEvent (some row.organizationId) row.decisionId
      (some "EXECUTION_RECEIPT_ACCEPTED") (acceptedDetails H row)
    match ← commitReceipt row intentId event with
    | some existing => return existing
    | none => do
      let _ ← look
      return row

/-- The checks of `submit_execution_receipt` before it looks at other receipts: the intent, and how
it was submitted. -/
def linkReceipt (identity : IntegrationIdentity) (req : ReceiptRequest) :
    EnforcementService (IntentRow × IntegrationProvenance) := do
  if identity.status ≠ .active then
    lift (rejection ("integration_identity_not_active:" ++ identity.status.value))
  checkOrganization identity.organizationId
  let binding ← resolveOwnedBinding req.enforcementBindingId identity.organizationId identity.id
  let (decision, _) ← ExecutionReceiptService.resolveDecision req.decisionId identity.organizationId
  let intent ← getIntent decision.intentId
  let p ← lift (checkIntentLinkage identity.id req intent)
  resolveCapabilityLinkage binding req
  return (intent, p)

/-- `submit_execution_receipt`. -/
def submitExecutionReceipt (identity : IntegrationIdentity) (req : ReceiptRequest) :
    EnforcementService ReceiptRow := do
  let (intent, p) ← linkReceipt identity req
  checkDestinationConsistency (p.integrationId, p.environment, req.externalOperationId)
    req.destination
  let new ← draw
  let row ← lift (buildExecutionReceipt H identity req p new)
  recordReceipt H row intent.id

end ExecutionReceiptService

namespace ExecutionReconciliationService

variable (H : CapabilityHost)

def notApplicable {α : Type} (reason : String) : Except PyError α :=
  .error (.reconciliationNotApplicable reason)

/-- `_decision_is_authorized`. -/
def decisionIsAuthorized (decision : Decision) : EnforcementService Bool :=
  match decision.outcome with
  | .allow => return true
  | .deny => return false
  | .humanReview => do
    let d ← look
    return d.approved decision.id

/-- What a reconciliation finds. -/
structure Finding where
  outcome : ReconciliationOutcome
  capabilityId : Option Uuid
  latestExecutionReceiptId : Option Uuid := none
  detail : Option String := none

/-- What a reconciliation adds to the evidence. -/
def findingDetails (f : Finding) (canonicalActionDigest : Option String) : Json :=
  .obj [("outcome", .str f.outcome.value),
    ("capability_id", .ofText (f.capabilityId.map H.uuidText)),
    ("latest_execution_receipt_id", .ofText (f.latestExecutionReceiptId.map H.uuidText)),
    ("canonical_action_digest", .ofText canonicalActionDigest), ("detail", .ofText f.detail)]

/-- The row of a finding. -/
def resultRow (organizationId decisionId : Uuid) (f : Finding) (new : Drawn) : ResultRow :=
  let row : ResultRow :=
    { id := new.id
      organizationId
      decisionId
      capabilityId := f.capabilityId
      latestExecutionReceiptId := f.latestExecutionReceiptId
      outcome := f.outcome
      resultDigest := ""
      computedAt := new.now }
  { row with resultDigest := row.digest H }

/-- `_persist_result`. -/
def persistResult (organizationId decisionId : Uuid) (f : Finding)
    (canonicalActionDigest : Option String) : EnforcementService ResultRow := do
  let new ← draw
  let row := resultRow H organizationId decisionId f new
  let d ← look
  match (latestExistingResult d.results decisionId).filter fun r =>
      r.resultDigest = row.resultDigest with
  | some existing => return existing
  | none => do
    let event ← appendGenericEvidenceEvent (some organizationId) decisionId
      (some "RECONCILIATION_OUTCOME") (findingDetails H f canonicalActionDigest)
    commit (.reconcile row event)
    let _ ← look
    return row

/-- `by_status`: the last of the receipts with the status. -/
def byStatus (receipts : List ReceiptRow) (status : ReceiptStatus) : Option ReceiptRow :=
  receipts.reverse.find? fun r => r.status = status

/-- `latest_receipt`: that of the first status in the precedence that there is. -/
def chosenReceipt (receipts : List ReceiptRow) : Option ReceiptRow :=
  ReceiptStatus.precedence.findSome? (byStatus receipts)

/-- What the receipts say, in the order of their submission. -/
def findingOf (capabilityId : Option Uuid) (canonicalActionDigest : String)
    (receipts : List ReceiptRow) : Finding :=
  match chosenReceipt receipts with
  | none =>
    { outcome := .receiptMissing, capabilityId, detail := some "no_execution_receipt_recorded_yet" }
  | some r =>
    if r.canonicalActionDigest ≠ canonicalActionDigest then
      { outcome := .mismatched
        capabilityId
        latestExecutionReceiptId := some r.id
        detail := some "canonical_action_digest_mismatch_on_reverification" }
    else
      { outcome := r.status.outcome, capabilityId, latestExecutionReceiptId := some r.id }

/-- The part of `reconcile_decision` that reads the binding, the capability and the receipts. -/
def findingFor (decisionId : Uuid) (p : IntegrationProvenance) : EnforcementService Finding := do
  let d ← look
  let binding := d.binding p.enforcementBindingId
  let d ← look
  let capability := d.capabilityOf decisionId
  let capabilityId := capability.map fun c => c.id
  if binding.any (fun b => b.enforcementAssurance = .capabilityRequired) ∧
      !capability.any (fun c => c.consumedAt.isSome) then
    return { outcome := .mismatched
             capabilityId
             detail := some "capability_required_but_not_consumed" }
  let d ← look
  let receipts := (d.receipts.filter fun r => r.decisionId = decisionId).insertionSort
    fun a b => a.submittedAt ≤ b.submittedAt
  return findingOf capabilityId p.canonicalActionDigest receipts

/-- The lookup of the decision, which is told as a refusal where it raises for the decision. -/
def resolveDecision (decisionId organizationId : Uuid) :
    EnforcementService (Decision × IntentRow) :=
  tryCatch (getDecisionForOrganization decisionId (some organizationId)) fun e =>
    if e = .decisionNotFound ∨ e = .crossOrganizationAccess then
      lift (notApplicable "decision_not_found")
    else throw e

/-- `reconcile_decision`. -/
def reconcileDecision (organizationId decisionId : Uuid) : EnforcementService ResultRow := do
  let (decision, _) ← ExecutionReconciliationService.resolveDecision decisionId organizationId
  let authorized ← decisionIsAuthorized decision
  if !authorized then lift (notApplicable "decision_not_authorized")
  let intent ← getIntent decision.intentId
  match intent.provenance with
  | none => lift (notApplicable "agent_direct_intent_not_applicable")
  | some p => do
    let f ← findingFor decisionId p
    persistResult H organizationId decisionId f (some p.canonicalActionDigest)

end ExecutionReconciliationService

namespace EnforcementBindingLabels

/-- `set_enforcement_assurance`, where it meets the receipts. -/
def setEnforcementAssurance (bindingId organizationId : Uuid) (assurance : EnforcementAssurance) :
    EnforcementService Unit := do
  let d ← look
  match d.bindings.find? fun b => b.id = bindingId ∧ b.organizationId = organizationId with
  | none => throw .enforcementBindingNotFound
  | some binding => do
    commit (.setAssurance binding.id assurance)
    let _ ← look

end EnforcementBindingLabels

/-! ## Requests -/

inductive EnforcementRequest where
  | issue (organizationId decisionId : Uuid) (audience : String) (ttl : Timestamp)
  | issueReviewed (organizationId decisionId : Uuid) (audience : String) (ttl : Timestamp)
  | resolve (decisionId : Uuid) (organizationId : Option Uuid) (resolution : Resolution)
      (resolvedBy : String)
  | consume (token : String) (presentation : CapabilityService.Presentation)
  | submitReceipt (identity : IntegrationIdentity) (req : ReceiptRequest)
  | reconcile (organizationId decisionId : Uuid)
  | setAssurance (bindingId organizationId : Uuid) (assurance : EnforcementAssurance)
  /-- Intents are submitted and decided. -/
  | submit (intents : List IntentRow) (decisions : List Decision) (evidence : List EvidenceEvent)
  /-- Other operations change who and what there is. -/
  | elsewhere (organizations : List Organization) (principals : List Principal)
      (agents : List Agent) (identities : List IntegrationIdentity) (bindings : List BindingRow)

/-- What is told of the end of a request. -/
inductive EnforcementReply where
  | receipt (identity : IntegrationIdentity) (req : ReceiptRequest)
      (result : Except PyError ReceiptRow)
  | consumed (token : String) (result : Except PyError CapabilityService.ConsumedCapability)
  | reviewed (decisionId : Uuid) (result : Except PyError ResolutionRow)
  | other

namespace EnforcementRequest

open CapabilityService ResolutionService ExecutionReceiptService ExecutionReconciliationService
  EnforcementBindingLabels

variable (H : CapabilityHost)

/-- What other operations do: they read, and commit what is theirs. -/
def otherwise (w : EnforcementChange) : EnforcementService Unit := do
  let _ ← look
  commit w

/-- The operation of a request, as `f` wraps it. -/
def operation {α : Type}
    (f : {β : Type} → EnforcementService β → (Except PyError β → EnforcementReply) → α) :
    EnforcementRequest → α
  | .issue organizationId decisionId audience ttl =>
    f (issueCapabilityForDecision H organizationId decisionId audience ttl) fun _ => .other
  | .issueReviewed organizationId decisionId audience ttl =>
    f (issueCapabilityForReviewedDecision H organizationId decisionId audience ttl) fun _ => .other
  | .resolve decisionId organizationId resolution resolvedBy =>
    f (ResolutionService.resolveDecision decisionId organizationId resolution resolvedBy)
      (.reviewed decisionId)
  | .consume token e => f (verifyAndConsumeCapability H token e) (.consumed token)
  | .submitReceipt identity req => f (submitExecutionReceipt H identity req) (.receipt identity req)
  | .reconcile organizationId decisionId =>
    f (reconcileDecision H organizationId decisionId) fun _ => .other
  | .setAssurance bindingId organizationId assurance =>
    f (setEnforcementAssurance bindingId organizationId assurance) fun _ => .other
  | .submit intents decisions evidence =>
    f (otherwise (.submitted intents decisions evidence)) fun _ => .other
  | .elsewhere organizations principals agents identities bindings =>
    f (otherwise (.elsewhere organizations principals agents identities bindings)) fun _ => .other

/-- The request with its session. -/
def run : EnforcementRequest → EnforcementService Unit :=
  operation H fun p _ => recordSession p

/-- The request with its session, whose end is reported. -/
def reporting : EnforcementRequest →
    Prog (RecordStatement EnforcementChange ⊕ EnforcementReply)
      (ReportAnswer (RecordStatement.Answer Enforcement Drawn) EnforcementReply) PyError Unit :=
  operation H fun p mk => (answering p).reported mk

end EnforcementRequest

/-- The requests that may be going on side by side. -/
def enforcementRequests (H : CapabilityHost) : Set (EnforcementService Unit) :=
  {p | ∃ r : EnforcementRequest, p = r.run H}

end PayReality
