import Mathlib.Data.List.Sort
import PayReality.Capability.Token
import PayReality.Integration.Registry

/-!
# What happens after a decision

The rows of reviews, capabilities, execution receipts and reconciliation results, beside the intents
and decisions that they are about. Their services read what they need, statement by statement, and
write with one commit.

* `Enforcement`: the rows. Intents, decisions and evidence are only added.
* `EnforcementChange`: what the commits change. A capability is consumed by an `UPDATE` that asks for
  `consumed_at IS NULL`.
* `enforcementSchema`: the unique indexes, and what is checked for each change.
-/

namespace PayReality

open Program

/-! ## Rows -/

inductive Resolution where
  | approved | denied
  deriving DecidableEq, Repr

def Resolution.value : Resolution → String
  | .approved => "approved"
  | .denied => "denied"

/-- `decision_resolutions`. -/
structure ResolutionRow where
  id : Uuid
  decisionId : Uuid
  resolution : Resolution

/-- `capability_tokens`. -/
structure CapabilityRow where
  id : Uuid
  organizationId : Uuid
  decisionId : Uuid
  nonce : String
  tokenHash : String
  expiresAt : Timestamp
  consumedAt : Option Timestamp := none
  integrationIdentityId : Option Uuid
  enforcementBindingId : Option Uuid

/-- `EXECUTION_RECEIPT_STATUSES`. -/
inductive ReceiptStatus where
  | accepted | succeeded | failed | partiallySucceeded | unknown
  deriving DecidableEq, Repr

namespace ReceiptStatus

def value : ReceiptStatus → String
  | .accepted => "ACCEPTED"
  | .succeeded => "SUCCEEDED"
  | .failed => "FAILED"
  | .partiallySucceeded => "PARTIALLY_SUCCEEDED"
  | .unknown => "UNKNOWN"

/-- `_TERMINAL_PRECEDENCE`. -/
def precedence : List ReceiptStatus := [.succeeded, .partiallySucceeded, .failed, .unknown, .accepted]

def ofText (s : String) : Option ReceiptStatus := precedence.find? fun status => status.value = s

end ReceiptStatus

/-- One external operation: the integration, the environment and the id that the adapter gave it. -/
abbrev OperationScope := Uuid × String × String

/-- `execution_receipts`. -/
structure ReceiptRow where
  id : Uuid
  organizationId : Uuid
  integrationIdentityId : Uuid
  enforcementBindingId : Uuid
  integrationId : Uuid
  environment : String
  decisionId : Uuid
  capabilityId : Option Uuid
  canonicalActionDigest : String
  externalOperationId : String
  destination : String
  status : ReceiptStatus
  receiptDigest : String
  submittedAt : Timestamp
  deriving DecidableEq

def ReceiptRow.operation (r : ReceiptRow) : OperationScope :=
  (r.integrationId, r.environment, r.externalOperationId)

inductive ReconciliationOutcome where
  | matched | mismatched | executionFailed | partiallyDone | receiptMissing | indeterminate
  deriving DecidableEq, Repr

def ReconciliationOutcome.value : ReconciliationOutcome → String
  | .matched => "MATCHED"
  | .mismatched => "MISMATCHED"
  | .executionFailed => "EXECUTION_FAILED"
  | .partiallyDone => "PARTIAL"
  | .receiptMissing => "RECEIPT_MISSING"
  | .indeterminate => "INDETERMINATE"

/-- `_STATUS_TO_OUTCOME`. -/
def ReceiptStatus.outcome : ReceiptStatus → ReconciliationOutcome
  | .succeeded => .matched
  | .partiallySucceeded => .partiallyDone
  | .failed => .executionFailed
  | .unknown | .accepted => .indeterminate

/-- `reconciliation_results`. -/
structure ResultRow where
  id : Uuid
  organizationId : Uuid
  decisionId : Uuid
  capabilityId : Option Uuid
  latestExecutionReceiptId : Option Uuid
  outcome : ReconciliationOutcome
  resultDigest : String
  computedAt : Timestamp
  deriving DecidableEq

/-- `evidence`, without the columns of the chain; an event that is not a decision's outcome has a
type. -/
structure EvidenceEvent where
  id : Uuid
  organizationId : Option Uuid
  decisionId : Uuid
  eventType : Option String
  details : Json
  createdAt : Timestamp

/-- The outcome of a review is part of what is recorded. -/
def EvidenceEvent.isReview (e : EvidenceEvent) : Bool :=
  e.eventType.isNone && match e.details.get? "review_outcome" with
    | some (.str _) => true
    | _ => false

/-- An event of this type, about the decision. -/
def EvidenceEvent.isTyped (e : EvidenceEvent) (eventType : String) (decisionId : Uuid) : Bool :=
  e.eventType = some eventType ∧ e.decisionId = decisionId

/-- The first of the rows in an order by time; of two with one time the one that was added first. -/
def earliest {α : Type} (time : α → Timestamp) (rows : List α) : Option α :=
  (rows.insertionSort fun a b => time a ≤ time b).head?

section

variable {α : Type} {time : α → Timestamp} {rows : List α} {a b : α}

theorem earliest_cons (time : α → Timestamp) (a : α) (rows : List α) :
    earliest time (a :: rows) = some (match earliest time rows with
      | none => a
      | some b => if time a ≤ time b then a else b) := by
  unfold earliest
  rw [List.insertionSort_cons]
  cases rows.insertionSort fun a b => time a ≤ time b with
  | nil => rfl
  | cons b sorted =>
    rw [List.orderedInsert_cons]
    by_cases h : time a ≤ time b <;> simp [h]

theorem earliest_mem (h : earliest time rows = some a) : a ∈ rows := by
  have := List.mem_of_mem_head? h
  rwa [List.mem_insertionSort] at this

theorem earliest_eq_none : earliest time rows = none ↔ rows = [] := by
  cases rows with
  | nil => simp [earliest]
  | cons a rows => simp [earliest_cons]

/-- With one more row, the earliest stays unless the new one is earlier. -/
theorem earliest_concat (rows : List α) (a : α) : earliest time (rows ++ [a]) =
    some (match earliest time rows with
      | none => a
      | some b => if time b ≤ time a then b else a) := by
  induction rows with
  | nil => rfl
  | cons b rows ih =>
    rw [List.cons_append, earliest_cons, ih, earliest_cons time b rows]
    cases earliest time rows with
    | none => rfl
    | some c =>
      dsimp only
      by_cases hc : time c ≤ time a <;> by_cases hb : time b ≤ time c
      · simp [hc, hb, hb.trans hc]
      · simp [hc, hb]
      · simp [hc, hb]
      · have ha : ¬ time b ≤ time a := not_le.2 ((not_le.1 hc).trans (not_le.1 hb))
        simp [hc, hb, ha]

end

namespace ExecutionReconciliationService

/-- `ORDER BY computed_at DESC LIMIT 1`. -/
def latestExistingResult (rows : List ResultRow) (decisionId : Uuid) : Option ResultRow :=
  ((rows.filter fun r => r.decisionId = decisionId).insertionSort
    fun a b => b.computedAt ≤ a.computedAt).head?

end ExecutionReconciliationService

structure Enforcement where
  organizations : List Organization := []
  principals : List Principal := []
  agents : List Agent := []
  identities : List IntegrationIdentity := []
  bindings : List BindingRow := []
  intents : List IntentRow := []
  decisions : List Decision := []
  evidence : List EvidenceEvent := []
  resolutions : List ResolutionRow := []
  capabilities : List CapabilityRow := []
  receipts : List ReceiptRow := []
  results : List ResultRow := []

namespace Enforcement

variable (d : Enforcement)

def organization (id : Uuid) : Option Organization := Rows.get (·.id) d.organizations id

def principal (id : Uuid) : Option Principal := Rows.get (·.id) d.principals id

def agent (id : Uuid) : Option Agent := Rows.get (·.id) d.agents id

def identity (id : Uuid) : Option IntegrationIdentity := Rows.get (·.id) d.identities id

def binding (id : Uuid) : Option BindingRow := Rows.get (·.id) d.bindings id

def intent (id : Uuid) : Option IntentRow := Rows.get (·.id) d.intents id

def decision (id : Uuid) : Option Decision := Rows.get (·.id) d.decisions id

def capability (id : Uuid) : Option CapabilityRow := Rows.get (·.id) d.capabilities id

/-- `decision_resolutions.decision_id` is unique. -/
def resolutionOf (decisionId : Uuid) : Option ResolutionRow :=
  Rows.get (·.decisionId) d.resolutions decisionId

/-- `capability_tokens.decision_id` is unique. -/
def capabilityOf (decisionId : Uuid) : Option CapabilityRow :=
  Rows.get (·.decisionId) d.capabilities decisionId

/-- The receipt of an operation with a status. -/
def receiptOf (operation : OperationScope) (status : ReceiptStatus) : Option ReceiptRow :=
  Rows.get (fun r => (r.operation, r.status)) d.receipts (operation, status)

/-- The destination that is on record for an operation. -/
def destinationOf (operation : OperationScope) : Option String :=
  (earliest (fun r => r.submittedAt) (d.receipts.filter fun r => r.operation = operation)).map
    fun r => r.destination

/-- The primary keys and the unique indexes. -/
def admitted : Bool :=
  (d.organizations.map fun o => o.id).Nodup ∧ (d.bindings.map fun b => b.id).Nodup ∧
  (d.intents.map fun i => i.id).Nodup ∧ (d.decisions.map fun d => d.id).Nodup ∧
  (d.resolutions.map fun r => r.decisionId).Nodup ∧
  (d.capabilities.map fun c => c.id).Nodup ∧ (d.capabilities.map fun c => c.nonce).Nodup ∧
  (d.capabilities.map fun c => c.decisionId).Nodup ∧ (d.receipts.map fun r => r.id).Nodup ∧
  (d.receipts.map fun r => (r.operation, r.status)).Nodup

end Enforcement

/-! ## Changes -/

/-- What a capability depends on, as its consumption has read it. -/
structure Dependencies where
  organizationId : Uuid
  decisionId : Uuid
  intentId : Uuid
  agentId : Uuid
  integrationIdentityId : Option Uuid
  enforcementBindingId : Option Uuid

inductive EnforcementChange where
  /-- A capability, of a decision that was reviewed or not. -/
  | issue (row : CapabilityRow) (reviewed : Bool)
  | resolve (row : ResolutionRow) (event : EvidenceEvent)
  | consume (id : Uuid) (dependencies : Dependencies) (now : Timestamp)
  /-- A receipt, for a decision with this intent. -/
  | accept (row : ReceiptRow) (intentId : Uuid) (event : EvidenceEvent)
  | reconcile (row : ResultRow) (event : EvidenceEvent)
  | setAssurance (bindingId : Uuid) (assurance : EnforcementAssurance)
  /-- Intents have been submitted and decided. -/
  | submitted (intents : List IntentRow) (decisions : List Decision) (evidence : List EvidenceEvent)
  /-- Other operations have changed who and what there is. -/
  | elsewhere (organizations : List Organization) (principals : List Principal)
      (agents : List Agent) (identities : List IntegrationIdentity) (bindings : List BindingRow)

namespace EnforcementChange

def apply : EnforcementChange → Enforcement → Enforcement
  | .issue row _, d => { d with capabilities := d.capabilities ++ [row] }
  | .resolve row event, d =>
    { d with resolutions := d.resolutions ++ [row], evidence := d.evidence ++ [event] }
  | .consume id _ now, d =>
    { d with
      capabilities := Rows.update (·.id) d.capabilities id fun c => { c with consumedAt := some now } }
  | .accept row _ event, d =>
    { d with receipts := d.receipts ++ [row], evidence := d.evidence ++ [event] }
  | .reconcile row event, d =>
    { d with results := d.results ++ [row], evidence := d.evidence ++ [event] }
  | .setAssurance bindingId enforcementAssurance, d =>
    { d with
      bindings := Rows.update (·.id) d.bindings bindingId fun b => { b with enforcementAssurance } }
  | .submitted intents decisions evidence, d =>
    { d with
      intents := d.intents ++ intents
      decisions := d.decisions ++ decisions
      evidence := d.evidence ++ evidence }
  | .elsewhere organizations principals agents identities bindings, d =>
    { d with organizations, principals, agents, identities, bindings }

/-- `WHERE consumed_at IS NULL`. -/
def isMet : EnforcementChange → Enforcement → Bool
  | .consume id _ _, d => (d.capability id).any fun c => c.consumedAt.isNone
  | _, _ => true

end EnforcementChange

/-! ## What is checked -/

namespace Enforcement

variable (d : Enforcement)

def organizationActive (id : Uuid) : Bool :=
  (d.organization id).any fun o => o.status = .active

/-- No organization of this id is inactive. -/
def organizationNotInactive (id : Uuid) : Bool :=
  (d.organization id).all fun o => o.status = .active

def agentActive (id : Uuid) : Bool := (d.agent id).any fun a => a.status = .active

def identityActive (id : Uuid) : Bool := (d.identity id).any fun i => i.status = .active

def bindingActive (id : Uuid) : Bool := (d.binding id).any fun b => b.status = .active

def outcomeIs (decisionId : Uuid) (outcome : Outcome) : Bool :=
  (d.decision decisionId).any fun d => d.outcome = outcome

def approved (decisionId : Uuid) : Bool :=
  (d.resolutionOf decisionId).any fun r => r.resolution = .approved

/-- `_decision_is_authorized`. -/
def authorized (decisionId : Uuid) : Bool :=
  d.outcomeIs decisionId .allow || d.outcomeIs decisionId .humanReview && d.approved decisionId

/-- The capability is of a decision and a binding, and is consumed. -/
def consumedFor (capabilityId decisionId bindingId : Uuid) : Bool :=
  (d.capability capabilityId).any fun c =>
    c.decisionId = decisionId ∧ c.enforcementBindingId = some bindingId ∧ c.consumedAt.isSome

/-- The binding is there, and is not labelled as requiring a capability. -/
def capabilityOptional (bindingId : Uuid) : Bool :=
  (d.binding bindingId).any fun b => b.enforcementAssurance ≠ .capabilityRequired

end Enforcement

/-- The intent was submitted through the identity and the binding of the receipt, with its digest and
as its operation. -/
def ReceiptRow.reports (r : ReceiptRow) (i : IntentRow) : Bool :=
  i.provenance.any fun p =>
    p.integrationIdentityId = r.integrationIdentityId ∧
    p.enforcementBindingId = r.enforcementBindingId ∧
    p.canonicalActionDigest = r.canonicalActionDigest ∧
    (p.integrationId, p.environment, p.externalOperationId) = r.operation

section

variable (H : CapabilityHost) (others : Bool)

/-- `material_fields`. -/
def ReceiptRow.materialFields (r : ReceiptRow) : Json :=
  .obj [("schema_version", .int 1), ("organization_id", .str (H.uuidText r.organizationId)),
    ("integration_identity_id", .str (H.uuidText r.integrationIdentityId)),
    ("enforcement_binding_id", .str (H.uuidText r.enforcementBindingId)),
    ("decision_id", .str (H.uuidText r.decisionId)),
    ("capability_id", .ofText (r.capabilityId.map H.uuidText)),
    ("canonical_action_digest", .str r.canonicalActionDigest),
    ("external_operation_id", .str r.externalOperationId), ("destination", .str r.destination),
    ("status", .str r.status.value)]

/-- `receipt_digest`. -/
def ReceiptRow.digest (r : ReceiptRow) : String := H.payloadHash (r.materialFields H)

/-- What `_result_digest` hashes. -/
def ResultRow.summary (r : ResultRow) : Json :=
  .obj [("organization_id", .str (H.uuidText r.organizationId)),
    ("decision_id", .str (H.uuidText r.decisionId)), ("outcome", .str r.outcome.value),
    ("capability_id", .ofText (r.capabilityId.map H.uuidText)),
    ("latest_execution_receipt_id", .ofText (r.latestExecutionReceiptId.map H.uuidText))]

/-- `_result_digest`. -/
def ResultRow.digest (r : ResultRow) : String := H.payloadHash (r.summary H)

/-- What an operation checks before it commits a change, and of which kind the evidence is that it adds
with it. -/
def EnforcementChange.checks : EnforcementChange → List (Enforcement → Bool)
  | .issue row reviewed =>
    [fun d => d.organizationActive row.organizationId,
      fun d => d.outcomeIs row.decisionId (if reviewed then .humanReview else .allow),
      fun d => !reviewed || d.approved row.decisionId]
  | .resolve row event =>
    [fun d => d.outcomeIs row.decisionId .humanReview,
      fun _ => event.isReview ∧ event.decisionId = row.decisionId]
  | .consume id p _ =>
    [fun d => (d.capability id).any fun c =>
        c.organizationId = p.organizationId ∧ c.decisionId = p.decisionId ∧
        c.integrationIdentityId = p.integrationIdentityId ∧
        c.enforcementBindingId = p.enforcementBindingId,
      fun d => (d.decision p.decisionId).any fun d => d.intentId = p.intentId,
      fun d => (d.intent p.intentId).any fun i => i.agentId = p.agentId,
      fun d => d.organizationActive p.organizationId, fun d => d.agentActive p.agentId,
      fun d => p.integrationIdentityId.all d.identityActive,
      fun d => p.enforcementBindingId.all d.bindingActive]
  | .accept row intentId event =>
    [fun d => d.organizationNotInactive row.organizationId,
      fun d => (d.decision row.decisionId).any fun d => d.intentId = intentId,
      fun d => (d.intent intentId).any row.reports,
      fun d => row.capabilityId.isSome || d.capabilityOptional row.enforcementBindingId,
      fun d => row.capabilityId.all fun c => d.consumedFor c row.decisionId row.enforcementBindingId,
      fun _ => row.receiptDigest = row.digest H,
      fun _ => event.isTyped "EXECUTION_RECEIPT_ACCEPTED" row.decisionId,
      fun d => (d.destinationOf row.operation).all fun destination => destination = row.destination]
  | .reconcile row event =>
    [fun _ => row.resultDigest = row.digest H,
      fun d => (ExecutionReconciliationService.latestExistingResult d.results row.decisionId).all
        fun r => r.resultDigest ≠ row.resultDigest,
      fun _ => event.isTyped "RECONCILIATION_OUTCOME" row.decisionId]
  | .setAssurance .. => []
  | .submitted .. | .elsewhere .. => [fun _ => others]

/-- What follows a decision, as records; `others` says whether other operations may submit intents and
change who and what there is. -/
def enforcementSchema : Schema Enforcement EnforcementChange PyError where
  apply := EnforcementChange.apply
  admits := Enforcement.admitted
  checks := EnforcementChange.checks H others
  isMet := EnforcementChange.isMet
  refused := .integrityError
  failed := .databaseError

end

/-- What is new at each statement that makes something: an id, a nonce and the time. -/
structure Drawn where
  id : Uuid
  nonce : String
  now : Timestamp

/-- A service over the enforcement rows. -/
abbrev EnforcementService := RecordProg Enforcement EnforcementChange Drawn PyError

end PayReality
