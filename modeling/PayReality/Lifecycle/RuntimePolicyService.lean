import PayReality.Compiler.CompilerV2
import PayReality.Store.Machine

/-!
# Versions, their review, and deployment

`runtime_policy_service.py`: authoring and reviewing versions of a policy, compiling one with the
other active versions of its organization, and deploying it: a row of `policies`, then OPA, then
the statuses. Each query, each flush, each commit and each call to OPA is one statement.

The time that an operation reads is given to it.
-/

namespace PayReality

open Program

namespace RuntimePolicyService

open Service

variable (P : Platform)

/-- `record_lifecycle_event`. -/
def recordLifecycleEvent (event : LifecycleEvent) : Service Unit :=
  tryCatch (commit [.insertEvent event]) fun _ => rollback

/-- A session that still holds a row unexpired reads the columns that it holds. -/
def heldOr (held : Option RuntimePolicyRecord) (row : RuntimePolicyRecord) : RuntimePolicyRecord :=
  match held with
  | some h => if h.ident = row.ident then h else row
  | none => row

/-- `get_latest`. -/
def getLatest (policyKey : Uuid) (organizationId : Option Uuid)
    (held : Option RuntimePolicyRecord := none) : Service RuntimePolicyRecord := do
  match ← select (.latestVersionRow policyKey organizationId) with
  | none => throw .runtimePolicyNotFound
  | some row => return heldOr held row

/-- `get_version`. -/
def getVersion (policyKey : Uuid) (version : ℕ) (organizationId : Option Uuid) :
    Service RuntimePolicyRecord := do
  match ← select (.versionRow policyKey version organizationId) with
  | none => throw .runtimePolicyNotFound
  | some row => return row

/-- `db.refresh(row)`, which fails where the row is gone. -/
def refresh (policyKey : Uuid) (version : ℕ) (organizationId : Option Uuid) :
    Service RuntimePolicyRecord := do
  match ← select (.versionRow policyKey version organizationId) with
  | none => throw .databaseError
  | some row => return row

/-! ## Authoring -/

/-- `sandbox_limits.MAX_POLICIES_PER_SANDBOX`. -/
def maxPoliciesPerSandbox : ℕ := 10

def isSandboxOrganization : Option Uuid → Service Bool
  | none => return false
  | some id => do
    match ← select (.organization id) with
    | some o => return o.environment = .sandbox
    | none => return false

/-- A new version, as it is inserted. -/
def draftRow (policyKey : Uuid) (version : ℕ) (content : RuntimePolicy)
    (organizationId : Option Uuid) (sourceGraphApprovalId : Option Uuid := none) :
    RuntimePolicyRecord where
  policyKey
  version
  status := .draft
  content
  organizationId
  sourceGraphApprovalId

/-- The insertion of a version, and the event that records it. -/
def insertDraft (row : RuntimePolicyRecord) (eventType : LifecycleEventType) :
    Service RuntimePolicyRecord := do
  commit [.insertRecord row]
  let row ← refresh row.policyKey row.version row.organizationId
  recordLifecycleEvent
    { policyKey := row.policyKey
      version := row.version
      eventType
      actor := row.content.metadata.createdBy }
  return row

def policyKeyOf (policy : RuntimePolicy) : Service Uuid :=
  match P.uuid policy.id with
  | some key => return key
  | none => uuid4

def createPolicy (policy : RuntimePolicy) (organizationId : Option Uuid)
    (sourceGraphApprovalId : Option Uuid := none) : Service RuntimePolicyRecord := do
  if ← isSandboxOrganization organizationId then
    let existing ← select (.policyKeys organizationId)
    if maxPoliciesPerSandbox ≤ existing.length then throw .sandboxLimitExceeded
  let policyKey ← policyKeyOf P policy
  insertDraft (draftRow policyKey 1 policy organizationId sourceGraphApprovalId) .created

def editPolicy (policyKey : Uuid) (organizationId : Option Uuid) (updatedPolicy : RuntimePolicy)
    (held : Option RuntimePolicyRecord := none) : Service RuntimePolicyRecord := do
  let latest ← getLatest policyKey organizationId held
  if latest.status = .archived then throw (.invalidTransition latest.status.value "edit")
  insertDraft (draftRow policyKey (latest.version + 1) updatedPolicy latest.organizationId) .edited

/-! ## Review -/

/-- A transition of the latest version: the columns it assigns, and the event that records it. -/
def transition (row : RuntimePolicyRecord) (columns : RecordColumns) (event : LifecycleEvent) :
    Service RuntimePolicyRecord := do
  commit [.updateRecord row.policyKey row.version columns]
  let row ← refresh row.policyKey row.version row.organizationId
  recordLifecycleEvent event
  return row

def submitForReview (policyKey : Uuid) (organizationId : Option Uuid) :
    Service RuntimePolicyRecord := do
  let row ← getLatest policyKey organizationId
  if row.status ≠ .draft then throw (.invalidTransition row.status.value "submit for review")
  transition row { status := some .pendingReview }
    { policyKey := row.policyKey
      version := row.version
      eventType := .submitted }

/-- The content of a version once it is approved. -/
def approvedContent (content : RuntimePolicy) (approver : String) (approverUserId : Option String)
    (now : Timestamp) : RuntimePolicy :=
  { content with
    audit := { content.audit with
      approved := some now
      approvedBy := some approver
      approvedByUserId := approverUserId } }

def approve (policyKey : Uuid) (organizationId : Option Uuid) (approver : String)
    (approverUserId : Option String) (now : Timestamp) : Service RuntimePolicyRecord := do
  let row ← getLatest policyKey organizationId
  if row.status ≠ .pendingReview then throw (.invalidTransition row.status.value "approve")
  transition row
    { status := some .approved
      content := some (approvedContent row.content approver approverUserId now) }
    { policyKey := row.policyKey
      version := row.version
      eventType := .approved
      actor := some approver }

def rejectedContent (content : RuntimePolicy) (reviewer reason : String)
    (reviewerUserId : Option String) (now : Timestamp) : RuntimePolicy :=
  { content with
    audit := { content.audit with
      rejected := some now
      rejectedBy := some reviewer
      rejectedByUserId := reviewerUserId
      rejectionReason := some reason } }

def reject (policyKey : Uuid) (organizationId : Option Uuid) (reviewer reason : String)
    (reviewerUserId : Option String) (now : Timestamp) : Service RuntimePolicyRecord := do
  let row ← getLatest policyKey organizationId
  if row.status ≠ .pendingReview then throw (.invalidTransition row.status.value "reject")
  if Text.blank reason then throw .valueError
  transition row
    { status := some .rejected
      content := some (rejectedContent row.content reviewer reason reviewerUserId now) }
    { policyKey := row.policyKey
      version := row.version
      eventType := .rejected
      actor := some reviewer
      reason := some reason }

/-! ## Compilation -/

/-- `_bundle_id_for`. -/
def bundleIdFor (policyKey : Uuid) (version : ℕ) : String :=
  "bundle_" ++ P.uuidHex policyKey ++ "_" ++ toString version

/-- `_other_active_policies`. -/
def otherActivePolicies (excludePolicyKey : Uuid) (organizationId : Option Uuid) :
    Service (List RuntimePolicy) := do
  return (← select (.otherActivePolicies excludePolicyKey organizationId)).map
    RuntimePolicyRecord.content

/-- A version compiled with the other active versions of its organization. -/
def compileWith (row : RuntimePolicyRecord) (others : List RuntimePolicy) (now : Timestamp) :
    Except PyError CompileResult :=
  CompilerV2.compileBundle CompilerV2.genericVocabulary (row.content :: others)
    (bundleIdFor P row.policyKey row.version) row.version now

structure CompileOutcome where
  record : RuntimePolicyRecord
  errors : List CompilerError
  bundleId : Option String := none
  bundleHash : Option BundleHash := none

def compilePolicy (policyKey : Uuid) (organizationId : Option Uuid) (now : Timestamp)
    (held : Option RuntimePolicyRecord := none) : Service CompileOutcome := do
  let row ← getLatest policyKey organizationId held
  if row.status ≠ .approved then throw (.invalidTransition row.status.value "compile")
  let others ← otherActivePolicies policyKey organizationId
  let result ← lift (compileWith P row others now)
  match result.bundle with
  | none => return { record := row, errors := result.errors }
  | some bundle =>
    let row ← transition row
      { status := some .compiled
        bundle := some (bundle.bundleId, bundle.bundleHash) }
      { policyKey := row.policyKey
        version := row.version
        eventType := .compiled }
    return {
      record := row
      errors := result.errors
      bundleId := row.bundleId
      bundleHash := row.bundleHash }

/-! ## OPA and the active versions -/

/-- The active versions of an organization, compiled. -/
def compileActive (rows : List RuntimePolicyRecord) (bundleId : String) (now : Timestamp) :
    Except PyError CompileResult :=
  CompilerV2.compileBundle CompilerV2.genericVocabulary (rows.map RuntimePolicyRecord.content)
    bundleId 1 now

/-- Load the compilation of the active versions of an organization. -/
def uploadActive (organizationId : Option Uuid) (rows : List RuntimePolicyRecord)
    (bundleId : String) (now : Timestamp) : Service Unit := do
  let result ← lift (compileActive rows bundleId now)
  match result.bundle with
  | none => throw .compilationRequired
  | some bundle => uploadPolicy organizationId bundle.regoSource

/-- `_reconcile_organization_opa_state`. -/
def reconcileOrganizationOpaState (organizationId : Option Uuid) (now : Timestamp) :
    Service Unit := do
  let rows ← select (.activeRecords organizationId)
  if rows.isEmpty then deletePolicy organizationId
  else uploadActive organizationId rows "reconcile" now

/-- The loop of `reconcile_opa_with_active_policies`. -/
def reconcileOrganizations (now : Timestamp) : List (Option Uuid) → Service Unit
  | [] => return ()
  | organizationId :: organizationIds => do
    let rows ← select (.activeRecords organizationId)
    if rows.isEmpty then reconcileOrganizations now organizationIds
    else
      uploadActive organizationId rows "startup-reconcile" now
      reconcileOrganizations now organizationIds

/-- `reconcile_opa_with_active_policies`. -/
def reconcileOpaWithActivePolicies (now : Timestamp) : Service Bool := do
  let organizationIds ← select .activeOrganizations
  if organizationIds.isEmpty then return false
  reconcileOrganizations now organizationIds
  return true

/-! ## Deployment -/

structure DeployOutcome where
  policyVersion : ℕ
  bundleId : String
  bundleHash : BundleHash
  deployedAt : Timestamp
  authorityId : Option String
  mandateId : Option String

/-- `_DEFAULT_MANDATE_VALIDITY`, in microseconds. -/
def defaultMandateValidity : Timestamp := 36500 * 24 * 3600 * 1000000

/-- `_is_unexpected_active_writer`. -/
def isUnexpectedActiveWriter (priorActive : Option PolicyRow) : Bool :=
  priorActive.any fun p => !p.bundleUri.expected

/-- `_ensure_mandate`. -/
def ensureMandate (constraints : Constraints) (policyVersion : ℕ) (now : Timestamp) :
    Service Constraints := do
  match constraints.authorityId.filter (· ≠ ""), constraints.mandateId.filter (· ≠ "") with
  | some authorityId, none =>
    match P.uuid authorityId with
    | none => throw .valueError
    | some id =>
      match ← select (.authority id) with
      | none => return constraints
      | some authority =>
        let mandateId ← uuid4
        flushMandate
          { id := mandateId
            policyId := policyVersion
            authorityId := authority.id
            principalId := authority.principalId
            scope := authority.scope
            maxAmount := authority.limitAmount
            currency := authority.currency
            validFrom := now
            validTo := constraints.expires.getD (now + defaultMandateValidity) }
        return { constraints with mandateId := some (P.uuidText mandateId) }
  | _, _ => return constraints

/-- The row of `policies` that a deploy inserts. -/
def deployedRow (row : RuntimePolicyRecord) (organizationId : Option Uuid) (version : ℕ)
    (bundle : PolicyBundle) (now : Timestamp) : PolicyRow where
  version
  status := .active
  bundleHash := bundle.bundleHash
  bundleUri := .studio row.policyKey row.version
  compiledAt := some now
  activatedAt := some now
  bundleManifest := some bundle.manifest
  organizationId

/-- The content of a version once it is deployed. -/
def deployedContent (content : RuntimePolicy) (constraints : Constraints) (now : Timestamp) :
    RuntimePolicy :=
  { content with
    constraints
    audit := { content.audit with deployed := some now } }

/-- What a deploy commits: the status of the version it replaces, if there is one, and that of the
version it activates. -/
def deployWrites (row : RuntimePolicyRecord) (replaced : Option RuntimePolicyRecord)
    (content : RuntimePolicy) : List Write :=
  ((replaced.filter fun r => r.ident ≠ row.ident).map fun r =>
    Write.updateRecord r.policyKey r.version { status := some .retired }).toList ++
  [.updateRecord row.policyKey row.version { status := some .active, content := some content }]

/-- The body of the `try` of `_deploy_policy_attempt`: OPA, then the statuses. -/
def publish (row : RuntimePolicyRecord) (organizationId : Option Uuid) (policyVersion : ℕ)
    (bundle : PolicyBundle) (now : Timestamp) : Service Constraints := do
  uploadPolicy organizationId bundle.regoSource
  let replaced ← select (.activeVersion row.policyKey organizationId)
  let constraints ← ensureMandate P row.content.constraints policyVersion now
  commit (deployWrites row replaced (deployedContent row.content constraints now))
  return constraints

/-- `_deploy_policy_attempt` from where the bundle is the one that was reviewed. -/
def deployBundle (row : RuntimePolicyRecord) (organizationId : Option Uuid) (bundle : PolicyBundle)
    (now : Timestamp) : Service DeployOutcome := do
  let priorActive ← select (.activePolicy organizationId)
  if isUnexpectedActiveWriter priorActive then throw .unexpectedActiveWriter
  let version := (← select .maxPolicyVersion) + 1
  flushPolicy (priorActive.map PolicyRow.version) (deployedRow row organizationId version bundle now)
  let constraints ← tryCatch (publish P row organizationId version bundle now) fun e => do
    rollback
    reconcileOrganizationOpaState organizationId now
    throw e
  let _ ← select (.policyRow version)
  return {
    policyVersion := version
    bundleId := bundle.bundleId
    bundleHash := bundle.bundleHash
    deployedAt := now
    authorityId := constraints.authorityId
    mandateId := constraints.mandateId }

/-- `_deploy_policy_attempt`. -/
def deployPolicyAttempt (policyKey : Uuid) (organizationId : Option Uuid) (now : Timestamp)
    (held : Option RuntimePolicyRecord) : Service DeployOutcome := do
  let row ← getLatest policyKey organizationId held
  if row.status ≠ .compiled then throw (.invalidTransition row.status.value "deploy")
  let others ← otherActivePolicies policyKey organizationId
  let result ← lift (compileWith P row others now)
  match result.bundle with
  | none => throw .compilationRequired
  | some bundle =>
    if some bundle.bundleHash ≠ row.bundleHash then throw .bundleChangedSinceCompile
    deployBundle P row organizationId bundle now

/-- The attempts that are left of `deploy_policy`. A rollback expires what the session holds. -/
def deployAttempts (policyKey : Uuid) (organizationId : Option Uuid) (now : Timestamp) :
    ℕ → Option RuntimePolicyRecord → Service DeployOutcome
  | 0, _ => do
    reconcileOrganizationOpaState organizationId now
    throw .concurrentDeploymentConflict
  | n + 1, held =>
    tryCatch (deployPolicyAttempt P policyKey organizationId now held) fun e =>
      if e = .integrityError then do
        rollback
        deployAttempts policyKey organizationId now n none
      else throw e

def maxDeployAttempts : ℕ := 3

def deployPolicy (policyKey : Uuid) (organizationId : Option Uuid) (now : Timestamp)
    (held : Option RuntimePolicyRecord := none) : Service DeployOutcome :=
  deployAttempts P policyKey organizationId now maxDeployAttempts held

end RuntimePolicyService

end PayReality
