import PayReality.Lib.Records
import PayReality.Lib.Rows
import PayReality.Lifecycle.RuntimePolicyService
import PayReality.Policy.Schema
import PayReality.Policy.Validators
import PayReality.Promotion.AmountLimit

/-!
# Promoting a candidate

`ai_policy_builder_service.promote_candidate`, and `runtime_policy_service.create_policy` as it calls
it. Every query and every commit is one statement, and each of them may fail. No column of a version
says which candidate it was created from; here a version is kept together with it.

The time that the call reads is given to it.
-/

namespace PayReality

open Program RecordProg

/-- `PolicyExtractionCandidate.status`. -/
inductive CandidateStatus where
  | pendingReview | promoted | dismissed
  deriving DecidableEq, Repr

/-- `policy_extraction_candidates`. -/
structure PolicyExtractionCandidate where
  id : Uuid
  uploadId : Option Uuid
  corpusId : Option Uuid
  content : Json
  status : CandidateStatus
  promotedPolicyKey : Option Uuid

/-- `authority_graph_approvals`. -/
structure AuthorityGraphApproval where
  id : Uuid
  corpusId : Uuid
  version : ℕ
  evidenceSnapshot : Json

/-- `authority_principals`. -/
structure AuthorityPrincipal where
  corpusId : Uuid
  name : String
  resolvedPrincipalId : Option Uuid

/-- `authorities`. -/
structure CandidateAuthority where
  id : Uuid
  corpusId : Option Uuid
  principalId : Uuid
  scope : String
  limitAmount : Option PyFloat
  reviewerId : Option String

/-- A row of `runtime_policy_records`, and the candidate that it was created from. -/
structure CreatedRecord where
  record : RuntimePolicyRecord
  candidateId : Uuid

/-- What a promotion reads and does not write. -/
structure Surroundings where
  /-- Uploads and corpora, with their organizations. -/
  uploads : List (Uuid × Option Uuid) := []
  corpora : List (Uuid × Option Uuid) := []
  approvals : List AuthorityGraphApproval := []
  authorityPrincipals : List AuthorityPrincipal := []
  principals : List Uuid := []
  organizations : List (Uuid × Environment) := []

structure Promotions where
  around : Surroundings := {}
  candidates : List PolicyExtractionCandidate := []
  authorities : List CandidateAuthority := []
  records : List CreatedRecord := []
  events : List LifecycleEvent := []

namespace Promotions

variable (d : Promotions)

def candidate (id : Uuid) : Option PolicyExtractionCandidate :=
  Rows.get (fun c => c.id) d.candidates id

def record (policyKey : Uuid) : Option CreatedRecord :=
  d.records.find? fun r => r.record.policyKey = policyKey

/-- `get_latest_approval_for_corpus`. -/
def latestApproval (corpusId : Uuid) : Option AuthorityGraphApproval :=
  ((d.around.approvals.filter fun a => a.corpusId = corpusId).insertionSort
    fun a b => b.version ≤ a.version).head?

/-- `count(distinct policy_key)` of an organization. -/
def policyCount (organizationId : Option Uuid) : ℕ :=
  ((d.records.filter fun r => r.record.organizationId = organizationId).map
    fun r => r.record.policyKey).dedup.length

/-- The rows of one key are one lineage. -/
def admitted : Prop :=
  (d.candidates.map fun c => c.id).Nodup ∧
    (d.records.map fun r => (r.record.policyKey, r.record.version)).Nodup ∧
    (d.authorities.map fun a => a.id).Nodup

instance : Decidable d.admitted := inferInstanceAs (Decidable (_ ∧ _ ∧ _))

end Promotions

/-! ## Commits -/

inductive PromotionChange where
  | createPolicy (authority : Option CandidateAuthority) (row : CreatedRecord)
  | recordEvent (event : LifecycleEvent)
  | promote (candidateId policyKey : Uuid)
  /-- The other services. -/
  | elsewhere (around : Surroundings)

def PromotionChange.apply : PromotionChange → Promotions → Promotions
  | .createPolicy authority row, d =>
    { d with authorities := d.authorities ++ authority.toList, records := d.records ++ [row] }
  | .recordEvent event, d => { d with events := d.events ++ [event] }
  | .promote candidateId policyKey, d =>
    { d with candidates := Rows.update (fun c => c.id) d.candidates candidateId fun c =>
        { c with status := .promoted, promotedPolicyKey := some policyKey } }
  | .elsewhere around, d => { d with around }

inductive PromotionError where
  | candidateNotFound
  | candidateNotPendingReview (status : CandidateStatus)
  | crossOrganizationPromotion
  | graphNotReady (e : GraphGateError)
  /-- `KeyError` or `ValueError`: the content is not that of a policy. -/
  | malformedContent
  /-- The limit of the authority is an integer that is too large for a `float`. -/
  | overflow
  | candidateValidation (errors : List ValidationError)
  | sandboxLimitExceeded
  | databaseError
  deriving DecidableEq, Repr

def promotionSchema : Schema Promotions PromotionChange PromotionError where
  apply := PromotionChange.apply
  admits d := d.admitted
  checks _ := []
  refused := .databaseError
  failed := .databaseError

abbrev PromotionProg := RecordProg Promotions PromotionChange Uuid PromotionError

namespace AiPolicyBuilderService

variable (P : Platform) (F : FloatFormat)

/-! ## What is read -/

/-- `_candidate_organization_id`. -/
def candidateOrganizationId (row : PolicyExtractionCandidate) : PromotionProg (Option Uuid) :=
  match row.uploadId, row.corpusId with
  | some uploadId, _ => do return ((← look).around.uploads.lookup uploadId).join
  | none, some corpusId => do return ((← look).around.corpora.lookup corpusId).join
  | none, none => return none

def getCandidate (candidateId : Uuid) (organizationId : Option Uuid) :
    PromotionProg PolicyExtractionCandidate := do
  match (← look).candidate candidateId with
  | none => throw .candidateNotFound
  | some row =>
    if (← candidateOrganizationId row) ≠ organizationId then throw .candidateNotFound
    return row

/-- The organization of the policy: that of the corpus, where it has one. -/
def policyOrganizationId (row : PolicyExtractionCandidate) (organizationId : Option Uuid) :
    PromotionProg (Option Uuid) :=
  match row.corpusId with
  | none => return organizationId
  | some corpusId => do
    match ((← look).around.corpora.lookup corpusId).join with
    | none => return organizationId
    | some owner =>
      if organizationId.isSome ∧ some owner ≠ organizationId then throw .crossOrganizationPromotion
      return some owner

/-- The approval that the policy is compiled against, for a candidate of a corpus. -/
def graphApproval (row : PolicyExtractionCandidate) :
    PromotionProg (Option AuthorityGraphApproval) :=
  match row.corpusId with
  | none => return none
  | some corpusId => do
    let approval := (← look).latestApproval corpusId
    match CompilationGate.checkGraphReadiness P row.content
        (approval.map fun a => a.evidenceSnapshot) with
    | .error e => throw (.graphNotReady e)
    | .ok _ => return approval

/-- The first of two texts that is not empty. -/
def firstText (a b : Option Json) : Option String :=
  match a, b with
  | some (.str s), some (.str t) => if s ≠ "" then some s else if t ≠ "" then some t else none
  | some (.str s), _ => if s ≠ "" then some s else none
  | _, some (.str t) => if t ≠ "" then some t else none
  | _, _ => none

/-- `_find_resolved_principal_for_candidate`. -/
def findResolvedPrincipalForCandidate (row : PolicyExtractionCandidate) :
    PromotionProg (Option Uuid) :=
  match row.corpusId, firstText (row.content.lookup ["constraints", "delegated_by"])
      (row.content.lookup ["scope", "principal"]) with
  | some corpusId, some name => do
    let discovery := (← look).around.authorityPrincipals.find? fun a =>
      a.corpusId = corpusId ∧ P.lower a.name = P.lower (CompilationGate.stripped name) ∧
        a.resolvedPrincipalId.isSome
    match discovery.bind fun a => a.resolvedPrincipalId with
    | none => return none
    | some principalId =>
      return if principalId ∈ (← look).around.principals then some principalId else none
  | _, _ => return none

/-! ## What is built -/

/-- The limit of the authority. -/
def limitOf (row : PolicyExtractionCandidate) : Except PromotionError (Option PyFloat) :=
  match AmountLimit.inferAmountLimit F row.content with
  | .ok limit => .ok limit
  | .error _ => .error .overflow

/-- `_create_authority_for_candidate`, which is flushed. -/
def createAuthorityForCandidate (row : PolicyExtractionCandidate) (principalId : Uuid)
    (reviewerId : Option String) : PromotionProg CandidateAuthority := do
  let limitAmount ← lift (limitOf F row)
  return {
    id := ← draw
    corpusId := row.corpusId
    principalId
    scope := (firstText (row.content.lookup ["scope", "action"]) (row.content.get? "name")).getD
      "unspecified"
    limitAmount
    reviewerId }

open RuntimePolicySchema in
/-- `build_runtime_policy_from_candidate`; nothing where it raises. -/
def buildRuntimePolicyFromCandidate (id : Uuid) (now : Timestamp) (candidateId : Uuid)
    (content : Json) (authorityId : Option Uuid)
    (approval : Option AuthorityGraphApproval) : Option RuntimePolicy := do
  let constraints := (content.get? "constraints").getD (.obj [])
  let metadata := (content.get? "metadata").getD (.obj [])
  let scope ← (content.get? "scope").bind readScope
  let riskLevel ← readRiskLevel constraints
  let name ← (content.get? "name").bind text
  let description ← getText content "description"
  let conditions ← readAll readCondition (content.get? "conditions")
  let effect ← ((content.get? "effect").bind text).bind (member effects Effect.value)
  let delegatedBy ← getText constraints "delegated_by"
  let evidenceRequired ← readBool (constraints.get? "evidence_required") true
  let owner ← getText metadata "owner"
  let createdBy ← getText metadata "created_by"
  let tags ← readAll text (metadata.get? "tags")
  return {
    id := P.uuidText id
    name
    description
    version := 1
    status := .draft
    scope
    conditions
    effect
    constraints :=
      { delegatedBy
        evidenceRequired
        riskLevel
        authorityId := authorityId.map P.uuidText }
    metadata :=
      { owner
        createdBy := if createdBy.getD "" = "" then some "ai_policy_builder" else createdBy
        tags
        sourceType := approval.map fun _ => "authority_graph"
        sourceCorpusId := approval.map fun a => P.uuidText a.corpusId
        sourceGraphApprovalId := approval.map fun a => P.uuidText a.id
        sourceGraphVersion := approval.map fun a => a.version
        sourceCandidateId := approval.map fun _ => P.uuidText candidateId }
    audit := { created := some now } }

/-! ## What is written -/

/-- `sandbox_limits.is_sandbox_organization`. -/
def isSandboxOrganization : Option Uuid → PromotionProg Bool
  | none => return false
  | some id => do return (← look).around.organizations.lookup id = some .sandbox

/-- `db.refresh(row)`, or an attribute of a row that a commit has expired. -/
def refresh (policyKey : Uuid) : PromotionProg CreatedRecord := do
  match (← look).record policyKey with
  | none => throw .databaseError
  | some row => return row

/-- `record_lifecycle_event`. -/
def recordLifecycleEvent (event : LifecycleEvent) : PromotionProg Unit :=
  tryCatch (commit (.recordEvent event)) fun _ => rollback

def checkSandboxLimit (organizationId : Option Uuid) : PromotionProg Unit := do
  if ← isSandboxOrganization organizationId then
    let existing := (← look).policyCount organizationId
    lift (if RuntimePolicyService.maxPoliciesPerSandbox ≤ existing then .error .sandboxLimitExceeded
      else .ok ())

def policyKeyOf (policy : RuntimePolicy) : PromotionProg Uuid :=
  match P.uuid policy.id with
  | some key => return key
  | none => draw

/-- `create_policy`. The authority is in its transaction. -/
def createPolicy (candidateId : Uuid) (authority : Option CandidateAuthority)
    (policy : RuntimePolicy) (organizationId : Option Uuid)
    (sourceGraphApprovalId : Option Uuid) : PromotionProg CreatedRecord := do
  checkSandboxLimit organizationId
  let policyKey ← policyKeyOf P policy
  commit (.createPolicy authority
    { record := RuntimePolicyService.draftRow policyKey 1 policy organizationId sourceGraphApprovalId
      candidateId })
  let row ← refresh policyKey
  recordLifecycleEvent
    { policyKey := row.record.policyKey
      version := row.record.version
      eventType := .created
      actor := policy.metadata.createdBy }
  return row

/-- The candidate is marked, with the key of its policy. -/
def markPromoted (candidateId : Uuid) (created : CreatedRecord) : PromotionProg Unit := do
  let created ← refresh created.record.policyKey
  commit (.promote candidateId created.record.policyKey)
  if ((← look).candidate candidateId).isNone then throw .databaseError

/-- The authority that the policy cites, where the candidate's delegation is resolved. -/
def authorityForCandidate (row : PolicyExtractionCandidate) (reviewerId : Option String) :
    PromotionProg (Option CandidateAuthority) := do
  match ← findResolvedPrincipalForCandidate P row with
  | none => return none
  | some principalId => return some (← createAuthorityForCandidate F row principalId reviewerId)

/-- The policy, which is valid. -/
def validPolicy (id : Uuid) (now : Timestamp) (row : PolicyExtractionCandidate)
    (authority : Option CandidateAuthority) (approval : Option AuthorityGraphApproval) :
    Except PromotionError RuntimePolicy :=
  match buildRuntimePolicyFromCandidate P id now row.id row.content
      (authority.map fun a => a.id) approval with
  | none => .error .malformedContent
  | some policy =>
    if Validators.validate policy ≠ [] then .error (.candidateValidation (Validators.validate policy))
    else .ok policy

def promoteCandidate (candidateId : Uuid) (organizationId : Option Uuid)
    (promotedBy : Option String) (now : Timestamp) :
    PromotionProg (CreatedRecord × Option Uuid) := do
  let row ← getCandidate candidateId organizationId
  lift (if row.status ≠ .pendingReview then .error (.candidateNotPendingReview row.status)
    else .ok ())
  let organizationId ← policyOrganizationId row organizationId
  let approval ← graphApproval P row
  let authority ← authorityForCandidate P F row promotedBy
  let id ← draw
  let policy ← lift (validPolicy P id now row authority approval)
  let created ← createPolicy P row.id authority policy organizationId (approval.map fun a => a.id)
  markPromoted row.id created
  return (created, authority.map fun a => a.id)

end AiPolicyBuilderService

end PayReality
