import Mathlib.Data.List.MinMax
import PayReality.Decision.Engine

/-!
# Stored rows

The tables that policies are kept in and that intents are decided from (`db/models.py`), each a
list of its rows in no particular order. `Db` is the committed content of all of them.

A version of a runtime policy is identified by its key and version, and a row of `policies` by
its version; unique indexes keep both.
-/

namespace PayReality

abbrev Uuid := ℕ

/-! ## Policies -/

/-- `runtime_policy_records`: one version of a runtime policy. -/
structure RuntimePolicyRecord where
  policyKey : Uuid
  version : ℕ
  status : PolicyStatus
  content : RuntimePolicy
  organizationId : Option Uuid
  bundleId : Option String := none
  bundleHash : Option BundleHash := none
  activatedBy : Option String := none
  activatedAt : Option Timestamp := none
  activationReason : Option String := none
  rollbackOfVersion : Option ℕ := none
  authorityExpiresAt : Option Timestamp := none
  sourceGraphApprovalId : Option Uuid := none

namespace RuntimePolicyRecord

def isActive (r : RuntimePolicyRecord) : Bool := r.status = .active

/-- The key and version of a row. -/
def ident (r : RuntimePolicyRecord) : Uuid × ℕ := (r.policyKey, r.version)

end RuntimePolicyRecord

/-- `policies.status`. -/
inductive PolicyRowStatus where
  | draft | compiled | active | retired
  deriving DecidableEq, Repr

/-- `policies.bundle_uri`: what a deploy writes, `runtime_policy_studio:<key>:<version>`, or
anything else. -/
inductive BundleUri where
  | studio (policyKey : Uuid) (version : ℕ)
  | other (uri : String)
  deriving DecidableEq, Repr

/-- `bundle_uri.startswith(_EXPECTED_BUNDLE_URI_PREFIX)`. -/
def BundleUri.expected : BundleUri → Bool
  | .studio _ _ => true
  | .other uri => (Text.afterPrefix "runtime_policy_studio:".toList uri.toList).isSome

/-- `policies`: one deployed bundle. -/
structure PolicyRow where
  version : ℕ
  status : PolicyRowStatus
  bundleHash : BundleHash
  bundleUri : BundleUri
  compiledAt : Option Timestamp
  activatedAt : Option Timestamp
  retiredAt : Option Timestamp := none
  bundleManifest : Option Manifest
  organizationId : Option Uuid

def PolicyRow.isActive (p : PolicyRow) : Bool := p.status = .active

/-- `authorities`. -/
structure Authority where
  id : Uuid
  principalId : Uuid
  scope : String
  limitAmount : Option ℚ
  currency : Option String

/-- `mandates`. -/
structure Mandate where
  id : Uuid
  /-- The version of the row of `policies`. -/
  policyId : ℕ
  authorityId : Uuid
  principalId : Uuid
  scope : String
  maxAmount : Option ℚ
  currency : Option String
  validFrom : Timestamp
  validTo : Timestamp

/-! ## The lifecycle -/

inductive ScheduleAction where
  | activate | retire
  deriving DecidableEq, Repr

inductive ScheduleStatus where
  | pending | executed | failed | cancelled
  deriving DecidableEq, Repr

/-- `policy_activation_schedules`. -/
structure PolicyActivationSchedule where
  id : Uuid
  policyKey : Uuid
  version : ℕ
  action : ScheduleAction
  effectiveAt : Timestamp
  reason : Option String
  createdBy : Option String
  organizationId : Option Uuid
  status : ScheduleStatus := .pending
  executedAt : Option Timestamp := none
  executionError : Option PyError := none

inductive LifecycleEventType where
  | created | edited | submitted | approved | rejected | compiled | activated | activationBlocked
  | scheduled | scheduleCancelled | rolledBack | archived | retired
  deriving DecidableEq, Repr

/-- `runtime_policy_lifecycle_events`. -/
structure LifecycleEvent where
  policyKey : Uuid
  version : ℕ
  eventType : LifecycleEventType
  actor : Option String := none
  reason : Option String := none
  organizationId : Option Uuid := none

/-! ## Parties -/

inductive OrganizationStatus where
  | active | deactivated | archived
  deriving DecidableEq, Repr

inductive Environment where
  | production | sandbox
  deriving DecidableEq, Repr

structure Organization where
  id : Uuid
  name : String
  status : OrganizationStatus
  environment : Environment := .production

/-- A named part of an organization: `business_units`, `departments`, `teams`. -/
structure OrganizationUnit where
  id : Uuid
  name : String

structure Principal where
  id : Uuid
  name : String
  organizationId : Option Uuid
  businessUnitId : Option Uuid := none
  departmentId : Option Uuid := none
  teamId : Option Uuid := none
  role : Option String := none

inductive AgentStatus where
  | registered | active | suspended | revoked | retired
  deriving DecidableEq, Repr

structure Agent where
  id : Uuid
  actingForPrincipalId : Uuid
  status : AgentStatus

inductive RelationshipKind where
  | delegation | escalation | inheritance
  deriving DecidableEq, Repr

inductive RelationshipStatus where
  | proposed | active | revoked | expired
  deriving DecidableEq, Repr

/-- `authority_relationships`, resolved to principals. -/
structure AuthorityRelationship where
  id : Uuid
  kind : RelationshipKind
  status : RelationshipStatus
  fromPrincipalId : Option Uuid
  toPrincipalId : Option Uuid
  resourceId : Option Uuid
  operation : Option String
  validFrom : Option Timestamp
  validTo : Option Timestamp
  crossOrgApproved : Bool

structure EnterpriseSystem where
  id : Uuid
  name : String

/-! ## Trusted integrations -/

inductive IntegrationIdentityStatus where
  | registered | active | suspended | revoked | retired
  deriving DecidableEq, Repr

def IntegrationIdentityStatus.value : IntegrationIdentityStatus → String
  | .registered => "registered"
  | .active => "active"
  | .suspended => "suspended"
  | .revoked => "revoked"
  | .retired => "retired"

/-- `integration_identities`. -/
structure IntegrationIdentity where
  id : Uuid
  organizationId : Uuid
  status : IntegrationIdentityStatus

/-- `integration_contract_versions`: what an adapter may send, and as what. -/
structure IntegrationContractVersion where
  id : Uuid
  integrationId : Uuid
  organizationId : Uuid
  contentHash : Option String
  sourceOperation : String
  canonicalAction : String
  resourcePath : Option String
  amountPath : Option String
  currencyPath : Option String
  factSubjectPath : Option String
  /-- Each bound context key, and where it is taken from. -/
  contextBindings : List (String × String)

inductive EnforcementBindingStatus where
  | draft | active | retired
  deriving DecidableEq, Repr

def EnforcementBindingStatus.value : EnforcementBindingStatus → String
  | .draft => "draft"
  | .active => "active"
  | .retired => "retired"

/-- `enforcement_bindings`. -/
structure EnforcementBinding where
  id : Uuid
  organizationId : Uuid
  integrationIdentityId : Uuid
  integrationContractVersionId : Uuid
  environment : String
  status : EnforcementBindingStatus

/-- `enforcement_binding_agents`. -/
structure EnforcementBindingAgent where
  enforcementBindingId : Uuid
  agentId : Uuid
  deriving DecidableEq

/-! ## Facts -/

inductive FactSourceStatus where
  | active | revoked
  deriving DecidableEq, Repr

structure FactSource where
  id : Uuid
  status : FactSourceStatus

structure EnterpriseFact where
  organizationId : Uuid
  sourceId : Uuid
  subject : Option String
  key : String
  value : Json
  observedAt : Timestamp
  expiresAt : Timestamp

/-! ## Intents, decisions, evidence -/

/-- `source.py`: the two callers that are told apart. -/
inductive IntentSource where
  | runtime | manualTest
  deriving DecidableEq, Repr

structure Intent where
  id : Uuid
  agentId : Uuid
  correlationId : Option String
  action : String
  amount : Option ℚ
  currency : Option String
  counterparty : Option String
  resource : Option String
  source : IntentSource
  context : List (String × Json)
  nonce : String
  requestedAt : Timestamp

structure Decision where
  id : Uuid
  intentId : Uuid
  policyId : Option ℕ
  outcome : Outcome
  reason : Json
  /-- What OPA listed, as it came. -/
  evaluatedMandates : Json
  createdAt : Timestamp
  evaluatedMandateIds : List String := []
  enterpriseSystemId : Option Uuid := none

/-- The fact snapshot of a decision. -/
structure FactEvaluated where
  key : String
  value : Json
  subject : Option String
  sourceId : Uuid
  observedAt : Timestamp
  expiresAt : Timestamp

/-- What an evaluation adds to the evidence of a decision. -/
structure EvidenceDetails where
  principalId : Option Uuid := none
  principalName : Option String := none
  authorityContext : Option Json := none
  mandateIds : List String := []
  authorityVersion : Option String := none
  policyVersion : Option ℕ := none
  policyBundleHash : Option BundleHash := none
  enterpriseSystem : Option EnterpriseSystem := none
  factsEvaluated : List FactEvaluated := []

/-- The payload of an evidence record, as the agent-direct path builds it. -/
structure EvidencePayload extends EvidenceDetails where
  decisionId : Uuid
  agentId : Uuid
  action : String
  /-- The keys of the policies that matched, sorted. -/
  matchedMandateIds : List String
  authorityOutcome : Outcome
  riskClassification : String
  recordedAt : Timestamp
  previousHash : Option String
  amount : Option ℚ
  currency : Option String
  resource : Option String
  authorityIds : List Uuid
  /-- `resolved_by` and `responsible_party`, which are the same. -/
  resolvedBy : Option String

inductive EvidenceStatus where
  | verified | pending | rejected
  deriving DecidableEq, Repr

structure Evidence where
  id : Uuid
  decisionId : Uuid
  payload : EvidencePayload
  signature : String
  status : EvidenceStatus
  organizationId : Option Uuid
  sequence : Option ℕ
  createdAt : Timestamp

/-! ## The database -/

/-- The committed rows. -/
structure Db where
  records : List RuntimePolicyRecord := []
  policies : List PolicyRow := []
  mandates : List Mandate := []
  authorities : List Authority := []
  schedules : List PolicyActivationSchedule := []
  lifecycleEvents : List LifecycleEvent := []
  organizations : List Organization := []
  businessUnits : List OrganizationUnit := []
  departments : List OrganizationUnit := []
  teams : List OrganizationUnit := []
  principals : List Principal := []
  relationships : List AuthorityRelationship := []
  enterpriseSystems : List EnterpriseSystem := []
  agents : List Agent := []
  integrationIdentities : List IntegrationIdentity := []
  contractVersions : List IntegrationContractVersion := []
  enforcementBindings : List EnforcementBinding := []
  enforcementBindingAgents : List EnforcementBindingAgent := []
  factSources : List FactSource := []
  facts : List EnterpriseFact := []
  intents : List Intent := []
  decisions : List Decision := []
  evidence : List Evidence := []
  /-- Ids below this one are taken. -/
  nextId : Uuid := 0

namespace Db

variable (db : Db)

/-- `db.get(Principal, id)`. -/
def principal (id : Uuid) : Option Principal := db.principals.find? fun p => p.id = id

def organization (id : Uuid) : Option Organization := db.organizations.find? fun o => o.id = id

def enterpriseSystem (id : Uuid) : Option EnterpriseSystem :=
  db.enterpriseSystems.find? fun s => s.id = id

def agent (id : Uuid) : Option Agent := db.agents.find? fun a => a.id = id

def integrationIdentity (id : Uuid) : Option IntegrationIdentity :=
  db.integrationIdentities.find? fun i => i.id = id

def contractVersion (id : Uuid) : Option IntegrationContractVersion :=
  db.contractVersions.find? fun c => c.id = id

/-! ### Runtime policies -/

/-- The versions of a key in an organization. -/
def versionsOf (key : Uuid) (organizationId : Option Uuid) : List RuntimePolicyRecord :=
  db.records.filter fun r => r.policyKey = key ∧ r.organizationId = organizationId

/-- `_latest_version_row`. -/
def latestVersionRow (key : Uuid) (organizationId : Option Uuid) : Option RuntimePolicyRecord :=
  (db.versionsOf key organizationId).argmax RuntimePolicyRecord.version

def policyKeys (organizationId : Option Uuid) : List Uuid :=
  ((db.records.filter fun r => r.organizationId = organizationId).map
    RuntimePolicyRecord.policyKey).dedup

/-- `list_latest_policies`: the latest version of each key, those with one status. -/
def listLatestPolicies (organizationId : Option Uuid) (status : PolicyStatus) :
    List RuntimePolicyRecord :=
  ((db.policyKeys organizationId).filterMap fun k => db.latestVersionRow k organizationId).filter
    fun r => r.status = status

/-- The active versions of an organization. -/
def activeRecords (organizationId : Option Uuid) : List RuntimePolicyRecord :=
  db.records.filter fun r => r.isActive ∧ r.organizationId = organizationId

/-- The first active version of a key. -/
def activeOfKey (key : Uuid) : Option RuntimePolicyRecord :=
  db.records.find? fun r => r.policyKey = key ∧ r.isActive

/-- The active row of `policies`. -/
def activePolicy (organizationId : Option Uuid) : Option PolicyRow :=
  db.policies.find? fun p => p.isActive ∧ p.organizationId = organizationId

theorem activeOfKey_some {key : Uuid} {r : RuntimePolicyRecord} (h : db.activeOfKey key = some r) :
    r ∈ db.records ∧ r.policyKey = key ∧ r.status = .active := by
  have hr := List.find?_some h
  simp only [RuntimePolicyRecord.isActive, decide_eq_true_eq] at hr
  exact ⟨List.mem_of_find?_eq_some h, hr.1, hr.2⟩

theorem mem_activeRecords {organizationId : Option Uuid} {r : RuntimePolicyRecord} :
    r ∈ db.activeRecords organizationId ↔
      r ∈ db.records ∧ r.status = .active ∧ r.organizationId = organizationId := by
  simp [activeRecords, RuntimePolicyRecord.isActive]

theorem latestVersionRow_some {key : Uuid} {organizationId : Option Uuid} {r : RuntimePolicyRecord}
    (h : db.latestVersionRow key organizationId = some r) :
    r ∈ db.records ∧ r.policyKey = key ∧ r.organizationId = organizationId ∧
      ∀ r' ∈ db.records, r'.policyKey = key → r'.organizationId = organizationId →
        r'.version ≤ r.version := by
  have hmem := List.argmax_mem h
  simp only [versionsOf, List.mem_filter, decide_eq_true_eq] at hmem
  refine ⟨hmem.1, hmem.2.1, hmem.2.2, fun r' hr' hk ho => ?_⟩
  exact List.le_of_mem_argmax (by simp [versionsOf, hr', hk, ho]) h

end Db

end PayReality
