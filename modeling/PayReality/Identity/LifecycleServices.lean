import PayReality.Identity.Directory
import PayReality.Integration.Submission

/-!
# The lifecycles of agents, integration identities and organizations

`agent_service.py`, `integration_identity_service.py` and `organization_lifecycle_service.py`. What
the two kinds of signer do alike is one definition, given how the row is found and what is raised.
-/

namespace PayReality

open Program RecordProg

/-! ## Signers -/

namespace SubjectService

/-- `is_sandbox_organization`. -/
def isSandboxOrganization (organizationId : Option Uuid) : DirectoryService Bool :=
  match organizationId with
  | none => pure false
  | some organizationId => do
    let d ← look
    return (d.organization organizationId).any fun o => o.environment = .sandbox

/-- A new signer with an issued certificate; the ids of both. -/
def register (kind : SubjectKind) (ownerId : Uuid) : DirectoryService (Uuid × Uuid) := do
  let id ← draw
  let certificateId ← draw
  commit (.register kind id ownerId certificateId)
  let _ ← look
  return (id, certificateId)

variable (kind : SubjectKind) (get : DirectoryService SubjectRow)
  (refuse : String → String → PyError)

/-- A transition to `status`; `found` is the certificate that it marks. -/
def transition (status : SubjectStatus) (action : String)
    (found : Option (CertificateStatus → Bool)) : DirectoryService Unit := do
  let subject ← get
  if status ∉ subject.status.allowed then throw (refuse subject.status.value action)
  match found with
  | none => commit (.move kind subject.id status none)
  | some p => do
    let d ← look
    commit (.move kind subject.id status
      (((d.table kind).certificateOf subject.id p).map fun c => c.id))
  let _ ← look

def rotate : DirectoryService Uuid := do
  let subject ← get
  if subject.status ≠ .active ∧ subject.status ≠ .suspended then
    throw (refuse subject.status.value "rotate")
  let d ← look
  match (d.table kind).certificateOf subject.id fun s => s = .active with
  | none => throw .noActiveCertificate
  | some old => do
    let new ← draw
    commit (.rotate kind subject.id old.id new)
    let _ ← look
    return new

def activate : DirectoryService Unit :=
  transition kind get refuse .active "activate" (some fun s => s = .issued)

def suspend : DirectoryService Unit := transition kind get refuse .suspended "suspend" none

def retire : DirectoryService Unit :=
  transition kind get refuse .retired "retire" (some CertificateStatus.live)

def revoke : DirectoryService Unit :=
  transition kind get refuse .revoked "revoke" (some CertificateStatus.live)

end SubjectService

namespace AgentService

def maxAgentsPerSandbox : ℕ := 5

def getAgent (agentId : Uuid) : DirectoryService SubjectRow := do
  let d ← look
  match d.agents.subject agentId with
  | none => throw .agentNotFound
  | some agent => pure agent

/-- The agents of an organization's principals. -/
def countAgents (d : Directory) (organizationId : Option Uuid) : ℕ :=
  (d.agents.subjects.filter fun a => d.principals.any fun p =>
    p.id = a.ownerId ∧ p.organizationId = organizationId).length

/-- `create_agent`. -/
def createAgent (principalId : Uuid) (organizationId : Option Uuid) :
    DirectoryService (Uuid × Uuid) := do
  let d ← look
  match d.principals.find? fun p => p.id = principalId with
  | none => throw .principalNotFound
  | some principal => do
    if principal.organizationId ≠ organizationId then throw .principalNotFound
    if ← SubjectService.isSandboxOrganization organizationId then
      let d ← look
      if countAgents d organizationId ≥ maxAgentsPerSandbox then throw .sandboxLimitExceeded
    SubjectService.register .agent principalId

/-- `activate_agent`. -/
def activateAgent (agentId : Uuid) : DirectoryService Unit :=
  SubjectService.activate .agent (getAgent agentId) .agentInvalidTransition

/-- `suspend_agent`. -/
def suspendAgent (agentId : Uuid) : DirectoryService Unit :=
  SubjectService.suspend .agent (getAgent agentId) .agentInvalidTransition

/-- `retire_agent`. -/
def retireAgent (agentId : Uuid) : DirectoryService Unit :=
  SubjectService.retire .agent (getAgent agentId) .agentInvalidTransition

/-- `revoke_agent`. -/
def revokeAgent (agentId : Uuid) : DirectoryService Unit :=
  SubjectService.revoke .agent (getAgent agentId) .agentInvalidTransition

/-- `rotate_certificate`. -/
def rotateCertificate (agentId : Uuid) : DirectoryService Uuid :=
  SubjectService.rotate .agent (getAgent agentId) .agentInvalidTransition

end AgentService

namespace IntegrationIdentityService

def maxIntegrationIdentitiesPerSandbox : ℕ := 3

def getIntegrationIdentity (identityId organizationId : Uuid) : DirectoryService SubjectRow := do
  let d ← look
  match d.identities.subjects.find? fun i => i.id = identityId ∧ i.ownerId = organizationId with
  | none => throw .integrationIdentityNotFound
  | some identity => pure identity

/-- `register_integration_identity`. -/
def registerIntegrationIdentity (organizationId : Uuid) : DirectoryService (Uuid × Uuid) := do
  if ← SubjectService.isSandboxOrganization (some organizationId) then
    let d ← look
    if (d.identities.subjects.filter fun i => i.ownerId = organizationId).length ≥
        maxIntegrationIdentitiesPerSandbox then
      throw .sandboxLimitExceeded
  SubjectService.register .integrationIdentity organizationId

variable (identityId organizationId : Uuid)

/-- `activate_integration_identity`. -/
def activateIntegrationIdentity : DirectoryService Unit :=
  SubjectService.activate .integrationIdentity (getIntegrationIdentity identityId organizationId)
    .integrationIdentityInvalidTransition

/-- `suspend_integration_identity`. -/
def suspendIntegrationIdentity : DirectoryService Unit :=
  SubjectService.suspend .integrationIdentity (getIntegrationIdentity identityId organizationId)
    .integrationIdentityInvalidTransition

/-- `retire_integration_identity`. -/
def retireIntegrationIdentity : DirectoryService Unit :=
  SubjectService.retire .integrationIdentity (getIntegrationIdentity identityId organizationId)
    .integrationIdentityInvalidTransition

/-- `revoke_integration_identity`. -/
def revokeIntegrationIdentity : DirectoryService Unit :=
  SubjectService.revoke .integrationIdentity (getIntegrationIdentity identityId organizationId)
    .integrationIdentityInvalidTransition

/-- `rotate_certificate`. -/
def rotateCertificate : DirectoryService Uuid :=
  SubjectService.rotate .integrationIdentity (getIntegrationIdentity identityId organizationId)
    .integrationIdentityInvalidTransition

end IntegrationIdentityService

/-! ## Organizations -/

namespace OrganizationLifecycleService

/-- `create_organization`, without the owner's account. -/
def createOrganization (name : String) (environment : Environment) : DirectoryService Uuid := do
  let id ← draw
  commit (.insertOrganization ⟨id, name, .active, environment⟩)
  let _ ← look
  return id

def getOrganization (organizationId : Uuid) : DirectoryService Organization := do
  let d ← look
  match d.organization organizationId with
  | none => throw .organizationNotFound
  | some organization => pure organization

/-- A change of the status that `expected` allows. -/
def setStatus (organizationId : Uuid) (expected status : OrganizationStatus) (action : String) :
    DirectoryService Unit := do
  let organization ← getOrganization organizationId
  if organization.status ≠ expected then
    throw (.invalidOrganizationStatus organization.status.value action)
  commit (.setOrganization organization.id status)
  let _ ← look

variable (organizationId : Uuid)

/-- `deactivate_organization`. -/
def deactivateOrganization : DirectoryService Unit :=
  setStatus organizationId .active .deactivated "deactivate"

/-- `reactivate_organization`. -/
def reactivateOrganization : DirectoryService Unit :=
  setStatus organizationId .deactivated .active "reactivate"

/-- `archive_organization`. -/
def archiveOrganization : DirectoryService Unit :=
  setStatus organizationId .deactivated .archived "archive (deactivate it first)"

end OrganizationLifecycleService

/-! ## Requests -/

inductive DirectoryRequest where
  | createAgent (principalId : Uuid) (organizationId : Option Uuid)
  | activateAgent (agentId : Uuid)
  | suspendAgent (agentId : Uuid)
  | retireAgent (agentId : Uuid)
  | revokeAgent (agentId : Uuid)
  | rotateAgentCertificate (agentId : Uuid)
  | registerIdentity (organizationId : Uuid)
  | activateIdentity (identityId organizationId : Uuid)
  | suspendIdentity (identityId organizationId : Uuid)
  | retireIdentity (identityId organizationId : Uuid)
  | revokeIdentity (identityId organizationId : Uuid)
  | rotateIdentityCertificate (identityId organizationId : Uuid)
  | createOrganization (name : String) (environment : Environment)
  | deactivateOrganization (organizationId : Uuid)
  | reactivateOrganization (organizationId : Uuid)
  | archiveOrganization (organizationId : Uuid)
  /-- Another operation changes the principals. -/
  | elsewhere (principals : List Principal)

namespace DirectoryRequest

open AgentService IntegrationIdentityService OrganizationLifecycleService

def run : DirectoryRequest → DirectoryService Unit
  | .createAgent principalId organizationId =>
    recordSession (AgentService.createAgent principalId organizationId)
  | .activateAgent agentId => recordSession (AgentService.activateAgent agentId)
  | .suspendAgent agentId => recordSession (AgentService.suspendAgent agentId)
  | .retireAgent agentId => recordSession (AgentService.retireAgent agentId)
  | .revokeAgent agentId => recordSession (AgentService.revokeAgent agentId)
  | .rotateAgentCertificate agentId => recordSession (AgentService.rotateCertificate agentId)
  | .registerIdentity organizationId => recordSession (registerIntegrationIdentity organizationId)
  | .activateIdentity identityId organizationId =>
    recordSession (activateIntegrationIdentity identityId organizationId)
  | .suspendIdentity identityId organizationId =>
    recordSession (suspendIntegrationIdentity identityId organizationId)
  | .retireIdentity identityId organizationId =>
    recordSession (retireIntegrationIdentity identityId organizationId)
  | .revokeIdentity identityId organizationId =>
    recordSession (revokeIntegrationIdentity identityId organizationId)
  | .rotateIdentityCertificate identityId organizationId =>
    recordSession (IntegrationIdentityService.rotateCertificate identityId organizationId)
  | .createOrganization name environment =>
    recordSession (OrganizationLifecycleService.createOrganization name environment)
  | .deactivateOrganization organizationId =>
    recordSession (OrganizationLifecycleService.deactivateOrganization organizationId)
  | .reactivateOrganization organizationId =>
    recordSession (OrganizationLifecycleService.reactivateOrganization organizationId)
  | .archiveOrganization organizationId =>
    recordSession (OrganizationLifecycleService.archiveOrganization organizationId)
  | .elsewhere principals => recordSession (commit (.elsewhere principals))

end DirectoryRequest

/-- The requests that may be going on side by side. -/
def directoryRequests : Set (DirectoryService Unit) := {p | ∃ r : DirectoryRequest, p = r.run}

end PayReality
