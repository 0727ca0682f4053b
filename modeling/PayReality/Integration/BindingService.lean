import PayReality.Integration.ContractService

/-!
# The enforcement binding service

`enforcement_binding_service.py`: a binding is drafted, its columns and its allow-list are edited
while it is a draft, and it is activated (which retires the binding that was active in its scope) and
retired. Its label of enforcement assurance may be set at any time.
-/

namespace PayReality

open Program RecordProg

/-- What `edit_draft_binding` is given; `none` where a field was not supplied. -/
structure BindingEdit where
  integrationIdentityId : Option Uuid := none
  integrationContractVersionId : Option Uuid := none
  environment : Option String := none

namespace EnforcementBindingService

open IntegrationContractService

/-- `get_integration_identity`. -/
def getIntegrationIdentity (identityId organizationId : Uuid) :
    RegistryService IntegrationIdentity := do
  let d ← look
  match d.identities.find? fun i => i.id = identityId ∧ i.organizationId = organizationId with
  | none => throw .integrationIdentityNotFound
  | some identity => pure identity

def getBinding (bindingId organizationId : Uuid) : RegistryService BindingRow := do
  let d ← look
  match d.bindings.find? fun b => b.id = bindingId ∧ b.organizationId = organizationId with
  | none => throw .enforcementBindingNotFound
  | some binding => pure binding

def checkEnvironment (environment : String) : Except PyError Unit :=
  if Text.blank environment then .error (.bindingValidation "environment is required") else .ok ()

/-- `_add_allowed_agent_row`: the agents that it adds, none or one. -/
def newAllowedAgent (bindingId agentId organizationId : Uuid) : RegistryService (List Uuid) := do
  let d ← look
  match d.agents.find? fun a => a.id = agentId with
  | none => throw (.bindingValidation "agent not found")
  | some agent => do
    let d ← look
    let principal := d.principals.find? fun p => p.id = agent.actingForPrincipalId
    if principal.bind Principal.organizationId ≠ some organizationId then
      throw (.bindingValidation "agent does not belong to this organization")
    let d ← look
    return if (d.allowList bindingId).contains agentId then [] else [agentId]

/-- The loop over the agents of a new binding. -/
def newAllowedAgents (bindingId organizationId : Uuid) : List Uuid → RegistryService (List Uuid)
  | [] => pure []
  | agentId :: agentIds => do
    let added ← newAllowedAgent bindingId agentId organizationId
    return added ++ (← newAllowedAgents bindingId organizationId agentIds)

/-- `create_draft_binding`. -/
def createDraftBinding (organizationId identityId versionId : Uuid) (environment : String)
    (agentIds : List Uuid) : RegistryService Uuid := do
  lift (checkEnvironment environment)
  let _ ← getIntegrationIdentity identityId organizationId
  let version ← getContractVersion versionId organizationId
  let id ← draw
  let added ← newAllowedAgents id organizationId agentIds
  commit (.insertBinding id organizationId
    ⟨identityId, version.id, version.integrationId, version.sourceOperation, environment⟩ added)
  let _ ← look
  return id

/-- The version that an edit names, with the columns to copy; that of the binding where it names
none. -/
def pinnedBy (edit : BindingEdit) (binding : BindingRow) (organizationId : Uuid) :
    RegistryService (Uuid × Uuid × String) :=
  match edit.integrationContractVersionId with
  | none => pure binding.fields.pinned
  | some versionId => do
    let version ← getContractVersion versionId organizationId
    return (version.id, version.integrationId, version.sourceOperation)

/-- The identity that an edit names. -/
def checkIdentity (organizationId : Uuid) : Option Uuid → RegistryService Unit
  | none => pure ()
  | some identityId => do
    let _ ← getIntegrationIdentity identityId organizationId

/-- The environment that an edit names. -/
def checkNewEnvironment : Option String → Except PyError Unit
  | none => .ok ()
  | some environment => checkEnvironment environment

/-- `edit_draft_binding`. -/
def editDraftBinding (bindingId organizationId : Uuid) (edit : BindingEdit) :
    RegistryService Unit := do
  let binding ← getBinding bindingId organizationId
  if binding.status ≠ .draft then throw (.bindingInvalidTransition binding.status.value "edit")
  checkIdentity organizationId edit.integrationIdentityId
  let pinned ← pinnedBy edit binding organizationId
  lift (checkNewEnvironment edit.environment)
  commit (.editBinding binding.id binding.fields
    ⟨edit.integrationIdentityId.getD binding.integrationIdentityId, pinned.1, pinned.2.1,
      pinned.2.2, edit.environment.getD binding.environment⟩)
  let _ ← look

/-- `set_enforcement_assurance`; the two labels that it takes are the only ones. -/
def setEnforcementAssurance (bindingId organizationId : Uuid) (assurance : EnforcementAssurance) :
    RegistryService Unit := do
  let binding ← getBinding bindingId organizationId
  commit (.setAssurance binding.id assurance)
  let _ ← look

/-- `add_allowed_agent`. -/
def addAllowedAgent (bindingId organizationId agentId : Uuid) : RegistryService Unit := do
  let binding ← getBinding bindingId organizationId
  if binding.status ≠ .draft then
    throw (.bindingInvalidTransition binding.status.value "edit allowed agents on")
  let added ← newAllowedAgent binding.id agentId organizationId
  commit (.addAgents binding.id added)
  let _ ← look

/-- `remove_allowed_agent`. -/
def removeAllowedAgent (bindingId organizationId agentId : Uuid) : RegistryService Unit := do
  let binding ← getBinding bindingId organizationId
  if binding.status ≠ .draft then
    throw (.bindingInvalidTransition binding.status.value "edit allowed agents on")
  let d ← look
  commit (.removeAgents binding.id
    (if (d.allowList binding.id).contains agentId then [agentId] else []))
  let _ ← look

/-- `_activate_binding_attempt`. -/
def activateBindingAttempt (bindingId organizationId : Uuid) : RegistryService Unit := do
  let binding ← getBinding bindingId organizationId
  if binding.status ≠ .draft then throw (.bindingInvalidTransition binding.status.value "activate")
  let identity ← getIntegrationIdentity binding.integrationIdentityId organizationId
  if identity.status ≠ .active then
    throw (.bindingValidation "integration identity is not active")
  let version ← getContractVersion binding.integrationContractVersionId organizationId
  if version.status ≠ .approved then throw (.bindingValidation "contract version is not approved")
  let _ ← getBinding bindingId organizationId
  let d ← look
  let allowed := d.agents.filter fun a => (d.allowList binding.id).contains a.id
  if allowed.isEmpty then
    throw (.bindingValidation "a binding cannot be activated with an empty allowed-agent list")
  if allowed.any fun a => a.status ≠ .active then
    throw (.bindingValidation "agent is not currently eligible for use")
  let d ← look
  let prior := d.bindings.find? fun b => b.status = .active ∧ b.scope = binding.scope
  commit (.activateBinding binding.id version.id (prior.map fun b => b.id))
  let _ ← look

/-- The bounded retry of `activate_binding`. -/
def activateAttempts (bindingId organizationId : Uuid) : ℕ → RegistryService Unit
  | 0 => throw .concurrentActivationConflict
  | n + 1 => tryCatch (activateBindingAttempt bindingId organizationId) fun e => do
    if e = .integrityError then
      rollback
      activateAttempts bindingId organizationId n
    else throw e

def maxActivationAttempts : ℕ := 3

/-- `activate_binding`. -/
def activateBinding (bindingId organizationId : Uuid) : RegistryService Unit :=
  activateAttempts bindingId organizationId maxActivationAttempts

/-- `retire_binding`. -/
def retireBinding (bindingId organizationId : Uuid) : RegistryService Unit := do
  let binding ← getBinding bindingId organizationId
  if binding.status ≠ .active then throw (.bindingInvalidTransition binding.status.value "retire")
  commit (.retireBinding binding.id)
  let _ ← look

end EnforcementBindingService

/-! ## Requests -/

inductive RegistryRequest where
  | createContractVersion (integrationId organizationId : Uuid) (fields : ContractFields)
  | editContractVersion (versionId organizationId : Uuid) (edit : ContractEdit)
  | validateContractVersion (versionId organizationId : Uuid)
  | approveContractVersion (versionId organizationId : Uuid)
  | retireContractVersion (versionId organizationId : Uuid)
  | createBinding (organizationId identityId versionId : Uuid) (environment : String)
      (agentIds : List Uuid)
  | editBinding (bindingId organizationId : Uuid) (edit : BindingEdit)
  | setAssurance (bindingId organizationId : Uuid) (assurance : EnforcementAssurance)
  | addAgent (bindingId organizationId agentId : Uuid)
  | removeAgent (bindingId organizationId agentId : Uuid)
  | activateBinding (bindingId organizationId : Uuid)
  | retireBinding (bindingId organizationId : Uuid)
  /-- Another operation changes identities, agents and principals. -/
  | elsewhere (identities : List IntegrationIdentity) (agents : List Agent)
      (principals : List Principal)

namespace RegistryRequest

open IntegrationContractService EnforcementBindingService

variable (H : OperationHost)

def run : RegistryRequest → RegistryService Unit
  | .createContractVersion integrationId organizationId f =>
    recordSession (IntegrationContractService.createContractVersion integrationId organizationId f)
  | .editContractVersion versionId organizationId edit =>
    recordSession (editDraftContractVersion versionId organizationId edit)
  | .validateContractVersion versionId organizationId =>
    recordSession (IntegrationContractService.validateContractVersion H versionId organizationId)
  | .approveContractVersion versionId organizationId =>
    recordSession (IntegrationContractService.approveContractVersion versionId organizationId)
  | .retireContractVersion versionId organizationId =>
    recordSession (IntegrationContractService.retireContractVersion versionId organizationId)
  | .createBinding organizationId identityId versionId environment agentIds =>
    recordSession (createDraftBinding organizationId identityId versionId environment agentIds)
  | .editBinding bindingId organizationId edit =>
    recordSession (editDraftBinding bindingId organizationId edit)
  | .setAssurance bindingId organizationId assurance =>
    recordSession (setEnforcementAssurance bindingId organizationId assurance)
  | .addAgent bindingId organizationId agentId =>
    recordSession (addAllowedAgent bindingId organizationId agentId)
  | .removeAgent bindingId organizationId agentId =>
    recordSession (removeAllowedAgent bindingId organizationId agentId)
  | .activateBinding bindingId organizationId =>
    recordSession (EnforcementBindingService.activateBinding bindingId organizationId)
  | .retireBinding bindingId organizationId =>
    recordSession (EnforcementBindingService.retireBinding bindingId organizationId)
  | .elsewhere identities agents principals =>
    recordSession (commit (.elsewhere identities agents principals))

end RegistryRequest

/-- The requests that may be going on side by side. -/
def registryRequests (H : OperationHost) : Set (RegistryService Unit) :=
  {p | ∃ r : RegistryRequest, p = r.run H}

end PayReality
