import PayReality.Integration.OperationIdentity
import PayReality.Lib.Records
import PayReality.Lib.Rows

/-!
# Contract versions and enforcement bindings

The rows that say what an adapter may send and who may use it: `integration_contract_versions`,
`enforcement_bindings` and the agents that a binding allows. An operation of
`integration_contract_service` or `enforcement_binding_service` reads rows, checks them, and writes
with its commit; nothing locks a row before that. A flush ahead of the commit changes nothing that
another session sees.

* `Registry`: the rows.
* `RegistryChange`: what the commits change. An `UPDATE` sets the columns that the session assigned.
* `registrySchema`: the constraints, and what is checked for each change.
-/

namespace PayReality

open Program

/-! ## Rows -/

inductive ContractStatus where
  | draft | validated | approved | retired
  deriving DecidableEq, Repr

def ContractStatus.value : ContractStatus → String
  | .draft => "draft"
  | .validated => "validated"
  | .approved => "approved"
  | .retired => "retired"

/-- `integration_contract_versions`, with the columns of its lifecycle. -/
structure ContractVersionRow extends IntegrationContractVersion where
  version : ℕ
  status : ContractStatus

/-- `_HASHED_SEMANTIC_FIELDS`. -/
structure ContractFields where
  sourceOperation : String
  canonicalAction : String
  resourcePath : Option String := none
  factSubjectPath : Option String := none
  amountPath : Option String := none
  currencyPath : Option String := none
  contextBindings : List (String × String) := []
  deriving DecidableEq

namespace ContractFields

/-- What a session that read `old` and assigned `new` writes over the present columns. -/
def update (old new present : ContractFields) : ContractFields where
  sourceOperation :=
    if new.sourceOperation = old.sourceOperation then present.sourceOperation
    else new.sourceOperation
  canonicalAction :=
    if new.canonicalAction = old.canonicalAction then present.canonicalAction
    else new.canonicalAction
  resourcePath := if new.resourcePath = old.resourcePath then present.resourcePath else new.resourcePath
  factSubjectPath :=
    if new.factSubjectPath = old.factSubjectPath then present.factSubjectPath
    else new.factSubjectPath
  amountPath := if new.amountPath = old.amountPath then present.amountPath else new.amountPath
  currencyPath := if new.currencyPath = old.currencyPath then present.currencyPath else new.currencyPath
  contextBindings :=
    if new.contextBindings = old.contextBindings then present.contextBindings
    else new.contextBindings

/-- What `_compute_content_hash` serializes. -/
def semantic (f : ContractFields) : Json :=
  .obj [("source_operation", .str f.sourceOperation), ("canonical_action", .str f.canonicalAction),
    ("resource_path", .ofText f.resourcePath), ("fact_subject_path", .ofText f.factSubjectPath),
    ("amount_path", .ofText f.amountPath), ("currency_path", .ofText f.currencyPath),
    ("context_bindings", .obj (f.contextBindings.map fun e => (e.1, .str e.2)))]

/-- `_compute_content_hash`. -/
def contentHash (H : OperationHost) (f : ContractFields) : String := H.sha256 f.semantic.stableRepr

end ContractFields

namespace ContractVersionRow

def fields (v : ContractVersionRow) : ContractFields where
  sourceOperation := v.sourceOperation
  canonicalAction := v.canonicalAction
  resourcePath := v.resourcePath
  factSubjectPath := v.factSubjectPath
  amountPath := v.amountPath
  currencyPath := v.currencyPath
  contextBindings := v.contextBindings

def withFields (v : ContractVersionRow) (f : ContractFields) : ContractVersionRow :=
  { v with
    sourceOperation := f.sourceOperation
    canonicalAction := f.canonicalAction
    resourcePath := f.resourcePath
    factSubjectPath := f.factSubjectPath
    amountPath := f.amountPath
    currencyPath := f.currencyPath
    contextBindings := f.contextBindings }

end ContractVersionRow

inductive EnforcementAssurance where
  | advisory | capabilityRequired
  deriving DecidableEq, Repr

/-- What a new binding is given, and a draft may be changed in. -/
structure BindingFields where
  integrationIdentityId : Uuid
  integrationContractVersionId : Uuid
  integrationId : Uuid
  sourceOperation : String
  environment : String
  deriving DecidableEq

namespace BindingFields

/-- What a session that read `old` and assigned `new` writes over the present columns. -/
def update (old new present : BindingFields) : BindingFields where
  integrationIdentityId :=
    if new.integrationIdentityId = old.integrationIdentityId then present.integrationIdentityId
    else new.integrationIdentityId
  integrationContractVersionId :=
    if new.integrationContractVersionId = old.integrationContractVersionId then
      present.integrationContractVersionId
    else new.integrationContractVersionId
  integrationId :=
    if new.integrationId = old.integrationId then present.integrationId else new.integrationId
  sourceOperation :=
    if new.sourceOperation = old.sourceOperation then present.sourceOperation
    else new.sourceOperation
  environment := if new.environment = old.environment then present.environment else new.environment

/-- The version, and the columns copied from it. -/
def pinned (f : BindingFields) : Uuid × Uuid × String :=
  (f.integrationContractVersionId, f.integrationId, f.sourceOperation)

end BindingFields

/-- `enforcement_bindings`, with the columns that are copied from the contract version. -/
structure BindingRow extends EnforcementBinding where
  integrationId : Uuid
  sourceOperation : String
  enforcementAssurance : EnforcementAssurance := .advisory

namespace BindingRow

def fields (b : BindingRow) : BindingFields where
  integrationIdentityId := b.integrationIdentityId
  integrationContractVersionId := b.integrationContractVersionId
  integrationId := b.integrationId
  sourceOperation := b.sourceOperation
  environment := b.environment

def withFields (b : BindingRow) (f : BindingFields) : BindingRow :=
  { b with
    integrationIdentityId := f.integrationIdentityId
    integrationContractVersionId := f.integrationContractVersionId
    integrationId := f.integrationId
    sourceOperation := f.sourceOperation
    environment := f.environment }

/-- The columns of `idx_enforcement_bindings_single_active_per_scope`. -/
def scope (b : BindingRow) : Uuid × Uuid × String × String :=
  (b.integrationIdentityId, b.integrationId, b.sourceOperation, b.environment)

end BindingRow

/-- `integrations`. -/
structure IntegrationRow where
  id : Uuid
  organizationId : Uuid

structure Registry where
  integrations : List IntegrationRow := []
  contractVersions : List ContractVersionRow := []
  bindings : List BindingRow := []
  allowed : List EnforcementBindingAgent := []
  identities : List IntegrationIdentity := []
  agents : List Agent := []
  principals : List Principal := []

namespace Registry

variable (d : Registry)

def version (id : Uuid) : Option ContractVersionRow := Rows.get (·.id) d.contractVersions id

def binding (id : Uuid) : Option BindingRow := Rows.get (·.id) d.bindings id

/-- The agents that a binding allows. -/
def allowList (id : Uuid) : List Uuid :=
  (d.allowed.filter fun a => a.enforcementBindingId = id).map EnforcementBindingAgent.agentId

/-- `has_active_binding_for_contract_version`. -/
def hasActiveBinding (versionId : Uuid) : Bool :=
  d.bindings.any fun b => b.integrationContractVersionId = versionId ∧ b.status = .active

/-- The primary keys and the unique indexes. -/
def admitted : Bool :=
  (d.contractVersions.map fun v => v.id).Nodup ∧
  (d.contractVersions.map fun v => (v.integrationId, v.sourceOperation, v.version)).Nodup ∧
  (d.bindings.map fun b => b.id).Nodup ∧
  ((d.bindings.filter fun b => b.status = .active).map BindingRow.scope).Nodup ∧ d.allowed.Nodup

def updateVersion (id : Uuid) (f : ContractVersionRow → ContractVersionRow) : Registry :=
  { d with contractVersions := Rows.update (·.id) d.contractVersions id f }

def updateBinding (id : Uuid) (f : BindingRow → BindingRow) : Registry :=
  { d with bindings := Rows.update (·.id) d.bindings id f }

end Registry

/-! ## Changes -/

inductive RegistryChange where
  | insertVersion (id integrationId organizationId : Uuid) (version : ℕ) (fields : ContractFields)
  | editVersion (id : Uuid) (old new : ContractFields)
  | validateVersion (id : Uuid) (contentHash : String)
  | approveVersion (id : Uuid)
  | retireVersion (id : Uuid)
  | insertBinding (id organizationId : Uuid) (fields : BindingFields) (agentIds : List Uuid)
  | editBinding (id : Uuid) (old new : BindingFields)
  | addAgents (id : Uuid) (agentIds : List Uuid)
  | removeAgents (id : Uuid) (agentIds : List Uuid)
  | setAssurance (id : Uuid) (assurance : EnforcementAssurance)
  /-- The binding, the version it refers to, and the binding that it replaces. -/
  | activateBinding (id versionId : Uuid) (prior : Option Uuid)
  | retireBinding (id : Uuid)
  /-- Other operations have changed identities, agents and principals. -/
  | elsewhere (identities : List IntegrationIdentity) (agents : List Agent)
      (principals : List Principal)

namespace RegistryChange

def retire (b : BindingRow) : BindingRow := { b with status := .retired }

def apply : RegistryChange → Registry → Registry
  | .insertVersion id integrationId organizationId version f, d =>
    { d with contractVersions := d.contractVersions ++
        [{ f with id, integrationId, organizationId, version, contentHash := none, status := .draft }] }
  | .editVersion id old new, d => d.updateVersion id fun v => v.withFields (old.update new v.fields)
  | .validateVersion id contentHash, d =>
    d.updateVersion id fun v => { v with contentHash := some contentHash, status := .validated }
  | .approveVersion id, d => d.updateVersion id fun v => { v with status := .approved }
  | .retireVersion id, d => d.updateVersion id fun v => { v with status := .retired }
  | .insertBinding id organizationId f agentIds, d =>
    { d with
      bindings := d.bindings ++ [{ f with id, organizationId, status := .draft }]
      allowed := d.allowed ++ agentIds.map fun agentId => ⟨id, agentId⟩ }
  | .editBinding id old new, d => d.updateBinding id fun b => b.withFields (old.update new b.fields)
  | .addAgents id agentIds, d =>
    { d with allowed := d.allowed ++ agentIds.map fun agentId => ⟨id, agentId⟩ }
  | .removeAgents id agentIds, d =>
    { d with allowed := d.allowed.filter fun a => ¬(a.enforcementBindingId = id ∧ a.agentId ∈ agentIds) }
  | .setAssurance id assurance, d =>
    d.updateBinding id fun b => { b with enforcementAssurance := assurance }
  | .activateBinding id _ prior, d =>
    (match prior with
      | some p => d.updateBinding p retire
      | none => d).updateBinding id fun b => { b with status := .active }
  | .retireBinding id, d => d.updateBinding id retire
  | .elsewhere identities agents principals, d => { d with identities, agents, principals }

end RegistryChange

/-! ## What is checked -/

namespace Registry

variable (d : Registry)

def versionIs (id : Uuid) (status : ContractStatus) : Bool :=
  (d.version id).any fun v => v.status = status

def bindingIs (id : Uuid) (status : EnforcementBindingStatus) : Bool :=
  (d.binding id).any fun b => b.status = status

/-- The version has the columns that a binding copies. -/
def versionHas (id integrationId : Uuid) (sourceOperation : String) : Bool :=
  (d.version id).any fun v => v.integrationId = integrationId ∧ v.sourceOperation = sourceOperation

end Registry

/-- What an operation checks before it commits a change. -/
def RegistryChange.checks (H : OperationHost) : RegistryChange → List (Registry → Bool)
  | .insertVersion .. | .setAssurance .. | .elsewhere .. => []
  | .editVersion id _ _ => [fun d => d.versionIs id .draft]
  | .validateVersion id contentHash =>
    [fun d => (d.version id).any fun v =>
      v.status = .draft ∧ v.fields.contentHash H = contentHash]
  | .approveVersion id => [fun d => d.versionIs id .validated]
  | .retireVersion id => [fun d => d.versionIs id .approved, fun d => !d.hasActiveBinding id]
  | .insertBinding _ _ f _ =>
    [fun d => d.versionHas f.integrationContractVersionId f.integrationId f.sourceOperation]
  | .editBinding id old new =>
    [fun d => (d.binding id).any fun b => b.status = .draft ∧ b.fields = old,
      fun d => new.pinned = old.pinned ∨
        d.versionHas new.integrationContractVersionId new.integrationId new.sourceOperation]
  | .addAgents id _ | .removeAgents id _ => [fun d => d.bindingIs id .draft]
  | .activateBinding id versionId prior =>
    [fun d => (d.binding id).any fun b =>
        b.status = .draft ∧ b.integrationContractVersionId = versionId,
      fun d => d.versionIs versionId .approved, fun d => !(d.allowList id).isEmpty,
      fun d => prior.all fun p => d.bindingIs p .active]
  | .retireBinding id => [fun d => d.bindingIs id .active]

/-- Contract versions and bindings as records. -/
def registrySchema (H : OperationHost) : Schema Registry RegistryChange PyError where
  apply := RegistryChange.apply
  admits := Registry.admitted
  checks := RegistryChange.checks H
  refused := .integrityError
  failed := .databaseError

/-- A service over the registry. -/
abbrev RegistryService := RecordProg Registry RegistryChange Uuid PyError

end PayReality
