import PayReality.Compiler.CompilerV2
import PayReality.Integration.Registry
import PayReality.Rego.Text

/-!
# The integration contract service

`integration_contract_service.py`: a contract version is drafted, edited while it is a draft,
validated (which stamps its content hash), approved and retired.
-/

namespace PayReality

open Program RecordProg

/-- What `edit_draft_contract_version` is given; `none` where a field was not supplied. -/
structure ContractEdit where
  sourceOperation : Option String := none
  canonicalAction : Option String := none
  resourcePath : Option (Option String) := none
  factSubjectPath : Option (Option String) := none
  amountPath : Option (Option String) := none
  currencyPath : Option (Option String) := none
  contextBindings : Option (Option (List (String × String))) := none

def ContractEdit.apply (e : ContractEdit) (f : ContractFields) : ContractFields where
  sourceOperation := e.sourceOperation.getD f.sourceOperation
  canonicalAction := e.canonicalAction.getD f.canonicalAction
  resourcePath := e.resourcePath.getD f.resourcePath
  factSubjectPath := e.factSubjectPath.getD f.factSubjectPath
  amountPath := e.amountPath.getD f.amountPath
  currencyPath := e.currencyPath.getD f.currencyPath
  contextBindings := (e.contextBindings.map (·.getD [])).getD f.contextBindings

namespace IntegrationContractService

variable (H : OperationHost)

/-! ## The fields -/

/-- `_CONTEXT_KEY_RE`, whose `$` lets one line break follow. -/
def isContextKey (cs : List Char) : Bool :=
  match cs.reverse with
  | '\n' :: rest => Rego.isIdentifier rest.reverse
  | _ => Rego.isIdentifier cs

/-- `_PATH_RE`. -/
def isPath (s : String) : Bool :=
  match (Text.splitDot s.toList).reverse with
  | last :: rest => isContextKey last && rest.all Rego.isIdentifier
  | [] => false

def checkPath (fieldName : String) : Option String → Except PyError Unit
  | some path =>
    if isPath path then .ok ()
    else .error (.contractValidation (fieldName ++ " is not a well-formed field path"))
  | none => .ok ()

def checkBinding (e : String × String) : Except PyError Unit :=
  if !isContextKey e.1.toList then
    .error (.contractValidation "context_bindings key is not a valid canonical context key")
  else if !isPath e.2 then
    .error (.contractValidation ("context_bindings[" ++ e.1 ++ "] is not a well-formed field path"))
  else .ok ()

/-- `_validate_semantic_fields`. -/
def validateSemanticFields (f : ContractFields) : Except PyError Unit := do
  if Text.blank f.sourceOperation then
    throw (.contractValidation "source_operation is required")
  if !CompilerV2.genericVocabulary.isValidAction f.canonicalAction then
    throw (.contractValidation "canonical_action is not a recognized action")
  checkPath "resource_path" f.resourcePath
  checkPath "fact_subject_path" f.factSubjectPath
  checkPath "amount_path" f.amountPath
  checkPath "currency_path" f.currencyPath
  f.contextBindings.forM checkBinding

/-! ## The operations -/

def getIntegration (integrationId organizationId : Uuid) : RegistryService IntegrationRow := do
  let d ← look
  match d.integrations.find? fun i => i.id = integrationId ∧ i.organizationId = organizationId with
  | none => throw .integrationNotFound
  | some row => pure row

def getContractVersion (versionId organizationId : Uuid) : RegistryService ContractVersionRow := do
  let d ← look
  match d.contractVersions.find? fun v => v.id = versionId ∧ v.organizationId = organizationId with
  | none => throw .contractVersionNotFound
  | some row => pure row

/-- `_create_contract_version_attempt`. -/
def createAttempt (integrationId organizationId : Uuid) (f : ContractFields) :
    RegistryService Uuid := do
  let d ← look
  let versions := (d.contractVersions.filter fun v =>
    v.integrationId = integrationId ∧ v.sourceOperation = f.sourceOperation).map
      ContractVersionRow.version
  let id ← draw
  commit (.insertVersion id integrationId organizationId (versions.foldr max 0 + 1) f)
  let _ ← look
  return id

/-- The bounded retry of `create_contract_version`. -/
def createAttempts (integrationId organizationId : Uuid) (f : ContractFields) :
    ℕ → RegistryService Uuid
  | 0 => throw .concurrentVersionConflict
  | n + 1 => tryCatch (createAttempt integrationId organizationId f) fun e => do
    if e = .integrityError then
      rollback
      createAttempts integrationId organizationId f n
    else throw e

def maxVersionCreateAttempts : ℕ := 3

/-- `create_contract_version`. -/
def createContractVersion (integrationId organizationId : Uuid) (f : ContractFields) :
    RegistryService Uuid := do
  let _ ← getIntegration integrationId organizationId
  lift (validateSemanticFields f)
  createAttempts integrationId organizationId f maxVersionCreateAttempts

/-- `edit_draft_contract_version`. -/
def editDraftContractVersion (versionId organizationId : Uuid) (edit : ContractEdit) :
    RegistryService Unit := do
  let row ← getContractVersion versionId organizationId
  if row.status ≠ .draft then throw (.contractInvalidTransition row.status.value "edit")
  lift (validateSemanticFields (edit.apply row.fields))
  commit (.editVersion row.id row.fields (edit.apply row.fields))
  let _ ← look

/-- `validate_contract_version`. -/
def validateContractVersion (versionId organizationId : Uuid) : RegistryService Unit := do
  let row ← getContractVersion versionId organizationId
  if row.status ≠ .draft then throw (.contractInvalidTransition row.status.value "validate")
  lift (validateSemanticFields row.fields)
  commit (.validateVersion row.id (row.fields.contentHash H))
  let _ ← look

/-- `approve_contract_version`. -/
def approveContractVersion (versionId organizationId : Uuid) : RegistryService Unit := do
  let row ← getContractVersion versionId organizationId
  if row.status ≠ .validated then throw (.contractInvalidTransition row.status.value "approve")
  commit (.approveVersion row.id)
  let _ ← look

/-- `retire_contract_version`. -/
def retireContractVersion (versionId organizationId : Uuid) : RegistryService Unit := do
  let row ← getContractVersion versionId organizationId
  if row.status ≠ .approved then throw (.contractInvalidTransition row.status.value "retire")
  let d ← look
  if d.hasActiveBinding row.id then throw .contractVersionHasActiveBinding
  commit (.retireVersion row.id)
  let _ ← look

end IntegrationContractService

end PayReality
