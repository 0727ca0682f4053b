import Mathlib.Data.List.Dedup
import PayReality.Integration.Context
import PayReality.Integration.ContractService

/-!
# The check before an attestation is sent

`integration.ContractShape`: an adapter that is told which fields its contract version declares refuses a
call that does not fit them (`Fits`) before it is sent. The server asks the same of a request, and that the
caller leaves its reserved context key alone, which the validation of a contract does not know.

**Main result** `preflightAgrees_iff`: the two checks agree on every call, and some call passes them, exactly
where the contract version does not bind the reserved key.
-/

namespace PayReality

open IntegrationRuntimeService

namespace Sdk

/-! ## The adapter -/

/-- `exceptions.ConfigurationError`, whose message may end in a list of keys. -/
structure ConfigurationError where
  message : String
  keys : List String := []

structure ContractShape where
  hasResource : Bool := false
  hasAmount : Bool := false
  hasCurrency : Bool := false
  hasFactSubject : Bool := false
  contextKeys : List String := []

/-- The arguments of `Adapter.attest`. -/
structure AttestCall where
  enforcementBindingId : Uuid
  originAgentId : Uuid
  sourceOperation : String
  action : String
  externalOperationId : String
  resource : Option String := none
  amount : Option ℚ := none
  currency : Option String := none
  counterparty : Option String := none
  context : Option (List (String × Json)) := none
  /-- A dict has each key once. -/
  distinct : ((context.getD []).map Prod.fst).Nodup
  correlationId : Option String := none

namespace AttestCall

/-- The keys of `context or {}`. -/
def contextKeys (call : AttestCall) : List String := (call.context.getD []).map Prod.fst

/-- The request that is signed. -/
def request (call : AttestCall) (requestedAt : Timestamp) (nonce : String) : AttestedRequest where
  enforcementBindingId := call.enforcementBindingId
  originAgentId := call.originAgentId
  sourceOperation := call.sourceOperation
  action := call.action
  resource := call.resource
  amount := call.amount
  currency := call.currency
  counterparty := call.counterparty
  context := call.context.getD []
  distinct := call.distinct
  requestedAt
  nonce
  correlationId := call.correlationId
  externalOperationId := call.externalOperationId

end AttestCall

namespace ContractShape

/-- `_check`. -/
def checkField {α : Type} (name : String) (declared : Bool) (value : Option α) :
    Except ConfigurationError Unit :=
  if declared ∧ value.isNone then
    .error { message := "this Integration Contract declares an extraction path for " ++ name ++
      "; a value is required" }
  else if !declared ∧ value.isSome then
    .error { message := "this Integration Contract declares no extraction path for " ++ name ++
      "; do not supply a value" }
  else .ok ()

def checkContextKeys (declared supplied : List String) : Except ConfigurationError Unit :=
  if difference supplied declared ≠ [] then
    .error ⟨"context keys not declared by this Integration Contract's context_bindings: ",
      difference supplied declared⟩
  else if difference declared supplied ≠ [] then
    .error ⟨"missing context keys this Integration Contract's context_bindings require: ",
      difference declared supplied⟩
  else .ok ()

/-- `check`. -/
def check (shape : ContractShape) (call : AttestCall) : Except ConfigurationError Unit := do
  checkField "resource" shape.hasResource call.resource
  checkField "amount" shape.hasAmount call.amount
  checkField "currency" shape.hasCurrency call.currency
  checkField "fact_subject (counterparty)" shape.hasFactSubject call.counterparty
  checkContextKeys shape.contextKeys call.contextKeys

/-- The shape of a contract version. -/
def ofContract (c : IntegrationContractVersion) : ContractShape where
  hasResource := c.resourcePath.isSome
  hasAmount := c.amountPath.isSome
  hasCurrency := c.currencyPath.isSome
  hasFactSubject := c.factSubjectPath.isSome
  contextKeys := c.contextBindings.map Prod.fst

end ContractShape

end Sdk

/-! ## The server -/

/-- The checks of `submit_attested_intent` that a contract version's fields and context keys decide. -/
def IntegrationRuntimeService.checkShape (c : IntegrationContractVersion) (req : AttestedRequest) :
    Except PyError Unit := do
  checkStructuralField "resource" c.resourcePath req.resource
  checkStructuralField "amount" c.amountPath req.amount
  checkStructuralField "currency" c.currencyPath req.currency
  checkStructuralField "fact_subject" c.factSubjectPath req.counterparty
  checkContextKeys (c.contextBindings.map Prod.fst) (req.context.map Prod.fst)

/-! ## What passes -/

theorem checkStructuralField_ok_iff {α : Type} {fieldName : String} {path : Option String}
    {value : Option α} :
    checkStructuralField fieldName path value = .ok () ↔ value.isSome = path.isSome := by
  cases path <;> cases value <;> simp [checkStructuralField, rejection]

theorem checkContextKeys_ok_iff {bound supplied : List String} :
    checkContextKeys bound supplied = .ok () ↔ ContextKeys bound supplied := by
  constructor
  · exact checkContextKeys_ok
  · rintro ⟨hexactly, hreserved⟩
    have hunexpected := difference_eq_nil.2 fun k hk => (hexactly k).1 hk
    have hmissing := difference_eq_nil.2 fun k hk => (hexactly k).2 hk
    simp [checkContextKeys, reservedContextKeys, hreserved, hunexpected, hmissing]

theorem checkField_ok_iff {α : Type} {name : String} {declared : Bool} {value : Option α} :
    Sdk.ContractShape.checkField name declared value = .ok () ↔ value.isSome = declared := by
  cases declared <;> cases value <;> simp [Sdk.ContractShape.checkField]

theorem shapeContextKeys_ok_iff {declared supplied : List String} :
    Sdk.ContractShape.checkContextKeys declared supplied = .ok () ↔
      ∀ k, k ∈ supplied ↔ k ∈ declared := by
  unfold Sdk.ContractShape.checkContextKeys
  simp only [ne_eq, ite_not, difference_eq_nil]
  split
  · next hunexpected =>
    split
    · next hmissing => exact iff_of_true rfl fun k => ⟨hunexpected k, hmissing k⟩
    · next hmissing => exact iff_of_false nofun fun h => hmissing fun k hk => (h k).2 hk
  · next hunexpected => exact iff_of_false nofun fun h => hunexpected fun k hk => (h k).1 hk

theorem bind_unit_ok {ε : Type} {x y : Except ε Unit} :
    (x >>= fun _ => y) = .ok () ↔ x = .ok () ∧ y = .ok () := by
  rw [bind_ok]
  exact ⟨fun ⟨_, hx, hy⟩ => ⟨hx, hy⟩, fun ⟨hx, hy⟩ => ⟨(), hx, hy⟩⟩

namespace Sdk

/-- The call has a value where the contract version declares a path, and the context keys that it
binds. -/
structure Fits (c : IntegrationContractVersion) (call : AttestCall) : Prop where
  resource : call.resource.isSome = c.resourcePath.isSome
  amount : call.amount.isSome = c.amountPath.isSome
  currency : call.currency.isSome = c.currencyPath.isSome
  counterparty : call.counterparty.isSome = c.factSubjectPath.isSome
  context : ∀ k, k ∈ call.contextKeys ↔ k ∈ c.contextBindings.map Prod.fst

variable {c : IntegrationContractVersion} {call : AttestCall} {requestedAt : Timestamp} {nonce : String}

/-- The adapter sends the calls that fit. -/
theorem check_ok_iff : (ContractShape.ofContract c).check call = .ok () ↔ Fits c call := by
  simp only [ContractShape.check, ContractShape.ofContract, bind_unit_ok, checkField_ok_iff,
    shapeContextKeys_ok_iff]
  exact ⟨fun ⟨hr, ha, hc, hf, hk⟩ => ⟨hr, ha, hc, hf, hk⟩,
    fun h => ⟨h.resource, h.amount, h.currency, h.counterparty, h.context⟩⟩

/-- The server takes those of them that leave its own key alone. -/
theorem checkShape_ok_iff : checkShape c (call.request requestedAt nonce) = .ok () ↔
    Fits c call ∧ "environment" ∉ call.contextKeys := by
  simp only [checkShape, bind_unit_ok, checkStructuralField_ok_iff, checkContextKeys_ok_iff]
  constructor
  · rintro ⟨hr, ha, hc, hf, hk, henvironment⟩
    exact ⟨⟨hr, ha, hc, hf, hk⟩, henvironment⟩
  · rintro ⟨h, henvironment⟩
    exact ⟨h.resource, h.amount, h.currency, h.counterparty, h.context, henvironment⟩

/-- The call that gives each declared field a value. -/
def fittingCall (c : IntegrationContractVersion) : AttestCall where
  enforcementBindingId := 0
  originAgentId := 0
  sourceOperation := c.sourceOperation
  action := c.canonicalAction
  externalOperationId := "operation"
  resource := c.resourcePath
  amount := c.amountPath.map fun _ => 0
  currency := c.currencyPath
  counterparty := c.factSubjectPath
  context := some ((c.contextBindings.map Prod.fst).dedup.map fun k => (k, .null))
  distinct := by
    simp only [Option.getD_some, List.map_map, Function.comp_def, List.map_id']
    exact List.nodup_dedup _

theorem fits_fittingCall (c : IntegrationContractVersion) : Fits c (fittingCall c) where
  resource := rfl
  amount := by simp [fittingCall]
  currency := rfl
  counterparty := rfl
  context k := by
    simp only [AttestCall.contextKeys, fittingCall, Option.getD_some, List.map_map,
      Function.comp_def, List.map_id', List.mem_dedup]

/-- The adapter's check is the server's, and some call passes both. -/
structure PreflightAgrees (c : IntegrationContractVersion) : Prop where
  agrees : ∀ (call : AttestCall) (requestedAt : Timestamp) (nonce : String),
    (ContractShape.ofContract c).check call = .ok () ↔
      checkShape c (call.request requestedAt nonce) = .ok ()
  admits : ∃ call : AttestCall, (ContractShape.ofContract c).check call = .ok () ∧
    ∀ (requestedAt : Timestamp) (nonce : String), checkShape c (call.request requestedAt nonce) = .ok ()

/-- **The two checks agree exactly where** the contract version does not bind the reserved key. -/
theorem preflightAgrees_iff (c : IntegrationContractVersion) :
    PreflightAgrees c ↔ "environment" ∉ c.contextBindings.map Prod.fst := by
  constructor
  · rintro ⟨-, call, -, hserver⟩ henvironment
    obtain ⟨hfits, hreserved⟩ := checkShape_ok_iff.1 (hserver 0 "")
    exact hreserved ((hfits.context _).2 henvironment)
  · intro henvironment
    have hreserved : ∀ call, Fits c call → "environment" ∉ call.contextKeys :=
      fun call h hmem => henvironment ((h.context _).1 hmem)
    refine ⟨fun call requestedAt nonce => ?_, fittingCall c, check_ok_iff.2 (fits_fittingCall c),
      fun requestedAt nonce => ?_⟩
    · rw [check_ok_iff, checkShape_ok_iff]
      exact ⟨fun h => ⟨h, hreserved call h⟩, fun h => h.1⟩
    · exact checkShape_ok_iff.2 ⟨fits_fittingCall c, hreserved _ (fits_fittingCall c)⟩

/-! A contract version that is validated, and binds the reserved key. -/

def reservedFields : ContractFields where
  sourceOperation := "create_payment"
  canonicalAction := "vendor_payment"
  contextBindings := [("environment", "source.environment")]

def reservedVersion : ContractVersionRow where
  id := 1
  integrationId := 2
  organizationId := 3
  contentHash := some "hash"
  sourceOperation := reservedFields.sourceOperation
  canonicalAction := reservedFields.canonicalAction
  resourcePath := none
  amountPath := none
  currencyPath := none
  factSubjectPath := none
  contextBindings := reservedFields.contextBindings
  version := 1
  status := .validated

theorem preflight_differs :
    IntegrationContractService.validateSemanticFields reservedVersion.fields = .ok () ∧
    (ContractShape.ofContract reservedVersion.toIntegrationContractVersion).check
      (fittingCall reservedVersion.toIntegrationContractVersion) = .ok () ∧
    ∀ (call : AttestCall) (requestedAt : Timestamp) (nonce : String),
      checkShape reservedVersion.toIntegrationContractVersion (call.request requestedAt nonce) ≠
        .ok () := by
  refine ⟨by decide +kernel, check_ok_iff.2 (fits_fittingCall _), fun call requestedAt nonce h => ?_⟩
  obtain ⟨hfits, hreserved⟩ := checkShape_ok_iff.1 h
  exact hreserved ((hfits.context _).2 (by decide))

end Sdk

end PayReality
