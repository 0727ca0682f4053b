import PayReality.Evidence.Ledger

/-!
# The identity of a business operation

`operation_identity_service.py` and `canonical_action.py`: the id that an adapter gives an operation,
the fingerprint of what the operation means, and the digest of the canonical action. Both hash the
canonical text of a JSON value, with SHA-256 as a parameter; a text is given by its tokens.

An amount is the number that its `float` prints as: that text is what is rounded, stored, hashed
and sent to OPA.
-/

namespace PayReality

/-- The platform, with SHA-256 of a canonical text. -/
structure OperationHost extends EvidenceHost where
  sha256 : List Json.Token → String

/-- A number in hundredths, rounded to the nearest, ties away from zero: `ROUND_HALF_UP`, and what
`Numeric(18, 2)` does. -/
def hundredths (a : ℚ) : ℤ :=
  if a < 0 then -(-a * 100 + 1 / 2).floor else (a * 100 + 1 / 2).floor

/-- A number of hundredths, with two decimals. -/
def decimalText (negative : Bool) (n : ℕ) : String :=
  (if negative then "-" else "") ++ toString (n / 100) ++ "." ++
    (if n % 100 < 10 then "0" else "") ++ toString (n % 100)

namespace OperationIdentity

def maxExternalOperationIdLength : ℕ := 256

/-- `validate_external_operation_id`: the text of the error, if there is one. -/
def validateExternalOperationId (value : String) : Option String :=
  if Text.blank value then
    some "external_operation_id must be a non-empty, non-whitespace string"
  else if maxExternalOperationIdLength < value.length then
    some "external_operation_id exceeds the maximum length of 256 characters"
  else none

/-- `_normalize_amount`. `quantize` raises beyond the 28 digits of the default context, and it
keeps the sign of an amount that it rounds to zero. -/
def normalizeAmount : Option ℚ → Except PyError (Option String)
  | none => .ok none
  | some a =>
    if 10 ^ 28 ≤ (hundredths a).natAbs then .error .invalidOperation
    else .ok (some (decimalText (a < 0) (hundredths a).natAbs))

variable (H : OperationHost)

/-- The text that a fingerprint hashes. -/
def semantic (originAgentId : Uuid) (contractContentHash : Option String)
    (sourceOperation canonicalAction : String) (resource amount currency factSubject : Option String)
    (trustedContext : List (String × Json)) : Json :=
  .obj [("origin_agent_id", .str (H.uuidText originAgentId)),
    ("contract_content_hash", .ofText contractContentHash),
    ("source_operation", .str sourceOperation), ("canonical_action", .str canonicalAction),
    ("resource", .ofText resource), ("amount", .ofText amount), ("currency", .ofText currency),
    ("fact_subject", .ofText factSubject), ("trusted_context", .obj trustedContext)]

/-- `compute_canonical_operation_fingerprint`. -/
def fingerprint (originAgentId : Uuid) (contractContentHash : Option String)
    (sourceOperation canonicalAction : String) (resource : Option String) (amount : Option ℚ)
    (currency factSubject : Option String) (trustedContext : List (String × Json)) :
    Except PyError String := do
  let amount ← normalizeAmount amount
  return H.sha256 (semantic H originAgentId contractContentHash sourceOperation canonicalAction
    resource amount currency factSubject trustedContext).stableRepr

end OperationIdentity

/-! ## The canonical action -/

/-- `CanonicalAction`, its material fields. -/
structure CanonicalAction where
  organizationId : Uuid
  agentId : Uuid
  action : String
  integrationIdentityId : Uuid
  integrationContractVersionId : Uuid
  contractContentHash : String
  environment : String
  externalOperationId : String
  principal : Option String := none
  resource : Option String := none
  amount : Option ℚ := none
  currency : Option String := none

namespace CanonicalAction

def schemaVersion : ℕ := 1

/-- `build_canonical_action`: the required fields that are texts may not be blank. -/
def build (contractContentHash : Option String) (make : String → CanonicalAction) :
    Except PyError CanonicalAction :=
  let c := make (contractContentHash.getD "")
  if Text.blank c.action then .error (.missingCanonicalActionField "action")
  else if Text.blank c.contractContentHash then
    .error (.missingCanonicalActionField "contract_content_hash")
  else if Text.blank c.environment then .error (.missingCanonicalActionField "environment")
  else if Text.blank c.externalOperationId then
    .error (.missingCanonicalActionField "external_operation_id")
  else .ok c

variable (H : OperationHost)

/-- `material_fields`. -/
def materialFields (c : CanonicalAction) (amount : Option String) : Json :=
  .obj [("schema_version", .int schemaVersion), ("organization_id", .str (H.uuidText c.organizationId)),
    ("agent_id", .str (H.uuidText c.agentId)), ("principal", .ofText c.principal),
    ("action", .str c.action), ("resource", .ofText c.resource), ("amount", .ofText amount),
    ("currency", .ofText c.currency),
    ("integration_identity_id", .str (H.uuidText c.integrationIdentityId)),
    ("integration_contract_version_id", .str (H.uuidText c.integrationContractVersionId)),
    ("contract_content_hash", .str c.contractContentHash), ("environment", .str c.environment),
    ("external_operation_id", .str c.externalOperationId)]

/-- `canonical_digest`. -/
def canonicalDigest (c : CanonicalAction) : Except PyError String := do
  let amount ← OperationIdentity.normalizeAmount c.amount
  return H.sha256 (c.materialFields H amount).stableRepr

end CanonicalAction

end PayReality
