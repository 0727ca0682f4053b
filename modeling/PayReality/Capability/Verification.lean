import PayReality.Capability.Token
import PayReality.Sorting

/-!
# What the verification of a token lets through

Model of `domain/capability/token.py` on the values that `json.loads` returns. `from_dict` checks no
field of a payload, so a `TokenPayload` has a value of any type in each. `base64`, `json`, SHA-256,
ED25519 and `datetime.fromisoformat` are the members of a `TokenHost`; a canonical text is known by
its tokens, `Json.stableRepr`.

**Main result** `verifyCapabilityToken_contained`: the errors that verification lets through are
those of the module exactly if the fact hashes can be sorted and what is signed has a time with an
offset for its expiry.
-/

namespace PayReality

open CapabilityService

/-- What `datetime.fromisoformat` returns: an instant, or a time with no offset. -/
inductive ParsedDatetime where
  | aware (t : Timestamp)
  | naive

/-- What the tokens are read and signed with. -/
structure TokenHost extends Printer where
  /-- `json.loads(base64.b64decode(token))`; `none` where one of them raises. -/
  loads : String → Option Json
  /-- `base64.b64encode`, of a canonical text. -/
  encode : List Json.Token → String
  /-- `sign_payload`: the private key, the canonical text. -/
  sign : String → List Json.Token → String
  /-- `verify_payload`: the canonical text, the signature, the public key. -/
  verify : List Json.Token → String → String → Bool
  /-- `public_key_b64_from_signing_key_b64`. -/
  publicKey : String → String
  /-- `datetime.fromisoformat`; `none` where it raises `ValueError`. -/
  fromisoformat : String → Option ParsedDatetime
  /-- `token_hash`. -/
  tokenHash : String → String

/-- The errors that `token.py` declares. -/
def PyError.isCapability : PyError → Bool
  | .invalidCapabilityToken | .capabilityTokenExpired | .capabilityTenantMismatch
  | .capabilityAudienceMismatch | .capabilityConstraintMismatch | .capabilityBindingMismatch => true
  | _ => false

/-- `CapabilityTokenPayload`, a dataclass that checks none of its fields. -/
structure TokenPayload where
  decisionId : Json
  organizationId : Json
  principal : Json
  action : Json
  resource : Json
  constraints : Json
  policyVersion : Json
  factHashes : List Json
  issuedAt : Json
  expiresAt : Json
  nonce : Json
  audience : Json
  integrationIdentityId : Json := .null
  enforcementBindingId : Json := .null
  integrationContractVersionId : Json := .null
  environment : Json := .null
  externalOperationId : Json := .null

namespace TokenPayload

/-- The dict of a payload, with its fact hashes in some order. -/
def dictWith (p : TokenPayload) (factHashes : List Json) : Json :=
  .obj [("decision_id", p.decisionId), ("organization_id", p.organizationId),
    ("principal", p.principal), ("action", p.action), ("resource", p.resource),
    ("constraints", p.constraints), ("policy_version", p.policyVersion),
    ("fact_hashes", .arr factHashes), ("issued_at", p.issuedAt), ("expires_at", p.expiresAt),
    ("nonce", p.nonce), ("audience", p.audience),
    ("integration_identity_id", p.integrationIdentityId),
    ("enforcement_binding_id", p.enforcementBindingId),
    ("integration_contract_version_id", p.integrationContractVersionId),
    ("environment", p.environment), ("external_operation_id", p.externalOperationId)]

/-- `to_dict`. -/
def toDict (p : TokenPayload) : Except PyError Json := do
  return p.dictWith (← Json.sorted p.factHashes)

/-- `list(v)`; `none` where `v` cannot be iterated over. -/
def listOf : Json → Option (List Json)
  | .arr xs => some xs
  | .str s => some (s.toList.map fun c => .str (.ofList [c]))
  | .obj kvs => some (kvs.map fun e => .str e.1)
  | _ => none

/-- `data.get(k)`. -/
def getOrNone (data : Json) (k : String) : Json := (data.get? k).getD .null

/-- `from_dict`; `none` where it raises. -/
def fromDict (data : Json) : Option TokenPayload := do
  let decisionId ← data.get? "decision_id"
  let organizationId ← data.get? "organization_id"
  let principal ← data.get? "principal"
  let action ← data.get? "action"
  let resource ← data.get? "resource"
  let constraints ← data.get? "constraints"
  let factHashes ← listOf ((data.get? "fact_hashes").getD (.arr []))
  let issuedAt ← data.get? "issued_at"
  let expiresAt ← data.get? "expires_at"
  let nonce ← data.get? "nonce"
  let audience ← data.get? "audience"
  return {
    decisionId, organizationId, principal, action, resource, constraints, factHashes, issuedAt,
    expiresAt, nonce, audience
    policyVersion := getOrNone data "policy_version"
    integrationIdentityId := getOrNone data "integration_identity_id"
    enforcementBindingId := getOrNone data "enforcement_binding_id"
    integrationContractVersionId := getOrNone data "integration_contract_version_id"
    environment := getOrNone data "environment"
    externalOperationId := getOrNone data "external_operation_id" }

end TokenPayload

/-- The result of `_decode_token`. -/
structure DecodedToken where
  payload : TokenPayload
  signature : Json
  keyId : Json

/-- `VerifiedCapability`. -/
structure VerifiedCapability where
  payload : TokenPayload
  tokenHash : String

namespace CapabilityToken

variable (H : TokenHost)

/-- `_decode_token`; `none` where it raises `InvalidCapabilityTokenError`, as it does whatever goes
wrong. -/
def decodeToken (token : String) : Option DecodedToken := do
  let envelope ← H.loads token
  let payload ← TokenPayload.fromDict (← envelope.get? "payload")
  let signature ← envelope.get? "signature"
  let keyId ← envelope.get? "key_id"
  return { payload, signature, keyId }

/-- `verify_payload`: what is not the text of a signature is no signature. -/
def verifyPayload (payload signature : Json) (publicKey : String) : Bool :=
  match signature with
  | .str s => H.verify payload.stableRepr s publicKey
  | _ => false

/-- `datetime.fromisoformat`. -/
def fromisoformat : Json → Except PyError ParsedDatetime
  | .str s =>
    match H.fromisoformat s with
    | some d => .ok d
    | none => .error .valueError
  | _ => .error .typeError

/-- `now > d`. -/
def after (now : Timestamp) : ParsedDatetime → Except PyError Bool
  | .aware t => .ok (decide (t < now))
  | .naive => .error .typeError

/-- `expected is not None and v != expected`. -/
def differs (v : Json) (expected : Option String) : Bool :=
  expected.any fun s => !v.pyEq (.str s)

/-- The comparisons of `verify_capability_token`, in its order. -/
def checkBound (p : TokenPayload) (e : Presentation) : Except PyError Unit :=
  if differs p.organizationId (e.organizationId.map H.uuidText) then
    .error .capabilityTenantMismatch
  else if !p.audience.pyEq (.str e.audience) then .error .capabilityAudienceMismatch
  else if !p.action.pyEq (.str e.action) then .error .capabilityConstraintMismatch
  else if !p.resource.pyEq (.str e.resource) then .error .capabilityConstraintMismatch
  else if !p.constraints.pyEq (.obj e.constraints) then .error .capabilityConstraintMismatch
  else if differs p.principal e.principal then .error .capabilityConstraintMismatch
  else if differs p.environment e.environment then .error .capabilityBindingMismatch
  else if differs p.enforcementBindingId (e.enforcementBindingId.map H.uuidText) then
    .error .capabilityBindingMismatch
  else .ok ()

/-- The rest of `verify_capability_token`, after the signature. -/
def checkSigned (p : TokenPayload) (e : Presentation) (now : Timestamp) : Except PyError Unit := do
  let expired ← after now (← fromisoformat H p.expiresAt)
  if expired then .error .capabilityTokenExpired else checkBound H p e

/-- `verify_capability_token`. -/
def verifyCapabilityToken (token publicKey : String) (e : Presentation) (now : Timestamp) :
    Except PyError VerifiedCapability :=
  match decodeToken H token with
  | none => .error .invalidCapabilityToken
  | some d => do
    let payload ← d.payload.toDict
    if !verifyPayload H payload d.signature publicKey then .error .invalidCapabilityToken
    else do
      checkSigned H d.payload e now
      return { payload := d.payload, tokenHash := H.tokenHash token }

/-! ## The errors -/

@[simp]
theorem ok_bind {α β : Type} (a : α) (f : α → Except PyError β) : (Except.ok a >>= f) = f a := rfl

@[simp]
theorem error_bind {α β : Type} (e : PyError) (f : α → Except PyError β) :
    (Except.error e >>= f) = .error e := rfl

section Errors

variable {H} {p : TokenPayload} {e : Presentation} {now : Timestamp} {err : PyError}

theorem checkBound_error (h : checkBound H p e = .error err) : err.isCapability = true := by
  unfold checkBound at h
  split_ifs at h <;> cases h <;> rfl

/-- A text that is the time of an instant. -/
def IsInstant (H : TokenHost) (v : Json) : Prop :=
  ∃ s t, v = .str s ∧ H.fromisoformat s = some (.aware t)

theorem checkSigned_instant {s : String} {t : Timestamp} (hexp : p.expiresAt = .str s)
    (hiso : H.fromisoformat s = some (.aware t)) : checkSigned H p e now =
      if t < now then .error .capabilityTokenExpired else checkBound H p e := by
  have hparse : fromisoformat H p.expiresAt = .ok (.aware t) := by
    simp [fromisoformat, hexp, hiso]
  have hafter : after now (.aware t) = .ok (decide (t < now)) := rfl
  simp only [checkSigned, hparse, ok_bind, hafter, decide_eq_true_eq]

theorem checkSigned_of_not_instant (h : ¬ IsInstant H p.expiresAt) :
    ∃ err, checkSigned H p e now = .error err ∧ err.isCapability = false := by
  unfold checkSigned
  cases hexp : p.expiresAt with
  | str s =>
    cases hiso : H.fromisoformat s with
    | none => exact ⟨.valueError, by simp [fromisoformat, hiso], rfl⟩
    | some d =>
      cases d with
      | aware t => exact absurd ⟨s, t, hexp, hiso⟩ h
      | naive => exact ⟨.typeError, by simp [fromisoformat, hiso, after], rfl⟩
  | _ => exact ⟨.typeError, by simp [fromisoformat], rfl⟩

/-- After the signature, nothing else is raised exactly if there is an instant to compare. -/
theorem checkSigned_contained :
    (∀ err, checkSigned H p e now = .error err → err.isCapability = true) ↔
      IsInstant H p.expiresAt := by
  constructor
  · intro h
    by_contra hne
    obtain ⟨err, herr, hcap⟩ : ∃ err, checkSigned H p e now = .error err ∧ _ :=
      checkSigned_of_not_instant hne
    rw [h err herr] at hcap
    cases hcap
  · intro h err herr
    obtain ⟨s, t, hexp, hiso⟩ := h
    rw [checkSigned_instant hexp hiso] at herr
    split_ifs at herr
    · cases herr
      rfl
    · exact checkBound_error herr

/-- A token that verification can handle: its fact hashes can be sorted, and if the signature is one
of what it says, its expiry is an instant. -/
structure Handled (H : TokenHost) (publicKey : String) (d : DecodedToken) : Prop where
  sortable : d.payload.factHashes.Pairwise (FallibleSort.Comparable Json.pyLt)
  instant : ∀ payload, d.payload.toDict = .ok payload →
    verifyPayload H payload d.signature publicKey = true → IsInstant H d.payload.expiresAt

variable {token publicKey : String}

/-- **Verification raises the errors of its module alone, exactly for the tokens that it can
handle.** -/
theorem verifyCapabilityToken_contained :
    (∀ err, verifyCapabilityToken H token publicKey e now = .error err → err.isCapability = true) ↔
      ∀ d, decodeToken H token = some d → Handled H publicKey d := by
  unfold verifyCapabilityToken
  cases hdecode : decodeToken H token with
  | none => simp [PyError.isCapability]
  | some d =>
    simp only [Option.some.injEq, forall_eq']
    cases hsorted : Json.sorted d.payload.factHashes with
    | error err =>
      have hdict : d.payload.toDict = .error .typeError := by
        rw [TokenPayload.toDict, hsorted, Json.sorted_error hsorted]
        rfl
      rw [hdict]
      constructor
      · intro h
        have := h .typeError rfl
        cases this
      · intro h
        obtain ⟨ys, hys⟩ := Json.sorted_returns.2 h.sortable
        rw [hsorted] at hys
        cases hys
    | ok hashes =>
      have hdict : d.payload.toDict = .ok (d.payload.dictWith hashes) := by
        rw [TokenPayload.toDict, hsorted]
        rfl
      have hsortable := Json.sorted_returns.1 ⟨hashes, hsorted⟩
      rw [hdict]
      simp only [ok_bind]
      by_cases hverify : verifyPayload H (d.payload.dictWith hashes) d.signature publicKey = true
      · have hchecks : (∀ err, checkSigned H d.payload e now = .error err →
            err.isCapability = true) ↔ Handled H publicKey d := by
          rw [checkSigned_contained]
          constructor
          · intro h
            exact ⟨hsortable, fun _ _ _ => h⟩
          · intro h
            exact h.instant _ hdict hverify
        rw [← hchecks, hverify]
        cases checkSigned H d.payload e now <;> simp [PyError.isCapability]
      · have hunsigned : Handled H publicKey d := by
          refine ⟨hsortable, ?_⟩
          intro payload hpayload hsigned
          rw [hdict, Except.ok.injEq] at hpayload
          rw [← hpayload] at hsigned
          exact absurd hsigned hverify
        simp [hverify, hunsigned, PyError.isCapability]

end Errors

/-! A token that anybody can write: its fact hashes are a number and a text, its signature is none. -/

def unsortedPayload : TokenPayload where
  decisionId := .str "d"
  organizationId := .str "o"
  principal := .str "agent"
  action := .str "vendor_payment"
  resource := .str "invoice-1"
  constraints := .obj []
  policyVersion := .int 1
  factHashes := [.int 1, .str "a"]
  issuedAt := .str "2026-01-01T00:00:00+00:00"
  expiresAt := .str "2026-01-01T00:05:00+00:00"
  nonce := .str "n"
  audience := .str "pep"

/-- A dict as `_encode_token` has it. -/
def envelopeOf (payload : Json) (signature keyId : String) : Json :=
  .obj [("payload", payload), ("signature", .str signature), ("key_id", .str keyId)]

/-- A host that reads one value from every token, and takes no signature for one. -/
def readerHost (v : Json) : TokenHost where
  toPrinter := capabilityHost.toPrinter
  loads _ := some v
  encode _ := ""
  sign _ _ := ""
  verify _ _ _ := false
  publicKey k := k
  fromisoformat _ := none
  tokenHash t := t

/-- Verification raises the `TypeError` of `sorted`, ahead of the signature. -/
theorem verifyCapabilityToken_escapes : ¬ ∀ err, verifyCapabilityToken
    (readerHost (envelopeOf (unsortedPayload.dictWith unsortedPayload.factHashes) "AA==" "k")) "t"
    "pk" { audience := "pep", action := "vendor_payment", resource := "invoice-1", constraints := [] }
    0 = .error err → err.isCapability = true := by
  intro h
  have := h .typeError rfl
  cases this

end CapabilityToken

end PayReality
