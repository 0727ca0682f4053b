import PayReality.Canonical
import PayReality.Capability.Verification
import PayReality.Evidence.Tamper

/-!
# A token says what it was issued for

`issue_capability_token` and `verify_capability_token`, one after the other. Signatures cannot be
forged: what verifies under the key of the service is the text of something that it has signed
(`Signed`), which is a capability, evidence, or an audit event of an agent.

* `typed_payload`: the typed payloads of `CapabilityService` are those of this module.
* `capabilityToken_binds`: an issued token verifies, with its own payload, exactly for presentations that
  agree with it, and no token verifies with another payload than an issued one.
-/

namespace PayReality

open CapabilityService

/-! ## Issuing -/

/-- The parameters of `issue_capability_token`. -/
structure IssueRequest where
  decisionId : Uuid
  organizationId : Uuid
  principal : String
  action : String
  resource : String
  constraints : List (String × String)
  policyVersion : Option ℤ
  factHashes : List String
  audience : String
  ttlSeconds : Timestamp
  now : Timestamp
  integrationIdentityId : Option Uuid := none
  enforcementBindingId : Option Uuid := none
  integrationContractVersionId : Option Uuid := none
  environment : Option String := none
  externalOperationId : Option String := none

namespace IssueRequest

variable (H : TokenHost) (r : IssueRequest)

def expiresAt : Timestamp := r.now + r.ttlSeconds

/-- The constraints, as a dict. -/
def constraintsDict : List (String × Json) := r.constraints.map fun e => (e.1, .str e.2)

/-- The payload; `nonce` is the random text. -/
def payload (nonce : String) : TokenPayload where
  decisionId := .str (H.uuidText r.decisionId)
  organizationId := .str (H.uuidText r.organizationId)
  principal := .str r.principal
  action := .str r.action
  resource := .str r.resource
  constraints := .obj r.constraintsDict
  policyVersion := (r.policyVersion.map Json.int).getD .null
  factHashes := r.factHashes.map .str
  issuedAt := .str (H.isoformat r.now)
  expiresAt := .str (H.isoformat r.expiresAt)
  nonce := .str nonce
  audience := .str r.audience
  integrationIdentityId := .ofText (r.integrationIdentityId.map H.uuidText)
  enforcementBindingId := .ofText (r.enforcementBindingId.map H.uuidText)
  integrationContractVersionId := .ofText (r.integrationContractVersionId.map H.uuidText)
  environment := .ofText r.environment
  externalOperationId := .ofText r.externalOperationId

/-- The fact hashes in the order of the text of a token. -/
def sortedHashes : List Json := (r.factHashes.insertionSort (· ≤ ·)).map .str

/-- The payload as it is read back, with constraints of the same text. -/
def decoded (nonce : String) (u : Json) : TokenPayload :=
  { r.payload H nonce with constraints := u, factHashes := r.sortedHashes }

end IssueRequest

/-- `IssuedCapabilityToken`. -/
structure IssuedToken where
  payload : TokenPayload
  signature : String
  keyId : String
  token : String
  tokenHash : String

namespace CapabilityToken

variable (H : TokenHost)

/-- `issue_capability_token`. -/
def issueCapabilityToken (r : IssueRequest) (nonce signingKey keyId : String) :
    Except PyError IssuedToken := do
  let payload ← (r.payload H nonce).toDict
  let signature := H.sign signingKey payload.stableRepr
  let token := H.encode (envelopeOf payload signature keyId).stableRepr
  return { payload := r.payload H nonce, signature, keyId, token, tokenHash := H.tokenHash token }

/-- The presentation expects nothing that the token was not issued for. -/
structure Agrees (r : IssueRequest) (e : Presentation) : Prop where
  audience : e.audience = r.audience
  action : e.action = r.action
  resource : e.resource = r.resource
  constraints : Json.pyEq (.obj r.constraintsDict) (.obj e.constraints) = true
  organizationId : ∀ o, e.organizationId = some o → r.organizationId = o
  principal : ∀ s, e.principal = some s → r.principal = s
  environment : ∀ s, e.environment = some s → r.environment = some s
  enforcementBindingId : ∀ b, e.enforcementBindingId = some b → r.enforcementBindingId = some b

end CapabilityToken

/-- Two payloads are equal, up to the order of the fact hashes; of the constraints the order of the
members does not count. -/
structure TokenPayload.Same (p q : TokenPayload) : Prop where
  decisionId : p.decisionId = q.decisionId
  organizationId : p.organizationId = q.organizationId
  principal : p.principal = q.principal
  action : p.action = q.action
  resource : p.resource = q.resource
  constraints : p.constraints.stableRepr = q.constraints.stableRepr
  policyVersion : p.policyVersion = q.policyVersion
  factHashes : p.factHashes.Perm q.factHashes
  issuedAt : p.issuedAt = q.issuedAt
  expiresAt : p.expiresAt = q.expiresAt
  nonce : p.nonce = q.nonce
  audience : p.audience = q.audience
  integrationIdentityId : p.integrationIdentityId = q.integrationIdentityId
  enforcementBindingId : p.enforcementBindingId = q.enforcementBindingId
  integrationContractVersionId : p.integrationContractVersionId = q.integrationContractVersionId
  environment : p.environment = q.environment
  externalOperationId : p.externalOperationId = q.externalOperationId

/-! ## What the service signs -/

/-- The payloads that are signed with the key of the service, where `calls` are the calls of
`issue_capability_token`, each with its random text. -/
inductive Signed (H : TokenHost) (calls : Set (IssueRequest × String)) : Json → Prop
  | capability {r : IssueRequest} {nonce : String} {payload : Json} : (r, nonce) ∈ calls →
      (r.payload H nonce).toDict = .ok payload → Signed H calls payload
  | evidence (e : EvidencePayload) (review : EvidenceReview)
      (provenance : Option IntegrationProvenance) :
      Signed H calls (Evidence.buildEvidencePayload H.toPrinter e review provenance)
  | event (eventPayload : List (String × Json)) (eventType : String) (decisionId : Uuid)
      (recordedAt : Timestamp) (previousHash : Option String) : Signed H calls
        (Evidence.genericPayload H.toPrinter eventPayload eventType decisionId recordedAt previousHash)
  | audit (agentId : Uuid) (eventType : String) (actor : Option String) (details : Json)
      (recordedAt : Timestamp) :
      Signed H calls (Evidence.auditPayload H.toPrinter agentId eventType actor details recordedAt)

/-- Nobody else can sign: what verifies has been signed by the service. -/
def SignsAlone (H : TokenHost) (signingKey : String) (calls : Set (IssueRequest × String)) : Prop :=
  ∀ text signature, H.verify text signature (H.publicKey signingKey) = true →
    ∃ v, Signed H calls v ∧ v.stableRepr = text

/-! ## Texts of payloads -/

theorem Json.scalar_ofText (o : Option String) : (Json.ofText o).scalar = true := by
  cases o <;> rfl

/-- What `issue_capability_token` makes: every field but the constraints is a text, a number or
`None`. -/
structure TokenPayload.Plain (p : TokenPayload) : Prop where
  decisionId : p.decisionId.scalar = true
  organizationId : p.organizationId.scalar = true
  principal : p.principal.scalar = true
  action : p.action.scalar = true
  resource : p.resource.scalar = true
  policyVersion : p.policyVersion.scalar = true
  factHashes : ∃ ss : List String, p.factHashes = ss.map .str
  issuedAt : p.issuedAt.scalar = true
  expiresAt : p.expiresAt.scalar = true
  nonce : p.nonce.scalar = true
  audience : p.audience.scalar = true
  integrationIdentityId : p.integrationIdentityId.scalar = true
  enforcementBindingId : p.enforcementBindingId.scalar = true
  integrationContractVersionId : p.integrationContractVersionId.scalar = true
  environment : p.environment.scalar = true
  externalOperationId : p.externalOperationId.scalar = true

theorem IssueRequest.payload_plain (H : TokenHost) (r : IssueRequest) (nonce : String) :
    (r.payload H nonce).Plain where
  decisionId := rfl
  organizationId := rfl
  principal := rfl
  action := rfl
  resource := rfl
  policyVersion := by
    unfold IssueRequest.payload
    cases r.policyVersion <;> rfl
  factHashes := ⟨r.factHashes, rfl⟩
  issuedAt := rfl
  expiresAt := rfl
  nonce := rfl
  audience := rfl
  integrationIdentityId := Json.scalar_ofText _
  enforcementBindingId := Json.scalar_ofText _
  integrationContractVersionId := Json.scalar_ofText _
  environment := Json.scalar_ofText _
  externalOperationId := Json.scalar_ofText _

namespace TokenPayload

variable {p q : TokenPayload} {v w : Json} {hs : List Json}

theorem toDict_ok :
    p.toDict = .ok v ↔ ∃ hs, Json.sorted p.factHashes = .ok hs ∧ v = p.dictWith hs := by
  unfold toDict
  cases h : Json.sorted p.factHashes with
  | error e => simp
  | ok hs =>
    simp only [CapabilityToken.ok_bind, Except.ok.injEq, exists_eq_left']
    constructor
    · intro h
      cases h
      rfl
    · intro h
      rw [h]
      rfl

theorem sorted_perm {xs : List Json} (h : Json.sorted xs = .ok hs) : hs.Perm xs :=
  FallibleSort.sort_perm h

/-- **Payloads with one text are equal**, if one of them has been issued. -/
theorem same_of_stableRepr (hq : q.Plain) (hpv : p.toDict = .ok v) (hqw : q.toDict = .ok w)
    (h : v.stableRepr = w.stableRepr) : p.Same q := by
  obtain ⟨hs, hphs, rfl⟩ := toDict_ok.1 hpv
  obtain ⟨hs', hqhs, rfl⟩ := toDict_ok.1 hqw
  have hfield : ∀ k {x y}, (p.dictWith hs).get? k = some x → (q.dictWith hs').get? k = some y →
      x.stableRepr = y.stableRepr := by
    intro k x y hx hy
    have := Json.stableRepr_get? h k
    rw [hx, hy] at this
    exact Option.some.inj this
  have hscalar : ∀ k {x y}, (p.dictWith hs).get? k = some x → (q.dictWith hs').get? k = some y →
      y.scalar = true → x = y := fun k _ _ hx hy hsc =>
    Json.rigid_scalar hsc _ (hfield k hx hy)
  have hhashes : hs = hs' := by
    obtain ⟨ss, hss⟩ := hq.factHashes
    rw [hss, Json.sorted_texts, Except.ok.injEq] at hqhs
    have htext := hfield "fact_hashes" rfl rfl
    rw [← hqhs] at htext ⊢
    exact Json.arr.inj (Json.rigid_texts _ _ htext)
  exact {
    decisionId := hscalar "decision_id" rfl rfl hq.decisionId
    organizationId := hscalar "organization_id" rfl rfl hq.organizationId
    principal := hscalar "principal" rfl rfl hq.principal
    action := hscalar "action" rfl rfl hq.action
    resource := hscalar "resource" rfl rfl hq.resource
    constraints := hfield "constraints" rfl rfl
    policyVersion := hscalar "policy_version" rfl rfl hq.policyVersion
    factHashes := (sorted_perm hphs).symm.trans (hhashes ▸ sorted_perm hqhs)
    issuedAt := hscalar "issued_at" rfl rfl hq.issuedAt
    expiresAt := hscalar "expires_at" rfl rfl hq.expiresAt
    nonce := hscalar "nonce" rfl rfl hq.nonce
    audience := hscalar "audience" rfl rfl hq.audience
    integrationIdentityId := hscalar "integration_identity_id" rfl rfl hq.integrationIdentityId
    enforcementBindingId := hscalar "enforcement_binding_id" rfl rfl hq.enforcementBindingId
    integrationContractVersionId :=
      hscalar "integration_contract_version_id" rfl rfl hq.integrationContractVersionId
    environment := hscalar "environment" rfl rfl hq.environment
    externalOperationId := hscalar "external_operation_id" rfl rfl hq.externalOperationId }

end TokenPayload

namespace CapabilityToken

variable {H : TokenHost} {calls : Set (IssueRequest × String)} {r : IssueRequest}
  {nonce signingKey keyId : String} {e : Presentation} {now : Timestamp}

/-- Evidence has a version and an audit event has no audience: their texts are no payload's. -/
theorem signed_capability {v : Json} {p : TokenPayload} {hs : List Json} (h : Signed H calls v)
    (heq : v.stableRepr = (p.dictWith hs).stableRepr) :
    ∃ r nonce, (r, nonce) ∈ calls ∧ (r.payload H nonce).toDict = .ok v := by
  cases h with
  | capability hcall hdict => exact ⟨_, _, hcall, hdict⟩
  | evidence e review provenance =>
    have := Json.stableRepr_get? heq "payload_version"
    cases this
  | event eventPayload eventType decisionId recordedAt previousHash =>
    have := Json.stableRepr_get? heq "payload_version"
    rw [Evidence.genericPayload, Evidence.get?_withMember_of_ne _ _ (by decide),
      Evidence.get?_withMember_of_ne _ _ (by decide), Evidence.get?_withMember_of_ne _ _ (by decide),
      Evidence.get?_withMember_of_ne _ _ (by decide), Evidence.get?_withMember_self] at this
    cases this
  | audit agentId eventType actor details recordedAt =>
    have := Json.stableRepr_get? heq "audience"
    cases this

/-- A token that verifies has been issued. -/
theorem issued_of_verifies (halone : SignsAlone H signingKey calls) {token : String}
    {d : DecodedToken} {v : VerifiedCapability} (hdecode : decodeToken H token = some d)
    (h : verifyCapabilityToken H token (H.publicKey signingKey) e now = .ok v) :
    ∃ r nonce, (r, nonce) ∈ calls ∧ d.payload.Same (r.payload H nonce) := by
  rw [verifyCapabilityToken, hdecode] at h
  obtain ⟨payload, hdict, h⟩ := bind_ok.1 h
  by_cases hverify : verifyPayload H payload d.signature (H.publicKey signingKey) = true
  · obtain ⟨s, hs⟩ : ∃ s, d.signature = .str s := by
      unfold verifyPayload at hverify
      cases hd : d.signature <;> simp [hd] at hverify ⊢
    rw [hs] at hverify
    obtain ⟨w, hsigned, hw⟩ := halone _ s hverify
    obtain ⟨hashes, -, rfl⟩ := TokenPayload.toDict_ok.1 hdict
    obtain ⟨r, nonce, hcall, hissued⟩ := signed_capability hsigned hw
    exact ⟨r, nonce, hcall, TokenPayload.same_of_stableRepr (r.payload_plain H nonce) hdict hissued
      hw.symm⟩
  · simp [hverify] at h

/-! ## Expectations -/

theorem pyEq_str (s t : String) : (Json.str s).pyEq (.str t) = decide (s = t) := by
  simp [Json.pyEq, Json.key, Json.token_mk_inj]

theorem differs_ofText (o expected : Option String) :
    differs (.ofText o) expected = false ↔ ∀ s, expected = some s → o = some s := by
  cases expected with
  | none => simp [differs]
  | some s =>
    cases o with
    | none => simp [differs, Json.ofText, Json.pyEq, Json.key, Json.token_mk_inj]
    | some t => simp [differs, Json.ofText, pyEq_str]

theorem differs_ids (hids : Function.Injective H.uuidText) (o expected : Option Uuid) :
    differs (.ofText (o.map H.uuidText)) (expected.map H.uuidText) = false ↔
      ∀ b, expected = some b → o = some b := by
  rw [differs_ofText]
  cases expected with
  | none => simp
  | some b =>
    cases o with
    | none => simp
    | some c => simp [hids.eq_iff]

theorem checkBound_ok {p : TokenPayload} : checkBound H p e = .ok () ↔
    differs p.organizationId (e.organizationId.map H.uuidText) = false ∧
    p.audience.pyEq (.str e.audience) = true ∧ p.action.pyEq (.str e.action) = true ∧
    p.resource.pyEq (.str e.resource) = true ∧ p.constraints.pyEq (.obj e.constraints) = true ∧
    differs p.principal e.principal = false ∧ differs p.environment e.environment = false ∧
    differs p.enforcementBindingId (e.enforcementBindingId.map H.uuidText) = false := by
  unfold checkBound
  split_ifs <;> simp_all

/-- The comparisons pass exactly for the presentations that agree. -/
theorem checkBound_issued (hids : Function.Injective H.uuidText) :
    checkBound H (r.payload H nonce) e = .ok () ↔ Agrees r e := by
  have horganization := differs_ids hids (some r.organizationId) e.organizationId
  have hprincipal := differs_ofText (some r.principal) e.principal
  have henvironment := differs_ofText r.environment e.environment
  have hbinding := differs_ids hids r.enforcementBindingId e.enforcementBindingId
  rw [checkBound_ok]
  simp only [IssueRequest.payload, pyEq_str, decide_eq_true_eq]
  constructor
  · intro h
    obtain ⟨horg, haud, hact, hres, hcons, hprin, henv, hbind⟩ := h
    exact ⟨haud.symm, hact.symm, hres.symm, hcons,
      fun o ho => Option.some.inj (horganization.1 horg o ho),
      fun s hs => Option.some.inj (hprincipal.1 hprin s hs), henvironment.1 henv, hbinding.1 hbind⟩
  · intro h
    exact ⟨horganization.2 fun o ho => congrArg some (h.organizationId o ho), h.audience.symm,
      h.action.symm, h.resource.symm, h.constraints,
      hprincipal.2 fun s hs => congrArg some (h.principal s hs), henvironment.2 h.environment,
      hbinding.2 h.enforcementBindingId⟩

/-! ## Payloads with types

`CapabilityService` has the payloads that it issues with their types; here they are the payloads whose
fields are texts. -/

/-- A payload with types, as the class has it. -/
def ofTyped (P : Printer) (c : CapabilityTokenPayload) : TokenPayload where
  decisionId := .str (P.uuidText c.decisionId)
  organizationId := .str (P.uuidText c.organizationId)
  principal := .str c.principal
  action := .str c.action
  resource := .str c.resource
  constraints := .obj c.constraints
  policyVersion := (c.policyVersion.map fun v => Json.int v).getD .null
  factHashes := c.factHashes.map .str
  issuedAt := .str (P.isoformat c.issuedAt)
  expiresAt := .str (P.isoformat c.expiresAt)
  nonce := .str c.nonce
  audience := .str c.audience
  integrationIdentityId := .ofText (c.integrationIdentityId.map P.uuidText)
  enforcementBindingId := .ofText (c.enforcementBindingId.map P.uuidText)
  integrationContractVersionId := .ofText (c.integrationContractVersionId.map P.uuidText)
  environment := .ofText c.environment
  externalOperationId := .ofText c.externalOperationId

theorem differs_text (s : String) (expected : Option String) :
    differs (.str s) expected = expected.any (· ≠ s) := by
  cases expected with
  | none => rfl
  | some t => simp [differs, pyEq_str, eq_comm]

theorem differs_eq_any (o expected : Option String) :
    differs (.ofText o) expected = expected.any (o ≠ some ·) := by
  cases expected with
  | none => rfl
  | some s =>
    cases o with
    | none => simp [differs, Json.ofText, Json.pyEq, Json.key, Json.token_mk_inj]
    | some t => simp [differs, Json.ofText, pyEq_str]

/-- **The typed model is this one**: what is signed of a typed payload, and the comparisons with it. -/
theorem typed_payload (hids : Function.Injective H.uuidText) {c : CapabilityTokenPayload}
    (hiso : H.fromisoformat (H.isoformat c.expiresAt) = some (.aware c.expiresAt)) :
    (ofTyped H.toPrinter c).toDict = .ok (Evidence.capabilityPayload H.toPrinter c) ∧
      checkSigned H (ofTyped H.toPrinter c) e now = checkPayload c e now := by
  refine ⟨TokenPayload.toDict_ok.2 ⟨_, Json.sorted_texts c.factHashes, rfl⟩, ?_⟩
  have horganization : differs (.str (H.uuidText c.organizationId))
      (e.organizationId.map H.uuidText) = e.organizationId.any (· ≠ c.organizationId) := by
    rw [differs_text, Option.any_map]
    simp [hids.eq_iff]
  have hbinding : differs (.ofText (c.enforcementBindingId.map H.uuidText))
      (e.enforcementBindingId.map H.uuidText) =
        e.enforcementBindingId.any (c.enforcementBindingId ≠ some ·) := by
    rw [differs_eq_any, Option.any_map]
    cases c.enforcementBindingId <;> simp [hids.eq_iff]
  rw [checkSigned_instant rfl hiso]
  simp only [checkBound, checkPayload, ofTyped, horganization, hbinding, differs_text, differs_eq_any,
    pyEq_str]
  simp

/-! ## Reading back what was issued -/

/-- `json.loads` reads a value back from its canonical text, as a value with that text. -/
def ReadsBack (H : TokenHost) (v : Json) : Prop :=
  ∃ w, H.loads (H.encode v.stableRepr) = some w ∧ w.stableRepr = v.stableRepr

/-- What is signed for a payload verifies with the public key. -/
def Verifies (H : TokenHost) (signingKey : String) (p : TokenPayload) : Prop :=
  ∀ v, p.toDict = .ok v →
    H.verify v.stableRepr (H.sign signingKey v.stableRepr) (H.publicKey signingKey) = true

/-- What `_encode_token` encodes. -/
def issuedEnvelope (H : TokenHost) (r : IssueRequest) (nonce signingKey keyId : String) : Json :=
  let payload := (r.payload H nonce).dictWith r.sortedHashes
  envelopeOf payload (H.sign signingKey payload.stableRepr) keyId

theorem issued_toDict : (r.payload H nonce).toDict =
    .ok ((r.payload H nonce).dictWith r.sortedHashes) :=
  TokenPayload.toDict_ok.2 ⟨_, Json.sorted_texts r.factHashes, rfl⟩

theorem issueCapabilityToken_ok : ∃ issued,
    issueCapabilityToken H r nonce signingKey keyId = .ok issued ∧ issued.payload = r.payload H nonce ∧
    issued.token = H.encode (issuedEnvelope H r nonce signingKey keyId).stableRepr := by
  unfold issueCapabilityToken
  rw [issued_toDict, ok_bind]
  exact ⟨_, rfl, rfl, rfl⟩

/-- What `from_dict` reads from a value with the text of an issued payload. -/
theorem fromDict_issued {x : Json} (hx : x.stableRepr =
    ((r.payload H nonce).dictWith r.sortedHashes).stableRepr) :
    ∃ u, u.stableRepr = (r.payload H nonce).constraints.stableRepr ∧
      TokenPayload.fromDict x = some (r.decoded H nonce u) := by
  have hq := r.payload_plain H nonce
  have hhashes := Json.get?_rigid hx "fact_hashes" rfl (Json.rigid_texts _)
  obtain ⟨u, hu, hutext⟩ : ∃ u, x.get? "constraints" = some u ∧
      u.stableRepr = (r.payload H nonce).constraints.stableRepr := Json.get?_of_stableRepr hx rfl
  refine ⟨u, hutext, ?_⟩
  simp only [TokenPayload.fromDict, TokenPayload.getOrNone, hu, hhashes,
    Json.get?_scalar hx "decision_id" rfl hq.decisionId,
    Json.get?_scalar hx "organization_id" rfl hq.organizationId,
    Json.get?_scalar hx "principal" rfl hq.principal, Json.get?_scalar hx "action" rfl hq.action,
    Json.get?_scalar hx "resource" rfl hq.resource,
    Json.get?_scalar hx "policy_version" rfl hq.policyVersion,
    Json.get?_scalar hx "issued_at" rfl hq.issuedAt, Json.get?_scalar hx "expires_at" rfl hq.expiresAt,
    Json.get?_scalar hx "nonce" rfl hq.nonce, Json.get?_scalar hx "audience" rfl hq.audience,
    Json.get?_scalar hx "integration_identity_id" rfl hq.integrationIdentityId,
    Json.get?_scalar hx "enforcement_binding_id" rfl hq.enforcementBindingId,
    Json.get?_scalar hx "integration_contract_version_id" rfl hq.integrationContractVersionId,
    Json.get?_scalar hx "environment" rfl hq.environment,
    Json.get?_scalar hx "external_operation_id" rfl hq.externalOperationId]
  rfl

theorem decodeToken_issued (hreads : ReadsBack H (issuedEnvelope H r nonce signingKey keyId)) :
    ∃ u, u.stableRepr = (r.payload H nonce).constraints.stableRepr ∧
      decodeToken H (H.encode (issuedEnvelope H r nonce signingKey keyId).stableRepr) = some {
        payload := r.decoded H nonce u
        signature := .str (H.sign signingKey
          ((r.payload H nonce).dictWith r.sortedHashes).stableRepr)
        keyId := .str keyId } := by
  obtain ⟨w, hloads, hw⟩ := hreads
  obtain ⟨x, hx, hxtext⟩ : ∃ x, w.get? "payload" = some x ∧
      x.stableRepr = ((r.payload H nonce).dictWith r.sortedHashes).stableRepr :=
    Json.get?_of_stableRepr hw rfl
  obtain ⟨u, hu, hfrom⟩ := fromDict_issued hxtext
  refine ⟨u, hu, ?_⟩
  have hsignature := Json.get?_scalar hw "signature" rfl rfl
  have hkey := Json.get?_scalar hw "key_id" rfl rfl
  simp only [decodeToken, hloads, Option.bind_eq_bind, Option.bind_some, hx, hfrom, hsignature, hkey]
  rfl

section Decoded

variable {u : Json} (hu : u.stableRepr = (r.payload H nonce).constraints.stableRepr)

include hu

theorem decoded_same : (r.decoded H nonce u).Same (r.payload H nonce) := by
  have hhashes : r.sortedHashes.Perm (r.payload H nonce).factHashes :=
    (List.perm_insertionSort _ _).map _
  exact ⟨rfl, rfl, rfl, rfl, rfl, hu, rfl, hhashes, rfl, rfl, rfl, rfl, rfl, rfl, rfl, rfl, rfl⟩

/-- The dict of the decoded payload has the text that has been signed. -/
theorem decoded_toDict : ∃ payload, (r.decoded H nonce u).toDict = .ok payload ∧
    payload.stableRepr =
      ((r.payload H nonce).dictWith r.sortedHashes).stableRepr := by
  have hresort : Json.sorted r.sortedHashes = .ok r.sortedHashes := by
    rw [IssueRequest.sortedHashes, Json.sorted_texts,
      (List.pairwise_insertionSort (· ≤ ·) r.factHashes).insertionSort_eq]
  refine ⟨_, TokenPayload.toDict_ok.2 ⟨_, hresort, rfl⟩, ?_⟩
  simp only [TokenPayload.dictWith, IssueRequest.decoded, Json.stableRepr, Json.stableEntries, hu]

/-- The comparisons cannot tell the decoded payload from the issued one. -/
theorem checkBound_decoded :
    checkBound H (r.decoded H nonce u) e = checkBound H (r.payload H nonce) e := by
  have hkey := Json.key_of_stableRepr true _ _ hu
  have heq : (r.decoded H nonce u).constraints.pyEq (.obj e.constraints) =
      (r.payload H nonce).constraints.pyEq (.obj e.constraints) := by
    simp only [Json.pyEq, IssueRequest.decoded, hkey]
  unfold checkBound
  rw [heq]
  rfl

end Decoded

/-- What verification makes of an issued token. -/
theorem verifyCapabilityToken_issued
    (hreads : ReadsBack H (issuedEnvelope H r nonce signingKey keyId))
    (hverify : Verifies H signingKey (r.payload H nonce))
    (hiso : H.fromisoformat (H.isoformat r.expiresAt) = some (.aware r.expiresAt)) :
    ∃ v : VerifiedCapability, v.payload.Same (r.payload H nonce) ∧
      verifyCapabilityToken H (H.encode (issuedEnvelope H r nonce signingKey keyId).stableRepr)
          (H.publicKey signingKey) e now =
        if r.expiresAt < now then .error .capabilityTokenExpired
        else (checkBound H (r.payload H nonce) e).map fun _ => v := by
  obtain ⟨u, hu, hdecode⟩ := decodeToken_issued hreads
  obtain ⟨payload, hdict, htext⟩ := decoded_toDict hu
  have hown := hverify _ issued_toDict
  refine ⟨⟨r.decoded H nonce u, H.tokenHash (H.encode
    (issuedEnvelope H r nonce signingKey keyId).stableRepr)⟩, decoded_same hu, ?_⟩
  have hsigned : checkSigned H (r.decoded H nonce u) e now = _ :=
    checkSigned_instant rfl hiso
  rw [checkBound_decoded hu] at hsigned
  simp only [verifyCapabilityToken, hdecode, hdict, ok_bind, verifyPayload, htext, hown, hsigned,
    Bool.not_true, Bool.false_eq_true, if_false]
  by_cases hlt : r.expiresAt < now
  · simp [hlt]
  · simp only [hlt, if_false]
    cases checkBound H (r.payload H nonce) e <;> rfl

/-! ## Tokens and presentations -/

/-- **A token binds what it was issued for.** Before its expiry an issued token verifies, with the
issued payload, exactly for the presentations that agree with it; for any other presentation
verification raises an error of its module. A token with another payload than an issued one never
verifies. -/
theorem capabilityToken_binds (hids : Function.Injective H.uuidText)
    (hreads : ∀ r nonce, (r, nonce) ∈ calls →
      ReadsBack H (issuedEnvelope H r nonce signingKey keyId))
    (hiso : ∀ r nonce, (r, nonce) ∈ calls →
      H.fromisoformat (H.isoformat r.expiresAt) = some (.aware r.expiresAt))
    (hverify : ∀ r nonce, (r, nonce) ∈ calls → Verifies H signingKey (r.payload H nonce))
    (halone : SignsAlone H signingKey calls) :
    (∀ r nonce, (r, nonce) ∈ calls → ∃ issued,
      issueCapabilityToken H r nonce signingKey keyId = .ok issued ∧
      ∀ e now, now ≤ r.expiresAt →
        (Agrees r e → ∃ v, v.payload.Same issued.payload ∧
          verifyCapabilityToken H issued.token (H.publicKey signingKey) e now = .ok v) ∧
        (¬ Agrees r e → ∃ err, err.isCapability = true ∧
          verifyCapabilityToken H issued.token (H.publicKey signingKey) e now = .error err)) ∧
    ∀ token d, decodeToken H token = some d →
      (∀ r nonce, (r, nonce) ∈ calls → ¬ d.payload.Same (r.payload H nonce)) →
      ∀ e now v, verifyCapabilityToken H token (H.publicKey signingKey) e now ≠ .ok v := by
  constructor
  · intro r nonce hcall
    obtain ⟨issued, hissued, hpayload, htoken⟩ := issueCapabilityToken_ok
    refine ⟨issued, hissued, ?_⟩
    intro e now hnow
    obtain ⟨v, hsame, hverified⟩ := verifyCapabilityToken_issued (hreads r nonce hcall)
      (hverify r nonce hcall) (hiso r nonce hcall)
    rw [if_neg (not_lt.2 hnow)] at hverified
    rw [hpayload, htoken, hverified]
    constructor
    · intro hagrees
      rw [(checkBound_issued hids).2 hagrees]
      exact ⟨v, hsame, rfl⟩
    · intro hne
      cases hbound : checkBound H (r.payload H nonce) e with
      | ok => exact absurd ((checkBound_issued hids).1 hbound) hne
      | error err => exact ⟨err, checkBound_error hbound, rfl⟩
  · intro token d hdecode hother e now v hv
    obtain ⟨r, nonce, hcall, hsame⟩ := issued_of_verifies halone hdecode hv
    exact hother r nonce hcall hsame

/-! One capability, for the payment of an invoice. -/

def invoiceRequest : IssueRequest where
  decisionId := 8
  organizationId := 7
  principal := "agent"
  action := "vendor_payment"
  resource := "invoice-123"
  constraints := [("amount", "48000.00"), ("currency", "EUR")]
  policyVersion := some 3
  factHashes := ["f2", "f1"]
  audience := "pep"
  ttlSeconds := 300
  now := 0

def invoicePresentation (amount : String) : Presentation where
  audience := "pep"
  action := "vendor_payment"
  resource := "invoice-123"
  constraints := [("currency", .str "EUR"), ("amount", .str amount)]
  principal := some "agent"
  organizationId := some 7

/-- A clock from midnight to five past. -/
def clockPrinter : Printer :=
  { plainHost.toPrinter with
    isoformat := fun t =>
      if t = 300 then "1970-01-01T00:05:00+00:00" else "1970-01-01T00:00:00+00:00" }

def clockHost : TokenHost := { readerHost .null with toPrinter := clockPrinter }

def invoiceDict : Json :=
  (invoiceRequest.payload clockHost "n").dictWith invoiceRequest.sortedHashes

/-- One key, which has signed one text. -/
def signingHost : TokenHost where
  toPrinter := clockPrinter
  loads _ := some (envelopeOf invoiceDict "s" "k")
  encode _ := "t"
  sign _ _ := "s"
  verify text signature publicKey :=
    decide (text = invoiceDict.stableRepr) && decide (signature = "s" ∧ publicKey = "key")
  publicKey key := key
  fromisoformat s := if s = "1970-01-01T00:05:00+00:00" then some (.aware 300) else none
  tokenHash t := t

theorem invoice_agrees : Agrees invoiceRequest (invoicePresentation "48000.00") where
  audience := rfl
  action := rfl
  resource := rfl
  constraints := by decide +kernel
  organizationId := by
    intro o ho
    exact Option.some.inj ho
  principal := by
    intro s hs
    exact Option.some.inj hs
  environment := nofun
  enforcementBindingId := nofun

theorem signingHost_signsAlone : SignsAlone signingHost "key" {(invoiceRequest, "n")} := by
  intro text signature h
  have htext : text = invoiceDict.stableRepr := by
    simp only [signingHost, Bool.and_eq_true, decide_eq_true_eq] at h
    exact h.1
  exact ⟨invoiceDict, .capability rfl issued_toDict, htext.symm⟩

/-- The token of a payment of 48000.00 verifies for it, and not for 49000.00. -/
theorem capabilityToken_binds_invoice : ∃ issued,
    issueCapabilityToken signingHost invoiceRequest "n" "key" "k" = .ok issued ∧
    (∃ v, v.payload.Same issued.payload ∧ verifyCapabilityToken signingHost issued.token "key"
      (invoicePresentation "48000.00") 60 = .ok v) ∧
    ∃ err, err.isCapability = true ∧ verifyCapabilityToken signingHost issued.token "key"
      (invoicePresentation "49000.00") 60 = .error err := by
  have hmem : ∀ r nonce, (r, nonce) ∈ ({(invoiceRequest, "n")} : Set (IssueRequest × String)) →
      r = invoiceRequest ∧ nonce = "n" := by
    intro r nonce h
    simpa using h
  have hreads : ∀ r nonce, (r, nonce) ∈ ({(invoiceRequest, "n")} : Set (IssueRequest × String)) →
      ReadsBack signingHost (issuedEnvelope signingHost r nonce "key" "k") := by
    intro r nonce h
    obtain ⟨rfl, rfl⟩ := hmem r nonce h
    exact ⟨_, rfl, rfl⟩
  have hiso : ∀ r nonce, (r, nonce) ∈ ({(invoiceRequest, "n")} : Set (IssueRequest × String)) →
      signingHost.fromisoformat (signingHost.isoformat r.expiresAt) = some (.aware r.expiresAt) := by
    intro r nonce h
    obtain ⟨rfl, rfl⟩ := hmem r nonce h
    rfl
  have hverify : ∀ r nonce, (r, nonce) ∈ ({(invoiceRequest, "n")} : Set (IssueRequest × String)) →
      Verifies signingHost "key" (r.payload signingHost nonce) := by
    intro r nonce h v hv
    obtain ⟨rfl, rfl⟩ := hmem r nonce h
    rw [issued_toDict, Except.ok.injEq] at hv
    have htext : v.stableRepr = invoiceDict.stableRepr := by
      rw [← hv]
      rfl
    simp [signingHost, htext]
  have hbinds := capabilityToken_binds plainHost_uuidText hreads hiso hverify signingHost_signsAlone
  obtain ⟨issued, hissued, hchecks⟩ := hbinds.1 invoiceRequest "n" rfl
  have hother : ¬ Agrees invoiceRequest (invoicePresentation "49000.00") := by
    intro h
    have := h.constraints
    revert this
    decide +kernel
  exact ⟨issued, hissued, (hchecks _ 60 (by decide)).1 invoice_agrees,
    (hchecks _ 60 (by decide)).2 hother⟩

end CapabilityToken

end PayReality
