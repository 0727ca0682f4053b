import PayReality.Decision.IntentService

/-!
# What is signed

The payloads that the platform signs with its evidence key, as JSON: the evidence of a decision
(`_build_evidence_payload`), the evidence of any other event (`append_generic_evidence_event`), the
audit events of agents (`_append_audit_event`), and capabilities (`CapabilityTokenPayload.to_dict`).

The first two carry `decision_id` and `previous_hash`; the other two never carry `previous_hash`.
-/

namespace PayReality

/-- `str` of a float, and the hex digest that a bundle's hash is written as. -/
structure Printer extends Platform where
  floatText : ℚ → String
  bundleHashText : BundleHash → String

/-- What a person adds to the evidence of a decision. -/
structure EvidenceReview where
  approvalOutcome : Option String := none
  approver : Option String := none
  reviewer : Option String := none
  reviewOutcome : Option String := none

/-- What the trusted-integration path adds to an intent and to its evidence. -/
structure IntegrationProvenance where
  integrationIdentityId : Uuid
  enforcementBindingId : Uuid
  integrationContractVersionId : Uuid
  integrationContractContentHash : String
  integrationId : Uuid
  environment : String
  sourceOperation : String
  externalOperationId : String
  canonicalOperationFingerprint : String
  canonicalActionSchemaVersion : ℕ
  canonicalActionDigest : String
  deriving DecidableEq, Repr

/-- `CapabilityTokenPayload`. -/
structure CapabilityTokenPayload where
  decisionId : Uuid
  organizationId : Uuid
  principal : String
  action : String
  resource : String
  constraints : List (String × Json)
  policyVersion : Option ℕ
  factHashes : List String
  issuedAt : Timestamp
  expiresAt : Timestamp
  nonce : String
  audience : String
  integrationIdentityId : Option Uuid := none
  enforcementBindingId : Option Uuid := none
  integrationContractVersionId : Option Uuid := none
  environment : Option String := none
  externalOperationId : Option String := none

def Outcome.text : Outcome → String
  | .allow => "ALLOW"
  | .deny => "DENY"
  | .humanReview => "HUMAN_REVIEW"

def Json.texts (xs : List String) : Json := .arr (xs.map .str)

namespace Evidence

open IntentService

variable (P : Printer)

/-- `if v is not None: payload[k] = v`. -/
def optional (k : String) (v : Option Json) : List (String × Json) :=
  match v with
  | some v => [(k, v)]
  | none => []

/-- One element of `facts_evaluated`. -/
def factJson (f : FactEvaluated) : Json :=
  .obj [("key", .str f.key), ("value", f.value), ("subject", .ofText f.subject),
    ("source_id", .str (P.uuidText f.sourceId)), ("observed_at", .str (P.isoformat f.observedAt)),
    ("expires_at", .str (P.isoformat f.expiresAt))]

/-- The keys that `integration_provenance` fills. -/
def provenanceMembers (p : IntegrationProvenance) : List (String × Json) :=
  [("integration_identity_id", .str (P.uuidText p.integrationIdentityId)),
    ("enforcement_binding_id", .str (P.uuidText p.enforcementBindingId)),
    ("integration_contract_version_id", .str (P.uuidText p.integrationContractVersionId)),
    ("integration_contract_content_hash", .str p.integrationContractContentHash),
    ("integration_id", .str (P.uuidText p.integrationId)),
    ("environment", .str p.environment),
    ("source_operation", .str p.sourceOperation),
    ("external_operation_id", .str p.externalOperationId),
    ("canonical_operation_fingerprint", .str p.canonicalOperationFingerprint),
    ("canonical_action_schema_version", .int p.canonicalActionSchemaVersion),
    ("canonical_action_digest", .str p.canonicalActionDigest)]

/-- The members that every payload of `_build_evidence_payload` has. -/
def requiredMembers (e : EvidencePayload) (review : EvidenceReview) : List (String × Json) :=
  [("payload_version", .int 2), ("decision_id", .str (P.uuidText e.decisionId)),
    ("agent_id", .str (P.uuidText e.agentId)), ("action", .str e.action),
    ("matched_mandate_ids", .texts e.matchedMandateIds),
    ("authority_outcome", .str e.authorityOutcome.text),
    ("approval_outcome", .ofText review.approvalOutcome),
    ("risk_classification", .str e.riskClassification), ("approver", .ofText review.approver),
    ("recorded_at", .str (P.isoformat e.recordedAt)), ("previous_hash", .ofText e.previousHash)]

/-- The members that a payload has where there is something to say. -/
def optionalMembers (e : EvidencePayload) (review : EvidenceReview)
    (provenance : Option IntegrationProvenance) : List (String × Json) :=
  optional "amount" (e.amount.map fun a => .str (P.floatText a)) ++
  optional "currency" (e.currency.map .str) ++
  optional "resource" (e.resource.map .str) ++
  optional "principal_id" (e.principalId.map fun id => .str (P.uuidText id)) ++
  optional "principal_name" (e.principalName.map .str) ++
  optional "authority_context" e.authorityContext ++
  optional "delegation_chain"
    (e.authorityContext.map fun c => (c.get? "delegations").getD (.arr [])) ++
  optional "evaluated_mandate_ids"
    (if e.mandateIds = [] then none else some (.texts e.mandateIds)) ++
  optional "authority_ids"
    (if e.authorityIds = [] then none else some (.texts (e.authorityIds.map P.uuidText))) ++
  optional "authority_version" (e.authorityVersion.map .str) ++
  optional "policy_version" (e.policyVersion.map fun v => .int v) ++
  optional "policy_bundle_hash" (e.policyBundleHash.map fun h => .str (P.bundleHashText h)) ++
  optional "resolved_by" (e.resolvedBy.map .str) ++
  optional "responsible_party" (e.resolvedBy.map .str) ++
  optional "reviewer" (review.reviewer.map .str) ++
  optional "review_outcome" (review.reviewOutcome.map .str) ++
  optional "enterprise_system_id" (e.enterpriseSystem.map fun s => .str (P.uuidText s.id)) ++
  optional "enterprise_system_name" (e.enterpriseSystem.map fun s => .str s.name) ++
  optional "facts_evaluated"
    (if e.factsEvaluated.isEmpty then none else some (.arr (e.factsEvaluated.map (factJson P)))) ++
  (provenance.map (provenanceMembers P)).getD []

/-- `_build_evidence_payload`. -/
def buildEvidencePayload (e : EvidencePayload) (review : EvidenceReview)
    (provenance : Option IntegrationProvenance) : Json :=
  .obj (requiredMembers P e review ++ optionalMembers P e review provenance)

/-- The payload of `append_generic_evidence_event`: `event_payload` cannot set the members that the
function sets itself. -/
def genericPayload (eventPayload : List (String × Json)) (eventType : String) (decisionId : Uuid)
    (recordedAt : Timestamp) (previousHash : Option String) : Json :=
  .obj (withMember (withMember (withMember (withMember (withMember eventPayload
    "payload_version" (.int 2)) "event_type" (.str eventType))
    "decision_id" (.str (P.uuidText decisionId))) "recorded_at" (.str (P.isoformat recordedAt)))
    "previous_hash" (.ofText previousHash))

/-- The payload of `_append_audit_event`. -/
def auditPayload (agentId : Uuid) (eventType : String) (actor : Option String) (details : Json)
    (recordedAt : Timestamp) : Json :=
  .obj [("event_type", .str eventType), ("agent_id", .str (P.uuidText agentId)),
    ("actor", .str (match actor with
      | none | some "" => "operator"
      | some a => a)),
    ("details", details), ("recorded_at", .str (P.isoformat recordedAt))]

/-- `to_dict`. -/
def capabilityPayload (c : CapabilityTokenPayload) : Json :=
  .obj [("decision_id", .str (P.uuidText c.decisionId)),
    ("organization_id", .str (P.uuidText c.organizationId)), ("principal", .str c.principal),
    ("action", .str c.action), ("resource", .str c.resource), ("constraints", .obj c.constraints),
    ("policy_version", (c.policyVersion.map fun v => Json.int v).getD .null),
    ("fact_hashes", .texts (c.factHashes.insertionSort (· ≤ ·))),
    ("issued_at", .str (P.isoformat c.issuedAt)), ("expires_at", .str (P.isoformat c.expiresAt)),
    ("nonce", .str c.nonce), ("audience", .str c.audience),
    ("integration_identity_id", .ofText (c.integrationIdentityId.map P.uuidText)),
    ("enforcement_binding_id", .ofText (c.enforcementBindingId.map P.uuidText)),
    ("integration_contract_version_id", .ofText (c.integrationContractVersionId.map P.uuidText)),
    ("environment", .ofText c.environment),
    ("external_operation_id", .ofText c.externalOperationId)]

/-! ## Members -/

/-- Looking up a member in a list of members. -/
theorem get?_obj_append (k : String) (xs ys : List (String × Json)) :
    (Json.obj (xs ++ ys)).get? k = ((Json.obj xs).get? k).or ((Json.obj ys).get? k) := by
  simp only [Json.get?, List.find?_append]
  cases xs.find? fun e => e.1 = k <;> rfl

theorem get?_withMember_self (d : List (String × Json)) (k : String) (v : Json) :
    (Json.obj (withMember d k v)).get? k = some v := by
  unfold withMember
  by_cases h : (d.any fun e => e.1 = k) = true
  · rw [if_pos h]
    simp only [Json.get?, List.find?_map]
    obtain ⟨e, he, hk⟩ := List.any_eq_true.1 h
    cases hf : d.find? ((fun e => decide (e.1 = k)) ∘ fun e => if e.1 = k then (k, v) else e) with
    | none =>
      have := List.find?_eq_none.1 hf e he
      simp [of_decide_eq_true hk] at this
    | some e' =>
      have := List.find?_some hf
      by_cases hk' : e'.1 = k
      · simp [hk']
      · simp [hk'] at this
  · have hnone : d.find? (fun e => decide (e.1 = k)) = none := by
      rw [List.find?_eq_none]
      intro e he hk
      exact h (List.any_eq_true.2 ⟨e, he, hk⟩)
    rw [if_neg h]
    simp [Json.get?, List.find?_append, hnone]

theorem get?_withMember_of_ne (d : List (String × Json)) {k k' : String} (v : Json) (h : k' ≠ k) :
    (Json.obj (withMember d k v)).get? k' = (Json.obj d).get? k' := by
  unfold withMember
  split
  · simp only [Json.get?, List.find?_map]
    have : ((fun e : String × Json => decide (e.1 = k')) ∘ fun e => if e.1 = k then (k, v) else e) =
        fun e => decide (e.1 = k') := by
      funext e
      by_cases he : e.1 = k
      · simp [he, Ne.symm h]
      · simp [he]
    rw [this]
    cases hf : d.find? fun e => decide (e.1 = k') with
    | none => rfl
    | some e =>
      have hk : e.1 = k' := by simpa using List.find?_some hf
      simp [hk, h]
  · simp only [Json.get?, List.find?_append]
    cases d.find? fun e => decide (e.1 = k') <;> simp [Ne.symm h]

theorem get?_required {e : EvidencePayload} {review : EvidenceReview}
    {provenance : Option IntegrationProvenance} {k : String} {v : Json}
    (h : (Json.obj (requiredMembers P e review)).get? k = some v) :
    (buildEvidencePayload P e review provenance).get? k = some v := by
  rw [buildEvidencePayload, get?_obj_append, h]
  rfl

/-! ## What the payloads carry -/

theorem buildEvidencePayload_previousHash (e : EvidencePayload) (review : EvidenceReview)
    (provenance : Option IntegrationProvenance) :
    (buildEvidencePayload P e review provenance).get? "previous_hash" =
      some (.ofText e.previousHash) :=
  get?_required P rfl

theorem buildEvidencePayload_decisionId (e : EvidencePayload) (review : EvidenceReview)
    (provenance : Option IntegrationProvenance) :
    (buildEvidencePayload P e review provenance).get? "decision_id" =
      some (.str (P.uuidText e.decisionId)) :=
  get?_required P rfl

theorem genericPayload_previousHash (d : List (String × Json)) (eventType : String)
    (decisionId : Uuid) (recordedAt : Timestamp) (previousHash : Option String) :
    (genericPayload P d eventType decisionId recordedAt previousHash).get? "previous_hash" =
      some (.ofText previousHash) :=
  get?_withMember_self _ _ _

theorem genericPayload_decisionId (d : List (String × Json)) (eventType : String)
    (decisionId : Uuid) (recordedAt : Timestamp) (previousHash : Option String) :
    (genericPayload P d eventType decisionId recordedAt previousHash).get? "decision_id" =
      some (.str (P.uuidText decisionId)) := by
  rw [genericPayload, get?_withMember_of_ne _ _ (by decide), get?_withMember_of_ne _ _ (by decide),
    get?_withMember_self]

end Evidence

end PayReality
