import PayReality.Compiler.CompilerV2
import PayReality.Store.Rows

/-!
# What the decision path reads

The queries of `runtime_policy_service.py`, `runtime_truth_service.py`,
`authority_context_service.py` and `fact_service.py` that a decision is made from.
-/

namespace PayReality

/-- Texts that the standard library and the database make and compare. -/
structure Platform where
  /-- `uuid.UUID(s)`; `none` where it raises `ValueError`. -/
  uuid : String → Option Uuid
  /-- `str` of an id. -/
  uuidText : Uuid → String
  /-- The `hex` of an id. -/
  uuidHex : Uuid → String
  /-- `to_utc_iso`. -/
  isoformat : Timestamp → String
  /-- `str.lower`. -/
  lower : String → String
  /-- SQL `name ILIKE pattern`. -/
  ilike : String → String → Bool

namespace Db

variable (db : Db) (P : Platform)

/-! ## Active policies -/

/-- The rest of a field name after `enterprise_knowledge.`. -/
def enterpriseKnowledgeKey (field : String) : Option String :=
  (Text.afterPrefix RegoGenerator.enterpriseKnowledgeFieldPrefix.toList field.toList).map String.ofList

/-- `list_enterprise_knowledge_keys_for_active_policies`. -/
def listEnterpriseKnowledgeKeys (organizationId : Option Uuid) : List String :=
  (((db.listLatestPolicies organizationId .active).flatMap fun r =>
    r.content.conditions.filterMap fun c => enterpriseKnowledgeKey c.field).dedup).insertionSort
      (· ≤ ·)

/-- `list_active_scope_actions`. -/
def listActiveScopeActions (organizationId : Option Uuid) : List String :=
  ((db.listLatestPolicies organizationId .active).map fun r => r.content.scope.action).filter
    (· ≠ "")

/-- `is_recognized_scope`. -/
def isRecognizedScope (action : String) (activeScopeActions : List String) : Bool :=
  action ∈ CompilerV2.knownScopes || action ∈ activeScopeActions

/-! ## The policies that matched

`evaluated_mandates` lists texts; the ones that are keys of active policies are looked up. -/

/-- The active version that a text is the key of. -/
def matchedPolicy (key : String) : Option RuntimePolicyRecord := (P.uuid key).bind db.activeOfKey

/-- `resolve_mandate_ids`. -/
def resolveMandateIds (keys : List String) : List String :=
  (keys.filterMap fun key => (db.matchedPolicy P key).bind fun r =>
    r.content.constraints.mandateId.filter (· ≠ "")).foldl
      (fun ids m => if m ∈ ids then ids else ids ++ [m]) []

/-- `resolve_enterprise_system`. -/
def resolveEnterpriseSystem (keys : List String) : Option EnterpriseSystem :=
  keys.findSome? fun key => (db.matchedPolicy P key).bind fun r =>
    ((r.content.constraints.enterpriseSystemId.filter (· ≠ "")).bind P.uuid).bind db.enterpriseSystem

def highRisk : Option RiskLevel → Bool
  | some .high | some .critical => true
  | _ => false

/-- A row whose authority has expired while its risk is high or critical. -/
def expiredHighRisk (now : Timestamp) (r : RuntimePolicyRecord) : Bool :=
  r.authorityExpiresAt.any (· < now) && highRisk r.content.constraints.riskLevel

/-- `find_expired_high_risk_authority`. -/
def findExpiredHighRiskAuthority (keys : List String) (now : Timestamp) :
    Option RuntimePolicyRecord :=
  keys.findSome? fun key => (db.matchedPolicy P key).filter (expiredHighRisk now)

/-- `_RISK_LEVEL_ORDER`. -/
def riskLevelOrder : RiskLevel → ℕ
  | .low => 0
  | .medium => 1
  | .high => 2
  | .critical => 3

/-- `highest_declared_risk_level`. -/
def highestDeclaredRiskLevel (keys : List String) : Option RiskLevel :=
  (keys.filterMap fun key => (db.matchedPolicy P key).bind fun r =>
    r.content.constraints.riskLevel).argmax riskLevelOrder

theorem findExpiredHighRiskAuthority_none {keys : List String} {now : Timestamp}
    (h : db.findExpiredHighRiskAuthority P keys now = none) {key : String} (hk : key ∈ keys)
    {r : RuntimePolicyRecord} (hr : db.matchedPolicy P key = some r) :
    expiredHighRisk now r = false := by
  have := List.findSome?_eq_none_iff.1 h key hk
  simpa [hr, Option.filter_eq_none_iff] using this

/-! ## Runtime truth -/

/-- `classify_risk`. -/
def classifyRisk : Option ℚ → String
  | none => "LOW"
  | some amount =>
    if 250000 ≤ amount then "CRITICAL"
    else if 100000 ≤ amount then "HIGH"
    else if 50000 ≤ amount then "MEDIUM"
    else "LOW"

/-- `_name_or_none`. -/
def nameOrNone (units : List OrganizationUnit) (id : Option Uuid) : Json :=
  .ofText (id.bind fun i => (units.find? fun u => u.id = i).map OrganizationUnit.name)

/-- Whether a delegation to the principal counts now. -/
def delegates (principal : Principal) (now : Timestamp) (r : AuthorityRelationship) : Bool :=
  r.toPrincipalId = some principal.id && r.kind = .delegation && r.status = .active &&
  r.validFrom.all (· ≤ now) && r.validTo.all (now ≤ ·) &&
  (r.crossOrgApproved || (r.fromPrincipalId.bind db.principal).all fun p =>
    p.organizationId = principal.organizationId)

/-- `_active_inbound_delegations`. -/
def activeInboundDelegations (principal : Principal) (now : Timestamp) : List Json :=
  (db.relationships.filter (db.delegates principal now)).map fun r =>
    .obj [("id", .str (P.uuidText r.id)),
      ("from_principal_id", .ofText (r.fromPrincipalId.map P.uuidText)),
      ("resource_id", .ofText (r.resourceId.map P.uuidText)),
      ("operation", .ofText r.operation)]

/-- `resolve_runtime_authority_context`. -/
def resolveRuntimeAuthorityContext (principal : Option Principal) (amount : Option ℚ)
    (now : Timestamp) : Json :=
  match principal with
  | none => .obj [("risk_level", .str (classifyRisk amount)), ("delegations", .arr []),
      ("delegation_count", .int 0)]
  | some p =>
    let delegations := db.activeInboundDelegations P p now
    .obj [("organization", .ofText ((p.organizationId.bind db.organization).map Organization.name)),
      ("business_unit", nameOrNone db.businessUnits p.businessUnitId),
      ("department", nameOrNone db.departments p.departmentId),
      ("team", nameOrNone db.teams p.teamId),
      ("role", .ofText p.role),
      ("risk_level", .str (classifyRisk amount)),
      ("delegations", .arr delegations),
      ("delegation_count", .int delegations.length)]

/-- `runtime_truth_service.resolve`: the name that policies are scoped to. -/
def principalName (agent : Agent) : String :=
  match db.principal agent.actingForPrincipalId with
  | some p => p.name
  | none => P.uuidText agent.actingForPrincipalId

/-! ## Facts -/

/-- The facts that are trusted now for a subject and a key. -/
def trustedFacts (organizationId : Uuid) (subject : Option String) (key : String)
    (now : Timestamp) : List EnterpriseFact :=
  db.facts.filter fun f => f.organizationId = organizationId ∧ f.subject = subject ∧ f.key = key ∧
    now < f.expiresAt ∧ db.factSources.any fun s => s.id = f.sourceId ∧ s.status = .active

/-- `resolve_facts`, for one subject and several keys. -/
def resolveFacts (organizationId : Uuid) (subject : Option String) (now : Timestamp) :
    List String → Except PyError (List EnterpriseFact)
  | [] => .ok []
  | key :: keys =>
    match db.trustedFacts organizationId subject key now with
    | [] => resolveFacts organizationId subject now keys
    | f :: fs =>
      if fs.all fun g => g.value.stableRepr = f.value.stableRepr then do
        return f :: (← resolveFacts organizationId subject now keys)
      else .error .factConflict

end Db

end PayReality
