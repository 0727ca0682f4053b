import PayReality.Policy.RuntimePolicy

/-!
# The stored form of a policy

`domain/runtime_policy/schema.py`: `to_dict`, which a row of `runtime_policy_records` stores with what
`approve` and `reject` add to its audit block, and `from_dict`, which reads it back. A value that is not
of the type that its field has is not read.
-/

namespace PayReality

/-- `datetime.isoformat` and `datetime.fromisoformat`. -/
structure DateFormat where
  isoformat : Timestamp → String
  fromisoformat : String → Option Timestamp
  fromisoformat_isoformat : ∀ t, fromisoformat (isoformat t) = some t

def RiskLevel.value : RiskLevel → String
  | .low => "low"
  | .medium => "medium"
  | .high => "high"
  | .critical => "critical"

namespace RuntimePolicySchema

variable (F : DateFormat)

/-! ## Writing -/

def optional : Option String → Json
  | none => .null
  | some s => .str s

/-- `_dt_to_str`. -/
def dtToStr (t : Option Timestamp) : Json := optional (t.map F.isoformat)

def scopeDict (s : Scope) : Json :=
  .obj [("principal", .str s.principal), ("action", .str s.action), ("agent", optional s.agent),
    ("resource", optional s.resource)]

def conditionDict (c : Condition) : Json :=
  .obj [("field", .str c.field), ("operator", .str c.operator.value), ("value", c.value)]

def constraintsDict (c : Constraints) : Json :=
  .obj [("delegated_by", optional c.delegatedBy), ("expires", dtToStr F c.expires),
    ("evidence_required", .bool c.evidenceRequired),
    ("risk_level", optional (c.riskLevel.map RiskLevel.value)),
    ("authority_id", optional c.authorityId), ("mandate_id", optional c.mandateId),
    ("enterprise_system_id", optional c.enterpriseSystemId)]

def metadataDict (m : Metadata) : Json :=
  .obj [("owner", optional m.owner), ("created_by", optional m.createdBy),
    ("tags", .arr (m.tags.map Json.str)), ("source_type", optional m.sourceType),
    ("source_corpus_id", optional m.sourceCorpusId),
    ("source_graph_approval_id", optional m.sourceGraphApprovalId),
    ("source_graph_version", (m.sourceGraphVersion.map Json.int).getD .null),
    ("source_candidate_id", optional m.sourceCandidateId)]

def auditEntries (a : AuditTrail) : List (String × Json) :=
  [("created", dtToStr F a.created), ("modified", dtToStr F a.modified),
    ("approved", dtToStr F a.approved), ("deployed", dtToStr F a.deployed),
    ("modified_by", optional a.modifiedBy), ("approved_by", optional a.approvedBy),
    ("deployed_by", optional a.deployedBy)]

/-- What `approve` and `reject` add to the audit block. -/
def reviewEntries (a : AuditTrail) : List (String × Json) :=
  [("approved_by_user_id", optional a.approvedByUserId), ("rejected", dtToStr F a.rejected),
    ("rejected_by", optional a.rejectedBy), ("rejected_by_user_id", optional a.rejectedByUserId),
    ("rejection_reason", optional a.rejectionReason)]

/-- A policy with an audit block of these entries. -/
def dictWith (p : RuntimePolicy) (audit : List (String × Json)) : Json :=
  .obj [("id", .str p.id), ("name", .str p.name), ("description", optional p.description),
    ("version", .int p.version), ("status", .str p.status.value), ("scope", scopeDict p.scope),
    ("conditions", .obj [("all", .arr (p.conditions.map conditionDict))]),
    ("effect", .str p.effect.value), ("constraints", constraintsDict F p.constraints),
    ("metadata", metadataDict p.metadata), ("audit", .obj audit)]

/-- `to_dict`. -/
def toDict (p : RuntimePolicy) : Json := dictWith F p (auditEntries F p.audit)

/-- `row.content`. -/
def contentDict (p : RuntimePolicy) : Json :=
  dictWith F p (auditEntries F p.audit ++ reviewEntries F p.audit)

/-! ## Reading -/

def text : Json → Option String
  | .str s => some s
  | _ => none

/-- `data.get(key)`, where it is a text or nothing. -/
def getText (data : Json) (key : String) : Option (Option String) :=
  match data.get? key with
  | none | some .null => some none
  | some (.str s) => some (some s)
  | some _ => none

/-- `_dt_from_str`. -/
def dtFromStr (data : Json) (key : String) : Option (Option Timestamp) :=
  match getText data key with
  | none => none
  | some none => some none
  | some (some s) => (F.fromisoformat s).map some

/-- The member of an enumeration with a value. -/
def member {α : Type} (members : List α) (value : α → String) (s : String) : Option α :=
  members.find? fun m => value m = s

def operators : List Operator := [.lte, .gte, .eq, .neq, .lt, .gt, .isIn, .contains, .exist]

def effects : List Effect := [.allow, .deny, .requireHumanReview]

def statuses : List PolicyStatus :=
  [.draft, .pendingReview, .approved, .rejected, .compiled, .active, .retired, .archived]

def riskLevels : List RiskLevel := [.low, .medium, .high, .critical]

def readScope (data : Json) : Option Scope := do
  let principal ← (data.get? "principal").bind text
  let action ← (data.get? "action").bind text
  let agent ← getText data "agent"
  let resource ← getText data "resource"
  return ⟨principal, action, agent, resource⟩

def readCondition (data : Json) : Option Condition := do
  let field ← (data.get? "field").bind text
  let operator ← ((data.get? "operator").bind text).bind (member operators Operator.value)
  let value ← data.get? "value"
  return ⟨field, operator, value⟩

/-- The elements of a list, each read. -/
def readAll {α : Type} (read : Json → Option α) : Option Json → Option (List α)
  | none => some []
  | some (.arr vs) => vs.mapM read
  | some _ => none

/-- `RiskLevel(..)`, where there is one. -/
def readRiskLevel (data : Json) : Option (Option RiskLevel) :=
  match getText data "risk_level" with
  | none => none
  | some none => some none
  | some (some s) => if s = "" then some none else (member riskLevels RiskLevel.value s).map some

def readBool : Option Json → Bool → Option Bool
  | none, otherwise => some otherwise
  | some (.bool b), _ => some b
  | some _, _ => none

def readConstraints (data : Json) : Option Constraints := do
  let delegatedBy ← getText data "delegated_by"
  let expires ← dtFromStr F data "expires"
  let evidenceRequired ← readBool (data.get? "evidence_required") true
  let riskLevel ← readRiskLevel data
  let authorityId ← getText data "authority_id"
  let mandateId ← getText data "mandate_id"
  let enterpriseSystemId ← getText data "enterprise_system_id"
  return { delegatedBy, expires, evidenceRequired, riskLevel, authorityId, mandateId, enterpriseSystemId }

def readInt : Option Json → Option (Option Int)
  | none | some .null => some none
  | some (.int n) => some (some n)
  | some _ => none

def readMetadata (data : Json) : Option Metadata := do
  let owner ← getText data "owner"
  let createdBy ← getText data "created_by"
  let tags ← readAll text (data.get? "tags")
  let sourceType ← getText data "source_type"
  let sourceCorpusId ← getText data "source_corpus_id"
  let sourceGraphApprovalId ← getText data "source_graph_approval_id"
  let sourceGraphVersion ← readInt (data.get? "source_graph_version")
  let sourceCandidateId ← getText data "source_candidate_id"
  return { owner, createdBy, tags, sourceType, sourceCorpusId, sourceGraphApprovalId,
           sourceGraphVersion, sourceCandidateId }

def readAudit (data : Json) : Option AuditTrail := do
  let _ ← data.get? "created"
  let created ← dtFromStr F data "created"
  let modified ← dtFromStr F data "modified"
  let approved ← dtFromStr F data "approved"
  let deployed ← dtFromStr F data "deployed"
  let modifiedBy ← getText data "modified_by"
  let approvedBy ← getText data "approved_by"
  let deployedBy ← getText data "deployed_by"
  return { created, modified, approved, deployed, modifiedBy, approvedBy, deployedBy }

/-- `from_dict`. -/
def fromDict (data : Json) : Option RuntimePolicy := do
  let scope ← (data.get? "scope").bind readScope
  let id ← (data.get? "id").bind text
  let name ← (data.get? "name").bind text
  let description ← getText data "description"
  let version ← (readInt (data.get? "version")).join
  let status ← ((data.get? "status").bind text).bind (member statuses PolicyStatus.value)
  let conditions ← readAll readCondition ((data.get? "conditions").bind fun c => c.get? "all")
  let effect ← ((data.get? "effect").bind text).bind (member effects Effect.value)
  let constraints ← readConstraints F ((data.get? "constraints").getD (.obj []))
  let metadata ← readMetadata ((data.get? "metadata").getD (.obj []))
  let audit ← (data.get? "audit").bind (readAudit F)
  return { id, name, version, status, scope, conditions, effect, description, constraints, metadata,
           audit }

/-! ## What is written is read back -/

section

variable {k l : String} {v : Json} {kvs : List (String × Json)}

@[simp] theorem get?_cons : (Json.obj ((k, v) :: kvs)).get? l =
    if k = l then some v else (Json.obj kvs).get? l := by
  by_cases h : k = l <;> simp [Json.get?, h]

@[simp] theorem get?_nil : (Json.obj []).get? l = none := rfl

@[simp] theorem text_str (s : String) : text (.str s) = some s := rfl

theorem getText_of_get? {d : Json} {x : Option String} (h : d.get? k = some (optional x)) :
    getText d k = some x := by
  cases x <;> simp [getText, h, optional]

theorem dtFromStr_of_get? {d : Json} {t : Option Timestamp}
    (h : d.get? k = some (dtToStr F t)) : dtFromStr F d k = some t := by
  cases t <;> simp [dtFromStr, getText_of_get? h, F.fromisoformat_isoformat]

end

theorem member_operator (o : Operator) : member operators Operator.value o.value = some o := by
  cases o <;> decide

theorem member_effect (e : Effect) : member effects Effect.value e.value = some e := by
  cases e <;> decide

theorem member_status (s : PolicyStatus) : member statuses PolicyStatus.value s.value = some s := by
  cases s <;> decide

theorem readScope_scopeDict (s : Scope) : readScope (scopeDict s) = some s := by
  have hagent := getText_of_get? (k := "agent") (d := scopeDict s) (x := s.agent)
    (by simp [scopeDict])
  have hresource := getText_of_get? (k := "resource") (d := scopeDict s) (x := s.resource)
    (by simp [scopeDict])
  simp [readScope, hagent, hresource]
  simp [scopeDict]

theorem readCondition_conditionDict (c : Condition) : readCondition (conditionDict c) = some c := by
  have hoperator := member_operator c.operator
  simp [readCondition, conditionDict, hoperator]

theorem readAll_map {α : Type} {read : Json → Option α} {write : α → Json}
    (h : ∀ a, read (write a) = some a) (as : List α) :
    readAll read (some (.arr (as.map write))) = some as := by
  show (as.map write).mapM read = some as
  induction as with
  | nil => rfl
  | cons a as ih => simp [h a, ih]

theorem readRiskLevel_of_get? {d : Json} {r : Option RiskLevel}
    (h : d.get? "risk_level" = some (optional (r.map RiskLevel.value))) :
    readRiskLevel d = some r := by
  rw [readRiskLevel, getText_of_get? h]
  cases r with
  | none => rfl
  | some level => cases level <;> decide

theorem readConstraints_constraintsDict (c : Constraints) :
    readConstraints F (constraintsDict F c) = some c := by
  have hget : ∀ k x, (constraintsDict F c).get? k = some (optional x) →
      getText (constraintsDict F c) k = some x := fun k x h => getText_of_get? h
  have hdelegated := hget "delegated_by" c.delegatedBy (by simp [constraintsDict])
  have hexpires := dtFromStr_of_get? F (k := "expires") (d := constraintsDict F c)
    (t := c.expires) (by simp [constraintsDict])
  have hrisk := readRiskLevel_of_get? (d := constraintsDict F c) (r := c.riskLevel)
    (by simp [constraintsDict])
  have hauthority := hget "authority_id" c.authorityId (by simp [constraintsDict])
  have hmandate := hget "mandate_id" c.mandateId (by simp [constraintsDict])
  have hsystem := hget "enterprise_system_id" c.enterpriseSystemId (by simp [constraintsDict])
  simp [readConstraints, hdelegated, hexpires, hrisk, hauthority, hmandate, hsystem]
  simp [constraintsDict, readBool]

theorem readInt_of_get? (n : Option Int) :
    readInt (some ((n.map Json.int).getD .null)) = some n := by
  cases n <;> rfl

theorem readMetadata_metadataDict (m : Metadata) : readMetadata (metadataDict m) = some m := by
  have hget : ∀ k x, (metadataDict m).get? k = some (optional x) →
      getText (metadataDict m) k = some x := fun k x h => getText_of_get? h
  have howner := hget "owner" m.owner (by simp [metadataDict])
  have hcreated := hget "created_by" m.createdBy (by simp [metadataDict])
  have htype := hget "source_type" m.sourceType (by simp [metadataDict])
  have hcorpus := hget "source_corpus_id" m.sourceCorpusId (by simp [metadataDict])
  have happroval := hget "source_graph_approval_id" m.sourceGraphApprovalId (by simp [metadataDict])
  have hcandidate := hget "source_candidate_id" m.sourceCandidateId (by simp [metadataDict])
  have htags := readAll_map text_str m.tags
  simp [readMetadata, howner, hcreated, htype, hcorpus, happroval, hcandidate]
  simp [metadataDict, htags, readInt_of_get?]

/-- The audit block without what `approve` and `reject` add to it. -/
def auditOf (a : AuditTrail) : AuditTrail where
  created := a.created
  modified := a.modified
  modifiedBy := a.modifiedBy
  approved := a.approved
  approvedBy := a.approvedBy
  deployed := a.deployed
  deployedBy := a.deployedBy

theorem readAudit_auditEntries (a : AuditTrail) (more : List (String × Json)) :
    readAudit F (.obj (auditEntries F a ++ more)) = some (auditOf a) := by
  have hdate : ∀ k t, (Json.obj (auditEntries F a ++ more)).get? k = some (dtToStr F t) →
      dtFromStr F (.obj (auditEntries F a ++ more)) k = some t := fun k t h => dtFromStr_of_get? F h
  have hget : ∀ k x, (Json.obj (auditEntries F a ++ more)).get? k = some (optional x) →
      getText (.obj (auditEntries F a ++ more)) k = some x := fun k x h => getText_of_get? h
  have hcreated := hdate "created" a.created (by simp [auditEntries])
  have hmodified := hdate "modified" a.modified (by simp [auditEntries])
  have happroved := hdate "approved" a.approved (by simp [auditEntries])
  have hdeployed := hdate "deployed" a.deployed (by simp [auditEntries])
  have hmodifiedBy := hget "modified_by" a.modifiedBy (by simp [auditEntries])
  have happrovedBy := hget "approved_by" a.approvedBy (by simp [auditEntries])
  have hdeployedBy := hget "deployed_by" a.deployedBy (by simp [auditEntries])
  simp [readAudit, hcreated, hmodified, happroved, hdeployed, hmodifiedBy, happrovedBy, hdeployedBy]
  simp [auditEntries, auditOf]

/-- What `from_dict` reads of a stored policy. -/
def readPolicy (p : RuntimePolicy) : RuntimePolicy := { p with audit := auditOf p.audit }

theorem fromDict_dictWith (p : RuntimePolicy) (more : List (String × Json)) :
    fromDict F (dictWith F p (auditEntries F p.audit ++ more)) = some (readPolicy p) := by
  have hdescription := getText_of_get? (k := "description")
    (d := dictWith F p (auditEntries F p.audit ++ more)) (x := p.description)
    (by simp [dictWith])
  simp [fromDict, hdescription]
  simp [dictWith, readScope_scopeDict, readConstraints_constraintsDict, readMetadata_metadataDict,
    readAudit_auditEntries, member_status, member_effect, readInt, readAll_map,
    readCondition_conditionDict, readPolicy]

/-- **A stored policy is read back.** -/
theorem fromDict_contentDict (p : RuntimePolicy) :
    fromDict F (contentDict F p) = some (readPolicy p) :=
  fromDict_dictWith F p (reviewEntries F p.audit)

/-- A policy that no review has touched is read back as it was written. -/
theorem fromDict_toDict (p : RuntimePolicy) (h : auditOf p.audit = p.audit) :
    fromDict F (toDict F p) = some p := by
  have hread := fromDict_dictWith F p []
  rw [List.append_nil] at hread
  rw [toDict, hread, readPolicy, h]

end RuntimePolicySchema

end PayReality
