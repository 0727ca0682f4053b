import PayReality.Canonical
import PayReality.Lib.Numeral
import PayReality.Policy.Schema
import PayReality.Simulation.Explainer

/-!
# A policy and its stored row

`to_dict` and `from_dict` of `domain/runtime_policy/schema.py`, on the dataclass as it is declared: the
audit trail may be missing, and a `datetime` is a value of any type with a text. What is read has the
types of the dataclass.

**Main result** `fromDict_toDict_stored`: through an encoding and a decoding as JSON every policy is
read back as it was. If the decoding keeps the order of the members of dicts, the two are one value;
if it does not, as in a `JSONB` column, they differ at most in that order inside the values of
conditions.
-/

namespace PayReality

/-- `isoformat` and `fromisoformat` of a `datetime`. -/
structure DatetimeFormat (D : Type) where
  isoformat : D → String
  fromisoformat : String → Option D
  fromisoformat_isoformat : ∀ t, fromisoformat (isoformat t) = some t

namespace StoredPolicy

variable {D : Type}

/-! ## The dataclasses -/

/-- `Constraints`. -/
structure Constraints (D : Type) where
  delegatedBy : Option String := none
  expires : Option D := none
  evidenceRequired : Bool := true
  riskLevel : Option RiskLevel := none
  authorityId : Option String := none
  mandateId : Option String := none
  enterpriseSystemId : Option String := none

/-- `AuditTrail`. -/
structure AuditTrail (D : Type) where
  created : D
  modified : Option D := none
  approved : Option D := none
  deployed : Option D := none
  modifiedBy : Option String := none
  approvedBy : Option String := none
  deployedBy : Option String := none

/-- `RuntimePolicy`. -/
structure RuntimePolicy (D : Type) where
  id : String
  name : String
  version : Int
  status : PolicyStatus
  scope : Scope
  conditions : List Condition
  effect : Effect
  description : Option String := none
  constraints : Constraints D := {}
  metadata : Metadata := {}
  audit : Option (AuditTrail D) := none

open RuntimePolicySchema hiding toDict fromDict constraintsDict dtToStr dtFromStr readConstraints
  readAudit

variable (F : DatetimeFormat D)

/-! ## `to_dict` -/

/-- `_dt_to_str`. -/
def dtToStr (t : Option D) : Json := optional (t.map F.isoformat)

def constraintsDict (c : Constraints D) : Json :=
  .obj [("delegated_by", optional c.delegatedBy), ("expires", dtToStr F c.expires),
    ("evidence_required", .bool c.evidenceRequired),
    ("risk_level", optional (c.riskLevel.map RiskLevel.value)),
    ("authority_id", optional c.authorityId), ("mandate_id", optional c.mandateId),
    ("enterprise_system_id", optional c.enterpriseSystemId)]

def auditDict (a : AuditTrail D) : Json :=
  .obj [("created", .str (F.isoformat a.created)), ("modified", dtToStr F a.modified),
    ("approved", dtToStr F a.approved), ("deployed", dtToStr F a.deployed),
    ("modified_by", optional a.modifiedBy), ("approved_by", optional a.approvedBy),
    ("deployed_by", optional a.deployedBy)]

def conditionsDict (cs : List Condition) : Json := .obj [("all", .arr (cs.map conditionDict))]

/-- `to_dict`. -/
def toDict (p : RuntimePolicy D) : Json :=
  .obj [("id", .str p.id), ("name", .str p.name), ("description", optional p.description),
    ("version", .int p.version), ("status", .str p.status.value), ("scope", scopeDict p.scope),
    ("conditions", conditionsDict p.conditions), ("effect", .str p.effect.value),
    ("constraints", constraintsDict F p.constraints), ("metadata", metadataDict p.metadata),
    ("audit", (p.audit.map (auditDict F)).getD .null)]

/-! ## `from_dict` -/

/-- `data.get(k) or default`, which has to be a dict. -/
def dictOr (data : Json) (k : String) (default : Json) : Option Json :=
  match data.get? k with
  | none => some default
  | some v =>
    match v with
    | .obj kvs => some (if kvs.isEmpty then default else .obj kvs)
    | v => if v.truthy then none else some default

/-- `_dt_from_str`, of a member. -/
def dtFromStr (data : Json) (k : String) : Option (Option D) :=
  match getText data k with
  | none => none
  | some none => some none
  | some (some s) => (F.fromisoformat s).map some

def readConstraints (data : Json) : Option (Constraints D) := do
  let delegatedBy ← getText data "delegated_by"
  let expires ← dtFromStr F data "expires"
  let evidenceRequired ← readBool (data.get? "evidence_required") true
  let riskLevel ← readRiskLevel data
  let authorityId ← getText data "authority_id"
  let mandateId ← getText data "mandate_id"
  let enterpriseSystemId ← getText data "enterprise_system_id"
  return { delegatedBy, expires, evidenceRequired, riskLevel, authorityId, mandateId, enterpriseSystemId }

def readAudit (data : Json) : Option (AuditTrail D) := do
  let created ← ((data.get? "created").bind text).bind F.fromisoformat
  let modified ← dtFromStr F data "modified"
  let approved ← dtFromStr F data "approved"
  let deployed ← dtFromStr F data "deployed"
  let modifiedBy ← getText data "modified_by"
  let approvedBy ← getText data "approved_by"
  let deployedBy ← getText data "deployed_by"
  return { created, modified, approved, deployed, modifiedBy, approvedBy, deployedBy }

/-- The audit trail, where `data["audit"]` is not `None`. -/
def readAuditOr : Option Json → Option (Option (AuditTrail D))
  | none | some .null => some none
  | some v => (readAudit F v).map some

/-- `from_dict`. -/
def fromDict (data : Json) : Option (RuntimePolicy D) := do
  let scopeData ← data.get? "scope"
  let conditionsData ← dictOr data "conditions" (.obj [("all", .arr [])])
  let constraintsData ← dictOr data "constraints" (.obj [])
  let metadataData ← dictOr data "metadata" (.obj [])
  let id ← (data.get? "id").bind text
  let name ← (data.get? "name").bind text
  let description ← getText data "description"
  let version ← (readInt (data.get? "version")).join
  let status ← ((data.get? "status").bind text).bind (member statuses PolicyStatus.value)
  let scope ← readScope scopeData
  let conditions ← readAll readCondition (conditionsData.get? "all")
  let effect ← ((data.get? "effect").bind text).bind (member effects Effect.value)
  let constraints ← readConstraints F constraintsData
  let metadata ← readMetadata metadataData
  let audit ← readAuditOr F (data.get? "audit")
  return { id, name, version, status, scope, conditions, effect, description, constraints, metadata,
           audit }

/-! ## The policies of the lifecycle

The rows of the lifecycle have an instant for a `datetime`, and every one has an audit trail. -/

/-- A policy of the lifecycle that was created at some time, as the dataclass. -/
def ofStored (p : PayReality.RuntimePolicy) (created : Timestamp) : RuntimePolicy Timestamp where
  id := p.id
  name := p.name
  version := p.version
  status := p.status
  scope := p.scope
  conditions := p.conditions
  effect := p.effect
  description := p.description
  constraints := {
    delegatedBy := p.constraints.delegatedBy, expires := p.constraints.expires
    evidenceRequired := p.constraints.evidenceRequired, riskLevel := p.constraints.riskLevel
    authorityId := p.constraints.authorityId, mandateId := p.constraints.mandateId
    enterpriseSystemId := p.constraints.enterpriseSystemId }
  metadata := p.metadata
  audit := some {
    created, modified := p.audit.modified, approved := p.audit.approved, deployed := p.audit.deployed
    modifiedBy := p.audit.modifiedBy, approvedBy := p.audit.approvedBy
    deployedBy := p.audit.deployedBy }

theorem toDict_ofStored (F : DateFormat) {p : PayReality.RuntimePolicy} {created : Timestamp}
    (h : p.audit.created = some created) :
    toDict ⟨F.isoformat, F.fromisoformat, F.fromisoformat_isoformat⟩ (ofStored p created) =
      RuntimePolicySchema.toDict F p := by
  have hcreated : RuntimePolicySchema.dtToStr F p.audit.created = .str (F.isoformat created) := by
    rw [h]
    rfl
  rw [RuntimePolicySchema.toDict, RuntimePolicySchema.auditEntries, hcreated]
  rfl

/-! ## Reading what has the text of what was written -/

section

variable {F} {w : Json}

@[simp]
theorem rigid_optional (o : Option String) : (RuntimePolicySchema.optional o).Rigid := by
  cases o <;> exact Json.rigid_scalar rfl

theorem readScope_of_text {s : Scope} (h : w.stableRepr = (scopeDict s).stableRepr) :
    readScope w = some s := by
  have hget : ∀ k, w.get? k = (scopeDict s).get? k := by
    refine Json.get?_eq_of_rigid ?_ h
    simp
  have hread : readScope w = readScope (scopeDict s) := by
    simp only [readScope, getText, hget]
  rw [hread, readScope_scopeDict]

theorem readMetadata_of_text {m : Metadata} (h : w.stableRepr = (metadataDict m).stableRepr) :
    readMetadata w = some m := by
  have hversion : ((m.sourceGraphVersion.map Json.int).getD .null).Rigid := by
    cases m.sourceGraphVersion <;> exact Json.rigid_scalar rfl
  have hget : ∀ k, w.get? k = (metadataDict m).get? k := by
    refine Json.get?_eq_of_rigid ?_ h
    simp [Json.rigid_texts, hversion]
  have hread : readMetadata w = readMetadata (metadataDict m) := by
    simp only [readMetadata, getText, hget]
  rw [hread, readMetadata_metadataDict]

theorem dtFromStr_of_get? {k : String} {t : Option D} (h : w.get? k = some (dtToStr F t)) :
    dtFromStr F w k = some t := by
  cases t <;> simp [dtFromStr, getText_of_get? h, F.fromisoformat_isoformat]

theorem readConstraints_of_text {c : Constraints D}
    (h : w.stableRepr = (constraintsDict F c).stableRepr) : readConstraints F w = some c := by
  have hget : ∀ k, w.get? k = (constraintsDict F c).get? k := by
    refine Json.get?_eq_of_rigid ?_ h
    simp [dtToStr]
  have htext : ∀ k x, (constraintsDict F c).get? k = some (RuntimePolicySchema.optional x) →
      getText w k = some x := by
    intro k x hk
    rw [← hget] at hk
    exact getText_of_get? hk
  have hdelegated := htext "delegated_by" c.delegatedBy (by simp [constraintsDict])
  have hexpires : dtFromStr F w "expires" = some c.expires :=
    dtFromStr_of_get? (by simp [hget, constraintsDict])
  have hevidence : readBool (w.get? "evidence_required") true = some c.evidenceRequired := by
    simp [hget, constraintsDict, readBool]
  have hrisk : readRiskLevel w = some c.riskLevel :=
    readRiskLevel_of_get? (by simp [hget, constraintsDict])
  have hauthority := htext "authority_id" c.authorityId (by simp [constraintsDict])
  have hmandate := htext "mandate_id" c.mandateId (by simp [constraintsDict])
  have hsystem := htext "enterprise_system_id" c.enterpriseSystemId (by simp [constraintsDict])
  simp [readConstraints, hdelegated, hexpires, hevidence, hrisk, hauthority, hmandate, hsystem]

theorem readAudit_of_text {a : AuditTrail D} (h : w.stableRepr = (auditDict F a).stableRepr) :
    readAudit F w = some a := by
  have hget : ∀ k, w.get? k = (auditDict F a).get? k := by
    refine Json.get?_eq_of_rigid ?_ h
    simp [dtToStr]
  have htext : ∀ k x, (auditDict F a).get? k = some (RuntimePolicySchema.optional x) →
      getText w k = some x := by
    intro k x hk
    rw [← hget] at hk
    exact getText_of_get? hk
  have hdate : ∀ k t, (auditDict F a).get? k = some (dtToStr F t) → dtFromStr F w k = some t := by
    intro k t hk
    rw [← hget] at hk
    exact dtFromStr_of_get? hk
  have hcreated : w.get? "created" = some (.str (F.isoformat a.created)) := by
    simp [hget, auditDict]
  have hmodified := hdate "modified" a.modified (by simp [auditDict])
  have happroved := hdate "approved" a.approved (by simp [auditDict])
  have hdeployed := hdate "deployed" a.deployed (by simp [auditDict])
  have hmodifiedBy := htext "modified_by" a.modifiedBy (by simp [auditDict])
  have happrovedBy := htext "approved_by" a.approvedBy (by simp [auditDict])
  have hdeployedBy := htext "deployed_by" a.deployedBy (by simp [auditDict])
  simp [readAudit, hcreated, hmodified, happroved, hdeployed, hmodifiedBy, happrovedBy, hdeployedBy,
    F.fromisoformat_isoformat]

theorem readAuditOr_of_text {a : Option (AuditTrail D)}
    (h : w.stableRepr = ((a.map (auditDict F)).getD .null).stableRepr) :
    readAuditOr F (some w) = some a := by
  cases a with
  | none =>
    have : w = .null := Json.rigid_scalar rfl w h
    rw [this]
    rfl
  | some a =>
    have hread := readAudit_of_text h
    cases w with
    | null => simp [auditDict, Json.stableRepr, Json.token_mk_inj] at h
    | _ => simp [readAuditOr, hread]

/-- A member with the text of a dict that is not empty is taken as it is. -/
theorem dictOr_of_text {x y v default : Json} {k l : String} (hx : w.get? k = some x)
    (h : x.stableRepr = y.stableRepr) (hy : y.get? l = some v) : dictOr w k default = some x := by
  obtain ⟨u, hu, -⟩ := Json.get?_of_stableRepr h hy
  cases x with
  | obj kvs =>
    cases kvs with
    | nil => simp at hu
    | cons e kvs => simp [dictOr, hx]
  | _ => cases hu

/-! ## Conditions -/

/-- Two conditions are equal, up to the order of the members of dicts in the value. -/
structure SameCondition (c d : Condition) : Prop where
  field : c.field = d.field
  operator : c.operator = d.operator
  value : c.value.stableRepr = d.value.stableRepr

/-- Equal to Python and to Rego. -/
theorem SameCondition.key {c d : Condition} (h : SameCondition c d) (py : Bool) :
    c.value.key py = d.value.key py :=
  Json.key_of_stableRepr py _ _ h.value

theorem readCondition_of_text {c : Condition} (h : w.stableRepr = (conditionDict c).stableRepr) :
    ∃ d, readCondition w = some d ∧ SameCondition d c := by
  have hfield := Json.get?_scalar h "field" rfl rfl
  have hoperator := Json.get?_scalar h "operator" rfl rfl
  obtain ⟨u, hu, htext⟩ : ∃ u, w.get? "value" = some u ∧ u.stableRepr = c.value.stableRepr :=
    Json.get?_of_stableRepr h rfl
  have hmember := member_operator c.operator
  refine ⟨⟨c.field, c.operator, u⟩, ?_, rfl, rfl, htext⟩
  simp [readCondition, hfield, hoperator, hu, hmember]

theorem readAll_of_text {vs : List Json} {cs : List Condition}
    (h : vs.map Json.stableRepr = (cs.map conditionDict).map Json.stableRepr) :
    ∃ ds, readAll readCondition (some (.arr vs)) = some ds ∧ List.Forall₂ SameCondition ds cs := by
  show ∃ ds, vs.mapM readCondition = some ds ∧ _
  induction cs generalizing vs with
  | nil =>
    obtain rfl : vs = [] := by simpa using h
    exact ⟨[], rfl, .nil⟩
  | cons c cs ih =>
    cases vs with
    | nil => simp at h
    | cons v vs =>
      simp only [List.map_cons, List.cons.injEq] at h
      obtain ⟨d, hd, hsame⟩ := readCondition_of_text h.1
      obtain ⟨ds, hds, hall⟩ := ih h.2
      exact ⟨d :: ds, by simp [hd, hds], .cons hsame hall⟩

theorem readConditions_of_text {cs : List Condition}
    (h : w.stableRepr = (conditionsDict cs).stableRepr) :
    ∃ ds, readAll readCondition (w.get? "all") = some ds ∧ List.Forall₂ SameCondition ds cs := by
  obtain ⟨a, ha, htext⟩ : ∃ a, w.get? "all" = some a ∧
      a.stableRepr = (Json.arr (cs.map conditionDict)).stableRepr := Json.get?_of_stableRepr h rfl
  rw [ha]
  cases a with
  | arr vs => exact readAll_of_text (Json.elements_of_stableRepr htext)
  | _ => simp [Json.stableRepr, Json.token_mk_inj] at htext

/-! ## Policies -/

/-- Two policies are equal, up to the order of the members of dicts in the values of conditions. -/
structure RuntimePolicy.Same (q p : RuntimePolicy D) : Prop where
  conditions : List.Forall₂ SameCondition q.conditions p.conditions
  rest : q = { p with conditions := q.conditions }

/-- All but the conditions is read back from the text. -/
theorem fromDict_of_text {p : RuntimePolicy D} {cs : List Condition}
    (h : w.stableRepr = (toDict F p).stableRepr)
    (hconditions : ∀ x, w.get? "conditions" = some x →
      readAll readCondition (x.get? "all") = some cs) :
    fromDict F w = some { p with conditions := cs } := by
  have hid := Json.get?_scalar h "id" rfl rfl
  have hname := Json.get?_scalar h "name" rfl rfl
  have hversion := Json.get?_scalar h "version" rfl rfl
  have hstatus := Json.get?_scalar h "status" rfl rfl
  have heffect := Json.get?_scalar h "effect" rfl rfl
  have hdescription : getText w "description" = some p.description :=
    getText_of_get? (Json.get?_rigid h "description" rfl (rigid_optional _))
  obtain ⟨s, hs, hscope⟩ : ∃ s, w.get? "scope" = some s ∧
      s.stableRepr = (scopeDict p.scope).stableRepr := Json.get?_of_stableRepr h rfl
  obtain ⟨x, hx, hxtext⟩ : ∃ x, w.get? "conditions" = some x ∧
      x.stableRepr = (conditionsDict p.conditions).stableRepr := Json.get?_of_stableRepr h rfl
  obtain ⟨c, hc, hctext⟩ : ∃ c, w.get? "constraints" = some c ∧
      c.stableRepr = (constraintsDict F p.constraints).stableRepr := Json.get?_of_stableRepr h rfl
  obtain ⟨m, hm, hmtext⟩ : ∃ m, w.get? "metadata" = some m ∧
      m.stableRepr = (metadataDict p.metadata).stableRepr := Json.get?_of_stableRepr h rfl
  obtain ⟨a, ha, hatext⟩ : ∃ a, w.get? "audit" = some a ∧
      a.stableRepr = ((p.audit.map (auditDict F)).getD .null).stableRepr :=
    Json.get?_of_stableRepr h rfl
  have hconditionsOr : dictOr w "conditions" (.obj [("all", .arr [])]) = some x :=
    dictOr_of_text (l := "all") hx hxtext rfl
  have hconstraintsOr : dictOr w "constraints" (.obj []) = some c :=
    dictOr_of_text (l := "delegated_by") hc hctext rfl
  have hmetadataOr : dictOr w "metadata" (.obj []) = some m :=
    dictOr_of_text (l := "owner") hm hmtext rfl
  simp [fromDict, hid, hname, hversion, hstatus, heffect, hdescription, hs, ha, hconditionsOr,
    hconstraintsOr, hmetadataOr, hconditions x hx, readScope_of_text hscope,
    readConstraints_of_text hctext, readMetadata_of_text hmtext, readAuditOr_of_text hatext,
    member_status, member_effect, readInt]

end

/-- **A policy is read back from its stored row.** -/
theorem fromDict_toDict_stored (F : DatetimeFormat D) (dumps : Json → String)
    (loads : String → Option Json) (p : RuntimePolicy D)
    (hjson : (loads (dumps (toDict F p))).map Json.stableRepr = some (toDict F p).stableRepr) :
    ∃ w q, loads (dumps (toDict F p)) = some w ∧ fromDict F w = some q ∧ q.Same p ∧
      (w = toDict F p → q = p) := by
  obtain ⟨w, hw, htext⟩ := Option.map_eq_some_iff.1 hjson
  by_cases hexact : w = toDict F p
  · refine ⟨w, p, hw, ?_, ⟨?_, rfl⟩, fun _ => rfl⟩
    · refine fromDict_of_text htext ?_
      intro x hx
      rw [hexact] at hx
      obtain rfl : conditionsDict p.conditions = x := Option.some.inj hx
      exact readAll_map readCondition_conditionDict p.conditions
    · exact List.forall₂_same.2 fun c _ => ⟨rfl, rfl, rfl⟩
  · obtain ⟨x, hx, hxtext⟩ : ∃ x, w.get? "conditions" = some x ∧
        x.stableRepr = (conditionsDict p.conditions).stableRepr := Json.get?_of_stableRepr htext rfl
    obtain ⟨ds, hds, hsame⟩ := readConditions_of_text hxtext
    refine ⟨w, { p with conditions := ds }, hw, ?_, ⟨hsame, rfl⟩, fun h => absurd h hexact⟩
    refine fromDict_of_text htext ?_
    intro y hy
    obtain rfl : x = y := Option.some.inj (hx.symm.trans hy)
    exact hds

/-! ### A column of texts

Rows are written as JSON, and read as a `JSONB` column returns them: the members of a dict are ordered by
the length of their names. -/

section

def quoteMark : Char := Char.ofNat 34

def backslash : Char := Char.ofNat 92

def openBrace : Char := Char.ofNat 123

def closeBrace : Char := Char.ofNat 125

def quoted (s : String) : List Char :=
  quoteMark :: (s.toList.flatMap fun c => if c = quoteMark ∨ c = backslash then [backslash, c] else [c]) ++
    [quoteMark]

/-- The digits behind the point of `r / den`, at most `n` of them. -/
def decimals (den : ℕ) : ℕ → ℕ → List Char
  | 0, _ => []
  | n + 1, r => Nat.digitChar (r * 10 / den) :: if r * 10 % den = 0 then [] else decimals den n (r * 10 % den)

mutual

def jsonText : Json → List Char
  | .null => "null".toList
  | .bool b => (if b then "true" else "false").toList
  | .int i => (if i < 0 then ['-'] else []) ++ Nat.toDigits 10 i.natAbs
  | .float q => (if q < 0 then ['-'] else []) ++ Nat.toDigits 10 (q.num.natAbs / q.den) ++
      '.' :: decimals q.den 20 (q.num.natAbs % q.den)
  | .str s => quoted s
  | .arr [] => "[]".toList
  | .arr (x :: xs) => '[' :: jsonText x ++ elementsText xs
  | .obj [] => [openBrace, closeBrace]
  | .obj ((k, v) :: kvs) => openBrace :: quoted k ++ ':' :: jsonText v ++ membersText kvs

def elementsText : List Json → List Char
  | [] => [']']
  | x :: xs => ',' :: jsonText x ++ elementsText xs

def membersText : List (String × Json) → List Char
  | [] => [closeBrace]
  | (k, v) :: kvs => ',' :: quoted k ++ ':' :: jsonText v ++ membersText kvs

end

def readText : List Char → Option (List Char × List Char)
  | [] => none
  | c :: cs =>
    if c = quoteMark then some ([], cs)
    else if c = backslash then
      match cs with
      | [] => none
      | d :: cs => (readText cs).map fun e => (d :: e.1, e.2)
    else (readText cs).map fun e => (c :: e.1, e.2)

def isNumberChar (c : Char) : Bool := c.isDigit || ['-', '+', '.', 'e', 'E'].contains c

def readNumber (cs : List Char) : Option (Json × List Char) :=
  let number := cs.takeWhile isNumberChar
  let rest := cs.dropWhile isNumberChar
  match Numeral.integer number with
  | some i => some (.int i, rest)
  | none => (Numeral.value number).map fun q => (.float q, rest)

/-- The order of the members in a `JSONB` column. -/
def insertMember (e : String × Json) (kvs : List (String × Json)) : List (String × Json) :=
  kvs.orderedInsert (fun a b => a.1.length < b.1.length ∨ a.1.length = b.1.length ∧ a.1 ≤ b.1) e

mutual

def readValue : ℕ → List Char → Option (Json × List Char)
  | 0, _ | _ + 1, [] => none
  | n + 1, c :: cs =>
    if c = quoteMark then (readText cs).map fun e => (.str (.ofList e.1), e.2)
    else if c = '[' then
      if cs.head? = some ']' then some (.arr [], cs.tail)
      else (readElements n cs).map fun e => (.arr e.1, e.2)
    else if c = openBrace then
      if cs.head? = some closeBrace then some (.obj [], cs.tail)
      else (readMembers n cs).map fun e => (.obj e.1, e.2)
    else if c = 'n' then some (.null, cs.drop 3)
    else if c = 't' then some (.bool true, cs.drop 3)
    else if c = 'f' then some (.bool false, cs.drop 4)
    else readNumber (c :: cs)

def readElements : ℕ → List Char → Option (List Json × List Char)
  | 0, _ => none
  | n + 1, cs =>
    match readValue n cs with
    | some (x, ',' :: cs) => (readElements n cs).map fun e => (x :: e.1, e.2)
    | some (x, ']' :: cs) => some ([x], cs)
    | _ => none

def readMembers : ℕ → List Char → Option (List (String × Json) × List Char)
  | 0, _ => none
  | n + 1, cs => do
    let (k, cs) ← readText cs.tail
    let (v, cs) ← readValue n cs.tail
    match cs with
    | [] => none
    | c :: cs =>
      if c = ',' then (readMembers n cs).map fun e => (insertMember (.ofList k, v) e.1, e.2)
      else if c = closeBrace then some ([(.ofList k, v)], cs)
      else none

end

/-- A text that is one value. -/
def readJson (cs : List Char) : Option Json :=
  match readValue cs.length cs with
  | some (v, []) => some v
  | _ => none

def dumps (v : Json) : String := .ofList (jsonText v)

def loads (s : String) : Option Json := readJson s.toList

theorem loads_dumps (v : Json) : loads (dumps v) = readJson (jsonText v) := by
  rw [loads, dumps, String.toList_ofList]

end

/-- A `datetime` is known by its text. -/
def textFormat : DatetimeFormat String := ⟨id, some, fun _ => rfl⟩

def regionalPolicy : RuntimePolicy String where
  id := "p1"
  name := "Regional limit"
  version := 2
  status := .approved
  scope := ⟨"CFO", "vendor_payment", none, some "EMEA"⟩
  conditions := [⟨"amount", .lte, .float (21 / 2)⟩,
    ⟨"region", .eq, .obj [("region", .str "EMEA"), ("code", .int 4)]⟩]
  effect := .allow
  constraints := {
    expires := some "2026-12-31T00:00:00+00:00", evidenceRequired := false, riskLevel := some .high }
  metadata := { tags := ["payments"] }

/-- The members of the region come back in another order than they were authored in. -/
theorem fromDict_toDict_stored_regional :
    ∃ q, (loads (dumps (toDict textFormat regionalPolicy))).bind (fromDict textFormat) = some q ∧
      q.Same regionalPolicy := by
  obtain ⟨w, q, hw, hread, hsame, -⟩ := fromDict_toDict_stored textFormat dumps loads regionalPolicy (by
    rw [loads_dumps]
    decide +kernel)
  exact ⟨q, by rw [hw]; exact hread, hsame⟩

end StoredPolicy

end PayReality
