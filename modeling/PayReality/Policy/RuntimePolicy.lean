import PayReality.Json

/-!
# Runtime policies

The canonical value that every authoring path produces (`domain/runtime_policy`): a scope, a
conjunction of conditions, an effect, and what is declared beside them. Enumerations are
inductive types, so the checks `effect in Effect` and `operator in Operator` cannot fail.

A timestamp is a number of microseconds.
-/

namespace PayReality

/-! ## Conditions and effects -/

/-- `conditions.Operator`. -/
inductive Operator where
  | lte | gte | eq | neq | lt | gt | isIn | contains | exist
  deriving DecidableEq, Repr

/-- `Operator.value`. -/
def Operator.value : Operator → String
  | .lte => "<="
  | .gte => ">="
  | .eq => "=="
  | .neq => "!="
  | .lt => "<"
  | .gt => ">"
  | .isIn => "in"
  | .contains => "contains"
  | .exist => "exists"

/-- One comparison: field, operator, value. -/
structure Condition where
  field : String
  operator : Operator
  value : Json

/-- `effects.Effect`. -/
inductive Effect where
  | allow | deny | requireHumanReview
  deriving DecidableEq, Repr

/-- `Effect.value`. -/
def Effect.value : Effect → String
  | .allow => "allow"
  | .deny => "deny"
  | .requireHumanReview => "require_human_review"

/-! ## The policy -/

/-- `PolicyStatus`, the lifecycle column of a stored version. -/
inductive PolicyStatus where
  | draft | pendingReview | approved | rejected | compiled | active | retired | archived
  deriving DecidableEq, Repr

/-- `PolicyStatus.value`. -/
def PolicyStatus.value : PolicyStatus → String
  | .draft => "draft"
  | .pendingReview => "pending_review"
  | .approved => "approved"
  | .rejected => "rejected"
  | .compiled => "compiled"
  | .active => "active"
  | .retired => "retired"
  | .archived => "archived"

structure Scope where
  principal : String
  action : String
  agent : Option String
  resource : Option String
  deriving DecidableEq, Repr

inductive RiskLevel where
  | low | medium | high | critical
  deriving DecidableEq, Repr

abbrev Timestamp := Int

structure Constraints where
  delegatedBy : Option String := none
  expires : Option Timestamp := none
  evidenceRequired : Bool := true
  riskLevel : Option RiskLevel := none
  authorityId : Option String := none
  mandateId : Option String := none
  enterpriseSystemId : Option String := none
  deriving DecidableEq, Repr

structure Metadata where
  owner : Option String := none
  createdBy : Option String := none
  tags : List String := []
  sourceType : Option String := none
  sourceCorpusId : Option String := none
  sourceGraphApprovalId : Option String := none
  sourceGraphVersion : Option Int := none
  sourceCandidateId : Option String := none
  deriving DecidableEq, Repr

/-- The audit block of a stored policy: `AuditTrail`, and the keys that `approve` and `reject`
add beside it. -/
structure AuditTrail where
  created : Option Timestamp := none
  modified : Option Timestamp := none
  modifiedBy : Option String := none
  approved : Option Timestamp := none
  approvedBy : Option String := none
  approvedByUserId : Option String := none
  rejected : Option Timestamp := none
  rejectedBy : Option String := none
  rejectedByUserId : Option String := none
  rejectionReason : Option String := none
  deployed : Option Timestamp := none
  deployedBy : Option String := none
  deriving DecidableEq, Repr

structure RuntimePolicy where
  id : String
  name : String
  version : Int
  status : PolicyStatus
  scope : Scope
  conditions : List Condition
  effect : Effect
  description : Option String := none
  constraints : Constraints := {}
  metadata : Metadata := {}
  audit : AuditTrail := {}

namespace RuntimePolicy

/-- What a policy says, as reviewed: the part of the stored content that `approve`, `reject`
and `deploy` do not write. -/
def authored (p : RuntimePolicy) : RuntimePolicy :=
  { p with constraints := { p.constraints with mandateId := none }, audit := {} }

/-- The semantic part of a policy. -/
def semantics (p : RuntimePolicy) : Scope × List Condition × Effect :=
  (p.scope, p.conditions, p.effect)

@[simp] theorem authored_authored (p : RuntimePolicy) : p.authored.authored = p.authored := rfl

theorem semantics_authored (p : RuntimePolicy) : p.authored.semantics = p.semantics := rfl

theorem semantics_eq_of_authored_eq {p q : RuntimePolicy} (h : p.authored = q.authored) :
    p.semantics = q.semantics := by
  rw [← semantics_authored p, ← semantics_authored q, h]

end RuntimePolicy

end PayReality
