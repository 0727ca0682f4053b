import PayReality.Python
import PayReality.Store.Queries

/-!
# Whether the authority graph supports a candidate

`domain/authority_graph/compilation_gate.py`: the content of a candidate against the snapshot of the
graph that was approved last.
-/

namespace PayReality

/-- `GraphGateError`. -/
structure GraphGateError where
  code : String
  message : String
  path : Option String
  deriving DecidableEq, Repr

namespace CompilationGate

variable (P : Platform)

/-- `name.strip()`. -/
def stripped (s : String) : String := String.ofList (Text.strip s.toList)

/-- `name.strip() if isinstance(name, str) and name.strip() else None`. -/
def strippedName : Option Json → Option String
  | some (.str s) => if Text.blank s then none else some (stripped s)
  | _ => none

def candidatePrincipalName (content : Json) : Option String :=
  strippedName (content.lookup ["scope", "principal"])

def candidateDelegatedBy (content : Json) : Option String :=
  strippedName (content.lookup ["constraints", "delegated_by"])

/-- The value is a text that names the target, blanks around it and case apart. -/
def isNamed (target : String) : Option Json → Bool
  | some (.str s) => P.lower (stripped s) = target
  | _ => false

/-- The value is one of these texts. -/
def isOneOf (texts : List String) : Option Json → Bool
  | some (.str s) => s ∈ texts
  | _ => false

/-- `snapshot.get(key) or []`. -/
def items (snapshot : Json) (key : String) : List Json :=
  match snapshot.get? key with
  | some (.arr vs) => vs
  | _ => []

def findPrincipalEntry (snapshot : Json) (name : String) : Option Json :=
  (items snapshot "principals").find? fun p => isNamed P (P.lower name) (p.get? "name")

def hasActiveRelationship (snapshot : Json) (fromName toName : String) : Bool :=
  (items snapshot "relationships").any fun r =>
    isOneOf ["delegation", "escalation"] (r.get? "kind") && isOneOf ["active"] (r.get? "status") &&
      isNamed P (P.lower fromName) (r.get? "from_principal") &&
      isNamed P (P.lower toName) (r.get? "to_principal")

/-- `principal_entry.get("resolved_principal_id")`, which is not empty. -/
def isResolved (entry : Json) : Bool :=
  match entry.get? "resolved_principal_id" with
  | some (.str s) => s ≠ ""
  | _ => false

def noApprovedGraph : GraphGateError where
  code := "NO_APPROVED_GRAPH"
  message := "This candidate's corpus has no approved Authority Graph version yet. " ++
    "Approve a graph version before promoting a candidate discovered from it."
  path := some "corpus_id"

def unresolvedConflicts (n : ℕ) : GraphGateError where
  code := "UNRESOLVED_CONFLICTS_IN_APPROVED_GRAPH"
  message := "The approved Authority Graph version has " ++ toString n ++
    " open conflict(s) recorded. Approve a new, conflict-free graph version before " ++
    "graph-derived promotion can proceed."
  path := some "conflicts"

def noPrincipal : GraphGateError where
  code := "UNRESOLVED_PRINCIPAL"
  message := "This candidate names no principal (scope.principal is empty), so it cannot be " ++
    "grounded in the approved Authority Graph."
  path := some "scope.principal"

def unresolvedPrincipal (name : String) : GraphGateError where
  code := "UNRESOLVED_PRINCIPAL"
  message := "\"" ++ name ++ "\" is not resolved to a real Principal in the approved Authority " ++
    "Graph version. Resolve it in Authority Builder, then approve a new graph version."
  path := some "scope.principal"

def unresolvedRelationship (delegatedBy name : String) : GraphGateError where
  code := "UNRESOLVED_OR_INACTIVE_RELATIONSHIP"
  message := "This candidate states authority delegated by \"" ++ delegatedBy ++ "\" to \"" ++ name ++
    "\", but no active delegation or escalation relationship between them exists in the " ++
    "approved Authority Graph version."
  path := some "constraints.delegated_by"

/-- `check_graph_readiness`: the principal that the candidate is about. -/
def checkGraphReadiness (content : Json) (approvalSnapshot : Option Json) :
    Except GraphGateError String := do
  let some snapshot := approvalSnapshot | throw noApprovedGraph
  let conflicts := items snapshot "conflicts"
  if !conflicts.isEmpty then throw (unresolvedConflicts conflicts.length)
  let some name := candidatePrincipalName content | throw noPrincipal
  if (findPrincipalEntry P snapshot name).any isResolved = false then
    throw (unresolvedPrincipal name)
  match candidateDelegatedBy content with
  | some delegatedBy =>
    if hasActiveRelationship P snapshot delegatedBy name then return name
    else throw (unresolvedRelationship delegatedBy name)
  | none => return name

end CompilationGate

end PayReality
