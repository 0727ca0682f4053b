import PayReality.Promotion.CompilationGate

/-!
# The tables of the authority graph

What an extraction has discovered, and the principals that a reviewer resolves it to.
-/

namespace PayReality

namespace AuthorityGraph

/-- `authority_corpora`. -/
structure AuthorityCorpus where
  id : Uuid
  organizationId : Option Uuid
  deriving DecidableEq

/-- `authority_principals`. -/
structure AuthorityPrincipal where
  id : Uuid
  corpusId : Uuid
  name : String
  role : Option String
  reportsTo : Option String
  resolvedPrincipalId : Option Uuid
  createdAt : Timestamp
  deriving DecidableEq

/-- `AuthorityRelationship.status`. -/
inductive RelationshipStatus where
  | proposed | active | revoked | expired
  deriving DecidableEq, Repr

/-- `authority_relationships`: the names that the document gives, and the principals that they are
resolved to. -/
structure AuthorityRelationship where
  id : Uuid
  corpusId : Uuid
  fromPrincipal : String
  toPrincipal : String
  fromPrincipalId : Option Uuid
  toPrincipalId : Option Uuid
  status : RelationshipStatus
  deriving DecidableEq

/-- `principals`. -/
structure Principal where
  id : Uuid
  name : String
  role : Option String
  organizationId : Option Uuid
  deriving DecidableEq

/-- A platform that lowers ASCII letters. -/
def asciiPlatform : Platform where
  uuid _ := none
  uuidText := toString
  uuidHex := toString
  isoformat := toString
  lower s := String.ofList (s.toList.map Char.toLower)
  ilike name pattern := name = pattern

end AuthorityGraph

end PayReality
