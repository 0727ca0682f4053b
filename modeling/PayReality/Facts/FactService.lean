import PayReality.Lib.Records
import PayReality.Lib.Rows
import PayReality.Store.Queries

/-!
# Sources of facts and their attestations

`fact_service.py`: an organization registers a source with its public key and can revoke it; whoever
presents an attestation that verifies under the key of an active source has a fact stored.

The rows keep what the decision path does not read: whose a source is, its key, and the signature and
nonce of a fact. `FactTables.toDb` is what the decision path reads of them.
-/

namespace PayReality

open Program RecordProg

/-- What the service calls. -/
structure FactHost where
  /-- `str` of an id. -/
  uuidText : Uuid → String
  /-- The instant of a `datetime`, from its `isoformat`. -/
  instantOf : String → Option Timestamp
  /-- `verify_payload`: the payload, the signature, the public key. -/
  verify : Json → String → String → Bool

/-- A `datetime` of a request. -/
structure Moment (H : FactHost) where
  isoformat : String
  instant : Timestamp
  instantOf_isoformat : H.instantOf isoformat = some instant

/-! ## Rows -/

/-- `fact_sources`. -/
structure FactSourceRow where
  id : Uuid
  organizationId : Uuid
  name : String
  publicKey : String
  status : FactSourceStatus := .active
  deriving DecidableEq

/-- `enterprise_facts`. The columns keep the instants; `observedText` and `expiresText` are what was
signed of them. -/
structure EnterpriseFactRow extends EnterpriseFact where
  id : Uuid
  signature : String
  nonce : String
  observedText : String
  expiresText : String

/-- `CanonicalFactAttestation.to_dict`. -/
def canonicalFactAttestation (H : FactHost) (organizationId sourceId : Uuid) (subject : Option String)
    (key : String) (value : Json) (observedAt expiresAt nonce : String) : Json :=
  .obj [("organization_id", .str (H.uuidText organizationId)),
    ("source_id", .str (H.uuidText sourceId)),
    ("subject", .ofText subject),
    ("key", .str key),
    ("value", value),
    ("observed_at", .str observedAt),
    ("expires_at", .str expiresAt),
    ("nonce", .str nonce)]

/-- The attestation that a row was stored for. -/
def EnterpriseFactRow.attestation (H : FactHost) (f : EnterpriseFactRow) : Json :=
  canonicalFactAttestation H f.organizationId f.sourceId f.subject f.key f.value f.observedText
    f.expiresText f.nonce

structure FactTables where
  sources : List FactSourceRow := []
  facts : List EnterpriseFactRow := []

namespace FactTables

variable (t : FactTables)

/-- `db.get(FactSource, id)`. -/
def source (id : Uuid) : Option FactSourceRow := Rows.get (fun s => s.id) t.sources id

/-- The ids, and the nonces of a source, are keys; the source of a fact is there. -/
def admitted : Bool :=
  (t.sources.map fun s => s.id).Nodup && (t.facts.map fun f => f.id).Nodup &&
  (t.facts.map fun f => (f.sourceId, f.nonce)).Nodup &&
  t.facts.all fun f => (t.source f.sourceId).isSome

/-- What decisions are made from. -/
def toDb : Db where
  factSources := t.sources.map fun s => { id := s.id, status := s.status }
  facts := t.facts.map fun f => f.toEnterpriseFact

/-- The source is the organization's. -/
def sourceIs (id organizationId : Uuid) : Bool :=
  (t.source id).any fun s => s.organizationId = organizationId

/-- The source is active and the organization's, the attestation verifies under its key, and the
texts in it are of the instants. -/
def attests (H : FactHost) (f : EnterpriseFactRow) : Bool :=
  (t.source f.sourceId).any fun s =>
    s.organizationId = f.organizationId ∧ s.status = .active ∧
      H.verify (f.attestation H) f.signature s.publicKey = true ∧
      H.instantOf f.observedText = some f.observedAt ∧ H.instantOf f.expiresText = some f.expiresAt

end FactTables

/-! ## Commits -/

inductive FactChange where
  | register (source : FactSourceRow)
  | revoke (id organizationId : Uuid)
  | ingest (fact : EnterpriseFactRow)

namespace FactChange

def apply : FactChange → FactTables → FactTables
  | .register source, t => { t with sources := t.sources ++ [source] }
  | .revoke id _, t =>
    { t with sources := Rows.update (fun s => s.id) t.sources id fun s => { s with status := .revoked } }
  | .ingest fact, t => { t with facts := t.facts ++ [fact] }

def checks (H : FactHost) : FactChange → List (FactTables → Bool)
  | .register _ => []
  | .revoke id organizationId => [fun t => t.sourceIs id organizationId]
  | .ingest fact => [fun t => t.attests H fact]

end FactChange

inductive FactError where
  | factSourceNotFound
  | factSourceRevoked
  | invalidFactSignature
  | factReplay
  | databaseError
  deriving DecidableEq, Repr

def factSchema (H : FactHost) : Schema FactTables FactChange FactError where
  apply := FactChange.apply
  admits := FactTables.admitted
  checks := FactChange.checks H
  refused := .databaseError
  failed := .databaseError

abbrev FactProg := RecordProg FactTables FactChange Uuid FactError

/-! ## The service -/

namespace FactService

def refreshSource (id : Uuid) : FactProg FactSourceRow := do
  let t ← look
  match t.source id with
  | none => throw .databaseError
  | some s => return s

def registerFactSource (organizationId : Uuid) (name publicKey : String) : FactProg FactSourceRow := do
  let id ← draw
  commit (.register { id, organizationId, name, publicKey })
  refreshSource id

def revokeFactSource (organizationId sourceId : Uuid) : FactProg FactSourceRow := do
  let t ← look
  match t.source sourceId with
  | none => throw .factSourceNotFound
  | some source =>
    if source.organizationId ≠ organizationId then throw .factSourceNotFound
    commit (.revoke source.id organizationId)
    refreshSource source.id

/-- Whatever the insertion fails with is a replay. -/
def ingestFact (H : FactHost) (organizationId sourceId : Uuid) (subject : Option String) (key : String)
    (value : Json) (observedAt expiresAt : Moment H) (nonce signature : String) :
    FactProg EnterpriseFactRow := do
  let t ← look
  match t.source sourceId with
  | none => throw .factSourceNotFound
  | some source =>
    if source.organizationId ≠ organizationId then throw .factSourceNotFound
    if source.status ≠ .active then throw .factSourceRevoked
    let attestation := canonicalFactAttestation H organizationId sourceId subject key value
      observedAt.isoformat expiresAt.isoformat nonce
    if H.verify attestation signature source.publicKey = false then throw .invalidFactSignature
    let fact : EnterpriseFactRow :=
      { id := ← draw
        organizationId
        sourceId
        subject
        key
        value
        observedAt := observedAt.instant
        expiresAt := expiresAt.instant
        signature
        nonce
        observedText := observedAt.isoformat
        expiresText := expiresAt.isoformat }
    tryCatch (commit (.ingest fact)) fun _ => do
      rollback
      throw .factReplay
    let _ ← look
    return fact

end FactService

open FactService

/-! ## Requests -/

/-- An attestation is presented by anybody. -/
inductive FactRequest (H : FactHost) where
  | register (organizationId : Uuid) (name publicKey : String)
  | revoke (organizationId sourceId : Uuid)
  | ingest (organizationId sourceId : Uuid) (subject : Option String) (key : String) (value : Json)
      (observedAt expiresAt : Moment H) (nonce signature : String)

/-- The request in a session of its own. -/
def FactRequest.run {H : FactHost} : FactRequest H → FactProg Unit
  | .register organizationId name publicKey =>
    recordSession (registerFactSource organizationId name publicKey)
  | .revoke organizationId sourceId => recordSession (revokeFactSource organizationId sourceId)
  | .ingest organizationId sourceId subject key value observedAt expiresAt nonce signature =>
    recordSession
      (ingestFact H organizationId sourceId subject key value observedAt expiresAt nonce signature)

end PayReality
