import PayReality.Lib.Records
import PayReality.Lib.Rows
import PayReality.Python
import PayReality.Store.Rows

/-!
# Agents, integration identities and their certificates

The rows of the two kinds of signer, `agents` with `certificates` and `integration_identities` with
`integration_identity_certificates`, and of the organizations. The two kinds have one lifecycle. A
transition reads the status, checks it, and writes it with its commit; no row is locked before that.

* `SubjectTable`: the signers of one kind, with their certificates.
* `DirectoryChange`: what the commits change.
* `directorySchema`: the primary keys, the unique indexes, and what is checked for each change.
-/

namespace PayReality

open Program

/-! ## Rows -/

inductive SubjectKind where
  | agent | integrationIdentity
  deriving DecidableEq, Repr

inductive SubjectStatus where
  | registered | active | suspended | revoked | retired
  deriving DecidableEq, Repr

namespace SubjectStatus

def value : SubjectStatus → String
  | .registered => "registered"
  | .active => "active"
  | .suspended => "suspended"
  | .revoked => "revoked"
  | .retired => "retired"

/-- `_ALLOWED_TRANSITIONS`, of both services. -/
def allowed : SubjectStatus → List SubjectStatus
  | .registered => [.active, .revoked, .retired]
  | .active => [.suspended, .revoked, .retired]
  | .suspended => [.active, .revoked, .retired]
  | .revoked | .retired => []

/-- There is no way on. -/
def terminal (s : SubjectStatus) : Bool := s.allowed.isEmpty

end SubjectStatus

/-- The statuses that an organization is given from each. -/
def OrganizationStatus.allowed : OrganizationStatus → List OrganizationStatus
  | .active => [.deactivated]
  | .deactivated => [.active, .archived]
  | .archived => []

inductive CertificateStatus where
  | issued | active | rotated | expired | revoked
  deriving DecidableEq, Repr

/-- `_CERT_LIVE_STATUSES`. -/
def CertificateStatus.live : CertificateStatus → Bool
  | .issued | .active => true
  | _ => false

/-- An agent, whose owner is a principal, or an integration identity, whose owner is an
organization. -/
structure SubjectRow where
  id : Uuid
  ownerId : Uuid
  status : SubjectStatus

structure CertificateRow where
  id : Uuid
  subjectId : Uuid
  status : CertificateStatus

/-- What a signer's certificate becomes when the signer takes a status. -/
def SubjectStatus.marks : SubjectStatus → CertificateStatus
  | .active => .active
  | .retired => .expired
  | _ => .revoked

/-- The signers of one kind. -/
structure SubjectTable where
  subjects : List SubjectRow := []
  certificates : List CertificateRow := []

namespace SubjectTable

variable (t : SubjectTable)

def subject (id : Uuid) : Option SubjectRow := Rows.get (·.id) t.subjects id

def certificate (id : Uuid) : Option CertificateRow := Rows.get (·.id) t.certificates id

/-- The certificate of a signer that has a status of a kind, if there is one. -/
def certificateOf (id : Uuid) (p : CertificateStatus → Bool) : Option CertificateRow :=
  t.certificates.find? fun c => c.subjectId = id ∧ p c.status

/-- The primary keys, and `idx_certificates_single_active`. -/
def admitted : Bool :=
  (t.subjects.map fun s => s.id).Nodup ∧ (t.certificates.map fun c => c.id).Nodup ∧
  ((t.certificates.filter fun c => c.status = .active).map fun c => c.subjectId).Nodup

/-- A signer with its first certificate. -/
def register (id ownerId certificateId : Uuid) : SubjectTable where
  subjects := t.subjects ++ [⟨id, ownerId, .registered⟩]
  certificates := t.certificates ++ [⟨certificateId, id, .issued⟩]

/-- The signer takes a status, and a certificate is marked. -/
def move (id : Uuid) (status : SubjectStatus) (certificateId : Option Uuid) : SubjectTable where
  subjects := Rows.update (·.id) t.subjects id fun s => { s with status }
  certificates := t.certificates.map fun c =>
    if certificateId = some c.id then { c with status := status.marks } else c

/-- One certificate takes another's place. -/
def rotate (id old new : Uuid) : SubjectTable :=
  { t with
    certificates :=
      (t.certificates.map fun c => if c.id = old then { c with status := .rotated } else c) ++
        [⟨new, id, .active⟩] }

end SubjectTable

structure Directory where
  agents : SubjectTable := {}
  identities : SubjectTable := {}
  organizations : List Organization := []
  principals : List Principal := []

namespace Directory

def table (d : Directory) : SubjectKind → SubjectTable
  | .agent => d.agents
  | .integrationIdentity => d.identities

def withTable (d : Directory) (t : SubjectTable) : SubjectKind → Directory
  | .agent => { d with agents := t }
  | .integrationIdentity => { d with identities := t }

variable (d : Directory)

def organization (id : Uuid) : Option Organization := Rows.get (·.id) d.organizations id

def admitted : Bool :=
  d.agents.admitted ∧ d.identities.admitted ∧ (d.organizations.map fun o => o.id).Nodup

@[simp] theorem table_withTable (t : SubjectTable) (kind : SubjectKind) :
    (d.withTable t kind).table kind = t := by
  cases kind <;> rfl

theorem table_withTable_of_ne (t : SubjectTable) {kind kind' : SubjectKind} (h : kind' ≠ kind) :
    (d.withTable t kind).table kind' = d.table kind' := by
  cases kind <;> cases kind' <;> first | rfl | exact absurd rfl h

@[simp] theorem organization_withTable (t : SubjectTable) (kind : SubjectKind) (id : Uuid) :
    (d.withTable t kind).organization id = d.organization id := by
  cases kind <;> rfl

end Directory

/-! ## Changes -/

inductive DirectoryChange where
  | register (kind : SubjectKind) (id ownerId certificateId : Uuid)
  /-- The certificate that the transition found, if any, is marked with it. -/
  | move (kind : SubjectKind) (id : Uuid) (status : SubjectStatus) (certificateId : Option Uuid)
  | rotate (kind : SubjectKind) (id old new : Uuid)
  | insertOrganization (organization : Organization)
  | setOrganization (id : Uuid) (status : OrganizationStatus)
  /-- Other operations have changed the principals. -/
  | elsewhere (principals : List Principal)

namespace DirectoryChange

def apply : DirectoryChange → Directory → Directory
  | .register kind id ownerId certificateId, d =>
    d.withTable ((d.table kind).register id ownerId certificateId) kind
  | .move kind id status certificateId, d =>
    d.withTable ((d.table kind).move id status certificateId) kind
  | .rotate kind id old new, d => d.withTable ((d.table kind).rotate id old new) kind
  | .insertOrganization organization, d =>
    { d with organizations := d.organizations ++ [organization] }
  | .setOrganization id status, d =>
    { d with organizations := Rows.update (·.id) d.organizations id fun o => { o with status } }
  | .elsewhere principals, d => { d with principals }

/-- The rules of the services: a transition is allowed from the status that was read, marks the
signer's certificate, and at an end the live one; a rotation is of a signer in use. -/
def checks : DirectoryChange → List (Directory → Bool)
  | .move kind id status certificateId =>
    [fun d => ((d.table kind).subject id).any fun s => status ∈ s.status.allowed,
      fun d => certificateId.all fun c => ((d.table kind).certificate c).any fun c => c.subjectId = id,
      fun d => status.terminal = true →
        certificateId = ((d.table kind).certificateOf id CertificateStatus.live).map fun c => c.id]
  | .rotate kind id old _ =>
    [fun d => ((d.table kind).subject id).any fun s => s.status = .active ∨ s.status = .suspended,
      fun d => ((d.table kind).certificate old).any fun c => c.subjectId = id]
  | .setOrganization id status =>
    [fun d => (d.organization id).any fun o => status ∈ o.status.allowed]
  | _ => []

end DirectoryChange

/-- Signers and organizations as records. -/
def directorySchema : Schema Directory DirectoryChange PyError where
  apply := DirectoryChange.apply
  admits := Directory.admitted
  checks := DirectoryChange.checks
  refused := .integrityError
  failed := .databaseError

/-- A service over the directory. -/
abbrev DirectoryService := RecordProg Directory DirectoryChange Uuid PyError

end PayReality
