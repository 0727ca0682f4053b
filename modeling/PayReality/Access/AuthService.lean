import PayReality.Identity.Invitations
import PayReality.Store.Queries

/-!
# Who may do what

`domain/rbac/permissions.py`, `auth_service.py`, and the dependencies of the routes that resolve a
caller: `require_permission` and `get_current_organization`. The role of a caller and its organization
are resolved by statements of their own, so the tables may change in between. The times at which a key
was last used and a user last logged in are not kept.
-/

namespace PayReality

open Program RecordProg

/-! ## Permissions -/

inductive Permission where
  | organisationManage | organisationDelete | usersManage | integrationsManage | apiKeysManage
  | operatorKeysView | auditExport | settingsView
  | runtimePolicyCreate | runtimePolicyEdit | runtimePolicyPublish | runtimePolicyView
  | authorityReview
  | agentRegister | agentActivate | agentSuspend | agentRetire | agentRevoke | agentRotate
  | agentManage | agentView
  | principalManage
  | evidenceView | decisionsView | decisionsResolve | assuranceView
  | factsManage
  | capabilityIssue | capabilityVerify
  | integrationContractManage | integrationContractPublish
  | integrationIdentityManage
  deriving DecidableEq, Repr

/-- `ROLE_PERMISSIONS`, but for the owner, who has every permission. -/
def Role.permissions : Role → List Permission
  | .owner => []
  | .governanceAdmin =>
    [.runtimePolicyCreate, .runtimePolicyEdit, .runtimePolicyPublish, .runtimePolicyView,
      .authorityReview, .evidenceView, .decisionsView, .decisionsResolve, .assuranceView,
      .principalManage, .agentView, .factsManage, .capabilityIssue, .capabilityVerify,
      .integrationContractManage, .integrationContractPublish]
  | .agentAdmin =>
    [.agentRegister, .agentActivate, .agentSuspend, .agentRetire, .agentRevoke, .agentRotate,
      .agentManage, .agentView, .principalManage, .integrationIdentityManage]
  | .reviewer => [.authorityReview, .decisionsView, .decisionsResolve]
  | .auditor => [.evidenceView, .decisionsView, .runtimePolicyView, .agentView, .assuranceView]
  | .executive => [.assuranceView]

def hasPermission (role : Role) (permission : Permission) : Bool :=
  role = .owner || permission ∈ role.permissions

/-- "Organisation & platform administration -- Owner only, no exceptions." -/
def Permission.isAdministration : Permission → Bool
  | .organisationManage | .organisationDelete | .usersManage | .integrationsManage | .apiKeysManage
  | .operatorKeysView | .auditExport | .settingsView => true
  | _ => false

theorem owner_of_administration {role : Role} {permission : Permission}
    (hp : permission.isAdministration = true) (h : hasPermission role permission = true) :
    role = .owner := by
  revert hp h
  cases permission <;> cases role <;> decide

/-- `Role(s)`; `none` is its `ValueError`. -/
def Role.ofText : String → Option Role
  | "owner" => some .owner
  | "governance_admin" => some .governanceAdmin
  | "agent_admin" => some .agentAdmin
  | "reviewer" => some .reviewer
  | "auditor" => some .auditor
  | "executive" => some .executive
  | _ => none

/-! ## Rows -/

/-- `User.status`. -/
inductive UserStatus where
  | active | disabled
  deriving DecidableEq, Repr

def UserStatus.ofText : String → Option UserStatus
  | "active" => some .active
  | "disabled" => some .disabled
  | _ => none

/-- A row of `users`. -/
structure UserRow extends User where
  status : UserStatus
  deriving DecidableEq

/-- `sessions`; the id is the token. -/
structure UserSession where
  id : Uuid
  userId : Uuid
  expiresAt : Timestamp
  revokedAt : Option Timestamp
  deriving DecidableEq

/-- `api_keys`. -/
structure ApiKey where
  id : Uuid
  organizationId : Uuid
  name : String
  keyHash : String
  role : Role
  revokedAt : Option Timestamp
  deriving DecidableEq

/-- An organization, with the one of its settings that is read here. -/
structure OrganizationRow extends Organization where
  sessionTimeoutMinutes : Option ℤ := none

/-- `passwords` checks a password against a hash of one. -/
structure AccessHost extends SecretHashes where
  platform : Platform
  passwords : String → String → Bool
  /-- `settings.admin_api_key`. -/
  adminApiKey : String

namespace AuthService

/-- `_API_KEY_PREFIX`. -/
def apiKeyPrefix : String := "pr_live_"

/-- `generate_api_key`, but for what is shown of it. -/
def generateApiKey (H : AccessHost) (secret : String) : String × String :=
  (apiKeyPrefix ++ secret, H.hashApiKey (apiKeyPrefix ++ secret))

end AuthService

structure AccessTables where
  organizations : List OrganizationRow := []
  users : List UserRow := []
  sessions : List UserSession := []
  apiKeys : List ApiKey := []
  invitations : List OrganizationInvitation := []
  /-- The tokens that an organization was administered with. No query reads it. -/
  actors : List String := []

/-- Who is behind a token. -/
inductive Holder where
  | user (id : Uuid)
  | apiKey (id : Uuid)
  deriving DecidableEq, Repr

namespace AccessTables

variable (d : AccessTables)

def organization (id : Uuid) : Option OrganizationRow := Rows.get (fun o => o.id) d.organizations id

def user (id : Uuid) : Option UserRow := Rows.get (fun u => u.id) d.users id

def session (id : Uuid) : Option UserSession := Rows.get (fun s => s.id) d.sessions id

def apiKey (id : Uuid) : Option ApiKey := Rows.get (fun k => k.id) d.apiKeys id

def apiKeyOf (keyHash : String) : Option ApiKey := d.apiKeys.find? fun k => k.keyHash = keyHash

def invitation (id : Uuid) : Option OrganizationInvitation := Rows.get (fun i => i.id) d.invitations id

def invitationOf (tokenHash : String) : Option OrganizationInvitation :=
  d.invitations.find? fun i => i.tokenHash = tokenHash

def hasUser (organizationId : Uuid) (email : String) : Bool :=
  d.users.any fun u => u.organizationId = organizationId ∧ u.email = email

/-- The constraints on the keys. -/
def keyed : Bool :=
  (d.organizations.map fun o => o.id).Nodup ∧ (d.users.map fun u => u.id).Nodup ∧
    (d.users.map fun u => (u.organizationId, u.email)).Nodup ∧ (d.sessions.map fun s => s.id).Nodup ∧
    (d.apiKeys.map fun k => k.id).Nodup ∧ (d.apiKeys.map fun k => k.keyHash).Nodup ∧
    (d.invitations.map fun i => i.id).Nodup ∧ (d.invitations.map fun i => i.tokenHash).Nodup

/-- The foreign keys. -/
def referenced : Bool :=
  (d.users.all fun u => (d.organization u.organizationId).isSome) &&
    (d.apiKeys.all fun k => (d.organization k.organizationId).isSome) &&
    (d.invitations.all fun i => (d.organization i.organizationId).isSome) &&
    d.sessions.all fun s => (d.user s.userId).isSome

def admitted : Bool := d.keyed && d.referenced

/-! ### What an operation checks -/

/-- The token is that of a session of the user, or that of the key; neither is revoked. -/
def finds (H : AccessHost) (token : String) : Holder → Bool
  | .user id => (H.platform.uuid token).any fun sessionId => (d.session sessionId).any fun s =>
      s.userId = id ∧ s.revokedAt = none
  | .apiKey id => (d.apiKeyOf (H.hashApiKey token)).any fun k => k.id = id ∧ k.revokedAt = none

/-- The holder may act, and its role has the permission. -/
def permits (permission : Permission) : Holder → Bool
  | .user id => (d.user id).any fun u => u.status = .active ∧ hasPermission u.role permission
  | .apiKey id => (d.apiKey id).any fun k => k.revokedAt = none ∧ hasPermission k.role permission

/-- The holder is of the organization. -/
def belongs (organizationId : Uuid) : Holder → Bool
  | .user id => (d.user id).any fun u => u.organizationId = organizationId
  | .apiKey id => (d.apiKey id).any fun k => k.organizationId = organizationId

/-- The organization has the status. -/
def organizationIs (id : Uuid) (status : OrganizationStatus) : Bool :=
  (d.organization id).any fun o => o.status = status

end AccessTables

/-! ## Commits -/

/-- What a request may act by: the operator key, or a token with those that it stood for when the
permission and when the organization was resolved. -/
inductive Grant where
  | operator
  | bearer (token : String) (permitted served : Holder)

/-- A write that takes a permission. -/
inductive AdminWrite where
  | addUser (row : UserRow)
  | setRole (userId : Uuid) (role : Role)
  | setStatus (userId : Uuid) (status : UserStatus)
  | setOwner (userId : Uuid) (email passwordHash : String)
  | addApiKey (row : ApiKey) (secret : String)
  | revokeApiKey (apiKeyId : Uuid) (now : Timestamp)
  | invite (row : OrganizationInvitation)
  | revokeInvitation (invitationId : Uuid)

namespace AdminWrite

def permission : AdminWrite → Permission
  | .addUser _ | .setRole _ _ | .setStatus _ _ | .invite _ | .revokeInvitation _ => .usersManage
  | .setOwner _ _ _ => .organisationManage
  | .addApiKey _ _ | .revokeApiKey _ _ => .apiKeysManage

def apply : AdminWrite → AccessTables → AccessTables
  | .addUser row, d => { d with users := d.users ++ [row] }
  | .setRole id role, d =>
    { d with users := Rows.update (fun u => u.id) d.users id fun u => { u with role } }
  | .setStatus id status, d =>
    { d with users := Rows.update (fun u => u.id) d.users id fun u => { u with status } }
  | .setOwner id email passwordHash, d =>
    { d with users := Rows.update (fun u => u.id) d.users id fun u => { u with email, passwordHash } }
  | .addApiKey row _, d => { d with apiKeys := d.apiKeys ++ [row] }
  | .revokeApiKey id now, d =>
    { d with
      apiKeys := Rows.update (fun k => k.id) d.apiKeys id fun k => { k with revokedAt := some now } }
  | .invite row, d => { d with invitations := d.invitations ++ [row] }
  | .revokeInvitation id, d =>
    { d with
      invitations := Rows.update (fun i => i.id) d.invitations id fun i => { i with status := .revoked } }

/-- The row is of the organization; a new key has the hash of what is shown. -/
def within (H : AccessHost) (organizationId : Uuid) : AdminWrite → AccessTables → Bool
  | .addUser row, _ => row.organizationId = organizationId
  | .addApiKey row secret, _ =>
    row.organizationId = organizationId ∧ row.keyHash = (AuthService.generateApiKey H secret).2
  | .invite row, _ => row.organizationId = organizationId
  | .setRole id _, d | .setStatus id _, d | .setOwner id _ _, d => d.belongs organizationId (.user id)
  | .revokeApiKey id _, d => d.belongs organizationId (.apiKey id)
  | .revokeInvitation id, d => (d.invitation id).any fun i => i.organizationId = organizationId

end AdminWrite

inductive AccessChange where
  | administer (grant : Grant) (organizationId : Uuid) (write : AdminWrite)
  /-- The user was flushed in the same transaction. -/
  | accept (invitationId : Uuid) (user : UserRow)
  | expire (invitationId : Uuid)
  | login (session : UserSession)
  | logout (sessionId : Uuid) (now : Timestamp)
  | createOrganization (organization : OrganizationRow) (owner : UserRow)
  | setOrganizationStatus (organizationId : Uuid) (source target : OrganizationStatus)
  | addSandboxKey (row : ApiKey) (secret : String)

namespace AccessChange

def actor : Grant → List String
  | .operator => []
  | .bearer token _ _ => [token]

def apply : AccessChange → AccessTables → AccessTables
  | .administer grant _ write, d =>
    { write.apply d with actors := d.actors ++ actor grant }
  | .accept id user, d =>
    { d with
      users := d.users ++ [user]
      invitations := Rows.update (fun i => i.id) d.invitations id fun i =>
        { i with status := .accepted, acceptedByUserId := some user.id } }
  | .expire id, d =>
    { d with
      invitations := Rows.update (fun i => i.id) d.invitations id fun i => { i with status := .expired } }
  | .login session, d => { d with sessions := d.sessions ++ [session] }
  | .logout id now, d =>
    { d with
      sessions := Rows.update (fun s => s.id) d.sessions id fun s => { s with revokedAt := some now } }
  | .createOrganization organization owner, d =>
    { d with
      organizations := d.organizations ++ [organization]
      users := d.users ++ [{ owner with organizationId := organization.id }] }
  | .setOrganizationStatus id _ status, d =>
    { d with
      organizations := Rows.update (fun o => o.id) d.organizations id fun o => { o with status } }
  | .addSandboxKey row _, d => { d with apiKeys := d.apiKeys ++ [row] }

/-- The operator key is presented in some request if `operator`. -/
def grantChecks (H : AccessHost) (operator : Bool) (permission : Permission) (organizationId : Uuid) :
    Grant → List (AccessTables → Bool)
  | .operator => [fun _ => operator]
  | .bearer token permitted served =>
    [fun d => d.finds H token permitted, fun d => d.permits permission permitted,
      fun d => d.finds H token served, fun d => d.belongs organizationId served]

def checks (H : AccessHost) (operator : Bool) : AccessChange → List (AccessTables → Bool)
  | .administer grant organizationId write =>
    (fun d => d.organizationIs organizationId .active) :: (fun d => write.within H organizationId d) ::
      grantChecks H operator write.permission organizationId grant
  | .accept id user =>
    [fun d => (d.invitation id).any fun i => i.status = .pending ∧ user.organizationId = i.organizationId ∧
      user.email = i.email ∧ user.role = i.role ∧ user.invitationId = some id]
  | .setOrganizationStatus id source _ =>
    [fun _ => operator, fun _ => source ≠ .archived, fun d => d.organizationIs id source]
  | .addSandboxKey row secret => [fun _ => row.keyHash = (AuthService.generateApiKey H secret).2]
  | _ => []

/-- The id that was drawn for a sandbox is not that of an organization that there was at the start. -/
def fresh (d₀ : AccessTables) : AccessChange → Bool
  | .addSandboxKey row _ => (d₀.organization row.organizationId).isNone
  | _ => true

end AccessChange

/-- An `HTTPException`. -/
structure HTTPException where
  statusCode : ℕ
  detail : String
  deriving DecidableEq, Repr

def HTTPException.internal : HTTPException := ⟨500, "internal_error"⟩

def accessSchema (H : AccessHost) (operator : Bool) :
    Schema AccessTables AccessChange HTTPException where
  apply := AccessChange.apply
  admits := AccessTables.admitted
  checks := AccessChange.checks H operator
  refused := .internal
  failed := .internal

/-- An id, a secret, and the time. -/
structure AccessDraw where
  id : Uuid
  secret : String
  now : Timestamp

abbrev AccessProg := RecordProg AccessTables AccessChange AccessDraw HTTPException

/-! ## The service -/

/-- A `timedelta` of minutes, in microseconds. -/
def minutes (n : ℤ) : Timestamp := n * 60000000

namespace AuthService

def defaultSessionTimeoutMinutes : ℤ := 480

def authenticate (H : AccessHost) (email password : String) : AccessProg (Option UserRow) := do
  match (← look).users.find? fun u => u.email = email with
  | none => return none
  | some user =>
    if user.status = .active ∧ H.passwords password user.passwordHash then return some user
    else return none

/-- `_session_timeout_minutes`. -/
def sessionTimeoutMinutes (organization : Option OrganizationRow) : ℤ :=
  (organization.bind OrganizationRow.sessionTimeoutMinutes).getD defaultSessionTimeoutMinutes

def createSession (user : UserRow) (organization : Option OrganizationRow) :
    AccessProg UserSession := do
  let new ← draw
  let session : UserSession :=
    { id := new.id
      userId := user.id
      expiresAt := new.now + minutes (sessionTimeoutMinutes organization)
      revokedAt := none }
  commit (.login session)
  match (← look).session new.id with
  | none => throw .internal
  | some session => return session

def revokeSession (sessionId : Uuid) : AccessProg Unit := do
  match (← look).session sessionId with
  | none => return ()
  | some session =>
    if session.revokedAt = none then
      let new ← draw
      commit (.logout session.id new.now)
    else return ()

def revokeSessionForToken (H : AccessHost) (token : String) : AccessProg Unit :=
  match H.platform.uuid token with
  | none => pure ()
  | some sessionId => revokeSession sessionId

def resolveUserForSessionToken (H : AccessHost) (token : String) : AccessProg (Option UserRow) :=
  match H.platform.uuid token with
  | none => pure none
  | some sessionId => do
    match (← look).session sessionId with
    | none => return none
    | some session =>
      let new ← draw
      if session.revokedAt ≠ none ∨ session.expiresAt ≤ new.now then return none
      else
        match (← look).user session.userId with
        | none => return none
        | some user => if user.status ≠ .active then return none else return some user

/-- With whom the token stands for. -/
def resolveOrganizationIdForToken (H : AccessHost) (token : String) :
    AccessProg (Option (Holder × Uuid)) := do
  match ← resolveUserForSessionToken H token with
  | some user => return some (.user user.id, user.organizationId)
  | none =>
    match (← look).apiKeyOf (H.hashApiKey token) with
    | none => return none
    | some key =>
      if key.revokedAt = none then return some (.apiKey key.id, key.organizationId) else return none

/-- `_resolve_role_for_api_key`. -/
def resolveRoleForApiKey (H : AccessHost) (token : String) : AccessProg (Option (Holder × Role)) := do
  match (← look).apiKeyOf (H.hashApiKey token) with
  | none => return none
  | some key => if key.revokedAt ≠ none then return none else return some (.apiKey key.id, key.role)

def resolveRoleForToken (H : AccessHost) (token : String) : AccessProg (Option (Holder × Role)) := do
  match ← resolveUserForSessionToken H token with
  | some user => return some (.user user.id, user.role)
  | none => resolveRoleForApiKey H token

end AuthService

/-! ## The dependencies of the routes -/

/-- `X-PayReality-Operator-Key`, `X-PayReality-Organization-Id` and `Authorization`. -/
structure AccessHeaders where
  operatorKey : Option String := none
  organizationId : Option String := none
  authorization : Option String := none

namespace Dependencies

open AuthService

/-- `hmac.compare_digest`, which takes texts in ASCII. -/
def compareDigest (a b : String) : Except HTTPException Bool :=
  if (a ++ b).toList.all fun c => c.toNat < 128 then .ok (a = b) else .error .internal

/-- `_bearer_token`. -/
def bearerToken (H : AccessHost) (authorization : Option String) : Option String :=
  match authorization with
  | none => none
  | some text =>
    match Text.afterPrefix "bearer ".toList (H.platform.lower text).toList with
    | none => none
    | some _ =>
      let token := String.ofList (Text.strip (text.toList.drop 7))
      if token = "" then none else some token

/-- `_check` of `require_permission`: the token and its holder, or `none` for the operator. -/
def requirePermission (H : AccessHost) (h : AccessHeaders) (permission : Permission) :
    AccessProg (Option (String × Holder)) :=
  match h.operatorKey with
  | some key => do
    if H.adminApiKey = "" then throw ⟨503, "operator_auth_not_configured"⟩
    if ¬ (← lift (compareDigest key H.adminApiKey)) then throw ⟨401, "invalid_operator_key"⟩
    return none
  | none =>
    match bearerToken H h.authorization with
    | none => throw ⟨401, "authentication_required"⟩
    | some token => do
      match ← resolveRoleForToken H token with
      | none => throw ⟨401, "invalid_or_expired_credential"⟩
      | some (holder, role) =>
        if ¬ hasPermission role permission then throw ⟨403, "permission_denied"⟩
        return some (token, holder)

/-- `_ensure_active_or_403` of the organization that is got. -/
def activeOrganization (organizationId : Uuid) : AccessProg OrganizationRow := do
  match (← look).organization organizationId with
  | none => throw ⟨404, "organization_not_found"⟩
  | some organization =>
    if organization.status ≠ .active then throw ⟨403, "organization_not_active"⟩
    return organization

/-- With the holder of the token, or `none` for the operator. -/
def getCurrentOrganization (H : AccessHost) (h : AccessHeaders) :
    AccessProg (OrganizationRow × Option Holder) :=
  match h.operatorKey with
  | some key => do
    if H.adminApiKey = "" then throw ⟨401, "invalid_operator_key"⟩
    if ¬ (← lift (compareDigest key H.adminApiKey)) then throw ⟨401, "invalid_operator_key"⟩
    match h.organizationId with
    | none => throw ⟨400, "organization_id_required_for_operator_key"⟩
    | some text =>
      match H.platform.uuid text with
      | none => throw ⟨400, "invalid_organization_id"⟩
      | some id =>
        let organization ← activeOrganization id
        return (organization, none)
  | none =>
    match bearerToken H h.authorization with
    | none => throw ⟨401, "authentication_required"⟩
    | some token => do
      match ← resolveOrganizationIdForToken H token with
      | none => throw ⟨401, "invalid_or_expired_credential"⟩
      | some (holder, id) =>
        let organization ← activeOrganization id
        return (organization, some holder)

/-- Both dependencies of a route. -/
def authorize (H : AccessHost) (h : AccessHeaders) (permission : Permission) :
    AccessProg (OrganizationRow × Grant) := do
  let permitted ← requirePermission H h permission
  let (organization, served) ← getCurrentOrganization H h
  match permitted, served with
  | some (token, holder), some holder' => return (organization, .bearer token holder holder')
  | _, _ => return (organization, .operator)

/-- `verify_operator_key`. -/
def verifyOperatorKey (H : AccessHost) (operatorKey : String) : AccessProg Unit := do
  if H.adminApiKey = "" then throw ⟨503, "operator_auth_not_configured"⟩
  if ¬ (← lift (compareDigest operatorKey H.adminApiKey)) then throw ⟨401, "invalid_operator_key"⟩
  return ()

end Dependencies

end PayReality
