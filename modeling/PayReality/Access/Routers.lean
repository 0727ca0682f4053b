import PayReality.Access.AuthService

/-!
# Users, API keys, invitations and organizations

`routers/auth.py`, `users.py`, `organization.py`, `organization_lifecycle.py` and `sandbox.py` with
`organization_lifecycle_service.py` and the bootstrap of the first organization: everything that writes
the tables of who may do what. What a sandbox is provisioned with besides its organization and its key
is written to other tables.
-/

namespace PayReality

open Program RecordProg Dependencies

/-! ## Reading back -/

namespace AccessTables

def refreshUser (id : Uuid) : AccessProg UserRow := do
  match (← look).user id with
  | none => throw .internal
  | some user => return user

def refreshOrganization (id : Uuid) : AccessProg OrganizationRow := do
  match (← look).organization id with
  | none => throw .internal
  | some organization => return organization

def refreshInvitation (id : Uuid) : AccessProg OrganizationInvitation := do
  match (← look).invitation id with
  | none => throw .internal
  | some invitation => return invitation

end AccessTables

open AccessTables

/-! ## Login -/

namespace Routers

variable (H : AccessHost)

def login (email password : String) : AccessProg UserSession := do
  match ← AuthService.authenticate H email password with
  | none => throw ⟨401, "invalid_credentials"⟩
  | some user =>
    let organization := (← look).organization user.organizationId
    AuthService.createSession user organization

def logout (authorization : Option String) : AccessProg Unit :=
  match bearerToken H authorization with
  | none => pure ()
  | some token => AuthService.revokeSessionForToken H token

/-! ## Users -/

/-- The owner whose password is set is the first one that is found. -/
def setupOwner (h : AccessHeaders) (email password : String) : AccessProg UserRow := do
  let (organization, grant) ← authorize H h .organisationManage
  if password.length < 8 then throw ⟨422, "password_too_short"⟩
  match (← look).users.find? fun u => u.organizationId = organization.id ∧ u.role = .owner with
  | none => throw ⟨404, "owner_not_found"⟩
  | some owner =>
    if (← look).users.any fun u =>
        u.organizationId = organization.id ∧ u.email = email ∧ u.id ≠ owner.id then
      throw ⟨409, "email_already_exists"⟩
    commit (.administer grant organization.id (.setOwner owner.id email (H.hashPassword password)))
    refreshUser owner.id

def createUser (h : AccessHeaders) (email name role : String) : AccessProg UserRow := do
  let (organization, grant) ← authorize H h .usersManage
  match Role.ofText role with
  | none => throw ⟨422, "invalid_role"⟩
  | some role =>
    if (← look).hasUser organization.id email then throw ⟨409, "email_already_exists"⟩
    let new ← draw
    let user : UserRow :=
      { id := new.id
        organizationId := organization.id
        email
        name
        passwordHash := H.hashPassword new.secret
        role
        invitationId := none
        status := .active }
    commit (.administer grant organization.id (.addUser user))
    refreshUser user.id

/-- `_get_org_user`. -/
def getOrgUser (organizationId userId : Uuid) : AccessProg UserRow := do
  match (← look).user userId with
  | none => throw ⟨404, "user_not_found"⟩
  | some user =>
    if user.organizationId ≠ organizationId then throw ⟨404, "user_not_found"⟩
    return user

def updateUserRole (h : AccessHeaders) (userId : Uuid) (role : String) : AccessProg UserRow := do
  let (organization, grant) ← authorize H h .usersManage
  match Role.ofText role with
  | none => throw ⟨422, "invalid_role"⟩
  | some role =>
    let user ← getOrgUser organization.id userId
    commit (.administer grant organization.id (.setRole user.id role))
    refreshUser user.id

def updateUserStatus (h : AccessHeaders) (userId : Uuid) (status : String) : AccessProg UserRow := do
  let (organization, grant) ← authorize H h .usersManage
  match UserStatus.ofText status with
  | none => throw ⟨422, "invalid_status"⟩
  | some status =>
    let user ← getOrgUser organization.id userId
    commit (.administer grant organization.id (.setStatus user.id status))
    refreshUser user.id

/-! ## API keys -/

/-- The key that is shown is returned beside its row. -/
def createApiKey (h : AccessHeaders) (name role : String) : AccessProg (ApiKey × String) := do
  let (organization, grant) ← authorize H h .apiKeysManage
  match Role.ofText role with
  | none => throw ⟨422, "invalid_role"⟩
  | some role =>
    let new ← draw
    let (rawKey, keyHash) := AuthService.generateApiKey H new.secret
    let key : ApiKey :=
      { id := new.id, organizationId := organization.id, name, keyHash, role, revokedAt := none }
    commit (.administer grant organization.id (.addApiKey key new.secret))
    match (← look).apiKey key.id with
    | none => throw .internal
    | some key => return (key, rawKey)

def revokeApiKey (h : AccessHeaders) (apiKeyId : Uuid) : AccessProg Unit := do
  let (organization, grant) ← authorize H h .apiKeysManage
  match (← look).apiKey apiKeyId with
  | none => throw ⟨404, "api_key_not_found"⟩
  | some key =>
    if key.organizationId ≠ organization.id then throw ⟨404, "api_key_not_found"⟩
    if key.revokedAt = none then
      let new ← draw
      commit (.administer grant organization.id (.revokeApiKey key.id new.now))
    else return ()

/-! ## Invitations -/

/-- `_INVITATION_TOKEN_PREFIX`. -/
def invitationTokenPrefix : String := "pri_"

/-- `_INVITATION_VALIDITY`. -/
def invitationValidity : Timestamp := minutes (7 * 24 * 60)

def inviteMember (h : AccessHeaders) (email role : String) :
    AccessProg (OrganizationInvitation × String) := do
  let (organization, grant) ← authorize H h .usersManage
  match Role.ofText role with
  | none => throw ⟨422, "invalid_role"⟩
  | some role =>
    if (← look).hasUser organization.id email then throw ⟨409, "email_already_exists"⟩
    let new ← draw
    let rawToken := invitationTokenPrefix ++ new.secret
    let invitation : OrganizationInvitation :=
      { id := new.id
        organizationId := organization.id
        email
        role
        tokenHash := H.hashApiKey rawToken
        status := .pending
        expiresAt := new.now + invitationValidity
        acceptedByUserId := none }
    commit (.administer grant organization.id (.invite invitation))
    let invitation ← refreshInvitation invitation.id
    return (invitation, rawToken)

def statusText : InvitationStatus → String
  | .pending => "pending"
  | .accepted => "accepted"
  | .revoked => "revoked"
  | .expired => "expired"

def revokeInvitation (h : AccessHeaders) (invitationId : Uuid) :
    AccessProg OrganizationInvitation := do
  let (organization, grant) ← authorize H h .usersManage
  match (← look).invitation invitationId with
  | none => throw ⟨404, "invitation_not_found"⟩
  | some invitation =>
    if invitation.organizationId ≠ organization.id then throw ⟨404, "invitation_not_found"⟩
    if invitation.status ≠ .pending then
      throw ⟨409, "cannot revoke an invitation in status '" ++ statusText invitation.status ++ "'"⟩
    commit (.administer grant organization.id (.revokeInvitation invitation.id))
    refreshInvitation invitation.id

/-- Whoever has the token of an invitation becomes a user. -/
def acceptInvitation (rawToken name password : String) : AccessProg UserRow := do
  if password.length < 8 then throw ⟨422, "password_too_short"⟩
  match (← look).invitationOf (H.hashApiKey rawToken) with
  | none => throw ⟨404, "invitation_not_found"⟩
  | some invitation =>
    if invitation.status ≠ .pending then
      throw ⟨409, "invitation is already '" ++ statusText invitation.status ++ "'"⟩
    let new ← draw
    if invitation.expiresAt ≤ new.now then
      commit (.expire invitation.id)
      throw ⟨409, H.platform.uuidText invitation.id⟩
    if (← look).hasUser invitation.organizationId invitation.email then
      throw ⟨409, invitation.email⟩
    let user : UserRow :=
      { id := new.id
        organizationId := invitation.organizationId
        email := invitation.email
        name
        passwordHash := H.hashPassword password
        role := invitation.role
        invitationId := some invitation.id
        status := .active }
    commit (.accept invitation.id user)
    refreshUser user.id

/-! ## Organizations -/

/-- `organization_lifecycle_service.create_organization`; the organization is flushed before its owner
is made. -/
def createOrganization (name ownerEmail ownerName : String) (environment : Environment) :
    AccessProg (OrganizationRow × UserRow) := do
  let flushed ← draw
  let organization : OrganizationRow := { id := flushed.id, name, status := .active, environment }
  let new ← draw
  let owner : UserRow :=
    { id := new.id
      organizationId := organization.id
      email := ownerEmail
      name := ownerName
      passwordHash := H.hashPassword new.secret
      role := .owner
      invitationId := none
      status := .active }
  commit (.createOrganization organization owner)
  let organization ← refreshOrganization organization.id
  let owner ← refreshUser owner.id
  return (organization, owner)

/-- The route of the operator. -/
def createOrganizationRoute (operatorKey name ownerEmail ownerName : String) :
    AccessProg (OrganizationRow × UserRow) := do
  verifyOperatorKey H operatorKey
  createOrganization H name ownerEmail ownerName .production

def organizationStatusText : OrganizationStatus → String
  | .active => "active"
  | .deactivated => "deactivated"
  | .archived => "archived"

/-- `deactivate_organization`, `reactivate_organization`, `archive_organization`. -/
def moveOrganization (source target : OrganizationStatus) (action operatorKey : String)
    (organizationId : Uuid) : AccessProg OrganizationRow := do
  verifyOperatorKey H operatorKey
  match (← look).organization organizationId with
  | none => throw ⟨404, "organization_not_found"⟩
  | some organization =>
    if organization.status ≠ source then
      throw ⟨409, "cannot " ++ action ++ " an organization in status '" ++
        organizationStatusText organization.status ++ "'"⟩
    commit (.setOrganizationStatus organization.id source target)
    refreshOrganization organization.id

def deactivateOrganization (operatorKey : String) (organizationId : Uuid) :
    AccessProg OrganizationRow :=
  moveOrganization H .active .deactivated "deactivate" operatorKey organizationId

def reactivateOrganization (operatorKey : String) (organizationId : Uuid) :
    AccessProg OrganizationRow :=
  moveOrganization H .deactivated .active "reactivate" operatorKey organizationId

def archiveOrganization (operatorKey : String) (organizationId : Uuid) :
    AccessProg OrganizationRow :=
  moveOrganization H .deactivated .archived "archive (deactivate it first)" operatorKey organizationId

/-- `find_sandbox_organization_by_owner_email`. -/
def hasSandbox (d : AccessTables) (ownerEmail : String) : Bool :=
  d.organizations.any fun o => o.environment = .sandbox ∧ o.status ≠ .archived ∧
    d.users.any fun u => u.organizationId = o.id ∧ u.email = ownerEmail ∧ u.role = .owner

/-- Anybody may ask for a sandbox; its key is shown. -/
def createSandboxOrganization (email : String) (name : Option String) : AccessProg String := do
  if hasSandbox (← look) email then throw ⟨409, "sandbox_already_exists_for_email"⟩
  let given := name.filter (· ≠ "")
  let (organization, owner) ← createOrganization H (given.getD ("Sandbox (" ++ email ++ ")")) email
    (given.getD email) .sandbox
  let new ← draw
  let (rawKey, keyHash) := AuthService.generateApiKey H new.secret
  let key : ApiKey :=
    { id := new.id
      organizationId := organization.id
      name := "Sandbox default key"
      keyHash
      role := owner.role
      revokedAt := none }
  commit (.addSandboxKey key new.secret)
  return rawKey

/-- `organization_service.ensure_owner_bootstrapped`, at every start. -/
def ensureOwnerBootstrapped (organizationName ownerEmail : String) : AccessProg Unit := do
  if (← look).organizations.isEmpty then
    let _ ← createOrganization H organizationName ownerEmail "Organisation Owner" .production
    return ()
  else return ()

end Routers

/-! ## Requests -/

inductive AccessRequest where
  | login (email password : String)
  | logout (authorization : Option String)
  | setupOwner (h : AccessHeaders) (email password : String)
  | createUser (h : AccessHeaders) (email name role : String)
  | updateUserRole (h : AccessHeaders) (userId : Uuid) (role : String)
  | updateUserStatus (h : AccessHeaders) (userId : Uuid) (status : String)
  | createApiKey (h : AccessHeaders) (name role : String)
  | revokeApiKey (h : AccessHeaders) (apiKeyId : Uuid)
  | inviteMember (h : AccessHeaders) (email role : String)
  | revokeInvitation (h : AccessHeaders) (invitationId : Uuid)
  | acceptInvitation (rawToken name password : String)
  | createOrganization (operatorKey name ownerEmail ownerName : String)
  | deactivate (operatorKey : String) (organizationId : Uuid)
  | reactivate (operatorKey : String) (organizationId : Uuid)
  | archive (operatorKey : String) (organizationId : Uuid)
  | createSandbox (email : String) (name : Option String)
  | bootstrap (organizationName ownerEmail : String)

namespace AccessRequest

variable (H : AccessHost)

/-- The operator key that is presented. -/
def operatorKey : AccessRequest → Option String
  | .setupOwner h _ _ | .createUser h _ _ _ | .updateUserRole h _ _ | .updateUserStatus h _ _
  | .createApiKey h _ _ | .revokeApiKey h _ | .inviteMember h _ _ | .revokeInvitation h _ =>
    h.operatorKey
  | .createOrganization key _ _ _ | .deactivate key _ | .reactivate key _ | .archive key _ => some key
  | _ => none

/-- The request presents the operator key. -/
def keyed (r : AccessRequest) : Bool :=
  r.operatorKey.any fun key => H.adminApiKey ≠ "" ∧ key = H.adminApiKey

def serve : AccessRequest → AccessProg Unit
  | .login email password => do
    let _ ← Routers.login H email password
  | .logout authorization => Routers.logout H authorization
  | .setupOwner h email password => do
    let _ ← Routers.setupOwner H h email password
  | .createUser h email name role => do
    let _ ← Routers.createUser H h email name role
  | .updateUserRole h userId role => do
    let _ ← Routers.updateUserRole H h userId role
  | .updateUserStatus h userId status => do
    let _ ← Routers.updateUserStatus H h userId status
  | .createApiKey h name role => do
    let _ ← Routers.createApiKey H h name role
  | .revokeApiKey h apiKeyId => Routers.revokeApiKey H h apiKeyId
  | .inviteMember h email role => do
    let _ ← Routers.inviteMember H h email role
  | .revokeInvitation h invitationId => do
    let _ ← Routers.revokeInvitation H h invitationId
  | .acceptInvitation rawToken name password => do
    let _ ← Routers.acceptInvitation H rawToken name password
  | .createOrganization key name ownerEmail ownerName => do
    let _ ← Routers.createOrganizationRoute H key name ownerEmail ownerName
  | .deactivate key id => do
    let _ ← Routers.deactivateOrganization H key id
  | .reactivate key id => do
    let _ ← Routers.reactivateOrganization H key id
  | .archive key id => do
    let _ ← Routers.archiveOrganization H key id
  | .createSandbox email name => do
    let _ ← Routers.createSandboxOrganization H email name
  | .bootstrap organizationName ownerEmail =>
    Routers.ensureOwnerBootstrapped H organizationName ownerEmail

/-- The request in a session of its own. -/
def run (r : AccessRequest) : AccessProg Unit := recordSession (r.serve H)

end AccessRequest

end PayReality
