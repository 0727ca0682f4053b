import PayReality.Access.Routers

/-!
# Whatever is administered is authorized

A request commits only what it has checked: that its token stands for somebody who has the permission,
that it stands for somebody of the organization, that the organization is active, and that what is
written is the organization's (`Authorized`, `access_checks`).
-/

namespace PayReality

open Program RecordProg Dependencies AuthService

/-! ## Resolving a caller -/

section

variable {H : AccessHost} {operator : Bool} {d : AccessTables} {seen : List AccessTables} {α : Type}
  {R : α → List AccessTables → Prop}

theorem AccessTables.organization_id {id : Uuid} {o : OrganizationRow}
    (h : d.organization id = some o) : o.id = id := by
  simpa using List.find?_some h

theorem AccessTables.user_id {id : Uuid} {u : UserRow} (h : d.user id = some u) : u.id = id := by
  simpa using List.find?_some h

/-- The token stands for the user, who is active. -/
def UserRead (H : AccessHost) (token : String) (u : UserRow) (seen : List AccessTables) : Prop :=
  Saw (fun d => d.finds H token (.user u.id) = true) seen ∧
    Saw (fun d => d.user u.id = some u ∧ u.status = .active) seen

theorem vetted_resolveUserForSessionToken {token : String} {f : Option UserRow → AccessProg α}
    (h : ∀ r seen', seen ⊆ seen' → (∀ u, r = some u → UserRead H token u seen') →
      Vetted (accessSchema H operator) (f r) R seen') :
    Vetted (accessSchema H operator) (resolveUserForSessionToken H token >>= f) R seen := by
  have hnone {seen' : List AccessTables} (hs : seen ⊆ seen') :
      Vetted (accessSchema H operator) (f none) R seen' :=
    h none seen' hs fun u hu => by cases hu
  refine checked_bind ?_
  unfold resolveUserForSessionToken
  cases hid : H.platform.uuid token with
  | none => exact hnone (List.Subset.refl _)
  | some sessionId =>
    refine vetted_look fun d _ => ?_
    have hd : seen ⊆ d :: seen := List.subset_cons_self _ _
    cases hs : d.session sessionId with
    | none => exact hnone hd
    | some session =>
      refine vetted_draw fun new => ?_
      split
      · exact hnone hd
      next hlive =>
      refine vetted_look fun d' _ => ?_
      have hd' : seen ⊆ d' :: d :: seen := fun x hx => List.mem_cons_of_mem _ (hd hx)
      cases hu : d'.user session.userId with
      | none => exact hnone hd'
      | some user =>
        have huid : user.id = session.userId := AccessTables.user_id hu
        dsimp only
        split
        · exact hnone hd'
        next hactive =>
        refine h (some user) _ hd' fun u hu' => ?_
        cases hu'
        have hlive : session.revokedAt = none := by
          by_contra hrevoked
          exact hlive (.inl hrevoked)
        refine ⟨⟨d, List.mem_cons_of_mem _ List.mem_cons_self, ?_⟩, ⟨d', List.mem_cons_self, ?_⟩⟩
        · simp [AccessTables.finds, hid, hs, hlive, huid]
        · exact ⟨huid ▸ hu, not_not.1 hactive⟩

theorem AccessTables.user_of_mem (hd : d.admitted = true) {u : UserRow} (h : u ∈ d.users) :
    d.user u.id = some u := by
  obtain ⟨hkeyed, -⟩ := Bool.and_eq_true_iff.1 hd
  obtain ⟨-, hids, -⟩ := of_decide_eq_true hkeyed
  exact Rows.get_of_mem hids h

theorem AccessTables.apiKey_of_hash (hd : d.admitted = true) {keyHash : String} {k : ApiKey}
    (h : d.apiKeyOf keyHash = some k) : d.apiKey k.id = some k := by
  obtain ⟨hkeyed, -⟩ := Bool.and_eq_true_iff.1 hd
  obtain ⟨-, -, -, -, hids, -⟩ := of_decide_eq_true hkeyed
  exact Rows.get_of_mem hids (List.mem_of_find?_eq_some h)

/-- The token stands for the holder, who has the role. -/
def RoleRead (H : AccessHost) (token : String) (r : Holder × Role) (seen : List AccessTables) : Prop :=
  Saw (fun d => d.finds H token r.1 = true) seen ∧
    Saw (fun d => ∀ permission, d.permits permission r.1 = hasPermission r.2 permission) seen

theorem vetted_resolveRoleForToken {token : String} {f : Option (Holder × Role) → AccessProg α}
    (h : ∀ r seen', seen ⊆ seen' → (∀ a, r = some a → RoleRead H token a seen') →
      Vetted (accessSchema H operator) (f r) R seen') :
    Vetted (accessSchema H operator) (resolveRoleForToken H token >>= f) R seen := by
  refine checked_bind (vetted_resolveUserForSessionToken fun r seen' hsub hr => ?_)
  cases r with
  | some u =>
    obtain ⟨hfinds, d', hd', hu, hactive⟩ := hr u rfl
    refine h _ seen' hsub fun a ha => ?_
    cases ha
    exact ⟨hfinds, d', hd', fun permission => by simp [AccessTables.permits, hu, hactive]⟩
  | none =>
    refine vetted_look fun d hd => ?_
    have hsub' : seen ⊆ d :: seen' := fun x hx => List.mem_cons_of_mem _ (hsub hx)
    cases hk : d.apiKeyOf (H.hashApiKey token) with
    | none => exact h none _ hsub' fun a ha => by cases ha
    | some k =>
      dsimp only
      split
      · exact h none _ hsub' fun a ha => by cases ha
      next hlive =>
      have hlive : k.revokedAt = none := not_not.1 hlive
      refine h _ _ hsub' fun a ha => ?_
      cases ha
      refine ⟨Saw.head ?_, Saw.head fun permission => ?_⟩
      · simp [AccessTables.finds, hk, hlive]
      · simp [AccessTables.permits, AccessTables.apiKey_of_hash hd hk, hlive]

/-- The token stands for the holder, who is of the organization. -/
def OrganizationRead (H : AccessHost) (token : String) (r : Holder × Uuid)
    (seen : List AccessTables) : Prop :=
  Saw (fun d => d.finds H token r.1 = true) seen ∧ Saw (fun d => d.belongs r.2 r.1 = true) seen

theorem vetted_resolveOrganizationIdForToken {token : String}
    {f : Option (Holder × Uuid) → AccessProg α}
    (h : ∀ r seen', seen ⊆ seen' → (∀ a, r = some a → OrganizationRead H token a seen') →
      Vetted (accessSchema H operator) (f r) R seen') :
    Vetted (accessSchema H operator) (resolveOrganizationIdForToken H token >>= f) R seen := by
  refine checked_bind (vetted_resolveUserForSessionToken fun r seen' hsub hr => ?_)
  cases r with
  | some u =>
    obtain ⟨hfinds, d', hd', hu, -⟩ := hr u rfl
    refine h _ seen' hsub fun a ha => ?_
    cases ha
    exact ⟨hfinds, d', hd', by simp [AccessTables.belongs, hu]⟩
  | none =>
    refine vetted_look fun d hd => ?_
    have hsub' : seen ⊆ d :: seen' := fun x hx => List.mem_cons_of_mem _ (hsub hx)
    cases hk : d.apiKeyOf (H.hashApiKey token) with
    | none => exact h none _ hsub' fun a ha => by cases ha
    | some k =>
      dsimp only
      split
      · next hlive =>
        refine h _ _ hsub' fun a ha => ?_
        cases ha
        refine ⟨Saw.head ?_, Saw.head ?_⟩
        · simp [AccessTables.finds, hk, hlive]
        · simp [AccessTables.belongs, AccessTables.apiKey_of_hash hd hk]
      · exact h none _ hsub' fun a ha => by cases ha

theorem vetted_activeOrganization {id : Uuid} {f : OrganizationRow → AccessProg α}
    (h : ∀ o seen', seen ⊆ seen' → o.id = id →
      Saw (fun d => d.organizationIs o.id .active = true) seen' →
      Vetted (accessSchema H operator) (f o) R seen') :
    Vetted (accessSchema H operator) (activeOrganization id >>= f) R seen := by
  refine checked_bind (vetted_look fun d _ => ?_)
  cases ho : d.organization id with
  | none => trivial
  | some o =>
    have hid : o.id = id := AccessTables.organization_id ho
    dsimp only
    split
    · trivial
    next hactive =>
    refine h o _ (List.subset_cons_self _ _) hid (Saw.head ?_)
    simp [AccessTables.organizationIs, hid, ho, not_not.1 hactive]

/-- The operator key is presented only where `operator` says so. -/
def Announced (H : AccessHost) (operator : Bool) (key : Option String) : Prop :=
  H.adminApiKey ≠ "" → key = some H.adminApiKey → operator = true

theorem compareDigest_ok {a b : String} {r : Bool} (h : compareDigest a b = .ok r) :
    r = decide (a = b) := by
  unfold compareDigest at h
  split at h
  · cases h
    rfl
  · cases h

theorem vetted_verifyOperatorKey {key : String} (hkey : Announced H operator (some key))
    {f : Unit → AccessProg α} (h : operator = true → Vetted (accessSchema H operator) (f ()) R seen) :
    Vetted (accessSchema H operator) (verifyOperatorKey H key >>= f) R seen := by
  refine checked_bind ?_
  unfold verifyOperatorKey
  split
  · trivial
  next hset =>
  refine vetted_lift_ok fun r hr => ?_
  rw [compareDigest_ok hr]
  split
  · trivial
  next hsame =>
  simp only [decide_eq_true_eq, not_not] at hsame
  exact h (hkey hset (hsame ▸ rfl))

/-- The grant has been checked, for the organization, which was active. -/
def Authorized (H : AccessHost) (operator : Bool) (permission : Permission)
    (r : OrganizationRow × Grant) (seen : List AccessTables) : Prop :=
  Saw (fun d => d.organizationIs r.1.id .active = true) seen ∧
    Saws (AccessChange.grantChecks H operator permission r.1.id r.2) seen

theorem Authorized.mono {permission : Permission} {r : OrganizationRow × Grant}
    {seen' : List AccessTables} (h : Authorized H operator permission r seen) (hs : seen ⊆ seen') :
    Authorized H operator permission r seen' := ⟨h.1.mono hs, h.2.mono hs⟩

section

variable {hd : AccessHeaders} {permission : Permission}

theorem vetted_requirePermission_operator {key : String} (hkey : hd.operatorKey = some key)
    (hannounced : Announced H operator hd.operatorKey)
    {f : Option (String × Holder) → AccessProg α}
    (h : operator = true → Vetted (accessSchema H operator) (f none) R seen) :
    Vetted (accessSchema H operator) (requirePermission H hd permission >>= f) R seen := by
  refine checked_bind ?_
  unfold requirePermission
  rw [hkey] at hannounced ⊢
  dsimp only
  split
  · trivial
  next hset =>
  refine vetted_lift_ok fun r hr => ?_
  rw [compareDigest_ok hr]
  split
  · trivial
  next hsame =>
  simp only [decide_eq_true_eq, not_not] at hsame
  exact h (hannounced hset (hsame ▸ rfl))

theorem vetted_requirePermission_bearer (hkey : hd.operatorKey = none)
    {f : Option (String × Holder) → AccessProg α}
    (h : ∀ token holder seen', bearerToken H hd.authorization = some token →
      Saws [fun d => d.finds H token holder, fun d => d.permits permission holder] seen' →
      Vetted (accessSchema H operator) (f (some (token, holder))) R seen') :
    Vetted (accessSchema H operator) (requirePermission H hd permission >>= f) R seen := by
  refine checked_bind ?_
  unfold requirePermission
  rw [hkey]
  dsimp only
  cases htoken : bearerToken H hd.authorization with
  | none => trivial
  | some token =>
    refine vetted_resolveRoleForToken fun r seen' _ hr => ?_
    cases r with
    | none => trivial
    | some a =>
      obtain ⟨hfinds, d', hd', hpermits⟩ := hr a rfl
      dsimp only
      split
      · trivial
      next hhas =>
      refine h token a.1 seen' htoken fun c hc => ?_
      rcases List.mem_cons.1 hc with rfl | hc
      · exact hfinds
      · rcases List.mem_singleton.1 hc with rfl
        exact ⟨d', hd', (hpermits permission).trans (not_not.1 hhas)⟩

theorem vetted_getCurrentOrganization_operator {key : String} (hkey : hd.operatorKey = some key)
    {f : OrganizationRow × Option Holder → AccessProg α}
    (h : ∀ o seen', seen ⊆ seen' → Saw (fun d => d.organizationIs o.id .active = true) seen' →
      Vetted (accessSchema H operator) (f (o, none)) R seen') :
    Vetted (accessSchema H operator) (getCurrentOrganization H hd >>= f) R seen := by
  refine checked_bind ?_
  unfold getCurrentOrganization
  rw [hkey]
  dsimp only
  split
  · trivial
  refine vetted_lift fun r => ?_
  split
  · trivial
  cases hd.organizationId with
  | none => trivial
  | some text =>
    dsimp only
    cases H.platform.uuid text with
    | none => trivial
    | some id => exact vetted_activeOrganization fun o seen' hsub _ hactive => h o seen' hsub hactive

theorem vetted_getCurrentOrganization_bearer (hkey : hd.operatorKey = none)
    {f : OrganizationRow × Option Holder → AccessProg α}
    (h : ∀ token o holder seen', seen ⊆ seen' → bearerToken H hd.authorization = some token →
      Saw (fun d => d.organizationIs o.id .active = true) seen' →
      Saws [fun d => d.finds H token holder, fun d => d.belongs o.id holder] seen' →
      Vetted (accessSchema H operator) (f (o, some holder)) R seen') :
    Vetted (accessSchema H operator) (getCurrentOrganization H hd >>= f) R seen := by
  refine checked_bind ?_
  unfold getCurrentOrganization
  rw [hkey]
  dsimp only
  cases htoken : bearerToken H hd.authorization with
  | none => trivial
  | some token =>
    refine vetted_resolveOrganizationIdForToken fun r seen' hsub hr => ?_
    cases r with
    | none => trivial
    | some a =>
      obtain ⟨hfinds, hbelongs⟩ := hr a rfl
      refine vetted_activeOrganization fun o seen'' hsub' hid hactive => ?_
      refine h token o a.1 seen'' (fun x hx => hsub' (hsub hx)) htoken hactive fun c hc => ?_
      rcases List.mem_cons.1 hc with rfl | hc
      · exact hfinds.mono hsub'
      · rcases List.mem_singleton.1 hc with rfl
        rw [hid]
        exact hbelongs.mono hsub'

theorem vetted_authorize (hannounced : Announced H operator hd.operatorKey)
    {f : OrganizationRow × Grant → AccessProg α}
    (h : ∀ r seen', Authorized H operator permission r seen' →
      Vetted (accessSchema H operator) (f r) R seen') :
    Vetted (accessSchema H operator) (authorize H hd permission >>= f) R seen := by
  refine checked_bind ?_
  unfold authorize
  cases hkey : hd.operatorKey with
  | some key =>
    refine vetted_requirePermission_operator hkey hannounced fun hoperator => ?_
    refine vetted_getCurrentOrganization_operator hkey fun o seen' _ hactive => ?_
    refine h (o, .operator) seen' ⟨hactive, fun c hc => ?_⟩
    rcases List.mem_singleton.1 hc with rfl
    exact hactive.imp fun d hd => ⟨hd.1, hoperator⟩
  | none =>
    refine vetted_requirePermission_bearer hkey fun token holder seen₁ htoken hpermitted => ?_
    refine vetted_getCurrentOrganization_bearer hkey
      fun token' o holder' seen₂ hsub htoken' hactive hserved => ?_
    rw [htoken] at htoken'
    cases htoken'
    refine h (o, .bearer token holder holder') seen₂ ⟨hactive, fun c hc => ?_⟩
    rcases List.mem_append.1 (show c ∈ [_, _] ++ [_, _] from hc) with hc | hc
    · exact hpermitted.mono hsub c hc
    · exact hserved c hc

end

/-! ### The routes -/

theorem vetted_administer {o : OrganizationRow} {grant : Grant} {write : AdminWrite}
    (h : Authorized H operator write.permission (o, grant) seen)
    (hwithin : Saw (fun d => write.within H o.id d = true) seen) {f : Unit → AccessProg α}
    (hf : Vetted (accessSchema H operator) (f ()) R []) :
    Vetted (accessSchema H operator) (commit (.administer grant o.id write) >>= f) R seen := by
  refine vetted_commit (fun c hc => ?_) hf
  rcases List.mem_cons.1 hc with rfl | hc
  · exact h.1
  rcases List.mem_cons.1 hc with rfl | hc
  · exact hwithin
  · exact h.2 c hc

theorem vetted_userAgain (id : Uuid) :
    Vetted (accessSchema H operator) (AccessTables.refreshUser id) (fun _ _ => True) seen := by
  refine vetted_look fun d _ => ?_
  cases d.user id <;> trivial

theorem vetted_invitationAgain (id : Uuid) :
    Vetted (accessSchema H operator) (AccessTables.refreshInvitation id) (fun _ _ => True) seen := by
  refine vetted_look fun d _ => ?_
  cases d.invitation id <;> trivial

theorem vetted_organizationAgain (id : Uuid) :
    Vetted (accessSchema H operator) (AccessTables.refreshOrganization id) (fun _ _ => True) seen := by
  refine vetted_look fun d _ => ?_
  cases d.organization id <;> trivial

section Administration

open Routers

theorem vetted_getOrgUser {organizationId userId : Uuid} {f : UserRow → AccessProg α}
    (h : ∀ u seen', seen ⊆ seen' →
      Saw (fun d => d.belongs organizationId (.user u.id) = true) seen' →
      Vetted (accessSchema H operator) (f u) R seen') :
    Vetted (accessSchema H operator) (getOrgUser organizationId userId >>= f) R seen := by
  refine checked_bind (vetted_look fun d _ => ?_)
  cases hu : d.user userId with
  | none => trivial
  | some u =>
    have hid := AccessTables.user_id hu
    dsimp only
    split
    · trivial
    next horg =>
    refine h u _ (List.subset_cons_self _ _) (Saw.head ?_)
    simp [AccessTables.belongs, hid, hu, not_not.1 horg]

variable {hd : AccessHeaders} (hannounced : Announced H operator hd.operatorKey)

include hannounced

theorem vetted_setupOwner (email password : String) :
    Vetted (accessSchema H operator) (setupOwner H hd email password) (fun _ _ => True) seen := by
  refine vetted_authorize hannounced fun ⟨o, grant⟩ seen' hauth => ?_
  dsimp only
  split
  · trivial
  refine vetted_look fun d hd => ?_
  split
  · trivial
  next owner howner =>
  refine vetted_look fun d' _ => ?_
  split
  · trivial
  have hmem := List.mem_of_find?_eq_some howner
  have howner : owner.organizationId = o.id ∧ owner.role = .owner := by
    simpa using List.find?_some howner
  refine vetted_administer (hauth.mono fun x hx => List.mem_cons_of_mem _ (List.mem_cons_of_mem _ hx))
    ⟨d, List.mem_cons_of_mem _ List.mem_cons_self, ?_⟩ (vetted_userAgain _)
  simp [AdminWrite.within, AccessTables.belongs, AccessTables.user_of_mem hd hmem, howner.1]

theorem vetted_createUser (email name role : String) :
    Vetted (accessSchema H operator) (createUser H hd email name role) (fun _ _ => True) seen := by
  refine vetted_authorize hannounced fun ⟨o, grant⟩ seen' hauth => ?_
  dsimp only
  cases Role.ofText role with
  | none => trivial
  | some role =>
    refine vetted_look fun d _ => ?_
    split
    · trivial
    refine vetted_draw fun new => ?_
    refine vetted_administer (hauth.mono (List.subset_cons_self _ _)) (Saw.head ?_) (vetted_userAgain _)
    simp [AdminWrite.within]

theorem vetted_updateUserRole (userId : Uuid) (role : String) :
    Vetted (accessSchema H operator) (updateUserRole H hd userId role) (fun _ _ => True) seen := by
  refine vetted_authorize hannounced fun ⟨o, grant⟩ seen' hauth => ?_
  dsimp only
  cases Role.ofText role with
  | none => trivial
  | some role =>
    refine vetted_getOrgUser fun u seen'' hsub hbelongs => ?_
    refine vetted_administer (hauth.mono hsub) ?_ (vetted_userAgain _)
    exact hbelongs

theorem vetted_updateUserStatus (userId : Uuid) (status : String) :
    Vetted (accessSchema H operator) (updateUserStatus H hd userId status) (fun _ _ => True) seen := by
  refine vetted_authorize hannounced fun ⟨o, grant⟩ seen' hauth => ?_
  dsimp only
  cases UserStatus.ofText status with
  | none => trivial
  | some status =>
    refine vetted_getOrgUser fun u seen'' hsub hbelongs => ?_
    refine vetted_administer (hauth.mono hsub) ?_ (vetted_userAgain _)
    exact hbelongs

theorem vetted_createApiKey (name role : String) :
    Vetted (accessSchema H operator) (createApiKey H hd name role) (fun _ _ => True) seen := by
  refine vetted_authorize hannounced fun ⟨o, grant⟩ seen' hauth => ?_
  dsimp only
  cases Role.ofText role with
  | none => trivial
  | some role =>
    refine vetted_draw fun new => ?_
    obtain ⟨d, hd, -⟩ := hauth.1
    refine vetted_administer hauth ⟨d, hd, ?_⟩ (vetted_look fun d' _ => ?_)
    · simp [AdminWrite.within]
    · split <;> trivial

theorem vetted_revokeApiKey (apiKeyId : Uuid) :
    Vetted (accessSchema H operator) (revokeApiKey H hd apiKeyId) (fun _ _ => True) seen := by
  refine vetted_authorize hannounced fun ⟨o, grant⟩ seen' hauth => ?_
  refine vetted_look fun d _ => ?_
  cases hk : d.apiKey apiKeyId with
  | none => trivial
  | some key =>
    have hid : key.id = apiKeyId := Rows.key_of_get hk
    dsimp only
    split
    · trivial
    next horg =>
    split
    · refine vetted_draw fun new => ?_
      refine vetted_administer (f := pure) (hauth.mono (List.subset_cons_self _ _)) (Saw.head ?_) trivial
      simp [AdminWrite.within, AccessTables.belongs, hid, hk, not_not.1 horg]
    · trivial

theorem vetted_inviteMember (email role : String) :
    Vetted (accessSchema H operator) (inviteMember H hd email role) (fun _ _ => True) seen := by
  refine vetted_authorize hannounced fun ⟨o, grant⟩ seen' hauth => ?_
  dsimp only
  cases Role.ofText role with
  | none => trivial
  | some role =>
    refine vetted_look fun d _ => ?_
    split
    · trivial
    refine vetted_draw fun new => ?_
    refine vetted_administer (hauth.mono (List.subset_cons_self _ _)) (Saw.head ?_)
      (checked_seq (vetted_invitationAgain _) fun _ _ _ => trivial)
    simp [AdminWrite.within]

theorem vetted_revokeMemberInvitation (invitationId : Uuid) :
    Vetted (accessSchema H operator) (Routers.revokeInvitation H hd invitationId) (fun _ _ => True)
      seen := by
  refine vetted_authorize hannounced fun ⟨o, grant⟩ seen' hauth => ?_
  refine vetted_look fun d _ => ?_
  cases hi : d.invitation invitationId with
  | none => trivial
  | some invitation =>
    have hid : invitation.id = invitationId := Rows.key_of_get hi
    dsimp only
    split
    · trivial
    next horg =>
    split
    · trivial
    refine vetted_administer (hauth.mono (List.subset_cons_self _ _)) (Saw.head ?_)
      (vetted_invitationAgain _)
    simp [AdminWrite.within, hid, hi, not_not.1 horg]

end Administration

section

open Routers

theorem vetted_login (email password : String) :
    Vetted (accessSchema H operator) (login H email password) (fun _ _ => True) seen := by
  refine checked_bind (vetted_look fun d _ => ?_)
  split
  · trivial
  · split
    · refine vetted_look fun d' _ => ?_
      refine vetted_draw fun new => vetted_commit (supported_none rfl) (vetted_look fun d'' _ => ?_)
      split <;> trivial
    · trivial

theorem vetted_logout (authorization : Option String) :
    Vetted (accessSchema H operator) (logout H authorization) (fun _ _ => True) seen := by
  unfold logout revokeSessionForToken
  cases bearerToken H authorization with
  | none => trivial
  | some token =>
    dsimp only
    cases H.platform.uuid token with
    | none => trivial
    | some sessionId =>
      refine vetted_look fun d _ => ?_
      cases d.session sessionId with
      | none => trivial
      | some session =>
        dsimp only
        split
        · exact vetted_draw fun new => vetted_commit (f := pure) (supported_none rfl) trivial
        · trivial

theorem AccessTables.invitation_of_token (hd : d.admitted = true) {tokenHash : String}
    {i : OrganizationInvitation} (h : d.invitationOf tokenHash = some i) :
    d.invitation i.id = some i := by
  obtain ⟨hkeyed, -⟩ := Bool.and_eq_true_iff.1 hd
  obtain ⟨-, -, -, -, -, -, hids, -⟩ := of_decide_eq_true hkeyed
  exact Rows.get_of_mem hids (List.mem_of_find?_eq_some h)

theorem vetted_acceptMemberInvitation (rawToken name password : String) :
    Vetted (accessSchema H operator) (Routers.acceptInvitation H rawToken name password)
      (fun _ _ => True) seen := by
  unfold Routers.acceptInvitation
  split
  · trivial
  refine vetted_look fun d hd => ?_
  cases hi : d.invitationOf (H.hashApiKey rawToken) with
  | none => trivial
  | some invitation =>
    dsimp only
    split
    · trivial
    next hpending =>
    refine vetted_draw fun new => ?_
    split
    · exact vetted_commit (supported_none rfl) trivial
    refine vetted_look fun d' _ => ?_
    split
    · trivial
    refine vetted_commit (supported_one rfl (List.mem_cons_of_mem _ List.mem_cons_self) ?_)
      (vetted_userAgain _)
    simp [AccessTables.invitation_of_token hd hi, not_not.1 hpending]

theorem vetted_newOrganization (name ownerEmail ownerName : String) (environment : Environment) :
    Vetted (accessSchema H operator) (createOrganization H name ownerEmail ownerName environment)
      (fun _ seen => seen ≠ []) seen := by
  refine vetted_draw fun _ => vetted_draw fun _ => vetted_commit (supported_none rfl) ?_
  refine checked_bind (vetted_look fun d _ => ?_)
  split
  · trivial
  · exact checked_bind (vetted_look fun d' _ => by split <;> simp [Checked])

theorem vetted_moveOrganization {source target : OrganizationStatus} {action key : String}
    (hkey : Announced H operator (some key)) (hleft : source ≠ .archived) (organizationId : Uuid) :
    Vetted (accessSchema H operator) (moveOrganization H source target action key organizationId)
      (fun _ _ => True) seen := by
  refine vetted_verifyOperatorKey hkey fun hoperator => ?_
  refine vetted_look fun d _ => ?_
  cases ho : d.organization organizationId with
  | none => trivial
  | some o =>
    have hid := AccessTables.organization_id ho
    dsimp only
    split
    · trivial
    next hsource =>
    refine vetted_commit (supported_of rfl
      ⟨Saw.head hoperator, Saw.head (decide_eq_true hleft), Saw.head ?_⟩) (vetted_organizationAgain _)
    simp [AccessTables.organizationIs, hid, ho, not_not.1 hsource]

theorem vetted_createSandboxOrganization (email : String) (name : Option String) :
    Vetted (accessSchema H operator) (createSandboxOrganization H email name) (fun _ _ => True)
      seen := by
  refine vetted_look fun d _ => ?_
  split
  · trivial
  refine checked_seq (vetted_newOrganization _ _ _ _) fun r seen' hseen => ?_
  obtain ⟨d', hd'⟩ := List.exists_mem_of_ne_nil _ hseen
  exact vetted_draw fun new => vetted_commit (supported_one rfl hd' (decide_eq_true rfl)) trivial

theorem vetted_ensureOwnerBootstrapped (organizationName ownerEmail : String) :
    Vetted (accessSchema H operator) (ensureOwnerBootstrapped H organizationName ownerEmail)
      (fun _ _ => True) seen := by
  refine vetted_look fun d _ => ?_
  split
  · exact checked_seq (vetted_newOrganization _ _ _ _) fun _ _ _ => trivial
  · trivial

end

theorem AccessRequest.announced {r : AccessRequest} (h : r.keyed H = true → operator = true) :
    Announced H operator r.operatorKey := by
  intro hset hkey
  refine h ?_
  simp [AccessRequest.keyed, hkey, hset]

/-- A request whose result is not looked at. -/
theorem vetted_ignored {p : AccessProg α} (h : Vetted (accessSchema H operator) p (fun _ _ => True) []) :
    Vetted (accessSchema H operator) (do let _ ← p; return ()) (fun _ _ => True) [] :=
  checked_seq h fun _ _ _ => trivial

theorem access_checks (r : AccessRequest) (h : r.keyed H = true → operator = true) :
    Checks (accessSchema H operator) (r.run H) := by
  have hannounced := AccessRequest.announced h
  refine checks_session ?_
  cases r with
  | login email password => exact vetted_ignored (vetted_login email password)
  | logout authorization => exact vetted_logout authorization
  | setupOwner hd email password => exact vetted_ignored (vetted_setupOwner hannounced email password)
  | createUser hd email name role => exact vetted_ignored (vetted_createUser hannounced email name role)
  | updateUserRole hd id role => exact vetted_ignored (vetted_updateUserRole hannounced id role)
  | updateUserStatus hd id status => exact vetted_ignored (vetted_updateUserStatus hannounced id status)
  | createApiKey hd name role => exact vetted_ignored (vetted_createApiKey hannounced name role)
  | revokeApiKey hd id => exact vetted_revokeApiKey hannounced id
  | inviteMember hd email role => exact vetted_ignored (vetted_inviteMember hannounced email role)
  | revokeInvitation hd id => exact vetted_ignored (vetted_revokeMemberInvitation hannounced id)
  | acceptInvitation rawToken name password =>
    exact vetted_ignored (vetted_acceptMemberInvitation rawToken name password)
  | createOrganization key name ownerEmail ownerName =>
    exact vetted_ignored (vetted_verifyOperatorKey hannounced fun _ =>
      checked_mono (vetted_newOrganization name ownerEmail ownerName .production)
        (fun _ _ _ => trivial) fun _ _ _ => trivial)
  | deactivate key id => exact vetted_ignored (vetted_moveOrganization hannounced (by decide) id)
  | reactivate key id => exact vetted_ignored (vetted_moveOrganization hannounced (by decide) id)
  | archive key id => exact vetted_ignored (vetted_moveOrganization hannounced (by decide) id)
  | createSandbox email name => exact vetted_ignored (vetted_createSandboxOrganization email name)
  | bootstrap name email => exact vetted_ensureOwnerBootstrapped name email

end

end PayReality
