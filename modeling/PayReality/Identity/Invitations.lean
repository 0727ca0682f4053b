import PayReality.Lib.Records
import PayReality.Lib.Rows
import PayReality.Policy.RuntimePolicy
import PayReality.Store.Rows

/-!
# Invitations

`organization_lifecycle_service.py`: an invitation is accepted once, by whoever has its token, and can
be revoked while it is pending. Both operations check the status that they have read and then write by
id; the users of an organization have different addresses. No column of a user says which invitation
it was created from; here a user is kept together with it.

**Main result** `invitation_admits_one`: in a run whose commits find the invitation pending, there is
one user created from it if it is accepted and none otherwise, and none is created after it is revoked.
-/

namespace PayReality

open Program RecordProg

/-! ## Rows -/

inductive Role where
  | owner | governanceAdmin | agentAdmin | reviewer | auditor | executive
  deriving DecidableEq, Repr

/-- `OrganizationInvitation.status`. -/
inductive InvitationStatus where
  | pending | accepted | revoked | expired
  deriving DecidableEq, Repr

/-- `organization_invitations`. -/
structure OrganizationInvitation where
  id : Uuid
  organizationId : Uuid
  email : String
  role : Role
  tokenHash : String
  status : InvitationStatus
  expiresAt : Timestamp
  acceptedByUserId : Option Uuid
  deriving DecidableEq

/-- A row of `users`, and the invitation that it was created from. -/
structure User where
  id : Uuid
  organizationId : Uuid
  email : String
  name : String
  passwordHash : String
  role : Role
  invitationId : Option Uuid
  deriving DecidableEq

/-- `auth_service.hash_api_key` and `auth_service.hash_password`. -/
structure SecretHashes where
  hashApiKey : String → String
  hashPassword : String → String

structure Memberships where
  invitations : List OrganizationInvitation := []
  users : List User := []

namespace Memberships

variable (d : Memberships)

def invitation (id : Uuid) : Option OrganizationInvitation := Rows.get (fun i => i.id) d.invitations id

def invitationOf (tokenHash : String) : Option OrganizationInvitation :=
  d.invitations.find? fun i => i.tokenHash = tokenHash

def user (id : Uuid) : Option User := Rows.get (fun u => u.id) d.users id

def hasUser (organizationId : Uuid) (email : String) : Bool :=
  d.users.any fun u => u.organizationId = organizationId ∧ u.email = email

/-- The users that were created from an invitation. -/
def createdFrom (invitationId : Uuid) : List User :=
  d.users.filter fun u => u.invitationId = some invitationId

/-- The ids, the tokens, and the addresses in an organization are keys. -/
def admitted : Bool :=
  (d.invitations.map fun i => i.id).Nodup ∧ (d.invitations.map fun i => i.tokenHash).Nodup ∧
    (d.users.map fun u => u.id).Nodup ∧ (d.users.map fun u => (u.organizationId, u.email)).Nodup

def updateInvitation (id : Uuid) (f : OrganizationInvitation → OrganizationInvitation) : Memberships :=
  { d with invitations := Rows.update (fun i => i.id) d.invitations id f }

/-- The invitation has the status. -/
def invitationIs (id : Uuid) (status : InvitationStatus) : Bool :=
  (d.invitation id).any fun i => i.status = status

end Memberships

/-! ## Commits -/

inductive MembershipChange where
  /-- The user was flushed in the same transaction. -/
  | accept (invitationId : Uuid) (user : User)
  | expire (invitationId : Uuid)
  | revoke (invitationId : Uuid)

/-- The invitation that is written. -/
def MembershipChange.invitationId : MembershipChange → Uuid
  | .accept id _ | .expire id | .revoke id => id

def MembershipChange.apply : MembershipChange → Memberships → Memberships
  | .accept id user, d =>
    { d with users := d.users ++ [user] }.updateInvitation id fun i =>
      { i with status := .accepted, acceptedByUserId := some user.id }
  | .expire id, d => d.updateInvitation id fun i => { i with status := .expired }
  | .revoke id, d => d.updateInvitation id fun i => { i with status := .revoked }

inductive MembershipError where
  | invitationNotFound
  | invitationNotPending (status : InvitationStatus)
  | invitationExpired
  | emailAlreadyRegistered
  | databaseError
  deriving DecidableEq, Repr

/-- The user is created from the invitation that is accepted. -/
def MembershipChange.attributed : MembershipChange → Bool
  | .accept id user => user.invitationId = some id
  | _ => true

def membershipSchema : Schema Memberships MembershipChange MembershipError where
  apply := MembershipChange.apply
  admits := Memberships.admitted
  checks w := [fun d => d.invitationIs w.invitationId .pending, fun _ => w.attributed]
  refused := .databaseError
  failed := .databaseError

abbrev MembershipProg := RecordProg Memberships MembershipChange Uuid MembershipError

namespace OrganizationLifecycleService

def refreshInvitation (id : Uuid) : MembershipProg OrganizationInvitation := do
  match (← look).invitation id with
  | none => throw .databaseError
  | some i => return i

def refreshUser (id : Uuid) : MembershipProg User := do
  match (← look).user id with
  | none => throw .databaseError
  | some u => return u

def revokeInvitation (invitationId organizationId : Uuid) : MembershipProg OrganizationInvitation := do
  match (← look).invitation invitationId with
  | none => throw .invitationNotFound
  | some invitation =>
    if invitation.organizationId ≠ organizationId then throw .invitationNotFound
    if invitation.status ≠ .pending then throw (.invitationNotPending invitation.status)
    commit (.revoke invitation.id)
    refreshInvitation invitation.id

def acceptInvitation (H : SecretHashes) (rawToken name password : String) (now : Timestamp) :
    MembershipProg User := do
  match (← look).invitationOf (H.hashApiKey rawToken) with
  | none => throw .invitationNotFound
  | some invitation =>
    if invitation.status ≠ .pending then throw (.invitationNotPending invitation.status)
    if invitation.expiresAt ≤ now then
      commit (.expire invitation.id)
      throw .invitationExpired
    if (← look).hasUser invitation.organizationId invitation.email then
      throw .emailAlreadyRegistered
    let user : User :=
      { id := ← draw
        organizationId := invitation.organizationId
        email := invitation.email
        name
        passwordHash := H.hashPassword password
        role := invitation.role
        invitationId := some invitation.id }
    commit (.accept invitation.id user)
    refreshUser user.id

end OrganizationLifecycleService

open OrganizationLifecycleService

/-! ## Requests -/

inductive MembershipRequest where
  | accept (rawToken name password : String) (now : Timestamp)
  | revoke (invitationId organizationId : Uuid)

/-- The request in a session of its own. -/
def MembershipRequest.run (H : SecretHashes) : MembershipRequest → MembershipProg Unit
  | .accept rawToken name password now => recordSession (acceptInvitation H rawToken name password now)
  | .revoke invitationId organizationId => recordSession (revokeInvitation invitationId organizationId)

def membershipRequests (H : SecretHashes) : Set (MembershipProg Unit) :=
  {p | ∃ r : MembershipRequest, p = r.run H}

/-! ## What is committed has been checked -/

section

variable {d : Memberships} {seen : List Memberships}

theorem invitationIs_iff {id : Uuid} {status : InvitationStatus} :
    d.invitationIs id status = true ↔ ∃ i, d.invitation id = some i ∧ i.status = status := by
  unfold Memberships.invitationIs
  cases d.invitation id <;> simp

/-- The invitation with a token is found under its id. -/
theorem invitation_of_token (hd : d.admitted = true) {tokenHash : String} {i : OrganizationInvitation}
    (h : d.invitationOf tokenHash = some i) : d.invitation i.id = some i :=
  Rows.get_of_mem (of_decide_eq_true hd).1 (List.mem_of_find?_eq_some h)

theorem supported_of_pending {w : MembershipChange} {i : OrganizationInvitation} (hd : d ∈ seen)
    (hi : d.invitation w.invitationId = some i) (hpending : ¬ i.status ≠ .pending)
    (hw : w.attributed = true) : membershipSchema.supported w seen :=
  supported_of rfl
    ⟨⟨d, hd, invitationIs_iff.2 ⟨i, hi, not_not.1 hpending⟩⟩, ⟨d, hd, hw⟩⟩

theorem vetted_refreshInvitation (id : Uuid) :
    Vetted membershipSchema (refreshInvitation id) (fun _ _ => True) seen := by
  refine vetted_look fun d _ => ?_
  cases d.invitation id <;> trivial

theorem vetted_refreshUser (id : Uuid) :
    Vetted membershipSchema (refreshUser id) (fun _ _ => True) seen := by
  refine vetted_look fun d _ => ?_
  cases d.user id <;> trivial

theorem vetted_revokeInvitation (invitationId organizationId : Uuid) :
    Vetted membershipSchema (revokeInvitation invitationId organizationId) (fun _ _ => True) [] := by
  refine vetted_look fun d _ => ?_
  cases hi : d.invitation invitationId with
  | none => trivial
  | some i =>
    have hid : i.id = invitationId := Rows.key_of_get hi
    dsimp only
    split
    · trivial
    split
    · trivial
    next hpending =>
    refine vetted_commit (supported_of_pending List.mem_cons_self ?_ hpending rfl)
      (vetted_refreshInvitation _)
    rw [← hid] at hi
    exact hi

theorem vetted_acceptInvitation (H : SecretHashes) (rawToken name password : String) (now : Timestamp) :
    Vetted membershipSchema (acceptInvitation H rawToken name password now) (fun _ _ => True) [] := by
  refine vetted_look fun d hd => ?_
  cases hi : d.invitationOf (H.hashApiKey rawToken) with
  | none => trivial
  | some i =>
    have hget := invitation_of_token hd hi
    dsimp only
    split
    · trivial
    next hpending =>
    split
    · exact vetted_commit (supported_of_pending List.mem_cons_self hget hpending rfl) trivial
    refine vetted_look fun d' _ => ?_
    split
    · trivial
    refine vetted_draw fun id => ?_
    exact vetted_commit
      (supported_of_pending (List.mem_cons_of_mem _ List.mem_cons_self) hget hpending
        (decide_eq_true rfl))
      (vetted_refreshUser _)

theorem membership_checks (H : SecretHashes) :
    ∀ p ∈ membershipRequests H, Checks membershipSchema p := by
  rintro _ ⟨r, rfl⟩
  cases r with
  | accept rawToken name password now =>
    exact checks_session (vetted_acceptInvitation H rawToken name password now)
  | revoke invitationId organizationId =>
    exact checks_session (vetted_revokeInvitation invitationId organizationId)

end

/-! ## Who is admitted -/

namespace Memberships

/-- There is one user from an invitation that is accepted, and none from any other. -/
def Consistent (d : Memberships) : Prop :=
  ∀ id i, d.invitation id = some i →
    (d.createdFrom id).length = if i.status = .accepted then 1 else 0

/-- What is revoked in `d` is so in `d'`. -/
def RevokedIn (d d' : Memberships) : Prop :=
  ∀ id i, d.invitation id = some i → i.status = .revoked →
    ∃ i', d'.invitation id = some i' ∧ i'.status = .revoked

variable {d d' d'' : Memberships} {id : Uuid}

theorem RevokedIn.refl (d : Memberships) : d.RevokedIn d := fun _ i hi hs => ⟨i, hi, hs⟩

theorem RevokedIn.trans (h : d.RevokedIn d') (h' : d'.RevokedIn d'') : d.RevokedIn d'' := by
  intro id i hi hs
  obtain ⟨i', hi', hs'⟩ := h id i hi hs
  exact h' id i' hi' hs'

/-- An update of a pending invitation leaves what is revoked. -/
theorem revokedIn_update {f : OrganizationInvitation → OrganizationInvitation} {us : List User}
    (hf : ∀ i, (f i).id = i.id) (hpending : d.invitationIs id .pending = true) :
    d.RevokedIn ({ d with users := us }.updateInvitation id f) := by
  intro j i hi hs
  refine Rows.exists_get_update (R := fun i i' => i.status = .revoked → i'.status = .revoked) hf
    (fun _ h => h) (fun i' hi' hs' => ?_) hi |>.imp fun _ h => ⟨h.1, h.2 hs⟩
  obtain ⟨i'', hi'', hp⟩ := invitationIs_iff.1 hpending
  rw [show Rows.get (fun i : OrganizationInvitation => i.id) d.invitations id = some i'' from hi''] at hi'
  cases hi'
  rw [hp] at hs'
  cases hs'

/-- An update of one invitation, with the users that go with its new status. -/
theorem consistent_update {f : OrganizationInvitation → OrganizationInvitation} {us : List User}
    (hf : ∀ i, (f i).id = i.id) (hd : d.Consistent)
    (hother : ∀ j, j ≠ id → ({ d with users := us } : Memberships).createdFrom j = d.createdFrom j)
    (hself : ∀ i, d.invitation id = some i →
      (({ d with users := us } : Memberships).createdFrom id).length =
        if (f i).status = .accepted then 1 else 0) :
    ({ d with users := us }.updateInvitation id f).Consistent := by
  intro j i' hi'
  have hget : ({ d with users := us }.updateInvitation id f).invitation j =
      (d.invitation j).map fun i => if i.id = id then f i else i := Rows.get_update hf
  rw [hget] at hi'
  obtain ⟨i, hi, rfl⟩ := Option.map_eq_some_iff.1 hi'
  have hid : i.id = j := Rows.key_of_get hi
  show (({ d with users := us } : Memberships).createdFrom j).length = _
  by_cases hj : j = id
  · subst hj
    rw [if_pos hid]
    exact hself i hi
  · rw [if_neg fun h => hj (hid.symm.trans h), hother j hj]
    exact hd j i hi

end Memberships

/-- The invitation is pending where it is written. -/
def MembershipChange.inTime (w : MembershipChange) (d : Memberships) : Bool :=
  d.invitationIs w.invitationId .pending

theorem MembershipChange.inTime_step {w : MembershipChange} {d : Memberships} (hd : d.Consistent)
    (hw : w.attributed = true) (h : w.inTime d = true) :
    (w.apply d).Consistent ∧ d.RevokedIn (w.apply d) := by
  obtain ⟨i, hi, hpending⟩ := invitationIs_iff.1 h
  -- nobody was created from it
  have hnone : (d.createdFrom w.invitationId).length = 0 := by
    rw [hd _ i hi, hpending]
    rfl
  cases w with
  | accept id user =>
    refine ⟨Memberships.consistent_update (fun _ => rfl) hd (fun j hj => ?_) fun i' _ => ?_,
      Memberships.revokedIn_update (fun _ => rfl) h⟩
    · refine Rows.filter_append_of_false (decide_eq_false fun hu => hj ?_)
      exact Option.some.inj (hu.symm.trans (of_decide_eq_true hw))
    · show ((d.users ++ [user]).filter fun u => u.invitationId = some id).length = 1
      rw [List.filter_append, List.length_append]
      show (d.createdFrom id).length + _ = 1
      have hnew : decide (user.invitationId = some id) = true := hw
      rw [show (d.createdFrom id).length = 0 from hnone, List.filter_singleton, hnew]
      rfl
  | expire id =>
    exact ⟨Memberships.consistent_update (fun _ => rfl) hd (fun _ _ => rfl) fun _ _ => hnone,
      Memberships.revokedIn_update (fun _ => rfl) h⟩
  | revoke id =>
    exact ⟨Memberships.consistent_update (fun _ => rfl) hd (fun _ _ => rfl) fun _ _ => hnone,
      Memberships.revokedIn_update (fun _ => rfl) h⟩

/-! ## Runs -/

abbrev MembershipWorld (ι : Type) : Type :=
  World (RecordStatement MembershipChange) (RecordStatement.Answer Memberships Uuid) MembershipError
    (Records Memberships ι) ι

/-- A run of acceptances and revocations, with the commits that `ok` allows, from tables in which
there is one user from every accepted invitation. -/
abbrev MembershipRun (H : SecretHashes) {ι : Type} [DecidableEq ι]
    (ok : MembershipChange → Memberships → Bool) (w : MembershipWorld ι) : Prop :=
  Reach ((membershipSchema.machine Uuid ι).restrict fun _ q s _ =>
      membershipSchema.allows ok q s = true) (membershipRequests H)
    (fun s => ∃ d ∈ {d : Memberships | d.admitted = true ∧ d.Consistent}, s = Records.init d) w

/-- **An invitation admits at most one member.** -/
theorem invitation_admits_one {H : SecretHashes} {ι : Type} [DecidableEq ι] {w : MembershipWorld ι}
    (h : MembershipRun H MembershipChange.inTime w) :
    (∀ id i, w.store.db.invitation id = some i →
      (w.store.db.createdFrom id).length ≤ 1 ∧
        (i.status = .accepted ↔ ∃ u ∈ w.store.db.users, u.invitationId = some id)) ∧
    ∀ d ∈ w.store.past, ∀ id, d.invitationIs id .revoked = true →
      ∀ u ∈ w.store.db.users, u.invitationId ≠ some id := by
  have hrun := Reach.records (membership_checks H)
    (I := fun d => d.admitted = true ∧ d.Consistent) (R := Memberships.RevokedIn)
    (fun _ hd => hd) Memberships.RevokedIn.refl (fun _ _ _ => Memberships.RevokedIn.trans)
    (fun _ hd => hd.1) (fun c d hd hchecks hok hadmits => ?_) h
  · obtain ⟨⟨-, hconsistent⟩, hrevoked⟩ := hrun
    have hmem {id : Uuid} {u : User} : u ∈ w.store.db.createdFrom id ↔
        u ∈ w.store.db.users ∧ u.invitationId = some id := by
      unfold Memberships.createdFrom
      rw [List.mem_filter, decide_eq_true_eq]
    refine ⟨fun id i hi => ?_, fun d hd id hid u hu huid => ?_⟩
    · have hlength := hconsistent id i hi
      by_cases hs : i.status = .accepted
      · rw [if_pos hs] at hlength
        refine ⟨hlength.le, fun _ => ?_, fun _ => hs⟩
        have hpos : 0 < (w.store.db.createdFrom id).length := by omega
        obtain ⟨u, hu⟩ := List.exists_mem_of_length_pos hpos
        exact ⟨u, hmem.1 hu⟩
      · rw [if_neg hs] at hlength
        refine ⟨by omega, fun h => absurd h hs, fun ⟨u, hu, huid⟩ => ?_⟩
        have := List.length_pos_of_mem (hmem.2 ⟨hu, huid⟩)
        omega
    · obtain ⟨i, hi, hs⟩ := invitationIs_iff.1 hid
      obtain ⟨i', hi', hs'⟩ := hrevoked d hd id i hi hs
      have hlength := hconsistent id i' hi'
      rw [hs', if_neg (by decide)] at hlength
      have := List.length_pos_of_mem (hmem.2 ⟨hu, huid⟩)
      omega
  · obtain ⟨_, _, hattributed⟩ := hchecks (fun _ => c.attributed) (by simp [membershipSchema])
    obtain ⟨hconsistent, hrevoked⟩ := MembershipChange.inTime_step hd.2 hattributed.2 hok
    exact ⟨⟨hadmits, hconsistent⟩, hrevoked⟩

/-! ### An acceptance and a revocation -/

/-- Secrets that are kept as they are. -/
def plainHashes : SecretHashes := ⟨id, id⟩

/-- One pending invitation. -/
def invited : Memberships where
  invitations := [⟨3, 1, "member@org", .reviewer, "token", .pending, 100, none⟩]

theorem invited_consistent : invited.Consistent := by
  intro id i hi
  rcases List.mem_singleton.1 (Rows.mem_of_get hi) with rfl
  rfl

/-- What two sessions do in turn: the request that a session starts, if any, and how many statements
it sends. -/
def membershipTurns (ts : List (Bool × Option MembershipRequest × ℕ)) :
    List (Turn (RecordStatement MembershipChange) (RecordStatement.Answer Memberships Uuid)
      MembershipError Bool) :=
  ts.map fun t => ⟨t.1, t.2.1.map fun r => r.run plainHashes, t.2.2⟩

/-- The turns are played as far as `ok` allows. -/
def playMembership (ok : MembershipChange → Memberships → Bool)
    (ts : List (Bool × Option MembershipRequest × ℕ)) : MembershipWorld Bool :=
  ((membershipSchema.schedule 8).restrict fun _ q s _ => membershipSchema.allows ok q s).play
    (membershipTurns ts) ⟨Records.init invited, fun _ => none⟩

theorem playMembership_run (ok : MembershipChange → Memberships → Bool)
    (ts : List (Bool × Option MembershipRequest × ℕ)) :
    MembershipRun plainHashes ok (playMembership ok ts) := by
  refine Schedule.play_reach (.init ⟨invited, ⟨by decide, invited_consistent⟩, rfl⟩)
    fun t ht p hp => ?_
  obtain ⟨e, -, rfl⟩ := List.mem_map.1 ht
  obtain ⟨r, -, rfl⟩ := Option.map_eq_some_iff.1 hp
  exact ⟨r, rfl⟩

/-- The second session accepts what the first one has accepted, and revokes it. -/
def acceptedFirst : List (Bool × Option MembershipRequest × ℕ) :=
  [(true, some (.accept "token" "Member" "secret" 5), 10),
    (false, some (.accept "token" "Guest" "secret" 6), 10), (false, some (.revoke 3 1), 10)]

theorem invitation_admits_one_in_turn :
    (playMembership MembershipChange.inTime acceptedFirst).store.db.invitationIs 3 .accepted = true ∧
    (∀ id i, (playMembership MembershipChange.inTime acceptedFirst).store.db.invitation id = some i →
      ((playMembership MembershipChange.inTime acceptedFirst).store.db.createdFrom id).length ≤ 1 ∧
        (i.status = .accepted ↔
          ∃ u ∈ (playMembership MembershipChange.inTime acceptedFirst).store.db.users,
            u.invitationId = some id)) ∧
    ∀ d ∈ (playMembership MembershipChange.inTime acceptedFirst).store.past, ∀ id,
      d.invitationIs id .revoked = true →
        ∀ u ∈ (playMembership MembershipChange.inTime acceptedFirst).store.db.users,
          u.invitationId ≠ some id :=
  ⟨by decide +kernel, invitation_admits_one (playMembership_run _ acceptedFirst)⟩

/-- The invitation is revoked when the acceptance has found it pending. -/
def acceptedLate : List (Bool × Option MembershipRequest × ℕ) :=
  [(true, some (.accept "token" "Member" "secret" 5), 3), (false, some (.revoke 3 1), 10), (true, none, 10)]

/-- The invitation is accepted when the revocation has found it pending. -/
def revokedLate : List (Bool × Option MembershipRequest × ℕ) :=
  [(true, some (.revoke 3 1), 1), (false, some (.accept "token" "Member" "secret" 5), 10), (true, none, 10)]

/-- A user is created after the revocation, and an invitation is revoked that a user came from. -/
theorem invitation_accepted_and_revoked :
    (∃ w : MembershipWorld Bool, MembershipRun plainHashes (fun _ _ => true) w ∧
      ∃ d ∈ w.store.past, d.invitationIs 3 .revoked = true ∧ d.createdFrom 3 = [] ∧
        (w.store.db.createdFrom 3).length = 1) ∧
    ∃ w : MembershipWorld Bool, MembershipRun plainHashes (fun _ _ => true) w ∧
      w.Quiescent ∧ w.store.db.invitationIs 3 .revoked = true ∧
        (w.store.db.createdFrom 3).length = 1 := by
  refine ⟨⟨_, playMembership_run _ acceptedLate, ?_⟩, ⟨_, playMembership_run _ revokedLate, ?_⟩⟩
  · have h : (playMembership (fun _ _ => true) acceptedLate).store.past.any (fun d =>
        d.invitationIs 3 .revoked ∧ d.createdFrom 3 = [] ∧
        ((playMembership (fun _ _ => true) acceptedLate).store.db.createdFrom 3).length = 1) = true := by
      decide +kernel
    obtain ⟨d, hd, h⟩ := List.any_eq_true.1 h
    exact ⟨d, hd, of_decide_eq_true h⟩
  · refine ⟨?_, by decide +kernel, by decide +kernel⟩
    have hover : (∀ i, ((playMembership (fun _ _ => true) revokedLate).running i).isNone) := by
      decide +kernel
    exact fun i => Option.isNone_iff_eq_none.1 (hover i)

end PayReality
