import PayReality.Access.AccessChecks

/-!
# Organizations that nobody can administer

A write to the users, keys and invitations of an organization takes the operator key, or a token of an
active owner of that organization, and an organization that is active. So an organization without an
owner keeps what it has as long as the operator key is not used, and one that is archived keeps it even
then, but for invitations that are accepted (`no_escalation`, `archived_is_closed`). A token that was
revoked stands for nobody (`revoked_token_powerless`).
-/

namespace PayReality

open Program RecordProg AuthService

/-! ## What every change keeps -/

/-- A user stays in its organization. -/
def UserRow.Continues (u u' : UserRow) : Prop := u'.organizationId = u.organizationId

/-- A session stays the user's, and revoked. -/
structure UserSession.Continues (s s' : UserSession) : Prop where
  userId : s'.userId = s.userId
  revoked : s.revokedAt ≠ none → s'.revokedAt ≠ none

structure ApiKey.Continues (k k' : ApiKey) : Prop where
  organizationId : k'.organizationId = k.organizationId
  keyHash : k'.keyHash = k.keyHash
  revoked : k.revokedAt ≠ none → k'.revokedAt ≠ none

namespace AccessTables

structure Continues (d d' : AccessTables) : Prop where
  organizations : ∀ id, (d.organization id).isSome → (d'.organization id).isSome
  users : ∀ id u, d.user id = some u → ∃ u', d'.user id = some u' ∧ u.Continues u'
  sessions : ∀ id s, d.session id = some s → ∃ s', d'.session id = some s' ∧ s.Continues s'
  apiKeys : ∀ id k, d.apiKey id = some k → ∃ k', d'.apiKey id = some k' ∧ k.Continues k'
  invitations : ∀ id i, d.invitation id = some i →
    ∃ i', d'.invitation id = some i' ∧ i'.organizationId = i.organizationId

theorem Continues.refl (d : AccessTables) : d.Continues d :=
  ⟨fun _ h => h, fun _ u h => ⟨u, h, rfl⟩, fun _ s h => ⟨s, h, rfl, fun h => h⟩,
    fun _ k h => ⟨k, h, rfl, rfl, fun h => h⟩, fun _ i h => ⟨i, h, rfl⟩⟩

theorem Continues.trans {d d' d'' : AccessTables} (h : d.Continues d') (h' : d'.Continues d'') :
    d.Continues d'' where
  organizations id hid := h'.organizations id (h.organizations id hid)
  users id u hu := by
    obtain ⟨u', hu', horg⟩ := h.users id u hu
    obtain ⟨u'', hu'', horg'⟩ := h'.users id u' hu'
    exact ⟨u'', hu'', horg'.trans horg⟩
  sessions id s hs := by
    obtain ⟨s', hs', hc⟩ := h.sessions id s hs
    obtain ⟨s'', hs'', hc'⟩ := h'.sessions id s' hs'
    exact ⟨s'', hs'', hc'.userId.trans hc.userId, fun hr => hc'.revoked (hc.revoked hr)⟩
  apiKeys id k hk := by
    obtain ⟨k', hk', hc⟩ := h.apiKeys id k hk
    obtain ⟨k'', hk'', hc'⟩ := h'.apiKeys id k' hk'
    exact ⟨k'', hk'', hc'.organizationId.trans hc.organizationId, hc'.keyHash.trans hc.keyHash,
      fun hr => hc'.revoked (hc.revoked hr)⟩
  invitations id i hi := by
    obtain ⟨i', hi', horg⟩ := h.invitations id i hi
    obtain ⟨i'', hi'', horg'⟩ := h'.invitations id i' hi'
    exact ⟨i'', hi'', horg'.trans horg⟩

/-! ### Rows that are added and rows that are updated -/

section

variable {d : AccessTables} {id : Uuid}

theorem get_append_of_some {α : Type} {key : α → Uuid} {rows : List α} {r r' : α}
    (h : Rows.get key rows id = some r) : Rows.get key (rows ++ [r']) id = some r := by
  rw [Rows.get_append, h]
  rfl

theorem continues_users {users : List UserRow}
    (h : ∀ id u, d.user id = some u →
      ∃ u', Rows.get (fun u : UserRow => u.id) users id = some u' ∧ u.Continues u') :
    d.Continues { d with users } :=
  { Continues.refl d with users := h }

theorem continues_addUser (row : UserRow) : d.Continues { d with users := d.users ++ [row] } :=
  continues_users fun _ u hu => ⟨u, get_append_of_some hu, rfl⟩

theorem continues_updateUser {f : UserRow → UserRow} (hid : ∀ u, (f u).id = u.id)
    (horg : ∀ u, (f u).organizationId = u.organizationId) :
    d.Continues { d with users := Rows.update (fun u => u.id) d.users id f } :=
  continues_users fun _ _ hu => Rows.exists_get_update (R := UserRow.Continues) hid (fun _ => rfl)
    (fun u _ => horg u) hu

theorem continues_addApiKey (row : ApiKey) : d.Continues { d with apiKeys := d.apiKeys ++ [row] } :=
  { Continues.refl d with
    apiKeys := fun _ k hk => ⟨k, get_append_of_some hk, rfl, rfl, fun h => h⟩ }

theorem continues_addInvitation (row : OrganizationInvitation) :
    d.Continues { d with invitations := d.invitations ++ [row] } :=
  { Continues.refl d with invitations := fun _ i hi => ⟨i, get_append_of_some hi, rfl⟩ }

theorem continues_updateInvitation {f : OrganizationInvitation → OrganizationInvitation}
    (hid : ∀ i, (f i).id = i.id) (horg : ∀ i, (f i).organizationId = i.organizationId) :
    d.Continues { d with invitations := Rows.update (fun i => i.id) d.invitations id f } :=
  { Continues.refl d with
    invitations := fun _ _ hi => Rows.exists_get_update
      (R := fun i i' : OrganizationInvitation => i'.organizationId = i.organizationId) hid
      (fun _ => rfl) (fun i _ => horg i) hi }

theorem AdminWrite.continues_apply (write : AdminWrite) (d : AccessTables) :
    d.Continues (write.apply d) := by
  cases write with
  | addUser row => exact continues_addUser row
  | setRole id role => exact continues_updateUser (fun _ => rfl) fun _ => rfl
  | setStatus id status => exact continues_updateUser (fun _ => rfl) fun _ => rfl
  | setOwner id email passwordHash => exact continues_updateUser (fun _ => rfl) fun _ => rfl
  | addApiKey row secret => exact continues_addApiKey row
  | revokeApiKey id now =>
    exact { Continues.refl d with
      apiKeys := fun _ _ hk => Rows.exists_get_update (R := ApiKey.Continues)
        (k := id) (f := fun k : ApiKey => { k with revokedAt := some now }) (fun _ => rfl)
        (fun _ => ⟨rfl, rfl, fun h => h⟩) (fun _ _ => ⟨rfl, rfl, fun _ h => (by cases h)⟩) hk }
  | invite row => exact continues_addInvitation row
  | revokeInvitation id => exact continues_updateInvitation (fun _ => rfl) fun _ => rfl

theorem continues_apply (w : AccessChange) (d : AccessTables) : d.Continues (w.apply d) := by
  cases w with
  | administer grant o write =>
    obtain ⟨h₁, h₂, h₃, h₄, h₅⟩ := AdminWrite.continues_apply write d
    exact ⟨h₁, h₂, h₃, h₄, h₅⟩
  | accept id user =>
    exact (continues_addUser user).trans (continues_updateInvitation (fun _ => rfl) fun _ => rfl)
  | expire id => exact continues_updateInvitation (fun _ => rfl) fun _ => rfl
  | login session =>
    exact { Continues.refl d with
      sessions := fun _ s hs => ⟨s, get_append_of_some hs, rfl, fun h => h⟩ }
  | logout id now =>
    exact { Continues.refl d with
      sessions := fun _ _ hs => Rows.exists_get_update (R := UserSession.Continues)
        (k := id) (f := fun s : UserSession => { s with revokedAt := some now }) (fun _ => rfl)
        (fun _ => ⟨rfl, fun h => h⟩) (fun _ _ => ⟨rfl, fun _ h => (by cases h)⟩) hs }
  | createOrganization organization owner =>
    have h := continues_addUser (d := d) { owner with organizationId := organization.id }
    refine { Continues.refl d with users := h.users, organizations := fun id hid => ?_ }
    obtain ⟨o, ho⟩ := Option.isSome_iff_exists.1 hid
    exact Option.isSome_iff_exists.2 ⟨o, get_append_of_some ho⟩
  | setOrganizationStatus id source target =>
    refine { Continues.refl d with organizations := fun id' hid => ?_ }
    obtain ⟨o, ho⟩ := Option.isSome_iff_exists.1 hid
    obtain ⟨o', ho', -⟩ := Rows.exists_get_update (k := id) (R := fun _ _ => True)
      (f := fun o : OrganizationRow => { o with status := target }) (fun _ => rfl) (fun _ => trivial)
      (fun _ _ => trivial) ho
    exact Option.isSome_iff_exists.2 ⟨o', ho'⟩
  | addSandboxKey row secret => exact continues_addApiKey row

end

/-! ## Whom a token stands for -/

/-- The keys that are stored are those that were shown. -/
structure Sound (H : AccessHost) (d : AccessTables) : Prop where
  admitted : d.admitted = true
  issued : ∀ k ∈ d.apiKeys, ∃ secret, k.keyHash = (generateApiKey H secret).2

end AccessTables

/-- No API key has the hash of a text that is an id. -/
def AccessHost.Separated (H : AccessHost) : Prop :=
  ∀ token secret, H.platform.uuid token ≠ none → H.hashApiKey token ≠ (generateApiKey H secret).2

namespace AccessTables

section

variable {H : AccessHost} {d d' d₁ d₂ : AccessTables} {token : String}

theorem finds_user {id : Uuid} (h : d.finds H token (.user id) = true) :
    ∃ sessionId s, H.platform.uuid token = some sessionId ∧ d.session sessionId = some s ∧
      s.userId = id ∧ s.revokedAt = none := by
  obtain ⟨sessionId, hsession, h⟩ := (Option.any_eq_true _ _).1 h
  obtain ⟨s, hs, h⟩ := (Option.any_eq_true _ _).1 h
  exact ⟨sessionId, s, hsession, hs, of_decide_eq_true h⟩

theorem finds_apiKey (hd : d.admitted = true) {id : Uuid} (h : d.finds H token (.apiKey id) = true) :
    ∃ k, d.apiKey id = some k ∧ k.keyHash = H.hashApiKey token ∧ k.revokedAt = none := by
  obtain ⟨k, hk, h⟩ := (Option.any_eq_true _ _).1 h
  obtain ⟨rfl, hlive⟩ := of_decide_eq_true h
  exact ⟨k, apiKey_of_hash hd hk, by simpa using List.find?_some hk, hlive⟩

theorem apiKey_unique (hd : d.admitted = true) {id₁ id₂ : Uuid} {k₁ k₂ : ApiKey}
    (h₁ : d.apiKey id₁ = some k₁) (h₂ : d.apiKey id₂ = some k₂) (h : k₁.keyHash = k₂.keyHash) :
    id₁ = id₂ := by
  obtain ⟨hkeyed, -⟩ := Bool.and_eq_true_iff.1 hd
  obtain ⟨-, -, -, -, -, hhashes, -⟩ := of_decide_eq_true hkeyed
  have hsame := List.inj_on_of_nodup_map hhashes (Rows.mem_of_get h₁) (Rows.mem_of_get h₂) h
  rw [← Rows.key_of_get h₁, ← Rows.key_of_get h₂, hsame]

/-- A token of a session is no API key. -/
theorem Sound.not_both (hsep : H.Separated) (hd : d.Sound H) {id : Uuid} {k : ApiKey}
    (hk : d.apiKey id = some k) (hhash : k.keyHash = H.hashApiKey token) :
    H.platform.uuid token = none := by
  by_contra hid
  obtain ⟨secret, hsecret⟩ := hd.issued k (Rows.mem_of_get hk)
  exact hsep token secret hid (hhash.symm.trans hsecret)

/-- Whenever it is read, a token stands for the same holder. -/
theorem holder_unique (hsep : H.Separated) (hd : d.admitted = true) (h₁ : d₁.Sound H) (h₂ : d₂.Sound H)
    (hc₁ : d₁.Continues d) (hc₂ : d₂.Continues d) {a b : Holder} (ha : d₁.finds H token a = true)
    (hb : d₂.finds H token b = true) : a = b := by
  cases a with
  | user id₁ =>
    obtain ⟨sessionId, s₁, hsession, hs₁, rfl, -⟩ := finds_user ha
    cases b with
    | user id₂ =>
      obtain ⟨sessionId', s₂, hsession', hs₂, rfl, -⟩ := finds_user hb
      rw [hsession] at hsession'
      cases hsession'
      obtain ⟨s, hs, hcontinues₁⟩ := hc₁.sessions _ _ hs₁
      obtain ⟨s', hs', hcontinues₂⟩ := hc₂.sessions _ _ hs₂
      rw [hs] at hs'
      cases hs'
      rw [← hcontinues₁.userId, hcontinues₂.userId]
    | apiKey id₂ =>
      obtain ⟨k, hk, hhash, -⟩ := finds_apiKey h₂.admitted hb
      rw [h₂.not_both hsep hk hhash] at hsession
      cases hsession
  | apiKey id₁ =>
    obtain ⟨k₁, hk₁, hhash₁, -⟩ := finds_apiKey h₁.admitted ha
    cases b with
    | user id₂ =>
      obtain ⟨sessionId, s, hsession, -⟩ := finds_user hb
      rw [h₁.not_both hsep hk₁ hhash₁] at hsession
      cases hsession
    | apiKey id₂ =>
      obtain ⟨k₂, hk₂, hhash₂, -⟩ := finds_apiKey h₂.admitted hb
      obtain ⟨k, hk, hcontinues₁⟩ := hc₁.apiKeys _ _ hk₁
      obtain ⟨k', hk', hcontinues₂⟩ := hc₂.apiKeys _ _ hk₂
      rw [apiKey_unique hd hk hk' (hcontinues₁.keyHash.trans (hhash₁.trans
        (hhash₂.symm.trans hcontinues₂.keyHash.symm)))]

/-! ## Owners -/

/-- There is an active owner, an owner's key, or an owner's invitation. -/
def HasOwner (O : Uuid) (d : AccessTables) : Prop :=
  (∃ u ∈ d.users, u.organizationId = O ∧ u.status = .active ∧ u.role = .owner) ∨
    (∃ k ∈ d.apiKeys, k.organizationId = O ∧ k.revokedAt = none ∧ k.role = .owner) ∨
      ∃ i ∈ d.invitations, i.organizationId = O ∧ i.status = .pending ∧ i.role = .owner

theorem AdminWrite.isAdministration (write : AdminWrite) :
    write.permission.isAdministration = true := by
  cases write <;> rfl

/-- What was read of a token in different databases is true of an owner of the organization. -/
theorem owner_of_grant (hsep : H.Separated) (hd : d.admitted = true) {P : AccessTables → Prop}
    (hP : ∀ d', P d' → d'.Sound H ∧ d'.Continues d) {permission : Permission}
    (hpermission : permission.isAdministration = true) {O : Uuid} {grant : Grant}
    (hchecks : ∀ c ∈ AccessChange.grantChecks H false permission O grant, ∃ d', P d' ∧ c d' = true) :
    ∃ d', P d' ∧ d'.HasOwner O := by
  cases grant with
  | operator =>
    obtain ⟨-, -, hfalse⟩ := hchecks _ (List.mem_singleton_self _)
    cases hfalse
  | bearer token permitted served =>
    obtain ⟨d₁, h₁, hfinds₁⟩ := hchecks _ List.mem_cons_self
    obtain ⟨d₂, h₂, hpermits⟩ := hchecks _ (List.mem_cons_of_mem _ List.mem_cons_self)
    obtain ⟨d₃, h₃, hfinds₃⟩ :=
      hchecks _ (List.mem_cons_of_mem _ (List.mem_cons_of_mem _ List.mem_cons_self))
    obtain ⟨d₄, h₄, hbelongs⟩ := hchecks _ (List.mem_cons_of_mem _ (List.mem_cons_of_mem _
      (List.mem_cons_of_mem _ (List.mem_singleton_self _))))
    -- the four reads are about one holder
    have hsame := holder_unique hsep hd (hP _ h₁).1 (hP _ h₃).1 (hP _ h₁).2 (hP _ h₃).2 hfinds₁ hfinds₃
    subst hsame
    refine ⟨d₂, h₂, ?_⟩
    cases permitted with
    | user id =>
      obtain ⟨u, hu, hactive, hrole⟩ := by simpa [permits, Option.any_eq_true] using hpermits
      obtain ⟨u', hu', horg⟩ := by simpa [belongs, Option.any_eq_true] using hbelongs
      obtain ⟨v, hv, hcontinues⟩ := (hP _ h₂).2.users _ _ hu
      obtain ⟨v', hv', hcontinues'⟩ := (hP _ h₄).2.users _ _ hu'
      rw [hv] at hv'
      cases hv'
      exact .inl ⟨u, Rows.mem_of_get hu, hcontinues.symm.trans (hcontinues'.trans horg), hactive,
        owner_of_administration hpermission hrole⟩
    | apiKey id =>
      obtain ⟨k, hk, hlive, hrole⟩ := by simpa [permits, Option.any_eq_true] using hpermits
      obtain ⟨k', hk', horg⟩ := by simpa [belongs, Option.any_eq_true] using hbelongs
      obtain ⟨v, hv, hcontinues⟩ := (hP _ h₂).2.apiKeys _ _ hk
      obtain ⟨v', hv', hcontinues'⟩ := (hP _ h₄).2.apiKeys _ _ hk'
      rw [hv] at hv'
      cases hv'
      exact .inr (.inl ⟨k, Rows.mem_of_get hk,
        hcontinues.organizationId.symm.trans (hcontinues'.organizationId.trans horg), hlive,
        owner_of_administration hpermission hrole⟩)

end

/-! ## What an organization has -/

section

variable (O : Uuid) (d : AccessTables)

def usersOf : List UserRow := d.users.filter fun u => u.organizationId = O

def apiKeysOf : List ApiKey := d.apiKeys.filter fun k => k.organizationId = O

def invitationsOf : List OrganizationInvitation :=
  d.invitations.filter fun i => i.organizationId = O

end

/-- The user accepted an invitation of the organization that was pending. -/
def Accepted (O : Uuid) (d₀ : AccessTables) (u : UserRow) : Prop :=
  ∃ i ∈ d₀.invitationsOf O, i.status = .pending ∧ u.invitationId = some i.id ∧ u.email = i.email ∧
    u.role = i.role

/-- Nothing has become of the organization since `d₀`, but for invitations. -/
structure Kept (O : Uuid) (d₀ d : AccessTables) : Prop where
  status : ∀ s, d.organizationIs O s = d₀.organizationIs O s
  apiKeys : d.apiKeysOf O = d₀.apiKeysOf O
  users : d₀.usersOf O ⊆ d.usersOf O
  accepted : ∀ u ∈ d.usersOf O, u ∈ d₀.usersOf O ∨ Accepted O d₀ u
  invitations : ∀ i ∈ d.invitationsOf O, ∃ i₀ ∈ d₀.invitationsOf O, i₀.id = i.id ∧ i₀.email = i.email ∧
    i₀.role = i.role ∧ (i.status = .pending → i₀.status = .pending)

section

variable {O : Uuid} {H : AccessHost} {d₀ d d' : AccessTables}

theorem Kept.refl (O : Uuid) (d : AccessTables) : Kept O d d :=
  ⟨fun _ => rfl, rfl, List.Subset.refl _, fun _ hu => .inl hu,
    fun i hi => ⟨i, hi, rfl, rfl, rfl, fun h => h⟩⟩

/-- Nothing of the organization is written. -/
theorem Kept.of_same (h : Kept O d₀ d) (hstatus : ∀ s, d'.organizationIs O s = d.organizationIs O s)
    (husers : d'.usersOf O = d.usersOf O) (hkeys : d'.apiKeysOf O = d.apiKeysOf O)
    (hinvitations : d'.invitationsOf O = d.invitationsOf O) : Kept O d₀ d' where
  status s := (hstatus s).trans (h.status s)
  apiKeys := hkeys.trans h.apiKeys
  users := husers ▸ h.users
  accepted := husers ▸ h.accepted
  invitations := hinvitations ▸ h.invitations

/-- The owners are those that there were. -/
theorem Kept.hasOwner (h : Kept O d₀ d) (howner : d.HasOwner O) : d₀.HasOwner O := by
  rcases howner with ⟨u, hu, horg, hactive, hrole⟩ | ⟨k, hk, horg, hlive, hrole⟩ |
    ⟨i, hi, horg, hpending, hrole⟩
  · rcases h.accepted u (List.mem_filter.2 ⟨hu, decide_eq_true horg⟩) with hu | ⟨i, hi, hpending, -, -, hsame⟩
    · exact .inl ⟨u, (List.mem_filter.1 hu).1, horg, hactive, hrole⟩
    · obtain ⟨hi, horg⟩ := List.mem_filter.1 hi
      exact .inr (.inr ⟨i, hi, of_decide_eq_true horg, hpending, hsame.symm.trans hrole⟩)
  · have hk : k ∈ d.apiKeysOf O := List.mem_filter.2 ⟨hk, decide_eq_true horg⟩
    rw [h.apiKeys] at hk
    exact .inr (.inl ⟨k, (List.mem_filter.1 hk).1, horg, hlive, hrole⟩)
  · obtain ⟨i₀, hi₀, -, -, hsame, hstill⟩ := h.invitations i (List.mem_filter.2 ⟨hi, decide_eq_true horg⟩)
    obtain ⟨hi₀, horg⟩ := List.mem_filter.1 hi₀
    exact .inr (.inr ⟨i₀, hi₀, of_decide_eq_true horg, hstill hpending, hsame.trans hrole⟩)

/-! ### What is written for another organization -/

theorem filter_update_of_ne {α : Type} {key org : α → Uuid} {rows : List α}
    (hnodup : (rows.map key).Nodup) {id o : Uuid} (ho : o ≠ O) {r : α}
    (hr : Rows.get key rows id = some r) (horg : org r = o) {f : α → α}
    (hf : ∀ a, org (f a) = org a) :
    (Rows.update key rows id f).filter (fun a => org a = O) = rows.filter fun a => org a = O := by
  refine Rows.filter_update fun a ha hid => ?_
  subst hid
  rw [Rows.get_of_mem hnodup ha] at hr
  cases hr
  simp [hf, horg, ho]

theorem nodup_ids (hd : d.admitted = true) :
    (d.users.map fun u => u.id).Nodup ∧ (d.apiKeys.map fun k => k.id).Nodup ∧
      (d.invitations.map fun i => i.id).Nodup := by
  obtain ⟨hkeyed, -⟩ := Bool.and_eq_true_iff.1 hd
  obtain ⟨-, husers, -, -, hkeys, -, hinvitations, -⟩ := of_decide_eq_true hkeyed
  exact ⟨husers, hkeys, hinvitations⟩

/-- Another organization's administration. -/
theorem AdminWrite.same {write : AdminWrite} {o : Uuid} (hd : d.admitted = true) (ho : o ≠ O)
    (hwithin : write.within H o d' = true) (hc : d'.Continues d) :
    (write.apply d).organizations = d.organizations ∧ (write.apply d).usersOf O = d.usersOf O ∧
      (write.apply d).apiKeysOf O = d.apiKeysOf O ∧
      (write.apply d).invitationsOf O = d.invitationsOf O := by
  obtain ⟨husers, hkeys, hinvitations⟩ := nodup_ids hd
  have huser {id : Uuid} {f : UserRow → UserRow} (h : d'.belongs o (.user id) = true)
      (hf : ∀ u, (f u).organizationId = u.organizationId) :
      (Rows.update (fun u => u.id) d.users id f).filter (fun u => u.organizationId = O) =
        d.usersOf O := by
    obtain ⟨u, hu, horg⟩ := (Option.any_eq_true _ _).1 h
    obtain ⟨v, hv, hcontinues⟩ := hc.users _ _ hu
    exact filter_update_of_ne husers ho hv (hcontinues.trans (of_decide_eq_true horg)) hf
  cases write with
  | addUser row =>
    refine ⟨rfl, Rows.filter_append_of_false ?_, rfl, rfl⟩
    simp [show row.organizationId = o from of_decide_eq_true hwithin, ho]
  | setRole id role => exact ⟨rfl, huser hwithin fun _ => rfl, rfl, rfl⟩
  | setStatus id status => exact ⟨rfl, huser hwithin fun _ => rfl, rfl, rfl⟩
  | setOwner id email passwordHash => exact ⟨rfl, huser hwithin fun _ => rfl, rfl, rfl⟩
  | addApiKey row secret =>
    refine ⟨rfl, rfl, Rows.filter_append_of_false ?_, rfl⟩
    obtain ⟨horg, -⟩ := of_decide_eq_true hwithin
    simp [horg, ho]
  | revokeApiKey id now =>
    obtain ⟨k, hk, horg⟩ := (Option.any_eq_true _ _).1 hwithin
    obtain ⟨v, hv, hcontinues⟩ := hc.apiKeys _ _ hk
    exact ⟨rfl, rfl, filter_update_of_ne hkeys ho hv
      (hcontinues.organizationId.trans (of_decide_eq_true horg)) fun _ => rfl, rfl⟩
  | invite row =>
    refine ⟨rfl, rfl, rfl, Rows.filter_append_of_false ?_⟩
    simp [show row.organizationId = o from of_decide_eq_true hwithin, ho]
  | revokeInvitation id =>
    obtain ⟨i, hi, horg⟩ := (Option.any_eq_true _ _).1 hwithin
    obtain ⟨v, hv, hcontinues⟩ := hc.invitations _ _ hi
    exact ⟨rfl, rfl, rfl, filter_update_of_ne hinvitations ho hv
      (hcontinues.trans (of_decide_eq_true horg)) fun _ => rfl⟩

/-! ### Invitations -/

/-- An invitation is moved on. -/
theorem Kept.updateInvitation (h : Kept O d₀ d) {id : Uuid}
    {f : OrganizationInvitation → OrganizationInvitation}
    (hf : ∀ i, (f i).id = i.id ∧ (f i).organizationId = i.organizationId ∧ (f i).email = i.email ∧
      (f i).role = i.role ∧ (f i).status ≠ .pending) :
    Kept O d₀ { d with invitations := Rows.update (fun i => i.id) d.invitations id f } := by
  refine { h with invitations := fun i hi => ?_ }
  obtain ⟨hi, horg⟩ := List.mem_filter.1 hi
  obtain ⟨j, hj, rfl⟩ := List.mem_map.1 hi
  dsimp only at horg ⊢
  split at horg
  · next hid =>
    obtain ⟨hfid, hforg, hfemail, hfrole, hfstatus⟩ := hf j
    rw [hforg] at horg
    obtain ⟨i₀, hi₀, hid₀, hemail, hrole, -⟩ := h.invitations j (List.mem_filter.2 ⟨hj, horg⟩)
    rw [if_pos hid]
    exact ⟨i₀, hi₀, hid₀.trans hfid.symm, hemail.trans hfemail.symm, hrole.trans hfrole.symm,
      fun hpending => absurd hpending hfstatus⟩
  · next hid =>
    rw [if_neg hid]
    exact h.invitations j (List.mem_filter.2 ⟨hj, horg⟩)

/-- A user is added who is not the organization's, or has accepted an invitation of it. -/
theorem Kept.addUser (h : Kept O d₀ d) {row : UserRow}
    (hrow : row.organizationId = O → Accepted O d₀ row) :
    Kept O d₀ { d with users := d.users ++ [row] } := by
  have hfilter : ({ d with users := d.users ++ [row] } : AccessTables).usersOf O =
      d.usersOf O ++ [row].filter fun u => u.organizationId = O := List.filter_append _ _
  refine { h with
    users := fun u hu => hfilter ▸ List.mem_append_left _ (h.users hu)
    accepted := fun u hu => ?_ }
  rw [hfilter] at hu
  rcases List.mem_append.1 hu with hu | hu
  · exact h.accepted u hu
  · obtain ⟨hu, horg⟩ := List.mem_filter.1 hu
    rcases List.mem_singleton.1 hu with rfl
    exact .inr (hrow (of_decide_eq_true horg))

/-! ### A step -/

theorem Kept.createOrganization (h : Kept O d₀ d) {organization : OrganizationRow} {owner : UserRow}
    (hO : (d.organization O).isSome)
    (hadmits : ((AccessChange.createOrganization organization owner).apply d).admitted = true) :
    Kept O d₀ ((AccessChange.createOrganization organization owner).apply d) := by
  obtain ⟨hkeyed, -⟩ := Bool.and_eq_true_iff.1 hadmits
  obtain ⟨horganizations, -⟩ := of_decide_eq_true hkeyed
  obtain ⟨o, ho⟩ := Option.isSome_iff_exists.1 hO
  have hne : organization.id ≠ O := by
    intro hid
    have hnone := Rows.get_of_nodup_append horganizations
    rw [show organization.id = O from hid, show Rows.get _ d.organizations O = some o from ho] at hnone
    cases hnone
  have hadded : Kept O d₀
      { d with users := d.users ++ [{ owner with organizationId := organization.id }] } :=
    h.addUser fun horg => absurd horg hne
  refine { hadded with status := fun s => ?_ }
  rw [← h.status s]
  unfold organizationIs
  rw [ho, show ((AccessChange.createOrganization organization owner).apply d).organization O = some o from
    get_append_of_some ho]

/-- A step that neither administers the organization nor moves it. -/
theorem Kept.step {operator : Bool} {c : AccessChange} (h : Kept O d₀ d) (hd : d.admitted = true)
    (hO₀ : (d₀.organization O).isSome) (hO : (d.organization O).isSome) (hfresh : c.fresh d₀ = true)
    (hadmits : (c.apply d).admitted = true)
    (hchecks : ∀ c' ∈ c.checks H operator, ∃ d', Kept O d₀ d' ∧ d'.Continues d ∧ c' d' = true)
    (hadminister : ∀ grant write, c ≠ .administer grant O write)
    (hmove : ∀ source target, c ≠ .setOrganizationStatus O source target) : Kept O d₀ (c.apply d) := by
  cases c with
  | administer grant o write =>
    have ho : o ≠ O := fun ho => hadminister grant write (ho ▸ rfl)
    obtain ⟨d', -, hc, hwithin⟩ := hchecks _ (List.mem_cons_of_mem _ List.mem_cons_self)
    obtain ⟨horganizations, husers, hkeys, hinvitations⟩ := AdminWrite.same hd ho hwithin hc
    refine h.of_same (fun s => ?_) husers hkeys hinvitations
    show Option.any _ (Rows.get _ (write.apply d).organizations O) = _
    rw [horganizations]
    rfl
  | accept id user =>
    obtain ⟨d', hkept, -, hpending⟩ := hchecks _ (List.mem_singleton_self _)
    obtain ⟨i, hi, hpending⟩ := (Option.any_eq_true _ _).1 hpending
    obtain ⟨hpending, horg, hemail, hrole, hfrom⟩ := of_decide_eq_true hpending
    refine (h.addUser fun hO => ?_).updateInvitation fun i => ⟨rfl, rfl, rfl, rfl, by simp⟩
    have hmem : i ∈ d'.invitationsOf O :=
      List.mem_filter.2 ⟨Rows.mem_of_get hi, decide_eq_true (horg.symm.trans hO)⟩
    obtain ⟨i₀, hi₀, hid₀, hemail₀, hrole₀, hstill⟩ := hkept.invitations i hmem
    have hid : i.id = id := Rows.key_of_get hi
    exact ⟨i₀, hi₀, hstill hpending, by rw [hfrom, hid₀, hid], hemail.trans hemail₀.symm,
      hrole.trans hrole₀.symm⟩
  | expire id => exact h.updateInvitation fun i => ⟨rfl, rfl, rfl, rfl, by simp⟩
  | login session => exact h.of_same (fun _ => rfl) rfl rfl rfl
  | logout id now => exact h.of_same (fun _ => rfl) rfl rfl rfl
  | createOrganization organization owner => exact h.createOrganization hO hadmits
  | setOrganizationStatus id source target =>
    have hid : O ≠ id := fun hid => hmove source target (hid ▸ rfl)
    refine h.of_same (fun s => ?_) rfl rfl rfl
    have hget : Rows.get (fun o : OrganizationRow => o.id) (Rows.update (fun o => o.id) d.organizations id
        fun o => { o with status := target }) O = d.organization O :=
      Rows.get_update_of_ne (fun _ => rfl) hid
    show Option.any _ (Rows.get _ (Rows.update _ d.organizations id _) O) = _
    rw [hget]
    rfl
  | addSandboxKey row secret =>
    have hne : row.organizationId ≠ O := by
      intro horg
      have hnone : (d₀.organization O).isNone = true := horg ▸ hfresh
      rw [Option.isNone_iff_eq_none.1 hnone] at hO₀
      cases hO₀
    refine h.of_same (fun _ => rfl) rfl (Rows.filter_append_of_false ?_) rfl
    simp [hne]

theorem Sound.step {operator : Bool} {c : AccessChange} (h : d.Sound H)
    (hadmits : (c.apply d).admitted = true)
    (hchecks : ∀ c' ∈ c.checks H operator, ∃ d', c' d' = true) : (c.apply d).Sound H := by
  refine ⟨hadmits, ?_⟩
  have hadd {row : ApiKey} {secret : String} (hrow : row.keyHash = (generateApiKey H secret).2) :
      ∀ k ∈ d.apiKeys ++ [row], ∃ secret, k.keyHash = (generateApiKey H secret).2 := by
    intro k hk
    rcases List.mem_append.1 hk with hk | hk
    · exact h.issued k hk
    · rcases List.mem_singleton.1 hk with rfl
      exact ⟨secret, hrow⟩
  cases c with
  | administer grant o write =>
    cases write with
    | addApiKey row secret =>
      obtain ⟨_, hwithin⟩ := hchecks _ (List.mem_cons_of_mem _ List.mem_cons_self)
      exact hadd (of_decide_eq_true hwithin).2
    | revokeApiKey id now =>
      intro k hk
      obtain ⟨j, hj, rfl⟩ := List.mem_map.1 hk
      dsimp only
      split <;> exact h.issued j hj
    | _ => exact h.issued
  | addSandboxKey row secret =>
    obtain ⟨_, hhash⟩ := hchecks _ (List.mem_singleton_self _)
    exact hadd (of_decide_eq_true hhash)
  | _ => exact h.issued

end

end AccessTables

/-! ## Runs -/

abbrev AccessWorld (ι : Type) : Type :=
  World (RecordStatement AccessChange) (RecordStatement.Answer AccessTables AccessDraw) HTTPException
    (Records AccessTables ι) ι

/-- A run of any requests, any number at once; the operator key is presented only if `operator`. -/
abbrev AccessRun (H : AccessHost) (operator : Bool) (d₀ : AccessTables) {ι : Type} [DecidableEq ι]
    (w : AccessWorld ι) : Prop :=
  Reach (((accessSchema H operator).machine AccessDraw ι).restrict fun _ q s _ =>
      (accessSchema H operator).allows (fun c _ => c.fresh d₀) q s = true)
    {p | ∃ r : AccessRequest, (r.keyed H = true → operator = true) ∧ p = r.run H}
    (fun s => ∃ d ∈ ({d₀} : Set AccessTables), s = Records.init d) w

section

open AccessTables

variable {H : AccessHost} {operator : Bool} {d₀ : AccessTables} {ι : Type} [DecidableEq ι]
  {w : AccessWorld ι}

/-- What the checked changes keep holds of the tables. -/
theorem AccessRun.invariant {J : AccessTables → Prop} (hd₀ : d₀.Sound H) (hJ : J d₀)
    (hstep : ∀ (c : AccessChange) d, d.Sound H → d₀.Continues d → J d → c.fresh d₀ = true →
      (c.apply d).admitted = true →
      (∀ c' ∈ c.checks H operator, ∃ d', (d'.Sound H ∧ d₀.Continues d' ∧ J d') ∧ d'.Continues d ∧
        c' d' = true) → J (c.apply d))
    (h : AccessRun H operator d₀ w) :
    w.store.db.Sound H ∧ J w.store.db ∧ ∀ d ∈ w.store.past, d.Continues w.store.db := by
  have hrun := Reach.records (I := fun d => d.Sound H ∧ d₀.Continues d ∧ J d) (R := Continues)
    (fun p hp => by
      obtain ⟨r, hr, rfl⟩ := hp
      exact access_checks r hr)
    (fun d hd => by
      rcases hd with rfl
      exact ⟨hd₀, .refl _, hJ⟩)
    Continues.refl (fun _ _ _ => Continues.trans) (fun d hd => hd.1.admitted)
    (fun c d hd hchecks hfresh hadmits => by
      obtain ⟨hsound, hcontinues, hJd⟩ := hd
      have hread : ∀ c' ∈ c.checks H operator, ∃ d', (d'.Sound H ∧ d₀.Continues d' ∧ J d') ∧
          d'.Continues d ∧ c' d' = true := hchecks
      have htrue : ∀ c' ∈ c.checks H operator, ∃ d', c' d' = true := fun c' hc' => by
        obtain ⟨d', -, -, htrue⟩ := hread c' hc'
        exact ⟨d', htrue⟩
      exact ⟨⟨hsound.step hadmits htrue, hcontinues.trans (continues_apply c d),
        hstep c d hsound hcontinues hJd hfresh hadmits hread⟩, continues_apply c d⟩) h
  exact ⟨hrun.1.1, hrun.1.2.2, hrun.2⟩

variable {O : Uuid}

/-- **Without the operator key and without an owner, an organization keeps what it has**, whatever is
requested by whomever; those who accept an invitation get the role that they were invited to. -/
theorem no_escalation (hsep : H.Separated) (hd₀ : d₀.Sound H) (hO : (d₀.organization O).isSome)
    (hnone : ¬ d₀.HasOwner O) (h : AccessRun H false d₀ w) :
    Kept O d₀ w.store.db ∧ ¬ w.store.db.HasOwner O := by
  have hkept : Kept O d₀ w.store.db := by
    refine (h.invariant hd₀ (Kept.refl O d₀) fun c d hsound hcontinues hkept hfresh hadmits hchecks => ?_).2.1
    have hread : ∀ c' ∈ c.checks H false, ∃ d', Kept O d₀ d' ∧ d'.Continues d ∧ c' d' = true :=
      fun c' hc' => by
        obtain ⟨d', ⟨-, -, hkept'⟩, hc, htrue⟩ := hchecks c' hc'
        exact ⟨d', hkept', hc, htrue⟩
    refine hkept.step hsound.admitted hO (hcontinues.organizations O hO) hfresh hadmits hread
      (fun grant write hc => ?_) fun source target hc => ?_
    · subst hc
      -- whoever administers it is one of its owners
      have hgrant : ∀ c' ∈ AccessChange.grantChecks H false write.permission O grant,
          ∃ d', (d'.Sound H ∧ Kept O d₀ d' ∧ d'.Continues d) ∧ c' d' = true := fun c' hc' => by
        obtain ⟨d', ⟨hs, -, hk⟩, hc, htrue⟩ :=
          hchecks c' (List.mem_cons_of_mem _ (List.mem_cons_of_mem _ hc'))
        exact ⟨d', ⟨hs, hk, hc⟩, htrue⟩
      obtain ⟨d', ⟨-, hkept', -⟩, howner⟩ := owner_of_grant hsep hsound.admitted
        (fun d' hd' => ⟨hd'.1, hd'.2.2⟩) (AdminWrite.isAdministration write) hgrant
      exact hnone (hkept'.hasOwner howner)
    · subst hc
      obtain ⟨d', -, -, hfalse⟩ := hchecks _ List.mem_cons_self
      cases hfalse
  exact ⟨hkept, fun howner => hnone (hkept.hasOwner howner)⟩

/-- **An organization that is archived stays archived and keeps what it has**, also when the operator
key is used. -/
theorem archived_is_closed (hd₀ : d₀.Sound H) (harchived : d₀.organizationIs O .archived = true)
    (h : AccessRun H operator d₀ w) : Kept O d₀ w.store.db := by
  obtain ⟨o, ho, hstatus⟩ := (Option.any_eq_true _ _).1 harchived
  have hO : (d₀.organization O).isSome := Option.isSome_iff_exists.2 ⟨o, ho⟩
  have honly {d' : AccessTables} (hkept : Kept O d₀ d') {s : OrganizationStatus}
      (hs : d'.organizationIs O s = true) : s = .archived := by
    rw [hkept.status s] at hs
    obtain ⟨o', ho', hs⟩ := (Option.any_eq_true _ _).1 hs
    rw [ho] at ho'
    cases ho'
    exact (of_decide_eq_true hs).symm.trans (of_decide_eq_true hstatus)
  refine (h.invariant hd₀ (Kept.refl O d₀) fun c d hsound hcontinues hkept hfresh hadmits hchecks => ?_).2.1
  have hread : ∀ c' ∈ c.checks H operator, ∃ d', Kept O d₀ d' ∧ d'.Continues d ∧ c' d' = true :=
    fun c' hc' => by
      obtain ⟨d', ⟨-, -, hkept'⟩, hc, htrue⟩ := hchecks c' hc'
      exact ⟨d', hkept', hc, htrue⟩
  refine hkept.step hsound.admitted hO (hcontinues.organizations O hO) hfresh hadmits hread
    (fun grant write hc => ?_) fun source target hc => ?_
  · subst hc
    obtain ⟨d', ⟨-, -, hkept'⟩, -, hactive⟩ := hchecks _ List.mem_cons_self
    cases honly hkept' hactive
  · subst hc
    obtain ⟨-, -, -, hleft⟩ := hchecks _ (List.mem_cons_of_mem _ List.mem_cons_self)
    obtain ⟨d', ⟨-, -, hkept'⟩, -, hsource⟩ := hchecks _ (List.mem_cons_of_mem _
      (List.mem_cons_of_mem _ (List.mem_singleton_self _)))
    exact of_decide_eq_true hleft (honly hkept' hsource)

/-! ### Tokens that are revoked -/

/-- The session or the key of the token is revoked. -/
def AccessTables.Revoked (H : AccessHost) (d : AccessTables) (token : String) : Prop :=
  (∃ id s, H.platform.uuid token = some id ∧ d.session id = some s ∧ s.revokedAt ≠ none) ∨
    ∃ id k, d.apiKey id = some k ∧ k.keyHash = H.hashApiKey token ∧ k.revokedAt ≠ none

/-- Nobody is behind a token that was revoked. -/
theorem AccessTables.Revoked.finds (hsep : H.Separated) {d d' : AccessTables} (hd' : d'.Sound H)
    (hcontinues : d.Continues d') {token : String} (h : d.Revoked H token) (holder : Holder) :
    d'.finds H token holder = false := by
  refine Bool.eq_false_iff.2 fun hfinds => ?_
  rcases h with ⟨id, s, hid, hs, hrevoked⟩ | ⟨id, k, hk, hhash, hrevoked⟩
  · cases holder with
    | user userId =>
      obtain ⟨id', s', hid', hs', -, hlive⟩ := finds_user hfinds
      rw [hid] at hid'
      cases hid'
      obtain ⟨s'', hs'', hc⟩ := hcontinues.sessions _ _ hs
      rw [hs'] at hs''
      cases hs''
      exact hc.revoked hrevoked hlive
    | apiKey keyId =>
      obtain ⟨k, hk, hhash, -⟩ := finds_apiKey hd'.admitted hfinds
      rw [hd'.not_both hsep hk hhash] at hid
      cases hid
  · obtain ⟨k', hk', hc⟩ := hcontinues.apiKeys _ _ hk
    have hhash' := hc.keyHash.trans hhash
    cases holder with
    | user userId =>
      obtain ⟨id', s', hid', -⟩ := finds_user hfinds
      rw [hd'.not_both hsep hk' hhash'] at hid'
      cases hid'
    | apiKey keyId =>
      obtain ⟨k'', hk'', hhash'', hlive⟩ := finds_apiKey hd'.admitted hfinds
      have hsame := apiKey_unique hd'.admitted hk'' hk' (hhash''.trans hhash'.symm)
      rw [← hsame, hk''] at hk'
      cases hk'
      exact hc.revoked hrevoked hlive

/-- **A token that was revoked stands for nobody**, and no request that is made with it after that
administers anything. -/
theorem revoked_token_powerless (hsep : H.Separated) (hd₀ : d₀.Sound H) (token : String)
    (h : AccessRun H operator d₀ w) :
    (∀ d ∈ w.store.past ++ [w.store.db], d.Revoked H token →
      ∀ holder, w.store.db.finds H token holder = false) ∧
    (d₀.Revoked H token → token ∉ d₀.actors → token ∉ w.store.db.actors) := by
  constructor
  · obtain ⟨hsound, -, hpast⟩ := h.invariant (J := fun _ => True) hd₀ trivial
      fun _ _ _ _ _ _ _ _ => trivial
    intro d hd hrevoked holder
    rcases List.mem_append.1 hd with hd | hd
    · exact hrevoked.finds hsep hsound (hpast d hd) holder
    · rcases List.mem_singleton.1 hd with rfl
      exact hrevoked.finds hsep hsound (.refl _) holder
  · intro hrevoked hunused
    refine (h.invariant (J := fun d => token ∉ d.actors) hd₀ hunused
      fun c d hsound hcontinues hJ hfresh hadmits hchecks hmem => ?_).2.1
    cases c with
    | administer grant o write =>
      rcases List.mem_append.1 hmem with hmem | hmem
      · exact hJ hmem
      · cases grant with
        | operator => cases hmem
        | bearer token' permitted served =>
          rcases List.mem_singleton.1 hmem with rfl
          obtain ⟨d', ⟨hs, hc, -⟩, -, hfinds⟩ := hchecks _
            (List.mem_cons_of_mem _ (List.mem_cons_of_mem _ List.mem_cons_self))
          rw [hrevoked.finds hsep hs hc permitted] at hfinds
          cases hfinds
    | _ => exact hJ hmem

end

/-! ### A user and a guest -/

/-- Hashes that hide nothing. -/
def openHost : AccessHost where
  hashApiKey key := key
  hashPassword password := password
  platform := ⟨fun text => if text = "9" then some 9 else none, toString, toString, toString, id,
    fun name pattern => name = pattern⟩
  passwords password hash := password = hash
  adminApiKey := "operator"

theorem openHost_separated : openHost.Separated := by
  intro token secret hid hsame
  have htoken : token = "9" := by
    by_contra hne
    exact hid (show (if token = "9" then some 9 else none) = none from if_neg hne)
  have hlength : token.length = (apiKeyPrefix ++ secret).length := congrArg String.length hsame
  rw [htoken, String.length_append] at hlength
  have hone : "9".length = 1 := by decide
  have hstart : apiKeyPrefix.length = 8 := by decide
  omega

/-- A user with a session and a key, and an invitation. -/
def office (status : OrganizationStatus) (role : Role) (revokedAt : Option Timestamp) :
    AccessTables where
  organizations := [{ id := 1, name := "Office", status }]
  users := [⟨⟨3, 1, "one", "One", "password", role, none⟩, .active⟩]
  sessions := [⟨9, 3, 1000000000, revokedAt⟩]
  apiKeys := [⟨4, 1, "Key", "pr_live_key", .reviewer, none⟩]
  invitations := [⟨5, 1, "two", .auditor, "pri_guest", .pending, 100, none⟩]

theorem office_sound {status : OrganizationStatus} {role : Role} {revokedAt : Option Timestamp}
    (h : (office status role revokedAt).admitted = true) :
    (office status role revokedAt).Sound openHost := by
  refine ⟨h, fun k hk => ?_⟩
  rcases List.mem_singleton.1 hk with rfl
  exact ⟨"key", rfl⟩

/-- What two sessions do in turn, each of which draws the same every time. -/
def playAccess (operator : Bool) (d : AccessTables) (ts : List (Bool × Option AccessRequest × ℕ)) :
    AccessWorld Bool :=
  (((accessSchema openHost operator).scheduleBy fun i =>
      if i then ⟨20, "twenty", 50⟩ else ⟨30, "thirty", 60⟩).restrict fun _ q s _ =>
      (accessSchema openHost operator).allows (fun c _ => c.fresh d) q s).play
    (ts.map fun t => ⟨t.1, t.2.1.map (AccessRequest.run openHost), t.2.2⟩)
    ⟨Records.init d, fun _ => none⟩

theorem playAccess_run {operator : Bool} {d : AccessTables}
    {ts : List (Bool × Option AccessRequest × ℕ)}
    (h : (ts.all fun t => t.2.1.all fun r => !r.keyed openHost || operator) = true) :
    AccessRun openHost operator d (playAccess operator d ts) := by
  refine Schedule.play_reach (.init ⟨d, rfl, rfl⟩) fun t ht p hp => ?_
  obtain ⟨e, he, rfl⟩ := List.mem_map.1 ht
  obtain ⟨r, hr, rfl⟩ := Option.map_eq_some_iff.1 hp
  refine ⟨r, fun hkeyed => ?_, rfl⟩
  have hall := List.all_eq_true.1 h e he
  rw [hr] at hall
  simpa [hkeyed] using hall

def asUser : AccessHeaders := { authorization := some "bearer 9" }

def asKey : AccessHeaders := { authorization := some "bearer pr_live_key" }

/-- The user and the key ask for more; the guest accepts the invitation, and somebody gets a sandbox. -/
def asking : List (Bool × Option AccessRequest × ℕ) :=
  [(true, some (.createUser asUser "three" "Three" "owner"), 30),
    (false, some (.createApiKey asKey "Another" "owner"), 30),
    (true, some (.acceptInvitation "pri_guest" "Guest" "secret-word"), 30),
    (false, some (.createSandbox "four" none), 30)]

theorem no_escalation_asking :
    (playAccess false (office .active .reviewer none) asking).store.db.users.length = 3 ∧
    AccessTables.Kept 1 (office .active .reviewer none)
      (playAccess false (office .active .reviewer none) asking).store.db ∧
    ¬ (playAccess false (office .active .reviewer none) asking).store.db.HasOwner 1 :=
  ⟨by decide +kernel, no_escalation openHost_separated (office_sound (by decide)) (by decide)
    (by unfold AccessTables.HasOwner; decide) (playAccess_run (by decide))⟩

/-- The owner and the operator come too late for what is archived. -/
def afterwards : List (Bool × Option AccessRequest × ℕ) :=
  [(true, some (.createUser asUser "three" "Three" "owner"), 30),
    (false, some (.reactivate "operator" 1), 30),
    (true, some (.acceptInvitation "pri_guest" "Guest" "secret-word"), 30)]

theorem archived_is_closed_afterwards :
    (playAccess true (office .archived .owner none) afterwards).store.db.users.length = 2 ∧
    AccessTables.Kept 1 (office .archived .owner none)
      (playAccess true (office .archived .owner none) afterwards).store.db :=
  ⟨by decide +kernel, archived_is_closed (office_sound (by decide)) (by decide)
    (playAccess_run (by decide))⟩

/-- An owner logs out between two requests with one session, and logs in again. -/
def loggingOut : List (Bool × Option AccessRequest × ℕ) :=
  [(true, some (.createUser asUser "three" "Three" "owner"), 30),
    (true, some (.logout (some "bearer 9")), 30),
    (false, some (.login "one" "password"), 30),
    (true, some (.createUser asUser "four" "Four" "owner"), 30)]

/-- The same from a database in which the session is revoked. -/
def loggedOut : List (Bool × Option AccessRequest × ℕ) :=
  [(true, some (.createUser asUser "three" "Three" "owner"), 30),
    (false, some (.login "one" "password"), 30)]

theorem revoked_token_powerless_loggedOut :
    (playAccess true (office .active .owner none) loggingOut).store.db.users.length = 2 ∧
    (playAccess true (office .active .owner none) loggingOut).store.db.sessions.length = 2 ∧
    (∀ holder, (playAccess true (office .active .owner none) loggingOut).store.db.finds openHost "9"
      holder = false) ∧
    (playAccess true (office .active .owner (some 0)) loggedOut).store.db.sessions.length = 2 ∧
    "9" ∉ (playAccess true (office .active .owner (some 0)) loggedOut).store.db.actors := by
  have hout := revoked_token_powerless openHost_separated (office_sound (by decide)) "9"
    (@playAccess_run true (office .active .owner none) loggingOut (by decide))
  have hrevoked : ((playAccess true (office .active .owner none) loggingOut).store.past.any fun d =>
      (d.session 9).any fun s => s.revokedAt.isSome) = true := by decide +kernel
  obtain ⟨d, hd, hrevoked⟩ := List.any_eq_true.1 hrevoked
  obtain ⟨s, hs, hrevoked⟩ := (Option.any_eq_true _ _).1 hrevoked
  refine ⟨by decide +kernel, by decide +kernel, ?_, by decide +kernel, ?_⟩
  · exact hout.1 d (List.mem_append_left _ hd)
      (.inl ⟨9, s, rfl, hs, Option.isSome_iff_ne_none.1 hrevoked⟩)
  · exact (revoked_token_powerless openHost_separated (office_sound (by decide)) "9"
      (playAccess_run (by decide))).2 (.inl ⟨9, _, rfl, rfl, by decide⟩) (by decide)

end PayReality
