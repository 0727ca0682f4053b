import PayReality.Identity.LifecycleServices

/-!
# Terminal states

A signer that is revoked or retired stays so and has no live certificate, and an archived organization
stays archived (`terminal_states_absorb`), in a run in which no other session ends a signer, makes a
certificate of it live or archives an organization between the reads of a transition and its commit.
The services check the status when they read it, not when they commit.
-/

namespace PayReality

open Program RecordProg

/-! ## Signers of one kind -/

namespace SubjectTable

/-- What holds of the certificates. -/
structure Sound (t : SubjectTable) : Prop where
  /-- A certificate is some signer's. -/
  owned : ∀ c ∈ t.certificates, ∃ s ∈ t.subjects, s.id = c.subjectId
  /-- An issued certificate is its signer's only one. -/
  sole : ∀ c ∈ t.certificates, c.status = .issued →
    ∀ c' ∈ t.certificates, c'.subjectId = c.subjectId → c' = c
  /-- A signer that has ended has no live certificate. -/
  dead : ∀ s ∈ t.subjects, s.status.terminal = true →
    ∀ c ∈ t.certificates, c.subjectId = s.id → c.status.live = false

/-- Signers that have ended in `t` have ended in `t'`, and certificates keep their owners. -/
structure Continues (t t' : SubjectTable) : Prop where
  ended : ∀ id s, t.subject id = some s → s.status.terminal = true →
    ∃ s', t'.subject id = some s' ∧ s'.status.terminal = true
  owner : ∀ id c, t.certificate id = some c →
    ∃ c', t'.certificate id = some c' ∧ c'.subjectId = c.subjectId

variable {t t' t'' : SubjectTable} {id : Uuid}

theorem Continues.refl (t : SubjectTable) : t.Continues t :=
  ⟨fun _ s hs hterminal => ⟨s, hs, hterminal⟩, fun _ c hc => ⟨c, hc, rfl⟩⟩

theorem Continues.trans (h : t.Continues t') (h' : t'.Continues t'') : t.Continues t'' := by
  refine ⟨fun id s hs hterminal => ?_, fun id c hc => ?_⟩
  · obtain ⟨s', hs', hterminal'⟩ := h.ended id s hs hterminal
    exact h'.ended id s' hs' hterminal'
  · obtain ⟨c', hc', howner⟩ := h.owner id c hc
    obtain ⟨c'', hc'', howner'⟩ := h'.owner id c' hc'
    exact ⟨c'', hc'', howner'.trans howner⟩

theorem Sound.empty : Sound {} :=
  ⟨fun _ h => (by cases h), fun _ h => (by cases h), fun _ h => (by cases h)⟩

/-! ### What the operations do -/

theorem certificateIds_nodup (h : t.admitted = true) : (t.certificates.map (·.id)).Nodup :=
  (of_decide_eq_true h).2.1

/-- The row that is found under the id of a certificate is the certificate. -/
theorem owner_of_certificate (h : t.admitted = true) {c row : CertificateRow}
    (hc : c ∈ t.certificates) (hrow : t.certificate c.id = some row) : row = c :=
  Option.some.inj (hrow.symm.trans (Rows.get_of_mem (certificateIds_nodup h) hc))

/-- The signer has ended. -/
def ended (t : SubjectTable) (id : Uuid) : Bool := (t.subject id).any fun s => s.status.terminal

/-- The live certificates of a signer. -/
def liveOf (t : SubjectTable) (id : Uuid) : List Uuid :=
  (t.certificates.filter fun c => c.subjectId = id ∧ c.status.live).map fun c => c.id

theorem mem_liveOf {c : CertificateRow} (hc : c ∈ t.certificates) (hid : c.subjectId = id)
    (hlive : c.status.live = true) : c.id ∈ t.liveOf id :=
  List.mem_map_of_mem (List.mem_filter.2 ⟨hc, decide_eq_true ⟨hid, hlive⟩⟩)

/-- A signer has one live certificate at most. -/
theorem Sound.live_unique (ht : t.Sound) (h : t.admitted = true) {c c' : CertificateRow}
    (hc : c ∈ t.certificates) (hc' : c' ∈ t.certificates) (hlive : c.status.live = true)
    (hlive' : c'.status.live = true) (hsame : c'.subjectId = c.subjectId) : c' = c := by
  by_cases hissued : c.status = .issued
  · exact ht.sole c hc hissued c' hc' hsame
  by_cases hissued' : c'.status = .issued
  · exact (ht.sole c' hc' hissued' c hc hsame.symm).symm
  -- both are active, which the index allows once
  have hactive : ∀ status : CertificateStatus, status.live = true → status ≠ .issued →
      status = .active := by
    intro status hlive hne
    cases status with
    | issued => exact absurd rfl hne
    | active => rfl
    | rotated | expired | revoked => cases hlive
  refine List.inj_on_of_nodup_map (of_decide_eq_true h).2.2 (List.mem_filter.2 ⟨hc', ?_⟩)
    (List.mem_filter.2 ⟨hc, ?_⟩) hsame
  · exact decide_eq_true (hactive _ hlive' hissued')
  · exact decide_eq_true (hactive _ hlive hissued)

/-- The live certificate of a signer is the one that a look for it finds. -/
theorem Sound.certificateOf_live (ht : t.Sound) (h : t.admitted = true) {c : Uuid}
    (hc : c ∈ t.liveOf id) :
    ((t.certificateOf id CertificateStatus.live).map fun c => c.id) = some c := by
  obtain ⟨row, hrow, rfl⟩ := List.mem_map.1 hc
  obtain ⟨hmem, hrow⟩ := List.mem_filter.1 hrow
  obtain ⟨howner, hlive⟩ := of_decide_eq_true hrow
  cases hfind : t.certificateOf id CertificateStatus.live with
  | none => exact absurd hrow (List.find?_eq_none.1 hfind row hmem)
  | some found =>
    have hfound := List.find?_some hfind
    obtain ⟨hfoundOwner, hfoundLive⟩ := of_decide_eq_true hfound
    have hsame := ht.live_unique h hmem (List.mem_of_find?_eq_some hfind) hlive hfoundLive
      (hfoundOwner.trans howner.symm)
    rw [hsame]
    rfl

theorem register_sound {ownerId certificateId : Uuid} (ht : t.Sound)
    (h : (t.register id ownerId certificateId).admitted = true) :
    (t.register id ownerId certificateId).Sound ∧
      t.Continues (t.register id ownerId certificateId) := by
  have hnew : ∀ s ∈ t.subjects, s.id ≠ id := fun s hs =>
    Rows.key_ne_of_nodup_append (r := ⟨id, ownerId, .registered⟩) (of_decide_eq_true h).1 hs
  have hnone : ∀ c ∈ t.certificates, c.subjectId ≠ id := by
    intro c hc hid
    obtain ⟨s, hs, hsid⟩ := ht.owned c hc
    exact hnew s hs (hsid.trans hid)
  refine ⟨⟨fun c hc => ?_, fun c hc hissued c' hc' hsame => ?_, fun s hs hterminal c hc hid => ?_⟩,
    ⟨fun j s hs hterminal => ⟨s, ?_, hterminal⟩, fun j c hc => ⟨c, ?_, rfl⟩⟩⟩
  · rcases List.mem_append.1 hc with hc | hc
    · obtain ⟨s, hs, hsid⟩ := ht.owned c hc
      exact ⟨s, List.mem_append_left _ hs, hsid⟩
    · rw [List.mem_singleton.1 hc]
      exact ⟨⟨id, ownerId, .registered⟩, List.mem_append_right _ (List.mem_singleton_self _), rfl⟩
  · rcases List.mem_append.1 hc with hc | hc <;> rcases List.mem_append.1 hc' with hc' | hc'
    · exact ht.sole c hc hissued c' hc' hsame
    · rw [List.mem_singleton.1 hc'] at hsame
      exact absurd hsame.symm (hnone c hc)
    · rw [List.mem_singleton.1 hc] at hsame
      exact absurd hsame (hnone c' hc')
    · exact (List.mem_singleton.1 hc').trans (List.mem_singleton.1 hc).symm
  · rcases List.mem_append.1 hs with hs | hs
    · rcases List.mem_append.1 hc with hc | hc
      · exact ht.dead s hs hterminal c hc hid
      · rw [List.mem_singleton.1 hc] at hid
        exact absurd hid.symm (hnew s hs)
    · rw [List.mem_singleton.1 hs] at hterminal
      cases hterminal
  · show Rows.get (·.id) (t.subjects ++ [_]) j = some s
    rw [Rows.get_append, show Rows.get (·.id) t.subjects j = some s from hs]
    rfl
  · show Rows.get (·.id) (t.certificates ++ [_]) j = some c
    rw [Rows.get_append, show Rows.get (·.id) t.certificates j = some c from hc]
    rfl

theorem marks_dead {status : SubjectStatus} (h : status.terminal = true) :
    status.marks.live = false := by
  cases status with
  | registered => cases h
  | active => cases h
  | suspended => cases h
  | revoked => rfl
  | retired => rfl

theorem marks_not_issued (status : SubjectStatus) : status.marks ≠ .issued := by
  cases status <;> exact fun h => by cases h

theorem subject_move {status : SubjectStatus} {certificateId : Option Uuid} {j : Uuid} :
    (t.move id status certificateId).subject j =
      (t.subject j).map fun s => if s.id = id then { s with status } else s :=
  Rows.get_update fun _ => rfl

theorem certificate_move {status : SubjectStatus} {certificateId : Option Uuid} {j : Uuid} :
    (t.move id status certificateId).certificate j = (t.certificate j).map fun c =>
      if certificateId = some c.id then { c with status := status.marks } else c := by
  refine Rows.get_map fun c => ?_
  split <;> rfl

theorem certificate_rotate {old new : Uuid} {j : Uuid} :
    (t.rotate id old new).certificate j = ((t.certificate j).map fun c =>
      if c.id = old then { c with status := .rotated } else c).or
        (Rows.get (·.id) [⟨new, id, .active⟩] j) := by
  refine Rows.get_append.trans (congrArg (Option.or · _) (Rows.get_map fun c => ?_))
  split <;> rfl

/-- A transition of a signer that has not ended, or to an end, at which the certificate that is marked
is the only live one. -/
theorem move_sound {status : SubjectStatus} {certificateId : Option Uuid} (ht : t.Sound)
    (h : t.admitted = true)
    (hcert : ∀ c ∈ certificateId, ∃ row, t.certificate c = some row ∧ row.subjectId = id)
    (hok : ∀ s ∈ t.subjects, s.id = id → s.status.terminal = true → status.terminal = true)
    (hlive : status.terminal = true → ∀ c ∈ t.certificates, c.subjectId = id →
      c.status.live = true → certificateId = some c.id) :
    (t.move id status certificateId).Sound ∧ t.Continues (t.move id status certificateId) := by
  have hmarked : ∀ c ∈ t.certificates, certificateId = some c.id → c.subjectId = id := by
    intro c hc hid
    obtain ⟨row, hrow, howner⟩ := hcert c.id hid
    rw [← owner_of_certificate h hc hrow]
    exact howner
  have hsame (c : CertificateRow) : (if certificateId = some c.id then
      { c with status := status.marks } else c).subjectId = c.subjectId := by
    split <;> rfl
  refine ⟨⟨?_, ?_, ?_⟩, ?_, ?_⟩
  · intro c' hc'
    obtain ⟨c, hc, rfl⟩ := List.mem_map.1 hc'
    obtain ⟨s, hs, hsid⟩ := ht.owned c hc
    refine ⟨if s.id = id then { s with status } else s, List.mem_map_of_mem hs, ?_⟩
    rw [hsame, ← hsid]
    split <;> rfl
  · intro c' hc' hissued d' hd' howner
    obtain ⟨c, hc, rfl⟩ := List.mem_map.1 hc'
    obtain ⟨d, hd, rfl⟩ := List.mem_map.1 hd'
    rw [hsame, hsame] at howner
    have hc' : c.status = .issued := by
      split at hissued
      · exact absurd hissued (marks_not_issued status)
      · exact hissued
    rw [ht.sole c hc hc' d hd howner]
  · intro s' hs' hterminal c' hc' howner
    obtain ⟨s, hs, rfl⟩ := List.mem_map.1 hs'
    obtain ⟨c, hc, rfl⟩ := List.mem_map.1 hc'
    rw [hsame] at howner
    by_cases hid : s.id = id
    · simp only [if_pos hid] at hterminal howner
      rw [hid] at howner
      split
      · exact marks_dead hterminal
      · next hnot =>
        by_contra hc'
        exact hnot (hlive hterminal c hc howner (by simpa using hc'))
    · simp only [if_neg hid] at hterminal howner
      have hnot : certificateId ≠ some c.id := fun hmark =>
        hid (howner.symm.trans (hmarked c hc hmark))
      rw [if_neg hnot]
      exact ht.dead s hs hterminal c hc howner
  · intro j s hs hterminal
    refine ⟨if s.id = id then { s with status } else s, ?_, ?_⟩
    · rw [subject_move, hs]
      rfl
    · split
      · next hid => exact hok s (Rows.mem_of_get hs) hid hterminal
      · exact hterminal
  · intro j c hc
    refine ⟨if certificateId = some c.id then { c with status := status.marks } else c, ?_,
      hsame c⟩
    rw [certificate_move, hc]
    rfl

/-- A rotation of a signer that has not ended. -/
theorem rotate_sound {old new : Uuid} (ht : t.Sound)
    (hcert : ∃ row, t.certificate old = some row ∧ row.subjectId = id)
    (hok : ∀ s ∈ t.subjects, s.id = id → s.status.terminal = false) :
    (t.rotate id old new).Sound ∧ t.Continues (t.rotate id old new) := by
  obtain ⟨row, hrow, howner⟩ := hcert
  have hrowMem : row ∈ t.certificates := Rows.mem_of_get hrow
  have hrowId : row.id = old := Rows.key_of_get hrow
  have hsame (c : CertificateRow) : (if c.id = old then
      { c with status := .rotated } else c).subjectId = c.subjectId := by
    split <;> rfl
  have hissued {c : CertificateRow} (h : (if c.id = old then
      { c with status := .rotated } else c).status = .issued) : c.id ≠ old ∧ c.status = .issued := by
    split at h
    · cases h
    · next hne => exact ⟨hne, h⟩
  refine ⟨⟨?_, ?_, ?_⟩, ?_, ?_⟩
  · intro c' hc'
    rcases List.mem_append.1 hc' with hc' | hc'
    · obtain ⟨c, hc, rfl⟩ := List.mem_map.1 hc'
      rw [hsame]
      exact ht.owned c hc
    · rw [List.mem_singleton.1 hc', ← howner]
      exact ht.owned row hrowMem
  · intro c' hc' hstatus d' hd' hsubject
    rcases List.mem_append.1 hc' with hc' | hc'
    · obtain ⟨c, hc, rfl⟩ := List.mem_map.1 hc'
      obtain ⟨hne, hstatus⟩ := hissued hstatus
      rw [hsame] at hsubject
      rcases List.mem_append.1 hd' with hd' | hd'
      · obtain ⟨d, hd, rfl⟩ := List.mem_map.1 hd'
        rw [hsame] at hsubject
        rw [ht.sole c hc hstatus d hd hsubject]
      · -- The certificate that is replaced is the signer's too.
        rw [List.mem_singleton.1 hd', ← howner] at hsubject
        rw [← ht.sole c hc hstatus row hrowMem hsubject] at hne
        exact absurd hrowId hne
    · rw [List.mem_singleton.1 hc'] at hstatus
      cases hstatus
  · intro s hs hterminal c' hc' hsubject
    rcases List.mem_append.1 hc' with hc' | hc'
    · obtain ⟨c, hc, rfl⟩ := List.mem_map.1 hc'
      rw [hsame] at hsubject
      have hdead := ht.dead s hs hterminal c hc hsubject
      split
      · rfl
      · exact hdead
    · rw [List.mem_singleton.1 hc'] at hsubject
      rw [hok s hs hsubject.symm] at hterminal
      cases hterminal
  · exact fun j s hs hterminal => ⟨s, hs, hterminal⟩
  · intro j c hc
    refine ⟨if c.id = old then { c with status := .rotated } else c, ?_, hsame c⟩
    rw [certificate_rotate, hc]
    rfl

end SubjectTable

/-! ## The directory -/

namespace Directory

def Sound (d : Directory) : Prop := ∀ kind, (d.table kind).Sound

/-- What has ended, or was archived, in `d` has and is in `d'`. -/
structure Continues (d d' : Directory) : Prop where
  tables : ∀ kind, (d.table kind).Continues (d'.table kind)
  archived : ∀ id o, d.organization id = some o → o.status = .archived →
    ∃ o', d'.organization id = some o' ∧ o'.status = .archived

def isArchived (d : Directory) (id : Uuid) : Bool :=
  (d.organization id).any fun o => o.status = .archived

/-- There are no signers and no organizations. -/
def Unused (d : Directory) : Prop := d.agents = {} ∧ d.identities = {} ∧ d.organizations = []

variable {d d' d'' : Directory}

theorem Continues.refl (d : Directory) : d.Continues d :=
  ⟨fun _ => .refl _, fun _ o ho harchived => ⟨o, ho, harchived⟩⟩

theorem Continues.trans (h : d.Continues d') (h' : d'.Continues d'') : d.Continues d'' := by
  refine ⟨fun kind => (h.tables kind).trans (h'.tables kind), fun id o ho harchived => ?_⟩
  obtain ⟨o', ho', harchived'⟩ := h.archived id o ho harchived
  exact h'.archived id o' ho' harchived'

theorem admitted_of_unused (h : d.Unused) : d.admitted = true := by
  obtain ⟨hagents, hidentities, horganizations⟩ := h
  simp [admitted, SubjectTable.admitted, hagents, hidentities, horganizations]

theorem sound_of_unused (h : d.Unused) : d.Sound := by
  intro kind
  cases kind with
  | agent =>
    show d.agents.Sound
    rw [h.1]
    exact .empty
  | integrationIdentity =>
    show d.identities.Sound
    rw [h.2.1]
    exact .empty

theorem admitted_table (h : d.admitted = true) (kind : SubjectKind) :
    (d.table kind).admitted = true := by
  obtain ⟨hagents, hidentities, -⟩ := of_decide_eq_true h
  cases kind with
  | agent => exact hagents
  | integrationIdentity => exact hidentities

/-- A change of one table. -/
theorem withTable_sound {t : SubjectTable} {kind : SubjectKind} (hd : d.Sound)
    (ht : t.Sound ∧ (d.table kind).Continues t) :
    (d.withTable t kind).Sound ∧ d.Continues (d.withTable t kind) := by
  have hcases (kind' : SubjectKind) : ((d.withTable t kind).table kind').Sound ∧
      (d.table kind').Continues ((d.withTable t kind).table kind') := by
    by_cases h : kind' = kind
    · subst h
      rw [table_withTable]
      exact ht
    · rw [table_withTable_of_ne d t h]
      exact ⟨hd kind', .refl _⟩
  refine ⟨fun kind' => (hcases kind').1, fun kind' => (hcases kind').2, fun id o ho harchived => ?_⟩
  exact ⟨o, (organization_withTable d t kind id).trans ho, harchived⟩

end Directory

/-- Since the operation read them, no other session has ended the signer that is given a status it can
leave or another certificate, none has made a certificate live of the signer that is ended, and none
has archived the organization. -/
def DirectoryChange.undisturbed : DirectoryChange → List Directory → Directory → Bool
  | .move kind id status _, seen, d =>
    seen.all fun d' =>
      if status.terminal then ∀ c ∈ (d.table kind).liveOf id, c ∈ (d'.table kind).liveOf id
      else (d.table kind).ended id = true → (d'.table kind).ended id = true
  | .rotate kind id _ _, seen, d =>
    seen.all fun d' => (d.table kind).ended id = true → (d'.table kind).ended id = true
  | .setOrganization id status, seen, d =>
    seen.all fun d' => status = .archived ∨ (d.isArchived id = true → d'.isArchived id = true)
  | _, _, _ => true

/-- A certificate that was the signer's is. -/
theorem DirectoryChange.owner {d d' : Directory} {kind : SubjectKind} {id c : Uuid}
    (hd : d'.Continues d)
    (h : (((d'.table kind).certificate c).any fun c => c.subjectId = id) = true) :
    ∃ row, (d.table kind).certificate c = some row ∧ row.subjectId = id := by
  obtain ⟨row', hrow', howner⟩ := (Option.any_eq_true _ _).1 h
  obtain ⟨row, hrow, hsame⟩ := (hd.tables kind).owner c row' hrow'
  exact ⟨row, hrow, hsame.trans (of_decide_eq_true howner)⟩

/-- A signer that may be given a status, or whose certificate may be rotated, has not ended. -/
theorem SubjectTable.not_ended {t : SubjectTable} {id : Uuid} {p : SubjectRow → Bool}
    (h : (t.subject id).any p = true) (hp : ∀ s, p s = true → s.status.terminal = false) :
    t.ended id = false := by
  obtain ⟨s, hs, hstatus⟩ := (Option.any_eq_true _ _).1 h
  unfold ended
  rw [hs]
  exact hp s hstatus

theorem SubjectTable.not_ended_of_allowed {t : SubjectTable} {id : Uuid} {status : SubjectStatus}
    (h : ((t.subject id).any fun s => status ∈ s.status.allowed) = true) : t.ended id = false := by
  refine not_ended h fun s hallowed => ?_
  have hne : s.status.allowed ≠ [] := List.ne_nil_of_mem (of_decide_eq_true hallowed)
  simpa [SubjectStatus.terminal] using hne

/-- A signer that was not ended when it was read is not, where nobody has ended it since. -/
theorem SubjectTable.not_terminal {t t' : SubjectTable} (h : t.admitted = true) {id : Uuid}
    (hread : t'.ended id = false) (hok : t.ended id = true → t'.ended id = true) (s : SubjectRow)
    (hs : s ∈ t.subjects) (hid : s.id = id) : s.status.terminal = false := by
  by_contra hterminal
  have hget : t.subject id = some s := hid ▸ Rows.get_of_mem (of_decide_eq_true h).1 hs
  have hended : t.ended id = true := by
    unfold ended
    rw [hget]
    simpa using hterminal
  rw [hok hended] at hread
  cases hread

/-- An archived organization may be given no status. -/
theorem Directory.not_archived_of_allowed {d : Directory} {id : Uuid} {status : OrganizationStatus}
    (hallowed : ((d.organization id).any fun o => status ∈ o.status.allowed) = true) :
    d.isArchived id = false := by
  obtain ⟨o, ho, hstatus⟩ := (Option.any_eq_true _ _).1 hallowed
  refine Bool.eq_false_iff.2 fun hread => ?_
  unfold isArchived at hread
  rw [ho] at hread
  rw [show o.status = .archived from of_decide_eq_true hread] at hstatus
  cases of_decide_eq_true hstatus

/-- What a change that nothing has disturbed does to the directory. -/
theorem DirectoryChange.undisturbed_step {w : DirectoryChange} {seen : List Directory}
    {d : Directory} (hd : d.Sound) (h : d.admitted = true)
    (hseen : ∀ d' ∈ seen, (d'.admitted = true ∧ d'.Sound) ∧ d'.Continues d)
    (hchecks : ∀ c ∈ w.checks, ∃ d' ∈ seen, c d' = true) (hok : w.undisturbed seen d = true)
    (hadmits : (w.apply d).admitted = true) :
    (w.apply d).Sound ∧ d.Continues (w.apply d) := by
  cases w with
  | register kind id ownerId certificateId =>
    refine Directory.withTable_sound hd (SubjectTable.register_sound (hd kind) ?_)
    have hkind := Directory.admitted_table hadmits kind
    rwa [apply, Directory.table_withTable] at hkind
  | move kind id status certificateId =>
    simp only [checks, List.forall_mem_cons] at hchecks
    obtain ⟨⟨d₁, hd₁, hallowed⟩, ⟨d₂, hd₂, howner⟩, ⟨d₃, hd₃, hfound⟩, -⟩ := hchecks
    have hok' (d') (hd' : d' ∈ seen) := List.all_eq_true.1 hok d' hd'
    refine Directory.withTable_sound hd (SubjectTable.move_sound (hd kind)
      (Directory.admitted_table h kind) ?_ ?_ ?_)
    · rintro c rfl
      exact owner (hseen d₂ hd₂).2 howner
    · intro s hs hid hterminal
      by_contra hstatus
      have hread := SubjectTable.not_ended_of_allowed hallowed
      have hsince := hok' d₁ hd₁
      rw [if_neg hstatus] at hsince
      rw [SubjectTable.not_terminal (Directory.admitted_table h kind) hread
        (of_decide_eq_true hsince) s hs hid] at hterminal
      cases hterminal
    · intro hterminal c hc hid hlive
      have hsince := hok' d₃ hd₃
      rw [if_pos hterminal] at hsince
      have hread := of_decide_eq_true hsince c.id (SubjectTable.mem_liveOf hc hid hlive)
      obtain ⟨⟨hadmits₃, hsound₃⟩, -⟩ := hseen d₃ hd₃
      rw [of_decide_eq_true hfound hterminal]
      exact (hsound₃ kind).certificateOf_live (Directory.admitted_table hadmits₃ kind) hread
  | rotate kind id old new =>
    simp only [checks, List.forall_mem_cons] at hchecks
    obtain ⟨⟨d₁, hd₁, hused⟩, ⟨d₂, hd₂, howner⟩, -⟩ := hchecks
    refine Directory.withTable_sound hd (SubjectTable.rotate_sound (hd kind)
      (owner (hseen d₂ hd₂).2 howner) ?_)
    have hread : (d₁.table kind).ended id = false := by
      refine SubjectTable.not_ended hused fun s hstatus => ?_
      rcases of_decide_eq_true hstatus with h | h <;> rw [h] <;> rfl
    exact SubjectTable.not_terminal (Directory.admitted_table h kind) hread
      (of_decide_eq_true (List.all_eq_true.1 hok d₁ hd₁))
  | insertOrganization organization =>
    refine ⟨hd, fun kind => ?_, fun id o ho harchived => ⟨o, ?_, harchived⟩⟩
    · exact .refl _
    · show Rows.get (·.id) (d.organizations ++ [organization]) id = some o
      rw [Rows.get_append, show Rows.get (·.id) d.organizations id = some o from ho]
      rfl
  | setOrganization id status =>
    have hget (j : Uuid) : (apply (setOrganization id status) d).organization j =
        (d.organization j).map fun o => if o.id = id then { o with status } else o :=
      Rows.get_update fun _ => rfl
    refine ⟨hd, fun kind => ?_, fun j o ho harchived => ?_⟩
    · exact .refl _
    · refine ⟨if o.id = id then { o with status } else o, by rw [hget, ho]; rfl, ?_⟩
      split
      · next hid =>
        obtain rfl : j = id := (Rows.key_of_get ho).symm.trans hid
        obtain ⟨d₁, hd₁, hallowed⟩ := hchecks _ (List.mem_singleton_self _)
        refine (of_decide_eq_true (List.all_eq_true.1 hok d₁ hd₁)).resolve_right fun hsince => ?_
        have hnow : d.isArchived j = true := by
          unfold Directory.isArchived
          rw [ho]
          exact decide_eq_true harchived
        -- an archived organization is given no other status
        have hread := hsince hnow
        rw [Directory.not_archived_of_allowed hallowed] at hread
        cases hread
      · exact harchived
  | elsewhere principals => exact ⟨hd, fun kind => .refl _, (Directory.Continues.refl d).archived⟩

/-! ## Runs -/

section

open SubjectService AgentService IntegrationIdentityService OrganizationLifecycleService

variable {seen : List Directory}

/-- A certificate that was found under its signer's id is the signer's. -/
theorem certificateOf_owner {d : Directory} {kind : SubjectKind} {id : Uuid}
    {p : CertificateStatus → Bool} {c : CertificateRow} (h : d.admitted = true)
    (hc : (d.table kind).certificateOf id p = some c) :
    (((d.table kind).certificate c.id).any fun c => c.subjectId = id) = true := by
  have hmem := List.mem_of_find?_eq_some hc
  have howner := List.find?_some hc
  have hrow : (d.table kind).certificate c.id = some c :=
    Rows.get_of_mem (SubjectTable.certificateIds_nodup (Directory.admitted_table h kind)) hmem
  rw [hrow]
  exact decide_eq_true (of_decide_eq_true howner).1

/-- The row of a signer was read. -/
def Found (kind : SubjectKind) (s : SubjectRow) (seen : List Directory) : Prop :=
  ∃ d ∈ seen, (d.table kind).subject s.id = some s

theorem vetted_transition {kind : SubjectKind} {get : DirectoryService SubjectRow}
    {refuse : String → String → PyError} {status : SubjectStatus} {action : String}
    {found : Option (CertificateStatus → Bool)}
    (hfound : status.terminal = true → found = some CertificateStatus.live)
    (hget : Vetted directorySchema get (Found kind) []) :
    Vetted directorySchema (transition kind get refuse status action found) (fun _ _ => True) [] := by
  refine checked_seq hget ?_
  rintro subject seen ⟨d, hd, hsubject⟩
  have hallowed (h : ¬status ∉ subject.status.allowed) :
      (((d.table kind).subject subject.id).any fun s => status ∈ s.status.allowed) = true := by
    rw [hsubject]
    exact decide_eq_true (not_not.1 h)
  cases found with
  | none =>
    dsimp only
    split
    · exact trivial
    · next h =>
      refine vetted_commit_refresh (supported_of rfl ⟨⟨d, hd, hallowed h⟩, ⟨d, hd, rfl⟩, d, hd, ?_⟩)
      exact decide_eq_true fun hterminal => (by cases hfound hterminal)
  | some p =>
    dsimp only
    split
    · exact trivial
    · next h =>
      refine vetted_look fun d' hd' => vetted_commit_refresh (supported_of rfl ?_)
      refine ⟨⟨d, List.mem_cons_of_mem _ hd, hallowed h⟩, ⟨d', List.mem_cons_self, ?_⟩,
        d', List.mem_cons_self, ?_⟩
      · cases hc : (d'.table kind).certificateOf subject.id p with
        | none => rfl
        | some c => exact certificateOf_owner hd' hc
      · refine decide_eq_true fun hterminal => ?_
        rw [Option.some.inj (hfound hterminal)]

theorem vetted_rotate {kind : SubjectKind} {get : DirectoryService SubjectRow}
    {refuse : String → String → PyError}
    (hget : Vetted directorySchema get (Found kind) []) :
    Vetted directorySchema (rotate kind get refuse) (fun _ _ => True) [] := by
  refine checked_seq hget ?_
  rintro subject seen ⟨d, hd, hsubject⟩
  split
  · exact trivial
  · next hused =>
    refine vetted_look fun d' hd' => ?_
    split
    · exact trivial
    · next old hold =>
      refine vetted_draw fun new => vetted_commit ?_ (vetted_look fun _ _ => trivial)
      refine supported_of rfl ⟨⟨d, List.mem_cons_of_mem _ hd, ?_⟩, d', List.mem_cons_self,
        certificateOf_owner hd' hold⟩
      show (((d.table kind).subject subject.id).any fun s =>
        s.status = .active ∨ s.status = .suspended) = true
      rw [hsubject]
      refine decide_eq_true ?_
      by_contra hnot
      exact hused (not_or.1 hnot)

theorem vetted_getAgent (agentId : Uuid) :
    Vetted directorySchema (getAgent agentId) (Found .agent) seen := by
  refine vetted_look fun d _ => ?_
  split
  · exact trivial
  · next agent hagent =>
    have hid : agent.id = agentId := Rows.key_of_get hagent
    exact ⟨d, List.mem_cons_self, hid ▸ hagent⟩

theorem vetted_getIdentity (identityId organizationId : Uuid) :
    Vetted directorySchema (getIntegrationIdentity identityId organizationId)
      (Found .integrationIdentity) seen := by
  refine vetted_look fun d hd => ?_
  split
  · exact trivial
  · next identity hidentity =>
    refine ⟨d, List.mem_cons_self, ?_⟩
    exact Rows.get_of_mem (of_decide_eq_true (Directory.admitted_table hd .integrationIdentity)).1
      (List.mem_of_find?_eq_some hidentity)

theorem vetted_isSandboxOrganization (organizationId : Option Uuid) :
    Vetted directorySchema (isSandboxOrganization organizationId) (fun _ _ => True) seen := by
  cases organizationId with
  | none => exact trivial
  | some id => exact vetted_look fun d _ => trivial

theorem vetted_register (kind : SubjectKind) (ownerId : Uuid) :
    Vetted directorySchema (SubjectService.register kind ownerId) (fun _ _ => True) seen :=
  vetted_draw fun _ => vetted_draw fun _ =>
    vetted_commit (supported_none rfl) (vetted_look fun _ _ => trivial)

theorem vetted_createAgent (principalId : Uuid) (organizationId : Option Uuid) :
    Vetted directorySchema (createAgent principalId organizationId) (fun _ _ => True) [] := by
  refine vetted_look fun d _ => ?_
  split
  · exact trivial
  · split
    · exact trivial
    · refine checked_seq (vetted_isSandboxOrganization organizationId) fun sandbox seen _ => ?_
      split
      · refine vetted_look fun d _ => ?_
        split
        · exact trivial
        · exact vetted_register .agent principalId
      · exact vetted_register .agent principalId

theorem vetted_registerIntegrationIdentity (organizationId : Uuid) :
    Vetted directorySchema (registerIntegrationIdentity organizationId) (fun _ _ => True) [] := by
  refine checked_seq (vetted_isSandboxOrganization (some organizationId)) fun sandbox seen _ => ?_
  split
  · refine vetted_look fun d _ => ?_
    split
    · exact trivial
    · exact vetted_register .integrationIdentity organizationId
  · exact vetted_register .integrationIdentity organizationId

theorem vetted_getOrganization (organizationId : Uuid) :
    Vetted directorySchema (getOrganization organizationId)
      (fun o seen => ∃ d ∈ seen, d.organization o.id = some o) seen := by
  refine vetted_look fun d _ => ?_
  split
  · exact trivial
  · next o ho =>
    have hid : o.id = organizationId := Rows.key_of_get ho
    exact ⟨d, List.mem_cons_self, hid ▸ ho⟩

theorem vetted_setStatus {organizationId : Uuid} {expected status : OrganizationStatus}
    {action : String} (hallowed : status ∈ expected.allowed) :
    Vetted directorySchema (setStatus organizationId expected status action) (fun _ _ => True)
      [] := by
  refine checked_seq (vetted_getOrganization organizationId) ?_
  rintro o seen ⟨d, hd, ho⟩
  split
  · exact trivial
  · next hstatus =>
    refine vetted_commit_refresh (supported_one rfl hd ?_)
    rw [ho]
    refine decide_eq_true ?_
    rw [not_not.1 hstatus]
    exact hallowed

theorem vetted_createOrganization (name : String) (environment : Environment) :
    Vetted directorySchema (OrganizationLifecycleService.createOrganization name environment)
      (fun _ _ => True) [] :=
  vetted_draw fun _ => vetted_commit (supported_none rfl) (vetted_look fun _ _ => trivial)

/-- Every operation commits only what it has checked. -/
theorem directory_checks : ∀ p ∈ directoryRequests, Checks directorySchema p := by
  rintro _ ⟨r, rfl⟩
  cases r with
  | createAgent principalId organizationId =>
    exact checks_session (vetted_createAgent principalId organizationId)
  | activateAgent agentId =>
    refine checks_session ?_
    unfold activateAgent activate
    exact vetted_transition (fun h => by cases h) (vetted_getAgent agentId)
  | suspendAgent agentId =>
    refine checks_session ?_
    unfold suspendAgent suspend
    exact vetted_transition (fun h => by cases h) (vetted_getAgent agentId)
  | retireAgent agentId =>
    refine checks_session ?_
    unfold retireAgent retire
    exact vetted_transition (fun _ => rfl) (vetted_getAgent agentId)
  | revokeAgent agentId =>
    refine checks_session ?_
    unfold revokeAgent revoke
    exact vetted_transition (fun _ => rfl) (vetted_getAgent agentId)
  | rotateAgentCertificate agentId =>
    exact checks_session (vetted_rotate (vetted_getAgent agentId))
  | registerIdentity organizationId =>
    exact checks_session (vetted_registerIntegrationIdentity organizationId)
  | activateIdentity identityId organizationId =>
    refine checks_session ?_
    unfold activateIntegrationIdentity activate
    exact vetted_transition (fun h => by cases h) (vetted_getIdentity identityId organizationId)
  | suspendIdentity identityId organizationId =>
    refine checks_session ?_
    unfold suspendIntegrationIdentity suspend
    exact vetted_transition (fun h => by cases h) (vetted_getIdentity identityId organizationId)
  | retireIdentity identityId organizationId =>
    refine checks_session ?_
    unfold retireIntegrationIdentity retire
    exact vetted_transition (fun _ => rfl) (vetted_getIdentity identityId organizationId)
  | revokeIdentity identityId organizationId =>
    refine checks_session ?_
    unfold revokeIntegrationIdentity revoke
    exact vetted_transition (fun _ => rfl) (vetted_getIdentity identityId organizationId)
  | rotateIdentityCertificate identityId organizationId =>
    exact checks_session (vetted_rotate (vetted_getIdentity identityId organizationId))
  | createOrganization name environment =>
    exact checks_session (vetted_createOrganization name environment)
  | deactivateOrganization organizationId =>
    exact checks_session (vetted_setStatus (by decide))
  | reactivateOrganization organizationId =>
    exact checks_session (vetted_setStatus (by decide))
  | archiveOrganization organizationId =>
    exact checks_session (vetted_setStatus (by decide))
  | elsewhere principals =>
    exact checks_session (checked_commit (supported_none rfl) trivial trivial trivial)

end

/-- A run of the services from an empty database, with the commits that `ok` allows by what the
operation has read and by what it meets. -/
abbrev DirectoryRun {ι : Type} [DecidableEq ι]
    (ok : DirectoryChange → List Directory → Directory → Bool)
    (w : World (RecordStatement DirectoryChange) (RecordStatement.Answer Directory Uuid) PyError
      (Records Directory ι) ι) : Prop :=
  Reach ((directorySchema.machine Uuid ι).restrict fun i q s _ =>
      directorySchema.allowsSeen ok i q s = true) directoryRequests
    (fun s => ∃ d ∈ {d | d.Unused}, s = Records.init d) w

/-- **Terminal states are absorbing.** -/
theorem terminal_states_absorb {ι : Type} [DecidableEq ι]
    {w : World (RecordStatement DirectoryChange) (RecordStatement.Answer Directory Uuid) PyError
      (Records Directory ι) ι} (h : DirectoryRun DirectoryChange.undisturbed w) :
    (∀ d ∈ w.store.past, d.Continues w.store.db) ∧
    ∀ kind,
      (∀ s ∈ (w.store.db.table kind).subjects, s.status.terminal = true →
        ∀ c ∈ (w.store.db.table kind).certificates, c.subjectId = s.id → c.status.live = false) ∧
      (((w.store.db.table kind).certificates.filter fun c => c.status = .active).map
        CertificateRow.subjectId).Nodup := by
  have hrun := Reach.records_seen directory_checks
    (I := fun d => d.admitted = true ∧ d.Sound) (R := Directory.Continues)
    (fun d hd => ⟨Directory.admitted_of_unused hd, Directory.sound_of_unused hd⟩)
    Directory.Continues.refl (fun _ _ _ => Directory.Continues.trans) (fun _ hd => hd.1) ?_ h
  · obtain ⟨⟨hadmits, hsound⟩, hpast⟩ := hrun
    refine ⟨hpast, fun kind => ⟨(hsound kind).dead, ?_⟩⟩
    exact (of_decide_eq_true (Directory.admitted_table hadmits kind)).2.2
  · intro c seen d hd hseen hchecks hok hadmits
    obtain ⟨hsound, hcontinues⟩ :=
      DirectoryChange.undisturbed_step hd.2 hd.1 hseen hchecks hok hadmits
    exact ⟨⟨hadmits, hsound⟩, hcontinues⟩

/-! ### Two sessions -/

/-- A principal, and nothing else yet. -/
def emptyDirectory : Directory where
  principals := [⟨1, "ops", some 7, none, none, none, none⟩]

/-- What two sessions do in turn: the request that a session starts, if any, and how many statements
it sends. -/
def directoryTurns (ts : List (Bool × Option DirectoryRequest × ℕ)) :
    List (Turn (RecordStatement DirectoryChange) (RecordStatement.Answer Directory Uuid) PyError
      Bool) :=
  ts.map fun t => ⟨t.1, t.2.1.map DirectoryRequest.run, t.2.2⟩

/-- The turns are played as far as `ok` allows. Every new row has the id 1. -/
def playDirectory (ok : DirectoryChange → List Directory → Directory → Bool)
    (ts : List (Bool × Option DirectoryRequest × ℕ)) :
    World (RecordStatement DirectoryChange) (RecordStatement.Answer Directory Uuid) PyError
      (Records Directory Bool) Bool :=
  ((directorySchema.schedule 1).restrict fun i q s _ => directorySchema.allowsSeen ok i q s).play
    (directoryTurns ts) ⟨Records.init emptyDirectory, fun _ => none⟩

theorem playDirectory_run (ok : DirectoryChange → List Directory → Directory → Bool)
    (ts : List (Bool × Option DirectoryRequest × ℕ)) : DirectoryRun ok (playDirectory ok ts) := by
  refine Schedule.play_reach (.init ⟨emptyDirectory, ⟨rfl, rfl, rfl⟩, rfl⟩) fun t ht p hp => ?_
  obtain ⟨e, -, rfl⟩ := List.mem_map.1 ht
  obtain ⟨r, -, rfl⟩ := Option.map_eq_some_iff.1 hp
  exact ⟨r, rfl⟩

/-- The status of the agent 1. -/
def agentIs (d : Directory) (status : SubjectStatus) : Bool :=
  (d.agents.subject 1).any fun a => a.status = status

/-- An agent is created, activated and revoked. -/
def revocation : List (Bool × Option DirectoryRequest × ℕ) :=
  [(true, some (.createAgent 1 (some 7)), 10), (true, some (.activateAgent 1), 10),
    (true, some (.revokeAgent 1), 10)]

theorem terminal_states_absorb_revocation :
    agentIs (playDirectory DirectoryChange.undisturbed revocation).store.db .revoked = true ∧
    (∀ d ∈ (playDirectory DirectoryChange.undisturbed revocation).store.past,
      d.Continues (playDirectory DirectoryChange.undisturbed revocation).store.db) ∧
    ∀ kind,
      (∀ s ∈ ((playDirectory DirectoryChange.undisturbed revocation).store.db.table kind).subjects,
        s.status.terminal = true →
          ∀ c ∈ ((playDirectory DirectoryChange.undisturbed revocation).store.db.table
            kind).certificates, c.subjectId = s.id → c.status.live = false) ∧
      ((((playDirectory DirectoryChange.undisturbed revocation).store.db.table
        kind).certificates.filter fun c => c.status = .active).map CertificateRow.subjectId).Nodup :=
  ⟨by decide +kernel, terminal_states_absorb (playDirectory_run _ revocation)⟩

/-- A suspension that has found an active agent goes on when the agent is revoked. -/
def lateSuspension : List (Bool × Option DirectoryRequest × ℕ) :=
  [(true, some (.createAgent 1 (some 7)), 10), (true, some (.activateAgent 1), 10),
    (true, some (.suspendAgent 1), 1), (false, some (.revokeAgent 1), 10), (true, none, 10),
    (false, some (.activateAgent 1), 10)]

/-- A revoked agent is active again. -/
theorem terminal_lateSuspension : ∃ w : World (RecordStatement DirectoryChange)
      (RecordStatement.Answer Directory Uuid) PyError (Records Directory Bool) Bool,
    DirectoryRun (fun _ _ _ => true) w ∧
      (∃ d ∈ w.store.past, agentIs d .revoked = true) ∧ agentIs w.store.db .active = true := by
  refine ⟨_, playDirectory_run (fun _ _ _ => true) lateSuspension, ?_, by decide +kernel⟩
  have h : (playDirectory (fun _ _ _ => true) lateSuspension).store.past.any
      (fun d => agentIs d .revoked) = true := by
    decide +kernel
  obtain ⟨d, hd, h⟩ := List.any_eq_true.1 h
  exact ⟨d, hd, h⟩

end PayReality
