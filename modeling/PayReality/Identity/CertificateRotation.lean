import Mathlib.Algebra.Order.BigOperators.Group.List
import PayReality.Identity.LifecycleServices
import PayReality.Lib.RecordReports

/-!
# Rotating a certificate

`agent_service.rotate_certificate`, of the tables as they are. The service reads them statement by
statement (`AgentService.rotateCertificate`), and may fail before its commit and behind it; what it
commits is this (`rotateCertificate_exec`).
-/

namespace PayReality

open Program

/-! ## The server -/

/-- The agents with their certificates, and the column `public_key` of these. -/
structure AgentTables where
  table : SubjectTable
  publicKey : Uuid → String
  admitted : table.admitted = true

/-- `uuid4`: an id that is not there yet. -/
structure IdSource where
  draw : List Uuid → Uuid
  fresh : ∀ ids, draw ids ∉ ids

def IdSource.next : IdSource where
  draw ids := ids.sum + 1
  fresh ids hmem := by
    have hle := List.single_le_sum (fun _ _ => Nat.zero_le _) _ hmem
    omega

namespace AgentTables

variable (t : AgentTables) (agentId : Uuid)

def ids : List Uuid := t.table.certificates.map fun c => c.id

/-- `get_active_certificate_for_agent`. -/
def activeCertificate : Option CertificateRow := t.table.certificateOf agentId fun s => s = .active

/-- `rotate_certificate`: the id of the new certificate, and what is committed. -/
def rotateCertificate (source : IdSource) (newPublicKey : String) : Except PyError (Uuid × AgentTables) :=
  match t.table.subject agentId with
  | none => .error .agentNotFound
  | some agent =>
    if agent.status ≠ .active ∧ agent.status ≠ .suspended then
      .error (.agentInvalidTransition agent.status.value "rotate")
    else
      match t.activeCertificate agentId with
      | none => .error .noActiveCertificate
      | some old =>
        let new := source.draw t.ids
        let table := t.table.rotate agentId old.id new
        if h : table.admitted = true then
          .ok (new, ⟨table, Function.update t.publicKey new newPublicKey, h⟩)
        else .error .integrityError

/-- The agent is active or suspended, and has an active certificate. -/
def Rotatable : Prop :=
  (∃ agent, t.table.subject agentId = some agent ∧ (agent.status = .active ∨ agent.status = .suspended)) ∧
  ∃ c, t.activeCertificate agentId = some c

variable {t agentId}

theorem activeCertificate_some {c : CertificateRow} (h : t.activeCertificate agentId = some c) :
    c ∈ t.table.certificates ∧ c.subjectId = agentId ∧ c.status = .active := by
  have hc := List.find?_some h
  simp only [decide_eq_true_eq] at hc
  exact ⟨List.mem_of_find?_eq_some h, hc.1, by simpa using hc.2⟩

/-- `idx_certificates_single_active`. -/
theorem eq_activeCertificate {c d : CertificateRow} (h : t.activeCertificate agentId = some d)
    (hmem : c ∈ t.table.certificates) (hsubject : c.subjectId = agentId) (hactive : c.status = .active) :
    c = d := by
  obtain ⟨hdmem, hdsubject, hdactive⟩ := activeCertificate_some h
  have hsingle := (of_decide_eq_true t.admitted).2.2
  refine List.inj_on_of_nodup_map hsingle ?_ ?_ (hsubject.trans hdsubject.symm)
  · exact List.mem_filter.2 ⟨hmem, by simp [hactive]⟩
  · exact List.mem_filter.2 ⟨hdmem, by simp [hdactive]⟩

/-- The active certificates behind a rotation, but for the new one. -/
theorem filter_rotate (certificates : List CertificateRow) (old : Uuid) :
    ((certificates.map fun c => if c.id = old then { c with status := .rotated } else c).filter
      fun c => c.status = .active) =
    certificates.filter fun c => c.status = .active ∧ c.id ≠ old := by
  induction certificates with
  | nil => rfl
  | cons c cs ih =>
    by_cases hold : c.id = old
    · simp [hold, ih]
    · by_cases hactive : c.status = .active <;> simp [hold, hactive, ih]

theorem ids_rotate (t : AgentTables) (agentId old new : Uuid) :
    ((t.table.rotate agentId old new).certificates.map fun c => c.id) = t.ids ++ [new] := by
  simp only [AgentTables.ids, SubjectTable.rotate, List.map_append, List.map_map]
  congr 1
  refine List.map_congr_left fun c _ => ?_
  by_cases hc : c.id = old <;> simp [hc]

/-- The constraints take a rotation. -/
theorem rotate_admitted {d : CertificateRow} (h : t.activeCertificate agentId = some d) {new : Uuid}
    (hnew : new ∉ t.ids) : (t.table.rotate agentId d.id new).admitted = true := by
  obtain ⟨hsubjects, hids, hsingle⟩ := of_decide_eq_true t.admitted
  refine decide_eq_true ⟨hsubjects, ?_, ?_⟩
  · rw [ids_rotate]
    exact List.nodup_append.2 ⟨hids, List.nodup_singleton _, by
      rintro id hid _ hmem rfl
      rw [List.mem_singleton.1 hmem] at hid
      exact hnew hid⟩
  · simp only [SubjectTable.rotate, List.filter_append, filter_rotate, List.map_append]
    refine List.nodup_append.2 ⟨?_, List.nodup_singleton _, ?_⟩
    · refine hsingle.sublist (List.Sublist.map _ ?_)
      exact List.monotone_filter_right _ fun c hc => by simp_all
    · rintro id hid _ hmem rfl
      obtain ⟨c, hc, rfl⟩ := List.mem_map.1 hid
      simp only [List.mem_filter, decide_eq_true_eq] at hc
      have hagent : c.subjectId = agentId := by simpa using hmem
      exact hc.2.2 (congrArg (·.id) (eq_activeCertificate h hc.1 hagent hc.2.1))

theorem active_rotate {d : CertificateRow} (h : t.activeCertificate agentId = some d) (new : Uuid) :
    (t.table.rotate agentId d.id new).certificateOf agentId (fun s => s = .active) =
      some ⟨new, agentId, .active⟩ := by
  simp only [SubjectTable.certificateOf, SubjectTable.rotate]
  rw [List.find?_append, List.find?_eq_none.2]
  · simp
  · intro c hc
    obtain ⟨c', hc', rfl⟩ := List.mem_map.1 hc
    by_cases hold : c'.id = d.id
    · simp [hold]
    · simp only [hold, if_false, decide_eq_true_eq, not_and]
      intro hagent hactive
      exact hold (congrArg (·.id) (eq_activeCertificate h hc' hagent (by simpa using hactive)))

/-- What a rotation leaves: the agent has a new certificate, on the key that was sent, and can be
rotated again. -/
structure Renews (t : AgentTables) (agentId : Uuid) (newPublicKey : String) (new : Uuid)
    (t' : AgentTables) : Prop where
  fresh : new ∉ t.ids
  ids : t'.ids = t.ids ++ [new]
  active : t'.activeCertificate agentId = some ⟨new, agentId, .active⟩
  publicKey : t'.publicKey new = newPublicKey
  rotatable : t'.Rotatable agentId

theorem rotateCertificate_of_rotatable (h : t.Rotatable agentId) (source : IdSource)
    (newPublicKey : String) : ∃ new t', t.rotateCertificate agentId source newPublicKey = .ok (new, t') ∧
      t.Renews agentId newPublicKey new t' := by
  obtain ⟨⟨agent, hagent, hstatus⟩, d, hd⟩ := h
  have hadmitted := rotate_admitted hd (source.fresh t.ids)
  refine ⟨source.draw t.ids,
    ⟨_, Function.update t.publicKey (source.draw t.ids) newPublicKey, hadmitted⟩, ?_,
    source.fresh t.ids, ids_rotate .., active_rotate hd _, ?_, ⟨agent, hagent, hstatus⟩, _,
    active_rotate hd _⟩
  · have hno : ¬ (agent.status ≠ .active ∧ agent.status ≠ .suspended) := by tauto
    simp only [rotateCertificate, hagent, if_neg hno, hd, dif_pos hadmitted]
  · exact Function.update_self ..

/-- What `rotate_certificate` refuses with. -/
def Refusal (e : PyError) : Prop :=
  e = .agentNotFound ∨ (∃ fromStatus, e = .agentInvalidTransition fromStatus "rotate") ∨
    e = .noActiveCertificate

theorem rotateCertificate_of_not_rotatable (h : ¬ t.Rotatable agentId) (source : IdSource)
    (newPublicKey : String) :
    ∃ e, t.rotateCertificate agentId source newPublicKey = .error e ∧ Refusal e := by
  unfold rotateCertificate
  cases hagent : t.table.subject agentId with
  | none => exact ⟨_, rfl, .inl rfl⟩
  | some agent =>
    dsimp only
    split
    · exact ⟨_, rfl, .inr (.inl ⟨_, rfl⟩)⟩
    · next hstatus =>
      cases hd : t.activeCertificate agentId with
      | none => exact ⟨_, rfl, .inr (.inr rfl)⟩
      | some d => exact absurd ⟨⟨agent, hagent, by tauto⟩, d, hd⟩ h

end AgentTables

/-! ## Beside the service -/

theorem exists_source {ids : List Uuid} {new : Uuid} (h : new ∉ ids) :
    ∃ source : IdSource, source.draw ids = new := by
  refine ⟨⟨fun l => if l = ids then new else IdSource.next.draw l, fun l => ?_⟩, if_pos rfl⟩
  by_cases hl : l = ids
  · rw [if_pos hl, hl]
    exact h
  · rw [if_neg hl]
    exact IdSource.next.fresh l

theorem AgentTables.fresh_of_rotate_admitted {t : AgentTables} {agentId old new : Uuid}
    (h : (t.table.rotate agentId old new).admitted = true) : new ∉ t.ids := by
  have hids := (of_decide_eq_true h).2.1
  rw [AgentTables.ids_rotate] at hids
  intro hmem
  exact (List.nodup_append.1 hids).2.2 new hmem new (List.mem_singleton_self _) rfl

/-- What `AgentService.rotateCertificate` comes to: nothing, or what is committed here, whether or not
it is returned. -/
inductive AgentTables.Served (t : AgentTables) (agentId : Uuid) (newPublicKey : String) :
    Except PyError Uuid → SubjectTable → Prop
  | refused (e : PyError) : Served t agentId newPublicKey (.error e) t.table
  | committed (source : IdSource) (new : Uuid) (t' : AgentTables) (x : Except PyError Uuid)
      (h : t.rotateCertificate agentId source newPublicKey = .ok (new, t'))
      (hx : x = .ok new ∨ x = .error .databaseError) : Served t agentId newPublicKey x t'.table

section

variable {d : Directory} {t : AgentTables} {ws : List DirectoryChange} {agentId : Uuid}

theorem ends_getAgent {Q : Except PyError SubjectRow → List DirectoryChange → Directory → Prop}
    (h : ∀ agent, d.agents.subject agentId = some agent → Q (.ok agent) ws d)
    (he : ∀ e, Q (.error e) ws d) :
    Program.Ends directorySchema Eq (AgentService.getAgent agentId) Q ws d := by
  refine alone_look (fun _ => ?_) (he _)
  cases hagent : d.agents.subject agentId with
  | none => exact he _
  | some agent => exact h agent hagent

theorem ends_rotateCertificate (ht : d.agents = t.table) (newPublicKey : String) :
    Program.Ends directorySchema Eq (AgentService.rotateCertificate agentId)
      (fun x _ d' => t.Served agentId newPublicKey x d'.agents) ws d := by
  have hrefuse : ∀ e, t.Served agentId newPublicKey (.error e) d.agents :=
    fun e => ht ▸ .refused e
  refine ends_bind (ends_getAgent (fun agent hagent => ?_) hrefuse)
  have hid : agent.id = agentId := by simpa using List.find?_some hagent
  simp only [Ends.after]
  split
  · exact hrefuse _
  · next hstatus =>
    refine alone_look (fun _ => ?_) (hrefuse _)
    split
    · exact hrefuse _
    · next old hold =>
      refine alone_draw fun new => ends_bind (ends_commit ?_)
      rintro d' rfl -
      refine ⟨fun hadmitted => ?_, fun _ => hrefuse _, hrefuse _⟩
      subst hid
      have hactive : t.activeCertificate agent.id = some old := by
        rw [← hold, AgentTables.activeCertificate, ← ht]
        rfl
      have hrotated : (t.table.rotate agent.id old.id new).admitted = true := by
        rw [← ht]
        exact (of_decide_eq_true hadmitted).1
      obtain ⟨source, hsource⟩ := exists_source (AgentTables.fresh_of_rotate_admitted hrotated)
      have hok : t.rotateCertificate agent.id source newPublicKey =
          .ok (new, ⟨_, Function.update t.publicKey new newPublicKey, hrotated⟩) := by
        subst hsource
        rw [ht] at hagent
        simp only [AgentTables.rotateCertificate, hagent, if_neg hstatus, hactive, dif_pos hrotated]
      have hserved : ∀ x, x = .ok new ∨ x = .error .databaseError →
          t.Served agent.id newPublicKey x (d.agents.rotate agent.id old.id new) :=
        fun x hx => ht ▸ .committed source new _ x hok hx
      exact alone_look (fun _ => hserved _ (.inl rfl)) (hserved _ (.inr rfl))

/-- **The service refines `rotateCertificate`**: wherever the database fails it, it has committed
nothing, or what that commits. -/
theorem rotateCertificate_exec {ι : Type} [DecidableEq ι] {i : ι} {s u : Records Directory ι}
    {x : Except PyError Uuid}
    (h : Exec (directorySchema.machine Uuid ι) i (AgentService.rotateCertificate agentId) s x u)
    (hs : s.db.admitted = true) (ht : s.db.agents = t.table) (newPublicKey : String) :
    t.Served agentId newPublicKey x u.db.agents := by
  obtain ⟨-, hserved⟩ := h.ends [] hs (ends_rotateCertificate ht newPublicKey)
  exact hserved

end

end PayReality
