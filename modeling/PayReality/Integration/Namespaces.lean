import PayReality.Integration.Operations

/-!
# Two namespaces for nonces

An agent's own intents and the requests of each integration identity are meant to be protected
against replay apart from each other. The unique index on `(agent_id, nonce)` covers the rows of
both, so they are apart exactly as long as no flush meets a row of another namespace with its agent
and its nonce (`separated`).

**Main result** `namespaces_independent`: in a run of such flushes, a replay that is reported is one
in its own namespace, and what is accepted is the only row there with its nonce.
-/

namespace PayReality

open Program

/-- The integration identity that signed a request; none for an agent's own. -/
def IntentRow.signer (i : IntentRow) : Option Uuid :=
  i.provenance.map IntegrationProvenance.integrationIdentityId

/-- An intent that is flushed meets no row of another namespace with its agent and nonce, and its id
is a new one. -/
def separated {ι : Type} [DecidableEq ι] (i : ι) (q : LedgerStatement) (s : Ledger ι)
    (_ : Except PyError q.Answer) : Bool :=
  match q with
  | .flushIntent row => (s.snapshot i).intents.all fun other =>
      other.id ≠ row.id ∧
        (other.agentId = row.agentId → other.nonce = row.nonce → other.signer = row.signer)
  | _ => true

/-- The condition on every statement of a run. -/
abbrev Separated {ι : Type} [DecidableEq ι] (i : ι) (q : LedgerStatement) (s : Ledger ι)
    (r : Except PyError q.Answer) : Prop := separated i q s r = true

section

variable {ι : Type} [DecidableEq ι] {H : OperationHost} {s : Ledger ι}
  {row other : IntentRow}

/-- A row is refused for what it shares with one of its own namespace. -/
theorem Refused.sameNamespace (h : Refused Separated row other s)
    (hscope : row.operationScope.isSome → other.operationScope ≠ row.operationScope) :
    other ∈ s.committed.intents ∧ other.nonce = row.nonce ∧ other.signer = row.signer ∧
      (other.agentId = row.agentId ∨ row.signer.isSome) := by
  obtain ⟨i, u, hmem, hcollides, hpending, hwithin, hc⟩ := h
  have hseen : other ∈ (u.snapshot i).intents := List.mem_append_left _ hmem
  have hother := List.all_eq_true.1 hc other hseen
  rw [decide_eq_true_eq] at hother
  obtain ⟨hid, hnamespace⟩ := hother
  refine ⟨hwithin.intents hmem, ?_⟩
  unfold IntentRow.collides at hcollides
  rw [decide_eq_true_eq] at hcollides
  rcases hcollides with hsame | ⟨hagent, hnonce⟩ | ⟨hsome, hsame⟩ | ⟨hsome, hsame⟩
  · exact absurd hsame hid
  · exact ⟨hnonce, hnamespace hagent hnonce, .inl hagent⟩
  · exact absurd hsame (hscope (hsame ▸ hsome))
  · obtain ⟨p, hp⟩ := Option.isSome_iff_exists.1 hsome
    obtain ⟨p', hp', hpair⟩ := Option.map_eq_some_iff.1 hp
    obtain ⟨q, hq, hpair'⟩ := Option.map_eq_some_iff.1 (hsame.symm.trans hp)
    obtain ⟨hidentity, hnonce⟩ := Prod.mk.inj (hpair.trans hpair'.symm)
    exact ⟨hnonce, by simp [IntentRow.signer, hp', hq, hidentity], .inr (by simp [IntentRow.signer, hq])⟩

omit [DecidableEq ι] in
/-- Two rows that are committed and collide are one. -/
theorem SubmitInv.eq_of_collides (h : SubmitInv s) (hrow : row ∈ s.committed.intents)
    (hother : other ∈ s.committed.intents) (hc : other.collides row = true) : other = row := by
  obtain ⟨os, hos⟩ := h.complete
  have hdistinct := hos ▸ h.whole
  obtain ⟨o, ho, rfl⟩ := List.mem_map.1 (hos ▸ hrow : row ∈ (Submission.all os).intents)
  obtain ⟨o', ho', rfl⟩ := List.mem_map.1 (hos ▸ hother : other ∈ (Submission.all os).intents)
  rw [Submission.eq_of_collides hdistinct ho' ho hc]

end

/-! ## Independence -/

/-- What an agent's own request is answered depends on the agent's own intents. -/
structure DirectIndependent (agent : Agent) (req : IntentRequest) (x : Except PyError Submitted)
    (rows : Rows) : Prop where
  replay : x = .error .replayDetected → ∃ other ∈ rows.intents, other.signer = none ∧
    other.agentId = agent.id ∧ other.nonce = req.nonce
  accepted : ∀ y, x = .ok y → ∀ other ∈ rows.intents, other.signer = none →
    other.agentId = agent.id → other.nonce = req.nonce → other = y.intent

/-- Whether an adapter's request is a replay depends on the requests of its identity. -/
structure AdapterIndependent (identity : IntegrationIdentity) (req : AttestedRequest)
    (x : Except PyError Submitted) (tr : List Told) (rows : Rows) : Prop where
  replay : x = .error .adapterReplayDetected → ∃ other ∈ rows.intents,
    other.signer = some identity.id ∧ other.nonce = req.nonce
  /-- A request that commits is a fresh one. -/
  accepted : ∀ y, x = .ok y → Saved tr → ∀ other ∈ rows.intents,
    other.signer = some identity.id → other.nonce = req.nonce → other = y.intent

theorem IntentRow.adapterNonce_eq {i : IntentRow} {id : Uuid} {nonce : String} :
    i.adapterNonce = some (id, nonce) ↔ i.signer = some id ∧ i.nonce = nonce := by
  simp only [adapterNonce, signer, Option.map_eq_some_iff, Prod.mk.injEq]
  constructor
  · rintro ⟨p, hp, hid, hnonce⟩
    exact ⟨⟨p, hp, hid⟩, hnonce⟩
  · rintro ⟨⟨p, hp, hid⟩, hnonce⟩
    exact ⟨p, hp, hid, hnonce⟩

section

variable {ι : Type} [DecidableEq ι] {H : OperationHost}

/-- **Replay namespaces are independent**, in every run in which no intent is flushed beside a row of
another namespace with its agent and its nonce. -/
theorem namespaces_independent {w : Sessions ι}
    (h : Reach (((ledgerMachine H.toEvidenceHost ι).restrict Separated).reporting (Option Response))
      (submitting H) Session.Start w) :
    (∀ agent req x tr, (some ⟨.direct agent req, x⟩, tr) ∈ w.store.reports →
      DirectIndependent agent req x w.store.store.committed) ∧
    ∀ identity req x tr, (some ⟨.attested identity req, x⟩, tr) ∈ w.store.reports →
      AdapterIndependent identity req x tr w.store.store.committed := by
  obtain ⟨hinv, hreports⟩ := reach_replies h
  constructor
  · intro agent req x tr hmem
    have hreply := hreports _ hmem _ rfl
    constructor
    · rintro rfl
      obtain ⟨row, other, hr⟩ := hreply.2 rfl
      have hsigner : row.signer = none := by simp [IntentRow.signer, hr.provenance]
      have hscope : row.operationScope.isSome → other.operationScope ≠ row.operationScope := by
        simp [IntentRow.operationScope, hr.provenance]
      obtain ⟨hother, hnonce, hsame, hagent⟩ := hr.refused.sameNamespace hscope
      refine ⟨other, hother, hsame.trans hsigner, ?_, hnonce.trans hr.nonce⟩
      rw [hsigner] at hagent
      exact (hagent.resolve_right (by simp)).trans hr.agentId
    · rintro y rfl other hother - hagent hnonce
      have hy : DirectReply agent req y _ := hreply
      refine hinv.eq_of_collides hy.decided.intent hother ?_
      simp [IntentRow.collides, hagent, hnonce, hy.agentId, hy.nonce]
  · intro identity req x tr hmem
    have hreply := hreports _ hmem _ rfl
    constructor
    · rintro rfl
      obtain ⟨row, other, hr⟩ := hreply.2.2 rfl
      obtain ⟨hsigner, hrow⟩ := IntentRow.adapterNonce_eq.1 hr.nonce
      obtain ⟨hother, hnonce, hsame, -⟩ := hr.refused.sameNamespace fun _ => hr.scope
      exact ⟨other, hother, hsame.trans hsigner, hnonce.trans hrow⟩
    · rintro y rfl hsaved other hother hsigner hnonce
      obtain ⟨a, hy⟩ := hreply
      refine hinv.eq_of_collides hy.decided.intent hother ?_
      have hother' := IntentRow.adapterNonce_eq.2 ⟨hsigner, hnonce⟩
      simp [IntentRow.collides, hother', hy.nonce hsaved]

end

/-! ## An agent and an adapter -/

/-- A payment that the agent asks for itself. -/
def ownPayment (nonce : String) : Request :=
  .direct ⟨2, 1, .active⟩
    { action := "vendor_payment"
      amount := some 100
      currency := some "EUR"
      counterparty := none
      context := []
      requestedAt := 0
      nonce }

/-- Each of the two has its own nonce, and sends it twice. -/
def apart : List Request :=
  [ownPayment "n", .attested adapterIdentity (payment 100 "op" "m"), ownPayment "n",
    .attested adapterIdentity (payment 100 "op2" "m")]

/-- Their run, as far as every flush is `separated`. -/
def separately : Sessions Bool :=
  (((Ledger.schedule adapterHost.toEvidenceHost allowAll).restrict separated).reporting
    (Option Response)).perform 40 (apart.map fun r => (true, sending r)) unsent

/-- The error of a response. -/
def Response.error? (y : Response) : Option PyError :=
  match y.result with
  | .ok _ => none
  | .error e => some e

theorem namespaces_independent_apart :
    (separately.store.reports.map fun e => e.1.map Response.error?) =
      [some none, some none, some (some .replayDetected), some (some .adapterReplayDetected)] ∧
    (∀ agent req x tr, (some ⟨.direct agent req, x⟩, tr) ∈ separately.store.reports →
      DirectIndependent agent req x separately.store.store.committed) ∧
    ∀ identity req x tr, (some ⟨.attested identity req, x⟩, tr) ∈ separately.store.reports →
      AdapterIndependent identity req x tr separately.store.store.committed := by
  refine ⟨by decide +kernel, namespaces_independent (Schedule.perform_reach (.init unsent_start)
    fun p hp => ?_)⟩
  obtain ⟨r, -, rfl⟩ := List.mem_map.1 hp
  exact sending_mem r

/-- The adapter uses the nonce first. -/
def overlapping : List Request :=
  [.attested adapterIdentity (payment 100 "op" "n"), ownPayment "n"]

/-- The report is of an intent of an agent, which is refused as a replay. -/
def isReplay (e : Option Response × List Told) : Bool :=
  match e with
  | (some ⟨.direct _ _, .error .replayDetected⟩, _) => true
  | _ => false

/-- A replay is reported for the first intent of an agent. -/
theorem namespaces_overlapping : ∃ w : Sessions Bool,
    Reach ((ledgerMachine adapterHost.toEvidenceHost Bool).reporting (Option Response))
      (submitting adapterHost) Session.Start w ∧
    ∃ agent req tr, (some ⟨.direct agent req, .error .replayDetected⟩, tr) ∈ w.store.reports ∧
      ∀ row ∈ w.store.store.committed.intents, row.signer ≠ none := by
  have hrows : ∀ row ∈ (sent (Ledger.schedule adapterHost.toEvidenceHost allowAll)
      overlapping).store.store.committed.intents, row.signer ≠ none := by decide +kernel
  have hreplay : (sent (Ledger.schedule adapterHost.toEvidenceHost allowAll)
      overlapping).store.reports.any isReplay = true := by decide +kernel
  obtain ⟨e, he, hreplay⟩ := List.any_eq_true.1 hreplay
  refine ⟨_, sent_reach (Ledger.schedule adapterHost.toEvidenceHost allowAll) overlapping, ?_⟩
  unfold isReplay at hreplay
  split at hreplay
  · exact ⟨_, _, _, he, hrows⟩
  · cases hreplay

end PayReality
