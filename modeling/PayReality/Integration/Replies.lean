import PayReality.Integration.Sessions

/-!
# What requests are answered

A submission that returns has its intent, its decision and the evidence committed (`Decided`). An
attested request that returns, or is refused, is compared with what is committed for its operation;
a request that a unique index refuses has met a row of an earlier submission (`Refused`).

`Reply` says so of the trace of the request, and of every store from its response on.
-/

namespace PayReality

open Program LedgerService IntentService IntegrationRuntimeService

/-! ## Replies -/

/-- `canonical_operation_fingerprint`. -/
def IntentRow.fingerprint (i : IntentRow) : Option String :=
  i.provenance.map IntegrationProvenance.canonicalOperationFingerprint

/-- What a request attested, as far as its trace shows. -/
structure Attests (H : OperationHost) (identity : IntegrationIdentity) (req : AttestedRequest)
    (tr : List Told) (a : Attested) : Prop where
  trusted : Trusted H identity req (fun q r => ⟨q, r⟩ ∈ tr) a
  fingerprint : OperationIdentity.fingerprint H a.agent.id a.contractVersion.contentHash
    req.sourceOperation req.action req.resource req.amount req.currency req.counterparty
    req.context = .ok a.fingerprint

/-- What is returned is committed. -/
structure Decided (rows : Rows) (x : Submitted) : Prop where
  intent : x.intent ∈ rows.intents
  decision : x.decision ∈ rows.decisions
  decides : x.decision.intentId = x.intent.id
  evidence : ∃ e ∈ rows.evidence, x.evidence.map EvidenceRow.id = some e.id ∧
    e.decisionId = x.decision.id

section Replies

variable {ι : Type} [DecidableEq ι] (H : OperationHost)
  (c : ι → (q : LedgerStatement) → Ledger ι → Except PyError q.Answer → Prop)

/-- A row that was refused, at a step that `c` allowed, beside the one that was in its way. -/
def Refused (row other : IntentRow) (s : Ledger ι) : Prop :=
  ∃ i u, other ∈ u.committed.intents ∧ other.collides row = true ∧ u.pending i = {} ∧
    u.committed.Within s.committed ∧ c i (.flushIntent row) u (.error .integrityError)

/-- The decision of an operation, for a request with its fingerprint. -/
structure AttestedReply (identity : IntegrationIdentity) (req : AttestedRequest) (x : Submitted)
    (tr : List Told) (s : Ledger ι) (a : Attested) : Prop where
  attests : Attests H identity req tr a
  decided : Decided s.committed x
  scope : x.intent.operationScope = some (Attested.scope a req)
  fingerprint : x.intent.fingerprint = some a.fingerprint
  /-- A new operation has the request's nonce. -/
  nonce : Saved tr → x.intent.adapterNonce = some (identity.id, req.nonce)

/-- An operation with another meaning. -/
structure Conflict (identity : IntegrationIdentity) (req : AttestedRequest) (tr : List Told)
    (s : Ledger ι) (a : Attested) (row : IntentRow) : Prop where
  attests : Attests H identity req tr a
  mem : row ∈ s.committed.intents
  scope : row.operationScope = some (Attested.scope a req)
  fingerprint : row.fingerprint ≠ some a.fingerprint

/-- A row that only its nonce was refused for. -/
structure AdapterReplay (identity : IntegrationIdentity) (req : AttestedRequest) (s : Ledger ι)
    (row other : IntentRow) : Prop where
  nonce : row.adapterNonce = some (identity.id, req.nonce)
  refused : Refused c row other s
  scope : other.operationScope ≠ row.operationScope

/-- The decision of an agent's own request. -/
structure DirectReply (agent : Agent) (req : IntentRequest) (x : Submitted) (s : Ledger ι) :
    Prop where
  decided : Decided s.committed x
  agentId : x.intent.agentId = agent.id
  nonce : x.intent.nonce = req.nonce
  provenance : x.intent.provenance = none

/-- A row of an agent that was refused. -/
structure DirectReplay (agent : Agent) (req : IntentRequest) (s : Ledger ι)
    (row other : IntentRow) : Prop where
  agentId : row.agentId = agent.id
  nonce : row.nonce = req.nonce
  provenance : row.provenance = none
  refused : Refused c row other s

/-- What a request may be answered, in a store. -/
def Reply (tr : List Told) (s : Ledger ι) : Request → Except PyError Submitted → Prop
  | .attested identity req, .ok x => ∃ a, AttestedReply H identity req x tr s a
  | .attested identity req, .error e =>
      NothingSaved e tr ∧
        (e = .externalOperationConflict → ∃ a row, Conflict H identity req tr s a row) ∧
        (e = .adapterReplayDetected → ∃ row other, AdapterReplay c identity req s row other)
  | .direct agent req, .ok x => DirectReply agent req x s
  | .direct agent req, .error e =>
      NothingSaved e tr ∧ (e = .replayDetected → ∃ row other, DirectReplay c agent req s row other)

/-- The condition on a response. -/
def Replied (x : Option Response) (tr : List Told) (s : Ledger ι) : Prop :=
  ∀ y, x = some y → Reply H c tr s y.request y.result

variable {H c}

omit [DecidableEq ι] in
theorem Refused.mono {row other : IntentRow} {s t : Ledger ι} (h : Refused c row other s)
    (hst : s.committed.Within t.committed) : Refused c row other t := by
  obtain ⟨i, u, hmem, hcollides, hpending, hwithin, hc⟩ := h
  exact ⟨i, u, hmem, hcollides, hpending, hwithin.trans hst, hc⟩

theorem Decided.mono {a b : Rows} {x : Submitted} (h : Decided a x) (hab : a.Within b) :
    Decided b x := by
  obtain ⟨e, he, hid, hdecision⟩ := h.evidence
  exact ⟨hab.intents h.intent, hab.decisions h.decision, h.decides,
    e, hab.evidence he, hid, hdecision⟩

theorem Trusted.mono {identity : IntegrationIdentity} {req : AttestedRequest}
    {ok ok' : (q : LedgerStatement) → Except PyError q.Answer → Prop} {a : Attested}
    (h : Trusted H identity req ok a) (hok : ∀ q r, ok q r → ok' q r) :
    Trusted H identity req ok' a where
  bindingRead := h.bindingRead.imp fun _ hv => ⟨hok _ _ hv.1, hv.2⟩
  binding := h.binding
  agentRead := h.agentRead.imp fun _ hv => ⟨hok _ _ hv.1, hv.2⟩
  contractRead := h.contractRead.imp fun _ hv => ⟨hok _ _ hv.1, hv.2⟩
  conforms := h.conforms
  finalContext := h.finalContext

theorem Attests.mono {identity : IntegrationIdentity} {req : AttestedRequest} {tr tr' : List Told}
    {a : Attested} (h : Attests H identity req tr a) (htr : tr ⊆ tr') :
    Attests H identity req tr' a :=
  ⟨h.trusted.mono fun _ _ hmem => htr hmem, h.fingerprint⟩

omit [DecidableEq ι] in
/-- A reply stays true while what is committed stays. -/
theorem Reply.mono {tr tr' : List Told} {s t : Ledger ι} {r : Request} {x : Except PyError Submitted}
    (h : Reply H c tr s r x) (htr : tr ⊆ tr') (hsaved : Saved tr' → Saved tr)
    (hst : s.committed.Within t.committed) : Reply H c tr' t r x := by
  have hnothing : ∀ e, NothingSaved e tr → NothingSaved e tr' := fun e he =>
    he.imp (mt hsaved) fun h => ⟨h.1, htr h.2⟩
  cases r with
  | attested identity req =>
    cases x with
    | ok x =>
      obtain ⟨a, ha⟩ := h
      exact ⟨a, ha.attests.mono htr, ha.decided.mono hst, ha.scope, ha.fingerprint,
        fun hs => ha.nonce (hsaved hs)⟩
    | error e =>
      obtain ⟨hn, hconflict, hreplay⟩ := h
      refine ⟨hnothing e hn, fun he => ?_, fun he => ?_⟩
      · obtain ⟨a, row, ha⟩ := hconflict he
        exact ⟨a, row, ha.attests.mono htr, hst.intents ha.mem, ha.scope, ha.fingerprint⟩
      · obtain ⟨row, other, hr⟩ := hreplay he
        exact ⟨row, other, hr.nonce, hr.refused.mono hst, hr.scope⟩
  | direct agent req =>
    cases x with
    | ok x => exact ⟨h.decided.mono hst, h.agentId, h.nonce, h.provenance⟩
    | error e =>
      refine ⟨hnothing e h.1, fun he => ?_⟩
      obtain ⟨row, other, hr⟩ := h.2 he
      exact ⟨row, other, hr.agentId, hr.nonce, hr.provenance, hr.refused.mono hst⟩

omit [DecidableEq ι] in
/-- Any exception that is not about an earlier submission. -/
theorem Reply.plain {tr : List Told} {s : Ledger ι} {e : PyError} (r : Request) (he : Plain e)
    (h : NothingSaved e tr) : Reply H c tr s r (.error e) := by
  cases r with
  | attested => exact ⟨h, fun heq => absurd heq he.conflict, fun heq => absurd heq he.adapterReplay⟩
  | direct => exact ⟨h, fun heq => absurd heq he.replay⟩

theorem replied_stable : Stable (submitLogic H.toEvidenceHost c) (Replied H c) where
  step _ _ hstep h x hx := (h x hx).mono (List.Subset.refl _) id (Ledger.step_within hstep.1)
  rely hst h x hx := (h x hx).mono (List.Subset.refl _) id hst.within

end Replies

end PayReality
