import PayReality.Lib.Runs
import PayReality.Sdk.HttpClient

/-!
# Retried calls

The client sends a call's request until an attempt is answered; the server keeps what each attempt
that reached it did, answered or not. An attested request is recognized by its operation. An
agent's own request is recognized by its nonce alone, and refused for it, so that a call comes out
with its decision exactly as long as no attempt is processed behind one that is committed
(`unrepeated`).

**Main result** `retries_transparent`.
-/

namespace PayReality

open Program Sdk

/-! ## Calls -/

/-- Whether a row is an attempt of the call with this request. -/
def Request.owns : Request → IntentRow → Bool
  | .direct agent req, row =>
    row.signer = none ∧ row.agentId = agent.id ∧ row.nonce = req.nonce
  | .attested identity req, row => row.adapterNonce = some (identity.id, req.nonce)

/-- One attempt: what the server made of it, where it got there, and what the client saw. -/
structure Attempt where
  result : Option (Except PyError Submitted)
  exchange : Exchange

/-- The attempts up to `n` are lost, before the server or behind it, or fail with an error that is
retried; then one is answered, with `x`. -/
structure Completes (H : OperationHost) (maxRetries : ℕ) (r : Request)
    (reports : List (Option Response × List Told)) (attempts : ℕ → Attempt) (n : ℕ)
    (x : Except PyError Submitted) (tr : List Told) : Prop where
  lost : ∀ k < n, (attempts k).exchange.retryable = true
  enough : n ≤ maxRetries
  processed : ∀ k y, (attempts k).result = some y → ∃ tr, (some ⟨r, y⟩, tr) ∈ reports
  result : (attempts n).result = some x
  report : (some ⟨r, x⟩, tr) ∈ reports
  answered : ∃ systemName resolved str,
    (attempts n).exchange = .response (respond H systemName resolved str r x) ∧
      (respond H systemName resolved str r x).Successful

/-- Whatever is committed for the operation of an attested request is an attempt at it, and means
what the request does. -/
def OwnOperation (H : OperationHost) (r : Request) (tr : List Told) (rows : Rows) : Prop :=
  ∀ identity req, r = .attested identity req → ∀ a, Attests H identity req tr a →
    ∀ row ∈ rows.intents, row.operationScope = some (IntegrationRuntimeService.Attested.scope a req) →
      r.owns row = true ∧ row.fingerprint = some a.fingerprint

/-- A call returns the one decision of the one intent that its attempts leave. -/
structure Transparent (H : OperationHost) (r : Request) (attempts : ℕ → Attempt)
    (result : Except SdkError Sdk.Decision) (rows : Rows) (y : Submitted) : Prop where
  returns : ∃ d, result = .ok d ∧ Shows H d y
  intents : rows.intents.filter (r.owns ·) = [y.intent]
  decisions : (rows.decisions.filter fun d => ∃ row ∈ rows.intents,
    r.owns row = true ∧ d.intentId = row.id) = [y.decision]
  attempts : ∀ k y', (attempts k).result = some (.ok y') → y'.intent = y.intent ∧ y'.decision = y.decision

/-! ## The condition -/

/-- What stands in the way of an intent that is flushed is an intent of its operation. -/
def unrepeated {ι : Type} [DecidableEq ι] (i : ι) (q : LedgerStatement) (s : Ledger ι)
    (_ : Except PyError q.Answer) : Bool :=
  match q with
  | .flushIntent row => (s.snapshot i).intents.all fun other =>
      other.collides row → row.operationScope.isSome ∧ other.operationScope = row.operationScope
  | _ => true

abbrev Unrepeated {ι : Type} [DecidableEq ι] (i : ι) (q : LedgerStatement) (s : Ledger ι)
    (r : Except PyError q.Answer) : Prop := unrepeated i q s r = true

section

variable {ι : Type} [DecidableEq ι] {H : OperationHost} {s : Ledger ι} {tr : List Told}
  {row other : IntentRow} {r : Request} {x : Except PyError Submitted} {y : Submitted}

theorem Refused.sameOperation (h : Refused Unrepeated row other s) :
    row.operationScope.isSome ∧ other.operationScope = row.operationScope := by
  obtain ⟨i, u, hmem, hcollides, -, -, hc⟩ := h
  have hseen : other ∈ (u.snapshot i).intents := List.mem_append_left _ hmem
  have hother := List.all_eq_true.1 hc other hseen
  exact of_decide_eq_true hother hcollides

/-! ## What is answered -/

variable {systemName : Option String} {resolved : Bool} {str : List String → String}

omit [DecidableEq ι] in
/-- An agent's own request is taken, or is refused as a replay. -/
theorem direct_of_successful {agent : Agent} {req : IntentRequest}
    (h : (respond H systemName resolved str (.direct agent req) x).Successful) :
    (∃ y, x = .ok y) ∨ x = .error .replayDetected := by
  have h : (IntentsRouter.submitIntent H systemName x).Successful := h
  unfold IntentsRouter.submitIntent at h
  split at h
  · exact .inl ⟨_, rfl⟩
  · simp [HttpResponse.Successful, httpException] at h
  · simp [HttpResponse.Successful, httpException] at h
  · simp [HttpResponse.Successful, httpException] at h
  · simp [HttpResponse.Successful, httpException] at h
  · exact .inr rfl
  · simp [HttpResponse.Successful, internalServerError] at h

omit [DecidableEq ι] in
/-- An attested request is taken, or is refused for what is committed. -/
theorem attested_of_successful {identity : IntegrationIdentity} {req : AttestedRequest}
    (h : (respond H systemName resolved str (.attested identity req) x).Successful) :
    (∃ y, x = .ok y) ∨ x = .error .adapterReplayDetected ∨ x = .error .externalOperationConflict := by
  have h : (IntegrationRuntimeRouter.submitAttestedIntent H systemName resolved str x).Successful := h
  unfold IntegrationRuntimeRouter.submitAttestedIntent at h
  split at h
  · exact .inl ⟨_, rfl⟩
  · simp [HttpResponse.Successful, httpException] at h
  · exact .inr (.inl rfl)
  · exact .inr (.inr rfl)
  · simp [HttpResponse.Successful, internalServerError] at h

/-- A request that is answered is taken. -/
theorem Reply.ok_of_successful (h : Reply H Unrepeated tr s r x)
    (hs : (respond H systemName resolved str r x).Successful)
    (hown : OwnOperation H r tr s.committed) :
    ∃ y, x = .ok y := by
  cases r with
  | direct agent req =>
    rcases direct_of_successful hs with hok | rfl
    · exact hok
    · -- nothing stands in the way of an agent's own intent
      obtain ⟨row, other, hr⟩ := h.2 rfl
      have hsome := hr.refused.sameOperation.1
      simp [IntentRow.operationScope, hr.provenance] at hsome
  | attested identity req =>
    rcases attested_of_successful hs with hok | rfl | rfl
    · exact hok
    · obtain ⟨row, other, hr⟩ := h.2.2 rfl
      exact absurd hr.refused.sameOperation.2 hr.scope
    · obtain ⟨a, row, hr⟩ := h.2.1 rfl
      exact absurd (hown identity req rfl a hr.attests row hr.mem hr.scope).2 hr.fingerprint

/-- What is returned belongs to the call. -/
theorem Reply.owns (h : Reply H Unrepeated tr s r (.ok y)) (hown : OwnOperation H r tr s.committed) :
    Decided s.committed y ∧ r.owns y.intent = true := by
  cases r with
  | direct agent req =>
    have hy : DirectReply agent req y s := h
    refine ⟨hy.decided, ?_⟩
    simp [Request.owns, IntentRow.signer, hy.provenance, hy.agentId, hy.nonce]
  | attested identity req =>
    obtain ⟨a, hy⟩ := h
    exact ⟨hy.decided, (hown identity req rfl a hy.attests _ hy.decided.intent hy.scope).1⟩

/-! ## What is committed -/

theorem filter_eq_singleton {α : Type} {p : α → Bool} {xs : List α} {x : α} (hnodup : xs.Nodup)
    (hx : x ∈ xs) (hp : p x = true) (h : ∀ y ∈ xs, p y = true → y = x) : xs.filter p = [x] := by
  refine List.perm_singleton.1 ((List.perm_ext_iff_of_nodup (hnodup.filter p) (by simp)).2 ?_)
  intro y
  rw [List.mem_filter, List.mem_singleton]
  constructor
  · rintro ⟨hy, hpy⟩
    exact h y hy hpy
  · rintro rfl
    exact ⟨hx, hp⟩

theorem Rows.Distinct.nodup {a : Rows} (h : a.Distinct) : a.intents.Nodup ∧ a.decisions.Nodup := by
  refine ⟨h.intents.imp ?_, h.decisions.imp ?_⟩
  · rintro i _ hfree rfl
    rw [i.collides_self] at hfree
    cases hfree
  · rintro d _ hne rfl
    exact hne rfl

/-- Two attempts of one call collide. -/
theorem Request.collides_of_owns (h : r.owns row = true) (h' : r.owns other = true) :
    other.collides row = true := by
  cases r with
  | direct agent req =>
    obtain ⟨-, hagent, hnonce⟩ := of_decide_eq_true h
    obtain ⟨-, hagent', hnonce'⟩ := of_decide_eq_true h'
    simp [IntentRow.collides, hagent, hagent', hnonce, hnonce']
  | attested identity req =>
    have hrow := of_decide_eq_true h
    have hother := of_decide_eq_true h'
    simp [IntentRow.collides, hrow, hother]

omit [DecidableEq ι] in
/-- The decision of an intent that is committed is the only one for it. -/
theorem SubmitInv.eq_of_decides (h : SubmitInv s) {d d' : PayReality.Decision}
    (hrow : row ∈ s.committed.intents) (hd : d ∈ s.committed.decisions)
    (hd' : d' ∈ s.committed.decisions) (hid : d.intentId = row.id) (hid' : d'.intentId = row.id) :
    d = d' := by
  obtain ⟨os, hos⟩ := h.complete
  have hdistinct := hos ▸ h.whole
  obtain ⟨o, ho, hi, rfl⟩ := Submission.of_decision hdistinct (hos ▸ hrow) (hos ▸ hd) hid
  obtain ⟨o', ho', hi', rfl⟩ := Submission.of_decision hdistinct (hos ▸ hrow) (hos ▸ hd') hid'
  have hcollides : o.intent.collides o'.intent = true := by
    rw [hi, hi']
    exact row.collides_self
  rw [Submission.eq_of_collides hdistinct ho ho' hcollides]

end

/-! ## Runs -/

section

variable {ι : Type} [DecidableEq ι] {H : OperationHost}

/-- **Retries are transparent**, in every run in which no attempt of an agent's own call is
processed behind one that is committed, for every call whose operation is its own. -/
theorem retries_transparent {w : Sessions ι}
    (h : Reach (((ledgerMachine H.toEvidenceHost ι).restrict Unrepeated).reporting (Option Response))
      (submitting H) Session.Start w)
    {maxRetries n : ℕ} {r : Request} {attempts : ℕ → Attempt} {x : Except PyError Submitted}
    {tr : List Told} (hcall : Completes H maxRetries r w.store.reports attempts n x tr)
    (hown : ∀ x tr, (some ⟨r, x⟩, tr) ∈ w.store.reports →
      OwnOperation H r tr w.store.store.committed) :
    ∃ y, x = .ok y ∧ Transparent H r attempts
      (call r H.toPlatform maxRetries fun k => (attempts k).exchange) w.store.store.committed y := by
  obtain ⟨hinv, hreports⟩ := reach_replies h
  obtain ⟨systemName, resolved, str, hexchange, hsuccessful⟩ := hcall.answered
  have hreply : ∀ x tr, (some ⟨r, x⟩, tr) ∈ w.store.reports →
      Reply H Unrepeated tr w.store.store r x := fun x tr hmem => hreports _ hmem _ rfl
  obtain ⟨y, rfl⟩ := (hreply x tr hcall.report).ok_of_successful hsuccessful
    (hown x tr hcall.report)
  have howned : ∀ y', (∃ tr, (some ⟨r, .ok y'⟩, tr) ∈ w.store.reports) →
      Decided w.store.store.committed y' ∧ r.owns y'.intent = true := by
    rintro y' ⟨tr', hmem⟩
    exact (hreply _ tr' hmem).owns (hown _ tr' hmem)
  obtain ⟨hdecided, howns⟩ := howned y ⟨tr, hcall.report⟩
  have hone : ∀ row ∈ w.store.store.committed.intents, r.owns row = true → row = y.intent :=
    fun row hrow hrowns => hinv.eq_of_collides hdecided.intent hrow
      (Request.collides_of_owns howns hrowns)
  have hdecision : ∀ d ∈ w.store.store.committed.decisions, d.intentId = y.intent.id →
      d = y.decision := fun d hd hid =>
    hinv.eq_of_decides hdecided.intent hd hdecided.decision hid hdecided.decides
  refine ⟨y, rfl, ?_, ?_, ?_, fun k y' hy' => ?_⟩
  · rw [call_eq, HttpClient.request_of_retryable hcall.enough hcall.lost ?_, hexchange]
    · cases r with
      | direct agent req => exact settle_submitIntentResponse hsuccessful
      | attested identity req => exact settle_submitIntentResponse hsuccessful
    · rw [hexchange]
      exact hsuccessful.not_retryable
  · exact filter_eq_singleton hinv.whole.nodup.1 hdecided.intent howns hone
  · refine filter_eq_singleton hinv.whole.nodup.2 hdecided.decision ?_ fun d hd hp => ?_
    · exact decide_eq_true ⟨y.intent, hdecided.intent, howns, hdecided.decides⟩
    · obtain ⟨row, hrow, hrowns, hid⟩ := of_decide_eq_true hp
      exact hdecision d hd (hone row hrow hrowns ▸ hid)
  · obtain ⟨hdecided', howns'⟩ := howned y' (hcall.processed k _ hy')
    have hsame := hone _ hdecided'.intent howns'
    exact ⟨hsame, hdecision _ hdecided'.decision (hsame ▸ hdecided'.decides)⟩

end

/-! ## A payment whose first response is lost -/

/-- Each response in a run of one request is to it. -/
theorem request_of_reach {M : Machine LedgerStatement LedgerStatement.Answer PyError (Ledger Bool) Bool}
    {r : Request} {w : Sessions Bool}
    (h : Reach (M.reporting (Option Response)) {sending r} (· = unsent.store) w) {y : Response}
    {tr : List Told} (hmem : (some y, tr) ∈ w.store.reports) : y.request = r := by
  have hunrestricted : Reach ((M.reporting (Option Response)).restrict fun _ _ _ _ => True)
      {sending r} (· = unsent.store) w := h.imp fun _ _ _ _ _ hstep => ⟨hstep, trivial⟩
  refine Reach.sending (P := fun _ _ => True) (R := fun x _ => ∀ y, x = some y → y.request = r)
    (J := fun s : Session Bool => ∀ e ∈ s.reports, ∀ y, e.1 = some y → y.request = r) ?_ ?_
    (fun _ _ _ _ _ _ _ _ hs => hs) ?_ hunrestricted _ hmem y rfl
  · rintro p rfl
    refine ⟨_, _, _, rfl, sending_of_forall (fun _ _ y hy => ?_) fun _ _ y hy => ?_⟩
    · exact Option.some.inj hy ▸ rfl
    · exact Option.some.inj hy ▸ rfl
  · rintro s rfl
    exact ⟨fun _ => rfl, fun e he => by cases he⟩
  · intro i x s hx hs e he y hy
    rcases List.mem_append.1 he with he | he
    · exact hs e he y hy
    · obtain rfl := List.mem_singleton.1 he
      exact hx y hy

/-- The first attempt is processed and its response is lost; the second is answered. -/
def lostOnce (r : Request) (x x' : Except PyError Submitted) : ℕ → Attempt
  | 0 => ⟨some x, .raised true⟩
  | _ + 1 => ⟨some x', .response (respond adapterHost none false (fun _ => "") r x')⟩

/-- Two attempts at a request. -/
def twice {M : Machine LedgerStatement LedgerStatement.Answer PyError (Ledger Bool) Bool}
    (S : Schedule M) (r : Request) : Sessions Bool :=
  (S.reporting (Option Response)).perform 40 [(true, sending r), (true, sending r)] unsent

section

variable {M : Machine LedgerStatement LedgerStatement.Answer PyError (Ledger Bool) Bool}
  (S : Schedule M) (r : Request)

theorem twice_reach {starts : Set Reporting} {init : Session Bool → Prop} (hinit : init unsent.store)
    (hr : sending r ∈ starts) : Reach (M.reporting (Option Response)) starts init (twice S r) := by
  refine Schedule.perform_reach (.init hinit) fun p hp => ?_
  simp only [List.mem_cons, List.not_mem_nil, or_false, or_self] at hp
  exact hp ▸ hr

/-- What the two attempts were answered. -/
theorem exists_twice {p : Response → Response → Bool}
    (h : (match (twice S r).store.reports with
      | [(some y, _), (some y', _)] => p y y'
      | _ => false) = true) :
    ∃ x x' tr tr', (twice S r).store.reports = [(some ⟨r, x⟩, tr), (some ⟨r, x'⟩, tr')] ∧
      p ⟨r, x⟩ ⟨r, x'⟩ = true := by
  have hrequest : ∀ {y : Response} {tr : List Told}, (some y, tr) ∈ (twice S r).store.reports →
      y.request = r := request_of_reach (twice_reach S r rfl rfl)
  split at h
  · next y tr y' tr' hreports =>
    have hy : y.request = r := hrequest (hreports ▸ List.mem_cons_self)
    have hy' : y'.request = r := hrequest (hreports ▸ List.mem_cons_of_mem _ List.mem_cons_self)
    obtain ⟨_, x⟩ := y
    obtain ⟨_, x'⟩ := y'
    cases hy
    cases hy'
    exact ⟨x, x', tr, tr', hreports, h⟩
  · cases h

/-- The call of the two attempts. -/
theorem completes_lostOnce {x x' : Except PyError Submitted} {tr tr' : List Told}
    (h : (twice S r).store.reports = [(some ⟨r, x⟩, tr), (some ⟨r, x'⟩, tr')])
    (hs : (respond adapterHost none false (fun _ => "") r x').Successful) :
    Completes adapterHost 3 r (twice S r).store.reports (lostOnce r x x') 1 x' tr' where
  lost k hk := by
    obtain rfl : k = 0 := by omega
    rfl
  enough := by decide
  processed k y hy := by
    cases k with
    | zero =>
      cases hy
      exact ⟨tr, by simp [h]⟩
    | succ k =>
      cases hy
      exact ⟨tr', by simp [h]⟩
  result := rfl
  report := by simp [h]
  answered := ⟨none, false, _, rfl, hs⟩

end

/-- The adapter attests a payment. -/
def attestedPayment : Request := .attested adapterIdentity (payment 100 "op" "n")

/-- The scheduler of the runs of the theorem. -/
def unrepeatedly : Schedule ((ledgerMachine adapterHost.toEvidenceHost Bool).restrict Unrepeated) :=
  (Ledger.schedule adapterHost.toEvidenceHost allowAll).restrict unrepeated

/-- The second attempt returns what the first one does. -/
def bothTaken (y y' : Response) : Bool :=
  match y.result, y'.result with
  | .ok _, .ok x' => (respond adapterHost none false (fun _ => "") y'.request (.ok x')).statusCode = 200
  | _, _ => false

/-- Every contract version that is seen has the one content. -/
def seesContract : Told → Bool
  | ⟨.read, .ok v⟩ => v.db.contractVersions.all fun c => c.contentHash = some "contract"
  | _ => true

/-- A row of the payment, with its meaning. -/
def ofPayment (row : IntentRow) : Bool :=
  attestedPayment.owns row ∧ row.fingerprint = (OperationIdentity.fingerprint adapterHost 2
    (some "contract") "pay" "vendor_payment" none (some 100) (some "EUR") none
    [("risk", .int 1)]).toOption

theorem ownOperation_payment {tr : List Told} {rows : Rows} (htr : tr.all seesContract = true)
    (hrows : rows.intents.all ofPayment = true) : OwnOperation adapterHost attestedPayment tr rows := by
  intro identity req hr a ha row hrow _
  cases hr
  obtain ⟨howns, hmeaning⟩ := of_decide_eq_true (List.all_eq_true.1 hrows row hrow)
  refine ⟨howns, ?_⟩
  obtain ⟨v, -, hagent⟩ := ha.trusted.agentRead
  obtain ⟨v', hv', hcontract⟩ := ha.trusted.contractRead
  have hagent : a.agent.id = (payment 100 "op" "n").originAgentId := by
    simpa using List.find?_some hagent
  have hcontent : a.contractVersion.contentHash = some "contract" := by
    have hall : (v'.db.contractVersions.all fun c => c.contentHash = some "contract") = true :=
      List.all_eq_true.1 htr _ hv'
    exact of_decide_eq_true (List.all_eq_true.1 hall _ (List.mem_of_find?_eq_some hcontract))
  have hfingerprint := ha.fingerprint
  rw [hagent, hcontent] at hfingerprint
  rw [hmeaning]
  exact congrArg Except.toOption hfingerprint

theorem retries_transparent_payment : ∃ x tr y,
    Completes adapterHost 3 attestedPayment (twice unrepeatedly attestedPayment).store.reports
      (lostOnce attestedPayment x (.ok y)) 1 (.ok y) tr ∧
    Transparent adapterHost attestedPayment (lostOnce attestedPayment x (.ok y))
      (call attestedPayment adapterHost.toPlatform 3 fun k =>
        (lostOnce attestedPayment x (.ok y) k).exchange)
      (twice unrepeatedly attestedPayment).store.store.committed y := by
  obtain ⟨x, x', tr, tr', hreports, htaken⟩ := exists_twice unrepeatedly attestedPayment
    (p := bothTaken) (by decide +kernel)
  have htraces : ((twice unrepeatedly attestedPayment).store.reports.all fun e =>
    e.2.all seesContract) = true := by decide +kernel
  have hrows : (twice unrepeatedly attestedPayment).store.store.committed.intents.all ofPayment =
    true := by decide +kernel
  unfold bothTaken at htaken
  split at htaken
  · next y y' hy hy' =>
    cases hy
    cases hy'
    have hcall := completes_lostOnce unrepeatedly attestedPayment hreports
      (.inl (by rw [of_decide_eq_true htaken]; decide))
    refine ⟨_, _, _, hcall, ?_⟩
    obtain ⟨y'', hy'', htransparent⟩ := retries_transparent
      (twice_reach unrepeatedly attestedPayment unsent_start (sending_mem attestedPayment)) hcall
      fun x tr hmem => ownOperation_payment (List.all_eq_true.1 htraces _ hmem) hrows
    cases hy''
    exact htransparent
  · cases htaken

/-- The second attempt is refused as a replay of the first. -/
def takenOnce (y y' : Response) : Bool :=
  match y.result, y'.result with
  | .ok _, .error e => e = .replayDetected
  | _, _ => false

theorem retries_lost_response : ∃ w : Sessions Bool,
    Reach ((ledgerMachine adapterHost.toEvidenceHost Bool).reporting (Option Response))
      (submitting adapterHost) Session.Start w ∧
    ∃ attempts x tr y, Completes adapterHost 3 (ownPayment "n") w.store.reports attempts 1 x tr ∧
      (attempts 0).result = some (.ok y) ∧
      call (ownPayment "n") adapterHost.toPlatform 3 (fun k => (attempts k).exchange) =
        .error (.apiError 409 (.obj [("detail", .str "replay_detected")])) := by
  obtain ⟨x, x', tr, tr', hreports, htaken⟩ :=
    exists_twice (Ledger.schedule adapterHost.toEvidenceHost allowAll) (ownPayment "n")
      (p := takenOnce) (by decide +kernel)
  unfold takenOnce at htaken
  split at htaken
  · next y e hy he =>
    cases hy
    cases he
    obtain rfl := of_decide_eq_true htaken
    refine ⟨_, twice_reach _ _ unsent_start (sending_mem _), _, _, _, y,
      completes_lostOnce _ _ hreports (.inr rfl), rfl, rfl⟩
  · cases htaken

end PayReality
