import PayReality.Integration.Namespaces
import PayReality.Simulation.Explainer

/-!
# The client of a submission

`HttpClient.request`, with its retries; the routes that it asks for `Agent.authorize` and
`Adapter.attest`; and what these two make of the response. The model begins where the request is
signed: each attempt sends it again, byte for byte.

**Main results** `request_of_retryable`: attempts that are retried leave no mark on what is
returned. `settle_submitIntentResponse`: a submission that is answered comes out as its decision.
-/

namespace PayReality

namespace Sdk

/-! ## Exchanges -/

/-- The body of a response, as far as it parses. -/
inductive Content where
  | json (v : Json)
  | text (s : String)

structure HttpResponse where
  statusCode : ℕ
  content : Content

/-- What an attempt comes to. -/
inductive Exchange where
  /-- An exception of `requests`; `connection` for a `ConnectionError` or a `Timeout`. -/
  | raised (connection : Bool)
  | response (r : HttpResponse)

/-- The exceptions that the client raises; of a message that ends in a detail, the detail. -/
inductive SdkError where
  /-- One of Python's own. -/
  | python (e : PyError)
  | networkError
  | invalidSignature (reason : String) (statusCode : ℕ)
  | authenticationError (detail : Json) (statusCode : ℕ)
  | apiError (statusCode : ℕ) (body : Json)

/-! ### `retry.py` -/

/-- `RETRYABLE_STATUS_CODES`. -/
def retryableStatusCodes : List ℕ := [500, 502, 503, 504]

def isRetryableStatus (statusCode : ℕ) : Bool := statusCode ∈ retryableStatusCodes

/-- An attempt that is made again while there are some left. -/
def Exchange.retryable : Exchange → Bool
  | .raised connection => connection
  | .response r => isRetryableStatus r.statusCode

/-! ### `client.py` -/

namespace HttpClient

variable (P : Platform)

/-- `"signature" in detail.lower()`. -/
def mentionsSignature (detail : String) : Bool :=
  (P.lower detail).toList.tails.any "signature".toList.isPrefixOf

/-- `_raise_for_response`. -/
def raiseForResponse (r : HttpResponse) : SdkError :=
  let body := match r.content with
    | .json v => v
    | .text s => .str s
  let detail := match body with
    | .obj _ => (body.get? "detail").getD .null
    | _ => body
  if r.statusCode = 401 then
    match detail with
    | .str s =>
      if mentionsSignature P s then .invalidSignature s 401 else .authenticationError detail 401
    | _ => .authenticationError detail 401
  else if r.statusCode = 403 then .authenticationError detail 403
  else .apiError r.statusCode body

/-- What a response below 300 returns: `{}` for an empty body, or `response.json()`. -/
def HttpResponse.json (r : HttpResponse) : Except SdkError Json :=
  match r.content with
  | .json v => .ok v
  | .text s => if s = "" then .ok (.obj []) else .error (.python .valueError)

/-- The loop of `request`, with the attempts that are left and the number of the next. -/
def requestFrom (maxRetries : ℕ) (exchange : ℕ → Exchange) : ℕ → ℕ → Except SdkError Json
  | 0, _ => .error .networkError
  | left + 1, attempt =>
    match exchange attempt with
    | .raised connection =>
      if connection ∧ attempt < maxRetries then requestFrom maxRetries exchange left (attempt + 1)
      else .error .networkError
    | .response r =>
      if r.statusCode < 300 then HttpResponse.json r
      else if isRetryableStatus r.statusCode ∧ attempt < maxRetries then
        requestFrom maxRetries exchange left (attempt + 1)
      else .error (raiseForResponse P r)

/-- `request`, of what the attempts come to. -/
def request (maxRetries : ℕ) (exchange : ℕ → Exchange) : Except SdkError Json :=
  requestFrom P maxRetries exchange (maxRetries + 1) 0

/-- What is returned for the attempt that is the last. -/
def settle : Exchange → Except SdkError Json
  | .raised _ => .error .networkError
  | .response r => if r.statusCode < 300 then HttpResponse.json r else .error (raiseForResponse P r)

variable {P} {maxRetries : ℕ} {exchange : ℕ → Exchange}

theorem not_lt_of_isRetryableStatus {statusCode : ℕ} (h : isRetryableStatus statusCode = true) :
    ¬ statusCode < 300 := by
  simp only [isRetryableStatus, retryableStatusCodes, decide_eq_true_eq, List.mem_cons,
    List.not_mem_nil, or_false] at h
  omega

/-- One attempt of the loop: it is made again, or it settles the request. -/
theorem requestFrom_succ (left attempt : ℕ) :
    requestFrom P maxRetries exchange (left + 1) attempt =
      if (exchange attempt).retryable ∧ attempt < maxRetries then
        requestFrom P maxRetries exchange left (attempt + 1)
      else settle P (exchange attempt) := by
  rw [requestFrom]
  cases exchange attempt with
  | raised connection => rfl
  | response r =>
    show (if r.statusCode < 300 then _ else _) = if isRetryableStatus r.statusCode ∧ _ then _ else _
    by_cases hstatus : isRetryableStatus r.statusCode = true
    · rw [if_neg (not_lt_of_isRetryableStatus hstatus)]
      simp only [settle, if_neg (not_lt_of_isRetryableStatus hstatus)]
    · rw [settle]
      simp [hstatus]

/-- The attempts from `k` on are made again as far as `n`. -/
theorem requestFrom_of_retryable {n : ℕ} (hn : n ≤ maxRetries)
    (hretryable : ∀ k < n, (exchange k).retryable = true) (hlast : (exchange n).retryable = false) :
    ∀ left attempt, attempt ≤ n → n < attempt + left →
      requestFrom P maxRetries exchange left attempt = settle P (exchange n) := by
  intro left
  induction left with
  | zero => intro attempt hle hlt; omega
  | succ left ih =>
    intro attempt hle hlt
    rw [requestFrom_succ]
    by_cases hat : attempt = n
    · subst hat
      rw [if_neg (by simp [hlast])]
    · have hbefore : attempt < n := by omega
      rw [if_pos ⟨hretryable attempt hbefore, by omega⟩]
      exact ih (attempt + 1) hbefore (by omega)

/-- **Retries leave no mark**: the first attempt that is not retried settles the request. -/
theorem request_of_retryable {n : ℕ} (hn : n ≤ maxRetries)
    (hretryable : ∀ k < n, (exchange k).retryable = true) (hlast : (exchange n).retryable = false) :
    request P maxRetries exchange = settle P (exchange n) :=
  requestFrom_of_retryable hn hretryable hlast _ 0 (Nat.zero_le n) (by omega)

end HttpClient

/-! ## Decisions -/

/-- `models.Decision`, without what only `get_decision` sets. -/
structure Decision where
  outcome : Json
  decisionId : Json
  evidenceId : Json
  reason : Json
  explanation : Json
  status : Json
  evaluatedMandates : List Json
  correlationId : Json

/-- `v[key]`. -/
def subscript (v : Json) (key : String) : Except SdkError Json :=
  match v with
  | .obj _ =>
    match v.get? key with
    | some x => .ok x
    | none => .error (.python .keyError)
  | _ => .error (.python .typeError)

/-- `v.get(key, default)`. -/
def getOr (v : Json) (key : String) (default : Json) : Except SdkError Json :=
  match v with
  | .obj _ => .ok ((v.get? key).getD default)
  | _ => .error (.python .attributeError)

/-- `tuple(v)`. -/
def tuple : Json → Except SdkError (List Json)
  | .arr xs => .ok xs
  | .str s => .ok (s.toList.map fun c => .str (String.singleton c))
  | .obj kvs => .ok (kvs.map fun e => .str e.1)
  | _ => .error (.python .typeError)

/-- The `Decision` that a response is read as. -/
def readDecision (response : Json) : Except SdkError Decision := do
  let decision ← subscript response "decision"
  let outcome ← subscript decision "outcome"
  let decisionId ← subscript decision "decision_id"
  let evidenceId ← getOr response "evidence_id" .null
  let reason ← getOr decision "reason" .null
  let explanation ← getOr decision "reason" .null
  let status ← subscript response "status"
  let mandates ← getOr decision "evaluated_mandates" (.arr [])
  let evaluatedMandates ← tuple mandates
  let correlationId ← getOr response "correlation_id" .null
  return { outcome, decisionId, evidenceId, reason, explanation, status, evaluatedMandates,
           correlationId }

/-- `Agent.authorize`, from its signed request on. -/
def Agent.authorize (P : Platform) (maxRetries : ℕ) (exchange : ℕ → Exchange) :
    Except SdkError Decision :=
  HttpClient.request P maxRetries exchange >>= readDecision

/-- `Adapter.attest`, from its signed request on. -/
def Adapter.attest (P : Platform) (maxRetries : ℕ) (exchange : ℕ → Exchange) :
    Except SdkError Decision :=
  HttpClient.request P maxRetries exchange >>= readDecision

/-- What is called to send a request. -/
def call : Request → Platform → ℕ → (ℕ → Exchange) → Except SdkError Decision
  | .direct _ _ => Agent.authorize
  | .attested _ _ => Adapter.attest

theorem call_eq (r : Request) (P : Platform) (maxRetries : ℕ) (exchange : ℕ → Exchange) :
    call r P maxRetries exchange = HttpClient.request P maxRetries exchange >>= readDecision := by
  cases r <;> rfl

/-! ## Routes -/

/-- An `HTTPException`. -/
def httpException (statusCode : ℕ) (detail : String) : HttpResponse :=
  ⟨statusCode, .json (.obj [("detail", .str detail)])⟩

/-- What any other exception is answered. -/
def internalServerError : HttpResponse := ⟨500, .text "Internal Server Error"⟩

def optional : Option String → Json
  | some s => .str s
  | none => .null

/-- The types `str` and `str | None`. -/
def isStr : Json → Bool
  | .str _ => true
  | _ => false

def isOptionalStr (v : Json) : Bool :=
  match v with
  | .null => true
  | v => isStr v

/-- The type `list[str]`. -/
def isStrList : Json → Bool
  | .arr xs => xs.all isStr
  | _ => false

/-- `v or []`. -/
def orEmpty (v : Json) : Json := if v.truthy then v else .arr []

section

variable (H : OperationHost) (systemName : Option String)

/-- `SubmitIntentResponse`, of an enterprise system's name and of a status. -/
def submitIntentBody (status : String) (y : Submitted) (evidence : EvidenceRow) : Json :=
  .obj [
    ("intent_id", .str (H.uuidText y.intent.id)),
    ("decision", .obj [
      ("outcome", .str y.decision.outcome.text),
      ("decision_id", .str (H.uuidText y.decision.id)),
      ("evaluated_mandates", orEmpty y.decision.evaluatedMandates),
      ("evaluated_mandate_ids", .arr (y.decision.evaluatedMandateIds.map .str)),
      ("enterprise_system_id", optional (y.decision.enterpriseSystemId.map H.uuidText)),
      ("enterprise_system_name", optional systemName),
      ("reason", y.decision.reason)]),
    ("evidence_id", .str (H.uuidText evidence.id)),
    ("status", .str status),
    ("correlation_id", optional y.intent.correlationId)]

/-- The response with that body. Where there is no evidence, or a value has not its type, an
exception is raised. -/
def submitIntentResponse (status : String) (y : Submitted) : HttpResponse :=
  match y.evidence with
  | some evidence =>
    if isStrList (orEmpty y.decision.evaluatedMandates) ∧ isOptionalStr y.decision.reason then
      ⟨200, .json (submitIntentBody H systemName status y evidence)⟩
    else internalServerError
  | none => internalServerError

/-- `POST /v1/intents`. -/
def IntentsRouter.submitIntent : Except PyError Submitted → HttpResponse
  | .ok y =>
    submitIntentResponse H systemName
      (if y.decision.outcome = .humanReview then "PENDING" else "RESOLVED") y
  | .error .agentRevoked => httpException 403 "agent_revoked"
  | .error .agentRetired => httpException 403 "agent_retired"
  | .error .agentNotOperational => httpException 403 "agent_not_operational"
  | .error .organizationNotActive => httpException 403 "organization_not_active"
  | .error .replayDetected => httpException 409 "replay_detected"
  | .error _ => internalServerError

variable (resolved : Bool) (str : List String → String)

/-- The text of an `IntegrationRejectionError`, where `str` writes a list. -/
def rejectionText (reason : String) (keys : List String) : String :=
  if keys = [] then reason else reason ++ str keys

/-- `POST /v1/integration-runtime/intents`; `resolved` where the decision has a resolution. -/
def IntegrationRuntimeRouter.submitAttestedIntent : Except PyError Submitted → HttpResponse
  | .ok y =>
    submitIntentResponse H systemName
      (if y.decision.outcome = .humanReview ∧ !resolved then "PENDING" else "RESOLVED") y
  | .error (.integrationRejection reason keys) =>
    httpException 422 ("integration_rejection:" ++ rejectionText str reason keys)
  | .error .adapterReplayDetected => httpException 409 "replay_detected"
  | .error .externalOperationConflict => httpException 409 "external_operation_conflict"
  | .error _ => internalServerError

/-- What a request is answered. -/
def respond : Request → Except PyError Submitted → HttpResponse
  | .direct _ _ => IntentsRouter.submitIntent H systemName
  | .attested _ _ => IntegrationRuntimeRouter.submitAttestedIntent H systemName resolved str

end

/-- The server takes the request, or says that it has it. -/
def HttpResponse.Successful (r : HttpResponse) : Prop := r.statusCode < 300 ∨ r.statusCode = 409

theorem HttpResponse.Successful.not_retryable {r : HttpResponse} (h : r.Successful) :
    (Exchange.response r).retryable = false := by
  rw [Bool.eq_false_iff]
  intro hretryable
  rcases h with h | h
  · exact HttpClient.not_lt_of_isRetryableStatus hretryable h
  · simp [Exchange.retryable, h, isRetryableStatus, retryableStatusCodes] at hretryable

/-! ## The decision that is returned -/

/-- A submission, as the client shows it. -/
structure Shows (H : OperationHost) (d : Decision) (y : Submitted) : Prop where
  decisionId : d.decisionId = .str (H.uuidText y.decision.id)
  outcome : d.outcome = .str y.decision.outcome.text
  evidenceId : ∃ e, y.evidence = some e ∧ d.evidenceId = .str (H.uuidText e.id)
  reason : d.reason = y.decision.reason
  evaluatedMandates : .arr d.evaluatedMandates = orEmpty y.decision.evaluatedMandates
  correlationId : d.correlationId = optional y.intent.correlationId

section

variable {H : OperationHost} {systemName : Option String} {resolved : Bool}
  {str : List String → String} {status : String} {r : Request} {y : Submitted}

theorem exists_of_isStrList {v : Json} (h : isStrList v = true) : ∃ xs, v = .arr xs := by
  cases v with
  | arr xs => exact ⟨xs, rfl⟩
  | _ => cases h

/-- What the client reads in a response. -/
theorem readDecision_submitIntentBody {evidence : EvidenceRow} (hevidence : y.evidence = some evidence)
    (hmandates : isStrList (orEmpty y.decision.evaluatedMandates) = true) :
    ∃ d, readDecision (submitIntentBody H systemName status y evidence) = .ok d ∧ Shows H d y := by
  obtain ⟨xs, hxs⟩ := exists_of_isStrList hmandates
  refine ⟨⟨.str y.decision.outcome.text, .str (H.uuidText y.decision.id),
    .str (H.uuidText evidence.id), y.decision.reason, y.decision.reason, .str status, xs,
    optional y.intent.correlationId⟩, ?_, rfl, rfl, ⟨evidence, hevidence, rfl⟩, rfl, hxs.symm, rfl⟩
  unfold submitIntentBody
  rw [hxs]
  rfl

/-- A response that is successful carries the submission. -/
theorem settle_submitIntentResponse
    (h : (submitIntentResponse H systemName status y).Successful) :
    ∃ d, HttpClient.settle H.toPlatform (.response (submitIntentResponse H systemName status y)) >>=
      readDecision = .ok d ∧ Shows H d y := by
  unfold submitIntentResponse at h ⊢
  split at h
  · next evidence hevidence =>
    split at h
    · next hvalid =>
      obtain ⟨d, hd, hshows⟩ : ∃ d, readDecision (submitIntentBody H systemName status y evidence) =
        .ok d ∧ Shows H d y := readDecision_submitIntentBody hevidence hvalid.1
      refine ⟨d, ?_, hshows⟩
      rw [if_pos hvalid]
      exact hd
    · simp [HttpResponse.Successful, internalServerError] at h
  · simp [HttpResponse.Successful, internalServerError] at h

end

end Sdk

end PayReality
