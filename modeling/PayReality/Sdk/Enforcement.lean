import PayReality.Evidence.Tamper
import PayReality.Execution.SingleUse
import PayReality.Sdk.HttpClient

/-!
# An enforcement checkpoint

`CapabilityEnforcer` of the SDK, with `Agent.verify_capability` below it and the route that it asks,
`POST /v1/capability-tokens/verify`. A checkpoint sends its request again until it is answered, and calls
what is downstream only once the capability has been consumed.

**Main results** `downstream_once`: whatever else the server is asked, and whatever is lost or sent
again, no decision is executed twice. `verify_error_roundtrip`: an exception of the server comes out as
the client's own of that name.
-/

namespace PayReality

open Program Sdk

/-! ## The route -/

namespace CapabilityTokensRouter

/-- `VerifyCapabilityResponse`. -/
def verifyCapabilityResponse (P : Platform) (r : CapabilityService.ConsumedCapability) : HttpResponse :=
  ⟨200, .json (.obj [("capability_id", .str (P.uuidText r.capabilityId)),
    ("decision_id", .str (P.uuidText r.decisionId)), ("resource", .str r.resource),
    ("constraints", .obj r.constraints)])⟩

/-- `verify_capability`; `reason` is the text of an exception. -/
def verifyCapability (P : Platform) (reason : String) :
    Except PyError CapabilityService.ConsumedCapability → HttpResponse
  | .ok r => verifyCapabilityResponse P r
  | .error .capabilityTokenNotFound => httpException 404 "capability_token_not_found"
  | .error .capabilityTokenExpired => httpException 401 "capability_token_expired"
  | .error .capabilityTenantMismatch => httpException 403 "capability_tenant_mismatch"
  | .error .capabilityAudienceMismatch => httpException 403 "capability_audience_mismatch"
  | .error .capabilityConstraintMismatch => httpException 409 "capability_constraint_mismatch"
  | .error .capabilityBindingMismatch => httpException 409 "capability_binding_mismatch"
  | .error .invalidCapabilityToken => httpException 401 "invalid_capability_token"
  | .error .capabilityTokenAlreadyConsumed => httpException 409 "capability_token_already_consumed"
  | .error .originAgentNotActive => httpException 409 ("origin_agent_not_active: " ++ reason)
  | .error .integrationIdentityNotActive =>
    httpException 409 ("integration_identity_not_active: " ++ reason)
  | .error .enforcementBindingNotActive =>
    httpException 409 ("enforcement_binding_not_active: " ++ reason)
  | .error .tenantNotActive => httpException 409 ("tenant_not_active: " ++ reason)
  | .error _ => internalServerError

end CapabilityTokensRouter

namespace Sdk

/-! ## The client -/

/-- The exceptions of `verify_capability`. -/
inductive CapabilityException where
  | tokenExpired | invalidToken | tenantMismatch | audienceMismatch
  | notFound | constraintMismatch | bindingMismatch | alreadyConsumed | trustNotActive
  deriving DecidableEq, Repr

/-- A subclass of `AuthenticationError`; the others are subclasses of `ApiError`. -/
def CapabilityException.isAuthenticationError : CapabilityException → Bool
  | .tokenExpired | .invalidToken | .tenantMismatch | .audienceMismatch => true
  | _ => false

/-- `_CAPABILITY_EXACT_DETAIL_ERRORS`. -/
def capabilityExactDetailErrors : List (String × CapabilityException) :=
  [("capability_token_expired", .tokenExpired), ("invalid_capability_token", .invalidToken),
    ("capability_tenant_mismatch", .tenantMismatch), ("capability_audience_mismatch", .audienceMismatch),
    ("capability_token_not_found", .notFound), ("capability_constraint_mismatch", .constraintMismatch),
    ("capability_binding_mismatch", .bindingMismatch),
    ("capability_token_already_consumed", .alreadyConsumed)]

/-- `_CAPABILITY_PREFIX_DETAIL_ERRORS`. -/
def capabilityPrefixDetailErrors : List (String × CapabilityException) :=
  [("origin_agent_not_active:", .trustNotActive), ("integration_identity_not_active:", .trustNotActive),
    ("enforcement_binding_not_active:", .trustNotActive), ("tenant_not_active:", .trustNotActive)]

/-- The message of an `AuthenticationError`, where `str` writes a detail. -/
def authenticationMessage (str : Json → String) (detail : Json) (statusCode : ℕ) : String :=
  (if statusCode = 403 then "Not permitted: " else "Authentication failed: ") ++ str detail

/-- `_translate_capability_error`; `none` where the exception stays as it is. -/
def translateCapabilityError (str : Json → String) : SdkError → Option CapabilityException
  | .apiError _ body =>
    match body with
    | .obj _ =>
      match body.get? "detail" with
      | some (.str detail) =>
        match (capabilityExactDetailErrors.find? fun e => e.1 = detail).filter
            fun e => !e.2.isAuthenticationError with
        | some e => some e.2
        | none =>
          (capabilityPrefixDetailErrors.find? fun e => e.1.toList.isPrefixOf detail.toList).map
            fun e => e.2
      | _ => none
    | _ => none
  | .authenticationError detail statusCode =>
    (capabilityExactDetailErrors.find? fun e => e.2.isAuthenticationError &&
      (authenticationMessage str detail statusCode).toList.tails.any e.1.toList.isPrefixOf).map
        fun e => e.2
  | _ => none

/-- What `verify_capability` raises. -/
structure CapabilityFailure where
  error : SdkError
  raisedAs : Option CapabilityException

/-- `models.ConsumedCapability`. -/
structure ConsumedCapability where
  capabilityId : Json
  decisionId : Json
  resource : Json
  constraints : Json

/-- The `ConsumedCapability` that a response is read as. -/
def readConsumed (response : Json) : Except SdkError ConsumedCapability := do
  let capabilityId ← subscript response "capability_id"
  let decisionId ← subscript response "decision_id"
  let resource ← subscript response "resource"
  let constraints ← subscript response "constraints"
  return { capabilityId, decisionId, resource, constraints }

/-- `Agent.verify_capability`, from its request on. -/
def Agent.verifyCapability (P : Platform) (str : Json → String) (maxRetries : ℕ)
    (exchange : ℕ → Exchange) : Except CapabilityFailure ConsumedCapability :=
  match HttpClient.request P maxRetries exchange with
  | .error e => .error ⟨e, translateCapabilityError str e⟩
  | .ok response => (readConsumed response).mapError fun e => ⟨e, none⟩

/-! ## The checkpoint -/

/-- `CapabilityEnforcer.enforce` of what was verified: its result, and the calls downstream. -/
def CapabilityEnforcer.enforce {ε α : Type} (verified : Except CapabilityFailure ConsumedCapability)
    (downstream : ConsumedCapability → Except ε α) :
    Except (CapabilityFailure ⊕ ε) α × List ConsumedCapability :=
  match verified with
  | .error e => (.error (.inl e), [])
  | .ok consumed => ((downstream consumed).mapError .inr, [consumed])

/-- A call of a checkpoint: what its attempts come to. -/
structure EnforceCall where
  maxRetries : ℕ
  exchange : ℕ → Exchange

/-- What is called downstream. -/
def EnforceCall.invocations {ε α : Type} (P : Platform) (str : Json → String)
    (downstream : ConsumedCapability → Except ε α) (c : EnforceCall) : List ConsumedCapability :=
  (CapabilityEnforcer.enforce (Agent.verifyCapability P str c.maxRetries c.exchange) downstream).2

end Sdk

/-! ## Errors -/

/-- The exception of the client that has the name of the server's. -/
def PyError.asCapabilityException : PyError → Option CapabilityException
  | .capabilityTokenNotFound => some .notFound
  | .capabilityTokenExpired => some .tokenExpired
  | .capabilityTenantMismatch => some .tenantMismatch
  | .capabilityAudienceMismatch => some .audienceMismatch
  | .capabilityConstraintMismatch => some .constraintMismatch
  | .capabilityBindingMismatch => some .bindingMismatch
  | .invalidCapabilityToken => some .invalidToken
  | .capabilityTokenAlreadyConsumed => some .alreadyConsumed
  | .originAgentNotActive | .integrationIdentityNotActive | .enforcementBindingNotActive
  | .tenantNotActive => some .trustNotActive
  | _ => none

section

variable {P : Platform} {str : Json → String} {maxRetries n : ℕ} {exchange : ℕ → Exchange}
  {e : PyError} {c : CapabilityException} {reason : String}

/-- A detail that goes on with a reason. -/
theorem translate_of_prefix {detail : String}
    (hexact : (capabilityExactDetailErrors.all fun e => !detail.toList.isPrefixOf e.1.toList) = true)
    (hstart : (capabilityPrefixDetailErrors.any fun e => e.1.toList.isPrefixOf detail.toList) = true)
    (statusCode : ℕ) :
    translateCapabilityError str (.apiError statusCode (.obj [("detail", .str (detail ++ reason))])) =
      some .trustNotActive := by
  have hnone : (capabilityExactDetailErrors.find? fun e => e.1 = detail ++ reason) = none := by
    refine List.find?_eq_none.2 fun e he hsame => ?_
    have hnot := List.all_eq_true.1 hexact e he
    rw [of_decide_eq_true hsame, String.toList_append] at hnot
    have hstart : detail.toList.isPrefixOf (detail.toList ++ reason.toList) = true :=
      List.isPrefixOf_iff_prefix.2 (List.prefix_append _ _)
    rw [hstart] at hnot
    cases hnot
  have hfound : ((capabilityPrefixDetailErrors.find? fun e =>
      e.1.toList.isPrefixOf (detail ++ reason).toList).map fun e => e.2) = some .trustNotActive := by
    obtain ⟨e, he, hpre⟩ := List.any_eq_true.1 hstart
    cases hfind : capabilityPrefixDetailErrors.find? fun e =>
        e.1.toList.isPrefixOf (detail ++ reason).toList with
    | none =>
      refine absurd ?_ (List.find?_eq_none.1 hfind e he)
      rw [String.toList_append]
      exact List.isPrefixOf_iff_prefix.2
        ((List.isPrefixOf_iff_prefix.1 hpre).trans (List.prefix_append _ _))
    | some e' =>
      have hall : ∀ e ∈ capabilityPrefixDetailErrors, e.2 = .trustNotActive := by decide
      exact congrArg some (hall e' (List.mem_of_find?_eq_some hfind))
  show (match (capabilityExactDetailErrors.find? fun e => e.1 = detail ++ reason).filter _ with
    | some e => some e.2
    | none => _) = _
  rw [hnone]
  exact hfound

/-- The client takes the details of the route apart. -/
theorem translate_verifyCapability (hstr : ∀ s, str (.str s) = s)
    (hlower : ∀ e ∈ capabilityExactDetailErrors, P.lower e.1 = e.1)
    (hc : e.asCapabilityException = some c) :
    translateCapabilityError str (HttpClient.raiseForResponse P
      (CapabilityTokensRouter.verifyCapability P reason (.error e))) = some c := by
  have hexact {detail : String} {statusCode : ℕ} {c : CapabilityException}
      (h : (capabilityExactDetailErrors.find? fun e => e.2.isAuthenticationError &&
        (authenticationMessage (fun _ => detail) .null statusCode).toList.tails.any
          e.1.toList.isPrefixOf) = some (detail, c)) :
      translateCapabilityError str (.authenticationError (.str detail) statusCode) = some c := by
    have hmessage : authenticationMessage str (.str detail) statusCode =
        authenticationMessage (fun _ => detail) .null statusCode := by
      simp [authenticationMessage, hstr]
    simp only [translateCapabilityError, hmessage, h, Option.map_some]
  -- a 401 whose detail mentions a signature would be an `InvalidSignatureError`
  have hunauthorized (detail : String) (hlower : P.lower detail = detail)
      (hmentions : detail.toList.tails.any "signature".toList.isPrefixOf = false) :
      HttpClient.raiseForResponse P (httpException 401 detail) =
        .authenticationError (.str detail) 401 := by
    have hnot : HttpClient.mentionsSignature P detail = false := by
      rw [HttpClient.mentionsSignature, hlower, hmentions]
    show (if HttpClient.mentionsSignature P detail = true then _ else _) = _
    rw [hnot]
    rfl
  cases e <;> cases hc
  case capabilityTokenExpired =>
    have hraised := hunauthorized "capability_token_expired"
      (hlower ("capability_token_expired", .tokenExpired) (by decide)) (by decide)
    exact (congrArg _ hraised).trans (hexact (by decide))
  case invalidCapabilityToken =>
    have hraised := hunauthorized "invalid_capability_token"
      (hlower ("invalid_capability_token", .invalidToken) (by decide)) (by decide)
    exact (congrArg _ hraised).trans (hexact (by decide))
  case capabilityTenantMismatch => exact hexact (by decide)
  case capabilityAudienceMismatch => exact hexact (by decide)
  all_goals first
    | exact translate_of_prefix (by decide) (by decide) 409
    | rfl

/-- `str` of a detail that is a text. -/
def detailText : Json → String
  | .str s => s
  | _ => ""

/-- **An exception of the server comes out as the client's own of its name**, whatever was lost before
the answer. -/
theorem verify_error_roundtrip (hstr : ∀ s, str (.str s) = s)
    (hlower : ∀ e ∈ capabilityExactDetailErrors, P.lower e.1 = e.1)
    (hc : e.asCapabilityException = some c) (hn : n ≤ maxRetries)
    (hlost : ∀ k < n, (exchange k).retryable = true)
    (hanswer : exchange n =
      .response (CapabilityTokensRouter.verifyCapability P reason (.error e))) :
    ∃ error, Agent.verifyCapability P str maxRetries exchange = .error ⟨error, some c⟩ := by
  have hraised : translateCapabilityError str (HttpClient.raiseForResponse P
      (CapabilityTokensRouter.verifyCapability P reason (.error e))) = some c :=
    translate_verifyCapability hstr hlower hc
  generalize hr : CapabilityTokensRouter.verifyCapability P reason (.error e) = r at hanswer hraised
  have hstatus : r.statusCode ∈ [401, 403, 404, 409] := by
    subst hr
    cases e <;> cases hc <;> simp [CapabilityTokensRouter.verifyCapability, httpException]
  have hlast : (exchange n).retryable = false := by
    rw [hanswer]
    simp only [List.mem_cons, List.not_mem_nil, or_false] at hstatus
    rcases hstatus with h | h | h | h <;> simp [Exchange.retryable, isRetryableStatus, retryableStatusCodes, h]
  have hnot : ¬ r.statusCode < 300 := by
    simp only [List.mem_cons, List.not_mem_nil, or_false] at hstatus
    omega
  refine ⟨HttpClient.raiseForResponse P r, ?_⟩
  rw [Agent.verifyCapability, HttpClient.request_of_retryable hn hlost hlast, hanswer,
    HttpClient.settle, if_neg hnot, ← hraised]

/-- A capability whose first answer was lost: it is consumed already. -/
theorem verify_error_roundtrip_lost : ∃ error,
    Agent.verifyCapability consumingHost.toPlatform detailText 3 (fun k =>
      if k = 0 then .raised true
      else .response (CapabilityTokensRouter.verifyCapability consumingHost.toPlatform ""
        (.error .capabilityTokenAlreadyConsumed))) = .error ⟨error, some .alreadyConsumed⟩ := by
  refine verify_error_roundtrip (n := 1) (fun _ => rfl) (fun _ _ => rfl)
    (e := .capabilityTokenAlreadyConsumed) rfl (by decide) (fun k hk => ?_) rfl
  obtain rfl : k = 0 := by omega
  rfl

end

/-! ## Downstream -/

/-- What a reported consumption is answered. -/
def EnforcementReply.answered (P : Platform) (reason : String) : EnforcementReply → HttpResponse
  | .consumed _ x => CapabilityTokensRouter.verifyCapability P reason x
  | _ => internalServerError

/-- Successful responses are those of the route, and each of them reaches one call: `origin` is the
report behind what an attempt of a call comes to. -/
structure Delivered (P : Platform) {τ : Type} (reports : List (EnforcementReply × τ))
    (calls : List EnforceCall) (origin : ℕ → ℕ → Option ℕ) : Prop where
  served : ∀ {i k call r}, calls[i]? = some call → call.exchange k = .response r →
    r.statusCode < 300 → ∃ j e reason,
      origin i k = some j ∧ reports[j]? = some e ∧ r = e.1.answered P reason
  apart : ∀ {i i' k k' j}, origin i k = some j → origin i' k' = some j → i = i'

/-- What was verified is the capability of a decision, and consumed. -/
def Executes (P : Platform) (d : Enforcement) (a : Sdk.ConsumedCapability) (decisionId : Uuid) : Prop :=
  ∃ c ∈ d.capabilities, a.capabilityId = .str (P.uuidText c.id) ∧ c.consumedAt.isSome = true ∧
    c.decisionId = decisionId

section

variable {P : Platform} {str : Json → String} {maxRetries : ℕ} {exchange : ℕ → Exchange}

/-- A request that returns has had a successful response. -/
theorem exists_response_of_request {v : Json}
    (h : HttpClient.request P maxRetries exchange = .ok v) :
    ∃ k r, exchange k = .response r ∧ r.statusCode < 300 ∧ HttpClient.HttpResponse.json r = .ok v := by
  have hfrom : ∀ left attempt, HttpClient.requestFrom P maxRetries exchange left attempt = .ok v →
      ∃ k r, exchange k = .response r ∧ r.statusCode < 300 ∧
        HttpClient.HttpResponse.json r = .ok v := by
    intro left
    induction left with
    | zero => intro attempt hzero; cases hzero
    | succ left ih =>
      intro attempt hsucc
      rw [HttpClient.requestFrom_succ] at hsucc
      by_cases hagain : (exchange attempt).retryable = true ∧ attempt < maxRetries
      · rw [if_pos hagain] at hsucc
        exact ih _ hsucc
      · rw [if_neg hagain] at hsucc
        cases hexchange : exchange attempt with
        | raised connection =>
          rw [hexchange] at hsucc
          cases hsucc
        | response r =>
          rw [hexchange, HttpClient.settle] at hsucc
          by_cases hstatus : r.statusCode < 300
          · rw [if_pos hstatus] at hsucc
            exact ⟨attempt, r, hexchange, hstatus, hsucc⟩
          · rw [if_neg hstatus] at hsucc
            cases hsucc
  exact hfrom _ _ h

/-- An answer below 300 is that of a call that has consumed. -/
theorem consumed_of_answered {reason : String} {e : EnforcementReply}
    (hstatus : (e.answered P reason).statusCode < 300) : ∃ token r, e = .consumed token (.ok r) := by
  cases e with
  | consumed token x =>
    cases x with
    | ok r => exact ⟨token, r, rfl⟩
    | error e =>
      refine absurd hstatus ?_
      cases e <;> simp [EnforcementReply.answered, CapabilityTokensRouter.verifyCapability, httpException,
        internalServerError]
  | _ => exact absurd hstatus (by simp [EnforcementReply.answered, internalServerError])

end

section

variable {ε α τ : Type} {P : Platform} {str : Json → String} {calls : List EnforceCall}
  {origin : ℕ → ℕ → Option ℕ} {downstream : Sdk.ConsumedCapability → Except ε α}
  {call : EnforceCall} {a : Sdk.ConsumedCapability}

/-- What is called downstream is what was verified. -/
theorem mem_invocations (ha : a ∈ call.invocations P str downstream) :
    call.invocations P str downstream = [a] ∧
      Agent.verifyCapability P str call.maxRetries call.exchange = .ok a := by
  unfold EnforceCall.invocations CapabilityEnforcer.enforce at ha ⊢
  split at ha
  · cases ha
  · next consumed hverified =>
    obtain rfl := List.mem_singleton.1 ha
    exact ⟨rfl, hverified⟩

/-- What is called downstream is a consumption that the server has reported. -/
theorem reported_of_invocation {reports : List (EnforcementReply × τ)}
    (h : Delivered P reports calls origin) {i : ℕ} (hcall : calls[i]? = some call)
    (ha : a ∈ call.invocations P str downstream) : ∃ k j token r tr, origin i k = some j ∧
      reports[j]? = some (.consumed token (.ok r), tr) ∧
      a.capabilityId = .str (P.uuidText r.capabilityId) := by
  have hverified := (mem_invocations ha).2
  unfold Agent.verifyCapability at hverified
  split at hverified
  · cases hverified
  · next v hrequest =>
    obtain ⟨k, response, hresponse, hstatus, hjson⟩ := exists_response_of_request hrequest
    obtain ⟨j, ⟨reply, tr⟩, reason, horigin, hreport, rfl⟩ := h.served hcall hresponse hstatus
    obtain ⟨token, r, rfl⟩ := consumed_of_answered hstatus
    refine ⟨k, j, token, r, tr, horigin, hreport, ?_⟩
    obtain rfl := Except.ok.inj hjson
    obtain rfl := Except.ok.inj hverified
    rfl

section

variable {H : CapabilityHost} {ι : Type} [DecidableEq ι] {w : ReportingWorld ι}

/-- **No decision is executed twice.** Whatever is sent again, lost, or presented by somebody else: what
the checkpoints call downstream are consumed capabilities of authorized decisions, and no two of one
decision. -/
theorem downstream_once (hids : Function.Injective P.uuidText) (hrun : ReportingRun H w)
    (h : Delivered P w.store.reports calls origin) :
    (∀ a ∈ calls.flatMap fun call => call.invocations P str downstream,
      ∃ id, Executes P w.store.store.db a id ∧ w.store.store.db.authorized id = true) ∧
    (calls.flatMap fun call => call.invocations P str downstream).Pairwise fun a a' =>
      ∀ id, Executes P w.store.store.db a id → ¬ Executes P w.store.store.db a' id := by
  obtain ⟨-, hauthorized, hpairwise, hends⟩ := capability_single_use hrun
  have hnodup : (w.store.store.db.capabilities.map fun c => c.id).Nodup :=
    (of_decide_eq_true hrun.linked.admitted).2.2.2.2.2.1
  have hrow {a : Sdk.ConsumedCapability} {r : CapabilityService.ConsumedCapability} {id : Uuid}
      (hid : a.capabilityId = .str (P.uuidText r.capabilityId))
      (hexecutes : Executes P w.store.store.db a id) :
      ∃ c, w.store.store.db.capability r.capabilityId = some c ∧ c.decisionId = id := by
    obtain ⟨c, hc, hid', -, hdecision⟩ := hexecutes
    have hsame : c.id = r.capabilityId := hids (Json.str.inj (hid'.symm.trans hid))
    exact ⟨c, hsame ▸ Rows.get_of_mem hnodup hc, hdecision⟩
  refine ⟨fun a ha => ?_, List.pairwise_flatMap.2 ⟨fun call _ => ?_, ?_⟩⟩
  · obtain ⟨call, hcall, ha⟩ := List.mem_flatMap.1 ha
    obtain ⟨i, hi⟩ := List.getElem?_of_mem hcall
    obtain ⟨k, j, token, r, tr, -, hreport, hid⟩ := reported_of_invocation h hi ha
    have hconsumed : Enforcement.IsConsumed r.capabilityId w.store.store.db := by
      have hend := hends token (.ok r) tr (List.mem_of_getElem? hreport)
      generalize changes tr = ws at hend
      cases hend with
      | consumed hdone => exact hdone
    obtain ⟨c, hget, hat⟩ := hconsumed
    have hc := Rows.mem_of_get hget
    refine ⟨c.decisionId, ⟨c, hc, ?_, hat, rfl⟩, hauthorized c hc⟩
    rw [hid, Rows.key_of_get hget]
  · -- a call hands on at most one
    cases hinvocations : call.invocations P str downstream with
    | nil => exact .nil
    | cons a rest =>
      have ha : a ∈ call.invocations P str downstream := by
        rw [hinvocations]
        exact List.mem_cons_self
      rw [← hinvocations, (mem_invocations ha).1]
      exact List.pairwise_singleton _ _
  · refine List.pairwise_iff_getElem.2 fun i i' hi hi' hlt a ha a' ha' id hexecutes hexecutes' => ?_
    obtain ⟨k, j, token, r, tr, horigin, hreport, hid⟩ :=
      reported_of_invocation h (List.getElem?_eq_getElem hi) ha
    obtain ⟨k', j', token', r', tr', horigin', hreport', hid'⟩ :=
      reported_of_invocation h (List.getElem?_eq_getElem hi') ha'
    obtain ⟨c, hget, hdecision⟩ := hrow hid hexecutes
    obtain ⟨c', hget', hdecision'⟩ := hrow hid' hexecutes'
    obtain ⟨hj, hreport⟩ := List.getElem?_eq_some_iff.1 hreport
    obtain ⟨hj', hreport'⟩ := List.getElem?_eq_some_iff.1 hreport'
    -- two calls have two reports, in either order
    have hne : j ≠ j' := by
      rintro rfl
      exact absurd (h.apart horigin horigin') (by omega)
    rw [List.pairwise_iff_getElem] at hpairwise
    rcases Nat.lt_or_gt_of_ne hne with hlt | hlt
    · exact hpairwise j j' hj hj' hlt token r token' r' (congrArg Prod.fst hreport)
        (congrArg Prod.fst hreport') c c' hget hget' (hdecision.trans hdecision'.symm)
    · exact hpairwise j' j hj' hj hlt token' r' token r (congrArg Prod.fst hreport')
        (congrArg Prod.fst hreport) c' c hget' hget (hdecision'.trans hdecision.symm)

end

end

/-! ### Two checkpoints with one token -/

/-- The run of two processes that consume the payment's capability. -/
def presentedRun : ReportingWorld Bool :=
  playUses (enforcementSchedule consumingHost) presentedTwice

/-- What the `j`-th report is answered. -/
def presentedAnswer (j : ℕ) : Exchange :=
  .response ((presentedRun.store.reports[j]?).elim internalServerError fun e =>
    e.1.answered consumingHost.toPlatform "")

/-- Each checkpoint loses its connection once, and is answered then. -/
def presentedCall (j : ℕ) : EnforceCall :=
  ⟨3, fun k => if k = 0 then .raised true else presentedAnswer j⟩

def presentedCalls : List EnforceCall := [presentedCall 3, presentedCall 4]

theorem presented_delivered : Delivered consumingHost.toPlatform presentedRun.store.reports
    presentedCalls fun i _ => if i < 2 then some (3 + i) else none where
  served := by
    intro i k call r hcall hresponse hstatus
    have hserved : ∀ j, (presentedCall j).exchange k = .response r → ∃ e reason,
        presentedRun.store.reports[j]? = some e ∧
          r = e.1.answered consumingHost.toPlatform reason := by
      intro j hj
      unfold presentedCall presentedAnswer at hj
      dsimp only at hj
      split at hj
      · cases hj
      · obtain rfl := Exchange.response.inj hj
        cases hreport : presentedRun.store.reports[j]? with
        | none =>
          rw [hreport] at hstatus
          exact absurd hstatus (by decide)
        | some e => exact ⟨e, "", rfl, rfl⟩
    match i with
    | 0 =>
      obtain rfl := Option.some.inj hcall
      obtain ⟨e, reason, he⟩ := hserved 3 hresponse
      exact ⟨3, e, reason, rfl, he⟩
    | 1 =>
      obtain rfl := Option.some.inj hcall
      obtain ⟨e, reason, he⟩ := hserved 4 hresponse
      exact ⟨4, e, reason, rfl, he⟩
    | _ + 2 => cases hcall
  apart := by
    intro i i' k k' j h h'
    split at h
    · split at h'
      · have := Option.some.inj h
        have := Option.some.inj h'
        omega
      · cases h'
    · cases h

/-- One of the two is executed. -/
theorem downstream_once_presented :
    (presentedCalls.flatMap fun call => call.invocations consumingHost.toPlatform detailText
      fun _ => (.ok () : Except Unit Unit)).length = 1 ∧
    ∀ a ∈ presentedCalls.flatMap fun call => call.invocations consumingHost.toPlatform detailText
        fun _ => (.ok () : Except Unit Unit),
      ∃ id, Executes consumingHost.toPlatform presentedRun.store.store.db a id ∧
        presentedRun.store.store.db.authorized id = true :=
  ⟨by decide +kernel, (downstream_once plainHost_uuidText (playUses_run _ _) presented_delivered).1⟩

end PayReality
