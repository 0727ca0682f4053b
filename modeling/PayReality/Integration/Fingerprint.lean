import Mathlib.Data.Rat.Encodable
import Mathlib.Logic.Equiv.List
import PayReality.Decision.Outcomes
import PayReality.Integration.Context

/-!
# What a fingerprint determines

Two requests with one fingerprint agree on everything that is hashed; the amount is hashed with two
decimals, and evaluated as it was sent.

**Main result** `fingerprint_sound`: requests with one fingerprint have one outcome, under all policies
that do not read the timestamp, exactly when their amounts are the same number.
-/

namespace PayReality

open Rego RegoGenerator IntentService IntegrationRuntimeService OperationIdentity

/-! ## Evaluating a request -/

namespace Views

variable (H : OperationHost) (w : Views)

/-- The outcome for a request, where these policies are the active ones. -/
def outcome (ps : List RuntimePolicy) (active : ActivePolicy) (binding : EnforcementBinding)
    (agent : Agent) (req : AttestedRequest) : Except PyError Outcome :=
  let truth := w.truthFor H agent req.amount
  (Engine.decision ps active
    (.obj [("action", .str req.action), ("amount", .ofFloat req.amount),
      ("currency", .ofText req.currency), ("resource", .ofText req.resource)])
    (.obj (withMember (withMember (finalContext binding req) "timestamp"
      (.str (H.isoformat req.requestedAt))) "authority" truth.authorityContext))
    truth.principalName (some (H.uuidText agent.id))
    ((w.factsFor (truth.principal.bind Principal.organizationId) req.counterparty).map
      fun f => (f.key, f.value))).map EngineDecision.outcome

theorem outcome_eq (ps : List RuntimePolicy) (active : ActivePolicy) (binding : EnforcementBinding)
    (agent : Agent) (req : AttestedRequest) :
    w.outcome H ps active binding agent req = .ok (Engine.outcomeOf ps
      ({ w with policyVersion := active.version }.attestedInput H binding agent req)) :=
  Engine.decision_outcome ..

end Views

/-- A condition on `context.timestamp`. -/
def Condition.readsTimestamp (c : Condition) : Prop := ["context", "timestamp"] <+: fieldPath c.field

/-- No policy that OPA reads as it was meant tells the requests apart, except by their timestamps. -/
def SameOutcome (H : OperationHost) (agent : Agent) (binding binding' : EnforcementBinding)
    (req req' : AttestedRequest) : Prop :=
  ∀ vocabulary ps, Deployable vocabulary ps → (∀ p ∈ ps, ∀ c ∈ p.conditions, ¬ c.readsTimestamp) →
    ∀ (active : ActivePolicy) (w : Views),
      w.outcome H ps active binding agent req = w.outcome H ps active binding' agent req'

/-! ## What is hashed -/

theorem ofText_inj {s t : Option String} :
    (Json.ofText s).stableRepr = (Json.ofText t).stableRepr ↔ s = t := by
  cases s <;> cases t <;> simp [Json.ofText, Json.stableRepr, Json.token_mk_inj]

/-- Two requests agree on everything that is hashed, up to the cents of the amount. -/
structure SameMeaning (req req' : AttestedRequest) : Prop where
  action : req.action = req'.action
  resource : req.resource = req'.resource
  amount : req.amount.isSome = req'.amount.isSome
  currency : req.currency = req'.currency
  counterparty : req.counterparty = req'.counterparty
  context : (Json.obj req.context).stableRepr = (Json.obj req'.context).stableRepr

theorem normalizeAmount_isSome {a : Option ℚ} {t : Option String} (h : normalizeAmount a = .ok t) :
    t.isSome = a.isSome := by
  cases a with
  | none => cases h; rfl
  | some a =>
    simp only [normalizeAmount] at h
    split at h
    · cases h
    · rw [← Except.ok.inj h]
      rfl

section

variable {H : OperationHost} {agentId : Uuid} {contentHash : Option String}
  {req req' : AttestedRequest} {fp : String}

/-- The fingerprint that `submit_attested_intent` computes of a request. -/
def AttestedRequest.fingerprint (H : OperationHost) (agentId : Uuid) (contentHash : Option String)
    (req : AttestedRequest) : Except PyError String :=
  OperationIdentity.fingerprint H agentId contentHash req.sourceOperation req.action req.resource
    req.amount req.currency req.counterparty req.context

theorem sameMeaning_of_fingerprint (hsha : Function.Injective H.sha256)
    (h : req.fingerprint H agentId contentHash = .ok fp)
    (h' : req'.fingerprint H agentId contentHash = .ok fp) : SameMeaning req req' := by
  obtain ⟨amount, ha, h⟩ := bind_ok.1 h
  obtain ⟨amount', ha', h'⟩ := bind_ok.1 h'
  have hrepr := hsha ((Except.ok.inj h).trans (Except.ok.inj h').symm)
  have hmember := Json.stableRepr_get? hrepr
  have haction := hmember "canonical_action"
  have hresource := hmember "resource"
  have hamount := hmember "amount"
  have hcurrency := hmember "currency"
  have hsubject := hmember "fact_subject"
  have hcontext := hmember "trusted_context"
  simp [semantic, Json.get?, ofText_inj] at haction hresource hamount hcurrency hsubject hcontext
  refine ⟨?_, hresource, ?_, hcurrency, hsubject, hcontext⟩
  · simpa [Json.stableRepr, Json.token_mk_inj] using haction
  · rw [← normalizeAmount_isSome ha, ← normalizeAmount_isSome ha', hamount]

/-! ## Equal amounts -/

variable {w : Views} {agent : Agent} {binding binding' : EnforcementBinding}

/-- The members of the context, except for the timestamp. -/
theorem context_alike (hm : SameMeaning req req') (hamount : req.amount = req'.amount)
    (henv : binding.environment = binding'.environment) {k : String} (hk : k ≠ "timestamp") :
    Alike
      ((Json.obj (withMember (withMember (finalContext binding req) "timestamp"
        (.str (H.isoformat req.requestedAt))) "authority"
        (w.truthFor H agent req.amount).authorityContext)).get? k)
      ((Json.obj (withMember (withMember (finalContext binding' req') "timestamp"
        (.str (H.isoformat req'.requestedAt))) "authority"
        (w.truthFor H agent req'.amount).authorityContext)).get? k) := by
  by_cases hauthority : k = "authority"
  · subst hauthority
    rw [Evidence.get?_withMember_self, Evidence.get?_withMember_self, hamount]
    exact Alike.refl _
  rw [Evidence.get?_withMember_of_ne _ _ hauthority, Evidence.get?_withMember_of_ne _ _ hauthority,
    Evidence.get?_withMember_of_ne _ _ hk, Evidence.get?_withMember_of_ne _ _ hk]
  unfold finalContext
  by_cases henvironment : k = "environment"
  · subst henvironment
    rw [Evidence.get?_withMember_self, Evidence.get?_withMember_self, henv]
    exact Alike.refl _
  rw [Evidence.get?_withMember_of_ne _ _ henvironment, Evidence.get?_withMember_of_ne _ _ henvironment]
  exact Json.key_get? (Json.key_of_stableRepr false _ _ hm.context) k

/-- A condition that does not read the timestamp. -/
theorem condition_alike (hm : SameMeaning req req') (hamount : req.amount = req'.amount)
    (henv : binding.environment = binding'.environment) {c : Condition}
    (hc : ¬ c.readsTimestamp) (rules sets) :
    (conditionExpr c).holds rules sets (w.attestedInput H binding agent req) =
      (conditionExpr c).holds rules sets (w.attestedInput H binding' agent req') := by
  obtain ⟨k, ks, hkeys⟩ : ∃ k ks, fieldKeys c.field = k :: ks := by
    have hne : fieldKeys c.field ≠ [] := by
      unfold fieldKeys Text.keyPath
      simpa using Text.splitDot_ne_nil _
    exact List.exists_cons_of_ne_nil hne
  have hsection : (fieldSection c.field).1 = "context" ∨
      (fieldSection c.field).1 = "enterprise_knowledge" ∨ (fieldSection c.field).1 = "intent" := by
    unfold fieldSection
    split
    · exact .inl rfl
    · split
      · exact .inr (.inl rfl)
      · exact .inr (.inr rfl)
  rcases hsection with hs | hs | hs
  · refine conditionExpr_congr hkeys (by rw [hs]; rfl) (by rw [hs]; rfl) (context_alike hm hamount henv ?_) _ _
    rintro rfl
    exact hc ⟨ks, by rw [fieldPath, hs, hkeys]; rfl⟩
  · refine conditionExpr_congr hkeys (by rw [hs]; rfl) (by rw [hs]; rfl) ?_ _ _
    rw [hm.counterparty, hamount]
    exact Alike.refl _
  · refine conditionExpr_congr hkeys (by rw [hs]; rfl) (by rw [hs]; rfl) ?_ _ _
    rw [hm.action, hamount, hm.currency, hm.resource]
    exact Alike.refl _

/-- **Requests that agree on the amount too are decided alike.** -/
theorem sameOutcome_of_amount (hm : SameMeaning req req') (hamount : req.amount = req'.amount)
    (henv : binding.environment = binding'.environment) :
    SameOutcome H agent binding binding' req req' := by
  intro vocabulary ps _ hno active w
  rw [w.outcome_eq, w.outcome_eq]
  congr 1
  refine Engine.outcome_congr fun p hp => ?_
  have hscope : ∀ v : Views, p.scope.matches (v.attestedInput H binding agent req) =
      p.scope.matches (v.attestedInput H binding' agent req') := by
    intro v
    unfold Views.attestedInput
    rw [hm.action, hamount, hm.currency, hm.resource, hm.counterparty]
    rfl
  rw [ruleHolds_eq, ruleHolds_eq, hscope]
  congr 1
  rw [Bool.eq_iff_iff, List.all_eq_true, List.all_eq_true]
  refine forall₂_congr fun c hc => ?_
  rw [condition_alike hm hamount henv (hno p hp c hc)]

/-! ## Different amounts -/

/-- A policy that allows an action up to a limit. -/
def limitPolicy (action : String) (limit : ℚ) : RuntimePolicy :=
  { paymentPolicy [⟨"amount", .lte, .float limit⟩] with scope := ⟨"ops", action, none, none⟩ }

def anyVocabulary : Vocabulary := ⟨fun _ => true, fun _ => true⟩

/-- An agent that acts for the principal of that policy. -/
def opsViews (agent : Agent) : Views where
  truth := { principals := [⟨agent.actingForPrincipalId, "ops", none, none, none, none, none⟩] }
  truthAt := 0
  keys := {}
  facts := {}
  factsAt := 0
  policyVersion := 1

theorem deployable_limit {action : String} (haction : Text.blank action = false) (limit : ℚ) :
    Deployable anyVocabulary [limitPolicy action limit] where
  accepted := by
    refine ⟨"b", 1, 0, CompilerV2.exists_bundle_of_acceptable ?_ (List.pairwise_singleton _ _) _ _ _⟩
    intro p hp
    obtain rfl := List.mem_singleton.1 hp
    have herrors : CompilerV2.policyErrors anyVocabulary (limitPolicy action limit) = [] := by
      have hid : Text.blank "cap" = false := by decide
      have hname : Text.blank "Cap" = false := by decide
      have hprincipal : Text.blank "ops" = false := by decide
      have hfield : Text.blank "amount" = false := by decide
      simp [CompilerV2.policyErrors, CompilerV2.validatePolicyAgainstVocabulary, anyVocabulary,
        Validators.validate, Validators.validateRequiredFields, Validators.validateScope,
        Validators.validateConditions, Validators.validateConditionsFrom,
        Validators.validateOperatorValueShape, Validators.isNumericOperator, Json.isNumeric,
        Validators.validateMetadata, Validators.validateTags, limitPolicy, paymentPolicy, haction,
        hid, hname, hprincipal, hfield]
    rw [CompilerV2.acceptable, herrors]
    rfl
  plain := by
    intro p hp c hc _
    obtain rfl := List.mem_singleton.1 hp
    obtain rfl := List.mem_singleton.1 hc
    exact (by unfold identifiers; decide : identifiers (fieldKeys "amount"))

theorem regoLe_float (a b : ℚ) : (Json.float a).regoLe (.float b) = decide (a ≤ b) := by
  have hlt : (Json.float b).key false < (Json.float a).key false ↔ b < a := by
    simp [Json.key, Json.Token.mk, List.cons_lt_cons_iff, Prod.Lex.toLex_lt_toLex]
  rw [Json.regoLe, decide_eq_decide, ← not_lt, hlt, not_lt]

/-- The limit decides. -/
theorem limitPolicy_holds (H : OperationHost) (agent : Agent) (binding : EnforcementBinding)
    (req : AttestedRequest) {a : ℚ} (hamount : req.amount = some a) (limit : ℚ) :
    ruleHolds (limitPolicy req.action limit) ((opsViews agent).attestedInput H binding agent req) =
      decide (a ≤ limit) := by
  have hscope : (limitPolicy req.action limit).scope.matches
      ((opsViews agent).attestedInput H binding agent req) = true := by
    have hname : ((opsViews agent).truthFor H agent req.amount).principalName = "ops" := by
      simp [Views.truthFor, LedgerService.truthIn, Db.principalName, Db.principal, opsViews]
    simp [Scope.matches, limitPolicy, textAt, Json.lookup, Json.get?, Views.attestedInput,
      Engine.buildOpaInput, hname]
  have hfield : fieldPath "amount" = ["intent", "amount"] := by decide
  have hcond : (conditionExpr ⟨"amount", .lte, .float limit⟩).holds (fun _ => false) (fun _ => [])
      ((opsViews agent).attestedInput H binding agent req) = decide (a ≤ limit) := by
    simp [conditionExpr, hfield, Expr.holds, Json.lookup, Json.get?, Views.attestedInput,
      Engine.buildOpaInput, hamount, Json.ofFloat, Cmp.holds, regoLe_float]
  rw [ruleHolds_eq, hscope]
  simpa [limitPolicy, paymentPolicy] using hcond

/-- **Requests that are always decided alike have one amount.** -/
theorem amount_of_sameOutcome (hm : SameMeaning req req') (haction : Text.blank req.action = false)
    (h : SameOutcome H agent binding binding' req req') : req.amount = req'.amount := by
  by_contra hne
  obtain ⟨a, ha⟩ : ∃ a, req.amount = some a := by
    by_contra hnone
    have hleft : req.amount = none := Option.eq_none_iff_forall_ne_some.2 (not_exists.1 hnone)
    have hright := hm.amount
    rw [hleft] at hright
    rw [hleft, Option.isSome_eq_false_iff.1 hright.symm |> Option.isNone_iff_eq_none.1] at hne
    exact hne rfl
  obtain ⟨b, hb⟩ := Option.isSome_iff_exists.1 (hm.amount ▸ ha ▸ rfl : req'.amount.isSome = true)
  have hab : a ≠ b := by
    rintro rfl
    exact hne (ha.trans hb.symm)
  have hsame := h anyVocabulary [limitPolicy req.action (min a b)] (deployable_limit haction _) (by
    intro p hp c hc
    obtain rfl := List.mem_singleton.1 hp
    obtain rfl := List.mem_singleton.1 hc
    exact (by decide : ¬ ["context", "timestamp"] <+: fieldPath "amount")) ⟨0, 1, none⟩ (opsViews agent)
  rw [Views.outcome_eq, Views.outcome_eq, Except.ok.injEq, Engine.outcome_single rfl,
    Engine.outcome_single rfl] at hsame
  have hleft := limitPolicy_holds H agent binding req ha (min a b)
  have hright := limitPolicy_holds H agent binding' req' hb (min a b)
  rw [← hm.action] at hright
  have hviews : { opsViews agent with policyVersion := 1 } = opsViews agent := rfl
  simp only [hviews, hleft, hright, le_min_iff, le_refl, true_and, and_true, decide_eq_true_eq] at hsame
  rcases lt_or_gt_of_ne hab with hlt | hlt
  · simp [hlt.le, not_le.2 hlt] at hsame
  · simp [hlt.le, not_le.2 hlt] at hsame

/-! ## Soundness -/

/-- No policy is about a blank action. -/
theorem sameOutcome_of_blank (hm : SameMeaning req req') (haction : Text.blank req.action = true) :
    SameOutcome H agent binding binding' req req' := by
  intro vocabulary ps hps _ active w
  rw [w.outcome_eq, w.outcome_eq]
  congr 1
  have hfails : ∀ (r : AttestedRequest) (b : EnforcementBinding) (v : Views), r.action = req.action →
      ∀ p ∈ ps, ruleHolds p (v.attestedInput H b agent r) = false := by
    intro r b v hr p hp
    obtain ⟨_, _, _, _, haccepted⟩ := hps.accepted
    have hvalid := (CompilerV2.policyErrors_nil ((CompilerV2.compileBundle_ok haccepted).2.1 p hp)).1
    have hne : p.scope.action ≠ req.action := by
      intro heq
      simp [Validators.validate, Validators.validateScope, heq, haction] at hvalid
    have hscope : p.scope.matches (v.attestedInput H b agent r) = false := by
      have : textAt (v.attestedInput H b agent r) ["intent", "action"] p.scope.action = false := by
        simpa [textAt, Json.lookup, Json.get?, Views.attestedInput, Engine.buildOpaInput, hr]
          using hne.symm
      simp [Scope.matches, this]
    rw [ruleHolds_eq, hscope, Bool.false_and]
  refine Engine.outcome_congr fun p hp => ?_
  rw [hfails req binding _ rfl p hp, hfails req' binding' _ hm.action.symm p hp]

/-- **A fingerprint is sound exactly up to the amount**: two requests with one fingerprint are
decided alike by all policies that do not read the timestamp if and only if their amounts are one
number, or their action is blank, which no policy is about. -/
theorem fingerprint_sound (hsha : Function.Injective H.sha256)
    (henv : binding.environment = binding'.environment)
    (h : req.fingerprint H agent.id contentHash = .ok fp)
    (h' : req'.fingerprint H agent.id contentHash = .ok fp) :
    SameOutcome H agent binding binding' req req' ↔
      req.amount = req'.amount ∨ Text.blank req.action = true := by
  have hm := sameMeaning_of_fingerprint hsha h h'
  constructor
  · intro hsame
    by_cases haction : Text.blank req.action = true
    · exact .inr haction
    · exact .inl (amount_of_sameOutcome hm (eq_false_of_ne_true haction) hsame)
  · rintro (hamount | haction)
    · exact sameOutcome_of_amount hm hamount henv
    · exact sameOutcome_of_blank hm haction

end

/-! A hash without collisions; a payment that is sent twice, and two payments of amounts that are
hashed alike, one of them above the limit. -/

def tokenParts (t : Json.Token) : ℕ × ℚ × List ℕ :=
  ((ofLex t).1, (ofLex (ofLex t).2).1, (ofLex (ofLex t).2).2.toList.map Char.toNat)

def unary (n : ℕ) : String := String.ofList (List.replicate n 'i')

def hashingHost : OperationHost :=
  { adapterHost with sha256 := fun tokens => unary (Encodable.encode (tokens.map tokenParts)) }

theorem unary_injective : Function.Injective unary := by
  intro m n h
  simpa [unary] using congrArg (fun s : String => s.toList.length) h

theorem tokenParts_injective : Function.Injective tokenParts := by
  rintro ⟨rank, q, s⟩ ⟨rank', q', s'⟩ h
  simp only [tokenParts, Prod.mk.injEq] at h
  obtain ⟨hrank, hq, hs⟩ := h
  have hchars := List.map_injective_iff.2 (fun _ _ => Char.toNat_inj.1) hs
  have hs' := String.toList_inj.1 hchars
  exact Prod.ext hrank (Prod.ext hq hs')

theorem hashingHost_injective : Function.Injective hashingHost.sha256 :=
  unary_injective.comp (Encodable.encode_injective.comp (List.map_injective_iff.2 tokenParts_injective))

def adapterAgent : Agent := ⟨2, 1, .active⟩

def productionBinding : EnforcementBinding := ⟨6, 7, 3, 4, "production", .active⟩

/-- The fingerprint of a payment reads the cents. -/
theorem fingerprint_payment {a : ℚ} {t : String} (h : normalizeAmount (some a) = .ok (some t))
    (operation nonce : String) :
    (payment a operation nonce).fingerprint hashingHost adapterAgent.id (some "contract") =
      .ok (hashingHost.sha256 (semantic hashingHost adapterAgent.id (some "contract") "pay"
        "vendor_payment" none (some t) (some "EUR") none [("risk", .int 1)]).stableRepr) := by
  simp [AttestedRequest.fingerprint, fingerprint, payment, h, bind, Except.bind, pure, Except.pure]

theorem fingerprint_sound_retry :
    SameOutcome hashingHost adapterAgent productionBinding productionBinding (payment 100 "op" "n")
        (payment 100 "op" "m") ↔
      (payment 100 "op" "n").amount = (payment 100 "op" "m").amount ∨
        Text.blank (payment 100 "op" "n").action = true := by
  have hamount : normalizeAmount (some 100) = .ok (some "100.00") := by decide +kernel
  exact fingerprint_sound hashingHost_injective rfl (fingerprint_payment hamount "op" "n")
    (fingerprint_payment hamount "op" "m")

theorem fingerprint_overLimit :
    (∃ fp, (payment (201 / 2) "op" "n").fingerprint hashingHost adapterAgent.id (some "contract") =
        .ok fp ∧
      (payment (25729 / 256) "op" "m").fingerprint hashingHost adapterAgent.id (some "contract") =
        .ok fp) ∧
    (∃ b, CompilerV2.compileBundle CompilerV2.genericVocabulary
      [limitPolicy "vendor_payment" (201 / 2)] "b" 1 0 = .ok ⟨some b, []⟩) ∧
    (opsViews adapterAgent).outcome hashingHost [limitPolicy "vendor_payment" (201 / 2)] ⟨0, 1, none⟩
      productionBinding adapterAgent (payment (201 / 2) "op" "n") = .ok .allow ∧
    (opsViews adapterAgent).outcome hashingHost [limitPolicy "vendor_payment" (201 / 2)] ⟨0, 1, none⟩
      productionBinding adapterAgent (payment (25729 / 256) "op" "m") = .ok .deny := by
  have hlow : normalizeAmount (some (201 / 2)) = .ok (some "100.50") := by decide +kernel
  have hhigh : normalizeAmount (some (25729 / 256)) = .ok (some "100.50") := by decide +kernel
  have houtcome : ∀ a operation nonce, (opsViews adapterAgent).outcome hashingHost
      [limitPolicy "vendor_payment" (201 / 2)] ⟨0, 1, none⟩ productionBinding adapterAgent
      (payment a operation nonce) = .ok (if decide (a ≤ 201 / 2) then .allow else .deny) := by
    intro a operation nonce
    rw [Views.outcome_eq, Engine.outcome_single rfl]
    congr 2
    exact congrArg (· = true) (limitPolicy_holds hashingHost adapterAgent productionBinding
      (payment a operation nonce) rfl (201 / 2))
  refine ⟨⟨_, fingerprint_payment hlow "op" "n", fingerprint_payment hhigh "op" "m"⟩, ⟨_, rfl⟩, ?_, ?_⟩
  · rw [houtcome, if_pos (by decide +kernel)]
  · rw [houtcome, if_neg (by decide +kernel)]

end PayReality
