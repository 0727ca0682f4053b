import PayReality.Decision.BundleOutcomes
import PayReality.Decision.FailClosed
import PayReality.Decision.MissingFields

/-!
# What an `ALLOW` comes from

An intent is allowed on the word of the active policies. When a policy expires (`constraints.expires`,
or the `valid_to` of its mandate) is not read for it: a rule of the module holds by scope and conditions,
and the check afterwards is about `authority_expires_at` of policies of high risk.

* `Sanctions`: what the rules say, for every bundle.
* `Engine.evaluate_served`: what the engine returns for it.

**Main result** `recorded_allow_iff`, for the decision that is recorded.
-/

namespace PayReality

open Rego RegoGenerator IntentService

/-- A policy that allows has a rule that holds, and no policy that denies or asks for a review. -/
structure Sanctions (ps : List RuntimePolicy) (input : Json) : Prop where
  allow : ∃ p ∈ ps, p.effect = .allow ∧ nameHolds ps input (ruleNameForPolicy p.id)
  others : ∀ p ∈ ps, p.effect ≠ .allow → ¬ nameHolds ps input (ruleNameForPolicy p.id)

/-- What an `ALLOW` comes from: a row of `policies` is active, the rules sanction, and no policy whose
rule holds is overdue. -/
structure Grants (db : Db) (P : Platform) (now : Timestamp) (o : Option Uuid)
    (ps : List RuntimePolicy) (input : Json) : Prop extends Sanctions ps input where
  active : (db.activePolicy o).isSome
  current : ∀ p ∈ ps, nameHolds ps input (ruleNameForPolicy p.id) →
    db.findExpiredHighRiskAuthority P [p.id] now = none

/-! ## The engine -/

section Engine

variable {ps : List RuntimePolicy} {input result : Json}

theorem Engine.allows_iff (h : (intendedModule ps).answer input = .ok result) :
    Engine.Allows result ↔ Sanctions ps input := by
  have hget := fun n hn => Engine.answer_get? h (n := n) hn
  have hallow := hget "allow" (by simp)
  have hdeny := hget "deny" (by simp)
  have hreview := hget "requires_review" (by simp)
  have htrue := @isTrue_effect ps input
  constructor
  · rintro ⟨h₁, h₂, h₃⟩
    rw [hallow, Option.some.injEq, Json.bool.injEq] at h₁
    rw [hreview, Ne, Option.some.injEq, Json.bool.injEq] at h₂
    rw [hdeny, Ne, Option.some.injEq, Json.bool.injEq] at h₃
    refine ⟨?_, fun p hp he hname => ?_⟩
    · rcases (htrue .allow).1 h₁ with hsome | ⟨he, -⟩
      · exact hsome
      · cases he
    · cases heffect : p.effect with
      | allow => exact he heffect
      | deny => exact h₃ ((htrue .deny).2 (.inl ⟨p, hp, heffect, hname⟩))
      | requireHumanReview => exact h₂ ((htrue .requireHumanReview).2 (.inl ⟨p, hp, heffect, hname⟩))
  · rintro ⟨⟨p, hp, heffect, hname⟩, hothers⟩
    refine ⟨?_, ?_, ?_⟩
    · rw [hallow, Option.some.injEq, Json.bool.injEq]
      exact (htrue .allow).2 (.inl ⟨p, hp, heffect, hname⟩)
    · rw [hreview, Ne, Option.some.injEq, Json.bool.injEq]
      intro hholds
      rcases (htrue .requireHumanReview).1 hholds with ⟨q, hq, he, hqname⟩ | ⟨he, -⟩
      · exact hothers q hq (by rw [he]; decide) hqname
      · cases he
    · rw [hdeny, Ne, Option.some.injEq, Json.bool.injEq]
      intro hholds
      rcases (htrue .deny).1 hholds with ⟨q, hq, he, hqname⟩ | ⟨-, hnone⟩
      · exact hothers q hq (by rw [he]; decide) hqname
      · -- something has matched
        obtain ⟨q, hq, -, hqholds⟩ := hname
        rw [hnone q hq] at hqholds
        cases hqholds

theorem Sanctions.oneReason (h : Sanctions ps input) : Engine.OneReason ps input :=
  fun p hp _ _ _ he hname _ => absurd hname (h.others p hp he)

theorem policyBody_inputOnly (p : RuntimePolicy) : ∀ e ∈ policyBody p, e.inputOnly = true := by
  intro e he
  rw [policyBody, List.mem_append] at he
  rcases he with he | he
  · have hscope : (scopeExprs p).all Expr.inputOnly = true := by
      unfold scopeExprs
      cases p.scope.agent <;> cases p.scope.resource <;> rfl
    exact List.all_eq_true.1 hscope e he
  · obtain ⟨c, -, rfl⟩ := List.mem_map.1 he
    unfold conditionExpr
    cases c.operator <;> rfl

/-- OPA has the intended module exactly if there is a policy. -/
theorem intended_closed : (intendedModule ps).closed = true ↔ ps ≠ [] := by
  rw [intendedModule_eq]
  exact closed_iff fun p _ => policyBody_inputOnly p

theorem Engine.decide_of_allows {active : ActivePolicy} {kvs : List (String × Json)} {d : EngineDecision}
    (h : Engine.Allows (.obj kvs)) (hd : Engine.decide active (.obj kvs) = .ok d) :
    d.outcome = .allow := by
  have hreview : Engine.isTrue ((Json.obj kvs).get? "requires_review") = false := by
    rw [Bool.eq_false_iff, Ne, Engine.isTrue_iff]
    exact h.noReview
  have hdeny : Engine.isTrue ((Json.obj kvs).get? "deny") = false := by
    rw [Bool.eq_false_iff, Ne, Engine.isTrue_iff]
    exact h.noDeny
  obtain ⟨evaluated, -, hd⟩ := bind_ok.1 hd
  rw [hreview, hdeny, Engine.isTrue_iff.2 h.allow] at hd
  cases hd
  rfl

/-- What an engine allows on the word of the intended module. -/
theorem Engine.evaluate_served {intent context : Json} {principal : String} {active : ActivePolicy}
    {agentId : Option String} {knowledge : List (String × Json)} {d : EngineDecision}
    (hinput : Engine.buildOpaInput intent context principal active.version agentId knowledge = input)
    (h : Engine.evaluate intent context principal (.ok active) (intendedModule ps).served agentId
      knowledge = .ok d) :
    (d.outcome = .allow ↔ Sanctions ps input) ∧
    (d.outcome = .allow → ∃ ids, d.evaluatedMandates = .arr ids ∧
      ∀ v, v ∈ ids ↔ ∃ p ∈ ps, v = .str p.id ∧ nameHolds ps input (ruleNameForPolicy p.id)) := by
  subst hinput
  have hallowed : d.outcome = .allow → ∃ result,
      (intendedModule ps).answer (Engine.buildOpaInput intent context principal active.version agentId
        knowledge) = .ok result ∧ ps ≠ [] ∧ Engine.Allows result ∧
      d.evaluatedMandates = (result.get? "evaluated_mandates").getD (.arr []) := by
    intro ha
    obtain ⟨active', result, hactive, hquery, hallows, hevaluated⟩ := Engine.evaluate_allow h ha
    cases hactive
    by_cases hne : ps = []
    · subst hne
      cases hquery
      cases hallows.allow
    · rw [Module.served, if_pos (intended_closed.2 hne), Module.reply] at hquery
      cases hanswer : (intendedModule ps).answer (Engine.buildOpaInput intent context principal
          active.version agentId knowledge) with
      | error e =>
        rw [hanswer] at hquery
        cases hquery
      | ok document =>
        rw [hanswer] at hquery
        obtain ⟨kvs, rfl⟩ := Engine.answer_obj hanswer
        cases hquery
        exact ⟨_, rfl, hne, hallows, hevaluated⟩
  refine ⟨⟨fun ha => ?_, fun hs => ?_⟩, fun ha => ?_⟩
  · obtain ⟨result, hanswer, -, hallows, -⟩ := hallowed ha
    exact (Engine.allows_iff hanswer).1 hallows
  · obtain ⟨document, hanswer⟩ := Engine.answer_ok_iff.2 hs.oneReason
    obtain ⟨p, hp, -⟩ := hs.allow
    have hallows := (Engine.allows_iff hanswer).2 hs
    obtain ⟨kvs, rfl⟩ := Engine.answer_obj hanswer
    unfold Engine.evaluate at h
    dsimp only at h
    rw [Module.served, if_pos (intended_closed.2 (List.ne_nil_of_mem hp)), Module.reply, hanswer] at h
    exact Engine.decide_of_allows hallows h
  · obtain ⟨result, hanswer, hne, -, hevaluated⟩ := hallowed ha
    rw [answer_evaluated_eq hne hanswer] at hevaluated
    refine ⟨_, hevaluated, fun v => ?_⟩
    rw [mem_listed, mem_evaluated]
    intro w hw
    obtain ⟨p, -, hw, -⟩ := mem_evaluated.1 hw
    exact ⟨_, hw⟩

end Engine

/-! ## Decisions -/

variable {db : Db} {P : Platform} {S : Signer} {agent : Agent} {now : Timestamp}
  {opa : Option Uuid → Json → OpaReply} {intent : Intent} {ps : List RuntimePolicy} {r : Recorded}

theorem findExpired_none_iff {keys : List String} :
    db.findExpiredHighRiskAuthority P keys now = none ↔
      ∀ key ∈ keys, db.findExpiredHighRiskAuthority P [key] now = none := by
  simp [Db.findExpiredHighRiskAuthority, List.findSome?_eq_none_iff]

/-- The texts that a loop over ids meets. -/
theorem mem_policyKeysOf {ids : List Json} {keys : List String}
    (h : policyKeysOf (.arr ids) = .ok keys) {key : String} : key ∈ keys ↔ .str key ∈ ids := by
  have hkeys : ids.mapM keyText = .ok keys := h
  constructor
  · intro hkey
    obtain ⟨v, hv, htext⟩ := exists_of_mem_mapM hkeys hkey
    cases v <;> cases htext
    exact hv
  · intro hid
    obtain ⟨key', hkey', htext⟩ := mapM_ok_mem hkeys hid
    cases htext
    exact hkey'

/-- The input that OPA is sent. -/
def evaluatedInput (db : Db) (P : Platform) (agent : Agent) (now : Timestamp) (intent : Intent) : Json :=
  opaInput db P agent now intent
    ((db.activePolicy (organizationOf db agent)).elim 0 PolicyRow.version)

/-- **A decision is an `ALLOW` if and only if the active policies grant it**, expired or not. -/
theorem recorded_allow_iff (hopa : opa (organizationOf db agent) = (intendedModule ps).served)
    (hr : evaluateAndRecord db P S agent now opa intent = .ok r) :
    r.decision.outcome = .allow ↔
      Grants db P now (organizationOf db agent) ps (evaluatedInput db P agent now intent) := by
  obtain ⟨d, hd, hr⟩ := bind_ok.1 hr
  obtain ⟨keys, hkeys, hr⟩ := bind_ok.1 hr
  cases hr
  have hfinal : (recordEvaluated db P S agent now intent d keys).decision.outcome = .allow ↔
      d.outcome = .allow ∧ db.findExpiredHighRiskAuthority P keys now = none := by
    show (finalOutcome db P now d keys).1 = .allow ↔ _
    unfold finalOutcome
    cases db.findExpiredHighRiskAuthority P keys now <;> by_cases ha : d.outcome = .allow <;> simp [ha]
  rw [hfinal]
  rw [hopa, getActive] at hd
  cases hactive : db.activePolicy (organizationOf db agent) with
  | none =>
    rw [hactive] at hd
    cases hd
    refine iff_of_false ?_ fun h => ?_
    · rintro ⟨ha, -⟩
      cases ha
    · have hsome := h.active
      rw [hactive] at hsome
      cases hsome
  | some row =>
    rw [hactive] at hd
    have hinput : evaluatedInput db P agent now intent = opaInput db P agent now intent row.version := by
      rw [evaluatedInput, hactive]
      rfl
    rw [hinput]
    obtain ⟨houtcome, hids⟩ := Engine.evaluate_served rfl hd
    constructor
    · rintro ⟨ha, hnone⟩
      obtain ⟨ids, hids, hmem⟩ := hids ha
      refine ⟨houtcome.1 ha, by rw [hactive]; rfl, fun p hp hname => ?_⟩
      rw [hids] at hkeys
      exact findExpired_none_iff.1 hnone _ ((mem_policyKeysOf hkeys).2 ((hmem _).2 ⟨p, hp, rfl, hname⟩))
    · intro hgrants
      have ha := houtcome.2 hgrants.toSanctions
      obtain ⟨ids, hids, hmem⟩ := hids ha
      refine ⟨ha, findExpired_none_iff.2 fun key hkey => ?_⟩
      rw [hids] at hkeys
      obtain ⟨p, hp, heq, hname⟩ := (hmem _).1 ((mem_policyKeysOf hkeys).1 hkey)
      cases heq
      exact hgrants.current p hp hname

/-! ### A payment after the policy has expired -/

/-- A policy that expired at time 1. -/
def expiredPolicy (risk : Option RiskLevel) : RuntimePolicy :=
  { paymentPolicy [] with
    status := .active
    constraints := { expires := some 1, riskLevel := risk } }

def expiredRow (b : PolicyBundle) : PolicyRow where
  version := 1
  status := .active
  bundleHash := b.bundleHash
  bundleUri := .studio 1 1
  compiledAt := some 0
  activatedAt := some 0
  bundleManifest := some b.manifest
  organizationId := none

/-- It is the active one, and its authority was to be reviewed by time 2. -/
def expiredDb (risk : Option RiskLevel) : Db :=
  { opsOnly with
    records := [⟨1, 1, .active, expiredPolicy risk, none, none, none, none, none, none, none, some 2, none⟩]
    policies := ((CompilerV2.compileBundle CompilerV2.genericVocabulary [expiredPolicy risk] "b" 1 0
      ).toOption.bind CompileResult.bundle).toList.map expiredRow }

def oneKeyPlatform : Platform := { plainPlatform with uuid := fun _ => some 1 }

/-- A payment at time 5. -/
def payAfter (risk : Option RiskLevel) : Except PyError Recorded :=
  evaluateAndRecord (expiredDb risk) oneKeyPlatform ⟨fun _ => "", fun _ => ""⟩ opsAgent 5
    (fun _ => (intendedModule [expiredPolicy risk]).served) noAmount

/-- The policy has expired, and the payment is allowed. -/
theorem recorded_allow_iff_expired :
    ∃ r, payAfter none = .ok r ∧ r.decision.outcome = .allow ∧
      (r.decision.outcome = .allow ↔ Grants (expiredDb none) oneKeyPlatform 5
        (organizationOf (expiredDb none) opsAgent) [expiredPolicy none]
        (evaluatedInput (expiredDb none) oneKeyPlatform opsAgent 5 noAmount)) := by
  have hallowed : (payAfter none).toOption.any (fun r => r.decision.outcome = .allow) = true := by
    decide +kernel
  obtain ⟨r, hr, houtcome⟩ := (Option.any_eq_true _ _).1 hallowed
  cases hpaid : payAfter none with
  | error e =>
    rw [hpaid] at hr
    cases hr
  | ok r' =>
    rw [hpaid] at hr
    cases hr
    exact ⟨r, rfl, of_decide_eq_true houtcome, recorded_allow_iff rfl hpaid⟩

end PayReality
