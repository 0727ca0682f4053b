import PayReality.Decision.IntentService

/-!
# Fail closed

Whatever OPA does and whatever is stored, an intent is allowed only if everything that has to hold
for it does (`Authorised`). Everything else ends in `DENY` or `HUMAN_REVIEW`, or leaves no row.

**Main result** `submitIntent_failClosed`.
-/

namespace PayReality

open IntentService

/-- The only active version of a key. -/
structure Db.IsActiveVersion (db : Db) (key : Uuid) (r : RuntimePolicyRecord) : Prop where
  stored : r ∈ db.records
  ofKey : r.policyKey = key
  active : r.status = .active
  only : ∀ r' ∈ db.records, r'.policyKey = key → r'.status = .active → r' = r

theorem Db.IsActiveVersion.activeOfKey {db : Db} {key : Uuid} {r : RuntimePolicyRecord}
    (h : db.IsActiveVersion key r) : db.activeOfKey key = some r := by
  cases hfound : db.activeOfKey key with
  | none =>
    have := List.find?_eq_none.1 hfound r h.stored
    simp [h.ofKey, RuntimePolicyRecord.isActive, h.active] at this
  | some r' =>
    obtain ⟨hstored, hkey, hactive⟩ := db.activeOfKey_some hfound
    rw [h.only r' hstored hkey hactive]

/-- Everything that an `ALLOW` rests on. -/
structure Authorised (db : Db) (P : Platform) (opa : Option Uuid → Json → OpaReply) (agent : Agent)
    (now : Timestamp) (intent : Intent) (evaluated : Json) : Prop where
  agentActive : agent.status = .active
  /-- The organization, where the principal has one and it exists, is active. -/
  organizationActive : ∀ o, (organizationOf db agent).bind db.organization = some o →
    o.status = .active
  recognised : Db.isRecognizedScope intent.action
    (db.listActiveScopeActions (organizationOf db agent)) = true
  /-- A row of `policies` is active, and OPA allowed the input that was built for it. -/
  allowed : ∃ p ∈ db.policies, p.status = .active ∧ p.organizationId = organizationOf db agent ∧
    ∃ result, (opa (organizationOf db agent) (opaInput db P agent now intent p.version)).query
      = .ok result ∧ Engine.Allows result ∧
      evaluated = (result.get? "evaluated_mandates").getD (.arr [])
  /-- No policy that was evaluated is of high risk with its authority expired. -/
  unexpired : ∃ keys, policyKeysOf evaluated = .ok keys ∧ ∀ key ∈ keys, ∀ id, P.uuid key = some id →
    ∀ r, db.IsActiveVersion id r → Db.expiredHighRisk now r = false

variable {db : Db} {P : Platform} {S : Signer} {opa : Option Uuid → Json → OpaReply}
  {agent : Agent} {now : Timestamp} {req : IntentRequest} {r : Recorded}

theorem db_activePolicy_some {organizationId : Option Uuid} {a : ActivePolicy}
    (h : getActive db organizationId = .ok a) :
    ∃ p ∈ db.policies, p.status = .active ∧ p.organizationId = organizationId ∧
      a.version = p.version := by
  unfold getActive at h
  split at h
  · next p hp =>
    cases h
    have := List.find?_some hp
    simp only [PolicyRow.isActive, decide_eq_true_eq] at this
    exact ⟨p, List.mem_of_find?_eq_some hp, this.1, this.2, rfl⟩
  · cases h

/-- The evaluation allows only on OPA's word, and after the check for overdue authority. -/
theorem evaluateAndRecord_allow {intent : Intent}
    (h : evaluateAndRecord db P S agent now opa intent = .ok r) (ha : r.decision.outcome = .allow) :
    (∃ p ∈ db.policies, p.status = .active ∧ p.organizationId = organizationOf db agent ∧
      ∃ result, (opa (organizationOf db agent) (opaInput db P agent now intent p.version)).query
        = .ok result ∧ Engine.Allows result ∧
        r.decision.evaluatedMandates = (result.get? "evaluated_mandates").getD (.arr [])) ∧
    ∃ keys, policyKeysOf r.decision.evaluatedMandates = .ok keys ∧
      db.findExpiredHighRiskAuthority P keys now = none := by
  obtain ⟨d, hd, h⟩ := bind_ok.1 h
  obtain ⟨keys, hkeys, h⟩ := bind_ok.1 h
  cases h
  have hfinal : (finalOutcome db P now d keys).1 = .allow := ha
  obtain ⟨hallow, hnone⟩ : d.outcome = .allow ∧
      db.findExpiredHighRiskAuthority P keys now = none := by
    unfold finalOutcome at hfinal
    split at hfinal
    · cases hfinal
    · next hno =>
      have hallow : d.outcome = .allow := hfinal
      exact ⟨hallow, by simpa [hallow] using hno⟩
  obtain ⟨active, result, hactive, hquery, hallows, hevaluated⟩ := Engine.evaluate_allow hd hallow
  obtain ⟨p, hp, hstatus, horg, hversion⟩ := db_activePolicy_some hactive
  refine ⟨⟨p, hp, hstatus, horg, result, ?_, hallows, hevaluated⟩, keys, hkeys, hnone⟩
  rw [← hversion]
  exact hquery

/-- How a submission that returns was decided: an evaluation, or without OPA. -/
theorem submitIntent_ok (h : submitIntent db P S agent now opa req = .ok r) :
    (∃ reason, r = recordUnevaluated db P S agent now (intentOf db agent req) reason) ∨
    (agent.status = .active ∧ organizationBlocked db agent = false ∧
      Db.isRecognizedScope req.action (db.listActiveScopeActions (organizationOf db agent)) = true ∧
      evaluateAndRecord db P S agent now opa (intentOf db agent req) = .ok r) := by
  simp only [submitIntent] at h
  split at h
  · cases h
  split at h
  · cases h
  split at h
  · cases h
  split at h
  · cases h
  split at h
  · cases h
  split at h
  · cases h
    exact .inl ⟨_, rfl⟩
  split at h
  · next hrevoked hretired hregistered hblocked _ hsuspended hrecognised =>
    refine .inr ⟨?_, by simpa using hblocked, hrecognised, h⟩
    cases hs : agent.status <;> simp_all
  · cases h
    exact .inl ⟨_, rfl⟩

/-- The recorded evidence says what the recorded decision says. -/
theorem submitIntent_evidence (h : submitIntent db P S agent now opa req = .ok r) :
    r.evidence.payload.authorityOutcome = r.decision.outcome := by
  rcases submitIntent_ok h with ⟨reason, rfl⟩ | ⟨-, -, -, h⟩
  · rfl
  · obtain ⟨d, -, h⟩ := bind_ok.1 h
    obtain ⟨keys, -, h⟩ := bind_ok.1 h
    cases h
    rfl

theorem submitIntent_allow (h : submitIntent db P S agent now opa req = .ok r)
    (ha : r.decision.outcome = .allow) :
    Authorised db P opa agent now (intentOf db agent req) r.decision.evaluatedMandates := by
  rcases submitIntent_ok h with ⟨reason, rfl⟩ | ⟨hactive, hblocked, hrecognised, heval⟩
  · cases ha
  · obtain ⟨hallowed, keys, hkeys, hnone⟩ := evaluateAndRecord_allow heval ha
    refine ⟨hactive, fun o ho => ?_, hrecognised, hallowed, keys, hkeys, fun key hkey id hid v hv => ?_⟩
    · simpa [organizationBlocked, ho] using hblocked
    · refine db.findExpiredHighRiskAuthority_none P hnone hkey ?_
      rw [Db.matchedPolicy, hid]
      exact hv.activeOfKey

/-- **Fail closed, end to end.** A submission either commits an intent with its decision and
evidence, and then `ALLOW` only if the intent is authorised, or it leaves the database as it was. -/
theorem submitIntent_failClosed (db : Db) (P : Platform) (S : Signer)
    (opa : Option Uuid → Json → OpaReply) (agent : Agent) (now : Timestamp) (req : IntentRequest) :
    (∃ r, submitIntent db P S agent now opa req = .ok r ∧
      submit db P S agent now opa req = record db r ∧
      r.evidence.payload.authorityOutcome = r.decision.outcome ∧
      (r.decision.outcome = .allow ∧
          Authorised db P opa agent now r.intent r.decision.evaluatedMandates ∨
        r.decision.outcome = .deny ∨ r.decision.outcome = .humanReview)) ∨
    (∃ e, submitIntent db P S agent now opa req = .error e ∧
      submit db P S agent now opa req = db) := by
  cases h : submitIntent db P S agent now opa req with
  | error e => exact .inr ⟨e, rfl, by simp [submit, h]⟩
  | ok r =>
    refine .inl ⟨r, rfl, by simp [submit, h], submitIntent_evidence h, ?_⟩
    cases ha : r.decision.outcome with
    | deny => exact .inr (.inl rfl)
    | humanReview => exact .inr (.inr rfl)
    | allow =>
      have hauth := submitIntent_allow h ha
      have hintent : r.intent = intentOf db agent req := by
        rcases submitIntent_ok h with ⟨reason, rfl⟩ | ⟨-, -, -, h⟩
        · rfl
        · obtain ⟨d, -, h⟩ := bind_ok.1 h
          obtain ⟨keys, -, h⟩ := bind_ok.1 h
          cases h
          rfl
      exact .inl ⟨rfl, hintent ▸ hauth⟩

end PayReality
