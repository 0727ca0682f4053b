import PayReality.Execution.Matched
import PayReality.Lib.Since

/-!
# Revocation and consumption

A consumption reads what its capability depends on, the organization, the agent, the identity and the
binding, and then commits an `UPDATE` that asks only whether the capability is consumed. Nothing holds
what was read, so a revocation that commits in between is not noticed. One that commits before is.

**Main result** `consumption_reads_active`, for every run.
-/

namespace PayReality

open Program

variable {H : CapabilityHost} {d d' : Enforcement} {id : Uuid}

/-! ## What a capability depends on -/

inductive Dependency where
  | organization | agent | identity | binding
  deriving DecidableEq, Repr

/-- Whether it is active, where there is one. -/
def Enforcement.isLive (d : Enforcement) (p : Dependencies) : Dependency → Bool
  | .organization => d.organizationActive p.organizationId
  | .agent => d.agentActive p.agentId
  | .identity => p.integrationIdentityId.all d.identityActive
  | .binding => p.enforcementBindingId.all d.bindingActive

/-- What a capability depends on, as the rows say that never change. -/
structure Enforcement.Depends (d : Enforcement) (c : CapabilityRow) (p : Dependencies) : Prop where
  organizationId : p.organizationId = c.organizationId
  decisionId : p.decisionId = c.decisionId
  integrationIdentityId : p.integrationIdentityId = c.integrationIdentityId
  enforcementBindingId : p.enforcementBindingId = c.enforcementBindingId
  agent : ∃ r, d.Decided c.decisionId r ∧ r.1.intentId = p.intentId ∧ r.2.agentId = p.agentId

/-- Capabilities keep the identity that they were issued for. -/
def Enforcement.KeepsIdentities (d d' : Enforcement) : Prop :=
  ∀ id c, d.capability id = some c →
    ∃ c', d'.capability id = some c' ∧ c'.integrationIdentityId = c.integrationIdentityId

/-- **Only a consumption consumes.** -/
theorem capability_apply (w : EnforcementChange) {c : CapabilityRow} (h : d.capability id = some c) :
    (w.apply d).capability id = some c ∨ ∃ p now, w = .consume id p now ∧
      (w.apply d).capability id = some { c with consumedAt := some now } := by
  cases w with
  | issue row reviewed => exact .inl (Enforcement.get_append_of_some h)
  | consume j p now =>
    have hget : (EnforcementChange.apply (.consume j p now) d).capability id =
        some (if c.id = j then { c with consumedAt := some now } else c) :=
      Enforcement.capability_consume h
    have hid : c.id = id := Rows.key_of_get h
    by_cases hj : c.id = j
    · rw [if_pos hj] at hget
      exact .inr ⟨p, now, by rw [← hj, hid], hget⟩
    · rw [if_neg hj] at hget
      exact .inl hget
  | _ => exact .inl h

theorem Enforcement.keepsIdentities_apply (w : EnforcementChange) :
    d.KeepsIdentities (w.apply d) := by
  intro id c hc
  rcases capability_apply w hc with h | ⟨p, now, -, h⟩
  · exact ⟨c, h, rfl⟩
  · exact ⟨_, h, rfl⟩

theorem Enforcement.KeepsIdentities.trans {d₁ d₂ d₃ : Enforcement} (h : d₁.KeepsIdentities d₂)
    (h' : d₂.KeepsIdentities d₃) : d₁.KeepsIdentities d₃ := by
  intro id c hc
  obtain ⟨c₂, hc₂, h₂⟩ := h id c hc
  obtain ⟨c₃, hc₃, h₃⟩ := h' id c₂ hc₂
  exact ⟨c₃, hc₃, h₃.trans h₂⟩

/-- What has been checked for a consumption is what the capability depends on, and each of it has been
read as active. -/
theorem depends_of_supported {seen : List Enforcement} {p : Dependencies} {now : Timestamp}
    {c : CapabilityRow} (hc : d.capability id = some c)
    (hseen : ∀ d₀ ∈ seen, d₀.Grows d ∧ d₀.KeepsIdentities d)
    (h : (enforcementSchema H true).supported (.consume id p now) seen) :
    d.Depends c p ∧ ∀ x, ∃ d₀ ∈ seen, d₀.isLive p x = true := by
  have hchecks : ∀ check ∈ EnforcementChange.checks H true (.consume id p now),
      ∃ d₀ ∈ seen, check d₀ = true := h
  simp only [EnforcementChange.checks, List.forall_mem_cons] at hchecks
  obtain ⟨⟨d₁, hd₁, hrow⟩, ⟨d₂, hd₂, hdecision⟩, ⟨d₃, hd₃, hintent⟩, horganization, hagent,
    hidentity, hbinding, -⟩ := hchecks
  constructor
  · obtain ⟨c₁, hc₁, hlinks⟩ := (Option.any_eq_true _ _).1 hrow
    obtain ⟨horg, hdec, hident, hbind⟩ := of_decide_eq_true hlinks
    obtain ⟨c₂, hc₂, hcontinues⟩ := (hseen d₁ hd₁).1.capability hc₁
    obtain ⟨c₃, hc₃, hkept⟩ := (hseen d₁ hd₁).2 id c₁ hc₁
    have h₂ : c = c₂ := Option.some.inj (hc.symm.trans hc₂)
    have h₃ : c = c₃ := Option.some.inj (hc.symm.trans hc₃)
    subst h₂ h₃
    obtain ⟨dec, hdec₂, hid⟩ := (Option.any_eq_true _ _).1 hdecision
    obtain ⟨i, hi, hagentId⟩ := (Option.any_eq_true _ _).1 hintent
    have hintentId : dec.intentId = p.intentId := of_decide_eq_true hid
    refine ⟨?_, ?_, ?_, ?_, (dec, i), ⟨?_, ?_⟩, hintentId, of_decide_eq_true hagentId⟩
    · rw [hcontinues.organizationId, horg]
    · rw [hcontinues.decisionId, hdec]
    · rw [hkept, hident]
    · rw [hcontinues.enforcementBindingId, hbind]
    · rw [hcontinues.decisionId, hdec]
      exact (hseen d₂ hd₂).1.decision hdec₂
    · show d.intent dec.intentId = some i
      rw [hintentId]
      exact (hseen d₃ hd₃).1.intent hi
  · intro x
    cases x with
    | organization => exact horganization
    | agent => exact hagent
    | identity => exact hidentity
    | binding => exact hbinding

/-! ## Runs -/

abbrev EnforcementWorld (ι : Type) : Type :=
  World (RecordStatement EnforcementChange) (RecordStatement.Answer Enforcement Drawn) PyError
    (Records Enforcement ι) ι

/-- Everything that a process remembers has grown into the present state. -/
theorem enforcement_seen {ι : Type} [DecidableEq ι]
    {w : EnforcementWorld ι} {ok : EnforcementChange → Enforcement → Bool}
    (h : EnforcementRun H ok w) (i : ι) :
    ∀ d ∈ w.store.seen i, d.Grows w.store.db ∧ d.KeepsIdentities w.store.db := by
  have h' : Reach (((enforcementSchema H true).machine Drawn ι).restrict fun i q s _ =>
      (enforcementSchema H true).allowsSeen (fun w _ d => ok w d) i q s = true) (enforcementRequests H)
      (fun s => ∃ d ∈ ({({} : Enforcement)} : Set Enforcement), s = Records.init d) w := h
  have hdescends := Reach.descends (I := fun d => d.admitted = true)
    (R := fun d d' => d.Grows d' ∧ d.KeepsIdentities d') (enforcement_checks H) ?_
    (fun d => ⟨.refl d, fun _ c hc => ⟨c, hc, rfl⟩⟩) ?_ (fun _ hd => hd) ?_ h'
  · exact fun d hd => (hdescends.2.2 i d hd).2
  · rintro d rfl
    decide
  · exact fun a b c hab hbc => ⟨hab.1.trans _ _ _ hbc.1, hab.2.trans hbc.2⟩
  · exact fun w seen d _ _ _ _ hadmits =>
      ⟨hadmits, Enforcement.grows_apply w d, Enforcement.keepsIdentities_apply w⟩

/-- The next statement of process `i` consumes the capability. -/
structure Consumes {ι : Type} [DecidableEq ι] (H : CapabilityHost) (i : ι)
    (w : EnforcementWorld ι) (c : CapabilityRow) : Prop where
  before : w.store.db.capability c.id = some c
  unconsumed : c.consumedAt = none
  after : ∃ q k r t c', w.running i = some (.call q k) ∧
    ((enforcementSchema H true).machine Drawn ι).step i q w.store r t ∧
    t.db.capability c.id = some c' ∧ c'.consumedAt.isSome = true

/-- **A consumption reads what it depends on as active.** Since any moment at which its transaction had
read nothing, each of the organization, the agent, the identity and the binding has been active in
some state; a revocation that has committed by then, and stays, is before every consumption. -/
theorem consumption_reads_active {ι : Type} [DecidableEq ι]
    {w₀ w : EnforcementWorld ι}
    (h : EnforcementRun H (fun _ _ => true) w₀) {i : ι} (hi : w₀.store.seen i = [])
    (hw : (enforcementSchema H true).Leads Drawn
      (fun _ q s _ => (enforcementSchema H true).allows (fun _ _ => true) q s = true)
      (enforcementRequests H) w₀ w)
    {c : CapabilityRow} (hc : Consumes H i w c) :
    ∃ p, w.store.db.Depends c p ∧ ∀ x, ∃ d ∈ w₀.store.since w.store, d.isLive p x = true := by
  have hrun : EnforcementRun H (fun _ _ => true) w := h.leads hw
  have hrecalls := hw.recalls hi
  obtain ⟨q, k, r, t, c', hp, hstep, hget, hconsumed⟩ := hc.after
  have hchanged : t.db.capability c.id ≠ some c := by
    intro hsame
    rw [hget, Option.some.injEq] at hsame
    rw [hsame, hc.unconsumed] at hconsumed
    cases hconsumed
  cases Schema.step_effect hstep with
  | unchanged ht => exact (hchanged (by rw [ht]; exact hc.before)).elim
  | seen ht => exact (hchanged (by rw [ht]; exact hc.before)).elim
  | forgotten ht => exact (hchanged (by rw [ht]; exact hc.before)).elim
  | changed change hq _ ht =>
    rcases capability_apply change hc.before with hkept | ⟨p, now, rfl, -⟩
    · exact (hchanged (by rw [ht]; exact hkept)).elim
    · have hsupported := Reach.supported (enforcement_checks H)
        (show (enforcementSchema H true).admits {} = true from (Enforcement.linked_empty (H := H)).admitted)
        hrun hp hq
      obtain ⟨hdepends, hlive⟩ := depends_of_supported hc.before (enforcement_seen hrun i) hsupported
      refine ⟨p, hdepends, fun x => ?_⟩
      obtain ⟨d, hd, hactive⟩ := hlive x
      exact ⟨d, hrecalls.seen d hd, hactive⟩

/-! ### An agent that is suspended while its capability is consumed -/

/-- The token of a payment that was allowed. -/
def paymentToken : CapabilityTokenPayload :=
  CapabilityService.issuedPayload CapabilityService.capabilityHost 7 9
    { CapabilityService.paymentIntent [] with provenance := some paymentProvenance } (.obj []) "pep" "nonce"
    0 300

/-- A host that reads the token back. -/
def consumingHost : CapabilityHost := CapabilityService.readingHost paymentToken

def paymentPresentation : CapabilityService.Presentation where
  audience := "pep"
  action := paymentToken.action
  resource := paymentToken.resource
  constraints := paymentToken.constraints

/-- A payment is allowed, its capability is issued, and a process begins to consume it. -/
def consumption (n : ℕ) : List (Bool × Option EnforcementRequest × ℕ) :=
  [(true, some reportingParties, 10), (true, some (decidedAs .allow), 10),
    (true, some (.issue 7 9 "pep" 300), 40), (false, some (.consume "nonce" paymentPresentation), n)]

/-- The parties, with the agent suspended. -/
def suspendedParties : EnforcementRequest :=
  .elsewhere [⟨7, "org", .active, .production⟩] [{ id := 1, name := "principal", organizationId := some 7 }]
    [⟨2, 1, .suspended⟩] [⟨3, 7, .active⟩]
    [{ id := 6, organizationId := 7, integrationIdentityId := 3, integrationContractVersionId := 4,
       environment := "production", status := .active, integrationId := 5, sourceOperation := "pay" }]

/-- The next statement of the process consumes the capability, if going on does. -/
theorem consumes_of_move {w : EnforcementWorld Bool}
    {i : Bool} {c : CapabilityRow} (hc : w.store.db.capability c.id = some c)
    (hnone : c.consumedAt = none)
    (hmove : (((enforcementSchedule H).move w (.go i)).any fun w' =>
      (w'.store.db.capability c.id).any fun c' => c'.consumedAt.isSome) = true) : Consumes H i w c := by
  obtain ⟨w', hw', hany⟩ := (Option.any_eq_true _ _).1 hmove
  obtain ⟨c', hc', hsome⟩ := (Option.any_eq_true _ _).1 hany
  refine ⟨hc, hnone, ?_⟩
  rcases Schedule.call_of_move hw' with hsame | ⟨q, k, r, hrunning, hstep⟩
  · rw [hsame, hc, Option.some.injEq] at hc'
    rw [← hc', hnone] at hsome
    cases hsome
  · exact ⟨q, k, r, w'.store, c', hrunning, hstep, hc', hsome⟩

/-- The capability of the payment, which is not consumed yet. -/
def isPaymentToken (c : CapabilityRow) : Bool :=
  c.id = 1 ∧ c.consumedAt = none ∧ c.organizationId = 7 ∧ c.decisionId = 9 ∧
    c.integrationIdentityId = some 3 ∧ c.enforcementBindingId = some 6

theorem consumption_reads_active_payment : ∃ (w₀ w : EnforcementWorld Bool) (c : CapabilityRow)
    (p : Dependencies), Consumes consumingHost false w c ∧ w.store.db.Depends c p ∧
      ∀ x, ∃ d ∈ w₀.store.since w.store, d.isLive p x = true := by
  have hrun := playEnforcement_run consumingHost (fun _ _ => true) (consumption 10)
  obtain ⟨s, ⟨d, rfl, rfl⟩, hleads⟩ := hrun.from_init
  have hcapability : ((playEnforcement consumingHost (fun _ _ => true)
      (consumption 10)).store.db.capability 1).any isPaymentToken = true := by decide +kernel
  have hmove : (((enforcementSchedule consumingHost).move
      (playEnforcement consumingHost (fun _ _ => true) (consumption 10)) (.go false)).any fun w' =>
        (w'.store.db.capability 1).any fun c' => c'.consumedAt.isSome) = true := by decide +kernel
  obtain ⟨c, hc, htoken⟩ := (Option.any_eq_true _ _).1 hcapability
  obtain ⟨hid, hnone, -⟩ := of_decide_eq_true htoken
  have hconsumes := consumes_of_move (hid.symm ▸ hc) hnone (hid.symm ▸ hmove)
  obtain ⟨p, hp⟩ := consumption_reads_active (.init ⟨{}, rfl, rfl⟩) rfl hleads hconsumes
  exact ⟨_, _, c, p, hconsumes, hp⟩

/-- The agent is suspended after it was read as active, and the capability is consumed. -/
theorem consumption_of_suspended : ∃ (w : EnforcementWorld Bool) (c : CapabilityRow)
      (p : Dependencies),
    EnforcementRun consumingHost (fun _ _ => true) w ∧ Consumes consumingHost false w c ∧
      w.store.db.Depends c p ∧ w.store.db.isLive p .agent = false := by
  have hrun := playEnforcement_run consumingHost (fun _ _ => true)
    (consumption 10 ++ [(true, some suspendedParties, 10)])
  generalize hw : playEnforcement consumingHost (fun _ _ => true)
    (consumption 10 ++ [(true, some suspendedParties, 10)]) = w at hrun
  have hcapability : (w.store.db.capability 1).any isPaymentToken = true := by
    subst hw
    decide +kernel
  have hmove : (((enforcementSchedule consumingHost).move w (.go false)).any fun w' =>
      (w'.store.db.capability 1).any fun c' => c'.consumedAt.isSome) = true := by
    subst hw
    decide +kernel
  have hdecision : (w.store.db.decision 9).any (fun dec => dec.intentId = 1) = true := by
    subst hw
    decide +kernel
  have hintent : (w.store.db.intent 1).any (fun i => i.agentId = 2) = true := by
    subst hw
    decide +kernel
  have hsuspended : w.store.db.agentActive 2 = false := by
    subst hw
    decide +kernel
  obtain ⟨c, hc, htoken⟩ := (Option.any_eq_true _ _).1 hcapability
  obtain ⟨hid, hnone, horganization, hdecisionId, hidentity, hbinding⟩ := of_decide_eq_true htoken
  obtain ⟨dec, hdec, hintentId⟩ := (Option.any_eq_true _ _).1 hdecision
  obtain ⟨i, hi, hagentId⟩ := (Option.any_eq_true _ _).1 hintent
  refine ⟨w, c, ⟨7, 9, 1, 2, some 3, some 6⟩, hrun, consumes_of_move (hid.symm ▸ hc) hnone (hid.symm ▸ hmove),
    ⟨horganization.symm, hdecisionId.symm, hidentity.symm, hbinding.symm, (dec, i), ⟨?_, ?_⟩,
      of_decide_eq_true hintentId, of_decide_eq_true hagentId⟩, hsuspended⟩
  · rw [hdecisionId]
    exact hdec
  · show w.store.db.intent dec.intentId = some i
    rw [of_decide_eq_true hintentId]
    exact hi

end PayReality
