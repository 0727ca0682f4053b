import PayReality.Execution.Reconciliation
import PayReality.Integration.Fingerprint

/-!
# What a matched decision is, and what is refused

Main results:

- `matched_sound`: a decision that is reconciled as matched was authorized, and what its intent was
  submitted for has been reported as done, with the capability consumed that its binding asks for.
- `unauthorized_receipts`: of a decision that is not authorized no receipt names a capability, and it
  is not reconciled.
-/

namespace PayReality

open Program RecordProg ExecutionReconciliationService

variable {H : CapabilityHost} {d : Enforcement}

/-! ## What is found -/

/-- The binding is labelled as requiring a capability. -/
def Enforcement.capabilityRequired (d : Enforcement) (bindingId : Uuid) : Bool :=
  (d.binding bindingId).any fun b => b.enforcementAssurance = .capabilityRequired

/-- The capability of the decision is consumed. -/
def Enforcement.capabilityConsumed (d : Enforcement) (decisionId : Uuid) : Bool :=
  (d.capabilityOf decisionId).any fun c => c.consumedAt.isSome

theorem outcome_of_summary {r r' : ResultRow} (h : r.summary H = r'.summary H) :
    r.outcome = r'.outcome := by
  have hget := congrArg (fun v => v.get? "outcome") h
  have hvalue : r.outcome.value = r'.outcome.value := by
    simpa [ResultRow.summary, Json.get?] using hget
  revert hvalue
  cases r.outcome <;> cases r'.outcome <;> decide

theorem chosenReceipt_mem {receipts : List ReceiptRow} {r : ReceiptRow}
    (h : chosenReceipt receipts = some r) : r ∈ receipts := by
  obtain ⟨status, -, hstatus⟩ := List.exists_of_findSome?_eq_some h
  exact List.mem_reverse.1 (List.mem_of_find?_eq_some hstatus)

theorem outcome_matched {status : ReceiptStatus} (h : status.outcome = .matched) :
    status = .succeeded := by
  cases status with
  | succeeded => rfl
  | _ => cases h

/-- Where the rows match, there is a receipt of success with the action of the intent. -/
theorem findingOf_matched {capabilityId : Option Uuid} {digest : String} {receipts : List ReceiptRow}
    (h : (findingOf capabilityId digest receipts).outcome = .matched) :
    ∃ r ∈ receipts, r.status = .succeeded ∧ r.canonicalActionDigest = digest := by
  unfold findingOf at h
  split at h
  · cases h
  · next r hr =>
    split at h
    · cases h
    · next hdigest => exact ⟨r, chosenReceipt_mem hr, outcome_matched h, not_not.1 hdigest⟩

theorem findingFor_matched {decisionId : Uuid} {p : IntegrationProvenance}
    (h : (d.findingFor decisionId p).outcome = .matched) :
    (∃ r ∈ d.receipts, r.decisionId = decisionId ∧ r.status = .succeeded ∧
      r.canonicalActionDigest = p.canonicalActionDigest) ∧
    (d.capabilityRequired p.enforcementBindingId = true → d.capabilityConsumed decisionId = true) := by
  unfold Enforcement.findingFor at h
  dsimp only at h
  split at h
  · cases h
  · next hlabel =>
    obtain ⟨r, hr, hstatus, hdigest⟩ := findingOf_matched h
    rw [List.mem_insertionSort, List.mem_filter] at hr
    refine ⟨⟨r, hr.1, of_decide_eq_true hr.2, hstatus, hdigest⟩, fun hrequired => ?_⟩
    by_contra hconsumed
    exact hlabel ⟨hrequired, by simpa [Enforcement.capabilityConsumed] using hconsumed⟩

/-! ## Matched decisions -/

/-- A receipt of success, from the identity and through the binding that the intent was submitted
with, of its action and its operation. -/
def Enforcement.Succeeded (d : Enforcement) (decisionId : Uuid) (p : IntegrationProvenance) : Prop :=
  ∃ r ∈ d.receipts, r.decisionId = decisionId ∧ r.status = .succeeded ∧
    r.integrationIdentityId = p.integrationIdentityId ∧
    r.enforcementBindingId = p.enforcementBindingId ∧
    r.canonicalActionDigest = p.canonicalActionDigest ∧
    r.externalOperationId = p.externalOperationId

/-- A receipt of a decision is of the intent of the decision. -/
theorem Enforcement.Linked.reports (h : d.Linked H) {r : ReceiptRow} (hr : r ∈ d.receipts)
    {x : Decision × IntentRow} (hx : d.Decided r.decisionId x) : r.reports x.2 = true := by
  obtain ⟨dec, i, hdec, hi, hreports⟩ := (h.receipt r hr).intent
  have hsame : dec = x.1 := Option.some.inj (hdec.symm.trans hx.1)
  subst hsame
  have hsame : i = x.2 := Option.some.inj (hi.symm.trans hx.2)
  subst hsame
  exact hreports

/-- What a row with this digest says, if digests do not collide. -/
theorem outcome_of_returns (h : d.Linked H)
    (hhash : ∀ r r' : ResultRow, r.digest H = r'.digest H → r.summary H = r'.summary H)
    {organizationId decisionId : Uuid} {f : Finding} {row : ResultRow}
    (hrow : d.Returns H organizationId decisionId f row) : row.outcome = f.outcome := by
  obtain ⟨new, rfl | ⟨hmem, hdigest⟩⟩ := hrow
  · rfl
  · have hsummary := hhash row (resultRow H organizationId decisionId f new) (by
      rw [← h.result row hmem, hdigest]
      rfl)
    exact outcome_of_summary hsummary

/-- **A matched decision was authorized and done as it was decided.** -/
theorem matched_sound {ι : Type} [DecidableEq ι]
    {w : World (RecordStatement EnforcementChange) (RecordStatement.Answer Enforcement Drawn)
      PyError (Records Enforcement ι) ι}
    (h : EnforcementRun H (fun _ _ => true) w)
    (hhash : ∀ r r' : ResultRow, r.digest H = r'.digest H → r.summary H = r'.summary H)
    {i : ι} {organizationId decisionId : Uuid} {row : ResultRow} {t : Records Enforcement ι}
    (hcall : Exec ((enforcementSchema H true).machine Drawn ι) i
      (reconcileDecision H organizationId decisionId) w.store (.ok row) t)
    (hmatched : row.outcome = .matched) :
    w.store.db.authorized decisionId = true ∧
    ∃ r p, w.store.db.Decided decisionId r ∧ r.2.provenance = some p ∧
      w.store.db.Succeeded decisionId p ∧
      (w.store.db.capabilityRequired p.enforcementBindingId = true →
        w.store.db.capabilityConsumed decisionId = true) := by
  have hlinked := enforcement_linked h
  obtain ⟨_, hends⟩ := hcall.ends [] hlinked.admitted
    (alone_reconcileDecision organizationId decisionId)
  obtain ⟨x, p, hauthorized, hdecided, hp, hreturns⟩ := hends.returns row rfl
  have hfound : (w.store.db.findingFor decisionId p).outcome = .matched :=
    (outcome_of_returns hlinked hhash hreturns).symm.trans hmatched
  obtain ⟨⟨r, hr, hdecision, hstatus, -⟩, hcapability⟩ := findingFor_matched hfound
  refine ⟨hauthorized, x, p, hdecided, hp, ⟨r, hr, hdecision, hstatus, ?_⟩, hcapability⟩
  have hreports := hlinked.reports hr (x := x) (by rw [hdecision]; exact hdecided)
  unfold ReceiptRow.reports at hreports
  rw [hp] at hreports
  obtain ⟨hidentity, hbinding, hdigest, hoperation⟩ := of_decide_eq_true hreports
  simp only [ReceiptRow.operation, Prod.mk.injEq] at hoperation
  exact ⟨hidentity.symm, hbinding.symm, hdigest.symm, hoperation.2.2.symm⟩

/-! ## A payment that is reported -/

/-- A hash of canonical texts without collisions. -/
def digestHost : CapabilityHost :=
  { CapabilityService.capabilityHost with
    payloadHash := fun v => unary (Encodable.encode (v.stableRepr.map tokenParts)) }

theorem digestHost_injective {v v' : Json} (h : digestHost.payloadHash v = digestHost.payloadHash v') :
    v.stableRepr = v'.stableRepr :=
  List.map_injective_iff.2 tokenParts_injective (Encodable.encode_injective (unary_injective h))

theorem digestHost_digests (r r' : ResultRow) (h : r.digest digestHost = r'.digest digestHost) :
    r.summary digestHost = r'.summary digestHost := by
  have hget := Json.stableRepr_get? (digestHost_injective h)
  have horganization := hget "organization_id"
  have hdecision := hget "decision_id"
  have houtcome := hget "outcome"
  have hcapability := hget "capability_id"
  have hreceipt := hget "latest_execution_receipt_id"
  simp [ResultRow.summary, Json.get?, Json.stableRepr, Json.token_mk_inj] at horganization hdecision
  simp [ResultRow.summary, Json.get?, Json.stableRepr, Json.token_mk_inj] at houtcome
  simp [ResultRow.summary, Json.get?, ofText_inj] at hcapability hreceipt
  unfold ResultRow.summary
  rw [horganization, hdecision, houtcome, hcapability, hreceipt]

/-- The turns of two processes: who, what it starts, and for how many statements it goes on. -/
def enforcementTurns (H : CapabilityHost) (ts : List (Bool × Option EnforcementRequest × ℕ)) :
    List (Turn (RecordStatement EnforcementChange) (RecordStatement.Answer Enforcement Drawn) PyError
      Bool) :=
  ts.map fun t => ⟨t.1, t.2.1.map fun r => r.run H, t.2.2⟩

/-- Runs without a failure; every new row has the id 1. -/
def enforcementSchedule (H : CapabilityHost) :
    Schedule ((enforcementSchema H true).machine Drawn Bool) :=
  (enforcementSchema H true).schedule ⟨1, "nonce", 0⟩

/-- The turns are played as far as `ok` allows. -/
def playEnforcement (H : CapabilityHost) (ok : EnforcementChange → Enforcement → Bool)
    (ts : List (Bool × Option EnforcementRequest × ℕ)) :
    World (RecordStatement EnforcementChange) (RecordStatement.Answer Enforcement Drawn) PyError
      (Records Enforcement Bool) Bool :=
  ((enforcementSchedule H).restrict fun _ q s _ => (enforcementSchema H true).allows ok q s).play
    (enforcementTurns H ts) ⟨Records.init {}, fun _ => none⟩

theorem playEnforcement_run (H : CapabilityHost) (ok : EnforcementChange → Enforcement → Bool)
    (ts : List (Bool × Option EnforcementRequest × ℕ)) :
    EnforcementRun H ok (playEnforcement H ok ts) := by
  refine Schedule.play_reach (.init ⟨{}, rfl, rfl⟩) fun t ht p hp => ?_
  obtain ⟨e, -, rfl⟩ := List.mem_map.1 ht
  obtain ⟨r, -, rfl⟩ := Option.map_eq_some_iff.1 hp
  exact ⟨r, rfl⟩

/-- An adapter submits through the binding 6, which asks for no capability. -/
def reportingParties : EnforcementRequest :=
  .elsewhere [⟨7, "org", .active, .production⟩] [{ id := 1, name := "principal", organizationId := some 7 }]
    [⟨2, 1, .active⟩] [⟨3, 7, .active⟩]
    [{ id := 6, organizationId := 7, integrationIdentityId := 3, integrationContractVersionId := 4,
       environment := "production", status := .active, integrationId := 5, sourceOperation := "pay" }]

def paymentProvenance : IntegrationProvenance where
  integrationIdentityId := 3
  enforcementBindingId := 6
  integrationContractVersionId := 4
  integrationContractContentHash := "contract"
  integrationId := 5
  environment := "production"
  sourceOperation := "pay"
  externalOperationId := "op"
  canonicalOperationFingerprint := "fingerprint"
  canonicalActionSchemaVersion := 1
  canonicalActionDigest := "digest"

/-- A payment that was decided. -/
def decidedAs (outcome : Outcome) : EnforcementRequest :=
  .submit [{ CapabilityService.paymentIntent [] with provenance := some paymentProvenance }]
    [{ id := 9, intentId := 1, policyId := none, outcome, reason := .null, evaluatedMandates := .arr [],
       createdAt := 0 }] []

def successReceipt : ReceiptRequest where
  enforcementBindingId := 6
  decisionId := 9
  canonicalActionDigest := "digest"
  externalOperationId := "op"
  destination := "bank"
  status := "SUCCEEDED"

/-- A payment is decided, and its success reported. -/
def reportedPayment (outcome : Outcome) : List (Bool × Option EnforcementRequest × ℕ) :=
  [(true, some reportingParties, 10), (true, some (decidedAs outcome), 10),
    (true, some (.submitReceipt adapterIdentity successReceipt), 30)]

theorem matched_sound_payment : ∃ row t,
    Exec ((enforcementSchema digestHost true).machine Drawn Bool) false
      (reconcileDecision digestHost 7 9)
      (playEnforcement digestHost (fun _ _ => true) (reportedPayment .allow)).store (.ok row) t ∧
    row.outcome = .matched ∧
    (playEnforcement digestHost (fun _ _ => true) (reportedPayment .allow)).store.db.authorized 9 = true := by
  have hrun : (((enforcementSchedule digestHost).exec false 30 (reconcileDecision digestHost 7 9)
      (playEnforcement digestHost (fun _ _ => true) (reportedPayment .allow)).store).any fun e =>
        e.1.toOption.any fun row => row.outcome = .matched) = true := by decide +kernel
  obtain ⟨⟨x, t⟩, hexec, hx⟩ := (Option.any_eq_true _ _).1 hrun
  cases x with
  | error e => cases hx
  | ok row =>
    have hcall := Schedule.exec_sound hexec
    have hmatched : row.outcome = .matched := of_decide_eq_true hx
    exact ⟨row, t, hcall, hmatched, (matched_sound (playEnforcement_run _ _ (reportedPayment .allow))
      digestHost_digests hcall hmatched).1⟩

/-! ## Decisions that are not authorized -/

/-- The binding, where it is there, is labelled as requiring a capability. -/
def Enforcement.keepsLabel (d : Enforcement) (bindingId : Uuid) : Bool :=
  (d.binding bindingId).all fun b => b.enforcementAssurance = .capabilityRequired

/-- Every receipt through the binding names a capability. -/
def Enforcement.NamesCapabilities (d : Enforcement) (bindingId : Uuid) : Prop :=
  d.keepsLabel bindingId = true ∧
    ∀ r ∈ d.receipts, r.enforcementBindingId = bindingId → r.capabilityId.isSome = true

theorem Enforcement.not_optional_of_keepsLabel {bindingId : Uuid} (h : d.keepsLabel bindingId = true) :
    d.capabilityOptional bindingId = false := by
  unfold Enforcement.keepsLabel at h
  unfold Enforcement.capabilityOptional
  cases hb : d.binding bindingId with
  | none => rfl
  | some b =>
    rw [hb] at h
    simpa using h

/-- As long as the binding keeps its label, every receipt through it names a capability. -/
theorem names_capabilities {ι : Type} [DecidableEq ι] {ok : EnforcementChange → Enforcement → Bool}
    {w : World (RecordStatement EnforcementChange) (RecordStatement.Answer Enforcement Drawn)
      PyError (Records Enforcement ι) ι}
    (h : EnforcementRun H ok w) {bindingId : Uuid}
    (hok : ∀ c d, ok c d = true → (c.apply d).keepsLabel bindingId = true) :
    w.store.db.NamesCapabilities bindingId := by
  refine (enforcement_keeps (J := fun d => d.NamesCapabilities bindingId) ?_ ?_ h).2
  · exact ⟨rfl, fun r hr => (by cases hr)⟩
  · intro c d _ hd hchecks hc
    refine ⟨hok c d hc, ?_⟩
    cases c with
    | accept row intentId event =>
      intro r hr hbinding
      rcases List.mem_append.1 hr with hr | hr
      · exact hd.2 r hr hbinding
      · rw [List.mem_singleton.1 hr] at hbinding ⊢
        simp only [EnforcementChange.checks, List.forall_mem_cons] at hchecks
        obtain ⟨-, -, -, ⟨d₀, hd₀, -, hlabel⟩, -⟩ := hchecks
        rw [hbinding, Enforcement.not_optional_of_keepsLabel hd₀.1, Bool.or_false] at hlabel
        exact hlabel
    | _ => exact hd.2

/-- A receipt that names a capability is of a decision that is authorized. -/
theorem Enforcement.Linked.authorized (h : d.Linked H) {r : ReceiptRow} (hr : r ∈ d.receipts)
    (hc : r.capabilityId.isSome = true) : d.authorized r.decisionId = true := by
  obtain ⟨id, hid⟩ := Option.isSome_iff_exists.1 hc
  obtain ⟨c, hget, hdecision, -⟩ := Enforcement.consumedFor_iff.1 ((h.receipt r hr).capability id hid)
  rw [← hdecision]
  exact h.capability c (Rows.mem_of_get hget)

/-- **What there is of a decision that is not authorized.** -/
theorem unauthorized_receipts {ι : Type} [DecidableEq ι]
    {ok : EnforcementChange → Enforcement → Bool}
    {w : World (RecordStatement EnforcementChange) (RecordStatement.Answer Enforcement Drawn)
      PyError (Records Enforcement ι) ι}
    (h : EnforcementRun H ok w) {decisionId : Uuid}
    (hd : w.store.db.authorized decisionId = false) :
    (∀ r ∈ w.store.db.receipts, r.decisionId = decisionId → r.capabilityId = none) ∧
    (∀ bindingId, (∀ c d, ok c d = true → (c.apply d).keepsLabel bindingId = true) →
      ∀ r ∈ w.store.db.receipts, r.decisionId = decisionId → r.enforcementBindingId ≠ bindingId) ∧
    ∀ i organizationId x t,
      Exec ((enforcementSchema H true).machine Drawn ι) i
        (reconcileDecision H organizationId decisionId) w.store x t →
      t.db = w.store.db ∧ ∃ e ∈ refusals, x = .error e := by
  have hlinked := enforcement_linked h
  have hnone : ∀ r ∈ w.store.db.receipts, r.decisionId = decisionId → r.capabilityId = none := by
    intro r hr hdecision
    by_contra hne
    have hauthorized := hlinked.authorized hr (Option.isSome_iff_ne_none.2 hne)
    rw [hdecision, hd] at hauthorized
    cases hauthorized
  refine ⟨hnone, fun bindingId hok r hr hdecision hbinding => ?_, fun i organizationId x t hcall => ?_⟩
  · have hsome := (names_capabilities h hok).2 r hr hbinding
    rw [hnone r hr hdecision] at hsome
    cases hsome
  · obtain ⟨_, hends⟩ := hcall.ends [] hlinked.admitted
      (alone_reconcileDecision organizationId decisionId)
    exact hends.refuses hd

theorem unauthorized_receipts_denied :
    (playEnforcement digestHost (fun _ _ => true) (reportedPayment .deny)).store.db.authorized 9 = false ∧
    ∀ r ∈ (playEnforcement digestHost (fun _ _ => true) (reportedPayment .deny)).store.db.receipts,
      r.decisionId = 9 → r.capabilityId = none := by
  have hd : (playEnforcement digestHost (fun _ _ => true) (reportedPayment .deny)).store.db.authorized 9 =
      false := by
    decide +kernel
  exact ⟨hd, (unauthorized_receipts (playEnforcement_run _ _ (reportedPayment .deny)) hd).1⟩

def raised {α : Type} (e : PyError) : Except PyError α → Bool
  | .error e' => e' = e
  | .ok _ => false

theorem raised_iff {α : Type} {e : PyError} {x : Except PyError α} :
    raised e x = true ↔ x = .error e := by
  cases x with
  | ok a => exact ⟨fun h => (by cases h), fun h => (by cases h)⟩
  | error e' =>
    refine ⟨fun h => congrArg Except.error (of_decide_eq_true h), fun h => ?_⟩
    cases h
    exact decide_eq_true rfl

/-- A payment that was denied has succeeded, and is not reconciled. -/
theorem denied_payment_reported : ∃ w : World (RecordStatement EnforcementChange)
      (RecordStatement.Answer Enforcement Drawn) PyError (Records Enforcement Bool) Bool,
    EnforcementRun digestHost (fun _ _ => true) w ∧ w.store.db.authorized 9 = false ∧
    (∃ r ∈ w.store.db.receipts, r.decisionId = 9 ∧ r.status = .succeeded) ∧
    (∃ t, Exec ((enforcementSchema digestHost true).machine Drawn Bool) false
      (reconcileDecision digestHost 7 9) w.store
      (.error (.reconciliationNotApplicable "decision_not_authorized")) t) ∧
    ∀ i organizationId x t, Exec ((enforcementSchema digestHost true).machine Drawn Bool) i
      (reconcileDecision digestHost organizationId 9) w.store x t → ∀ row, x ≠ .ok row := by
  have hd : (playEnforcement digestHost (fun _ _ => true) (reportedPayment .deny)).store.db.authorized 9 =
      false := by
    decide +kernel
  have hrun := playEnforcement_run digestHost (fun _ _ => true) (reportedPayment .deny)
  have hreceipt : (playEnforcement digestHost (fun _ _ => true) (reportedPayment .deny)).store.db.receipts.any
      (fun r => r.decisionId = 9 ∧ r.status = .succeeded) = true := by decide +kernel
  have hexec : (((enforcementSchedule digestHost).exec false 30 (reconcileDecision digestHost 7 9)
      (playEnforcement digestHost (fun _ _ => true) (reportedPayment .deny)).store).any fun e =>
        raised (.reconciliationNotApplicable "decision_not_authorized") e.1) = true := by
    decide +kernel
  refine ⟨_, hrun, hd, ?_, ?_, fun i organizationId x t hcall row hx => ?_⟩
  · obtain ⟨r, hr, h⟩ := List.any_eq_true.1 hreceipt
    exact ⟨r, hr, of_decide_eq_true h⟩
  · obtain ⟨⟨x, t⟩, hexec, hx⟩ := (Option.any_eq_true _ _).1 hexec
    have hx' : x = .error (.reconciliationNotApplicable "decision_not_authorized") := raised_iff.1 hx
    rw [hx'] at hexec
    exact ⟨t, Schedule.exec_sound hexec⟩
  · obtain ⟨_, hends⟩ := hcall.ends [] (enforcement_linked hrun).admitted
      (alone_reconcileDecision organizationId 9)
    obtain ⟨-, e, -, he⟩ := hends.refuses hd
    rw [hx] at he
    cases he

end PayReality
