import PayReality.Execution.EnforcementRuns

/-!
# What a reconciliation finds

`reconcile_decision` as one step: what it returns in a state is what the rows of that state say
(`reconcileDecision_alone`).
-/

namespace PayReality

open Program RecordProg IntentService ExecutionReconciliationService

variable {H : CapabilityHost} {others : Bool} {d : Enforcement} {ws : List EnforcementChange}

/-- A decision and its intent, as they are. -/
def Enforcement.Decided (d : Enforcement) (decisionId : Uuid) (r : Decision × IntentRow) : Prop :=
  d.decision decisionId = some r.1 ∧ d.intent r.1.intentId = some r.2

theorem alone_getDecision {id : Uuid} {Q : Except PyError Decision → List EnforcementChange →
      Enforcement → Prop} (h : ∀ r, d.decision id = some r → Q (.ok r) ws d)
    (he : Q (.error .decisionNotFound) ws d) (hf : Q (.error .databaseError) ws d) :
    Ends (enforcementSchema H others) Eq (getDecision id) Q ws d := by
  refine alone_look (fun _ => ?_) hf
  split
  · exact he
  · next r hr => exact h r hr

theorem alone_getIntent {id : Uuid} {Q : Except PyError IntentRow → List EnforcementChange →
      Enforcement → Prop} (h : ∀ r, d.intent id = some r → Q (.ok r) ws d)
    (he : Q (.error .attributeError) ws d) (hf : Q (.error .databaseError) ws d) :
    Ends (enforcementSchema H others) Eq (getIntent id) Q ws d := by
  refine alone_look (fun _ => ?_) hf
  split
  · exact he
  · next r hr => exact h r hr

/-- Why a reading of a decision raises. -/
def readingErrors : List PyError :=
  [.decisionNotFound, .crossOrganizationAccess, .attributeError, .databaseError]

theorem alone_resolveChainScope {agentId : Uuid} {Q : Except PyError (Option Uuid) →
      List EnforcementChange → Enforcement → Prop} (h : ∀ o, Q (.ok o) ws d)
    (hf : Q (.error .databaseError) ws d) :
    Ends (enforcementSchema H others) Eq (resolveChainScope agentId) Q ws d := by
  refine alone_look (fun _ => ?_) hf
  split
  · exact h none
  · exact alone_look (fun _ => h _) hf

theorem alone_getDecisionForOrganization (decisionId : Uuid) (organizationId : Option Uuid) :
    Ends (enforcementSchema H others) Eq (getDecisionForOrganization decisionId organizationId)
      (Ends.split (fun r ws' d' => d.Decided decisionId r ∧ ws = ws' ∧ d = d')
        fun e ws' d' => e ∈ readingErrors ∧ ws = ws' ∧ d = d') ws d := by
  have herror : ∀ e ∈ readingErrors, e ∈ readingErrors ∧ ws = ws ∧ d = d :=
    fun e he => ⟨he, rfl, rfl⟩
  refine ends_bind (alone_getDecision (fun decision hdecision => ?_) (herror _ (by decide))
    (herror _ (by decide)))
  refine ends_bind (alone_getIntent (fun intent hintent => ?_) (herror _ (by decide))
    (herror _ (by decide)))
  refine ends_bind (alone_resolveChainScope (fun owner => ?_) (herror _ (by decide)))
  show Ends _ _ (if owner ≠ organizationId then _ else _) _ _ _
  split
  · exact herror _ (by decide)
  · exact ⟨⟨hdecision, hintent⟩, rfl, rfl⟩

/-- What a reconciliation finds in one state. -/
def Enforcement.findingFor (d : Enforcement) (decisionId : Uuid) (p : IntegrationProvenance) :
    Finding :=
  let capability := d.capabilityOf decisionId
  let capabilityId := capability.map fun c => c.id
  if (d.binding p.enforcementBindingId).any (fun b => b.enforcementAssurance = .capabilityRequired) ∧
      !capability.any (fun c => c.consumedAt.isSome) then
    { outcome := .mismatched, capabilityId, detail := some "capability_required_but_not_consumed" }
  else
    findingOf capabilityId p.canonicalActionDigest
      ((d.receipts.filter fun r => r.decisionId = decisionId).insertionSort
        fun a b => a.submittedAt ≤ b.submittedAt)

theorem alone_findingFor (decisionId : Uuid) (p : IntegrationProvenance) :
    Ends (enforcementSchema H others) Eq (ExecutionReconciliationService.findingFor decisionId p)
      (Ends.split (fun f ws' d' => f = d.findingFor decisionId p ∧ ws = ws' ∧ d = d')
        fun _ _ _ => True) ws d := by
  refine alone_look (fun _ => alone_look (fun _ => ?_) trivial) trivial
  dsimp only
  split
  · next h => exact ⟨(if_pos h).symm, rfl, rfl⟩
  · next h => exact alone_look (fun _ => ⟨(if_neg h).symm, rfl, rfl⟩) trivial

/-- What a reconciliation returns: the row of what it finds, or an earlier one with its digest. -/
def Enforcement.Returns (d : Enforcement) (H : CapabilityHost) (organizationId decisionId : Uuid)
    (f : Finding) (row : ResultRow) : Prop :=
  ∃ new, row = resultRow H organizationId decisionId f new ∨
    row ∈ d.results ∧ row.resultDigest = (resultRow H organizationId decisionId f new).resultDigest

theorem mem_of_latestExistingResult {rows : List ResultRow} {decisionId : Uuid} {row : ResultRow}
    (h : latestExistingResult rows decisionId = some row) : row ∈ rows := by
  have hmem := List.mem_of_mem_head? h
  rw [List.mem_insertionSort] at hmem
  exact List.mem_of_mem_filter hmem

theorem alone_persistResult (organizationId decisionId : Uuid) (f : Finding)
    (canonicalActionDigest : Option String) :
    Ends (enforcementSchema H others) Eq
      (persistResult H organizationId decisionId f canonicalActionDigest)
      (Ends.split (fun row _ _ => d.Returns H organizationId decisionId f row) fun _ _ _ => True)
      ws d := by
  refine alone_draw fun new => alone_look (fun _ => ?_) trivial
  split
  · next existing h =>
    obtain ⟨hlatest, hdigest⟩ := Option.filter_eq_some_iff.1 h
    exact ⟨new, .inr ⟨mem_of_latestExistingResult hlatest, of_decide_eq_true hdigest⟩⟩
  · refine ends_bind (alone_look (fun _ => alone_draw fun new' => ?_) trivial)
    refine ends_bind (ends_commit ?_)
    rintro d' rfl -
    refine ⟨fun _ => ?_, fun _ => trivial, trivial⟩
    exact alone_look (fun _ => ⟨new, .inl rfl⟩) trivial

/-- Why a reconciliation refuses. -/
def refusals : List PyError :=
  [.reconciliationNotApplicable "decision_not_found",
    .reconciliationNotApplicable "decision_not_authorized", .attributeError, .databaseError]

/-- What a reconciliation that is run alone does. -/
structure Reconciles (H : CapabilityHost) (d : Enforcement) (organizationId decisionId : Uuid)
    (x : Except PyError ResultRow) (d' : Enforcement) : Prop where
  /-- It refuses a decision that is not authorized. -/
  refuses : d.authorized decisionId = false → d' = d ∧ ∃ e ∈ refusals, x = .error e
  /-- What it returns is what it finds. -/
  returns : ∀ row, x = .ok row → ∃ r p, d.authorized decisionId = true ∧ d.Decided decisionId r ∧
    r.2.provenance = some p ∧ d.Returns H organizationId decisionId (d.findingFor decisionId p) row

theorem alone_resolveDecision (decisionId organizationId : Uuid) :
    Ends (enforcementSchema H others) Eq
      (ExecutionReconciliationService.resolveDecision decisionId organizationId)
      (Ends.split (fun r ws' d' => d.Decided decisionId r ∧ ws = ws' ∧ d = d')
        fun e ws' d' => e ∈ refusals ∧ ws = ws' ∧ d = d') ws d := by
  refine ends_tryCatch (ends_mono (alone_getDecisionForOrganization decisionId _) fun x ws' d' hx => ?_)
  cases x with
  | ok r => exact hx
  | error e =>
    obtain ⟨he, hws, hd⟩ := hx
    show Ends _ _ (if e = .decisionNotFound ∨ e = .crossOrganizationAccess then _ else _) _ _ _
    split
    · exact ⟨by decide, hws, hd⟩
    · next hne =>
      refine ⟨?_, hws, hd⟩
      simp only [readingErrors, List.mem_cons, List.not_mem_nil, or_false] at he
      rcases he with rfl | rfl | rfl | rfl
      · exact absurd (.inl rfl) hne
      · exact absurd (.inr rfl) hne
      · decide
      · decide

/-- Whether the decision is authorized, as one state says. -/
theorem alone_decisionIsAuthorized {decisionId : Uuid} {decision : Decision}
    (h : d.decision decisionId = some decision) :
    Ends (enforcementSchema H others) Eq (decisionIsAuthorized decision)
      (Ends.split (fun b ws' d' => b = d.authorized decisionId ∧ ws = ws' ∧ d = d')
        fun e ws' d' => e ∈ refusals ∧ ws = ws' ∧ d = d') ws d := by
  have hid : decision.id = decisionId := Rows.key_of_get h
  have hauthorized : d.authorized decisionId = (decide (decision.outcome = .allow) ||
      decide (decision.outcome = .humanReview) && d.approved decisionId) := by
    simp [Enforcement.authorized, Enforcement.outcomeIs, h]
  unfold decisionIsAuthorized
  split
  · next ho => exact ⟨by simp [hauthorized, ho], rfl, rfl⟩
  · next ho => exact ⟨by simp [hauthorized, ho], rfl, rfl⟩
  · next ho =>
    refine alone_look (fun _ => ⟨?_, rfl, rfl⟩) ⟨(by decide : PyError.databaseError ∈ refusals), rfl, rfl⟩
    simp [hauthorized, ho, hid]

theorem alone_reconcileDecision (organizationId decisionId : Uuid) :
    Ends (enforcementSchema H others) Eq (reconcileDecision H organizationId decisionId)
      (fun x _ d' => Reconciles H d organizationId decisionId x d') ws d := by
  have hrefuse : ∀ e ∈ refusals, Reconciles H d organizationId decisionId (.error e) d :=
    fun e he => ⟨fun _ => ⟨rfl, e, he, rfl⟩, fun row h => (by cases h)⟩
  refine ends_seq (alone_resolveDecision decisionId organizationId) ?_ ?_
  · rintro ⟨decision, intent₀⟩ _ _ ⟨hdecided, rfl, rfl⟩
    refine ends_seq (alone_decisionIsAuthorized hdecided.1) ?_ ?_
    · rintro authorized _ _ ⟨hauthorized, rfl, rfl⟩
      cases authorized with
      | false => exact hrefuse _ (by decide)
      | true =>
        have hraise : ∀ e d', Reconciles H d organizationId decisionId (.error e) d' := by
          intro e d'
          refine ⟨fun h' => ?_, fun row h => (by cases h)⟩
          rw [h'] at hauthorized
          cases hauthorized
        refine ends_bind (alone_getIntent (fun intent hintent => ?_) (hraise _ _) (hraise _ _))
        show Ends _ _ _ _ _ _
        beta_reduce
        split
        · exact hraise _ _
        · next p hp =>
          refine ends_seq (alone_findingFor decisionId p) ?_ fun e _ d' _ => hraise e d'
          rintro f _ _ ⟨rfl, rfl, rfl⟩
          refine ends_mono (alone_persistResult organizationId decisionId _ _) fun x _ d' hx => ?_
          cases x with
          | error e => exact hraise e d'
          | ok row =>
            refine ⟨fun h' => ?_, fun row' hrow => ?_⟩
            · rw [h'] at hauthorized
              cases hauthorized
            · cases hrow
              exact ⟨(decision, intent), p, hauthorized.symm, ⟨hdecided.1, hintent⟩, hp, hx⟩
    · rintro e _ _ ⟨he, rfl, rfl⟩
      exact hrefuse e he
  · rintro e _ _ ⟨he, rfl, rfl⟩
    exact hrefuse e he

end PayReality
