import PayReality.Execution.Matched

/-!
# Whether a verdict stays

What a reconciliation finds rests on rows that do not change, and on one column that does: the
assurance of the binding. `set_enforcement_assurance` changes it, and the finding with it, unless the
decision's capability has been consumed.

**Main result** `reconciliation_stays_iff`.
-/

namespace PayReality

open Program RecordProg ExecutionReconciliationService

variable {H : CapabilityHost} {d d' : Enforcement}

/-! ## Earlier states -/

/-- The state of a run and an earlier one. -/
structure Enforcement.Precedes (H : CapabilityHost) (d d' : Enforcement) : Prop where
  linked : d.Linked H
  grows : d.Grows d'

/-- **Every earlier state of a run** has the invariant, and has grown into the present one. -/
theorem enforcement_past {ι : Type} [DecidableEq ι]
    {w : World (RecordStatement EnforcementChange) (RecordStatement.Answer Enforcement Drawn)
      PyError (Records Enforcement ι) ι} {ok : EnforcementChange → Enforcement → Bool}
    (h : EnforcementRun H ok w) : ∀ d ∈ w.store.past, d.Precedes H w.store.db := by
  have hrun := Reach.records (I := fun d => d.Linked H)
    (R := fun d d' => d = d' ∨ Enforcement.Precedes H d d') (enforcement_checks H) ?_ (fun _ => .inl rfl)
    ?_ (fun d hd => hd.admitted) ?_ h
  · intro d hd
    rcases hrun.2 d hd with rfl | hp
    · exact ⟨hrun.1, Enforcement.Grows.refl _⟩
    · exact hp
  · rintro d rfl
    exact Enforcement.linked_empty
  · rintro a b c (rfl | hab) (rfl | hbc)
    · exact .inl rfl
    · exact .inr hbc
    · exact .inr hab
    · exact .inr ⟨hab.linked, hab.grows.trans _ _ _ hbc.grows⟩
  · intro c d hd hchecks _ hadmits
    refine ⟨hd.step (fun p hp => ?_) hadmits, .inr ⟨hd, Enforcement.grows_apply c d⟩⟩
    obtain ⟨d₀, hd₀, hearlier, htrue⟩ := hchecks p hp
    rcases hearlier with rfl | hearlier
    · exact ⟨d₀, hd₀, Enforcement.Grows.refl _, htrue⟩
    · exact ⟨d₀, hd₀, hearlier.grows, htrue⟩

/-! ## What a finding rests on -/

/-- Nothing new is known of the decision: no receipt, no review, and nothing of its capability. -/
structure Enforcement.SameEvents (decisionId : Uuid) (d d' : Enforcement) : Prop where
  receipts : (d'.receipts.filter fun r => r.decisionId = decisionId) =
    d.receipts.filter fun r => r.decisionId = decisionId
  resolution : d'.resolutionOf decisionId = d.resolutionOf decisionId
  capability : d'.capabilityOf decisionId = d.capabilityOf decisionId

/-- The binding asks for a capability that has not been consumed. -/
def Enforcement.lacksCapability (d : Enforcement) (decisionId bindingId : Uuid) : Bool :=
  d.capabilityRequired bindingId && !d.capabilityConsumed decisionId

theorem Enforcement.findingFor_eq (d : Enforcement) (decisionId : Uuid) (p : IntegrationProvenance) :
    d.findingFor decisionId p =
      if d.lacksCapability decisionId p.enforcementBindingId then
        { outcome := .mismatched
          capabilityId := (d.capabilityOf decisionId).map fun c => c.id
          detail := some "capability_required_but_not_consumed" }
      else findingOf ((d.capabilityOf decisionId).map fun c => c.id) p.canonicalActionDigest
        ((d.receipts.filter fun r => r.decisionId = decisionId).insertionSort
          fun a b => a.submittedAt ≤ b.submittedAt) := by
  unfold Enforcement.findingFor Enforcement.lacksCapability
  dsimp only
  by_cases hlacks : (d.capabilityRequired p.enforcementBindingId && !d.capabilityConsumed decisionId) = true
  · rw [if_pos hlacks, if_pos]
    rwa [Bool.and_eq_true] at hlacks
  · rw [if_neg hlacks, if_neg]
    rwa [Bool.and_eq_true] at hlacks

/-- With the same events, the finding is the same if the binding asks for as much. -/
theorem Enforcement.SameEvents.findingFor (h : d.SameEvents decisionId d') {p : IntegrationProvenance}
    (hlacks : d'.lacksCapability decisionId p.enforcementBindingId =
      d.lacksCapability decisionId p.enforcementBindingId) :
    d'.findingFor decisionId p = d.findingFor decisionId p := by
  rw [d'.findingFor_eq, d.findingFor_eq, hlacks, h.receipts, h.capability]

/-! ## Two reconciliations -/

/-- What is hashed of a row that is returned, if digests do not collide. -/
theorem summary_of_returns (h : d.Linked H)
    (hhash : ∀ r r' : ResultRow, r.digest H = r'.digest H → r.summary H = r'.summary H)
    {organizationId decisionId : Uuid} {f : Finding} {row : ResultRow}
    (hrow : d.Returns H organizationId decisionId f row) :
    ∀ new, row.summary H = (resultRow H organizationId decisionId f new).summary H := by
  intro new
  obtain ⟨new', rfl | ⟨hmem, hdigest⟩⟩ := hrow
  · rfl
  · exact hhash row (resultRow H organizationId decisionId f new) (by
      rw [← h.result row hmem, hdigest]
      rfl)

/-- Receipts that are there match the intent, so what they say is no mismatch. -/
theorem findingOf_ne_mismatched (h : d.Linked H) {decisionId : Uuid} {x : Decision × IntentRow}
    {p : IntegrationProvenance} (hx : d.Decided decisionId x) (hp : x.2.provenance = some p)
    (capabilityId : Option Uuid) :
    (findingOf capabilityId p.canonicalActionDigest
      ((d.receipts.filter fun r => r.decisionId = decisionId).insertionSort
        fun a b => a.submittedAt ≤ b.submittedAt)).outcome ≠ .mismatched := by
  unfold findingOf
  split
  · intro hmismatched
    cases hmismatched
  · next r hr =>
    have hmem := chosenReceipt_mem hr
    rw [List.mem_insertionSort, List.mem_filter] at hmem
    have hdecision : r.decisionId = decisionId := of_decide_eq_true hmem.2
    have hreports := h.reports hmem.1 (x := x) (by rw [hdecision]; exact hx)
    unfold ReceiptRow.reports at hreports
    rw [hp] at hreports
    obtain ⟨-, -, hdigest, -⟩ := of_decide_eq_true hreports
    rw [if_neg (not_not.2 hdigest.symm)]
    show r.status.outcome ≠ .mismatched
    cases r.status <;> decide

/-- Findings that differ in whether a capability is lacking differ in their outcome. -/
theorem findingFor_outcome (h : d.Linked H) {decisionId : Uuid} {x : Decision × IntentRow}
    {p : IntegrationProvenance} (hx : d.Decided decisionId x) (hp : x.2.provenance = some p) :
    (d.findingFor decisionId p).outcome = .mismatched ↔
      d.lacksCapability decisionId p.enforcementBindingId = true := by
  rw [d.findingFor_eq]
  split
  · next hlacks => exact ⟨fun _ => hlacks, fun _ => rfl⟩
  · next hlacks => exact ⟨fun hm => absurd hm (findingOf_ne_mismatched h hx hp _), fun hl => absurd hl hlacks⟩

/-- **A verdict stays exactly while its binding asks for as much**, or once the capability has been
consumed. Both reconciliations are of one run, and in between nothing has happened to the decision. -/
theorem reconciliation_stays_iff {ι : Type} [DecidableEq ι]
    {w : World (RecordStatement EnforcementChange) (RecordStatement.Answer Enforcement Drawn)
      PyError (Records Enforcement ι) ι}
    (h : EnforcementRun H (fun _ _ => true) w)
    (hhash : ∀ r r' : ResultRow, r.digest H = r'.digest H → r.summary H = r'.summary H)
    {i j : ι} {organizationId decisionId : Uuid} {s₀ t₀ t : Records Enforcement ι}
    {row₀ row : ResultRow} (hearlier : s₀.db ∈ w.store.past)
    (hsame : s₀.db.SameEvents decisionId w.store.db)
    (hcall₀ : Exec ((enforcementSchema H true).machine Drawn ι) i
      (reconcileDecision H organizationId decisionId) s₀ (.ok row₀) t₀)
    (hcall : Exec ((enforcementSchema H true).machine Drawn ι) j
      (reconcileDecision H organizationId decisionId) w.store (.ok row) t) :
    (row.outcome = row₀.outcome ∧ row.summary H = row₀.summary H) ↔
      ∀ x p, s₀.db.Decided decisionId x → x.2.provenance = some p →
        s₀.db.capabilityConsumed decisionId = true ∨
          w.store.db.capabilityRequired p.enforcementBindingId =
            s₀.db.capabilityRequired p.enforcementBindingId := by
  have hlinked := enforcement_linked h
  have hbefore := enforcement_past h s₀.db hearlier
  obtain ⟨_, hends₀⟩ := hcall₀.ends [] hbefore.linked.admitted
    (alone_reconcileDecision organizationId decisionId)
  obtain ⟨_, hends⟩ := hcall.ends [] hlinked.admitted
    (alone_reconcileDecision organizationId decisionId)
  obtain ⟨x₀, p₀, -, hdecided₀, hp₀, hreturns₀⟩ := hends₀.returns row₀ rfl
  obtain ⟨x, p, -, hdecided, hp, hreturns⟩ := hends.returns row rfl
  -- the decision and its intent have stayed
  have hstays : w.store.db.Decided decisionId x₀ :=
    ⟨hbefore.grows.decision hdecided₀.1, hbefore.grows.intent hdecided₀.2⟩
  have hx : x = x₀ := by
    have hdecision := Option.some.inj (hdecided.1.symm.trans hstays.1)
    have hintent := hdecided.2.symm.trans (hdecision ▸ hstays.2)
    exact Prod.ext hdecision (Option.some.inj hintent)
  subst hx
  have hpp : p = p₀ := Option.some.inj (hp.symm.trans hp₀)
  subst hpp
  have hconsumed : w.store.db.capabilityConsumed decisionId =
      s₀.db.capabilityConsumed decisionId := by
    unfold Enforcement.capabilityConsumed
    rw [hsame.capability]
  constructor
  · intro houtcome y q hy hq
    have hyx : y = x := by
      have hdecision := Option.some.inj (hy.1.symm.trans hdecided₀.1)
      have hintent := hy.2.symm.trans (hdecision ▸ hdecided₀.2)
      exact Prod.ext hdecision (Option.some.inj hintent)
    subst hyx
    have hqp : q = p := Option.some.inj (hq.symm.trans hp)
    subst hqp
    have hlacks : w.store.db.lacksCapability decisionId q.enforcementBindingId =
        s₀.db.lacksCapability decisionId q.enforcementBindingId := by
      rw [Bool.eq_iff_iff, ← findingFor_outcome hlinked hdecided hp,
        ← findingFor_outcome hbefore.linked hdecided₀ hp, ← outcome_of_returns hlinked hhash hreturns,
        ← outcome_of_returns hbefore.linked hhash hreturns₀, houtcome.1]
    unfold Enforcement.lacksCapability at hlacks
    rw [hconsumed] at hlacks
    cases hc : s₀.db.capabilityConsumed decisionId with
    | true => exact .inl rfl
    | false =>
      rw [hc] at hlacks
      simpa using hlacks
  · intro hcondition
    have hfinding : w.store.db.findingFor decisionId p = s₀.db.findingFor decisionId p := by
      refine hsame.findingFor ?_
      unfold Enforcement.lacksCapability
      rw [hconsumed]
      rcases hcondition x p hdecided₀ hp with hc | hrequired
      · rw [hc]
        simp
      · rw [hrequired]
    rw [hfinding] at hreturns
    constructor
    · rw [outcome_of_returns hlinked hhash hreturns,
        outcome_of_returns hbefore.linked hhash hreturns₀]
    · have new : Drawn := ⟨row.id, "", row.computedAt⟩
      rw [summary_of_returns hlinked hhash hreturns new,
        summary_of_returns hbefore.linked hhash hreturns₀ new]

/-! ### A binding that is relabelled -/

/-- A run of the schedule that returns. -/
theorem exec_returns {α : Type} {i : Bool} {n : ℕ} {p : EnforcementService α}
    {s : Records Enforcement Bool} {f : α → Bool}
    (h : (((enforcementSchedule H).exec i n p s).any fun e => e.1.toOption.any f) = true) :
    ∃ a t, Exec ((enforcementSchema H true).machine Drawn Bool) i p s (.ok a) t ∧ f a = true := by
  obtain ⟨⟨x, t⟩, hexec, hx⟩ := (Option.any_eq_true _ _).1 h
  cases x with
  | error e => cases hx
  | ok a => exact ⟨a, t, Schedule.exec_sound hexec, hx⟩

/-- The state before the last change. -/
def beforehand (w : World (RecordStatement EnforcementChange) (RecordStatement.Answer Enforcement Drawn)
    PyError (Records Enforcement Bool) Bool) : Records Enforcement Bool :=
  Records.init (w.store.past.getLast?.getD {})

theorem beforehand_mem {w : World (RecordStatement EnforcementChange)
    (RecordStatement.Answer Enforcement Drawn) PyError (Records Enforcement Bool) Bool}
    (h : w.store.past.getLast?.isSome = true) : (beforehand w).db ∈ w.store.past := by
  obtain ⟨d, hd⟩ := Option.isSome_iff_exists.1 h
  show w.store.past.getLast?.getD {} ∈ w.store.past
  rw [hd]
  exact List.mem_of_getLast? hd

/-- A payment is allowed, and its binding is labelled again as it was. -/
def undisturbedPayment : World (RecordStatement EnforcementChange)
    (RecordStatement.Answer Enforcement Drawn) PyError (Records Enforcement Bool) Bool :=
  playEnforcement digestHost (fun _ _ => true)
    [(true, some reportingParties, 10), (true, some (decidedAs .allow), 10),
      (true, some (.setAssurance 6 7 .advisory), 10)]

theorem reconciliation_stays_advisory : ∃ row₀ row t₀ t,
    Exec ((enforcementSchema digestHost true).machine Drawn Bool) false
      (reconcileDecision digestHost 7 9) (beforehand undisturbedPayment) (.ok row₀) t₀ ∧
    Exec ((enforcementSchema digestHost true).machine Drawn Bool) false
      (reconcileDecision digestHost 7 9) undisturbedPayment.store (.ok row) t ∧
    row.outcome = row₀.outcome := by
  have hbefore : (((enforcementSchedule digestHost).exec false 30 (reconcileDecision digestHost 7 9)
      (beforehand undisturbedPayment)).any fun e => e.1.toOption.any fun _ => true) = true := by
    decide +kernel
  have hafter : (((enforcementSchedule digestHost).exec false 30 (reconcileDecision digestHost 7 9)
      undisturbedPayment.store).any fun e => e.1.toOption.any fun _ => true) = true := by
    decide +kernel
  obtain ⟨row₀, t₀, hcall₀, -⟩ := exec_returns hbefore
  obtain ⟨row, t, hcall, -⟩ := exec_returns hafter
  have hrun : EnforcementRun digestHost (fun _ _ => true) undisturbedPayment :=
    playEnforcement_run _ _ _
  have hsame : (beforehand undisturbedPayment).db.SameEvents 9 undisturbedPayment.store.db :=
    ⟨by decide +kernel, by rfl, by rfl⟩
  refine ⟨row₀, row, t₀, t, hcall₀, hcall, ((reconciliation_stays_iff hrun
    digestHost_digests (beforehand_mem (by decide +kernel)) hsame hcall₀ hcall).2 ?_).1⟩
  intro x p hx hp
  have hbinding : (((beforehand undisturbedPayment).db.decision 9).all fun dec =>
      ((beforehand undisturbedPayment).db.intent dec.intentId).all fun r =>
        r.provenance.all fun p => p.enforcementBindingId = 6) = true := by decide +kernel
  rw [hx.1, Option.all_some, hx.2, Option.all_some, hp, Option.all_some, decide_eq_true_eq] at hbinding
  rw [hbinding]
  exact .inr (by decide +kernel)

/-- A payment is allowed, done and reported, and then its binding is labelled as requiring a
capability. -/
def relabelledPayment : World (RecordStatement EnforcementChange)
    (RecordStatement.Answer Enforcement Drawn) PyError (Records Enforcement Bool) Bool :=
  playEnforcement CapabilityService.capabilityHost (fun _ _ => true)
    (reportedPayment .allow ++ [(true, some (.setAssurance 6 7 .capabilityRequired), 10)])

/-- What was matched is a mismatch, and nothing has happened to the decision. -/
theorem reconciliation_relabelled : ∃ w s₀ row₀ row t₀ t,
    EnforcementRun CapabilityService.capabilityHost (fun _ _ => true) w ∧ s₀.db ∈ w.store.past ∧
    s₀.db.SameEvents 9 w.store.db ∧
    Exec ((enforcementSchema CapabilityService.capabilityHost true).machine Drawn Bool) false
      (reconcileDecision CapabilityService.capabilityHost 7 9) s₀ (.ok row₀) t₀ ∧
    Exec ((enforcementSchema CapabilityService.capabilityHost true).machine Drawn Bool) false
      (reconcileDecision CapabilityService.capabilityHost 7 9) w.store (.ok row) t ∧
    row₀.outcome = .matched ∧ row.outcome = .mismatched := by
  have hbefore : (((enforcementSchedule CapabilityService.capabilityHost).exec false 30
      (reconcileDecision CapabilityService.capabilityHost 7 9) (beforehand relabelledPayment)).any
        fun e => e.1.toOption.any fun row => row.outcome = .matched) = true := by decide +kernel
  have hafter : (((enforcementSchedule CapabilityService.capabilityHost).exec false 30
      (reconcileDecision CapabilityService.capabilityHost 7 9) relabelledPayment.store).any
        fun e => e.1.toOption.any fun row => row.outcome = .mismatched) = true := by decide +kernel
  obtain ⟨row₀, t₀, hcall₀, hmatched⟩ := exec_returns hbefore
  obtain ⟨row, t, hcall, hmismatched⟩ := exec_returns hafter
  exact ⟨relabelledPayment, beforehand relabelledPayment, row₀, row, t₀, t,
    playEnforcement_run _ _ _, beforehand_mem (by decide +kernel),
    ⟨by decide +kernel, by rfl, by rfl⟩, hcall₀, hcall, of_decide_eq_true hmatched,
    of_decide_eq_true hmismatched⟩

end PayReality
