import PayReality.Execution.Reviews
import PayReality.Execution.Revocation
import PayReality.Lib.Once

/-!
# Single use

A decision has one capability, and it is consumed once: `decision_id` is unique, and the `UPDATE` that
consumes asks for `consumed_at IS NULL`.

* `ConsumeEnd`: how a call of `verify_and_consume_capability` ends, whatever else is going on.

**Main result** `capability_single_use`, for every run.
-/

namespace PayReality

open Program RecordProg IntentService CapabilityService

/-! ## What is consumed -/

/-- The capability that a change consumes. -/
def EnforcementChange.consumed? : EnforcementChange → Option Uuid
  | .consume id _ _ => some id
  | _ => none

/-- The capability is consumed. -/
def Enforcement.IsConsumed (id : Uuid) (d : Enforcement) : Prop :=
  ∃ c, d.capability id = some c ∧ c.consumedAt.isSome = true

variable {H : CapabilityHost} {d d' : Enforcement} {id : Uuid}

theorem Enforcement.Grows.isConsumed (h : d.Grows d') (hc : Enforcement.IsConsumed id d) :
    Enforcement.IsConsumed id d' := by
  obtain ⟨c, hget, hat⟩ := hc
  obtain ⟨c', hget', hcontinues⟩ := h.capability hget
  exact ⟨c', hget', hcontinues.consumed hat⟩

theorem isConsumed_consume {p : Dependencies} {now : Timestamp}
    (h : EnforcementChange.isMet (.consume id p now) d = true) :
    Enforcement.IsConsumed id (EnforcementChange.apply (.consume id p now) d) := by
  obtain ⟨c, hget, -⟩ := (Option.any_eq_true _ _).1 h
  have hafter : (EnforcementChange.apply (.consume id p now) d).capability id =
      some (if c.id = id then { c with consumedAt := some now } else c) :=
    Enforcement.capability_consume hget
  rw [if_pos (Rows.key_of_get hget)] at hafter
  exact ⟨_, hafter, rfl⟩

/-- Consuming is done once. -/
theorem enforcement_doneBy (H : CapabilityHost) :
    (enforcementSchema H true).DoneBy EnforcementChange.consumed? Enforcement.IsConsumed where
  fresh := by
    rintro w id d hkey hmet ⟨c, hget, hat⟩
    cases w with
    | consume j p now =>
      cases hkey
      obtain ⟨c', hget', hnone⟩ := (Option.any_eq_true _ _).1 hmet
      rw [hget, Option.some.injEq] at hget'
      rw [← hget', Option.isNone_iff_eq_none] at hnone
      rw [hnone] at hat
      cases hat
    | _ => cases hkey
  done := by
    intro w id d hkey hmet
    cases w with
    | consume j p now =>
      cases hkey
      exact isConsumed_consume (p := p) hmet
    | _ => cases hkey
  stays := fun hdone => (Enforcement.grows_apply _ _).isConsumed hdone

/-! ## What is sent -/

section

abbrev ConsumesPlainly {α : Type} (p : EnforcementService α) : Prop :=
  Plainly EnforcementChange.consumed? p

theorem plainly_resolveDecision (decisionId : Uuid) (organizationId : Option Uuid)
    (resolution : Resolution) (resolvedBy : String) :
    ConsumesPlainly (ResolutionService.resolveDecision decisionId organizationId resolution resolvedBy) := by
  refine .bind (reads_getDecisionForOrganization _ _ _).plainly fun _ => ?_
  dsimp only
  split
  · exact .raise _
  refine .bind .look fun d => ?_
  split
  · exact .raise _
  refine .bind (reads_appendGenericEvidenceEvent _ _ _ _).plainly fun event => .bind .draw fun new => ?_
  refine .bind (.handle (.commit rfl) fun e => ?_) fun _ => .bind .look fun _ => trivial
  split
  · exact .bind .rollback fun _ => .raise _
  · exact .raise _

theorem plainly_commitCapability (row : CapabilityRow) (reviewed : Bool) :
    ConsumesPlainly (commitCapability row reviewed) := by
  refine .handle (.commit rfl) fun e => ?_
  split
  · exact .bind .rollback fun _ => .bind (reads_rejectExistingCapability _).plainly fun _ => .raise _
  · exact .raise _

theorem plainly_issueAndPersist (organizationId : Uuid) (decision : Decision) (intent : IntentRow)
    (audience : String) (ttl : Timestamp) (reviewed : Bool) :
    ConsumesPlainly (issueAndPersist H organizationId decision intent audience ttl reviewed) := by
  refine .bind (reads_rejectExistingCapability _).plainly fun _ => ?_
  refine .bind (reads_checkOrganizationActive _).plainly fun _ => ?_
  refine .bind (reads_checkAgentActive _).plainly fun _ => ?_
  refine .bind (reads_checkIntegrationIdentityActive _).plainly fun _ => ?_
  refine .bind (reads_checkEnforcementBindingActive _).plainly fun _ => ?_
  refine .bind .look fun d => .bind .draw fun new => ?_
  exact .bind (plainly_commitCapability _ _) fun _ => .bind .look fun _ => trivial

theorem plainly_issueCapabilityForDecision (organizationId decisionId : Uuid) (audience : String)
    (ttl : Timestamp) :
    ConsumesPlainly (issueCapabilityForDecision H organizationId decisionId audience ttl) := by
  refine .bind (reads_getDecisionForOrganization _ _ _).plainly fun _ => ?_
  dsimp only
  split
  · exact .raise _
  · exact .bind (reads_getIntent _).plainly fun intent => plainly_issueAndPersist _ _ _ _ _ _

theorem plainly_issueCapabilityForReviewedDecision (organizationId decisionId : Uuid)
    (audience : String) (ttl : Timestamp) :
    ConsumesPlainly (issueCapabilityForReviewedDecision H organizationId decisionId audience ttl) := by
  refine .bind (reads_getDecisionForOrganization _ _ _).plainly fun _ => ?_
  dsimp only
  split
  · exact .raise _
  refine .bind .look fun d => ?_
  split
  · exact .raise _
  · split
    · exact .raise _
    · exact .bind (reads_getIntent _).plainly fun intent => plainly_issueAndPersist _ _ _ _ _ _

theorem plainly_verifyAndConsumeCapability (token : String) (e : Presentation) :
    ConsumesPlainly (verifyAndConsumeCapability H token e) := by
  refine .bind (reads_findCapability _).plainly fun row => .bind .look fun _ => ?_
  refine .bind (.lift _) fun publicKey => .bind .draw fun new => .bind (.lift _) fun payload => ?_
  refine .bind (reads_checkConsumptionFreshness row).plainly fun p => .bind .draw fun new => ?_
  refine .bind .commitIf fun consumed => .bind .look fun _ => ?_
  dsimp only
  split
  · exact .raise _
  · trivial

theorem plainly_submitExecutionReceipt (identity : IntegrationIdentity) (req : ReceiptRequest) :
    ConsumesPlainly (ExecutionReceiptService.submitExecutionReceipt H identity req) := by
  refine .bind (ExecutionReceiptService.reads_linkReceipt _ _).plainly fun _ => ?_
  refine .bind (ExecutionReceiptService.reads_checkDestinationConsistency _ _).plainly fun _ => ?_
  refine .bind .draw fun new => .bind (.lift _) fun row => .bind .look fun d => ?_
  split
  · exact .lift _
  refine .bind (reads_appendGenericEvidenceEvent _ _ _ _).plainly fun event => .bind ?_ fun found => ?_
  · refine .handle (.bind (.commit rfl) fun _ => trivial) fun e => ?_
    split
    · refine .bind .rollback fun _ => .bind .look fun d => ?_
      split
      · exact .raise _
      · exact .bind (.lift _) fun _ => trivial
    · exact .raise _
  · split
    · trivial
    · exact .bind .look fun _ => trivial

theorem plainly_reconcileDecision (organizationId decisionId : Uuid) :
    ConsumesPlainly (ExecutionReconciliationService.reconcileDecision H organizationId decisionId) := by
  refine .bind (ExecutionReconciliationService.reads_resolveDecision _ _).plainly fun _ => ?_
  refine .bind (ExecutionReconciliationService.reads_decisionIsAuthorized _).plainly fun _ => ?_
  dsimp only
  split
  · exact .raise _
  refine .bind (reads_getIntent _).plainly fun intent => ?_
  split
  · exact .lift _
  refine .bind (ExecutionReconciliationService.reads_findingFor _ _).plainly fun f => ?_
  refine .bind .draw fun new => .bind .look fun d => ?_
  split
  · trivial
  refine .bind (reads_appendGenericEvidenceEvent _ _ _ _).plainly fun event => ?_
  exact .bind (.commit rfl) fun _ => .bind .look fun _ => trivial

theorem plainly_setEnforcementAssurance (bindingId organizationId : Uuid)
    (assurance : EnforcementAssurance) :
    ConsumesPlainly (EnforcementBindingLabels.setEnforcementAssurance bindingId organizationId assurance) := by
  refine .bind .look fun d => ?_
  split
  · exact .raise _
  · exact .bind (.commit rfl) fun _ => .bind .look fun _ => trivial

/-- Every request consumes by an `UPDATE` with its condition. -/
theorem enforcement_plainly (r : EnforcementRequest) : r.operation H fun p _ => ConsumesPlainly p := by
  cases r with
  | issue organizationId decisionId audience ttl =>
    exact plainly_issueCapabilityForDecision organizationId decisionId audience ttl
  | issueReviewed organizationId decisionId audience ttl =>
    exact plainly_issueCapabilityForReviewedDecision organizationId decisionId audience ttl
  | resolve decisionId organizationId resolution resolvedBy =>
    exact plainly_resolveDecision decisionId organizationId resolution resolvedBy
  | consume token e => exact plainly_verifyAndConsumeCapability token e
  | submitReceipt identity req => exact plainly_submitExecutionReceipt identity req
  | reconcile organizationId decisionId => exact plainly_reconcileDecision organizationId decisionId
  | setAssurance bindingId organizationId assurance =>
    exact plainly_setEnforcementAssurance bindingId organizationId assurance
  | submit intents decisions evidence => exact .bind .look fun _ => .commit rfl
  | elsewhere organizations principals agents identities bindings =>
    exact .bind .look fun _ => .commit rfl

end

/-! ## How a call ends -/

/-- How a call ends: its result, what it has committed, and what is consumed. -/
inductive ConsumeEnd :
    Except PyError ConsumedCapability → List EnforcementChange → Enforcement → Prop where
  /-- The capability is consumed. -/
  | consumed {r p now d} (hdone : Enforcement.IsConsumed r.capabilityId d) :
      ConsumeEnd (.ok r) [.consume r.capabilityId p now] d
  /-- Nothing is committed. -/
  | refused {e d} : ConsumeEnd (.error e) [] d
  /-- The capability is consumed, and its row cannot be read again. -/
  | unread {id p now d} (hdone : Enforcement.IsConsumed id d) :
      ConsumeEnd (.error .databaseError) [.consume id p now] d

theorem ConsumeEnd.grows {x : Except PyError ConsumedCapability} {ws : List EnforcementChange}
    (h : ConsumeEnd x ws d) (hgrows : d.Grows d') : ConsumeEnd x ws d' := by
  cases h with
  | consumed hdone => exact .consumed (hgrows.isConsumed hdone)
  | refused => exact .refused
  | unread hdone => exact .unread (hgrows.isConsumed hdone)

/-- The `UPDATE` consumes, or changes nothing. -/
theorem ends_consume {p : Dependencies} {now : Timestamp} :
    Ends (enforcementSchema H true) Enforcement.Grows
      (commitIf (.consume id p now) : EnforcementService Bool)
      (Ends.split (fun done ws d' => if done then ws = [.consume id p now] ∧ d'.IsConsumed id else ws = [])
        fun _ ws _ => ws = []) [] d := by
  refine ends_commitIf fun d' _ _ => ⟨fun hmet _ => ?_, fun _ => rfl, rfl, rfl⟩
  exact ⟨rfl, isConsumed_consume (p := p) hmet⟩

/-- **How a call ends, whatever else is going on.** -/
theorem ends_verifyAndConsumeCapability (token : String) (e : Presentation) (ha : d.admitted = true) :
    Ends (enforcementSchema H true) Enforcement.Grows (verifyAndConsumeCapability H token e) ConsumeEnd
      [] d := by
  refine ends_read (reads_findCapability _) ha (fun _ _ => .refused) fun row d₁ _ ha₁ => ?_
  refine ends_look fun d₂ _ _ => ⟨?_, .refused⟩
  refine ends_lift (fun publicKey _ => ?_) fun _ _ => .refused
  refine ends_draw fun new d₃ _ ha₃ => ends_lift (fun payload _ => ?_) fun _ _ => .refused
  refine ends_read (reads_checkConsumptionFreshness row) ha₃ (fun _ _ => .refused) fun p d₄ _ _ => ?_
  refine ends_draw fun new' d₅ _ _ => ends_seq ends_consume (fun done ws d₆ hdone => ?_) ?_
  · cases done with
    | true =>
      obtain ⟨rfl, hconsumed⟩ := hdone
      exact ends_look fun d₇ hgrows _ =>
        ⟨.consumed (hgrows.isConsumed hconsumed), .unread (hgrows.isConsumed hconsumed)⟩
    | false =>
      obtain rfl : ws = [] := hdone
      exact ends_look fun d₇ _ _ => ⟨.refused, .refused⟩
  · rintro e _ d₆ rfl
    exact .refused

/-! ## Runs -/

/-- How a reported request has ended, where it was a consumption. -/
def EnforcementReply.ConsumeEnds : EnforcementReply → List EnforcementChange → Enforcement → Prop
  | .consumed _ x, ws, d => ConsumeEnd x ws d
  | _, _, _ => True

/-- The world of requests whose ends are reported. -/
abbrev ReportingWorld (ι : Type) : Type :=
  World (RecordStatement EnforcementChange ⊕ EnforcementReply)
    (ReportAnswer (RecordStatement.Answer Enforcement Drawn) EnforcementReply) PyError
    (Reported (RecordStatement EnforcementChange) (RecordStatement.Answer Enforcement Drawn) PyError
      (Records Enforcement ι) ι EnforcementReply) ι

section

variable {ι : Type} [DecidableEq ι] {w : ReportingWorld ι}

/-- The invariant holds in runs with reports. -/
theorem ReportingRun.linked (h : ReportingRun H w) : w.store.store.db.Linked H := by
  have hrun := Reach.erased (I := fun s => ∃ d ∈ ({({} : Enforcement)} : Set Enforcement),
    s = Records.init d) (fun s hs => hs.imp fun d hd => ⟨hd.1, congrArg Reported.store hd.2⟩) h
  have hrestricted : Reach (((enforcementSchema H true).machine Drawn ι).restrict fun _ q s _ =>
      (enforcementSchema H true).allows (fun _ _ => true) q s = true) _ _ _ :=
    hrun.imp fun i q s r t hstep => ⟨hstep, by cases q <;> rfl⟩
  exact (checked_keeps (enforcement_checks_reporting H) (J := fun _ => True) trivial
    (fun _ _ _ _ _ _ => trivial) hrestricted).1.1

/-- Every reported consumption has ended so. -/
theorem consume_ends (h : ReportingRun H w) {token : String}
    {x : Except PyError ConsumedCapability} {tr}
    (he : (EnforcementReply.consumed token x, tr) ∈ w.store.reports) :
    ConsumeEnd x (changes tr) w.store.store.db := by
  have hstable : ∀ (x : EnforcementReply) ws d d', Enforcement.Grows d d' → x.ConsumeEnds ws d →
      x.ConsumeEnds ws d' := by
    intro x ws d d' hgrows hx
    cases x with
    | consumed token x => exact hx.grows hgrows
    | _ => trivial
  have hends : ∀ p ∈ {p | ∃ r : EnforcementRequest, p = r.reporting H},
      ∃ (α : Type) (p' : EnforcementService α) (mk : Except PyError α → EnforcementReply),
        p = p'.reported mk ∧ ∀ d, (enforcementSchema H true).admits d = true →
          Ends (enforcementSchema H true) Enforcement.Grows p' (fun x => (mk x).ConsumeEnds) [] d := by
    rintro _ ⟨r, rfl⟩
    cases r with
    | consume token e =>
      refine ⟨_, _, _, rfl, fun d hd => ends_answering (fun x ws d d' => hstable _ ws d d') ?_⟩
      exact ends_verifyAndConsumeCapability token e hd
    | _ => exact ⟨_, _, _, rfl, fun d _ => ends_mono ends_true fun _ _ _ _ => trivial⟩
  have hinit : ∀ d ∈ ({({} : Enforcement)} : Set Enforcement),
      (enforcementSchema H true).admits d = true := by
    rintro d rfl
    exact (Enforcement.linked_empty (H := H)).admitted
  exact (Reach.reports (P := EnforcementReply.ConsumeEnds) Enforcement.Grows.refl
    Enforcement.Grows.trans Enforcement.grows_apply hstable hends hinit h).2 _ he

/-- No capability is consumed by two calls. -/
theorem consumed_once (h : ReportingRun H w) :
    OnlyOnce EnforcementChange.consumed? Enforcement.IsConsumed w.store := by
  refine Reach.once (enforcement_doneBy H) ?_ h
  rintro _ ⟨r, rfl⟩
  have hplainly := enforcement_plainly (H := H) r
  cases r <;> exact ⟨_, _, _, rfl, Plainly.answering hplainly⟩

/-- Capabilities of one decision are the same. -/
theorem capability_ext (hadmits : d.admitted = true) {id' : Uuid} {c c' : CapabilityRow}
    (hc : d.capability id = some c) (hc' : d.capability id' = some c')
    (hdecision : c.decisionId = c'.decisionId) : id = id' := by
  have hnodup : (d.capabilities.map fun c => c.decisionId).Nodup :=
    (of_decide_eq_true hadmits).2.2.2.2.2.2.2.1
  have hsame : c = c' :=
    List.inj_on_of_nodup_map hnodup (Rows.mem_of_get hc) (Rows.mem_of_get hc') hdecision
  rw [← Rows.key_of_get hc, ← Rows.key_of_get hc', hsame]

/-- **A capability is used once.** A decision has one capability at most, and only if it is authorized;
of two calls that have returned, the capabilities are of different decisions; and a call that has
raised has changed nothing, or it has consumed and could not read the row again. -/
theorem capability_single_use (h : ReportingRun H w) :
    (w.store.store.db.capabilities.map fun c => c.decisionId).Nodup ∧
    (∀ c ∈ w.store.store.db.capabilities, w.store.store.db.authorized c.decisionId = true) ∧
    (w.store.reports.Pairwise fun e e' => ∀ token r token' r',
      e.1 = .consumed token (.ok r) → e'.1 = .consumed token' (.ok r') →
      ∀ c c', w.store.store.db.capability r.capabilityId = some c →
        w.store.store.db.capability r'.capabilityId = some c' → c.decisionId ≠ c'.decisionId) ∧
    ∀ token x tr, (EnforcementReply.consumed token x, tr) ∈ w.store.reports →
      ConsumeEnd x (changes tr) w.store.store.db := by
  have hlinked := h.linked
  refine ⟨(of_decide_eq_true hlinked.admitted).2.2.2.2.2.2.2.1, hlinked.capability, ?_,
    fun token x tr he => consume_ends h he⟩
  refine (consumed_once h).reports.imp_of_mem ?_
  rintro ⟨x, tr⟩ ⟨x', tr'⟩ he he' hdisjoint token r token' r' rfl rfl c c' hc hc' hdecision
  have hid := capability_ext hlinked.admitted hc hc' hdecision
  have hkey : ∀ {token r tr}, (EnforcementReply.consumed token (.ok r), tr) ∈ w.store.reports →
      r.capabilityId ∈ keysOf EnforcementChange.consumed? tr := by
    intro token r tr he
    have hends := consume_ends h he
    unfold keysOf
    generalize changes tr = ws at hends
    cases hends with
    | consumed hdone => exact List.mem_singleton_self _
  exact hdisjoint (hkey he) (hid ▸ hkey he')

end

/-! ### Two calls with one token -/

/-- The requests of two processes, with reports. -/
def playUses (S : Schedule ((enforcementSchema consumingHost true).machine Drawn Bool))
    (ts : List (Bool × Option EnforcementRequest × ℕ)) : ReportingWorld Bool :=
  (S.reporting EnforcementReply).play
    (ts.map fun t => ⟨t.1, t.2.1.map fun r => r.reporting consumingHost, t.2.2⟩)
    ⟨Reported.init (Records.init {}), fun _ => none⟩

theorem playUses_run (S : Schedule ((enforcementSchema consumingHost true).machine Drawn Bool))
    (ts : List (Bool × Option EnforcementRequest × ℕ)) : ReportingRun consumingHost (playUses S ts) := by
  refine Schedule.play_reach (.init ⟨{}, rfl, rfl⟩) fun t ht p hp => ?_
  obtain ⟨e, -, rfl⟩ := List.mem_map.1 ht
  obtain ⟨r, -, rfl⟩ := Option.map_eq_some_iff.1 hp
  exact ⟨r, rfl⟩

/-- The payment's capability is presented by a second process while a first one checks it. -/
def presentedTwice : List (Bool × Option EnforcementRequest × ℕ) :=
  consumption 10 ++ [(true, some (.consume "nonce" paymentPresentation), 30), (false, none, 30)]

/-- Both calls are over, and one of them has consumed the capability. -/
theorem capability_single_use_payment :
    (playUses (enforcementSchedule consumingHost) presentedTwice).store.reports.length = 5 ∧
    ((playUses (enforcementSchedule consumingHost) presentedTwice).store.store.db.capabilities.map
      fun c => c.decisionId).Nodup :=
  ⟨by decide +kernel, (capability_single_use (playUses_run _ presentedTwice)).1⟩

/-- The capability of the payment is consumed. -/
def paymentConsumed (d : Enforcement) : Bool := (d.capability 1).any fun c => c.consumedAt.isSome

/-- A consumption that failed with the database. -/
def EnforcementReply.isUnread : EnforcementReply → Bool
  | .consumed _ (.error .databaseError) => true
  | _ => false

/-- The only call there is consumes the capability; its row is not read again, and it raises. -/
theorem consumption_unread : ∃ (w : ReportingWorld Bool) (token : String)
      (tr : List (Answered (RecordStatement EnforcementChange) (RecordStatement.Answer Enforcement Drawn)
        PyError)),
    ReportingRun consumingHost w ∧
    (EnforcementReply.consumed token (.error .databaseError), tr) ∈ w.store.reports ∧
    1 ∈ keysOf EnforcementChange.consumed? tr ∧ w.store.store.db.IsConsumed 1 ∧
    w.running false = none ∧ w.running true = none := by
  have hrun := playUses_run (Schema.failing (enforcementSchedule consumingHost) paymentConsumed)
    (consumption 30)
  generalize hw : playUses (Schema.failing (enforcementSchedule consumingHost) paymentConsumed)
    (consumption 30) = w at hrun
  have hreport : (w.store.reports.any fun e =>
      e.1.isUnread && (keysOf EnforcementChange.consumed? e.2).contains 1) = true := by
    subst hw
    decide +kernel
  have hconsumed : paymentConsumed w.store.store.db = true := by
    subst hw
    decide +kernel
  have hover : (w.running false).isNone = true ∧ (w.running true).isNone = true := by
    subst hw
    decide +kernel
  obtain ⟨⟨x, tr⟩, hmem, hunread⟩ := List.any_eq_true.1 hreport
  obtain ⟨hx, hkey⟩ := Bool.and_eq_true_iff.1 hunread
  obtain ⟨c, hc, hat⟩ := (Option.any_eq_true _ _).1 hconsumed
  have hexists : ∃ token, x = .consumed token (.error .databaseError) := by
    cases x with
    | consumed token y =>
      cases y with
      | error e =>
        cases e with
        | databaseError => exact ⟨token, rfl⟩
        | _ => cases hx
      | ok r => cases hx
    | _ => cases hx
  obtain ⟨token, rfl⟩ := hexists
  exact ⟨w, token, tr, hrun, hmem, by simpa using hkey, ⟨c, hc, hat⟩,
    Option.isNone_iff_eq_none.1 hover.1, Option.isNone_iff_eq_none.1 hover.2⟩

end PayReality
