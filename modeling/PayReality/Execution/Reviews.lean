import PayReality.Execution.ReceiptLedger
import PayReality.Lib.Alone

/-!
# Reviews

A decision that was left to a reviewer is resolved once. The resolution and its evidence record are
committed together, so a call that comes too late leaves neither.

* `ReviewEnd`: how a call of `resolve_decision` ends, whatever else is going on.
* `Enforcement.Reviewed`: the resolutions are of decisions that were left to a reviewer, and each has one
  evidence record.
* `Enforcement.Reviewable`: what can be resolved.

**Main result** `review_resolves_once`, for every run in which reviews are recorded by nothing else.
-/

namespace PayReality

open Program RecordProg IntentService ResolutionService

/-! ## How a call ends -/

/-- How a call ends: its result, what it has committed, and the resolutions that there are. -/
inductive ReviewEnd (decisionId : Uuid) :
    Except PyError ResolutionRow → List EnforcementChange → Enforcement → Prop where
  /-- The resolution is stored, with one evidence record. -/
  | resolved {row event d} (hrow : d.resolutionOf decisionId = some row)
      (hevent : event.isReview = true) :
      ReviewEnd decisionId (.ok row) [.resolve row event] d
  /-- Nothing is committed. -/
  | refused {e d} : ReviewEnd decisionId (.error e) [] d
  /-- The resolution is stored, and cannot be read again. -/
  | unread {row event d} (hrow : d.resolutionOf decisionId = some row)
      (hevent : event.isReview = true) :
      ReviewEnd decisionId (.error .databaseError) [.resolve row event] d

section

variable {H : CapabilityHost} {d d' : Enforcement} {decisionId : Uuid}

theorem ReviewEnd.grows {x : Except PyError ResolutionRow} {ws : List EnforcementChange}
    (h : ReviewEnd decisionId x ws d) (hgrows : d.Grows d') : ReviewEnd decisionId x ws d' := by
  cases h with
  | resolved hrow hevent => exact .resolved (hgrows.resolution hrow) hevent
  | refused => exact .refused
  | unread hrow hevent => exact .unread (hgrows.resolution hrow) hevent

theorem isReview_reviewDetails {e : EvidenceEvent} {resolution : Resolution} {resolvedBy : String}
    (htype : e.eventType = none) (hdetails : e.details = reviewDetails resolution resolvedBy) :
    e.isReview = true := by
  unfold EvidenceEvent.isReview
  rw [htype, hdetails]
  rfl

/-- How the commit ends: with the resolution stored, or with nothing. -/
theorem ends_commitResolution {row : ResolutionRow} {event : EvidenceEvent} :
    Ends (enforcementSchema H true) Enforcement.Grows (commitResolution row event)
      (Ends.split (fun _ ws d' => ws = [.resolve row event] ∧
          d'.resolutionOf row.decisionId = some row)
        fun _ ws _ => ws = []) [] d := by
  refine ends_tryCatch (ends_commit fun d' _ _ => ⟨fun hadmits => ⟨rfl, ?_⟩, fun _ => ?_, ?_⟩)
  · have hnodup := (of_decide_eq_true hadmits).2.2.2.2.1
    exact Rows.get_of_mem hnodup (List.mem_append_right _ (List.mem_singleton_self row))
  · exact ends_rollback fun d'' _ _ => rfl
  · exact rfl

/-- What is raised by a reading. -/
theorem ends_read {α β : Type} {p : EnforcementService α} {f : α → EnforcementService β}
    {Q : Except PyError β → List EnforcementChange → Enforcement → Prop} (hp : Reads p)
    (ha : d.admitted = true)
    (he : ∀ e d', Q (.error e) [] d')
    (hf : ∀ a d', d.Grows d' → d'.admitted = true →
      Ends (enforcementSchema H true) Enforcement.Grows (f a) Q [] d') :
    Ends (enforcementSchema H true) Enforcement.Grows (p >>= f) Q [] d := by
  refine ends_bind (hp.ends Enforcement.Grows.refl Enforcement.Grows.trans ha fun x d' hd ha' => ?_)
  cases x with
  | ok a => exact hf a d' hd ha'
  | error e => exact he e d'

/-- **How a call ends, whatever else is going on.** -/
theorem ends_resolveDecision (organizationId : Option Uuid) (resolution : Resolution)
    (resolvedBy : String) (ha : d.admitted = true) :
    Ends (enforcementSchema H true) Enforcement.Grows
      (ResolutionService.resolveDecision decisionId organizationId resolution resolvedBy)
      (ReviewEnd decisionId) [] d := by
  refine ends_read (reads_getDecisionForOrganization _ _ _) ha (fun _ _ => .refused) ?_
  rintro ⟨decision, _⟩ d₁ - -
  dsimp only
  split
  · exact .refused
  refine ends_look fun d₂ _ ha₂ => ⟨?_, .refused⟩
  split
  · exact .refused
  refine ends_bind (ends_look fun d₃ _ _ => ⟨ends_draw fun new d₄ _ _ => ?_, ReviewEnd.refused⟩)
  refine ends_draw fun new' d₅ _ _ => ends_seq ends_commitResolution ?_ ?_
  · rintro _ _ d₆ ⟨rfl, hrow⟩
    refine ends_look fun d₇ hgrows _ => ⟨?_, ?_⟩
    · exact .resolved (hgrows.resolution hrow) (isReview_reviewDetails rfl rfl)
    · exact .unread (hgrows.resolution hrow) (isReview_reviewDetails rfl rfl)
  · rintro e _ d₆ rfl
    exact .refused

end

/-! ## What can be resolved -/

/-- The organization that an agent acts for. -/
def Enforcement.ownerOf (d : Enforcement) (agentId : Uuid) : Option Uuid :=
  (d.agent agentId).bind fun a => (d.principal a.actingForPrincipalId).bind Principal.organizationId

/-- The decision was left to a reviewer of the organization, and has not been resolved. -/
structure Enforcement.Reviewable (d : Enforcement) (decisionId : Uuid) (organizationId : Option Uuid)
    (r : Decision × IntentRow) : Prop where
  decided : d.Decided decisionId r
  outcome : r.1.outcome = .humanReview
  owner : d.ownerOf r.2.agentId = organizationId
  unresolved : d.resolutionOf decisionId = none

section

variable {H : CapabilityHost} {d : Enforcement} {decisionId : Uuid} {organizationId : Option Uuid}

theorem alone_ownerOf {agentId : Uuid} {Q : Except PyError (Option Uuid) →
      List EnforcementChange → Enforcement → Prop} (h : Q (.ok (d.ownerOf agentId)) [] d)
    (hf : Q (.error .databaseError) [] d) :
    Ends (enforcementSchema H true) Eq (resolveChainScope agentId) Q [] d := by
  unfold Enforcement.ownerOf at h
  refine alone_look (fun _ => ?_) hf
  split
  · next hagent =>
    rw [hagent] at h
    exact h
  · next agent hagent =>
    rw [hagent] at h
    exact alone_look (fun _ => h) hf

/-- What a call has found that returns. -/
theorem alone_review (resolution : Resolution) (resolvedBy : String) :
    Ends (enforcementSchema H true) Eq
      (ResolutionService.resolveDecision decisionId organizationId resolution resolvedBy)
      (Ends.split (fun _ _ _ => ∃ r, d.Reviewable decisionId organizationId r) fun _ _ _ => True)
      [] d := by
  unfold ResolutionService.resolveDecision getDecisionForOrganization
  refine ends_bind (ends_bind (alone_getDecision (fun decision hdecision => ?_) trivial trivial))
  refine ends_bind (alone_getIntent (fun intent hintent => ?_) trivial trivial)
  refine ends_bind (alone_ownerOf ?_ trivial)
  show Ends _ _ (if _ then _ else _) _ _ _
  split
  · trivial
  next howner =>
  show Ends _ _ (if _ then _ else _) _ _ _
  split
  · trivial
  next houtcome =>
  refine alone_look (fun _ => ?_) trivial
  split
  · trivial
  next hunresolved =>
  refine ends_mono ends_true fun x _ _ _ => ?_
  have hreviewable : d.Reviewable decisionId organizationId (decision, intent) :=
    ⟨⟨hdecision, hintent⟩, not_not.1 houtcome, not_not.1 howner,
      Option.not_isSome_iff_eq_none.1 hunresolved⟩
  cases x with
  | ok row => exact ⟨_, hreviewable⟩
  | error e => trivial

variable {x : Drawn}

theorem perform_resolveChainScope (agentId : Uuid) :
    (enforcementSchema H true).perform x (resolveChainScope agentId) d =
      (.ok (d.ownerOf agentId), d) := by
  unfold resolveChainScope Enforcement.ownerOf
  rw [perform_look]
  split
  · next hagent =>
    rw [hagent]
    rfl
  · next agent hagent =>
    rw [hagent]
    rfl

theorem perform_getDecisionForOrganization {r : Decision × IntentRow} {error : PyError}
    (hdecided : d.Decided decisionId r) (howner : d.ownerOf r.2.agentId = organizationId) :
    (enforcementSchema H true).perform x
      (getDecisionForOrganization decisionId organizationId error) d = (.ok r, d) := by
  have hdecision : (enforcementSchema H true).perform x (getDecision decisionId) d = (.ok r.1, d) := by
    unfold getDecision
    rw [perform_look, hdecided.1]
    rfl
  have hintent : (enforcementSchema H true).perform x (getIntent r.1.intentId) d = (.ok r.2, d) := by
    unfold getIntent
    rw [perform_look, hdecided.2]
    rfl
  unfold getDecisionForOrganization
  rw [perform_bind hdecision, perform_bind hintent, perform_bind (perform_resolveChainScope _)]
  rw [if_neg (not_not.2 howner)]
  rfl

/-- A decision that can be resolved is resolved, if nothing fails. -/
theorem perform_review {r : Decision × IntentRow} (ha : d.admitted = true)
    (h : d.Reviewable decisionId organizationId r) (resolution : Resolution) (resolvedBy : String) :
    ∃ row d', (enforcementSchema H true).perform x
      (ResolutionService.resolveDecision decisionId organizationId resolution resolvedBy) d =
        (.ok row, d') := by
  have hadmits : ∀ event, ((EnforcementChange.resolve ⟨x.id, decisionId, resolution⟩ event).apply
      d).admitted = true := by
    intro event
    obtain ⟨ho, hb, hi, hd, hr, hrest⟩ := of_decide_eq_true ha
    refine decide_eq_true ⟨ho, hb, hi, hd, ?_, hrest⟩
    show ((d.resolutions ++ [_]).map _).Nodup
    rw [List.map_append, List.nodup_append]
    refine ⟨hr, List.nodup_singleton _, fun k hk k' hk' hkk => ?_⟩
    obtain ⟨r', hr', rfl⟩ := List.mem_map.1 hk
    have hget := Rows.get_of_mem hr hr'
    rw [hkk, List.mem_singleton.1 hk'] at hget
    exact absurd (hget.symm.trans h.unresolved) (by simp)
  have hcommit : ∀ event, (enforcementSchema H true).perform x
      (commitResolution ⟨x.id, decisionId, resolution⟩ event) d =
        (.ok (), (EnforcementChange.resolve ⟨x.id, decisionId, resolution⟩ event).apply d) :=
    fun event => perform_tryCatch (perform_commit (hadmits event))
  unfold ResolutionService.resolveDecision
  rw [perform_bind (perform_getDecisionForOrganization h.decided h.owner)]
  dsimp only
  rw [if_neg (not_not.2 h.outcome), perform_look, if_neg (by simp [h.unresolved])]
  exact ⟨_, _, perform_bind (hcommit _)⟩

/-- **What can be resolved.** -/
theorem reviewable_iff {ι : Type} [DecidableEq ι] {s : Records Enforcement ι} (i : ι)
    (ha : s.db.admitted = true) (resolution : Resolution) (resolvedBy : String) :
    (∃ row t, Exec ((enforcementSchema H true).machine Drawn ι) i
      (ResolutionService.resolveDecision decisionId organizationId resolution resolvedBy) s (.ok row) t) ↔
      ∃ r, s.db.Reviewable decisionId organizationId r := by
  constructor
  · rintro ⟨row, t, hcall⟩
    obtain ⟨_, hends⟩ := hcall.ends [] ha (alone_review resolution resolvedBy)
    exact hends
  · rintro ⟨r, hr⟩
    obtain ⟨row, d', hperform⟩ := perform_review (H := H) (x := ⟨decisionId, "", 0⟩) ha hr resolution
      resolvedBy
    obtain ⟨t, hexec, -⟩ := exec_perform (S := enforcementSchema H true) (x := ⟨decisionId, "", 0⟩) i
      (ResolutionService.resolveDecision decisionId organizationId resolution resolvedBy) s
    rw [hperform] at hexec
    exact ⟨row, t, hexec⟩

end

/-! ## The invariant -/

/-- Submissions record no reviews. -/
def EnforcementChange.recordsNoReview : EnforcementChange → Enforcement → Bool
  | .submitted _ _ evidence, _ => evidence.all fun e => !e.isReview
  | _, _ => true

/-- The resolutions are of decisions that were left to a reviewer, and each has one evidence record. -/
structure Enforcement.Reviewed (d : Enforcement) : Prop where
  outcome : ∀ r ∈ d.resolutions, d.outcomeIs r.decisionId .humanReview = true
  recorded : List.Forall₂ (fun r e => e.decisionId = r.decisionId) d.resolutions
    (d.evidence.filter EvidenceEvent.isReview)

section

variable {H : CapabilityHost} {d : Enforcement}

theorem not_isReview_of_isTyped {e : EvidenceEvent} {eventType : String} {decisionId : Uuid}
    (h : e.isTyped eventType decisionId = true) : e.isReview = false := by
  unfold EvidenceEvent.isReview
  rw [(of_decide_eq_true h).1]
  rfl

/-- A change that adds no resolution and no review. -/
theorem Enforcement.Reviewed.same {d' : Enforcement} (h : d.Reviewed) (hgrows : d.Grows d')
    (hresolutions : d'.resolutions = d.resolutions)
    (hevidence : d'.evidence.filter EvidenceEvent.isReview =
      d.evidence.filter EvidenceEvent.isReview) : d'.Reviewed where
  outcome r hr := hgrows.outcomeIs (h.outcome r (hresolutions ▸ hr))
  recorded := by
    rw [hresolutions, hevidence]
    exact h.recorded

/-- **One change keeps the invariant.** -/
theorem Enforcement.Reviewed.step (h : d.Reviewed) {w : EnforcementChange}
    (hchecks : ∀ c ∈ w.checks H true, ∃ d₀ : Enforcement, d₀.Reviewed ∧ d₀.Grows d ∧ c d₀ = true)
    (hok : w.recordsNoReview d = true) : (w.apply d).Reviewed := by
  have hgrows := Enforcement.grows_apply w d
  cases w with
  | resolve row event =>
    simp only [EnforcementChange.checks, List.forall_mem_cons] at hchecks
    obtain ⟨⟨d₀, -, hd₀, houtcome⟩, ⟨_, -, -, hevent⟩, -⟩ := hchecks
    obtain ⟨hreview, hdecision⟩ := of_decide_eq_true hevent
    refine ⟨fun r hr => ?_, ?_⟩
    · rcases List.mem_append.1 hr with hr | hr
      · exact hgrows.outcomeIs (h.outcome r hr)
      · rw [List.mem_singleton.1 hr]
        exact hgrows.outcomeIs (hd₀.outcomeIs houtcome)
    · show List.Forall₂ _ (d.resolutions ++ [row]) ((d.evidence ++ [event]).filter _)
      rw [List.filter_append, List.filter_singleton, hreview]
      exact List.rel_append h.recorded (.cons hdecision .nil)
  | accept row intentId event =>
    simp only [EnforcementChange.checks, List.forall_mem_cons] at hchecks
    obtain ⟨-, -, -, -, -, -, ⟨_, -, -, hevent⟩, -⟩ := hchecks
    exact h.same hgrows rfl (Rows.filter_append_of_false (not_isReview_of_isTyped hevent))
  | reconcile row event =>
    simp only [EnforcementChange.checks, List.forall_mem_cons] at hchecks
    obtain ⟨-, -, ⟨_, -, -, hevent⟩, -⟩ := hchecks
    exact h.same hgrows rfl (Rows.filter_append_of_false (not_isReview_of_isTyped hevent))
  | submitted intents decisions evidence =>
    refine h.same hgrows rfl ?_
    show (d.evidence ++ evidence).filter _ = _
    have hnone : evidence.filter EvidenceEvent.isReview = [] := by
      rw [List.filter_eq_nil_iff]
      intro e he
      simpa using List.all_eq_true.1 hok e he
    rw [List.filter_append, hnone, List.append_nil]
  | issue row reviewed => exact h.same hgrows rfl rfl
  | consume id p now => exact h.same hgrows rfl rfl
  | setAssurance bindingId assurance => exact h.same hgrows rfl rfl
  | elsewhere organizations principals agents identities bindings => exact h.same hgrows rfl rfl

end

/-! ## Runs -/

/-- How a reported request has ended, where it was a review. -/
def EnforcementReply.ReviewEnds : EnforcementReply → List EnforcementChange → Enforcement → Prop
  | .reviewed decisionId x, ws, d => ReviewEnd decisionId x ws d
  | _, _, _ => True

/-- A run of requests whose ends are reported, in which submissions record no reviews. -/
def ReviewRun {ι : Type} [DecidableEq ι] (H : CapabilityHost)
    (w : World (RecordStatement EnforcementChange ⊕ EnforcementReply)
      (ReportAnswer (RecordStatement.Answer Enforcement Drawn) EnforcementReply) PyError
      (Reported (RecordStatement EnforcementChange) (RecordStatement.Answer Enforcement Drawn) PyError
        (Records Enforcement ι) ι EnforcementReply) ι) : Prop :=
  Reach ((((enforcementSchema H true).machine Drawn ι).restrict fun _ q s _ =>
      (enforcementSchema H true).allows EnforcementChange.recordsNoReview q s = true).reporting
        EnforcementReply)
    {p | ∃ r : EnforcementRequest, p = r.reporting H}
    (fun s => ∃ d ∈ ({({} : Enforcement)} : Set Enforcement), s = Reported.init (Records.init d)) w

section

variable {ι : Type} [DecidableEq ι] {H : CapabilityHost}
  {w : World (RecordStatement EnforcementChange ⊕ EnforcementReply)
    (ReportAnswer (RecordStatement.Answer Enforcement Drawn) EnforcementReply) PyError
    (Reported (RecordStatement EnforcementChange) (RecordStatement.Answer Enforcement Drawn) PyError
      (Records Enforcement ι) ι EnforcementReply) ι}

theorem ReviewRun.reporting (h : ReviewRun H w) : ReportingRun H w := by
  refine Reach.imp (fun i q s r t hstep => ?_) h
  cases q with
  | inl q =>
    obtain ⟨u, hstep, rfl⟩ := hstep
    exact ⟨u, hstep.1, rfl⟩
  | inr x => exact hstep

/-- Every reported call has ended so. -/
theorem review_ends (h : ReviewRun H w) :
    ∀ decisionId x tr, (EnforcementReply.reviewed decisionId x, tr) ∈ w.store.reports →
      ReviewEnd decisionId x (changes tr) w.store.store.db := by
  have hstable : ∀ (x : EnforcementReply) ws d d', Enforcement.Grows d d' → x.ReviewEnds ws d →
      x.ReviewEnds ws d' := by
    intro x ws d d' hgrows hx
    cases x with
    | reviewed decisionId x => exact hx.grows hgrows
    | _ => trivial
  have hends : ∀ p ∈ {p | ∃ r : EnforcementRequest, p = r.reporting H},
      ∃ (α : Type) (p' : EnforcementService α) (mk : Except PyError α → EnforcementReply),
        p = p'.reported mk ∧ ∀ d, (enforcementSchema H true).admits d = true →
          Ends (enforcementSchema H true) Enforcement.Grows p' (fun x => (mk x).ReviewEnds) [] d := by
    rintro _ ⟨r, rfl⟩
    cases r with
    | resolve decisionId organizationId resolution resolvedBy =>
      refine ⟨_, _, _, rfl, fun d hd => ends_answering (fun x ws d d' => hstable _ ws d d') ?_⟩
      exact ends_resolveDecision organizationId resolution resolvedBy hd
    | _ => exact ⟨_, _, _, rfl, fun d _ => ends_mono ends_true fun _ _ _ _ => trivial⟩
  have hinit : ∀ d ∈ ({({} : Enforcement)} : Set Enforcement),
      (enforcementSchema H true).admits d = true := by
    rintro d rfl
    exact (Enforcement.linked_empty (H := H)).admitted
  have hreports := (Reach.reports (P := EnforcementReply.ReviewEnds) Enforcement.Grows.refl
    Enforcement.Grows.trans Enforcement.grows_apply hstable hends hinit h.reporting).2
  exact fun decisionId x tr he => hreports _ he

/-- **A review is resolved once.** In every state of a run, what can be resolved is exactly what was
left to a reviewer and has not been; a decision has one resolution at most, and a resolution one
evidence record; a call that is over has committed both, or nothing, and then it has raised; and no
decision has been changed. -/
theorem review_resolves_once (h : ReviewRun H w) :
    (∀ i decisionId organizationId resolution resolvedBy,
      (∃ row t, Exec ((enforcementSchema H true).machine Drawn ι) i
        (ResolutionService.resolveDecision decisionId organizationId resolution resolvedBy)
        w.store.store (.ok row) t) ↔
          ∃ r, w.store.store.db.Reviewable decisionId organizationId r) ∧
    (∀ r ∈ w.store.store.db.resolutions,
      w.store.store.db.outcomeIs r.decisionId .humanReview = true) ∧
    (w.store.store.db.resolutions.map fun r => r.decisionId).Nodup ∧
    List.Forall₂ (fun r e => e.decisionId = r.decisionId) w.store.store.db.resolutions
      (w.store.store.db.evidence.filter EvidenceEvent.isReview) ∧
    (∀ decisionId x tr, (EnforcementReply.reviewed decisionId x, tr) ∈ w.store.reports →
      ReviewEnd decisionId x (changes tr) w.store.store.db) ∧
    ∀ d ∈ w.store.store.past, ∀ id r, d.decision id = some r →
      w.store.store.db.decision id = some r := by
  have hrun := Reach.erased (I := fun s => ∃ d ∈ ({({} : Enforcement)} : Set Enforcement),
    s = Records.init d) (fun s hs => hs.imp fun d hd => ⟨hd.1, congrArg Reported.store hd.2⟩) h
  obtain ⟨⟨hlinked, hreviewed⟩, hpast⟩ := checked_keeps (enforcement_checks_reporting H)
    (J := Enforcement.Reviewed) ⟨fun r hr => (by cases hr), .nil⟩
    (fun w d _ hd hchecks hok => hd.step hchecks hok) hrun
  refine ⟨fun i decisionId organizationId resolution resolvedBy => ?_, hreviewed.outcome, ?_,
    hreviewed.recorded, review_ends h, fun d hd id r hr => (hpast d hd).decision hr⟩
  · exact reviewable_iff i hlinked.admitted resolution resolvedBy
  · exact (of_decide_eq_true hlinked.admitted).2.2.2.2.1

end

/-! ### Two reviewers at once -/

/-- A payment is left to a reviewer; one approves it while another one denies it. -/
def disputedPayment : List (Bool × Option EnforcementRequest × ℕ) :=
  [(true, some reportingParties, 10), (true, some (decidedAs .humanReview), 10),
    (true, some (.resolve 9 (some 7) .approved "first"), 8),
    (false, some (.resolve 9 (some 7) .denied "second"), 20), (true, none, 20)]

/-- The turns with reports, as far as submissions record no reviews. -/
def playReviews (ts : List (Bool × Option EnforcementRequest × ℕ)) :
    World (RecordStatement EnforcementChange ⊕ EnforcementReply)
      (ReportAnswer (RecordStatement.Answer Enforcement Drawn) EnforcementReply) PyError
      (Reported (RecordStatement EnforcementChange) (RecordStatement.Answer Enforcement Drawn) PyError
        (Records Enforcement Bool) Bool EnforcementReply) Bool :=
  (((enforcementSchedule CapabilityService.capabilityHost).restrict fun _ q s _ =>
      (enforcementSchema CapabilityService.capabilityHost true).allows
        EnforcementChange.recordsNoReview q s).reporting EnforcementReply).play
    (ts.map fun t => ⟨t.1, t.2.1.map fun r => r.reporting CapabilityService.capabilityHost, t.2.2⟩)
    ⟨Reported.init (Records.init {}), fun _ => none⟩

theorem playReviews_run (ts : List (Bool × Option EnforcementRequest × ℕ)) :
    ReviewRun CapabilityService.capabilityHost (playReviews ts) := by
  refine Schedule.play_reach (.init ⟨{}, rfl, rfl⟩) fun t ht p hp => ?_
  obtain ⟨e, -, rfl⟩ := List.mem_map.1 ht
  obtain ⟨r, -, rfl⟩ := Option.map_eq_some_iff.1 hp
  exact ⟨r, rfl⟩

/-- Both calls are over, and one resolution is there. -/
theorem review_resolves_once_disputed :
    (playReviews disputedPayment).store.store.db.resolutions.length = 1 ∧
    (playReviews disputedPayment).store.reports.length = 4 ∧
    ((playReviews disputedPayment).store.store.db.resolutions.map fun r => r.decisionId).Nodup :=
  ⟨by decide +kernel, by decide +kernel,
    (review_resolves_once (playReviews_run disputedPayment)).2.2.1⟩

end PayReality
