import PayReality.Execution.ReceiptService

/-!
# What the services after a decision check

Every service commits only what it has checked (`enforcement_checks`), and most of what it does is
reading.
-/

namespace PayReality

open Program RecordProg IntentService CapabilityService

/-! ## Readings -/

theorem reads_resolveChainScope (agentId : Uuid) : Reads (resolveChainScope agentId) := by
  refine Reads.look fun d => ?_
  split
  · exact Reads.pure _
  · exact Reads.look fun _ => Reads.pure _

theorem reads_getIntent (id : Uuid) : Reads (getIntent id) := by
  refine Reads.look fun d => ?_
  split
  · exact Reads.raise _
  · exact Reads.pure _

theorem reads_getDecision (id : Uuid) : Reads (getDecision id) := by
  refine Reads.look fun d => ?_
  split
  · exact Reads.raise _
  · exact Reads.pure _

theorem reads_getDecisionForOrganization (decisionId : Uuid) (organizationId : Option Uuid)
    (error : PyError) : Reads (getDecisionForOrganization decisionId organizationId error) := by
  refine Reads.bind (reads_getDecision _) fun decision => Reads.bind (reads_getIntent _) fun intent => ?_
  refine Reads.bind (reads_resolveChainScope _) fun owner => ?_
  split
  · exact Reads.raise _
  · exact Reads.pure _

theorem reads_appendGenericEvidenceEvent (organizationId : Option Uuid) (decisionId : Uuid)
    (eventType : Option String) (details : Json) :
    Reads (appendGenericEvidenceEvent organizationId decisionId eventType details) :=
  Reads.look fun _ => Reads.draw fun _ => Reads.pure _

theorem reads_rejectExistingCapability (decisionId : Uuid) :
    Reads (rejectExistingCapability decisionId) := by
  refine Reads.look fun d => ?_
  split
  · exact Reads.pure _
  · exact Reads.draw fun _ => Reads.raise _

theorem reads_require (active : Enforcement → Bool) (error : PyError) :
    Reads (require active error) := by
  refine Reads.look fun d => ?_
  split
  · exact Reads.raise _
  · exact Reads.pure _

theorem reads_checkOrganizationActive (id : Uuid) : Reads (checkOrganizationActive id) :=
  reads_require _ _

theorem reads_checkAgentActive (id : Uuid) : Reads (checkAgentActive id) := reads_require _ _

theorem reads_checkIntegrationIdentityActive (id : Option Uuid) :
    Reads (checkIntegrationIdentityActive id) := by
  cases id with
  | none => exact Reads.pure _
  | some id => exact reads_require _ _

theorem reads_checkEnforcementBindingActive (id : Option Uuid) :
    Reads (checkEnforcementBindingActive id) := by
  cases id with
  | none => exact Reads.pure _
  | some id => exact reads_require _ _

theorem reads_checkConsumptionFreshness (row : CapabilityRow) :
    Reads (checkConsumptionFreshness row) := by
  refine Reads.look fun d => ?_
  split
  · exact Reads.raise _
  · refine Reads.bind (reads_getIntent _) fun intent => ?_
    refine Reads.bind (reads_checkOrganizationActive _) fun _ => ?_
    refine Reads.bind (reads_checkAgentActive _) fun _ => ?_
    refine Reads.bind (reads_checkIntegrationIdentityActive _) fun _ => ?_
    exact Reads.bind (reads_checkEnforcementBindingActive _) fun _ => Reads.pure _

theorem reads_findCapability (tokenHash : String) : Reads (findCapability tokenHash) := by
  refine Reads.look fun d => ?_
  split
  · exact Reads.raise _
  · exact Reads.pure _

namespace ExecutionReceiptService

theorem reads_checkOrganization (id : Uuid) : Reads (checkOrganization id) := by
  refine Reads.look fun d => ?_
  split
  · exact Reads.pure _
  · split
    · exact Reads.pure _
    · exact Reads.lift _

theorem reads_resolveOwnedBinding (bindingId organizationId identityId : Uuid) :
    Reads (resolveOwnedBinding bindingId organizationId identityId) := by
  refine Reads.look fun d => ?_
  split
  · exact Reads.lift _
  · split
    · exact Reads.lift _
    · exact Reads.pure _

theorem reads_resolveDecision (decisionId organizationId : Uuid) :
    Reads (ExecutionReceiptService.resolveDecision decisionId organizationId) := by
  refine Reads.handle (reads_getDecisionForOrganization _ _ _) fun e => ?_
  split
  · exact Reads.lift _
  · exact Reads.raise _

theorem reads_resolveCapabilityLinkage (binding : BindingRow) (req : ReceiptRequest) :
    Reads (resolveCapabilityLinkage binding req) := by
  unfold resolveCapabilityLinkage
  split
  · split
    · exact Reads.lift _
    · exact Reads.pure _
  · refine Reads.look fun d => ?_
    split
    · exact Reads.lift _
    · split
      · exact Reads.lift _
      · split
        · exact Reads.lift _
        · exact Reads.pure _

theorem reads_checkDestinationConsistency (operation : OperationScope) (destination : String) :
    Reads (checkDestinationConsistency operation destination) := by
  refine Reads.look fun d => ?_
  split
  · exact Reads.pure _
  · split
    · exact Reads.lift _
    · exact Reads.pure _

theorem reads_linkReceipt (identity : IntegrationIdentity) (req : ReceiptRequest) :
    Reads (linkReceipt identity req) := by
  unfold linkReceipt
  refine Reads.guard ?_
  refine Reads.bind (reads_checkOrganization _) fun _ => ?_
  refine Reads.bind (reads_resolveOwnedBinding _ _ _) fun binding => ?_
  refine Reads.bind (reads_resolveDecision _ _) fun row => ?_
  refine Reads.bind (reads_getIntent _) fun intent => ?_
  refine Reads.bind (Reads.lift _) fun p => ?_
  exact Reads.bind (reads_resolveCapabilityLinkage _ _) fun _ => Reads.pure _

end ExecutionReceiptService

namespace ExecutionReconciliationService

theorem reads_decisionIsAuthorized (decision : Decision) : Reads (decisionIsAuthorized decision) := by
  unfold decisionIsAuthorized
  split
  · exact Reads.pure _
  · exact Reads.pure _
  · exact Reads.look fun d => Reads.pure _

theorem reads_findingFor (decisionId : Uuid) (p : IntegrationProvenance) :
    Reads (findingFor decisionId p) := by
  refine Reads.look fun d => Reads.look fun d' => ?_
  dsimp only
  split
  · exact Reads.pure _
  · exact Reads.look fun d'' => Reads.pure _

theorem reads_resolveDecision (decisionId organizationId : Uuid) :
    Reads (ExecutionReconciliationService.resolveDecision decisionId organizationId) := by
  refine Reads.handle (reads_getDecisionForOrganization _ _ _) fun e => ?_
  split
  · exact Reads.lift _
  · exact Reads.raise _

end ExecutionReconciliationService

/-! ## What is known of the rows that were read -/

namespace Enforcement

variable {d : Enforcement} {id : Uuid}

theorem bindingIds_nodup (h : d.admitted = true) : (d.bindings.map fun b => b.id).Nodup :=
  (of_decide_eq_true h).2.1

theorem capabilityIds_nodup (h : d.admitted = true) : (d.capabilities.map fun c => c.id).Nodup :=
  (of_decide_eq_true h).2.2.2.2.2.1

theorem outcomeIs_iff {outcome : Outcome} :
    d.outcomeIs id outcome = true ↔ ∃ r, d.decision id = some r ∧ r.outcome = outcome := by
  unfold outcomeIs
  cases d.decision id <;> simp

theorem approved_iff :
    d.approved id = true ↔ ∃ r, d.resolutionOf id = some r ∧ r.resolution = .approved := by
  unfold approved
  cases d.resolutionOf id <;> simp

end Enforcement

section

variable {H : CapabilityHost} {others : Bool} {seen : List Enforcement}

theorem vetted_getDecision (id : Uuid) :
    Vetted (enforcementSchema H others) (getDecision id)
      (fun r seen' => seen ⊆ seen' ∧ Saw (fun d => d.decision id = some r) seen') seen := by
  refine vetted_look fun d _ => ?_
  split
  · exact trivial
  · next r hr => exact ⟨List.subset_cons_self d seen, Saw.head hr⟩

theorem vetted_getIntent (id : Uuid) :
    Vetted (enforcementSchema H others) (getIntent id)
      (fun r seen' => seen ⊆ seen' ∧ r.id = id ∧ Saw (fun d => d.intent id = some r) seen') seen := by
  refine vetted_look fun d _ => ?_
  split
  · exact trivial
  · next r hr => exact ⟨List.subset_cons_self d seen,
      @Rows.key_of_get IntentRow Uuid _ (fun i => i.id) d.intents id r hr, Saw.head hr⟩

theorem vetted_getDecisionForOrganization (decisionId : Uuid) (organizationId : Option Uuid)
    (error : PyError) :
    Vetted (enforcementSchema H others) (getDecisionForOrganization decisionId organizationId error)
      (fun r seen' => seen ⊆ seen' ∧ Saw (fun d => d.decision decisionId = some r.1) seen') seen := by
  refine checked_seq (vetted_getDecision decisionId) fun decision seen₁ ⟨hs₁, hdecision⟩ => ?_
  refine checked_seq ((reads_getIntent _).vetted (List.Subset.refl seen₁)) fun intent seen₂ hs₂ => ?_
  refine checked_seq ((reads_resolveChainScope _).vetted hs₂) fun owner seen₃ hs₃ => ?_
  split
  · exact trivial
  · exact ⟨List.Subset.trans hs₁ hs₃, hdecision.mono hs₃⟩

theorem vetted_require {active : Enforcement → Bool} {error : PyError} :
    Vetted (enforcementSchema H others) (require active error)
      (fun _ seen' => seen ⊆ seen' ∧ Saw (fun d => active d = true) seen') seen := by
  refine vetted_look fun d _ => ?_
  split
  · exact trivial
  · next h => exact ⟨List.subset_cons_self d seen, Saw.head (by simpa using h)⟩

theorem vetted_checkIntegrationIdentityActive (id : Option Uuid) :
    Vetted (enforcementSchema H others) (checkIntegrationIdentityActive id)
      (fun _ seen' => seen ⊆ seen' ∧ (seen ≠ [] → Saw (fun d => id.all d.identityActive = true) seen'))
      seen := by
  cases id with
  | none =>
    refine ⟨List.Subset.refl seen, fun h => ?_⟩
    obtain ⟨d, hd⟩ := List.exists_mem_of_ne_nil seen h
    exact ⟨d, hd, rfl⟩
  | some id => exact checked_mono vetted_require (fun _ _ h => ⟨h.1, fun _ => h.2⟩) fun _ _ h => h

theorem vetted_checkEnforcementBindingActive (id : Option Uuid) :
    Vetted (enforcementSchema H others) (checkEnforcementBindingActive id)
      (fun _ seen' => seen ⊆ seen' ∧ (seen ≠ [] → Saw (fun d => id.all d.bindingActive = true) seen'))
      seen := by
  cases id with
  | none =>
    refine ⟨List.Subset.refl seen, fun h => ?_⟩
    obtain ⟨d, hd⟩ := List.exists_mem_of_ne_nil seen h
    exact ⟨d, hd, rfl⟩
  | some id => exact checked_mono vetted_require (fun _ _ h => ⟨h.1, fun _ => h.2⟩) fun _ _ h => h

/-- The event that is added, of the kind that was asked for. -/
theorem vetted_appendGenericEvidenceEvent (organizationId : Option Uuid) (decisionId : Uuid)
    (eventType : Option String) (details : Json) :
    Vetted (enforcementSchema H others)
      (appendGenericEvidenceEvent organizationId decisionId eventType details)
      (fun e seen' => seen ⊆ seen' ∧
        ∃ new : Drawn, e = ⟨new.id, organizationId, decisionId, eventType, details, new.now⟩)
      seen :=
  vetted_look fun d _ => vetted_draw fun new => ⟨List.subset_cons_self d seen, new, rfl⟩

/-! ### Reviews -/

theorem vetted_commitResolution {row : ResolutionRow} {event : EvidenceEvent}
    (h : (enforcementSchema H others).supported (.resolve row event) seen) :
    Vetted (enforcementSchema H others) (ResolutionService.commitResolution row event)
      (fun _ _ => True) seen := by
  refine checked_tryCatch (checked_commit h trivial ?_ ?_)
  · exact trivial
  · exact trivial

theorem vetted_resolveDecision (decisionId : Uuid) (organizationId : Option Uuid)
    (resolution : Resolution) (resolvedBy : String) :
    Vetted (enforcementSchema H others)
      (ResolutionService.resolveDecision decisionId organizationId resolution resolvedBy)
      (fun _ _ => True) [] := by
  refine checked_seq (vetted_getDecisionForOrganization decisionId organizationId _) ?_
  rintro ⟨decision, intent⟩ seen ⟨-, hdecision⟩
  dsimp only
  split
  · exact trivial
  · next houtcome =>
    refine vetted_look fun d _ => ?_
    split
    · exact trivial
    · refine checked_seq (vetted_appendGenericEvidenceEvent _ _ _ _) ?_
      rintro event seen' ⟨hs, new', rfl⟩
      refine vetted_draw fun new => ?_
      refine checked_seq (vetted_commitResolution ?_) fun _ _ _ => vetted_look fun _ _ => trivial
      obtain ⟨d', hd', hr⟩ := hdecision
      have hmem : d' ∈ seen' := hs (List.mem_cons_of_mem d hd')
      refine supported_of rfl ⟨⟨d', hmem, ?_⟩, ⟨d', hmem, ?_⟩⟩
      · exact Enforcement.outcomeIs_iff.2 ⟨decision, hr, not_not.1 houtcome⟩
      · exact decide_eq_true ⟨rfl, rfl⟩

/-! ### Capabilities -/

theorem vetted_commitCapability {row : CapabilityRow} {reviewed : Bool}
    (h : (enforcementSchema H others).supported (.issue row reviewed) seen) :
    Vetted (enforcementSchema H others) (commitCapability row reviewed) (fun _ _ => True) seen := by
  refine checked_tryCatch (checked_commit h trivial ?_ ?_)
  · refine vetted_rollback (checked_seq
      ((reads_rejectExistingCapability row.decisionId).vetted (List.Subset.refl [])) ?_)
    exact fun _ _ _ => trivial
  · exact trivial

theorem vetted_issueAndPersist {organizationId : Uuid} {decision : Decision} {intent : IntentRow}
    {audience : String} {ttl : Timestamp} {reviewed : Bool}
    (houtcome : Saw (fun d => d.outcomeIs decision.id (if reviewed then .humanReview else .allow) = true)
      seen)
    (hreview : Saw (fun d => (!reviewed || d.approved decision.id) = true) seen) :
    Vetted (enforcementSchema H others)
      (issueAndPersist H organizationId decision intent audience ttl reviewed) (fun _ _ => True)
      seen := by
  refine checked_seq ((reads_rejectExistingCapability _).vetted (List.Subset.refl seen)) ?_
  intro _ seen₁ hs₁
  refine checked_seq vetted_require fun _ seen₂ ⟨hs₂, horganization⟩ => ?_
  refine checked_seq ((reads_checkAgentActive _).vetted (List.Subset.refl seen₂)) ?_
  intro _ seen₃ hs₃
  refine checked_seq ((reads_checkIntegrationIdentityActive _).vetted hs₃) fun _ seen₄ hs₄ => ?_
  refine checked_seq ((reads_checkEnforcementBindingActive _).vetted hs₄) fun _ seen₅ hs₅ => ?_
  refine vetted_look fun d _ => vetted_draw fun new => ?_
  have hs : seen ⊆ d :: seen₅ := fun x hx => List.mem_cons_of_mem d (hs₅ (hs₂ (hs₁ hx)))
  refine checked_seq (vetted_commitCapability ?_) fun _ _ _ => vetted_look fun _ _ => trivial
  exact supported_of rfl ⟨horganization.mono fun x hx => List.mem_cons_of_mem d (hs₅ hx),
    houtcome.mono hs, hreview.mono hs⟩

theorem vetted_issueCapabilityForDecision (organizationId decisionId : Uuid) (audience : String)
    (ttl : Timestamp) :
    Vetted (enforcementSchema H others)
      (issueCapabilityForDecision H organizationId decisionId audience ttl) (fun _ _ => True) [] := by
  refine checked_seq (vetted_getDecisionForOrganization decisionId _ _) ?_
  rintro ⟨decision, _⟩ seen ⟨-, hdecision⟩
  dsimp only
  split
  · exact trivial
  · next houtcome =>
    refine checked_seq ((reads_getIntent _).vetted (List.Subset.refl seen)) fun intent seen' hs => ?_
    obtain ⟨d, hd, hr⟩ := hdecision
    have hid : decision.id = decisionId := Rows.key_of_get hr
    refine vetted_issueAndPersist ⟨d, hs hd, ?_⟩ ⟨d, hs hd, rfl⟩
    rw [hid]
    exact Enforcement.outcomeIs_iff.2 ⟨decision, hr, not_not.1 houtcome⟩

theorem vetted_issueCapabilityForReviewedDecision (organizationId decisionId : Uuid)
    (audience : String) (ttl : Timestamp) :
    Vetted (enforcementSchema H others)
      (issueCapabilityForReviewedDecision H organizationId decisionId audience ttl)
      (fun _ _ => True) [] := by
  refine checked_seq (vetted_getDecisionForOrganization decisionId _ _) ?_
  rintro ⟨decision, _⟩ seen ⟨-, hdecision⟩
  dsimp only
  split
  · exact trivial
  · next houtcome =>
    refine vetted_look fun d' _ => ?_
    split
    · exact trivial
    · next review hreview =>
      split
      · exact trivial
      · next hresolution =>
        refine checked_seq ((reads_getIntent _).vetted (List.Subset.refl _)) fun intent seen' hs => ?_
        obtain ⟨d, hd, hr⟩ := hdecision
        have hid : decision.id = decisionId := Rows.key_of_get hr
        refine vetted_issueAndPersist ⟨d, hs (List.mem_cons_of_mem d' hd), ?_⟩
          ⟨d', hs List.mem_cons_self, ?_⟩
        · rw [hid]
          exact Enforcement.outcomeIs_iff.2 ⟨decision, hr, not_not.1 houtcome⟩
        · rw [hid]
          exact Enforcement.approved_iff.2 ⟨review, hreview, not_not.1 hresolution⟩

/-- What a consumption has read of the rows that its capability depends on. -/
theorem vetted_checkConsumptionFreshness (row : CapabilityRow) :
    Vetted (enforcementSchema H others) (checkConsumptionFreshness row)
      (fun p seen' => seen ⊆ seen' ∧
        (p.organizationId = row.organizationId ∧ p.decisionId = row.decisionId ∧
          p.integrationIdentityId = row.integrationIdentityId ∧
          p.enforcementBindingId = row.enforcementBindingId) ∧
        Saw (fun d => ((d.decision p.decisionId).any fun d => d.intentId = p.intentId) = true) seen' ∧
        Saw (fun d => ((d.intent p.intentId).any fun i => i.agentId = p.agentId) = true) seen' ∧
        Saw (fun d => d.organizationActive p.organizationId = true) seen' ∧
        Saw (fun d => d.agentActive p.agentId = true) seen' ∧
        Saw (fun d => p.integrationIdentityId.all d.identityActive = true) seen' ∧
        Saw (fun d => p.enforcementBindingId.all d.bindingActive = true) seen') seen := by
  refine vetted_look fun d _ => ?_
  split
  · exact trivial
  · next decision hdecision =>
    refine checked_seq (vetted_getIntent _) fun intent seen₁ ⟨hs₁, _, hintent⟩ => ?_
    refine checked_seq vetted_require fun _ seen₂ ⟨hs₂, horganization⟩ => ?_
    refine checked_seq vetted_require fun _ seen₃ ⟨hs₃, hagent⟩ => ?_
    have hne₃ : seen₃ ≠ [] := List.ne_nil_of_mem hagent.choose_spec.1
    refine checked_seq (vetted_checkIntegrationIdentityActive _) fun _ seen₄ ⟨hs₄, hidentity⟩ => ?_
    have hne₄ : seen₄ ≠ [] := List.ne_nil_of_mem (hidentity hne₃).choose_spec.1
    refine checked_seq (vetted_checkEnforcementBindingActive _) fun _ seen₅ ⟨hs₅, hbinding⟩ => ?_
    have hs₁₅ : seen₁ ⊆ seen₅ := List.Subset.trans hs₂ (List.Subset.trans hs₃ (List.Subset.trans hs₄ hs₅))
    have hs₂₅ : seen₂ ⊆ seen₅ := List.Subset.trans hs₃ (List.Subset.trans hs₄ hs₅)
    refine ⟨fun x hx => hs₁₅ (hs₁ (List.mem_cons_of_mem d hx)), ⟨rfl, rfl, rfl, rfl⟩, ?_, ?_,
      horganization.mono hs₂₅, hagent.mono (List.Subset.trans hs₄ hs₅), (hidentity hne₃).mono hs₅,
      hbinding hne₄⟩
    · exact ⟨d, hs₁₅ (hs₁ List.mem_cons_self), by simp [hdecision]⟩
    · obtain ⟨d', hd', hi⟩ := hintent
      exact ⟨d', hs₁₅ hd', by simp [hi]⟩

theorem vetted_findCapability (tokenHash : String) :
    Vetted (enforcementSchema H others) (findCapability tokenHash)
      (fun row seen' => Saw (fun d => d.capability row.id = some row) seen') seen := by
  refine vetted_look fun d hd => ?_
  split
  · exact trivial
  · next row hrow =>
    refine Saw.head ?_
    exact Rows.get_of_mem (Enforcement.capabilityIds_nodup hd) (List.mem_of_find?_eq_some hrow)

theorem vetted_verifyAndConsumeCapability (token : String) (e : Presentation) :
    Vetted (enforcementSchema H others) (verifyAndConsumeCapability H token e)
      (fun _ _ => True) [] := by
  refine checked_seq (vetted_findCapability _) fun row seen hrow => ?_
  refine vetted_look fun d _ => vetted_lift fun publicKey => vetted_draw fun new => ?_
  refine vetted_lift fun payload => ?_
  refine checked_seq (vetted_checkConsumptionFreshness row) ?_
  rintro p seen' ⟨hs, ⟨horganization, hdecision, hidentity, hbinding⟩, hrest⟩
  refine vetted_draw fun new' => ?_
  refine vetted_commitIf (supported_of rfl ⟨?_, hrest⟩) fun b => vetted_look fun _ _ => ?_
  · obtain ⟨d', hd', hr⟩ := hrow
    refine ⟨d', hs (List.mem_cons_of_mem d hd'), ?_⟩
    simp [hr, horganization, hdecision, hidentity, hbinding]
  · dsimp only
    split
    · exact trivial
    · exact trivial

/-! ### Receipts -/

namespace ExecutionReceiptService

theorem vetted_checkOrganization (id : Uuid) :
    Vetted (enforcementSchema H others) (checkOrganization id)
      (fun _ seen' => seen ⊆ seen' ∧ Saw (fun d => d.organizationNotInactive id = true) seen')
      seen := by
  refine vetted_look fun d _ => ?_
  have hs : seen ⊆ d :: seen := List.subset_cons_self d seen
  split
  · next ho => exact ⟨hs, Saw.head (by simp [Enforcement.organizationNotInactive, ho])⟩
  · next o ho =>
    split
    · next hactive =>
      exact ⟨hs, Saw.head (by simp [Enforcement.organizationNotInactive, ho, hactive])⟩
    · exact trivial

theorem vetted_resolveOwnedBinding (bindingId organizationId identityId : Uuid) :
    Vetted (enforcementSchema H others) (resolveOwnedBinding bindingId organizationId identityId)
      (fun b seen' => seen ⊆ seen' ∧ Saw (fun d => d.binding bindingId = some b) seen') seen := by
  refine vetted_look fun d hd => ?_
  split
  · exact trivial
  · next b hb =>
    split
    · exact trivial
    · refine ⟨List.subset_cons_self d seen, Saw.head ?_⟩
      refine @Rows.get_of_find BindingRow Uuid _ (fun b => b.id) d.bindings bindingId b
        (Enforcement.bindingIds_nodup hd) _ (fun r hr => ?_) hb
      exact (of_decide_eq_true hr).1

theorem vetted_resolveDecision (decisionId organizationId : Uuid) :
    Vetted (enforcementSchema H others)
      (ExecutionReceiptService.resolveDecision decisionId organizationId)
      (fun r seen' => seen ⊆ seen' ∧ Saw (fun d => d.decision decisionId = some r.1) seen') seen := by
  refine checked_tryCatch (checked_mono (vetted_getDecisionForOrganization decisionId _ _)
    (fun _ _ h => h) fun e seen' _ => ?_)
  split
  · exact trivial
  · exact trivial

/-- What the linkage to an intent says. -/
structure Linkage (identityId : Uuid) (req : ReceiptRequest) (intent : IntentRow)
    (p : IntegrationProvenance) : Prop where
  provenance : intent.provenance = some p
  identity : p.integrationIdentityId = identityId
  binding : p.enforcementBindingId = req.enforcementBindingId
  action : p.canonicalActionDigest = req.canonicalActionDigest
  operation : p.externalOperationId = req.externalOperationId

theorem checkIntentLinkage_ok {identityId : Uuid} {req : ReceiptRequest} {intent : IntentRow}
    {p : IntegrationProvenance} (h : checkIntentLinkage identityId req intent = .ok p) :
    Linkage identityId req intent p := by
  unfold checkIntentLinkage at h
  split at h
  · cases h
  · next p' hp =>
    split at h
    · cases h
    · next hidentity =>
      split at h
      · cases h
      · next hbinding =>
        split at h
        · cases h
        · next haction =>
          split at h
          · cases h
          · next hoperation =>
            cases h
            exact ⟨hp, not_not.1 hidentity, not_not.1 hbinding, not_not.1 haction,
              not_not.1 hoperation⟩

/-- The capability that a receipt names, or the label of a binding that asks for none. -/
theorem vetted_resolveCapabilityLinkage {binding : BindingRow} {req : ReceiptRequest}
    (hb : Saw (fun d => d.binding req.enforcementBindingId = some binding) seen) :
    Vetted (enforcementSchema H others) (resolveCapabilityLinkage binding req)
      (fun _ seen' => seen ⊆ seen' ∧
        Saw (fun d => (req.capabilityId.isSome || d.capabilityOptional req.enforcementBindingId) = true)
          seen' ∧
        Saw (fun d => (req.capabilityId.all fun c =>
          d.consumedFor c req.decisionId req.enforcementBindingId) = true) seen') seen := by
  unfold resolveCapabilityLinkage
  split
  · next hnone =>
    split
    · exact trivial
    · next hlabel =>
      obtain ⟨d, hd, hr⟩ := hb
      refine ⟨List.Subset.refl seen, ⟨d, hd, ?_⟩, ⟨d, hd, ?_⟩⟩
      · simp [hnone, Enforcement.capabilityOptional, hr, hlabel]
      · simp [hnone]
  · next id hid =>
    refine vetted_look fun d _ => ?_
    split
    · exact trivial
    · next c hc =>
      split
      · exact trivial
      · next hbinding =>
        split
        · exact trivial
        · next hconsumed =>
          obtain ⟨hget, hdecision⟩ := Option.filter_eq_some_iff.1 hc
          refine ⟨List.subset_cons_self d seen, Saw.head (by simp [hid]), Saw.head ?_⟩
          rw [hid]
          show (d.consumedFor id req.decisionId req.enforcementBindingId) = true
          unfold Enforcement.consumedFor
          rw [hget]
          simp only [decide_eq_true_eq] at hdecision
          simp [hdecision, not_not.1 hbinding]
          cases hat : c.consumedAt with
          | none => exact absurd (by simp [hat]) hconsumed
          | some t => rfl

/-- What the acceptance of a receipt has read. -/
def Linked (identity : IntegrationIdentity) (req : ReceiptRequest) (intent : IntentRow)
    (seen : List Enforcement) : Prop :=
  Saw (fun d => d.organizationNotInactive identity.organizationId = true) seen ∧
  Saw (fun d => ((d.decision req.decisionId).any fun d => d.intentId = intent.id) = true) seen ∧
  Saw (fun d => d.intent intent.id = some intent) seen ∧
  Saw (fun d => (req.capabilityId.isSome || d.capabilityOptional req.enforcementBindingId) = true)
    seen ∧
  Saw (fun d => (req.capabilityId.all fun c =>
    d.consumedFor c req.decisionId req.enforcementBindingId) = true) seen

theorem Linked.mono {identity : IntegrationIdentity} {req : ReceiptRequest} {intent : IntentRow}
    {seen' : List Enforcement} (h : Linked identity req intent seen) (hs : seen ⊆ seen') :
    Linked identity req intent seen' :=
  ⟨h.1.mono hs, h.2.1.mono hs, h.2.2.1.mono hs, h.2.2.2.1.mono hs, h.2.2.2.2.mono hs⟩

theorem vetted_linkReceipt (identity : IntegrationIdentity) (req : ReceiptRequest) :
    Vetted (enforcementSchema H others) (linkReceipt identity req)
      (fun x seen' => Linkage identity.id req x.1 x.2 ∧ Linked identity req x.1 seen') seen := by
  unfold linkReceipt
  refine vetted_guard ?_
  refine checked_seq (vetted_checkOrganization _) fun _ seen₁ ⟨hs₁, horganization⟩ => ?_
  refine checked_seq (vetted_resolveOwnedBinding _ _ _) fun binding seen₂ ⟨hs₂, hbinding⟩ => ?_
  refine checked_seq (vetted_resolveDecision _ _) ?_
  rintro ⟨decision, _⟩ seen₃ ⟨hs₃, hdecision⟩
  refine checked_seq (vetted_getIntent _) fun intent seen₄ ⟨hs₄, hid, hintent⟩ => ?_
  refine vetted_lift_ok fun p hp => ?_
  have hs₂₄ : seen₂ ⊆ seen₄ := List.Subset.trans hs₃ hs₄
  refine checked_seq (vetted_resolveCapabilityLinkage (hbinding.mono hs₂₄)) ?_
  rintro _ seen₅ ⟨hs₅, hlabel, hcapability⟩
  refine ⟨checkIntentLinkage_ok hp, ?_, ?_, ?_, hlabel, hcapability⟩
  · exact horganization.mono (List.Subset.trans hs₂ (List.Subset.trans hs₂₄ hs₅))
  · obtain ⟨d, hd, hr⟩ := hdecision
    refine ⟨d, hs₅ (hs₄ hd), ?_⟩
    dsimp only at hr ⊢
    simp [hr, hid]
  · rw [hid]
    exact hintent.mono hs₅

/-- What a receipt is built of. -/
structure Built (identity : IntegrationIdentity) (req : ReceiptRequest) (p : IntegrationProvenance)
    (row : ReceiptRow) : Prop where
  organizationId : row.organizationId = identity.organizationId
  integrationIdentityId : row.integrationIdentityId = identity.id
  enforcementBindingId : row.enforcementBindingId = req.enforcementBindingId
  decisionId : row.decisionId = req.decisionId
  capabilityId : row.capabilityId = req.capabilityId
  canonicalActionDigest : row.canonicalActionDigest = req.canonicalActionDigest
  destination : row.destination = req.destination
  operation : row.operation = (p.integrationId, p.environment, req.externalOperationId)
  status : ReceiptStatus.ofText req.status = some row.status

theorem buildExecutionReceipt_ok {identity : IntegrationIdentity} {req : ReceiptRequest}
    {p : IntegrationProvenance} {new : Drawn} {row : ReceiptRow}
    (h : buildExecutionReceipt H identity req p new = .ok row) :
    Built identity req p row ∧ row.receiptDigest = row.digest H := by
  unfold buildExecutionReceipt at h
  split at h
  · cases h
  · cases h
  · next status hstatus _ =>
    cases h
    exact ⟨⟨rfl, rfl, rfl, rfl, rfl, rfl, rfl, rfl, hstatus⟩, rfl⟩

theorem vetted_commitReceipt {row : ReceiptRow} {intentId : Uuid} {event : EvidenceEvent}
    (h : (enforcementSchema H others).supported (.accept row intentId event) seen) :
    Vetted (enforcementSchema H others) (commitReceipt row intentId event) (fun _ _ => True) seen := by
  refine checked_tryCatch (checked_bind (checked_commit h trivial ?_ ?_))
  · refine vetted_rollback (vetted_look fun d _ => ?_)
    split
    · exact trivial
    · exact vetted_lift fun _ => trivial
  · exact trivial

theorem vetted_recordReceipt {row : ReceiptRow} {intentId : Uuid}
    (h : ∀ event, event.isTyped "EXECUTION_RECEIPT_ACCEPTED" row.decisionId = true →
      (enforcementSchema H others).supported (.accept row intentId event) seen) :
    Vetted (enforcementSchema H others) (recordReceipt H row intentId) (fun _ _ => True) seen := by
  refine vetted_look fun d _ => ?_
  split
  · exact checked_lift (fun _ _ => trivial) fun _ _ => trivial
  · refine checked_seq (vetted_appendGenericEvidenceEvent _ _ _ _) ?_
    rintro event seen' ⟨hs, new, rfl⟩
    refine checked_seq (vetted_commitReceipt fun c hc => ?_) fun saved _ _ => ?_
    · refine Saw.mono (h _ (decide_eq_true ⟨rfl, rfl⟩) c hc) fun x hx => ?_
      exact hs (List.mem_cons_of_mem d hx)
    · cases saved with
      | none => exact vetted_look fun _ _ => trivial
      | some existing => exact trivial

/-- The destination that was on record, if there was one. -/
theorem vetted_checkDestinationConsistency (operation : OperationScope) (destination : String) :
    Vetted (enforcementSchema H others) (checkDestinationConsistency operation destination)
      (fun _ seen' => seen ⊆ seen' ∧
        Saw (fun d => ((d.destinationOf operation).all fun x => x = destination) = true) seen') seen := by
  refine vetted_look fun d _ => ?_
  have hs : seen ⊆ d :: seen := List.subset_cons_self d seen
  split
  · next hnone => exact ⟨hs, Saw.head (by simp [Enforcement.destinationOf, hnone])⟩
  · next prior hprior =>
    split
    · exact trivial
    · next hsame => exact ⟨hs, Saw.head (by simp [Enforcement.destinationOf, hprior, not_not.1 hsame])⟩

theorem vetted_submitExecutionReceipt (identity : IntegrationIdentity) (req : ReceiptRequest) :
    Vetted (enforcementSchema H others) (submitExecutionReceipt H identity req)
      (fun _ _ => True) [] := by
  refine checked_seq (vetted_linkReceipt identity req) ?_
  rintro ⟨intent, p⟩ seen ⟨hlinkage, hlinked⟩
  dsimp only at hlinkage hlinked ⊢
  refine checked_seq (vetted_checkDestinationConsistency _ _) ?_
  rintro _ seen' ⟨hs, hdestination⟩
  refine vetted_draw fun new => vetted_lift_ok fun row hrow => vetted_recordReceipt fun event hevent => ?_
  obtain ⟨hbuilt, hdigest⟩ := buildExecutionReceipt_ok hrow
  obtain ⟨horganization, hdecision, hintent, hlabel, hcapability⟩ := hlinked.mono hs
  have hreports : row.reports intent = true := by
    unfold ReceiptRow.reports
    rw [hlinkage.provenance, hbuilt.integrationIdentityId, hbuilt.enforcementBindingId,
      hbuilt.canonicalActionDigest, hbuilt.operation]
    simp [hlinkage.identity, hlinkage.binding, hlinkage.action, hlinkage.operation]
  refine supported_of rfl ⟨?_, ?_, ?_, ?_, ?_, ?_, ?_, ?_⟩
  · rw [hbuilt.organizationId]
    exact horganization
  · rw [hbuilt.decisionId]
    exact hdecision
  · obtain ⟨d, hd, hi⟩ := hintent
    exact ⟨d, hd, by simp [hi, hreports]⟩
  · rw [hbuilt.capabilityId, hbuilt.enforcementBindingId]
    exact hlabel
  · rw [hbuilt.capabilityId, hbuilt.decisionId, hbuilt.enforcementBindingId]
    exact hcapability
  · obtain ⟨d, hd, -⟩ := hintent
    exact ⟨d, hd, decide_eq_true hdigest⟩
  · obtain ⟨d, hd, -⟩ := hintent
    exact ⟨d, hd, hevent⟩
  · rw [hbuilt.operation, hbuilt.destination]
    exact hdestination

end ExecutionReceiptService

/-! ### Reconciliations -/

namespace ExecutionReconciliationService

theorem all_ne_of_filter_eq_none {o : Option ResultRow} {digest : String}
    (h : (o.filter fun r => r.resultDigest = digest) = none) :
    (o.all fun r => r.resultDigest ≠ digest) = true := by
  cases o with
  | none => rfl
  | some r =>
    rw [Option.filter_some] at h
    split at h
    · cases h
    · next hne => simpa using hne

theorem vetted_persistResult (organizationId decisionId : Uuid) (f : Finding)
    (canonicalActionDigest : Option String) :
    Vetted (enforcementSchema H others)
      (persistResult H organizationId decisionId f canonicalActionDigest) (fun _ _ => True) seen := by
  refine vetted_draw fun new => vetted_look fun d _ => ?_
  split
  · exact trivial
  · next hlatest =>
    refine checked_seq (vetted_appendGenericEvidenceEvent _ _ _ _) ?_
    rintro event seen' ⟨hs, new', rfl⟩
    refine vetted_commit ?_ (vetted_look fun _ _ => trivial)
    have hmem : d ∈ seen' := hs List.mem_cons_self
    refine supported_of rfl ⟨⟨d, hmem, decide_eq_true rfl⟩, ⟨d, hmem, ?_⟩, ⟨d, hmem, ?_⟩⟩
    · exact all_ne_of_filter_eq_none hlatest
    · exact decide_eq_true ⟨rfl, rfl⟩

theorem vetted_reconcileDecision (organizationId decisionId : Uuid) :
    Vetted (enforcementSchema H others) (reconcileDecision H organizationId decisionId)
      (fun _ _ => True) [] := by
  refine checked_seq ((reads_resolveDecision _ _).vetted (List.Subset.refl [])) ?_
  rintro ⟨decision, _⟩ seen _
  refine checked_seq ((reads_decisionIsAuthorized _).vetted (List.Subset.refl seen)) ?_
  intro authorized seen' _
  refine vetted_guard ?_
  refine checked_seq ((reads_getIntent _).vetted (List.Subset.refl seen')) fun intent _ _ => ?_
  split
  · exact trivial
  · refine checked_seq ((reads_findingFor _ _).vetted (List.Subset.refl _)) fun f _ _ => ?_
    exact vetted_persistResult _ _ _ _

end ExecutionReconciliationService

theorem vetted_setAssurance (bindingId organizationId : Uuid)
    (assurance : EnforcementAssurance) :
    Vetted (enforcementSchema H others)
      (EnforcementBindingLabels.setEnforcementAssurance bindingId organizationId assurance)
      (fun _ _ => True) [] := by
  refine vetted_look fun d _ => ?_
  split
  · exact trivial
  · exact vetted_commit_refresh (supported_none rfl)

end

/-! ## Every service -/

theorem enforcement_vetted (H : CapabilityHost) (r : EnforcementRequest) :
    r.operation H fun p _ => Vetted (enforcementSchema H true) p (fun _ _ => True) [] := by
  cases r with
  | issue organizationId decisionId audience ttl =>
    exact vetted_issueCapabilityForDecision organizationId decisionId audience ttl
  | issueReviewed organizationId decisionId audience ttl =>
    exact vetted_issueCapabilityForReviewedDecision organizationId decisionId audience ttl
  | resolve decisionId organizationId resolution resolvedBy =>
    exact vetted_resolveDecision decisionId organizationId resolution resolvedBy
  | consume token e => exact vetted_verifyAndConsumeCapability token e
  | submitReceipt identity req =>
    exact ExecutionReceiptService.vetted_submitExecutionReceipt identity req
  | reconcile organizationId decisionId =>
    exact ExecutionReconciliationService.vetted_reconcileDecision organizationId decisionId
  | setAssurance bindingId organizationId assurance =>
    exact vetted_setAssurance bindingId organizationId assurance
  | submit intents decisions evidence =>
    exact vetted_look fun d _ => checked_commit (supported_one rfl List.mem_cons_self rfl) trivial
      trivial trivial
  | elsewhere organizations principals agents identities bindings =>
    exact vetted_look fun d _ => checked_commit (supported_one rfl List.mem_cons_self rfl) trivial
      trivial trivial

/-- **Every request commits only what it has checked.** -/
theorem enforcement_checks (H : CapabilityHost) :
    ∀ p ∈ enforcementRequests H, Checks (enforcementSchema H true) p := by
  rintro _ ⟨r, rfl⟩
  have hvetted := enforcement_vetted H r
  cases r <;> exact checks_session hvetted

/-- So does every request whose end is reported. -/
theorem enforcement_checks_reporting (H : CapabilityHost) :
    ∀ p ∈ Prog.erased '' {p | ∃ r : EnforcementRequest, p = r.reporting H},
      Checks (enforcementSchema H true) p := by
  rintro _ ⟨_, ⟨r, rfl⟩, rfl⟩
  have hvetted := enforcement_vetted H r
  cases r <;> exact checks_reported hvetted

end PayReality
