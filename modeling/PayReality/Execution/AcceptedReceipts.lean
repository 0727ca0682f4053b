import PayReality.Execution.Reviews
import PayReality.Lib.WriteOnce

/-!
# A receipt that is submitted alone

`submit_execution_receipt` compares a receipt with the intent of its decision (`Enforcement.Links`), and
with the receipts of its operation that there are. What is on record of an operation, its destination and
one digest for each status, is written once (`Enforcement.onRecord`).

**Main result** `alone_submitExecutionReceipt`: run alone, a call is accepted and what it claims is on
record, or a failure or what is on record is against it.
-/

namespace PayReality

open Program RecordProg IntentService ExecutionReceiptService

/-! ## What a receipt is linked to -/

/-- Run alone, a reading returns what has `P`, and without a failure it refuses only where nothing has. -/
def Enforcement.Finds {α : Type} (H : CapabilityHost) (d : Enforcement) (p : EnforcementService α)
    (P : α → Prop) : Prop :=
  Ends (enforcementSchema H true) Eq p
    (Ends.split (fun a ws d' => P a ∧ [] = ws ∧ d = d')
      fun e _ _ => e = .databaseError ∨ ∀ a, ¬ P a) [] d

/-- What links a receipt to the intent of its decision. It is no matter of other receipts. -/
structure Enforcement.Links (d : Enforcement) (identity : IntegrationIdentity) (req : ReceiptRequest)
    (x : IntentRow × IntegrationProvenance) : Prop where
  active : identity.status = .active
  organization : d.organizationNotInactive identity.organizationId = true
  binding : ∃ b, (d.bindings.find? fun b =>
      b.id = req.enforcementBindingId ∧ b.organizationId = identity.organizationId) = some b ∧
    b.integrationIdentityId = identity.id ∧
    (req.capabilityId = none → b.enforcementAssurance ≠ .capabilityRequired)
  decision : ∃ dec, d.Decided req.decisionId (dec, x.1) ∧
    d.ownerOf x.1.agentId = some identity.organizationId
  linkage : Linkage identity.id req x.1 x.2
  capability : ∀ id ∈ req.capabilityId,
    d.consumedFor id req.decisionId req.enforcementBindingId = true

section

variable {H : CapabilityHost} {d : Enforcement} {identity : IntegrationIdentity}
  {req : ReceiptRequest}

theorem finds_checkOrganization (id : Uuid) :
    d.Finds H (checkOrganization id) fun _ => d.organizationNotInactive id = true := by
  refine alone_look (fun _ => ?_) (.inl rfl)
  unfold Enforcement.organizationNotInactive
  split
  · next ho => exact ⟨by simp [ho], rfl, rfl⟩
  · next o ho =>
    split
    · next hactive => exact ⟨by simp [ho, hactive], rfl, rfl⟩
    · next hactive => exact .inr fun _ h => hactive (by simpa [ho] using h)

theorem finds_resolveOwnedBinding (bindingId organizationId identityId : Uuid) :
    d.Finds H (resolveOwnedBinding bindingId organizationId identityId) fun b =>
      (d.bindings.find? fun b => b.id = bindingId ∧ b.organizationId = organizationId) = some b ∧
        b.integrationIdentityId = identityId := by
  refine alone_look (fun _ => ?_) (.inl rfl)
  split
  · next hb =>
    refine .inr fun b h => ?_
    rw [hb] at h
    cases h.1
  · next b hb =>
    split
    · next hidentity =>
      refine .inr fun b' h => hidentity ?_
      obtain rfl := Option.some.inj (hb.symm.trans h.1)
      exact h.2
    · next hidentity => exact ⟨⟨hb, not_not.1 hidentity⟩, rfl, rfl⟩

theorem Enforcement.Decided.unique {decisionId : Uuid} {r r' : Decision × IntentRow}
    (h : d.Decided decisionId r) (h' : d.Decided decisionId r') : r = r' := by
  have hdecision := Option.some.inj (h.1.symm.trans h'.1)
  have hintent := h.2.symm.trans (hdecision ▸ h'.2)
  exact Prod.ext hdecision (Option.some.inj hintent)

theorem finds_getDecisionForOrganization (decisionId : Uuid) (organizationId : Option Uuid) :
    d.Finds H (getDecisionForOrganization decisionId organizationId) fun r =>
      d.Decided decisionId r ∧ d.ownerOf r.2.agentId = organizationId := by
  unfold getDecisionForOrganization getDecision getIntent
  refine ends_bind (alone_look (fun _ => ?_) (Or.inl rfl))
  split
  · next hdecision =>
    refine Or.inr fun r h => ?_
    rw [h.1.1] at hdecision
    cases hdecision
  next decision hdecision =>
  refine ends_bind (alone_look (fun _ => ?_) (Or.inl rfl))
  split
  · next hintent =>
    refine Or.inr fun r h => ?_
    obtain rfl := Option.some.inj (hdecision.symm.trans h.1.1)
    rw [h.1.2] at hintent
    cases hintent
  next intent hintent =>
  have hdecided : d.Decided decisionId (decision, intent) := ⟨hdecision, hintent⟩
  refine ends_bind (alone_ownerOf ?_ (Or.inl rfl))
  show Ends _ _ (if d.ownerOf intent.agentId ≠ organizationId then _ else _) _ _ _
  split
  · next howner =>
    refine Or.inr fun r h => howner ?_
    rw [h.1.unique hdecided] at h
    exact h.2
  · next howner => exact ⟨⟨hdecided, not_not.1 howner⟩, rfl, rfl⟩

theorem finds_resolveDecision (decisionId organizationId : Uuid) :
    d.Finds H (ExecutionReceiptService.resolveDecision decisionId organizationId) fun r =>
      d.Decided decisionId r ∧ d.ownerOf r.2.agentId = some organizationId := by
  refine ends_tryCatch (ends_mono (finds_getDecisionForOrganization decisionId _) fun x ws d' hx => ?_)
  cases x with
  | ok r => exact hx
  | error e =>
    show Ends _ _ (if e = .decisionNotFound ∨ e = .crossOrganizationAccess then _ else _) _ _ _
    split
    · next he =>
      refine Or.inr (hx.resolve_left ?_)
      rintro rfl
      rcases he with he | he <;> cases he
    · exact hx

theorem checkIntentLinkage_error_iff {identityId : Uuid} {intent : IntentRow} {e : PyError}
    (h : checkIntentLinkage identityId req intent = .error e) (p : IntegrationProvenance) :
    ¬ Linkage identityId req intent p := by
  intro hlinkage
  rw [checkIntentLinkage, hlinkage.provenance] at h
  simp [hlinkage.identity, hlinkage.binding, hlinkage.action, hlinkage.operation] at h

theorem finds_resolveCapabilityLinkage (binding : BindingRow) (req : ReceiptRequest) :
    d.Finds H (resolveCapabilityLinkage binding req) fun _ =>
      (req.capabilityId = none → binding.enforcementAssurance ≠ .capabilityRequired) ∧
      ∀ id ∈ req.capabilityId, d.consumedFor id req.decisionId req.enforcementBindingId = true := by
  unfold resolveCapabilityLinkage
  cases hreq : req.capabilityId with
  | none =>
    dsimp only
    split
    · next hlabel => exact Or.inr fun _ h => h.1 rfl hlabel
    · next hlabel => exact ⟨⟨fun _ => hlabel, fun id h => (by cases h)⟩, rfl, rfl⟩
  | some id =>
    refine alone_look (fun _ => ?_) (Or.inl rfl)
    have hno : (∀ c, d.capability id = some c → c.decisionId = req.decisionId →
        c.enforcementBindingId = some req.enforcementBindingId → ¬ c.consumedAt.isSome) →
        ∀ _ : Unit, ¬ ((some id = none → binding.enforcementAssurance ≠ .capabilityRequired) ∧
          ∀ id' ∈ some id, d.consumedFor id' req.decisionId req.enforcementBindingId = true) := by
      intro h _ hfound
      obtain ⟨c, hc, hdecision, hbinding, hconsumed⟩ :=
        Enforcement.consumedFor_iff.1 (hfound.2 id rfl)
      exact h c hc hdecision hbinding hconsumed
    split
    · next hnone =>
      refine Or.inr (hno fun c hc hdecision _ _ => ?_)
      simp [hc, hdecision] at hnone
    · next c hc =>
      obtain ⟨hget, hdecision⟩ := Option.filter_eq_some_iff.1 hc
      split
      · next hbinding =>
        refine Or.inr (hno fun c' hc' _ hbinding' _ => hbinding ?_)
        obtain rfl := Option.some.inj (hget.symm.trans hc')
        exact hbinding'
      · next hbinding =>
        split
        · next hconsumed =>
          refine Or.inr (hno fun c' hc' _ _ hconsumed' => ?_)
          obtain rfl := Option.some.inj (hget.symm.trans hc')
          simp_all
        · next hconsumed =>
          refine ⟨⟨fun h => (by cases h), fun id' hid => ?_⟩, rfl, rfl⟩
          obtain rfl := Option.some.inj hid
          exact Enforcement.consumedFor_iff.2 ⟨c, hget, of_decide_eq_true hdecision, not_not.1 hbinding,
            by simpa [Option.isSome_iff_ne_none] using hconsumed⟩

end

section

variable {H : CapabilityHost} {d : Enforcement} {identity : IntegrationIdentity}
  {req : ReceiptRequest}

/-- A reading, and what follows it. -/
theorem Enforcement.Finds.seq {α β : Type} {p : EnforcementService α} {P : α → Prop}
    {f : α → EnforcementService β} {Q : Except PyError β → List EnforcementChange → Enforcement → Prop}
    (h : d.Finds H p P) (hf : ∀ a, P a → Ends (enforcementSchema H true) Eq (f a) Q [] d)
    (hdb : ∀ ws d', Q (.error .databaseError) ws d')
    (hno : (∀ a, ¬ P a) → ∀ e ws d', Q (.error e) ws d') :
    Ends (enforcementSchema H true) Eq (p >>= f) Q [] d := by
  refine ends_seq h ?_ ?_
  · intro a ws d' ha
    obtain ⟨ha, rfl, rfl⟩ := ha
    exact hf a ha
  · intro e ws d' he
    obtain rfl | he := he
    · exact hdb ws d'
    · exact hno he e ws d'

/-- **The checks of a receipt before it is compared with others.** -/
theorem finds_linkReceipt : d.Finds H (linkReceipt identity req) (d.Links identity req) := by
  unfold linkReceipt
  by_cases hactive : identity.status = .active
  swap
  · show Ends _ _ (if identity.status ≠ .active then _ else _) _ _ _
    rw [if_pos hactive]
    exact Or.inr fun x h => hactive h.active
  show Ends _ _ (if identity.status ≠ .active then _ else _) _ _ _
  rw [if_neg (not_not.2 hactive)]
  refine (finds_checkOrganization _).seq ?_ (fun _ _ => .inl rfl)
    fun hno _ _ _ => Or.inr fun x h => hno () h.organization
  intro _ horganization
  refine (finds_resolveOwnedBinding _ _ _).seq ?_ (fun _ _ => .inl rfl) fun hno _ _ _ => Or.inr fun x h => ?_
  swap
  · obtain ⟨b, hb, hidentity, -⟩ := h.binding
    exact hno b ⟨hb, hidentity⟩
  intro binding hbinding
  refine (finds_resolveDecision _ _).seq ?_ (fun _ _ => .inl rfl) fun hno _ _ _ => Or.inr fun x h => ?_
  swap
  · obtain ⟨dec, hdecided, howner⟩ := h.decision
    exact hno (dec, x.1) ⟨hdecided, howner⟩
  intro r hdecided
  obtain ⟨decision, intent⟩ := r
  have hunique : ∀ x, d.Links identity req x → x.1 = intent := by
    intro x h
    obtain ⟨dec, hdecided', -⟩ := h.decision
    exact congrArg Prod.snd (hdecided'.unique hdecided.1)
  refine ends_bind (alone_look (fun _ => ?_) (Or.inl rfl))
  split
  · next hnone => exact absurd (hdecided.1.2.symm.trans hnone) (by simp)
  next intent' hintent =>
  obtain rfl := Option.some.inj (hdecided.1.2.symm.trans hintent)
  refine ends_lift (fun p hlinkage => ?_) fun e hlinkage => ?_
  · have hp := checkIntentLinkage_ok hlinkage
    refine (finds_resolveCapabilityLinkage binding req).seq ?_ (fun _ _ => Or.inl rfl)
      fun hno _ _ _ => Or.inr fun x h => ?_
    · intro _ hcapability
      exact ⟨⟨hactive, horganization, ⟨binding, hbinding.1, hbinding.2, hcapability.1⟩,
        ⟨decision, hdecided⟩, hp, hcapability.2⟩, rfl, rfl⟩
    · obtain ⟨b, hb, -, hlabel⟩ := h.binding
      obtain rfl := Option.some.inj (hbinding.1.symm.trans hb)
      exact hno () ⟨hlabel, h.capability⟩
  · refine Or.inr fun x h => checkIntentLinkage_error_iff hlinkage x.2 ?_
    rw [← hunique x h]
    exact h.linkage

end

/-! ## What a receipt is compared with -/

/-- What is on record for an operation: its destination, and for each status a digest. -/
def Enforcement.onRecord (d : Enforcement) (operation : OperationScope) :
    Option ReceiptStatus → Option String
  | none => d.destinationOf operation
  | some s => (d.receiptOf operation s).map fun r => r.receiptDigest

/-- What a receipt puts on record. -/
def ReceiptRow.writes (r : ReceiptRow) : List (Option ReceiptStatus × String) :=
  [(none, r.destination), (some r.status, r.receiptDigest)]

section

variable {H : CapabilityHost} {d : Enforcement} {row : ReceiptRow} {intentId : Uuid}
  {event : EvidenceEvent}

/-- Two writes of a receipt, which may be of what is on record. -/
theorem puts_writes {m : Option ReceiptStatus → Option String}
    (hdestination : WriteOnce.Takes m (none, row.destination))
    (hdigest : WriteOnce.Takes m (some row.status, row.receiptDigest)) :
    WriteOnce.puts m row.writes = some (Function.update (Function.update m none (some row.destination))
      (some row.status) (some row.receiptDigest)) := by
  rw [ReceiptRow.writes, WriteOnce.puts_cons, WriteOnce.put, if_pos hdestination, Option.bind_some,
    WriteOnce.puts_cons, WriteOnce.put, if_pos]
  · rfl
  · rw [WriteOnce.takes_update]
    simpa using hdigest

/-- With one more receipt of an operation, its destination stays, or is that of the receipt. -/
theorem destinationOf_accept
    (hdestination : WriteOnce.Takes (d.onRecord row.operation) (none, row.destination)) :
    ((EnforcementChange.accept row intentId event).apply d).destinationOf row.operation =
      some row.destination := by
  have hfilter : ((EnforcementChange.accept row intentId event).apply d).receipts.filter
      (fun r => r.operation = row.operation) =
        d.receipts.filter (fun r => r.operation = row.operation) ++ [row] := by
    show (d.receipts ++ [row]).filter _ = _
    simp
  unfold WriteOnce.Takes Enforcement.onRecord Enforcement.destinationOf at hdestination
  unfold Enforcement.destinationOf
  rw [hfilter, earliest_concat]
  cases hearliest : earliest (fun r : ReceiptRow => r.submittedAt)
    (d.receipts.filter fun r => r.operation = row.operation) with
  | none => rfl
  | some prior =>
    have hprior : prior.destination = row.destination := by simpa [hearliest] using hdestination
    by_cases hle : prior.submittedAt ≤ row.submittedAt <;> simp [hle, hprior]

/-- A stored receipt has put itself on record. -/
theorem onRecord_accept (intentId : Uuid) (event : EvidenceEvent)
    (hnew : d.receiptOf row.operation row.status = none)
    (hdestination : WriteOnce.Takes (d.onRecord row.operation) (none, row.destination)) :
    WriteOnce.puts (d.onRecord row.operation) row.writes =
      some (((EnforcementChange.accept row intentId event).apply d).onRecord row.operation) := by
  have hreceipts : ∀ s, ((EnforcementChange.accept row intentId event).apply d).receiptOf row.operation s =
      (d.receiptOf row.operation s).or (if row.status = s then some row else none) := by
    intro s
    show Rows.get _ (d.receipts ++ [row]) _ = _
    rw [Rows.get_append]
    congr 1
    by_cases hs : row.status = s <;> simp [Rows.get, hs]
  rw [puts_writes hdestination (.inl (by simp [Enforcement.onRecord, hnew]))]
  congr 1
  funext k
  cases k with
  | none =>
    rw [Function.update_of_ne (by simp), Function.update_self]
    exact (destinationOf_accept hdestination).symm
  | some s =>
    by_cases hs : row.status = s
    · subst hs
      rw [Function.update_self, Enforcement.onRecord, hreceipts, hnew]
      simp
    · rw [Function.update_of_ne (by simpa using Ne.symm hs), Function.update_of_ne (by simp)]
      simp [Enforcement.onRecord, hreceipts, hs]

/-- A receipt that is there is on record. -/
theorem onRecord_again {r : ReceiptRow} (h : d.receiptOf row.operation row.status = some r)
    (hdigest : r.receiptDigest = row.receiptDigest)
    (hdestination : WriteOnce.Takes (d.onRecord row.operation) (none, row.destination)) :
    WriteOnce.puts (d.onRecord row.operation) row.writes = some (d.onRecord row.operation) := by
  have hwritten : d.onRecord row.operation (some row.status) = some row.receiptDigest := by
    simp [Enforcement.onRecord, h, hdigest]
  have hmem : r ∈ d.receipts.filter fun r => r.operation = row.operation := by
    refine List.mem_filter.2 ⟨(receiptOf_some h).1, decide_eq_true (receiptOf_some h).2.1⟩
  have hplace : d.onRecord row.operation none = some row.destination := by
    refine hdestination.resolve_left fun hnone => ?_
    rw [Enforcement.onRecord, Enforcement.destinationOf, Option.map_eq_none_iff, earliest_eq_none] at hnone
    rw [hnone] at hmem
    cases hmem
  rw [puts_writes hdestination (.inr hwritten)]
  congr 1
  rw [← hplace, Function.update_eq_self, ← hwritten, Function.update_eq_self]

end

/-! ## One receipt -/

/-- What a call claims, with the intent and the provenance that it is linked to. -/
structure Enforcement.Claims (H : CapabilityHost) (d : Enforcement) (identity : IntegrationIdentity)
    (req : ReceiptRequest) (x : IntentRow × IntegrationProvenance) (row : ReceiptRow) : Prop where
  links : d.Links identity req x
  built : Built identity req x.2 row
  digest : row.receiptDigest = row.digest H
  complete : missingField req = none

/-- An accepted receipt: it is on record, and stored unless it was there. -/
structure Enforcement.Accepts (H : CapabilityHost) (d : Enforcement) (identity : IntegrationIdentity)
    (req : ReceiptRequest) (x : IntentRow × IntegrationProvenance) (row : ReceiptRow)
    (d' : Enforcement) : Prop where
  claims : d.Claims H identity req x row
  puts : WriteOnce.puts (d.onRecord row.operation) row.writes = some (d'.onRecord row.operation)
  stored : d' = d ∨ ∃ event, d' = (EnforcementChange.accept row x.1.id event).apply d ∧
    d.receiptOf row.operation row.status = none ∧
    event.isTyped "EXECUTION_RECEIPT_ACCEPTED" row.decisionId = true ∧ d'.admitted = true

/-- Why a receipt is not accepted: a failure, or nothing that it could claim fits what is on record. -/
def Enforcement.Declines (H : CapabilityHost) (d : Enforcement) (identity : IntegrationIdentity)
    (req : ReceiptRequest) (e : PyError) : Prop :=
  (e = .databaseError ∨ e = .integrityError) ∨ ∀ x row, d.Claims H identity req x row →
    WriteOnce.puts (d.onRecord row.operation) row.writes = none

section

variable {H : CapabilityHost} {d d' : Enforcement} {identity : IntegrationIdentity}
  {req : ReceiptRequest} {x : IntentRow × IntegrationProvenance} {row : ReceiptRow}

theorem finds_checkDestinationConsistency (operation : OperationScope) (destination : String) :
    d.Finds H (checkDestinationConsistency operation destination) fun _ =>
      WriteOnce.Takes (d.onRecord operation) (none, destination) := by
  refine alone_look (fun _ => ?_) (Or.inl rfl)
  unfold WriteOnce.Takes Enforcement.onRecord Enforcement.destinationOf
  split
  · next hnone => exact ⟨Or.inl (by simp [hnone]), rfl, rfl⟩
  · next prior hprior =>
    split
    · next hne => exact Or.inr fun _ h => hne (by simpa [hprior] using h)
    · next heq => exact ⟨Or.inr (by simp [hprior, not_not.1 heq]), rfl, rfl⟩

/-- A receipt is linked to the intent of its decision, and to how that was submitted. -/
theorem Enforcement.Links.same_of_decided {r : Decision × IntentRow} {p : IntegrationProvenance}
    (h : d.Links identity req x) (hr : d.Decided req.decisionId r) (hp : r.2.provenance = some p) :
    x = (r.2, p) := by
  obtain ⟨dec, hdecided, -⟩ := h.decision
  have hintent : x.1 = r.2 := congrArg Prod.snd (hdecided.unique hr)
  have hprovenance := h.linkage.provenance
  rw [hintent, hp] at hprovenance
  exact Prod.ext hintent (Option.some.inj hprovenance).symm

theorem Enforcement.Links.unique {x' : IntentRow × IntegrationProvenance} (h : d.Links identity req x)
    (h' : d.Links identity req x') : x' = x := by
  obtain ⟨dec, hdecided, -⟩ := h.decision
  exact h'.same_of_decided hdecided h.linkage.provenance

/-- Two claims of one call are of the same operation, and write the same. -/
theorem Enforcement.Claims.same {x' : IntentRow × IntegrationProvenance} {row' : ReceiptRow}
    (h : d.Claims H identity req x row) (h' : d.Claims H identity req x' row') :
    row'.operation = row.operation ∧ row'.writes = row.writes := by
  have hoperation : row'.operation = row.operation := by
    rw [h.built.operation, h'.built.operation, h.links.unique h'.links]
  have hstatus : row'.status = row.status :=
    Option.some.inj (h'.built.status.symm.trans h.built.status)
  have hexternal : row'.externalOperationId = row.externalOperationId :=
    congrArg (fun o => o.2.2) hoperation
  have hdestination : row'.destination = row.destination :=
    h'.built.destination.trans h.built.destination.symm
  have hdigest : row'.receiptDigest = row.receiptDigest := by
    rw [h.digest, h'.digest, ReceiptRow.digest, ReceiptRow.digest, ReceiptRow.materialFields,
      ReceiptRow.materialFields, h.built.organizationId, h'.built.organizationId,
      h.built.integrationIdentityId, h'.built.integrationIdentityId, h.built.enforcementBindingId,
      h'.built.enforcementBindingId, h.built.decisionId, h'.built.decisionId, h.built.capabilityId,
      h'.built.capabilityId, h.built.canonicalActionDigest, h'.built.canonicalActionDigest, hexternal,
      hdestination, hstatus]
  exact ⟨hoperation, by rw [ReceiptRow.writes, ReceiptRow.writes, hdestination, hstatus, hdigest]⟩

/-- Nothing fits where the claim does not. -/
theorem Enforcement.Claims.declines (h : d.Claims H identity req x row) (e : PyError)
    (hno : WriteOnce.puts (d.onRecord row.operation) row.writes = none) :
    d.Declines H identity req e := by
  refine .inr fun x' row' h' => ?_
  obtain ⟨hoperation, hwrites⟩ := h.same h'
  rw [hoperation, hwrites, hno]

theorem puts_writes_eq_none {m : Option ReceiptStatus → Option String}
    (h : ¬ (WriteOnce.Takes m (none, row.destination) ∧
      WriteOnce.Takes m (some row.status, row.receiptDigest))) :
    WriteOnce.puts m row.writes = none := by
  rw [ReceiptRow.writes, WriteOnce.puts_cons, WriteOnce.put]
  by_cases hdestination : WriteOnce.Takes m (none, row.destination)
  · have hdigest : ¬ WriteOnce.Takes m (some row.status, row.receiptDigest) :=
      fun hdigest => h ⟨hdestination, hdigest⟩
    rw [if_pos hdestination, Option.bind_some, WriteOnce.puts_cons, WriteOnce.put, if_neg]
    · rfl
    · rw [WriteOnce.takes_update]
      simpa using hdigest
  · rw [if_neg hdestination]
    rfl

theorem alone_commitReceipt {event : EvidenceEvent} (hclaims : d.Claims H identity req x row)
    (hdestination : WriteOnce.Takes (d.onRecord row.operation) (none, row.destination))
    (hnew : d.receiptOf row.operation row.status = none)
    (hevent : event.isTyped "EXECUTION_RECEIPT_ACCEPTED" row.decisionId = true) :
    Ends (enforcementSchema H true) Eq (commitReceipt row x.1.id event)
      (Ends.split (fun found _ d' => found = none ∧ d.Accepts H identity req x row d')
        fun e _ _ => d.Declines H identity req e) [] d := by
  refine ends_tryCatch (ends_bind (ends_commit fun d' hd _ => ⟨fun hadmits => ?_, fun _ => ?_, ?_⟩))
  · subst hd
    exact ⟨rfl, hclaims, onRecord_accept x.1.id event hnew hdestination,
      .inr ⟨event, rfl, hnew, hevent, hadmits⟩⟩
  · subst hd
    refine ends_rollback fun d' hd' _ => ?_
    subst hd'
    refine alone_look (fun _ => ?_) (.inl (.inl rfl))
    rw [hnew]
    exact .inl (.inr rfl)
  · exact .inl (.inl rfl)

theorem alone_recordReceipt (hclaims : d.Claims H identity req x row)
    (hdestination : WriteOnce.Takes (d.onRecord row.operation) (none, row.destination)) :
    Ends (enforcementSchema H true) Eq (recordReceipt H row x.1.id)
      (Ends.split (fun _ _ d' => d.Accepts H identity req x row d')
        fun e _ _ => d.Declines H identity req e) [] d := by
  refine alone_look (fun _ => ?_) (.inl (.inl rfl))
  split
  · next existing hexisting =>
    unfold resolveExistingOrConflict
    split
    · next hdigest =>
      exact ⟨hclaims, onRecord_again hexisting hdigest hdestination, .inl rfl⟩
    · next hdigest =>
      refine hclaims.declines _ (puts_writes_eq_none fun h => ?_)
      have htakes := h.2
      simp [WriteOnce.Takes, Enforcement.onRecord, hexisting, hdigest] at htakes
  · next hnew =>
    refine ends_bind (alone_look (fun _ => alone_draw fun new => ?_) (.inl (.inl rfl)))
    refine ends_seq (alone_commitReceipt hclaims hdestination hnew (decide_eq_true ⟨rfl, rfl⟩)) ?_
      fun e _ _ he => he
    intro found ws d' h
    obtain ⟨rfl, haccepts⟩ := h
    exact alone_look (fun _ => haccepts) (.inl (.inl rfl))

theorem claims_of_build {new : Drawn} (hlinks : d.Links identity req x)
    (h : buildExecutionReceipt H identity req x.2 new = .ok row) : d.Claims H identity req x row := by
  obtain ⟨hbuilt, hdigest⟩ := buildExecutionReceipt_ok h
  refine ⟨hlinks, hbuilt, hdigest, ?_⟩
  unfold buildExecutionReceipt at h
  split at h
  · cases h
  · cases h
  · next hcomplete => exact hcomplete

theorem not_claims_of_build {new : Drawn} {p : IntegrationProvenance} {e : PyError}
    (h : buildExecutionReceipt H identity req p new = .error e) : ¬ d.Claims H identity req x row := by
  intro hclaims
  unfold buildExecutionReceipt at h
  rw [hclaims.built.status, hclaims.complete] at h
  cases h

/-- **A receipt alone**: it is accepted, or a failure or what is on record is against it. -/
theorem alone_submitExecutionReceipt :
    Ends (enforcementSchema H true) Eq (submitExecutionReceipt H identity req)
      (Ends.split (fun _ _ d' => ∃ x row, d.Accepts H identity req x row d')
        fun e _ _ => d.Declines H identity req e) [] d := by
  refine finds_linkReceipt.seq ?_ (fun _ _ => .inl (.inl rfl)) fun hno e _ _ =>
    .inr fun x row h => absurd h.links (hno x)
  intro x hlinks
  -- the operation that is compared is that of every claim
  have hoperation : ∀ x' row, d.Claims H identity req x' row →
      row.operation = (x.2.integrationId, x.2.environment, req.externalOperationId) ∧
        row.destination = req.destination := by
    intro x' row h
    rw [h.built.operation, hlinks.unique h.links]
    exact ⟨rfl, h.built.destination⟩
  refine (finds_checkDestinationConsistency _ _).seq ?_ (fun _ _ => .inl (.inl rfl)) fun hno e _ _ =>
    .inr fun x' row h => ?_
  swap
  · refine puts_writes_eq_none fun htakes => hno () ?_
    rw [← (hoperation x' row h).1, ← (hoperation x' row h).2]
    exact htakes.1
  intro _ hdestination
  refine alone_draw fun new => ends_lift (fun row hrow => ?_) fun e he => ?_
  · have hclaims := claims_of_build hlinks hrow
    rw [← (hoperation x row hclaims).1, ← (hoperation x row hclaims).2] at hdestination
    refine ends_mono (alone_recordReceipt hclaims hdestination) fun a ws d' h => ?_
    cases a with
    | ok a => exact ⟨x, row, h⟩
    | error e => exact h
  · exact .inr fun x' row h => absurd h (not_claims_of_build he)

end

end PayReality
