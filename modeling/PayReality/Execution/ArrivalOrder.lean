import PayReality.Execution.AcceptedReceipts
import PayReality.Execution.Historical

/-!
# The order in which receipts arrive

What a reconciliation finds depends on the receipts of a decision by which statuses they have
(`findingFor_said`), and the highest of them decides. Which receipts are accepted is a matter of registers
that are written once.

**Main result** `receipts_in_any_order`: receipts that are accepted in one order are accepted in every
order, all with the same verdict; and a verdict only goes up with the receipts.
-/

namespace PayReality

open Program RecordProg IntentService ExecutionReceiptService ExecutionReconciliationService

/-! ## What is said of a decision -/

/-- How far an outcome goes; a mismatch is no receipt's. -/
def ReconciliationOutcome.rank : ReconciliationOutcome → ℕ
  | .matched => 4
  | .partiallyDone => 3
  | .executionFailed => 2
  | .indeterminate => 1
  | .receiptMissing | .mismatched => 0

/-- The outcome of the statuses that have been reported. -/
def saidOutcome (said : ReceiptStatus → Bool) : ReconciliationOutcome :=
  ((ReceiptStatus.precedence.find? said).map ReceiptStatus.outcome).getD .receiptMissing

/-- A receipt of the decision has the status. -/
def Enforcement.hasReported (d : Enforcement) (decisionId : Uuid) (s : ReceiptStatus) : Bool :=
  d.receipts.any fun r => r.decisionId = decisionId ∧ r.status = s

variable {said said' : ReceiptStatus → Bool} {s : ReceiptStatus}

theorem mem_precedence (s : ReceiptStatus) : s ∈ ReceiptStatus.precedence := by
  cases s <;> decide

/-- The first of those that are said, in a list that goes down, is as high as any. -/
theorem le_find? {statuses : List ReceiptStatus}
    (hdown : statuses.Pairwise fun a b => b.outcome.rank ≤ a.outcome.rank) (hs : s ∈ statuses)
    (h : said s = true) : ∃ a, statuses.find? said = some a ∧ s.outcome.rank ≤ a.outcome.rank := by
  induction statuses with
  | nil => cases hs
  | cons a statuses ih =>
    rw [List.pairwise_cons] at hdown
    by_cases ha : said a = true
    · refine ⟨a, by simp [ha], ?_⟩
      obtain rfl | hs := List.mem_cons.1 hs
      · exact Nat.le_refl _
      · exact hdown.1 s hs
    · obtain rfl | hs := List.mem_cons.1 hs
      · exact absurd h ha
      · simpa [ha] using ih hdown.2 hs

/-- What is said is as high as every status that is said. -/
theorem rank_le_saidOutcome (h : said s = true) : s.outcome.rank ≤ (saidOutcome said).rank := by
  obtain ⟨a, hfound, hle⟩ := le_find? (by decide) (mem_precedence s) h
  rw [saidOutcome, hfound]
  exact hle

/-- **What is said only goes up.** -/
theorem saidOutcome_mono (h : ∀ s, said s = true → said' s = true) :
    (saidOutcome said).rank ≤ (saidOutcome said').rank := by
  cases hfound : ReceiptStatus.precedence.find? said with
  | none =>
    rw [saidOutcome, hfound]
    exact Nat.zero_le _
  | some s =>
    rw [saidOutcome, hfound]
    exact rank_le_saidOutcome (h s (List.find?_some hfound))

/-- The receipt that is chosen has the first status of the precedence that there is. -/
theorem chosenReceipt_status (receipts : List ReceiptRow) :
    (chosenReceipt receipts).map (fun r => r.status) =
      ReceiptStatus.precedence.find? fun s => receipts.any fun r => r.status = s := by
  unfold chosenReceipt
  induction ReceiptStatus.precedence with
  | nil => rfl
  | cons s statuses ih =>
    rw [List.findSome?_cons, List.find?_cons]
    cases hfound : byStatus receipts s with
    | none =>
      have hno : (receipts.any fun r => r.status = s) = false := by
        unfold byStatus at hfound
        rw [List.find?_eq_none] at hfound
        rw [List.any_eq_false]
        intro r hr
        exact hfound r (List.mem_reverse.2 hr)
      rw [hno]
      exact ih
    | some r =>
      have hstatus : r.status = s := by simpa using List.find?_some hfound
      have hr : r ∈ receipts := List.mem_reverse.1 (List.mem_of_find?_eq_some hfound)
      have hyes : (receipts.any fun r => r.status = s) = true :=
        List.any_eq_true.2 ⟨r, hr, decide_eq_true hstatus⟩
      rw [hyes]
      simp [hstatus]

section

variable {H : CapabilityHost} {d d' : Enforcement} {decisionId : Uuid} {x : Decision × IntentRow}
  {p : IntegrationProvenance}

/-- **What a reconciliation finds** depends on the receipts by what they say. -/
theorem findingFor_said (h : d.Linked H) (hx : d.Decided decisionId x) (hp : x.2.provenance = some p) :
    (d.findingFor decisionId p).outcome =
      if d.lacksCapability decisionId p.enforcementBindingId then .mismatched
      else saidOutcome (d.hasReported decisionId) := by
  rw [d.findingFor_eq]
  split
  · rfl
  have hsaid : d.hasReported decisionId = fun s => ((d.receipts.filter fun r =>
      r.decisionId = decisionId).insertionSort fun a b => a.submittedAt ≤ b.submittedAt).any
        fun r => r.status = s := by
    funext s
    rw [Bool.eq_iff_iff]
    simp [Enforcement.hasReported, List.mem_insertionSort, and_assoc]
  have hnot := findingOf_ne_mismatched h hx hp ((d.capabilityOf decisionId).map fun c => c.id)
  have hchosen := chosenReceipt_status ((d.receipts.filter fun r =>
      r.decisionId = decisionId).insertionSort fun a b => a.submittedAt ≤ b.submittedAt)
  rw [saidOutcome, hsaid, ← hchosen]
  revert hnot
  unfold findingOf
  cases chosenReceipt ((d.receipts.filter fun r =>
      r.decisionId = decisionId).insertionSort fun a b => a.submittedAt ≤ b.submittedAt) with
  | none => exact fun _ => rfl
  | some r =>
    dsimp only
    split
    · intro hnot
      exact absurd rfl hnot
    · exact fun _ => rfl

end

/-! ## Receipts of one decision -/

/-- The operation of a provenance. -/
def IntegrationProvenance.operation (p : IntegrationProvenance) : OperationScope :=
  (p.integrationId, p.environment, p.externalOperationId)

/-- What a call about a decision with this provenance puts on record. -/
def claimedWrites (H : CapabilityHost) (p : IntegrationProvenance)
    (e : IntegrationIdentity × ReceiptRequest) : List (Option ReceiptStatus × String) :=
  match buildExecutionReceipt H e.1 e.2 p ⟨0, "", 0⟩ with
  | .ok row => row.writes
  | .error _ => []

section

variable {H : CapabilityHost} {d d' : Enforcement} {identity : IntegrationIdentity}
  {req : ReceiptRequest} {x : IntentRow × IntegrationProvenance} {row : ReceiptRow} {decisionId : Uuid}
  {r : Decision × IntentRow} {p : IntegrationProvenance}

/-- What a call about a decision claims. -/
theorem Enforcement.Claims.of_decided (h : d.Claims H identity req x row)
    (hr : d.Decided decisionId r) (hp : r.2.provenance = some p) (hreq : req.decisionId = decisionId) :
    x = (r.2, p) ∧ row.operation = p.operation ∧ row.writes = claimedWrites H p (identity, req) := by
  subst hreq
  have hx := h.links.same_of_decided hr hp
  have hoperation : row.operation = p.operation := by
    rw [h.built.operation, hx, ← h.links.linkage.operation, hx]
    rfl
  refine ⟨hx, hoperation, ?_⟩
  have hbuilt : ∃ row', buildExecutionReceipt H identity req p ⟨0, "", 0⟩ = .ok row' := by
    unfold buildExecutionReceipt
    rw [h.built.status, h.complete]
    exact ⟨_, rfl⟩
  obtain ⟨row', hrow'⟩ := hbuilt
  have hlinks : d.Links identity req (r.2, p) := hx ▸ h.links
  rw [claimedWrites, hrow']
  exact ((claims_of_build hlinks hrow').same h).2

/-- The receipts and the evidence are replaced. -/
def Enforcement.withReceipts (d : Enforcement) (receipts : List ReceiptRow)
    (evidence : List EvidenceEvent) : Enforcement :=
  { d with receipts, evidence }

/-- The links of a receipt are no matter of the receipts that there are. -/
theorem links_withReceipts (receipts : List ReceiptRow) (evidence : List EvidenceEvent) :
    (d.withReceipts receipts evidence).Links identity req x ↔ d.Links identity req x :=
  ⟨fun h => ⟨h.active, h.organization, h.binding, h.decision, h.linkage, h.capability⟩,
    fun h => ⟨h.active, h.organization, h.binding, h.decision, h.linkage, h.capability⟩⟩

theorem claims_withReceipts (receipts : List ReceiptRow) (evidence : List EvidenceEvent) :
    (d.withReceipts receipts evidence).Claims H identity req x row ↔ d.Claims H identity req x row :=
  ⟨fun h => ⟨(links_withReceipts _ _).1 h.links, h.built, h.digest, h.complete⟩,
    fun h => ⟨(links_withReceipts _ _).2 h.links, h.built, h.digest, h.complete⟩⟩

/-- An accepted receipt is one of its decision. -/
theorem Enforcement.Accepts.linked (h : d.Accepts H identity req x row d') (hd : d.Linked H) :
    d'.Linked H := by
  obtain rfl | ⟨event, rfl, -, hevent, hadmits⟩ := h.stored
  · exact hd
  obtain ⟨dec, hdecided, -⟩ := h.claims.links.decision
  have hid : x.1.id = dec.intentId :=
    @Rows.key_of_get IntentRow Uuid _ (fun i => i.id) d.intents dec.intentId x.1 hdecided.2
  have hbuilt := h.claims.built
  have hlinkage := h.claims.links.linkage
  have hreports : row.reports x.1 = true := by
    unfold ReceiptRow.reports
    rw [hlinkage.provenance, hbuilt.integrationIdentityId, hbuilt.enforcementBindingId,
      hbuilt.canonicalActionDigest, hbuilt.operation]
    simp [hlinkage.identity, hlinkage.binding, hlinkage.action, hlinkage.operation]
  refine hd.step (fun c hc => ⟨d, hd, Enforcement.Grows.refl d, ?_⟩) hadmits
  revert c
  simp only [EnforcementChange.checks, List.forall_mem_cons]
  refine ⟨?_, ?_, ?_, ?_, ?_, ?_, ?_, ?_, fun c hc => (by cases hc)⟩
  · rw [hbuilt.organizationId]
    exact h.claims.links.organization
  · rw [hbuilt.decisionId, hdecided.1]
    exact decide_eq_true hid.symm
  · rw [hid, hdecided.2]
    exact hreports
  · rw [hbuilt.capabilityId, hbuilt.enforcementBindingId]
    obtain ⟨b, hb, -, hlabel⟩ := h.claims.links.binding
    have hget : d.binding req.enforcementBindingId = some b := by
      refine @Rows.get_of_find BindingRow Uuid _ (fun b => b.id) d.bindings _ b
        (Enforcement.bindingIds_nodup hd.admitted) _ (fun r hr => ?_) hb
      exact (of_decide_eq_true hr).1
    cases hcapability : req.capabilityId with
    | none => simp [Enforcement.capabilityOptional, hget, hlabel hcapability]
    | some id => rfl
  · rw [hbuilt.capabilityId, hbuilt.decisionId, hbuilt.enforcementBindingId]
    exact (Option.all_eq_true _ _).2 h.claims.links.capability
  · exact decide_eq_true h.claims.digest
  · exact hevent
  · -- the destination is the first thing that a receipt writes
    obtain ⟨m, hput, -⟩ := Option.bind_eq_some_iff.1 (WriteOnce.puts_cons.symm.trans h.puts)
    rcases (WriteOnce.put_eq_some.1 hput).1 with hnone | hsome
    · rw [show d.destinationOf row.operation = none from hnone]
      rfl
    · rw [show d.destinationOf row.operation = some row.destination from hsome]
      exact decide_eq_true rfl

end

/-! ## Receipts, one after the other -/

/-- The calls are accepted, one after the other. -/
inductive AcceptsAll {ι : Type} [DecidableEq ι] (H : CapabilityHost) :
    Records Enforcement ι → List (IntegrationIdentity × ReceiptRequest) → Records Enforcement ι →
      Prop where
  | nil (s : Records Enforcement ι) : AcceptsAll H s [] s
  | cons {s s' t : Records Enforcement ι} {e : IntegrationIdentity × ReceiptRequest}
      {l : List (IntegrationIdentity × ReceiptRequest)} {row : ReceiptRow} (i : ι)
      (hcall : Exec ((enforcementSchema H true).machine Drawn ι) i
      (submitExecutionReceipt H e.1 e.2) s (.ok row) s') (hrest : AcceptsAll H s' l t) :
      AcceptsAll H s (e :: l) t

/-- A state in which receipts of the decision have been accepted since another one. -/
structure Enforcement.Follows (H : CapabilityHost) (d₀ : Enforcement) (decisionId : Uuid)
    (d : Enforcement) : Prop where
  linked : d.Linked H
  rest : ∃ receipts evidence, d = d₀.withReceipts (d₀.receipts ++ receipts) evidence ∧
    ∀ r ∈ receipts, r.decisionId = decisionId

section

variable {ι : Type} [DecidableEq ι] {H : CapabilityHost} {d₀ d d' : Enforcement} {decisionId : Uuid}
  {r : Decision × IntentRow} {p : IntegrationProvenance} {e : IntegrationIdentity × ReceiptRequest}
  {l : List (IntegrationIdentity × ReceiptRequest)} {x : IntentRow × IntegrationProvenance}
  {row : ReceiptRow} {s t : Records Enforcement ι}

theorem Enforcement.Follows.refl (h : d.Linked H) : d.Follows H decisionId d :=
  ⟨h, [], d.evidence, by simp [Enforcement.withReceipts], fun r hr => (by cases hr)⟩

/-- What is claimed later could be claimed before. -/
theorem Enforcement.Follows.claims (h : d₀.Follows H decisionId d) :
    d.Claims H e.1 e.2 x row ↔ d₀.Claims H e.1 e.2 x row := by
  obtain ⟨receipts, evidence, rfl, -⟩ := h.rest
  exact claims_withReceipts _ _

theorem Enforcement.Follows.decided (h : d₀.Follows H decisionId d) {id : Uuid} :
    d.Decided id r ↔ d₀.Decided id r := by
  obtain ⟨receipts, evidence, rfl, -⟩ := h.rest
  exact Iff.rfl

/-- One more receipt. -/
theorem Enforcement.Follows.step (h : d₀.Follows H decisionId d) (he : e.2.decisionId = decisionId)
    (ha : d.Accepts H e.1 e.2 x row d') : d₀.Follows H decisionId d' := by
  refine ⟨ha.linked h.linked, ?_⟩
  obtain ⟨receipts, evidence, rfl, hreceipts⟩ := h.rest
  obtain rfl | ⟨event, rfl, -⟩ := ha.stored
  · exact ⟨receipts, evidence, rfl, hreceipts⟩
  · refine ⟨receipts ++ [row], evidence ++ [event], ?_, ?_⟩
    · simp [Enforcement.withReceipts, EnforcementChange.apply]
    · intro r hr
      obtain hr | hr := List.mem_append.1 hr
      · exact hreceipts r hr
      · rw [List.mem_singleton.1 hr, ha.claims.built.decisionId, he]

theorem AcceptsAll.follows (hl : AcceptsAll H s l t) (habout : ∀ e ∈ l, e.2.decisionId = decisionId)
    (hs : d₀.Follows H decisionId s.db) : d₀.Follows H decisionId t.db := by
  induction hl with
  | nil s => exact hs
  | cons i hcall hrest ih =>
    rw [List.forall_mem_cons] at habout
    obtain ⟨_, x, row, haccepts⟩ := hcall.ends [] hs.linked.admitted alone_submitExecutionReceipt
    exact ih habout.2 (hs.step habout.1 haccepts)

/-- **Accepted receipts**: each could be claimed at first, and what they put on record is what is on
record in the end. -/
theorem AcceptsAll.onRecord (hl : AcceptsAll H s l t) (habout : ∀ e ∈ l, e.2.decisionId = decisionId)
    (hr : d₀.Decided decisionId r) (hp : r.2.provenance = some p)
    (hs : d₀.Follows H decisionId s.db) :
    (∀ e ∈ l, ∃ x row, d₀.Claims H e.1 e.2 x row) ∧
      WriteOnce.puts (s.db.onRecord p.operation) (l.flatMap (claimedWrites H p)) =
        some (t.db.onRecord p.operation) := by
  induction hl with
  | nil s => exact ⟨fun e he => (by cases he), rfl⟩
  | @cons s s' t e l row i hcall hrest ih =>
    rw [List.forall_mem_cons] at habout
    obtain ⟨_, x, row, haccepts⟩ := hcall.ends [] hs.linked.admitted alone_submitExecutionReceipt
    obtain ⟨hclaims, hputs⟩ := ih habout.2 (hs.step habout.1 haccepts)
    have hclaim := hs.claims.1 haccepts.claims
    obtain ⟨-, hoperation, hwrites⟩ := hclaim.of_decided hr hp habout.1
    refine ⟨?_, ?_⟩
    · rw [List.forall_mem_cons]
      exact ⟨⟨x, row, hclaim⟩, hclaims⟩
    · have hone := haccepts.puts
      rw [hoperation, hwrites] at hone
      rw [List.flatMap_cons, WriteOnce.puts_append, hone, Option.bind_some, hputs]

/-- The decision of an accepted receipt was submitted through a binding. -/
theorem AcceptsAll.decided (hl : AcceptsAll H s l t) (he : e ∈ l)
    (habout : ∀ e ∈ l, e.2.decisionId = decisionId) (hd : s.db.Linked H) :
    ∃ r p, s.db.Decided decisionId r ∧ r.2.provenance = some p := by
  cases hl with
  | nil s => cases he
  | cons i hcall hrest =>
    obtain ⟨_, x, row, haccepts⟩ := hcall.ends [] hd.admitted alone_submitExecutionReceipt
    obtain ⟨dec, hdecided, -⟩ := haccepts.claims.links.decision
    rw [habout _ List.mem_cons_self] at hdecided
    exact ⟨(dec, x.1), x.2, hdecided, haccepts.claims.links.linkage.provenance⟩

/-- **In another order nothing is declined** but for a failure of the database. -/
theorem AcceptsAll.other_order (hl : AcceptsAll H s l t)
    (habout : ∀ e ∈ l, e.2.decisionId = decisionId) (hd : s.db.Linked H)
    {before after : List (IntegrationIdentity × ReceiptRequest)} (hperm : l.Perm (before ++ e :: after))
    {s' : Records Enforcement ι} (hbefore : AcceptsAll H s before s')
    {i : ι} {y : Except PyError ReceiptRow} {u : Records Enforcement ι}
    (hcall : Exec ((enforcementSchema H true).machine Drawn ι) i
      (submitExecutionReceipt H e.1 e.2) s' y u) :
    (∃ row, y = .ok row) ∨ y = .error .databaseError ∨ y = .error .integrityError := by
  have he : e ∈ l := hperm.mem_iff.2 (List.mem_append_right _ List.mem_cons_self)
  obtain ⟨r, p, hr, hp⟩ := hl.decided he habout hd
  have hearlier : ∀ e' ∈ before, e'.2.decisionId = decisionId := fun e' he' =>
    habout e' (hperm.mem_iff.2 (List.mem_append_left _ he'))
  have hfollows := hbefore.follows hearlier (.refl hd)
  obtain ⟨hclaims, hputs⟩ := hl.onRecord habout hr hp (.refl hd)
  obtain ⟨-, hprefix⟩ := hbefore.onRecord hearlier hr hp (.refl hd)
  obtain ⟨x, row, hclaim⟩ := hclaims e he
  -- what is on record so far takes the writes of the call, since it does in the first order
  have hfits : WriteOnce.puts (s'.db.onRecord p.operation) (claimedWrites H p e) ≠ none := by
    rw [WriteOnce.puts_perm (hperm.flatMap_right _), List.flatMap_append, WriteOnce.puts_append, hprefix,
      Option.bind_some, List.flatMap_cons, WriteOnce.puts_append] at hputs
    intro hnone
    rw [hnone] at hputs
    cases hputs
  obtain ⟨_, hend⟩ := hcall.ends [] hfollows.linked.admitted alone_submitExecutionReceipt
  cases y with
  | ok row => exact .inl ⟨row, rfl⟩
  | error err =>
    obtain (rfl | rfl) | hno := hend
    · exact .inr (.inl rfl)
    · exact .inr (.inr rfl)
    · obtain ⟨-, hoperation, hwrites⟩ := hclaim.of_decided hr hp (habout e he)
      have hnone := hno x row (hfollows.claims.2 hclaim)
      rw [hoperation, hwrites] at hnone
      exact absurd hnone hfits

end

/-! ## Verdicts -/

/-- The outcome has not gone down, and is a mismatch if it was one. -/
structure ReconciliationOutcome.NoLower (o o' : ReconciliationOutcome) : Prop where
  mismatched : o' = .mismatched ↔ o = .mismatched
  rank : o.rank ≤ o'.rank

section

variable {ι : Type} [DecidableEq ι] {H : CapabilityHost} {d₀ d d' : Enforcement} {decisionId : Uuid}
  {r : Decision × IntentRow} {p : IntegrationProvenance}
  {l : List (IntegrationIdentity × ReceiptRequest)} {s t t' : Records Enforcement ι}

theorem saidOutcome_ne_mismatched (said : ReceiptStatus → Bool) : saidOutcome said ≠ .mismatched := by
  unfold saidOutcome
  cases ReceiptStatus.precedence.find? said with
  | none => decide
  | some s => cases s <;> decide

/-- What a reconciliation returns. -/
theorem verdict (hd : s.db.Linked H)
    (hhash : ∀ r r' : ResultRow, r.digest H = r'.digest H → r.summary H = r'.summary H)
    {i : ι} {organizationId : Uuid} {row : ResultRow} {u : Records Enforcement ι}
    (hcall : Exec ((enforcementSchema H true).machine Drawn ι) i
      (reconcileDecision H organizationId decisionId) s (.ok row) u) :
    ∃ r p, s.db.Decided decisionId r ∧ r.2.provenance = some p ∧
      row.outcome = if s.db.lacksCapability decisionId p.enforcementBindingId then .mismatched
        else saidOutcome (s.db.hasReported decisionId) := by
  obtain ⟨_, hends⟩ := hcall.ends [] hd.admitted (alone_reconcileDecision organizationId decisionId)
  obtain ⟨r, p, -, hr, hp, hreturns⟩ := hends.returns row rfl
  refine ⟨r, p, hr, hp, ?_⟩
  rw [outcome_of_returns hd hhash hreturns, findingFor_said hd hr hp]

/-- Two verdicts that rest on the same capability, where at least as much has been said. -/
theorem noLower_of_said {lacks : Bool} {said said' : ReceiptStatus → Bool}
    (h : ∀ s, said s = true → said' s = true) :
    (if lacks then ReconciliationOutcome.mismatched else saidOutcome said).NoLower
      (if lacks then .mismatched else saidOutcome said') := by
  cases lacks with
  | true => exact ⟨Iff.rfl, Nat.le_refl _⟩
  | false =>
    refine ⟨?_, saidOutcome_mono h⟩
    simp [saidOutcome_ne_mismatched]

/-- **What is said of the decision** is what was said, and what has been put on record since. -/
theorem Enforcement.Follows.hasReported_iff (h : d₀.Follows H decisionId d) (hr : d₀.Decided decisionId r)
    (hp : r.2.provenance = some p) (status : ReceiptStatus) : d.hasReported decisionId status = true ↔
      d₀.hasReported decisionId status = true ∨ d₀.onRecord p.operation (some status) = none ∧
        d.onRecord p.operation (some status) ≠ none := by
  have hnodup : (d.receipts.map fun r => (r.operation, r.status)).Nodup :=
    (of_decide_eq_true h.linked.admitted).2.2.2.2.2.2.2.2.2
  have hreports : ∀ q ∈ d.receipts, q.decisionId = decisionId → q.operation = p.operation := by
    intro q hq hdecision
    have := h.linked.reports hq (x := r) (by rw [hdecision]; exact h.decided.2 hr)
    unfold ReceiptRow.reports at this
    rw [hp] at this
    exact (of_decide_eq_true this).2.2.2.symm
  obtain ⟨receipts, evidence, rfl, habout⟩ := h.rest
  have hrows : (d₀.withReceipts (d₀.receipts ++ receipts) evidence).receipts = d₀.receipts ++ receipts :=
    rfl
  have hrecord : ∀ d : Enforcement, d.onRecord p.operation (some status) = none ↔
      ∀ q ∈ d.receipts, q.operation = p.operation → q.status ≠ status := by
    intro d
    simp [Enforcement.onRecord, Enforcement.receiptOf, Rows.get]
  rw [hrows, List.map_append, List.nodup_append] at hnodup
  simp only [Enforcement.hasReported, hrows, List.any_append, Bool.or_eq_true, List.any_eq_true,
    decide_eq_true_eq, hrecord, List.mem_append, ne_eq, not_forall, not_not]
  constructor
  · rintro (⟨q, hq, hsaid⟩ | ⟨q, hq, hsaid⟩)
    · exact .inl ⟨q, hq, hsaid⟩
    · have hoperation := hreports q (List.mem_append_right _ hq) hsaid.1
      refine .inr ⟨?_, q, .inr hq, hoperation, hsaid.2⟩
      intro q' hq' hoperation' hstatus'
      refine hnodup.2.2 _ (List.mem_map_of_mem hq') _ (List.mem_map_of_mem hq) ?_
      rw [hoperation, hoperation', hstatus', hsaid.2]
  · rintro (hold | ⟨hnone, q, hq | hq, hoperation, hstatus⟩)
    · exact .inl hold
    · exact absurd hstatus (hnone q hq hoperation)
    · exact .inr ⟨q, hq, habout q hq, hstatus⟩

theorem Enforcement.Follows.lacks (h : d₀.Follows H decisionId d) (bindingId : Uuid) :
    d.lacksCapability decisionId bindingId = d₀.lacksCapability decisionId bindingId := by
  obtain ⟨receipts, evidence, rfl, -⟩ := h.rest
  rfl

end

section

variable {ι : Type} [DecidableEq ι] {H : CapabilityHost} {decisionId : Uuid}
  {l l' : List (IntegrationIdentity × ReceiptRequest)} {s t t' : Records Enforcement ι}

/-- The receipts can be submitted in this order, too: none is declined but for a failure of the database. -/
def AcceptsInOrder (H : CapabilityHost) (s : Records Enforcement ι)
    (l : List (IntegrationIdentity × ReceiptRequest)) : Prop :=
  ∀ before e after s' i y u, l = before ++ e :: after → AcceptsAll H s before s' →
    Exec ((enforcementSchema H true).machine Drawn ι) i (submitExecutionReceipt H e.1 e.2) s' y u →
      (∃ row, y = .ok row) ∨ y = .error .databaseError ∨ y = .error .integrityError

/-- Two orders of the same receipts say the same. -/
theorem AcceptsAll.hasReported_perm (hd : s.db.Linked H) (habout : ∀ e ∈ l, e.2.decisionId = decisionId)
    {r : Decision × IntentRow} {p : IntegrationProvenance} (hr : s.db.Decided decisionId r)
    (hp : r.2.provenance = some p) (hperm : l.Perm l') (hl : AcceptsAll H s l t)
    (hl' : AcceptsAll H s l' t') : t.db.hasReported decisionId = t'.db.hasReported decisionId := by
  have habout' : ∀ e ∈ l', e.2.decisionId = decisionId := fun e he => habout e (hperm.mem_iff.2 he)
  have ht := hl.follows habout (.refl hd)
  have ht' := hl'.follows habout' (.refl hd)
  obtain ⟨-, hputs⟩ := hl.onRecord habout hr hp (.refl hd)
  obtain ⟨-, hputs'⟩ := hl'.onRecord habout' hr hp (.refl hd)
  have hsame : t.db.onRecord p.operation = t'.db.onRecord p.operation := by
    rw [WriteOnce.puts_perm (hperm.flatMap_right _), hputs'] at hputs
    exact (Option.some.inj hputs).symm
  funext status
  rw [Bool.eq_iff_iff, ht.hasReported_iff hr hp, ht'.hasReported_iff hr hp, hsame]

theorem Enforcement.Decided.provenance_unique {d : Enforcement} {r r' : Decision × IntentRow}
    {p p' : IntegrationProvenance} (h : d.Decided decisionId r) (h' : d.Decided decisionId r')
    (hp : r.2.provenance = some p) (hp' : r'.2.provenance = some p') : p' = p := by
  rw [h.unique h', hp'] at hp
  exact Option.some.inj hp

/-- **The order of receipts does not matter, and they only move a verdict up.** In every state of a run,
receipts of a decision that are accepted in one order are accepted in any other, and end in the same
verdict, which is no lower than before them. Along a run, whatever else is going on, a verdict does not go
down while the binding asks for as much and the capability stays as it is. -/
theorem receipts_in_any_order
    {w : World (RecordStatement EnforcementChange) (RecordStatement.Answer Enforcement Drawn)
      PyError (Records Enforcement ι) ι}
    (h : EnforcementRun H (fun _ _ => true) w)
    (hhash : ∀ r r' : ResultRow, r.digest H = r'.digest H → r.summary H = r'.summary H)
    (decisionId : Uuid) :
    (∀ l l' t, (∀ e ∈ l, e.2.decisionId = decisionId) → l.Perm l' → AcceptsAll H w.store l t →
      AcceptsInOrder H w.store l' ∧
      (∀ t' i i' o o' row row' u u', AcceptsAll H w.store l' t' →
        Exec ((enforcementSchema H true).machine Drawn ι) i (reconcileDecision H o decisionId) t
          (.ok row) u →
        Exec ((enforcementSchema H true).machine Drawn ι) i' (reconcileDecision H o' decisionId) t'
          (.ok row') u' → row.outcome = row'.outcome) ∧
      ∀ i i' o o' row₀ row u₀ u,
        Exec ((enforcementSchema H true).machine Drawn ι) i (reconcileDecision H o decisionId) w.store
          (.ok row₀) u₀ →
        Exec ((enforcementSchema H true).machine Drawn ι) i' (reconcileDecision H o' decisionId) t
          (.ok row) u → row₀.outcome.NoLower row.outcome) ∧
    ∀ s i i' o o' row₀ row u₀ u, s.db ∈ w.store.past →
      Exec ((enforcementSchema H true).machine Drawn ι) i (reconcileDecision H o decisionId) s
        (.ok row₀) u₀ →
      Exec ((enforcementSchema H true).machine Drawn ι) i' (reconcileDecision H o' decisionId) w.store
        (.ok row) u →
      (∀ r p, s.db.Decided decisionId r → r.2.provenance = some p →
        w.store.db.capabilityRequired p.enforcementBindingId =
          s.db.capabilityRequired p.enforcementBindingId) →
      w.store.db.capabilityConsumed decisionId = s.db.capabilityConsumed decisionId →
      row₀.outcome.NoLower row.outcome := by
  have hlinked := enforcement_linked h
  refine ⟨fun l l' t habout hperm hl => ⟨?_, ?_, ?_⟩, ?_⟩
  · intro before e after s' i y u hl' hbefore hcall
    exact hl.other_order habout hlinked (hl' ▸ hperm) hbefore hcall
  · intro t' i i' o o' row row' u u' hl' hcall hcall'
    have ht := hl.follows habout (.refl hlinked)
    have ht' := hl'.follows (fun e he => habout e (hperm.mem_iff.2 he)) (.refl hlinked)
    obtain ⟨r, p, hr, hp, houtcome⟩ := verdict ht.linked hhash hcall
    obtain ⟨r', p', hr', hp', houtcome'⟩ := verdict ht'.linked hhash hcall'
    have hbefore := ht.decided.1 hr
    obtain rfl := hbefore.provenance_unique (ht'.decided.1 hr') hp hp'
    rw [houtcome, houtcome', ht.lacks, ht'.lacks,
      hl.hasReported_perm hlinked habout hbefore hp hperm hl']
  · intro i i' o o' row₀ row u₀ u hcall₀ hcall
    obtain ⟨r, p, hr, hp, houtcome₀⟩ := verdict hlinked hhash hcall₀
    have ht := hl.follows habout (.refl hlinked)
    obtain ⟨r', p', hr', hp', houtcome⟩ := verdict ht.linked hhash hcall
    obtain rfl := hr.provenance_unique (ht.decided.1 hr') hp hp'
    rw [houtcome₀, houtcome, ht.lacks]
    exact noLower_of_said fun status hsaid => (ht.hasReported_iff hr hp status).2 (.inl hsaid)
  · intro s i i' o o' row₀ row u₀ u hearlier hcall₀ hcall hrequired hconsumed
    have hbefore := enforcement_past h s.db hearlier
    obtain ⟨r, p, hr, hp, houtcome₀⟩ := verdict hbefore.linked hhash hcall₀
    obtain ⟨r', p', hr', hp', houtcome⟩ := verdict hlinked hhash hcall
    have hstays : w.store.db.Decided decisionId r :=
      ⟨hbefore.grows.decision hr.1, hbefore.grows.intent hr.2⟩
    obtain rfl := hstays.provenance_unique hr' hp hp'
    have hlacks : w.store.db.lacksCapability decisionId p'.enforcementBindingId =
        s.db.lacksCapability decisionId p'.enforcementBindingId := by
      unfold Enforcement.lacksCapability
      rw [hrequired r _ hr hp, hconsumed]
    rw [houtcome₀, houtcome, hlacks]
    refine noLower_of_said fun status hsaid => ?_
    obtain ⟨q, hq, hsame⟩ := List.any_eq_true.1 hsaid
    exact List.any_eq_true.2 ⟨q, hbefore.grows.receipts hq, hsame⟩

end

/-! A payment that is taken up and then done, in either order. -/

/-- The calls are made by one process without a failure, each with what is new for it. -/
def submitAll (H : CapabilityHost) : List (Drawn × IntegrationIdentity × ReceiptRequest) →
    Records Enforcement Bool → Option (Records Enforcement Bool)
  | [], s => some s
  | (new, e) :: l, s =>
    (((enforcementSchema H true).schedule new).exec true 40 (submitExecutionReceipt H e.1 e.2) s).bind
      fun y => if y.1.toOption.isSome then submitAll H l y.2 else none

theorem submitAll_sound {H : CapabilityHost} {l : List (Drawn × IntegrationIdentity × ReceiptRequest)}
    {s t : Records Enforcement Bool} (h : submitAll H l s = some t) :
    AcceptsAll H s (l.map Prod.snd) t := by
  induction l generalizing s with
  | nil =>
    cases h
    exact .nil _
  | cons a l ih =>
    obtain ⟨⟨y, s'⟩, hexec, hrest⟩ := Option.bind_eq_some_iff.1 h
    cases y with
    | error e => simp [Except.toOption] at hrest
    | ok row => exact .cons true (Schedule.exec_sound hexec) (ih (by simpa [Except.toOption] using hrest))

def allowedPayment : World (RecordStatement EnforcementChange)
    (RecordStatement.Answer Enforcement Drawn) PyError (Records Enforcement Bool) Bool :=
  playEnforcement digestHost (fun _ _ => true)
    [(true, some reportingParties, 10), (true, some (decidedAs .allow), 10)]

def takenUp : ReceiptRequest := { successReceipt with status := "ACCEPTED" }

theorem receipts_in_any_order_payment : ∃ t row u,
    AcceptsAll digestHost allowedPayment.store
      [(adapterIdentity, takenUp), (adapterIdentity, successReceipt)] t ∧
    AcceptsInOrder digestHost allowedPayment.store
      [(adapterIdentity, successReceipt), (adapterIdentity, takenUp)] ∧
    Exec ((enforcementSchema digestHost true).machine Drawn Bool) false
      (reconcileDecision digestHost 7 9) t (.ok row) u ∧ row.outcome = .matched := by
  have hplay : (((submitAll digestHost [(⟨1, "n1", 0⟩, adapterIdentity, takenUp),
      (⟨2, "n2", 1⟩, adapterIdentity, successReceipt)] allowedPayment.store).bind fun t =>
        (((enforcementSchedule digestHost).exec false 30 (reconcileDecision digestHost 7 9) t).filter
          fun y => y.1.toOption.any fun row => row.outcome = .matched)).isSome) = true := by
    decide +kernel
  obtain ⟨⟨y, u⟩, hy⟩ := Option.isSome_iff_exists.1 hplay
  obtain ⟨t, ht, hreconcile⟩ := Option.bind_eq_some_iff.1 hy
  obtain ⟨hexec, hmatched⟩ := Option.filter_eq_some_iff.1 hreconcile
  have hl := submitAll_sound ht
  cases y with
  | error e => cases hmatched
  | ok row =>
    refine ⟨t, row, u, hl, ?_, Schedule.exec_sound hexec, of_decide_eq_true hmatched⟩
    refine ((receipts_in_any_order (playEnforcement_run _ _ _) digestHost_digests 9).1 _ _ t ?_
      (List.Perm.swap _ _ []) hl).1
    intro e he
    simp only [List.mem_cons, List.not_mem_nil, or_false] at he
    obtain rfl | rfl := he <;> rfl

end PayReality
