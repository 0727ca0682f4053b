import PayReality.Evidence.Verify

/-!
# Appending evidence

`append_evidence` and `append_generic_evidence_event` share a shape (`appendRow`): lock the
organization, look up the last record and the highest sequence, build and sign a payload that carries
the hash of the last record, and flush it. Neither commits.

Between the lock and the flush a payload is built by queries alone (`Quiet`), so what has been looked
up under the lock is still so at the flush.
-/

namespace PayReality

open Program

/-! ## The functions -/

/-- The arguments of `append_evidence`. -/
structure EvidenceArgs where
  decisionId : Uuid
  agent : Agent
  action : String
  amount : Option ℚ
  matchedMandates : List String
  outcome : Outcome
  status : EvidenceStatus
  resource : Option String := none
  currency : Option String := none
  /-- Without the enterprise system, which is looked up. -/
  details : EvidenceDetails := {}
  enterpriseSystemId : Option Uuid := none
  review : EvidenceReview := {}
  provenance : Option IntegrationProvenance := none

/-- The arguments of `append_generic_evidence_event`. -/
structure EventArgs where
  organizationId : Option Uuid
  decisionId : Uuid
  eventType : String
  eventPayload : List (String × Json)
  status : EvidenceStatus := .verified

namespace LedgerService

variable (H : EvidenceHost)

/-- `_lock_chain_scope`. -/
def lockChainScope : Option Uuid → LedgerService Unit
  | some o => lockOrganization o
  | none => pure ()

/-- What both functions do, around the payload that they build. -/
def appendRow (o : Option Uuid) (decisionId : Uuid) (status : EvidenceStatus)
    (payload : Option String → LedgerService Json) : LedgerService EvidenceRow := do
  lockChainScope o
  let v ← read
  let previousHash := previousChainHash H (chainOf v.evidence o)
  let v ← read
  let sequence := nextChainSequence (chainOf v.evidence o)
  let e ← sign (.evidence o decisionId) (← payload previousHash)
  let id ← uuid4
  -- the database fills in `created_at`
  let row : EvidenceRow :=
    { e with id, decisionId, status, organizationId := o, sequence := some sequence, createdAt := 0 }
  flushEvidence row
  return row

/-- `_resolve_authority_ids_for_mandates`, called where there are mandates. -/
def resolveAuthorityIds (mandateIds : List String) : LedgerService (List Uuid) :=
  if mandateIds = [] then pure []
  else do
    let v ← read
    return IntentService.resolveAuthorityIds v.db H.toPlatform mandateIds

/-- `db.get(EnterpriseSystem, id) if id else None`. -/
def getEnterpriseSystem : Option Uuid → LedgerService (Option EnterpriseSystem)
  | some id => do
    let v ← read
    return v.db.enterpriseSystem id
  | none => pure none

/-- The payload of `append_evidence`. -/
def evidencePayload (a : EvidenceArgs) (previousHash : Option String) : LedgerService Json := do
  let authorityIds ← resolveAuthorityIds H a.details.mandateIds
  let enterpriseSystem ← getEnterpriseSystem a.enterpriseSystemId
  let v ← read
  let recordedAt ← now
  return Evidence.buildEvidencePayload H.toPrinter
    { a.details with
      enterpriseSystem
      decisionId := a.decisionId
      agentId := a.agent.id
      action := a.action
      matchedMandateIds := a.matchedMandates.insertionSort (· ≤ ·)
      authorityOutcome := a.outcome
      riskClassification :=
        IntentService.riskClassification v.db H.toPlatform a.matchedMandates a.amount
      recordedAt
      previousHash
      amount := a.amount
      currency := a.currency
      resource := a.resource
      authorityIds
      resolvedBy := a.details.authorityContext.map fun _ => "runtime_authority_context" }
    a.review a.provenance

/-- `append_evidence`. -/
def appendEvidence (a : EvidenceArgs) : LedgerService EvidenceRow := do
  let v ← read
  appendRow H (IntentService.organizationOf v.db a.agent) a.decisionId a.status (evidencePayload H a)

/-- `append_generic_evidence_event`. -/
def appendGenericEvidenceEvent (a : EventArgs) : LedgerService EvidenceRow :=
  appendRow H a.organizationId a.decisionId a.status fun previousHash => do
    let recordedAt ← now
    return Evidence.genericPayload H.toPrinter a.eventPayload a.eventType a.decisionId recordedAt
      previousHash

/-! ## Transactions -/

/-- One of the two functions, with its arguments. -/
inductive Append where
  | evidence (a : EvidenceArgs)
  | event (a : EventArgs)

def Append.run : Append → LedgerService EvidenceRow
  | .evidence a => appendEvidence H a
  | .event a => appendGenericEvidenceEvent H a

def appendAll : List Append → LedgerService Unit
  | [] => pure ()
  | a :: as => do
    let _ ← a.run H
    appendAll as

/-- A transaction that appends, and then commits or rolls back. -/
def appendTransaction (appends : List Append) (commits : Bool) : LedgerService Unit :=
  withSession do
    appendAll H appends
    if commits then commit else rollback

/-- `_append_audit_event`, as far as the key is concerned. -/
def signAuditEvent (agentId : Uuid) (eventType : String) (actor : Option String) (details : Json) :
    LedgerService Unit := do
  let recordedAt ← now
  let _ ← sign .auditEvent
    (Evidence.auditPayload H.toPrinter agentId eventType actor details recordedAt)

/-- `issue_capability_token`, as far as the key is concerned. -/
def signCapability (c : CapabilityTokenPayload) : LedgerService Unit := do
  let _ ← sign .capability (Evidence.capabilityPayload H.toPrinter c)

/-- What goes on beside the sessions. -/
def environment : Set (LedgerService Unit) :=
  {p | (∃ db, p = Prog.send (LedgerStatement.elsewhere db)) ∨
    ∃ now, p = Prog.send (LedgerStatement.tick now)}

/-- Any transactions that append, and the environment. -/
def appending : Set (LedgerService Unit) :=
  {p | ∃ appends commits, p = appendTransaction H appends commits} ∪ environment

/-- Whatever signs with the evidence key. -/
def signing : Set (LedgerService Unit) :=
  appending H ∪ {p | (∃ agentId eventType actor details,
    p = signAuditEvent H agentId eventType actor details) ∨ ∃ c, p = signCapability H c}

end LedgerService

/-! ## Programs that only look things up -/

/-- The statement changes no row, takes no lock and signs nothing. -/
def LedgerStatement.quiet : LedgerStatement → Bool
  | .begin | .read | .now | .uuid4 | .queryOpa _ _ | .refresh => true
  | _ => false

/-- The program sends nothing but quiet statements, and what it returns satisfies `R`. -/
def Quiet {α : Type} (R : α → Prop) : LedgerService α → Prop
  | .ret a => R a
  | .raise _ => True
  | .call q k => q.quiet = true ∧ ∀ r, Quiet R (k r)

namespace Quiet

variable {α β : Type} {R R' : α → Prop} {p : LedgerService α}

theorem mono (h : Quiet R p) (hR : ∀ a, R a → R' a) : Quiet R' p := by
  induction p with
  | ret a => exact hR a h
  | raise e => trivial
  | call q k ih => exact ⟨h.1, fun r => ih r (h.2 r)⟩

theorem bind {f : α → LedgerService β} {R : β → Prop} (h : Quiet (fun a => Quiet R (f a)) p) :
    Quiet R (p >>= f) := by
  induction p with
  | ret a => exact h
  | raise e => trivial
  | call q k ih => exact ⟨h.1, fun r => ih r (h.2 r)⟩

theorem pure {a : α} (h : R a) : Quiet R (Pure.pure a) := h

/-- One quiet statement, whatever it answers. -/
theorem send {q : LedgerStatement} (hq : q.quiet = true) :
    Quiet (fun _ => True) (Prog.send (ε := PyError) q) := by
  refine ⟨hq, fun r => ?_⟩
  cases r <;> trivial

variable {ι : Type} [DecidableEq ι] {H : EvidenceHost} {L : Logic (ledgerMachine H ι)} {i : ι}
  {A : Ledger ι → Prop} {s : Ledger ι}

/-- A quiet program keeps whatever the others keep and quiet statements keep. -/
theorem wp (h : Quiet R p) (hs : A s) (hrely : ∀ {s t}, L.rely i s t → A s → A t)
    (hquiet : ∀ {q s r t}, q.quiet = true → Ledger.step H i q s r t → A s → A t)
    (hpre : ∀ {q s}, q.quiet = true → L.pre i q s) :
    Program.wp L i p (fun a t => R a ∧ A t) (fun _ t => A t) s := by
  induction p generalizing s with
  | ret a => exact ⟨h, hs⟩
  | raise e => exact hs
  | call q k ih =>
    intro t hst ht
    exact ⟨hpre h.1, fun r u hstep => ih r (h.2 r) (hquiet h.1 hstep (hrely hst hs))⟩

end Quiet

namespace LedgerService

variable {H : EvidenceHost}

/-- What a payload of evidence for a decision carries, behind a record with the given hash. -/
structure CarriesLink (H : EvidenceHost) (decisionId : Uuid) (previousHash : Option String)
    (payload : Json) : Prop where
  previousHash : payload.get? "previous_hash" = some (.ofText previousHash)
  decisionId : payload.get? "decision_id" = some (.str (H.uuidText decisionId))

theorem quiet_resolveAuthorityIds (mandateIds : List String) :
    Quiet (fun _ => True) (resolveAuthorityIds H mandateIds) := by
  unfold resolveAuthorityIds
  split
  · trivial
  · exact Quiet.bind ((Quiet.send rfl).mono fun _ _ => trivial)

theorem quiet_getEnterpriseSystem (id : Option Uuid) :
    Quiet (fun _ => True) (getEnterpriseSystem id) := by
  cases id with
  | none => trivial
  | some id => exact Quiet.bind ((Quiet.send rfl).mono fun _ _ => trivial)

theorem quiet_evidencePayload (a : EvidenceArgs) (previousHash : Option String) :
    Quiet (CarriesLink H a.decisionId previousHash) (evidencePayload H a previousHash) := by
  refine Quiet.bind ((quiet_resolveAuthorityIds _).mono fun authorityIds _ => ?_)
  refine Quiet.bind ((quiet_getEnterpriseSystem _).mono fun enterpriseSystem _ => ?_)
  refine Quiet.bind ((Quiet.send rfl).mono fun v _ => ?_)
  refine Quiet.bind ((Quiet.send rfl).mono fun recordedAt _ => ?_)
  exact ⟨Evidence.buildEvidencePayload_previousHash _ _ _ _,
    Evidence.buildEvidencePayload_decisionId _ _ _ _⟩

theorem quiet_eventPayload (a : EventArgs) (previousHash : Option String) :
    Quiet (CarriesLink H a.decisionId previousHash) (do
      let recordedAt ← now
      return Evidence.genericPayload H.toPrinter a.eventPayload a.eventType a.decisionId recordedAt
        previousHash) :=
  Quiet.bind ((Quiet.send rfl).mono fun _ _ =>
    ⟨Evidence.genericPayload_previousHash _ _ _ _ _ _,
      Evidence.genericPayload_decisionId _ _ _ _ _ _⟩)

end LedgerService

end PayReality
