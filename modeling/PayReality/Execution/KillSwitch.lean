import PayReality.Execution.EnforcementRuns
import PayReality.Integration.Submitting
import PayReality.Lib.Alone

/-!
# The kill switch of an organization

Every service call is one step here: it runs alone, in any state.

- What a submission records is of an agent whose organization is active, or is none that there is
  (`submitIntent_foreign`, `submitAttestedIntent_foreign`).
- What is issued, consumed or accepted is of an active organization (`Enforcement.Performs`).

**Main result** `kill_switch`: through none of the six entry points anything is recorded for an
organization that is not active.
-/

namespace PayReality

open Program LedgerService IntentService IntegrationRuntimeService

/-! ## Submissions -/

/-- The organization that an intent of the agent belongs to. -/
def Db.ownerOf (db : Db) (agentId : Uuid) : Option Uuid :=
  (db.agent agentId).bind fun a => organizationOf db a

/-- No intent is of the organization, and every decision is of one of the intents. -/
def Rows.Foreign (db : Db) (o : Uuid) (rows : Rows) : Prop :=
  (∀ i ∈ rows.intents, db.ownerOf i.agentId ≠ some o) ∧
    ∀ d ∈ rows.decisions, ∃ i ∈ rows.intents, i.id = d.intentId

section Submissions

variable {ι : Type} [DecidableEq ι] {H : OperationHost} {i : ι} {α β : Type}
  {db : Db} {o : Uuid} {c : Rows} {is : List IntentRow} {ds : List Decision} {s : Ledger ι}

/-- What is committed, and the intents and decisions that are flushed. -/
structure Ledger.Shows (i : ι) (c : Rows) (is : List IntentRow) (ds : List Decision)
    (s : Ledger ι) : Prop where
  committed : s.committed = c
  intents : (s.pending i).intents = is
  decisions : (s.pending i).decisions = ds

/-- Nothing has been committed but what is not of the organization. -/
def Ledger.Adds (db : Db) (o : Uuid) (c : Rows) (s : Ledger ι) : Prop :=
  ∃ rows, s.committed = c.append rows ∧ rows.Foreign db o

omit [DecidableEq ι] in
theorem Ledger.Shows.adds (h : s.Shows i c is ds) : s.Adds db o c :=
  ⟨{}, by rw [h.committed, Rows.append_empty], fun _ hi => (by cases hi), fun _ hd => (by cases hd)⟩

theorem Ledger.Shows.still {q : LedgerStatement} {r : Except PyError q.Answer} {t : Ledger ι}
    (h : s.Shows i c is ds) (hq : q.still = true) (hstep : Ledger.step H.toEvidenceHost i q s r t) :
    t.Shows i c is ds := by
  obtain ⟨hc, hp⟩ := Ledger.step_still hq hstep
  exact ⟨hc.trans h.committed, by rw [hp, h.intents], by rw [hp, h.decisions]⟩

/-- A part that inspects, and what follows it. -/
theorem alone_inspect {p : LedgerService α} {f : α → LedgerService β}
    {R : Except PyError β → Ledger ι → Prop} (hp : Inspects p) (hs : s.Shows i c is ds)
    (he : ∀ e t, t.Shows i c is ds → R (.error e) t)
    (hf : ∀ a t, t.Shows i c is ds → Alone (ledgerMachine H.toEvidenceHost ι) i (f a) R t) :
    Alone (ledgerMachine H.toEvidenceHost ι) i (p >>= f) R s := by
  refine alone_bind (P := fun _ t => t.Shows i c is ds) ?_ hf
  refine alone_mono (alone_keeps (hp.sends _) (fun q s r t hq hstep hI => hI.still hq hstep) hs) ?_
  exact fun x t ht => ⟨fun _ _ => ht, fun e _ => he e t ht⟩

theorem alone_flushDecision {row : Decision} {f : Unit → LedgerService β}
    {R : Except PyError β → Ledger ι → Prop} (hs : s.Shows i c is ds)
    (he : ∀ e t, t.Shows i c is ds → R (.error e) t)
    (hf : ∀ t, t.Shows i c is (ds ++ [row]) → Alone (ledgerMachine H.toEvidenceHost ι) i (f ()) R t) :
    Alone (ledgerMachine H.toEvidenceHost ι) i (flushDecision row >>= f) R s := by
  intro r t hstep
  rcases Ledger.Flushes.cases hstep with ⟨rfl, rfl⟩ | ⟨rfl, rfl, -⟩ | ⟨rfl, rfl⟩
  · refine hf _ ⟨hs.committed, ?_, ?_⟩
    · rw [Ledger.addPending_pending, if_pos rfl, Rows.append, hs.intents, List.append_nil]
    · rw [Ledger.addPending_pending, if_pos rfl, Rows.append, hs.decisions]
  · exact he _ _ hs
  · exact he _ _ hs

theorem alone_flushIntent {row : IntentRow} {R : Except PyError Unit → Ledger ι → Prop}
    (hs : s.Shows i c is ds) (he : ∀ e, R (.error e) s)
    (hf : ∀ t, t.Shows i c (is ++ [row]) ds → R (.ok ()) t) :
    Alone (ledgerMachine H.toEvidenceHost ι) i (flushIntent row) R s := by
  intro r t hstep
  rcases Ledger.Flushes.cases hstep with ⟨rfl, rfl⟩ | ⟨rfl, rfl, -⟩ | ⟨rfl, rfl⟩
  · refine hf _ ⟨hs.committed, ?_, ?_⟩
    · rw [Ledger.addPending_pending, if_pos rfl, Rows.append, hs.intents]
    · rw [Ledger.addPending_pending, if_pos rfl, Rows.append, hs.decisions, List.append_nil]
  · exact he _
  · exact he _

/-- The evidence of a decision. -/
theorem alone_appendEvidence {a : EvidenceArgs} {f : EvidenceRow → LedgerService β}
    {R : Except PyError β → Ledger ι → Prop} (hs : s.Shows i c is ds)
    (he : ∀ e t, t.Shows i c is ds → R (.error e) t)
    (hf : ∀ row t, t.Shows i c is ds → Alone (ledgerMachine H.toEvidenceHost ι) i (f row) R t) :
    Alone (ledgerMachine H.toEvidenceHost ι) i (appendEvidence H.toEvidenceHost a >>= f) R s := by
  refine alone_bind (P := fun _ t => t.Shows i c is ds) ?_ hf
  have herror : ∀ e t, t.Shows i c is ds →
      (∀ row, (Except.error e : Except PyError EvidenceRow) = .ok row → t.Shows i c is ds) ∧
        ∀ e', (Except.error e : Except PyError EvidenceRow) = .error e' → R (.error e') t :=
    fun e t ht => ⟨fun _ h => (by cases h), fun e' _ => he e' t ht⟩
  refine alone_inspect (Inspects.send rfl) hs herror fun v s hs => ?_
  refine alone_inspect (Inspects.lockChainScope _) hs herror fun _ s hs => ?_
  refine alone_inspect (Inspects.send rfl) hs herror fun v' s hs => ?_
  refine alone_inspect (Inspects.send rfl) hs herror fun v'' s hs => ?_
  refine alone_inspect (Inspects.evidencePayload a _) hs herror fun payload s hs => ?_
  refine alone_inspect (Inspects.send rfl) hs herror fun e s hs => ?_
  refine alone_inspect (Inspects.send rfl) hs herror fun id s hs => ?_
  intro r t hstep
  rcases Ledger.Flushes.cases hstep with ⟨rfl, rfl⟩ | ⟨rfl, rfl, -⟩ | ⟨rfl, rfl⟩
  · refine ⟨fun _ _ => ⟨hs.committed, ?_, ?_⟩, fun e h => (by cases h)⟩
    · simp [Ledger.addPending_pending, Rows.append, hs.intents]
    · simp [Ledger.addPending_pending, Rows.append, hs.decisions]
  · exact herror _ _ hs
  · exact herror _ _ hs

/-- The commit of rows that are not of the organization, and what only reads after it. -/
theorem alone_commit {f : Unit → LedgerService β} (hs : s.Shows i c is ds)
    (hforeign : Rows.Foreign db o ⟨is, ds, []⟩) (hf : Inspects (f ())) :
    Alone (ledgerMachine H.toEvidenceHost ι) i (commit >>= f) (fun _ t => t.Adds db o c) s := by
  intro r t hstep
  rcases hstep with ⟨rfl, rfl⟩ | ⟨rfl, rfl⟩
  · have hadds : (s.close i (s.committed.append (s.pending i))).Adds db o c := by
      refine ⟨s.pending i, by rw [Ledger.close_committed, hs.committed], ?_, ?_⟩
      · rw [hs.intents]
        exact hforeign.1
      · rw [hs.intents, hs.decisions]
        exact hforeign.2
    refine alone_keeps (I := fun t : Ledger ι => t.Adds db o c) (hf.sends _) ?_ hadds
    rintro q s r t hq hstep ⟨rows, hrows, hforeign⟩
    exact ⟨rows, (Ledger.step_still hq hstep).1.trans hrows, hforeign⟩
  · exact hs.adds

/-- A decision of a flushed intent, its evidence, and the commit. -/
theorem alone_record {row : IntentRow} {decision : Decision} {a : EvidenceArgs}
    (hrow : db.ownerOf row.agentId ≠ some o) (hid : decision.intentId = row.id)
    (hs : s.Shows i c [row] []) :
    Alone (ledgerMachine H.toEvidenceHost ι) i (do
      flushDecision decision
      let evidence ← appendEvidence H.toEvidenceHost a
      commit
      refresh
      refresh
      return (decision, evidence)) (fun _ t => t.Adds db o c) s := by
  refine alone_flushDecision hs (fun _ _ ht => ht.adds) fun t ht => ?_
  refine alone_appendEvidence ht (fun _ _ ht => ht.adds) fun evidence t ht => ?_
  refine alone_commit ht ⟨fun j hj => ?_, fun d hd => ⟨row, List.mem_singleton_self row, ?_⟩⟩ ?_
  · rw [List.mem_singleton.1 hj]
    exact hrow
  · rw [List.mem_singleton.1 hd]
    exact hid.symm
  · exact Inspects.bind (Inspects.send rfl) fun _ =>
      Inspects.bind (Inspects.send rfl) fun _ => Inspects.pure _

theorem alone_recordUnevaluated {row : IntentRow} {intent : Intent} {agent : Agent} {reason : String}
    (hrow : db.ownerOf row.agentId ≠ some o) (hid : intent.id = row.id) (hs : s.Shows i c [row] []) :
    Alone (ledgerMachine H.toEvidenceHost ι) i (recordUnevaluated H intent agent reason)
      (fun _ t => t.Adds db o c) s :=
  alone_inspect (Inspects.send rfl) hs (fun _ _ ht => ht.adds) fun _ _ ht =>
    alone_inspect (Inspects.send rfl) ht (fun _ _ ht => ht.adds) fun _ _ ht => alone_record hrow hid ht

theorem alone_evaluateAndRecord {row : IntentRow} {intent : Intent} {agent : Agent}
    {provenance : Option IntegrationProvenance} (hrow : db.ownerOf row.agentId ≠ some o)
    (hid : intent.id = row.id) (hs : s.Shows i c [row] []) :
    Alone (ledgerMachine H.toEvidenceHost ι) i (evaluateAndRecord H intent agent provenance)
      (fun _ t => t.Adds db o c) s := by
  have herror : ∀ (e : PyError) (t : Ledger ι), t.Shows i c [row] [] → t.Adds db o c :=
    fun _ _ ht => ht.adds
  refine alone_inspect (Inspects.resolveTruth _ _) hs herror fun truth s hs => ?_
  refine alone_inspect (Inspects.resolveFacts _ _) hs herror fun facts s hs => ?_
  refine alone_inspect (Inspects.evaluate _ _ _ _) hs herror fun d s hs => ?_
  refine alone_inspect (Inspects.lift (RaisesPlain.policyKeysOf _)) hs herror fun keys s hs => ?_
  refine alone_inspect (Inspects.send rfl) hs herror fun v s hs => ?_
  refine alone_inspect (Inspects.send rfl) hs herror fun v' s hs => ?_
  refine alone_inspect (Inspects.finalOutcome _ _) hs herror fun result s hs => ?_
  refine alone_inspect (Inspects.send rfl) hs herror fun id s hs => ?_
  refine alone_inspect (Inspects.send rfl) hs herror fun now s hs => ?_
  exact alone_record hrow hid hs

/-- The flush of the only intent, and what follows it. -/
theorem alone_tryFlushIntent {row : IntentRow} {f : Bool → LedgerService β}
    (hs : s.Shows i c [] [])
    (hf : ∀ t, t.Shows i c [row] [] →
      Alone (ledgerMachine H.toEvidenceHost ι) i (f true) (fun _ t => t.Adds db o c) t)
    (hf' : ∀ t, t.Shows i c [] [] →
      Alone (ledgerMachine H.toEvidenceHost ι) i (f false) (fun _ t => t.Adds db o c) t) :
    Alone (ledgerMachine H.toEvidenceHost ι) i (tryFlushIntent row >>= f)
      (fun _ t => t.Adds db o c) s := by
  refine alone_bind (P := fun b t => t.Shows i c (if b then [row] else []) []) ?_ ?_
  · refine alone_tryCatch (E := fun _ t => t.Shows i c [] []) ?_ ?_
    · refine alone_bind (P := fun _ t => t.Shows i c [row] []) (alone_flushIntent hs ?_ ?_) ?_
      · exact fun e => ⟨fun _ h => (by cases h), fun _ _ => ⟨fun _ h => (by cases h), fun _ _ => hs⟩⟩
      · exact fun t ht => ⟨fun _ _ => ht, fun _ h => (by cases h)⟩
      · refine fun _ t ht => ⟨fun b hb => ⟨fun b' hb' => ?_, fun _ h => (by cases h)⟩, fun _ h => (by cases h)⟩
        cases hb
        cases hb'
        exact ht
    · intro e t ht
      split
      · rintro r u ⟨rfl, rfl⟩
        refine ⟨fun b hb => ?_, fun _ h => (by cases h)⟩
        cases hb
        refine ⟨ht.committed, ?_, ?_⟩
        · rw [Ledger.close_pending, if_pos rfl]
          rfl
        · rw [Ledger.close_pending, if_pos rfl]
      · exact ⟨fun _ h => (by cases h), fun _ _ => ht.adds⟩
  · intro b t ht
    cases b with
    | true => exact hf t ht
    | false => exact hf' t ht

/-! ### The organization -/

/-- The organization is there, and is not active. -/
def Db.Stopped (db : Db) (o : Uuid) : Prop := ∃ r, db.organization o = some r ∧ r.status ≠ .active

/-- A reading of the database, and what follows it. -/
theorem alone_read {f : Snapshot → LedgerService β} {R : Except PyError β → Ledger ι → Prop}
    (hs : s.Shows i c is ds) (hdb : s.db = db) (he : ∀ e t, t.Shows i c is ds → R (.error e) t)
    (hf : ∀ v t, t.Shows i c is ds → t.db = db → v.db = db →
      Alone (ledgerMachine H.toEvidenceHost ι) i (f v) R t) :
    Alone (ledgerMachine H.toEvidenceHost ι) i (read >>= f) R s := by
  intro r t hstep
  have ht : t.Shows i c is ds := Ledger.Shows.still (H := H) hs (q := .read) rfl hstep
  rcases hstep with ⟨rfl, rfl⟩ | ⟨rfl, rfl⟩
  · exact hf _ _ ht hdb hdb
  · exact he _ _ hs

/-- The check of the organization, and what follows it. -/
theorem alone_ensureActive {f : Unit → LedgerService β} {R : Except PyError β → Ledger ι → Prop}
    {organizationId : Option Uuid} {error : OrganizationStatus → PyError} (ho : db.Stopped o)
    (hs : s.Shows i c is ds) (hdb : s.db = db) (he : ∀ e t, t.Shows i c is ds → R (.error e) t)
    (hf : ∀ t, t.Shows i c is ds → t.db = db → organizationId ≠ some o →
      Alone (ledgerMachine H.toEvidenceHost ι) i (f ()) R t) :
    Alone (ledgerMachine H.toEvidenceHost ι) i (ensureActive organizationId error >>= f) R s := by
  refine alone_bind (P := fun _ t => t.Shows i c is ds ∧ t.db = db ∧ organizationId ≠ some o) ?_
    fun _ t ht => hf t ht.1 ht.2.1 ht.2.2
  have herror : ∀ e t, t.Shows i c is ds →
      (∀ a, (Except.error e : Except PyError Unit) = .ok a →
        t.Shows i c is ds ∧ t.db = db ∧ organizationId ≠ some o) ∧
        ∀ e', (Except.error e : Except PyError Unit) = .error e' → R (.error e') t :=
    fun e t ht => ⟨fun _ h => (by cases h), fun e' _ => he e' t ht⟩
  cases organizationId with
  | none => exact ⟨fun _ _ => ⟨hs, hdb, by simp⟩, fun _ h => (by cases h)⟩
  | some id =>
    refine alone_read hs hdb herror fun v t ht htdb hv => ?_
    rw [hv]
    obtain ⟨r, hr, hstatus⟩ := ho
    split
    · next hnone =>
      refine ⟨fun _ _ => ⟨ht, htdb, fun heq => ?_⟩, fun _ h => (by cases h)⟩
      rw [Option.some.inj heq, hr] at hnone
      cases hnone
    · next r' hr' =>
      split
      · next hactive =>
        refine ⟨fun _ _ => ⟨ht, htdb, fun heq => ?_⟩, fun _ h => (by cases h)⟩
        rw [Option.some.inj heq, hr] at hr'
        exact hstatus (Option.some.inj hr' ▸ hactive)
      · exact herror _ _ ht

/-- A check that raises. -/
theorem alone_guard {p : Prop} [Decidable p] {e : PyError} {f : Unit → LedgerService β}
    {R : Except PyError β → Ledger ι → Prop} (he : R (.error e) s)
    (h : Alone (ledgerMachine H.toEvidenceHost ι) i (f ()) R s) :
    Alone (ledgerMachine H.toEvidenceHost ι) i (if p then throw e >>= f else f ()) R s := by
  split
  · exact he
  · exact h

/-- A computation that sends nothing, and what follows it. -/
theorem alone_lift {x : Except PyError α} {f : α → LedgerService β}
    {R : Except PyError β → Ledger ι → Prop} (he : ∀ e, R (.error e) s)
    (hf : ∀ a, Alone (ledgerMachine H.toEvidenceHost ι) i (f a) R s) :
    Alone (ledgerMachine H.toEvidenceHost ι) i (lift x >>= f) R s := by
  cases x with
  | ok a => exact hf a
  | error e => exact he e

/-- The decision and its evidence are returned beside the intent. -/
theorem alone_answer {p : LedgerService (Decision × EvidenceRow)}
    {f : Decision × EvidenceRow → Submitted}
    (h : Alone (ledgerMachine H.toEvidenceHost ι) i p (fun _ t => t.Adds db o c) s) :
    Alone (ledgerMachine H.toEvidenceHost ι) i (p >>= fun x => pure (f x))
      (fun _ t => t.Adds db o c) s := by
  refine alone_bind (P := fun _ t => t.Adds db o c) (alone_mono h ?_) fun _ _ ht => ht
  exact fun x t ht => ⟨fun _ _ => ht, fun _ _ => ht⟩

/-! ### The two entry points -/

/-- **What `submit_intent` records is not of a stopped organization.** The agent is the one of the
database. -/
theorem submitIntent_foreign {agent : Agent} {req : IntentRequest} (ho : s.db.Stopped o)
    (hagent : s.db.agent agent.id = some agent) (hidle : s.pending i = {}) :
    Alone (ledgerMachine H.toEvidenceHost ι) i (LedgerService.submitIntent H agent req)
      (fun _ t => t.Adds s.db o s.committed) s := by
  have hs : s.Shows i s.committed [] [] := ⟨rfl, by rw [hidle], by rw [hidle]⟩
  have herror : ∀ (e : PyError) (t : Ledger ι), t.Shows i s.committed [] [] →
      t.Adds s.db o s.committed := fun _ _ ht => ht.adds
  unfold LedgerService.submitIntent
  refine alone_guard hs.adds ?_
  refine alone_guard hs.adds ?_
  refine alone_guard hs.adds ?_
  refine alone_read hs rfl herror fun v t ht hdb hv => ?_
  refine alone_ensureActive ho ht hdb herror fun t ht hdb howner => ?_
  have hforeign : s.db.ownerOf agent.id ≠ some o := by
    unfold Db.ownerOf
    rw [hagent, Option.bind_some, ← hv]
    exact howner
  refine alone_inspect (Inspects.send rfl) ht herror fun id t ht => ?_
  refine alone_tryFlushIntent ht (fun t ht => ?_) fun t ht => ht.adds
  have herror : ∀ (e : PyError) (t : Ledger ι),
      t.Shows i s.committed [{ stored H (agentIntent id agent req) with }] [] →
        t.Adds s.db o s.committed := fun _ _ ht => ht.adds
  show Alone _ _ (if agent.status = .suspended then _ else _) _ _
  split
  · exact alone_answer (alone_recordUnevaluated hforeign rfl ht)
  · refine alone_inspect (Inspects.send rfl) ht herror fun v t ht => ?_
    refine alone_inspect (Inspects.send rfl) ht herror fun v' t ht => ?_
    show Alone _ _ (if _ then _ else _) _ _
    split
    · exact alone_answer (alone_recordUnevaluated hforeign rfl ht)
    · exact alone_answer (alone_evaluateAndRecord hforeign rfl ht)

/-- The agent of an attested request is of the organization of the identity. -/
theorem alone_resolveOriginAgent {agentId organizationId bindingId : Uuid}
    {f : Agent → LedgerService β} {R : Except PyError β → Ledger ι → Prop}
    (ho : organizationId ≠ o) (hs : s.Shows i c is ds) (hdb : s.db = db)
    (he : ∀ e t, t.Shows i c is ds → R (.error e) t)
    (hf : ∀ agent t, t.Shows i c is ds → t.db = db → db.ownerOf agent.id ≠ some o →
      Alone (ledgerMachine H.toEvidenceHost ι) i (f agent) R t) :
    Alone (ledgerMachine H.toEvidenceHost ι) i
      (resolveOriginAgent agentId organizationId bindingId >>= f) R s := by
  refine alone_bind (P := fun agent t => t.Shows i c is ds ∧ t.db = db ∧
    db.ownerOf agent.id ≠ some o) ?_ fun agent t ht => hf agent t ht.1 ht.2.1 ht.2.2
  have herror : ∀ e t, t.Shows i c is ds →
      (∀ a, (Except.error e : Except PyError Agent) = .ok a →
        t.Shows i c is ds ∧ t.db = db ∧ db.ownerOf a.id ≠ some o) ∧
        ∀ e', (Except.error e : Except PyError Agent) = .error e' → R (.error e') t :=
    fun e t ht => ⟨fun _ h => (by cases h), fun e' _ => he e' t ht⟩
  refine alone_read hs hdb herror fun v t ht hdb hv => ?_
  rw [hv]
  split
  · exact herror _ _ ht
  · next agent hagent =>
    refine alone_read ht hdb herror fun v t ht hdb hv => ?_
    rw [hv]
    split
    · exact herror _ _ ht
    · next horganization =>
      split
      · exact herror _ _ ht
      · refine alone_read ht hdb herror fun v t ht hdb hv => ?_
        split
        · refine ⟨fun a ha => ⟨ht, hdb, fun howner => ?_⟩, fun _ h => (by cases h)⟩
          cases ha
          have hid : agent.id = agentId := by simpa using List.find?_some hagent
          rw [Db.ownerOf, hid, hagent, Option.bind_some, IntentService.organizationOf] at howner
          rw [not_not.1 horganization] at howner
          exact ho (Option.some.inj howner)
        · exact herror _ _ ht

/-- The binding of an attested request. -/
theorem alone_resolveActiveBinding {bindingId organizationId identityId : Uuid}
    {f : EnforcementBinding → LedgerService β} {R : Except PyError β → Ledger ι → Prop}
    (hs : s.Shows i c is ds) (hdb : s.db = db) (he : ∀ e t, t.Shows i c is ds → R (.error e) t)
    (hf : ∀ b t, t.Shows i c is ds → t.db = db →
      Alone (ledgerMachine H.toEvidenceHost ι) i (f b) R t) :
    Alone (ledgerMachine H.toEvidenceHost ι) i
      (resolveActiveBinding bindingId organizationId identityId >>= f) R s := by
  refine alone_bind (P := fun _ t => t.Shows i c is ds ∧ t.db = db) ?_
    fun b t ht => hf b t ht.1 ht.2
  have herror : ∀ e t, t.Shows i c is ds →
      (∀ b, (Except.error e : Except PyError EnforcementBinding) = .ok b →
        t.Shows i c is ds ∧ t.db = db) ∧
        ∀ e', (Except.error e : Except PyError EnforcementBinding) = .error e' → R (.error e') t :=
    fun e t ht => ⟨fun _ h => (by cases h), fun e' _ => he e' t ht⟩
  refine alone_read hs hdb herror fun v t ht hdb hv => ?_
  split
  · exact herror _ _ ht
  · split
    · exact herror _ _ ht
    · split
      · exact herror _ _ ht
      · exact ⟨fun _ _ => ⟨ht, hdb⟩, fun _ h => (by cases h)⟩

/-- What is attested is not of a stopped organization. -/
theorem alone_attest {identity : IntegrationIdentity} {req : AttestedRequest}
    {f : Attested → LedgerService β} {R : Except PyError β → Ledger ι → Prop} (ho : db.Stopped o)
    (hs : s.Shows i c is ds) (hdb : s.db = db) (he : ∀ e t, t.Shows i c is ds → R (.error e) t)
    (hf : ∀ a t, t.Shows i c is ds → db.ownerOf a.agent.id ≠ some o →
      Alone (ledgerMachine H.toEvidenceHost ι) i (f a) R t) :
    Alone (ledgerMachine H.toEvidenceHost ι) i (attest H identity req >>= f) R s := by
  refine alone_bind (P := fun a t => t.Shows i c is ds ∧ db.ownerOf a.agent.id ≠ some o) ?_
    fun a t ht => hf a t ht.1 ht.2
  have herror : ∀ e t, t.Shows i c is ds →
      (∀ a, (Except.error e : Except PyError Attested) = .ok a →
        t.Shows i c is ds ∧ db.ownerOf a.agent.id ≠ some o) ∧
        ∀ e', (Except.error e : Except PyError Attested) = .error e' → R (.error e') t :=
    fun e t ht => ⟨fun _ h => (by cases h), fun e' _ => he e' t ht⟩
  refine alone_lift (fun e => herror e _ hs) fun _ => ?_
  refine alone_ensureActive ho hs hdb herror fun t ht hdb horganization => ?_
  refine alone_resolveActiveBinding ht hdb herror fun binding t ht hdb => ?_
  refine alone_resolveOriginAgent (fun h => horganization (congrArg some h)) ht hdb herror
    fun agent t ht hdb howner => ?_
  refine alone_inspect (Inspects.resolveContractVersion _ _) ht herror fun contract t ht => ?_
  refine alone_lift (fun e => herror e _ ht) fun _ => ?_
  refine alone_lift (fun e => herror e _ ht) fun fingerprint => ?_
  exact ⟨fun a ha => (by cases ha; exact ⟨ht, howner⟩), fun _ h => (by cases h)⟩

/-- An earlier submission of the operation is only read. -/
theorem alone_resolveExistingOrConflict {existing : IntentRow} {fingerprint : String}
    (hs : s.Shows i c is ds) :
    Alone (ledgerMachine H.toEvidenceHost ι) i (resolveExistingOrConflict existing fingerprint)
      (fun _ t => t.Adds db o c) s := by
  have hP : Queries (fun _ => True) fun q => q.still = true :=
    fun q hq _ => LedgerStatement.still_of_quiet hq
  refine alone_mono (alone_keeps (I := fun t : Ledger ι => t.Shows i c is ds)
    (sends_resolveExistingOrConflict hP existing fingerprint)
    (fun _ _ _ _ hq hstep hI => hI.still hq hstep) hs) ?_
  exact fun _ _ ht => ht.adds

/-- **What `submit_attested_intent` records is not of a stopped organization.** -/
theorem submitAttestedIntent_foreign {identity : IntegrationIdentity} {req : AttestedRequest}
    (ho : s.db.Stopped o) (hidle : s.pending i = {}) :
    Alone (ledgerMachine H.toEvidenceHost ι) i (submitAttestedIntent H identity req)
      (fun _ t => t.Adds s.db o s.committed) s := by
  have hs : s.Shows i s.committed [] [] := ⟨rfl, by rw [hidle], by rw [hidle]⟩
  have herror : ∀ (e : PyError) (t : Ledger ι), t.Shows i s.committed [] [] →
      t.Adds s.db o s.committed := fun _ _ ht => ht.adds
  refine alone_attest ho hs rfl herror fun a t ht howner => ?_
  refine alone_inspect (Inspects.send rfl) ht herror fun v t ht => ?_
  split
  · exact alone_resolveExistingOrConflict ht
  · refine alone_lift (fun e => ht.adds) fun canonical => ?_
    refine alone_lift (fun e => ht.adds) fun digest => ?_
    refine alone_inspect (Inspects.send rfl) ht herror fun id t ht => ?_
    refine alone_tryFlushIntent ht (fun t ht => ?_) fun t ht => ?_
    · exact alone_answer (alone_evaluateAndRecord howner rfl ht)
    · refine alone_inspect (Inspects.send rfl) ht herror fun v t ht => ?_
      split
      · exact alone_resolveExistingOrConflict ht
      · exact ht.adds

end Submissions

/-! ## Capabilities and receipts -/

namespace Enforcement

variable {d d₀ : Enforcement} {o : Uuid}

/-- The organization is there, and is not active. -/
def Stopped (d : Enforcement) (o : Uuid) : Prop :=
  ∃ r, d.organization o = some r ∧ r.status ≠ .active

/-- Nothing has been submitted, and the organization's capabilities and receipts are what they were:
none is new, and no capability has been consumed. -/
structure Spared (o : Uuid) (d d' : Enforcement) : Prop where
  organizations : d'.organizations = d.organizations
  intents : d'.intents = d.intents
  decisions : d'.decisions = d.decisions
  capabilities : (d'.capabilities.filter fun c => c.organizationId = o) =
    d.capabilities.filter fun c => c.organizationId = o
  receipts : (d'.receipts.filter fun r => r.organizationId = o) =
    d.receipts.filter fun r => r.organizationId = o

theorem Spared.refl (o : Uuid) (d : Enforcement) : Spared o d d := ⟨rfl, rfl, rfl, rfl, rfl⟩

theorem Stopped.organizationActive (h : d.Stopped o) : d.organizationActive o = false := by
  obtain ⟨r, hr, hstatus⟩ := h
  unfold Enforcement.organizationActive
  rw [hr]
  simpa using hstatus

theorem Stopped.organizationNotInactive (h : d.Stopped o) : d.organizationNotInactive o = false := by
  obtain ⟨r, hr, hstatus⟩ := h
  unfold Enforcement.organizationNotInactive
  rw [hr]
  simpa using hstatus

/-- A row of another owner is not seen among the owner's. -/
theorem filter_append_of_ne {α : Type} {owner : α → Uuid} {rows : List α} {row : α}
    (h : owner row ≠ o) :
    ((rows ++ [row]).filter fun r => owner r = o) = rows.filter fun r => owner r = o := by
  simp [List.filter_append, h]

/-- **A change whose checks hold spares a stopped organization.** -/
theorem Spared.step {H : CapabilityHost} (ho : d₀.Stopped o) {w : EnforcementChange}
    (h : Spared o d₀ d) (hadmits : d.admitted = true)
    (hchecks : ∀ c ∈ w.checks H false, c d = true) : Spared o d₀ (w.apply d) := by
  have hstopped : d.Stopped o := by
    unfold Stopped organization
    rw [h.organizations]
    exact ho
  cases w with
  | issue row reviewed =>
    refine { h with capabilities := (filter_append_of_ne fun howner => ?_).trans h.capabilities }
    have hactive : d.organizationActive row.organizationId = true := hchecks _ List.mem_cons_self
    rw [howner, hstopped.organizationActive] at hactive
    cases hactive
  | consume id p now =>
    simp only [EnforcementChange.checks, List.forall_mem_cons] at hchecks
    obtain ⟨hcapability, -, -, horganization, -⟩ := hchecks
    obtain ⟨c, hc, hrow⟩ := (Option.any_eq_true _ _).1 hcapability
    refine { h with capabilities := (Rows.filter_update fun r hr hid => ?_).trans h.capabilities }
    -- the id is a primary key, so the row is the one that was checked
    have hget : d.capability r.id = some r := Rows.get_of_mem (capabilityIds_nodup hadmits) hr
    rw [hid, hc] at hget
    obtain rfl := Option.some.inj hget
    have howner : c.organizationId ≠ o := by
      rw [(of_decide_eq_true hrow).1]
      rintro rfl
      rw [hstopped.organizationActive] at horganization
      cases horganization
    exact ⟨decide_eq_false howner, decide_eq_false howner⟩
  | accept row intentId event =>
    refine { h with receipts := (filter_append_of_ne fun howner => ?_).trans h.receipts }
    have hactive : d.organizationNotInactive row.organizationId = true :=
      hchecks _ List.mem_cons_self
    rw [howner, hstopped.organizationNotInactive] at hactive
    cases hactive
  | resolve row event => exact { h with }
  | reconcile row event => exact { h with }
  | setAssurance bindingId assurance => exact { h with }
  | submitted intents decisions evidence => exact absurd (hchecks _ List.mem_cons_self) (by simp)
  | elsewhere organizations principals agents identities bindings =>
    exact absurd (hchecks _ List.mem_cons_self) (by simp)

end Enforcement

/-- A capability is issued or consumed, or a receipt is submitted. -/
def EnforcementRequest.enforces : EnforcementRequest → Bool
  | .issue .. | .issueReviewed .. | .consume .. | .submitReceipt .. => true
  | _ => false

section

variable {ι : Type} [DecidableEq ι] {H : CapabilityHost} {i : ι} {o : Uuid}

/-- What the four requests commit is checked, and is no other operation's. -/
theorem enforces_checks {r : EnforcementRequest} (h : r.enforces = true) :
    Checks (enforcementSchema H false) (r.run H) := by
  cases r with
  | issue organizationId decisionId audience ttl =>
    exact checks_session (vetted_issueCapabilityForDecision organizationId decisionId audience ttl)
  | issueReviewed organizationId decisionId audience ttl =>
    exact checks_session
      (vetted_issueCapabilityForReviewedDecision organizationId decisionId audience ttl)
  | consume token e => exact checks_session (vetted_verifyAndConsumeCapability token e)
  | submitReceipt identity req =>
    exact checks_session (ExecutionReceiptService.vetted_submitExecutionReceipt identity req)
  | resolve | reconcile | setAssurance | submit | elsewhere => cases h

/-- **Capabilities and receipts** of a stopped organization are neither made nor consumed. -/
theorem enforces_spared {r : EnforcementRequest} (hr : r.enforces = true)
    {s : Records Enforcement ι} (hadmits : s.db.admitted = true) (ho : s.db.Stopped o)
    (hidle : s.seen i = []) :
    Alone ((enforcementSchema H true).machine Drawn ι) i (r.run H)
      (fun _ t => s.db.Spared o t.db) s := by
  refine Checked.alone (S := enforcementSchema H false) (J := fun d => Enforcement.Spared o s.db d)
    (R := fun _ seen => seen = []) (E := fun _ seen => seen = []) ?_ ?_ ?_ hadmits
    (Enforcement.Spared.refl o s.db)
  · exact fun w d hd hd' hw _ => hd.step ho hd' hw
  · rw [hidle]
    exact enforces_checks hr
  · rw [hidle]
    exact fun d hd => (by cases hd)

/-- **The kill switch.** Whatever there is besides, a call that runs while the organization is not
active leaves nothing new of it: no intent, decision, capability or receipt, and no capability
consumed. -/
theorem kill_switch {l : Ledger ι} {s : Records Enforcement ι} (hl : l.db.Stopped o)
    (hpending : l.pending i = {}) (hadmits : s.db.admitted = true) (hs : s.db.Stopped o)
    (hidle : s.seen i = []) :
    (∀ agent req, l.db.agent agent.id = some agent →
      Alone (ledgerMachine H.toEvidenceHost ι) i (LedgerService.submitIntent H.toOperationHost agent req)
        (fun _ t => t.Adds l.db o l.committed) l) ∧
    (∀ identity req,
      Alone (ledgerMachine H.toEvidenceHost ι) i
        (submitAttestedIntent H.toOperationHost identity req)
        (fun _ t => t.Adds l.db o l.committed) l) ∧
    ∀ r : EnforcementRequest, r.enforces = true →
      Alone ((enforcementSchema H true).machine Drawn ι) i (r.run H)
        (fun _ t => Enforcement.Spared o s.db t.db) s :=
  ⟨fun _ _ hagent => submitIntent_foreign hl hagent hpending,
    fun _ _ => submitAttestedIntent_foreign hl hpending,
    fun _ hr => enforces_spared hr hadmits hs hidle⟩

end

/-! ### A token that is out when the organization is deactivated -/

def deactivatedOrganization : Organization := ⟨7, "org", .deactivated, .production⟩

def deactivatedLedger : Ledger Bool :=
  { adapterLedger with db := { adapterDb with organizations := [deactivatedOrganization] } }

/-- A token is out for the decision 8; the organization has this status. -/
def outstanding (status : OrganizationStatus) : Enforcement where
  organizations := [⟨7, "org", status, .production⟩]
  principals := [{ id := 1, name := "principal", organizationId := some 7 }]
  agents := [⟨2, 1, .active⟩]
  intents := [CapabilityService.paymentIntent [("risk", .int 1)]]
  decisions :=
    [{ id := 8, intentId := 1, policyId := none, outcome := .allow, reason := .null,
       evaluatedMandates := .null, createdAt := 0 }]
  capabilities := [⟨4, 7, 8, "t", "t", 300, none, none, none⟩]

/-- The host that reads the token. -/
def outstandingHost : CapabilityHost := CapabilityService.readingHost CapabilityService.paymentPayload

/-- The presentation with which the token verifies. -/
def outstandingRequest : EnforcementRequest :=
  .consume "t" (CapabilityService.presentedAs
    [("amount", .str "48000.00"), ("currency", .str "EUR"), ("risk", .str "1")])

/-- The token is consumed while the organization is active, and not once it is deactivated. -/
theorem kill_switch_outstanding :
    Alone (ledgerMachine outstandingHost.toEvidenceHost Bool) true
        (submitAttestedIntent outstandingHost.toOperationHost adapterIdentity (payment 100 "op" "n"))
        (fun _ t => t.Adds deactivatedLedger.db 7 deactivatedLedger.committed) deactivatedLedger ∧
      Alone ((enforcementSchema outstandingHost true).machine Drawn Bool) true
        (outstandingRequest.run outstandingHost)
        (fun _ t => Enforcement.Spared 7 (outstanding .deactivated) t.db)
        (Records.init (outstanding .deactivated)) ∧
      ((((enforcementSchema outstandingHost true).schedule ⟨1, "nonce", 0⟩).exec true 40
        (outstandingRequest.run outstandingHost) (Records.init (outstanding .active))).any fun end_ =>
          end_.2.db.capabilities.any fun c => c.consumedAt.isSome) = true := by
  have h := kill_switch (H := outstandingHost) (o := 7) (l := deactivatedLedger) (i := true)
    (s := Records.init (outstanding .deactivated)) ⟨deactivatedOrganization, rfl, by decide⟩ rfl (by decide)
    ⟨deactivatedOrganization, rfl, by decide⟩ rfl
  exact ⟨h.2.1 _ _, h.2.2 _ rfl, by decide +kernel⟩

end PayReality
