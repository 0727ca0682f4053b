import Mathlib.Data.Fintype.Basic
import PayReality.Evidence.Payload
import PayReality.Evidence.Signing
import PayReality.Lib.Program

/-!
# The ledger: intents, decisions and evidence under concurrent sessions

A session reads what is committed and what it has flushed itself, statement by statement (read
committed). It commits all that it has flushed, or nothing. `SELECT … FOR UPDATE` on the row of an
organization waits while another session holds that row, until that session commits or rolls back.
`created_at` is the time at which the session's transaction began.

* `LedgerStatement`: what a session sends. Every statement to the database may fail.
* `Ledger.step`: what a statement does; `Ledger.answer`: what it does where nothing fails.
* An organization is a row that exists: `organization_id` is a foreign key everywhere.

Everything that no session here writes is `db`; other operations may change it (`elsewhere`), but
the version, hash and organization of a row of `policies` stay (no code assigns them again).
-/

namespace PayReality

open Program

/-! ## Rows -/

/-- `evidence`. -/
structure EvidenceRow extends SignedPayload where
  id : Uuid
  decisionId : Uuid
  status : EvidenceStatus
  organizationId : Option Uuid
  sequence : Option ℕ
  createdAt : Timestamp

/-- `intents`, with the columns of the trusted-integration path. -/
structure IntentRow extends Intent where
  provenance : Option IntegrationProvenance := none

namespace IntentRow

/-- `idx_intents_external_operation_scope`. -/
def operationScope (i : IntentRow) : Option (Uuid × String × String) :=
  i.provenance.map fun p => (p.integrationId, p.environment, p.externalOperationId)

/-- `idx_intents_integration_identity_nonce`. -/
def adapterNonce (i : IntentRow) : Option (Uuid × String) :=
  i.provenance.map fun p => (p.integrationIdentityId, i.nonce)

/-- The primary key or one of the unique indexes refuses the pair. -/
def collides (i j : IntentRow) : Bool :=
  i.id = j.id ∨ i.agentId = j.agentId ∧ i.nonce = j.nonce ∨
    i.operationScope.isSome ∧ i.operationScope = j.operationScope ∨
    i.adapterNonce.isSome ∧ i.adapterNonce = j.adapterNonce

end IntentRow

/-- The rows that sessions add here. -/
structure Rows where
  intents : List IntentRow := []
  decisions : List Decision := []
  evidence : List EvidenceRow := []

namespace Rows

def append (a b : Rows) : Rows where
  intents := a.intents ++ b.intents
  decisions := a.decisions ++ b.decisions
  evidence := a.evidence ++ b.evidence

/-- A primary key or a unique index refuses a row of the second beside the first. -/
def refuses (a b : Rows) : Bool :=
  (a.intents.any fun i => b.intents.any i.collides) ||
  (a.decisions.any fun d => b.decisions.any fun d' => d.id = d'.id) ||
  a.evidence.any fun e => b.evidence.any fun e' => e.id = e'.id

end Rows

/-- What one statement can read. -/
structure Snapshot extends Rows where
  db : Db

/-! ## Statements -/

/-- What a payload is signed as. -/
inductive Purpose where
  | evidence (organizationId : Option Uuid) (decisionId : Uuid)
  | auditEvent
  | capability
  deriving DecidableEq

/-- What the platform is configured with: how it prints and signs, its registry of keys, and how
`Numeric(18, 2)` stores a float. -/
structure EvidenceHost extends Printer, Crypto where
  settings : SigningSettings
  keys : List SigningKey
  numeric : ℚ → ℚ

inductive LedgerStatement where
  /-- `BEGIN`, which goes ahead of the first statement. -/
  | begin
  /-- Any query. -/
  | read
  /-- `datetime.now`. -/
  | now
  | uuid4
  | queryOpa (organizationId : Option Uuid) (input : Json)
  /-- `SELECT id FROM organizations WHERE id = … FOR UPDATE`. -/
  | lockOrganization (id : Uuid)
  | sign (purpose : Purpose) (payload : Json)
  | flushIntent (row : IntentRow)
  | flushDecision (row : Decision)
  /-- `created_at` of the row is left to the database. -/
  | flushEvidence (row : EvidenceRow)
  | commit
  | rollback
  /-- `db.refresh`. -/
  | refresh
  /-- Another operation has changed the other tables. -/
  | elsewhere (db : Db)
  /-- The clock of the database has moved. -/
  | tick (now : Timestamp)

abbrev LedgerStatement.Answer : LedgerStatement → Type
  | .read => Snapshot
  | .now => Timestamp
  | .uuid4 => Uuid
  | .queryOpa _ _ => OpaReply
  | .sign _ _ => SignedPayload
  | _ => Unit

variable {ι : Type}

/-- The shared store. No session reads `signed`, everything signed so far and what for, or `drawn`,
how many ids were made. -/
structure Ledger (ι : Type) where
  db : Db
  committed : Rows
  /-- What a session has flushed and not committed. -/
  pending : ι → Rows
  /-- When the transaction of a session began. -/
  began : ι → Option Timestamp
  /-- Who holds the row of an organization. -/
  holder : Uuid → Option ι
  clock : Timestamp
  signed : List (Purpose × SignedPayload)
  drawn : ℕ

/-- What other operations keep of the rows of `policies`. -/
def Db.KeepsPolicies (db db' : Db) : Prop :=
  ∀ p ∈ db.policies, ∃ p' ∈ db'.policies, p'.version = p.version ∧ p'.bundleHash = p.bundleHash ∧
    p'.organizationId = p.organizationId

namespace Ledger

variable [DecidableEq ι] (s : Ledger ι) (i : ι)

/-- What session `i` reads. -/
def snapshot : Snapshot := { s.committed.append (s.pending i) with db := s.db }

/-- The session's transaction begins, unless it has. -/
def begin : Ledger ι :=
  { s with began := Function.update s.began i (some ((s.began i).getD s.clock)) }

/-- The `now()` of the session's transaction. -/
def startTime : Timestamp := (s.began i).getD s.clock

def addPending (rows : Rows) : Ledger ι :=
  { s.begin i with pending := Function.update s.pending i ((s.pending i).append rows) }

/-- The session has the row of an organization. -/
def take (o : Uuid) : Ledger ι :=
  { s.begin i with holder := Function.update s.holder o (some i) }

/-- The transaction of the session is over, and has left `committed`. -/
def close (committed : Rows) : Ledger ι :=
  { s with
    committed
    pending := Function.update s.pending i {}
    began := Function.update s.began i none
    holder := fun o => if s.holder o = some i then none else s.holder o }

/-- Nobody else holds the row of an organization. -/
def available (o : Uuid) : Prop := s.holder o = none ∨ s.holder o = some i

/-- A flushed row of another session collides, so a flush waits. -/
def waits (rows : Rows) : Prop := ∃ j, j ≠ i ∧ (s.pending j).refuses rows = true

/-- A statement fails. -/
def Fails {A : Type} (s : Ledger ι) (r : Except PyError A) (t : Ledger ι) : Prop :=
  r = .error .databaseError ∧ t = s

/-- A flush. -/
def Flushes (rows : Rows) (r : Except PyError Unit) (t : Ledger ι) : Prop :=
  ¬ s.waits i rows ∧ (if (s.snapshot i).refuses rows then r = .error .integrityError ∧ t = s
    else r = .ok () ∧ t = s.addPending i rows) ∨ s.Fails r t

/-- A row of `evidence` with what the database fills in. -/
def stamp (row : EvidenceRow) : EvidenceRow := { row with createdAt := s.startTime i }

/-- What a statement does. -/
def step (H : EvidenceHost) (i : ι) : (q : LedgerStatement) → Ledger ι → Except PyError q.Answer →
    Ledger ι → Prop
  | .begin, s, r, t | .refresh, s, r, t => r = .ok () ∧ t = s.begin i ∨ s.Fails r t
  | .read, s, r, t => r = .ok (s.snapshot i) ∧ t = s.begin i ∨ s.Fails r t
  | .now, s, r, t => ∃ now, r = .ok now ∧ t = s
  | .uuid4, s, r, t => ∃ id, r = .ok id ∧ t = { s with drawn := s.drawn + 1 }
  | .queryOpa _ _, s, r, t => ∃ reply, r = .ok reply ∧ t = s
  | .lockOrganization o, s, r, t =>
      s.available i o ∧ r = .ok () ∧ t = s.take i o ∨ s.Fails r t
  | .sign purpose payload, s, r, t =>
      let e := EvidenceService.signPayload H.toCrypto H.settings payload
      r = .ok e ∧ t = { s with signed := s.signed ++ [(purpose, e)] }
  | .flushIntent row, s, r, t => s.Flushes i { intents := [row] } r t
  | .flushDecision row, s, r, t => s.Flushes i { decisions := [row] } r t
  | .flushEvidence row, s, r, t => s.Flushes i { evidence := [s.stamp i row] } r t
  | .commit, s, r, t =>
      r = .ok () ∧ t = s.close i (s.committed.append (s.pending i)) ∨ s.Fails r t
  | .rollback, s, r, t => r = .ok () ∧ t = s.close i s.committed
  | .elsewhere db, s, r, t => s.db.KeepsPolicies db ∧ r = .ok () ∧ t = { s with db }
  | .tick now, s, r, t => s.clock ≤ now ∧ r = .ok () ∧ t = { s with clock := now }

end Ledger

/-! ### Fields -/

namespace Ledger

variable [DecidableEq ι] (s : Ledger ι) (i j : ι) (rows : Rows) (o o' : Uuid)

@[simp] theorem begin_committed : (s.begin i).committed = s.committed := rfl

@[simp] theorem begin_pending : (s.begin i).pending = s.pending := rfl

@[simp] theorem begin_holder : (s.begin i).holder = s.holder := rfl

@[simp] theorem begin_clock : (s.begin i).clock = s.clock := rfl

@[simp] theorem begin_signed : (s.begin i).signed = s.signed := rfl

@[simp] theorem begin_db : (s.begin i).db = s.db := rfl

theorem begin_began : (s.begin i).began j = if j = i then some (s.startTime i) else s.began j :=
  Function.update_apply ..

@[simp] theorem take_committed : (s.take i o).committed = s.committed := rfl

@[simp] theorem take_pending : (s.take i o).pending = s.pending := rfl

@[simp] theorem take_began : (s.take i o).began = (s.begin i).began := rfl

@[simp] theorem take_clock : (s.take i o).clock = s.clock := rfl

@[simp] theorem take_signed : (s.take i o).signed = s.signed := rfl

@[simp] theorem take_db : (s.take i o).db = s.db := rfl

theorem take_holder : (s.take i o).holder o' = if o' = o then some i else s.holder o' :=
  Function.update_apply ..

@[simp] theorem addPending_committed : (s.addPending i rows).committed = s.committed := rfl

@[simp] theorem addPending_holder : (s.addPending i rows).holder = s.holder := rfl

@[simp] theorem addPending_began : (s.addPending i rows).began = (s.begin i).began := rfl

@[simp] theorem addPending_clock : (s.addPending i rows).clock = s.clock := rfl

@[simp] theorem addPending_signed : (s.addPending i rows).signed = s.signed := rfl

@[simp] theorem addPending_db : (s.addPending i rows).db = s.db := rfl

theorem addPending_pending : (s.addPending i rows).pending j =
    if j = i then (s.pending i).append rows else s.pending j :=
  Function.update_apply ..

@[simp] theorem close_committed : (s.close i rows).committed = rows := rfl

@[simp] theorem close_clock : (s.close i rows).clock = s.clock := rfl

@[simp] theorem close_signed : (s.close i rows).signed = s.signed := rfl

@[simp] theorem close_db : (s.close i rows).db = s.db := rfl

theorem close_pending : (s.close i rows).pending j = if j = i then {} else s.pending j :=
  Function.update_apply ..

theorem close_began : (s.close i rows).began j = if j = i then none else s.began j :=
  Function.update_apply ..

theorem close_holder :
    (s.close i rows).holder o = if s.holder o = some i then none else s.holder o := rfl

end Ledger

/-- The machine that the sessions run on. -/
def ledgerMachine (H : EvidenceHost) (ι : Type) [DecidableEq ι] :
    Machine LedgerStatement LedgerStatement.Answer PyError (Ledger ι) ι where
  step i q s r t := Ledger.step H i q s r t

/-! ### Runs without a failure -/

namespace Ledger

variable [DecidableEq ι] [Fintype ι]

instance (s : Ledger ι) (i : ι) (rows : Rows) : Decidable (s.waits i rows) :=
  inferInstanceAs (Decidable (∃ j, j ≠ i ∧ (s.pending j).refuses rows = true))

instance (s : Ledger ι) (i : ι) (o : Uuid) : Decidable (s.available i o) :=
  inferInstanceAs (Decidable (s.holder o = none ∨ s.holder o = some i))

/-- A flush where nothing fails; `none` where it waits. -/
def flush (s : Ledger ι) (i : ι) (rows : Rows) : Option (Except PyError Unit × Ledger ι) :=
  if s.waits i rows then none
  else if (s.snapshot i).refuses rows then some (.error .integrityError, s)
  else some (.ok (), s.addPending i rows)

theorem flushes_of_flush {s t : Ledger ι} {i : ι} {rows : Rows} {r : Except PyError Unit}
    (h : s.flush i rows = some (r, t)) : s.Flushes i rows r t := by
  unfold flush at h
  split at h
  · cases h
  · next hw =>
    refine .inl ⟨hw, ?_⟩
    split at h <;> cases h <;> simp [*]

/-- What a statement does where nothing fails, given what OPA replies; `none` where it waits. -/
def answer (H : EvidenceHost) (opa : Option Uuid → Json → OpaReply) (i : ι) :
    (q : LedgerStatement) → Ledger ι → Option (Except PyError q.Answer × Ledger ι)
  | .begin, s | .refresh, s => some (.ok (), s.begin i)
  | .read, s => some (.ok (s.snapshot i), s.begin i)
  | .now, s => some (.ok s.clock, s)
  | .uuid4, s => some (.ok s.drawn, { s with drawn := s.drawn + 1 })
  | .queryOpa o input, s => some (.ok (opa o input), s)
  | .lockOrganization o, s =>
      if s.available i o then some (.ok (), s.take i o) else none
  | .sign purpose payload, s =>
      let e := EvidenceService.signPayload H.toCrypto H.settings payload
      some (.ok e, { s with signed := s.signed ++ [(purpose, e)] })
  | .flushIntent row, s => s.flush i { intents := [row] }
  | .flushDecision row, s => s.flush i { decisions := [row] }
  | .flushEvidence row, s => s.flush i { evidence := [s.stamp i row] }
  | .commit, s => some (.ok (), s.close i (s.committed.append (s.pending i)))
  | .rollback, s => some (.ok (), s.close i s.committed)
  | .elsewhere _, _ => none
  | .tick now, s => if s.clock ≤ now then some (.ok (), { s with clock := now }) else none

/-- The scheduler of runs without a failure. -/
def schedule (H : EvidenceHost) (opa : Option Uuid → Json → OpaReply) :
    Schedule (ledgerMachine H ι) where
  answer := answer H opa
  sound i q s r t h := by
    cases q with
    | elsewhere => cases h
    | now => cases h; exact ⟨s.clock, rfl, rfl⟩
    | uuid4 => cases h; exact ⟨s.drawn, rfl, rfl⟩
    | queryOpa o input => cases h; exact ⟨opa o input, rfl, rfl⟩
    | sign | rollback => cases h; exact ⟨rfl, rfl⟩
    | lockOrganization o =>
      simp only [answer] at h
      split at h
      · next ho => cases h; exact .inl ⟨ho, rfl, rfl⟩
      · cases h
    | flushIntent | flushDecision | flushEvidence => exact flushes_of_flush h
    | tick now =>
      simp only [answer] at h
      split at h
      · next hc => cases h; exact ⟨hc, rfl, rfl⟩
      · cases h
    | begin | read | commit | refresh =>
      cases h
      exact .inl ⟨rfl, rfl⟩

end Ledger

/-- A service: a program of statements to the ledger. -/
abbrev LedgerService := Prog LedgerStatement LedgerStatement.Answer PyError

namespace LedgerService

def begin : LedgerService Unit := Prog.send LedgerStatement.begin

def read : LedgerService Snapshot := Prog.send LedgerStatement.read

def now : LedgerService Timestamp := Prog.send LedgerStatement.now

def uuid4 : LedgerService Uuid := Prog.send LedgerStatement.uuid4

def queryOpa (organizationId : Option Uuid) (input : Json) : LedgerService OpaReply :=
  Prog.send (LedgerStatement.queryOpa organizationId input)

def lockOrganization (id : Uuid) : LedgerService Unit :=
  Prog.send (LedgerStatement.lockOrganization id)

def sign (purpose : Purpose) (payload : Json) : LedgerService SignedPayload :=
  Prog.send (LedgerStatement.sign purpose payload)

def flushIntent (row : IntentRow) : LedgerService Unit :=
  Prog.send (LedgerStatement.flushIntent row)

def flushDecision (row : Decision) : LedgerService Unit :=
  Prog.send (LedgerStatement.flushDecision row)

def flushEvidence (row : EvidenceRow) : LedgerService Unit :=
  Prog.send (LedgerStatement.flushEvidence row)

def commit : LedgerService Unit := Prog.send LedgerStatement.commit

def rollback : LedgerService Unit := Prog.send LedgerStatement.rollback

def refresh : LedgerService Unit := Prog.send LedgerStatement.refresh

/-- A request with its session, which is closed whatever happens (`get_db`). -/
def withSession {α : Type} (p : LedgerService α) : LedgerService α := do
  let a ← tryCatch (begin >>= fun _ => p) fun e => do
    rollback
    throw e
  rollback
  return a

end LedgerService

end PayReality
