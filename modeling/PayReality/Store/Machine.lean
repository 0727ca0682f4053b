import Mathlib.Data.Fintype.Basic
import PayReality.Decision.IntentService
import PayReality.Lib.Program

/-!
# The services' store

The services share a database and OPA. A session reads what is committed, except for its own
flushed row of `policies`; it writes the columns it has assigned, by the identity of the row, when
it commits. OPA keeps one module for each organization, and is outside every transaction.

* `Select`: the queries; `Write`: what a commit writes; `Statement`: what a service sends.
* `Store.step`: what a statement does. Every statement to the database or OPA may fail.
* `Store.answer`: what it does where nothing fails.
* The unique indexes of `policies` refuse a flush that collides with a committed row, and make it
  wait for one that collides with another session's flushed row.
-/

namespace PayReality

open Program Rego

/-! ## Queries -/

inductive Select where
  | latestVersionRow (policyKey : Uuid) (organizationId : Option Uuid)
  | versionRow (policyKey : Uuid) (version : ℕ) (organizationId : Option Uuid)
  /-- The active versions of an organization, by key. -/
  | activeRecords (organizationId : Option Uuid)
  /-- `_other_active_policies`: those of other keys, by key. -/
  | otherActivePolicies (excluded : Uuid) (organizationId : Option Uuid)
  /-- `_other_active_runtime_policies`: the same for the safety checks, in no order. -/
  | otherActiveRuntimePolicies (excluded : Uuid) (organizationId : Option Uuid)
  | activeOrganizations
  | activePolicy (organizationId : Option Uuid)
  | maxPolicyVersion
  | policyRow (version : ℕ)
  | activeVersion (policyKey : Uuid) (organizationId : Option Uuid)
  | policyKeys (organizationId : Option Uuid)
  | authority (id : Uuid)
  | principal (id : Uuid)
  | principalLike (pattern : String) (organizationId : Option Uuid)
  | organization (id : Uuid)
  | dueSchedules (now : Timestamp)
  | schedule (id : Uuid)
  deriving DecidableEq

abbrev Select.Answer : Select → Type
  | .latestVersionRow _ _ | .versionRow _ _ _ | .activeVersion _ _ => Option RuntimePolicyRecord
  | .activeRecords _ | .otherActivePolicies _ _ | .otherActiveRuntimePolicies _ _ =>
      List RuntimePolicyRecord
  | .activeOrganizations => List (Option Uuid)
  | .activePolicy _ | .policyRow _ => Option PolicyRow
  | .maxPolicyVersion => ℕ
  | .policyKeys _ => List Uuid
  | .authority _ => Option Authority
  | .principal _ | .principalLike _ _ => Option Principal
  | .organization _ => Option Organization
  | .dueSchedules _ => List PolicyActivationSchedule
  | .schedule _ => Option PolicyActivationSchedule

namespace Db

variable (db : Db)

/-- The active versions of the other keys of an organization. -/
def otherActive (excluded : Uuid) (organizationId : Option Uuid) : List RuntimePolicyRecord :=
  (db.activeRecords organizationId).filter fun r => r.policyKey ≠ excluded

/-- `ORDER BY policy_key`. -/
def byKey (rows : List RuntimePolicyRecord) : List RuntimePolicyRecord :=
  rows.insertionSort fun r r' => r.policyKey ≤ r'.policyKey

def maxPolicyVersion : ℕ := (db.policies.map PolicyRow.version).foldr max 0

end Db

/-- The rows that a query finds. -/
def Select.run (P : Platform) (db : Db) : (q : Select) → q.Answer
  | .latestVersionRow k o => db.latestVersionRow k o
  | .versionRow k v o => (db.versionsOf k o).find? fun r => r.version = v
  | .activeRecords o => Db.byKey (db.activeRecords o)
  | .otherActivePolicies k o => Db.byKey (db.otherActive k o)
  | .otherActiveRuntimePolicies k o => db.otherActive k o
  | .activeOrganizations =>
      ((db.records.filter RuntimePolicyRecord.isActive).map
        RuntimePolicyRecord.organizationId).dedup
  | .activePolicy o => db.activePolicy o
  | .maxPolicyVersion => db.maxPolicyVersion
  | .policyRow v => db.policies.find? fun p => p.version = v
  | .activeVersion k o => (db.activeRecords o).find? fun r => r.policyKey = k
  | .policyKeys o => db.policyKeys o
  | .authority id => db.authorities.find? fun a => a.id = id
  | .principal id => db.principal id
  | .principalLike pattern o =>
      db.principals.find? fun p => P.ilike p.name pattern ∧ p.organizationId = o
  | .organization id => db.organization id
  | .dueSchedules now =>
      (db.schedules.filter fun s => s.status = .pending ∧ s.effectiveAt ≤ now).insertionSort
        fun s s' => s.effectiveAt ≤ s'.effectiveAt
  | .schedule id => db.schedules.find? fun s => s.id = id

/-! ## Writes -/

/-- The columns of a version that a session has assigned. -/
structure RecordColumns where
  status : Option PolicyStatus := none
  content : Option RuntimePolicy := none
  /-- `bundle_id` and `bundle_hash`. -/
  bundle : Option (String × BundleHash) := none
  /-- `activated_by`, `activated_at` and `activation_reason`. -/
  activation : Option (String × Timestamp × Option String) := none
  rollbackOfVersion : Option ℕ := none

def RecordColumns.apply (c : RecordColumns) (r : RuntimePolicyRecord) : RuntimePolicyRecord where
  policyKey := r.policyKey
  version := r.version
  status := c.status.getD r.status
  content := c.content.getD r.content
  organizationId := r.organizationId
  bundleId := (c.bundle.map Prod.fst).or r.bundleId
  bundleHash := (c.bundle.map Prod.snd).or r.bundleHash
  activatedBy := (c.activation.map Prod.fst).or r.activatedBy
  activatedAt := (c.activation.map fun a => a.2.1).or r.activatedAt
  activationReason := (c.activation.map fun a => a.2.2).getD r.activationReason
  rollbackOfVersion := c.rollbackOfVersion.or r.rollbackOfVersion
  authorityExpiresAt := r.authorityExpiresAt
  sourceGraphApprovalId := r.sourceGraphApprovalId

inductive Write where
  | insertRecord (row : RuntimePolicyRecord)
  | updateRecord (policyKey : Uuid) (version : ℕ) (columns : RecordColumns)
  | insertSchedule (row : PolicyActivationSchedule)
  | updateSchedule (id : Uuid) (status : ScheduleStatus) (executedAt : Option Timestamp)
      (executionError : Option PyError)
  | insertEvent (row : LifecycleEvent)

/-- The row of `policies` that a session has flushed, with the mandates flushed after it. -/
structure Pending where
  /-- The row that it retires. -/
  prior : Option ℕ
  row : PolicyRow
  mandates : List Mandate := []

namespace Db

def updateRecord (db : Db) (key : Uuid) (version : ℕ) (c : RecordColumns) : Db :=
  { db with records := db.records.map fun r => if r.ident = (key, version) then c.apply r else r }

def write (db : Db) : Write → Db
  | .insertRecord row => { db with records := db.records ++ [row] }
  | .updateRecord key version c => db.updateRecord key version c
  | .insertSchedule row => { db with schedules := db.schedules ++ [row] }
  | .updateSchedule id status executedAt executionError =>
      { db with schedules := db.schedules.map fun s => if s.id = id then
          { s with
            status
            executedAt := executedAt.or s.executedAt
            executionError := executionError.or s.executionError } else s }
  | .insertEvent row => { db with lifecycleEvents := db.lifecycleEvents ++ [row] }

/-- The row that a flush has retired. -/
def retirePolicy (prior : Option ℕ) (retiredAt : Option Timestamp) (p : PolicyRow) : PolicyRow :=
  if prior = some p.version then { p with status := .retired, retiredAt } else p

/-- What a session has flushed, committed. -/
def land (db : Db) : Option Pending → Db
  | none => db
  | some p =>
    { db with
      policies := db.policies.map (retirePolicy p.prior p.row.activatedAt) ++ [p.row]
      mandates := db.mandates ++ p.mandates }

/-- The database after a commit. -/
def commit (db : Db) (pending : Option Pending) (ws : List Write) : Db :=
  ws.foldl write (db.land pending)

/-- `uq_runtime_policy_records_key_version` refuses a row. -/
def refuses (db : Db) : Write → Bool
  | .insertRecord row => db.records.any fun r => r.ident = row.ident
  | _ => false

/-- `uq_policies_version` or `idx_policies_single_active_per_org` refuses an active row that
retires `prior`. Rows without an organization never collide in the second. -/
def refusesPolicy (db : Db) (prior : Option ℕ) (row : PolicyRow) : Bool :=
  db.policies.any fun p => p.version = row.version ∨ row.organizationId.isSome ∧
    p.organizationId = row.organizationId ∧ p.isActive ∧ prior ≠ some p.version

end Db

/-! ## Statements -/

/-- What the services use from outside: the platform, the key that signs evidence, and what OPA
replies to an input, given the module that it has loaded for the organization. -/
structure Host extends Platform where
  signer : Signer
  opa : Option Source → Json → OpaReply

inductive Statement where
  | select (q : Select)
  | uuid4
  | flushPolicy (prior : Option ℕ) (row : PolicyRow)
  | flushMandate (m : Mandate)
  | commit (ws : List Write)
  | rollback
  | uploadPolicy (organizationId : Option Uuid) (source : Source)
  | deletePolicy (organizationId : Option Uuid)
  /-- A whole submission. -/
  | submitIntent (agent : Agent) (req : IntentRequest) (now : Timestamp)

abbrev Statement.Answer : Statement → Type
  | .select q => q.Answer
  | .uuid4 => Uuid
  | .submitIntent _ _ _ => Recorded
  | _ => Unit

variable {ι : Type}

/-- The shared store, and five records of the run that no service reads: what the committed rows
were when a session last ran a query, what it last uploaded, which organization's module it has
left to settle, whether a version of an organization has been retired since the organization's
last deploy, and every write committed so far. -/
structure Store (ι : Type) where
  db : Db
  /-- The module of an organization; `retarget_package` only gives it the organization's name. -/
  opa : Option Uuid → Option Source
  pending : ι → Option Pending
  seen : ι → Select → Option Db
  uploaded : ι → Option Source
  owed : ι → Option (Option Uuid)
  retiredSince : Option Uuid → Bool
  log : List Write

namespace Store

variable [DecidableEq ι] (s : Store ι) (i : ι)

/-- A query has run. -/
def saw (q : Select) : Store ι :=
  { s with seen := Function.update s.seen i (Function.update (s.seen i) q (some s.db)) }

def setPending (p : Option Pending) : Store ι :=
  { s with pending := Function.update s.pending i p }

/-- Nobody has the module of an organization left to settle. -/
def settle (o : Option Uuid) : Store ι :=
  { s with owed := fun j => if s.owed j = some o then none else s.owed j }

def owe (o : Option Uuid) : Store ι := { s with owed := Function.update s.owed i (some o) }

/-- A flush has to wait for another session's flushed row. -/
def blocks (prior : Option ℕ) (row : PolicyRow) (p : Pending) : Bool :=
  p.row.version = row.version ∨
    row.organizationId.isSome ∧ p.row.organizationId = row.organizationId ∨
    prior.isSome ∧ p.prior = prior

def blocked (prior : Option ℕ) (row : PolicyRow) : Prop :=
  ∃ j, j ≠ i ∧ (s.pending j).any (blocks prior row) = true

/-- The organizations of the active versions that a list of writes retires. -/
def retires (ws : List Write) : Option (Option Uuid) :=
  ws.findSome? fun w =>
    match w with
    | .updateRecord key version c =>
      if c.status = some .retired then
        (s.db.records.find? fun r => r.ident = (key, version)).map
          RuntimePolicyRecord.organizationId
      else none
    | _ => none

/-- A commit: a deploy settles its organization, a retirement leaves it to be settled. -/
def commit (ws : List Write) : Store ι :=
  let t : Store ι :=
    { s with
      db := s.db.commit (s.pending i) ws
      pending := Function.update s.pending i none
      log := s.log ++ ws }
  match s.pending i with
  | some p =>
    { t.settle p.row.organizationId with
      retiredSince := Function.update s.retiredSince p.row.organizationId false }
  | none =>
    match s.retires ws with
    | some o => { t.owe i o with retiredSince := Function.update s.retiredSince o true }
    | none => t

/-- A module is changed: by a deploy, which has yet to commit, or by a reconciliation. -/
def load (o : Option Uuid) (source : Option Source) : Store ι :=
  let t : Store ι := { s with opa := Function.update s.opa o source }
  if (s.pending i).isSome then t.owe i o else t.settle o

/-- A module was perhaps changed, by a call that failed. -/
def loadUnsure (o : Option Uuid) (source : Option Source) : Store ι :=
  { s with opa := Function.update s.opa o source }.owe i o

/-- A statement fails without an effect. -/
def Fails {A : Type} (s : Store ι) (e : PyError) (r : Except PyError A) (t : Store ι) : Prop :=
  r = .error e ∧ t = s

/-- What a statement does. -/
def step (H : Host) (i : ι) : (q : Statement) → Store ι → Except PyError q.Answer →
    Store ι → Prop
  | .select q, s, r, t =>
      r = .ok (q.run H.toPlatform s.db) ∧ t = s.saw i q ∨ Fails s .databaseError r t
  | .uuid4, s, r, t => ∃ id, r = .ok id ∧ t = s
  | .flushPolicy prior row, s, r, t => ¬ s.blocked i prior row ∧
      (if s.db.refusesPolicy prior row then r = .error .integrityError ∧ t = s.setPending i none
        else r = .ok () ∧ t = s.setPending i (some ⟨prior, row, []⟩)) ∨
      Fails s .databaseError r t
  | .flushMandate m, s, r, t =>
      (r = .ok () ∧ t = s.setPending i ((s.pending i).map fun p =>
        { p with mandates := p.mandates ++ [m] })) ∨
      Fails s .databaseError r t ∨ Fails s .integrityError r t
  | .commit ws, s, r, t =>
      (if ws.any s.db.refuses then Fails s .integrityError r t else r = .ok () ∧ t = s.commit i ws) ∨
      Fails s .databaseError r t
  | .rollback, s, r, t => r = .ok () ∧ t = s.setPending i none
  | .uploadPolicy o source, s, r, t =>
      (r = .ok () ∧ t = { s.load i o (some source) with
        uploaded := Function.update s.uploaded i (some source) }) ∨
      r = .error .httpError ∧ (t = s ∨ t = s.loadUnsure i o (some source))
  | .deletePolicy o, s, r, t =>
      (r = .ok () ∧ t = s.load i o none) ∨
      r = .error .httpError ∧ (t = s ∨ t = s.loadUnsure i o none)
  | .submitIntent agent req now, s, r, t =>
      let opa := fun o => H.opa (s.opa o)
      (r = IntentService.submitIntent s.db H.toPlatform H.signer agent now opa req ∧
        t = { s with
          db := IntentService.submit s.db H.toPlatform H.signer agent now opa req }) ∨
      Fails s .databaseError r t

end Store

/-- The machine that the services run on. -/
def machine (H : Host) (ι : Type) [DecidableEq ι] :
    Machine Statement Statement.Answer PyError (Store ι) ι where
  step i q s r t := Store.step H i q s r t

/-! ### Runs without a failure -/

namespace Store

variable [DecidableEq ι] [Fintype ι]

instance (s : Store ι) (i : ι) (prior : Option ℕ) (row : PolicyRow) :
    Decidable (s.blocked i prior row) :=
  inferInstanceAs (Decidable (∃ j, j ≠ i ∧ (s.pending j).any (blocks prior row) = true))

/-- What a statement does where nothing fails; `none` where it has to wait. -/
def answer (H : Host) (i : ι) :
    (q : Statement) → Store ι → Option (Except PyError q.Answer × Store ι)
  | .select q, s => some (.ok (q.run H.toPlatform s.db), s.saw i q)
  | .uuid4, s => some (.ok s.db.nextId, s)
  | .flushPolicy prior row, s =>
      if s.blocked i prior row then none
      else if s.db.refusesPolicy prior row then some (.error .integrityError, s.setPending i none)
      else some (.ok (), s.setPending i (some ⟨prior, row, []⟩))
  | .flushMandate m, s => some (.ok (), s.setPending i ((s.pending i).map fun p =>
        { p with mandates := p.mandates ++ [m] }))
  | .commit ws, s =>
      if ws.any s.db.refuses then some (.error .integrityError, s) else some (.ok (), s.commit i ws)
  | .rollback, s => some (.ok (), s.setPending i none)
  | .uploadPolicy o source, s => some (.ok (), { s.load i o (some source) with
        uploaded := Function.update s.uploaded i (some source) })
  | .deletePolicy o, s => some (.ok (), s.load i o none)
  | .submitIntent agent req now, s =>
      let opa := fun o => H.opa (s.opa o)
      some (IntentService.submitIntent s.db H.toPlatform H.signer agent now opa req,
        { s with db := IntentService.submit s.db H.toPlatform H.signer agent now opa req })

/-- The scheduler of runs without a failure. -/
def schedule (H : Host) : Schedule (machine H ι) where
  answer := answer H
  sound i q s r t h := by
    cases q with
    | uuid4 => cases h; exact ⟨s.db.nextId, rfl, rfl⟩
    | flushPolicy prior row =>
      simp only [answer] at h
      split at h
      · cases h
      · next hb =>
        refine .inl ⟨hb, ?_⟩
        split at h <;> cases h <;> simp [*]
    | commit ws =>
      simp only [answer] at h
      left
      split at h <;> cases h <;> simp [*, Fails]
    | rollback => cases h; exact ⟨rfl, rfl⟩
    | select | flushMandate | uploadPolicy | deletePolicy | submitIntent =>
      cases h
      exact .inl ⟨rfl, rfl⟩

/-- The scheduler of runs in which OPA cannot be reached, and nothing else fails. -/
def scheduleOpaDown (H : Host) : Schedule (machine H ι) where
  answer i q s :=
    match q with
    | .uploadPolicy _ _ | .deletePolicy _ => some (.error .httpError, s)
    | q => answer H i q s
  sound i q s r t h := by
    split at h
    · cases h
      exact .inr ⟨rfl, .inl rfl⟩
    · cases h
      exact .inr ⟨rfl, .inl rfl⟩
    · exact (schedule H).sound i q s r t h

end Store

/-- A service: a program of statements. -/
abbrev Service := Prog Statement Statement.Answer PyError

namespace Service

def select (q : Select) : Service q.Answer := Prog.send (Statement.select q)

def uuid4 : Service Uuid := Prog.send Statement.uuid4

def flushPolicy (prior : Option ℕ) (row : PolicyRow) : Service Unit :=
  Prog.send (Statement.flushPolicy prior row)

def flushMandate (m : Mandate) : Service Unit := Prog.send (Statement.flushMandate m)

def commit (ws : List Write) : Service Unit := Prog.send (Statement.commit ws)

def rollback : Service Unit := Prog.send Statement.rollback

def uploadPolicy (organizationId : Option Uuid) (source : Source) : Service Unit :=
  Prog.send (Statement.uploadPolicy organizationId source)

def deletePolicy (organizationId : Option Uuid) : Service Unit :=
  Prog.send (Statement.deletePolicy organizationId)

def submitIntent (agent : Agent) (req : IntentRequest) (now : Timestamp) : Service Recorded :=
  Prog.send (Statement.submitIntent agent req now)

/-- A computation that sends nothing. -/
def lift {α : Type} : Except PyError α → Service α
  | .ok a => pure a
  | .error e => throw e

end Service

end PayReality
