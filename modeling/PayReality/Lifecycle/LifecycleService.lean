import PayReality.Lifecycle.RuntimePolicyService
import PayReality.Lifecycle.SafetyChecks

/-!
# The lifecycle of a policy

`runtime_policy_lifecycle_service.py`: activation behind the safety checks, schedules and their
execution, retirement, archival and rollback, over the operations of
`runtime_policy_service.py`.
-/

namespace PayReality

open Program

namespace LifecycleService

open Service RuntimePolicyService SafetyChecks

variable (P : Platform)

/-- `_ACTIVATABLE_STATUSES`. -/
def activatable (status : PolicyStatus) : Bool := status = .approved || status = .compiled

/-- `run_safety_checks`, and where it reports a violation `_record_blocked` and
`ActivationBlockedError`. -/
def passSafetyChecks (row : RuntimePolicyRecord) (policyKey : Uuid) (organizationId : Option Uuid)
    (actor : String) : Service Unit := do
  let safety ← runSafetyChecks P policyKey row organizationId
  if !safety.isEmpty then
    recordLifecycleEvent
      { policyKey
        version := row.version
        eventType := .activationBlocked
        actor := some actor
        organizationId }
    throw .activationBlocked

/-! ## Activation -/

/-- The compilation and deployment of a version that has passed the checks. -/
def compileAndDeploy (row : RuntimePolicyRecord) (policyKey : Uuid) (organizationId : Option Uuid)
    (now : Timestamp) : Service DeployOutcome := do
  if row.status = .approved then
    let outcome ← compilePolicy P policyKey organizationId now (some row)
    if !outcome.errors.isEmpty then throw .compilationRequired
    -- the commit of the compilation has expired what the session held
    deployPolicy P policyKey organizationId now
  else deployPolicy P policyKey organizationId now (some row)

def activatePolicy (policyKey : Uuid) (organizationId : Option Uuid) (actor : String)
    (reason : Option String) (now : Timestamp) : Service RuntimePolicyRecord := do
  let row ← getLatest policyKey organizationId
  if !activatable row.status then throw (.invalidTransition row.status.value "activate")
  passSafetyChecks P row policyKey organizationId actor
  let _ ← compileAndDeploy P row policyKey organizationId now
  let row ← getLatest policyKey organizationId
  transition row { activation := some (actor, now, reason) }
    { policyKey
      version := row.version
      eventType := .activated
      actor := some actor
      reason
      organizationId }

/-! ## Schedules -/

/-- The insertion of a schedule, and the event that records it. -/
def insertSchedule (row : PolicyActivationSchedule) : Service PolicyActivationSchedule := do
  commit [.insertSchedule row]
  match ← select (.schedule row.id) with
  | none => throw .databaseError
  | some row =>
    recordLifecycleEvent
      { policyKey := row.policyKey
        version := row.version
        eventType := .scheduled
        actor := row.createdBy
        reason := row.reason
        organizationId := row.organizationId }
    return row

def scheduleActivation (policyKey : Uuid) (organizationId : Option Uuid) (effectiveAt : Timestamp)
    (actor : String) (reason : Option String) : Service PolicyActivationSchedule := do
  let row ← getLatest policyKey organizationId
  if !activatable row.status then
    throw (.invalidTransition row.status.value "schedule activation")
  passSafetyChecks P row policyKey organizationId actor
  let id ← uuid4
  insertSchedule
    { id
      policyKey
      version := row.version
      action := .activate
      effectiveAt
      reason
      createdBy := some actor
      organizationId }

def scheduleRetirement (policyKey : Uuid) (organizationId : Option Uuid) (effectiveAt : Timestamp)
    (actor : String) (reason : Option String) : Service PolicyActivationSchedule := do
  let row ← getLatest policyKey organizationId
  if row.status ≠ .active then
    throw (.invalidTransition row.status.value "schedule retirement")
  let id ← uuid4
  insertSchedule
    { id
      policyKey
      version := row.version
      action := .retire
      effectiveAt
      reason
      createdBy := some actor
      organizationId }

/-- `schedule.status`, as `InvalidTransitionError` reports it. -/
def scheduleStatusValue : ScheduleStatus → String
  | .pending => "pending"
  | .executed => "executed"
  | .failed => "failed"
  | .cancelled => "cancelled"

def cancelSchedule (scheduleId : Uuid) (organizationId : Option Uuid) (actor : String)
    (reason : Option String) : Service PolicyActivationSchedule := do
  match (← select (.schedule scheduleId)).filter fun s => s.organizationId = organizationId with
  | none => throw .scheduleNotFound
  | some schedule =>
    if schedule.status ≠ .pending then
      throw (.invalidTransition (scheduleStatusValue schedule.status) "cancel")
    commit [.updateSchedule schedule.id .cancelled none none]
    match ← select (.schedule scheduleId) with
    | none => throw .databaseError
    | some schedule =>
      recordLifecycleEvent
        { policyKey := schedule.policyKey
          version := schedule.version
          eventType := .scheduleCancelled
          actor := some actor
          reason
          organizationId }
      return schedule

/-! ## Retirement -/

def retirePolicy (policyKey : Uuid) (organizationId : Option Uuid) (actor : String)
    (reason : Option String) (now : Timestamp) : Service RuntimePolicyRecord := do
  let row ← getLatest policyKey organizationId
  if row.status ≠ .active then throw (.invalidTransition row.status.value "retire")
  commit [.updateRecord row.policyKey row.version { status := some .retired }]
  let row ← refresh row.policyKey row.version row.organizationId
  reconcileOrganizationOpaState organizationId now
  recordLifecycleEvent
    { policyKey
      version := row.version
      eventType := .retired
      actor := some actor
      reason
      organizationId }
  return row

/-- `archive_policy`. -/
def archivePolicy (policyKey : Uuid) (organizationId : Option Uuid) (actor : String)
    (reason : Option String) : Service RuntimePolicyRecord := do
  let row ← getLatest policyKey organizationId
  if row.status = .active then
    throw (.invalidTransition row.status.value "archive (retire it first)")
  if row.status = .archived then throw (.invalidTransition row.status.value "archive")
  transition row { status := some .archived }
    { policyKey
      version := row.version
      eventType := .archived
      actor := some actor
      reason
      organizationId }

/-! ## The execution of schedules -/

structure ScheduleExecutionResult where
  scheduleId : Uuid
  policyKey : Uuid
  action : ScheduleAction
  error : Option PyError := none

/-- The operation that a schedule names. -/
def scheduledOperation (schedule : PolicyActivationSchedule) (now : Timestamp) :
    Service RuntimePolicyRecord :=
  let actor := (schedule.createdBy.filter (· ≠ "")).getD "scheduled-execution"
  match schedule.action with
  | .activate =>
      activatePolicy P schedule.policyKey schedule.organizationId actor schedule.reason now
  | .retire => retirePolicy schedule.policyKey schedule.organizationId actor schedule.reason now

/-- One schedule. A commit expires it, so it is read again for the result, inside the `try` where it was
executed; the columns that are read never change. -/
def executeSchedule (schedule : PolicyActivationSchedule) (now : Timestamp) :
    Service ScheduleExecutionResult :=
  tryCatch
    (do
      let _ ← scheduledOperation P schedule now
      commit [.updateSchedule schedule.id .executed (some now) none]
      let _ ← select (.schedule schedule.id)
      return { scheduleId := schedule.id, policyKey := schedule.policyKey, action := schedule.action })
    fun e => do
      rollback
      commit [.updateSchedule schedule.id .failed none (some e)]
      let _ ← select (.schedule schedule.id)
      return {
        scheduleId := schedule.id
        policyKey := schedule.policyKey
        action := schedule.action
        error := some e }

/-- The next schedule has been expired by the commits of the one before, and is read again before its
`try`. -/
def readNext : List PolicyActivationSchedule → Service Unit
  | [] => return ()
  | schedule :: _ => do
    let _ ← select (.schedule schedule.id)

/-- The loop of `process_due_schedules`. -/
def executeSchedules (now : Timestamp) :
    List PolicyActivationSchedule → Service (List ScheduleExecutionResult)
  | [] => return []
  | schedule :: schedules => do
    let result ← executeSchedule P schedule now
    readNext schedules
    let results ← executeSchedules now schedules
    return result :: results

def processDueSchedules (now : Timestamp) : Service (List ScheduleExecutionResult) := do
  let due ← select (.dueSchedules now)
  executeSchedules P now due

/-! ## Rollback -/

/-- The content of the version that a rollback adds. -/
def revertedPolicy (target : RuntimePolicy) (version : ℕ) (now : Timestamp) : RuntimePolicy :=
  { target with
    version
    status := .draft
    audit := { created := some (target.audit.created.getD now), modified := some now } }

def rollbackPolicy (policyKey : Uuid) (organizationId : Option Uuid) (targetVersion : ℕ)
    (actor : String) (reason : Option String) (now : Timestamp) : Service RuntimePolicyRecord := do
  let targetRow ← getVersion policyKey targetVersion organizationId
  if targetRow.activatedAt.isNone && targetRow.status ≠ .active then
    throw (.invalidTransition targetRow.status.value "rollback to a version that was never activated")
  let latest ← getLatest policyKey organizationId (some targetRow)
  if latest.status = .archived then throw (.invalidTransition latest.status.value "rollback")
  let newRow ← editPolicy policyKey organizationId
    (revertedPolicy targetRow.content (latest.version + 1) now) (some latest)
  transition newRow { rollbackOfVersion := some targetVersion }
    { policyKey
      version := newRow.version
      eventType := .rolledBack
      actor := some actor
      reason
      organizationId }

end LifecycleService

end PayReality
