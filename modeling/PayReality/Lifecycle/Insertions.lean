import PayReality.Lib.Runs
import PayReality.Lifecycle.Operations

/-!
# Which operations insert versions

Creations, edits and rollbacks insert drafts that have never been active (`draftRow`); no other
operation inserts a version (`Operation.sends_insertions`).
-/

namespace PayReality

open Program RuntimePolicyService LifecycleService SafetyChecks Service

/-- The version that a write inserts. -/
def Write.inserted : Write → Option RuntimePolicyRecord
  | .insertRecord row => some row
  | _ => none

/-- Every version that a statement inserts is as `I` says. -/
def Inserts (I : RuntimePolicyRecord → Prop) : Statement → Prop
  | .commit ws => ∀ w ∈ ws, ∀ row, w.inserted = some row → I row
  | _ => True

/-- A new version, as the operations insert it. -/
def RuntimePolicyRecord.IsDraft (row : RuntimePolicyRecord) : Prop :=
  ∃ key version content o approval, row = draftRow key version content o approval

section

variable {I : RuntimePolicyRecord → Prop} {P : Platform} {key : Uuid} {o : Option Uuid}
  {row : RuntimePolicyRecord} {now : Timestamp} {held : Option RuntimePolicyRecord}

/-- The programs that insert only what is as `I` says. -/
abbrev Inserting {α : Type} (I : RuntimePolicyRecord → Prop) (p : Service α) : Prop :=
  Sends (Inserts I) (fun _ _ => True) p fun _ => True

theorem inserting_harmless : Harmless (Inserts I) where
  select _ := trivial
  rollback := trivial
  upload _ _ := trivial
  delete _ := trivial
  event event := by
    intro w hw row hrow
    rw [List.mem_singleton.1 hw] at hrow
    cases hrow

/-- One write that inserts nothing. -/
theorem inserting_commit {w : Write} (hw : w.inserted = none) :
    Inserting I (Service.commit [w]) := by
  refine sends_send (fun w' hw' row hrow => ?_) fun _ _ => trivial
  rw [List.mem_singleton.1 hw', hw] at hrow
  cases hrow

theorem inserting_look {q : Select} : Inserting I (Service.select q) :=
  sends_look inserting_harmless

theorem inserting_refresh {version : ℕ} : Inserting I (refresh key version o) :=
  sends_refresh inserting_harmless

theorem inserting_event {event : LifecycleEvent} : Inserting I (recordLifecycleEvent event) :=
  sends_event inserting_harmless

theorem inserting_reconcile : Inserting I (reconcileOrganizationOpaState o now) :=
  sends_reconcile inserting_harmless

/-- A program and what follows it. -/
theorem inserting_bind {α β : Type} {p : Service α} {f : α → Service β} (hp : Inserting I p)
    (hf : ∀ a, Inserting I (f a)) : Inserting I (p >>= f) :=
  sends_bind (sends_mono hp fun a _ => hf a)

theorem inserting_getLatest : Inserting I (getLatest key o held) := by
  refine inserting_bind inserting_look fun found => ?_
  cases found <;> trivial

theorem inserting_transition {columns : RecordColumns} {event : LifecycleEvent} :
    Inserting I (transition row columns event) :=
  inserting_bind (inserting_commit rfl) fun _ => inserting_bind inserting_refresh fun _ =>
    inserting_bind inserting_event fun _ => trivial

/-! ## Reviews and compilations -/

theorem inserting_submitForReview : Inserting I (submitForReview key o) := by
  refine inserting_bind inserting_getLatest fun row => ?_
  dsimp only
  split
  · trivial
  · exact inserting_transition

theorem inserting_approve {approver : String} {id : Option String} :
    Inserting I (approve key o approver id now) := by
  refine inserting_bind inserting_getLatest fun row => ?_
  dsimp only
  split
  · trivial
  · exact inserting_transition

theorem inserting_reject {reviewer reason : String} {id : Option String} :
    Inserting I (reject key o reviewer reason id now) := by
  refine inserting_bind inserting_getLatest fun row => ?_
  dsimp only
  split
  · trivial
  · split
    · trivial
    · exact inserting_transition

theorem inserting_otherActivePolicies : Inserting I (otherActivePolicies key o) :=
  sends_otherActivePolicies inserting_harmless

theorem inserting_compilePolicy : Inserting I (compilePolicy P key o now held) := by
  refine inserting_bind inserting_getLatest fun row => ?_
  dsimp only
  split
  · trivial
  refine inserting_bind inserting_otherActivePolicies fun others => ?_
  refine inserting_bind sends_lift fun result => ?_
  split
  · trivial
  · exact inserting_bind inserting_transition fun _ => trivial

/-! ## Deployments -/

theorem inserting_ensureMandate {constraints : Constraints} {version : ℕ} :
    Inserting I (ensureMandate P constraints version now) :=
  sends_ensureMandate inserting_harmless trivial fun _ => trivial

theorem inserts_deployWrites {replaced : Option RuntimePolicyRecord} {content : RuntimePolicy} :
    Inserts I (.commit (deployWrites row replaced content)) := by
  intro w hw row' hrow'
  rcases List.mem_append.1 hw with hw | hw
  · obtain ⟨q, -, rfl⟩ := Option.map_eq_some_iff.1 (Option.mem_toList.1 hw)
    cases hrow'
  · rw [List.mem_singleton.1 hw] at hrow'
    cases hrow'

theorem inserting_publish {version : ℕ} {bundle : PolicyBundle} :
    Inserting I (publish P row o version bundle now) :=
  inserting_bind (sends_send trivial fun _ _ => trivial) fun _ =>
    inserting_bind inserting_look fun _ => inserting_bind inserting_ensureMandate fun _ =>
      inserting_bind (sends_send inserts_deployWrites fun _ _ => trivial) fun _ => trivial

theorem inserting_deployBundle {bundle : PolicyBundle} :
    Inserting I (deployBundle P row o bundle now) := by
  refine inserting_bind inserting_look fun prior => ?_
  dsimp only
  split
  · trivial
  refine inserting_bind inserting_look fun m =>
    inserting_bind (sends_send trivial fun _ _ => trivial) fun _ =>
      inserting_bind (sends_tryCatch inserting_publish fun e => ?_) fun _ =>
        inserting_bind inserting_look fun _ => trivial
  exact inserting_bind (sends_send trivial fun _ _ => trivial) fun _ =>
    inserting_bind inserting_reconcile fun _ => trivial

theorem inserting_deployAttempts {n : ℕ} :
    Inserting I (deployAttempts P key o now n held) := by
  induction n generalizing held with
  | zero => exact inserting_bind inserting_reconcile fun _ => trivial
  | succ n ih =>
    refine sends_tryCatch (inserting_bind inserting_getLatest fun row => ?_) fun e => ?_
    · dsimp only
      split
      · trivial
      refine inserting_bind inserting_otherActivePolicies fun others => ?_
      refine inserting_bind sends_lift fun result => ?_
      split
      · trivial
      split
      · trivial
      · exact inserting_deployBundle
    · split
      · exact inserting_bind (sends_send trivial fun _ _ => trivial) fun _ => ih
      · trivial

/-! ## Activations, retirements and schedules -/

theorem inserting_passSafetyChecks {actor : String} :
    Inserting I (passSafetyChecks P row key o actor) :=
  sends_passSafetyChecks inserting_harmless

theorem inserting_activatePolicy {actor : String} {reason : Option String} :
    Inserting I (activatePolicy P key o actor reason now) := by
  refine inserting_bind inserting_getLatest fun row => ?_
  dsimp only
  split
  · trivial
  refine inserting_bind inserting_passSafetyChecks fun _ => inserting_bind ?_ fun _ =>
    inserting_bind inserting_getLatest fun row => inserting_transition
  unfold compileAndDeploy
  split
  · refine inserting_bind inserting_compilePolicy fun outcome => ?_
    dsimp only
    split
    · trivial
    · exact inserting_deployAttempts
  · exact inserting_deployAttempts

theorem inserting_insertSchedule {schedule : PolicyActivationSchedule} :
    Inserting I (insertSchedule schedule) := by
  refine inserting_bind (inserting_commit rfl) fun _ => inserting_bind inserting_look fun found => ?_
  cases found with
  | none => trivial
  | some row => exact inserting_bind inserting_event fun _ => trivial

theorem inserting_scheduleActivation {effectiveAt : Timestamp} {actor : String}
    {reason : Option String} : Inserting I (scheduleActivation P key o effectiveAt actor reason) := by
  refine inserting_bind inserting_getLatest fun row => ?_
  dsimp only
  split
  · trivial
  exact inserting_bind inserting_passSafetyChecks fun _ =>
    inserting_bind (sends_send trivial fun _ _ => trivial) fun id => inserting_insertSchedule

theorem inserting_scheduleRetirement {effectiveAt : Timestamp} {actor : String}
    {reason : Option String} : Inserting I (scheduleRetirement key o effectiveAt actor reason) := by
  refine inserting_bind inserting_getLatest fun row => ?_
  dsimp only
  split
  · trivial
  exact inserting_bind (sends_send trivial fun _ _ => trivial) fun id => inserting_insertSchedule

theorem inserting_cancelSchedule {id : Uuid} {actor : String} {reason : Option String} :
    Inserting I (cancelSchedule id o actor reason) := by
  refine inserting_bind inserting_look fun found => ?_
  split
  · trivial
  split
  · trivial
  refine inserting_bind (inserting_commit rfl) fun _ => inserting_bind inserting_look fun found => ?_
  cases found with
  | none => trivial
  | some row => exact inserting_bind inserting_event fun _ => trivial

theorem inserting_retirePolicy {actor : String} {reason : Option String} :
    Inserting I (retirePolicy key o actor reason now) := by
  refine inserting_bind inserting_getLatest fun row => ?_
  dsimp only
  split
  · trivial
  exact inserting_bind (inserting_commit rfl) fun _ => inserting_bind inserting_refresh fun _ =>
    inserting_bind inserting_reconcile fun _ => inserting_bind inserting_event fun _ => trivial

theorem inserting_archivePolicy {actor : String} {reason : Option String} :
    Inserting I (archivePolicy key o actor reason) := by
  refine inserting_bind inserting_getLatest fun row => ?_
  dsimp only
  split
  · trivial
  split
  · trivial
  · exact inserting_transition

theorem inserting_executeSchedule {schedule : PolicyActivationSchedule} :
    Inserting I (executeSchedule P schedule now) := by
  refine sends_tryCatch (inserting_bind ?_ fun _ => inserting_bind (inserting_commit rfl) fun _ =>
    inserting_bind inserting_look fun _ => trivial) fun e => ?_
  · unfold scheduledOperation
    cases schedule.action with
    | activate => exact inserting_activatePolicy
    | retire => exact inserting_retirePolicy
  · exact inserting_bind (sends_send trivial fun _ _ => trivial) fun _ =>
      inserting_bind (inserting_commit rfl) fun _ => inserting_bind inserting_look fun _ => trivial

theorem inserting_processDueSchedules : Inserting I (processDueSchedules P now) := by
  have hall : ∀ due, Inserting I (executeSchedules P now due) := by
    intro due
    induction due with
    | nil => trivial
    | cons schedule due ih =>
      refine inserting_bind inserting_executeSchedule fun _ => inserting_bind ?_ fun _ =>
        inserting_bind ih fun _ => trivial
      cases due with
      | nil => trivial
      | cons schedule due => exact inserting_bind inserting_look fun _ => trivial
  exact inserting_bind inserting_look fun due => hall due

theorem inserting_uploadActive {rows : List RuntimePolicyRecord} {bundleId : String} :
    Inserting I (uploadActive o rows bundleId now) := by
  refine inserting_bind sends_lift fun result => ?_
  split
  · trivial
  · exact sends_send trivial fun _ _ => trivial

theorem inserting_reconcileAll : Inserting I (reconcileOpaWithActivePolicies now) := by
  have hall : ∀ os, Inserting I (reconcileOrganizations now os) := by
    intro os
    induction os with
    | nil => trivial
    | cons o os ih =>
      refine inserting_bind inserting_look fun rows => ?_
      split
      · exact ih
      · exact inserting_bind inserting_uploadActive fun _ => ih
  refine inserting_bind inserting_look fun os => ?_
  split
  · trivial
  · exact inserting_bind (hall os) fun _ => trivial

/-! ## Drafts -/

theorem inserting_insertDraft (h : I row) {eventType : LifecycleEventType} :
    Inserting I (insertDraft row eventType) := by
  refine inserting_bind (sends_send (fun w hw row' hrow' => ?_) fun _ _ => trivial) fun _ =>
    inserting_bind inserting_refresh fun _ => inserting_bind inserting_event fun _ => trivial
  rw [List.mem_singleton.1 hw] at hrow'
  cases hrow'
  exact h

theorem inserting_createPolicy (h : ∀ row, row.IsDraft → I row) {policy : RuntimePolicy}
    {approval : Option Uuid} : Inserting I (createPolicy P policy o approval) := by
  have hdraft : Inserting I (policyKeyOf P policy >>= fun key =>
      insertDraft (draftRow key 1 policy o approval) .created) := by
    refine inserting_bind ?_ fun key => inserting_insertDraft (h _ ⟨_, _, _, _, _, rfl⟩)
    unfold policyKeyOf
    split
    · trivial
    · exact sends_send trivial fun _ _ => trivial
  refine inserting_bind ?_ fun sandbox => ?_
  · cases o with
    | none => trivial
    | some id =>
      refine inserting_bind inserting_look fun found => ?_
      cases found <;> trivial
  · split
    · refine inserting_bind inserting_look fun existing => ?_
      dsimp only
      split
      · trivial
      · exact hdraft
    · exact hdraft

theorem inserting_editPolicy (h : ∀ row, row.IsDraft → I row) {updated : RuntimePolicy} :
    Inserting I (editPolicy key o updated held) := by
  refine inserting_bind inserting_getLatest fun latest => ?_
  dsimp only
  split
  · trivial
  · exact inserting_insertDraft (h _ ⟨_, _, _, _, _, rfl⟩)

theorem inserting_rollbackPolicy (h : ∀ row, row.IsDraft → I row) {target : ℕ} {actor : String}
    {reason : Option String} : Inserting I (rollbackPolicy key o target actor reason now) := by
  refine inserting_bind (inserting_bind inserting_look fun found => ?_) fun targetRow => ?_
  · cases found <;> trivial
  dsimp only
  split
  · trivial
  refine inserting_bind inserting_getLatest fun latest => ?_
  split
  · trivial
  · exact inserting_bind (inserting_editPolicy h) fun _ => inserting_transition

/-- **What an operation inserts.** Only creations, edits and rollbacks do, and they insert drafts. -/
theorem Operation.sends_insertions (op : Operation)
    (h : op.inserts → ∀ row, row.IsDraft → I row) : Inserting I (op.program P) := by
  have hrun : ∀ {α : Type} {p : Service α}, Inserting I p → Inserting I p.run := fun hp =>
    inserting_bind hp fun _ => trivial
  cases op with
  | createPolicy policy o approval => exact hrun (inserting_createPolicy (h trivial))
  | editPolicy key o updated => exact hrun (inserting_editPolicy (h trivial))
  | submitForReview key o => exact hrun inserting_submitForReview
  | approve key o approver id now => exact hrun inserting_approve
  | reject key o reviewer reason id now => exact hrun inserting_reject
  | compilePolicy key o now => exact hrun inserting_compilePolicy
  | deployPolicy key o now => exact hrun inserting_deployAttempts
  | activatePolicy key o actor reason now => exact hrun inserting_activatePolicy
  | scheduleActivation key o effectiveAt actor reason => exact hrun inserting_scheduleActivation
  | scheduleRetirement key o effectiveAt actor reason => exact hrun inserting_scheduleRetirement
  | cancelSchedule id o actor reason => exact hrun inserting_cancelSchedule
  | processDueSchedules now => exact hrun inserting_processDueSchedules
  | retirePolicy key o actor reason now => exact hrun inserting_retirePolicy
  | archivePolicy key o actor reason => exact hrun inserting_archivePolicy
  | rollbackPolicy key o target actor reason now => exact hrun (inserting_rollbackPolicy (h trivial))
  | reconcile now => exact hrun inserting_reconcileAll
  | submitIntent agent req now => exact hrun (sends_send trivial fun _ _ => trivial)

end

end PayReality
