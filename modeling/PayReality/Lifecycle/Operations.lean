import PayReality.Lifecycle.Activations

/-!
# The operations of the lifecycle

Everything that the API and the scheduler start (`Operation`), and that each of it keeps the
contract (`Operation.keeps`). What holds in every run of any of them follows by `Reach.sound` and
`Reach.invariant`.
-/

namespace PayReality

open Program Rego RuntimePolicyService LifecycleService SafetyChecks Service

variable {ι : Type} [DecidableEq ι] {T : Terms ι} {H : Host} {s t u : Store ι} {i : ι}
  {key : Uuid} {o : Option Uuid} {row : RuntimePolicyRecord} {now : Timestamp}

/-! ## Schedules -/

/-- A write that no version is touched by. -/
def Write.aside : Write → Bool
  | .insertRecord _ | .updateRecord _ _ _ => false
  | _ => true

theorem wp_commitAside (hT : T.Reviews) {w : Write} (hw : w.aside = true)
    (hidle : s.pending i = none) {R : Unit → Store ι → Prop} {E : PyError → Store ι → Prop}
    (hR : ∀ t, Onward T i s t → R () t) (hE : ∀ e t, Onward T i s t → E e t) :
    wp (contract T H) i (Service.commit [w]) R E s := by
  have hplain : T.plain w := hT w fun row heq => by
    rw [heq] at hw
    cases hw
  have hok : PlainOk T s w := by
    cases w with
    | insertRecord | updateRecord => cases hw
    | insertSchedule | updateSchedule | insertEvent => trivial
  refine wp_commit hidle hplain hok (fun t hst hinv hok _ => hR _ ?_) fun e t hst =>
    hE e t (.of_still hst.toStill hidle)
  exact hst.toLater.onward (Later.commit_plain hinv (hst.pending.trans hidle) hplain hok)

theorem wp_insertSchedule (hT : T.Reviews) {schedule : PolicyActivationSchedule}
    (hidle : s.pending i = none) :
    wp (contract T H) i (insertSchedule schedule) (fun _ t => t.pending i = none)
      (fun _ t => t.pending i = none) s := by
  refine wp_bind (wp_commitAside hT rfl hidle (fun t hst => ?_) fun e t hst => hst.idle)
  refine wp_bind (wp_look rfl (fun found u htu => ?_) fun e u htu => htu.pending.trans hst.idle)
  have hu := htu.pending.trans hst.idle
  cases found with
  | none => exact hu
  | some schedule =>
    exact wp_bind (wp_mono (wp_recordLifecycleEvent hu (hT.event _)) (fun _ _ h => h.idle)
      fun _ _ h => h)

theorem wp_scheduleActivation (hT : T.Reviews) {actor : String} {reason : Option String}
    {effectiveAt : Timestamp} (hidle : s.pending i = none) :
    wp (contract T H) i (scheduleActivation H.toPlatform key o effectiveAt actor reason)
      (fun _ t => t.pending i = none) (fun _ t => t.pending i = none) s := by
  unfold scheduleActivation
  refine wp_bind (wp_getLatest (by simp) (fun row t hst hrow => ?_) fun e t hst =>
    hst.pending.trans hidle)
  have htidle := hst.pending.trans hidle
  dsimp only
  split
  · exact htidle
  refine wp_bind (wp_passSafetyChecks hT htidle (fun db₀ u htu _ => ?_) fun _ _ h => h)
  exact wp_bind (wp_uuid4 fun id v huv =>
    wp_insertSchedule hT (huv.pending.trans (htu.pending.trans htidle)))

theorem wp_scheduleRetirement (hT : T.Reviews) {actor : String} {reason : Option String}
    {effectiveAt : Timestamp} (hidle : s.pending i = none) :
    wp (contract T H) i (scheduleRetirement key o effectiveAt actor reason)
      (fun _ t => t.pending i = none) (fun _ t => t.pending i = none) s := by
  unfold scheduleRetirement
  refine wp_bind (wp_getLatest (by simp) (fun row t hst hrow => ?_) fun e t hst =>
    hst.pending.trans hidle)
  have htidle := hst.pending.trans hidle
  dsimp only
  split
  · exact htidle
  exact wp_bind (wp_uuid4 fun id v huv => wp_insertSchedule hT (huv.pending.trans htidle))

theorem wp_cancelSchedule (hT : T.Reviews) {id : Uuid} {actor : String} {reason : Option String}
    (hidle : s.pending i = none) :
    wp (contract T H) i (cancelSchedule id o actor reason)
      (fun _ t => t.pending i = none) (fun _ t => t.pending i = none) s := by
  unfold cancelSchedule
  refine wp_bind (wp_look rfl (fun found t hst => ?_) fun e t hst => hst.pending.trans hidle)
  have htidle := hst.pending.trans hidle
  split
  · exact htidle
  split
  · exact htidle
  refine wp_bind (wp_commitAside hT rfl htidle (fun u htu => ?_) fun e u htu => htu.idle)
  refine wp_bind (wp_look rfl (fun found' v huv => ?_) fun e v huv => huv.pending.trans htu.idle)
  have hv := huv.pending.trans htu.idle
  cases found' with
  | none => exact hv
  | some schedule =>
    exact wp_bind (wp_mono (wp_recordLifecycleEvent hv (hT.event _)) (fun _ _ h => h.idle)
      fun _ _ h => h)

theorem wp_executeSchedule (hT : T.Reviews) (hP : T.Passes H.toPlatform)
    {schedule : PolicyActivationSchedule} (hidle : s.pending i = none) :
    wp (contract T H) i (executeSchedule H.toPlatform schedule now)
      (fun _ t => t.pending i = none) (fun _ t => t.pending i = none) s := by
  have hupdate : ∀ {t : Store ι} {status executedAt executionError}, t.pending i = none →
      wp (contract T H) i (Service.commit [.updateSchedule schedule.id status executedAt executionError])
        (fun _ t => t.pending i = none) (fun _ t => t.pending i = none) t := fun ht =>
    wp_commitAside hT rfl ht (fun _ h => h.idle) fun _ _ h => h.idle
  have hoperation : wp (contract T H) i (scheduledOperation H.toPlatform schedule now)
      (fun _ t => t.pending i = none) (fun _ t => t.pending i = none) s := by
    unfold scheduledOperation
    cases schedule.action with
    | activate => exact wp_activatePolicy hT hP hidle
    | retire => exact wp_mono (wp_retirePolicy hT hidle) (fun _ _ h => h.idle) fun _ _ h => h.idle
  have hread : ∀ {t : Store ι}, t.pending i = none →
      wp (contract T H) i (Service.select (.schedule schedule.id)) (fun _ t => t.pending i = none)
        (fun _ t => t.pending i = none) t := fun ht =>
    wp_look rfl (fun _ _ hst => hst.pending.trans ht) fun _ _ hst => hst.pending.trans ht
  -- the schedule is marked as failed, and read again
  have hhandler : ∀ {t : Store ι} {e : PyError}, wp (contract T H) i (do
      Service.rollback
      Service.commit [.updateSchedule schedule.id .failed none (some e)]
      let _ ← Service.select (.schedule schedule.id)
      return ({
        scheduleId := schedule.id
        policyKey := schedule.policyKey
        action := schedule.action
        error := some e } : ScheduleExecutionResult))
      (fun _ t => t.pending i = none) (fun _ t => t.pending i = none) t := by
    intro t e
    refine wp_bind (Service.wp_rollback fun u hu _ => wp_bind (wp_mono (hupdate hu.idle)
      (fun _ v hv => ?_) fun _ _ h => h))
    exact wp_bind (wp_mono (hread hv) (fun _ _ h => h) fun _ _ h => h)
  refine wp_tryCatch (wp_bind (wp_mono hoperation (fun _ t ht => ?_) fun e t ht => hhandler))
  refine wp_bind (wp_mono (hupdate ht) (fun _ u hu => ?_) fun e u hu => hhandler)
  exact wp_bind (wp_mono (hread hu) (fun _ _ h => h) fun e v hv => hhandler)

theorem wp_processDueSchedules (hT : T.Reviews) (hP : T.Passes H.toPlatform)
    (hidle : s.pending i = none) :
    wp (contract T H) i (processDueSchedules H.toPlatform now)
      (fun _ t => t.pending i = none) (fun _ t => t.pending i = none) s := by
  have hnext : ∀ (due : List PolicyActivationSchedule) (t : Store ι), t.pending i = none →
      wp (contract T H) i (readNext due) (fun _ t => t.pending i = none)
        (fun _ t => t.pending i = none) t := by
    intro due t ht
    cases due with
    | nil => exact ht
    | cons schedule due =>
      exact wp_bind (wp_look rfl (fun _ _ hst => hst.pending.trans ht) fun _ _ hst =>
        hst.pending.trans ht)
  have hall : ∀ (due : List PolicyActivationSchedule) (t : Store ι), t.pending i = none →
      wp (contract T H) i (executeSchedules H.toPlatform now due) (fun _ t => t.pending i = none)
        (fun _ t => t.pending i = none) t := by
    intro due
    induction due with
    | nil => exact fun t ht => ht
    | cons schedule due ih =>
      intro t ht
      refine wp_bind (wp_mono (wp_executeSchedule hT hP ht) (fun _ u hu => ?_) fun _ _ h => h)
      refine wp_bind (wp_mono (hnext due u hu) (fun _ v hv => ?_) fun _ _ h => h)
      exact wp_bind (wp_mono (ih v hv) (fun _ _ h => h) fun _ _ h => h)
  exact wp_bind (wp_look rfl (fun due t hst => hall due t (hst.pending.trans hidle)) fun e t hst =>
    hst.pending.trans hidle)

/-! ## Submissions -/

theorem wp_submitIntent {agent : Agent} {req : IntentRequest} (hidle : s.pending i = none) :
    wp (contract T H) i (Service.submitIntent agent req now) (fun _ t => t.pending i = none)
      (fun _ t => t.pending i = none) s := by
  refine wp_send fun t hst _ => ⟨trivial, fun r u hstep => ?_⟩
  have hu : u.pending i = none := by
    rcases hstep with ⟨-, rfl⟩ | ⟨-, rfl⟩ <;> exact hst.pending.trans hidle
  exact ⟨fun _ _ => hu, fun _ _ => hu⟩

/-! ## Operations -/

/-- What may be started. -/
inductive Operation where
  | createPolicy (policy : RuntimePolicy) (o : Option Uuid) (sourceGraphApprovalId : Option Uuid)
  | editPolicy (key : Uuid) (o : Option Uuid) (updatedPolicy : RuntimePolicy)
  | submitForReview (key : Uuid) (o : Option Uuid)
  | approve (key : Uuid) (o : Option Uuid) (approver : String) (approverUserId : Option String)
      (now : Timestamp)
  | reject (key : Uuid) (o : Option Uuid) (reviewer reason : String)
      (reviewerUserId : Option String) (now : Timestamp)
  | compilePolicy (key : Uuid) (o : Option Uuid) (now : Timestamp)
  | deployPolicy (key : Uuid) (o : Option Uuid) (now : Timestamp)
  | activatePolicy (key : Uuid) (o : Option Uuid) (actor : String) (reason : Option String)
      (now : Timestamp)
  | scheduleActivation (key : Uuid) (o : Option Uuid) (effectiveAt : Timestamp) (actor : String)
      (reason : Option String)
  | scheduleRetirement (key : Uuid) (o : Option Uuid) (effectiveAt : Timestamp) (actor : String)
      (reason : Option String)
  | cancelSchedule (id : Uuid) (o : Option Uuid) (actor : String) (reason : Option String)
  | processDueSchedules (now : Timestamp)
  | retirePolicy (key : Uuid) (o : Option Uuid) (actor : String) (reason : Option String)
      (now : Timestamp)
  | archivePolicy (key : Uuid) (o : Option Uuid) (actor : String) (reason : Option String)
  | rollbackPolicy (key : Uuid) (o : Option Uuid) (targetVersion : ℕ) (actor : String)
      (reason : Option String) (now : Timestamp)
  | reconcile (now : Timestamp)
  | submitIntent (agent : Agent) (req : IntentRequest) (now : Timestamp)

namespace Operation

def program (P : Platform) : Operation → Service Unit
  | .createPolicy policy o approval => (RuntimePolicyService.createPolicy P policy o approval).run
  | .editPolicy key o updated => (RuntimePolicyService.editPolicy key o updated).run
  | .submitForReview key o => (RuntimePolicyService.submitForReview key o).run
  | .approve key o approver id now => (RuntimePolicyService.approve key o approver id now).run
  | .reject key o reviewer reason id now =>
      (RuntimePolicyService.reject key o reviewer reason id now).run
  | .compilePolicy key o now => (RuntimePolicyService.compilePolicy P key o now).run
  | .deployPolicy key o now => (RuntimePolicyService.deployPolicy P key o now).run
  | .activatePolicy key o actor reason now =>
      (LifecycleService.activatePolicy P key o actor reason now).run
  | .scheduleActivation key o effectiveAt actor reason =>
      (LifecycleService.scheduleActivation P key o effectiveAt actor reason).run
  | .scheduleRetirement key o effectiveAt actor reason =>
      (LifecycleService.scheduleRetirement key o effectiveAt actor reason).run
  | .cancelSchedule id o actor reason => (LifecycleService.cancelSchedule id o actor reason).run
  | .processDueSchedules now => (LifecycleService.processDueSchedules P now).run
  | .retirePolicy key o actor reason now => (LifecycleService.retirePolicy key o actor reason now).run
  | .archivePolicy key o actor reason => (LifecycleService.archivePolicy key o actor reason).run
  | .rollbackPolicy key o target actor reason now =>
      (LifecycleService.rollbackPolicy key o target actor reason now).run
  | .reconcile now => (reconcileOpaWithActivePolicies now).run
  | .submitIntent agent req now => (Service.submitIntent agent req now).run

/-- The operations that insert a version. -/
def inserts : Operation → Prop
  | .createPolicy _ _ _ | .editPolicy _ _ _ | .rollbackPolicy _ _ _ _ _ _ => True
  | _ => False

/-- The operations that deploy without the safety checks. -/
def direct : Operation → Prop
  | .deployPolicy _ _ _ => True
  | _ => False

/-- **Every operation keeps the contract.** -/
theorem keeps (op : Operation) (hT : T.Reviews) (hP : T.Passes H.toPlatform)
    (hinserts : op.inserts → ∀ w, T.plain w)
    (hdirect : op.direct → ∀ i key o s, Gated T i key o s) :
    (contract T H).Keeps (op.program H.toPlatform) := by
  have honward : ∀ {α : Type} {p : Service α}, (∀ (i : ι) (s : Store ι), s.pending i = none →
      wp (contract T H) i p (fun _ => Onward T i s) (fun _ => Onward T i s) s) →
      (contract T H).Keeps p.run := fun h => Logic.Keeps.run fun i s _ hidle =>
    wp_mono (h i s hidle) (fun _ _ h => h.idle) fun _ _ h => h.idle
  cases op with
  | createPolicy policy o approval => exact honward fun i s => wp_createPolicy (hinserts trivial)
  | editPolicy key o updated =>
    refine Logic.Keeps.run fun i s _ hidle => ?_
    exact wp_mono (wp_editPolicy (hinserts trivial) hidle (by simp)) (fun _ _ h => h.1.idle)
      fun _ _ h => h.idle
  | submitForReview key o => exact honward fun i s => wp_submitForReview hT
  | approve key o approver id now => exact honward fun i s => wp_approve hT
  | reject key o reviewer reason id now => exact honward fun i s => wp_reject hT
  | compilePolicy key o now => exact honward fun i s hidle => wp_compilePolicy hT hidle (by simp)
  | deployPolicy key o now =>
    exact honward fun i s hidle => wp_deployPolicy hidle (by simp) (hdirect trivial i key o s)
  | activatePolicy key o actor reason now =>
    exact Logic.Keeps.run fun i s _ hidle => wp_activatePolicy hT hP hidle
  | scheduleActivation key o effectiveAt actor reason =>
    exact Logic.Keeps.run fun i s _ hidle => wp_scheduleActivation hT hidle
  | scheduleRetirement key o effectiveAt actor reason =>
    exact Logic.Keeps.run fun i s _ hidle => wp_scheduleRetirement hT hidle
  | cancelSchedule id o actor reason =>
    exact Logic.Keeps.run fun i s _ hidle => wp_cancelSchedule hT hidle
  | processDueSchedules now =>
    exact Logic.Keeps.run fun i s _ hidle => wp_processDueSchedules hT hP hidle
  | retirePolicy key o actor reason now => exact honward fun i s => wp_retirePolicy hT
  | archivePolicy key o actor reason => exact honward fun i s => wp_archivePolicy hT
  | rollbackPolicy key o target actor reason now =>
    exact honward fun i s => wp_rollbackPolicy (hinserts trivial)
  | reconcile now => exact honward fun i s => wp_reconcileAll
  | submitIntent agent req now =>
    exact Logic.Keeps.run fun i s _ hidle => wp_submitIntent hidle

end Operation

/-! ## What an operation sends -/

/-- A program may send what changes no version. -/
structure Harmless (P : Statement → Prop) : Prop where
  select : ∀ q, P (.select q)
  rollback : P .rollback
  upload : ∀ o source, P (.uploadPolicy o source)
  delete : ∀ o, P (.deletePolicy o)
  event : ∀ event, P (.commit [.insertEvent event])

section

variable {P : Statement → Prop} {c : (q : Statement) → Except PyError q.Answer → Prop} {version : ℕ}

omit [DecidableEq ι] in
theorem sends_look (hP : Harmless P) {q : Select} : Sends P c (Service.select q) fun _ => True :=
  sends_send (hP.select q) fun _ _ => trivial

omit [DecidableEq ι] in
theorem sends_refresh (hP : Harmless P) : Sends P c (refresh key version o) fun _ => True := by
  refine sends_bind (sends_mono (sends_look hP) fun found _ => ?_)
  cases found <;> trivial

omit [DecidableEq ι] in
theorem sends_event (hP : Harmless P) {event : LifecycleEvent} :
    Sends P c (recordLifecycleEvent event) fun _ => True :=
  sends_tryCatch (sends_send (hP.event event) fun _ _ => trivial) fun _ =>
    sends_send hP.rollback fun _ _ => trivial

omit [DecidableEq ι] in
theorem sends_lift {α : Type} {x : Except PyError α} : Sends P c (Service.lift x) fun _ => True := by
  cases x <;> trivial

omit [DecidableEq ι] in
theorem sends_reconcile (hP : Harmless P) :
    Sends P c (reconcileOrganizationOpaState o now) fun _ => True := by
  refine sends_bind (sends_mono (sends_look hP) fun rows _ => ?_)
  split
  · exact sends_send (hP.delete o) fun _ _ => trivial
  · refine sends_bind (sends_mono sends_lift fun result _ => ?_)
    split
    · trivial
    · exact sends_send (hP.upload o _) fun _ _ => trivial

omit [DecidableEq ι] in
theorem sends_otherActivePolicies (hP : Harmless P) :
    Sends P c (otherActivePolicies key o) fun _ => True :=
  sends_bind (sends_mono (sends_look hP) fun _ _ => trivial)

omit [DecidableEq ι] in
theorem sends_runSafetyChecks {F : Platform} (hP : Harmless P) :
    Sends P c (runSafetyChecks F key row o) fun _ => True := by
  have hprincipal : ∀ id, Sends P c (getPrincipal id o) fun _ => True := fun id =>
    sends_bind (sends_mono (sends_look hP) fun _ _ => trivial)
  refine sends_bind (sends_mono (sends_look hP) fun others _ => sends_bind (sends_mono
    (R := fun _ => True) ?_ fun broken _ => sends_bind (sends_mono (R := fun _ => True) ?_
    fun missing _ => trivial)))
  · unfold checkBrokenInheritance
    split
    · trivial
    · refine sends_bind (sends_mono (R := fun _ => True) ?_ fun _ _ => trivial)
      unfold resolveDelegator
      split
      · exact hprincipal _
      · exact sends_look hP
  · unfold checkMissingPrincipal
    split
    · trivial
    · exact sends_bind (sends_mono (hprincipal _) fun _ _ => trivial)

omit [DecidableEq ι] in
theorem sends_passSafetyChecks {F : Platform} (hP : Harmless P) {actor : String} :
    Sends P c (passSafetyChecks F row key o actor) fun _ => True := by
  refine sends_bind (sends_mono (sends_runSafetyChecks hP) fun safety _ => ?_)
  cases safety with
  | nil => trivial
  | cons v vs => exact sends_bind (sends_mono (sends_event hP) fun _ _ => trivial)

omit [DecidableEq ι] in
theorem sends_ensureMandate {F : Platform} (hP : Harmless P) (huuid : P .uuid4)
    (hmandate : ∀ m, P (.flushMandate m)) {constraints : Constraints} :
    Sends P c (ensureMandate F constraints version now) fun _ => True := by
  unfold ensureMandate
  split
  · split
    · trivial
    · refine sends_bind (sends_mono (sends_look hP) fun authority _ => ?_)
      split
      · trivial
      · exact sends_bind (sends_send huuid fun id _ =>
          sends_bind (sends_send (hmandate _) fun _ _ => trivial))
  · trivial

end

/-! ## Runs -/

/-- Nothing has been done with policies yet. -/
structure Store.Fresh (s : Store ι) : Prop where
  records : s.db.records = []
  policies : s.db.policies = []
  log : s.log = []
  pending : ∀ i, s.pending i = none
  opa : ∀ o, s.opa o = none
  owed : ∀ i, s.owed i = none
  retiredSince : ∀ o, s.retiredSince o = false

/-- The programs of some operations. -/
def programs (P : Platform) (ops : Set Operation) : Set (Service Unit) :=
  Operation.program P '' ops

omit [DecidableEq ι] in
theorem Store.Fresh.inv (h : s.Fresh) : Inv T s where
  db := {
    idents := by simp [h.records]
    first := by simp [h.records]
    oneActive := by simp [h.records]
    versions := by simp [h.policies]
    oneRow := by simp [h.policies] }
  next i p hp := by simp [h.pending i] at hp
  single i j p q hp := by simp [h.pending i] at hp
  slot i p hp := by simp [h.pending i] at hp
  trailed _ := {
    status := by simp [h.records]
    created := by simp [h.records]
    inserted := by simp [h.log]
    compiles := by simp [h.log]
    contents := by simp [h.log]
    rollbacks := by simp [h.records] }

theorem Store.Fresh.start (h : s.Fresh) :
    (contract T H).inv s ∧ ∀ i, (contract T H).idle i s := ⟨h.inv, h.pending⟩

/-- Operations that may insert versions and deploy without a check. -/
def Terms.free (ι : Type) (trail : Prop) : Terms ι where
  plain _ := True
  gate _ _ _ _ _ := True
  trail := trail
  gate_later _ _ := trivial

omit [DecidableEq ι] in
theorem Terms.free_passes {trail : Prop} {P : Platform} : (Terms.free ι trail).Passes P :=
  fun _ _ _ _ _ _ _ _ _ _ _ _ => trivial

theorem programs_keep (trail : Prop) (ops : Set Operation) :
    ∀ p ∈ programs H.toPlatform ops, (contract (Terms.free ι trail) H).Keeps p := by
  rintro p ⟨op, -, rfl⟩
  exact op.keeps (fun _ _ => trivial) Terms.free_passes (fun _ _ => trivial)
    fun _ _ _ _ _ _ _ _ _ => trivial

/-! ### Operations one after the other -/

/-- A store in which nothing has been done at all. -/
def Store.empty (ι : Type) : Store ι where
  db := {}
  opa _ := none
  pending _ := none
  seen _ _ := none
  uploaded _ := none
  owed _ := none
  retiredSince _ := false
  log := []

omit [DecidableEq ι] in
theorem Store.empty_fresh : (Store.empty ι).Fresh :=
  ⟨rfl, rfl, rfl, fun _ => rfl, fun _ => rfl, fun _ => rfl, fun _ => rfl⟩

variable [Fintype ι]

/-- Operations performed one after the other, where nothing fails. -/
def perform (H : Host) (ops : List (ι × Operation)) :
    World Statement Statement.Answer PyError (Store ι) ι :=
  (Store.schedule H).perform 64 (ops.map fun e => (e.1, e.2.program H.toPlatform))
    ⟨Store.empty ι, fun _ => none⟩

theorem perform_reach {ops : Set Operation} {es : List (ι × Operation)} (h : ∀ e ∈ es, e.2 ∈ ops) :
    Reach (machine H ι) (programs H.toPlatform ops) Store.Fresh (perform H es) := by
  refine Schedule.perform_reach (.init Store.empty_fresh) fun p hp => ?_
  obtain ⟨e, he, rfl⟩ := List.mem_map.1 hp
  exact ⟨e.2, h e he, rfl⟩

/-- A platform with two ids, for runs. -/
def sampleHost : Host where
  uuid s := if s = "1" then some 1 else if s = "2" then some 2 else none
  uuidText n := toString n
  uuidHex n := toString n
  isoformat t := toString t
  lower s := s
  ilike s pattern := s = pattern
  signer := ⟨fun p => p.action, fun p => p.action⟩
  opa _ _ := .timeout

/-- A policy that allows the payments of a principal. -/
def samplePolicy (id principal : String) : RuntimePolicy where
  id
  name := principal
  version := 1
  status := .draft
  scope := ⟨principal, "vendor_payment", none, none⟩
  conditions := []
  effect := .allow

/-- From the creation of a policy to its compilation. -/
def author (key : Uuid) (policy : RuntimePolicy) (o : Option Uuid) : List Operation :=
  [.createPolicy policy o none, .submitForReview key o, .approve key o "approver" none 1,
    .compilePolicy key o 2]

/-- The only client. -/
abbrev client : Fin 1 := 0

/-- Operations performed by one client. -/
def performAlone (ops : List Operation) :
    World Statement Statement.Answer PyError (Store (Fin 1)) (Fin 1) :=
  perform sampleHost (ops.map fun op => (0, op))

theorem performAlone_reach (ops : List Operation) {allowed : Set Operation}
    (h : ∀ op ∈ ops, op ∈ allowed) :
    Reach (machine sampleHost (Fin 1)) (programs sampleHost.toPlatform allowed) Store.Fresh
      (performAlone ops) := by
  refine perform_reach fun e he => ?_
  obtain ⟨op, hop, rfl⟩ := List.mem_map.1 he
  exact h op hop

theorem performAlone_sound (ops : List Operation) : (performAlone ops).store.db.Sound := by
  have hrun : Reach (machine sampleHost (Fin 1)) (programs sampleHost.toPlatform Set.univ) Store.Fresh
      (performAlone ops) := performAlone_reach ops fun _ _ => trivial
  exact (hrun.sound (programs_keep False Set.univ) fun s hs => hs.start).1.db

/-! ### Two clients -/

/-- Operations of two clients that take turns, from an empty store. -/
def takeTurns {M : Machine Statement Statement.Answer PyError (Store Bool) Bool} (S : Schedule M)
    (ts : List (Bool × Option Operation × ℕ)) :
    World Statement Statement.Answer PyError (Store Bool) Bool :=
  S.play (ts.map fun t => ⟨t.1, t.2.1.map fun op => op.program sampleHost.toPlatform, t.2.2⟩)
    ⟨Store.empty Bool, fun _ => none⟩

theorem takeTurns_reach {M : Machine Statement Statement.Answer PyError (Store Bool) Bool}
    (S : Schedule M) (ts : List (Bool × Option Operation × ℕ)) :
    Reach M (programs sampleHost.toPlatform Set.univ) Store.Fresh (takeTurns S ts) := by
  refine Schedule.play_reach (.init Store.empty_fresh) fun t ht p hp => ?_
  obtain ⟨e, -, rfl⟩ := List.mem_map.1 ht
  obtain ⟨op, -, rfl⟩ := Option.map_eq_some_iff.1 hp
  exact ⟨op, trivial, rfl⟩

/-- Operations of the first client. -/
def byFirst (ops : List Operation) : List (Bool × Option Operation × ℕ) :=
  ops.map fun op => (true, some op, 64)

end PayReality
