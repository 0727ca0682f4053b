import PayReality.Lifecycle.Operations

/-!
# The version that a schedule acts on

A schedule names a version, and its execution acts on the latest version of the key. Where every
lookup of the latest version finds the named one, whatever else the other clients do, the execution
commits no status but those of the named version, and the retirement of one that it supersedes.

**Main result** `executeSchedule_named`. What a program may send (`Sends`) is read off it without
the store, so the others may do anything between its statements.
-/

namespace PayReality

open Program Rego RuntimePolicyService LifecycleService SafetyChecks Service Write

variable (schedule : PolicyActivationSchedule)

/-- The version that a schedule names. -/
def PolicyActivationSchedule.target : Uuid × ℕ := (schedule.policyKey, schedule.version)

/-- A status that the execution of a schedule may write, among the writes of one commit. -/
def NamedStatus (ws : List Write) (ident : Uuid × ℕ) (status : PolicyStatus) : Prop :=
  match schedule.action with
  | .activate => ident = schedule.target ∧ (status = .compiled ∨ status = .active) ∨
      ident.1 = schedule.policyKey ∧ status = .retired ∧
        ∃ w content, ws = [w, activatedAs schedule.policyKey schedule.version content]
  | .retire => ident = schedule.target ∧ status = .retired

/-- What the execution of a schedule may commit. -/
structure NamedWrites (ws : List Write) : Prop where
  update : ∀ k v c st, .updateRecord k v c ∈ ws → c.status = some st → NamedStatus schedule ws (k, v) st
  insert : ∀ row, .insertRecord row ∉ ws

def Named : Statement → Prop
  | .commit ws => NamedWrites schedule ws
  | .submitIntent _ _ _ => False
  | _ => True

/-- Where a statement is a lookup of the latest version, it finds the named one. -/
def finds : (q : Statement) → Except PyError q.Answer → Bool
  | .select (.latestVersionRow key _), .ok (some row) =>
      key = schedule.policyKey → row.version = schedule.version
  | _, _ => true

/-- What the queries answer beside. -/
def Looks : (q : Statement) → Except PyError q.Answer → Prop
  | .select (.latestVersionRow key _), .ok (some row) => row.policyKey = key ∧
      (key = schedule.policyKey → row.version = schedule.version)
  | .select (.versionRow key version _), .ok (some row) => row.ident = (key, version)
  | .select (.activeVersion key _), .ok (some row) => row.policyKey = key
  | _, _ => True

variable {schedule} {α : Type} {ι : Type} [DecidableEq ι] {H : Host}

theorem looks_of_step {i : ι} {q : Statement} {s t : Store ι} {r : Except PyError q.Answer}
    (h : (machine H ι).step i q s r t) (hfinds : finds schedule q r = true) : Looks schedule q r := by
  unfold Looks
  split
  · next key o row =>
    rcases h with ⟨hanswer, -⟩ | ⟨hanswer, -⟩
    · have hfound := s.db.latestVersionRow_some (Except.ok.inj hanswer).symm
      exact ⟨hfound.2.1, of_decide_eq_true hfinds⟩
    · cases hanswer
  · next key version o row =>
    rcases h with ⟨hanswer, -⟩ | ⟨hanswer, -⟩
    · obtain ⟨-, hkey, -, hversion⟩ := mem_of_versionRow (Except.ok.inj hanswer).symm
      exact Prod.ext hkey hversion
    · cases hanswer
  · next key o row =>
    rcases h with ⟨hanswer, -⟩ | ⟨hanswer, -⟩
    · simpa using List.find?_some (Except.ok.inj hanswer).symm
    · cases hanswer
  · trivial

/-! ## What the operations may send -/

/-- A program that returns what `R` holds of, and commits statuses of the named version only. -/
abbrev Keeping (schedule : PolicyActivationSchedule) (p : Service α) (R : α → Prop) : Prop :=
  Sends (Named schedule) (Looks schedule) p R

theorem keeping_select {q : Select} {R : q.Answer → Prop}
    (h : ∀ a, Looks schedule (.select q) (.ok a) → R a) : Keeping schedule (Service.select q) R :=
  sends_send trivial h

theorem keeping_rollback {R : Unit → Prop} (h : R ()) : Keeping schedule Service.rollback R :=
  sends_send trivial fun _ _ => h

theorem keeping_commit {ws : List Write} (h : NamedWrites schedule ws) {R : Unit → Prop}
    (hR : R ()) : Keeping schedule (Service.commit ws) R :=
  sends_send h fun _ _ => hR

/-- Writes beside the versions. -/
theorem namedWrites_aside {w : Write} (h : w.aside = true) : NamedWrites schedule [w] where
  update k v c st hw _ := by
    rw [← List.mem_singleton.1 hw] at h
    cases h
  insert row hw := by
    rw [← List.mem_singleton.1 hw] at h
    cases h

theorem named_harmless : Harmless (Named schedule) where
  select _ := trivial
  rollback := trivial
  upload _ _ := trivial
  delete _ := trivial
  event _ := namedWrites_aside rfl

theorem keeping_look {q : Select} : Keeping schedule (Service.select q) fun _ => True :=
  sends_look named_harmless

theorem keeping_refresh {key : Uuid} {version : ℕ} {o : Option Uuid} :
    Keeping schedule (refresh key version o) fun _ => True := sends_refresh named_harmless

theorem keeping_event {event : LifecycleEvent} :
    Keeping schedule (recordLifecycleEvent event) fun _ => True := sends_event named_harmless

theorem keeping_reconcile {o : Option Uuid} {now : Timestamp} :
    Keeping schedule (reconcileOrganizationOpaState o now) fun _ => True :=
  sends_reconcile named_harmless

theorem keeping_getLatest {o : Option Uuid} {held : Option RuntimePolicyRecord}
    (hheld : ∀ q, held = some q → q.ident = schedule.target) :
    Keeping schedule (getLatest schedule.policyKey o held) fun row => row.ident = schedule.target := by
  refine sends_bind (keeping_select fun found hfound => ?_)
  cases found with
  | none => trivial
  | some row =>
    have hrow : row.ident = schedule.target := Prod.ext hfound.1 (hfound.2 rfl)
    show (heldOr held row).ident = _
    cases held with
    | none => exact hrow
    | some q =>
      rw [heldOr]
      split
      · exact hheld q rfl
      · exact hrow

theorem keeping_transition {row : RuntimePolicyRecord} {columns : RecordColumns}
    {event : LifecycleEvent} (h : ∀ st, columns.status = some st →
      NamedStatus schedule [.updateRecord row.policyKey row.version columns] row.ident st) :
    Keeping schedule (transition row columns event) fun _ => True := by
  refine sends_bind (keeping_commit ⟨fun k v c st hw hst => ?_, by simp⟩ ?_)
  · cases List.mem_singleton.1 hw
    exact h st hst
  · exact sends_bind (sends_mono keeping_refresh fun _ _ =>
      sends_bind (sends_mono keeping_event fun _ _ => trivial))

/-! ### Queries only -/

theorem keeping_passSafetyChecks {key : Uuid} {row : RuntimePolicyRecord} {o : Option Uuid}
    {actor : String} :
    Keeping schedule (passSafetyChecks H.toPlatform row key o actor) fun _ => True :=
  sends_passSafetyChecks named_harmless

theorem keeping_otherActivePolicies {key : Uuid} {o : Option Uuid} :
    Keeping schedule (otherActivePolicies key o) fun _ => True :=
  sends_otherActivePolicies named_harmless

theorem keeping_ensureMandate {constraints : Constraints} {version : ℕ} {now : Timestamp} :
    Keeping schedule (ensureMandate H.toPlatform constraints version now) fun _ => True :=
  sends_ensureMandate named_harmless trivial fun _ => trivial

/-! ### An activation -/

section

variable {row : RuntimePolicyRecord} {o : Option Uuid} {now : Timestamp}
  {held : Option RuntimePolicyRecord}

theorem namedWrites_deploy (hactivate : schedule.action = .activate)
    (hrow : row.ident = schedule.target) {replaced : Option RuntimePolicyRecord}
    (hreplaced : ∀ q, replaced = some q → q.policyKey = schedule.policyKey) {content : RuntimePolicy} :
    NamedWrites schedule (deployWrites row replaced content) := by
  obtain ⟨hkey, hversion⟩ : row.policyKey = schedule.policyKey ∧ row.version = schedule.version :=
    Prod.ext_iff.1 hrow
  have htarget : activatedAs schedule.policyKey schedule.version content =
      activatedAs row.policyKey row.version content := by rw [hkey, hversion]
  rcases deployWrites_cases row replaced content with ⟨-, heq⟩ | ⟨q, hq, -, heq⟩
  · rw [heq]
    refine ⟨fun k v c st hw hst => ?_, by simp [activatedAs]⟩
    cases List.mem_singleton.1 hw
    cases hst
    rw [NamedStatus, hactivate]
    exact .inl ⟨hrow, .inr rfl⟩
  · rw [heq]
    refine ⟨fun k v c st hw hst => ?_, by simp [activatedAs]⟩
    rw [NamedStatus, hactivate]
    rcases List.mem_cons.1 hw with hw | hw
    · cases hw
      cases hst
      exact .inr ⟨hreplaced q hq, rfl, _, content, by rw [htarget]⟩
    · cases List.mem_singleton.1 hw
      cases hst
      exact .inl ⟨hrow, .inr rfl⟩

theorem keeping_compilePolicy (hactivate : schedule.action = .activate)
    (hheld : ∀ q, held = some q → q.ident = schedule.target) :
    Keeping schedule (compilePolicy H.toPlatform schedule.policyKey o now held) fun _ => True := by
  refine sends_bind (sends_mono (keeping_getLatest hheld) fun row hrow => ?_)
  dsimp only
  split
  · trivial
  refine sends_bind (sends_mono keeping_otherActivePolicies fun others _ =>
    sends_bind (sends_mono sends_lift fun result _ => ?_))
  split
  · trivial
  refine sends_bind (sends_mono (keeping_transition fun st hst => ?_) fun _ _ => trivial)
  cases hst
  rw [NamedStatus, hactivate]
  exact .inl ⟨hrow, .inl rfl⟩

theorem keeping_publish (hactivate : schedule.action = .activate)
    (hrow : row.ident = schedule.target) {version : ℕ} {bundle : PolicyBundle} :
    Keeping schedule (publish H.toPlatform row o version bundle now) fun _ => True := by
  have hkey : row.policyKey = schedule.policyKey := (Prod.ext_iff.1 hrow).1
  refine sends_bind (sends_send trivial fun _ _ => sends_bind (keeping_select fun replaced hfound =>
    sends_bind (sends_mono keeping_ensureMandate fun constraints _ => sends_bind
      (keeping_commit (namedWrites_deploy hactivate hrow fun q hq => ?_) trivial))))
  subst hq
  exact hfound.trans hkey

theorem keeping_deployBundle (hactivate : schedule.action = .activate)
    (hrow : row.ident = schedule.target) {bundle : PolicyBundle} :
    Keeping schedule (deployBundle H.toPlatform row o bundle now) fun _ => True := by
  refine sends_bind (sends_mono keeping_look fun prior _ => ?_)
  dsimp only
  split
  · trivial
  refine sends_bind (sends_mono keeping_look fun m _ => sends_bind (sends_send trivial fun _ _ =>
    sends_bind (sends_mono (R := fun _ => True) (sends_tryCatch (keeping_publish hactivate hrow)
      fun e => ?_) fun constraints _ => sends_bind (sends_mono keeping_look fun _ _ => trivial))))
  exact sends_bind (keeping_rollback (sends_bind (sends_mono keeping_reconcile fun _ _ => trivial)))

theorem keeping_deployAttempts (hactivate : schedule.action = .activate) {n : ℕ}
    (hheld : ∀ q, held = some q → q.ident = schedule.target) :
    Keeping schedule (deployAttempts H.toPlatform schedule.policyKey o now n held) fun _ => True := by
  induction n generalizing held with
  | zero => exact sends_bind (sends_mono keeping_reconcile fun _ _ => trivial)
  | succ n ih =>
    refine sends_tryCatch (sends_bind (sends_mono (keeping_getLatest hheld) fun row hrow => ?_))
      fun e => ?_
    · dsimp only
      split
      · trivial
      refine sends_bind (sends_mono keeping_otherActivePolicies fun others _ =>
    sends_bind (sends_mono sends_lift fun result _ => ?_))
      split
      · trivial
      split
      · trivial
      · exact keeping_deployBundle hactivate hrow
    · split
      · exact sends_bind (keeping_rollback (ih (by simp)))
      · trivial

theorem keeping_activatePolicy (hactivate : schedule.action = .activate) {actor : String}
    {reason : Option String} :
    Keeping schedule (activatePolicy H.toPlatform schedule.policyKey o actor reason now)
      fun _ => True := by
  refine sends_bind (sends_mono (keeping_getLatest (by simp)) fun row hrow => ?_)
  dsimp only
  split
  · trivial
  have hheld : ∀ q, some row = some q → q.ident = schedule.target := fun q hq =>
    Option.some.inj hq ▸ hrow
  have hdeploy : Keeping schedule (compileAndDeploy H.toPlatform row schedule.policyKey o now)
      fun _ => True := by
    unfold compileAndDeploy
    split
    · refine sends_bind (sends_mono (keeping_compilePolicy hactivate hheld) fun outcome _ => ?_)
      split
      · trivial
      · exact keeping_deployAttempts hactivate (by simp)
    · exact keeping_deployAttempts hactivate hheld
  exact sends_bind (sends_mono keeping_passSafetyChecks fun _ _ => sends_bind (sends_mono hdeploy
    fun _ _ => sends_bind (sends_mono (keeping_getLatest (by simp)) fun row' _ =>
      keeping_transition (by simp))))

end

/-! ### An execution -/

theorem keeping_retirePolicy (hretire : schedule.action = .retire) {o : Option Uuid}
    {now : Timestamp} {actor : String} {reason : Option String} :
    Keeping schedule (retirePolicy schedule.policyKey o actor reason now) fun _ => True := by
  refine sends_bind (sends_mono (keeping_getLatest (by simp)) fun row hrow => ?_)
  dsimp only
  split
  · trivial
  refine sends_bind (keeping_commit ⟨fun k v c st hw hst => ?_, by simp⟩
    (sends_bind (sends_mono keeping_refresh fun row' _ => sends_bind (sends_mono keeping_reconcile
      fun _ _ => sends_bind (sends_mono keeping_event fun _ _ => trivial)))))
  cases List.mem_singleton.1 hw
  cases hst
  rw [NamedStatus, hretire]
  exact ⟨hrow, rfl⟩

theorem keeping_executeSchedule {now : Timestamp} :
    Keeping schedule (executeSchedule H.toPlatform schedule now) fun _ => True := by
  have hoperation : Keeping schedule (scheduledOperation H.toPlatform schedule now) fun _ => True := by
    unfold scheduledOperation
    cases haction : schedule.action with
    | activate => exact keeping_activatePolicy haction
    | retire => exact keeping_retirePolicy haction
  refine sends_tryCatch (sends_bind (sends_mono hoperation fun _ _ => ?_)) fun e => ?_
  · exact sends_bind (keeping_commit (namedWrites_aside rfl)
      (sends_bind (sends_mono keeping_look fun _ _ => trivial)))
  · exact sends_bind (keeping_rollback (sends_bind (keeping_commit (namedWrites_aside rfl)
      (sends_bind (sends_mono keeping_look fun _ _ => trivial)))))

/-! ## What changes -/

/-- A version's status is what it was, or one that the schedule is about. -/
def OnlyNamed (schedule : PolicyActivationSchedule) (before after : Db) : Prop :=
  ∀ r ∈ after.records, (∃ q ∈ before.records, q.ident = r.ident ∧ q.status = r.status) ∨
    match schedule.action with
    | .activate => r.ident = schedule.target ∧ (r.status = .compiled ∨ r.status = .active) ∨
        -- superseded: the same commit makes the named version active
        r.policyKey = schedule.policyKey ∧ r.status = .retired ∧
          ∀ q ∈ after.records, q.ident = schedule.target → q.status = .active
    | .retire => r.ident = schedule.target ∧ r.status = .retired

theorem onlyNamed_of_records {before after : Db} (h : after.records = before.records) :
    OnlyNamed schedule before after := fun r hr => .inl ⟨r, h ▸ hr, rfl, rfl⟩

/-- The status of a version after some updates. -/
theorem mem_foldl_write {ws : List Write} (hinsert : ∀ row, .insertRecord row ∉ ws) {db : Db}
    {r : RuntimePolicyRecord} (hr : r ∈ (ws.foldl Db.write db).records) :
    ∃ q ∈ db.records, q.ident = r.ident ∧ (q.status = r.status ∨
      ∃ c, .updateRecord r.policyKey r.version c ∈ ws ∧ c.status = some r.status) := by
  induction ws generalizing db with
  | nil => exact ⟨r, hr, rfl, .inl rfl⟩
  | cons w ws ih =>
    simp only [List.mem_cons, not_or] at hinsert
    obtain ⟨q, hq, hident, hstatus⟩ := ih (fun row => (hinsert row).2) hr
    have hrest : ∀ q₀ ∈ db.records, q₀.ident = q.ident → q₀.status = q.status →
        ∃ q ∈ db.records, q.ident = r.ident ∧ (q.status = r.status ∨
          ∃ c, .updateRecord r.policyKey r.version c ∈ w :: ws ∧ c.status = some r.status) := by
      intro q₀ hq₀ hident₀ hstatus₀
      refine ⟨q₀, hq₀, hident₀.trans hident, ?_⟩
      rcases hstatus with hstatus | ⟨c, hc, hst⟩
      · exact .inl (hstatus₀.trans hstatus)
      · exact .inr ⟨c, List.mem_cons_of_mem _ hc, hst⟩
    cases w with
    | insertRecord row => exact absurd rfl (hinsert row).1
    | insertSchedule | updateSchedule | insertEvent => exact hrest q hq rfl rfl
    | updateRecord key version c =>
      obtain ⟨q₀, hq₀, rfl⟩ := Db.mem_updateRecord.1 hq
      by_cases hkey : q₀.ident = (key, version)
      · rw [if_pos hkey] at hident hstatus hrest
        cases hc : c.status with
        | none => exact hrest q₀ hq₀ rfl (by rw [RecordColumns.apply_status, hc]; rfl)
        | some st =>
          refine ⟨q₀, hq₀, hident, .inr ?_⟩
          rcases hstatus with hstatus | ⟨c', hc', hst⟩
          · rw [RecordColumns.apply_status, hc] at hstatus
            have hr : (key, version) = r.ident := hkey.symm.trans hident
            cases hr
            exact ⟨c, List.mem_cons_self, hc.trans (congrArg some hstatus)⟩
          · exact ⟨c', List.mem_cons_of_mem _ hc', hst⟩
      · rw [if_neg hkey] at hident hstatus hrest
        exact hrest q₀ hq₀ rfl rfl

theorem onlyNamed_commit {ws : List Write} (h : NamedWrites schedule ws) (db : Db)
    (pending : Option Pending) : OnlyNamed schedule db (db.commit pending ws) := by
  intro r hr
  obtain ⟨q, hq, hident, hstatus | ⟨c, hc, hst⟩⟩ := mem_foldl_write h.insert hr
  · rw [Db.land_records] at hq
    exact .inl ⟨q, hq, hident, hstatus⟩
  right
  have hnamed := h.update _ _ c _ hc hst
  unfold NamedStatus at hnamed
  split
  · next haction =>
    rw [haction] at hnamed
    refine hnamed.imp_right fun ⟨hkey, hretired, w, content, hws⟩ => ⟨hkey, hretired, fun q hq htarget => ?_⟩
    rw [Db.commit, hws] at hq
    obtain ⟨q₀, hq₀, rfl⟩ := Db.mem_updateRecord.1 hq
    by_cases hident : q₀.ident = (schedule.policyKey, schedule.version)
    · rw [if_pos hident]
      rfl
    · rw [if_neg hident] at htarget
      exact absurd htarget hident
  · next haction =>
    rw [haction] at hnamed
    exact hnamed

/-- What a statement that the execution may send does to the statuses. -/
theorem onlyNamed_step {i : ι} {q : Statement} {s t : Store ι} {r : Except PyError q.Answer}
    (hq : Named schedule q) (h : (machine H ι).step i q s r t) : OnlyNamed schedule s.db t.db := by
  by_cases hcommit : ∃ ws, q = .commit ws
  · obtain ⟨ws, rfl⟩ := hcommit
    rcases Store.step_commit (H := H) h with rfl | ⟨-, -, rfl⟩
    · exact onlyNamed_of_records rfl
    · rw [Store.commit_db]
      exact onlyNamed_commit hq _ _
  · exact onlyNamed_of_records (Store.step_same (H := H) h fun ws heq => hcommit ⟨ws, heq⟩).records

/-- **A schedule acts on the version it names.** Whatever the others do between its statements, an
execution whose lookups find the named version changes no other status, but that of a version it
supersedes. -/
theorem executeSchedule_named {i : ι} {now : Timestamp} {rest : Service ScheduleExecutionResult}
    {acts : List (Act Statement Statement.Answer PyError (Store ι))}
    (h : Acts (machine H ι) i (executeSchedule H.toPlatform schedule now) acts rest)
    (hfinds : ∀ a ∈ acts, finds schedule a.q a.answer = true) :
    ∀ a ∈ acts, OnlyNamed schedule a.before.db a.after.db := by
  have hstep := h.step
  have hlooks : ∀ a ∈ acts, Looks schedule a.q a.answer := fun a ha =>
    looks_of_step (hstep a ha) (hfinds a ha)
  exact fun a ha => onlyNamed_step (h.sends hlooks keeping_executeSchedule a ha) (hstep a ha)

/-- A version is deployed, and its retirement is scheduled. -/
def scheduledRetirement : List Operation :=
  author 1 (samplePolicy "1" "ops") none ++
    [.deployPolicy 1 none 3, .scheduleRetirement 1 none 5 "operator" none]

def retirementSchedule : PolicyActivationSchedule where
  id := 0
  policyKey := 1
  version := 1
  action := .retire
  effectiveAt := 5
  reason := none
  createdBy := some "operator"
  organizationId := none

/-- What its execution does. -/
def retirementActs : List (Act Statement Statement.Answer PyError (Store (Fin 1))) :=
  ((Store.schedule sampleHost).acts client 64
    (executeSchedule sampleHost.toPlatform retirementSchedule 6)
    (performAlone scheduledRetirement).store).1

theorem executeSchedule_named_retirement :
    (∃ a ∈ retirementActs, ∃ r ∈ a.after.db.records,
      r.ident = retirementSchedule.target ∧ r.status = .retired) ∧
    ∀ a ∈ retirementActs, OnlyNamed retirementSchedule a.before.db a.after.db :=
  ⟨by decide +kernel,
    executeSchedule_named (Schedule.acts_sound (Store.schedule sampleHost) client 64 _ _) (by decide +kernel)⟩

/-! ## Executions that act on another version -/

/-- The status that a schedule brings its version to. -/
def ScheduleAction.status : ScheduleAction → PolicyStatus
  | .activate => .active
  | .retire => .retired

def StatusKept (before : Db) (r : RuntimePolicyRecord) : Prop :=
  ∃ q ∈ before.records, q.ident = r.ident ∧ q.status = r.status

/-- An execution changes the status of exactly the version that the schedule names, with that of
the version that it supersedes, or of none. -/
def ExactlyNamed (schedule : PolicyActivationSchedule) (before after : Db) : Prop :=
  (∀ r ∈ after.records, StatusKept before r) ∨
  (∃ r ∈ after.records, r.ident = schedule.target ∧ r.status = schedule.action.status) ∧
    ∀ r ∈ after.records, r.ident = schedule.target ∨ StatusKept before r ∨
      schedule.action = .activate ∧ r.policyKey = schedule.policyKey ∧ r.status = .retired

instance (before after : Db) : Decidable (ExactlyNamed schedule before after) :=
  inferInstanceAs (Decidable ((∀ r ∈ after.records, ∃ q ∈ before.records,
      q.ident = r.ident ∧ q.status = r.status) ∨
    (∃ r ∈ after.records, r.ident = schedule.target ∧ r.status = schedule.action.status) ∧
      ∀ r ∈ after.records, r.ident = schedule.target ∨ (∃ q ∈ before.records,
        q.ident = r.ident ∧ q.status = r.status) ∨
      schedule.action = .activate ∧ r.policyKey = schedule.policyKey ∧ r.status = .retired))

/-- A retirement is scheduled of the first version, and the second one is deployed before it. -/
def overtakingRetirement : List Operation :=
  author 1 (samplePolicy "1" "ops") none ++
    [.deployPolicy 1 none 3, .scheduleRetirement 1 none 5 "operator" none,
      .editPolicy 1 none (samplePolicy "1" "ops"), .submitForReview 1 none,
      .approve 1 none "approver" none 1, .compilePolicy 1 none 2, .deployPolicy 1 none 4]

/-- An activation is scheduled of a version that is approved. -/
def approvedActivation : List Operation :=
  [.createPolicy (samplePolicy "1" "ops") none none, .submitForReview 1 none,
    .approve 1 none "approver" none 1, .scheduleActivation 1 none 5 "operator" none]

/-- What the execution of the only schedule makes of the store that operations leave. -/
def executed (S : Schedule (machine sampleHost (Fin 1))) (ops : List Operation) :
    Option (PolicyActivationSchedule × Except PyError ScheduleExecutionResult × Store (Fin 1)) :=
  (performAlone ops).store.db.schedules.head?.bind fun schedule =>
    (S.exec client 64 (executeSchedule sampleHost.toPlatform schedule 6) (performAlone ops).store).map
      fun e => (schedule, e)

theorem executed_exec {S : Schedule (machine sampleHost (Fin 1))} {ops : List Operation}
    {x : Except PyError ScheduleExecutionResult} {t : Store (Fin 1)}
    (h : executed S ops = some (schedule, x, t)) :
    schedule ∈ (performAlone ops).store.db.schedules ∧
      Exec (machine sampleHost (Fin 1)) client (executeSchedule sampleHost.toPlatform schedule 6)
        (performAlone ops).store x t := by
  obtain ⟨schedule', hhead, hrun⟩ := Option.bind_eq_some_iff.1 h
  obtain ⟨⟨x', t'⟩, hexec, heq⟩ := Option.map_eq_some_iff.1 hrun
  cases heq
  exact ⟨List.mem_of_head? hhead, Schedule.exec_sound hexec⟩

/-- In some run a schedule is due whose execution does something else than it names. -/
def Missed (action : ScheduleAction) : Prop :=
  ∃ w : World Statement Statement.Answer PyError (Store (Fin 1)) (Fin 1),
    Reach (machine sampleHost (Fin 1)) (programs sampleHost.toPlatform Set.univ) Store.Fresh w ∧
    ∃ schedule ∈ w.store.db.schedules, schedule.action = action ∧ schedule.status = .pending ∧
      ∃ now x t, schedule.effectiveAt ≤ now ∧
        Exec (machine sampleHost (Fin 1)) client (executeSchedule sampleHost.toPlatform schedule now)
          w.store x t ∧ ¬ ExactlyNamed schedule w.store.db t.db

theorem missed_of_executed {action : ScheduleAction} (S : Schedule (machine sampleHost (Fin 1)))
    (ops : List Operation) (h : (executed S ops).any (fun e => e.1.action = action ∧
      e.1.status = .pending ∧ e.1.effectiveAt ≤ 6 ∧
      ¬ ExactlyNamed e.1 (performAlone ops).store.db e.2.2.db) = true) : Missed action := by
  obtain ⟨⟨schedule, x, t⟩, he, hmissed⟩ := (Option.any_eq_true _ _).1 h
  obtain ⟨haction, hpending, hdue, hnamed⟩ := of_decide_eq_true hmissed
  obtain ⟨hin, hexec⟩ := executed_exec he
  exact ⟨performAlone ops, performAlone_reach ops fun _ _ => trivial, schedule, hin, haction, hpending, 6,
    x, t, hdue, hexec, hnamed⟩

/-- A retirement retires a later version than it names, and an activation that cannot deploy leaves
its version compiled. -/
theorem executeSchedule_missed : Missed .retire ∧ Missed .activate :=
  ⟨missed_of_executed (Store.schedule sampleHost) overtakingRetirement (by decide +kernel),
    missed_of_executed (Store.scheduleOpaDown sampleHost) approvedActivation (by decide +kernel)⟩

end PayReality
