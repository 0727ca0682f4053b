import PayReality.Lifecycle.ScheduleExecutions

/-!
# What became of a schedule

`process_due_schedules` marks a schedule without reading its status again; `cancel_schedule` may mark it
in between, and so may another run. Every execution notes what it has sent (`noted`), so that a status
that was changed is known to have been changed by the execution of this schedule.

* `returning`: the executor's error handling returns.
* `undisturbed`: the condition on a run.
* `Truthful`: the invariant.

**Main result** `schedule_outcomes_truthful`.
-/

namespace PayReality

open Program RuntimePolicyService LifecycleService SafetyChecks Service

variable {ι : Type} [DecidableEq ι] {H : Host} {schedule : PolicyActivationSchedule} {id : Uuid}

/-! ## Programs that note what they execute -/

/-- A note: the schedule that has been executed, or none. -/
abbrev Note := Option PolicyActivationSchedule

abbrev Noting := Prog (Statement ⊕ Note) (ReportAnswer Statement.Answer Note) PyError

namespace LifecycleService

variable (P : Platform)

/-- The loop of `process_due_schedules`. -/
def notedExecutions (now : Timestamp) : List PolicyActivationSchedule → Noting Unit
  | [] => .ret ()
  | schedule :: schedules =>
    (executeSchedule P schedule now).noted (fun _ => some schedule) >>= fun _ =>
      (readNext schedules).noted (fun _ => none) >>= fun _ => notedExecutions now schedules

def notedRunner (now : Timestamp) : Noting Unit :=
  (select (.dueSchedules now)).noted (fun _ => none) >>= notedExecutions P now

def notedCancellation (scheduleId : Uuid) (organizationId : Option Uuid) (actor : String)
    (reason : Option String) : Noting Unit :=
  (cancelSchedule scheduleId organizationId actor reason).noted (fun _ => none) >>= fun _ => .ret ()

/-- The runners and the cancellers. -/
inductive Scheduler : Noting Unit → Prop where
  | runner (now : Timestamp) : Scheduler (notedRunner P now)
  | canceller (scheduleId : Uuid) (organizationId : Option Uuid) (actor : String)
      (reason : Option String) :
      Scheduler (notedCancellation scheduleId organizationId actor reason)

theorem erased_notedExecutions (now : Timestamp) (schedules : List PolicyActivationSchedule) :
    (notedExecutions P now schedules).erased = (executeSchedules P now schedules).run := by
  induction schedules with
  | nil => rfl
  | cons schedule schedules ih =>
    rw [notedExecutions, erased_bind, erased_noted, executeSchedules, Prog.run_bind]
    refine congrArg _ (funext fun result => ?_)
    rw [erased_bind, erased_noted, Prog.run_bind]
    refine congrArg _ (funext fun _ => ?_)
    rw [ih, Prog.run_bind]
    rfl

/-- **Without the notes these are the operations.** -/
theorem Scheduler.erased {p : Noting Unit} (h : Scheduler P p) :
    ∃ op : Operation, p.erased = op.program P := by
  cases h with
  | runner now =>
    refine ⟨.processDueSchedules now, ?_⟩
    show _ = (processDueSchedules P now).run
    rw [notedRunner, erased_bind, erased_noted, processDueSchedules, Prog.run_bind]
    exact congrArg _ (funext fun due => erased_notedExecutions P now due)
  | canceller scheduleId organizationId actor reason =>
    refine ⟨.cancelSchedule scheduleId organizationId actor reason, ?_⟩
    rw [notedCancellation, erased_bind, erased_noted]
    rfl

end LifecycleService

/-! ### A cancellation -/

/-- The statement changes no status of a version, and marks no schedule as executed. -/
def Calm : Statement → Prop
  | .commit ws => (∃ id st executedAt e, ws = [.updateSchedule id st executedAt e] ∧ st ≠ .executed) ∨
      ∀ w ∈ ws, w.onSchedule = false ∧ w.setsStatus = false
  | .submitIntent _ _ _ => False
  | _ => True

theorem calm_harmless : Harmless Calm where
  select _ := trivial
  rollback := trivial
  upload _ _ := trivial
  delete _ := trivial
  event event := by
    refine .inr fun w hw => ?_
    rw [List.mem_singleton.1 hw]
    exact ⟨rfl, rfl⟩

theorem Calm.sends {q : Statement} (h : Calm q) : ScheduleSends q := by
  cases q with
  | commit ws =>
    rcases h with ⟨id, st, executedAt, e, hws, -⟩ | h
    · exact .inl ⟨id, st, executedAt, e, hws⟩
    · exact .inr (List.all_eq_true.2 fun w hw => by simp [(h w hw).1])
  | submitIntent => exact h.elim
  | select | uuid4 | flushPolicy | flushMandate | rollback | uploadPolicy | deletePolicy => trivial

theorem Calm.writes {q : Statement} (h : Calm q) :
    q.writes Write.setsStatus = false ∧ ∀ id, q.writes (Write.marks id .executed) = false := by
  cases q with
  | commit ws =>
    rcases h with ⟨k, st, executedAt, e, rfl, hst⟩ | h
    · exact ⟨rfl, fun id => by simp [Statement.writes, Write.marks, hst]⟩
    · refine ⟨List.any_eq_false.2 fun w hw => by simp [(h w hw).2], fun id => ?_⟩
      refine List.any_eq_false.2 fun w hw => ?_
      have hon := (h w hw).1
      cases w with
      | updateSchedule => cases hon
      | insertRecord | updateRecord | insertSchedule | insertEvent => exact Bool.false_ne_true
  | submitIntent => exact h.elim
  | select | uuid4 | flushPolicy | flushMandate | rollback | uploadPolicy | deletePolicy =>
    exact ⟨rfl, fun _ => rfl⟩

theorem Clean.append {tr : List Sent} {q : Statement} {r : Except PyError q.Answer} (h : Clean tr)
    (hq : Calm q) : Clean (tr ++ [⟨q, r⟩]) := by
  obtain ⟨hsets, hmarks⟩ := hq.writes
  exact h.extend (by simp [Sent.commits, hsets]) fun id => by simp [Sent.commits, hmarks id]

theorem calm_cancelSchedule {scheduleId : Uuid} {o : Option Uuid} {actor : String}
    {reason : Option String} :
    Sends Calm (fun _ _ => True) (cancelSchedule scheduleId o actor reason) fun _ => True := by
  refine sends_bind (sends_mono (sends_look calm_harmless) fun found _ => ?_)
  split
  · trivial
  · next schedule _ =>
    dsimp only
    split
    · trivial
    refine sends_bind (sends_send (.inl ⟨_, _, _, _, rfl, nofun⟩) fun _ _ =>
      sends_bind (sends_mono (sends_look calm_harmless) fun found _ => ?_))
    split
    · trivial
    · exact sends_bind (sends_mono (sends_event calm_harmless) fun _ _ => trivial)

/-! ## The rows of schedules -/

/-- The schedule is in the table, whatever has become of it. -/
def InTable (schedule : PolicyActivationSchedule) (db : Db) : Prop :=
  ∃ row ∈ db.schedules, row.id = schedule.id ∧ row.policyKey = schedule.policyKey ∧
    row.action = schedule.action

section

variable {i : ι} {s t : Store ι} {q : Statement} {r : Except PyError q.Answer}

theorem InTable.write {db : Db} (h : InTable schedule db) (w : Write) : InTable schedule (db.write w) := by
  obtain ⟨row, hrow, hsame⟩ := h
  cases w with
  | insertRecord | updateRecord | insertEvent => exact ⟨row, hrow, hsame⟩
  | insertSchedule => exact ⟨row, List.mem_append_left _ hrow, hsame⟩
  | updateSchedule id st executedAt e =>
    refine ⟨_, List.mem_map_of_mem hrow, ?_⟩
    split
    · exact hsame
    · exact hsame

theorem Store.step_schedules (h : Store.step H i q s r t) (hq : ∀ ws, q ≠ .commit ws) :
    t.db.schedules = s.db.schedules := by
  cases q with
  | commit ws => exact absurd rfl (hq ws)
  | select q => rcases h with ⟨-, rfl⟩ | ⟨-, rfl⟩ <;> rfl
  | uuid4 =>
    obtain ⟨-, -, rfl⟩ := h
    rfl
  | flushPolicy prior row =>
    rcases h with ⟨-, h⟩ | ⟨-, rfl⟩
    · split at h <;> obtain ⟨-, rfl⟩ := h <;> rfl
    · rfl
  | flushMandate m => rcases h with ⟨-, rfl⟩ | ⟨-, rfl⟩ | ⟨-, rfl⟩ <;> rfl
  | rollback =>
    obtain ⟨-, rfl⟩ := h
    rfl
  | uploadPolicy o source =>
    rcases h with ⟨-, rfl⟩ | ⟨-, rfl | rfl⟩
    · unfold Store.load
      split <;> rfl
    · rfl
    · rfl
  | deletePolicy o =>
    rcases h with ⟨-, rfl⟩ | ⟨-, rfl | rfl⟩
    · unfold Store.load
      split <;> rfl
    · rfl
    · rfl
  | submitIntent agent req now =>
    rcases h with ⟨-, rfl⟩ | ⟨-, rfl⟩
    · show (IntentService.submit ..).schedules = _
      unfold IntentService.submit
      split <;> rfl
    · rfl

theorem Db.land_schedules (db : Db) (p : Option Pending) : (db.land p).schedules = db.schedules := by
  cases p <;> rfl

theorem InTable.step (h : InTable schedule s.db) (hstep : (machine H ι).step i q s r t) :
    InTable schedule t.db := by
  by_cases hq : ∃ ws, q = .commit ws
  · obtain ⟨ws, rfl⟩ := hq
    rcases Store.step_commit (H := H) hstep with rfl | ⟨-, -, rfl⟩
    · exact h
    · have hland : InTable schedule (s.db.land (s.pending i)) := by
        rw [InTable, Db.land_schedules]
        exact h
      rw [Store.commit_db, Db.commit]
      exact List.foldlRecOn ws Db.write hland fun db hdb w _ => hdb.write w
  · rw [InTable, Store.step_schedules (H := H) hstep fun ws hws => hq ⟨ws, hws⟩]
    exact h

/-- The row, marked. -/
def PolicyActivationSchedule.mark (row : PolicyActivationSchedule) (id : Uuid) (st : ScheduleStatus)
    (executedAt : Option Timestamp) (e : Option PyError) : PolicyActivationSchedule :=
  if row.id = id then
    { row with
      status := st
      executedAt := executedAt.or row.executedAt
      executionError := e.or row.executionError }
  else row

theorem PolicyActivationSchedule.mark_id (row : PolicyActivationSchedule) (st : ScheduleStatus)
    (executedAt : Option Timestamp) (e : Option PyError) : (row.mark id st executedAt e).id = row.id := by
  unfold PolicyActivationSchedule.mark
  split <;> rfl

/-- What becomes of the schedules: one of them is marked, or nothing. -/
theorem schedules_of_step (hsends : ScheduleSends q)
    (hstep : (machine H ι).step i q s r t) :
    (∃ id st executedAt e, (⟨q, r⟩ : Sent) = ⟨.commit [.updateSchedule id st executedAt e], .ok ()⟩ ∧
      t.db.schedules = s.db.schedules.map fun row => row.mark id st executedAt e) ∨
    t.db.schedules = s.db.schedules ∧
      ∀ p, (∀ w : Write, p w = true → w.onSchedule = true) → Sent.commits p ⟨q, r⟩ = false := by
  by_cases hq : ∃ ws, q = .commit ws
  · obtain ⟨ws, rfl⟩ := hq
    rcases hstep with hstep | ⟨rfl, rfl⟩
    swap
    · exact .inr ⟨rfl, fun p _ => Bool.and_false _⟩
    split at hstep
    · obtain ⟨rfl, rfl⟩ := hstep
      exact .inr ⟨rfl, fun p _ => Bool.and_false _⟩
    · obtain ⟨rfl, rfl⟩ := hstep
      rcases hsends with ⟨id, st, executedAt, e, rfl⟩ | hall
      · refine .inl ⟨id, st, executedAt, e, rfl, ?_⟩
        rw [Store.commit_db, ← Db.land_schedules s.db (s.pending i)]
        rfl
      · refine .inr ⟨?_, fun p hp => ?_⟩
        · rw [Store.commit_db, Db.commit, ← Db.land_schedules s.db (s.pending i)]
          refine List.foldlRecOn (motive := fun db => db.schedules = (s.db.land (s.pending i)).schedules)
            ws Db.write rfl fun db hdb w hw => ?_
          rw [← hdb]
          have hon := List.all_eq_true.1 hall w hw
          cases w with
          | insertSchedule | updateSchedule => cases hon
          | insertRecord | updateRecord | insertEvent => rfl
        · refine (Bool.and_eq_false_iff ..).2 (.inl (List.any_eq_false.2 fun w hw hpw => ?_))
          have hon := List.all_eq_true.1 hall w hw
          rw [hp w hpw] at hon
          cases hon
  · refine .inr ⟨Store.step_schedules (H := H) hstep fun ws hws => hq ⟨ws, hws⟩, fun p _ => ?_⟩
    refine (Bool.and_eq_false_iff ..).2 (.inl ?_)
    cases q with
    | commit ws => exact absurd ⟨ws, rfl⟩ hq
    | select | uuid4 | flushPolicy | flushMandate | rollback | uploadPolicy | deletePolicy
    | submitIntent => rfl

end

/-! ## Runs -/

/-- The store, with the notes. -/
abbrev SchedulingStore (ι : Type) := Reported Statement Statement.Answer PyError (Store ι) ι Note

abbrev SchedulingWorld (ι : Type) :=
  World (Statement ⊕ Note) (ReportAnswer Statement.Answer Note) PyError (SchedulingStore ι) ι

/-- A condition on the steps of a run. -/
abbrev SchedulingCondition (ι : Type) := ι → (q : Statement ⊕ Note) → SchedulingStore ι →
  Except PyError (ReportAnswer Statement.Answer Note q) → Bool

/-- The executor's error handling returns: it can mark the schedule as failed. -/
def returning : SchedulingCondition ι
  | _, .inl q, _, r => !Sent.misses Write.fails ⟨q, r⟩
  | _, .inr _, _, _ => true

/-- A mark is put on a schedule that has not been executed. -/
def Write.marksPending (db : Db) : Write → Bool
  | .updateSchedule id _ _ _ => db.schedules.any fun row => row.id = id ∧ row.status ≠ .executed
  | _ => true

/-- The condition on a run: every mark is put on a schedule that has not been executed, and an execution
that has changed a status is answered so that it goes on. -/
def undisturbed (P : Platform) : SchedulingCondition ι
  | i, .inl q, s, r =>
      (!statusChanged (s.trace i) || q.proceeds P (s.trace i) r) &&
        match q, r with
        | .commit ws, .ok _ => ws.all (Write.marksPending s.store.db)
        | _, _ => true
  | _, .inr _, _, _ => true

/-- A run of runners and cancellers from a store. -/
def SchedulingRun (H : Host) (c : SchedulingCondition ι) (t : Store ι) (w : SchedulingWorld ι) : Prop :=
  Reach (((machine H ι).reporting Note).restrict fun i q s r => c i q s r = true)
    {p | Scheduler H.toPlatform p} (· = Reported.init t) w

/-- Everything that the executions of a schedule have sent. -/
def executions (s : SchedulingStore ι) (id : Uuid) : List Sent :=
  (s.reports.filter fun e => e.1.any fun schedule => schedule.id = id).flatMap Prod.snd

/-! ### The contract of a note -/

/-- What a note says of what has been sent. -/
def NoteOf (P : Platform) : Note → List Sent → Prop
  | none, tr => Answers P tr → Clean tr
  | some schedule, tr => Answers P tr → Concluded schedule tr

def NoteIn : Note → Store ι → Prop
  | none, _ => True
  | some schedule, s => InTable schedule s.db

theorem noteIn_lasting : Lasting (machine H ι) (fun q _ => ScheduleSends q) NoteIn := by
  intro i q s r t tr x _ hstep hx
  cases x with
  | none => trivial
  | some schedule => exact InTable.step (H := H) hx hstep

/-- The contract of the runners and the cancellers. -/
abbrev noteLogic (ι : Type) [DecidableEq ι] (H : Host) : Logic ((machine H ι).reporting Note) :=
  notingLogic (NoteOf H.toPlatform) (noteIn_lasting (H := H))

theorem clean_nil : Clean [] := ⟨rfl, fun _ => Bool.false_ne_true⟩

theorem begun_nil : Begun [] := ⟨⟨fun _ hx => absurd hx List.not_mem_nil, rfl⟩, rfl⟩

/-- The read between two schedules. -/
theorem calm_readNext (schedules : List PolicyActivationSchedule) :
    Sends Calm (fun _ _ => True) (readNext schedules) fun _ => True := by
  cases schedules with
  | nil => trivial
  | cons schedule schedules =>
    exact sends_bind (sends_mono (sends_look calm_harmless) fun _ _ => trivial)

/-- A program that is calm, from the beginning. -/
theorem clean_of_calm {α : Type} {P : Platform} {p : Service α}
    (h : Sends Calm (fun _ _ => True) p fun _ => True) :
    Sending (fun q _ => ScheduleSends q) p (fun _ tr => Answers P tr → Clean tr)
      (fun _ tr => Answers P tr → Clean tr) [] :=
  sending_mono (sending_keeps h (fun _ _ hq _ => hq.sends) (fun _ _ _ hq hclean => hclean.append hq)
    clean_nil) (fun _ _ hclean _ => hclean) fun _ _ hclean _ => hclean

theorem wp_notedExecutions {now : Timestamp} {schedules : List PolicyActivationSchedule} {i : ι}
    {s : SchedulingStore ι} (htrace : s.trace i = [])
    (hin : ∀ schedule ∈ schedules, InTable schedule s.store.db) :
    wp (noteLogic ι H) i (notedExecutions H.toPlatform now schedules) (fun _ t => t.trace i = [])
      (fun _ t => t.trace i = []) s := by
  induction schedules generalizing s with
  | nil => exact htrace
  | cons schedule schedules ih =>
    have hexecution : Attempting H.toPlatform (executeSchedule H.toPlatform schedule now)
        (fun _ => Concluded schedule) (fun _ => Concluded schedule) (s.trace i) := by
      rw [htrace]
      exact attempting_executeSchedule fun _ => begun_nil
    refine wp_bind (wp_mono (wp_noted hexecution fun _ => hin schedule List.mem_cons_self) ?_ ?_)
    · rintro _ t ⟨htrace', hlast⟩
      have hread : Sending (fun q _ => ScheduleSends q) (readNext schedules)
          (fun _ tr => Answers H.toPlatform tr → Clean tr)
          (fun _ tr => Answers H.toPlatform tr → Clean tr) (t.trace i) := by
        rw [htrace']
        exact clean_of_calm (calm_readNext schedules)
      refine wp_bind (wp_mono (wp_noted (m := fun _ => none) hread fun _ => trivial) ?_ ?_)
      · rintro _ u ⟨htrace'', hlast'⟩
        exact ih htrace'' fun schedule' hschedule' => hlast' (some schedule')
          (hlast (some schedule') (hin schedule' (List.mem_cons_of_mem _ hschedule')))
      · exact fun _ _ h => h.1
    · exact fun _ _ h => h.1

theorem noted_keeps {p : Noting Unit} (hp : Scheduler H.toPlatform p) : (noteLogic ι H).Keeps p := by
  intro i s _ hidle
  have htrace : s.trace i = [] := hidle
  cases hp with
  | runner now =>
    refine wp_bind (wp_noting_call trivial fun r u t hstep _ v hv hlog => ?_)
    have hclean : Clean (v.trace i) := by
      rw [hlog, htrace]
      exact clean_nil.append trivial
    cases r with
    | error e => exact wp_noting_report (fun _ => hclean) trivial fun v' _ htrace' => htrace'
    | ok due =>
      refine wp_noting_report (fun _ => hclean) trivial fun v' hlast htrace' => ?_
      refine wp_notedExecutions htrace' fun schedule hschedule => hlast (some schedule) ?_
      show InTable schedule v.store.db
      rw [hv]
      rcases hstep with ⟨hanswer, rfl⟩ | ⟨hanswer, -⟩
      · cases hanswer
        have hmem := (List.mem_filter.1 ((List.mem_insertionSort _).1 hschedule)).1
        exact ⟨schedule, hmem, rfl, rfl, rfl⟩
      · cases hanswer
  | canceller scheduleId o actor reason =>
    have hcancel : Sending (fun q _ => ScheduleSends q) (cancelSchedule scheduleId o actor reason)
        (fun _ tr => Answers H.toPlatform tr → Clean tr)
        (fun _ tr => Answers H.toPlatform tr → Clean tr) (s.trace i) := by
      rw [htrace]
      exact clean_of_calm calm_cancelSchedule
    refine wp_bind (wp_mono (wp_noted (m := fun _ => none) hcancel fun _ => trivial) ?_ ?_)
    · exact fun _ _ h => h.1
    · exact fun _ _ h => h.1

/-! ### The invariant -/

/-- The invariant of a run from `d`. -/
structure Truthful (P : Platform) (d : Db) (s : SchedulingStore ι) : Prop where
  nodup : (s.store.db.schedules.map PolicyActivationSchedule.id).Nodup
  answers : ∀ i, Answers P (s.trace i)
  executed : ∀ row ∈ s.store.db.schedules, row.status = .executed →
    (∃ r ∈ d.schedules, r.id = row.id ∧ r.status = .executed) ∨ ∃ a, Marked (s.attempt a) row.id
  marked : ∀ a id, Marked (s.attempt a) id → ∀ row ∈ s.store.db.schedules, row.id = id →
    row.status = .executed
  once : ∀ a b id, Marked (s.attempt a) id → Marked (s.attempt b) id → a = b
  outcome : ∀ e ∈ s.reports, Clean e.2 ∨
    ∃ schedule, e.1 = some schedule ∧ InTable schedule s.store.db ∧ Executed schedule e.2

variable {P : Platform} {d : Db} {s : SchedulingStore ι} {t : Store ι} {i : ι} {q : Statement}
  {r : Except PyError q.Answer}

omit [DecidableEq ι] in
/-- The condition at a mark. -/
theorem undisturbed_mark {st : ScheduleStatus} {executedAt : Option Timestamp} {e : Option PyError}
    (h : undisturbed P i (.inl (.commit [.updateSchedule id st executedAt e])) s (.ok ()) = true) :
    ∃ row ∈ s.store.db.schedules, row.id = id ∧ row.status ≠ .executed := by
  have hmark := ((Bool.and_eq_true_iff ..).1 h).2
  simpa [Write.marksPending] using hmark

/-- The store answers so. -/
theorem answered_of_step {i : ι} {q : Statement} {s t : Store ι} {r : Except PyError q.Answer}
    (h : (machine H ι).step i q s r t) : answered q r := by
  unfold answered
  split
  · next key o row =>
    rcases h with ⟨hanswer, -⟩ | ⟨hanswer, -⟩
    · exact (s.db.latestVersionRow_some (Except.ok.inj hanswer).symm).2.1
    · cases hanswer
  · next q e =>
    rcases h with ⟨hanswer, -⟩ | ⟨hanswer, -⟩
    · cases hanswer
    · cases hanswer
      exact nofun
  · next e => cases h.1
  · trivial

/-- What a session has been answered stays such that it goes on. -/
theorem Truthful.answers_append (h : Truthful P d s) (hstep : (machine H ι).step i q s.store r t)
    (hc : undisturbed P i (.inl q) s r = true) : Answers P (s.trace i ++ [⟨q, r⟩]) := by
  refine (h.answers i).concat ⟨answered_of_step hstep, fun hchanged => ?_⟩
  have hproceeds := ((Bool.and_eq_true_iff ..).1 hc).1
  rwa [hchanged] at hproceeds

/-- A statement that marks no schedule. -/
theorem Truthful.aside (h : Truthful P d s) (hanswers : Answers P (s.trace i ++ [⟨q, r⟩]))
    (hstep : (machine H ι).step i q s.store r t) (hsame : t.db.schedules = s.store.db.schedules)
    (hmarks : ∀ p, (∀ w : Write, p w = true → w.onSchedule = true) →
      Sent.commits p ⟨q, r⟩ = false) : Truthful P d (s.sent i q r t) := by
  have hmarked : ∀ a id, Marked ((s.sent i q r t).attempt a) id ↔ Marked (s.attempt a) id := by
    intro a id
    by_cases ha : a = .inr i
    · rw [ha, Reported.attempt_sent_self, marked_append, hmarks _ fun _ => Write.onSchedule_of_marks]
      simp
    · rw [Reported.attempt_sent_of_ne ha]
  refine ⟨?_, Reported.forall_sent_trace h.answers hanswers, ?_, ?_, ?_, ?_⟩
  · rw [Reported.sent_store, hsame]
    exact h.nodup
  · intro row hrow hexecuted
    rw [Reported.sent_store, hsame] at hrow
    exact (h.executed row hrow hexecuted).imp_right (Exists.imp fun a ha => (hmarked a _).2 ha)
  · intro a id ha row hrow
    rw [Reported.sent_store, hsame] at hrow
    exact h.marked a id ((hmarked a id).1 ha) row hrow
  · intro a b id ha hb
    exact h.once a b id ((hmarked a id).1 ha) ((hmarked b id).1 hb)
  · intro e he
    exact (h.outcome e he).imp_right (Exists.imp fun _ hschedule =>
      ⟨hschedule.1, hschedule.2.1.step hstep, hschedule.2.2⟩)

/-- A schedule is marked. -/
theorem Truthful.mark (h : Truthful P d s) {st : ScheduleStatus} {executedAt : Option Timestamp}
    {e : Option PyError}
    (hc : undisturbed P i (.inl (.commit [.updateSchedule id st executedAt e])) s (.ok ()) = true)
    (hstep : (machine H ι).step i (.commit [.updateSchedule id st executedAt e]) s.store (.ok ()) t)
    (hmarked : t.db.schedules = s.store.db.schedules.map fun row => row.mark id st executedAt e) :
    Truthful P d (s.sent i (.commit [.updateSchedule id st executedAt e]) (.ok ()) t) := by
  obtain ⟨row₀, hrow₀, hid₀, hpending⟩ := undisturbed_mark hc
  -- no attempt has marked the schedule so far
  have hnone : ∀ a, ¬ Marked (s.attempt a) id := fun a ha =>
    hpending (h.marked a id ha row₀ hrow₀ hid₀)
  have hnew : ∀ a k, Marked ((s.sent i (.commit [.updateSchedule id st executedAt e]) (.ok ()) t).attempt
      a) k ↔ Marked (s.attempt a) k ∨ a = .inr i ∧ k = id ∧ st = .executed := by
    intro a k
    by_cases ha : a = .inr i
    · rw [ha, Reported.attempt_sent_self, marked_append]
      simp [Sent.commits, Statement.writes, Write.marks, Except.toBool, @eq_comm _ id k]
    · rw [Reported.attempt_sent_of_ne ha]
      simp [ha]
  have hrows : ∀ row ∈ t.db.schedules, ∃ q ∈ s.store.db.schedules, q.id = row.id ∧
      (q.id = id ∧ row.status = st ∨ q.id ≠ id ∧ row = q) := by
    intro row hrow
    rw [hmarked] at hrow
    obtain ⟨q, hq, rfl⟩ := List.mem_map.1 hrow
    refine ⟨q, hq, (q.mark_id st executedAt e).symm, ?_⟩
    unfold PolicyActivationSchedule.mark
    split
    · next hid => exact .inl ⟨hid, rfl⟩
    · next hid => exact .inr ⟨hid, rfl⟩
  refine ⟨?_, Reported.forall_sent_trace h.answers (h.answers_append hstep hc), ?_, ?_, ?_, ?_⟩
  · rw [Reported.sent_store, hmarked, List.map_map]
    refine (congrArg List.Nodup (List.map_congr_left fun row _ => ?_)).mpr h.nodup
    exact row.mark_id st executedAt e
  · intro row hrow hexecuted
    obtain ⟨q, hq, hid, ⟨hqid, hst⟩ | ⟨-, rfl⟩⟩ := hrows row hrow
    · exact .inr ⟨.inr i, (hnew _ _).2 (.inr ⟨rfl, hid ▸ hqid, hst ▸ hexecuted⟩)⟩
    · exact (h.executed row hq hexecuted).imp_right (Exists.imp fun a ha => (hnew a _).2 (.inl ha))
  · intro a k ha row hrow hk
    obtain ⟨q, hq, hid, hcase⟩ := hrows row hrow
    rcases (hnew a k).1 ha with ha | ⟨-, rfl, hst⟩
    · rcases hcase with ⟨hqid, -⟩ | ⟨-, rfl⟩
      · refine absurd ha ?_
        rw [← hk, ← hid, hqid]
        exact hnone a
      · exact h.marked a k ha row hq hk
    · rcases hcase with ⟨-, hrow'⟩ | ⟨hne, -⟩
      · rw [hrow', hst]
      · exact absurd (hid.trans hk) hne
  · intro a b k ha hb
    rcases (hnew a k).1 ha with ha | ⟨ha, hk, -⟩
    · rcases (hnew b k).1 hb with hb | ⟨-, hk, -⟩
      · exact h.once a b k ha hb
      · rw [hk] at ha
        exact absurd ha (hnone a)
    · rcases (hnew b k).1 hb with hb | ⟨hb, -⟩
      · rw [hk] at hb
        exact absurd hb (hnone b)
      · exact ha.trans hb.symm
  · intro x hx
    exact (h.outcome x hx).imp_right (Exists.imp fun _ hschedule =>
      ⟨hschedule.1, hschedule.2.1.step hstep, hschedule.2.2⟩)

/-- **A statement keeps the invariant.** -/
theorem Truthful.step (h : Truthful P d s) (hsends : ScheduleSends q)
    (hstep : (machine H ι).step i q s.store r t) (hc : undisturbed P i (.inl q) s r = true) :
    Truthful P d (s.sent i q r t) := by
  rcases schedules_of_step hsends hstep with ⟨id, st, executedAt, e, heq, hmarked⟩ | ⟨hsame, hmarks⟩
  · cases heq
    exact h.mark hc hstep hmarked
  · exact h.aside (h.answers_append hstep hc) hstep hsame hmarks

/-- **A report keeps the invariant.** -/
theorem Truthful.report {x : Note} (h : Truthful P d s) (hnote : NoteOf P x (s.trace i))
    (hin : NoteIn x s.store) : Truthful P d (s.report i x) := by
  have hold : ∀ a id, Marked ((s.report i x).attempt a) id →
      a ≠ .inr i ∧ Marked (s.attempt (s.attemptBefore i a)) id := by
    intro a id ha
    rcases Reported.attempt_report (s := s) (i := i) (x := x) a with ⟨hnil, -⟩ | ⟨heq, hne⟩
    · rw [hnil] at ha
      cases ha
    · exact ⟨hne, heq ▸ ha⟩
  refine ⟨h.nodup, Reported.forall_report_trace h.answers followed_nil, ?_, ?_, ?_, ?_⟩
  · intro row hrow hexecuted
    refine (h.executed row hrow hexecuted).imp_right fun ⟨a, ha⟩ => ?_
    obtain ⟨b, hb⟩ := Reported.exists_attempt_report (i := i) (x := x) a fun hnil => by
      rw [hnil] at ha
      cases ha
    exact ⟨b, hb ▸ ha⟩
  · exact fun a id ha => h.marked _ id (hold a id ha).2
  · intro a b id ha hb
    obtain ⟨hane, ha⟩ := hold a id ha
    obtain ⟨hbne, hb⟩ := hold b id hb
    exact Reported.attemptBefore_inj hane hbne (h.once _ _ id ha hb)
  · intro e he
    rcases List.mem_append.1 he with he | he
    · exact h.outcome e he
    · rw [List.mem_singleton.1 he]
      cases x with
      | none => exact .inl (hnote (h.answers i))
      | some schedule =>
        rcases hnote (h.answers i) with hexecuted | hclean
        · exact .inr ⟨schedule, rfl, hin, hexecuted⟩
        · exact .inl hclean

/-! ## Main result -/

variable {w : SchedulingWorld ι}

theorem SchedulingRun.truthful (hnodup : (t.db.schedules.map PolicyActivationSchedule.id).Nodup)
    (h : SchedulingRun H (undisturbed H.toPlatform) t w) :
    Truthful H.toPlatform t.db w.store ∧ ∀ i, w.running i = none → w.store.trace i = [] := by
  refine Reach.noting (R := NoteOf H.toPlatform) noteIn_lasting (fun p hp => noted_keeps hp) ?_
    (fun i q s r u hsends hstep hc hs => hs.step hsends hstep hc)
    (fun i x s hnote hin hs => hs.report hnote hin) h
  rintro s rfl
  have hnone : ∀ a : ℕ ⊕ ι, Reported.attempt (Reported.init t : SchedulingStore ι) a = [] := by
    intro a
    cases a <;> rfl
  have hunmarked : ∀ (a : ℕ ⊕ ι) id,
      ¬ Marked (Reported.attempt (Reported.init t : SchedulingStore ι) a) id := by
    intro a id
    rw [hnone a]
    exact clean_nil.unmarked id
  refine ⟨fun _ => rfl, hnodup, fun _ => followed_nil,
    fun row hrow hexecuted => .inl ⟨row, hrow, rfl, hexecuted⟩,
    fun a id ha => absurd ha (hunmarked a id), fun a b id ha => absurd ha (hunmarked a id),
    fun e he => ?_⟩
  cases he

/-- What the executions of a schedule among some reports have sent. -/
abbrev executionsIn (reports : List (Note × List Sent)) (id : Uuid) : List Sent :=
  (reports.filter fun e => e.1.any fun schedule => schedule.id = id).flatMap Prod.snd

omit [DecidableEq ι] in
/-- An execution of a schedule that it has not marked as executed. -/
theorem Truthful.clean (h : Truthful P d s) {n : ℕ} {e : Note × List Sent}
    (he : s.reports[n]? = some e) (hid : (e.1.any fun schedule => schedule.id = id) = true)
    (hunmarked : ¬ Marked (s.attempt (.inl n)) id) : Clean e.2 := by
  rcases h.outcome e (List.mem_of_getElem? he) with hclean | ⟨schedule, hnote, -, hexecuted⟩
  · exact hclean
  · rw [hnote] at hid
    have hid' : schedule.id = id := of_decide_eq_true hid
    refine absurd ?_ hunmarked
    rw [Reported.attempt, he, ← hid']
    exact hexecuted.marked

theorem countP_executionsIn {reports : List (Note × List Sent)}
    (h : ∀ e ∈ reports, (e.1.any fun schedule => schedule.id = id) = true → Clean e.2)
    (row : PolicyActivationSchedule) :
    (executionsIn reports id).countP (Sent.commits (Write.carriesOut row)) = 0 := by
  refine List.countP_eq_zero.2 fun x hx => ?_
  obtain ⟨e, he, hxe⟩ := List.mem_flatMap.1 hx
  obtain ⟨hreport, hid⟩ := List.mem_filter.1 he
  exact List.countP_eq_zero.1 ((h e hreport hid).countP row) x hxe

omit [DecidableEq ι] in
theorem executionsIn_append (l l' : List (Note × List Sent)) :
    executionsIn (l ++ l') id = executionsIn l id ++ executionsIn l' id := by
  simp [executionsIn]

/-- **What became of a schedule is what its status says.** -/
theorem schedule_outcomes_truthful {ι : Type} [DecidableEq ι] {H : Host} {t : Store ι}
    (hnodup : (t.db.schedules.map PolicyActivationSchedule.id).Nodup) {w : SchedulingWorld ι}
    (h : SchedulingRun H (undisturbed H.toPlatform) t w)
    (hquiet : w.Quiescent) :
    ∀ row ∈ w.store.store.db.schedules,
      (row.status = .cancelled ∨ row.status = .failed →
        (executions w.store row.id).any (Sent.commits Write.setsStatus) = false) ∧
      (row.status = .executed → (∀ r ∈ t.db.schedules, r.id = row.id → r.status ≠ .executed) →
        (executions w.store row.id).countP (Sent.commits (Write.carriesOut row)) = 1) := by
  obtain ⟨htruthful, htrace⟩ := h.truthful hnodup
  intro row hrow
  refine ⟨fun hstatus => ?_, fun hexecuted hstart => ?_⟩
  · -- no execution has marked it as executed
    have hunmarked : ∀ a, ¬ Marked (w.store.attempt a) row.id := by
      intro a ha
      rw [htruthful.marked a row.id ha row hrow rfl] at hstatus
      rcases hstatus with hstatus | hstatus <;> cases hstatus
    refine List.any_eq_false.2 fun x hx => ?_
    obtain ⟨e, he, hxe⟩ := List.mem_flatMap.1 hx
    obtain ⟨hreport, hid⟩ := List.mem_filter.1 he
    obtain ⟨n, hn⟩ := List.getElem?_of_mem hreport
    exact List.any_eq_false.1 (htruthful.clean hn hid (hunmarked _)).kept x hxe
  · rcases htruthful.executed row hrow hexecuted with ⟨r, hr, hid, hst⟩ | ⟨a, ha⟩
    · exact absurd hst (hstart r hr hid)
    cases a with
    | inr i =>
      have hnil : w.store.attempt (.inr i) = [] := htrace i (hquiet i)
      rw [hnil] at ha
      exact absurd ha (clean_nil.unmarked row.id)
    | inl n =>
      obtain ⟨e, hn⟩ : ∃ e, w.store.reports[n]? = some e := by
        cases hn : w.store.reports[n]? with
        | none =>
          rw [Reported.attempt, hn] at ha
          exact absurd ha (clean_nil.unmarked row.id)
        | some e => exact ⟨e, rfl⟩
      have hmarked : Marked e.2 row.id := by
        rw [Reported.attempt, hn] at ha
        exact ha
      obtain ⟨schedule, hnote, ⟨q, hq, hqid, hqkey, hqaction⟩, hdone⟩ :=
        (htruthful.outcome e (List.mem_of_getElem? hn)).resolve_left
          fun hclean => hclean.unmarked row.id hmarked
      have hid : row.id = schedule.id := hdone.only row.id hmarked
      obtain rfl : q = row := List.inj_on_of_nodup_map htruthful.nodup hq hrow (hqid.trans hid.symm)
      have hcarries : Write.carriesOut q = Write.carriesOut schedule := by
        funext w
        cases w with
        | updateRecord => rw [Write.carriesOut, Write.carriesOut, hqkey, hqaction]
        | insertRecord | insertSchedule | updateSchedule | insertEvent => rfl
      -- the others have executed nothing
      have hothers : ∀ m e', m ≠ n → w.store.reports[m]? = some e' →
          (e'.1.any fun schedule => schedule.id = q.id) = true → Clean e'.2 := by
        intro m e' hne hm hany
        refine htruthful.clean hm hany fun hmarked' => hne ?_
        exact Sum.inl.inj (htruthful.once _ _ q.id hmarked' ha)
      obtain ⟨hlt, hget⟩ := List.getElem?_eq_some_iff.1 hn
      have hsplit : w.store.reports =
          w.store.reports.take n ++ (e :: w.store.reports.drop (n + 1)) := by
        rw [← hget, ← List.drop_eq_getElem_cons hlt, List.take_append_drop]
      have hbefore : (executionsIn (w.store.reports.take n) q.id).countP
          (Sent.commits (Write.carriesOut q)) = 0 := by
        refine countP_executionsIn (fun e' he' hany => ?_) q
        obtain ⟨m, hm⟩ := List.getElem?_of_mem he'
        obtain ⟨hm', hget'⟩ := List.getElem?_eq_some_iff.1 hm
        rw [List.length_take] at hm'
        refine hothers m e' (by omega) ?_ hany
        rw [← hget', List.getElem_take, List.getElem?_eq_getElem]
      have hafter : (executionsIn (w.store.reports.drop (n + 1)) q.id).countP
          (Sent.commits (Write.carriesOut q)) = 0 := by
        refine countP_executionsIn (fun e' he' hany => ?_) q
        obtain ⟨m, hm⟩ := List.getElem?_of_mem he'
        rw [List.getElem?_drop] at hm
        exact hothers (n + 1 + m) e' (by omega) hm hany
      have hself : (executionsIn [e] q.id).countP (Sent.commits (Write.carriesOut q)) = 1 := by
        have hany : (e.1.any fun schedule => schedule.id = q.id) = true := by
          rw [hnote]
          exact decide_eq_true hid.symm
        have hown : executionsIn [e] q.id = e.2 := by simp [executionsIn, hany]
        rw [hown, hcarries]
        exact hdone.once
      show (executionsIn w.store.reports q.id).countP (Sent.commits (Write.carriesOut q)) = 1
      rw [hsplit, executionsIn_append, ← List.singleton_append, executionsIn_append,
        List.countP_append, List.countP_append, hbefore, hself, hafter]

/-! ### Runs of two schedulers -/

/-- Runners and cancellers that take turns, from a store. -/
def playSchedulers (S : Schedule (machine sampleHost Bool)) (c : SchedulingCondition Bool)
    (t : Store Bool) (ts : List (Bool × Option (Noting Unit) × ℕ)) : SchedulingWorld Bool :=
  ((S.reporting Note).restrict c).play (ts.map fun turn => ⟨turn.1, turn.2.1, turn.2.2⟩)
    ⟨Reported.init t, fun _ => none⟩

theorem playSchedulers_run (S : Schedule (machine sampleHost Bool)) (c : SchedulingCondition Bool)
    (t : Store Bool) {ts : List (Bool × Option (Noting Unit) × ℕ)}
    (h : ∀ turn ∈ ts, ∀ p ∈ turn.2.1, Scheduler sampleHost.toPlatform p) :
    SchedulingRun sampleHost c t (playSchedulers S c t ts) := by
  refine Schedule.play_reach (.init rfl) fun turn hturn p hp => ?_
  obtain ⟨e, he, rfl⟩ := List.mem_map.1 hturn
  exact h e he p hp

/-- A store with an approved version, whose activation is scheduled. -/
def activationScheduled : Store Bool :=
  (takeTurns (Store.schedule sampleHost) (byFirst approvedActivation)).store

/-- A runner, for so many statements, and then another one; the first goes on. -/
def runnerTurns (n : ℕ) : List (Bool × Option (Noting Unit) × ℕ) :=
  [(true, some (notedRunner sampleHost.toPlatform 6), n),
    (false, some (notedRunner sampleHost.toPlatform 6), 64), (true, none, 64)]

theorem runnerTurns_scheduler (n : ℕ) :
    ∀ turn ∈ runnerTurns n, ∀ p ∈ turn.2.1, Scheduler sampleHost.toPlatform p := by
  intro turn hturn p hp
  simp only [runnerTurns, List.mem_cons, List.not_mem_nil, or_false] at hturn
  rcases hturn with rfl | rfl | rfl
  · cases hp
    exact .runner 6
  · cases hp
    exact .runner 6
  · cases hp

/-- The second runner begins when the first one is over. -/
def executedInTurn : SchedulingWorld Bool :=
  playSchedulers (Store.schedule sampleHost) (undisturbed sampleHost.toPlatform) activationScheduled
    (runnerTurns 64)

theorem schedule_outcomes_truthful_in_turn :
    (∃ row ∈ executedInTurn.store.store.db.schedules, row.status = .executed) ∧
    ∀ row ∈ executedInTurn.store.store.db.schedules, row.status = .executed →
      (executions executedInTurn.store row.id).countP (Sent.commits (Write.carriesOut row)) = 1 := by
  obtain ⟨hexists, hnodup, hfirst, hsecond, hpending⟩ :
      (∃ row ∈ executedInTurn.store.store.db.schedules, row.status = .executed) ∧
      (activationScheduled.db.schedules.map PolicyActivationSchedule.id).Nodup ∧
      (executedInTurn.running true).isNone = true ∧ (executedInTurn.running false).isNone = true ∧
      ∀ r ∈ activationScheduled.db.schedules, r.status ≠ .executed := by
    decide +kernel
  refine ⟨hexists, fun row hrow hexecuted => ?_⟩
  have hquiet : executedInTurn.Quiescent := fun i => by
    cases i
    · exact Option.isNone_iff_eq_none.1 hsecond
    · exact Option.isNone_iff_eq_none.1 hfirst
  have hrun : SchedulingRun sampleHost (undisturbed sampleHost.toPlatform) activationScheduled
      executedInTurn := playSchedulers_run _ _ _ (runnerTurns_scheduler 64)
  exact (schedule_outcomes_truthful hnodup hrun hquiet row hrow).2 hexecuted fun r hr _ => hpending r hr

/-- When nobody runs any more, a schedule of this status has been executed so. -/
def untruthful (w : SchedulingWorld Bool) (t : ScheduleStatus)
    (p : List Sent → PolicyActivationSchedule → Bool) : Bool :=
  (w.running true).isNone && (w.running false).isNone &&
    w.store.store.db.schedules.any fun row =>
      row.status = t && p (executions w.store row.id) row

theorem untruthful_spec {w : SchedulingWorld Bool} {t : ScheduleStatus}
    {p : List Sent → PolicyActivationSchedule → Bool} (h : untruthful w t p = true) :
    w.Quiescent ∧ ∃ row ∈ w.store.store.db.schedules, row.status = t ∧
      p (executions w.store row.id) row = true := by
  simp only [untruthful, Bool.and_eq_true, Option.isNone_iff_eq_none, List.any_eq_true,
    decide_eq_true_eq] at h
  obtain ⟨⟨hfirst, hsecond⟩, hrow⟩ := h
  refine ⟨fun i => ?_, hrow⟩
  cases i
  · exact hsecond
  · exact hfirst

/-- A schedule fails whose version was compiled, and a schedule is executed twice. -/
theorem schedule_outcomes_untruthful :
    (∃ w : SchedulingWorld Bool, SchedulingRun sampleHost returning activationScheduled w ∧
      w.Quiescent ∧ ∃ row ∈ w.store.store.db.schedules, row.status = .failed ∧
        (executions w.store row.id).any (Sent.commits Write.setsStatus) = true) ∧
    ∃ w : SchedulingWorld Bool, SchedulingRun sampleHost returning activationScheduled w ∧
      w.Quiescent ∧ ∃ row ∈ w.store.store.db.schedules, row.status = .executed ∧
        (executions w.store row.id).countP (Sent.commits (Write.carriesOut row)) = 2 := by
  constructor
  · have hrun := playSchedulers_run (Store.scheduleOpaDown sampleHost) returning activationScheduled
      (runnerTurns_scheduler 64)
    refine ⟨_, hrun, untruthful_spec (p := fun sent _ => sent.any (Sent.commits Write.setsStatus)) ?_⟩
    decide +kernel
  · have hrun := playSchedulers_run (Store.schedule sampleHost) returning activationScheduled
      (runnerTurns_scheduler 3)
    obtain ⟨hquiet, row, hrow, hexecuted, htwice⟩ := untruthful_spec (w := playSchedulers
      (Store.schedule sampleHost) returning activationScheduled (runnerTurns 3)) (t := .executed)
      (p := fun sent row => sent.countP (Sent.commits (Write.carriesOut row)) = 2) (by decide +kernel)
    exact ⟨_, hrun, hquiet, row, hrow, hexecuted, of_decide_eq_true htwice⟩

end PayReality
