import PayReality.Lib.Notes
import PayReality.Lifecycle.Scheduling

/-!
# What the execution of a schedule sends

`process_due_schedules` performs the operation that a schedule names, commit after commit, and marks the
schedule as executed; where anything is raised it marks it as failed, whatever has been committed.

* `Statement.proceeds`: the answers with which an execution that has changed a status goes on.
* `Untouched`, `Underway`, `Done`: how far an execution has come.

**Main result** `attempting_executeSchedule`: with such answers an execution carries the operation out
once and marks the schedule as executed, or it changes no status.
-/

namespace PayReality

open Program RuntimePolicyService LifecycleService SafetyChecks Service

/-- A statement and its answer. -/
abbrev Sent := Answered Statement Statement.Answer PyError

variable {H : Host} {schedule : PolicyActivationSchedule} {id : Uuid}

/-! ## What is written -/

namespace Write

/-- The write gives a version a status. -/
def setsStatus : Write → Bool
  | .updateRecord _ _ c => c.status.isSome
  | _ => false

/-- The write is the activation or retirement that the schedule names. -/
def carriesOut (schedule : PolicyActivationSchedule) : Write → Bool
  | .updateRecord key _ c => key = schedule.policyKey ∧ c.status = some schedule.action.status
  | _ => false

/-- The write activates a version. -/
def setsActive : Write → Bool
  | .updateRecord _ _ c => c.status = some .active
  | _ => false

def onSchedule : Write → Bool
  | .insertSchedule _ | .updateSchedule _ _ _ _ => true
  | _ => false

def onEvent : Write → Bool
  | .insertEvent _ => true
  | _ => false

def marks (id : Uuid) (status : ScheduleStatus) : Write → Bool
  | .updateSchedule k st _ _ => k = id ∧ st = status
  | _ => false

/-- The write marks a schedule as failed. -/
def fails : Write → Bool
  | .updateSchedule _ st _ _ => st = .failed
  | _ => false

theorem setsStatus_of_carriesOut {w : Write} (h : w.carriesOut schedule = true) :
    w.setsStatus = true := by
  cases w with
  | updateRecord key version c =>
    have hc : c.status = some schedule.action.status := (of_decide_eq_true h).2
    show c.status.isSome = true
    rw [hc]
    rfl
  | insertRecord | insertSchedule | updateSchedule | insertEvent => cases h

theorem setsStatus_of_setsActive {w : Write} (h : w.setsActive = true) : w.setsStatus = true := by
  cases w with
  | updateRecord key version c =>
    have hc : c.status = some .active := of_decide_eq_true h
    show c.status.isSome = true
    rw [hc]
    rfl
  | insertRecord | insertSchedule | updateSchedule | insertEvent => cases h

theorem setsActive_of_carriesOut {w : Write} (hactivate : schedule.action = .activate)
    (h : w.carriesOut schedule = true) : w.setsActive = true := by
  cases w with
  | updateRecord key version c =>
    have hc : c.status = some schedule.action.status := (of_decide_eq_true h).2
    rw [hactivate] at hc
    exact decide_eq_true hc
  | insertRecord | insertSchedule | updateSchedule | insertEvent => cases h

theorem onSchedule_of_marks {st : ScheduleStatus} {w : Write} (h : w.marks id st = true) :
    w.onSchedule = true := by
  cases w with
  | updateSchedule => rfl
  | insertRecord | updateRecord | insertSchedule | insertEvent => cases h

end Write

/-- A commit with such a write. -/
def Statement.writes (p : Write → Bool) : Statement → Bool
  | .commit ws => ws.any p
  | _ => false

/-- Such a write has been committed. -/
def Sent.commits (p : Write → Bool) (x : Sent) : Bool := x.1.writes p && x.2.toBool

/-- The commit of such a write has failed. -/
def Sent.misses (p : Write → Bool) (x : Sent) : Bool := x.1.writes p && !x.2.toBool

/-- The schedule has been marked as executed. -/
def Marked (tr : List Sent) (id : Uuid) : Prop :=
  tr.any (Sent.commits (Write.marks id .executed)) = true

/-- Some version has been given a status. -/
abbrev statusChanged (tr : List Sent) : Bool := tr.any (Sent.commits Write.setsStatus)

/-- No status has been changed, and no schedule been marked as executed. -/
structure Clean (tr : List Sent) : Prop where
  kept : tr.any (Sent.commits Write.setsStatus) = false
  unmarked : ∀ id, ¬ Marked tr id

/-- The schedule was executed. -/
structure Executed (schedule : PolicyActivationSchedule) (tr : List Sent) : Prop where
  marked : Marked tr schedule.id
  only : ∀ id, Marked tr id → id = schedule.id
  once : tr.countP (Sent.commits (Write.carriesOut schedule)) = 1

section

variable {p p' : Write → Bool} {tr : List Sent} {q : Statement} {r : Except PyError q.Answer}

theorem Statement.writes_mono (h : ∀ w, p w = true → p' w = true) (hq : q.writes p = true) :
    q.writes p' = true := by
  cases q with
  | commit ws =>
    obtain ⟨w, hw, hp⟩ := List.any_eq_true.1 hq
    exact List.any_eq_true.2 ⟨w, hw, h w hp⟩
  | select | uuid4 | flushPolicy | flushMandate | rollback | uploadPolicy | deletePolicy
  | submitIntent => cases hq

theorem Statement.writes_eq_false (h : ∀ w, p w = true → p' w = true) (hq : q.writes p' = false) :
    q.writes p = false := by
  refine Bool.eq_false_iff.2 fun hwrites => ?_
  rw [Statement.writes_mono h hwrites] at hq
  cases hq

theorem Sent.commits_eq_false (h : q.writes p = false) : Sent.commits p ⟨q, r⟩ = false := by
  rw [Sent.commits, h, Bool.false_and]

theorem Sent.commits_mono (h : ∀ w, p w = true → p' w = true) {x : Sent}
    (hx : x.commits p = true) : x.commits p' = true := by
  obtain ⟨hwrites, hok⟩ := (Bool.and_eq_true_iff ..).1 hx
  exact (Bool.and_eq_true_iff ..).2 ⟨Statement.writes_mono h hwrites, hok⟩

/-- What has not been committed, where something more general has not. -/
theorem any_commits_mono (h : ∀ w, p w = true → p' w = true)
    (htr : tr.any (Sent.commits p') = false) : tr.any (Sent.commits p) = false :=
  List.any_eq_false.2 fun x hx hcommits =>
    List.any_eq_false.1 htr x hx (Sent.commits_mono h hcommits)

theorem any_commits_append (h : q.writes p = false) :
    List.any (tr ++ [⟨q, r⟩]) (Sent.commits p) = tr.any (Sent.commits p) := by
  rw [List.any_append, List.any_cons, Sent.commits_eq_false h, List.any_nil, Bool.or_false, Bool.or_false]

theorem countP_eq_zero_of_any {p : Sent → Bool} (h : tr.any p = false) : tr.countP p = 0 :=
  List.countP_eq_zero.2 (List.any_eq_false.1 h)

theorem Clean.countP (h : Clean tr) (schedule : PolicyActivationSchedule) :
    tr.countP (Sent.commits (Write.carriesOut schedule)) = 0 :=
  countP_eq_zero_of_any (any_commits_mono (fun _ => Write.setsStatus_of_carriesOut) h.kept)

end

/-! ## The answers with which an execution goes on -/

namespace RuntimePolicyService

variable (P : Platform)

/-- The authority can be read for which a deploy makes a mandate. -/
def mandateReadable (constraints : Constraints) : Bool :=
  match constraints.authorityId.filter (· ≠ ""), constraints.mandateId.filter (· ≠ "") with
  | some authorityId, none => (P.uuid authorityId).isSome
  | _, _ => true

/-- The hash of the bundle to which a version compiles with the other active versions. -/
def compiledHash (row : RuntimePolicyRecord) (others : List RuntimePolicy) (now : Timestamp) :
    Option BundleHash :=
  (compileWith P row others now).toOption.bind fun result =>
    result.bundle.map PolicyBundle.bundleHash

/-- The active versions of an organization compile. -/
def compiles (rows : List RuntimePolicyRecord) (now : Timestamp) : Bool :=
  (compileActive rows "reconcile" now).toOption.any fun result => result.bundle.isSome

/-- The time of a compilation is in the manifest, and is not hashed. -/
theorem compileBundle_now (vocabulary : Vocabulary) (policies : List RuntimePolicy) (bundleId : String)
    (bundleVersion : Int) (now now' : Timestamp) :
    (CompilerV2.compileBundle vocabulary policies bundleId bundleVersion now).toOption.map
        (fun result => result.bundle.map PolicyBundle.bundleHash) =
      (CompilerV2.compileBundle vocabulary policies bundleId bundleVersion now').toOption.map
        fun result => result.bundle.map PolicyBundle.bundleHash := by
  unfold CompilerV2.compileBundle
  cases CompilerV2.policyConflicts policies with
  | error e => rfl
  | ok conflicts =>
    dsimp only [bind, Except.bind]
    split
    · unfold BundleBuilder.buildBundle
      cases policies.mapM RegoGenerator.generatePolicyRule with
      | error e => rfl
      | ok rules => rfl
    · rfl

theorem compiledHash_now (row : RuntimePolicyRecord) (others : List RuntimePolicy)
    (now now' : Timestamp) : compiledHash P row others now = compiledHash P row others now' := by
  have hmap := congrArg (fun hash => hash.bind id) (compileBundle_now CompilerV2.genericVocabulary
    (row.content :: others) (bundleIdFor P row.policyKey row.version) row.version now now')
  simp only [Option.bind_map] at hmap
  exact hmap

theorem compiles_now (rows : List RuntimePolicyRecord) (now now' : Timestamp) :
    compiles rows now = compiles rows now' := by
  have hmap := congrArg (Option.any Option.isSome) (compileBundle_now CompilerV2.genericVocabulary
    (rows.map RuntimePolicyRecord.content) "reconcile" 1 now now')
  simpa [compiles, compileActive, Option.any_map] using hmap

end RuntimePolicyService

/-- A version has been activated. -/
abbrev activated (tr : List Sent) : Bool := tr.any (Sent.commits Write.setsActive)

/-- The version that was read last. -/
def lastRead : List Sent → Option RuntimePolicyRecord
  | [] => none
  | x :: tr =>
    match lastRead tr, x with
    | some row, _ => some row
    | none, ⟨.select (.latestVersionRow _ _), .ok found⟩ => found
    | none, _ => none

namespace Statement

/-- The statement only records an event: whether it fails does not matter. -/
def records : Statement → Bool
  | .commit ws => ws.all Write.onEvent
  | _ => false

/-- A statement of a deploy that is tried again after an integrity error. -/
def races : Statement → Bool
  | .flushPolicy _ _ | .flushMandate _ => true
  | q => q.writes Write.setsStatus

end Statement

/-- An attempt to deploy has been lost. -/
def Sent.loses : Sent → Bool
  | ⟨q, .error .integrityError⟩ => q.races
  | _ => false

/-- What is found is such that an execution that has changed a status goes on. -/
def Statement.finds (P : Platform) (tr : List Sent) : (q : Statement) → q.Answer → Bool
  | .select (.latestVersionRow _ _), found => found.any fun row =>
      activated tr || row.status = .compiled && mandateReadable P row.content.constraints
  | .select (.versionRow _ _ _), found => found.isSome
  | .select (.otherActivePolicies _ _), rows => (lastRead tr).any fun row =>
      (compiledHash P row (rows.map RuntimePolicyRecord.content) 0).any fun hash =>
        row.bundleHash = some hash
  | .select (.activePolicy _), prior => !isUnexpectedActiveWriter prior
  | .select (.activeRecords _), rows => rows.isEmpty || compiles rows 0
  | _, _ => true

/-- The answer is such that an execution that has changed a status goes on: no statement fails, except
that an event may be lost, and two attempts to deploy. -/
def Statement.proceeds (P : Platform) (tr : List Sent) (q : Statement) : Except PyError q.Answer → Bool
  | .ok found => q.finds P tr found
  | .error e => q.records || q.races && (e = .integrityError && tr.countP Sent.loses < 2)

/-- What is known of an answer of the store. -/
def answered : (q : Statement) → Except PyError q.Answer → Prop
  | .select (.latestVersionRow key _), .ok (some row) => row.policyKey = key
  | .select _, .error e => e ≠ .integrityError
  | .rollback, .error _ => False
  | _, _ => True

/-- The answers are such as the store gives, and those after a change of a status let the execution go
on. -/
abbrev Answers (P : Platform) (tr : List Sent) : Prop :=
  Followed (fun pre x => answered x.1 x.2 ∧ (statusChanged pre = true → x.1.proceeds P pre x.2 = true)) tr

/-- A schedule is marked by a commit of its own. -/
def ScheduleSends : Statement → Prop
  | .commit ws => (∃ id st executedAt e, ws = [.updateSchedule id st executedAt e]) ∨
      ws.all (fun w => !w.onSchedule) = true
  | .submitIntent _ _ _ => False
  | _ => True

/-- What is to be shown of a part of an execution. -/
abbrev Attempting {α : Type} (P : Platform) (p : Service α) (R : α → List Sent → Prop)
    (E : PyError → List Sent → Prop) (tr : List Sent) : Prop :=
  Sending (fun q _ => ScheduleSends q) p (fun a tr => Answers P tr → R a tr)
    (fun e tr => Answers P tr → E e tr) tr

/-! ### How far an execution has come -/

/-- The statement neither marks a schedule nor changes a status, and is none of a deploy. -/
def Aside : Statement → Prop
  | .commit ws => ∀ w ∈ ws, w.onSchedule = false ∧ w.setsStatus = false
  | .flushPolicy _ _ | .flushMandate _ | .submitIntent _ _ _ => False
  | _ => True

theorem aside_harmless : Harmless Aside where
  select _ := trivial
  rollback := trivial
  upload _ _ := trivial
  delete _ := trivial
  event event := by
    intro w hw
    rw [List.mem_singleton.1 hw]
    exact ⟨rfl, rfl⟩

/-- No schedule has been marked. -/
def Unscheduled (tr : List Sent) : Prop := ∀ x ∈ tr, x.1.writes Write.onSchedule = false

/-- No status has been changed, and no schedule been marked. -/
structure Untouched (tr : List Sent) : Prop where
  unscheduled : Unscheduled tr
  kept : statusChanged tr = false

/-- Nothing has been activated, and so many attempts to deploy have been lost since a status was
changed. -/
structure Underway (lost : ℕ) (tr : List Sent) : Prop where
  unscheduled : Unscheduled tr
  inactive : activated tr = false
  losses : statusChanged tr = true → tr.countP Sent.loses = lost ∧ lost ≤ 2

/-- The operation has been carried out. -/
structure Done (schedule : PolicyActivationSchedule) (tr : List Sent) : Prop where
  unscheduled : Unscheduled tr
  once : tr.countP (Sent.commits (Write.carriesOut schedule)) = 1

/-- No status has been changed, and no attempt to deploy been lost. -/
def Begun (tr : List Sent) : Prop := Untouched tr ∧ tr.countP Sent.loses = 0

section

variable {tr : List Sent} {q : Statement} {r : Except PyError q.Answer} {lost : ℕ}

theorem Aside.writes (h : Aside q) :
    q.writes Write.onSchedule = false ∧ q.writes Write.setsStatus = false := by
  cases q with
  | commit ws =>
    exact ⟨List.any_eq_false.2 fun w hw => by simp [(h w hw).1],
      List.any_eq_false.2 fun w hw => by simp [(h w hw).2]⟩
  | flushPolicy | flushMandate | submitIntent => cases h
  | select | uuid4 | rollback | uploadPolicy | deletePolicy => exact ⟨rfl, rfl⟩

theorem Aside.races (h : Aside q) : q.races = false := by
  cases q with
  | commit ws => exact h.writes.2
  | flushPolicy | flushMandate | submitIntent => cases h
  | select | uuid4 | rollback | uploadPolicy | deletePolicy => rfl

theorem Aside.setsActive (h : Aside q) : q.writes Write.setsActive = false :=
  Statement.writes_eq_false (fun _ => Write.setsStatus_of_setsActive) h.writes.2

theorem Aside.sends (h : Aside q) : ScheduleSends q := by
  cases q with
  | commit ws => exact .inr (List.all_eq_true.2 fun w hw => by simp [(h w hw).1])
  | flushPolicy | flushMandate | submitIntent => cases h
  | select | uuid4 | rollback | uploadPolicy | deletePolicy => trivial

theorem loses_eq_false (h : q.races = false) : Sent.loses ⟨q, r⟩ = false := by
  cases r with
  | ok a => rfl
  | error e => cases e <;> first | rfl | exact h

theorem Unscheduled.append (h : Unscheduled tr) (hq : q.writes Write.onSchedule = false) :
    Unscheduled (tr ++ [⟨q, r⟩]) := by
  intro x hx
  rcases List.mem_append.1 hx with hx | hx
  · exact h x hx
  · rw [List.mem_singleton.1 hx]
    exact hq

theorem Unscheduled.not_marked (h : Unscheduled tr) : ¬ Marked tr id := by
  intro hmarked
  obtain ⟨x, hx, hcommits⟩ := List.any_eq_true.1 hmarked
  have hwrites : x.1.writes (Write.marks id .executed) = false :=
    Statement.writes_eq_false (fun _ => Write.onSchedule_of_marks) (h x hx)
  rw [Sent.commits, hwrites] at hcommits
  cases hcommits

theorem Untouched.append (h : Untouched tr) (hq : q.writes Write.onSchedule = false)
    (hsets : Sent.commits Write.setsStatus ⟨q, r⟩ = false) : Untouched (tr ++ [⟨q, r⟩]) := by
  refine ⟨h.unscheduled.append hq, ?_⟩
  rw [statusChanged, List.any_append, List.any_cons, hsets]
  simpa using h.kept

theorem Untouched.clean (h : Untouched tr) : Clean tr := ⟨h.kept, fun _ => h.unscheduled.not_marked⟩

theorem Untouched.underway (h : Untouched tr) (lost : ℕ) : Underway lost tr where
  unscheduled := h.unscheduled
  inactive := any_commits_mono (fun _ => Write.setsStatus_of_setsActive) h.kept
  losses hchanged := by
    rw [h.kept] at hchanged
    cases hchanged

theorem Begun.underway (h : Begun tr) : Underway 0 tr := h.1.underway 0

theorem Done.statusChanged (h : Done schedule tr) : statusChanged tr = true := by
  by_contra hkept
  have hcount := countP_eq_zero_of_any (any_commits_mono
    (fun w (hw : w.carriesOut schedule = true) => Write.setsStatus_of_carriesOut hw)
    (Bool.eq_false_iff.2 hkept))
  rw [h.once] at hcount
  cases hcount

/-- A stage of an execution, which the statements aside do not end. -/
structure Stage (I : List Sent → Prop) : Prop where
  unscheduled : ∀ {tr}, I tr → Unscheduled tr
  aside : ∀ {tr q r}, I tr → Aside q → I (tr ++ [⟨q, r⟩])

theorem statusChanged_aside (hq : Aside q) : statusChanged (tr ++ [⟨q, r⟩]) = statusChanged tr :=
  any_commits_append hq.writes.2

theorem stage_begun : Stage Begun where
  unscheduled h := h.1.unscheduled
  aside h hq := by
    refine ⟨⟨h.1.unscheduled.append hq.writes.1, (statusChanged_aside hq).trans h.1.kept⟩, ?_⟩
    rw [List.countP_append, h.2, List.countP_singleton, loses_eq_false hq.races]
    rfl

theorem stage_underway : Stage (Underway lost) where
  unscheduled h := h.unscheduled
  aside {tr q r} h hq := by
    refine ⟨h.unscheduled.append hq.writes.1, (any_commits_append hq.setsActive).trans h.inactive,
      fun hchanged => ?_⟩
    rw [statusChanged_aside hq] at hchanged
    rw [List.countP_append, List.countP_singleton, loses_eq_false hq.races]
    exact h.losses hchanged

theorem stage_done : Stage (Done schedule) where
  unscheduled h := h.unscheduled
  aside {tr q r} h hq := by
    have hcarries : Sent.commits (Write.carriesOut schedule) ⟨q, r⟩ = false :=
      Sent.commits_eq_false
        (Statement.writes_eq_false (fun _ => Write.setsStatus_of_carriesOut) hq.writes.2)
    refine ⟨h.unscheduled.append hq.writes.1, ?_⟩
    rw [List.countP_append, h.once, List.countP_singleton, hcarries]
    rfl

theorem Stage.and {I : List Sent → Prop} (hI : Stage I) (p : Prop) : Stage fun tr => I tr ∧ p :=
  ⟨fun h => hI.unscheduled h.1, fun h hq => ⟨hI.aside h.1 hq, h.2⟩⟩

/-! ### Parts of an execution -/

variable {P : Platform} {I : List Sent → Prop} {α : Type} {key : Uuid} {o : Option Uuid}
  {now : Timestamp} {row : RuntimePolicyRecord} {held : Option RuntimePolicyRecord} {version : ℕ}

/-- An execution that raises after an answer with which it would not go on, had it changed a status. -/
theorem Stage.untouched (hI : Stage I) (htr : I tr) (hq : q.writes Write.onSchedule = false)
    (hsets : Sent.commits Write.setsStatus ⟨q, r⟩ = false) (hanswers : Answers P (tr ++ [⟨q, r⟩]))
    (hproceeds : q.proceeds P tr r = false) : Untouched (tr ++ [⟨q, r⟩]) := by
  refine Untouched.append ⟨hI.unscheduled htr, Bool.eq_false_iff.2 fun hchanged => ?_⟩ hq hsets
  rw [hanswers.last.2 hchanged] at hproceeds
  cases hproceeds

/-- A statement aside, which is not tried again. -/
theorem attempting_send (hI : Stage I) (hq : Aside q) (hrecords : q.records = false)
    (htr : Answers P tr → I tr) :
    Attempting P (Prog.send q) (fun found tr' => I tr' ∧ tr' = tr ++ [⟨q, .ok found⟩] ∧
      (statusChanged tr = true → q.finds P tr found = true)) (fun _ => Untouched) tr := by
  refine sending_send hq.sends (fun found hanswers => ?_) fun e hanswers => ?_
  · exact ⟨hI.aside (htr hanswers.left) hq, rfl, hanswers.last.2⟩
  · refine hI.untouched (htr hanswers.left) hq.writes.1 (Bool.and_false _) hanswers ?_
    rw [Statement.proceeds, hrecords, hq.races]
    rfl

theorem attempting_step (hI : Stage I) (hq : Aside q) (hrecords : q.records = false)
    (htr : Answers P tr → I tr) :
    Attempting P (Prog.send q) (fun _ => I) (fun _ => Untouched) tr :=
  sending_mono (attempting_send hI hq hrecords htr) (fun _ _ h hanswers => (h hanswers).1)
    fun _ _ h => h

theorem attempting_event (hI : Stage I) {event : LifecycleEvent} (htr : Answers P tr → I tr) :
    Attempting P (recordLifecycleEvent event) (fun _ => I) (fun _ => Untouched) tr := by
  have hevent := aside_harmless.event event
  refine sending_tryCatch (sending_send hevent.sends (fun _ hanswers => ?_) fun e => ?_)
  · exact hI.aside (htr hanswers.left) hevent
  · refine sending_send (q := Statement.rollback) trivial (fun _ hanswers => ?_) fun e' hanswers => ?_
    · exact hI.aside (hI.aside (htr hanswers.left.left) hevent) aside_harmless.rollback
    · exact absurd hanswers.last.1 id

/-- What is raised where something was not found. -/
theorem attempting_raise (hI : Stage I) (hq : Aside q) {found : q.Answer} {e : PyError}
    (htr : Answers P tr → I tr) (hnone : q.finds P tr found = false) :
    Attempting P (Prog.raise e : Service α) (fun _ _ => True) (fun _ => Untouched)
      (tr ++ [⟨q, .ok found⟩]) := by
  intro hanswers
  exact hI.untouched (htr hanswers.left) hq.writes.1 (Sent.commits_eq_false hq.writes.2) hanswers hnone

theorem attempting_refresh (hI : Stage I) (htr : Answers P tr → I tr) :
    Attempting P (refresh key version o) (fun _ => I) (fun _ => Untouched) tr := by
  have hselect : Aside (.select (.versionRow key version o)) := trivial
  refine sending_seq (attempting_send hI hselect rfl htr) fun found tr₁ htr₁ => ?_
  cases found with
  | none =>
    intro hanswers
    obtain ⟨-, rfl, -⟩ := htr₁ hanswers
    exact attempting_raise (α := Unit) (e := .databaseError) hI hselect htr rfl hanswers
  | some row => exact fun hanswers => (htr₁ hanswers).1

theorem attempting_reconcile (hI : Stage I) (htr : Answers P tr → I tr) :
    Attempting P (reconcileOrganizationOpaState o now) (fun _ => I) (fun _ => Untouched) tr := by
  have hselect : Aside (.select (.activeRecords o)) := trivial
  refine sending_seq (attempting_send hI hselect rfl htr) fun rows tr₁ htr₁ => ?_
  have hstage : Answers P tr₁ → I tr₁ := fun hanswers => (htr₁ hanswers).1
  dsimp only
  split
  · exact attempting_step hI trivial rfl hstage
  next hrows =>
  -- what does not compile now would not have compiled for the condition either
  have hraise : compiles rows now = false → Answers P tr₁ → Untouched tr₁ := by
    intro hnone hanswers
    obtain ⟨-, rfl, -⟩ := htr₁ hanswers
    refine attempting_raise (α := Unit) (e := .databaseError) hI hselect htr ?_ hanswers
    show (rows.isEmpty || compiles rows 0) = false
    rw [compiles_now rows 0 now, hnone, Bool.eq_false_iff.2 hrows]
    rfl
  unfold uploadActive
  cases hcompiled : compileActive rows "reconcile" now with
  | error e => exact hraise (by rw [compiles, hcompiled]; rfl)
  | ok result =>
    obtain ⟨bundle, errors⟩ := result
    cases bundle with
    | none => exact hraise (by rw [compiles, hcompiled]; rfl)
    | some bundle => exact attempting_step hI trivial rfl hstage

/-- A transition that leaves the status of a version as it is. -/
theorem attempting_transition (hI : Stage I) {columns : RecordColumns} {event : LifecycleEvent}
    (hstatus : columns.status = none) (htr : Answers P tr → I tr) :
    Attempting P (transition row columns event) (fun _ => I) (fun _ => Untouched) tr := by
  have hcommit : Aside (.commit [.updateRecord row.policyKey row.version columns]) := by
    intro w hw
    rw [List.mem_singleton.1 hw]
    exact ⟨rfl, by rw [Write.setsStatus, hstatus]; rfl⟩
  refine sending_seq (attempting_send hI hcommit rfl htr) fun _ tr₁ htr₁ => ?_
  refine sending_seq (attempting_refresh hI fun hanswers => (htr₁ hanswers).1) fun row' tr₂ htr₂ => ?_
  exact sending_seq (attempting_event hI htr₂) fun _ tr₃ htr₃ => htr₃

/-- A part of an execution that has changed nothing so far. -/
theorem attempting_kept {p : Service α} (hI : Stage I) (hkept : ∀ tr, I tr → Untouched tr)
    (h : Sends Aside (fun _ _ => True) p fun _ => True) (htr : Answers P tr → I tr) :
    Attempting P p (fun _ => I) (fun _ => Untouched) tr := by
  refine sending_mono (sending_keeps (I := fun tr => Answers P tr → I tr) h ?_ ?_ htr)
    (fun _ _ h => h) fun _ _ h hanswers => hkept _ (h hanswers)
  · exact fun q tr hq _ => hq.sends
  · exact fun q r tr hq hstage hanswers => hI.aside (hstage hanswers.left) hq

theorem lastRead_append :
    lastRead (tr ++ [⟨.select (.latestVersionRow key o), .ok (some row)⟩]) = some row := by
  induction tr with
  | nil => rfl
  | cons x tr ih => simp only [List.cons_append, lastRead, ih]

/-- The latest version. What an execution that has changed a status reads is what it goes on with. -/
theorem attempting_getLatest (hI : Stage I) (htr : Answers P tr → I tr) :
    Attempting P (getLatest key o held) (fun row tr' => I tr' ∧
        ((∀ q ∈ held, q.policyKey = key) → row.policyKey = key) ∧
        (held = none → statusChanged tr' = true → lastRead tr' = some row ∧
          (activated tr' = false →
            row.status = .compiled ∧ mandateReadable P row.content.constraints = true)))
      (fun _ => Untouched) tr := by
  have hselect : Aside (.select (.latestVersionRow key o)) := trivial
  refine sending_seq (attempting_send hI hselect rfl htr) fun found tr₁ htr₁ => ?_
  cases found with
  | none =>
    intro hanswers
    obtain ⟨-, rfl, -⟩ := htr₁ hanswers
    exact attempting_raise (α := Unit) (e := .databaseError) hI hselect htr rfl hanswers
  | some read =>
    intro hanswers
    obtain ⟨hstage, rfl, hfinds⟩ := htr₁ hanswers
    have hkey : read.policyKey = key := hanswers.last.1
    refine ⟨hstage, fun hheld => ?_, fun hnone hchanged => ?_⟩
    · cases held with
      | none => exact hkey
      | some row =>
        rw [heldOr]
        split
        · exact hheld row rfl
        · exact hkey
    · have hread : heldOr held read = read := by rw [hnone, heldOr]
      rw [hread]
      refine ⟨lastRead_append, fun hinactive => ?_⟩
      rw [activated, any_commits_append hselect.setsActive] at hinactive
      rw [statusChanged_aside hselect] at hchanged
      simpa [Statement.finds, hinactive] using hfinds hchanged

/-! ### An activation -/

/-- The transition that changes a status for the first time. -/
theorem attempting_compiled {bundle : String × BundleHash} {event : LifecycleEvent}
    (htr : Answers P tr → Begun tr) :
    Attempting P (transition row { status := some .compiled, bundle := some bundle } event)
      (fun _ => Underway 0) (fun _ => Untouched) tr := by
  refine sending_seq (S := fun _ tr' => Answers P tr' → Underway 0 tr')
    (sending_send (.inr rfl) (fun _ hanswers => ?_) fun e hanswers => ?_) fun _ tr₁ htr₁ => ?_
  · have hbegun := htr hanswers.left
    refine ⟨hbegun.1.unscheduled.append rfl, ?_, fun _ => ⟨?_, Nat.zero_le 2⟩⟩
    · exact (any_commits_append rfl).trans hbegun.underway.inactive
    · rw [List.countP_append, hbegun.2]
      rfl
  · exact (htr hanswers.left).1.append rfl (Bool.and_false _)
  · refine sending_seq (attempting_refresh stage_underway htr₁) fun row' tr₂ htr₂ => ?_
    exact sending_seq (attempting_event stage_underway htr₂) fun _ tr₃ htr₃ => htr₃

theorem attempting_compilePolicy (htr : Answers P tr → Begun tr) :
    Attempting P (compilePolicy P key o now held)
      (fun outcome tr' => Underway 0 tr' ∧ (outcome.errors ≠ [] → Untouched tr'))
      (fun _ => Untouched) tr := by
  have hlatest : Sends Aside (fun _ _ => True) (getLatest key o held) fun _ => True := by
    refine sends_bind (sends_mono (sends_look aside_harmless) fun found _ => ?_)
    cases found <;> trivial
  refine sending_seq (attempting_kept stage_begun (fun _ h => h.1) hlatest htr) fun row tr₁ htr₁ => ?_
  dsimp only
  split
  · exact fun hanswers => (htr₁ hanswers).1
  refine sending_seq (attempting_kept stage_begun (fun _ h => h.1)
    (sends_otherActivePolicies aside_harmless) htr₁) fun others tr₂ htr₂ => ?_
  cases hcompiled : compileWith P row others now with
  | error e => exact fun hanswers => (htr₂ hanswers).1
  | ok result =>
    obtain ⟨bundle, errors⟩ := result
    cases bundle with
    | none => exact fun hanswers => ⟨(htr₂ hanswers).underway, fun _ => (htr₂ hanswers).1⟩
    | some bundle =>
      have herrors : errors = [] := (CompilerV2.compileBundle_ok hcompiled).1
      refine sending_seq (S := fun result tr' => result = ⟨some bundle, errors⟩ ∧ tr' = tr₂) ⟨rfl, rfl⟩ ?_
      rintro _ _ ⟨rfl, rfl⟩
      exact sending_seq (attempting_compiled htr₂) fun row' tr₃ htr₃ hanswers =>
        ⟨htr₃ hanswers, fun hne => absurd herrors hne⟩

/-- An attempt to deploy a version. -/
structure DeployAttempt (P : Platform) (schedule : PolicyActivationSchedule) (row : RuntimePolicyRecord)
    (lost : ℕ) (tr : List Sent) : Prop extends Underway lost tr where
  key : row.policyKey = schedule.policyKey
  readable : statusChanged tr = true → mandateReadable P row.content.constraints = true

/-- How an attempt to deploy fails: no status has been changed, or it may be tried again. -/
def Lost (lost : ℕ) (e : PyError) (tr : List Sent) : Prop :=
  Untouched tr ∨ e = .integrityError ∧ Underway (lost + 1) tr

theorem stage_untouched : Stage Untouched where
  unscheduled h := h.unscheduled
  aside h hq := h.append hq.writes.1 (Sent.commits_eq_false hq.writes.2)

theorem stage_deployAttempt : Stage (DeployAttempt P schedule row lost) where
  unscheduled h := h.unscheduled
  aside h hq := by
    refine ⟨stage_underway.aside h.toUnderway hq, h.key, fun hchanged => h.readable ?_⟩
    rwa [statusChanged_aside hq] at hchanged

theorem stage_lost {e : PyError} : Stage (Lost lost e) where
  unscheduled h := h.elim Untouched.unscheduled fun h => h.2.unscheduled
  aside h hq := h.imp (stage_untouched.aside · hq) fun h => ⟨h.1, stage_underway.aside h.2 hq⟩

/-- A statement of a deploy fails. -/
theorem Underway.loses {e : PyError} (h : Underway lost tr) (hq : q.races = true)
    (hschedule : q.writes Write.onSchedule = false) (hrecords : q.records = false)
    (hanswers : Answers P (tr ++ [⟨q, .error e⟩])) : Lost lost e (tr ++ [⟨q, .error e⟩]) := by
  have hnone : ∀ p, List.any (tr ++ [⟨q, .error e⟩]) (Sent.commits p) = tr.any (Sent.commits p) := by
    intro p
    simp [Sent.commits, Except.toBool]
  by_cases hchanged : statusChanged tr = true
  · have hproceeds := hanswers.last.2 hchanged
    rw [Statement.proceeds, hrecords, hq] at hproceeds
    obtain ⟨he, hfew⟩ : e = .integrityError ∧ tr.countP Sent.loses < 2 := by simpa using hproceeds
    obtain ⟨hcount, -⟩ := h.losses hchanged
    refine .inr ⟨he, h.unscheduled.append hschedule, (hnone _).trans h.inactive, fun _ => ?_⟩
    rw [List.countP_append, hcount, List.countP_singleton, he, Sent.loses, hq]
    exact ⟨rfl, by omega⟩
  · exact .inl ⟨h.unscheduled.append hschedule, (hnone _).trans (Bool.eq_false_iff.2 hchanged)⟩

/-- A statement of a deploy that changes no status. -/
theorem DeployAttempt.flushed {found : q.Answer} (h : DeployAttempt P schedule row lost tr)
    (hschedule : q.writes Write.onSchedule = false) (hsets : q.writes Write.setsStatus = false) :
    DeployAttempt P schedule row lost (tr ++ [⟨q, .ok found⟩]) := by
  have hsame : statusChanged (tr ++ [⟨q, .ok found⟩]) = statusChanged tr := any_commits_append hsets
  have hinactive : q.writes Write.setsActive = false :=
    Statement.writes_eq_false (fun _ => Write.setsStatus_of_setsActive) hsets
  refine ⟨⟨h.unscheduled.append hschedule, (any_commits_append hinactive).trans h.inactive, ?_⟩, h.key,
    fun hchanged => h.readable (hsame ▸ hchanged)⟩
  intro hchanged
  rw [List.countP_append, (h.losses (hsame ▸ hchanged)).1]
  exact ⟨rfl, (h.losses (hsame ▸ hchanged)).2⟩

/-- What changes nothing where it fails has not lost a race. -/
theorem attempting_lost {p : Service α} {R : α → List Sent → Prop}
    (h : Attempting P p R (fun _ => Untouched) tr) : Attempting P p R (Lost lost) tr :=
  sending_mono h (fun _ _ h => h) fun _ _ h hanswers => .inl (h hanswers)

/-- A flush of a deploy. -/
theorem attempting_flush (hsends : ScheduleSends q) (hraces : q.races = true)
    (hschedule : q.writes Write.onSchedule = false) (hsets : q.writes Write.setsStatus = false)
    (hrecords : q.records = false) (htr : Answers P tr → DeployAttempt P schedule row lost tr) :
    Attempting P (Prog.send q) (fun _ => DeployAttempt P schedule row lost) (Lost lost) tr :=
  sending_send hsends (fun _ hanswers => (htr hanswers.left).flushed hschedule hsets)
    fun _ hanswers => (htr hanswers.left).toUnderway.loses hraces hschedule hrecords hanswers

theorem attempting_ensureMandate (htr : Answers P tr → DeployAttempt P schedule row lost tr) :
    Attempting P (ensureMandate P row.content.constraints version now)
      (fun _ => DeployAttempt P schedule row lost) (Lost lost) tr := by
  unfold ensureMandate
  split
  · next authorityId hauthority hmandate =>
    split
    · next hid =>
      intro hanswers
      refine .inl ⟨(htr hanswers).unscheduled, Bool.eq_false_iff.2 fun hchanged => ?_⟩
      have hreadable := (htr hanswers).readable hchanged
      rw [mandateReadable, hauthority, hmandate] at hreadable
      simp [hid] at hreadable
    · next id hid =>
      refine sending_seq (attempting_lost (attempting_step stage_deployAttempt trivial rfl htr))
        fun found tr₁ htr₁ => ?_
      cases found with
      | none => exact htr₁
      | some authority =>
        refine sending_seq (attempting_lost (attempting_step stage_deployAttempt trivial rfl htr₁))
          fun mandateId tr₂ htr₂ => ?_
        exact sending_seq (attempting_flush trivial rfl rfl rfl rfl htr₂) fun _ tr₃ htr₃ => htr₃
  · exact htr

theorem carriesOut_deployWrites (hactivate : schedule.action = .activate)
    (hrow : row.policyKey = schedule.policyKey) (replaced : Option RuntimePolicyRecord)
    (content : RuntimePolicy) :
    (deployWrites row replaced content).any (Write.carriesOut schedule) = true := by
  refine List.any_eq_true.2 ⟨_, List.mem_append_right _ List.mem_cons_self, ?_⟩
  refine decide_eq_true ⟨hrow, ?_⟩
  rw [hactivate]
  rfl

/-- A deploy sets statuses and nothing else. -/
theorem deployWrites_all (row : RuntimePolicyRecord) (replaced : Option RuntimePolicyRecord)
    (content : RuntimePolicy) :
    (deployWrites row replaced content).any Write.onSchedule = false ∧
      (deployWrites row replaced content).any Write.setsStatus = true ∧
      (deployWrites row replaced content).all Write.onEvent = false := by
  rcases deployWrites_cases row replaced content with ⟨-, heq⟩ | ⟨q, -, -, heq⟩ <;> rw [heq] <;>
    exact ⟨rfl, rfl, rfl⟩

theorem attempting_publish (hactivate : schedule.action = .activate)
    (htr : Answers P tr → DeployAttempt P schedule row lost tr) {bundle : PolicyBundle} :
    Attempting P (publish P row o version bundle now) (fun _ => Done schedule) (Lost lost) tr := by
  refine sending_seq (attempting_lost (attempting_step stage_deployAttempt trivial rfl htr))
    fun _ tr₁ htr₁ => ?_
  refine sending_seq (attempting_lost (attempting_step stage_deployAttempt trivial rfl htr₁))
    fun replaced tr₂ htr₂ => ?_
  refine sending_seq (attempting_ensureMandate htr₂) fun constraints tr₃ htr₃ => ?_
  obtain ⟨hschedule, hsets, hevent⟩ :=
    deployWrites_all row replaced (deployedContent row.content constraints now)
  refine sending_seq (S := fun _ tr' => Answers P tr' → Done schedule tr')
    (sending_send (.inr ?_) (fun _ hanswers => ?_) fun e hanswers => ?_) fun _ tr₄ htr₄ => htr₄
  · simpa [List.any_eq_false] using hschedule
  · have hattempt := htr₃ hanswers.left
    refine ⟨hattempt.unscheduled.append hschedule, ?_⟩
    have hnone : tr₃.countP (Sent.commits (Write.carriesOut schedule)) = 0 :=
      countP_eq_zero_of_any (any_commits_mono
        (fun _ => Write.setsActive_of_carriesOut hactivate) hattempt.inactive)
    rw [List.countP_append, hnone, List.countP_singleton, if_pos]
    exact (Bool.and_eq_true_iff ..).2 ⟨carriesOut_deployWrites hactivate hattempt.key .., rfl⟩
  · exact (htr₃ hanswers.left).toUnderway.loses hsets hschedule hevent hanswers

theorem attempting_deployBundle (hactivate : schedule.action = .activate)
    (htr : Answers P tr → DeployAttempt P schedule row lost tr) {bundle : PolicyBundle} :
    Attempting P (deployBundle P row o bundle now) (fun _ => Done schedule) (Lost lost) tr := by
  have hselect : Aside (.select (.activePolicy o)) := trivial
  refine sending_seq (attempting_lost (attempting_send stage_deployAttempt hselect rfl htr))
    fun prior tr₁ htr₁ => ?_
  dsimp only
  split
  · next hwriter =>
    intro hanswers
    obtain ⟨-, rfl, -⟩ := htr₁ hanswers
    refine attempting_lost (attempting_raise (α := Unit) (e := .unexpectedActiveWriter)
      stage_deployAttempt hselect htr ?_) hanswers
    simp [Statement.finds, hwriter]
  have hattempt₁ : Answers P tr₁ → DeployAttempt P schedule row lost tr₁ :=
    fun hanswers => (htr₁ hanswers).1
  refine sending_seq (attempting_lost (attempting_step stage_deployAttempt trivial rfl hattempt₁))
    fun m tr₂ htr₂ => ?_
  refine sending_seq (attempting_flush trivial rfl rfl rfl rfl htr₂) fun _ tr₃ htr₃ => ?_
  refine sending_seq (S := fun _ tr' => Answers P tr' → Done schedule tr')
    (sending_tryCatch (sending_mono (attempting_publish hactivate htr₃) (fun _ _ h => h)
      fun e tr₄ htr₄ => ?_)) fun constraints tr₄ htr₄ => ?_
  · refine sending_seq (attempting_lost (attempting_step stage_lost trivial rfl htr₄)) fun _ tr₅ htr₅ => ?_
    exact sending_seq (attempting_lost (attempting_reconcile stage_lost htr₅)) fun _ tr₆ htr₆ => htr₆
  · exact sending_seq (attempting_lost (attempting_step stage_done trivial rfl htr₄))
      fun _ tr₅ htr₅ => htr₅

/-- The version that a deploy reads. -/
theorem attempting_deployRow (htr : Answers P tr → Underway lost tr)
    (hheld : Answers P tr → ∀ q ∈ held, q.policyKey = schedule.policyKey ∧ statusChanged tr = false) :
    Attempting P (getLatest schedule.policyKey o held)
      (fun row tr' => DeployAttempt P schedule row lost tr' ∧
        (statusChanged tr' = true → row.status = .compiled ∧ lastRead tr' = some row))
      (fun _ => Untouched) tr := by
  have hstage : Stage fun tr => Underway lost tr ∧
      ∀ q ∈ held, q.policyKey = schedule.policyKey ∧ statusChanged tr = false := by
    refine ⟨fun h => h.1.unscheduled, fun h hq => ⟨stage_underway.aside h.1 hq, fun row hrow => ?_⟩⟩
    rw [statusChanged_aside hq]
    exact h.2 row hrow
  refine sending_mono (attempting_getLatest hstage fun hanswers => ⟨htr hanswers, hheld hanswers⟩)
    (fun row tr' h hanswers => ?_) fun _ _ h => h
  obtain ⟨⟨hunderway, hheld'⟩, hkey, hread⟩ := h hanswers
  have hfound : statusChanged tr' = true → lastRead tr' = some row ∧
      row.status = .compiled ∧ mandateReadable P row.content.constraints = true := by
    intro hchanged
    -- a row that the session holds is of the time before the change
    have hnone : held = none := Option.eq_none_iff_forall_not_mem.2 fun q hq => by
      rw [(hheld' q hq).2] at hchanged
      cases hchanged
    obtain ⟨hlast, hready⟩ := hread hnone hchanged
    exact ⟨hlast, hready hunderway.inactive⟩
  exact ⟨⟨hunderway, hkey fun q hq => (hheld' q hq).1, fun hchanged => (hfound hchanged).2.2⟩,
    fun hchanged => ⟨(hfound hchanged).2.1, (hfound hchanged).1⟩⟩

theorem attempting_otherActivePolicies (now : Timestamp) (hI : Stage I) (htr : Answers P tr → I tr) :
    Attempting P (otherActivePolicies key o) (fun others tr' => I tr' ∧ Answers P tr ∧
        (statusChanged tr' = true → statusChanged tr = true ∧ ∃ row ∈ lastRead tr,
          ∃ hash ∈ compiledHash P row others now, row.bundleHash = some hash))
      (fun _ => Untouched) tr := by
  have hselect : Aside (.select (.otherActivePolicies key o)) := trivial
  refine sending_seq (attempting_send hI hselect rfl htr) fun rows tr₁ htr₁ hanswers => ?_
  obtain ⟨hstage, rfl, hfinds⟩ := htr₁ hanswers
  refine ⟨hstage, hanswers.left, fun hchanged => ?_⟩
  rw [statusChanged_aside hselect] at hchanged
  refine ⟨hchanged, ?_⟩
  have hfound := hfinds hchanged
  simp only [Statement.finds, Option.any_eq_true] at hfound
  obtain ⟨row, hrow, hash, hhash, hsame⟩ := hfound
  rw [compiledHash_now P row _ 0 now] at hhash
  exact ⟨row, hrow, hash, hhash, of_decide_eq_true hsame⟩

theorem attempting_deployPolicyAttempt (hactivate : schedule.action = .activate)
    (htr : Answers P tr → Underway lost tr)
    (hheld : Answers P tr → ∀ q ∈ held, q.policyKey = schedule.policyKey ∧ statusChanged tr = false) :
    Attempting P (deployPolicyAttempt P schedule.policyKey o now held) (fun _ => Done schedule)
      (Lost lost) tr := by
  refine sending_seq (attempting_lost (attempting_deployRow htr hheld)) fun row tr₁ htr₁ => ?_
  have hattempt₁ : Answers P tr₁ → DeployAttempt P schedule row lost tr₁ :=
    fun hanswers => (htr₁ hanswers).1
  dsimp only
  split
  · next hstatus =>
    refine fun hanswers => .inl ⟨(hattempt₁ hanswers).unscheduled, Bool.eq_false_iff.2 fun hchanged => ?_⟩
    exact hstatus ((htr₁ hanswers).2 hchanged).1
  refine sending_seq (attempting_lost (attempting_otherActivePolicies now stage_deployAttempt hattempt₁))
    fun others tr₂ htr₂ => ?_
  have hattempt₂ : Answers P tr₂ → DeployAttempt P schedule row lost tr₂ :=
    fun hanswers => (htr₂ hanswers).1
  have hhash : Answers P tr₂ → statusChanged tr₂ = true →
      ∃ hash ∈ compiledHash P row others now, row.bundleHash = some hash := by
    intro hanswers hchanged₂
    obtain ⟨-, hanswers₁, hfound⟩ := htr₂ hanswers
    obtain ⟨hchanged₁, row', hrow', hsame⟩ := hfound hchanged₂
    rw [((htr₁ hanswers₁).2 hchanged₁).2] at hrow'
    cases hrow'
    exact hsame
  -- a compilation that does not give the bundle is of an execution that has changed nothing
  have hraise : ∀ e, (∀ hash ∈ compiledHash P row others now, row.bundleHash ≠ some hash) →
      Answers P tr₂ → Lost lost e tr₂ := by
    intro e hnone hanswers
    refine .inl ⟨(hattempt₂ hanswers).unscheduled, Bool.eq_false_iff.2 fun hchanged => ?_⟩
    obtain ⟨hash, hmem, hsame⟩ := hhash hanswers hchanged
    exact hnone hash hmem hsame
  cases hcompiled : compileWith P row others now with
  | error e =>
    refine hraise e fun hash hmem => ?_
    rw [compiledHash, hcompiled] at hmem
    cases hmem
  | ok result =>
    obtain ⟨bundle, errors⟩ := result
    refine sending_seq (S := fun result tr' => result = ⟨bundle, errors⟩ ∧ tr' = tr₂) ⟨rfl, rfl⟩ ?_
    rintro _ _ ⟨rfl, rfl⟩
    cases bundle with
    | none =>
      refine hraise _ fun hash hmem => ?_
      rw [compiledHash, hcompiled] at hmem
      cases hmem
    | some bundle =>
      dsimp only
      split
      · next hhash =>
        refine hraise _ fun hash hmem hsame => ?_
        rw [compiledHash, hcompiled] at hmem
        cases hmem
        exact hhash hsame.symm
      · exact attempting_deployBundle hactivate hattempt₂

/-- The attempts that are left; three may be lost in all. -/
theorem attempting_deployAttempts (hactivate : schedule.action = .activate) {m : ℕ}
    (hm : lost + m = maxDeployAttempts) (htr : Answers P tr → Underway lost tr)
    (hheld : Answers P tr → ∀ q ∈ held, q.policyKey = schedule.policyKey ∧ statusChanged tr = false) :
    Attempting P (deployAttempts P schedule.policyKey o now m held) (fun _ => Done schedule)
      (fun _ => Untouched) tr := by
  have hmax : lost + m = 3 := hm
  induction m generalizing held lost tr with
  | zero =>
    refine sending_seq (attempting_reconcile stage_underway htr) fun _ tr₁ htr₁ hanswers => ?_
    refine ⟨(htr₁ hanswers).unscheduled, Bool.eq_false_iff.2 fun hchanged => ?_⟩
    have hfew := ((htr₁ hanswers).losses hchanged).2
    omega
  | succ m ih =>
    refine sending_tryCatch (sending_mono (attempting_deployPolicyAttempt hactivate htr hheld)
      (fun _ _ h => h) fun e tr₁ htr₁ => ?_)
    by_cases he : e = .integrityError
    · rw [if_pos he]
      have hunderway : Answers P tr₁ → Underway (lost + 1) tr₁ := fun hanswers =>
        (htr₁ hanswers).elim (fun h => h.underway _) fun h => h.2
      refine sending_seq (attempting_step stage_underway trivial rfl hunderway) fun _ tr₂ htr₂ => ?_
      refine ih (by omega) htr₂ (fun _ q hq => ?_) (by omega)
      cases hq
    · rw [if_neg he]
      exact fun hanswers => (htr₁ hanswers).resolve_right fun h => he h.1

theorem attempting_compileAndDeploy (hactivate : schedule.action = .activate)
    (htr : Answers P tr → Begun tr ∧ row.policyKey = schedule.policyKey) :
    Attempting P (compileAndDeploy P row schedule.policyKey o now) (fun _ => Done schedule)
      (fun _ => Untouched) tr := by
  unfold compileAndDeploy
  split
  · refine sending_seq (attempting_compilePolicy fun hanswers => (htr hanswers).1) fun outcome tr₁ htr₁ => ?_
    split
    · next herrors =>
      refine fun hanswers => (htr₁ hanswers).2 fun hnil => ?_
      simp [hnil] at herrors
    · refine attempting_deployAttempts hactivate rfl (fun hanswers => (htr₁ hanswers).1) fun _ q hq => ?_
      cases hq
  · refine attempting_deployAttempts hactivate rfl (fun hanswers => (htr hanswers).1.underway)
      fun hanswers q hq => ?_
    cases hq
    exact ⟨(htr hanswers).2, (htr hanswers).1.1.kept⟩

theorem attempting_activatePolicy (hactivate : schedule.action = .activate) {actor : String}
    {reason : Option String} (htr : Answers P tr → Begun tr) :
    Attempting P (activatePolicy P schedule.policyKey o actor reason now) (fun _ => Done schedule)
      (fun _ => Untouched) tr := by
  refine sending_seq (attempting_getLatest stage_begun htr) fun row tr₁ htr₁ => ?_
  have hbegun₁ : Answers P tr₁ → Begun tr₁ ∧ row.policyKey = schedule.policyKey :=
    fun hanswers => ⟨(htr₁ hanswers).1, (htr₁ hanswers).2.1 fun _ hq => nomatch hq⟩
  dsimp only
  split
  · exact fun hanswers => (hbegun₁ hanswers).1.1
  refine sending_seq (attempting_kept (stage_begun.and _) (fun _ h => h.1.1)
    (sends_passSafetyChecks aside_harmless) hbegun₁) fun _ tr₂ htr₂ => ?_
  refine sending_seq (attempting_compileAndDeploy hactivate htr₂) fun _ tr₃ htr₃ => ?_
  refine sending_seq (attempting_getLatest stage_done htr₃) fun row' tr₄ htr₄ => ?_
  exact attempting_transition stage_done rfl fun hanswers => (htr₄ hanswers).1

/-! ### A retirement -/

theorem attempting_retirePolicy (hretire : schedule.action = .retire) {actor : String}
    {reason : Option String} (htr : Answers P tr → Begun tr) :
    Attempting P (retirePolicy schedule.policyKey o actor reason now) (fun _ => Done schedule)
      (fun _ => Untouched) tr := by
  refine sending_seq (attempting_getLatest stage_begun htr) fun row tr₁ htr₁ => ?_
  dsimp only
  split
  · exact fun hanswers => (htr₁ hanswers).1.1
  refine sending_seq (S := fun _ tr' => Answers P tr' → Done schedule tr')
    (sending_send (.inr rfl) (fun _ hanswers => ?_) fun e hanswers => ?_) fun _ tr₂ htr₂ => ?_
  · obtain ⟨hbegun, hkey, -⟩ := htr₁ hanswers.left
    have hrow : row.policyKey = schedule.policyKey := hkey fun _ hq => nomatch hq
    refine ⟨hbegun.1.unscheduled.append rfl, ?_⟩
    rw [List.countP_append, hbegun.1.clean.countP, List.countP_singleton, if_pos]
    refine (Bool.and_eq_true_iff ..).2 ⟨List.any_eq_true.2 ⟨_, List.mem_cons_self, ?_⟩, rfl⟩
    refine decide_eq_true ⟨hrow, ?_⟩
    rw [hretire]
    rfl
  · exact (htr₁ hanswers.left).1.1.append rfl (Bool.and_false _)
  refine sending_seq (attempting_refresh stage_done htr₂) fun row' tr₃ htr₃ => ?_
  refine sending_seq (attempting_reconcile stage_done htr₃) fun _ tr₄ htr₄ => ?_
  exact sending_seq (attempting_event stage_done htr₄) fun _ tr₅ htr₅ => htr₅

/-! ### An execution -/

/-- The schedule was executed, or no status has been changed. -/
def Concluded (schedule : PolicyActivationSchedule) (tr : List Sent) : Prop :=
  Executed schedule tr ∨ Clean tr

/-- No schedule has been marked as executed. -/
def Unmarked (tr : List Sent) : Prop := ∀ id, ¬ Marked tr id

theorem marked_append {x : Sent} :
    Marked (tr ++ [x]) id ↔ Marked tr id ∨ x.commits (Write.marks id .executed) = true := by
  simp [Marked]

theorem Unmarked.append {x : Sent} (h : Unmarked tr)
    (hx : ∀ id, x.commits (Write.marks id .executed) = false) : Unmarked (tr ++ [x]) := by
  intro id hmarked
  rcases marked_append.1 hmarked with hmarked | hmarked
  · exact h id hmarked
  · rw [hx id] at hmarked
    cases hmarked

theorem Clean.extend (h : Clean tr) (hsets : Sent.commits Write.setsStatus ⟨q, r⟩ = false)
    (hmarks : ∀ id, Sent.commits (Write.marks id .executed) ⟨q, r⟩ = false) :
    Clean (tr ++ [⟨q, r⟩]) := by
  refine ⟨?_, Unmarked.append h.unmarked hmarks⟩
  rw [List.any_append, h.kept, List.any_cons, hsets]
  rfl

theorem Done.executed {executedAt : Option Timestamp} {e : Option PyError} (h : Done schedule tr) :
    Executed schedule
      (tr ++ [⟨.commit [.updateSchedule schedule.id .executed executedAt e], .ok ()⟩]) where
  marked := marked_append.2 (.inr (by simp [Sent.commits, Statement.writes, Write.marks, Except.toBool]))
  only id hmarked := by
    rcases marked_append.1 hmarked with hmarked | hmarked
    · exact absurd hmarked h.unscheduled.not_marked
    · simpa [Sent.commits, Statement.writes, Write.marks, Except.toBool, eq_comm] using hmarked
  once := by
    rw [List.countP_append, h.once]
    rfl

theorem Executed.read (h : Executed schedule tr) {k : Select} {r : Except PyError k.Answer} :
    Executed schedule (tr ++ [⟨.select k, r⟩]) where
  marked := marked_append.2 (.inl h.marked)
  only id hmarked := by
    rcases marked_append.1 hmarked with hmarked | hmarked
    · exact h.only id hmarked
    · cases hmarked
  once := by
    rw [List.countP_append, h.once]
    rfl

/-- The handler of an execution. -/
theorem attempting_handler {e : PyError} (htr : Answers P tr → Untouched tr) :
    Attempting P (do
      rollback
      commit [.updateSchedule schedule.id .failed none (some e)]
      let _ ← select (.schedule schedule.id)
      return ({
        scheduleId := schedule.id
        policyKey := schedule.policyKey
        action := schedule.action
        error := some e } : ScheduleExecutionResult))
      (fun _ => Concluded schedule) (fun _ => Concluded schedule) tr := by
  refine sending_bind (sending_send (q := Statement.rollback) trivial (fun _ => ?_)
    fun e' hanswers => absurd hanswers.last.1 id)
  have hmark : ∀ {tr : List Sent} {r : Except PyError Unit}, Clean tr →
      Clean (tr ++ [⟨.commit [.updateSchedule schedule.id .failed none (some e)], r⟩]) :=
    fun h => h.extend rfl fun id => by simp [Sent.commits, Statement.writes, Write.marks]
  have hrolled : ∀ {r : Except PyError Unit}, Answers P tr → Clean (tr ++ [⟨.rollback, r⟩]) :=
    fun hanswers => (htr hanswers).clean.extend rfl fun _ => rfl
  refine sending_bind (sending_send (.inl ⟨_, _, _, _, rfl⟩) (fun _ => ?_) fun e' hanswers => ?_)
  · refine sending_bind (sending_send trivial (fun _ hanswers => ?_) fun e' hanswers => ?_)
    · exact .inr ((hmark (hrolled hanswers.left.left.left)).extend rfl fun _ => rfl)
    · exact .inr ((hmark (hrolled hanswers.left.left.left)).extend rfl fun _ => rfl)
  · exact .inr (hmark (hrolled hanswers.left.left))

theorem attempting_executeSchedule (htr : Answers P tr → Begun tr) :
    Attempting P (executeSchedule P schedule now) (fun _ => Concluded schedule)
      (fun _ => Concluded schedule) tr := by
  have hoperation : Attempting P (scheduledOperation P schedule now)
      (fun _ => Done schedule) (fun _ => Untouched) tr := by
    unfold scheduledOperation
    cases haction : schedule.action with
    | activate => exact attempting_activatePolicy haction htr
    | retire => exact attempting_retirePolicy haction htr
  refine sending_tryCatch (sending_seq (sending_mono hoperation (fun _ _ h => h)
    fun e tr₁ htr₁ => attempting_handler htr₁) fun row tr₁ htr₁ => ?_)
  -- after a change, neither the commit of the mark nor the read behind it fails
  have hgoes : ∀ {tr : List Sent} {q : Statement} {e : PyError}, statusChanged tr = true →
      q.proceeds P tr (.error e) = false → ¬ Answers P (tr ++ [⟨q, .error e⟩]) := by
    intro tr q e hchanged hproceeds hanswers
    rw [hanswers.last.2 hchanged] at hproceeds
    cases hproceeds
  refine sending_bind (sending_send (.inl ⟨_, _, _, _, rfl⟩) (fun _ => ?_) fun e =>
    attempting_handler fun hanswers =>
      absurd hanswers (hgoes (htr₁ hanswers.left).statusChanged rfl))
  refine sending_bind (sending_send trivial (fun _ hanswers => ?_) fun e =>
    attempting_handler fun hanswers => absurd hanswers (hgoes ?_ rfl))
  · exact .inl (htr₁ hanswers.left.left).executed.read
  · exact (any_commits_append rfl).trans (htr₁ hanswers.left.left).statusChanged

end

end PayReality
