import PayReality.Lifecycle.Insertions

/-!
# What can be rolled back to

`rollback_policy` accepts a version that is active or has an `activated_at`. A version becomes active
with the commit of a deploy, and only `activate_policy` writes `activated_at`, afterwards, to the
version that is then the latest one. Where that version is one that has been active, and where a
version that ceases to be active has its `activated_at`, the versions that can be rolled back to are
those that have been active.

* `Write.honest`: the condition on what is committed.
* `Eligible`: the invariant.

**Main result** `rollback_iff_was_active`.
-/

namespace PayReality

open Program RuntimePolicyService LifecycleService Service

variable {ι : Type} [DecidableEq ι] {H : Host} {s t : Store ι} {i : ι} {key : Uuid} {version : ℕ}
  {o : Option Uuid} {row : RuntimePolicyRecord}

/-- The write makes the version active. -/
def Write.activates (key : Uuid) (version : ℕ) : Write → Bool
  | .updateRecord k v c => (k, v) = (key, version) ∧ c.status = some .active
  | _ => false

/-- The version has been active at some time. -/
def WasActive (log : List Write) (key : Uuid) (version : ℕ) : Prop :=
  ∃ w ∈ log, w.activates key version = true

instance (log : List Write) : Decidable (WasActive log key version) :=
  inferInstanceAs (Decidable (∃ w ∈ log, w.activates key version = true))

/-- The condition on a write. The metadata of an activation are written to a version that has been
active, and a version that ceases to be active has them. -/
def Write.honest (log : List Write) (db : Db) : Write → Bool
  | .updateRecord key version c =>
    (c.activation.isNone || decide (WasActive log key version)) &&
      (c.status.isNone || c.status = some .active || db.records.all fun r =>
        r.ident = (key, version) → r.status = .active → r.activatedAt.isSome)
  | _ => true

/-- The condition on a run. -/
def honestCommits (_ : ι) : (q : Statement) → Store ι → Except PyError q.Answer → Bool
  | .commit ws, s, .ok _ => ws.all (Write.honest s.log s.db)
  | _, _, _ => true

/-- `rollback_policy` takes the version for one that was active. -/
def RuntimePolicyRecord.eligible (r : RuntimePolicyRecord) : Prop :=
  r.activatedAt.isSome = true ∨ r.status = .active

instance (r : RuntimePolicyRecord) : Decidable r.eligible :=
  inferInstanceAs (Decidable (r.activatedAt.isSome = true ∨ r.status = .active))

/-! ## The invariant -/

/-- The versions that are eligible are those that have been active. -/
structure Eligible (log : List Write) (db : Db) : Prop where
  known : ∀ k v, WasActive log k v → ∃ r ∈ db.records, r.ident = (k, v)
  eligible : ∀ r ∈ db.records, r.eligible ↔ WasActive log r.policyKey r.version

variable {log : List Write} {db : Db} {w : Write}

omit [DecidableEq ι] in
theorem wasActive_append : WasActive (log ++ [w]) key version ↔
    WasActive log key version ∨ w.activates key version = true := by
  simp [WasActive, or_and_right, exists_or]

/-- A write that is no update. -/
theorem Eligible.other (h : Eligible log db) (hrecords : (db.write w).records = db.records)
    (hw : ∀ k v, w.activates k v = false) : Eligible (log ++ [w]) (db.write w) := by
  have hsame : ∀ k v, WasActive (log ++ [w]) k v ↔ WasActive log k v := by
    intro k v
    rw [wasActive_append, hw k v]
    simp
  constructor
  · intro k v hactive
    rw [hrecords]
    exact h.known k v ((hsame k v).1 hactive)
  · intro r hr
    rw [hrecords] at hr
    rw [hsame]
    exact h.eligible r hr

/-- A draft is inserted. -/
theorem Eligible.insert (h : Eligible log db) (hdraft : row.IsDraft)
    (hfresh : db.refuses (.insertRecord row) = false) :
    Eligible (log ++ [.insertRecord row]) (db.write (.insertRecord row)) := by
  have hsame : ∀ k v, WasActive (log ++ [.insertRecord row]) k v ↔ WasActive log k v := by
    intro k v
    rw [wasActive_append]
    simp [Write.activates]
  have hnew : ∀ r ∈ db.records, r.ident ≠ row.ident := by
    intro r hr heq
    have hrefuses : db.refuses (.insertRecord row) = true :=
      List.any_eq_true.2 ⟨r, hr, decide_eq_true heq⟩
    rw [hfresh] at hrefuses
    cases hrefuses
  constructor
  · intro k v hactive
    obtain ⟨r, hr, hident⟩ := h.known k v ((hsame k v).1 hactive)
    exact ⟨r, List.mem_append_left _ hr, hident⟩
  · intro r hr
    rw [hsame]
    rcases List.mem_append.1 hr with hr | hr
    · exact h.eligible r hr
    · rw [List.mem_singleton.1 hr]
      obtain ⟨k, v, content, o, approval, rfl⟩ := hdraft
      constructor
      · rintro (hstamp | hstatus)
        · cases hstamp
        · cases hstatus
      · intro hactive
        obtain ⟨r', hr', hident⟩ := h.known _ _ hactive
        exact absurd hident (hnew r' hr')

/-- A version is updated. -/
theorem Eligible.update (h : Eligible log db) {c : RecordColumns}
    (htarget : ∃ r ∈ db.records, r.ident = (key, version))
    (hhonest : (Write.updateRecord key version c).honest log db = true) :
    Eligible (log ++ [.updateRecord key version c])
      (db.write (.updateRecord key version c)) := by
  obtain ⟨hstamp, hleaves⟩ := (Bool.and_eq_true_iff ..).1 hhonest
  have hother : ∀ k v, (k, v) ≠ (key, version) →
      (WasActive (log ++ [.updateRecord key version c]) k v ↔ WasActive log k v) := by
    intro k v hne
    rw [wasActive_append]
    simp [Write.activates, hne.symm]
  have hself : WasActive (log ++ [.updateRecord key version c]) key version ↔
      WasActive log key version ∨ c.status = some .active := by
    rw [wasActive_append]
    simp [Write.activates]
  have hident : ∀ r : RuntimePolicyRecord, (if r.ident = (key, version) then c.apply r else r).ident =
      r.ident := by
    intro r
    split <;> rfl
  constructor
  · intro k v hactive
    have hold : ∃ r ∈ db.records, r.ident = (k, v) := by
      by_cases hkv : (k, v) = (key, version)
      · rw [hkv]
        exact htarget
      · exact h.known k v ((hother k v hkv).1 hactive)
    obtain ⟨r, hr, hr'⟩ := hold
    exact ⟨_, List.mem_map_of_mem hr, (hident r).trans hr'⟩
  · intro r hr
    obtain ⟨q, hq, rfl⟩ := Db.mem_updateRecord.1 hr
    by_cases hqk : q.ident = (key, version)
    · rw [if_pos hqk]
      obtain ⟨hkey, hversion⟩ : q.policyKey = key ∧ q.version = version := Prod.ext_iff.1 hqk
      show _ ↔ WasActive _ q.policyKey q.version
      have hq' := h.eligible q hq
      rw [hkey, hversion] at hq' ⊢
      rw [hself, ← hq']
      constructor
      · rintro (hstamped | hstatus)
        · cases hc : c.activation with
          | none =>
            have hsome : q.activatedAt.isSome = true := by
              simpa [RecordColumns.apply, hc] using hstamped
            exact .inl (.inl hsome)
          | some a =>
            rw [hc] at hstamp
            exact .inl (hq'.2 (of_decide_eq_true (by simpa using hstamp)))
        · rw [RecordColumns.apply_status] at hstatus
          cases hc : c.status with
          | none =>
            rw [hc] at hstatus
            exact .inl (.inr hstatus)
          | some st =>
            rw [hc] at hstatus
            exact .inr (congrArg some hstatus)
      · intro heligible
        have hkept : q.activatedAt.isSome = true → (c.apply q).eligible := by
          intro hsome
          left
          show ((c.activation.map fun a => a.2.1).or q.activatedAt).isSome = true
          rw [Option.isSome_or, hsome, Bool.or_true]
        rcases heligible with (hsome | hstatus) | hactive
        · exact hkept hsome
        · cases hc : c.status with
          | none =>
            right
            rw [RecordColumns.apply_status, hc]
            exact hstatus
          | some st =>
            by_cases hst : st = .active
            · right
              rw [RecordColumns.apply_status, hc, hst]
              rfl
            · refine hkept ?_
              simp only [hc, Option.isNone_some, Bool.false_or, Option.some.injEq, hst,
                decide_false, List.all_eq_true, decide_eq_true_eq] at hleaves
              exact hleaves q hq hqk hstatus
        · right
          rw [RecordColumns.apply_status, hactive]
          rfl
    · rw [if_neg hqk]
      rw [hother _ _ hqk]
      exact h.eligible q hq

/-! ## Runs -/

omit [DecidableEq ι] in
theorem Eligible.of_records {db' : Db} (h : Eligible log db) (hr : db'.records = db.records) :
    Eligible log db' := ⟨hr ▸ h.known, hr ▸ h.eligible⟩

omit [DecidableEq ι] in
theorem exists_of_core_ident {core : (Uuid × ℕ) × Option Uuid × RuntimePolicy}
    (h : core ∈ db.cores) : ∃ r ∈ db.records, r.ident = core.1 := by
  obtain ⟨r, hr, rfl⟩ := Db.exists_of_core h
  exact ⟨r, hr, rfl⟩

/-- A version is made active. -/
theorem Eligible.activate (h : Eligible log db) {content : RuntimePolicy}
    (htarget : ∃ r ∈ db.records, r.ident = (key, version)) :
    Eligible (log ++ [Write.activatedAs key version content])
      (db.write (Write.activatedAs key version content)) := by
  refine h.update htarget ?_
  simp [Write.honest]

variable {T : Terms ι}

/-- **A commit keeps the invariant.** -/
theorem Eligible.commit (h : Eligible s.log s.db) {ws : List Write}
    (hpre : Pre T H i (.commit ws) s)
    (hdrafts : Inserts RuntimePolicyRecord.IsDraft (.commit ws))
    (hrefuses : ws.any s.db.refuses = false)
    (hhonest : ws.all (Write.honest s.log s.db) = true) :
    Eligible (s.commit i ws).log (s.commit i ws).db := by
  rw [Store.commit_log, Store.commit_db]
  cases hpending : s.pending i with
  | none =>
    rw [Pre, hpending] at hpre
    obtain ⟨w, rfl, -, hw⟩ := hpre
    show Eligible (s.log ++ [w]) (s.db.write w)
    have hhonest' := List.all_eq_true.1 hhonest w List.mem_cons_self
    cases w with
    | insertRecord row =>
      refine h.insert (hdrafts _ List.mem_cons_self row rfl) ?_
      simpa using hrefuses
    | updateRecord k v c =>
      obtain ⟨core, hcore, heq, -⟩ := hw.target
      exact h.update (heq ▸ exists_of_core_ident hcore) hhonest'
    | insertSchedule | updateSchedule | insertEvent => exact h.other rfl fun _ _ => rfl
  | some p =>
    rw [Pre, hpending] at hpre
    obtain ⟨row, bundle, replaced, content, rfl, hd⟩ := hpre
    have hland : Eligible s.log (s.db.land (some p)) := h.of_records (Db.land_records _)
    have hrow : ∃ r ∈ (s.db.land (some p)).records, r.ident = (row.policyKey, row.version) := by
      rw [Db.land_records]
      exact exists_of_core_ident hd.compiled.core
    rcases deployWrites_cases row replaced content with ⟨-, heq⟩ | ⟨q, hq, -, heq⟩
    · rw [heq]
      exact hland.activate hrow
    · rw [heq]
      have hretire : (Write.updateRecord q.policyKey q.version
          { status := some .retired }).honest s.log (s.db.land (some p)) = true := by
        have hold := List.all_eq_true.1 hhonest (.updateRecord q.policyKey q.version
          { status := some .retired }) (by rw [heq]; exact List.mem_cons_self)
        rw [Write.honest, Db.land_records]
        exact hold
      have hreplaced : ∃ r ∈ (s.db.land (some p)).records, r.ident = (q.policyKey, q.version) := by
        rw [Db.land_records]
        exact exists_of_core_ident (hd.replaced_core q hq).2
      have hfirst := hland.update hreplaced hretire
      have hrow' : ∃ r ∈ ((s.db.land (some p)).write (.updateRecord q.policyKey q.version
          { status := some .retired })).records, r.ident = (row.policyKey, row.version) := by
        obtain ⟨r, hr, hident⟩ := hrow
        refine ⟨_, List.mem_map_of_mem hr, ?_⟩
        rw [← hident]
        split <;> rfl
      have hsecond : Eligible (_ ++ [Write.activatedAs row.policyKey row.version content])
          (Db.write _ (Write.activatedAs row.policyKey row.version content)) :=
        hfirst.activate hrow'
      rw [List.append_assoc] at hsecond
      exact hsecond

/-- **A statement keeps the invariant.** -/
theorem Eligible.step (h : Eligible s.log s.db) {q : Statement} {r : Except PyError q.Answer}
    (hpre : Pre T H i q s) (hstep : Store.step H i q s r t)
    (hdrafts : Inserts RuntimePolicyRecord.IsDraft q) (hhonest : honestCommits i q s r = true) :
    Eligible t.log t.db := by
  by_cases hq : ∃ ws, q = .commit ws
  · obtain ⟨ws, rfl⟩ := hq
    rcases Store.step_commit hstep with rfl | ⟨rfl, hrefuses, rfl⟩
    · exact h
    · exact h.commit hpre hdrafts hrefuses hhonest
  · have hsame := Store.step_same hstep fun ws hws => hq ⟨ws, hws⟩
    rw [hsame.log]
    exact h.of_records hsame.records

/-- A run of operations whose commits are honest, from a store without versions. -/
def HonestRun (H : Host) (w : World Statement Statement.Answer PyError (Store ι) ι) : Prop :=
  Reach ((machine H ι).restrict fun i q s r => honestCommits i q s r = true)
    (programs H.toPlatform Set.univ) Store.Fresh w

variable {w : World Statement Statement.Answer PyError (Store ι) ι}

theorem HonestRun.sound (h : HonestRun H w) :
    Inv (Terms.free ι False) w.store ∧ ∀ i, (contract (Terms.free ι False) H).local w i :=
  h.of_restrict.sound (programs_keep False Set.univ) fun _ hs => hs.start

theorem HonestRun.eligible (h : HonestRun H w) : Eligible w.store.log w.store.db := by
  have hsent := Reach.sent (P := Inserts RuntimePolicyRecord.IsDraft) ?_ h
  · have hrun : Reach ((machine H ι).restrict fun i q s r => honestCommits i q s r = true ∧
        Inserts RuntimePolicyRecord.IsDraft q) (programs H.toPlatform Set.univ) Store.Fresh w := by
      refine Reach.imp ?_ hsent
      exact fun i q s r t hstep => ⟨hstep.1.1, hstep.1.2, hstep.2⟩
    refine hrun.invariant (J := fun s : Store ι => Eligible s.log s.db)
      (programs_keep False Set.univ) (fun _ hs => hs.start) (fun s hs => ?_) ?_
    · refine ⟨fun k v hactive => ?_, fun r hr => ?_⟩
      · obtain ⟨w, hw, -⟩ := hactive
        rw [hs.log] at hw
        cases hw
      · rw [hs.records] at hr
        cases hr
    · exact fun i q s r t _ _ hpre hstep hc hs => hs.step hpre hstep hc.2 hc.1
  · rintro _ ⟨op, -, rfl⟩
    exact op.sends_insertions fun _ row hrow => hrow

/-! ## A rollback alone -/

section

variable {α : Type} {held : Option RuntimePolicyRecord} {x : Except PyError α}

omit [DecidableEq ι] in
theorem Exec.tryCatch_ok {M : Machine Statement Statement.Answer PyError (Store ι) ι}
    {p : Service α} {f : PyError → Service α} {a : α} (h : Exec M i p s (.ok a) t) :
    Exec M i (tryCatch p f) s (.ok a) t := by
  induction p generalizing s with
  | ret b => exact h
  | raise e => cases h
  | call q k ih =>
    cases h with
    | call hstep h => exact .call hstep (ih _ h)

theorem exec_select (q : Select) :
    Exec (machine H ι) i (Service.select q) s (.ok (q.run H.toPlatform s.db)) (s.saw i q) :=
  .send (.inl ⟨rfl, rfl⟩)

theorem exec_commit {ws : List Write} (h : ws.any s.db.refuses = false) :
    Exec (machine H ι) i (Service.commit ws) s (.ok ()) (s.commit i ws) := by
  refine .send (.inl ?_)
  rw [if_neg (by simp [h])]
  exact ⟨rfl, rfl⟩

theorem exec_getLatest (h : s.db.latestVersionRow key o = some row) :
    Exec (machine H ι) i (getLatest key o held) s (.ok (heldOr held row))
      (s.saw i (.latestVersionRow key o)) := by
  refine .bind (exec_select _) ?_
  rw [show (Select.latestVersionRow key o).run H.toPlatform s.db = some row from h]
  exact .ret _ _

/-- A version is found by its number. -/
theorem exists_versionRow (h : ∃ r ∈ db.records, r.policyKey = key ∧ r.organizationId = o ∧
    r.version = version) (P : Platform) :
    ∃ r, (Select.versionRow key version o).run P db = some r ∧ r ∈ db.records ∧
      r.policyKey = key ∧ r.organizationId = o ∧ r.version = version := by
  obtain ⟨r, hr, hkey, horg, hversion⟩ := h
  have hmem : r ∈ db.versionsOf key o := by simp [Db.versionsOf, hr, hkey, horg]
  cases hfind : (Select.versionRow key version o).run P db with
  | none => exact absurd hversion (by simpa using List.find?_eq_none.1 hfind r hmem)
  | some r' => exact ⟨r', rfl, mem_of_versionRow hfind⟩

theorem exec_refresh (h : ∃ r ∈ s.db.records, r.policyKey = key ∧ r.organizationId = o ∧
    r.version = version) :
    ∃ r, Exec (machine H ι) i (refresh key version o) s (.ok r) (s.saw i (.versionRow key version o)) ∧
      r ∈ s.db.records ∧ r.policyKey = key ∧ r.organizationId = o ∧ r.version = version := by
  obtain ⟨r, hrun, hr⟩ := exists_versionRow h H.toPlatform
  refine ⟨r, .bind (exec_select _) ?_, hr⟩
  rw [hrun]
  exact .ret _ _

theorem exec_event {event : LifecycleEvent} :
    Exec (machine H ι) i (recordLifecycleEvent event) s (.ok ()) (s.commit i [.insertEvent event]) :=
  Exec.tryCatch_ok (exec_commit rfl)

omit [DecidableEq ι] in
theorem not_refuses (h : ∀ r ∈ db.records, r.ident ≠ row.ident) :
    db.refuses (.insertRecord row) = false := by
  rw [Bool.eq_false_iff]
  intro hrefuses
  obtain ⟨r, hr, hident⟩ := List.any_eq_true.1 hrefuses
  exact h r hr (of_decide_eq_true hident)

/-- One write by a session without a flushed row. -/
theorem Store.commit_one (hpending : s.pending i = none) (w : Write) :
    (s.commit i [w]).db = s.db.write w ∧ (s.commit i [w]).pending i = none := by
  constructor
  · rw [Store.commit_db, hpending]
    rfl
  · rw [Store.commit_pending, Function.update_self]

theorem exec_insertDraft (hpending : s.pending i = none)
    (hfresh : ∀ r ∈ s.db.records, r.ident ≠ row.ident) (eventType : LifecycleEventType) :
    ∃ r t, Exec (machine H ι) i (insertDraft row eventType) s (.ok r) t ∧ t.pending i = none ∧
      t.db.records = s.db.records ++ [row] ∧ r ∈ t.db.records := by
  have hcommit : Exec (machine H ι) i (Service.commit [.insertRecord row]) s (.ok ())
      (s.commit i [.insertRecord row]) := exec_commit (by simp [not_refuses hfresh])
  obtain ⟨hdb, hidle⟩ := Store.commit_one hpending (.insertRecord row)
  have hrow : row ∈ (s.commit i [.insertRecord row]).db.records := by
    rw [hdb]
    exact List.mem_append_right _ (List.mem_singleton_self _)
  obtain ⟨r, hrefresh, hr, -⟩ := exec_refresh (H := H) (i := i) ⟨row, hrow, rfl, rfl, rfl⟩
  obtain ⟨hdb', hidle'⟩ := Store.commit_one (s := (s.commit i [.insertRecord row]).saw i
    (.versionRow row.policyKey row.version row.organizationId)) hidle (.insertEvent
      { policyKey := r.policyKey
        version := r.version
        eventType
        actor := r.content.metadata.createdBy })
  refine ⟨r, _, .bind hcommit (.bind hrefresh (.bind exec_event (.ret _ _))), hidle', ?_, ?_⟩
  · rw [hdb']
    show (s.commit i [.insertRecord row]).db.records = _
    rw [hdb]
    rfl
  · rw [hdb']
    exact hr

theorem exec_transition (hpending : s.pending i = none) (hrow : row ∈ s.db.records)
    (columns : RecordColumns) (event : LifecycleEvent) :
    ∃ r t, Exec (machine H ι) i (transition row columns event) s (.ok r) t := by
  obtain ⟨hdb, -⟩ := Store.commit_one hpending (.updateRecord row.policyKey row.version columns)
  have hkept : ∃ r ∈ (s.commit i [.updateRecord row.policyKey row.version columns]).db.records,
      r.policyKey = row.policyKey ∧ r.organizationId = row.organizationId ∧
        r.version = row.version := by
    rw [hdb]
    exact ⟨columns.apply row, Db.mem_updateRecord.2 ⟨row, hrow, (if_pos rfl).symm⟩, rfl, rfl, rfl⟩
  obtain ⟨r, hrefresh, -⟩ := exec_refresh (H := H) (i := i) hkept
  exact ⟨r, _, .bind (exec_commit rfl) (.bind hrefresh (.bind exec_event (.ret _ _)))⟩

/-- What an eligible version is rolled back to. -/
theorem exec_rollbackPolicy {latest target : RuntimePolicyRecord} (hs : s.db.Sound)
    (hpending : s.pending i = none) (hlatest : s.db.latestVersionRow key o = some latest)
    (hstatus : latest.status ≠ .archived) (htarget : target ∈ s.db.records)
    (hkey : target.policyKey = key) (horg : target.organizationId = o)
    (heligible : target.eligible) (actor : String) (reason : Option String) (now : Timestamp) :
    ∃ row t, Exec (machine H ι) i (rollbackPolicy key o target.version actor reason now) s
      (.ok row) t := by
  obtain ⟨hmem, hkey', horg', hmax⟩ := s.db.latestVersionRow_some hlatest
  obtain ⟨target', hrun, htarget', hk, ho, hv⟩ := exists_versionRow
    ⟨target, htarget, hkey, horg, rfl⟩ H.toPlatform
  obtain rfl : target' = target :=
    hs.eq_of_ident htarget' htarget (Prod.ext (hk.trans hkey.symm) hv)
  have hget : Exec (machine H ι) i (getVersion key target'.version o) s (.ok target')
      (s.saw i (.versionRow key target'.version o)) := by
    refine .bind (exec_select _) ?_
    rw [hrun]
    exact .ret _ _
  have hheld : ∀ q, q ∈ s.db.records → heldOr (some q) latest = latest := by
    intro q hq
    rw [heldOr]
    split
    · next hident => exact hs.eq_of_ident hq hmem hident
    · rfl
  have hguard : ¬ (target'.activatedAt.isNone && decide (target'.status ≠ .active)) = true := by
    rintro hguard
    obtain ⟨hnone, hinactive⟩ := (Bool.and_eq_true_iff ..).1 hguard
    rcases heligible with hsome | hactive
    · rw [Option.isNone_iff_eq_none.1 hnone] at hsome
      cases hsome
    · exact of_decide_eq_true hinactive hactive
  -- the number of the new version is free
  have hfresh : ∀ r ∈ s.db.records, r.ident ≠ (draftRow key (latest.version + 1)
      (revertedPolicy target'.content (latest.version + 1) now) latest.organizationId).ident := by
    intro r hr hident
    have hrkey : r.policyKey = key := congrArg Prod.fst hident
    have hversion : r.version = latest.version + 1 := congrArg Prod.snd hident
    have hrorg := (hs.organization hr hmem (hrkey.trans hkey'.symm)).trans horg'
    have hle := hmax r hr hrkey hrorg
    omega
  obtain ⟨r, t, hinsert, hidle, -, hr⟩ := exec_insertDraft (H := H) (i := i)
    (s := ((s.saw i (.versionRow key target'.version o)).saw i (.latestVersionRow key o)).saw i
      (.latestVersionRow key o)) hpending hfresh .edited
  obtain ⟨r', t', htransition⟩ := exec_transition (H := H) hidle hr
    { rollbackOfVersion := some target'.version }
    { policyKey := key
      version := r.version
      eventType := .rolledBack
      actor := some actor
      reason
      organizationId := o }
  refine ⟨r', t', .bind hget ?_⟩
  rw [if_neg hguard]
  refine .bind (exec_getLatest hlatest) ?_
  rw [hheld target' htarget, if_neg hstatus]
  refine .bind (.bind (exec_getLatest hlatest) ?_) htransition
  rw [hheld latest hmem, if_neg hstatus]
  exact hinsert

theorem exec_getVersion_ok (h : Exec (machine H ι) i (getVersion key version o) s (.ok row) t) :
    row ∈ s.db.records ∧ row.policyKey = key ∧ row.version = version := by
  obtain ⟨x, u, hselect, hreturn⟩ := Exec.bind_ok h
  have hstep := Exec.send_ok hselect
  rcases hstep with ⟨heq, -⟩ | hfails
  · cases x with
    | none => cases hreturn
    | some r =>
      cases hreturn
      have hrow := mem_of_versionRow (Except.ok.inj heq).symm
      exact ⟨hrow.1, hrow.2.1, hrow.2.2.2⟩
  · cases hfails.1

/-- What is rolled back to is eligible. -/
theorem eligible_of_rollbackPolicy {actor : String} {reason : Option String} {now : Timestamp}
    (h : Exec (machine H ι) i (rollbackPolicy key o version actor reason now) s (.ok row) t) :
    ∃ r ∈ s.db.records, r.policyKey = key ∧ r.version = version ∧ r.eligible := by
  obtain ⟨r, u, hget, hrest⟩ := Exec.bind_ok h
  obtain ⟨hr, hkey, hversion⟩ := exec_getVersion_ok hget
  refine ⟨r, hr, hkey, hversion, ?_⟩
  by_cases hguard : (r.activatedAt.isNone && decide (r.status ≠ .active)) = true
  · rw [if_pos hguard] at hrest
    cases hrest
  · by_cases hstamped : r.activatedAt.isSome = true
    · exact .inl hstamped
    · right
      by_contra hinactive
      apply hguard
      simp [Option.not_isSome_iff_eq_none.1 hstamped, hinactive]

end

/-! ## Main result -/

/-- **What can be rolled back to.** With a commit that is not honest it fails, in either direction. -/
theorem rollback_iff_was_active {ι : Type} [DecidableEq ι] {H : Host}
    {w : World Statement Statement.Answer PyError (Store ι) ι} (h : HonestRun H w) {i : ι}
    (hi : w.running i = none) {key : Uuid} {o : Option Uuid} {latest : RuntimePolicyRecord}
    (hlatest : w.store.db.latestVersionRow key o = some latest) (hstatus : latest.status ≠ .archived)
    (version : ℕ) (actor : String) (reason : Option String) (now : Timestamp) :
    (∃ row t, Exec (machine H ι) i (rollbackPolicy key o version actor reason now) w.store
      (.ok row) t) ↔ WasActive w.store.log key version := by
  have heligible := h.eligible
  obtain ⟨hinv, hlocal⟩ := h.sound
  have hpending : w.store.pending i = none := by
    have hidle := hlocal i
    rw [Logic.local, hi] at hidle
    exact hidle
  constructor
  · rintro ⟨row, t, hexec⟩
    obtain ⟨r, hr, rfl, rfl, hr'⟩ := eligible_of_rollbackPolicy hexec
    exact (heligible.eligible r hr).1 hr'
  · intro hactive
    obtain ⟨r, hr, hident⟩ := heligible.known key version hactive
    obtain ⟨rfl, rfl⟩ : r.policyKey = key ∧ r.version = version := Prod.ext_iff.1 hident
    obtain ⟨hmem, hkey, horg, -⟩ := w.store.db.latestVersionRow_some hlatest
    exact exec_rollbackPolicy hinv.db hpending hlatest hstatus hr rfl
      ((hinv.db.organization hr hmem hkey.symm).trans horg) ((heligible.eligible r hr).2 hactive)
      actor reason now

/-! ### Runs of two clients -/

/-- A policy is activated, and then edited. -/
def activatedThenEdited : World Statement Statement.Answer PyError (Store Bool) Bool :=
  takeTurns ((Store.schedule sampleHost).restrict honestCommits)
    (byFirst (author 1 (samplePolicy "1" "ops") none ++
      [.activatePolicy 1 none "operator" none 3, .editPolicy 1 none (samplePolicy "1" "ops")]))

theorem rollback_iff_was_active_edited :
    WasActive activatedThenEdited.store.log 1 1 ∧ ¬ WasActive activatedThenEdited.store.log 1 2 ∧
    (∃ row t, Exec (machine sampleHost Bool) false (rollbackPolicy 1 none 1 "operator" none 4)
      activatedThenEdited.store (.ok row) t) ∧
    ¬ ∃ row t, Exec (machine sampleHost Bool) false (rollbackPolicy 1 none 2 "operator" none 4)
      activatedThenEdited.store (.ok row) t := by
  obtain ⟨hfirst, hsecond, hnone, ⟨latest, hlatest, hstatus⟩⟩ :
      WasActive activatedThenEdited.store.log 1 1 ∧ ¬ WasActive activatedThenEdited.store.log 1 2 ∧
      (activatedThenEdited.running false).isNone = true ∧
      ∃ r ∈ activatedThenEdited.store.db.latestVersionRow 1 none, r.status ≠ .archived := by
    decide +kernel
  have hrun : HonestRun sampleHost activatedThenEdited := takeTurns_reach _ _
  have hidle := Option.isNone_iff_eq_none.1 hnone
  have hiff := rollback_iff_was_active hrun hidle hlatest hstatus
  exact ⟨hfirst, hsecond, (hiff 1 "operator" none 4).2 hfirst,
    fun hexec => hsecond ((hiff 2 "operator" none 4).1 hexec)⟩

/-- Two versions are deployed, one after the other. -/
def deployedTwice : World Statement Statement.Answer PyError (Store Bool) Bool :=
  takeTurns (Store.schedule sampleHost)
    (byFirst (author 1 (samplePolicy "1" "ops") none ++
      [.deployPolicy 1 none 3, .editPolicy 1 none (samplePolicy "1" "ops"), .submitForReview 1 none,
        .approve 1 none "approver" none 1, .compilePolicy 1 none 2, .deployPolicy 1 none 4]))

/-- A policy is edited between its deploy and the commit of what `activate_policy` writes. -/
def editedInActivation : World Statement Statement.Answer PyError (Store Bool) Bool :=
  takeTurns (Store.schedule sampleHost)
    (byFirst (author 1 (samplePolicy "1" "ops") none) ++
      [(true, some (.activatePolicy 1 none "operator" none 3), 6),
        (false, some (.editPolicy 1 none (samplePolicy "1" "ops")), 64), (true, none, 64)])

/-- A version that was active is not accepted, and one that never was is. -/
theorem rollback_of_never_active :
    (∃ w : World Statement Statement.Answer PyError (Store Bool) Bool,
      Reach (machine sampleHost Bool) (programs sampleHost.toPlatform Set.univ) Store.Fresh w ∧
      w.running true = none ∧ (∃ r ∈ w.store.db.latestVersionRow 1 none, r.status ≠ .archived) ∧
      WasActive w.store.log 1 1 ∧
      ¬ ∃ row t, Exec (machine sampleHost Bool) true (rollbackPolicy 1 none 1 "operator" none 5)
        w.store (.ok row) t) ∧
    ∃ w : World Statement Statement.Answer PyError (Store Bool) Bool,
      Reach (machine sampleHost Bool) (programs sampleHost.toPlatform Set.univ) Store.Fresh w ∧
      w.running true = none ∧ (∃ r ∈ w.store.db.latestVersionRow 1 none, r.status ≠ .archived) ∧
      ¬ WasActive w.store.log 1 2 ∧
      ∃ row t, Exec (machine sampleHost Bool) true (rollbackPolicy 1 none 2 "operator" none 5)
        w.store (.ok row) t := by
  constructor
  · obtain ⟨hidle, hlatest, hactive, hnone⟩ : (deployedTwice.running true).isNone = true ∧
        (∃ r ∈ deployedTwice.store.db.latestVersionRow 1 none, r.status ≠ .archived) ∧
        WasActive deployedTwice.store.log 1 1 ∧
        ¬ ∃ r ∈ deployedTwice.store.db.records, r.policyKey = 1 ∧ r.version = 1 ∧ r.eligible := by
      decide +kernel
    refine ⟨deployedTwice, takeTurns_reach _ _, Option.isNone_iff_eq_none.1 hidle, hlatest, hactive,
      ?_⟩
    rintro ⟨row, t, hexec⟩
    exact hnone (eligible_of_rollbackPolicy hexec)
  · obtain ⟨hidle, hlatest, hnever, haccepted⟩ : (editedInActivation.running true).isNone = true ∧
        (∃ r ∈ editedInActivation.store.db.latestVersionRow 1 none, r.status ≠ .archived) ∧
        ¬ WasActive editedInActivation.store.log 1 2 ∧
        (((Store.schedule sampleHost).exec true 64 (rollbackPolicy 1 none 2 "operator" none 5)
          editedInActivation.store).any fun e => e.1.toOption.isSome) = true := by
      decide +kernel
    refine ⟨editedInActivation, takeTurns_reach _ _, Option.isNone_iff_eq_none.1 hidle, hlatest,
      hnever, ?_⟩
    obtain ⟨⟨x, t⟩, hexec, hx⟩ := (Option.any_eq_true ..).1 haccepted
    cases x with
    | error e => cases hx
    | ok row => exact ⟨row, t, Schedule.exec_sound hexec⟩

end PayReality
