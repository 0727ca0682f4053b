import PayReality.Lifecycle.RollbackTargets

/-!
# Enforcement that cannot be taken back

`archive_policy` and `retire_policy` look at the latest version of a key, while the active version
can be an older one: then an archived key stays enforced, and no retirement reaches it.

**Main result** `noStrandedEnforcement`: nothing is stranded in a run whose commits are `attended`.
The invariant is that an active version is the latest of its key (`Attended`), so that a retirement
finds it; that the other active versions compile, so that the reconciliation after it returns; and
that archived keys have no active version.
-/

namespace PayReality

open Program Rego RuntimePolicyService LifecycleService Service

variable {ι : Type} [DecidableEq ι] {H : Host} {s t : Store ι} {i : ι}

/-- A write that archives a version of a key. -/
def Write.archives (key : Uuid) : Write → Bool
  | .updateRecord k _ c => k = key ∧ c.status = some .archived
  | _ => false

/-- The versions can be compiled together, in the order of their keys. -/
def reconcilable (rows : List RuntimePolicyRecord) : Bool :=
  rows.all fun r => CompilerV2.acceptable CompilerV2.genericVocabulary r.content &&
    rows.all fun q => !decide (r.policyKey < q.policyKey) || CompilerV2.compatible r.content q.content

/-- Without any one of them, the active versions of an organization can be compiled. -/
def Db.retirable (db : Db) : Bool :=
  db.records.all fun r => !r.isActive || reconcilable (db.otherActive r.policyKey r.organizationId)

/-- The condition on a write of a commit. An insertion adds no version to a key that has an active
one. An archival leaves no active version behind. A deploy activates the latest version of a key
that has not been archived, and leaves versions that compile without any one of them. -/
def Store.attends (s : Store ι) (i : ι) (ws : List Write) : Write → Bool
  | .insertRecord row => s.db.records.all fun r => r.policyKey = row.policyKey → r.status ≠ .active
  | .updateRecord key version c =>
      (c.status = some .archived → s.db.records.all fun r =>
        r.policyKey = key → r.status = .active → r.version = version) &&
      (c.status = some .active → (s.db.records.all fun r => r.policyKey = key → r.version ≤ version) &&
        (s.log.all fun w => !w.archives key) && (s.db.commit (s.pending i) ws).retirable)
  | _ => true

def attended (i : ι) : (q : Statement) → Store ι → Except PyError q.Answer → Bool
  | .commit ws, s, .ok _ => ws.all (s.attends i ws)
  | _, _, _ => true

/-- Nothing is stranded: an archived key has no active version, and an active version can be
retired, by a retirement of its key, which leaves none. -/
structure NotStranded (H : Host) (s : Store ι) : Prop where
  archived : ∀ key, (∃ w ∈ s.log, w.archives key = true) →
    ∀ r ∈ s.db.records, r.policyKey = key → r.status ≠ .active
  retirable : ∀ r ∈ s.db.records, r.status = .active → ∀ i actor reason now, s.pending i = none →
    (∃ row t, Exec (machine H ι) i (retirePolicy r.policyKey r.organizationId actor reason now) s
      (.ok row) t) ∧
    ∀ row t, Exec (machine H ι) i (retirePolicy r.policyKey r.organizationId actor reason now) s
      (.ok row) t → ∀ q ∈ t.db.records, q.policyKey = r.policyKey → q.status ≠ .active

/-- What attended commits keep. -/
structure Attended (s : Store ι) : Prop where
  latest : ∀ r ∈ s.db.records, r.status = .active → ∀ q ∈ s.db.records, q.policyKey = r.policyKey →
    q.version ≤ r.version
  archived : ∀ key, (∃ w ∈ s.log, w.archives key = true) →
    ∀ r ∈ s.db.records, r.policyKey = key → r.status ≠ .active
  retirable : s.db.retirable = true

/-! ## What is reconciled -/

theorem reconcilable_iff {rows : List RuntimePolicyRecord} : reconcilable rows = true ↔
    ∀ r ∈ rows, CompilerV2.acceptable CompilerV2.genericVocabulary r.content = true ∧
      ∀ q ∈ rows, r.policyKey < q.policyKey → CompilerV2.compatible r.content q.content = true := by
  simp only [reconcilable, List.all_eq_true, Bool.and_eq_true, Bool.or_eq_true, Bool.not_eq_true',
    decide_eq_false_iff_not]
  refine forall₂_congr fun r _ => and_congr_right fun _ => forall₂_congr fun q _ => ?_
  exact or_iff_not_imp_left.trans (by rw [not_not])

/-- Fewer versions can be compiled too. -/
theorem reconcilable_of_subset {rows rows' : List RuntimePolicyRecord}
    (h : reconcilable rows = true)
    (hsub : ∀ r ∈ rows', ∃ q ∈ rows, q.policyKey = r.policyKey ∧ q.content = r.content) :
    reconcilable rows' = true := by
  rw [reconcilable_iff] at h ⊢
  intro r hr
  obtain ⟨r₀, hr₀, hkey, hcontent⟩ := hsub r hr
  refine ⟨hcontent ▸ (h r₀ hr₀).1, fun q hq hlt => ?_⟩
  obtain ⟨q₀, hq₀, hqkey, hqcontent⟩ := hsub q hq
  rw [← hcontent, ← hqcontent]
  exact (h r₀ hr₀).2 q₀ hq₀ (by rwa [hkey, hqkey])

theorem reconcilable_compiles {rows : List RuntimePolicyRecord} (h : reconcilable rows = true)
    (hkeys : (rows.map RuntimePolicyRecord.policyKey).Nodup) (bundleId : String) (now : Timestamp) :
    ∃ b, compileActive (Db.byKey rows) bundleId now = .ok ⟨some b, []⟩ := by
  rw [reconcilable_iff] at h
  have hmem : ∀ r ∈ Db.byKey rows, r ∈ rows := fun r hr => (List.mem_insertionSort _).1 hr
  refine CompilerV2.exists_bundle_of_acceptable (fun p hp => ?_) ?_ bundleId 1 now
  · obtain ⟨r, hr, rfl⟩ := List.mem_map.1 hp
    exact (h r (hmem r hr)).1
  · have hne : (Db.byKey rows).Pairwise fun r q => r.policyKey ≠ q.policyKey :=
      List.pairwise_map.1 (((List.perm_insertionSort _ _).map _).nodup_iff.2 hkeys)
    have hle : (Db.byKey rows).Pairwise fun r q => r.policyKey ≤ q.policyKey :=
      List.pairwise_insertionSort (fun r q : RuntimePolicyRecord => r.policyKey ≤ q.policyKey) rows
    refine List.pairwise_map.2 ((hne.and hle).imp_of_mem fun {r q} hr hq hrq => ?_)
    exact (h r (hmem r hr)).2 q (hmem q hq) (lt_of_le_of_ne hrq.2 hrq.1)

theorem Db.retirable_iff {db : Db} : db.retirable = true ↔ ∀ r ∈ db.records, r.status = .active →
    reconcilable (db.otherActive r.policyKey r.organizationId) = true := by
  simp only [Db.retirable, List.all_eq_true, Bool.or_eq_true, Bool.not_eq_true',
    RuntimePolicyRecord.isActive, decide_eq_false_iff_not]
  exact forall₂_congr fun r _ => or_iff_not_imp_left.trans (by rw [not_not])

/-- The active versions of an organization have different keys. -/
theorem Db.Sound.activeKeys {db : Db} (h : db.Sound) (o : Option Uuid) :
    ((db.activeRecords o).map RuntimePolicyRecord.policyKey).Nodup := by
  have hidents : db.records.Pairwise fun r q => r.ident ≠ q.ident := List.pairwise_map.1 h.idents
  refine List.pairwise_map.2 ((hidents.filter _).imp_of_mem fun {r q} hr hq hne hkey => hne ?_)
  obtain ⟨hr, hract, -⟩ := db.mem_activeRecords.1 hr
  obtain ⟨hq, hqact, -⟩ := db.mem_activeRecords.1 hq
  exact h.oneActive r hr q hq hract hqact hkey

/-! ## What attended commits keep -/

/-- No version becomes active, and those that stay have their content. -/
theorem Db.retirable_of_actives {db db' : Db} (h : db.retirable = true)
    (hactives : ∀ r ∈ db'.records, r.status = .active → ∃ q ∈ db.records, q.status = .active ∧
      q.ident = r.ident ∧ q.organizationId = r.organizationId ∧ q.content = r.content) :
    db'.retirable = true := by
  rw [Db.retirable_iff] at h ⊢
  intro r hr hact
  obtain ⟨r₀, hr₀, hact₀, hident, horg, -⟩ := hactives r hr hact
  refine reconcilable_of_subset (h r₀ hr₀ hact₀) fun q hq => ?_
  obtain ⟨hq, hqact, hqorg, hqkey⟩ := Db.mem_otherActive.1 hq
  obtain ⟨q₀, hq₀, hqact₀, hqident, hqorg₀, hqcontent⟩ := hactives q hq hqact
  have hkey := RuntimePolicyRecord.key_of_ident hident
  have hkeyq := RuntimePolicyRecord.key_of_ident hqident
  exact ⟨q₀, Db.mem_otherActive.2 ⟨hq₀, hqact₀, by rw [hqorg₀, hqorg, horg], by rwa [hkeyq, hkey]⟩,
    hkeyq, hqcontent⟩

namespace Attended

omit [DecidableEq ι] in
theorem of_eq (h : Attended s) (hr : t.db.records = s.db.records) (hlog : t.log = s.log) :
    Attended t where
  latest := hr ▸ h.latest
  archived := by
    rw [hr, hlog]
    exact h.archived
  retirable := Db.retirable_of_actives h.retirable fun r hr' hact => ⟨r, hr ▸ hr', hact, rfl, rfl, rfl⟩

omit [DecidableEq ι] in
theorem of_fresh (h : s.Fresh) : Attended s where
  latest := by simp [h.records]
  archived := by simp [h.records]
  retirable := by simp [Db.retirable, h.records]

variable {T : Terms ι}

theorem commit_plain (h : Attended s) (hs : s.db.Sound) {w : Write} (hpending : s.pending i = none)
    (hw : PlainOk T s w) (hattends : s.attends i [w] w = true) : Attended (s.commit i [w]) := by
  have hdb : (s.commit i [w]).db = s.db.write w := by
    rw [Store.commit_db, hpending]
    rfl
  refine ⟨?_, ?_, ?_⟩
  · rw [hdb]
    intro r hr hact q hq hkey
    obtain ⟨r₀, hr₀, hact₀, hident, -⟩ := hw.actives hr hact
    have hkey₀ := RuntimePolicyRecord.key_of_ident hident
    rw [← RuntimePolicyRecord.version_of_ident hident]
    rcases hw.record_cases hs hq with rfl | ⟨q₀, hq₀, hcore, -⟩
    · -- a version is inserted: its key has no active one
      simp only [Store.attends, List.all_eq_true, decide_eq_true_eq] at hattends
      exact absurd hact₀ (hattends r₀ hr₀ (hkey₀.trans hkey.symm))
    · have hident' := RuntimePolicyRecord.ident_of_core hcore
      rw [RuntimePolicyRecord.version_of_ident hident']
      refine h.latest r₀ hr₀ hact₀ q₀ hq₀ ?_
      rw [← RuntimePolicyRecord.key_of_ident hident', hkey, hkey₀]
  · rw [hdb, Store.commit_log]
    rintro key ⟨w', hw', harchives⟩ r hr hkey hact
    obtain ⟨r₀, hr₀, hact₀, hident, -⟩ := hw.actives hr hact
    have hkey₀ := (RuntimePolicyRecord.key_of_ident hident).trans hkey
    rcases List.mem_append.1 hw' with hw' | hw'
    · exact h.archived key ⟨w', hw', harchives⟩ r₀ hr₀ hkey₀ hact₀
    · rw [List.mem_singleton.1 hw'] at harchives
      cases w with
      | insertRecord | insertSchedule | updateSchedule | insertEvent => cases harchives
      | updateRecord k v c =>
        -- the archived version is the active one, which it no longer is
        obtain ⟨rfl, harchived⟩ := of_decide_eq_true harchives
        have hversion : r₀.version = v := by
          simp only [Store.attends, Bool.and_eq_true, decide_eq_true_eq, List.all_eq_true] at hattends
          exact hattends.1 harchived r₀ hr₀ hkey₀ hact₀
        obtain ⟨q, hq, rfl⟩ := Db.mem_updateRecord.1 hr
        have hqident : q.ident = (k, v) := by
          have hsame : q.ident = r₀.ident := by
            rw [hident]
            split <;> rfl
          rw [hsame, RuntimePolicyRecord.ident, hkey₀, hversion]
        rw [if_pos hqident, RecordColumns.apply_status, harchived] at hact
        cases hact
  · rw [hdb]
    exact Db.retirable_of_actives h.retirable fun r hr hact => hw.actives hr hact

theorem commit_deploy (h : Attended s) (hs : s.db.Sound) {p : Pending} {row : RuntimePolicyRecord}
    {bundle : PolicyBundle} {replaced : Option RuntimePolicyRecord} {content : RuntimePolicy}
    (hpending : s.pending i = some p) (hd : Deploys T H i p row bundle replaced content s)
    (hattends : ∀ w ∈ deployWrites row replaced content,
      s.attends i (deployWrites row replaced content) w = true) :
    Attended (s.commit i (deployWrites row replaced content)) := by
  have hdb : (s.commit i (deployWrites row replaced content)).db =
      s.db.commit (some p) (deployWrites row replaced content) := by rw [Store.commit_db, hpending]
  have hactivates := hattends (Write.activatedAs row.policyKey row.version content) (by
    rcases deployWrites_cases row replaced content with ⟨-, heq⟩ | ⟨q, -, -, heq⟩ <;> simp [heq])
  simp only [Write.activatedAs, Store.attends, Bool.and_eq_true, decide_eq_true_eq,
    List.all_eq_true, hpending, true_implies, Bool.not_eq_true'] at hactivates
  obtain ⟨-, ⟨hlatest, hnot⟩, hretirable⟩ := hactivates
  have hcases := fun r (hr : r ∈ (s.db.commit (some p) (deployWrites row replaced content)).records) =>
    hd.record_cases hs hr
  refine ⟨?_, ?_, ?_⟩
  · rw [hdb]
    intro r hr hact q hq hkey
    obtain ⟨q₀, hq₀, hqcore, -⟩ := hcases q hq
    have hqident := RuntimePolicyRecord.ident_of_core hqcore
    have hqkey : q₀.policyKey = r.policyKey :=
      (RuntimePolicyRecord.key_of_ident hqident).symm.trans hkey
    rw [RuntimePolicyRecord.version_of_ident hqident]
    obtain ⟨r₀, hr₀, -, -, rfl | hretired | ⟨-, hident⟩⟩ := hcases r hr
    · exact h.latest r hr₀ hact q₀ hq₀ hqkey
    · rw [hretired] at hact
      cases hact
    · rw [RuntimePolicyRecord.version_of_ident hident]
      exact hlatest q₀ hq₀ (hqkey.trans (RuntimePolicyRecord.key_of_ident hident))
  · rw [hdb, Store.commit_log]
    rintro key ⟨w, hw, harchives⟩ r hr hkey hact
    have hold : w ∈ s.log := by
      refine (List.mem_append.1 hw).resolve_right fun hw => ?_
      rcases deployWrites_cases row replaced content with ⟨-, heq⟩ | ⟨q, -, -, heq⟩ <;>
        simp only [heq, List.mem_cons, List.not_mem_nil, or_false] at hw
      · subst hw
        simp [Write.archives, Write.activatedAs] at harchives
      · rcases hw with rfl | rfl <;> simp [Write.archives, Write.activatedAs] at harchives
    obtain ⟨r₀, hr₀, -, -, rfl | hretired | ⟨-, hident⟩⟩ := hcases r hr
    · exact h.archived key ⟨w, hold, harchives⟩ r hr₀ hkey hact
    · rw [hretired] at hact
      cases hact
    · have := hnot w hold
      rw [← RuntimePolicyRecord.key_of_ident hident, hkey, harchives] at this
      cases this
  · rw [hdb]
    exact hretirable

/-- **An attended statement keeps it.** -/
theorem step {q : Statement} {r : Except PyError q.Answer} (h : Attended s) (hinv : Inv T s)
    (hpre : Pre T H i q s) (hstep : Store.step H i q s r t) (hc : attended i q s r = true) :
    Attended t := by
  cases q with
  | commit ws =>
    rcases Store.step_commit hstep with rfl | ⟨rfl, -, rfl⟩
    · exact h
    have hattends : ∀ w ∈ ws, s.attends i ws w = true := List.all_eq_true.1 hc
    cases hpending : s.pending i with
    | none =>
      rw [Pre, hpending] at hpre
      obtain ⟨w, rfl, -, hw⟩ := hpre
      exact h.commit_plain hinv.db hpending hw (hattends w (List.mem_singleton_self w))
    | some p =>
      rw [Pre, hpending] at hpre
      obtain ⟨row, bundle, replaced, content, rfl, hd⟩ := hpre
      exact h.commit_deploy hinv.db hpending hd hattends
  | select | uuid4 | flushPolicy | flushMandate | rollback | uploadPolicy | deletePolicy
    | submitIntent =>
    have hsame := Store.step_same hstep (by simp)
    exact h.of_eq hsame.records hsame.log

end Attended

/-! ## A retirement alone -/

section

variable {db : Db} {r : RuntimePolicyRecord} {key : Uuid} {o : Option Uuid} {actor : String}
  {reason : Option String} {now : Timestamp}

omit [DecidableEq ι] in
/-- The version of a key that no other exceeds is its latest one. -/
theorem Db.Sound.latest (hs : db.Sound) (hr : r ∈ db.records)
    (hmax : ∀ q ∈ db.records, q.policyKey = r.policyKey → q.version ≤ r.version) :
    db.latestVersionRow r.policyKey r.organizationId = some r := by
  have hmem : r ∈ db.versionsOf r.policyKey r.organizationId := by simp [Db.versionsOf, hr]
  cases hlatest : db.latestVersionRow r.policyKey r.organizationId with
  | none =>
    rw [Db.latestVersionRow, List.argmax_eq_none] at hlatest
    rw [hlatest] at hmem
    cases hmem
  | some q =>
    obtain ⟨hq, hkey, -, hle⟩ := db.latestVersionRow_some hlatest
    have hversion : q.version = r.version := le_antisymm (hmax q hq hkey) (hle r hr rfl rfl)
    rw [hs.eq_of_ident hq hr (Prod.ext hkey hversion)]

/-- What a retirement of the latest version commits. -/
theorem Db.Sound.retired (hs : db.Sound) (hr : r ∈ db.records) (hact : r.status = .active) :
    ∀ q ∈ (db.updateRecord r.policyKey r.version { status := some .retired }).records,
      q.policyKey = r.policyKey → q.status ≠ .active := by
  intro q hq hkey hqact
  obtain ⟨q₀, hq₀, rfl⟩ := Db.mem_updateRecord.1 hq
  split_ifs at hqact hkey with hident
  · cases hqact
  · exact hident (hs.oneActive q₀ hq₀ r hr hqact hact hkey)

/-- Only the other keys of the organization are active afterwards. -/
theorem Db.Sound.activeRecords_retired (hs : db.Sound) (hr : r ∈ db.records)
    (hact : r.status = .active) :
    (db.updateRecord r.policyKey r.version { status := some .retired }).activeRecords
      r.organizationId = db.otherActive r.policyKey r.organizationId := by
  -- of the key, nothing else was active
  have hkey : ∀ q ∈ db.records, q.status = .active → q.policyKey = r.policyKey →
      q.ident = (r.policyKey, r.version) := fun q hq hqact h => hs.oneActive q hq r hr hqact hact h
  have hkeep : ∀ q ∈ db.otherActive r.policyKey r.organizationId,
      (if q.ident = (r.policyKey, r.version) then
        ({ status := some .retired } : RecordColumns).apply q else q) = q := by
    intro q hq
    obtain ⟨-, -, -, hne⟩ := Db.mem_otherActive.1 hq
    rw [if_neg fun hident => hne (congrArg Prod.fst hident)]
  refine Eq.trans ?_ ((List.map_congr_left hkeep).trans (List.map_id _))
  rw [Db.activeRecords, Db.updateRecord, List.filter_map, Db.otherActive, Db.activeRecords,
    List.filter_filter]
  refine congrArg _ (List.filter_congr fun q hq => ?_)
  by_cases hident : q.ident = (r.policyKey, r.version)
  · have hq : q.policyKey = r.policyKey := congrArg Prod.fst hident
    simp [hident, hq, RuntimePolicyRecord.isActive]
  · by_cases hqact : q.status = .active
    · have hne : q.policyKey ≠ r.policyKey := fun h => hident (hkey q hq hqact h)
      simp [hident, hne]
    · simp [hident, hqact, RuntimePolicyRecord.isActive]

/-! ### That it can be done -/

theorem exec_lift {α : Type} {x : Except PyError α} {a : α} (h : x = .ok a) :
    Exec (machine H ι) i (Service.lift x) s (.ok a) s := by
  subst h
  exact .ret _ _

/-- Active versions that can be compiled are loaded. -/
theorem exec_reconcile (hs : s.db.Sound) (h : reconcilable (s.db.activeRecords o) = true) :
    ∃ t, Exec (machine H ι) i (reconcileOrganizationOpaState o now) s (.ok ()) t := by
  have hrows : Exec (machine H ι) i (Service.select (.activeRecords o)) s
      (.ok (Db.byKey (s.db.activeRecords o))) (s.saw i (.activeRecords o)) := exec_select _
  cases hempty : (Db.byKey (s.db.activeRecords o)).isEmpty with
  | true =>
    refine ⟨(s.saw i (.activeRecords o)).load i o none, .bind hrows ?_⟩
    rw [if_pos hempty]
    exact .send (.inl ⟨rfl, rfl⟩)
  | false =>
    obtain ⟨b, hcompile⟩ := reconcilable_compiles h (hs.activeKeys o) "reconcile" now
    have hupload : ∃ t, Exec (machine H ι) i (Service.uploadPolicy o b.regoSource)
        (s.saw i (.activeRecords o)) (.ok ()) t := ⟨_, .send (.inl ⟨rfl, rfl⟩)⟩
    obtain ⟨t, hupload⟩ := hupload
    refine ⟨t, .bind hrows ?_⟩
    rw [if_neg (by simp [hempty])]
    exact .bind (exec_lift hcompile) hupload

/-- The latest version of its key, where it is active, can be retired. -/
theorem exec_retirePolicy (hs : s.db.Sound) (hr : r ∈ s.db.records) (hact : r.status = .active)
    (hmax : ∀ q ∈ s.db.records, q.policyKey = r.policyKey → q.version ≤ r.version)
    (hothers : reconcilable (s.db.otherActive r.policyKey r.organizationId) = true)
    (hpending : s.pending i = none) :
    ∃ row t, Exec (machine H ι) i (retirePolicy r.policyKey r.organizationId actor reason now) s
      (.ok row) t := by
  have hget : Exec (machine H ι) i (getLatest r.policyKey r.organizationId) s (.ok r)
      (s.saw i (.latestVersionRow r.policyKey r.organizationId)) := exec_getLatest (hs.latest hr hmax)
  obtain ⟨hdb, -⟩ := Store.commit_one
    (s := s.saw i (.latestVersionRow r.policyKey r.organizationId)) hpending
    (.updateRecord r.policyKey r.version { status := some .retired })
  generalize hs₁ : (s.saw i (.latestVersionRow r.policyKey r.organizationId)).commit i
    [.updateRecord r.policyKey r.version { status := some .retired }] = s₁ at hdb
  have hdb₁ : s₁.db = s.db.updateRecord r.policyKey r.version { status := some .retired } := hdb
  have hcommit : Exec (machine H ι) i
      (Service.commit [.updateRecord r.policyKey r.version { status := some .retired }])
      (s.saw i (.latestVersionRow r.policyKey r.organizationId)) (.ok ()) s₁ := by
    rw [← hs₁]
    exact exec_commit rfl
  have hkept : ∃ q ∈ s₁.db.records, q.policyKey = r.policyKey ∧
      q.organizationId = r.organizationId ∧ q.version = r.version := by
    rw [hdb₁]
    exact ⟨_, Db.mem_updateRecord.2 ⟨r, hr, (if_pos rfl).symm⟩, rfl, rfl, rfl⟩
  obtain ⟨row, hrefresh, -⟩ := exec_refresh (H := H) (i := i) hkept
  have hsound : s₁.db.Sound := by
    rw [hdb₁]
    exact hs.update fun h => by cases h
  have hrest : reconcilable (s₁.db.activeRecords r.organizationId) = true := by
    rw [hdb₁, hs.activeRecords_retired hr hact]
    exact hothers
  obtain ⟨t, hreconcile⟩ : ∃ t, Exec (machine H ι) i
      (reconcileOrganizationOpaState r.organizationId now)
      (s₁.saw i (.versionRow r.policyKey r.version r.organizationId)) (.ok ()) t :=
    exec_reconcile hsound hrest
  obtain ⟨t', hevent⟩ : ∃ t', Exec (machine H ι) i (recordLifecycleEvent
      { policyKey := r.policyKey
        version := row.version
        eventType := .retired
        actor := some actor
        reason
        organizationId := r.organizationId }) t (.ok ()) t' := ⟨_, exec_event⟩
  refine ⟨row, t', .bind hget ?_⟩
  rw [if_neg (not_not.2 hact)]
  exact .bind hcommit (.bind hrefresh (.bind hreconcile (.bind hevent (.ret _ _))))

/-! ### What it leaves -/

/-- A statement that writes no version. -/
def Statement.harmless : Statement → Prop
  | .commit ws => ∃ event, ws = [.insertEvent event]
  | .select _ | .rollback | .uploadPolicy _ _ | .deletePolicy _ => True
  | _ => False

theorem harmless_statements : Harmless Statement.harmless :=
  ⟨fun _ => trivial, trivial, fun _ _ => trivial, fun _ => trivial, fun event => ⟨event, rfl⟩⟩

theorem Statement.harmless_records {q : Statement} {r : Except PyError q.Answer} (hq : q.harmless)
    (h : Store.step H i q s r t) : t.db.records = s.db.records := by
  cases q with
  | commit ws =>
    obtain ⟨event, rfl⟩ := hq
    rcases Store.step_commit h with rfl | ⟨-, -, rfl⟩
    · rfl
    · rw [Store.commit_db]
      exact Db.land_records _
  | select | uuid4 | flushPolicy | flushMandate | rollback | uploadPolicy | deletePolicy
    | submitIntent => exact (Store.step_same h (by simp)).records

theorem exec_commit_ok {ws : List Write} (h : Exec (machine H ι) i (Service.commit ws) s (.ok ()) t) :
    t = s.commit i ws := by
  rcases h.send_ok with h | ⟨h, -⟩
  · split at h
    · cases h.1
    · exact h.2
  · cases h

/-- How a retirement returns: it has retired the latest version of its key, which was active. -/
theorem exec_retirePolicy_ok {row : RuntimePolicyRecord} (hpending : s.pending i = none)
    (h : Exec (machine H ι) i (retirePolicy key o actor reason now) s (.ok row) t) :
    ∃ r, s.db.latestVersionRow key o = some r ∧ r.status = .active ∧
      t.db.records = (s.db.updateRecord r.policyKey r.version { status := some .retired }).records := by
  obtain ⟨r, s₁, hget, h⟩ := h.bind_ok
  obtain ⟨found, s₂, hselect, hget⟩ := hget.bind_ok
  have hread : s₁.db = s.db ∧ s₁.pending = s.pending ∧ s.db.latestVersionRow key o = some r := by
    rcases hselect.send_ok with ⟨hfound, rfl⟩ | ⟨hfound, -⟩
    · cases hfound
      cases hlatest : s.db.latestVersionRow key o with
      | none =>
        rw [show (Select.latestVersionRow key o).run H.toPlatform s.db = none from hlatest] at hget
        cases hget
      | some q =>
        rw [show (Select.latestVersionRow key o).run H.toPlatform s.db = some q from hlatest] at hget
        cases hget
        exact ⟨rfl, rfl, rfl⟩
    · cases hfound
  obtain ⟨hdb, hidle, hlatest⟩ := hread
  refine ⟨r, hlatest, ?_⟩
  by_cases hact : r.status = .active
  · rw [if_neg (not_not.2 hact)] at h
    obtain ⟨⟨⟩, s₃, hcommit, h⟩ := h.bind_ok
    have hrecords : s₃.db.records =
        (s.db.updateRecord r.policyKey r.version { status := some .retired }).records := by
      rw [exec_commit_ok hcommit, (Store.commit_one (by rw [hidle, hpending]) _).1, hdb]
      rfl
    refine ⟨hact, (h.keeps (P := Statement.harmless) (R := fun _ => True) ?_
      (fun q _ _ _ hq hstep heq => (Statement.harmless_records hq hstep).trans heq) hrecords)⟩
    exact sends_bind (sends_mono (sends_refresh harmless_statements) fun row _ =>
      sends_bind (sends_mono (sends_reconcile harmless_statements) fun _ _ =>
        sends_bind (sends_mono (sends_event harmless_statements) fun _ _ => trivial)))
  · rw [if_pos hact] at h
    cases h

end

/-! ## Runs -/

/-- An attended state leaves nothing stranded. -/
theorem Attended.notStranded (h : Attended s) (hs : s.db.Sound) : NotStranded H s where
  archived := h.archived
  retirable := by
    intro r hr hact i actor reason now hpending
    have hmax := h.latest r hr hact
    refine ⟨exec_retirePolicy hs hr hact hmax (Db.retirable_iff.1 h.retirable r hr hact) hpending, ?_⟩
    intro row t hexec
    obtain ⟨q, hlatest, -, hrecords⟩ := exec_retirePolicy_ok hpending hexec
    rw [hs.latest hr hmax, Option.some.injEq] at hlatest
    subst hlatest
    rw [hrecords]
    exact hs.retired hr hact

/-- **Nothing is stranded.** In every run whose commits are attended, an archived key has no active
version, and an active version can be retired. -/
theorem noStrandedEnforcement {w : World Statement Statement.Answer PyError (Store ι) ι}
    (h : Reach ((machine H ι).restrict fun i q s r => attended i q s r = true)
      (programs H.toPlatform Set.univ) Store.Fresh w) : NotStranded H w.store := by
  have hkeeps := programs_keep (ι := ι) (H := H) False Set.univ
  have hattended : Attended w.store :=
    h.invariant hkeeps (fun s hs => hs.start) (fun s hs => .of_fresh hs)
      fun i q s r t hinv _ hpre hstep hc hs => hs.step hinv hpre hstep hc
  exact hattended.notStranded (h.of_restrict.sound hkeeps fun s hs => hs.start).1.db


/-! ### Runs that archive -/

/-- From the creation of a policy to its deployment. -/
def deployed (key : Uuid) (policy : RuntimePolicy) : List Operation :=
  author key policy none ++ [.deployPolicy key none 3]

/-- A policy is retired and archived, while another one is active. -/
def retiredThenArchived : World Statement Statement.Answer PyError (Store Bool) Bool :=
  takeTurns ((Store.schedule sampleHost).restrict attended)
    (byFirst (deployed 1 (samplePolicy "1" "ops") ++ deployed 2 (samplePolicy "2" "sales") ++
      [.retirePolicy 1 none "operator" none 4, .archivePolicy 1 none "operator" none]))

theorem noStrandedEnforcement_archived :
    (∃ w ∈ retiredThenArchived.store.log, w.archives 1 = true) ∧
    (∃ r ∈ retiredThenArchived.store.db.records, r.policyKey = 2 ∧ r.status = .active) ∧
    NotStranded sampleHost retiredThenArchived.store := by
  have hrun : Reach ((machine sampleHost Bool).restrict fun i q s r => attended i q s r = true)
      (programs sampleHost.toPlatform Set.univ) Store.Fresh retiredThenArchived := takeTurns_reach _ _
  obtain ⟨harchived, hactive⟩ :
      (retiredThenArchived.store.log.any fun w => w.archives 1) = true ∧
      ∃ r ∈ retiredThenArchived.store.db.records, r.policyKey = 2 ∧ r.status = .active := by
    decide +kernel
  exact ⟨List.any_eq_true.1 harchived, hactive, noStrandedEnforcement hrun⟩

/-- A policy is deployed and edited, and then archived. -/
def editedThenArchived : World Statement Statement.Answer PyError (Store Bool) Bool :=
  takeTurns (Store.schedule sampleHost)
    (byFirst (deployed 1 (samplePolicy "1" "ops") ++
      [.editPolicy 1 none (samplePolicy "1" "ops"), .archivePolicy 1 none "operator" none]))

/-- An archived key has an active version, and no retirement of the key succeeds. -/
theorem strandedEnforcement : ∃ w : World Statement Statement.Answer PyError (Store Bool) Bool,
    Reach (machine sampleHost Bool) (programs sampleHost.toPlatform Set.univ) Store.Fresh w ∧
    (∀ i, w.running i = none) ∧ (∃ x ∈ w.store.log, x.archives 1 = true) ∧
    (∃ r ∈ w.store.db.records, r.policyKey = 1 ∧ r.organizationId = none ∧ r.status = .active) ∧
    ∀ i actor reason now row t, ¬ Exec (machine sampleHost Bool) i
      (retirePolicy 1 none actor reason now) w.store (.ok row) t := by
  obtain ⟨hidle, harchived, hactive, hlatest, hpending⟩ :
      (∀ i, (editedThenArchived.running i).isNone = true) ∧
      (editedThenArchived.store.log.any fun w => w.archives 1) = true ∧
      (∃ r ∈ editedThenArchived.store.db.records, r.policyKey = 1 ∧ r.organizationId = none ∧
        r.status = .active) ∧
      (∀ r ∈ editedThenArchived.store.db.latestVersionRow 1 none, r.status ≠ .active) ∧
      ∀ i, (editedThenArchived.store.pending i).isNone = true := by
    decide +kernel
  refine ⟨editedThenArchived, takeTurns_reach _ _, fun i => Option.isNone_iff_eq_none.1 (hidle i),
    List.any_eq_true.1 harchived, hactive, fun i actor reason now row t hexec => ?_⟩
  obtain ⟨r, hr, hact, -⟩ := exec_retirePolicy_ok (Option.isNone_iff_eq_none.1 (hpending i)) hexec
  exact hlatest r hr hact

end PayReality
