import PayReality.Lifecycle.Contract

/-!
# What a statement keeps

Every statement that a session sends under `Pre` keeps the invariant (`Inv.step`), and what the
other sessions count on (`Rely.step`): together the contract of the lifecycle (`contract`).
-/

namespace PayReality

open Program RuntimePolicyService Write

variable {ι : Type} {T : Terms ι} {H : Host} {s t : Store ι} {i j : ι} {w : Write}

/-! ## Plain commits -/

namespace UpdateOk

variable {key : Uuid} {version : ℕ} {c : RecordColumns}

theorem faithful (h : UpdateOk T key version c s) (hs : s.db.Sound) {r : RuntimePolicyRecord}
    (hr : r ∈ s.db.records) (hident : r.ident = (key, version)) : c.Faithful r := by
  obtain ⟨core, hcore, heq, hcontent⟩ := h.target
  obtain rfl := hs.core_of_ident hr hcore (heq.trans hident.symm)
  exact hcontent

/-- A version after an update. -/
theorem core_eq (h : UpdateOk T key version c s) (hs : s.db.Sound) {q : RuntimePolicyRecord}
    (hq : q ∈ s.db.records) :
    (if q.ident = (key, version) then c.apply q else q).core = q.core := by
  split
  · next hident => exact (h.faithful hs hq hident).core
  · rfl

end UpdateOk

namespace PlainOk

theorem sound (h : PlainOk T s w) (hs : s.db.Sound) (href : s.db.refuses w = false) :
    (s.db.write w).Sound := by
  cases w with
  | insertRecord row =>
    refine hs.insert (fun r hr heq => ?_) ?_ ?_
    · have : s.db.refuses (.insertRecord row) = true :=
        List.any_eq_true.2 ⟨r, hr, decide_eq_true heq⟩
      rw [href] at this
      cases this
    · rw [h.draft]
      exact nofun
    · refine h.key.imp_right ?_
      rintro ⟨core, hcore, hkey, horg⟩
      obtain ⟨r, hr, rfl⟩ := Db.exists_of_core hcore
      exact ⟨r, hr, hkey, horg⟩
  | updateRecord key version c => exact hs.update fun hc => absurd hc h.inactive
  | insertSchedule | updateSchedule | insertEvent => exact hs.of_eq rfl rfl

theorem grows (h : PlainOk T s w) (hs : s.db.Sound) : s.db.Grows (s.db.write w) := by
  cases w with
  | insertRecord row => exact .insert row
  | updateRecord key version c => exact .update fun r hr => h.faithful hs hr
  | insertSchedule | updateSchedule | insertEvent => exact .of_eq rfl rfl rfl

theorem cores (h : PlainOk T s w) (hs : s.db.Sound) (hw : T.plain w) (hfixed : Fixed T.plain) :
    (s.db.write w).cores = s.db.cores := by
  cases w with
  | insertRecord row => exact absurd hw (hfixed row)
  | updateRecord key version c => exact Db.cores_updateRecord fun r hr => h.faithful hs hr
  | insertSchedule | updateSchedule | insertEvent => rfl

/-- A plain commit makes no version active. -/
theorem actives (h : PlainOk T s w) {r : RuntimePolicyRecord} (hr : r ∈ (s.db.write w).records)
    (hact : r.status = .active) : ∃ q ∈ s.db.records, q.status = .active ∧ q.ident = r.ident ∧
      q.organizationId = r.organizationId ∧ q.content = r.content := by
  cases w with
  | insertRecord row =>
    rcases List.mem_append.1 hr with hr | hr
    · exact ⟨r, hr, hact, rfl, rfl, rfl⟩
    · rw [List.mem_singleton.1 hr, h.draft] at hact
      cases hact
  | updateRecord key version c =>
    obtain ⟨q, hq, rfl⟩ := Db.mem_updateRecord.1 hr
    by_cases hident : q.ident = (key, version)
    · rw [if_pos hident] at hact ⊢
      have hnone : c.status = none := by
        cases hc : c.status with
        | none => rfl
        | some st =>
          rw [RecordColumns.apply_status, hc] at hact
          exact absurd (hc.trans (congrArg some hact)) h.inactive
      have hcontent : c.content = none := by
        by_contra hne
        exact h.rewrites hne hnone
      rw [RecordColumns.apply_status, hnone] at hact
      exact ⟨q, hq, hact, rfl, rfl, by rw [RecordColumns.apply_content, hcontent]; rfl⟩
    · rw [if_neg hident] at hact ⊢
      exact ⟨q, hq, hact, rfl, rfl, rfl⟩
  | insertSchedule | updateSchedule | insertEvent => exact ⟨r, hr, hact, rfl, rfl, rfl⟩

/-- A plain commit keeps the trail of an old version, and its core. -/
theorem record_cases (h : PlainOk T s w) (hs : s.db.Sound) {r : RuntimePolicyRecord}
    (hr : r ∈ (s.db.write w).records) : w = .insertRecord r ∨ ∃ q ∈ s.db.records, r.core = q.core ∧
      (r = q ∨ ∃ c, w = .updateRecord q.policyKey q.version c ∧ r = c.apply q) := by
  cases w with
  | insertRecord row =>
    rcases List.mem_append.1 hr with hr | hr
    · exact .inr ⟨r, hr, rfl, .inl rfl⟩
    · rw [List.mem_singleton.1 hr]
      exact .inl rfl
  | updateRecord key version c =>
    obtain ⟨q, hq, rfl⟩ := Db.mem_updateRecord.1 hr
    refine .inr ⟨q, hq, h.core_eq hs hq, ?_⟩
    by_cases hident : q.ident = (key, version)
    · obtain ⟨rfl, rfl⟩ := Prod.ext_iff.1 hident
      exact .inr ⟨c, rfl, if_pos rfl⟩
    · exact .inl (if_neg hident)
  | insertSchedule | updateSchedule | insertEvent => exact .inr ⟨r, hr, rfl, .inl rfl⟩

end PlainOk

/-- A plain commit keeps the history. -/
theorem Trailed.plain (h : Trailed s.log s.db) (hs : s.db.Sound) (htrail : T.trail)
    (hw : PlainOk T s w) (hdb : t.db = s.db.write w) (hlog : t.log = s.log ++ [w]) :
    Trailed t.log t.db := by
  have hpre : s.log <+: t.log := hlog ▸ List.prefix_append _ _
  have hgrows : s.db.Grows t.db := hdb ▸ hw.grows hs
  have hcases : ∀ r ∈ t.db.records, w = .insertRecord r ∨ ∃ q ∈ s.db.records, r.core = q.core ∧
      (r = q ∨ ∃ c, w = .updateRecord q.policyKey q.version c ∧ r = c.apply q) := fun r hr =>
    hw.record_cases hs (hdb ▸ hr)
  refine ⟨fun r hr => ?_, fun r hr => ?_, fun row hrow => ?_, fun k v c hc hst => ?_,
    fun k v c x hc hx => ?_, fun r hr v hv => ?_⟩
  · rcases hcases r hr with rfl | ⟨q, hq, -, rfl | ⟨c, rfl, rfl⟩⟩
    · rw [show r.status = .draft from hw.draft]
      trivial
    · exact (h.status r hq).mono hpre.sublist
    · rw [RecordColumns.apply_status]
      cases hc : c.status with
      | none => exact (h.status q hq).mono hpre.sublist
      | some st => exact hlog ▸ hw.trail htrail st hc
  · rcases hcases r hr with rfl | ⟨q, hq, hcore, -⟩
    · exact ⟨r, hlog ▸ by simp, rfl⟩
    · obtain ⟨row, hrow, hcore'⟩ := h.created q hq
      exact ⟨row, hpre.subset hrow, hcore'.trans hcore.symm⟩
  · rw [hlog, List.mem_append, List.mem_singleton] at hrow
    rcases hrow with hrow | rfl
    · obtain ⟨hcore, hdraft⟩ := h.inserted row hrow
      exact ⟨hgrows.cores.subset hcore, hdraft⟩
    · refine ⟨Db.mem_cores ?_, hw.draft⟩
      rw [hdb]
      exact List.mem_append_right _ (List.mem_singleton_self row)
  · rw [hlog, List.mem_append, List.mem_singleton] at hc
    rcases hc with hc | rfl
    · obtain ⟨b, hb, core, hcore, heq⟩ := h.compiles k v c hc hst
      exact ⟨b, hb, core, hgrows.cores.subset hcore, heq⟩
    · obtain ⟨b, hb, core, hcore, heq⟩ := hw.compiled hst
      exact ⟨b, hb, core, hgrows.cores.subset hcore, heq⟩
  · rw [hlog, List.mem_append, List.mem_singleton] at hc
    rcases hc with hc | rfl
    · obtain ⟨core, hcore, heq⟩ := h.contents k v c x hc hx
      exact ⟨core, hgrows.cores.subset hcore, heq⟩
    · obtain ⟨core, hcore, heq, hcontent⟩ := hw.target
      exact ⟨core, hgrows.cores.subset hcore, heq, hcontent x hx⟩
  · rcases hcases r hr with rfl | ⟨q, hq, hcore, hrq⟩
    · rw [show r.rollbackOfVersion = none from hw.noRollback] at hv
      cases hv
    · have hsem : r.content.semantics = q.content.semantics :=
        RuntimePolicy.semantics_eq_of_authored_eq (RuntimePolicyRecord.authored_of_core hcore)
      have hkey : r.policyKey = q.policyKey :=
        RuntimePolicyRecord.key_of_ident (RuntimePolicyRecord.ident_of_core hcore)
      rw [hsem, hkey]
      have hold : q.rollbackOfVersion = some v → ∃ core ∈ t.db.cores,
          core.1 = (q.policyKey, v) ∧ q.content.semantics = core.2.2.semantics := by
        intro hv
        obtain ⟨core, hin, heq⟩ := h.rollbacks q hq v hv
        exact ⟨core, hgrows.cores.subset hin, heq⟩
      rcases hrq with rfl | ⟨c, rfl, rfl⟩
      · exact hold hv
      · cases hc : c.rollbackOfVersion with
        | none =>
          refine hold ?_
          rw [RecordColumns.apply, hc] at hv
          exact hv
        | some u =>
          rw [RecordColumns.apply, hc] at hv
          obtain rfl : u = v := by simpa using hv
          obtain ⟨c₁, hc₁, c₂, hc₂, heq₁, heq₂, hsem'⟩ := hw.rollback u hc
          obtain rfl := hs.core_of_ident hq hc₁ heq₁
          exact ⟨c₂, hgrows.cores.subset hc₂, heq₂, hsem'⟩

/-! ## Deploys -/

variable {row : RuntimePolicyRecord} {replaced : Option RuntimePolicyRecord}
  {content : RuntimePolicy} {bundle : PolicyBundle} {p : Pending}

/-- A deploy writes one version, or two. -/
theorem deployWrites_cases (row : RuntimePolicyRecord) (replaced : Option RuntimePolicyRecord)
    (content : RuntimePolicy) :
    (∀ q, replaced = some q → q.ident = row.ident) ∧
        deployWrites row replaced content = [activatedAs row.policyKey row.version content] ∨
      ∃ q, replaced = some q ∧ q.ident ≠ row.ident ∧ deployWrites row replaced content =
        [.updateRecord q.policyKey q.version { status := some .retired },
          activatedAs row.policyKey row.version content] := by
  cases replaced with
  | none =>
    refine .inl ⟨fun q hq => (Option.some_ne_none q hq.symm).elim, ?_⟩
    simp [deployWrites, activatedAs]
  | some q =>
    by_cases hq : q.ident = row.ident
    · refine .inl ⟨fun r hr => Option.some.inj hr ▸ hq, ?_⟩
      simp [deployWrites, Option.filter, hq, activatedAs]
    · refine .inr ⟨q, rfl, hq, ?_⟩
      simp [deployWrites, Option.filter, hq, activatedAs]

/-- The retirement of the version that a deploy replaces, if it is another one. -/
def Db.replace (db : Db) (row : RuntimePolicyRecord) : Option RuntimePolicyRecord → Db
  | some q => if q.ident = row.ident then db
      else db.updateRecord q.policyKey q.version { status := some .retired }
  | none => db

theorem Db.commit_deploy (db : Db) (p : Pending) (row : RuntimePolicyRecord)
    (replaced : Option RuntimePolicyRecord) (content : RuntimePolicy) :
    db.commit (some p) (deployWrites row replaced content) =
      ((db.land (some p)).replace row replaced).updateRecord row.policyKey row.version
        { status := some .active, content := some content } := by
  rw [Db.commit]
  rcases deployWrites_cases row replaced content with ⟨hsame, heq⟩ | ⟨q, rfl, hne, heq⟩
  · rw [heq]
    cases replaced with
    | none => rfl
    | some q =>
      rw [Db.replace, if_pos (hsame q rfl)]
      rfl
  · rw [heq, Db.replace, if_neg hne]
    rfl

namespace Deploys

/-- The versions before the new one is made active. -/
theorem replace_records (h : Deploys T H i p row bundle replaced content s)
    {r : RuntimePolicyRecord} (hr : r ∈ ((s.db.land (some p)).replace row replaced).records) :
    ∃ q ∈ s.db.records, r.core = q.core ∧ r.rollbackOfVersion = q.rollbackOfVersion ∧
      (r = q ∨ r.status = .retired) ∧
      (r.status = .active → r.policyKey = row.policyKey → r.ident = row.ident) := by
  cases replaced with
  | none =>
    refine ⟨r, hr, rfl, rfl, .inl rfl, fun hact hkey => ?_⟩
    exact (h.replaces r hr hact hkey).resolve_right fun ⟨q, hq, _⟩ => nomatch hq
  | some q =>
    rw [Db.replace] at hr
    by_cases hne : q.ident = row.ident
    · rw [if_pos hne] at hr
      refine ⟨r, hr, rfl, rfl, .inl rfl, fun hact hkey => ?_⟩
      rcases h.replaces r hr hact hkey with hsame | ⟨q', hq', hident⟩
      · exact hsame
      · rw [← hident, ← Option.some.inj hq', hne]
    · rw [if_neg hne] at hr
      obtain ⟨r₀, hr₀, rfl⟩ := Db.mem_updateRecord.1 hr
      refine ⟨r₀, hr₀, ?_⟩
      by_cases hident : r₀.ident = (q.policyKey, q.version)
      · rw [if_pos hident]
        exact ⟨rfl, rfl, .inr rfl, nofun⟩
      · rw [if_neg hident]
        refine ⟨rfl, rfl, .inl rfl, fun hact hkey => ?_⟩
        rcases h.replaces r₀ hr₀ hact hkey with hsame | ⟨q', hq', heq⟩
        · exact hsame
        · exact absurd (heq.symm.trans (Option.some.inj hq' ▸ rfl)) hident

/-- The new content is that of the version that it is written to. -/
theorem faithful (h : Deploys T H i p row bundle replaced content s) (hs : s.db.Sound)
    {r : RuntimePolicyRecord} (hr : r ∈ ((s.db.land (some p)).replace row replaced).records)
    (hident : r.ident = row.ident) : r.content.authored = content.authored := by
  obtain ⟨q, hq, hcore, -⟩ := h.replace_records hr
  have hrow : row.core = q.core :=
    hs.core_of_ident hq h.compiled.core (hident.symm.trans (RuntimePolicyRecord.ident_of_core hcore))
  rw [h.content_eq, RuntimePolicyRecord.authored_of_core (hcore.trans hrow.symm)]

/-- A version after a deploy. -/
theorem record_cases (h : Deploys T H i p row bundle replaced content s) (hs : s.db.Sound)
    {r : RuntimePolicyRecord}
    (hr : r ∈ (s.db.commit (some p) (deployWrites row replaced content)).records) :
    ∃ q ∈ s.db.records, r.core = q.core ∧ r.rollbackOfVersion = q.rollbackOfVersion ∧
      (r = q ∨ r.status = .retired ∨ r.status = .active ∧ r.ident = row.ident) := by
  rw [Db.commit_deploy] at hr
  obtain ⟨r₀, hr₀, rfl⟩ := Db.mem_updateRecord.1 hr
  obtain ⟨q, hq, hcore, hroll, hcases, -⟩ := h.replace_records hr₀
  refine ⟨q, hq, ?_⟩
  by_cases hident : r₀.ident = (row.policyKey, row.version)
  · rw [if_pos hident]
    have hfaithful : RecordColumns.Faithful
        { status := some .active, content := some content } r₀ := fun x hx => by
      rw [← Option.some.inj hx, h.faithful hs hr₀ hident]
    exact ⟨hfaithful.core.trans hcore, hroll, .inr (.inr ⟨rfl, hident⟩)⟩
  · rw [if_neg hident]
    exact ⟨hcore, hroll, hcases.imp_right .inl⟩

theorem sound (h : Deploys T H i p row bundle replaced content s) (hs : s.db.Sound)
    (hversion : p.row.version = s.db.maxPolicyVersion + 1)
    (hslot : p.row.organizationId.isSome → ∀ q ∈ s.db.policies, q.status = .active →
      q.organizationId = p.row.organizationId → p.prior = some q.version) :
    (s.db.commit (some p) (deployWrites row replaced content)).Sound := by
  rw [Db.commit_deploy]
  refine Db.Sound.update ?_ fun _ r hr hact hkey => ?_
  · have hland := hs.land hversion hslot
    cases replaced with
    | none => exact hland
    | some q =>
      rw [Db.replace]
      split
      · exact hland
      · exact hland.update nofun
  · obtain ⟨-, -, -, -, -, hsame⟩ := h.replace_records hr
    exact hsame hact hkey

theorem grows (h : Deploys T H i p row bundle replaced content s) (hs : s.db.Sound)
    (hversion : p.row.version = s.db.maxPolicyVersion + 1) :
    s.db.Grows (s.db.commit (some p) (deployWrites row replaced content)) := by
  have hreplace : s.db.Grows ((s.db.land (some p)).replace row replaced) := by
    have hland := Db.Grows.land hversion
    cases replaced with
    | none => exact hland
    | some q =>
      rw [Db.replace]
      split
      · exact hland
      · exact hland.trans (.update fun r _ _ => RecordColumns.faithful_of_none rfl)
  rw [Db.commit_deploy]
  refine hreplace.trans (.update fun r hr hident => ?_)
  intro x hx
  rw [← Option.some.inj hx, h.faithful hs hr hident]

/-- A deploy changes what is active, and no version's core. -/
theorem cores (h : Deploys T H i p row bundle replaced content s) (hs : s.db.Sound) :
    (s.db.commit (some p) (deployWrites row replaced content)).cores = s.db.cores := by
  have hfaithful : ∀ r ∈ ((s.db.land (some p)).replace row replaced).records,
      r.ident = (row.policyKey, row.version) →
      RecordColumns.Faithful { status := some .active, content := some content } r := by
    intro r hr hident x hx
    rw [← Option.some.inj hx, h.faithful hs hr hident]
  rw [Db.commit_deploy, Db.cores_updateRecord hfaithful]
  cases replaced with
  | none => rfl
  | some q =>
    rw [Db.replace]
    split
    · rfl
    · exact Db.cores_updateRecord fun r _ _ => RecordColumns.faithful_of_none rfl

/-- The commit of a deploy is the last one of the trail of its version. -/
theorem trail (h : Deploys T H i p row bundle replaced content s) (htrail : T.trail) :
    Trail (s.log ++ deployWrites row replaced content) row.policyKey row.version .active := by
  obtain ⟨c, b, hsub⟩ := h.compiled.trail htrail
  refine ⟨c, b, content, ?_⟩
  have hlast : [activatedAs row.policyKey row.version content].Sublist
      (deployWrites row replaced content) := by
    rcases deployWrites_cases row replaced content with ⟨-, heq⟩ | ⟨q, -, -, heq⟩ <;> rw [heq]
    exact List.sublist_cons_self _ _
  exact hsub.append hlast

end Deploys

/-- The commit of a deploy keeps the history. -/
theorem Trailed.deploy (h : Trailed s.log s.db) (hs : s.db.Sound) (htrail : T.trail)
    (hd : Deploys T H i p row bundle replaced content s)
    (hversion : p.row.version = s.db.maxPolicyVersion + 1)
    (hdb : t.db = s.db.commit (some p) (deployWrites row replaced content))
    (hlog : t.log = s.log ++ deployWrites row replaced content) : Trailed t.log t.db := by
  have hpre : s.log <+: t.log := hlog ▸ List.prefix_append _ _
  have hgrows : s.db.Grows t.db := hdb ▸ hd.grows hs hversion
  have hcases := fun r (hr : r ∈ t.db.records) => hd.record_cases hs (hdb ▸ hr)
  have hwrites : ∀ w ∈ deployWrites row replaced content,
      w = activatedAs row.policyKey row.version content ∨
        ∃ k v, w = .updateRecord k v { status := some .retired } := by
    intro w hw
    rcases deployWrites_cases row replaced content with ⟨-, heq⟩ | ⟨q, -, -, heq⟩
    · rw [heq, List.mem_singleton] at hw
      exact .inl hw
    · rw [heq, List.mem_cons, List.mem_singleton] at hw
      exact hw.symm.imp_right fun heq => ⟨_, _, heq⟩
  refine ⟨fun r hr => ?_, fun r hr => ?_, fun row' hrow => ?_, fun k v c hc hst => ?_,
    fun k v c x hc hx => ?_, fun r hr v hv => ?_⟩
  · obtain ⟨q, hq, -, -, rfl | hret | ⟨hact, hident⟩⟩ := hcases r hr
    · exact (h.status r hq).mono hpre.sublist
    · rw [hret]
      trivial
    · obtain ⟨hkey, hver⟩ := Prod.ext_iff.1 hident
      rw [hact, show r.policyKey = row.policyKey from hkey, show r.version = row.version from hver,
        hlog]
      exact hd.trail htrail
  · obtain ⟨q, hq, hcore, -⟩ := hcases r hr
    obtain ⟨row', hrow, hcore'⟩ := h.created q hq
    exact ⟨row', hpre.subset hrow, hcore'.trans hcore.symm⟩
  · rw [hlog, List.mem_append] at hrow
    rcases hrow with hrow | hrow
    · obtain ⟨hcore, hdraft⟩ := h.inserted row' hrow
      exact ⟨hgrows.cores.subset hcore, hdraft⟩
    · rcases hwrites _ hrow with heq | ⟨k, v, heq⟩ <;> cases heq
  · rw [hlog, List.mem_append] at hc
    rcases hc with hc | hc
    · obtain ⟨b, hb, core, hcore, heq⟩ := h.compiles k v c hc hst
      exact ⟨b, hb, core, hgrows.cores.subset hcore, heq⟩
    · rcases hwrites _ hc with heq | ⟨k, v, heq⟩ <;> cases heq <;> cases hst
  · rw [hlog, List.mem_append] at hc
    rcases hc with hc | hc
    · obtain ⟨core, hcore, heq⟩ := h.contents k v c x hc hx
      exact ⟨core, hgrows.cores.subset hcore, heq⟩
    · rcases hwrites _ hc with heq | ⟨k, v, heq⟩ <;> cases heq <;> cases hx
      exact ⟨row.core, hgrows.cores.subset hd.compiled.core, rfl, hd.content_eq⟩
  · obtain ⟨q, hq, hcore, hroll, -⟩ := hcases r hr
    obtain ⟨core, hin, heq, hsem⟩ := h.rollbacks q hq v (hroll ▸ hv)
    have hkey : r.policyKey = q.policyKey :=
      RuntimePolicyRecord.key_of_ident (RuntimePolicyRecord.ident_of_core hcore)
    refine ⟨core, hgrows.cores.subset hin, hkey ▸ heq, ?_⟩
    rw [← hsem]
    exact RuntimePolicy.semantics_eq_of_authored_eq (RuntimePolicyRecord.authored_of_core hcore)

/-! ## The invariant -/

namespace Inv

/-- A step that commits nothing, and flushes nothing new. -/
theorem of_eq (h : Inv T s) (hr : t.db.records = s.db.records) (hp : t.db.policies = s.db.policies)
    (hlog : t.log = s.log) (hpending : ∀ j p, t.pending j = some p →
      ∃ q, s.pending j = some q ∧ q.row = p.row ∧ q.prior = p.prior) : Inv T t where
  db := h.db.of_eq hr hp
  next j p hj := by
    obtain ⟨q, hq, hrow, -⟩ := hpending j p hj
    rw [← hrow, Db.maxPolicyVersion, hp]
    exact h.next j q hq
  single j k p q hj hk := by
    obtain ⟨p', hp', -⟩ := hpending j p hj
    obtain ⟨q', hq', -⟩ := hpending k q hk
    exact h.single j k p' q' hp' hq'
  slot j p hj := by
    obtain ⟨q, hq, hrow, hprior⟩ := hpending j p hj
    rw [← hrow, ← hprior, hp]
    exact h.slot j q hq
  trailed ht := by
    have hcores : t.db.cores = s.db.cores := by rw [Db.cores, Db.cores, hr]
    obtain ⟨h₁, h₂, h₃, h₄, h₅, h₆⟩ := h.trailed ht
    exact ⟨by rwa [hr, hlog], by rwa [hr, hlog], by rwa [hlog, hcores], by rwa [hlog, hcores],
      by rwa [hlog, hcores], by rwa [hr, hcores]⟩

variable [DecidableEq ι]

/-- The row that a session has flushed is gone. -/
theorem drop (h : Inv T s) : Inv T (s.setPending i none) := by
  refine h.of_eq rfl rfl rfl fun j p hj => ?_
  rw [Store.setPending_pending] at hj
  by_cases hji : j = i
  · rw [if_pos hji] at hj
    cases hj
  · rw [if_neg hji] at hj
    exact ⟨p, hj, rfl, rfl⟩

/-- A row of `policies` is flushed where the unique indexes let it pass. -/
theorem flush (h : Inv T s) {prior : Option ℕ} {row : PolicyRow} (hactive : row.status = .active)
    (hnext : NextVersion row.version s) (hblocked : ¬ s.blocked i prior row)
    (hrefuses : s.db.refusesPolicy prior row = false) :
    Inv T (s.setPending i (some ⟨prior, row, []⟩)) := by
  have hfree : ∀ q ∈ s.db.policies, q.version ≠ row.version ∧ (row.organizationId.isSome →
      q.status = .active → q.organizationId = row.organizationId → prior = some q.version) := by
    intro q hq
    have := List.any_eq_false.1 hrefuses q hq
    simp only [decide_eq_true_eq, not_or, not_and, not_not, PolicyRow.isActive] at this
    exact ⟨this.1, fun hsome hact horg => this.2 hsome horg hact⟩
  have hversion : row.version = s.db.maxPolicyVersion + 1 := by
    obtain ⟨m, hm, hle, hlater⟩ := hnext
    rcases hle.lt_or_eq with hlt | heq
    · -- somebody else has committed the version meanwhile
      obtain ⟨c, hc, hcm⟩ := List.mem_map.1 (hlater hlt)
      obtain ⟨q, hq, rfl⟩ := List.mem_map.1 hc
      exact absurd (hcm.trans hm.symm) (hfree q hq).1
    · rw [hm, heq]
  have hothers : ∀ j p, j ≠ i → s.pending j ≠ some p := by
    intro j p hji hj
    refine hblocked ⟨j, hji, ?_⟩
    rw [hj]
    exact decide_eq_true (.inl ((h.next j p hj).2.trans hversion.symm))
  have hcases : ∀ j p, (s.setPending i (some ⟨prior, row, []⟩)).pending j = some p →
      j = i ∧ p = ⟨prior, row, []⟩ := by
    intro j p hj
    rw [Store.setPending_pending] at hj
    by_cases hji : j = i
    · rw [if_pos hji, Option.some.injEq] at hj
      exact ⟨hji, hj.symm⟩
    · rw [if_neg hji] at hj
      exact absurd hj (hothers j p hji)
  refine ⟨h.db, fun j p hj => ?_, fun j k p q hj hk => ?_, fun j p hj => ?_, h.trailed⟩
  · obtain ⟨-, rfl⟩ := hcases j p hj
    exact ⟨hactive, hversion⟩
  · rw [(hcases j p hj).1, (hcases k q hk).1]
  · obtain ⟨-, rfl⟩ := hcases j p hj
    exact fun hsome q hq hact horg => (hfree q hq).2 hsome hact horg

/-- A commit beside a deploy. -/
theorem commit_plain (h : Inv T s) (hpending : s.pending i = none) (hw : PlainOk T s w)
    (hrefuses : s.db.refuses w = false) : Inv T (s.commit i [w]) := by
  have hdb : (s.commit i [w]).db = s.db.write w := by
    rw [Store.commit_db, hpending]
    rfl
  have hpolicies : (s.commit i [w]).db.policies = s.db.policies := by rw [hdb, Db.write_policies]
  have hsame : (s.commit i [w]).pending = s.pending := by
    rw [Store.commit_pending, ← hpending, Function.update_eq_self]
  refine ⟨hdb ▸ hw.sound h.db hrefuses, ?_, ?_, ?_, fun ht => ?_⟩
  · rw [hsame, Db.maxPolicyVersion, hpolicies]
    exact h.next
  · rw [hsame]
    exact h.single
  · rw [hsame, hpolicies]
    exact h.slot
  · exact (h.trailed ht).plain h.db ht hw hdb (Store.commit_log ..)

/-- The commit of a deploy. -/
theorem commit_deploy (h : Inv T s) (hpending : s.pending i = some p)
    (hd : Deploys T H i p row bundle replaced content s) :
    Inv T (s.commit i (deployWrites row replaced content)) := by
  have hversion := (h.next i p hpending).2
  have hdb : (s.commit i (deployWrites row replaced content)).db =
      s.db.commit (some p) (deployWrites row replaced content) := by
    rw [Store.commit_db, hpending]
  have hnone : ∀ j q, (s.commit i (deployWrites row replaced content)).pending j ≠ some q := by
    intro j q hj
    rw [Store.commit_pending] at hj
    by_cases hji : j = i
    · subst hji
      rw [Function.update_self] at hj
      cases hj
    · rw [Function.update_of_ne hji] at hj
      exact hji (h.single j i q p hj hpending)
  refine ⟨hdb ▸ hd.sound h.db hversion (h.slot i p hpending), fun j q hj => absurd hj (hnone j q),
    fun j k p q hj _ => absurd hj (hnone j p), fun j q hj => absurd hj (hnone j q), fun ht => ?_⟩
  exact (h.trailed ht).deploy h.db ht hd hversion hdb (Store.commit_log ..)

/-- Every statement keeps the invariant. -/
theorem step (h : Inv T s) {q : Statement} {r : Except PyError q.Answer} (hpre : Pre T H i q s)
    (hstep : Store.step H i q s r t) : Inv T t := by
  have hsame : ∀ j p, s.pending j = some p → ∃ q, s.pending j = some q ∧ q.row = p.row ∧
      q.prior = p.prior := fun j p hj => ⟨p, hj, rfl, rfl⟩
  cases q with
  | select q =>
    rcases hstep with ⟨-, rfl⟩ | ⟨-, rfl⟩
    · exact h.of_eq rfl rfl rfl hsame
    · exact h
  | uuid4 =>
    obtain ⟨-, -, rfl⟩ := hstep
    exact h
  | flushPolicy prior row =>
    rcases hstep with ⟨hblocked, hstep⟩ | ⟨-, rfl⟩
    · split at hstep
      · obtain ⟨-, rfl⟩ := hstep
        exact h.drop
      · next hrefuses =>
        obtain ⟨-, rfl⟩ := hstep
        exact h.flush hpre.2.1 hpre.2.2 hblocked (by simpa using hrefuses)
    · exact h
  | flushMandate m =>
    rcases hstep with ⟨-, rfl⟩ | ⟨-, rfl⟩ | ⟨-, rfl⟩
    · refine h.of_eq rfl rfl rfl fun j p hj => ?_
      rw [Store.setPending_pending] at hj
      by_cases hji : j = i
      · subst hji
        rw [if_pos rfl, Option.map_eq_some_iff] at hj
        obtain ⟨q, hq, rfl⟩ := hj
        exact ⟨q, hq, rfl, rfl⟩
      · rw [if_neg hji] at hj
        exact ⟨p, hj, rfl, rfl⟩
    · exact h
    · exact h
  | commit ws =>
    rcases hstep with hstep | ⟨-, rfl⟩
    · split at hstep
      · obtain ⟨-, rfl⟩ := hstep
        exact h
      · next hrefuses =>
        obtain ⟨-, rfl⟩ := hstep
        cases hpending : s.pending i with
        | none =>
          rw [Pre, hpending] at hpre
          obtain ⟨w, rfl, -, hw⟩ := hpre
          exact h.commit_plain hpending hw (by simpa using hrefuses)
        | some p =>
          rw [Pre, hpending] at hpre
          obtain ⟨row, bundle, replaced, content, rfl, hd⟩ := hpre
          exact h.commit_deploy hpending hd
    · exact h
  | rollback =>
    obtain ⟨-, rfl⟩ := hstep
    exact h.drop
  | uploadPolicy o source =>
    rcases hstep with ⟨-, rfl⟩ | ⟨-, rfl | rfl⟩
    · unfold Store.load
      split <;> exact h.of_eq rfl rfl rfl hsame
    · exact h
    · exact h.of_eq rfl rfl rfl hsame
  | deletePolicy o =>
    rcases hstep with ⟨-, rfl⟩ | ⟨-, rfl | rfl⟩
    · unfold Store.load
      split <;> exact h.of_eq rfl rfl rfl hsame
    · exact h
    · exact h.of_eq rfl rfl rfl hsame
  | submitIntent agent req now =>
    rcases hstep with ⟨-, rfl⟩ | ⟨-, rfl⟩
    · exact h.of_eq (IntentService.submit_records ..) (IntentService.submit_policies ..) rfl hsame
    · exact h

end Inv

/-! ## What the others count on -/

namespace Rely

variable {plain : Write → Prop}

theorem refl (i : ι) (s : Store ι) : Rely T i s s where
  toStill := .refl
  seen := rfl
  owed h := h
  locked _ := ⟨rfl, fun r hr hact => ⟨r, hr, hact, rfl⟩⟩
  alone _ := rfl

theorem trans {u : Store ι} (h : Rely T i s t) (h' : Rely T i t u) : Rely T i s u where
  toStill := h.toStill.trans h'.toStill
  seen := h'.seen.trans h.seen
  owed ho := h'.owed (h.owed ho)
  locked hp := by
    obtain ⟨hpol, hact⟩ := h.locked hp
    obtain ⟨hpol', hact'⟩ := h'.locked (h.pending ▸ hp)
    refine ⟨hpol'.trans hpol, fun r hr hra => ?_⟩
    obtain ⟨q, hq, hqa, hqr⟩ := hact' r hr hra
    obtain ⟨q₀, hq₀, hqa₀, hqq⟩ := hact q hq hqa
    exact ⟨q₀, hq₀, hqa₀, hqq.trans hqr⟩
  alone hi := (h'.alone hi).trans (h.alone hi)

/-- A step of another session that commits nothing. -/
theorem of_eq (hji : j ≠ i) (hr : t.db.records = s.db.records) (hp : t.db.policies = s.db.policies)
    (hpr : t.db.principals = s.db.principals) (hlog : t.log = s.log) (hseen : t.seen j = s.seen j)
    (hpending : t.pending j = s.pending j) (huploaded : t.uploaded j = s.uploaded j)
    (howed : s.owed j = none → t.owed j = none) : Rely T j s t where
  db := .of_eq hr hp hpr
  log := hlog ▸ List.prefix_rfl
  fixed _ := by rw [Db.cores, Db.cores, hr]
  gates k o := by rw [hseen]
  pending := hpending
  uploaded := huploaded
  aloneDb hi := absurd (Subsingleton.elim j i) hji
  aloneOpa hi := absurd (Subsingleton.elim j i) hji
  seen := hseen
  owed := howed
  locked _ := ⟨hp, fun r hr' hact => ⟨r, hr ▸ hr', hact, rfl⟩⟩
  alone hi := absurd (Subsingleton.elim j i) hji

variable [DecidableEq ι]

/-- A commit of another session. -/
theorem of_commit {ws : List Write} (hji : j ≠ i) (hgrows : s.db.Grows (s.commit i ws).db)
    (hfixed : Fixed T.plain → (s.commit i ws).db.cores = s.db.cores)
    (hlocked : (s.pending j).isSome → (s.commit i ws).db.policies = s.db.policies ∧
      ∀ r ∈ (s.commit i ws).db.records, r.status = .active →
        ∃ q ∈ s.db.records, q.status = .active ∧ q.ident = r.ident) :
    Rely T j s (s.commit i ws) where
  db := hgrows
  log := by
    rw [Store.commit_log]
    exact List.prefix_append _ _
  fixed := hfixed
  gates k o := by rw [Store.commit_seen]
  pending := by rw [Store.commit_pending, Function.update_of_ne hji]
  uploaded := by rw [Store.commit_uploaded]
  aloneDb hi := absurd (Subsingleton.elim j i) hji
  aloneOpa hi := absurd (Subsingleton.elim j i) hji
  seen := by rw [Store.commit_seen]
  owed := Store.commit_owed s i ws hji
  locked := hlocked
  alone hi := absurd (Subsingleton.elim j i) hji

theorem commit_plain (h : Inv T s) (hji : j ≠ i) (hpending : s.pending i = none)
    (hplain : T.plain w) (hw : PlainOk T s w) : Rely T j s (s.commit i [w]) := by
  have hdb : (s.commit i [w]).db = s.db.write w := by
    rw [Store.commit_db, hpending]
    rfl
  refine of_commit hji (hdb ▸ hw.grows h.db) (fun hf => hdb ▸ hw.cores h.db hplain hf) fun _ => ?_
  rw [hdb]
  refine ⟨Db.write_policies w, fun r hr hact => ?_⟩
  obtain ⟨q, hq, hqact, hqr, -⟩ := hw.actives hr hact
  exact ⟨q, hq, hqact, hqr⟩

theorem commit_deploy (h : Inv T s) (hji : j ≠ i) (hpending : s.pending i = some p)
    (hd : Deploys T H i p row bundle replaced content s) :
    Rely T j s (s.commit i (deployWrites row replaced content)) := by
  have hdb : (s.commit i (deployWrites row replaced content)).db =
      s.db.commit (some p) (deployWrites row replaced content) := by
    rw [Store.commit_db, hpending]
  refine of_commit hji (hdb ▸ hd.grows h.db (h.next i p hpending).2) (fun _ => hdb ▸ hd.cores h.db)
    fun hsome => ?_
  -- another session has a flushed row, so this one has none
  obtain ⟨q, hq⟩ := Option.isSome_iff_exists.1 hsome
  exact absurd (h.single j i q p hq hpending) hji

/-- Every statement keeps what the others count on. -/
theorem step (h : Inv T s) (hij : i ≠ j) {q : Statement} {r : Except PyError q.Answer}
    (hpre : Pre T H i q s) (hstep : Store.step H i q s r t) : Rely T j s t := by
  have hji : j ≠ i := hij.symm
  have hset : ∀ p, Rely T j s (s.setPending i p) := fun p =>
    of_eq hji rfl rfl rfl rfl rfl (by rw [Store.setPending_pending, if_neg hji]) rfl id
  cases q with
  | select q =>
    rcases hstep with ⟨-, rfl⟩ | ⟨-, rfl⟩
    · exact of_eq hji rfl rfl rfl rfl (Function.update_of_ne hji _ _) rfl rfl id
    · exact refl j _
  | uuid4 =>
    obtain ⟨-, -, rfl⟩ := hstep
    exact refl j _
  | flushPolicy prior row =>
    rcases hstep with ⟨-, hstep⟩ | ⟨-, rfl⟩
    · split at hstep <;> obtain ⟨-, rfl⟩ := hstep <;> exact hset _
    · exact refl j _
  | flushMandate m =>
    rcases hstep with ⟨-, rfl⟩ | ⟨-, rfl⟩ | ⟨-, rfl⟩
    · exact hset _
    · exact refl j _
    · exact refl j _
  | commit ws =>
    rcases hstep with hstep | ⟨-, rfl⟩
    · split at hstep
      · obtain ⟨-, rfl⟩ := hstep
        exact refl j _
      · obtain ⟨-, rfl⟩ := hstep
        cases hpending : s.pending i with
        | none =>
          rw [Pre, hpending] at hpre
          obtain ⟨w, rfl, hplain, hw⟩ := hpre
          exact commit_plain h hji hpending hplain hw
        | some p =>
          rw [Pre, hpending] at hpre
          obtain ⟨row, bundle, replaced, content, rfl, hd⟩ := hpre
          exact commit_deploy h hji hpending hd
    · exact refl j _
  | rollback =>
    obtain ⟨-, rfl⟩ := hstep
    exact hset _
  | uploadPolicy o source =>
    rcases hstep with ⟨-, rfl⟩ | ⟨-, rfl | rfl⟩
    · unfold Store.load
      split
      · exact of_eq hji rfl rfl rfl rfl rfl rfl (Function.update_of_ne hji _ _)
          (Store.owe_owed _ _ hji)
      · exact of_eq hji rfl rfl rfl rfl rfl rfl (Function.update_of_ne hji _ _)
          (Store.settle_owed _)
    · exact refl j _
    · exact of_eq hji rfl rfl rfl rfl rfl rfl rfl (Store.owe_owed _ _ hji)
  | deletePolicy o =>
    rcases hstep with ⟨-, rfl⟩ | ⟨-, rfl | rfl⟩
    · unfold Store.load
      split
      · exact of_eq hji rfl rfl rfl rfl rfl rfl rfl (Store.owe_owed _ _ hji)
      · exact of_eq hji rfl rfl rfl rfl rfl rfl rfl (Store.settle_owed _)
    · exact refl j _
    · exact of_eq hji rfl rfl rfl rfl rfl rfl rfl (Store.owe_owed _ _ hji)
  | submitIntent agent req now =>
    rcases hstep with ⟨-, rfl⟩ | ⟨-, rfl⟩
    · exact of_eq hji (IntentService.submit_records ..) (IntentService.submit_policies ..)
        (IntentService.submit_principals ..) rfl rfl rfl rfl id
    · exact refl j _

end Rely

/-- The contract of the lifecycle. -/
def contract (T : Terms ι) (H : Host) [DecidableEq ι] : Logic (machine H ι) where
  inv := Inv T
  pre := Pre T H
  rely := Rely T
  idle i s := s.pending i = none
  inv_step h hpre hstep := h.step hpre hstep
  rely_refl := Rely.refl
  rely_trans := Rely.trans
  rely_step hij h hpre hstep := Rely.step h hij hpre hstep
  idle_rely h hst := hst.pending.trans h

end PayReality
