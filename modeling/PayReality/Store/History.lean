import PayReality.Store.Machine

/-!
# What a commit keeps

No commit removes a version, or changes what was authored as it: the list of `cores` only grows at
its end. The same holds of the rows of `policies`. `Db.Grows` collects what a session that has
read the database can still count on when others have committed.
-/

namespace PayReality

namespace RuntimePolicyRecord

/-- What never changes about a version: its key and number, its organization, and what was
authored. -/
def core (r : RuntimePolicyRecord) : (Uuid × ℕ) × Option Uuid × RuntimePolicy :=
  (r.ident, r.organizationId, r.content.authored)

theorem ident_of_core {r r' : RuntimePolicyRecord} (h : r.core = r'.core) : r.ident = r'.ident :=
  (Prod.ext_iff.1 h).1

theorem org_of_core {r r' : RuntimePolicyRecord} (h : r.core = r'.core) :
    r.organizationId = r'.organizationId := (Prod.ext_iff.1 (Prod.ext_iff.1 h).2).1

theorem authored_of_core {r r' : RuntimePolicyRecord} (h : r.core = r'.core) :
    r.content.authored = r'.content.authored := (Prod.ext_iff.1 (Prod.ext_iff.1 h).2).2

theorem key_of_ident {r r' : RuntimePolicyRecord} (h : r.ident = r'.ident) :
    r.policyKey = r'.policyKey := (Prod.ext_iff.1 h).1

theorem version_of_ident {r r' : RuntimePolicyRecord} (h : r.ident = r'.ident) :
    r.version = r'.version := (Prod.ext_iff.1 h).2

end RuntimePolicyRecord

namespace RecordColumns

variable (c : RecordColumns) (r : RuntimePolicyRecord)

@[simp] theorem apply_ident : (c.apply r).ident = r.ident := rfl

@[simp] theorem apply_policyKey : (c.apply r).policyKey = r.policyKey := rfl

@[simp] theorem apply_version : (c.apply r).version = r.version := rfl

@[simp] theorem apply_organizationId : (c.apply r).organizationId = r.organizationId := rfl

@[simp] theorem apply_status : (c.apply r).status = c.status.getD r.status := rfl

@[simp] theorem apply_content : (c.apply r).content = c.content.getD r.content := rfl

/-- The columns assign no content, or one that was authored as that of the row. -/
def Faithful : Prop := ∀ x, c.content = some x → x.authored = r.content.authored

variable {c r}

theorem faithful_of_none (h : c.content = none) : c.Faithful r := fun x hx => by
  rw [h] at hx
  cases hx

theorem Faithful.core (h : c.Faithful r) : (c.apply r).core = r.core := by
  have : (c.apply r).content.authored = r.content.authored := by
    cases hc : c.content with
    | none => simp [hc]
    | some x => simpa [hc] using h x hc
  rw [RuntimePolicyRecord.core, RuntimePolicyRecord.core, this, apply_ident, apply_organizationId]

end RecordColumns

namespace PolicyRow

/-- What never changes about a row of `policies`. -/
def core (p : PolicyRow) : ℕ × Option Uuid := (p.version, p.organizationId)

end PolicyRow

namespace Db

variable {db : Db}

def cores (db : Db) : List ((Uuid × ℕ) × Option Uuid × RuntimePolicy) :=
  db.records.map RuntimePolicyRecord.core

def policyCores (db : Db) : List (ℕ × Option Uuid) := db.policies.map PolicyRow.core

/-! ## Writes -/

@[simp] theorem write_policies (w : Write) : (db.write w).policies = db.policies := by
  cases w <;> rfl

@[simp] theorem write_principals (w : Write) : (db.write w).principals = db.principals := by
  cases w <;> rfl

@[simp] theorem land_records (p : Option Pending) : (db.land p).records = db.records := by
  cases p <;> rfl

@[simp] theorem land_principals (p : Option Pending) : (db.land p).principals = db.principals := by
  cases p <;> rfl

theorem foldl_write_policies (ws : List Write) : (ws.foldl write db).policies = db.policies := by
  induction ws generalizing db with
  | nil => rfl
  | cons w ws ih => rw [List.foldl_cons, ih, write_policies]

theorem foldl_write_principals (ws : List Write) :
    (ws.foldl write db).principals = db.principals := by
  induction ws generalizing db with
  | nil => rfl
  | cons w ws ih => rw [List.foldl_cons, ih, write_principals]

theorem commit_policies (p : Option Pending) (ws : List Write) :
    (db.commit p ws).policies = (db.land p).policies := foldl_write_policies ws

theorem commit_principals (p : Option Pending) (ws : List Write) :
    (db.commit p ws).principals = db.principals := by
  rw [commit, foldl_write_principals, land_principals]

theorem mem_updateRecord {key : Uuid} {version : ℕ} {c : RecordColumns} {r : RuntimePolicyRecord} :
    r ∈ (db.updateRecord key version c).records ↔
      ∃ q ∈ db.records, r = if q.ident = (key, version) then c.apply q else q := by
  simp only [updateRecord, List.mem_map, eq_comm]

theorem mem_otherActive {key : Uuid} {o : Option Uuid} {r : RuntimePolicyRecord} :
    r ∈ db.otherActive key o ↔
      r ∈ db.records ∧ r.status = .active ∧ r.organizationId = o ∧ r.policyKey ≠ key := by
  simp [otherActive, mem_activeRecords, and_assoc]

theorem cores_updateRecord {key : Uuid} {version : ℕ} {c : RecordColumns}
    (h : ∀ r ∈ db.records, r.ident = (key, version) → c.Faithful r) :
    (db.updateRecord key version c).cores = db.cores := by
  rw [cores, cores, updateRecord, List.map_map]
  refine List.map_congr_left fun r hr => ?_
  by_cases hk : r.ident = (key, version)
  · simp only [Function.comp, if_pos hk]
    exact (h r hr hk).core
  · simp only [Function.comp, if_neg hk]

/-! ## Versions of `policies` -/

theorem le_maxPolicyVersion {p : PolicyRow} (h : p ∈ db.policies) :
    p.version ≤ db.maxPolicyVersion := by
  have hle : ∀ vs : List ℕ, ∀ v ∈ vs, v ≤ vs.foldr max 0 := by
    intro vs
    induction vs with
    | nil => simp
    | cons u vs ih =>
      refine List.forall_mem_cons.2 ⟨le_max_left _ _, fun v hv => ?_⟩
      exact (ih v hv).trans (le_max_right _ _)
  exact hle _ _ (List.mem_map_of_mem h)

theorem maxPolicyVersion_append (db' : Db) (prior : Option ℕ) (retiredAt : Option Timestamp)
    (row : PolicyRow) (h : db'.policies = db.policies.map (retirePolicy prior retiredAt) ++ [row]) :
    db'.maxPolicyVersion = max db.maxPolicyVersion row.version := by
  have hversion : ∀ p : PolicyRow, (retirePolicy prior retiredAt p).version = p.version := by
    intro p
    unfold retirePolicy
    split <;> rfl
  rw [maxPolicyVersion, maxPolicyVersion, h]
  induction db.policies with
  | nil => simp
  | cons p ps ih =>
    simp only [List.map_cons, List.cons_append, List.foldr_cons, hversion] at ih ⊢
    rw [ih, max_assoc]

@[simp] theorem retirePolicy_core (prior : Option ℕ) (retiredAt : Option Timestamp) (p : PolicyRow) :
    (retirePolicy prior retiredAt p).core = p.core := by
  unfold retirePolicy
  split <;> rfl

/-! ## Growth -/

/-- `db'` is what `db` has become after others have committed. -/
structure Grows (db db' : Db) : Prop where
  cores : db.cores <+: db'.cores
  policyCores : db.policyCores <+: db'.policyCores
  maxVersion : db.maxPolicyVersion ≤ db'.maxPolicyVersion
  /-- The versions of new rows of `policies` follow each other. -/
  nextVersion : db.maxPolicyVersion < db'.maxPolicyVersion →
    db.maxPolicyVersion + 1 ∈ db'.policyCores.map Prod.fst
  principals : db'.principals = db.principals

theorem Grows.refl (db : Db) : db.Grows db where
  cores := List.prefix_rfl
  policyCores := List.prefix_rfl
  maxVersion := le_rfl
  nextVersion h := absurd h (lt_irrefl _)
  principals := rfl

theorem Grows.trans {db db' db'' : Db} (h : db.Grows db') (h' : db'.Grows db'') :
    db.Grows db'' where
  cores := h.cores.trans h'.cores
  policyCores := h.policyCores.trans h'.policyCores
  maxVersion := h.maxVersion.trans h'.maxVersion
  nextVersion hlt := by
    rcases h.maxVersion.lt_or_eq with hlt' | heq
    · exact (h'.policyCores.map Prod.fst).subset (h.nextVersion hlt')
    · rw [heq] at hlt ⊢
      exact h'.nextVersion hlt
  principals := h'.principals.trans h.principals

/-- Only tables that no lifecycle operation writes differ. -/
theorem Grows.of_eq {db db' : Db} (hr : db'.records = db.records) (hp : db'.policies = db.policies)
    (hpr : db'.principals = db.principals) : db.Grows db' where
  cores := by rw [Db.cores, Db.cores, hr]
  policyCores := by rw [Db.policyCores, Db.policyCores, hp]
  maxVersion := by rw [maxPolicyVersion, maxPolicyVersion, hp]
  nextVersion h := by
    rw [maxPolicyVersion, maxPolicyVersion, hp] at h
    exact absurd h (lt_irrefl _)
  principals := hpr

/-- A version is updated, and keeps what was authored. -/
theorem Grows.update {key : Uuid} {version : ℕ} {c : RecordColumns}
    (h : ∀ r ∈ db.records, r.ident = (key, version) → c.Faithful r) :
    db.Grows (db.updateRecord key version c) where
  cores := by rw [cores_updateRecord h]
  policyCores := List.prefix_rfl
  maxVersion := le_rfl
  nextVersion hlt := absurd hlt (lt_irrefl _)
  principals := rfl

theorem Grows.insert (row : RuntimePolicyRecord) : db.Grows (db.write (.insertRecord row)) where
  cores := by
    rw [Db.cores, Db.cores, write, List.map_append]
    exact List.prefix_append _ _
  policyCores := List.prefix_rfl
  maxVersion := le_rfl
  nextVersion hlt := absurd hlt (lt_irrefl _)
  principals := rfl

/-- A row of `policies` is added behind the last one. -/
theorem Grows.land {p : Pending} (hversion : p.row.version = db.maxPolicyVersion + 1) :
    db.Grows (db.land (some p)) := by
  have hmax : (db.land (some p)).maxPolicyVersion = db.maxPolicyVersion + 1 := by
    have : (db.land (some p)).maxPolicyVersion = max db.maxPolicyVersion p.row.version :=
      maxPolicyVersion_append _ p.prior p.row.activatedAt p.row rfl
    omega
  have hcores : (db.land (some p)).policyCores = db.policyCores ++ [p.row.core] := by
    rw [Db.policyCores, Db.policyCores, Db.land, List.map_append, List.map_map, List.map_singleton]
    congr 1
    exact List.map_congr_left fun q _ => retirePolicy_core _ _ q
  refine ⟨List.prefix_rfl, hcores ▸ List.prefix_append _ _, by omega, fun _ => ?_, rfl⟩
  rw [hcores, List.map_append, List.mem_append]
  exact .inr (by simp [PolicyRow.core, hversion])

theorem exists_of_core {c : (Uuid × ℕ) × Option Uuid × RuntimePolicy} (h : c ∈ db.cores) :
    ∃ r ∈ db.records, r.core = c := by
  simpa [cores] using h

theorem mem_cores {r : RuntimePolicyRecord} (h : r ∈ db.records) : r.core ∈ db.cores :=
  List.mem_map_of_mem h

/-! ## What the unique indexes and the services keep -/

/-- The rows of versions and of `policies` are sound. -/
structure Sound (db : Db) : Prop where
  idents : (db.records.map RuntimePolicyRecord.ident).Nodup
  /-- Every key has a first version, in its organization. -/
  first : ∀ r ∈ db.records, ∃ r₁ ∈ db.records, r₁.ident = (r.policyKey, 1) ∧
    r₁.organizationId = r.organizationId
  oneActive : ∀ r ∈ db.records, ∀ r' ∈ db.records, r.status = .active → r'.status = .active →
    r.policyKey = r'.policyKey → r.ident = r'.ident
  versions : (db.policies.map PolicyRow.version).Nodup
  oneRow : ∀ p ∈ db.policies, ∀ q ∈ db.policies, p.status = .active → q.status = .active →
    p.organizationId.isSome → p.organizationId = q.organizationId → p.version = q.version

namespace Sound

variable {db' : Db} {key : Uuid} {version : ℕ} {c : RecordColumns}

theorem of_eq (h : db.Sound) (hr : db'.records = db.records) (hp : db'.policies = db.policies) :
    db'.Sound where
  idents := hr ▸ h.idents
  first := hr ▸ h.first
  oneActive := hr ▸ h.oneActive
  versions := hp ▸ h.versions
  oneRow := hp ▸ h.oneRow

theorem eq_of_ident (h : db.Sound) {r r' : RuntimePolicyRecord} (hr : r ∈ db.records)
    (hr' : r' ∈ db.records) (heq : r.ident = r'.ident) : r = r' :=
  List.inj_on_of_nodup_map h.idents hr hr' heq

/-- The versions of a key are in one organization. -/
theorem organization (h : db.Sound) {q r : RuntimePolicyRecord} (hq : q ∈ db.records)
    (hr : r ∈ db.records) (hkey : q.policyKey = r.policyKey) :
    q.organizationId = r.organizationId := by
  obtain ⟨q₁, hq₁, hident, horg⟩ := h.first q hq
  obtain ⟨r₁, hr₁, hident', horg'⟩ := h.first r hr
  have hsame : q₁ = r₁ := h.eq_of_ident hq₁ hr₁ (by rw [hident, hident', hkey])
  rw [← horg, ← horg', hsame]

/-- A version that is in the table keeps its organization. -/
theorem core_of_ident (h : db.Sound) {r : RuntimePolicyRecord} (hr : r ∈ db.records)
    {core : (Uuid × ℕ) × Option Uuid × RuntimePolicy} (hc : core ∈ db.cores)
    (heq : core.1 = r.ident) : core = r.core := by
  obtain ⟨q, hq, rfl⟩ := exists_of_core hc
  rw [h.eq_of_ident hq hr heq]

/-- A version is updated; it becomes active only where no other version of its key is. -/
theorem update (h : db.Sound) (hactive : c.status = some .active → ∀ r ∈ db.records,
    r.status = .active → r.policyKey = key → r.ident = (key, version)) :
    (db.updateRecord key version c).Sound := by
  have hident : ∀ q : RuntimePolicyRecord,
      (if q.ident = (key, version) then c.apply q else q).ident = q.ident := by
    intro q
    split <;> rfl
  have hkey : ∀ q : RuntimePolicyRecord,
      (if q.ident = (key, version) then c.apply q else q).policyKey = q.policyKey := fun q =>
    RuntimePolicyRecord.key_of_ident (hident q)
  have horg : ∀ q : RuntimePolicyRecord,
      (if q.ident = (key, version) then c.apply q else q).organizationId = q.organizationId := by
    intro q
    split <;> rfl
  refine ⟨?_, fun r hr => ?_, fun r hr r' hr' hact hact' hkeys => ?_, h.versions, h.oneRow⟩
  · have : (db.updateRecord key version c).records.map RuntimePolicyRecord.ident =
        db.records.map RuntimePolicyRecord.ident := by
      rw [updateRecord, List.map_map]
      exact List.map_congr_left fun q _ => hident q
    rw [this]
    exact h.idents
  · obtain ⟨q, hq, rfl⟩ := mem_updateRecord.1 hr
    obtain ⟨q₁, hq₁, hfirst, ho⟩ := h.first q hq
    refine ⟨_, mem_updateRecord.2 ⟨q₁, hq₁, rfl⟩, ?_, ?_⟩
    · rw [hident, hkey, hfirst]
    · rw [horg, horg, ho]
  · obtain ⟨q, hq, rfl⟩ := mem_updateRecord.1 hr
    obtain ⟨q', hq', rfl⟩ := mem_updateRecord.1 hr'
    rw [hkey, hkey] at hkeys
    rw [hident, hident]
    -- what was active before, or is the version that becomes active
    have hcases : ∀ q : RuntimePolicyRecord,
        (if q.ident = (key, version) then c.apply q else q).status = .active →
        q.status = .active ∨ q.ident = (key, version) ∧ c.status = some .active := by
      intro q hact
      by_cases hq : q.ident = (key, version)
      · rw [if_pos hq, RecordColumns.apply_status] at hact
        cases hc : c.status with
        | none =>
          rw [hc] at hact
          exact .inl hact
        | some st =>
          rw [hc] at hact
          exact .inr ⟨hq, by rw [← hact]; rfl⟩
      · rw [if_neg hq] at hact
        exact .inl hact
    rcases hcases q hact with hold | ⟨hnew, hc⟩
    · rcases hcases q' hact' with hold' | ⟨hnew', hc⟩
      · exact h.oneActive q hq q' hq' hold hold' hkeys
      · rw [hnew']
        exact hactive hc q hq hold (hkeys.trans (Prod.ext_iff.1 hnew').1)
    · rcases hcases q' hact' with hold' | ⟨hnew', -⟩
      · rw [hnew]
        exact (hactive hc q' hq' hold' (hkeys.symm.trans (Prod.ext_iff.1 hnew).1)).symm
      · rw [hnew, hnew']

/-- A version is added, which is not active. -/
theorem insert (h : db.Sound) {row : RuntimePolicyRecord} (hfresh : ∀ r ∈ db.records, r.ident ≠ row.ident)
    (hstatus : row.status ≠ .active) (hkey : row.version = 1 ∨
      ∃ r ∈ db.records, r.policyKey = row.policyKey ∧ r.organizationId = row.organizationId) :
    (db.write (.insertRecord row)).Sound := by
  have hmem : ∀ {r}, r ∈ (db.write (.insertRecord row)).records → r ∈ db.records ∨ r = row := by
    intro r hr
    rwa [write, List.mem_append, List.mem_singleton] at hr
  have hold : ∀ {r}, r ∈ db.records → r ∈ (db.write (.insertRecord row)).records := fun hr =>
    List.mem_append_left _ hr
  refine ⟨?_, fun r hr => ?_, fun r hr r' hr' hact hact' hkeys => ?_, h.versions, h.oneRow⟩
  · rw [write, List.map_append, List.map_singleton]
    refine List.nodup_append.2 ⟨h.idents, List.nodup_singleton _, fun a ha b hb => ?_⟩
    obtain ⟨r, hr, rfl⟩ := List.mem_map.1 ha
    rw [List.mem_singleton.1 hb]
    exact hfresh r hr
  · rcases hmem hr with hr | rfl
    · obtain ⟨r₁, hr₁, hfirst⟩ := h.first r hr
      exact ⟨r₁, hold hr₁, hfirst⟩
    · rcases hkey with hone | ⟨q, hq, hqkey, hqorg⟩
      · exact ⟨r, hr, by rw [RuntimePolicyRecord.ident, hone], rfl⟩
      · obtain ⟨q₁, hq₁, hfirst, ho⟩ := h.first q hq
        exact ⟨q₁, hold hq₁, by rw [hfirst, hqkey], ho.trans hqorg⟩
  · rcases hmem hr with hr | rfl
    · rcases hmem hr' with hr' | rfl
      · exact h.oneActive r hr r' hr' hact hact' hkeys
      · exact absurd hact' hstatus
    · exact absurd hact hstatus

/-- A row of `policies` is added behind the last one, and the active one of its organization is
retired. -/
theorem land (h : db.Sound) {p : Pending} (hversion : p.row.version = db.maxPolicyVersion + 1)
    (hslot : p.row.organizationId.isSome → ∀ q ∈ db.policies, q.status = .active →
      q.organizationId = p.row.organizationId → p.prior = some q.version) :
    (db.land (some p)).Sound := by
  have hcore : ∀ q : PolicyRow, (retirePolicy p.prior p.row.activatedAt q).version = q.version ∧
      (retirePolicy p.prior p.row.activatedAt q).organizationId = q.organizationId := by
    intro q
    unfold retirePolicy
    split <;> exact ⟨rfl, rfl⟩
  have hactive : ∀ q : PolicyRow, (retirePolicy p.prior p.row.activatedAt q).status = .active →
      q.status = .active ∧ p.prior ≠ some q.version := by
    intro q hq
    unfold retirePolicy at hq
    split at hq
    · cases hq
    · next hne => exact ⟨hq, hne⟩
  have hmem : ∀ {q}, q ∈ (db.land (some p)).policies →
      (∃ q₀ ∈ db.policies, q = retirePolicy p.prior p.row.activatedAt q₀) ∨ q = p.row := by
    intro q hq
    rw [Db.land, List.mem_append, List.mem_map, List.mem_singleton] at hq
    exact hq.imp_left fun ⟨q₀, h₀, heq⟩ => ⟨q₀, h₀, heq.symm⟩
  refine ⟨h.idents, h.first, h.oneActive, ?_, fun q hq q' hq' hact hact' hsome horg => ?_⟩
  · have hmap : (db.policies.map (retirePolicy p.prior p.row.activatedAt)).map PolicyRow.version =
        db.policies.map PolicyRow.version := by
      rw [List.map_map]
      exact List.map_congr_left fun q _ => (hcore q).1
    rw [Db.land, List.map_append, hmap, List.map_singleton]
    refine List.nodup_append.2 ⟨h.versions, List.nodup_singleton _, fun v hv u hu => ?_⟩
    obtain ⟨q, hq, rfl⟩ := List.mem_map.1 hv
    have := le_maxPolicyVersion hq
    rw [List.mem_singleton.1 hu, hversion]
    omega
  · rcases hmem hq with ⟨q₀, hq₀, rfl⟩ | rfl
    · obtain ⟨hact₀, hne⟩ := hactive q₀ hact
      rw [(hcore q₀).2] at hsome horg
      rcases hmem hq' with ⟨q₁, hq₁, rfl⟩ | rfl
      · rw [(hcore q₁).2] at horg
        rw [(hcore q₀).1, (hcore q₁).1]
        exact h.oneRow q₀ hq₀ q₁ hq₁ hact₀ (hactive q₁ hact').1 hsome horg
      · exact absurd (hslot (horg ▸ hsome) q₀ hq₀ hact₀ horg) hne
    · rcases hmem hq' with ⟨q₁, hq₁, rfl⟩ | rfl
      · obtain ⟨hact₁, hne⟩ := hactive q₁ hact'
        rw [(hcore q₁).2] at horg
        exact absurd (hslot hsome q₁ hq₁ hact₁ horg.symm) hne
      · rfl

end Sound

end Db

/-! ## Commits -/

namespace Store

variable {ι : Type} [DecidableEq ι] (s : Store ι) (i : ι) (ws : List Write)

theorem setPending_pending {p : Option Pending} {j : ι} :
    (s.setPending i p).pending j = if j = i then p else s.pending j := Function.update_apply ..

@[simp] theorem commit_db : (s.commit i ws).db = s.db.commit (s.pending i) ws := by
  unfold commit
  split
  · next p hp => rw [hp]; rfl
  · next hp => rw [hp]; split <;> rfl

@[simp] theorem commit_opa : (s.commit i ws).opa = s.opa := by
  unfold commit
  split
  · rfl
  · split <;> rfl

@[simp] theorem commit_pending : (s.commit i ws).pending = Function.update s.pending i none := by
  unfold commit
  split
  · rfl
  · split <;> rfl

@[simp] theorem commit_seen : (s.commit i ws).seen = s.seen := by
  unfold commit
  split
  · rfl
  · split <;> rfl

@[simp] theorem commit_uploaded : (s.commit i ws).uploaded = s.uploaded := by
  unfold commit
  split
  · rfl
  · split <;> rfl

@[simp] theorem commit_log : (s.commit i ws).log = s.log ++ ws := by
  unfold commit
  split
  · rfl
  · split <;> rfl

omit [DecidableEq ι] in
theorem settle_owed {o : Option Uuid} {j : ι} (h : s.owed j = none) : (s.settle o).owed j = none := by
  show (if s.owed j = some o then none else s.owed j) = none
  rw [h]
  rfl

theorem owe_owed {o : Option Uuid} {j : ι} (hj : j ≠ i) (h : s.owed j = none) :
    (s.owe i o).owed j = none := by
  rw [← h]
  exact Function.update_of_ne hj _ _

/-- A commit makes nobody else owe the settlement of a module. -/
theorem commit_owed {j : ι} (hj : j ≠ i) (h : s.owed j = none) : (s.commit i ws).owed j = none := by
  unfold commit
  split
  · exact settle_owed _ h
  · split
    · exact owe_owed _ _ hj h
    · exact h

/-! ### Statements -/

/-- `t` has the versions, the rows of `policies` and the log of `s`. -/
structure Same (s t : Store ι) : Prop where
  records : t.db.records = s.db.records
  policies : t.db.policies = s.db.policies
  log : t.log = s.log

variable {s i} {H : Host} {t : Store ι}

/-- Only commits write versions or rows of `policies`. -/
theorem step_same {q : Statement} {r : Except PyError q.Answer} (h : step H i q s r t)
    (hq : ∀ ws, q ≠ .commit ws) : Same s t := by
  cases q with
  | commit ws => exact absurd rfl (hq ws)
  | select q => rcases h with ⟨-, rfl⟩ | ⟨-, rfl⟩ <;> exact ⟨rfl, rfl, rfl⟩
  | uuid4 =>
    obtain ⟨-, -, rfl⟩ := h
    exact ⟨rfl, rfl, rfl⟩
  | flushPolicy prior row =>
    rcases h with ⟨-, h⟩ | ⟨-, rfl⟩
    · split at h <;> obtain ⟨-, rfl⟩ := h <;> exact ⟨rfl, rfl, rfl⟩
    · exact ⟨rfl, rfl, rfl⟩
  | flushMandate m => rcases h with ⟨-, rfl⟩ | ⟨-, rfl⟩ | ⟨-, rfl⟩ <;> exact ⟨rfl, rfl, rfl⟩
  | rollback =>
    obtain ⟨-, rfl⟩ := h
    exact ⟨rfl, rfl, rfl⟩
  | uploadPolicy o source =>
    rcases h with ⟨-, rfl⟩ | ⟨-, rfl | rfl⟩
    · unfold load
      split <;> exact ⟨rfl, rfl, rfl⟩
    · exact ⟨rfl, rfl, rfl⟩
    · exact ⟨rfl, rfl, rfl⟩
  | deletePolicy o =>
    rcases h with ⟨-, rfl⟩ | ⟨-, rfl | rfl⟩
    · unfold load
      split <;> exact ⟨rfl, rfl, rfl⟩
    · exact ⟨rfl, rfl, rfl⟩
    · exact ⟨rfl, rfl, rfl⟩
  | submitIntent agent req now =>
    rcases h with ⟨-, rfl⟩ | ⟨-, rfl⟩
    · exact ⟨IntentService.submit_records .., IntentService.submit_policies .., rfl⟩
    · exact ⟨rfl, rfl, rfl⟩

/-- A commit does nothing, or is not refused. -/
theorem step_commit {ws : List Write} {r : Except PyError Unit} (h : step H i (.commit ws) s r t) :
    t = s ∨ r = .ok () ∧ ws.any s.db.refuses = false ∧ t = s.commit i ws := by
  rcases h with h | ⟨-, rfl⟩
  · split at h
    · exact .inl h.2
    · next hrefuses => exact .inr ⟨h.1, by simpa using hrefuses, h.2⟩
  · exact .inl rfl

end Store

end PayReality
