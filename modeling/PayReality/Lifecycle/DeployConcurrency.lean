import PayReality.Lifecycle.Manifests

/-!
# Deployments at the same time

`deploy_policy` compiles a version with the other active versions that it has read, and inserts a row
of `policies` whose manifest lists them. The unique indexes let one deployment after the other pass,
but what the later one has compiled may be older than the commit of the earlier one.

* `Store.current`: the condition on the commit of a deployment, that what the session has compiled is
  what is active, and that its row replaces every active one.
* `Listing`: the invariant.

**Main result** `deployConcurrency`.
-/

namespace PayReality

open Program RuntimePolicyService Service

variable {ι : Type} [DecidableEq ι] {T : Terms ι} {H : Host} {s t : Store ι} {i : ι}

/-! ## The condition -/

/-- The same versions, in any order. -/
def sameVersions (rows rows' : List RuntimePolicyRecord) : Bool :=
  (rows.map RuntimePolicyRecord.ident).isPerm (rows'.map RuntimePolicyRecord.ident)

/-- The row that is flushed replaces every active one of its organization, and what the session has
compiled with the version of its bundle is what is active. -/
def Store.current (s : Store ι) (i : ι) (p : Pending) : Bool :=
  (s.db.policies.all fun q =>
    !(q.isActive && q.organizationId = p.row.organizationId) || p.prior = some q.version) &&
  match p.row.bundleUri with
  | .studio key _ => (s.seen i (.otherActivePolicies key p.row.organizationId)).any fun db₀ =>
      sameVersions (db₀.otherActive key p.row.organizationId)
        (s.db.otherActive key p.row.organizationId)
  | .other _ => false

/-- Every deployment commits what is current. -/
def upToDate (i : ι) : (q : Statement) → Store ι → Except PyError q.Answer → Bool
  | .commit _, s, .ok _ => (s.pending i).all (s.current i)
  | _, _, _ => true

/-! ## What the manifests list -/

/-- The entry of a version in a manifest. -/
def RuntimePolicyRecord.entry (r : RuntimePolicyRecord) : ManifestEntry :=
  BundleBuilder.manifestEntry r.content

/-- An organization has one active row of `policies` at most, and the active versions are those that
it lists. -/
structure Listing (db : Db) : Prop where
  oneRow : ∀ p ∈ db.policies, ∀ q ∈ db.policies, p.status = .active → q.status = .active →
    p.organizationId = q.organizationId → p.version = q.version
  listed : ∀ p ∈ db.policies, p.status = .active → ∃ m, p.bundleManifest = some m ∧
    m.policies.Perm ((db.activeRecords p.organizationId).map RuntimePolicyRecord.entry)
  covered : ∀ r ∈ db.records, r.status = .active →
    ∃ p ∈ db.policies, p.status = .active ∧ p.organizationId = r.organizationId

theorem RuntimePolicyRecord.entry_of_core {r q : RuntimePolicyRecord} (h : r.core = q.core) :
    r.entry = q.entry := by
  have hentry : ∀ r : RuntimePolicyRecord, r.entry = BundleBuilder.manifestEntry r.content.authored :=
    fun _ => rfl
  rw [hentry, hentry, RuntimePolicyRecord.authored_of_core h]

/-- Versions of a table are listed as their numbers are. -/
theorem Db.Sound.entries_perm {db : Db} (hs : db.Sound) {rows rows' : List RuntimePolicyRecord}
    (h : ∀ r ∈ rows, r.core ∈ db.cores) (h' : ∀ r ∈ rows', r.core ∈ db.cores)
    (hidents : (rows.map RuntimePolicyRecord.ident).Perm (rows'.map RuntimePolicyRecord.ident)) :
    (rows.map RuntimePolicyRecord.entry).Perm (rows'.map RuntimePolicyRecord.entry) := by
  -- an entry is found by the number of its version
  let find (k : Uuid × ℕ) : Option ManifestEntry :=
    (db.records.find? fun r => r.ident = k).map RuntimePolicyRecord.entry
  have hfind : ∀ r : RuntimePolicyRecord, r.core ∈ db.cores → find r.ident = some r.entry := by
    intro r hr
    obtain ⟨q, hq, hcore⟩ := Db.exists_of_core hr
    have hident := RuntimePolicyRecord.ident_of_core hcore
    cases hfound : db.records.find? fun q => q.ident = r.ident with
    | none => exact absurd hident (by simpa using List.find?_eq_none.1 hfound q hq)
    | some q' =>
      have hq' : q'.ident = r.ident := by simpa using List.find?_some hfound
      have hsame := hs.eq_of_ident (List.mem_of_find?_eq_some hfound) hq (hq'.trans hident.symm)
      simp only [find, hfound, Option.map_some, hsame, RuntimePolicyRecord.entry_of_core hcore]
  have hmap : ∀ l : List RuntimePolicyRecord, (∀ r ∈ l, r.core ∈ db.cores) →
      (l.map RuntimePolicyRecord.ident).map find = (l.map RuntimePolicyRecord.entry).map some := by
    intro l hl
    rw [List.map_map, List.map_map]
    exact List.map_congr_left fun r hr => hfind r (hl r hr)
  have hperm := hidents.map find
  rw [hmap rows h, hmap rows' h'] at hperm
  exact (List.map_perm_map_iff (Option.some_injective _)).1 hperm

/-! ## A deployment -/

/-- Versions of other keys are not touched by an update. -/
theorem Db.mem_updateRecord_of_ne {db : Db} {key : Uuid} {version : ℕ} {c : RecordColumns}
    {r : RuntimePolicyRecord} (h : r.policyKey ≠ key) :
    r ∈ (db.updateRecord key version c).records ↔ r ∈ db.records := by
  rw [Db.mem_updateRecord]
  constructor
  · rintro ⟨q, hq, rfl⟩
    split at h
    · next hident => exact absurd (congrArg Prod.fst hident) h
    · next hident => rwa [if_neg hident]
  · exact fun hr => ⟨r, hr, (if_neg fun hident => h (congrArg Prod.fst hident)).symm⟩

namespace Deploys

variable {p : Pending} {row r : RuntimePolicyRecord} {bundle : PolicyBundle}
  {replaced : Option RuntimePolicyRecord} {content : RuntimePolicy}

omit [DecidableEq ι] in
/-- Versions of other keys stay as they are. -/
theorem mem_of_ne (hd : Deploys T H i p row bundle replaced content s)
    (hkey : r.policyKey ≠ row.policyKey) :
    r ∈ (s.db.commit (some p) (deployWrites row replaced content)).records ↔ r ∈ s.db.records := by
  rw [Db.commit_deploy, Db.mem_updateRecord_of_ne hkey]
  cases replaced with
  | none => rw [Db.replace, Db.land_records]
  | some q =>
    have hq : r.policyKey ≠ q.policyKey := by rwa [(hd.replaced_core q rfl).1]
    rw [Db.replace]
    split
    · rw [Db.land_records]
    · rw [Db.mem_updateRecord_of_ne hq, Db.land_records]

omit [DecidableEq ι] in
/-- The version is active afterwards. -/
theorem exists_active (hd : Deploys T H i p row bundle replaced content s) :
    ∃ r ∈ (s.db.commit (some p) (deployWrites row replaced content)).records,
      r.ident = row.ident ∧ r.status = .active := by
  obtain ⟨r, hr, hcore⟩ := Db.exists_of_core hd.compiled.core
  have hident := RuntimePolicyRecord.ident_of_core hcore
  have hkept : ∃ q ∈ ((s.db.land (some p)).replace row replaced).records, q.ident = row.ident := by
    cases replaced with
    | none => exact ⟨r, hr, hident⟩
    | some q =>
      rw [Db.replace]
      split
      · exact ⟨r, hr, hident⟩
      · refine ⟨_, Db.mem_updateRecord.2 ⟨r, hr, rfl⟩, ?_⟩
        split <;> exact hident
  obtain ⟨q, hq, hqident⟩ := hkept
  rw [Db.commit_deploy]
  exact ⟨_, Db.mem_updateRecord.2 ⟨q, hq, (if_pos hqident).symm⟩, hqident, rfl⟩

omit [DecidableEq ι] in
/-- The organization of the row is that of the version. -/
theorem org_eq (hd : Deploys T H i p row bundle replaced content s) :
    row.organizationId = p.row.organizationId := hd.compiled.org_eq

omit [DecidableEq ι] in
/-- What is active in an organization afterwards: in that of the version, it and what was active of
other keys. -/
theorem active_idents (hd : Deploys T H i p row bundle replaced content s) (hs : s.db.Sound)
    (hs' : (s.db.commit (some p) (deployWrites row replaced content)).Sound) (o : Option Uuid) :
    (((s.db.commit (some p) (deployWrites row replaced content)).activeRecords o).map
      RuntimePolicyRecord.ident).Perm
      (if o = p.row.organizationId then
        row.ident :: (s.db.otherActive row.policyKey o).map RuntimePolicyRecord.ident
      else (s.db.activeRecords o).map RuntimePolicyRecord.ident) := by
  generalize hdb : s.db.commit (some p) (deployWrites row replaced content) = db at hs' ⊢
  have hmem : ∀ {r}, r.policyKey ≠ row.policyKey → (r ∈ db.records ↔ r ∈ s.db.records) := by
    subst hdb
    exact hd.mem_of_ne
  have hnodup : ∀ {db : Db} (o : Option Uuid), db.Sound →
      ((db.activeRecords o).map RuntimePolicyRecord.ident).Nodup := fun o hs =>
    hs.idents.sublist ((List.filter_sublist).map _)
  -- the versions of this key are in the organization, and one of them is active
  obtain ⟨row₀, hrow₀, hcore₀⟩ := Db.exists_of_core hd.compiled.core
  have horg : ∀ r ∈ s.db.records, r.policyKey = row.policyKey →
      r.organizationId = p.row.organizationId := by
    intro r hr hkey
    rw [hs.organization hr hrow₀ (hkey.trans (RuntimePolicyRecord.key_of_ident
      (RuntimePolicyRecord.ident_of_core hcore₀)).symm), RuntimePolicyRecord.org_of_core hcore₀,
      hd.org_eq]
  have horg' : ∀ r ∈ db.records, r.policyKey = row.policyKey →
      r.organizationId = p.row.organizationId := by
    intro r hr hkey
    subst hdb
    obtain ⟨q, hq, hcore, -⟩ := hd.record_cases hs hr
    rw [RuntimePolicyRecord.org_of_core hcore]
    exact horg q hq ((RuntimePolicyRecord.key_of_ident
      (RuntimePolicyRecord.ident_of_core hcore)).symm.trans hkey)
  obtain ⟨r₁, hr₁, hident₁, hact₁⟩ : ∃ r ∈ db.records, r.ident = row.ident ∧ r.status = .active := by
    subst hdb
    exact hd.exists_active
  have hkey₁ := RuntimePolicyRecord.key_of_ident hident₁
  by_cases ho : o = p.row.organizationId
  · rw [if_pos ho]
    refine (List.perm_ext_iff_of_nodup (hnodup o hs') ?_).2 fun x => ?_
    · refine List.nodup_cons.2 ⟨fun hmem => ?_, (hnodup o hs).sublist ((List.filter_sublist).map _)⟩
      obtain ⟨r, hr, hident⟩ := List.mem_map.1 hmem
      exact (Db.mem_otherActive.1 hr).2.2.2 (RuntimePolicyRecord.key_of_ident hident)
    · rw [List.mem_cons, List.mem_map, List.mem_map]
      constructor
      · rintro ⟨r, hr, rfl⟩
        obtain ⟨hr, hact, hro⟩ := db.mem_activeRecords.1 hr
        by_cases hkey : r.policyKey = row.policyKey
        · exact .inl ((hs'.oneActive r hr r₁ hr₁ hact hact₁ (hkey.trans hkey₁.symm)).trans hident₁)
        · exact .inr ⟨r, Db.mem_otherActive.2 ⟨(hmem hkey).1 hr, hact, hro, hkey⟩, rfl⟩
      · rintro (rfl | ⟨r, hr, rfl⟩)
        · exact ⟨r₁, db.mem_activeRecords.2 ⟨hr₁, hact₁, ho ▸ horg' r₁ hr₁ hkey₁⟩, hident₁⟩
        · obtain ⟨hr, hact, hro, hkey⟩ := Db.mem_otherActive.1 hr
          exact ⟨r, db.mem_activeRecords.2 ⟨(hmem hkey).2 hr, hact, hro⟩, rfl⟩
  · rw [if_neg ho]
    refine (List.perm_ext_iff_of_nodup (hnodup o hs') (hnodup o hs)).2 fun x => ?_
    rw [List.mem_map, List.mem_map]
    refine exists_congr fun r => and_congr_left fun _ => ?_
    rw [Db.mem_activeRecords, Db.mem_activeRecords]
    by_cases hkey : r.policyKey = row.policyKey
    · constructor
      · rintro ⟨hr, -, rfl⟩
        exact absurd (horg' r hr hkey) ho
      · rintro ⟨hr, -, rfl⟩
        exact absurd (horg r hr hkey) ho
    · rw [hmem hkey]

end Deploys

omit [DecidableEq ι] in
/-- The condition on the commit of a deployment. -/
theorem current_iff {p : Pending} {key : Uuid} {version : ℕ} (huri : p.row.bundleUri = .studio key version) :
    s.current i p = true ↔
      (∀ q ∈ s.db.policies, q.status = .active → q.organizationId = p.row.organizationId →
        p.prior = some q.version) ∧
      ∃ db₀, s.seen i (.otherActivePolicies key p.row.organizationId) = some db₀ ∧
        ((db₀.otherActive key p.row.organizationId).map RuntimePolicyRecord.ident).Perm
          ((s.db.otherActive key p.row.organizationId).map RuntimePolicyRecord.ident) := by
  simp only [Store.current, huri, sameVersions, Bool.and_eq_true, List.all_eq_true, Option.any_eq_true,
    Bool.or_eq_true, Bool.not_eq_true', Bool.and_eq_false_iff, PolicyRow.isActive, decide_eq_true_eq,
    decide_eq_false_iff_not, List.isPerm_iff]
  refine and_congr_left fun _ => forall₂_congr fun q _ => ?_
  by_cases hact : q.status = .active
  · by_cases horg : q.organizationId = p.row.organizationId <;> simp [hact, horg]
  · simp [hact]

namespace Listing

variable {p : Pending} {row : RuntimePolicyRecord} {bundle : PolicyBundle}
  {replaced : Option RuntimePolicyRecord} {content : RuntimePolicy}

omit [DecidableEq ι] in
/-- The row of `policies` that a deployment inserts lists what it has compiled. -/
theorem deployed_manifest (hd : Deploys T H i p row bundle replaced content s) {db₀ : Db}
    (hseen : s.seen i (.otherActivePolicies row.policyKey p.row.organizationId) = some db₀) :
    bundle.manifest.policies =
      (row :: Db.byKey (db₀.otherActive row.policyKey p.row.organizationId)).map
        RuntimePolicyRecord.entry := by
  obtain ⟨db₁, now, hseen₁, ⟨errors, hcompile⟩, -⟩ := hd.compiled.others
  obtain rfl : db₁ = db₀ := Option.some.inj (hseen₁.symm.trans hseen)
  obtain ⟨-, -, -, hbuild⟩ := CompilerV2.compileBundle_ok hcompile
  obtain ⟨-, -, -, hmanifest, -⟩ := CompilerV2.buildBundle_ok hbuild
  rw [hmanifest, BundleBuilder.manifestOf]
  simp only [List.map_cons, List.map_map]
  rfl

omit [DecidableEq ι] in
/-- The row of `policies` that is inserted lists what is active then, if what the session has compiled
still is. -/
theorem deployed_listed (hinv : Inv T s) (hpending : s.pending i = some p)
    (hd : Deploys T H i p row bundle replaced content s) {db₀ : Db}
    (hseen : s.seen i (.otherActivePolicies row.policyKey p.row.organizationId) = some db₀)
    (hcores : db₀.cores ⊆ s.db.cores)
    (hsame : ((db₀.otherActive row.policyKey p.row.organizationId).map RuntimePolicyRecord.ident).Perm
      ((s.db.otherActive row.policyKey p.row.organizationId).map RuntimePolicyRecord.ident)) :
    bundle.manifest.policies.Perm
      (((s.db.commit (some p) (deployWrites row replaced content)).activeRecords
        p.row.organizationId).map RuntimePolicyRecord.entry) := by
  have hs' := hd.sound hinv.db (hinv.next i p hpending).2 (hinv.slot i p hpending)
  have hidents := hd.active_idents hinv.db hs' p.row.organizationId
  rw [deployed_manifest hd hseen]
  refine hinv.db.entries_perm (fun r hr => ?_) (fun r hr => ?_) ?_
  · rcases List.mem_cons.1 hr with rfl | hr
    · exact hd.compiled.core
    · exact hcores (Db.mem_cores (Db.mem_otherActive.1 ((List.mem_insertionSort _).1 hr)).1)
  · rw [← hd.cores hinv.db]
    exact Db.mem_cores (Db.mem_activeRecords _ |>.1 hr).1
  · refine List.Perm.trans ?_ hidents.symm
    rw [if_pos rfl, List.map_cons]
    exact .cons _ (((List.perm_insertionSort _ _).map _).trans hsame)

omit [DecidableEq ι] in
/-- The active rows of `policies` after a deployment: its own, and those of other organizations. -/
theorem active_cases (hinv : Inv T s) (hpending : s.pending i = some p)
    (hd : Deploys T H i p row bundle replaced content s)
    (hprior : ∀ q ∈ s.db.policies, q.status = .active → q.organizationId = p.row.organizationId →
      p.prior = some q.version) {q : PolicyRow} :
    (q ∈ (s.db.commit (some p) (deployWrites row replaced content)).policies ∧ q.status = .active) ↔
      q = p.row ∨ q ∈ s.db.policies ∧ q.status = .active ∧ q.organizationId ≠ p.row.organizationId := by
  rw [Db.commit_policies, Db.land, List.mem_append, List.mem_map, List.mem_singleton]
  constructor
  · rintro ⟨⟨q₀, hq₀, rfl⟩ | rfl, hact⟩
    · right
      unfold Db.retirePolicy at hact ⊢
      split at hact
      · cases hact
      · next hne =>
        rw [if_neg hne]
        exact ⟨hq₀, hact, fun horg => hne (hprior q₀ hq₀ hact horg)⟩
    · exact .inl rfl
  · rintro (rfl | ⟨hq, hact, hne⟩)
    · exact ⟨.inr rfl, (hinv.next i p hpending).1⟩
    · refine ⟨.inl ⟨q, hq, ?_⟩, hact⟩
      -- the row that is retired is one of the organization
      rw [Db.retirePolicy, if_neg]
      intro hv
      obtain ⟨q', hq', hcore⟩ := List.mem_map.1 (hd.prior q.version hv)
      have hsame : q' = q :=
        List.inj_on_of_nodup_map hinv.db.versions hq' hq (congrArg Prod.fst hcore)
      rw [← hsame] at hne
      exact hne (congrArg Prod.snd hcore)

omit [DecidableEq ι] in
/-- **A deployment of what is current keeps it.** -/
theorem deploy (h : Listing s.db) (hinv : Inv T s) (hpending : s.pending i = some p)
    (hd : Deploys T H i p row bundle replaced content s)
    (hcores : ∀ q db₀, s.seen i q = some db₀ → db₀.cores ⊆ s.db.cores)
    (hc : s.current i p = true) :
    Listing (s.db.commit (some p) (deployWrites row replaced content)) := by
  obtain ⟨hprior, db₀, hseen, hsame⟩ := (current_iff hd.uri).1 hc
  have hrows := fun q => active_cases (q := q) hinv hpending hd hprior
  have hs' := hd.sound hinv.db (hinv.next i p hpending).2 (hinv.slot i p hpending)
  have hidents := hd.active_idents hinv.db hs'
  have hnew := deployed_listed hinv hpending hd hseen (hcores _ _ hseen) hsame
  have hin : ∀ r ∈ (s.db.commit (some p) (deployWrites row replaced content)).records,
      r.core ∈ s.db.cores := fun r hr => hd.cores hinv.db ▸ Db.mem_cores hr
  generalize s.db.commit (some p) (deployWrites row replaced content) = db at hrows hs' hidents hin hnew ⊢
  have hactive : ∀ o, ∀ r ∈ db.activeRecords o, r.core ∈ s.db.cores := fun o r hr =>
    hin r (db.mem_activeRecords.1 hr).1
  refine ⟨fun q hq q' hq' hact hact' horg => ?_, fun q hq hact => ?_, fun r hr hact => ?_⟩
  · rcases (hrows q).1 ⟨hq, hact⟩ with rfl | ⟨hq, -, hne⟩
    · rcases (hrows q').1 ⟨hq', hact'⟩ with rfl | ⟨-, -, hne⟩
      · rfl
      · exact absurd horg.symm hne
    · rcases (hrows q').1 ⟨hq', hact'⟩ with rfl | ⟨hq', -, -⟩
      · exact absurd horg hne
      · exact h.oneRow q hq q' hq' hact hact' horg
  · rcases (hrows q).1 ⟨hq, hact⟩ with rfl | ⟨hq, -, hne⟩
    · exact ⟨bundle.manifest, hd.manifest, hnew⟩
    · obtain ⟨m, hm, hlisted⟩ := h.listed q hq hact
      refine ⟨m, hm, hlisted.trans (hinv.db.entries_perm ?_ (hactive _) ?_)⟩
      · exact fun r hr => Db.mem_cores (s.db.mem_activeRecords.1 hr).1
      · have := hidents q.organizationId
        rw [if_neg hne] at this
        exact this.symm
  · by_cases horg : r.organizationId = p.row.organizationId
    · exact ⟨p.row, ((hrows p.row).2 (.inl rfl)).1, ((hrows p.row).2 (.inl rfl)).2, horg.symm⟩
    · have hmem := List.mem_map_of_mem (f := RuntimePolicyRecord.ident)
        (db.mem_activeRecords.2 ⟨hr, hact, rfl⟩)
      have hperm := hidents r.organizationId
      rw [if_neg horg] at hperm
      obtain ⟨r₀, hr₀, -⟩ := List.mem_map.1 (hperm.subset hmem)
      obtain ⟨hr₀, hact₀, horg₀⟩ := s.db.mem_activeRecords.1 hr₀
      obtain ⟨q, hq, hqact, hqorg⟩ := h.covered r₀ hr₀ hact₀
      have hq' := (hrows q).2 (.inr ⟨hq, hqact, by rwa [hqorg, horg₀]⟩)
      exact ⟨q, hq'.1, hqact, hqorg.trans horg₀⟩

end Listing

/-! ## Runs -/

/-- Runs of deployments only. -/
def Terms.deploys (ι : Type) : Terms ι where
  plain _ := False
  gate _ _ _ _ _ := True
  trail := False
  gate_later _ _ := trivial

theorem deployments_keep : ∀ p ∈ programs H.toPlatform {op | op.direct},
    (contract (Terms.deploys ι) H).Keeps p := by
  rintro _ ⟨op, hdirect, rfl⟩
  cases op with
  | deployPolicy key o now =>
    refine Logic.Keeps.run fun i s _ hidle => ?_
    exact wp_mono (wp_deployPolicy hidle (by simp) fun _ _ _ _ => trivial) (fun _ _ h => h.idle)
      fun _ _ h => h.idle
  | _ => cases hdirect

/-- A store in which no deployment is going on. -/
structure Store.Ready (s : Store ι) : Prop where
  sound : s.db.Sound
  listing : Listing s.db
  pending : ∀ i, s.pending i = none
  seen : ∀ i q, s.seen i q = none

omit [DecidableEq ι] in
theorem Store.Ready.inv (h : s.Ready) : Inv (Terms.deploys ι) s where
  db := h.sound
  next i p hp := by simp [h.pending i] at hp
  single i j p q hp := by simp [h.pending i] at hp
  slot i p hp := by simp [h.pending i] at hp
  trailed ht := ht.elim

/-- What deployments of what is current keep. -/
structure Deployed (s : Store ι) : Prop where
  listing : Listing s.db
  seen : ∀ j q db₀, s.seen j q = some db₀ → db₀.cores ⊆ s.db.cores

omit [DecidableEq ι] in
theorem Listing.of_eq {db db' : Db} (h : Listing db) (hr : db'.records = db.records)
    (hp : db'.policies = db.policies) : Listing db' := by
  obtain ⟨h₁, h₂, h₃⟩ := h
  refine ⟨by rwa [hp], ?_, by rwa [hr, hp]⟩
  unfold Db.activeRecords at h₂ ⊢
  rwa [hr, hp]

/-- **Every statement keeps it.** -/
theorem Deployed.step (h : Deployed s) {q : Statement} {r : Except PyError q.Answer}
    (hinv : Inv (Terms.deploys ι) s) (hpre : Pre (Terms.deploys ι) H i q s)
    (hstep : Store.step H i q s r t) (hc : upToDate i q s r = true) : Deployed t := by
  refine ⟨?_, Store.seen_cores hstep (hinv.cores_step hpre hstep) h.seen⟩
  cases q with
  | commit ws =>
    rcases Store.step_commit hstep with rfl | ⟨rfl, -, rfl⟩
    · exact h.listing
    cases hpending : s.pending i with
    | none =>
      rw [Pre, hpending] at hpre
      obtain ⟨w, -, hplain, -⟩ := hpre
      exact hplain.elim
    | some p =>
      rw [Pre, hpending] at hpre
      obtain ⟨row, bundle, replaced, content, rfl, hd⟩ := hpre
      have hcurrent : s.current i p = true := by simpa [upToDate, hpending] using hc
      rw [Store.commit_db, hpending]
      exact h.listing.deploy hinv hpending hd (h.seen i) hcurrent
  | _ =>
    have hsame := Store.step_same hstep (by simp)
    exact h.listing.of_eq hsame.records hsame.policies

/-- What is committed in a run of deployments. -/
structure ConsistentDeploys (db : Db) : Prop extends Listing db where
  versions : (db.policies.map PolicyRow.version).Nodup
  oneActive : ∀ r ∈ db.records, ∀ r' ∈ db.records, r.status = .active → r'.status = .active →
    r.policyKey = r'.policyKey → r = r'

/-- Runs of deployments whose commits are of what is current. -/
theorem deployments_consistent {w : World Statement Statement.Answer PyError (Store ι) ι}
    (h : Reach ((machine H ι).restrict fun i q s r => upToDate i q s r = true)
      (programs H.toPlatform {op | op.direct}) Store.Ready w) : ConsistentDeploys w.store.db := by
  have hdeployed : Deployed w.store := by
    refine h.invariant deployments_keep (fun s hs => ⟨hs.inv, hs.pending⟩) (fun s hs => ?_)
      fun i q s r t hinv _ hpre hstep hc hs => hs.step hinv hpre hstep hc
    exact ⟨hs.listing, fun j q db₀ hq => by simp [hs.seen j q] at hq⟩
  have hsound := (h.of_restrict.sound deployments_keep fun s hs => ⟨hs.inv, hs.pending⟩).1.db
  refine ⟨hdeployed.listing, hsound.versions, fun r hr r' hr' hact hact' hkey => ?_⟩
  exact hsound.eq_of_ident hr hr' (hsound.oneActive r hr r' hr' hact hact' hkey)

/-! ## Deployments that raise -/

/-- What a process has sent, and what it was answered. -/
abbrev SentTrace : Type := List (Answered Statement Statement.Answer PyError)

/-- Nothing has been committed, or the row of `policies` that was inserted could not be read again. -/
def Spared (tr : SentTrace) : Prop :=
  (∀ ws, ⟨.commit ws, .ok ()⟩ ∉ tr) ∨ ∃ v e, ⟨.select (.policyRow v), .error e⟩ ∈ tr

/-- A statement that commits nothing. -/
def Statement.quiet : Statement → Prop
  | .commit _ => False
  | _ => True

abbrev Any : Statement → SentTrace → Prop := fun _ _ => True

section

variable {α : Type} {tr : SentTrace} {P : Platform} {key : Uuid} {o : Option Uuid} {now : Timestamp}
  {row : RuntimePolicyRecord} {bundle : PolicyBundle} {version : ℕ}

theorem Spared.append (h : Spared tr) {q : Statement} (hq : q.quiet) (r : Except PyError q.Answer) :
    Spared (tr ++ [⟨q, r⟩]) := by
  rcases h with h | ⟨v, e, h⟩
  · refine .inl fun ws hmem => ?_
    rcases List.mem_append.1 hmem with hmem | hmem
    · exact h ws hmem
    · cases List.mem_singleton.1 hmem
      exact hq
  · exact .inr ⟨v, e, List.mem_append_left _ h⟩

/-- A program that commits nothing. -/
theorem sending_quiet {p : Service α} {R : α → Prop}
    (hp : Sends Statement.quiet (fun _ _ => True) p R) (htr : Spared tr) :
    Sending Any p (fun _ => Spared) (fun _ => Spared) tr := by
  induction p generalizing tr with
  | ret a => exact htr
  | raise e => exact htr
  | call q k ih => exact ⟨trivial, fun r => ih r (hp.2 r trivial) (htr.append hp.1 r)⟩

theorem quiet_select (q : Select) :
    Sends Statement.quiet (fun _ _ => True) (Service.select q) fun _ => True :=
  sends_send trivial fun _ _ => trivial

theorem quiet_reconcile : Sends Statement.quiet (fun _ _ => True)
    (reconcileOrganizationOpaState o now) fun _ => True := by
  refine sends_bind (sends_mono (quiet_select _) fun rows _ => ?_)
  split
  · exact sends_send trivial fun _ _ => trivial
  · refine sends_bind (sends_mono sends_lift fun result _ => ?_)
    split
    · trivial
    · exact sends_send trivial fun _ _ => trivial

theorem quiet_ensureMandate {constraints : Constraints} : Sends Statement.quiet (fun _ _ => True)
    (ensureMandate P constraints version now) fun _ => True := by
  unfold ensureMandate
  split
  · split
    · trivial
    · refine sends_bind (sends_mono (quiet_select _) fun authority _ => ?_)
      split
      · trivial
      · exact sends_bind (sends_send trivial fun id _ => sends_bind (sends_send trivial fun _ _ => trivial))
  · trivial

theorem sending_publish (htr : Spared tr) :
    Sending Any (publish P row o version bundle now) (fun _ _ => True) (fun _ => Spared) tr := by
  refine sending_seq (sending_quiet (sends_send trivial fun _ _ => trivial) htr) fun _ tr htr => ?_
  refine sending_seq (sending_quiet (quiet_select _) htr) fun replaced tr htr => ?_
  refine sending_seq (sending_quiet quiet_ensureMandate htr) fun constraints tr htr => ?_
  refine sending_bind (sending_send trivial (fun _ => trivial) fun e => ?_)
  rcases htr with h | ⟨v, e', h⟩
  · refine .inl fun ws hmem => ?_
    rcases List.mem_append.1 hmem with hmem | hmem
    · exact h ws hmem
    · cases List.mem_singleton.1 hmem
  · exact .inr ⟨v, e', List.mem_append_left _ h⟩

theorem sending_deployBundle (htr : Spared tr) :
    Sending Any (deployBundle P row o bundle now) (fun _ _ => True) (fun _ => Spared) tr := by
  refine sending_seq (sending_quiet (quiet_select _) htr) fun prior tr htr => ?_
  dsimp only
  split
  · exact htr
  refine sending_seq (sending_quiet (quiet_select _) htr) fun version tr htr => ?_
  refine sending_seq (sending_quiet (sends_send trivial fun _ _ => trivial) htr) fun _ tr htr => ?_
  refine sending_seq (S := fun _ _ => True) (sending_tryCatch (sending_mono (sending_publish htr)
    (fun _ _ _ => trivial) fun e tr htr => ?_)) fun constraints tr _ => ?_
  · refine sending_seq (sending_quiet (sends_send trivial fun _ _ => trivial) htr) fun _ tr htr => ?_
    exact sending_seq (sending_quiet quiet_reconcile htr) fun _ tr htr => htr
  · refine sending_bind (sending_send trivial (fun _ => trivial) fun e => .inr ⟨version + 1, e, ?_⟩)
    exact List.mem_append_right _ (List.mem_singleton_self _)

theorem sending_deployPolicyAttempt {held : Option RuntimePolicyRecord} (htr : Spared tr) :
    Sending Any (deployPolicyAttempt P key o now held) (fun _ _ => True) (fun _ => Spared) tr := by
  have hlatest : Sends Statement.quiet (fun _ _ => True) (getLatest key o held) fun _ => True := by
    refine sends_bind (sends_mono (quiet_select _) fun found _ => ?_)
    cases found <;> trivial
  have hothers : Sends Statement.quiet (fun _ _ => True) (otherActivePolicies key o) fun _ => True :=
    sends_bind (sends_mono (quiet_select _) fun _ _ => trivial)
  refine sending_seq (sending_quiet hlatest htr) fun row tr htr => ?_
  dsimp only
  split
  · exact htr
  refine sending_seq (sending_quiet hothers htr) fun others tr htr => ?_
  refine sending_seq (sending_quiet sends_lift htr) fun result tr htr => ?_
  split
  · exact htr
  split
  · exact htr
  · exact sending_deployBundle htr

theorem sending_deployAttempts {n : ℕ} {held : Option RuntimePolicyRecord} (htr : Spared tr) :
    Sending Any (deployAttempts P key o now n held) (fun _ _ => True) (fun _ => Spared) tr := by
  induction n generalizing held tr with
  | zero => exact sending_seq (sending_quiet quiet_reconcile htr) fun _ tr htr => htr
  | succ n ih =>
    refine sending_tryCatch (sending_mono (sending_deployPolicyAttempt htr) (fun _ _ h => h)
      fun e tr htr => ?_)
    split
    · exact sending_seq (sending_quiet (sends_send trivial fun _ _ => trivial) htr) fun _ tr htr => ih htr
    · exact htr

end

/-- A deployment that raises has left the versions and the rows of `policies` as they were. -/
theorem deployPolicy_raises {key : Uuid} {o : Option Uuid} {now : Timestamp}
    {acts : List (Act Statement Statement.Answer PyError (Store ι))} {e : PyError}
    (h : Acts (machine H ι) i (deployPolicy H.toPlatform key o now) acts (.raise e))
    (hread : ∀ a ∈ acts, ∀ v e', (⟨a.q, a.answer⟩ : Answered Statement Statement.Answer PyError) ≠
      ⟨.select (.policyRow v), .error e'⟩) :
    ∀ a ∈ acts, a.after.db.records = a.before.db.records ∧
      a.after.db.policies = a.before.db.policies := by
  have hspared : Spared (acts.map fun a => ⟨a.q, a.answer⟩) :=
    Acts.sending h (sending_deployAttempts (.inl fun _ => List.not_mem_nil))
  rintro ⟨q, s, r, t⟩ ha
  have hstep : Store.step H i q s r t := h.step _ ha
  have hmem := List.mem_map_of_mem (f := fun a : Act Statement Statement.Answer PyError (Store ι) =>
    (⟨a.q, a.answer⟩ : Answered Statement Statement.Answer PyError)) ha
  cases q with
  | commit ws =>
    rcases Store.step_commit hstep with rfl | ⟨rfl, -, -⟩
    · exact ⟨rfl, rfl⟩
    rcases hspared with hnone | ⟨v, e', hunread⟩
    · exact absurd hmem (hnone ws)
    · obtain ⟨a, ha, heq⟩ := List.mem_map.1 hunread
      exact absurd heq (hread a ha v e')
  | select | uuid4 | flushPolicy | flushMandate | rollback | uploadPolicy | deletePolicy
    | submitIntent =>
    have hsame := Store.step_same hstep (by simp)
    exact ⟨hsame.records, hsame.policies⟩

/-- **Deployments at the same time.** In every run of deployments whose commits are of what is current,
the versions and the rows of `policies` that are committed are consistent; and a deployment that raises
has left them as they were, unless it could not read its row again. -/
theorem deployConcurrency {w : World Statement Statement.Answer PyError (Store ι) ι}
    (h : Reach ((machine H ι).restrict fun i q s r => upToDate i q s r = true)
      (programs H.toPlatform {op | op.direct}) Store.Ready w) :
    ConsistentDeploys w.store.db ∧
    ∀ i key o now acts e,
      Acts (machine H ι) i (deployPolicy H.toPlatform key o now) acts (.raise e) →
      (∀ a ∈ acts, ∀ v e', (⟨a.q, a.answer⟩ : Answered Statement Statement.Answer PyError) ≠
        ⟨.select (.policyRow v), .error e'⟩) →
      ∀ a ∈ acts, a.after.db.records = a.before.db.records ∧
        a.after.db.policies = a.before.db.policies :=
  ⟨deployments_consistent h, fun _ _ _ _ _ _ hacts hread => deployPolicy_raises hacts hread⟩

/-! ### Two deployments -/

/-- A database with two compiled versions of two keys. -/
def compiledBoth (o : Option Uuid) : World Statement Statement.Answer PyError (Store (Fin 1)) (Fin 1) :=
  performAlone (author 1 (samplePolicy "1" "ops") o ++ author 2 (samplePolicy "2" "sales") (some 7))

/-- Deployments of two processes that take turns. -/
def deployInTurns {M : Machine Statement Statement.Answer PyError (Store Bool) Bool} (S : Schedule M)
    (o : Option Uuid) (ts : List (Bool × Option (Uuid × Option Uuid) × ℕ)) :
    World Statement Statement.Answer PyError (Store Bool) Bool :=
  S.play (ts.map fun t => ⟨t.1, t.2.1.map fun d =>
    (Operation.deployPolicy d.1 d.2 3).program sampleHost.toPlatform, t.2.2⟩)
    ⟨{ Store.empty Bool with db := (compiledBoth o).store.db }, fun _ => none⟩

theorem deployInTurns_reach {M : Machine Statement Statement.Answer PyError (Store Bool) Bool}
    (S : Schedule M) {o : Option Uuid} (ts : List (Bool × Option (Uuid × Option Uuid) × ℕ))
    (h : (compiledBoth o).store.db.policies.isEmpty = true ∧
      ∀ r ∈ (compiledBoth o).store.db.records, r.status ≠ .active) :
    Reach M (programs sampleHost.toPlatform {op | op.direct}) Store.Ready (deployInTurns S o ts) := by
  have hpolicies : (compiledBoth o).store.db.policies = [] := List.isEmpty_iff.1 h.1
  refine Schedule.play_reach (.init ⟨performAlone_sound _, ⟨?_, ?_, ?_⟩, fun _ => rfl, fun _ _ => rfl⟩)
    fun t ht p hp => ?_
  · intro p hp
    rw [hpolicies] at hp
    cases hp
  · intro p hp
    rw [hpolicies] at hp
    cases hp
  · exact fun r hr hact => absurd hact (h.2 r hr)
  · obtain ⟨e, -, rfl⟩ := List.mem_map.1 ht
    obtain ⟨d, -, rfl⟩ := Option.map_eq_some_iff.1 hp
    exact ⟨.deployPolicy d.1 d.2 3, trivial, rfl⟩

/-- The second organization's deployment commits within the first one's. -/
def deployedApart : World Statement Statement.Answer PyError (Store Bool) Bool :=
  deployInTurns ((Store.schedule sampleHost).restrict upToDate) none
    [(true, some (1, none), 3), (false, some (2, some 7), 64), (true, none, 64)]

theorem deployConcurrency_apart :
    (deployedApart.store.db.policies.filter PolicyRow.isActive).length = 2 ∧
    ConsistentDeploys deployedApart.store.db := by
  have hready : (compiledBoth none).store.db.policies.isEmpty = true ∧
      ∀ r ∈ (compiledBoth none).store.db.records, r.status ≠ .active := by
    decide +kernel
  have hrun : Reach ((machine sampleHost Bool).restrict fun i q s r => upToDate i q s r = true)
      (programs sampleHost.toPlatform {op | op.direct}) Store.Ready deployedApart :=
    deployInTurns_reach _ _ hready
  exact ⟨by decide +kernel, (deployConcurrency hrun).1⟩

/-- The second deployment is of the same organization, and commits after the first one has listed what
is active, and before it reads the row that it replaces. -/
def deployedTogether : World Statement Statement.Answer PyError (Store Bool) Bool :=
  deployInTurns (Store.schedule sampleHost) (some 7)
    [(true, some (1, some 7), 2), (false, some (2, some 7), 64), (true, none, 64)]

/-- Two versions are active, and the active row of `policies` lists one. -/
theorem deployments_lose_update : ∃ w : World Statement Statement.Answer PyError (Store Bool) Bool,
    Reach (machine sampleHost Bool) (programs sampleHost.toPlatform {op | op.direct}) Store.Ready w ∧
    (∀ i, w.running i = none) ∧ (w.store.db.activeRecords (some 7)).length = 2 ∧
    (∃ p ∈ w.store.db.policies, p.status = .active ∧ p.organizationId = some 7 ∧
      ∃ m ∈ p.bundleManifest, m.policies.length = 1) ∧
    ¬ ConsistentDeploys w.store.db := by
  have hready : (compiledBoth (some 7)).store.db.policies.isEmpty = true ∧
      ∀ r ∈ (compiledBoth (some 7)).store.db.records, r.status ≠ .active := by
    decide +kernel
  obtain ⟨hidle, hactive, p, hp, hact, horg, m, hm, hlength⟩ :
      (∀ i, (deployedTogether.running i).isNone = true) ∧
      (deployedTogether.store.db.activeRecords (some 7)).length = 2 ∧
      ∃ p ∈ deployedTogether.store.db.policies, p.status = .active ∧ p.organizationId = some 7 ∧
        ∃ m ∈ p.bundleManifest, m.policies.length = 1 := by
    decide +kernel
  have hrun : Reach (machine sampleHost Bool) (programs sampleHost.toPlatform {op | op.direct})
      Store.Ready deployedTogether := deployInTurns_reach _ _ hready
  refine ⟨deployedTogether, hrun, fun i => Option.isNone_iff_eq_none.1 (hidle i), hactive,
    ⟨p, hp, hact, horg, m, hm, hlength⟩, fun h => ?_⟩
  obtain ⟨m', hm', hlisted⟩ := h.listed p hp hact
  obtain rfl : m' = m := Option.some.inj (hm'.symm.trans hm)
  have hsame := hlisted.length_eq
  rw [hlength, List.length_map, horg, hactive] at hsame
  cases hsame

end PayReality
