import PayReality.Lifecycle.DeployConcurrency

/-!
# The safety checks and the active versions

An activation runs the safety checks, and deploys the version in a later transaction; a direct deploy
runs none. So what becomes active has passed the checks beside the versions that were active when they
were run.

* `Store.vetted`: the condition on the commit of a deploy, that the same versions are active.
* `Guarded`: the invariant.

**Main result** `safetyGate`.
-/

namespace PayReality

open Program RuntimePolicyService SafetyChecks Service

variable {ι : Type} [DecidableEq ι] {H : Host} {s t : Store ι} {i : ι}

/-! ## The condition -/

/-- The versions that are active are those beside which the session has run the checks of the version
that it deploys. -/
def Store.vetted (s : Store ι) (i : ι) (p : Pending) : Bool :=
  match p.row.bundleUri with
  | .studio key _ =>
      (s.seen i (.otherActiveRuntimePolicies key p.row.organizationId)).any fun db₀ =>
        sameVersions (db₀.otherActive key p.row.organizationId)
          (s.db.otherActive key p.row.organizationId)
  | .other _ => false

/-- Every deploy commits what is vetted. -/
def vetted (i : ι) : (q : Statement) → Store ι → Except PyError q.Answer → Bool
  | .commit _, s, .ok _ => (s.pending i).all (s.vetted i)
  | _, _, _ => true

/-- The operations that activate a version behind the safety checks. -/
def Operation.activates : Operation → Prop
  | .activatePolicy _ _ _ _ _ | .processDueSchedules _ => True
  | _ => False

/-! ## The active versions -/

/-- The contents of the active versions of an organization. -/
def Db.activePolicies (db : Db) (o : Option Uuid) : List RuntimePolicy :=
  (db.activeRecords o).map RuntimePolicyRecord.content

/-- The active versions of an organization have different authorities, and no circular delegation. -/
structure Guarded (P : Platform) (db : Db) : Prop where
  distinct : ∀ o, ∀ r ∈ db.activeRecords o, ∀ q ∈ db.activeRecords o,
    authoritySignature r.content = authoritySignature q.content → r.ident = q.ident
  acyclic : ∀ o, Acyclic ((db.activePolicies o).filterMap (delegation P))

namespace Guarded

variable {P : Platform} {db db' : Db}

/-- No version becomes active. -/
theorem of_actives (h : Guarded P db) (hactives : ∀ o, ∀ r ∈ db'.activeRecords o,
    ∃ q ∈ db.activeRecords o, q.ident = r.ident ∧ q.content.authored = r.content.authored) :
    Guarded P db' := by
  refine ⟨fun o r hr q hq hsame => ?_, fun o => (h.acyclic o).mono (delegations_subset P ?_)⟩
  · obtain ⟨r₀, hr₀, hident, hauthored⟩ := hactives o r hr
    obtain ⟨q₀, hq₀, hqident, hqauthored⟩ := hactives o q hq
    rw [← hident, ← hqident]
    refine h.distinct o r₀ hr₀ q₀ hq₀ ?_
    rw [authoritySignature_of_authored hauthored, authoritySignature_of_authored hqauthored, hsame]
  · intro x hx
    obtain ⟨r, hr, rfl⟩ := List.mem_map.1 hx
    obtain ⟨q, hq, -, hauthored⟩ := hactives o r hr
    exact ⟨q.content, List.mem_map_of_mem hq, hauthored⟩

end Guarded

/-! ## What has passed the checks -/

/-- Only the principals of a database are looked up. -/
theorem SafetyChecks.Clean.of_principals {P : Platform} {db db' : Db} {c : RuntimePolicy}
    {o : Option Uuid} {ps : List RuntimePolicy} (h : Clean P db c o ps)
    (hp : db'.principals = db.principals) : Clean P db' c o ps := by
  have hprincipal : dbPrincipal db' o = dbPrincipal db o := by
    funext id
    rw [dbPrincipal, dbPrincipal, Db.principal, Db.principal, hp]
  refine ⟨h.valid, h.distinct, ?_, ?_, h.acyclic⟩
  · have := h.inherits
    unfold dbBroken dbDelegator at this ⊢
    rwa [hprincipal, hp]
  · have := h.principal
    unfold dbMissing at this ⊢
    rwa [hprincipal]

/-- Activations, behind the safety checks. -/
def Terms.checked (ι : Type) (P : Platform) : Terms ι where
  plain w := ∀ row, w ≠ .insertRecord row
  gate i key version o s := ∃ db₀, s.seen i (.otherActiveRuntimePolicies key o) = some db₀ ∧
    s.db.principals = db₀.principals ∧ ∃ c ∈ s.db.cores, c.1 = (key, version) ∧
      Clean P db₀ c.2.2 o ((db₀.otherActive key o).map RuntimePolicyRecord.content)
  trail := False
  gate_later := by
    rintro i key version o s t hst ⟨db₀, hseen, hprincipals, c, hc, hident, hclean⟩
    exact ⟨db₀, (hst.gates key o).trans hseen, hst.db.principals.trans hprincipals, c,
      hst.db.cores.subset hc, hident, hclean⟩

omit [DecidableEq ι] in
theorem Terms.checked_passes {P : Platform} : (Terms.checked ι P).Passes P := by
  rintro i key o row s db₀ hrow hpassed row' t hst hrow'
  have hfixed : Fixed (Terms.checked ι P).plain := fun row hplain => hplain row rfl
  -- no version is inserted, so the latest one is the one that was checked
  have hversion : row'.version = row.version := by
    refine le_antisymm (hrow.latest hfixed row'.core ?_ hrow'.key_eq hrow'.org_eq)
      (hrow'.latest hfixed row.core (hst.db.cores.subset hrow.core) hrow.key_eq hrow.org_eq)
    rw [← hst.fixed hfixed]
    exact hrow'.core
  rw [hrow'.key_eq, hversion]
  refine ⟨db₀, (hst.gates key o).trans hpassed.seen, hst.db.principals.trans hpassed.principals,
    row.core, hst.db.cores.subset hrow.core, ?_, hpassed.clean.of_authored _ rfl ?_ ?_⟩
  · rw [← hrow.key_eq]
    rfl
  · exact fun q hq => ⟨q, hq, rfl⟩
  · exact fun q hq => ⟨q, hq, rfl⟩

theorem activations_keep : ∀ p ∈ programs H.toPlatform {op | op.activates},
    (contract (Terms.checked ι H.toPlatform) H).Keeps p := by
  rintro _ ⟨op, hop, rfl⟩
  have hchecked : ¬ op.inserts ∧ ¬ op.direct := by
    cases op with
    | activatePolicy | processDueSchedules => exact ⟨id, id⟩
    | _ => cases hop
  exact op.keeps (fun w h => h) Terms.checked_passes (fun h => absurd h hchecked.1)
    fun h => absurd h hchecked.2

/-! ## A deploy of what is vetted -/

section Deploy

variable {p : Pending} {row : RuntimePolicyRecord} {bundle : PolicyBundle}
  {replaced : Option RuntimePolicyRecord} {content : RuntimePolicy}

omit [DecidableEq ι] in
/-- Of two tables of versions that are authored alike, the same versions have the same policies. -/
theorem Db.Sound.authoredIn {db : Db} (hs : db.Sound) {rows rows' : List RuntimePolicyRecord}
    (h : ∀ r ∈ rows, r.core ∈ db.cores) (h' : ∀ r ∈ rows', r.core ∈ db.cores)
    (hidents : rows.map RuntimePolicyRecord.ident ⊆ rows'.map RuntimePolicyRecord.ident) :
    AuthoredIn (rows.map RuntimePolicyRecord.content) (rows'.map RuntimePolicyRecord.content) := by
  intro x hx
  obtain ⟨r, hr, rfl⟩ := List.mem_map.1 hx
  obtain ⟨q, hq, hident⟩ := List.mem_map.1 (hidents (List.mem_map_of_mem hr))
  refine ⟨q.content, List.mem_map_of_mem hq, RuntimePolicyRecord.authored_of_core ?_⟩
  obtain ⟨r₀, hr₀, hcore⟩ := Db.exists_of_core (h r hr)
  have hident₀ := RuntimePolicyRecord.ident_of_core hcore
  rw [← hcore]
  exact hs.core_of_ident hr₀ (h' q hq) (hident.trans hident₀.symm)

omit [DecidableEq ι] in
theorem vetted_iff {key : Uuid} {version : ℕ} (huri : p.row.bundleUri = .studio key version) :
    s.vetted i p = true ↔ ∃ db₀,
      s.seen i (.otherActiveRuntimePolicies key p.row.organizationId) = some db₀ ∧
      ((db₀.otherActive key p.row.organizationId).map RuntimePolicyRecord.ident).Perm
        ((s.db.otherActive key p.row.organizationId).map RuntimePolicyRecord.ident) := by
  simp only [Store.vetted, huri, sameVersions, Option.any_eq_true, List.isPerm_iff]

omit [DecidableEq ι] in
/-- The version that is deployed passes the checks beside what is active. -/
theorem Deploys.clean (hd : Deploys (Terms.checked ι H.toPlatform) H i p row bundle replaced content s)
    (hs : s.db.Sound) (hcores : ∀ q db₀, s.seen i q = some db₀ → db₀.cores ⊆ s.db.cores)
    (hc : s.vetted i p = true) :
    Clean H.toPlatform s.db row.content p.row.organizationId
      ((s.db.otherActive row.policyKey p.row.organizationId).map RuntimePolicyRecord.content) := by
  obtain ⟨db₀, hseen, hprincipals, c, hcore, hident, hclean⟩ := hd.compiled.gate
  obtain ⟨db₁, hseen₁, hsame⟩ := (vetted_iff hd.uri).1 hc
  obtain rfl : db₁ = db₀ := Option.some.inj (hseen₁.symm.trans hseen)
  obtain ⟨r, hr, hrow⟩ := Db.exists_of_core hd.compiled.core
  have hchecked : c = row.core := by
    rw [← hrow]
    exact hs.core_of_ident hr hcore (hident.trans (RuntimePolicyRecord.ident_of_core hrow).symm)
  rw [hchecked] at hclean
  have hseen' : ∀ r ∈ db₁.otherActive row.policyKey p.row.organizationId, r.core ∈ s.db.cores :=
    fun r hr => hcores _ _ hseen (Db.mem_cores (Db.mem_otherActive.1 hr).1)
  have hother : ∀ r ∈ s.db.otherActive row.policyKey p.row.organizationId, r.core ∈ s.db.cores :=
    fun r hr => Db.mem_cores (Db.mem_otherActive.1 hr).1
  have hrow' : Clean H.toPlatform db₁ row.content p.row.organizationId _ :=
    hclean.of_authored _ rfl (hs.authoredIn hother hseen' hsame.symm.subset)
      (hs.authoredIn hseen' hother hsame.subset)
  exact hrow'.of_principals hprincipals

omit [DecidableEq ι] in
/-- What is active after a deploy was, or is the version that is deployed. -/
theorem Deploys.active_cases {T : Terms ι} (hd : Deploys T H i p row bundle replaced content s)
    (hs : s.db.Sound) (hs' : (s.db.commit (some p) (deployWrites row replaced content)).Sound)
    {o : Option Uuid} {r : RuntimePolicyRecord}
    (hr : r ∈ (s.db.commit (some p) (deployWrites row replaced content)).activeRecords o) :
    (o = p.row.organizationId ∧ r.core = row.core) ∨
    ∃ q ∈ s.db.activeRecords o, (o = p.row.organizationId → q.policyKey ≠ row.policyKey) ∧
      q.core = r.core := by
  have hmem := (hd.active_idents hs hs' o).subset (List.mem_map_of_mem hr)
  have hcore : r.core ∈ s.db.cores := by
    rw [← hd.cores hs]
    exact Db.mem_cores ((Db.mem_activeRecords _).1 hr).1
  have hold : ∀ q ∈ s.db.records, q.ident = r.ident → q.core = r.core := fun q hq hident =>
    (hs.core_of_ident hq hcore hident.symm).symm
  by_cases ho : o = p.row.organizationId
  · rw [if_pos ho, List.mem_cons, List.mem_map] at hmem
    rcases hmem with hident | ⟨q, hq, hident⟩
    · obtain ⟨row₀, hrow₀, hcore₀⟩ := Db.exists_of_core hd.compiled.core
      have hident₀ := RuntimePolicyRecord.ident_of_core hcore₀
      exact .inl ⟨ho, (hold row₀ hrow₀ (hident₀.trans hident.symm)).symm.trans hcore₀⟩
    · obtain ⟨hq, hact, horg, hkey⟩ := Db.mem_otherActive.1 hq
      exact .inr ⟨q, s.db.mem_activeRecords.2 ⟨hq, hact, horg⟩, fun _ => hkey, hold q hq hident⟩
  · rw [if_neg ho, List.mem_map] at hmem
    obtain ⟨q, hq, hident⟩ := hmem
    exact .inr ⟨q, hq, fun h => absurd h ho, hold q (s.db.mem_activeRecords.1 hq).1 hident⟩

omit [DecidableEq ι] in
/-- **A deploy of what is vetted keeps it.** -/
theorem Guarded.deploy (h : Guarded H.toPlatform s.db) (hs : s.db.Sound)
    (hs' : (s.db.commit (some p) (deployWrites row replaced content)).Sound)
    (hd : Deploys (Terms.checked ι H.toPlatform) H i p row bundle replaced content s)
    (hcores : ∀ q db₀, s.seen i q = some db₀ → db₀.cores ⊆ s.db.cores)
    (hc : s.vetted i p = true) :
    Guarded H.toPlatform (s.db.commit (some p) (deployWrites row replaced content)) := by
  have hclean := hd.clean hs hcores hc
  have hcases := fun (o : Option Uuid) (r : RuntimePolicyRecord) => hd.active_cases (o := o) (r := r) hs hs'
  generalize s.db.commit (some p) (deployWrites row replaced content) = db at hcases ⊢
  -- the authority of the version is that of no other
  have hrow : ∀ r q : RuntimePolicyRecord, r.core = row.core → q.policyKey ≠ row.policyKey →
      q ∈ s.db.activeRecords p.row.organizationId →
      authoritySignature q.content ≠ authoritySignature r.content := by
    intro r q hr hkey hq
    obtain ⟨hq, hact, horg⟩ := s.db.mem_activeRecords.1 hq
    rw [authoritySignature_of_authored (RuntimePolicyRecord.authored_of_core hr)]
    exact hclean.distinct _ (List.mem_map_of_mem (Db.mem_otherActive.2 ⟨hq, hact, horg, hkey⟩))
  refine ⟨fun o r hr q hq hsame => ?_, fun o => ?_⟩
  · rcases hcases o r hr with ⟨ho, hrcore⟩ | ⟨r₀, hr₀, hrkey, hrcore⟩
    · rcases hcases o q hq with ⟨-, hqcore⟩ | ⟨q₀, hq₀, hqkey, hqcore⟩
      · exact RuntimePolicyRecord.ident_of_core (hrcore.trans hqcore.symm)
      · subst ho
        refine absurd ?_ (hrow r q₀ hrcore (hqkey rfl) hq₀)
        rw [authoritySignature_of_authored (RuntimePolicyRecord.authored_of_core hqcore), hsame]
    · rcases hcases o q hq with ⟨ho, hqcore⟩ | ⟨q₀, hq₀, -, hqcore⟩
      · subst ho
        refine absurd ?_ (hrow q r₀ hqcore (hrkey rfl) hr₀)
        rw [authoritySignature_of_authored (RuntimePolicyRecord.authored_of_core hrcore), hsame]
      · rw [← RuntimePolicyRecord.ident_of_core hrcore, ← RuntimePolicyRecord.ident_of_core hqcore]
        refine h.distinct o r₀ hr₀ q₀ hq₀ ?_
        rw [authoritySignature_of_authored (RuntimePolicyRecord.authored_of_core hrcore),
          authoritySignature_of_authored (RuntimePolicyRecord.authored_of_core hqcore), hsame]
  · by_cases ho : o = p.row.organizationId
    · refine hclean.acyclic.mono (delegations_subset _ fun x hx => ?_)
      obtain ⟨r, hr, rfl⟩ := List.mem_map.1 hx
      rcases hcases o r hr with ⟨-, hcore⟩ | ⟨q, hq, hkey, hcore⟩
      · exact ⟨row.content, List.mem_cons_self, (RuntimePolicyRecord.authored_of_core hcore).symm⟩
      · obtain ⟨hq, hact, horg⟩ := s.db.mem_activeRecords.1 hq
        refine ⟨q.content, List.mem_cons_of_mem _ (List.mem_map_of_mem (Db.mem_otherActive.2
          ⟨hq, hact, horg.trans ho, hkey ho⟩)), RuntimePolicyRecord.authored_of_core hcore⟩
    · refine (h.acyclic o).mono (delegations_subset _ fun x hx => ?_)
      obtain ⟨r, hr, rfl⟩ := List.mem_map.1 hx
      rcases hcases o r hr with ⟨horg, -⟩ | ⟨q, hq, -, hcore⟩
      · exact absurd horg ho
      · exact ⟨q.content, List.mem_map_of_mem hq, RuntimePolicyRecord.authored_of_core hcore⟩

omit [DecidableEq ι] in
/-- The version that becomes active passes the checks beside what is active then. -/
theorem Deploys.violations_eq_nil
    (hd : Deploys (Terms.checked ι H.toPlatform) H i p row bundle replaced content s)
    (hs : s.db.Sound) (hs' : (s.db.commit (some p) (deployWrites row replaced content)).Sound)
    (hcores : ∀ q db₀, s.seen i q = some db₀ → db₀.cores ⊆ s.db.cores)
    (hc : s.vetted i p = true) {r : RuntimePolicyRecord}
    (hr : r ∈ (s.db.commit (some p) (deployWrites row replaced content)).records)
    (hact : r.status = .active)
    (hnew : ∀ q ∈ s.db.records, q.ident = r.ident → q.status ≠ .active) :
    violations H.toPlatform (s.db.commit (some p) (deployWrites row replaced content)) r.content
      r.organizationId ((s.db.commit (some p) (deployWrites row replaced content)).otherActive
        r.policyKey r.organizationId) = [] := by
  have hmem := fun (q : RuntimePolicyRecord) (hkey : q.policyKey ≠ row.policyKey) => hd.mem_of_ne hkey
  obtain ⟨horg, hcore⟩ : r.organizationId = p.row.organizationId ∧ r.core = row.core := by
    rcases hd.active_cases hs hs' ((Db.mem_activeRecords _).2 ⟨hr, hact, rfl⟩) with
      hrow | ⟨q, hq, -, hcore⟩
    · exact hrow
    · obtain ⟨hq, hqact, -⟩ := s.db.mem_activeRecords.1 hq
      exact absurd hqact (hnew q hq (RuntimePolicyRecord.ident_of_core hcore))
  have hkey : r.policyKey = row.policyKey :=
    RuntimePolicyRecord.key_of_ident (RuntimePolicyRecord.ident_of_core hcore)
  have hprincipals : (s.db.commit (some p) (deployWrites row replaced content)).principals =
      s.db.principals := Db.commit_principals ..
  generalize s.db.commit (some p) (deployWrites row replaced content) = db at hmem hprincipals ⊢
  have hother : ∀ q, q ∈ db.otherActive row.policyKey p.row.organizationId ↔
      q ∈ s.db.otherActive row.policyKey p.row.organizationId := by
    intro q
    rw [Db.mem_otherActive, Db.mem_otherActive]
    by_cases hq : q.policyKey = row.policyKey
    · simp [hq]
    · rw [hmem q hq]
  have hsame : ∀ {rows rows' : List RuntimePolicyRecord}, (∀ q, q ∈ rows → q ∈ rows') →
      AuthoredIn (rows.map RuntimePolicyRecord.content) (rows'.map RuntimePolicyRecord.content) := by
    intro rows rows' h x hx
    obtain ⟨q, hq, rfl⟩ := List.mem_map.1 hx
    exact ⟨q.content, List.mem_map_of_mem (h q hq), rfl⟩
  rw [horg, hkey, SafetyChecks.violations_eq_nil]
  exact ((hd.clean hs hcores hc).of_authored _ (RuntimePolicyRecord.authored_of_core hcore).symm
    (hsame fun q => (hother q).1) (hsame fun q => (hother q).2)).of_principals hprincipals

end Deploy

/-! ## Runs -/

/-- A store in which no deploy is going on, and the active versions are as the checks want them. -/
structure Store.Checked (P : Platform) (s : Store ι) : Prop where
  sound : s.db.Sound
  guarded : Guarded P s.db
  pending : ∀ i, s.pending i = none
  seen : ∀ i q, s.seen i q = none

omit [DecidableEq ι] in
theorem Store.Checked.inv {P : Platform} (h : s.Checked P) : Inv (Terms.checked ι P) s where
  db := h.sound
  next i p hp := by simp [h.pending i] at hp
  single i j p q hp := by simp [h.pending i] at hp
  slot i p hp := by simp [h.pending i] at hp
  trailed ht := ht.elim

/-- What vetted activations keep. -/
structure Vetted (P : Platform) (s : Store ι) : Prop where
  guarded : Guarded P s.db
  seen : ∀ j q db₀, s.seen j q = some db₀ → db₀.cores ⊆ s.db.cores

/-- The machine whose deploys commit what is vetted. -/
abbrev vettedMachine (H : Host) (ι : Type) [DecidableEq ι] :
    Machine Statement Statement.Answer PyError (Store ι) ι :=
  (machine H ι).restrict fun i q s r => vetted i q s r = true

/-- **Every statement keeps it.** -/
theorem Vetted.step (h : Vetted H.toPlatform s) {q : Statement} {r : Except PyError q.Answer}
    (hinv : Inv (Terms.checked ι H.toPlatform) s) (hinv' : Inv (Terms.checked ι H.toPlatform) t)
    (hpre : Pre (Terms.checked ι H.toPlatform) H i q s) (hstep : Store.step H i q s r t)
    (hc : vetted i q s r = true) : Vetted H.toPlatform t := by
  refine ⟨?_, Store.seen_cores hstep (hinv.cores_step hpre hstep) h.seen⟩
  cases q with
  | commit ws =>
    rcases Store.step_commit hstep with rfl | ⟨rfl, -, rfl⟩
    · exact h.guarded
    have hdb' := hinv'.db
    rw [Store.commit_db] at hdb' ⊢
    cases hpending : s.pending i with
    | none =>
      rw [Pre, hpending] at hpre
      obtain ⟨w, rfl, -, hw⟩ := hpre
      refine h.guarded.of_actives fun o r hr => ?_
      obtain ⟨hr, hact, horg⟩ := (Db.mem_activeRecords _).1 hr
      obtain ⟨q, hq, hqact, hident, hqorg, hcontent⟩ := hw.actives hr hact
      exact ⟨q, s.db.mem_activeRecords.2 ⟨hq, hqact, hqorg.trans horg⟩, hident, by rw [hcontent]⟩
    | some p =>
      rw [Pre, hpending] at hpre
      obtain ⟨row, bundle, replaced, content, rfl, hd⟩ := hpre
      rw [hpending] at hdb'
      have hvetted : s.vetted i p = true := by simpa [vetted, hpending] using hc
      exact h.guarded.deploy hinv.db hdb' hd (h.seen i) hvetted
  | _ =>
    have hsame := Store.step_same hstep (by simp)
    refine h.guarded.of_actives fun o r hr => ⟨r, ?_, rfl, rfl⟩
    rwa [Db.activeRecords, hsame.records] at hr

/-- A vetted statement activates versions that pass the checks. -/
theorem Vetted.activated (h : Vetted H.toPlatform s) {q : Statement} {r : Except PyError q.Answer}
    (hinv : Inv (Terms.checked ι H.toPlatform) s) (hinv' : Inv (Terms.checked ι H.toPlatform) t)
    (hpre : Pre (Terms.checked ι H.toPlatform) H i q s) (hstep : Store.step H i q s r t)
    (hc : vetted i q s r = true) {row : RuntimePolicyRecord} (hrow : row ∈ t.db.records)
    (hact : row.status = .active)
    (hnew : ∀ q ∈ s.db.records, q.ident = row.ident → q.status ≠ .active) :
    violations H.toPlatform t.db row.content row.organizationId
      (t.db.otherActive row.policyKey row.organizationId) = [] := by
  cases q with
  | commit ws =>
    rcases Store.step_commit hstep with rfl | ⟨rfl, -, rfl⟩
    · exact absurd hact (hnew row hrow rfl)
    have hdb' := hinv'.db
    rw [Store.commit_db] at hdb' hrow ⊢
    cases hpending : s.pending i with
    | none =>
      rw [Pre, hpending] at hpre
      obtain ⟨w, rfl, -, hw⟩ := hpre
      rw [hpending] at hrow
      obtain ⟨q, hq, hqact, hident, -⟩ := hw.actives hrow hact
      exact absurd hqact (hnew q hq hident)
    | some p =>
      rw [Pre, hpending] at hpre
      obtain ⟨row', bundle, replaced, content, rfl, hd⟩ := hpre
      rw [hpending] at hdb' hrow
      have hvetted : s.vetted i p = true := by simpa [vetted, hpending] using hc
      exact hd.violations_eq_nil hinv.db hdb' (h.seen i) hvetted hrow hact hnew
  | _ =>
    rw [(Store.step_same hstep (by simp)).records] at hrow
    exact absurd hact (hnew row hrow rfl)

/-- **The safety gate.** In every run of activations whose deploys commit what is vetted, the active
versions have different authorities and no circular delegation, and a version that a step makes active
has no violation beside those that are active then. -/
theorem safetyGate {w : World Statement Statement.Answer PyError (Store ι) ι}
    (h : Reach (vettedMachine H ι) (programs H.toPlatform {op | op.activates})
      (Store.Checked H.toPlatform) w) :
    Guarded H.toPlatform w.store.db ∧
    ∀ w', Program.Step (vettedMachine H ι) (programs H.toPlatform {op | op.activates}) w w' →
      ∀ row ∈ w'.store.db.records, row.status = .active →
      (∀ q ∈ w.store.db.records, q.ident = row.ident → q.status ≠ .active) →
      violations H.toPlatform w'.store.db row.content row.organizationId
        (w'.store.db.otherActive row.policyKey row.organizationId) = [] := by
  have hvetted : Vetted H.toPlatform w.store := by
    refine h.invariant activations_keep (fun s hs => ⟨hs.inv, hs.pending⟩) (fun s hs => ?_)
      fun i q s r t hinv hinv' hpre hstep hc hs => hs.step hinv hinv' hpre hstep hc
    exact ⟨hs.guarded, fun j q db₀ hq => by simp [hs.seen j q] at hq⟩
  refine ⟨hvetted.guarded, fun w' hstep row hrow hact hnew => ?_⟩
  have hinv := (h.of_restrict.sound activations_keep fun s hs => ⟨hs.inv, hs.pending⟩).1
  rcases h.step_cases activations_keep (fun s hs => ⟨hs.inv, hs.pending⟩) hstep with
    heq | ⟨i, q, r, hpre, hq, hc⟩
  · rw [heq] at hrow
    exact absurd hact (hnew row hrow rfl)
  · exact hvetted.activated hinv ((contract _ H).inv_step hinv hpre hq) hpre hq hc hrow hact hnew

/-! ### Two activations -/

/-- Operations of two processes that take turns, on a database. -/
def activateInTurns {M : Machine Statement Statement.Answer PyError (Store Bool) Bool} (S : Schedule M)
    (db : Db) (ts : List (Bool × Option Operation × ℕ)) :
    World Statement Statement.Answer PyError (Store Bool) Bool :=
  S.play (ts.map fun t => ⟨t.1, t.2.1.map fun op => op.program sampleHost.toPlatform, t.2.2⟩)
    ⟨{ Store.empty Bool with db }, fun _ => none⟩

theorem Guarded.of_idle {P : Platform} {db : Db} (h : ∀ r ∈ db.records, r.status ≠ .active) :
    Guarded P db := by
  have hnone : ∀ o, db.activeRecords o = [] := by
    intro o
    refine List.eq_nil_iff_forall_not_mem.2 fun r hr => ?_
    obtain ⟨hr, hact, -⟩ := db.mem_activeRecords.1 hr
    exact h r hr hact
  refine ⟨fun o r hr => ?_, fun o v hv => ?_⟩
  · rw [hnone] at hr
    cases hr
  · rw [Db.activePolicies, hnone] at hv
    obtain ⟨w, hw, -⟩ := Relation.TransGen.head'_iff.1 hv
    cases hw

theorem activateInTurns_reach {M : Machine Statement Statement.Answer PyError (Store Bool) Bool}
    (S : Schedule M) {ops : Set Operation} {db : Db} (hs : db.Sound)
    (hidle : ∀ r ∈ db.records, r.status ≠ .active) {ts : List (Bool × Option Operation × ℕ)}
    (hts : ∀ t ∈ ts, ∀ op ∈ t.2.1, op ∈ ops) :
    Reach M (programs sampleHost.toPlatform ops) (Store.Checked sampleHost.toPlatform)
      (activateInTurns S db ts) := by
  refine Schedule.play_reach (.init ⟨hs, .of_idle hidle, fun _ => rfl, fun _ _ => rfl⟩)
    fun t ht p hp => ?_
  obtain ⟨e, he, rfl⟩ := List.mem_map.1 ht
  obtain ⟨op, hop, rfl⟩ := Option.map_eq_some_iff.1 hp
  exact ⟨op, hts e he op hop, rfl⟩

/-- A policy of a principal that another delegates to. -/
def delegatedPolicy (id principal delegatedBy : String) : RuntimePolicy :=
  { samplePolicy id principal with constraints := { delegatedBy := some delegatedBy } }

/-- Two approved versions, in an organization with two principals. -/
def approvedBoth (first second : RuntimePolicy) : Db :=
  { (performAlone ((author 1 first (some 7)).take 3 ++ (author 2 second (some 7)).take 3)).store.db with
    principals := [{ id := 1, name := "ops", organizationId := some 7 },
      { id := 2, name := "sales", organizationId := some 7 }] }

def activateNow (key : Uuid) : Operation := .activatePolicy key (some 7) "operator" none 3

theorem approvedBoth_sound (first second : RuntimePolicy) : (approvedBoth first second).Sound :=
  (performAlone_sound ((author 1 first (some 7)).take 3 ++ (author 2 second (some 7)).take 3)).of_eq
    rfl rfl

/-- The activation of a policy, and then that of one to which its principal delegates. -/
def activatedApart : World Statement Statement.Answer PyError (Store Bool) Bool :=
  activateInTurns ((Store.schedule sampleHost).restrict vetted)
    (approvedBoth (samplePolicy "1" "ops") (delegatedPolicy "2" "sales" "ops"))
    [(true, some (activateNow 1), 64), (false, some (activateNow 2), 64)]

theorem safetyGate_apart : (activatedApart.store.db.activeRecords (some 7)).length = 2 ∧
    Guarded sampleHost.toPlatform activatedApart.store.db := by
  have hidle : ∀ r ∈ (approvedBoth (samplePolicy "1" "ops")
      (delegatedPolicy "2" "sales" "ops")).records, r.status ≠ .active := by
    decide +kernel
  have hrun : Reach (vettedMachine sampleHost Bool)
      (programs sampleHost.toPlatform {op | op.activates}) (Store.Checked sampleHost.toPlatform)
      activatedApart := by
    refine activateInTurns_reach _ (approvedBoth_sound _ _) hidle fun t ht op hop => ?_
    simp only [List.mem_cons, List.not_mem_nil, or_false] at ht
    rcases ht with rfl | rfl <;> cases hop <;> trivial
  exact ⟨by decide +kernel, (safetyGate hrun).1⟩

/-- Each of two principals delegates to the other; the second activation runs between the checks of the
first one and its deploy. -/
def activatedTogether : World Statement Statement.Answer PyError (Store Bool) Bool :=
  activateInTurns (Store.schedule sampleHost)
    (approvedBoth (delegatedPolicy "1" "ops" "sales") (delegatedPolicy "2" "sales" "ops"))
    [(true, some (activateNow 1), 4), (false, some (activateNow 2), 64), (true, none, 64)]

/-- A principal that delegates to itself, deployed directly. -/
def deployedDirectly : World Statement Statement.Answer PyError (Store Bool) Bool :=
  activateInTurns (Store.schedule sampleHost)
    (performAlone (author 1 (delegatedPolicy "1" "ops" "ops") (some 7))).store.db
    [(true, some (.deployPolicy 1 (some 7) 3), 64)]

/-- Two activations can close a circle of delegations, and so can one direct deploy. -/
theorem activations_close_circle :
    (∃ w : World Statement Statement.Answer PyError (Store Bool) Bool,
      Reach (machine sampleHost Bool) (programs sampleHost.toPlatform {op | op.activates})
        (Store.Checked sampleHost.toPlatform) w ∧
      (∀ i, w.running i = none) ∧ ¬ Guarded sampleHost.toPlatform w.store.db) ∧
    ∃ w : World Statement Statement.Answer PyError (Store Bool) Bool,
      Reach (machine sampleHost Bool) (programs sampleHost.toPlatform {op | op.direct})
        (Store.Checked sampleHost.toPlatform) w ∧
      (∀ i, w.running i = none) ∧ ¬ Guarded sampleHost.toPlatform w.store.db := by
  constructor
  · have hidle : ∀ r ∈ (approvedBoth (delegatedPolicy "1" "ops" "sales")
        (delegatedPolicy "2" "sales" "ops")).records, r.status ≠ .active := by
      decide +kernel
    obtain ⟨hnone, hedges⟩ : (∀ i, (activatedTogether.running i).isNone = true) ∧
        (activatedTogether.store.db.activePolicies (some 7)).filterMap
          (delegation sampleHost.toPlatform) = [("sales", "ops"), ("ops", "sales")] := by
      decide +kernel
    refine ⟨activatedTogether, ?_, fun i => Option.isNone_iff_eq_none.1 (hnone i), fun h => ?_⟩
    · refine activateInTurns_reach _ (approvedBoth_sound _ _) hidle fun t ht op hop => ?_
      simp only [List.mem_cons, List.not_mem_nil, or_false] at ht
      rcases ht with rfl | rfl | rfl <;> cases hop <;> trivial
    · have hacyclic := h.acyclic (some 7)
      rw [hedges] at hacyclic
      refine hacyclic "ops" (.tail (.single (b := "sales") ?_) ?_) <;> simp
  · have hidle : ∀ r ∈ (performAlone (author 1 (delegatedPolicy "1" "ops" "ops")
        (some 7))).store.db.records, r.status ≠ .active := by
      decide +kernel
    obtain ⟨hnone, hedges⟩ : (∀ i, (deployedDirectly.running i).isNone = true) ∧
        (deployedDirectly.store.db.activePolicies (some 7)).filterMap
          (delegation sampleHost.toPlatform) = [("ops", "ops")] := by
      decide +kernel
    refine ⟨deployedDirectly, ?_, fun i => Option.isNone_iff_eq_none.1 (hnone i), fun h => ?_⟩
    · refine activateInTurns_reach _ (performAlone_sound _) hidle fun t ht op hop => ?_
      rw [List.mem_singleton.1 ht] at hop
      cases hop
      trivial
    · have hacyclic := h.acyclic (some 7)
      rw [hedges] at hacyclic
      exact hacyclic "ops" (.single (by simp))

end PayReality
