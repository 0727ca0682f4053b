import PayReality.Decision.FailClosed
import PayReality.Lifecycle.DeployConcurrency
import PayReality.Lifecycle.DraftEdits

/-!
# What a decision pins

A decision pins the active row of `policies`, and OPA decides by the module that it has loaded. A
deployment writes both. A retirement without a deployment has OPA given the module of what is left, and
leaves the row as it is.

* `Contains`, `WellPinned`: what a row says about a module, and a decision about a row.
* `Store.settled`: the condition on the state in which an intent is submitted.
* `Abreast`: the invariant.

**Main result** `versionPinning`.
-/

namespace PayReality

open Program Rego RuntimePolicyService Service IntentService

/-- The policies that the entries are of are exactly those that the module has been compiled from. -/
def Contains : Option Source → List ManifestEntry → Prop
  | none, entries => entries = []
  | some source, entries => ∃ policies bundleId version now bundle errors,
      CompilerV2.compileBundle CompilerV2.genericVocabulary policies bundleId version now =
        .ok ⟨some bundle, errors⟩ ∧
      source = bundle.regoSource ∧ (policies.map BundleBuilder.manifestEntry).Perm entries

theorem Contains.perm {module : Option Source} {entries entries' : List ManifestEntry}
    (h : Contains module entries) (hperm : entries.Perm entries') : Contains module entries' := by
  cases module with
  | none =>
    have hnil : entries = [] := h
    rw [hnil] at hperm
    exact hperm.nil_eq.symm
  | some source =>
    obtain ⟨policies, bundleId, version, now, bundle, errors, hcompile, hsource, hentries⟩ := h
    exact ⟨policies, bundleId, version, now, bundle, errors, hcompile, hsource, hentries.trans hperm⟩

/-- What is pinned is the row of `policies` that lists what the module contains, if anything is. -/
def WellPinned (db : Db) (o : Option Uuid) (module : Option Source) (r : Recorded) : Prop :=
  (r.decision.policyId = none ∧ r.evidence.payload.policyVersion = none ∧
    r.evidence.payload.policyBundleHash = none) ∨
  ∃ p ∈ db.policies, (∀ q ∈ db.policies, q.version = p.version → q = p) ∧ p.organizationId = o ∧
    r.decision.policyId = some p.version ∧ r.evidence.payload.policyVersion = some p.version ∧
    r.evidence.payload.policyBundleHash = some p.bundleHash ∧
    ∃ m, p.bundleManifest = some m ∧ Contains module m.policies

variable {ι : Type} [DecidableEq ι] {T : Terms ι} {H : Host} {s t : Store ι} {i : ι} {o : Option Uuid}

/-- No version of the organization has been retired since its last deployment, and its module has been
settled. -/
def Store.settled (s : Store ι) (i : ι) (o : Option Uuid) : Bool :=
  (s.owed i).isNone && !s.retiredSince o

/-- What is loaded, deployed and retired is of one organization. -/
def onOrganization (o : Option Uuid) (i : ι) :
    (q : Statement) → Store ι → Except PyError q.Answer → Bool
  | .commit ws, s, _ =>
      (s.pending i).all (fun p => p.row.organizationId = o) && (s.retires ws).all (· = o)
  | .uploadPolicy o' _, _, _ | .deletePolicy o', _, _ => o' = o
  | _, _, _ => true

/-! ## Submissions -/

/-- A decision is pinned to the policy that the engine has been given. -/
theorem Engine.decide_pinned {active : ActivePolicy} {result : Json} {d : EngineDecision}
    (h : Engine.decide active result = .ok d) :
    ∃ outcome reason evaluated, d = Engine.pinned active outcome reason evaluated := by
  obtain ⟨evaluated, -, h⟩ := bind_ok.1 h
  dsimp only at h
  split at h
  · cases h
    exact ⟨_, _, _, rfl⟩
  split at h
  · cases h
    exact ⟨_, _, _, rfl⟩
  split at h <;> cases h <;> exact ⟨_, _, _, rfl⟩

/-- A decision pins the active row of the organization, if there is one. -/
theorem submitIntent_pins {db : Db} {P : Platform} {S : Signer} {opa : Option Uuid → Json → OpaReply}
    {agent : Agent} {now : Timestamp} {req : IntentRequest} {r : Recorded}
    (h : submitIntent db P S agent now opa req = .ok r) :
    (r.decision.policyId = none ∧ r.evidence.payload.policyVersion = none ∧
      r.evidence.payload.policyBundleHash = none) ∨
    ∃ p, db.activePolicy (organizationOf db agent) = some p ∧ r.decision.policyId = some p.version ∧
      r.evidence.payload.policyVersion = some p.version ∧
      r.evidence.payload.policyBundleHash = some p.bundleHash := by
  rcases submitIntent_ok h with ⟨reason, rfl⟩ | ⟨-, -, -, h⟩
  · exact .inl ⟨rfl, rfl, rfl⟩
  obtain ⟨d, hd, h⟩ := bind_ok.1 h
  obtain ⟨keys, -, h⟩ := bind_ok.1 h
  cases h
  unfold Engine.evaluate getActive at hd
  cases hactive : db.activePolicy (organizationOf db agent) with
  | none =>
    rw [hactive] at hd
    cases hd
    exact .inl ⟨rfl, rfl, rfl⟩
  | some p =>
    rw [hactive] at hd
    have hpinned : ∃ outcome reason evaluated,
        d = Engine.pinned ⟨p.version, p.version, some p.bundleHash⟩ outcome reason evaluated := by
      dsimp only at hd
      split at hd
      · cases hd
        exact ⟨_, _, _, rfl⟩
      · cases hd
        exact ⟨_, _, _, rfl⟩
      · cases hd
      · exact Engine.decide_pinned hd
    obtain ⟨outcome, reason, evaluated, rfl⟩ := hpinned
    exact .inr ⟨p, rfl, rfl, rfl, rfl⟩

/-! ## The invariant -/

/-- The active row of an organization lists what is active, and the module contains it. -/
structure Abreast (o : Option Uuid) (s : Store ι) : Prop where
  listed : s.retiredSince o = false → ∀ p ∈ s.db.policies, p.status = .active → p.organizationId = o →
    ∃ m, p.bundleManifest = some m ∧
      m.policies.Perm ((s.db.activeRecords o).map RuntimePolicyRecord.entry)
  served : (∀ j, s.owed j = none) →
    Contains (s.opa o) ((s.db.activeRecords o).map RuntimePolicyRecord.entry)

omit [DecidableEq ι] in
theorem Abreast.of_eq (h : Abreast o s) (hr : t.db.records = s.db.records)
    (hp : t.db.policies = s.db.policies) (hopa : t.opa = s.opa) (howed : t.owed = s.owed)
    (hretired : t.retiredSince = s.retiredSince) : Abreast o t := by
  obtain ⟨h₁, h₂⟩ := h
  unfold Db.activeRecords at h₁ h₂
  constructor
  · rw [hretired, hp, Db.activeRecords, hr]
    exact h₁
  · rw [howed, hopa, Db.activeRecords, hr]
    exact h₂

/-- A module that was perhaps changed is owed. -/
theorem Abreast.unsure (h : Abreast o s) {o' : Option Uuid} {source : Option Source} :
    Abreast o (s.loadUnsure i o' source) where
  listed := h.listed
  served howed := by
    have hi := howed i
    rw [show (s.loadUnsure i o' source).owed i = some o' from Function.update_self ..] at hi
    cases hi

/-- A module is loaded: that of what is active, or it is owed. -/
theorem Abreast.load (h : Abreast o s) {source : Option Source}
    (hsource : s.pending i = none →
      Contains source ((s.db.activeRecords o).map RuntimePolicyRecord.entry)) :
    Abreast o (s.load i o source) := by
  unfold Store.load
  cases hpending : s.pending i with
  | none =>
    refine ⟨h.listed, fun _ => ?_⟩
    rw [if_neg (by simp)]
    show Contains (Function.update s.opa o source o) _
    rw [Function.update_self]
    exact hsource hpending
  | some p =>
    rw [if_pos (by simp)]
    refine ⟨h.listed, fun howed => ?_⟩
    have hi := howed i
    rw [show (Store.owe { s with opa := Function.update s.opa o source } i o).owed i = some o from
      Function.update_self ..] at hi
    cases hi

/-! ### Commits -/

omit [DecidableEq ι] in
/-- What is left of a version that is not retired. -/
theorem UpdateOk.active_iff [Subsingleton ι] {key : Uuid} {version : ℕ} {c : RecordColumns}
    (h : UpdateOk T key version c s) (hs : s.db.Sound)
    (hretires : s.retires [.updateRecord key version c] = none) {r : RuntimePolicyRecord}
    (hr : r ∈ s.db.records) (hident : r.ident = (key, version)) :
    ((c.apply r).status = .active ↔ r.status = .active) ∧
      (r.status = .active → (c.apply r).entry = r.entry) := by
  rw [RecordColumns.apply_status]
  cases hc : c.status with
  | none =>
    have hcontent : c.content = none := by
      by_contra hne
      exact h.rewrites hne hc
    refine ⟨Iff.rfl, fun _ => ?_⟩
    rw [RuntimePolicyRecord.entry, RecordColumns.apply_content, hcontent]
    rfl
  | some st =>
    obtain ⟨r', hident', hlatest, hallows⟩ := h.alone ‹_› st hc
    obtain rfl := hs.eq_of_ident (s.db.latestVersionRow_some hlatest).1 hr (hident'.trans hident.symm)
    have hinactive : st ≠ .active := fun heq => h.inactive (hc.trans (congrArg some heq))
    have hnot : r'.status ≠ .active := by
      intro hact
      rw [hact] at hallows
      have hst : st = .retired := by cases st <;> simp_all [PolicyStatus.allows]
      -- then the commit is a retirement
      cases hfound : s.db.records.find? fun q => q.ident = (key, version) with
      | none => exact absurd hident (by simpa using List.find?_eq_none.1 hfound r' hr)
      | some q => simp [Store.retires, hc, hst, hfound] at hretires
    exact ⟨iff_of_false hinactive hnot, fun hact => absurd hact hnot⟩

omit [DecidableEq ι] in
/-- A commit that retires nothing leaves what is active as it is listed. -/
theorem PlainOk.entries [Subsingleton ι] {w : Write} (h : PlainOk T s w) (hs : s.db.Sound)
    (hretires : s.retires [w] = none) (o : Option Uuid) :
    ((s.db.write w).activeRecords o).map RuntimePolicyRecord.entry =
      (s.db.activeRecords o).map RuntimePolicyRecord.entry := by
  cases w with
  | insertRecord row =>
    have hdraft : row.status = .draft := h.draft
    simp [Db.write, Db.activeRecords, RuntimePolicyRecord.isActive, hdraft]
  | updateRecord key version c =>
    have hsame : ∀ r ∈ s.db.records,
        ((if r.ident = (key, version) then c.apply r else r).status = .active ↔ r.status = .active) ∧
        (r.status = .active →
          (if r.ident = (key, version) then c.apply r else r).entry = r.entry) := by
      intro r hr
      by_cases hident : r.ident = (key, version)
      · rw [if_pos hident]
        exact UpdateOk.active_iff h hs hretires hr hident
      · rw [if_neg hident]
        exact ⟨Iff.rfl, fun _ => rfl⟩
    have horg : ∀ r : RuntimePolicyRecord,
        (if r.ident = (key, version) then c.apply r else r).organizationId = r.organizationId := by
      intro r
      split <;> rfl
    rw [Db.write, Db.updateRecord, Db.activeRecords, Db.activeRecords, List.filter_map, List.map_map]
    have hfilter : s.db.records.filter ((fun r => decide (r.isActive = true ∧ r.organizationId = o)) ∘
        fun r => if r.ident = (key, version) then c.apply r else r) =
        s.db.records.filter fun r => decide (r.isActive = true ∧ r.organizationId = o) := by
      refine List.filter_congr fun r hr => ?_
      simp only [Function.comp_apply, RuntimePolicyRecord.isActive, decide_eq_true_eq, horg,
        (hsame r hr).1]
    rw [hfilter]
    refine List.map_congr_left fun r hr => ?_
    obtain ⟨hr, hact⟩ := List.mem_filter.1 hr
    simp only [RuntimePolicyRecord.isActive, decide_eq_true_eq] at hact
    exact (hsame r hr).2 hact.1
  | insertSchedule | updateSchedule | insertEvent => rfl

/-- A commit beside a deployment. -/
theorem Abreast.plain [Subsingleton ι] (h : Abreast o s) (hs : s.db.Sound) {w : Write}
    (hpending : s.pending i = none) (hw : PlainOk T s w) (ho : (s.retires [w]).all (· = o) = true) :
    Abreast o (s.commit i [w]) := by
  have hdb : (s.commit i [w]).db = s.db.write w := by
    rw [Store.commit_db, hpending]
    rfl
  cases hretires : s.retires [w] with
  | none =>
    have hentries := hw.entries hs hretires o
    have howed : (s.commit i [w]).owed = s.owed := by
      simp only [Store.commit, hpending, hretires]
    have hretired : (s.commit i [w]).retiredSince = s.retiredSince := by
      simp only [Store.commit, hpending, hretires]
    constructor
    · rw [hretired, hdb, hentries, Db.write_policies]
      exact h.listed
    · rw [howed, hdb, hentries, Store.commit_opa]
      exact h.served
  | some o' =>
    -- the row and the module are behind until a deployment and a reconciliation
    have ho' : o' = o := by simpa [hretires] using ho
    subst ho'
    constructor
    · intro hretired
      have htrue : (s.commit i [w]).retiredSince o' = true := by
        simp only [Store.commit, hpending, hretires]
        exact Function.update_self ..
      rw [htrue] at hretired
      cases hretired
    · intro howed
      have hsome : (s.commit i [w]).owed i = some o' := by
        simp only [Store.commit, hpending, hretires]
        exact Function.update_self ..
      rw [howed i] at hsome
      cases hsome

section Deployment

variable {p : Pending} {row : RuntimePolicyRecord} {bundle : PolicyBundle}
  {replaced : Option RuntimePolicyRecord} {content : RuntimePolicy}

/-- The commit of a deployment. -/
theorem Abreast.deploy [Subsingleton ι] (hinv : Inv T s) (hpending : s.pending i = some p)
    (hd : Deploys T H i p row bundle replaced content s) (hsome : p.row.organizationId.isSome = true) :
    Abreast p.row.organizationId (s.commit i (deployWrites row replaced content)) := by
  obtain ⟨db₀, now, hseen, ⟨errors, hcompile⟩, hrecords⟩ := hd.compiled.others
  have hrecords : s.db.records = db₀.records := hrecords ‹_›
  have hcores : db₀.cores ⊆ s.db.cores := by
    rw [Db.cores, Db.cores, hrecords]
    exact List.Subset.refl _
  have hsame : db₀.otherActive row.policyKey p.row.organizationId =
      s.db.otherActive row.policyKey p.row.organizationId := by
    rw [Db.otherActive, Db.otherActive, Db.activeRecords, Db.activeRecords, hrecords]
  have hlisted := Listing.deployed_listed hinv hpending hd hseen hcores (by rw [hsame])
  constructor
  · intro _ q hq hact horg
    rw [Store.commit_db, hpending] at hq ⊢
    rcases (Listing.active_cases hinv hpending hd (hinv.slot i p hpending hsome)).1 ⟨hq, hact⟩ with
      rfl | ⟨-, -, hne⟩
    · exact ⟨bundle.manifest, hd.manifest, hlisted⟩
    · exact absurd horg hne
  · intro _
    rw [Store.commit_opa, hd.served ‹_›, Store.commit_db, hpending]
    refine ⟨_, _, _, _, bundle, errors, hcompile, rfl, ?_⟩
    obtain ⟨-, -, -, hbuild⟩ := CompilerV2.compileBundle_ok hcompile
    obtain ⟨-, -, -, hmanifest, -⟩ := CompilerV2.buildBundle_ok hbuild
    rwa [hmanifest] at hlisted

end Deployment

/-! ### Modules -/

omit [DecidableEq ι] in
/-- The module of what has been listed contains what is active. -/
theorem Listed.contains [Subsingleton ι] {source : Option Source} (h : Listed i o source s) :
    Contains source ((s.db.activeRecords o).map RuntimePolicyRecord.entry) := by
  obtain ⟨db₀, -, hmodule, hrecords⟩ := h
  have hactive : s.db.activeRecords o = db₀.activeRecords o := by
    rw [Db.activeRecords, Db.activeRecords, hrecords ‹_›]
  rw [hactive]
  cases source with
  | none =>
    have hnil : db₀.activeRecords o = [] := hmodule
    rw [hnil]
    rfl
  | some source =>
    obtain ⟨bundleId, now, bundle, errors, hcompile, hsource⟩ := hmodule
    refine ⟨_, _, _, _, bundle, errors, hcompile, hsource, ?_⟩
    rw [List.map_map]
    exact (List.perm_insertionSort _ _).map _

/-- **Every statement keeps it.** -/
theorem Abreast.step [Subsingleton ι] {o : Uuid} (h : Abreast (some o) s) {q : Statement}
    {r : Except PyError q.Answer} (hinv : Inv T s) (hpre : Pre T H i q s)
    (hstep : Store.step H i q s r t) (ho : onOrganization (some o) i q s r = true) :
    Abreast (some o) t := by
  cases q with
  | select q =>
    rcases hstep with ⟨-, rfl⟩ | ⟨-, rfl⟩
    · exact h.of_eq rfl rfl rfl rfl rfl
    · exact h
  | uuid4 =>
    obtain ⟨-, -, rfl⟩ := hstep
    exact h
  | flushPolicy prior row =>
    rcases hstep with ⟨-, hstep⟩ | ⟨-, rfl⟩
    · split at hstep <;> obtain ⟨-, rfl⟩ := hstep <;> exact h.of_eq rfl rfl rfl rfl rfl
    · exact h
  | flushMandate m =>
    rcases hstep with ⟨-, rfl⟩ | ⟨-, rfl⟩ | ⟨-, rfl⟩
    · exact h.of_eq rfl rfl rfl rfl rfl
    · exact h
    · exact h
  | commit ws =>
    rcases Store.step_commit hstep with rfl | ⟨-, -, rfl⟩
    · exact h
    rw [onOrganization, Bool.and_eq_true] at ho
    cases hpending : s.pending i with
    | none =>
      rw [Pre, hpending] at hpre
      obtain ⟨w, rfl, -, hw⟩ := hpre
      exact h.plain hinv.db hpending hw ho.2
    | some p =>
      rw [Pre, hpending] at hpre
      obtain ⟨row, bundle, replaced, content, rfl, hd⟩ := hpre
      have horg : p.row.organizationId = some o := by simpa [hpending] using ho.1
      rw [← horg]
      exact Abreast.deploy hinv hpending hd (by rw [horg]; rfl)
  | rollback =>
    obtain ⟨-, rfl⟩ := hstep
    exact h.of_eq rfl rfl rfl rfl rfl
  | uploadPolicy o' source =>
    obtain rfl : o' = some o := by simpa [onOrganization] using ho
    rcases hstep with ⟨-, rfl⟩ | ⟨-, rfl | rfl⟩
    · refine (h.load fun hidle => ?_).of_eq rfl rfl rfl rfl rfl
      rcases hpre with hsome | ⟨-, hlisted⟩
      · rw [hidle] at hsome
        cases hsome
      · exact hlisted.contains
    · exact h
    · exact h.unsure
  | deletePolicy o' =>
    obtain rfl : o' = some o := by simpa [onOrganization] using ho
    rcases hstep with ⟨-, rfl⟩ | ⟨-, rfl | rfl⟩
    · exact h.load fun _ => hpre.2.contains
    · exact h
    · exact h.unsure
  | submitIntent agent req now =>
    rcases hstep with ⟨-, rfl⟩ | ⟨-, rfl⟩
    · exact h.of_eq (IntentService.submit_records ..) (IntentService.submit_policies ..) rfl rfl rfl
    · exact h

/-! ## Main result -/

omit [DecidableEq ι] in
theorem Store.Fresh.abreast (h : s.Fresh) : Abreast o s where
  listed _ p hp := by
    rw [h.policies] at hp
    cases hp
  served _ := by
    rw [h.opa, Db.activeRecords, h.records]
    rfl

/-- **What a decision pins.** In every run of operations on an organization, one after the other: an
intent that is submitted where no version has been retired since the last deployment, and the module is
settled, is decided by the module of the policies that the pinned row lists. -/
theorem versionPinning [Subsingleton ι] {o : Uuid}
    {w : World Statement Statement.Answer PyError (Store ι) ι}
    (h : Reach ((machine H ι).restrict fun i q s r => onOrganization (some o) i q s r = true)
      (programs H.toPlatform Set.univ) Store.Fresh w)
    (hsettled : w.store.settled i (some o) = true) {agent : Agent} {req : IntentRequest}
    {now : Timestamp} (ho : organizationOf w.store.db agent = some o) {r : Recorded}
    (hr : submitIntent w.store.db H.toPlatform H.signer agent now (fun o => H.opa (w.store.opa o)) req =
      .ok r) :
    WellPinned w.store.db (some o) (w.store.opa (some o)) r := by
  have hkeep := programs_keep (ι := ι) (H := H) False Set.univ
  have habreast : Abreast (some o) w.store := by
    refine h.invariant hkeep (fun s hs => hs.start) (fun s hs => hs.abreast) ?_
    exact fun i q s r t hinv _ hpre hstep ho hs => hs.step hinv hpre hstep ho
  have hsound := (h.of_restrict.sound hkeep fun s hs => hs.start).1.db
  rw [Store.settled, Bool.and_eq_true, Option.isNone_iff_eq_none, Bool.not_eq_true'] at hsettled
  rcases submitIntent_pins hr with hnone | ⟨p, hp, hpinned⟩
  · exact .inl hnone
  rw [ho] at hp
  have hfound := List.find?_some hp
  simp only [PolicyRow.isActive, decide_eq_true_eq] at hfound
  have hmem := List.mem_of_find?_eq_some hp
  obtain ⟨m, hm, hlisted⟩ := habreast.listed hsettled.2 p hmem hfound.1 hfound.2
  have hserved := habreast.served fun j => by rw [Subsingleton.elim j i, hsettled.1]
  refine .inr ⟨p, hmem, fun q hq hversion => ?_, hfound.2, hpinned.1, hpinned.2.1, hpinned.2.2, m, hm,
    hserved.perm hlisted.symm⟩
  exact List.inj_on_of_nodup_map hsound.versions hq hmem hversion

/-! ### A retirement -/

/-- Operations on an organization with one principal, one after the other. -/
def onePrincipalRun (ops : List Operation) : World Statement Statement.Answer PyError (Store (Fin 1)) (Fin 1) :=
  ((Store.schedule allowingHost).restrict (onOrganization (some 7))).perform 64
    (ops.map fun op : Operation => (client, op.program allowingHost.toPlatform))
    ⟨onePrincipal, fun _ => none⟩

theorem onePrincipalRun_reach (ops : List Operation) :
    Reach ((machine allowingHost (Fin 1)).restrict fun i q s r => onOrganization (some 7) i q s r = true)
      (programs allowingHost.toPlatform Set.univ) Store.Fresh (onePrincipalRun ops) := by
  refine Schedule.perform_reach (.init ?_) fun p hp => ?_
  · exact ⟨rfl, rfl, rfl, fun _ => rfl, fun _ => rfl, fun _ => rfl, fun _ => rfl⟩
  · obtain ⟨op, -, rfl⟩ := List.mem_map.1 hp
    exact ⟨op, trivial, rfl⟩

/-- What a payment of the principal is recorded as. -/
def paymentIn (s : Store (Fin 1)) : Except PyError Recorded :=
  submitIntent s.db allowingHost.toPlatform allowingHost.signer draftingAgent 4
    (fun o => allowingHost.opa (s.opa o)) (draftRequest "vendor_payment")

theorem exists_payment {s : Store (Fin 1)} {c : Recorded → Bool}
    (h : (paymentIn s).toOption.any c = true) : ∃ r, paymentIn s = .ok r ∧ c r = true := by
  obtain ⟨r, hr, hc⟩ := (Option.any_eq_true _ _).1 h
  cases hpayment : paymentIn s with
  | error e =>
    rw [hpayment] at hr
    cases hr
  | ok r' =>
    rw [hpayment] at hr
    cases hr
    exact ⟨r, rfl, hc⟩

/-- Two policies are deployed. -/
def bothDeployed : List Operation :=
  author 1 (samplePolicy "1" "ops") (some 7) ++ [.deployPolicy 1 (some 7) 3] ++
    author 2 (samplePolicy "2" "sales") (some 7) ++ [.deployPolicy 2 (some 7) 3]

theorem versionPinning_deployed : ∃ r, paymentIn (onePrincipalRun bothDeployed).store = .ok r ∧
    r.decision.policyId = some 2 ∧
    WellPinned (onePrincipalRun bothDeployed).store.db (some 7)
      ((onePrincipalRun bothDeployed).store.opa (some 7)) r := by
  have hsettled : (onePrincipalRun bothDeployed).store.settled client (some 7) = true := by
    decide +kernel
  have ho : organizationOf (onePrincipalRun bothDeployed).store.db draftingAgent = some 7 := by
    decide +kernel
  have hpaid : (paymentIn (onePrincipalRun bothDeployed).store).toOption.any
      (fun r => r.decision.policyId = some 2) = true := by
    decide +kernel
  obtain ⟨r, hr, hpinned⟩ := exists_payment hpaid
  exact ⟨r, hr, of_decide_eq_true hpinned, versionPinning (onePrincipalRun_reach _) hsettled ho hr⟩

theorem mem_join {sep : Source} {x : Sym} {parts : List Source} (part : Source) (hpart : part ∈ parts)
    (hx : x ∈ part) : x ∈ RegoGenerator.join sep parts := by
  induction parts with
  | nil => cases hpart
  | cons first parts ih =>
    cases parts with
    | nil => rwa [RegoGenerator.join, ← List.mem_singleton.1 hpart]
    | cons second parts =>
      rw [RegoGenerator.join, List.mem_append, List.mem_append]
      · rcases List.mem_cons.1 hpart with rfl | hpart
        · exact .inl (.inl hx)
        · exact .inr (ih hpart)
      · exact nofun

/-- A module says of each of its policies that it is evaluated. -/
theorem Contains.writes {source : Source} {entries : List ManifestEntry}
    (h : Contains (some source) entries) {e : ManifestEntry} (he : e ∈ entries) :
    .json (.str e.id) ∈ source := by
  obtain ⟨policies, bundleId, version, now, bundle, errors, hcompile, rfl, hentries⟩ := h
  obtain ⟨-, -, -, hbuild⟩ := CompilerV2.compileBundle_ok hcompile
  obtain ⟨rules, -, hsource, -⟩ := CompilerV2.buildBundle_ok hbuild
  obtain ⟨p, hp, rfl⟩ := List.mem_map.1 (hentries.mem_iff.2 he)
  have hline : text "evaluated_mandates contains " ++ RegoGenerator.regoLiteral (.str p.id) ++
      text " if \x7b " ++ text (RegoGenerator.ruleNameForPolicy p.id) ++ text " \x7d" ∈
      BundleBuilder.evaluatedLines policies := List.mem_map_of_mem hp
  rw [hsource, BundleBuilder.regoSource]
  refine mem_join (BundleBuilder.section_ "\n" (BundleBuilder.evaluatedLines policies)
    "# no policies evaluated") (by simp) ?_
  rw [BundleBuilder.section_, if_neg (by simp [List.ne_nil_of_mem hline])]
  refine mem_join _ hline ?_
  simp [RegoGenerator.regoLiteral, BundleBuilder.manifestEntry]

theorem WellPinned.writes {db : Db} {o : Option Uuid} {module : Option Source} {r : Recorded} {v : ℕ}
    {id : String} (h : WellPinned db o module r) (hv : r.decision.policyId = some v)
    (hlisted : ∀ p ∈ db.policies, p.version = v → ∃ m, p.bundleManifest = some m ∧
      ∃ e ∈ m.policies, e.id = id) :
    ∃ source, module = some source ∧ .json (.str id) ∈ source := by
  rcases h with ⟨hnone, -⟩ | ⟨p, hp, -, -, hversion, -, -, m, hm, hcontains⟩
  · rw [hv] at hnone
    cases hnone
  obtain ⟨m', hm', e, he, rfl⟩ := hlisted p hp (Option.some.inj (hversion.symm.trans hv))
  obtain rfl : m' = m := Option.some.inj (hm'.symm.trans hm)
  cases module with
  | none =>
    rw [show m'.policies = [] from hcontains] at he
    cases he
  | some source => exact ⟨source, rfl, hcontains.writes he⟩

/-- A module in which an id is not written. -/
def omits (id : String) (source : Source) : Bool :=
  source.all fun x => BundleBuilder.written x ≠ BundleBuilder.written (.json (.str id))

/-- And one of them is retired. -/
def oneRetired : List Operation := bothDeployed ++ [.retirePolicy 2 (some 7) "owner" none 4]

theorem oneRetired_listed : (onePrincipalRun oneRetired).store.db.policies.all (fun p => p.version = 2 →
    p.bundleManifest.any fun m => m.policies.any fun e => e.id = "2") = true := by
  decide +kernel

theorem oneRetired_served : ((onePrincipalRun oneRetired).store.opa (some 7)).any (omits "2") = true := by
  decide +kernel

/-- The row that is pinned lists both policies, and the module contains the first. -/
theorem versionPinning_retired :
    Reach ((machine allowingHost (Fin 1)).restrict fun i q s r => onOrganization (some 7) i q s r = true)
      (programs allowingHost.toPlatform Set.univ) Store.Fresh (onePrincipalRun oneRetired) ∧
    (∀ i, (onePrincipalRun oneRetired).running i = none) ∧
    ∃ r, paymentIn (onePrincipalRun oneRetired).store = .ok r ∧ r.decision.outcome = .allow ∧
      r.decision.policyId = some 2 ∧
      ¬ WellPinned (onePrincipalRun oneRetired).store.db (some 7)
        ((onePrincipalRun oneRetired).store.opa (some 7)) r := by
  have hidle : ∀ i, ((onePrincipalRun oneRetired).running i).isNone = true := by decide +kernel
  have hpaid : (paymentIn (onePrincipalRun oneRetired).store).toOption.any
      (fun r => r.decision.outcome = .allow ∧ r.decision.policyId = some 2) = true := by
    decide +kernel
  obtain ⟨r, hr, hpinned⟩ := exists_payment hpaid
  obtain ⟨hallow, htwo⟩ := of_decide_eq_true hpinned
  refine ⟨onePrincipalRun_reach _, fun i => Option.isNone_iff_eq_none.1 (hidle i), r, hr, hallow, htwo, ?_⟩
  intro hpins
  obtain ⟨source, hsource, hwritten⟩ := hpins.writes htwo fun p hp hversion => by
    have hmanifest : p.bundleManifest.any (fun m => m.policies.any fun e => e.id = "2") = true := by
      simpa [hversion] using List.all_eq_true.1 oneRetired_listed p hp
    obtain ⟨m, hm, hm'⟩ := (Option.any_eq_true _ _).1 hmanifest
    obtain ⟨e, he, hid⟩ := List.any_eq_true.1 hm'
    exact ⟨m, hm, e, he, of_decide_eq_true hid⟩
  have homits : omits "2" source = true := by simpa [hsource] using oneRetired_served
  exact of_decide_eq_true (List.all_eq_true.1 homits _ hwritten) rfl

end PayReality
