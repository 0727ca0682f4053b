import PayReality.Lifecycle.Reviews

/-!
# Deployment keeps the contract

A reconciliation loads the module of what it has listed. A deployment compiles the version that it
has read, flushes the next row of `policies`, loads OPA, and commits; whatever it raises, it rolls
back first.
-/

namespace PayReality

open Program Rego RuntimePolicyService LifecycleService Service

variable {ι : Type} [DecidableEq ι] {T : Terms ι} {H : Host} {s t u : Store ι} {i : ι}
  {key : Uuid} {o : Option Uuid} {row : RuntimePolicyRecord} {now : Timestamp}

/-! ## OPA -/

theorem Store.load_later {plain : Write → Prop} (source : Option Source) :
    Later plain i s (s.load i o source) := by
  unfold Store.load
  split <;> exact ⟨.of_db rfl rfl, fun _ _ => rfl⟩

theorem Store.load_pending (source : Option Source) : (s.load i o source).pending = s.pending := by
  unfold Store.load
  split <;> rfl

theorem Store.load_opa (source : Option Source) :
    (s.load i o source).opa = Function.update s.opa o source := by
  unfold Store.load
  split <;> rfl

omit [DecidableEq ι] in
theorem Listed.rely {source : Option Source} (h : Listed i o source s) (hst : Rely T i s t) :
    Listed i o source t := by
  obtain ⟨db₀, hseen, hmodule, halone⟩ := h
  exact ⟨db₀, hst.seen ▸ hseen, hmodule, fun hi => hst.alone hi ▸ halone hi⟩

theorem byKey_eq_nil {rows : List RuntimePolicyRecord} : Db.byKey rows = [] ↔ rows = [] := by
  rw [Db.byKey, ← List.length_eq_zero_iff, List.length_insertionSort, List.length_eq_zero_iff]

/-- The module of what has been listed is loaded. -/
theorem wp_uploadListed {source : Source} (hidle : s.pending i = none)
    (hlisted : Listed i o (some source) s) :
    wp (contract T H) i (uploadPolicy o source) (fun _ => Onward T i s) (fun _ => Onward T i s) s := by
  refine wp_send fun t hst _ => ⟨.inr ⟨hst.pending.trans hidle, hlisted.rely hst⟩, ?_⟩
  have hdone : ∀ u, Later T.plain i t u → u.pending = t.pending → Onward T i s u := fun u htu hp =>
    ⟨hst.toLater.trans htu, by rw [hp]; exact hst.pending.trans hidle⟩
  intro r u hstep
  rcases hstep with ⟨-, rfl⟩ | ⟨-, rfl | rfl⟩
  · refine ⟨fun _ _ => hdone _ ?_ ?_, fun _ _ => hdone _ ?_ ?_⟩ <;>
      first | exact (Store.load_later _).trans ⟨.of_db rfl rfl, fun _ _ => rfl⟩ |
        exact Store.load_pending _
  · exact ⟨fun _ _ => hdone _ .refl rfl, fun _ _ => hdone _ .refl rfl⟩
  · exact ⟨fun _ _ => hdone _ ⟨.of_db rfl rfl, fun _ _ => rfl⟩ rfl,
      fun _ _ => hdone _ ⟨.of_db rfl rfl, fun _ _ => rfl⟩ rfl⟩

theorem wp_deleteListed (hidle : s.pending i = none) (hlisted : Listed i o none s) :
    wp (contract T H) i (deletePolicy o) (fun _ => Onward T i s) (fun _ => Onward T i s) s := by
  refine wp_send fun t hst _ => ⟨⟨hst.pending.trans hidle, hlisted.rely hst⟩, ?_⟩
  have hdone : ∀ u, Later T.plain i t u → u.pending = t.pending → Onward T i s u := fun u htu hp =>
    ⟨hst.toLater.trans htu, by rw [hp]; exact hst.pending.trans hidle⟩
  intro r u hstep
  rcases hstep with ⟨-, rfl⟩ | ⟨-, rfl | rfl⟩
  · exact ⟨fun _ _ => hdone _ (Store.load_later _) (Store.load_pending _),
      fun _ _ => hdone _ (Store.load_later _) (Store.load_pending _)⟩
  · exact ⟨fun _ _ => hdone _ .refl rfl, fun _ _ => hdone _ .refl rfl⟩
  · exact ⟨fun _ _ => hdone _ ⟨.of_db rfl rfl, fun _ _ => rfl⟩ rfl,
      fun _ _ => hdone _ ⟨.of_db rfl rfl, fun _ _ => rfl⟩ rfl⟩

/-- The compilation of what has been listed is loaded. -/
theorem wp_uploadActive {db₀ : Db} {bundleId : String} (hidle : s.pending i = none)
    (hseen : s.seen i (.activeRecords o) = some db₀)
    (halone : Subsingleton ι → s.db.records = db₀.records) :
    wp (contract T H) i (uploadActive o (Db.byKey (db₀.activeRecords o)) bundleId now)
      (fun _ => Onward T i s) (fun _ => Onward T i s) s := by
  refine wp_bind (wp_lift (fun result hresult => ?_) fun e _ => ⟨.refl, hidle⟩)
  obtain ⟨bundle, errors⟩ := result
  cases bundle with
  | none => exact ⟨.refl, hidle⟩
  | some bundle =>
    exact wp_uploadListed hidle ⟨db₀, hseen, ⟨bundleId, now, bundle, errors, hresult, rfl⟩, halone⟩

theorem wp_reconcile (hidle : s.pending i = none) :
    wp (contract T H) i (reconcileOrganizationOpaState o now) (fun _ => Onward T i s)
      (fun _ => Onward T i s) s := by
  refine wp_bind (wp_select (fun t hst _ => ?_) fun t hst => .of_still hst.toStill hidle)
  have ht := Onward.of_still (hst.toStill.trans (.saw (q := .activeRecords o) rfl)) hidle
  have hseen : (t.saw i (.activeRecords o)).seen i (.activeRecords o) = some t.db := by
    rw [Store.saw_seen, if_pos rfl]
  show wp _ i (if (Db.byKey (t.db.activeRecords o)).isEmpty then deletePolicy o
    else uploadActive o (Db.byKey (t.db.activeRecords o)) "reconcile" now) _ _ _
  split
  · next hempty =>
    have hnil : t.db.activeRecords o = [] := byKey_eq_nil.1 (List.isEmpty_iff.1 hempty)
    exact wp_mono (wp_deleteListed ht.idle ⟨t.db, hseen, hnil, fun _ => rfl⟩)
      (fun _ _ => ht.toLater.onward) fun _ _ => ht.toLater.onward
  · exact wp_mono (wp_uploadActive ht.idle hseen fun _ => rfl) (fun _ _ => ht.toLater.onward)
      fun _ _ => ht.toLater.onward

theorem wp_reconcileOrganizations {organizations : List (Option Uuid)} (hidle : s.pending i = none) :
    wp (contract T H) i (reconcileOrganizations now organizations) (fun _ => Onward T i s)
      (fun _ => Onward T i s) s := by
  induction organizations generalizing s with
  | nil => exact ⟨.refl, hidle⟩
  | cons o organizations ih =>
    refine wp_bind (wp_select (fun t hst _ => ?_) fun t hst => .of_still hst.toStill hidle)
    have ht := Onward.of_still (hst.toStill.trans (.saw (q := .activeRecords o) rfl)) hidle
    have hseen : (t.saw i (.activeRecords o)).seen i (.activeRecords o) = some t.db := by
      rw [Store.saw_seen, if_pos rfl]
    show wp _ i (if (Db.byKey (t.db.activeRecords o)).isEmpty then
        reconcileOrganizations now organizations
      else uploadActive o (Db.byKey (t.db.activeRecords o)) "startup-reconcile" now >>= fun _ =>
        reconcileOrganizations now organizations) _ _ _
    split
    · exact wp_mono (ih ht.idle) (fun _ _ => ht.toLater.onward) fun _ _ => ht.toLater.onward
    · refine wp_bind (wp_mono (wp_uploadActive ht.idle hseen fun _ => rfl) (fun _ u htu => ?_)
        fun _ _ => ht.toLater.onward)
      exact wp_mono (ih htu.idle) (fun _ _ h => ht.toLater.onward (htu.toLater.onward h))
        fun _ _ h => ht.toLater.onward (htu.toLater.onward h)

theorem wp_reconcileAll (hidle : s.pending i = none) :
    wp (contract T H) i (reconcileOpaWithActivePolicies now) (fun _ => Onward T i s)
      (fun _ => Onward T i s) s := by
  refine wp_bind (wp_look rfl (fun organizations t hst => ?_) fun e t hst => .of_still hst hidle)
  have ht := Onward.of_still hst hidle
  split
  · exact ht
  · refine wp_bind (wp_mono (wp_reconcileOrganizations ht.idle) (fun _ u htu => ?_)
      fun _ _ => ht.toLater.onward)
    exact ht.toLater.onward htu

/-! ## A deployment -/

/-- What a session cannot change about the row that it has flushed. -/
def Pending.core (p : Pending) : Option ℕ × PolicyRow := (p.prior, p.row)

/-- `t` is what `s` has become while `i` goes on with its deployment. -/
structure Deploying (T : Terms ι) (i : ι) (s t : Store ι) : Prop extends Later T.plain i s t where
  compiles : ∀ k o, t.seen i (.otherActivePolicies k o) = s.seen i (.otherActivePolicies k o)
  flushed : (t.pending i).map Pending.core = (s.pending i).map Pending.core
  aloneDb : Subsingleton ι → t.db = s.db
  locked : (s.pending i).isSome → ∀ r ∈ t.db.records, r.status = .active →
    ∃ q ∈ s.db.records, q.status = .active ∧ q.ident = r.ident

/-- `t` is what `s` has become while `i` goes on with its deployment, and loads nothing. -/
structure Within (T : Terms ι) (i : ι) (s t : Store ι) : Prop extends Deploying T i s t where
  uploaded : t.uploaded i = s.uploaded i
  aloneOpa : Subsingleton ι → t.opa = s.opa

section

omit [DecidableEq ι]

theorem Deploying.trans (h : Deploying T i s t) (h' : Deploying T i t u) : Deploying T i s u where
  toLater := h.toLater.trans h'.toLater
  compiles k o := (h'.compiles k o).trans (h.compiles k o)
  flushed := h'.flushed.trans h.flushed
  aloneDb hi := (h'.aloneDb hi).trans (h.aloneDb hi)
  locked hp r hr hact := by
    have hp' : (t.pending i).isSome := by
      have := congrArg Option.isSome h.flushed
      simpa [hp] using this
    obtain ⟨q, hq, hqact, hqr⟩ := h'.locked hp' r hr hact
    obtain ⟨q₀, hq₀, hq₀act, hq₀q⟩ := h.locked hp q hq hqact
    exact ⟨q₀, hq₀, hq₀act, hq₀q.trans hqr⟩

/-- A step of the session that leaves the database alone. -/
theorem Deploying.of_db (hdb : t.db = s.db) (hlog : t.log = s.log)
    (hgates : ∀ k o, t.seen i (.otherActiveRuntimePolicies k o) =
      s.seen i (.otherActiveRuntimePolicies k o))
    (hcompiles : ∀ k o, t.seen i (.otherActivePolicies k o) = s.seen i (.otherActivePolicies k o))
    (hflushed : (t.pending i).map Pending.core = (s.pending i).map Pending.core) :
    Deploying T i s t where
  toLater := ⟨.of_db hdb hlog, hgates⟩
  compiles := hcompiles
  flushed := hflushed
  aloneDb _ := hdb
  locked _ r hr hact := ⟨r, hdb ▸ hr, hact, rfl⟩

theorem Within.refl : Within T i s s where
  toDeploying := .of_db rfl rfl (fun _ _ => rfl) (fun _ _ => rfl) rfl
  uploaded := rfl
  aloneOpa _ := rfl

theorem Within.trans (h : Within T i s t) (h' : Within T i t u) : Within T i s u where
  toDeploying := h.toDeploying.trans h'.toDeploying
  uploaded := h'.uploaded.trans h.uploaded
  aloneOpa hi := (h'.aloneOpa hi).trans (h.aloneOpa hi)

theorem Within.of_rely (h : Rely T i s t) : Within T i s t where
  toLater := h.toLater
  compiles k o := by rw [h.seen]
  flushed := by rw [h.pending]
  aloneDb := h.aloneDb
  locked hp := (h.locked hp).2
  uploaded := h.uploaded
  aloneOpa := h.aloneOpa

end

/-- A query whose answer a deployment is not made from, nor a gate. -/
def Select.aside : Select → Bool
  | .otherActivePolicies _ _ | .otherActiveRuntimePolicies _ _ => false
  | _ => true

theorem Within.saw {q : Select} (hq : q.aside = true) : Within T i s (s.saw i q) := by
  refine ⟨.of_db rfl rfl (fun k o => ?_) (fun k o => ?_) rfl, rfl, fun _ => rfl⟩ <;>
    rw [Store.saw_seen, if_neg] <;> rintro rfl <;> cases hq

omit [DecidableEq ι] in
theorem Compiled.later {bundle : PolicyBundle} (h : Compiled T H i row o bundle s)
    (hst : Later T.plain i s t)
    (hcompiles : ∀ k o, t.seen i (.otherActivePolicies k o) = s.seen i (.otherActivePolicies k o))
    (halone : Subsingleton ι → t.db = s.db) : Compiled T H i row o bundle t where
  core := hst.db.cores.subset h.core
  org_eq := h.org_eq
  trail ht := (h.trail ht).mono hst.log.sublist
  gate := T.gate_later hst h.gate
  alone hi := halone hi ▸ h.alone hi
  others := by
    obtain ⟨db₀, now, hseen, hcompile, hrecords⟩ := h.others
    exact ⟨db₀, now, hcompiles _ _ ▸ hseen, hcompile, fun hi => halone hi ▸ hrecords hi⟩

omit [DecidableEq ι] in
theorem Compiled.deploying {bundle : PolicyBundle} (h : Compiled T H i row o bundle s)
    (hst : Deploying T i s t) : Compiled T H i row o bundle t :=
  h.later hst.toLater hst.compiles hst.aloneDb

/-- A session has compiled a version and flushed the row of `policies` that goes with it. -/
structure Flushed (T : Terms ι) (H : Host) (i : ι) (row : RuntimePolicyRecord)
    (bundle : PolicyBundle) (prior : Option ℕ) (policyRow : PolicyRow) (s : Store ι) : Prop where
  compiled : Compiled T H i row policyRow.organizationId bundle s
  pending : (s.pending i).map Pending.core = some (prior, policyRow)
  prior : ∀ v, prior = some v → (v, policyRow.organizationId) ∈ s.db.policyCores

omit [DecidableEq ι] in
theorem Flushed.deploying {bundle : PolicyBundle} {prior : Option ℕ} {policyRow : PolicyRow}
    (h : Flushed T H i row bundle prior policyRow s) (hst : Deploying T i s t) :
    Flushed T H i row bundle prior policyRow t where
  compiled := h.compiled.deploying hst
  pending := hst.flushed.trans h.pending
  prior v hv := hst.db.policyCores.subset (h.prior v hv)

/-- The version that is active for the key, if there is one, is the one that is replaced. -/
structure Replaces (row : RuntimePolicyRecord) (replaced : Option RuntimePolicyRecord)
    (s : Store ι) : Prop where
  all : ∀ r ∈ s.db.records, r.status = .active → r.policyKey = row.policyKey →
    r.ident = row.ident ∨ ∃ q, replaced = some q ∧ q.ident = r.ident
  core : ∀ q, replaced = some q → q.policyKey = row.policyKey ∧ q.core ∈ s.db.cores

omit [DecidableEq ι] in
theorem Replaces.deploying {replaced : Option RuntimePolicyRecord} (h : Replaces row replaced s)
    (hst : Deploying T i s t) (hp : (s.pending i).isSome) : Replaces row replaced t where
  all r hr hact hkey := by
    obtain ⟨q, hq, hqact, hqr⟩ := hst.locked hp r hr hact
    rw [← hqr]
    exact h.all q hq hqact ((RuntimePolicyRecord.key_of_ident hqr).trans hkey)
  core q hq := ⟨(h.core q hq).1, hst.db.cores.subset (h.core q hq).2⟩

omit [DecidableEq ι] in
/-- The versions of a key belong to one organization, so that no active one is overlooked. -/
theorem Inv.replaces (h : Inv T s) (hcore : row.core ∈ s.db.cores) :
    Replaces row ((Select.activeVersion row.policyKey row.organizationId).run H.toPlatform s.db) s := by
  obtain ⟨row₀, hrow₀, heq⟩ := Db.exists_of_core hcore
  have hident := RuntimePolicyRecord.ident_of_core heq
  obtain ⟨r₁, hr₁, hfirst, horg⟩ := h.db.first row₀ hrow₀
  rw [RuntimePolicyRecord.key_of_ident hident] at hfirst
  rw [RuntimePolicyRecord.org_of_core heq] at horg
  refine ⟨fun r hr hact hkey => .inr ?_, fun q hq => ?_⟩
  · obtain ⟨r₂, hr₂, hfirst', horg'⟩ := h.db.first r hr
    have hsame : r₂ = r₁ := h.db.eq_of_ident hr₂ hr₁ (by rw [hfirst', hfirst, hkey])
    have hin : r ∈ s.db.activeRecords row.organizationId :=
      s.db.mem_activeRecords.2 ⟨hr, hact, by rw [← horg', hsame, horg]⟩
    cases hfound : (Select.activeVersion row.policyKey row.organizationId).run H.toPlatform s.db with
    | none =>
      have := List.find?_eq_none.1 hfound r hin
      simp [hkey] at this
    | some q =>
      obtain ⟨hq, hqact, -⟩ := s.db.mem_activeRecords.1 (List.mem_of_find?_eq_some hfound)
      have hqkey : q.policyKey = row.policyKey := by simpa using List.find?_some hfound
      exact ⟨q, rfl, h.db.oneActive q hq r hr hqact hact (hqkey.trans hkey.symm)⟩
  · obtain ⟨hmem, -⟩ := s.db.mem_activeRecords.1 (List.mem_of_find?_eq_some hq)
    exact ⟨by simpa using List.find?_some hq, Db.mem_cores hmem⟩

/-! ### The statements of a deployment -/

theorem wp_selectWithin {q : Select} (hq : q.aside = true) {R : q.Answer → Store ι → Prop}
    {E : PyError → Store ι → Prop}
    (hR : ∀ t, Within T i s t → Inv T t → Within T i s (t.saw i q) →
      R (q.run H.toPlatform t.db) (t.saw i q))
    (hE : ∀ e t, Within T i s t → E e t) : wp (contract T H) i (Service.select q) R E s :=
  wp_select (fun t hst hinv => hR t (.of_rely hst) hinv ((Within.of_rely hst).trans (.saw hq)))
    fun _ hst => hE _ _ (.of_rely hst)

theorem wp_flushMandate {m : Mandate} {R : Unit → Store ι → Prop} {E : PyError → Store ι → Prop}
    (hR : ∀ t, Within T i s t → R () t) (hE : ∀ e t, Within T i s t → E e t) :
    wp (contract T H) i (Service.flushMandate m) R E s := by
  refine wp_send fun t hst _ => ⟨trivial, fun r u hstep => ?_⟩
  have ht : Within T i s t := .of_rely hst
  rcases hstep with ⟨-, rfl⟩ | ⟨-, rfl⟩ | ⟨-, rfl⟩
  · have hset : Within T i s (t.setPending i ((t.pending i).map fun p =>
        { p with mandates := p.mandates ++ [m] })) := by
      refine ht.trans ⟨.of_db rfl rfl (fun _ _ => rfl) (fun _ _ => rfl) ?_, rfl, fun _ => rfl⟩
      rw [Store.setPending_pending, if_pos rfl, Option.map_map]
      rfl
    exact ⟨fun _ _ => hR _ hset, fun e _ => hE e _ hset⟩
  · exact ⟨fun _ _ => hR _ ht, fun e _ => hE e _ ht⟩
  · exact ⟨fun _ _ => hR _ ht, fun e _ => hE e _ ht⟩

/-- A mandate is made where there is none: nothing that was authored changes. -/
theorem wp_ensureMandate {constraints : Constraints} {version : ℕ}
    {R : Constraints → Store ι → Prop} {E : PyError → Store ι → Prop}
    (hR : ∀ c t, Within T i s t → { c with mandateId := none } = { constraints with mandateId := none } →
      R c t)
    (hE : ∀ e t, Within T i s t → E e t) :
    wp (contract T H) i (ensureMandate H.toPlatform constraints version now) R E s := by
  unfold ensureMandate
  split
  · split
    · exact hE _ s .refl
    next id _ =>
    refine wp_bind (wp_selectWithin (q := .authority id) rfl (fun t _ _ hst => ?_) fun e t hst => hE e t hst)
    cases (Select.authority id).run H.toPlatform t.db with
    | none => exact hR _ _ hst rfl
    | some authority =>
      refine wp_bind (wp_send fun u htu _ => ⟨trivial, fun r v hstep => ?_⟩)
      obtain ⟨mandateId, rfl, rfl⟩ := hstep
      refine ⟨fun a ha => ?_, nofun⟩
      have hu := hst.trans (.of_rely htu)
      exact wp_bind (wp_flushMandate (fun w huw => hR _ w (hu.trans huw) rfl) fun e w huw =>
        hE e w (hu.trans huw))
  · exact hR _ s .refl rfl

theorem deployed_authored {content : RuntimePolicy} {constraints : Constraints}
    (h : { constraints with mandateId := none } = { content.constraints with mandateId := none }) :
    (deployedContent content constraints now).authored = content.authored := by
  unfold deployedContent RuntimePolicy.authored
  dsimp only
  rw [h]

variable {bundle : PolicyBundle}

/-- The commit of a deployment. -/
theorem wp_commitDeploy {p : Pending} {replaced : Option RuntimePolicyRecord} {content : RuntimePolicy}
    {R : Unit → Store ι → Prop} {E : PyError → Store ι → Prop} (hpending : s.pending i = some p)
    (hd : ∀ t, Rely T i s t → Deploys T H i p row bundle replaced content t)
    (hR : ∀ t, Onward T i s t → R () t) (hE : ∀ e t, Later T.plain i s t → E e t) :
    wp (contract T H) i (Service.commit (deployWrites row replaced content)) R E s := by
  refine wp_send fun t hst hinv => ?_
  have hp : t.pending i = some p := hst.pending.trans hpending
  have hdt := hd t hst
  refine ⟨?_, fun r u hstep => ?_⟩
  · show Pre T H i (.commit _) t
    rw [Pre, hp]
    exact ⟨row, bundle, replaced, content, rfl, hdt⟩
  have hcommit : Onward T i t (t.commit i (deployWrites row replaced content)) := by
    have hdb : (t.commit i (deployWrites row replaced content)).db =
        t.db.commit (some p) (deployWrites row replaced content) := by
      rw [Store.commit_db, hp]
    refine ⟨⟨⟨hdb ▸ hdt.grows hinv.db (hinv.next i p hp).2, ?_, fun _ => ?_⟩, fun k o => ?_⟩, ?_⟩
    · rw [Store.commit_log]
      exact List.prefix_append _ _
    · rw [hdb]
      exact hdt.cores hinv.db
    · rw [Store.commit_seen]
    · rw [Store.commit_pending, Function.update_self]
  rcases hstep with hstep | ⟨rfl, rfl⟩
  · split at hstep
    · obtain ⟨rfl, rfl⟩ := hstep
      exact ⟨by simp, fun e _ => hE e u hst.toLater⟩
    · obtain ⟨rfl, rfl⟩ := hstep
      exact ⟨fun _ _ => hR _ (hst.toLater.onward hcommit), by simp⟩
  · exact ⟨by simp, fun e _ => hE e u hst.toLater⟩

omit [DecidableEq ι] in
theorem Flushed.isSome {prior : Option ℕ} {policyRow : PolicyRow}
    (h : Flushed T H i row bundle prior policyRow s) : (s.pending i).isSome := by
  have := congrArg Option.isSome h.pending
  simpa using this

omit [DecidableEq ι] in
/-- All that the commit of a deployment needs. -/
theorem Flushed.deploys {prior : Option ℕ} {version : ℕ} {replaced : Option RuntimePolicyRecord}
    {content : RuntimePolicy} {p : Pending}
    (h : Flushed T H i row bundle prior (deployedRow row o version bundle now) s)
    (hp : s.pending i = some p) (hreplaces : Replaces row replaced s)
    (huploaded : s.uploaded i = some bundle.regoSource)
    (hserved : Subsingleton ι → s.opa o = some bundle.regoSource)
    (hcontent : content.authored = row.content.authored) :
    Deploys T H i p row bundle replaced content s := by
  obtain ⟨q, hq, hcore⟩ := Option.map_eq_some_iff.1 h.pending
  obtain rfl := Option.some.inj (hq.symm.trans hp)
  obtain ⟨hprior, hrow⟩ : q.prior = prior ∧ q.row = deployedRow row o version bundle now :=
    Prod.ext_iff.1 hcore
  have horg : q.row.organizationId = o := by rw [hrow]; rfl
  refine ⟨?_, ?_, ?_, ?_, fun v hv => ?_, huploaded, fun hi => ?_, hcontent, hreplaces.all,
    hreplaces.core⟩
  · rw [horg]
    exact h.compiled
  · rw [hrow]
    rfl
  · rw [hrow]
    rfl
  · rw [hrow]
    rfl
  · rw [horg]
    exact h.prior v (hprior ▸ hv)
  · rw [horg]
    exact hserved hi

/-- The bundle is loaded, and OPA serves it from here on. -/
theorem wp_uploadBundle {source : Source} (hsome : (s.pending i).isSome) {R : Unit → Store ι → Prop}
    (hR : ∀ t, Deploying T i s t → t.uploaded i = some source → t.opa o = some source → R () t) :
    wp (contract T H) i (Service.uploadPolicy o source) R (fun _ => Later T.plain i s) s := by
  refine wp_send fun t hst _ => ⟨.inl (hst.pending ▸ hsome), fun r u hstep => ?_⟩
  rcases hstep with ⟨rfl, rfl⟩ | ⟨rfl, rfl | rfl⟩
  · refine ⟨fun _ _ => hR _ ((Within.of_rely hst).toDeploying.trans ?_) ?_ ?_, nofun⟩
    · unfold Store.load
      split <;> exact .of_db rfl rfl (fun _ _ => rfl) (fun _ _ => rfl) rfl
    · exact Function.update_self ..
    · show (t.load i o (some source)).opa o = _
      rw [Store.load_opa, Function.update_self]
  · exact ⟨nofun, fun _ _ => hst.toLater⟩
  · exact ⟨nofun, fun _ _ => hst.toLater.trans ⟨.of_db rfl rfl, fun _ _ => rfl⟩⟩

theorem wp_publish {prior : Option ℕ} {version : ℕ}
    (h : Flushed T H i row bundle prior (deployedRow row o version bundle now) s) :
    wp (contract T H) i (publish H.toPlatform row o version bundle now) (fun _ => Onward T i s)
      (fun _ => Later T.plain i s) s := by
  refine wp_bind (wp_uploadBundle h.isSome fun t hst huploaded hserved => ?_)
  have hflushed := h.deploying hst
  refine wp_bind (wp_selectWithin (q := .activeVersion row.policyKey o) rfl (fun u hu hinv htu => ?_)
    fun e u htu => hst.toLater.trans htu.toLater)
  have hreplaces : Replaces row ((Select.activeVersion row.policyKey o).run H.toPlatform u.db) u := by
    have := hinv.replaces (H := H) (hflushed.deploying hu.toDeploying).compiled.core
    rwa [hflushed.compiled.org_eq] at this
  have hsaw : Within T i u (u.saw i (.activeVersion row.policyKey o)) := .saw rfl
  have hsome := (hflushed.deploying hu.toDeploying).isSome
  generalize (Select.activeVersion row.policyKey o).run H.toPlatform u.db = replaced at hreplaces ⊢
  refine wp_bind (wp_ensureMandate (fun constraints v huv hconstraints => ?_) fun e v huv =>
    hst.toLater.trans (htu.toLater.trans huv.toLater))
  have htv := htu.trans huv
  obtain ⟨p, hp, -⟩ := Option.map_eq_some_iff.1 (hflushed.deploying htv.toDeploying).pending
  refine wp_bind (wp_commitDeploy hp (fun w hvw => show Deploys T H i p row bundle _ _ w from ?_)
    (fun w hvw => hst.toLater.onward (htv.toLater.onward hvw))
    fun e w hvw => hst.toLater.trans (htv.toLater.trans hvw))
  have huw := huv.trans (.of_rely hvw)
  have htw := htu.trans huw
  refine (hflushed.deploying htw.toDeploying).deploys (hvw.pending.trans hp)
    (hreplaces.deploying (hsaw.trans huw).toDeploying hsome) (htw.uploaded.trans huploaded)
    (fun hi => htw.aloneOpa hi ▸ hserved) (deployed_authored hconstraints)

omit [DecidableEq ι] in
/-- A version of `policies` that was the next one is taken, or still the next one. -/
theorem NextVersion.since {plain : Write → Prop} {version : ℕ} (h : NextVersion version s)
    (hst : Since plain s t) : NextVersion version t := by
  obtain ⟨m, hm, hle, hlater⟩ := h
  refine ⟨m, hm, hle.trans hst.db.maxVersion, fun hlt => ?_⟩
  rcases hle.lt_or_eq with hlt' | rfl
  · exact (hst.db.policyCores.map Prod.fst).subset (hlater hlt')
  · exact hst.db.nextVersion hlt

theorem wp_flushPolicy {prior : Option ℕ} {policyRow : PolicyRow} {R : Unit → Store ι → Prop}
    {E : PyError → Store ι → Prop}
    (hidle : s.pending i = none) (hactive : policyRow.status = .active)
    (hnext : NextVersion policyRow.version s)
    (hR : ∀ t, Rely T i s t → R () (t.setPending i (some ⟨prior, policyRow, []⟩)))
    (hE : ∀ e t, Onward T i s t → E e t) :
    wp (contract T H) i (Service.flushPolicy prior policyRow) R E s := by
  refine wp_send fun t hst _ => ⟨⟨hst.pending.trans hidle, hactive, hnext.since hst.toSince⟩,
    fun r u hstep => ?_⟩
  rcases hstep with ⟨-, hstep⟩ | ⟨rfl, rfl⟩
  · split at hstep
    · obtain ⟨rfl, rfl⟩ := hstep
      refine ⟨nofun, fun e _ => hE e _ ⟨hst.toLater.trans ⟨.of_db rfl rfl, fun _ _ => rfl⟩, ?_⟩⟩
      rw [Store.setPending_pending, if_pos rfl]
    · obtain ⟨rfl, rfl⟩ := hstep
      exact ⟨fun _ _ => hR t hst, nofun⟩
  · exact ⟨nofun, fun e _ => hE e _ (.of_still hst.toStill hidle)⟩

theorem wp_deployBundle (hidle : s.pending i = none) (h : Compiled T H i row o bundle s) :
    wp (contract T H) i (deployBundle H.toPlatform row o bundle now) (fun _ => Onward T i s)
      (fun _ => Onward T i s) s := by
  have hon : ∀ {t}, Within T i s t → t.pending i = none := fun hst => by
    have := hst.flushed
    rwa [hidle, Option.map_none, Option.map_eq_none_iff] at this
  refine wp_bind (wp_selectWithin (q := .activePolicy o) rfl (fun t hst _ ht => ?_) fun e t hst =>
    ⟨hst.toLater, hon hst⟩)
  have hprior : ∀ p, (Select.activePolicy o).run H.toPlatform t.db = some p →
      (p.version, o) ∈ t.db.policyCores := by
    intro p hp
    have hfound := List.find?_some hp
    rw [decide_eq_true_eq] at hfound
    exact hfound.2 ▸ List.mem_map_of_mem (List.mem_of_find?_eq_some hp)
  have hsaw : Within T i t (t.saw i (.activePolicy o)) := .saw rfl
  generalize (Select.activePolicy o).run H.toPlatform t.db = prior at hprior ⊢
  dsimp only
  split
  · exact ⟨ht.toLater, hon ht⟩
  refine wp_bind (wp_selectWithin (q := .maxPolicyVersion) rfl (fun u htu _ hu => ?_) fun e u htu =>
    ⟨(ht.trans htu).toLater, hon (ht.trans htu)⟩)
  have hsu := ht.trans hu
  have hnext : NextVersion ((Select.maxPolicyVersion).run H.toPlatform u.db + 1)
      (u.saw i .maxPolicyVersion) := ⟨_, rfl, le_rfl, fun hlt => absurd hlt (lt_irrefl _)⟩
  generalize (Select.maxPolicyVersion).run H.toPlatform u.db + 1 = version at hnext ⊢
  have hcores : ∀ v, prior.map PolicyRow.version = some v → (v, o) ∈ u.db.policyCores := by
    intro v hv
    obtain ⟨p, hp, rfl⟩ := Option.map_eq_some_iff.1 hv
    exact (hsaw.trans htu).db.policyCores.subset (hprior p hp)
  refine wp_bind (wp_flushPolicy (hon hsu) rfl hnext (fun v huv => ?_) fun e v huv =>
    hsu.toLater.onward huv)
  have hsv := hsu.trans (.of_rely huv)
  have hlater : Later T.plain i v (v.setPending i (some ⟨prior.map PolicyRow.version,
      deployedRow row o version bundle now, []⟩)) := ⟨.of_db rfl rfl, fun _ _ => rfl⟩
  have hflushed : Flushed T H i row bundle (prior.map PolicyRow.version)
      (deployedRow row o version bundle now) (v.setPending i (some ⟨prior.map PolicyRow.version,
        deployedRow row o version bundle now, []⟩)) := by
    refine ⟨(h.deploying hsv.toDeploying).later hlater (fun _ _ => rfl) fun _ => rfl, ?_, fun x hx =>
      huv.db.policyCores.subset (hcores x hx)⟩
    rw [Store.setPending_pending, if_pos rfl]
    rfl
  have hbase := hsv.toLater.trans hlater
  refine wp_bind (wp_tryCatch (wp_mono (wp_publish hflushed) (fun constraints w hw => ?_)
    fun e w hw => ?_))
  · refine wp_bind (wp_look rfl (fun _ x hwx => ?_) fun _ x hwx => ?_) <;>
      exact hbase.onward (hw.toLater.onward (.of_still hwx hw.idle))
  · refine wp_bind (Service.wp_rollback fun x hx _ => wp_bind (wp_mono (wp_reconcile hx.idle)
      (fun _ y hxy => ?_) fun _ y hxy => ?_)) <;>
      exact hbase.onward (hw.onward (hx.toLater.onward hxy))

/-- What a deployment needs of the run: the gate holds of every latest version that it may read. -/
def Gated (T : Terms ι) (i : ι) (key : Uuid) (o : Option Uuid) (s : Store ι) : Prop :=
  ∀ row t, Later T.plain i s t → Read T key o row t → T.gate i row.policyKey row.version o t

omit [DecidableEq ι] in
theorem Gated.later (h : Gated T i key o s) (hst : Later T.plain i s t) : Gated T i key o t :=
  fun row u htu hrow => h row u (hst.trans htu) hrow

theorem wp_deployPolicyAttempt {held : Option RuntimePolicyRecord} (hidle : s.pending i = none)
    (hheld : ∀ q, held = some q → Held T key o q s) (hgate : Gated T i key o s) :
    wp (contract T H) i (deployPolicyAttempt H.toPlatform key o now held) (fun _ => Onward T i s)
      (fun _ => Onward T i s) s := by
  unfold deployPolicyAttempt
  refine wp_latest hidle hheld fun row t hst _ hrow => ?_
  dsimp only
  split
  · exact ⟨.refl, hst.idle⟩
  next hstatus =>
  have hstatus : row.status = .compiled := by simpa using hstatus
  refine wp_bind (wp_bind (wp_select (fun u htu _ => ?_) fun u htu => .of_still htu.toStill hst.idle))
  have htu' : Still T.plain i t (u.saw i (.otherActivePolicies key o)) := htu.toStill.trans (.saw rfl)
  have hu := Onward.of_still htu' hst.idle
  have hseen : (u.saw i (.otherActivePolicies key o)).seen i (.otherActivePolicies key o) = some u.db := by
    rw [Store.saw_seen, if_pos rfl]
  refine wp_bind (wp_lift (fun result hresult => ?_) fun e _ => hu)
  split
  · exact hu
  next bundle hbundle =>
  split
  · exact hu
  obtain ⟨bundle', errors⟩ := result
  obtain rfl : bundle' = some bundle := hbundle
  have hrow' := hrow.still htu'
  have hcompiled : Compiled T H i row o bundle (u.saw i (.otherActivePolicies key o)) := by
    refine ⟨hrow'.core, hrow'.org_eq, fun ht => hstatus ▸ hrow'.trail ht,
      hgate row _ (hst.toLater.trans htu'.toLater) hrow', fun hi => ⟨?_, hstatus⟩, u.db, now, ?_, ?_,
      fun _ => rfl⟩
    · rw [hrow'.key_eq]
      exact hrow'.aloneLatest hi
    · rw [hrow'.key_eq]
      exact hseen
    · rw [hrow'.key_eq]
      exact ⟨errors, hresult⟩
  exact wp_mono (wp_deployBundle hu.idle hcompiled) (fun _ _ => hu.toLater.onward)
    fun _ _ => hu.toLater.onward

theorem wp_deployAttempts {n : ℕ} {held : Option RuntimePolicyRecord} (hidle : s.pending i = none)
    (hheld : ∀ q, held = some q → Held T key o q s) (hgate : Gated T i key o s) :
    wp (contract T H) i (deployAttempts H.toPlatform key o now n held) (fun _ => Onward T i s)
      (fun _ => Onward T i s) s := by
  induction n generalizing s held with
  | zero =>
    refine wp_bind (wp_mono (wp_reconcile hidle) (fun _ t hst => ?_) fun _ t hst => ?_) <;> exact hst
  | succ n ih =>
    refine wp_tryCatch (wp_mono (wp_deployPolicyAttempt hidle hheld hgate) (fun _ _ h => h)
      fun e t hst => ?_)
    split
    · refine wp_bind (Service.wp_rollback fun u htu _ => ?_)
      have hu := hst.toLater.onward htu
      exact wp_mono (ih htu.idle (by simp) (hgate.later hu.toLater)) (fun _ _ => hu.toLater.onward)
        fun _ _ => hu.toLater.onward
    · exact hst

theorem wp_deployPolicy {held : Option RuntimePolicyRecord} (hidle : s.pending i = none)
    (hheld : ∀ q, held = some q → Held T key o q s) (hgate : Gated T i key o s) :
    wp (contract T H) i (deployPolicy H.toPlatform key o now held) (fun _ => Onward T i s)
      (fun _ => Onward T i s) s :=
  wp_deployAttempts hidle hheld hgate

end PayReality
