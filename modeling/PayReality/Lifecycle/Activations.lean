import PayReality.Lifecycle.Deployments

/-!
# Activation, retirement and schedules keep the contract

An activation runs the safety checks and then deploys: what the checks have seen is what the gate of
its deployment rests on (`Terms.Passes`). With this every operation of the lifecycle keeps the
contract, whatever it is started with (`Terms.keeps`).
-/

namespace PayReality

open Program Rego RuntimePolicyService LifecycleService SafetyChecks Service

variable {ι : Type} [DecidableEq ι] {T : Terms ι} {H : Host} {s t u : Store ι} {i : ι}
  {key : Uuid} {o : Option Uuid} {row : RuntimePolicyRecord} {now : Timestamp}

/-! ## The safety checks -/

/-- The rows of principals never change. -/
theorem wp_getPrincipal {id : Uuid} {db₀ : Db} (hdb : s.db.principals = db₀.principals)
    {R : Option Principal → Store ι → Prop} {E : PyError → Store ι → Prop}
    (hR : ∀ t, Still T.plain i s t → R (dbPrincipal db₀ o id) t)
    (hE : ∀ e t, Still T.plain i s t → E e t) :
    wp (contract T H) i (getPrincipal id o) R E s := by
  refine wp_bind (wp_select (fun t hst _ => ?_) fun t hst => hE _ t hst.toStill)
  have heq : (((Select.principal id).run H.toPlatform t.db).filter fun p => p.organizationId = o) =
      dbPrincipal db₀ o id := by
    show ((t.db.principals.find? fun p => p.id = id).filter _) = _
    rw [hst.db.principals, hdb]
    rfl
  show R ((((Select.principal id).run H.toPlatform t.db).filter fun p => p.organizationId = o)) _
  rw [heq]
  exact hR _ (hst.toStill.trans (.saw rfl))

theorem wp_checkMissingPrincipal {candidate : RuntimePolicy} {db₀ : Db}
    (hdb : s.db.principals = db₀.principals)
    {R : List SafetyViolation → Store ι → Prop} {E : PyError → Store ι → Prop}
    (hR : ∀ t, Still T.plain i s t → R (dbMissing H.toPlatform db₀ candidate o) t)
    (hE : ∀ e t, Still T.plain i s t → E e t) :
    wp (contract T H) i (checkMissingPrincipal H.toPlatform candidate o) R E s := by
  unfold checkMissingPrincipal
  unfold dbMissing at hR
  split
  · next hnone =>
    rw [hnone] at hR
    exact hR s .refl
  · next id hid =>
    rw [hid] at hR
    exact wp_bind (wp_getPrincipal hdb (fun t hst => hR t hst) hE)

theorem wp_checkBrokenInheritance {candidate : RuntimePolicy} {policies : List RuntimePolicy}
    {db₀ : Db} (hdb : s.db.principals = db₀.principals)
    {R : List SafetyViolation → Store ι → Prop} {E : PyError → Store ι → Prop}
    (hR : ∀ t, Still T.plain i s t → R (dbBroken H.toPlatform db₀ candidate o policies) t)
    (hE : ∀ e t, Still T.plain i s t → E e t) :
    wp (contract T H) i (checkBrokenInheritance H.toPlatform candidate policies o) R E s := by
  unfold checkBrokenInheritance
  unfold dbBroken at hR
  split
  · next hnone =>
    rw [hnone] at hR
    exact hR s .refl
  next d hd =>
  rw [hd] at hR
  refine wp_bind ?_
  unfold resolveDelegator
  unfold dbDelegator at hR
  split
  · next id hid =>
    simp only [hid] at hR
    exact wp_getPrincipal hdb hR hE
  · next hid =>
    simp only [hid] at hR
    refine wp_select (fun t hst _ => ?_) fun t hst => hE _ t hst.toStill
    have heq : (Select.principalLike (strip d) o).run H.toPlatform t.db = db₀.principals.find?
        fun p => H.ilike p.name (strip d) ∧ p.organizationId = o := by
      show t.db.principals.find? _ = _
      rw [hst.db.principals, hdb]
    rw [heq]
    exact hR _ (hst.toStill.trans (.saw rfl))

/-- The safety checks that a version has passed. -/
structure Passed (P : Platform) (i : ι) (key : Uuid) (o : Option Uuid) (candidate : RuntimePolicy)
    (s : Store ι) (db₀ : Db) : Prop where
  seen : s.seen i (.otherActiveRuntimePolicies key o) = some db₀
  clean : Clean P db₀ candidate o ((db₀.otherActive key o).map RuntimePolicyRecord.content)
  principals : s.db.principals = db₀.principals

/-- `t` is what `s` has become while `i` ran its checks. -/
structure Checking (T : Terms ι) (i : ι) (s t : Store ι) : Prop extends Since T.plain s t where
  pending : t.pending i = s.pending i
  aloneDb : Subsingleton ι → t.db = s.db

theorem wp_runSafetyChecks {R : List SafetyViolation → Store ι → Prop} {E : PyError → Store ι → Prop}
    (hR : ∀ db₀ t, Checking T i s t → t.seen i (.otherActiveRuntimePolicies key o) = some db₀ →
      t.db.principals = db₀.principals →
      R (violations H.toPlatform db₀ row.content o (db₀.otherActive key o)) t)
    (hE : ∀ e t, Checking T i s t → E e t) :
    wp (contract T H) i (runSafetyChecks H.toPlatform key row o) R E s := by
  refine wp_bind (wp_select (fun t hst _ => ?_) fun t hst =>
    hE _ t ⟨hst.toSince, hst.pending, hst.aloneDb⟩)
  have hsaw : Since T.plain t (t.saw i (.otherActiveRuntimePolicies key o)) := .of_db rfl rfl
  have hchecking : ∀ {u}, Still T.plain i (t.saw i (.otherActiveRuntimePolicies key o)) u →
      Checking T i s u := fun htu =>
    { toSince := hst.toSince.trans (hsaw.trans htu.toSince)
      pending := htu.pending.trans hst.pending
      aloneDb := fun hi => (htu.aloneDb hi).trans (hst.aloneDb hi) }
  have hseen : (t.saw i (.otherActiveRuntimePolicies key o)).seen i (.otherActiveRuntimePolicies key o) =
      some t.db := by rw [Store.saw_seen, if_pos rfl]
  generalize hw : t.saw i (.otherActiveRuntimePolicies key o) = w at hsaw hchecking hseen
  have hdb : w.db = t.db := hw ▸ rfl
  refine wp_bind (wp_checkBrokenInheritance (show w.db.principals = t.db.principals by rw [hdb])
    (fun u hwu => ?_)
    fun e u hwu => hE e u (hchecking hwu))
  have hu : u.db.principals = t.db.principals := by rw [hwu.db.principals, hdb]
  refine wp_bind (wp_checkMissingPrincipal hu (fun v huv => ?_) fun e v huv =>
    hE e v (hchecking (hwu.trans huv)))
  have hwv := hwu.trans huv
  have hresult := hR t.db v (hchecking hwv) ((hwv.gates key o).trans hseen)
    (by rw [hwv.db.principals, hdb])
  have hkeyed : (keyed (t.db.otherActive key o)).map Prod.snd =
      (t.db.otherActive key o).map RuntimePolicyRecord.content := by simp [keyed]
  rw [violations, ← hkeyed] at hresult
  exact hresult

theorem wp_passSafetyChecks (hT : T.Reviews) {actor : String} (hidle : s.pending i = none)
    {R : Unit → Store ι → Prop} {E : PyError → Store ι → Prop}
    (hR : ∀ db₀ t, Checking T i s t → Passed H.toPlatform i key o row.content t db₀ → R () t)
    (hE : ∀ e t, t.pending i = none → E e t) :
    wp (contract T H) i (passSafetyChecks H.toPlatform row key o actor) R E s := by
  refine wp_bind (wp_runSafetyChecks (fun db₀ t hst hseen hprincipals => ?_) fun e t hst =>
    hE e t (hst.pending.trans hidle))
  generalize hvs : violations H.toPlatform db₀ row.content o (db₀.otherActive key o) = vs
  cases vs with
  | nil => exact hR db₀ t hst ⟨hseen, (violations_eq_nil ..).1 hvs, hprincipals⟩
  | cons v vs =>
    exact wp_bind (wp_mono (wp_recordLifecycleEvent (E := E) (hst.pending.trans hidle) (hT.event _))
      (fun _ u htu => hE _ u htu.idle) fun _ _ h => h)

/-! ## Activation -/

/-- The gate of the run asks for no more than that the safety checks have been passed. -/
def Terms.Passes (T : Terms ι) (P : Platform) : Prop :=
  ∀ i key o row s db₀, Read T key o row s → Passed P i key o row.content s db₀ → Gated T i key o s

theorem wp_compileAndDeploy (hT : T.Reviews) (hidle : s.pending i = none)
    (hrow : Held T key o row s) (hgate : Gated T i key o s) :
    wp (contract T H) i (compileAndDeploy H.toPlatform row key o now) (fun _ => Onward T i s)
      (fun _ => Onward T i s) s := by
  have hheld : ∀ q, some row = some q → Held T key o q s := fun q hq => Option.some.inj hq ▸ hrow
  unfold compileAndDeploy
  split
  · refine wp_bind (wp_mono (wp_compilePolicy hT hidle hheld) (fun outcome t hst => ?_)
      fun _ _ h => h)
    dsimp only
    split
    · exact hst
    · exact wp_mono (wp_deployPolicy hst.idle (by simp) (hgate.later hst.toLater))
        (fun _ _ => hst.toLater.onward) fun _ _ => hst.toLater.onward
  · exact wp_deployPolicy hidle hheld hgate

theorem wp_activatePolicy (hT : T.Reviews) (hP : T.Passes H.toPlatform) {actor : String}
    {reason : Option String} (hidle : s.pending i = none) :
    wp (contract T H) i (activatePolicy H.toPlatform key o actor reason now)
      (fun _ t => t.pending i = none) (fun _ t => t.pending i = none) s := by
  unfold activatePolicy
  refine wp_bind (wp_getLatest (by simp) (fun row t hst hrow => ?_) fun e t hst =>
    hst.pending.trans hidle)
  have htidle := hst.pending.trans hidle
  dsimp only
  split
  · exact htidle
  refine wp_bind (wp_passSafetyChecks hT htidle (fun db₀ u htu hpassed => ?_) fun _ _ h => h)
  have hrow' : Read T key o row u := hrow.since htu.toSince htu.aloneDb
  refine wp_bind (wp_mono (wp_compileAndDeploy hT (htu.pending.trans htidle) hrow'.toHeld
    (hP i key o row u db₀ hrow' hpassed)) (fun _ v huv => ?_) fun _ _ h => h.idle)
  refine wp_bind (wp_getLatest (by simp) (fun row' w hvw hread => ?_) fun e w hvw =>
    hvw.pending.trans huv.idle)
  refine wp_mono (wp_transition hT (hvw.pending.trans huv.idle) (hread.updateOk (by simp) (by simp)
    (by simp) rfl (by simp) (by simp))) (fun _ _ h => h.idle) fun _ _ h => h.idle

/-! ## Retirement -/

theorem wp_retirePolicy (hT : T.Reviews) {actor : String} {reason : Option String}
    (hidle : s.pending i = none) :
    wp (contract T H) i (retirePolicy key o actor reason now) (fun _ => Onward T i s)
      (fun _ => Onward T i s) s := by
  unfold retirePolicy
  refine wp_latest hidle (by simp) fun row t hst _ hrow => ?_
  dsimp only
  split
  · exact ⟨.refl, hst.idle⟩
  next hstatus =>
  have hstatus : row.status = .active := by simpa using hstatus
  have hw : UpdateOk T row.policyKey row.version { status := some .retired } t := by
    refine hrow.updateOk (by simp) (by simp) (fun _ st hst => ?_) rfl (by simp) fun st hst => ?_
    · cases hst
      trivial
    · cases hst
      rw [hstatus]
      rfl
  refine wp_bind (wp_commit hst.idle (hT.update _ _ _) hw (fun u htu hinv hw _ => ?_) fun e u htu =>
    .of_still htu.toStill hst.idle)
  have hcommit := htu.toLater.onward
    (Later.commit_plain hinv (htu.pending.trans hst.idle) (hT.update _ _ _) hw)
  refine wp_bind (wp_refresh (fun row' v huv _ _ _ _ => ?_) fun e v huv =>
    hcommit.toLater.onward (.of_still huv hcommit.idle))
  have hv := hcommit.toLater.onward (.of_still huv hcommit.idle)
  refine wp_bind (wp_mono (wp_reconcile hv.idle) (fun _ w hvw => ?_) fun _ _ => hv.toLater.onward)
  have hw := hv.toLater.onward hvw
  exact wp_bind (wp_mono (wp_recordLifecycleEvent hw.idle (hT.event _))
    (fun _ _ => hw.toLater.onward) fun _ _ => hw.toLater.onward)

end PayReality
