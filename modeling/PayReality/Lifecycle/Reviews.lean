import PayReality.Lifecycle.Reads

/-!
# Authoring and review keep the contract

Every operation beside a deployment commits plain writes only, one at a time, each from what it has
read. An update of a version needs what `Read.updateOk` asks for: the trail of the new status, and
content that was authored as before.
-/

namespace PayReality

open Program RuntimePolicyService LifecycleService Write Service

/-- The programs of the run may do anything to a version but insert it. -/
def Terms.Reviews {ι : Type} (T : Terms ι) : Prop :=
  ∀ w, (∀ row, w ≠ .insertRecord row) → T.plain w

theorem Terms.Reviews.update {ι : Type} {T : Terms ι} (h : T.Reviews) (key : Uuid) (version : ℕ)
    (c : RecordColumns) : T.plain (.updateRecord key version c) := h _ (by simp)

theorem Terms.Reviews.event {ι : Type} {T : Terms ι} (h : T.Reviews) (event : LifecycleEvent) :
    T.plain (.insertEvent event) := h _ (by simp)

variable {ι : Type} [DecidableEq ι] {T : Terms ι} {H : Host} {s t u : Store ι} {i : ι}
  {key : Uuid} {o : Option Uuid} {row : RuntimePolicyRecord} {actor : String}
  {reason : Option String} {now : Timestamp}

theorem approved_authored (content : RuntimePolicy) (approver : String)
    (approverUserId : Option String) (now : Timestamp) :
    (approvedContent content approver approverUserId now).authored = content.authored := rfl

theorem rejected_authored (content : RuntimePolicy) (reviewer reason : String)
    (reviewerUserId : Option String) (now : Timestamp) :
    (rejectedContent content reviewer reason reviewerUserId now).authored = content.authored := rfl

omit [DecidableEq ι] in
/-- An update of the version that a session has read as the latest one. -/
theorem Read.updateOk (h : Read T key o row s) {c : RecordColumns} (hactive : c.status ≠ some .active)
    (hcontent : ∀ x, c.content = some x → x.authored = row.content.authored)
    (htrail : T.trail → ∀ st, c.status = some st →
      Trail (s.log ++ [.updateRecord row.policyKey row.version c]) row.policyKey row.version st)
    (hroll : c.rollbackOfVersion = none)
    (hcompiled : c.status = some .compiled → ∃ b, c.bundle = some b ∧ CompiledAs row.core b)
    (hallows : ∀ st, c.status = some st → row.status.allows st = true)
    (hrewrites : c.content ≠ none → c.status ≠ none := by simp) :
    UpdateOk T row.policyKey row.version c s where
  target := ⟨row.core, h.core, rfl, hcontent⟩
  inactive := hactive
  rewrites := hrewrites
  trail := htrail
  compiled hc := (hcompiled hc).imp fun _ hb => ⟨hb.1, row.core, h.core, rfl, hb.2⟩
  rollback u hu := by
    rw [hroll] at hu
    cases hu
  alone hi st hst := by
    refine ⟨row, rfl, ?_, hallows st hst⟩
    rw [h.key_eq, h.org_eq]
    exact h.aloneLatest hi

/-- A transition, and what it leaves. -/
theorem wp_transition (hT : T.Reviews) {columns : RecordColumns} {event : LifecycleEvent}
    (hidle : s.pending i = none) (hw : UpdateOk T row.policyKey row.version columns s) :
    wp (contract T H) i (transition row columns event) (fun _ => Onward T i s)
      (fun _ => Onward T i s) s := by
  have hupdate := hT.update row.policyKey row.version columns
  refine wp_bind (wp_commit hidle hupdate hw (fun t hst hinv hw _ => ?_) fun e t hst =>
    .of_still hst.toStill hidle)
  have hcommit := Later.commit_plain hinv (hst.pending.trans hidle) hupdate hw
  refine wp_bind (wp_refresh (fun row' u hsu _ _ _ _ => ?_) fun e u hsu => ?_)
  · have hsu' := Onward.of_still hsu hcommit.idle
    refine wp_bind (wp_mono (wp_recordLifecycleEvent hsu'.idle (hT.event event)) (fun _ v huv => ?_)
      fun _ _ h => h)
    exact hst.toLater.onward (hcommit.toLater.onward (hsu'.toLater.onward huv))
  · exact hst.toLater.onward (hcommit.toLater.onward (.of_still hsu hcommit.idle))

/-- An operation that reads the latest version, and goes on from it. -/
theorem wp_latest {α : Type} {held : Option RuntimePolicyRecord}
    {p : RuntimePolicyRecord → Service α} (hidle : s.pending i = none)
    (hheld : ∀ q, held = some q → Held T key o q s)
    (h : ∀ row t, Onward T i s t → Still T.plain i s t → Read T key o row t →
      wp (contract T H) i (p row) (fun _ => Onward T i t) (fun _ => Onward T i t) t) :
    wp (contract T H) i (getLatest key o held >>= p) (fun _ => Onward T i s)
      (fun _ => Onward T i s) s := by
  refine wp_bind (wp_getLatest hheld (fun row t hst hrow => ?_) fun e t hst => .of_still hst hidle)
  exact wp_mono (h row t (.of_still hst hidle) hst hrow) (fun _ _ => hst.toLater.onward)
    fun _ _ => hst.toLater.onward

/-! ## Review -/

theorem wp_submitForReview (hT : T.Reviews) (hidle : s.pending i = none) :
    wp (contract T H) i (submitForReview key o) (fun _ => Onward T i s) (fun _ => Onward T i s) s := by
  unfold submitForReview
  refine wp_latest hidle (by simp) fun row t hst _ hrow => ?_
  split
  · exact ⟨.refl, hst.idle⟩
  · next hstatus =>
    have hstatus : row.status = .draft := by simpa using hstatus
    refine wp_transition hT hst.idle (hrow.updateOk (by simp) (by simp) (fun _ st hst => ?_) rfl
      (by simp) fun st hst => ?_)
    · cases hst
      exact List.sublist_append_right _ _
    · cases hst
      rw [hstatus]
      rfl

theorem wp_approve (hT : T.Reviews) {approverUserId : Option String} (hidle : s.pending i = none) :
    wp (contract T H) i (approve key o actor approverUserId now) (fun _ => Onward T i s)
      (fun _ => Onward T i s) s := by
  unfold approve
  refine wp_latest hidle (by simp) fun row t hst _ hrow => ?_
  split
  · exact ⟨.refl, hst.idle⟩
  · next hstatus =>
    have hstatus : row.status = .pendingReview := by simpa using hstatus
    refine wp_transition hT hst.idle (hrow.updateOk (by simp) (fun x hx => ?_)
      (fun ht st hst => ?_) rfl (by simp) fun st hst => ?_)
    · cases hx
      exact approved_authored ..
    · cases hst
      have htrail := hrow.trail ht
      rw [hstatus] at htrail
      exact ⟨_, sublist_snoc htrail _⟩
    · cases hst
      rw [hstatus]
      rfl

theorem wp_reject (hT : T.Reviews) {rejection : String} {reviewerUserId : Option String}
    (hidle : s.pending i = none) :
    wp (contract T H) i (reject key o actor rejection reviewerUserId now) (fun _ => Onward T i s)
      (fun _ => Onward T i s) s := by
  unfold reject
  refine wp_latest hidle (by simp) fun row t hst _ hrow => ?_
  dsimp only
  split
  · exact ⟨.refl, hst.idle⟩
  split
  · exact ⟨.refl, hst.idle⟩
  · next hstatus _ =>
    have hstatus : row.status = .pendingReview := by simpa using hstatus
    refine wp_transition hT hst.idle (hrow.updateOk (by simp) (fun x hx => ?_)
      (fun ht st hst => ?_) rfl (by simp) fun st hst => ?_)
    · cases hx
      exact rejected_authored ..
    · cases hst
      trivial
    · cases hst
      rw [hstatus]
      rfl

theorem wp_compilePolicy (hT : T.Reviews) {held : Option RuntimePolicyRecord}
    (hidle : s.pending i = none) (hheld : ∀ q, held = some q → Held T key o q s) :
    wp (contract T H) i (compilePolicy H.toPlatform key o now held) (fun _ => Onward T i s)
      (fun _ => Onward T i s) s := by
  unfold compilePolicy
  refine wp_latest hidle hheld fun row t hst _ hrow => ?_
  split
  · exact ⟨.refl, hst.idle⟩
  next hstatus =>
  have hstatus : row.status = .approved := by simpa using hstatus
  refine wp_bind (wp_bind (wp_look rfl (fun others u htu => ?_) fun e u htu =>
    .of_still htu hst.idle))
  have hu := Onward.of_still htu hst.idle
  refine wp_bind (wp_lift (fun result hresult => ?_) fun e _ => hu)
  split
  · exact hu
  next bundle hbundle =>
  have hrow' := hrow.still htu
  refine wp_bind (wp_mono (wp_transition hT hu.idle (hrow'.updateOk (by simp) (by simp)
    (fun ht st hst => ?_) rfl (fun _ => ?_) fun st hst => ?_)) (fun _ v huv => htu.toLater.onward huv)
    fun _ v huv => htu.toLater.onward huv)
  · cases hst
    have htrail := hrow'.trail ht
    rw [hstatus] at htrail
    obtain ⟨c, htrail⟩ := htrail
    exact ⟨c, _, sublist_snoc htrail _⟩
  · obtain ⟨bundle', errors⟩ := result
    obtain rfl : bundle' = some bundle := hbundle
    exact ⟨_, rfl, row.content, others.map RuntimePolicyRecord.content, _, now, bundle, errors, rfl,
      hresult, rfl⟩
  · cases hst
    rw [hstatus]
    rfl

theorem wp_archivePolicy (hT : T.Reviews) (hidle : s.pending i = none) :
    wp (contract T H) i (archivePolicy key o actor reason) (fun _ => Onward T i s)
      (fun _ => Onward T i s) s := by
  unfold archivePolicy
  refine wp_latest hidle (by simp) fun row t hst _ hrow => ?_
  dsimp only
  split
  · exact ⟨.refl, hst.idle⟩
  split
  · exact ⟨.refl, hst.idle⟩
  · next hactive harchived =>
    refine wp_transition hT hst.idle (hrow.updateOk (by simp) (by simp) (fun ht st hst => ?_) rfl
      (by simp) fun st hst => ?_)
    · cases hst
      trivial
    · cases hst
      cases hs : row.status <;> simp_all [PolicyStatus.allows]

/-! ## Authoring -/

/-- An insertion, and the row that it leaves. -/
theorem wp_insertDraft (hT : ∀ w, T.plain w) {eventType : LifecycleEventType}
    (hidle : s.pending i = none) (hw : InsertOk row s) :
    wp (contract T H) i (insertDraft row eventType)
      (fun r t => Onward T i s t ∧ r.core = row.core ∧ r.core ∈ t.db.cores)
      (fun _ => Onward T i s) s := by
  refine wp_bind (wp_commit hidle (hT _) hw (fun t hst hinv hw _ => ?_) fun e t hst =>
    .of_still hst.toStill hidle)
  have hcommit := Later.commit_plain hinv (hst.pending.trans hidle) (hT _) hw
  have hrow : row.core ∈ (t.commit i [.insertRecord row]).db.cores := by
    rw [Store.commit_db, hst.pending.trans hidle]
    exact Db.mem_cores (List.mem_append_right _ (List.mem_singleton_self _))
  refine wp_bind (wp_refresh (fun row' u hsu hinv' hmem hk hv => ?_) fun e u hsu => ?_)
  · have hu := Onward.of_still hsu hcommit.idle
    have hcore : row'.core = row.core := by
      refine (hinv'.db.core_of_ident hmem (hsu.db.cores.subset hrow) ?_).symm
      exact Prod.ext hk.symm hv.symm
    refine wp_bind (wp_mono (wp_recordLifecycleEvent hu.idle (hT _)) (fun _ v huv => ?_)
      fun _ _ h => h)
    refine ⟨hst.toLater.onward (hcommit.toLater.onward (hu.toLater.onward huv)), hcore, ?_⟩
    exact huv.db.cores.subset (Db.mem_cores hmem)
  · exact hst.toLater.onward (hcommit.toLater.onward (.of_still hsu hcommit.idle))

theorem wp_editPolicy (hT : ∀ w, T.plain w) {held : Option RuntimePolicyRecord}
    {updated : RuntimePolicy} (hidle : s.pending i = none)
    (hheld : ∀ q, held = some q → Held T key o q s) :
    wp (contract T H) i (editPolicy key o updated held)
      (fun r t => Onward T i s t ∧ r.core ∈ t.db.cores ∧ r.policyKey = key ∧
        r.content.authored = updated.authored)
      (fun _ => Onward T i s) s := by
  refine wp_bind (wp_getLatest hheld (fun row t hst hrow => ?_) fun e t hst => .of_still hst hidle)
  have ht := Onward.of_still hst hidle
  dsimp only
  split
  · exact ht
  next hstatus =>
  have hinsert : InsertOk (draftRow key (row.version + 1) updated row.organizationId) t := by
    refine ⟨rfl, rfl, .inr ⟨row.core, hrow.core, hrow.key_eq, rfl⟩, fun hi => ?_⟩
    refine .inr ⟨row, ?_, hstatus, rfl⟩
    rw [show (draftRow key (row.version + 1) updated row.organizationId).organizationId = o from
      hrow.org_eq]
    exact hrow.aloneLatest hi
  refine wp_mono (wp_insertDraft hT ht.idle hinsert) (fun r u hr => ?_) fun _ _ =>
    hst.toLater.onward
  obtain ⟨htu, hcore, hmem⟩ := hr
  refine ⟨hst.toLater.onward htu, hmem, ?_, RuntimePolicyRecord.authored_of_core hcore⟩
  exact RuntimePolicyRecord.key_of_ident (RuntimePolicyRecord.ident_of_core hcore)

theorem wp_createPolicy (hT : ∀ w, T.plain w) {policy : RuntimePolicy} {approval : Option Uuid}
    (hidle : s.pending i = none) :
    wp (contract T H) i (createPolicy H.toPlatform policy o approval) (fun _ => Onward T i s)
      (fun _ => Onward T i s) s := by
  have hinsert : ∀ k (t : Store ι), InsertOk (draftRow k 1 policy o approval) t := fun k t =>
    ⟨rfl, rfl, .inl rfl, fun _ => .inl rfl⟩
  -- nothing but queries until the insertion
  have hrest : ∀ t, Still T.plain i s t → wp (contract T H) i
      (policyKeyOf H.toPlatform policy >>= fun k => insertDraft (draftRow k 1 policy o approval) .created)
      (fun _ => Onward T i s) (fun _ => Onward T i s) t := by
    intro t hst
    have hkey : ∀ k u, Still T.plain i t u → wp (contract T H) i
        (insertDraft (draftRow k 1 policy o approval) .created) (fun _ => Onward T i s)
        (fun _ => Onward T i s) u := by
      intro k u htu
      have hu := Onward.of_still (hst.trans htu) hidle
      exact wp_mono (wp_insertDraft hT hu.idle (hinsert k u)) (fun _ _ h => hu.toLater.onward h.1)
        fun _ _ => hu.toLater.onward
    refine wp_bind ?_
    unfold policyKeyOf
    split
    · exact hkey _ t .refl
    · exact wp_uuid4 fun k u htu => hkey k u htu
  have hsandbox : wp (contract T H) i (isSandboxOrganization o) (fun _ t => Still T.plain i s t)
      (fun _ => Onward T i s) s := by
    cases o with
    | none => exact .refl
    | some id =>
      refine wp_bind (wp_look rfl (fun org t hst => ?_) fun e t hst => .of_still hst hidle)
      split <;> exact hst
  unfold createPolicy
  refine wp_bind (wp_mono hsandbox (fun sandbox t hst => ?_) fun _ _ h => h)
  dsimp only
  split
  · refine wp_bind (wp_look rfl (fun existing u htu => ?_) fun e u htu =>
      .of_still (hst.trans htu) hidle)
    split
    · exact .of_still (hst.trans htu) hidle
    · exact hrest u (hst.trans htu)
  · exact hrest t hst

theorem wp_rollbackPolicy (hT : ∀ w, T.plain w) {target : ℕ} (hidle : s.pending i = none) :
    wp (contract T H) i (rollbackPolicy key o target actor reason now) (fun _ => Onward T i s)
      (fun _ => Onward T i s) s := by
  refine wp_bind (wp_getVersion (fun row t hst hrow hversion => ?_) fun e t hst =>
    .of_still hst hidle)
  have ht := Onward.of_still hst hidle
  dsimp only
  split
  · exact ht
  refine wp_bind (wp_getLatest (fun q hq => Option.some.inj hq ▸ hrow) (fun latest u htu hlatest => ?_)
    fun e u htu => hst.toLater.onward (.of_still htu ht.idle))
  have hu := hst.toLater.onward (.of_still htu ht.idle)
  split
  · exact hu
  refine wp_bind (wp_mono (wp_editPolicy hT hu.idle fun q hq => Option.some.inj hq ▸ hlatest.toHeld)
    (fun r v hr => ?_) fun _ _ => hu.toLater.onward)
  obtain ⟨huv, hcore, hkey, hauthored⟩ := hr
  have hupdate : UpdateOk T r.policyKey r.version { rollbackOfVersion := some target } v := by
    refine ⟨⟨r.core, hcore, rfl, by simp⟩, by simp, by simp, by simp, by simp, fun w hw => ?_, by simp⟩
    obtain rfl := Option.some.inj hw
    refine ⟨r.core, hcore, row.core, huv.db.cores.subset (htu.db.cores.subset hrow.core), rfl, ?_, ?_⟩
    · rw [hkey, ← hversion, ← hrow.key_eq]
      rfl
    · show r.content.authored.semantics = row.content.authored.semantics
      rw [hauthored]
      rfl
  exact wp_mono (wp_transition (fun w _ => hT w) huv.idle hupdate)
    (fun _ _ h => hu.toLater.onward (huv.toLater.onward h))
    fun _ _ h => hu.toLater.onward (huv.toLater.onward h)

end PayReality
