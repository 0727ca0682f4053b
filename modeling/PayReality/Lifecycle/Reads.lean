import PayReality.Lifecycle.Steps

/-!
# Statements under the contract

What one statement of a session leaves, as rules for `wp (contract T H)`: a query, a plain commit,
and the reads that the operations are made of. `Onward` is what an operation may forget about a
stretch of plain commits.
-/

namespace PayReality

open Program RuntimePolicyService Write Service

variable {ι : Type} [DecidableEq ι] {T : Terms ι} {H : Host} {s t u : Store ι} {i : ι}

/-- `i` has gone on from `s` to `t`, and has no flushed row. -/
structure Onward (T : Terms ι) (i : ι) (s t : Store ι) : Prop extends Later T.plain i s t where
  idle : t.pending i = none

omit [DecidableEq ι] in
theorem Onward.of_still (h : Still T.plain i s t) (hs : s.pending i = none) : Onward T i s t :=
  ⟨h.toLater, h.pending.trans hs⟩

omit [DecidableEq ι] in
theorem Later.onward (h : Later T.plain i s t) (h' : Onward T i t u) : Onward T i s u :=
  ⟨h.trans h'.toLater, h'.idle⟩

/-! ## Queries -/

/-- A query that is not one of the safety checks. -/
def Select.plain : Select → Bool
  | .otherActiveRuntimePolicies _ _ => false
  | _ => true

omit [DecidableEq ι] in
theorem Still.of_seen {plain : Write → Prop} (hdb : t.db = s.db) (hlog : t.log = s.log)
    (hopa : t.opa = s.opa) (hpending : t.pending i = s.pending i)
    (huploaded : t.uploaded i = s.uploaded i)
    (hseen : ∀ k o, t.seen i (.otherActiveRuntimePolicies k o) =
      s.seen i (.otherActiveRuntimePolicies k o)) : Still plain i s t where
  toSince := .of_db hdb hlog
  gates := hseen
  pending := hpending
  uploaded := huploaded
  aloneDb _ := hdb
  aloneOpa _ := hopa

theorem Store.saw_seen {q q' : Select} :
    (s.saw i q).seen i q' = if q' = q then some s.db else s.seen i q' := by
  show Function.update s.seen i (Function.update (s.seen i) q (some s.db)) i q' = _
  rw [Function.update_self, Function.update_apply]

theorem Still.saw {plain : Write → Prop} {q : Select} (hq : q.plain = true) :
    Still plain i s (s.saw i q) := by
  refine .of_seen rfl rfl rfl rfl rfl fun k o => ?_
  rw [Store.saw_seen, if_neg]
  rintro rfl
  cases hq

theorem Service.wp_select {q : Select} {R : q.Answer → Store ι → Prop} {E : PyError → Store ι → Prop}
    (hR : ∀ t, Rely T i s t → Inv T t → R (q.run H.toPlatform t.db) (t.saw i q))
    (hE : ∀ t, Rely T i s t → E .databaseError t) :
    wp (contract T H) i (Service.select q) R E s := by
  refine wp_send fun t hst hinv => ⟨trivial, fun r u hstep => ⟨fun a ha => ?_, fun e he => ?_⟩⟩
  · rcases hstep with ⟨rfl, rfl⟩ | ⟨rfl, -⟩
    · obtain rfl := Except.ok.inj ha
      exact hR t hst hinv
    · cases ha
  · rcases hstep with ⟨rfl, -⟩ | ⟨rfl, rfl⟩
    · cases he
    · obtain rfl := Except.error.inj he
      exact hE u hst

/-- A query whose answer does not matter. -/
theorem Service.wp_look {q : Select} (hq : q.plain = true) {R : q.Answer → Store ι → Prop}
    {E : PyError → Store ι → Prop} (hR : ∀ a t, Still T.plain i s t → R a t)
    (hE : ∀ e t, Still T.plain i s t → E e t) :
    wp (contract T H) i (Service.select q) R E s :=
  wp_select (fun _ hst _ => hR _ _ (hst.toStill.trans (.saw hq))) fun _ hst => hE _ _ hst.toStill

theorem Service.wp_uuid4 {R : Uuid → Store ι → Prop} {E : PyError → Store ι → Prop}
    (hR : ∀ id t, Still T.plain i s t → R id t) :
    wp (contract T H) i Service.uuid4 R E s := by
  refine wp_send fun t hst _ => ⟨trivial, fun r u hstep => ?_⟩
  obtain ⟨id, rfl, rfl⟩ := hstep
  exact ⟨fun a ha => Except.ok.inj ha ▸ hR id _ hst.toStill, nofun⟩

theorem Service.wp_rollback {R : Unit → Store ι → Prop} {E : PyError → Store ι → Prop}
    (hR : ∀ t, Onward T i s t → (Subsingleton ι → t.db = s.db ∧ t.opa = s.opa) → R () t) :
    wp (contract T H) i Service.rollback R E s := by
  refine wp_send fun t hst _ => ⟨trivial, fun r u hstep => ?_⟩
  obtain ⟨rfl, rfl⟩ := hstep
  refine ⟨fun _ _ => hR _ ⟨hst.toLater.trans ⟨.of_db rfl rfl, fun _ _ => rfl⟩, ?_⟩ fun hi => ?_, nofun⟩
  · rw [Store.setPending_pending, if_pos rfl]
  · exact ⟨hst.aloneDb hi, hst.aloneOpa hi⟩

theorem Service.wp_lift {α : Type} {x : Except PyError α} {R : α → Store ι → Prop}
    {E : PyError → Store ι → Prop} (hR : ∀ a, x = .ok a → R a s) (hE : ∀ e, x = .error e → E e s) :
    wp (contract T H) i (Service.lift x) R E s := by
  cases x with
  | ok a => exact hR a rfl
  | error e => exact hE e rfl

/-! ## Plain commits -/

omit [DecidableEq ι] in
theorem PlainOk.rely {w : Write} (h : PlainOk T s w) (hst : Rely T i s t) : PlainOk T t w := by
  have hcores : s.db.cores ⊆ t.db.cores := hst.db.cores.subset
  cases w with
  | insertRecord row =>
    refine ⟨h.draft, h.noRollback, h.key.imp_right ?_, fun hi => hst.alone hi ▸ h.alone hi⟩
    rintro ⟨core, hcore, heq⟩
    exact ⟨core, hcores hcore, heq⟩
  | updateRecord key version c =>
    refine ⟨?_, h.inactive, h.rewrites, fun ht st hc =>
      Trail.mono (h.trail ht st hc) (hst.log.sublist.append_right _), fun hc => ?_, fun v hv => ?_,
      fun hi => hst.alone hi ▸ h.alone hi⟩
    · obtain ⟨core, hcore, heq⟩ := h.target
      exact ⟨core, hcores hcore, heq⟩
    · obtain ⟨b, hb, core, hcore, heq⟩ := h.compiled hc
      exact ⟨b, hb, core, hcores hcore, heq⟩
    · obtain ⟨c₁, hc₁, c₂, hc₂, heq⟩ := h.rollback v hv
      exact ⟨c₁, hcores hc₁, c₂, hcores hc₂, heq⟩
  | insertSchedule | updateSchedule | insertEvent => trivial

theorem Later.commit_plain {w : Write} (h : Inv T s) (hpending : s.pending i = none)
    (hplain : T.plain w) (hw : PlainOk T s w) : Onward T i s (s.commit i [w]) := by
  have hdb : (s.commit i [w]).db = s.db.write w := by
    rw [Store.commit_db, hpending]
    rfl
  refine ⟨⟨⟨hdb ▸ hw.grows h.db, ?_, fun hf => hdb ▸ hw.cores h.db hplain hf⟩, fun k o => ?_⟩, ?_⟩
  · rw [Store.commit_log]
    exact List.prefix_append _ _
  · rw [Store.commit_seen]
  · rw [Store.commit_pending, Function.update_self]

/-- A commit beside a deploy. -/
theorem Service.wp_commit {w : Write} {R : Unit → Store ι → Prop} {E : PyError → Store ι → Prop}
    (hidle : s.pending i = none) (hplain : T.plain w) (hw : PlainOk T s w)
    (hR : ∀ t, Rely T i s t → Inv T t → PlainOk T t w → t.db.refuses w = false →
      R () (t.commit i [w]))
    (hE : ∀ e t, Rely T i s t → E e t) :
    wp (contract T H) i (Service.commit [w]) R E s := by
  refine wp_send fun t hst hinv => ?_
  have hpending : t.pending i = none := hst.pending.trans hidle
  refine ⟨?_, fun r u hstep => ⟨fun a ha => ?_, fun e he => ?_⟩⟩
  · show Pre T H i (.commit [w]) t
    rw [Pre, hpending]
    exact ⟨w, rfl, hplain, hw.rely hst⟩
  · rcases hstep with hstep | ⟨rfl, -⟩
    · split at hstep
      · obtain ⟨rfl, -⟩ := hstep
        cases ha
      · next hrefuses =>
        obtain ⟨-, rfl⟩ := hstep
        exact hR t hst hinv (hw.rely hst) (by simpa using hrefuses)
    · cases ha
  · rcases hstep with hstep | ⟨-, rfl⟩
    · split at hstep
      · obtain ⟨-, rfl⟩ := hstep
        exact hE e u hst
      · obtain ⟨rfl, -⟩ := hstep
        cases he
    · exact hE e u hst

/-- The events that operations record, where the programs of the run record any. -/
theorem Service.wp_recordLifecycleEvent {event : LifecycleEvent} {E : PyError → Store ι → Prop}
    (hidle : s.pending i = none) (hplain : T.plain (.insertEvent event)) :
    wp (contract T H) i (recordLifecycleEvent event) (fun _ => Onward T i s) E s := by
  refine wp_tryCatch (wp_commit hidle hplain trivial (fun t hst hinv hw _ => ?_) fun e t hst => ?_)
  · exact hst.toLater.onward (Later.commit_plain hinv (hst.pending.trans hidle) hplain hw)
  · exact Service.wp_rollback fun u htu _ => hst.toLater.onward htu

/-! ## Versions that are read -/

section Versions

variable {key : Uuid} {version : ℕ} {o : Option Uuid} {row : RuntimePolicyRecord}

omit [DecidableEq ι] in
/-- A version that is in the table. -/
theorem Inv.held (h : Inv T s) (hrow : row ∈ s.db.records) (hkey : row.policyKey = key)
    (horg : row.organizationId = o) : Held T key o row s where
  key_eq := hkey
  org_eq := horg
  core := Db.mem_cores hrow
  trail ht := (h.trailed ht).status row hrow
  alone _ := hrow

omit [DecidableEq ι] in
/-- The latest version of a key. -/
theorem Inv.read (h : Inv T s) (hrow : s.db.latestVersionRow key o = some row) :
    Read T key o row s := by
  obtain ⟨hmem, hkey, horg, hmax⟩ := s.db.latestVersionRow_some hrow
  refine ⟨h.held hmem hkey horg, fun _ core hcore hk ho => ?_, fun _ => hrow⟩
  obtain ⟨q, hq, rfl⟩ := Db.exists_of_core hcore
  exact hmax q hq hk ho

omit [DecidableEq ι] in
/-- What a session holds of the latest version is still read as it. -/
theorem Read.heldOr (h : Read T key o row s) (hinv : Inv T s) {held : Option RuntimePolicyRecord}
    (hheld : ∀ q, held = some q → Held T key o q s) :
    Read T key o (RuntimePolicyService.heldOr held row) s := by
  cases held with
  | none => exact h
  | some q =>
    rw [RuntimePolicyService.heldOr]
    split
    · next hident =>
      refine ⟨hheld q rfl, fun hf core hcore hk ho => ?_, fun hi => ?_⟩
      · rw [RuntimePolicyRecord.version_of_ident hident]
        exact h.latest hf core hcore hk ho
      · rw [hinv.db.eq_of_ident ((hheld q rfl).alone hi) (h.alone hi) hident]
        exact h.aloneLatest hi
    · exact h

theorem Service.wp_getLatest {held : Option RuntimePolicyRecord}
    (hheld : ∀ q, held = some q → Held T key o q s)
    {R : RuntimePolicyRecord → Store ι → Prop} {E : PyError → Store ι → Prop}
    (hR : ∀ row t, Still T.plain i s t → Read T key o row t → R row t)
    (hE : ∀ e t, Still T.plain i s t → E e t) :
    wp (contract T H) i (getLatest key o held) R E s := by
  refine wp_bind (wp_select (fun t hst hinv => ?_) fun t hst => hE _ t hst.toStill)
  have hstill : Still T.plain i s (t.saw i (.latestVersionRow key o)) :=
    hst.toStill.trans (.saw rfl)
  cases hrow : (Select.latestVersionRow key o).run H.toPlatform t.db with
  | none => exact hE _ _ hstill
  | some row =>
    refine hR _ _ hstill (Read.still (i := i) ?_ (.saw rfl))
    exact (hinv.read hrow).heldOr hinv fun q hq => (hheld q hq).still hst.toStill

theorem mem_of_versionRow {db : Db} {P : Platform}
    (h : (Select.versionRow key version o).run P db = some row) :
    row ∈ db.records ∧ row.policyKey = key ∧ row.organizationId = o ∧ row.version = version := by
  have hmem := List.mem_of_find?_eq_some h
  simp only [Db.versionsOf, List.mem_filter, decide_eq_true_eq] at hmem
  exact ⟨hmem.1, hmem.2.1, hmem.2.2, by simpa using List.find?_some h⟩

theorem Service.wp_getVersion {R : RuntimePolicyRecord → Store ι → Prop} {E : PyError → Store ι → Prop}
    (hR : ∀ row t, Still T.plain i s t → Held T key o row t → row.version = version → R row t)
    (hE : ∀ e t, Still T.plain i s t → E e t) :
    wp (contract T H) i (getVersion key version o) R E s := by
  refine wp_bind (wp_select (fun t hst hinv => ?_) fun t hst => hE _ t hst.toStill)
  have hstill : Still T.plain i s (t.saw i (.versionRow key version o)) :=
    hst.toStill.trans (.saw rfl)
  cases hrow : (Select.versionRow key version o).run H.toPlatform t.db with
  | none => exact hE _ _ hstill
  | some row =>
    obtain ⟨hmem, hk, ho, hv⟩ := mem_of_versionRow hrow
    exact hR row _ hstill ((hinv.held hmem hk ho).still (i := i) (.saw rfl)) hv

theorem Service.wp_refresh {R : RuntimePolicyRecord → Store ι → Prop} {E : PyError → Store ι → Prop}
    (hR : ∀ row t, Still T.plain i s t → Inv T t → row ∈ t.db.records → row.policyKey = key →
      row.version = version → R row t)
    (hE : ∀ e t, Still T.plain i s t → E e t) :
    wp (contract T H) i (refresh key version o) R E s := by
  refine wp_bind (wp_select (fun t hst hinv => ?_) fun t hst => hE _ t hst.toStill)
  have hstill : Still T.plain i s (t.saw i (.versionRow key version o)) :=
    hst.toStill.trans (.saw rfl)
  cases hrow : (Select.versionRow key version o).run H.toPlatform t.db with
  | none => exact hE _ _ hstill
  | some row =>
    obtain ⟨hmem, hk, -, hv⟩ := mem_of_versionRow hrow
    exact hR row _ hstill (hinv.of_eq rfl rfl rfl fun j p hj => ⟨p, hj, rfl, rfl⟩) hmem hk hv

end Versions

end PayReality
