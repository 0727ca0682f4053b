import PayReality.Lifecycle.Operations

/-!
# Approval integrity

In every run from an empty table, an active version has been submitted, approved and compiled as
that version, in this order, and says what was approved. A version says what it said when it was
inserted, as a draft; one that a rollback inserted says what its target says.

**Main result** `approvalIntegrity`, from the history that the contract keeps (`Trailed`).
-/

namespace PayReality

open Program Write

variable {ι : Type} [DecidableEq ι] {H : Host}

/-- An active version went through review and a successful compilation as that version. -/
structure Reviewed (log : List Write) (r : RuntimePolicyRecord) : Prop where
  commits : ∃ approved bundle deployed, [submitted r.policyKey r.version,
    approvedAs r.policyKey r.version approved, compiledTo r.policyKey r.version bundle,
    activatedAs r.policyKey r.version deployed].Sublist log ∧
      approved.semantics = r.content.semantics ∧ CompiledAs r.core bundle
  /-- Whatever was approved as this version is what it says. -/
  approvals : ∀ approved, approvedAs r.policyKey r.version approved ∈ log →
    approved.semantics = r.content.semantics

/-- A version is what was inserted, as a draft. -/
structure Unchanged (log : List Write) (r : RuntimePolicyRecord) : Prop where
  created : ∃ row, .insertRecord row ∈ log ∧ row.ident = r.ident
  kept : ∀ row, .insertRecord row ∈ log → row.ident = r.ident →
    row.content.semantics = r.content.semantics ∧ row.status = .draft

namespace Trailed

variable {log : List Write} {db : Db} {r : RuntimePolicyRecord}

/-- A content that was written to a version says what the version says. -/
theorem written (h : Trailed log db) (hs : db.Sound) (hr : r ∈ db.records) {c : RecordColumns}
    {x : RuntimePolicy} (hc : .updateRecord r.policyKey r.version c ∈ log)
    (hx : c.content = some x) : x.semantics = r.content.semantics := by
  obtain ⟨core, hcore, hident, hauthored⟩ := h.contents _ _ c x hc hx
  obtain rfl := hs.core_of_ident hr hcore hident
  exact RuntimePolicy.semantics_eq_of_authored_eq hauthored

theorem reviewed (h : Trailed log db) (hs : db.Sound) (hr : r ∈ db.records)
    (hactive : r.status = .active) : Reviewed log r := by
  have happrovals : ∀ approved, approvedAs r.policyKey r.version approved ∈ log →
      approved.semantics = r.content.semantics := fun _ hin => h.written hs hr hin rfl
  refine ⟨?_, happrovals⟩
  have htrail := h.status r hr
  rw [hactive] at htrail
  obtain ⟨approved, bundle, deployed, hsub⟩ := htrail
  have happroved : approvedAs r.policyKey r.version approved ∈ log := hsub.subset (by simp)
  have hcompiled : compiledTo r.policyKey r.version bundle ∈ log := hsub.subset (by simp)
  refine ⟨approved, bundle, deployed, hsub, happrovals _ happroved, ?_⟩
  obtain ⟨b, hb, core, hcore, hident, hcompiles⟩ := h.compiles _ _ _ hcompiled rfl
  obtain rfl := hs.core_of_ident hr hcore hident
  exact Option.some.inj hb ▸ hcompiles

theorem unchanged (h : Trailed log db) (hs : db.Sound) (hr : r ∈ db.records) :
    Unchanged log r where
  created := by
    obtain ⟨row, hrow, hcore⟩ := h.created r hr
    exact ⟨row, hrow, RuntimePolicyRecord.ident_of_core hcore⟩
  kept row hrow hident := by
    obtain ⟨hcore, hdraft⟩ := h.inserted row hrow
    have heq := RuntimePolicyRecord.authored_of_core (hs.core_of_ident hr hcore hident)
    exact ⟨RuntimePolicy.semantics_eq_of_authored_eq heq, hdraft⟩

end Trailed

/-- **Approval integrity.** -/
theorem approvalIntegrity {w : World Statement Statement.Answer PyError (Store ι) ι}
    (h : Reach (machine H ι) (programs H.toPlatform Set.univ) Store.Fresh w) :
    (∀ r ∈ w.store.db.records, r.status = .active → Reviewed w.store.log r) ∧
    (∀ r ∈ w.store.db.records, Unchanged w.store.log r) ∧
    ∀ r ∈ w.store.db.records, ∀ v, r.rollbackOfVersion = some v → ∃ target ∈ w.store.db.records,
      target.ident = (r.policyKey, v) ∧ r.content.semantics = target.content.semantics := by
  have hinv := (h.sound (programs_keep True Set.univ) fun s hs => hs.start).1
  have htrailed := hinv.trailed trivial
  refine ⟨fun r hr => htrailed.reviewed hinv.db hr, fun r hr => htrailed.unchanged hinv.db hr,
    fun r hr v hv => ?_⟩
  obtain ⟨core, hcore, hident, hsem⟩ := htrailed.rollbacks r hr v hv
  obtain ⟨target, htarget, rfl⟩ := Db.exists_of_core hcore
  exact ⟨target, htarget, hident, hsem⟩

/-- A version that is deployed, and a rollback to it. -/
def rollingBack : List Operation :=
  author 1 (samplePolicy "1" "ops") none ++
    [.deployPolicy 1 none 3, .rollbackPolicy 1 none 1 "operator" none 4]

theorem approvalIntegrity_rollingBack :
    (∃ r ∈ (performAlone rollingBack).store.db.records, r.status = .active ∧
      Reviewed (performAlone rollingBack).store.log r) ∧
    ∃ r ∈ (performAlone rollingBack).store.db.records, r.rollbackOfVersion = some 1 ∧
      Unchanged (performAlone rollingBack).store.log r := by
  have h := approvalIntegrity (performAlone_reach rollingBack fun _ _ => trivial)
  have hactive : ∃ r ∈ (performAlone rollingBack).store.db.records, r.status = .active := by
    decide +kernel
  have hroll : ∃ r ∈ (performAlone rollingBack).store.db.records, r.rollbackOfVersion = some 1 := by
    decide +kernel
  obtain ⟨r, hr, hactive⟩ := hactive
  obtain ⟨q, hq, hroll⟩ := hroll
  exact ⟨⟨r, hr, hactive, h.1 r hr hactive⟩, q, hq, hroll, h.2.1 q hq⟩

end PayReality
