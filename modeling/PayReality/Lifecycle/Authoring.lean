import PayReality.Lib.RecordReports
import PayReality.Lifecycle.Manifests
import PayReality.Policy.Schema

/-!
# The content of a version

`routers/runtime_policies.py` makes the content of a new version: a policy of a fresh key, or an edit,
whose number it computes from the version that it reads as the latest one. `edit_policy` reads the
latest version again, and numbers the row. Where no version of the key has been added since the first
of these, row and content agree; nothing else writes the key or the number of a content.

* `Origin`: where an inserted version comes from, in terms of what its operation has read.
* `unmoved`: the condition on an insertion.

**Main result** `row_and_content_agree`.
-/

namespace PayReality

open Program RuntimePolicyService LifecycleService Service

/-- `RuntimePolicyRequest`, with the values of its enumerations read. -/
structure RuntimePolicyRequest where
  name : String
  description : Option String := none
  scope : Scope
  conditions : List Condition := []
  effect : Effect
  constraints : Constraints := {}
  owner : Option String := none
  createdBy : Option String := none
  tags : List String := []

namespace RuntimePoliciesRouter

/-- `_build_runtime_policy`. -/
def buildRuntimePolicy (req : RuntimePolicyRequest) (policyId : String) (version : ℕ)
    (audit : AuditTrail) (preserveAuthorityId preserveMandateId : Option String := none) :
    RuntimePolicy where
  id := policyId
  name := req.name
  description := req.description
  version
  status := .draft
  scope := req.scope
  conditions := req.conditions
  effect := req.effect
  constraints := { req.constraints with
    authorityId := preserveAuthorityId.or req.constraints.authorityId
    mandateId := preserveMandateId.or req.constraints.mandateId }
  metadata :=
    { owner := req.owner
      createdBy := req.createdBy
      tags := req.tags }
  audit

variable (P : Platform)

/-- A policy that is created under a fresh key: by `create_policy` of the router, by a promotion, and
for a sandbox. -/
def createUnderFreshKey (policy : RuntimePolicy) (organizationId : Option Uuid)
    (sourceGraphApprovalId : Option Uuid) : Service RuntimePolicyRecord := do
  let id ← uuid4
  RuntimePolicyService.createPolicy P
    { policy with
      id := P.uuidText id
      version := 1
      status := .draft }
    organizationId sourceGraphApprovalId

/-- `create_policy` of the router. -/
def createPolicy (req : RuntimePolicyRequest) (organizationId : Option Uuid) (now : Timestamp) :
    Service RuntimePolicyRecord :=
  createUnderFreshKey P (buildRuntimePolicy req "" 1 { created := some now }) organizationId none

/-- `edit_policy` of the router. -/
def editPolicy (policyKey : Uuid) (organizationId : Option Uuid) (req : RuntimePolicyRequest)
    (now : Timestamp) : Service RuntimePolicyRecord := do
  let latest ← getLatest policyKey organizationId
  RuntimePolicyService.editPolicy policyKey organizationId
    (buildRuntimePolicy req (P.uuidText policyKey) (latest.version + 1)
      { created := some (latest.content.audit.created.getD now), modified := some now }
      latest.content.constraints.authorityId latest.content.constraints.mandateId)
    (some latest)

end RuntimePoliciesRouter

/-- What authors and reviewers request. -/
inductive AuthoringRequest where
  | create (policy : RuntimePolicy) (organizationId sourceGraphApprovalId : Option Uuid)
  | edit (policyKey : Uuid) (organizationId : Option Uuid) (req : RuntimePolicyRequest)
      (now : Timestamp)
  | rollback (policyKey : Uuid) (organizationId : Option Uuid) (targetVersion : ℕ) (actor : String)
      (reason : Option String) (now : Timestamp)
  /-- Everything that inserts no version. -/
  | operation (op : Operation) (h : ¬ op.inserts)

def AuthoringRequest.program (P : Platform) : AuthoringRequest → Service Unit
  | .create policy o approval => (RuntimePoliciesRouter.createUnderFreshKey P policy o approval).run
  | .edit key o req now => (RuntimePoliciesRouter.editPolicy P key o req now).run
  | .rollback key o target actor reason now => (rollbackPolicy key o target actor reason now).run
  | .operation op _ => op.program P

abbrev ServiceAnswered : Type := Answered Statement Statement.Answer PyError

/-! ## Where versions come from -/

/-- An operation has read a version as the latest one of a key. -/
def ReadLatest (tr : List ServiceAnswered) (key : Uuid) (o : Option Uuid)
    (row : RuntimePolicyRecord) : Prop :=
  ⟨.select (.latestVersionRow key o), .ok (some row)⟩ ∈ tr

/-- An operation has read a version by its number. -/
def ReadVersion (tr : List ServiceAnswered) (key : Uuid) (row : RuntimePolicyRecord) : Prop :=
  ∃ version o, ⟨.select (.versionRow key version o), .ok (some row)⟩ ∈ tr

/-- The number and the key of a version, and those in its content. -/
inductive Origin (P : Platform) (row : RuntimePolicyRecord) (tr : List ServiceAnswered) : Prop where
  | created (hversion : row.version = 1) (hcontent : row.content.version = 1)
      (hid : row.content.id = P.uuidText row.policyKey)
  | edited (o : Option Uuid) (first second : RuntimePolicyRecord)
      (hfirst : ReadLatest tr row.policyKey o first) (hsecond : ReadLatest tr row.policyKey o second)
      (hversion : row.version = second.version + 1)
      (hcontent : row.content.version = (first.version + 1 : ℕ))
      (hid : row.content.id = P.uuidText row.policyKey ∨
        ∃ target, ReadVersion tr row.policyKey target ∧ row.content.id = target.content.id)

/-- Every version that is inserted has an origin. -/
def Originates (P : Platform) : Statement → List ServiceAnswered → Prop
  | .commit ws, tr => ∀ w ∈ ws, ∀ row, w.inserted = some row → Origin P row tr
  | _, _ => True

section

variable {P : Platform} {key : Uuid} {o : Option Uuid} {row : RuntimePolicyRecord}
  {held : Option RuntimePolicyRecord} {tr tr' : List ServiceAnswered}

/-- A statement that inserts nothing. -/
theorem originates_of_inserts {q : Statement} (h : Inserts (fun _ => False) q) :
    Originates P q tr := by
  cases q with
  | commit ws => exact fun w hw row hrow => (h w hw row hrow).elim
  | _ => trivial

theorem sending_inserting {α : Type} {p : Service α} (h : Inserting (fun _ => False) p) :
    Sending (Originates P) p (fun _ tr' => tr ⊆ tr') (fun _ _ => True) tr :=
  sending_of_sends h (fun _ _ hq => originates_of_inserts hq) (fun _ _ htr => htr)
    fun _ _ _ => trivial

theorem sending_getLatest :
    Sending (Originates P) (getLatest key o held)
      (fun row tr' => tr ⊆ tr' ∧ ∃ found, ReadLatest tr' key o found ∧ row = heldOr held found)
      (fun _ _ => True) tr := by
  refine sending_bind (sending_send trivial (fun found => ?_) fun _ => trivial)
  cases found with
  | none => trivial
  | some found =>
    exact ⟨List.subset_append_left _ _, found, List.mem_append_right _ (List.mem_singleton_self _), rfl⟩

/-- A session's row has the number of the one that it has read. -/
theorem heldOr_version (found : RuntimePolicyRecord) :
    (heldOr held found).version = found.version := by
  cases held with
  | none => rfl
  | some h =>
    rw [heldOr]
    split
    · next hident => exact RuntimePolicyRecord.version_of_ident hident
    · rfl

theorem sending_insertDraft (h : Origin P row tr) {eventType : LifecycleEventType} :
    Sending (Originates P) (insertDraft row eventType) (fun _ tr' => tr ⊆ tr') (fun _ _ => True)
      tr := by
  refine sending_seq (S := fun _ tr' => tr ⊆ tr') (sending_send ?_ (fun _ => ?_) fun _ => trivial)
    fun _ tr₁ htr => ?_
  · intro w hw row' hrow'
    rw [List.mem_singleton.1 hw] at hrow'
    cases hrow'
    exact h
  · exact List.subset_append_left _ _
  · refine sending_mono (sending_inserting (inserting_bind inserting_refresh fun _ =>
      inserting_bind inserting_event fun _ => trivial)) (fun _ _ htr' => ?_) fun _ _ _ => trivial
    exact List.Subset.trans htr htr'

theorem sending_createUnderFreshKey (hP : ∀ id, P.uuid (P.uuidText id) = some id)
    {policy : RuntimePolicy} {approval : Option Uuid} :
    Sending (Originates P) (RuntimePoliciesRouter.createUnderFreshKey P policy o approval)
      (fun _ _ => True) (fun _ _ => True) tr := by
  refine sending_bind (sending_send trivial (fun id => ?_) fun _ => trivial)
  have hdraft : ∀ tr, Sending (Originates P)
      (policyKeyOf P { policy with id := P.uuidText id, version := 1, status := .draft } >>=
        fun key => insertDraft (draftRow key 1
          { policy with id := P.uuidText id, version := 1, status := .draft } o approval) .created)
      (fun _ _ => True) (fun _ _ => True) tr := by
    intro tr
    rw [policyKeyOf, hP]
    exact sending_mono (sending_insertDraft (.created rfl rfl rfl)) (fun _ _ _ => trivial)
      fun _ _ _ => trivial
  refine sending_seq (S := fun _ _ => True) ?_ fun sandbox tr _ => ?_
  · refine sending_mono (sending_inserting ?_) (fun _ _ _ => trivial) fun _ _ _ => trivial
    cases o with
    | none => trivial
    | some id =>
      refine inserting_bind inserting_look fun found => ?_
      cases found <;> trivial
  · split
    · refine sending_seq (sending_inserting inserting_look) fun existing tr _ => ?_
      dsimp only
      split
      · trivial
      · exact hdraft tr
    · exact hdraft tr

/-- An edit of a key, by an operation that has read a version as its latest one. -/
theorem sending_editPolicy {first : RuntimePolicyRecord} {updated : RuntimePolicy}
    (hfirst : ReadLatest tr key o first) (hversion : updated.version = (first.version + 1 : ℕ))
    (hid : updated.id = P.uuidText key ∨
      ∃ target, ReadVersion tr key target ∧ updated.id = target.content.id) :
    Sending (Originates P) (editPolicy key o updated held) (fun _ _ => True) (fun _ _ => True) tr := by
  refine sending_seq sending_getLatest ?_
  rintro latest tr' ⟨htr, second, hsecond, rfl⟩
  dsimp only
  split
  · trivial
  refine sending_mono (sending_insertDraft ?_) (fun _ _ _ => trivial) fun _ _ _ => trivial
  refine .edited o first second (htr hfirst) hsecond ?_ hversion ?_
  · show (heldOr held second).version + 1 = _
    rw [heldOr_version]
  · refine hid.imp_right ?_
    rintro ⟨target, ⟨version, o', hread⟩, heq⟩
    exact ⟨target, ⟨version, o', htr hread⟩, heq⟩

theorem sending_edit {req : RuntimePolicyRequest} {now : Timestamp} :
    Sending (Originates P) (RuntimePoliciesRouter.editPolicy P key o req now) (fun _ _ => True)
      (fun _ _ => True) tr := by
  refine sending_seq sending_getLatest ?_
  rintro latest tr' ⟨-, first, hfirst, rfl⟩
  exact sending_editPolicy hfirst rfl (.inl rfl)

theorem sending_rollback {target : ℕ} {actor : String} {reason : Option String} {now : Timestamp} :
    Sending (Originates P) (rollbackPolicy key o target actor reason now) (fun _ _ => True)
      (fun _ _ => True) tr := by
  refine sending_seq (S := fun row tr' => ReadVersion tr' key row) ?_ fun targetRow tr₁ htarget => ?_
  · refine sending_bind (sending_send trivial (fun found => ?_) fun _ => trivial)
    cases found with
    | none => trivial
    | some found => exact ⟨target, o, List.mem_append_right _ (List.mem_singleton_self _)⟩
  dsimp only
  split
  · trivial
  refine sending_seq sending_getLatest ?_
  rintro latest tr₂ ⟨htr, first, hfirst, rfl⟩
  split
  · trivial
  refine sending_seq (S := fun _ _ => True) (sending_editPolicy hfirst ?_ (.inr ?_)) fun row tr₃ _ => ?_
  · show (((heldOr (some targetRow) first).version + 1 : ℕ) : ℤ) = _
    rw [heldOr_version]
  · obtain ⟨version, o', hread⟩ := htarget
    exact ⟨targetRow, ⟨version, o', htr hread⟩, rfl⟩
  · exact sending_mono (sending_inserting inserting_transition) (fun _ _ _ => trivial)
      fun _ _ _ => trivial

end

/-! ## Runs -/

section

variable {ι : Type} [DecidableEq ι] {H : Host}

abbrev AuthoringStore (ι : Type) : Type :=
  Reported Statement Statement.Answer PyError (Store ι) ι Unit

abbrev AuthoringWorld (ι : Type) : Type :=
  World (Statement ⊕ Unit) (ReportAnswer Statement.Answer Unit) PyError (AuthoringStore ι) ι

/-- The latest version of a key that a statement has found. -/
def latestRead : ServiceAnswered → Option ((Uuid × Option Uuid) × RuntimePolicyRecord)
  | ⟨.select (.latestVersionRow key o), .ok (some row)⟩ => some ((key, o), row)
  | _ => none

/-- A version is added to a key whose latest version is still of the number that the operation has
read. -/
def unmoved (i : ι) : (q : Statement ⊕ Unit) → AuthoringStore ι →
    Except PyError (ReportAnswer Statement.Answer Unit q) → Bool
  | .inl (.commit ws), s, .ok _ => ws.all fun w => w.inserted.all fun row =>
      (s.trace i).all fun x => (latestRead x).all fun e => e.1.1 = row.policyKey →
        (s.store.db.latestVersionRow e.1.1 e.1.2).map RuntimePolicyRecord.version =
          some e.2.version
  | _, _, _ => true

def authoringPrograms (P : Platform) :
    Set (Prog (Statement ⊕ Unit) (ReportAnswer Statement.Answer Unit) PyError Unit) :=
  Set.range fun req : AuthoringRequest => (req.program P).reported fun _ => ()

/-- A run of requests whose steps meet a condition, from a store in which nothing has been done. -/
def AuthoringRun (H : Host)
    (c : ι → (q : Statement ⊕ Unit) → AuthoringStore ι →
      Except PyError (ReportAnswer Statement.Answer Unit q) → Bool)
    (w : AuthoringWorld ι) : Prop :=
  Reach (((machine H ι).reporting Unit).restrict fun i q s r => c i q s r = true)
    (authoringPrograms H.toPlatform)
    (fun s => ∃ t : Store ι, t.Fresh ∧ (∀ i q, t.seen i q = none) ∧ s = Reported.init t) w

theorem AuthoringRequest.keeps (req : AuthoringRequest) :
    (contract (Terms.free ι True) H).Keeps (req.program H.toPlatform) := by
  have hT : ∀ w, (Terms.free ι True).plain w := fun _ => trivial
  cases req with
  | create policy o approval =>
    refine Logic.Keeps.run fun i s _ hidle => wp_bind (wp_uuid4 fun id t hst => ?_)
    exact wp_mono (wp_createPolicy hT (hst.pending.trans hidle)) (fun _ _ h => h.idle)
      fun _ _ h => h.idle
  | edit key o req now =>
    refine Logic.Keeps.run fun i s _ hidle => wp_bind (wp_getLatest (by simp)
      (fun row t hst hrow => ?_) fun e t hst => hst.pending.trans hidle)
    refine wp_mono (wp_editPolicy hT (hst.pending.trans hidle) fun q hq => ?_)
      (fun _ _ h => h.1.idle) fun _ _ h => h.idle
    exact Option.some.inj hq ▸ hrow.toHeld
  | rollback key o target actor reason now =>
    refine Logic.Keeps.run fun i s _ hidle => ?_
    exact wp_mono (wp_rollbackPolicy hT hidle) (fun _ _ h => h.idle) fun _ _ h => h.idle
  | operation op h =>
    exact op.keeps (fun _ _ => trivial) Terms.free_passes (fun _ _ => trivial)
      fun _ _ _ _ _ _ _ _ _ => trivial

/-- A run without its reports. -/
theorem AuthoringRun.erased {c : ι → (q : Statement ⊕ Unit) → AuthoringStore ι →
      Except PyError (ReportAnswer Statement.Answer Unit q) → Bool} {w : AuthoringWorld ι}
    (h : AuthoringRun H c w) :
    Reach ((machine H ι).restrict fun _ _ _ _ => True)
      (Prog.erased '' authoringPrograms H.toPlatform)
      (fun s : Store ι => s.Fresh ∧ ∀ i q, s.seen i q = none) w.erased := by
  refine Reach.imp (fun i q s r t hstep => ⟨hstep, trivial⟩) (Reach.erased ?_ h.of_restrict)
  rintro s ⟨t, hfresh, hseen, rfl⟩
  exact ⟨hfresh, hseen⟩

theorem authoring_keeps : ∀ p ∈ Prog.erased '' authoringPrograms H.toPlatform,
    (contract (Terms.free ι True) H).Keeps p := by
  rintro _ ⟨_, ⟨req, rfl⟩, rfl⟩
  intro i s hinv hidle
  rw [erased_reported]
  exact wp_tryCatch (wp_bind (wp_mono (req.keeps i s hinv hidle) (fun _ _ h => h) fun _ _ h => h))

/-! ## Row and content -/

/-- The content of a version has its number and its key. -/
def RuntimePolicyRecord.Agrees (P : Platform) (row : RuntimePolicyRecord) : Prop :=
  row.content.version = row.version ∧ row.content.id = P.uuidText row.policyKey

variable {P : Platform} {row row' : RuntimePolicyRecord}

theorem RuntimePolicyRecord.id_of_core (h : row.core = row'.core) :
    row.content.id = row'.content.id := by
  have hauthored := congrArg RuntimePolicy.id (RuntimePolicyRecord.authored_of_core h)
  exact hauthored

/-- Agreement is about what never changes. -/
theorem RuntimePolicyRecord.Agrees.of_core (h : row.Agrees P) (hcore : row'.core = row.core) :
    row'.Agrees P := by
  have hident := RuntimePolicyRecord.ident_of_core hcore
  have hversion : row'.content.version = row.content.version := by
    have hauthored := congrArg RuntimePolicy.version (RuntimePolicyRecord.authored_of_core hcore)
    exact hauthored
  constructor
  · rw [hversion, RuntimePolicyRecord.version_of_ident hident]
    exact h.1
  · rw [RuntimePolicyRecord.id_of_core hcore, RuntimePolicyRecord.key_of_ident hident]
    exact h.2

/-- Every version was inserted as it is. -/
def Store.Created (s : Store ι) : Prop :=
  ∀ r ∈ s.db.records, ∃ row, .insertRecord row ∈ s.log ∧ row.core = r.core

/-- What was inserted agrees, and so does what has been read. -/
structure Agreeing (P : Platform) (s : AuthoringStore ι) : Prop where
  inserted : ∀ row, .insertRecord row ∈ s.store.log → row.Agrees P
  read : ∀ i key row, ReadVersion (s.trace i) key row → row.content.id = P.uuidText key

/-- An insertion that is not overtaken agrees. -/
theorem Origin.agrees {tr : List ServiceAnswered} (h : Origin P row tr)
    (hread : ∀ target, ReadVersion tr row.policyKey target →
      target.content.id = P.uuidText row.policyKey)
    {v : Option Uuid → Option ℕ}
    (hunmoved : ∀ o l, ReadLatest tr row.policyKey o l → v o = some l.version) :
    row.Agrees P := by
  cases h with
  | created hversion hcontent hid =>
    refine ⟨?_, hid⟩
    rw [hcontent, hversion]
    rfl
  | edited o first second hfirst hsecond hversion hcontent hid =>
    have hsame : first.version = second.version :=
      Option.some.inj ((hunmoved o first hfirst).symm.trans (hunmoved o second hsecond))
    refine ⟨by rw [hcontent, hversion, hsame], ?_⟩
    rcases hid with hid | ⟨target, htarget, heq⟩
    · exact hid
    · rw [heq]
      exact hread target htarget

/-- **One statement keeps it.** -/
theorem Agreeing.step {s : AuthoringStore ι} {i : ι} {q : Statement}
    {r : Except PyError q.Answer} {t : Store ι} (h : Agreeing H.toPlatform s)
    (hcreated : s.store.Created) (hsend : Originates H.toPlatform q (s.trace i))
    (hstep : Store.step H i q s.store r t) (hc : unmoved i (.inl q) s r = true) :
    Agreeing H.toPlatform (s.sent i q r t) := by
  constructor
  · intro row hrow
    cases q with
    | commit ws =>
      rcases Store.step_commit hstep with rfl | ⟨rfl, -, rfl⟩
      · exact h.inserted row hrow
      rw [Reported.sent_store, Store.commit_log] at hrow
      rcases List.mem_append.1 hrow with hrow | hrow
      · exact h.inserted row hrow
      · refine (hsend _ hrow row rfl).agrees (h.read i row.policyKey) (v := fun o =>
          (s.store.db.latestVersionRow row.policyKey o).map RuntimePolicyRecord.version)
          fun o l hl => ?_
        have hread := List.all_eq_true.1 (List.all_eq_true.1 hc _ hrow) _ hl
        exact of_decide_eq_true hread rfl
    | _ =>
      rw [Reported.sent_store, (Store.step_same hstep nofun).log] at hrow
      exact h.inserted row hrow
  · rintro j key row ⟨version, o, hx⟩
    by_cases hj : j = i
    · subst hj
      rw [Reported.sent_trace_self] at hx
      rcases List.mem_append.1 hx with hx | hx
      · exact h.read j key row ⟨version, o, hx⟩
      · -- the version has just been found
        cases List.mem_singleton.1 hx
        rcases hstep with ⟨hanswer, -⟩ | ⟨hanswer, -⟩
        · obtain ⟨hmem, hkey, -, -⟩ := mem_of_versionRow (Except.ok.inj hanswer).symm
          obtain ⟨row', hrow', hcore⟩ := hcreated row hmem
          have hagrees := (h.inserted row' hrow').of_core hcore.symm
          rw [hagrees.2, hkey]
        · cases hanswer
    · rw [Reported.sent_trace_of_ne hj] at hx
      exact h.read j key row ⟨version, o, hx⟩

theorem AuthoringRequest.originates (hP : ∀ id, P.uuid (P.uuidText id) = some id)
    (req : AuthoringRequest) :
    Sending (Originates P) (req.program P) (fun _ _ => True) (fun _ _ => True) [] := by
  have hrun : ∀ {α : Type} {p : Service α}, Sending (Originates P) p (fun _ _ => True)
      (fun _ _ => True) [] → Sending (Originates P) p.run (fun _ _ => True) (fun _ _ => True) [] :=
    fun hp => sending_seq hp fun _ _ _ => trivial
  cases req with
  | create policy o approval => exact hrun (sending_createUnderFreshKey hP)
  | edit key o req now => exact hrun sending_edit
  | rollback key o target actor reason now => exact hrun sending_rollback
  | operation op h =>
    exact sending_mono (sending_inserting (op.sends_insertions fun hop => absurd hop h))
      (fun _ _ _ => trivial) fun _ _ _ => trivial

section

variable {c : ι → (q : Statement ⊕ Unit) → AuthoringStore ι →
    Except PyError (ReportAnswer Statement.Answer Unit q) → Bool} {w : AuthoringWorld ι}

theorem AuthoringRun.inv (h : AuthoringRun H c w) : Inv (Terms.free ι True) w.store.store :=
  (h.erased.of_restrict.sound authoring_keeps fun _ hs => hs.1.start).1

theorem AuthoringRun.created (h : AuthoringRun H c w) : w.store.store.Created :=
  (h.inv.trailed trivial).created

theorem AuthoringRun.agreeing (hP : ∀ id, H.uuid (H.uuidText id) = some id)
    (h : AuthoringRun H unmoved w) : Agreeing H.toPlatform w.store := by
  have hrun := Reach.assuming (K := fun s : AuthoringStore ι => s.store.Created)
    (fun w hw => AuthoringRun.created hw) h
  refine Reach.sending (P := Originates H.toPlatform) (R := fun _ _ => True) ?_ ?_
    (fun i q s r t hsend hstep hc hs => hs.step hc.2 hsend hstep hc.1) ?_ hrun
  · rintro _ ⟨req, rfl⟩
    exact ⟨_, _, _, rfl, req.originates hP⟩
  · rintro s ⟨t, hfresh, -, rfl⟩
    refine ⟨fun i => rfl, fun row hrow => ?_, fun i key row hread => ?_⟩
    · have hlog : Write.insertRecord row ∈ t.log := hrow
      rw [hfresh.log] at hlog
      cases hlog
    · obtain ⟨_, _, hx⟩ := hread
      cases hx
  · intro i x s _ hs
    refine ⟨hs.inserted, fun j key row hread => ?_⟩
    by_cases hj : j = i
    · subst hj
      obtain ⟨version, o, hx⟩ := hread
      rw [Reported.report_trace_self] at hx
      cases hx
    · refine hs.read j key row ?_
      rw [ReadVersion, Reported.report_trace_of_ne hj] at hread
      exact hread

end

end

open RuntimePolicySchema in
/-- **Row and content agree.** So do the entries of manifests: each of them is that of exactly one
version. -/
theorem row_and_content_agree {ι : Type} [DecidableEq ι] {H : Host} {w : AuthoringWorld ι}
    (F : DateFormat) (hP : ∀ id, H.uuid (H.uuidText id) = some id) (h : AuthoringRun H unmoved w) :
    (∀ r ∈ w.store.store.db.records, r.content.version = r.version ∧
      r.content.id = H.uuidText r.policyKey ∧
      fromDict F (contentDict F r.content) = some (readPolicy r.content)) ∧
    ∀ p ∈ w.store.store.db.policies, ∀ m, p.bundleManifest = some m → ∀ e ∈ m.policies,
      ∃ r ∈ w.store.store.db.records, e = BundleBuilder.manifestEntry r.content ∧
        ∀ r' ∈ w.store.store.db.records,
          (H.uuidText r'.policyKey = e.id ∧ (r'.version : ℤ) = e.version) ↔ r' = r := by
  have hinv := h.inv
  have hagrees : ∀ r ∈ w.store.store.db.records, r.Agrees H.toPlatform := by
    intro r hr
    obtain ⟨row, hrow, hcore⟩ := h.created r hr
    exact ((h.agreeing hP).inserted row hrow).of_core hcore.symm
  have hlisted := compilations_of_run authoring_keeps (fun _ hs => hs.1) (fun _ hs => hs.2) h.erased
  refine ⟨fun r hr => ⟨(hagrees r hr).1, (hagrees r hr).2, fromDict_contentDict F r.content⟩, ?_⟩
  intro p hp m hm e he
  obtain ⟨c, hc, heq⟩ := hlisted.listed p hp m hm e he
  obtain ⟨r, hr, rfl⟩ := Db.exists_of_core hc
  refine ⟨r, hr, heq, fun r' hr' => ⟨fun hident => ?_, fun hsame => ?_⟩⟩
  · rw [heq] at hident
    have hkey : H.uuidText r'.policyKey = H.uuidText r.policyKey := hident.1.trans (hagrees r hr).2
    have hversion : (r'.version : ℤ) = r.version := hident.2.trans (hagrees r hr).1
    have hkey' : r'.policyKey = r.policyKey := by
      have huuid := congrArg H.uuid hkey
      rw [hP, hP] at huuid
      exact Option.some.inj huuid
    refine hinv.db.eq_of_ident hr' hr (Prod.ext hkey' ?_)
    exact_mod_cast hversion
  · rw [hsame, heq]
    exact ⟨(hagrees r hr).2.symm, (hagrees r hr).1.symm⟩

/-! ### Two editors -/

/-- Ids and times as tallies. -/
def tally (c : Char) (n : ℕ) : String := String.ofList (List.replicate n c)

def untally (c : Char) (s : String) : Option ℕ :=
  if s.toList.all fun d => d = c then some s.toList.length else none

theorem untally_tally (c : Char) (n : ℕ) : untally c (tally c n) = some n := by
  simp [untally, tally]

theorem untally_tally_of_ne {c d : Char} {n : ℕ} (hn : n ≠ 0) (hcd : c ≠ d) :
    untally d (tally c n) = none := by
  simp [untally, tally, hn, hcd]

def tallyHost : Host :=
  { sampleHost with
    uuid := fun s => (untally 'x' s).bind fun n => if n = 0 then none else some (n - 1)
    uuidText := fun id => tally 'x' (id + 1) }

theorem tallyHost_uuid (id : Uuid) : tallyHost.uuid (tallyHost.uuidText id) = some id := by
  show ((untally 'x' (tally 'x' (id + 1))).bind _) = some id
  rw [untally_tally]
  rfl

def tallyDates : DateFormat where
  isoformat t := if 0 ≤ t then tally '+' t.natAbs else tally '-' t.natAbs
  fromisoformat s := ((untally '+' s).map fun n => (n : ℤ)).or
    ((untally '-' s).map fun n => -(n : ℤ))
  fromisoformat_isoformat t := by
    by_cases ht : 0 ≤ t
    · rw [if_pos ht, untally_tally]
      show some (t.natAbs : ℤ) = some t
      rw [Int.natAbs_of_nonneg ht]
    · have hlt : t < 0 := not_le.1 ht
      have hne : t.natAbs ≠ 0 := Int.natAbs_ne_zero.2 (ne_of_lt hlt)
      rw [if_neg ht, untally_tally_of_ne hne (by decide), untally_tally]
      show some (-(t.natAbs : ℤ)) = some t
      rw [Int.ofNat_natAbs_of_nonpos (le_of_lt hlt), neg_neg]

def paymentRequest (name : String) : RuntimePolicyRequest where
  name
  scope := ⟨"Finance", "vendor_payment", none, none⟩
  effect := .allow

/-- The requests of two processes. -/
def authoringTurns (ts : List (Bool × Option AuthoringRequest × ℕ)) :
    List (Turn (Statement ⊕ Unit) (ReportAnswer Statement.Answer Unit) PyError Bool) :=
  ts.map fun t => ⟨t.1, t.2.1.map fun req =>
    (req.program tallyHost.toPlatform).reported fun _ => (), t.2.2⟩

/-- A policy of the first key, and an edit of it. -/
def createPayment : AuthoringRequest :=
  .create (RuntimePoliciesRouter.buildRuntimePolicy (paymentRequest "created") "" 1
    { created := some 5 }) (some 3) none

def editPayment (name : String) : AuthoringRequest :=
  .edit 0 (some 3) (paymentRequest name) 6

def playAuthors (b : Bool → (q : Statement ⊕ Unit) → AuthoringStore Bool →
      Except PyError (ReportAnswer Statement.Answer Unit q) → Bool)
    (ts : List (Bool × Option AuthoringRequest × ℕ)) : AuthoringWorld Bool :=
  (((Store.schedule tallyHost).reporting Unit).restrict b).play (authoringTurns ts)
    ⟨Reported.init (Store.empty Bool), fun _ => none⟩

theorem playAuthors_run
    (b : Bool → (q : Statement ⊕ Unit) → AuthoringStore Bool →
      Except PyError (ReportAnswer Statement.Answer Unit q) → Bool)
    (ts : List (Bool × Option AuthoringRequest × ℕ)) : AuthoringRun tallyHost b (playAuthors b ts) := by
  refine Schedule.play_reach (.init ⟨Store.empty Bool, Store.empty_fresh, fun _ _ => rfl, rfl⟩)
    fun t ht p hp => ?_
  obtain ⟨e, -, rfl⟩ := List.mem_map.1 ht
  obtain ⟨req, -, rfl⟩ := Option.map_eq_some_iff.1 hp
  exact ⟨req, rfl⟩

/-- The second edit begins when the first one is over. -/
def editedInTurn : AuthoringWorld Bool :=
  playAuthors unmoved [(true, some createPayment, 20), (true, some (editPayment "first"), 20),
    (false, some (editPayment "second"), 20)]

theorem row_and_content_agree_in_turn : editedInTurn.store.store.db.records.length = 3 ∧
    ∀ r ∈ editedInTurn.store.store.db.records, r.content.version = r.version := by
  refine ⟨by decide +kernel, fun r hr => ?_⟩
  exact ((row_and_content_agree tallyDates tallyHost_uuid (playAuthors_run unmoved _)).1 r hr).1

/-- The second edit is made when the first one has read the latest version once. -/
def editedAtOnce : AuthoringWorld Bool :=
  playAuthors (fun _ _ _ _ => true) [(true, some createPayment, 20),
    (true, some (editPayment "first"), 1), (false, some (editPayment "second"), 20), (true, none, 20)]

/-- A version has another number than its content. -/
theorem row_and_content_disagree : ∃ w : AuthoringWorld Bool,
    AuthoringRun tallyHost (fun _ _ _ _ => true) w ∧
    ∃ r ∈ w.store.store.db.records, r.content.version ≠ r.version := by
  refine ⟨editedAtOnce, playAuthors_run _ _, ?_⟩
  have hany : (editedAtOnce.store.store.db.records.any fun r => r.content.version ≠ r.version) =
      true := by decide +kernel
  simpa only [List.any_eq_true, decide_eq_true_eq] using hany

end PayReality
