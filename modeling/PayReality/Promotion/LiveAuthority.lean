import PayReality.Lib.Alone
import PayReality.Promotion.Promotions

/-!
# The authority of a promotion

The gate reads the snapshot that was approved last. The authority that the policy cites is made for
the principal that the rows of the live graph give for the delegating name, whatever the snapshot
says.

`promote_candidate` is performed on two databases that differ in the live graph alone.

**Main result** `promotion_determined_iff`: a candidate that passes the gate is promoted in the same
way exactly when the delegating name leads to the same principal in both.
-/

namespace PayReality

open Program RecordProg AiPolicyBuilderService

/-! ## Policies up to ids and times -/

/-- The policy without its ids and times. -/
def RuntimePolicy.withoutIds (p : RuntimePolicy) : RuntimePolicy :=
  { p with
    id := ""
    constraints := { p.constraints with authorityId := none }
    audit := {} }

def RuntimePolicyRecord.withoutIds (r : RuntimePolicyRecord) : RuntimePolicyRecord :=
  { r with
    policyKey := 0
    content := r.content.withoutIds }

/-- What a promotion ends with. -/
abbrev PromotionEnd : Type := Except PromotionError (CreatedRecord × Option Uuid) × Promotions

/-- The principal, the scope and the limit of an authority. -/
def CandidateAuthority.linkage (a : CandidateAuthority) : Uuid × String × Option PyFloat :=
  (a.principalId, a.scope, a.limitAmount)

/-- The linkage of the authority that the policy cites. -/
def PromotionEnd.linkage (e : PromotionEnd) (authorityId : Option Uuid) :
    Option (Uuid × String × Option PyFloat) :=
  (authorityId.bind (Rows.get (fun a => a.id) e.2.authorities)).map CandidateAuthority.linkage

/-- Both promotions fail with one error, or the policies and the authorities that they cite are the
same up to ids and times. -/
inductive SamePromotion (e e' : PromotionEnd) : Prop where
  | refused (error : PromotionError) (h : e.1 = .error error) (h' : e'.1 = .error error)
  | created {r r' : CreatedRecord} {a a' : Option Uuid} (h : e.1 = .ok (r, a)) (h' : e'.1 = .ok (r', a'))
      (hrecord : r.record.withoutIds = r'.record.withoutIds) (hlinkage : e.linkage a = e'.linkage a')

theorem SamePromotion.error_iff {e e' : PromotionEnd} (h : SamePromotion e e')
    (error : PromotionError) : e.1 = .error error ↔ e'.1 = .error error := by
  cases h with
  | refused _ h h' => rw [h, h']
  | created h h' _ _ => simp [h, h']

/-! ## Conditions on the database -/

namespace Promotions

variable (d : Promotions) (P : Platform) (F : FloatFormat)

/-- The database with another live graph. -/
def withGraph (discoveries : List AuthorityPrincipal) (principals : List Uuid) : Promotions :=
  { d with around := { d.around with authorityPrincipals := discoveries, principals } }

/-- The principal that the delegating name of a candidate leads to. -/
def liveAuthority (row : PolicyExtractionCandidate) : Option Uuid :=
  match row.corpusId, firstText (row.content.lookup ["constraints", "delegated_by"])
      (row.content.lookup ["scope", "principal"]) with
  | some corpusId, some name =>
    match (d.around.authorityPrincipals.find? fun a =>
      a.corpusId = corpusId ∧ P.lower a.name = P.lower (CompilationGate.stripped name) ∧
        a.resolvedPrincipalId.isSome).bind fun a => a.resolvedPrincipalId with
    | none => none
    | some principalId => if principalId ∈ d.around.principals then some principalId else none
  | _, _ => none

/-- The candidate of a corpus waits for review in the organization, and its content passes the
gate. -/
structure Reviewable (row : PolicyExtractionCandidate) (corpusId : Uuid) (organizationId : Option Uuid) :
    Prop where
  visible : (d.around.corpora.lookup corpusId).join = organizationId
  pending : row.status = .pendingReview
  gate : ∃ name, CompilationGate.checkGraphReadiness P row.content
    ((d.latestApproval corpusId).map fun a => a.evidenceSnapshot) = .ok name

/-- The organization has as many policies as a sandbox may have. -/
def AtLimit (organizationId : Option Uuid) : Prop :=
  (∃ id, organizationId = some id ∧ d.around.organizations.lookup id = some .sandbox) ∧
    RuntimePolicyService.maxPoliciesPerSandbox ≤ d.policyCount organizationId

/-- The content is that of a valid policy whose limit is a `float`, and there is room for it. -/
structure Buildable (row : PolicyExtractionCandidate) (corpusId : Uuid) (organizationId : Option Uuid)
    (id : Uuid) (now : Timestamp) : Prop where
  limit : ∃ limit, limitOf F row = .ok limit
  valid : ∃ policy, validPolicy P id now row none (d.latestApproval corpusId) = .ok policy
  room : ¬ d.AtLimit organizationId

/-- The id is new, and it is read from its text. -/
structure Fresh (id : Uuid) : Prop where
  read : P.uuid (P.uuidText id) = some id
  text : Text.blank (P.uuidText id) = false
  authority : id ∉ d.authorities.map fun a => a.id
  record : id ∉ d.records.map fun r => r.record.policyKey

end Promotions

/-! ## The policy that is built -/

section

variable {P : Platform} {F : FloatFormat} {row : PolicyExtractionCandidate}
  {approval : Option AuthorityGraphApproval}

theorem map_bind_congr {α β γ : Type} {x : Option α} {f f' : α → Option β} {g g' : β → γ}
    (h : ∀ a, (f a).map g = (f' a).map g') : (x >>= f).map g = (x >>= f').map g' := by
  cases x with
  | none => rfl
  | some a => exact h a

/-- What does not depend on the ids and the times is the same of two policies built of one content. -/
theorem map_build {γ : Type} {g g' : RuntimePolicy → γ} {id id' : Uuid} {now now' : Timestamp}
    {candidateId : Uuid} {content : Json} {authorityId authorityId' : Option Uuid}
    (h : ∀ p q : RuntimePolicy, p.withoutIds = q.withoutIds → p.id = P.uuidText id →
      q.id = P.uuidText id' → g p = g' q) :
    (buildRuntimePolicyFromCandidate P id now candidateId content authorityId approval).map g =
      (buildRuntimePolicyFromCandidate P id' now' candidateId content authorityId' approval).map g' := by
  unfold buildRuntimePolicyFromCandidate
  refine map_bind_congr fun scope => ?_
  refine map_bind_congr fun riskLevel => ?_
  refine map_bind_congr fun name => ?_
  refine map_bind_congr fun description => ?_
  refine map_bind_congr fun conditions => ?_
  refine map_bind_congr fun effect => ?_
  refine map_bind_congr fun delegatedBy => ?_
  refine map_bind_congr fun evidenceRequired => ?_
  refine map_bind_congr fun owner => ?_
  refine map_bind_congr fun createdBy => ?_
  refine map_bind_congr fun tags => ?_
  exact congrArg some (h _ _ rfl rfl rfl)

theorem build_withoutIds (approval : Option AuthorityGraphApproval) (id id' : Uuid)
    (now now' : Timestamp) (candidateId : Uuid) (content : Json)
    (authorityId authorityId' : Option Uuid) :
    (buildRuntimePolicyFromCandidate P id now candidateId content authorityId approval).map
        RuntimePolicy.withoutIds =
      (buildRuntimePolicyFromCandidate P id' now' candidateId content authorityId' approval).map
        RuntimePolicy.withoutIds :=
  map_build fun _ _ h _ _ => h

theorem id_of_build {id : Uuid} {now : Timestamp} {candidateId : Uuid} {content : Json}
    {authorityId : Option Uuid} {p : RuntimePolicy}
    (h : buildRuntimePolicyFromCandidate P id now candidateId content authorityId approval = some p) :
    p.id = P.uuidText id := by
  have hmap : (buildRuntimePolicyFromCandidate P id now candidateId content authorityId approval).map
      (fun p => p.id) = (buildRuntimePolicyFromCandidate P id now candidateId content authorityId
        approval).map fun _ => P.uuidText id := map_build fun _ _ _ h _ => h
  rw [h] at hmap
  exact Option.some.inj hmap

theorem validate_withoutIds {p q : RuntimePolicy} (hp : Text.blank p.id = false)
    (hq : Text.blank q.id = false) (h : p.withoutIds = q.withoutIds) :
    Validators.validate p = Validators.validate q := by
  have hrequired (p : RuntimePolicy) (hp : Text.blank p.id = false) :
      Validators.validateRequiredFields p =
        (Validators.validateRequiredFields p.withoutIds).tail := by
    unfold Validators.validateRequiredFields
    rw [hp]
    rfl
  have hrest (p : RuntimePolicy) (hp : Text.blank p.id = false) : Validators.validate p =
      (Validators.validateRequiredFields p.withoutIds).tail ++
        Validators.validateScope p.withoutIds ++ Validators.validateConditions p.withoutIds ++
          Validators.validateMetadata p.withoutIds := by
    rw [← hrequired p hp]
    rfl
  rw [hrest p hp, hrest q hq, h]

theorem validPolicy_withoutIds (row : PolicyExtractionCandidate)
    (approval : Option AuthorityGraphApproval) {id id' : Uuid} (now now' : Timestamp)
    (a a' : Option CandidateAuthority) (hid : Text.blank (P.uuidText id) = false)
    (hid' : Text.blank (P.uuidText id') = false) :
    (validPolicy P id now row a approval).map RuntimePolicy.withoutIds =
      (validPolicy P id' now' row a' approval).map RuntimePolicy.withoutIds := by
  have hbuild := build_withoutIds (P := P) approval id id' now now' row.id row.content
    (a.map fun a => a.id) (a'.map fun a => a.id)
  unfold validPolicy
  cases hp : buildRuntimePolicyFromCandidate P id now row.id row.content (a.map fun a => a.id)
      approval with
  | none =>
    rw [hp] at hbuild
    rw [Option.map_eq_none_iff.1 hbuild.symm]
  | some p =>
    rw [hp] at hbuild
    obtain ⟨q, hq, hpq⟩ := Option.map_eq_some_iff.1 hbuild.symm
    rw [hq]
    have hvalidate := validate_withoutIds (by rw [id_of_build hp]; exact hid)
      (by rw [id_of_build hq]; exact hid') hpq.symm
    dsimp only
    rw [hvalidate]
    split
    · rfl
    · exact congrArg Except.ok hpq.symm

variable {id id' : Uuid} {now : Timestamp} {a : Option CandidateAuthority}

/-- The authority does not decide whether the policy is valid. -/
theorem validPolicy_ok {p : RuntimePolicy} (now' : Timestamp) (a' : Option CandidateAuthority)
    (hid : Text.blank (P.uuidText id) = false) (hid' : Text.blank (P.uuidText id') = false)
    (h : validPolicy P id now row a approval = .ok p) :
    ∃ q, validPolicy P id' now' row a' approval = .ok q ∧ q.withoutIds = p.withoutIds := by
  have hsame := validPolicy_withoutIds row approval now now' a a' hid hid'
  rw [h] at hsame
  cases hq : validPolicy P id' now' row a' approval with
  | error e =>
    rw [hq] at hsame
    cases hsame
  | ok q =>
    rw [hq] at hsame
    exact ⟨q, rfl, (Except.ok.inj hsame).symm⟩

theorem validPolicy_error {e : PromotionError} (now' : Timestamp) (a' : Option CandidateAuthority)
    (hid : Text.blank (P.uuidText id) = false) (hid' : Text.blank (P.uuidText id') = false)
    (h : validPolicy P id now row a approval = .error e) :
    validPolicy P id' now' row a' approval = .error e := by
  have hsame := validPolicy_withoutIds row approval now now' a a' hid hid'
  rw [h] at hsame
  cases hq : validPolicy P id' now' row a' approval with
  | error e' =>
    rw [hq] at hsame
    exact congrArg Except.error (Except.error.inj hsame).symm
  | ok q =>
    rw [hq] at hsame
    cases hsame

end

/-! ## What a promotion reads -/

section

variable {P : Platform} {F : FloatFormat} {d : Promotions} {x candidateId corpusId : Uuid}
  {organizationId : Option Uuid} {row : PolicyExtractionCandidate}

theorem perform_candidateOrganizationId (hupload : row.uploadId = none)
    (hcorpus : row.corpusId = some corpusId) :
    promotionSchema.perform x (candidateOrganizationId row) d =
      (.ok (d.around.corpora.lookup corpusId).join, d) := by
  unfold candidateOrganizationId
  rw [hupload, hcorpus]
  rfl

theorem perform_getCandidate (hrow : d.candidate candidateId = some row) (hupload : row.uploadId = none)
    (hcorpus : row.corpusId = some corpusId)
    (hvisible : (d.around.corpora.lookup corpusId).join = organizationId) :
    promotionSchema.perform x (getCandidate candidateId organizationId) d = (.ok row, d) := by
  unfold getCandidate
  rw [perform_look, hrow]
  dsimp only
  rw [perform_bind (perform_candidateOrganizationId hupload hcorpus), if_neg (not_not.2 hvisible)]
  rfl

theorem perform_getCandidate_of_ne (hrow : d.candidate candidateId = some row)
    (hupload : row.uploadId = none) (hcorpus : row.corpusId = some corpusId)
    (hvisible : (d.around.corpora.lookup corpusId).join ≠ organizationId) :
    promotionSchema.perform x (getCandidate candidateId organizationId) d =
      (.error .candidateNotFound, d) := by
  unfold getCandidate
  rw [perform_look, hrow]
  dsimp only
  rw [perform_bind (perform_candidateOrganizationId hupload hcorpus), if_pos hvisible]
  rfl

theorem perform_policyOrganizationId (hcorpus : row.corpusId = some corpusId)
    (hvisible : (d.around.corpora.lookup corpusId).join = organizationId) :
    promotionSchema.perform x (policyOrganizationId row organizationId) d = (.ok organizationId, d) := by
  unfold policyOrganizationId
  rw [hcorpus]
  dsimp only
  rw [perform_look, hvisible]
  cases organizationId with
  | none => rfl
  | some owner =>
    dsimp only
    rw [if_neg fun h => h.2 rfl]
    rfl

theorem perform_graphApproval {name : String} (hcorpus : row.corpusId = some corpusId)
    (hgate : CompilationGate.checkGraphReadiness P row.content
      ((d.latestApproval corpusId).map fun a => a.evidenceSnapshot) = .ok name) :
    promotionSchema.perform x (graphApproval P row) d = (.ok (d.latestApproval corpusId), d) := by
  unfold graphApproval
  rw [hcorpus]
  dsimp only
  rw [perform_look, hgate]
  rfl

theorem perform_graphApproval_of_error {e : GraphGateError} (hcorpus : row.corpusId = some corpusId)
    (hgate : CompilationGate.checkGraphReadiness P row.content
      ((d.latestApproval corpusId).map fun a => a.evidenceSnapshot) = .error e) :
    promotionSchema.perform x (graphApproval P row) d = (.error (.graphNotReady e), d) := by
  unfold graphApproval
  rw [hcorpus]
  dsimp only
  rw [perform_look, hgate]
  rfl

theorem perform_findResolvedPrincipalForCandidate :
    promotionSchema.perform x (findResolvedPrincipalForCandidate P row) d =
      (.ok (d.liveAuthority P row), d) := by
  unfold findResolvedPrincipalForCandidate Promotions.liveAuthority
  cases row.corpusId with
  | none => rfl
  | some corpusId =>
    cases firstText (row.content.lookup ["constraints", "delegated_by"])
        (row.content.lookup ["scope", "principal"]) with
    | none => rfl
    | some name =>
      dsimp only
      rw [perform_look]
      cases (d.around.authorityPrincipals.find? fun a =>
          a.corpusId = corpusId ∧ P.lower a.name = P.lower (CompilationGate.stripped name) ∧
            a.resolvedPrincipalId.isSome).bind fun a => a.resolvedPrincipalId with
      | none => rfl
      | some principalId => rfl

/-- The authority that is made with the id `x` for the principal. -/
def authorityMade (x : Uuid) (row : PolicyExtractionCandidate) (limit : Option PyFloat)
    (reviewerId : Option String) (principalId : Uuid) : CandidateAuthority where
  id := x
  corpusId := row.corpusId
  principalId
  scope := (firstText (row.content.lookup ["scope", "action"]) (row.content.get? "name")).getD
    "unspecified"
  limitAmount := limit
  reviewerId

theorem perform_authorityForCandidate {limit : Option PyFloat} (hlimit : limitOf F row = .ok limit)
    (reviewerId : Option String) :
    promotionSchema.perform x (authorityForCandidate P F row reviewerId) d =
      (.ok ((d.liveAuthority P row).map (authorityMade x row limit reviewerId)), d) := by
  unfold authorityForCandidate
  rw [perform_bind perform_findResolvedPrincipalForCandidate]
  cases d.liveAuthority P row with
  | none => rfl
  | some principalId =>
    dsimp only
    unfold createAuthorityForCandidate
    rw [hlimit]
    rfl

theorem perform_authorityForCandidate_of_error {e : PromotionError} (hlimit : limitOf F row = .error e)
    (reviewerId : Option String) :
    promotionSchema.perform x (authorityForCandidate P F row reviewerId) d =
      (if (d.liveAuthority P row).isSome then .error e else .ok none, d) := by
  unfold authorityForCandidate
  rw [perform_bind perform_findResolvedPrincipalForCandidate]
  cases d.liveAuthority P row with
  | none => rfl
  | some principalId =>
    dsimp only
    unfold createAuthorityForCandidate
    rw [hlimit]
    rfl

theorem perform_checkSandboxLimit (hroom : ¬ d.AtLimit organizationId) :
    promotionSchema.perform x (checkSandboxLimit organizationId) d = (.ok (), d) := by
  unfold checkSandboxLimit isSandboxOrganization
  cases organizationId with
  | none => rfl
  | some id =>
    show promotionSchema.perform x (if decide _ = true then _ else _) d = _
    by_cases hsandbox : d.around.organizations.lookup id = some .sandbox
    · rw [if_pos (decide_eq_true hsandbox), perform_look]
      dsimp only
      rw [if_neg fun hlimit => hroom ⟨⟨id, rfl, hsandbox⟩, hlimit⟩]
      rfl
    · rw [if_neg (by simpa using hsandbox)]
      rfl

theorem perform_checkSandboxLimit_of_atLimit (hlimit : d.AtLimit organizationId) :
    promotionSchema.perform x (checkSandboxLimit organizationId) d =
      (.error .sandboxLimitExceeded, d) := by
  obtain ⟨⟨id, rfl, hsandbox⟩, hlimit⟩ := hlimit
  unfold checkSandboxLimit isSandboxOrganization
  show promotionSchema.perform x (if decide _ = true then _ else _) d = _
  rw [if_pos (decide_eq_true hsandbox), perform_look]
  dsimp only
  rw [if_pos hlimit]
  rfl

/-! ## What a promotion writes -/

theorem record_append {r : CreatedRecord}
    (hrecord : r.record.policyKey ∉ d.records.map fun r => r.record.policyKey) :
    (d.records ++ [r]).find? (fun r' => r'.record.policyKey = r.record.policyKey) = some r := by
  have hnone : d.records.find? (fun r' => r'.record.policyKey = r.record.policyKey) = none := by
    refine List.find?_eq_none.2 fun r' hr' hkey => hrecord ?_
    exact List.mem_map.2 ⟨r', hr', of_decide_eq_true hkey⟩
  rw [List.find?_append, hnone, Option.none_or, List.find?_singleton]
  exact if_pos (decide_eq_true rfl)

/-- New keys are admitted. -/
theorem admitted_createPolicy {authority : Option CandidateAuthority} {r : CreatedRecord}
    (ha : d.admitted) (hx : ∀ a ∈ authority, a.id ∉ d.authorities.map fun a => a.id)
    (hrecord : r.record.policyKey ∉ d.records.map fun r => r.record.policyKey) :
    ((PromotionChange.createPolicy authority r).apply d).admitted := by
  obtain ⟨hcandidates, hrecords, hauthorities⟩ := ha
  refine ⟨hcandidates, ?_, ?_⟩
  · show ((d.records ++ [r]).map _).Nodup
    rw [List.map_append, List.nodup_append]
    refine ⟨hrecords, List.nodup_singleton _, fun k hk k' hk' hkk => hrecord ?_⟩
    obtain ⟨r', hr', rfl⟩ := List.mem_map.1 hk
    rw [List.mem_singleton.1 hk'] at hkk
    exact List.mem_map.2 ⟨r', hr', congrArg Prod.fst hkk⟩
  · show ((d.authorities ++ authority.toList).map _).Nodup
    cases authority with
    | none =>
      rw [Option.toList_none, List.append_nil]
      exact hauthorities
    | some a =>
      rw [Option.toList_some, List.map_append, List.nodup_append]
      refine ⟨hauthorities, List.nodup_singleton _, fun k hk k' hk' hkk => hx a rfl ?_⟩
      have hid : k' = a.id := List.mem_singleton.1 hk'
      rw [← hid, ← hkk]
      exact hk

/-- The policy and its authority are inserted, and the candidate is marked. -/
theorem perform_creation {authority : Option CandidateAuthority} {policy : RuntimePolicy}
    (approvalId : Option Uuid) (ha : d.admitted) (hrow : d.candidate row.id = some row)
    (hx : d.Fresh P x) (hpolicy : policy.id = P.uuidText x) (hauthority : ∀ a ∈ authority, a.id = x)
    (hroom : ¬ d.AtLimit organizationId) :
    ∃ e : Promotions, e.authorities = d.authorities ++ authority.toList ∧
      promotionSchema.perform x (createPolicy P row.id authority policy organizationId approvalId >>=
        fun created => markPromoted row.id created >>= fun _ =>
          pure (created, authority.map fun a => a.id)) d =
        (.ok (⟨RuntimePolicyService.draftRow x 1 policy organizationId approvalId, row.id⟩,
          authority.map fun a => a.id), e) := by
  set r : CreatedRecord := ⟨RuntimePolicyService.draftRow x 1 policy organizationId approvalId, row.id⟩
  set d₁ := (PromotionChange.createPolicy authority r).apply d with hd₁
  have hadmitted : d₁.admitted := admitted_createPolicy ha
    (fun a hmem => by rw [hauthority a hmem]; exact hx.authority) hx.record
  have hrefresh (e : Promotions) (he : e.records = d₁.records) :
      promotionSchema.perform x (refresh x) e = (.ok r, e) := by
    have hrecord : e.record x = some r := by
      unfold Promotions.record
      rw [he]
      exact record_append (r := r) hx.record
    unfold refresh
    rw [perform_look, hrecord]
    rfl
  have hinsert : promotionSchema.perform x (commit (.createPolicy authority r)) d = (.ok (), d₁) :=
    perform_commit (decide_eq_true hadmitted)
  have hcreate (event : LifecycleEvent) :
      promotionSchema.perform x (recordLifecycleEvent event) d₁ =
        (.ok (), (PromotionChange.recordEvent event).apply d₁) :=
    perform_tryCatch (perform_commit (decide_eq_true hadmitted))
  have hcreated : ∃ e : Promotions, e.records = d₁.records ∧ e.authorities = d₁.authorities ∧
      e.candidates = d.candidates ∧ e.admitted ∧
      promotionSchema.perform x (createPolicy P row.id authority policy organizationId approvalId) d =
        (.ok r, e) := by
    let event : LifecycleEvent :=
      { policyKey := x
        version := 1
        eventType := .created
        actor := policy.metadata.createdBy }
    refine ⟨(PromotionChange.recordEvent event).apply d₁, rfl, rfl, rfl, hadmitted, ?_⟩
    unfold createPolicy policyKeyOf
    rw [perform_bind (perform_checkSandboxLimit hroom), hpolicy, hx.read]
    dsimp only
    rw [perform_bind (rfl : promotionSchema.perform x (pure x) d = (.ok x, d)),
      perform_bind hinsert, perform_bind (hrefresh _ rfl), perform_bind (hcreate _)]
    rfl
  obtain ⟨e, hrecords, hauthorities, hcandidates, hadmits, hperform⟩ := hcreated
  let marked (c : PolicyExtractionCandidate) : PolicyExtractionCandidate :=
    { c with status := .promoted, promotedPolicyKey := some x }
  have hpromoted : ((PromotionChange.promote row.id x).apply e).admitted := by
    obtain ⟨hc, hrest⟩ := hadmits
    refine ⟨?_, hrest⟩
    exact (congrArg List.Nodup (Rows.keys_update (f := marked) fun _ => rfl)).mpr hc
  have hmark : promotionSchema.perform x (commit (.promote row.id x)) e =
      (.ok (), (PromotionChange.promote row.id x).apply e) :=
    perform_commit (decide_eq_true hpromoted)
  have hmarked : (((PromotionChange.promote row.id x).apply e).candidate row.id).isNone = false := by
    show (Rows.get _ (Rows.update _ e.candidates row.id _) row.id).isNone = false
    refine (congrArg Option.isNone (Rows.get_update_self (f := marked) fun _ => rfl)).trans ?_
    rw [hcandidates]
    unfold Promotions.candidate at hrow
    rw [hrow]
    rfl
  have hfinish : promotionSchema.perform x (markPromoted row.id r) e =
      (.ok (), (PromotionChange.promote row.id x).apply e) := by
    unfold markPromoted
    show promotionSchema.perform x (refresh x >>= _) e = _
    rw [perform_bind (hrefresh e hrecords)]
    show promotionSchema.perform x (commit (.promote row.id x) >>= _) e = _
    rw [perform_bind hmark, perform_look, hmarked]
    rfl
  refine ⟨(PromotionChange.promote row.id x).apply e, hauthorities, ?_⟩
  rw [perform_bind hperform, perform_bind hfinish]
  rfl

/-! ## The whole promotion -/

/-- What follows when it is known which authority the policy cites. -/
def afterAuthority (P : Platform) (row : PolicyExtractionCandidate) (organizationId : Option Uuid)
    (now : Timestamp) (approval : Option AuthorityGraphApproval)
    (authority : Option CandidateAuthority) : PromotionProg (CreatedRecord × Option Uuid) :=
  draw >>= fun id => lift (validPolicy P id now row authority approval) >>= fun policy =>
    createPolicy P row.id authority policy organizationId (approval.map fun a => a.id) >>=
      fun created => markPromoted row.id created >>= fun _ =>
        pure (created, authority.map fun a => a.id)

variable {promotedBy : Option String} {now : Timestamp}

theorem perform_of_reviewable (hrow : d.candidate candidateId = some row)
    (hupload : row.uploadId = none) (hcorpus : row.corpusId = some corpusId)
    (h : d.Reviewable P row corpusId organizationId) :
    promotionSchema.perform x (promoteCandidate P F candidateId organizationId promotedBy now) d =
      promotionSchema.perform x (authorityForCandidate P F row promotedBy >>=
        afterAuthority P row organizationId now (d.latestApproval corpusId)) d := by
  obtain ⟨name, hgate⟩ := h.gate
  unfold promoteCandidate
  rw [perform_bind (perform_getCandidate hrow hupload hcorpus h.visible),
    if_neg (not_not.2 h.pending),
    perform_bind (rfl : promotionSchema.perform x (lift (.ok ())) d = (.ok (), d)),
    perform_bind (perform_policyOrganizationId hcorpus h.visible),
    perform_bind (perform_graphApproval hcorpus hgate)]
  rfl

/-- Why a candidate is not promoted that does not wait for review, or does not pass the gate: the live
graph is not read. -/
theorem refused_of_not_reviewable (hrow : d.candidate candidateId = some row)
    (hupload : row.uploadId = none) (hcorpus : row.corpusId = some corpusId)
    (h : ¬ d.Reviewable P row corpusId organizationId) :
    ∃ error, ∀ x now discoveries principals, (promotionSchema.perform x
      (promoteCandidate P F candidateId organizationId promotedBy now)
        (d.withGraph discoveries principals)).1 = .error error := by
  by_cases hvisible : (d.around.corpora.lookup corpusId).join = organizationId
  · by_cases hpending : row.status = .pendingReview
    · cases hgate : CompilationGate.checkGraphReadiness P row.content
          ((d.latestApproval corpusId).map fun a => a.evidenceSnapshot) with
      | ok name => exact absurd ⟨hvisible, hpending, name, hgate⟩ h
      | error e =>
        refine ⟨.graphNotReady e, fun x now discoveries principals => ?_⟩
        set g := d.withGraph discoveries principals
        have hget : promotionSchema.perform x (getCandidate candidateId organizationId) g =
            (.ok row, g) := perform_getCandidate hrow hupload hcorpus hvisible
        unfold promoteCandidate
        rw [perform_bind hget, if_neg (not_not.2 hpending),
          perform_bind (rfl : promotionSchema.perform x (lift (.ok ())) g = (.ok (), g)),
          perform_bind (perform_policyOrganizationId (d := g) hcorpus hvisible),
          perform_bind_error (perform_graphApproval_of_error (d := g) hcorpus hgate)]
    · refine ⟨.candidateNotPendingReview row.status, fun x now discoveries principals => ?_⟩
      set g := d.withGraph discoveries principals
      have hget : promotionSchema.perform x (getCandidate candidateId organizationId) g =
          (.ok row, g) := perform_getCandidate hrow hupload hcorpus hvisible
      unfold promoteCandidate
      rw [perform_bind hget, if_pos hpending]
      rfl
  · refine ⟨.candidateNotFound, fun x now discoveries principals => ?_⟩
    set g := d.withGraph discoveries principals
    have hget : promotionSchema.perform x (getCandidate candidateId organizationId) g =
        (.error .candidateNotFound, g) :=
      perform_getCandidate_of_ne hrow hupload hcorpus hvisible
    unfold promoteCandidate
    rw [perform_bind_error hget]

variable {approval : Option AuthorityGraphApproval} {authority : Option CandidateAuthority}

theorem perform_afterAuthority_of_invalid {e : PromotionError}
    (h : validPolicy P x now row authority approval = .error e) :
    (promotionSchema.perform x (afterAuthority P row organizationId now approval authority) d).1 =
      .error e := by
  unfold afterAuthority
  rw [perform_draw, h]
  rfl

theorem perform_afterAuthority_of_atLimit {policy : RuntimePolicy}
    (h : validPolicy P x now row authority approval = .ok policy) (hlimit : d.AtLimit organizationId) :
    (promotionSchema.perform x (afterAuthority P row organizationId now approval authority) d).1 =
      .error .sandboxLimitExceeded := by
  unfold afterAuthority createPolicy
  rw [perform_draw, h,
    perform_bind (rfl : promotionSchema.perform x (lift (.ok policy)) d = (.ok policy, d)),
    perform_bind_error (perform_bind_error (perform_checkSandboxLimit_of_atLimit hlimit))]

theorem id_of_validPolicy {policy : RuntimePolicy}
    (h : validPolicy P x now row authority approval = .ok policy) : policy.id = P.uuidText x := by
  unfold validPolicy at h
  split at h
  · cases h
  · next p hp =>
    split at h
    · cases h
    · cases h
      exact id_of_build hp

/-- The policy is created, and the authority that it cites has the linkage. -/
theorem perform_afterAuthority {policy : RuntimePolicy} (ha : d.admitted)
    (hrow : d.candidate row.id = some row) (hx : d.Fresh P x)
    (hauthority : ∀ a ∈ authority, a.id = x)
    (h : validPolicy P x now row authority approval = .ok policy) (hroom : ¬ d.AtLimit organizationId) :
    (promotionSchema.perform x (afterAuthority P row organizationId now approval authority) d).1 =
        .ok (⟨RuntimePolicyService.draftRow x 1 policy organizationId (approval.map fun a => a.id),
          row.id⟩, authority.map fun a => a.id) ∧
      PromotionEnd.linkage
        (promotionSchema.perform x (afterAuthority P row organizationId now approval authority) d)
        (authority.map fun a => a.id) = authority.map CandidateAuthority.linkage := by
  obtain ⟨e, he, hperform⟩ := perform_creation (approval.map fun a => a.id) ha hrow hx
    (id_of_validPolicy h) hauthority hroom
  unfold afterAuthority
  rw [perform_draw, h,
    perform_bind (rfl : promotionSchema.perform x (lift (.ok policy)) d = (.ok policy, d)), hperform]
  refine ⟨rfl, ?_⟩
  cases authority with
  | none => rfl
  | some a =>
    have hid := hauthority a rfl
    have hnone : Rows.get (fun a => a.id) d.authorities a.id = none := by
      refine List.find?_eq_none.2 fun b hb hkey => hx.authority ?_
      exact List.mem_map.2 ⟨b, hb, (of_decide_eq_true hkey).trans hid⟩
    show (Rows.get (fun a => a.id) e.authorities a.id).map _ = _
    rw [he, Rows.get_append, hnone]
    show (Rows.get (fun a => a.id) [a] a.id).map _ = _
    unfold Rows.get
    rw [List.find?_singleton, if_pos (decide_eq_true rfl)]

/-! ## Two live graphs -/

variable {x' : Uuid} {now' : Timestamp} {authority' : Option CandidateAuthority} {d' : Promotions}

/-- The promotions are the same, if the authorities have one linkage where they are inserted. -/
theorem same_afterAuthority (ha : d.admitted) (hrow : d.candidate row.id = some row)
    (hx : d.Fresh P x) (ha' : d'.admitted) (hrow' : d'.candidate row.id = some row)
    (hx' : d'.Fresh P x') (hlimit : d.AtLimit organizationId ↔ d'.AtLimit organizationId)
    (hauthority : ∀ a ∈ authority, a.id = x) (hauthority' : ∀ a ∈ authority', a.id = x')
    (h : ∀ p, validPolicy P x now row authority approval = .ok p → ¬ d.AtLimit organizationId →
      authority.map CandidateAuthority.linkage = authority'.map CandidateAuthority.linkage) :
    SamePromotion
      (promotionSchema.perform x (afterAuthority P row organizationId now approval authority) d)
      (promotionSchema.perform x' (afterAuthority P row organizationId now' approval authority') d') := by
  cases hp : validPolicy P x now row authority approval with
  | error e =>
    exact .refused e (perform_afterAuthority_of_invalid hp)
      (perform_afterAuthority_of_invalid (validPolicy_error _ _ hx.text hx'.text hp))
  | ok p =>
    obtain ⟨q, hq, hqp⟩ : ∃ q, validPolicy P x' now' row authority' approval = .ok q ∧
      q.withoutIds = p.withoutIds := validPolicy_ok _ _ hx.text hx'.text hp
    by_cases hl : d.AtLimit organizationId
    · exact .refused .sandboxLimitExceeded (perform_afterAuthority_of_atLimit hp hl)
        (perform_afterAuthority_of_atLimit hq (hlimit.1 hl))
    · obtain ⟨hend, hlinkage⟩ := perform_afterAuthority ha hrow hx hauthority hp hl
      obtain ⟨hend', hlinkage'⟩ := perform_afterAuthority ha' hrow' hx' hauthority' hq
        fun hl' => hl (hlimit.2 hl')
      refine .created hend hend' ?_ (hlinkage.trans ((h p hp hl).trans hlinkage'.symm))
      unfold RuntimePolicyService.draftRow RuntimePolicyRecord.withoutIds
      rw [hqp]

/-- Where the policy is created, the linkages are those of the authorities. -/
theorem linkage_of_same {p q : RuntimePolicy} (ha : d.admitted) (hrow : d.candidate row.id = some row)
    (hx : d.Fresh P x) (ha' : d'.admitted) (hrow' : d'.candidate row.id = some row)
    (hx' : d'.Fresh P x') (hauthority : ∀ a ∈ authority, a.id = x)
    (hauthority' : ∀ a ∈ authority', a.id = x')
    (hp : validPolicy P x now row authority approval = .ok p)
    (hq : validPolicy P x' now' row authority' approval = .ok q)
    (hl : ¬ d.AtLimit organizationId) (hl' : ¬ d'.AtLimit organizationId)
    (h : SamePromotion
      (promotionSchema.perform x (afterAuthority P row organizationId now approval authority) d)
      (promotionSchema.perform x' (afterAuthority P row organizationId now' approval authority') d')) :
    authority.map CandidateAuthority.linkage = authority'.map CandidateAuthority.linkage := by
  obtain ⟨hend, hlinkage⟩ := perform_afterAuthority ha hrow hx hauthority hp hl
  obtain ⟨hend', hlinkage'⟩ := perform_afterAuthority ha' hrow' hx' hauthority' hq hl'
  cases h with
  | refused e he he' =>
    rw [hend] at he
    cases he
  | created hcreated hcreated' _ hsame =>
    rw [hend] at hcreated
    rw [hend'] at hcreated'
    cases hcreated
    cases hcreated'
    rw [hlinkage, hlinkage'] at hsame
    exact hsame

theorem validPolicy_ne_overflow : validPolicy P x now row authority approval ≠ .error .overflow := by
  intro h
  unfold validPolicy at h
  split at h
  · cases h
  · split at h
    · cases h
    · cases h

theorem afterAuthority_ne_overflow (ha : d.admitted) (hrow : d.candidate row.id = some row)
    (hx : d.Fresh P x) :
    (promotionSchema.perform x (afterAuthority P row organizationId now approval none) d).1 ≠
      .error .overflow := by
  intro h
  cases hp : validPolicy P x now row none approval with
  | error e =>
    rw [perform_afterAuthority_of_invalid hp] at h
    cases h
    exact validPolicy_ne_overflow hp
  | ok p =>
    by_cases hl : d.AtLimit organizationId
    · rw [perform_afterAuthority_of_atLimit hp hl] at h
      cases h
    · rw [(perform_afterAuthority ha hrow hx (by simp) hp hl).1] at h
      cases h

/-- The linkage does not say which id the authority has. -/
theorem linkage_authorityMade (x : Uuid) (row : PolicyExtractionCandidate) (limit : Option PyFloat)
    (reviewerId : Option String) (principal : Option Uuid) :
    (principal.map (authorityMade x row limit reviewerId)).map CandidateAuthority.linkage =
      principal.map fun p => (p, (authorityMade 0 row limit reviewerId p).scope, limit) := by
  rw [Option.map_map]
  rfl

theorem id_of_authorityMade {limit : Option PyFloat} {reviewerId : Option String}
    {principal : Option Uuid} :
    ∀ a ∈ principal.map (authorityMade x row limit reviewerId), a.id = x := by
  intro a ha
  obtain ⟨p, -, rfl⟩ := Option.map_eq_some_iff.1 ha
  rfl

/-- Without a principal the limit is not read. -/
theorem perform_without_principal {α : Type} {f : Option CandidateAuthority → PromotionProg α}
    (h : d.liveAuthority P row = none) (reviewerId : Option String) :
    promotionSchema.perform x (authorityForCandidate P F row reviewerId >>= f) d =
      promotionSchema.perform x (f none) d := by
  have hnone : promotionSchema.perform x (authorityForCandidate P F row reviewerId) d =
      (.ok none, d) := by
    unfold authorityForCandidate
    rw [perform_bind perform_findResolvedPrincipalForCandidate, h]
    rfl
  rw [perform_bind hnone]

theorem perform_overflow {α : Type} {f : Option CandidateAuthority → PromotionProg α}
    {e : PromotionError} {p : Uuid} (h : d.liveAuthority P row = some p)
    (hlimit : limitOf F row = .error e) (reviewerId : Option String) :
    promotionSchema.perform x (authorityForCandidate P F row reviewerId >>= f) d = (.error e, d) := by
  have herror := perform_authorityForCandidate_of_error (P := P) (d := d) (x := x) hlimit reviewerId
  rw [h] at herror
  exact perform_bind_error herror

theorem limitOf_error {e : PromotionError} (h : limitOf F row = .error e) : e = .overflow := by
  unfold limitOf at h
  split at h
  · cases h
  · cases h
    rfl

end

section

variable {P : Platform} {F : FloatFormat} {d : Promotions} {candidateId corpusId x x' : Uuid}
  {organizationId : Option Uuid} {row : PolicyExtractionCandidate} {promotedBy : Option String}
  {now now' : Timestamp} {discoveries discoveries' : List AuthorityPrincipal}
  {principals principals' : List Uuid}

/-- **Promotion and the live graph.** On two databases that differ in the live graph, the promotions
of a candidate of a corpus are the same exactly when the delegating name leads to the same principal in
both, or the candidate is not let through to where that matters. -/
theorem promotion_determined_iff (ha : d.admitted) (hrow : d.candidate candidateId = some row)
    (hupload : row.uploadId = none) (hcorpus : row.corpusId = some corpusId) (hx : d.Fresh P x)
    (hx' : d.Fresh P x') :
    SamePromotion
        (promotionSchema.perform x (promoteCandidate P F candidateId organizationId promotedBy now)
          (d.withGraph discoveries principals))
        (promotionSchema.perform x' (promoteCandidate P F candidateId organizationId promotedBy now')
          (d.withGraph discoveries' principals')) ↔
      (d.Reviewable P row corpusId organizationId →
        ((∃ e, limitOf F row = .error e) →
          ((d.withGraph discoveries principals).liveAuthority P row).isSome =
            ((d.withGraph discoveries' principals').liveAuthority P row).isSome) ∧
        (d.Buildable P F row corpusId organizationId x now →
          (d.withGraph discoveries principals).liveAuthority P row =
            (d.withGraph discoveries' principals').liveAuthority P row)) := by
  by_cases hreview : d.Reviewable P row corpusId organizationId
  swap
  · obtain ⟨e, he⟩ := refused_of_not_reviewable (F := F) hrow hupload hcorpus hreview
    exact ⟨fun _ h => absurd h hreview, fun _ => .refused e (he ..) (he ..)⟩
  set g := d.withGraph discoveries principals
  set g' := d.withGraph discoveries' principals'
  have hid : row.id = candidateId := Rows.key_of_get hrow
  have hg : g.candidate row.id = some row := by
    rw [hid]
    exact hrow
  have hg' : g'.candidate row.id = some row := hg
  have hga : g.admitted := ha
  have hga' : g'.admitted := ha
  have hfresh : g.Fresh P x := ⟨hx.read, hx.text, hx.authority, hx.record⟩
  have hfresh' : g'.Fresh P x' := ⟨hx'.read, hx'.text, hx'.authority, hx'.record⟩
  have hreviewable : g.Reviewable P row corpusId organizationId :=
    ⟨hreview.visible, hreview.pending, hreview.gate⟩
  have hreviewable' : g'.Reviewable P row corpusId organizationId :=
    ⟨hreview.visible, hreview.pending, hreview.gate⟩
  rw [perform_of_reviewable (d := g) hrow hupload hcorpus hreviewable,
    perform_of_reviewable (d := g') hrow hupload hcorpus hreviewable']
  cases hlimit : limitOf F row with
  | error e =>
    have hbuild : ¬ d.Buildable P F row corpusId organizationId x now := by
      intro h
      obtain ⟨limit, h⟩ := h.limit
      rw [hlimit] at h
      cases h
    cases limitOf_error hlimit
    cases hL : g.liveAuthority P row with
    | none =>
      rw [perform_without_principal hL]
      cases hL' : g'.liveAuthority P row with
      | none =>
        rw [perform_without_principal hL']
        exact ⟨fun _ _ => ⟨fun _ => rfl, fun _ => rfl⟩, fun _ => same_afterAuthority hga hg hfresh hga' hg'
          hfresh' Iff.rfl (by simp) (by simp) fun _ _ _ => rfl⟩
      | some p =>
        rw [perform_overflow hL' hlimit]
        refine ⟨fun h => ?_, fun h => by simpa using (h hreview).1 ⟨_, rfl⟩⟩
        exact absurd ((h.error_iff _).2 rfl) (afterAuthority_ne_overflow hga hg hfresh)
    | some p =>
      rw [perform_overflow hL hlimit]
      cases hL' : g'.liveAuthority P row with
      | none =>
        rw [perform_without_principal hL']
        refine ⟨fun h => ?_, fun h => by simpa using (h hreview).1 ⟨_, rfl⟩⟩
        exact absurd ((h.error_iff _).1 rfl) (afterAuthority_ne_overflow hga hg' hfresh')
      | some p' =>
        rw [perform_overflow hL' hlimit]
        exact ⟨fun _ _ => ⟨fun _ => rfl, fun h => absurd h hbuild⟩, fun _ => .refused _ rfl rfl⟩
  | ok limit =>
    rw [perform_bind (perform_authorityForCandidate hlimit promotedBy),
      perform_bind (perform_authorityForCandidate hlimit promotedBy)]
    generalize g.liveAuthority P row = L
    generalize g'.liveAuthority P row = L'
    have hlinkage := linkage_authorityMade x row limit promotedBy L
    have hlinkage' := linkage_authorityMade x' row limit promotedBy L'
    constructor
    · intro h _
      refine ⟨fun hover => ?_, fun hbuild => ?_⟩
      · obtain ⟨e, he⟩ := hover
        cases he
      obtain ⟨policy, hvalid⟩ := hbuild.valid
      obtain ⟨p, hp, -⟩ := validPolicy_ok now (L.map (authorityMade x row limit promotedBy)) hx.text
        hx.text hvalid
      obtain ⟨q, hq, -⟩ := validPolicy_ok now' (L'.map (authorityMade x' row limit promotedBy)) hx.text
        hx'.text hvalid
      have hsame := linkage_of_same hga hg hfresh hga' hg' hfresh' id_of_authorityMade
        id_of_authorityMade hp hq hbuild.room hbuild.room h
      rw [hlinkage, hlinkage'] at hsame
      exact Option.map_injective (fun p q hpq => congrArg Prod.fst hpq) hsame
    · intro h
      refine same_afterAuthority hga hg hfresh hga' hg' hfresh' Iff.rfl id_of_authorityMade
        id_of_authorityMade fun p hp hroom => ?_
      obtain ⟨policy, hvalid, -⟩ := validPolicy_ok now none hx.text hx.text hp
      rw [hlinkage, hlinkage', (h hreview).2 ⟨⟨limit, hlimit⟩, ⟨policy, hvalid⟩, hroom⟩]

end

/-! ### A resolution after the approval -/

/-- The linkage of the authority that the created policy cites. -/
def PromotionEnd.cited (e : PromotionEnd) : Option (Uuid × String × Option PyFloat) :=
  e.1.toOption.bind fun r => e.linkage r.2

theorem SamePromotion.cited_eq {e e' : PromotionEnd} (h : SamePromotion e e') : e.cited = e'.cited := by
  unfold PromotionEnd.cited
  cases h with
  | refused _ h h' =>
    rw [h, h']
    rfl
  | created h h' _ hlinkage =>
    rw [h, h']
    exact hlinkage

/-- The CFO's payments, in a corpus whose graph was approved when the CFO was resolved. -/
def approvedCandidate : Promotions where
  around :=
    { corpora := [(4, some 5)]
      approvals := [⟨9, 4, 1, .obj [("conflicts", .arr []), ("relationships", .arr []),
        ("principals", .arr [.obj [("name", .str "cfo"), ("resolved_principal_id", .str "21")]])]⟩] }
  candidates :=
    [{ id := 3
       uploadId := none
       corpusId := some 4
       content := .obj [("name", .str "Payments"), ("effect", .str "allow"),
         ("scope", .obj [("principal", .str "cfo"), ("action", .str "payment")])]
       status := .pendingReview
       promotedPolicyKey := none }]

theorem approvedCandidate_fresh {id : Uuid} (h : id = 11 ∨ id = 12) :
    approvedCandidate.Fresh keyPlatform id := by
  rcases h with rfl | rfl
  · exact ⟨by decide +kernel, by decide +kernel, by simp [approvedCandidate],
      by simp [approvedCandidate]⟩
  · exact ⟨by decide +kernel, by decide +kernel, by simp [approvedCandidate],
      by simp [approvedCandidate]⟩

theorem promoted_alike : SamePromotion
    (promotionSchema.perform 11 (promoteCandidate keyPlatform exactFloats 3 (some 5) none 0)
      (approvedCandidate.withGraph [⟨4, "cfo", some 21⟩] [21]))
    (promotionSchema.perform 12 (promoteCandidate keyPlatform exactFloats 3 (some 5) none 1)
      (approvedCandidate.withGraph [⟨4, "cfo", some 21⟩, ⟨4, "treasurer", some 22⟩] [21, 22])) :=
  (promotion_determined_iff (by decide) rfl rfl rfl (approvedCandidate_fresh (.inl rfl))
    (approvedCandidate_fresh (.inr rfl))).2 fun _ => ⟨fun _ => by decide +kernel,
      fun _ => by decide +kernel⟩

/-- A second discovery of the CFO, resolved to someone else, changes whose authority is cited. -/
theorem promoted_for_another_principal : ¬ SamePromotion
    (promotionSchema.perform 11 (promoteCandidate keyPlatform exactFloats 3 (some 5) none 0)
      (approvedCandidate.withGraph [⟨4, "cfo", some 21⟩] [21, 22]))
    (promotionSchema.perform 12 (promoteCandidate keyPlatform exactFloats 3 (some 5) none 1)
      (approvedCandidate.withGraph [⟨4, "cfo", some 22⟩, ⟨4, "cfo", some 21⟩] [21, 22])) := by
  intro h
  exact absurd h.cited_eq (by decide +kernel)

end PayReality
