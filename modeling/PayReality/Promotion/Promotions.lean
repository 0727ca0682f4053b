import PayReality.Lib.Reports
import PayReality.Promotion.PromoteCandidate

/-!
# A candidate is promoted once

A promotion creates the first version of a policy, records an event, and then marks the candidate. It
asks whether the candidate waits for review only before all of that, and each of the three has a
commit of its own. Where a version is created only for a candidate that still waits, while no other
call is between its commits for it, and where none of these calls is interrupted there, a candidate
has one policy at most, and is marked with its key.

* `progress`: where a call stands, from what it has sent.
* `PromotionSends`: when a promotion sends its commits; `promoteCandidate_sends`.
* `Undisturbed`: the condition on the steps of a run.

**Main result** `promoted_once`.
-/

namespace PayReality

open Program RecordProg AiPolicyBuilderService

variable {ι α β : Type}

abbrev PromotionAnswered : Type :=
  Answered (RecordStatement PromotionChange) (RecordStatement.Answer Promotions Uuid) PromotionError

/-! ## Where a call stands -/

structure PromotionProgress where
  /-- The candidate and the key of the version that it has created, until the candidate is marked. -/
  created : Option (Uuid × Uuid) := none
  /-- In between, a statement has failed, or has not found the version. Where it is the event that
  fails, the call goes on. -/
  interrupted : Bool := false
  deriving DecidableEq

def PromotionProgress.next (p : PromotionProgress) : PromotionAnswered → PromotionProgress
  | ⟨.commit (.createPolicy _ row), .ok _⟩ =>
    { p with created := some (row.candidateId, row.record.policyKey) }
  | ⟨.commit (.promote _ _), .ok _⟩ => { p with created := none }
  | ⟨.commit (.recordEvent _), _⟩ => p
  | ⟨.look, .ok d⟩ =>
    { p with interrupted := p.interrupted || p.created.any fun x => (d.record x.2).isNone }
  | ⟨_, .ok _⟩ => p
  | ⟨_, .error _⟩ => { p with interrupted := p.interrupted || p.created.isSome }

def progress (tr : List PromotionAnswered) : PromotionProgress :=
  tr.foldl PromotionProgress.next {}

variable {tr : List PromotionAnswered}

theorem progress_append (x : PromotionAnswered) : progress (tr ++ [x]) = (progress tr).next x := by
  simp [progress]

/-- A failure creates nothing and marks nothing. -/
theorem progress_error {q : RecordStatement PromotionChange} {e : PromotionError} :
    (progress (tr ++ [⟨q, .error e⟩])).created = (progress tr).created := by
  rw [progress_append]
  cases q with
  | commit w => cases w <;> rfl
  | _ => rfl

/-- The call has created nothing, or has marked the candidate. -/
def Idle (tr : List PromotionAnswered) : Prop := (progress tr).created = none

/-- So it is where a call ends, unless it was interrupted. -/
def Settled (tr : List PromotionAnswered) : Prop :=
  Idle tr ∨ (progress tr).interrupted = true

/-! ## When it sends its commits -/

/-- A version is created by a call that has created none, and a candidate is marked with the key of the
version that was created for it. -/
def PromotionSends : RecordStatement PromotionChange → List PromotionAnswered → Prop
  | .commit (.createPolicy _ _), tr => Idle tr
  | .commit (.promote candidateId policyKey), tr =>
    (progress tr).created = some (candidateId, policyKey)
  | .commitIf _, _ => False
  | _, _ => True

/-- A part of a call that only reads. -/
def Reading (p : PromotionProg α) : Prop :=
  ∀ tr, Idle tr → Sending PromotionSends p (fun _ => Idle) (fun _ => Idle) tr

theorem reading_pure (a : α) : Reading (pure a : PromotionProg α) := fun _ h => h

theorem reading_throw (e : PromotionError) : Reading (throw e : PromotionProg α) := fun _ h => h

theorem reading_bind {p : PromotionProg α} {f : α → PromotionProg β} (hp : Reading p)
    (hf : ∀ a, Reading (f a)) : Reading (p >>= f) :=
  fun tr h => sending_seq (hp tr h) fun a tr' h' => hf a tr' h'

theorem reading_look : Reading (look : PromotionProg Promotions) := by
  intro tr h
  refine sending_send trivial (fun d => ?_) (fun e => ?_)
  · show (progress (tr ++ [_])).created = none
    rw [progress_append]
    exact h
  · show (progress (tr ++ [_])).created = none
    rw [progress_error]
    exact h

theorem reading_draw : Reading (draw : PromotionProg Uuid) := by
  intro tr h
  refine sending_send trivial (fun x => ?_) (fun e => ?_)
  · show (progress (tr ++ [_])).created = none
    rw [progress_append]
    exact h
  · show (progress (tr ++ [_])).created = none
    rw [progress_error]
    exact h

variable (P : Platform)

theorem reading_lift (x : Except PromotionError α) : Reading (lift x : PromotionProg α) := by
  cases x with
  | ok a => exact reading_pure a
  | error e => exact reading_throw e

theorem reading_candidateOrganizationId (row : PolicyExtractionCandidate) :
    Reading (candidateOrganizationId row) := by
  unfold candidateOrganizationId
  split
  · exact reading_bind reading_look fun d => reading_pure _
  · exact reading_bind reading_look fun d => reading_pure _
  · exact reading_pure _

theorem reading_getCandidate (candidateId : Uuid) (organizationId : Option Uuid) :
    Reading (getCandidate candidateId organizationId) := by
  refine reading_bind reading_look fun d => ?_
  split
  · exact reading_throw _
  · refine reading_bind (reading_candidateOrganizationId _) fun o => ?_
    split
    · exact reading_throw _
    · exact reading_pure _

theorem reading_policyOrganizationId (row : PolicyExtractionCandidate)
    (organizationId : Option Uuid) : Reading (policyOrganizationId row organizationId) := by
  unfold policyOrganizationId
  split
  · exact reading_pure _
  · refine reading_bind reading_look fun d => ?_
    split
    · exact reading_pure _
    · split
      · exact reading_throw _
      · exact reading_pure _

theorem reading_graphApproval (row : PolicyExtractionCandidate) :
    Reading (graphApproval P row) := by
  unfold graphApproval
  split
  · exact reading_pure _
  · refine reading_bind reading_look fun d => ?_
    dsimp only
    split
    · exact reading_throw _
    · exact reading_pure _

theorem reading_findResolvedPrincipal (row : PolicyExtractionCandidate) :
    Reading (findResolvedPrincipalForCandidate P row) := by
  unfold findResolvedPrincipalForCandidate
  split
  · refine reading_bind reading_look fun d => ?_
    dsimp only
    split
    · exact reading_pure _
    · exact reading_bind reading_look fun d => reading_pure _
  · exact reading_pure _

theorem reading_createAuthority (F : FloatFormat) (row : PolicyExtractionCandidate)
    (principalId : Uuid) (reviewerId : Option String) :
    Reading (createAuthorityForCandidate F row principalId reviewerId) :=
  reading_bind (reading_lift _) fun _ => reading_bind reading_draw fun _ => reading_pure _

theorem reading_authorityForCandidate (F : FloatFormat) (row : PolicyExtractionCandidate)
    (reviewerId : Option String) : Reading (authorityForCandidate P F row reviewerId) := by
  refine reading_bind (reading_findResolvedPrincipal P row) fun principal => ?_
  split
  · exact reading_pure _
  · exact reading_bind (reading_createAuthority _ _ _ _) fun a => reading_pure _

theorem reading_isSandboxOrganization (organizationId : Option Uuid) :
    Reading (isSandboxOrganization organizationId) := by
  cases organizationId with
  | none => exact reading_pure _
  | some id => exact reading_bind reading_look fun d => reading_pure _

theorem reading_checkSandboxLimit (organizationId : Option Uuid) :
    Reading (checkSandboxLimit organizationId) := by
  refine reading_bind (reading_isSandboxOrganization organizationId) fun b => ?_
  split
  · exact reading_bind reading_look fun d => reading_lift _
  · exact reading_pure _

theorem reading_policyKeyOf (policy : RuntimePolicy) : Reading (policyKeyOf P policy) := by
  unfold policyKeyOf
  split
  · exact reading_pure _
  · exact reading_draw

/-! ## From the creation to the mark -/

/-- The call has created a version for the candidate, with this key. -/
def Creating (candidateId policyKey : Uuid) (tr : List PromotionAnswered) : Prop :=
  (progress tr).created = some (candidateId, policyKey)

variable {candidateId policyKey : Uuid}

/-- A failure interrupts a call that has created a version. -/
theorem settled_of_error {q : RecordStatement PromotionChange} {e : PromotionError}
    (h : Creating candidateId policyKey tr) (hq : ∀ event, q ≠ .commit (.recordEvent event)) :
    Settled (tr ++ [⟨q, .error e⟩]) := by
  right
  have hcreated : (progress tr).created.isSome = true := by rw [h]; rfl
  rw [progress_append]
  cases q with
  | commit w =>
    cases w with
    | recordEvent event => exact absurd rfl (hq event)
    | _ => simp [PromotionProgress.next, hcreated]
  | _ => simp [PromotionProgress.next, hcreated]

theorem refresh_sends (h : Creating candidateId policyKey tr) :
    Sending PromotionSends (refresh policyKey)
      (fun row tr => row.record.policyKey = policyKey ∧ Creating candidateId policyKey tr)
      (fun _ => Settled) tr := by
  refine sending_bind (sending_send trivial (fun d => ?_) fun e => settled_of_error h nofun)
  split
  · next hrow =>
    right
    show (progress (tr ++ [_])).interrupted = true
    rw [progress_append]
    show ((progress tr).interrupted || (progress tr).created.any _) = true
    rw [show (progress tr).created = _ from h, Option.any_some, hrow]
    exact Bool.or_true _
  · next row hrow =>
    have hkey := List.find?_some hrow
    refine ⟨of_decide_eq_true hkey, ?_⟩
    show (progress (tr ++ [_])).created = _
    rw [progress_append]
    exact h

theorem recordLifecycleEvent_sends (h : Creating candidateId policyKey tr) (event : LifecycleEvent) :
    Sending PromotionSends (recordLifecycleEvent event) (fun _ => Creating candidateId policyKey)
      (fun _ => Settled) tr := by
  have hnext : ∀ r, Creating candidateId policyKey (tr ++ [⟨.commit (.recordEvent event), r⟩]) := by
    intro r
    show (progress (tr ++ [_])).created = _
    rw [progress_append]
    cases r <;> exact h
  refine sending_tryCatch (sending_send trivial (fun _ => hnext _) fun e => ?_)
  refine sending_send trivial (fun _ => ?_) fun e' => settled_of_error (hnext _) nofun
  show (progress (_ ++ [_])).created = _
  rw [progress_append]
  exact hnext _

/-- A part that only reads, and what follows it. -/
theorem sending_read {p : PromotionProg α} {f : α → PromotionProg β}
    {R : β → List PromotionAnswered → Prop} (hp : Reading p) (h : Idle tr)
    (hf : ∀ a tr, Idle tr → Sending PromotionSends (f a) R (fun _ => Settled) tr) :
    Sending PromotionSends (p >>= f) R (fun _ => Settled) tr :=
  sending_seq (sending_mono (hp tr h) (fun _ _ h => h) fun _ _ h => .inl h) hf

theorem createPolicy_sends (candidateId : Uuid) (authority : Option CandidateAuthority)
    (policy : RuntimePolicy) (organizationId sourceGraphApprovalId : Option Uuid) (h : Idle tr) :
    Sending PromotionSends
      (createPolicy P candidateId authority policy organizationId sourceGraphApprovalId)
      (fun row => Creating candidateId row.record.policyKey) (fun _ => Settled) tr := by
  refine sending_read (reading_checkSandboxLimit organizationId) h fun _ tr h => ?_
  refine sending_read (reading_policyKeyOf P policy) h fun policyKey tr h => ?_
  refine sending_seq (S := fun _ => Creating candidateId policyKey)
    (sending_send h (fun _ => ?_) fun e => .inl ?_) fun _ tr hcreating => ?_
  · show (progress (tr ++ [_])).created = _
    rw [progress_append]
    rfl
  · show (progress (tr ++ [_])).created = _
    rw [progress_error]
    exact h
  refine sending_seq (refresh_sends hcreating) ?_
  rintro row tr ⟨hkey, hcreating⟩
  refine sending_seq (recordLifecycleEvent_sends hcreating _) fun _ tr hcreating => ?_
  show Creating candidateId row.record.policyKey tr
  rw [hkey]
  exact hcreating

theorem markPromoted_sends {row : CreatedRecord}
    (h : Creating candidateId row.record.policyKey tr) :
    Sending PromotionSends (markPromoted candidateId row) (fun _ => Settled) (fun _ => Settled) tr := by
  refine sending_seq (refresh_sends h) ?_
  rintro created tr ⟨hkey, hcreating⟩
  refine sending_seq (S := fun _ => Idle) (sending_send ?_ (fun _ => ?_) fun e => ?_) ?_
  · rw [hkey]
    exact hcreating
  · show (progress (tr ++ [_])).created = none
    rw [progress_append]
    rfl
  · exact settled_of_error hcreating nofun
  · intro _ tr hidle
    refine sending_seq (sending_mono (reading_look tr hidle) (fun _ _ h => h) fun _ _ h => .inl h) ?_
    intro d tr hidle
    split
    · exact .inl hidle
    · exact .inl hidle

theorem promoteCandidate_sends (F : FloatFormat) (candidateId : Uuid) (organizationId : Option Uuid)
    (promotedBy : Option String) (now : Timestamp) :
    Sending PromotionSends (promoteCandidate P F candidateId organizationId promotedBy now)
      (fun _ => Settled) (fun _ => Settled) [] := by
  refine sending_read (reading_getCandidate candidateId organizationId) rfl fun row tr h => ?_
  refine sending_read (reading_lift _) h fun _ tr h => ?_
  refine sending_read (reading_policyOrganizationId row organizationId) h fun o tr h => ?_
  refine sending_read (reading_graphApproval P row) h fun approval tr h => ?_
  refine sending_read (reading_authorityForCandidate P F row promotedBy) h fun authority tr h => ?_
  refine sending_read reading_draw h fun id tr h => ?_
  refine sending_read (reading_lift _) h fun policy tr h => ?_
  refine sending_seq (createPolicy_sends P row.id authority policy o _ h) fun created tr h => ?_
  exact sending_seq (markPromoted_sends h) fun _ tr h => h

/-! ## Runs -/

section

variable [DecidableEq ι]

abbrev PromotionStore (ι : Type) : Type :=
  Reported (RecordStatement PromotionChange) (RecordStatement.Answer Promotions Uuid) PromotionError
    (Records Promotions ι) ι Unit

/-- The version that a statement creates. -/
def creates? : RecordStatement PromotionChange → Option CreatedRecord
  | .commit (.createPolicy _ row) => some row
  | _ => none

/-- A version is created for a candidate that waits for review, while no other call is between its
commits for it; and no call is interrupted between its own. -/
def Undisturbed (i : ι) : (q : RecordStatement PromotionChange ⊕ Unit) → PromotionStore ι →
    Except PromotionError (ReportAnswer (RecordStatement.Answer Promotions Uuid) Unit q) → Prop
  | .inr _, _, _ => True
  | .inl q, s, r =>
    (∀ row ∈ creates? q,
      ((s.store.db.candidate row.candidateId).any fun c => c.status = .pendingReview) = true ∧
        ∀ j, j ≠ i → (progress (s.trace j)).created.all (fun x => x.1 ≠ row.candidateId) = true) ∧
    (progress (s.trace i ++ [⟨q, r⟩])).interrupted = false

instance [Fintype ι] (i : ι) (q : RecordStatement PromotionChange ⊕ Unit) (s : PromotionStore ι)
    (r : Except PromotionError (ReportAnswer (RecordStatement.Answer Promotions Uuid) Unit q)) :
    Decidable (Undisturbed i q s r) :=
  match q with
  | .inr _ => isTrue trivial
  | .inl _ => inferInstanceAs (Decidable (_ ∧ _))

/-- Promotions, whatever the format of a `float` is, and what the other services do. -/
def promotionRequests (P : Platform) :
    Set (Prog (RecordStatement PromotionChange ⊕ Unit)
      (ReportAnswer (RecordStatement.Answer Promotions Uuid) Unit) PromotionError Unit) :=
  { p | (∃ F candidateId organizationId promotedBy now,
      p = (promoteCandidate P F candidateId organizationId promotedBy now).reported fun _ => ()) ∨
    ∃ around, p = (commit (.elsewhere around) : PromotionProg Unit).reported fun _ => () }

abbrev PromotionWorld (ι : Type) : Type :=
  World (RecordStatement PromotionChange ⊕ Unit)
    (ReportAnswer (RecordStatement.Answer Promotions Uuid) Unit) PromotionError (PromotionStore ι) ι

/-- A run of promotions whose steps meet a condition, from tables without a policy. -/
def PromotionRun (P : Platform)
    (c : ι → (q : RecordStatement PromotionChange ⊕ Unit) → PromotionStore ι →
      Except PromotionError (ReportAnswer (RecordStatement.Answer Promotions Uuid) Unit q) → Prop)
    (w : PromotionWorld ι) : Prop :=
  Reach (((promotionSchema.machine Uuid ι).reporting Unit).restrict c) (promotionRequests P)
    (fun s => ∃ d : Promotions, d.admitted ∧ d.records = [] ∧ s = Reported.init (Records.init d)) w

/-! ## The invariant -/

/-- The candidate of the version is marked as promoted, with the key of the version. -/
def Promotions.Marked (d : Promotions) (r : CreatedRecord) : Prop :=
  ∃ c, d.candidate r.candidateId = some c ∧ c.status = .promoted ∧
    c.promotedPolicyKey = some r.record.policyKey

/-- A version is marked, or its call is on the way to it. -/
structure Consistent (s : PromotionStore ι) : Prop where
  admitted : s.store.db.admitted
  once : (s.store.db.records.map fun r => r.candidateId).Nodup
  known : ∀ r ∈ s.store.db.records, (s.store.db.candidate r.candidateId).isSome = true
  marked : ∀ r ∈ s.store.db.records, s.store.db.Marked r ∨
    ∃ i, Creating r.candidateId r.record.policyKey (s.trace i)
  created : ∀ i candidateId policyKey, Creating candidateId policyKey (s.trace i) →
    ∃ r ∈ s.store.db.records, r.candidateId = candidateId ∧ r.record.policyKey = policyKey
  whole : ∀ i, (progress (s.trace i)).interrupted = false

variable {s : PromotionStore ι} {i : ι} {q : RecordStatement PromotionChange}
  {r : Except PromotionError (q.Answer Promotions Uuid)} {t : Records Promotions ι}

theorem progress_sent_of_ne {j : ι} (hj : j ≠ i) :
    progress ((s.sent i q r t).trace j) = progress (s.trace j) := by
  rw [Reported.sent_trace_of_ne hj]

theorem whole_sent (h : Consistent s)
    (hc : (progress (s.trace i ++ [⟨q, r⟩])).interrupted = false) (j : ι) :
    (progress ((s.sent i q r t).trace j)).interrupted = false := by
  by_cases hj : j = i
  · subst hj
    rw [Reported.sent_trace_self]
    exact hc
  · rw [progress_sent_of_ne hj]
    exact h.whole j

/-- A statement that creates nothing and marks nothing. -/
theorem Consistent.same (h : Consistent s) (hadmits : t.db.admitted)
    (hrecords : t.db.records = s.store.db.records)
    (hcandidates : t.db.candidates = s.store.db.candidates)
    (hcreated : (progress (s.trace i ++ [⟨q, r⟩])).created = (progress (s.trace i)).created)
    (hc : (progress (s.trace i ++ [⟨q, r⟩])).interrupted = false) :
    Consistent (s.sent i q r t) := by
  have hsame : ∀ j, (progress ((s.sent i q r t).trace j)).created =
      (progress (s.trace j)).created := by
    intro j
    by_cases hj : j = i
    · subst hj
      rw [Reported.sent_trace_self]
      exact hcreated
    · rw [progress_sent_of_ne hj]
  have hcandidate : t.db.candidate = s.store.db.candidate := by
    funext id
    simp only [Promotions.candidate, hcandidates]
  constructor
  · exact hadmits
  · simp only [Reported.sent_store, hrecords]
    exact h.once
  · simp only [Reported.sent_store, hrecords, hcandidate]
    exact h.known
  · simp only [Reported.sent_store, hrecords, Promotions.Marked, hcandidate, Creating, hsame]
    exact h.marked
  · simp only [Reported.sent_store, hrecords, Creating, hsame]
    exact h.created
  · exact whole_sent h hc

/-! ### The steps -/

/-- A version for a candidate that waits, while no other call is between its commits for it. -/
theorem Consistent.createPolicy (h : Consistent s) {authority : Option CandidateAuthority}
    {row : CreatedRecord} {u : Unit}
    (ht : t.db = PromotionChange.apply (.createPolicy authority row) s.store.db)
    (hadmits : t.db.admitted) (hidle : Idle (s.trace i))
    (hc : Undisturbed i (.inl (.commit (.createPolicy authority row))) s (.ok u)) :
    Consistent (s.sent i (.commit (.createPolicy authority row)) (.ok u) t) := by
  obtain ⟨hcreates, hwhole⟩ := hc
  obtain ⟨hpending, hothers⟩ := hcreates row rfl
  obtain ⟨c, hcandidate, hstatus⟩ := (Option.any_eq_true _ _).1 hpending
  have hrecords : t.db.records = s.store.db.records ++ [row] := by
    rw [ht]
    rfl
  have hsame : t.db.candidate = s.store.db.candidate := by
    rw [ht]
    rfl
  have hself : Creating row.candidateId row.record.policyKey
      ((s.sent i (.commit (.createPolicy authority row)) (.ok u) t).trace i) := by
    rw [Reported.sent_trace_self]
    show (progress (_ ++ [_])).created = _
    rw [progress_append]
    rfl
  have hfresh : ∀ r ∈ s.store.db.records, r.candidateId ≠ row.candidateId := by
    intro r hr heq
    rcases h.marked r hr with ⟨c', hc', hpromoted, -⟩ | ⟨j, hj⟩
    · rw [heq, hcandidate] at hc'
      cases hc'
      rw [hpromoted] at hstatus
      cases of_decide_eq_true hstatus
    · by_cases hji : j = i
      · subst hji
        rw [Creating, show (progress (s.trace j)).created = none from hidle] at hj
        cases hj
      · have hne := hothers j hji
        rw [show (progress (s.trace j)).created = _ from hj, Option.all_some] at hne
        exact of_decide_eq_true hne heq
  have hkept : ∀ j candidateId policyKey, Creating candidateId policyKey (s.trace j) → j ≠ i := by
    intro j candidateId policyKey hj hji
    subst hji
    rw [Creating, show (progress (s.trace j)).created = none from hidle] at hj
    cases hj
  constructor
  · exact hadmits
  · simp only [Reported.sent_store, hrecords, List.map_append, List.map_singleton]
    refine List.nodup_append.2 ⟨h.once, List.nodup_singleton _, fun a ha b hb => ?_⟩
    obtain ⟨r, hr, rfl⟩ := List.mem_map.1 ha
    rw [List.mem_singleton.1 hb]
    exact hfresh r hr
  · intro r hr
    simp only [Reported.sent_store, hrecords, hsame] at hr ⊢
    rcases List.mem_append.1 hr with hr | hr
    · exact h.known r hr
    · rw [List.mem_singleton.1 hr, hcandidate]
      rfl
  · intro r hr
    simp only [Reported.sent_store, hrecords, Promotions.Marked, hsame] at hr ⊢
    rcases List.mem_append.1 hr with hr | hr
    · rcases h.marked r hr with hmarked | ⟨j, hj⟩
      · exact .inl hmarked
      · refine .inr ⟨j, ?_⟩
        rw [Creating, progress_sent_of_ne (hkept j _ _ hj)]
        exact hj
    · rw [List.mem_singleton.1 hr]
      exact .inr ⟨i, hself⟩
  · intro j candidateId policyKey hj
    simp only [Reported.sent_store, hrecords]
    by_cases hji : j = i
    · subst hji
      rw [Creating, show (progress _).created = _ from hself] at hj
      cases hj
      exact ⟨row, by simp, rfl, rfl⟩
    · rw [Creating, progress_sent_of_ne hji] at hj
      obtain ⟨r, hr, hrow⟩ := h.created j _ _ hj
      exact ⟨r, by simp [hr], hrow⟩
  · exact whole_sent h hwhole

/-- The candidate of the version that the call has created is marked. -/
theorem Consistent.promote (h : Consistent s) {candidateId policyKey : Uuid} {u : Unit}
    (ht : t.db = PromotionChange.apply (.promote candidateId policyKey) s.store.db)
    (hadmits : t.db.admitted) (hcreating : Creating candidateId policyKey (s.trace i))
    (hc : (progress (s.trace i ++ [⟨.commit (.promote candidateId policyKey), .ok u⟩])).interrupted =
      false) :
    Consistent (s.sent i (.commit (.promote candidateId policyKey)) (.ok u) t) := by
  have hrecords : t.db.records = s.store.db.records := by
    rw [ht]
    rfl
  have hself : t.db.candidate candidateId = (s.store.db.candidate candidateId).map fun c =>
      { c with status := .promoted, promotedPolicyKey := some policyKey } := by
    rw [ht]
    exact Rows.get_update_self fun _ => rfl
  have hother : ∀ id, id ≠ candidateId → t.db.candidate id = s.store.db.candidate id := by
    intro id hid
    rw [ht]
    exact Rows.get_update_of_ne (fun _ => rfl) hid
  have hdone : Idle ((s.sent i (.commit (.promote candidateId policyKey)) (.ok u) t).trace i) := by
    rw [Reported.sent_trace_self]
    show (progress (_ ++ [_])).created = _
    rw [progress_append]
    rfl
  obtain ⟨r₀, hr₀, hcandidate₀, hkey₀⟩ := h.created i _ _ hcreating
  constructor
  · exact hadmits
  · simp only [Reported.sent_store, hrecords]
    exact h.once
  · intro r hr
    simp only [Reported.sent_store, hrecords] at hr ⊢
    by_cases hr' : r.candidateId = candidateId
    · rw [hr', hself, Option.isSome_map, ← hr']
      exact h.known r hr
    · rw [hother _ hr']
      exact h.known r hr
  · intro r hr
    simp only [Reported.sent_store, hrecords, Promotions.Marked] at hr ⊢
    by_cases hr' : r.candidateId = candidateId
    · have heq : r = r₀ := List.inj_on_of_nodup_map h.once hr hr₀ (hr'.trans hcandidate₀.symm)
      obtain ⟨c, hc'⟩ := Option.isSome_iff_exists.1 (h.known r hr)
      rw [hr'] at hc'
      refine .inl ⟨{ c with status := .promoted, promotedPolicyKey := some policyKey }, ?_, rfl, ?_⟩
      · rw [hr', hself, hc', Option.map_some]
      · show some policyKey = some r.record.policyKey
        rw [heq, hkey₀]
    · rcases h.marked r hr with hmarked | ⟨j, hj⟩
      · rw [hother _ hr']
        exact .inl hmarked
      · refine .inr ⟨j, ?_⟩
        have hji : j ≠ i := by
          intro hji
          subst hji
          rw [Creating, show (progress (s.trace j)).created = _ from hcreating] at hj
          cases hj
          exact hr' rfl
        rw [Creating, progress_sent_of_ne hji]
        exact hj
  · intro j id key hj
    simp only [Reported.sent_store, hrecords]
    by_cases hji : j = i
    · subst hji
      rw [Creating, show (progress _).created = none from hdone] at hj
      cases hj
    · rw [Creating, progress_sent_of_ne hji] at hj
      exact h.created j _ _ hj
  · exact whole_sent h hc

/-- **One statement keeps the invariant.** -/
theorem Consistent.step (h : Consistent s) (hsends : PromotionSends q (s.trace i))
    (hstep : promotionSchema.step i q s.store r t) (hc : Undisturbed i (.inl q) s r) :
    Consistent (s.sent i q r t) := by
  have hadmits : t.db.admitted :=
    of_decide_eq_true (Schema.admits_of_step hstep (decide_eq_true h.admitted))
  cases r with
  | error e =>
    have ht : t.db = s.store.db := Schema.db_of_error hstep
    exact h.same hadmits (by rw [ht]) (by rw [ht]) progress_error hc.2
  | ok a =>
    cases q with
    | look =>
      have ht : t.db = s.store.db := Schema.db_of_no_change rfl hstep
      refine h.same hadmits (by rw [ht]) (by rw [ht]) ?_ hc.2
      rw [progress_append]
      rfl
    | draw =>
      have ht : t.db = s.store.db := Schema.db_of_no_change rfl hstep
      refine h.same hadmits (by rw [ht]) (by rw [ht]) ?_ hc.2
      rw [progress_append]
      rfl
    | rollback =>
      have ht : t.db = s.store.db := Schema.db_of_no_change rfl hstep
      refine h.same hadmits (by rw [ht]) (by rw [ht]) ?_ hc.2
      rw [progress_append]
      rfl
    | commitIf w => exact hsends.elim
    | commit w =>
      have ht : t.db = w.apply s.store.db := Schema.db_of_commit hstep
      cases w with
      | createPolicy authority row => exact h.createPolicy ht hadmits hsends hc
      | promote candidateId policyKey => exact h.promote ht hadmits hsends hc.2
      | recordEvent event =>
        refine h.same hadmits (by rw [ht]; rfl) (by rw [ht]; rfl) ?_ hc.2
        rw [progress_append]
        rfl
      | elsewhere around =>
        refine h.same hadmits (by rw [ht]; rfl) (by rw [ht]; rfl) ?_ hc.2
        rw [progress_append]
        rfl

/-- A call that ends has marked what it has created. -/
theorem Consistent.report (h : Consistent s) (hsettled : Settled (s.trace i)) :
    Consistent (s.report i ()) := by
  have hidle : Idle (s.trace i) := by
    refine hsettled.resolve_right fun hinterrupted => ?_
    rw [h.whole i] at hinterrupted
    cases hinterrupted
  have hsame : ∀ j, (progress ((s.report i ()).trace j)).created =
      (progress (s.trace j)).created := by
    intro j
    by_cases hj : j = i
    · subst hj
      rw [Reported.report_trace_self]
      exact hidle.symm
    · rw [Reported.report_trace_of_ne hj]
  refine ⟨h.admitted, h.once, h.known, ?_, ?_, fun j => ?_⟩
  · simp only [Reported.report_store, Creating, hsame]
    exact h.marked
  · simp only [Reported.report_store, Creating, hsame]
    exact h.created
  · by_cases hj : j = i
    · subst hj
      rw [Reported.report_trace_self]
      rfl
    · rw [Reported.report_trace_of_ne hj]
      exact h.whole j

/-! ## Main result -/

variable {w : PromotionWorld ι}

theorem consistent_of_run (h : PromotionRun P Undisturbed w) : Consistent w.store := by
  refine Reach.sending (P := PromotionSends) (R := fun _ => Settled) ?_ ?_
    (fun i q s r t hsends hstep hc h => h.step hsends hstep hc)
    (fun i x s hsettled h => h.report hsettled) h
  · rintro p (⟨F, candidateId, organizationId, promotedBy, now, rfl⟩ | ⟨around, rfl⟩)
    · exact ⟨_, _, _, rfl, promoteCandidate_sends P F candidateId organizationId promotedBy now⟩
    · refine ⟨_, _, _, rfl, sending_send trivial (fun _ => .inl rfl) fun e => .inl rfl⟩
  · rintro s ⟨d, hadmitted, hrecords, rfl⟩
    refine ⟨fun i => rfl, hadmitted, ?_, ?_, ?_, ?_, fun i => rfl⟩
    · show (d.records.map _).Nodup
      rw [hrecords]
      exact .nil
    · intro r hr
      have hr' : r ∈ d.records := hr
      rw [hrecords] at hr'
      cases hr'
    · intro r hr
      have hr' : r ∈ d.records := hr
      rw [hrecords] at hr'
      cases hr'
    · intro i candidateId policyKey hcreating
      cases hcreating

/-- **A candidate is promoted once.** It has one policy at most, and where no call is between its
commits for it, the candidate is marked with the key of the policy. -/
theorem promoted_once (h : PromotionRun P Undisturbed w) :
    (∀ r ∈ w.store.store.db.records, ∀ r' ∈ w.store.store.db.records,
      r.candidateId = r'.candidateId → r.record.policyKey = r'.record.policyKey) ∧
    ∀ r ∈ w.store.store.db.records,
      (∀ i, ¬ Creating r.candidateId r.record.policyKey (w.store.trace i)) →
      w.store.store.db.Marked r := by
  have hconsistent := consistent_of_run P h
  refine ⟨fun r hr r' hr' heq => ?_, fun r hr hover => ?_⟩
  · rw [List.inj_on_of_nodup_map hconsistent.once hr hr' heq]
  · exact (hconsistent.marked r hr).resolve_right fun ⟨i, hi⟩ => hover i hi

end

/-! ### Two reviewers -/

/-- A candidate of an upload waits for review. -/
def waitingCandidate : Promotions where
  around := { uploads := [(2, some 5)] }
  candidates :=
    [{ id := 3
       uploadId := some 2
       corpusId := none
       content := .obj [("name", .str "Payments"), ("effect", .str "allow"),
         ("scope", .obj [("principal", .str "Finance"), ("action", .str "payment")])]
       status := .pendingReview
       promotedPolicyKey := none }]

/-- A platform where the keys that are made here are read from their texts. -/
def keyPlatform : Platform :=
  ⟨fun s => [11, 12].find? fun key => toString key = s, toString, toString, toString, id,
    fun name pattern => name = pattern⟩

/-- Runs without a failure; the processes make different keys. -/
def promotionSchedule : Schedule ((promotionSchema.machine Uuid Bool).reporting Unit) :=
  (promotionSchema.scheduleBy fun i => if i then 11 else 12).reporting Unit

/-- Turns of two processes that promote the candidate. -/
def promotionTurns (ts : List (Bool × Bool × ℕ)) :
    List (Turn (RecordStatement PromotionChange ⊕ Unit)
      (ReportAnswer (RecordStatement.Answer Promotions Uuid) Unit) PromotionError Bool) :=
  ts.map fun t => ⟨t.1, if t.2.1 then
    some ((promoteCandidate keyPlatform exactFloats 3 (some 5) none 0).reported fun _ => ()) else none, t.2.2⟩

/-- The second one promotes the candidate when the first one is done, and is refused. -/
def promotedInTurn : PromotionWorld Bool :=
  (promotionSchedule.restrict fun i q s r => decide (Undisturbed i q s r)).play
    (promotionTurns [(true, true, 20), (false, true, 20)])
    ⟨Reported.init (Records.init waitingCandidate), fun _ => none⟩

theorem promotionTurns_starts {ts : List (Bool × Bool × ℕ)} :
    ∀ t ∈ promotionTurns ts, ∀ p ∈ t.starts, p ∈ promotionRequests keyPlatform := by
  intro t ht p hp
  obtain ⟨e, -, rfl⟩ := List.mem_map.1 ht
  dsimp only at hp
  split at hp
  · cases hp
    exact .inl ⟨exactFloats, 3, some 5, none, 0, rfl⟩
  · cases hp

theorem promotionRun_play (ts : List (Bool × Bool × ℕ))
    {b : Bool → (q : RecordStatement PromotionChange ⊕ Unit) → PromotionStore Bool →
      Except PromotionError (ReportAnswer (RecordStatement.Answer Promotions Uuid) Unit q) → Bool}
    {c : Bool → (q : RecordStatement PromotionChange ⊕ Unit) → PromotionStore Bool →
      Except PromotionError (ReportAnswer (RecordStatement.Answer Promotions Uuid) Unit q) → Prop}
    (hb : ∀ i q s r, b i q s r = true → c i q s r) :
    PromotionRun keyPlatform c ((promotionSchedule.restrict b).play (promotionTurns ts)
      ⟨Reported.init (Records.init waitingCandidate), fun _ => none⟩) := by
  refine Reach.imp ?_ (Schedule.play_reach (S := promotionSchedule.restrict b) (.init ?_)
    promotionTurns_starts)
  · exact fun i q s r t hstep => ⟨hstep.1, hb i q s r hstep.2⟩
  · exact ⟨waitingCandidate, by decide, rfl, rfl⟩

theorem promoted_once_in_turn :
    (∀ r ∈ promotedInTurn.store.store.db.records, ∀ r' ∈ promotedInTurn.store.store.db.records,
      r.candidateId = r'.candidateId → r.record.policyKey = r'.record.policyKey) ∧
    ∀ r ∈ promotedInTurn.store.store.db.records, promotedInTurn.store.store.db.Marked r := by
  have hrun : PromotionRun keyPlatform Undisturbed promotedInTurn :=
    promotionRun_play _ fun i q s r h => of_decide_eq_true h
  have hover : ∀ i, (progress (promotedInTurn.store.trace i)).created = none := by decide +kernel
  refine ⟨(promoted_once keyPlatform hrun).1, fun r hr => ?_⟩
  refine (promoted_once keyPlatform hrun).2 r hr fun i hi => ?_
  rw [Creating, hover i] at hi
  cases hi

/-- The second one promotes the candidate when the first one has read it. -/
def promotedAtOnce : PromotionWorld Bool :=
  (promotionSchedule.restrict fun _ _ _ _ => true).play
    (promotionTurns [(true, true, 2), (false, true, 20), (true, false, 20)])
    ⟨Reported.init (Records.init waitingCandidate), fun _ => none⟩

/-- One candidate has two policies. -/
theorem candidate_promoted_twice : ∃ w : PromotionWorld Bool,
    PromotionRun keyPlatform (fun _ _ _ _ => True) w ∧
    ∃ r ∈ w.store.store.db.records, ∃ r' ∈ w.store.store.db.records,
      r.candidateId = r'.candidateId ∧ r.record.policyKey ≠ r'.record.policyKey := by
  refine ⟨promotedAtOnce, promotionRun_play _ fun _ _ _ _ _ => trivial, ?_⟩
  have htwice : (promotedAtOnce.store.store.db.records.any fun r =>
      promotedAtOnce.store.store.db.records.any fun r' =>
        r.candidateId = r'.candidateId ∧ r.record.policyKey ≠ r'.record.policyKey) = true := by
    decide +kernel
  simpa only [List.any_eq_true, decide_eq_true_eq] using htwice

end PayReality
