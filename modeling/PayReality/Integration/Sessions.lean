import PayReality.Integration.Recording

/-!
# A submission in its session

What the parts of a submission do to the rows of their session: most of them look things up
(`Inspects`), then the intent, the decision and the evidence are flushed, and the three are committed.

An exception leaves nothing committed, unless it is the one that reading a row again raises after
the commit (`NothingSaved`).
-/

namespace PayReality

open Program LedgerService IntentService IntegrationRuntimeService

/-- A statement of a submission and its answer. -/
abbrev Told : Type := Answered LedgerStatement LedgerStatement.Answer PyError

/-- An exception that is not about an earlier submission. -/
structure Plain (e : PyError) : Prop where
  conflict : e ≠ .externalOperationConflict
  replay : e ≠ .replayDetected
  adapterReplay : e ≠ .adapterReplayDetected

/-- The trace shows a commit. -/
def Saved (tr : List Told) : Prop := ⟨.commit, .ok ()⟩ ∈ tr

/-- A row could not be read again. -/
def Unread (e : PyError) (tr : List Told) : Prop := e = .databaseError ∧ ⟨.refresh, .error e⟩ ∈ tr

/-- The operation that raised `e` has committed nothing, or `e` is what reading a row again raised. -/
def NothingSaved (e : PyError) (tr : List Told) : Prop := ¬ Saved tr ∨ Unread e tr

/-! ## Exceptions -/

/-- The computation raises nothing about an earlier submission. -/
def RaisesPlain {α : Type} (x : Except PyError α) : Prop := ∀ e, x = .error e → Plain e

namespace RaisesPlain

variable {α β : Type}

theorem ok (a : α) : RaisesPlain (.ok a : Except PyError α) := fun _ h => by cases h

theorem error {e : PyError} (he : Plain e) : RaisesPlain (.error e : Except PyError α) :=
  fun _ h => Except.error.inj h ▸ he

theorem bind {x : Except PyError α} {f : α → Except PyError β} (hx : RaisesPlain x)
    (hf : ∀ a, RaisesPlain (f a)) : RaisesPlain (x >>= f) := by
  cases x with
  | ok a => exact hf a
  | error e => exact error (hx e rfl)

theorem rejection {reason : String} {keys : List String} :
    RaisesPlain (IntegrationRuntimeService.rejection reason keys : Except PyError α) :=
  error ⟨by simp, by simp, by simp⟩

theorem checkCaller (identity : IntegrationIdentity) (req : AttestedRequest) :
    RaisesPlain (IntegrationRuntimeService.checkCaller identity req) := by
  unfold IntegrationRuntimeService.checkCaller
  split
  · exact rejection
  · split
    · exact rejection
    · exact ok _

theorem checkStructuralField {name : String} {path : Option String} {value : Option α} :
    RaisesPlain (IntegrationRuntimeService.checkStructuralField name path value) := by
  unfold IntegrationRuntimeService.checkStructuralField
  split <;> first | exact rejection | exact ok _

theorem checkContextKeys (bound supplied : List String) :
    RaisesPlain (IntegrationRuntimeService.checkContextKeys bound supplied) := by
  unfold IntegrationRuntimeService.checkContextKeys
  dsimp only
  split
  · exact rejection
  · split
    · exact rejection
    · split
      · exact rejection
      · exact ok _

theorem checkContract (c : IntegrationContractVersion) (req : AttestedRequest) :
    RaisesPlain (IntegrationRuntimeService.checkContract c req) := by
  unfold IntegrationRuntimeService.checkContract
  dsimp only
  split
  · exact bind rejection fun _ => by
      split <;> first | exact bind rejection fun _ => fields c req | exact fields c req
  · split
    · exact bind rejection fun _ => fields c req
    · exact fields c req
where
  fields (c : IntegrationContractVersion) (req : AttestedRequest) : RaisesPlain (do
      IntegrationRuntimeService.checkStructuralField "resource" c.resourcePath req.resource
      IntegrationRuntimeService.checkStructuralField "amount" c.amountPath req.amount
      IntegrationRuntimeService.checkStructuralField "currency" c.currencyPath req.currency
      IntegrationRuntimeService.checkStructuralField "fact_subject" c.factSubjectPath
        req.counterparty
      IntegrationRuntimeService.checkContextKeys (c.contextBindings.map Prod.fst)
        (req.context.map Prod.fst)) :=
    bind checkStructuralField fun _ => bind checkStructuralField fun _ =>
      bind checkStructuralField fun _ => bind checkStructuralField fun _ => checkContextKeys _ _

theorem normalizeAmount (a : Option ℚ) : RaisesPlain (OperationIdentity.normalizeAmount a) := by
  unfold OperationIdentity.normalizeAmount
  split
  · exact ok _
  · split
    · exact error ⟨by simp, by simp, by simp⟩
    · exact ok _

theorem canonicalAction (identity : IntegrationIdentity) (req : AttestedRequest) (a : Attested) :
    RaisesPlain (IntegrationRuntimeService.canonicalAction identity req a) := by
  have hfield : ∀ field, RaisesPlain (.error (.missingCanonicalActionField field) :
      Except PyError CanonicalAction) := fun _ => error ⟨by simp, by simp, by simp⟩
  unfold IntegrationRuntimeService.canonicalAction CanonicalAction.build
  dsimp only
  split
  · exact hfield _
  · split
    · exact hfield _
    · split
      · exact hfield _
      · split
        · exact hfield _
        · exact ok _

theorem dictGet (v : Json) (k : String) : RaisesPlain (v.dictGet k) := by
  unfold Json.dictGet
  split
  · exact ok _
  · exact error ⟨by simp, by simp, by simp⟩

theorem query (reply : OpaReply) : RaisesPlain reply.query := by
  unfold OpaReply.query
  split
  · exact error ⟨by simp, by simp, by simp⟩
  · exact error ⟨by simp, by simp, by simp⟩
  · split
    · exact error ⟨by simp, by simp, by simp⟩
    · split
      · exact error ⟨by simp, by simp, by simp⟩
      · refine bind (dictGet _ _) fun result => ?_
        split <;> exact ok _

theorem decide (active : ActivePolicy) (result : Json) :
    RaisesPlain (Engine.decide active result) := by
  unfold Engine.decide
  refine bind (dictGet _ _) fun evaluated => ?_
  dsimp only
  split
  · exact ok _
  · split
    · exact ok _
    · split <;> exact ok _

theorem evaluate {intent context : Json} {principal : String}
    {active : Except PyError ActivePolicy} {opa : Json → OpaReply} {agentId : Option String}
    {knowledge : List (String × Json)} (hactive : RaisesPlain active) :
    RaisesPlain (Engine.evaluate intent context principal active opa agentId knowledge) := by
  unfold Engine.evaluate
  split
  · exact ok _
  · exact error (hactive _ rfl)
  · split
    · exact ok _
    · exact ok _
    · next h => exact error (query _ _ h)
    · exact decide _ _

theorem getActive (db : Db) (organizationId : Option Uuid) :
    RaisesPlain (IntentService.getActive db organizationId) := by
  unfold IntentService.getActive
  split
  · exact ok _
  · exact error ⟨by simp, by simp, by simp⟩

theorem policyKeysOf (v : Json) : RaisesPlain (IntentService.policyKeysOf v) := by
  have hkey : ∀ v, RaisesPlain (keyText v) := by
    intro v
    unfold keyText
    split
    · exact ok _
    · exact error ⟨by simp, by simp, by simp⟩
    · exact error ⟨by simp, by simp, by simp⟩
  unfold IntentService.policyKeysOf
  split
  · next xs =>
    induction xs with
    | nil => exact ok _
    | cons x xs ih =>
      rw [List.mapM_cons]
      exact bind (hkey x) fun _ => bind ih fun _ => ok _
  · exact ok _
  · exact ok _
  · exact error ⟨by simp, by simp, by simp⟩

end RaisesPlain

/-! ## Looking things up -/

/-- The program writes nothing, and raises nothing about an earlier submission. -/
structure Inspects {α : Type} (p : LedgerService α) : Prop where
  sends : ∀ ok, Sends (fun q => q.still = true) ok p fun _ => True
  raises : Raises Plain p

namespace Inspects

variable {α β : Type} {H : OperationHost}

theorem pure (a : α) : Inspects (Pure.pure a : LedgerService α) := ⟨fun _ => trivial, trivial⟩

theorem raise {e : PyError} (he : Plain e) : Inspects (throw e : LedgerService α) :=
  ⟨fun _ => trivial, he⟩

theorem send {q : LedgerStatement} (hq : q.still = true) : Inspects (Prog.send (ε := PyError) q) :=
  ⟨fun _ => sends_send hq fun _ _ => trivial, raises_send⟩

theorem lift {x : Except PyError α} (hx : RaisesPlain x) : Inspects (LedgerService.lift x) := by
  cases x with
  | ok a => exact pure a
  | error e => exact raise (hx e rfl)

theorem bind {p : LedgerService α} {f : α → LedgerService β} (hp : Inspects p)
    (hf : ∀ a, Inspects (f a)) : Inspects (p >>= f) :=
  ⟨fun ok => sends_bind (sends_mono (hp.sends ok) fun a _ => (hf a).sends ok),
    raises_bind hp.raises fun a => (hf a).raises⟩

theorem read {f : Snapshot → LedgerService β} (hf : ∀ v, Inspects (f v)) :
    Inspects (LedgerService.read >>= f) := bind (send rfl) hf

theorem lockChainScope (o : Option Uuid) : Inspects (LedgerService.lockChainScope o) := by
  cases o with
  | none => exact pure ()
  | some o => exact send rfl

theorem evidencePayload (a : EvidenceArgs) (previousHash : Option String) :
    Inspects (LedgerService.evidencePayload H.toEvidenceHost a previousHash) := by
  refine bind ?_ fun ids => bind ?_ fun system => read fun v => bind (send rfl) fun _ => pure _
  · unfold LedgerService.resolveAuthorityIds
    split
    · exact pure _
    · exact read fun _ => pure _
  · unfold getEnterpriseSystem
    split
    · exact read fun _ => pure _
    · exact pure _

theorem resolveTruth (agent : Agent) (amount : Option ℚ) :
    Inspects (LedgerService.resolveTruth H agent amount) :=
  read fun _ => bind (send rfl) fun _ => pure _

theorem resolveFacts (o : Option Uuid) (subject : Option String) :
    Inspects (LedgerService.resolveFacts o subject) := by
  refine read fun v => ?_
  split
  · exact pure _
  · exact pure _
  · exact read fun _ => bind (send rfl) fun _ => pure _

theorem evaluate (intent : Intent) (agent : Agent) (truth : RuntimeTruth)
    (facts : List EnterpriseFact) : Inspects (LedgerService.evaluate H intent agent truth facts) := by
  refine read fun v => ?_
  dsimp only
  split
  · exact bind (send rfl) fun _ => lift (RaisesPlain.evaluate (RaisesPlain.getActive _ _))
  · exact bind (pure _) fun _ => lift (RaisesPlain.evaluate (RaisesPlain.getActive _ _))

theorem finalOutcome (d : EngineDecision) (keys : List String) :
    Inspects (LedgerService.finalOutcome H d keys) := by
  unfold LedgerService.finalOutcome
  split
  · exact read fun _ => bind (send rfl) fun _ => pure _
  · exact pure _

theorem ensureActive (o : Option Uuid) {error : OrganizationStatus → PyError}
    (herror : ∀ status, Plain (error status)) : Inspects (LedgerService.ensureActive o error) := by
  unfold LedgerService.ensureActive
  split
  · exact pure _
  · refine read fun v => ?_
    split
    · exact pure _
    · split
      · exact pure _
      · exact raise (herror _)

theorem rejection {reason : String} :
    Inspects (LedgerService.lift (IntegrationRuntimeService.rejection reason) : LedgerService α) :=
  lift RaisesPlain.rejection

theorem resolveActiveBinding (bindingId organizationId identityId : Uuid) :
    Inspects (IntegrationRuntimeService.resolveActiveBinding bindingId organizationId identityId) := by
  refine read fun v => ?_
  split
  · exact rejection
  · split
    · exact rejection
    · split
      · exact rejection
      · exact pure _

theorem resolveOriginAgent (agentId organizationId bindingId : Uuid) :
    Inspects (IntegrationRuntimeService.resolveOriginAgent agentId organizationId bindingId) := by
  refine read fun v => ?_
  split
  · exact rejection
  · refine read fun v => ?_
    split
    · exact rejection
    · split
      · exact rejection
      · refine read fun v => ?_
        split
        · exact pure _
        · exact rejection

theorem resolveContractVersion (id organizationId : Uuid) :
    Inspects (IntegrationRuntimeService.resolveContractVersion id organizationId) := by
  refine read fun v => ?_
  split
  · exact rejection
  · exact pure _

theorem attest (identity : IntegrationIdentity) (req : AttestedRequest) :
    Inspects (IntegrationRuntimeService.attest H identity req) := by
  refine bind (lift (RaisesPlain.checkCaller _ _)) fun _ => ?_
  refine bind (ensureActive _ fun _ => ⟨by simp, by simp, by simp⟩) fun _ => ?_
  refine bind (resolveActiveBinding _ _ _) fun binding => ?_
  refine bind (resolveOriginAgent _ _ _) fun agent => ?_
  refine bind (resolveContractVersion _ _) fun c => ?_
  refine bind (lift (RaisesPlain.checkContract _ _)) fun _ => ?_
  refine bind (lift (RaisesPlain.bind (RaisesPlain.normalizeAmount _) fun _ => .ok _)) fun _ => ?_
  exact pure _

end Inspects

/-! ## What a part does -/

/-- What is sent to the platform. -/
inductive Request where
  | attested (identity : IntegrationIdentity) (req : AttestedRequest)
  | direct (agent : Agent) (req : IntentRequest)

def Request.submit (H : OperationHost) : Request → LedgerService Submitted
  | .attested identity req => submitAttestedIntent H identity req
  | .direct agent req => LedgerService.submitIntent H agent req

/-- What a request was answered. -/
structure Response where
  request : Request
  result : Except PyError Submitted

/-- The ledger, with traces and responses. What the environment does has no response. -/
abbrev Session (ι : Type) : Type :=
  Reported LedgerStatement LedgerStatement.Answer PyError (Ledger ι) ι (Option Response)

section Parts

variable {ι : Type}

/-- What was committed is committed, and what was sent is in the trace. -/
structure Session.After (i : ι) (s t : Session ι) : Prop where
  within : s.store.committed.Within t.store.committed
  trace : s.trace i ⊆ t.trace i

/-- No commit since. -/
structure Session.Unsaved (i : ι) (s t : Session ι) : Prop extends Session.After i s t where
  saved : Saved (t.trace i) → Saved (s.trace i)

/-- An exception, which leaves nothing committed unless a row could not be read again. -/
structure Session.Fails (i : ι) (s : Session ι) (e : PyError) (t : Session ι) : Prop
    extends Session.After i s t where
  plain : Plain e
  saved : (Saved (t.trace i) → Saved (s.trace i)) ∨ Unread e (t.trace i)

namespace Session

variable {i : ι} {s t u : Session ι} {e : PyError}

theorem After.trans (h : After i s t) (h' : After i t u) : After i s u :=
  ⟨h.within.trans h'.within, List.Subset.trans h.trace h'.trace⟩

theorem Unsaved.trans (h : Unsaved i s t) (h' : Unsaved i t u) : Unsaved i s u :=
  ⟨h.toAfter.trans h'.toAfter, fun hu => h.saved (h'.saved hu)⟩

theorem Unsaved.fails (h : Unsaved i s t) (h' : Fails i t e u) : Fails i s e u :=
  ⟨h.toAfter.trans h'.toAfter, h'.plain, h'.saved.imp (fun hu hs => h.saved (hu hs)) id⟩

theorem Unsaved.of_rely (h : SubmitRely i s.store t.store) (ht : t.trace i = s.trace i) :
    Unsaved i s t :=
  ⟨⟨h.within, ht ▸ List.Subset.refl _⟩, fun hs => ht ▸ hs⟩

end Session

variable [DecidableEq ι] {H : OperationHost}
  {c : ι → (q : LedgerStatement) → Ledger ι → Except PyError q.Answer → Prop} {i : ι}
  {s : Session ι} {α β : Type}

open Session

/-- The sessions' contract, with traces. -/
abbrev sessionLogic (H : OperationHost)
    (c : ι → (q : LedgerStatement) → Ledger ι → Except PyError q.Answer → Prop) :=
  (submitLogic H.toEvidenceHost c).tracing (Option Response)

variable (H c i) in
/-- A part of a submission ahead of the commit. -/
def Runs (p : LedgerService α) (R : α → Session ι → Prop) (s : Session ι) : Prop :=
  wp (sessionLogic H c) i p (fun a t => R a t ∧ Unsaved i s t) (Fails i s) s

variable (H c i) in
/-- A part with the commit. -/
def Ends (p : LedgerService α) (R : α → Session ι → Prop) (s : Session ι) : Prop :=
  wp (sessionLogic H c) i p (fun a t => R a t ∧ After i s t) (Fails i s) s

theorem Runs.ret {a : α} {R : α → Session ι → Prop} (h : R a s) : Runs H c i (pure a) R s :=
  ⟨h, ⟨.refl _, List.Subset.refl _⟩, id⟩

theorem Runs.bind {p : LedgerService α} {f : α → LedgerService β} {R : α → Session ι → Prop}
    {R' : β → Session ι → Prop} (hp : Runs H c i p R s)
    (hf : ∀ a t, R a t → Unsaved i s t → Runs H c i (f a) R' t) : Runs H c i (p >>= f) R' s := by
  refine wp_bind (wp_mono hp (fun a t ht => ?_) fun _ _ h => h)
  refine wp_mono (hf a t ht.1 ht.2) (fun b u hu => ?_) fun e u hu => ht.2.fails hu
  exact ⟨hu.1, ht.2.trans hu.2⟩

theorem Runs.ends {p : LedgerService α} {f : α → LedgerService β} {R : α → Session ι → Prop}
    {R' : β → Session ι → Prop} (hp : Runs H c i p R s)
    (hf : ∀ a t, R a t → Unsaved i s t → Ends H c i (f a) R' t) : Ends H c i (p >>= f) R' s := by
  refine wp_bind (wp_mono hp (fun a t ht => ?_) fun _ _ h => h)
  refine wp_mono (hf a t ht.1 ht.2) (fun b u hu => ?_) fun e u hu => ht.2.fails hu
  exact ⟨hu.1, ht.2.toAfter.trans hu.2⟩

theorem Runs.mono {p : LedgerService α} {R R' : α → Session ι → Prop} (hp : Runs H c i p R s)
    (hR : ∀ a t, R a t → Unsaved i s t → R' a t) : Runs H c i p R' s :=
  wp_mono hp (fun a t ht => ⟨hR a t ht.1 ht.2, ht.2⟩) fun _ _ h => h

theorem Ends.mono {p : LedgerService α} {R R' : α → Session ι → Prop} (hp : Ends H c i p R s)
    (hR : ∀ a t, R a t → After i s t → R' a t) : Ends H c i p R' s :=
  wp_mono hp (fun a t ht => ⟨hR a t ht.1 ht.2, ht.2⟩) fun _ _ h => h

/-! ### Statements -/

theorem Ledger.step_fault {s t : Ledger ι} {q : LedgerStatement} {e : PyError}
    (h : Ledger.step H.toEvidenceHost i q s (.error e) t) :
    e = .databaseError ∨ e = .integrityError := by
  have hflush : ∀ rows, s.Flushes i rows (.error e) t → e = .databaseError ∨ e = .integrityError := by
    rintro rows (⟨-, h⟩ | ⟨h, -⟩)
    · split at h
      · exact .inr (Except.error.inj h.1)
      · cases h.1
    · exact .inl (Except.error.inj h)
  cases q with
  | begin | refresh | read | commit =>
    rcases h with ⟨h, -⟩ | ⟨h, -⟩
    · cases h
    · exact .inl (Except.error.inj h)
  | now | uuid4 | queryOpa =>
    obtain ⟨_, h, -⟩ := h
    cases h
  | sign | rollback =>
    cases h.1
  | lockOrganization =>
    rcases h with ⟨-, h, -⟩ | ⟨h, -⟩
    · cases h
    · exact .inl (Except.error.inj h)
  | flushIntent | flushDecision | flushEvidence => exact hflush _ h
  | elsewhere | tick => cases h.2.1

theorem Ledger.step_plain {s t : Ledger ι} {q : LedgerStatement} {e : PyError}
    (h : Ledger.step H.toEvidenceHost i q s (.error e) t) : Plain e := by
  rcases Ledger.step_fault h with rfl | rfl <;> exact ⟨by simp, by simp, by simp⟩

theorem Ledger.step_still {s t : Ledger ι} {q : LedgerStatement} {r : Except PyError q.Answer}
    (hq : q.still = true) (h : Ledger.step H.toEvidenceHost i q s r t) :
    t.committed = s.committed ∧ t.pending = s.pending := by
  cases Ledger.rowStep h with
  | still hc hp => exact ⟨hc, hp⟩
  | flushed _ hq' => rw [hq] at hq'; cases hq'
  | committed hq' | rolledBack hq' => rw [hq'] at hq; cases hq

/-- One statement, sent in a store that the others have left. -/
theorem wp_statement {q : LedgerStatement} {R : q.Answer → Session ι → Prop}
    {E : PyError → Session ι → Prop}
    (h : ∀ t : Session ι, SubmitRely i s.store t.store → t.trace i = s.trace i →
      SubmitInv t.store → SubmitPre i q t.store ∧ ∀ r u,
        Ledger.step H.toEvidenceHost i q t.store r u → c i q t.store r →
          (∀ a, r = .ok a → R a (t.sent i q r u)) ∧ ∀ e, r = .error e → E e (t.sent i q r u)) :
    wp (sessionLogic H c) i (Prog.send q) R E s := by
  refine wp_send fun t hst ht => ?_
  obtain ⟨hpre, hstep⟩ := h t hst.1 hst.2 ht
  refine ⟨hpre, ?_⟩
  rintro r _ ⟨u, ⟨hu, hc⟩, rfl⟩
  exact hstep r u hu hc

/-- What has been sent is a step on. -/
theorem Session.after_sent {t : Session ι} {q : LedgerStatement} {r : Except PyError q.Answer}
    {u : Ledger ι} (hst : SubmitRely i s.store t.store) (ht : t.trace i = s.trace i)
    (hu : Ledger.step H.toEvidenceHost i q t.store r u) : After i s (t.sent i q r u) := by
  refine ⟨hst.within.trans (Ledger.step_within hu), ?_⟩
  rw [Reported.sent_trace_self, ht]
  exact List.subset_append_left _ _

theorem Session.unsaved_sent {t : Session ι} {q : LedgerStatement} {r : Except PyError q.Answer}
    {u : Ledger ι} (hst : SubmitRely i s.store t.store) (ht : t.trace i = s.trace i)
    (hu : Ledger.step H.toEvidenceHost i q t.store r u)
    (hq : (⟨q, r⟩ : Told) ≠ ⟨.commit, .ok ()⟩) : Unsaved i s (t.sent i q r u) := by
  refine ⟨after_sent hst ht hu, fun hs => ?_⟩
  unfold Saved at hs
  rw [Reported.sent_trace_self, ht, List.mem_append, List.mem_singleton] at hs
  exact hs.resolve_right (Ne.symm hq)

theorem Session.fails_sent {t : Session ι} {q : LedgerStatement} {e : PyError}
    {u : Ledger ι} (hst : SubmitRely i s.store t.store) (ht : t.trace i = s.trace i)
    (hu : Ledger.step H.toEvidenceHost i q t.store (.error e) u) :
    Fails i s e (t.sent i q (.error e) u) := by
  have h := unsaved_sent hst ht hu (fun h => by cases h)
  exact ⟨h.toAfter, Ledger.step_plain hu, .inl h.saved⟩

/-- What only looks things up leaves what the session has flushed. -/
theorem Runs.sends {p : LedgerService α} {R : List Told → α → Prop}
    (hp : ∀ tr, s.trace i ⊆ tr → Sends (fun q => q.still = true) (fun q r => ⟨q, r⟩ ∈ tr) p (R tr))
    (hF : Raises Plain p) :
    Runs H c i p (fun a t => R (t.trace i) a ∧ t.store.pending i = s.store.pending i) s := by
  have hmine : ∀ x : Told, x.1.still = true → x ≠ ⟨.commit, .ok ()⟩ := by
    rintro x hx rfl
    cases hx
  have h := wp_sends (L := submitLogic H.toEvidenceHost c) (ρ := Option Response) (s := s)
    (I := fun u => u.pending i = s.store.pending i ∧ s.store.committed.Within u.committed)
    hp hF ⟨rfl, .refl _⟩
    (fun hst hI => ⟨hst.pending.trans hI.1, hI.2.trans hst.within⟩)
    (fun hq hstep hI => by
      obtain ⟨hc, hp⟩ := Ledger.step_still hq hstep.1
      rw [hc, hp]
      exact hI)
    (fun _ hstep => Ledger.step_plain hstep.1)
    (fun hq _ _ hcommit => by rw [hcommit] at hq; cases hq)
  have hunsaved : ∀ t : Session ι, s.store.committed.Within t.store.committed →
      s.trace i ⊆ t.trace i → (∀ x ∈ t.trace i, x ∈ s.trace i ∨ x.1.still = true) →
      Unsaved i s t := fun t hw hsub hnew =>
    ⟨⟨hw, hsub⟩, fun hs => (hnew _ hs).resolve_right fun hq => hmine _ hq rfl⟩
  refine wp_mono h ?_ ?_
  · rintro a t ⟨hR, ⟨hpending, hw⟩, hsub, hnew⟩
    exact ⟨⟨hR, hpending⟩, hunsaved t hw hsub hnew⟩
  · rintro e t ⟨hF, ⟨-, hw⟩, hsub, hnew⟩
    have := hunsaved t hw hsub hnew
    exact ⟨this.toAfter, hF, .inl this.saved⟩

theorem Runs.inspects {p : LedgerService α} (hp : Inspects p) :
    Runs H c i p (fun _ t => t.store.pending i = s.store.pending i) s :=
  (Runs.sends (R := fun _ _ => True) (fun _ _ => hp.sends _) hp.raises).mono fun _ _ h _ => h.2

theorem Runs.send {q : LedgerStatement} {R : q.Answer → Session ι → Prop} (hq : q ≠ .commit)
    (h : ∀ (t : Session ι) a u, SubmitRely i s.store t.store → SubmitInv t.store →
      Ledger.step H.toEvidenceHost i q t.store (.ok a) u → R a (t.sent i q (.ok a) u)) :
    Runs H c i (Prog.send q) R s := by
  refine wp_statement fun t hst ht hinv => ⟨fun hcommit => absurd hcommit hq, fun r u hu _ => ?_⟩
  refine ⟨fun a ha => ?_, fun e he => ?_⟩
  · subst ha
    exact ⟨h t a u hst hinv hu, unsaved_sent hst ht hu fun heq => hq (congrArg Sigma.fst heq)⟩
  · subst he
    exact fails_sent hst ht hu

/-- A query shows what is committed and what the session has flushed. -/
theorem runs_read :
    Runs H c i read (fun v t => v.toRows = t.store.committed.append (t.store.pending i) ∧
      t.store.pending i = s.store.pending i ∧ SubmitInv t.store) s := by
  refine Runs.send (by simp) fun t v u hst hinv hu => ?_
  rcases hu with ⟨hv, rfl⟩ | ⟨hv, -⟩
  · obtain rfl := Except.ok.inj hv
    exact ⟨rfl, hst.pending, hinv.congr rfl rfl⟩
  · cases hv

end Parts

end PayReality
