import PayReality.Integration.Replies

/-!
# Requests that are answered

The two entry points, `submit_intent` and `submit_attested_intent`, statement by statement, under
the contract of their sessions.

**Main result** `reach_replies`: in every run of requests, whatever else goes on, the committed rows
are those of submissions, and every response is a `Reply`.
-/

namespace PayReality

open Program Session LedgerService IntentService IntegrationRuntimeService

section Writes

variable {ι : Type} [DecidableEq ι] {H : OperationHost}
  {c : ι → (q : LedgerStatement) → Ledger ι → Except PyError q.Answer → Prop} {i : ι}
  {s : Session ι}

/-! ## Flushes and commits -/

theorem Ledger.Flushes.cases {s t : Ledger ι} {rows : Rows} {r : Except PyError Unit}
    (h : s.Flushes i rows r t) :
    r = .ok () ∧ t = s.addPending i rows ∨
      r = .error .integrityError ∧ t = s ∧ (s.snapshot i).refuses rows = true ∨
      r = .error .databaseError ∧ t = s := by
  rcases h with ⟨-, h⟩ | h
  · split at h
    · next hr => exact .inr (.inl ⟨h.1, h.2, hr⟩)
    · exact .inl h
  · exact .inr (.inr h)

/-- A flush that goes through adds its rows. -/
theorem Ledger.Flushes.pending {s t : Ledger ι} {rows : Rows} {a : Unit}
    (h : s.Flushes i rows (.ok a) t) : t.pending i = (s.pending i).append rows := by
  rcases h.cases with ⟨-, rfl⟩ | ⟨h, -⟩ | ⟨h, -⟩
  · rw [Ledger.addPending_pending, if_pos rfl]
  · cases h
  · cases h

theorem runs_flushDecision (row : Decision) :
    Runs H c i (flushDecision row)
      (fun _ t => t.store.pending i = (s.store.pending i).append { decisions := [row] }) s := by
  refine Runs.send (by simp) fun t a u hst _ hu => ?_
  show u.pending i = _
  rw [Ledger.Flushes.pending hu, hst.pending]

theorem runs_flushEvidence (row : EvidenceRow) :
    Runs H c i (flushEvidence row) (fun _ t => ∃ e : EvidenceRow, e.id = row.id ∧
      e.decisionId = row.decisionId ∧
      t.store.pending i = (s.store.pending i).append { evidence := [e] }) s := by
  refine Runs.send (by simp) fun t a u hst _ hu => ⟨t.store.stamp i row, rfl, rfl, ?_⟩
  show u.pending i = _
  rw [Ledger.Flushes.pending hu, hst.pending]

theorem runs_appendRow {o : Option Uuid} {decisionId : Uuid} {status : EvidenceStatus}
    {payload : Option String → LedgerService Json} (hp : ∀ hash, Inspects (payload hash)) :
    Runs H c i (appendRow H.toEvidenceHost o decisionId status payload)
      (fun ev t => ∃ e : EvidenceRow, e.id = ev.id ∧ e.decisionId = decisionId ∧
        t.store.pending i = (s.store.pending i).append { evidence := [e] }) s := by
  refine (Runs.inspects (Inspects.lockChainScope o)).bind fun _ s₁ h₁ _ => ?_
  refine (Runs.inspects (Inspects.send rfl)).bind fun v s₂ h₂ _ => ?_
  refine (Runs.inspects (Inspects.send rfl)).bind fun v' s₃ h₃ _ => ?_
  refine (Runs.inspects (hp _)).bind fun p s₄ h₄ _ => ?_
  refine (Runs.inspects (Inspects.send rfl)).bind fun e s₅ h₅ _ => ?_
  refine (Runs.inspects (Inspects.send rfl)).bind fun id s₆ h₆ _ => ?_
  refine (runs_flushEvidence _).bind fun _ s₇ h₇ _ => ?_
  obtain ⟨e', hid, hdecision, hpending⟩ := h₇
  have heq : s₆.store.pending i = s.store.pending i :=
    h₆.trans (h₅.trans (h₄.trans (h₃.trans (h₂.trans h₁))))
  exact Runs.ret ⟨e', hid, hdecision, by rw [hpending, heq]⟩

theorem runs_appendEvidence (a : EvidenceArgs) :
    Runs H c i (appendEvidence H.toEvidenceHost a)
      (fun ev t => ∃ e : EvidenceRow, e.id = ev.id ∧ e.decisionId = a.decisionId ∧
        t.store.pending i = (s.store.pending i).append { evidence := [e] }) s := by
  refine (Runs.inspects (Inspects.send rfl)).bind fun v t h _ => ?_
  refine (runs_appendRow fun hash => Inspects.evidencePayload a hash).mono fun ev u hu _ => ?_
  obtain ⟨e, hid, hdecision, hpending⟩ := hu
  exact ⟨e, hid, hdecision, by rw [hpending, h]⟩

/-- The commit of a submission. -/
theorem ends_submitted {o : Submission} (hs : s.store.pending i = o.rows) :
    Ends H c i commit (fun _ t => o.rows.Within t.store.committed) s := by
  refine wp_statement fun t hst ht hinv => ?_
  refine ⟨fun _ => .inr ⟨o, hst.pending.trans hs⟩, fun r u hu _ => ⟨fun a ha => ?_, fun e he => ?_⟩⟩
  · subst ha
    refine ⟨?_, after_sent hst ht hu⟩
    rcases hu with ⟨-, rfl⟩ | ⟨h, -⟩
    · show o.rows.Within (t.store.committed.append (t.store.pending i))
      rw [hst.pending, hs]
      exact Rows.within_append_right _ _
    · cases h
  · subst he
    exact fails_sent hst ht hu

/-- Reading a row again, after the commit. -/
theorem wp_refreshed {α : Type} {p : LedgerService α} {R : α → Session ι → Prop} {s₀ : Session ι}
    (h : ∀ t, After i s t → wp (sessionLogic H c) i p R (Fails i s₀) t) (hs : After i s₀ s) :
    wp (sessionLogic H c) i (refresh >>= fun _ => p) R (Fails i s₀) s := by
  refine wp_bind (wp_statement fun t hst ht _ => ⟨nofun, fun r u hu _ => ⟨fun a _ => ?_, ?_⟩⟩)
  · exact h _ (after_sent hst ht hu)
  · rintro e rfl
    have he : e = .databaseError := by
      rcases hu with ⟨h, -⟩ | ⟨h, -⟩
      · cases h
      · exact Except.error.inj h
    refine ⟨hs.trans (after_sent hst ht hu), Ledger.step_plain hu, .inr ⟨he, ?_⟩⟩
    rw [Reported.sent_trace_self]
    exact List.mem_append_right _ (List.mem_singleton_self _)

/-- The commit of a submission, and the rows that are read again. -/
theorem ends_record {α : Type} {o : Submission} {x : α} (hs : s.store.pending i = o.rows) :
    Ends H c i (do commit; refresh; refresh; return x)
      (fun y t => y = x ∧ o.rows.Within t.store.committed) s := by
  refine wp_bind (wp_mono (ends_submitted hs) (fun _ t ht => ?_) fun _ _ h => h)
  refine wp_refreshed (fun u hu => wp_refreshed (fun v hv => ?_) (ht.2.trans hu)) ht.2
  have huv := hu.trans hv
  exact ⟨⟨rfl, ht.1.trans huv.within⟩, ht.2.trans huv⟩

/-! ## The tail of a submission -/

/-- What the tail of a submission returns and commits, for the row of its intent. -/
def Tail (row : IntentRow) (x : Decision × EvidenceRow) (t : Session ι) : Prop :=
  ∀ y : Submitted, y.intent = row → y.decision = x.1 → y.evidence = some x.2 →
    Decided t.store.committed y

/-- A decision, its evidence, and the commit. -/
theorem ends_decide {row : IntentRow} {d : Decision} {args : EvidenceArgs}
    (hs : s.store.pending i = { intents := [row] }) (hd : d.intentId = row.id)
    (hargs : args.decisionId = d.id) :
    Ends H c i (do
      flushDecision d
      let evidence ← appendEvidence H.toEvidenceHost args
      commit
      refresh
      refresh
      return (d, evidence)) (Tail row) s := by
  refine (runs_flushDecision d).ends fun _ t ht _ => ?_
  refine (runs_appendEvidence args).ends fun ev u hu _ => ?_
  obtain ⟨e, hid, hdecision, hpending⟩ := hu
  let o : Submission := ⟨row, d, e, hd, hdecision.trans hargs⟩
  have hrows : u.store.pending i = o.rows := by
    rw [hpending, ht, hs]
    rfl
  refine (ends_record hrows).mono ?_
  rintro _ v ⟨rfl, hwithin⟩ _ y hintent hdecided hevidence
  refine ⟨?_, ?_, ?_, e, hwithin.evidence (by simp [o, Submission.rows]), ?_, ?_⟩
  · exact hintent ▸ hwithin.intents (by simp [o, Submission.rows])
  · exact hdecided ▸ hwithin.decisions (by simp [o, Submission.rows])
  · rw [hdecided, hintent, hd]
  · rw [hevidence, Option.map_some, hid]
  · rw [hdecided]
    exact o.records

theorem ends_evaluateAndRecord {intent : Intent} {row : IntentRow} (agent : Agent)
    (provenance : Option IntegrationProvenance) (hs : s.store.pending i = { intents := [row] })
    (hrow : row.id = intent.id) :
    Ends H c i (evaluateAndRecord H intent agent provenance) (Tail row) s := by
  refine (Runs.inspects (Inspects.resolveTruth _ _)).ends fun truth s₁ h₁ _ => ?_
  refine (Runs.inspects (Inspects.resolveFacts _ _)).ends fun facts s₂ h₂ _ => ?_
  refine (Runs.inspects (Inspects.evaluate _ _ _ _)).ends fun d s₃ h₃ _ => ?_
  refine (Runs.inspects (Inspects.lift (RaisesPlain.policyKeysOf _))).ends fun keys s₄ h₄ _ => ?_
  refine (Runs.inspects (Inspects.send rfl)).ends fun v s₅ h₅ _ => ?_
  refine (Runs.inspects (Inspects.send rfl)).ends fun v' s₆ h₆ _ => ?_
  refine (Runs.inspects (Inspects.finalOutcome _ _)).ends fun result s₇ h₇ _ => ?_
  refine (Runs.inspects (Inspects.send rfl)).ends fun id s₈ h₈ _ => ?_
  refine (Runs.inspects (Inspects.send rfl)).ends fun createdAt s₉ h₉ _ => ?_
  refine ends_decide ?_ hrow.symm rfl
  rw [h₉, h₈, h₇, h₆, h₅, h₄, h₃, h₂, h₁, hs]

theorem ends_recordUnevaluated {intent : Intent} {row : IntentRow} (agent : Agent) (reason : String)
    (hs : s.store.pending i = { intents := [row] }) (hrow : row.id = intent.id) :
    Ends H c i (recordUnevaluated H intent agent reason) (Tail row) s := by
  refine (Runs.inspects (Inspects.send rfl)).ends fun id t ht _ => ?_
  refine (Runs.inspects (Inspects.send rfl)).ends fun createdAt u hu _ => ?_
  refine ends_decide ?_ hrow.symm rfl
  rw [hu, ht, hs]

/-! ## The intent -/

/-- An intent is flushed, or it is refused and the session has nothing. -/
theorem runs_tryFlushIntent {row : IntentRow} (hs : s.store.pending i = {}) :
    Runs H c i (tryFlushIntent row) (fun ok t =>
      ok = true ∧ t.store.pending i = { intents := [row] } ∨
      ok = false ∧ t.store.pending i = {} ∧ ∃ other, Refused c row other t.store) s := by
  refine wp_tryCatch (wp_bind (wp_statement fun t hst ht hinv => ⟨nofun, fun r u hu hc =>
    ⟨fun a ha => ?_, fun e he => ?_⟩⟩))
  · subst ha
    refine ⟨.inl ⟨rfl, ?_⟩, unsaved_sent hst ht hu fun h => by cases h⟩
    show u.pending i = _
    rw [Ledger.Flushes.pending hu, hst.pending, hs, Rows.empty_append]
  · subst he
    have hfails := fails_sent hst ht hu
    rcases Ledger.Flushes.cases hu with ⟨h, -⟩ | ⟨h, rfl, hrefuses⟩ | ⟨h, rfl⟩
    · cases h
    · obtain rfl := Except.error.inj h
      have hunsaved := unsaved_sent hst ht hu fun h => by cases h
      rw [if_pos rfl]
      refine wp_bind (wp_statement fun v hst' ht' _ => ⟨nofun, fun r w hw _ => ⟨fun a ha => ?_, ?_⟩⟩)
      · subst ha
        refine ⟨.inr ⟨rfl, ?_, ?_⟩, hunsaved.trans (unsaved_sent hst' ht' hw fun h => by cases h)⟩
        · show w.pending i = {}
          rw [hw.2, Ledger.close_pending, if_pos rfl]
        · have hmem : ∃ other ∈ t.store.committed.intents, other.collides row = true := by
            simpa [Ledger.snapshot, Rows.append, Rows.refuses, hst.pending, hs] using hrefuses
          obtain ⟨other, hother, hcollides⟩ := hmem
          refine ⟨other, i, t.store, hother, hcollides, hst.pending.trans hs, ?_, hc⟩
          exact hst'.within.trans (Ledger.step_within hw)
      · rintro e rfl
        cases hw.1
    · obtain rfl := Except.error.inj h
      rw [if_neg (by simp)]
      exact hfails

/-! ## Earlier operations -/

theorem firstRow_mem {order : EvidenceRow → EvidenceRow → Bool} {rows : List EvidenceRow}
    {e : EvidenceRow} (h : firstRow order rows = some e) : e ∈ rows := by
  have := List.mem_of_mem_head? (Option.mem_def.2 h)
  exact (List.mem_insertionSort _).1 this

/-- The result of an operation that is recorded. -/
theorem runs_loadOperationResult {existing : IntentRow} (hs : s.store.pending i = {})
    (hmem : existing ∈ s.store.committed.intents) :
    Runs H c i (loadOperationResult existing)
      (fun x t => x.intent = existing ∧ Decided t.store.committed x) s := by
  refine runs_read.bind fun v t ht hst => ?_
  obtain ⟨hrows, hpending, hinv⟩ := ht
  rw [hpending, hs, Rows.append_empty] at hrows
  obtain ⟨os, hos⟩ := hinv.complete
  have hexisting : existing ∈ (Submission.all os).intents := hos ▸ hst.within.intents hmem
  split
  · next hnone =>
    obtain ⟨o, ho, rfl⟩ := List.mem_map.1 hexisting
    have hd : o.decision ∈ v.decisions := by
      rw [hrows, hos]
      exact List.mem_map_of_mem ho
    have := List.find?_eq_none.1 hnone _ hd
    exact absurd o.decides (by simpa using this)
  · next d hd =>
    have hdecides : d.intentId = existing.id := by simpa using List.find?_some hd
    have hdmem : d ∈ t.store.committed.decisions := hrows ▸ List.mem_of_find?_eq_some hd
    refine runs_read.bind fun v' u hu htu => Runs.ret ⟨rfl, ?_⟩
    obtain ⟨hrows', hpending', hinv'⟩ := hu
    rw [hpending', hpending, hs, Rows.append_empty] at hrows'
    obtain ⟨os', hos'⟩ := hinv'.complete
    have hdmem' := htu.within.decisions hdmem
    obtain ⟨o, ho, hod⟩ := List.mem_map.1 (hos' ▸ hdmem' : d ∈ (Submission.all os').decisions)
    have hrecorded : o.evidence ∈ v'.evidence.filter fun e => e.decisionId = d.id := by
      rw [hrows', hos', List.mem_filter]
      exact ⟨List.mem_map_of_mem ho, by simp [o.records, hod]⟩
    obtain ⟨e, he⟩ : ∃ e, earliestEvidence v'.evidence d.id = some e := by
      rw [← Option.isSome_iff_exists, Option.isSome_iff_ne_none]
      intro hnone
      rw [firstRow_eq_none.1 hnone] at hrecorded
      cases hrecorded
    obtain ⟨hemem, hedecision⟩ := List.mem_filter.1 (firstRow_mem he)
    refine ⟨?_, hdmem', hdecides, e, hrows' ▸ hemem, by rw [he, Option.map_some], by simpa using hedecision⟩
    exact htu.within.intents (hst.within.intents hmem)

/-! ## Requests -/

variable (H c i) in
/-- The program ends in a reply to the request. -/
def Replies (r : Request) (p : LedgerService Submitted) (s : Session ι) : Prop :=
  wp (sessionLogic H c) i p (fun x t => Reply H c (t.trace i) t.store r (.ok x))
    (fun e t => Reply H c (t.trace i) t.store r (.error e)) s

variable {r : Request}

omit [DecidableEq ι] in
theorem Session.Fails.nothingSaved {e : PyError} {t : Session ι} (h : Fails i s e t)
    (hs : ¬ Saved (s.trace i)) : NothingSaved e (t.trace i) :=
  h.saved.imp (fun hsaved ht => hs (hsaved ht)) id

theorem Runs.replies {α : Type} {p : LedgerService α} {f : α → LedgerService Submitted}
    {R : α → Session ι → Prop} (hp : Runs H c i p R s) (hs : ¬ Saved (s.trace i))
    (hf : ∀ a t, R a t → Unsaved i s t → ¬ Saved (t.trace i) → Replies H c i r (f a) t) :
    Replies H c i r (p >>= f) s := by
  refine wp_bind (wp_mono hp (fun a t ht => ?_) fun e t ht => ?_)
  · exact hf a t ht.1 ht.2 fun hsaved => hs (ht.2.saved hsaved)
  · exact Reply.plain r ht.plain (ht.nothingSaved hs)

theorem Ends.replies {α : Type} {p : LedgerService α} {f : α → LedgerService Submitted}
    {R : α → Session ι → Prop} (hp : Ends H c i p R s) (hs : ¬ Saved (s.trace i))
    (hf : ∀ a t, R a t → After i s t → Replies H c i r (f a) t) :
    Replies H c i r (p >>= f) s := by
  refine wp_bind (wp_mono hp (fun a t ht => hf a t ht.1 ht.2) fun e t ht => ?_)
  exact Reply.plain r ht.plain (ht.nothingSaved hs)

/-! ### Adapters -/

variable {identity : IntegrationIdentity} {req : AttestedRequest} {a : Attested}

theorem runs_attest : Runs H c i (attest H identity req)
    (fun a t => Attests H identity req (t.trace i) a ∧ t.store.pending i = s.store.pending i) s := by
  refine Runs.sends (fun tr _ => ?_) (Inspects.attest identity req).raises
  have hP : Queries (fun _ => True) fun q => q.still = true :=
    fun q hq _ => LedgerStatement.still_of_quiet hq
  exact sends_mono (sends_attest hP identity req) fun a ha => ⟨ha.1, ha.2⟩

/-- A request for an operation that is recorded. -/
theorem replies_existing {existing : IntentRow} (ha : Attests H identity req (s.trace i) a)
    (hpending : s.store.pending i = {}) (hs : ¬ Saved (s.trace i))
    (hmem : existing ∈ s.store.committed.intents)
    (hscope : existing.operationScope = some (Attested.scope a req)) :
    Replies H c i (.attested identity req) (resolveExistingOrConflict existing a.fingerprint) s := by
  unfold resolveExistingOrConflict
  split
  · next hfingerprint =>
    refine wp_mono (runs_loadOperationResult hpending hmem) (fun x t ht => ?_) fun e t ht => ?_
    · obtain ⟨⟨hintent, hdecided⟩, hst⟩ := ht
      refine ⟨a, ha.mono hst.trace, hdecided, ?_, ?_, fun hsaved => absurd (hst.saved hsaved) hs⟩
      · rw [hintent, hscope]
      · rw [hintent]
        exact hfingerprint
    · exact Reply.plain _ ht.plain (ht.nothingSaved hs)
  · next hfingerprint =>
    exact ⟨.inl hs, fun _ => ⟨a, existing, ha, hmem, hscope, hfingerprint⟩, nofun⟩

/-- What the lookup of an operation finds. -/
theorem findExistingOperation_mem {v : Snapshot} {rows : Rows} {scope : Uuid × String × String}
    {existing : IntentRow} (hv : v.toRows = rows)
    (h : findExistingOperation v scope = some existing) :
    existing ∈ rows.intents ∧ existing.operationScope = some scope :=
  ⟨hv ▸ List.mem_of_find?_eq_some h, by simpa using List.find?_some h⟩

theorem replies_newOperation (ha : Attests H identity req (s.trace i) a)
    (hpending : s.store.pending i = {}) (hs : ¬ Saved (s.trace i)) :
    Replies H c i (.attested identity req) (submitNewOperation H identity req a) s := by
  refine (Runs.inspects (Inspects.lift (RaisesPlain.canonicalAction _ _ _))).replies hs
    fun canonical s₁ h₁ h₀₁ hs₁ => ?_
  refine (Runs.inspects (Inspects.lift (RaisesPlain.bind (RaisesPlain.normalizeAmount _)
    fun _ => .ok _))).replies hs₁ fun digest s₂ h₂ h₁₂ hs₂ => ?_
  refine (Runs.inspects (Inspects.send rfl)).replies hs₂ fun id s₃ h₃ h₂₃ hs₃ => ?_
  have hpending₃ : s₃.store.pending i = {} := by rw [h₃, h₂, h₁, hpending]
  have ha₃ := ha.mono (h₀₁.trans (h₁₂.trans h₂₃)).trace
  refine (runs_tryFlushIntent hpending₃).replies hs₃ fun inserted s₄ h₄ h₃₄ hs₄ => ?_
  rcases h₄ with ⟨rfl, hpending₄⟩ | ⟨rfl, hpending₄, other, hrefused⟩
  · rw [if_pos rfl]
    have hids : ({ stored H (attestedIntent id req a) with
        provenance := some (provenanceOf identity req a canonical digest) } : IntentRow).id =
      (attestedIntent id req a).id := rfl
    refine (ends_evaluateAndRecord _ _ hpending₄ hids).replies hs₄ fun x t ht hst => ?_
    refine ⟨a, ha₃.mono (List.Subset.trans h₃₄.trace hst.trace), ?_, rfl, rfl, fun _ => rfl⟩
    exact ht _ rfl rfl rfl
  · rw [if_neg (by simp)]
    refine runs_read.replies hs₄ fun v s₅ h₅ h₄₅ hs₅ => ?_
    obtain ⟨hrows, hpending₅, -⟩ := h₅
    rw [hpending₅, hpending₄, Rows.append_empty] at hrows
    split
    · next existing hexisting =>
      obtain ⟨hmem, hscope⟩ := findExistingOperation_mem hrows hexisting
      exact replies_existing (ha₃.mono (h₃₄.trans h₄₅).trace) (hpending₅.trans hpending₄) hs₅ hmem
        hscope
    · next hnone =>
      refine ⟨.inl hs₅, nofun, fun _ => ⟨_, other, rfl, hrefused.mono h₄₅.within, fun hscope => ?_⟩⟩
      -- what was in the way is still committed, so a row of the operation would have been found
      obtain ⟨j, u, hother, -, -, hwithin, -⟩ := hrefused
      have hmem : other ∈ v.intents := hrows ▸ h₄₅.within.intents (hwithin.intents hother)
      have hnone : other.operationScope ≠ some (Attested.scope a req) := by
        simpa using List.find?_eq_none.1 hnone other hmem
      exact hnone hscope

theorem replies_submitAttestedIntent (hpending : s.store.pending i = {})
    (hs : ¬ Saved (s.trace i)) :
    Replies H c i (.attested identity req) (submitAttestedIntent H identity req) s := by
  refine runs_attest.replies hs fun a s₁ h₁ _ hs₁ => ?_
  refine runs_read.replies hs₁ fun v s₂ h₂ h₁₂ hs₂ => ?_
  obtain ⟨hrows, hpending₂, -⟩ := h₂
  have hpending₂ := hpending₂.trans (h₁.2.trans hpending)
  rw [hpending₂, Rows.append_empty] at hrows
  have ha := h₁.1.mono h₁₂.trace
  split
  · next existing hexisting =>
    obtain ⟨hmem, hscope⟩ := findExistingOperation_mem hrows hexisting
    exact replies_existing ha hpending₂ hs₂ hmem hscope
  · exact replies_newOperation ha hpending₂ hs₂

/-! ### Agents -/

/-- A check that raises. -/
theorem replies_guard {p : Prop} [Decidable p] {e : PyError} {k : Unit → LedgerService Submitted}
    (he : Plain e) (hs : ¬ Saved (s.trace i)) (h : Replies H c i r (k ()) s) :
    Replies H c i r (if p then throw e >>= k else k ()) s := by
  split
  · exact Reply.plain r he (.inl hs)
  · exact h

theorem plain_agent {e : PyError}
    (he : e ∈ [.agentRevoked, .agentRetired, .agentNotOperational, .organizationNotActive]) :
    Plain e := by
  simp only [List.mem_cons, List.not_mem_nil, or_false] at he
  rcases he with rfl | rfl | rfl | rfl <;> exact ⟨by simp, by simp, by simp⟩

omit [DecidableEq ι] in
/-- What is returned about an agent's row that is committed with its decision. -/
theorem reply_direct {agent : Agent} {req : IntentRequest} {id : Uuid} {x : Decision × EvidenceRow}
    {t : Session ι} (h : Tail { stored H (agentIntent id agent req) with } x t) :
    DirectReply agent req ⟨{ stored H (agentIntent id agent req) with }, x.1, some x.2⟩ t.store :=
  ⟨h _ rfl rfl rfl, rfl, rfl, rfl⟩

theorem replies_submitIntent {agent : Agent} {req : IntentRequest}
    (hpending : s.store.pending i = {}) (hs : ¬ Saved (s.trace i)) :
    Replies H c i (.direct agent req) (LedgerService.submitIntent H agent req) s := by
  have hrevoked : Plain .agentRevoked := plain_agent (by simp)
  have hretired : Plain .agentRetired := plain_agent (by simp)
  have hregistered : Plain .agentNotOperational := plain_agent (by simp)
  unfold LedgerService.submitIntent
  refine replies_guard hrevoked hs ?_
  refine replies_guard hretired hs ?_
  refine replies_guard hregistered hs ?_
  refine (Runs.inspects (Inspects.send rfl)).replies hs fun v s₁ h₁ _ hs₁ => ?_
  refine (Runs.inspects (Inspects.ensureActive _ fun _ => plain_agent (by simp))).replies hs₁
    fun _ s₂ h₂ _ hs₂ => ?_
  refine (Runs.inspects (Inspects.send rfl)).replies hs₂ fun id s₃ h₃ _ hs₃ => ?_
  have hpending₃ : s₃.store.pending i = {} := by rw [h₃, h₂, h₁, hpending]
  refine (runs_tryFlushIntent hpending₃).replies hs₃ fun inserted s₄ h₄ _ hs₄ => ?_
  rcases h₄ with ⟨rfl, hpending₄⟩ | ⟨rfl, -, other, hrefused⟩
  · have hids : ({ stored H (agentIntent id agent req) with } : IntentRow).id =
      (agentIntent id agent req).id := rfl
    show Replies H c i _ (if agent.status = .suspended then _ else _) s₄
    split
    · refine (ends_recordUnevaluated _ _ hpending₄ hids).replies hs₄ fun x t ht _ => ?_
      exact reply_direct ht
    · refine (Runs.inspects (Inspects.send rfl)).replies hs₄ fun v s₅ h₅ _ hs₅ => ?_
      refine (Runs.inspects (Inspects.send rfl)).replies hs₅ fun v' s₆ h₆ _ hs₆ => ?_
      have hpending₆ := h₆.trans (h₅.trans hpending₄)
      split
      · refine (ends_recordUnevaluated _ _ hpending₆ hids).replies hs₆ fun x t ht _ => ?_
        exact reply_direct ht
      · refine (ends_evaluateAndRecord _ _ hpending₆ hids).replies hs₆ fun x t ht _ => ?_
        exact reply_direct ht
  · exact ⟨.inl hs₄, fun _ => ⟨_, other, rfl, rfl, rfl, hrefused⟩⟩

/-! ## Sessions -/

/-- What closes a session keeps the reply. -/
theorem wp_closed {x : Except PyError Submitted} {q : LedgerService Submitted}
    {R : Submitted → Session ι → Prop} {E : PyError → Session ι → Prop}
    (hs : Reply H c (s.trace i) s.store r x)
    (hq : ∀ t, t.store.pending i = {} → Reply H c (t.trace i) t.store r x →
      wp (sessionLogic H c) i q R E t) :
    wp (sessionLogic H c) i (rollback >>= fun _ => q) R E s := by
  refine wp_bind (wp_statement fun t hst ht _ => ⟨nofun, fun r u hu _ => ⟨fun a ha => ?_, ?_⟩⟩)
  · subst ha
    have h := unsaved_sent hst ht hu fun h => by cases h
    refine hq _ ?_ (hs.mono h.trace h.saved h.within)
    show u.pending i = {}
    rw [hu.2, Ledger.close_pending, if_pos rfl]
  · rintro e rfl
    cases hu.1

variable (H c) in
/-- The requests' contract, with their responses. -/
abbrev replyLogic := Logic.reporting (replied_stable (H := H) (c := c))

theorem replies_submit (r : Request) (hpending : s.store.pending i = {})
    (hs : ¬ Saved (s.trace i)) : Replies H c i r (r.submit H) s := by
  cases r with
  | attested identity req => exact replies_submitAttestedIntent hpending hs
  | direct agent req => exact replies_submitIntent hpending hs

theorem keeps_request (r : Request) :
    (replyLogic H c).Keeps ((withSession (r.submit H)).reported fun x => some ⟨r, x⟩) := by
  refine keeps_reported replied_stable fun i s _ hidle => ?_
  obtain ⟨hpending, htrace⟩ := hidle
  have hs : ¬ Saved (s.trace i) := by
    rw [htrace]
    exact List.not_mem_nil
  have hreply : Replies H c i r (begin >>= fun _ => r.submit H) s := by
    refine (Runs.inspects (Inspects.send rfl)).replies hs fun _ t ht _ hst => ?_
    exact replies_submit r (ht.trans hpending) hst
  have hreplied : ∀ {x tr} {t : Ledger ι}, Reply H c tr t r x → Replied H c (some ⟨r, x⟩) tr t :=
    fun h y hy => Option.some.inj hy ▸ h
  refine wp_bind (wp_mono (wp_tryCatch (wp_mono hreply (fun x t ht => ht) fun e t ht =>
    wp_closed ht fun u hu hr => ?_)) (fun x t ht => wp_closed ht fun u hu hr => ?_) fun e t ht => ht)
  · exact ⟨hu, hreplied hr⟩
  · exact ⟨hu, hreplied hr⟩

theorem keeps_beside {p : LedgerService Unit} (hp : p ∈ environment) :
    (replyLogic H c).Keeps (p.reported fun _ => (none : Option Response)) := by
  refine keeps_reported replied_stable fun i s _ hidle => ?_
  have hnone : ∀ (tr : List Told) (t : Ledger ι), Replied H c none tr t := fun _ _ _ h => by cases h
  rcases hp with ⟨db, rfl⟩ | ⟨now, rfl⟩ <;>
  · refine wp_statement fun t hst _ _ => ⟨nofun, fun r u hu _ => ?_⟩
    obtain ⟨-, -, rfl⟩ := hu
    have := hst.pending.trans hidle.1
    exact ⟨fun _ _ => ⟨this, hnone _ _⟩, fun _ _ => ⟨this, hnone _ _⟩⟩

end Writes

/-! ## Runs -/

/-- A program that reports to the sessions. -/
abbrev Reporting : Type :=
  Prog (LedgerStatement ⊕ Option Response) (ReportAnswer LedgerStatement.Answer (Option Response))
    PyError Unit

/-- The sessions, and what is running. -/
abbrev Sessions (ι : Type) : Type :=
  World (LedgerStatement ⊕ Option Response)
    (ReportAnswer LedgerStatement.Answer (Option Response)) PyError (Session ι) ι

/-- Requests, each in its session, and what goes on beside them. -/
def submitting (H : OperationHost) : Set Reporting :=
  {p | (∃ r : Request, p = (withSession (r.submit H)).reported fun x => some ⟨r, x⟩) ∨
    ∃ q ∈ environment, p = q.reported fun _ => none}

/-- The rows of earlier submissions, and no session. -/
structure Ledger.Recorded {ι : Type} (s : Ledger ι) : Prop where
  atRest : s.AtRest
  complete : ∃ os, s.committed = Submission.all os
  distinct : s.committed.Distinct

/-- The ledger that no request has been sent to. -/
def Session.Start {ι : Type} (s : Session ι) : Prop :=
  s.store.Recorded ∧ (∀ i, s.trace i = []) ∧ s.reports = []

section Runs

variable {ι : Type} [DecidableEq ι] {H : OperationHost}
  {c : ι → (q : LedgerStatement) → Ledger ι → Except PyError q.Answer → Prop}

theorem keeps_submitting : ∀ p ∈ submitting H, (replyLogic H c).Keeps p := by
  rintro p (⟨r, rfl⟩ | ⟨q, hq, rfl⟩)
  · exact keeps_request r
  · exact keeps_beside hq

omit [DecidableEq ι] in
theorem Ledger.Recorded.inv {s : Ledger ι} (h : s.Recorded) : SubmitInv s where
  complete := h.complete
  whole := h.distinct
  distinct i := by
    rw [h.atRest.pending, Rows.append_empty]
    exact h.distinct
  apart i j _ := by
    rw [h.atRest.pending]
    exact ⟨by simp, by simp, by simp⟩

/-- **Every response is a reply**, in every run of requests that takes the steps that `c` allows. -/
theorem reach_replies
    {w : Sessions ι}
    (h : Reach (((ledgerMachine H.toEvidenceHost ι).restrict c).reporting (Option Response))
      (submitting H) Session.Start w) :
    SubmitInv w.store.store ∧ ∀ e ∈ w.store.reports, Replied H c e.1 e.2 w.store.store := by
  refine (h.sound keeps_submitting fun s hs => ?_).1
  obtain ⟨hrecorded, htrace, hreports⟩ := hs
  refine ⟨⟨hrecorded.inv, by simp [hreports]⟩, fun i => ⟨hrecorded.atRest.pending i, htrace i⟩⟩

end Runs

end PayReality
