import Mathlib.Data.List.Chain
import PayReality.Execution.Matched

/-!
# Reconciliation results as records of changes

A reconciliation writes a result only if it is not the latest one already. It reads the latest one
before its commit, and nothing holds it, so two reconciliations at once may write the same. Where none
of them writes while another one is under way, consecutive results differ.

**Main result** `results_change`, for every run of such writes.
-/

namespace PayReality

open Program RecordProg ExecutionReconciliationService

/-! ## The latest result -/

/-- What stands first is put last. -/
theorem orderedInsert_last {α : Type} {r : α → α → Prop} [DecidableRel r] {a : α} {l : List α}
    (h : ∀ b ∈ l, ¬ r a b) : l.orderedInsert r a = l ++ [a] := by
  induction l with
  | nil => rfl
  | cons b l ih =>
    rw [List.orderedInsert, if_neg (h b List.mem_cons_self),
      ih fun c hc => h c (List.mem_cons_of_mem b hc)]
    rfl

/-- Rows that were added one after the other are read back from the last to the first. -/
theorem insertionSort_eq_reverse {α : Type} {time : α → Timestamp} {l : List α}
    (h : l.Pairwise fun a b => time a < time b) :
    l.insertionSort (fun a b => time b ≤ time a) = l.reverse := by
  induction l with
  | nil => rfl
  | cons a l ih =>
    obtain ⟨ha, hl⟩ := List.pairwise_cons.1 h
    rw [List.insertionSort_cons, ih hl, List.reverse_cons]
    exact orderedInsert_last fun b hb => not_le.2 (ha b (List.mem_reverse.1 hb))

/-- The results of a decision, from the latest to the earliest. -/
def Enforcement.resultsOf (d : Enforcement) (decisionId : Uuid) : List ResultRow :=
  (d.results.filter fun r => r.decisionId = decisionId).insertionSort
    fun a b => b.computedAt ≤ a.computedAt

/-- The results of a decision have been written one after the other, each with another digest than the
one before. -/
structure Enforcement.Recorded (d : Enforcement) (decisionId : Uuid) : Prop where
  later : (d.results.filter fun r => r.decisionId = decisionId).Pairwise
    fun a b => a.computedAt < b.computedAt
  changed : (d.results.filter fun r => r.decisionId = decisionId).IsChain
    fun a b => a.resultDigest ≠ b.resultDigest

variable {H : CapabilityHost} {d : Enforcement} {decisionId : Uuid}

theorem Enforcement.Recorded.resultsOf_eq (h : d.Recorded decisionId) :
    d.resultsOf decisionId = (d.results.filter fun r => r.decisionId = decisionId).reverse :=
  insertionSort_eq_reverse h.later

theorem Enforcement.Recorded.latest (h : d.Recorded decisionId) :
    latestExistingResult d.results decisionId =
      (d.results.filter fun r => r.decisionId = decisionId).getLast? := by
  show (d.resultsOf decisionId).head? = _
  rw [h.resultsOf_eq, List.head?_reverse]

/-- Consecutive results differ. -/
theorem Enforcement.Recorded.isChain (h : d.Recorded decisionId) :
    (d.resultsOf decisionId).IsChain fun a b => a.resultDigest ≠ b.resultDigest := by
  rw [h.resultsOf_eq, List.isChain_reverse]
  exact h.changed.imp fun a b hab => hab.symm

/-! ## Writing a result -/

/-- A result that is later than the latest one, with another digest. -/
theorem Enforcement.Recorded.append {d' : Enforcement} {row : ResultRow}
    (h : ∀ id, d.Recorded id) (hrows : d'.results = d.results ++ [row])
    (hlater : (latestExistingResult d.results row.decisionId).all
      (fun r => r.computedAt < row.computedAt) = true)
    (hchanged : (latestExistingResult d.results row.decisionId).all
      (fun r => r.resultDigest ≠ row.resultDigest) = true) (id : Uuid) : d'.Recorded id := by
  by_cases hid : row.decisionId = id
  · subst hid
    rw [(h _).latest] at hlater hchanged
    have hfilter : (d'.results.filter fun r => r.decisionId = row.decisionId) =
        (d.results.filter fun r => r.decisionId = row.decisionId) ++ [row] := by
      rw [hrows, List.filter_append, List.filter_singleton, decide_eq_true rfl]
      rfl
    obtain ⟨hpairwise, hchain⟩ := h row.decisionId
    constructor
    · rw [hfilter, List.pairwise_append]
      refine ⟨hpairwise, List.pairwise_singleton _ _, fun a ha b hb => ?_⟩
      rw [List.mem_singleton.1 hb]
      -- the last one is the latest
      obtain ⟨l, last, hl⟩ := (List.eq_nil_or_concat _).resolve_left (List.ne_nil_of_mem ha)
      rw [List.concat_eq_append] at hl
      rw [hl, List.getLast?_concat] at hlater
      have hlast : last.computedAt < row.computedAt := of_decide_eq_true hlater
      rw [hl] at ha hpairwise
      rcases List.mem_append.1 ha with ha | ha
      · exact lt_trans ((List.pairwise_append.1 hpairwise).2.2 a ha last
          (List.mem_singleton_self last)) hlast
      · rw [List.mem_singleton.1 ha]
        exact hlast
    · rw [hfilter]
      refine hchain.append (List.isChain_singleton row) fun a ha b hb => ?_
      rw [Option.mem_def.1 ha] at hchanged
      rw [List.head?_cons, Option.mem_some_iff] at hb
      subst hb
      exact of_decide_eq_true hchanged
  · have hfilter : (d'.results.filter fun r => r.decisionId = id) =
        d.results.filter fun r => r.decisionId = id := by
      rw [hrows, List.filter_append, List.filter_singleton, decide_eq_false hid]
      exact List.append_nil _
    exact ⟨hfilter ▸ (h id).later, hfilter ▸ (h id).changed⟩

/-! ## Runs -/

/-- The event is of a reconciliation. -/
def EvidenceEvent.isReconciliation (e : EvidenceEvent) : Bool :=
  e.eventType = some "RECONCILIATION_OUTCOME"

/-- A result is written where the latest one of its decision is still the one that the operation has
read, and is of an earlier time. Submissions record no reconciliations. -/
def EnforcementChange.undisturbed : EnforcementChange → List Enforcement → Enforcement → Bool
  | .reconcile row _, seen, d =>
    (seen.all fun d' => latestExistingResult d'.results row.decisionId =
        latestExistingResult d.results row.decisionId) &&
      (latestExistingResult d.results row.decisionId).all fun r => r.computedAt < row.computedAt
  | .submitted _ _ evidence, _, _ => evidence.all fun e => !e.isReconciliation
  | _, _, _ => true

/-- A run of requests in which results are written undisturbed. -/
def UndisturbedRun {ι : Type} [DecidableEq ι] (H : CapabilityHost)
    (w : World (RecordStatement EnforcementChange) (RecordStatement.Answer Enforcement Drawn)
      PyError (Records Enforcement ι) ι) : Prop :=
  Reach (((enforcementSchema H true).machine Drawn ι).restrict fun i q s _ =>
      (enforcementSchema H true).allowsSeen EnforcementChange.undisturbed i q s = true)
    (enforcementRequests H) (fun s => ∃ d ∈ ({({} : Enforcement)} : Set Enforcement),
      s = Records.init d) w

/-- The results have been written one after the other, each with one evidence record. -/
structure Enforcement.Changes (d : Enforcement) : Prop where
  recorded : ∀ decisionId, d.Recorded decisionId
  evidenced : List.Forall₂ (fun r e => e.decisionId = r.decisionId) d.results
    (d.evidence.filter EvidenceEvent.isReconciliation)

theorem not_isReconciliation_of_isReview {e : EvidenceEvent} (h : e.isReview = true) :
    e.isReconciliation = false := by
  unfold EvidenceEvent.isReview at h
  rw [Bool.and_eq_true, Option.isNone_iff_eq_none] at h
  unfold EvidenceEvent.isReconciliation
  rw [h.1]
  rfl

/-- A change that adds no result and no reconciliation. -/
theorem Enforcement.Changes.same {d' : Enforcement} (h : d.Changes) (hresults : d'.results = d.results)
    (hevidence : d'.evidence.filter EvidenceEvent.isReconciliation =
      d.evidence.filter EvidenceEvent.isReconciliation) : d'.Changes where
  recorded decisionId :=
    ⟨hresults ▸ (h.recorded decisionId).later, hresults ▸ (h.recorded decisionId).changed⟩
  evidenced := by
    rw [hresults, hevidence]
    exact h.evidenced

/-- **One change keeps the invariant.** -/
theorem Enforcement.Changes.step (h : d.Changes) {seen : List Enforcement} {w : EnforcementChange}
    (hchecks : ∀ c ∈ w.checks H true, ∃ d ∈ seen, c d = true) (hok : w.undisturbed seen d = true) :
    (w.apply d).Changes := by
  cases w with
  | reconcile row event =>
    simp only [EnforcementChange.checks, List.forall_mem_cons] at hchecks
    obtain ⟨-, ⟨d₀, hd₀, hchanged⟩, ⟨_, -, hevent⟩, -⟩ := hchecks
    obtain ⟨hsame, hlater⟩ := (Bool.and_eq_true_iff ..).1 hok
    rw [of_decide_eq_true (List.all_eq_true.1 hsame d₀ hd₀)] at hchanged
    refine ⟨Enforcement.Recorded.append h.recorded rfl hlater hchanged, ?_⟩
    show List.Forall₂ _ (d.results ++ [row]) ((d.evidence ++ [event]).filter _)
    obtain ⟨htype, hdecision⟩ := of_decide_eq_true hevent
    rw [List.filter_append, List.filter_singleton,
      show event.isReconciliation = true from decide_eq_true htype]
    exact List.rel_append h.evidenced (.cons hdecision .nil)
  | resolve row event =>
    simp only [EnforcementChange.checks, List.forall_mem_cons] at hchecks
    obtain ⟨-, ⟨_, -, hevent⟩, -⟩ := hchecks
    refine h.same rfl (Rows.filter_append_of_false ?_)
    exact not_isReconciliation_of_isReview (of_decide_eq_true hevent).1
  | accept row intentId event =>
    simp only [EnforcementChange.checks, List.forall_mem_cons] at hchecks
    obtain ⟨-, -, -, -, -, -, ⟨_, -, hevent⟩, -⟩ := hchecks
    refine h.same rfl (Rows.filter_append_of_false ?_)
    unfold EvidenceEvent.isReconciliation
    rw [(of_decide_eq_true hevent).1]
    decide
  | submitted intents decisions evidence =>
    refine h.same rfl ?_
    show (d.evidence ++ evidence).filter _ = _
    have hnone : evidence.filter EvidenceEvent.isReconciliation = [] := by
      rw [List.filter_eq_nil_iff]
      intro e he
      simpa using List.all_eq_true.1 hok e he
    rw [List.filter_append, hnone, List.append_nil]
  | issue row reviewed => exact h.same rfl rfl
  | consume id p now => exact h.same rfl rfl
  | setAssurance bindingId assurance => exact h.same rfl rfl
  | elsewhere organizations principals agents identities bindings => exact h.same rfl rfl

/-- **Results are records of changes.** -/
theorem results_change {ι : Type} [DecidableEq ι]
    {w : World (RecordStatement EnforcementChange) (RecordStatement.Answer Enforcement Drawn)
      PyError (Records Enforcement ι) ι} (h : UndisturbedRun H w) :
    (∀ decisionId, (w.store.db.resultsOf decisionId).IsChain
      fun a b => a.resultDigest ≠ b.resultDigest) ∧
    List.Forall₂ (fun r e => e.decisionId = r.decisionId) w.store.db.results
      (w.store.db.evidence.filter EvidenceEvent.isReconciliation) := by
  have hkeeps := Reach.records_seen (I := fun d => d.admitted = true ∧ d.Changes) (R := fun _ _ => True)
    (enforcement_checks H) ?_ (fun _ => trivial) (fun _ _ _ _ _ => trivial) (fun d hd => hd.1) ?_ h
  · exact ⟨fun decisionId => (hkeeps.1.2.recorded decisionId).isChain, hkeeps.1.2.evidenced⟩
  · rintro d rfl
    exact ⟨by decide, fun _ => ⟨.nil, .nil⟩, .nil⟩
  · exact fun c seen d hd _ hchecks hok hadmits =>
      ⟨⟨hadmits, hd.2.step hchecks hok⟩, trivial⟩

/-! ### Two reconciliations -/

/-- A host whose digests tell the outcomes of results apart. -/
def outcomeHost : CapabilityHost :=
  { CapabilityService.capabilityHost with
    payloadHash := fun v => match v.get? "outcome" with
      | some (.str outcome) => outcome
      | _ => "" }

/-- Runs without a failure; the transactions of one process begin before those of the other. -/
def reconcilingSchedule :
    Schedule ((enforcementSchema outcomeHost true).machine Drawn Bool) :=
  (enforcementSchema outcomeHost true).scheduleBy fun i =>
    if i then ⟨1, "nonce", 0⟩ else ⟨2, "nonce", 5⟩

/-- A payment is reconciled before its success is reported, and again afterwards. -/
def reconciledTwice : World (RecordStatement EnforcementChange)
    (RecordStatement.Answer Enforcement Drawn) PyError (Records Enforcement Bool) Bool :=
  (reconcilingSchedule.restrict fun i q s _ =>
      (enforcementSchema outcomeHost true).allowsSeen
        EnforcementChange.undisturbed i q s).play
    (enforcementTurns outcomeHost
      [(true, some reportingParties, 10), (true, some (decidedAs .allow), 10),
        (true, some (.reconcile 7 9), 30),
        (true, some (.submitReceipt adapterIdentity successReceipt), 30),
        (false, some (.reconcile 7 9), 30)]) ⟨Records.init {}, fun _ => none⟩

theorem results_change_twice : reconciledTwice.store.db.results.length = 2 ∧
    (reconciledTwice.store.db.resultsOf 9).IsChain fun a b => a.resultDigest ≠ b.resultDigest := by
  have hrun : UndisturbedRun outcomeHost reconciledTwice := by
    refine Schedule.play_reach (.init ⟨{}, rfl, rfl⟩) fun t ht p hp => ?_
    obtain ⟨e, -, rfl⟩ := List.mem_map.1 ht
    obtain ⟨r, -, rfl⟩ := Option.map_eq_some_iff.1 hp
    exact ⟨r, rfl⟩
  exact ⟨by decide +kernel, (results_change hrun).1 9⟩

/-- Two processes reconcile a payment at once: the first one reads, the other one writes, and then the
first one writes. -/
def reconciledAtOnce : World (RecordStatement EnforcementChange)
    (RecordStatement.Answer Enforcement Drawn) PyError (Records Enforcement Bool) Bool :=
  (reconcilingSchedule.restrict fun _ q s _ =>
      (enforcementSchema outcomeHost true).allows (fun _ _ => true) q s).play
    (enforcementTurns outcomeHost
      (reportedPayment .allow ++ [(true, some (.reconcile 7 9), 12),
        (false, some (.reconcile 7 9), 30), (true, none, 30)])) ⟨Records.init {}, fun _ => none⟩

/-- Both of them write, and the results are the same. -/
theorem results_repeated : ∃ w : World (RecordStatement EnforcementChange)
      (RecordStatement.Answer Enforcement Drawn) PyError (Records Enforcement Bool) Bool,
    EnforcementRun outcomeHost (fun _ _ => true) w ∧
    ¬ (w.store.db.resultsOf 9).IsChain fun a b => a.resultDigest ≠ b.resultDigest := by
  refine ⟨reconciledAtOnce, ?_, by decide +kernel⟩
  refine Schedule.play_reach (.init ⟨{}, rfl, rfl⟩) fun t ht p hp => ?_
  obtain ⟨e, -, rfl⟩ := List.mem_map.1 ht
  obtain ⟨r, -, rfl⟩ := Option.map_eq_some_iff.1 hp
  exact ⟨r, rfl⟩

end PayReality
