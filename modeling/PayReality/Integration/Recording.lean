import PayReality.Integration.Context
import PayReality.Lib.Reports

/-!
# What submissions record

A session commits the rows of one submission: an intent, its decision and the evidence of that
(`Submission`). The unique indexes keep the rows apart, whatever the sessions do between each
other's statements.

* `SubmitInv`: the committed rows are those of submissions, and nothing that is committed or flushed
  refuses anything else.
* `submitLogic`: the contract of a session, on the ledger restricted to the steps that `c` allows.
* `Runs`, `Ends`: what a part of a submission does to its session, before the commit and with it.
-/

namespace PayReality

open Program LedgerService

/-! ## Rows that do not refuse each other -/

theorem IntentRow.collides_comm (i j : IntentRow) : i.collides j = j.collides i := by
  unfold IntentRow.collides
  rw [decide_eq_decide]
  constructor <;>
  · rintro (h | h | h | h)
    · exact .inl h.symm
    · exact .inr (.inl ⟨h.1.symm, h.2.symm⟩)
    · exact .inr (.inr (.inl ⟨h.2 ▸ h.1, h.2.symm⟩))
    · exact .inr (.inr (.inr ⟨h.2 ▸ h.1, h.2.symm⟩))

theorem IntentRow.collides_self (i : IntentRow) : i.collides i = true := by
  simp [IntentRow.collides]

namespace Rows

/-- Nothing refuses a row of the second beside the first. -/
structure Apart (a b : Rows) : Prop where
  intents : ∀ i ∈ a.intents, ∀ j ∈ b.intents, i.collides j = false
  decisions : ∀ d ∈ a.decisions, ∀ d' ∈ b.decisions, d.id ≠ d'.id
  evidence : ∀ e ∈ a.evidence, ∀ e' ∈ b.evidence, e.id ≠ e'.id

/-- No row refuses another. -/
structure Distinct (a : Rows) : Prop where
  intents : a.intents.Pairwise fun i j => i.collides j = false
  decisions : a.decisions.Pairwise fun d d' => d.id ≠ d'.id
  evidence : a.evidence.Pairwise fun e e' => e.id ≠ e'.id

/-- Every row of the first is one of the second. -/
structure Within (a b : Rows) : Prop where
  intents : a.intents ⊆ b.intents
  decisions : a.decisions ⊆ b.decisions
  evidence : a.evidence ⊆ b.evidence

variable {a b d : Rows}

theorem apart_of_refuses (h : a.refuses b = false) : a.Apart b := by
  simp only [refuses, Bool.or_eq_false_iff, List.any_eq_false, decide_eq_true_eq,
    Bool.not_eq_true] at h
  exact ⟨h.1.1, h.1.2, h.2⟩

theorem Apart.symm (h : a.Apart b) : b.Apart a where
  intents i hi j hj := by
    rw [IntentRow.collides_comm]
    exact h.intents j hj i hi
  decisions x hx y hy := (h.decisions y hy x hx).symm
  evidence x hx y hy := (h.evidence y hy x hx).symm

theorem apart_append : (a.append b).Apart d ↔ a.Apart d ∧ b.Apart d := by
  constructor
  · intro h
    exact ⟨⟨fun i hi => h.intents i (List.mem_append_left _ hi),
        fun x hx => h.decisions x (List.mem_append_left _ hx),
        fun x hx => h.evidence x (List.mem_append_left _ hx)⟩,
      ⟨fun i hi => h.intents i (List.mem_append_right _ hi),
        fun x hx => h.decisions x (List.mem_append_right _ hx),
        fun x hx => h.evidence x (List.mem_append_right _ hx)⟩⟩
  · rintro ⟨h, h'⟩
    exact ⟨fun i hi => (List.mem_append.1 hi).elim (h.intents i) (h'.intents i),
      fun x hx => (List.mem_append.1 hx).elim (h.decisions x) (h'.decisions x),
      fun x hx => (List.mem_append.1 hx).elim (h.evidence x) (h'.evidence x)⟩

theorem distinct_append : (a.append b).Distinct ↔ a.Distinct ∧ b.Distinct ∧ a.Apart b := by
  constructor
  · rintro ⟨hi, hd, he⟩
    obtain ⟨hi, hi', hi''⟩ := List.pairwise_append.1 hi
    obtain ⟨hd, hd', hd''⟩ := List.pairwise_append.1 hd
    obtain ⟨he, he', he''⟩ := List.pairwise_append.1 he
    exact ⟨⟨hi, hd, he⟩, ⟨hi', hd', he'⟩, ⟨hi'', hd'', he''⟩⟩
  · rintro ⟨h, h', h''⟩
    exact ⟨List.pairwise_append.2 ⟨h.intents, h'.intents, h''.intents⟩,
      List.pairwise_append.2 ⟨h.decisions, h'.decisions, h''.decisions⟩,
      List.pairwise_append.2 ⟨h.evidence, h'.evidence, h''.evidence⟩⟩

theorem Within.refl (a : Rows) : a.Within a :=
  ⟨List.Subset.refl _, List.Subset.refl _, List.Subset.refl _⟩

theorem Within.trans (h : a.Within b) (h' : b.Within d) : a.Within d :=
  ⟨List.Subset.trans h.intents h'.intents, List.Subset.trans h.decisions h'.decisions,
    List.Subset.trans h.evidence h'.evidence⟩

theorem within_append_left (a b : Rows) : a.Within (a.append b) :=
  ⟨List.subset_append_left _ _, List.subset_append_left _ _, List.subset_append_left _ _⟩

theorem within_append_right (a b : Rows) : b.Within (a.append b) :=
  ⟨List.subset_append_right _ _, List.subset_append_right _ _, List.subset_append_right _ _⟩

@[simp] theorem append_empty (a : Rows) : a.append {} = a := by
  simp [append]

@[simp] theorem empty_append (a : Rows) : Rows.append {} a = a := by
  simp [append]

theorem append_assoc (a b d : Rows) : (a.append b).append d = a.append (b.append d) := by
  simp [append, List.append_assoc]

end Rows

/-! ## Submissions -/

/-- The rows of one submission. -/
structure Submission where
  intent : IntentRow
  decision : Decision
  evidence : EvidenceRow
  decides : decision.intentId = intent.id
  records : evidence.decisionId = decision.id

namespace Submission

def rows (o : Submission) : Rows := ⟨[o.intent], [o.decision], [o.evidence]⟩

/-- The rows of submissions. -/
def all (os : List Submission) : Rows :=
  ⟨os.map intent, os.map decision, os.map evidence⟩

theorem all_snoc (os : List Submission) (o : Submission) :
    (all os).append o.rows = all (os ++ [o]) := by
  simp [all, rows, Rows.append]

variable {os : List Submission}

/-- Submissions whose intents collide are one. -/
theorem eq_of_collides (h : (all os).Distinct) {o o' : Submission} (ho : o ∈ os) (ho' : o' ∈ os)
    (hc : o.intent.collides o'.intent = true) : o = o' := by
  have hone : os.Pairwise fun o o' => o.intent.collides o'.intent = true → o = o' :=
    (List.pairwise_map.1 h.intents).imp fun hfree hc => by rw [hfree] at hc; cases hc
  have hother : os.Pairwise fun o o' => o'.intent.collides o.intent = true → o' = o :=
    hone.imp fun h hc => (h (IntentRow.collides_comm _ _ ▸ hc)).symm
  exact hone.forall_of_forall_of_flip (fun _ _ _ => rfl) hother ho ho' hc

/-- A decision for an intent that is recorded. -/
theorem of_decision (h : (all os).Distinct) {i : IntentRow} (hi : i ∈ (all os).intents)
    {d : Decision} (hd : d ∈ (all os).decisions) (hid : d.intentId = i.id) :
    ∃ o ∈ os, o.intent = i ∧ o.decision = d := by
  obtain ⟨o, ho, rfl⟩ := List.mem_map.1 hi
  obtain ⟨o', ho', rfl⟩ := List.mem_map.1 hd
  have hsame : o = o' :=
    eq_of_collides h ho ho' (by simp [IntentRow.collides, ← hid, o'.decides])
  exact ⟨o, ho, rfl, hsame ▸ rfl⟩

theorem of_evidence (h : (all os).Distinct) {o : Submission} (ho : o ∈ os) {e : EvidenceRow}
    (he : e ∈ (all os).evidence) (hid : e.decisionId = o.decision.id) : o.evidence = e := by
  obtain ⟨o', ho', rfl⟩ := List.mem_map.1 he
  have hone : os.Pairwise fun o o' => o.decision.id = o'.decision.id → o = o' :=
    (List.pairwise_map.1 h.decisions).imp fun hne heq => absurd heq hne
  have hother : os.Pairwise fun o o' => o'.decision.id = o.decision.id → o' = o :=
    hone.imp fun h heq => (h heq.symm).symm
  rw [hone.forall_of_forall_of_flip (fun _ _ _ => rfl) hother ho ho'
    (hid.symm.trans o'.records)]

end Submission

/-! ## The contract -/

/-- The statement leaves all rows alone. -/
def LedgerStatement.still : LedgerStatement → Bool
  | .flushIntent _ | .flushDecision _ | .flushEvidence _ | .commit | .rollback => false
  | _ => true

theorem LedgerStatement.still_of_quiet {q : LedgerStatement} (h : q.quiet = true) :
    q.still = true := by
  cases q with
  | flushIntent | flushDecision | flushEvidence | commit | rollback => cases h
  | _ => rfl

section Contract

variable {ι : Type}

structure SubmitInv (s : Ledger ι) : Prop where
  complete : ∃ os, s.committed = Submission.all os
  whole : s.committed.Distinct
  distinct : ∀ i, (s.committed.append (s.pending i)).Distinct
  apart : ∀ i j, i ≠ j → (s.pending i).Apart (s.pending j)

/-- What is committed is what one submission records, or nothing. -/
def SubmitPre (i : ι) (q : LedgerStatement) (s : Ledger ι) : Prop :=
  q = .commit → s.pending i = {} ∨ ∃ o : Submission, s.pending i = o.rows

structure SubmitRely (i : ι) (s t : Ledger ι) : Prop where
  pending : t.pending i = s.pending i
  within : s.committed.Within t.committed

variable [DecidableEq ι] {H : EvidenceHost}

/-- What a statement does to the rows. -/
inductive RowStep (i : ι) (q : LedgerStatement) (s t : Ledger ι) : Prop
  | still : t.committed = s.committed → t.pending = s.pending → RowStep i q s t
  | flushed (rows : Rows) : q.still = false → t = s.addPending i rows → ¬ s.waits i rows →
      (s.snapshot i).refuses rows = false → rows.Distinct → RowStep i q s t
  | committed : q = .commit → t = s.close i (s.committed.append (s.pending i)) → RowStep i q s t
  | rolledBack : q = .rollback → t = s.close i s.committed → RowStep i q s t

theorem Ledger.Flushes.rowStep {s t : Ledger ι} {i : ι} {q : LedgerStatement} {rows : Rows}
    {r : Except PyError Unit} (h : s.Flushes i rows r t) (hq : q.still = false)
    (hd : rows.Distinct) : RowStep i q s t := by
  rcases h with ⟨hw, h⟩ | ⟨-, rfl⟩
  · split at h
    · exact .still (h.2 ▸ rfl) (h.2 ▸ rfl)
    · next hr => exact .flushed rows hq h.2 hw (Bool.not_eq_true _ ▸ hr) hd
  · exact .still rfl rfl

theorem Ledger.rowStep {s t : Ledger ι} {i : ι} {q : LedgerStatement}
    {r : Except PyError q.Answer} (h : Ledger.step H i q s r t) : RowStep i q s t := by
  cases q with
  | begin | refresh | read =>
    rcases h with ⟨-, rfl⟩ | ⟨-, rfl⟩ <;> exact .still rfl rfl
  | now | uuid4 | queryOpa =>
    obtain ⟨_, -, rfl⟩ := h
    exact .still rfl rfl
  | sign =>
    obtain ⟨-, rfl⟩ := h
    exact .still rfl rfl
  | lockOrganization =>
    rcases h with ⟨-, -, rfl⟩ | ⟨-, rfl⟩ <;> exact .still rfl rfl
  | flushIntent row =>
    exact Ledger.Flushes.rowStep h rfl ⟨List.pairwise_singleton _ _, .nil, .nil⟩
  | flushDecision row =>
    exact Ledger.Flushes.rowStep h rfl ⟨.nil, List.pairwise_singleton _ _, .nil⟩
  | flushEvidence row =>
    exact Ledger.Flushes.rowStep h rfl ⟨.nil, .nil, List.pairwise_singleton _ _⟩
  | commit =>
    rcases h with ⟨-, h⟩ | ⟨-, rfl⟩
    · exact .committed rfl h
    · exact .still rfl rfl
  | rollback => exact .rolledBack rfl h.2
  | elsewhere | tick =>
    obtain ⟨-, -, rfl⟩ := h
    exact .still rfl rfl

omit [DecidableEq ι] in
theorem SubmitInv.congr {s t : Ledger ι} (h : SubmitInv s) (hc : t.committed = s.committed)
    (hp : t.pending = s.pending) : SubmitInv t :=
  ⟨hc ▸ h.complete, hc ▸ h.whole, fun j => hc ▸ hp ▸ h.distinct j, fun j k => hp ▸ h.apart j k⟩

/-- A session adds rows that nothing refuses. -/
theorem SubmitInv.addPending {s : Ledger ι} (h : SubmitInv s) {i : ι} {rows : Rows}
    (hw : ¬ s.waits i rows) (hr : (s.snapshot i).refuses rows = false) (hd : rows.Distinct) :
    SubmitInv (s.addPending i rows) := by
  have hmine : (s.committed.append (s.pending i)).Apart rows := Rows.apart_of_refuses hr
  have hothers : ∀ j, j ≠ i → (s.pending j).Apart rows := by
    intro j hj
    refine Rows.apart_of_refuses (Bool.not_eq_true _ ▸ fun hrefuses => hw ⟨j, hj, hrefuses⟩)
  refine ⟨h.complete, h.whole, fun j => ?_, fun j k hjk => ?_⟩
  · rw [Ledger.addPending_committed, Ledger.addPending_pending]
    split
    · rw [← Rows.append_assoc]
      exact Rows.distinct_append.2 ⟨h.distinct i, hd, hmine⟩
    · exact h.distinct j
  · rw [Ledger.addPending_pending, Ledger.addPending_pending]
    by_cases hj : j = i
    · subst hj
      rw [if_pos rfl, if_neg hjk.symm]
      exact Rows.apart_append.2 ⟨h.apart j k hjk, (hothers k hjk.symm).symm⟩
    · rw [if_neg hj]
      split
      · next hk =>
        subst hk
        exact (Rows.apart_append.2 ⟨h.apart k j hjk.symm, (hothers j hj).symm⟩).symm
      · exact h.apart j k hjk

theorem SubmitInv.rollback {s : Ledger ι} (h : SubmitInv s) {i : ι} :
    SubmitInv (s.close i s.committed) := by
  refine ⟨h.complete, h.whole, fun j => ?_, fun j k hjk => ?_⟩
  · rw [Ledger.close_committed, Ledger.close_pending]
    split
    · rw [Rows.append_empty]
      exact h.whole
    · exact h.distinct j
  · rw [Ledger.close_pending, Ledger.close_pending]
    split
    · exact ⟨by simp, by simp, by simp⟩
    · split
      · exact ⟨by simp, by simp, by simp⟩
      · exact h.apart j k hjk

theorem SubmitInv.commit {s : Ledger ι} (h : SubmitInv s) {i : ι} (hpre : SubmitPre i .commit s) :
    SubmitInv (s.close i (s.committed.append (s.pending i))) := by
  refine ⟨?_, h.distinct i, fun j => ?_, fun j k hjk => ?_⟩
  · obtain ⟨os, hos⟩ := h.complete
    rcases hpre rfl with hp | ⟨o, ho⟩
    · exact ⟨os, by rw [Ledger.close_committed, hp, Rows.append_empty, hos]⟩
    · exact ⟨os ++ [o], by rw [Ledger.close_committed, ho, hos, Submission.all_snoc]⟩
  · rw [Ledger.close_committed, Ledger.close_pending]
    split
    · rw [Rows.append_empty]
      exact h.distinct i
    · next hj =>
      obtain ⟨-, hpending, hapart⟩ := Rows.distinct_append.1 (h.distinct j)
      exact Rows.distinct_append.2
        ⟨h.distinct i, hpending, Rows.apart_append.2 ⟨hapart, h.apart i j (Ne.symm hj)⟩⟩
  · rw [Ledger.close_pending, Ledger.close_pending]
    split
    · exact ⟨by simp, by simp, by simp⟩
    · split
      · exact ⟨by simp, by simp, by simp⟩
      · exact h.apart j k hjk

theorem SubmitInv.step {s t : Ledger ι} (h : SubmitInv s) {i : ι} {q : LedgerStatement}
    {r : Except PyError q.Answer} (hpre : SubmitPre i q s) (hstep : Ledger.step H i q s r t) :
    SubmitInv t := by
  cases Ledger.rowStep hstep with
  | still hc hp => exact h.congr hc hp
  | flushed rows _ ht hw hr hd => exact ht ▸ h.addPending hw hr hd
  | committed hq ht => exact ht ▸ h.commit (hq ▸ hpre)
  | rolledBack _ ht => exact ht ▸ h.rollback

/-- What is committed stays. -/
theorem Ledger.step_within {s t : Ledger ι} {i : ι} {q : LedgerStatement}
    {r : Except PyError q.Answer} (hstep : Ledger.step H i q s r t) :
    s.committed.Within t.committed := by
  cases Ledger.rowStep hstep with
  | still hc => exact hc ▸ .refl _
  | flushed rows _ ht => exact ht ▸ .refl _
  | committed _ ht => exact ht ▸ Rows.within_append_left _ _
  | rolledBack _ ht => exact ht ▸ .refl _

theorem SubmitRely.step {s t : Ledger ι} {i j : ι} (hij : i ≠ j) {q : LedgerStatement}
    {r : Except PyError q.Answer} (hstep : Ledger.step H i q s r t) : SubmitRely j s t := by
  refine ⟨?_, Ledger.step_within hstep⟩
  cases Ledger.rowStep hstep with
  | still _ hp => rw [hp]
  | flushed rows _ ht => rw [ht, Ledger.addPending_pending, if_neg hij.symm]
  | committed _ ht | rolledBack _ ht => rw [ht, Ledger.close_pending, if_neg hij.symm]

/-- The contract of sessions that submit, on the ledger that `c` restricts. -/
def submitLogic (H : EvidenceHost)
    (c : ι → (q : LedgerStatement) → Ledger ι → Except PyError q.Answer → Prop) :
    Logic ((ledgerMachine H ι).restrict c) where
  inv := SubmitInv
  pre := SubmitPre
  rely := SubmitRely
  idle i s := s.pending i = {}
  inv_step h hpre hstep := h.step hpre hstep.1
  rely_refl _ _ := ⟨rfl, .refl _⟩
  rely_trans h h' := ⟨h'.pending.trans h.pending, h.within.trans h'.within⟩
  rely_step hij _ _ hstep := SubmitRely.step hij hstep.1
  idle_rely h hst := hst.pending.trans h

end Contract

end PayReality
