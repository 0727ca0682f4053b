import PayReality.Integration.Submitting

/-!
# One decision for each business operation

However attested requests interleave, an operation (an integration, an environment and an external
id) has one intent, one decision and one original evidence, and a request for it is answered with
that decision, or with a conflict, or with a rejection that commits nothing. The one exception: a
request that commits may still fail when it reads its rows again.

**Main result** `submitAttestedIntent_idempotent`.
-/

namespace PayReality

open Program IntegrationRuntimeService

/-! ## Once -/

/-- What is committed for one operation. -/
structure Once (rows : Rows) (scope : Uuid × String × String) : Prop where
  intents : (rows.intents.filter fun i => i.operationScope = some scope).length ≤ 1
  decisions : (rows.decisions.filter fun d => ∃ i ∈ rows.intents,
    i.operationScope = some scope ∧ d.intentId = i.id).length ≤ 1
  evidence : (rows.evidence.filter fun e => ∃ d ∈ rows.decisions, ∃ i ∈ rows.intents,
    i.operationScope = some scope ∧ d.intentId = i.id ∧ e.decisionId = d.id).length ≤ 1

/-- Where no two elements may stand beside each other, there is at most one. -/
theorem length_le_one {α : Type} {R : α → α → Prop} {xs : List α} (h : xs.Pairwise R)
    (hne : ∀ x ∈ xs, ∀ y ∈ xs, ¬ R x y) : xs.length ≤ 1 := by
  cases xs with
  | nil => exact Nat.zero_le 1
  | cons x xs =>
    cases xs with
    | nil => exact Nat.le_refl 1
    | cons y ys =>
      have hxy := (List.pairwise_cons.1 h).1 y List.mem_cons_self
      exact absurd hxy (hne x List.mem_cons_self y (List.mem_cons_of_mem _ List.mem_cons_self))

namespace Submission

variable {os : List Submission} {scope : Uuid × String × String}

/-- Two rows of one operation are one row. -/
theorem eq_of_scope (h : (all os).Distinct) {o o' : Submission} (ho : o ∈ os) (ho' : o' ∈ os)
    (hs : o.intent.operationScope = some scope) (hs' : o'.intent.operationScope = some scope) :
    o = o' :=
  eq_of_collides h ho ho' (by simp [IntentRow.collides, hs, hs'])

theorem once (h : (all os).Distinct) : Once (all os) scope where
  intents := by
    refine length_le_one (h.intents.filter _) fun i hi j hj hfree => ?_
    simp only [List.mem_filter, decide_eq_true_eq] at hi hj
    simp [IntentRow.collides, hi.2, hj.2] at hfree
  decisions := by
    refine length_le_one (h.decisions.filter _) fun d hd d' hd' hne => hne ?_
    simp only [List.mem_filter, decide_eq_true_eq] at hd hd'
    obtain ⟨hd, i, hi, hscope, hid⟩ := hd
    obtain ⟨hd', i', hi', hscope', hid'⟩ := hd'
    obtain ⟨o, ho, rfl, rfl⟩ := of_decision h hi hd hid
    obtain ⟨o', ho', rfl, rfl⟩ := of_decision h hi' hd' hid'
    rw [eq_of_scope h ho ho' hscope hscope']
  evidence := by
    refine length_le_one (h.evidence.filter _) fun e he e' he' hne => hne ?_
    simp only [List.mem_filter, decide_eq_true_eq] at he he'
    obtain ⟨he, d, hd, i, hi, hscope, hid, hed⟩ := he
    obtain ⟨he', d', hd', i', hi', hscope', hid', hed'⟩ := he'
    obtain ⟨o, ho, rfl, rfl⟩ := of_decision h hi hd hid
    obtain ⟨o', ho', rfl, rfl⟩ := of_decision h hi' hd' hid'
    obtain rfl := eq_of_scope h ho ho' hscope hscope'
    rw [← of_evidence h ho he hed, ← of_evidence h ho he' hed']

end Submission

/-! ## Responses -/

/-- What an attested request is answered, beside what is committed. -/
inductive OperationResponse (H : OperationHost) (identity : IntegrationIdentity)
    (req : AttestedRequest) (tr : List Told) (rows : Rows) : Except PyError Submitted → Prop
  /-- The operation's decision, for a request that means the same. -/
  | decision {x : Submitted} {a : Attested} : Attests H identity req tr a → Decided rows x →
      x.intent.operationScope = some (Attested.scope a req) →
      x.intent.fingerprint = some a.fingerprint → OperationResponse H identity req tr rows (.ok x)
  /-- A conflict, for a request that means something else. -/
  | conflict {a : Attested} {row : IntentRow} : Attests H identity req tr a →
      row ∈ rows.intents → row.operationScope = some (Attested.scope a req) →
      row.fingerprint ≠ some a.fingerprint → ¬ Saved tr →
      OperationResponse H identity req tr rows (.error .externalOperationConflict)
  | rejection {e : PyError} : e ≠ .externalOperationConflict → ¬ Saved tr →
      OperationResponse H identity req tr rows (.error e)
  /-- The rows are committed, and could not be read again. -/
  | unread : ⟨.refresh, .error .databaseError⟩ ∈ tr →
      OperationResponse H identity req tr rows (.error .databaseError)

section

variable {ι : Type} [DecidableEq ι] {H : OperationHost}

/-- **Business operations are idempotent**, in every run of requests. -/
theorem submitAttestedIntent_idempotent
    {w : Sessions ι}
    (h : Reach ((ledgerMachine H.toEvidenceHost ι).reporting (Option Response)) (submitting H)
      Session.Start w) :
    (∀ scope, Once w.store.store.committed scope) ∧
    ∀ identity req x tr, (some ⟨.attested identity req, x⟩, tr) ∈ w.store.reports →
      OperationResponse H identity req tr w.store.store.committed x := by
  obtain ⟨hinv, hreports⟩ := reach_replies h.unrestricted
  constructor
  · intro scope
    obtain ⟨os, hos⟩ := hinv.complete
    rw [hos]
    exact Submission.once (hos ▸ hinv.whole)
  · intro identity req x tr hmem
    have hreply := hreports _ hmem _ rfl
    cases x with
    | ok x =>
      obtain ⟨a, ha⟩ := hreply
      exact .decision ha.attests ha.decided ha.scope ha.fingerprint
    | error e =>
      obtain ⟨hnothing, hconflict, -⟩ := hreply
      rcases hnothing with hnothing | ⟨rfl, hunread⟩
      · by_cases he : e = .externalOperationConflict
        · subst he
          obtain ⟨a, row, ha⟩ := hconflict rfl
          exact .conflict ha.attests ha.mem ha.scope ha.fingerprint hnothing
        · exact .rejection he hnothing
      · exact .unread hunread

end

/-! ## A payment, its retry, and another payment under its id -/

/-- Nothing has been sent. -/
def unsent : Sessions Bool :=
  ⟨Reported.init adapterLedger, fun _ => none⟩

/-- A request in its session. -/
def sending (r : Request) : Reporting :=
  (LedgerService.withSession (r.submit adapterHost)).reported fun x => some ⟨r, x⟩

theorem sending_mem (r : Request) : sending r ∈ submitting adapterHost := .inl ⟨r, rfl⟩

theorem unsent_start : Session.Start unsent.store :=
  ⟨⟨⟨fun _ => rfl, fun _ => rfl, fun _ => rfl⟩, ⟨[], rfl⟩, .nil, .nil, .nil⟩, fun _ => rfl, rfl⟩

/-- Requests that one session after the other sends. -/
def sent (S : Schedule (ledgerMachine adapterHost.toEvidenceHost Bool)) (rs : List Request) :
    Sessions Bool :=
  (S.reporting (Option Response)).perform 40 (rs.map fun r => (true, sending r)) unsent

theorem sent_reach (S : Schedule (ledgerMachine adapterHost.toEvidenceHost Bool))
    (rs : List Request) :
    Reach ((ledgerMachine adapterHost.toEvidenceHost Bool).reporting (Option Response))
      (submitting adapterHost) Session.Start (sent S rs) := by
  refine Schedule.perform_reach (.init unsent_start) fun p hp => ?_
  obtain ⟨r, -, rfl⟩ := List.mem_map.1 hp
  exact sending_mem r

/-- Three requests for one operation, the last of them for another amount. -/
def retried : List Request :=
  [.attested adapterIdentity (payment 100 "op" "n"), .attested adapterIdentity (payment 100 "op" "m"),
    .attested adapterIdentity (payment 200 "op" "l")]

def Response.isConflict (y : Response) : Bool :=
  match y.result with
  | .error e => e = .externalOperationConflict
  | .ok _ => false

theorem submitAttestedIntent_idempotent_retried :
    ((sent (Ledger.schedule adapterHost.toEvidenceHost allowAll) retried).store.reports.map
      fun e => e.1.map Response.isConflict) = [some false, some false, some true] ∧
    (∀ scope, Once (sent (Ledger.schedule adapterHost.toEvidenceHost allowAll)
      retried).store.store.committed scope) ∧
    ∀ identity req x tr, (some ⟨.attested identity req, x⟩, tr) ∈
        (sent (Ledger.schedule adapterHost.toEvidenceHost allowAll) retried).store.reports →
      OperationResponse adapterHost identity req tr
        (sent (Ledger.schedule adapterHost.toEvidenceHost allowAll) retried).store.store.committed x :=
  ⟨by decide +kernel, submitAttestedIntent_idempotent (sent_reach _ _)⟩

/-! A request that fails behind its commit. -/

/-- The scheduler of runs in which no row can be read again. -/
def unreadable : Schedule (ledgerMachine adapterHost.toEvidenceHost Bool) where
  answer i q s :=
    match q with
    | .refresh => some (.error .databaseError, s)
    | q => Ledger.answer adapterHost.toEvidenceHost allowAll i q s
  sound i q s r t h := by
    cases q with
    | refresh =>
      cases h
      exact .inr ⟨rfl, rfl⟩
    | _ => exact (Ledger.schedule adapterHost.toEvidenceHost allowAll).sound i _ s r t h

def Told.commits : Told → Bool
  | ⟨.commit, .ok _⟩ => true
  | _ => false

theorem saved_of_commits {tr : List Told} (h : tr.any Told.commits = true) : Saved tr := by
  obtain ⟨x, hx, hcommits⟩ := List.any_eq_true.1 h
  unfold Told.commits at hcommits
  split at hcommits
  · exact hx
  · cases hcommits

/-- The response is an error, no conflict, and its operation commits. -/
def failsSaved (e : Option Response × List Told) : Bool :=
  match e with
  | (some ⟨.attested _ _, .error x⟩, tr) => x ≠ .externalOperationConflict && tr.any Told.commits
  | _ => false

theorem submitAttestedIntent_unread : ∃ w : Sessions Bool,
    Reach ((ledgerMachine adapterHost.toEvidenceHost Bool).reporting (Option Response))
      (submitting adapterHost) Session.Start w ∧
    ∃ identity req e tr, (some ⟨.attested identity req, .error e⟩, tr) ∈ w.store.reports ∧
      e ≠ .externalOperationConflict ∧ Saved tr := by
  have hfails : (sent unreadable [.attested adapterIdentity (payment 100 "op" "n")]).store.reports.any
      failsSaved = true := by decide +kernel
  obtain ⟨e, he, hfails⟩ := List.any_eq_true.1 hfails
  refine ⟨_, sent_reach unreadable [.attested adapterIdentity (payment 100 "op" "n")], ?_⟩
  unfold failsSaved at hfails
  split at hfails
  · rw [Bool.and_eq_true, decide_eq_true_eq] at hfails
    exact ⟨_, _, _, _, he, hfails.1, saved_of_commits hfails.2⟩
  · cases hfails

end PayReality
