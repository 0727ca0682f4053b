import PayReality.Simulation.Explainer
import PayReality.Store.History

/-!
# The explanation of a decision

`decision_explanation_service.py`: which policies and which of their conditions a decision came from,
reconstructed from the rows that it has left. It names the bundle that the decision pins and the versions that
the manifest of the bundle lists, and has the explainer judge them by the intent and its first evidence.

* `getDecisionExplanation`: the explanation, or why there is none.
* `Db.PersistsIn`: what later operations leave of the rows that it reads.

**Main result** `getDecisionExplanation_persists`.
-/

namespace PayReality

open Explainer

/-- Why there is no explanation: what is raised, or the reason of an `ExplanationUnavailable`. -/
inductive Unexplained where
  | raised (e : PyError)
  | unavailable (reason : String)
  deriving DecidableEq, Repr

/-- `DecisionExplanation`. -/
structure DecisionExplanation where
  decisionId : Uuid
  outcome : Outcome
  reason : Json
  policyId : ℕ
  bundleHash : BundleHash
  bundleVersion : ℕ
  compiledAt : Option Timestamp
  activatedAt : Option Timestamp
  retiredAt : Option Timestamp
  evaluatedAt : Timestamp
  rules : List RuleEvaluation
  causalPolicyId : Option String

/-- All of it but when the bundle was retired. -/
def DecisionExplanation.lasting (e : DecisionExplanation) : DecisionExplanation :=
  { e with retiredAt := none }

namespace DecisionExplanationService

/-! ## Definitions -/

/-- `_is_unevaluated_reason`: OPA never answered. -/
def isUnevaluatedReason : Json → Bool
  | .str reason => reason = "opa_timeout" || "opa_error:".toList.isPrefixOf reason.toList
  | _ => false

/-- The first evidence of a decision: `ORDER BY created_at, id`. -/
def earliestEvidence (db : Db) (decisionId : Uuid) : Option Evidence :=
  ((db.evidence.filter fun e => e.decisionId = decisionId).insertionSort fun e e' =>
    e.createdAt < e'.createdAt ∨ e.createdAt = e'.createdAt ∧ e.id ≤ e'.id).head?

/-- `frozenset(decision.evaluated_mandates or [])`. -/
def matchedIds : Json → Except PyError (List Json)
  | .null => .ok []
  | .arr xs => if xs.all Json.hashable then .ok xs else .error .typeError
  | .str s => .ok (s.toList.map fun c => .str (String.ofList [c]))
  | .obj kvs => .ok (kvs.map fun kv => .str kv.1)
  | v => if v.truthy then .error .typeError else .ok []

/-- What is found, or else. -/
def found {α : Type} (e : Unexplained) (x : Option α) : Except Unexplained α := x.elim (.error e) .ok

/-- A check that an explanation has to pass. -/
def refuse (p : Prop) [Decidable p] (e : Unexplained) : Except Unexplained Unit :=
  if p then .error e else .ok ()

/-- The version that an entry of a manifest is of. -/
def listedVersion (P : Platform) (db : Db) (entry : ManifestEntry) :
    Except Unexplained RuntimePolicyRecord := do
  let key ← found (.raised .valueError) (P.uuid entry.id)
  found (.unavailable "historical_policy_record_missing")
    (db.records.find? fun r => r.policyKey = key ∧ (r.version : Int) = entry.version)

/-- The members that an intent has. -/
def reconstructedIntent (intent : Intent) : List (String × Json) :=
  [("action", Json.str intent.action)] ++
    (intent.amount.map fun a => ("amount", Json.float a)).toList ++
    (intent.currency.map fun c => ("currency", Json.str c)).toList ++
    (intent.resource.map fun r => ("resource", Json.str r)).toList

def reconstructedContext (intent : Intent) (payload : EvidencePayload) : List (String × Json) :=
  IntentService.withMember intent.context "authority" (payload.authorityContext.getD .null)

/-- `get_decision_explanation`. -/
def getDecisionExplanation (P : Platform) (db : Db) (decisionId : Uuid) (organizationId : Option Uuid) :
    Except Unexplained DecisionExplanation := do
  let decision ← found (.raised .decisionNotFound) (db.decisions.find? fun d => d.id = decisionId)
  let policyId ← found (.unavailable "no_policy_evaluated") decision.policyId
  refuse (isUnevaluatedReason decision.reason = true) (.unavailable "evaluation_did_not_complete")
  let policy ← found (.unavailable "bundle_not_found") (db.policies.find? fun p => p.version = policyId)
  refuse (policy.organizationId ≠ organizationId) (.raised .crossOrganizationAccess)
  let entries := policy.bundleManifest.elim [] Manifest.policies
  refuse (entries = []) (.unavailable "bundle_manifest_not_available")
  let evidence ← found (.unavailable "evidence_not_available") (earliestEvidence db decision.id)
  let principalName := evidence.payload.principalName.getD ""
  refuse (principalName = "") (.unavailable "principal_not_resolved")
  let records ← entries.mapM (listedVersion P db)
  let intent ← found (.raised .attributeError) (db.intents.find? fun i => i.id = decision.intentId)
  let matched ← (matchedIds decision.evaluatedMandates).mapError .raised
  let rules := buildRuleEvaluations (records.map RuntimePolicyRecord.content) (reconstructedIntent intent)
    (reconstructedContext intent evidence.payload) principalName matched
  return {
    decisionId := decision.id
    outcome := decision.outcome
    reason := decision.reason
    policyId := policy.version
    bundleHash := policy.bundleHash
    bundleVersion := policy.version
    compiledAt := policy.compiledAt
    activatedAt := policy.activatedAt
    retiredAt := policy.retiredAt
    evaluatedAt := decision.createdAt
    rules
    causalPolicyId := (rules.find? RuleEvaluation.matched).map RuleEvaluation.policyId }

/-! ## What is returned -/

theorem found_ok {α : Type} {e : Unexplained} {x : Option α} {a : α} :
    found e x = .ok a ↔ x = some a := by
  cases x <;> simp [found]

theorem found_bind {α β : Type} (e : Unexplained) (a : α) (f : α → Except Unexplained β) :
    (found e (some a) >>= f) = f a := rfl

theorem found_fail {α β : Type} (e : Unexplained) (f : α → Except Unexplained β) :
    (found e none >>= f) = .error e := rfl

theorem refuse_fail {β : Type} {p : Prop} [Decidable p] {e : Unexplained} (hp : p)
    (f : Unit → Except Unexplained β) : (refuse p e >>= f) = .error e := by
  rw [refuse, if_pos hp]
  rfl

theorem refuse_pass {β : Type} {p : Prop} [Decidable p] {e : Unexplained} (hp : ¬ p)
    (f : Unit → Except Unexplained β) : (refuse p e >>= f) = f () := by
  rw [refuse, if_neg hp]
  rfl

theorem refuse_ok {p : Prop} [Decidable p] {e : Unexplained} {u : Unit} :
    refuse p e = .ok u ↔ ¬ p := by
  by_cases hp : p <;> simp [refuse, hp]

end DecisionExplanationService

/-! ## What stays -/

/-- All of a row of `policies` but whether and when it was retired. -/
def PolicyRow.lasting (p : PolicyRow) : PolicyRow := { p with status := .retired, retiredAt := none }

/-- What an explanation reads of `db` is still there in `db'`. -/
structure Db.PersistsIn (db db' : Db) : Prop where
  cores : db.cores ⊆ db'.cores
  policies : db.policies.map PolicyRow.lasting <+: db'.policies.map PolicyRow.lasting
  intents : db.intents <+: db'.intents
  decisions : db.decisions <+: db'.decisions
  /-- What is recorded later is about later decisions. -/
  evidence : ∃ new, db'.evidence = db.evidence ++ new ∧
    ∀ e ∈ new, ∀ d ∈ db.decisions, e.decisionId ≠ d.id

namespace Db.PersistsIn

variable {db db' db'' : Db}

theorem refl (db : Db) : db.PersistsIn db where
  cores := List.Subset.refl _
  policies := List.prefix_rfl
  intents := List.prefix_rfl
  decisions := List.prefix_rfl
  evidence := ⟨[], by simp, by simp⟩

theorem trans (h : db.PersistsIn db') (h' : db'.PersistsIn db'') : db.PersistsIn db'' where
  cores := List.Subset.trans h.cores h'.cores
  policies := h.policies.trans h'.policies
  intents := h.intents.trans h'.intents
  decisions := h.decisions.trans h'.decisions
  evidence := by
    obtain ⟨new, hnew, hapart⟩ := h.evidence
    obtain ⟨new', hnew', hapart'⟩ := h'.evidence
    refine ⟨new ++ new', by rw [hnew', hnew, List.append_assoc], fun e he d hd => ?_⟩
    rcases List.mem_append.1 he with he | he
    · exact hapart e he d hd
    · exact hapart' e he d (h.decisions.subset hd)

end Db.PersistsIn

namespace DecisionExplanationService

variable {db db' : Db} {P : Platform}

theorem find?_of_unique {α : Type} {p : α → Bool} {xs : List α} {a : α} (ha : a ∈ xs) (hp : p a = true)
    (hunique : ∀ b ∈ xs, p b = true → b = a) : xs.find? p = some a := by
  cases h : xs.find? p with
  | none => exact absurd hp (List.find?_eq_none.1 h a ha)
  | some b => rw [hunique b (List.mem_of_find?_eq_some h) (List.find?_some h)]

theorem mapM_alike {ε α β γ : Type} {f g : α → Except ε β} {k : β → γ}
    (h : ∀ a b, f a = .ok b → ∃ b', g a = .ok b' ∧ k b' = k b) {xs : List α} {ys : List β}
    (hf : xs.mapM f = .ok ys) : ∃ ys', xs.mapM g = .ok ys' ∧ ys'.map k = ys.map k := by
  induction xs generalizing ys with
  | nil =>
    rw [List.mapM_nil] at hf
    cases hf
    exact ⟨[], rfl, rfl⟩
  | cons x xs ih =>
    rw [List.mapM_cons] at hf
    obtain ⟨y, hy, hf⟩ := bind_ok.1 hf
    obtain ⟨ys₁, hys, hf⟩ := bind_ok.1 hf
    cases hf
    obtain ⟨y', hy', hk⟩ := h x y hy
    obtain ⟨ys', hys', hks⟩ := ih hys
    refine ⟨y' :: ys', ?_, by rw [List.map_cons, List.map_cons, hk, hks]⟩
    rw [List.mapM_cons, hy', hys']
    rfl

/-- A version that a manifest lists stays what it was. -/
theorem listedVersion_persists (h : db.PersistsIn db') (hs : db'.Sound) {entry : ManifestEntry}
    {r : RuntimePolicyRecord} (hr : listedVersion P db entry = .ok r) :
    ∃ r', listedVersion P db' entry = .ok r' ∧ r'.core = r.core := by
  obtain ⟨key, hkey, hr⟩ := bind_ok.1 hr
  rw [found_ok] at hr
  have hfound := List.find?_some hr
  obtain ⟨r', hr', hcore⟩ := Db.exists_of_core (h.cores (Db.mem_cores (List.mem_of_find?_eq_some hr)))
  have hident := RuntimePolicyRecord.ident_of_core hcore
  have hkeyed := RuntimePolicyRecord.key_of_ident hident
  have hversion := RuntimePolicyRecord.version_of_ident hident
  refine ⟨r', bind_ok.2 ⟨key, hkey, found_ok.2 (find?_of_unique hr' ?_ fun q hq hlisted => ?_)⟩, hcore⟩
  · rw [hkeyed, hversion]
    exact hfound
  · simp only [decide_eq_true_eq] at hfound hlisted
    refine hs.eq_of_ident hq hr' (Prod.ext ?_ ?_)
    · exact hlisted.1.trans (hfound.1.symm.trans hkeyed.symm)
    · show q.version = r'.version
      omega

/-- The evidence of a decision is complete when the decision is. -/
theorem earliestEvidence_persists (h : db.PersistsIn db') {d : Decision} (hd : d ∈ db.decisions) :
    earliestEvidence db' d.id = earliestEvidence db d.id := by
  obtain ⟨new, hnew, hapart⟩ := h.evidence
  have hnone : new.filter (fun e => e.decisionId = d.id) = [] := by
    rw [List.filter_eq_nil_iff]
    intro e he
    simpa using hapart e he d hd
  rw [earliestEvidence, hnew, List.filter_append, hnone, List.append_nil]
  rfl

/-- The explainer reads what was authored. -/
theorem buildRuleEvaluations_authored {rs rs' : List RuntimePolicyRecord}
    (h : rs'.map RuntimePolicyRecord.core = rs.map RuntimePolicyRecord.core)
    (intent context : List (String × Json)) (principal : String) (matched : List Json) :
    buildRuleEvaluations (rs'.map RuntimePolicyRecord.content) intent context principal matched =
      buildRuleEvaluations (rs.map RuntimePolicyRecord.content) intent context principal matched := by
  have hauthored : ∀ qs : List RuntimePolicyRecord,
      buildRuleEvaluations (qs.map RuntimePolicyRecord.content) intent context principal matched =
        (qs.map RuntimePolicyRecord.core).map fun c =>
          evaluateRule c.2.2 intent context principal matched := by
    intro qs
    rw [buildRuleEvaluations, List.map_map, List.map_map]
    rfl
  rw [hauthored, hauthored, h]

/-- **An explanation lasts**: once there is one, it stays as it is, but for when its bundle was retired. -/
theorem getDecisionExplanation_persists (h : db.PersistsIn db') (hs : db'.Sound) {id : Uuid}
    {o : Option Uuid} {e : DecisionExplanation} (he : getDecisionExplanation P db id o = .ok e) :
    ∃ e', getDecisionExplanation P db' id o = .ok e' ∧ e'.lasting = e.lasting := by
  obtain ⟨decision, hdecision, he⟩ := bind_ok.1 he
  obtain ⟨policyId, hpolicyId, he⟩ := bind_ok.1 he
  obtain ⟨_, hevaluated, he⟩ := bind_ok.1 he
  obtain ⟨policy, hpolicy, he⟩ := bind_ok.1 he
  obtain ⟨_, horg, he⟩ := bind_ok.1 he
  obtain ⟨_, hentries, he⟩ := bind_ok.1 he
  obtain ⟨evidence, hevidence, he⟩ := bind_ok.1 he
  obtain ⟨_, hprincipal, he⟩ := bind_ok.1 he
  obtain ⟨records, hrecords, he⟩ := bind_ok.1 he
  obtain ⟨intent, hintent, he⟩ := bind_ok.1 he
  obtain ⟨matched, hmatched, he⟩ := bind_ok.1 he
  cases he
  rw [found_ok] at hdecision hpolicy hintent hevidence
  -- the row of `policies`
  have hversion := List.find?_some hpolicy
  simp only [decide_eq_true_eq] at hversion
  obtain ⟨policy', hpolicy', hlasting⟩ := List.mem_map.1
    (h.policies.subset (List.mem_map_of_mem (List.mem_of_find?_eq_some hpolicy)))
  have hfield : ∀ {β : Type} (f : PolicyRow → β), (∀ p, f p.lasting = f p) → f policy' = f policy :=
    fun f hf => by rw [← hf policy', hlasting, hf]
  have hrow : db'.policies.find? (fun p => p.version = policyId) = some policy' := by
    have hsame : policy'.version = policy.version := hfield PolicyRow.version fun _ => rfl
    refine find?_of_unique hpolicy' (by simp [hsame, hversion]) fun q hq hfound => ?_
    simp only [decide_eq_true_eq] at hfound
    exact List.inj_on_of_nodup_map hs.versions hq hpolicy' (hfound.trans (hversion.symm.trans hsame.symm))
  -- the versions that it lists
  obtain ⟨records', hrecords', hcores⟩ := mapM_alike (fun _ _ => listedVersion_persists h hs) hrecords
  have hdecision' := h.decisions.find?_eq_some hdecision
  have hmem := List.mem_of_find?_eq_some hdecision
  have horg' := hfield PolicyRow.organizationId fun _ => rfl
  have hmanifest := hfield PolicyRow.bundleManifest fun _ => rfl
  rw [← horg'] at horg
  rw [← hmanifest] at hentries hrecords'
  rw [← earliestEvidence_persists h hmem] at hevidence
  refine ⟨_, bind_ok.2 ⟨decision, found_ok.2 hdecision', bind_ok.2 ⟨policyId, hpolicyId,
    bind_ok.2 ⟨(), hevaluated, bind_ok.2 ⟨policy', found_ok.2 hrow, bind_ok.2 ⟨(), horg,
    bind_ok.2 ⟨(), hentries, bind_ok.2 ⟨evidence, found_ok.2 hevidence, bind_ok.2 ⟨(), hprincipal,
    bind_ok.2 ⟨records', hrecords', bind_ok.2 ⟨intent, found_ok.2 (h.intents.find?_eq_some hintent),
    bind_ok.2 ⟨matched, hmatched, rfl⟩⟩⟩⟩⟩⟩⟩⟩⟩⟩⟩, ?_⟩
  rw [DecisionExplanation.lasting, DecisionExplanation.lasting, buildRuleEvaluations_authored hcores,
    hfield PolicyRow.version fun _ => rfl, hfield PolicyRow.bundleHash fun _ => rfl,
    hfield PolicyRow.compiledAt fun _ => rfl, hfield PolicyRow.activatedAt fun _ => rfl]

end DecisionExplanationService

end PayReality
