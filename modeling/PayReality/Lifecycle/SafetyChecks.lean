import PayReality.Lib.Cycle
import PayReality.Policy.Validators
import PayReality.Store.Machine

/-!
# Safety checks

`runtime_policy_safety_checks.py`, and the detection of circular delegations that it takes from
`ai_authority_builder_service.py`: the gate that a version has to pass, with the other active
versions of its organization, before it is activated.

`violations` is the result as a function of the database. It is empty exactly for a candidate
that is `Clean`, which depends neither on the order of the other versions nor on what their
deployment wrote into them.
-/

namespace PayReality

open Program

inductive SafetyCheck where
  | invalidThreshold | invalidPolicyStructure | duplicateAuthority | brokenInheritance
  | missingPrincipal | circularDelegation
  deriving DecidableEq, Repr

structure SafetyViolation where
  check : SafetyCheck
  message : String
  details : List (String × String) := []

namespace SafetyChecks

variable (P : Platform)

/-- `s.strip()`. -/
def strip (s : String) : String := String.ofList (Text.strip s.toList)

/-- `s.strip().lower()`. -/
def normalize (s : String) : String := P.lower (strip s)

/-! ## Circular delegations -/

/-- `edges[name]`. -/
def successors (edges : List (String × String)) (name : String) : List String :=
  ((edges.filter fun e => e.1 = name).map Prod.snd).dedup

/-- The names that delegate, in the order of their first delegations. -/
def delegators (edges : List (String × String)) : List String :=
  (edges.map Prod.fst).reverse.dedup.reverse

/-- Every cycle that the search from each name closes. -/
def closedPaths (edges : List (String × String)) : List (List String) :=
  (delegators edges).flatMap fun start =>
    Cycle.cyclesFrom (successors edges) ((delegators edges).length + 1) start [start] []

/-- The first of each set of names. -/
def distinctCycles (paths : List (List String)) : List (List String) :=
  (paths.reverse.pwFilter fun c d => c.toFinset ≠ d.toFinset).reverse

def circularDescription (cycle : List String) : String :=
  "Circular delegation detected: " ++ String.intercalate " -> " cycle ++ "."

/-- `detect_circular_delegations`, on the normalised names: the descriptions of its conflicts. -/
def detectCircularDelegations (edges : List (String × String)) : List String :=
  (distinctCycles (closedPaths edges)).map circularDescription

/-- No name delegates to itself, directly or through others. -/
def Acyclic (edges : List (String × String)) : Prop :=
  ∀ v, ¬ Relation.TransGen (fun a b => (a, b) ∈ edges) v v

theorem edge_iff {edges : List (String × String)} {a b : String} :
    Cycle.Edge (successors edges) a b ↔ (a, b) ∈ edges := by
  simp [Cycle.Edge, successors]

theorem edge_eq (edges : List (String × String)) :
    Cycle.Edge (successors edges) = fun a b => (a, b) ∈ edges := by
  funext a b
  exact propext edge_iff

theorem distinctCycles_eq_nil {paths : List (List String)} :
    distinctCycles paths = [] ↔ paths = [] := by
  rw [distinctCycles, List.reverse_eq_nil_iff]
  refine ⟨fun h => ?_, fun h => by simp [h]⟩
  cases hp : paths.reverse with
  | nil => simpa using hp
  | cons c cs =>
    rw [hp] at h
    by_cases hall : ∀ d ∈ List.pwFilter (fun c d => c.toFinset ≠ d.toFinset) cs, c.toFinset ≠ d.toFinset
    · rw [List.pwFilter_cons_of_pos hall] at h
      cases h
    · rw [List.pwFilter_cons_of_neg hall] at h
      simp [h] at hall

theorem closedPaths_eq_nil {edges : List (String × String)} :
    closedPaths edges = [] ↔ Acyclic edges := by
  rw [closedPaths, List.flatMap_eq_nil_iff, Acyclic, ← edge_eq]
  constructor
  · intro h v hcycle
    obtain ⟨w, hvw⟩ : ∃ w, Cycle.Edge (successors edges) v w := by
      cases Relation.TransGen.head'_iff.1 hcycle with
      | intro w hw => exact ⟨w, hw.1⟩
    have hstart : ∀ a, successors edges a ≠ [] → a ∈ (delegators edges).toFinset := by
      intro a ha
      obtain ⟨b, hb⟩ := List.exists_mem_of_ne_nil _ ha
      have := edge_iff.1 hb
      simp only [delegators, List.mem_toFinset, List.mem_reverse, List.mem_dedup, List.mem_map]
      exact ⟨_, this, rfl⟩
    have hv := hstart v (List.ne_nil_of_mem hvw)
    refine Cycle.not_transGen_self (Cycle.acc_of_cyclesFrom hstart ?_ (h v (List.mem_toFinset.1 hv)))
      hcycle
    have := List.toFinset_card_le (delegators edges)
    simp only [List.toFinset_nil, Finset.sdiff_empty]
    omega
  · intro h start _
    by_contra hfound
    obtain ⟨v, hv⟩ := Cycle.cyclesFrom_sound (by simp) hfound
    exact h v hv

/-- **The detection is exact about whether there is a cycle.** -/
theorem detectCircularDelegations_eq_nil {edges : List (String × String)} :
    detectCircularDelegations edges = [] ↔ Acyclic edges := by
  rw [detectCircularDelegations, List.map_eq_nil_iff, distinctCycles_eq_nil, closedPaths_eq_nil]

theorem Acyclic.mono {edges edges' : List (String × String)} (h : Acyclic edges)
    (hsub : edges' ⊆ edges) : Acyclic edges' :=
  fun v hv => h v (Relation.TransGen.mono (fun _ _ hab => hsub hab) v v hv)

/-! ## The checks -/

/-- The delegation that a policy states. -/
def delegation (p : RuntimePolicy) : Option (String × String) :=
  match p.constraints.delegatedBy with
  | some d => if d ≠ "" ∧ p.scope.principal ≠ "" then
      some (normalize P d, normalize P p.scope.principal) else none
  | none => none

def checkCircularDelegation (policies : List RuntimePolicy) : List SafetyViolation :=
  (detectCircularDelegations (policies.filterMap (delegation P))).map fun description =>
    { check := .circularDelegation, message := description }

/-- `_authority_signature`. Its conditions are sorted, so they are a multiset. -/
def authoritySignature (p : RuntimePolicy) :
    Scope × Effect × Multiset (String × Operator × List Json.Token) :=
  (p.scope, p.effect, p.conditions.map Validators.dedupKey)

def checkDuplicateAuthority (candidate : RuntimePolicy) (others : List (Uuid × RuntimePolicy)) :
    List SafetyViolation :=
  (others.filter fun e => authoritySignature e.2 = authoritySignature candidate).map fun e =>
    { check := .duplicateAuthority
      message := "An identical authority (same principal, action, resource, effect, and " ++
        "conditions) is already active under a different policy (" ++ P.uuidText e.1 ++ ")."
      details := [("conflicting_policy_key", P.uuidText e.1)] }

def knownPrincipalNames (policies : List RuntimePolicy) : List String :=
  (policies.filter fun p => p.scope.principal ≠ "").map fun p => normalize P p.scope.principal

/-- The delegator of a policy that is no principal of an active one. -/
def unknownDelegator (candidate : RuntimePolicy) (policies : List RuntimePolicy) : Option String :=
  (candidate.constraints.delegatedBy.filter (· ≠ "")).filter fun d =>
    normalize P d ∉ knownPrincipalNames P policies

def brokenInheritance (delegatedBy : String) : Option Principal → List SafetyViolation
  | some _ => []
  | none => [{
      check := .brokenInheritance
      message := "This policy delegates from '" ++ delegatedBy ++ "', which is not scoped by any " ++
        "other active policy and does not resolve to a known Principal in this organization -- " ++
        "the delegation chain would be broken if this policy activates."
      details := [("delegated_by", delegatedBy)] }]

/-- The principal of a policy, where it is an id. -/
def principalId (p : RuntimePolicy) : Option Uuid :=
  if p.scope.principal = "" then none else P.uuid p.scope.principal

def missingPrincipal (principal : String) : Option Principal → List SafetyViolation
  | some _ => []
  | none => [{
      check := .missingPrincipal
      message := "scope.principal '" ++ principal ++
        "' does not resolve to any existing Principal in this organization."
      details := [("principal", principal)] }]

def checkInvalidThresholds (candidate : RuntimePolicy) : List SafetyViolation :=
  (Validators.validate candidate).map fun e =>
    { check := if e.code = "OPERATOR_VALUE_MISMATCH" then .invalidThreshold
        else .invalidPolicyStructure
      message := e.message
      details := [("field", e.field), ("code", e.code)] }

/-! ### Principals -/

/-- `db.get(Principal, id)`, where it belongs to the organization. -/
def getPrincipal (id : Uuid) (organizationId : Option Uuid) : Service (Option Principal) := do
  return (← Service.select (.principal id)).filter fun p => p.organizationId = organizationId

/-- The principal of the organization that a delegator stands for. -/
def resolveDelegator (delegatedBy : String) (organizationId : Option Uuid) :
    Service (Option Principal) :=
  match P.uuid delegatedBy with
  | some id => getPrincipal id organizationId
  | none => Service.select (.principalLike (strip delegatedBy) organizationId)

def checkBrokenInheritance (candidate : RuntimePolicy) (policies : List RuntimePolicy)
    (organizationId : Option Uuid) : Service (List SafetyViolation) :=
  match unknownDelegator P candidate policies with
  | none => return []
  | some d => do return brokenInheritance d (← resolveDelegator P d organizationId)

def checkMissingPrincipal (candidate : RuntimePolicy) (organizationId : Option Uuid) :
    Service (List SafetyViolation) :=
  match principalId P candidate with
  | none => return []
  | some id => do
      return missingPrincipal candidate.scope.principal (← getPrincipal id organizationId)

/-- The violations, given those that were looked up. -/
def assemble (candidate : RuntimePolicy) (others : List (Uuid × RuntimePolicy))
    (broken missing : List SafetyViolation) : List SafetyViolation :=
  checkInvalidThresholds candidate ++ checkDuplicateAuthority P candidate others ++ broken ++
    missing ++ checkCircularDelegation P (candidate :: others.map Prod.snd)

def keyed (rows : List RuntimePolicyRecord) : List (Uuid × RuntimePolicy) :=
  rows.map fun r => (r.policyKey, r.content)

def runSafetyChecks (policyKey : Uuid) (candidateRow : RuntimePolicyRecord)
    (organizationId : Option Uuid) : Service (List SafetyViolation) := do
  let candidate := candidateRow.content
  let others := keyed (← Service.select (.otherActiveRuntimePolicies policyKey organizationId))
  let broken ← checkBrokenInheritance P candidate (candidate :: others.map Prod.snd) organizationId
  let missing ← checkMissingPrincipal P candidate organizationId
  return assemble P candidate others broken missing

/-! ## The result, as a function of the database -/

section Violations

variable (db : Db) (candidate : RuntimePolicy) (organizationId : Option Uuid)

def dbPrincipal (id : Uuid) : Option Principal :=
  (db.principal id).filter fun p => p.organizationId = organizationId

def dbDelegator (delegatedBy : String) : Option Principal :=
  match P.uuid delegatedBy with
  | some id => dbPrincipal db organizationId id
  | none => db.principals.find? fun p =>
      P.ilike p.name (strip delegatedBy) ∧ p.organizationId = organizationId

def dbBroken (policies : List RuntimePolicy) : List SafetyViolation :=
  match unknownDelegator P candidate policies with
  | none => []
  | some d => brokenInheritance d (dbDelegator P db organizationId d)

def dbMissing : List SafetyViolation :=
  match principalId P candidate with
  | none => []
  | some id => missingPrincipal candidate.scope.principal (dbPrincipal db organizationId id)

/-- What `run_safety_checks` reports of a candidate and other active versions. -/
def violations (others : List RuntimePolicyRecord) : List SafetyViolation :=
  assemble P candidate (keyed others)
    (dbBroken P db candidate organizationId (candidate :: others.map RuntimePolicyRecord.content))
    (dbMissing P db candidate organizationId)

/-- A candidate that passes the checks beside the given policies. -/
structure Clean (others : List RuntimePolicy) : Prop where
  valid : Validators.validate candidate = []
  distinct : ∀ p ∈ others, authoritySignature p ≠ authoritySignature candidate
  inherits : dbBroken P db candidate organizationId (candidate :: others) = []
  principal : dbMissing P db candidate organizationId = []
  acyclic : Acyclic ((candidate :: others).filterMap (delegation P))

theorem violations_eq_nil {others : List RuntimePolicyRecord} :
    violations P db candidate organizationId others = [] ↔
      Clean P db candidate organizationId (others.map RuntimePolicyRecord.content) := by
  have hkeyed : (keyed others).map Prod.snd = others.map RuntimePolicyRecord.content := by
    simp [keyed]
  have hdup : checkDuplicateAuthority P candidate (keyed others) = [] ↔
      ∀ p ∈ others.map RuntimePolicyRecord.content,
        authoritySignature p ≠ authoritySignature candidate := by
    simp [checkDuplicateAuthority, keyed]
  have hvalid : checkInvalidThresholds candidate = [] ↔ Validators.validate candidate = [] := by
    simp [checkInvalidThresholds]
  have hcircular : checkCircularDelegation P (candidate :: (keyed others).map Prod.snd) = [] ↔
      Acyclic ((candidate :: others.map RuntimePolicyRecord.content).filterMap (delegation P)) := by
    rw [checkCircularDelegation, List.map_eq_nil_iff, detectCircularDelegations_eq_nil, hkeyed]
  simp only [violations, assemble, List.append_eq_nil_iff, hdup, hvalid, hcircular]
  constructor
  · rintro ⟨⟨⟨⟨hv, hd⟩, hb⟩, hm⟩, hc⟩
    exact ⟨hv, hd, hb, hm, hc⟩
  · intro h
    exact ⟨⟨⟨⟨h.valid, h.distinct⟩, h.inherits⟩, h.principal⟩, h.acyclic⟩

end Violations

/-! ## What was authored decides -/

/-- Every policy of `qs` was authored as one of `ps`. -/
def AuthoredIn (qs ps : List RuntimePolicy) : Prop :=
  ∀ q ∈ qs, ∃ p ∈ ps, p.authored = q.authored

theorem scope_of_authored {p q : RuntimePolicy} (h : p.authored = q.authored) :
    p.scope = q.scope := (Prod.ext_iff.1 (RuntimePolicy.semantics_eq_of_authored_eq h)).1

theorem delegatedBy_of_authored {p q : RuntimePolicy} (h : p.authored = q.authored) :
    p.constraints.delegatedBy = q.constraints.delegatedBy := by
  have : p.authored.constraints.delegatedBy = q.authored.constraints.delegatedBy := by rw [h]
  exact this

theorem delegation_of_authored {p q : RuntimePolicy} (h : p.authored = q.authored) :
    delegation P p = delegation P q := by
  simp only [delegation, delegatedBy_of_authored h, scope_of_authored h]

theorem authoritySignature_of_authored {p q : RuntimePolicy} (h : p.authored = q.authored) :
    authoritySignature p = authoritySignature q := by
  obtain ⟨hscope, hrest⟩ := Prod.ext_iff.1 (RuntimePolicy.semantics_eq_of_authored_eq h)
  obtain ⟨hconditions, heffect⟩ := Prod.ext_iff.1 hrest
  dsimp only [RuntimePolicy.semantics] at hscope hconditions heffect
  rw [authoritySignature, authoritySignature, hscope, hconditions, heffect]

theorem delegations_subset {ps qs : List RuntimePolicy} (h : AuthoredIn qs ps) :
    qs.filterMap (delegation P) ⊆ ps.filterMap (delegation P) := by
  intro e he
  obtain ⟨q, hq, hqe⟩ := List.mem_filterMap.1 he
  obtain ⟨p, hp, hpq⟩ := h q hq
  exact List.mem_filterMap.2 ⟨p, hp, by rw [delegation_of_authored P hpq, hqe]⟩

theorem knownPrincipalNames_subset {ps qs : List RuntimePolicy} (h : AuthoredIn qs ps) :
    knownPrincipalNames P qs ⊆ knownPrincipalNames P ps := by
  intro n hn
  obtain ⟨q, hq, rfl⟩ := List.mem_map.1 hn
  rw [List.mem_filter] at hq
  obtain ⟨p, hp, hpq⟩ := h q hq.1
  refine List.mem_map.2 ⟨p, List.mem_filter.2 ⟨hp, ?_⟩, ?_⟩
  · rw [scope_of_authored hpq]
    exact hq.2
  · rw [scope_of_authored hpq]

/-- **The checks depend on what was authored.** -/
theorem Clean.of_authored {db : Db} {c c' : RuntimePolicy} {o : Option Uuid}
    {ps qs : List RuntimePolicy} (h : Clean P db c o ps) (hc : c.authored = c'.authored)
    (hqs : AuthoredIn qs ps) (hps : AuthoredIn ps qs) : Clean P db c' o qs := by
  have hcons : ∀ {xs ys : List RuntimePolicy} {x y : RuntimePolicy}, y.authored = x.authored →
      AuthoredIn xs ys → AuthoredIn (x :: xs) (y :: ys) := by
    intro xs ys x y hxy hxs p hp
    rcases List.mem_cons.1 hp with rfl | hp
    · exact ⟨y, List.mem_cons_self, hxy⟩
    · obtain ⟨q, hq, hpq⟩ := hxs p hp
      exact ⟨q, List.mem_cons_of_mem _ hq, hpq⟩
  refine ⟨?_, fun p hp => ?_, ?_, ?_, h.acyclic.mono (delegations_subset P (hcons hc hqs))⟩
  · rw [← Validators.validate_authored, ← hc, Validators.validate_authored]
    exact h.valid
  · obtain ⟨q, hq, hqp⟩ := hqs p hp
    rw [← authoritySignature_of_authored hqp, ← authoritySignature_of_authored hc]
    exact h.distinct q hq
  · have hnames : ∀ n, n ∈ knownPrincipalNames P (c' :: qs) ↔ n ∈ knownPrincipalNames P (c :: ps) :=
      fun n => ⟨fun hn => knownPrincipalNames_subset P (hcons hc hqs) hn,
        fun hn => knownPrincipalNames_subset P (hcons hc.symm hps) hn⟩
    have hunknown : unknownDelegator P c' (c' :: qs) = unknownDelegator P c (c :: ps) := by
      simp only [unknownDelegator, delegatedBy_of_authored hc, hnames]
    rw [dbBroken, hunknown]
    exact h.inherits
  · have := h.principal
    simpa only [dbMissing, principalId, scope_of_authored hc] using this

end SafetyChecks

end PayReality
