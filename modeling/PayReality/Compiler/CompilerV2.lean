import Mathlib.Data.List.Dedup
import PayReality.Compiler.BundleBuilder
import PayReality.Compiler.ScopeOverlap
import PayReality.Policy.Validators

/-!
# The compiler

`compiler_v2/compiler_v2.py`: validation, the vocabulary, the conflicts between policies, and
then the bundle. A `CompileResult` has a bundle exactly when it has no errors.
-/

namespace PayReality

open ScopeOverlap

/-- `CompilerError`. -/
structure CompilerError where
  code : String
  message : String
  policyId : Option String := none
  path : Option String := none
  deriving DecidableEq, Repr

/-- What a domain adapter answers: which actions and which condition fields are known. -/
structure Vocabulary where
  isValidAction : String → Bool
  isValidField : String → Bool

structure CompileResult where
  bundle : Option PolicyBundle
  errors : List CompilerError

namespace CompilerV2

/-! ## The vocabulary -/

/-- `scope_vocabulary.KNOWN_SCOPES`. -/
def knownScopes : List String := ["vendor_payment", "purchase_order_create", "wire_transfer"]

def generalizationProofScopes : List String := ["disable_user", "supplier_bank_details_change"]

def knownIntentFields : List String := ["action", "amount", "currency", "resource"]

/-- `field.split(".", 1)[0]`. -/
def topLevel (field : String) : List Char := field.toList.takeWhile (· ≠ '.')

def isValidField (field : String) : Bool :=
  (Text.afterPrefix "context.".toList field.toList).isSome ||
  (Text.afterPrefix "enterprise_knowledge.".toList field.toList).isSome ||
  knownIntentFields.any fun f => f.toList = topLevel field

/-- `GENERIC_VOCABULARY`. -/
def genericVocabulary : Vocabulary :=
  ⟨fun a => a ∈ knownScopes ++ generalizationProofScopes, isValidField⟩

variable (vocabulary : Vocabulary)

def validatePolicyAgainstVocabulary (p : RuntimePolicy) : List CompilerError :=
  (if vocabulary.isValidAction p.scope.action then []
    else [⟨"INVALID_ACTION", "'" ++ p.scope.action ++ "' is not a recognized action for this domain",
      some p.id, some "scope.action"⟩]) ++
  (match p.scope.resource with
    | some r => if (Text.strip r.toList).isEmpty then
        [⟨"INVALID_RESOURCE", "scope.resource, if present, must not be blank", some p.id,
          some "scope.resource"⟩] else []
    | none => []) ++
  p.conditions.filterMap fun c =>
    if vocabulary.isValidField c.field then none
    else some ⟨"INVALID_FIELD",
      "'" ++ c.field ++ "' is not a recognized condition field for this domain", some p.id,
      some ("conditions." ++ c.field)⟩

/-! ## Conflicts -/

/-- `_has_contradictory_equality`. -/
def hasContradictoryEquality (p₁ p₂ : RuntimePolicy) : Bool :=
  p₁.conditions.any fun c₁ => c₁.operator = .eq && p₂.conditions.any fun c₂ =>
    c₂.operator = .eq && c₂.field = c₁.field && !Json.pyEq c₂.value c₁.value

def conflictError (p₁ p₂ : RuntimePolicy) : CompilerError :=
  let fields := (touchedFields p₁ p₂).insertionSort (· ≤ ·)
  let listed := String.intercalate ", " fields
  { code := "CONFLICTING_POLICY_STRUCTURE"
    message := "policies '" ++ p₁.id ++ "' and '" ++ p₂.id ++ "' both apply to principal '" ++
      p₁.scope.principal ++ "' action '" ++ p₁.scope.action ++ "' and their conditions (" ++
      (if listed = "" then "none" else listed) ++
      ") are not proven mutually exclusive -- some real Intent could match both"
    policyId := some p₁.id
    path := fields.head? }

/-- `policies_can_jointly_match(p1, p2) or _has_contradictory_equality(p1, p2)`. -/
def conflicting (p₁ p₂ : RuntimePolicy) : Except PyError Bool := do
  if ← policiesCanJointlyMatch .python p₁ p₂ then return true
  return hasContradictoryEquality p₁ p₂

/-- The inner loop: one policy against those after it. -/
def conflictsWith (p₁ : RuntimePolicy) : List RuntimePolicy → Except PyError (List CompilerError)
  | [] => .ok []
  | p₂ :: ps => do
    let found ← conflicting p₁ p₂
    let rest ← conflictsWith p₁ ps
    return if found then conflictError p₁ p₂ :: rest else rest

/-- Every pair of a group. -/
def groupConflicts : List RuntimePolicy → Except PyError (List CompilerError)
  | [] => .ok []
  | p :: ps => do return (← conflictsWith p ps) ++ (← groupConflicts ps)

/-- The principals and actions of a list, in the order of their first policies. -/
def scopeKeys (policies : List RuntimePolicy) : List (String × String) :=
  (policies.map fun p => (p.scope.principal, p.scope.action)).reverse.dedup.reverse

/-- The policies of one principal and action. -/
def group (policies : List RuntimePolicy) (key : String × String) : List RuntimePolicy :=
  policies.filter fun p => (p.scope.principal, p.scope.action) = key

def policyConflicts (policies : List RuntimePolicy) : Except PyError (List CompilerError) := do
  return (← (scopeKeys policies).mapM fun key => groupConflicts (group policies key)).flatten

/-! ## Compilation -/

/-- The errors of one policy alone. -/
def policyErrors (p : RuntimePolicy) : List CompilerError :=
  (Validators.validate p).map (fun e =>
    ⟨"INVALID_RUNTIME_POLICY", e.code ++ ": " ++ e.message, some p.id, some e.field⟩) ++
  validatePolicyAgainstVocabulary vocabulary p

/-- `compile_bundle`. -/
def compileBundle (policies : List RuntimePolicy) (bundleId : String) (bundleVersion : Int)
    (now : Timestamp) : Except PyError CompileResult := do
  let errors := policies.flatMap (policyErrors vocabulary) ++ (← policyConflicts policies)
  if errors.isEmpty then
    let bundle ← BundleBuilder.buildBundle policies bundleId bundleVersion now
    return ⟨some bundle, []⟩
  else return ⟨none, errors⟩

/-! ## What acceptance gives -/

variable {vocabulary} {policies : List RuntimePolicy}

theorem compileBundle_ok {bundleId : String} {bundleVersion : Int} {now : Timestamp}
    {b : PolicyBundle} {errors : List CompilerError}
    (h : compileBundle vocabulary policies bundleId bundleVersion now = .ok ⟨some b, errors⟩) :
    errors = [] ∧ (∀ p ∈ policies, policyErrors vocabulary p = []) ∧
      policyConflicts policies = .ok [] ∧
      BundleBuilder.buildBundle policies bundleId bundleVersion now = .ok b := by
  obtain ⟨conflicts, hc, h⟩ := bind_ok.1 h
  dsimp only at h
  split at h
  · next he =>
    obtain ⟨b', hb, h⟩ := bind_ok.1 h
    cases h
    simp only [List.isEmpty_iff, List.append_eq_nil_iff, List.flatMap_eq_nil_iff] at he
    exact ⟨rfl, he.1, he.2 ▸ hc, hb⟩
  · cases h

/-- Policies without errors, each with a rule, have a bundle. -/
theorem exists_bundle (vocabulary : Vocabulary) (policies : List RuntimePolicy)
    (he : policies.flatMap (policyErrors vocabulary) = [])
    (hc : policyConflicts policies = .ok [])
    (hg : ∃ rules, policies.mapM RegoGenerator.generatePolicyRule = .ok rules)
    (bundleId : String) (bundleVersion : Int) (now : Timestamp) :
    ∃ b, compileBundle vocabulary policies bundleId bundleVersion now = .ok ⟨some b, []⟩ := by
  obtain ⟨rules, hr⟩ := hg
  simp [compileBundle, hc, he, BundleBuilder.buildBundle, hr, bind, Except.bind, pure, Except.pure]

theorem policyErrors_nil {p : RuntimePolicy} (h : policyErrors vocabulary p = []) :
    Validators.validate p = [] ∧ validatePolicyAgainstVocabulary vocabulary p = [] := by
  simpa [policyErrors] using h

theorem buildBundle_ok {bundleId : String} {bundleVersion : Int} {now : Timestamp}
    {b : PolicyBundle}
    (h : BundleBuilder.buildBundle policies bundleId bundleVersion now = .ok b) :
    ∃ rules, policies.mapM RegoGenerator.generatePolicyRule = .ok rules ∧
      b.regoSource = BundleBuilder.regoSource policies rules ∧
      b.manifest = BundleBuilder.manifestOf policies bundleId bundleVersion now ∧
      b.bundleHash = BundleBuilder.hashOf b.regoSource b.manifest := by
  obtain ⟨rules, hr, h⟩ := bind_ok.1 h
  cases h
  exact ⟨rules, hr, rfl, rfl, rfl⟩

theorem conflictsWith_nil {p : RuntimePolicy} {ps : List RuntimePolicy}
    (h : conflictsWith p ps = .ok []) : ∀ q ∈ ps, conflicting p q = .ok false := by
  induction ps with
  | nil => simp
  | cons q ps ih =>
    obtain ⟨found, hf, h⟩ := bind_ok.1 h
    obtain ⟨rest, hr, h⟩ := bind_ok.1 h
    cases found with
    | true => cases h
    | false =>
      obtain rfl : rest = [] := by simpa using Except.ok.inj h
      exact List.forall_mem_cons.2 ⟨hf, ih hr⟩

theorem groupConflicts_nil {ps : List RuntimePolicy} (h : groupConflicts ps = .ok []) :
    ps.Pairwise fun p q => conflicting p q = .ok false := by
  induction ps with
  | nil => exact .nil
  | cons p ps ih =>
    obtain ⟨xs, hx, h⟩ := bind_ok.1 h
    obtain ⟨ys, hy, h⟩ := bind_ok.1 h
    obtain ⟨rfl, rfl⟩ := List.append_eq_nil_iff.1 (Except.ok.inj h)
    exact .cons (conflictsWith_nil hx) (ih hy)

/-- Two accepted policies for one principal and action do not conflict. -/
theorem policyConflicts_nil (h : policyConflicts policies = .ok []) :
    policies.Pairwise fun p q =>
      p.scope.principal = q.scope.principal → p.scope.action = q.scope.action →
        conflicting p q = .ok false := by
  obtain ⟨found, hf, h⟩ := bind_ok.1 h
  have hnil : ∀ es ∈ found, es = [] := List.flatten_eq_nil_iff.1 (Except.ok.inj h)
  rw [List.pairwise_iff_forall_sublist]
  intro p q hpq hprincipal haction
  let key := (p.scope.principal, p.scope.action)
  have hmem : key ∈ scopeKeys policies := by
    simp only [scopeKeys, List.mem_reverse, List.mem_dedup, List.mem_map]
    exact ⟨p, hpq.subset List.mem_cons_self, rfl⟩
  obtain ⟨es, hes, hg⟩ := mapM_ok_mem hf hmem
  rw [hnil es hes] at hg
  have hsub : [p, q].Sublist (group policies key) := by
    have := hpq.filter fun r => decide ((r.scope.principal, r.scope.action) = key)
    rwa [List.filter_eq_self.2 (by simp [key, hprincipal, haction])] at this
  exact List.pairwise_iff_forall_sublist.1 (groupConflicts_nil hg) hsub

/-! ## Acceptance of a set

A list is accepted if each policy is, and every two of it. -/

/-- A policy without errors, with a rule. -/
def acceptable (vocabulary : Vocabulary) (p : RuntimePolicy) : Bool :=
  (policyErrors vocabulary p).isEmpty && (RegoGenerator.generatePolicyRule p).isOk

/-- Two policies that do not conflict, the first of which is listed before the second. -/
def compatible (p q : RuntimePolicy) : Bool :=
  p.scope.principal ≠ q.scope.principal || p.scope.action ≠ q.scope.action ||
    match conflicting p q with
    | .ok found => !found
    | .error _ => false

theorem compatible_conflicting {p q : RuntimePolicy} (h : compatible p q = true)
    (hprincipal : p.scope.principal = q.scope.principal) (haction : p.scope.action = q.scope.action) :
    conflicting p q = .ok false := by
  unfold compatible at h
  cases hc : conflicting p q with
  | error e => simp [hc, hprincipal, haction] at h
  | ok found => simpa [hc, hprincipal, haction] using h

theorem conflictsWith_eq_nil {p : RuntimePolicy} {ps : List RuntimePolicy}
    (h : ∀ q ∈ ps, conflicting p q = .ok false) : conflictsWith p ps = .ok [] := by
  induction ps with
  | nil => rfl
  | cons q ps ih =>
    rw [List.forall_mem_cons] at h
    rw [conflictsWith, h.1, ih h.2]
    rfl

theorem groupConflicts_eq_nil {ps : List RuntimePolicy}
    (h : ps.Pairwise fun p q => conflicting p q = .ok false) : groupConflicts ps = .ok [] := by
  induction ps with
  | nil => rfl
  | cons p ps ih =>
    rw [List.pairwise_cons] at h
    rw [groupConflicts, conflictsWith_eq_nil h.1, ih h.2]
    rfl

theorem policyConflicts_eq_nil (h : policies.Pairwise fun p q => compatible p q = true) :
    policyConflicts policies = .ok [] := by
  have hgroup : ∀ key, groupConflicts (group policies key) = .ok [] := by
    intro key
    refine groupConflicts_eq_nil ((h.filter _).imp_of_mem fun {p q} hp hq hpq => ?_)
    have hkey : ∀ r ∈ group policies key, (r.scope.principal, r.scope.action) = key := fun r hr => by
      simpa using (List.mem_filter.1 hr).2
    obtain ⟨hprincipal, haction⟩ := Prod.ext_iff.1 ((hkey p hp).trans (hkey q hq).symm)
    exact compatible_conflicting hpq hprincipal haction
  have hall : ∀ keys : List (String × String), keys.mapM (fun key => groupConflicts (group policies key)) =
      .ok (keys.map fun _ => []) := by
    intro keys
    induction keys with
    | nil => rfl
    | cons key keys ih =>
      rw [List.mapM_cons, hgroup, ih]
      rfl
  rw [policyConflicts, hall]
  show Except.ok _ = _
  congr 1
  exact List.flatten_eq_nil_iff.2 (by simp)

/-- **A set that is accepted has a bundle.** -/
theorem exists_bundle_of_acceptable (hp : ∀ p ∈ policies, acceptable vocabulary p = true)
    (hc : policies.Pairwise fun p q => compatible p q = true) (bundleId : String)
    (bundleVersion : Int) (now : Timestamp) :
    ∃ b, compileBundle vocabulary policies bundleId bundleVersion now = .ok ⟨some b, []⟩ := by
  have herrors : policies.flatMap (policyErrors vocabulary) = [] := by
    refine List.flatMap_eq_nil_iff.2 fun p hpmem => ?_
    have := hp p hpmem
    rw [acceptable, Bool.and_eq_true, List.isEmpty_iff] at this
    exact this.1
  have hrules : ∃ rules, policies.mapM RegoGenerator.generatePolicyRule = .ok rules := by
    clear hc herrors
    induction policies with
    | nil => exact ⟨[], rfl⟩
    | cons p ps ih =>
      rw [List.forall_mem_cons] at hp
      obtain ⟨rules, hrules⟩ := ih hp.2
      have hrule := hp.1
      rw [acceptable, Bool.and_eq_true] at hrule
      cases hg : RegoGenerator.generatePolicyRule p with
      | error e =>
        rw [hg] at hrule
        cases hrule.2
      | ok rule =>
        refine ⟨rule :: rules, ?_⟩
        rw [List.mapM_cons, hg, hrules]
        rfl
  exact exists_bundle vocabulary policies herrors (policyConflicts_eq_nil hc) hrules bundleId
    bundleVersion now

end CompilerV2

end PayReality
