import PayReality.Compiler.RuleNames

/-!
# Compilation preserves meaning

OPA takes the rules of one name together: the name of a policy's rule holds if the rule of any policy
of that name does. So a bundle says what its policies mean on an input only where policies that share a
name match the input alike.

**Main result** `compileBundle_meaning`: an accepted bundle says what its policies mean on an input
exactly when what is spliced into it are identifiers that OPA takes, `contains` is given text, policies
of one name match alike, and no policy is decided by its blind spots alone.
-/

namespace PayReality

open Rego RegoGenerator

/-- The bundle says what its policies mean: its text is the intended module, OPA compiles it, and on
the input the rule of each policy holds exactly when the policy matches. -/
structure PreservesMeaning (r : Reserved) (ps : List RuntimePolicy) (b : PolicyBundle)
    (input : Json) : Prop where
  readAs : read b.regoSource = (intendedModule ps).lines
  legal : (intendedModule ps).legal r
  meaning : ∀ p ∈ ps, (intendedModule ps).base input (ruleNameForPolicy p.id) = p.matches input

/-- The input and the policies keep clear of everything that parts the text from the meaning. -/
structure FaithfulAt (r : Reserved) (ps : List RuntimePolicy) (input : Json) : Prop where
  /-- What is spliced into the text are identifiers. -/
  plain : ∀ p ∈ ps, plainFields p
  accepted : ∀ p ∈ ps, ∀ c ∈ p.conditions, accepted r c
  /-- Policies whose rules have one name match alike. -/
  agree : ∀ p ∈ ps, ∀ q ∈ ps, AlikeIds p.id q.id → p.matches input = q.matches input
  /-- A policy that its blind spots decide matches, and so does another one of its name, which they do
  not decide. -/
  settled : ∀ p ∈ ps, ¬ settled p input →
    p.matches input = true ∧ ∃ q ∈ ps, AlikeIds q.id p.id ∧ settled q input

variable {ps : List RuntimePolicy} {input : Json}

theorem base_ruleName (p : RuntimePolicy) :
    (intendedModule ps).base input (ruleNameForPolicy p.id) = true ↔
      ∃ q ∈ ps, AlikeIds q.id p.id ∧ ruleHolds q input = true := by
  rw [base_iff, nameHolds]
  simp only [ruleName_eq_iff]

/-- **The rules of a module hold as its policies match exactly when** policies of one name match alike,
and none is decided by its blind spots alone. -/
theorem base_eq_matches : (∀ p ∈ ps, (intendedModule ps).base input (ruleNameForPolicy p.id) =
      p.matches input) ↔
    (∀ p ∈ ps, ∀ q ∈ ps, AlikeIds p.id q.id → p.matches input = q.matches input) ∧
      ∀ p ∈ ps, ¬ settled p input →
        p.matches input = true ∧ ∃ q ∈ ps, AlikeIds q.id p.id ∧ settled q input := by
  have hrefl : ∀ id, AlikeIds id id := fun id => (ruleName_eq_iff id id).1 rfl
  constructor
  · intro h
    have hagree : ∀ p ∈ ps, ∀ q ∈ ps, AlikeIds p.id q.id → p.matches input = q.matches input := by
      intro p hp q hq halike
      rw [← h p hp, ← h q hq, (ruleName_eq_iff p.id q.id).2 halike]
    refine ⟨hagree, fun p hp hblind => ?_⟩
    have hparts : ruleHolds p input ≠ p.matches input := fun hsame =>
      hblind ((ruleHolds_iff_settled p input).1 hsame)
    have hmatches : p.matches input = true := by
      by_contra hno
      have hholds : ruleHolds p input = true := by
        cases hrule : ruleHolds p input with
        | true => rfl
        | false => exact absurd (hrule.trans (eq_false_of_ne_true hno).symm) hparts
      exact hno ((h p hp).symm.trans ((base_ruleName p).2 ⟨p, hp, hrefl _, hholds⟩))
    refine ⟨hmatches, ?_⟩
    obtain ⟨q, hq, halike, hholds⟩ := (base_ruleName p).1 ((h p hp).trans hmatches)
    refine ⟨q, hq, halike, (ruleHolds_iff_settled q input).1 (hholds.trans ?_)⟩
    rw [hagree q hq p hp halike, hmatches]
  · rintro ⟨hagree, hsettled⟩ p hp
    rw [Bool.eq_iff_iff, base_ruleName]
    constructor
    · rintro ⟨q, hq, halike, hholds⟩
      rw [← hagree q hq p hp halike]
      by_cases hq' : settled q input
      · exact (ruleHolds_iff_settled q input).2 hq' ▸ hholds
      · exact (hsettled q hq hq').1
    · intro hmatches
      by_cases hp' : settled p input
      · exact ⟨p, hp, hrefl _, ((ruleHolds_iff_settled p input).2 hp').trans hmatches⟩
      · obtain ⟨-, q, hq, halike, hq'⟩ := hsettled p hp hp'
        refine ⟨q, hq, halike, ((ruleHolds_iff_settled q input).2 hq').trans ?_⟩
        rw [hagree q hq p hp halike, hmatches]

/-- **Compilation preserves meaning exactly when** the spliced fields are identifiers that OPA takes,
`contains` is given text, policies of one name match alike, and no policy is decided by its blind spots
alone. -/
theorem compileBundle_meaning (r : Reserved) {vocabulary : Vocabulary} {ps : List RuntimePolicy}
    {bundleId : String} {bundleVersion : Int} {now : Timestamp} {b : PolicyBundle}
    {errors : List CompilerError}
    (h : CompilerV2.compileBundle vocabulary ps bundleId bundleVersion now = .ok ⟨some b, errors⟩)
    (input : Json) : PreservesMeaning r ps b input ↔ FaithfulAt r ps input := by
  obtain ⟨-, -, -, hb⟩ := CompilerV2.compileBundle_ok h
  obtain ⟨rules, hrules, hsource, -⟩ := CompilerV2.buildBundle_ok hb
  have hread := read_regoSource hrules
  rw [← hsource] at hread
  constructor
  · rintro ⟨hr, hl, hm⟩
    obtain ⟨hagree, hsettled⟩ := base_eq_matches.1 hm
    exact ⟨hread.1 hr, (intendedModule_legal r ps).1 hl, hagree, hsettled⟩
  · rintro ⟨hp, ha, hagree, hsettled⟩
    exact ⟨hread.2 hp, (intendedModule_legal r ps).2 ha, base_eq_matches.2 ⟨hagree, hsettled⟩⟩

/-! A policy on an amount, one whose field has a hyphen, which is written as a subtraction, and two
whose ids have one name. -/

/-- A payment of 50. -/
def paymentInput : Json :=
  .obj [("intent", .obj [("action", .str "vendor_payment"), ("amount", .int 50)]),
    ("agent", .obj [("acting_for_principal_id", .str "ops")])]

theorem compileBundle_meaning_cap :
    ∃ b, CompilerV2.compileBundle CompilerV2.genericVocabulary
        [paymentPolicy [⟨"amount", .lte, .int 100⟩]] "b" 1 0 = .ok ⟨some b, []⟩ ∧
      PreservesMeaning noReserved [paymentPolicy [⟨"amount", .lte, .int 100⟩]] b paymentInput ∧
      (paymentPolicy [⟨"amount", .lte, .int 100⟩]).matches paymentInput = true := by
  have hok : ∃ b, CompilerV2.compileBundle CompilerV2.genericVocabulary
      [paymentPolicy [⟨"amount", .lte, .int 100⟩]] "b" 1 0 = .ok ⟨some b, []⟩ := ⟨_, rfl⟩
  obtain ⟨b, h⟩ := hok
  refine ⟨b, h, (compileBundle_meaning noReserved h _).2 ⟨?_, ?_, ?_, ?_⟩, by decide +kernel⟩
  · have hkeys : ∀ k ∈ fieldKeys "amount", isIdentifier k.toList = true := by decide +kernel
    rintro p hp c hc -
    rw [List.mem_singleton.1 hp] at hc
    rw [List.mem_singleton.1 hc]
    exact hkeys
  · simp [accepted, noReserved, paymentPolicy]
  · simp
  · simp [settled, blindSpot, paymentPolicy]

theorem compileBundle_hyphen :
    ∃ b, CompilerV2.compileBundle CompilerV2.genericVocabulary
        [paymentPolicy [⟨"context.risk-score", .lte, .int 50⟩]] "b" 1 0 = .ok ⟨some b, []⟩ ∧
      ¬ PreservesMeaning noReserved [paymentPolicy [⟨"context.risk-score", .lte, .int 50⟩]] b
        paymentInput := by
  have hok : ∃ b, CompilerV2.compileBundle CompilerV2.genericVocabulary
      [paymentPolicy [⟨"context.risk-score", .lte, .int 50⟩]] "b" 1 0 = .ok ⟨some b, []⟩ :=
    ⟨_, rfl⟩
  obtain ⟨b, h⟩ := hok
  refine ⟨b, h, fun hp => ?_⟩
  have hplain := plain_of_read hp.readAs _ List.mem_cons_self _ List.mem_cons_self
    (by simp [splicesField]) "risk-score" (by decide)
  exact absurd hplain (by decide)

end PayReality
