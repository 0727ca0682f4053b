import PayReality.Compiler.Meaning
import PayReality.Decision.IntentService

/-!
# Fields that were not supplied

The generator relies on a missing key being undefined in Rego. The input that production sends has
no missing key: what a caller leaves out is `null`, which is a value, and the lowest of all.

**Main result** `compileBundle_missingField`: a policy with a condition on an omitted field stays
out of the decision exactly when some such condition rejects `null`, or the policy fails for
another reason.
-/

namespace PayReality

open Rego IntentService

/-! ## `null` in Rego's order -/

namespace Json

theorem null_lt {v : Json} (h : isNull v = false) : Json.null.key false < v.key false := by
  have hlt : ∀ {rank : ℕ} {q : ℚ} {s : String} {ts : List Token}, 1 < rank →
      [Token.mk 1 0 ""] < Token.mk rank q s :: ts := fun hrank =>
    List.cons_lt_cons_iff.2 (.inl (Prod.Lex.toLex_lt_toLex.2 (.inl hrank)))
  cases v with
  | null => cases h
  | bool | int | float | str | arr | obj => exact hlt (by decide)

theorem isNull_iff {v : Json} : isNull v = true ↔ v = .null := by
  cases v <;> simp [isNull]

theorem regoEq_null {v : Json} : Json.null.regoEq v = isNull v := by
  cases h : isNull v with
  | true => simp [isNull_iff.1 h, regoEq]
  | false => simpa [regoEq] using (null_lt h).ne

theorem regoLe_null_left (v : Json) : Json.null.regoLe v = true := by
  rw [regoLe_iff]
  cases h : isNull v with
  | true => rw [isNull_iff.1 h]
  | false => exact (null_lt h).le

theorem regoLe_null_right {v : Json} : v.regoLe .null = isNull v := by
  cases h : isNull v with
  | true => simp [isNull_iff.1 h, regoLe]
  | false => simpa [regoLe] using null_lt h

theorem regoLt_null_left {v : Json} : Json.null.regoLt v = !isNull v := by
  cases h : isNull v with
  | true => simp [isNull_iff.1 h, regoLt]
  | false => simpa [regoLt] using null_lt h

theorem regoLt_null_right (v : Json) : v.regoLt .null = false := by
  have := regoLe_null_left v
  rw [regoLe_iff] at this
  simpa [regoLt] using this

end Json

/-! ## Conditions on omitted fields -/

/-- The caller left the field out. -/
def Intent.omits (i : Intent) (field : String) : Prop :=
  field = "amount" ∧ i.amount = none ∨ field = "currency" ∧ i.currency = none ∨
    field = "resource" ∧ i.resource = none

/-- A comparison, not an existence check, of a field that was left out. -/
def Intent.lacks (i : Intent) (c : Condition) : Prop := c.operator ≠ .exist ∧ i.omits c.field

/-- The comparisons that `null` fails. -/
def Condition.rejectsNull (c : Condition) : Bool :=
  match c.operator with
  | .gt | .contains => true
  | .gte | .eq => !isNull c.value
  | .lt | .neq => isNull c.value
  | .isIn =>
    match c.value with
    | .arr vs => !vs.any isNull
    | _ => true
  | .lte | .exist => false

theorem relates_null (c : Condition) (h : c.operator ≠ .exist) :
    c.operator.relates .null c.value = !c.rejectsNull := by
  rcases c with ⟨field, op, v⟩
  cases op with
  | lte => exact Json.regoLe_null_left v
  | gte => simp [Operator.relates, Condition.rejectsNull, Json.regoLe_null_right]
  | eq => simp [Operator.relates, Condition.rejectsNull, Json.regoEq_null]
  | neq => simp [Operator.relates, Condition.rejectsNull, Json.regoEq_null]
  | lt => simp [Operator.relates, Condition.rejectsNull, Json.regoLt_null_left]
  | gt => simp [Operator.relates, Condition.rejectsNull, Json.regoLt_null_right]
  | isIn =>
    cases v with
    | arr vs =>
      have : (Json.regoEq .null) = isNull := funext fun v => Json.regoEq_null
      simp [Operator.relates, Condition.rejectsNull, memberOf, this]
    | _ => rfl
  | contains => rfl
  | exist => exact absurd rfl h

/-- What the input says of a field that was left out. -/
theorem lookup_omitted {db : Db} {P : Platform} {agent : Agent} {now : Timestamp} {intent : Intent}
    {version : ℕ} {field : String} (h : intent.omits field) :
    (opaInput db P agent now intent version).lookup (fieldPath field) = some .null := by
  rcases h with ⟨rfl, h⟩ | ⟨rfl, h⟩ | ⟨rfl, h⟩
  · have hpath : fieldPath "amount" = ["intent", "amount"] := by decide
    simp [hpath, opaInput, Engine.buildOpaInput, intentSection, Json.lookup, Json.get?, h,
      Json.ofFloat]
  · have hpath : fieldPath "currency" = ["intent", "currency"] := by decide
    simp [hpath, opaInput, Engine.buildOpaInput, intentSection, Json.lookup, Json.get?, h,
      Json.ofText]
  · have hpath : fieldPath "resource" = ["intent", "resource"] := by decide
    simp [hpath, opaInput, Engine.buildOpaInput, intentSection, Json.lookup, Json.get?, h,
      Json.ofText]

/-- A condition fails on an input: by its meaning, or by the opposite of it in a blind spot. -/
def Condition.fails (c : Condition) (input : Json) : Prop :=
  c.holds input = false ↔ ¬ blindSpot c input

theorem conditionExpr_fails (c : Condition) (input : Json) (rules sets) :
    (conditionExpr c).holds rules sets input = false ↔ c.fails input := by
  have := conditionExpr_holds c input rules sets
  unfold Condition.fails
  rw [← this]
  cases (conditionExpr c).holds rules sets input <;> cases c.holds input <;> simp

/-- A policy fails although a field was left out: `null` fails one of the comparisons of omitted
fields, or the scope or another condition fails. -/
def failsOmitting (p : RuntimePolicy) (intent : Intent) (input : Json) : Prop :=
  (∃ c ∈ p.conditions, intent.lacks c ∧ c.rejectsNull = true) ∨
    p.scope.matches input = false ∨ ∃ c ∈ p.conditions, ¬ intent.lacks c ∧ c.fails input

section Production

variable {db : Db} {P : Platform} {agent : Agent} {now : Timestamp} {intent : Intent} {version : ℕ}

theorem fails_of_lacks {c : Condition} (h : intent.lacks c) :
    c.fails (opaInput db P agent now intent version) ↔ c.rejectsNull = true := by
  have hnot : ¬ blindSpot c (opaInput db P agent now intent version) := fun hb => h.1 hb.1
  have hholds : c.holds (opaInput db P agent now intent version) = !c.rejectsNull := by
    simp only [Condition.holds, h.1, if_false, lookup_omitted h.2, Option.any_some]
    exact relates_null c h.1
  simp [Condition.fails, hnot, hholds]

theorem ruleHolds_omitting (p : RuntimePolicy) :
    ruleHolds p (opaInput db P agent now intent version) = false ↔
      failsOmitting p intent (opaInput db P agent now intent version) := by
  rw [ruleHolds_eq, Bool.and_eq_false_iff, List.all_eq_false]
  simp only [Bool.not_eq_true, conditionExpr_fails]
  constructor
  · rintro (hscope | ⟨c, hc, hfails⟩)
    · exact .inr (.inl hscope)
    · by_cases hl : intent.lacks c
      · exact .inl ⟨c, hc, hl, (fails_of_lacks hl).1 hfails⟩
      · exact .inr (.inr ⟨c, hc, hl, hfails⟩)
  · rintro (⟨c, hc, hl, hnull⟩ | hscope | ⟨c, hc, -, hfails⟩)
    · exact .inr ⟨c, hc, (fails_of_lacks hl).2 hnull⟩
    · exact .inl hscope
    · exact .inr ⟨c, hc, hfails⟩

/-- **Missing fields do not authorise exactly when** the spliced fields are identifiers, so that
the text is the policy's rule, and the policy fails although the field was left out. -/
theorem compileBundle_missingField {vocabulary : Vocabulary} {ps : List RuntimePolicy}
    {bundleId : String} {bundleVersion : Int} {compiledAt : Timestamp} {b : PolicyBundle}
    {errors : List CompilerError}
    (h : CompilerV2.compileBundle vocabulary ps bundleId bundleVersion compiledAt
      = .ok ⟨some b, errors⟩)
    {p : RuntimePolicy} (_hp : p ∈ ps) (_hlacks : ∃ c ∈ p.conditions, intent.lacks c) :
    (read b.regoSource = (intendedModule ps).lines ∧
        ruleHolds p (opaInput db P agent now intent version) = false) ↔
      (∀ q ∈ ps, plainFields q) ∧
        failsOmitting p intent (opaInput db P agent now intent version) := by
  obtain ⟨-, -, -, hb⟩ := CompilerV2.compileBundle_ok h
  obtain ⟨rules, hrules, hsource, -⟩ := CompilerV2.buildBundle_ok hb
  rw [hsource, read_regoSource hrules, ruleHolds_omitting]

end Production

/-! A payment without an amount, which a floor on the amount rejects and a cap lets through. -/

def plainPlatform : Platform :=
  ⟨fun _ => none, toString, toString, toString, id, fun name pattern => name = pattern⟩

def opsOnly : Db := { principals := [⟨1, "ops", none, none, none, none, none⟩] }

def opsAgent : Agent := ⟨2, 1, .active⟩

def noAmount : Intent where
  id := 0
  agentId := 2
  correlationId := none
  action := "vendor_payment"
  amount := none
  currency := none
  counterparty := none
  resource := none
  source := .runtime
  context := []
  nonce := "n"
  requestedAt := 0

theorem compileBundle_missingField_floor :
    ∃ b, CompilerV2.compileBundle CompilerV2.genericVocabulary
        [paymentPolicy [⟨"amount", .gte, .int 100⟩]] "b" 1 0 = .ok ⟨some b, []⟩ ∧
      ((read b.regoSource = (intendedModule [paymentPolicy [⟨"amount", .gte, .int 100⟩]]).lines ∧
          ruleHolds (paymentPolicy [⟨"amount", .gte, .int 100⟩])
            (opaInput opsOnly plainPlatform opsAgent 0 noAmount 1) = false) ↔
        (∀ q ∈ [paymentPolicy [⟨"amount", .gte, .int 100⟩]], plainFields q) ∧
          failsOmitting (paymentPolicy [⟨"amount", .gte, .int 100⟩]) noAmount
            (opaInput opsOnly plainPlatform opsAgent 0 noAmount 1)) := by
  have hok : ∃ b, CompilerV2.compileBundle CompilerV2.genericVocabulary
      [paymentPolicy [⟨"amount", .gte, .int 100⟩]] "b" 1 0 = .ok ⟨some b, []⟩ := ⟨_, rfl⟩
  obtain ⟨b, h⟩ := hok
  refine ⟨b, h, compileBundle_missingField h List.mem_cons_self ⟨_, List.mem_cons_self, ?_⟩⟩
  exact ⟨by simp, .inl ⟨rfl, rfl⟩⟩

theorem compileBundle_missingField_cap :
    ∃ b, CompilerV2.compileBundle CompilerV2.genericVocabulary
        [paymentPolicy [⟨"amount", .lte, .int 100⟩]] "b" 1 0 = .ok ⟨some b, []⟩ ∧
      ruleHolds (paymentPolicy [⟨"amount", .lte, .int 100⟩])
        (opaInput opsOnly plainPlatform opsAgent 0 noAmount 1) = true := by
  have hok : ∃ b, CompilerV2.compileBundle CompilerV2.genericVocabulary
      [paymentPolicy [⟨"amount", .lte, .int 100⟩]] "b" 1 0 = .ok ⟨some b, []⟩ := ⟨_, rfl⟩
  obtain ⟨b, h⟩ := hok
  exact ⟨b, h, by decide +kernel⟩

end PayReality
