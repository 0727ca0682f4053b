import PayReality.Policy.RuntimePolicy

/-!
# Structural validation

`domain/runtime_policy/validators.py`: every check returns the list of its errors and none
raises. The numeric operators need a number that is not a boolean, `in` needs a list, and
every other operator takes any value.
-/

namespace PayReality

/-- `validators.ValidationError`. -/
structure ValidationError where
  field : String
  code : String
  message : String
  deriving DecidableEq, Repr

namespace Validators

def validateRequiredFields (p : RuntimePolicy) : List ValidationError :=
  (if Text.blank p.id then [⟨"id", "REQUIRED_FIELD_MISSING", "id must not be empty"⟩] else []) ++
  (if Text.blank p.name then [⟨"name", "REQUIRED_FIELD_MISSING", "name must not be empty"⟩]
    else []) ++
  (if p.version < 1 then [⟨"version", "INVALID_VERSION", "version must be 1 or greater"⟩] else [])

def validateScope (p : RuntimePolicy) : List ValidationError :=
  (if Text.blank p.scope.principal then
    [⟨"scope.principal", "INVALID_SCOPE", "scope.principal must not be empty"⟩] else []) ++
  (if Text.blank p.scope.action then
    [⟨"scope.action", "INVALID_SCOPE", "scope.action must not be empty"⟩] else [])

/-- `_NUMERIC_OPERATORS`. -/
def isNumericOperator : Operator → Bool
  | .lte | .gte | .lt | .gt => true
  | _ => false

/-- `isinstance(value, (list, tuple))`. -/
def isList : Json → Bool
  | .arr _ => true
  | _ => false

/-- `_validate_operator_value_shape`. The message ends with the `repr` of the value, which no
caller reads back; it is left out. -/
def validateOperatorValueShape (path : String) (c : Condition) : List ValidationError :=
  if isNumericOperator c.operator then
    if c.value.isNumeric then []
    else [⟨path ++ ".value", "OPERATOR_VALUE_MISMATCH",
      "operator '" ++ c.operator.value ++ "' requires a numeric value, got "⟩]
  else if c.operator = .isIn then
    if isList c.value then []
    else [⟨path ++ ".value", "OPERATOR_VALUE_MISMATCH",
      "operator 'in' requires a list value, got "⟩]
  else []

/-- `(condition.field, str(condition.operator), repr(condition.value))`. -/
def dedupKey (c : Condition) : String × Operator × List Json.Token :=
  (c.field, c.operator, c.value.repr)

/-- The loop of `_validate_conditions`, from index `idx` with the keys seen so far. -/
def validateConditionsFrom (idx : Nat) (seen : List (String × Operator × List Json.Token)) :
    List Condition → List ValidationError
  | [] => []
  | c :: cs =>
    let path := "conditions.all[" ++ toString idx ++ "]"
    (if Text.blank c.field then
      [⟨path ++ ".field", "INVALID_FIELD", "condition field must not be empty"⟩] else []) ++
    validateOperatorValueShape path c ++
    (if dedupKey c ∈ seen then
      [⟨path, "DUPLICATE_CONDITION",
        "duplicate condition: " ++ c.field ++ " " ++ c.operator.value ++ " "⟩] else []) ++
    validateConditionsFrom (idx + 1) (dedupKey c :: seen) cs

def validateConditions (p : RuntimePolicy) : List ValidationError :=
  validateConditionsFrom 0 [] p.conditions

/-- The loop of `_validate_metadata` over the tags. -/
def validateTags (seen : List String) : List String → List ValidationError
  | [] => []
  | t :: ts =>
    if Text.blank t then
      ⟨"metadata.tags", "INVALID_METADATA", "tags must not be empty strings"⟩ :: validateTags seen ts
    else
      (if t ∈ seen then [⟨"metadata.tags", "INVALID_METADATA", "duplicate tag: '" ++ t ++ "'"⟩]
        else []) ++ validateTags (t :: seen) ts

def validateMetadata (p : RuntimePolicy) : List ValidationError :=
  validateTags [] p.metadata.tags

/-- `validators.validate`, as the list of its errors. -/
def validate (p : RuntimePolicy) : List ValidationError :=
  validateRequiredFields p ++ validateScope p ++ validateConditions p ++ validateMetadata p

/-! ## What acceptance gives -/

theorem validateConditionsFrom_numeric {idx : Nat} {seen cs}
    (h : validateConditionsFrom idx seen cs = []) {c : Condition} (hc : c ∈ cs)
    (hop : isNumericOperator c.operator = true) : c.value.isNumeric = true := by
  induction cs generalizing idx seen with
  | nil => cases hc
  | cons d ds ih =>
    simp only [validateConditionsFrom, List.append_eq_nil_iff] at h
    obtain ⟨⟨⟨-, hshape⟩, -⟩, hrest⟩ := h
    rcases List.mem_cons.1 hc with rfl | hc
    · simpa [validateOperatorValueShape, hop] using hshape
    · exact ih hrest hc

/-- A numeric operator of an accepted policy compares with a number. -/
theorem validate_numeric {p : RuntimePolicy} (h : validate p = []) {c : Condition}
    (hc : c ∈ p.conditions) (hop : isNumericOperator c.operator = true) :
    c.value.isNumeric = true := by
  simp only [validate, List.append_eq_nil_iff] at h
  exact validateConditionsFrom_numeric h.1.2 hc hop

/-- Validation reads only what was authored. -/
theorem validate_authored (p : RuntimePolicy) : validate p.authored = validate p := rfl

end Validators

end PayReality
