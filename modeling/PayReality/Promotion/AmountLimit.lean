import PayReality.Promotion.CompilationGate

/-!
# The limit that a candidate states

`ai_policy_builder_service._infer_amount_limit`: the value of the first condition that bounds the
amount from above, as a `float`.
-/

namespace PayReality

/-- A Python `float`. -/
inductive PyFloat where
  | finite (q : ℚ)
  | infinite (negative : Bool)
  | nan
  deriving DecidableEq, Repr

/-- `!=` of two limits: nothing equals a `nan`. -/
def PyFloat.differ : Option PyFloat → Option PyFloat → Bool
  | some .nan, _ | _, some .nan => true
  | x, y => x ≠ y

theorem PyFloat.differ_of_isSome {x y : Option PyFloat} (h : x.isSome ≠ y.isSome) :
    differ x y = true := by
  have hne : x ≠ y := fun hxy => h (hxy ▸ rfl)
  unfold differ
  split
  · rfl
  · rfl
  · exact decide_eq_true hne

/-- `OverflowError`: an integer is too large for a `float`. -/
structure OverflowError where
  deriving DecidableEq, Repr

/-- What depends on the format of a `float`. -/
structure FloatFormat where
  /-- `float(i)`; nothing where it overflows. -/
  ofInt : Int → Option PyFloat
  /-- `float(s)`; nothing where it raises `ValueError`. -/
  ofText : String → Option PyFloat
  /-- `float` of a `Decimal`. -/
  ofDecimal : ℚ → PyFloat

/-- Every integer is kept as it is, and no text is read. -/
def exactFloats : FloatFormat where
  ofInt i := some (.finite i)
  ofText _ := none
  ofDecimal := .finite

namespace AmountLimit

variable (F : FloatFormat)

/-- `float(v)`; nothing where it raises `TypeError` or `ValueError`. -/
def float : Json → Except OverflowError (Option PyFloat)
  | .bool b => .ok (some (.finite b.toNat))
  | .int i =>
    match F.ofInt i with
    | some x => .ok (some x)
    | none => .error {}
  | .float q => .ok (some (.finite q))
  | .str s => .ok (F.ofText s)
  | .null | .arr _ | .obj _ => .ok none

/-- The condition bounds the amount from above. -/
def boundsAmount (c : Json) : Bool :=
  CompilationGate.isOneOf ["amount"] (c.get? "field") &&
    CompilationGate.isOneOf ["<", "<="] (c.get? "operator")

/-- `_infer_amount_limit`. -/
def inferAmountLimit (content : Json) : Except OverflowError (Option PyFloat) :=
  match (CompilationGate.items content "conditions").find? boundsAmount with
  | some c => float F ((c.get? "value").getD .null)
  | none => .ok none

end AmountLimit

end PayReality
