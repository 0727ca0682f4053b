import PayReality.Policy.RuntimePolicy

/-!
# Whether two policies can both match

`compiler_v2/scope_overlap.py`. The comparisons are a parameter: the code runs the check with
Python's, and the same check with Rego's comparisons says what it would have to be for the
rules that are evaluated.
-/

namespace PayReality.ScopeOverlap

/-! ## Comparisons -/

/-- How the values of conditions compare. -/
structure ValueOrder where
  eq : Json → Json → Bool
  /-- `<`; may raise. -/
  lt : Json → Json → Except PyError Bool
  /-- Whether a set can hold the value. -/
  hashable : Json → Bool

/-- Python's comparisons. -/
def ValueOrder.python : ValueOrder := ⟨Json.pyEq, Json.pyLt, Json.hashable⟩

/-- Rego's comparisons. -/
def ValueOrder.rego : ValueOrder := ⟨Json.regoEq, fun x y => .ok (Json.regoLt x y), fun _ => true⟩

variable (V : ValueOrder)

/-- `value in s`; an unhashable value raises, whatever `s` holds. -/
def ValueOrder.contains (s : List Json) (value : Json) : Except PyError Bool :=
  if V.hashable value then .ok (s.any (V.eq value)) else .error .typeError

/-! ## One field -/

/-- A bound and whether it is inclusive. -/
abbrev Bound := Json × Bool

/-- `_FieldConstraint`. -/
structure FieldConstraint where
  lo : Option Bound := none
  hi : Option Bound := none
  eq : Option Json := none
  neq : List Json := []
  inSet : Option (List Json) := none
  inconclusive : Bool := false

/-- `_tighter_lo`. -/
def tighterLo : Option Bound → Option Bound → Except PyError (Option Bound)
  | none, b => .ok b
  | some a, none => .ok (some a)
  | some (av, ai), some (bv, bi) => do
    if ← V.lt bv av then return some (av, ai)
    if ← V.lt av bv then return some (bv, bi)
    return some (av, ai && bi)

/-- `_tighter_hi`. -/
def tighterHi : Option Bound → Option Bound → Except PyError (Option Bound)
  | none, b => .ok b
  | some a, none => .ok (some a)
  | some (av, ai), some (bv, bi) => do
    if ← V.lt av bv then return some (av, ai)
    if ← V.lt bv av then return some (bv, bi)
    return some (av, ai && bi)

/-- `frozenset(value)`: the elements of a list, the characters of a string, the keys of a
dict; nothing else can be iterated over. -/
def frozenset : Json → Option (List Json)
  | .arr xs => if xs.all V.hashable then some xs else none
  | .str s => some (s.toList.map fun c => .str (.ofList [c]))
  | .obj kvs => some (kvs.map fun e => .str e.1)
  | _ => none

/-- One round of the loop of `_build_field_constraint`. -/
def addCondition (k : FieldConstraint) (c : Condition) : Except PyError FieldConstraint :=
  match c.operator with
  | .lte => do return { k with hi := ← tighterHi V k.hi (some (c.value, true)) }
  | .lt => do return { k with hi := ← tighterHi V k.hi (some (c.value, false)) }
  | .gte => do return { k with lo := ← tighterLo V k.lo (some (c.value, true)) }
  | .gt => do return { k with lo := ← tighterLo V k.lo (some (c.value, false)) }
  | .eq =>
    match k.eq, c.value with
    | none, .null => .ok k
    | none, v => .ok { k with eq := some v }
    | some _, _ => .ok k
  | .neq => if V.hashable c.value then .ok { k with neq := c.value :: k.neq } else .error .typeError
  | .isIn =>
    match frozenset V c.value with
    | none => .ok { k with inconclusive := true }
    | some values =>
      match k.inSet with
      | none => .ok { k with inSet := some values }
      | some s => .ok { k with inSet := some (s.filter fun x => values.any (V.eq x)) }
  | .contains | .exist => .ok { k with inconclusive := true }

def buildFieldConstraint (cs : List Condition) : Except PyError FieldConstraint :=
  cs.foldlM (addCondition V) {}

/-- `lo` and `hi` narrowed to an equality. -/
def narrow (lo hi : Option Bound) : Option Json → Except PyError (Option Bound × Option Bound)
  | none => .ok (lo, hi)
  | some v => do return (← tighterLo V lo (some (v, true)), ← tighterHi V hi (some (v, true)))

/-- Two equalities with different values. -/
def equalitiesDiffer : Option Json → Option Json → Bool
  | some x, some y => !V.eq x y
  | _, _ => false

/-- Two `in` lists without a common value. -/
def setsDisjoint : Option (List Json) → Option (List Json) → Bool
  | some s, some t => !s.any fun x => t.any (V.eq x)
  | _, _ => false

/-- The last test of `_fields_can_overlap`: a value between the bounds that no `!=` excludes. -/
def boundsCanMeet (neq₁ neq₂ : List Json) :
    Option Bound → Option Bound → Except PyError Bool
  | some (loVal, loIncl), some (hiVal, hiIncl) => do
    if ← V.lt hiVal loVal then return false
    if V.eq loVal hiVal then
      if !(loIncl && hiIncl) then return false
      if ← V.contains neq₁ loVal then return false
      if ← V.contains neq₂ loVal then return false
    return true
  | _, _ => .ok true

/-- `_fields_can_overlap`. -/
def fieldsCanOverlap (c₁ c₂ : FieldConstraint) : Except PyError Bool := do
  if c₁.inconclusive || c₂.inconclusive then return true
  let lo ← tighterLo V c₁.lo c₂.lo
  let hi ← tighterHi V c₁.hi c₂.hi
  if equalitiesDiffer V c₁.eq c₂.eq then return false
  let (lo, hi) ← narrow V lo hi c₁.eq
  let (lo, hi) ← narrow V lo hi c₂.eq
  if setsDisjoint V c₁.inSet c₂.inSet then return false
  boundsCanMeet V c₁.neq c₂.neq lo hi

/-! ## Two policies -/

def scopesCanOverlap (p₁ p₂ : RuntimePolicy) : Bool :=
  p₁.scope.principal = p₂.scope.principal && p₁.scope.action = p₂.scope.action &&
  (match p₁.scope.agent, p₂.scope.agent with
    | some a, some b => a = b
    | _, _ => true) &&
  (match p₁.scope.resource, p₂.scope.resource with
    | some a, some b => a = b
    | _, _ => true)

/-- The conditions of a policy on one field. -/
def conditionsOn (p : RuntimePolicy) (field : String) : List Condition :=
  p.conditions.filter fun c => c.field = field

def touchedFields (p₁ p₂ : RuntimePolicy) : List String :=
  (p₁.conditions.map Condition.field ++ p₂.conditions.map Condition.field).dedup

/-- The body of the loop of `policies_can_jointly_match`. -/
def fieldCanOverlap (p₁ p₂ : RuntimePolicy) (field : String) : Except PyError Bool := do
  fieldsCanOverlap V (← buildFieldConstraint V (conditionsOn p₁ field))
    (← buildFieldConstraint V (conditionsOn p₂ field))

/-- A field on which the policies cannot both hold. -/
def separates : Except PyError Bool → Bool
  | .ok false => true
  | _ => false

/-- `policies_can_jointly_match`. The loop runs over a set, in no particular order: a field
that separates the policies ends it, and so does one whose comparison raises. Where both
occur, the separating field is taken to come first. -/
def policiesCanJointlyMatch (p₁ p₂ : RuntimePolicy) : Except PyError Bool :=
  if scopesCanOverlap p₁ p₂ then
    let results := (touchedFields p₁ p₂).map (fieldCanOverlap V p₁ p₂)
    if results.any separates then .ok false
    else results.foldlM (fun _ r => r) true
  else .ok false

end PayReality.ScopeOverlap
