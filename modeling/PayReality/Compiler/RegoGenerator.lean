import PayReality.Policy.RuntimePolicy
import PayReality.Rego.Text

/-!
# Rego generation

`compiler_v2/rego_generator.py`: the text of one policy's rule. Values go through `json.dumps`;
the text of a field name is copied as it stands.
-/

namespace PayReality.RegoGenerator

open Rego

/-! ## Rule names -/

/-- `[a-zA-Z0-9_]`. -/
def isSafeIdChar (c : Char) : Bool := c.isAlpha || c.isDigit || c = '_'

def sanitizePolicyId (policyId : String) : List Char :=
  let safe := policyId.toList.map fun c => if isSafeIdChar c then c else '_'
  match safe with
  | [] => ['p', '_']
  | c :: cs => if c.isDigit then 'p' :: '_' :: c :: cs else c :: cs

def ruleNameForPolicy (policyId : String) : String :=
  String.ofList ("policy_".toList ++ sanitizePolicyId policyId)

/-! ## Conditions -/

/-- `sep.join(parts)`. -/
def join (sep : Source) : List Source → Source
  | [] => []
  | [s] => s
  | s :: ss => s ++ sep ++ join sep ss

def regoLiteral (v : Json) : Source := [.json v]

def dotPathAccess (base : String) (fieldPath : List Char) : Source :=
  text base ++ text "." ++ chars fieldPath

/-- The loop of `_nested_object_get` over the parts of the path. -/
def nestedObjectGetFrom (expr : Source) : List (List Char) → Source
  | [] => expr
  | [part] => text "object.get(" ++ expr ++ text ", " ++ regoLiteral (.str (.ofList part)) ++
      text ", " ++ text "null" ++ text ")"
  | part :: parts => nestedObjectGetFrom (text "object.get(" ++ expr ++ text ", " ++
      regoLiteral (.str (.ofList part)) ++ text ", " ++ text "\x7b\x7d" ++ text ")") parts

def nestedObjectGet (base : String) (fieldPath : List Char) : Source :=
  nestedObjectGetFrom (text base) (Text.splitDot fieldPath)

def contextFieldPrefix : String := "context."

def enterpriseKnowledgeFieldPrefix : String := "enterprise_knowledge."

def resolveBaseAndField (conditionField : String) (defaultBase : String) : String × List Char :=
  match Text.afterPrefix contextFieldPrefix.toList conditionField.toList with
  | some rest => ("input.context", rest)
  | none =>
    match Text.afterPrefix enterpriseKnowledgeFieldPrefix.toList conditionField.toList with
    | some rest => ("input.enterprise_knowledge", rest)
    | none => (defaultBase, conditionField.toList)

def generateConditionExpression (c : Condition) (base : String := "input.intent") :
    Except PyError Source :=
  let (resolvedBase, resolvedField) := resolveBaseAndField c.field base
  let fieldAccess := dotPathAccess resolvedBase resolvedField
  match c.operator with
  | .lte => .ok (fieldAccess ++ text " <= " ++ regoLiteral c.value)
  | .gte => .ok (fieldAccess ++ text " >= " ++ regoLiteral c.value)
  | .eq => .ok (fieldAccess ++ text " == " ++ regoLiteral c.value)
  | .neq => .ok (fieldAccess ++ text " != " ++ regoLiteral c.value)
  | .lt => .ok (fieldAccess ++ text " < " ++ regoLiteral c.value)
  | .gt => .ok (fieldAccess ++ text " > " ++ regoLiteral c.value)
  | .isIn => .ok (fieldAccess ++ text " in " ++ regoLiteral c.value)
  | .contains => .ok (text "contains(" ++ fieldAccess ++ text ", " ++ regoLiteral c.value ++ text ")")
  | .exist =>
    match c.value with
    | .bool true => .ok (nestedObjectGet resolvedBase resolvedField ++ text " != null")
    | .bool false => .ok (nestedObjectGet resolvedBase resolvedField ++ text " == null")
    | _ => .error .valueError

def generateConditionsBlock (cs : List Condition) : Except PyError (List Source) :=
  cs.mapM fun c => generateConditionExpression c

/-! ## Rules -/

def generateScopeBlock (p : RuntimePolicy) : List Source :=
  [text "input.intent.action == " ++ regoLiteral (.str p.scope.action),
    text "input.agent.acting_for_principal_id == " ++ regoLiteral (.str p.scope.principal)] ++
  (match p.scope.agent with
    | some a => [text "input.agent.id == " ++ regoLiteral (.str a)]
    | none => []) ++
  (match p.scope.resource with
    | some r => [text "input.intent.resource == " ++ regoLiteral (.str r)]
    | none => [])

def generatePolicyRule (p : RuntimePolicy) : Except PyError Source := do
  let ruleName := ruleNameForPolicy p.id
  let conditions ← generateConditionsBlock p.conditions
  let bodyLines := generateScopeBlock p ++ conditions
  let indented := join (text "\n") (bodyLines.map fun line => text "    " ++ line)
  return text ruleName ++ text " if \x7b\n" ++ indented ++ text "\n\x7d"

def effectRuleName : Effect → String
  | .allow => "allow"
  | .deny => "deny"
  | .requireHumanReview => "requires_review"

end PayReality.RegoGenerator
