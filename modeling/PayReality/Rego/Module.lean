import PayReality.Rego.Text

/-!
# Rego modules

The fragment of Rego that the compiler emits: rules whose bodies are conjunctions of comparisons
of input members with literals, of existence checks, and of references to other rules. A
reference to a missing member is undefined, and an undefined expression fails.

`Module.lines` gives the tokens a module is read as. `Module.answer` is the document that OPA
returns for an input.
-/

namespace PayReality.Rego

/-! ## Syntax -/

inductive Cmp where
  | lte | gte | eq | neq | lt | gt
  deriving DecidableEq, Repr

inductive Expr where
  /-- `input.a.b <= literal`. -/
  | compare (path : List String) (op : Cmp) (v : Json)
  /-- `input.a.b in literal`. -/
  | member (path : List String) (v : Json)
  /-- `contains(input.a.b, literal)`. -/
  | contains (path : List String) (v : Json)
  /-- `object.get(object.get(input.a, "b", {}), "c", null) != null`, or `== null`. -/
  | present (base : List String) (keys : List String) (wanted : Bool)
  /-- Another rule of the module. -/
  | rule (name : String)
  /-- `count(set) == 0`. -/
  | countZero (set : String)

inductive Head where
  | bool (name : String)
  | assign (name : String) (v : Json)
  | contains (name : String) (v : Json)

def Head.name : Head → String
  | .bool n | .assign n _ | .contains n _ => n

structure Rule where
  head : Head
  body : List Expr
  /-- Whether the rule is written on one line. -/
  oneLine : Bool

structure Module where
  package : List String
  /-- The rules that are `false` unless a body holds. -/
  defaults : List String
  rules : List Rule

/-! ## Tokens -/

def word (s : String) : Tok := .word s.toList

/-- `a.b.c`. -/
def pathToks : List String → List Tok
  | [] => []
  | [s] => [word s]
  | s :: ss => word s :: .punct '.' :: pathToks ss

/-- `input.a.b`. -/
def refToks (path : List String) : List Tok := pathToks ("input" :: path)

def Cmp.toks : Cmp → List Tok
  | .lte => [.punct '<', .punct '=']
  | .gte => [.punct '>', .punct '=']
  | .eq => [.punct '=', .punct '=']
  | .neq => [.punct '!', .punct '=']
  | .lt => [.punct '<']
  | .gt => [.punct '>']

/-- `object.get(inner, "k", default)` around the tokens of `inner`, for each key in turn. -/
def getToks (inner : List Tok) : List String → List Tok
  | [] => inner
  | [k] => [word "object", .punct '.', word "get", .punct '('] ++ inner ++
      [.punct ',', .lit (.str k), .punct ',', word "null", .punct ')']
  | k :: ks => getToks ([word "object", .punct '.', word "get", .punct '('] ++ inner ++
      [.punct ',', .lit (.str k), .punct ',', .punct '{', .punct '}', .punct ')']) ks

def Expr.toks : Expr → List Tok
  | .compare p op v => refToks p ++ op.toks ++ [.lit v]
  | .member p v => refToks p ++ [word "in", .lit v]
  | .contains p v => [word "contains", .punct '('] ++ refToks p ++ [.punct ',', .lit v, .punct ')']
  | .present base ks wanted => getToks (refToks base) ks ++
      (if wanted then Cmp.neq else Cmp.eq).toks ++ [word "null"]
  | .rule n => [word n]
  | .countZero s => [word "count", .punct '(', word s, .punct ')', .punct '=', .punct '=',
      .number ['0']]

def Head.toks : Head → List Tok
  | .bool n => [word n]
  | .assign n v => [word n, .punct ':', .punct '=', .lit v]
  | .contains n v => [word n, word "contains", .lit v]

def Rule.lines (r : Rule) : List (List Tok) :=
  if r.oneLine then
    [r.head.toks ++ [word "if", .punct '{'] ++ r.body.flatMap Expr.toks ++ [.punct '}']]
  else (r.head.toks ++ [word "if", .punct '{']) :: r.body.map Expr.toks ++ [[.punct '}']]

def defaultLine (n : String) : List Tok :=
  [word "default", word n, .punct ':', .punct '=', word "false"]

def Module.lines (m : Module) : List (List Tok) :=
  (word "package" :: pathToks m.package) :: m.defaults.map defaultLine ++
    m.rules.flatMap Rule.lines

/-! ## Meaning -/

def Cmp.holds : Cmp → Json → Json → Bool
  | .lte, x, v => x.regoLe v
  | .gte, x, v => v.regoLe x
  | .eq, x, v => x.regoEq v
  | .neq, x, v => !x.regoEq v
  | .lt, x, v => x.regoLt v
  | .gt, x, v => v.regoLt x

/-- `x in vs`. -/
def memberOf (x : Json) : Json → Bool
  | .arr vs => vs.any (Json.regoEq x)
  | _ => false

/-- `contains(x, v)`: both are strings and `v` occurs in `x`. -/
def containsText : Json → Json → Bool
  | .str s, .str t => s.toList.tails.any t.toList.isPrefixOf
  | _, _ => false

/-- `object.get(v, k, default)`; undefined unless `v` is an object. -/
def objectGet : Option Json → String → Json → Option Json
  | some (.obj kvs), k, default => some (((Json.obj kvs).get? k).getD default)
  | _, _, _ => none

/-- The chain of `object.get` calls: `{}` between the keys, `null` at the end. -/
def nestedGet : Option Json → List String → Option Json
  | v, [] => v
  | v, [k] => objectGet v k .null
  | v, k :: ks => nestedGet (objectGet v k (.obj [])) ks

def isNull : Json → Bool
  | .null => true
  | _ => false

/-- One expression, given which rules of the module hold and what its sets contain. -/
def Expr.holds (rules : String → Bool) (sets : String → List Json) (input : Json) : Expr → Bool
  | .compare p op v => (input.lookup p).any fun x => op.holds x v
  | .member p v => (input.lookup p).any fun x => memberOf x v
  | .contains p v => (input.lookup p).any fun x => containsText x v
  | .present base ks wanted =>
      (nestedGet (input.lookup base) ks).any fun x => isNull x != wanted
  | .rule n => rules n
  | .countZero s => (sets s).isEmpty

def Rule.holds (rules : String → Bool) (sets : String → List Json) (input : Json) (r : Rule) :
    Bool := r.body.all (Expr.holds rules sets input)

def Head.isBool (n : String) : Head → Bool
  | .bool m => m = n
  | _ => false

/-- The value a rule assigns to `n`. -/
def Head.assigned? (n : String) : Head → Option Json
  | .assign m v => if m = n then some v else none
  | _ => none

/-- The element a rule adds to the set `n`. -/
def Head.element? (n : String) : Head → Option Json
  | .contains m v => if m = n then some v else none
  | _ => none

namespace Module

variable (m : Module) (rules : String → Bool) (sets : String → List Json) (input : Json)

def truth (n : String) : Bool :=
  m.rules.any fun r => r.head.isBool n && r.holds rules sets input

def elements (n : String) : List Json :=
  m.rules.filterMap fun r => if r.holds rules sets input then r.head.element? n else none

def values (n : String) : List Json :=
  m.rules.filterMap fun r => if r.holds rules sets input then r.head.assigned? n else none

/-! The rules form three strata: those that read the input only, those that read the first
stratum, and those that count a set. -/

/-- The rules that read the input only. -/
def base (n : String) : Bool := m.truth (fun _ => false) (fun _ => [.null]) input n

/-- The sets, from the rules of the first stratum. -/
def sets₁ (s : String) : List Json := m.elements (m.base input) (fun _ => [.null]) input s

def isTrue (n : String) : Bool := m.truth (m.base input) (m.sets₁ input) input n

def assigned (n : String) : List Json := m.values (m.base input) (m.sets₁ input) input n

/-- The element of a set as OPA lists them: sorted, each once. -/
def listed (s : String) : List Json :=
  (((m.sets₁ input s).pwFilter fun x y => x.regoEq y = false).insertionSort
    fun x y => x.regoLe y = true)

/-- A complete rule: undefined without a value, an evaluation conflict with two. -/
def complete (n : String) : Except Unit (List (String × Json)) :=
  match m.assigned input n with
  | [] => .ok []
  | v :: vs => if vs.all (Json.regoEq v) then .ok [(n, v)] else .error ()

/-- The names of the rules of one kind, each once. -/
def names (kind : Head → Option String) : List String :=
  (m.rules.filterMap fun r => kind r.head).dedup

/-- The document that OPA returns for the package; an evaluation conflict is an error. -/
def answer : Except Unit Json := do
  let assigned ← (m.names assignName?).mapM (m.complete input)
  return .obj ((m.defaults.map fun n => (n, .bool (m.isTrue input n))) ++
    ((m.names boolName?).filter fun n => n ∉ m.defaults ∧ m.isTrue input n).map
      (fun n => (n, .bool true)) ++
    (m.names setName?).map (fun n => (n, .arr (m.listed input n))) ++ assigned.flatten)
where
  boolName? : Head → Option String
    | .bool n => some n
    | _ => none
  assignName? : Head → Option String
    | .assign n _ => some n
    | _ => none
  setName? : Head → Option String
    | .contains n _ => some n
    | _ => none

end Module

end PayReality.Rego
