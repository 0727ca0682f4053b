import Mathlib.Algebra.Order.Field.Rat
import Mathlib.Data.List.Sort
import Mathlib.Data.Prod.Lex
import Mathlib.Order.Lex
import PayReality.Python

/-!
# JSON values, as Python and as Rego compare them

A value is encoded as a list of tokens whose lexicographic order is Rego's total order
(`null < boolean < number < string < array < object`). Python's equality is the same
encoding with the booleans read as the numbers `0` and `1`, which is the one place where the
two languages disagree on equality.

A `float` is the number that it prints as, which is what JSON carries; integers and floats are
compared exactly.
-/

namespace PayReality

inductive Json where
  | null
  | bool (b : Bool)
  | int (i : Int)
  | float (q : ℚ)
  | str (s : String)
  | arr (xs : List Json)
  | obj (kvs : List (String × Json))

namespace Json

/-! ## The encoding -/

/-- One token: the rank of a type, then a number, then a text. -/
abbrev Token := ℕ ×ₗ ℚ ×ₗ String

def Token.mk (rank : ℕ) (q : ℚ) (s : String) : Token := toLex (rank, toLex (q, s))

instance : DecidableEq Token := inferInstanceAs (DecidableEq (ℕ × ℚ × String))

/-- The end of an array or object, below every value. -/
def Token.stop : Token := .mk 0 0 ""

mutual

/-- The encoding; `py` reads the booleans as numbers. -/
def key (py : Bool) : Json → List Token
  | .null => [.mk 1 0 ""]
  | .bool b => [.mk (if py then 3 else 2) b.toNat ""]
  | .int i => [.mk 3 i ""]
  | .float q => [.mk 3 q ""]
  | .str s => [.mk 4 0 s]
  | .arr xs => .mk 5 0 "" :: (keys py xs ++ [Token.stop])
  | .obj kvs => .mk 6 0 "" ::
      (((entries py kvs).insertionSort fun a b => a.1 ≤ b.1).flatMap
        (fun e => .mk 4 0 e.1 :: e.2) ++ [Token.stop])

def keys (py : Bool) : List Json → List Token
  | [] => []
  | x :: xs => key py x ++ keys py xs

def entries (py : Bool) : List (String × Json) → List (String × List Token)
  | [] => []
  | (k, v) :: kvs => (k, key py v) :: entries py kvs

end

/-! ## Rego -/

/-- Rego's `<=`. -/
def regoLe (x y : Json) : Bool := x.key false ≤ y.key false

/-- Rego's `==`. -/
def regoEq (x y : Json) : Bool := x.key false = y.key false

/-- Rego's `<`. -/
def regoLt (x y : Json) : Bool := x.key false < y.key false

theorem regoLe_iff {x y : Json} : regoLe x y = true ↔ x.key false ≤ y.key false := by
  simp [regoLe]

theorem regoEq_iff {x y : Json} : regoEq x y = true ↔ x.key false = y.key false := by
  simp [regoEq]

theorem regoLt_iff {x y : Json} : regoLt x y = true ↔ x.key false < y.key false := by
  simp [regoLt]

/-! ## Python -/

/-- Python's `==`. -/
def pyEq (x y : Json) : Bool := x.key true = y.key true

/-- The number that a Python value is, `True` and `False` among them. -/
def number? : Json → Option ℚ
  | .bool b => some b.toNat
  | .int i => some i
  | .float q => some q
  | _ => none

mutual

/-- Python's `<`: numbers, strings and lists; anything else is a `TypeError`. -/
def pyLt : Json → Json → Except PyError Bool
  | .str s, .str t => .ok (s < t)
  | .arr xs, .arr ys => pyLtList xs ys
  | x, y =>
    match x.number?, y.number? with
    | some p, some q => .ok (p < q)
    | _, _ => .error .typeError

/-- Lists compare at the first index where they differ. -/
def pyLtList : List Json → List Json → Except PyError Bool
  | [], [] => .ok false
  | [], _ :: _ => .ok true
  | _ :: _, [] => .ok false
  | x :: xs, y :: ys => if pyEq x y then pyLtList xs ys else pyLt x y

end

/-- Whether Python can hash the value: lists and dicts it cannot. -/
def hashable : Json → Bool
  | .arr _ | .obj _ => false
  | _ => true

/-- `isinstance(v, (int, float)) and not isinstance(v, bool)`. -/
def isNumeric : Json → Bool
  | .int _ | .float _ => true
  | _ => false

mutual

/-- `repr(v)`, token by token: unlike `==` it tells `1`, `1.0` and `True` apart, and it keeps
the order of a dict. -/
def repr : Json → List Token
  | .null => [.mk 1 0 ""]
  | .bool b => [.mk 2 b.toNat ""]
  | .int i => [.mk 3 i ""]
  | .float q => [.mk 7 q ""]
  | .str s => [.mk 4 0 s]
  | .arr xs => .mk 5 0 "" :: (reprs xs ++ [Token.stop])
  | .obj kvs => .mk 6 0 "" :: (reprEntries kvs ++ [Token.stop])

def reprs : List Json → List Token
  | [] => []
  | x :: xs => repr x ++ reprs xs

def reprEntries : List (String × Json) → List Token
  | [] => []
  | (k, v) :: kvs => .mk 4 0 k :: (repr v ++ reprEntries kvs)

end

mutual

/-- `json.dumps(v, sort_keys=True)`, token by token: `repr` with the members of a dict sorted. -/
def stableRepr : Json → List Token
  | .null => [.mk 1 0 ""]
  | .bool b => [.mk 2 b.toNat ""]
  | .int i => [.mk 3 i ""]
  | .float q => [.mk 7 q ""]
  | .str s => [.mk 4 0 s]
  | .arr xs => .mk 5 0 "" :: (stableReprs xs ++ [Token.stop])
  | .obj kvs => .mk 6 0 "" ::
      (((stableEntries kvs).insertionSort fun a b => a.1 ≤ b.1).flatMap
        (fun e => .mk 4 0 e.1 :: e.2) ++ [Token.stop])

def stableReprs : List Json → List Token
  | [] => []
  | x :: xs => stableRepr x ++ stableReprs xs

def stableEntries : List (String × Json) → List (String × List Token)
  | [] => []
  | (k, v) :: kvs => (k, stableRepr v) :: stableEntries kvs

end

/-! ## Members -/

/-- The member of an object under a key; anything that is not an object has none. -/
def get? : Json → String → Option Json
  | .obj kvs, k => (kvs.find? fun e => e.1 = k).map Prod.snd
  | _, _ => none

/-- The value at a key path. -/
def lookup : Json → List String → Option Json
  | v, [] => some v
  | v, k :: ks => (v.get? k).bind fun w => w.lookup ks

theorem lookup_append (v : Json) (ks ls : List String) :
    v.lookup (ks ++ ls) = (v.lookup ks).bind fun w => w.lookup ls := by
  induction ks generalizing v with
  | nil => rfl
  | cons k ks ih =>
    simp only [List.cons_append, lookup]
    cases v.get? k with
    | none => rfl
    | some w => exact ih w

/-- `v is True`. -/
def isTrue : Json → Bool
  | .bool true => true
  | _ => false

end Json

end PayReality
