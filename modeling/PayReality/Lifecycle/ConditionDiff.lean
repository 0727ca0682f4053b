import PayReality.Compiler.Intended
import PayReality.Encoding
import PayReality.Policy.Validators

/-!
# The diff of the conditions of two versions

`compute_condition_diff` of `runtime_policy_service.py`: the conditions of two versions are matched by
field and operator, and the direction of their changes is summed up as a risk impact. It is a bounded
heuristic: of the values that changed it judges those of the numeric operators.

**Main result** `computeConditionDiff_sound`: for two accepted versions that repeat no field and operator,
the risk impact bounds the inputs of one version by those of the other, apart from the conditions whose
change is not judged.
-/

namespace PayReality

open Rego RegoGenerator Validators

namespace RuntimePolicyService

inductive DiffKind where
  | added | removed | modified | unchanged
  deriving DecidableEq, Repr

structure ConditionDiffEntry where
  kind : DiffKind
  field : String
  operator : String
  oldValue : Json
  newValue : Json

inductive RiskImpact where
  | increased | decreased | mixed | unchanged
  deriving DecidableEq, Repr

structure ConditionDiff where
  entries : List ConditionDiffEntry
  riskImpact : RiskImpact
  riskReason : String

/-- `_condition_key`; tuples are ordered by their parts. -/
def conditionKey (c : Condition) : String ×ₗ String := toLex (c.field, c.operator.value)

/-- `from_by_key.get(key)`: the last condition of each key is kept. -/
def byKey (conditions : List Condition) (key : String ×ₗ String) : Option Condition :=
  conditions.reverse.find? fun c => conditionKey c = key

/-- The direction of a change of a value: whether the risk increased, and whether it decreased. -/
def valueRisk (op : Operator) (old new : Json) : Except PyError (Bool × Bool) :=
  match op with
  | .lte | .lt => do
    if ← old.pyLt new then return (true, false)
    return (false, ← new.pyLt old)
  | .gte | .gt => do
    if ← new.pyLt old then return (true, false)
    return (false, ← old.pyLt new)
  | _ => return (false, false)

/-- An entry about the key of a condition. -/
def entryOf (kind : DiffKind) (c : Condition) (old new : Json) : ConditionDiffEntry :=
  { kind, field := c.field, operator := c.operator.value, oldValue := old, newValue := new }

/-- What the loop says of one key: its entry, and whether the risk increased or decreased. -/
def diffKey (old new : Option Condition) :
    Except PyError (List ConditionDiffEntry × Bool × Bool) :=
  match old, new with
  | some c, none => return ([entryOf .removed c c.value .null], true, false)
  | none, some d => return ([entryOf .added d .null d.value], false, true)
  | some c, some d =>
    if c.value.pyEq d.value then
      return ([entryOf .unchanged c c.value d.value], false, false)
    else do
      let risk ← valueRisk c.operator c.value d.value
      return ([entryOf .modified c c.value d.value], risk)
  | none, none => return ([], false, false)

/-- `sorted(set(from_by_key) | set(to_by_key))`. -/
def diffKeys (ps qs : List Condition) : List (String ×ₗ String) :=
  ((ps ++ qs).map conditionKey).dedup.insertionSort (· ≤ ·)

def riskImpact (increased decreased : Bool) : RiskImpact :=
  match increased, decreased with
  | true, false => .increased
  | false, true => .decreased
  | true, true => .mixed
  | false, false => .unchanged

def riskReason : RiskImpact → String
  | .increased => "a numeric limit was raised or a condition was removed: this version allows " ++
      "strictly more than the version it replaces, for at least one possible input"
  | .decreased => "a numeric limit was lowered or a condition was added: this version allows " ++
      "strictly less than the version it replaces"
  | .mixed => "some conditions became more permissive and others more restrictive; " ++
      "review the condition-level diff above rather than this summary alone"
  | .unchanged => "no condition, scope, or effect change was detected"

/-- `compute_condition_diff`. -/
def computeConditionDiff (fromPolicy toPolicy : RuntimePolicy) : Except PyError ConditionDiff := do
  let parts ← (diffKeys fromPolicy.conditions toPolicy.conditions).mapM fun key =>
    diffKey (byKey fromPolicy.conditions key) (byKey toPolicy.conditions key)
  let impact := riskImpact (parts.any fun part => part.2.1) (parts.any fun part => part.2.2)
  return { entries := parts.flatMap Prod.fst, riskImpact := impact, riskReason := riskReason impact }

/-! ## What the impact should say -/

section

variable (rules : String → Bool) (sets : String → List Json) (input : Json)

/-- The input satisfies every condition, as they are compiled. -/
def Accepts (conditions : List Condition) : Prop :=
  ∀ c ∈ conditions, (conditionExpr c).holds rules sets input = true

end

/-- The impact of going from the conditions `ps` to the conditions `qs` bounds the inputs that satisfy
them. -/
structure SoundImpact (impact : RiskImpact) (ps qs : List Condition) : Prop where
  decreased : impact = .decreased → ∀ rules sets input,
    Accepts rules sets input qs → Accepts rules sets input ps
  increased : impact = .increased → ∀ rules sets input,
    Accepts rules sets input ps → Accepts rules sets input qs
  unchanged : impact = .unchanged → ∀ rules sets input,
    Accepts rules sets input ps ↔ Accepts rules sets input qs

/-- A change that is not judged: the operator is not numeric, and the other version has another value,
as Rego compares them, under the field and operator. -/
def changesUnjudged (others : List Condition) (c : Condition) : Bool :=
  !isNumericOperator c.operator &&
    others.any fun d => conditionKey d = conditionKey c && !c.value.regoEq d.value

/-- The conditions without those whose change is not judged. -/
def judged (others conditions : List Condition) : List Condition :=
  conditions.filter fun c => !changesUnjudged others c

/-- No two conditions have one field and operator. -/
def KeysOnce (conditions : List Condition) : Prop := (conditions.map conditionKey).Nodup

instance (conditions : List Condition) : Decidable (KeysOnce conditions) :=
  inferInstanceAs (Decidable (conditions.map conditionKey).Nodup)

end RuntimePolicyService

/-! ## Equal values -/

namespace Json

theorem elements_of_key {py : Bool} {xs ys : List Json} (h : (arr xs).key py = (arr ys).key py) :
    xs.map (key py) = ys.map (key py) := by
  rw [key_arr, key_arr, List.cons.injEq] at h
  refine (flatten_inj ?_ ?_ ?_ h.2).1
  · intro ts hts _ _ _ ht heq
    obtain ⟨x, -, rfl⟩ := List.mem_map.1 hts
    exact (term_key py x).prefixFree ht heq
  · intro ts hts
    obtain ⟨x, -, rfl⟩ := List.mem_map.1 hts
    exact term_key py x
  · intro ts hts
    obtain ⟨x, -, rfl⟩ := List.mem_map.1 hts
    exact term_key py x

end Json

namespace RuntimePolicyService

theorem memberOf_literal {v w : Json} (h : v.key false = w.key false) (x : Json) :
    memberOf x v = memberOf x w := by
  have hmap : ∀ zs : List Json, memberOf x (.arr zs) =
      (zs.map (Json.key false)).any fun ts => x.key false = ts := by
    intro zs
    have hself : x.regoEq = fun y => decide (x.key false = y.key false) := rfl
    simp [memberOf, hself, Function.comp_def]
  cases v with
  | arr xs =>
    cases w with
    | arr ys => rw [hmap, hmap, Json.elements_of_key h]
    | null | bool | int | float | str | obj => simp [Json.key, Json.token_mk_inj] at h
  | null | bool | int | float | str | obj =>
    cases w with
    | arr ys => simp [Json.key, Json.token_mk_inj] at h
    | null | bool | int | float | str | obj => rfl

theorem containsText_literal {v w : Json} (h : v.key false = w.key false) (x : Json) :
    containsText x v = containsText x w := by
  cases v with
  | str s =>
    cases w with
    | str t =>
      have hst : s = t := by simpa [Json.key, Json.token_mk_inj] using h
      rw [hst]
    | null | bool | int | float | arr | obj => simp [Json.key, Json.token_mk_inj] at h
  | null | bool | int | float | arr | obj =>
    cases w with
    | str t => simp [Json.key, Json.token_mk_inj] at h
    | null | bool | int | float | arr | obj => cases x <;> rfl

theorem isTrue_literal {v w : Json} (h : v.key false = w.key false) : v.isTrue = w.isTrue := by
  cases v with
  | bool b =>
    cases w with
    | bool b' =>
      have hb : b.toNat = b'.toNat := by
        have : (b.toNat : ℚ) = b'.toNat := by simpa [Json.key, Json.token_mk_inj] using h
        exact_mod_cast this
      cases b <;> cases b' <;> simp_all
    | null | int | float | str | arr | obj => simp [Json.key, Json.token_mk_inj] at h
  | null | int | float | str | arr | obj =>
    cases w with
    | bool b' => simp [Json.key, Json.token_mk_inj] at h
    | null | int | float | str | arr | obj => rfl

/-- A condition does not tell literals apart that Rego takes for equal. -/
theorem holds_of_regoEq {c d : Condition} (hfield : c.field = d.field) (hop : c.operator = d.operator)
    (h : c.value.key false = d.value.key false) (rules sets input) :
    (conditionExpr c).holds rules sets input = (conditionExpr d).holds rules sets input := by
  unfold conditionExpr
  rw [hop, hfield]
  cases d.operator with
  | lte | gte | eq | neq | lt | gt =>
    simp [Expr.holds, Cmp.holds, Json.regoLe, Json.regoEq, Json.regoLt, h]
  | isIn => simp only [Expr.holds, memberOf_literal h]
  | contains => simp only [Expr.holds, containsText_literal h]
  | exist => simp only [Expr.holds, isTrue_literal h]

/-! ## Numbers -/

theorem pyLt_numeric {x y : Json} (hx : x.isNumeric = true) (hy : y.isNumeric = true) :
    x.pyLt y = .ok (x.regoLt y) := by
  cases x <;> simp [Json.isNumeric] at hx <;> cases y <;> simp [Json.isNumeric] at hy <;>
    simp [Json.pyLt, Json.number?, Json.regoLt, Json.key, Json.Token.mk, List.cons_lt_cons_iff,
      Prod.Lex.toLex_lt_toLex]

theorem pyEq_numeric {x y : Json} (hx : x.isNumeric = true) (hy : y.isNumeric = true) :
    x.pyEq y = x.regoEq y := by
  cases x <;> simp [Json.isNumeric] at hx <;> cases y <;> simp [Json.isNumeric] at hy <;>
    simp [Json.pyEq, Json.regoEq, Json.key]

/-- The limit of `d` is no tighter than that of `c`. -/
structure Looser (c d : Condition) : Prop where
  upper : c.operator = .lte ∨ c.operator = .lt → c.value.key false ≤ d.value.key false
  lower : c.operator = .gte ∨ c.operator = .gt → d.value.key false ≤ c.value.key false

/-- A limit that is no tighter lets through what the other does. -/
theorem holds_of_looser {c d : Condition} (hfield : c.field = d.field) (hop : c.operator = d.operator)
    (hnumeric : isNumericOperator c.operator = true) (hlooser : Looser c d) {rules sets input}
    (h : (conditionExpr c).holds rules sets input = true) :
    (conditionExpr d).holds rules sets input = true := by
  unfold conditionExpr at h ⊢
  rw [← hop, ← hfield]
  cases hc : c.operator with
  | lte =>
    rw [hc] at h
    have hle := hlooser.upper (.inl hc)
    simp only [Expr.holds, Option.any_eq_true, Cmp.holds, Json.regoLe_iff] at h ⊢
    obtain ⟨x, hx, hxc⟩ := h
    exact ⟨x, hx, hxc.trans hle⟩
  | lt =>
    rw [hc] at h
    have hle := hlooser.upper (.inr hc)
    simp only [Expr.holds, Option.any_eq_true, Cmp.holds, Json.regoLt_iff] at h ⊢
    obtain ⟨x, hx, hxc⟩ := h
    exact ⟨x, hx, hxc.trans_le hle⟩
  | gte =>
    rw [hc] at h
    have hle := hlooser.lower (.inl hc)
    simp only [Expr.holds, Option.any_eq_true, Cmp.holds, Json.regoLe_iff] at h ⊢
    obtain ⟨x, hx, hxc⟩ := h
    exact ⟨x, hx, hle.trans hxc⟩
  | gt =>
    rw [hc] at h
    have hle := hlooser.lower (.inr hc)
    simp only [Expr.holds, Option.any_eq_true, Cmp.holds, Json.regoLt_iff] at h ⊢
    obtain ⟨x, hx, hxc⟩ := h
    exact ⟨x, hx, hle.trans_lt hxc⟩
  | eq | neq | isIn | contains | exist => simp [hc, isNumericOperator] at hnumeric

/-- The direction of a change between two numbers. -/
def numberRisk (op : Operator) (x y : Json) : Bool × Bool :=
  if op = .lte ∨ op = .lt then (x.regoLt y, y.regoLt x) else (y.regoLt x, x.regoLt y)

theorem valueRisk_numeric {op : Operator} {x y : Json} (hnumeric : isNumericOperator op = true)
    (hx : x.isNumeric = true) (hy : y.isNumeric = true) :
    valueRisk op x y = .ok (numberRisk op x y) := by
  have hnot : ∀ u v : Json, u.regoLt v = true → v.regoLt u = false := by
    intro u v huv
    rw [Json.regoLt_iff] at huv
    simpa [Json.regoLt] using huv.le
  have hxy := pyLt_numeric hx hy
  have hyx := pyLt_numeric hy hx
  cases op with
  | lte | lt =>
    cases hlt : x.regoLt y with
    | true => simp [valueRisk, numberRisk, hxy, hlt, hnot x y hlt]; rfl
    | false => simp [valueRisk, numberRisk, hxy, hyx, hlt]; rfl
  | gte | gt =>
    cases hlt : y.regoLt x with
    | true => simp [valueRisk, numberRisk, hyx, hlt, hnot y x hlt]; rfl
    | false => simp [valueRisk, numberRisk, hxy, hyx, hlt]; rfl
  | eq | neq | isIn | contains | exist => simp [isNumericOperator] at hnumeric

/-! ## One key -/

section Keys

variable {ps qs : List Condition} {c d : Condition}

theorem conditionKey_inj (h : conditionKey c = conditionKey d) :
    c.field = d.field ∧ c.operator = d.operator := by
  have hparts : c.field = d.field ∧ c.operator.value = d.operator.value := by
    simpa [conditionKey] using h
  refine ⟨hparts.1, ?_⟩
  have hvalue := hparts.2
  cases hc : c.operator <;> cases hd : d.operator <;> simp [hc, hd, Operator.value] at hvalue ⊢

theorem byKey_some {key : String ×ₗ String} (h : byKey ps key = some c) :
    c ∈ ps ∧ conditionKey c = key := by
  have hkey := List.find?_some h
  exact ⟨List.mem_reverse.1 (List.mem_of_find?_eq_some h), by simpa using hkey⟩

theorem byKey_of_mem (hps : KeysOnce ps) (hc : c ∈ ps) : byKey ps (conditionKey c) = some c := by
  cases hfound : byKey ps (conditionKey c) with
  | none =>
    have := List.find?_eq_none.1 hfound c (List.mem_reverse.2 hc)
    simp at this
  | some d =>
    obtain ⟨hd, hkey⟩ := byKey_some hfound
    rw [List.inj_on_of_nodup_map hps hd hc hkey]

theorem mem_diffKeys (h : c ∈ ps ∨ c ∈ qs) : conditionKey c ∈ diffKeys ps qs := by
  rw [diffKeys, List.mem_insertionSort, List.mem_dedup]
  exact List.mem_map_of_mem (List.mem_append.2 h)

/-- Under a numeric operator, a risk that did not increase is a limit no looser, and one that did not
decrease is a limit no tighter. -/
theorem diffKey_numeric (hop : c.operator = d.operator) (hnumeric : isNumericOperator c.operator = true)
    (hc : c.value.isNumeric = true) (hd : d.value.isNumeric = true) :
    ∃ part, diffKey (some c) (some d) = .ok part ∧ (part.2.1 = false → Looser d c) ∧
      (part.2.2 = false → Looser c d) := by
  have hle : ∀ x y : Json, x.regoLt y = false → y.key false ≤ x.key false := by
    intro x y hxy
    simpa [Json.regoLt] using hxy
  by_cases heq : c.value.pyEq d.value = true
  · have hsame : c.value.key false = d.value.key false := by
      rw [pyEq_numeric hc hd] at heq
      exact Json.regoEq_iff.1 heq
    refine ⟨([entryOf .unchanged c c.value d.value], false, false), ?_, ?_, ?_⟩
    · simp [diffKey, heq]
      rfl
    · intro _
      exact ⟨fun _ => hsame.ge, fun _ => hsame.le⟩
    · intro _
      exact ⟨fun _ => hsame.le, fun _ => hsame.ge⟩
  · refine ⟨([entryOf .modified c c.value d.value], numberRisk c.operator c.value d.value),
      ?_, ?_, ?_⟩
    · simp [diffKey, heq, valueRisk_numeric hnumeric hc hd]
    · intro hrisk
      constructor
      · intro hupper
        rw [← hop] at hupper
        simp only [numberRisk, if_pos hupper] at hrisk
        exact hle _ _ hrisk
      · intro hlower
        rw [← hop] at hlower
        have hnot : ¬ (c.operator = .lte ∨ c.operator = .lt) := by
          obtain h | h := hlower <;> simp [h]
        simp only [numberRisk, if_neg hnot] at hrisk
        exact hle _ _ hrisk
    · intro hrisk
      constructor
      · intro hupper
        simp only [numberRisk, if_pos hupper] at hrisk
        exact hle _ _ hrisk
      · intro hlower
        have hnot : ¬ (c.operator = .lte ∨ c.operator = .lt) := by
          obtain h | h := hlower <;> simp [h]
        simp only [numberRisk, if_neg hnot] at hrisk
        exact hle _ _ hrisk

/-- Other operators: the loop returns. -/
theorem diffKey_other (hnumeric : isNumericOperator c.operator = false) :
    ∃ part, diffKey (some c) (some d) = .ok part := by
  have hrisk : valueRisk c.operator c.value d.value = .ok (false, false) := by
    cases hc : c.operator with
    | lte | gte | lt | gt => simp [hc, isNumericOperator] at hnumeric
    | eq | neq | isIn | contains | exist => rfl
  simp only [diffKey, hrisk]
  split
  · exact ⟨_, rfl⟩
  · exact ⟨_, rfl⟩

/-- A judged condition has an equal value in the other version, where the operator is not numeric. -/
theorem regoEq_of_judged (hother : isNumericOperator c.operator = false)
    (hjudged : changesUnjudged qs c = false) (hd : d ∈ qs) (hkey : conditionKey d = conditionKey c) :
    c.value.key false = d.value.key false := by
  rw [changesUnjudged, hother] at hjudged
  simp only [Bool.not_false, Bool.true_and, List.any_eq_false, Bool.and_eq_true, decide_eq_true_eq,
    not_and, Bool.not_eq_true, Bool.not_eq_false'] at hjudged
  exact Json.regoEq_iff.1 (hjudged d hd hkey)

/-- The other version's condition is judged too. -/
theorem judged_other (hps : KeysOnce ps) (hc : c ∈ ps) (hkey : conditionKey d = conditionKey c)
    (hsame : isNumericOperator d.operator = false → d.value.key false = c.value.key false) :
    changesUnjudged ps d = false := by
  cases hop : isNumericOperator d.operator with
  | true => simp [changesUnjudged, hop]
  | false =>
    simp only [changesUnjudged, hop, Bool.not_false, Bool.true_and, List.any_eq_false,
      Bool.and_eq_true, decide_eq_true_eq, not_and, Bool.not_eq_true, Bool.not_eq_false']
    intro e he hek
    have hec : e = c := List.inj_on_of_nodup_map hps he hc (hek.trans hkey)
    subst hec
    exact Json.regoEq_iff.2 (hsame hop)

/-- The numeric operators of the conditions compare with numbers, as validation demands. -/
def Numeric (conditions : List Condition) : Prop :=
  ∀ c ∈ conditions, isNumericOperator c.operator = true → c.value.isNumeric = true

section Direction

variable (hps : KeysOnce ps) (hqs : KeysOnce qs) (hpn : Numeric ps) (hqn : Numeric qs)

include hpn hqn

/-- The loop returns for every key. -/
theorem diffKey_returns {key : String ×ₗ String} :
    ∃ part, diffKey (byKey ps key) (byKey qs key) = .ok part := by
  cases hp : byKey ps key with
  | none =>
    cases byKey qs key with
    | none => exact ⟨_, rfl⟩
    | some d => exact ⟨_, rfl⟩
  | some c =>
    cases hq : byKey qs key with
    | none => exact ⟨_, rfl⟩
    | some d =>
      obtain ⟨hc, hck⟩ := byKey_some hp
      obtain ⟨hd, hdk⟩ := byKey_some hq
      have hop := (conditionKey_inj (hck.trans hdk.symm)).2
      cases hnumeric : isNumericOperator c.operator with
      | true =>
        obtain ⟨part, hpart, -⟩ :=
          diffKey_numeric hop hnumeric (hpn c hc hnumeric) (hqn d hd (hop ▸ hnumeric))
        exact ⟨part, hpart⟩
      | false => exact diffKey_other hnumeric

include hps in
/-- Where no key increases the risk, the new version is satisfied by no other inputs. -/
theorem accepts_of_not_increased
    (hrisk : ∀ c ∈ ps, ∀ part, diffKey (byKey ps (conditionKey c)) (byKey qs (conditionKey c)) = .ok part →
      part.2.1 = false) {rules sets input}
    (h : Accepts rules sets input (judged ps qs)) : Accepts rules sets input (judged qs ps) := by
  intro c hc
  obtain ⟨hc, hjudged⟩ := List.mem_filter.1 hc
  rw [Bool.not_eq_true'] at hjudged
  have hkept := hrisk c hc
  rw [byKey_of_mem hps hc] at hkept
  cases hq : byKey qs (conditionKey c) with
  | none =>
    rw [hq] at hkept
    have := hkept _ rfl
    simp at this
  | some d =>
    rw [hq] at hkept
    obtain ⟨hd, hkey⟩ := byKey_some hq
    obtain ⟨hfield, hop⟩ := conditionKey_inj hkey
    have hsame : isNumericOperator c.operator = false → c.value.key false = d.value.key false :=
      fun hother => regoEq_of_judged hother hjudged hd hkey
    have hdjudged : changesUnjudged ps d = false :=
      judged_other hps hc hkey fun hother => (hsame (hop ▸ hother)).symm
    have hholds := h d (List.mem_filter.2 ⟨hd, by simp [hdjudged]⟩)
    cases hnumeric : isNumericOperator c.operator with
    | true =>
      obtain ⟨part, hpart, hincreased, -⟩ :=
        diffKey_numeric hop.symm hnumeric (hpn c hc hnumeric) (hqn d hd (hop ▸ hnumeric))
      exact holds_of_looser hfield hop (hop ▸ hnumeric) (hincreased (hkept part hpart)) hholds
    | false =>
      rw [holds_of_regoEq hfield.symm hop.symm (hsame hnumeric)]
      exact hholds

include hqs in
/-- Where no key decreases the risk, the old version is satisfied by no other inputs. -/
theorem accepts_of_not_decreased
    (hrisk : ∀ d ∈ qs, ∀ part, diffKey (byKey ps (conditionKey d)) (byKey qs (conditionKey d)) = .ok part →
      part.2.2 = false) {rules sets input}
    (h : Accepts rules sets input (judged qs ps)) : Accepts rules sets input (judged ps qs) := by
  intro d hd
  obtain ⟨hd, hjudged⟩ := List.mem_filter.1 hd
  rw [Bool.not_eq_true'] at hjudged
  have hkept := hrisk d hd
  rw [byKey_of_mem hqs hd] at hkept
  cases hp : byKey ps (conditionKey d) with
  | none =>
    rw [hp] at hkept
    have := hkept _ rfl
    simp at this
  | some c =>
    rw [hp] at hkept
    obtain ⟨hc, hkey⟩ := byKey_some hp
    obtain ⟨hfield, hop⟩ := conditionKey_inj hkey
    have hsame : isNumericOperator d.operator = false → d.value.key false = c.value.key false :=
      fun hother => regoEq_of_judged hother hjudged hc hkey
    have hcjudged : changesUnjudged qs c = false :=
      judged_other hqs hd hkey fun hother => (hsame (hop ▸ hother)).symm
    have hholds := h c (List.mem_filter.2 ⟨hc, by simp [hcjudged]⟩)
    cases hnumeric : isNumericOperator c.operator with
    | true =>
      obtain ⟨part, hpart, -, hdecreased⟩ :=
        diffKey_numeric hop hnumeric (hpn c hc hnumeric) (hqn d hd (hop ▸ hnumeric))
      exact holds_of_looser hfield hop hnumeric (hdecreased (hkept part hpart)) hholds
    | false =>
      rw [holds_of_regoEq hfield.symm hop.symm (hsame (hop ▸ hnumeric))]
      exact hholds

end Direction

end Keys

/-! ## The diff -/

theorem mapM_returns {α β : Type} {f : α → Except PyError β} {xs : List α}
    (h : ∀ x ∈ xs, ∃ y, f x = .ok y) : ∃ ys, xs.mapM f = .ok ys := by
  induction xs with
  | nil => exact ⟨[], rfl⟩
  | cons x xs ih =>
    obtain ⟨y, hy⟩ := h x (by simp)
    obtain ⟨ys, hys⟩ := ih fun z hz => h z (by simp [hz])
    exact ⟨y :: ys, by simp [List.mapM_cons, hy, hys]; rfl⟩

/-- The impact, key by key. -/
theorem riskImpact_sound {ps qs : List Condition} (hps : KeysOnce ps) (hqs : KeysOnce qs)
    (hpn : Numeric ps) (hqn : Numeric qs) {parts : List (List ConditionDiffEntry × Bool × Bool)}
    (hparts : (diffKeys ps qs).mapM (fun key => diffKey (byKey ps key) (byKey qs key)) = .ok parts) :
    SoundImpact (riskImpact (parts.any fun part => part.2.1) (parts.any fun part => part.2.2))
      (judged qs ps) (judged ps qs) := by
  have hpart : ∀ c, c ∈ ps ∨ c ∈ qs → ∀ part,
      diffKey (byKey ps (conditionKey c)) (byKey qs (conditionKey c)) = .ok part → part ∈ parts := by
    intro c hc part hpart
    obtain ⟨part', hmem, hpart'⟩ := mapM_ok_mem hparts (mem_diffKeys hc)
    rw [hpart'] at hpart
    exact Except.ok.inj hpart ▸ hmem
  have hdown : (parts.any fun part => part.2.1) = false → ∀ rules sets input,
      Accepts rules sets input (judged ps qs) → Accepts rules sets input (judged qs ps) := by
    intro hnone rules sets input h
    refine accepts_of_not_increased hps hpn hqn ?_ h
    intro c hc part hcp
    simpa using List.any_eq_false.1 hnone part (hpart c (.inl hc) part hcp)
  have hup : (parts.any fun part => part.2.2) = false → ∀ rules sets input,
      Accepts rules sets input (judged qs ps) → Accepts rules sets input (judged ps qs) := by
    intro hnone rules sets input h
    refine accepts_of_not_decreased hqs hpn hqn ?_ h
    intro d hd part hdp
    simpa using List.any_eq_false.1 hnone part (hpart d (.inr hd) part hdp)
  cases hinc : parts.any fun part => part.2.1 with
  | true =>
    cases hdec : parts.any fun part => part.2.2 with
    | true => exact ⟨nofun, nofun, nofun⟩
    | false => exact ⟨nofun, fun _ => hup hdec, nofun⟩
  | false =>
    cases hdec : parts.any fun part => part.2.2 with
    | true => exact ⟨fun _ => hdown hinc, nofun, nofun⟩
    | false =>
      refine ⟨nofun, nofun, ?_⟩
      intro _ rules sets input
      exact ⟨hup hdec rules sets input, hdown hinc rules sets input⟩

/-- **The risk impact is sound** about the judged conditions of two accepted versions, and the diff
returns. -/
theorem computeConditionDiff_sound {p q : RuntimePolicy} (hp : validate p = []) (hq : validate q = [])
    (hpo : KeysOnce p.conditions) (hqo : KeysOnce q.conditions) :
    ∃ diff, computeConditionDiff p q = .ok diff ∧
      SoundImpact diff.riskImpact (judged q.conditions p.conditions)
        (judged p.conditions q.conditions) := by
  have hpn : Numeric p.conditions := fun c hc hop => validate_numeric hp hc hop
  have hqn : Numeric q.conditions := fun c hc hop => validate_numeric hq hc hop
  obtain ⟨parts, hparts⟩ : ∃ parts, (diffKeys p.conditions q.conditions).mapM (fun key =>
      diffKey (byKey p.conditions key) (byKey q.conditions key)) = .ok parts :=
    mapM_returns fun _ _ => diffKey_returns hpn hqn
  refine ⟨_, by rw [computeConditionDiff, hparts]; rfl, ?_⟩
  exact riskImpact_sound hpo hqo hpn hqn hparts

/-! A currency that is replaced, and a limit that is lowered. -/

def paymentPolicy (conditions : List Condition) : RuntimePolicy where
  id := "rp-1"
  name := "Vendor Payment Limit"
  version := 1
  status := .draft
  scope := { principal := "prin_1", action := "vendor_payment", agent := none, resource := none }
  conditions := conditions
  effect := .allow

def currencyIs (currency : String) : Condition := ⟨"currency", .eq, .str currency⟩

def amountAtMost (limit : ℤ) : Condition := ⟨"amount", .lte, .int limit⟩

theorem computeConditionDiff_sound_lowered : ∃ diff,
    computeConditionDiff (paymentPolicy [amountAtMost 100, currencyIs "ZAR"])
      (paymentPolicy [amountAtMost 50, currencyIs "ZAR"]) = .ok diff ∧
    SoundImpact diff.riskImpact [amountAtMost 100, currencyIs "ZAR"]
      [amountAtMost 50, currencyIs "ZAR"] :=
  computeConditionDiff_sound (p := paymentPolicy [amountAtMost 100, currencyIs "ZAR"])
    (q := paymentPolicy [amountAtMost 50, currencyIs "ZAR"]) (by decide +kernel) (by decide +kernel)
    (by decide +kernel) (by decide +kernel)

/-- A payment in rand is refused by the version that asks for dollars. -/
theorem computeConditionDiff_unjudged : ∃ p q : RuntimePolicy, ∃ diff, validate p = [] ∧
    validate q = [] ∧ computeConditionDiff p q = .ok diff ∧
    ¬ SoundImpact diff.riskImpact p.conditions q.conditions := by
  refine ⟨paymentPolicy [currencyIs "ZAR"], paymentPolicy [currencyIs "USD"], _, by decide +kernel,
    by decide +kernel, rfl, ?_⟩
  intro hsound
  have hsame := hsound.unchanged (by decide +kernel) (fun _ => false) (fun _ => [])
    (.obj [("intent", .obj [("currency", .str "ZAR")])])
  simp only [Accepts, paymentPolicy, List.mem_singleton, forall_eq] at hsame
  revert hsame
  decide +kernel

end RuntimePolicyService

end PayReality
