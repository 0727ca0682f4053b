import PayReality.Compiler.CompilerV2

/-!
# Compilations that return

`compile_bundle` looks for conflicts also where the validation has failed, with Python's comparisons
on whatever the values of the conditions are; the fields that two policies touch are a set, which is
iterated over in some order (`FieldOrder`).

**Main result** `compileBundle_returns_iff`: it returns, whatever the order, exactly if the values of
every two policies that can overlap can be compared (`Comparable`), and a list that is compiled has
booleans in its `exists` conditions.
-/

namespace PayReality

/-! ## Computations that raise a `TypeError` -/

/-- `x`, if the values are such that it can be computed. -/
def requiring {α : Type} (c : Bool) (x : Except PyError α) : Except PyError α :=
  if c then x else .error .typeError

section

variable {α β : Type} {c d : Bool} {x : Except PyError α}

@[simp] theorem requiring_false : requiring false x = .error .typeError := rfl

theorem requiring_bind {f : α → Except PyError β} :
    (requiring c x >>= f) = requiring c (x >>= f) := by
  cases c <;> rfl

theorem requiring_and : requiring (c && d) x = requiring c (requiring d x) := by
  cases c <;> rfl

theorem requiring_isOk : (requiring c x).isOk = (c && x.isOk) := by
  cases c <;> rfl

end

namespace ScopeOverlap

/-! ## Comparisons that return -/

/-- `x < y` can be evaluated. -/
def comparable (x y : Json) : Bool :=
  match Json.pyLt x y with
  | .ok _ => true
  | .error _ => false

/-- `x < y`, where it can be evaluated. -/
def below (x y : Json) : Bool :=
  match Json.pyLt x y with
  | .ok b => b
  | .error _ => false

theorem pyEq_comm (x y : Json) : Json.pyEq x y = Json.pyEq y x := by
  unfold Json.pyEq
  rw [decide_eq_decide]
  exact eq_comm

/-- Both values can be compared with each other, or neither can. -/
def Symmetric (x y : Except PyError Bool) : Prop :=
  (∃ b c, x = .ok b ∧ y = .ok c) ∨ x = .error .typeError ∧ y = .error .typeError

theorem pyLt_symmetric (x y : Json) : Symmetric (Json.pyLt x y) (Json.pyLt y x) := by
  refine Json.pyLt.induct (fun x y => Symmetric (Json.pyLt x y) (Json.pyLt y x))
    (fun xs ys => Symmetric (Json.pyLtList xs ys) (Json.pyLtList ys xs)) ?_ ?_ ?_ ?_ ?_ ?_ ?_ ?_ ?_ x y
  · intro s t
    rw [Json.pyLt, Json.pyLt]
    exact .inl ⟨_, _, rfl, rfl⟩
  · intro xs ys h
    rw [Json.pyLt, Json.pyLt]
    exact h
  · intro x y hstr harr p q hq hp
    rw [Json.pyLt.eq_3 x y hstr harr,
      Json.pyLt.eq_3 y x (fun s t hy hx => hstr t s hx hy) fun xs ys hy hx => harr ys xs hx hy, hp, hq]
    exact .inl ⟨_, _, rfl, rfl⟩
  · intro x y hstr harr hnone
    rw [Json.pyLt.eq_3 x y hstr harr,
      Json.pyLt.eq_3 y x (fun s t hy hx => hstr t s hx hy) fun xs ys hy hx => harr ys xs hx hy]
    refine .inr ?_
    cases hx : x.number? with
    | none =>
      cases y.number? <;> exact ⟨rfl, rfl⟩
    | some p =>
      cases hy : y.number? with
      | none => exact ⟨rfl, rfl⟩
      | some q => exact absurd hy (hnone p q hx)
  · rw [Json.pyLtList]
    exact .inl ⟨_, _, rfl, rfl⟩
  · intro y ys
    rw [Json.pyLtList, Json.pyLtList]
    exact .inl ⟨_, _, rfl, rfl⟩
  · intro x xs
    rw [Json.pyLtList, Json.pyLtList]
    exact .inl ⟨_, _, rfl, rfl⟩
  · intro x xs y ys heq h
    have hcomm : Json.pyEq y x = true := pyEq_comm x y ▸ heq
    rw [Json.pyLtList, Json.pyLtList, if_pos heq, if_pos hcomm]
    exact h
  · intro x xs y ys hne h
    have hcomm : ¬ Json.pyEq y x = true := pyEq_comm x y ▸ hne
    rw [Json.pyLtList, Json.pyLtList, if_neg hne, if_neg hcomm]
    exact h

theorem comparable_comm (x y : Json) : comparable x y = comparable y x := by
  unfold comparable
  rcases pyLt_symmetric x y with ⟨b, c, hx, hy⟩ | ⟨hx, hy⟩ <;> rw [hx, hy]

theorem pyLt_eq (x y : Json) : Json.pyLt x y = requiring (comparable x y) (.ok (below x y)) := by
  unfold comparable below
  rcases pyLt_symmetric x y with ⟨b, c, hx, -⟩ | ⟨hx, -⟩ <;> rw [hx] <;> rfl

/-! ## Bounds -/

/-- The two bounds, where there are two, can be compared. -/
def meets : Option Bound → Option Bound → Bool
  | some a, some b => comparable a.1 b.1
  | _, _ => true

def higher : Option Bound → Option Bound → Option Bound
  | none, b => b
  | some a, none => some a
  | some (av, ai), some (bv, bi) =>
    if below bv av then some (av, ai)
    else if below av bv then some (bv, bi)
    else some (av, ai && bi)

def lower : Option Bound → Option Bound → Option Bound
  | none, b => b
  | some a, none => some a
  | some (av, ai), some (bv, bi) =>
    if below av bv then some (av, ai)
    else if below bv av then some (bv, bi)
    else some (av, ai && bi)

theorem tighterLo_eq (a b : Option Bound) :
    tighterLo .python a b = requiring (meets a b) (.ok (higher a b)) := by
  cases a with
  | none => rfl
  | some a =>
    cases b with
    | none => rfl
    | some b =>
      have hba := pyLt_eq b.1 a.1
      rw [comparable_comm] at hba
      show (Json.pyLt b.1 a.1 >>= fun r => if r then pure (some a) else Json.pyLt a.1 b.1 >>= fun r =>
        if r then pure (some b) else pure (some (a.1, a.2 && b.2))) = requiring (comparable a.1 b.1) _
      rw [hba, pyLt_eq a.1 b.1]
      cases comparable a.1 b.1 with
      | false => rfl
      | true =>
        show (if below b.1 a.1 then _ else _) = Except.ok (if below b.1 a.1 then _ else _)
        cases below b.1 a.1 with
        | true => rfl
        | false =>
          show (if below a.1 b.1 then _ else _) = Except.ok (if below a.1 b.1 then _ else _)
          cases below a.1 b.1 <;> rfl

theorem tighterHi_eq (a b : Option Bound) :
    tighterHi .python a b = requiring (meets a b) (.ok (lower a b)) := by
  cases a with
  | none => rfl
  | some a =>
    cases b with
    | none => rfl
    | some b =>
      have hba := pyLt_eq b.1 a.1
      rw [comparable_comm] at hba
      show (Json.pyLt a.1 b.1 >>= fun r => if r then pure (some a) else Json.pyLt b.1 a.1 >>= fun r =>
        if r then pure (some b) else pure (some (a.1, a.2 && b.2))) = requiring (comparable a.1 b.1) _
      rw [hba, pyLt_eq a.1 b.1]
      cases comparable a.1 b.1 with
      | false => rfl
      | true =>
        show (if below a.1 b.1 then _ else _) = Except.ok (if below a.1 b.1 then _ else _)
        cases below a.1 b.1 with
        | true => rfl
        | false =>
          show (if below b.1 a.1 then _ else _) = Except.ok (if below b.1 a.1 then _ else _)
          cases below b.1 a.1 <;> rfl

/-! ## The constraint of a field -/

/-- The comparison that a condition takes can be made. -/
def admissible (k : FieldConstraint) (c : Condition) : Bool :=
  match c.operator with
  | .lte | .lt => meets k.hi (some (c.value, true))
  | .gte | .gt => meets k.lo (some (c.value, true))
  | .neq => c.value.hashable
  | .eq | .isIn | .contains | .exist => true

/-- The constraint with the condition. -/
def extend (k : FieldConstraint) (c : Condition) : FieldConstraint :=
  match c.operator with
  | .lte => { k with hi := lower k.hi (some (c.value, true)) }
  | .lt => { k with hi := lower k.hi (some (c.value, false)) }
  | .gte => { k with lo := higher k.lo (some (c.value, true)) }
  | .gt => { k with lo := higher k.lo (some (c.value, false)) }
  | .eq =>
    match k.eq, c.value with
    | none, .null => k
    | none, v => { k with eq := some v }
    | some _, _ => k
  | .neq => { k with neq := c.value :: k.neq }
  | .isIn =>
    match frozenset .python c.value with
    | none => { k with inconclusive := true }
    | some values =>
      match k.inSet with
      | none => { k with inSet := some values }
      | some s => { k with inSet := some (s.filter fun x => values.any (Json.pyEq x)) }
  | .contains | .exist => { k with inconclusive := true }

theorem meets_value {a : Option Bound} {v : Json} (b b' : Bool) :
    meets a (some (v, b)) = meets a (some (v, b')) := by
  cases a <;> rfl

theorem addCondition_eq (k : FieldConstraint) (c : Condition) :
    addCondition .python k c = requiring (admissible k c) (.ok (extend k c)) := by
  unfold addCondition admissible extend
  cases c.operator with
  | lte | lt =>
    dsimp only
    rw [tighterHi_eq, meets_value _ true, requiring_bind]
    rfl
  | gte | gt =>
    dsimp only
    rw [tighterLo_eq, meets_value _ true, requiring_bind]
    rfl
  | eq =>
    dsimp only
    cases k.eq with
    | none => cases c.value <;> rfl
    | some v => rfl
  | neq => rfl
  | isIn =>
    dsimp only
    cases frozenset .python c.value with
    | none => rfl
    | some values => cases k.inSet <;> rfl
  | contains | exist => rfl

/-- The comparisons of all of them can be made, one after the other. -/
def buildable (k : FieldConstraint) : List Condition → Bool
  | [] => true
  | c :: cs => admissible k c && buildable (extend k c) cs

def constraintOf (cs : List Condition) : FieldConstraint := cs.foldl extend {}

theorem buildFieldConstraint_eq (cs : List Condition) :
    buildFieldConstraint .python cs = requiring (buildable {} cs) (.ok (constraintOf cs)) := by
  unfold buildFieldConstraint constraintOf
  generalize ({} : FieldConstraint) = k
  induction cs generalizing k with
  | nil => rfl
  | cons c cs ih =>
    rw [List.foldlM_cons, addCondition_eq, buildable, requiring_bind, requiring_and]
    exact congrArg (requiring (admissible k c)) (ih (extend k c))

/-! ## Two constraints -/

/-- An equality can be compared with the bounds. -/
def narrowable (lo hi : Option Bound) : Option Json → Bool
  | none => true
  | some v => meets lo (some (v, true)) && meets hi (some (v, true))

def narrowed (lo hi : Option Bound) : Option Json → Option Bound × Option Bound
  | none => (lo, hi)
  | some v => (higher lo (some (v, true)), lower hi (some (v, true)))

theorem narrow_eq (lo hi : Option Bound) (e : Option Json) :
    narrow .python lo hi e = requiring (narrowable lo hi e) (.ok (narrowed lo hi e)) := by
  cases e with
  | none => rfl
  | some v =>
    show (tighterLo .python lo (some (v, true)) >>= fun l => tighterHi .python hi (some (v, true)) >>=
      fun h => pure (l, h)) = requiring (meets lo (some (v, true)) && meets hi (some (v, true))) _
    rw [tighterLo_eq, tighterHi_eq, requiring_bind, requiring_and]
    refine congrArg (requiring _) ?_
    show (requiring _ _ >>= _) = _
    rw [requiring_bind]
    rfl

/-- The bounds can be compared, and looked up where they coincide. -/
def boundsComparable : Option Bound → Option Bound → Bool
  | some (lo, loIncl), some (hi, hiIncl) =>
    comparable hi lo && (below hi lo || !Json.pyEq lo hi || !(loIncl && hiIncl) || lo.hashable)
  | _, _ => true

theorem boundsCanMeet_isOk (neq₁ neq₂ : List Json) (lo hi : Option Bound) :
    (boundsCanMeet .python neq₁ neq₂ lo hi).isOk = boundsComparable lo hi := by
  cases lo with
  | none => rfl
  | some lo =>
    cases hi with
    | none => rfl
    | some hi =>
      unfold boundsCanMeet boundsComparable
      have hlt : ValueOrder.python.lt hi.1 lo.1 = requiring (comparable hi.1 lo.1) (.ok (below hi.1 lo.1)) :=
        pyLt_eq hi.1 lo.1
      dsimp only
      rw [hlt, requiring_bind, requiring_isOk]
      refine congrArg (_ && ·) ?_
      show Except.isOk (if below hi.1 lo.1 then _ else _) = _
      cases below hi.1 lo.1 with
      | true => rfl
      | false =>
        show Except.isOk (if Json.pyEq lo.1 hi.1 then _ else _) = _
        cases Json.pyEq lo.1 hi.1 with
        | false => rfl
        | true =>
          show Except.isOk (if !(lo.2 && hi.2) then _ else _) = _
          cases lo.2 && hi.2 with
          | false => rfl
          | true =>
            -- the value is looked up in both sets, or the first one has it
            show Except.isOk (requiring lo.1.hashable (.ok (neq₁.any (Json.pyEq lo.1))) >>= _) = _
            rw [requiring_bind, requiring_isOk]
            cases hhash : lo.1.hashable with
            | false => rfl
            | true =>
              show Except.isOk (if neq₁.any (Json.pyEq lo.1) then _ else _) = true
              cases neq₁.any (Json.pyEq lo.1) with
              | true => rfl
              | false =>
                show Except.isOk (requiring lo.1.hashable (.ok (neq₂.any (Json.pyEq lo.1))) >>= _) = true
                rw [hhash]
                show Except.isOk (if neq₂.any (Json.pyEq lo.1) then _ else _) = true
                cases neq₂.any (Json.pyEq lo.1) <;> rfl

/-- What is compared of the constraints of two policies on a field can be compared. -/
def comparableConstraints (k₁ k₂ : FieldConstraint) : Bool :=
  k₁.inconclusive || k₂.inconclusive ||
    meets k₁.lo k₂.lo && (meets k₁.hi k₂.hi &&
      (equalitiesDiffer .python k₁.eq k₂.eq ||
        (narrowable (higher k₁.lo k₂.lo) (lower k₁.hi k₂.hi) k₁.eq &&
          let n := narrowed (higher k₁.lo k₂.lo) (lower k₁.hi k₂.hi) k₁.eq
          narrowable n.1 n.2 k₂.eq &&
            (setsDisjoint .python k₁.inSet k₂.inSet ||
              let m := narrowed n.1 n.2 k₂.eq
              boundsComparable m.1 m.2))))

theorem fieldsCanOverlap_isOk (k₁ k₂ : FieldConstraint) :
    (fieldsCanOverlap .python k₁ k₂).isOk = comparableConstraints k₁ k₂ := by
  unfold fieldsCanOverlap comparableConstraints
  cases k₁.inconclusive || k₂.inconclusive with
  | true => rfl
  | false =>
    show Except.isOk (tighterLo .python k₁.lo k₂.lo >>= _) = _
    rw [tighterLo_eq, requiring_bind, requiring_isOk, Bool.false_or]
    refine congrArg (_ && ·) ?_
    show Except.isOk (tighterHi .python k₁.hi k₂.hi >>= _) = _
    rw [tighterHi_eq, requiring_bind, requiring_isOk]
    refine congrArg (_ && ·) ?_
    show Except.isOk (if equalitiesDiffer .python k₁.eq k₂.eq then _ else _) = _
    cases equalitiesDiffer .python k₁.eq k₂.eq with
    | true => rfl
    | false =>
      show Except.isOk (narrow .python _ _ k₁.eq >>= _) = _
      rw [narrow_eq, requiring_bind, requiring_isOk, Bool.false_or]
      refine congrArg (_ && ·) ?_
      show Except.isOk (narrow .python _ _ k₂.eq >>= _) = _
      rw [narrow_eq, requiring_bind, requiring_isOk]
      refine congrArg (_ && ·) ?_
      show Except.isOk (if setsDisjoint .python k₁.inSet k₂.inSet then _ else _) = _
      cases setsDisjoint .python k₁.inSet k₂.inSet with
      | true => rfl
      | false => exact boundsCanMeet_isOk _ _ _ _

/-! ## Two policies -/

/-- What is compared of the conditions of two policies on a field can be compared. -/
def fieldComparable (p₁ p₂ : RuntimePolicy) (field : String) : Bool :=
  buildable {} (conditionsOn p₁ field) && (buildable {} (conditionsOn p₂ field) &&
    comparableConstraints (constraintOf (conditionsOn p₁ field)) (constraintOf (conditionsOn p₂ field)))

theorem fieldCanOverlap_isOk (p₁ p₂ : RuntimePolicy) (field : String) :
    (fieldCanOverlap .python p₁ p₂ field).isOk = fieldComparable p₁ p₂ field := by
  unfold fieldCanOverlap fieldComparable
  rw [buildFieldConstraint_eq, buildFieldConstraint_eq, requiring_bind, requiring_isOk]
  refine congrArg (_ && ·) ?_
  show Except.isOk (requiring _ _ >>= _) = _
  rw [requiring_bind, requiring_isOk]
  exact congrArg (_ && ·) (fieldsCanOverlap_isOk _ _)

/-- The loop of `policies_can_jointly_match` over fields in some order. -/
def jointlyMatchOver (p₁ p₂ : RuntimePolicy) : List String → Except PyError Bool
  | [] => .ok true
  | field :: fields => do
    if ← fieldCanOverlap .python p₁ p₂ field then jointlyMatchOver p₁ p₂ fields
    else return false

/-- An order in which the fields that two policies touch are iterated over. -/
structure FieldOrder where
  fields : RuntimePolicy → RuntimePolicy → List String
  perm (p₁ p₂ : RuntimePolicy) : (fields p₁ p₂).Perm (touchedFields p₁ p₂)

/-- `policies_can_jointly_match`, with the order of its loop. -/
def policiesCanJointlyMatchIn (order : FieldOrder) (p₁ p₂ : RuntimePolicy) : Except PyError Bool :=
  if scopesCanOverlap p₁ p₂ then jointlyMatchOver p₁ p₂ (order.fields p₁ p₂) else .ok false

/-- The values of two policies that can overlap can be compared, field by field. -/
def Comparable (p₁ p₂ : RuntimePolicy) : Prop :=
  scopesCanOverlap p₁ p₂ = true → ∀ field ∈ touchedFields p₁ p₂, fieldComparable p₁ p₂ field = true

section

variable {p₁ p₂ : RuntimePolicy}

theorem fieldCanOverlap_ok {field : String} (h : fieldComparable p₁ p₂ field = true) :
    ∃ b, fieldCanOverlap .python p₁ p₂ field = .ok b := by
  rw [← fieldCanOverlap_isOk] at h
  cases hf : fieldCanOverlap .python p₁ p₂ field with
  | error e =>
    rw [hf] at h
    cases h
  | ok b => exact ⟨b, rfl⟩

/-- Where everything can be compared the order does not matter. -/
theorem jointlyMatchOver_ok {fields : List String}
    (h : ∀ field ∈ fields, fieldComparable p₁ p₂ field = true) :
    jointlyMatchOver p₁ p₂ fields =
      .ok (!fields.any fun field => separates (fieldCanOverlap .python p₁ p₂ field)) := by
  induction fields with
  | nil => rfl
  | cons field fields ih =>
    rw [List.forall_mem_cons] at h
    obtain ⟨b, hb⟩ := fieldCanOverlap_ok h.1
    rw [jointlyMatchOver, List.any_cons, hb]
    cases b with
    | true => exact ih h.2
    | false => rfl

theorem policiesCanJointlyMatchIn_ok (order : FieldOrder) (h : Comparable p₁ p₂) :
    policiesCanJointlyMatchIn order p₁ p₂ = policiesCanJointlyMatch .python p₁ p₂ := by
  unfold policiesCanJointlyMatchIn policiesCanJointlyMatch
  by_cases hs : scopesCanOverlap p₁ p₂ = true
  · rw [if_pos hs, if_pos hs]
    have hall := h hs
    rw [jointlyMatchOver_ok fun field hfield => hall field ((order.perm p₁ p₂).mem_iff.1 hfield),
      (order.perm p₁ p₂).any_eq]
    dsimp only
    rw [List.any_map]
    cases hany : (touchedFields p₁ p₂).any fun field => separates (fieldCanOverlap .python p₁ p₂ field) with
    | true => exact (if_pos hany).symm
    | false =>
      refine Eq.trans ?_ (if_neg (Bool.not_eq_true _ ▸ hany)).symm
      rw [List.foldlM_map]
      generalize touchedFields p₁ p₂ = fields at hall hany
      induction fields with
      | nil => rfl
      | cons field fields ih =>
        rw [List.forall_mem_cons] at hall
        obtain ⟨b, hb⟩ := fieldCanOverlap_ok hall.1
        rw [List.any_cons, hb, Bool.or_eq_false_iff] at hany
        rw [List.foldlM_cons, hb]
        cases b with
        | true => exact ih hall.2 hany.2
        | false => cases hany.1
  · rw [if_neg hs, if_neg hs]

/-- The order in which a field comes first. -/
def FieldOrder.first (field : String) : FieldOrder where
  fields p₁ p₂ :=
    if field ∈ touchedFields p₁ p₂ then field :: (touchedFields p₁ p₂).erase field
    else touchedFields p₁ p₂
  perm p₁ p₂ := by
    split
    · next h => exact (List.perm_cons_erase h).symm
    · exact .refl _

/-- Whatever the order, every field is compared. -/
theorem comparable_of_ok (h : ∀ order, (policiesCanJointlyMatchIn order p₁ p₂).isOk = true) :
    Comparable p₁ p₂ := by
  intro hs field hfield
  have hfirst := h (.first field)
  unfold policiesCanJointlyMatchIn at hfirst
  rw [if_pos hs, show (FieldOrder.first field).fields p₁ p₂ = field :: (touchedFields p₁ p₂).erase field
    from if_pos hfield, jointlyMatchOver] at hfirst
  rw [← fieldCanOverlap_isOk]
  cases hf : fieldCanOverlap .python p₁ p₂ field with
  | error e =>
    rw [hf] at hfirst
    cases hfirst
  | ok b => rfl

end

end ScopeOverlap

open ScopeOverlap

namespace CompilerV2

/-! ## Compilations -/

/-- `conflicting`, with the order of the loop. -/
def conflictingIn (order : FieldOrder) (p₁ p₂ : RuntimePolicy) : Except PyError Bool := do
  if ← policiesCanJointlyMatchIn order p₁ p₂ then return true
  return hasContradictoryEquality p₁ p₂

def conflictsWithIn (order : FieldOrder) (p₁ : RuntimePolicy) :
    List RuntimePolicy → Except PyError (List CompilerError)
  | [] => .ok []
  | p₂ :: ps => do
    let found ← conflictingIn order p₁ p₂
    let rest ← conflictsWithIn order p₁ ps
    return if found then conflictError p₁ p₂ :: rest else rest

def groupConflictsIn (order : FieldOrder) : List RuntimePolicy → Except PyError (List CompilerError)
  | [] => .ok []
  | p :: ps => do return (← conflictsWithIn order p ps) ++ (← groupConflictsIn order ps)

def policyConflictsIn (order : FieldOrder) (policies : List RuntimePolicy) :
    Except PyError (List CompilerError) := do
  return (← (scopeKeys policies).mapM fun key => groupConflictsIn order (group policies key)).flatten

/-- `compile_bundle`, with the order of the loops over fields. -/
def compileBundleIn (order : FieldOrder) (vocabulary : Vocabulary) (policies : List RuntimePolicy)
    (bundleId : String) (bundleVersion : Int) (now : Timestamp) : Except PyError CompileResult := do
  let errors := policies.flatMap (policyErrors vocabulary) ++ (← policyConflictsIn order policies)
  if errors.isEmpty then
    let bundle ← BundleBuilder.buildBundle policies bundleId bundleVersion now
    return ⟨some bundle, []⟩
  else return ⟨none, errors⟩

/-! ### What returns -/

section

variable {α β γ : Type} {x : Except PyError α}

theorem map_isOk {f : α → β} : (do return f (← x) : Except PyError β).isOk = x.isOk := by
  cases x <;> rfl

theorem both_isOk {y : Except PyError β} {f : α → β → γ} :
    (do let a ← x; let b ← y; return f a b : Except PyError γ).isOk = (x.isOk && y.isOk) := by
  cases x <;> cases y <;> rfl

theorem mapM_isOk {f : α → Except PyError β} {xs : List α} :
    (xs.mapM f).isOk = xs.all fun x => (f x).isOk := by
  induction xs with
  | nil => rfl
  | cons x xs ih =>
    rw [List.mapM_cons, both_isOk, ih, List.all_cons]

end

section

variable {order : FieldOrder} {p₁ p₂ : RuntimePolicy} {policies : List RuntimePolicy}

theorem conflictingIn_isOk :
    (conflictingIn order p₁ p₂).isOk = (policiesCanJointlyMatchIn order p₁ p₂).isOk := by
  unfold conflictingIn
  cases policiesCanJointlyMatchIn order p₁ p₂ with
  | error e => rfl
  | ok b => cases b <;> rfl

theorem conflictsWithIn_isOk {ps : List RuntimePolicy} :
    (conflictsWithIn order p₁ ps).isOk = ps.all fun p₂ => (conflictingIn order p₁ p₂).isOk := by
  induction ps with
  | nil => rfl
  | cons p₂ ps ih => rw [conflictsWithIn, both_isOk, ih, List.all_cons]

theorem groupConflictsIn_isOk {ps : List RuntimePolicy} :
    (groupConflictsIn order ps).isOk = true ↔
      ps.Pairwise fun p₁ p₂ => (conflictingIn order p₁ p₂).isOk = true := by
  induction ps with
  | nil => exact iff_of_true rfl .nil
  | cons p ps ih =>
    rw [groupConflictsIn, both_isOk, Bool.and_eq_true, ih, conflictsWithIn_isOk, List.all_eq_true,
      List.pairwise_cons]

theorem scopeKey_of_overlap (h : scopesCanOverlap p₁ p₂ = true) :
    p₁.scope.principal = p₂.scope.principal ∧ p₁.scope.action = p₂.scope.action := by
  unfold scopesCanOverlap at h
  simp only [Bool.and_eq_true, decide_eq_true_eq] at h
  exact h.1.1

/-- The conflicts are found if every two policies whose scopes can overlap can be matched. -/
theorem pairwise_of_policyConflictsIn (h : (policyConflictsIn order policies).isOk = true) :
    policies.Pairwise fun p₁ p₂ => (policiesCanJointlyMatchIn order p₁ p₂).isOk = true := by
  unfold policyConflictsIn at h
  rw [map_isOk, mapM_isOk, List.all_eq_true] at h
  rw [List.pairwise_iff_forall_sublist]
  intro p₁ p₂ hsub
  by_cases hs : scopesCanOverlap p₁ p₂ = true
  · obtain ⟨hprincipal, haction⟩ := scopeKey_of_overlap hs
    have hmem : (p₁.scope.principal, p₁.scope.action) ∈ scopeKeys policies := by
      simp only [scopeKeys, List.mem_reverse, List.mem_dedup, List.mem_map]
      exact ⟨p₁, hsub.subset List.mem_cons_self, rfl⟩
    have hgroup : [p₁, p₂].Sublist (group policies (p₁.scope.principal, p₁.scope.action)) := by
      have := hsub.filter fun p => decide ((p.scope.principal, p.scope.action) =
        (p₁.scope.principal, p₁.scope.action))
      rwa [List.filter_eq_self.2 (by simp [hprincipal, haction])] at this
    rw [← conflictingIn_isOk]
    exact List.pairwise_iff_forall_sublist.1 (groupConflictsIn_isOk.1 (h _ hmem)) hgroup
  · unfold policiesCanJointlyMatchIn
    rw [if_neg hs]
    rfl

/-! ### Where everything can be compared -/

theorem conflictingIn_ok (h : Comparable p₁ p₂) : conflictingIn order p₁ p₂ = conflicting p₁ p₂ := by
  unfold conflictingIn conflicting
  rw [policiesCanJointlyMatchIn_ok order h]

theorem conflictsWithIn_ok {ps : List RuntimePolicy} (h : ∀ p₂ ∈ ps, Comparable p₁ p₂) :
    conflictsWithIn order p₁ ps = conflictsWith p₁ ps := by
  induction ps with
  | nil => rfl
  | cons p₂ ps ih =>
    rw [List.forall_mem_cons] at h
    rw [conflictsWithIn, conflictsWith, conflictingIn_ok h.1, ih h.2]

theorem groupConflictsIn_ok {ps : List RuntimePolicy} (h : ps.Pairwise Comparable) :
    groupConflictsIn order ps = groupConflicts ps := by
  induction ps with
  | nil => rfl
  | cons p ps ih =>
    rw [List.pairwise_cons] at h
    rw [groupConflictsIn, groupConflicts, conflictsWithIn_ok h.1, ih h.2]

theorem policyConflictsIn_ok (h : policies.Pairwise Comparable) :
    policyConflictsIn order policies = policyConflicts policies := by
  have hgroups : ∀ key, groupConflictsIn order (group policies key) = groupConflicts (group policies key) :=
    fun key => groupConflictsIn_ok (h.filter _)
  unfold policyConflictsIn policyConflicts
  rw [funext hgroups]

theorem compileBundleIn_ok {vocabulary : Vocabulary} {bundleId : String} {bundleVersion : Int}
    {now : Timestamp} (h : policies.Pairwise Comparable) :
    compileBundleIn order vocabulary policies bundleId bundleVersion now =
      compileBundle vocabulary policies bundleId bundleVersion now := by
  unfold compileBundleIn compileBundle
  rw [policyConflictsIn_ok h]

/-- The conflicts of policies that can be compared are found. -/
theorem policyConflictsIn_isOk (order : FieldOrder) (h : policies.Pairwise Comparable) :
    (policyConflictsIn order policies).isOk = true := by
  unfold policyConflictsIn
  rw [map_isOk, mapM_isOk, List.all_eq_true]
  intro key _
  refine groupConflictsIn_isOk.2 ((h.filter _).imp fun {p₁ p₂} hcomparable => ?_)
  rw [conflictingIn_isOk]
  by_cases hs : scopesCanOverlap p₁ p₂ = true
  · unfold policiesCanJointlyMatchIn
    rw [if_pos hs, jointlyMatchOver_ok fun field hfield =>
      hcomparable hs field ((order.perm p₁ p₂).mem_iff.1 hfield)]
    rfl
  · unfold policiesCanJointlyMatchIn
    rw [if_neg hs]
    rfl

end

/-! ### Generation -/

/-- An `exists` condition has a boolean. -/
def existsBoolean (c : Condition) : Bool :=
  match c.operator, c.value with
  | .exist, .bool _ => true
  | .exist, _ => false
  | _, _ => true

theorem generateConditionExpression_isOk (c : Condition) :
    (RegoGenerator.generateConditionExpression c).isOk = existsBoolean c := by
  unfold RegoGenerator.generateConditionExpression existsBoolean
  cases c.operator with
  | exist =>
    cases c.value with
    | bool b => cases b <;> rfl
    | _ => rfl
  | _ => rfl

theorem buildBundle_isOk (policies : List RuntimePolicy) (bundleId : String) (bundleVersion : Int)
    (now : Timestamp) : (BundleBuilder.buildBundle policies bundleId bundleVersion now).isOk =
      policies.all fun p => p.conditions.all existsBoolean := by
  unfold BundleBuilder.buildBundle
  refine map_isOk.trans (mapM_isOk.trans ?_)
  congr 1
  funext p
  refine map_isOk.trans (mapM_isOk.trans ?_)
  congr 1
  funext c
  exact generateConditionExpression_isOk c

/-! ## Main result -/

theorem isOk_iff {α : Type} {x : Except PyError α} : x.isOk = true ↔ ∃ a, x = .ok a := by
  cases x with
  | error e => exact iff_of_false nofun nofun
  | ok a => exact iff_of_true rfl ⟨a, rfl⟩

section

variable {vocabulary : Vocabulary} {policies : List RuntimePolicy}

/-- Every policy is accepted alone, and no two of them conflict. -/
def Clean (vocabulary : Vocabulary) (policies : List RuntimePolicy) : Prop :=
  (∀ p ∈ policies, policyErrors vocabulary p = []) ∧
    policies.Pairwise fun p q => compatible p q = true

theorem clean_iff : Clean vocabulary policies ↔
    policies.flatMap (policyErrors vocabulary) = [] ∧ policyConflicts policies = .ok [] := by
  unfold Clean
  rw [List.flatMap_eq_nil_iff]
  refine and_congr_right fun _ => ⟨policyConflicts_eq_nil, fun h => ?_⟩
  refine (policyConflicts_nil h).imp fun {p q} hpq => ?_
  unfold compatible
  by_cases hprincipal : p.scope.principal = q.scope.principal
  · by_cases haction : p.scope.action = q.scope.action
    · rw [hpq hprincipal haction]
      simp
    · simp [haction]
  · simp [hprincipal]

/-- Where the conflicts are found, a clean list has to have a bundle. -/
theorem compileBundle_isOk {bundleId : String} {bundleVersion : Int} {now : Timestamp}
    (h : (policyConflicts policies).isOk = true) :
    (compileBundle vocabulary policies bundleId bundleVersion now).isOk = true ↔
      (Clean vocabulary policies →
        (BundleBuilder.buildBundle policies bundleId bundleVersion now).isOk = true) := by
  obtain ⟨found, hfound⟩ := isOk_iff.1 h
  rw [clean_iff, hfound]
  have hcompile : compileBundle vocabulary policies bundleId bundleVersion now =
      if (policies.flatMap (policyErrors vocabulary) ++ found).isEmpty then do
        let bundle ← BundleBuilder.buildBundle policies bundleId bundleVersion now
        return ⟨some bundle, []⟩
      else return ⟨none, policies.flatMap (policyErrors vocabulary) ++ found⟩ := by
    unfold compileBundle
    rw [hfound]
    rfl
  rw [hcompile]
  by_cases hempty : (policies.flatMap (policyErrors vocabulary) ++ found).isEmpty = true
  · rw [if_pos hempty]
    obtain ⟨herrors, rfl⟩ := List.append_eq_nil_iff.1 (List.isEmpty_iff.1 hempty)
    exact ⟨fun hbuild _ => map_isOk.symm.trans hbuild, fun hbuild => map_isOk.trans (hbuild ⟨herrors, rfl⟩)⟩
  · rw [if_neg hempty]
    refine iff_of_true rfl fun hclean => absurd ?_ hempty
    rw [hclean.1, Except.ok.inj hclean.2]
    rfl

/-- **Compilation returns exactly where it can compare, and has booleans where it needs them.** -/
theorem compileBundle_returns_iff (vocabulary : Vocabulary) (policies : List RuntimePolicy)
    (bundleId : String) (bundleVersion : Int) (now : Timestamp) :
    (∀ order, ∃ r, compileBundleIn order vocabulary policies bundleId bundleVersion now = .ok r) ↔
      policies.Pairwise Comparable ∧ (Clean vocabulary policies →
        ∀ p ∈ policies, ∀ c ∈ p.conditions, existsBoolean c = true) := by
  have hbooleans : (BundleBuilder.buildBundle policies bundleId bundleVersion now).isOk = true ↔
      ∀ p ∈ policies, ∀ c ∈ p.conditions, existsBoolean c = true := by
    rw [buildBundle_isOk, List.all_eq_true]
    simp only [List.all_eq_true]
  constructor
  · intro h
    have hfound : ∀ order, (policyConflictsIn order policies).isOk = true := by
      intro order
      obtain ⟨r, hr⟩ := h order
      obtain ⟨found, hfound, -⟩ := bind_ok.1 hr
      exact isOk_iff.2 ⟨found, hfound⟩
    have hcomparable : policies.Pairwise Comparable := by
      rw [List.pairwise_iff_forall_sublist]
      intro p₁ p₂ hsub
      exact comparable_of_ok fun order =>
        List.pairwise_iff_forall_sublist.1 (pairwise_of_policyConflictsIn (hfound order)) hsub
    refine ⟨hcomparable, fun hclean => ?_⟩
    have hreturns := isOk_iff.2 (h (.first ""))
    rw [compileBundleIn_ok hcomparable] at hreturns
    have hpolicies := hfound (.first "")
    rw [policyConflictsIn_ok hcomparable] at hpolicies
    exact hbooleans.1 ((compileBundle_isOk hpolicies).1 hreturns hclean)
  · rintro ⟨hcomparable, hclean⟩ order
    have hfound := policyConflictsIn_isOk order hcomparable
    rw [policyConflictsIn_ok hcomparable] at hfound
    rw [compileBundleIn_ok hcomparable]
    exact isOk_iff.1 ((compileBundle_isOk hfound).2 fun h => hbooleans.2 (hclean h))

end

/-! ### Values that cannot be compared

Both policies are accepted alone, and so is the third one. -/

def paymentWhere (id : String) (conditions : List Condition) : RuntimePolicy where
  id
  name := "Payments"
  version := 1
  status := .compiled
  scope := ⟨"ops", "vendor_payment", none, none⟩
  conditions
  effect := .allow

def upTo100 : RuntimePolicy := paymentWhere "small" [⟨"amount", .lte, .int 100⟩]

def namedAmount : RuntimePolicy := paymentWhere "named" [⟨"amount", .eq, .str "high"⟩]

def anyAmount : RuntimePolicy := paymentWhere "any" [⟨"amount", .exist, .int 1⟩]

theorem compileBundle_raises :
    (∀ p ∈ [upTo100, namedAmount, anyAmount], policyErrors genericVocabulary p = []) ∧
    compileBundleIn (.first "amount") genericVocabulary [upTo100, namedAmount] "b" 1 0 =
      .error .typeError ∧
    compileBundleIn (.first "amount") genericVocabulary [anyAmount] "b" 1 0 = .error .valueError :=
  ⟨by decide +kernel, by rfl, by rfl⟩

end CompilerV2

end PayReality
