import PayReality.Decision.Outcomes

/-!
# What a bundle decides

The module of a bundle, with any bodies for the rules of its policies. Which of the bodies hold is
all that decides (`answer_congr`), and every choice of truth values is that of some policies
(`standIn`), so the laws of the intended module are those of any other.

**Main result** `bundle_outcomes`: a review is asked for first, then a policy that denies prevails
over those that allow, and what nothing covers is denied; two policies that give different reasons
leave OPA without an answer. All of it needs a policy: an empty bundle counts a set that it has no
rule for, and OPA does not load it.
-/

namespace PayReality

open Rego RegoGenerator BundleBuilder

/-! ## Modules that answer alike -/

/-- Two rules that define the same and hold alike. -/
def SameRule (input input' : Json) (r r' : Rule) : Prop :=
  r.head = r'.head ∧ ∀ rules sets, r.holds rules sets input = r'.holds rules sets input'

section Congr

variable {m m' : Module} {input input' : Json}

theorem filterMap_congr_rules {α : Type} {rs rs' : List Rule}
    (h : List.Forall₂ (SameRule input input') rs rs') (rules : String → Bool)
    (sets : String → List Json) (f : Head → Option α) :
    (rs.filterMap fun r => if r.holds rules sets input then f r.head else none) =
      rs'.filterMap fun r => if r.holds rules sets input' then f r.head else none := by
  induction h with
  | nil => rfl
  | cons h _ ih =>
    rw [List.filterMap_cons, List.filterMap_cons, h.1, h.2 rules sets, ih]

theorem truth_congr (h : List.Forall₂ (SameRule input input') m.rules m'.rules)
    (rules : String → Bool) (sets : String → List Json) :
    m.truth rules sets input = m'.truth rules sets input' := by
  funext n
  unfold Module.truth
  generalize m.rules = rs, m'.rules = rs' at h
  induction h with
  | nil => rfl
  | cons h _ ih => rw [List.any_cons, List.any_cons, h.1, h.2 rules sets, ih]

theorem names_congr (h : List.Forall₂ (SameRule input input') m.rules m'.rules)
    (kind : Head → Option String) : m.names kind = m'.names kind := by
  have hheads : m.rules.map Rule.head = m'.rules.map Rule.head := by
    generalize m.rules = rs, m'.rules = rs' at h
    induction h with
    | nil => rfl
    | cons h _ ih => rw [List.map_cons, List.map_cons, h.1, ih]
  have hkind : ∀ rs : List Rule, (rs.filterMap fun r => kind r.head) =
      (rs.map Rule.head).filterMap kind := by
    intro rs
    rw [List.filterMap_map]
    rfl
  unfold Module.names
  rw [hkind, hkind, hheads]

/-- **Modules whose rules hold alike answer alike.** -/
theorem answer_congr (h : List.Forall₂ (SameRule input input') m.rules m'.rules)
    (hdefaults : m.defaults = m'.defaults) : m.answer input = m'.answer input' := by
  have hbase : m.base input = m'.base input' := truth_congr h _ _
  have hsets : m.sets₁ input = m'.sets₁ input' := by
    funext n
    unfold Module.sets₁
    rw [hbase]
    exact filterMap_congr_rules h _ _ _
  have htrue : m.isTrue input = m'.isTrue input' := by
    unfold Module.isTrue
    rw [hbase, hsets]
    exact truth_congr h _ _
  have hassigned : m.assigned input = m'.assigned input' := by
    funext n
    unfold Module.assigned
    rw [hbase, hsets]
    exact filterMap_congr_rules h _ _ _
  have hcomplete : m.complete input = m'.complete input' := by
    funext n
    unfold Module.complete
    rw [hassigned]
  have hlisted : m.listed input = m'.listed input' := by
    funext n
    unfold Module.listed
    rw [hsets]
  unfold Module.answer
  rw [names_congr h, names_congr h, names_congr h, hcomplete, htrue, hlisted, hdefaults]

end Congr

/-! ## Policies that stand in for truth values -/

/-- The expression reads the input only. -/
def Rego.Expr.inputOnly : Expr → Bool
  | .rule _ | .countZero _ => false
  | _ => true

/-- Whether a body that reads the input only holds. -/
def bodyHolds (body : List Expr) (input : Json) : Bool :=
  body.all (Expr.holds (fun _ => false) (fun _ => []) input)

theorem holds_inputOnly {e : Expr} (h : e.inputOnly = true) (rules sets) (input : Json) :
    e.holds rules sets input = e.holds (fun _ => false) (fun _ => []) input := by
  cases e with
  | rule | countZero => cases h
  | compare | member | contains | present => rfl

theorem ruleWith_holds {p : RuntimePolicy} {body : List Expr}
    (h : ∀ e ∈ body, e.inputOnly = true) (rules sets) (input : Json) :
    (ruleWith p body).holds rules sets input = bodyHolds body input := by
  unfold Rule.holds bodyHolds ruleWith
  rw [Bool.eq_iff_iff, List.all_eq_true, List.all_eq_true]
  exact forall_congr' fun e => imp_congr_right fun he => by rw [holds_inputOnly (h e he)]

/-- The input on which the stand-ins are evaluated. -/
def standInInput : Json :=
  .obj [("intent", .obj [("action", .str "a")]),
    ("agent", .obj [("acting_for_principal_id", .str "p")])]

/-- A policy with the id and the effect of `p` whose rule holds on the input exactly if `b`. -/
def standIn (p : RuntimePolicy) (b : Bool) : RuntimePolicy :=
  { p with
    scope := ⟨"p", "a", none, none⟩
    conditions := if b then [] else [⟨"amount", .gt, .null⟩] }

theorem standIn_holds (p : RuntimePolicy) (b : Bool) :
    ruleHolds (standIn p b) standInInput = b := by
  cases b <;> rfl

/-- The stand-ins for the truth values of the bodies on an input. -/
def standIns (ps : List RuntimePolicy) (body : RuntimePolicy → List Expr) (input : Json) :
    List RuntimePolicy :=
  ps.map fun p => standIn p (bodyHolds (body p) input)

/-- A rule that reads other rules only holds alike on all inputs. -/
theorem sameRule_of_refs {r : Rule} (h : ∀ e ∈ r.body, e.inputOnly = false) (input input' : Json) :
    SameRule input input' r r := by
  refine ⟨rfl, fun rules sets => ?_⟩
  unfold Rule.holds
  rw [Bool.eq_iff_iff, List.all_eq_true, List.all_eq_true]
  refine forall_congr' fun e => imp_congr_right fun he => ?_
  have hread := h e he
  cases e with
  | rule | countZero => rfl
  | compare | member | contains | present => cases hread

theorem forall₂_refs {rs : List Rule} (h : ∀ r ∈ rs, ∀ e ∈ r.body, e.inputOnly = false)
    (input input' : Json) : List.Forall₂ (SameRule input input') rs rs :=
  List.forall₂_same.2 fun r hr => sameRule_of_refs (h r hr) input input'

theorem aggregateRules_standIns (ps : List RuntimePolicy) (body : RuntimePolicy → List Expr)
    (input : Json) (e : Effect) :
    aggregateRules (standIns ps body input) e = aggregateRules ps e := by
  unfold aggregateRules standIns
  rw [List.filter_map, List.map_map]
  rfl

theorem evaluatedRules_standIns (ps : List RuntimePolicy) (body : RuntimePolicy → List Expr)
    (input : Json) :
    (standIns ps body input).map evaluatedRule = ps.map evaluatedRule := by
  unfold standIns
  rw [List.map_map]
  rfl

theorem reasonRules_standIns (ps : List RuntimePolicy) (body : RuntimePolicy → List Expr)
    (input : Json) :
    (standIns ps body input).filterMap reasonRule = ps.filterMap reasonRule := by
  unfold standIns
  rw [List.filterMap_map]
  rfl

theorem collecting_refs (ps : List RuntimePolicy) :
    ∀ r ∈ collectingRules ps, ∀ e ∈ r.body, e.inputOnly = false := by
  intro r hr e he
  simp only [collectingRules, List.mem_append] at hr
  rcases hr with ((((hr | hr) | hr) | hr) | hr) | hr
  · obtain ⟨n, rfl⟩ := mem_aggregate_body hr e he
    rfl
  · obtain ⟨n, rfl⟩ := mem_aggregate_body hr e he
    rfl
  · obtain ⟨n, rfl⟩ := mem_aggregate_body hr e he
    rfl
  · obtain ⟨p, -, rfl⟩ := List.mem_map.1 hr
    obtain rfl : e = _ := by simpa [evaluatedRule] using he
    rfl
  · obtain ⟨p, -, hp⟩ := List.mem_filterMap.1 hr
    unfold reasonRule at hp
    split at hp <;> cases hp <;> (obtain rfl : e = _ := by simpa using he) <;> rfl
  · simp only [fallbackRules, List.mem_cons, List.not_mem_nil, or_false] at hr
    rcases hr with rfl | rfl <;> (obtain rfl : e = _ := by simpa using he) <;> rfl

/-- **A module with any bodies answers like the intended module of the stand-ins.** -/
theorem moduleWith_answer {ps : List RuntimePolicy} {body : RuntimePolicy → List Expr}
    (h : ∀ p ∈ ps, ∀ e ∈ body p, e.inputOnly = true) (input : Json) :
    (moduleWith ps body).answer input =
      (intendedModule (standIns ps body input)).answer standInInput := by
  refine answer_congr ?_ rfl
  have hcollecting : collectingRules (standIns ps body input) = collectingRules ps := by
    unfold collectingRules
    rw [aggregateRules_standIns, aggregateRules_standIns, aggregateRules_standIns,
      evaluatedRules_standIns, reasonRules_standIns]
  rw [intendedModule_eq, moduleWith, moduleWith, hcollecting]
  refine List.rel_append ?_ (forall₂_refs (collecting_refs ps) _ _)
  unfold standIns
  rw [List.map_map, List.forall₂_map_left_iff, List.forall₂_map_right_iff, List.forall₂_same]
  intro p hp
  refine ⟨rfl, fun rules sets => ?_⟩
  rw [ruleWith_holds (h p hp)]
  exact ((policyRule_holds _ _ _ _).trans (standIn_holds p _)).symm

/-! ## What holds of the stand-ins -/

section StandIns

variable {ps : List RuntimePolicy} {body : RuntimePolicy → List Expr} {input : Json}

theorem mem_standIns {q : RuntimePolicy} : q ∈ standIns ps body input ↔
    ∃ p ∈ ps, standIn p (bodyHolds (body p) input) = q := List.mem_map

theorem nameHolds_standIns (n : String) :
    nameHolds (standIns ps body input) standInInput n ↔
      ∃ p ∈ ps, ruleNameForPolicy p.id = n ∧ bodyHolds (body p) input = true := by
  constructor
  · intro ⟨q, hq, hname, hholds⟩
    obtain ⟨p, hp, rfl⟩ := mem_standIns.1 hq
    rw [standIn_holds] at hholds
    exact ⟨p, hp, hname, hholds⟩
  · intro ⟨p, hp, hname, hholds⟩
    refine ⟨_, mem_standIns.2 ⟨p, hp, rfl⟩, hname, ?_⟩
    rw [standIn_holds, hholds]

/-- A rule name holds exactly if the body of its policy does. -/
theorem nameHolds_iff (hnames : (ps.map fun p => ruleNameForPolicy p.id).Nodup)
    {p : RuntimePolicy} (hp : p ∈ ps) :
    nameHolds (standIns ps body input) standInInput (ruleNameForPolicy p.id) ↔
      bodyHolds (body p) input = true := by
  rw [nameHolds_standIns]
  constructor
  · intro ⟨q, hq, hname, hholds⟩
    have : q = p := List.inj_on_of_nodup_map hnames hq hp hname
    rwa [this] at hholds
  · intro h
    exact ⟨p, hp, rfl, h⟩

/-- Two policies that hold would give different reasons for one outcome. -/
def ReasonsConflict (ps : List RuntimePolicy) (matched : RuntimePolicy → Bool) : Prop :=
  ∃ p ∈ ps, ∃ q ∈ ps, matched p = true ∧ matched q = true ∧ p.effect = q.effect ∧
    p.effect ≠ .allow ∧ p.id ≠ q.id

theorem oneReason_standIns (hnames : (ps.map fun p => ruleNameForPolicy p.id).Nodup) :
    Engine.OneReason (standIns ps body input) standInInput ↔
      ¬ ReasonsConflict ps fun p => bodyHolds (body p) input := by
  constructor
  · intro hone ⟨p, hp, q, hq, hmp, hmq, heffect, hallow, hid⟩
    have hone' := hone _ (mem_standIns.2 ⟨p, hp, rfl⟩) _ (mem_standIns.2 ⟨q, hq, rfl⟩)
    exact hid (hone' heffect hallow ((nameHolds_iff hnames hp).2 hmp)
      ((nameHolds_iff hnames hq).2 hmq))
  · intro hno p' hp' q' hq' heffect hallow hmp hmq
    obtain ⟨p, hp, rfl⟩ := mem_standIns.1 hp'
    obtain ⟨q, hq, rfl⟩ := mem_standIns.1 hq'
    by_contra hid
    exact hno ⟨p, hp, q, hq, (nameHolds_iff hnames hp).1 hmp, (nameHolds_iff hnames hq).1 hmq,
      heffect, hallow, hid⟩

theorem holds_none :
    (∀ q ∈ standIns ps body input, ruleHolds q standInInput = false) ↔
      ∀ p ∈ ps, bodyHolds (body p) input = false := by
  constructor
  · intro h p hp
    rw [← standIn_holds p (bodyHolds (body p) input)]
    exact h _ (mem_standIns.2 ⟨p, hp, rfl⟩)
  · intro h q hq
    obtain ⟨p, hp, rfl⟩ := mem_standIns.1 hq
    rw [standIn_holds]
    exact h p hp

theorem isTrue_standIns (hnames : (ps.map fun p => ruleNameForPolicy p.id).Nodup) (e : Effect) :
    (intendedModule (standIns ps body input)).isTrue standInInput (effectRuleName e) = true ↔
      (∃ p ∈ ps, p.effect = e ∧ bodyHolds (body p) input = true) ∨
      (e = .deny ∧ ∀ p ∈ ps, bodyHolds (body p) input = false) := by
  rw [isTrue_effect, holds_none]
  refine or_congr ?_ Iff.rfl
  constructor
  · intro ⟨q, hq, heffect, hname⟩
    obtain ⟨p, hp, rfl⟩ := mem_standIns.1 hq
    exact ⟨p, hp, heffect, (nameHolds_iff hnames hp).1 hname⟩
  · intro ⟨p, hp, heffect, hholds⟩
    exact ⟨_, mem_standIns.2 ⟨p, hp, rfl⟩, heffect, (nameHolds_iff hnames hp).2 hholds⟩

end StandIns

/-! ## The members of the document -/

section Document

variable {ps : List RuntimePolicy} {input document : Json}

/-- A key under which there is one value only. -/
theorem get?_of_unique {kvs : List (String × Json)} {k : String} {v : Json}
    (hmem : ∃ e ∈ kvs, e.1 = k) (hall : ∀ e ∈ kvs, e.1 = k → e.2 = v) :
    (Json.obj kvs).get? k = some v := by
  cases hget : (Json.obj kvs).get? k with
  | some w => rw [← hall _ (Json.mem_of_get? hget) rfl]
  | none =>
    obtain ⟨e, he, hk⟩ := hmem
    rw [Json.get?, Option.map_eq_none_iff, List.find?_eq_none] at hget
    exact absurd hk (by simpa using hget e he)

theorem answer_evaluated_eq (hne : ps ≠ [])
    (h : (intendedModule ps).answer input = .ok document) :
    document.get? "evaluated_mandates" =
      some (.arr ((intendedModule ps).listed input "evaluated_mandates")) := by
  obtain ⟨kvs, rfl⟩ := Engine.answer_obj h
  refine get?_of_unique
    ⟨("evaluated_mandates", .arr ((intendedModule ps).listed input "evaluated_mandates")), ?_, rfl⟩
    ?_
  · have h' := h
    unfold Module.answer at h'
    obtain ⟨assigned, -, h'⟩ := bind_ok.1 h'
    cases h'
    refine List.mem_append_left _ (List.mem_append_right _ (List.mem_map.2 ⟨_, ?_, rfl⟩))
    exact Engine.setName_iff.2 ⟨rfl, hne⟩
  · intro e he hk
    rcases Engine.mem_answer h he with ⟨p, -, hname⟩ | hname | heq | ⟨hname, -⟩
    · exact absurd (hname.symm.trans hk) (ruleName_ne p.id (by decide))
    · rw [hk] at hname
      simp at hname
    · rw [heq]
    · rw [hk] at hname
      simp at hname

/-- A reason that is the only one. -/
theorem answer_reason {n : String} {v : Json} (hn : n ∈ ["deny_reason", "review_reason"])
    (h : (intendedModule ps).answer input = .ok document)
    (hv : v ∈ (intendedModule ps).assigned input n)
    (hall : ∀ w ∈ (intendedModule ps).assigned input n, w = v) : document.get? n = some v := by
  obtain ⟨kvs, rfl⟩ := Engine.answer_obj h
  have hne : n ≠ "evaluated_mandates" := by
    rintro rfl
    simp at hn
  refine get?_of_unique ?_ ?_
  · have h' := h
    unfold Module.answer at h'
    obtain ⟨assigned, hassigned, h'⟩ := bind_ok.1 h'
    cases h'
    have hname : n ∈ (intendedModule ps).names Module.answer.assignName? := by
      obtain ⟨r, hr, hhead⟩ := List.mem_filterMap.1 hv
      refine List.mem_dedup.2 (List.mem_filterMap.2 ⟨r, hr, ?_⟩)
      rw [Option.ite_none_right_eq_some] at hhead
      cases hh : r.head with
      | assign m w =>
        rw [hh, Head.assigned?, Option.ite_none_right_eq_some] at hhead
        exact congrArg some hhead.2.1
      | bool m => simp [hh, Head.assigned?] at hhead
      | contains m w => simp [hh, Head.assigned?] at hhead
    obtain ⟨kvs, hkvs, hcomplete⟩ := mapM_ok_mem hassigned hname
    unfold Module.complete at hcomplete
    split at hcomplete
    · next hnil =>
      rw [hnil] at hv
      cases hv
    · split at hcomplete
      · cases hcomplete
        exact ⟨_, List.mem_append_right _ (List.mem_flatten.2 ⟨_, hkvs, List.mem_cons_self⟩), rfl⟩
      · cases hcomplete
  · intro e he hk
    rcases Engine.mem_answer h he with ⟨p, -, hname⟩ | hname | heq | ⟨-, hvalue⟩
    · refine absurd (hname.symm.trans hk) (ruleName_ne p.id ?_)
      simp only [List.mem_cons, List.not_mem_nil, or_false] at hn
      rcases hn with rfl | rfl <;> decide
    · rw [hk] at hname
      simp only [List.mem_cons, List.not_mem_nil, or_false] at hn hname
      rcases hn with rfl | rfl <;> simp at hname
    · rw [heq] at hk
      exact absurd hk.symm hne
    · rw [hk] at hvalue
      exact hall _ hvalue

/-- The listed elements are those of the set, where equal ones are the same. -/
theorem mem_listed {m : Module} {s : String}
    (hstr : ∀ v ∈ m.sets₁ input s, ∃ t, v = .str t) {v : Json} :
    v ∈ m.listed input s ↔ v ∈ m.sets₁ input s := by
  unfold Module.listed
  rw [List.mem_insertionSort]
  constructor
  · exact fun h => (List.pwFilter_sublist _).subset h
  · intro hv
    by_contra hno
    have hdiffer : ∀ w ∈ (m.sets₁ input s).pwFilter fun x y => x.regoEq y = false,
        v.regoEq w = false := by
      intro w hw
      by_contra heq
      obtain ⟨t, rfl⟩ := hstr w ((List.pwFilter_sublist _).subset hw)
      rw [Bool.not_eq_false, regoEq_str] at heq
      exact hno (heq ▸ hw)
    have := (List.forall_mem_pwFilter ?_ v (m.sets₁ input s)).1 hdiffer v hv
    · simp [Json.regoEq] at this
    · intro x y z hxz
      by_contra hboth
      push Not at hboth
      rw [Bool.ne_false_iff, Bool.ne_false_iff, Json.regoEq_iff, Json.regoEq_iff] at hboth
      rw [Bool.eq_false_iff] at hxz
      exact hxz (Json.regoEq_iff.2 (hboth.1.trans hboth.2))

theorem listed_nodup (m : Module) (input : Json) (s : String) : (m.listed input s).Nodup := by
  unfold Module.listed
  refine (List.perm_insertionSort _ _).nodup_iff.2 ?_
  refine (List.pairwise_pwFilter (R := fun x y : Json => x.regoEq y = false) _).imp ?_
  intro x y hxy heq
  rw [heq] at hxy
  simp [Json.regoEq] at hxy

end Document

/-! ## What OPA serves -/

/-- The rule or the set that an expression refers to. -/
def Rego.Expr.refersTo : Expr → Option String
  | .rule n | .countZero n => some n
  | _ => none

/-- Everything that is referred to is defined. -/
def Rego.Module.closed (m : Module) : Bool :=
  m.rules.all fun r => r.body.all fun e => e.refersTo.all fun n =>
    n ∈ m.defaults || m.rules.any fun r' => r'.head.name = n

/-- What OPA replies once the module has been uploaded. It refuses one with a reference to nothing,
as an unsafe variable, and then has no document for the package. -/
def Rego.Module.served (m : Module) (input : Json) : OpaReply :=
  if m.closed then m.reply input else .response 200 (some (.obj []))

theorem refersTo_inputOnly {e : Expr} (h : e.inputOnly = true) : e.refersTo = none := by
  cases e with
  | rule | countZero => cases h
  | compare | member | contains | present => rfl

/-- What the collecting rules refer to. -/
theorem collecting_refersTo {ps : List RuntimePolicy} {r : Rule} (hr : r ∈ collectingRules ps)
    {e : Expr} (he : e ∈ r.body) :
    (∃ p ∈ ps, e.refersTo = some (ruleNameForPolicy p.id)) ∨
      e.refersTo = some "evaluated_mandates" := by
  simp only [collectingRules, List.mem_append] at hr
  have haggregate : ∀ e' : Effect, r ∈ aggregateRules ps e' →
      ∃ p ∈ ps, e.refersTo = some (ruleNameForPolicy p.id) := by
    intro e' hr
    obtain ⟨p, hp, rfl⟩ := List.mem_map.1 hr
    obtain rfl : e = _ := by simpa using he
    exact ⟨p, (List.mem_filter.1 hp).1, rfl⟩
  rcases hr with ((((hr | hr) | hr) | hr) | hr) | hr
  · exact .inl (haggregate _ hr)
  · exact .inl (haggregate _ hr)
  · exact .inl (haggregate _ hr)
  · obtain ⟨p, hp, rfl⟩ := List.mem_map.1 hr
    obtain rfl : e = _ := by simpa [evaluatedRule] using he
    exact .inl ⟨p, hp, rfl⟩
  · obtain ⟨p, hp, hr⟩ := List.mem_filterMap.1 hr
    unfold reasonRule at hr
    split at hr <;> cases hr <;> (obtain rfl : e = _ := by simpa using he) <;>
      exact .inl ⟨p, hp, rfl⟩
  · simp only [fallbackRules, List.mem_cons, List.not_mem_nil, or_false] at hr
    rcases hr with rfl | rfl <;> (obtain rfl : e = _ := by simpa using he) <;> exact .inr rfl

/-- **OPA takes the module unless there is no policy.** -/
theorem closed_iff {ps : List RuntimePolicy} {body : RuntimePolicy → List Expr}
    (h : ∀ p ∈ ps, ∀ e ∈ body p, e.inputOnly = true) :
    (moduleWith ps body).closed = true ↔ ps ≠ [] := by
  constructor
  · intro hclosed hnil
    subst hnil
    cases hclosed
  · intro hne
    have hrule : ∀ p ∈ ps, (moduleWith ps body).rules.any
        (fun r' => r'.head.name = ruleNameForPolicy p.id) = true := by
      intro p hp
      exact List.any_eq_true.2 ⟨ruleWith p (body p),
        List.mem_append_left _ (List.mem_map.2 ⟨p, hp, rfl⟩), by simp [ruleWith, Head.name]⟩
    have hset : (moduleWith ps body).rules.any
        (fun r' => r'.head.name = "evaluated_mandates") = true := by
      obtain ⟨p, qs, rfl⟩ := List.exists_cons_of_ne_nil hne
      refine List.any_eq_true.2 ⟨evaluatedRule p, List.mem_append_right _ ?_, rfl⟩
      simp [collectingRules]
    unfold Module.closed
    simp only [List.all_eq_true, Option.all_eq_true, Bool.or_eq_true]
    intro r hr e he n hn
    rcases List.mem_append.1 hr with hr | hr
    · obtain ⟨p, hp, rfl⟩ := List.mem_map.1 hr
      rw [refersTo_inputOnly (h p hp e he)] at hn
      cases hn
    · rcases collecting_refersTo hr he with ⟨p, hp, hrefers⟩ | hrefers
      · obtain rfl := Option.some.inj (hrefers.symm.trans hn)
        exact .inr (hrule p hp)
      · obtain rfl := Option.some.inj (hrefers.symm.trans hn)
        exact .inr hset

/-! ## The law -/

/-- Whether a policy with this effect has matched. -/
def matchedEffect (ps : List RuntimePolicy) (matched : RuntimePolicy → Bool) (e : Effect) : Bool :=
  ps.any fun p => p.effect = e && matched p

/-- What the policies that have matched decide. -/
def lawOutcome (ps : List RuntimePolicy) (matched : RuntimePolicy → Bool) : Outcome :=
  if matchedEffect ps matched .requireHumanReview then .humanReview
  else if matchedEffect ps matched .allow && !matchedEffect ps matched .deny then .allow
  else .deny

/-- The decision follows the law of the policies that have matched. Where two of them give different
reasons, OPA reports the conflict as an error. -/
structure FollowsLaw (ps : List RuntimePolicy) (matched : RuntimePolicy → Bool)
    (active : ActivePolicy) (d : EngineDecision) : Prop where
  conflict : ReasonsConflict ps matched →
    d = Engine.pinned active .humanReview (.str "opa_error:http_500")
  outcome : ¬ ReasonsConflict ps matched → d.outcome = lawOutcome ps matched
  nothing : (∀ p ∈ ps, matched p = false) →
    d.outcome = .deny ∧ d.reason = .str "no_policy_covers_scope"
  evaluated : ¬ ReasonsConflict ps matched → ∃ ids : List Json, d.evaluatedMandates = .arr ids ∧
    ids.Nodup ∧ ∀ v, v ∈ ids ↔ ∃ p ∈ ps, matched p = true ∧ v = .str p.id

/-- What a bundle of these policies is to decide: its text is the module of its rules, whatever
their bodies, and a decision over that module follows the law. -/
structure BundleLaw (ps : List RuntimePolicy) : Prop where
  text : ∀ (body : RuntimePolicy → List Expr) (rules : List Source),
    List.Forall₂ (fun p s => read s = (ruleWith p (body p)).lines) ps rules →
    read (regoSource ps rules) = (moduleWith ps body).lines
  decision : ∀ body : RuntimePolicy → List Expr, (∀ p ∈ ps, ∀ e ∈ body p, e.inputOnly = true) →
    ∀ (intent context : Json) (principal : String) (active : ActivePolicy)
      (agentId : Option String) (knowledge : List (String × Json)),
    ∃ d, Engine.evaluate intent context principal (.ok active) (moduleWith ps body).served agentId
        knowledge = .ok d ∧
      FollowsLaw ps (fun p => bodyHolds (body p) (Engine.buildOpaInput intent context principal
        active.version agentId knowledge)) active d

section Law

variable {ps : List RuntimePolicy} {matched : RuntimePolicy → Bool}

theorem matchedEffect_iff {e : Effect} : matchedEffect ps matched e = true ↔
    ∃ p ∈ ps, p.effect = e ∧ matched p = true := by
  simp [matchedEffect, List.any_eq_true]

/-- Nothing has matched exactly if no effect has. -/
theorem matched_none_iff : (∀ p ∈ ps, matched p = false) ↔
    matchedEffect ps matched .allow = false ∧ matchedEffect ps matched .deny = false ∧
      matchedEffect ps matched .requireHumanReview = false := by
  constructor
  · intro h
    have hnone : ∀ e, matchedEffect ps matched e = false := by
      intro e
      by_contra he
      obtain ⟨p, hp, -, hm⟩ := matchedEffect_iff.1 (eq_true_of_ne_false he)
      rw [h p hp] at hm
      cases hm
    exact ⟨hnone _, hnone _, hnone _⟩
  · intro ⟨hallow, hdeny, hreview⟩ p hp
    by_contra hm
    have hp' : matchedEffect ps matched p.effect = true :=
      matchedEffect_iff.2 ⟨p, hp, rfl, eq_true_of_ne_false hm⟩
    cases he : p.effect <;> rw [he] at hp' <;> simp_all

end Law

/-! ## Decisions -/

section Decisions

variable {ps : List RuntimePolicy} {body : RuntimePolicy → List Expr} {input : Json}

/-- The booleans of the module of the stand-ins, by what has matched. -/
theorem isTrue_matched (hnames : (ps.map fun p => ruleNameForPolicy p.id).Nodup) (e : Effect) :
    (intendedModule (standIns ps body input)).isTrue standInInput (effectRuleName e) =
      (matchedEffect ps (fun p => bodyHolds (body p) input) e ||
        (e = .deny && ps.all fun p => !bodyHolds (body p) input)) := by
  rw [Bool.eq_iff_iff, isTrue_standIns hnames, Bool.or_eq_true, matchedEffect_iff,
    Bool.and_eq_true, decide_eq_true_eq, List.all_eq_true]
  simp only [Bool.not_eq_true']

/-- Where nothing has matched, that is the reason. -/
theorem answer_nothing {document : Json}
    (h : (intendedModule (standIns ps body input)).answer standInInput = .ok document)
    (hnone : ∀ p ∈ ps, bodyHolds (body p) input = false) :
    document.get? "deny_reason" = some (.str "no_policy_covers_scope") := by
  have hset := evaluated_nil.2 (holds_none.2 hnone)
  have hname : ∀ n, ¬ (intendedModule (standIns ps body input)).base standInInput n = true := by
    intro n hn
    obtain ⟨p, hp, -, hholds⟩ := (nameHolds_standIns n).1 ((base_iff _ _ _).1 hn)
    rw [hnone p hp] at hholds
    cases hholds
  refine answer_reason (by simp) h ?_ ?_
  · refine List.mem_filterMap.2 ⟨⟨.assign "deny_reason" (.str "no_policy_covers_scope"),
      [.countZero "evaluated_mandates"], true⟩, mem_rules.2 (.inr (.inr (.inr (.inr (by
        simp [fallbackRules]))))), ?_⟩
    rw [holds_countZero, hset]
    rfl
  · intro w hw
    rcases mem_values _ _ _ _ _ hw with ⟨p, -, -, -, hp, -⟩ | ⟨-, hw, -⟩
    · exact absurd hp (hname _)
    · exact hw

/-- The policies that OPA lists are those that have matched. -/
theorem mem_listed_matched (hnames : (ps.map fun p => ruleNameForPolicy p.id).Nodup) {v : Json} :
    v ∈ (intendedModule (standIns ps body input)).listed standInInput "evaluated_mandates" ↔
      ∃ p ∈ ps, bodyHolds (body p) input = true ∧ v = .str p.id := by
  rw [mem_listed, mem_evaluated]
  · constructor
    · intro ⟨q, hq, hv, hname⟩
      obtain ⟨p, hp, rfl⟩ := mem_standIns.1 hq
      exact ⟨p, hp, (nameHolds_iff hnames hp).1 hname, hv⟩
    · intro ⟨p, hp, hm, hv⟩
      exact ⟨_, mem_standIns.2 ⟨p, hp, rfl⟩, hv, (nameHolds_iff hnames hp).2 hm⟩
  · intro w hw
    obtain ⟨p, -, hw, -⟩ := mem_evaluated.1 hw
    exact ⟨_, hw⟩

/-- What the engine makes of the document of the stand-ins. -/
theorem decide_followsLaw (hnames : (ps.map fun p => ruleNameForPolicy p.id).Nodup) (hne : ps ≠ [])
    (active : ActivePolicy) {document : Json}
    (h : (intendedModule (standIns ps body input)).answer standInInput = .ok document) :
    ∃ d, Engine.decide active document = .ok d ∧
      FollowsLaw ps (fun p => bodyHolds (body p) input) active d := by
  have hne' : standIns ps body input ≠ [] := by
    simpa [standIns] using hne
  have hone : ¬ ReasonsConflict ps fun p => bodyHolds (body p) input :=
    (oneReason_standIns hnames).1 (Engine.answer_ok_iff.1 ⟨document, h⟩)
  have hallow := Engine.answer_get? h (n := "allow") (by simp)
  have hdeny := Engine.answer_get? h (n := "deny") (by simp)
  have hreview := Engine.answer_get? h (n := "requires_review") (by simp)
  have hevaluated := answer_evaluated_eq hne' h
  have hnothing := answer_nothing h
  rw [show "allow" = effectRuleName .allow from rfl, isTrue_matched hnames] at hallow
  rw [show "deny" = effectRuleName .deny from rfl, isTrue_matched hnames] at hdeny
  rw [show "requires_review" = effectRuleName .requireHumanReview from rfl,
    isTrue_matched hnames] at hreview
  have hall : (ps.all fun p => !bodyHolds (body p) input) =
      !(matchedEffect ps (fun p => bodyHolds (body p) input) .allow ||
        matchedEffect ps (fun p => bodyHolds (body p) input) .deny ||
        matchedEffect ps (fun p => bodyHolds (body p) input) .requireHumanReview) := by
    rw [Bool.eq_iff_iff, List.all_eq_true]
    simp only [Bool.not_eq_true', Bool.or_eq_false_iff, matched_none_iff, and_assoc]
  have hids : ∃ ids : List Json,
      Json.arr ((intendedModule (standIns ps body input)).listed standInInput
        "evaluated_mandates") = .arr ids ∧ ids.Nodup ∧
      ∀ v, v ∈ ids ↔ ∃ p ∈ ps, bodyHolds (body p) input = true ∧ v = .str p.id :=
    ⟨_, rfl, listed_nodup _ _ _, fun v => mem_listed_matched hnames⟩
  obtain ⟨kvs, rfl⟩ := Engine.answer_obj h
  simp only [effectRuleName, reduceCtorEq, decide_false, decide_true, Bool.false_and,
    Bool.true_and, Bool.or_false, hall] at hallow hdeny hreview
  -- A decision on the document follows the law if its outcome does and it lists what OPA listed.
  have hfollows : ∀ d : EngineDecision,
      d.evaluatedMandates = .arr ((intendedModule (standIns ps body input)).listed standInInput
        "evaluated_mandates") →
      d.outcome = lawOutcome ps (fun p => bodyHolds (body p) input) →
      ((∀ p ∈ ps, bodyHolds (body p) input = false) →
        d.outcome = .deny ∧ d.reason = .str "no_policy_covers_scope") →
      FollowsLaw ps (fun p => bodyHolds (body p) input) active d := by
    intro d hlist houtcome hnone
    exact ⟨fun hconflict => absurd hconflict hone, fun _ => houtcome, hnone,
      fun _ => hlist ▸ hids⟩
  unfold Engine.decide
  simp only [Json.dictGet, hevaluated, hallow, hdeny, hreview]
  rw [matched_none_iff] at hnothing
  simp only [matched_none_iff] at hfollows
  unfold lawOutcome at hfollows
  revert hfollows hnothing
  cases matchedEffect ps (fun p => bodyHolds (body p) input) .requireHumanReview <;>
    cases matchedEffect ps (fun p => bodyHolds (body p) input) .deny <;>
      cases matchedEffect ps (fun p => bodyHolds (body p) input) .allow
  case false.false.false =>
    intro hnothing hfollows
    refine ⟨_, rfl, hfollows _ rfl rfl fun hnone => ⟨rfl, ?_⟩⟩
    show ((Json.obj kvs).get? "deny_reason").getD .null = _
    rw [hnothing hnone]
    rfl
  all_goals exact fun _ hfollows => ⟨_, rfl, hfollows _ rfl rfl (by simp)⟩

end Decisions

/-! ## The law of a bundle -/

/-- A bundle of some policies follows the law. -/
theorem bundleLaw_of_ne_nil {ps : List RuntimePolicy}
    (hnames : (ps.map fun p => ruleNameForPolicy p.id).Nodup) (hne : ps ≠ []) : BundleLaw ps := by
  refine ⟨fun body rules h => read_regoSource_with h, ?_⟩
  intro body hbody intent context principal active agentId knowledge
  unfold Engine.evaluate
  dsimp only
  generalize Engine.buildOpaInput intent context principal active.version agentId knowledge = input
  rw [Module.served, if_pos ((closed_iff hbody).2 hne), Module.reply, moduleWith_answer hbody]
  cases hanswer : (intendedModule (standIns ps body input)).answer standInInput with
  | ok document =>
    obtain ⟨d, hd, hlaw⟩ := decide_followsLaw hnames hne active hanswer
    obtain ⟨kvs, rfl⟩ := Engine.answer_obj hanswer
    exact ⟨d, hd, hlaw⟩
  | error e =>
    have hconflict : ReasonsConflict ps fun p => bodyHolds (body p) input := by
      by_contra hno
      obtain ⟨document, h⟩ := Engine.answer_ok_iff.2 ((oneReason_standIns hnames).2 hno)
      rw [hanswer] at h
      cases h
    refine ⟨_, rfl, fun _ => rfl, fun hno => absurd hconflict hno, fun hnone => ?_,
      fun hno => absurd hconflict hno⟩
    obtain ⟨p, hp, -, -, hm, -⟩ := hconflict
    exact absurd (hnone p hp) (by simp [show bodyHolds (body p) input = true from hm])

/-- OPA does not have the module of an empty bundle. -/
theorem evaluate_nil (body : RuntimePolicy → List Expr) (intent context : Json) (principal : String)
    (active : ActivePolicy) (agentId : Option String) (knowledge : List (String × Json)) :
    Engine.evaluate intent context principal (.ok active) (moduleWith [] body).served agentId
      knowledge = .ok (Engine.pinned active .humanReview (.str "undetermined")) := rfl

/-- **The law of bundles.** For policies with distinct rule names: a review is asked for if some
policy that asks for one has matched; otherwise the outcome is to allow if one that allows has
matched and none that denies, and else to deny, for want of a policy if nothing has matched. -/
theorem bundle_outcomes {ps : List RuntimePolicy}
    (hnames : (ps.map fun p => ruleNameForPolicy p.id).Nodup) : BundleLaw ps ↔ ps ≠ [] := by
  constructor
  · intro h hnil
    subst hnil
    obtain ⟨d, hd, hlaw⟩ := h.decision (fun _ => []) (by simp) .null .null "" ⟨0, 0, none⟩ none []
    rw [evaluate_nil] at hd
    cases hd
    exact absurd (hlaw.nothing (by simp)).1 (by decide)
  · exact bundleLaw_of_ne_nil hnames

/-- A policy that lets one principal pay. -/
def sampleBundlePolicy (id : String) (e : Effect) : RuntimePolicy where
  id
  name := "payments"
  version := 1
  status := .active
  scope := ⟨"finance", "vendor_payment", none, none⟩
  conditions := []
  effect := e

/-- Two policies, one of which denies. -/
theorem bundle_outcomes_two : BundleLaw [sampleBundlePolicy "a" .allow, sampleBundlePolicy "b" .deny] :=
  (bundle_outcomes (by decide +kernel)).2 (by simp)

/-- An empty bundle denies nothing: its fallback counts a set that it has no rule for. -/
theorem empty_bundle_undetermined : ¬ BundleLaw [] ∧
    Engine.evaluate .null .null "finance" (.ok ⟨1, 1, none⟩) (moduleWith [] policyBody).served none [] =
      .ok (Engine.pinned ⟨1, 1, none⟩ .humanReview (.str "undetermined")) := by
  refine ⟨fun h => ?_, rfl⟩
  obtain ⟨d, hd, hlaw⟩ := h.decision policyBody (by simp) .null .null "finance" ⟨1, 1, none⟩ none []
  rw [evaluate_nil] at hd
  cases hd
  exact absurd (hlaw.nothing (by simp)).1 (by decide)

end PayReality
