import PayReality.Compiler.Disjoint
import PayReality.Decision.Engine
import PayReality.Encoding

/-!
# The outcome of a set of policies

What the engine makes of OPA's answer, where OPA has the module of a set of policies. The outcome
depends on the input only through which policies' rules hold (`outcome_congr`), and for a single
policy that allows it is that (`outcome_single`).

A rule does not tell values apart that Rego takes for equal (`conditionExpr_congr`).
-/

namespace PayReality

open Rego RegoGenerator

/-! ## Equal values -/

/-- Both are missing, or they are equal to Rego. -/
def Alike (x y : Option Json) : Prop := x.map (Json.key false) = y.map (Json.key false)

namespace Alike

variable {x y : Option Json}

theorem refl (x : Option Json) : Alike x x := rfl

theorem some_some {v w : Json} : Alike (some v) (some w) ↔ v.key false = w.key false := by
  simp [Alike]

theorem any {f : Json → Bool} (hf : ∀ v w, v.key false = w.key false → f v = f w)
    (h : Alike x y) : x.any f = y.any f := by
  cases x <;> cases y <;> simp [Alike] at h
  · rfl
  · exact hf _ _ h

theorem bind {f : Json → Option Json} (hf : ∀ v w, v.key false = w.key false → Alike (f v) (f w))
    (h : Alike x y) : Alike (x.bind f) (y.bind f) := by
  cases x <;> cases y <;> simp [Alike] at h
  · rfl
  · exact hf _ _ h

theorem lookup {v w : Json} (h : v.key false = w.key false) (ks : List String) :
    Alike (v.lookup ks) (w.lookup ks) := by
  induction ks generalizing v w with
  | nil => exact some_some.2 h
  | cons k ks ih => exact bind (fun _ _ => ih) (Json.key_get? h k)

theorem getD (h : Alike x y) (default : Json) :
    (x.getD default).key false = (y.getD default).key false := by
  cases x <;> cases y <;> simp [Alike] at h
  · rfl
  · exact h

theorem objectGet (h : Alike x y) (k : String) (default : Json) :
    Alike (Rego.objectGet x k default) (Rego.objectGet y k default) := by
  cases x with
  | none =>
    cases y with
    | none => rfl
    | some w => simp [Alike] at h
  | some v =>
    cases y with
    | none => simp [Alike] at h
    | some w =>
      have hkey := some_some.1 h
      by_cases hv : ∃ kvs, v = .obj kvs
      · have hw : ∃ kvs, w = .obj kvs := by
          rw [← Json.key_head_obj false, ← hkey, Json.key_head_obj false]
          exact hv
        obtain ⟨kvs, rfl⟩ := hv
        obtain ⟨kvs', rfl⟩ := hw
        exact some_some.2 (getD (Json.key_get? hkey k) default)
      · have hw : ¬ ∃ kvs, w = .obj kvs := by
          rw [← Json.key_head_obj false, ← hkey, Json.key_head_obj false]
          exact hv
        have hnone : ∀ u : Json, (¬ ∃ kvs, u = .obj kvs) →
            Rego.objectGet (some u) k default = none := by
          intro u hu
          cases u with
          | obj kvs => exact absurd ⟨kvs, rfl⟩ hu
          | _ => rfl
        rw [hnone v hv, hnone w hw]
        rfl

theorem nestedGet (h : Alike x y) (ks : List String) :
    Alike (Rego.nestedGet x ks) (Rego.nestedGet y ks) := by
  induction ks generalizing x y with
  | nil => exact h
  | cons k ks ih =>
    cases ks with
    | nil => exact h.objectGet k .null
    | cons k' ks => exact ih (h.objectGet k (.obj []))

end Alike

theorem cmp_holds_congr (op : Cmp) (lit : Json) {v w : Json} (h : v.key false = w.key false) :
    op.holds v lit = op.holds w lit := by
  cases op <;> simp [Cmp.holds, Json.regoLe, Json.regoEq, Json.regoLt, h]

theorem memberOf_congr (lit : Json) {v w : Json} (h : v.key false = w.key false) :
    memberOf v lit = memberOf w lit := by
  cases lit with
  | arr vs =>
    have : Json.regoEq v = Json.regoEq w := by
      funext u
      simp [Json.regoEq, h]
    simp [memberOf, this]
  | _ => rfl

theorem containsText_congr (lit : Json) {v w : Json} (h : v.key false = w.key false) :
    containsText v lit = containsText w lit := by
  by_cases hv : ∃ s, v = .str s
  · obtain ⟨s, rfl⟩ := hv
    rw [regoEq_str.1 (Json.regoEq_iff.2 h.symm)]
  · have hw : ¬ ∃ s, w = .str s := by
      rintro ⟨s, rfl⟩
      exact hv ⟨s, regoEq_str.1 (Json.regoEq_iff.2 h)⟩
    have hnone : ∀ u : Json, (¬ ∃ s, u = .str s) → containsText u lit = false := by
      intro u hu
      cases u with
      | str s => exact absurd ⟨s, rfl⟩ hu
      | _ => rfl
    rw [hnone v hv, hnone w hw]

theorem isNull_congr {v w : Json} (h : v.key false = w.key false) : isNull v = isNull w := by
  cases v <;> cases w <;> simp_all [isNull, Json.key, Json.Token.mk]

/-- **A condition does not tell equal values apart**: of a section it reads the member that its
path begins with. -/
theorem conditionExpr_congr {c : Condition} {input input' : Json} {k : String} {ks : List String}
    (hkeys : fieldKeys c.field = k :: ks) {kvs kvs' : List (String × Json)}
    (hsection : input.get? (fieldSection c.field).1 = some (.obj kvs))
    (hsection' : input'.get? (fieldSection c.field).1 = some (.obj kvs'))
    (h : Alike ((Json.obj kvs).get? k) ((Json.obj kvs').get? k)) (rules sets) :
    (conditionExpr c).holds rules sets input = (conditionExpr c).holds rules sets input' := by
  have hlookup : Alike (input.lookup (fieldPath c.field)) (input'.lookup (fieldPath c.field)) := by
    rw [fieldPath, hkeys, Json.lookup, Json.lookup, hsection, hsection']
    show Alike (((Json.obj kvs).get? k).bind fun v => v.lookup ks)
      (((Json.obj kvs').get? k).bind fun v => v.lookup ks)
    exact h.bind fun _ _ hkey => Alike.lookup hkey ks
  have hnested : Alike (Rego.nestedGet (input.lookup [(fieldSection c.field).1]) (k :: ks))
      (Rego.nestedGet (input'.lookup [(fieldSection c.field).1]) (k :: ks)) := by
    rw [Json.lookup, Json.lookup, hsection, hsection']
    cases ks with
    | nil => exact Alike.some_some.2 (h.getD .null)
    | cons k' ks => exact Alike.nestedGet (Alike.some_some.2 (h.getD (.obj []))) (k' :: ks)
  unfold conditionExpr
  cases c.operator with
  | lte | gte | eq | neq | lt | gt => exact hlookup.any fun _ _ => cmp_holds_congr _ _
  | isIn => exact hlookup.any fun _ _ => memberOf_congr _
  | contains => exact hlookup.any fun _ _ => containsText_congr _
  | exist =>
    show (Rego.nestedGet _ (fieldKeys c.field)).any _ = (Rego.nestedGet _ (fieldKeys c.field)).any _
    rw [hkeys]
    exact hnested.any fun _ _ hkey => by rw [isNull_congr hkey]

/-! ## The reply -/

/-- What OPA replies for an input; an evaluation conflict is a status 500. -/
def Rego.Module.reply (m : Module) (input : Json) : OpaReply :=
  match m.answer input with
  | .ok document => .response 200 (some (.obj [("result", document)]))
  | .error _ => .response 500 none

/-- A set of policies that `compile_bundle` accepts, whose text OPA reads as it was meant. -/
structure Deployable (vocabulary : Vocabulary) (ps : List RuntimePolicy) : Prop where
  accepted : ∃ bundleId bundleVersion now b,
    CompilerV2.compileBundle vocabulary ps bundleId bundleVersion now = .ok ⟨some b, []⟩
  plain : ∀ p ∈ ps, plainFields p

/-- It is accepted under any name and at any time. -/
theorem Deployable.bundle {vocabulary : Vocabulary} {ps : List RuntimePolicy}
    (h : Deployable vocabulary ps) (bundleId : String) (bundleVersion : Int) (now : Timestamp) :
    ∃ b, CompilerV2.compileBundle vocabulary ps bundleId bundleVersion now = .ok ⟨some b, []⟩ := by
  obtain ⟨_, _, _, b, hb⟩ := h.accepted
  obtain ⟨-, herrors, hconflicts, hbundle⟩ := CompilerV2.compileBundle_ok hb
  obtain ⟨rules, hrules, -⟩ := CompilerV2.buildBundle_ok hbundle
  exact CompilerV2.exists_bundle vocabulary ps (List.flatMap_eq_nil_iff.2 herrors) hconflicts
    ⟨rules, hrules⟩ bundleId bundleVersion now

/-- A policy of a deployable set can be deployed alone, with any effect. -/
theorem Deployable.single {vocabulary : Vocabulary} {ps : List RuntimePolicy}
    (h : Deployable vocabulary ps) {p : RuntimePolicy} (hp : p ∈ ps) (e : Effect) :
    Deployable vocabulary [{ p with effect := e }] where
  accepted := by
    obtain ⟨_, _, _, b, hb⟩ := h.accepted
    obtain ⟨-, herrors, -, hbundle⟩ := CompilerV2.compileBundle_ok hb
    obtain ⟨rules, hrules, -⟩ := CompilerV2.buildBundle_ok hbundle
    obtain ⟨rule, -, hrule⟩ := mapM_ok_mem hrules hp
    refine ⟨"b", 1, 0, CompilerV2.exists_bundle_of_acceptable ?_ (List.pairwise_singleton _ _) _ _ _⟩
    intro q hq
    obtain rfl := List.mem_singleton.1 hq
    have hp' : CompilerV2.policyErrors vocabulary { p with effect := e } = [] := herrors p hp
    have hrule' : generatePolicyRule { p with effect := e } = .ok rule := hrule
    rw [CompilerV2.acceptable, hp', hrule']
    rfl
  plain := by
    intro q hq
    obtain rfl := List.mem_singleton.1 hq
    exact h.plain p hp

/-- What a loop returned at some element. -/
theorem exists_of_mem_mapM {α β ε : Type} {f : α → Except ε β} {xs : List α} {ys : List β}
    (h : xs.mapM f = .ok ys) {y : β} (hy : y ∈ ys) : ∃ x ∈ xs, f x = .ok y := by
  have hf := mapM_ok h
  clear h
  induction hf with
  | nil => cases hy
  | cons hxy _ ih =>
    rcases List.mem_cons.1 hy with rfl | hy
    · exact ⟨_, List.mem_cons_self, hxy⟩
    · obtain ⟨x, hx, h⟩ := ih hy
      exact ⟨x, List.mem_cons_of_mem _ hx, h⟩

namespace Engine

/-- The decision about an input, where the policies are the active ones. -/
def decision (ps : List RuntimePolicy) (active : ActivePolicy) (intent context : Json)
    (principal : String) (agentId : Option String) (knowledge : List (String × Json)) :
    Except PyError EngineDecision :=
  evaluate intent context principal (.ok active) (intendedModule ps).reply agentId knowledge

/-- The outcome, from the booleans of a module that has an answer. -/
def outcomeOf (ps : List RuntimePolicy) (input : Json) : Outcome :=
  match (intendedModule ps).answer input with
  | .error _ => .humanReview
  | .ok _ =>
    if (intendedModule ps).isTrue input "requires_review" then .humanReview
    else if (intendedModule ps).isTrue input "allow" && !(intendedModule ps).isTrue input "deny" then
      .allow
    else if (intendedModule ps).isTrue input "deny" then .deny
    else .humanReview

variable {ps : List RuntimePolicy} {input input' : Json}

/-! ## The answer -/

/-- The document of a module is an object. -/
theorem answer_obj {document : Json} (h : (intendedModule ps).answer input = .ok document) :
    ∃ kvs, document = .obj kvs := by
  unfold Module.answer at h
  cases hassigned : ((intendedModule ps).names Module.answer.assignName?).mapM
    ((intendedModule ps).complete input) with
  | error e => rw [hassigned] at h; cases h
  | ok assigned => rw [hassigned] at h; cases h; exact ⟨_, rfl⟩

/-- The booleans of the module are members of its document. -/
theorem answer_get? {document : Json} (h : (intendedModule ps).answer input = .ok document)
    {n : String} (hn : n ∈ ["allow", "deny", "requires_review"]) :
    document.get? n = some (.bool ((intendedModule ps).isTrue input n)) := by
  obtain ⟨assigned, -, h⟩ : ∃ assigned, _ ∧ _ := by
    unfold Module.answer at h
    cases hassigned : ((intendedModule ps).names Module.answer.assignName?).mapM
      ((intendedModule ps).complete input) with
    | error e => rw [hassigned] at h; cases h
    | ok assigned => rw [hassigned] at h; exact ⟨assigned, trivial, h⟩
  cases h
  have hdefaults : (intendedModule ps).defaults = ["allow", "deny", "requires_review"] := rfl
  simp only [List.mem_cons, List.not_mem_nil, or_false] at hn
  rcases hn with rfl | rfl | rfl <;>
    simp [Json.get?, hdefaults]

/-- What a rule of the module defines: the truth of a policy's rule, of an effect, or a set, or a
reason. -/
theorem head_cases {r : Rule} (h : r ∈ (intendedModule ps).rules) :
    (∃ p ∈ ps, r.head = .bool (ruleNameForPolicy p.id)) ∨
      (∃ n ∈ ["allow", "deny", "requires_review"], r.head = .bool n) ∨
      (∃ p ∈ ps, r.head = .contains "evaluated_mandates" (.str p.id)) ∨
      ∃ n ∈ ["deny_reason", "review_reason"], ∃ v, r.head = .assign n v := by
  rcases mem_rules.1 h with ⟨p, hp, rfl⟩ | ⟨p, hp, rfl⟩ | ⟨p, hp, rfl⟩ | ⟨p, hp, hr⟩ | hr
  · exact .inl ⟨p, hp, rfl⟩
  · refine .inr (.inl ⟨_, ?_, rfl⟩)
    cases p.effect <;> simp [effectRuleName]
  · exact .inr (.inr (.inl ⟨p, hp, rfl⟩))
  · refine .inr (.inr (.inr ?_))
    unfold reasonRule at hr
    split at hr
    · cases hr
      exact ⟨"review_reason", by simp, _, rfl⟩
    · cases hr
      exact ⟨"deny_reason", by simp, _, rfl⟩
    · cases hr
  · simp only [fallbackRules, List.mem_cons, List.not_mem_nil, or_false] at hr
    rcases hr with rfl | rfl
    · exact .inr (.inl ⟨"deny", by simp, rfl⟩)
    · exact .inr (.inr (.inr ⟨"deny_reason", by simp, _, rfl⟩))

theorem boolName_cases {n : String} (h : n ∈ (intendedModule ps).names Module.answer.boolName?) :
    (∃ p ∈ ps, n = ruleNameForPolicy p.id) ∨ n ∈ ["allow", "deny", "requires_review"] := by
  obtain ⟨r, hr, hname⟩ := List.mem_filterMap.1 (List.mem_dedup.1 h)
  rcases head_cases hr with ⟨p, hp, hh⟩ | ⟨m, hm, hh⟩ | ⟨p, hp, hh⟩ | ⟨m, hm, v, hh⟩ <;>
    rw [hh] at hname
  · exact .inl ⟨p, hp, (Option.some.inj hname).symm⟩
  · exact .inr (Option.some.inj hname ▸ hm)
  · cases hname
  · cases hname

theorem setName_iff {n : String} : n ∈ (intendedModule ps).names Module.answer.setName? ↔
    n = "evaluated_mandates" ∧ ps ≠ [] := by
  constructor
  · intro h
    obtain ⟨r, hr, hname⟩ := List.mem_filterMap.1 (List.mem_dedup.1 h)
    rcases head_cases hr with ⟨p, hp, hh⟩ | ⟨m, hm, hh⟩ | ⟨p, hp, hh⟩ | ⟨m, hm, v, hh⟩ <;>
      rw [hh] at hname
    · cases hname
    · cases hname
    · exact ⟨(Option.some.inj hname).symm, List.ne_nil_of_mem hp⟩
    · cases hname
  · intro ⟨hn, hne⟩
    obtain ⟨p, qs, rfl⟩ := List.exists_cons_of_ne_nil hne
    subst hn
    exact List.mem_dedup.2 (List.mem_filterMap.2
      ⟨evaluatedRule p, mem_rules.2 (.inr (.inr (.inl ⟨p, List.mem_cons_self, rfl⟩))), rfl⟩)

theorem assignName_cases {n : String}
    (h : n ∈ (intendedModule ps).names Module.answer.assignName?) :
    n ∈ ["deny_reason", "review_reason"] := by
  obtain ⟨r, hr, hname⟩ := List.mem_filterMap.1 (List.mem_dedup.1 h)
  rcases head_cases hr with ⟨p, hp, hh⟩ | ⟨m, hm, hh⟩ | ⟨p, hp, hh⟩ | ⟨m, hm, v, hh⟩ <;>
    rw [hh] at hname
  · cases hname
  · cases hname
  · cases hname
  · exact Option.some.inj hname ▸ hm

/-- The member of a complete rule is one of its values. -/
theorem mem_complete {n : String} {kvs : List (String × Json)}
    (h : (intendedModule ps).complete input n = .ok kvs) {e : String × Json} (he : e ∈ kvs) :
    e.1 = n ∧ e.2 ∈ (intendedModule ps).assigned input n := by
  unfold Module.complete at h
  split at h
  · cases h
    cases he
  · next v vs hv =>
    split at h
    · cases h
      obtain rfl := List.mem_singleton.1 he
      exact ⟨rfl, hv ▸ List.mem_cons_self⟩
    · cases h

/-- The members of the document. -/
theorem mem_answer {kvs : List (String × Json)}
    (h : (intendedModule ps).answer input = .ok (.obj kvs)) {e : String × Json} (he : e ∈ kvs) :
    (∃ p ∈ ps, e.1 = ruleNameForPolicy p.id) ∨ e.1 ∈ ["allow", "deny", "requires_review"] ∨
      e = ("evaluated_mandates", .arr ((intendedModule ps).listed input "evaluated_mandates")) ∨
      e.1 ∈ ["deny_reason", "review_reason"] ∧ e.2 ∈ (intendedModule ps).assigned input e.1 := by
  unfold Module.answer at h
  obtain ⟨assigned, hassigned, h⟩ := bind_ok.1 h
  cases h
  simp only [List.mem_append, List.mem_map, List.mem_flatten] at he
  rcases he with ((⟨n, hn, rfl⟩ | ⟨n, hn, rfl⟩) | ⟨n, hn, rfl⟩) | ⟨kvs, hkvs, he⟩
  · exact .inr (.inl hn)
  · exact (boolName_cases (List.mem_filter.1 hn).1).imp id .inl
  · rw [(setName_iff.1 hn).1]
    exact .inr (.inr (.inl rfl))
  · obtain ⟨n, hn, hcomplete⟩ := exists_of_mem_mapM hassigned hkvs
    obtain ⟨hname, hvalue⟩ := mem_complete hcomplete he
    rw [hname]
    exact .inr (.inr (.inr ⟨assignName_cases hn, hvalue⟩))

/-- The member for the matched policies is a list. -/
theorem answer_evaluated {document : Json} (h : (intendedModule ps).answer input = .ok document) :
    ∃ xs, (document.get? "evaluated_mandates").getD (.arr []) = .arr xs := by
  obtain ⟨kvs, rfl⟩ := answer_obj h
  cases hget : (Json.obj kvs).get? "evaluated_mandates" with
  | none => exact ⟨[], rfl⟩
  | some v =>
    rcases mem_answer h (Json.mem_of_get? hget) with ⟨p, -, hname⟩ | hname | heq | ⟨hname, -⟩
    · exact absurd hname.symm (ruleName_ne p.id (n := "evaluated_mandates") (by decide))
    · simp at hname
    · exact ⟨_, congrArg Prod.snd heq⟩
    · simp at hname

/-- A module whose complete rules have one value each has an answer. -/
theorem answer_ok (h : ∀ n, ∀ v ∈ (intendedModule ps).assigned input n,
    ∀ w ∈ (intendedModule ps).assigned input n, v = w) :
    ∃ document, (intendedModule ps).answer input = .ok document := by
  have hcomplete : ∀ n, ∃ kvs, (intendedModule ps).complete input n = .ok kvs := by
    intro n
    unfold Module.complete
    split
    · exact ⟨_, rfl⟩
    · next v vs hv =>
      have hall : vs.all (Json.regoEq v) = true := by
        rw [List.all_eq_true]
        intro w hw
        have : v = w := h n v (hv ▸ List.mem_cons_self) w (hv ▸ List.mem_cons_of_mem _ hw)
        rw [this, Json.regoEq_iff]
      rw [if_pos hall]
      exact ⟨_, rfl⟩
  have hmap : ∀ ns : List String, ∃ kvs, ns.mapM ((intendedModule ps).complete input) =
      (.ok kvs : Except Unit _) := by
    intro ns
    induction ns with
    | nil => exact ⟨[], rfl⟩
    | cons n ns ih =>
      obtain ⟨kvs, hkvs⟩ := hcomplete n
      obtain ⟨rest, hrest⟩ := ih
      rw [List.mapM_cons, hkvs, hrest]
      exact ⟨_, rfl⟩
  obtain ⟨kvs, hkvs⟩ := hmap ((intendedModule ps).names Module.answer.assignName?)
  unfold Module.answer
  rw [hkvs]
  exact ⟨_, rfl⟩

/-- **The engine's outcome** is the one of the module. -/
theorem decision_outcome (active : ActivePolicy) (intent context : Json) (principal : String)
    (agentId : Option String) (knowledge : List (String × Json)) :
    (decision ps active intent context principal agentId knowledge).map EngineDecision.outcome =
      .ok (outcomeOf ps
        (buildOpaInput intent context principal active.version agentId knowledge)) := by
  unfold decision evaluate outcomeOf
  dsimp only
  generalize buildOpaInput intent context principal active.version agentId knowledge = input
  cases hanswer : (intendedModule ps).answer input with
  | error e =>
    have hreply : (intendedModule ps).reply input = .response 500 none := by
      rw [Module.reply, hanswer]
    rw [hreply]
    rfl
  | ok document =>
    have hallow := answer_get? hanswer (n := "allow") (by simp)
    have hdeny := answer_get? hanswer (n := "deny") (by simp)
    have hreview := answer_get? hanswer (n := "requires_review") (by simp)
    obtain ⟨kvs, rfl⟩ := answer_obj hanswer
    have hquery : ((intendedModule ps).reply input).query = .ok (.obj kvs) := by
      rw [Module.reply, hanswer]
      rfl
    rw [hquery]
    dsimp only [decide, Json.dictGet]
    simp only [hallow, hdeny, hreview]
    cases (intendedModule ps).isTrue input "requires_review" <;>
      cases (intendedModule ps).isTrue input "allow" <;>
        cases (intendedModule ps).isTrue input "deny" <;> rfl

/-! ## What the outcome depends on -/

/-- The rules of the module read the input through the rules of the policies. -/
theorem rule_holds_congr (h : ∀ p ∈ ps, ruleHolds p input = ruleHolds p input') {r : Rule}
    (hr : r ∈ (intendedModule ps).rules) (rules : String → Bool) (sets : String → List Json) :
    r.holds rules sets input = r.holds rules sets input' := by
  rcases mem_rules.1 hr with ⟨p, hp, rfl⟩ | ⟨p, hp, rfl⟩ | ⟨p, hp, rfl⟩ | ⟨p, hp, hr⟩ | hr
  · rw [policyRule_holds, policyRule_holds, h p hp]
  · rfl
  · rfl
  · unfold reasonRule at hr
    split at hr <;> cases hr <;> rfl
  · simp only [fallbackRules, List.mem_cons, List.not_mem_nil, or_false] at hr
    rcases hr with rfl | rfl <;> rfl

/-- **The outcome depends on which policies' rules hold.** -/
theorem outcome_congr (h : ∀ p ∈ ps, ruleHolds p input = ruleHolds p input') :
    outcomeOf ps input = outcomeOf ps input' := by
  have hrule := fun r hr => rule_holds_congr (r := r) h hr
  have htruth : ∀ rules sets, (intendedModule ps).truth rules sets input =
      (intendedModule ps).truth rules sets input' := by
    intro rules sets
    funext n
    rw [Bool.eq_iff_iff, Module.truth, Module.truth, List.any_eq_true, List.any_eq_true]
    exact exists_congr fun r => and_congr_right fun hr => by rw [hrule r hr]
  have helements : ∀ rules sets, (intendedModule ps).elements rules sets input =
      (intendedModule ps).elements rules sets input' := by
    intro rules sets
    funext n
    exact List.filterMap_congr fun r hr => by rw [hrule r hr]
  have hvalues : ∀ rules sets, (intendedModule ps).values rules sets input =
      (intendedModule ps).values rules sets input' := by
    intro rules sets
    funext n
    exact List.filterMap_congr fun r hr => by rw [hrule r hr]
  have hbase : (intendedModule ps).base input = (intendedModule ps).base input' := by
    funext n
    exact congrFun (htruth _ _) n
  have hsets : (intendedModule ps).sets₁ input = (intendedModule ps).sets₁ input' := by
    funext n
    simp only [Module.sets₁, hbase, helements]
  have htrue : (intendedModule ps).isTrue input = (intendedModule ps).isTrue input' := by
    funext n
    simp only [Module.isTrue, hbase, hsets, htruth]
  have hassigned : (intendedModule ps).assigned input = (intendedModule ps).assigned input' := by
    funext n
    simp only [Module.assigned, hbase, hsets, hvalues]
  have hcomplete : (intendedModule ps).complete input = (intendedModule ps).complete input' := by
    funext n
    simp only [Module.complete, hassigned]
  have hlisted : (intendedModule ps).listed input = (intendedModule ps).listed input' := by
    funext n
    simp only [Module.listed, hsets]
  have hanswer : (intendedModule ps).answer input = (intendedModule ps).answer input' := by
    simp only [Module.answer, hcomplete, htrue, hlisted]
  simp only [outcomeOf, hanswer, htrue]

/-! ## The reasons -/

/-- At most one policy that denies, and one that asks for a review, gives a reason. -/
def OneReason (ps : List RuntimePolicy) (input : Json) : Prop :=
  ∀ p ∈ ps, ∀ q ∈ ps, p.effect = q.effect → p.effect ≠ .allow →
    nameHolds ps input (ruleNameForPolicy p.id) → nameHolds ps input (ruleNameForPolicy q.id) →
      p.id = q.id

/-- The name under which a policy gives its reason. -/
def reasonName (e : Effect) : String := if e = .deny then "deny_reason" else "review_reason"

theorem reasonRule_eq {p : RuntimePolicy} (h : p.effect ≠ .allow) : reasonRule p =
    some ⟨.assign (reasonName p.effect) (.str ("policy_matched:" ++ p.id)),
      [.rule (ruleNameForPolicy p.id)], true⟩ := by
  unfold reasonRule reasonName
  cases he : p.effect with
  | allow => exact absurd he h
  | deny | requireHumanReview => rfl

theorem reasonName_inj {e e' : Effect} (he : e ≠ .allow) (he' : e' ≠ .allow)
    (h : reasonName e = reasonName e') : e = e' := by
  cases e <;> cases e' <;> first | rfl | exact absurd rfl he | exact absurd rfl he' | exact absurd h (by decide)

/-- A policy whose name holds gives its reason. -/
theorem mem_assigned {p : RuntimePolicy} (hp : p ∈ ps) (he : p.effect ≠ .allow)
    (h : nameHolds ps input (ruleNameForPolicy p.id)) :
    Json.str ("policy_matched:" ++ p.id) ∈ (intendedModule ps).assigned input (reasonName p.effect) := by
  refine List.mem_filterMap.2 ⟨_, mem_rules.2 (.inr (.inr (.inr (.inl ⟨p, hp, reasonRule_eq he⟩)))), ?_⟩
  rw [holds_rule, (base_iff ps input _).2 h]
  simp [Head.assigned?]

/-- **OPA answers exactly if the reasons do not conflict.** -/
theorem answer_ok_iff :
    (∃ document, (intendedModule ps).answer input = .ok document) ↔ OneReason ps input := by
  constructor
  · rintro ⟨document, h⟩ p hp q hq heffect hallow hpname hqname
    have hcomplete : ∃ kvs, (intendedModule ps).complete input (reasonName p.effect) = .ok kvs := by
      have hname : reasonName p.effect ∈ (intendedModule ps).names Module.answer.assignName? := by
        refine List.mem_dedup.2 (List.mem_filterMap.2 ⟨_, mem_rules.2
          (.inr (.inr (.inr (.inl ⟨p, hp, reasonRule_eq hallow⟩)))), rfl⟩)
      unfold Module.answer at h
      cases hassigned : ((intendedModule ps).names Module.answer.assignName?).mapM
        ((intendedModule ps).complete input) with
      | error e => rw [hassigned] at h; cases h
      | ok assigned =>
        obtain ⟨kvs, -, hkvs⟩ := mapM_ok_mem hassigned hname
        exact ⟨kvs, hkvs⟩
    obtain ⟨kvs, hkvs⟩ := hcomplete
    have hpmem := mem_assigned hp hallow hpname
    have hqmem := mem_assigned hq (heffect ▸ hallow) hqname
    rw [← heffect] at hqmem
    unfold Module.complete at hkvs
    split at hkvs
    · next hnil =>
      rw [hnil] at hpmem
      cases hpmem
    · next v vs hv =>
      split at hkvs
      · next hall =>
        have heq : ∀ w ∈ (intendedModule ps).assigned input (reasonName p.effect),
            v.key false = w.key false := by
          intro w hw
          rw [hv] at hw
          rcases List.mem_cons.1 hw with rfl | hw
          · rfl
          · exact Json.regoEq_iff.1 (List.all_eq_true.1 hall w hw)
        have hkeys := (heq _ hpmem).symm.trans (heq _ hqmem)
        simpa [Json.key, Json.Token.mk] using hkeys
      · cases hkvs
  · intro hone
    refine answer_ok fun n v hv w hw => ?_
    rcases mem_values _ _ _ _ _ hv with ⟨p, hp, hpe, rfl, hpname, hpn⟩ | ⟨rfl, rfl, hpnone⟩ <;>
      rcases mem_values _ _ _ _ _ hw with ⟨q, hq, hqe, rfl, hqname, hqn⟩ | ⟨hqn, rfl, hqnone⟩
    · have heffect := reasonName_inj hpe hqe (hpn.symm.trans hqn)
      rw [hone p hp q hq heffect hpe ((base_iff _ _ _).1 hpname) ((base_iff _ _ _).1 hqname)]
    · obtain ⟨r, hr, -, hholds⟩ := (base_iff _ _ _).1 hpname
      simp [evaluated_nil.1 hqnone r hr] at hholds
    · obtain ⟨r, hr, -, hholds⟩ := (base_iff _ _ _).1 hqname
      simp [evaluated_nil.1 hpnone r hr] at hholds
    · rfl

theorem oneReason_congr {qs : List RuntimePolicy} (hmem : ∀ p, p ∈ qs ↔ p ∈ ps)
    (h : ∀ p ∈ ps, ruleHolds p input = ruleHolds p input') :
    OneReason qs input ↔ OneReason ps input' := by
  have hname : ∀ n, nameHolds qs input n ↔ nameHolds ps input' n := by
    intro n
    refine exists_congr fun q => ?_
    rw [hmem]
    exact and_congr_right fun hq => by rw [h q hq]
  simp only [OneReason, hmem, hname]

/-- **The outcome is one of the set of policies**, whatever their order. -/
theorem outcome_perm {qs : List RuntimePolicy} (hmem : ∀ p, p ∈ qs ↔ p ∈ ps) :
    outcomeOf qs input = outcomeOf ps input := by
  have hname : ∀ n, nameHolds qs input n ↔ nameHolds ps input n := by
    intro n
    refine exists_congr fun q => ?_
    rw [hmem]
  have htrue : ∀ e : Effect, (intendedModule qs).isTrue input (effectRuleName e) =
      (intendedModule ps).isTrue input (effectRuleName e) := by
    intro e
    rw [Bool.eq_iff_iff, isTrue_effect, isTrue_effect]
    simp only [hmem, hname]
  have hallow := htrue .allow
  have hdeny := htrue .deny
  have hreview := htrue .requireHumanReview
  simp only [effectRuleName] at hallow hdeny hreview
  have hone : OneReason qs input ↔ OneReason ps input := oneReason_congr hmem fun _ _ => rfl
  rw [← answer_ok_iff, ← answer_ok_iff] at hone
  unfold outcomeOf
  rw [hallow, hdeny, hreview]
  cases hq : (intendedModule qs).answer input with
  | error e =>
    cases hp : (intendedModule ps).answer input with
    | error e' => rfl
    | ok document =>
      obtain ⟨document', h'⟩ := hone.2 ⟨document, hp⟩
      rw [hq] at h'
      cases h'
  | ok document =>
    obtain ⟨document', h'⟩ := hone.1 ⟨document, hq⟩
    rw [h']

/-! ## One policy -/

/-- A single policy that allows: it allows where its rule holds, and nothing covers the rest. -/
theorem outcome_single {p : RuntimePolicy} (hp : p.effect = .allow) (input : Json) :
    outcomeOf [p] input = if ruleHolds p input then .allow else .deny := by
  have hname : nameHolds [p] input (ruleNameForPolicy p.id) ↔ ruleHolds p input = true := by
    simp [nameHolds]
  have hallow : (intendedModule [p]).isTrue input (effectRuleName .allow) = true ↔ _ :=
    isTrue_effect .allow
  have hdeny : (intendedModule [p]).isTrue input (effectRuleName .deny) = true ↔ _ :=
    isTrue_effect .deny
  have hreview : (intendedModule [p]).isTrue input (effectRuleName .requireHumanReview) = true ↔ _ :=
    isTrue_effect .requireHumanReview
  simp only [List.mem_singleton, exists_eq_left, forall_eq, hp, hname, true_and, reduceCtorEq,
    false_and, or_false, false_or, effectRuleName] at hallow hdeny hreview
  obtain ⟨document, hanswer⟩ : ∃ document, (intendedModule [p]).answer input = .ok document := by
    refine answer_ok fun n v hv w hw => ?_
    rcases mem_values _ _ _ _ _ hv with ⟨q, hq, hne, -⟩ | ⟨-, rfl, -⟩
    · exact absurd (List.mem_singleton.1 hq ▸ hp) hne
    · rcases mem_values _ _ _ _ _ hw with ⟨q, hq, hne, -⟩ | ⟨-, rfl, -⟩
      · exact absurd (List.mem_singleton.1 hq ▸ hp) hne
      · rfl
  have hreview' : (intendedModule [p]).isTrue input "requires_review" = false := by
    simpa using hreview
  unfold outcomeOf
  rw [hanswer]
  cases hh : ruleHolds p input with
  | true =>
    have hallow' := hallow.2 hh
    have hdeny' : (intendedModule [p]).isTrue input "deny" = false := by
      by_contra hne
      have := hdeny.1 (eq_true_of_ne_false hne)
      rw [hh] at this
      cases this
    simp [hreview', hallow', hdeny']
  | false =>
    have hdeny' := hdeny.2 hh
    simp [hreview', hdeny']

end Engine

end PayReality
