import PayReality.Compiler.BundleBuilder
import PayReality.Rego.Module

/-!
# The intended module

What the text of a bundle is meant to say: one rule for each policy, whose body is the scope and
the conditions of the policy, and the rules that collect them. A condition reads the member of
the input that its field names, by the dot-separated key path.

The text is read as the intended module exactly when every field that is spliced into it is a
path of identifiers (`read_regoSource`).
-/

namespace PayReality

open Rego RegoGenerator BundleBuilder

/-! ## The key path of a field -/

/-- The section of the input that a field is about, and the rest of its text. -/
def fieldSection (field : String) : String × List Char :=
  match Text.afterPrefix "context.".toList field.toList with
  | some rest => ("context", rest)
  | none =>
    match Text.afterPrefix "enterprise_knowledge.".toList field.toList with
    | some rest => ("enterprise_knowledge", rest)
    | none => ("intent", field.toList)

/-- The keys below the section. -/
def fieldKeys (field : String) : List String := Text.keyPath (fieldSection field).2

/-- The key path of a field in the input. -/
def fieldPath (field : String) : List String := (fieldSection field).1 :: fieldKeys field

theorem resolveBaseAndField_eq (field : String) :
    resolveBaseAndField field "input.intent" =
      ("input." ++ (fieldSection field).1, (fieldSection field).2) := by
  simp only [resolveBaseAndField, fieldSection, contextFieldPrefix, enterpriseKnowledgeFieldPrefix]
  cases Text.afterPrefix "context.".toList field.toList with
  | some rest => rfl
  | none =>
    cases Text.afterPrefix "enterprise_knowledge.".toList field.toList with
    | some rest => rfl
    | none => rfl

theorem eq_append_of_afterPrefix {p cs rest : List Char}
    (h : Text.afterPrefix p cs = some rest) : cs = p ++ rest := by
  induction p generalizing cs with
  | nil => simpa [Text.afterPrefix] using h
  | cons c p ih =>
    cases cs with
    | nil => cases h
    | cons d cs =>
      simp only [Text.afterPrefix] at h
      split at h
      · next hcd =>
        rw [hcd, ih h]
        rfl
      · cases h

/-! ## The module -/

/-- The expression of a condition. The generator has none for an `exists` without a boolean. -/
def conditionExpr (c : Condition) : Expr :=
  match c.operator with
  | .lte => .compare (fieldPath c.field) .lte c.value
  | .gte => .compare (fieldPath c.field) .gte c.value
  | .eq => .compare (fieldPath c.field) .eq c.value
  | .neq => .compare (fieldPath c.field) .neq c.value
  | .lt => .compare (fieldPath c.field) .lt c.value
  | .gt => .compare (fieldPath c.field) .gt c.value
  | .isIn => .member (fieldPath c.field) c.value
  | .contains => .contains (fieldPath c.field) c.value
  | .exist => .present [(fieldSection c.field).1] (fieldKeys c.field) c.value.isTrue

def scopeExprs (p : RuntimePolicy) : List Expr :=
  [.compare ["intent", "action"] .eq (.str p.scope.action),
    .compare ["agent", "acting_for_principal_id"] .eq (.str p.scope.principal)] ++
  (match p.scope.agent with
    | some a => [.compare ["agent", "id"] .eq (.str a)]
    | none => []) ++
  (match p.scope.resource with
    | some r => [.compare ["intent", "resource"] .eq (.str r)]
    | none => [])

/-- The body of a policy's rule. -/
def policyBody (p : RuntimePolicy) : List Expr := scopeExprs p ++ p.conditions.map conditionExpr

def policyRule (p : RuntimePolicy) : Rule := ⟨.bool (ruleNameForPolicy p.id), policyBody p, false⟩

def aggregateRules (ps : List RuntimePolicy) (e : Effect) : List Rule :=
  (ps.filter fun p => p.effect = e).map fun p =>
    ⟨.bool (effectRuleName e), [.rule (ruleNameForPolicy p.id)], true⟩

def evaluatedRule (p : RuntimePolicy) : Rule :=
  ⟨.contains "evaluated_mandates" (.str p.id), [.rule (ruleNameForPolicy p.id)], true⟩

def reasonRule (p : RuntimePolicy) : Option Rule :=
  match p.effect with
  | .requireHumanReview => some ⟨.assign "review_reason" (.str ("policy_matched:" ++ p.id)),
      [.rule (ruleNameForPolicy p.id)], true⟩
  | .deny => some ⟨.assign "deny_reason" (.str ("policy_matched:" ++ p.id)),
      [.rule (ruleNameForPolicy p.id)], true⟩
  | .allow => none

def fallbackRules : List Rule :=
  [⟨.bool "deny", [.countZero "evaluated_mandates"], true⟩,
    ⟨.assign "deny_reason" (.str "no_policy_covers_scope"), [.countZero "evaluated_mandates"], true⟩]

/-- The module that `build_bundle` means to write. -/
def intendedModule (ps : List RuntimePolicy) : Module where
  package := ["payreality", "authorization"]
  defaults := ["allow", "deny", "requires_review"]
  rules := ps.map policyRule ++ aggregateRules ps .allow ++ aggregateRules ps .deny ++
    aggregateRules ps .requireHumanReview ++ ps.map evaluatedRule ++ ps.filterMap reasonRule ++
    fallbackRules

/-- The rules that collect those of the policies. -/
def collectingRules (ps : List RuntimePolicy) : List Rule :=
  aggregateRules ps .allow ++ aggregateRules ps .deny ++ aggregateRules ps .requireHumanReview ++
    ps.map evaluatedRule ++ ps.filterMap reasonRule ++ fallbackRules

/-- The rule of a policy, with this body. -/
def ruleWith (p : RuntimePolicy) (body : List Expr) : Rule :=
  ⟨.bool (ruleNameForPolicy p.id), body, false⟩

/-- The module around the rules of the policies, whatever their bodies. -/
def moduleWith (ps : List RuntimePolicy) (body : RuntimePolicy → List Expr) : Module where
  package := ["payreality", "authorization"]
  defaults := ["allow", "deny", "requires_review"]
  rules := (ps.map fun p => ruleWith p (body p)) ++ collectingRules ps

theorem intendedModule_eq (ps : List RuntimePolicy) :
    intendedModule ps = moduleWith ps policyBody := by
  have hrules : ps.map policyRule = ps.map fun p => ruleWith p (policyBody p) := rfl
  simp only [intendedModule, moduleWith, collectingRules, List.append_assoc, hrules]

/-! ## Reading the pieces of a line -/

/-- A piece of text without a line break that is read as `ts`, before anything that does not
continue a word. -/
structure Piece (s : Source) (ts : List Tok) : Prop where
  oneLine : ∀ x ∈ s, isNewline x = false
  reads : ∀ us, apart us = true → noSpaces (scanAll s us) = ts ++ noSpaces us

theorem Piece.read_eq {s : Source} {t : Tok} {ts : List Tok} (h : Piece s (t :: ts)) :
    read s = [t :: ts] :=
  read_line h.oneLine (by simpa [noSpaces] using h.reads [] rfl)

theorem text_oneLine {s : String} (h : '\n' ∉ s.toList) : ∀ x ∈ text s, isNewline x = false := by
  intro x hx
  obtain ⟨c, hc, rfl⟩ := List.mem_map.1 hx
  have : c ≠ '\n' := fun hcn => h (hcn ▸ hc)
  simpa [isNewline] using this

theorem chars_oneLine {cs : List Char} (h : ∀ c ∈ cs, c ≠ '\n') :
    ∀ x ∈ chars cs, isNewline x = false := by
  intro x hx
  obtain ⟨c, hc, rfl⟩ := List.mem_map.1 hx
  simpa [isNewline] using h c hc

theorem wordChar_ne_newline {c : Char} (h : isWordChar c = true) : c ≠ '\n' := by
  rintro rfl
  exact absurd h (by decide)

/-- An identifier is read as a word. -/
theorem piece_identifier {cs : List Char} (h : isIdentifier cs = true) :
    Piece (chars cs) [.word cs] where
  oneLine := chars_oneLine fun c hc => wordChar_ne_newline
    (List.all_eq_true.1 (isIdentifier_wordChars h) c hc)
  reads us hus := by rw [scanAll_identifier h hus]; rfl

theorem piece_word {s : String} (h : isIdentifier s.toList = true) : Piece (text s) [word s] :=
  piece_identifier h

theorem piece_literal (v : Json) : Piece (regoLiteral v) [.lit v] where
  oneLine := by simp [regoLiteral, isNewline]
  reads us _ := by simp [regoLiteral, scan, noSpaces, Tok.isSpace]

/-- Two pieces, where the second begins with punctuation, a space or a literal. -/
theorem Piece.append {s t : Source} {ts us : List Tok} (hs : Piece s ts) (ht : Piece t us)
    (h : ∀ vs, apart (scanAll t vs) = true) : Piece (s ++ t) (ts ++ us) where
  oneLine x hx := by
    rcases List.mem_append.1 hx with hx | hx
    · exact hs.oneLine x hx
    · exact ht.oneLine x hx
  reads vs hvs := by
    rw [scanAll_append, hs.reads _ (h vs), ht.reads vs hvs, List.append_assoc]

/-- A fixed text that ends with punctuation or a space, in front of a piece. -/
theorem Piece.text_append {s : String} {t : Source} {a b : List Tok}
    (hs : ∀ vs, noSpaces (scanAll (text s) vs) = a ++ noSpaces vs) (hn : '\n' ∉ s.toList)
    (ht : Piece t b) : Piece (text s ++ t) (a ++ b) where
  oneLine x hx := by
    rcases List.mem_append.1 hx with hx | hx
    · exact text_oneLine hn x hx
    · exact ht.oneLine x hx
  reads vs hvs := by rw [scanAll_append, hs, ht.reads vs hvs, List.append_assoc]

/-! ## References -/

/-- Whether every key is an identifier. -/
def identifiers (keys : List String) : Prop := ∀ k ∈ keys, isIdentifier k.toList = true

theorem piece_joinDot {segs : List (List Char)} (hne : segs ≠ [])
    (h : ∀ cs ∈ segs, isIdentifier cs = true) :
    Piece (chars (Text.joinDot segs)) (pathToks (segs.map String.ofList)) := by
  induction segs with
  | nil => exact absurd rfl hne
  | cons cs segs ih =>
    have hcs := piece_identifier (h cs List.mem_cons_self)
    cases segs with
    | nil => simpa [Text.joinDot, pathToks, word] using hcs
    | cons cs' segs =>
      have hrest := ih (by simp) fun d hd => h d (List.mem_cons_of_mem _ hd)
      have hdot : Piece (text "." ++ chars (Text.joinDot (cs' :: segs)))
          (.punct '.' :: pathToks ((cs' :: segs).map String.ofList)) :=
        Piece.text_append (s := ".") (a := [.punct '.']) (fun _ => rfl) (by decide) hrest
      have := hcs.append hdot fun _ => rfl
      simpa [Text.joinDot, pathToks, word, chars, text] using this

theorem fieldSection_identifier (field : String) :
    isIdentifier (fieldSection field).1.toList = true := by
  unfold fieldSection
  split
  · exact (by decide : isIdentifier "context".toList = true)
  · split
    · exact (by decide : isIdentifier "enterprise_knowledge".toList = true)
    · exact (by decide : isIdentifier "intent".toList = true)

theorem fieldKeys_ne_nil (field : String) : fieldKeys field ≠ [] := by
  simp [fieldKeys, Text.keyPath, Text.splitDot_ne_nil]

theorem text_append (s t : String) : text (s ++ t) = text s ++ text t := by
  simp [text, chars]

/-- `input.section`. -/
theorem piece_section (field : String) :
    Piece (text ("input." ++ (fieldSection field).1)) (refToks [(fieldSection field).1]) := by
  rw [text_append]
  exact Piece.text_append (a := [word "input", .punct '.']) (fun _ => rfl) (by decide)
    (piece_word (fieldSection_identifier field))

/-- A field that is spliced into the text is read as the path it names. -/
theorem piece_dotPathAccess {field : String} (h : identifiers (fieldKeys field)) :
    Piece (dotPathAccess ("input." ++ (fieldSection field).1) (fieldSection field).2)
      (refToks (fieldPath field)) := by
  have hkeys := piece_joinDot (Text.splitDot_ne_nil (fieldSection field).2) fun cs hcs => by
    simpa using h (String.ofList cs) (List.mem_map_of_mem hcs)
  rw [Text.joinDot_splitDot] at hkeys
  have hdot : Piece (text "." ++ chars (fieldSection field).2)
      (.punct '.' :: pathToks (fieldKeys field)) :=
    Piece.text_append (s := ".") (a := [.punct '.']) (fun _ => rfl) (by decide) hkeys
  have := (piece_section field).append hdot fun _ => rfl
  obtain ⟨k, ks, hk⟩ := List.exists_cons_of_ne_nil (fieldKeys_ne_nil field)
  simpa [dotPathAccess, refToks, fieldPath, hk, pathToks] using this

/-! ## Expressions -/

/-- One `object.get` call around an expression. -/
theorem piece_objectGet {expr : Source} {inner : List Tok} (h : Piece expr inner) (part : List Char)
    {d : String} {t : List Tok}
    (hd : Piece (text ", " ++ text d ++ text ")") (.punct ',' :: t ++ [.punct ')'])) :
    Piece (text "object.get(" ++ expr ++ text ", " ++ regoLiteral (.str (.ofList part)) ++
        text ", " ++ text d ++ text ")")
      ([word "object", .punct '.', word "get", .punct '('] ++ inner ++
        [.punct ',', .lit (.str (.ofList part)), .punct ','] ++ t ++ [.punct ')']) := by
  have hlit : Piece (text ", " ++ (regoLiteral (.str (.ofList part)) ++
      (text ", " ++ text d ++ text ")")))
      ([.punct ','] ++ ([.lit (.str (.ofList part))] ++ (.punct ',' :: t ++ [.punct ')']))) :=
    Piece.text_append (fun _ => rfl) (by decide) ((piece_literal _).append hd fun _ => rfl)
  have := Piece.text_append (s := "object.get(")
    (a := [word "object", .punct '.', word "get", .punct '(']) (fun _ => rfl) (by decide)
    (h.append hlit fun _ => rfl)
  simpa [List.append_assoc] using this

theorem piece_nestedObjectGetFrom {expr : Source} {inner : List Tok} (h : Piece expr inner)
    (parts : List (List Char)) :
    Piece (nestedObjectGetFrom expr parts) (getToks inner (parts.map String.ofList)) := by
  induction parts generalizing expr inner with
  | nil => exact h
  | cons part parts ih =>
    cases parts with
    | nil =>
      have := piece_objectGet h part (d := "null") (t := [word "null"])
        ⟨by decide, fun _ _ => rfl⟩
      simpa [nestedObjectGetFrom, getToks] using this
    | cons part' parts =>
      have := ih (piece_objectGet h part (d := "\x7b\x7d") (t := [.punct '{', .punct '}'])
        ⟨by decide, fun _ _ => rfl⟩)
      simpa [nestedObjectGetFrom, getToks] using this

/-- A comparison: a reference, an operator, a literal. -/
theorem piece_compare {ref : Source} {ts : List Tok} (h : Piece ref ts) {o : String}
    {u : List Tok} (v : Json) (hs : ∀ vs, noSpaces (scanAll (text o) vs) = u ++ noSpaces vs)
    (hn : '\n' ∉ o.toList) (ha : ∀ vs, apart (scanAll (text o) vs) = true) :
    Piece (ref ++ text o ++ regoLiteral v) (ts ++ u ++ [.lit v]) := by
  have := h.append (Piece.text_append hs hn (piece_literal v)) fun vs => by
    rw [scanAll_append]
    exact ha _
  simpa [List.append_assoc] using this

/-- Whether the text of the field is copied into the source. -/
def splicesField (c : Condition) : Prop := c.operator ≠ .exist

/-- The fields of a policy that are spliced are paths of identifiers. -/
def plainFields (p : RuntimePolicy) : Prop :=
  ∀ c ∈ p.conditions, splicesField c → identifiers (fieldKeys c.field)

/-- The text of a condition is read as its expression. -/
theorem piece_condition {c : Condition} {s : Source} (h : generateConditionExpression c = .ok s)
    (hf : splicesField c → identifiers (fieldKeys c.field)) : Piece s (conditionExpr c).toks := by
  rcases c with ⟨field, op, value⟩
  simp only [generateConditionExpression, resolveBaseAndField_eq] at h
  have href : op ≠ .exist → _ := fun hop => piece_dotPathAccess (hf hop)
  cases op with
  | lte | gte | eq | neq | lt | gt =>
    rw [← Except.ok.inj h]
    exact piece_compare (href (by decide)) value (fun _ => rfl) (by decide) fun _ => rfl
  | isIn =>
    rw [← Except.ok.inj h]
    have := piece_compare (u := [word "in"]) (href (by decide)) value
      (o := " in ") (fun _ => rfl) (by decide) fun _ => rfl
    simpa [conditionExpr, Expr.toks] using this
  | contains =>
    rw [← Except.ok.inj h]
    have hclose : Piece (text ")") [.punct ')'] := ⟨by decide, fun _ _ => rfl⟩
    have harg := piece_compare (href (by decide)) value
      (o := ", ") (u := [.punct ',']) (fun _ => rfl) (by decide) fun _ => rfl
    have := Piece.text_append (s := "contains(") (a := [word "contains", .punct '('])
      (fun _ => rfl) (by decide) (harg.append hclose fun _ => rfl)
    simpa [conditionExpr, Expr.toks, List.append_assoc] using this
  | exist =>
    have hget := piece_nestedObjectGetFrom (piece_section field)
      (Text.splitDot (fieldSection field).2)
    have hnull : Piece (text "null") [word "null"] := piece_word (by decide)
    cases value with
    | bool b =>
      have hcmp : Piece (text (if b then " != null" else " == null"))
          ((if b then Cmp.neq else Cmp.eq).toks ++ [word "null"]) := by
        cases b with
        | true => exact Piece.text_append (s := " != ") (fun _ => rfl) (by decide) hnull
        | false => exact Piece.text_append (s := " == ") (fun _ => rfl) (by decide) hnull
      have := hget.append hcmp fun vs => by cases b <;> rfl
      rw [← List.append_assoc] at this
      cases b <;> rw [← Except.ok.inj h] <;> exact this
    | null | int | float | str | arr | obj => cases h

/-! ## Rules -/

theorem Piece.read_eq' {s : Source} {ts : List Tok} (h : Piece s ts) (hne : ts ≠ []) :
    read s = [ts] := by
  obtain ⟨t, ts, rfl⟩ := List.exists_cons_of_ne_nil hne
  exact h.read_eq

theorem Expr.toks_ne_nil (e : Expr) : e.toks ≠ [] := by
  cases e <;> simp [Expr.toks]

/-- The lines of a body, each as its expression. -/
def readsAs (lines : List Source) (es : List Expr) : Prop :=
  List.Forall₂ (fun s e => Piece s e.toks) lines es

/-- One line of the scope block. -/
theorem piece_scopeLine {s : String} {k : List String} (v : String)
    (h : ∀ vs, noSpaces (scanAll (text s) vs) = refToks k ++ Cmp.eq.toks ++ noSpaces vs)
    (hn : '\n' ∉ s.toList) :
    Piece (text s ++ regoLiteral (.str v)) (Expr.compare k .eq (.str v)).toks :=
  Piece.text_append h hn (piece_literal _)

theorem readsAs_scopeBlock (p : RuntimePolicy) : readsAs (generateScopeBlock p) (scopeExprs p) := by
  have haction := piece_scopeLine (s := "input.intent.action == ") (k := ["intent", "action"])
    p.scope.action (fun _ => rfl) (by decide)
  have hprincipal := piece_scopeLine (s := "input.agent.acting_for_principal_id == ")
    (k := ["agent", "acting_for_principal_id"]) p.scope.principal (fun _ => rfl) (by decide)
  have hagent := fun a => piece_scopeLine (s := "input.agent.id == ") (k := ["agent", "id"])
    a (fun _ => rfl) (by decide)
  have hresource := fun r => piece_scopeLine (s := "input.intent.resource == ")
    (k := ["intent", "resource"]) r (fun _ => rfl) (by decide)
  unfold readsAs generateScopeBlock scopeExprs
  refine List.rel_append (List.rel_append ?_ ?_) ?_
  · exact .cons haction (.cons hprincipal .nil)
  · cases p.scope.agent with
    | none => exact .nil
    | some a => exact .cons (hagent a) .nil
  · cases p.scope.resource with
    | none => exact .nil
    | some r => exact .cons (hresource r) .nil

theorem readsAs_conditions {p : RuntimePolicy} (hf : plainFields p) {lines : List Source}
    (h : generateConditionsBlock p.conditions = .ok lines) :
    readsAs lines (p.conditions.map conditionExpr) := by
  unfold readsAs
  have hgen := mapM_ok h
  rw [List.forall₂_map_right_iff]
  have hmem := (List.forall₂_and_left p.conditions lines).2 ⟨fun c hc => hc, hgen⟩
  exact (hmem.imp fun c s hcs => piece_condition hcs.2 (hf c hcs.1)).flip

theorem read_join {sep : Source} (hsep : ∀ s t : Source, read (s ++ sep ++ t) = read s ++ read t)
    (ss : List Source) : read (join sep ss) = ss.flatMap read := by
  induction ss with
  | nil => rfl
  | cons s ss ih =>
    cases ss with
    | nil => simp [join]
    | cons s' ss =>
      have : join sep (s :: s' :: ss) = s ++ sep ++ join sep (s' :: ss) := rfl
      rw [this, hsep, ih, List.flatMap_cons (x := s)]

theorem read_newline (s t : Source) : read (s ++ text "\n" ++ t) = read s ++ read t := by
  have := read_append s t
  simpa [text, chars] using this

theorem read_newlines (s t : Source) : read (s ++ text "\n\n" ++ t) = read s ++ read t := by
  have h₁ := read_append s (.ch '\n' :: t)
  have h₂ := read_append [] t
  rw [show read [] = [] from rfl, List.nil_append, List.nil_append] at h₂
  rw [h₂] at h₁
  simpa [text, chars] using h₁

theorem read_indented {lines : List Source} {es : List Expr} (h : readsAs lines es) :
    (lines.map fun line => text "    " ++ line).flatMap read = es.map Expr.toks := by
  induction h with
  | nil => rfl
  | cons h _ ih =>
    have hline : Piece (text "    " ++ _) _ :=
      Piece.text_append (s := "    ") (a := []) (fun _ => rfl) (by decide) h
    simp only [List.map_cons, List.flatMap_cons, ih]
    rw [hline.read_eq' (by simpa using Expr.toks_ne_nil _)]
    rfl

/-! The rule name is an identifier. -/

theorem isWordChar_sanitized (c : Char) :
    isWordChar (if isSafeIdChar c then c else '_') = true := by
  split
  · next h =>
    simp only [isSafeIdChar, Bool.or_eq_true] at h
    simp only [isWordChar, isLetter, Bool.or_eq_true]
    tauto
  · rfl

theorem sanitizePolicyId_wordChars (policyId : String) :
    (sanitizePolicyId policyId).all isWordChar = true := by
  have hall : (policyId.toList.map fun c => if isSafeIdChar c then c else '_').all isWordChar
      = true := by
    simp only [List.all_map, List.all_eq_true]
    exact fun c _ => isWordChar_sanitized c
  simp only [sanitizePolicyId]
  cases hcs : policyId.toList.map fun c => if isSafeIdChar c then c else '_' with
  | nil => decide
  | cons c cs =>
    rw [hcs] at hall
    dsimp only
    split
    · rw [List.all_cons, List.all_cons, hall]
      decide
    · exact hall

theorem ruleName_identifier (policyId : String) :
    isIdentifier (ruleNameForPolicy policyId).toList = true := by
  unfold ruleNameForPolicy
  rw [String.toList_ofList]
  exact isIdentifier_append (by decide) (sanitizePolicyId_wordChars policyId)

/-! ## The bundle -/

/-- A line that ends in `if { … }`. -/
theorem piece_oneLine {head : Source} {ts : List Tok} (h : Piece head ts) {body : Source}
    {us : List Tok} (hb : Piece body us) :
    Piece (head ++ text " if \x7b " ++ body ++ text " \x7d")
      (ts ++ [word "if", .punct '{'] ++ us ++ [.punct '}']) := by
  have hclose : Piece (text " \x7d") [.punct '}'] := ⟨by decide, fun _ _ => rfl⟩
  have hif := Piece.text_append (s := " if \x7b ") (a := [word "if", .punct '{']) (fun _ => rfl)
    (by decide) (hb.append hclose fun _ => rfl)
  have := h.append hif fun _ => rfl
  simpa [List.append_assoc] using this

theorem piece_ruleName (policyId : String) :
    Piece (text (ruleNameForPolicy policyId)) [word (ruleNameForPolicy policyId)] :=
  piece_word (ruleName_identifier policyId)

/-- **The text of a policy's rule is read as its rule.** -/
theorem read_policyRule {p : RuntimePolicy} (hf : plainFields p) {s : Source}
    (h : generatePolicyRule p = .ok s) : read s = (policyRule p).lines := by
  obtain ⟨conditions, hc, h⟩ := bind_ok.1 h
  rw [← Except.ok.inj h]
  have hbody : readsAs (generateScopeBlock p ++ conditions) (policyBody p) :=
    List.rel_append (readsAs_scopeBlock p) (readsAs_conditions hf hc)
  have hopen : Piece (text (ruleNameForPolicy p.id) ++ text " if \x7b")
      [word (ruleNameForPolicy p.id), word "if", .punct '{'] :=
    (piece_ruleName p.id).append ⟨by decide, fun _ _ => rfl⟩ fun _ => rfl
  have hclose : Piece (text "\x7d") [.punct '}'] := ⟨by decide, fun _ _ => rfl⟩
  have hsplit : ∀ body : Source, text (ruleNameForPolicy p.id) ++ text " if \x7b\n" ++ body ++
      text "\n\x7d" = (text (ruleNameForPolicy p.id) ++ text " if \x7b") ++ text "\n" ++
        (body ++ text "\n" ++ text "\x7d") := by
    intro body
    simp [text, chars]
  rw [hsplit, read_newline, read_newline, read_join read_newline, read_indented hbody,
    hopen.read_eq, hclose.read_eq]
  rfl

/-- A one-line rule whose body is one expression. -/
theorem read_oneLine {head : Source} {d : Head} (h : Piece head d.toks) {body : Source}
    {e : Expr} (hb : Piece body e.toks) :
    read (head ++ text " if \x7b " ++ body ++ text " \x7d") = (Rule.mk d [e] true).lines := by
  rw [(piece_oneLine h hb).read_eq' (by simp)]
  simp [Rule.lines]

theorem flatMap_read {α : Type} (xs : List α) {line : α → Source} {rule : α → Rule}
    (h : ∀ x ∈ xs, read (line x) = (rule x).lines) :
    (xs.map line).flatMap read = (xs.map rule).flatMap Rule.lines := by
  simp only [List.flatMap_map]
  exact List.flatMap_congr h

theorem read_aggregateLinesFor (ps : List RuntimePolicy) (e : Effect) :
    (aggregateLinesFor ps e).flatMap read = (aggregateRules ps e).flatMap Rule.lines :=
  flatMap_read _ fun p _ => read_oneLine (d := .bool (effectRuleName e))
    (piece_word (by cases e <;> decide)) (piece_ruleName p.id)

theorem piece_head {s : String} {v : Json} {a : List Tok}
    (h : ∀ vs, noSpaces (scanAll (text s) vs) = a ++ noSpaces vs) (hn : '\n' ∉ s.toList) :
    Piece (text s ++ regoLiteral v) (a ++ [.lit v]) :=
  Piece.text_append h hn (piece_literal v)

theorem read_evaluatedLines (ps : List RuntimePolicy) :
    (evaluatedLines ps).flatMap read = (ps.map evaluatedRule).flatMap Rule.lines :=
  flatMap_read _ fun p _ => read_oneLine (d := .contains "evaluated_mandates" (.str p.id))
    (piece_head (s := "evaluated_mandates contains ")
      (a := [word "evaluated_mandates", word "contains"]) (fun _ => rfl) (by decide))
    (piece_ruleName p.id)

theorem read_reasonLines (ps : List RuntimePolicy) :
    (ps.filterMap reasonLine).flatMap read = (ps.filterMap reasonRule).flatMap Rule.lines := by
  induction ps with
  | nil => rfl
  | cons p ps ih =>
    have hreview := piece_head (s := "review_reason := ") (v := .str ("policy_matched:" ++ p.id))
      (a := [word "review_reason", .punct ':', .punct '=']) (fun _ => rfl) (by decide)
    have hdeny := piece_head (s := "deny_reason := ") (v := .str ("policy_matched:" ++ p.id))
      (a := [word "deny_reason", .punct ':', .punct '=']) (fun _ => rfl) (by decide)
    cases he : p.effect with
    | allow => simpa [List.filterMap_cons, reasonLine, reasonRule, he] using ih
    | deny =>
      simp only [List.filterMap_cons, reasonLine, reasonRule, he, List.flatMap_cons, ih]
      rw [read_oneLine (d := .assign "deny_reason" _) (e := .rule _) hdeny (piece_ruleName p.id)]
    | requireHumanReview =>
      simp only [List.filterMap_cons, reasonLine, reasonRule, he, List.flatMap_cons, ih]
      rw [read_oneLine (d := .assign "review_reason" _) (e := .rule _) hreview
        (piece_ruleName p.id)]

theorem read_fallbackLines :
    fallbackLines.flatMap read = fallbackRules.flatMap Rule.lines := rfl

/-- A comment is not read. -/
theorem read_section {sep : String} (hsep : ∀ s t, read (s ++ text sep ++ t) = read s ++ read t)
    (lines : List Source) {comment : String} (hc : read (text comment) = []) :
    read (section_ sep lines comment) = lines.flatMap read := by
  unfold section_
  split
  · next h => rw [hc, List.isEmpty_iff.1 h]; rfl
  · exact read_join hsep lines

theorem read_defaults :
    read (join (text "\n") [text "default allow := false", text "default deny := false",
      text "default requires_review := false"]) =
    ["allow", "deny", "requires_review"].map defaultLine := by
  rw [read_join read_newline]
  rfl

theorem flatMap_read_rules {ps : List RuntimePolicy} {body : RuntimePolicy → List Expr}
    {rules : List Source}
    (h : List.Forall₂ (fun p s => read s = (ruleWith p (body p)).lines) ps rules) :
    rules.flatMap read = (ps.map fun p => ruleWith p (body p)).flatMap Rule.lines := by
  induction h with
  | nil => rfl
  | cons h _ ih => rw [List.flatMap_cons, h, ih, List.map_cons, List.flatMap_cons]

/-- Whatever the bodies of the rules are, `build_bundle` puts the rest of the module around them. -/
theorem read_regoSource_with {ps : List RuntimePolicy} {body : RuntimePolicy → List Expr}
    {rules : List Source}
    (h : List.Forall₂ (fun p s => read s = (ruleWith p (body p)).lines) ps rules) :
    read (regoSource ps rules) = (moduleWith ps body).lines := by
  have hrules := flatMap_read_rules h
  have hpackage : read (text "package payreality.authorization") =
      [word "package" :: pathToks ["payreality", "authorization"]] := rfl
  have haggregate : (aggregateLines ps).flatMap read =
      (aggregateRules ps .allow ++ aggregateRules ps .deny ++
        aggregateRules ps .requireHumanReview).flatMap Rule.lines := by
    simp only [aggregateLines, List.flatMap_append, read_aggregateLinesFor]
  rw [regoSource, read_join read_newlines]
  simp only [List.flatMap_cons, List.flatMap_nil, List.append_nil]
  rw [hpackage, read_defaults, read_section read_newlines _ rfl, read_section read_newline _ rfl,
    read_section read_newline _ rfl, read_section read_newline _ rfl, read_join read_newline,
    read_fallbackLines, hrules, haggregate, read_evaluatedLines, read_reasonLines]
  simp [Module.lines, moduleWith, collectingRules, List.flatMap_append]

/-- The text of a bundle is read as the intended module when its spliced fields are paths of
identifiers. -/
theorem read_regoSource_of_plain {ps : List RuntimePolicy} (hf : ∀ p ∈ ps, plainFields p)
    {rules : List Source} (h : ps.mapM generatePolicyRule = .ok rules) :
    read (regoSource ps rules) = (intendedModule ps).lines := by
  have hmem := (List.forall₂_and_left ps rules).2 ⟨hf, mapM_ok h⟩
  rw [intendedModule_eq]
  exact read_regoSource_with (hmem.imp fun p s hps => read_policyRule hps.1 hps.2)

/-! ## Only then -/

theorem mem_pathToks {k : String} {ks : List String} (h : k ∈ ks) : word k ∈ pathToks ks := by
  induction ks with
  | nil => cases h
  | cons s ss ih =>
    cases ss with
    | nil =>
      obtain rfl : k = s := by simpa using h
      simp [pathToks]
    | cons s' ss =>
      rcases List.mem_cons.1 h with rfl | h
      · simp [pathToks]
      · exact List.mem_cons_of_mem _ (List.mem_cons_of_mem _ (ih h))

theorem mem_conditionExpr {c : Condition} (hc : splicesField c) {k : String}
    (hk : k ∈ fieldKeys c.field) : word k ∈ (conditionExpr c).toks := by
  have href : word k ∈ refToks (fieldPath c.field) :=
    mem_pathToks (List.mem_cons_of_mem _ (List.mem_cons_of_mem _ hk))
  unfold conditionExpr
  cases hop : c.operator <;> simp_all [splicesField, Expr.toks]

/-- A text that is read as the intended module has spliced nothing but identifiers. -/
theorem plain_of_read {s : Source} {ps : List RuntimePolicy}
    (h : read s = (intendedModule ps).lines) : ∀ p ∈ ps, plainFields p := by
  intro p hp c hc hsplice k hk
  have hline : (conditionExpr c).toks ∈ (intendedModule ps).lines := by
    have hbody : (conditionExpr c).toks ∈ (policyRule p).lines := by
      simp only [policyRule, Rule.lines, policyBody]
      simp only [Bool.false_eq_true, ↓reduceIte, List.map_append, List.map_map, List.cons_append,
        List.mem_cons, List.mem_append, List.mem_map]
      exact .inr (.inl (.inr ⟨c, hc, rfl⟩))
    simp only [Module.lines, List.mem_append, List.mem_flatMap]
    refine .inr ⟨policyRule p, ?_, hbody⟩
    simp only [intendedModule, List.mem_append, List.mem_map]
    exact .inl (.inl (.inl (.inl (.inl (.inl ⟨p, hp, rfl⟩)))))
  rw [← h] at hline
  exact read_words s hline (mem_conditionExpr hsplice hk)

/-- **What is spliced decides how the text is read**: it is the intended module exactly when
every spliced field is a path of identifiers. -/
theorem read_regoSource {ps : List RuntimePolicy} {rules : List Source}
    (h : ps.mapM generatePolicyRule = .ok rules) :
    read (regoSource ps rules) = (intendedModule ps).lines ↔ ∀ p ∈ ps, plainFields p :=
  ⟨plain_of_read, fun hf => read_regoSource_of_plain hf h⟩

end PayReality
