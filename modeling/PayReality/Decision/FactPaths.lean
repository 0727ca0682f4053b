import PayReality.Compiler.Meaning
import PayReality.Decision.MissingFields
import PayReality.Dict

/-!
# How a fact reaches the conditions that name it

A fact is sent to OPA as a member of the section `enterprise_knowledge`, under its key as it stands.
A condition on `enterprise_knowledge.<key>` reads the path that the text of the key spells: the key
is spliced into the source, and its dots separate the members.

**Main result** `readsFact_iff`: the condition reads the value of the fact exactly when its text is a
path and that path leads to the value, as it does where the key has no dot.
-/

namespace PayReality

open Rego RegoGenerator IntentService

/-! ## What an expression reads -/

/-- The path of the reference. -/
def Rego.Expr.path : Expr → List String
  | .compare p _ _ | .member p _ | .contains p _ => p
  | .present base _ _ => base
  | .rule _ | .countZero _ => []

/-- The value that the expression compares. -/
def Rego.Expr.valueRead (input : Json) : Expr → Option Json
  | .compare p _ _ | .member p _ | .contains p _ => input.lookup p
  | .present base keys _ => nestedGet (input.lookup base) keys
  | .rule _ | .countZero _ => none

/-- The text `s` of a condition is read as its expression, OPA takes the reference, and the value
that is read of the input is `v`. -/
structure ReadsFact (r : Reserved) (s : Source) (c : Condition) (input v : Json) : Prop where
  readAs : read s = [(conditionExpr c).toks]
  free : ∀ k ∈ (conditionExpr c).path, r.word k = false
  value : (conditionExpr c).valueRead input = some v

/-- What a condition with this operator reads below a section. -/
def valueBelow (op : Operator) (v : Json) (keys : List String) : Option Json :=
  if op = .exist then nestedGet (some v) keys else v.lookup keys

theorem valueRead_conditionExpr {c : Condition} {input v : Json}
    (h : input.get? (fieldSection c.field).1 = some v) :
    (conditionExpr c).valueRead input = valueBelow c.operator v (fieldKeys c.field) := by
  have hsection : input.lookup [(fieldSection c.field).1] = some v := by
    simp [Json.lookup, h]
  have hlookup : input.lookup (fieldPath c.field) = v.lookup (fieldKeys c.field) := by
    rw [lookup_fieldPath, hsection]
    rfl
  unfold conditionExpr valueBelow
  cases c.operator with
  | lte | gte | eq | neq | lt | gt | isIn | contains => exact hlookup
  | exist =>
    show nestedGet (input.lookup [(fieldSection c.field).1]) (fieldKeys c.field) = _
    rw [hsection]
    rfl

/-! ## The keys of the facts -/

theorem resolveFacts_keys {db : Db} {o : Uuid} {subject : Option String} {now : Timestamp}
    {keys : List String} {facts : List EnterpriseFact}
    (h : db.resolveFacts o subject now keys = .ok facts) :
    (facts.map EnterpriseFact.key).Sublist keys := by
  induction keys generalizing facts with
  | nil =>
    cases h
    exact .slnil
  | cons key keys ih =>
    unfold Db.resolveFacts at h
    split at h
    · exact (ih h).cons key
    · next f fs hfs =>
      split at h
      · obtain ⟨rest, hrest, h⟩ := bind_ok.1 h
        cases h
        have hf : f ∈ db.trustedFacts o subject key now := hfs ▸ List.mem_cons_self
        have hkey : f.key = key := by
          have := (List.mem_filter.1 hf).2
          simp only [decide_eq_true_eq] at this
          exact this.2.2.1
        rw [List.map_cons, hkey]
        exact (ih hrest).cons_cons key
      · cases h

theorem listEnterpriseKnowledgeKeys_nodup (db : Db) (o : Option Uuid) :
    (db.listEnterpriseKnowledgeKeys o).Nodup :=
  (List.perm_insertionSort _ _).nodup_iff.2 (List.nodup_dedup _)

variable {db : Db} {P : Platform} {agent : Agent} {now : Timestamp} {intent : Intent} {version : ℕ}

/-- The section of facts has one member for each key. -/
theorem enterpriseKnowledge_nodup :
    ((enterpriseKnowledge db agent now intent).map Prod.fst).Nodup := by
  have hfacts : ((resolvedFacts db agent now intent).map EnterpriseFact.key).Nodup := by
    unfold resolvedFacts
    split
    · exact List.nodup_nil
    · split
      · next facts h => exact (listEnterpriseKnowledgeKeys_nodup db _).sublist (resolveFacts_keys h)
      · exact List.nodup_nil
  rw [enterpriseKnowledge, List.map_map]
  exact hfacts

/-- A resolved fact is found under its key. -/
theorem get?_enterpriseKnowledge {f : EnterpriseFact}
    (hf : f ∈ resolvedFacts db agent now intent) :
    (Json.obj (enterpriseKnowledge db agent now intent)).get? f.key = some f.value :=
  Json.get?_of_mem enterpriseKnowledge_nodup (List.mem_map.2 ⟨f, hf, rfl⟩)

/-! ## The path of a key -/

theorem fieldSection_of_key {field key : String}
    (h : Db.enterpriseKnowledgeKey field = some key) :
    fieldSection field = ("enterprise_knowledge", key.toList) := by
  obtain ⟨rest, hrest, rfl⟩ := Option.map_eq_some_iff.1 h
  have hfield := eq_append_of_afterPrefix hrest
  have hcontext : Text.afterPrefix "context.".toList field.toList = none := by
    rw [hfield]
    rfl
  have hknowledge : Text.afterPrefix "enterprise_knowledge.".toList field.toList = some rest := hrest
  rw [fieldSection, hcontext, hknowledge]
  simp

theorem splitDot_of_not_mem {cs : List Char} (h : '.' ∉ cs) : Text.splitDot cs = [cs] := by
  induction cs with
  | nil => rfl
  | cons c cs ih =>
    rw [List.mem_cons, not_or] at h
    rw [Text.splitDot, if_neg (Ne.symm h.1), ih h.2]

theorem keyPath_of_not_mem {key : String} (h : '.' ∉ key.toList) :
    Text.keyPath key.toList = [key] := by
  simp [Text.keyPath, splitDot_of_not_mem h]

/-- Where the key has no dot, the path of the condition leads to the fact. -/
theorem valueBelow_of_not_mem {f : EnterpriseFact} (hf : f ∈ resolvedFacts db agent now intent)
    (hdot : '.' ∉ f.key.toList) (op : Operator) :
    valueBelow op (.obj (enterpriseKnowledge db agent now intent)) (Text.keyPath f.key.toList) =
      some f.value := by
  rw [keyPath_of_not_mem hdot]
  unfold valueBelow
  split
  · simp [nestedGet, objectGet, get?_enterpriseKnowledge hf]
  · simp [Json.lookup, get?_enterpriseKnowledge hf]

/-! ## Reading a fact -/

/-- What the text of a condition on a fact has to be: a path of words that are not reserved, unless
it asks whether there is such a fact, and then the key is quoted. -/
def spellsPath (r : Reserved) (op : Operator) (key : String) : Prop :=
  op ≠ .exist → ∀ k ∈ Text.keyPath key.toList, isIdentifier k.toList = true ∧ r.word k = false

/-- A key with dots is taken for a path: the fact under its first part, if there is one, holds the
same value there. -/
def foundUnder (op : Operator) (facts : List EnterpriseFact) (f : EnterpriseFact) : Prop :=
  '.' ∈ f.key.toList →
    valueBelow op (.obj (facts.map fun g => (g.key, g.value))) (Text.keyPath f.key.toList) =
      some f.value

/-- **A condition reads the fact that it names exactly when** its text is a path, and the path leads
to the value of the fact. -/
theorem readsFact_iff (r : Reserved) {c : Condition} {s : Source} {f : EnterpriseFact}
    (hs : generateConditionExpression c = .ok s)
    (hkey : Db.enterpriseKnowledgeKey c.field = some f.key)
    (hf : f ∈ resolvedFacts db agent now intent) :
    ReadsFact r s c (opaInput db P agent now intent version) f.value ↔
      spellsPath r c.operator f.key ∧
        foundUnder c.operator (resolvedFacts db agent now intent) f := by
  have hsection := fieldSection_of_key hkey
  have hkeys : fieldKeys c.field = Text.keyPath f.key.toList := by
    rw [fieldKeys, hsection]
  have hvalue : (conditionExpr c).valueRead (opaInput db P agent now intent version) =
      valueBelow c.operator (.obj (enterpriseKnowledge db agent now intent))
        (Text.keyPath f.key.toList) := by
    rw [← hkeys]
    refine valueRead_conditionExpr ?_
    rw [hsection]
    rfl
  have hpath : c.operator ≠ .exist → (conditionExpr c).path = fieldPath c.field := by
    intro hop
    unfold conditionExpr
    cases h : c.operator <;> first | rfl | exact absurd h hop
  constructor
  · intro hreads
    obtain ⟨hread, hfree, hv⟩ := hreads
    refine ⟨fun hop k hk => ⟨?_, ?_⟩, fun _ => hvalue.symm.trans hv⟩
    · have hline : (conditionExpr c).toks ∈ read s := hread ▸ List.mem_cons_self
      exact read_words s hline (mem_conditionExpr hop (hkeys ▸ hk))
    · rw [hpath hop] at hfree
      exact hfree k (List.mem_cons_of_mem _ (hkeys ▸ hk))
  · intro hpath'
    obtain ⟨hspells, hfound⟩ := hpath'
    refine ⟨?_, ?_, ?_⟩
    · have hpiece := piece_condition hs fun hop k hk => (hspells hop k (hkeys ▸ hk)).1
      exact hpiece.read_eq' (Expr.toks_ne_nil _)
    · intro k hk
      by_cases hop : c.operator = .exist
      · have hbase : (conditionExpr c).path = [(fieldSection c.field).1] := by
          unfold conditionExpr
          rw [hop]
          rfl
        rw [hbase, List.mem_singleton] at hk
        exact hk ▸ fieldSection_free r c.field
      · rw [hpath hop] at hk
        rcases List.mem_cons.1 hk with rfl | hk
        · exact fieldSection_free r c.field
        · exact (hspells hop k (hkeys ▸ hk)).2
    · rw [hvalue]
      by_cases hdot : '.' ∈ f.key.toList
      · exact hfound hdot
      · exact valueBelow_of_not_mem hf hdot c.operator

/-! An approval under a key without a dot, and under one with a dot. -/

/-- An organization with an active policy that asks for the fact `key`, which is `true`. -/
def approvalDb (key : String) : Db where
  principals := [⟨1, "ops", some 10, none, none, none, none⟩]
  records := [⟨20, 1, .active, paymentPolicy [⟨"enterprise_knowledge." ++ key, .eq, .bool true⟩],
    some 10, none, none, none, none, none, none, none, none⟩]
  factSources := [⟨30, .active⟩]
  facts := [⟨10, 30, none, key, .bool true, 0, 100⟩]

def approvalFact (key : String) : EnterpriseFact := ⟨10, 30, none, key, .bool true, 0, 100⟩

theorem readsFact_approved :
    ReadsFact noReserved (text "input.enterprise_knowledge" ++ text "." ++ chars "approved".toList ++
        text " == " ++ regoLiteral (.bool true))
      ⟨"enterprise_knowledge.approved", .eq, .bool true⟩
      (opaInput (approvalDb "approved") plainPlatform opsAgent 0 noAmount 1) (.bool true) ↔
    spellsPath noReserved .eq "approved" ∧
      foundUnder .eq (resolvedFacts (approvalDb "approved") opsAgent 0 noAmount)
        (approvalFact "approved") :=
  readsFact_iff (f := approvalFact "approved") noReserved rfl rfl List.mem_cons_self

/-- The fact `supplier.approved` is sent as one member, and looked for in two steps. -/
theorem dotted_key_unread :
    approvalFact "supplier.approved" ∈
        resolvedFacts (approvalDb "supplier.approved") opsAgent 0 noAmount ∧
      (∃ b, CompilerV2.compileBundle CompilerV2.genericVocabulary
        [paymentPolicy [⟨"enterprise_knowledge.supplier.approved", .eq, .bool true⟩]] "b" 1 0 =
          .ok ⟨some b, []⟩) ∧
      ¬ ∃ s, generateConditionExpression
          ⟨"enterprise_knowledge.supplier.approved", .eq, .bool true⟩ = .ok s ∧
        ReadsFact noReserved s ⟨"enterprise_knowledge.supplier.approved", .eq, .bool true⟩
          (opaInput (approvalDb "supplier.approved") plainPlatform opsAgent 0 noAmount 1)
          (.bool true) := by
  refine ⟨List.mem_cons_self, ⟨_, rfl⟩, ?_⟩
  intro ⟨s, _, hreads⟩
  have hnone : (conditionExpr ⟨"enterprise_knowledge.supplier.approved", .eq, .bool true⟩).valueRead
      (opaInput (approvalDb "supplier.approved") plainPlatform opsAgent 0 noAmount 1) = none := rfl
  cases hreads.value.symm.trans hnone

end PayReality
