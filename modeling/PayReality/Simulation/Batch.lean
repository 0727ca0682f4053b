import PayReality.Simulation.PolicySimulationService

/-!
# Batch simulation

`run_batch` of `policy_simulation_service.py` and `batch_evaluator.py`: a bundle is loaded once and
asked about every row of a CSV file. A row is what `csv.DictReader` makes of a line: a line that ends
early has `None` in its last cells, and what goes beyond the header is a list under the key `None`.

**Main result** `runBatch_agrees`: a batch counts every row once, as `simulate` decides it, exactly if
no row is judged whose line ends before its principal or its action: `str(None)` is a name like any
other.
-/

namespace PayReality

open Rego RegoGenerator

namespace PolicySimulationService

/-! ## Rows -/

structure CsvRow where
  cells : List (String × Option String)
  /-- The cells beyond the header. -/
  rest : List String := []

namespace CsvRow

variable (row : CsvRow)

/-- `raw_row.get(k)`, and whether there is such a column. -/
def get (k : String) : Option (Option String) :=
  (row.cells.find? fun e => e.1 = k).map Prod.snd

/-- `s.strip()`. -/
def strip (s : String) : String := String.ofList (Text.strip s.toList)

/-- `str(raw_row.get(k, "")).strip()`. -/
def name (k : String) : String :=
  strip (match row.get k with
    | none => ""
    | some none => "None"
    | some (some s) => s)

/-- `raw_row.get(k)`, where it is truthy. -/
def text (k : String) : Option String :=
  match row.get k with
  | some (some s) => if s = "" then none else some s
  | _ => none

/-- `counterparty`, or the `vendor` in its place. -/
def counterparty : Option String :=
  let s := strip (((row.text "counterparty").or (row.text "vendor")).getD "")
  if s = "" then none else some s

/-- The amount, by `float`. -/
def amount (parseFloat : String → Option ℚ) : Except PyError (Option ℚ) :=
  match row.text "amount" with
  | none => .ok none
  | some s =>
    match parseFloat s with
    | none => .error .valueError
    | some q => .ok (some q)

/-- The columns with a meaning of their own. -/
def core : List String :=
  ["principal", "action", "resource", "amount", "currency", "counterparty", "vendor"]

/-- Any other column; in JSON the key `None` is `"null"`. -/
def context : List (String × Json) :=
  let named := row.cells.filterMap fun e =>
    if e.1 ∈ core then none
    else match e.2 with
      | some s => if s = "" then none else some (e.1, .str s)
      | none => none
  if row.rest = [] then named else IntentService.withMember named "null" (.texts row.rest)

end CsvRow

/-! ## What is simulated -/

/-- A bundle as OPA has loaded it. Its documents list the rules that were evaluated. -/
structure LoadedBundle where
  module : Module
  lists : ∀ input document, module.answer input = .ok document →
    ∃ xs, (document.get? "evaluated_mandates").getD (.arr []) = .arr xs

/-- The policies of `_compile_for_simulation`, and what a simulation of them depends on. -/
structure Candidate where
  policies : List RuntimePolicy
  bundleId : String
  version : ℕ
  now : Timestamp
  db : Db
  organizationId : Option Uuid
  /-- What OPA makes of the bundle; `none` where it does not load it. -/
  loaded : Option LoadedBundle
  /-- `float`; `none` where it raises `ValueError`, or where JSON has no such number. -/
  parseFloat : String → Option ℚ

namespace Candidate

variable (E : Candidate)

/-- `_enterprise_knowledge_keys_referenced`. -/
def neededFactKeys : List String :=
  ((E.policies.flatMap fun p => p.conditions.filterMap fun c =>
    Db.enterpriseKnowledgeKey c.field).dedup).insertionSort (· ≤ ·)

/-- `{f.key: f.value}` of `resolve_facts`; nothing where the facts conflict. -/
def factsAbout (organizationId : Uuid) (subject : Option String) (keys : List String) :
    List (String × Json) :=
  match E.db.resolveFacts organizationId subject E.now keys with
  | .ok facts => facts.map fun f => (f.key, f.value)
  | .error _ => []

/-- `enterprise_knowledge` of `simulate`. -/
def simulatedKnowledge (counterparty : Option String) : List (String × Json) :=
  if E.neededFactKeys = [] then []
  else
    match counterparty, E.organizationId with
    | none, _ | _, none => []
    | some c, some o => E.factsAbout o (some c) E.neededFactKeys

/-- `enterprise_knowledge` of `run_batch`. -/
def batchKnowledge (counterparty : Option String) : List (String × Json) :=
  if E.neededFactKeys = [] then []
  else
    match E.organizationId with
    | none => []
    | some o => E.factsAbout o counterparty E.neededFactKeys

def compiled : Except PyError CompileResult :=
  CompilerV2.compileBundle CompilerV2.genericVocabulary E.policies E.bundleId E.version E.now

/-- The policies compile. -/
def Compiles : Prop := ∃ bundle errors, E.compiled = .ok ⟨some bundle, errors⟩

/-- `simulate`, with the facts about a counterparty. -/
def simulateAbout (token : String) (simInput : SimulationInput) (counterparty : Option String) :
    Except PyError SimulationResult := do
  let result ← E.compiled
  match result.bundle, E.loaded with
  | none, _ => throw .compilationRequired
  | some _, none => throw .dryRun
  | some _, some l =>
    let r ← dryRun l.module token (simInput.opaInput E.version (E.simulatedKnowledge counterparty))
    return {
      decision := decisionFromFlags r.allow.truthy r.deny.truthy r.requiresReview.truthy
      reviewReason := r.reviewReason
      denyReason := r.denyReason
      rules := Explainer.buildRuleEvaluations E.policies simInput.toIntent simInput.context
        simInput.principal r.evaluatedMandates }

end Candidate

/-! ## `run_batch` -/

/-- `query_loaded_bundle`. -/
def queryLoadedBundle (m : Module) (token : String) (inputDoc : Json) : Except PyError Json := do
  let body ← (({ m with package := ["payreality", "batch", token] } : Module).reply inputDoc).json
  return (← body.dictGet "result").getD (.obj [])

/-- How a row ends that is no error. -/
inductive RowResult where
  | decided (decision : Outcome)
  | cannotSimulate

/-- The `intent` of a row. -/
def CsvRow.intent (row : CsvRow) (action : String) (amount : Option ℚ) : List (String × Json) :=
  ("action", .str action) :: (((row.text "resource").map fun r => ("resource", .str r)).toList ++
    (amount.map fun a => ("amount", .float a)).toList ++
    ((row.text "currency").map fun c => ("currency", .str c)).toList)

section

variable (E : Candidate) (l : LoadedBundle) (token : String)

/-- What is sent to OPA for a row. -/
def batchInput (row : CsvRow) (principal action : String) (amount : Option ℚ) : Json :=
  Engine.buildOpaInput (.obj (row.intent action amount)) (.obj row.context) principal E.version none
    (E.batchKnowledge row.counterparty)

/-- The decision on what is sent. -/
def decideInput (inputDoc : Json) : Except PyError Outcome := do
  let result ← queryLoadedBundle l.module token inputDoc
  let allow := (← result.dictGet "allow").getD (.bool false)
  let deny := (← result.dictGet "deny").getD (.bool false)
  let requiresReview := (← result.dictGet "requires_review").getD (.bool false)
  return decisionFromFlags allow.truthy deny.truthy requiresReview.truthy

/-- `needed_fact_keys and not counterparty`. -/
def LacksSubject (row : CsvRow) : Prop := E.neededFactKeys ≠ [] ∧ row.counterparty = none

instance (row : CsvRow) : Decidable (LacksSubject E row) := inferInstanceAs (Decidable (_ ∧ _))

/-- The body of the loop, for a row with these names. -/
def judgeRow (row : CsvRow) (principal action : String) : Except PyError RowResult :=
  if principal = "" ∨ action = "" then .error .valueError
  else if LacksSubject E row then .ok .cannotSimulate
  else do
    let amount ← row.amount E.parseFloat
    return .decided (← decideInput l token (batchInput E row principal action amount))

/-- The body of the loop. -/
def runRow (row : CsvRow) : Except PyError RowResult :=
  judgeRow E l token row (row.name "principal") (row.name "action")

/-- `BatchRow`. -/
structure BatchRow where
  rowNumber : ℕ
  principal : String
  action : String
  decision : Option Outcome
  error : Option PyError := none
  limitation : Option String := none

/-- `_BATCH_SAMPLE_LIMIT`. -/
def batchSampleLimit : ℕ := 50

/-- The counters of the loop, and the sample. -/
structure Tally where
  allowed : ℕ := 0
  denied : ℕ := 0
  escalated : ℕ := 0
  errors : ℕ := 0
  cannotSimulate : ℕ := 0
  sample : List BatchRow := []

/-- `sample.append(row)`, up to the limit. -/
def Tally.append (t : Tally) (row : BatchRow) : Tally :=
  if t.sample.length < batchSampleLimit then { t with sample := t.sample ++ [row] } else t

/-- The text that goes with a row without a counterparty. -/
def limitationText (keys : List String) : String :=
  "This policy requires Trusted Enterprise Fact(s) (" ++ ", ".intercalate keys ++
    "), but this row does not identify the fact subject (a `counterparty` or `vendor` column) " ++
    "required for truthful resolution."

/-- One turn of the loop; any other exception ends the batch. -/
def addRow (t : Tally) (e : CsvRow × ℕ) : Except PyError Tally :=
  let principal := e.1.name "principal"
  let action := e.1.name "action"
  match runRow E l token e.1 with
  | .ok .cannotSimulate => .ok ({ t with cannotSimulate := t.cannotSimulate + 1 }.append {
      rowNumber := e.2, principal, action, decision := none
      limitation := some (limitationText E.neededFactKeys) })
  | .ok (.decided .allow) => .ok ({ t with allowed := t.allowed + 1 }.append {
      rowNumber := e.2, principal, action, decision := some .allow })
  | .ok (.decided .deny) => .ok ({ t with denied := t.denied + 1 }.append {
      rowNumber := e.2, principal, action, decision := some .deny })
  | .ok (.decided .humanReview) => .ok ({ t with escalated := t.escalated + 1 }.append {
      rowNumber := e.2, principal, action, decision := some .humanReview })
  | .error err =>
    if err = .valueError ∨ err = .dryRun then
      .ok ({ t with errors := t.errors + 1 }.append {
        rowNumber := e.2, principal := if principal = "" then "?" else principal
        action := if action = "" then "?" else action, decision := none, error := some err })
    else .error err

end

/-- `BatchSimulationResult`. -/
structure BatchSimulationResult where
  total : ℕ
  allowed : ℕ
  denied : ℕ
  escalated : ℕ
  errors : ℕ
  cannotSimulate : ℕ
  sampleRows : List BatchRow
  sampleTruncated : Bool
  policyVersion : Int
  policyBundleHash : BundleHash

/-- `run_batch`. -/
def runBatch (E : Candidate) (token : String) (rows : List CsvRow) :
    Except PyError BatchSimulationResult := do
  let result ← E.compiled
  match result.bundle, E.loaded with
  | none, _ => throw .compilationRequired
  | some _, none => throw .dryRun
  | some bundle, some l =>
    let t ← (rows.zipIdx 1).foldlM (addRow E l token) {}
    return {
      total := rows.length, allowed := t.allowed, denied := t.denied, escalated := t.escalated
      errors := t.errors, cannotSimulate := t.cannotSimulate, sampleRows := t.sample
      sampleTruncated := decide (batchSampleLimit < rows.length)
      policyVersion := bundle.version, policyBundleHash := bundle.bundleHash }

/-! ## What a row is -/

inductive RowClass where
  | allowed | denied | escalated | error | cannotSimulate
  deriving DecidableEq, Repr

def RowClass.ofOutcome : Outcome → RowClass
  | .allow => .allowed
  | .deny => .denied
  | .humanReview => .escalated

/-- What the loop takes a row for. -/
def classOf : Except PyError RowResult → RowClass
  | .ok (.decided o) => .ofOutcome o
  | .ok .cannotSimulate => .cannotSimulate
  | .error _ => .error

/-- What a row of the sample says. -/
def BatchRow.class (b : BatchRow) : RowClass :=
  match b.decision, b.limitation with
  | some o, _ => .ofOutcome o
  | none, some _ => .cannotSimulate
  | none, none => .error

def BatchSimulationResult.count (r : BatchSimulationResult) : RowClass → ℕ
  | .allowed => r.allowed
  | .denied => r.denied
  | .escalated => r.escalated
  | .error => r.errors
  | .cannotSimulate => r.cannotSimulate

/-- The name that is in a cell. -/
def CsvRow.said (row : CsvRow) (k : String) : String :=
  match row.get k with
  | some (some s) => strip s
  | _ => ""

/-- A row as a simulation of its own. -/
def CsvRow.simulationInput (row : CsvRow) (principal action : String) (amount : Option ℚ) :
    SimulationInput where
  principal
  action
  resource := row.text "resource"
  amount
  currency := row.text "currency"
  context := row.context

section

variable (E : Candidate) (token : String)

/-- What `simulate` makes of a row with these names. -/
def classAs (row : CsvRow) (principal action : String) : RowClass :=
  if principal = "" ∨ action = "" then .error
  else if LacksSubject E row then .cannotSimulate
  else
    match row.amount E.parseFloat with
    | .error _ => .error
    | .ok amount =>
      match E.simulateAbout token (row.simulationInput principal action amount) row.counterparty with
      | .ok r => .ofOutcome r.decision
      | .error _ => .error

/-- What a row should be counted as: a row without its two names is malformed. -/
def expected (row : CsvRow) : RowClass :=
  classAs E token row (row.said "principal") (row.said "action")

/-- The report counts every row once, as what it is; the sample has the first rows. -/
structure Faithful (rows : List CsvRow) (report : BatchSimulationResult) : Prop where
  total : report.total = rows.length
  partition : report.allowed + report.denied + report.escalated + report.errors +
    report.cannotSimulate = report.total
  counts : ∀ c, report.count c = (rows.map (expected E token)).count c
  sample : report.sampleRows.map BatchRow.class =
    (rows.map (expected E token)).take batchSampleLimit

/-- A batch agrees with simulations of its rows; where there is no bundle to ask, both raise alike. -/
def BatchAgrees (rows : List CsvRow) : Prop :=
  (∃ report, runBatch E token rows = .ok report ∧ Faithful E token rows report) ∨
    ∃ err, runBatch E token rows = .error err ∧
      ∀ simInput counterparty, E.simulateAbout token simInput counterparty = .error err

/-- A row that ends before its principal or its action, and that the batch judges all the same, for
the name `None`. -/
structure Misread (l : LoadedBundle) (row : CsvRow) : Prop where
  cut : row.get "principal" = some none ∨ row.get "action" = some none
  named : row.name "principal" ≠ "" ∧ row.name "action" ≠ ""
  judged : LacksSubject E row ∨ ∃ amount, row.amount E.parseFloat = .ok amount ∧
    ∃ document, l.module.answer ((row.simulationInput (row.name "principal") (row.name "action")
      amount).opaInput E.version (E.simulatedKnowledge row.counterparty)) = .ok document

end

/-! ## One question to OPA -/

section

variable {m : Module} {l : LoadedBundle} {input document : Json} {token : String} {err : PyError}

theorem answer_isObj (h : m.answer input = .ok document) : ∃ kvs, document = .obj kvs := by
  unfold Module.answer at h
  cases hassigned : (m.names Module.answer.assignName?).mapM (m.complete input) with
  | error e =>
    rw [hassigned] at h
    cases h
  | ok assigned =>
    rw [hassigned] at h
    cases h
    exact ⟨_, rfl⟩

/-- The answer does not depend on the package that the module is loaded under. -/
theorem reply_package (path : List String) :
    ({ m with package := path } : Module).reply input = m.reply input := rfl

theorem queryLoadedBundle_ok (h : m.answer input = .ok document) :
    queryLoadedBundle m token input = .ok document := by
  obtain ⟨kvs, rfl⟩ := answer_isObj h
  unfold queryLoadedBundle
  rw [reply_package, Module.reply, h]
  rfl

theorem queryLoadedBundle_error {e : Unit} (h : m.answer input = .error e) :
    queryLoadedBundle m token input = .error .dryRun := by
  unfold queryLoadedBundle
  rw [reply_package, Module.reply, h]
  rfl

/-- The decision on a document. -/
def documentDecision (document : Json) : Outcome :=
  decisionFromFlags ((document.get? "allow").getD (.bool false)).truthy
    ((document.get? "deny").getD (.bool false)).truthy
    ((document.get? "requires_review").getD (.bool false)).truthy

theorem decideInput_ok (h : l.module.answer input = .ok document) :
    decideInput l token input = .ok (documentDecision document) := by
  have hquery : queryLoadedBundle l.module token input = .ok document := queryLoadedBundle_ok h
  obtain ⟨kvs, rfl⟩ := answer_isObj h
  unfold decideInput
  rw [hquery]
  rfl

theorem decideInput_error {e : Unit} (h : l.module.answer input = .error e) :
    decideInput l token input = .error .dryRun := by
  have hquery : queryLoadedBundle l.module token input = .error .dryRun := queryLoadedBundle_error h
  unfold decideInput
  rw [hquery]
  rfl

/-- A dry run decides as a query of a loaded bundle does. -/
theorem decideInput_eq_dryRun : decideInput l token input =
    (dryRun l.module token input).map fun r =>
      decisionFromFlags r.allow.truthy r.deny.truthy r.requiresReview.truthy := by
  cases h : l.module.answer input with
  | error e =>
    rw [decideInput_error h]
    unfold dryRun
    rw [reply_package, Module.reply, h]
    rfl
  | ok document =>
    obtain ⟨xs, hxs⟩ := l.lists input document h
    rw [decideInput_ok h]
    obtain ⟨kvs, rfl⟩ := answer_isObj h
    have hreply : ({ l.module with package := ["payreality", "dryrun", token] } : Module).reply input =
        .response 200 (some (.obj [("result", .obj kvs)])) := by
      rw [reply_package, Module.reply, h]
    have hjson : (OpaReply.response 200 (some (.obj [("result", .obj kvs)]))).json =
      .ok (.obj [("result", .obj kvs)]) := rfl
    have hbody : (Json.obj [("result", .obj kvs)]).dictGet "result" = .ok (some (.obj kvs)) := rfl
    have hresult : ∀ k, (Json.obj kvs).dictGet k = .ok ((Json.obj kvs).get? k) := fun _ => rfl
    unfold dryRun
    simp only [hreply, hjson, hbody, hresult, hxs, Json.listOf, bind, Except.bind, pure, Except.pure,
      Option.getD_some]
    rfl

end

/-! ## One row -/

section

variable {E : Candidate} {l : LoadedBundle} {token : String} {row : CsvRow} {err : PyError}
  {principal action : String} {bundle : PolicyBundle} {errors : List CompilerError}

theorem simulateAbout_decision (hcompiled : E.compiled = .ok ⟨some bundle, errors⟩)
    (hloaded : E.loaded = some l) (s : SimulationInput) (c : Option String) :
    (E.simulateAbout token s c).map SimulationResult.decision =
      decideInput l token (s.opaInput E.version (E.simulatedKnowledge c)) := by
  rw [decideInput_eq_dryRun]
  unfold Candidate.simulateAbout
  rw [hcompiled, hloaded]
  show (dryRun l.module token _ >>= _).map _ = _
  cases dryRun l.module token (s.opaInput E.version (E.simulatedKnowledge c)) <;> rfl

/-- A row is sent to OPA as its simulation is. -/
theorem batchInput_eq (h : ¬ LacksSubject E row) (amount : Option ℚ) :
    batchInput E row principal action amount =
      (row.simulationInput principal action amount).opaInput E.version
        (E.simulatedKnowledge row.counterparty) := by
  have hknowledge : E.batchKnowledge row.counterparty = E.simulatedKnowledge row.counterparty := by
    unfold Candidate.batchKnowledge Candidate.simulatedKnowledge
    by_cases hkeys : E.neededFactKeys = []
    · simp [hkeys]
    · cases hc : row.counterparty with
      | none => exact absurd ⟨hkeys, hc⟩ h
      | some c => cases E.organizationId <;> rfl
  unfold batchInput
  rw [hknowledge]
  rfl

/-- A row with no error in it goes to OPA. -/
theorem judgeRow_asked (hp : principal ≠ "") (ha : action ≠ "") (hs : ¬ LacksSubject E row)
    {amount : Option ℚ} (hamount : row.amount E.parseFloat = .ok amount) :
    judgeRow E l token row principal action =
      (decideInput l token ((row.simulationInput principal action amount).opaInput E.version
        (E.simulatedKnowledge row.counterparty))).map RowResult.decided := by
  have hnamed : ¬ (principal = "" ∨ action = "") := by simp [hp, ha]
  unfold judgeRow
  rw [if_neg hnamed, if_neg hs, hamount, ← batchInput_eq hs]
  show (decideInput l token (batchInput E row principal action amount) >>= _) = _
  cases decideInput l token (batchInput E row principal action amount) <;> rfl

theorem judgeRow_badAmount (hp : principal ≠ "") (ha : action ≠ "") (hs : ¬ LacksSubject E row)
    {e : PyError} (hamount : row.amount E.parseFloat = .error e) :
    judgeRow E l token row principal action = .error e := by
  have hnamed : ¬ (principal = "" ∨ action = "") := by simp [hp, ha]
  unfold judgeRow
  rw [if_neg hnamed, if_neg hs, hamount]
  rfl

/-- **A row is classified as `simulate` would**, for the names that the loop gives it. -/
theorem judgeRow_class (hcompiled : E.compiled = .ok ⟨some bundle, errors⟩)
    (hloaded : E.loaded = some l) :
    classOf (judgeRow E l token row principal action) = classAs E token row principal action := by
  unfold classAs
  by_cases hnamed : principal = "" ∨ action = ""
  · rw [judgeRow, if_pos hnamed, if_pos hnamed]
    rfl
  by_cases hs : LacksSubject E row
  · rw [judgeRow, if_neg hnamed, if_neg hnamed, if_pos hs, if_pos hs]
    rfl
  rw [if_neg hnamed, if_neg hs]
  rw [not_or] at hnamed
  cases hamount : row.amount E.parseFloat with
  | error e =>
    rw [judgeRow_badAmount hnamed.1 hnamed.2 hs hamount]
    rfl
  | ok amount =>
    rw [judgeRow_asked hnamed.1 hnamed.2 hs hamount, ← simulateAbout_decision hcompiled hloaded]
    dsimp only
    cases E.simulateAbout token (row.simulationInput principal action amount) row.counterparty <;> rfl

theorem amount_error {e : PyError} {parseFloat : String → Option ℚ}
    (h : row.amount parseFloat = .error e) : e = .valueError := by
  unfold CsvRow.amount at h
  cases ht : row.text "amount" with
  | none => simp [ht] at h
  | some s =>
    cases hq : parseFloat s with
    | none => simpa [ht, hq] using h.symm
    | some q => simp [ht, hq] at h

/-- The exceptions of a row are those that the loop catches. -/
theorem judgeRow_error (h : judgeRow E l token row principal action = .error err) :
    err = .valueError ∨ err = .dryRun := by
  by_cases hnamed : principal = "" ∨ action = ""
  · rw [judgeRow, if_pos hnamed] at h
    cases h
    exact .inl rfl
  by_cases hs : LacksSubject E row
  · rw [judgeRow, if_neg hnamed, if_pos hs] at h
    cases h
  rw [not_or] at hnamed
  cases hamount : row.amount E.parseFloat with
  | error e =>
    rw [judgeRow_badAmount hnamed.1 hnamed.2 hs hamount] at h
    cases h
    exact .inl (amount_error hamount)
  | ok amount =>
    rw [judgeRow_asked hnamed.1 hnamed.2 hs hamount] at h
    cases hanswer : l.module.answer ((row.simulationInput principal action amount).opaInput E.version
      (E.simulatedKnowledge row.counterparty)) with
    | error e =>
      rw [decideInput_error hanswer] at h
      cases h
      exact .inr rfl
    | ok document =>
      rw [decideInput_ok hanswer] at h
      cases h

/-- Which rows with names are no errors. -/
theorem judgeRow_class_ne_error :
    classOf (judgeRow E l token row principal action) ≠ .error ↔
      (principal ≠ "" ∧ action ≠ "") ∧ (LacksSubject E row ∨
        ∃ amount, row.amount E.parseFloat = .ok amount ∧
          ∃ document, l.module.answer ((row.simulationInput principal action amount).opaInput E.version
            (E.simulatedKnowledge row.counterparty)) = .ok document) := by
  by_cases hnamed : principal = "" ∨ action = ""
  · have hnot : ¬ (principal ≠ "" ∧ action ≠ "") := by tauto
    simp [judgeRow, hnamed, hnot, classOf]
  by_cases hs : LacksSubject E row
  · have hclass : judgeRow E l token row principal action = .ok .cannotSimulate := by
      rw [judgeRow, if_neg hnamed, if_pos hs]
    rw [not_or] at hnamed
    simp [hclass, classOf, hs, hnamed.1, hnamed.2]
  rw [not_or] at hnamed
  cases hamount : row.amount E.parseFloat with
  | error e => simp [judgeRow_badAmount hnamed.1 hnamed.2 hs hamount, classOf, hs]
  | ok amount =>
    rw [judgeRow_asked hnamed.1 hnamed.2 hs hamount]
    cases hanswer : l.module.answer ((row.simulationInput principal action amount).opaInput E.version
      (E.simulatedKnowledge row.counterparty)) with
    | error e => simp [decideInput_error hanswer, Except.map, classOf, hs, hanswer]
    | ok document =>
      have hclass : RowClass.ofOutcome (documentDecision document) ≠ .error := by
        cases documentDecision document <;> simp [RowClass.ofOutcome]
      simp [decideInput_ok hanswer, Except.map, classOf, hclass, hnamed.1, hnamed.2, hanswer]

end

/-! The bundle that OPA should make of the policies. -/

def LoadedBundle.intended (ps : List RuntimePolicy) : LoadedBundle where
  module := intendedModule ps
  lists _ _ h := Engine.answer_evaluated h

/-- Where OPA has that bundle, the simulation is the one with the facts it resolves. -/
theorem simulateAbout_intended {E : Candidate} (h : E.loaded = some (.intended E.policies))
    (token : String) (s : SimulationInput) (c : Option String) :
    E.simulateAbout token s c = simulate E.policies E.bundleId E.version E.now token s
      (E.simulatedKnowledge c) := by
  unfold Candidate.simulateAbout simulate Candidate.compiled
  rw [h]
  cases hcompiled : CompilerV2.compileBundle CompilerV2.genericVocabulary E.policies E.bundleId
    E.version E.now with
  | error e => rfl
  | ok result =>
    obtain ⟨bundle, errors⟩ := result
    cases bundle <;> rfl

/-! ## The loop -/

section

variable {E : Candidate} {l : LoadedBundle} {token : String}

def Tally.count (t : Tally) : RowClass → ℕ
  | .allowed => t.allowed
  | .denied => t.denied
  | .escalated => t.escalated
  | .error => t.errors
  | .cannotSimulate => t.cannotSimulate

/-- The classes of the rows so far, and of the sample. -/
structure Tallied (t : Tally) (classes : List RowClass) : Prop where
  counts : ∀ c, t.count c = classes.count c
  sample : t.sample.map BatchRow.class = classes.take batchSampleLimit

theorem append_sample {t : Tally} {b : BatchRow} {classes : List RowClass}
    (h : t.sample.map BatchRow.class = classes.take batchSampleLimit) :
    (t.append b).sample.map BatchRow.class = (classes ++ [b.class]).take batchSampleLimit := by
  have hlength : t.sample.length = min batchSampleLimit classes.length := by
    rw [← List.length_map (f := BatchRow.class), h, List.length_take]
  unfold Tally.append
  by_cases hlt : t.sample.length < batchSampleLimit
  · have hshort : classes.length < batchSampleLimit := by omega
    rw [if_pos hlt, List.map_append, h, List.take_of_length_le hshort.le,
      List.take_of_length_le (by rw [List.length_append, List.length_singleton]; omega)]
    rfl
  · have hlong : batchSampleLimit ≤ classes.length := by omega
    rw [if_neg hlt, h, List.take_append_of_le_length hlong]

theorem append_count (t : Tally) (b : BatchRow) (c : RowClass) : (t.append b).count c = t.count c := by
  unfold Tally.append
  split <;> cases c <;> rfl

/-- One turn counts the row as what it is. -/
theorem addRow_tallied {t : Tally} {classes : List RowClass} (ht : Tallied t classes)
    (row : CsvRow) (n : ℕ) : ∃ t', addRow E l token t (row, n) = .ok t' ∧
      Tallied t' (classes ++ [classOf (runRow E l token row)]) := by
  have hcount : ∀ {t' : Tally} {b : BatchRow} {k : RowClass}, b.class = k →
      t'.sample = t.sample → (∀ c, t'.count c = t.count c + if k = c then 1 else 0) →
      Tallied (t'.append b) (classes ++ [k]) := by
    intro t' b k hb hsample hcounts
    constructor
    · intro c
      rw [append_count, hcounts, ht.counts, List.count_append, List.count_singleton]
      simp
    · rw [← hb]
      refine append_sample ?_
      rw [hsample]
      exact ht.sample
  unfold addRow
  cases hrow : runRow E l token row with
  | error e =>
    have hcaught := judgeRow_error hrow
    simp only [if_pos hcaught]
    refine ⟨_, rfl, hcount rfl rfl ?_⟩
    intro c
    cases c <;> simp [Tally.count, classOf]
  | ok r =>
    cases r with
    | cannotSimulate =>
      refine ⟨_, rfl, hcount rfl rfl ?_⟩
      intro c
      cases c <;> simp [Tally.count, classOf]
    | decided o =>
      cases o with
      | allow | deny | humanReview =>
        refine ⟨_, rfl, hcount rfl rfl ?_⟩
        intro c
        cases c <;> simp [Tally.count, classOf, RowClass.ofOutcome]

/-- **The loop returns, and has counted every row once.** -/
theorem foldlM_tallied {t : Tally} {classes : List RowClass} (ht : Tallied t classes)
    (rows : List CsvRow) (n : ℕ) : ∃ t', (rows.zipIdx n).foldlM (addRow E l token) t = .ok t' ∧
      Tallied t' (classes ++ rows.map fun row => classOf (runRow E l token row)) := by
  induction rows generalizing t classes n with
  | nil => exact ⟨t, rfl, by simpa using ht⟩
  | cons row rows ih =>
    obtain ⟨t₁, ht₁, htally⟩ := addRow_tallied ht row n
    obtain ⟨t₂, ht₂, htally₂⟩ := ih htally (n + 1)
    refine ⟨t₂, ?_, by simpa using htally₂⟩
    rw [List.zipIdx_cons, List.foldlM_cons, ht₁]
    exact ht₂

end

/-! ## Agreement -/

section

variable {E : Candidate} {l : LoadedBundle} {token : String} {row : CsvRow} {rows : List CsvRow}
  {bundle : PolicyBundle} {errors : List CompilerError}

theorem name_eq_said {k : String} (h : row.get k ≠ some none) : row.name k = row.said k := by
  unfold CsvRow.name CsvRow.said
  cases hk : row.get k with
  | none => decide
  | some c =>
    cases c with
    | none => exact absurd hk h
    | some s => rfl

theorem said_eq_empty {k : String} (h : row.get k = some none) : row.said k = "" := by
  simp [CsvRow.said, h]

/-- **A row is taken for something else exactly if it is misread**, and then it should be an error. -/
theorem class_ne_expected (hcompiled : E.compiled = .ok ⟨some bundle, errors⟩)
    (hloaded : E.loaded = some l) :
    classOf (runRow E l token row) ≠ expected E token row ↔ Misread E l row := by
  by_cases hcut : row.get "principal" = some none ∨ row.get "action" = some none
  · have herror : expected E token row = .error := by
      unfold expected classAs
      rcases hcut with h | h <;> simp [said_eq_empty h]
    rw [herror, runRow, judgeRow_class_ne_error]
    constructor
    · intro h
      exact ⟨hcut, h.1, h.2⟩
    · intro h
      exact ⟨h.named, h.judged⟩
  · have hsame : classOf (runRow E l token row) = expected E token row := by
      have hnot := not_or.1 hcut
      rw [runRow, judgeRow_class hcompiled hloaded, name_eq_said hnot.1, name_eq_said hnot.2]
      rfl
    constructor
    · intro h
      exact absurd hsame h
    · intro h
      exact absurd h.cut hcut

theorem expected_of_misread (h : Misread E l row) : expected E token row = .error := by
  unfold expected classAs
  rcases h.cut with h | h <;> simp [said_eq_empty h]

/-- Rows that are taken for less errors than there are: one count tells whether any is. -/
theorem eq_of_count_error {f g : CsvRow → RowClass} (h : ∀ row, f row ≠ g row → g row = .error) :
    (rows.map f).count .error ≤ (rows.map g).count .error ∧
      ((rows.map f).count .error = (rows.map g).count .error → ∀ row ∈ rows, f row = g row) := by
  induction rows with
  | nil => simp
  | cons row rows ih =>
    simp only [List.map_cons, List.count_cons]
    by_cases hrow : f row = g row
    · rw [hrow]
      refine ⟨by omega, ?_⟩
      intro heq r hr
      by_cases hrr : r = row
      · rw [hrr]
        exact hrow
      · exact ih.2 (by omega) r (by simpa [hrr] using hr)
    · have hg := h row hrow
      have hf : f row ≠ .error := hg ▸ hrow
      have hle := ih.1
      simp only [hg, hf, beq_iff_eq, if_true, if_false]
      exact ⟨by omega, fun heq => by omega⟩

/-- The batch returns, and reports the classes of its rows. -/
theorem runBatch_ok (token : String) (hcompiled : E.compiled = .ok ⟨some bundle, errors⟩)
    (hloaded : E.loaded = some l) (rows : List CsvRow) : ∃ report,
      runBatch E token rows = .ok report ∧ report.total = rows.length ∧
      (∀ c, report.count c = (rows.map fun row => classOf (runRow E l token row)).count c) ∧
      report.sampleRows.map BatchRow.class =
        (rows.map fun row => classOf (runRow E l token row)).take batchSampleLimit := by
  have hstart : Tallied {} [] := by
    constructor
    · intro c
      cases c <;> rfl
    · rfl
  obtain ⟨t, ht, htally⟩ := foldlM_tallied (E := E) (l := l) hstart rows 1
  unfold runBatch
  rw [hcompiled, hloaded]
  refine ⟨_, by show ((rows.zipIdx 1).foldlM (addRow E l token) {} >>= _) = _; rw [ht]; rfl, rfl, ?_,
    htally.sample⟩
  intro c
  have := htally.counts c
  cases c <;> exact this

/-- The five counts are all the rows. -/
theorem sum_counts (classes : List RowClass) :
    classes.count .allowed + classes.count .denied + classes.count .escalated +
      classes.count .error + classes.count .cannotSimulate = classes.length := by
  induction classes with
  | nil => rfl
  | cons c classes ih => cases c <;> simp <;> omega

end

/-- **A batch agrees with simulations of its rows exactly if** no row is misread. -/
theorem runBatch_agrees (E : Candidate) (token : String) (rows : List CsvRow) :
    BatchAgrees E token rows ↔
      ∀ l, E.Compiles → E.loaded = some l → ∀ row ∈ rows, ¬ Misread E l row := by
  constructor
  · intro h l hcompiles hloaded
    obtain ⟨bundle, errors, hcompiled⟩ := hcompiles
    obtain ⟨report, hreport, -, hcounts, -⟩ := runBatch_ok token hcompiled hloaded rows
    have hclass : ∀ row, classOf (runRow E l token row) ≠ expected E token row →
        expected E token row = .error := fun row hne =>
      expected_of_misread ((class_ne_expected hcompiled hloaded).1 hne)
    rcases h with ⟨report', hreport', hfaithful⟩ | ⟨err, herr, -⟩
    · obtain rfl : report = report' := Except.ok.inj (hreport.symm.trans hreport')
      have herrors := (hcounts .error).symm.trans (hfaithful.counts .error)
      intro row hrow hmisread
      exact (class_ne_expected hcompiled hloaded).2 hmisread
        ((eq_of_count_error hclass).2 herrors row hrow)
    · rw [hreport] at herr
      cases herr
  · intro h
    cases hcompiled : E.compiled with
    | error e =>
      refine .inr ⟨e, ?_, ?_⟩
      · simp [runBatch, hcompiled]
        rfl
      · intro s c
        simp [Candidate.simulateAbout, hcompiled]
        rfl
    | ok result =>
      obtain ⟨bundle, errors⟩ := result
      cases bundle with
      | none =>
        refine .inr ⟨.compilationRequired, ?_, ?_⟩
        · rw [runBatch, hcompiled]
          rfl
        · intro s c
          rw [Candidate.simulateAbout, hcompiled]
          rfl
      | some bundle =>
        cases hloaded : E.loaded with
        | none =>
          refine .inr ⟨.dryRun, ?_, ?_⟩
          · rw [runBatch, hcompiled, hloaded]
            rfl
          · intro s c
            rw [Candidate.simulateAbout, hcompiled, hloaded]
            rfl
        | some l =>
          obtain ⟨report, hreport, htotal, hcounts, hsample⟩ :=
            runBatch_ok token hcompiled hloaded rows
          have hall := h l ⟨bundle, errors, hcompiled⟩ hloaded
          have hclasses : (rows.map fun row => classOf (runRow E l token row)) =
              rows.map (expected E token) := by
            refine List.map_congr_left fun row hrow => ?_
            by_contra hne
            exact hall row hrow ((class_ne_expected hcompiled hloaded).1 hne)
          have hsum := sum_counts (rows.map fun row => classOf (runRow E l token row))
          rw [List.length_map] at hsum
          refine .inl ⟨report, hreport, htotal, ?_, ?_, ?_⟩
          · simp only [← hcounts] at hsum
            rw [htotal]
            exact hsum
          · intro c
            rw [hcounts, hclasses]
          · rw [hsample, hclasses]

/-! A line with an action and no principal, under a policy that allows payments. -/

def paymentCandidate : Candidate where
  policies := [paymentPolicy []]
  bundleId := "b"
  version := 1
  now := 0
  db := {}
  organizationId := none
  loaded := some (.intended [paymentPolicy []])
  parseFloat _ := none

def cutRow : CsvRow where
  cells := [("action", some "vendor_payment"), ("principal", none)]

theorem runBatch_cutRow : ¬ BatchAgrees paymentCandidate "t" [cutRow] := by
  have hcompiled : ∃ bundle errors, paymentCandidate.compiled = .ok ⟨some bundle, errors⟩ :=
    ⟨_, _, rfl⟩
  obtain ⟨bundle, errors, hcompiled⟩ := hcompiled
  obtain ⟨report, hreport, -, hcounts, -⟩ :=
    runBatch_ok (l := .intended [paymentPolicy []]) "t" hcompiled rfl [cutRow]
  rintro (⟨report', hreport', hfaithful⟩ | ⟨err, herr, -⟩)
  · obtain rfl : report = report' := Except.ok.inj (hreport.symm.trans hreport')
    have hexpected : expected paymentCandidate "t" cutRow = .error := by
      unfold expected classAs
      exact if_pos (.inl (by decide))
    have hjudged : classOf (runRow paymentCandidate (.intended [paymentPolicy []]) "t" cutRow) ≠
        .error := by
      refine judgeRow_class_ne_error.2 ⟨⟨by decide, by decide⟩, .inr ⟨none, by decide, ?_⟩⟩
      exact Engine.answer_ok_iff.2 (oneReason_allow rfl _)
    have herrors := (hcounts .error).symm.trans (hfaithful.counts .error)
    simp [hexpected, hjudged] at herrors
  · rw [hreport] at herr
    cases herr

end PolicySimulationService

end PayReality
