import PayReality.Lib.Erasing
import PayReality.Simulation.Batch

/-!
# One OPA

Deployments, live decisions, dry runs and batches use one OPA. `dry_run.py` and `batch_evaluator.py` load
a bundle under a package with a random name, `retarget_package` puts that name into its text, and they
delete the bundle when they are done. Any statement may fail, and one that loads or deletes may have been
carried out all the same.

* `OpaStore`, `opaMachine`: what OPA has loaded, and what requests do to it.
* `packageOf`: the package that OPA reads in a text.

**Main result** `live_unaffected`: without its dry runs and batches a run is a run too, in which the
deployments and decisions return what they returned.
-/

namespace PayReality

open Program Rego RegoGenerator

/-! ## Packages -/

def Rego.Sym.isSpace : Sym → Bool
  | .ch c => Text.isSpace c
  | .json _ => false

namespace BundleBuilder

def afterText : List Char → Source → Option Source
  | [], s => some s
  | c :: cs, .ch d :: s => if c = d then afterText cs s else none
  | _ :: _, _ => none

/-- What comes after a match of `package\s+\S+` at the start of a text. A literal counts as a word:
`build_bundle` writes none into the line of the package. -/
def afterPackage (s : Source) : Option Source := do
  match ← afterText "package".toList s with
  | x :: s =>
    if x.isSpace then
      match s.dropWhile Sym.isSpace with
      | [] => none
      | name => some (name.dropWhile fun x => !x.isSpace)
    else none
  | [] => none

/-- `_PACKAGE_LINE_PATTERN.subn(replacement, source, count=1)`, with whether a line starts here; `none`
where nothing matches. -/
def subnPackage (replacement : Source) : Bool → Source → Option Source
  | _, [] => none
  | start, x :: s =>
    match if start then afterPackage (x :: s) else none with
    | some rest => some (replacement ++ rest)
    | none => (subnPackage replacement (isNewline x) s).map (x :: ·)

/-- `package a.b.c`. -/
def packageLine (packagePath : List String) : Source :=
  text "package " ++ chars (Text.joinDot (packagePath.map String.toList))

/-- `retarget_package`; `none` where it raises `PackageRetargetError`. -/
def retargetPackage (regoSource : Source) (packagePath : List String) : Option Source :=
  subnPackage (packageLine packagePath) true regoSource

end BundleBuilder

def Rego.Tok.word? : Tok → Option (List Char)
  | .word w => some w
  | _ => none

/-- The package of a text, by its first line. -/
def packageOf (s : Source) : List (List Char) := (((read s).headD []).filterMap Tok.word?).tail

section

variable {packagePath : List String} {rest : Source}

theorem words_pathToks (path : List String) :
    (pathToks path).filterMap Tok.word? = path.map String.toList := by
  induction path with
  | nil => rfl
  | cons s ss ih =>
    cases ss with
    | nil => rfl
    | cons s' ss => exact congrArg (s.toList :: ·) ih

/-- OPA reads the package that the first line names. -/
theorem packageOf_packageLine (hne : packagePath ≠ []) (hwords : identifiers packagePath) :
    packageOf (BundleBuilder.packageLine packagePath ++ .ch '\n' :: rest) =
      packagePath.map String.toList := by
  have hname : Piece (chars (Text.joinDot (packagePath.map String.toList))) (pathToks packagePath) := by
    have hpiece : Piece (chars (Text.joinDot (packagePath.map String.toList)))
        (pathToks ((packagePath.map String.toList).map String.ofList)) := by
      refine piece_joinDot (by simpa using hne) fun cs hcs => ?_
      obtain ⟨k, hk, rfl⟩ := List.mem_map.1 hcs
      exact hwords k hk
    have hid : packagePath.map (String.ofList ∘ String.toList) = packagePath := by
      simp [Function.comp_def]
    rwa [List.map_map, hid] at hpiece
  have hline : Piece (BundleBuilder.packageLine packagePath) (word "package" :: pathToks packagePath) :=
    Piece.text_append (a := [word "package"]) (fun _ => rfl) (by decide) hname
  unfold packageOf
  rw [read_append, hline.read_eq]
  show (((word "package" :: pathToks packagePath)).filterMap Tok.word?).tail = _
  exact words_pathToks packagePath

/-- The package of a bundle is in its first line. -/
theorem exists_regoSource_eq (policies : List RuntimePolicy) (policyRules : List Source) :
    ∃ rest, BundleBuilder.regoSource policies policyRules =
      BundleBuilder.packageLine ["payreality", "authorization"] ++ .ch '\n' :: rest := ⟨_, rfl⟩

/-- Only the package of a bundle is rewritten. -/
theorem retargetPackage_packageLine :
    BundleBuilder.retargetPackage
        (BundleBuilder.packageLine ["payreality", "authorization"] ++ .ch '\n' :: rest) packagePath =
      some (BundleBuilder.packageLine packagePath ++ .ch '\n' :: rest) := rfl

end

/-! ## The store -/

/-- The platform, and OPA's reply about the document at a path of `data`: `modules` are those of its
modules, by their ids, whose package is that path or below it. -/
structure OpaHost extends Platform where
  reply : (dataPath : List String) → (modules : String → Option Source) → Json → OpaReply

structure OpaStore (ι : Type) where
  policies : String → Option Source
  /-- Who has drawn an id: a record of the run that nobody reads. -/
  drawnBy : Uuid → Option ι

inductive OpaStatement where
  | uuid4
  /-- `PUT /v1/policies/<id>`. -/
  | put (policyId : String) (regoSource : Source)
  /-- `POST /v1/data/<path>`. -/
  | query (dataPath : List String) (input : Json)
  /-- `DELETE /v1/policies/<id>`. -/
  | delete (policyId : String)

abbrev OpaStatement.Answer : OpaStatement → Type
  | .uuid4 => Uuid
  | .query _ _ => OpaReply
  | _ => Unit

abbrev OpaService (α : Type) : Type := Prog OpaStatement OpaStatement.Answer PyError α

namespace OpaStore

variable {ι : Type} (s : OpaStore ι)

def empty : OpaStore ι := ⟨fun _ => none, fun _ => none⟩

/-- The modules at a path or below it. -/
def below (dataPath : List String) : String → Option Source := fun policyId =>
  (s.policies policyId).filter fun src => (dataPath.map String.toList).isPrefixOf (packageOf src)

def load (policyId : String) (source : Option Source) : OpaStore ι :=
  { s with policies := Function.update s.policies policyId source }

def draw [DecidableEq Uuid] (i : ι) (token : Uuid) : OpaStore ι :=
  { s with drawnBy := Function.update s.drawnBy token (some i) }

end OpaStore

/-- A change that was carried out, or one that failed; that may have been carried out too. -/
inductive Changed {σ : Type} (s s' : σ) : Except PyError Unit → σ → Prop where
  | done : Changed s s' (.ok ()) s'
  | lost : Changed s s' (.error .httpError) s'
  | failed : Changed s s' (.error .httpError) s

/-- What requests do. No random id is drawn twice. -/
def opaMachine (H : OpaHost) (ι : Type) :
    Machine OpaStatement OpaStatement.Answer PyError (OpaStore ι) ι where
  step i
    | .uuid4, s, r, t => ∃ token, s.drawnBy token = none ∧ r = .ok token ∧ t = s.draw i token
    | .put policyId regoSource, s, r, t => Changed s (s.load policyId (some regoSource)) r t
    | .query dataPath input, s, r, t => t = s ∧
        (r = .ok .timeout ∨ r = .ok .transportError ∨ r = .ok (H.reply dataPath (s.below dataPath) input))
    | .delete policyId, s, r, t => Changed s (s.load policyId none) r t

/-! ## Requests -/

/-- A bundle that `build_bundle` has written. -/
structure BuiltBundle where
  bundle : PolicyBundle
  built : ∃ policies bundleId bundleVersion now,
    BundleBuilder.buildBundle policies bundleId bundleVersion now = .ok bundle

/-- Who loads a bundle under a random name. -/
inductive Throwaway where
  | dryRun | batch
  deriving DecidableEq, Repr

def Throwaway.name : Throwaway → String
  | .dryRun => "dryrun"
  | .batch => "batch"

namespace Opa

variable (H : OpaHost)

def send (q : OpaStatement) : OpaService q.Answer := Prog.send q

def lift {α : Type} : Except PyError α → OpaService α
  | .ok a => pure a
  | .error e => throw e

/-! ### `opa_client.py` -/

/-- `_opa_package_and_policy_id`. -/
def packagePathOf : Option Uuid → List String
  | none => ["payreality", "authorization"]
  | some o => ["payreality", "authorization", "org_" ++ H.uuidHex o]

def policyIdOf : Option Uuid → String
  | none => "authorization"
  | some o => "authorization-org-" ++ H.uuidHex o

/-- The text that is uploaded for an organization. -/
def sourceFor (organizationId : Option Uuid) (bundle : PolicyBundle) : Option Source :=
  match organizationId with
  | none => some bundle.regoSource
  | some _ => BundleBuilder.retargetPackage bundle.regoSource (packagePathOf H organizationId)

def uploadPolicy (organizationId : Option Uuid) (regoSource : Source) : OpaService Unit :=
  send (.put (policyIdOf H organizationId) regoSource)

def deletePolicy (organizationId : Option Uuid) : OpaService Unit :=
  send (.delete (policyIdOf H organizationId))

def query (organizationId : Option Uuid) (input : Json) : OpaService Json := do
  let reply ← send (.query (packagePathOf H organizationId) input)
  lift (OpaReply.query reply)

/-! ### `dry_run.py` and `batch_evaluator.py` -/

/-- The package of a random name; a segment must not begin with a digit. -/
def packagePath (k : Throwaway) (token : Uuid) : List String :=
  ["payreality", k.name, "t" ++ H.uuidHex token]

def policyId (k : Throwaway) (token : Uuid) : String := k.name ++ "-t" ++ H.uuidHex token

/-- `except httpx.HTTPError as e: raise DryRunError(…) from e`. -/
def raisingDryRun {α : Type} (p : OpaService α) : OpaService α :=
  tryCatch p fun e => throw (if e = .httpError then .dryRun else e)

/-- `try: … finally:` a deletion, whose failure is passed over. -/
def finallyDelete {α : Type} (policyId : String) (p : OpaService α) : OpaService α := do
  let x ← tryCatch (Except.ok <$> p) fun e => pure (Except.error e)
  tryCatch (send (.delete policyId)) fun e => if e = .httpError then pure () else throw e
  lift x

/-- What a dry run makes of the reply. -/
def dryRunResult (reply : OpaReply) : Except PyError DryRunResult := do
  let body ← reply.json
  let result := (← body.dictGet "result").getD (.obj [])
  let allow := (← result.dictGet "allow").getD (.bool false)
  let deny := (← result.dictGet "deny").getD (.bool false)
  let requiresReview := (← result.dictGet "requires_review").getD (.bool false)
  let evaluatedMandates ← ((← result.dictGet "evaluated_mandates").getD (.arr [])).listOf
  let reviewReason := (← result.dictGet "review_reason").getD .null
  let denyReason := (← result.dictGet "deny_reason").getD .null
  return { allow, deny, requiresReview, evaluatedMandates, reviewReason, denyReason }

/-- `dry_run`. -/
def dryRun (bundle : PolicyBundle) (sampleInput : Json) : OpaService DryRunResult := do
  let token ← send .uuid4
  match BundleBuilder.retargetPackage bundle.regoSource (packagePath H .dryRun token) with
  | none => throw .dryRun
  | some rewritten =>
    finallyDelete (policyId H .dryRun token) <| raisingDryRun do
      send (.put (policyId H .dryRun token) rewritten)
      let reply ← send (.query (packagePath H .dryRun token) sampleInput)
      lift (dryRunResult reply)

/-- `loaded_bundle`; a bundle whose loading fails is not deleted. -/
def loadedBundle {α : Type} (bundle : PolicyBundle) (body : List String → OpaService α) :
    OpaService α := do
  let token ← send .uuid4
  match BundleBuilder.retargetPackage bundle.regoSource (packagePath H .batch token) with
  | none => throw .dryRun
  | some rewritten =>
    raisingDryRun (send (.put (policyId H .batch token) rewritten))
    finallyDelete (policyId H .batch token) (body (packagePath H .batch token))

/-- What `query_loaded_bundle` makes of the reply. -/
def batchResult (reply : OpaReply) : Except PyError Json := do
  let body ← reply.json
  return (← body.dictGet "result").getD (.obj [])

/-- A row of `run_batch`, from its input on: errors are counted. -/
def row (dataPath : List String) (inputDoc : Json) : OpaService (Except PyError Json) := do
  let reply ← send (.query dataPath inputDoc)
  match batchResult reply with
  | .ok result => return .ok result
  | .error e => if e = .valueError ∨ e = .dryRun then return .error e else throw e

def rows (dataPath : List String) : List Json → OpaService (List (Except PyError Json))
  | [] => return []
  | inputDoc :: inputs => do
    let x ← row dataPath inputDoc
    let xs ← rows dataPath inputs
    return x :: xs

/-- `run_batch`, from the inputs of its rows on. -/
def runBatch (bundle : PolicyBundle) (inputs : List Json) :
    OpaService (List (Except PyError Json)) :=
  loadedBundle H bundle fun dataPath => rows dataPath inputs

end Opa

/-! ### Who asks -/

/-- The programs of deployments and decisions. -/
inductive OpaLive (H : OpaHost) : OpaService Unit → Prop where
  | uploadPolicy {organizationId : Option Uuid} {b : BuiltBundle} {regoSource : Source}
      (h : Opa.sourceFor H organizationId b.bundle = some regoSource) :
      OpaLive H (Opa.uploadPolicy H organizationId regoSource).run
  | deletePolicy (organizationId : Option Uuid) : OpaLive H (Opa.deletePolicy H organizationId).run
  | query (organizationId : Option Uuid) (input : Json) : OpaLive H (Opa.query H organizationId input).run

/-- A deployment, or a decision. -/
inductive LiveCall (H : OpaHost) where
  | uploadPolicy (organizationId : Option Uuid) (b : BuiltBundle) (regoSource : Source)
      (h : Opa.sourceFor H organizationId b.bundle = some regoSource)
  | deletePolicy (organizationId : Option Uuid)
  | query (organizationId : Option Uuid) (input : Json)

def LiveCall.prog {H : OpaHost} : LiveCall H → OpaService Json
  | .uploadPolicy organizationId _ regoSource _ => do
    Opa.uploadPolicy H organizationId regoSource
    return .null
  | .deletePolicy organizationId => do
    Opa.deletePolicy H organizationId
    return .null
  | .query organizationId input => Opa.query H organizationId input

/-- A call, and what it returned or raised. -/
abbrev LiveReport (H : OpaHost) : Type := LiveCall H × Except PyError Json

def LiveCall.reported {H : OpaHost} (c : LiveCall H) :
    Prog (OpaStatement ⊕ LiveReport H) (ReportAnswer OpaStatement.Answer (LiveReport H)) PyError Unit :=
  c.prog.reported fun r => (c, r)

/-- The programs of dry runs and batches. -/
inductive OpaThrowaway (H : OpaHost) : OpaService Unit → Prop where
  | dryRun (b : BuiltBundle) (sampleInput : Json) : OpaThrowaway H (Opa.dryRun H b.bundle sampleInput).run
  | runBatch (b : BuiltBundle) (inputs : List Json) : OpaThrowaway H (Opa.runBatch H b.bundle inputs).run

/-! ## What is loaded where -/

/-- `uuid4().hex`: letters and digits, which determine the id. -/
structure OpaHost.Hex (H : OpaHost) : Prop where
  words : ∀ id, (H.uuidHex id).toList.all isWordChar = true
  inj : Function.Injective H.uuidHex

namespace Opa

variable {H : OpaHost} {b : BuiltBundle} {regoSource : Source} {path : List String}
  {organizationId : Option Uuid} {k : Throwaway} {token : Uuid}

theorem isIdentifier_hex (hhex : H.Hex) {s : String} (hs : isIdentifier s.toList = true) (id : Uuid) :
    isIdentifier (s ++ H.uuidHex id).toList = true := by
  rw [String.toList_append]
  exact isIdentifier_append hs (hhex.words id)

theorem identifiers_packagePathOf (hhex : H.Hex) (organizationId : Option Uuid) :
    identifiers (packagePathOf H organizationId) := by
  cases organizationId with
  | none => simp [packagePathOf, identifiers, isIdentifier, isLetter, isWordChar]
  | some o =>
    intro s hs
    simp only [packagePathOf, List.mem_cons, List.not_mem_nil, or_false] at hs
    rcases hs with rfl | rfl | rfl
    · decide
    · decide
    · exact isIdentifier_hex hhex (by decide) o

theorem identifiers_packagePath (hhex : H.Hex) (k : Throwaway) (token : Uuid) :
    identifiers (packagePath H k token) := by
  intro s hs
  simp only [packagePath, List.mem_cons, List.not_mem_nil, or_false] at hs
  rcases hs with rfl | rfl | rfl
  · decide
  · cases k <;> decide
  · exact isIdentifier_hex hhex (by decide) token

theorem exists_rest (b : BuiltBundle) : ∃ rest, b.bundle.regoSource =
    BundleBuilder.packageLine ["payreality", "authorization"] ++ .ch '\n' :: rest := by
  obtain ⟨policies, bundleId, bundleVersion, now, hbuilt⟩ := b.built
  obtain ⟨rules, -, hsource, -⟩ := CompilerV2.buildBundle_ok hbuilt
  rw [hsource]
  exact exists_regoSource_eq policies rules

/-- A rewritten bundle is in the package it was rewritten for. -/
theorem packageOf_retargetPackage (hne : path ≠ []) (hwords : identifiers path)
    (h : BundleBuilder.retargetPackage b.bundle.regoSource path = some regoSource) :
    packageOf regoSource = path.map String.toList := by
  obtain ⟨rest, hrest⟩ := exists_rest b
  rw [hrest, retargetPackage_packageLine] at h
  rw [← Option.some.inj h]
  exact packageOf_packageLine hne hwords

theorem packageOf_sourceFor (hhex : H.Hex)
    (h : sourceFor H organizationId b.bundle = some regoSource) :
    packageOf regoSource = (packagePathOf H organizationId).map String.toList := by
  cases organizationId with
  | none =>
    obtain ⟨rest, hrest⟩ := exists_rest b
    rw [← Option.some.inj h, hrest]
    exact packageOf_packageLine (by simp) (identifiers_packagePathOf hhex none)
  | some o =>
    exact packageOf_retargetPackage (by simp [packagePathOf]) (identifiers_packagePathOf hhex (some o)) h

/-! ### Ids -/

/-- The id of a bundle under a random name. -/
def isThrowaway (policyId : String) : Bool :=
  "dryrun-t".toList.isPrefixOf policyId.toList || "batch-t".toList.isPrefixOf policyId.toList

@[simp] theorem isThrowaway_policyId (k : Throwaway) (token : Uuid) :
    isThrowaway (policyId H k token) = true := by
  simp only [isThrowaway, policyId, String.toList_append]
  cases k <;> rfl

@[simp] theorem isThrowaway_policyIdOf (organizationId : Option Uuid) :
    isThrowaway (policyIdOf H organizationId) = false := by
  cases organizationId with
  | none => exact (by decide : isThrowaway "authorization" = false)
  | some o =>
    unfold isThrowaway policyIdOf
    rw [String.toList_append]
    exact Bool.or_eq_false_iff.2 ⟨rfl, rfl⟩

/-- Random names are apart from those of organizations. -/
theorem policyId_ne (k : Throwaway) (token : Uuid) (organizationId : Option Uuid) :
    policyId H k token ≠ policyIdOf H organizationId := by
  intro h
  have hsame := congrArg isThrowaway h
  rw [isThrowaway_policyId, isThrowaway_policyIdOf] at hsame
  cases hsame

/-- The paths of organizations are no part of those of random names. -/
theorem not_below (organizationId : Option Uuid) (k : Throwaway) (token : Uuid) :
    ((packagePathOf H organizationId).map String.toList).isPrefixOf
      ((packagePath H k token).map String.toList) = false := by
  cases organizationId <;> cases k <;> rfl

end Opa

/-! ## What each of them sends -/

/-- A statement about an organization's module. -/
inductive OpaStatement.AboutLive (H : OpaHost) : OpaStatement → Prop where
  | put {organizationId : Option Uuid} {regoSource : Source}
      (h : packageOf regoSource = (Opa.packagePathOf H organizationId).map String.toList) :
      AboutLive H (.put (Opa.policyIdOf H organizationId) regoSource)
  | query (organizationId : Option Uuid) (input : Json) :
      AboutLive H (.query (Opa.packagePathOf H organizationId) input)
  | delete (organizationId : Option Uuid) : AboutLive H (.delete (Opa.policyIdOf H organizationId))

/-- A random name, or a statement about the module of one. -/
inductive OpaStatement.AboutThrowaway (H : OpaHost) : OpaStatement → Prop where
  | uuid4 : AboutThrowaway H .uuid4
  | put {k : Throwaway} {token : Uuid} {regoSource : Source}
      (h : packageOf regoSource = (Opa.packagePath H k token).map String.toList) :
      AboutThrowaway H (.put (Opa.policyId H k token) regoSource)
  | query (k : Throwaway) (token : Uuid) (input : Json) :
      AboutThrowaway H (.query (Opa.packagePath H k token) input)
  | delete (k : Throwaway) (token : Uuid) : AboutThrowaway H (.delete (Opa.policyId H k token))

namespace Opa

section

variable {H : OpaHost} {P : OpaStatement → Prop} {α β : Type} {p : OpaService α}

theorem sendsOnly_bind {f : α → OpaService β} (hp : SendsOnly P p) (hf : ∀ a, SendsOnly P (f a)) :
    SendsOnly P (p >>= f) :=
  sends_bind (sends_mono hp fun a _ => hf a)

theorem sendsOnly_tryCatch {g : PyError → OpaService α} (hp : SendsOnly P p)
    (hg : ∀ e, SendsOnly P (g e)) : SendsOnly P (tryCatch p g) :=
  sends_tryCatch hp hg

theorem sendsOnly_send {q : OpaStatement} (hq : P q) : SendsOnly P (send q) :=
  sends_send hq fun _ _ => trivial

theorem sendsOnly_lift (x : Except PyError α) : SendsOnly P (lift x) := by
  cases x <;> trivial

theorem sendsOnly_map {f : α → β} (hp : SendsOnly P p) : SendsOnly P (f <$> p) :=
  sendsOnly_bind hp fun _ => trivial

theorem sendsOnly_run (hp : SendsOnly P p) : SendsOnly P p.run := sendsOnly_bind hp fun _ => trivial

theorem sendsOnly_raisingDryRun (hp : SendsOnly P p) : SendsOnly P (raisingDryRun p) :=
  sendsOnly_tryCatch hp fun _ => trivial

theorem sendsOnly_finallyDelete {policyId : String} (hdelete : P (.delete policyId))
    (hp : SendsOnly P p) : SendsOnly P (finallyDelete policyId p) := by
  refine sendsOnly_bind (sendsOnly_tryCatch (sendsOnly_map hp) fun _ => trivial) fun x => ?_
  refine sendsOnly_bind (sendsOnly_tryCatch (sendsOnly_send hdelete) fun e => ?_)
    fun _ => sendsOnly_lift x
  split <;> trivial

end

variable {H : OpaHost} (hhex : H.Hex)

include hhex

theorem sendsOnly_dryRun (b : BuiltBundle) (sampleInput : Json) :
    SendsOnly (OpaStatement.AboutThrowaway H) (dryRun H b.bundle sampleInput) := by
  refine sendsOnly_bind (sendsOnly_send .uuid4) fun token => ?_
  cases hrewritten : BundleBuilder.retargetPackage b.bundle.regoSource (packagePath H .dryRun token) with
  | none => trivial
  | some rewritten =>
    have hpackage := packageOf_retargetPackage (by simp [packagePath])
      (identifiers_packagePath hhex .dryRun token) hrewritten
    refine sendsOnly_finallyDelete (.delete .dryRun token) (sendsOnly_raisingDryRun ?_)
    refine sendsOnly_bind (sendsOnly_send (.put hpackage)) fun _ => ?_
    exact sendsOnly_bind (sendsOnly_send (.query .dryRun token sampleInput)) fun _ => sendsOnly_lift _

omit hhex in
theorem sendsOnly_rows (token : Uuid) (inputs : List Json) :
    SendsOnly (OpaStatement.AboutThrowaway H) (rows (packagePath H .batch token) inputs) := by
  induction inputs with
  | nil => trivial
  | cons inputDoc inputs ih =>
    refine sendsOnly_bind ?_ fun _ => sendsOnly_bind ih fun _ => trivial
    refine sendsOnly_bind (sendsOnly_send (.query .batch token inputDoc)) fun reply => ?_
    cases batchResult reply with
    | ok result => trivial
    | error e =>
      show SendsOnly _ (if e = .valueError ∨ e = .dryRun then _ else _)
      split <;> trivial

theorem sendsOnly_runBatch (b : BuiltBundle) (inputs : List Json) :
    SendsOnly (OpaStatement.AboutThrowaway H) (runBatch H b.bundle inputs) := by
  refine sendsOnly_bind (sendsOnly_send .uuid4) fun token => ?_
  cases hrewritten : BundleBuilder.retargetPackage b.bundle.regoSource (packagePath H .batch token) with
  | none => trivial
  | some rewritten =>
    have hpackage := packageOf_retargetPackage (by simp [packagePath])
      (identifiers_packagePath hhex .batch token) hrewritten
    refine sendsOnly_bind (sendsOnly_raisingDryRun (sendsOnly_send (.put hpackage))) fun _ => ?_
    exact sendsOnly_finallyDelete (.delete .batch token) (sendsOnly_rows token inputs)

theorem sendsOnly_throwaway {p : OpaService Unit} (hp : OpaThrowaway H p) :
    SendsOnly (OpaStatement.AboutThrowaway H) p := by
  cases hp with
  | dryRun b sampleInput => exact sendsOnly_run (sendsOnly_dryRun hhex b sampleInput)
  | runBatch b inputs => exact sendsOnly_run (sendsOnly_runBatch hhex b inputs)

theorem sendsOnly_live {p : OpaService Unit} (hp : OpaLive H p) :
    SendsOnly (OpaStatement.AboutLive H) p := by
  cases hp with
  | uploadPolicy h => exact sendsOnly_run (sendsOnly_send (.put (packageOf_sourceFor hhex h)))
  | deletePolicy organizationId => exact sendsOnly_run (sendsOnly_send (.delete organizationId))
  | query organizationId input =>
    refine sendsOnly_run (sendsOnly_bind (sendsOnly_send (.query organizationId input)) fun _ => ?_)
    exact sendsOnly_lift _

theorem sendsOnly_call (c : LiveCall H) : SendsOnly (OpaStatement.AboutLive H) c.prog := by
  cases c with
  | uploadPolicy organizationId b regoSource h =>
    exact sendsOnly_bind (sendsOnly_send (.put (packageOf_sourceFor hhex h))) fun _ => trivial
  | deletePolicy organizationId =>
    exact sendsOnly_bind (sendsOnly_send (.delete organizationId)) fun _ => trivial
  | query organizationId input =>
    exact sendsOnly_bind (sendsOnly_send (.query organizationId input)) fun _ => sendsOnly_lift _

omit hhex in
theorem not_aboutLive {q : OpaStatement} (h : OpaStatement.AboutThrowaway H q) :
    ¬ OpaStatement.AboutLive H q := by
  intro hlive
  cases hlive with
  | put | delete =>
    generalize hid : policyIdOf H _ = id at h
    cases h
    exact absurd hid.symm (policyId_ne _ _ _)
  | query organizationId input =>
    generalize hpath : packagePathOf H organizationId = path at h
    cases h with
    | query k token input =>
      have hbelow := not_below (H := H) organizationId k token
      rw [hpath, List.isPrefixOf_iff_prefix.2 List.prefix_rfl] at hbelow
      cases hbelow

end Opa

/-! ## The live view -/

namespace OpaStore

variable {ι : Type} {H : OpaHost} {s t s' : OpaStore ι} {r : Except PyError Unit}

/-- Every module is in the package that its id is for. -/
def Sorted (H : OpaHost) (s : OpaStore ι) : Prop := ∀ id regoSource, s.policies id = some regoSource →
  (∃ o, id = Opa.policyIdOf H o ∧ packageOf regoSource = (Opa.packagePathOf H o).map String.toList) ∨
    ∃ k token, id = Opa.policyId H k token ∧
      packageOf regoSource = (Opa.packagePath H k token).map String.toList

/-- The store without the modules of random names. -/
def live (s : OpaStore ι) : OpaStore ι where
  policies id := if Opa.isThrowaway id then none else s.policies id
  drawnBy _ := none

variable {id id' : String} {source : Option Source}

@[simp] theorem load_self : (s.load id source).policies id = source := Function.update_self ..

theorem load_of_ne (h : id' ≠ id) : (s.load id source).policies id' = s.policies id' :=
  Function.update_of_ne h ..

theorem live_policies :
    s.live.policies id = if Opa.isThrowaway id then none else s.policies id := rfl

theorem live_load_throwaway (h : Opa.isThrowaway id = true) : (s.load id source).live = s.live := by
  refine congrArg₂ OpaStore.mk (funext fun id' => ?_) rfl
  by_cases hid : id' = id
  · subst hid
    rw [if_pos h, if_pos h]
  · rw [load_of_ne hid]

theorem live_load (h : Opa.isThrowaway id = false) :
    (s.load id source).live = s.live.load id source := by
  refine congrArg₂ OpaStore.mk (funext fun id' => ?_) rfl
  by_cases hid : id' = id
  · subst hid
    simp [h]
  · rw [load_of_ne hid, Function.update_of_ne hid, live_policies]

/-- What is at a path of an organization is not under a random name. -/
theorem Sorted.below_live (h : s.Sorted H) (organizationId : Option Uuid) :
    s.live.below (Opa.packagePathOf H organizationId) = s.below (Opa.packagePathOf H organizationId) := by
  funext id
  unfold below
  rw [live_policies]
  by_cases hid : Opa.isThrowaway id = true
  · rw [if_pos hid]
    cases hsource : s.policies id with
    | none => rfl
    | some regoSource =>
      rcases h id regoSource hsource with ⟨o, rfl, -⟩ | ⟨k, token, rfl, hpackage⟩
      · rw [Opa.isThrowaway_policyIdOf] at hid
        cases hid
      · rw [Option.filter_some, hpackage, Opa.not_below]
        rfl
  · rw [if_neg hid]

theorem Sorted.load (h : s.Sorted H)
    (hnew : ∀ regoSource, source = some regoSource →
      (∃ o, id = Opa.policyIdOf H o ∧ packageOf regoSource = (Opa.packagePathOf H o).map String.toList) ∨
        ∃ k token, id = Opa.policyId H k token ∧
          packageOf regoSource = (Opa.packagePath H k token).map String.toList) :
    (s.load id source).Sorted H := by
  intro id' regoSource hsource
  by_cases hid : id' = id
  · subst hid
    exact hnew regoSource (load_self.symm.trans hsource)
  · exact h id' regoSource ((load_of_ne hid).symm.trans hsource)

theorem Sorted.changed (h : s.Sorted H) (h' : s'.Sorted H) (hchanged : Changed s s' r t) :
    t.Sorted H := by
  cases hchanged with
  | done | lost => exact h'
  | failed => exact h

end OpaStore

/-- A view of a change is the change of the view. -/
theorem Changed.map {σ τ : Type} {s s' t : σ} {r : Except PyError Unit} (f : σ → τ)
    (h : Changed s s' r t) : Changed (f s) (f s') r (f t) := by
  cases h with
  | done => exact .done
  | lost => exact .lost
  | failed => exact .failed

theorem Changed.eq_of_eq {σ τ : Type} {s s' t : σ} {r : Except PyError Unit} {f : σ → τ}
    (hsame : f s' = f s) (h : Changed s s' r t) : f t = f s := by
  cases h with
  | done | lost => exact hsame
  | failed => rfl

/-- The live modules change with live requests, and with nothing else. -/
theorem opa_erases (H : OpaHost) (ι : Type) : Erases (opaMachine H ι) (opaMachine H ι)
    (OpaStore.Sorted H) OpaStore.live (OpaStatement.AboutLive H) (OpaStatement.AboutThrowaway H) where
  keeps := by
    rintro i q s r t hs (hq | hq) hstep
    · cases hq with
      | put h =>
        exact hs.changed (hs.load fun _ heq => .inl ⟨_, rfl, Option.some.inj heq ▸ h⟩) hstep
      | query => exact hstep.1 ▸ hs
      | delete => exact hs.changed (hs.load fun _ heq => by cases heq) hstep
    · cases hq with
      | uuid4 =>
        obtain ⟨token, -, -, rfl⟩ := hstep
        exact hs
      | put h =>
        exact hs.changed (hs.load fun _ heq => .inr ⟨_, _, rfl, Option.some.inj heq ▸ h⟩) hstep
      | query => exact hstep.1 ▸ hs
      | delete => exact hs.changed (hs.load fun _ heq => by cases heq) hstep
  acts := by
    intro i q s r t hs hq hstep
    cases hq with
    | put h =>
      have hmap := Changed.map OpaStore.live hstep
      rwa [OpaStore.live_load (Opa.isThrowaway_policyIdOf _)] at hmap
    | query organizationId input =>
      obtain ⟨rfl, hr⟩ := hstep
      refine ⟨rfl, ?_⟩
      rwa [hs.below_live]
    | delete organizationId =>
      have hmap := Changed.map OpaStore.live hstep
      rwa [OpaStore.live_load (Opa.isThrowaway_policyIdOf _)] at hmap
  silent := by
    intro i q s r t hs hq hstep
    cases hq with
    | uuid4 =>
      obtain ⟨token, -, -, rfl⟩ := hstep
      rfl
    | put h =>
      exact Changed.eq_of_eq (OpaStore.live_load_throwaway (Opa.isThrowaway_policyId _ _)) hstep
    | query => rw [hstep.1]
    | delete k token =>
      exact Changed.eq_of_eq (OpaStore.live_load_throwaway (Opa.isThrowaway_policyId _ _)) hstep

/-- Runs of deployments, live decisions, dry runs and batches. -/
abbrev OpaRun {ι : Type} [DecidableEq ι] (H : OpaHost)
    (w : World OpaStatement OpaStatement.Answer PyError (OpaStore ι) ι) : Prop :=
  Reach (opaMachine H ι) ({p | OpaLive H p} ∪ {p | OpaThrowaway H p}) (· = OpaStore.empty) w

abbrev LiveWorld (H : OpaHost) (ι : Type) : Type :=
  World (OpaStatement ⊕ LiveReport H) (ReportAnswer OpaStatement.Answer (LiveReport H)) PyError
    (Reported OpaStatement OpaStatement.Answer PyError (OpaStore ι) ι (LiveReport H)) ι

/-- Runs in which deployments and decisions report what they return. -/
abbrev LiveRun {ι : Type} [DecidableEq ι] (H : OpaHost) (starts : Set (Prog (OpaStatement ⊕ LiveReport H)
    (ReportAnswer OpaStatement.Answer (LiveReport H)) PyError Unit)) (w : LiveWorld H ι) : Prop :=
  Reach ((opaMachine H ι).reporting (LiveReport H)) starts (· = Reported.init OpaStore.empty) w

/-- What has been returned so far, in order. -/
def LiveWorld.results {H : OpaHost} {ι : Type} (w : LiveWorld H ι) : List (LiveReport H) :=
  w.store.reports.map Prod.fst

/-- **Dry runs and batches change nothing live.** Without them, the same deployments and decisions are a
run too: each of them returns what it returned, and the modules at the path of every organization are
the same. -/
theorem live_unaffected {ι : Type} [DecidableEq ι] {H : OpaHost} (hhex : H.Hex) {w : LiveWorld H ι}
    (h : LiveRun H (Set.range LiveCall.reported ∪ Prog.quiet '' {p | OpaThrowaway H p}) w) :
    ∃ v : LiveWorld H ι, LiveRun H (Set.range LiveCall.reported) v ∧ v.results = w.results ∧
      (∀ o, v.store.store.below (Opa.packagePathOf H o) = w.store.store.below (Opa.packagePathOf H o)) ∧
      ∀ i, v.running i = w.running i ∨ v.running i = none ∧
        ∀ p, w.running i = some p → SendsOnly (noReport (OpaStatement.AboutThrowaway H)) p := by
  classical
  have hshown : ∀ q, OpaStatement.AboutLive H q → decide (OpaStatement.AboutLive H q) = true :=
    fun q hq => decide_eq_true hq
  have hhidden : ∀ q, OpaStatement.AboutThrowaway H q → decide (OpaStatement.AboutLive H q) = false :=
    fun q hq => decide_eq_false (Opa.not_aboutLive hq)
  obtain ⟨hsorted, v, hv, hworld⟩ := Reach.erase ((opa_erases H ι).reporting hshown hhidden)
    (by
      rintro _ ⟨c, rfl⟩
      exact sendsOnly_reported (Opa.sendsOnly_call hhex c))
    (by
      rintro _ ⟨p, hp, rfl⟩
      exact sendsOnly_quiet (Opa.sendsOnly_throwaway hhex hp))
    (by
      rintro s rfl id regoSource hsource
      cases hsource) h
  refine ⟨v, ?_, ?_, fun o => ?_, fun i => ?_⟩
  · have hempty : (OpaStore.empty : OpaStore ι).live = OpaStore.empty := by
      unfold OpaStore.live OpaStore.empty
      simp
    have hinit : (fun t : Reported OpaStatement OpaStatement.Answer PyError (OpaStore ι) ι (LiveReport H) =>
        ∃ s, s = Reported.init OpaStore.empty ∧ t = s.view OpaStore.live fun q =>
          decide (OpaStatement.AboutLive H q)) = (· = Reported.init OpaStore.empty) := by
      funext t
      have hview : (Reported.init OpaStore.empty : Reported OpaStatement OpaStatement.Answer PyError
          (OpaStore ι) ι (LiveReport H)).view OpaStore.live (fun q =>
            decide (OpaStatement.AboutLive H q)) = Reported.init OpaStore.empty := by
        unfold Reported.view Reported.init
        simp [hempty]
      simp [hview]
    rwa [hinit] at hv
  · unfold LiveWorld.results
    rw [hworld.store, Reported.view, List.map_map]
    rfl
  · rw [hworld.store]
    exact hsorted.below_live o
  · exact (hworld.running i).imp (fun h => h.1) id

/-! ### A dry run during a deployment -/

/-- The bundle of a policy without conditions. -/
def capBuilt : BuiltBundle where
  bundle := ((BundleBuilder.buildBundle [paymentPolicy []] "b" 1 0).toOption).getD
    ⟨"", 0, [], "", ⟨[], "", 0, "", []⟩, [], ⟨"", 0, "", 0, []⟩⟩
  built := ⟨[paymentPolicy []], "b", 1, 0, rfl⟩

/-- Names are written in one letter, and every bundle is the one above. -/
def letterOpa : OpaHost where
  uuid _ := none
  uuidText := Nat.repr
  uuidHex id := String.ofList (List.replicate id 'a')
  isoformat _ := ""
  lower s := s
  ilike _ _ := false
  reply dataPath modules input :=
    let policyId :=
      match dataPath with
      | [_, name, segment] => name ++ "-" ++ segment
      | _ => "authorization"
    if (modules policyId).isSome then (intendedModule [paymentPolicy []]).reply input
    else .response 200 (some (.obj []))

theorem letterOpa_hex : letterOpa.Hex where
  words id := by
    refine List.all_eq_true.2 fun c hc => ?_
    rw [letterOpa, String.toList_ofList] at hc
    rw [List.eq_of_mem_replicate hc]
    decide
  inj := by
    intro m n h
    have hlength := congrArg (fun s => s.toList.length) h
    simpa [letterOpa] using hlength

/-- The first name that is not drawn; what loads an id of `loses` is carried out, and fails. -/
def opaSchedule (H : OpaHost) (loses : String → Bool) : Schedule (opaMachine H Bool) where
  answer i q s :=
    match q with
    | .uuid4 =>
      ((List.range 4).find? fun token => (s.drawnBy token).isNone).map fun token =>
        (.ok token, s.draw i token)
    | .put id regoSource =>
      some (if loses id then .error .httpError else .ok (), s.load id (some regoSource))
    | .query path input => some (.ok (H.reply path (s.below path) input), s)
    | .delete id => some (.ok (), s.load id none)
  sound i q s r t h := by
    cases q with
    | uuid4 =>
      obtain ⟨token, hfind, heq⟩ := Option.map_eq_some_iff.1 h
      cases heq
      have hnone : (s.drawnBy token).isNone = true :=
        List.find?_some (p := fun token => (s.drawnBy token).isNone) hfind
      exact ⟨token, Option.isNone_iff_eq_none.1 hnone, rfl, rfl⟩
    | put id regoSource =>
      cases h
      split
      · exact .lost
      · exact .done
    | query path input =>
      cases h
      exact ⟨rfl, .inr (.inr rfl)⟩
    | delete id =>
      cases h
      exact .done

/-- One process has loaded the bundle for a dry run; another one deploys it, and asks for a decision. -/
def dryRunTurns : List (Turn (OpaStatement ⊕ LiveReport letterOpa)
    (ReportAnswer OpaStatement.Answer (LiveReport letterOpa)) PyError Bool) :=
  [⟨true, some (Opa.dryRun letterOpa capBuilt.bundle .null).run.quiet, 2⟩,
    ⟨false, some (LiveCall.uploadPolicy none capBuilt capBuilt.bundle.regoSource rfl).reported, 3⟩,
    ⟨false, some (LiveCall.query none .null).reported, 3⟩]

def dryRunWorld : LiveWorld letterOpa Bool :=
  ((opaSchedule letterOpa fun _ => false).reporting _).play dryRunTurns
    ⟨Reported.init OpaStore.empty, fun _ => none⟩

theorem dryRunWorld_run : LiveRun letterOpa
    (Set.range LiveCall.reported ∪ Prog.quiet '' {p | OpaThrowaway letterOpa p}) dryRunWorld := by
  refine Schedule.play_reach (.init rfl) fun t ht p hp => ?_
  simp only [dryRunTurns, List.mem_cons, List.not_mem_nil, or_false] at ht
  rcases ht with rfl | rfl | rfl
  · obtain rfl := Option.some.inj hp
    exact .inr ⟨_, .dryRun capBuilt .null, rfl⟩
  · obtain rfl := Option.some.inj hp
    exact .inl ⟨_, rfl⟩
  · obtain rfl := Option.some.inj hp
    exact .inl ⟨_, rfl⟩

/-- Both bundles are loaded, and the run without the dry run has the deployed one and the answer too. -/
theorem live_unaffected_dryRun :
    (dryRunWorld.store.store.policies "dryrun-t").isSome = true ∧ dryRunWorld.results.length = 2 ∧
    ∃ v : LiveWorld letterOpa Bool, LiveRun letterOpa (Set.range LiveCall.reported) v ∧
      v.results = dryRunWorld.results ∧ ∀ o, v.store.store.below (Opa.packagePathOf letterOpa o) =
        dryRunWorld.store.store.below (Opa.packagePathOf letterOpa o) := by
  obtain ⟨v, hv, hresults, hbelow, -⟩ := live_unaffected letterOpa_hex dryRunWorld_run
  exact ⟨by decide +kernel, by decide +kernel, v, hv, hresults, hbelow⟩

end PayReality
