import PayReality.Compiler.RegoGenerator

/-!
# Bundles

`compiler_v2/bundle_builder.py`: the text of a module for a list of policies, and its manifest.
The hash of a bundle stands for what is hashed (SHA-256 is taken to be free of collisions), so
two bundles have the same hash exactly when they were written from the same text and the same
manifest, the time of compilation apart.
-/

namespace PayReality

open Rego RegoGenerator

/-! ## Manifests -/

structure ManifestSource where
  type : String
  corpusId : Option String
  graphApprovalId : Option String
  graphVersion : Option Int
  candidateId : Option String
  deriving DecidableEq, Repr

/-- One policy as a bundle's manifest lists it. -/
structure ManifestEntry where
  id : String
  name : String
  version : Int
  effect : Effect
  scope : Scope
  source : Option ManifestSource
  deriving DecidableEq, Repr

structure Manifest where
  bundleId : String
  version : Int
  compilerVersion : String
  compiledAt : Timestamp
  policies : List ManifestEntry
  deriving DecidableEq, Repr

/-- What `_canonical_bytes` writes: the text and the manifest without `compiled_at`. -/
structure BundleHash where
  rego : List (Char ⊕ List Json.Token)
  bundleId : String
  version : Int
  compilerVersion : String
  policies : List ManifestEntry
  deriving DecidableEq

structure PolicyBundle where
  bundleId : String
  version : Int
  runtimePolicyIds : List String
  compilerVersion : String
  bundleHash : BundleHash
  regoSource : Source
  manifest : Manifest

namespace BundleBuilder

def compilerVersion : String := "2.0.0"

def manifestEntry (p : RuntimePolicy) : ManifestEntry where
  id := p.id
  name := p.name
  version := p.version
  effect := p.effect
  scope := p.scope
  source :=
    match p.metadata.sourceType with
    | some t =>
      if t = "" then none
      else some ⟨t, p.metadata.sourceCorpusId, p.metadata.sourceGraphApprovalId,
        p.metadata.sourceGraphVersion, p.metadata.sourceCandidateId⟩
    | none => none

/-! ## The text -/

/-- `f"{outcome_name} if {{ {rn} }}"` for the policies of one effect. -/
def aggregateLinesFor (policies : List RuntimePolicy) (e : Effect) : List Source :=
  (policies.filter fun p => p.effect = e).map fun p =>
    text (effectRuleName e) ++ text " if \x7b " ++ text (ruleNameForPolicy p.id) ++ text " \x7d"

def aggregateLines (policies : List RuntimePolicy) : List Source :=
  aggregateLinesFor policies .allow ++ aggregateLinesFor policies .deny ++
    aggregateLinesFor policies .requireHumanReview

def evaluatedLines (policies : List RuntimePolicy) : List Source :=
  policies.map fun p => text "evaluated_mandates contains " ++ regoLiteral (.str p.id) ++
    text " if \x7b " ++ text (ruleNameForPolicy p.id) ++ text " \x7d"

def reasonLine (p : RuntimePolicy) : Option Source :=
  match p.effect with
  | .requireHumanReview => some (text "review_reason := " ++
      regoLiteral (.str ("policy_matched:" ++ p.id)) ++ text " if \x7b " ++
      text (ruleNameForPolicy p.id) ++ text " \x7d")
  | .deny => some (text "deny_reason := " ++
      regoLiteral (.str ("policy_matched:" ++ p.id)) ++ text " if \x7b " ++
      text (ruleNameForPolicy p.id) ++ text " \x7d")
  | .allow => none

def fallbackLines : List Source :=
  [text "deny if \x7b count(evaluated_mandates) == 0 \x7d",
    text "deny_reason := " ++ regoLiteral (.str "no_policy_covers_scope") ++
      text " if \x7b count(evaluated_mandates) == 0 \x7d"]

/-- The lines of a section, or its comment where it has none. -/
def section_ (sep : String) (lines : List Source) (comment : String) : Source :=
  if lines.isEmpty then text comment else join (text sep) lines

def regoSource (policies : List RuntimePolicy) (policyRules : List Source) : Source :=
  join (text "\n\n")
    [text "package payreality.authorization",
      join (text "\n") [text "default allow := false", text "default deny := false",
        text "default requires_review := false"],
      section_ "\n\n" policyRules "# no RuntimePolicies in this bundle",
      section_ "\n" (aggregateLines policies) "# no effect rules to aggregate",
      section_ "\n" (evaluatedLines policies) "# no policies evaluated",
      section_ "\n" (policies.filterMap reasonLine) "# no deny/review reasons declared",
      join (text "\n") fallbackLines]

def manifestOf (policies : List RuntimePolicy) (bundleId : String) (bundleVersion : Int)
    (now : Timestamp) : Manifest :=
  ⟨bundleId, bundleVersion, compilerVersion, now, policies.map manifestEntry⟩

/-- What `json.dumps` wrote, as text. -/
def written : Sym → Char ⊕ List Json.Token
  | .ch c => .inl c
  | .json v => .inr v.repr

def hashOf (source : Source) (m : Manifest) : BundleHash :=
  ⟨source.map written, m.bundleId, m.version, m.compilerVersion, m.policies⟩

/-- `build_bundle`. -/
def buildBundle (policies : List RuntimePolicy) (bundleId : String) (bundleVersion : Int)
    (now : Timestamp) : Except PyError PolicyBundle := do
  let policyRules ← policies.mapM generatePolicyRule
  let source := regoSource policies policyRules
  let manifest := manifestOf policies bundleId bundleVersion now
  return {
    bundleId
    version := bundleVersion
    runtimePolicyIds := policies.map RuntimePolicy.id
    compilerVersion
    bundleHash := hashOf source manifest
    regoSource := source
    manifest }

end BundleBuilder

end PayReality
