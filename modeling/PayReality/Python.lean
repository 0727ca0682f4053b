import Mathlib.Data.List.Basic
import Mathlib.Data.String.Basic

/-!
# Python text and exceptions

The few functions of `str` that the services call, on the characters of a string, and the
exceptions they raise. `str.lower` needs the Unicode case tables; it is a parameter wherever
it is used.
-/

namespace PayReality

/-! ## Exceptions -/

/-- The exceptions that the modelled code raises or lets through. -/
inductive PyError where
  | typeError
  | valueError
  | attributeError
  | keyError
  /-- `sqlalchemy.exc.IntegrityError`: a unique index refused a row. -/
  | integrityError
  /-- Any other failure of the database. -/
  | databaseError
  /-- Any failure of a call to OPA outside the decision path (`raise_for_status`, transport). -/
  | httpError
  | runtimePolicyNotFound
  | invalidTransition (fromStatus action : String)
  | compilationRequired
  | bundleChangedSinceCompile
  | unexpectedActiveWriter
  | concurrentDeploymentConflict
  | activationBlocked
  | scheduleNotFound
  | sandboxLimitExceeded
  | agentRevoked
  | agentRetired
  | agentNotOperational
  | organizationNotActive
  | replayDetected
  | factConflict
  | noActivePolicy
  | opaTimeout
  | opaEvaluation (code : String)
  /-- `IntegrationRejectionError`: its text, and the sorted keys that the text ends with. -/
  | integrationRejection (reason : String) (keys : List String)
  | externalOperationConflict
  | missingCanonicalActionField (field : String)
  /-- `decimal.InvalidOperation`. -/
  | invalidOperation
  | adapterReplayDetected
  | decisionNotFound
  | decisionNotAllow
  | decisionNotHumanReview
  | decisionAlreadyResolved
  | crossOrganizationAccess
  | reviewNotResolved
  | reviewNotApproved
  | tenantNotActive
  | originAgentNotActive
  | integrationIdentityNotActive
  | enforcementBindingNotActive
  | capabilityAlreadyIssued
  | capabilityAlreadyConsumedForDecision
  | capabilityExpiredNotRenewed
  | capabilityTokenNotFound
  | capabilityTokenAlreadyConsumed
  | invalidCapabilityToken
  | capabilityTokenExpired
  | capabilityTenantMismatch
  | capabilityAudienceMismatch
  | capabilityConstraintMismatch
  | capabilityBindingMismatch
  | organizationNotFound
  | invalidOrganizationStatus (status action : String)
  | agentNotFound
  | agentInvalidTransition (fromStatus action : String)
  | integrationIdentityInvalidTransition (fromStatus action : String)
  | integrationIdentityNotFound
  | enforcementBindingNotFound
  | integrationNotFound
  | contractVersionNotFound
  | contractInvalidTransition (fromStatus action : String)
  | contractValidation (problem : String)
  | contractVersionHasActiveBinding
  | concurrentVersionConflict
  | bindingInvalidTransition (fromStatus action : String)
  | bindingValidation (problem : String)
  | concurrentActivationConflict
  | principalNotFound
  | noActiveCertificate
  | executionReceiptRejection (reason : String)
  | executionReceiptConflict
  | invalidExecutionReceiptStatus
  | missingRequiredExecutionReceiptField (field : String)
  | reconciliationNotApplicable (reason : String)
  | dryRun
  deriving DecidableEq, Repr

section Returns

variable {α β ε : Type}

theorem bind_ok {x : Except ε α} {f : α → Except ε β} {b : β} :
    (x >>= f) = .ok b ↔ ∃ a, x = .ok a ∧ f a = .ok b := by
  cases x with
  | error e => exact ⟨nofun, nofun⟩
  | ok a => exact ⟨fun h => ⟨a, rfl, h⟩, fun ⟨_, ha, h⟩ => Except.ok.inj ha ▸ h⟩

/-- A loop that returns has returned at every element. -/
theorem mapM_ok {f : α → Except ε β} {xs : List α} {ys : List β}
    (h : xs.mapM f = .ok ys) : List.Forall₂ (fun x y => f x = .ok y) xs ys := by
  induction xs generalizing ys with
  | nil => cases h; exact .nil
  | cons x xs ih =>
    rw [List.mapM_cons, bind_ok] at h
    obtain ⟨y, hy, h⟩ := h
    obtain ⟨ys', hys, h⟩ := bind_ok.1 h
    cases h
    exact .cons hy (ih hys)

theorem mapM_ok_mem {f : α → Except ε β} {xs : List α} {ys : List β}
    (h : xs.mapM f = .ok ys) {x : α} (hx : x ∈ xs) : ∃ y ∈ ys, f x = .ok y := by
  have hf := mapM_ok h
  clear h
  induction hf with
  | nil => cases hx
  | cons hxy _ ih =>
    rcases List.mem_cons.1 hx with rfl | hx
    · exact ⟨_, List.mem_cons_self, hxy⟩
    · obtain ⟨y, hy, h⟩ := ih hx
      exact ⟨y, List.mem_cons_of_mem _ hy, h⟩

end Returns

/-! ## Text -/

namespace Text

/-- The characters that `str.strip` removes. -/
def isSpace (c : Char) : Bool :=
  c.toNat ∈ [0x09, 0x0a, 0x0b, 0x0c, 0x0d, 0x1c, 0x1d, 0x1e, 0x1f, 0x20, 0x85, 0xa0, 0x1680,
    0x2028, 0x2029, 0x202f, 0x205f, 0x3000] || (0x2000 ≤ c.toNat && c.toNat ≤ 0x200a)

/-- `str.strip` on characters. -/
def strip (cs : List Char) : List Char :=
  ((cs.dropWhile isSpace).reverse.dropWhile isSpace).reverse

/-- `not s or not s.strip()`. -/
def blank (s : String) : Bool := (strip s.toList).isEmpty

/-- `s.startswith(p)` together with `s[len(p):]`. -/
def afterPrefix : List Char → List Char → Option (List Char)
  | [], cs => some cs
  | _ :: _, [] => none
  | p :: ps, c :: cs => if p = c then afterPrefix ps cs else none

/-- `s.split(".")` on characters; never empty. -/
def splitDot : List Char → List (List Char)
  | [] => [[]]
  | c :: cs =>
    if c = '.' then [] :: splitDot cs
    else
      match splitDot cs with
      | [] => [[c]]
      | s :: ss => (c :: s) :: ss

/-- `".".join(ss)` on characters. -/
def joinDot : List (List Char) → List Char
  | [] => []
  | [s] => s
  | s :: ss => s ++ '.' :: joinDot ss

theorem splitDot_ne_nil (cs : List Char) : splitDot cs ≠ [] := by
  cases cs with
  | nil => simp [splitDot]
  | cons c cs =>
    simp only [splitDot]
    split
    · simp
    · split <;> simp

theorem joinDot_splitDot (cs : List Char) : joinDot (splitDot cs) = cs := by
  induction cs with
  | nil => rfl
  | cons c cs ih =>
    simp only [splitDot]
    split
    · next hc =>
      subst hc
      cases hs : splitDot cs with
      | nil => exact absurd hs (splitDot_ne_nil cs)
      | cons s ss => rw [hs] at ih; simp [joinDot, ih]
    · cases hs : splitDot cs with
      | nil => exact absurd hs (splitDot_ne_nil cs)
      | cons s ss =>
        rw [hs] at ih
        cases ss with
        | nil => simp only [joinDot] at ih ⊢; rw [ih]
        | cons s' ss => simp only [joinDot, List.cons_append] at ih ⊢; rw [ih]

/-- The dot-separated key path that a field name spells. -/
def keyPath (cs : List Char) : List String := (splitDot cs).map String.ofList

end Text

end PayReality
