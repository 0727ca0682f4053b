import PayReality.Encoding
import PayReality.Integration.Context

/-!
# Capability tokens

`domain/capability/token.py`, and what `_issue_and_persist` puts into a token. The constraints of a
token are a dict of texts: the amount and the currency of the intent, and then every member of its
context, which may have either name.

**Main result** `issuedPayload_binds`: a token names the amount and the currency of its intent, and
is rejected for any other, exactly when no member of the context overwrites them.
-/

namespace PayReality

open IntentService

/-! ## Texts -/

/-- What a caller holds: the payload, its signature and the key it was signed with. -/
structure Envelope where
  payload : CapabilityTokenPayload
  signature : String
  keyId : String

/-- The platform, with the texts that tokens are made of. -/
structure CapabilityHost extends OperationHost where
  /-- `repr` of a `str`. -/
  reprText : String → String
  /-- `token_hash`. -/
  tokenHash : String → String
  /-- `_encode_token`. -/
  encodeToken : Envelope → String
  /-- `_decode_token`; `none` where the token is malformed. -/
  decodeToken : String → Option Envelope

namespace CapabilityHost

variable (H : CapabilityHost)

mutual

/-- `repr`. -/
def reprOf : Json → String
  | .null => "None"
  | .bool b => if b then "True" else "False"
  | .int i => toString i
  | .float q => H.floatText q
  | .str s => H.reprText s
  | .arr xs => "[" ++ ", ".intercalate (reprsOf xs) ++ "]"
  | .obj kvs => "\x7b" ++ ", ".intercalate (membersOf kvs) ++ "\x7d"

def reprsOf : List Json → List String
  | [] => []
  | x :: xs => reprOf x :: reprsOf xs

def membersOf : List (String × Json) → List String
  | [] => []
  | (k, v) :: kvs => (H.reprText k ++ ": " ++ reprOf v) :: membersOf kvs

end

/-- `str`. -/
def strOf : Json → String
  | .str s => s
  | v => H.reprOf v

end CapabilityHost

/-- `str` of an amount as it is stored, a `Decimal` with two decimals. -/
def amountText (a : ℚ) : String := decimalText (a < 0) (hundredths a).natAbs

namespace CapabilityService

variable (H : CapabilityHost)

/-! ## What is issued -/

/-- The amount and the currency, where there are any. -/
def parameters (intent : Intent) : List (String × Json) :=
  Evidence.optional "amount" (intent.amount.map fun a => .str (amountText a)) ++
    Evidence.optional "currency" (intent.currency.map .str)

/-- One turn of the loop over the context. -/
def addConstraint (d : List (String × Json)) (e : String × Json) : List (String × Json) :=
  if e.1 = "metadata" then d else withMember d e.1 (.str (H.strOf e.2))

/-- `constraints`. -/
def constraintsOf (intent : Intent) : List (String × Json) :=
  intent.context.foldl (addConstraint H) (parameters intent)

/-- `x or y`, for texts. -/
def orText : Option String → String → String
  | none, y | some "", y => y
  | some x, _ => x

/-- The text of a member, where it is one. -/
def textMember (v : Json) (k : String) : String :=
  match v.get? k with
  | some (.str s) => s
  | _ => ""

/-- `payload.get("policy_version")`. -/
def policyVersionOf (v : Json) : Option ℕ :=
  match v.get? "policy_version" with
  | some (.int n) => some n.toNat
  | _ => none

/-- `fact_hashes`. -/
def factHashes (v : Json) : List String :=
  match v.get? "facts_evaluated" with
  | some (.arr facts) => facts.map fun f => H.tokenHash (H.strOf f)
  | _ => []

/-- What `_issue_and_persist` has signed: `evidence` is the payload of the decision's earliest
evidence. -/
def issuedPayload (organizationId : Uuid) (decisionId : Uuid) (intent : IntentRow) (evidence : Json)
    (audience nonce : String) (now ttl : Timestamp) : CapabilityTokenPayload where
  decisionId
  organizationId
  principal := textMember evidence "principal_name"
  action := intent.action
  resource := orText intent.resource (orText intent.correlationId (H.uuidText intent.id))
  constraints := constraintsOf H intent.toIntent
  policyVersion := policyVersionOf evidence
  factHashes := factHashes H evidence
  issuedAt := now
  expiresAt := now + ttl
  nonce
  audience
  integrationIdentityId := intent.provenance.map IntegrationProvenance.integrationIdentityId
  enforcementBindingId := intent.provenance.map IntegrationProvenance.enforcementBindingId
  integrationContractVersionId :=
    intent.provenance.map IntegrationProvenance.integrationContractVersionId
  environment := intent.provenance.map IntegrationProvenance.environment
  externalOperationId := intent.provenance.map IntegrationProvenance.externalOperationId

/-- The envelope that `issue_capability_token` makes. -/
def sealed (payload : CapabilityTokenPayload) : Envelope where
  payload
  signature := H.sign H.settings.signingKey (Evidence.capabilityPayload H.toPrinter payload)
  keyId := H.settings.keyId

/-! ## Verification -/

/-- What a presentation claims; what it leaves out is not checked. -/
structure Presentation where
  audience : String
  action : String
  resource : String
  constraints : List (String × Json)
  environment : Option String := none
  enforcementBindingId : Option Uuid := none
  principal : Option String := none
  organizationId : Option Uuid := none

/-- The parameters that `verify_capability_token` compares, in its order. -/
def checkPayload (p : CapabilityTokenPayload) (e : Presentation) (now : Timestamp) :
    Except PyError Unit :=
  if p.expiresAt < now then .error .capabilityTokenExpired
  else if e.organizationId.any (· ≠ p.organizationId) then .error .capabilityTenantMismatch
  else if p.audience ≠ e.audience then .error .capabilityAudienceMismatch
  else if p.action ≠ e.action then .error .capabilityConstraintMismatch
  else if p.resource ≠ e.resource then .error .capabilityConstraintMismatch
  else if !Json.pyEq (.obj p.constraints) (.obj e.constraints) then
    .error .capabilityConstraintMismatch
  else if e.principal.any (· ≠ p.principal) then .error .capabilityConstraintMismatch
  else if e.environment.any (p.environment ≠ some ·) then .error .capabilityBindingMismatch
  else if e.enforcementBindingId.any (p.enforcementBindingId ≠ some ·) then
    .error .capabilityBindingMismatch
  else .ok ()

/-- `verify_capability_token`. -/
def verifyCapabilityToken (token publicKey : String) (e : Presentation) (now : Timestamp) :
    Except PyError CapabilityTokenPayload :=
  match H.decodeToken token with
  | none => .error .invalidCapabilityToken
  | some v =>
    if !H.verify (Evidence.capabilityPayload H.toPrinter v.payload) v.signature publicKey then
      .error .invalidCapabilityToken
    else do
      checkPayload v.payload e now
      return v.payload

/-! ## What the constraints name -/

/-- A text is equal to nothing but itself. -/
theorem key_str {py : Bool} {v : Json} {s : String} (h : v.key py = (Json.str s).key py) :
    v = .str s := by
  cases v with
  | bool => cases py <;> simp [Json.key, Json.token_mk_inj] at h
  | _ => simp [Json.key, Json.token_mk_inj] at h <;> simp [h]

variable {H}

/-- A member of the context, other than `metadata`, is what the constraints name. -/
theorem get?_foldl_of_mem {context d : List (String × Json)} {k : String} {v : Json}
    (hd : (context.map Prod.fst).Nodup) (hk : k ≠ "metadata") (h : (k, v) ∈ context) :
    (Json.obj (context.foldl (addConstraint H) d)).get? k = some (.str (H.strOf v)) := by
  induction context using List.reverseRecOn with
  | nil => cases h
  | append_singleton context e ih =>
    rw [List.foldl_append, List.foldl_cons, List.foldl_nil]
    rw [List.map_append, List.nodup_append] at hd
    rcases List.mem_append.1 h with h | h
    · have hne : k ≠ e.1 := fun he =>
        hd.2.2 k (List.mem_map_of_mem h) e.1 (by simp) he
      unfold addConstraint
      split
      · exact ih hd.1 h
      · rw [Evidence.get?_withMember_of_ne _ _ hne]
        exact ih hd.1 h
    · obtain rfl := List.mem_singleton.1 h
      rw [addConstraint, if_neg hk, Evidence.get?_withMember_self]

theorem get?_foldl_of_notMem {context d : List (String × Json)} {k : String}
    (h : k ∉ context.map Prod.fst) :
    (Json.obj (context.foldl (addConstraint H) d)).get? k = (Json.obj d).get? k := by
  induction context generalizing d with
  | nil => rfl
  | cons e context ih =>
    rw [List.map_cons, List.mem_cons, not_or] at h
    rw [List.foldl_cons, ih h.2]
    unfold addConstraint
    split
    · rfl
    · exact Evidence.get?_withMember_of_ne _ _ h.1

theorem get?_parameters_amount (intent : Intent) : (Json.obj (parameters intent)).get? "amount" =
    intent.amount.map fun a => .str (amountText a) := by
  unfold parameters
  cases intent.amount <;> cases intent.currency <;> rfl

theorem get?_parameters_currency (intent : Intent) :
    (Json.obj (parameters intent)).get? "currency" = intent.currency.map .str := by
  unfold parameters
  cases intent.amount <;> cases intent.currency <;> rfl

/-- The constraints name the member of the context, else the parameter. -/
theorem get?_constraintsOf {intent : Intent} (hd : (intent.context.map Prod.fst).Nodup) {k : String}
    (hk : k ≠ "metadata") : (Json.obj (constraintsOf H intent)).get? k =
      (((Json.obj intent.context).get? k).map fun v => .str (H.strOf v)).or
        ((Json.obj (parameters intent)).get? k) := by
  unfold constraintsOf
  cases hget : (Json.obj intent.context).get? k with
  | some v => exact get?_foldl_of_mem hd hk (Json.mem_of_get? hget)
  | none => exact get?_foldl_of_notMem (Json.get?_eq_none.1 hget)

/-- No member of the context says anything else in the place of the amount or the currency. -/
structure Undisturbed (H : CapabilityHost) (intent : Intent) : Prop where
  amount : ∀ a v, intent.amount = some a → (Json.obj intent.context).get? "amount" = some v →
    H.strOf v = amountText a
  currency : ∀ c v, intent.currency = some c → (Json.obj intent.context).get? "currency" = some v →
    H.strOf v = c

/-- The presentation names another amount, or another currency, than the intent has, or none. -/
def Presentation.differs (e : Presentation) (intent : Intent) : Prop :=
  (∃ a, intent.amount = some a ∧
    (Json.obj e.constraints).get? "amount" ≠ some (.str (amountText a))) ∨
  ∃ c, intent.currency = some c ∧ (Json.obj e.constraints).get? "currency" ≠ some (.str c)

/-- The payload names the amount and the currency of the intent, and no token with it verifies for
any other. -/
structure Binds (H : CapabilityHost) (intent : Intent) (p : CapabilityTokenPayload) : Prop where
  amount : ∀ a, intent.amount = some a →
    (Json.obj p.constraints).get? "amount" = some (.str (amountText a))
  currency : ∀ c, intent.currency = some c →
    (Json.obj p.constraints).get? "currency" = some (.str c)
  rejects : ∀ token publicKey e now v, H.decodeToken token = some v → v.payload = p →
    e.differs intent → ∀ q, verifyCapabilityToken H token publicKey e now ≠ .ok q

theorem checkPayload_ok {p : CapabilityTokenPayload} {e : Presentation} {now : Timestamp}
    (h : checkPayload p e now = .ok ()) :
    Json.pyEq (.obj p.constraints) (.obj e.constraints) = true := by
  by_contra hne
  rw [Bool.not_eq_true] at hne
  simp only [checkPayload, hne, Bool.not_false, if_true] at h
  split_ifs at h

/-- A token that verifies names what is presented. -/
theorem verifyCapabilityToken_ok {token publicKey : String} {e : Presentation} {now : Timestamp}
    {p : CapabilityTokenPayload} (h : verifyCapabilityToken H token publicKey e now = .ok p)
    (k s : String) (hs : (Json.obj p.constraints).get? k = some (.str s)) :
    (Json.obj e.constraints).get? k = some (.str s) := by
  unfold verifyCapabilityToken at h
  split at h
  · cases h
  · split at h
    · cases h
    · obtain ⟨_, hcheck, hp⟩ := bind_ok.1 h
      cases hp
      have hkeys := Json.key_get? (of_decide_eq_true (checkPayload_ok hcheck)) k
      rw [hs] at hkeys
      obtain ⟨v, hv, hkey⟩ := Option.map_eq_some_iff.1 hkeys.symm
      rw [hv, key_str hkey]

/-- **A token binds the amount and the currency exactly when** no member of the context takes their
place with another text. -/
theorem issuedPayload_binds {organizationId decisionId : Uuid} {intent : IntentRow} {evidence : Json}
    {audience nonce : String} {now ttl : Timestamp} (hd : (intent.context.map Prod.fst).Nodup) :
    Binds H intent.toIntent
        (issuedPayload H organizationId decisionId intent evidence audience nonce now ttl) ↔
      Undisturbed H intent.toIntent := by
  have hamount := get?_constraintsOf (H := H) hd (k := "amount") (by decide)
  have hcurrency := get?_constraintsOf (H := H) hd (k := "currency") (by decide)
  rw [get?_parameters_amount] at hamount
  rw [get?_parameters_currency] at hcurrency
  constructor
  · intro h
    constructor
    · intro a v ha hv
      have := h.amount a ha
      simp only [issuedPayload] at this
      rw [hamount, hv] at this
      simpa using this
    · intro c v hc hv
      have := h.currency c hc
      simp only [issuedPayload] at this
      rw [hcurrency, hv] at this
      simpa using this
  · intro h
    have hbound : ∀ a, intent.amount = some a →
        (Json.obj (constraintsOf H intent.toIntent)).get? "amount" =
          some (.str (amountText a)) := by
      intro a ha
      rw [hamount, ha]
      cases hv : (Json.obj intent.context).get? "amount" with
      | none => rfl
      | some v => simp [h.amount a v ha hv]
    have hbound' : ∀ c, intent.currency = some c →
        (Json.obj (constraintsOf H intent.toIntent)).get? "currency" = some (.str c) := by
      intro c hc
      rw [hcurrency, hc]
      cases hv : (Json.obj intent.context).get? "currency" with
      | none => rfl
      | some v => simp [h.currency c v hc hv]
    refine ⟨hbound, hbound', ?_⟩
    intro token publicKey e now v hdecode hp hdiffers q hq
    have hv : q.constraints = constraintsOf H intent.toIntent := by
      unfold verifyCapabilityToken at hq
      rw [hdecode] at hq
      dsimp only at hq
      split at hq
      · cases hq
      · obtain ⟨-, -, hq⟩ := bind_ok.1 hq
        cases hq
        rw [hp]
        rfl
    rcases hdiffers with ⟨a, ha, hne⟩ | ⟨c, hc, hne⟩
    · exact hne (verifyCapabilityToken_ok hq _ _ (hv ▸ hbound a ha))
    · exact hne (verifyCapabilityToken_ok hq _ _ (hv ▸ hbound' c hc))

/-! A payment with a context that says nothing of the amount, and one with a context that does. -/

def capabilityHost : CapabilityHost where
  toOperationHost := adapterHost
  reprText s := "'" ++ s ++ "'"
  tokenHash s := s
  encodeToken v := v.payload.nonce
  decodeToken _ := none

def paymentIntent (context : List (String × Json)) : IntentRow where
  id := 1
  agentId := 2
  correlationId := none
  action := "vendor_payment"
  amount := some 48000
  currency := some "EUR"
  counterparty := none
  resource := none
  source := .runtime
  context
  nonce := "n"
  requestedAt := 0

/-- A host that reads a token back. -/
def readingHost (payload : CapabilityTokenPayload) : CapabilityHost :=
  { capabilityHost with
    decodeToken := fun token =>
      if token = payload.nonce then some (sealed capabilityHost payload) else none }

/-- What is signed for a payment of 48000 EUR. -/
def paymentPayload : CapabilityTokenPayload :=
  issuedPayload capabilityHost 7 8 (paymentIntent [("risk", .int 1)]) .null "pep" "t" 0 300

def presentedAs (constraints : List (String × Json)) : Presentation where
  audience := "pep"
  action := "vendor_payment"
  resource := paymentPayload.resource
  constraints

/-- The token verifies for the payment, and for no other amount. -/
theorem issuedPayload_binds_payment :
    Binds (readingHost paymentPayload) (paymentIntent [("risk", .int 1)]).toIntent paymentPayload ∧
      (verifyCapabilityToken (readingHost paymentPayload) "t" "key" (presentedAs
        [("amount", .str "48000.00"), ("currency", .str "EUR"), ("risk", .str "1")]) 0).isOk = true ∧
      ∀ q, verifyCapabilityToken (readingHost paymentPayload) "t" "key" (presentedAs
        [("amount", .str "1.00"), ("currency", .str "EUR"), ("risk", .str "1")]) 0 ≠ .ok q := by
  have hbinds : Binds (readingHost paymentPayload) (paymentIntent [("risk", .int 1)]).toIntent
      (issuedPayload (readingHost paymentPayload) 7 8 (paymentIntent [("risk", .int 1)]) .null "pep" "t"
        0 300) :=
    (issuedPayload_binds (by decide)).2 ⟨fun _ _ _ hv => (nomatch hv), fun _ _ _ hv => (nomatch hv)⟩
  refine ⟨hbinds, by decide +kernel, ?_⟩
  refine hbinds.rejects "t" "key" _ 0 _ rfl rfl (.inl ⟨48000, rfl, fun hsame => ?_⟩)
  have hne : "1.00" ≠ amountText 48000 := by decide +kernel
  exact hne (Json.str.inj (Option.some.inj hsame))

/-- The token of a payment of 48000 names an amount of 1. -/
theorem issuedPayload_overwritten :
    ¬ Binds capabilityHost (paymentIntent [("amount", .int 1)]).toIntent
      (issuedPayload capabilityHost 7 8 (paymentIntent [("amount", .int 1)]) .null "pep" "t" 0 300) := by
  intro h
  have hbound := h.amount 48000 rfl
  have htext : textMember (.obj (issuedPayload capabilityHost 7 8 (paymentIntent [("amount", .int 1)])
      .null "pep" "t" 0 300).constraints) "amount" = "1" := by decide +kernel
  rw [textMember, hbound] at htext
  revert htext
  decide +kernel

end CapabilityService

end PayReality
