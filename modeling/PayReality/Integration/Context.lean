import PayReality.Dict
import PayReality.Evidence.Chain
import PayReality.Integration.Submission

/-!
# What an attested request is evaluated with

The input of OPA is made of the request and of what is looked up beside it (`Views`). An attested
request is evaluated only if its context keys are the ones that the contract binds; the environment,
the timestamp and the authority block are the server's.

**Main result** `submitAttestedIntent_context`: what OPA is asked, in whatever the others do between
the statements of a request.
-/

namespace PayReality

open Program LedgerService IntentService IntegrationRuntimeService

/-! ## Members of an input -/

/-- What is looked up for an evaluation: the databases that were read, and when. -/
structure Views where
  truth : Db
  truthAt : Timestamp
  keys : Db
  facts : Db
  factsAt : Timestamp
  policyVersion : ℕ

namespace Views

variable (H : OperationHost) (w : Views)

def truthFor (agent : Agent) (amount : Option ℚ) : RuntimeTruth :=
  truthIn H w.truth w.truthAt agent amount

def factsFor (organizationId : Option Uuid) (subject : Option String) : List EnterpriseFact :=
  match w.keys.listEnterpriseKnowledgeKeys organizationId, organizationId with
  | [], _ | _, none => []
  | keys, some o => factsIn w.facts w.factsAt o subject keys

/-- The input for an intent of an agent. -/
def input (intent : Intent) (agent : Agent) : Json :=
  let truth := w.truthFor H agent intent.amount
  evaluationInput H intent agent truth
    (w.factsFor (truth.principal.bind Principal.organizationId) intent.counterparty) w.policyVersion

/-- The input for a request, under a binding and for an agent. -/
def attestedInput (binding : EnforcementBinding) (agent : Agent) (req : AttestedRequest) : Json :=
  let truth := w.truthFor H agent req.amount
  Engine.buildOpaInput
    (.obj [("action", .str req.action), ("amount", .ofFloat req.amount),
      ("currency", .ofText req.currency), ("resource", .ofText req.resource)])
    (.obj (withMember (withMember (finalContext binding req) "timestamp"
      (.str (H.isoformat req.requestedAt))) "authority" truth.authorityContext))
    truth.principalName w.policyVersion (some (H.uuidText agent.id))
    ((w.factsFor (truth.principal.bind Principal.organizationId) req.counterparty).map
      fun f => (f.key, f.value))

theorem input_attestedIntent (id : Uuid) (req : AttestedRequest) (a : Attested)
    (h : a.finalContext = finalContext a.binding req) :
    w.input H (attestedIntent id req a) a.agent = w.attestedInput H a.binding a.agent req := by
  simp only [input, attestedInput, evaluationInput, evaluationContext, attestedIntent, h,
    intentSection]

end Views

/-! ## What the contract lets through -/

/-- The context keys are the bound ones, none of them is reserved. -/
structure ContextKeys (bound supplied : List String) : Prop where
  exactly : ∀ k, k ∈ supplied ↔ k ∈ bound
  reserved : "environment" ∉ supplied

theorem difference_eq_nil {xs ys : List String} : difference xs ys = [] ↔ ∀ k ∈ xs, k ∈ ys := by
  have : difference xs ys = [] ↔ (xs.filter (· ∉ ys)) = [] := by
    unfold difference
    rw [← List.length_eq_zero_iff, List.length_insertionSort, List.length_eq_zero_iff]
  rw [this]
  simp

theorem checkContextKeys_ok {bound supplied : List String}
    (h : checkContextKeys bound supplied = .ok ()) : ContextKeys bound supplied := by
  unfold checkContextKeys at h
  dsimp only at h
  split at h
  · cases h
  · next hreserved =>
    split at h
    · cases h
    · next hunexpected =>
      split at h
      · cases h
      · next hmissing =>
        rw [not_not] at hreserved hunexpected hmissing
        refine ⟨fun k => ⟨difference_eq_nil.1 hunexpected k, difference_eq_nil.1 hmissing k⟩, ?_⟩
        intro hk
        simp [reservedContextKeys, hk] at hreserved

theorem checkStructuralField_ok {α : Type} {fieldName : String} {path : Option String}
    {value : Option α} (h : checkStructuralField fieldName path value = .ok ()) :
    value.isSome = path.isSome := by
  unfold checkStructuralField at h
  split at h <;> first | rfl | cases h

/-- A request that the contract version lets through. -/
structure Conforms (c : IntegrationContractVersion) (req : AttestedRequest) : Prop where
  sourceOperation : req.sourceOperation = c.sourceOperation
  action : req.action = c.canonicalAction
  resource : req.resource.isSome = c.resourcePath.isSome
  amount : req.amount.isSome = c.amountPath.isSome
  currency : req.currency.isSome = c.currencyPath.isSome
  counterparty : req.counterparty.isSome = c.factSubjectPath.isSome
  context : ContextKeys (c.contextBindings.map Prod.fst) (req.context.map Prod.fst)

theorem checkContract_ok {c : IntegrationContractVersion} {req : AttestedRequest}
    (h : checkContract c req = .ok ()) : Conforms c req := by
  unfold checkContract at h
  dsimp only at h
  split at h
  · cases h
  · next hsource =>
    split at h
    · cases h
    · next haction =>
      obtain ⟨_, hresource, h⟩ := bind_ok.1 h
      obtain ⟨_, hamount, h⟩ := bind_ok.1 h
      obtain ⟨_, hcurrency, h⟩ := bind_ok.1 h
      obtain ⟨_, hcounterparty, h⟩ := bind_ok.1 h
      exact ⟨not_not.1 hsource, not_not.1 haction, checkStructuralField_ok hresource,
        checkStructuralField_ok hamount, checkStructuralField_ok hcurrency,
        checkStructuralField_ok hcounterparty, checkContextKeys_ok h⟩

/-! ## Non-interference -/

/-- Two requests agree on what the contract version reads. -/
structure Agree (c : IntegrationContractVersion) (req req' : AttestedRequest) : Prop where
  resource : c.resourcePath.isSome → req.resource = req'.resource
  amount : c.amountPath.isSome → req.amount = req'.amount
  currency : c.currencyPath.isSome → req.currency = req'.currency
  counterparty : c.factSubjectPath.isSome → req.counterparty = req'.counterparty
  context : ∀ k ∈ c.contextBindings.map Prod.fst,
    (Json.obj req.context).get? k = (Json.obj req'.context).get? k
  requestedAt : req.requestedAt = req'.requestedAt

/-- A field that is declared and agreed on, or not declared and left out. -/
theorem eq_of_isSome {α : Type} {x y : Option α} {path : Option String}
    (hx : x.isSome = path.isSome) (hy : y.isSome = path.isSome) (h : path.isSome → x = y) :
    x = y := by
  cases path with
  | some p => exact h rfl
  | none => rw [Option.isSome_eq_false_iff.1 hx |> Option.isNone_iff_eq_none.1,
      Option.isSome_eq_false_iff.1 hy |> Option.isNone_iff_eq_none.1]

section

variable {d d' : List (String × Json)} {k : String} {v : Json}

/-- Setting a member keeps the agreement of two dicts. -/
theorem get?_withMember_congr (h : ∀ k, (Json.obj d).get? k = (Json.obj d').get? k) (k' : String) :
    (Json.obj (withMember d k v)).get? k' = (Json.obj (withMember d' k v)).get? k' := by
  by_cases hk : k' = k
  · rw [hk, Evidence.get?_withMember_self, Evidence.get?_withMember_self]
  · rw [Evidence.get?_withMember_of_ne _ _ hk, Evidence.get?_withMember_of_ne _ _ hk, h]

end

variable {H : OperationHost} {w : Views} {binding : EnforcementBinding} {agent : Agent}
  {c : IntegrationContractVersion} {req req' : AttestedRequest}

/-- **Requests that agree have one input**, up to the order of the members of the context. -/
theorem attestedInput_agree (hc : Conforms c req) (hc' : Conforms c req') (h : Agree c req req') :
    (w.attestedInput H binding agent req').stableRepr =
      (w.attestedInput H binding agent req).stableRepr := by
  have haction : req'.action = req.action := hc'.action.trans hc.action.symm
  have hresource := eq_of_isSome hc.resource hc'.resource h.resource
  have hamount := eq_of_isSome hc.amount hc'.amount h.amount
  have hcurrency := eq_of_isSome hc.currency hc'.currency h.currency
  have hsubject := eq_of_isSome hc.counterparty hc'.counterparty h.counterparty
  have hcontext : ∀ k, (Json.obj req'.context).get? k = (Json.obj req.context).get? k := by
    intro k
    by_cases hk : k ∈ c.contextBindings.map Prod.fst
    · exact (h.context k hk).symm
    · rw [Json.get?_eq_none.2 (mt (hc'.context.exactly k).1 hk),
        Json.get?_eq_none.2 (mt (hc.context.exactly k).1 hk)]
  have hsame : ∀ authority,
      (Json.obj (withMember (withMember (finalContext binding req') "timestamp"
        (.str (H.isoformat req'.requestedAt))) "authority" authority)).stableRepr =
      (Json.obj (withMember (withMember (finalContext binding req) "timestamp"
        (.str (H.isoformat req.requestedAt))) "authority" authority)).stableRepr := by
    intro authority
    have hd : ∀ r : AttestedRequest, ((withMember (withMember (finalContext binding r) "timestamp"
        (.str (H.isoformat r.requestedAt))) "authority" authority).map Prod.fst).Nodup :=
      fun r => nodup_withMember (nodup_withMember (nodup_withMember r.distinct))
    refine Json.stableRepr_perm (hd req') (Json.perm_of_get? (hd req') (hd req) ?_)
    rw [← h.requestedAt]
    exact get?_withMember_congr (get?_withMember_congr (get?_withMember_congr hcontext))
  simp only [Views.attestedInput, Engine.buildOpaInput, Json.stableRepr, Json.stableEntries,
    haction, ← hresource, ← hamount, ← hcurrency, ← hsubject] at hsame ⊢
  rw [hsame]

/-! ### The context -/

theorem lookup_context (k : String) :
    (w.attestedInput H binding agent req).lookup ["context", k] =
      (Json.obj (withMember (withMember (finalContext binding req) "timestamp"
        (.str (H.isoformat req.requestedAt))) "authority"
        (w.truthFor H agent req.amount).authorityContext)).get? k := by
  show ((Json.obj (withMember (withMember (finalContext binding req) "timestamp"
    (.str (H.isoformat req.requestedAt))) "authority"
    (w.truthFor H agent req.amount).authorityContext)).get? k).bind (fun v => v.lookup []) = _
  exact Option.bind_fun_some _

/-- What the context of an input is: the server's three members, and the caller's. -/
structure TrustedContext (H : OperationHost) (w : Views) (binding : EnforcementBinding)
    (agent : Agent) (c : IntegrationContractVersion) (req : AttestedRequest) (input : Json) :
    Prop where
  timestamp : input.lookup ["context", "timestamp"] = some (.str (H.isoformat req.requestedAt))
  authority : input.lookup ["context", "authority"] =
    some (w.truthFor H agent req.amount).authorityContext
  environment : input.lookup ["context", "environment"] = some (.str binding.environment)
  /-- A bound key has the caller's value, unless the server has one. -/
  bound : ∀ k ∈ c.contextBindings.map Prod.fst, k ≠ "timestamp" → k ≠ "authority" →
    ∃ v, (Json.obj req.context).get? k = some v ∧ input.lookup ["context", k] = some v
  nothingElse : ∀ k, k ∉ c.contextBindings.map Prod.fst → k ≠ "timestamp" → k ≠ "authority" →
    k ≠ "environment" → input.lookup ["context", k] = none

theorem attestedInput_context
    (hc : ContextKeys (c.contextBindings.map Prod.fst) (req.context.map Prod.fst)) :
    TrustedContext H w binding agent c req (w.attestedInput H binding agent req) where
  timestamp := by
    rw [lookup_context, Evidence.get?_withMember_of_ne _ _ (by decide),
      Evidence.get?_withMember_self]
  authority := by rw [lookup_context, Evidence.get?_withMember_self]
  environment := by
    rw [lookup_context, Evidence.get?_withMember_of_ne _ _ (by decide),
      Evidence.get?_withMember_of_ne _ _ (by decide), finalContext, Evidence.get?_withMember_self]
  bound k hk htimestamp hauthority := by
    have henvironment : k ≠ "environment" := fun h => hc.reserved (h ▸ (hc.exactly k).2 hk)
    rw [lookup_context, Evidence.get?_withMember_of_ne _ _ hauthority,
      Evidence.get?_withMember_of_ne _ _ htimestamp, finalContext,
      Evidence.get?_withMember_of_ne _ _ henvironment]
    obtain ⟨v, hv⟩ := Option.isSome_iff_exists.1 (Json.get?_isSome.2 ((hc.exactly k).2 hk))
    exact ⟨v, hv, hv⟩
  nothingElse k hk htimestamp hauthority henvironment := by
    rw [lookup_context, Evidence.get?_withMember_of_ne _ _ hauthority,
      Evidence.get?_withMember_of_ne _ _ htimestamp, finalContext,
      Evidence.get?_withMember_of_ne _ _ henvironment]
    exact Json.get?_eq_none.2 (mt (hc.exactly k).1 hk)

/-! ## What OPA is asked -/

/-- Whatever OPA is asked satisfies `G`. -/
def Asks (G : Json → Prop) (q : LedgerStatement) : Prop :=
  ∀ o input, q = .queryOpa o input → G input

/-- Queries may be sent, and OPA may be asked whatever satisfies `G`. -/
def Queries (G : Json → Prop) (P : LedgerStatement → Prop) : Prop :=
  ∀ q, q.quiet = true → Asks G q → P q

section Asking

variable {G : Json → Prop} {P : LedgerStatement → Prop}
  {ok : (q : LedgerStatement) → Except PyError q.Answer → Prop}

theorem queries_asks : Queries G (Asks G) := fun _ _ h => h

theorem asks_of_ne {q : LedgerStatement} (h : ∀ o input, q ≠ .queryOpa o input) : Asks G q :=
  fun o input hq => absurd hq (h o input)

/-- A statement that asks nothing, whatever it answers. -/
theorem asks_other {q : LedgerStatement} {R : q.Answer → Prop} (h : ∀ o input, q ≠ .queryOpa o input)
    (hR : ∀ a, R a) : Sends (Asks G) ok (Prog.send q) R :=
  sends_send (asks_of_ne h) fun a _ => hR a

theorem sends_lifted {α : Type} {x : Except PyError α} {R : α → Prop} (h : ∀ a, x = .ok a → R a) :
    Sends P ok (LedgerService.lift x) R := by
  cases x with
  | ok a => exact h a rfl
  | error e => trivial

/-! ### Queries -/

variable (hP : Queries G P)
include hP

theorem sends_read {R : Snapshot → Prop} (h : ∀ v, ok .read (.ok v) → R v) :
    Sends P ok LedgerService.read R :=
  sends_send (hP _ rfl (asks_of_ne (by simp))) h

theorem sends_now {R : Timestamp → Prop} (h : ∀ t, R t) : Sends P ok LedgerService.now R :=
  sends_send (hP _ rfl (asks_of_ne (by simp))) fun t _ => h t

/-- The databases of the views are ones that were read. -/
structure Views.Seen (w : Views) (ok : (q : LedgerStatement) → Except PyError q.Answer → Prop) :
    Prop where
  truth : ∃ v, ok .read (.ok v) ∧ w.truth = v.db
  keys : ∃ v, ok .read (.ok v) ∧ w.keys = v.db
  facts : ∃ v, ok .read (.ok v) ∧ w.facts = v.db

theorem sends_resolveTruth (agent : Agent) (amount : Option ℚ) :
    Sends P ok (resolveTruth H agent amount) fun truth =>
      ∃ v t, ok .read (.ok v) ∧ truth = truthIn H v.db t agent amount :=
  sends_bind (sends_read hP fun v hv => sends_bind (sends_now hP fun t => ⟨v, t, hv, rfl⟩))

theorem sends_resolveFacts (o : Option Uuid) (subject : Option String) :
    Sends P ok (LedgerService.resolveFacts o subject) fun facts =>
      ∃ v v' t, ok .read (.ok v) ∧ ok .read (.ok v') ∧ ∀ w : Views, w.keys = v.db →
        w.facts = v'.db → w.factsAt = t → facts = w.factsFor o subject := by
  refine sends_bind (sends_read hP fun v hv => ?_)
  cases hk : v.db.listEnterpriseKnowledgeKeys o with
  | nil => exact ⟨v, v, 0, hv, hv, fun w hw _ _ => by simp [Views.factsFor, hw, hk]⟩
  | cons key keys =>
    cases o with
    | none => exact ⟨v, v, 0, hv, hv, fun w hw _ _ => by simp [Views.factsFor, hw, hk]⟩
    | some o =>
      refine sends_bind (sends_read hP fun v' hv' => sends_bind (sends_now hP fun t => ?_))
      exact ⟨v, v', t, hv, hv', fun w hw hw' ht => by simp [Views.factsFor, hw, hw', ht, hk]⟩

theorem sends_evaluate {intent : Intent} {agent : Agent} {truth : RuntimeTruth}
    {facts : List EnterpriseFact} (hG : ∀ n, G (evaluationInput H intent agent truth facts n)) :
    Sends P ok (evaluate H intent agent truth facts) fun _ => True := by
  refine sends_bind (sends_read hP fun v _ => ?_)
  dsimp only
  split
  · refine sends_bind (sends_send (hP _ rfl ?_) fun reply _ => sends_lifted fun _ _ => trivial)
    rintro o input ⟨⟩
    exact hG _
  · exact sends_bind (sends_lifted fun _ _ => trivial)

theorem sends_finalOutcome (d : EngineDecision) (keys : List String) :
    Sends P ok (LedgerService.finalOutcome H d keys) fun _ => True := by
  unfold LedgerService.finalOutcome
  split
  · exact sends_bind (sends_read hP fun _ _ => sends_bind (sends_now hP fun _ => trivial))
  · trivial

theorem sends_evidencePayload (a : EvidenceArgs) (previousHash : Option String) :
    Sends P ok (evidencePayload H.toEvidenceHost a previousHash) fun _ => True := by
  have hrest : ∀ ids system, Sends P ok (do
      let v ← read
      let recordedAt ← now
      return Evidence.buildEvidencePayload H.toPrinter
        { a.details with
          enterpriseSystem := system
          decisionId := a.decisionId
          agentId := a.agent.id
          action := a.action
          matchedMandateIds := a.matchedMandates.insertionSort (· ≤ ·)
          authorityOutcome := a.outcome
          riskClassification := riskClassification v.db H.toPlatform a.matchedMandates a.amount
          recordedAt
          previousHash
          amount := a.amount
          currency := a.currency
          resource := a.resource
          authorityIds := ids
          resolvedBy := a.details.authorityContext.map fun _ => "runtime_authority_context" }
        a.review a.provenance) fun _ => True := fun ids system =>
    sends_bind (sends_read hP fun v _ => sends_bind (sends_now hP fun _ => trivial))
  refine sends_bind (sends_mono (R := fun _ => True) ?_ fun ids _ => ?_)
  · unfold LedgerService.resolveAuthorityIds
    split
    · trivial
    · exact sends_bind (sends_read hP fun _ _ => trivial)
  · refine sends_bind (sends_mono (R := fun _ => True) ?_ fun system _ => hrest ids system)
    unfold getEnterpriseSystem
    split
    · exact sends_bind (sends_read hP fun _ _ => trivial)
    · trivial

/-! ### Adapters -/

/-- What a request has been checked against when it gets as far as the fingerprint. -/
structure Trusted (H : OperationHost) (identity : IntegrationIdentity) (req : AttestedRequest)
    (ok : (q : LedgerStatement) → Except PyError q.Answer → Prop) (a : Attested) : Prop where
  bindingRead : ∃ v, ok .read (.ok v) ∧ a.binding ∈ v.db.enforcementBindings
  binding : a.binding.id = req.enforcementBindingId ∧
    a.binding.organizationId = identity.organizationId ∧
    a.binding.integrationIdentityId = identity.id ∧ a.binding.status = .active
  agentRead : ∃ v, ok .read (.ok v) ∧ v.db.agent req.originAgentId = some a.agent
  contractRead : ∃ v, ok .read (.ok v) ∧
    v.db.contractVersion a.binding.integrationContractVersionId = some a.contractVersion
  conforms : Conforms a.contractVersion req
  finalContext : a.finalContext = finalContext a.binding req

theorem sends_ensureActive (o : Option Uuid) (error : OrganizationStatus → PyError) :
    Sends P ok (ensureActive o error) fun _ => True := by
  unfold ensureActive
  split
  · trivial
  · refine sends_bind (sends_read hP fun v _ => ?_)
    split
    · trivial
    · split <;> trivial

theorem sends_resolveActiveBinding (bindingId organizationId identityId : Uuid) :
    Sends P ok (resolveActiveBinding bindingId organizationId identityId) fun b =>
      (∃ v, ok .read (.ok v) ∧ b ∈ v.db.enforcementBindings) ∧ b.id = bindingId ∧
        b.organizationId = organizationId ∧ b.integrationIdentityId = identityId ∧
        b.status = .active := by
  refine sends_bind (sends_read hP fun v hv => ?_)
  split
  · trivial
  · next b hb =>
    have hid := List.find?_some hb
    simp only [decide_eq_true_eq] at hid
    split
    · trivial
    · next hidentity =>
      split
      · trivial
      · next hstatus =>
        exact ⟨⟨v, hv, List.mem_of_find?_eq_some hb⟩, hid.1, hid.2, not_not.1 hidentity,
          not_not.1 hstatus⟩

theorem sends_resolveOriginAgent (agentId organizationId bindingId : Uuid) :
    Sends P ok (resolveOriginAgent agentId organizationId bindingId) fun agent =>
      ∃ v, ok .read (.ok v) ∧ v.db.agent agentId = some agent := by
  refine sends_bind (sends_read hP fun v hv => ?_)
  split
  · trivial
  · next agent hagent =>
    refine sends_bind (sends_read hP fun _ _ => ?_)
    split
    · trivial
    · split
      · trivial
      · refine sends_bind (sends_read hP fun _ _ => ?_)
        split
        · exact ⟨v, hv, hagent⟩
        · trivial

theorem sends_resolveContractVersion (id organizationId : Uuid) :
    Sends P ok (resolveContractVersion id organizationId) fun c =>
      ∃ v, ok .read (.ok v) ∧ v.db.contractVersion id = some c := by
  refine sends_bind (sends_read hP fun v hv => ?_)
  split
  · trivial
  · next c hc => exact ⟨v, hv, (Option.filter_eq_some_iff.1 hc).1⟩

theorem sends_attest (identity : IntegrationIdentity) (req : AttestedRequest) :
    Sends P ok (attest H identity req) fun a => Trusted H identity req ok a ∧
      OperationIdentity.fingerprint H a.agent.id a.contractVersion.contentHash req.sourceOperation
        req.action req.resource req.amount req.currency req.counterparty req.context =
          .ok a.fingerprint := by
  refine sends_bind (sends_lifted fun _ _ => ?_)
  refine sends_bind (sends_mono (sends_ensureActive hP _ _) fun _ _ => ?_)
  refine sends_bind (sends_mono (sends_resolveActiveBinding hP _ _ _) fun binding hbinding => ?_)
  refine sends_bind (sends_mono (sends_resolveOriginAgent hP _ _ _) fun agent hagent => ?_)
  refine sends_bind (sends_mono (sends_resolveContractVersion hP _ _) fun c hc => ?_)
  refine sends_bind (sends_lifted fun _ hcontract =>
    sends_bind (sends_lifted fun fingerprint hfingerprint => ?_))
  exact ⟨⟨hbinding.1, hbinding.2, hagent, hc, checkContract_ok hcontract, rfl⟩, hfingerprint⟩

theorem sends_resolveExistingOrConflict (existing : IntentRow) (fingerprint : String) :
    Sends P ok (resolveExistingOrConflict existing fingerprint) fun _ => True := by
  unfold resolveExistingOrConflict
  split
  · refine sends_bind (sends_read hP fun v _ => ?_)
    split
    · trivial
    · exact sends_bind (sends_read hP fun _ _ => trivial)
  · trivial

omit hP

/-! ### Statements that write -/

theorem asks_appendRow {o : Option Uuid} {decisionId : Uuid} {status : EvidenceStatus}
    {payload : Option String → LedgerService Json}
    (h : ∀ hash, Sends (Asks G) ok (payload hash) fun _ => True) :
    Sends (Asks G) ok (appendRow H.toEvidenceHost o decisionId status payload) fun _ => True := by
  have hrest : Sends (Asks G) ok (do
      let v ← read
      let previousHash := previousChainHash H.toEvidenceHost (chainOf v.evidence o)
      let v ← read
      let sequence := nextChainSequence (chainOf v.evidence o)
      let e ← sign (.evidence o decisionId) (← payload previousHash)
      let id ← uuid4
      let row : EvidenceRow :=
        { e with id, decisionId, status, organizationId := o, sequence := some sequence,
                 createdAt := 0 }
      flushEvidence row
      return row) fun _ => True := by
    refine sends_bind (sends_read queries_asks fun v _ => sends_bind (sends_read queries_asks fun v' _ => ?_))
    refine sends_bind (sends_mono (h _) fun e _ => ?_)
    refine sends_bind (asks_other (by simp) fun _ => sends_bind (asks_other (by simp) fun _ => ?_))
    exact sends_bind (asks_other (by simp) fun _ => trivial)
  cases o with
  | none => exact hrest
  | some o => exact sends_bind (asks_other (by simp) fun _ => hrest)

theorem asks_appendEvidence (a : EvidenceArgs) :
    Sends (Asks G) ok (appendEvidence H.toEvidenceHost a) fun _ => True :=
  sends_bind (sends_read queries_asks fun _ _ =>
    asks_appendRow fun _ => sends_evidencePayload queries_asks a _)

/-- An evaluation asks OPA about the intent, with what it has looked up. -/
theorem asks_evaluateAndRecord {intent : Intent} {agent : Agent}
    (provenance : Option IntegrationProvenance)
    (hG : ∀ w : Views, w.Seen ok → G (w.input H intent agent)) :
    Sends (Asks G) ok (evaluateAndRecord H intent agent provenance) fun _ => True := by
  refine sends_bind (sends_mono (sends_resolveTruth queries_asks _ _) fun truth htruth => ?_)
  refine sends_bind (sends_mono (sends_resolveFacts queries_asks _ _) fun facts hfacts => ?_)
  obtain ⟨v, t, hv, rfl⟩ := htruth
  obtain ⟨vk, vf, tf, hvk, hvf, hfacts⟩ := hfacts
  refine sends_bind (sends_mono (sends_evaluate queries_asks fun n => ?_) fun d _ => ?_)
  · have hw := hG ⟨v.db, t, vk.db, vf.db, tf, n⟩ ⟨⟨v, hv, rfl⟩, ⟨vk, hvk, rfl⟩, ⟨vf, hvf, rfl⟩⟩
    rw [hfacts ⟨v.db, t, vk.db, vf.db, tf, n⟩ rfl rfl rfl]
    exact hw
  · refine sends_bind (sends_lifted fun keys _ => sends_bind (sends_read queries_asks fun _ _ => ?_))
    refine sends_bind (sends_read queries_asks fun _ _ => ?_)
    refine sends_bind (sends_mono (sends_finalOutcome queries_asks _ _) ?_)
    rintro ⟨outcome, reason⟩ -
    refine sends_bind (asks_other (by simp) fun id => sends_bind (sends_now queries_asks fun createdAt => ?_))
    refine sends_bind (asks_other (by simp) fun _ => ?_)
    refine sends_bind (sends_mono (asks_appendEvidence _) fun evidence _ => ?_)
    refine sends_bind (asks_other (by simp) fun _ => sends_bind (asks_other (by simp) fun _ => ?_))
    exact sends_bind (asks_other (by simp) fun _ => trivial)

theorem asks_tryFlushIntent (row : IntentRow) :
    Sends (Asks G) ok (tryFlushIntent row) fun _ => True := by
  refine sends_tryCatch (sends_bind (asks_other (by simp) fun _ => trivial)) fun e => ?_
  split
  · exact sends_bind (asks_other (by simp) fun _ => trivial)
  · trivial

end Asking

/-- What one input of OPA shows of the request that it was built for. -/
structure Evaluated (H : OperationHost) (identity : IntegrationIdentity) (req : AttestedRequest)
    (ok : (q : LedgerStatement) → Except PyError q.Answer → Prop) (a : Attested) (w : Views)
    (input : Json) : Prop where
  trusted : Trusted H identity req ok a
  seen : w.Seen ok
  eq : input = w.attestedInput H a.binding a.agent req
  keys : ContextKeys (a.contractVersion.contextBindings.map Prod.fst) (req.context.map Prod.fst)
  context : TrustedContext H w a.binding a.agent a.contractVersion req input
  /-- Nothing else of the request matters. -/
  nonInterference : ∀ req', checkContract a.contractVersion req' = .ok () →
    Agree a.contractVersion req req' →
    (w.attestedInput H a.binding a.agent req').stableRepr = input.stableRepr

theorem asks_submitAttestedIntent {ok : (q : LedgerStatement) → Except PyError q.Answer → Prop}
    (identity : IntegrationIdentity) (req : AttestedRequest) :
    Sends (Asks fun input => ∃ a w, Evaluated H identity req ok a w input) ok
      (submitAttestedIntent H identity req) fun _ => True := by
  refine sends_bind (sends_mono (sends_attest queries_asks _ _) fun a ha =>
    sends_bind (sends_read queries_asks fun v _ => ?_))
  obtain ⟨ha, -⟩ := ha
  split
  · exact sends_resolveExistingOrConflict queries_asks _ _
  refine sends_bind (sends_lifted fun canonical _ => sends_bind (sends_lifted fun digest _ => ?_))
  refine sends_bind (asks_other (by simp) fun id => ?_)
  refine sends_bind (sends_mono (asks_tryFlushIntent _) fun inserted _ => ?_)
  split
  · refine sends_bind (sends_mono (asks_evaluateAndRecord _ fun w hw => ⟨a, w, ha, hw, ?_, ?_, ?_, ?_⟩)
      fun _ _ => trivial)
    · exact w.input_attestedIntent H id req a ha.finalContext
    · exact ha.conforms.context
    · rw [w.input_attestedIntent H id req a ha.finalContext]
      exact attestedInput_context ha.conforms.context
    · intro req' hreq' hagree
      rw [w.input_attestedIntent H id req a ha.finalContext]
      exact attestedInput_agree ha.conforms (checkContract_ok hreq') hagree
  · refine sends_bind (sends_read queries_asks fun v _ => ?_)
    split
    · exact sends_resolveExistingOrConflict queries_asks _ _
    · trivial

/-- **The context of an attested request is the contract's and the server's**: whatever the others
do between the statements of the request, OPA is asked only with exactly the bound keys, none of them
reserved; the environment, timestamp and authority block are the server's; and a request that agrees
on what the contract declares asks the same. -/
theorem submitAttestedIntent_context {ι : Type} [DecidableEq ι] {i : ι}
    {identity : IntegrationIdentity} {acts : List (Act LedgerStatement LedgerStatement.Answer
      PyError (Ledger ι))} {rest : LedgerService Submitted}
    (h : Acts (ledgerMachine H.toEvidenceHost ι) i (submitAttestedIntent H identity req) acts rest) :
    ∀ act ∈ acts, ∀ o input, act.q = .queryOpa o input →
      ∃ a w, Evaluated H identity req (fun q r => ∃ s t, ⟨q, s, r, t⟩ ∈ acts) a w input := by
  intro act hact o input hq
  exact h.sends (fun act hact => ⟨act.before, act.after, hact⟩)
    (asks_submitAttestedIntent identity req) act hact o input hq

/-! ### A payment through an adapter -/

/-- A platform whose texts are short; two decimals are kept of an amount. -/
def adapterHost : OperationHost where
  toEvidenceHost := { plainHost with numeric := fun a => hundredths a / 100 }
  sha256 tokens := String.join (tokens.map fun t => (ofLex (ofLex t).2).2)

def adapterIdentity : IntegrationIdentity := ⟨3, 7, .active⟩

/-- Payments in production, with an amount, a currency and a bound context key. -/
def paymentContract : IntegrationContractVersion where
  id := 4
  integrationId := 5
  organizationId := 7
  contentHash := some "contract"
  sourceOperation := "pay"
  canonicalAction := "vendor_payment"
  resourcePath := none
  amountPath := some "amount"
  currencyPath := some "currency"
  factSubjectPath := none
  contextBindings := [("risk", "riskScore")]

def activeBundle : PolicyRow where
  version := 1
  status := .active
  bundleHash := ⟨[], "b", 1, "", []⟩
  bundleUri := .other ""
  compiledAt := none
  activatedAt := none
  bundleManifest := none
  organizationId := some 7

def adapterDb : Db where
  policies := [activeBundle]
  organizations := [⟨7, "org", .active, .production⟩]
  principals := [⟨1, "ops", some 7, none, none, none, none⟩]
  agents := [⟨2, 1, .active⟩]
  integrationIdentities := [adapterIdentity]
  contractVersions := [paymentContract]
  enforcementBindings := [⟨6, 7, 3, 4, "production", .active⟩]
  enforcementBindingAgents := [⟨6, 2⟩]

def adapterLedger : Ledger Bool := { emptyLedger with db := adapterDb }

/-- A payment of an amount, under an operation id and with a nonce. -/
def payment (amount : ℚ) (operation nonce : String) : AttestedRequest where
  enforcementBindingId := 6
  originAgentId := 2
  sourceOperation := "pay"
  action := "vendor_payment"
  resource := none
  amount := some amount
  currency := some "EUR"
  counterparty := none
  context := [("risk", .int 1)]
  distinct := by decide
  requestedAt := 0
  nonce
  externalOperationId := operation

/-- OPA allows everything. -/
def allowAll (_ : Option Uuid) (_ : Json) : OpaReply :=
  .response 200 (some (.obj [("result", .obj [("allow", .bool true)])]))

def paymentActs : List (Act LedgerStatement LedgerStatement.Answer PyError (Ledger Bool)) :=
  ((Ledger.schedule adapterHost.toEvidenceHost allowAll).acts true 20
    (submitAttestedIntent adapterHost adapterIdentity (payment 100 "op" "n")) adapterLedger).1

theorem submitAttestedIntent_context_payment : ∃ act ∈ paymentActs, ∃ o input,
    act.q = .queryOpa o input ∧ ∃ a w, Evaluated adapterHost adapterIdentity
      (payment 100 "op" "n") (fun q r => ∃ s t, ⟨q, s, r, t⟩ ∈ paymentActs) a w input := by
  have hasked : ∃ act ∈ paymentActs, ∃ o input, act.q = .queryOpa o input := by
    have : (paymentActs.any fun act => match act.q with
        | .queryOpa _ _ => true
        | _ => false) = true := by decide +kernel
    obtain ⟨act, hact, hq⟩ := List.any_eq_true.1 this
    refine ⟨act, hact, ?_⟩
    split at hq
    · next o input ho => exact ⟨o, input, ho⟩
    · cases hq
  obtain ⟨act, hact, o, input, hq⟩ := hasked
  exact ⟨act, hact, o, input, hq, submitAttestedIntent_context
    ((Ledger.schedule adapterHost.toEvidenceHost allowAll).acts_sound true 20 _ adapterLedger)
    act hact o input hq⟩

end PayReality
