import PayReality.Lifecycle.RollbackTargets

/-!
# Drafts and enforcement

An edit and a rollback add a draft, which is then the latest version of its key. What a decision reads
of the active versions it reads through two filters: the versions that are active, and the latest
versions where they are active.

* `Db.spares`: the condition on the tables, that the second filter needs nothing of the key.
* `SameDecisions`: what a draft should leave as it was.

**Main result** `draftEdits`.
-/

namespace PayReality

open Program RuntimePolicyService LifecycleService Service

/-! ## What is read of the latest versions -/

/-- The fact keys that the conditions of a version name. -/
def RuntimePolicyRecord.factKeys (r : RuntimePolicyRecord) : List String :=
  r.content.conditions.filterMap fun c => Db.enterpriseKnowledgeKey c.field

namespace Db

variable {db : Db} {o o' : Option Uuid} {key : Uuid} {row r : RuntimePolicyRecord}
  {events : List LifecycleEvent}

/-- The latest versions of the other keys that are active. -/
def latestBeside (db : Db) (key : Uuid) (o : Option Uuid) : List RuntimePolicyRecord :=
  (db.listLatestPolicies o .active).filter fun r => r.policyKey ≠ key

/-- Without the key, the same fact keys are asked for and the same actions are recognised. -/
def spares (db : Db) (key : Uuid) (o : Option Uuid) : Bool :=
  (db.listLatestPolicies o .active).all fun r => r.policyKey ≠ key ||
    (r.factKeys.all fun k => (db.latestBeside key o).any fun q => k ∈ q.factKeys) &&
    (r.content.scope.action = "" || r.content.scope.action ∈ CompilerV2.knownScopes ||
      (db.latestBeside key o).any fun q => q.content.scope.action = r.content.scope.action)

/-- The tables with one more version, and other events. -/
def withVersion (db : Db) (row : RuntimePolicyRecord) (events : List LifecycleEvent) : Db :=
  { db with
    records := db.records ++ [row]
    lifecycleEvents := events }

/-- The version is later than the others of its key. -/
def Newest (db : Db) (row : RuntimePolicyRecord) : Prop :=
  ∀ r ∈ db.records, r.policyKey = row.policyKey → r.organizationId = row.organizationId →
    r.version < row.version

theorem mem_listLatestPolicies {status : PolicyStatus} : r ∈ db.listLatestPolicies o status ↔
    db.latestVersionRow r.policyKey o = some r ∧ r.status = status := by
  simp only [listLatestPolicies, List.mem_filter, List.mem_filterMap, decide_eq_true_eq]
  refine and_congr_left fun _ => ?_
  constructor
  · rintro ⟨k, -, h⟩
    obtain ⟨-, hkey, -⟩ := db.latestVersionRow_some h
    rwa [hkey]
  · intro h
    obtain ⟨hr, -, ho, -⟩ := db.latestVersionRow_some h
    refine ⟨r.policyKey, ?_, h⟩
    simp only [policyKeys, List.mem_dedup, List.mem_map, List.mem_filter, decide_eq_true_eq]
    exact ⟨r, ⟨hr, ho⟩, rfl⟩

theorem latestVersionRow_withVersion (h : db.Newest row) (k : Uuid) (o : Option Uuid) :
    (db.withVersion row events).latestVersionRow k o =
      if row.policyKey = k ∧ row.organizationId = o then some row else db.latestVersionRow k o := by
  have hversions : (db.withVersion row events).versionsOf k o = db.versionsOf k o ++
      if row.policyKey = k ∧ row.organizationId = o then [row] else [] := by
    rw [versionsOf, withVersion, List.filter_append, versionsOf]
    congr 1
    by_cases hrow : row.policyKey = k ∧ row.organizationId = o <;> simp [hrow]
  rw [latestVersionRow, hversions]
  split
  · next hrow =>
    rw [List.argmax_concat]
    cases hbest : (db.versionsOf k o).argmax RuntimePolicyRecord.version with
    | none => rfl
    | some q =>
      obtain ⟨hq, hkey, ho, -⟩ := db.latestVersionRow_some hbest
      have hlt := h q hq (hkey.trans hrow.1.symm) (ho.trans hrow.2.symm)
      show (if q.version < row.version then some row else some q) = some row
      rw [if_pos hlt]
  · rw [List.append_nil]
    rfl

/-- A draft hides the key, and no other. -/
theorem mem_listLatestPolicies_withVersion (h : db.Newest row) (hdraft : row.status ≠ .active) :
    r ∈ (db.withVersion row events).listLatestPolicies o .active ↔
      r ∈ db.listLatestPolicies o .active ∧
        ¬ (row.policyKey = r.policyKey ∧ row.organizationId = o) := by
  rw [mem_listLatestPolicies, mem_listLatestPolicies, latestVersionRow_withVersion h]
  by_cases hrow : row.policyKey = r.policyKey ∧ row.organizationId = o
  · rw [if_pos hrow]
    simp only [hrow, and_self, not_true_eq_false, and_false, iff_false, not_and, Option.some.injEq]
    rintro rfl
    exact hdraft
  · simp [hrow]

/-- The keys are listed as they are asked for. -/
theorem sorted_dedup_eq {l l' : List String} :
    l.dedup.insertionSort (· ≤ ·) = l'.dedup.insertionSort (· ≤ ·) ↔ ∀ k, k ∈ l ↔ k ∈ l' := by
  constructor
  · intro h k
    have hmem : ∀ xs : List String, k ∈ xs.dedup.insertionSort (· ≤ ·) ↔ k ∈ xs := fun xs =>
      (List.mem_insertionSort _).trans List.mem_dedup
    rw [← hmem l, ← hmem l', h]
  · intro h
    have hperm : l.dedup.Perm l'.dedup :=
      (List.perm_ext_iff_of_nodup l.nodup_dedup l'.nodup_dedup).2 fun k => by simp [h]
    refine List.Perm.eq_of_pairwise (fun a b _ _ => le_antisymm)
      (List.pairwise_insertionSort _ _) (List.pairwise_insertionSort _ _) ?_
    exact ((List.perm_insertionSort _ _).trans hperm).trans (List.perm_insertionSort _ _).symm

theorem mem_factKeys {k : String} : (k ∈ (db.listLatestPolicies o .active).flatMap fun r =>
    r.content.conditions.filterMap fun c => enterpriseKnowledgeKey c.field) ↔
    ∃ r ∈ db.listLatestPolicies o .active, k ∈ r.factKeys := List.mem_flatMap

theorem recognized_iff {action : String} :
    isRecognizedScope action (db.listActiveScopeActions o) = true ↔
      action ∈ CompilerV2.knownScopes ∨
      action ≠ "" ∧ ∃ r ∈ db.listLatestPolicies o .active, r.content.scope.action = action := by
  simp only [isRecognizedScope, listActiveScopeActions, Bool.or_eq_true, decide_eq_true_eq,
    List.mem_filter, List.mem_map]
  exact or_congr_right ⟨fun ⟨h, hne⟩ => ⟨hne, h⟩, fun ⟨hne, h⟩ => ⟨h, hne⟩⟩

theorem mem_latestBeside : r ∈ db.latestBeside key o ↔
    r ∈ db.listLatestPolicies o .active ∧ r.policyKey ≠ key := by
  simp [latestBeside]

theorem spares_iff : db.spares key o = true ↔ ∀ r ∈ db.listLatestPolicies o .active,
    r.policyKey = key → (∀ k ∈ r.factKeys, ∃ q ∈ db.latestBeside key o, k ∈ q.factKeys) ∧
      (r.content.scope.action = "" ∨ r.content.scope.action ∈ CompilerV2.knownScopes ∨
        ∃ q ∈ db.latestBeside key o, q.content.scope.action = r.content.scope.action) := by
  simp only [spares, List.all_eq_true, Bool.or_eq_true, Bool.and_eq_true, decide_eq_true_eq,
    List.any_eq_true, or_assoc]
  exact forall₂_congr fun r _ => or_iff_not_imp_left.trans (by rw [not_not])

/-- **A draft changes what is read of the latest versions, unless its key is spared.** -/
theorem withVersion_iff_spares (h : db.Newest row) (hdraft : row.status ≠ .active) :
    ((∀ o, (db.withVersion row events).listEnterpriseKnowledgeKeys o =
        db.listEnterpriseKnowledgeKeys o) ∧
      ∀ o action, isRecognizedScope action ((db.withVersion row events).listActiveScopeActions o) =
        isRecognizedScope action (db.listActiveScopeActions o)) ↔
    db.spares row.policyKey row.organizationId = true := by
  have hmem : ∀ o r, r ∈ (db.withVersion row events).listLatestPolicies o .active ↔
      r ∈ db.listLatestPolicies o .active ∧ ¬ (row.policyKey = r.policyKey ∧ row.organizationId = o) :=
    fun o r => mem_listLatestPolicies_withVersion h hdraft
  -- of the organization, the other keys stay
  have hbeside : ∀ q, q ∈ (db.withVersion row events).listLatestPolicies row.organizationId .active ↔
      q ∈ db.latestBeside row.policyKey row.organizationId := by
    intro q
    rw [hmem, mem_latestBeside]
    exact and_congr_right fun _ => ⟨fun hne heq => hne ⟨heq.symm, rfl⟩, fun hne heq => hne heq.1.symm⟩
  have hkeep : ∀ o, o ≠ row.organizationId → ∀ q,
      q ∈ (db.withVersion row events).listLatestPolicies o .active ↔
        q ∈ db.listLatestPolicies o .active := by
    intro o ho q
    rw [hmem]
    exact and_iff_left fun heq => ho heq.2.symm
  rw [spares_iff]
  constructor
  · rintro ⟨hkeys, hactions⟩ r hr hkey
    constructor
    · intro k hk
      have hsame := sorted_dedup_eq.1 (hkeys row.organizationId) k
      rw [mem_factKeys, mem_factKeys] at hsame
      obtain ⟨q, hq, hqk⟩ := hsame.2 ⟨r, hr, hk⟩
      exact ⟨q, (hbeside q).1 hq, hqk⟩
    · by_contra hnone
      obtain ⟨hne, hunknown, hothers⟩ : r.content.scope.action ≠ "" ∧
          r.content.scope.action ∉ CompilerV2.knownScopes ∧
          ¬ ∃ q ∈ db.latestBeside row.policyKey row.organizationId,
            q.content.scope.action = r.content.scope.action := by
        simpa only [not_or] using hnone
      have hbefore : isRecognizedScope r.content.scope.action
          (db.listActiveScopeActions row.organizationId) = true :=
        recognized_iff.2 (.inr ⟨hne, r, hr, rfl⟩)
      rw [← hactions, recognized_iff] at hbefore
      rcases hbefore with hknown | ⟨-, q, hq, haction⟩
      · exact hunknown hknown
      · exact hothers ⟨q, (hbeside q).1 hq, haction⟩
  · intro hspares
    constructor
    · intro o
      refine sorted_dedup_eq.2 fun k => ?_
      rw [mem_factKeys, mem_factKeys]
      by_cases ho : o = row.organizationId
      · subst ho
        constructor
        · rintro ⟨r, hr, hk⟩
          exact ⟨r, ((hmem _ r).1 hr).1, hk⟩
        · rintro ⟨r, hr, hk⟩
          by_cases hkey : r.policyKey = row.policyKey
          · obtain ⟨q, hq, hqk⟩ := (hspares r hr hkey).1 k hk
            exact ⟨q, (hbeside q).2 hq, hqk⟩
          · exact ⟨r, (hbeside r).2 (mem_latestBeside.2 ⟨hr, hkey⟩), hk⟩
      · simp only [hkeep o ho]
    · intro o action
      rw [Bool.eq_iff_iff, recognized_iff, recognized_iff]
      by_cases ho : o = row.organizationId
      · subst ho
        constructor
        · rintro (hknown | ⟨hne, r, hr, haction⟩)
          · exact .inl hknown
          · exact .inr ⟨hne, r, ((hmem _ r).1 hr).1, haction⟩
        · rintro (hknown | ⟨hne, r, hr, haction⟩)
          · exact .inl hknown
          by_cases hkey : r.policyKey = row.policyKey
          · rw [← haction] at hne ⊢
            rcases (hspares r hr hkey).2 with hempty | hknown | ⟨q, hq, hqaction⟩
            · exact absurd hempty hne
            · exact .inl hknown
            · exact .inr ⟨hne, q, (hbeside q).2 hq, hqaction⟩
          · exact .inr ⟨hne, r, (hbeside r).2 (mem_latestBeside.2 ⟨hr, hkey⟩), haction⟩
      · simp only [hkeep o ho]

/-- A draft is no active version. -/
theorem matchedPolicy_withVersion (P : Platform) (hdraft : row.status ≠ .active) (key : String) :
    (db.withVersion row events).matchedPolicy P key = db.matchedPolicy P key := by
  have hactive : ∀ k, (db.withVersion row events).activeOfKey k = db.activeOfKey k := by
    intro k
    rw [activeOfKey, withVersion, List.find?_append]
    simp [activeOfKey, RuntimePolicyRecord.isActive, hdraft]
  rw [matchedPolicy, matchedPolicy]
  exact congrArg _ (funext hactive)

theorem resolveFacts_withVersion (id : Uuid) (subject : Option String) (now : Timestamp)
    (keys : List String) :
    (db.withVersion row events).resolveFacts id subject now keys = db.resolveFacts id subject now keys := by
  have htrusted : ∀ key, (db.withVersion row events).trustedFacts id subject key now =
      db.trustedFacts id subject key now := fun _ => rfl
  induction keys with
  | nil => rfl
  | cons key keys ih => rw [resolveFacts, resolveFacts, htrusted, ih]

end Db

/-! ## What is decided -/

section Decisions

variable {db : Db} {row : RuntimePolicyRecord} {events : List LifecycleEvent} (P : Platform)
  (S : Signer) (agent : Agent) (now : Timestamp) (opa : Option Uuid → Json → OpaReply)

/-- The outcome of a submission. -/
def Db.outcome (db : Db) (req : IntentRequest) : Except PyError Outcome :=
  (IntentService.submitIntent db P S agent now opa req).map fun r => r.decision.outcome

theorem evaluateAndRecord_outcome (hdraft : row.status ≠ .active)
    (hkeys : ∀ o, (db.withVersion row events).listEnterpriseKnowledgeKeys o =
      db.listEnterpriseKnowledgeKeys o) (intent : Intent) :
    (IntentService.evaluateAndRecord (db.withVersion row events) P S agent now opa intent).map
        (fun r => r.decision.outcome) =
      (IntentService.evaluateAndRecord db P S agent now opa intent).map fun r => r.decision.outcome := by
  have hfacts : IntentService.resolvedFacts (db.withVersion row events) agent now intent =
      IntentService.resolvedFacts db agent now intent := by
    unfold IntentService.resolvedFacts
    rw [show IntentService.organizationOf (db.withVersion row events) agent =
      IntentService.organizationOf db agent from rfl]
    split
    · rfl
    · rw [hkeys, Db.resolveFacts_withVersion]
  have hknowledge : IntentService.enterpriseKnowledge (db.withVersion row events) agent now intent =
      IntentService.enterpriseKnowledge db agent now intent := by
    rw [IntentService.enterpriseKnowledge, hfacts]
    rfl
  have hoverdue : ∀ keys, (db.withVersion row events).findExpiredHighRiskAuthority P keys now =
      db.findExpiredHighRiskAuthority P keys now := by
    intro keys
    simp only [Db.findExpiredHighRiskAuthority, Db.matchedPolicy_withVersion P hdraft]
  have hevaluate : IntentService.evaluateAndRecord (db.withVersion row events) P S agent now opa intent =
      (Engine.evaluate (IntentService.intentSection intent)
        (IntentService.contextSection db P agent now intent) (db.principalName P agent)
        (IntentService.getActive db (IntentService.organizationOf db agent))
        (opa (IntentService.organizationOf db agent)) (some (P.uuidText agent.id))
        (IntentService.enterpriseKnowledge db agent now intent)).bind fun d =>
          (IntentService.policyKeysOf d.evaluatedMandates).bind fun keys =>
            .ok (IntentService.recordEvaluated (db.withVersion row events) P S agent now intent d keys) := by
    rw [IntentService.evaluateAndRecord, hknowledge]
    rfl
  have hrecorded : ∀ d keys, (IntentService.recordEvaluated (db.withVersion row events) P S agent now
      intent d keys).decision.outcome =
        (IntentService.recordEvaluated db P S agent now intent d keys).decision.outcome := by
    intro d keys
    show (IntentService.finalOutcome (db.withVersion row events) P now d keys).1 =
      (IntentService.finalOutcome db P now d keys).1
    rw [IntentService.finalOutcome, IntentService.finalOutcome, hoverdue]
  rw [hevaluate]
  show Except.map _ (Except.bind _ _) = Except.map _ (Except.bind _ _)
  cases Engine.evaluate (IntentService.intentSection intent)
    (IntentService.contextSection db P agent now intent) (db.principalName P agent)
    (IntentService.getActive db (IntentService.organizationOf db agent))
    (opa (IntentService.organizationOf db agent)) (some (P.uuidText agent.id))
    (IntentService.enterpriseKnowledge db agent now intent) with
  | error e => rfl
  | ok d =>
    show Except.map _ ((IntentService.policyKeysOf d.evaluatedMandates).bind _) =
      Except.map _ ((IntentService.policyKeysOf d.evaluatedMandates).bind _)
    cases IntentService.policyKeysOf d.evaluatedMandates with
    | error e => rfl
    | ok keys => exact congrArg Except.ok (hrecorded d keys)

/-- A draft that changes nothing that is read of the latest versions changes no outcome. -/
theorem outcome_withVersion (hdraft : row.status ≠ .active)
    (hkeys : ∀ o, (db.withVersion row events).listEnterpriseKnowledgeKeys o =
      db.listEnterpriseKnowledgeKeys o)
    (hactions : ∀ o action,
      Db.isRecognizedScope action ((db.withVersion row events).listActiveScopeActions o) =
        Db.isRecognizedScope action (db.listActiveScopeActions o)) (req : IntentRequest) :
    (db.withVersion row events).outcome P S agent now opa req = db.outcome P S agent now opa req := by
  have hsame : IntentService.submitIntent (db.withVersion row events) P S agent now opa req =
      if agent.status = .revoked then .error .agentRevoked
      else if agent.status = .retired then .error .agentRetired
      else if agent.status = .registered then .error .agentNotOperational
      else if IntentService.organizationBlocked db agent then .error .organizationNotActive
      else if db.intents.any fun i => i.agentId = agent.id ∧ i.nonce = req.nonce then
        .error .replayDetected
      else if agent.status = .suspended then
        .ok (IntentService.recordUnevaluated (db.withVersion row events) P S agent now
          (IntentService.intentOf db agent req) "AGENT_SUSPENDED")
      else if Db.isRecognizedScope req.action
          (db.listActiveScopeActions (IntentService.organizationOf db agent)) then
        IntentService.evaluateAndRecord (db.withVersion row events) P S agent now opa
          (IntentService.intentOf db agent req)
      else .ok (IntentService.recordUnevaluated (db.withVersion row events) P S agent now
        (IntentService.intentOf db agent req) "unrecognized_action") := by
    rw [← hactions]
    rfl
  rw [Db.outcome, Db.outcome, hsame, IntentService.submitIntent]
  repeat' split
  all_goals first | rfl | exact evaluateAndRecord_outcome P S agent now opa hdraft hkeys _

end Decisions

/-! ## What an edit and a rollback add -/

section Executions

variable {ι : Type} [DecidableEq ι] {H : Host} {s t u : Store ι} {i : ι} {key : Uuid}
  {o : Option Uuid} {row r : RuntimePolicyRecord} {version : ℕ}

/-- `t` is what `s` is, but for events and for what has been read. -/
structure Kept (i : ι) (s t : Store ι) : Prop where
  opa : t.opa = s.opa
  idle : t.pending i = none
  db : ∃ events, t.db = { s.db with lifecycleEvents := events }

/-- A version has been added, and nothing else but events. -/
structure Added (i : ι) (row : RuntimePolicyRecord) (s t : Store ι) : Prop where
  opa : t.opa = s.opa
  idle : t.pending i = none
  db : ∃ events, t.db = s.db.withVersion row events
  fresh : ∀ r ∈ s.db.records, r.ident ≠ row.ident

omit [DecidableEq ι] in
theorem Kept.refl (hidle : s.pending i = none) : Kept i s s := ⟨rfl, hidle, s.db.lifecycleEvents, rfl⟩

omit [DecidableEq ι] in
theorem Kept.trans (h : Kept i s t) (h' : Kept i t u) : Kept i s u := by
  obtain ⟨events, hdb⟩ := h.db
  obtain ⟨events', hdb'⟩ := h'.db
  exact ⟨h'.opa.trans h.opa, h'.idle, events', by rw [hdb', hdb]⟩

omit [DecidableEq ι] in
theorem Kept.records (h : Kept i s t) : t.db.records = s.db.records := by
  obtain ⟨events, hdb⟩ := h.db
  rw [hdb]

omit [DecidableEq ι] in
theorem Kept.added (h : Kept i s t) (h' : Added i row t u) : Added i row s u := by
  obtain ⟨events, hdb⟩ := h.db
  obtain ⟨events', hdb'⟩ := h'.db
  refine ⟨h'.opa.trans h.opa, h'.idle, ⟨events', by rw [hdb', hdb]; rfl⟩, ?_⟩
  rw [← h.records]
  exact h'.fresh

omit [DecidableEq ι] in
theorem Added.kept (h : Added i row s t) (h' : Kept i t u) : Added i row s u := by
  obtain ⟨events, hdb⟩ := h.db
  obtain ⟨events', hdb'⟩ := h'.db
  exact ⟨h'.opa.trans h.opa, h'.idle, ⟨events', by rw [hdb', hdb]; rfl⟩, h.fresh⟩

theorem exec_select_cases {q : Select} {x : Except PyError q.Answer}
    (h : Exec (machine H ι) i (Service.select q) s x t) (hidle : s.pending i = none) :
    Kept i s t ∧ ∀ a, x = .ok a → a = q.run H.toPlatform s.db := by
  rcases Exec.send_cases h with ⟨rfl, rfl⟩ | ⟨rfl, rfl⟩
  · exact ⟨⟨rfl, hidle, _, rfl⟩, fun a ha => (Except.ok.inj ha).symm⟩
  · exact ⟨.refl hidle, fun _ hrow => by cases hrow⟩

/-- A commit of one write does it, or nothing. -/
theorem exec_commit_cases {w : Write} {x : Except PyError Unit}
    (h : Exec (machine H ι) i (Service.commit [w]) s x t) (hidle : s.pending i = none) :
    x = .ok () ∧ s.db.refuses w = false ∧ t.opa = s.opa ∧ t.pending i = none ∧
      t.db = s.db.write w ∨ (∃ e, x = .error e) ∧ t = s := by
  rcases Exec.send_cases h with hsent | ⟨rfl, rfl⟩
  · split at hsent
    · exact .inr ⟨⟨_, hsent.1⟩, hsent.2⟩
    · next hrefuses =>
      obtain ⟨rfl, rfl⟩ := hsent
      obtain ⟨hdb, hidle'⟩ := Store.commit_one hidle w
      exact .inl ⟨rfl, by simpa using hrefuses, Store.commit_opa .., hidle', hdb⟩
  · exact .inr ⟨⟨_, rfl⟩, rfl⟩

theorem exec_event_cases {event : LifecycleEvent} {x : Except PyError Unit}
    (h : Exec (machine H ι) i (recordLifecycleEvent event) s x t) (hidle : s.pending i = none) :
    Kept i s t := by
  unfold recordLifecycleEvent at h
  rcases Exec.tryCatch_cases h with ⟨_, rfl, hcommit⟩ | ⟨e, v, hcommit, hrollback⟩
  · rcases exec_commit_cases hcommit hidle with ⟨-, -, hopa, hidle', hdb⟩ | ⟨⟨e, he⟩, -⟩
    · exact ⟨hopa, hidle', _, hdb⟩
    · cases he
  · rcases exec_commit_cases hcommit hidle with ⟨he, -⟩ | ⟨-, rfl⟩
    · cases he
    · obtain ⟨-, rfl⟩ := Exec.send_cases hrollback
      exact ⟨rfl, Function.update_self .., _, rfl⟩

theorem exec_getLatest_cases {held : Option RuntimePolicyRecord} {x : Except PyError RuntimePolicyRecord}
    (h : Exec (machine H ι) i (getLatest key o held) s x t) (hs : s.db.Sound)
    (hidle : s.pending i = none) (hheld : ∀ q, held = some q → q ∈ s.db.records) :
    Kept i s t ∧ ∀ row, x = .ok row → s.db.latestVersionRow key o = some row := by
  unfold getLatest at h
  rcases Exec.bind_cases h with ⟨found, v, hselect, hrest⟩ | ⟨e, rfl, hselect⟩
  · obtain ⟨hkept, hfound⟩ := exec_select_cases hselect hidle
    have hfound := hfound found rfl
    cases found with
    | none =>
      cases hrest
      exact ⟨hkept, fun _ hrow => by cases hrow⟩
    | some q =>
      have hlatest : s.db.latestVersionRow key o = some q := hfound.symm
      have hsame : heldOr held q = q := by
        cases held with
        | none => rfl
        | some q' =>
          rw [heldOr]
          split
          · next hident =>
            exact hs.eq_of_ident (hheld q' rfl) (s.db.latestVersionRow_some hlatest).1 hident
          · rfl
      cases hrest
      refine ⟨hkept, fun row hrow => ?_⟩
      rw [← Except.ok.inj hrow, hsame]
      exact hlatest
  · exact ⟨(exec_select_cases hselect hidle).1, fun _ hrow => by cases hrow⟩

/-- A version that is looked up by its number. -/
theorem exec_refresh_cases {x : Except PyError RuntimePolicyRecord}
    (h : Exec (machine H ι) i (refresh key version o) s x t) (hidle : s.pending i = none) :
    Kept i s t ∧ ∀ row, x = .ok row → row.ident = (key, version) := by
  unfold refresh at h
  rcases Exec.bind_cases h with ⟨found, v, hselect, hrest⟩ | ⟨e, rfl, hselect⟩
  · obtain ⟨hkept, hfound⟩ := exec_select_cases hselect hidle
    have hfound := hfound found rfl
    cases found with
    | none =>
      cases hrest
      exact ⟨hkept, fun _ hrow => by cases hrow⟩
    | some q =>
      cases hrest
      obtain ⟨-, hkey, -, hversion⟩ := mem_of_versionRow hfound.symm
      exact ⟨hkept, fun row hrow => by rw [← Except.ok.inj hrow, ← hkey, ← hversion]; rfl⟩
  · exact ⟨(exec_select_cases hselect hidle).1, fun _ hrow => by cases hrow⟩

theorem exec_insertDraft_cases {eventType : LifecycleEventType} {x : Except PyError RuntimePolicyRecord}
    (h : Exec (machine H ι) i (insertDraft row eventType) s x t) (hidle : s.pending i = none) :
    Kept i s t ∧ (∃ e, x = .error e) ∨ Added i row s t ∧ ∀ r, x = .ok r → r.ident = row.ident := by
  unfold insertDraft at h
  rcases Exec.bind_cases h with ⟨_, v, hcommit, hrest⟩ | ⟨e, rfl, hcommit⟩
  · rcases exec_commit_cases hcommit hidle with ⟨-, hfresh, hopa, hidle', hdb⟩ | ⟨⟨e, he⟩, -⟩
    · right
      have hadded : Added i row s v := by
        refine ⟨hopa, hidle', ⟨_, hdb⟩, fun r hr hident => ?_⟩
        have hrefuses : s.db.refuses (.insertRecord row) = true :=
          List.any_eq_true.2 ⟨r, hr, decide_eq_true hident⟩
        rw [hfresh] at hrefuses
        cases hrefuses
      rcases Exec.bind_cases hrest with ⟨r, v', hrefresh, hrest⟩ | ⟨e, rfl, hrefresh⟩
      · obtain ⟨hkept, hident⟩ := exec_refresh_cases hrefresh hidle'
        rcases Exec.bind_cases hrest with ⟨_, v'', hevent, hrest⟩ | ⟨e, rfl, hevent⟩
        · cases hrest
          refine ⟨hadded.kept (hkept.trans (exec_event_cases hevent hkept.idle)), fun q hq => ?_⟩
          rw [← Except.ok.inj hq]
          exact hident r rfl
        · exact ⟨hadded.kept (hkept.trans (exec_event_cases hevent hkept.idle)),
            fun _ hrow => by cases hrow⟩
      · exact ⟨hadded.kept (exec_refresh_cases hrefresh hidle').1, fun _ hrow => by cases hrow⟩
    · cases he
  · rcases exec_commit_cases hcommit hidle with ⟨he, -⟩ | ⟨-, rfl⟩
    · cases he
    · exact .inl ⟨.refl hidle, e, rfl⟩

/-- A draft of a key, later than the other versions. -/
structure DraftOf (key : Uuid) (o : Option Uuid) (row : RuntimePolicyRecord) (db : Db) : Prop where
  newest : db.Newest row
  draft : row.status = .draft
  key_eq : row.policyKey = key
  org_eq : row.organizationId = o

theorem exec_editPolicy_cases {updated : RuntimePolicy} {held : Option RuntimePolicyRecord}
    {x : Except PyError RuntimePolicyRecord}
    (h : Exec (machine H ι) i (editPolicy key o updated held) s x t) (hs : s.db.Sound)
    (hidle : s.pending i = none) (hheld : ∀ q, held = some q → q ∈ s.db.records) :
    Kept i s t ∧ (∃ e, x = .error e) ∨
      ∃ row, DraftOf key o row s.db ∧ Added i row s t ∧ ∀ r, x = .ok r → r.ident = row.ident := by
  unfold editPolicy at h
  rcases Exec.bind_cases h with ⟨latest, v, hget, hrest⟩ | ⟨e, rfl, hget⟩
  · obtain ⟨hkept, hlatest⟩ := exec_getLatest_cases hget hs hidle hheld
    obtain ⟨-, -, horg, hmax⟩ := s.db.latestVersionRow_some (hlatest latest rfl)
    by_cases harchived : latest.status = .archived
    · rw [if_pos harchived] at hrest
      cases hrest
      exact .inl ⟨hkept, _, rfl⟩
    · rw [if_neg harchived] at hrest
      rcases exec_insertDraft_cases hrest hkept.idle with ⟨hkept', he⟩ | ⟨hadded, hident⟩
      · exact .inl ⟨hkept.trans hkept', he⟩
      · refine .inr ⟨draftRow key (latest.version + 1) updated latest.organizationId,
          ⟨fun r hr hkey ho => ?_, rfl, rfl, horg⟩, hkept.added hadded, hident⟩
        exact Nat.lt_succ_of_le (hmax r hr hkey (ho.trans horg))
  · exact .inl ⟨(exec_getLatest_cases hget hs hidle hheld).1, e, rfl⟩

/-- A transition of the version that has been added. -/
theorem Added.transition {c : RecordColumns} {event : LifecycleEvent}
    {x : Except PyError RuntimePolicyRecord} (h : Added i row s t) (hr : r.ident = row.ident)
    (hexec : Exec (machine H ι) i (RuntimePolicyService.transition r c event) t x u) :
    Added i row s u ∨ Added i (c.apply row) s u := by
  unfold RuntimePolicyService.transition at hexec
  rcases Exec.bind_cases hexec with ⟨_, v, hcommit, hrest⟩ | ⟨e, rfl, hcommit⟩
  · rcases exec_commit_cases hcommit h.idle with ⟨-, -, hopa, hidle, hdb⟩ | ⟨⟨e, he⟩, -⟩
    · right
      obtain ⟨events, hadded⟩ := h.db
      have hupdated : Added i (c.apply row) s v := by
        refine ⟨hopa.trans h.opa, hidle, ⟨events, ?_⟩, h.fresh⟩
        have hrow : (r.policyKey, r.version) = row.ident := hr
        have hold : (s.db.records.map fun q =>
            if q.ident = (r.policyKey, r.version) then c.apply q else q) = s.db.records := by
          refine (List.map_congr_left fun q hq => ?_).trans (List.map_id _)
          rw [hrow, if_neg (h.fresh q hq)]
          rfl
        rw [hdb, hadded]
        show ({ s.db with records := _, lifecycleEvents := events } : Db) = _
        rw [Db.withVersion, Db.withVersion, List.map_append, hold, List.map_singleton, hrow, if_pos rfl]
      rcases Exec.bind_cases hrest with ⟨r', v', hrefresh, hrest⟩ | ⟨e, rfl, hrefresh⟩
      · obtain ⟨hkept, -⟩ := exec_refresh_cases hrefresh hidle
        rcases Exec.bind_cases hrest with ⟨_, v'', hevent, hrest⟩ | ⟨e, rfl, hevent⟩
        · cases hrest
          exact hupdated.kept (hkept.trans (exec_event_cases hevent hkept.idle))
        · exact hupdated.kept (hkept.trans (exec_event_cases hevent hkept.idle))
      · exact hupdated.kept (exec_refresh_cases hrefresh hidle).1
    · cases he
  · rcases exec_commit_cases hcommit h.idle with ⟨he, -⟩ | ⟨-, rfl⟩
    · cases he
    · exact .inl h

theorem exec_getVersion_cases {x : Except PyError RuntimePolicyRecord}
    (h : Exec (machine H ι) i (getVersion key version o) s x t) (hidle : s.pending i = none) :
    Kept i s t ∧ ∀ row, x = .ok row → row ∈ s.db.records := by
  unfold getVersion at h
  rcases Exec.bind_cases h with ⟨found, v, hselect, hrest⟩ | ⟨e, rfl, hselect⟩
  · obtain ⟨hkept, hfound⟩ := exec_select_cases hselect hidle
    have hfound := hfound found rfl
    cases found with
    | none =>
      cases hrest
      exact ⟨hkept, fun _ hrow => by cases hrow⟩
    | some q =>
      cases hrest
      exact ⟨hkept, fun row hrow => Except.ok.inj hrow ▸ (mem_of_versionRow hfound.symm).1⟩
  · exact ⟨(exec_select_cases hselect hidle).1, fun _ hrow => by cases hrow⟩

omit [DecidableEq ι] in
theorem Kept.sound (h : Kept i s t) (hs : s.db.Sound) : t.db.Sound := by
  obtain ⟨events, hdb⟩ := h.db
  rw [hdb]
  exact hs.of_eq rfl rfl

omit [DecidableEq ι] in
theorem DraftOf.kept (h : DraftOf key o row t.db) (hkept : Kept i s t) : DraftOf key o row s.db := by
  refine ⟨?_, h.draft, h.key_eq, h.org_eq⟩
  have hnewest := h.newest
  rw [Db.Newest, hkept.records] at hnewest
  exact hnewest

theorem exec_rollbackPolicy_cases {actor : String} {reason : Option String} {now : Timestamp}
    {x : Except PyError RuntimePolicyRecord}
    (h : Exec (machine H ι) i (rollbackPolicy key o version actor reason now) s x t)
    (hs : s.db.Sound) (hidle : s.pending i = none) :
    Kept i s t ∨ ∃ row, DraftOf key o row s.db ∧ Added i row s t := by
  unfold rollbackPolicy at h
  rcases Exec.bind_cases h with ⟨target, u, hget, hrest⟩ | ⟨e, rfl, hget⟩
  · obtain ⟨hkept, htarget⟩ := exec_getVersion_cases hget hidle
    have htarget := htarget target rfl
    by_cases hguard : (target.activatedAt.isNone && decide (target.status ≠ .active)) = true
    · rw [if_pos hguard] at hrest
      cases hrest
      exact .inl hkept
    rw [if_neg hguard] at hrest
    have hheld : ∀ q, some target = some q → q ∈ u.db.records := by
      intro q hq
      rw [← Option.some.inj hq, hkept.records]
      exact htarget
    rcases Exec.bind_cases hrest with ⟨latest, v, hget', hrest⟩ | ⟨e, rfl, hget'⟩
    · obtain ⟨hkept', hlatest⟩ := exec_getLatest_cases hget' (hkept.sound hs) hkept.idle hheld
      have hv := hkept.trans hkept'
      have hlatest := (u.db.latestVersionRow_some (hlatest latest rfl)).1
      by_cases harchived : latest.status = .archived
      · rw [if_pos harchived] at hrest
        cases hrest
        exact .inl hv
      rw [if_neg harchived] at hrest
      have hheld' : ∀ q, some latest = some q → q ∈ v.db.records := by
        intro q hq
        rw [← Option.some.inj hq, hkept'.records]
        exact hlatest
      rcases Exec.bind_cases hrest with ⟨r, w, hedit, htransition⟩ | ⟨e, rfl, hedit⟩
      · rcases exec_editPolicy_cases hedit (hv.sound hs) hv.idle hheld' with
          ⟨-, e, he⟩ | ⟨row, hdraft, hadded, hident⟩
        · cases he
        · have hdraft := hdraft.kept hv
          rcases (hv.added hadded).transition (hident r rfl) htransition with hadded | hadded
          · exact .inr ⟨row, hdraft, hadded⟩
          · exact .inr ⟨({ rollbackOfVersion := some version } : RecordColumns).apply row,
              ⟨hdraft.newest, hdraft.draft, hdraft.key_eq, hdraft.org_eq⟩, hadded⟩
      · rcases exec_editPolicy_cases hedit (hv.sound hs) hv.idle hheld' with
          ⟨hkept'', -⟩ | ⟨row, hdraft, hadded, -⟩
        · exact .inl (hv.trans hkept'')
        · exact .inr ⟨row, hdraft.kept hv, hv.added hadded⟩
    · exact .inl (hkept.trans (exec_getLatest_cases hget' (hkept.sound hs) hkept.idle hheld).1)
  · exact .inl (exec_getVersion_cases hget hidle).1

/-! ## Main result -/

/-- Decisions are made as before: by the same module and row of `policies`, with the same fact keys, the
same actions recognised and the same authority overdue, and with the same outcomes. -/
structure SameDecisions (H : Host) (s t : Store ι) : Prop where
  opa : t.opa = s.opa
  policies : t.db.policies = s.db.policies
  keys : ∀ o, t.db.listEnterpriseKnowledgeKeys o = s.db.listEnterpriseKnowledgeKeys o
  actions : ∀ o action, Db.isRecognizedScope action (t.db.listActiveScopeActions o) =
    Db.isRecognizedScope action (s.db.listActiveScopeActions o)
  overdue : ∀ keys now, t.db.findExpiredHighRiskAuthority H.toPlatform keys now =
    s.db.findExpiredHighRiskAuthority H.toPlatform keys now
  outcome : ∀ agent now req,
    t.db.outcome H.toPlatform H.signer agent now (fun o => H.opa (t.opa o)) req =
      s.db.outcome H.toPlatform H.signer agent now (fun o => H.opa (s.opa o)) req

/-- The calls that add a draft to the versions of a key. -/
inductive DraftCall (key : Uuid) (o : Option Uuid) : Service RuntimePolicyRecord → Prop
  | edit (updated : RuntimePolicy) : DraftCall key o (editPolicy key o updated)
  | rollback (version : ℕ) (actor : String) (reason : Option String) (now : Timestamp) :
      DraftCall key o (rollbackPolicy key o version actor reason now)

/-- **Drafts and enforcement.** In every state reached, a call that adds a draft leaves the decisions as
they were if and only if the key is spared. -/
theorem draftEdits {w : World Statement Statement.Answer PyError (Store ι) ι}
    (h : Reach (machine H ι) (programs H.toPlatform Set.univ) Store.Fresh w) (hi : w.running i = none)
    {p : Service RuntimePolicyRecord} (hp : DraftCall key o p) {x : Except PyError RuntimePolicyRecord}
    (hexec : Exec (machine H ι) i p w.store x t) (hadds : t.db.records ≠ w.store.db.records) :
    SameDecisions H w.store t ↔ w.store.db.spares key o = true := by
  obtain ⟨hinv, hlocal⟩ := h.sound (programs_keep False Set.univ) fun s hs => hs.start
  have hidle : w.store.pending i = none := by
    have := hlocal i
    rw [Logic.local, hi] at this
    exact this
  obtain ⟨row, hdraft, hadded⟩ : ∃ row, DraftOf key o row w.store.db ∧ Added i row w.store t := by
    cases hp with
    | edit updated =>
      rcases exec_editPolicy_cases hexec hinv.db hidle (by simp) with
        ⟨hkept, -⟩ | ⟨row, hdraft, hadded, -⟩
      · exact absurd hkept.records hadds
      · exact ⟨row, hdraft, hadded⟩
    | rollback version actor reason now =>
      rcases exec_rollbackPolicy_cases hexec hinv.db hidle with hkept | hdrafted
      · exact absurd hkept.records hadds
      · exact hdrafted
  obtain ⟨events, hdb⟩ := hadded.db
  have hnot : row.status ≠ .active := by simp [hdraft.draft]
  have hiff := @Db.withVersion_iff_spares w.store.db row events hdraft.newest hnot
  rw [← hdraft.key_eq, ← hdraft.org_eq, ← hiff]
  constructor
  · intro hsame
    exact ⟨hdb ▸ hsame.keys, hdb ▸ hsame.actions⟩
  · rintro ⟨hkeys, hactions⟩
    refine ⟨hadded.opa, by rw [hdb]; rfl, by rwa [hdb], by rwa [hdb], fun keys now => ?_, ?_⟩
    · rw [hdb]
      simp only [Db.findExpiredHighRiskAuthority, Db.matchedPolicy_withVersion H.toPlatform hnot]
    · intro agent now req
      rw [hdb, hadded.opa]
      exact outcome_withVersion H.toPlatform H.signer agent now _ hnot hkeys hactions req

end Executions

/-! ### An edit of the only policy of an action -/

/-- An OPA that allows whatever it has a module for. -/
def allowingHost : Host :=
  { sampleHost with
    opa := fun source _ => .response 200 (source.map fun _ => .obj [("result", .obj
      [("allow", .bool true), ("evaluated_mandates", .arr [.str "1"])])]) }

/-- An organization with one principal. -/
def onePrincipal : Store (Fin 1) :=
  { Store.empty (Fin 1) with
    db := { principals := [{ id := 1, name := "ops", organizationId := some 7 }] } }

/-- A policy of the principal, for one action, is deployed. -/
def deployedFor (action : String) : World Statement Statement.Answer PyError (Store (Fin 1)) (Fin 1) :=
  (Store.schedule allowingHost).perform 64
    ((author 1 { samplePolicy "1" "ops" with scope := ⟨"ops", action, none, none⟩ } (some 7) ++
      [Operation.deployPolicy 1 (some 7) 3]).map fun op : Operation =>
        (client, op.program allowingHost.toPlatform))
    ⟨onePrincipal, fun _ => none⟩

theorem deployedFor_reach (action : String) :
    Reach (machine allowingHost (Fin 1)) (programs allowingHost.toPlatform Set.univ) Store.Fresh
      (deployedFor action) := by
  refine Schedule.perform_reach (.init ?_) fun p hp => ?_
  · exact ⟨rfl, rfl, rfl, fun _ => rfl, fun _ => rfl, fun _ => rfl, fun _ => rfl⟩
  · obtain ⟨op, -, rfl⟩ := List.mem_map.1 hp
    exact ⟨op, trivial, rfl⟩

/-- And edited. -/
def editedFor (action : String) : Option (Except PyError RuntimePolicyRecord × Store (Fin 1)) :=
  (Store.schedule allowingHost).exec client 64 (editPolicy 1 (some 7) (samplePolicy "1" "ops"))
    (deployedFor action).store

def draftingAgent : Agent := ⟨5, 1, .active⟩

def draftRequest (action : String) : IntentRequest where
  action
  amount := none
  currency := none
  counterparty := none
  context := []
  requestedAt := 4
  nonce := "n"

/-- What the request is decided to be. -/
def draftOutcome (s : Store (Fin 1)) (action : String) : Option Outcome :=
  (s.db.outcome allowingHost.toPlatform allowingHost.signer draftingAgent 4 (fun o => allowingHost.opa (s.opa o))
    (draftRequest action)).toOption

theorem exists_edited {action : String} {outcome : Outcome}
    (h : (editedFor action).any (fun e => e.2.db.records.length = 2 ∧
      draftOutcome e.2 action = some outcome) = true) :
    ∃ x t, Exec (machine allowingHost (Fin 1)) client
        (editPolicy 1 (some 7) (samplePolicy "1" "ops")) (deployedFor action).store x t ∧
      t.db.records.length = 2 ∧ draftOutcome t action = some outcome := by
  obtain ⟨⟨x, t⟩, hexec, h⟩ := (Option.any_eq_true _ _).1 h
  obtain ⟨hlength, houtcome⟩ := of_decide_eq_true h
  exact ⟨x, t, Schedule.exec_sound hexec, hlength, houtcome⟩

/-- The action is one of the known ones, and no facts are asked for. -/
theorem draftEdits_transfer : ∃ x t,
    Exec (machine allowingHost (Fin 1)) client (editPolicy 1 (some 7) (samplePolicy "1" "ops"))
      (deployedFor "wire_transfer").store x t ∧
    SameDecisions allowingHost (deployedFor "wire_transfer").store t := by
  have hedited : (editedFor "wire_transfer").any (fun e => e.2.db.records.length = 2 ∧
      draftOutcome e.2 "wire_transfer" = some .allow) = true := by
    decide +kernel
  have hlength : (deployedFor "wire_transfer").store.db.records.length = 1 := by decide +kernel
  have hspares : (deployedFor "wire_transfer").store.db.spares 1 (some 7) = true := by decide +kernel
  have hidle : ((deployedFor "wire_transfer").running client).isNone = true := by decide +kernel
  obtain ⟨x, t, hexec, htwo, -⟩ := exists_edited hedited
  refine ⟨x, t, hexec, (draftEdits (deployedFor_reach _) (Option.isNone_iff_eq_none.1 hidle)
    (.edit _) hexec fun heq => ?_).2 hspares⟩
  rw [heq, hlength] at htwo
  cases htwo

/-- The action is recognised only for the policy that is edited. -/
theorem draftEdits_unrecognized : Reach (machine allowingHost (Fin 1))
      (programs allowingHost.toPlatform Set.univ) Store.Fresh (deployedFor "disable_user") ∧ ∃ x t,
    Exec (machine allowingHost (Fin 1)) client (editPolicy 1 (some 7) (samplePolicy "1" "ops"))
      (deployedFor "disable_user").store x t ∧
    draftOutcome (deployedFor "disable_user").store "disable_user" = some .allow ∧
    draftOutcome t "disable_user" = some .humanReview ∧
    ¬ SameDecisions allowingHost (deployedFor "disable_user").store t := by
  have hedited : (editedFor "disable_user").any (fun e => e.2.db.records.length = 2 ∧
      draftOutcome e.2 "disable_user" = some .humanReview) = true := by
    decide +kernel
  have hbefore : draftOutcome (deployedFor "disable_user").store "disable_user" = some .allow := by
    decide +kernel
  obtain ⟨x, t, hexec, -, hafter⟩ := exists_edited hedited
  refine ⟨deployedFor_reach _, x, t, hexec, hbefore, hafter, fun hsame => ?_⟩
  have hkept : draftOutcome t "disable_user" =
      draftOutcome (deployedFor "disable_user").store "disable_user" :=
    congrArg Except.toOption (hsame.outcome draftingAgent 4 (draftRequest "disable_user"))
  rw [hafter, hbefore] at hkept
  cases hkept

end PayReality
