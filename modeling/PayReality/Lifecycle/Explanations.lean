import PayReality.Decision.ExplanationService
import PayReality.Lib.Since
import PayReality.Lifecycle.Authoring
import PayReality.Lifecycle.VersionPinning

/-!
# Explanations outlive the policies

A decision is explained from rows that are older than the question. Versions are edited, deployed, retired and
rolled back in between, and other intents are submitted. None of it removes what an explanation reads: a deploy
retires the row of `policies` that a decision pins, and leaves what it lists.

* `Recorded.Linked`: what a submission records hangs together.
* `Store.step_persists`, `Db.Decided.step`: what one statement leaves, and keeps.

**Main results** `explanation_lasts`, `explained_iff`.
-/

namespace PayReality

open Program DecisionExplanationService

/-! ## Submissions -/

/-- What a submission records hangs together, and refers to what is there. -/
structure Recorded.Linked (r : Recorded) (db : Db) : Prop where
  id : r.decision.id = db.nextId + 1
  intent : r.decision.intentId = r.intent.id
  evidence : r.evidence.decisionId = r.decision.id
  bundle : ∀ v, r.decision.policyId = some v → ∃ p ∈ db.policies, p.version = v
  matched : ∃ ids, matchedIds r.decision.evaluatedMandates = .ok ids

/-- What a submission takes for the keys of policies can be listed again. -/
theorem matchedIds_of_policyKeys {v : Json} {keys : List String}
    (h : IntentService.policyKeysOf v = .ok keys) : ∃ ids, matchedIds v = .ok ids := by
  cases v with
  | arr xs =>
    have hkeys : xs.mapM IntentService.keyText = .ok keys := h
    refine ⟨xs, if_pos (List.all_eq_true.2 fun x hx => ?_)⟩
    obtain ⟨key, -, hkey⟩ := mapM_ok_mem hkeys hx
    cases x <;> first | rfl | cases hkey
  | str s => exact ⟨_, rfl⟩
  | obj kvs => exact ⟨_, rfl⟩
  | null | bool b | int n | float q => cases h

section

variable {db : Db} {P : Platform} {S : Signer} {opa : Option Uuid → Json → OpaReply} {agent : Agent}
  {now : Timestamp} {req : IntentRequest} {r : Recorded}

theorem submitIntent_linked (h : IntentService.submitIntent db P S agent now opa req = .ok r) :
    r.Linked db := by
  have hbundle : ∀ v, r.decision.policyId = some v → ∃ p ∈ db.policies, p.version = v := by
    intro v hv
    rcases submitIntent_pins h with hnone | ⟨p, hp, hpinned, -⟩
    · rw [hnone.1] at hv
      cases hv
    · rw [hpinned] at hv
      cases hv
      exact ⟨p, List.mem_of_find?_eq_some hp, rfl⟩
  rcases submitIntent_ok h with ⟨reason, rfl⟩ | ⟨-, -, -, h⟩
  · exact ⟨rfl, rfl, rfl, hbundle, [], rfl⟩
  · obtain ⟨d, -, h⟩ := bind_ok.1 h
    obtain ⟨keys, hkeys, h⟩ := bind_ok.1 h
    cases h
    exact ⟨rfl, rfl, rfl, hbundle, matchedIds_of_policyKeys hkeys⟩

/-- The ids of decisions have been given out. -/
def Db.Numbered (db : Db) : Prop := ∀ d ∈ db.decisions, d.id < db.nextId

/-- A submission is recorded under new ids. -/
theorem Recorded.Linked.persists (h : r.Linked db) (hn : db.Numbered) :
    db.PersistsIn (IntentService.record db r) ∧ (IntentService.record db r).Numbered := by
  refine ⟨⟨List.Subset.refl _, List.prefix_rfl, List.prefix_append _ _, List.prefix_append _ _,
    [r.evidence], rfl, fun e he d hd => ?_⟩, fun d hd => ?_⟩
  · rw [List.mem_singleton.1 he, h.evidence, h.id]
    exact Nat.ne_of_gt (Nat.lt_succ_of_lt (hn d hd))
  · show d.id < db.nextId + 3
    rcases List.mem_append.1 hd with hd | hd
    · exact Nat.lt_add_right 3 (hn d hd)
    · rw [List.mem_singleton.1 hd, h.id]
      exact Nat.add_lt_add_left (by decide) _

end

/-! ## Commits -/

theorem Db.foldl_write_rows (ws : List Write) (db : Db) :
    (ws.foldl Db.write db).decisions = db.decisions ∧ (ws.foldl Db.write db).intents = db.intents ∧
      (ws.foldl Db.write db).evidence = db.evidence ∧ (ws.foldl Db.write db).nextId = db.nextId := by
  induction ws generalizing db with
  | nil => exact ⟨rfl, rfl, rfl, rfl⟩
  | cons w ws ih =>
    obtain ⟨hd, hi, he, hn⟩ := ih (db.write w)
    rw [List.foldl_cons, hd, hi, he, hn]
    cases w <;> exact ⟨rfl, rfl, rfl, rfl⟩

/-- A commit leaves the rows of decisions alone. -/
theorem Db.commit_rows (db : Db) (p : Option Pending) (ws : List Write) :
    (db.commit p ws).decisions = db.decisions ∧ (db.commit p ws).intents = db.intents ∧
      (db.commit p ws).evidence = db.evidence ∧ (db.commit p ws).nextId = db.nextId := by
  obtain ⟨hd, hi, he, hn⟩ := Db.foldl_write_rows ws (db.land p)
  rw [Db.commit, hd, hi, he, hn]
  cases p <;> exact ⟨rfl, rfl, rfl, rfl⟩

theorem Db.retirePolicy_lasting (prior : Option ℕ) (retiredAt : Option Timestamp) (p : PolicyRow) :
    (Db.retirePolicy prior retiredAt p).lasting = p.lasting := by
  unfold Db.retirePolicy
  split <;> rfl

/-- A commit retires rows of `policies`, and adds one. -/
theorem Db.commit_lasting (db : Db) (p : Option Pending) (ws : List Write) :
    db.policies.map PolicyRow.lasting <+: (db.commit p ws).policies.map PolicyRow.lasting := by
  rw [Db.commit_policies]
  cases p with
  | none => exact List.prefix_rfl
  | some p =>
    have hsame : (db.policies.map (Db.retirePolicy p.prior p.row.activatedAt)).map PolicyRow.lasting =
        db.policies.map PolicyRow.lasting := by
      rw [List.map_map]
      exact List.map_congr_left fun q _ => Db.retirePolicy_lasting _ _ q
    rw [Db.land, List.map_append, hsame]
    exact List.prefix_append _ _

/-! ## Statements -/

variable {ι : Type} [DecidableEq ι] {T : Terms ι} {H : Host} {s t : Store ι} {i : ι} {q : Statement}
  {r : Except PyError q.Answer}

/-- Only commits and submissions change the database. -/
theorem Store.step_db (h : Store.step H i q s r t) (hcommit : ∀ ws, q ≠ .commit ws)
    (hsubmit : ∀ agent req now, q ≠ .submitIntent agent req now) : t.db = s.db := by
  cases q with
  | commit ws => exact absurd rfl (hcommit ws)
  | submitIntent agent req now => exact absurd rfl (hsubmit agent req now)
  | select q => rcases h with ⟨-, rfl⟩ | ⟨-, rfl⟩ <;> rfl
  | uuid4 =>
    obtain ⟨-, -, rfl⟩ := h
    rfl
  | flushPolicy prior row =>
    rcases h with ⟨-, h⟩ | ⟨-, rfl⟩
    · split at h <;> obtain ⟨-, rfl⟩ := h <;> rfl
    · rfl
  | flushMandate m => rcases h with ⟨-, rfl⟩ | ⟨-, rfl⟩ | ⟨-, rfl⟩ <;> rfl
  | rollback =>
    obtain ⟨-, rfl⟩ := h
    rfl
  | uploadPolicy o source | deletePolicy o =>
    rcases h with ⟨-, rfl⟩ | ⟨-, rfl | rfl⟩
    · unfold Store.load
      split <;> rfl
    · rfl
    · rfl

/-- A submission is recorded, or leaves the database as it is. -/
theorem Store.step_submitIntent {agent : Agent} {req : IntentRequest} {now : Timestamp}
    {r : Except PyError Recorded} (h : Store.step H i (.submitIntent agent req now) s r t) :
    t.db = s.db ∨ ∃ recorded : Recorded, recorded.Linked s.db ∧
      t.db = IntentService.record s.db recorded := by
  rcases h with ⟨-, rfl⟩ | ⟨-, rfl⟩
  · cases hsubmit : IntentService.submitIntent s.db H.toPlatform H.signer agent now
      (fun o => H.opa (s.opa o)) req with
    | error e =>
      left
      show IntentService.submit .. = _
      rw [IntentService.submit, hsubmit]
    | ok recorded =>
      right
      refine ⟨recorded, submitIntent_linked hsubmit, ?_⟩
      show IntentService.submit .. = _
      rw [IntentService.submit, hsubmit]
  · exact .inl rfl

/-- **What one statement leaves.** -/
theorem Store.step_persists (hinv : Inv T s) (hpre : Pre T H i q s) (h : Store.step H i q s r t)
    (hn : s.db.Numbered) : s.db.PersistsIn t.db ∧ t.db.Numbered := by
  have hcores := hinv.cores_step hpre h
  cases q with
  | commit ws =>
    rcases Store.step_commit h with rfl | ⟨-, -, rfl⟩
    · exact ⟨.refl _, hn⟩
    rw [Store.commit_db] at hcores ⊢
    obtain ⟨hd, hi, he, hnext⟩ := Db.commit_rows s.db (s.pending i) ws
    refine ⟨⟨hcores, Db.commit_lasting .., ?_, ?_, [], ?_, by simp⟩, fun d hmem => ?_⟩
    · rw [hi]
    · rw [hd]
    · rw [he, List.append_nil]
    · rw [hd] at hmem
      rw [hnext]
      exact hn d hmem
  | submitIntent agent req now =>
    rcases Store.step_submitIntent h with heq | ⟨recorded, hlinked, heq⟩
    · rw [heq]
      exact ⟨.refl _, hn⟩
    · rw [heq]
      exact hlinked.persists hn
  | _ =>
    rw [Store.step_db h (by simp) (by simp)]
    exact ⟨.refl _, hn⟩

/-! ## Runs -/

/-- A fresh store, with what has been decided there before. -/
structure Store.Opened (s : Store ι) : Prop extends s.Fresh where
  numbered : s.db.Numbered

section

variable {w w' : World Statement Statement.Answer PyError (Store ι) ι}

/-- What the later one of two worlds of a run has of the earlier one. -/
theorem persistsIn_of_run (h : Reach (machine H ι) (programs H.toPlatform Set.univ) Store.Opened w)
    (hlater : Relation.ReflTransGen (Step (machine H ι) (programs H.toPlatform Set.univ)) w w') :
    w.store.db.PersistsIn w'.store.db ∧ w'.store.db.Sound := by
  have hkeep := programs_keep (ι := ι) (H := H) False Set.univ
  have hsound := fun {v} (hv : Reach (machine H ι) (programs H.toPlatform Set.univ) Store.Opened v) =>
    hv.sound hkeep fun s hs => hs.toFresh.start
  have hstep : ∀ {v v' : World Statement Statement.Answer PyError (Store ι) ι},
      Reach (machine H ι) (programs H.toPlatform Set.univ) Store.Opened v →
      Step (machine H ι) (programs H.toPlatform Set.univ) v v' → v.store.db.Numbered →
      v.store.db.PersistsIn v'.store.db ∧ v'.store.db.Numbered := by
    intro v v' hv hvv' hn
    obtain ⟨hinv, hlocal⟩ := hsound hv
    obtain ⟨-, -, hsame | ⟨i, q, r, hpre, hq⟩⟩ := hvv'.sound hkeep hinv hlocal
    · rw [hsame]
      exact ⟨.refl _, hn⟩
    · exact Store.step_persists hinv hpre hq hn
  have hnumbered : ∀ {v : World Statement Statement.Answer PyError (Store ι) ι},
      Reach (machine H ι) (programs H.toPlatform Set.univ) Store.Opened v → v.store.db.Numbered := by
    intro v hv
    induction hv with
    | init hs => exact hs.numbered
    | step hv hvv' ih => exact (hstep hv hvv' ih).2
  have hreach : Reach (machine H ι) (programs H.toPlatform Set.univ) Store.Opened w' ∧
      w.store.db.PersistsIn w'.store.db := by
    induction hlater with
    | refl => exact ⟨h, .refl _⟩
    | tail _ hvv' ih => exact ⟨ih.1.step hvv', ih.2.trans (hstep ih.1 hvv' (hnumbered ih.1)).1⟩
  exact ⟨hreach.2, (hsound hreach.1).1.db⟩

/-- **Explanations last.** In every run of the services, once a decision can be explained: whatever is
authored, deployed, retired, rolled back and submitted later, in any order and with any failures, it is
explained the same, but for when its bundle was retired. -/
theorem explanation_lasts (h : Reach (machine H ι) (programs H.toPlatform Set.univ) Store.Opened w)
    (hlater : Relation.ReflTransGen (Step (machine H ι) (programs H.toPlatform Set.univ)) w w')
    {decisionId : Uuid} {organizationId : Option Uuid} {e : DecisionExplanation}
    (he : getDecisionExplanation H.toPlatform w.store.db decisionId organizationId = .ok e) :
    ∃ e', getDecisionExplanation H.toPlatform w'.store.db decisionId organizationId = .ok e' ∧
      e'.lasting = e.lasting := by
  obtain ⟨hpersists, hsound⟩ := persistsIn_of_run h hlater
  exact getDecisionExplanation_persists hpersists hsound he

end

/-! ### A payment before another deploy -/

/-- Operations performed on a store. -/
def performOn (s : Store (Fin 1)) (ops : List Operation) :
    World Statement Statement.Answer PyError (Store (Fin 1)) (Fin 1) :=
  (Store.schedule allowingHost).perform 64
    (ops.map fun op : Operation => (client, op.program allowingHost.toPlatform)) ⟨s, fun _ => none⟩

theorem performOn_reach {s : Store (Fin 1)} {init : Store (Fin 1) → Prop} (h : init s)
    (ops : List Operation) : Reach (machine allowingHost (Fin 1))
      (programs allowingHost.toPlatform Set.univ) init (performOn s ops) := by
  refine Schedule.perform_reach (.init h) fun p hp => ?_
  obtain ⟨op, -, rfl⟩ := List.mem_map.1 hp
  exact ⟨op, trivial, rfl⟩

theorem performOn_later (s : Store (Fin 1)) (ops : List Operation) :
    Relation.ReflTransGen (Step (machine allowingHost (Fin 1)) (programs allowingHost.toPlatform Set.univ))
      ⟨s, fun _ => none⟩ (performOn s ops) := by
  have hreach : Reach (machine allowingHost (Fin 1)) (programs allowingHost.toPlatform Set.univ)
      (fun s' => s' = s) (performOn s ops) := by
    apply performOn_reach
    rfl
  obtain ⟨s', hs', hlater⟩ := hreach.from_init
  rw [hs'] at hlater
  exact hlater

theorem eq_of_idle {w : World Statement Statement.Answer PyError (Store (Fin 1)) (Fin 1)}
    (h : w.running client = none) : w = ⟨w.store, fun _ => none⟩ := by
  have hrunning : w.running = fun _ => none := by
    funext i
    rw [Subsingleton.elim i client, h]
  rw [← hrunning]

/-- A policy is deployed, and a payment decided by it. -/
def paid : World Statement Statement.Answer PyError (Store (Fin 1)) (Fin 1) :=
  performOn onePrincipal (author 1 (samplePolicy "1" "ops") (some 7) ++
    [.deployPolicy 1 (some 7) 3, .submitIntent draftingAgent (draftRequest "vendor_payment") 4])

/-- Another one is deployed. -/
def redeployed : World Statement Statement.Answer PyError (Store (Fin 1)) (Fin 1) :=
  performOn paid.store (author 2 (samplePolicy "2" "sales") (some 7) ++ [.deployPolicy 2 (some 7) 5])

/-- What the payment is explained by. -/
def explainPaid (s : Store (Fin 1)) : Except Unexplained DecisionExplanation :=
  getDecisionExplanation allowingHost.toPlatform s.db 1 (some 7)

/-- The bundle is retired, and the payment is still explained by it. -/
theorem explanation_lasts_redeployed : ∃ e e', explainPaid paid.store = .ok e ∧
    e.causalPolicyId = some "1" ∧ e.retiredAt = none ∧
    explainPaid redeployed.store = .ok e' ∧ e'.lasting = e.lasting ∧ e'.retiredAt = some 5 := by
  have hrun : ((paid.running client).isNone &&
      (explainPaid paid.store).toOption.any (fun e => e.causalPolicyId = some "1" ∧ e.retiredAt = none) &&
      (explainPaid redeployed.store).toOption.any (fun e => e.retiredAt = some 5)) = true := by
    decide +kernel
  simp only [Bool.and_eq_true, Option.isNone_iff_eq_none] at hrun
  obtain ⟨⟨hidle, hpaid⟩, hredeployed⟩ := hrun
  have hworld : paid = ⟨paid.store, fun _ => none⟩ := eq_of_idle hidle
  have hopened : onePrincipal.Opened :=
    { toFresh := ⟨rfl, rfl, rfl, fun _ => rfl, fun _ => rfl, fun _ => rfl, fun _ => rfl⟩
      numbered := by simp [Db.Numbered, onePrincipal, Store.empty] }
  have hreach : Reach (machine allowingHost (Fin 1)) (programs allowingHost.toPlatform Set.univ) Store.Opened
      paid := performOn_reach hopened _
  have hlater : Relation.ReflTransGen
      (Step (machine allowingHost (Fin 1)) (programs allowingHost.toPlatform Set.univ)) paid redeployed := by
    rw [hworld]
    exact performOn_later _ _
  cases he : explainPaid paid.store with
  | error x =>
    rw [he] at hpaid
    cases hpaid
  | ok e =>
    rw [he] at hpaid
    obtain ⟨hcausal, hactive⟩ := of_decide_eq_true hpaid
    obtain ⟨e', he', hlasting⟩ := explanation_lasts hreach hlater he
    rw [show explainPaid redeployed.store = .ok e' from he'] at hredeployed
    exact ⟨e, e', rfl, hcausal, hactive, he', hlasting, of_decide_eq_true hredeployed⟩

/-! ## What can be explained -/

/-- What the rows of decisions refer to is there. -/
structure Db.Decided (db : Db) : Prop where
  numbered : db.Numbered
  ids : (db.decisions.map Decision.id).Nodup
  intents : ∀ d ∈ db.decisions, ∃ i ∈ db.intents, i.id = d.intentId
  evidence : ∀ d ∈ db.decisions, ∃ e ∈ db.evidence, e.decisionId = d.id
  bundles : ∀ d ∈ db.decisions, ∀ v, d.policyId = some v → ∃ p ∈ db.policies, p.version = v
  matched : ∀ d ∈ db.decisions, ∃ ids, matchedIds d.evaluatedMandates = .ok ids
  manifests : ∀ p ∈ db.policies, ∃ m, p.bundleManifest = some m ∧ m.policies ≠ []

theorem Db.Decided.record {db : Db} (hd : db.Decided) {recorded : Recorded} (h : recorded.Linked db) :
    (IntentService.record db recorded).Decided where
  numbered := (h.persists hd.numbered).2
  ids := by
    show ((db.decisions ++ [recorded.decision]).map Decision.id).Nodup
    rw [List.map_append, List.map_singleton]
    refine List.nodup_append.2 ⟨hd.ids, List.nodup_singleton _, fun id hid id' hid' heq => ?_⟩
    obtain ⟨d, hmem, rfl⟩ := List.mem_map.1 hid
    rw [List.mem_singleton.1 hid', h.id] at heq
    exact absurd heq (Nat.ne_of_lt (Nat.lt_succ_of_lt (hd.numbered d hmem)))
  intents d hmem := by
    rcases List.mem_append.1 hmem with hmem | hmem
    · obtain ⟨i, hi, hid⟩ := hd.intents d hmem
      exact ⟨i, List.mem_append_left _ hi, hid⟩
    · rw [List.mem_singleton.1 hmem]
      exact ⟨recorded.intent, List.mem_append_right _ List.mem_cons_self, h.intent.symm⟩
  evidence d hmem := by
    rcases List.mem_append.1 hmem with hmem | hmem
    · obtain ⟨e, he, hid⟩ := hd.evidence d hmem
      exact ⟨e, List.mem_append_left _ he, hid⟩
    · rw [List.mem_singleton.1 hmem]
      exact ⟨recorded.evidence, List.mem_append_right _ List.mem_cons_self, h.evidence⟩
  bundles d hmem v hv := by
    rcases List.mem_append.1 hmem with hmem | hmem
    · exact hd.bundles d hmem v hv
    · rw [List.mem_singleton.1 hmem] at hv
      exact h.bundle v hv
  matched d hmem := by
    rcases List.mem_append.1 hmem with hmem | hmem
    · exact hd.matched d hmem
    · rw [List.mem_singleton.1 hmem]
      exact h.matched
  manifests := hd.manifests

omit [DecidableEq ι] in
/-- The manifest of a deploy lists the version that is deployed. -/
theorem Deploys.listed {p : Pending} {row : RuntimePolicyRecord} {bundle : PolicyBundle}
    {replaced : Option RuntimePolicyRecord} {content : RuntimePolicy}
    (hd : Deploys T H i p row bundle replaced content s) : bundle.manifest.policies ≠ [] := by
  obtain ⟨db₀, now, -, ⟨errors, hcompile⟩, -⟩ := hd.compiled.others
  obtain ⟨-, -, -, hbuild⟩ := CompilerV2.compileBundle_ok hcompile
  obtain ⟨-, -, -, hmanifest, -⟩ := CompilerV2.buildBundle_ok hbuild
  rw [hmanifest, BundleBuilder.manifestOf, List.map_cons]
  exact List.cons_ne_nil _ _

/-- **Every statement keeps what decisions refer to.** -/
theorem Db.Decided.step (hd : s.db.Decided) (hinv : Inv T s) (hpre : Pre T H i q s)
    (h : Store.step H i q s r t) : t.db.Decided := by
  have hpersists := Store.step_persists hinv hpre h hd.numbered
  cases q with
  | commit ws =>
    rcases Store.step_commit h with rfl | ⟨-, -, rfl⟩
    · exact hd
    rw [Store.commit_db] at hpersists ⊢
    obtain ⟨hdecisions, hintents, hevidence, -⟩ := Db.commit_rows s.db (s.pending i) ws
    refine ⟨hpersists.2, ?_, ?_, ?_, fun d hmem v hv => ?_, ?_, fun p hp => ?_⟩
    · rw [hdecisions]
      exact hd.ids
    · rw [hdecisions, hintents]
      exact hd.intents
    · rw [hdecisions, hevidence]
      exact hd.evidence
    · rw [hdecisions] at hmem
      obtain ⟨p, hp, hversion⟩ := hd.bundles d hmem v hv
      obtain ⟨p', hp', hlasting⟩ := List.mem_map.1 (hpersists.1.policies.subset (List.mem_map_of_mem hp))
      have hsame := congrArg PolicyRow.version hlasting
      exact ⟨p', hp', hsame.trans hversion⟩
    · rw [hdecisions]
      exact hd.matched
    · rw [Db.commit_policies] at hp
      cases hpending : s.pending i with
      | none =>
        rw [hpending] at hp
        exact hd.manifests p hp
      | some p' =>
        rw [Pre, hpending] at hpre
        obtain ⟨row, bundle, replaced, content, -, hdeploys⟩ := hpre
        rw [hpending] at hp
        rcases List.mem_append.1 hp with hp | hp
        · obtain ⟨p₀, hp₀, rfl⟩ := List.mem_map.1 hp
          have hmanifest := congrArg PolicyRow.bundleManifest
            (Db.retirePolicy_lasting p'.prior p'.row.activatedAt p₀)
          obtain ⟨m, hm, hlists⟩ := hd.manifests p₀ hp₀
          exact ⟨m, hmanifest.trans hm, hlists⟩
        · rw [List.mem_singleton.1 hp]
          exact ⟨bundle.manifest, hdeploys.manifest, hdeploys.listed⟩
  | submitIntent agent req now =>
    rcases Store.step_submitIntent h with heq | ⟨recorded, hlinked, heq⟩
    · rw [heq]
      exact hd
    · rw [heq]
      exact hd.record hlinked
  | _ =>
    rw [Store.step_db h (by simp) (by simp)]
    exact hd

/-- OPA has been asked by a bundle of the organization, it has answered, and the evidence names the
principal. -/
structure Explicable (db : Db) (d : Decision) (o : Option Uuid) : Prop where
  pinned : ∃ p ∈ db.policies, d.policyId = some p.version ∧ p.organizationId = o
  evaluated : isUnevaluatedReason d.reason = false
  named : ∃ e, earliestEvidence db d.id = some e ∧ e.payload.principalName.getD "" ≠ ""

/-- There is one rule for each policy of the bundle, in the order of its manifest. -/
def DecisionExplanation.Covers (e : DecisionExplanation) (db : Db) : Prop :=
  ∃ p ∈ db.policies, p.version = e.policyId ∧ ∃ m, p.bundleManifest = some m ∧
    e.rules.map Explainer.RuleEvaluation.policyId = m.policies.map ManifestEntry.id

/-- How a request for the explanation of a decision is answered. -/
inductive ExplanationAnswers (db : Db) (d : Decision) (o : Option Uuid) :
    Except Unexplained DecisionExplanation → Prop
  /-- OPA was not asked: there was no bundle. -/
  | unasked (h : d.policyId = none) :
      ExplanationAnswers db d o (.error (.unavailable "no_policy_evaluated"))
  /-- OPA was asked, and did not answer. -/
  | unanswered {v : ℕ} (hv : d.policyId = some v) (h : isUnevaluatedReason d.reason = true) :
      ExplanationAnswers db d o (.error (.unavailable "evaluation_did_not_complete"))
  /-- The bundle is of another organization. -/
  | foreign {p : PolicyRow} (hp : p ∈ db.policies) (hv : d.policyId = some p.version)
      (h : isUnevaluatedReason d.reason = false) (ho : p.organizationId ≠ o) :
      ExplanationAnswers db d o (.error (.raised .crossOrganizationAccess))
  /-- The evidence does not name the principal. -/
  | unnamed {p : PolicyRow} {e : Evidence} (hp : p ∈ db.policies) (hv : d.policyId = some p.version)
      (h : isUnevaluatedReason d.reason = false) (ho : p.organizationId = o)
      (he : earliestEvidence db d.id = some e) (hname : e.payload.principalName.getD "" = "") :
      ExplanationAnswers db d o (.error (.unavailable "principal_not_resolved"))
  | explained {e : DecisionExplanation} (h : Explicable db d o) (he : e.Covers db) :
      ExplanationAnswers db d o (.ok e)

section

variable {db : Db} {P : Platform} {d : Decision} {o : Option Uuid}

theorem Db.Decided.find?_eq (hd : db.Decided) (hmem : d ∈ db.decisions) :
    db.decisions.find? (fun d' => d'.id = d.id) = some d :=
  find?_of_unique hmem (by simp) fun _ hd' hid =>
    List.inj_on_of_nodup_map hd.ids hd' hmem (of_decide_eq_true hid)

theorem Db.Sound.find?_eq (hs : db.Sound) {p : PolicyRow} (hp : p ∈ db.policies) :
    db.policies.find? (fun p' => p'.version = p.version) = some p :=
  find?_of_unique hp (by simp) fun _ hp' hversion =>
    List.inj_on_of_nodup_map hs.versions hp' hp (of_decide_eq_true hversion)

/-- A decision has its first evidence. -/
theorem Db.Decided.earliest (hd : db.Decided) (hmem : d ∈ db.decisions) :
    ∃ e, earliestEvidence db d.id = some e := by
  obtain ⟨e, he, hid⟩ := hd.evidence d hmem
  have hne : earliestEvidence db d.id ≠ none := by
    rw [earliestEvidence, ne_eq, List.head?_eq_none_iff]
    intro hnil
    have hlength := congrArg List.length hnil
    rw [List.length_insertionSort, List.length_nil, List.length_eq_zero_iff] at hlength
    have hfiltered : e ∈ db.evidence.filter fun e => e.decisionId = d.id :=
      List.mem_filter.2 ⟨he, decide_eq_true hid⟩
    rw [hlength] at hfiltered
    cases hfiltered
  exact Option.ne_none_iff_exists'.1 hne

/-- What is explained can be explained. -/
theorem explicable_of_explained (hmem : d ∈ db.decisions) (hd : db.Decided) {e : DecisionExplanation}
    (he : getDecisionExplanation P db d.id o = .ok e) : Explicable db d o := by
  obtain ⟨decision, hdecision, he⟩ := bind_ok.1 he
  obtain ⟨policyId, hpolicyId, he⟩ := bind_ok.1 he
  obtain ⟨_, hevaluated, he⟩ := bind_ok.1 he
  obtain ⟨policy, hpolicy, he⟩ := bind_ok.1 he
  obtain ⟨_, horg, he⟩ := bind_ok.1 he
  obtain ⟨_, -, he⟩ := bind_ok.1 he
  obtain ⟨evidence, hevidence, he⟩ := bind_ok.1 he
  obtain ⟨_, hprincipal, -⟩ := bind_ok.1 he
  rw [found_ok] at hdecision hpolicyId hpolicy hevidence
  have hid := List.find?_some hdecision
  have hversion := List.find?_some hpolicy
  simp only [decide_eq_true_eq] at hid hversion
  have hsame : decision = d :=
    List.inj_on_of_nodup_map hd.ids (List.mem_of_find?_eq_some hdecision) hmem hid
  subst hsame
  refine ⟨⟨policy, List.mem_of_find?_eq_some hpolicy, hversion ▸ hpolicyId, ?_⟩, ?_, evidence, hevidence,
    refuse_ok.1 hprincipal⟩
  · exact not_not.1 (refuse_ok.1 horg)
  · simpa using refuse_ok.1 hevaluated

/-- The version that an entry of a manifest is of is there, under the key that the entry gives. -/
theorem listedVersion_ok (hP : ∀ id, P.uuid (P.uuidText id) = some id)
    (hagrees : ∀ r ∈ db.records, r.Agrees P) {entry : ManifestEntry}
    (hentry : ∃ r ∈ db.records, entry = BundleBuilder.manifestEntry r.content) :
    ∃ r, listedVersion P db entry = .ok r ∧ r.content.id = entry.id := by
  obtain ⟨r₀, hr₀, rfl⟩ := hentry
  obtain ⟨hversion, hid⟩ := hagrees r₀ hr₀
  have hkey : P.uuid (BundleBuilder.manifestEntry r₀.content).id = some r₀.policyKey := by
    show P.uuid r₀.content.id = _
    rw [hid, hP]
  cases hfind : db.records.find? fun r => r.policyKey = r₀.policyKey ∧
      (r.version : Int) = (BundleBuilder.manifestEntry r₀.content).version with
  | none =>
    have hnone := List.find?_eq_none.1 hfind r₀ hr₀
    exact absurd (decide_eq_true ⟨rfl, hversion.symm⟩) hnone
  | some r =>
    refine ⟨r, bind_ok.2 ⟨_, found_ok.2 hkey, found_ok.2 hfind⟩, ?_⟩
    have hfound := List.find?_some hfind
    simp only [decide_eq_true_eq] at hfound
    rw [(hagrees r (List.mem_of_find?_eq_some hfind)).2, hfound.1]
    exact hid.symm

/-- A loop over what is found is over all of it. -/
theorem mapM_found {f : ManifestEntry → Except Unexplained RuntimePolicyRecord} {entries : List ManifestEntry}
    (h : ∀ entry ∈ entries, ∃ r, f entry = .ok r ∧ r.content.id = entry.id) :
    ∃ rs, entries.mapM f = .ok rs ∧
      rs.map (fun r => r.content.id) = entries.map ManifestEntry.id := by
  induction entries with
  | nil => exact ⟨[], rfl, rfl⟩
  | cons entry entries ih =>
    obtain ⟨r, hr, hid⟩ := h entry List.mem_cons_self
    obtain ⟨rs, hrs, hids⟩ := ih fun entry' hentry' => h entry' (List.mem_cons_of_mem _ hentry')
    refine ⟨r :: rs, ?_, by rw [List.map_cons, List.map_cons, hid, hids]⟩
    rw [List.mapM_cons, hr, hrs]
    rfl

/-- What can be explained is explained, policy by policy. -/
theorem explained_of_explicable (hP : ∀ id, P.uuid (P.uuidText id) = some id) (hs : db.Sound)
    (hd : db.Decided) (hagrees : ∀ r ∈ db.records, r.Agrees P)
    (hlisted : ∀ p ∈ db.policies, ∀ m, p.bundleManifest = some m → ∀ entry ∈ m.policies,
      ∃ r ∈ db.records, entry = BundleBuilder.manifestEntry r.content)
    (hmem : d ∈ db.decisions) (h : Explicable db d o) :
    ∃ e, getDecisionExplanation P db d.id o = .ok e ∧ e.Covers db := by
  obtain ⟨p, hp, hpolicyId, horg⟩ := h.pinned
  obtain ⟨m, hm, hentries⟩ := hd.manifests p hp
  obtain ⟨evidence, hevidence, hnamed⟩ := h.named
  obtain ⟨records, hrecords, hids⟩ := mapM_found fun entry hentry =>
    listedVersion_ok hP hagrees (hlisted p hp m hm entry hentry)
  obtain ⟨intent, hintent, hintentId⟩ := hd.intents d hmem
  obtain ⟨matched, hmatched⟩ := hd.matched d hmem
  have hdecision := hd.find?_eq hmem
  have hpolicy := hs.find?_eq hp
  have hmanifest : p.bundleManifest.elim [] Manifest.policies = m.policies := by
    rw [hm]
    rfl
  cases hfound : db.intents.find? fun i => i.id = d.intentId with
  | none =>
    have hnone := List.find?_eq_none.1 hfound intent hintent
    simp [hintentId] at hnone
  | some intent' =>
    refine ⟨_, bind_ok.2 ⟨d, found_ok.2 hdecision, bind_ok.2 ⟨p.version, found_ok.2 hpolicyId,
      bind_ok.2 ⟨(), refuse_ok.2 (by simp [h.evaluated]), bind_ok.2 ⟨p, found_ok.2 hpolicy,
      bind_ok.2 ⟨(), refuse_ok.2 (not_not.2 horg),
      bind_ok.2 ⟨(), refuse_ok.2 (by rw [hmanifest]; exact hentries),
      bind_ok.2 ⟨evidence, found_ok.2 hevidence, bind_ok.2 ⟨(), refuse_ok.2 hnamed,
      bind_ok.2 ⟨records, by rw [hmanifest]; exact hrecords, bind_ok.2 ⟨intent', found_ok.2 hfound,
      bind_ok.2 ⟨matched, by rw [hmatched]; rfl, rfl⟩⟩⟩⟩⟩⟩⟩⟩⟩⟩⟩, p, hp, rfl, m, hm, ?_⟩
    rw [← hids, Explainer.buildRuleEvaluations, List.map_map, List.map_map]
    rfl

/-- What is not explained is answered by what stands in the way. -/
theorem explanationAnswers (hs : db.Sound) (hd : db.Decided) (hmem : d ∈ db.decisions)
    (hexplained : Explicable db d o → ∃ e, getDecisionExplanation P db d.id o = .ok e ∧ e.Covers db) :
    ExplanationAnswers db d o (getDecisionExplanation P db d.id o) := by
  cases hv : d.policyId with
  | none =>
    have heq : getDecisionExplanation P db d.id o = .error (.unavailable "no_policy_evaluated") := by
      rw [getDecisionExplanation, hd.find?_eq hmem, found_bind, hv, found_fail]
    exact heq ▸ .unasked hv
  | some v =>
    obtain ⟨p, hp, rfl⟩ := hd.bundles d hmem v hv
    obtain ⟨m, hm, hentries⟩ := hd.manifests p hp
    obtain ⟨e, he⟩ := hd.earliest hmem
    -- the bundle is there, and the checks of the reason and of the organization come around it
    by_cases hreason : isUnevaluatedReason d.reason = true
    · have heq : getDecisionExplanation P db d.id o =
          .error (.unavailable "evaluation_did_not_complete") := by
        rw [getDecisionExplanation, hd.find?_eq hmem, found_bind, hv, found_bind, refuse_fail hreason]
      exact heq ▸ .unanswered hv hreason
    have hevaluated := Bool.eq_false_iff.2 hreason
    by_cases ho : p.organizationId = o
    · by_cases hname : e.payload.principalName.getD "" = ""
      · have hlisted : p.bundleManifest.elim [] Manifest.policies ≠ [] := by
          rw [hm]
          exact hentries
        have heq : getDecisionExplanation P db d.id o = .error (.unavailable "principal_not_resolved") := by
          rw [getDecisionExplanation, hd.find?_eq hmem, found_bind, hv, found_bind, refuse_pass hreason,
            hs.find?_eq hp, found_bind, refuse_pass (not_not.2 ho), refuse_pass hlisted, he, found_bind,
            refuse_fail hname]
        exact heq ▸ .unnamed hp hv hevaluated ho he hname
      · have hexplicable : Explicable db d o := ⟨⟨p, hp, hv, ho⟩, hevaluated, e, he, hname⟩
        obtain ⟨e', he', hcovers⟩ := hexplained hexplicable
        exact he' ▸ .explained hexplicable hcovers
    · have heq : getDecisionExplanation P db d.id o = .error (.raised .crossOrganizationAccess) := by
        rw [getDecisionExplanation, hd.find?_eq hmem, found_bind, hv, found_bind, refuse_pass hreason,
          hs.find?_eq hp, found_bind, refuse_fail ho]
      exact heq ▸ .foreign hp hv hevaluated ho

end

/-- A run of requests from a store in which nothing has been decided. -/
def DecidingRun (H : Host)
    (c : ι → (q : Statement ⊕ Unit) → AuthoringStore ι →
      Except PyError (ReportAnswer Statement.Answer Unit q) → Bool)
    (w : AuthoringWorld ι) : Prop :=
  Reach (((machine H ι).reporting Unit).restrict fun i q s r => c i q s r = true)
    (authoringPrograms H.toPlatform)
    (fun s => ∃ t : Store ι, t.Fresh ∧ t.db.decisions = [] ∧ (∀ i q, t.seen i q = none) ∧ s = Reported.init t) w

section

variable {c : ι → (q : Statement ⊕ Unit) → AuthoringStore ι →
    Except PyError (ReportAnswer Statement.Answer Unit q) → Bool} {w : AuthoringWorld ι}

theorem DecidingRun.authoring (h : DecidingRun H c w) : AuthoringRun H c w := by
  induction h with
  | init hs =>
    obtain ⟨t, hfresh, -, hseen, rfl⟩ := hs
    exact .init ⟨t, hfresh, hseen, rfl⟩
  | step _ hstep ih => exact .step ih hstep

theorem DecidingRun.decided (h : DecidingRun H c w) : w.store.store.db.Decided := by
  have herased : Reach ((machine H ι).restrict fun _ _ _ _ => True)
      (Prog.erased '' authoringPrograms H.toPlatform)
      (fun s : Store ι => s.Fresh ∧ s.db.decisions = []) w.erased := by
    refine Reach.imp (fun i q s r t hstep => ⟨hstep, trivial⟩) (Reach.erased ?_ h.of_restrict)
    rintro s ⟨t, hfresh, hnone, -, rfl⟩
    exact ⟨hfresh, hnone⟩
  refine herased.invariant authoring_keeps (fun s hs => hs.1.start) (fun s hs => ?_)
    (J := fun s => s.db.Decided) fun i q s r t hinv _ hpre hstep _ hd => hd.step hinv hpre hstep
  obtain ⟨hfresh, hnone⟩ := hs
  constructor <;> simp [Db.Numbered, hnone, hfresh.policies]

theorem AuthoringRun.agrees (hP : ∀ id, H.uuid (H.uuidText id) = some id) (h : AuthoringRun H unmoved w) :
    ∀ r ∈ w.store.store.db.records, r.Agrees H.toPlatform := by
  intro r hr
  obtain ⟨row, hrow, hcore⟩ := h.created r hr
  exact ((h.agreeing hP).inserted row hrow).of_core hcore.symm

theorem AuthoringRun.lists (h : AuthoringRun H c w) : ∀ p ∈ w.store.store.db.policies, ∀ m,
    p.bundleManifest = some m → ∀ entry ∈ m.policies, ∃ r ∈ w.store.store.db.records,
      entry = BundleBuilder.manifestEntry r.content := by
  intro p hp m hm entry hentry
  have hlisted := compilations_of_run authoring_keeps (fun _ hs => hs.1) (fun _ hs => hs.2) h.erased
  obtain ⟨core, hcore, heq⟩ := hlisted.listed p hp m hm entry hentry
  obtain ⟨r, hr, rfl⟩ := Db.exists_of_core hcore
  exact ⟨r, hr, heq⟩

/-- **What is explained.** In every run of the services in which no edit is overtaken: a decision is explained
to an organization exactly if OPA has answered for a bundle of the organization and the evidence names the
principal; and then for each policy of the bundle. Whatever the answer, nothing that it is made of is
missing. -/
theorem explained_iff (hP : ∀ id, H.uuid (H.uuidText id) = some id) (h : DecidingRun H unmoved w)
    {d : Decision} (hmem : d ∈ w.store.store.db.decisions) (o : Option Uuid) :
    ((∃ e, getDecisionExplanation H.toPlatform w.store.store.db d.id o = .ok e ∧
        e.Covers w.store.store.db) ↔ Explicable w.store.store.db d o) ∧
      ExplanationAnswers w.store.store.db d o
        (getDecisionExplanation H.toPlatform w.store.store.db d.id o) := by
  have hexplained : Explicable w.store.store.db d o → ∃ e,
      getDecisionExplanation H.toPlatform w.store.store.db d.id o = .ok e ∧ e.Covers w.store.store.db :=
    explained_of_explicable hP h.authoring.inv.db h.decided (h.authoring.agrees hP) h.authoring.lists hmem
  refine ⟨⟨?_, hexplained⟩, explanationAnswers h.authoring.inv.db h.decided hmem hexplained⟩
  rintro ⟨e, he, -⟩
  exact explicable_of_explained hmem h.decided he

end

/-! ### A payment -/

/-- The host of the two editors, with an OPA that allows payments by the first policy. -/
def payingHost : Host :=
  { tallyHost with
    opa := fun source _ => .response 200 (source.map fun _ => .obj [("result", .obj
      [("allow", .bool true), ("evaluated_mandates", .arr [.str "x"])])]) }

theorem payingHost_uuid (id : Uuid) : payingHost.uuid (payingHost.uuidText id) = some id :=
  tallyHost_uuid id

def financeOnly : Store Bool :=
  { Store.empty Bool with
    db := { principals := [{ id := 1, name := "Finance", organizationId := some 3 }] } }

/-- From the creation of a policy to a payment. -/
def payingRequests : List AuthoringRequest :=
  [createPayment, .operation (.submitForReview 0 (some 3)) id,
    .operation (.approve 0 (some 3) "approver" none 1) id, .operation (.compilePolicy 0 (some 3) 2) id,
    .operation (.deployPolicy 0 (some 3) 3) id,
    .operation (.submitIntent draftingAgent (draftRequest "vendor_payment") 4) id]

def payingRun : AuthoringWorld Bool :=
  (((Store.schedule payingHost).reporting Unit).restrict unmoved).play
    (payingRequests.map fun req => ⟨true, some ((req.program payingHost.toPlatform).reported fun _ => ()), 40⟩)
    ⟨Reported.init financeOnly, fun _ => none⟩

theorem payingRun_deciding : DecidingRun payingHost unmoved payingRun := by
  refine Schedule.play_reach (.init ⟨financeOnly, ⟨rfl, rfl, rfl, fun _ => rfl, fun _ => rfl, fun _ => rfl,
    fun _ => rfl⟩, rfl, fun _ _ => rfl, rfl⟩) fun t ht p hp => ?_
  obtain ⟨req, -, rfl⟩ := List.mem_map.1 ht
  cases hp
  exact ⟨req, rfl⟩

/-- The payment is explained to its own organization, and to no other. -/
theorem explained_iff_paid : ∃ d ∈ payingRun.store.store.db.decisions,
    (Explicable payingRun.store.store.db d (some 3) ∧
      ∃ e, getDecisionExplanation payingHost.toPlatform payingRun.store.store.db d.id (some 3) = .ok e ∧
        e.Covers payingRun.store.store.db) ∧
    getDecisionExplanation payingHost.toPlatform payingRun.store.store.db d.id (some 4) =
      .error (.raised .crossOrganizationAccess) := by
  have hrun : (payingRun.store.store.db.decisions.any fun d =>
      (getDecisionExplanation payingHost.toPlatform payingRun.store.store.db d.id (some 3)).toOption.isSome &&
        !isUnevaluatedReason d.reason && payingRun.store.store.db.policies.all fun p =>
          p.organizationId = some 3) = true := by
    decide +kernel
  obtain ⟨d, hmem, hd⟩ := List.any_eq_true.1 hrun
  simp only [Bool.and_eq_true, Bool.not_eq_true', List.all_eq_true, decide_eq_true_eq] at hd
  obtain ⟨⟨hsome, hreason⟩, hown⟩ := hd
  have hexplicable : Explicable payingRun.store.store.db d (some 3) := by
    obtain ⟨e, he⟩ := Option.isSome_iff_exists.1 hsome
    cases hx : getDecisionExplanation payingHost.toPlatform payingRun.store.store.db d.id (some 3) with
    | error x =>
      rw [hx] at he
      cases he
    | ok e' => exact explicable_of_explained hmem payingRun_deciding.decided hx
  refine ⟨d, hmem, ⟨hexplicable, (explained_iff payingHost_uuid payingRun_deciding hmem (some 3)).1.2
    hexplicable⟩, ?_⟩
  obtain ⟨p, -, hpinned, -⟩ := hexplicable.pinned
  have hanswer := (explained_iff payingHost_uuid payingRun_deciding hmem (some 4)).2
  generalize getDecisionExplanation payingHost.toPlatform payingRun.store.store.db d.id (some 4) = x
    at hanswer ⊢
  cases hanswer with
  | unasked h => exact absurd (h.symm.trans hpinned) (by simp)
  | unanswered hv h => exact absurd (h.symm.trans hreason) (by simp)
  | foreign => rfl
  | unnamed hp hv h ho => exact absurd ((hown _ hp).symm.trans ho) (by simp)
  | explained h =>
    obtain ⟨p', hp', -, ho⟩ := h.pinned
    exact absurd ((hown _ hp').symm.trans ho) (by simp)

end PayReality
