import PayReality.Decision.FactPaths
import PayReality.Facts.FactService

/-!
# What is behind a fact

The query of `resolve_facts` asks neither whose the source of a fact is nor for its signature. Both were
checked when the fact was stored, and a source keeps its organization and its key.

* `FactTables.Sound`: every fact that is stored verifies under the key of its source.
* `decision_facts_attested`: the facts that a decision rests on are attested.
* `revoked_source_unheard`: a source that was revoked contributes to no later decision.
-/

namespace PayReality

open Program RecordProg FactService

/-! ## What is committed has been checked -/

section

variable {H : FactHost} {t : FactTables} {seen : List FactTables}

theorem vetted_refreshSource (id : Uuid) :
    Vetted (factSchema H) (refreshSource id) (fun _ _ => True) seen := by
  refine vetted_look fun t _ => ?_
  cases t.source id <;> trivial

theorem vetted_registerFactSource (organizationId : Uuid) (name publicKey : String) :
    Vetted (factSchema H) (registerFactSource organizationId name publicKey) (fun _ _ => True)
      seen :=
  vetted_draw fun _ => vetted_commit (supported_none rfl) (vetted_refreshSource _)

theorem vetted_revokeFactSource (organizationId sourceId : Uuid) :
    Vetted (factSchema H) (revokeFactSource organizationId sourceId) (fun _ _ => True) seen := by
  refine vetted_look fun t _ => ?_
  cases hs : t.source sourceId with
  | none => trivial
  | some source =>
    dsimp only
    split
    · trivial
    next horg =>
    refine vetted_commit (supported_one rfl List.mem_cons_self ?_) (vetted_refreshSource _)
    rw [← show source.id = sourceId from Rows.key_of_get hs] at hs
    simpa [FactTables.sourceIs, hs] using horg

theorem vetted_ingestFact (organizationId sourceId : Uuid) (subject : Option String) (key : String)
    (value : Json) (observedAt expiresAt : Moment H) (nonce signature : String) :
    Vetted (factSchema H)
      (ingestFact H organizationId sourceId subject key value observedAt expiresAt nonce signature)
      (fun _ _ => True) seen := by
  refine vetted_look fun t _ => ?_
  cases hs : t.source sourceId with
  | none => trivial
  | some source =>
    dsimp only
    split
    · trivial
    next horg =>
    split
    · trivial
    next hactive =>
    split
    · trivial
    next hverify =>
    refine vetted_draw fun id => ?_
    refine checked_bind (checked_tryCatch (checked_commit
      (supported_one rfl List.mem_cons_self ?_) ?_ ?_ ?_))
    · refine (Option.any_eq_true _ _).2 ⟨source, hs, decide_eq_true ?_⟩
      exact ⟨not_not.1 horg, not_not.1 hactive, Bool.of_not_eq_false hverify,
        observedAt.instantOf_isoformat, expiresAt.instantOf_isoformat⟩
    · exact vetted_look fun _ _ => trivial
    · trivial
    · trivial

theorem fact_checks : ∀ p ∈ {p | ∃ r : FactRequest H, p = r.run}, Checks (factSchema H) p := by
  rintro _ ⟨r, rfl⟩
  cases r with
  | register organizationId name publicKey =>
    exact checks_session (vetted_registerFactSource organizationId name publicKey)
  | revoke organizationId sourceId =>
    exact checks_session (vetted_revokeFactSource organizationId sourceId)
  | ingest organizationId sourceId subject key value observedAt expiresAt nonce signature =>
    exact checks_session (vetted_ingestFact organizationId sourceId subject key value observedAt
      expiresAt nonce signature)

end

/-! ## What a run keeps -/

namespace FactTables

variable {H : FactHost} {t t' t'' : FactTables}

/-- A source stays whose it is and keeps its key, and it is not active again once it is revoked. -/
structure FactSourceRow.Continues (s s' : FactSourceRow) : Prop where
  organization : s'.organizationId = s.organizationId
  publicKey : s'.publicKey = s.publicKey
  revoked : s.status = .revoked → s'.status = .revoked

def Continues (t t' : FactTables) : Prop :=
  ∀ id s, t.source id = some s → ∃ s', t'.source id = some s' ∧ FactSourceRow.Continues s s'

theorem Continues.refl (t : FactTables) : t.Continues t :=
  fun _ s hs => ⟨s, hs, rfl, rfl, id⟩

theorem Continues.trans (h : t.Continues t') (h' : t'.Continues t'') : t.Continues t'' := by
  intro id s hs
  obtain ⟨s', hs', horg, hkey, hrevoked⟩ := h id s hs
  obtain ⟨s'', hs'', horg', hkey', hrevoked'⟩ := h' id s' hs'
  exact ⟨s'', hs'', horg'.trans horg, hkey'.trans hkey, hrevoked' ∘ hrevoked⟩

theorem continues_apply (w : FactChange) (t : FactTables) : t.Continues (w.apply t) := by
  intro id s hs
  cases w with
  | register source =>
    refine ⟨s, ?_, rfl, rfl, fun h => h⟩
    show Rows.get (fun s => s.id) (t.sources ++ [source]) id = some s
    rw [Rows.get_append, show Rows.get (fun s : FactSourceRow => s.id) t.sources id = some s from hs]
    rfl
  | revoke id' organizationId =>
    exact Rows.exists_get_update (R := FactSourceRow.Continues)
      (f := fun s => { s with status := .revoked }) (fun _ => rfl)
      (fun _ => ⟨rfl, rfl, fun h => h⟩) (fun _ _ => ⟨rfl, rfl, fun _ => rfl⟩) hs
  | ingest fact => exact ⟨s, hs, rfl, rfl, fun h => h⟩

/-- The attestation of a fact verifies under the key of its source, which is of its organization, and
the texts in it are of the instants of the fact. -/
def Verified (H : FactHost) (t : FactTables) (f : EnterpriseFactRow) : Prop :=
  ∃ s, t.source f.sourceId = some s ∧ s.organizationId = f.organizationId ∧
    H.verify (f.attestation H) f.signature s.publicKey = true ∧
    H.instantOf f.observedText = some f.observedAt ∧ H.instantOf f.expiresText = some f.expiresAt

theorem Verified.mono {f : EnterpriseFactRow} (h : t.Verified H f) (ht : t.Continues t') :
    t'.Verified H f := by
  obtain ⟨s, hs, horg, hverify, htexts⟩ := h
  obtain ⟨s', hs', horg', hkey, -⟩ := ht _ s hs
  exact ⟨s', hs', horg'.trans horg, hkey ▸ hverify, htexts⟩

theorem verified_of_attests {f : EnterpriseFactRow} (h : t.attests H f = true) :
    t.Verified H f := by
  obtain ⟨s, hs, h⟩ := (Option.any_eq_true _ _).1 h
  obtain ⟨horg, -, hverify⟩ := of_decide_eq_true h
  exact ⟨s, hs, horg, hverify⟩

structure Sound (H : FactHost) (t : FactTables) : Prop where
  admitted : t.admitted = true
  verified : ∀ f ∈ t.facts, t.Verified H f

/-- A step leads from one such table to another. -/
theorem Sound.step {w : FactChange} (ht : t.Sound H)
    (hchecks : ∀ c ∈ w.checks H, ∃ t', t'.Continues t ∧ c t' = true)
    (hadmits : (w.apply t).admitted = true) : (w.apply t).Sound H := by
  have hcontinues := continues_apply w t
  refine ⟨hadmits, fun f hf => ?_⟩
  have hold (hf : f ∈ t.facts) : (w.apply t).Verified H f := (ht.verified f hf).mono hcontinues
  cases w with
  | register source => exact hold hf
  | revoke id organizationId => exact hold hf
  | ingest fact =>
    rcases List.mem_append.1 hf with hf | hf
    · exact hold hf
    · rcases List.mem_singleton.1 hf with rfl
      obtain ⟨t', ht', hattests⟩ := hchecks _ (List.mem_singleton_self _)
      exact ((verified_of_attests hattests).mono ht').mono hcontinues

end FactTables

/-! ## Runs -/

abbrev FactWorld (ι : Type) : Type :=
  World (RecordStatement FactChange) (RecordStatement.Answer FactTables Uuid) FactError
    (Records FactTables ι) ι

/-- A run of any requests, any number at once, from tables in which every fact is verified. -/
abbrev FactRun (H : FactHost) {ι : Type} [DecidableEq ι] (w : FactWorld ι) : Prop :=
  Reach (((factSchema H).machine Uuid ι).restrict fun _ q s _ =>
      (factSchema H).allows (fun _ _ => true) q s = true)
    {p | ∃ r : FactRequest H, p = r.run}
    (fun s => ∃ t ∈ {t : FactTables | t.Sound H}, s = Records.init t) w

theorem FactRun.sound {H : FactHost} {ι : Type} [DecidableEq ι] {w : FactWorld ι}
    (h : FactRun H w) : w.store.db.Sound H ∧ ∀ t ∈ w.store.past, t.Continues w.store.db :=
  Reach.records fact_checks (fun _ ht => ht) FactTables.Continues.refl
    (fun _ _ _ => FactTables.Continues.trans) (fun _ ht => ht.admitted)
    (fun c t ht hchecks _ hadmits => by
      refine ⟨FactTables.Sound.step ht (fun c' hc' => ?_) hadmits, FactTables.continues_apply c t⟩
      obtain ⟨t', -, hcontinues, htrue⟩ := hchecks c' hc'
      exact ⟨t', hcontinues, htrue⟩) h

/-! ## What decisions are made from -/

/-- A fact that is resolved is trusted under one of the keys, and no trusted one contradicts it. -/
theorem Db.resolveFacts_ok {db : Db} {organizationId : Uuid} {subject : Option String}
    {now : Timestamp} {keys : List String} {fs : List EnterpriseFact}
    (h : db.resolveFacts organizationId subject now keys = .ok fs) :
    ∀ f ∈ fs, f.key ∈ keys ∧ f ∈ db.trustedFacts organizationId subject f.key now ∧
      ∀ g ∈ db.trustedFacts organizationId subject f.key now, g.value.stableRepr = f.value.stableRepr := by
  induction keys generalizing fs with
  | nil =>
    cases h
    simp
  | cons key keys ih =>
    have hlater {fs : List EnterpriseFact}
        (h : db.resolveFacts organizationId subject now keys = .ok fs) {f : EnterpriseFact}
        (hf : f ∈ fs) : f.key ∈ key :: keys ∧ f ∈ db.trustedFacts organizationId subject f.key now ∧
          ∀ g ∈ db.trustedFacts organizationId subject f.key now,
            g.value.stableRepr = f.value.stableRepr :=
      (ih h f hf).imp_left (List.mem_cons_of_mem _)
    rw [resolveFacts] at h
    cases htrusted : db.trustedFacts organizationId subject key now with
    | nil =>
      rw [htrusted] at h
      exact fun f hf => hlater h hf
    | cons f₀ rest =>
      rw [htrusted] at h
      dsimp only at h
      split at h
      · next hall =>
        obtain ⟨fs', hfs', h⟩ := bind_ok.1 h
        cases h
        intro f hf
        rcases List.mem_cons.1 hf with rfl | hf
        · have hmem : f ∈ db.trustedFacts organizationId subject key now := by
            rw [htrusted]
            exact List.mem_cons_self
          have hkey : f.key = key := (of_decide_eq_true (List.mem_filter.1 hmem).2).2.2.1
          rw [hkey, htrusted]
          refine ⟨List.mem_cons_self, List.mem_cons_self, fun g hg => ?_⟩
          rcases List.mem_cons.1 hg with rfl | hg
          · rfl
          · exact of_decide_eq_true (List.all_eq_true.1 hall g hg)
        · exact hlater hfs' hf
      · cases h

/-! ### Attestations -/

section

variable {H : FactHost} {t : FactTables}

/-- What is attested is what is stored. -/
theorem attestation_inj (hids : Function.Injective H.uuidText) {a b : EnterpriseFactRow}
    (h : a.attestation H = b.attestation H) :
    a.organizationId = b.organizationId ∧ a.sourceId = b.sourceId ∧ a.subject = b.subject ∧
      a.key = b.key ∧ a.value = b.value ∧ a.observedText = b.observedText ∧
      a.expiresText = b.expiresText ∧ a.nonce = b.nonce := by
  have hsubject : Json.ofText a.subject = Json.ofText b.subject → a.subject = b.subject := by
    cases a.subject <;> cases b.subject <;> simp [Json.ofText]
  simp only [EnterpriseFactRow.attestation, canonicalFactAttestation, Json.obj.injEq, List.cons.injEq,
    Prod.mk.injEq, Json.str.injEq, true_and, and_true] at h
  obtain ⟨horg, hsource, hsub, hkey, hvalue, hobserved, hexpires, hnonce⟩ := h
  exact ⟨hids horg, hids hsource, hsubject hsub, hkey, hvalue, hobserved, hexpires, hnonce⟩

theorem FactTables.Sound.nonces (ht : t.Sound H) :
    (t.facts.map fun f => (f.sourceId, f.nonce)).Nodup :=
  of_decide_eq_true (Bool.and_eq_true_iff.1 (Bool.and_eq_true_iff.1 ht.admitted).1).2

theorem FactTables.Sound.sources (ht : t.Sound H) : (t.sources.map fun s => s.id).Nodup :=
  of_decide_eq_true
    (Bool.and_eq_true_iff.1 (Bool.and_eq_true_iff.1 (Bool.and_eq_true_iff.1 ht.admitted).1).1).1

/-- An attestation is stored once. -/
theorem FactTables.Sound.attestation_once (ht : t.Sound H) (hids : Function.Injective H.uuidText)
    {a b : EnterpriseFactRow} (ha : a ∈ t.facts) (hb : b ∈ t.facts)
    (h : a.attestation H = b.attestation H) : a = b := by
  obtain ⟨-, hsource, -, -, -, -, -, hnonce⟩ := attestation_inj hids h
  exact List.inj_on_of_nodup_map ht.nonces ha hb (Prod.ext hsource hnonce)

end

/-- What is behind a fact that is resolved for an organization: `signed key payload` says that the
holder of the key has signed the payload. -/
structure AttestedFact (H : FactHost) (signed : String → Json → Prop) (t : FactTables)
    (organizationId : Uuid) (subject : Option String) (now : Timestamp) (f : EnterpriseFact) :
    Prop where
  subject_eq : f.subject = subject
  current : now < f.expiresAt
  /-- An active source of the organization has signed exactly what the fact says. -/
  attested : ∃ row ∈ t.facts, row.toEnterpriseFact = f ∧
    ∃ s, t.source f.sourceId = some s ∧ s.organizationId = organizationId ∧ s.status = .active ∧
      signed s.publicKey (row.attestation H) ∧
      H.instantOf row.observedText = some f.observedAt ∧ H.instantOf row.expiresText = some f.expiresAt ∧
      ∀ row' ∈ t.facts, row'.attestation H = row.attestation H → row' = row
  /-- What else is trusted under its key says the same. -/
  uncontradicted : ∀ g ∈ t.toDb.trustedFacts organizationId subject f.key now,
    g.value.stableRepr = f.value.stableRepr

theorem FactTables.Sound.resolved {H : FactHost} {signed : String → Json → Prop}
    (hids : Function.Injective H.uuidText)
    (hsigned : ∀ key payload signature, H.verify payload signature key = true → signed key payload)
    {t : FactTables} (ht : t.Sound H) {organizationId : Uuid} {subject : Option String}
    {now : Timestamp} {keys : List String} {fs : List EnterpriseFact}
    (h : t.toDb.resolveFacts organizationId subject now keys = .ok fs) :
    ∀ f ∈ fs, AttestedFact H signed t organizationId subject now f := by
  intro f hf
  obtain ⟨-, htrusted, huncontradicted⟩ := Db.resolveFacts_ok h f hf
  obtain ⟨hmem, htrusted⟩ := List.mem_filter.1 htrusted
  obtain ⟨horg, hsubject, -, hcurrent, hactive⟩ := of_decide_eq_true htrusted
  obtain ⟨row, hrow, rfl⟩ := List.mem_map.1 hmem
  obtain ⟨s, hs, hsorg, hverify, hobserved, hexpires⟩ := ht.verified row hrow
  -- the active source that the join has found is the one that attested
  obtain ⟨s', hs', hactive⟩ := List.any_eq_true.1 hactive
  obtain ⟨s'', hs'', rfl⟩ := List.mem_map.1 hs'
  obtain ⟨hid, hstatus⟩ := of_decide_eq_true hactive
  have hsame : t.source row.sourceId = some s'' := by
    rw [← show s''.id = row.sourceId from hid]
    exact Rows.get_of_mem ht.sources hs''
  rw [hs] at hsame
  cases hsame
  exact ⟨hsubject, hcurrent, ⟨row, hrow, rfl, s, hs, hsorg.trans horg, hstatus, hsigned _ _ _ hverify,
    hobserved, hexpires, fun row' hrow' h => ht.attestation_once hids hrow' hrow h⟩, huncontradicted⟩

/-- The decision path reads the facts and their sources of the tables. -/
def FactTables.ReadBy (t : FactTables) (db : Db) : Prop :=
  db.factSources = t.toDb.factSources ∧ db.facts = t.toDb.facts

theorem FactTables.ReadBy.trustedFacts {t : FactTables} {db : Db} (h : t.ReadBy db)
    (organizationId : Uuid) (subject : Option String) (key : String) (now : Timestamp) :
    db.trustedFacts organizationId subject key now =
      t.toDb.trustedFacts organizationId subject key now := by
  unfold Db.trustedFacts
  rw [h.1, h.2]

theorem FactTables.ReadBy.resolveFacts {t : FactTables} {db : Db} (h : t.ReadBy db)
    (organizationId : Uuid) (subject : Option String) (now : Timestamp) (keys : List String) :
    db.resolveFacts organizationId subject now keys =
      t.toDb.resolveFacts organizationId subject now keys := by
  induction keys with
  | nil => rfl
  | cons key keys ih => rw [Db.resolveFacts, Db.resolveFacts, h.trustedFacts, ih]

/-- The facts of a decision are resolved for the organization of the agent. -/
theorem resolvedFacts_cases {db : Db} {agent : Agent} {now : Timestamp} {intent : Intent}
    {f : EnterpriseFact} (h : f ∈ IntentService.resolvedFacts db agent now intent) :
    ∃ o keys fs, IntentService.organizationOf db agent = some o ∧
      db.resolveFacts o intent.counterparty now keys = .ok fs ∧ f ∈ fs := by
  unfold IntentService.resolvedFacts at h
  split at h
  · cases h
  next o ho =>
  split at h
  · next fs hfs => exact ⟨o, _, fs, ho, hfs, h⟩
  · cases h

section

variable {H : FactHost} {ι : Type} [DecidableEq ι] {w : FactWorld ι} {db : Db} {agent : Agent}
  {now : Timestamp} {intent : Intent}

/-- **The facts that a decision rests on are attested**, in every run of registrations, revocations
and attestations. -/
theorem decision_facts_attested {signed : String → Json → Prop} (hids : Function.Injective H.uuidText)
    (hsigned : ∀ key payload signature, H.verify payload signature key = true → signed key payload)
    (h : FactRun H w) (hdb : w.store.db.ReadBy db) :
    ∀ f ∈ IntentService.resolvedFacts db agent now intent,
      ∃ o, IntentService.organizationOf db agent = some o ∧
        AttestedFact H signed w.store.db o intent.counterparty now f := by
  intro f hf
  obtain ⟨o, keys, fs, ho, hfs, hf⟩ := resolvedFacts_cases hf
  rw [hdb.resolveFacts] at hfs
  exact ⟨o, ho, h.sound.1.resolved hids hsigned hfs f hf⟩

/-- **A revoked source is not heard again**, and its key is not replaced. -/
theorem revoked_source_unheard (h : FactRun H w) (hdb : w.store.db.ReadBy db) :
    ∀ t ∈ w.store.past, ∀ id s, t.source id = some s →
      (∃ s', w.store.db.source id = some s' ∧ s'.publicKey = s.publicKey ∧
        s'.organizationId = s.organizationId) ∧
      (s.status = .revoked → ∀ f ∈ IntentService.resolvedFacts db agent now intent, f.sourceId ≠ id) := by
  intro t ht id s hs
  obtain ⟨s', hs', hcontinues⟩ := h.sound.2 t ht id s hs
  refine ⟨⟨s', hs', hcontinues.publicKey, hcontinues.organization⟩, fun hrevoked f hf hid => ?_⟩
  obtain ⟨o, keys, fs, -, hfs, hf⟩ := resolvedFacts_cases hf
  rw [hdb.resolveFacts] at hfs
  -- the join asks for an active source, and there is one source with the id
  obtain ⟨hmem, htrusted⟩ := List.mem_filter.1 (Db.resolveFacts_ok hfs f hf).2.1
  obtain ⟨-, -, -, -, hactive⟩ := of_decide_eq_true htrusted
  obtain ⟨a, ha, hactive⟩ := List.any_eq_true.1 hactive
  obtain ⟨s'', hs'', rfl⟩ := List.mem_map.1 ha
  obtain ⟨hid', hstatus⟩ := of_decide_eq_true hactive
  have hsame : w.store.db.source id = some s'' := by
    rw [← hid, ← show s''.id = f.sourceId from hid']
    exact Rows.get_of_mem h.sound.1.sources hs''
  rw [hs'] at hsame
  cases hsame
  rw [hcontinues.revoked hrevoked] at hstatus
  cases hstatus

end

/-! ### An approval that is attested -/

/-- The signature over a payload is the key and its nonce. -/
def approvalHost : FactHost where
  uuidText id := String.ofList (List.replicate id 'x')
  instantOf text := if text = "later" then some 100 else some 0
  verify payload signature key :=
    match payload.get? "nonce" with
    | some (.str nonce) => signature = key ++ nonce
    | _ => false

theorem approvalHost_ids : Function.Injective approvalHost.uuidText := by
  intro m n h
  have hlength := congrArg (fun s => s.toList.length) h
  simpa [approvalHost] using hlength

/-- What the approvals' keys have signed: payloads with a nonce. -/
def hasNonce (_ : String) (payload : Json) : Prop := ∃ nonce, payload.get? "nonce" = some (.str nonce)

theorem approvalHost_signed (key : String) (payload : Json) (signature : String)
    (h : approvalHost.verify payload signature key = true) : hasNonce key payload := by
  simp only [approvalHost] at h
  split at h
  · next nonce hnonce => exact ⟨nonce, hnonce⟩
  · cases h

def erpRegistration : FactRequest approvalHost := .register 10 "ERP" "key"

def approvalFrom (sourceId : Uuid) : FactRequest approvalHost :=
  .ingest 10 sourceId none "approved" (.bool true) ⟨"now", 0, rfl⟩ ⟨"later", 100, rfl⟩ "n1" "keyn1"

def erpApproval : FactRequest approvalHost := approvalFrom 30

/-- What two sessions do in turn; each of them draws one id. -/
def playFacts (ts : List (Bool × Option (FactRequest approvalHost) × ℕ)) : FactWorld Bool :=
  (((factSchema approvalHost).scheduleBy fun i => if i then 30 else 31).restrict fun _ q s _ =>
      (factSchema approvalHost).allows (fun _ _ => true) q s).play
    (ts.map fun t => ⟨t.1, t.2.1.map FactRequest.run, t.2.2⟩) ⟨Records.init {}, fun _ => none⟩

theorem playFacts_run (ts : List (Bool × Option (FactRequest approvalHost) × ℕ)) :
    FactRun approvalHost (playFacts ts) := by
  have hempty : ({} : FactTables).Sound approvalHost := ⟨rfl, fun f hf => by cases hf⟩
  refine Schedule.play_reach (.init ⟨{}, hempty, rfl⟩) fun t ht p hp => ?_
  obtain ⟨e, -, rfl⟩ := List.mem_map.1 ht
  obtain ⟨r, -, rfl⟩ := Option.map_eq_some_iff.1 hp
  exact ⟨r, rfl⟩

/-- The approval is presented twice. -/
def approvedTwice : List (Bool × Option (FactRequest approvalHost) × ℕ) :=
  [(true, some erpRegistration, 10), (true, some erpApproval, 10), (false, some erpApproval, 10)]

theorem approvedTwice_read : (playFacts approvedTwice).store.db.ReadBy (approvalDb "approved") :=
  ⟨rfl, rfl⟩

theorem decision_facts_attested_approval :
    (IntentService.resolvedFacts (approvalDb "approved") opsAgent 0 noAmount).length = 1 ∧
    ∀ f ∈ IntentService.resolvedFacts (approvalDb "approved") opsAgent 0 noAmount,
      ∃ o, IntentService.organizationOf (approvalDb "approved") opsAgent = some o ∧
        AttestedFact approvalHost hasNonce (playFacts approvedTwice).store.db o noAmount.counterparty 0 f :=
  ⟨rfl, decision_facts_attested approvalHost_ids approvalHost_signed (playFacts_run _)
    approvedTwice_read⟩

/-- The source is revoked, and another one is registered, which attests the approval once more. -/
def approvedAndRevoked : List (Bool × Option (FactRequest approvalHost) × ℕ) :=
  approvedTwice ++ [(true, some (.revoke 10 30), 10), (false, some erpRegistration, 10),
    (false, some (approvalFrom 31), 10)]

/-- A policy that asks for the approval, over the facts of the run. -/
def revokedDb : Db :=
  { approvalDb "approved" with
    factSources := (playFacts approvedAndRevoked).store.db.toDb.factSources
    facts := (playFacts approvedAndRevoked).store.db.toDb.facts }

/-- Both sources have attested it, and the decision rests on the one that is active. -/
theorem revoked_source_unheard_approval :
    (playFacts approvedAndRevoked).store.db.toDb.facts.length = 2 ∧
    (IntentService.resolvedFacts revokedDb opsAgent 0 noAmount).map (fun f => f.sourceId) = [31] ∧
    ∃ t ∈ (playFacts approvedAndRevoked).store.past, ∃ s, t.source 30 = some s ∧ s.status = .revoked ∧
      ∀ f ∈ IntentService.resolvedFacts revokedDb opsAgent 0 noAmount, f.sourceId ≠ 30 := by
  have hrevoked : ((playFacts approvedAndRevoked).store.past.any fun t =>
      (t.source 30).any fun s => s.status = .revoked) = true := by decide +kernel
  obtain ⟨t, ht, hrevoked⟩ := List.any_eq_true.1 hrevoked
  obtain ⟨s, hs, hrevoked⟩ := (Option.any_eq_true _ _).1 hrevoked
  have hstatus : s.status = .revoked := of_decide_eq_true hrevoked
  have hread : (playFacts approvedAndRevoked).store.db.ReadBy revokedDb := ⟨rfl, rfl⟩
  exact ⟨by decide +kernel, by decide +kernel, t, ht, s, hs, hstatus,
    (revoked_source_unheard (playFacts_run _) hread t ht 30 s hs).2 hstatus⟩

end PayReality
