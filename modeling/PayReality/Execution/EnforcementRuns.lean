import PayReality.Execution.EnforcementChecks

/-!
# What holds of receipts and capabilities

**What grows** (`Enforcement.Grows`). Decisions, intents, reviews, receipts and results are never changed,
and a capability is only consumed.

**The invariant** (`Enforcement.Linked`).

- A capability is of a decision that was allowed, or approved by a reviewer.
- A receipt reports the intent of its decision, and the capability that it names is of this decision
  and of its binding, and is consumed.
- A reconciliation result has the digest of its content.

Main result: `enforcement_linked`, for every reachable state.
-/

namespace PayReality

open Program

/-- What a capability has in every later state. -/
structure CapabilityRow.Continues (c c' : CapabilityRow) : Prop where
  organizationId : c'.organizationId = c.organizationId
  decisionId : c'.decisionId = c.decisionId
  enforcementBindingId : c'.enforcementBindingId = c.enforcementBindingId
  consumed : c.consumedAt.isSome → c'.consumedAt.isSome

/-- What every later database keeps. -/
structure Enforcement.Grows (d d' : Enforcement) : Prop where
  decision : ∀ {id r}, d.decision id = some r → d'.decision id = some r
  intent : ∀ {id r}, d.intent id = some r → d'.intent id = some r
  resolution : ∀ {id r}, d.resolutionOf id = some r → d'.resolutionOf id = some r
  capability : ∀ {id c}, d.capability id = some c →
    ∃ c', d'.capability id = some c' ∧ c.Continues c'
  receipts : d.receipts ⊆ d'.receipts

namespace Enforcement

theorem Grows.refl (d : Enforcement) : d.Grows d :=
  ⟨id, id, id, fun h => ⟨_, h, rfl, rfl, rfl, id⟩, List.Subset.refl _⟩

theorem Grows.trans (d₁ d₂ d₃ : Enforcement) (h : d₁.Grows d₂) (h' : d₂.Grows d₃) : d₁.Grows d₃ where
  decision hr := h'.decision (h.decision hr)
  intent hr := h'.intent (h.intent hr)
  resolution hr := h'.resolution (h.resolution hr)
  capability hc := by
    obtain ⟨c₂, hc₂, h₂⟩ := h.capability hc
    obtain ⟨c₃, hc₃, h₃⟩ := h'.capability hc₂
    exact ⟨c₃, hc₃, h₃.organizationId.trans h₂.organizationId, h₃.decisionId.trans h₂.decisionId,
      h₃.enforcementBindingId.trans h₂.enforcementBindingId, fun hat => h₃.consumed (h₂.consumed hat)⟩
  receipts := List.Subset.trans h.receipts h'.receipts

/-- Rows that are added hide none. -/
theorem get_append_of_some {α κ : Type} [DecidableEq κ] {key : α → κ} {rows rows' : List α} {k : κ}
    {r : α} (h : Rows.get key rows k = some r) : Rows.get key (rows ++ rows') k = some r := by
  rw [Rows.get_append, h]
  rfl

/-- A capability after a consumption. -/
theorem capability_consume {d : Enforcement} {id j : Uuid} {p : Dependencies} {now : Timestamp}
    {c : CapabilityRow} (h : d.capability j = some c) :
    (EnforcementChange.apply (.consume id p now) d).capability j =
      some (if c.id = id then { c with consumedAt := some now } else c) := by
  show Rows.get _ (Rows.update _ _ _ _) j = _
  rw [Rows.get_update (f := fun c : CapabilityRow => { c with consumedAt := some now })
    fun _ => rfl, show Rows.get _ d.capabilities j = some c from h]
  rfl

theorem grows_apply (w : EnforcementChange) (d : Enforcement) : d.Grows (w.apply d) := by
  have hrefl := Grows.refl d
  cases w with
  | issue row reviewed =>
    exact { hrefl with capability := fun h => ⟨_, get_append_of_some h, rfl, rfl, rfl, id⟩ }
  | resolve row event => exact { hrefl with resolution := fun h => get_append_of_some h }
  | consume id p now =>
    refine { hrefl with capability := @fun j c h => ⟨_, capability_consume h, ?_⟩ }
    split
    · exact ⟨rfl, rfl, rfl, fun _ => rfl⟩
    · exact ⟨rfl, rfl, rfl, fun h => h⟩
  | accept row intentId event => exact { hrefl with receipts := List.subset_append_left _ _ }
  | reconcile row event => exact { hrefl with }
  | setAssurance bindingId assurance => exact { hrefl with }
  | submitted intents decisions evidence =>
    exact { hrefl with
      decision := fun h => get_append_of_some h
      intent := fun h => get_append_of_some h }
  | elsewhere organizations principals agents identities bindings => exact { hrefl with }

/-! ## What stays true -/

variable {d d' : Enforcement} {id : Uuid}

theorem Grows.outcomeIs (h : d.Grows d') {outcome : Outcome} (ho : d.outcomeIs id outcome = true) :
    d'.outcomeIs id outcome = true := by
  obtain ⟨r, hr, ho⟩ := outcomeIs_iff.1 ho
  exact outcomeIs_iff.2 ⟨r, h.decision hr, ho⟩

theorem Grows.approved (h : d.Grows d') (ha : d.approved id = true) : d'.approved id = true := by
  obtain ⟨r, hr, ha⟩ := approved_iff.1 ha
  exact approved_iff.2 ⟨r, h.resolution hr, ha⟩

theorem authorized_iff : d.authorized id = true ↔
    d.outcomeIs id .allow = true ∨ d.outcomeIs id .humanReview = true ∧ d.approved id = true := by
  unfold authorized
  rw [Bool.or_eq_true, Bool.and_eq_true]

theorem Grows.authorized (h : d.Grows d') (ha : d.authorized id = true) :
    d'.authorized id = true := by
  rcases authorized_iff.1 ha with ho | ⟨ho, hr⟩
  · exact authorized_iff.2 (.inl (h.outcomeIs ho))
  · exact authorized_iff.2 (.inr ⟨h.outcomeIs ho, h.approved hr⟩)

theorem consumedFor_iff {decisionId bindingId : Uuid} :
    d.consumedFor id decisionId bindingId = true ↔ ∃ c, d.capability id = some c ∧
      c.decisionId = decisionId ∧ c.enforcementBindingId = some bindingId ∧ c.consumedAt.isSome := by
  unfold consumedFor
  cases d.capability id <;> simp

theorem Grows.consumedFor (h : d.Grows d') {decisionId bindingId : Uuid}
    (hc : d.consumedFor id decisionId bindingId = true) :
    d'.consumedFor id decisionId bindingId = true := by
  obtain ⟨c, hget, hdecision, hbinding, hat⟩ := consumedFor_iff.1 hc
  obtain ⟨c', hget', hcont⟩ := h.capability hget
  exact consumedFor_iff.2 ⟨c', hget', hcont.decisionId.trans hdecision,
    hcont.enforcementBindingId.trans hbinding, hcont.consumed hat⟩

/-- What a stored receipt reports. -/
structure Reported (d : Enforcement) (r : ReceiptRow) : Prop where
  intent : ∃ dec i, d.decision r.decisionId = some dec ∧ d.intent dec.intentId = some i ∧
    r.reports i = true
  capability : ∀ c ∈ r.capabilityId, d.consumedFor c r.decisionId r.enforcementBindingId = true

theorem Grows.reported (h : d.Grows d') {r : ReceiptRow} (hr : d.Reported r) : d'.Reported r := by
  obtain ⟨dec, i, hdec, hi, hreports⟩ := hr.intent
  exact ⟨⟨dec, i, h.decision hdec, h.intent hi, hreports⟩, fun c hc => h.consumedFor (hr.capability c hc)⟩

/-! ## The invariant -/

/-- What holds of the rows that follow decisions. -/
structure Linked (H : CapabilityHost) (d : Enforcement) : Prop where
  admitted : d.admitted = true
  capability : ∀ c ∈ d.capabilities, d.authorized c.decisionId = true
  receipt : ∀ r ∈ d.receipts, d.Reported r
  result : ∀ r ∈ d.results, r.resultDigest = r.digest H

variable {H : CapabilityHost}

/-- What a change leaves of the invariant: what it adds is the rest. -/
theorem Linked.apply (h : d.Linked H) {w : EnforcementChange} (hadmits : (w.apply d).admitted = true)
    (hcapability : ∀ c ∈ (w.apply d).capabilities,
      (∃ c₀ ∈ d.capabilities, c₀.decisionId = c.decisionId) ∨
        (w.apply d).authorized c.decisionId = true)
    (hreceipt : ∀ r ∈ (w.apply d).receipts, r ∈ d.receipts ∨ (w.apply d).Reported r)
    (hresult : ∀ r ∈ (w.apply d).results, r ∈ d.results ∨ r.resultDigest = r.digest H) :
    (w.apply d).Linked H where
  admitted := hadmits
  capability c hc := by
    rcases hcapability c hc with ⟨c₀, hc₀, heq⟩ | ha
    · exact heq ▸ (grows_apply w d).authorized (h.capability c₀ hc₀)
    · exact ha
  receipt r hr := (hreceipt r hr).elim (fun hr => (grows_apply w d).reported (h.receipt r hr)) id
  result r hr := (hresult r hr).elim (h.result r) id

/-- One change keeps the invariant, if what it needs was so in earlier states. -/
theorem Linked.step (h : d.Linked H) {w : EnforcementChange}
    (hchecks : ∀ c ∈ w.checks H true, ∃ d₀, d₀.Linked H ∧ d₀.Grows d ∧ c d₀ = true)
    (hadmits : (w.apply d).admitted = true) : (w.apply d).Linked H := by
  have hgrows := grows_apply w d
  cases w with
  | issue row reviewed =>
    refine h.apply hadmits (fun c hc => ?_) (fun r hr => .inl hr) fun r hr => .inl hr
    rcases List.mem_append.1 hc with hc | hc
    · exact .inl ⟨c, hc, rfl⟩
    · rw [List.mem_singleton.1 hc]
      obtain ⟨d₁, -, hd₁, houtcome⟩ := hchecks _ (List.mem_cons_of_mem _ List.mem_cons_self)
      obtain ⟨d₂, -, hd₂, hreview⟩ :=
        hchecks _ (List.mem_cons_of_mem _ (List.mem_cons_of_mem _ List.mem_cons_self))
      have ho := hgrows.outcomeIs (hd₁.outcomeIs houtcome)
      refine .inr (authorized_iff.2 ?_)
      cases reviewed with
      | false => exact .inl ho
      | true => exact .inr ⟨ho, hgrows.approved (hd₂.approved hreview)⟩
  | consume id p now =>
    refine h.apply hadmits (fun c hc => ?_) (fun r hr => .inl hr) fun r hr => .inl hr
    obtain ⟨c₀, hc₀, rfl⟩ := List.mem_map.1 hc
    refine .inl ⟨c₀, hc₀, ?_⟩
    split
    · rfl
    · rfl
  | accept row intentId event =>
    refine h.apply hadmits (fun c hc => .inl ⟨c, hc, rfl⟩) (fun r hr => ?_) fun r hr => .inl hr
    rcases List.mem_append.1 hr with hr | hr
    · exact .inl hr
    · rw [List.mem_singleton.1 hr]
      simp only [EnforcementChange.checks, List.forall_mem_cons] at hchecks
      obtain ⟨-, ⟨d₁, -, hd₁, hdecision⟩, ⟨d₂, -, hd₂, hintent⟩, -, ⟨d₃, -, hd₃, hcapability⟩, -⟩ :=
        hchecks
      obtain ⟨dec, hdec, hid⟩ := (Option.any_eq_true _ _).1 hdecision
      obtain ⟨i, hi, hreports⟩ := (Option.any_eq_true _ _).1 hintent
      refine .inr ⟨⟨dec, i, hgrows.decision (hd₁.decision hdec), ?_, hreports⟩, fun c hc => ?_⟩
      · rw [of_decide_eq_true hid]
        exact hgrows.intent (hd₂.intent hi)
      · rw [Option.mem_def.1 hc] at hcapability
        exact hgrows.consumedFor (hd₃.consumedFor hcapability)
  | reconcile row event =>
    refine h.apply hadmits (fun c hc => .inl ⟨c, hc, rfl⟩) (fun r hr => .inl hr) fun r hr => ?_
    rcases List.mem_append.1 hr with hr | hr
    · exact .inl hr
    · rw [List.mem_singleton.1 hr]
      obtain ⟨_, -, -, hdigest⟩ := hchecks _ List.mem_cons_self
      exact .inr (of_decide_eq_true hdigest)
  | resolve row event =>
    exact h.apply hadmits (fun c hc => .inl ⟨c, hc, rfl⟩) (fun r hr => .inl hr) fun r hr => .inl hr
  | setAssurance bindingId assurance =>
    exact h.apply hadmits (fun c hc => .inl ⟨c, hc, rfl⟩) (fun r hr => .inl hr) fun r hr => .inl hr
  | submitted intents decisions evidence =>
    exact h.apply hadmits (fun c hc => .inl ⟨c, hc, rfl⟩) (fun r hr => .inl hr) fun r hr => .inl hr
  | elsewhere organizations principals agents identities bindings =>
    exact h.apply hadmits (fun c hc => .inl ⟨c, hc, rfl⟩) (fun r hr => .inl hr) fun r hr => .inl hr

end Enforcement

/-! ## Runs -/

/-- A run of requests, as far as `ok` allows what they commit, from an empty database. -/
def EnforcementRun {ι : Type} [DecidableEq ι] (H : CapabilityHost)
    (ok : EnforcementChange → Enforcement → Bool)
    (w : World (RecordStatement EnforcementChange) (RecordStatement.Answer Enforcement Drawn)
      PyError (Records Enforcement ι) ι) : Prop :=
  Reach (((enforcementSchema H true).machine Drawn ι).restrict fun _ q s _ =>
      (enforcementSchema H true).allows ok q s = true)
    (enforcementRequests H) (fun s => ∃ d ∈ ({({} : Enforcement)} : Set Enforcement),
      s = Records.init d) w

variable {ι : Type} [DecidableEq ι] {H : CapabilityHost} {ok : EnforcementChange → Enforcement → Bool}
  {w : World (RecordStatement EnforcementChange) (RecordStatement.Answer Enforcement Drawn) PyError
    (Records Enforcement ι) ι}

theorem Enforcement.linked_empty : ({} : Enforcement).Linked H where
  admitted := by decide
  capability c hc := by cases hc
  receipt r hr := by cases hr
  result r hr := by cases hr

/-- The invariant holds in every state of a run of checked programs, together with what the allowed
changes keep of an invariant `J` of their own, and every earlier state has grown into it. -/
theorem checked_keeps {starts : Set (EnforcementService Unit)}
    (hs : ∀ p ∈ starts, Checks (enforcementSchema H true) p) {J : Enforcement → Prop} (hinit : J {})
    (hJ : ∀ w d, d.Linked H → J d →
      (∀ c ∈ w.checks H true, ∃ d₀ : Enforcement, J d₀ ∧ d₀.Grows d ∧ c d₀ = true) →
      ok w d = true → J (w.apply d))
    (h : Reach (((enforcementSchema H true).machine Drawn ι).restrict fun _ q s _ =>
        (enforcementSchema H true).allows ok q s = true) starts
      (fun s => ∃ d ∈ ({({} : Enforcement)} : Set Enforcement), s = Records.init d) w) :
    (w.store.db.Linked H ∧ J w.store.db) ∧ ∀ d ∈ w.store.past, d.Grows w.store.db := by
  refine Reach.records (I := fun d => d.Linked H ∧ J d) hs ?_ Enforcement.Grows.refl
    Enforcement.Grows.trans (fun d hd => hd.1.admitted) ?_ h
  · rintro d rfl
    exact ⟨Enforcement.linked_empty, hinit⟩
  · intro c d hd hchecks hok hadmits
    refine ⟨⟨hd.1.step (fun p hp => ?_) hadmits, hJ c d hd.1 hd.2 (fun p hp => ?_) hok⟩,
      Enforcement.grows_apply c d⟩
    · obtain ⟨d₀, hd₀, hgrows, htrue⟩ := hchecks p hp
      exact ⟨d₀, hd₀.1, hgrows, htrue⟩
    · obtain ⟨d₀, hd₀, hgrows, htrue⟩ := hchecks p hp
      exact ⟨d₀, hd₀.2, hgrows, htrue⟩

/-- **The invariant holds in every reachable state**, together with what the allowed changes keep of
an invariant `J` of their own. -/
theorem enforcement_keeps {J : Enforcement → Prop} (hinit : J {})
    (hJ : ∀ w d, d.Linked H → J d →
      (∀ c ∈ w.checks H true, ∃ d₀ : Enforcement, J d₀ ∧ d₀.Grows d ∧ c d₀ = true) →
      ok w d = true → J (w.apply d))
    (h : EnforcementRun H ok w) : w.store.db.Linked H ∧ J w.store.db :=
  (checked_keeps (enforcement_checks H) hinit hJ h).1

theorem enforcement_linked (h : EnforcementRun H ok w) : w.store.db.Linked H :=
  (enforcement_keeps (J := fun _ => True) trivial (fun _ _ _ _ _ _ => trivial) h).1

end PayReality
