import Mathlib.Data.List.Pairwise
import PayReality.Evidence.Chain

/-!
# Tampering with a chain

Somebody who can write to the table of evidence, and has not the key, can only store payloads that
were signed.

* If these are the payloads of the organization's own chain, `verify_chain` lets nothing through but
  a truncation (`verifyChain_prefix`).
* If they are whatever the platform has signed, for other organizations and other purposes too,
  `verify_chain` reports a chain of strangers as intact: no payload says which chain it belongs to,
  and audit events and capabilities have no link to check. `verifyChain_authentic` says what has to
  be checked beside it.
-/

namespace PayReality

open Program LedgerService

/-! ## What is verified -/

theorem preceding_mem {chain : List EvidenceRow} {first e : EvidenceRow}
    (h : preceding chain first = some e) : e ∈ chain := by
  unfold preceding at h
  split at h
  · exact (List.mem_filter.1 (firstRow_some h).1).1
  · exact (List.mem_filter.1 (firstRow_some h).1).1

/-- The record that the first one is checked against is a record of the chain. -/
theorem expectedPrevious_some {H : EvidenceHost} {chain records : List EvidenceRow} {h : String}
    (hx : expectedPrevious H chain records = some h) : ∃ e ∈ chain, h = H.payloadHash e.payload := by
  obtain ⟨e, hfirst, rfl⟩ := Option.map_eq_some_iff.1 hx
  obtain ⟨first, -, he⟩ := Option.bind_eq_some_iff.1 hfirst
  exact ⟨e, preceding_mem he, rfl⟩

variable {ι : Type} [DecidableEq ι] {H : EvidenceHost} {s₀ : Ledger ι}
  {w : World LedgerStatement LedgerStatement.Answer PyError (Ledger ι) ι}
  {rows : List EvidenceRow}

/-! ## The organization's own records -/

/-- Every record that verifies has a payload of the given ones. -/
def Unforgeable (H : EvidenceHost) (chain : List EvidenceRow) (payloads : Set Json) : Prop :=
  ∀ e ∈ chain, EvidenceService.verifyEvidence H.toCrypto H.settings H.keys e.toSignedPayload = true →
    e.payload ∈ payloads

/-- **Only a truncation goes unnoticed**: whatever the records of an organization have been made
into, if the whole chain is reported as intact then its payloads, in the order of verification, are
the first ones of those that were appended. -/
theorem verifyChain_prefix {o : Uuid} (h : s₀.AtRest)
    (hempty : chainOf s₀.committed.evidence (some o) = [])
    (hw : Reach (ledgerMachine H ι) (LedgerService.signing H) (· = s₀) w)
    (hinj : (payloadsOf (chainOf w.store.committed.evidence (some o))).InjOn H.payloadHash)
    (hunforgeable : Unforgeable H (chainOf rows (some o))
      (payloadsOf (chainOf w.store.committed.evidence (some o))))
    (hintact : (verifyChain H rows (some o) none).intact = true) :
    (window (chainOf rows (some o)) none).map (fun e => e.payload) <+:
      (chainOf w.store.committed.evidence (some o)).map fun e => e.payload := by
  have hinv : ChainInv H s₀ o w.store := .reach h (by simp [hempty]) hw
  obtain ⟨S, hS, happ⟩ := hinv.committed
  rw [hempty] at hS happ
  rw [List.nil_append] at hS
  rw [hS] at hinj hunforgeable ⊢
  obtain ⟨hverified, hlinks⟩ := verifyChain_intact.1 hintact
  have hseparates := separates_payloads hinj
  have hcarry : ∀ p ∈ S.map fun e => e.payload, (payloadLinks H).Carries p := by
    intro p hp
    obtain ⟨e, he, rfl⟩ := List.mem_map.1 hp
    exact happ.carries e he
  have hsub : (window (chainOf rows (some o)) none).map (fun e => e.payload) ⊆
      S.map fun e => e.payload := by
    intro p hp
    obtain ⟨e, he, rfl⟩ := List.mem_map.1 hp
    exact hunforgeable e (mem_window_none.1 he) (hverified e he)
  cases hprev : expectedPrevious H (chainOf rows (some o)) (window (chainOf rows (some o)) none) with
  | none =>
    rw [hprev] at hlinks
    exact happ.links.prefix_of_subset hseparates hcarry hlinks hsub
  | some x =>
    -- the first record cannot follow another one of the records that are verified
    obtain ⟨e, he, rfl⟩ := expectedPrevious_some hprev
    rw [hprev] at hlinks
    exact (happ.links.false_of_cycle (y := e.payload) hseparates hcarry hlinks hsub
      (List.mem_map_of_mem (mem_window_none.2 he))).elim

/-- One record of two, with another number. -/
theorem verifyChain_prefix_truncated :
    ∃ chain rows : List EvidenceRow, chain.length = 2 ∧
      (∃ e, rows = [e] ∧ e.sequence = some 5) ∧
      (verifyChain plainHost rows (some 7) none).intact = true ∧
      (window (chainOf rows (some 7)) none).map (fun e => e.payload) <+:
        chain.map fun e => e.payload := by
  have hw := runMoves_reach overtaking_signing overtaking_runs
  set w := (runMoves emptyLedger overtaking).get overtaking_runs
  have hintact : (verifyChain plainHost ((w.store.committed.evidence.take 1).map
      fun e => { e with sequence := some 5 }) (some 7) none).intact = true := by decide +kernel
  have hhashes : ((chainOf w.store.committed.evidence (some 7)).map fun e =>
      plainHost.payloadHash e.payload).Nodup := by decide +kernel
  refine ⟨chainOf w.store.committed.evidence (some 7), _, by decide +kernel, ?_, hintact,
    verifyChain_prefix emptyLedger_atRest rfl hw (injOn_payloadsOf hhashes) ?_ hintact⟩
  · cases hrows : w.store.committed.evidence with
    | nil => exact absurd hrows (by decide +kernel)
    | cons e es => exact ⟨_, rfl, rfl⟩
  · intro e he _
    obtain ⟨he, ho⟩ := mem_chainOf.1 he
    obtain ⟨d, hd, rfl⟩ := List.mem_map.1 he
    exact mem_payloadsOf (e := d) (mem_chainOf.2 ⟨List.mem_of_mem_take hd, ho⟩)

/-! ## Whatever was signed -/

/-- The payloads that were signed. -/
def signedPayloads (s : Ledger ι) : Set Json := {p | ∃ x ∈ s.signed, x.2.payload = p}

/-- The payload was made by an append to the organization's chain. -/
def AppendedTo (s : Ledger ι) (o : Option Uuid) (payload : Json) : Prop :=
  ∃ d x, (Purpose.evidence o d, x) ∈ s.signed ∧ x.payload = payload

/-- The evidence of a decision goes to the chain of one organization: that of the agent whose intent
was decided, which every caller looks up. -/
def OneChainPerDecision (s : Ledger ι) : Prop :=
  ∀ o o' d x x', (Purpose.evidence o d, x) ∈ s.signed → (Purpose.evidence o' d, x') ∈ s.signed → o = o'

/-- What `verify_chain` does not check. -/
structure NoStrangers (H : EvidenceHost) (s : Ledger ι) (o : Option Uuid) (chain : List EvidenceRow) :
    Prop where
  /-- Every record has a link. -/
  linked : ∀ e ∈ chain, ∃ v, e.payload.get? "previous_hash" = some v
  /-- The first record names a decision of the organization. -/
  first : ∀ e, (window chain none).head? = some e → ∃ d x, (Purpose.evidence o d, x) ∈ s.signed ∧
    e.payload.get? "decision_id" = some (.str (H.uuidText d))

variable {o : Option Uuid}

omit [DecidableEq ι] in
/-- A payload with a link was signed as evidence, and names its decision. -/
theorem AppendedTo.of_link {s : Ledger ι} (hlog : ∀ x ∈ s.signed, Signable H s₀ s x.2.payload x.1)
    {p v : Json} (hp : p ∈ signedPayloads s) (hv : p.get? "previous_hash" = some v) :
    ∃ o d q, AppendedTo s o p ∧ p.get? "decision_id" = some (.str (H.uuidText d)) ∧
      (∃ x, (Purpose.evidence o d, x) ∈ s.signed) ∧ v = .ofText q ∧ Precedes H s₀ s o q := by
  obtain ⟨⟨purpose, x⟩, hx, rfl⟩ := hp
  have hsign := hlog _ hx
  cases purpose with
  | evidence o d =>
    obtain ⟨q, hlink, hprec⟩ := hsign
    have hv' : v = .ofText q := Option.some.inj (hv.symm.trans hlink.previousHash)
    exact ⟨o, d, q, ⟨d, x, hx, rfl⟩, hlink.decisionId, ⟨x, hx⟩, hv', hprec⟩
  | auditEvent | capability =>
    rw [Signable] at hsign
    exact absurd (hv.symm.trans hsign) nofun

omit [DecidableEq ι] in
/-- The organization of a payload is told by its decision. -/
theorem AppendedTo.org_eq {s : Ledger ι} (hlog : ∀ x ∈ s.signed, Signable H s₀ s x.2.payload x.1)
    (hids : Function.Injective H.uuidText) (hone : OneChainPerDecision s) {o o' : Option Uuid}
    {d : Uuid} {p : Json} (hp : AppendedTo s o p) (hd : ∃ x, (Purpose.evidence o' d, x) ∈ s.signed)
    (hname : p.get? "decision_id" = some (.str (H.uuidText d))) : o = o' := by
  obtain ⟨d', x, hx, rfl⟩ := hp
  obtain ⟨y, hy⟩ := hd
  obtain ⟨q, hlink, -⟩ := hlog _ hx
  have hdd : d' = d := by
    have := hlink.decisionId.symm.trans hname
    exact hids (Json.str.inj (Option.some.inj this))
  subst hdd
  exact hone o o' d' x y hx hy

omit [DecidableEq ι] in
/-- Along the links, one record after another is the organization's own. -/
theorem AppendedTo.of_linksFrom {s : Ledger ι}
    (hlog : ∀ x ∈ s.signed, Signable H s₀ s x.2.payload x.1) (hempty : s₀.committed.evidence = [])
    (hids : Function.Injective H.uuidText) (hone : OneChainPerDecision s)
    (hinj : (signedPayloads s).InjOn H.payloadHash) {p : Json} {ps : List Json}
    (hp : AppendedTo s o p) (hsigned : ∀ q ∈ ps, q ∈ signedPayloads s)
    (hcarry : ∀ q ∈ ps, ∃ v, q.get? "previous_hash" = some v)
    (hlinks : (payloadLinks H).LinksFrom (.str (H.payloadHash p)) ps) :
    ∀ q ∈ ps, AppendedTo s o q := by
  induction ps generalizing p with
  | nil => simp
  | cons q ps ih =>
    obtain ⟨v, hv⟩ := hcarry q List.mem_cons_self
    obtain ⟨o', d, r, happ, -, -, hvr, hprec⟩ :=
      AppendedTo.of_link hlog (hsigned q List.mem_cons_self) hv
    have hlink : v = .str (H.payloadHash p) := hlinks.1 v hv
    -- the record before `q` in its own chain has the payload `p`
    obtain ⟨payload, hpayload, hin⟩ : ∃ payload, H.payloadHash p = H.payloadHash payload ∧
        AppendedTo s o' payload := by
      cases r with
      | none => rw [hvr] at hlink; cases hlink
      | some x =>
        rw [hvr] at hlink
        obtain ⟨payload, hpayload, hin⟩ := hprec x rfl
        refine ⟨payload, (Json.str.inj hlink).symm.trans hpayload, ?_⟩
        rcases hin with ⟨e, he, -⟩ | hin
        · rw [hempty] at he
          cases he
        · exact hin
    have hpp : p = payload := by
      obtain ⟨d, x, hx, rfl⟩ := hp
      obtain ⟨d', x', hx', rfl⟩ := hin
      exact hinj ⟨_, hx, rfl⟩ ⟨_, hx', rfl⟩ hpayload
    subst hpp
    have hoo : o = o' := by
      obtain ⟨d', x', hx', hpx⟩ := hin
      obtain ⟨_, hlink', -⟩ := hlog _ hx'
      exact hp.org_eq hlog hids hone ⟨x', hx'⟩ (hpx ▸ hlink'.decisionId)
    subst hoo
    intro q' hq'
    rcases List.mem_cons.1 hq' with rfl | hq'
    · exact happ
    · exact ih happ (fun r hr => hsigned r (List.mem_cons_of_mem _ hr))
        (fun r hr => hcarry r (List.mem_cons_of_mem _ hr)) hlinks.2 q' hq'

/-- **When an intact chain is authentic**: exactly if every record has a link, and the first one names
a decision of the organization. -/
theorem verifyChain_authentic (h : s₀.AtRest) (hempty : s₀.committed.evidence = [])
    (hsigned : s₀.signed = []) (hw : Reach (ledgerMachine H ι) (LedgerService.signing H) (· = s₀) w)
    (hids : Function.Injective H.uuidText) (hone : OneChainPerDecision w.store)
    (hinj : (signedPayloads w.store).InjOn H.payloadHash)
    (hunforgeable : Unforgeable H (chainOf rows o) (signedPayloads w.store))
    (hintact : (verifyChain H rows o none).intact = true) :
    (∀ e ∈ chainOf rows o, AppendedTo w.store o e.payload) ↔
      NoStrangers H w.store o (chainOf rows o) := by
  have hinv : ChainInv H s₀ 0 w.store := .reach h (by simp [hempty, chainOf]) hw
  have hlog : ∀ x ∈ w.store.signed, Signable H s₀ w.store x.2.payload x.1 := by
    intro x hx
    refine (hinv.signed x hx).resolve_left ?_
    rw [hsigned]
    exact List.not_mem_nil
  constructor
  · intro hown
    have hlinked : ∀ e ∈ chainOf rows o, ∃ d x, (Purpose.evidence o d, x) ∈ w.store.signed ∧
        (∃ q, CarriesLink H d q e.payload) := by
      intro e he
      obtain ⟨d, x, hx, hp⟩ := hown e he
      obtain ⟨q, hlink, -⟩ := hlog _ hx
      exact ⟨d, x, hx, q, hp ▸ hlink⟩
    refine ⟨fun e he => ?_, fun e he => ?_⟩
    · obtain ⟨d, x, -, q, hlink⟩ := hlinked e he
      exact ⟨_, hlink.previousHash⟩
    · obtain ⟨d, x, hx, q, hlink⟩ := hlinked e (mem_window_none.1 (List.mem_of_head? he))
      exact ⟨d, x, hx, hlink.decisionId⟩
  · intro hno
    obtain ⟨hverified, hlinks⟩ := verifyChain_intact.1 hintact
    have hmem : ∀ e ∈ window (chainOf rows o) none, e.payload ∈ signedPayloads w.store :=
      fun e he => hunforgeable e (mem_window_none.1 he) (hverified e he)
    have hall : ∀ e ∈ window (chainOf rows o) none, AppendedTo w.store o e.payload := by
      cases hwin : window (chainOf rows o) none with
      | nil => simp
      | cons e es =>
        rw [hwin] at hlinks hmem
        have hin : ∀ f ∈ e :: es, f ∈ chainOf rows o := fun f hf => mem_window_none.1 (hwin ▸ hf)
        obtain ⟨d, x, hx, hname⟩ := hno.first e (by rw [hwin]; rfl)
        obtain ⟨v, hv⟩ := hno.linked e (hin e List.mem_cons_self)
        obtain ⟨o', d', q, happ, hname', hd', -, -⟩ :=
          AppendedTo.of_link hlog (hmem e List.mem_cons_self) hv
        have hoo : o' = o := happ.org_eq hlog hids hone ⟨x, hx⟩ hname
        subst hoo
        have hrest : (payloadLinks H).LinksFrom (.str (H.payloadHash e.payload))
            (es.map fun f => f.payload) := hlinks.2
        have htail : ∀ q ∈ es.map fun f => f.payload, AppendedTo w.store o' q := by
          refine happ.of_linksFrom hlog hempty hids hone hinj (fun q hq => ?_) (fun q hq => ?_) hrest
          · obtain ⟨f, hf, rfl⟩ := List.mem_map.1 hq
            exact hmem f (List.mem_cons_of_mem _ hf)
          · obtain ⟨f, hf, rfl⟩ := List.mem_map.1 hq
            exact hno.linked f (hin f (List.mem_cons_of_mem _ hf))
        intro f hf
        rcases List.mem_cons.1 hf with rfl | hf
        · exact happ
        · exact htail f.payload (List.mem_map_of_mem hf)
    exact fun e he => hall e (mem_window_none.2 he)

/-! ### A stranger -/

theorem plainHost_uuidText : Function.Injective plainHost.uuidText := by
  intro m n h
  have h : m.repr = n.repr := h
  rw [← Nat.ofDigitChars_ten_toDigits (n := m), ← Nat.toList_repr, h, Nat.toList_repr,
    Nat.ofDigitChars_ten_toDigits]

/-- Two decisions of organization 7 are recorded, and an agent is suspended. -/
def suspending : List LedgerMove :=
  [.start false (appendEvent 1)] ++ List.replicate 11 (.go false) ++
    [.start false (appendEvent 2)] ++ List.replicate 11 (.go false) ++
    [.start true (signAuditEvent plainHost 3 "suspended" none .null), .go true, .go true]

theorem suspending_runs : (runMoves emptyLedger suspending).isSome = true := by decide +kernel

theorem suspending_signing :
    ∀ m ∈ suspending, ∀ p, m.program? = some p → p ∈ signing plainHost := by
  intro m hm p hp
  simp only [suspending, List.mem_append, List.mem_cons, List.mem_replicate, List.not_mem_nil,
    or_false] at hm
  rcases hm with (((rfl | ⟨-, rfl⟩) | rfl) | ⟨-, rfl⟩) | (rfl | rfl | rfl) <;> cases hp
  · exact appendEvent_mem _
  · exact appendEvent_mem _
  · exact .inr (.inl ⟨_, _, _, _, rfl⟩)

/-- The ledger after it. -/
def suspended : Ledger Bool := ((runMoves emptyLedger suspending).get suspending_runs).store

theorem suspended_reach : Reach (ledgerMachine plainHost Bool) (signing plainHost) (· = emptyLedger)
    ((runMoves emptyLedger suspending).get suspending_runs) :=
  runMoves_reach suspending_signing suspending_runs

/-- The audit event, as a third record of the chain. -/
def spliced : List EvidenceRow :=
  suspended.committed.evidence ++ (suspended.signed.drop 2).map fun x =>
    { x.2 with id := 9, decisionId := 1, status := .verified, organizationId := some 7,
               sequence := some 3, createdAt := 0 }

/-- What was signed: two records of evidence, and an audit event. -/
theorem suspended_signed : ∃ x₁ x₂ y : SignedPayload,
    suspended.signed = [(.evidence (some 7) 1, x₁), (.evidence (some 7) 2, x₂), (.auditEvent, y)] ∧
      suspended.committed.evidence.map EvidenceRow.toSignedPayload = [x₁, x₂] ∧
      (chainOf spliced (some 7)).map EvidenceRow.toSignedPayload = [x₁, x₂, y] ∧
      [x₁, x₂, y].Pairwise fun x y => plainHost.payloadHash x.payload ≠ plainHost.payloadHash y.payload :=
  ⟨_, _, _, rfl, rfl, rfl, by decide +kernel⟩

theorem suspended_oneChain : OneChainPerDecision suspended := by
  obtain ⟨x₁, x₂, y, hsigned, -⟩ := suspended_signed
  intro o o' d z z' hz hz'
  rw [hsigned] at hz hz'
  simp only [List.mem_cons, Prod.mk.injEq, Purpose.evidence.injEq, reduceCtorEq, false_and, or_false,
    List.not_mem_nil] at hz hz'
  have ho : ∀ {o : Option Uuid} {z : SignedPayload}, ((o = some 7 ∧ d = 1) ∧ z = x₁ ∨
      (o = some 7 ∧ d = 2) ∧ z = x₂) → o = some 7 := by
    rintro o z (⟨⟨h, -⟩, -⟩ | ⟨⟨h, -⟩, -⟩) <;> exact h
  rw [ho hz, ho hz']

theorem suspended_injOn : (signedPayloads suspended).InjOn plainHost.payloadHash := by
  obtain ⟨x₁, x₂, y, hsigned, -, -, hne⟩ := suspended_signed
  have hmem : ∀ p ∈ signedPayloads suspended, ∃ x ∈ [x₁, x₂, y], x.payload = p := by
    rintro p ⟨u, hu, rfl⟩
    rw [hsigned] at hu
    exact ⟨u.2, List.mem_map_of_mem (f := Prod.snd) hu, rfl⟩
  intro p hp q hq heq
  obtain ⟨x, hx, rfl⟩ := hmem p hp
  obtain ⟨x', hx', rfl⟩ := hmem q hq
  by_contra hpayload
  have hsymm : Std.Symm fun x y : SignedPayload =>
      plainHost.payloadHash x.payload ≠ plainHost.payloadHash y.payload := ⟨fun _ _ h => h.symm⟩
  exact hne.forall hx hx' (fun hsame => hpayload (hsame ▸ rfl)) heq

/-- The chain of a run, as it was recorded. -/
theorem verifyChain_authentic_recorded :
    (chainOf suspended.committed.evidence (some 7)).length = 2 ∧
    ((∀ e ∈ chainOf suspended.committed.evidence (some 7), AppendedTo suspended (some 7) e.payload) ↔
      NoStrangers plainHost suspended (some 7) (chainOf suspended.committed.evidence (some 7))) := by
  refine ⟨by decide +kernel, verifyChain_authentic emptyLedger_atRest rfl rfl suspended_reach
    plainHost_uuidText suspended_oneChain suspended_injOn (fun e he _ => ?_) (by decide +kernel)⟩
  obtain ⟨x₁, x₂, y, hsigned, hrows, -⟩ := suspended_signed
  have hx := List.mem_map_of_mem (f := EvidenceRow.toSignedPayload) (mem_chainOf.1 he).1
  rw [hrows, List.mem_cons, List.mem_singleton] at hx
  rcases hx with hx | hx
  · exact ⟨(.evidence (some 7) 1, x₁), hsigned ▸ List.mem_cons_self, by rw [← hx]⟩
  · exact ⟨(.evidence (some 7) 2, x₂), hsigned ▸ by simp, by rw [← hx]⟩

/-- A chain with an audit event for a record is reported as intact. -/
theorem verifyChain_spliced :
    ∃ (w : World LedgerStatement LedgerStatement.Answer PyError (Ledger Bool) Bool)
      (rows : List EvidenceRow),
      Reach (ledgerMachine plainHost Bool) (signing plainHost) (· = emptyLedger) w ∧
      Function.Injective plainHost.uuidText ∧ OneChainPerDecision w.store ∧
      (signedPayloads w.store).InjOn plainHost.payloadHash ∧
      Unforgeable plainHost (chainOf rows (some 7)) (signedPayloads w.store) ∧
      (verifyChain plainHost rows (some 7) none).intact = true ∧
      ¬ ∀ e ∈ chainOf rows (some 7), AppendedTo w.store (some 7) e.payload := by
  obtain ⟨x₁, x₂, y, hsigned, -, hrows, hne⟩ := suspended_signed
  refine ⟨_, spliced, suspended_reach, plainHost_uuidText, suspended_oneChain, suspended_injOn,
    fun e he _ => ?_, by decide +kernel, fun hall => ?_⟩
  · have hx := List.mem_map_of_mem (f := EvidenceRow.toSignedPayload) he
    rw [hrows, List.mem_cons, List.mem_cons, List.mem_singleton] at hx
    rcases hx with hx | hx | hx
    · exact ⟨(.evidence (some 7) 1, x₁), hsigned ▸ List.mem_cons_self, by rw [← hx]⟩
    · exact ⟨(.evidence (some 7) 2, x₂), hsigned ▸ by simp, by rw [← hx]⟩
    · exact ⟨(.auditEvent, y), hsigned ▸ by simp, by rw [← hx]⟩
  · obtain ⟨e, he, hey⟩ := List.mem_map.1 (hrows ▸ (by simp : y ∈ [x₁, x₂, y]))
    obtain ⟨d, z, hz, hze⟩ := hall e he
    have hz : (Purpose.evidence (some 7) d, z) ∈ suspended.signed := hz
    rw [hsigned] at hz
    simp only [List.mem_cons, Prod.mk.injEq, reduceCtorEq, false_and, or_false, List.not_mem_nil]
      at hz
    simp only [List.pairwise_cons, List.mem_cons, List.not_mem_nil, or_false] at hne
    rcases hz with ⟨-, hz⟩ | ⟨-, hz⟩
    · exact hne.1 y (.inr rfl) (by rw [← hz, hze, ← hey])
    · exact hne.2.1 y rfl (by rw [← hz, hze, ← hey])

end PayReality
