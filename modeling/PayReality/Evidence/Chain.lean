import PayReality.Evidence.Append

/-!
# The evidence chain is linear

Whatever transactions append to an organization, and however they interleave, its chain is what it
was at the start followed by records that are numbered `1, 2, …`, each linked to the one before it
(`GrownFrom`). A session holds the row of the organization from its lookup of the last record to the
end of its transaction, so the committed chain, and the chain that the holder sees, stay of this
form (`chainLogic`).

**Main result** `appendEvidence_linear`.
-/

namespace PayReality

open Program

/-! ## Chains grown by appends -/

/-- Records that appends have added behind the records of `base`. -/
structure Appended (H : EvidenceHost) (start : Timestamp) (base S : List EvidenceRow) : Prop where
  numbered : ∀ k e, S[k]? = some e → e.sequence = some (k + 1)
  links : (payloadLinks H).LinksFrom (.ofText (previousChainHash H base))
    (S.map fun e => e.payload)
  carries : ∀ e ∈ S, (payloadLinks H).Carries e.payload
  signed : ∀ e ∈ S, e.toSignedPayload =
    EvidenceService.signPayload H.toCrypto H.settings e.payload
  created : ∀ e ∈ S, start ≤ e.createdAt

/-- A chain that has grown from `base`. -/
def GrownFrom (H : EvidenceHost) (start : Timestamp) (base chain : List EvidenceRow) : Prop :=
  ∃ S, chain = base ++ S ∧ Appended H start base S

/-- The payloads of some records. -/
def payloadsOf (chain : List EvidenceRow) : Set Json := {p | p ∈ chain.map fun e => e.payload}

theorem mem_payloadsOf {chain : List EvidenceRow} {e : EvidenceRow} (he : e ∈ chain) :
    e.payload ∈ payloadsOf chain := List.mem_map.2 ⟨e, he, rfl⟩

theorem injOn_payloadsOf {H : EvidenceHost} {S : List EvidenceRow}
    (h : (S.map fun e => H.payloadHash e.payload).Nodup) : (payloadsOf S).InjOn H.payloadHash := by
  intro p hp q hq hpq
  obtain ⟨d, hd, rfl⟩ := List.mem_map.1 hp
  obtain ⟨e, he, rfl⟩ := List.mem_map.1 hq
  rw [List.inj_on_of_nodup_map h hd he hpq]

theorem mem_window_none {chain : List EvidenceRow} {e : EvidenceRow} :
    e ∈ window chain none ↔ e ∈ chain := by
  rw [window, List.mem_insertionSort]
  simp

/-- A collision-free hash tells payloads apart, and from the start of a chain. -/
theorem separates_payloads {H : EvidenceHost} {payloads : Set Json}
    (hinj : payloads.InjOn H.payloadHash) : (payloadLinks H).Separates .null payloads :=
  ⟨fun _ hp _ hq heq => hinj hp hq (Json.str.inj heq), fun _ _ => nofun⟩

theorem foldr_max_eq {xs : List ℕ} {n : ℕ} (hle : ∀ m ∈ xs, m ≤ n) (hmem : n = 0 ∨ n ∈ xs) :
    xs.foldr max 0 = n := by
  have hub : xs.foldr max 0 ≤ n := List.max_le_of_forall_le xs n hle
  rcases hmem with rfl | hmem
  · exact Nat.le_zero.1 hub
  · exact Nat.le_antisymm hub (List.le_max_of_le' 0 hmem le_rfl)

/-- The first of some rows comes before all of them. -/
theorem firstRow_some {order : EvidenceRow → EvidenceRow → Bool}
    [Std.Total fun d e => order d e = true] [IsTrans EvidenceRow fun d e => order d e = true]
    {rows : List EvidenceRow} {e : EvidenceRow} (h : firstRow order rows = some e) :
    e ∈ rows ∧ ∀ d ∈ rows, order e d = true := by
  obtain ⟨rest, hsort⟩ := List.head?_eq_some_iff.1 h
  have hmem : ∀ d, d ∈ rows ↔ d ∈ e :: rest := fun d => by
    rw [← hsort]
    exact ((List.perm_insertionSort _ rows).mem_iff).symm
  have hpairwise := List.pairwise_insertionSort (fun d e => order d e = true) rows
  rw [hsort, List.pairwise_cons] at hpairwise
  refine ⟨(hmem e).2 List.mem_cons_self, fun d hd => ?_⟩
  rcases List.mem_cons.1 ((hmem d).1 hd) with rfl | hd
  · exact (Std.Total.total (r := fun d e => order d e = true) d d).elim id id
  · exact hpairwise.1 d hd

theorem firstRow_eq_none {order : EvidenceRow → EvidenceRow → Bool} {rows : List EvidenceRow} :
    firstRow order rows = none ↔ rows = [] := by
  rw [firstRow, List.head?_eq_none_iff, ← List.length_eq_zero_iff, List.length_insertionSort,
    List.length_eq_zero_iff]

namespace Appended

variable {H : EvidenceHost} {start : Timestamp} {base S : List EvidenceRow}

theorem nil : Appended H start base [] where
  numbered k e h := by simp at h
  links := trivial
  carries := by simp
  signed := by simp
  created := by simp

theorem of_prefix {T : List EvidenceRow} (h : Appended H start base S) (hpre : T <+: S) :
    Appended H start base T := by
  obtain ⟨rest, rfl⟩ := hpre
  refine ⟨fun k e hk => h.numbered k e ?_, ?_, fun e he => h.carries e (List.mem_append_left _ he),
    fun e he => h.signed e (List.mem_append_left _ he),
    fun e he => h.created e (List.mem_append_left _ he)⟩
  · have hlt : k < T.length := (List.getElem?_eq_some_iff.1 hk).1
    rw [List.getElem?_append_left hlt]
    exact hk
  · have := h.links
    rw [List.map_append] at this
    exact this.of_prefix (List.prefix_append _ _)

theorem sequence_le (h : Appended H start base S) {e : EvidenceRow} (he : e ∈ S) :
    ∃ n, e.sequence = some n ∧ 1 ≤ n ∧ n ≤ S.length := by
  obtain ⟨k, hk⟩ := List.getElem?_of_mem he
  have hlt : k < S.length := (List.getElem?_eq_some_iff.1 hk).1
  exact ⟨k + 1, h.numbered k e hk, by omega, by omega⟩

/-- A record is told by its number. -/
theorem eq_of_sequence (h : Appended H start base S) {d e : EvidenceRow} (hd : d ∈ S) (he : e ∈ S)
    (heq : d.sequence = e.sequence) : d = e := by
  obtain ⟨k, hk⟩ := List.getElem?_of_mem hd
  obtain ⟨l, hl⟩ := List.getElem?_of_mem he
  rw [h.numbered k d hk, h.numbered l e hl, Option.some.injEq, Nat.add_right_cancel_iff] at heq
  subst heq
  exact Option.some.inj (hk.symm.trans hl)

/-- `_next_chain_sequence` gives the next number. -/
theorem next (h : Appended H start base S) (hbase : ∀ e ∈ base, e.sequence = none) :
    nextChainSequence (base ++ S) = S.length + 1 := by
  have hnone : base.filterMap EvidenceRow.sequence = [] := List.filterMap_eq_nil_iff.2 hbase
  rw [nextChainSequence, List.filterMap_append, hnone, List.nil_append, Nat.add_right_cancel_iff]
  refine foldr_max_eq (fun n hn => ?_) ?_
  · obtain ⟨e, he, hen⟩ := List.mem_filterMap.1 hn
    obtain ⟨m, hm, -, hle⟩ := h.sequence_le he
    rw [hm, Option.some.injEq] at hen
    omega
  · rcases List.eq_nil_or_concat' S with rfl | ⟨S, e, rfl⟩
    · exact .inl rfl
    · refine .inr (List.mem_filterMap.2 ⟨e, by simp, ?_⟩)
      rw [h.numbered S.length e (by simp), List.length_append]
      rfl

/-- `_previous_chain_hash` gives the hash that the next record has to carry. -/
theorem tip (h : Appended H start base S) (hbase : ∀ e ∈ base, e.sequence = none) :
    Json.ofText (previousChainHash H (base ++ S)) =
      (payloadLinks H).tip (.ofText (previousChainHash H base)) (S.map fun e => e.payload) := by
  rcases List.eq_nil_or_concat' S with rfl | ⟨S, e, rfl⟩
  · rw [List.append_nil]
    rfl
  · have hlast : latest (base ++ (S ++ [e])) = some e := by
      cases hl : latest (base ++ (S ++ [e])) with
      | none => simp [latest, firstRow_eq_none] at hl
      | some m =>
        obtain ⟨hm, hfirst⟩ := firstRow_some hl
        have he := hfirst e (by simp)
        have hseq : e.sequence = some (S.length + 1) := h.numbered S.length e (by simp)
        -- only an appended record can come last, and only the last of them
        rcases List.mem_append.1 hm with hm | hm
        · simp [EvidenceRow.inOrder, hseq, hbase m hm] at he
        · obtain ⟨n, hn, -, hle⟩ := h.sequence_le hm
          have hen : S.length + 1 ≤ n := by
            simp only [EvidenceRow.inOrder, hseq, hn, Bool.or_eq_true, decide_eq_true_eq,
              Bool.and_eq_true] at he
            omega
          rw [List.length_append, List.length_singleton] at hle
          have hme : m = e := h.eq_of_sequence hm (by simp) (by rw [hn, hseq]; congr 1; omega)
          rw [hme]
    rw [List.map_append, List.map_singleton, HashLinks.tip_concat, previousChainHash, hlast]
    rfl

/-- One append. -/
theorem concat (h : Appended H start base S) (hbase : ∀ e ∈ base, e.sequence = none)
    {e : EvidenceRow} (hseq : e.sequence = some (nextChainSequence (base ++ S)))
    (hprev : e.payload.get? "previous_hash" =
      some (.ofText (previousChainHash H (base ++ S))))
    (hsigned : e.toSignedPayload = EvidenceService.signPayload H.toCrypto H.settings e.payload)
    (hcreated : start ≤ e.createdAt) : Appended H start base (S ++ [e]) := by
  have hcases : ∀ d ∈ S ++ [e], d ∈ S ∨ d = e := fun d hd => by
    rwa [List.mem_append, List.mem_singleton] at hd
  refine ⟨fun k d hk => ?_, ?_, fun d hd => ?_, fun d hd => ?_, fun d hd => ?_⟩
  · by_cases hlt : k < S.length
    · rw [List.getElem?_append_left hlt] at hk
      exact h.numbered k d hk
    · have hk' := (List.getElem?_eq_some_iff.1 hk).1
      rw [List.length_append, List.length_singleton] at hk'
      obtain rfl : k = S.length := by omega
      rw [List.getElem?_concat_length, Option.some.injEq] at hk
      rw [← hk, hseq, h.next hbase]
  · rw [List.map_append, List.map_singleton, HashLinks.linksFrom_concat]
    refine ⟨h.links, fun c hc => ?_⟩
    have hc : e.payload.get? "previous_hash" = some c := hc
    rw [hprev, Option.some.injEq, h.tip hbase] at hc
    exact hc.symm
  · rcases hcases d hd with hd | rfl
    · exact h.carries d hd
    · exact ⟨_, hprev⟩
  · rcases hcases d hd with hd | rfl
    · exact h.signed d hd
    · exact hsigned
  · rcases hcases d hd with hd | rfl
    · exact h.created d hd
    · exact hcreated

end Appended

/-! ## The contract of the sessions -/

theorem chainOf_append (rows more : List EvidenceRow) (o : Option Uuid) :
    chainOf (rows ++ more) o = chainOf rows o ++ chainOf more o := List.filter_append ..

theorem mem_chainOf {rows : List EvidenceRow} {o : Option Uuid} {e : EvidenceRow} :
    e ∈ chainOf rows o ↔ e ∈ rows ∧ e.organizationId = o := by
  simp [chainOf]

section Contract

open LedgerService

variable {ι : Type} (H : EvidenceHost) (s₀ : Ledger ι) (o : Uuid)

/-- What session `i` sees of the chain of an organization. -/
def Ledger.chain (s : Ledger ι) (i : ι) (o : Option Uuid) : List EvidenceRow :=
  chainOf (s.snapshot i).evidence o

theorem Ledger.chain_eq (s : Ledger ι) (i : ι) (o : Option Uuid) :
    s.chain i o = chainOf s.committed.evidence o ++ chainOf (s.pending i).evidence o :=
  chainOf_append ..

/-- The hash is that of a record of the organization that was there at the start, or of one that has
been signed since. -/
def Precedes (s : Ledger ι) (o : Option Uuid) (previousHash : Option String) : Prop :=
  ∀ h, previousHash = some h → ∃ payload, h = H.payloadHash payload ∧
    ((∃ e ∈ s₀.committed.evidence, e.organizationId = o ∧ e.payload = payload) ∨
      ∃ d x, (.evidence o d, x) ∈ s.signed ∧ x.payload = payload)

/-- What a payload has to be like to be signed for a purpose. -/
def Signable (s : Ledger ι) (payload : Json) : Purpose → Prop
  | .evidence o d => ∃ p, CarriesLink H d p payload ∧ Precedes H s₀ s o p
  | .auditEvent | .capability => payload.get? "previous_hash" = none

/-- What holds of the ledger at any time. -/
structure ChainInv (s : Ledger ι) : Prop where
  clock : s₀.clock ≤ s.clock
  began : ∀ i t, s.began i = some t → s₀.clock ≤ t
  committed : GrownFrom H s₀.clock (chainOf s₀.committed.evidence (some o))
    (chainOf s.committed.evidence (some o))
  held : ∀ i, s.holder o = some i →
    GrownFrom H s₀.clock (chainOf s₀.committed.evidence (some o)) (s.chain i (some o))
  owner : ∀ i, s.holder o ≠ some i → chainOf (s.pending i).evidence (some o) = []
  stored : ∀ e, (e ∈ s.committed.evidence ∨ ∃ i, e ∈ (s.pending i).evidence) →
    e ∈ s₀.committed.evidence ∨
      (Purpose.evidence e.organizationId e.decisionId, e.toSignedPayload) ∈ s.signed
  signed : ∀ x ∈ s.signed, x ∈ s₀.signed ∨ Signable H s₀ s x.2.payload x.1

/-- What a session has to know when it sends a statement. -/
def ChainPre (i : ι) (q : LedgerStatement) (s : Ledger ι) : Prop :=
  match q with
  | .sign purpose payload => Signable H s₀ s payload purpose
  | .flushEvidence row =>
      (Purpose.evidence row.organizationId row.decisionId, row.toSignedPayload) ∈ s.signed ∧
      (row.organizationId = some o → s.holder o = some i ∧
        row.sequence = some (nextChainSequence (s.chain i (some o))) ∧
        row.payload.get? "previous_hash" =
          some (.ofText (previousChainHash H (s.chain i (some o)))) ∧
        row.toSignedPayload = EvidenceService.signPayload H.toCrypto H.settings row.payload)
  | _ => True

/-- What the other sessions leave alone. -/
structure ChainRely (i : ι) (s t : Ledger ι) : Prop where
  pending : t.pending i = s.pending i
  holder : t.holder o = some i ↔ s.holder o = some i
  chain : s.holder o = some i →
    chainOf t.committed.evidence (some o) = chainOf s.committed.evidence (some o)
  signed : s.signed ⊆ t.signed

variable {H s₀ o}

/-! ### What the statements keep -/

theorem Signable.mono {s t : Ledger ι} (h : s.signed ⊆ t.signed) {payload : Json}
    {purpose : Purpose} (hs : Signable H s₀ s payload purpose) : Signable H s₀ t payload purpose := by
  cases purpose with
  | evidence o d =>
    obtain ⟨p, hp, hprec⟩ := hs
    refine ⟨p, hp, fun x hx => ?_⟩
    obtain ⟨payload, hpayload, hin⟩ := hprec x hx
    exact ⟨payload, hpayload, hin.imp_right fun ⟨d, x, hx, he⟩ => ⟨d, x, h hx, he⟩⟩
  | auditEvent | capability => exact hs

/-- A change that no row, lock or signature shows. -/
theorem ChainInv.congr {s t : Ledger ι} (h : ChainInv H s₀ o s) (hclock : s₀.clock ≤ t.clock)
    (hbegan : ∀ i x, t.began i = some x → s₀.clock ≤ x) (hcommitted : t.committed = s.committed)
    (hpending : t.pending = s.pending) (hholder : t.holder = s.holder)
    (hsigned : t.signed = s.signed) : ChainInv H s₀ o t := by
  have hchain : ∀ i, t.chain i (some o) = s.chain i (some o) := fun i => by
    rw [Ledger.chain_eq, Ledger.chain_eq, hcommitted, hpending]
  refine ⟨hclock, hbegan, hcommitted ▸ h.committed, fun i hi => ?_, fun i hi => ?_, fun e he => ?_,
    fun x hx => ?_⟩
  · rw [hchain]
    exact h.held i (hholder ▸ hi)
  · rw [hpending]
    exact h.owner i (hholder ▸ hi)
  · rw [hcommitted, hpending] at he
    rw [hsigned]
    exact h.stored e he
  · rw [hsigned] at hx
    exact (h.signed x hx).imp_right (Signable.mono (by rw [hsigned]; exact List.Subset.refl _))

theorem ChainInv.startTime {s : Ledger ι} (h : ChainInv H s₀ o s) (i : ι) :
    s₀.clock ≤ s.startTime i := by
  rw [Ledger.startTime]
  cases hb : s.began i with
  | none => exact h.clock
  | some t => exact h.began i t hb

theorem ChainInv.sign {s : Ledger ι} (h : ChainInv H s₀ o s) {purpose : Purpose}
    {x : SignedPayload} (hx : Signable H s₀ s x.payload purpose) :
    ChainInv H s₀ o { s with signed := s.signed ++ [(purpose, x)] } := by
  have hsub : s.signed ⊆ s.signed ++ [(purpose, x)] := List.subset_append_left _ _
  refine ⟨h.clock, h.began, h.committed, h.held, h.owner,
    fun e he => (h.stored e he).imp_right fun hin => hsub hin, fun y hy => ?_⟩
  rcases List.mem_append.1 hy with hy | hy
  · exact (h.signed y hy).imp_right (Signable.mono hsub)
  · obtain rfl := List.mem_singleton.1 hy
    exact .inr (Signable.mono hsub hx)

theorem ChainRely.refl (i : ι) (s : Ledger ι) : ChainRely o i s s :=
  ⟨rfl, Iff.rfl, fun _ => rfl, List.Subset.refl _⟩

theorem ChainRely.trans {i : ι} {s t u : Ledger ι} (h : ChainRely o i s t)
    (h' : ChainRely o i t u) : ChainRely o i s u :=
  ⟨h'.pending.trans h.pending, h'.holder.trans h.holder,
    fun hs => (h'.chain (h.holder.2 hs)).trans (h.chain hs), List.Subset.trans h.signed h'.signed⟩

/-- A change that no row, lock or signature shows. -/
theorem ChainRely.of_eq {i : ι} {s t : Ledger ι} (hpending : t.pending i = s.pending i)
    (hholder : t.holder = s.holder) (hcommitted : t.committed = s.committed)
    (hsigned : s.signed ⊆ t.signed) : ChainRely o i s t :=
  ⟨hpending, by rw [hholder], fun _ => by rw [hcommitted], hsigned⟩

/-! ### What a session has looked up -/

variable (H s₀ o)

/-- The session holds the organization of the chain, if it appends to it. -/
def Holds (i : ι) (o' : Option Uuid) (s : Ledger ι) : Prop := o' = some o → s.holder o = some i

/-- What a session saw under the lock is still what it sees. -/
structure LookedUp (i : ι) (o' : Option Uuid) (seen : List EvidenceRow) (s : Ledger ι) : Prop where
  holds : Holds o i o' s
  chain : o' = some o → s.chain i (some o) = seen
  precedes : Precedes H s₀ s o' (previousChainHash H seen)

variable {H s₀ o} {i : ι} {s t : Ledger ι} {o' : Option Uuid} {seen : List EvidenceRow}

theorem Holds.rely (h : Holds o i o' s) (hst : ChainRely o i s t) : Holds o i o' t :=
  fun ho => hst.holder.2 (h ho)

theorem LookedUp.rely (h : LookedUp H s₀ o i o' seen s) (hst : ChainRely o i s t) :
    LookedUp H s₀ o i o' seen t := by
  refine ⟨h.holds.rely hst, fun ho => ?_, fun x hx => ?_⟩
  · rw [Ledger.chain_eq, hst.pending, hst.chain (h.holds ho), ← Ledger.chain_eq]
    exact h.chain ho
  · obtain ⟨payload, hpayload, hin⟩ := h.precedes x hx
    exact ⟨payload, hpayload, hin.imp_right fun ⟨d, y, hy, he⟩ => ⟨d, y, hst.signed hy, he⟩⟩

/-- The hash that a session looks up is that of a record it sees. -/
theorem ChainInv.precedes (h : ChainInv H s₀ o s) (i : ι) (o' : Option Uuid) :
    Precedes H s₀ s o' (previousChainHash H (s.chain i o')) := by
  intro x hx
  obtain ⟨e, he, rfl⟩ := Option.map_eq_some_iff.1 hx
  obtain ⟨hmem, ho⟩ := mem_chainOf.1 (firstRow_some he).1
  refine ⟨e.payload, rfl, ?_⟩
  rcases h.stored e ((List.mem_append.1 hmem).imp_right fun he => ⟨i, he⟩) with hold | hsigned
  · exact .inl ⟨e, hold, ho, rfl⟩
  · exact .inr ⟨e.decisionId, e.toSignedPayload, ho ▸ hsigned, rfl⟩

/-- A quiet statement may be sent at any time. -/
theorem chainPre_of_quiet {q : LedgerStatement} (hq : q.quiet = true) : ChainPre H s₀ o i q s := by
  cases q with
  | sign | flushEvidence => cases hq
  | _ => trivial

/-! ### The statements of one session -/

variable [DecidableEq ι]

theorem ChainInv.begin {s : Ledger ι} (h : ChainInv H s₀ o s) (i : ι) :
    ChainInv H s₀ o (s.begin i) := by
  refine h.congr h.clock (fun j x hx => ?_) rfl rfl rfl rfl
  rw [Ledger.begin_began] at hx
  by_cases hj : j = i
  · rw [if_pos hj, Option.some.injEq] at hx
    rw [← hx]
    exact h.startTime i
  · rw [if_neg hj] at hx
    exact h.began j x hx

/-- A session has taken the row of an organization. -/
theorem ChainInv.take {s : Ledger ι} (h : ChainInv H s₀ o s) {i : ι} {o' : Uuid}
    (ho : s.available i o') : ChainInv H s₀ o (s.take i o') := by
  have h' := h.begin i
  have hchain : ∀ j, (s.take i o').chain j (some o) = s.chain j (some o) := fun j => rfl
  refine ⟨h'.clock, h'.began, h'.committed, fun j hj => ?_, fun j hj => ?_, h'.stored, h'.signed⟩
  · rw [hchain]
    rw [Ledger.take_holder] at hj
    by_cases heq : o = o'
    · subst heq
      rw [if_pos rfl, Option.some.injEq] at hj
      subst hj
      rcases ho with hnone | hi
      · -- a session without the lock has flushed nothing for the organization
        rw [Ledger.chain_eq, h.owner i (by rw [hnone]; exact nofun), List.append_nil]
        exact h.committed
      · exact h.held i hi
    · rw [if_neg heq] at hj
      exact h.held j hj
  · rw [Ledger.take_holder] at hj
    by_cases heq : o = o'
    · subst heq
      rw [if_pos rfl] at hj
      rcases ho with hnone | hi
      · exact h.owner j (by rw [hnone]; exact nofun)
      · exact h.owner j (by rw [hi]; exact hj)
    · rw [if_neg heq] at hj
      exact h.owner j hj

/-- A flush without a record of evidence. -/
theorem ChainInv.addPending {s : Ledger ι} (h : ChainInv H s₀ o s) {i : ι} {rows : Rows}
    (hrows : rows.evidence = []) : ChainInv H s₀ o (s.addPending i rows) := by
  have hpending : ∀ j, ((s.addPending i rows).pending j).evidence = (s.pending j).evidence := by
    intro j
    rw [Ledger.addPending_pending]
    by_cases hj : j = i
    · rw [if_pos hj, Rows.append, hrows, List.append_nil, hj]
    · rw [if_neg hj]
  have h' := h.begin i
  refine ⟨h'.clock, h'.began, h'.committed, fun j hj => ?_, fun j hj => ?_, fun e he => ?_,
    h'.signed⟩
  · rw [Ledger.chain_eq, hpending, Ledger.addPending_committed, ← Ledger.chain_eq]
    exact h.held j hj
  · rw [hpending]
    exact h.owner j hj
  · simp only [hpending] at he
    exact h.stored e he

/-- A flush of a record of evidence. -/
theorem ChainInv.append {s : Ledger ι} (h : ChainInv H s₀ o s)
    (hbase : ∀ e ∈ chainOf s₀.committed.evidence (some o), e.sequence = none) {i : ι}
    {row : EvidenceRow} (hrow : ChainPre H s₀ o i (.flushEvidence row) s) :
    ChainInv H s₀ o (s.addPending i { evidence := [s.stamp i row] }) := by
  obtain ⟨hsigned, hown⟩ := hrow
  have h' := h.begin i
  have hpending : ∀ j, ((s.addPending i { evidence := [s.stamp i row] }).pending j).evidence =
      if j = i then (s.pending i).evidence ++ [s.stamp i row] else (s.pending j).evidence := by
    intro j
    rw [Ledger.addPending_pending]
    split <;> rfl
  have hstamp : chainOf [s.stamp i row] (some o) =
      if row.organizationId = some o then [s.stamp i row] else [] := by
    simp [chainOf, List.filter_cons, Ledger.stamp]
  refine ⟨h'.clock, h'.began, h'.committed, fun j hj => ?_, fun j hj => ?_, fun e he => ?_,
    h'.signed⟩
  · rw [Ledger.chain_eq, hpending, Ledger.addPending_committed]
    by_cases hji : j = i
    · subst hji
      rw [if_pos rfl, chainOf_append, ← List.append_assoc, ← Ledger.chain_eq, hstamp]
      obtain ⟨S, hS, happ⟩ := h.held j hj
      by_cases ho : row.organizationId = some o
      · obtain ⟨-, hseq, hprev, hsig⟩ := hown ho
        rw [if_pos ho]
        rw [hS] at hseq hprev ⊢
        exact ⟨S ++ [s.stamp j row], List.append_assoc .., happ.concat hbase hseq hprev hsig
          (h.startTime j)⟩
      · rw [if_neg ho, List.append_nil]
        exact ⟨S, hS, happ⟩
    · rw [if_neg hji, ← Ledger.chain_eq]
      exact h.held j hj
  · rw [hpending]
    by_cases hji : j = i
    · subst hji
      rw [if_pos rfl, chainOf_append, hstamp, if_neg fun ho => hj (hown ho).1, List.append_nil]
      exact h.owner j hj
    · rw [if_neg hji]
      exact h.owner j hj
  · rcases he with he | ⟨j, he⟩
    · exact h.stored e (.inl he)
    · rw [hpending] at he
      by_cases hji : j = i
      · rw [if_pos hji, List.mem_append, List.mem_singleton] at he
        rcases he with he | rfl
        · exact h.stored e (.inr ⟨i, he⟩)
        · exact .inr hsigned
      · rw [if_neg hji] at he
        exact h.stored e (.inr ⟨j, he⟩)

/-- The end of a transaction. -/
theorem ChainInv.close {s : Ledger ι} (h : ChainInv H s₀ o s) {i : ι} {committed : Rows}
    (hc : committed = s.committed ∨ committed = s.committed.append (s.pending i)) :
    ChainInv H s₀ o (s.close i committed) := by
  have hchain : chainOf committed.evidence (some o) = chainOf s.committed.evidence (some o) ∨
      chainOf committed.evidence (some o) = s.chain i (some o) := by
    rcases hc with rfl | rfl
    · exact .inl rfl
    · exact .inr rfl
  have hother : s.holder o ≠ some i → s.chain i (some o) = chainOf s.committed.evidence (some o) := by
    intro hi
    rw [Ledger.chain_eq, h.owner i hi, List.append_nil]
  have hsub : ∀ e ∈ committed.evidence,
      e ∈ s.committed.evidence ∨ ∃ j, e ∈ (s.pending j).evidence := by
    intro e he
    rcases hc with rfl | rfl
    · exact .inl he
    · exact (List.mem_append.1 he).imp_right fun he => ⟨i, he⟩
  refine ⟨h.clock, fun j x hx => ?_, ?_, fun j hj => ?_, fun j hj => ?_, fun e he => ?_, h.signed⟩
  · rw [Ledger.close_began] at hx
    by_cases hji : j = i
    · rw [if_pos hji] at hx
      cases hx
    · rw [if_neg hji] at hx
      exact h.began j x hx
  · show GrownFrom _ _ _ (chainOf committed.evidence _)
    rcases hchain with heq | heq
    · rw [heq]
      exact h.committed
    · rw [heq]
      by_cases hi : s.holder o = some i
      · exact h.held i hi
      · rw [hother hi]
        exact h.committed
  · -- another session holds the row, so nothing was committed for the organization
    rw [Ledger.close_holder] at hj
    by_cases hi : s.holder o = some i
    · rw [if_pos hi] at hj
      cases hj
    · rw [if_neg hi] at hj
      have hji : j ≠ i := fun hji => hi (hji ▸ hj)
      have hcommitted : chainOf committed.evidence (some o) =
          chainOf s.committed.evidence (some o) := by
        rcases hchain with heq | heq
        · exact heq
        · rw [heq, hother hi]
      rw [Ledger.chain_eq, Ledger.close_pending, if_neg hji, Ledger.close_committed, hcommitted,
        ← Ledger.chain_eq]
      exact h.held j hj
  · rw [Ledger.close_pending]
    by_cases hji : j = i
    · rw [if_pos hji]
      rfl
    · rw [if_neg hji]
      refine h.owner j fun hh => hj ?_
      rw [Ledger.close_holder, hh, if_neg fun hij => hji (Option.some.inj hij)]
  · rcases he with he | ⟨j, he⟩
    · exact h.stored e (hsub e he)
    · rw [Ledger.close_pending] at he
      by_cases hji : j = i
      · rw [if_pos hji] at he
        cases he
      · rw [if_neg hji] at he
        exact h.stored e (.inr ⟨j, he⟩)

/-- Every statement keeps the invariant. -/
theorem ChainInv.step {s t : Ledger ι} (h : ChainInv H s₀ o s)
    (hbase : ∀ e ∈ chainOf s₀.committed.evidence (some o), e.sequence = none) {i : ι}
    {q : LedgerStatement} {r : Except PyError q.Answer} (hpre : ChainPre H s₀ o i q s)
    (hstep : Ledger.step H i q s r t) : ChainInv H s₀ o t := by
  cases q with
  | begin | read | refresh =>
    rcases hstep with ⟨-, rfl⟩ | ⟨-, rfl⟩
    · exact h.begin i
    · exact h
  | now | queryOpa =>
    obtain ⟨-, -, rfl⟩ := hstep
    exact h
  | uuid4 =>
    obtain ⟨-, -, rfl⟩ := hstep
    exact h.congr h.clock h.began rfl rfl rfl rfl
  | lockOrganization o' =>
    rcases hstep with ⟨ho, -, rfl⟩ | ⟨-, rfl⟩
    · exact h.take ho
    · exact h
  | sign purpose payload =>
    obtain ⟨-, rfl⟩ := hstep
    exact h.sign hpre
  | flushIntent row | flushDecision row =>
    rcases hstep with ⟨-, hstep⟩ | ⟨-, rfl⟩
    · split at hstep
      · obtain ⟨-, rfl⟩ := hstep
        exact h
      · obtain ⟨-, rfl⟩ := hstep
        exact h.addPending rfl
    · exact h
  | flushEvidence row =>
    rcases hstep with ⟨-, hstep⟩ | ⟨-, rfl⟩
    · split at hstep
      · obtain ⟨-, rfl⟩ := hstep
        exact h
      · obtain ⟨-, rfl⟩ := hstep
        exact h.append hbase hpre
    · exact h
  | commit =>
    rcases hstep with ⟨-, rfl⟩ | ⟨-, rfl⟩
    · exact h.close (.inr rfl)
    · exact h
  | rollback =>
    obtain ⟨-, rfl⟩ := hstep
    exact h.close (.inl rfl)
  | elsewhere db =>
    obtain ⟨-, -, rfl⟩ := hstep
    exact h.congr h.clock h.began rfl rfl rfl rfl
  | tick now =>
    obtain ⟨hle, -, rfl⟩ := hstep
    exact h.congr (h.clock.trans hle) h.began rfl rfl rfl rfl

/-- A quiet statement changes nothing that a session counts on. -/
theorem ChainRely.of_quiet {i j : ι} {q : LedgerStatement} {s t : Ledger ι}
    {r : Except PyError q.Answer} (hq : q.quiet = true) (hstep : Ledger.step H i q s r t) :
    ChainRely o j s t := by
  cases q with
  | begin | read | refresh => rcases hstep with ⟨-, rfl⟩ | ⟨-, rfl⟩ <;> exact .of_eq rfl rfl rfl (by simp)
  | now | queryOpa | uuid4 =>
    obtain ⟨-, -, rfl⟩ := hstep
    exact .of_eq rfl rfl rfl (by simp)
  | _ => cases hq

/-- Every statement of another session keeps what a session counts on. -/
theorem ChainRely.step {s t : Ledger ι} (h : ChainInv H s₀ o s) {i j : ι} (hij : i ≠ j)
    {q : LedgerStatement} {r : Except PyError q.Answer} (hstep : Ledger.step H i q s r t) :
    ChainRely o j s t := by
  have hadd : ∀ rows, ChainRely o j s (s.addPending i rows) := fun rows =>
    .of_eq (by rw [Ledger.addPending_pending, if_neg (Ne.symm hij)]) rfl rfl
      (List.Subset.refl _)
  have hclose : ∀ committed : Rows, (s.holder o = some j →
      chainOf committed.evidence (some o) = chainOf s.committed.evidence (some o)) →
      ChainRely o j s (s.close i committed) := by
    intro committed hc
    refine ⟨by rw [Ledger.close_pending, if_neg (Ne.symm hij)], ?_, hc, List.Subset.refl _⟩
    rw [Ledger.close_holder]
    by_cases hi : s.holder o = some i
    · rw [if_pos hi, hi]
      exact iff_of_false nofun fun hc => hij (Option.some.inj hc)
    · rw [if_neg hi]
  cases q with
  | begin | read | refresh | now | queryOpa | uuid4 => exact .of_quiet rfl hstep
  | lockOrganization o' =>
    rcases hstep with ⟨ho, -, rfl⟩ | ⟨-, rfl⟩
    · refine ⟨rfl, ?_, fun _ => rfl, List.Subset.refl _⟩
      rw [Ledger.take_holder]
      by_cases heq : o = o'
      · subst heq
        rw [if_pos rfl]
        refine iff_of_false (fun hc => hij (Option.some.inj hc)) fun hc => ?_
        rcases ho with ho | ho
        · rw [ho] at hc
          cases hc
        · exact hij (Option.some.inj (ho.symm.trans hc))
      · rw [if_neg heq]
    · exact .refl j _
  | sign purpose payload =>
    obtain ⟨-, rfl⟩ := hstep
    exact .of_eq rfl rfl rfl (List.subset_append_left _ _)
  | flushIntent row | flushDecision row | flushEvidence row =>
    rcases hstep with ⟨-, hstep⟩ | ⟨-, rfl⟩
    · split at hstep
      · obtain ⟨-, rfl⟩ := hstep
        exact .refl j _
      · obtain ⟨-, rfl⟩ := hstep
        exact hadd _
    · exact .refl j _
  | commit =>
    rcases hstep with ⟨-, rfl⟩ | ⟨-, rfl⟩
    · refine hclose _ fun hj => ?_
      -- the other session has flushed nothing for an organization that this one holds
      have hi := h.owner i fun hi => hij (Option.some.inj (hi.symm.trans hj))
      show chainOf (_ ++ _) _ = _
      rw [chainOf_append, hi, List.append_nil]
    · exact .refl j _
  | rollback =>
    obtain ⟨-, rfl⟩ := hstep
    exact hclose _ fun _ => rfl
  | elsewhere db | tick now =>
    obtain ⟨-, -, rfl⟩ := hstep
    exact .of_eq rfl rfl rfl (List.Subset.refl _)

variable (H s₀ o)

/-- The contract of sessions that append to a chain of records without a sequence. -/
def chainLogic (hbase : ∀ e ∈ chainOf s₀.committed.evidence (some o), e.sequence = none) :
    Logic (ledgerMachine H ι) where
  inv := ChainInv H s₀ o
  pre := ChainPre H s₀ o
  rely := ChainRely o
  idle i s := s.pending i = {} ∧ s.holder o ≠ some i
  inv_step h hpre hstep := h.step hbase hpre hstep
  rely_refl := ChainRely.refl
  rely_trans := ChainRely.trans
  rely_step hij h _ hstep := ChainRely.step h hij hstep
  idle_rely h hst := ⟨hst.pending.trans h.1, fun hh => h.2 (hst.holder.1 hh)⟩

/-! ### The functions keep the contract -/

variable {H s₀ o} {i : ι} {s : Ledger ι} {o' : Option Uuid}
  {hbase : ∀ e ∈ chainOf s₀.committed.evidence (some o), e.sequence = none}

theorem wp_lockChainScope :
    wp (chainLogic H s₀ o hbase) i (lockChainScope o') (fun _ => Holds o i o') (fun _ _ => True) s := by
  cases o' with
  | none => exact nofun
  | some o' =>
    refine wp_send fun t _ _ => ⟨trivial, fun r u hstep => ⟨fun a ha => ?_, fun _ _ => trivial⟩⟩
    rcases hstep with ⟨-, -, rfl⟩ | ⟨rfl, -⟩
    · intro ho
      rw [Ledger.take_holder, Option.some.inj ho, if_pos rfl]
    · cases ha

/-- A query, whose answer is what the session sees. -/
theorem wp_read {R : Snapshot → Ledger ι → Prop}
    (h : ∀ t, ChainRely o i s t → ChainInv H s₀ o t → R (t.snapshot i) (t.begin i)) :
    wp (chainLogic H s₀ o hbase) i read R (fun _ _ => True) s := by
  refine wp_send fun t hst hinv => ⟨trivial, fun r u hstep => ⟨fun a ha => ?_, fun _ _ => trivial⟩⟩
  rcases hstep with ⟨rfl, rfl⟩ | ⟨rfl, -⟩
  · cases ha
    exact h t hst hinv
  · cases ha

theorem wp_appendRow {decisionId : Uuid} {status : EvidenceStatus}
    {payload : Option String → LedgerService Json}
    (hpayload : ∀ p, Quiet (CarriesLink H decisionId p) (payload p)) :
    wp (chainLogic H s₀ o hbase) i (appendRow H o' decisionId status payload)
      (fun _ _ => True) (fun _ _ => True) s := by
  refine wp_bind (wp_mono wp_lockChainScope (fun _ s₁ hlock => ?_) fun _ _ h => h)
  refine wp_bind (wp_read fun t h₁ hinv => ?_)
  have hbegin : ∀ t : Ledger ι, ChainRely o i t (t.begin i) := fun t =>
    .of_eq rfl rfl rfl (List.Subset.refl _)
  have hlooked : LookedUp H s₀ o i o' (t.chain i o') (t.begin i) :=
    LookedUp.rely ⟨hlock.rely h₁, fun ho => by rw [ho], hinv.precedes i o'⟩ (hbegin t)
  refine wp_bind (wp_read fun u h₂ _ => ?_)
  have hlooked := hlooked.rely h₂
  -- the organization is held from here to the flush, so what was looked up stays true
  have hnext : o' = some o → nextChainSequence (u.chain i o') = nextChainSequence (t.chain i o') :=
    fun ho => by rw [← hlooked.chain ho, ho]
  refine wp_bind (wp_mono ((hpayload _).wp (hlooked.rely (hbegin u)) (fun hst hs => hs.rely hst)
    (fun hq hstep hs => hs.rely (.of_quiet hq hstep)) fun hq => chainPre_of_quiet hq)
    (fun payload v hv => ?_) fun _ _ _ => trivial)
  obtain ⟨hlink, hlooked⟩ := hv
  refine wp_bind (wp_send fun w h₃ _ => ?_)
  have hlooked := hlooked.rely h₃
  refine ⟨⟨_, hlink, hlooked.precedes⟩, fun r w' hstep => ⟨fun e he => ?_, fun _ _ => trivial⟩⟩
  obtain ⟨rfl, rfl⟩ := hstep
  obtain rfl := Except.ok.inj he
  have hlooked := hlooked.rely (.of_eq (t := { w with signed := w.signed ++
    [(.evidence o' decisionId, EvidenceService.signPayload H.toCrypto H.settings payload)] })
    rfl rfl rfl (List.subset_append_left _ _))
  refine wp_bind (wp_send fun x h₄ _ => ⟨trivial, fun r x' hstep => ⟨fun id _ => ?_,
    fun _ _ => trivial⟩⟩)
  obtain ⟨-, -, rfl⟩ := hstep
  have hlooked := (hlooked.rely h₄).rely (.of_eq (t := { x with drawn := x.drawn + 1 }) rfl rfl rfl
    (List.Subset.refl _))
  have hsigned := h₄.signed (List.mem_append_right _ (List.mem_singleton_self _))
  refine wp_bind (wp_send fun y h₅ _ => ⟨?_, fun _ _ _ => ⟨fun _ _ => trivial, fun _ _ => trivial⟩⟩)
  have hlooked := hlooked.rely h₅
  refine ⟨h₅.signed hsigned, fun ho => ⟨hlooked.holds ho, ?_, ?_, rfl⟩⟩
  · show some _ = some _
    rw [hlooked.chain ho]
    exact congrArg some (hnext ho)
  · rw [hlooked.chain ho]
    exact hlink.previousHash

theorem wp_append (a : Append) :
    wp (chainLogic H s₀ o hbase) i (a.run H) (fun _ _ => True) (fun _ _ => True) s := by
  cases a with
  | evidence a => exact wp_bind (wp_read fun t _ _ => wp_appendRow (quiet_evidencePayload a))
  | event a => exact wp_appendRow (quiet_eventPayload a)

theorem wp_appendAll (appends : List Append) :
    wp (chainLogic H s₀ o hbase) i (appendAll H appends) (fun _ _ => True) (fun _ _ => True) s := by
  induction appends generalizing s with
  | nil => trivial
  | cons a appends ih => exact wp_bind (wp_mono (wp_append a) (fun _ _ _ => ih) fun _ _ h => h)

/-- A session that has rolled back has flushed nothing and holds nothing. -/
theorem wp_rollback {E : PyError → Ledger ι → Prop} :
    wp (chainLogic H s₀ o hbase) i rollback (fun _ => (chainLogic H s₀ o hbase).idle i) E s := by
  refine wp_send fun t _ _ => ⟨trivial, fun r u hstep => ?_⟩
  obtain ⟨rfl, rfl⟩ := hstep
  refine ⟨fun _ _ => ⟨by rw [Ledger.close_pending, if_pos rfl], fun hh => ?_⟩, nofun⟩
  rw [Ledger.close_holder] at hh
  split at hh
  · cases hh
  · next hi => exact hi hh

theorem wp_begin :
    wp (chainLogic H s₀ o hbase) i begin (fun _ _ => True) (fun _ _ => True) s :=
  wp_send fun _ _ _ => ⟨trivial, fun _ _ _ => ⟨fun _ _ => trivial, fun _ _ => trivial⟩⟩

theorem wp_withSession {α : Type} {p : LedgerService α}
    (hp : ∀ s, wp (chainLogic H s₀ o hbase) i p (fun _ _ => True) (fun _ _ => True) s) :
    wp (chainLogic H s₀ o hbase) i (withSession p) (fun _ => (chainLogic H s₀ o hbase).idle i)
      (fun _ => (chainLogic H s₀ o hbase).idle i) s := by
  refine wp_bind (wp_mono (R := fun _ _ => True) (E := fun _ => (chainLogic H s₀ o hbase).idle i)
    ?_ (fun a t _ => wp_bind (wp_mono wp_rollback (fun _ _ h => h) fun _ _ h => h)) fun _ _ h => h)
  refine wp_tryCatch (wp_mono (wp_bind (wp_mono wp_begin (fun _ t _ => hp t) fun _ _ h => h))
    (fun _ _ h => h) fun e t _ => wp_bind (wp_mono wp_rollback (fun _ _ h => h) fun _ _ h => h))

theorem wp_ends {q : LedgerStatement} (hq : q = .commit ∨ q = .rollback) :
    wp (chainLogic H s₀ o hbase) i (Prog.send (ε := PyError) q) (fun _ _ => True) (fun _ _ => True)
      s := by
  rcases hq with rfl | rfl <;>
    exact wp_send fun t _ _ => ⟨trivial, fun _ _ _ => ⟨fun _ _ => trivial, fun _ _ => trivial⟩⟩

theorem keeps_appendTransaction (appends : List Append) (commits : Bool) :
    (chainLogic H s₀ o hbase).Keeps (appendTransaction H appends commits) := by
  intro i s _ _
  refine wp_withSession fun s => wp_bind (wp_mono (wp_appendAll appends) (fun _ t _ => ?_)
    fun _ _ h => h)
  cases commits with
  | true => exact wp_ends (.inl rfl)
  | false => exact wp_ends (.inr rfl)

/-- A statement of the environment. -/
theorem keeps_environment {p : LedgerService Unit} (hp : p ∈ environment) :
    (chainLogic H s₀ o hbase).Keeps p := by
  intro i s _ hidle
  rcases hp with ⟨db, rfl⟩ | ⟨now, rfl⟩ <;>
  · refine wp_send fun t hst _ => ⟨trivial, fun r u hstep => ?_⟩
    obtain ⟨-, -, rfl⟩ := hstep
    have := (chainLogic H s₀ o hbase).idle_rely hidle hst
    exact ⟨fun _ _ => this, fun _ _ => this⟩

/-- A signature without a record. -/
theorem wp_sign {purpose : Purpose} {payload : Json} (hp : ∀ t, Signable H s₀ t payload purpose)
    (hidle : (chainLogic H s₀ o hbase).idle i s) :
    wp (chainLogic H s₀ o hbase) i (sign purpose payload) (fun _ => (chainLogic H s₀ o hbase).idle i)
      (fun _ => (chainLogic H s₀ o hbase).idle i) s := by
  refine wp_send fun t hst _ => ⟨hp t, fun r u hstep => ?_⟩
  obtain ⟨-, rfl⟩ := hstep
  have := (chainLogic H s₀ o hbase).idle_rely hidle hst
  exact ⟨fun _ _ => this, fun _ _ => this⟩

theorem keeps_signing {p : LedgerService Unit} (hp : p ∈ signing H) :
    (chainLogic H s₀ o hbase).Keeps p := by
  rcases hp with (⟨appends, commits, rfl⟩ | hp) | ⟨agentId, eventType, actor, details, rfl⟩ | ⟨c, rfl⟩
  · exact keeps_appendTransaction appends commits
  · exact keeps_environment hp
  · intro i s _ hidle
    refine wp_bind (wp_send fun t hst _ => ⟨trivial, fun r u hstep => ?_⟩)
    obtain ⟨now, rfl, rfl⟩ := hstep
    have hidle := (chainLogic H s₀ o hbase).idle_rely hidle hst
    exact ⟨fun _ _ => wp_bind (wp_sign (fun _ => rfl) hidle), nofun⟩
  · intro i s _ hidle
    exact wp_bind (wp_sign (fun _ => rfl) hidle)

end Contract

/-! ## Runs -/

/-- No session has begun a transaction. -/
structure Ledger.AtRest {ι : Type} (s : Ledger ι) : Prop where
  pending : ∀ i, s.pending i = {}
  began : ∀ i, s.began i = none
  holder : ∀ o, s.holder o = none

section Runs

variable {ι : Type} [DecidableEq ι] {H : EvidenceHost} {s₀ : Ledger ι} {o : Uuid}

omit [DecidableEq ι] in
theorem ChainInv.init (h : s₀.AtRest) : ChainInv H s₀ o s₀ where
  clock := le_rfl
  began i t ht := by rw [h.began] at ht; cases ht
  committed := ⟨[], (List.append_nil _).symm, .nil⟩
  held i hi := by rw [h.holder] at hi; cases hi
  owner i _ := by rw [h.pending]; rfl
  stored e he := by
    rcases he with he | ⟨i, he⟩
    · exact .inl he
    · rw [h.pending] at he
      cases he
  signed x hx := .inl hx

/-- The invariant holds in every ledger reached. -/
theorem ChainInv.reach (h : s₀.AtRest)
    (hbase : ∀ e ∈ chainOf s₀.committed.evidence (some o), e.sequence = none)
    {w : World LedgerStatement LedgerStatement.Answer PyError (Ledger ι) ι}
    (hw : Reach (ledgerMachine H ι) (LedgerService.signing H) (· = s₀) w) :
    ChainInv H s₀ o w.store := by
  refine (hw.sound (L := chainLogic H s₀ o hbase) (fun p hp => keeps_signing hp) ?_).1
  rintro s rfl
  exact ⟨.init h, fun i => ⟨h.pending i, by rw [h.holder]; exact nofun⟩⟩

end Runs

/-- A chain is numbered from 1 without a gap, linked record by record, and verified. -/
structure LinearChain (H : EvidenceHost) (rows : List EvidenceRow) (o : Option Uuid) : Prop where
  numbered : (chainOf rows o).map EvidenceRow.sequence =
    (List.range (chainOf rows o).length).map fun k => some (k + 1)
  first : ∀ e ∈ chainOf rows o, e.sequence = some 1 →
    e.payload.get? "previous_hash" = some .null
  next : ∀ d ∈ chainOf rows o, ∀ e ∈ chainOf rows o, ∀ n, d.sequence = some n →
    e.sequence = some (n + 1) →
    e.payload.get? "previous_hash" = some (.str (H.payloadHash d.payload))
  intact : (verifyChain H rows o none).intact = true

namespace Appended

variable {H : EvidenceHost} {start : Timestamp} {base S : List EvidenceRow}

theorem sequences (h : Appended H start base S) :
    S.map EvidenceRow.sequence = (List.range S.length).map fun k => some (k + 1) := by
  refine List.ext_getElem? fun k => ?_
  rw [List.getElem?_map, List.getElem?_map]
  by_cases hk : k < S.length
  · rw [List.getElem?_eq_getElem hk, List.getElem?_range hk]
    exact congrArg some (h.numbered k _ (List.getElem?_eq_getElem hk))
  · rw [List.getElem?_eq_none (by omega), List.getElem?_eq_none (by simpa using hk)]
    rfl

/-- Appended records are in order. -/
theorem pairwise (h : Appended H start base S) :
    S.Pairwise fun d e => ∃ m n, d.sequence = some m ∧ e.sequence = some n ∧ m < n := by
  rw [List.pairwise_iff_getElem]
  intro k l hk hl hkl
  exact ⟨k + 1, l + 1, h.numbered k _ (List.getElem?_eq_getElem hk),
    h.numbered l _ (List.getElem?_eq_getElem hl), by omega⟩

theorem inOrder (h : Appended H start base S) : S.Pairwise fun d e => d.inOrder e = true := by
  refine h.pairwise.imp ?_
  rintro d e ⟨m, n, hm, hn, hlt⟩
  simp [EvidenceRow.inOrder, hm, hn, hlt]

/-- A record and what comes before it. -/
theorem split (h : Appended H start base S) {pre post : List EvidenceRow} {e : EvidenceRow}
    (hS : S = pre ++ e :: post) : e.sequence = some (pre.length + 1) ∧
      e.payload.get? "previous_hash" = some ((payloadLinks H).tip
        (.ofText (previousChainHash H base)) (pre.map fun d => d.payload)) := by
  have hlinks := h.links
  rw [hS, List.map_append, List.map_cons, HashLinks.linksFrom_append, HashLinks.LinksFrom] at hlinks
  obtain ⟨c, hc⟩ := h.carries e (by simp [hS])
  refine ⟨h.numbered pre.length e (by simp [hS]), ?_⟩
  rw [← hlinks.2.1 c hc]
  exact hc

/-- The first appended record that is verified is not preceded by another one, or by the one before
it. -/
theorem preceding (h : Appended H start base S) (hbase : ∀ e ∈ base, e.sequence = none)
    {pre post : List EvidenceRow} {e : EvidenceRow} (hS : S = pre ++ e :: post) :
    PayReality.preceding (base ++ S) e = pre.getLast? := by
  have hseq := (h.split hS).1
  have hpre : Appended H start base pre := h.of_prefix ⟨e :: post, hS.symm⟩
  have hfilter : (base ++ S).filter (fun d => d.sequence.any (· < pre.length + 1)) = pre := by
    have hnone : base.filter (fun d => d.sequence.any (· < pre.length + 1)) = [] := by
      rw [List.filter_eq_nil_iff]
      intro d hd
      simp [hbase d hd]
    have hall : pre.filter (fun d => d.sequence.any (· < pre.length + 1)) = pre := by
      rw [List.filter_eq_self]
      intro d hd
      obtain ⟨n, hn, -, hle⟩ := hpre.sequence_le hd
      simp [hn]
      omega
    have hrest : (e :: post).filter (fun d => d.sequence.any (· < pre.length + 1)) = [] := by
      rw [List.filter_eq_nil_iff]
      intro d hd
      have hpair := h.pairwise
      rw [hS, List.pairwise_append] at hpair
      rcases List.mem_cons.1 hd with rfl | hd
      · simp [hseq]
      · obtain ⟨m, n, hm, hn, hlt⟩ := (List.pairwise_cons.1 hpair.2.1).1 d hd
        rw [hseq, Option.some.injEq] at hm
        simp [hn]
        omega
    rw [hS, List.filter_append, List.filter_append, hnone, hall, hrest]
    simp
  rw [PayReality.preceding, hseq]
  show firstRow _ (List.filter _ _) = _
  rw [hfilter]
  rcases List.eq_nil_or_concat' pre with rfl | ⟨pre, d, rfl⟩
  · rfl
  · rw [List.getLast?_concat]
    cases hfirst : firstRow EvidenceRow.bySequenceDesc (pre ++ [d]) with
    | none => simp [firstRow_eq_none] at hfirst
    | some m =>
      obtain ⟨hm, hmax⟩ := firstRow_some hfirst
      have hd : d.sequence = some (pre.length + 1) := hpre.numbered pre.length d (by simp)
      obtain ⟨n, hn, -, hle⟩ := hpre.sequence_le hm
      have hge := hmax d (by simp)
      simp only [EvidenceRow.bySequenceDesc, hd, hn, Option.getD_some, decide_eq_true_eq] at hge
      rw [List.length_append, List.length_singleton] at hle
      have hmd : m = d := hpre.eq_of_sequence hm (by simp) (by rw [hn, hd]; congr 1; omega)
      rw [hmd]

theorem verified (h : Appended H start base S) (hH : H.Verifies) {e : EvidenceRow} (he : e ∈ S) :
    EvidenceService.verifyEvidence H.toCrypto H.settings H.keys e.toSignedPayload = true := by
  rw [h.signed e he]
  exact hH _

/-- A chain of appended records is linear. -/
theorem linear {rows : List EvidenceRow} {o : Option Uuid} (hH : H.Verifies)
    (h : Appended H start [] (chainOf rows o)) : LinearChain H rows o := by
  have hget : ∀ e ∈ chainOf rows o, ∀ n, e.sequence = some n →
      ∃ pre post, chainOf rows o = pre ++ e :: post ∧ n = pre.length + 1 := by
    intro e he n hn
    obtain ⟨pre, post, hS⟩ := List.append_of_mem he
    rw [(h.split hS).1, Option.some.injEq] at hn
    exact ⟨pre, post, hS, hn.symm⟩
  refine ⟨h.sequences, fun e he hn => ?_, fun d hd e he n hn hn' => ?_, ?_⟩
  · obtain ⟨pre, post, hS, hlen⟩ := hget e he 1 hn
    obtain rfl : pre = [] := List.eq_nil_of_length_eq_zero (by omega)
    exact (h.split hS).2
  · obtain ⟨pre, post, hS, hlen⟩ := hget e he (n + 1) hn'
    rcases List.eq_nil_or_concat' pre with rfl | ⟨pre, c, rfl⟩
    · obtain ⟨m, hm, hle, -⟩ := h.sequence_le hd
      rw [hm, Option.some.injEq] at hn
      simp only [List.length_nil] at hlen
      omega
    · have hc : c.sequence = some n := by
        rw [List.length_append, List.length_singleton] at hlen
        rw [h.numbered pre.length c (by rw [hS]; simp)]
        congr 1
        omega
      have hdc : d = c := h.eq_of_sequence hd (by rw [hS]; simp) (by rw [hn, hc])
      rw [(h.split hS).2, List.map_append, List.map_singleton, HashLinks.tip_concat, hdc]
      rfl
  · have hwindow : window (chainOf rows o) none = chainOf rows o := by
      have hall : (chainOf rows o).filter (fun e => (none : Option Timestamp).all (· ≤ e.createdAt)) =
          chainOf rows o := List.filter_eq_self.2 fun _ _ => rfl
      rw [window, hall]
      exact h.inOrder.insertionSort_eq
    rw [verifyChain_intact, hwindow]
    refine ⟨fun e he => h.verified hH he, ?_⟩
    have hnone : expectedPrevious H (chainOf rows o) (chainOf rows o) = none := by
      unfold expectedPrevious
      cases hc : chainOf rows o with
      | nil => rfl
      | cons e es =>
        have : PayReality.preceding ([] ++ chainOf rows o) e = ([] : List EvidenceRow).getLast? :=
          h.preceding (by simp) hc
        rw [List.nil_append, hc] at this
        simp [this]
    rw [hnone]
    exact h.links

end Appended

variable {ι : Type} [DecidableEq ι] {H : EvidenceHost} {s₀ : Ledger ι} {o : Uuid}

/-- **The evidence chain is linear**, at any point of any run of appending transactions from an empty
chain, whatever else the sessions append or sign. -/
theorem appendEvidence_linear (hH : H.Verifies) (h : s₀.AtRest)
    (hempty : chainOf s₀.committed.evidence (some o) = [])
    {w : World LedgerStatement LedgerStatement.Answer PyError (Ledger ι) ι}
    (hw : Reach (ledgerMachine H ι) (LedgerService.signing H) (· = s₀) w) :
    LinearChain H w.store.committed.evidence (some o) := by
  have hinv : ChainInv H s₀ o w.store := .reach h (by simp [hempty]) hw
  obtain ⟨S, hS, happ⟩ := hinv.committed
  rw [hempty] at hS happ
  rw [List.nil_append] at hS
  exact Appended.linear hH (hS ▸ happ)

/-! ### Runs of two sessions -/

/-- A platform whose texts are short. -/
def plainHost : EvidenceHost where
  uuid _ := none
  uuidText := Nat.repr
  uuidHex := Nat.repr
  isoformat _ := ""
  lower s := s
  ilike _ _ := false
  floatText _ := ""
  bundleHashText _ := ""
  toCrypto := plainCrypto
  settings := ⟨"key", "key_1"⟩
  keys := [⟨"key_1", "key", none⟩]
  numeric q := q

theorem plainHost_verifies : plainHost.Verifies := by
  intro payload
  simp [EvidenceService.verifyEvidence, EvidenceService.signPayload, plainHost, plainCrypto,
    SigningKeyService.getPublicKeyForKeyId, SigningKeyService.getKey]

/-- Nothing has happened. -/
def emptyLedger : Ledger Bool where
  db := {}
  committed := {}
  pending _ := {}
  began _ := none
  holder _ := none
  clock := 0
  signed := []
  drawn := 0

theorem emptyLedger_atRest : emptyLedger.AtRest := ⟨fun _ => rfl, fun _ => rfl, fun _ => rfl⟩

open LedgerService

abbrev LedgerMove := Move LedgerStatement LedgerStatement.Answer PyError Bool

/-- A run without a failure. -/
def runMoves (s : Ledger Bool) (moves : List LedgerMove) :
    Option (World LedgerStatement LedgerStatement.Answer PyError (Ledger Bool) Bool) :=
  (Ledger.schedule plainHost fun _ _ => .timeout).run moves ⟨s, fun _ => none⟩

theorem runMoves_reach {s : Ledger Bool} {moves : List LedgerMove}
    (hm : ∀ m ∈ moves, ∀ p, m.program? = some p → p ∈ signing plainHost)
    (h : (runMoves s moves).isSome = true) :
    Reach (ledgerMachine plainHost Bool) (signing plainHost) (· = s) ((runMoves s moves).get h) :=
  Schedule.run_reach (.init rfl) hm (Option.some_get h).symm

/-- A transaction that appends one event of a decision of organization 7. -/
def appendEvent (decisionId : Uuid) : LedgerService Unit :=
  appendTransaction plainHost
    [.event { organizationId := some 7, decisionId, eventType := "event", eventPayload := [] }] true

theorem appendEvent_mem (decisionId : Uuid) : appendEvent decisionId ∈ signing plainHost :=
  .inl (.inl ⟨_, _, rfl⟩)

/-- Two transactions begin, and the second one appends first. -/
def overtaking : List LedgerMove :=
  [.start false (appendEvent 1), .go false, .start true (appendEvent 2)] ++
    List.replicate 11 (.go true) ++ List.replicate 10 (.go false)

theorem overtaking_runs : (runMoves emptyLedger overtaking).isSome = true := by decide +kernel

theorem overtaking_signing :
    ∀ m ∈ overtaking, ∀ p, m.program? = some p → p ∈ signing plainHost := by
  intro m hm p hp
  simp only [overtaking, List.mem_append, List.mem_cons, List.mem_replicate, List.not_mem_nil,
    or_false] at hm
  rcases hm with ((rfl | rfl | rfl) | ⟨-, rfl⟩) | ⟨-, rfl⟩ <;> cases hp <;>
    exact appendEvent_mem _

/-- The chain of two transactions, the second of which has overtaken the first. -/
theorem appendEvidence_linear_overtaking :
    ∃ rows : List EvidenceRow, rows.map (fun e => e.decisionId) = [2, 1] ∧
      LinearChain plainHost rows (some 7) := by
  exact ⟨((runMoves emptyLedger overtaking).get overtaking_runs).store.committed.evidence,
    by decide +kernel, appendEvidence_linear plainHost_verifies emptyLedger_atRest rfl
      (runMoves_reach overtaking_signing overtaking_runs)⟩

end PayReality
