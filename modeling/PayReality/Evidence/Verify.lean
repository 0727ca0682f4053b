import PayReality.Evidence.Ledger
import PayReality.Lib.HashChain

/-!
# Reading and verifying a chain of evidence

`_previous_chain_hash`, `_next_chain_sequence` and `verify_chain`, on the rows that a query finds.
The links that `verify_chain` checks are those of `HashLinks`, with payloads for entries
(`brokenLinks_eq_nil`).
-/

namespace PayReality

namespace EvidenceRow

/-- `created_at`, then `id`. -/
def byTime (d e : EvidenceRow) : Bool :=
  d.createdAt < e.createdAt || d.createdAt = e.createdAt && d.id ≤ e.id

/-- `ORDER BY sequence NULLS FIRST, created_at, id`. -/
def inOrder (d e : EvidenceRow) : Bool :=
  match d.sequence, e.sequence with
  | none, some _ => true
  | some _, none => false
  | some m, some n => m < n || m = n && d.byTime e
  | none, none => d.byTime e

/-- `ORDER BY sequence DESC`, where neither is null. -/
def bySequenceDesc (d e : EvidenceRow) : Bool := e.sequence.getD 0 ≤ d.sequence.getD 0

end EvidenceRow

open EvidenceRow

/-- The records of an organization. -/
def chainOf (rows : List EvidenceRow) (o : Option Uuid) : List EvidenceRow :=
  rows.filter fun e => e.organizationId = o

/-- The first row of a query with `LIMIT 1`. -/
def firstRow (order : EvidenceRow → EvidenceRow → Bool) (rows : List EvidenceRow) :
    Option EvidenceRow :=
  (rows.insertionSort fun d e => order d e).head?

/-- `ORDER BY sequence DESC NULLS LAST, created_at DESC, id DESC LIMIT 1`. -/
def latest (chain : List EvidenceRow) : Option EvidenceRow := firstRow (fun d e => e.inOrder d) chain

/-- `_next_chain_sequence`. -/
def nextChainSequence (chain : List EvidenceRow) : ℕ :=
  (chain.filterMap EvidenceRow.sequence).foldr max 0 + 1

variable (H : EvidenceHost)

/-- `_previous_chain_hash`. -/
def previousChainHash (chain : List EvidenceRow) : Option String :=
  (latest chain).map fun e => H.payloadHash e.payload

/-- What a payload says of the one before it, and is checked against. -/
def payloadLinks : HashLinks Json Json where
  hash payload := .str (H.payloadHash payload)
  prev payload := payload.get? "previous_hash"

/-! ## `verify_chain` -/

structure ChainVerificationResult where
  total : ℕ
  invalidSignatures : List Uuid
  brokenLinks : List Uuid

def ChainVerificationResult.intact (r : ChainVerificationResult) : Bool :=
  r.invalidSignatures.isEmpty && r.brokenLinks.isEmpty

/-- The records that are verified, in order. -/
def window (chain : List EvidenceRow) (since : Option Timestamp) : List EvidenceRow :=
  (chain.filter fun e => since.all (· ≤ e.createdAt)).insertionSort fun d e => d.inOrder e

/-- The record that is taken to precede `first`. -/
def preceding (chain : List EvidenceRow) (first : EvidenceRow) : Option EvidenceRow :=
  match first.sequence with
  | some n => firstRow bySequenceDesc (chain.filter fun e => e.sequence.any (· < n))
  | none => firstRow (fun d e => e.byTime d) (chain.filter fun e => e.createdAt < first.createdAt)

/-- The hash that the first record is checked against. -/
def expectedPrevious (chain records : List EvidenceRow) : Option String :=
  (records.head?.bind (preceding chain)).map fun e => H.payloadHash e.payload

/-- The records whose link is broken. -/
def brokenLinks : Option String → List EvidenceRow → List Uuid
  | _, [] => []
  | expected, e :: es =>
    (match e.payload.get? "previous_hash" with
      | some v => if v.pyEq (.ofText expected) then [] else [e.id]
      | none => []) ++ brokenLinks (some (H.payloadHash e.payload)) es

/-- `verify_chain`. -/
def verifyChain (rows : List EvidenceRow) (o : Option Uuid) (since : Option Timestamp) :
    ChainVerificationResult :=
  let records := window (chainOf rows o) since
  { total := records.length
    invalidSignatures := (records.filter fun e =>
      !EvidenceService.verifyEvidence H.toCrypto H.settings H.keys e.toSignedPayload).map
        EvidenceRow.id
    brokenLinks := brokenLinks H (expectedPrevious H (chainOf rows o) records) records }

/-- What the platform signs verifies. -/
def EvidenceHost.Verifies : Prop := ∀ payload, EvidenceService.verifyEvidence H.toCrypto H.settings
  H.keys (EvidenceService.signPayload H.toCrypto H.settings payload) = true

/-! ## Links -/

variable {H}

theorem pyEq_ofText {v : Json} {t : Option String} : v.pyEq (.ofText t) = true ↔ v = .ofText t := by
  cases t <;> cases v <;> simp [Json.pyEq, Json.ofText, Json.key, Json.Token.mk]

theorem brokenLinks_eq_nil {expected : Option String} {records : List EvidenceRow} :
    brokenLinks H expected records = [] ↔
      (payloadLinks H).LinksFrom (.ofText expected) (records.map fun e => e.payload) := by
  induction records generalizing expected with
  | nil => simp [brokenLinks, HashLinks.LinksFrom]
  | cons e es ih =>
    rw [brokenLinks, List.append_eq_nil_iff, ih, List.map_cons, HashLinks.LinksFrom]
    refine and_congr ?_ Iff.rfl
    show _ ↔ ∀ c, e.payload.get? "previous_hash" = some c → c = _
    cases e.payload.get? "previous_hash" with
    | none => simp
    | some v =>
      by_cases hv : v.pyEq (.ofText expected) = true
      · simp only [hv, if_true, Option.some.injEq, forall_eq', true_iff]
        exact pyEq_ofText.1 hv
      · simp only [hv, Bool.false_eq_true, if_false, List.cons_ne_self, Option.some.injEq,
          forall_eq', false_iff]
        exact fun h => hv (pyEq_ofText.2 h)

/-- A verified chain: every record is signed, and the links hold from what precedes it. -/
theorem verifyChain_intact {rows : List EvidenceRow} {o : Option Uuid} {since : Option Timestamp} :
    (verifyChain H rows o since).intact = true ↔
      (∀ e ∈ window (chainOf rows o) since, EvidenceService.verifyEvidence H.toCrypto H.settings
        H.keys e.toSignedPayload = true) ∧
      (payloadLinks H).LinksFrom
        (.ofText (expectedPrevious H (chainOf rows o) (window (chainOf rows o) since)))
        ((window (chainOf rows o) since).map fun e => e.payload) := by
  rw [← brokenLinks_eq_nil, ChainVerificationResult.intact, Bool.and_eq_true, List.isEmpty_iff,
    List.isEmpty_iff]
  simp [verifyChain]

/-! ## Orders -/

theorem byTime_total (d e : EvidenceRow) : d.byTime e = true ∨ e.byTime d = true := by
  simp only [byTime, Bool.or_eq_true, Bool.and_eq_true, decide_eq_true_eq]
  grind

theorem byTime_trans {d e f : EvidenceRow} (h : d.byTime e = true) (h' : e.byTime f = true) :
    d.byTime f = true := by
  simp only [byTime, Bool.or_eq_true, Bool.and_eq_true, decide_eq_true_eq] at h h' ⊢
  grind

theorem inOrder_total (d e : EvidenceRow) : d.inOrder e = true ∨ e.inOrder d = true := by
  have := byTime_total d e
  unfold inOrder
  cases d.sequence <;> cases e.sequence <;>
    simp only [Bool.or_eq_true, Bool.and_eq_true, decide_eq_true_eq] <;> grind

theorem inOrder_trans {d e f : EvidenceRow} (h : d.inOrder e = true) (h' : e.inOrder f = true) :
    d.inOrder f = true := by
  have := @byTime_trans d e f
  unfold inOrder at *
  cases hd : d.sequence <;> cases he : e.sequence <;> cases hf : f.sequence <;>
    simp_all only [Bool.or_eq_true, Bool.and_eq_true, decide_eq_true_eq] <;> grind

instance : Std.Total fun d e : EvidenceRow => d.inOrder e = true := ⟨inOrder_total⟩

instance : IsTrans EvidenceRow fun d e => d.inOrder e = true := ⟨fun _ _ _ => inOrder_trans⟩

instance : Std.Total fun d e : EvidenceRow => e.inOrder d = true := ⟨fun d e => inOrder_total e d⟩

instance : IsTrans EvidenceRow fun d e => e.inOrder d = true :=
  ⟨fun _ _ _ h h' => inOrder_trans h' h⟩

instance : Std.Total fun d e : EvidenceRow => e.byTime d = true := ⟨fun d e => byTime_total e d⟩

instance : IsTrans EvidenceRow fun d e => e.byTime d = true :=
  ⟨fun _ _ _ h h' => byTime_trans h' h⟩

instance : Std.Total fun d e : EvidenceRow => bySequenceDesc d e = true :=
  ⟨fun d e => by simp only [bySequenceDesc, decide_eq_true_eq]; omega⟩

instance : IsTrans EvidenceRow fun d e => bySequenceDesc d e = true :=
  ⟨fun d e f h h' => by simp only [bySequenceDesc, decide_eq_true_eq] at *; omega⟩

end PayReality
