import PayReality.Lib.HashChain
import PayReality.Lib.Notes
import PayReality.Lib.RecordReports
import PayReality.Lib.Rows
import PayReality.AuthorityGraph.Tables

/-!
# Approvals of the authority graph

`ai_authority_builder_service.approve_graph`: an approval is the next version of its corpus, and points
to the one before it. Both are computed from the latest approval that was read; nothing is locked, and
an insertion that another one was faster than is refused and tried again, three times.

The approvals of a corpus, in the order of their commits, are a chain (`Lineage`).

**Main result** `approval_lineage`: in every run each corpus has the versions `1..n`, each of them
points to the one before it and no two to one approval. A call that raises commits nothing, or just its
approval, which it could not read again (`approval_unread`).
-/

namespace PayReality

namespace AuthorityGraph

open Program RecordProg

/-! ## Rows -/

/-- `authority_graph_approvals`. -/
structure AuthorityGraphApproval where
  id : Uuid
  corpusId : Uuid
  reviewer : String
  version : ℕ
  predecessorApprovalId : Option Uuid
  evidenceSnapshot : Json
  approvalReason : Option String
  graphHash : String

/-- What `_corpus_evidence_snapshot` lists of a corpus. -/
structure CorpusEvidence where
  principals : Json
  relationships : Json
  conflicts : Json
  gaps : Json
  coverage : Json

structure Approvals where
  corpora : List Uuid
  evidence : Uuid → CorpusEvidence
  approvals : List AuthorityGraphApproval := []

namespace Approvals

variable (d : Approvals)

def approval (id : Uuid) : Option AuthorityGraphApproval := Rows.get (fun a => a.id) d.approvals id

/-- The approvals of a corpus, in the order of their commits. -/
def ofCorpus (corpusId : Uuid) : List AuthorityGraphApproval :=
  d.approvals.filter fun a => a.corpusId = corpusId

/-- `get_latest_approval_for_corpus`. -/
def latestApproval (corpusId : Uuid) : Option AuthorityGraphApproval :=
  ((d.ofCorpus corpusId).insertionSort fun a b => b.version ≤ a.version).head?

/-- What `get_superseding_approval` selects. -/
def superseding (id : Uuid) : List AuthorityGraphApproval :=
  d.approvals.filter fun a => a.predecessorApprovalId = some id

/-- The ids and the versions of a corpus are keys, and the references lead to rows. -/
def admitted : Bool :=
  (d.approvals.map fun a => a.id).Nodup ∧
    (d.approvals.map fun a => (a.corpusId, a.version)).Nodup ∧
    (∀ a ∈ d.approvals, a.corpusId ∈ d.corpora) ∧
    ∀ a ∈ d.approvals, ∀ id ∈ a.predecessorApprovalId, id ∈ d.approvals.map fun a => a.id

end Approvals

/-! ## Commits -/

inductive ApprovalChange where
  | insert (approval : AuthorityGraphApproval)
  /-- The other services. -/
  | elsewhere (corpora : List Uuid) (evidence : Uuid → CorpusEvidence)

def ApprovalChange.apply : ApprovalChange → Approvals → Approvals
  | .insert a, d => { d with approvals := d.approvals ++ [a] }
  | .elsewhere corpora evidence, d => { d with corpora, evidence }

/-- The approval is the next one of its corpus. -/
def AuthorityGraphApproval.isNext (a : AuthorityGraphApproval) (d : Approvals) : Bool :=
  a.version = ((d.latestApproval a.corpusId).map fun b => b.version).getD 0 + 1 ∧
    a.predecessorApprovalId = (d.latestApproval a.corpusId).map fun b => b.id

def ApprovalChange.checks : ApprovalChange → List (Approvals → Bool)
  | .insert a => [a.isNext]
  | .elsewhere _ _ => []

inductive ApprovalError where
  | concurrentApprovalConflict
  | integrityError
  /-- `InvalidRequestError`: the row is not there. -/
  | couldNotRefresh
  | databaseError
  deriving DecidableEq, Repr

def approvalSchema : Schema Approvals ApprovalChange ApprovalError where
  apply := ApprovalChange.apply
  admits := Approvals.admitted
  checks := ApprovalChange.checks
  refused := .integrityError
  failed := .databaseError

abbrev ApprovalProg := RecordProg Approvals ApprovalChange Uuid ApprovalError

namespace AiAuthorityBuilderService

/-- `_corpus_evidence_snapshot`: one query after the other. -/
def corpusEvidenceSnapshot (corpusId : Uuid) : ApprovalProg Json := do
  let principals := ((← look).evidence corpusId).principals
  let relationships := ((← look).evidence corpusId).relationships
  let conflicts := ((← look).evidence corpusId).conflicts
  let gaps := ((← look).evidence corpusId).gaps
  let coverage := ((← look).evidence corpusId).coverage
  return .obj [("principals", principals), ("relationships", relationships), ("conflicts", conflicts),
    ("gaps", gaps), ("coverage", coverage)]

/-- The insertion; nothing is inserted where another one was faster. -/
def tryInsert (a : AuthorityGraphApproval) : ApprovalProg Bool :=
  tryCatch (do commit (.insert a); return true) fun e =>
    if e = .integrityError then do
      rollback
      return false
    else throw e

def refreshApproval (id : Uuid) : ApprovalProg AuthorityGraphApproval := do
  match (← look).approval id with
  | none => throw .couldNotRefresh
  | some a => return a

/-- `MAX_APPROVAL_VERSION_ATTEMPTS`. -/
def maxApprovalVersionAttempts : ℕ := 3

/-- The loop, with the attempts that are left. -/
def approveGraphFrom (payloadHash : Json → String) (corpusId : Uuid) (reviewer : String)
    (approvalReason : Option String) : ℕ → ApprovalProg AuthorityGraphApproval
  | 0 => throw .concurrentApprovalConflict
  | attempts + 1 => do
    let latest := (← look).latestApproval corpusId
    let snapshot ← corpusEvidenceSnapshot corpusId
    let approval : AuthorityGraphApproval :=
      { id := ← draw
        corpusId
        reviewer
        version := (latest.map fun a => a.version).getD 0 + 1
        predecessorApprovalId := latest.map fun a => a.id
        evidenceSnapshot := snapshot
        approvalReason
        graphHash := payloadHash snapshot }
    if ← tryInsert approval then refreshApproval approval.id
    else approveGraphFrom payloadHash corpusId reviewer approvalReason attempts

def approveGraph (payloadHash : Json → String) (corpusId : Uuid) (reviewer : String)
    (approvalReason : Option String) : ApprovalProg AuthorityGraphApproval :=
  approveGraphFrom payloadHash corpusId reviewer approvalReason maxApprovalVersionAttempts

end AiAuthorityBuilderService

open AiAuthorityBuilderService

/-! ## Requests -/

inductive ApprovalRequest where
  | approve (corpusId : Uuid) (reviewer : String) (approvalReason : Option String)
  | elsewhere (corpora : List Uuid) (evidence : Uuid → CorpusEvidence)

inductive ApprovalReply where
  | approved (corpusId : Uuid) (x : Except ApprovalError AuthorityGraphApproval)
  | changed (x : Except ApprovalError Unit)

/-- The request in a session of its own, which reports how it ends. -/
def ApprovalRequest.reporting (payloadHash : Json → String) : ApprovalRequest →
    Prog (RecordStatement ApprovalChange ⊕ ApprovalReply)
      (ReportAnswer (RecordStatement.Answer Approvals Uuid) ApprovalReply) ApprovalError Unit
  | .approve corpusId reviewer approvalReason =>
    (answering (approveGraph payloadHash corpusId reviewer approvalReason)).reported
      (.approved corpusId)
  | .elsewhere corpora evidence =>
    (answering (commit (.elsewhere corpora evidence) : ApprovalProg Unit)).reported .changed

def approvalRequests (payloadHash : Json → String) : Set (Prog (RecordStatement ApprovalChange ⊕ ApprovalReply)
    (ReportAnswer (RecordStatement.Answer Approvals Uuid) ApprovalReply) ApprovalError Unit) :=
  {p | ∃ r : ApprovalRequest, p = r.reporting payloadHash}

/-! ## Lineages -/

/-- An approval carries the version and the approval before it. -/
def approvalLinks : HashLinks AuthorityGraphApproval (ℕ × Option Uuid) where
  hash a := (a.version + 1, some a.id)
  prev a := some (a.version, a.predecessorApprovalId)

/-- The first approval has version 1 and none before it. -/
def Lineage (l : List AuthorityGraphApproval) : Prop := approvalLinks.LinksFrom (1, none) l

section

variable {l r : List AuthorityGraphApproval} {a b : AuthorityGraphApproval}

theorem accepts_iff {n : ℕ} {id : Option Uuid} :
    approvalLinks.Accepts (n, id) a ↔ a.version = n ∧ a.predecessorApprovalId = id := by
  constructor
  · intro h
    exact Prod.mk.inj (h _ rfl)
  · rintro ⟨hversion, hid⟩ c hc
    rw [← Option.some.inj hc, hversion, hid]

theorem Lineage.tip (h : Lineage l) :
    approvalLinks.tip (1, none) l = (l.length + 1, l.getLast?.map fun a => a.id) := by
  induction l using List.reverseRecOn with
  | nil => rfl
  | append_singleton l a ih =>
    obtain ⟨hl, ha⟩ := HashLinks.linksFrom_concat.1 h
    rw [ih hl] at ha
    rw [HashLinks.tip_concat, List.length_append, List.getLast?_concat]
    show (a.version + 1, some a.id) = _
    rw [(accepts_iff.1 ha).1]
    rfl

theorem lineage_concat :
    Lineage (l ++ [a]) ↔ Lineage l ∧ a.version = l.length + 1 ∧
      a.predecessorApprovalId = l.getLast?.map fun b => b.id := by
  unfold Lineage
  rw [HashLinks.linksFrom_concat]
  refine and_congr_right fun h => ?_
  rw [Lineage.tip h, accepts_iff]

theorem Lineage.versions (h : Lineage l) : (l.map fun a => a.version) = List.range' 1 l.length := by
  induction l using List.reverseRecOn with
  | nil => rfl
  | append_singleton l a ih =>
    obtain ⟨hl, hversion, -⟩ := lineage_concat.1 h
    rw [List.map_append, ih hl, List.length_append, List.length_singleton, List.range'_concat]
    show _ ++ [a.version] = _
    rw [hversion, Nat.add_comm 1, Nat.one_mul]

/-- The approval before another one. -/
theorem Lineage.predecessor (h : Lineage l) (ha : a ∈ l) :
    a.version = 1 ∧ a.predecessorApprovalId = none ∨
      ∃ b ∈ l, b.version + 1 = a.version ∧ a.predecessorApprovalId = some b.id := by
  induction l using List.reverseRecOn with
  | nil => cases ha
  | append_singleton l c ih =>
    obtain ⟨hl, hversion, hid⟩ := lineage_concat.1 h
    rcases List.mem_append.1 ha with ha | ha
    · refine (ih hl ha).imp id ?_
      rintro ⟨b, hb, hbefore⟩
      exact ⟨b, List.mem_append_left _ hb, hbefore⟩
    · rw [List.mem_singleton.1 ha]
      rcases List.eq_nil_or_concat' l with rfl | ⟨t, b, rfl⟩
      · exact .inl ⟨hversion, hid⟩
      · obtain ⟨-, hb, -⟩ := lineage_concat.1 hl
        refine .inr ⟨b, by simp, ?_, ?_⟩
        · rw [hversion, hb, List.length_append, List.length_singleton]
        · rw [hid, List.getLast?_concat]
          rfl

end

namespace Approvals

variable {d d' : Approvals} {corpusId : Uuid} {a : AuthorityGraphApproval}

/-- The latest approval of a lineage is the last one. -/
theorem latestApproval_of_lineage (h : Lineage (d.ofCorpus corpusId)) :
    d.latestApproval corpusId = (d.ofCorpus corpusId).getLast? := by
  unfold latestApproval
  rcases List.eq_nil_or_concat' (d.ofCorpus corpusId) with hnil | ⟨l, a, hl⟩
  · rw [hnil]
    rfl
  · rw [hl] at h ⊢
    rw [List.getLast?_concat]
    have hsorted := List.pairwise_insertionSort (fun a b : AuthorityGraphApproval => b.version ≤ a.version)
      (l ++ [a])
    have hperm := List.perm_insertionSort (fun a b : AuthorityGraphApproval => b.version ≤ a.version)
      (l ++ [a])
    cases hsort : (l ++ [a]).insertionSort fun a b => b.version ≤ a.version with
    | nil =>
      rw [hsort] at hperm
      exact absurd hperm.nil_eq (by simp)
    | cons b t =>
      rw [hsort] at hsorted hperm
      -- the versions are different, so the one that comes first is the last approval
      have hb : b ∈ l ++ [a] := hperm.subset List.mem_cons_self
      have ha : a ∈ b :: t := hperm.symm.subset (by simp)
      rcases List.mem_append.1 hb with hbl | hba
      · exfalso
        have hversion : b.version ∈ List.range' 1 l.length := by
          rw [← (lineage_concat.1 h).1.versions]
          exact List.mem_map_of_mem hbl
        have hlast := (lineage_concat.1 h).2.1
        rw [List.mem_range'_1] at hversion
        have hle : a.version ≤ b.version := by
          rcases List.mem_cons.1 ha with rfl | ha
          · exact le_rfl
          · exact List.rel_of_pairwise_cons hsorted ha
        omega
      · rw [List.mem_singleton.1 hba]
        rfl

theorem isNext_iff (h : Lineage (d.ofCorpus a.corpusId)) :
    a.isNext d = true ↔ Lineage (d.ofCorpus a.corpusId ++ [a]) := by
  have hversion : ((d.ofCorpus a.corpusId).getLast?.map fun b => b.version).getD 0 =
      (d.ofCorpus a.corpusId).length := by
    rcases List.eq_nil_or_concat' (d.ofCorpus a.corpusId) with hnil | ⟨l, b, hl⟩
    · rw [hnil]
      rfl
    · rw [hl] at h ⊢
      rw [List.getLast?_concat, List.length_append, List.length_singleton]
      exact (lineage_concat.1 h).2.1
  rw [lineage_concat, AuthorityGraphApproval.isNext, decide_eq_true_eq, latestApproval_of_lineage h,
    hversion]
  exact (and_iff_right h).symm

/-- Every corpus has a lineage. -/
def Chained (d : Approvals) : Prop := ∀ corpusId, Lineage (d.ofCorpus corpusId)

/-- An approval that was the next one when another database was read is so still, where it is
admitted: one that has come between has its version. -/
theorem Chained.insert (hd : d.Chained) (hd' : d'.Chained) (hgrowth : d'.approvals <+: d.approvals)
    (hnext : a.isNext d' = true) (hadmits : ((ApprovalChange.insert a).apply d).admitted = true) :
    ((ApprovalChange.insert a).apply d).Chained := by
  intro corpusId
  show Lineage ((d.approvals ++ [a]).filter fun b => b.corpusId = corpusId)
  by_cases hcorpus : a.corpusId = corpusId
  · subst hcorpus
    have hnew : decide (a.corpusId = a.corpusId) = true := decide_eq_true rfl
    rw [List.filter_append, List.filter_singleton, hnew]
    show Lineage (d.ofCorpus a.corpusId ++ [a])
    have hchain := (isNext_iff (hd' a.corpusId)).1 hnext
    obtain ⟨t, ht⟩ : d'.ofCorpus a.corpusId <+: d.ofCorpus a.corpusId := hgrowth.filter _
    cases t with
    | nil =>
      have hsame : d'.ofCorpus a.corpusId = d.ofCorpus a.corpusId := by
        rw [← ht, List.append_nil]
      rw [← hsame]
      exact hchain
    | cons b t =>
      have hb : b ∈ d.ofCorpus a.corpusId := ht ▸ List.mem_append_right _ List.mem_cons_self
      have hsplit : Lineage ((d'.ofCorpus a.corpusId ++ [b]) ++ t) := by
        rw [List.append_assoc]
        exact ht ▸ hd a.corpusId
      have hbefore := (lineage_concat.1 (HashLinks.linksFrom_append.1 hsplit).1).2.1
      have hversion := (lineage_concat.1 hchain).2.1
      obtain ⟨hmem, hbcorpus⟩ := List.mem_filter.1 hb
      refine absurd ?_ (Rows.key_ne_of_nodup_append (of_decide_eq_true hadmits).2.1 hmem)
      rw [of_decide_eq_true hbcorpus, hbefore, hversion]
  · have hsame : (d.approvals ++ [a]).filter (fun b => b.corpusId = corpusId) = d.ofCorpus corpusId :=
      Rows.filter_append_of_false (decide_eq_false hcorpus)
    rw [hsame]
    exact hd corpusId

end Approvals

/-! ## Calls -/

section

variable {payloadHash : Json → String} {seen : List Approvals} {d : Approvals} {ws : List ApprovalChange}
  {a : AuthorityGraphApproval} {corpusId : Uuid} {reviewer : String} {approvalReason : Option String}

/-- What follows the snapshot may rest on what was read before it. -/
theorem vetted_corpusEvidenceSnapshot :
    Vetted approvalSchema (corpusEvidenceSnapshot corpusId) (fun _ seen' => seen ⊆ seen') seen :=
  (Reads.look fun _ => .look fun _ => .look fun _ => .look fun _ => .look fun _ => .pure _).vetted
    (List.Subset.refl _)

theorem vetted_refreshApproval {id : Uuid} :
    Vetted approvalSchema (refreshApproval id) (fun _ _ => True) seen := by
  refine vetted_look fun d _ => ?_
  cases d.approval id <;> trivial

/-- An insertion of the next approval that was read; a failed one forgets it. -/
theorem vetted_tryInsert (h : Saw (fun d => a.isNext d = true) seen) :
    Vetted approvalSchema (tryInsert a) (fun _ seen' => seen' = []) seen := by
  refine checked_tryCatch (checked_bind (checked_commit (supported_of rfl h) rfl ?_ ?_))
  · exact rfl
  · exact trivial

theorem vetted_approveGraphFrom {attempts : ℕ} :
    Vetted approvalSchema (approveGraphFrom payloadHash corpusId reviewer approvalReason attempts)
      (fun _ _ => True) seen := by
  induction attempts generalizing seen with
  | zero => trivial
  | succ attempts ih =>
    refine vetted_look fun d _ => ?_
    refine checked_seq vetted_corpusEvidenceSnapshot fun snapshot seen' hseen => ?_
    refine vetted_draw fun id => ?_
    refine checked_seq (vetted_tryInsert ⟨d, hseen List.mem_cons_self, ?_⟩) fun inserted _ _ => ?_
    · exact decide_eq_true ⟨rfl, rfl⟩
    · cases inserted with
      | true => exact vetted_refreshApproval
      | false => exact ih

theorem approval_checks (payloadHash : Json → String) :
    ∀ p ∈ Prog.erased '' approvalRequests payloadHash, Checks approvalSchema p := by
  rintro _ ⟨_, ⟨r, rfl⟩, rfl⟩
  cases r with
  | approve corpusId reviewer approvalReason => exact checks_reported vetted_approveGraphFrom
  | elsewhere corpora evidence =>
    exact checks_reported (vetted_commit (supported_none rfl) trivial)

/-! ### How calls end -/

/-- Approvals are only added. -/
def Approvals.Grows (d d' : Approvals) : Prop := d.approvals <+: d'.approvals

theorem Approvals.Grows.refl (d : Approvals) : d.Grows d := List.prefix_rfl

theorem Approvals.Grows.trans (d d' d'' : Approvals) (h : d.Grows d') (h' : d'.Grows d'') :
    d.Grows d'' := List.IsPrefix.trans h h'

theorem ApprovalChange.grows (c : ApprovalChange) (d : Approvals) : d.Grows (c.apply d) := by
  cases c with
  | insert a => exact List.prefix_append _ _
  | elsewhere corpora evidence => exact List.prefix_rfl

/-- A call that returns has inserted what it returns. A call that raises has inserted nothing, or an
approval of its corpus that it could not read again. -/
def ApprovalEnd (corpusId : Uuid) :
    Except ApprovalError AuthorityGraphApproval → List ApprovalChange → Approvals → Prop
  | .ok a, ws, d => ws = [.insert a] ∧ a ∈ d.approvals
  | .error e, ws, d => ws = [] ∨
      e = .databaseError ∧ ∃ a ∈ d.approvals, a.corpusId = corpusId ∧ ws = [.insert a]

theorem ApprovalEnd.mono {x : Except ApprovalError AuthorityGraphApproval} {d' : Approvals}
    (hgrowth : d.Grows d') (h : ApprovalEnd corpusId x ws d) : ApprovalEnd corpusId x ws d' := by
  cases x with
  | ok a => exact ⟨h.1, hgrowth.subset h.2⟩
  | error e =>
    refine h.imp id ?_
    rintro ⟨he, a, ha, hinserted⟩
    exact ⟨he, a, hgrowth.subset ha, hinserted⟩

theorem ends_refreshApproval (ha : a ∈ d.approvals) (hcorpus : a.corpusId = corpusId)
    (hws : ws = [.insert a]) :
    Program.Ends approvalSchema Approvals.Grows (refreshApproval a.id) (ApprovalEnd corpusId) ws d := by
  refine ends_look fun d' hgrowth hd' => ?_
  have hmem : a ∈ d'.approvals := hgrowth.subset ha
  have hget : d'.approval a.id = some a := Rows.get_of_mem (of_decide_eq_true hd').1 hmem
  rw [hget]
  exact ⟨⟨hws, hmem⟩, .inr ⟨rfl, a, hmem, hcorpus, hws⟩⟩

theorem ends_tryInsert :
    Program.Ends approvalSchema Approvals.Grows (tryInsert a)
      (Program.Ends.split (fun inserted ws d => if inserted then ws = [.insert a] ∧ a ∈ d.approvals else ws = [])
        fun _ ws _ => ws = []) [] d := by
  refine ends_tryCatch (ends_bind (ends_commit fun d' _ _ => ⟨fun _ => ?_, fun _ => ?_, rfl⟩))
  · exact ⟨rfl, List.mem_append_right _ (List.mem_singleton_self a)⟩
  · exact ends_rollback fun _ _ _ => rfl

theorem ends_approveGraphFrom {attempts : ℕ} :
    Program.Ends approvalSchema Approvals.Grows
      (approveGraphFrom payloadHash corpusId reviewer approvalReason attempts)
      (ApprovalEnd corpusId) [] d := by
  induction attempts generalizing d with
  | zero => exact .inl rfl
  | succ attempts ih =>
    refine ends_look fun d₁ _ hd₁ => ⟨?_, .inl rfl⟩
    have hsnapshot : Program.Ends approvalSchema Approvals.Grows (corpusEvidenceSnapshot corpusId)
        (Program.Ends.split (fun _ ws _ => ws = []) fun _ ws _ => ws = []) [] d₁ := by
      refine Reads.ends Approvals.Grows.refl Approvals.Grows.trans ?_ hd₁ fun x d' _ _ => ?_
      · exact .look fun _ => .look fun _ => .look fun _ => .look fun _ => .look fun _ => .pure _
      · cases x <;> rfl
    refine ends_seq hsnapshot (fun snapshot ws d₂ hws => ?_) fun _ _ _ hws => .inl hws
    subst hws
    refine ends_draw fun id d₃ _ _ => ?_
    refine ends_seq ends_tryInsert (fun inserted ws d₄ hinserted => ?_) fun _ _ _ hws => .inl hws
    cases inserted with
    | true => exact ends_refreshApproval hinserted.2 rfl hinserted.1
    | false =>
      obtain rfl : ws = [] := hinserted
      exact ih

theorem raises_approveGraphFrom {attempts : ℕ} :
    Raises (fun e => e ≠ .databaseError)
      (approveGraphFrom payloadHash corpusId reviewer approvalReason attempts) := by
  induction attempts with
  | zero => exact fun h => by cases h
  | succ attempts ih =>
    refine raises_look fun d => raises_bind ?_ fun snapshot => raises_bind raises_send fun id => ?_
    · refine raises_look fun _ => raises_look fun _ => raises_look fun _ => raises_look fun _ => ?_
      exact raises_look fun _ => trivial
    · refine raises_bind (raises_handle (fun _ h => h) (raises_bind raises_send fun _ => trivial) ?_)
        fun inserted => ?_
      · intro e he
        split
        · exact raises_bind raises_send fun _ => trivial
        · exact he
      · cases inserted with
        | true =>
          refine raises_look fun d => ?_
          split
          · exact fun h => by cases h
          · trivial
        | false => exact ih

end

/-! ## Runs -/

abbrev ApprovalWorld (ι : Type) : Type :=
  World (RecordStatement ApprovalChange ⊕ ApprovalReply)
    (ReportAnswer (RecordStatement.Answer Approvals Uuid) ApprovalReply) ApprovalError
    (Reported (RecordStatement ApprovalChange) (RecordStatement.Answer Approvals Uuid) ApprovalError
      (Records Approvals ι) ι ApprovalReply) ι

/-- Calls of `approve_graph`, and of the other services, from tables in which every corpus has a
lineage. -/
abbrev ApprovalRun (payloadHash : Json → String) {ι : Type} [DecidableEq ι] (w : ApprovalWorld ι) :
    Prop :=
  Reach ((approvalSchema.machine Uuid ι).reporting ApprovalReply) (approvalRequests payloadHash)
    (fun s => ∃ d ∈ {d : Approvals | d.admitted = true ∧ d.Chained},
      s = Reported.init (Records.init d)) w

section

variable {payloadHash : Json → String} {ι : Type} [DecidableEq ι] {w : ApprovalWorld ι}

theorem approvals_chained (h : ApprovalRun payloadHash w) :
    w.store.store.db.admitted = true ∧ w.store.store.db.Chained := by
  have hrun : Reach ((approvalSchema.machine Uuid ι).restrict fun _ q s _ =>
      approvalSchema.allows (fun _ _ => true) q s = true) (Prog.erased '' approvalRequests payloadHash)
      (fun s => ∃ d ∈ {d : Approvals | d.admitted = true ∧ d.Chained}, s = Records.init d) w.erased := by
    refine Reach.imp (fun i q s r t hstep => ⟨hstep, ?_⟩)
      (Reach.erased (fun s hs => hs.imp fun d hd => ⟨hd.1, congrArg Reported.store hd.2⟩) h)
    show (q.change?.all fun _ => true) = true
    cases q.change? <;> rfl
  refine (Reach.records (approval_checks payloadHash)
    (I := fun d => d.admitted = true ∧ d.Chained) (R := Approvals.Grows)
    (fun _ hd => hd) Approvals.Grows.refl Approvals.Grows.trans
    (fun _ hd => hd.1) (fun c d hd hchecks _ hadmits => ?_) hrun).1
  refine ⟨⟨hadmits, ?_⟩, c.grows d⟩
  cases c with
  | insert a =>
    obtain ⟨d', hd', hgrowth, hnext⟩ := hchecks a.isNext List.mem_cons_self
    exact hd.2.insert hd'.2 hgrowth hnext hadmits
  | elsewhere corpora evidence => exact hd.2

/-- What a report says of its call. -/
def ApprovalReply.Ends : ApprovalReply → List ApprovalChange → Approvals → Prop
  | .approved corpusId x, ws, d => ApprovalEnd corpusId x ws d
  | .changed _, _, _ => True

theorem approval_ends (h : ApprovalRun payloadHash w) :
    ∀ e ∈ w.store.reports, e.1.Ends (changes e.2) w.store.store.db := by
  refine (Reach.reports (P := ApprovalReply.Ends) Approvals.Grows.refl Approvals.Grows.trans
    ApprovalChange.grows ?_ ?_ (fun d hd => hd.1) h).2
  · intro x ws d d' hgrowth hx
    cases x with
    | approved corpusId x => exact ApprovalEnd.mono hgrowth hx
    | changed x => trivial
  · rintro p ⟨r, rfl⟩
    cases r with
    | approve corpusId reviewer approvalReason =>
      refine ⟨_, _, _, rfl, fun d _ => ends_answering (fun x ws d d' hgrowth hx => ?_)
        ends_approveGraphFrom⟩
      exact ApprovalEnd.mono hgrowth hx
    | elsewhere corpora evidence => exact ⟨_, _, _, rfl, fun d _ => ends_true⟩

/-- No statement has failed. -/
abbrev Unfailing : List (Answered (RecordStatement ApprovalChange) (RecordStatement.Answer Approvals Uuid)
    ApprovalError) → Prop :=
  Faithful fun x => ∀ e, x.2 = .error e → e ≠ .databaseError

/-- A call raises that the database is out of order only if a statement has failed. -/
def ApprovalReply.Honest (x : ApprovalReply) (tr : List (Answered (RecordStatement ApprovalChange)
    (RecordStatement.Answer Approvals Uuid) ApprovalError)) : Prop :=
  ∀ corpusId e, x = .approved corpusId (.error e) → Unfailing tr → e ≠ .databaseError

theorem approval_failures (h : ApprovalRun payloadHash w) :
    ∀ e ∈ w.store.reports, e.1.Honest e.2 := by
  have hrun : Reach (((approvalSchema.machine Uuid ι).reporting ApprovalReply).restrict fun _ _ _ _ => True)
      (approvalRequests payloadHash) _ w := Reach.imp (fun _ _ _ _ _ hstep => ⟨hstep, trivial⟩) h
  refine Reach.sending (P := fun _ _ => True) (R := ApprovalReply.Honest)
    (J := fun s => ∀ e ∈ s.reports, e.1.Honest e.2) ?_ ?_ (fun i q s r t _ _ _ hs => hs) ?_ hrun
  · rintro p ⟨r, rfl⟩
    cases r with
    | approve corpusId reviewer approvalReason =>
      refine ⟨_, _, _, rfl, sending_mono
        (sending_of_raises (F := fun e => e ≠ .databaseError) fun _ => ?_) ?_ ?_⟩
      · refine raises_bind (raises_handle (fun _ h => h) raises_approveGraphFrom fun e he => ?_)
          fun a => raises_bind raises_send fun _ => trivial
        exact raises_bind raises_send fun _ => he
      · rintro a tr - corpusId e he
        cases he
      · rintro e tr he corpusId e' heq
        cases heq
        exact he
    | elsewhere corpora evidence =>
      refine ⟨_, _, _, rfl, sending_mono (sending_of_raises (F := fun _ => True) fun _ => ?_) ?_ ?_⟩
      · refine raises_bind (raises_handle (fun _ h => h) raises_send fun e he => ?_)
          fun a => raises_bind raises_send fun _ => trivial
        exact raises_bind raises_send fun _ => he
      · rintro a tr - corpusId e he
        cases he
      · rintro e tr - corpusId e' he
        cases he
  · rintro s ⟨d, -, rfl⟩
    exact ⟨fun i => rfl, fun e he => by cases he⟩
  · intro i x s hx hs e he
    rcases List.mem_append.1 he with he | he
    · exact hs e he
    · rw [List.mem_singleton.1 he]
      exact hx

/-- **The approvals of a corpus are a lineage**, and a call that raises adds nothing to it, or one
approval that it could not read again. -/
theorem approval_lineage (h : ApprovalRun payloadHash w) :
    (∀ corpusId, ((w.store.store.db.ofCorpus corpusId).map fun a => a.version) =
      List.range' 1 (w.store.store.db.ofCorpus corpusId).length) ∧
    (∀ a ∈ w.store.store.db.approvals, a.version = 1 ∧ a.predecessorApprovalId = none ∨
      ∃ b ∈ w.store.store.db.approvals, b.corpusId = a.corpusId ∧ b.version + 1 = a.version ∧
        a.predecessorApprovalId = some b.id) ∧
    (∀ id, (w.store.store.db.superseding id).length ≤ 1) ∧
    ∀ corpusId e tr, (ApprovalReply.approved corpusId (.error e), tr) ∈ w.store.reports →
      changes tr = [] ∨ e = .databaseError ∧ ¬Unfailing tr ∧
        ∃ a ∈ w.store.store.db.approvals, a.corpusId = corpusId ∧ changes tr = [.insert a] := by
  obtain ⟨hadmitted, hchained⟩ := approvals_chained h
  have hbefore : ∀ a ∈ w.store.store.db.approvals, a.version = 1 ∧ a.predecessorApprovalId = none ∨
      ∃ b ∈ w.store.store.db.approvals, b.corpusId = a.corpusId ∧ b.version + 1 = a.version ∧
        a.predecessorApprovalId = some b.id := by
    intro a ha
    have hmem : a ∈ w.store.store.db.ofCorpus a.corpusId :=
      List.mem_filter.2 ⟨ha, decide_eq_true rfl⟩
    refine ((hchained a.corpusId).predecessor hmem).imp id ?_
    rintro ⟨b, hb, hversion, hid⟩
    obtain ⟨hb, hcorpus⟩ := List.mem_filter.1 hb
    exact ⟨b, hb, of_decide_eq_true hcorpus, hversion, hid⟩
  refine ⟨fun corpusId => (hchained corpusId).versions, hbefore, fun id => ?_,
    fun corpusId e tr he => ?_⟩
  · obtain ⟨hids, hversions, -⟩ := of_decide_eq_true hadmitted
    have hone : ∀ a ∈ w.store.store.db.superseding id, ∀ b ∈ w.store.store.db.superseding id, a = b := by
      intro a ha b hb
      obtain ⟨ha, hida⟩ := List.mem_filter.1 ha
      obtain ⟨hb, hidb⟩ := List.mem_filter.1 hb
      have hida := of_decide_eq_true hida
      have hidb := of_decide_eq_true hidb
      rcases hbefore a ha with ⟨-, hnone⟩ | ⟨c, hc, hca, hcav, hcaid⟩
      · rw [hnone] at hida
        cases hida
      · rcases hbefore b hb with ⟨-, hnone⟩ | ⟨c', hc', hcb, hcbv, hcbid⟩
        · rw [hnone] at hidb
          cases hidb
        · rw [hida] at hcaid
          rw [hidb] at hcbid
          have hsame : c = c' := List.inj_on_of_nodup_map hids hc hc'
            (Option.some.inj (hcaid.symm.trans hcbid))
          subst hsame
          refine List.inj_on_of_nodup_map hversions ha hb (Prod.ext (hca.symm.trans hcb) ?_)
          exact hcav.symm.trans hcbv
    have hnodup : (w.store.store.db.superseding id).Nodup := (List.Nodup.of_map _ hids).filter _
    cases hl : w.store.store.db.superseding id with
    | nil => exact Nat.zero_le 1
    | cons a l =>
      cases l with
      | nil => exact le_rfl
      | cons b l =>
        rw [hl] at hone hnodup
        have hab := hone a (by simp) b (by simp)
        exact absurd (hab ▸ List.mem_cons_self) (List.nodup_cons.1 hnodup).1
  · refine (approval_ends h _ he).imp id ?_
    rintro ⟨herror, hinserted⟩
    exact ⟨herror, fun htr => approval_failures h _ he corpusId e rfl htr herror, hinserted⟩

end

/-! ### Two reviewers at once -/

/-- A corpus without approvals. -/
def unapproved : Approvals where
  corpora := [5]
  evidence _ := ⟨.null, .null, .null, .null, .null⟩

/-- The scheduler without a failure; the sessions draw different ids. -/
def approvalSchedule : Schedule (approvalSchema.machine Uuid Bool) :=
  approvalSchema.scheduleBy fun i => if i then 1 else 2

/-- What two sessions do in turn: the request that a session starts, if any, and how many statements
it sends. -/
def playApprovals (S : Schedule (approvalSchema.machine Uuid Bool))
    (ts : List (Bool × Option ApprovalRequest × ℕ)) : ApprovalWorld Bool :=
  (S.reporting ApprovalReply).play
    (ts.map fun t => ⟨t.1, t.2.1.map fun r => r.reporting fun _ => "", t.2.2⟩)
    ⟨Reported.init (Records.init unapproved), fun _ => none⟩

theorem playApprovals_run (S : Schedule (approvalSchema.machine Uuid Bool))
    (ts : List (Bool × Option ApprovalRequest × ℕ)) :
    ApprovalRun (fun _ => "") (playApprovals S ts) := by
  refine Schedule.play_reach (.init ⟨unapproved, ⟨by decide, fun _ => trivial⟩, rfl⟩) fun t ht p hp => ?_
  obtain ⟨e, -, rfl⟩ := List.mem_map.1 ht
  obtain ⟨r, -, rfl⟩ := Option.map_eq_some_iff.1 hp
  exact ⟨r, rfl⟩

/-- The second reviewer inserts after the first one has read. -/
def approvedAtOnce : List (Bool × Option ApprovalRequest × ℕ) :=
  [(true, some (.approve 5 "first" none), 4), (false, some (.approve 5 "second" none), 30),
    (true, none, 30)]

theorem approval_lineage_at_once :
    (playApprovals approvalSchedule approvedAtOnce).store.store.db.approvals.map
      (fun a => (a.id, a.version, a.predecessorApprovalId)) = [(2, 1, none), (1, 2, some 2)] ∧
    (∀ corpusId, (((playApprovals approvalSchedule approvedAtOnce).store.store.db.ofCorpus corpusId).map
      fun a => a.version) = List.range' 1
        ((playApprovals approvalSchedule approvedAtOnce).store.store.db.ofCorpus corpusId).length) ∧
    (∀ a ∈ (playApprovals approvalSchedule approvedAtOnce).store.store.db.approvals,
      a.version = 1 ∧ a.predecessorApprovalId = none ∨
      ∃ b ∈ (playApprovals approvalSchedule approvedAtOnce).store.store.db.approvals,
        b.corpusId = a.corpusId ∧ b.version + 1 = a.version ∧ a.predecessorApprovalId = some b.id) ∧
    (∀ id, ((playApprovals approvalSchedule approvedAtOnce).store.store.db.superseding id).length ≤ 1) ∧
    ∀ corpusId e tr, (ApprovalReply.approved corpusId (.error e), tr) ∈
        (playApprovals approvalSchedule approvedAtOnce).store.reports →
      changes tr = [] ∨ e = .databaseError ∧ ¬Unfailing tr ∧
        ∃ a ∈ (playApprovals approvalSchedule approvedAtOnce).store.store.db.approvals,
          a.corpusId = corpusId ∧ changes tr = [.insert a] :=
  ⟨by decide +kernel, approval_lineage (playApprovals_run approvalSchedule approvedAtOnce)⟩

/-- A call that failed with the database, though it had inserted an approval. -/
def ApprovalReply.isUnread : ApprovalReply × List (Answered (RecordStatement ApprovalChange)
    (RecordStatement.Answer Approvals Uuid) ApprovalError) → Bool
  | (.approved _ (.error .databaseError), tr) => !(changes tr).isEmpty
  | _ => false

/-- The only call there is commits its approval; the row is not read again, and the call raises. -/
theorem approval_unread : ∃ (w : ApprovalWorld Bool) (corpusId : Uuid)
      (tr : List (Answered (RecordStatement ApprovalChange) (RecordStatement.Answer Approvals Uuid)
        ApprovalError)),
    ApprovalRun (fun _ => "") w ∧
    (ApprovalReply.approved corpusId (.error .databaseError), tr) ∈ w.store.reports ∧
    changes tr ≠ [] := by
  have hrun := playApprovals_run (Schema.failing approvalSchedule fun d => !d.approvals.isEmpty)
    [(true, some (.approve 5 "first" none), 30)]
  generalize hw : playApprovals (Schema.failing approvalSchedule fun d => !d.approvals.isEmpty)
    [(true, some (.approve 5 "first" none), 30)] = w at hrun
  have hreport : w.store.reports.any ApprovalReply.isUnread = true := by
    subst hw
    decide +kernel
  obtain ⟨e, he, hunread⟩ := List.any_eq_true.1 hreport
  unfold ApprovalReply.isUnread at hunread
  split at hunread
  · next corpusId tr =>
    refine ⟨w, corpusId, tr, hrun, he, fun hnil => ?_⟩
    rw [hnil] at hunread
    cases hunread
  · cases hunread

end AuthorityGraph

end PayReality
