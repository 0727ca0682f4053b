import Mathlib.Data.Fintype.EquivFin
import Mathlib.Data.List.Sort
import PayReality.AuthorityGraph.Tables
import PayReality.Lib.Rows
import PayReality.Promotion.AmountLimit

/-!
# The live graph diff

`ai_authority_builder_service.get_graph_diff`: what the discoveries of a corpus change of the
authorities that are in force. The discoveries of other corpora are searched by the principal that they
are resolved to, and the approved authorities by the name of their principal and their scope; neither
search looks at the organization. Only the authorities that are missed are those of the organization
of the corpus.

**Main result** `graphDiff_isolated_iff`: the diff of a corpus depends on the rows of its organization
alone exactly when neither search is made.
-/

namespace PayReality

namespace AuthorityGraph

open CompilationGate AmountLimit

/-- `policy_extraction_candidates`, of the corpora. -/
structure CorpusCandidate where
  corpusId : Uuid
  content : Json

inductive AuthorityStatus where
  | pendingReview | approved | rejected
  deriving DecidableEq, Repr

/-- `authorities`. -/
structure Authority where
  principalId : Uuid
  scope : String
  limitAmount : Option ℚ
  status : AuthorityStatus
  createdAt : Timestamp

/-- The tables that the diff reads. -/
structure Graph where
  corpora : List AuthorityCorpus
  authorityPrincipals : List AuthorityPrincipal
  candidates : List CorpusCandidate
  principals : List Principal
  authorities : List Authority
  corpora_nodup : (corpora.map fun c => c.id).Nodup
  principals_nodup : (principals.map fun p => p.id).Nodup

/-- `order_by(created_at.desc())`. -/
def newestFirst {α : Type} (createdAt : α → Timestamp) (rows : List α) : List α :=
  rows.insertionSort fun a b => createdAt b ≤ createdAt a

/-- A text of a content that is not empty. -/
def statedText : Option Json → Option String
  | some (.str s) => if s = "" then none else some s
  | _ => none

/-- The principal and the action of a content that has both. -/
def statedScope (content : Json) : Option (String × String) :=
  match statedText (content.lookup ["scope", "principal"]),
    statedText (content.lookup ["scope", "action"]) with
  | some name, some action => some (name, action)
  | _, _ => none

namespace Graph

variable (db : Graph) (P : Platform)

def getCorpus (corpusId : Uuid) : Option AuthorityCorpus :=
  Rows.get (fun c => c.id) db.corpora corpusId

def getPrincipal (principalId : Uuid) : Option Principal :=
  Rows.get (fun p => p.id) db.principals principalId

/-- `list_principals`. -/
def listPrincipals (corpusId : Uuid) : List AuthorityPrincipal :=
  newestFirst AuthorityPrincipal.createdAt
    (db.authorityPrincipals.filter fun a => a.corpusId = corpusId)

def listCandidates (corpusId : Uuid) : List CorpusCandidate :=
  db.candidates.filter fun c => c.corpusId = corpusId

/-- The last discovery in another corpus that is resolved to the principal. -/
def priorDiscovery (corpusId principalId : Uuid) : Option AuthorityPrincipal :=
  (newestFirst AuthorityPrincipal.createdAt (db.authorityPrincipals.filter fun a =>
    a.resolvedPrincipalId = some principalId ∧ a.corpusId ≠ corpusId)).head?

/-- The name of the principal, in lower case, is that of the text. -/
def isHeldBy (name : String) (a : Authority) : Bool :=
  match db.getPrincipal a.principalId with
  | some p => P.lower p.name = P.lower (stripped name)
  | none => false

/-- The last approved authority of a principal with this name. -/
def existingAuthority (name action : String) : Option Authority :=
  (newestFirst Authority.createdAt (db.authorities.filter fun a =>
    db.isHeldBy P name a ∧ a.scope = action ∧ a.status = .approved)).head?

/-- The approved authorities of the principals of an organization. -/
def approvedOf (organizationId : Uuid) : List Authority :=
  db.authorities.filter fun a =>
    (db.getPrincipal a.principalId).bind Principal.organizationId = some organizationId ∧
      a.status = .approved

end Graph

/-! ## The diff -/

/-- A text of a discovered principal that is not what it was. -/
structure ChangedText where
  name : String
  previous : Option String
  new : Option String
  deriving DecidableEq

/-- What a candidate says of an authority. -/
structure Threshold where
  principal : String
  action : String
  limit : Option PyFloat
  deriving DecidableEq

structure ChangedThreshold where
  principal : String
  action : String
  previousLimit : Option PyFloat
  newLimit : Option PyFloat
  deriving DecidableEq

structure GraphDiff where
  newAuthorities : List (String × Option String)
  removedAuthorities : List (String × String)
  newThresholds : List Threshold
  changedThresholds : List ChangedThreshold
  changedReportingLines : List ChangedText
  changedResponsibilities : List ChangedText
  deriving DecidableEq

inductive GraphDiffError where
  | corpusNotFound
  | overflow
  deriving DecidableEq

section

variable (P : Platform) (F : FloatFormat) (db : Graph) (corpusId : Uuid)

/-- `(text or "").strip().lower()`. -/
def normalized (text : Option String) : String := P.lower (stripped (text.getD ""))

def newAuthority (p : AuthorityPrincipal) : Option (String × Option String) :=
  match p.resolvedPrincipalId with
  | none => some (p.name, p.role)
  | some _ => none

/-- The text, where it is not what the prior discovery says. -/
def changedText (text : AuthorityPrincipal → Option String) (p : AuthorityPrincipal) :
    Option ChangedText :=
  match p.resolvedPrincipalId.bind (db.priorDiscovery corpusId) with
  | some prior =>
    if normalized P (text prior) ≠ normalized P (text p) then
      some { name := p.name, previous := text prior, new := text p }
    else none
  | none => none

/-- The limit that a candidate states for a principal and an action. -/
def threshold (row : CorpusCandidate) : Except OverflowError (Option Threshold) :=
  match statedScope row.content with
  | some (principal, action) => do
    return some { principal, action, limit := ← inferAmountLimit F row.content }
  | none => return none

def thresholds : Except OverflowError (List Threshold) := do
  let stated ← (db.listCandidates corpusId).mapM (threshold F)
  return stated.filterMap id

def newThreshold (t : Threshold) : Option Threshold :=
  match db.existingAuthority P t.principal t.action with
  | none => some t
  | some _ => none

def changedThreshold (t : Threshold) : Option ChangedThreshold :=
  match db.existingAuthority P t.principal t.action with
  | some existing =>
    if PyFloat.differ (existing.limitAmount.map F.ofDecimal) t.limit then
      some
        { principal := t.principal
          action := t.action
          previousLimit := existing.limitAmount.map F.ofDecimal
          newLimit := t.limit }
    else none
  | none => none

/-- The authority, where no candidate has its principal and its scope. -/
def removedAuthority (stated : List Threshold) (a : Authority) : Option (String × String) :=
  match db.getPrincipal a.principalId with
  | some principal =>
    if (normalized P (some principal.name), a.scope) ∈
        stated.map fun t => (normalized P (some t.principal), t.action) then none
    else some (principal.name, a.scope)
  | none => none

def removedAuthorities (organizationId : Option Uuid) (stated : List Threshold) :
    List (String × String) :=
  match organizationId with
  | some organizationId =>
    (db.approvedOf organizationId).filterMap (removedAuthority P db stated)
  | none => []

/-- `get_graph_diff`. -/
def getGraphDiff : Except GraphDiffError GraphDiff :=
  match db.getCorpus corpusId with
  | none => .error .corpusNotFound
  | some corpus =>
    let discovered := db.listPrincipals corpusId
    match thresholds F db corpusId with
    | .error _ => .error .overflow
    | .ok stated => .ok
      { newAuthorities := discovered.filterMap newAuthority
        removedAuthorities := removedAuthorities P db corpus.organizationId stated
        newThresholds := stated.filterMap (newThreshold P db)
        changedThresholds := stated.filterMap (changedThreshold P F db)
        changedReportingLines :=
          discovered.filterMap (changedText P db corpusId AuthorityPrincipal.reportsTo)
        changedResponsibilities :=
          discovered.filterMap (changedText P db corpusId AuthorityPrincipal.role) }

end

/-! ## Rows of one organization -/

namespace Graph

variable (db : Graph)

def corpusOwner (corpusId : Uuid) : Option Uuid :=
  (db.getCorpus corpusId).bind AuthorityCorpus.organizationId

def principalOwner (principalId : Uuid) : Option Uuid :=
  (db.getPrincipal principalId).bind Principal.organizationId

end Graph

/-- The databases have the same rows of the organization. -/
structure SameTenant (o : Uuid) (db db' : Graph) : Prop where
  corpora : (db'.corpora.filter fun c => c.organizationId = some o) =
    db.corpora.filter fun c => c.organizationId = some o
  authorityPrincipals : (db'.authorityPrincipals.filter fun a => db'.corpusOwner a.corpusId = some o) =
    db.authorityPrincipals.filter fun a => db.corpusOwner a.corpusId = some o
  candidates : (db'.candidates.filter fun c => db'.corpusOwner c.corpusId = some o) =
    db.candidates.filter fun c => db.corpusOwner c.corpusId = some o
  principals : (db'.principals.filter fun p => p.organizationId = some o) =
    db.principals.filter fun p => p.organizationId = some o
  authorities : (db'.authorities.filter fun a => db'.principalOwner a.principalId = some o) =
    db.authorities.filter fun a => db.principalOwner a.principalId = some o

section

variable {db db' : Graph} {P : Platform} {F : FloatFormat} {corpusId o : Uuid}

theorem SameTenant.symm (h : SameTenant o db db') : SameTenant o db' db :=
  ⟨h.corpora.symm, h.authorityPrincipals.symm, h.candidates.symm, h.principals.symm,
    h.authorities.symm⟩

theorem SameTenant.getCorpus (h : SameTenant o db db') {corpus : AuthorityCorpus}
    (hc : db.getCorpus corpusId = some corpus) (ho : corpus.organizationId = some o) :
    db'.getCorpus corpusId = some corpus := by
  have hmem : corpus ∈ db'.corpora.filter fun c => c.organizationId = some o := by
    rw [h.corpora]
    exact List.mem_filter.2 ⟨Rows.mem_of_get hc, decide_eq_true ho⟩
  have := Rows.get_of_mem db'.corpora_nodup (List.mem_filter.1 hmem).1
  rwa [Rows.key_of_get hc] at this

theorem SameTenant.getPrincipal (h : SameTenant o db db') {principalId : Uuid} {p : Principal}
    (hp : db.getPrincipal principalId = some p) (ho : p.organizationId = some o) :
    db'.getPrincipal principalId = some p := by
  have hmem : p ∈ db'.principals.filter fun p => p.organizationId = some o := by
    rw [h.principals]
    exact List.mem_filter.2 ⟨Rows.mem_of_get hp, decide_eq_true ho⟩
  have := Rows.get_of_mem db'.principals_nodup (List.mem_filter.1 hmem).1
  rwa [Rows.key_of_get hp] at this

/-- The rows of one corpus are among those of the corpora of its organization. -/
theorem filter_corpus {α : Type} (owner : Uuid → Option Uuid) (key : α → Uuid)
    (hc : owner corpusId = some o) (rows : List α) :
    (rows.filter fun a => key a = corpusId) =
      (rows.filter fun a => owner (key a) = some o).filter fun a => key a = corpusId := by
  rw [List.filter_filter]
  refine List.filter_congr fun a _ => ?_
  by_cases ha : key a = corpusId
  · simp [ha, hc]
  · simp [ha]

theorem corpusOwner_of_getCorpus {corpus : AuthorityCorpus}
    (hc : db.getCorpus corpusId = some corpus) (ho : corpus.organizationId = some o) :
    db.corpusOwner corpusId = some o := by
  rw [Graph.corpusOwner, hc]
  exact ho

section

variable (h : SameTenant o db db') (hc : db.corpusOwner corpusId = some o)
  (hc' : db'.corpusOwner corpusId = some o)

include h hc hc'

theorem SameTenant.listPrincipals : db'.listPrincipals corpusId = db.listPrincipals corpusId := by
  unfold Graph.listPrincipals
  rw [filter_corpus db'.corpusOwner _ hc', filter_corpus db.corpusOwner _ hc db.authorityPrincipals,
    h.authorityPrincipals]

theorem SameTenant.listCandidates : db'.listCandidates corpusId = db.listCandidates corpusId := by
  unfold Graph.listCandidates
  rw [filter_corpus db'.corpusOwner _ hc', filter_corpus db.corpusOwner _ hc db.candidates,
    h.candidates]

theorem SameTenant.thresholds : thresholds F db' corpusId = thresholds F db corpusId := by
  unfold AuthorityGraph.thresholds
  rw [h.listCandidates hc hc']

end

theorem SameTenant.approvedOf (h : SameTenant o db db') : db'.approvedOf o = db.approvedOf o := by
  have hfilter (g : Graph) : g.approvedOf o =
      (g.authorities.filter fun a => g.principalOwner a.principalId = some o).filter
        fun a => a.status = .approved := by
    rw [List.filter_filter]
    refine List.filter_congr fun a _ => ?_
    show decide (_ ∧ _) = (decide _ && decide _)
    rw [Bool.decide_and, Bool.and_comm]
    rfl
  rw [hfilter db', hfilter db, h.authorities]

theorem SameTenant.removedAuthorities (h : SameTenant o db db') (stated : List Threshold) :
    removedAuthorities P db' (some o) stated = removedAuthorities P db (some o) stated := by
  show (db'.approvedOf o).filterMap _ = (db.approvedOf o).filterMap _
  rw [h.approvedOf]
  refine List.filterMap_congr fun a ha => ?_
  have howner := (of_decide_eq_true (List.mem_filter.1 ha).2).1
  obtain ⟨p, hp, ho⟩ := Option.bind_eq_some_iff.1 howner
  unfold removedAuthority
  rw [hp, h.getPrincipal hp ho]

end

/-! ## Rows of another organization -/

/-- A row that is newer than the others is the first. -/
theorem head?_newestFirst_cons {α : Type} {createdAt : α → Timestamp} {x : α} {rows : List α}
    (h : ∀ a ∈ rows, createdAt a ≤ createdAt x) :
    (newestFirst createdAt (x :: rows)).head? = some x := by
  show (List.orderedInsert _ x (newestFirst createdAt rows)).head? = some x
  cases hs : newestFirst createdAt rows with
  | nil => rfl
  | cons b bs =>
    have hb : b ∈ rows := (List.mem_insertionSort _).1 (hs ▸ List.mem_cons_self)
    rw [List.orderedInsert, if_pos (h b hb)]
    rfl

/-- There is a time after that of every row. -/
theorem exists_later {α : Type} (createdAt : α → Timestamp) (rows : List α) :
    ∃ t, ∀ a ∈ rows, createdAt a ≤ t := by
  induction rows with
  | nil => exact ⟨0, by simp⟩
  | cons a rows ih =>
    obtain ⟨t, ht⟩ := ih
    refine ⟨max t (createdAt a), fun b hb => ?_⟩
    rcases List.mem_cons.1 hb with rfl | hb
    · exact le_max_right _ _
    · exact (ht b hb).trans (le_max_left _ _)

theorem exists_unused {α : Type} [Infinite α] (xs : List α) : ∃ x, x ∉ xs := by
  classical
  obtain ⟨x, hx⟩ := Infinite.exists_notMem_finset xs.toFinset
  exact ⟨x, fun h => hx (List.mem_toFinset.2 h)⟩

/-- A new row with a new key changes no search for another key. -/
theorem get_cons_of_ne {α : Type} {key : α → Uuid} {x : α} {rows : List α} {k : Uuid}
    (hk : key x ≠ k) : Rows.get key (x :: rows) k = Rows.get key rows k :=
  List.find?_cons_of_neg (by simpa using hk)

theorem get_cons_self {α : Type} {key : α → Uuid} {x : α} {rows : List α} :
    Rows.get key (x :: rows) (key x) = some x :=
  List.find?_cons_of_pos (decide_eq_true rfl)

namespace Graph

/-- The database with one more corpus and one more discovery. -/
def discovering (db : Graph) (c : AuthorityCorpus) (a : AuthorityPrincipal)
    (hc : c.id ∉ db.corpora.map fun c => c.id) : Graph :=
  { db with
    corpora := c :: db.corpora
    authorityPrincipals := a :: db.authorityPrincipals
    corpora_nodup := List.nodup_cons.2 ⟨hc, db.corpora_nodup⟩ }

/-- The database with one more principal and one more authority. -/
def authorizing (db : Graph) (p : Principal) (a : Authority)
    (hp : p.id ∉ db.principals.map fun p => p.id) : Graph :=
  { db with
    principals := p :: db.principals
    authorities := a :: db.authorities
    principals_nodup := List.nodup_cons.2 ⟨hp, db.principals_nodup⟩ }

end Graph

variable {db : Graph} {P : Platform} {F : FloatFormat} {corpusId o : Uuid}

/-- A search for the rows of an organization does not see a row of another one. -/
theorem owner_cons_iff {α : Type} {key : α → Uuid} {owner : α → Option Uuid} {x : α}
    {rows : List α} (hx : key x ∉ rows.map key) (ho : owner x ≠ some o) (k : Uuid) :
    (Rows.get key (x :: rows) k).bind owner = some o ↔ (Rows.get key rows k).bind owner = some o := by
  by_cases hk : key x = k
  · subst hk
    rw [get_cons_self]
    refine ⟨fun h => absurd h ho, fun h => ?_⟩
    obtain ⟨r, hr, -⟩ := Option.bind_eq_some_iff.1 h
    exact absurd (List.mem_map.2 ⟨r, Rows.mem_of_get hr, Rows.key_of_get hr⟩) hx
  · rw [get_cons_of_ne hk]

theorem sameTenant_discovering {c : AuthorityCorpus} {a : AuthorityPrincipal}
    (hc : c.id ∉ db.corpora.map fun c => c.id) (ho : c.organizationId ≠ some o)
    (ha : a.corpusId = c.id) : SameTenant o db (db.discovering c a hc) := by
  have howner (k : Uuid) : (db.discovering c a hc).corpusOwner k = some o ↔
      db.corpusOwner k = some o := owner_cons_iff hc ho k
  have hnew : ¬ (db.discovering c a hc).corpusOwner a.corpusId = some o := by
    rw [ha]
    show ¬ (Rows.get (fun c => c.id) (c :: db.corpora) c.id).bind AuthorityCorpus.organizationId =
      some o
    rw [get_cons_self]
    exact ho
  refine ⟨?_, ?_, ?_, rfl, rfl⟩
  · exact List.filter_cons_of_neg (by simpa using ho)
  · show (a :: db.authorityPrincipals).filter _ = _
    rw [List.filter_cons_of_neg (by simpa using hnew)]
    exact List.filter_congr fun b _ => by simp only [howner]
  · exact List.filter_congr fun b _ => by simp only [howner]

theorem sameTenant_authorizing {p : Principal} {a : Authority}
    (hp : p.id ∉ db.principals.map fun p => p.id) (ho : p.organizationId ≠ some o)
    (ha : a.principalId = p.id) : SameTenant o db (db.authorizing p a hp) := by
  have howner (k : Uuid) : (db.authorizing p a hp).principalOwner k = some o ↔
      db.principalOwner k = some o := owner_cons_iff hp ho k
  have hnew : ¬ (db.authorizing p a hp).principalOwner a.principalId = some o := by
    rw [ha]
    show ¬ (Rows.get (fun p => p.id) (p :: db.principals) p.id).bind Principal.organizationId = some o
    rw [get_cons_self]
    exact ho
  refine ⟨rfl, rfl, rfl, ?_, ?_⟩
  · exact List.filter_cons_of_neg (by simpa using ho)
  · show (a :: db.authorities).filter _ = _
    rw [List.filter_cons_of_neg (by simpa using hnew)]
    exact List.filter_congr fun b _ => by simp only [howner]

/-! ## What the diff says -/

variable {corpus : AuthorityCorpus} {stated : List Threshold}

theorem getGraphDiff_eq (hc : db.getCorpus corpusId = some corpus)
    (hs : thresholds F db corpusId = .ok stated) :
    getGraphDiff P F db corpusId = .ok
      { newAuthorities := (db.listPrincipals corpusId).filterMap newAuthority
        removedAuthorities := removedAuthorities P db corpus.organizationId stated
        newThresholds := stated.filterMap (newThreshold P db)
        changedThresholds := stated.filterMap (changedThreshold P F db)
        changedReportingLines := (db.listPrincipals corpusId).filterMap
          (changedText P db corpusId AuthorityPrincipal.reportsTo)
        changedResponsibilities := (db.listPrincipals corpusId).filterMap
          (changedText P db corpusId AuthorityPrincipal.role) } := by
  unfold getGraphDiff
  simp only [hc, hs]

theorem getGraphDiff_overflow (hc : db.getCorpus corpusId = some corpus) {e : OverflowError}
    (hs : thresholds F db corpusId = .error e) :
    getGraphDiff P F db corpusId = .error .overflow := by
  unfold getGraphDiff
  simp only [hc, hs]

/-- The diffs of two databases with the same discoveries and candidates. -/
theorem lists_of_getGraphDiff {db' : Graph} (hc : db.getCorpus corpusId = some corpus)
    (hc' : db'.getCorpus corpusId = some corpus) (hs : thresholds F db corpusId = .ok stated)
    (hs' : thresholds F db' corpusId = .ok stated)
    (h : getGraphDiff P F db' corpusId = getGraphDiff P F db corpusId) :
    stated.filterMap (newThreshold P db') = stated.filterMap (newThreshold P db) ∧
      stated.filterMap (changedThreshold P F db') = stated.filterMap (changedThreshold P F db) ∧
      (db'.listPrincipals corpusId).filterMap
          (changedText P db' corpusId AuthorityPrincipal.reportsTo) =
        (db.listPrincipals corpusId).filterMap
          (changedText P db corpusId AuthorityPrincipal.reportsTo) := by
  rw [getGraphDiff_eq hc hs, getGraphDiff_eq hc' hs'] at h
  injection h with h
  injection h with _ _ hnew hchanged hlines _
  exact ⟨hnew, hchanged, hlines⟩

/-! ### Thresholds -/

theorem mem_changedThreshold {x : ChangedThreshold}
    (h : x ∈ stated.filterMap (changedThreshold P F db)) :
    ∃ existing, db.existingAuthority P x.principal x.action = some existing ∧
      x.previousLimit = existing.limitAmount.map F.ofDecimal := by
  obtain ⟨t, -, ht⟩ := List.mem_filterMap.1 h
  unfold changedThreshold at ht
  split at ht
  · next existing he =>
    split at ht
    · cases ht
      exact ⟨existing, he, rfl⟩
    · cases ht
  · cases ht

theorem changedThreshold_mem {t : Threshold} {existing : Authority} (ht : t ∈ stated)
    (he : db.existingAuthority P t.principal t.action = some existing)
    (hd : PyFloat.differ (existing.limitAmount.map F.ofDecimal) t.limit = true) :
    (⟨t.principal, t.action, existing.limitAmount.map F.ofDecimal, t.limit⟩ : ChangedThreshold) ∈
      stated.filterMap (changedThreshold P F db) := by
  refine List.mem_filterMap.2 ⟨t, ht, ?_⟩
  unfold changedThreshold
  simp only [he]
  exact if_pos hd

/-- Two databases in which the authority of a threshold has a limit and has none. -/
theorem changedThresholds_ne {db' : Graph} {t : Threshold} {existing existing' : Authority}
    (ht : t ∈ stated) (he : db.existingAuthority P t.principal t.action = some existing)
    (he' : db'.existingAuthority P t.principal t.action = some existing')
    (hne : existing'.limitAmount.isSome ≠ existing.limitAmount.isSome) :
    stated.filterMap (changedThreshold P F db') ≠ stated.filterMap (changedThreshold P F db) := by
  intro h
  have hlimit : existing'.limitAmount.map F.ofDecimal ≠ existing.limitAmount.map F.ofDecimal := by
    intro heq
    have := congrArg Option.isSome heq
    rw [Option.isSome_map, Option.isSome_map] at this
    exact hne this
  by_cases hs : existing.limitAmount.isSome = t.limit.isSome
  · -- the other limit differs from the threshold, and only the other database says so
    have hd : PyFloat.differ (existing'.limitAmount.map F.ofDecimal) t.limit = true :=
      PyFloat.differ_of_isSome (by rw [Option.isSome_map, ← hs]; exact hne)
    have hmem := changedThreshold_mem ht he' hd
    rw [h] at hmem
    obtain ⟨x, hx, hprevious⟩ := mem_changedThreshold hmem
    rw [he] at hx
    cases hx
    exact hlimit hprevious
  · have hd : PyFloat.differ (existing.limitAmount.map F.ofDecimal) t.limit = true :=
      PyFloat.differ_of_isSome (by rw [Option.isSome_map]; exact hs)
    have hmem := changedThreshold_mem ht he hd
    rw [← h] at hmem
    obtain ⟨x, hx, hprevious⟩ := mem_changedThreshold hmem
    rw [he'] at hx
    cases hx
    exact hlimit hprevious.symm

theorem existingAuthority_authorizing {p : Principal} {a : Authority} {name : String}
    (hp : p.id ∉ db.principals.map fun p => p.id) (ha : a.principalId = p.id)
    (hname : p.name = stripped name) (hstatus : a.status = .approved)
    (hlast : ∀ b ∈ db.authorities, b.createdAt ≤ a.createdAt) :
    (db.authorizing p a hp).existingAuthority P name a.scope = some a := by
  have hheld : (db.authorizing p a hp).isHeldBy P name a = true := by
    have hget : (db.authorizing p a hp).getPrincipal a.principalId = some p := by
      rw [ha]
      exact get_cons_self
    unfold Graph.isHeldBy
    rw [hget]
    exact decide_eq_true (congrArg P.lower hname)
  unfold Graph.existingAuthority
  show (newestFirst _ ((a :: db.authorities).filter _)).head? = _
  rw [List.filter_cons_of_pos (by simpa using ⟨hheld, hstatus⟩)]
  exact head?_newestFirst_cons fun b hb => hlast b (List.mem_filter.1 hb).1

/-- A candidate that names a principal and an action is compared with the authorities of every
organization. -/
theorem exists_of_threshold (hc : db.getCorpus corpusId = some corpus)
    (ho : corpus.organizationId = some o) (hs : thresholds F db corpusId = .ok stated)
    {t : Threshold} (ht : t ∈ stated) :
    ∃ db', SameTenant o db db' ∧ getGraphDiff P F db' corpusId ≠ getGraphDiff P F db corpusId := by
  obtain ⟨k, hk⟩ := exists_unused (db.principals.map fun p => p.id)
  obtain ⟨time, htime⟩ := exists_later Authority.createdAt db.authorities
  -- its limit is there where that of the present authority is not
  let present := (db.existingAuthority P t.principal t.action).bind Authority.limitAmount
  let p : Principal := ⟨k, stripped t.principal, none, some (o + 1)⟩
  let a : Authority := ⟨k, t.action, if present.isSome then none else some 0, .approved, time⟩
  have hsame : SameTenant o db (db.authorizing p a hk) :=
    sameTenant_authorizing hk (by simp [p]) rfl
  have hc' := hsame.getCorpus hc ho
  have hs' : thresholds F (db.authorizing p a hk) corpusId = .ok stated :=
    (hsame.thresholds (corpusOwner_of_getCorpus hc ho) (corpusOwner_of_getCorpus hc' ho)).trans hs
  have he' : (db.authorizing p a hk).existingAuthority P t.principal t.action = some a :=
    existingAuthority_authorizing hk rfl rfl rfl htime
  refine ⟨_, hsame, fun h => ?_⟩
  obtain ⟨hnew, hchanged, -⟩ := lists_of_getGraphDiff hc hc' hs hs' h
  cases he : db.existingAuthority P t.principal t.action with
  | none =>
    have hmem : t ∈ stated.filterMap (newThreshold P db) :=
      List.mem_filterMap.2 ⟨t, ht, by unfold newThreshold; rw [he]⟩
    rw [← hnew] at hmem
    obtain ⟨x, -, hx⟩ := List.mem_filterMap.1 hmem
    unfold newThreshold at hx
    split at hx
    · next hnone =>
      cases hx
      rw [he'] at hnone
      cases hnone
    · cases hx
  | some existing =>
    refine changedThresholds_ne ht he he' ?_ hchanged
    show (if present.isSome then none else some (0 : ℚ)).isSome ≠ existing.limitAmount.isSome
    have hpresent : present = existing.limitAmount := by simp [present, he]
    rw [hpresent]
    cases existing.limitAmount <;> simp

/-! ### Reporting lines -/

/-- A letter after some blanks. -/
def padded (n : ℕ) (c : Char) : String := String.ofList (List.replicate n ' ' ++ [c])

theorem strip_padded (n : ℕ) {c : Char} (hc : Text.isSpace c = false) :
    Text.strip (List.replicate n ' ' ++ [c]) = [c] := by
  have hdrop : (List.replicate n ' ' ++ [c]).dropWhile Text.isSpace = [c] := by
    induction n with
    | zero => exact List.dropWhile_cons_of_neg (by simp [hc])
    | succ n ih =>
      rw [List.replicate_succ, List.cons_append, List.dropWhile_cons_of_pos (by decide)]
      exact ih
  unfold Text.strip
  rw [hdrop]
  show (List.dropWhile Text.isSpace [c]).reverse = [c]
  rw [List.dropWhile_cons_of_neg (by simp [hc])]
  rfl

theorem stripped_padded (n : ℕ) {c : Char} (hc : Text.isSpace c = false) :
    stripped (padded n c) = String.ofList [c] := by
  unfold stripped padded
  rw [String.toList_ofList, strip_padded n hc]

/-- There is a text that is none of these, and that is read as the letter. -/
theorem exists_padded (texts : List String) {c : Char} (hc : Text.isSpace c = false) :
    ∃ s, s ∉ texts ∧ stripped s = String.ofList [c] := by
  obtain ⟨n, hn⟩ := exists_unused (texts.map fun s => s.toList.length - 1)
  refine ⟨padded n c, fun hmem => hn ?_, stripped_padded n hc⟩
  refine List.mem_map.2 ⟨_, hmem, ?_⟩
  simp [padded]

theorem changedText_previous {text : AuthorityPrincipal → Option String} {p prior : AuthorityPrincipal}
    {r : Uuid} (hr : p.resolvedPrincipalId = some r) (hprior : db.priorDiscovery corpusId r = some prior)
    (hne : normalized P (text prior) ≠ normalized P (text p)) :
    changedText P db corpusId text p = some ⟨p.name, text prior, text p⟩ := by
  unfold changedText
  rw [hr, Option.bind_some, hprior]
  exact if_pos hne

theorem priorDiscovery_discovering {c : AuthorityCorpus} {a : AuthorityPrincipal} {r : Uuid}
    (hc : c.id ∉ db.corpora.map fun c => c.id) (hr : a.resolvedPrincipalId = some r)
    (ha : a.corpusId ≠ corpusId) (hlast : ∀ b ∈ db.authorityPrincipals, b.createdAt ≤ a.createdAt) :
    (db.discovering c a hc).priorDiscovery corpusId r = some a := by
  unfold Graph.priorDiscovery
  show (newestFirst _ ((a :: db.authorityPrincipals).filter _)).head? = _
  rw [List.filter_cons_of_pos (by simpa using ⟨hr, ha⟩)]
  exact head?_newestFirst_cons fun b hb => hlast b (List.mem_filter.1 hb).1

/-- A discovery that is resolved is compared with those of every organization. -/
theorem exists_of_resolved (hlower : P.lower "a" ≠ P.lower "b")
    (hc : db.getCorpus corpusId = some corpus) (ho : corpus.organizationId = some o)
    (hs : thresholds F db corpusId = .ok stated) {p : AuthorityPrincipal}
    (hp : p ∈ db.listPrincipals corpusId) {r : Uuid} (hr : p.resolvedPrincipalId = some r) :
    ∃ db', SameTenant o db db' ∧ getGraphDiff P F db' corpusId ≠ getGraphDiff P F db corpusId := by
  have hletter : ∃ c, Text.isSpace c = false ∧
      P.lower (String.ofList [c]) ≠ normalized P p.reportsTo := by
    by_cases ha : P.lower "a" = normalized P p.reportsTo
    · exact ⟨'b', by decide, fun hb => hlower (ha.trans hb.symm)⟩
    · exact ⟨'a', by decide, ha⟩
  obtain ⟨letter, hspace, hletter⟩ := hletter
  obtain ⟨text, hnew, htext⟩ := exists_padded
    (((db.listPrincipals corpusId).filterMap
      (changedText P db corpusId AuthorityPrincipal.reportsTo)).filterMap ChangedText.previous) hspace
  obtain ⟨k, hk⟩ := exists_unused (db.corpora.map fun c => c.id)
  obtain ⟨time, htime⟩ := exists_later AuthorityPrincipal.createdAt db.authorityPrincipals
  let c : AuthorityCorpus := ⟨k, some (o + 1)⟩
  let a : AuthorityPrincipal := ⟨0, k, "", none, some text, some r, time⟩
  have hsame : SameTenant o db (db.discovering c a hk) :=
    sameTenant_discovering hk (by simp [c]) rfl
  have hc' := hsame.getCorpus hc ho
  have howner := corpusOwner_of_getCorpus hc ho
  have howner' := corpusOwner_of_getCorpus hc' ho
  have hs' := (hsame.thresholds (F := F) howner howner').trans hs
  have hother : a.corpusId ≠ corpusId := by
    rintro rfl
    exact hk (List.mem_map.2 ⟨corpus, Rows.mem_of_get hc, Rows.key_of_get hc⟩)
  refine ⟨_, hsame, fun h => ?_⟩
  obtain ⟨-, -, hlines⟩ := lists_of_getGraphDiff hc hc' hs hs' h
  have hprior : (db.discovering c a hk).priorDiscovery corpusId r = some a :=
    priorDiscovery_discovering hk rfl hother htime
  have hne : normalized P a.reportsTo ≠ normalized P p.reportsTo := by
    show P.lower (stripped text) ≠ _
    rw [htext]
    exact hletter
  have hmem : (⟨p.name, a.reportsTo, p.reportsTo⟩ : ChangedText) ∈
      ((db.discovering c a hk).listPrincipals corpusId).filterMap
        (changedText P (db.discovering c a hk) corpusId AuthorityPrincipal.reportsTo) := by
    rw [hsame.listPrincipals howner howner']
    exact List.mem_filterMap.2 ⟨p, hp, changedText_previous hr hprior hne⟩
  rw [hlines] at hmem
  exact hnew (List.mem_filterMap.2 ⟨_, hmem, rfl⟩)

/-! ## Isolation -/

/-- A discovery of the corpus is resolved, or one of its candidates names a principal and an
action. -/
def Graph.SearchesElsewhere (db : Graph) (corpusId : Uuid) : Prop :=
  (∃ p ∈ db.listPrincipals corpusId, p.resolvedPrincipalId.isSome) ∨
    ∃ c ∈ db.listCandidates corpusId, (statedScope c.content).isSome

/-- A limit that a candidate states for a principal and an action is too large for a `float`. -/
def Graph.LimitOverflows (db : Graph) (F : FloatFormat) (corpusId : Uuid) : Prop :=
  ∃ c ∈ db.listCandidates corpusId, threshold F c = .error {}

theorem limitOverflows_of_thresholds {e : OverflowError} (h : thresholds F db corpusId = .error e) :
    db.LimitOverflows F corpusId := by
  unfold thresholds at h
  unfold Graph.LimitOverflows
  generalize db.listCandidates corpusId = rows at h ⊢
  induction rows with
  | nil => cases h
  | cons c rows ih =>
    rw [List.mapM_cons] at h
    cases hc : threshold F c with
    | error e => exact ⟨c, List.mem_cons_self, hc⟩
    | ok t =>
      rw [hc] at h
      cases hrest : rows.mapM (threshold F) with
      | error e =>
        obtain ⟨c', hmem, hc'⟩ := ih (by rw [hrest]; rfl)
        exact ⟨c', List.mem_cons_of_mem _ hmem, hc'⟩
      | ok ts =>
        rw [hrest] at h
        cases h

theorem thresholds_of_limitOverflows (h : db.LimitOverflows F corpusId) :
    thresholds F db corpusId = .error {} := by
  cases hs : thresholds F db corpusId with
  | error e => rfl
  | ok stated =>
    obtain ⟨ts, hts, -⟩ := bind_ok.1 hs
    obtain ⟨c, hc, herror⟩ := h
    obtain ⟨t, -, ht⟩ := mapM_ok_mem hts hc
    rw [herror] at ht
    cases ht

/-- A candidate that names a principal and an action states a threshold. -/
theorem exists_threshold (hs : thresholds F db corpusId = .ok stated) {c : CorpusCandidate}
    (hc : c ∈ db.listCandidates corpusId) (hscope : (statedScope c.content).isSome) :
    ∃ t, t ∈ stated := by
  obtain ⟨ts, hts, hstated⟩ := bind_ok.1 hs
  cases hstated
  obtain ⟨t, ht, hthreshold⟩ := mapM_ok_mem hts hc
  unfold threshold at hthreshold
  split at hthreshold
  · obtain ⟨limit, -, hlimit⟩ := bind_ok.1 hthreshold
    cases hlimit
    exact ⟨_, List.mem_filterMap.2 ⟨_, ht, rfl⟩⟩
  · next hnone =>
    obtain ⟨scope, hscope⟩ := Option.isSome_iff_exists.1 hscope
    rw [hnone] at hscope
    cases hscope

/-- Without a principal and an action in any candidate there is no threshold. -/
theorem thresholds_eq_nil (h : ∀ c ∈ db.listCandidates corpusId, statedScope c.content = none) :
    thresholds F db corpusId = .ok [] := by
  unfold thresholds
  generalize db.listCandidates corpusId = rows at h ⊢
  have hrows : ∃ ts : List (Option Threshold), rows.mapM (threshold F) = .ok ts ∧
      ts.filterMap id = [] := by
    induction rows with
    | nil => exact ⟨[], rfl, rfl⟩
    | cons c rows ih =>
      obtain ⟨ts, hts, hnil⟩ := ih fun c' hc' => h c' (List.mem_cons_of_mem _ hc')
      refine ⟨none :: ts, ?_, hnil⟩
      have hc : threshold F c = .ok none := by
        unfold threshold
        rw [h c List.mem_cons_self]
        rfl
      rw [List.mapM_cons, hc, hts]
      rfl
  obtain ⟨ts, hts, hnil⟩ := hrows
  rw [hts]
  exact congrArg Except.ok hnil

/-- Where nothing is searched, the other organizations do not count. -/
theorem getGraphDiff_of_not_searches {db' : Graph} (h : SameTenant o db db')
    (hc : db.getCorpus corpusId = some corpus) (ho : corpus.organizationId = some o)
    (hsearch : ¬ db.SearchesElsewhere corpusId) :
    getGraphDiff P F db' corpusId = getGraphDiff P F db corpusId := by
  have hc' := h.getCorpus hc ho
  have howner := corpusOwner_of_getCorpus hc ho
  have howner' := corpusOwner_of_getCorpus hc' ho
  have hscope : ∀ c ∈ db.listCandidates corpusId, statedScope c.content = none := by
    intro c hmem
    by_contra hne
    exact hsearch (.inr ⟨c, hmem, Option.isSome_iff_ne_none.2 hne⟩)
  have hs : thresholds F db corpusId = .ok [] := thresholds_eq_nil hscope
  have hs' := (h.thresholds (F := F) howner howner').trans hs
  have hlines (g : Graph) (text : AuthorityPrincipal → Option String) :
      (db.listPrincipals corpusId).filterMap (changedText P g corpusId text) = [] := by
    refine List.filterMap_eq_nil_iff.2 fun p hp => ?_
    have hnone : p.resolvedPrincipalId = none := by
      by_contra hne
      exact hsearch (.inl ⟨p, hp, Option.isSome_iff_ne_none.2 hne⟩)
    unfold changedText
    rw [hnone]
    rfl
  rw [getGraphDiff_eq hc hs, getGraphDiff_eq hc' hs', h.listPrincipals howner howner', hlines db,
    hlines db, hlines db', hlines db', ho, h.removedAuthorities]
  rfl

/-- The diff of a corpus is the same whatever the rows of the other organizations are, exactly when it
raises because of a limit, or no discovery is resolved and no candidate names a principal and an
action. -/
theorem graphDiff_isolated_iff (P : Platform) (F : FloatFormat) (db : Graph) (corpusId o : Uuid)
    (corpus : AuthorityCorpus) (hlower : P.lower "a" ≠ P.lower "b")
    (hc : db.getCorpus corpusId = some corpus) (ho : corpus.organizationId = some o) :
    (∀ db', SameTenant o db db' → getGraphDiff P F db' corpusId = getGraphDiff P F db corpusId) ↔
      db.LimitOverflows F corpusId ∨ ¬ db.SearchesElsewhere corpusId := by
  constructor
  · intro h
    cases hs : thresholds F db corpusId with
    | error e => exact .inl (limitOverflows_of_thresholds hs)
    | ok stated =>
      refine .inr fun hsearch => ?_
      have hne : ∃ db', SameTenant o db db' ∧
          getGraphDiff P F db' corpusId ≠ getGraphDiff P F db corpusId := by
        rcases hsearch with ⟨p, hp, hr⟩ | ⟨c, hmem, hscope⟩
        · obtain ⟨r, hr⟩ := Option.isSome_iff_exists.1 hr
          exact exists_of_resolved hlower hc ho hs hp hr
        · obtain ⟨t, ht⟩ := exists_threshold hs hmem hscope
          exact exists_of_threshold hc ho hs ht
      obtain ⟨db', hsame, hne⟩ := hne
      exact hne (h db' hsame)
  · intro h db' hsame
    rcases h with hover | hsearch
    · have hs := thresholds_of_limitOverflows hover
      have hc' := hsame.getCorpus hc ho
      have hs' := (hsame.thresholds (F := F) (corpusOwner_of_getCorpus hc ho)
        (corpusOwner_of_getCorpus hc' ho)).trans hs
      rw [getGraphDiff_overflow hc hs, getGraphDiff_overflow hc' hs']
    · exact getGraphDiff_of_not_searches hsame hc ho hsearch

/-! ### Two organizations with a principal of one name -/

/-- The corpus `7` of the organization `1` says that the CFO approves payments. -/
def paymentGraph : Graph where
  corpora := [⟨7, some 1⟩]
  authorityPrincipals := []
  candidates := [⟨7, .obj [("scope", .obj [("principal", .str "CFO"), ("action", .str "payment")])]⟩]
  principals := []
  authorities := []
  corpora_nodup := by decide
  principals_nodup := by decide

/-- The organization `2` has a CFO who approves payments. -/
def otherPaymentGraph : Graph :=
  paymentGraph.authorizing ⟨5, "CFO", none, some 2⟩ ⟨5, "payment", some 5000, .approved, 0⟩ (by decide)

theorem graphDiff_isolated_iff_payments :
    ¬ ∀ db', SameTenant 1 paymentGraph db' →
      getGraphDiff asciiPlatform exactFloats db' 7 =
        getGraphDiff asciiPlatform exactFloats paymentGraph 7 := by
  intro h
  have hcorpus : paymentGraph.getCorpus 7 = some ⟨7, some 1⟩ := rfl
  rcases (graphDiff_isolated_iff asciiPlatform exactFloats paymentGraph 7 1 ⟨7, some 1⟩
    (by decide +kernel) hcorpus rfl).1 h with hover | hsearch
  · obtain ⟨c, hc, herror⟩ := hover
    cases List.mem_singleton.1 (List.mem_filter.1 hc).1
    cases herror
  · exact hsearch (.inr ⟨_, List.mem_singleton_self _, by decide +kernel⟩)

/-- The authority of one organization is what the diff of another one compares with. -/
theorem graphDiff_of_another_organization :
    SameTenant 1 paymentGraph otherPaymentGraph ∧
      getGraphDiff asciiPlatform exactFloats otherPaymentGraph 7 ≠
        getGraphDiff asciiPlatform exactFloats paymentGraph 7 := by
  refine ⟨sameTenant_authorizing _ (by decide) rfl, ?_⟩
  decide +kernel

end AuthorityGraph

end PayReality
