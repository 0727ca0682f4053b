import PayReality.Lifecycle.LifecycleService
import PayReality.Store.History

/-!
# What the operations owe each other

The rely/guarantee contract of the lifecycle operations. `Pre` says what a session knows when it
sends a statement: a commit without a flushed row of `policies` writes one row by an allowed
transition; a commit with one makes active what was compiled, with whatever others the session
has seen; OPA is given the compilation of what the session has listed. `Inv` holds between any two
statements, and `Rely` is what a session can count on while the others act.

The flushed row is a lock: its version is the next one, so there is never a second
(`Inv.single`), and while it is there no other session makes a version active (`Rely.locked`).

`Terms` are what differs between runs: the writes that their programs make beside deploys, what
is known of a version that is deployed, and whether the run began with no versions, so that its
log holds the whole history of each.
-/

namespace PayReality

open Program Rego RuntimePolicyService

/-! ## The review trail -/

namespace Write

def submitted (key : Uuid) (version : ℕ) : Write :=
  .updateRecord key version { status := some .pendingReview }

def approvedAs (key : Uuid) (version : ℕ) (content : RuntimePolicy) : Write :=
  .updateRecord key version { status := some .approved, content := some content }

def compiledTo (key : Uuid) (version : ℕ) (bundle : String × BundleHash) : Write :=
  .updateRecord key version { status := some .compiled, bundle := some bundle }

def activatedAs (key : Uuid) (version : ℕ) (content : RuntimePolicy) : Write :=
  .updateRecord key version { status := some .active, content := some content }

end Write

open Write

/-- The commits that a version has gone through, in this order, when it has a status. -/
def Trail (log : List Write) (key : Uuid) (version : ℕ) : PolicyStatus → Prop
  | .pendingReview => [submitted key version].Sublist log
  | .approved => ∃ c, [submitted key version, approvedAs key version c].Sublist log
  | .compiled => ∃ c b,
      [submitted key version, approvedAs key version c, compiledTo key version b].Sublist log
  | .active => ∃ c b c', [submitted key version, approvedAs key version c,
      compiledTo key version b, activatedAs key version c'].Sublist log
  | _ => True

theorem Trail.mono {log log' : List Write} {key : Uuid} {version : ℕ} {status : PolicyStatus}
    (h : Trail log key version status) (hlog : log.Sublist log') :
    Trail log' key version status := by
  cases status with
  | pendingReview => exact List.Sublist.trans h hlog
  | approved => exact h.imp fun _ h => h.trans hlog
  | compiled => exact h.imp fun _ h => h.imp fun _ h => h.trans hlog
  | active => exact h.imp fun _ h => h.imp fun _ h => h.imp fun _ h => h.trans hlog
  | draft | rejected | retired | archived => trivial

/-- One more commit of the trail. -/
theorem sublist_snoc {ws log : List Write} (h : ws.Sublist log) (w : Write) :
    (ws ++ [w]).Sublist (log ++ [w]) := h.append (List.Sublist.refl _)

/-! ## Sessions -/

variable {ι : Type}

/-- The programs of the run insert no version. -/
def Fixed (plain : Write → Prop) : Prop := ∀ row, ¬ plain (.insertRecord row)

/-- `t` is what `s` has become. -/
structure Since (plain : Write → Prop) (s t : Store ι) : Prop where
  db : s.db.Grows t.db
  log : s.log <+: t.log
  fixed : Fixed plain → t.db.cores = s.db.cores

/-- `t` is what `s` has become, without another safety check by `i`. -/
structure Later (plain : Write → Prop) (i : ι) (s t : Store ι) : Prop extends
    Since plain s t where
  gates : ∀ k o, t.seen i (.otherActiveRuntimePolicies k o) =
    s.seen i (.otherActiveRuntimePolicies k o)

/-- `t` is what `s` has become while `i` did nothing but read. -/
structure Still (plain : Write → Prop) (i : ι) (s t : Store ι) : Prop extends
    Later plain i s t where
  pending : t.pending i = s.pending i
  uploaded : t.uploaded i = s.uploaded i
  aloneDb : Subsingleton ι → t.db = s.db
  aloneOpa : Subsingleton ι → t.opa = s.opa

section Relations

variable {plain : Write → Prop} {i : ι} {s t u : Store ι}

theorem Since.refl : Since plain s s := ⟨.refl _, List.prefix_rfl, fun _ => rfl⟩

theorem Since.trans (h : Since plain s t) (h' : Since plain t u) : Since plain s u where
  db := h.db.trans h'.db
  log := h.log.trans h'.log
  fixed hf := (h'.fixed hf).trans (h.fixed hf)

theorem Later.refl : Later plain i s s := ⟨.refl, fun _ _ => rfl⟩

theorem Later.trans (h : Later plain i s t) (h' : Later plain i t u) : Later plain i s u where
  toSince := h.toSince.trans h'.toSince
  gates k o := (h'.gates k o).trans (h.gates k o)

theorem Still.refl : Still plain i s s := ⟨.refl, rfl, rfl, fun _ => rfl, fun _ => rfl⟩

theorem Still.trans (h : Still plain i s t) (h' : Still plain i t u) : Still plain i s u where
  toLater := h.toLater.trans h'.toLater
  pending := h'.pending.trans h.pending
  uploaded := h'.uploaded.trans h.uploaded
  aloneDb hi := (h'.aloneDb hi).trans (h.aloneDb hi)
  aloneOpa hi := (h'.aloneOpa hi).trans (h.aloneOpa hi)

/-- A step that leaves the database alone. -/
theorem Since.of_db (hdb : t.db = s.db) (hlog : t.log = s.log) : Since plain s t :=
  ⟨hdb ▸ .refl _, hlog ▸ List.prefix_rfl, fun _ => by rw [Db.cores, Db.cores, hdb]⟩

end Relations

/-- What differs between runs. -/
structure Terms (ι : Type) where
  /-- The writes that the programs make beside deploys. -/
  plain : Write → Prop
  /-- What is known of a version that a session deploys. -/
  gate : ι → Uuid → ℕ → Option Uuid → Store ι → Prop
  /-- The run began with no versions. -/
  trail : Prop
  gate_later : ∀ {i k v o s t}, Later plain i s t → gate i k v o s → gate i k v o t

/-! ## What a session knows -/

variable (T : Terms ι) (H : Host) (i : ι)

/-- A session has read a version of a key. -/
structure Held (key : Uuid) (o : Option Uuid) (row : RuntimePolicyRecord) (s : Store ι) : Prop where
  key_eq : row.policyKey = key
  org_eq : row.organizationId = o
  core : row.core ∈ s.db.cores
  trail : T.trail → Trail s.log row.policyKey row.version row.status
  alone : Subsingleton ι → row ∈ s.db.records

/-- A session has read a version as the latest one of a key. -/
structure Read (key : Uuid) (o : Option Uuid) (row : RuntimePolicyRecord) (s : Store ι) : Prop extends
    Held T key o row s where
  latest : Fixed T.plain → ∀ c ∈ s.db.cores, c.1.1 = key → c.2.1 = o → c.1.2 ≤ row.version
  aloneLatest : Subsingleton ι → s.db.latestVersionRow key o = some row

section

variable {T} {i} {key : Uuid} {o : Option Uuid} {row : RuntimePolicyRecord} {s t : Store ι}

theorem Held.since (h : Held T key o row s) (hst : Since T.plain s t)
    (halone : Subsingleton ι → t.db = s.db) : Held T key o row t where
  key_eq := h.key_eq
  org_eq := h.org_eq
  core := hst.db.cores.subset h.core
  trail ht := (h.trail ht).mono hst.log.sublist
  alone hi := halone hi ▸ h.alone hi

theorem Read.since (h : Read T key o row s) (hst : Since T.plain s t)
    (halone : Subsingleton ι → t.db = s.db) : Read T key o row t where
  toHeld := h.toHeld.since hst halone
  latest hf := hst.fixed hf ▸ h.latest hf
  aloneLatest hi := halone hi ▸ h.aloneLatest hi

theorem Held.still (h : Held T key o row s) (hst : Still T.plain i s t) : Held T key o row t :=
  h.since hst.toSince hst.aloneDb

theorem Read.still (h : Read T key o row s) (hst : Still T.plain i s t) : Read T key o row t :=
  h.since hst.toSince hst.aloneDb

end

/-- A version has been compiled with the others that the session has seen. -/
structure Compiled (row : RuntimePolicyRecord) (o : Option Uuid) (bundle : PolicyBundle)
    (s : Store ι) : Prop where
  core : row.core ∈ s.db.cores
  org_eq : row.organizationId = o
  trail : T.trail → Trail s.log row.policyKey row.version .compiled
  gate : T.gate i row.policyKey row.version o s
  alone : Subsingleton ι → s.db.latestVersionRow row.policyKey o = some row ∧ row.status = .compiled
  others : ∃ db₀ now, s.seen i (.otherActivePolicies row.policyKey o) = some db₀ ∧
    (∃ errors, compileWith H.toPlatform row ((Db.byKey (db₀.otherActive row.policyKey o)).map
      RuntimePolicyRecord.content) now = .ok ⟨some bundle, errors⟩) ∧
    (Subsingleton ι → s.db.records = db₀.records)

/-- The module that belongs to the active versions of an organization, by key. -/
def IsModule (db : Db) (o : Option Uuid) : Option Source → Prop
  | none => db.activeRecords o = []
  | some source => ∃ bundleId now bundle errors,
      compileActive (Db.byKey (db.activeRecords o)) bundleId now = .ok ⟨some bundle, errors⟩ ∧
      source = bundle.regoSource

/-- The session has listed the active versions of an organization, and this is their module. -/
def Listed (o : Option Uuid) (source : Option Source) (s : Store ι) : Prop :=
  ∃ db₀, s.seen i (.activeRecords o) = some db₀ ∧ IsModule db₀ o source ∧
    (Subsingleton ι → s.db.records = db₀.records)

/-- The version of `policies` after one that was the last. -/
def NextVersion (version : ℕ) (s : Store ι) : Prop :=
  ∃ m, version = m + 1 ∧ m ≤ s.db.maxPolicyVersion ∧
    (m < s.db.maxPolicyVersion → m + 1 ∈ s.db.policyCores.map Prod.fst)

/-! ## What a session may commit -/

/-- A version has been compiled, with others, to a bundle. -/
def CompiledAs (core : (Uuid × ℕ) × Option Uuid × RuntimePolicy) (b : String × BundleHash) : Prop :=
  ∃ content others bundleId now bundle errors, content.authored = core.2.2 ∧
    CompilerV2.compileBundle CompilerV2.genericVocabulary (content :: others) bundleId core.1.2 now =
      .ok ⟨some bundle, errors⟩ ∧ b = (bundle.bundleId, bundle.bundleHash)

/-- The statuses that an operation takes a version to, beside a deploy. -/
def PolicyStatus.allows : PolicyStatus → PolicyStatus → Bool
  | .draft, .pendingReview | .pendingReview, .approved | .pendingReview, .rejected
  | .approved, .compiled | .active, .retired => true
  | status, .archived => status ≠ .active ∧ status ≠ .archived
  | _, _ => false

/-- An update of a version beside a deploy. -/
structure UpdateOk (key : Uuid) (version : ℕ) (c : RecordColumns) (s : Store ι) : Prop where
  target : ∃ core ∈ s.db.cores, core.1 = (key, version) ∧
    ∀ x, c.content = some x → x.authored = core.2.2
  inactive : c.status ≠ some .active
  /-- Content is written with a status only. -/
  rewrites : c.content ≠ none → c.status ≠ none
  trail : T.trail → ∀ st, c.status = some st →
    Trail (s.log ++ [.updateRecord key version c]) key version st
  compiled : c.status = some .compiled → ∃ b, c.bundle = some b ∧
    ∃ core ∈ s.db.cores, core.1 = (key, version) ∧ CompiledAs core b
  rollback : ∀ u, c.rollbackOfVersion = some u → ∃ c₁ ∈ s.db.cores, ∃ c₂ ∈ s.db.cores,
    c₁.1 = (key, version) ∧ c₂.1 = (key, u) ∧ c₁.2.2.semantics = c₂.2.2.semantics
  alone : Subsingleton ι → ∀ st, c.status = some st → ∃ r, r.ident = (key, version) ∧
    s.db.latestVersionRow key r.organizationId = some r ∧ r.status.allows st = true

/-- A new version. -/
structure InsertOk (row : RuntimePolicyRecord) (s : Store ι) : Prop where
  draft : row.status = .draft
  noRollback : row.rollbackOfVersion = none
  key : row.version = 1 ∨
    ∃ core ∈ s.db.cores, core.1.1 = row.policyKey ∧ core.2.1 = row.organizationId
  alone : Subsingleton ι → row.version = 1 ∨ ∃ r,
    s.db.latestVersionRow row.policyKey row.organizationId = some r ∧ r.status ≠ .archived ∧
      row.version = r.version + 1

def PlainOk (s : Store ι) : Write → Prop
  | .insertRecord row => InsertOk row s
  | .updateRecord key version c => UpdateOk T key version c s
  | _ => True

/-- The commit of a deploy. -/
structure Deploys (p : Pending) (row : RuntimePolicyRecord) (bundle : PolicyBundle)
    (replaced : Option RuntimePolicyRecord) (content : RuntimePolicy) (s : Store ι) : Prop where
  compiled : Compiled T H i row p.row.organizationId bundle s
  manifest : p.row.bundleManifest = some bundle.manifest
  hash : p.row.bundleHash = bundle.bundleHash
  uri : p.row.bundleUri = .studio row.policyKey row.version
  prior : ∀ v, p.prior = some v → (v, p.row.organizationId) ∈ s.db.policyCores
  uploaded : s.uploaded i = some bundle.regoSource
  served : Subsingleton ι → s.opa p.row.organizationId = some bundle.regoSource
  content_eq : content.authored = row.content.authored
  /-- Every active version of the key is replaced. -/
  replaces : ∀ r ∈ s.db.records, r.status = .active → r.policyKey = row.policyKey →
    r.ident = row.ident ∨ ∃ q, replaced = some q ∧ q.ident = r.ident
  replaced_core : ∀ q, replaced = some q → q.policyKey = row.policyKey ∧ q.core ∈ s.db.cores

/-- What a session knows when it sends a statement. -/
def Pre : Statement → Store ι → Prop
  | .commit ws, s =>
    match s.pending i with
    | none => ∃ w, ws = [w] ∧ T.plain w ∧ PlainOk T s w
    | some p => ∃ row bundle replaced content, ws = deployWrites row replaced content ∧
        Deploys T H i p row bundle replaced content s
  | .flushPolicy _ row, s => s.pending i = none ∧ row.status = .active ∧ NextVersion row.version s
  | .uploadPolicy o source, s => (s.pending i).isSome ∨ s.pending i = none ∧ Listed i o (some source) s
  | .deletePolicy o, s => s.pending i = none ∧ Listed i o none s
  | _, _ => True

/-! ## The invariant -/

/-- The log holds the history of every version. -/
structure Trailed (log : List Write) (db : Db) : Prop where
  status : ∀ r ∈ db.records, Trail log r.policyKey r.version r.status
  created : ∀ r ∈ db.records, ∃ row, .insertRecord row ∈ log ∧ row.core = r.core
  inserted : ∀ row, .insertRecord row ∈ log → row.core ∈ db.cores ∧ row.status = .draft
  compiles : ∀ k v c, .updateRecord k v c ∈ log → c.status = some .compiled → ∃ b,
    c.bundle = some b ∧ ∃ core ∈ db.cores, core.1 = (k, v) ∧ CompiledAs core b
  contents : ∀ k v c x, .updateRecord k v c ∈ log → c.content = some x →
    ∃ core ∈ db.cores, core.1 = (k, v) ∧ x.authored = core.2.2
  rollbacks : ∀ r ∈ db.records, ∀ v, r.rollbackOfVersion = some v →
    ∃ core ∈ db.cores, core.1 = (r.policyKey, v) ∧
      r.content.semantics = core.2.2.semantics

structure Inv (s : Store ι) : Prop where
  db : s.db.Sound
  next : ∀ i p, s.pending i = some p → p.row.status = .active ∧
    p.row.version = s.db.maxPolicyVersion + 1
  single : ∀ i j p q, s.pending i = some p → s.pending j = some q → i = j
  slot : ∀ i p, s.pending i = some p → p.row.organizationId.isSome → ∀ q ∈ s.db.policies,
    q.status = .active → q.organizationId = p.row.organizationId → p.prior = some q.version
  trailed : T.trail → Trailed s.log s.db

/-- What a session can count on while the others act. -/
structure Rely (s t : Store ι) : Prop extends Still T.plain i s t where
  seen : t.seen i = s.seen i
  owed : s.owed i = none → t.owed i = none
  /-- While a session has a flushed row, no other deploys. -/
  locked : (s.pending i).isSome → t.db.policies = s.db.policies ∧ ∀ r ∈ t.db.records,
    r.status = .active → ∃ q ∈ s.db.records, q.status = .active ∧ q.ident = r.ident
  alone : Subsingleton ι → t = s

end PayReality
