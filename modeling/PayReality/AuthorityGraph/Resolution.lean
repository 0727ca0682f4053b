import PayReality.AuthorityGraph.Tables
import PayReality.Lib.Records
import PayReality.Lib.Rows

/-!
# Resolving the authority graph

`ai_authority_builder_service.py`: a reviewer resolves a discovered principal to a real one, the
endpoints of a relationship are filled in from the discoveries of its names, and a relationship is
made active. Each operation reads its rows, checks them, and writes by id; nothing holds what it has
read, and `resolve_relationship` does not look at the status.

**Main result** `confirmed_identities_kept`: in a run in which no other session resolves a discovery
between the read of a resolution and its commit, and the discoveries of the names of a relationship that
is active when its endpoints are written were resolved to no other principals, no later database changes
what a reviewer has confirmed.
-/

namespace PayReality

namespace AuthorityGraph

open Program RecordProg CompilationGate

/-! ## Rows -/

/-- The tables of the corpora and the principals. -/
structure Resolutions where
  corpora : List AuthorityCorpus := []
  discoveries : List AuthorityPrincipal := []
  relationships : List AuthorityRelationship := []
  principals : List Principal := []

namespace Resolutions

variable (d : Resolutions)

def corpus (id : Uuid) : Option AuthorityCorpus := Rows.get (fun c => c.id) d.corpora id

def discovery (id : Uuid) : Option AuthorityPrincipal := Rows.get (fun a => a.id) d.discoveries id

def relationship (id : Uuid) : Option AuthorityRelationship :=
  Rows.get (fun r => r.id) d.relationships id

def principal (id : Uuid) : Option Principal := Rows.get (fun p => p.id) d.principals id

/-- The ids are keys. -/
def admitted : Bool :=
  (d.discoveries.map fun a => a.id).Nodup ∧ (d.relationships.map fun r => r.id).Nodup ∧
    (d.principals.map fun p => p.id).Nodup

/-- The principals that the discoveries of a name are resolved to. -/
def resolvedAs (P : Platform) (corpusId : Uuid) (name : String) : List Uuid :=
  (d.discoveries.filter fun a => a.corpusId = corpusId ∧
    P.lower a.name = P.lower (stripped name)).filterMap fun a => a.resolvedPrincipalId

/-- `_match_resolved_principal_id`. -/
def matchResolvedPrincipalId (P : Platform) (corpusId : Uuid) (name : String) : Option Uuid :=
  (d.discoveries.find? fun a => a.corpusId = corpusId ∧
    P.lower a.name = P.lower (stripped name) ∧ a.resolvedPrincipalId.isSome).bind
      fun a => a.resolvedPrincipalId

end Resolutions

/-! ## Commits -/

inductive ResolutionChange where
  | resolve (discoveryId principalId : Uuid)
  /-- The principal is inserted in the same transaction. -/
  | create (principal : Principal) (discoveryId : Uuid)
  /-- The row as it was read. Only the columns that the session has changed are written. -/
  | fill (read : AuthorityRelationship) (fromId toId : Option Uuid)
  | activate (relationshipId : Uuid)

def AuthorityPrincipal.resolve (principalId : Uuid) (a : AuthorityPrincipal) : AuthorityPrincipal :=
  { a with resolvedPrincipalId := some principalId }

def AuthorityRelationship.fill (fromId toId : Option Uuid) (r : AuthorityRelationship) :
    AuthorityRelationship :=
  { r with
    fromPrincipalId := fromId.or r.fromPrincipalId
    toPrincipalId := toId.or r.toPrincipalId }

def AuthorityRelationship.activate (r : AuthorityRelationship) : AuthorityRelationship :=
  { r with status := .active }

namespace Resolutions

variable (d : Resolutions)

def updateDiscovery (id : Uuid) (f : AuthorityPrincipal → AuthorityPrincipal) : Resolutions :=
  { d with discoveries := Rows.update (fun a => a.id) d.discoveries id f }

def updateRelationship (id : Uuid) (f : AuthorityRelationship → AuthorityRelationship) : Resolutions :=
  { d with relationships := Rows.update (fun r => r.id) d.relationships id f }

end Resolutions

def ResolutionChange.apply : ResolutionChange → Resolutions → Resolutions
  | .resolve discoveryId principalId, d =>
    d.updateDiscovery discoveryId (AuthorityPrincipal.resolve principalId)
  | .create principal discoveryId, d =>
    { d with principals := d.principals ++ [principal] }.updateDiscovery discoveryId
      (AuthorityPrincipal.resolve principal.id)
  | .fill read fromId toId, d =>
    d.updateRelationship read.id (AuthorityRelationship.fill fromId toId)
  | .activate relationshipId, d =>
    d.updateRelationship relationshipId AuthorityRelationship.activate

inductive ResolutionError where
  | authorityPrincipalNotFound
  | alreadyResolved
  | principalNotFound
  | crossOrganizationMatch
  /-- `ValueError`. -/
  | principalIdRequired
  | unknownAction
  | relationshipNotFound
  | relationshipNotResolvable
  | relationshipNotResolved
  | databaseError
  deriving DecidableEq, Repr

/-- The discovery is not resolved. -/
def Resolutions.isUnresolved (d : Resolutions) (discoveryId : Uuid) : Bool :=
  (d.discovery discoveryId).any fun a => a.resolvedPrincipalId.isNone

/-- Both endpoints of the relationship are filled in. -/
def Resolutions.isFilled (d : Resolutions) (relationshipId : Uuid) : Bool :=
  (d.relationship relationshipId).any fun r => r.fromPrincipalId.isSome && r.toPrincipalId.isSome

/-- What is checked for a change. -/
def ResolutionChange.checks (P : Platform) : ResolutionChange → List (Resolutions → Bool)
  | .resolve discoveryId _ | .create _ discoveryId => [fun d => d.isUnresolved discoveryId]
  | .fill read fromId toId =>
    [fun d => fromId.all fun p => p ∈ d.resolvedAs P read.corpusId read.fromPrincipal,
      fun d => toId.all fun p => p ∈ d.resolvedAs P read.corpusId read.toPrincipal]
  | .activate relationshipId => [fun d => d.isFilled relationshipId]

def resolutionSchema (P : Platform) : Schema Resolutions ResolutionChange ResolutionError where
  apply := ResolutionChange.apply
  admits := Resolutions.admitted
  checks := ResolutionChange.checks P
  refused := .databaseError
  failed := .databaseError

abbrev ResolutionProg := RecordProg Resolutions ResolutionChange Uuid ResolutionError

namespace AiAuthorityBuilderService

/-! ## Discovered principals -/

/-- `_get_authority_principal`. -/
def getAuthorityPrincipal (id : Uuid) : ResolutionProg AuthorityPrincipal := do
  match (← look).discovery id with
  | none => throw .authorityPrincipalNotFound
  | some a => return a

/-- The reviewer's decision. -/
inductive ResolveAction where
  | existing (principalId : Option Uuid)
  | create (name role : Option String)
  | unknown
  deriving DecidableEq

/-- A text that is not empty. -/
def given (text : Option String) : Option String := text.filter (· ≠ "")

/-- The principal, and what is written. -/
def principalFor (discovery : AuthorityPrincipal) (organizationId : Option Uuid) :
    ResolveAction → ResolutionProg (Principal × ResolutionChange)
  | .existing none => throw .principalIdRequired
  | .existing (some principalId) => do
    match (← look).principal principalId with
    | none => throw .principalNotFound
    | some p =>
      if p.organizationId.isSome ∧ p.organizationId ≠ organizationId then
        throw .crossOrganizationMatch
      return (p, .resolve discovery.id p.id)
  | .create name role => do
    let p : Principal :=
      { id := ← draw
        name := (given name).getD discovery.name
        role := (given role).or discovery.role
        organizationId }
    return (p, .create p discovery.id)
  | .unknown => throw .unknownAction

/-- `db.refresh(principal)`. -/
def refreshPrincipal (id : Uuid) : ResolutionProg Principal := do
  match (← look).principal id with
  | none => throw .databaseError
  | some p => return p

def resolvePrincipal (authorityPrincipalId : Uuid) (action : ResolveAction) :
    ResolutionProg Principal := do
  let discovery ← getAuthorityPrincipal authorityPrincipalId
  if discovery.resolvedPrincipalId.isSome then throw .alreadyResolved
  let organizationId := ((← look).corpus discovery.corpusId).bind fun c => c.organizationId
  let (principal, change) ← principalFor discovery organizationId action
  commit change
  refreshPrincipal principal.id

/-! ## Relationships -/

def getRelationship (id : Uuid) : ResolutionProg AuthorityRelationship := do
  match (← look).relationship id with
  | none => throw .relationshipNotFound
  | some r => return r

/-- `db.refresh(relationship)`. -/
def refreshRelationship (id : Uuid) : ResolutionProg AuthorityRelationship := do
  match (← look).relationship id with
  | none => throw .databaseError
  | some r => return r

/-- The id, where it is not the one that is there. -/
def changed (old new : Option Uuid) : Option Uuid := if new = old then none else new

def resolveRelationship (P : Platform) (relationshipId : Uuid) :
    ResolutionProg AuthorityRelationship := do
  let relationship ← getRelationship relationshipId
  let fromId := (← look).matchResolvedPrincipalId P relationship.corpusId relationship.fromPrincipal
  let toId := (← look).matchResolvedPrincipalId P relationship.corpusId relationship.toPrincipal
  if fromId.isNone ∧ toId.isNone then throw .relationshipNotResolvable
  commit (.fill relationship (changed relationship.fromPrincipalId fromId)
    (changed relationship.toPrincipalId toId))
  refreshRelationship relationshipId

def activateRelationship (relationshipId : Uuid) : ResolutionProg AuthorityRelationship := do
  let relationship ← getRelationship relationshipId
  if relationship.fromPrincipalId.isNone ∨ relationship.toPrincipalId.isNone then
    throw .relationshipNotResolved
  commit (.activate relationshipId)
  refreshRelationship relationshipId

end AiAuthorityBuilderService

open AiAuthorityBuilderService

/-! ## Requests -/

inductive ResolutionRequest where
  | resolvePrincipal (authorityPrincipalId : Uuid) (action : ResolveAction)
  | resolveRelationship (relationshipId : Uuid)
  | activateRelationship (relationshipId : Uuid)

/-- The request in a session of its own. -/
def ResolutionRequest.run (P : Platform) : ResolutionRequest → ResolutionProg Unit
  | .resolvePrincipal id action => recordSession (AiAuthorityBuilderService.resolvePrincipal id action)
  | .resolveRelationship id => recordSession (AiAuthorityBuilderService.resolveRelationship P id)
  | .activateRelationship id => recordSession (AiAuthorityBuilderService.activateRelationship id)

def resolutionRequests (P : Platform) : Set (ResolutionProg Unit) :=
  {p | ∃ r : ResolutionRequest, p = r.run P}

/-! ## What is committed has been checked -/

section

variable {P : Platform} {seen : List Resolutions}

theorem vetted_getAuthorityPrincipal {β : Type} {R : β → List Resolutions → Prop} {id : Uuid}
    {f : AuthorityPrincipal → ResolutionProg β}
    (h : ∀ a d, d.discovery id = some a → Vetted (resolutionSchema P) (f a) R (d :: seen)) :
    Vetted (resolutionSchema P) (getAuthorityPrincipal id >>= f) R seen := by
  refine checked_bind (vetted_look fun d _ => ?_)
  cases hd : d.discovery id with
  | none => trivial
  | some a => exact h a d hd

theorem vetted_getRelationship {β : Type} {R : β → List Resolutions → Prop} {id : Uuid}
    {f : AuthorityRelationship → ResolutionProg β}
    (h : ∀ r d, d.relationship id = some r → Vetted (resolutionSchema P) (f r) R (d :: seen)) :
    Vetted (resolutionSchema P) (getRelationship id >>= f) R seen := by
  refine checked_bind (vetted_look fun d _ => ?_)
  cases hd : d.relationship id with
  | none => trivial
  | some r => exact h r d hd

theorem vetted_refreshPrincipal (id : Uuid) :
    Vetted (resolutionSchema P) (refreshPrincipal id) (fun _ _ => True) seen := by
  refine vetted_look fun d _ => ?_
  cases d.principal id <;> trivial

theorem vetted_refreshRelationship (id : Uuid) :
    Vetted (resolutionSchema P) (refreshRelationship id) (fun _ _ => True) seen := by
  refine vetted_look fun d _ => ?_
  cases d.relationship id <;> trivial

/-- Whatever principal is chosen, the discovery is what was checked. -/
theorem vetted_principalFor {discovery : AuthorityPrincipal} {organizationId : Option Uuid}
    {action : ResolveAction} {β : Type} {R : β → List Resolutions → Prop}
    {f : Principal × ResolutionChange → ResolutionProg β}
    (h : ∀ p change seen', seen ⊆ seen' →
      change.checks P = [fun d => d.isUnresolved discovery.id] →
        Vetted (resolutionSchema P) (f (p, change)) R seen') :
    Vetted (resolutionSchema P) (principalFor discovery organizationId action >>= f) R seen := by
  cases action with
  | existing principalId =>
    cases principalId with
    | none => trivial
    | some principalId =>
      refine checked_bind (vetted_look fun d _ => ?_)
      cases d.principal principalId with
      | none => trivial
      | some p =>
        dsimp only
        split
        · trivial
        · exact h p _ _ (List.subset_cons_self _ _) rfl
  | create name role =>
    refine checked_bind (vetted_draw fun id => ?_)
    exact h _ _ _ (List.Subset.refl _) rfl
  | unknown => trivial

theorem vetted_resolvePrincipal (authorityPrincipalId : Uuid) (action : ResolveAction) :
    Vetted (resolutionSchema P) (resolvePrincipal authorityPrincipalId action) (fun _ _ => True) [] := by
  refine vetted_getAuthorityPrincipal fun a d hd => ?_
  split
  · trivial
  · next hresolved =>
    refine vetted_look fun d' _ => vetted_principalFor fun p change seen' hseen hchecks => ?_
    refine vetted_commit ?_ (vetted_refreshPrincipal _)
    refine supported_one hchecks (hseen (List.mem_cons_of_mem _ List.mem_cons_self)) ?_
    have hid : a.id = authorityPrincipalId := Rows.key_of_get hd
    unfold Resolutions.isUnresolved
    rw [hid, hd]
    simpa using hresolved

/-- The principal that a name is matched with, where it is written. -/
theorem changed_resolvedAs {d : Resolutions} {corpusId : Uuid} {name : String} {old : Option Uuid} :
    ((changed old (d.matchResolvedPrincipalId P corpusId name)).all fun p =>
      p ∈ d.resolvedAs P corpusId name) = true := by
  unfold changed
  split
  · rfl
  · refine (Option.all_eq_true ..).2 fun p hp => decide_eq_true ?_
    obtain ⟨a, ha, hresolved⟩ := Option.bind_eq_some_iff.1 hp
    have hfound := List.find?_some ha
    obtain ⟨hcorpus, hname, -⟩ := of_decide_eq_true hfound
    refine List.mem_filterMap.2 ⟨a, List.mem_filter.2 ⟨List.mem_of_find?_eq_some ha, ?_⟩, hresolved⟩
    exact decide_eq_true ⟨hcorpus, hname⟩

theorem vetted_resolveRelationship (relationshipId : Uuid) :
    Vetted (resolutionSchema P) (resolveRelationship P relationshipId) (fun _ _ => True) [] := by
  refine vetted_getRelationship fun r d _ => vetted_look fun d' _ => vetted_look fun d'' _ => ?_
  dsimp only
  split
  · trivial
  · refine vetted_commit (supported_of rfl ?_) (vetted_refreshRelationship _)
    exact ⟨⟨d', by simp, changed_resolvedAs⟩, d'', by simp, changed_resolvedAs⟩

theorem vetted_activateRelationship (relationshipId : Uuid) :
    Vetted (resolutionSchema P) (activateRelationship relationshipId) (fun _ _ => True) [] := by
  refine vetted_getRelationship fun r d hd => ?_
  split
  · trivial
  · next hfilled =>
    refine vetted_commit ?_ (vetted_refreshRelationship _)
    refine supported_one rfl List.mem_cons_self ?_
    unfold Resolutions.isFilled
    rw [hd]
    simpa [Option.isSome_iff_ne_none] using hfilled

theorem resolution_checks (P : Platform) :
    ∀ p ∈ resolutionRequests P, Checks (resolutionSchema P) p := by
  rintro _ ⟨r, rfl⟩
  cases r with
  | resolvePrincipal id action => exact checks_session (vetted_resolvePrincipal id action)
  | resolveRelationship id => exact checks_session (vetted_resolveRelationship id)
  | activateRelationship id => exact checks_session (vetted_activateRelationship id)

end

/-! ## What is confirmed -/

/-- A resolution stays. -/
def AuthorityPrincipal.Keeps (a a' : AuthorityPrincipal) : Prop :=
  ∀ p, a.resolvedPrincipalId = some p → a'.resolvedPrincipalId = some p

/-- An active relationship stays active, between the same principals. -/
def AuthorityRelationship.Keeps (r r' : AuthorityRelationship) : Prop :=
  r.status = .active → r'.status = .active ∧ r'.fromPrincipalId = r.fromPrincipalId ∧
    r'.toPrincipalId = r.toPrincipalId

/-- `d'` has what a reviewer has confirmed in `d`. -/
structure Resolutions.Keeps (d d' : Resolutions) : Prop where
  discoveries : ∀ id a, d.discovery id = some a → ∃ a', d'.discovery id = some a' ∧ a.Keeps a'
  relationships : ∀ id r, d.relationship id = some r →
    ∃ r', d'.relationship id = some r' ∧ r.Keeps r'

namespace Resolutions

variable {d d' d'' : Resolutions}

theorem Keeps.refl (d : Resolutions) : d.Keeps d :=
  ⟨fun _ a ha => ⟨a, ha, fun _ h => h⟩, fun _ r hr => ⟨r, hr, fun h => ⟨h, rfl, rfl⟩⟩⟩

theorem Keeps.trans (h : d.Keeps d') (h' : d'.Keeps d'') : d.Keeps d'' := by
  refine ⟨fun id a ha => ?_, fun id r hr => ?_⟩
  · obtain ⟨a', ha', hkeeps⟩ := h.discoveries id a ha
    obtain ⟨a'', ha'', hkeeps'⟩ := h'.discoveries id a' ha'
    exact ⟨a'', ha'', fun p hp => hkeeps' p (hkeeps p hp)⟩
  · obtain ⟨r', hr', hkeeps⟩ := h.relationships id r hr
    obtain ⟨r'', hr'', hkeeps'⟩ := h'.relationships id r' hr'
    refine ⟨r'', hr'', fun hactive => ?_⟩
    obtain ⟨hactive', hfrom, hto⟩ := hkeeps hactive
    obtain ⟨hactive'', hfrom', hto'⟩ := hkeeps' hactive'
    exact ⟨hactive'', hfrom'.trans hfrom, hto'.trans hto⟩

theorem keeps_updateDiscovery {id : Uuid} {f : AuthorityPrincipal → AuthorityPrincipal}
    (hf : ∀ a, (f a).id = a.id) (h : ∀ a, d.discovery id = some a → a.Keeps (f a)) :
    d.Keeps (d.updateDiscovery id f) :=
  ⟨fun _ _ ha => Rows.exists_get_update hf (fun _ _ h => h) h ha, (Keeps.refl d).relationships⟩

theorem keeps_updateRelationship {id : Uuid} {f : AuthorityRelationship → AuthorityRelationship}
    (hf : ∀ r, (f r).id = r.id) (h : ∀ r, d.relationship id = some r → r.Keeps (f r)) :
    d.Keeps (d.updateRelationship id f) :=
  ⟨(Keeps.refl d).discoveries, fun _ _ hr => Rows.exists_get_update hf (fun _ h => ⟨h, rfl, rfl⟩) h hr⟩

end Resolutions

/-- A discovery that was read before it was resolved is not resolved yet; and where a relationship is
active when its endpoints are written, the discoveries of its names that were read are resolved to no
other principals than it has. -/
def ResolutionChange.confirms (P : Platform) :
    ResolutionChange → List Resolutions → Resolutions → Bool
  | .resolve discoveryId _, seen, d | .create _ discoveryId, seen, d =>
    seen.all fun d' => d'.isUnresolved discoveryId = true → d.isUnresolved discoveryId = true
  | .fill read _ _, seen, d =>
    (d.relationship read.id).all fun r => r.status = .active → ∀ d' ∈ seen,
      (∀ p ∈ d'.resolvedAs P read.corpusId read.fromPrincipal, r.fromPrincipalId = some p) ∧
        ∀ p ∈ d'.resolvedAs P read.corpusId read.toPrincipal, r.toPrincipalId = some p
  | .activate _, _, _ => true

/-- What is written over an endpoint that has the principal is the principal. -/
theorem endpoint_or {new old : Option Uuid} (h : ∀ p, new = some p → old = some p) :
    new.or old = old := by
  cases new with
  | none => rfl
  | some p => exact (h p rfl).symm

theorem ResolutionChange.confirms_step {P : Platform} {w : ResolutionChange} {seen : List Resolutions}
    {d : Resolutions} (hchecks : ∀ c ∈ w.checks P, ∃ d' ∈ seen, c d' = true)
    (hok : w.confirms P seen d = true) : d.Keeps (w.apply d) := by
  -- a discovery that was read unresolved is unresolved
  have hresolve {id : Uuid} (p : Uuid) (hread : ∃ d' ∈ seen, d'.isUnresolved id = true)
      (hsince : (seen.all fun d' =>
        decide (d'.isUnresolved id = true → d.isUnresolved id = true)) = true) (a)
      (ha : d.discovery id = some a) : a.Keeps (a.resolve p) := by
    have hunresolved := holds_since hread hsince
    intro p' hp'
    unfold Resolutions.isUnresolved at hunresolved
    rw [ha] at hunresolved
    simp [hp'] at hunresolved
  cases w with
  | resolve discoveryId principalId =>
    exact Resolutions.keeps_updateDiscovery (fun _ => rfl)
      (hresolve principalId (hchecks _ (List.mem_singleton_self _)) hok)
  | create principal discoveryId =>
    have hinsert : d.Keeps { d with principals := d.principals ++ [principal] } :=
      ⟨(Resolutions.Keeps.refl d).discoveries, (Resolutions.Keeps.refl d).relationships⟩
    exact hinsert.trans (Resolutions.keeps_updateDiscovery (fun _ => rfl)
      (hresolve principal.id (hchecks _ (List.mem_singleton_self _)) hok))
  | fill read fromId toId =>
    refine Resolutions.keeps_updateRelationship (fun _ => rfl) fun r hr hactive => ?_
    simp only [checks, List.forall_mem_cons] at hchecks
    obtain ⟨⟨d₁, hd₁, hfrom⟩, ⟨d₂, hd₂, hto⟩, -⟩ := hchecks
    have hok' : (d.relationship read.id).all (fun r => decide (r.status = .active → ∀ d' ∈ seen,
        (∀ p ∈ d'.resolvedAs P read.corpusId read.fromPrincipal, r.fromPrincipalId = some p) ∧
          ∀ p ∈ d'.resolvedAs P read.corpusId read.toPrincipal, r.toPrincipalId = some p)) = true :=
      hok
    rw [hr] at hok'
    have hagree := of_decide_eq_true hok' hactive
    refine ⟨hactive, endpoint_or fun p hp => ?_, endpoint_or fun p hp => ?_⟩
    · exact (hagree d₁ hd₁).1 p (of_decide_eq_true ((Option.all_eq_true ..).1 hfrom p hp))
    · exact (hagree d₂ hd₂).2 p (of_decide_eq_true ((Option.all_eq_true ..).1 hto p hp))
  | activate relationshipId =>
    exact Resolutions.keeps_updateRelationship (fun _ => rfl) fun r _ _ => ⟨rfl, rfl, rfl⟩

/-! ## Runs -/

abbrev ResolutionWorld (ι : Type) : Type :=
  World (RecordStatement ResolutionChange) (RecordStatement.Answer Resolutions Uuid) ResolutionError
    (Records Resolutions ι) ι

/-- A run of the three operations from any tables, with the commits that `ok` allows by what the
operation has read and by what it meets. -/
abbrev ResolutionRun (P : Platform) {ι : Type} [DecidableEq ι]
    (ok : ResolutionChange → List Resolutions → Resolutions → Bool) (w : ResolutionWorld ι) : Prop :=
  Reach (((resolutionSchema P).machine Uuid ι).restrict fun i q s _ =>
      (resolutionSchema P).allowsSeen ok i q s = true) (resolutionRequests P)
    (fun s => ∃ d ∈ {d : Resolutions | d.admitted = true}, s = Records.init d) w

/-- **Confirmed identities are kept.** -/
theorem confirmed_identities_kept {P : Platform} {ι : Type} [DecidableEq ι] {w : ResolutionWorld ι}
    (h : ResolutionRun P (ResolutionChange.confirms P) w) :
    ∀ d ∈ w.store.past, d.Keeps w.store.db := by
  refine (Reach.records_seen (resolution_checks P) (I := fun d => d.admitted = true)
    (R := Resolutions.Keeps) (fun _ hd => hd) Resolutions.Keeps.refl
    (fun _ _ _ => Resolutions.Keeps.trans) (fun _ hd => hd) ?_ h).2
  intro c seen d _ _ hchecks hok hadmits
  exact ⟨hadmits, ResolutionChange.confirms_step hchecks hok⟩

/-! ### Two reviewers -/

/-- Two discoveries of a CFO, a treasurer who is resolved, and a delegation between them. -/
def discoveredCorpus : Resolutions where
  corpora := [⟨7, some 1⟩]
  discoveries :=
    [⟨1, 7, "CFO", none, none, none, 0⟩, ⟨2, 7, "cfo", none, none, none, 0⟩,
      ⟨3, 7, "Treasurer", none, none, some 23, 0⟩]
  relationships := [⟨5, 7, "CFO", "Treasurer", none, none, .proposed⟩]
  principals := [⟨21, "Chief", none, some 1⟩, ⟨22, "Deputy", none, some 1⟩, ⟨23, "Treasurer", none, some 1⟩]

/-- What two sessions do in turn: the request that a session starts, if any, and how many statements
it sends. -/
def resolutionTurns (ts : List (Bool × Option ResolutionRequest × ℕ)) :
    List (Turn (RecordStatement ResolutionChange) (RecordStatement.Answer Resolutions Uuid)
      ResolutionError Bool) :=
  ts.map fun t => ⟨t.1, t.2.1.map fun r => r.run asciiPlatform, t.2.2⟩

/-- The turns are played as far as `ok` allows. -/
def playResolution (ok : ResolutionChange → List Resolutions → Resolutions → Bool)
    (ts : List (Bool × Option ResolutionRequest × ℕ)) : ResolutionWorld Bool :=
  (((resolutionSchema asciiPlatform).schedule 31).restrict fun i q s _ =>
      (resolutionSchema asciiPlatform).allowsSeen ok i q s).play
    (resolutionTurns ts) ⟨Records.init discoveredCorpus, fun _ => none⟩

theorem playResolution_run (ok : ResolutionChange → List Resolutions → Resolutions → Bool)
    (ts : List (Bool × Option ResolutionRequest × ℕ)) :
    ResolutionRun asciiPlatform ok (playResolution ok ts) := by
  refine Schedule.play_reach (.init ⟨discoveredCorpus, by decide, rfl⟩) fun t ht p hp => ?_
  obtain ⟨e, -, rfl⟩ := List.mem_map.1 ht
  obtain ⟨r, -, rfl⟩ := Option.map_eq_some_iff.1 hp
  exact ⟨r, rfl⟩

/-- The second discovery of the CFO is resolved, and the delegation is made active. -/
def activation : List (Bool × Option ResolutionRequest × ℕ) :=
  [(true, some (.resolvePrincipal 2 (.existing (some 22))), 10),
    (true, some (.resolveRelationship 5), 10), (true, some (.activateRelationship 5), 10)]

theorem confirmed_identities_kept_activation :
    (playResolution (ResolutionChange.confirms asciiPlatform) activation).store.db.relationship 5 =
        some ⟨5, 7, "CFO", "Treasurer", some 22, some 23, .active⟩ ∧
      ∀ d ∈ (playResolution (ResolutionChange.confirms asciiPlatform) activation).store.past,
        d.Keeps (playResolution (ResolutionChange.confirms asciiPlatform) activation).store.db :=
  ⟨by decide +kernel, confirmed_identities_kept (playResolution_run _ activation)⟩

/-- Two sessions read the first discovery before either of them writes. -/
def resolvedTwice : List (Bool × Option ResolutionRequest × ℕ) :=
  [(true, some (.resolvePrincipal 1 (.existing (some 21))), 3),
    (false, some (.resolvePrincipal 1 (.existing (some 22))), 10), (true, none, 10)]

/-- The first discovery is resolved when the delegation is active, which is resolved again. -/
def resolvedAgain : List (Bool × Option ResolutionRequest × ℕ) :=
  activation ++ [(true, some (.resolvePrincipal 1 (.existing (some 21))), 10),
    (true, some (.resolveRelationship 5), 10)]

/-- A resolution is overwritten, and an active delegation is between other principals. -/
theorem confirmed_identities_changed :
    (∃ w : ResolutionWorld Bool, ResolutionRun asciiPlatform (fun _ _ _ => true) w ∧
      ∃ d ∈ w.store.past, (d.discovery 1).bind (fun a => a.resolvedPrincipalId) = some 22 ∧
        (w.store.db.discovery 1).bind (fun a => a.resolvedPrincipalId) = some 21) ∧
    ∃ w : ResolutionWorld Bool, ResolutionRun asciiPlatform (fun _ _ _ => true) w ∧
      ∃ d ∈ w.store.past,
        d.relationship 5 = some ⟨5, 7, "CFO", "Treasurer", some 22, some 23, .active⟩ ∧
        w.store.db.relationship 5 = some ⟨5, 7, "CFO", "Treasurer", some 21, some 23, .active⟩ := by
  refine ⟨⟨_, playResolution_run _ resolvedTwice, ?_⟩, ⟨_, playResolution_run _ resolvedAgain, ?_⟩⟩
  · have h : (playResolution (fun _ _ _ => true) resolvedTwice).store.past.any (fun d =>
        (d.discovery 1).bind (fun a => a.resolvedPrincipalId) = some 22 ∧
        ((playResolution (fun _ _ _ => true) resolvedTwice).store.db.discovery 1).bind
          (fun a => a.resolvedPrincipalId) = some 21) = true := by
      decide +kernel
    obtain ⟨d, hd, h⟩ := List.any_eq_true.1 h
    exact ⟨d, hd, of_decide_eq_true h⟩
  · have h : (playResolution (fun _ _ _ => true) resolvedAgain).store.past.any (fun d =>
        d.relationship 5 = some ⟨5, 7, "CFO", "Treasurer", some 22, some 23, .active⟩ ∧
        (playResolution (fun _ _ _ => true) resolvedAgain).store.db.relationship 5 =
          some ⟨5, 7, "CFO", "Treasurer", some 21, some 23, .active⟩) = true := by
      decide +kernel
    obtain ⟨d, hd, h⟩ := List.any_eq_true.1 h
    exact ⟨d, hd, of_decide_eq_true h⟩

end AuthorityGraph

end PayReality
