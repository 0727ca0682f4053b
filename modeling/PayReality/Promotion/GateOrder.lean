import PayReality.AuthorityGraph.Tables

/-!
# The order of the rows of a snapshot

The gate takes the first principal of the snapshot that has the name of the candidate. The rows that one
extraction wrote have one creation time, so the order in which a snapshot lists them is not determined.

**Main result** `checkGraphReadiness_order`: the order of the rows does not matter exactly when the
principals of the name agree on whether they are resolved, or the gate refuses before it looks at them.
-/

namespace PayReality

namespace CompilationGate

variable (P : Platform)

/-- Two snapshots that differ in the order of their principals and relationships alone. -/
structure Reordered (s s' : Json) : Prop where
  principals : (items s "principals").Perm (items s' "principals")
  relationships : (items s "relationships").Perm (items s' "relationships")
  others : ∀ k, k ≠ "principals" → k ≠ "relationships" → s'.get? k = s.get? k

/-- The principals of a name are all resolved, or none is. -/
def AgreeOnResolution (snapshot : Json) (name : String) : Prop :=
  ∀ p ∈ items snapshot "principals", ∀ q ∈ items snapshot "principals",
    isNamed P (P.lower name) (p.get? "name") = true →
    isNamed P (P.lower name) (q.get? "name") = true → isResolved p = isResolved q

/-- The order does not matter for the candidate: the gate refuses before it looks at the principals, or
those of the candidate's name agree. -/
def OrderFree (content snapshot : Json) : Prop :=
  items snapshot "conflicts" ≠ [] ∨
    ∀ name, candidatePrincipalName content = some name → AgreeOnResolution P snapshot name

/-! ## Reordering -/

theorem Reordered.conflicts {s s' : Json} (h : Reordered s s') :
    items s' "conflicts" = items s "conflicts" := by
  simp [items, h.others "conflicts" (by decide) (by decide)]

theorem hasActiveRelationship_perm {s s' : Json} (h : Reordered s s') (fromName toName : String) :
    hasActiveRelationship P s' fromName toName = hasActiveRelationship P s fromName toName := by
  rw [hasActiveRelationship, hasActiveRelationship, h.relationships.symm.any_eq]

/-- Whether a principal of the name is found that is resolved. -/
def foundResolved (snapshot : Json) (name : String) : Bool :=
  (findPrincipalEntry P snapshot name).any isResolved

theorem named_of_found {snapshot p : Json} {name : String}
    (h : findPrincipalEntry P snapshot name = some p) :
    isNamed P (P.lower name) (p.get? "name") = true :=
  List.find?_some (p := fun q : Json => isNamed P (P.lower name) (q.get? "name")) h

theorem foundResolved_iff {snapshot : Json} {name : String}
    (hagree : AgreeOnResolution P snapshot name) :
    foundResolved P snapshot name = true ↔ ∃ p ∈ items snapshot "principals",
      isNamed P (P.lower name) (p.get? "name") = true ∧ isResolved p = true := by
  constructor
  · intro h
    cases hfound : findPrincipalEntry P snapshot name with
    | none => simp [foundResolved, hfound] at h
    | some p =>
      refine ⟨p, List.mem_of_find?_eq_some hfound, named_of_found P hfound, ?_⟩
      simpa [foundResolved, hfound] using h
  · intro h
    obtain ⟨p, hp, hname, hresolved⟩ := h
    cases hfound : findPrincipalEntry P snapshot name with
    | none =>
      have := List.find?_eq_none.1 hfound p hp
      contradiction
    | some q =>
      have hq := hagree q (List.mem_of_find?_eq_some hfound) p hp (named_of_found P hfound) hname
      simp [foundResolved, hfound, hq, hresolved]

theorem AgreeOnResolution.perm {s s' : Json} (h : Reordered s s') {name : String}
    (hagree : AgreeOnResolution P s name) : AgreeOnResolution P s' name := by
  intro p hp q hq
  exact hagree p (h.principals.mem_iff.2 hp) q (h.principals.mem_iff.2 hq)

theorem foundResolved_perm {s s' : Json} (h : Reordered s s') {name : String}
    (hagree : AgreeOnResolution P s name) :
    foundResolved P s' name = foundResolved P s name := by
  rw [Bool.eq_iff_iff, foundResolved_iff P (hagree.perm P h), foundResolved_iff P hagree]
  simp only [h.principals.mem_iff]

/-- A snapshot with other principals. -/
def withPrincipals (kvs : List (String × Json)) (ps : List Json) : Json :=
  .obj (("principals", .arr ps) :: kvs.filter fun e => e.1 ≠ "principals")

theorem get?_withPrincipals (kvs : List (String × Json)) (ps : List Json) {k : String}
    (hk : k ≠ "principals") : (withPrincipals kvs ps).get? k = (Json.obj kvs).get? k := by
  have hne : ¬ "principals" = k := fun h => hk h.symm
  simp only [withPrincipals, Json.get?, List.find?_cons, hne, decide_false, List.find?_filter]
  congr 2
  funext e
  by_cases he : e.1 = k
  · simp [he, hk]
  · simp [he]

theorem reordered_withPrincipals {kvs : List (String × Json)} {ps : List Json}
    (h : (items (.obj kvs) "principals").Perm ps) :
    Reordered (.obj kvs) (withPrincipals kvs ps) where
  principals := by simpa [items, withPrincipals, Json.get?] using h
  relationships := by simp [items, get?_withPrincipals]
  others k hk _ := get?_withPrincipals kvs ps hk

/-! ## The verdict -/

theorem checkGraphReadiness_of_conflicts {content snapshot : Json}
    (h : items snapshot "conflicts" ≠ []) :
    checkGraphReadiness P content (some snapshot) =
      .error (unresolvedConflicts (items snapshot "conflicts").length) := by
  cases hc : items snapshot "conflicts" with
  | nil => exact absurd hc h
  | cons c cs => simp [checkGraphReadiness, hc]; rfl

theorem checkGraphReadiness_of_nameless {content snapshot : Json}
    (hc : items snapshot "conflicts" = []) (hname : candidatePrincipalName content = none) :
    checkGraphReadiness P content (some snapshot) = .error noPrincipal := by
  simp [checkGraphReadiness, hc, hname]
  rfl

/-- The verdict on a principal, and on the relationship that the candidate states. -/
theorem checkGraphReadiness_of_name {content snapshot : Json} {name : String}
    (hc : items snapshot "conflicts" = []) (hname : candidatePrincipalName content = some name) :
    checkGraphReadiness P content (some snapshot) =
      if foundResolved P snapshot name then
        (candidateDelegatedBy content).elim (.ok name) fun delegatedBy =>
          if hasActiveRelationship P snapshot delegatedBy name then .ok name
          else .error (unresolvedRelationship delegatedBy name)
      else .error (unresolvedPrincipal name) := by
  cases hfound : foundResolved P snapshot name with
  | false =>
    rw [foundResolved] at hfound
    simp [checkGraphReadiness, hc, hname, hfound]
    rfl
  | true =>
    rw [foundResolved] at hfound
    simp only [checkGraphReadiness, hc, hname, hfound]
    cases candidateDelegatedBy content with
    | none => rfl
    | some delegatedBy => rfl

theorem resolved_of_verdict {content s s' : Json} {name : String}
    (hc : items s "conflicts" = []) (hc' : items s' "conflicts" = [])
    (hname : candidatePrincipalName content = some name)
    (h : checkGraphReadiness P content (some s) = checkGraphReadiness P content (some s')) :
    foundResolved P s name = foundResolved P s' name := by
  have hcode : ∀ delegatedBy, unresolvedRelationship delegatedBy name ≠ unresolvedPrincipal name := by
    intro delegatedBy heq
    have := congrArg GraphGateError.code heq
    simp [unresolvedRelationship, unresolvedPrincipal] at this
  rw [checkGraphReadiness_of_name P hc hname, checkGraphReadiness_of_name P hc' hname] at h
  cases hs : foundResolved P s name <;> cases hs' : foundResolved P s' name <;>
    cases hd : candidateDelegatedBy content <;> simp only [hs, hs', hd] at h ⊢ <;> grind

theorem checkGraphReadiness_reordered {content s s' : Json} (hr : Reordered s s')
    (hfree : OrderFree P content s) :
    checkGraphReadiness P content (some s') = checkGraphReadiness P content (some s) := by
  by_cases hc : items s "conflicts" = []
  · have hc' : items s' "conflicts" = [] := by rw [hr.conflicts, hc]
    cases hname : candidatePrincipalName content with
    | none =>
      rw [checkGraphReadiness_of_nameless P hc hname, checkGraphReadiness_of_nameless P hc' hname]
    | some name =>
      obtain hconflicts | hagree := hfree
      · contradiction
      · rw [checkGraphReadiness_of_name P hc hname, checkGraphReadiness_of_name P hc' hname,
          foundResolved_perm P hr (hagree name hname)]
        simp only [hasActiveRelationship_perm P hr]
  · rw [checkGraphReadiness_of_conflicts P hc,
      checkGraphReadiness_of_conflicts P (hr.conflicts ▸ hc), hr.conflicts]

/-- With a principal of the name moved to the front, its resolution decides. -/
theorem foundResolved_front {kvs : List (String × Json)} {p : Json} {ps : List Json} {name : String}
    (hname : isNamed P (P.lower name) (p.get? "name") = true) :
    foundResolved P (withPrincipals kvs (p :: ps)) name = isResolved p := by
  have hitems : items (withPrincipals kvs (p :: ps)) "principals" = p :: ps := by
    simp [items, withPrincipals, Json.get?]
  simp [foundResolved, findPrincipalEntry, hitems, hname]

/-- **The order of the rows does not matter** for a candidate and a snapshot exactly when the snapshot
has conflicts, or the principals of the candidate's name are all resolved or all not. -/
theorem checkGraphReadiness_order (content snapshot : Json) :
    (∀ s', Reordered snapshot s' →
        checkGraphReadiness P content (some s') = checkGraphReadiness P content (some snapshot)) ↔
      OrderFree P content snapshot := by
  constructor
  · intro hsame
    by_cases hc : items snapshot "conflicts" = []
    · refine .inr fun name hname p hp q hq hpn hqn => ?_
      cases snapshot with
      | obj kvs =>
        have hfront : ∀ r ∈ items (.obj kvs) "principals",
            isNamed P (P.lower name) (r.get? "name") = true →
            isResolved r = foundResolved P (.obj kvs) name := by
          intro r hr hrn
          obtain ⟨before, after, hsplit⟩ := List.append_of_mem hr
          have hreordered : Reordered (.obj kvs) (withPrincipals kvs (r :: (before ++ after))) :=
            reordered_withPrincipals (hsplit ▸ List.perm_middle)
          have := resolved_of_verdict P (hreordered.conflicts ▸ hc) hc hname (hsame _ hreordered)
          rw [← this, foundResolved_front P hrn]
        rw [hfront p hp hpn, hfront q hq hqn]
      | null | bool b | int i | float x | str t | arr xs => simp [items, Json.get?] at hp
    · exact .inl hc
  · intro hfree s' hr
    exact checkGraphReadiness_reordered P hr hfree

/-! One extraction found a principal twice, and one of the two is resolved. -/

def cfoRow (resolved : Json) : Json :=
  .obj [("name", .str "CFO"), ("resolved_principal_id", resolved)]

def cfoSnapshot (rows : List Json) : Json := .obj [("principals", .arr rows)]

def cfoContent : Json := .obj [("scope", .obj [("principal", .str "CFO")])]

theorem checkGraphReadiness_reorders :
    ¬ ∀ (P : Platform) (content s s' : Json), Reordered s s' →
      checkGraphReadiness P content (some s') = checkGraphReadiness P content (some s) := by
  intro h
  have hreordered : Reordered (cfoSnapshot [cfoRow (.str "p1"), cfoRow .null])
      (cfoSnapshot [cfoRow .null, cfoRow (.str "p1")]) := by
    refine ⟨List.Perm.swap _ _ _, .refl _, ?_⟩
    intro k hk _
    have hne : ¬ "principals" = k := fun heq => hk heq.symm
    simp [cfoSnapshot, Json.get?, hne]
  have := h AuthorityGraph.asciiPlatform cfoContent _ _ hreordered
  revert this
  decide +kernel

end CompilationGate

end PayReality
