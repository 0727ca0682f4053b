import PayReality.Lib.SimpleCycle
import PayReality.Lifecycle.SafetyChecks

/-!
# Circular delegations of an extraction

`detect_circular_delegations` of `ai_authority_builder_service.py`, on the relationships that an
extraction has found. The names that a name delegates to are a Python set, so the search follows them
in an order that is not the code's to choose.

**Main result** `detectCircularDelegations_exact`: whatever the order, the search returns, and its
conflicts are the sets of names on the simple cycles of the delegations, each once.
-/

namespace PayReality

open SafetyChecks

namespace AuthorityGraph

/-- `CandidateRelationship`. -/
structure CandidateRelationship where
  kind : String
  fromPrincipal : String
  toPrincipal : String
  deriving DecidableEq

/-- `CandidateConflict`. -/
structure CandidateConflict where
  description : String
  confidence : ℚ
  reasoning : String
  conflictType : String
  deriving DecidableEq

variable (P : Platform)

/-- `edges`: who delegates to whom, by normalised names. -/
def delegationEdges (relationships : List CandidateRelationship) : List (String × String) :=
  (relationships.filter fun rel => rel.kind = "delegation").map fun rel =>
    (normalize P rel.fromPrincipal, normalize P rel.toPrincipal)

/-- An order in which the set of names under each name is iterated. -/
structure SetOrder (edges : List (String × String)) where
  neighbours : String → List String
  perm : ∀ name, (neighbours name).Perm (successors edges name)

def SetOrder.inserted (edges : List (String × String)) : SetOrder edges :=
  ⟨successors edges, fun _ => .refl _⟩

variable {edges : List (String × String)} (order : SetOrder edges) (depth : ℕ)

/-- The cycles that are found, the first of each set of names. -/
def foundCycles : Option (List (List String)) :=
  ((delegators edges).mapM fun start =>
    Cycle.search order.neighbours depth start [start] []).map fun paths =>
      distinctCycles paths.flatten

def circularConflict (cycle : List String) : CandidateConflict where
  description := circularDescription cycle
  confidence := 1
  reasoning := "Detected by deterministic delegation-chain analysis (graph cycle detection), " ++
    "not the extraction model."
  conflictType := "circular_delegation"

/-- `detect_circular_delegations`, where calls nest no deeper than `depth`. -/
def detectCircularDelegations (relationships : List CandidateRelationship)
    (order : SetOrder (delegationEdges P relationships)) (depth : ℕ) :
    Option (List CandidateConflict) :=
  (foundCycles order depth).map fun cycles => cycles.map circularConflict

/-! ## The cycles of the delegations -/

/-- One of the delegations goes from the first name to the second. -/
def Delegates (relationships : List CandidateRelationship) (a b : String) : Prop :=
  ∃ rel ∈ relationships, rel.kind = "delegation" ∧
    normalize P rel.fromPrincipal = a ∧ normalize P rel.toPrincipal = b

theorem mem_delegationEdges {relationships : List CandidateRelationship} {a b : String} :
    (a, b) ∈ delegationEdges P relationships ↔ Delegates P relationships a b := by
  simp only [delegationEdges, Delegates, List.mem_map, List.mem_filter, decide_eq_true_eq,
    Prod.mk.injEq, and_assoc]

variable {order}

theorem edge_order {a b : String} : Cycle.Edge order.neighbours a b ↔ (a, b) ∈ edges := by
  rw [Cycle.Edge, (order.perm a).mem_iff]
  exact edge_iff

theorem mem_delegators {a b : String} (h : (a, b) ∈ edges) : a ∈ delegators edges := by
  simp only [delegators, List.mem_reverse, List.mem_dedup, List.mem_map]
  exact ⟨(a, b), h, rfl⟩

theorem delegators_keys (a : String) (h : order.neighbours a ≠ []) :
    a ∈ (delegators edges).toFinset := by
  obtain ⟨b, hb⟩ := List.exists_mem_of_ne_nil _ h
  exact List.mem_toFinset.2 (mem_delegators (edge_order.1 hb))

theorem card_delegators {edges : List (String × String)} {depth : ℕ}
    (hdepth : (delegators edges).length < depth) : (delegators edges).toFinset.card < depth := by
  have := List.toFinset_card_le (delegators edges)
  omega

/-- A closed path of the search, and the set of names on it. -/
theorem toFinset_closed (start : String) (rest : List String) :
    (start :: rest ++ [start]).toFinset = (start :: rest).toFinset := by
  ext a
  simp

theorem distinctCycles_nodup (paths : List (List String)) :
    ((distinctCycles paths).map List.toFinset).Nodup := by
  rw [distinctCycles, List.map_reverse, List.nodup_reverse, List.Nodup, List.pairwise_map]
  exact List.pairwise_pwFilter _

theorem mem_distinctCycles {paths : List (List String)} {names : Finset String} :
    names ∈ (distinctCycles paths).map List.toFinset ↔ names ∈ paths.map List.toFinset := by
  constructor
  · intro h
    obtain ⟨c, hc, hnames⟩ := List.mem_map.1 h
    rw [distinctCycles, List.mem_reverse] at hc
    exact List.mem_map.2 ⟨c, List.mem_reverse.1 (List.pwFilter_subset _ hc), hnames⟩
  · intro h
    obtain ⟨c, hc, hnames⟩ := List.mem_map.1 h
    by_contra hmissed
    have hall : ∀ d ∈ List.pwFilter (fun c d => c.toFinset ≠ d.toFinset) paths.reverse,
        c.toFinset ≠ d.toFinset := by
      intro d hd heq
      refine hmissed (List.mem_map.2 ⟨d, ?_, heq.symm.trans hnames⟩)
      rwa [distinctCycles, List.mem_reverse]
    have hself := (List.forall_mem_pwFilter (R := fun c d : List String => c.toFinset ≠ d.toFinset)
      (fun {x y z} hxz => by
        by_cases hxy : x.toFinset = y.toFinset
        · exact .inr (hxy ▸ hxz)
        · exact .inl hxy) c paths.reverse).1 hall c (List.mem_reverse.2 hc)
    exact hself rfl

/-- The closed paths of the search from every name. -/
theorem mem_searched {names : Finset String} (hdepth : (delegators edges).length < depth) :
    names ∈ ((delegators edges).flatMap fun start =>
        Cycle.cyclesFrom order.neighbours depth start [start] []).map List.toFinset ↔
      ∃ start rest, Cycle.SimpleCycle (fun a b => (a, b) ∈ edges) start rest ∧
        (start :: rest).toFinset = names := by
  constructor
  · intro h
    obtain ⟨found, hfound, hnames⟩ := List.mem_map.1 h
    obtain ⟨first, hfirst, hfound⟩ := List.mem_flatMap.1 hfound
    obtain ⟨start, rest, hcycle, rfl⟩ :=
      Cycle.mem_cyclesFrom [] (by simp) (by simp) hfound
    refine ⟨start, rest, hcycle.imp fun a b hab => edge_order.1 hab, ?_⟩
    rw [← hnames, toFinset_closed]
  · intro h
    obtain ⟨start, rest, hcycle, hnames⟩ := h
    have hedge : ∃ b, (start, b) ∈ edges := by
      cases rest with
      | nil => exact ⟨start, by simpa using hcycle.walk⟩
      | cons b rest =>
        have := hcycle.walk
        simp only [List.cons_append, List.isChain_cons_cons] at this
        exact ⟨b, this.1⟩
    obtain ⟨b, hb⟩ := hedge
    refine List.mem_map.2 ⟨start :: rest ++ [start], ?_, by rw [toFinset_closed, hnames]⟩
    refine List.mem_flatMap.2 ⟨start, mem_delegators hb, ?_⟩
    exact Cycle.simpleCycle_mem_cyclesFrom delegators_keys (card_delegators hdepth)
      (hcycle.imp fun a b hab => edge_order.2 hab)

/-- The search from every name returns, and a deeper one finds the same. -/
theorem foundCycles_eq (hdepth : (delegators edges).length < depth) :
    foundCycles order depth = some (distinctCycles ((delegators edges).flatMap fun start =>
      Cycle.cyclesFrom order.neighbours ((delegators edges).length + 1) start [start] [])) := by
  have hcard : ((delegators edges).toFinset \ ([] : List String).toFinset).card < depth := by
    rw [List.toFinset_nil, Finset.sdiff_empty]
    exact card_delegators hdepth
  have hleast : ((delegators edges).toFinset \ ([] : List String).toFinset).card <
      (delegators edges).length + 1 := by
    rw [List.toFinset_nil, Finset.sdiff_empty]
    exact card_delegators (Nat.lt_succ_self _)
  have hsearch : ∀ start ∈ delegators edges,
      Cycle.search order.neighbours depth start [start] [] =
        some (Cycle.cyclesFrom order.neighbours ((delegators edges).length + 1) start [start] []) := by
    intro start _
    rw [Cycle.search_eq delegators_keys hcard, Cycle.cyclesFrom_deeper delegators_keys hcard hleast]
  rw [foundCycles, Cycle.mapM_some hsearch]
  simp [List.flatMap]

/-- **The detection is exact.** It returns, and it reports a set of names exactly when a simple cycle of
the delegations passes these names and no others; no set twice. -/
theorem detectCircularDelegations_exact (relationships : List CandidateRelationship)
    (order : SetOrder (delegationEdges P relationships)) :
    ∃ cycles : List (List String),
      (∀ depth, (delegators (delegationEdges P relationships)).length < depth →
        foundCycles order depth = some cycles ∧
          detectCircularDelegations P relationships order depth =
            some (cycles.map circularConflict)) ∧
      (cycles.map List.toFinset).Nodup ∧
      ∀ names : Finset String, names ∈ cycles.map List.toFinset ↔
        ∃ start rest, Cycle.SimpleCycle (Delegates P relationships) start rest ∧
          (start :: rest).toFinset = names := by
  refine ⟨distinctCycles ((delegators (delegationEdges P relationships)).flatMap fun start =>
    Cycle.cyclesFrom order.neighbours ((delegators (delegationEdges P relationships)).length + 1)
      start [start] []), ?_, distinctCycles_nodup _, ?_⟩
  · intro depth hdepth
    have hfound : foundCycles order depth = _ := foundCycles_eq depth hdepth
    exact ⟨hfound, by rw [detectCircularDelegations, hfound]; rfl⟩
  · intro names
    have hedges : (fun a b => (a, b) ∈ delegationEdges P relationships) =
        Delegates P relationships := by
      funext a b
      exact propext (mem_delegationEdges P)
    rw [mem_distinctCycles, mem_searched _ (Nat.lt_succ_self _), hedges]

/-! ## The safety check -/

/-- The relationships that the safety check makes of the policies. -/
def policyRelationships (policies : List RuntimePolicy) : List CandidateRelationship :=
  policies.filterMap fun p =>
    (p.constraints.delegatedBy.filter fun d => d ≠ "" ∧ p.scope.principal ≠ "").map fun d =>
      ⟨"delegation", d, p.scope.principal⟩

theorem delegationEdges_policies (policies : List RuntimePolicy) :
    delegationEdges P (policyRelationships policies) = policies.filterMap (delegation P) := by
  induction policies with
  | nil => rfl
  | cons p policies ih =>
    simp only [policyRelationships, delegationEdges, List.filterMap_cons] at ih ⊢
    cases hd : p.constraints.delegatedBy with
    | none => simpa [delegation, hd] using ih
    | some d =>
      by_cases hnames : d ≠ "" ∧ p.scope.principal ≠ ""
      · simpa [delegation, hd, hnames, Option.filter] using ih
      · simp only [delegation, hd, hnames, Option.filter, decide_false, Option.map_none, if_false,
          Bool.false_eq_true]
        exact ih

/-- **The safety check reports what the detection finds** among the policies. -/
theorem checkCircularDelegation_eq (policies : List RuntimePolicy) (depth : ℕ)
    (hdepth : (delegators (policies.filterMap (delegation P))).length < depth) :
    ∃ conflicts,
      detectCircularDelegations P (policyRelationships policies) (.inserted _) depth =
        some conflicts ∧
      checkCircularDelegation P policies = conflicts.map fun conflict =>
        { check := .circularDelegation, message := conflict.description } := by
  rw [← delegationEdges_policies] at hdepth
  refine ⟨_, by rw [detectCircularDelegations, foundCycles_eq depth hdepth]; rfl, ?_⟩
  rw [checkCircularDelegation, SafetyChecks.detectCircularDelegations, ← delegationEdges_policies]
  simp only [List.map_map]
  rfl

end AuthorityGraph

end PayReality
