import PayReality.Integration.Context
import PayReality.Integration.RegistryContract

/-!
# Contract versions freeze at validation

A version that is no draft is stamped with the hash of its fields and keeps both
(`contract_versions_freeze`), in a run in which a version that was a draft when an edit read it is one
at its commit, and the fields that a validation read have their hash at its commit. The services check
this when they read, not when they commit.
-/

namespace PayReality

open Program

/-! ## One version -/

namespace ContractVersionRow

variable (H : OperationHost)

/-- What is no draft is stamped with the hash of its fields. -/
def Stamped (v : ContractVersionRow) : Prop :=
  v.status ≠ .draft → v.contentHash = some (v.fields.contentHash H)

/-- `v'` is what became of `v`. -/
structure Keeps (v v' : ContractVersionRow) : Prop where
  status : v'.status ≠ .draft
  fields : v'.fields = v.fields
  contentHash : v'.contentHash = v.contentHash

variable {v v' v'' : ContractVersionRow}

theorem Keeps.refl (h : v.status ≠ .draft) : v.Keeps v := ⟨h, rfl, rfl⟩

theorem Keeps.trans (h : v.Keeps v') (h' : v'.Keeps v'') : v.Keeps v'' :=
  ⟨h'.status, h'.fields.trans h.fields, h'.contentHash.trans h.contentHash⟩

@[simp] theorem withFields_fields (f : ContractFields) : (v.withFields f).fields = f := rfl

end ContractVersionRow

/-! ## All of them -/

namespace Registry

variable (H : OperationHost)

/-- Every version that is no draft is stamped. -/
def Stamped (d : Registry) : Prop := ∀ id v, d.version id = some v → v.Stamped H

/-- What was no draft in `d` is so in `d'`, with its fields and its stamp. -/
def FrozenIn (d d' : Registry) : Prop :=
  ∀ id v, d.version id = some v → v.status ≠ .draft → ∃ v', d'.version id = some v' ∧ v.Keeps v'

/-- There are no versions and no bindings. -/
def Unused (d : Registry) : Prop := d.contractVersions = [] ∧ d.bindings = [] ∧ d.allowed = []

variable {H} {d d' d'' : Registry} {id : Uuid}

theorem FrozenIn.refl (d : Registry) : d.FrozenIn d := fun _ v hv hstatus =>
  ⟨v, hv, .refl hstatus⟩

theorem FrozenIn.trans (h : d.FrozenIn d') (h' : d'.FrozenIn d'') : d.FrozenIn d'' := by
  intro id v hv hstatus
  obtain ⟨v', hv', hkeeps⟩ := h id v hv hstatus
  obtain ⟨v'', hv'', hkeeps'⟩ := h' id v' hv' hkeeps.status
  exact ⟨v'', hv'', hkeeps.trans hkeeps'⟩

theorem version_updateVersion {f : ContractVersionRow → ContractVersionRow}
    (hf : ∀ v, (f v).id = v.id) {j : Uuid} :
    (d.updateVersion id f).version j = (d.version j).map fun v => if v.id = id then f v else v :=
  Rows.get_update hf

/-- A change of one version that keeps what is frozen, and leaves it stamped. -/
theorem updateVersion_frozen {f : ContractVersionRow → ContractVersionRow}
    (hf : ∀ v, (f v).id = v.id) (hd : d.Stamped H)
    (hv : ∀ v, d.version id = some v →
      (f v).Stamped H ∧ (v.status ≠ .draft → v.Keeps (f v))) :
    (d.updateVersion id f).Stamped H ∧ d.FrozenIn (d.updateVersion id f) := by
  have hget {j v} (h : d.version j = some v) :
      (d.updateVersion id f).version j = some (if v.id = id then f v else v) := by
    rw [version_updateVersion hf, h]
    rfl
  refine ⟨fun j v' h' => ?_, fun j v h hstatus => ⟨_, hget h, ?_⟩⟩
  · rw [version_updateVersion hf, Option.map_eq_some_iff] at h'
    obtain ⟨v, h, rfl⟩ := h'
    split
    · next hid =>
      have hj : j = id := (Rows.key_of_get h).symm.trans hid
      exact (hv v (hj ▸ h)).1
    · exact hd j v h
  · split
    · next hid =>
      have hj : j = id := (Rows.key_of_get h).symm.trans hid
      exact (hv v (hj ▸ h)).2 hstatus
    · exact .refl hstatus

theorem admitted_of_unused (h : d.Unused) : d.admitted = true := by
  obtain ⟨hversions, hbindings, hallowed⟩ := h
  simp [admitted, hversions, hbindings, hallowed]

theorem stamped_of_unused (h : d.Unused) : d.Stamped H := by
  intro id v hv
  rw [version, h.1] at hv
  cases hv

end Registry

/-! ## Runs -/

variable {H : OperationHost}

/-- An edit that changes a version meets a draft where it has read one; a validation meets fields with
the hash of those that it read. -/
def RegistryChange.freezes (H : OperationHost) : RegistryChange → List Registry → Registry → Bool
  | .editVersion id old new, seen, d =>
    (d.version id).all (fun v => old.update new v.fields = v.fields) ||
      seen.all fun d' => d'.versionIs id .draft = true → d.versionIs id .draft = true
  | .validateVersion id _, seen, d =>
    seen.all fun d' => (d'.version id).map (fun v => v.fields.contentHash H) =
      (d.version id).map fun v => v.fields.contentHash H
  | _, _, _ => true

/-- What a change that freezes does to the versions. -/
theorem RegistryChange.freezes_step {w : RegistryChange} {seen : List Registry} {d : Registry}
    (hd : d.Stamped H) (hseen : ∀ d' ∈ seen, d'.FrozenIn d)
    (hchecks : ∀ c ∈ w.checks H, ∃ d' ∈ seen, c d' = true)
    (hok : w.freezes H seen d = true) : (w.apply d).Stamped H ∧ d.FrozenIn (w.apply d) := by
  cases w with
  | editVersion id old new =>
    refine Registry.updateVersion_frozen (fun _ => rfl) hd fun v hv => ?_
    rcases (Bool.or_eq_true_iff ..).1 hok with hsame | hsince
    · rw [hv] at hsame
      rw [of_decide_eq_true hsame]
      exact ⟨hd id v hv, .refl⟩
    · obtain ⟨v', hv', hdraft⟩ := Registry.versionIs_iff.1
        (holds_since (hchecks _ (List.mem_singleton_self _)) hsince)
      obtain rfl : v' = v := Option.some.inj (hv'.symm.trans hv)
      exact ⟨fun h => absurd hdraft h, fun h => absurd hdraft h⟩
  | validateVersion id contentHash =>
    refine Registry.updateVersion_frozen (fun _ => rfl) hd fun v hv => ?_
    have hhash : v.fields.contentHash H = contentHash := by
      obtain ⟨d', hd', hread⟩ := hchecks _ (List.mem_singleton_self _)
      obtain ⟨v', hv', hread⟩ := (Option.any_eq_true _ _).1 hread
      have hsince := of_decide_eq_true (List.all_eq_true.1 hok d' hd')
      rw [hv, hv'] at hsince
      exact (Option.some.inj hsince).symm.trans (of_decide_eq_true hread).2
    refine ⟨fun _ => congrArg some hhash.symm, fun hstatus => ⟨fun h => (by cases h), rfl, ?_⟩⟩
    rw [hd id v hv hstatus, hhash]
  | approveVersion id =>
    refine Registry.updateVersion_frozen (fun _ => rfl) hd fun v hv => ?_
    obtain ⟨d', hd', hc⟩ := hchecks _ (List.mem_singleton_self _)
    obtain ⟨v', hv', hstatus⟩ := Registry.versionIs_iff.1 hc
    obtain ⟨v'', hv'', hkeeps⟩ := hseen d' hd' id v' hv' (by simp [hstatus])
    obtain rfl : v'' = v := Option.some.inj (hv''.symm.trans hv)
    exact ⟨fun _ => hd id v'' hv hkeeps.status, fun _ => ⟨fun h => (by cases h), rfl, rfl⟩⟩
  | retireVersion id =>
    refine Registry.updateVersion_frozen (fun _ => rfl) hd fun v hv => ?_
    obtain ⟨d', hd', hc⟩ := hchecks _ (List.mem_cons_self ..)
    obtain ⟨v', hv', hstatus⟩ := Registry.versionIs_iff.1 hc
    obtain ⟨v'', hv'', hkeeps⟩ := hseen d' hd' id v' hv' (by simp [hstatus])
    obtain rfl : v'' = v := Option.some.inj (hv''.symm.trans hv)
    exact ⟨fun _ => hd id v'' hv hkeeps.status, fun _ => ⟨fun h => (by cases h), rfl, rfl⟩⟩
  | insertVersion id integrationId organizationId version f =>
    have hget (j : Uuid) : ((insertVersion id integrationId organizationId version f).apply
        d).version j = (d.version j).or (Rows.get (·.id) [_] j) := Rows.get_append
    refine ⟨fun j v hv => ?_, fun j v hv hstatus => ⟨v, ?_, .refl hstatus⟩⟩
    · rw [hget] at hv
      rcases Option.or_eq_some_iff.1 hv with hv | ⟨-, hv⟩
      · exact hd j v hv
      · rcases List.mem_singleton.1 (Rows.mem_of_get hv) with rfl
        exact fun h => absurd rfl h
    · rw [hget, hv]
      rfl
  | activateBinding id versionId prior =>
    cases prior with
    | none => exact ⟨hd, .refl d⟩
    | some p => exact ⟨hd, .refl d⟩
  | _ => exact ⟨hd, .refl d⟩

/-- A run of the services from an empty database, with the commits that `ok` allows by what the
operation has read and by what it meets. -/
abbrev RegistryRun (H : OperationHost) {ι : Type} [DecidableEq ι]
    (ok : RegistryChange → List Registry → Registry → Bool)
    (w : World (RecordStatement RegistryChange) (RecordStatement.Answer Registry Uuid) PyError
      (Records Registry ι) ι) : Prop :=
  Reach (((registrySchema H).machine Uuid ι).restrict fun i q s _ =>
      (registrySchema H).allowsSeen ok i q s = true) (registryRequests H)
    (fun s => ∃ d ∈ {d | d.Unused}, s = Records.init d) w

/-- **Contract versions freeze at validation.** -/
theorem contract_versions_freeze {ι : Type} [DecidableEq ι]
    {w : World (RecordStatement RegistryChange) (RecordStatement.Answer Registry Uuid) PyError
      (Records Registry ι) ι} (h : RegistryRun H (RegistryChange.freezes H) w) :
    w.store.db.Stamped H ∧ ∀ d ∈ w.store.past, d.FrozenIn w.store.db := by
  have hrun := Reach.records_seen (registry_checks H)
    (I := fun d => d.admitted = true ∧ d.Stamped H) (R := Registry.FrozenIn)
    (fun d hd => ⟨Registry.admitted_of_unused hd, Registry.stamped_of_unused hd⟩)
    Registry.FrozenIn.refl (fun _ _ _ => Registry.FrozenIn.trans) (fun _ hd => hd.1) ?_ h
  · exact ⟨hrun.1.2, hrun.2⟩
  · intro c seen d hd hseen hchecks hok hadmits
    obtain ⟨hstamped, hfrozen⟩ := RegistryChange.freezes_step hd.2
      (fun d' hd' => (hseen d' hd').2) hchecks hok
    exact ⟨⟨hadmits, hstamped⟩, hfrozen⟩

/-! ### Two sessions -/

/-- An organization with an integration, an identity and an agent, and nothing else yet. -/
def emptyRegistry : Registry where
  integrations := [⟨5, 7⟩]
  identities := [adapterIdentity]
  agents := [⟨2, 1, .active⟩]
  principals := [⟨1, "ops", some 7, none, none, none, none⟩]

/-- What two sessions do in turn: the request that a session starts, if any, and how many statements
it sends. -/
def registryTurns (ts : List (Bool × Option RegistryRequest × ℕ)) :
    List (Turn (RecordStatement RegistryChange) (RecordStatement.Answer Registry Uuid) PyError Bool) :=
  ts.map fun t => ⟨t.1, t.2.1.map fun r => r.run adapterHost, t.2.2⟩

/-- The turns are played as far as `ok` allows. Every new row has the id 1. -/
def playRegistry (ok : RegistryChange → List Registry → Registry → Bool)
    (ts : List (Bool × Option RegistryRequest × ℕ)) :
    World (RecordStatement RegistryChange) (RecordStatement.Answer Registry Uuid) PyError
      (Records Registry Bool) Bool :=
  (((registrySchema adapterHost).schedule 1).restrict fun i q s _ =>
      (registrySchema adapterHost).allowsSeen ok i q s).play
    (registryTurns ts) ⟨Records.init emptyRegistry, fun _ => none⟩

theorem playRegistry_run (ok : RegistryChange → List Registry → Registry → Bool)
    (ts : List (Bool × Option RegistryRequest × ℕ)) :
    RegistryRun adapterHost ok (playRegistry ok ts) := by
  refine Schedule.play_reach (.init ⟨emptyRegistry, ⟨rfl, rfl, rfl⟩, rfl⟩) fun t ht p hp => ?_
  obtain ⟨e, -, rfl⟩ := List.mem_map.1 ht
  obtain ⟨r, -, rfl⟩ := Option.map_eq_some_iff.1 hp
  exact ⟨r, rfl⟩

/-- Payments. -/
def payFields : ContractFields := { sourceOperation := "pay", canonicalAction := "vendor_payment" }

/-- A version is drafted, validated and approved. -/
def approval : List (Bool × Option RegistryRequest × ℕ) :=
  [(true, some (.createContractVersion 5 7 payFields), 10),
    (true, some (.validateContractVersion 1 7), 10), (true, some (.approveContractVersion 1 7), 10)]

theorem contract_versions_freeze_approval :
    (playRegistry (RegistryChange.freezes adapterHost) approval).store.db.versionIs 1 .approved = true ∧
    (playRegistry (RegistryChange.freezes adapterHost) approval).store.db.Stamped adapterHost ∧
    ∀ d ∈ (playRegistry (RegistryChange.freezes adapterHost) approval).store.past,
      d.FrozenIn (playRegistry (RegistryChange.freezes adapterHost) approval).store.db :=
  ⟨by decide +kernel, contract_versions_freeze (playRegistry_run _ approval)⟩

/-- An edit that has found a draft goes on when the version is validated. -/
def lateEdit : List (Bool × Option RegistryRequest × ℕ) :=
  [(true, some (.createContractVersion 5 7 payFields), 10),
    (true, some (.editContractVersion 1 7 { sourceOperation := some "refund" }), 1),
    (false, some (.validateContractVersion 1 7), 10), (true, none, 10)]

/-- A validated version is changed. -/
theorem contract_versions_lateEdit : ∃ w : World (RecordStatement RegistryChange)
      (RecordStatement.Answer Registry Uuid) PyError (Records Registry Bool) Bool,
    RegistryRun adapterHost (fun _ _ _ => true) w ∧
      ∃ d ∈ w.store.past, d.versionIs 1 .validated = true ∧
        (d.version 1).map (·.sourceOperation) = some "pay" ∧
        (w.store.db.version 1).map (·.sourceOperation) = some "refund" := by
  refine ⟨_, playRegistry_run (fun _ _ _ => true) lateEdit, ?_⟩
  have h : (playRegistry (fun _ _ _ => true) lateEdit).store.past.any (fun d =>
      d.versionIs 1 .validated ∧ (d.version 1).map (·.sourceOperation) = some "pay" ∧
      ((playRegistry (fun _ _ _ => true) lateEdit).store.db.version 1).map (·.sourceOperation) =
        some "refund") = true := by
    decide +kernel
  obtain ⟨d, hd, h⟩ := List.any_eq_true.1 h
  exact ⟨d, hd, of_decide_eq_true h⟩

end PayReality
