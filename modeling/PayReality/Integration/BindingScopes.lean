import PayReality.Integration.ActiveBindings

/-!
# The scope of a binding is that of its contract version

A binding copies the integration and the source operation of its version when it is drafted, or
pinned to another, and the unique index over active bindings is over the copies. The copies stay
true (`binding_scopes_mirror`) in a run in which no edit gives another source operation to a version
that a binding refers to, and the version has the one that was read when a copy of it is committed; the
service lets a draft version be changed that a binding has copied.
-/

namespace PayReality

open Program

namespace BindingFields

/-- What is written over the column that was read. -/
theorem written {α : Type} [DecidableEq α] {new old present : α} (h : present = old) :
    (if new = old then present else new) = new := by
  split
  · next hnew => exact h.trans hnew.symm
  · rfl

/-- An edit that finds the pinned columns as they were read leaves those that it was given. -/
theorem pinned_update {old new present : BindingFields} (h : present.pinned = old.pinned) :
    (old.update new present).pinned = new.pinned := by
  simp only [pinned, Prod.mk.injEq] at h ⊢
  exact ⟨written h.1, written h.2.1, written h.2.2⟩

/-- An edit that was given the pinned columns that it read leaves those that it finds. -/
theorem pinned_update_same {old new present : BindingFields} (h : new.pinned = old.pinned) :
    (old.update new present).pinned = present.pinned := by
  simp only [pinned, Prod.mk.injEq] at h
  obtain ⟨hversion, hintegration, hoperation⟩ := h
  unfold update pinned
  rw [if_pos hversion, if_pos hintegration, if_pos hoperation]

end BindingFields

namespace Registry

/-- A version has the columns that a binding has copied. -/
def pins (d : Registry) (p : Uuid × Uuid × String) : Bool := d.versionHas p.1 p.2.1 p.2.2

/-- Every binding has the columns of its version. -/
def Mirrored (d : Registry) : Prop := ∀ id b, d.binding id = some b → d.pins b.fields.pinned = true

/-- The versions of `d` belong to the same integrations in `d'`. -/
def SameIntegrations (d d' : Registry) : Prop :=
  ∀ id v, d.version id = some v → ∃ v', d'.version id = some v' ∧ v'.integrationId = v.integrationId

variable {d d' d'' : Registry} {id : Uuid}

theorem SameIntegrations.refl (d : Registry) : d.SameIntegrations d := fun _ v hv => ⟨v, hv, rfl⟩

theorem SameIntegrations.trans (h : d.SameIntegrations d') (h' : d'.SameIntegrations d'') :
    d.SameIntegrations d'' := by
  intro id v hv
  obtain ⟨v', hv', hsame⟩ := h id v hv
  obtain ⟨v'', hv'', hsame'⟩ := h' id v' hv'
  exact ⟨v'', hv'', hsame'.trans hsame⟩

theorem mirrored_of_unused (h : d.Unused) : d.Mirrored := by
  intro id b hb
  rw [binding, h.2.1] at hb
  cases hb

/-- A change of one binding. -/
theorem updateBinding_mirrored {f : BindingRow → BindingRow} (hf : ∀ b, (f b).id = b.id)
    (hd : d.Mirrored) (hb : ∀ b, d.binding id = some b → d.pins (f b).fields.pinned = true) :
    (d.updateBinding id f).Mirrored := by
  intro j b' h'
  rw [binding_updateBinding hf, Option.map_eq_some_iff] at h'
  obtain ⟨b, h, rfl⟩ := h'
  split
  · next hid =>
    obtain rfl : j = id := (Rows.key_of_get h).symm.trans hid
    exact hb b h
  · exact hd j b h

/-- A change of one version. -/
theorem updateVersion_mirrored {f : ContractVersionRow → ContractVersionRow}
    (hf : ∀ v, (f v).id = v.id ∧ (f v).integrationId = v.integrationId) (hd : d.Mirrored)
    (hv : ∀ v, d.version id = some v → (f v).sourceOperation = v.sourceOperation ∨
      ∀ b ∈ d.bindings, b.integrationContractVersionId ≠ id) :
    (d.updateVersion id f).Mirrored := by
  intro j b hb
  obtain ⟨v, hversion, hintegration, hoperation⟩ := versionHas_iff.1 (hd j b hb)
  refine versionHas_iff.2 ⟨if v.id = id then f v else v, ?_, ?_⟩
  · rw [version_updateVersion fun v => (hf v).1, hversion]
    rfl
  · split
    · next hid =>
      have hb' : b.integrationContractVersionId = id := (Rows.key_of_get hversion).symm.trans hid
      rcases hv v (hb' ▸ hversion) with h | h
      · exact ⟨(hf v).2.trans hintegration, h.trans hoperation⟩
      · exact absurd hb' (h b (Rows.mem_of_get hb))
    · exact ⟨hintegration, hoperation⟩

/-- A new version. -/
theorem insertVersion_mirrored {v : ContractVersionRow} (hd : d.Mirrored) :
    ({ d with contractVersions := d.contractVersions ++ [v] } : Registry).Mirrored := by
  intro j b hb
  obtain ⟨v', hversion, hcopied⟩ := versionHas_iff.1 (hd j b hb)
  refine versionHas_iff.2 ⟨v', ?_, hcopied⟩
  show Rows.get (·.id) (d.contractVersions ++ [v]) _ = some v'
  rw [Rows.get_append, show Rows.get (·.id) d.contractVersions _ = some v' from hversion]
  rfl

/-- A new binding. -/
theorem insertBinding_mirrored {b : BindingRow} {rows : List EnforcementBindingAgent}
    (hd : d.Mirrored) (hb : d.pins b.fields.pinned = true) :
    ({ d with bindings := d.bindings ++ [b], allowed := rows } : Registry).Mirrored := by
  intro j b' hb'
  have hget : Rows.get (·.id) (d.bindings ++ [b]) j = some b' := hb'
  rw [Rows.get_append] at hget
  rcases Option.or_eq_some_iff.1 hget with hget | ⟨-, hget⟩
  · exact hd j b' hget
  · rw [List.mem_singleton.1 (Rows.mem_of_get hget)]
    exact hb

end Registry

/-! ## Runs -/

/-- The version, if it was read, has the source operation that it had. -/
def Registry.sameOperation (d' d : Registry) (id : Uuid) : Bool :=
  (d'.version id).all fun v' => (d.version id).all fun v => v.sourceOperation = v'.sourceOperation

/-- An edit of a version that a binding refers to leaves the source operation that it read. Since the
operation read them, the version that a binding copies has kept its source operation, and a binding
that is pinned to another version its pinned columns. -/
def RegistryChange.mirrors : RegistryChange → List Registry → Registry → Bool
  | .editVersion id old new, _, d =>
    new.sourceOperation = old.sourceOperation ∨ ∀ b ∈ d.bindings, b.integrationContractVersionId ≠ id
  | .insertBinding _ _ f _, seen, d =>
    seen.all fun d' => d'.sameOperation d f.integrationContractVersionId
  | .editBinding id old new, seen, d =>
    new.pinned = old.pinned ∨ ∀ d' ∈ seen, d'.sameOperation d new.integrationContractVersionId = true ∧
      (d'.binding id).map (fun b => b.fields.pinned) = (d.binding id).map fun b => b.fields.pinned
  | _, _, _ => true

/-- What a version had when it was read it has still. -/
theorem Registry.SameIntegrations.pins {d d' : Registry} (h : d'.SameIntegrations d)
    {p : Uuid × Uuid × String} (hread : d'.pins p = true) (hsame : d'.sameOperation d p.1 = true) :
    d.pins p = true := by
  obtain ⟨v', hv', hintegration, hoperation⟩ := versionHas_iff.1 hread
  obtain ⟨v, hv, hkept⟩ := h p.1 v' hv'
  unfold sameOperation at hsame
  rw [hv', hv] at hsame
  exact versionHas_iff.2 ⟨v, hv, hkept.trans hintegration, (of_decide_eq_true hsame).trans hoperation⟩

/-- What a change that mirrors does to the bindings. -/
theorem RegistryChange.mirrors_step {H : OperationHost} {w : RegistryChange} {seen : List Registry}
    {d : Registry} (hd : d.Mirrored) (hseen : ∀ d' ∈ seen, d'.SameIntegrations d)
    (hchecks : ∀ c ∈ w.checks H, ∃ d' ∈ seen, c d' = true) (hok : w.mirrors seen d = true) :
    (w.apply d).Mirrored := by
  cases w with
  | insertVersion id integrationId organizationId version f =>
    exact Registry.insertVersion_mirrored hd
  | editVersion id old new =>
    refine Registry.updateVersion_mirrored (fun _ => ⟨rfl, rfl⟩) hd fun v hv => ?_
    exact (of_decide_eq_true hok).imp_left fun hsame => if_pos hsame
  | validateVersion id contentHash =>
    exact Registry.updateVersion_mirrored (fun _ => ⟨rfl, rfl⟩) hd fun v _ => .inl rfl
  | approveVersion id =>
    exact Registry.updateVersion_mirrored (fun _ => ⟨rfl, rfl⟩) hd fun v _ => .inl rfl
  | retireVersion id =>
    exact Registry.updateVersion_mirrored (fun _ => ⟨rfl, rfl⟩) hd fun v _ => .inl rfl
  | insertBinding id organizationId f agentIds =>
    obtain ⟨d', hd', hread⟩ := hchecks _ (List.mem_singleton_self _)
    have hsame := List.all_eq_true.1 hok d' hd'
    exact Registry.insertBinding_mirrored hd ((hseen d' hd').pins (p := f.pinned) hread hsame)
  | editBinding id old new =>
    refine Registry.updateBinding_mirrored (fun _ => rfl) hd fun b hb => ?_
    show d.pins (old.update new b.fields).pinned = true
    simp only [checks, List.forall_mem_cons] at hchecks
    obtain ⟨⟨d₁, hd₁, hold⟩, ⟨d₂, hd₂, hnew⟩, -⟩ := hchecks
    by_cases hsame : new.pinned = old.pinned
    · rw [BindingFields.pinned_update_same hsame]
      exact hd id b hb
    · have hsince := (of_decide_eq_true hok).resolve_left hsame
      obtain ⟨b₁, hb₁, hold⟩ := (Option.any_eq_true _ _).1 hold
      have hpinned := (hsince d₁ hd₁).2
      rw [hb, hb₁] at hpinned
      have hread : b.fields.pinned = old.pinned := by
        rw [← (of_decide_eq_true hold).2]
        exact (Option.some.inj hpinned).symm
      rw [BindingFields.pinned_update hread]
      exact (hseen d₂ hd₂).pins ((of_decide_eq_true hnew).resolve_left hsame) (hsince d₂ hd₂).1
  | activateBinding id versionId prior =>
    cases prior with
    | none => exact Registry.updateBinding_mirrored (fun _ => rfl) hd (hd id)
    | some p =>
      have hretired : (d.updateBinding p retire).Mirrored :=
        Registry.updateBinding_mirrored (fun _ => rfl) hd (hd p)
      exact Registry.updateBinding_mirrored (fun _ => rfl) hretired (hretired id)
  | retireBinding id => exact Registry.updateBinding_mirrored (fun _ => rfl) hd (hd id)
  | setAssurance id assurance => exact Registry.updateBinding_mirrored (fun _ => rfl) hd (hd id)
  | addAgents id agentIds => exact hd
  | removeAgents id agentIds => exact hd
  | elsewhere identities agents principals => exact hd

/-- No change gives a version another integration. -/
theorem RegistryChange.sameIntegrations (w : RegistryChange) (d : Registry) :
    d.SameIntegrations (w.apply d) := by
  have hupdate (id : Uuid) (f : ContractVersionRow → ContractVersionRow)
      (hf : ∀ v, (f v).id = v.id ∧ (f v).integrationId = v.integrationId) :
      d.SameIntegrations (d.updateVersion id f) := by
    intro j v hv
    refine ⟨if v.id = id then f v else v, ?_, ?_⟩
    · rw [Registry.version_updateVersion fun v => (hf v).1, hv]
      rfl
    · split
      · exact (hf v).2
      · rfl
  cases w with
  | insertVersion id integrationId organizationId version f =>
    intro j v hv
    refine ⟨v, ?_, rfl⟩
    show Rows.get (·.id) (d.contractVersions ++ [_]) j = some v
    rw [Rows.get_append, show Rows.get (·.id) d.contractVersions j = some v from hv]
    rfl
  | editVersion id old new => exact hupdate id _ fun _ => ⟨rfl, rfl⟩
  | validateVersion id contentHash => exact hupdate id _ fun _ => ⟨rfl, rfl⟩
  | approveVersion id => exact hupdate id _ fun _ => ⟨rfl, rfl⟩
  | retireVersion id => exact hupdate id _ fun _ => ⟨rfl, rfl⟩
  | activateBinding id versionId prior =>
    cases prior with
    | none => exact .refl d
    | some p => exact .refl d
  | _ => exact .refl d

/-- The columns of an active binding's scope, with the source operation that the version has. -/
def ContractVersionRow.scope (v : ContractVersionRow) (b : BindingRow) :
    Uuid × Uuid × String × String :=
  (b.integrationIdentityId, v.integrationId, v.sourceOperation, b.environment)

theorem Registry.id_of_binding {d : Registry} {id : Uuid} {b : BindingRow}
    (h : d.binding id = some b) : b.id = id :=
  @Rows.key_of_get BindingRow Uuid _ (fun b => b.id) d.bindings id b h

/-- No two active bindings have one scope. -/
theorem Registry.active_scope_unique {d : Registry} (h : d.admitted = true) {id id' : Uuid}
    {b b' : BindingRow} (hb : d.binding id = some b) (hb' : d.binding id' = some b')
    (hactive : b.status = .active) (hactive' : b'.status = .active) (hscope : b.scope = b'.scope) :
    id = id' := by
  have hunique := (of_decide_eq_true h).2.2.2.1
  have hmem : b ∈ d.bindings.filter fun b => b.status = .active :=
    List.mem_filter.2 ⟨Rows.mem_of_get hb, decide_eq_true hactive⟩
  have hmem' : b' ∈ d.bindings.filter fun b => b.status = .active :=
    List.mem_filter.2 ⟨Rows.mem_of_get hb', decide_eq_true hactive'⟩
  obtain rfl : b = b' := List.inj_on_of_nodup_map hunique hmem hmem' hscope
  exact (id_of_binding hb).symm.trans (id_of_binding hb')

/-- **The scope of a binding is that of its version.** -/
theorem binding_scopes_mirror {H : OperationHost} {ι : Type} [DecidableEq ι]
    {w : World (RecordStatement RegistryChange) (RecordStatement.Answer Registry Uuid) PyError
      (Records Registry ι) ι} (h : RegistryRun H RegistryChange.mirrors w) :
    (∀ id b, w.store.db.binding id = some b → b.status = .active →
      ∃ v, w.store.db.version b.integrationContractVersionId = some v ∧
        b.integrationId = v.integrationId ∧ b.sourceOperation = v.sourceOperation) ∧
    ∀ id id' b b' v v', w.store.db.binding id = some b → w.store.db.binding id' = some b' →
      b.status = .active → b'.status = .active →
      w.store.db.version b.integrationContractVersionId = some v →
      w.store.db.version b'.integrationContractVersionId = some v' →
      v.scope b = v'.scope b' → id = id' := by
  have hrun := Reach.records_seen (registry_checks H)
    (I := fun d => d.admitted = true ∧ d.Mirrored) (R := Registry.SameIntegrations)
    (fun d hd => ⟨Registry.admitted_of_unused hd, Registry.mirrored_of_unused hd⟩)
    Registry.SameIntegrations.refl (fun _ _ _ => Registry.SameIntegrations.trans) (fun _ hd => hd.1)
    (fun c seen d hd hseen hchecks hok hadmits => ⟨⟨hadmits, RegistryChange.mirrors_step hd.2
      (fun d' hd' => (hseen d' hd').2) hchecks hok⟩, c.sameIntegrations d⟩) h
  obtain ⟨hadmits, hmirrored⟩ := hrun.1
  have hcopied : ∀ id b, w.store.db.binding id = some b →
      ∃ v, w.store.db.version b.integrationContractVersionId = some v ∧
        b.integrationId = v.integrationId ∧ b.sourceOperation = v.sourceOperation := by
    intro id b hb
    obtain ⟨v, hv, hintegration, hoperation⟩ := Registry.versionHas_iff.1 (hmirrored id b hb)
    exact ⟨v, hv, hintegration.symm, hoperation.symm⟩
  refine ⟨fun id b hb _ => hcopied id b hb, ?_⟩
  intro id id' b b' v v' hb hb' hactive hactive' hv hv' hscope
  have hown {j b v} (hb : w.store.db.binding j = some b)
      (hv : w.store.db.version b.integrationContractVersionId = some v) : v.scope b = b.scope := by
    obtain ⟨v₀, hv₀, hintegration, hoperation⟩ := hcopied j b hb
    obtain rfl : v₀ = v := Option.some.inj (hv₀.symm.trans hv)
    simp only [ContractVersionRow.scope, BindingRow.scope, hintegration, hoperation]
  refine Registry.active_scope_unique hadmits hb hb' hactive hactive' ?_
  rw [← hown hb hv, ← hown hb' hv']
  exact hscope

/-! ### Two sessions -/

theorem binding_scopes_mirror_activation :
    (playRegistry RegistryChange.mirrors activation).store.db.bindingIs 1 .active = true ∧
    ∀ id b, (playRegistry RegistryChange.mirrors activation).store.db.binding id = some b →
      b.status = .active →
      ∃ v, (playRegistry RegistryChange.mirrors activation).store.db.version
          b.integrationContractVersionId = some v ∧
        b.integrationId = v.integrationId ∧ b.sourceOperation = v.sourceOperation :=
  ⟨by decide +kernel, (binding_scopes_mirror (playRegistry_run _ activation)).1⟩

/-- A binding copies the source operation of a draft version, which is edited before it is validated,
approved and the binding activated. -/
def editedVersion : List (Bool × Option RegistryRequest × ℕ) :=
  [(true, some (.createContractVersion 5 7 payFields), 10),
    (true, some (.createBinding 7 3 1 "production" [2]), 20),
    (true, some (.editContractVersion 1 7 { sourceOperation := some "refund" }), 10),
    (true, some (.validateContractVersion 1 7), 10), (true, some (.approveContractVersion 1 7), 10),
    (true, some (.activateBinding 1 7), 20)]

/-- An active binding for another source operation than that of its version. -/
theorem binding_scopes_editedVersion : ∃ w : World (RecordStatement RegistryChange)
      (RecordStatement.Answer Registry Uuid) PyError (Records Registry Bool) Bool,
    RegistryRun adapterHost (fun _ _ _ => true) w ∧ ∃ b,
      w.store.db.binding 1 = some b ∧ b.status = .active ∧ b.sourceOperation = "pay" ∧
        w.store.db.versionHas b.integrationContractVersionId b.integrationId "refund" = true := by
  refine ⟨_, playRegistry_run (fun _ _ _ => true) editedVersion, ?_⟩
  have h : ((playRegistry (fun _ _ _ => true) editedVersion).store.db.binding 1).any (fun b =>
      b.status = .active ∧ b.sourceOperation = "pay" ∧
        (playRegistry (fun _ _ _ => true) editedVersion).store.db.versionHas
          b.integrationContractVersionId b.integrationId "refund" = true) = true := by
    decide +kernel
  obtain ⟨b, hb, h⟩ := (Option.any_eq_true _ _).1 h
  exact ⟨b, hb, of_decide_eq_true h⟩

end PayReality
