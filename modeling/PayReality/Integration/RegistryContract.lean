import PayReality.Integration.BindingService

/-!
# What the registry's operations check

Every operation of the two services commits only what it has checked (`registry_checks`).
-/

namespace PayReality

open Program RecordProg IntegrationContractService EnforcementBindingService

/-! ## Rows that were found -/

namespace Registry

variable {d : Registry} {id : Uuid}

theorem versionIds_nodup (h : d.admitted = true) : (d.contractVersions.map (·.id)).Nodup :=
  (of_decide_eq_true h).1

theorem bindingIds_nodup (h : d.admitted = true) : (d.bindings.map (·.id)).Nodup :=
  (of_decide_eq_true h).2.2.1

theorem versionIs_iff {status : ContractStatus} :
    d.versionIs id status = true ↔ ∃ v, d.version id = some v ∧ v.status = status := by
  unfold versionIs
  cases d.version id <;> simp

theorem bindingIs_iff {status : EnforcementBindingStatus} :
    d.bindingIs id status = true ↔ ∃ b, d.binding id = some b ∧ b.status = status := by
  unfold bindingIs
  cases d.binding id <;> simp

theorem versionHas_iff {integrationId : Uuid} {sourceOperation : String} :
    d.versionHas id integrationId sourceOperation = true ↔
      ∃ v, d.version id = some v ∧ v.integrationId = integrationId ∧
        v.sourceOperation = sourceOperation := by
  unfold versionHas
  cases d.version id <;> simp

end Registry

section

variable {H : OperationHost} {seen : List Registry}

theorem vetted_getContractVersion (versionId organizationId : Uuid) :
    Vetted (registrySchema H) (getContractVersion versionId organizationId)
      (fun row seen' => ∃ d, seen' = d :: seen ∧ d.version row.id = some row ∧ row.id = versionId)
      seen := by
  refine vetted_look fun d hd => ?_
  split
  · exact trivial
  · next row h =>
    have hrow := List.find?_some h
    refine ⟨d, rfl, ?_, (of_decide_eq_true hrow).1⟩
    exact Rows.get_of_mem (Registry.versionIds_nodup hd) (List.mem_of_find?_eq_some h)

theorem vetted_getBinding (bindingId organizationId : Uuid) :
    Vetted (registrySchema H) (getBinding bindingId organizationId)
      (fun row seen' => ∃ d, seen' = d :: seen ∧ d.binding row.id = some row) seen := by
  refine vetted_look fun d hd => ?_
  split
  · exact trivial
  · next row h =>
    refine ⟨d, rfl, ?_⟩
    exact Rows.get_of_mem (Registry.bindingIds_nodup hd) (List.mem_of_find?_eq_some h)

/-- What only reads leaves what was read before. -/
theorem vetted_getIntegrationIdentity (identityId organizationId : Uuid) :
    Vetted (registrySchema H) (getIntegrationIdentity identityId organizationId)
      (fun _ seen' => seen ⊆ seen') seen := by
  refine vetted_look fun d _ => ?_
  split
  · exact trivial
  · exact List.subset_cons_self d seen

theorem vetted_getIntegration (integrationId organizationId : Uuid) :
    Vetted (registrySchema H) (getIntegration integrationId organizationId)
      (fun _ seen' => seen ⊆ seen') seen := by
  refine vetted_look fun d _ => ?_
  split
  · exact trivial
  · exact List.subset_cons_self d seen

/-! ## Contract versions -/

theorem vetted_createAttempt (integrationId organizationId : Uuid) (f : ContractFields) :
    Vetted (registrySchema H) (createAttempt integrationId organizationId f) (fun _ _ => True) seen := by
  refine vetted_look fun _ _ => vetted_draw fun _ => ?_
  exact vetted_commit (supported_none rfl) (vetted_look fun _ _ => trivial)

theorem vetted_createAttempts (integrationId organizationId : Uuid) (f : ContractFields) :
    ∀ n seen, Vetted (registrySchema H) (createAttempts integrationId organizationId f n) (fun _ _ => True) seen
  | 0, _ => trivial
  | n + 1, seen => by
    refine checked_tryCatch (checked_mono
      (vetted_createAttempt integrationId organizationId f) (fun _ _ h => h) ?_)
    intro e seen _
    split
    · exact vetted_createAttempts integrationId organizationId f n []
    · exact trivial

theorem vetted_createContractVersion (integrationId organizationId : Uuid) (f : ContractFields) :
    Vetted (registrySchema H) (createContractVersion integrationId organizationId f) (fun _ _ => True) [] := by
  refine checked_seq (vetted_getIntegration integrationId organizationId) fun _ seen _ => ?_
  exact vetted_lift fun _ => vetted_createAttempts integrationId organizationId f _ seen

theorem vetted_editDraftContractVersion (versionId organizationId : Uuid) (edit : ContractEdit) :
    Vetted (registrySchema H) (editDraftContractVersion versionId organizationId edit)
      (fun _ _ => True) [] := by
  refine checked_seq (vetted_getContractVersion versionId organizationId) ?_
  rintro row _ ⟨d, rfl, hrow, -⟩
  split
  · exact trivial
  · next hstatus =>
    refine vetted_lift fun _ => vetted_commit_refresh ?_
    exact supported_one rfl (List.mem_singleton_self d)
      (Registry.versionIs_iff.2 ⟨row, hrow, not_not.1 hstatus⟩)

theorem vetted_validateContractVersion (versionId organizationId : Uuid) :
    Vetted (registrySchema H) (validateContractVersion H versionId organizationId) (fun _ _ => True) [] := by
  refine checked_seq (vetted_getContractVersion versionId organizationId) ?_
  rintro row _ ⟨d, rfl, hrow, -⟩
  split
  · exact trivial
  · next hstatus =>
    refine vetted_lift fun _ => vetted_commit_refresh ?_
    refine supported_one rfl (List.mem_singleton_self d) ?_
    simp [hrow, not_not.1 hstatus]

theorem vetted_approveContractVersion (versionId organizationId : Uuid) :
    Vetted (registrySchema H) (approveContractVersion versionId organizationId) (fun _ _ => True) [] := by
  refine checked_seq (vetted_getContractVersion versionId organizationId) ?_
  rintro row _ ⟨d, rfl, hrow, -⟩
  split
  · exact trivial
  · next hstatus =>
    refine vetted_commit_refresh ?_
    exact supported_one rfl (List.mem_singleton_self d)
      (Registry.versionIs_iff.2 ⟨row, hrow, not_not.1 hstatus⟩)

theorem vetted_retireContractVersion (versionId organizationId : Uuid) :
    Vetted (registrySchema H) (retireContractVersion versionId organizationId) (fun _ _ => True) [] := by
  refine checked_seq (vetted_getContractVersion versionId organizationId) ?_
  rintro row _ ⟨d, rfl, hrow, -⟩
  split
  · exact trivial
  · next hstatus =>
    refine vetted_look fun d' _ => ?_
    split
    · exact trivial
    · next hbinding =>
      refine vetted_commit_refresh fun c hc => ?_
      rcases List.mem_cons.1 hc with rfl | hc
      · exact ⟨d, by simp, Registry.versionIs_iff.2 ⟨row, hrow, not_not.1 hstatus⟩⟩
      · rcases List.mem_singleton.1 hc with rfl
        exact ⟨d', by simp, by simpa using hbinding⟩

/-! ## Bindings -/

theorem vetted_newAllowedAgent (bindingId agentId organizationId : Uuid) :
    Vetted (registrySchema H) (newAllowedAgent bindingId agentId organizationId) (fun _ seen' => seen ⊆ seen')
      seen := by
  refine vetted_look fun d _ => ?_
  split
  · exact trivial
  · refine vetted_look fun d' _ => ?_
    dsimp only
    split
    · exact trivial
    · refine vetted_look fun d'' _ => ?_
      intro x hx
      simp [hx]

theorem vetted_newAllowedAgents (bindingId organizationId : Uuid) : ∀ agentIds seen,
    Vetted (registrySchema H) (newAllowedAgents bindingId organizationId agentIds)
      (fun _ seen' => seen ⊆ seen') seen
  | [], seen => List.Subset.refl seen
  | agentId :: agentIds, seen => by
    refine checked_seq (vetted_newAllowedAgent bindingId agentId organizationId) ?_
    intro added seen' hsub
    refine checked_seq (vetted_newAllowedAgents bindingId organizationId agentIds seen') ?_
    intro rest seen'' hsub'
    exact List.Subset.trans hsub hsub'

theorem vetted_createDraftBinding (organizationId identityId versionId : Uuid)
    (environment : String) (agentIds : List Uuid) :
    Vetted (registrySchema H) (createDraftBinding organizationId identityId versionId environment agentIds)
      (fun _ _ => True) [] := by
  refine vetted_lift fun _ => ?_
  refine checked_seq (vetted_getIntegrationIdentity identityId organizationId) fun _ seen _ => ?_
  refine checked_seq (vetted_getContractVersion versionId organizationId) ?_
  rintro version _ ⟨d, rfl, hversion, -⟩
  refine vetted_draw fun id => ?_
  refine checked_seq (vetted_newAllowedAgents id organizationId agentIds (d :: seen)) ?_
  intro added seen' hsub
  refine vetted_commit ?_ (vetted_look fun _ _ => trivial)
  exact supported_one rfl (hsub (List.mem_cons_self ..))
    (Registry.versionHas_iff.2 ⟨version, hversion, rfl, rfl⟩)

/-- What an edit pins is what the binding pinned, or what a version has that was read. -/
theorem vetted_pinnedBy (edit : BindingEdit) (binding : BindingRow) (organizationId : Uuid) :
    Vetted (registrySchema H) (pinnedBy edit binding organizationId)
      (fun pinned seen' => seen ⊆ seen' ∧ (pinned = binding.fields.pinned ∨
        ∃ d ∈ seen', d.versionHas pinned.1 pinned.2.1 pinned.2.2 = true)) seen := by
  unfold pinnedBy
  split
  · exact ⟨List.Subset.refl seen, .inl rfl⟩
  · refine checked_seq (vetted_getContractVersion _ organizationId) ?_
    rintro version _ ⟨d, rfl, hversion, -⟩
    refine ⟨List.subset_cons_self d seen, .inr ⟨d, List.mem_cons_self .., ?_⟩⟩
    exact Registry.versionHas_iff.2 ⟨version, hversion, rfl, rfl⟩

theorem vetted_checkIdentity (organizationId : Uuid) (identityId : Option Uuid) :
    Vetted (registrySchema H) (checkIdentity organizationId identityId) (fun _ seen' => seen ⊆ seen') seen := by
  unfold checkIdentity
  split
  · exact List.Subset.refl seen
  · refine checked_seq (vetted_getIntegrationIdentity _ organizationId) ?_
    intro _ seen' hsub
    exact hsub

theorem vetted_editDraftBinding (bindingId organizationId : Uuid) (edit : BindingEdit) :
    Vetted (registrySchema H) (editDraftBinding bindingId organizationId edit) (fun _ _ => True) [] := by
  refine checked_seq (vetted_getBinding bindingId organizationId) ?_
  rintro binding _ ⟨d, rfl, hbinding⟩
  split
  · exact trivial
  · next hstatus =>
    have hdraft : binding.status = .draft := not_not.1 hstatus
    refine checked_seq (vetted_checkIdentity organizationId edit.integrationIdentityId) ?_
    intro _ seen₁ hsub₁
    refine checked_seq (vetted_pinnedBy edit binding organizationId) ?_
    rintro pinned seen₂ ⟨hsub₂, hpinned⟩
    refine vetted_lift fun _ => vetted_commit_refresh fun c hc => ?_
    rcases List.mem_cons.1 hc with rfl | hc
    · exact ⟨d, hsub₂ (hsub₁ (List.mem_singleton_self d)), by simp [hbinding, hdraft]⟩
    · rcases List.mem_singleton.1 hc with rfl
      rcases hpinned with rfl | ⟨d', hd', hhas⟩
      · exact ⟨d, hsub₂ (hsub₁ (List.mem_singleton_self d)), by simp [BindingFields.pinned]⟩
      · exact ⟨d', hd', by simp [hhas]⟩

theorem vetted_setEnforcementAssurance (bindingId organizationId : Uuid)
    (assurance : EnforcementAssurance) :
    Vetted (registrySchema H) (setEnforcementAssurance bindingId organizationId assurance)
      (fun _ _ => True) [] := by
  refine checked_seq (vetted_getBinding bindingId organizationId) fun _ _ _ => ?_
  exact vetted_commit_refresh (supported_none rfl)

theorem vetted_addAllowedAgent (bindingId organizationId agentId : Uuid) :
    Vetted (registrySchema H) (addAllowedAgent bindingId organizationId agentId) (fun _ _ => True) [] := by
  refine checked_seq (vetted_getBinding bindingId organizationId) ?_
  rintro binding _ ⟨d, rfl, hbinding⟩
  split
  · exact trivial
  · next hstatus =>
    refine checked_seq (vetted_newAllowedAgent binding.id agentId organizationId) ?_
    intro added seen hsub
    refine vetted_commit_refresh (supported_one rfl (hsub (List.mem_singleton_self d)) ?_)
    exact Registry.bindingIs_iff.2 ⟨binding, hbinding, not_not.1 hstatus⟩

theorem vetted_removeAllowedAgent (bindingId organizationId agentId : Uuid) :
    Vetted (registrySchema H) (removeAllowedAgent bindingId organizationId agentId) (fun _ _ => True) [] := by
  refine checked_seq (vetted_getBinding bindingId organizationId) ?_
  rintro binding _ ⟨d, rfl, hbinding⟩
  split
  · exact trivial
  · next hstatus =>
    refine vetted_look fun d' _ => ?_
    refine vetted_commit_refresh (supported_one rfl (d := d) (by simp) ?_)
    exact Registry.bindingIs_iff.2 ⟨binding, hbinding, not_not.1 hstatus⟩

theorem vetted_retireBinding (bindingId organizationId : Uuid) :
    Vetted (registrySchema H) (retireBinding bindingId organizationId) (fun _ _ => True) [] := by
  refine checked_seq (vetted_getBinding bindingId organizationId) ?_
  rintro binding _ ⟨d, rfl, hbinding⟩
  split
  · exact trivial
  · next hstatus =>
    refine vetted_commit_refresh (supported_one rfl (List.mem_singleton_self d) ?_)
    exact Registry.bindingIs_iff.2 ⟨binding, hbinding, not_not.1 hstatus⟩

/-- The agents that are allowed and exist are among those that are allowed. -/
theorem allowList_isEmpty {d : Registry} {id : Uuid}
    (h : ¬(d.agents.filter fun a => (d.allowList id).contains a.id).isEmpty = true) :
    (!(d.allowList id).isEmpty) = true := by
  cases hl : d.allowList id with
  | nil => simp [hl] at h
  | cons a l => rfl

/-- The binding that an activation replaces is active. -/
theorem prior_active {d : Registry} (h : d.admitted = true)
    {scope : Uuid × Uuid × String × String} :
    ((d.bindings.find? fun b => b.status = .active ∧ b.scope = scope).map fun b => b.id).all
      (fun p => d.bindingIs p .active) = true := by
  cases hf : d.bindings.find? fun b => b.status = .active ∧ b.scope = scope with
  | none => rfl
  | some b =>
    have hb := List.find?_some hf
    have hbinding : d.binding b.id = some b :=
      Rows.get_of_mem (Registry.bindingIds_nodup h) (List.mem_of_find?_eq_some hf)
    exact Registry.bindingIs_iff.2 ⟨b, hbinding, (of_decide_eq_true hb).1⟩

theorem vetted_activateBindingAttempt (bindingId organizationId : Uuid) :
    Vetted (registrySchema H) (activateBindingAttempt bindingId organizationId) (fun _ _ => True) seen := by
  refine checked_seq (vetted_getBinding bindingId organizationId) ?_
  rintro binding _ ⟨d₁, rfl, hbinding⟩
  split
  · exact trivial
  next hstatus =>
  refine checked_seq (vetted_getIntegrationIdentity _ organizationId) ?_
  intro identity seen₂ hsub₂
  split
  · exact trivial
  refine checked_seq (vetted_getContractVersion _ organizationId) ?_
  rintro version _ ⟨d₃, rfl, hversion, hid⟩
  split
  · exact trivial
  next happroved =>
  refine checked_seq (vetted_getBinding bindingId organizationId) ?_
  rintro _ _ ⟨d₄, rfl, -⟩
  refine vetted_look fun d₅ _ => ?_
  dsimp only
  split
  · exact trivial
  next hempty =>
  split
  · exact trivial
  refine vetted_look fun d₆ hd₆ => ?_
  refine vetted_commit_refresh fun c hc => ?_
  simp only [registrySchema, RegistryChange.checks, List.mem_cons, List.not_mem_nil, or_false] at hc
  rcases hc with rfl | rfl | rfl | rfl
  · refine ⟨d₁, by simp [hsub₂ (List.mem_cons_self ..)], ?_⟩
    simp [hbinding, not_not.1 hstatus, hid]
  · exact ⟨d₃, by simp, Registry.versionIs_iff.2 ⟨version, hversion, not_not.1 happroved⟩⟩
  · exact ⟨d₅, by simp, allowList_isEmpty hempty⟩
  · exact ⟨d₆, by simp, prior_active hd₆⟩

theorem vetted_activateAttempts (bindingId organizationId : Uuid) :
    ∀ n seen, Vetted (registrySchema H) (activateAttempts bindingId organizationId n) (fun _ _ => True) seen
  | 0, _ => trivial
  | n + 1, seen => by
    refine checked_tryCatch (checked_mono
      (vetted_activateBindingAttempt bindingId organizationId) (fun _ _ h => h) ?_)
    intro e seen _
    split
    · exact vetted_activateAttempts bindingId organizationId n []
    · exact trivial

end

/-! ## Requests -/

/-- Every operation commits only what it has checked. -/
theorem registry_checks (H : OperationHost) :
    ∀ p ∈ registryRequests H, Checks (registrySchema H) p := by
  rintro _ ⟨r, rfl⟩
  cases r with
  | createContractVersion integrationId organizationId f =>
    exact checks_session (vetted_createContractVersion integrationId organizationId f)
  | editContractVersion versionId organizationId edit =>
    exact checks_session (vetted_editDraftContractVersion versionId organizationId edit)
  | validateContractVersion versionId organizationId =>
    exact checks_session (vetted_validateContractVersion versionId organizationId)
  | approveContractVersion versionId organizationId =>
    exact checks_session (vetted_approveContractVersion versionId organizationId)
  | retireContractVersion versionId organizationId =>
    exact checks_session (vetted_retireContractVersion versionId organizationId)
  | createBinding organizationId identityId versionId environment agentIds =>
    exact checks_session
      (vetted_createDraftBinding organizationId identityId versionId environment agentIds)
  | editBinding bindingId organizationId edit =>
    exact checks_session (vetted_editDraftBinding bindingId organizationId edit)
  | setAssurance bindingId organizationId assurance =>
    exact checks_session (vetted_setEnforcementAssurance bindingId organizationId assurance)
  | addAgent bindingId organizationId agentId =>
    exact checks_session (vetted_addAllowedAgent bindingId organizationId agentId)
  | removeAgent bindingId organizationId agentId =>
    exact checks_session (vetted_removeAllowedAgent bindingId organizationId agentId)
  | activateBinding bindingId organizationId =>
    exact checks_session (vetted_activateAttempts bindingId organizationId _ [])
  | retireBinding bindingId organizationId =>
    exact checks_session (vetted_retireBinding bindingId organizationId)
  | elsewhere identities agents principals =>
    exact checks_session (checked_commit (supported_none rfl) trivial trivial trivial)

end PayReality
