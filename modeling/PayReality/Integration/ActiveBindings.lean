import PayReality.Integration.FrozenVersions

/-!
# Active bindings stay sound

An active binding refers to an approved contract version and allows some agent, and a binding that
was activated keeps its columns and its allow-list (`active_bindings_sound`), in a run in which what
an operation has read of the binding, its version and its allow-list has not been overtaken when it
commits. The services check it when they read.
-/

namespace PayReality

open Program

/-! ## One binding -/

/-- `b'` is what became of `b`. -/
structure BindingRow.Keeps (b b' : BindingRow) : Prop where
  status : b'.status ≠ .draft
  fields : b'.fields = b.fields

namespace BindingRow.Keeps

variable {b b' b'' : BindingRow}

theorem refl (h : b.status ≠ .draft) : b.Keeps b := ⟨h, rfl⟩

theorem trans (h : b.Keeps b') (h' : b'.Keeps b'') : b.Keeps b'' :=
  ⟨h'.status, h'.fields.trans h.fields⟩

end BindingRow.Keeps

/-! ## All of them -/

namespace Registry

/-- What a binding with these columns needs to be active. -/
def Upholds (d : Registry) (id : Uuid) (f : BindingFields) : Prop :=
  d.versionIs f.integrationContractVersionId .approved = true ∧ d.allowList id ≠ []

/-- Every active binding refers to an approved version and allows some agent. -/
def Sound (d : Registry) : Prop :=
  ∀ id b, d.binding id = some b → b.status = .active → d.Upholds id b.fields

/-- A binding of `d` that is no draft keeps its columns and its allow-list in `d'`. -/
def SettledIn (d d' : Registry) : Prop :=
  ∀ id b, d.binding id = some b → b.status ≠ .draft →
    d'.allowList id = d.allowList id ∧ ∃ b', d'.binding id = some b' ∧ b.Keeps b'

variable {d d' d'' : Registry} {id : Uuid}

theorem SettledIn.refl (d : Registry) : d.SettledIn d := fun _ b hb hstatus =>
  ⟨rfl, b, hb, .refl hstatus⟩

theorem SettledIn.trans (h : d.SettledIn d') (h' : d'.SettledIn d'') : d.SettledIn d'' := by
  intro id b hb hstatus
  obtain ⟨hallow, b', hb', hkeeps⟩ := h id b hb hstatus
  obtain ⟨hallow', b'', hb'', hkeeps'⟩ := h' id b' hb' hkeeps.status
  exact ⟨hallow'.trans hallow, b'', hb'', hkeeps.trans hkeeps'⟩

theorem sound_of_unused (h : d.Unused) : d.Sound := by
  intro id b hb
  rw [binding, h.2.1] at hb
  cases hb

theorem binding_updateBinding {f : BindingRow → BindingRow} (hf : ∀ b, (f b).id = b.id) {j : Uuid} :
    (d.updateBinding id f).binding j = (d.binding j).map fun b => if b.id = id then f b else b :=
  Rows.get_update hf

/-- A change of one binding. -/
theorem updateBinding_sound {f : BindingRow → BindingRow} (hf : ∀ b, (f b).id = b.id)
    (hd : d.Sound) (hb : ∀ b, d.binding id = some b →
      ((f b).status = .active → d.Upholds id (f b).fields) ∧
        (b.status ≠ .draft → b.Keeps (f b))) :
    (d.updateBinding id f).Sound ∧ d.SettledIn (d.updateBinding id f) := by
  have hget {j b} (h : d.binding j = some b) :
      (d.updateBinding id f).binding j = some (if b.id = id then f b else b) := by
    rw [binding_updateBinding hf, h]
    rfl
  refine ⟨fun j b' h' => ?_, fun j b h hstatus => ⟨rfl, _, hget h, ?_⟩⟩
  · rw [binding_updateBinding hf, Option.map_eq_some_iff] at h'
    obtain ⟨b, h, rfl⟩ := h'
    split
    · next hid =>
      obtain rfl : j = id := (Rows.key_of_get h).symm.trans hid
      exact (hb b h).1
    · exact hd j b h
  · split
    · next hid =>
      obtain rfl : j = id := (Rows.key_of_get h).symm.trans hid
      exact (hb b h).2 hstatus
    · exact .refl hstatus

/-- A new version. -/
theorem insertVersion_sound {v : ContractVersionRow} (hd : d.Sound) :
    ({ d with contractVersions := d.contractVersions ++ [v] } : Registry).Sound ∧
      d.SettledIn { d with contractVersions := d.contractVersions ++ [v] } := by
  refine ⟨fun j b hb hactive => ?_, SettledIn.refl d⟩
  obtain ⟨happroved, hallow⟩ := hd j b hb hactive
  obtain ⟨v', hversion, hstatus⟩ := versionIs_iff.1 happroved
  refine ⟨versionIs_iff.2 ⟨v', ?_, hstatus⟩, hallow⟩
  show Rows.get (·.id) (d.contractVersions ++ [v]) _ = some v'
  rw [Rows.get_append, show Rows.get (·.id) d.contractVersions _ = some v' from hversion]
  rfl

/-- A change of one version leaves the bindings and what they allow. -/
theorem updateVersion_sound {f : ContractVersionRow → ContractVersionRow}
    (hf : ∀ v, (f v).id = v.id) (hd : d.Sound)
    (hv : ∀ v, d.version id = some v → v.status = .approved →
      (f v).status = .approved ∨ d.hasActiveBinding id = false) :
    (d.updateVersion id f).Sound ∧ d.SettledIn (d.updateVersion id f) := by
  refine ⟨fun j b hb hactive => ?_, SettledIn.refl d⟩
  obtain ⟨happroved, hallow⟩ := hd j b hb hactive
  refine ⟨?_, hallow⟩
  obtain ⟨v, hversion, hstatus⟩ := versionIs_iff.1 happroved
  refine versionIs_iff.2 ⟨if v.id = id then f v else v, ?_, ?_⟩
  · rw [version_updateVersion hf, hversion]
    rfl
  · split
    · next hid =>
      have hb' : b.integrationContractVersionId = id := (Rows.key_of_get hversion).symm.trans hid
      rcases hv v (hb' ▸ hversion) hstatus with h | h
      · exact h
      · have hmem : b ∈ d.bindings := Rows.mem_of_get hb
        simp only [hasActiveBinding, List.any_eq_false, decide_eq_true_eq] at h
        exact absurd ⟨hb', hactive⟩ (h b hmem)
    · exact hstatus

/-- A change of the allow-lists of drafts. -/
theorem allowed_sound {rows : List EnforcementBindingAgent} (hd : d.Sound)
    (h : ∀ j b, d.binding j = some b → b.status ≠ .draft →
      ({ d with allowed := rows } : Registry).allowList j = d.allowList j) :
    ({ d with allowed := rows } : Registry).Sound ∧ d.SettledIn { d with allowed := rows } := by
  refine ⟨fun j b hb hactive => ?_, fun j b hb hstatus => ?_⟩
  · obtain ⟨happroved, hallow⟩ := hd j b hb hactive
    refine ⟨happroved, ?_⟩
    rw [h j b hb (by simp [hactive])]
    exact hallow
  · exact ⟨h j b hb hstatus, b, hb, .refl hstatus⟩

theorem allowList_append {agentIds : List Uuid} {j : Uuid} (h : j = id → agentIds = []) :
    ({ d with allowed := d.allowed ++ agentIds.map fun agentId => ⟨id, agentId⟩ } :
      Registry).allowList j = d.allowList j := by
  have hnone : ((agentIds.map fun agentId => (⟨id, agentId⟩ : EnforcementBindingAgent)).filter
      fun a => a.enforcementBindingId = j) = [] := by
    refine List.filter_eq_nil_iff.2 fun a ha hj => ?_
    obtain ⟨agentId, hagent, rfl⟩ := List.mem_map.1 ha
    rw [h (of_decide_eq_true hj).symm] at hagent
    cases hagent
  unfold allowList
  rw [List.filter_append, hnone, List.append_nil]

theorem allowList_remove {agentIds : List Uuid} {j : Uuid}
    (h : j = id → ∀ a ∈ agentIds, a ∉ d.allowList id) :
    ({ d with allowed := d.allowed.filter fun a =>
        ¬(a.enforcementBindingId = id ∧ a.agentId ∈ agentIds) } : Registry).allowList j =
      d.allowList j := by
  unfold allowList
  rw [List.filter_filter]
  congr 1
  refine List.filter_congr fun a ha => ?_
  by_cases hj : a.enforcementBindingId = j
  · have hkept : ¬(a.enforcementBindingId = id ∧ a.agentId ∈ agentIds) := by
      rintro ⟨rfl, hagent⟩
      refine h hj.symm a.agentId hagent (List.mem_map_of_mem (List.mem_filter.2 ⟨ha, ?_⟩))
      exact decide_eq_true rfl
    simp only [hj, decide_true, Bool.true_and]
    exact decide_eq_true (hj ▸ hkept)
  · simp [hj]

/-- A new draft, with its allow-list. -/
theorem insertBinding_sound {b : BindingRow} {agentIds : List Uuid} (hd : d.Sound)
    (hdraft : b.status = .draft) (hnew : d.binding id = none) :
    let d' : Registry :=
      { d with
        bindings := d.bindings ++ [b]
        allowed := d.allowed ++ agentIds.map fun agentId => ⟨id, agentId⟩ }
    d'.Sound ∧ d.SettledIn d' := by
  intro d'
  have hget (j : Uuid) : d'.binding j = (d.binding j).or (Rows.get (·.id) [b] j) := Rows.get_append
  have hallow {j b₀} (h : d.binding j = some b₀) : d'.allowList j = d.allowList j := by
    refine allowList_append fun hj => ?_
    rw [hj, hnew] at h
    cases h
  refine ⟨fun j b' hb' hactive => ?_, fun j b' hb' hstatus => ?_⟩
  · rw [hget] at hb'
    rcases Option.or_eq_some_iff.1 hb' with hb' | ⟨-, hb'⟩
    · obtain ⟨happroved, hnonempty⟩ := hd j b' hb' hactive
      exact ⟨happroved, hallow hb' ▸ hnonempty⟩
    · rw [List.mem_singleton.1 (Rows.mem_of_get hb'), hdraft] at hactive
      cases hactive
  · refine ⟨hallow hb', b', ?_, .refl hstatus⟩
    rw [hget, hb']
    rfl

end Registry

/-! ## Runs -/

/-- The binding is a draft where one that was read was. -/
def Registry.draftSince (d : Registry) (id : Uuid) (seen : List Registry) : Bool :=
  seen.all fun d' => d'.bindingIs id .draft = true → d.bindingIs id .draft = true

/-- Since the operation read them, no binding of the version that leaves its status has been activated,
the binding that is changed has remained a draft, and an activation's binding has kept its version,
the version its approval, and the allow-list some agent. -/
def RegistryChange.settles : RegistryChange → List Registry → Registry → Bool
  | .validateVersion id _, seen, d | .retireVersion id, seen, d =>
    seen.all fun d' => d.hasActiveBinding id = true → d'.hasActiveBinding id = true
  | .editBinding id old new, seen, d => new = old ∨ d.draftSince id seen = true
  | .addAgents id agentIds, seen, d | .removeAgents id agentIds, seen, d =>
    agentIds = [] ∨ d.draftSince id seen = true
  | .activateBinding id versionId _, seen, d =>
    seen.all fun d' => (d'.versionIs versionId .approved = true → d.versionIs versionId .approved = true) ∧
      (d'.allowList id ≠ [] → d.allowList id ≠ []) ∧
        (d'.binding id).map (fun b => b.integrationContractVersionId) =
          (d.binding id).map fun b => b.integrationContractVersionId
  | _, _, _ => true

/-- A retired binding. -/
theorem Registry.retire_sound {d : Registry} (hd : d.Sound) (id : Uuid) :
    (d.updateBinding id RegistryChange.retire).Sound ∧
      d.SettledIn (d.updateBinding id RegistryChange.retire) :=
  Registry.updateBinding_sound (fun _ => rfl) hd fun _ _ =>
    ⟨fun h => (by cases h), fun _ => ⟨fun h => (by cases h), rfl⟩⟩

/-- An activated binding. -/
theorem Registry.activate_sound {d : Registry} (hd : d.Sound) {id : Uuid}
    (h : ∀ b, d.binding id = some b → d.Upholds id b.fields) :
    (d.updateBinding id fun b => { b with status := .active }).Sound ∧
      d.SettledIn (d.updateBinding id fun b => { b with status := .active }) :=
  Registry.updateBinding_sound (fun _ => rfl) hd fun b hb =>
    ⟨fun _ => h b hb, fun _ => ⟨fun h => (by cases h), rfl⟩⟩

/-- A binding that was read as a draft is one still. -/
theorem Registry.isDraft {d : Registry} {id : Uuid} {seen : List Registry}
    (hread : ∃ d' ∈ seen, d'.bindingIs id .draft = true) (hsince : d.draftSince id seen = true)
    {b : BindingRow} (hb : d.binding id = some b) : b.status = .draft := by
  obtain ⟨b', hb', hstatus⟩ := bindingIs_iff.1 (holds_since hread hsince)
  rw [Option.some.inj (hb.symm.trans hb')]
  exact hstatus

/-- No active binding refers to a version that is not approved. -/
theorem Registry.Sound.no_active {d : Registry} (hd : d.Sound) (h : d.admitted = true) {id : Uuid}
    {v : ContractVersionRow} (hv : d.version id = some v) (hstatus : v.status ≠ .approved) :
    d.hasActiveBinding id = false := by
  refine List.any_eq_false.2 fun b hb hactive => ?_
  obtain ⟨hid, hactive⟩ := of_decide_eq_true hactive
  have hbinding : d.binding b.id = some b := Rows.get_of_mem (bindingIds_nodup h) hb
  obtain ⟨v', hv', happroved⟩ := versionIs_iff.1 (hd b.id b hbinding hactive).1
  have hv'' : d.version id = some v' := hid ▸ hv'
  exact hstatus (Option.some.inj (hv.symm.trans hv'') ▸ happroved)

/-- What a change that settles does to the bindings. -/
theorem RegistryChange.settles_step {H : OperationHost} {w : RegistryChange} {seen : List Registry}
    {d : Registry} (hd : d.Sound) (hseen : ∀ d' ∈ seen, d'.admitted = true ∧ d'.Sound)
    (hchecks : ∀ c ∈ w.checks H, ∃ d' ∈ seen, c d' = true) (hok : w.settles seen d = true)
    (hadmits : (w.apply d).admitted = true) : (w.apply d).Sound ∧ d.SettledIn (w.apply d) := by
  -- a version that no active binding referred to when it was read has none
  have hnone {id : Uuid} {d' : Registry} (hd' : d' ∈ seen) (hread : d'.hasActiveBinding id = false)
      (hsince : (seen.all fun d' =>
        decide (d.hasActiveBinding id = true → d'.hasActiveBinding id = true)) = true) :
      d.hasActiveBinding id = false := by
    by_contra hactive
    have hactive' := of_decide_eq_true (List.all_eq_true.1 hsince d' hd') (by simpa using hactive)
    rw [hread] at hactive'
    cases hactive'
  cases w with
  | insertVersion id integrationId organizationId version f =>
    exact Registry.insertVersion_sound hd
  | editVersion id old new =>
    exact Registry.updateVersion_sound (fun _ => rfl) hd fun v _ h => .inl h
  | validateVersion id contentHash =>
    obtain ⟨d', hd', hread⟩ := hchecks _ (List.mem_singleton_self _)
    obtain ⟨v, hv, hdraft⟩ := (Option.any_eq_true _ _).1 hread
    obtain ⟨hadmits', hsound'⟩ := hseen d' hd'
    have hread' : d'.hasActiveBinding id = false :=
      hsound'.no_active hadmits' hv (by simp [(of_decide_eq_true hdraft).1])
    exact Registry.updateVersion_sound (fun _ => rfl) hd fun v _ _ => .inr (hnone hd' hread' hok)
  | approveVersion id =>
    exact Registry.updateVersion_sound (fun _ => rfl) hd fun v _ _ => .inl rfl
  | retireVersion id =>
    obtain ⟨d', hd', hread⟩ := hchecks _ (List.mem_cons_of_mem _ (List.mem_singleton_self _))
    exact Registry.updateVersion_sound (fun _ => rfl) hd fun v _ _ =>
      .inr (hnone hd' (by simpa using hread) hok)
  | insertBinding id organizationId f agentIds =>
    exact Registry.insertBinding_sound hd rfl
      (Rows.get_of_nodup_append (Registry.bindingIds_nodup hadmits))
  | editBinding id old new =>
    refine Registry.updateBinding_sound (fun _ => rfl) hd fun b hb => ?_
    obtain ⟨d', hd', hread⟩ := hchecks _ List.mem_cons_self
    obtain ⟨b', hb', hread⟩ := (Option.any_eq_true _ _).1 hread
    rcases of_decide_eq_true hok with rfl | hsince
    · have hsame : new.update new b.fields = b.fields := by simp [BindingFields.update]
      rw [hsame]
      exact ⟨hd id b hb, .refl⟩
    · have hdraft := Registry.isDraft
        ⟨d', hd', Registry.bindingIs_iff.2 ⟨b', hb', (of_decide_eq_true hread).1⟩⟩ hsince hb
      exact ⟨fun h => (by cases hdraft.symm.trans h), fun h => absurd hdraft h⟩
  | addAgents id agentIds =>
    refine Registry.allowed_sound hd fun j b hb hstatus => Registry.allowList_append ?_
    rintro rfl
    refine (of_decide_eq_true hok).resolve_right fun hsince => hstatus ?_
    exact Registry.isDraft (hchecks _ (List.mem_singleton_self _)) hsince hb
  | removeAgents id agentIds =>
    refine Registry.allowed_sound hd fun j b hb hstatus => Registry.allowList_remove ?_
    rintro rfl
    rcases of_decide_eq_true hok with rfl | hsince
    · intro a ha
      cases ha
    · exact absurd (Registry.isDraft (hchecks _ (List.mem_singleton_self _)) hsince hb) hstatus
  | activateBinding id versionId prior =>
    simp only [checks, List.forall_mem_cons] at hchecks
    obtain ⟨⟨d₁, hd₁, hpins⟩, ⟨d₂, hd₂, happroved⟩, ⟨d₃, hd₃, hallow⟩, -⟩ := hchecks
    have hsince (d') (hd' : d' ∈ seen) := of_decide_eq_true (List.all_eq_true.1 hok d' hd')
    have hid : ∀ b, d.binding id = some b → d.Upholds id b.fields := by
      intro b hb
      obtain ⟨b₁, hb₁, hpins⟩ := (Option.any_eq_true _ _).1 hpins
      have hversion := (hsince d₁ hd₁).2.2
      rw [hb, hb₁] at hversion
      have hversion : b.integrationContractVersionId = versionId :=
        (Option.some.inj hversion).symm.trans (of_decide_eq_true hpins).2
      refine ⟨?_, (hsince d₃ hd₃).2.1 (by simpa using hallow)⟩
      rw [show b.fields.integrationContractVersionId = versionId from hversion]
      exact (hsince d₂ hd₂).1 happroved
    cases prior with
    | none => exact Registry.activate_sound hd hid
    | some p =>
      obtain ⟨hsound, hsettled⟩ := Registry.retire_sound hd p
      have hid' : ∀ b, (d.updateBinding p retire).binding id = some b →
          (d.updateBinding p retire).Upholds id b.fields := by
        intro b' hb'
        rw [Registry.binding_updateBinding (f := retire) fun _ => rfl, Option.map_eq_some_iff] at hb'
        obtain ⟨b, hb, rfl⟩ := hb'
        split
        · exact hid b hb
        · exact hid b hb
      obtain ⟨hsound', hsettled'⟩ := Registry.activate_sound hsound hid'
      exact ⟨hsound', hsettled.trans hsettled'⟩
  | retireBinding id => exact Registry.retire_sound hd id
  | setAssurance id assurance =>
    exact Registry.updateBinding_sound (fun _ => rfl) hd fun b hb =>
      ⟨hd id b hb, fun h => ⟨h, rfl⟩⟩
  | elsewhere identities agents principals => exact ⟨hd, .refl d⟩

/-- **Active bindings stay sound.** -/
theorem active_bindings_sound {H : OperationHost} {ι : Type} [DecidableEq ι]
    {w : World (RecordStatement RegistryChange) (RecordStatement.Answer Registry Uuid) PyError
      (Records Registry ι) ι} (h : RegistryRun H RegistryChange.settles w) :
    w.store.db.Sound ∧ ∀ d ∈ w.store.past, d.SettledIn w.store.db := by
  have hrun := Reach.records_seen (registry_checks H)
    (I := fun d => d.admitted = true ∧ d.Sound) (R := Registry.SettledIn)
    (fun d hd => ⟨Registry.admitted_of_unused hd, Registry.sound_of_unused hd⟩)
    Registry.SettledIn.refl (fun _ _ _ => Registry.SettledIn.trans) (fun _ hd => hd.1) ?_ h
  · exact ⟨hrun.1.2, hrun.2⟩
  · intro c seen d hd hseen hchecks hok hadmits
    obtain ⟨hsound, hsettled⟩ :=
      RegistryChange.settles_step hd.2 (fun d' hd' => (hseen d' hd').1) hchecks hok hadmits
    exact ⟨⟨hadmits, hsound⟩, hsettled⟩

/-! ### Two sessions -/

/-- A draft binding of an approved version, with an agent; version and binding have the id 1. -/
def draftBinding : List (Bool × Option RegistryRequest × ℕ) :=
  approval ++ [(true, some (.createBinding 7 3 1 "production" [2]), 20)]

def activation : List (Bool × Option RegistryRequest × ℕ) :=
  draftBinding ++ [(true, some (.activateBinding 1 7), 20)]

theorem active_bindings_sound_activation :
    (playRegistry RegistryChange.settles activation).store.db.bindingIs 1 .active = true ∧
    (playRegistry RegistryChange.settles activation).store.db.Sound ∧
    ∀ d ∈ (playRegistry RegistryChange.settles activation).store.past,
      d.SettledIn (playRegistry RegistryChange.settles activation).store.db :=
  ⟨by decide +kernel, active_bindings_sound (playRegistry_run _ activation)⟩

/-- The version of a binding is retired while the binding is activated: no active binding refers to
it when that is looked up, and it is approved when the activation looks. -/
def crossing : List (Bool × Option RegistryRequest × ℕ) :=
  draftBinding ++ [(true, some (.retireContractVersion 1 7), 2),
    (false, some (.activateBinding 1 7), 20), (true, none, 20)]

/-- An active binding of a retired version. -/
theorem active_bindings_crossing : ∃ w : World (RecordStatement RegistryChange)
      (RecordStatement.Answer Registry Uuid) PyError (Records Registry Bool) Bool,
    RegistryRun adapterHost (fun _ _ _ => true) w ∧ ∃ b,
      w.store.db.binding 1 = some b ∧ b.status = .active ∧
        w.store.db.versionIs b.integrationContractVersionId .retired = true := by
  refine ⟨_, playRegistry_run (fun _ _ _ => true) crossing, ?_⟩
  have h : ((playRegistry (fun _ _ _ => true) crossing).store.db.binding 1).any (fun b =>
      b.status = .active ∧ (playRegistry (fun _ _ _ => true) crossing).store.db.versionIs
        b.integrationContractVersionId .retired = true) = true := by
    decide +kernel
  obtain ⟨b, hb, h⟩ := Option.any_eq_true _ _ |>.1 h
  exact ⟨b, hb, of_decide_eq_true h⟩

end PayReality
