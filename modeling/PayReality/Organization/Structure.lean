import PayReality.Organization.StructureService

/-!
# Whose the rows of a hierarchy are

A row keeps its parent as long as it is there, so the organization that was found by walking up from it
is the one it has when the operation commits.

* `OrgStructure.organizationOf_of_walked`: what was walked, statement by statement, still leads to the
  organization.
* `placed_in_own_organization`: a principal is placed in its own organization.
* `structure_isolated`: what is done for other organizations leaves an organization as it is.
-/

namespace PayReality

open Program RecordProg OrganizationStructureService

/-! ## What is committed has been walked -/

section

variable {served : Uuid → Bool} {d : OrgStructure} {seen seen' : List OrgStructure} {α : Type}

theorem hasParent_of_get {level : UnitLevel} {id : Uuid} {u : UnitRow} (h : d.get level id = some u) :
    d.hasParent level id u.parentId = true := by
  simp [OrgStructure.hasParent, h]

/-- What a walk returns has been read, and what was read before still has. -/
def WalkedFrom (level : UnitLevel) (id : Uuid) (seen : List OrgStructure)
    (r : Option (Uuid × List Uuid)) (seen' : List OrgStructure) : Prop :=
  seen ⊆ seen' ∧ ∀ w, r = some w → Saws (StructureChange.walked w.1 level id w.2) seen'

theorem vetted_businessUnitOrganizationId (id : Uuid) :
    Vetted (structureSchema served) (businessUnitOrganizationId id) (WalkedFrom .businessUnit id seen) seen := by
  refine vetted_look fun d _ => ⟨List.subset_cons_self _ _, fun w hw => ?_⟩
  obtain ⟨u, hu, rfl⟩ := Option.map_eq_some_iff.1 hw
  intro c hc
  rcases List.mem_singleton.1 hc with rfl
  exact ⟨d, List.mem_cons_self, by simp [UnitLevel.up, hasParent_of_get hu]⟩

/-- One level more has been walked. -/
theorem WalkedFrom.above {level up : UnitLevel} {id : Uuid} {u : UnitRow} {seen'' : List OrgStructure}
    {r : Option (Uuid × List Uuid)} (hlevel : level.up = some up) (hu : d.get level id = some u)
    (h : WalkedFrom up u.parentId (d :: seen) r seen'') :
    WalkedFrom level id seen (r.map fun w => (w.1, u.parentId :: w.2)) seen'' := by
  refine ⟨fun x hx => h.1 (List.mem_cons_of_mem _ hx), fun w hw => ?_⟩
  obtain ⟨w', hw', rfl⟩ := Option.map_eq_some_iff.1 hw
  intro c hc
  simp only [StructureChange.walked, hlevel, List.mem_cons] at hc
  rcases hc with rfl | hc
  · exact ⟨d, h.1 List.mem_cons_self, hasParent_of_get hu⟩
  · exact h.2 w' hw' c hc

theorem vetted_departmentOrganizationId (id : Uuid) :
    Vetted (structureSchema served) (departmentOrganizationId id) (WalkedFrom .department id seen) seen := by
  refine vetted_look fun d _ => ?_
  cases hu : d.get .department id with
  | none => exact ⟨List.subset_cons_self _ _, fun w hw => by cases hw⟩
  | some u =>
    refine checked_seq (vetted_businessUnitOrganizationId u.parentId) fun r seen' h => ?_
    exact h.above rfl hu

theorem vetted_teamOrganizationId (id : Uuid) :
    Vetted (structureSchema served) (teamOrganizationId id) (WalkedFrom .team id seen) seen := by
  refine vetted_look fun d _ => ?_
  cases hu : d.get .team id with
  | none => exact ⟨List.subset_cons_self _ _, fun w hw => by cases hw⟩
  | some u =>
    refine checked_seq (vetted_departmentOrganizationId u.parentId) fun r seen' h => ?_
    exact h.above rfl hu

theorem vetted_organizationIdOf (level : UnitLevel) (id : Uuid) :
    Vetted (structureSchema served) (organizationIdOf level id) (WalkedFrom level id seen) seen := by
  cases level with
  | businessUnit => exact vetted_businessUnitOrganizationId id
  | department => exact vetted_departmentOrganizationId id
  | team => exact vetted_teamOrganizationId id

/-- A check for the organization leaves the path that was walked. -/
theorem vetted_checkOwner {level : UnitLevel} {id organizationId : Uuid}
    {f : List Uuid → StructureProg α} {R : α → List OrgStructure → Prop}
    (h : ∀ path seen', seen ⊆ seen' → Saws (StructureChange.walked organizationId level id path) seen' →
      Vetted (structureSchema served) (f path) R seen') :
    Vetted (structureSchema served) (checkOwner level id organizationId >>= f) R seen := by
  refine checked_bind (checked_seq (vetted_organizationIdOf level id) fun r seen' hr => ?_)
  cases r with
  | none => trivial
  | some w =>
    dsimp only
    split
    · trivial
    next howner =>
    refine h w.2 seen' hr.1 ?_
    rw [← not_not.1 howner]
    exact hr.2 w rfl

theorem vetted_refresh (level : UnitLevel) (id : Uuid) :
    Vetted (structureSchema served) (refresh level id) (fun _ _ => True) seen := by
  refine vetted_look fun d _ => ?_
  cases d.get level id <;> trivial

theorem vetted_getAgain {level : UnitLevel} {id : Uuid} {f : Unit → StructureProg α}
    {R : α → List OrgStructure → Prop}
    (h : ∀ seen', seen ⊆ seen' → Vetted (structureSchema served) (f ()) R seen') :
    Vetted (structureSchema served) (getAgain level id >>= f) R seen := by
  unfold getAgain
  split
  · exact h seen (List.Subset.refl _)
  · refine checked_bind (vetted_look fun d _ => ?_)
    cases d.get level id with
    | none => trivial
    | some u => exact h _ (List.subset_cons_self _ _)

/-- What is committed for an organization that is served. -/
theorem supported_of_saws {w : StructureChange} (hserved : served w.organizationId = true)
    (hd : d ∈ seen) (h : Saws w.checks seen) : (structureSchema served).supported w seen := by
  intro c hc
  rcases List.mem_cons.1 hc with rfl | hc
  · exact ⟨d, hd, hserved⟩
  · exact h c hc

theorem vetted_createUnit {level : UnitLevel} {organizationId parentId : Uuid} {name : String}
    (hserved : served organizationId = true) (hd : d ∈ seen)
    (hparent : level.up = none → parentId = organizationId) :
    Vetted (structureSchema served) (createUnit level organizationId parentId name)
      (fun _ _ => True) seen := by
  unfold createUnit checkParent
  cases hup : level.up with
  | none =>
    refine vetted_draw fun id => vetted_commit (supported_of_saws hserved hd ?_) (vetted_refresh _ _)
    intro c hc
    simp only [StructureChange.checks, hup, List.mem_singleton] at hc
    exact ⟨d, hd, by simp [hc, hparent hup]⟩
  | some up =>
    refine vetted_checkOwner fun path seen' hsub hwalked => ?_
    refine vetted_draw fun id =>
      vetted_commit (supported_of_saws hserved (hsub hd) ?_) (vetted_refresh _ _)
    intro c hc
    simp only [StructureChange.checks, hup] at hc
    exact hwalked c hc

theorem vetted_updateUnit {level : UnitLevel} {id organizationId : Uuid} {name : String}
    (hserved : served organizationId = true) (hd : d ∈ seen) :
    Vetted (structureSchema served) (updateUnit level id organizationId name)
      (fun _ _ => True) seen := by
  refine vetted_checkOwner fun path seen' hsub hwalked => ?_
  refine vetted_getAgain fun seen'' hsub' => ?_
  exact vetted_commit (supported_of_saws hserved (hsub' (hsub hd)) (hwalked.mono hsub'))
    (vetted_refresh _ _)

theorem vetted_deleteUnit {level : UnitLevel} {id organizationId : Uuid}
    (hserved : served organizationId = true) (hd : d ∈ seen) :
    Vetted (structureSchema served) (deleteUnit level id organizationId) (fun _ _ => True) seen := by
  refine vetted_checkOwner fun path seen' hsub hwalked => ?_
  refine vetted_getAgain fun seen'' hsub' => ?_
  refine checked_tryCatch (checked_commit
    (supported_of_saws hserved (hsub' (hsub hd)) (hwalked.mono hsub')) trivial ?_ ?_)
  · trivial
  · trivial

/-- The rows that a principal is placed in, level by level. -/
theorem vetted_checkPlace {level : UnitLevel} {place : Option Uuid} {organizationId : Uuid}
    {f : List Uuid → StructureProg α} {R : α → List OrgStructure → Prop}
    (h : ∀ path seen', seen ⊆ seen' →
      (∀ id, place = some id → Saws (StructureChange.walked organizationId level id path) seen') →
      Vetted (structureSchema served) (f path) R seen') :
    Vetted (structureSchema served) (checkPlace level place organizationId >>= f) R seen := by
  cases place with
  | none => exact h [] seen (List.Subset.refl _) fun id hid => by cases hid
  | some id =>
    refine vetted_checkOwner fun path seen' hsub hwalked => h path seen' hsub fun id' hid => ?_
    cases hid
    exact hwalked

theorem vetted_createPrincipal {name : String} {organizationId : Uuid} {role : Option String}
    {businessUnitId departmentId teamId : Option Uuid} (hserved : served organizationId = true)
    (hd : d ∈ seen) :
    Vetted (structureSchema served)
      (AgentService.createPrincipal name organizationId role businessUnitId departmentId teamId)
      (fun _ _ => True) seen := by
  refine vetted_checkPlace fun unitPath seen₁ hsub₁ hunit => ?_
  refine vetted_checkPlace fun departmentPath seen₂ hsub₂ hdepartment => ?_
  refine vetted_checkPlace fun teamPath seen₃ hsub₃ hteam => ?_
  refine vetted_draw fun id => vetted_commit
    (supported_of_saws hserved (hsub₃ (hsub₂ (hsub₁ hd))) ?_) (vetted_look fun _ _ => trivial)
  intro c hc
  rcases List.mem_cons.1 hc with rfl | hc
  · exact ⟨d, hsub₃ (hsub₂ (hsub₁ hd)), decide_eq_true rfl⟩
  · obtain ⟨level, -, hc⟩ := List.mem_flatMap.1 hc
    split at hc
    · cases hc
    next id' hid =>
    cases level with
    | businessUnit => exact ((hunit id' hid).mono fun x hx => hsub₃ (hsub₂ hx)) c hc
    | department => exact ((hdepartment id' hid).mono hsub₃) c hc
    | team => exact hteam id' hid c hc

theorem structure_checks (r : StructureRequest) (hserved : served r.organizationId = true) :
    Checks (structureSchema served) r.run := by
  refine checks_session (vetted_look fun d _ => ?_)
  have hd : d ∈ [d] := List.mem_cons_self
  cases r with
  | createBusinessUnit o name =>
    exact checked_seq (vetted_createUnit hserved hd fun _ => rfl) fun _ _ _ => trivial
  | updateBusinessUnit id o name =>
    exact checked_seq (vetted_updateUnit hserved hd) fun _ _ _ => trivial
  | deleteBusinessUnit id o => exact vetted_deleteUnit hserved hd
  | createDepartment o parentId name =>
    exact checked_seq (vetted_createUnit hserved hd fun h => by cases h) fun _ _ _ => trivial
  | updateDepartment id o name =>
    exact checked_seq (vetted_updateUnit hserved hd) fun _ _ _ => trivial
  | deleteDepartment id o => exact vetted_deleteUnit hserved hd
  | createTeam o parentId name =>
    exact checked_seq (vetted_createUnit hserved hd fun h => by cases h) fun _ _ _ => trivial
  | updateTeam id o name =>
    exact checked_seq (vetted_updateUnit hserved hd) fun _ _ _ => trivial
  | deleteTeam id o => exact vetted_deleteUnit hserved hd
  | createPrincipal name o role unitId departmentId teamId =>
    exact checked_seq (vetted_createPrincipal hserved hd) fun _ _ _ => trivial

end

/-! ## One step -/

/-- Up the hierarchy, from the organizations down. -/
theorem UnitLevel.induction {P : UnitLevel → Prop}
    (h : ∀ level : UnitLevel, (∀ up, level.up = some up → P up) → P level) (level : UnitLevel) :
    P level := by
  have hunit : P .businessUnit := h _ fun up hup => by cases hup
  have hdepartment : P .department := h _ fun up hup => by
    cases hup
    exact hunit
  cases level with
  | businessUnit => exact hunit
  | department => exact hdepartment
  | team =>
    refine h _ fun up hup => ?_
    cases hup
    exact hdepartment

namespace OrgStructure

variable {d d' d'' : OrgStructure} {level : UnitLevel} {id A : Uuid} {u u' : UnitRow}

theorem constraints (hd : d.admitted = true) (level : UnitLevel) :
    d.keyed level = true ∧ d.parentsThere level = true ∧ d.placesThere level = true := by
  have hlevel := List.all_eq_true.1 (Bool.and_eq_true_iff.1 hd).1 level (by cases level <;> simp)
  simpa [Bool.and_eq_true, and_assoc] using hlevel

theorem get_of_mem (hd : d.admitted = true) (hu : u ∈ d.rows level) : d.get level u.id = some u :=
  Rows.get_of_mem (of_decide_eq_true (constraints hd level).1) hu

theorem mem_of_get (h : d.get level id = some u) : u ∈ d.rows level := Rows.mem_of_get h

theorem exists_parent (hd : d.admitted = true) (hu : u ∈ d.rows level) {up : UnitLevel}
    (hup : level.up = some up) : ∃ p, d.get up u.parentId = some p := by
  have h := (constraints hd level).2.1
  unfold parentsThere at h
  rw [hup, Option.all_some, List.all_eq_true] at h
  exact Option.isSome_iff_exists.1 (h u hu)

theorem organizationOf_eq (level : UnitLevel) (id : Uuid) :
    d.organizationOf level id = (d.get level id).bind (d.organizationOfRow level) := by
  cases level with
  | businessUnit =>
    show (d.get .businessUnit id).map UnitRow.parentId = _
    cases d.get .businessUnit id <;> rfl
  | department => rfl
  | team => rfl

/-- The rows that both have are under the same parents. -/
def Agrees (d d' : OrgStructure) : Prop :=
  ∀ level id u u', d.get level id = some u → d'.get level id = some u' → u'.parentId = u.parentId

/-- The rows of `d` are in `d'`, under the same parents, but for what was deleted. -/
structure Continues (d d' : OrgStructure) : Prop where
  rows : ∀ level id u, d.get level id = some u →
    (level, id) ∈ d'.deleted ∨ ∃ u', d'.get level id = some u' ∧ u'.parentId = u.parentId
  deleted : d.deleted ⊆ d'.deleted

/-- What was deleted is not there. -/
def Buried (d : OrgStructure) : Prop := ∀ level id, (level, id) ∈ d.deleted → d.get level id = none

theorem Continues.refl (d : OrgStructure) : d.Continues d :=
  ⟨fun _ _ u hu => .inr ⟨u, hu, rfl⟩, List.Subset.refl _⟩

theorem Continues.trans (h : d.Continues d') (h' : d'.Continues d'') : d.Continues d'' := by
  refine ⟨fun level id u hu => ?_, fun x hx => h'.deleted (h.deleted hx)⟩
  rcases h.rows level id u hu with hdeleted | ⟨u', hu', hparent⟩
  · exact .inl (h'.deleted hdeleted)
  · rcases h'.rows level id u' hu' with hdeleted | ⟨u'', hu'', hparent'⟩
    · exact .inl hdeleted
    · exact .inr ⟨u'', hu'', hparent'.trans hparent⟩

theorem Continues.agrees (h : d.Continues d') (hd' : d'.Buried) : d.Agrees d' := by
  intro level id u u' hu hu'
  rcases h.rows level id u hu with hdeleted | ⟨u'', hu'', hparent⟩
  · rw [hd' level id hdeleted] at hu'
    cases hu'
  · rw [hu'] at hu''
    cases hu''
    exact hparent

/-- Where two databases agree, rows with one parent are of one organization. -/
theorem Agrees.organizationOfRow (h : d.Agrees d') (hd : d.admitted = true) (hd' : d'.admitted = true)
    (hu : u ∈ d.rows level) (hu' : u' ∈ d'.rows level) (hparent : u'.parentId = u.parentId) :
    d'.organizationOfRow level u' = d.organizationOfRow level u := by
  induction level using UnitLevel.induction generalizing u u' with
  | h level ih =>
    unfold OrgStructure.organizationOfRow
    cases hup : level.up with
    | none => exact congrArg some hparent
    | some up =>
      obtain ⟨p, hp⟩ := exists_parent hd hu hup
      obtain ⟨p', hp'⟩ := exists_parent hd' hu' hup
      rw [hparent] at hp'
      dsimp only
      rw [hparent, organizationOf_eq, organizationOf_eq, hp, hp']
      exact ih up hup (mem_of_get hp) (mem_of_get hp') (h up _ p p' hp hp')

theorem Agrees.organizationOf (h : d.Agrees d') (hd : d.admitted = true) (hd' : d'.admitted = true)
    (hu : d.get level id = some u) (hu' : d'.get level id = some u') :
    d'.organizationOf level id = d.organizationOf level id := by
  rw [organizationOf_eq, organizationOf_eq, hu, hu']
  exact h.organizationOfRow hd hd' (mem_of_get hu) (mem_of_get hu') (h level id u u' hu hu')

/-- A row that is still there is of the organization that was found by walking up from it. -/
theorem organizationOf_of_walked (hd : d.admitted = true) {organizationId : Uuid} {path : List Uuid}
    (h : ∀ c ∈ StructureChange.walked organizationId level id path,
      ∃ d', d'.Agrees d ∧ c d' = true)
    (hu : d.get level id = some u) : d.organizationOf level id = some organizationId := by
  -- on the path; the parent of a row that is there is there
  have hread {parentId : Uuid} {d' : OrgStructure} {level : UnitLevel} {id : Uuid} {u : UnitRow}
      (hagrees : d'.Agrees d) (hp : d'.hasParent level id parentId = true)
      (hu : d.get level id = some u) : u.parentId = parentId := by
    obtain ⟨u', hu', hparent⟩ := (Option.any_eq_true _ _).1 hp
    exact (hagrees level id u' u hu' hu).trans (of_decide_eq_true hparent)
  induction path generalizing level id u with
  | nil =>
    obtain ⟨d', hagrees, hc⟩ := h _ (List.mem_singleton_self _)
    obtain ⟨htop, hp⟩ := Bool.and_eq_true_iff.1 hc
    rw [organizationOf_eq, hu, Option.bind_some]
    unfold organizationOfRow
    rw [Option.isNone_iff_eq_none.1 htop, hread hagrees hp hu]
  | cons p path ih =>
    cases hup : level.up with
    | none =>
      obtain ⟨_, -, hc⟩ := h (fun _ => false) (by simp [StructureChange.walked, hup])
      cases hc
    | some up =>
      simp only [StructureChange.walked, hup, List.mem_cons] at h
      obtain ⟨d', hagrees, hc⟩ := h _ (.inl rfl)
      have hparent := hread hagrees hc hu
      obtain ⟨u', hu'⟩ := exists_parent hd (mem_of_get hu) hup
      rw [organizationOf_eq, hu, Option.bind_some]
      unfold organizationOfRow
      rw [hup]
      dsimp only
      rw [hparent] at hu' ⊢
      exact ih (fun c hc => h c (.inr hc)) hu'

/-! ### The tables that a change leaves -/

theorem rows_setRows (rows : List UnitRow) (level level' : UnitLevel) :
    (d.setRows rows level).rows level' = if level' = level then rows else d.rows level' := by
  cases level <;> cases level' <;> rfl

theorem get_setRows (rows : List UnitRow) (level level' : UnitLevel) (id : Uuid) :
    (d.setRows rows level).get level' id =
      if level' = level then Rows.get (fun u => u.id) rows id else d.get level' id := by
  unfold get
  rw [rows_setRows]
  split <;> rfl

theorem deleted_setRows (rows : List UnitRow) (level : UnitLevel) :
    (d.setRows rows level).deleted = d.deleted := by cases level <;> rfl

theorem principals_setRows (rows : List UnitRow) (level : UnitLevel) :
    (d.setRows rows level).principals = d.principals := by cases level <;> rfl

end OrgStructure

namespace StructureChange

open OrgStructure

variable {d : OrgStructure} {level level' : UnitLevel} {id id' organizationId A : Uuid}
  {path : List Uuid} {row u : UnitRow} {name : String}

theorem rows_apply_delete : (apply (.delete level id organizationId path) d).rows level' =
    if level' = level then (d.rows level).filter fun u => u.id ≠ id else d.rows level' := by
  cases level <;> cases level' <;> rfl

theorem principals_apply_delete :
    (apply (.delete level id organizationId path) d).principals = d.principals := by
  cases level <;> rfl

theorem get_apply_create : (apply (.create level row organizationId path) d).get level' id' =
    if level' = level then (d.get level' id').or (if row.id = id' then some row else none)
    else d.get level' id' := by
  unfold apply
  rw [get_setRows]
  split
  · next h =>
    subst h
    rw [Rows.get_append]
    congr 1
    unfold Rows.get
    by_cases hid : row.id = id' <;> simp [hid]
  · rfl

theorem get_apply_rename : (apply (.rename level id name organizationId path) d).get level' id' =
    if level' = level then (d.get level' id').map fun u => if u.id = id then { u with name } else u
    else d.get level' id' := by
  unfold apply
  rw [get_setRows]
  split
  · next h =>
    subst h
    exact Rows.get_update fun _ => rfl
  · rfl

theorem get_apply_delete : (apply (.delete level id organizationId path) d).get level' id' =
    if level' = level ∧ id' = id then none else d.get level' id' := by
  unfold OrgStructure.get Rows.get
  rw [rows_apply_delete]
  by_cases hlevel : level' = level
  · subst hlevel
    rw [if_pos rfl, List.find?_filter]
    by_cases hid : id' = id
    · rw [if_pos ⟨rfl, hid⟩, List.find?_eq_none]
      intro u _
      simp [hid]
    · rw [if_neg fun h => hid h.2]
      congr 1
      funext u
      by_cases hu : u.id = id'
      · simp [hu, hid]
      · simp [hu]
  · rw [if_neg hlevel, if_neg fun h => hlevel h.1]

theorem get_apply_createPrincipal {row : Principal} {paths : UnitLevel → List Uuid} :
    (apply (.createPrincipal row organizationId paths) d).get level' id' = d.get level' id' := by
  cases level' <;> rfl

/-- A change leaves the rows where they are, or buries them. -/
theorem continues (w : StructureChange) (d : OrgStructure) : d.Continues (w.apply d) := by
  cases w with
  | create level row organizationId path =>
    refine ⟨fun level' id' u hu => .inr ⟨u, ?_, rfl⟩, ?_⟩
    · rw [get_apply_create, hu]
      split <;> rfl
    · exact (deleted_setRows _ _).symm ▸ List.Subset.refl _
  | rename level id name organizationId path =>
    refine ⟨fun level' id' u hu => .inr ?_, ?_⟩
    · rw [get_apply_rename, hu]
      split
      · refine ⟨_, rfl, ?_⟩
        dsimp only
        split <;> rfl
      · exact ⟨u, rfl, rfl⟩
    · exact (deleted_setRows _ _).symm ▸ List.Subset.refl _
  | delete level id organizationId path =>
    refine ⟨fun level' id' u hu => ?_, List.subset_append_left _ _⟩
    rw [get_apply_delete]
    by_cases h : level' = level ∧ id' = id
    · obtain ⟨rfl, rfl⟩ := h
      exact .inl (List.mem_append_right _ (List.mem_singleton_self _))
    · rw [if_neg h]
      exact .inr ⟨u, hu, rfl⟩
  | createPrincipal row organizationId paths =>
    refine ⟨fun level' id' u hu => .inr ⟨u, ?_, rfl⟩, List.Subset.refl _⟩
    rw [get_apply_createPrincipal]
    exact hu

/-- What is buried is not created again. -/
theorem buried {w : StructureChange} (hfresh : w.fresh d = true) (hd : d.Buried) :
    (w.apply d).Buried := by
  intro level' id' hdeleted
  cases w with
  | create level row organizationId path =>
    rw [show (apply (.create level row organizationId path) d).deleted = d.deleted from
      deleted_setRows _ _] at hdeleted
    rw [get_apply_create, hd level' id' hdeleted]
    split
    · next hlevel =>
      subst hlevel
      rw [Option.none_or, if_neg]
      intro hid
      subst hid
      exact of_decide_eq_true hfresh hdeleted
    · rfl
  | rename level id name organizationId path =>
    rw [show (apply (.rename level id name organizationId path) d).deleted = d.deleted from
      deleted_setRows _ _] at hdeleted
    rw [get_apply_rename, hd level' id' hdeleted]
    split <;> rfl
  | delete level id organizationId path =>
    rw [get_apply_delete]
    split
    · rfl
    · next h =>
      refine hd level' id' ?_
      rcases List.mem_append.1 hdeleted with hdeleted | hdeleted
      · exact hdeleted
      · obtain ⟨rfl, rfl⟩ := Prod.mk.inj (List.mem_singleton.1 hdeleted)
        exact absurd ⟨rfl, rfl⟩ h
  | createPrincipal row organizationId paths =>
    rw [get_apply_createPrincipal]
    exact hd level' id' hdeleted

end StructureChange

/-! ## Where principals are -/

namespace OrgStructure

/-- A principal of an organization is placed in units, departments and teams of it. -/
def Placed (d : OrgStructure) : Prop :=
  ∀ p ∈ d.principals, ∀ level id, p.unitAt level = some id →
    ∃ o, p.organizationId = some o ∧ d.organizationOf level id = some o

/-- What holds of every database of a run. -/
structure Sound (d : OrgStructure) : Prop where
  admitted : d.admitted = true
  buried : d.Buried
  placed : d.Placed

end OrgStructure

namespace StructureChange

open OrgStructure

variable {w : StructureChange} {d : OrgStructure} {level : UnitLevel} {id A : Uuid}

/-- The row that a principal is placed in is there. -/
theorem exists_place (hd : d.admitted = true) {p : Principal} (hp : p ∈ d.principals)
    (hid : p.unitAt level = some id) : ∃ u, d.get level id = some u := by
  have h := (constraints hd level).2.2
  unfold placesThere at h
  rw [List.all_eq_true] at h
  have hplace := h p hp
  rw [hid] at hplace
  exact Option.isSome_iff_exists.1 hplace

theorem principals_apply : (w.apply d).principals = d.principals ∨
    ∃ row o paths, w = .createPrincipal row o paths ∧ (w.apply d).principals = d.principals ++ [row] := by
  cases w with
  | create => exact .inl (principals_setRows _ _)
  | rename => exact .inl (principals_setRows _ _)
  | delete => exact .inl principals_apply_delete
  | createPrincipal row o paths => exact .inr ⟨row, o, paths, rfl, rfl⟩

/-- What is checked for a new principal: its organization, and the rows that it is placed in. -/
theorem checks_createPrincipal {row : Principal} {o : Uuid} {paths : UnitLevel → List Uuid}
    (hid : row.unitAt level = some id) :
    ∀ c ∈ walked o level id (paths level), c ∈ (createPrincipal row o paths).checks := by
  intro c hc
  refine List.mem_cons_of_mem _ (List.mem_flatMap.2 ⟨level, ?_, ?_⟩)
  · cases level <;> simp
  · rw [hid]
    exact hc

/-- A change keeps everybody placed. -/
theorem sound (hd : d.Sound) (hfresh : w.fresh d = true) (hadmits : (w.apply d).admitted = true)
    (hchecks : ∀ c ∈ w.checks, ∃ d', d'.Agrees d ∧ c d' = true) : (w.apply d).Sound := by
  have hburied := buried hfresh hd.buried
  have hagrees := (continues w d).agrees hburied
  refine ⟨hadmits, hburied, fun p hp level id hid => ?_⟩
  obtain ⟨u', hu'⟩ := exists_place hadmits hp hid
  have hold (hp : p ∈ d.principals) :
      ∃ o, p.organizationId = some o ∧ (w.apply d).organizationOf level id = some o := by
    obtain ⟨o, ho, horg⟩ := hd.placed p hp level id hid
    obtain ⟨u, hu⟩ := exists_place hd.admitted hp hid
    exact ⟨o, ho, (hagrees.organizationOf hd.admitted hadmits hu hu').trans horg⟩
  rcases principals_apply (w := w) (d := d) with hsame | ⟨row, o, paths, rfl, hnew⟩
  · exact hold (hsame ▸ hp)
  · rw [hnew] at hp
    rcases List.mem_append.1 hp with hp | hp
    · exact hold hp
    · rcases List.mem_singleton.1 hp with rfl
      obtain ⟨_, -, horg⟩ := hchecks _ (List.mem_cons_self ..)
      refine ⟨o, of_decide_eq_true horg, ?_⟩
      have hu : d.get level id = some u' := by rwa [get_apply_createPrincipal] at hu'
      rw [hagrees.organizationOf hd.admitted hadmits hu hu']
      exact organizationOf_of_walked hd.admitted
        (fun c hc => hchecks c (checks_createPrincipal hid c hc)) hu

end StructureChange

/-! ## What another organization sees -/

namespace StructureChange

open OrgStructure

variable {w : StructureChange} {d : OrgStructure} {level level' : UnitLevel} {id A organizationId : Uuid}
  {path : List Uuid} {u : UnitRow}

/-- A row of another organization that was walked to is no row of `A`. -/
theorem not_listed_of_walked (hd : d.admitted = true) (hA : organizationId ≠ A)
    (h : ∀ c ∈ walked organizationId level id path, ∃ d', d'.Agrees d ∧ c d' = true)
    (hu : u ∈ d.rows level) (hid : u.id = id) : d.organizationOfRow level u ≠ some A := by
  subst hid
  have horg := organizationOf_of_walked hd h (get_of_mem hd hu)
  rw [organizationOf_eq, get_of_mem hd hu, Option.bind_some] at horg
  rw [horg]
  exact fun h => hA (Option.some.inj h)

/-- The rows that are the same under both, in the table of a level. -/
theorem organizationOfRow_apply (hd : d.Sound) (hfresh : w.fresh d = true)
    (hadmits : (w.apply d).admitted = true) {u' : UnitRow} (hu : u ∈ d.rows level)
    (hu' : u' ∈ (w.apply d).rows level) (hparent : u'.parentId = u.parentId) :
    (w.apply d).organizationOfRow level u' = d.organizationOfRow level u :=
  ((continues w d).agrees (buried hfresh hd.buried)).organizationOfRow hd.admitted hadmits hu hu'
    hparent

theorem organizationOfRow_congr {u u' : UnitRow} (h : u.parentId = u'.parentId) :
    d.organizationOfRow level u = d.organizationOfRow level u' := by
  unfold OrgStructure.organizationOfRow
  rw [h]

/-- A row that is created for another organization is no row of `A`. -/
theorem not_listed_of_created {row : UnitRow} (hd : d.Sound)
    (hfresh : (create level row organizationId path).fresh d = true)
    (hadmits : ((create level row organizationId path).apply d).admitted = true)
    (hchecks : ∀ c ∈ (create level row organizationId path).checks, ∃ d', d'.Agrees d ∧ c d' = true)
    (hA : organizationId ≠ A) :
    ((create level row organizationId path).apply d).organizationOfRow level row ≠ some A := by
  have hrow : row ∈ ((create level row organizationId path).apply d).rows level := by
    rw [apply, rows_setRows, if_pos rfl]
    exact List.mem_append_right _ (List.mem_singleton_self _)
  unfold OrgStructure.organizationOfRow
  cases hup : level.up with
  | none =>
    obtain ⟨_, -, hparent⟩ := hchecks (fun _ => decide (row.parentId = organizationId))
      (by simp [checks, hup])
    dsimp only
    rw [of_decide_eq_true hparent]
    exact fun h => hA (Option.some.inj h)
  | some up =>
    have hne : up ≠ level := by
      intro h
      subst h
      cases up <;> cases hup
    -- the parent is where it was
    obtain ⟨p', hp'⟩ := exists_parent hadmits hrow hup
    have hp : d.get up row.parentId = some p' := by rwa [get_apply_create, if_neg hne] at hp'
    have hagrees := (continues (create level row organizationId path) d).agrees
      (buried hfresh hd.buried)
    dsimp only
    rw [hagrees.organizationOf hd.admitted hadmits hp hp',
      organizationOf_of_walked hd.admitted (fun c hc => hchecks c (by simpa [checks, hup] using hc)) hp]
    exact fun h => hA (Option.some.inj h)

theorem lists_of_ne {parentId : Option Uuid} (h : d.organizationOfRow level u ≠ some A) :
    d.lists level A parentId u = false := by
  simp [OrgStructure.lists, h]

theorem lists_congr {d' : OrgStructure} {parentId : Option Uuid}
    (h : d'.organizationOfRow level u = d.organizationOfRow level u) :
    d'.lists level A parentId u = d.lists level A parentId u := by
  unfold OrgStructure.lists
  rw [h]

/-- A change for another organization leaves the lists of `A`. -/
theorem list_apply (hd : d.Sound) (hfresh : w.fresh d = true) (hadmits : (w.apply d).admitted = true)
    (hchecks : ∀ c ∈ w.checks, ∃ d', d'.Agrees d ∧ c d' = true) (hA : w.organizationId ≠ A)
    (level' : UnitLevel) (parentId : Option Uuid) :
    (w.apply d).list level' A parentId = d.list level' A parentId := by
  have hsame {u : UnitRow} (hu : u ∈ d.rows level') (hu' : u ∈ (w.apply d).rows level') :
      (w.apply d).organizationOfRow level' u = d.organizationOfRow level' u :=
    organizationOfRow_apply hd hfresh hadmits hu hu' rfl
  have hkept (hrows : (w.apply d).rows level' = d.rows level') :
      (w.apply d).list level' A parentId = d.list level' A parentId := by
    unfold OrgStructure.list
    rw [hrows]
    exact List.filter_congr fun u hu => lists_congr (hsame hu (hrows ▸ hu))
  cases w with
  | create level row organizationId path =>
    have hrows := rows_setRows (d := d) (d.rows level ++ [row]) level level'
    by_cases hlevel : level' = level
    · subst hlevel
      rw [if_pos rfl] at hrows
      have hrows' : (apply (.create level' row organizationId path) d).rows level' =
        d.rows level' ++ [row] := hrows
      unfold OrgStructure.list
      rw [hrows', Rows.filter_append_of_false
        (lists_of_ne (not_listed_of_created hd hfresh hadmits hchecks hA))]
      exact List.filter_congr fun u hu => lists_congr (hsame hu (hrows' ▸ List.mem_append_left _ hu))
    · rw [if_neg hlevel] at hrows
      exact hkept hrows
  | rename level id name organizationId path =>
    have hrows := rows_setRows (d := d)
      (Rows.update (fun u => u.id) (d.rows level) id fun u => { u with name }) level level'
    by_cases hlevel : level' = level
    · subst hlevel
      rw [if_pos rfl] at hrows
      have hrows' : (apply (.rename level' id name organizationId path) d).rows level' =
        Rows.update (fun u => u.id) (d.rows level') id fun u => { u with name } := hrows
      -- the organization of a row depends on its parent alone
      have hold {u : UnitRow} (hu : u ∈ d.rows level') :
          (apply (.rename level' id name organizationId path) d).organizationOfRow level' u =
            d.organizationOfRow level' u := by
        have hmem : (if u.id = id then { u with name } else u) ∈
            (apply (.rename level' id name organizationId path) d).rows level' := by
          rw [hrows']
          exact List.mem_map_of_mem hu
        have hparent : (if u.id = id then { u with name } else u).parentId = u.parentId := by
          split <;> rfl
        rw [← organizationOfRow_apply hd hfresh hadmits hu hmem hparent]
        exact organizationOfRow_congr hparent.symm
      unfold OrgStructure.list
      rw [hrows', Rows.filter_update]
      · exact List.filter_congr fun u hu => lists_congr (hold hu)
      · intro u hu hid
        have hnot := not_listed_of_walked hd.admitted hA hchecks hu hid
        rw [← hold hu] at hnot
        exact ⟨lists_of_ne hnot, lists_of_ne hnot⟩
    · rw [if_neg hlevel] at hrows
      exact hkept hrows
  | delete level id organizationId path =>
    have hrows : (apply (.delete level id organizationId path) d).rows level' =
        if level' = level then (d.rows level).filter fun u => u.id ≠ id else d.rows level' :=
      rows_apply_delete
    by_cases hlevel : level' = level
    · subst hlevel
      rw [if_pos rfl] at hrows
      unfold OrgStructure.list
      rw [hrows, List.filter_filter]
      refine List.filter_congr fun u hu => ?_
      by_cases hid : u.id = id
      · have hnot := not_listed_of_walked hd.admitted hA hchecks hu hid
        rw [lists_of_ne hnot, decide_eq_false (p := u.id ≠ id) fun h => h hid, Bool.and_false]
      · have hmem : u ∈ (apply (.delete level' id organizationId path) d).rows level' := by
          rw [hrows]
          exact List.mem_filter.2 ⟨hu, decide_eq_true hid⟩
        rw [lists_congr (hsame hu hmem), decide_eq_true (p := u.id ≠ id) hid, Bool.and_true]
    · rw [if_neg hlevel] at hrows
      exact hkept hrows
  | createPrincipal row organizationId paths =>
    exact hkept (by cases level' <;> rfl)

theorem listPrincipals_apply (hchecks : ∀ c ∈ w.checks, ∃ d', d'.Agrees d ∧ c d' = true)
    (hA : w.organizationId ≠ A) : (w.apply d).listPrincipals A = d.listPrincipals A := by
  unfold OrgStructure.listPrincipals
  rcases principals_apply (w := w) (d := d) with hsame | ⟨row, o, paths, rfl, hnew⟩
  · rw [hsame]
  · rw [hnew]
    obtain ⟨_, -, horg⟩ := hchecks _ (List.mem_cons_self ..)
    refine Rows.filter_append_of_false (decide_eq_false fun h => hA ?_)
    exact Option.some.inj ((of_decide_eq_true horg).symm.trans h)

end StructureChange

/-! ## Runs -/

abbrev StructureWorld (ι : Type) : Type :=
  World (RecordStatement StructureChange) (RecordStatement.Answer OrgStructure Uuid) StructureError
    (Records OrgStructure ι) ι

/-- A run of requests for the organizations that are served, any number at once, where no id is drawn
that a deleted row had. -/
abbrev StructureRun (served : Uuid → Bool) {ι : Type} [DecidableEq ι] (w : StructureWorld ι) : Prop :=
  Reach (((structureSchema served).machine Uuid ι).restrict fun _ q s _ =>
      (structureSchema served).allows StructureChange.fresh q s = true)
    {p | ∃ r : StructureRequest, served r.organizationId = true ∧ p = r.run}
    (fun s => ∃ d ∈ {d : OrgStructure | d.Sound}, s = Records.init d) w

/-- What a run keeps, and what its steps are along. -/
theorem StructureRun.invariant {served : Uuid → Bool} {ι : Type} [DecidableEq ι]
    {w : StructureWorld ι} (h : StructureRun served w) {R : OrgStructure → OrgStructure → Prop}
    (hrefl : ∀ d, R d d) (htrans : ∀ a b c, R a b → R b c → R a c)
    (hstep : ∀ (w : StructureChange) (d : OrgStructure), d.Sound → served w.organizationId = true →
      w.fresh d = true → (w.apply d).admitted = true →
      (∀ c ∈ w.checks, ∃ d', d'.Agrees d ∧ c d' = true) → R d (w.apply d)) :
    w.store.db.Sound ∧ ∀ d ∈ w.store.past, R d w.store.db := by
  have hstarts : ∀ p ∈ {p | ∃ r : StructureRequest, served r.organizationId = true ∧ p = r.run},
      Checks (structureSchema served) p := by
    rintro _ ⟨r, hserved, rfl⟩
    exact structure_checks r hserved
  have hrun := Reach.records hstarts (I := OrgStructure.Sound)
    (R := fun d d' => d.Continues d' ∧ R d d') (fun _ hd => hd)
    (fun d => ⟨OrgStructure.Continues.refl d, hrefl d⟩)
    (fun _ _ _ h h' => ⟨h.1.trans h'.1, htrans _ _ _ h.2 h'.2⟩) (fun _ hd => hd.admitted)
    (fun c d hd hchecks hfresh hadmits => ?_) h
  · exact ⟨hrun.1, fun d hd => (hrun.2 d hd).2⟩
  · obtain ⟨_, _, _, hserved⟩ := hchecks _ (List.mem_cons_self ..)
    have hread : ∀ c' ∈ c.checks, ∃ d', d'.Agrees d ∧ c' d' = true := by
      intro c' hc'
      obtain ⟨d', -, ⟨hcontinues, -⟩, htrue⟩ := hchecks c' (List.mem_cons_of_mem _ hc')
      exact ⟨d', hcontinues.agrees hd.buried, htrue⟩
    exact ⟨StructureChange.sound hd hfresh hadmits hread,
      StructureChange.continues c d, hstep c d hd hserved hfresh hadmits hread⟩

/-- **A principal is placed in its own organization.** -/
theorem placed_in_own_organization {served : Uuid → Bool} {ι : Type} [DecidableEq ι]
    {w : StructureWorld ι} (h : StructureRun served w) :
    ∀ p ∈ w.store.db.principals, ∀ level id, p.unitAt level = some id →
      ∃ o, p.organizationId = some o ∧ w.store.db.organizationOf level id = some o :=
  (h.invariant (R := fun _ _ => True) (fun _ => trivial) (fun _ _ _ _ _ => trivial)
    fun _ _ _ _ _ _ _ => trivial).1.placed

/-- **What is done for other organizations leaves an organization as it is.** -/
theorem structure_isolated {A : Uuid} {ι : Type} [DecidableEq ι] {w : StructureWorld ι}
    (h : StructureRun (fun o => o ≠ A) w) :
    ∀ d ∈ w.store.past,
      (∀ level parentId, w.store.db.list level A parentId = d.list level A parentId) ∧
        w.store.db.listPrincipals A = d.listPrincipals A := by
  refine (h.invariant (R := fun d d' =>
    (∀ level parentId, d'.list level A parentId = d.list level A parentId) ∧
      d'.listPrincipals A = d.listPrincipals A) (fun _ => ⟨fun _ _ => rfl, rfl⟩) ?_ ?_).2
  · rintro a b c ⟨hlist, hprincipals⟩ ⟨hlist', hprincipals'⟩
    exact ⟨fun level parentId => (hlist' level parentId).trans (hlist level parentId),
      hprincipals'.trans hprincipals⟩
  · intro c d hd hserved hfresh hadmits hread
    have hA : c.organizationId ≠ A := of_decide_eq_true hserved
    exact ⟨StructureChange.list_apply hd hfresh hadmits hread hA,
      StructureChange.listPrincipals_apply hread hA⟩

/-! ### Two organizations -/

/-- A department with a principal in it, of organization 1. -/
def staffed : OrgStructure where
  businessUnits := [⟨3, 1, "Finance"⟩]
  departments := [⟨4, 3, "Payables"⟩]
  principals := [{ id := 5, name := "Controller", organizationId := some 1, departmentId := some 4 }]

theorem staffed_sound : staffed.Sound := by
  refine ⟨by decide, fun level id h => (by cases h), fun p hp level id hid => ?_⟩
  rcases List.mem_singleton.1 hp with rfl
  cases level <;> cases hid
  exact ⟨1, rfl, rfl⟩

/-- What two sessions do in turn; each of them draws one id. -/
def playStructure (served : Uuid → Bool) (ts : List (Bool × Option StructureRequest × ℕ)) :
    StructureWorld Bool :=
  (((structureSchema served).scheduleBy fun i => if i then 7 else 8).restrict fun _ q s _ =>
      (structureSchema served).allows StructureChange.fresh q s).play
    (ts.map fun t => ⟨t.1, t.2.1.map StructureRequest.run, t.2.2⟩) ⟨Records.init staffed, fun _ => none⟩

theorem playStructure_run {served : Uuid → Bool} {ts : List (Bool × Option StructureRequest × ℕ)}
    (h : (ts.all fun t => t.2.1.all fun r => served r.organizationId) = true) :
    StructureRun served (playStructure served ts) := by
  refine Schedule.play_reach (.init ⟨staffed, staffed_sound, rfl⟩) fun t ht p hp => ?_
  obtain ⟨e, he, rfl⟩ := List.mem_map.1 ht
  obtain ⟨r, hr, rfl⟩ := Option.map_eq_some_iff.1 hp
  refine ⟨r, ?_, rfl⟩
  have hall := List.all_eq_true.1 h e he
  rwa [hr] at hall

/-- Organization 2 builds a department in a unit of its own, and asks for what is organization 1's. -/
def beside : List (Bool × Option StructureRequest × ℕ) :=
  [(true, some (.createBusinessUnit 2 "Sales"), 10), (false, some (.createDepartment 2 7 "Leads"), 10),
    (true, some (.createPrincipal "Seller" 2 none (some 7) (some 8) none), 20),
    (false, some (.updateDepartment 4 2 "Taken"), 10), (false, some (.deleteBusinessUnit 3 2), 10)]

theorem placed_beside :
    (playStructure (fun _ => true) beside).store.db.principals.length = 2 ∧
    ∀ p ∈ (playStructure (fun _ => true) beside).store.db.principals, ∀ level id,
      p.unitAt level = some id → ∃ o, p.organizationId = some o ∧
        (playStructure (fun _ => true) beside).store.db.organizationOf level id = some o :=
  ⟨by decide +kernel, placed_in_own_organization (playStructure_run (by decide))⟩

theorem isolated_beside :
    (playStructure (fun o => o ≠ 1) beside).store.past.length = 3 ∧
    ∀ d ∈ (playStructure (fun o => o ≠ 1) beside).store.past,
      (∀ level parentId, (playStructure (fun o => o ≠ 1) beside).store.db.list level 1 parentId =
        d.list level 1 parentId) ∧
      (playStructure (fun o => o ≠ 1) beside).store.db.listPrincipals 1 = d.listPrincipals 1 :=
  ⟨by decide +kernel, structure_isolated (playStructure_run (by decide))⟩

end PayReality
