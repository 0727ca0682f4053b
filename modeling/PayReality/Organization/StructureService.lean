import PayReality.Lib.Records
import PayReality.Lib.Rows
import PayReality.Store.Rows

/-!
# Business units, departments and teams

`organization_structure_service.py`, and `agent_service.create_principal`, which places a principal.
A department and a team have no organization of their own: it is found by walking up, a statement for
each level, and what was walked may be gone when the operation commits. The foreign keys keep a parent
as long as it has children.
-/

namespace PayReality

open Program RecordProg

/-! ## Rows -/

/-- The three tables, from the one below the organizations down. -/
inductive UnitLevel where
  | businessUnit | department | team
  deriving DecidableEq, Repr

/-- The table of the parents; those of a business unit are organizations. -/
def UnitLevel.up : UnitLevel → Option UnitLevel
  | .businessUnit => none
  | .department => some .businessUnit
  | .team => some .department

/-- A row of `business_units`, `departments` or `teams`; `parentId` is its `organization_id`,
`business_unit_id` or `department_id`. -/
structure UnitRow where
  id : Uuid
  parentId : Uuid
  name : String
  deriving DecidableEq

/-- Where a principal is placed at a level. -/
def Principal.unitAt (p : Principal) : UnitLevel → Option Uuid
  | .businessUnit => p.businessUnitId
  | .department => p.departmentId
  | .team => p.teamId

structure OrgStructure where
  businessUnits : List UnitRow := []
  departments : List UnitRow := []
  teams : List UnitRow := []
  principals : List Principal := []
  /-- The rows that were deleted. No query reads it. -/
  deleted : List (UnitLevel × Uuid) := []

namespace OrgStructure

variable (d : OrgStructure)

def rows : UnitLevel → List UnitRow
  | .businessUnit => d.businessUnits
  | .department => d.departments
  | .team => d.teams

def setRows (rows : List UnitRow) : UnitLevel → OrgStructure
  | .businessUnit => { d with businessUnits := rows }
  | .department => { d with departments := rows }
  | .team => { d with teams := rows }

/-- `db.get`. -/
def get (level : UnitLevel) (id : Uuid) : Option UnitRow := Rows.get (fun u => u.id) (d.rows level) id

def hasParent (level : UnitLevel) (id parentId : Uuid) : Bool :=
  (d.get level id).any fun u => u.parentId = parentId

/-! ### Whose a row is -/

def businessUnitOrganizationId (id : Uuid) : Option Uuid :=
  (d.get .businessUnit id).map UnitRow.parentId

def departmentOrganizationId (id : Uuid) : Option Uuid :=
  (d.get .department id).bind fun u => d.businessUnitOrganizationId u.parentId

def teamOrganizationId (id : Uuid) : Option Uuid :=
  (d.get .team id).bind fun u => d.departmentOrganizationId u.parentId

def organizationOf : UnitLevel → Uuid → Option Uuid
  | .businessUnit => d.businessUnitOrganizationId
  | .department => d.departmentOrganizationId
  | .team => d.teamOrganizationId

/-- The organization that the parents of a row lead to. -/
def organizationOfRow (level : UnitLevel) (u : UnitRow) : Option Uuid :=
  match level.up with
  | none => some u.parentId
  | some up => d.organizationOf up u.parentId

/-- The joins lead from the row to the organization, and it is below the parent if one is named. -/
def lists (level : UnitLevel) (organizationId : Uuid) (parentId : Option Uuid) (u : UnitRow) : Bool :=
  d.organizationOfRow level u = some organizationId && parentId.all (· = u.parentId)

/-- `list_business_units`, `list_departments`, `list_teams`, but for the order. -/
def list (level : UnitLevel) (organizationId : Uuid) (parentId : Option Uuid) : List UnitRow :=
  (d.rows level).filter (d.lists level organizationId parentId)

/-- `list_principals`. -/
def listPrincipals (organizationId : Uuid) : List Principal :=
  d.principals.filter fun p => p.organizationId = some organizationId

/-! ### Constraints -/

/-- The ids of the level are a key. -/
def keyed (level : UnitLevel) : Bool := ((d.rows level).map fun u => u.id).Nodup

/-- Every parent of a row of the level is there. -/
def parentsThere (level : UnitLevel) : Bool :=
  level.up.all fun up => (d.rows level).all fun u => (d.get up u.parentId).isSome

/-- Every row of the level that a principal is placed in is there. -/
def placesThere (level : UnitLevel) : Bool :=
  d.principals.all fun p => (p.unitAt level).all fun id => (d.get level id).isSome

def admitted : Bool :=
  ([UnitLevel.businessUnit, .department, .team].all fun level =>
    d.keyed level && d.parentsThere level && d.placesThere level) &&
  (d.principals.map fun p => p.id).Nodup

end OrgStructure

/-! ## Commits -/

/-- A change, the organization that it is made for, and the parents that were walked to it. -/
inductive StructureChange where
  | create (level : UnitLevel) (row : UnitRow) (organizationId : Uuid) (path : List Uuid)
  | rename (level : UnitLevel) (id : Uuid) (name : String) (organizationId : Uuid) (path : List Uuid)
  | delete (level : UnitLevel) (id organizationId : Uuid) (path : List Uuid)
  | createPrincipal (row : Principal) (organizationId : Uuid) (paths : UnitLevel → List Uuid)

namespace StructureChange

def organizationId : StructureChange → Uuid
  | .create _ _ o _ | .rename _ _ _ o _ | .delete _ _ o _ | .createPrincipal _ o _ => o

def apply : StructureChange → OrgStructure → OrgStructure
  | .create level row _ _, d => d.setRows (d.rows level ++ [row]) level
  | .rename level id name _ _, d =>
    d.setRows (Rows.update (fun u => u.id) (d.rows level) id fun u => { u with name }) level
  | .delete level id _ _, d =>
    { d.setRows ((d.rows level).filter fun u => u.id ≠ id) level with
      deleted := d.deleted ++ [(level, id)] }
  | .createPrincipal row _ _, d => { d with principals := d.principals ++ [row] }

/-- What was read on the way up from a row to its organization. -/
def walked (organizationId : Uuid) : UnitLevel → Uuid → List Uuid → List (OrgStructure → Bool)
  | level, id, [] => [fun d => level.up.isNone && d.hasParent level id organizationId]
  | level, id, p :: path =>
    match level.up with
    | none => [fun _ => false]
    | some up => (fun d => d.hasParent level id p) :: walked organizationId up p path

def checks : StructureChange → List (OrgStructure → Bool)
  | .create level row organizationId path =>
    match level.up with
    | none => [fun _ => row.parentId = organizationId]
    | some up => walked organizationId up row.parentId path
  | .rename level id _ organizationId path => walked organizationId level id path
  | .delete level id organizationId path => walked organizationId level id path
  | .createPrincipal row organizationId paths =>
    (fun _ => decide (row.organizationId = some organizationId)) ::
      [UnitLevel.businessUnit, .department, .team].flatMap fun level =>
        match row.unitAt level with
        | none => []
        | some id => walked organizationId level id (paths level)

/-- A new row has no id of a row that was deleted. -/
def fresh : StructureChange → OrgStructure → Bool
  | .create level row _ _, d => (level, row.id) ∉ d.deleted
  | _, _ => true

end StructureChange

inductive StructureError where
  | notFound (level : UnitLevel)
  | stillReferenced (level : UnitLevel)
  | integrityError
  | attributeError
  | databaseError
  deriving DecidableEq, Repr

/-- The operations of the organizations that are served. -/
def structureSchema (served : Uuid → Bool) : Schema OrgStructure StructureChange StructureError where
  apply := StructureChange.apply
  admits := OrgStructure.admitted
  checks w := (fun _ => served w.organizationId) :: w.checks
  refused := .integrityError
  failed := .databaseError

abbrev StructureProg := RecordProg OrgStructure StructureChange Uuid StructureError

/-! ## The service -/

namespace OrganizationStructureService

/-- `business_unit_organization_id`, with the parents that are walked. -/
def businessUnitOrganizationId (id : Uuid) : StructureProg (Option (Uuid × List Uuid)) := do
  let d ← look
  return (d.get .businessUnit id).map fun u => (u.parentId, [])

def departmentOrganizationId (id : Uuid) : StructureProg (Option (Uuid × List Uuid)) := do
  let d ← look
  match d.get .department id with
  | none => return none
  | some department =>
    let walk ← businessUnitOrganizationId department.parentId
    return walk.map fun w => (w.1, department.parentId :: w.2)

def teamOrganizationId (id : Uuid) : StructureProg (Option (Uuid × List Uuid)) := do
  let d ← look
  match d.get .team id with
  | none => return none
  | some team =>
    let walk ← departmentOrganizationId team.parentId
    return walk.map fun w => (w.1, team.parentId :: w.2)

def organizationIdOf : UnitLevel → Uuid → StructureProg (Option (Uuid × List Uuid))
  | .businessUnit => businessUnitOrganizationId
  | .department => departmentOrganizationId
  | .team => teamOrganizationId

/-- A row of another organization is treated as one that does not exist. -/
def checkOwner (level : UnitLevel) (id organizationId : Uuid) : StructureProg (List Uuid) := do
  match ← organizationIdOf level id with
  | none => throw (.notFound level)
  | some (o, path) =>
    if o ≠ organizationId then throw (.notFound level)
    return path

/-- The parent of a new row; that of a business unit is the organization. -/
def checkParent (level : UnitLevel) (parentId organizationId : Uuid) : StructureProg (List Uuid) :=
  match level.up with
  | none => pure []
  | some up => checkOwner up parentId organizationId

def refresh (level : UnitLevel) (id : Uuid) : StructureProg UnitRow := do
  let d ← look
  match d.get level id with
  | none => throw .databaseError
  | some u => return u

/-- A department and a team are got again after the walk. -/
def getAgain (level : UnitLevel) (id : Uuid) : StructureProg Unit :=
  if level.up.isNone then pure () else do
    let d ← look
    match d.get level id with
    | none => throw .attributeError
    | some _ => return ()

def createUnit (level : UnitLevel) (organizationId parentId : Uuid) (name : String) :
    StructureProg UnitRow := do
  let path ← checkParent level parentId organizationId
  let id ← draw
  commit (.create level ⟨id, parentId, name⟩ organizationId path)
  refresh level id

def updateUnit (level : UnitLevel) (id organizationId : Uuid) (name : String) :
    StructureProg UnitRow := do
  let path ← checkOwner level id organizationId
  getAgain level id
  commit (.rename level id name organizationId path)
  refresh level id

def deleteUnit (level : UnitLevel) (id organizationId : Uuid) : StructureProg Unit := do
  let path ← checkOwner level id organizationId
  getAgain level id
  tryCatch (commit (.delete level id organizationId path)) fun e => do
    if e = .integrityError then
      rollback
      throw (.stillReferenced level)
    throw e

def createBusinessUnit (organizationId : Uuid) (name : String) : StructureProg UnitRow :=
  createUnit .businessUnit organizationId organizationId name

def updateBusinessUnit (businessUnitId organizationId : Uuid) (name : String) : StructureProg UnitRow :=
  updateUnit .businessUnit businessUnitId organizationId name

def deleteBusinessUnit (businessUnitId organizationId : Uuid) : StructureProg Unit :=
  deleteUnit .businessUnit businessUnitId organizationId

def createDepartment (organizationId businessUnitId : Uuid) (name : String) : StructureProg UnitRow :=
  createUnit .department organizationId businessUnitId name

def updateDepartment (departmentId organizationId : Uuid) (name : String) : StructureProg UnitRow :=
  updateUnit .department departmentId organizationId name

def deleteDepartment (departmentId organizationId : Uuid) : StructureProg Unit :=
  deleteUnit .department departmentId organizationId

def createTeam (organizationId departmentId : Uuid) (name : String) : StructureProg UnitRow :=
  createUnit .team organizationId departmentId name

def updateTeam (teamId organizationId : Uuid) (name : String) : StructureProg UnitRow :=
  updateUnit .team teamId organizationId name

def deleteTeam (teamId organizationId : Uuid) : StructureProg Unit :=
  deleteUnit .team teamId organizationId

/-- A row that a principal is placed in, if one is given. -/
def checkPlace (level : UnitLevel) (id : Option Uuid) (organizationId : Uuid) :
    StructureProg (List Uuid) :=
  match id with
  | none => pure []
  | some id => checkOwner level id organizationId

end OrganizationStructureService

open OrganizationStructureService

namespace AgentService

def createPrincipal (name : String) (organizationId : Uuid) (role : Option String)
    (businessUnitId departmentId teamId : Option Uuid) : StructureProg Principal := do
  let unitPath ← checkPlace .businessUnit businessUnitId organizationId
  let departmentPath ← checkPlace .department departmentId organizationId
  let teamPath ← checkPlace .team teamId organizationId
  let row : Principal :=
    { id := ← draw
      name
      organizationId := some organizationId
      businessUnitId
      departmentId
      teamId
      role }
  commit (.createPrincipal row organizationId fun
    | .businessUnit => unitPath
    | .department => departmentPath
    | .team => teamPath)
  let _ ← look
  return row

end AgentService

/-! ## Requests -/

inductive StructureRequest where
  | createBusinessUnit (organizationId : Uuid) (name : String)
  | updateBusinessUnit (businessUnitId organizationId : Uuid) (name : String)
  | deleteBusinessUnit (businessUnitId organizationId : Uuid)
  | createDepartment (organizationId businessUnitId : Uuid) (name : String)
  | updateDepartment (departmentId organizationId : Uuid) (name : String)
  | deleteDepartment (departmentId organizationId : Uuid)
  | createTeam (organizationId departmentId : Uuid) (name : String)
  | updateTeam (teamId organizationId : Uuid) (name : String)
  | deleteTeam (teamId organizationId : Uuid)
  | createPrincipal (name : String) (organizationId : Uuid) (role : Option String)
      (businessUnitId departmentId teamId : Option Uuid)

namespace StructureRequest

/-- The organization that the caller acts for. -/
def organizationId : StructureRequest → Uuid
  | .createBusinessUnit o _ | .updateBusinessUnit _ o _ | .deleteBusinessUnit _ o
  | .createDepartment o _ _ | .updateDepartment _ o _ | .deleteDepartment _ o
  | .createTeam o _ _ | .updateTeam _ o _ | .deleteTeam _ o
  | .createPrincipal _ o _ _ _ _ => o

/-- What the service does for it. -/
def serve : StructureRequest → StructureProg Unit
  | .createBusinessUnit o name => do
    let _ ← OrganizationStructureService.createBusinessUnit o name
  | .updateBusinessUnit id o name => do
    let _ ← OrganizationStructureService.updateBusinessUnit id o name
  | .deleteBusinessUnit id o => OrganizationStructureService.deleteBusinessUnit id o
  | .createDepartment o parentId name => do
    let _ ← OrganizationStructureService.createDepartment o parentId name
  | .updateDepartment id o name => do
    let _ ← OrganizationStructureService.updateDepartment id o name
  | .deleteDepartment id o => OrganizationStructureService.deleteDepartment id o
  | .createTeam o parentId name => do
    let _ ← OrganizationStructureService.createTeam o parentId name
  | .updateTeam id o name => do
    let _ ← OrganizationStructureService.updateTeam id o name
  | .deleteTeam id o => OrganizationStructureService.deleteTeam id o
  | .createPrincipal name o role unitId departmentId teamId => do
    let _ ← AgentService.createPrincipal name o role unitId departmentId teamId

/-- The request in its session, where the organization of the caller has been read. -/
def run (r : StructureRequest) : StructureProg Unit :=
  recordSession do
    let _ ← look
    r.serve

end StructureRequest

end PayReality
