/-
The access-control policy: levels of agents and principals on sessions, permissions of principals on
agents, catalog roles at three scopes, and dataset permissions. Every grant is one upsert into a
table of its own, and every check reads the rows of the subject it names.
-/
import Mesa.Foundation.InForce
import Mesa.Foundation.Result
import Mesa.Foundation.Run
import Mesa.Foundation.Table

namespace Mesa.Security

open Mesa.Foundation

/-! ## Levels, roles and permissions -/

inductive AccessLevel
  | read | write | admin
  deriving DecidableEq

/-- `_ACCESS_LEVELS`. -/
def AccessLevel.rank : AccessLevel → Nat
  | .read => 1
  | .write => 2
  | .admin => 3

def AccessLevel.ofText : String → Option AccessLevel
  | "READ" => some .read
  | "WRITE" => some .write
  | "ADMIN" => some .admin
  | _ => none

/-- `_access_level_satisfies`. -/
def AccessLevel.satisfies (granted required : AccessLevel) : Bool := decide (granted.rank ≥ required.rank)

inductive CatalogRole
  | reader | writer | owner
  deriving DecidableEq

def CatalogRole.level : CatalogRole → Nat
  | .reader => 1
  | .writer => 2
  | .owner => 3

def CatalogRole.ofText : String → Option CatalogRole
  | "READER" => some .reader
  | "WRITER" => some .writer
  | "OWNER" => some .owner
  | _ => none

inductive DatasetPermission
  | purge | rollback
  deriving DecidableEq

def DatasetPermission.ofText : String → Option DatasetPermission
  | "PURGE" => some .purge
  | "ROLLBACK" => some .rollback
  | _ => none

inductive PrincipalPermission
  | read | write | sessionCreate | sessionRead | sessionUpdate | statusRead | purge | admin
  deriving DecidableEq

def PrincipalPermission.ofText : String → Option PrincipalPermission
  | "READ" => some .read
  | "WRITE" => some .write
  | "SESSION_CREATE" => some .sessionCreate
  | "SESSION_READ" => some .sessionRead
  | "SESSION_UPDATE" => some .sessionUpdate
  | "STATUS_READ" => some .statusRead
  | "PURGE" => some .purge
  | "ADMIN" => some .admin
  | _ => none

/-- The permissions that are levels, too. -/
def PrincipalPermission.level : PrincipalPermission → Option AccessLevel
  | .read => some .read
  | .write => some .write
  | .admin => some .admin
  | _ => none

/-! ## Tables -/

/-- A row of `permissions`. -/
structure Permission where
  agentId : String
  sessionId : String
  accessLevel : AccessLevel
  deriving DecidableEq

structure PrincipalAgentPermission where
  principalId : String
  agentId : String
  permission : PrincipalPermission
  deriving DecidableEq

/-- A row of `principal_session_permissions`; the agent is not part of its key. -/
structure PrincipalSessionPermission where
  principalId : String
  agentId : String
  sessionId : String
  accessLevel : AccessLevel
  deriving DecidableEq

structure PrincipalTenantRole where
  principalId : String
  tenantId : String
  role : CatalogRole
  deriving DecidableEq

structure PrincipalWorkspaceRole where
  principalId : String
  tenantId : String
  workspaceId : String
  role : CatalogRole
  deriving DecidableEq

structure PrincipalDatasetRole where
  principalId : String
  tenantId : String
  workspaceId : String
  datasetId : String
  role : CatalogRole
  deriving DecidableEq

structure PrincipalDatasetPermission where
  principalId : String
  tenantId : String
  datasetId : String
  permission : DatasetPermission
  deriving DecidableEq

instance : Keyed Permission (String × String) := ⟨fun r => (r.agentId, r.sessionId)⟩
instance : Keyed PrincipalAgentPermission (String × String × PrincipalPermission) :=
  ⟨fun r => (r.principalId, r.agentId, r.permission)⟩
instance : Keyed PrincipalSessionPermission (String × String) := ⟨fun r => (r.principalId, r.sessionId)⟩
instance : Keyed PrincipalTenantRole (String × String) := ⟨fun r => (r.principalId, r.tenantId)⟩
instance : Keyed PrincipalWorkspaceRole (String × String × String) :=
  ⟨fun r => (r.principalId, r.tenantId, r.workspaceId)⟩
instance : Keyed PrincipalDatasetRole (String × String × String × String) :=
  ⟨fun r => (r.principalId, r.tenantId, r.workspaceId, r.datasetId)⟩
instance : Keyed PrincipalDatasetPermission (String × String × String × DatasetPermission) :=
  ⟨fun r => (r.principalId, r.tenantId, r.datasetId, r.permission)⟩

/-- The policy database. -/
structure Policy where
  permissions : Table Permission
  principalAgentPermissions : Table PrincipalAgentPermission
  principalSessionPermissions : Table PrincipalSessionPermission
  principalTenantRoles : Table PrincipalTenantRole
  principalWorkspaceRoles : Table PrincipalWorkspaceRole
  principalDatasetRoles : Table PrincipalDatasetRole
  principalDatasetPermissions : Table PrincipalDatasetPermission

def Policy.empty : Policy := ⟨.empty, .empty, .empty, .empty, .empty, .empty, .empty⟩

/-! ## Operations -/

/-- A `ValueError`. -/
structure AccessError where
  message : String
  deriving DecidableEq

inductive RoleScope
  | tenant
  | workspace (workspaceId : String)
  | dataset (workspaceId datasetId : String)
  deriving DecidableEq

/-- The scope that the optional ids of a role name: an empty id is none, and a dataset needs its workspace. -/
def roleScope (workspaceId datasetId : Option String) : Option RoleScope :=
  match datasetId.filter (· ≠ ""), workspaceId.filter (· ≠ "") with
  | some d, some w => some (.dataset w d)
  | some _, none => none
  | none, some w => some (.workspace w)
  | none, none => some .tenant

inductive AccessOperation
  | grantAccess (agentId sessionId level : String)
  | revokeAccess (agentId sessionId : String)
  | grantPrincipalPermission (principalId agentId permission : String)
  | grantPrincipalSessionAccess (principalId agentId sessionId level : String)
  | grantScopeRole (principalId tenantId role : String) (workspaceId datasetId : Option String)
  | revokeScopeRole (principalId tenantId : String) (workspaceId datasetId : Option String)
  | grantDatasetPermission (principalId tenantId datasetId permission : String)
  | revokeDatasetPermission (principalId tenantId datasetId permission : String)

variable (upper : String → String) (p : Policy)

/-- `_validate_access_level`. -/
def validateAccessLevel (level fieldName : String) : Except AccessError AccessLevel :=
  match AccessLevel.ofText level with
  | some l => .ok l
  | none => .error ⟨fieldName ++ " must be one of: READ, WRITE, ADMIN"⟩

def Policy.grantAccess (agentId sessionId level : String) : Except AccessError Policy := do
  let l ← validateAccessLevel level "Invalid access level"
  pure { p with
    permissions := p.permissions.upsert ⟨agentId, sessionId, l⟩ fun r =>
      { r with accessLevel := higher AccessLevel.rank r.accessLevel l } }

def Policy.revokeAccess (agentId sessionId : String) : Policy :=
  { p with permissions := p.permissions.delete fun r => decide (r.agentId = agentId ∧ r.sessionId = sessionId) }

def Policy.grantPrincipalPermission (principalId agentId permission : String) : Except AccessError Policy :=
  match PrincipalPermission.ofText permission with
  | some granted => .ok { p with
      principalAgentPermissions := p.principalAgentPermissions.insertOrIgnore ⟨principalId, agentId, granted⟩ }
  | none => .error ⟨"Invalid principal permission: " ++ permission⟩

/-- The upsert keeps the higher level, and takes the agent of the new grant. -/
def Policy.grantPrincipalSessionAccess (principalId agentId sessionId level : String) : Except AccessError Policy := do
  let l ← validateAccessLevel level "session access level"
  pure { p with
    principalSessionPermissions := p.principalSessionPermissions.upsert ⟨principalId, agentId, sessionId, l⟩ fun r =>
      { r with agentId := agentId, accessLevel := higher AccessLevel.rank r.accessLevel l } }

def Policy.setRole (principalId tenantId : String) (role : CatalogRole) : RoleScope → Policy
  | .tenant => { p with
      principalTenantRoles := p.principalTenantRoles.upsert ⟨principalId, tenantId, role⟩ fun r =>
        { r with role := role } }
  | .workspace w => { p with
      principalWorkspaceRoles := p.principalWorkspaceRoles.upsert ⟨principalId, tenantId, w, role⟩ fun r =>
        { r with role := role } }
  | .dataset w d => { p with
      principalDatasetRoles := p.principalDatasetRoles.upsert ⟨principalId, tenantId, w, d, role⟩ fun r =>
        { r with role := role } }

def Policy.dropRole (principalId tenantId : String) : RoleScope → Policy
  | .tenant => { p with
      principalTenantRoles := p.principalTenantRoles.delete fun r =>
        decide (r.principalId = principalId ∧ r.tenantId = tenantId) }
  | .workspace w => { p with
      principalWorkspaceRoles := p.principalWorkspaceRoles.delete fun r =>
        decide (r.principalId = principalId ∧ r.tenantId = tenantId ∧ r.workspaceId = w) }
  | .dataset w d => { p with
      principalDatasetRoles := p.principalDatasetRoles.delete fun r =>
        decide (r.principalId = principalId ∧ r.tenantId = tenantId ∧ r.workspaceId = w ∧ r.datasetId = d) }

def Policy.grantScopeRole (principalId tenantId role : String) (workspaceId datasetId : Option String) :
    Except AccessError Policy :=
  match CatalogRole.ofText (upper role), roleScope workspaceId datasetId with
  | none, _ => .error ⟨"invalid catalog role"⟩
  | some _, none => .error ⟨"dataset role requires workspace"⟩
  | some granted, some scope => .ok (p.setRole principalId tenantId granted scope)

def Policy.revokeScopeRole (principalId tenantId : String) (workspaceId datasetId : Option String) :
    Except AccessError Policy :=
  match roleScope workspaceId datasetId with
  | none => .error ⟨"dataset role revocation requires workspace"⟩
  | some scope => .ok (p.dropRole principalId tenantId scope)

def datasetPermission (permission : String) : Except AccessError DatasetPermission :=
  match DatasetPermission.ofText (upper permission) with
  | some named => .ok named
  | none => .error ⟨"invalid dataset permission"⟩

def Policy.grantDatasetPermission (principalId tenantId datasetId permission : String) : Except AccessError Policy := do
  let named ← datasetPermission upper permission
  pure { p with
    principalDatasetPermissions :=
      p.principalDatasetPermissions.insertOrIgnore ⟨principalId, tenantId, datasetId, named⟩ }

def Policy.revokeDatasetPermission (principalId tenantId datasetId permission : String) :
    Except AccessError Policy := do
  let named ← datasetPermission upper permission
  pure { p with
    principalDatasetPermissions := p.principalDatasetPermissions.delete fun r =>
      decide (r.principalId = principalId ∧ r.tenantId = tenantId ∧ r.datasetId = datasetId ∧ r.permission = named) }

def Policy.apply : AccessOperation → Except AccessError Policy
  | .grantAccess agentId sessionId level => p.grantAccess agentId sessionId level
  | .revokeAccess agentId sessionId => .ok (p.revokeAccess agentId sessionId)
  | .grantPrincipalPermission principalId agentId permission =>
    p.grantPrincipalPermission principalId agentId permission
  | .grantPrincipalSessionAccess principalId agentId sessionId level =>
    p.grantPrincipalSessionAccess principalId agentId sessionId level
  | .grantScopeRole principalId tenantId role workspaceId datasetId =>
    p.grantScopeRole upper principalId tenantId role workspaceId datasetId
  | .revokeScopeRole principalId tenantId workspaceId datasetId =>
    p.revokeScopeRole principalId tenantId workspaceId datasetId
  | .grantDatasetPermission principalId tenantId datasetId permission =>
    p.grantDatasetPermission upper principalId tenantId datasetId permission
  | .revokeDatasetPermission principalId tenantId datasetId permission =>
    p.revokeDatasetPermission upper principalId tenantId datasetId permission

/-! ## Checks -/

inductive AccessCheck
  | access (agentId sessionId requiredLevel : String)
  | principalPermission (principalId agentId permission : String)
  | principalSessionAccess (principalId agentId sessionId requiredLevel : String)
  | scopeRole (principalId tenantId workspaceId datasetId requiredRole : String)
  | datasetPermission (principalId tenantId datasetId permission : String)

def Policy.checkAccess (agentId sessionId requiredLevel : String) : Bool :=
  match AccessLevel.ofText requiredLevel with
  | none => false
  | some required => (p.permissions.lookup (agentId, sessionId)).any fun r => r.accessLevel.satisfies required

def Policy.checkPrincipalPermission (principalId agentId permission : String) : Bool :=
  match AccessLevel.ofText permission with
  | some required =>
    (p.principalAgentPermissions.select fun r => decide (r.principalId = principalId ∧ r.agentId = agentId)).any
      fun r => r.permission.level.any fun granted => granted.satisfies required
  | none =>
    (PrincipalPermission.ofText permission).any fun named =>
      p.principalAgentPermissions.hasKey (principalId, agentId, named)

def Policy.checkPrincipalSessionAccess (principalId agentId sessionId requiredLevel : String) :
    Except AccessError Bool := do
  let required ← validateAccessLevel requiredLevel "required session access level"
  pure ((p.principalSessionPermissions.lookup (principalId, sessionId)).any fun r =>
    decide (r.agentId = agentId) && r.accessLevel.satisfies required)

/-- The role that is stored at one scope. -/
def Policy.roleAt (principalId tenantId : String) : RoleScope → Option CatalogRole
  | .tenant => (p.principalTenantRoles.lookup (principalId, tenantId)).map (·.role)
  | .workspace w => (p.principalWorkspaceRoles.lookup (principalId, tenantId, w)).map (·.role)
  | .dataset w d => (p.principalDatasetRoles.lookup (principalId, tenantId, w, d)).map (·.role)

/-- The three queries of `check_scope_role`. -/
def inherited (workspaceId datasetId : String) : List RoleScope :=
  [.tenant, .workspace workspaceId, .dataset workspaceId datasetId]

def Policy.checkScopeRole (principalId tenantId workspaceId datasetId requiredRole : String) :
    Except AccessError Bool :=
  match CatalogRole.ofText (upper requiredRole) with
  | none => .error ⟨"invalid required catalog role"⟩
  | some required =>
    let granted := (inherited workspaceId datasetId).foldl
      (fun granted scope => max granted ((p.roleAt principalId tenantId scope).elim 0 CatalogRole.level)) 0
    .ok (decide (granted ≥ required.level))

def Policy.checkDatasetPermission (principalId tenantId datasetId permission : String) : Bool :=
  (DatasetPermission.ofText (upper permission)).any fun named =>
    p.principalDatasetPermissions.hasKey (principalId, tenantId, datasetId, named)

def Policy.check : AccessCheck → Except AccessError Bool
  | .access agentId sessionId requiredLevel => .ok (p.checkAccess agentId sessionId requiredLevel)
  | .principalPermission principalId agentId permission =>
    .ok (p.checkPrincipalPermission principalId agentId permission)
  | .principalSessionAccess principalId agentId sessionId requiredLevel =>
    p.checkPrincipalSessionAccess principalId agentId sessionId requiredLevel
  | .scopeRole principalId tenantId workspaceId datasetId requiredRole =>
    p.checkScopeRole upper principalId tenantId workspaceId datasetId requiredRole
  | .datasetPermission principalId tenantId datasetId permission =>
    .ok (p.checkDatasetPermission upper principalId tenantId datasetId permission)

end Mesa.Security
