/-
The authority that a history of operations leaves in force, subject by subject, and when the policy
decides every check by it. Each table follows the grants of its own subjects, except that a session
of a principal is one row, whatever the agent.
-/
import Mesa.Security.AccessControl

namespace Mesa.Security

open Mesa.Foundation

/-! ## What an operation does for a subject -/

def granting {α : Type} (a : Option α) : Effect α := a.elim .nothing .grant

def AccessOperation.onAccess (agentId sessionId : String) : AccessOperation → Effect AccessLevel
  | .grantAccess a s level => if a = agentId ∧ s = sessionId then granting (AccessLevel.ofText level) else .nothing
  | .revokeAccess a s => if a = agentId ∧ s = sessionId then .revoke else .nothing
  | _ => .nothing

def AccessOperation.onPrincipal (principalId agentId : String) : AccessOperation → Effect PrincipalPermission
  | .grantPrincipalPermission p a permission =>
    if p = principalId ∧ a = agentId then granting (PrincipalPermission.ofText permission) else .nothing
  | _ => .nothing

def AccessOperation.onSession (principalId agentId sessionId : String) : AccessOperation → Effect AccessLevel
  | .grantPrincipalSessionAccess p a s level =>
    if p = principalId ∧ a = agentId ∧ s = sessionId then granting (AccessLevel.ofText level) else .nothing
  | _ => .nothing

variable (upper : String → String)

def AccessOperation.onRole (principalId tenantId : String) (scope : RoleScope) : AccessOperation → Effect CatalogRole
  | .grantScopeRole p t role w d =>
    if p = principalId ∧ t = tenantId ∧ roleScope w d = some scope then granting (CatalogRole.ofText (upper role))
    else .nothing
  | .revokeScopeRole p t w d =>
    if p = principalId ∧ t = tenantId ∧ roleScope w d = some scope then .revoke else .nothing
  | _ => .nothing

def AccessOperation.onDataset (principalId tenantId datasetId : String) (named : DatasetPermission) :
    AccessOperation → Effect Unit
  | .grantDatasetPermission p t d permission =>
    if p = principalId ∧ t = tenantId ∧ d = datasetId ∧ DatasetPermission.ofText (upper permission) = some named
    then .grant () else .nothing
  | .revokeDatasetPermission p t d permission =>
    if p = principalId ∧ t = tenantId ∧ d = datasetId ∧ DatasetPermission.ofText (upper permission) = some named
    then .revoke else .nothing
  | _ => .nothing

/-! ## The authority in force -/

/-- A permission covers another when it is the same, or a level that satisfies it. -/
def PrincipalPermission.covers (granted required : PrincipalPermission) : Bool :=
  match granted.level, required.level with
  | some g, some r => g.satisfies r
  | _, _ => decide (granted = required)

/-- The grants in force contain one that satisfies what the check requires. -/
def Permitted (history : List AccessOperation) : AccessCheck → Prop
  | .access agentId sessionId requiredLevel => ∃ required, AccessLevel.ofText requiredLevel = some required ∧
      ∃ granted ∈ inForce (history.map (·.onAccess agentId sessionId)), granted.satisfies required = true
  | .principalPermission principalId agentId permission =>
      ∃ required, PrincipalPermission.ofText permission = some required ∧
        ∃ granted ∈ inForce (history.map (·.onPrincipal principalId agentId)), granted.covers required = true
  | .principalSessionAccess principalId agentId sessionId requiredLevel =>
      ∃ required, AccessLevel.ofText requiredLevel = some required ∧
        ∃ granted ∈ inForce (history.map (·.onSession principalId agentId sessionId)),
          granted.satisfies required = true
  | .scopeRole principalId tenantId workspaceId datasetId requiredRole =>
      ∃ required, CatalogRole.ofText (upper requiredRole) = some required ∧
        ∃ scope ∈ inherited workspaceId datasetId, ∃ granted,
          (inForce (history.map (·.onRole upper principalId tenantId scope))).head? = some granted ∧
            required.level ≤ granted.level
  | .datasetPermission principalId tenantId datasetId permission =>
      ∃ named, DatasetPermission.ofText (upper permission) = some named ∧
        inForce (history.map (·.onDataset upper principalId tenantId datasetId named)) ≠ []

/-- The policy with the operations that have been called, the first one first. -/
structure Audited where
  policy : Policy
  history : List AccessOperation

def Policy.after (p : Policy) (op : AccessOperation) : Policy := orKeep p (p.apply upper op)

def Audited.exec (s : Audited) (op : AccessOperation) : Audited := ⟨s.policy.after upper op, s.history ++ [op]⟩

/-- The database that `initialize` creates, with the seeded access of the system. -/
def Audited.start (systemAgentId systemSessionId : String) : Audited :=
  Audited.exec upper ⟨.empty, []⟩ (.grantAccess systemAgentId systemSessionId "WRITE")

/-- Every check is decided by the grants in force. -/
def Audited.Faithful (s : Audited) : Prop := ∀ check, s.policy.check upper check = .ok true ↔ Permitted upper s.history check

/-- A grant of session access names the agent that the principal's session has, if it has one. -/
def Audited.Bound (s : Audited) : AccessOperation → Prop
  | .grantPrincipalSessionAccess p a session level => AccessLevel.ofText level ≠ none →
      ∀ r, s.policy.principalSessionPermissions.lookup (p, session) = some r → r.agentId = a
  | _ => True

/-! ## Operations and tables -/

/-- The tables, the three of the roles as one. -/
inductive PolicyPart
  | access | principal | session | role | dataset
  deriving DecidableEq

def AccessOperation.part : AccessOperation → PolicyPart
  | .grantAccess .. | .revokeAccess .. => .access
  | .grantPrincipalPermission .. => .principal
  | .grantPrincipalSessionAccess .. => .session
  | .grantScopeRole .. | .revokeScopeRole .. => .role
  | .grantDatasetPermission .. | .revokeDatasetPermission .. => .dataset

section After

variable {upper} {p : Policy} {op : AccessOperation}

theorem after_grantAccess (a s level : String) : p.after upper (.grantAccess a s level) =
    (AccessLevel.ofText level).elim p fun l => { p with
      permissions := p.permissions.upsert ⟨a, s, l⟩ fun r =>
        { r with accessLevel := higher AccessLevel.rank r.accessLevel l } } := by
  rw [Policy.after, Policy.apply, Policy.grantAccess, validateAccessLevel]
  cases AccessLevel.ofText level <;> rfl

theorem after_grantPrincipalPermission (pr a permission : String) :
    p.after upper (.grantPrincipalPermission pr a permission) =
      (PrincipalPermission.ofText permission).elim p fun granted => { p with
        principalAgentPermissions := p.principalAgentPermissions.insertOrIgnore ⟨pr, a, granted⟩ } := by
  rw [Policy.after, Policy.apply, Policy.grantPrincipalPermission]
  cases PrincipalPermission.ofText permission <;> rfl

theorem after_grantPrincipalSessionAccess (pr a s level : String) :
    p.after upper (.grantPrincipalSessionAccess pr a s level) =
      (AccessLevel.ofText level).elim p fun l => { p with
        principalSessionPermissions := p.principalSessionPermissions.upsert ⟨pr, a, s, l⟩ fun r =>
          { r with agentId := a, accessLevel := higher AccessLevel.rank r.accessLevel l } } := by
  rw [Policy.after, Policy.apply, Policy.grantPrincipalSessionAccess, validateAccessLevel]
  cases AccessLevel.ofText level <;> rfl

theorem after_grantScopeRole (pr t role : String) (w d : Option String) :
    p.after upper (.grantScopeRole pr t role w d) =
      (CatalogRole.ofText (upper role)).elim p fun granted =>
        (roleScope w d).elim p (p.setRole pr t granted) := by
  rw [Policy.after, Policy.apply, Policy.grantScopeRole]
  cases CatalogRole.ofText (upper role) with
  | none => rfl
  | some granted => cases roleScope w d <;> rfl

theorem after_revokeScopeRole (pr t : String) (w d : Option String) :
    p.after upper (.revokeScopeRole pr t w d) = (roleScope w d).elim p (p.dropRole pr t) := by
  rw [Policy.after, Policy.apply, Policy.revokeScopeRole]
  cases roleScope w d <;> rfl

theorem after_grantDatasetPermission (pr t d permission : String) :
    p.after upper (.grantDatasetPermission pr t d permission) =
      (DatasetPermission.ofText (upper permission)).elim p fun named => { p with
        principalDatasetPermissions := p.principalDatasetPermissions.insertOrIgnore ⟨pr, t, d, named⟩ } := by
  rw [Policy.after, Policy.apply, Policy.grantDatasetPermission, datasetPermission]
  cases DatasetPermission.ofText (upper permission) <;> rfl

theorem after_revokeDatasetPermission (pr t d permission : String) :
    p.after upper (.revokeDatasetPermission pr t d permission) =
      (DatasetPermission.ofText (upper permission)).elim p fun named => { p with
        principalDatasetPermissions := p.principalDatasetPermissions.delete fun r =>
          decide (r.principalId = pr ∧ r.tenantId = t ∧ r.datasetId = d ∧ r.permission = named) } := by
  rw [Policy.after, Policy.apply, Policy.revokeDatasetPermission, datasetPermission]
  cases DatasetPermission.ofText (upper permission) <;> rfl

/-- An operation leaves the tables of the other parts alone. -/
theorem after_kept :
    (op.part ≠ .access → (p.after upper op).permissions = p.permissions) ∧
    (op.part ≠ .principal → (p.after upper op).principalAgentPermissions = p.principalAgentPermissions) ∧
    (op.part ≠ .session → (p.after upper op).principalSessionPermissions = p.principalSessionPermissions) ∧
    (op.part ≠ .role → (p.after upper op).roleAt = p.roleAt) ∧
    (op.part ≠ .dataset → (p.after upper op).principalDatasetPermissions = p.principalDatasetPermissions) := by
  cases op with
  | grantAccess a s level =>
    rw [after_grantAccess]
    cases AccessLevel.ofText level <;> exact ⟨fun h => absurd rfl h, fun _ => rfl, fun _ => rfl, fun _ => rfl, fun _ => rfl⟩
  | revokeAccess a s => exact ⟨fun h => absurd rfl h, fun _ => rfl, fun _ => rfl, fun _ => rfl, fun _ => rfl⟩
  | grantPrincipalPermission pr a permission =>
    rw [after_grantPrincipalPermission]
    cases PrincipalPermission.ofText permission <;>
      exact ⟨fun _ => rfl, fun h => absurd rfl h, fun _ => rfl, fun _ => rfl, fun _ => rfl⟩
  | grantPrincipalSessionAccess pr a s level =>
    rw [after_grantPrincipalSessionAccess]
    cases AccessLevel.ofText level <;>
      exact ⟨fun _ => rfl, fun _ => rfl, fun h => absurd rfl h, fun _ => rfl, fun _ => rfl⟩
  | grantScopeRole pr t role w d =>
    rw [after_grantScopeRole]
    cases CatalogRole.ofText (upper role) with
    | none => exact ⟨fun _ => rfl, fun _ => rfl, fun _ => rfl, fun _ => rfl, fun _ => rfl⟩
    | some granted =>
      rcases roleScope w d with _ | (_ | _ | _) <;>
        exact ⟨fun _ => rfl, fun _ => rfl, fun _ => rfl, fun h => absurd rfl h, fun _ => rfl⟩
  | revokeScopeRole pr t w d =>
    rw [after_revokeScopeRole]
    rcases roleScope w d with _ | (_ | _ | _) <;>
      exact ⟨fun _ => rfl, fun _ => rfl, fun _ => rfl, fun h => absurd rfl h, fun _ => rfl⟩
  | grantDatasetPermission pr t d permission =>
    rw [after_grantDatasetPermission]
    cases DatasetPermission.ofText (upper permission) <;>
      exact ⟨fun _ => rfl, fun _ => rfl, fun _ => rfl, fun _ => rfl, fun h => absurd rfl h⟩
  | revokeDatasetPermission pr t d permission =>
    rw [after_revokeDatasetPermission]
    cases DatasetPermission.ofText (upper permission) <;>
      exact ⟨fun _ => rfl, fun _ => rfl, fun _ => rfl, fun _ => rfl, fun h => absurd rfl h⟩

/-! ## The rows of a subject -/

def Policy.levelAt (p : Policy) (agentId sessionId : String) : Option AccessLevel :=
  (p.permissions.lookup (agentId, sessionId)).map (·.accessLevel)

/-- The level of a principal's session, when its row names the agent. -/
def Policy.sessionAt (p : Policy) (principalId agentId sessionId : String) : Option AccessLevel :=
  ((p.principalSessionPermissions.lookup (principalId, sessionId)).filter fun r => decide (r.agentId = agentId)).map
    (·.accessLevel)

theorem onAccess_other {a s : String} (h : op.part ≠ .access) : op.onAccess a s = .nothing := by
  cases op <;> first | rfl | exact absurd rfl h

theorem onPrincipal_other {pr a : String} (h : op.part ≠ .principal) : op.onPrincipal pr a = .nothing := by
  cases op <;> first | rfl | exact absurd rfl h

theorem onSession_other {pr a s : String} (h : op.part ≠ .session) : op.onSession pr a s = .nothing := by
  cases op <;> first | rfl | exact absurd rfl h

theorem onRole_other {pr t : String} {scope : RoleScope} (h : op.part ≠ .role) :
    op.onRole upper pr t scope = .nothing := by
  cases op <;> first | rfl | exact absurd rfl h

theorem onDataset_other {pr t d : String} {named : DatasetPermission} (h : op.part ≠ .dataset) :
    op.onDataset upper pr t d named = .nothing := by
  cases op <;> first | rfl | exact absurd rfl h

/-- The row of an agent and a session is raised by the grants to them, and removed by their revocation. -/
theorem levelAt_after (a s : String) :
    (p.after upper op).levelAt a s = (op.onAccess a s).raise AccessLevel.rank (p.levelAt a s) := by
  by_cases hpart : op.part = .access
  · cases op with
    | grantAccess a' s' level =>
      rw [after_grantAccess, AccessOperation.onAccess]
      cases AccessLevel.ofText level with
      | none =>
        unfold granting
        split <;> rfl
      | some l =>
        rw [Option.elim_some, Policy.levelAt, Table.lookup_upsert]
        simp only [Keyed.key, Prod.mk.injEq]
        by_cases hkey : a' = a ∧ s' = s
        · obtain ⟨rfl, rfl⟩ := hkey
          rw [if_pos ⟨rfl, rfl⟩, if_pos ⟨rfl, rfl⟩, Policy.levelAt]
          cases p.permissions.lookup (a', s') <;> rfl
        · rw [if_neg hkey, if_neg hkey]
          rfl
    | revokeAccess a' s' =>
      rw [AccessOperation.onAccess]
      show ((p.permissions.delete _).lookup (a, s)).map _ = _
      rw [Table.lookup_delete_key (a', s') (fun r => by simp [Keyed.key])]
      simp only [Prod.mk.injEq]
      split <;> rfl
    | _ => cases hpart
  · rw [onAccess_other hpart, Policy.levelAt, after_kept.1 hpart]
    rfl

theorem principal_after (pr a : String) (named : PrincipalPermission) {l : List PrincipalPermission}
    (h : p.principalAgentPermissions.hasKey (pr, a, named) = true ↔ named ∈ l) :
    (p.after upper op).principalAgentPermissions.hasKey (pr, a, named) = true ↔
      named ∈ (op.onPrincipal pr a).after l := by
  by_cases hpart : op.part = .principal
  · cases op with
    | grantPrincipalPermission pr' a' permission =>
      rw [after_grantPrincipalPermission, AccessOperation.onPrincipal]
      cases PrincipalPermission.ofText permission with
      | none =>
        unfold granting
        split <;> exact h
      | some granted =>
        rw [Option.elim_some, Table.hasKey_insertOrIgnore, Bool.or_eq_true, h, decide_eq_true_eq]
        by_cases hkey : pr' = pr ∧ a' = a
        · obtain ⟨rfl, rfl⟩ := hkey
          rw [if_pos ⟨rfl, rfl⟩]
          simp [granting, Effect.after, Keyed.key, or_comm, eq_comm]
        · rw [if_neg hkey]
          simp only [Keyed.key, Effect.after, Prod.mk.injEq]
          tauto
    | _ => cases hpart
  · rw [onPrincipal_other hpart, after_kept.2.1 hpart]
    exact h

/-- The row of a principal's session follows the grants to its agent, as long as they all name that one. -/
theorem sessionAt_after {s : Audited} (h : s.Bound op) (pr a se : String) :
    (s.policy.after upper op).sessionAt pr a se =
      (op.onSession pr a se).raise AccessLevel.rank (s.policy.sessionAt pr a se) := by
  by_cases hpart : op.part = .session
  · cases op with
    | grantPrincipalSessionAccess pr' a' se' level =>
      rw [after_grantPrincipalSessionAccess, AccessOperation.onSession]
      unfold Audited.Bound at h
      cases hl : AccessLevel.ofText level with
      | none =>
        unfold granting
        split <;> rfl
      | some l =>
        have hbound := h (by rw [hl]; simp)
        rw [Option.elim_some, Policy.sessionAt, Table.lookup_upsert, Policy.sessionAt]
        simp only [Keyed.key, Prod.mk.injEq]
        by_cases hkey : pr' = pr ∧ se' = se
        · obtain ⟨rfl, rfl⟩ := hkey
          rw [if_pos ⟨rfl, rfl⟩]
          cases hrow : s.policy.principalSessionPermissions.lookup (pr', se') with
          | none => by_cases ha : a' = a <;> simp [ha, granting, Effect.raise]
          | some r =>
            have hagent := hbound r hrow
            by_cases ha : a' = a <;> simp [hagent, ha, granting, Effect.raise, Option.filter_some]
        · rw [if_neg hkey, if_neg (fun heq => hkey ⟨heq.1, heq.2.2⟩)]
          rfl
    | _ => cases hpart
  · rw [onSession_other hpart, Policy.sessionAt, after_kept.2.2.1 hpart]
    rfl

theorem roleAt_setRole (pr t : String) (role : CatalogRole) (scope : RoleScope) (pr' t' : String)
    (scope' : RoleScope) : (p.setRole pr t role scope).roleAt pr' t' scope' =
      if pr = pr' ∧ t = t' ∧ scope = scope' then some role else p.roleAt pr' t' scope' := by
  by_cases hscope : scope = scope'
  · subst hscope
    cases scope with
    | tenant =>
      simp only [Policy.setRole, Policy.roleAt, Table.lookup_upsert, Keyed.key, Prod.mk.injEq, and_true]
      split
      · cases p.principalTenantRoles.lookup (pr', t') <;> rfl
      · rfl
    | workspace w =>
      simp only [Policy.setRole, Policy.roleAt, Table.lookup_upsert, Keyed.key, Prod.mk.injEq, and_true]
      split
      · cases p.principalWorkspaceRoles.lookup (pr', t', w) <;> rfl
      · rfl
    | dataset w d =>
      simp only [Policy.setRole, Policy.roleAt, Table.lookup_upsert, Keyed.key, Prod.mk.injEq, and_true]
      split
      · cases p.principalDatasetRoles.lookup (pr', t', w, d) <;> rfl
      · rfl
  · rw [if_neg (fun h => hscope h.2.2)]
    cases scope <;> cases scope' <;> simp only [Policy.setRole, Policy.roleAt, Table.lookup_upsert, Keyed.key] <;>
      first
      | exact absurd rfl hscope
      | rfl
      | (rw [if_neg]; simp only [Prod.mk.injEq]; rintro ⟨-, -, h⟩; first | exact hscope (by rw [h]) | exact hscope (by rw [h.1, h.2]))

theorem roleAt_dropRole (pr t : String) (scope : RoleScope) (pr' t' : String) (scope' : RoleScope) :
    (p.dropRole pr t scope).roleAt pr' t' scope' =
      if pr = pr' ∧ t = t' ∧ scope = scope' then none else p.roleAt pr' t' scope' := by
  by_cases hscope : scope = scope'
  · subst hscope
    cases scope with
    | tenant =>
      rw [Policy.dropRole, Policy.roleAt, Table.lookup_delete_key (pr, t) (fun r => by simp [Keyed.key])]
      simp only [Prod.mk.injEq, and_true]
      split <;> rfl
    | workspace w =>
      rw [Policy.dropRole, Policy.roleAt, Table.lookup_delete_key (pr, t, w) (fun r => by simp [Keyed.key])]
      simp only [Prod.mk.injEq, and_true]
      split <;> rfl
    | dataset w d =>
      rw [Policy.dropRole, Policy.roleAt, Table.lookup_delete_key (pr, t, w, d) (fun r => by simp [Keyed.key])]
      simp only [Prod.mk.injEq, and_true]
      split <;> rfl
  · rw [if_neg (fun h => hscope h.2.2)]
    cases scope with
    | tenant => cases scope' <;> first | exact absurd rfl hscope | rfl
    | workspace w =>
      cases scope' with
      | workspace w' =>
        rw [Policy.dropRole, Policy.roleAt, Table.lookup_delete_key (pr, t, w) (fun r => by simp [Keyed.key]),
          if_neg]
        · rfl
        · simp only [Prod.mk.injEq]
          rintro ⟨-, -, rfl⟩
          exact hscope rfl
      | _ => rfl
    | dataset w d =>
      cases scope' with
      | dataset w' d' =>
        rw [Policy.dropRole, Policy.roleAt,
          Table.lookup_delete_key (pr, t, w, d) (fun r => by simp [Keyed.key]), if_neg]
        · rfl
        · simp only [Prod.mk.injEq]
          rintro ⟨-, -, rfl, rfl⟩
          exact hscope rfl
      | _ => rfl

theorem roleAt_after (pr t : String) (scope : RoleScope) :
    (p.after upper op).roleAt pr t scope = (op.onRole upper pr t scope).replace (p.roleAt pr t scope) := by
  by_cases hpart : op.part = .role
  · cases op with
    | grantScopeRole pr' t' role w d =>
      rw [after_grantScopeRole, AccessOperation.onRole]
      cases CatalogRole.ofText (upper role) with
      | none =>
        unfold granting
        split <;> rfl
      | some granted =>
        cases hscope : roleScope w d with
        | none => simp [Effect.replace]
        | some named =>
          simp only [Option.elim_some, roleAt_setRole, Option.some.injEq]
          split <;> rfl
    | revokeScopeRole pr' t' w d =>
      rw [after_revokeScopeRole, AccessOperation.onRole]
      cases hscope : roleScope w d with
      | none => simp [Effect.replace]
      | some named =>
        simp only [Option.elim_some, roleAt_dropRole, Option.some.injEq]
        split <;> rfl
    | _ => cases hpart
  · rw [onRole_other hpart, after_kept.2.2.2.1 hpart]
    rfl

theorem dataset_after (pr t d : String) (named : DatasetPermission) {l : List Unit}
    (h : p.principalDatasetPermissions.hasKey (pr, t, d, named) = true ↔ l ≠ []) :
    (p.after upper op).principalDatasetPermissions.hasKey (pr, t, d, named) = true ↔
      (op.onDataset upper pr t d named).after l ≠ [] := by
  by_cases hpart : op.part = .dataset
  · cases op with
    | grantDatasetPermission pr' t' d' permission =>
      rw [after_grantDatasetPermission, AccessOperation.onDataset]
      cases hnamed : DatasetPermission.ofText (upper permission) with
      | none =>
        rw [if_neg (fun heq => by cases heq.2.2.2)]
        exact h
      | some given =>
        rw [Option.elim_some, Table.hasKey_insertOrIgnore, Bool.or_eq_true, h, decide_eq_true_eq]
        simp only [Keyed.key, Prod.mk.injEq, Option.some.injEq]
        split
        · next hkey => simp [hkey, Effect.after]
        · next hkey => simp [hkey, Effect.after]
    | revokeDatasetPermission pr' t' d' permission =>
      rw [after_revokeDatasetPermission, AccessOperation.onDataset]
      cases hnamed : DatasetPermission.ofText (upper permission) with
      | none =>
        rw [if_neg (fun heq => by cases heq.2.2.2)]
        exact h
      | some given =>
        rw [Option.elim_some, Table.hasKey_iff,
          Table.lookup_delete_key (pr', t', d', given) (fun r => by simp [Keyed.key])]
        rw [Table.hasKey_iff] at h
        simp only [Prod.mk.injEq, Option.some.injEq]
        split
        · simp [Effect.after]
        · exact h
    | _ => cases hpart
  · rw [onDataset_other hpart, after_kept.2.2.2.2 hpart]
    exact h

end After

/-! ## The policy and the authority -/

/-- The tables whose keys are their subjects have the grants in force. -/
structure Audited.Tracked (s : Audited) : Prop where
  access : ∀ a se, s.policy.levelAt a se = highest AccessLevel.rank (inForce (s.history.map (·.onAccess a se)))
  principal : ∀ pr a named, s.policy.principalAgentPermissions.hasKey (pr, a, named) = true ↔
    named ∈ inForce (s.history.map (·.onPrincipal pr a))
  role : ∀ pr t scope, s.policy.roleAt pr t scope = (inForce (s.history.map (·.onRole upper pr t scope))).head?
  dataset : ∀ pr t d named, s.policy.principalDatasetPermissions.hasKey (pr, t, d, named) = true ↔
    inForce (s.history.map (·.onDataset upper pr t d named)) ≠ []

/-- The sessions of principals have the highest level that is granted to their subject. -/
def Audited.SessionTracked (s : Audited) : Prop := ∀ pr a se,
  s.policy.sessionAt pr a se = highest AccessLevel.rank (inForce (s.history.map (·.onSession pr a se)))

section Runs

variable {upper} {s : Audited} {op : AccessOperation}

theorem inForce_exec {α : Type} (f : AccessOperation → Effect α) :
    inForce ((s.exec upper op).history.map f) = (f op).after (inForce (s.history.map f)) := by
  rw [Audited.exec, List.map_append, List.map_singleton, inForce_snoc]

theorem Audited.Tracked.exec (h : s.Tracked upper) (op : AccessOperation) : (s.exec upper op).Tracked upper where
  access a se := by rw [inForce_exec, highest_after, ← h.access]; exact levelAt_after a se
  principal pr a named := by rw [inForce_exec]; exact principal_after pr a named (h.principal pr a named)
  role pr t scope := by rw [inForce_exec, head?_after, ← h.role]; exact roleAt_after pr t scope
  dataset pr t d named := by rw [inForce_exec]; exact dataset_after pr t d named (h.dataset pr t d named)

theorem Audited.Tracked.empty : Audited.Tracked upper ⟨.empty, []⟩ where
  access _ _ := rfl
  principal _ _ _ := by simp [Policy.empty, Table.hasKey]
  role _ _ scope := by cases scope <;> rfl
  dataset _ _ _ _ := by simp [Policy.empty, Table.hasKey]

/-- A level that is found decides a requirement as the highest level does. -/
theorem any_satisfies {o : Option AccessLevel} {l : List AccessLevel} {required : AccessLevel}
    (h : o = highest AccessLevel.rank l) :
    o.any (·.satisfies required) = true ↔ ∃ granted ∈ l, granted.satisfies required = true := by
  simp only [AccessLevel.satisfies, decide_eq_true_eq, ge_iff_le]
  rw [← highest_meets, ← h]
  cases o <;> simp

theorem role_meets {o : Option CatalogRole} {required : CatalogRole} :
    required.level ≤ o.elim 0 CatalogRole.level ↔ ∃ granted, o = some granted ∧ required.level ≤ granted.level := by
  cases o with
  | none => cases required <;> simp [CatalogRole.level]
  | some granted => simp

theorem validateAccessLevel_bind {level fieldName : String} {f : AccessLevel → Bool} :
    (do let l ← validateAccessLevel level fieldName; pure (f l) : Except AccessError Bool) = .ok true ↔
      ∃ l, AccessLevel.ofText level = some l ∧ f l = true := by
  unfold validateAccessLevel
  cases AccessLevel.ofText level with
  | none => simp [bind, Except.bind]
  | some l => simp [bind, Except.bind, pure, Except.pure]

theorem PrincipalPermission.ofText_level {text : String} {l : AccessLevel} (h : AccessLevel.ofText text = some l) :
    ∃ named, PrincipalPermission.ofText text = some named ∧ named.level = some l := by
  unfold AccessLevel.ofText at h
  split at h <;> cases h <;> exact ⟨_, rfl, rfl⟩

theorem PrincipalPermission.level_ofText {text : String} {named : PrincipalPermission}
    (h : PrincipalPermission.ofText text = some named) : named.level = AccessLevel.ofText text := by
  unfold PrincipalPermission.ofText at h
  split at h <;> cases h <;> rfl

/-- The permissions of a principal on an agent decide a check as the grants in force do. -/
theorem checkPrincipalPermission_iff (h : s.Tracked upper) (pr a text : String) :
    s.policy.checkPrincipalPermission pr a text = true ↔ Permitted upper s.history (.principalPermission pr a text) := by
  unfold Policy.checkPrincipalPermission Permitted
  cases hlevel : AccessLevel.ofText text with
  | some required =>
    obtain ⟨named, hnamed, hnamedLevel⟩ := PrincipalPermission.ofText_level hlevel
    simp only [hnamed, Option.some.injEq, exists_eq_left', List.any_eq_true]
    constructor
    · rintro ⟨r, hr, hsat⟩
      obtain ⟨hmem, hsubject⟩ := Table.mem_select.1 hr
      obtain ⟨rfl, rfl⟩ := of_decide_eq_true hsubject
      have hkey : s.policy.principalAgentPermissions.hasKey (Keyed.key r) = true :=
        Table.hasKey_iff.2 (by rw [Table.lookup_of_mem hmem]; rfl)
      refine ⟨r.permission, (h.principal ..).1 hkey, ?_⟩
      unfold PrincipalPermission.covers
      rw [hnamedLevel]
      cases hrl : r.permission.level with
      | none => rw [hrl] at hsat; cases hsat
      | some g => rw [hrl] at hsat; exact hsat
    · rintro ⟨granted, hgranted, hcovers⟩
      obtain ⟨r, hr⟩ := Option.isSome_iff_exists.1 (Table.hasKey_iff.1 ((h.principal ..).2 hgranted))
      have hkey : r.principalId = pr ∧ r.agentId = a ∧ r.permission = granted := by
        simpa only [Keyed.key, Prod.mk.injEq] using Table.lookup_key hr
      refine ⟨r, Table.mem_select.2 ⟨Table.lookup_mem hr, by simp [hkey]⟩, ?_⟩
      rw [hkey.2.2]
      unfold PrincipalPermission.covers at hcovers
      rw [hnamedLevel] at hcovers
      cases hgl : granted.level with
      | none =>
        rw [hgl] at hcovers
        obtain rfl := of_decide_eq_true hcovers
        rw [hnamedLevel] at hgl
        cases hgl
      | some g => rw [hgl] at hcovers; exact hcovers
  | none =>
    cases hnamed : PrincipalPermission.ofText text with
    | none => simp [hnamed]
    | some named =>
      have hnone : named.level = none := (PrincipalPermission.level_ofText hnamed).trans hlevel
      simp only [hnamed, Option.any_some, Option.some.injEq, exists_eq_left', h.principal]
      refine ⟨fun hin => ⟨named, hin, by simp [PrincipalPermission.covers, hnone]⟩, ?_⟩
      rintro ⟨granted, hgranted, hcovers⟩
      unfold PrincipalPermission.covers at hcovers
      rw [hnone] at hcovers
      obtain rfl : granted = named := by
        cases hgl : granted.level <;> rw [hgl] at hcovers <;> exact of_decide_eq_true hcovers
      exact hgranted

theorem checkScopeRole_iff (h : s.Tracked upper) (pr t w d text : String) :
    s.policy.checkScopeRole upper pr t w d text = .ok true ↔
      Permitted upper s.history (.scopeRole pr t w d text) := by
  unfold Policy.checkScopeRole Permitted
  cases hrequired : CatalogRole.ofText (upper text) with
  | none => simp [hrequired]
  | some required =>
    have hpos : ¬ required.level ≤ 0 := by cases required <;> decide
    simp only [hrequired, Except.ok.injEq, decide_eq_true_eq, ge_iff_le, le_foldl_max_iff, hpos, false_or, Option.some.injEq,
      exists_eq_left', role_meets, h.role]

theorem checkDatasetPermission_iff (h : s.Tracked upper) (pr t d text : String) :
    s.policy.checkDatasetPermission upper pr t d text = true ↔
      Permitted upper s.history (.datasetPermission pr t d text) := by
  unfold Policy.checkDatasetPermission Permitted
  cases hnamed : DatasetPermission.ofText (upper text) with
  | none => simp [hnamed]
  | some named => simp only [hnamed, Option.any_some, h.dataset, Option.some.injEq, exists_eq_left']

theorem checkAccess_iff (h : s.Tracked upper) (a se text : String) :
    s.policy.checkAccess a se text = true ↔ Permitted upper s.history (.access a se text) := by
  unfold Policy.checkAccess Permitted
  cases hrequired : AccessLevel.ofText text with
  | none => simp [hrequired]
  | some required =>
    simp only [hrequired, Option.some.injEq, exists_eq_left']
    rw [← any_satisfies (h.access a se), Policy.levelAt, Option.any_map]

theorem checkPrincipalSessionAccess_iff {p : Policy} {pr a se text : String} :
    p.checkPrincipalSessionAccess pr a se text = .ok true ↔
      ∃ required, AccessLevel.ofText text = some required ∧
        (p.sessionAt pr a se).any (·.satisfies required) = true := by
  unfold Policy.checkPrincipalSessionAccess
  rw [validateAccessLevel_bind]
  refine exists_congr fun required => and_congr_right fun _ => ?_
  unfold Policy.sessionAt
  cases p.principalSessionPermissions.lookup (pr, se) with
  | none => simp
  | some r => by_cases ha : r.agentId = a <;> simp [ha, Option.filter_some]

/-- A level is determined by the requirements that it satisfies. -/
theorem level_ext {o o' : Option AccessLevel}
    (h : ∀ required, o.any (·.satisfies required) = true ↔ o'.any (·.satisfies required) = true) : o = o' := by
  have hread := h .read
  have hwrite := h .write
  have hadmin := h .admin
  rcases o with _ | (_ | _ | _) <;> rcases o' with _ | (_ | _ | _) <;>
    simp_all [AccessLevel.satisfies, AccessLevel.rank]

theorem AccessLevel.exists_text (l : AccessLevel) : ∃ text, AccessLevel.ofText text = some l := by
  cases l
  · exact ⟨"READ", rfl⟩
  · exact ⟨"WRITE", rfl⟩
  · exact ⟨"ADMIN", rfl⟩

theorem ok_true_iff {b : Bool} : (Except.ok b : Except AccessError Bool) = .ok true ↔ b = true := by
  rw [Except.ok.injEq]

/-- Where the other tables follow their grants, all checks are decided by the grants in force exactly
when the sessions follow theirs. -/
theorem faithful_iff (h : s.Tracked upper) : s.Faithful upper ↔ s.SessionTracked := by
  constructor
  · intro hf pr a se
    refine level_ext fun required => ?_
    obtain ⟨text, htext⟩ := required.exists_text
    have hcheck := hf (.principalSessionAccess pr a se text)
    rw [Policy.check, checkPrincipalSessionAccess_iff, Permitted, htext] at hcheck
    simp only [Option.some.injEq, exists_eq_left'] at hcheck
    rw [hcheck, any_satisfies rfl]
  · intro hs check
    cases check with
    | access a se text => exact ok_true_iff.trans (checkAccess_iff h a se text)
    | principalPermission pr a text => exact ok_true_iff.trans (checkPrincipalPermission_iff h pr a text)
    | principalSessionAccess pr a se text =>
      rw [Policy.check, checkPrincipalSessionAccess_iff, Permitted]
      exact exists_congr fun required => and_congr_right fun _ => any_satisfies (hs pr a se)
    | scopeRole pr t w d text => exact checkScopeRole_iff h pr t w d text
    | datasetPermission pr t d text => exact ok_true_iff.trans (checkDatasetPermission_iff h pr t d text)

/-- An operation keeps the sessions in step exactly when it names the agent of the session. -/
theorem sessionTracked_exec_iff (h : s.SessionTracked) : (s.exec upper op).SessionTracked ↔ s.Bound op := by
  constructor
  · intro hnext
    cases op with
    | grantPrincipalSessionAccess pr a se level =>
      intro hlevel r hr
      by_contra hagent
      obtain ⟨l, hl⟩ := Option.ne_none_iff_exists'.1 hlevel
      -- the grant takes the session from the agent that had it, whose grants are still in force
      have hbefore := h pr r.agentId se
      have hafter := hnext pr r.agentId se
      rw [Policy.sessionAt, hr, Option.filter_some, if_pos (by simp)] at hbefore
      have hne : ¬ (pr = pr ∧ a = r.agentId ∧ se = se) := fun heq => hagent heq.2.1.symm
      rw [inForce_exec, AccessOperation.onSession, if_neg hne] at hafter
      have hgone : (s.exec upper (.grantPrincipalSessionAccess pr a se level)).policy.sessionAt pr r.agentId se =
          none := by
        show (s.policy.after upper _).sessionAt pr r.agentId se = none
        rw [after_grantPrincipalSessionAccess, hl, Option.elim_some, Policy.sessionAt, Table.lookup_upsert,
          hr]
        simp [Keyed.key, Option.filter_some, Ne.symm hagent]
      exact absurd (hbefore.trans (hafter.symm.trans hgone)) (by simp)
    | _ => trivial
  · intro hbound pr a se
    rw [inForce_exec, highest_after, ← h pr a se]
    exact sessionAt_after hbound pr a se

/-! ## Runs -/

/-- Over every sequence of grants and revocations: all checks are decided by the grants in force, in
every state, exactly when each grant of session access names the agent that the principal's session
already has, if it has one. -/
theorem authority_iff (systemAgentId systemSessionId : String) (operations : List AccessOperation) :
    Throughout (Audited.exec upper) (Audited.Faithful upper) (.start upper systemAgentId systemSessionId) operations ↔
      Along (Audited.exec upper) Audited.Bound (.start upper systemAgentId systemSessionId) operations := by
  have hstart : (Audited.start upper systemAgentId systemSessionId).Tracked upper := .exec .empty _
  have hsession : (Audited.start upper systemAgentId systemSessionId).SessionTracked :=
    (sessionTracked_exec_iff (s := ⟨.empty, []⟩) (fun _ _ _ => rfl)).2 trivial
  refine throughout_iff_along (I := Audited.Tracked upper) (fun _ op h => h.exec op) (fun s op h hp => ?_) hstart
    ((faithful_iff hstart).2 hsession)
  rw [faithful_iff (h.exec op)]
  exact sessionTracked_exec_iff ((faithful_iff h).1 hp)

/-- A principal has ADMIN access to a session for one agent and is granted READ for another. -/
def movedSession : Audited :=
  run (Audited.exec id) (.start id "system" "system")
    [.grantPrincipalSessionAccess "p" "a" "s" "ADMIN", .grantPrincipalSessionAccess "p" "b" "s" "READ"]

/-- The first agent has lost the access that is still in force, and the second has the ADMIN access that
it was never granted. -/
theorem session_grant_moves :
    (Permitted id movedSession.history (.principalSessionAccess "p" "a" "s" "READ") ∧
      (movedSession.policy.check id (.principalSessionAccess "p" "a" "s" "READ")).toOption = some false) ∧
    ¬ Permitted id movedSession.history (.principalSessionAccess "p" "b" "s" "ADMIN") ∧
      (movedSession.policy.check id (.principalSessionAccess "p" "b" "s" "ADMIN")).toOption = some true := by
  refine ⟨⟨⟨.read, rfl, .admin, by decide +kernel, rfl⟩, by decide +kernel⟩, ?_, by decide +kernel⟩
  rintro ⟨required, hrequired, granted, hgranted, hsat⟩
  obtain rfl : required = .admin := (Option.some.inj hrequired).symm
  have honly : ∀ granted ∈ inForce (movedSession.history.map (·.onSession "p" "b" "s")),
      granted.satisfies .admin = false := by decide +kernel
  rw [honly granted hgranted] at hsat
  cases hsat

end Runs

end Mesa.Security
