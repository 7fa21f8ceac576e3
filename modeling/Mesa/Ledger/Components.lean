/-
The connected components of entity resolution. A call lands on a row, by URI, by alias or by
creating one, upgrades it if it brings a URI to a name-only row, and attaches its nodes; the labels
it leaves are the components of one more hyperedge.
-/
import Mesa.Ledger.Exec
import Mesa.Ledger.Resolution

namespace Mesa.Ledger

open Mesa.Foundation

/-! ## Requests -/

/-- The node whose identity a new entity of the request has. -/
def EntityRequest.node (q : EntityRequest) (env : Env) : Node :=
  match q.ontologyUri with
  | some uri => .uri (env.normalizeOntologyUri uri)
  | none => .name (env.normalizeIdentityText q.canonicalName)

/-- Requests that `v4_entity_id` accepts, when it gives different nodes different ids. -/
def EntityRequest.Fit (q : EntityRequest) (env : Env) : Prop :=
  q.tenantId ≠ "" ∧ q.canonicalName ≠ "" ∧ q.typeIn env ≠ "" ∧
    (∀ uri, q.ontologyUri = some uri → env.normalizeOntologyUri uri ≠ "") ∧
    Function.Injective (entityIdOf env q.tenantId (q.typeIn env))

/-- The nodes that a request has still to attach when it has landed. -/
def EntityRequest.Pending (q : EntityRequest) (env : Env) (v : Node) : Prop :=
  v = q.node env ∨ v = .name (env.normalizeIdentityText q.canonicalName)

section Call

variable {env : Env} {q : EntityRequest} {ids ids' : Identities}

theorem v4EntityId_node {id : String} (h : v4EntityId env q.tenantId q.canonicalName (q.typeIn env)
    (q.ontologyUri.map env.normalizeOntologyUri) = .ok id) :
    id = entityIdOf env q.tenantId (q.typeIn env) (q.node env) := by
  unfold v4EntityId at h
  split at h
  · cases h
  · unfold entityIdOf EntityRequest.node
    cases hq : q.ontologyUri with
    | none => rw [hq] at h; cases h; rfl
    | some uri => rw [hq] at h; cases h; rfl

/-- A new row keeps the tables tidy while its name and its identity are pending. -/
theorem Tidy.created (h : Tidy env q.tenantId (q.typeIn env) (fun _ => False) ids) {e : Entity}
    (hc : Created env ids q (q.node env).identityKey ids' e) :
    Tidy env q.tenantId (q.typeIn env) (q.Pending env) ids' := by
  obtain ⟨hfresh, rfl, hid, ht, hty, hn, hk, hst, hroot⟩ := hc
  have hlookup : ∀ k x, ids.entities.lookup k = some x → (ids.entities.insertOrIgnore e).lookup k = some x := by
    intro k x hx
    rw [Table.lookup_insertOrIgnore, hx]; rfl
  have hrow : ∀ x ∈ (ids.entities.insertOrIgnore e).rows, x ∈ ids.entities.rows ∨ x = e := by
    intro x hx
    rcases Table.mem_insertOrIgnore.1 hx with hx | ⟨rfl, -⟩
    · exact Or.inl hx
    · exact Or.inr rfl
  refine ⟨?_, h.aliasScope, h.externalScope, ?_, ?_, ?_, ?_, ?_, ?_⟩
  · intro x hx
    rcases hrow x hx with hx | rfl
    · exact h.scope x hx
    · exact ⟨ht, hty⟩
  · intro x hx hx'
    rcases hrow x hx with hx | rfl
    · exact h.status x hx hx'
    · exact hst
  · intro x hx w hw
    rcases hrow x hx with hx | rfl
    · obtain ⟨hs, y, hy, hrank⟩ := h.redirect x hx w hw
      exact ⟨hs, y, hlookup w y hy, hrank⟩
    · rw [hroot] at hw; cases hw
  · intro v id hv
    obtain ⟨x, hx, hx'⟩ := h.target v id hv
    exact ⟨x, hlookup id x hx, hx'⟩
  · intro u id hu
    obtain ⟨x, hx, hx'⟩ := h.ontology u id hu
    exact ⟨x, hlookup id x hx, hx'⟩
  · intro x hx
    rcases hrow x hx with hx | rfl
    · exact Or.inl ((h.named x hx).resolve_right fun hf => hf)
    · exact Or.inr (Or.inr (by rw [hn]))
  · intro x hx
    rcases hrow x hx with hx | rfl
    · obtain ⟨v, hv, hvid, hl⟩ := h.identified x hx
      exact ⟨v, hv, hvid, Or.inl (hl.resolve_right fun hf => hf)⟩
    · exact ⟨q.node env, hk, v4EntityId_node hid, Or.inr (Or.inl rfl)⟩

/-- What creating an entity leaves, in tables where nothing has its identity yet. -/
structure Opened (env : Env) (q : EntityRequest) (ids ids' : Identities) (e : Entity) : Prop where
  tidy : Tidy env q.tenantId (q.typeIn env) (q.Pending env) ids'
  current : ids'.Current e
  identity : e.identityKey = (q.node env).identityKey
  labels : ids'.label q.tenantId (q.typeIn env) = ids.label q.tenantId (q.typeIn env)
  others : ∀ r, ids.Current r → ids'.Current r
  fresh : ids.entities.lookup e.entityId = none

end Call

/-! ## Sequences of calls -/

section Runs

variable {env : Env} {tenantId entityType : String} {ids : Identities}

/-- The tables are tidy and their labels are the components of the edges. -/
def Represents (env : Env) (tenantId entityType : String) (s : Identities × List (List Node)) : Prop :=
  Tidy env tenantId entityType (fun _ => False) s.1 ∧ Partition s.2 (s.1.label tenantId entityType)

end Runs

end Mesa.Ledger
