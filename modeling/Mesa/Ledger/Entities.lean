/-
What the parts of `resolve_v4_entity` do: where a redirect chain ends, when a row is created, and
when a name is attached without a merge.
-/
import Mesa.Ledger.Identity

namespace Mesa.Ledger

open Mesa.Foundation

/-! ## Redirects -/

theorem followEntityRedirect_root {entities : Table Entity} {visited : List String} {budget : Nat} {e : Entity}
    (h : e.redirectEntityId = none) : followEntityRedirect entities visited budget e = .ok (some e) := by
  unfold followEntityRedirect
  rw [h]

/-- A redirect chain ends in a row of the table that is not redirected. -/
theorem followEntityRedirect_spec {entities : Table Entity} : ∀ {budget : Nat} {visited : List String} {e row : Entity},
    followEntityRedirect entities visited budget e = .ok (some row) →
      row.redirectEntityId = none ∧ (row = e ∨ row ∈ entities.rows)
  | 0, visited, e, row, h => by
    unfold followEntityRedirect at h
    cases hr : e.redirectEntityId with
    | none => rw [hr] at h; cases h; exact ⟨hr, Or.inl rfl⟩
    | some target => rw [hr] at h; cases h
  | budget + 1, visited, e, row, h => by
    unfold followEntityRedirect at h
    cases hr : e.redirectEntityId with
    | none => rw [hr] at h; cases h; exact ⟨hr, Or.inl rfl⟩
    | some target =>
      rw [hr] at h
      simp only at h
      split at h
      · cases h
      · cases hl : entities.lookup target with
        | none => rw [hl] at h; cases h
        | some next =>
          rw [hl] at h
          obtain ⟨hroot, rfl | hmem⟩ := followEntityRedirect_spec h
          · exact ⟨hroot, Or.inr (Table.lookup_mem hl)⟩
          · exact ⟨hroot, Or.inr hmem⟩

/-! ## Creating and naming a row -/

/-- A name is attached to the row it leads to without merging anything. -/
theorem attachAlias_own {env : Env} {q : EntityRequest} {ids ids' : Identities} {row row' : Entity} {name : String}
    (hroot : row.redirectEntityId = none)
    (hown : ∀ owner, aliasOwner ids ⟨q.tenantId, env.upper (env.normalizeIdentityText q.entityType),
      env.normalizeIdentityText name⟩ = some owner →
        followEntityRedirect ids.entities [] redirectBudget owner = .ok (some row))
    (h : attachAlias env q ids row name = .ok (ids', row')) : row' = row ∧ ids'.entities = ids.entities := by
  unfold attachAlias at h
  split at h
  · cases h; exact ⟨rfl, rfl⟩
  · simp only at h
    split at h
    · next owner howner =>
      split at h
      · cases pure_eq_ok.1 h; exact ⟨rfl, rfl⟩
      · obtain ⟨⟨ids₁, row₁⟩, hm, h⟩ := bind_eq_ok.1 h
        unfold mergeEntityRows at hm
        rw [followEntityRedirect_root hroot, hown _ howner] at hm
        simp only [bind, Except.bind, ↓reduceIte] at hm
        cases pure_eq_ok.1 hm
        cases pure_eq_ok.1 h
        exact ⟨rfl, rfl⟩
    · cases pure_eq_ok.1 h; exact ⟨rfl, rfl⟩

/-- The entity type of a request as the tables store it. -/
def EntityRequest.typeIn (q : EntityRequest) (env : Env) : String := env.upper (env.normalizeIdentityText q.entityType)

theorem entityByIdentity_eq_none {entities : Table Entity} {tenantId entityType key : String} :
    entityByIdentity entities tenantId entityType key = none ↔
      ∀ e ∈ entities.rows, ¬ (e.tenantId = tenantId ∧ e.entityType = entityType ∧ e.identityKey = key) := by
  unfold entityByIdentity
  rw [List.head?_eq_none_iff, Table.select, List.filter_eq_nil_iff]
  simp [and_assoc]

theorem entityByIdentity_mem {entities : Table Entity} {tenantId entityType key : String} {e : Entity}
    (h : entityByIdentity entities tenantId entityType key = some e) :
    e ∈ entities.rows ∧ e.tenantId = tenantId ∧ e.entityType = entityType ∧ e.identityKey = key := by
  obtain ⟨hmem, hp⟩ := Table.mem_select.1 (List.mem_of_mem_head? h)
  simp only [Bool.and_eq_true, decide_eq_true_eq] at hp
  exact ⟨hmem, hp.1.1, hp.1.2, hp.2⟩

/-- The row that `createEntity` inserts for a request. -/
structure Created (env : Env) (ids : Identities) (q : EntityRequest) (key : String) (ids' : Identities) (e : Entity) :
    Prop where
  fresh : ids.entities.lookup e.entityId = none
  tables : ids' = { ids with entities := ids.entities.insertOrIgnore e }
  id : v4EntityId env q.tenantId q.canonicalName (q.typeIn env) (q.ontologyUri.map env.normalizeOntologyUri) =
    .ok e.entityId
  tenant : e.tenantId = q.tenantId
  type : e.entityType = q.typeIn env
  name : e.normalizedName = env.normalizeIdentityText q.canonicalName
  key : e.identityKey = key
  status : e.status = .active
  root : e.redirectEntityId = none

/-- An identity that exists is read back, and a new one is created. -/
theorem createEntity_cases {env : Env} {ids ids' : Identities} {q : EntityRequest} {key : String} {e : Entity}
    (h : createEntity env ids q key = .ok (ids', some e)) :
    (entityByIdentity ids.entities q.tenantId (q.typeIn env) key = some e ∧ ids' = ids) ∨
      (entityByIdentity ids.entities q.tenantId (q.typeIn env) key = none ∧ Created env ids q key ids' e) := by
  unfold createEntity at h
  obtain ⟨id, hid, h⟩ := bind_eq_ok.1 h
  have h := pure_eq_ok.1 h
  simp only [Prod.mk.injEq] at h
  obtain ⟨rfl, hread⟩ := h
  cases hold : entityByIdentity ids.entities q.tenantId (q.typeIn env) key with
  | some x =>
    obtain ⟨hmem, ht, hty, hk⟩ := entityByIdentity_mem hold
    have hany : ids.entities.anyWhere (fun y => y.tenantId = q.tenantId && y.entityType = q.typeIn env &&
        y.identityKey = key) = true := Table.anyWhere_iff.2 ⟨x, hmem, by simp [ht, hty, hk]⟩
    unfold insertEntity at hread ⊢
    simp only [← EntityRequest.typeIn.eq_1] at hread ⊢
    rw [if_pos hany] at hread ⊢
    rw [hold] at hread; cases hread
    exact Or.inl ⟨rfl, rfl⟩
  | none =>
    have hno := entityByIdentity_eq_none.1 hold
    have hany : ¬ ids.entities.anyWhere (fun y => y.tenantId = q.tenantId && y.entityType = q.typeIn env &&
        y.identityKey = key) = true := by
      rw [Table.anyWhere_iff]
      rintro ⟨y, hy, hp⟩
      simp only [Bool.and_eq_true, decide_eq_true_eq, and_assoc] at hp
      exact hno y hy hp
    unfold insertEntity at hread ⊢
    simp only [← EntityRequest.typeIn.eq_1] at hread ⊢
    rw [if_neg hany] at hread ⊢
    obtain ⟨hmem, ht, hty, hk⟩ := entityByIdentity_mem hread
    rcases Table.mem_insertOrIgnore.1 hmem with hmem | ⟨rfl, hfresh⟩
    · exact absurd ⟨ht, hty, hk⟩ (hno e hmem)
    · exact Or.inr ⟨trivial, hfresh, rfl, hid, rfl, rfl, rfl, rfl, rfl, rfl⟩

end Mesa.Ledger
