/-
Entity resolution as union-find. Every call of `resolve_v4_entity` names a hyperedge: its
normalized names that are not blank, and its normalized URI. Alias and external id rows label
these nodes with entity ids, and the labels are the connected components of the hyperedges of all
calls that returned: a call opens its edge at the entity it lands on, each of its nodes joins that
entity, and a node of another entity merges the two under the one that outranks the other.
-/
import Mesa.Foundation.Run
import Mesa.Foundation.UnionFind
import Mesa.Ledger.Entities

namespace Mesa.Ledger

open Mesa.Foundation

/-! ## Nodes and labels -/

/-- What a call names: a normalized name, or a normalized ontology URI. -/
inductive Node
  | name (normalized : String)
  | uri (normalized : String)
  deriving DecidableEq

/-- The identity key of the entity created for a node. -/
def Node.identityKey : Node → String
  | .name n => "name:" ++ n
  | .uri u => "ontology:" ++ u

/-- The id of the entity created for a node. -/
def entityIdOf (env : Env) (tenantId entityType : String) (v : Node) : String :=
  let key := match v with
    | .name n => "name:" ++ n
    | .uri u => "ontology:" ++ env.normalizeOntologyUri u
  env.uuid5 "entity" (joinIdentity [tenantId, env.upper (env.normalizeIdentityText entityType), key])

/-- The entity id that the alias row of a name, or the external id row of a URI, holds. -/
def Identities.label (ids : Identities) (tenantId entityType : String) : Node → Option String
  | .name n => (ids.aliases.lookup ⟨tenantId, entityType, n⟩).map (·.entityId)
  | .uri u => (ids.externalIds.lookup ⟨tenantId, entityType, u⟩).map (·.entityId)

/-- The row of a table that is not redirected. -/
def Identities.Current (ids : Identities) (row : Entity) : Prop :=
  ids.entities.lookup row.entityId = some row ∧ row.redirectEntityId = none

/-! ## Ranks -/

theorem isOntology_congr {a b : Entity} (h : a.identityKey = b.identityKey) : a.isOntology = b.isOntology := by
  unfold Entity.isOntology
  rw [h]

theorem outranks_congr {a b a' b' : Entity} (ha : a'.identityKey = a.identityKey) (hb : b'.identityKey = b.identityKey)
    (hai : a'.entityId = a.entityId) (hbi : b'.entityId = b.entityId) : a'.outranks b' = a.outranks b := by
  unfold Entity.outranks
  rw [isOntology_congr ha, isOntology_congr hb, hai, hbi]

theorem Entity.outranks_iff {a b : Entity} : a.outranks b = true ↔
    (a.isOntology = true ∧ b.isOntology = false) ∨ (a.isOntology = b.isOntology ∧ a.entityId < b.entityId) := by
  simp [Entity.outranks]

theorem Entity.outranks_irrefl (a : Entity) : a.outranks a = false := by
  simp [Entity.outranks]

/-- An ontology-backed entity is only outranked by another. -/
theorem Entity.isOntology_of_outranks {a b : Entity} (h : a.outranks b = true) (hb : b.isOntology = true) :
    a.isOntology = true := by
  rcases Entity.outranks_iff.1 h with ⟨-, hb'⟩ | ⟨hab, -⟩
  · rw [hb] at hb'; cases hb'
  · rw [hab, hb]

/-- Tables that calls in one tenant and type build. While a call runs, the nodes it has still to attach
are pending: an entity it created has its name and its identity among them. -/
structure Tidy (env : Env) (tenantId entityType : String) (pending : Node → Prop) (ids : Identities) : Prop where
  scope : ∀ e ∈ ids.entities.rows, e.tenantId = tenantId ∧ e.entityType = entityType
  aliasScope : ∀ a ∈ ids.aliases.rows, a.key.tenantId = tenantId ∧ a.key.entityType = entityType
  externalScope : ∀ x ∈ ids.externalIds.rows, x.key.tenantId = tenantId ∧ x.key.entityType = entityType
  status : ∀ e ∈ ids.entities.rows, e.redirectEntityId = none → e.status = .active
  redirect : ∀ e ∈ ids.entities.rows, ∀ w, e.redirectEntityId = some w →
    e.status = .redirected ∧ ∃ x, ids.entities.lookup w = some x ∧ x.outranks e = true
  target : ∀ v id, ids.label tenantId entityType v = some id →
    ∃ e, ids.entities.lookup id = some e ∧ e.redirectEntityId = none
  ontology : ∀ u id, ids.label tenantId entityType (.uri u) = some id →
    ∃ e, ids.entities.lookup id = some e ∧ e.isOntology = true
  named : ∀ e ∈ ids.entities.rows, (ids.label tenantId entityType (.name e.normalizedName)).isSome ∨
    pending (.name e.normalizedName)
  identified : ∀ e ∈ ids.entities.rows, ∃ v : Node, e.identityKey = v.identityKey ∧
    e.entityId = entityIdOf env tenantId entityType v ∧ ((ids.label tenantId entityType v).isSome ∨ pending v)

section Calls

variable {env : Env} {tenantId entityType : String} {pending : Node → Prop} {ids ids' : Identities}

/-- When every pending node has a label, none is pending. -/
theorem Tidy.settle (h : Tidy env tenantId entityType pending ids)
    (hdone : ∀ v, pending v → (ids.label tenantId entityType v).isSome) :
    Tidy env tenantId entityType (fun _ => False) ids :=
  { h with
    named := fun e he => Or.inl ((h.named e he).elim id (hdone _))
    identified := fun e he => by
      obtain ⟨v, hk, hid, hv⟩ := h.identified e he
      exact ⟨v, hk, hid, Or.inl (hv.elim id (hdone v))⟩ }

/-- The tables after `duplicate` is redirected to `winner`. -/
def mergedInto (ids : Identities) (winner duplicate : Entity) : Identities where
  entities := ids.entities.update (·.entityId = duplicate.entityId) fun e =>
    { e with status := .redirected, redirectEntityId := some winner.entityId }
  aliases := (ids.aliases.select (·.entityId = duplicate.entityId)).foldl
    (fun t x => t.insertOrIgnore { x with entityId := winner.entityId })
    (ids.aliases.delete (·.entityId = duplicate.entityId))
  externalIds := (ids.externalIds.select (·.entityId = duplicate.entityId)).foldl
    (fun t x => t.insertOrIgnore { x with entityId := winner.entityId })
    (ids.externalIds.delete (·.entityId = duplicate.entityId))

theorem label_mergedInto (w d : Entity) (v : Node) : (mergedInto ids w d).label tenantId entityType v =
    (ids.label tenantId entityType v).map fun id => if id = d.entityId then w.entityId else id := by
  cases v with
  | name n =>
    unfold Identities.label mergedInto
    simp only
    rw [Table.lookup_reinsert _ _ _ (by intro _; rfl), Option.map_map, Option.map_map]
    congr 1
    funext x
    by_cases hx : x.entityId = d.entityId <;> simp [hx]
  | uri u =>
    unfold Identities.label mergedInto
    simp only
    rw [Table.lookup_reinsert _ _ _ (by intro _; rfl), Option.map_map, Option.map_map]
    congr 1
    funext x
    by_cases hx : x.entityId = d.entityId <;> simp [hx]

theorem lookup_mergedInto (w d : Entity) (k : String) : (mergedInto ids w d).entities.lookup k =
    (ids.entities.lookup k).map fun e =>
      if e.entityId = d.entityId then { e with status := .redirected, redirectEntityId := some w.entityId } else e := by
  unfold mergedInto
  rw [Table.lookup_update]
  congr 1
  funext e
  by_cases he : e.entityId = d.entityId <;> simp [he]

/-- Rows but the duplicate stay as they are. -/
theorem lookup_mergedInto_of_ne {w d e : Entity} {k : String} (h : ids.entities.lookup k = some e)
    (hne : k ≠ d.entityId) : (mergedInto ids w d).entities.lookup k = some e := by
  have hk : e.entityId = k := Table.lookup_key h
  rw [lookup_mergedInto, h, Option.map_some, if_neg (by rw [hk]; exact hne)]

/-- Merging two rows that are not redirected keeps the tables tidy. -/
theorem Tidy.merged (h : Tidy env tenantId entityType pending ids) {w d : Entity} (hw : ids.Current w)
    (hd : ids.Current d) (hrank : w.outranks d = true) :
    Tidy env tenantId entityType pending (mergedInto ids w d) ∧ (mergedInto ids w d).Current w := by
  have hne : w.entityId ≠ d.entityId := by
    intro heq
    have : w = d := by
      have hl := hw.1
      rw [heq, hd.1] at hl
      cases hl; rfl
    rw [this, Entity.outranks_irrefl] at hrank
    cases hrank
  have hlw := lookup_mergedInto_of_ne (w := w) hw.1 hne
  have hcurrent : (mergedInto ids w d).Current w := ⟨hlw, hw.2⟩
  -- every row comes from one with the same identity
  have hrow : ∀ e' ∈ (mergedInto ids w d).entities.rows, ∃ e ∈ ids.entities.rows, e' =
      if e.entityId = d.entityId then { e with status := .redirected, redirectEntityId := some w.entityId } else e := by
    intro e' he'
    have hl := Table.lookup_of_mem he'
    rw [lookup_mergedInto] at hl
    obtain ⟨e, he, heq⟩ := Option.map_eq_some_iff.1 hl
    exact ⟨e, Table.lookup_mem he, heq.symm⟩
  have hsome : ∀ v, (ids.label tenantId entityType v).isSome →
      ((mergedInto ids w d).label tenantId entityType v).isSome := by
    intro v hv
    rw [label_mergedInto, Option.isSome_map]; exact hv
  refine ⟨⟨?_, ?_, ?_, ?_, ?_, ?_, ?_, ?_, ?_⟩, hcurrent⟩
  · intro e' he'
    obtain ⟨e, he, rfl⟩ := hrow e' he'
    split <;> exact h.scope e he
  · intro a ha
    have hl := Table.lookup_of_mem ha
    unfold mergedInto at hl
    rw [Table.lookup_reinsert _ _ _ (by intro _; rfl)] at hl
    obtain ⟨x, hx, rfl⟩ := Option.map_eq_some_iff.1 hl
    split <;> exact h.aliasScope x (Table.lookup_mem hx)
  · intro a ha
    have hl := Table.lookup_of_mem ha
    unfold mergedInto at hl
    rw [Table.lookup_reinsert _ _ _ (by intro _; rfl)] at hl
    obtain ⟨x, hx, rfl⟩ := Option.map_eq_some_iff.1 hl
    split <;> exact h.externalScope x (Table.lookup_mem hx)
  · intro e' he' hroot
    obtain ⟨e, he, rfl⟩ := hrow e' he'
    split at hroot
    · cases hroot
    · next hne' => rw [if_neg hne']; exact h.status e he hroot
  · intro e' he' t ht
    obtain ⟨e, he, rfl⟩ := hrow e' he'
    split at ht
    · next heq =>
      cases ht
      have hed : e = d := by
        have hl := Table.lookup_of_mem he
        rw [show Keyed.key e = d.entityId from heq, hd.1] at hl
        cases hl; rfl
      rw [if_pos heq, hed]
      refine ⟨rfl, w, hlw, ?_⟩
      exact (outranks_congr rfl rfl rfl rfl).trans hrank
    · next hne' =>
      rw [if_neg hne']
      obtain ⟨hst, x, hx, hout⟩ := h.redirect e he t ht
      refine ⟨hst, _, by rw [lookup_mergedInto, hx]; rfl, ?_⟩
      beta_reduce
      split
      · exact (outranks_congr rfl rfl rfl rfl).trans hout
      · exact hout
  · intro v id hid
    rw [label_mergedInto] at hid
    obtain ⟨id₀, hid₀, rfl⟩ := Option.map_eq_some_iff.1 hid
    split
    · exact ⟨w, hlw, hw.2⟩
    · next hne' =>
      obtain ⟨e, he, hroot⟩ := h.target v id₀ hid₀
      exact ⟨e, lookup_mergedInto_of_ne he hne', hroot⟩
  · intro u id hid
    rw [label_mergedInto] at hid
    obtain ⟨id₀, hid₀, rfl⟩ := Option.map_eq_some_iff.1 hid
    obtain ⟨e, he, hont⟩ := h.ontology u id₀ hid₀
    split
    · next heq =>
      rw [heq, hd.1] at he; cases he
      exact ⟨w, hlw, Entity.isOntology_of_outranks hrank hont⟩
    · next hne' => exact ⟨e, lookup_mergedInto_of_ne he hne', hont⟩
  · intro e' he'
    obtain ⟨e, he, rfl⟩ := hrow e' he'
    split <;> exact (h.named e he).imp (hsome _) id
  · intro e' he'
    obtain ⟨e, he, rfl⟩ := hrow e' he'
    obtain ⟨v, hk, hid, hv⟩ := h.identified e he
    split <;> exact ⟨v, hk, hid, hv.imp (hsome v) id⟩

/-- The owner of a node: the entity its label names. -/
def Identities.owner (ids : Identities) (tenantId entityType : String) (v : Node) : Option Entity :=
  (ids.label tenantId entityType v).bind ids.entities.lookup

/-- `INSERT OR IGNORE` of the alias or external id row of a node. -/
def Identities.link (ids : Identities) (tenantId entityType : String) (v : Node) (entityId : String) : Identities :=
  match v with
  | .name n => { ids with aliases := ids.aliases.insertOrIgnore ⟨⟨tenantId, entityType, n⟩, entityId⟩ }
  | .uri u => { ids with externalIds := ids.externalIds.insertOrIgnore ⟨⟨tenantId, entityType, u⟩, entityId⟩ }

theorem label_link (v w : Node) (id : String) : (ids.link tenantId entityType v id).label tenantId entityType w =
    if v = w then (ids.label tenantId entityType v).or (some id) else ids.label tenantId entityType w := by
  cases v with
  | name n =>
    cases w with
    | name m =>
      unfold Identities.label Identities.link
      simp only [Table.lookup_insertOrIgnore, Node.name.injEq]
      by_cases hnm : n = m
      · subst hnm
        cases ids.aliases.lookup ⟨tenantId, entityType, n⟩ <;> simp [Keyed.key]
      · cases ids.aliases.lookup ⟨tenantId, entityType, m⟩ <;> simp [hnm, Keyed.key]
    | uri u => rfl
  | uri u =>
    cases w with
    | name m => rfl
    | uri y =>
      unfold Identities.label Identities.link
      simp only [Table.lookup_insertOrIgnore, Node.uri.injEq]
      by_cases huy : u = y
      · subst huy
        cases ids.externalIds.lookup ⟨tenantId, entityType, u⟩ <;> simp [Keyed.key]
      · cases ids.externalIds.lookup ⟨tenantId, entityType, y⟩ <;> simp [huy, Keyed.key]

theorem entities_link (v : Node) (id : String) : (ids.link tenantId entityType v id).entities = ids.entities := by
  cases v <;> rfl

/-- A row that is not redirected may be given another node, a URI only if it is ontology-backed. -/
theorem Tidy.link (h : Tidy env tenantId entityType pending ids) {row : Entity} (hrow : ids.Current row) {v : Node}
    (hv : ∀ u, v = .uri u → row.isOntology = true) :
    Tidy env tenantId entityType pending (ids.link tenantId entityType v row.entityId) := by
  have hsome : ∀ w, (ids.label tenantId entityType w).isSome →
      ((ids.link tenantId entityType v row.entityId).label tenantId entityType w).isSome := by
    intro w hw
    rw [label_link]
    split
    · cases ids.label tenantId entityType v <;> rfl
    · exact hw
  -- a label is an old one or the new one
  have hlabel : ∀ w id, (ids.link tenantId entityType v row.entityId).label tenantId entityType w = some id →
      ids.label tenantId entityType w = some id ∨ (w = v ∧ id = row.entityId) := by
    intro w id hid
    rw [label_link] at hid
    split at hid
    · next heq =>
      subst heq
      cases hold : ids.label tenantId entityType v with
      | none => rw [hold] at hid; cases hid; exact Or.inr ⟨rfl, rfl⟩
      | some id₀ => rw [hold] at hid; cases hid; exact Or.inl rfl
    · exact Or.inl hid
  have hent : (ids.link tenantId entityType v row.entityId).entities = ids.entities := entities_link v row.entityId
  refine ⟨?_, ?_, ?_, ?_, ?_, ?_, ?_, ?_, ?_⟩
  · rw [hent]; exact h.scope
  · intro a ha
    cases v with
    | name n =>
      rcases Table.mem_insertOrIgnore.1 ha with ha | ⟨rfl, -⟩
      · exact h.aliasScope a ha
      · exact ⟨rfl, rfl⟩
    | uri u => exact h.aliasScope a ha
  · intro x hx
    cases v with
    | name n => exact h.externalScope x hx
    | uri u =>
      rcases Table.mem_insertOrIgnore.1 hx with hx | ⟨rfl, -⟩
      · exact h.externalScope x hx
      · exact ⟨rfl, rfl⟩
  · rw [hent]; exact h.status
  · rw [hent]; exact h.redirect
  · intro w id hid
    rw [hent]
    rcases hlabel w id hid with hid | ⟨-, rfl⟩
    · exact h.target w id hid
    · exact ⟨row, hrow⟩
  · intro u id hid
    rw [hent]
    rcases hlabel _ id hid with hid | ⟨hu, rfl⟩
    · exact h.ontology u id hid
    · exact ⟨row, hrow.1, hv u hu.symm⟩
  · rw [hent]
    exact fun e he => (h.named e he).imp (hsome _) id
  · rw [hent]
    intro e he
    obtain ⟨w, hk, hid, hw⟩ := h.identified e he
    exact ⟨w, hk, hid, hw.imp (hsome w) id⟩

/-- What attaching nodes to a row does to the tables and to the edge of the call. -/
structure Attached (env : Env) (tenantId entityType : String) (pending : Node → Prop) (ids : Identities) (row : Entity)
    (vs : List Node) (ids' : Identities) (row' : Entity) : Prop where
  tidy : Tidy env tenantId entityType pending ids'
  current : ids'.Current row'
  ontology : row.isOntology = true → row'.isOntology = true
  keeps : ∀ v, (ids.label tenantId entityType v).isSome → (ids'.label tenantId entityType v).isSome
  opened : ∀ H e, OpenEdge H e (ids.label tenantId entityType) row.entityId →
    OpenEdge H (vs.reverse ++ e) (ids'.label tenantId entityType) row'.entityId

theorem Attached.trans {ids₁ ids₂ : Identities} {row row₁ row₂ : Entity} {vs ws : List Node}
    (h : Attached env tenantId entityType pending ids row vs ids₁ row₁)
    (k : Attached env tenantId entityType pending ids₁ row₁ ws ids₂ row₂) :
    Attached env tenantId entityType pending ids row (vs ++ ws) ids₂ row₂ where
  tidy := k.tidy
  current := k.current
  ontology hont := k.ontology (h.ontology hont)
  keeps v hv := k.keeps v (h.keeps v hv)
  opened H e he := by
    rw [List.reverse_append, List.append_assoc]
    exact k.opened H _ (h.opened H e he)

end Calls

end Mesa.Ledger
