/-
What a replay leaves in the stores. The rows of all lanes make one log of writes, and the log may be
redone from any point: a replay that starts at an earlier row than the stores have seen leaves what
one replay from the start leaves.
-/
import Mesa.Foundation.Redo
import Mesa.Rebuild.Replay

namespace Mesa.Rebuild

open Mesa.Foundation

/-! ## Keys of the rows -/

/-- The ids of assertions have one length, so an agent and an id can be read off their composition. -/
theorem compositeId_inj {a b x y : String} (hx : IsUuid x) (hy : IsUuid y)
    (h : Provider.compositeId a x = Provider.compositeId b y) : a = b ∧ x = y := by
  have hlist : a.toList ++ "::".toList ++ x.toList = b.toList ++ "::".toList ++ y.toList := by
    have := congrArg String.toList h
    simpa [Provider.compositeId] using this
  have hlength : x.toList.length = y.toList.length := by
    rw [String.length_toList, String.length_toList]
    exact hx.1.trans hy.1.symm
  obtain ⟨hhead, hid⟩ := List.append_inj' hlist hlength
  exact ⟨String.toList_injective (List.append_cancel_right hhead), String.toList_injective hid⟩

namespace Snapshot

variable {s : Snapshot}

theorem mem_items_vector {i : VectorItem} :
    i ∈ s.items .vector ↔ ∃ r ∈ s.registry.rows, s.vectorItem r = some i := by
  unfold items
  rw [(orderBy_perm _ _).mem_iff, List.mem_dedup, List.mem_filterMap]

theorem mem_items_assertion {i : AssertionItem} :
    i ∈ s.items .graphAssertion ↔ ∃ r ∈ s.registry.rows, s.assertionItem r = some i := by
  unfold items
  rw [(orderBy_perm _ _).mem_iff, List.mem_dedup, List.mem_filterMap]

theorem projects_iff {store : Ledger.Lane} {kind : Ledger.ArtifactKind} {r : Ledger.RegistryRow} :
    s.projects store kind r = true ↔
      s.owned r = true ∧ r.key.artifact.storeName = store ∧ r.key.artifact.artifactKind = kind := by
  simp [projects, and_assoc]

theorem assertionOf_eq_some {r : Ledger.RegistryRow} {a : AssertionRow} :
    s.assertionOf r = some a ↔ s.assertions.lookup r.key.artifact.artifactId = some a ∧ a.tenantId = r.key.tenantId := by
  simp [assertionOf, Option.filter_eq_some_iff]

theorem vectorItem_eq_some {r : Ledger.RegistryRow} {i : VectorItem} (h : s.vectorItem r = some i) :
    s.projects .vector .assertionVector r = true ∧ ∃ a, s.assertionOf r = some a ∧ i.agentId = r.key.agentId ∧
      i.assertionId = a.assertionId := by
  unfold vectorItem at h
  split at h
  · next hp =>
    obtain ⟨a, ha, h⟩ := Option.bind_eq_some_iff.1 h
    obtain ⟨subject, -, rfl⟩ := Option.map_eq_some_iff.1 h
    exact ⟨hp, a, ha, rfl, rfl⟩
  · cases h

theorem assertionItem_eq_some {r : Ledger.RegistryRow} {i : AssertionItem} (h : s.assertionItem r = some i) :
    s.projects .graph .assertion r = true ∧ ∃ a, s.assertionOf r = some a ∧ i = a.item r.key.agentId := by
  unfold assertionItem at h
  split at h
  · next hp =>
    obtain ⟨a, ha, rfl⟩ := Option.map_eq_some_iff.1 h
    exact ⟨hp, a, (Option.filter_eq_some_iff.1 ha).1, rfl⟩
  · cases h

/-- The registry has one row for an artifact, an agent and the tenant of the assertion. -/
theorem registry_unique {r r' : Ledger.RegistryRow} {a a' : AssertionRow} {store : Ledger.Lane}
    {kind : Ledger.ArtifactKind} (hr : r ∈ s.registry.rows) (hr' : r' ∈ s.registry.rows)
    (hp : s.projects store kind r = true) (hp' : s.projects store kind r' = true) (ha : s.assertionOf r = some a)
    (ha' : s.assertionOf r' = some a') (hagent : r.key.agentId = r'.key.agentId)
    (hid : a.assertionId = a'.assertionId) : r = r' := by
  obtain ⟨-, hstore, hkind⟩ := projects_iff.1 hp
  obtain ⟨-, hstore', hkind'⟩ := projects_iff.1 hp'
  obtain ⟨hl, ht⟩ := assertionOf_eq_some.1 ha
  obtain ⟨hl', ht'⟩ := assertionOf_eq_some.1 ha'
  have hartifact : r.key.artifact.artifactId = r'.key.artifact.artifactId :=
    (Table.lookup_key hl).symm.trans (hid.trans (Table.lookup_key hl'))
  rw [hartifact, hl'] at hl
  cases hl
  refine Table.eq_of_key_eq hr hr' ?_
  show r.key = r'.key
  obtain ⟨⟨tenant, agent, ⟨store₁, kind₁, id⟩⟩, state⟩ := r
  obtain ⟨⟨tenant', agent', ⟨store₂, kind₂, id'⟩⟩, state'⟩ := r'
  simp only at hstore hstore' hkind hkind' hagent hartifact ht ht' ⊢
  rw [hstore, hstore', hkind, hkind', hagent, hartifact, ← ht, ← ht']

/-- A vector is named by its agent and its assertion. -/
theorem vectorItem_unique {i j : VectorItem} (hi : i ∈ s.items .vector) (hj : j ∈ s.items .vector)
    (hagent : i.agentId = j.agentId) (hid : i.assertionId = j.assertionId) : i = j := by
  obtain ⟨r, hr, hri⟩ := mem_items_vector.1 hi
  obtain ⟨r', hr', hrj⟩ := mem_items_vector.1 hj
  obtain ⟨hp, a, ha, hia, hid₁⟩ := vectorItem_eq_some hri
  obtain ⟨hp', a', ha', hja, hid₂⟩ := vectorItem_eq_some hrj
  obtain rfl := registry_unique hr hr' hp hp' ha ha' (by rw [← hia, ← hja, hagent]) (by rw [← hid₁, ← hid₂, hid])
  exact Option.some.inj (hri.symm.trans hrj)

/-- So is an assertion of the graph. -/
theorem assertionItem_unique {i j : AssertionItem} (hi : i ∈ s.items .graphAssertion)
    (hj : j ∈ s.items .graphAssertion) (hagent : i.agentId = j.agentId) (hid : i.assertionId = j.assertionId) :
    i = j := by
  obtain ⟨r, hr, hri⟩ := mem_items_assertion.1 hi
  obtain ⟨r', hr', hrj⟩ := mem_items_assertion.1 hj
  obtain ⟨hp, a, ha, rfl⟩ := assertionItem_eq_some hri
  obtain ⟨hp', a', ha', rfl⟩ := assertionItem_eq_some hrj
  obtain rfl := registry_unique hr hr' hp hp' ha ha' hagent hid
  exact Option.some.inj (hri.symm.trans hrj)

theorem assertionItem_row {i : AssertionItem} (hi : i ∈ s.items .graphAssertion) :
    ∃ a ∈ s.assertions.rows, ∃ agentId, i = a.item agentId := by
  obtain ⟨r, -, hri⟩ := mem_items_assertion.1 hi
  obtain ⟨-, a, ha, rfl⟩ := assertionItem_eq_some hri
  exact ⟨a, Table.lookup_mem (assertionOf_eq_some.1 ha).1, _, rfl⟩

/-- Its key in the graph names it, too. -/
theorem assertionItem_composite {i j : AssertionItem} (hi : i ∈ s.items .graphAssertion)
    (hj : j ∈ s.items .graphAssertion)
    (h : Provider.compositeId i.agentId i.assertionId = Provider.compositeId j.agentId j.assertionId) : i = j := by
  obtain ⟨a, ha, agent, rfl⟩ := assertionItem_row hi
  obtain ⟨b, hb, agent', rfl⟩ := assertionItem_row hj
  obtain ⟨hagent, hid⟩ := compositeId_inj (s.assertionIds a ha) (s.assertionIds b hb) h
  exact assertionItem_unique hi hj hagent hid

/-- The schema gives an assertion one object. -/
theorem assertionItem_valid {i : AssertionItem} (hi : i ∈ s.items .graphAssertion) : i.operation.invalid = false := by
  obtain ⟨a, ha, agent, rfl⟩ := assertionItem_row hi
  have hobject := s.objectTarget a ha
  unfold AssertionItem.operation AssertionRow.item Provider.Operation.invalid
  cases ho : a.objectEntityId <;> cases hl : a.literalValue <;> simp_all

end Snapshot

/-! ## The log of a replay -/

variable {F σ : Type}

/-- What a row writes. -/
def itemWrite (enc : Encoder F) : (lane : ReplayLane) → lane.Item → StoreWrite F
  | .vector, i => .upsert [VectorItem.record enc i]
  | .graphEntity, i =>
    .graph (.mergeNode ⟨Provider.compositeId (EntityItem.agentId i) i.entityId, i.canonicalName, i.agentId⟩)
  | .graphAssertion, i =>
    .graph (.mergeAssertion (Provider.compositeId (AssertionItem.agentId i) i.assertionId) i.agentId i.properties
      (Provider.compositeId i.agentId i.subjectId) (Provider.objectKey i.agentId i.objectEntityId))
  | .graphLink, i => .graph (LinkItem.statement i)

section

variable (s : Snapshot) (graphEnabled : Bool) (enc : Encoder F)

def laneLog (lane : ReplayLane) : List (StoreWrite F) :=
  if graphEnabled ∨ lane = .vector then (s.items lane).map (itemWrite enc lane) else []

/-- The writes of all rows, lane by lane. -/
def replayLog : List (StoreWrite F) := lanes.flatMap (laneLog s graphEnabled enc)

/-- The stores after the first rows. -/
def content (k : Nat) : Staging F := applied Staging.write (replayLog s graphEnabled enc) .empty k

end

/-- A batch of vectors is written row by row. -/
theorem write_upsert_cons (t : Staging F) (r : VectorRecord F) (rs : List (VectorRecord F)) :
    t.write (.upsert (r :: rs)) = (t.write (.upsert [r])).write (.upsert rs) := rfl

/-! ### Writes that are settled -/

theorem lookup_upsertRecord (t : Table (VectorRecord F)) (r : VectorRecord F) (k : String × String) :
    (upsertRecord t r).lookup k = if Keyed.key r = k then some r else t.lookup k := by
  unfold upsertRecord
  rw [Table.lookup_upsert]
  by_cases hk : Keyed.key r = k
  · rw [if_pos hk, if_pos hk]
    rcases hx : t.lookup k with _ | x
    · rfl
    · have hkey : Keyed.key x = Keyed.key r := (Table.lookup_key hx).trans hk.symm
      obtain ⟨hnode, hagent⟩ := Prod.mk.inj hkey
      rw [Option.map_some, Option.getD_some, hnode, hagent]
  · rw [if_neg hk, if_neg hk]

theorem merged_merged (ends : List String) (e : String) :
    Provider.merged (Provider.merged ends e) e = Provider.merged ends e := by
  unfold Provider.merged
  by_cases h : e ∈ ends <;> simp [h]

theorem mem_merged {ends : List String} {e x : String} : x ∈ Provider.merged ends e ↔ x ∈ ends ∨ x = e := by
  unfold Provider.merged
  split
  · next h => exact ⟨.inl, fun hx => hx.elim id fun heq => heq ▸ h⟩
  · simp

theorem merged_eq_self_iff {ends : List String} {e : String} : Provider.merged ends e = ends ↔ e ∈ ends := by
  unfold Provider.merged
  split
  · next h => simp [h]
  · next h => simp [h]

/-- A relation that an assertion has stays when it gets others. -/
theorem linked_linked {r : Provider.AssertionRow AssertionProperties} {subject subject' : String}
    {object object' : Option String} (h : r.linked subject object = r) :
    (r.linked subject' object').linked subject object = r.linked subject' object' := by
  obtain ⟨id, agentId, properties, subjects, objects⟩ := r
  unfold Provider.AssertionRow.linked at h ⊢
  simp only [Provider.AssertionRow.mk.injEq, true_and] at h ⊢
  obtain ⟨hs, ho⟩ := h
  refine ⟨merged_eq_self_iff.2 (mem_merged.2 (.inl (merged_eq_self_iff.1 hs))), ?_⟩
  cases object with
  | none => rfl
  | some o =>
    refine merged_eq_self_iff.2 ?_
    have hmem : o ∈ objects := merged_eq_self_iff.1 ho
    cases object' with
    | none => exact hmem
    | some o' => exact mem_merged.2 (.inl hmem)

theorem linked_idempotent (r : Provider.AssertionRow AssertionProperties) (subject : String) (object : Option String) :
    (r.linked subject object).linked subject object = r.linked subject object := by
  unfold Provider.AssertionRow.linked
  cases object <;> simp [merged_merged]

/-- A row whose write changes nothing any more. -/
def Settled (enc : Encoder F) (t : Staging F) : (lane : ReplayLane) → lane.Item → Prop
  | .vector, i => t.vectors.lookup (VectorItem.assertionId i, i.agentId) = some (i.record enc)
  | .graphEntity, i => t.graph.entities.hasKey (Provider.compositeId (EntityItem.agentId i) i.entityId) = true
  | .graphAssertion, i =>
    let subject := Provider.compositeId (AssertionItem.agentId i) i.subjectId
    let object := Provider.objectKey i.agentId i.objectEntityId
    t.graph.matches subject object = true →
      ∃ r, t.graph.assertions.lookup (Provider.compositeId i.agentId i.assertionId) = some r ∧
        r.linked subject object = r
  | .graphLink, i => t.graph.apply (LinkItem.statement i) = t.graph

theorem settled_iff (enc : Encoder F) (t : Staging F) : (lane : ReplayLane) → (i : lane.Item) →
    (t.write (itemWrite enc lane i) = t ↔ Settled enc t lane i)
  | .vector, i => by
    obtain ⟨vectors, graph⟩ := t
    have hcongr : Staging.write ⟨vectors, graph⟩ (itemWrite enc .vector i) = ⟨vectors, graph⟩ ↔
        upsertRecord vectors (VectorItem.record enc i) = vectors := by simp [Staging.write, itemWrite]
    rw [hcongr]
    constructor
    · intro h
      have := lookup_upsertRecord vectors (VectorItem.record enc i) (Keyed.key (VectorItem.record enc i))
      rw [if_pos rfl, h] at this
      exact this
    · exact fun h => Table.upsert_eq_self_iff.2 ⟨_, h, rfl⟩
  | .graphEntity, i => by
    obtain ⟨vectors, ⟨entities, assertions, links⟩⟩ := t
    simp only [Staging.write, itemWrite, Provider.Graph.apply, Staging.mk.injEq, Provider.Graph.mk.injEq, and_true,
      true_and]
    exact Table.insertOrIgnore_eq_self_iff
  | .graphAssertion, i => by
    obtain ⟨vectors, ⟨entities, assertions, links⟩⟩ := t
    simp only [Staging.write, itemWrite, Provider.Graph.apply, Provider.Graph.mergeAssertion, Staging.mk.injEq, true_and,
      Settled]
    split
    · next hm =>
      simp only [Provider.Graph.mk.injEq, and_true, true_and, hm, true_imp_iff]
      exact Table.upsert_eq_self_iff
    · next hm => simp [hm]
  | .graphLink, i => by
    obtain ⟨vectors, graph⟩ := t
    simp [Staging.write, itemWrite, Settled]

def ReplayLane.rank : ReplayLane → Nat
  | .vector => 0
  | .graphEntity => 1
  | .graphAssertion => 2
  | .graphLink => 3

theorem mergeLink_eq_self_iff {g : Provider.Graph AssertionProperties} {agentId : String} {l : Provider.LinkRow} :
    g.mergeLink agentId l = g ↔
      ((g.assertions.lookup l.source).any (fun r => r.agentId = agentId) &&
        (g.assertions.lookup l.target).any (fun r => r.agentId = agentId)) = true →
      g.links.hasKey (l.source, l.target) = true := by
  obtain ⟨entities, assertions, links⟩ := g
  unfold Provider.Graph.mergeLink
  split
  · next hc =>
    simp only [Provider.Graph.mk.injEq, true_and, hc, true_imp_iff]
    exact Table.insertOrIgnore_eq_self_iff
  · next hc => simp [hc]

theorem mergeLink_entities (g : Provider.Graph AssertionProperties) (agentId : String) (l : Provider.LinkRow) :
    (g.mergeLink agentId l).entities = g.entities ∧ (g.mergeLink agentId l).assertions = g.assertions := by
  unfold Provider.Graph.mergeLink
  split <;> exact ⟨rfl, rfl⟩

theorem mergeAssertion_entities (g : Provider.Graph AssertionProperties) (id agentId : String)
    (properties : AssertionProperties) (subject : String) (object : Option String) :
    (g.mergeAssertion id agentId properties subject object).entities = g.entities := by
  unfold Provider.Graph.mergeAssertion
  split <;> rfl

theorem lookup_mergeAssertion (g : Provider.Graph AssertionProperties) (id agentId : String)
    (properties : AssertionProperties) (subject : String) (object : Option String) (k : String) :
    (g.mergeAssertion id agentId properties subject object).assertions.lookup k =
      if g.matches subject object = true ∧ id = k then
        some (((g.assertions.lookup k).getD ⟨id, agentId, properties, [], []⟩).linked subject object)
      else g.assertions.lookup k := by
  unfold Provider.Graph.mergeAssertion
  by_cases hm : g.matches subject object = true
  · rw [if_pos hm]
    show (Table.upsert _ _ _ _).lookup k = _
    rw [Table.lookup_upsert]
    by_cases hk : id = k
    · rw [if_pos (show Keyed.key (Provider.AssertionRow.linked subject object ⟨id, agentId, properties, [], []⟩) = k
        from hk), if_pos ⟨hm, hk⟩]
      cases g.assertions.lookup k <;> rfl
    · rw [if_neg (show Keyed.key (Provider.AssertionRow.linked subject object ⟨id, agentId, properties, [], []⟩) ≠ k
        from hk), if_neg fun h => hk h.2]
  · rw [if_neg hm, if_neg fun h => hm h.1]

/-- A row is settled once it is written. -/
theorem settled_write_self (enc : Encoder F) (t : Staging F) : (lane : ReplayLane) → (i : lane.Item) →
    Settled enc (t.write (itemWrite enc lane i)) lane i
  | .vector, i => by
    show (upsertRecord t.vectors (VectorItem.record enc i)).lookup (Keyed.key (VectorItem.record enc i)) = _
    rw [lookup_upsertRecord, if_pos rfl]
  | .graphEntity, i => by
    show (Table.insertOrIgnore _ _).hasKey _ = true
    rw [Table.hasKey_insertOrIgnore]
    simp [Keyed.key]
  | .graphAssertion, i => by
    intro hm
    have hm' : t.graph.matches (Provider.compositeId (AssertionItem.agentId i) i.subjectId)
        (Provider.objectKey i.agentId i.objectEntityId) = true := by
      simpa only [Staging.write, itemWrite, Provider.Graph.apply, Provider.Graph.matches, mergeAssertion_entities] using hm
    refine ⟨_, (lookup_mergeAssertion ..).trans (if_pos ⟨hm', rfl⟩), linked_idempotent ..⟩
  | .graphLink, i => by
    have hkeep := mergeLink_entities t.graph (LinkItem.agentId i)
      ⟨Provider.compositeId i.agentId i.sourceAssertionId, Provider.compositeId i.agentId i.targetAssertionId,
        i.relationType⟩
    refine mergeLink_eq_self_iff.2 fun hc => ?_
    simp only [Staging.write, itemWrite, LinkItem.statement, Provider.Graph.apply, hkeep.2] at hc ⊢
    unfold Provider.Graph.mergeLink
    rw [if_pos hc, Table.hasKey_insertOrIgnore]
    simp [Keyed.key]

/-- It stays settled when rows of its lane or of a later lane are written. -/
theorem Settled.write {s : Snapshot} {enc : Encoder F} {t : Staging F} : {lane lane' : ReplayLane} → {i : lane.Item} →
    {j : lane'.Item} → i ∈ s.items lane → j ∈ s.items lane' → lane.rank ≤ lane'.rank → Settled enc t lane i →
    Settled enc (t.write (itemWrite enc lane' j)) lane i
  | .vector, .vector, i, j, hi, hj, _, h => by
    show (upsertRecord t.vectors (VectorItem.record enc j)).lookup _ = _
    rw [lookup_upsertRecord]
    split
    · next hkey =>
      obtain ⟨hid, hagent⟩ := Prod.mk.inj hkey
      rw [Snapshot.vectorItem_unique hj hi hagent hid]
    · exact h
  | .vector, .graphEntity, _, _, _, _, _, h | .vector, .graphAssertion, _, _, _, _, _, h | .vector, .graphLink, _, _, _, _, _, h => h
  | .graphEntity, .graphEntity, i, j, _, _, _, h => by
    show (Table.insertOrIgnore _ _).hasKey _ = true
    rw [Table.hasKey_insertOrIgnore, Bool.or_eq_true]
    exact .inl h
  | .graphEntity, .graphAssertion, i, j, _, _, _, h => by
    show (Provider.Graph.mergeAssertion _ _ _ _ _ _).entities.hasKey _ = true
    rw [mergeAssertion_entities]
    exact h
  | .graphEntity, .graphLink, i, j, _, _, _, h => by
    show (Provider.Graph.mergeLink _ _ _).entities.hasKey _ = true
    rw [(mergeLink_entities ..).1]
    exact h
  | .graphAssertion, .graphAssertion, i, j, _, _, _, h => by
    intro hm
    obtain ⟨r, hr, hlinked⟩ := h (by
      simpa only [Staging.write, itemWrite, Provider.Graph.apply, Provider.Graph.matches, mergeAssertion_entities]
        using hm)
    simp only [Staging.write, itemWrite, Provider.Graph.apply]
    rw [lookup_mergeAssertion, hr]
    split
    · exact ⟨_, rfl, linked_linked hlinked⟩
    · exact ⟨r, rfl, hlinked⟩
  | .graphAssertion, .graphLink, i, j, _, _, _, h => by
    simpa only [Staging.write, itemWrite, LinkItem.statement, Provider.Graph.apply, Settled, Provider.Graph.matches,
      mergeLink_entities] using h
  | .graphLink, .graphLink, i, j, _, _, _, h => by
    have hkeep := mergeLink_entities t.graph (LinkItem.agentId j)
      ⟨Provider.compositeId j.agentId j.sourceAssertionId, Provider.compositeId j.agentId j.targetAssertionId,
        j.relationType⟩
    refine mergeLink_eq_self_iff.2 fun hc => ?_
    simp only [Staging.write, itemWrite, LinkItem.statement, Provider.Graph.apply, hkeep.2] at hc ⊢
    have hkey := mergeLink_eq_self_iff.1 (show Provider.Graph.mergeLink _ _ _ = _ from h) hc
    unfold Provider.Graph.mergeLink
    split
    · rw [Table.hasKey_insertOrIgnore, hkey]
      rfl
    · exact hkey
  | .graphEntity, .vector, _, _, _, _, hle, _ | .graphAssertion, .vector, _, _, _, _, hle, _ | .graphLink, .vector, _, _, _, _, hle, _
  | .graphAssertion, .graphEntity, _, _, _, _, hle, _ | .graphLink, .graphEntity, _, _, _, _, hle, _
  | .graphLink, .graphAssertion, _, _, _, _, hle, _ => by simp [ReplayLane.rank] at hle

/-- The log may be redone. -/
theorem replayLog_redoable (s : Snapshot) (graphEnabled : Bool) (enc : Encoder F) :
    Redoable Staging.write (replayLog s graphEnabled enc) := by
  have hmem : ∀ {lane w}, w ∈ laneLog s graphEnabled enc lane → ∃ i ∈ s.items lane, itemWrite enc lane i = w := by
    intro lane w hw
    unfold laneLog at hw
    split at hw
    · exact List.mem_map.1 hw
    · cases hw
  have hsettled : ∀ {lane lane' w w'}, lane.rank ≤ lane'.rank → w ∈ laneLog s graphEnabled enc lane →
      w' ∈ laneLog s graphEnabled enc lane' → ∀ t : Staging F, t.write w = t → (t.write w').write w = t.write w' := by
    intro lane lane' w w' hle hw hw' t h
    obtain ⟨i, hi, rfl⟩ := hmem hw
    obtain ⟨j, hj, rfl⟩ := hmem hw'
    exact (settled_iff ..).2 (((settled_iff ..).1 h).write hi hj hle)
  constructor
  · intro w hw t
    obtain ⟨lane, -, hw⟩ := List.mem_flatMap.1 hw
    obtain ⟨i, -, rfl⟩ := hmem hw
    exact (settled_iff ..).2 (settled_write_self ..)
  · unfold replayLog
    rw [List.pairwise_flatMap]
    refine ⟨fun lane _ => List.pairwise_of_forall_mem_list fun w hw w' hw' => hsettled le_rfl hw hw', ?_⟩
    refine List.Pairwise.imp (R := fun l l' : ReplayLane => l.rank ≤ l'.rank) (fun hle w hw w' hw' => hsettled hle hw hw')
      ?_
    decide

end Mesa.Rebuild
