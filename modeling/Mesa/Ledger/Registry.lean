/-
Reference counting of the artifact registry: a row is ACTIVE exactly while somebody owns it, and
a deleted artifact stays deleted. The registry row and its source rows are written by separate
statements of four operations; the invariant that ties them together is `Ownership.Counted`.
-/
import Mesa.Ledger.Footprint

namespace Mesa.Ledger

open Mesa.Foundation

/-! ## The invariant -/

namespace Ownership

/-- The registry state of an artifact. -/
def artifactState (o : Ownership) (key : RegistryKey) : Option ArtifactState := (o.registry.lookup key).map (·.state)

/-- Somebody owns the artifact. -/
def owned (o : Ownership) (key : RegistryKey) : Bool :=
  o.sources.anyWhere fun s => s.key.registry = key && s.state = .active

/-- A registry row is ACTIVE if and only if it has an ACTIVE source row. -/
def Exact (o : Ownership) : Prop := ∀ key s, o.artifactState key = some s → (s = .active ↔ o.owned key = true)

/-- No deleted artifact is tombstoned again. -/
def NoRevival (o o' : Ownership) : Prop :=
  ∀ key, o.artifactState key = some .deleted → o'.artifactState key ≠ some .tombstoned

/-- The registry counts its owners exactly, every source row has its registry row, and a cleanup is
queued for a row only when it is not ACTIVE. -/
structure Counted (o : Ownership) : Prop where
  exact : o.Exact
  sources : ∀ s ∈ o.sources.rows, o.artifactState s.key.registry ≠ none
  cleanup : ∀ x ∈ o.cleanup.rows, ∃ s, o.artifactState x.key.registry = some s ∧ s ≠ .active

theorem owned_iff {o : Ownership} {key : RegistryKey} :
    o.owned key = true ↔ ∃ s ∈ o.sources.rows, s.key.registry = key ∧ s.state = .active := by
  simp [owned, Table.anyWhere_iff]

theorem NoRevival.refl (o : Ownership) : o.NoRevival o := fun _ h => by rw [h]; decide

end Ownership

/-! ## Registration -/

theorem artifactState_register (o : Ownership) (m : Mutation) (a : Artifact) (key : RegistryKey) :
    (o.register m a).artifactState key =
      (o.artifactState key).or (if registryKey m.tenantId m.agentId a = key then some .active else none) := by
  show ((o.registry.insertOrIgnore _).lookup key).map (·.state) = _
  rw [Table.lookup_insertOrIgnore, Ownership.artifactState]
  cases o.registry.lookup key with
  | some r => rfl
  | none =>
    show Option.map _ (if registryKey m.tenantId m.agentId a = key then _ else _) = _
    split <;> rfl

/-- A registration that finds its row ACTIVE, or makes it, keeps the count. -/
theorem counted_register {o : Ownership} {m : Mutation} {a : Artifact} (h : o.Counted)
    (hok : o.artifactState (registryKey m.tenantId m.agentId a) ∈ [none, some .active] ∨
      o.sources.hasKey (sourceRow m a).key = true) :
    (o.register m a).Counted ∧ o.NoRevival (o.register m a) := by
  have hrow : o.artifactState (registryKey m.tenantId m.agentId a) ≠ none →
      ∀ key, (o.register m a).artifactState key = o.artifactState key := by
    intro hne key
    rw [artifactState_register]
    split
    · next hk =>
      subst hk
      cases hs : o.artifactState (registryKey m.tenantId m.agentId a) with
      | none => exact absurd hs hne
      | some s => rfl
    · rw [Option.or_none]
  refine ⟨⟨?_, ?_, ?_⟩, ?_⟩
  · intro key s hs
    by_cases hold : o.sources.hasKey (sourceRow m a).key = true
    · -- the mutation registered before: nothing changes
      have hsrc : (o.register m a).sources = o.sources := Table.insertOrIgnore_of_hasKey hold
      obtain ⟨x, hx⟩ := Option.isSome_iff_exists.1 (Table.hasKey_iff.1 hold)
      have hne := h.sources x (Table.lookup_mem hx)
      rw [show x.key = (sourceRow m a).key from Table.lookup_key hx] at hne
      rw [hrow hne] at hs
      rw [Ownership.owned, hsrc]; exact h.exact key s hs
    · have hnew : o.sources.lookup (sourceRow m a).key = none := Table.hasKey_eq_false.1 (by simpa using hold)
      have hmem : ∀ x, x ∈ (o.register m a).sources.rows ↔ x ∈ o.sources.rows ∨ x = sourceRow m a := by
        intro x
        show x ∈ (o.sources.insertOrIgnore (sourceRow m a)).rows ↔ _
        rw [Table.mem_insertOrIgnore]
        exact or_congr_right ⟨fun hx => hx.1, fun hx => ⟨hx, hnew⟩⟩
      have howned : (o.register m a).owned key = true ↔
          o.owned key = true ∨ registryKey m.tenantId m.agentId a = key := by
        rw [Ownership.owned_iff, Ownership.owned_iff]
        constructor
        · rintro ⟨x, hx, hk, hact⟩
          rcases (hmem x).1 hx with hx | rfl
          · exact Or.inl ⟨x, hx, hk, hact⟩
          · exact Or.inr hk
        · rintro (⟨x, hx, hk, hact⟩ | hk)
          · exact ⟨x, (hmem x).2 (Or.inl hx), hk, hact⟩
          · exact ⟨sourceRow m a, (hmem _).2 (Or.inr rfl), hk, rfl⟩
      rw [howned]
      rw [artifactState_register] at hs
      have hok' := hok.resolve_right hold
      by_cases hk : registryKey m.tenantId m.agentId a = key
      · subst hk
        refine ⟨fun _ => Or.inr rfl, fun _ => ?_⟩
        simp only [List.mem_cons, List.not_mem_nil, or_false] at hok'
        rcases hok' with hn | hact
        · rw [hn, if_pos rfl] at hs; cases hs; rfl
        · rw [hact] at hs; cases hs; rfl
      · rw [if_neg hk, Option.or_none] at hs
        rw [h.exact key s hs]
        exact ⟨Or.inl, fun hx => hx.resolve_right hk⟩
  · intro x hx
    rw [artifactState_register]
    rcases Table.mem_insertOrIgnore.1 hx with hx | ⟨rfl, -⟩
    · have := h.sources x hx
      cases hs : o.artifactState x.key.registry with
      | none => exact absurd hs this
      | some s => simp
    · show (o.artifactState (registryKey m.tenantId m.agentId a)).or (if _ = registryKey m.tenantId m.agentId a
        then _ else _) ≠ none
      rw [if_pos rfl]
      cases o.artifactState (registryKey m.tenantId m.agentId a) <;> simp
  · intro x hx
    obtain ⟨s, hs, hne⟩ := h.cleanup x hx
    exact ⟨s, by rw [artifactState_register, hs]; rfl, hne⟩
  · intro key hs
    rw [artifactState_register, hs]; simp

/-! ## Release and tombstones -/

theorem mem_releaseSources {o : Ownership} {id : String} {s : SourceRow} (hs : s ∈ (releaseSources o id).sources.rows)
    (hact : s.state = .active) : s ∈ o.sources.rows ∧ s.pipelineRunId ≠ id := by
  obtain ⟨x, hx, hif⟩ := Table.mem_updated.1 hs
  split at hif
  · rw [← hif] at hact; cases hact
  · next hp =>
    subst hif
    exact ⟨hx, fun hid => hp (by simp [hid, hact])⟩

theorem mem_unownedArtifacts {o : Ownership} {id : String} {key : RegistryKey} :
    key ∈ unownedArtifacts o id ↔ o.artifactState key ≠ none ∧
      (∃ s ∈ o.sources.rows, s.key.registry = key ∧ s.pipelineRunId = id) ∧ o.owned key = false := by
  have hany : ∀ r : RegistryRow, (o.sources.anyWhere fun s => s.key.registry = r.key && s.state = .active) =
      o.owned r.key := fun _ => rfl
  simp only [unownedArtifacts, List.mem_map, Table.mem_select, hany, Bool.and_eq_true, Bool.not_eq_true',
    Table.anyWhere_iff, decide_eq_true_eq]
  constructor
  · rintro ⟨r, ⟨hr, hs, hn⟩, rfl⟩
    refine ⟨?_, hs, hn⟩
    rw [Ownership.artifactState, show o.registry.lookup r.key = some r from Table.lookup_of_mem hr]; simp
  · rintro ⟨hne, hs, hn⟩
    cases hl : o.registry.lookup key with
    | none => rw [Ownership.artifactState, hl] at hne; exact absurd rfl hne
    | some r =>
      have hk : r.key = key := Table.lookup_key hl
      exact ⟨r, ⟨Table.lookup_mem hl, by rw [hk]; exact hs, by rw [hk]; exact hn⟩, hk⟩

theorem artifactState_tombstoneUnowned (o : Ownership) (id : String) (keys : List RegistryKey) (key : RegistryKey) :
    (tombstoneUnowned o id keys).artifactState key =
      if key ∈ keys then (o.artifactState key).map fun _ => .tombstoned else o.artifactState key := by
  unfold tombstoneUnowned Ownership.artifactState
  rw [Table.lookup_update]
  cases hl : o.registry.lookup key with
  | none => simp
  | some r =>
    have hk : r.key = key := Table.lookup_key hl
    by_cases hm : key ∈ keys <;> simp [hk, hm]

theorem mem_queued {id : String} : ∀ {keys : List RegistryKey} {t : Table CleanupRow} {x : CleanupRow},
    x ∈ (keys.foldl (fun t key => t.insertOrIgnore (pendingCleanup id key)) t).rows →
      x ∈ t.rows ∨ (x.key.pipelineRunId = id ∧ x.key.registry ∈ keys)
  | [], _, _, h => Or.inl h
  | key :: rest, t, x, h => by
    rw [List.foldl_cons] at h
    rcases mem_queued h with h | ⟨hid, hk⟩
    · rcases Table.mem_insertOrIgnore.1 h with h | ⟨rfl, -⟩
      · exact Or.inl h
      · exact Or.inr ⟨rfl, List.mem_cons_self⟩
    · exact Or.inr ⟨hid, List.mem_cons_of_mem _ hk⟩

/-- A release, and a tombstone for each row that loses its last owner, keep the count. -/
theorem counted_release {o : Ownership} {id : String} (h : o.Counted)
    (hok : ∀ key, o.artifactState key = some .deleted → ∀ s ∈ o.sources.rows, s.key.registry = key →
      s.pipelineRunId ≠ id) :
    (tombstoneUnowned (releaseSources o id) id (unownedArtifacts (releaseSources o id) id)).Counted ∧
      o.NoRevival (tombstoneUnowned (releaseSources o id) id (unownedArtifacts (releaseSources o id) id)) := by
  have hstate : ∀ key, (releaseSources o id).artifactState key = o.artifactState key := fun _ => rfl
  -- a source row of the released tables is one of the old ones, at most released
  have hback : ∀ s ∈ (releaseSources o id).sources.rows, ∃ x ∈ o.sources.rows, x.key = s.key ∧
      x.pipelineRunId = s.pipelineRunId := by
    intro s hs
    obtain ⟨x, hx, rfl⟩ := Table.mem_updated.1 hs
    exact ⟨x, hx, by split <;> rfl, by split <;> rfl⟩
  have hmem : ∀ {key}, key ∈ unownedArtifacts (releaseSources o id) id →
      (releaseSources o id).owned key = false ∧ ∃ s ∈ o.sources.rows, s.key.registry = key ∧ s.pipelineRunId = id := by
    intro key hk
    obtain ⟨-, ⟨s, hs, hkey, hid⟩, hn⟩ := mem_unownedArtifacts.1 hk
    obtain ⟨x, hx, hxk, hxid⟩ := hback s hs
    exact ⟨hn, x, hx, by rw [hxk]; exact hkey, hxid.trans hid⟩
  refine ⟨⟨?_, ?_, ?_⟩, ?_⟩
  · intro key s hs
    rw [artifactState_tombstoneUnowned, hstate] at hs
    show s = .active ↔ (releaseSources o id).owned key = true
    by_cases hk : key ∈ unownedArtifacts (releaseSources o id) id
    · rw [if_pos hk] at hs
      obtain ⟨y, -, rfl⟩ := Option.map_eq_some_iff.1 hs
      rw [(hmem hk).1]
      simp
    · rw [if_neg hk] at hs
      rw [h.exact key s hs]
      constructor
      · intro ho
        by_contra hno
        obtain ⟨x, hx, hxk, hxact⟩ := Ownership.owned_iff.1 ho
        -- the row that owned it belonged to the run, so the artifact lost its last owner
        by_cases hid : x.pipelineRunId = id
        · refine hk (mem_unownedArtifacts.2 ⟨by rw [hstate, hs]; simp, ?_, by simpa using hno⟩)
          exact ⟨{ x with state := .released }, Table.mem_updated.2 ⟨x, hx, by simp [hid, hxact]⟩, hxk, hid⟩
        · exact hno (Ownership.owned_iff.2 ⟨x, Table.mem_updated.2 ⟨x, hx, by simp [hid]⟩, hxk, hxact⟩)
      · intro ho
        obtain ⟨x, hx, hxk, hxact⟩ := Ownership.owned_iff.1 ho
        exact Ownership.owned_iff.2 ⟨x, (mem_releaseSources hx hxact).1, hxk, hxact⟩
  · intro s hs
    obtain ⟨x, hx, hxk, -⟩ := hback s hs
    rw [artifactState_tombstoneUnowned, hstate, ← hxk]
    have := h.sources x hx
    split
    · rw [Ne, Option.map_eq_none_iff]; exact this
    · exact this
  · intro x hx
    rw [artifactState_tombstoneUnowned, hstate]
    by_cases hk : x.key.registry ∈ unownedArtifacts (releaseSources o id) id
    · rw [if_pos hk]
      obtain ⟨hne, -⟩ := mem_unownedArtifacts.1 hk
      obtain ⟨s, hs⟩ := Option.ne_none_iff_exists'.1 hne
      rw [hstate] at hs
      exact ⟨.tombstoned, by rw [hs]; rfl, by decide⟩
    · rw [if_neg hk]
      rcases mem_queued hx with hx | ⟨-, hk'⟩
      · exact h.cleanup x hx
      · exact absurd hk' hk
  · intro key hs
    rw [artifactState_tombstoneUnowned, hstate]
    by_cases hk : key ∈ unownedArtifacts (releaseSources o id) id
    · obtain ⟨-, x, hx, hxk, hid⟩ := hmem hk
      exact absurd hid (hok key hs x hx hxk)
    · rw [if_neg hk, hs]; decide

/-! ## Compensation and cleanup -/

theorem artifactState_tombstone (o : Ownership) (id : String) (k key : RegistryKey) :
    (o.tombstone id k).artifactState key = if key = k then some .tombstoned else o.artifactState key := by
  unfold Ownership.tombstone Ownership.artifactState
  rw [Table.lookup_update, Table.lookup_insertOrIgnore]
  by_cases hk : key = k
  · subst hk
    cases hl : o.registry.lookup key with
    | none =>
      show Option.map _ (Option.map _ (if key = key then _ else _)) = _
      simp
    | some r =>
      have hr : r.key = key := Table.lookup_key hl
      simp [hr]
  · have hk' : Keyed.key (⟨k, .tombstoned⟩ : RegistryRow) ≠ key := Ne.symm hk
    rw [if_neg hk, if_neg hk', Option.or_none]
    cases hl : o.registry.lookup key with
    | none => rfl
    | some r =>
      have hr : r.key ≠ k := by rw [show r.key = key from Table.lookup_key hl]; exact hk
      simp [hr]

/-- A tombstone for an artifact that is unknown or tombstoned keeps the count. -/
theorem counted_tombstone {o : Ownership} {id : String} {k : RegistryKey} (h : o.Counted)
    (hok : o.artifactState k ∈ [none, some .tombstoned]) :
    (o.tombstone id k).Counted ∧ o.NoRevival (o.tombstone id k) := by
  have hfree : o.owned k = false := by
    rw [← Bool.not_eq_true]
    intro ho
    simp only [List.mem_cons, List.not_mem_nil, or_false] at hok
    rcases hok with hn | ht
    · obtain ⟨x, hx, hxk, -⟩ := Ownership.owned_iff.1 ho
      exact h.sources x hx (by rw [hxk]; exact hn)
    · have := (h.exact k _ ht).2 ho; cases this
  refine ⟨⟨?_, ?_, ?_⟩, ?_⟩
  · intro key s hs
    rw [artifactState_tombstone] at hs
    show s = .active ↔ o.owned key = true
    by_cases hk : key = k
    · subst hk
      rw [if_pos rfl] at hs; cases hs
      rw [hfree]; simp
    · rw [if_neg hk] at hs; exact h.exact key s hs
  · intro s hs
    rw [artifactState_tombstone]
    split
    · simp
    · exact h.sources s hs
  · intro x hx
    rw [artifactState_tombstone]
    rcases Table.mem_insertOrIgnore.1 hx with hx | ⟨rfl, -⟩
    · split
      · exact ⟨_, rfl, by decide⟩
      · exact h.cleanup x hx
    · exact ⟨.tombstoned, if_pos rfl, by decide⟩
  · intro key hs
    rw [artifactState_tombstone]
    split
    · next hk => rw [hk] at hs; rw [hs] at hok; exact absurd hok (by decide)
    · rw [hs]; decide

theorem counted_tombstoneAll {id : String} {key : Artifact → RegistryKey} : ∀ {artifacts : List Artifact} {o : Ownership},
    o.Counted → (∀ a ∈ artifacts, o.artifactState (key a) ∈ [none, some .tombstoned]) →
      (artifacts.foldl (fun o a => o.tombstone id (key a)) o).Counted ∧
        o.NoRevival (artifacts.foldl (fun o a => o.tombstone id (key a)) o)
  | [], o, h, _ => ⟨h, .refl o⟩
  | a :: rest, o, h, hok => by
    obtain ⟨hc, hn⟩ : (o.tombstone id (key a)).Counted ∧ o.NoRevival (o.tombstone id (key a)) :=
      counted_tombstone h (hok a List.mem_cons_self)
    have hrest : ∀ b ∈ rest, (o.tombstone id (key a)).artifactState (key b) ∈ [none, some .tombstoned] := by
      intro b hb
      rw [artifactState_tombstone]
      split
      · decide
      · exact hok b (List.mem_cons_of_mem _ hb)
    obtain ⟨hc', hn'⟩ := counted_tombstoneAll hc hrest
    refine ⟨hc', fun k hk => ?_⟩
    -- a deleted artifact is none of those tombstoned, so it is still deleted for the rest
    refine hn' k ?_
    rw [artifactState_tombstone]
    split
    · next he =>
      have := hok a List.mem_cons_self
      rw [← he, hk] at this
      exact absurd this (by decide)
    · exact hk

theorem artifactState_settle (o : Ownership) (x : CleanupRow) (t : String) (failed : Bool) (key : RegistryKey) :
    (o.settle x t failed).artifactState key =
      if failed = false ∧ key = x.key.registry then (o.artifactState key).map fun _ => .deleted
      else o.artifactState key := by
  unfold Ownership.settle Ownership.artifactState
  cases failed with
  | true => simp
  | false =>
    show ((markDeleted o.registry x.key.registry).lookup key).map (·.state) = _
    rw [markDeleted, Table.lookup_update]
    cases hl : o.registry.lookup key with
    | none => simp
    | some r =>
      have hr : r.key = key := Table.lookup_key hl
      by_cases hk : key = x.key.registry <;> simp [hr, hk]

/-- The end of a queued cleanup keeps the count: the row it deletes was not ACTIVE. -/
theorem counted_settle {o : Ownership} {x : CleanupRow} {t : String} {failed : Bool} (h : o.Counted)
    (hx : x ∈ o.cleanup.rows) : (o.settle x t failed).Counted ∧ o.NoRevival (o.settle x t failed) := by
  refine ⟨⟨?_, ?_, ?_⟩, ?_⟩
  · intro key s hs
    rw [artifactState_settle] at hs
    show s = .active ↔ o.owned key = true
    split at hs
    · next hk =>
      obtain ⟨y, hy, rfl⟩ := Option.map_eq_some_iff.1 hs
      obtain ⟨z, hz, hne⟩ := h.cleanup x hx
      rw [← hk.2, hy] at hz; cases hz
      rw [← h.exact key y hy]
      exact ⟨fun hf => (by cases hf), fun hf => absurd hf hne⟩
    · exact h.exact key s hs
  · intro s hs
    rw [artifactState_settle]
    have := h.sources s hs
    split
    · rw [Ne, Option.map_eq_none_iff]; exact this
    · exact this
  · intro y hy
    obtain ⟨z, hz, hif⟩ := Table.mem_updated.1 hy
    have hkey : y.key = z.key := by rw [← hif]; split <;> rfl
    obtain ⟨s, hs, hne⟩ := h.cleanup z hz
    rw [artifactState_settle, hkey, hs]
    split
    · exact ⟨.deleted, rfl, by decide⟩
    · exact ⟨s, rfl, hne⟩
  · intro key hs
    rw [artifactState_settle, hs]
    split <;> simp

/-- What a cleanup does to the tables of the count besides the registry: rows keep their keys. -/
theorem Ownership.Counted.of_cleanup {o o' : Ownership} (h : o.Counted) (hr : o'.registry = o.registry)
    (hs : o'.sources = o.sources) (hc : ∀ x ∈ o'.cleanup.rows, ∃ y ∈ o.cleanup.rows, y.key = x.key) :
    o'.Counted ∧ o.NoRevival o' := by
  have hstate : ∀ key, o'.artifactState key = o.artifactState key := fun key => by
    rw [artifactState, artifactState, hr]
  refine ⟨⟨fun key s hst => ?_, fun s hmem => ?_, fun x hx => ?_⟩, fun key hst => ?_⟩
  · rw [hstate] at hst
    rw [owned, hs]; exact h.exact key s hst
  · rw [hs] at hmem; rw [hstate]; exact h.sources s hmem
  · obtain ⟨y, hy, hk⟩ := hc x hx
    rw [hstate, ← hk]; exact h.cleanup y hy
  · rw [hstate, hst]; decide

/-! ## The main result -/

/-- The fences of `record_mutation_artifact` let the mutation register. -/
def mayRegister (db : Db) (m : Mutation) : Bool :=
  !db.core.advanceFenced m && db.core.documentStatus m.documentId ≠ some .purged

/-- The run is rolled back by the request: it is not rolled back yet, and nothing refuses it. -/
def rollbackStarts (db : Db) (pipelineRunId : String) : Bool :=
  (db.core.pipelineState pipelineRunId).any (fun s => s = .rollingBack || .rollingBack ∈ s.next) &&
    (nonHeadRevision db.core pipelineRunId).isNone

/-- The step takes none of the branches that lose count: a registration lands on a row that is new or
ACTIVE (or was made before), a rollback that starts owns no deleted artifact, and a failed
compensation is retained for artifacts that are unknown or tombstoned. -/
def countsOwners (db : Db) : Op → Bool
  | .recordMutationArtifact id a => (db.core.mutations.lookup id).all fun m =>
    !mayRegister db m || db.own.artifactState (registryKey m.tenantId m.agentId a) ∈ [none, some .active] ||
      db.own.sources.hasKey (sourceRow m a).key
  | .requestPipelineRollback id => !rollbackStarts db id || !db.own.sources.anyWhere fun s =>
    s.pipelineRunId = id && db.own.artifactState s.key.registry = some .deleted
  | .enqueueUnownedProjectionCleanup id artifacts => (db.core.mutations.lookup id).all fun m =>
    artifacts.all fun a => db.own.artifactState (registryKey m.tenantId m.agentId a) ∈ [none, some .tombstoned]
  | _ => true

/-- One step keeps the count, unless it takes a branch that loses it. -/
theorem transact_counted {env : Env} {db db' : Db} {op : Op} (h : transact env db op = .ok db')
    (hc : db.own.Counted) (hok : countsOwners db op = true) : db'.own.Counted ∧ db.own.NoRevival db'.own := by
  by_cases hw : Part.registry ∉ op.writes ∧ Part.sources ∉ op.writes ∧ Part.cleanup ∉ op.writes
  · have hr : db'.own.registry = db.own.registry := transact_frame h hw.1
    have hs : db'.own.sources = db.own.sources := transact_frame h hw.2.1
    have hcl : db'.own.cleanup = db.own.cleanup := transact_frame h hw.2.2
    exact hc.of_cleanup hr hs fun x hx => ⟨x, by rw [← hcl]; exact hx, rfl⟩
  cases op with
  | recordMutationArtifact id a =>
    simp only [transact, recordMutationArtifact] at h
    split at h
    · cases h
    · split at h
      · cases h
      · next m hm =>
        split at h
        · cases h
        · next hf =>
          split at h
          · cases h
          · next hd =>
            cases h
            refine counted_register hc ?_
            have hmay : mayRegister db m = true := by
              simp only [mayRegister, Core.advanceFenced, Bool.and_eq_true, Bool.not_eq_true', decide_eq_true_eq]
              exact ⟨by simpa using hf, hd⟩
            simp only [countsOwners, hm, Option.all_some, hmay, Bool.not_true, Bool.false_or, Bool.or_eq_true,
              decide_eq_true_eq] at hok
            exact hok
  | requestPipelineRollback id =>
    obtain ⟨run, hrun, ⟨-, rfl⟩ | ⟨hs, hn, runs, moved, restored, cleanup, rfl, hr, -, -, -, hdb⟩⟩ :=
      requestPipelineRollback_cases h
    · exact ⟨hc, .refl _⟩
    · rw [hdb]
      refine counted_release hc fun key hdel s hmem hk hid => ?_
      have hstarts : rollbackStarts db id = true := by
        obtain ⟨row, hrow, hmay⟩ := transitionPipelineRun_may hr
        rw [rollbackStarts, Core.pipelineState, hrow, hn]
        simpa using hmay
      simp only [countsOwners, hstarts, Bool.not_true, Bool.false_or, Bool.not_eq_true', Table.anyWhere_eq_false] at hok
      have := hok s hmem
      rw [hk, hdel] at this
      simp [hid] at this
  | replayPipelineRun id t =>
    obtain ⟨run, runs, -, -, cr, -, -, -, hdb⟩ := replayPipelineRun_cases h
    rw [hdb]
    refine hc.of_cleanup rfl rfl fun x hx => ?_
    obtain ⟨y, hy, rfl⟩ := Table.mem_updated.1 hx
    exact ⟨y, hy, by split <;> rfl⟩
  | claimArtifactCleanup w t n l =>
    obtain ⟨⟨db₁, claims⟩, hcl, rfl⟩ := map_eq_ok.1 h
    obtain ⟨ids, -, hdb, hclean, -⟩ := claimArtifactCleanup_cases hcl
    have hr : db₁.own.registry = db.own.registry := by rw [hdb]
    have hs : db₁.own.sources = db.own.sources := by rw [hdb]
    refine hc.of_cleanup hr hs fun x hx => ?_
    rw [hclean] at hx
    obtain ⟨y, hy, rfl⟩ := Table.mem_updated.1 hx
    exact ⟨y, hy, by split <;> rfl⟩
  | finishArtifactCleanup k w t f =>
    rcases finishArtifactCleanup_cases h with rfl | ⟨row, hrow, -, hdb, -⟩
    · exact ⟨hc, .refl _⟩
    · rw [hdb]; exact counted_settle hc (Table.lookup_mem hrow)
  | enqueueUnownedProjectionCleanup id artifacts =>
    simp only [transact, enqueueUnownedProjectionCleanup] at h
    split at h
    · cases h
    · next m hm =>
      cases h
      refine counted_tombstoneAll hc fun a ha => ?_
      simp only [countsOwners, hm, Option.all_some, List.all_eq_true, decide_eq_true_eq] at hok
      exact hok a ha
  | _ => exact absurd (by simp [Op.writes]) hw

theorem exec_counted (env : Env) (db : Db) (op : Op) (hc : db.own.Counted) (hok : countsOwners db op = true) :
    (exec env db op).own.Counted ∧ db.own.NoRevival (exec env db op).own := by
  unfold exec
  cases h : transact env db op with
  | error e => exact ⟨hc, .refl _⟩
  | ok db' => exact transact_counted h hc hok

theorem counted_empty : Db.empty.own.Counted := by
  refine ⟨fun key s h => ?_, fun s h => ?_, fun x h => ?_⟩ <;> cases h

/-- In every run whose steps all count owners, the registry is exact after every step, and no step
tombstones a deleted artifact. -/
theorem registry_counts_owners (env : Env) (ops : List Op)
    (h : Along (exec env) (fun db op => countsOwners db op = true) Db.empty ops) :
    Along (exec env) (fun db op => (exec env db op).own.Exact ∧ db.own.NoRevival (exec env db op).own) Db.empty ops :=
  along_of_invariant (I := fun db => db.own.Counted) (fun db op hc hok => (exec_counted env db op hc hok).1)
    (fun db op hc hok => ⟨(exec_counted env db op hc hok).1.exact, (exec_counted env db op hc hok).2⟩) counted_empty h

/-- Two runs share a vector; both are rolled back and its cleanup is finished. -/
def sharedVectorRun : List Op :=
  admitted (sampleMutation "m1" "r1" "rev1" "c1") ++ admitted (sampleMutation "m2" "r2" "rev2" "c2") ++
    [.recordMutationArtifact "m1" ⟨.vector, .entityVector, "e"⟩, .recordMutationArtifact "m2" ⟨.vector, .entityVector, "e"⟩,
      .requestPipelineRollback "r1", .requestPipelineRollback "r2", .claimArtifactCleanup "w" "token" 1 60,
      .finishArtifactCleanup ⟨"r2", ⟨"t", "a", ⟨.vector, .entityVector, "e"⟩⟩⟩ "w" "token" false]

theorem registry_counts_owners_shared :
    Along (exec sampleEnv) (fun db op => (exec sampleEnv db op).own.Exact ∧
      db.own.NoRevival (exec sampleEnv db op).own) Db.empty sharedVectorRun :=
  registry_counts_owners sampleEnv sharedVectorRun (by decide)

/-- A vector is registered again after the run that owned it was rolled back. -/
def reRegistrationRun : List Op :=
  admitted (sampleMutation "m1" "r1" "rev1" "c1") ++
    [.recordMutationArtifact "m1" ⟨.vector, .entityVector, "e"⟩, .requestPipelineRollback "r1"] ++
    admitted (sampleMutation "m2" "r2" "rev2" "c2") ++ [.recordMutationArtifact "m2" ⟨.vector, .entityVector, "e"⟩]

/-- A rollback is requested again while one of its two cleanups is finished. -/
def repeatedRollbackRun : List Op :=
  admitted (sampleMutation "m1" "r1" "rev1" "c1") ++
    [.recordMutationArtifact "m1" ⟨.vector, .entityVector, "e"⟩, .recordMutationArtifact "m1" ⟨.graph, .entity, "e"⟩,
      .requestPipelineRollback "r1", .claimArtifactCleanup "w" "token" 1 60,
      .finishArtifactCleanup ⟨"r1", ⟨"t", "a", ⟨.vector, .entityVector, "e"⟩⟩⟩ "w" "token" false]

/-- The registered vector stays TOMBSTONED though it is owned, and the repeated rollback tombstones
the deleted vector. -/
theorem registry_loses_count :
    ¬ (reach sampleEnv reRegistrationRun).own.Exact ∧
      ¬ (reach sampleEnv repeatedRollbackRun).own.NoRevival
        (exec sampleEnv (reach sampleEnv repeatedRollbackRun) (.requestPipelineRollback "r1")).own := by
  constructor
  · intro h
    have hiff := h ⟨"t", "a", ⟨.vector, .entityVector, "e"⟩⟩ .tombstoned (by decide)
    exact absurd (hiff.2 (by decide)) (by decide)
  · intro h
    exact h ⟨"t", "a", ⟨.vector, .entityVector, "e"⟩⟩ (by decide) (by decide)

end Mesa.Ledger
