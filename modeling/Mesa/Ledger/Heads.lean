/-
Revision heads: activation and restoration go through one statement that the partial unique index
guards, so a document has at most one ACTIVE revision in every reachable state.
-/
import Mesa.Ledger.Footprint

namespace Mesa.Ledger

open Mesa.Foundation

/-! ## Unique heads -/

/-- A document has at most one ACTIVE revision. -/
def UniqueHead (revisions : Table Revision) : Prop :=
  ∀ r ∈ revisions.rows, ∀ s ∈ revisions.rows, r.status = .active → s.status = .active →
    r.documentId = s.documentId → r = s

/-- The index check of `activateRevisions` is exactly `UniqueHead`. -/
theorem pairwise_active_iff {revisions : Table Revision} :
    (revisions.select fun r => r.status = .active).Pairwise (fun r s => r.documentId ≠ s.documentId) ↔
      UniqueHead revisions := by
  have hnodup : (revisions.select fun r => r.status = .active).Nodup :=
    (List.Nodup.of_map _ revisions.unique).filter _
  constructor
  · intro h r hr s hs ha hb hdoc
    by_contra hne
    have : Std.Symm fun r s : Revision => r.documentId ≠ s.documentId := ⟨fun _ _ h => h.symm⟩
    exact h.forall (Table.mem_select.2 ⟨hr, decide_eq_true ha⟩) (Table.mem_select.2 ⟨hs, decide_eq_true hb⟩) hne hdoc
  · intro h
    refine hnodup.pairwise_of_forall_ne fun r hr s hs hne hdoc => ?_
    obtain ⟨hr, ha⟩ := Table.mem_select.1 hr
    obtain ⟨hs, hb⟩ := Table.mem_select.1 hs
    exact hne (h r hr s hs (of_decide_eq_true ha) (of_decide_eq_true hb) hdoc)

/-- An activation succeeds exactly when it leaves unique heads. -/
theorem activateRevisions_eq_ok {revisions revisions' : Table Revision} {p : Revision → Bool} :
    activateRevisions revisions p = .ok revisions' ↔
      revisions' = (revisions.update p fun r => { r with status := .active }) ∧ UniqueHead revisions' := by
  unfold activateRevisions
  simp only
  split
  · next h =>
    constructor
    · intro he
      cases he; exact ⟨rfl, pairwise_active_iff.1 h⟩
    · rintro ⟨he, -⟩
      rw [he]
  · next h =>
    constructor
    · intro he
      cases he
    · rintro ⟨he, hu⟩
      exact absurd (pairwise_active_iff.2 (he ▸ hu)) h

/-- Rows that keep their document, and are ACTIVE only if they were, keep heads unique. -/
theorem UniqueHead.update {revisions : Table Revision} {p : Revision → Bool} {f : Revision → Revision}
    (h : UniqueHead revisions) (hs : ∀ r : Revision, (f r).status = .active → r.status = .active ∧ f r = r)
    (hf : ∀ r : Revision, Keyed.key (f r) = Keyed.key r := by intro _; rfl) : UniqueHead (revisions.update p f hf) := by
  have back : ∀ r ∈ (revisions.update p f hf).rows, r.status = .active → r ∈ revisions.rows := by
    intro r hr ha
    obtain ⟨x, hx, rfl⟩ := Table.mem_update.1 hr
    split at ha
    · next hp => rw [if_pos hp, (hs x ha).2]; exact hx
    · next hp => rw [if_neg hp]; exact hx
  exact fun r hr s hs ha hb hdoc => h r (back r hr ha) s (back s hs hb) ha hb hdoc

/-- A new revision that is not ACTIVE keeps heads unique. -/
theorem RevisionStatus.pending_ne_active : RevisionStatus.pending ≠ .active := nofun

theorem UniqueHead.insert {revisions : Table Revision} {r : Revision} (h : UniqueHead revisions)
    (hr : r.status ≠ .active) : UniqueHead (insertRevision revisions r) := by
  unfold insertRevision
  split
  · exact h
  · have back : ∀ x ∈ (revisions.insertOrIgnore r).rows, x.status = .active → x ∈ revisions.rows := by
      intro x hx ha
      rcases Table.mem_insertOrIgnore.1 hx with hx | ⟨rfl, -⟩
      · exact hx
      · exact absurd ha hr
    exact fun x hx y hy ha hb hdoc => h x (back x hx ha) y (back y hy hb) ha hb hdoc

/-! ## Activation -/

theorem supersedeHead_unique {c c' : Core} {rev : Revision} {p : String} (h : supersedeHead c rev p = .ok c') :
    UniqueHead c'.revisions := by
  unfold supersedeHead at h
  simp only at h
  split at h
  · cases h
  · split at h
    · cases h
    · split at h
      · cases h
      · obtain ⟨revisions, hr, h⟩ := bind_eq_ok.1 h
        cases pure_eq_ok.1 h
        exact (activateRevisions_eq_ok.1 hr).2

theorem activateFirstHead_unique {c c' : Core} {rev : Revision} (h : activateFirstHead c rev = .ok c') :
    UniqueHead c'.revisions := by
  unfold activateFirstHead at h
  split at h
  · cases h
  · obtain ⟨revisions, hr, h⟩ := bind_eq_ok.1 h
    cases pure_eq_ok.1 h
    exact (activateRevisions_eq_ok.1 hr).2

theorem reconcileRevisionActivation_unique {c c' : Core} {id : String} (hu : UniqueHead c.revisions)
    (h : reconcileRevisionActivation c id = .ok c') : UniqueHead c'.revisions := by
  unfold reconcileRevisionActivation at h
  split at h
  · cases h; exact hu
  · split at h
    · cases h; exact hu
    · split at h
      · cases h; exact hu
      · split at h
        · cases h; exact hu
        · split at h
          · exact supersedeHead_unique h
          · exact activateFirstHead_unique h

theorem activateCommittedRevision_unique {c c' : Core} {id : String} (hu : UniqueHead c.revisions)
    (h : activateCommittedRevision c id = .ok c') : UniqueHead c'.revisions := by
  unfold activateCommittedRevision at h
  split at h
  · cases h; exact hu
  · refine reconcileRevisionActivation_unique ?_ h
    split <;> exact hu

theorem restoreRevision_unique {run t r v : String} {c c' : Core} (hu : UniqueHead c.revisions)
    (h : restoreRevision run c t r v = .ok c') : UniqueHead c'.revisions := by
  unfold restoreRevision at h
  simp only at h
  split at h
  · cases h; exact hu
  · split at h
    · cases h; exact hu
    · split at h
      · cases h; exact hu.update fun _ hs => by cases hs
      · obtain ⟨revisions, hr, h⟩ := bind_eq_ok.1 h
        cases pure_eq_ok.1 h
        exact (activateRevisions_eq_ok.1 hr).2

/-! ## Transitions -/

section Transitions

-- a property of the revisions and assertions that activation preserves
variable {P : Core → Prop}
  (hcongr : ∀ c c' : Core, c'.revisions = c.revisions → c'.assertions = c.assertions → P c → P c')
  (hact : ∀ c c' : Core, ∀ id, P c → activateCommittedRevision c id = .ok c' → P c')

include hcongr hact

/-- What activation preserves, a transition preserves. -/
theorem transitionMemoryMutation_rows {c c' : Core} {id : String} {s : MutationState} {b : Bool} (hP : P c)
    (h : transitionMemoryMutation c id s = .ok (c', b)) : P c' := by
  obtain ⟨m, hm, ⟨-, -, rfl⟩ | ⟨-, -, -, rfl⟩ | ⟨-, -, -, moved, rb, hmoved, -, hif⟩⟩ := transitionMemoryMutation_cases h
  · exact hP
  · exact hP
  · have hmv : P moved := by
      refine hcongr c moved ?_ ?_ hP <;> rw [hmoved]
    split at hif
    · exact hact _ _ _ hmv hif
    · rw [hif]; exact hmv

theorem climbMilestones_rows {id : String} : ∀ {ms : List MutationState} {c c' : Core} {index : Int} {b : Bool},
    P c → climbMilestones id c index ms = .ok (c', b) → P c'
  | [], c, c', index, b, hP, h => by cases h; exact hP
  | s :: rest, c, c', index, b, hP, h => by
    unfold climbMilestones at h
    split at h
    · exact climbMilestones_rows hP h
    · obtain ⟨⟨d, moved⟩, ht, h⟩ := bind_eq_ok.1 h
      have hd := transitionMemoryMutation_rows hcongr hact hP ht
      cases moved with
      | true => exact climbMilestones_rows hd h
      | false => cases pure_eq_ok.1 h; exact hd

/-- What activation preserves, an advance preserves. -/
theorem advanceMutationProjectionState_rows {c c' : Core} {outbox : Table Projection} {id : String} (hP : P c)
    (h : advanceMutationProjectionState c outbox id = .ok c') : P c' := by
  unfold advanceMutationProjectionState at h
  split at h
  · cases h; exact hP
  · split at h
    · cases h; exact hP
    · split at h
      · cases h; exact hP
      · obtain ⟨⟨d, re⟩, hre, h⟩ := bind_eq_ok.1 h
        have hd : P d := by
          unfold reenterLifecycle at hre
          split at hre
          · exact transitionMemoryMutation_rows hcongr hact hP hre
          · cases hre; exact hP
        cases re with
        | false => cases pure_eq_ok.1 h; exact hd
        | true =>
          obtain ⟨⟨e, fin⟩, hcl, h⟩ := bind_eq_ok.1 h
          have he := climbMilestones_rows hcongr hact hd hcl
          cases fin with
          | false => cases pure_eq_ok.1 h; exact he
          | true =>
            obtain ⟨⟨runs, rb⟩, -, h⟩ := bind_eq_ok.1 h
            cases pure_eq_ok.1 h
            exact hcongr e _ rfl rfl he

end Transitions

/-! ## Operations -/

theorem updateRevisionManifest_unique {env : Env} {c c' : Core} {id : String} {fin : Bool}
    (hu : UniqueHead c.revisions) (h : updateRevisionManifest env c id fin = .ok c') : UniqueHead c'.revisions := by
  have stored : ∀ hash, UniqueHead (c.revisions.update
      (fun r => r.revisionId = id && r.status = .pending && r.manifestFrozen = false)
      fun r => { r with manifestHash := hash, manifestFrozen := r.manifestFrozen || fin }) := by
    intro hash r hr s hs ha hb hdoc
    -- the update only touches PENDING rows, so an ACTIVE one was there before
    have back : ∀ x ∈ (c.revisions.update (fun r => r.revisionId = id && r.status = .pending && r.manifestFrozen = false)
        fun r => { r with manifestHash := hash, manifestFrozen := r.manifestFrozen || fin }).rows,
        x.status = .active → x ∈ c.revisions.rows := by
      intro x hx hact
      obtain ⟨y, hy, rfl⟩ := Table.mem_updated.1 hx
      split at hact
      · next hp =>
        simp only [Bool.and_eq_true, decide_eq_true_eq] at hp
        rw [hp.1.2] at hact; cases hact
      · next hp => rw [if_neg hp]; exact hy
    exact hu r (back r hr ha) s (back s hs hb) ha hb hdoc
  unfold updateRevisionManifest at h
  simp only at h
  split at h
  · cases h
  · split at h
    · cases h
    · split at h
      · exact reconcileRevisionActivation_unique (stored _) h
      · cases h; exact stored _

theorem createSourceChunk_unique {env : Env} {c c' : Core} {q : ChunkRequest} (hu : UniqueHead c.revisions)
    (h : createSourceChunk env c q = .ok c') : UniqueHead c'.revisions := by
  unfold createSourceChunk at h
  simp only at h
  iterate 5
    split at h
    · cases h
  obtain ⟨d, hd, h⟩ := bind_eq_ok.1 h
  cases storeChunk_cases hd
  exact updateRevisionManifest_unique (hu.insert (r := draftRevision ..) RevisionStatus.pending_ne_active) h

theorem admitProvenance_unique {env : Env} {c c' : Core} {q : Admission} (hu : UniqueHead c.revisions)
    (h : admitProvenance env c q = .ok c') : UniqueHead c'.revisions := by
  unfold admitProvenance at h
  simp only at h
  split at h
  · cases h
  · iterate 6
      split at h
      · cases h
    obtain ⟨d, hd, h⟩ := bind_eq_ok.1 h
    cases storeChunk_cases hd
    exact updateRevisionManifest_unique (hu.insert (r := draftRevision ..) RevisionStatus.pending_ne_active) h

/-- Every operation keeps heads unique. -/
theorem transact_unique {env : Env} {db db' : Db} {op : Op} (h : transact env db op = .ok db')
    (hu : UniqueHead db.core.revisions) : UniqueHead db'.core.revisions := by
  by_cases hw : Part.revisions ∉ op.writes
  · rw [show db'.core.revisions = db.core.revisions from transact_frame h hw]; exact hu
  have hcongr : ∀ c c' : Core, c'.revisions = c.revisions → c'.assertions = c.assertions →
      UniqueHead c.revisions → UniqueHead c'.revisions := fun c c' hr _ hP => by rw [hr]; exact hP
  have hact : ∀ c c' : Core, ∀ id, UniqueHead c.revisions → activateCommittedRevision c id = .ok c' →
      UniqueHead c'.revisions := fun _ _ _ => activateCommittedRevision_unique
  cases op with
  | createRevision q =>
    obtain ⟨c, hc, rfl⟩ := map_eq_ok.1 h
    unfold createRevision at hc
    split at hc
    · cases hc
    · split at hc
      · cases hc
      · split at hc
        · cases hc
        · simp only at hc
          split at hc
          · cases hc; exact hu.insert RevisionStatus.pending_ne_active
          · cases hc
  | createSourceChunk q =>
    obtain ⟨c, hc, rfl⟩ := map_eq_ok.1 h
    exact createSourceChunk_unique hu hc
  | admitMemory q =>
    obtain ⟨core, m, queue, hc, -, -, hdb⟩ := admitMemory_cases h
    have hrev := admitProvenance_unique hu hc
    rw [hdb]; exact hrev
  | setMutationState a m s =>
    obtain ⟨⟨db₁, b⟩, hc, rfl⟩ := map_eq_ok.1 h
    rcases (setMutationState_cases hc).2 with rfl | ⟨m, core, b', -, -, ht, -, hdb⟩
    · exact hu
    · have hcore := transitionMemoryMutation_rows hcongr hact hu ht
      rcases hdb with ⟨-, hdb⟩ | ⟨-, -, -, hdb⟩ <;> rw [hdb] <;> exact hcore
  | completeProjectionOutbox k w t o =>
    obtain ⟨⟨db₁, r⟩, hc, rfl⟩ := map_eq_ok.1 h
    rcases completeProjectionOutbox_cases hc with ⟨rfl, -⟩ | ⟨p, m, -, -, ⟨-, -, hdb⟩ | ⟨-, -, -, core, hadv, hdb⟩⟩
    · exact hu
    · rw [hdb]; exact hu
    · rw [hdb]; exact advanceMutationProjectionState_rows hcongr hact hu hadv
  | requestPipelineRollback r =>
    obtain ⟨run, -, ⟨-, rfl⟩ | ⟨-, -, runs, moved, restored, cleanup, -, -, hmv, hre, hcl, -⟩⟩ :=
      requestPipelineRollback_cases h
    · exact hu
    · have hmoved : UniqueHead moved.revisions := by
        rw [(transitionPipelineMutations_spec hmv).2.revisions (by decide)]; exact hu
      have step : ∀ (d : Core) (row : String × String × String) (d' : Core), UniqueHead d.revisions →
          restoreRevision r d row.1 row.2.1 row.2.2 = .ok d' → UniqueHead d'.revisions :=
        fun _ _ _ => restoreRevision_unique
      have hrestored : UniqueHead restored.revisions :=
        foldOk_invariant step (s := { moved with assertions := restoreFactTargets moved r }) hmoved hre
      unfold closeIfIdle at hcl
      split at hcl
      · rw [(closeRollback_spec hcl).2.revisions (by decide)]; exact hrestored
      · cases hcl; exact hrestored
  | purgeDocument t d i =>
    obtain ⟨core, purged, hc, hdb⟩ := purgeDocument_cases h
    rw [hdb]
    refine UniqueHead.update ?_ fun _ hs => by cases hs
    rw [(purgeMutations_spec hc).2.1.revisions (by decide)]; exact hu
  | _ => exact absurd (by simp [Op.writes]) hw

/-- In every reachable state a document has at most one ACTIVE revision. -/
theorem reach_unique (env : Env) (ops : List Op) : UniqueHead (reach env ops).core.revisions := by
  have step : ∀ db op, UniqueHead db.core.revisions → UniqueHead (exec env db op).core.revisions := by
    intro db op hu
    unfold exec
    cases h : transact env db op with
    | error e => exact hu
    | ok db' => exact transact_unique h hu
  have start : UniqueHead Db.empty.core.revisions := fun r hr => by cases hr
  exact stable_run (I := fun db : Db => UniqueHead db.core.revisions) step start

end Mesa.Ledger
