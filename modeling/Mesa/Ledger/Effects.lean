/-
What each ledger operation can do, said once: when it commits, which tables it replaces by what.
Invariants are proved from these statements, never from the operations' bodies.
-/
import Mesa.Ledger.Advance
import Mesa.Ledger.Exec

namespace Mesa.Ledger

open Mesa.Foundation

/-! ## Lanes -/

/-- A completion is unknown, loses its claim, or finishes its lane and advances the mutation. -/
theorem completeProjectionOutbox_cases {env : Env} {db db' : Db} {key : ProjectionKey} {w t : String} {o : Outcome}
    {r : Completion} (h : completeProjectionOutbox env db key w t o = .ok (db', r)) :
    (db' = db ∧ r = .unknown ∧ (db.outbox.lookup key = none ∨ db.core.mutations.lookup key.mutationId = none)) ∨
    ∃ p m, db.outbox.lookup key = some p ∧ db.core.mutations.lookup key.mutationId = some m ∧
      (((p.notHeldBy w t || db.core.isFenced m) = true ∧
          r = .lost m.agentId (receiptsOf db.own.receipts key.mutationId) ∧
          db' = { db with outbox := cancelFenced db.outbox p (db.core.isFenced m) }) ∨
        ((p.notHeldBy w t || db.core.isFenced m) = false ∧ r = .completed ∧
          (o = .skipped → env.maySkip key.projectionName = true) ∧ ∃ core,
          advanceMutationProjectionState db.core (settleLane db.outbox key t o.laneState none) key.mutationId =
            .ok core ∧
          db' = { db with core, outbox := settleLane db.outbox key t o.laneState none })) := by
  unfold completeProjectionOutbox at h
  cases hp : db.outbox.lookup key with
  | none => rw [hp] at h; cases h; exact Or.inl ⟨rfl, rfl, Or.inl rfl⟩
  | some p =>
    cases hm : db.core.mutations.lookup key.mutationId with
    | none => rw [hp, hm] at h; cases h; exact Or.inl ⟨rfl, rfl, Or.inr rfl⟩
    | some m =>
      rw [hp, hm] at h
      simp only at h
      refine Or.inr ⟨p, m, rfl, rfl, ?_⟩
      split at h
      · next hl => cases h; exact Or.inl ⟨hl, rfl, rfl⟩
      · next hl =>
        split at h
        · cases h
        · next hs =>
          obtain ⟨core, hadv, h⟩ := bind_eq_ok.1 h
          cases pure_eq_ok.1 h
          refine Or.inr ⟨by simpa using hl, rfl, fun ho => ?_, core, hadv, rfl⟩
          by_contra hno
          exact hs ⟨ho, hno⟩

/-- A failure is ignored, or moves its lane and, unless it is committed, the mutation. -/
theorem failProjectionOutbox_cases {db db' : Db} {key : ProjectionKey} {w t : String} {retryable : Bool}
    (h : failProjectionOutbox db key w t retryable = .ok db') :
    db' = db ∨
    ∃ p m, ∃ terminal : Bool, db.outbox.lookup key = some p ∧ db.core.mutations.lookup key.mutationId = some m ∧
      p.notHeldBy w t = false ∧
      db' = { db with
        core := db'.core
        outbox := settleLane db.outbox key t (if terminal then .deadLetter else .retryPending)
          (if terminal then none else some (db.now + retryDelaySeconds p.attemptCount)) } ∧
      ((m.state = .committed ∧ db'.core = db.core) ∨
        (m.state ≠ .committed ∧ ∃ core b rb,
          transitionMemoryMutation db.core key.mutationId (if terminal then .deadLetter else .retryPending) =
            .ok (core, b) ∧
          transitionPipelineRun core.runs m.pipelineRunId (if terminal then .dlq else .retryPending) =
            .ok (db'.core.runs, rb) ∧
          db'.core = { core with runs := db'.core.runs })) := by
  unfold failProjectionOutbox at h
  cases hp : db.outbox.lookup key with
  | none => rw [hp] at h; cases h; exact Or.inl rfl
  | some p =>
    cases hm : db.core.mutations.lookup key.mutationId with
    | none => rw [hp, hm] at h; cases h; exact Or.inl rfl
    | some m =>
      rw [hp, hm] at h
      simp only at h
      split at h
      · cases h; exact Or.inl rfl
      · next hl =>
        refine Or.inr ⟨p, m, !retryable || decide (p.retryLimit ≤ p.attemptCount), rfl, rfl, by simpa using hl, ?_⟩
        split at h
        · next hc => cases pure_eq_ok.1 h; exact ⟨rfl, Or.inl ⟨hc, rfl⟩⟩
        · next hc =>
          obtain ⟨⟨core, b⟩, ht, h⟩ := bind_eq_ok.1 h
          obtain ⟨⟨runs, rb⟩, hr, h⟩ := bind_eq_ok.1 h
          cases pure_eq_ok.1 h
          exact ⟨rfl, Or.inr ⟨hc, core, b, rb, ht, hr, rfl⟩⟩

/-! ## States set from outside -/

/-- A settable state is attempted for a mutation of the agent; on success its lanes are settled. -/
theorem setMutationState_cases {db db' : Db} {a id : String} {s : MutationState} {r : Bool}
    (h : setMutationState db a id s = .ok (db', r)) :
    s ∈ settableStates ∧
    (db' = db ∨
    ∃ m core b, db.core.mutations.lookup id = some m ∧ m.agentId = a ∧
      transitionMemoryMutation db.core id s = .ok (core, b) ∧ r = b ∧
      ((b = false ∧ db' = { db with core }) ∨
        (b = true ∧ ∃ rb, recomputePipelineState core.mutations core.runs m.pipelineRunId = .ok (db'.core.runs, rb) ∧
          db' = { db with core := { core with runs := db'.core.runs }, outbox := settleLanes db.outbox id s }))) := by
  unfold setMutationState at h
  split at h
  · cases h
  · next hs =>
    refine ⟨by simpa using hs, ?_⟩
    cases hm : (db.core.mutations.lookup id).filter fun m => m.agentId = a with
    | none => rw [hm] at h; cases h; exact Or.inl rfl
    | some m =>
      rw [hm] at h
      obtain ⟨hlook, hag⟩ := Option.filter_eq_some_iff.1 hm
      obtain ⟨⟨core, b⟩, ht, h⟩ := bind_eq_ok.1 h
      refine Or.inr ⟨m, core, b, hlook, by simpa using hag, ht, ?_⟩
      cases b with
      | false =>
        simp only [Bool.false_eq_true, not_false_eq_true, ↓reduceIte] at h
        cases pure_eq_ok.1 h
        exact ⟨rfl, Or.inl ⟨rfl, rfl⟩⟩
      | true =>
        simp only [not_true_eq_false, ↓reduceIte] at h
        obtain ⟨⟨runs, rb⟩, hre, h⟩ := bind_eq_ok.1 h
        cases pure_eq_ok.1 h
        exact ⟨rfl, Or.inr ⟨rfl, rb, hre, rfl⟩⟩

/-! ## Whole runs -/

theorem closeRollback_spec {c c' : Core} {id : String} (h : closeRollback c id = .ok c') :
    c'.mutations = moveMutations c.mutations (fun m => m.pipelineRunId = id) .rolledBack ∧
      c.Unmoved .rolledBack c' := by
  obtain ⟨⟨runs, b⟩, -, h⟩ := bind_eq_ok.1 h
  obtain ⟨hm, hf⟩ := transitionPipelineMutations_spec h
  exact ⟨hm, hf.documents, hf.chunks, hf.links, hf.revisions, hf.assertions⟩

theorem restoreRevision_frame {run t r v : String} {c c' : Core} (h : restoreRevision run c t r v = .ok c') :
    c.SameLifecycle c' := by
  unfold restoreRevision at h
  simp only at h
  split at h
  · cases h; exact .refl _
  · split at h
    · cases h; exact .refl _
    · split at h
      · cases h; exact ⟨rfl, rfl, rfl, rfl, rfl⟩
      · obtain ⟨revisions, -, h⟩ := bind_eq_ok.1 h
        cases pure_eq_ok.1 h
        exact ⟨rfl, rfl, rfl, rfl, rfl⟩

theorem Core.SameLifecycle.trans {a b c : Core} (h₁ : a.SameLifecycle b) (h₂ : b.SameLifecycle c) :
    a.SameLifecycle c :=
  ⟨h₂.runs.trans h₁.runs, h₂.mutations.trans h₁.mutations, h₂.documents.trans h₁.documents,
    h₂.chunks.trans h₁.chunks, h₂.links.trans h₁.links⟩

theorem restorePipelineSupersession_frame {c c' : Core} {id : String}
    (h : restorePipelineSupersession c id = .ok c') : c.SameLifecycle c' := by
  have start : c.SameLifecycle { c with assertions := restoreFactTargets c id } := ⟨rfl, rfl, rfl, rfl, rfl⟩
  have step : ∀ (d : Core) (row : String × String × String) (d' : Core), c.SameLifecycle d →
      restoreRevision id d row.1 row.2.1 row.2.2 = .ok d' → c.SameLifecycle d' :=
    fun _ _ _ hd hr => hd.trans (restoreRevision_frame hr)
  exact foldOk_invariant step start h

/-- A rollback was finished before, or it fences the run, restores what the run superseded and
queues the cleanup of what nobody owns any more. -/
theorem requestPipelineRollback_cases {db db' : Db} {id : String} (h : requestPipelineRollback db id = .ok db') :
    ∃ run, db.core.runs.lookup id = some run ∧
    ((run.state = .rolledBack ∧ db' = db) ∨
    (run.state ≠ .rolledBack ∧ nonHeadRevision db.core id = none ∧ ∃ runs moved restored cleanup,
      cleanup = unownedArtifacts (releaseSources db.own id) id ∧
      transitionPipelineRun db.core.runs id .rollingBack = .ok (runs, true) ∧
      transitionPipelineMutations
        { db.core with runs, assertions := retractAssertions db.core.assertions cleanup } id .rollingBack =
          .ok moved ∧
      restorePipelineSupersession moved id = .ok restored ∧
      closeIfIdle restored id (decide (cleanup = []) && !db.outbox.anyWhere fun p =>
        p.state = .inFlight && p.key.mutationId ∈ childIds db.core id) = .ok db'.core ∧
      db' = { db with
        core := db'.core
        own := tombstoneUnowned (releaseSources db.own id) id cleanup
        idents := { db.idents with entities := retractEntities db.idents.entities cleanup }
        outbox := cancelLanes db.outbox (childIds db.core id) })) := by
  unfold requestPipelineRollback at h
  cases hrun : db.core.runs.lookup id with
  | none => rw [hrun] at h; cases h
  | some run =>
    rw [hrun] at h
    refine ⟨run, rfl, ?_⟩
    simp only at h
    split at h
    · next hs => cases h; exact Or.inl ⟨hs, rfl⟩
    · next hs =>
      cases hn : nonHeadRevision db.core id with
      | some r => rw [hn] at h; cases h
      | none =>
        rw [hn] at h
        obtain ⟨⟨runs, b⟩, hr, h⟩ := bind_eq_ok.1 h
        cases b with
        | false => simp only [Bool.false_eq_true, not_false_eq_true, ↓reduceIte] at h; cases h
        | true =>
          simp only [not_true_eq_false, ↓reduceIte] at h
          obtain ⟨moved, hm, h⟩ := bind_eq_ok.1 h
          obtain ⟨restored, hre, h⟩ := bind_eq_ok.1 h
          obtain ⟨closed, hc, h⟩ := bind_eq_ok.1 h
          cases pure_eq_ok.1 h
          exact Or.inr ⟨hs, rfl, runs, moved, restored, _, rfl, hr, hm, hre, hc, rfl⟩

/-- A replay moves the run and its mutations, and requeues dead lanes, blocked cleanups and dead
dispatches. -/
theorem replayPipelineRun_cases {db db' : Db} {id : String} {target : Option String}
    (h : replayPipelineRun db id target = .ok db') :
    ∃ run runs, db.core.runs.lookup id = some run ∧ run.state ∈ [PipelineState.dlq, .blocked] ∧
      ∃ cleanupReplay : Bool, cleanupReplay = (db.own.cleanup.anyWhere fun x =>
        x.key.pipelineRunId = id && x.state = .blocked) ∧
      transitionPipelineRun db.core.runs id (if cleanupReplay then .rollingBack else .retryPending) =
        .ok (runs, true) ∧
      transitionPipelineMutations { db.core with runs } id (if cleanupReplay then .rollingBack else .retryPending) =
        .ok db'.core ∧
      db' = { db with
        core := db'.core
        outbox := db.outbox.update (fun p => p.key.mutationId ∈ childIds db.core id && p.state = .deadLetter)
          (·.released .retryPending)
        own := { db.own with cleanup := requeueCleanups db.own.cleanup id }
        queue := if cleanupReplay then db.queue else requeueDispatches db'.core db.queue id } := by
  unfold replayPipelineRun at h
  cases hrun : db.core.runs.lookup id with
  | none => rw [hrun] at h; cases h
  | some run =>
    rw [hrun] at h
    simp only at h
    split at h
    · cases h
    · next hs =>
      split at h
      · cases h
      · split at h
        · cases h
        · obtain ⟨⟨runs, b⟩, hr, h⟩ := bind_eq_ok.1 h
          cases b with
          | false => simp only [Bool.false_eq_true, not_false_eq_true, ↓reduceIte] at h; cases h
          | true =>
            simp only [not_true_eq_false, ↓reduceIte] at h
            obtain ⟨core, hm, h⟩ := bind_eq_ok.1 h
            cases pure_eq_ok.1 h
            exact ⟨run, runs, rfl, not_not.1 hs, _, rfl, hr, hm, rfl⟩

/-- A repair does nothing, or retries completed lanes of a committed mutation and the mutation. -/
theorem repairMutation_cases {db db' : Db} {id : String} {lanes : List Lane}
    (h : repairMutation db id lanes = .ok db') :
    db' = db ∨
    ∃ m core, db.core.mutations.lookup id = some m ∧ m.state = .committed ∧
      db.core.pipelineState m.pipelineRunId = some .committed ∧ db.outbox.anyWhere (repairedLane id lanes) = true ∧
      transitionMemoryMutation db.core id .retryPending = .ok (core, true) ∧
      transitionPipelineRun core.runs m.pipelineRunId .retryPending = .ok (db'.core.runs, true) ∧
      db' = { db with
        core := { core with runs := db'.core.runs }
        outbox := db.outbox.update (repairedLane id lanes) (·.released .retryPending) } := by
  unfold repairMutation at h
  cases hm : db.core.mutations.lookup id with
  | none => rw [hm] at h; cases h; exact Or.inl rfl
  | some m =>
    rw [hm] at h
    simp only at h
    split at h
    · cases h; exact Or.inl rfl
    · next hs =>
      simp only [ne_eq, not_or, not_not] at hs
      split at h
      · cases h; exact Or.inl rfl
      · next hany =>
        obtain ⟨⟨core, b⟩, ht, h⟩ := bind_eq_ok.1 h
        obtain ⟨⟨runs, rb⟩, hr, h⟩ := bind_eq_ok.1 h
        split at h
        · next hb =>
          simp only [Bool.and_eq_true] at hb
          obtain ⟨rfl, rfl⟩ := hb
          cases pure_eq_ok.1 h
          exact Or.inr ⟨m, core, rfl, hs.1, hs.2.1, by simpa using hany, ht, hr, rfl⟩
        · cases h

/-- The end of a cleanup is ignored, or settles the cleanup and, on success, deletes the artifact;
it may block the run or finish its rollback. -/
theorem finishArtifactCleanup_cases {db db' : Db} {key : CleanupKey} {w t : String} {failed : Bool}
    (h : finishArtifactCleanup db key w t failed = .ok db') :
    db' = db ∨
    ∃ row, db.own.cleanup.lookup key = some row ∧ row.notHeldBy w t = false ∧
      db' = { db with core := db'.core, own := db.own.settle row t failed } ∧
      ((row.exhausted failed = false ∧ db'.core = db.core) ∨
        (row.exhausted failed = true ∧ ∃ runs rb,
          transitionPipelineRun db.core.runs key.pipelineRunId .blocked = .ok (runs, rb) ∧
          transitionPipelineMutations { db.core with runs } key.pipelineRunId .blocked = .ok db'.core) ∨
        (failed = false ∧ cleanupDrained (db.own.settle row t failed) key.pipelineRunId = true ∧
          closeRollback db.core key.pipelineRunId = .ok db'.core)) := by
  unfold finishArtifactCleanup at h
  cases hrow : db.own.cleanup.lookup key with
  | none => rw [hrow] at h; cases h; exact Or.inl rfl
  | some row =>
    rw [hrow] at h
    simp only at h
    split at h
    · cases h; exact Or.inl rfl
    · next hl =>
      refine Or.inr ⟨row, rfl, by simpa using hl, ?_⟩
      split at h
      · next ht =>
        obtain ⟨⟨runs, rb⟩, hr, h⟩ := bind_eq_ok.1 h
        obtain ⟨core, hm, h⟩ := bind_eq_ok.1 h
        cases pure_eq_ok.1 h
        exact ⟨rfl, Or.inr (Or.inl ⟨ht, runs, rb, hr, hm⟩)⟩
      · next ht =>
        split at h
        · next hd =>
          obtain ⟨core, hc, h⟩ := bind_eq_ok.1 h
          cases pure_eq_ok.1 h
          exact ⟨rfl, Or.inr (Or.inr ⟨by simpa using hd.1, hd.2, hc⟩)⟩
        · cases h
          exact ⟨rfl, Or.inl ⟨by simpa using ht, rfl⟩⟩

/-- A compensation does nothing, or finishes the rollback of its run, whose cleanup has drained. -/
theorem finalizeTerminalProjectionCompensation_cases {db db' : Db} {id : String}
    (h : finalizeTerminalProjectionCompensation db id = .ok db') :
    db' = db ∨ ∃ m, db.core.mutations.lookup id = some m ∧ cleanupDrained db.own m.pipelineRunId = true ∧
      closeRollback db.core m.pipelineRunId = .ok db'.core ∧ db' = { db with core := db'.core } := by
  unfold finalizeTerminalProjectionCompensation at h
  cases hm : db.core.mutations.lookup id with
  | none => rw [hm] at h; cases h; exact Or.inl rfl
  | some m =>
    rw [hm] at h
    simp only at h
    split at h
    · next hd =>
      obtain ⟨core, hc, h⟩ := bind_eq_ok.1 h
      cases pure_eq_ok.1 h
      exact Or.inr ⟨m, rfl, hd, hc, rfl⟩
    · cases h; exact Or.inl rfl

/-! ## The catalog -/

theorem updateRevisionManifest_frame {env : Env} {c c' : Core} {id : String} {fin : Bool}
    (h : updateRevisionManifest env c id fin = .ok c') : c.SameLifecycle c' := by
  unfold updateRevisionManifest at h
  simp only at h
  split at h
  · cases h
  · split at h
    · cases h
    · split at h
      · have hf := reconcileRevisionActivation_frame h
        exact ⟨hf.runs, hf.mutations, hf.documents, hf.chunks, hf.links⟩
      · cases h; exact ⟨rfl, rfl, rfl, rfl, rfl⟩

theorem storeChunk_cases {c c' : Core} {k : Chunk} (h : storeChunk c k = .ok c') :
    c' = { c with chunks := insertChunk c.chunks k } := by
  unfold storeChunk at h
  simp only at h
  split at h
  · cases h; rfl
  · cases h

/-- What creating provenance may change: the catalog, and what an activation supersedes. -/
structure Core.SameWork (c c' : Core) : Prop where
  runs : c'.runs = c.runs
  mutations : c'.mutations = c.mutations
  links : c'.links = c.links

theorem createSourceChunk_frame {env : Env} {c c' : Core} {q : ChunkRequest}
    (h : createSourceChunk env c q = .ok c') : c.SameWork c' := by
  unfold createSourceChunk at h
  simp only at h
  split at h
  · cases h
  · split at h
    · cases h
    · split at h
      · cases h
      · split at h
        · cases h
        · split at h
          · cases h
          · obtain ⟨d, hd, h⟩ := bind_eq_ok.1 h
            cases storeChunk_cases hd
            have hf := updateRevisionManifest_frame h
            exact ⟨hf.runs, hf.mutations, hf.links⟩

theorem admitProvenance_frame {env : Env} {c c' : Core} {q : Admission}
    (h : admitProvenance env c q = .ok c') : c.SameWork c' := by
  unfold admitProvenance at h
  simp only at h
  split at h
  · cases h
  · repeat
      split at h
      · cases h
    obtain ⟨d, hd, h⟩ := bind_eq_ok.1 h
    cases storeChunk_cases hd
    have hf := updateRevisionManifest_frame h
    exact ⟨hf.runs, hf.mutations, hf.links⟩

/-! ## New mutations -/

/-- An admission stores its provenance and adds one received mutation with its lanes. -/
theorem admitMemory_cases {env : Env} {db db' : Db} {q : Admission} (h : admitMemory env db q = .ok db') :
    ∃ core m queue, admitProvenance env db.core q = .ok core ∧ m.state = .received ∧
      mutationConflict core.mutations m = false ∧
      db' = { db with
        core := { core with
          runs := core.runs.insertOrIgnore ⟨m.pipelineRunId, m.tenantId, m.agentId, .queued⟩
          mutations := core.mutations.insertOrIgnore m }
        outbox := insertLanes db.outbox m.mutationId
        queue := queue } := by
  obtain ⟨core, hc, h⟩ := bind_eq_ok.1 h
  simp only at h
  split at h
  · cases h
  · split at h
    · cases h
    · split at h
      · cases h
      · next hm =>
        cases pure_eq_ok.1 h
        exact ⟨core, _, _, hc, rfl, by simpa using hm, rfl⟩

/-- A recorded candidate is new and received, or was delivered before and is left alone. -/
theorem recordMutation_cases {db db' : Db} {m : Mutation} (h : recordMutation db m = .ok db') :
    db' = { db with
      core := { db.core with
        runs := db.core.runs.insertOrIgnore ⟨m.pipelineRunId, m.tenantId, m.agentId, .queued⟩
        mutations := db'.core.mutations }
      outbox := insertLanes db.outbox m.mutationId } ∧
    ((db'.core.mutations = db.core.mutations ∧ ∃ x, db.core.mutations.lookup m.mutationId = some x) ∨
      (mutationConflict db.core.mutations { m with state := .received } = false ∧
        db'.core.mutations = db.core.mutations.insertOrIgnore { m with state := .received })) := by
  unfold recordMutation at h
  simp only at h
  split at h
  · cases h
  · next existing hl =>
    split at h
    · cases h
    · split at h
      · cases h
      · cases h
        refine ⟨rfl, ?_⟩
        by_cases hc : mutationConflict db.core.mutations { m with state := .received } = true
        · rw [if_pos hc] at hl
          exact Or.inl ⟨if_pos hc, existing, hl⟩
        · exact Or.inr ⟨by simpa using hc, if_neg hc⟩

/-- An extraction is persisted for an updatable mutation of the agent, or ignored. -/
theorem recordMutationExtraction_cases {c c' : Core} {a id : String} {ts : List Triplet} {b : Bool}
    (h : recordMutationExtraction c a id ts = .ok (c', b)) :
    (c' = c ∧ b = false) ∨
    ∃ m, c.mutations.lookup id = some m ∧ m.agentId = a ∧
      m.state ∈ [MutationState.received, .extracted, .retryPending] ∧
      transitionMemoryMutation { c with mutations := c.mutations.update (fun x => x.mutationId = id) fun x =>
        { x with projectionTriplets := ts.filter Triplet.wellFormed } } id .extracted = .ok (c', b) := by
  unfold recordMutationExtraction at h
  simp only at h
  split at h
  · next hany =>
    obtain ⟨m, hm, hp⟩ := Table.anyWhere_iff.1 hany
    simp only [Bool.and_eq_true, decide_eq_true_eq] at hp
    obtain ⟨⟨hid, ha⟩, hs⟩ := hp
    have hlook : c.mutations.lookup id = some m := Table.lookup_eq_some.2 ⟨hm, hid⟩
    refine Or.inr ⟨m, hlook, ha, hs, ?_⟩
    -- the agent and state conditions select the one row that the id selects
    rw [← h]
    congr 2
    apply Table.ext
    show c.mutations.rows.map _ = c.mutations.rows.map _
    refine List.map_congr_left fun x hx => ?_
    by_cases hxid : x.mutationId = id
    · have : c.mutations.lookup id = some x := Table.lookup_eq_some.2 ⟨hx, hxid⟩
      rw [hlook] at this; cases this
      simp only [List.mem_cons, List.not_mem_nil, or_false] at hs
      simp [hid, ha, hs]
    · simp [hxid]
  · cases h; exact Or.inl ⟨rfl, rfl⟩

/-! ## Purge -/

theorem purgeAll_spec : ∀ {targets : List String} {c c' : Core} {acc ids : List String},
    foldOk (fun (acc : Core × List String) m => do
      let (c, changed) ← transitionMemoryMutation acc.1 m .purged
      pure (c, if changed then acc.2 ++ [m] else acc.2)) (c, acc) targets = .ok (c', ids) →
    c'.mutations = moveMutations c.mutations (fun m => m.mutationId ∈ targets) .purged ∧ c.Unmoved .purged c' ∧
      ∀ id, id ∈ ids ↔ id ∈ acc ∨ (id ∈ targets ∧
        ∃ m, c.mutations.lookup id = some m ∧ m.state.attempt .purged = .purged)
  | [], c, c', acc, ids, h => by
    cases h
    exact ⟨(moveMutations_eq_self fun m _ hp => by simp at hp).symm, .refl _ _, fun id => by simp⟩
  | t :: rest, c, c', acc, ids, h => by
    obtain ⟨⟨d, acc'⟩, hd, hrest⟩ := foldOk_cons_eq_ok.1 h
    obtain ⟨⟨d', b⟩, ht, hp⟩ := bind_eq_ok.1 hd
    cases pure_eq_ok.1 hp
    obtain ⟨hm₁, hf₁, m, hm, hb⟩ := transitionMemoryMutation_spec ht
    obtain ⟨hm₂, hf₂, hids⟩ := purgeAll_spec hrest
    refine ⟨?_, hf₁.trans hf₂, fun id => ?_⟩
    · rw [hm₂, hm₁, moveMutations_moveMutations _ _ _ _ fun _ _ => rfl]
      congr 1; funext x; simp
    · -- an attempt that was made does not change what a later attempt does
      have hsame : (∃ x, d.mutations.lookup id = some x ∧ x.state.attempt .purged = .purged) ↔
          ∃ x, c.mutations.lookup id = some x ∧ x.state.attempt .purged = .purged := by
        rw [hm₁, lookup_moveMutations]
        cases hx : c.mutations.lookup id with
        | none => simp
        | some x => by_cases hxt : x.mutationId = t <;> simp [hxt]
      rw [hids id, hsame]
      have hmem : id ∈ (if b = true then acc ++ [t] else acc) ↔ id ∈ acc ∨ (id = t ∧ b = true) := by
        cases b <;> simp
      rw [hmem, List.mem_cons]
      constructor
      · rintro ((h | ⟨rfl, hb'⟩) | ⟨h, x⟩)
        · exact Or.inl h
        · rw [hb] at hb'
          exact Or.inr ⟨Or.inl rfl, m, hm, of_decide_eq_true hb'⟩
        · exact Or.inr ⟨Or.inr h, x⟩
      · rintro (h | ⟨rfl | h, x⟩)
        · exact Or.inl (Or.inl h)
        · obtain ⟨x, hx, hat⟩ := x
          rw [hm] at hx; cases hx
          exact Or.inl (Or.inr ⟨rfl, by rw [hb]; exact decide_eq_true hat⟩)
        · exact Or.inr ⟨h, x⟩

/-- A purge attempts PURGED for every selected mutation and returns those that got there. -/
theorem purgeMutations_spec {c c' : Core} {p : Mutation → Bool} {ids : List String}
    (h : purgeMutations c p = .ok (c', ids)) :
    c'.mutations = moveMutations c.mutations p .purged ∧ c.Unmoved .purged c' ∧
      ∀ id, id ∈ ids ↔ ∃ m, c.mutations.lookup id = some m ∧ p m = true ∧ .purged ∈ m.state.next := by
  obtain ⟨hm, hf, hids⟩ := purgeAll_spec h
  have hterm : ∀ s : MutationState, s ∈ [MutationState.purged, .rolledBack, .rejected, .cancelled] → s.next = [] := by
    intro s; cases s <;> decide
  have hmem : ∀ m ∈ c.mutations.rows, m.mutationId ∈ (c.mutations.select fun m =>
      p m && m.state ∉ [MutationState.purged, .rolledBack, .rejected, .cancelled]).map (·.mutationId) ↔
      p m = true ∧ m.state ∉ [MutationState.purged, .rolledBack, .rejected, .cancelled] := by
    intro m hmem
    rw [List.mem_map]
    constructor
    · rintro ⟨x, hx, hid⟩
      have hx' := Table.mem_select.1 hx
      cases Table.eq_of_key_eq hx'.1 hmem hid
      simpa using hx'.2
    · exact fun hp => ⟨m, Table.mem_select.2 ⟨hmem, by simpa using hp⟩, rfl⟩
  refine ⟨?_, hf, fun id => ?_⟩
  · rw [hm]
    apply Table.ext
    show c.mutations.rows.map _ = c.mutations.rows.map _
    refine List.map_congr_left fun m hrow => ?_
    by_cases hp : p m = true
    · by_cases hs : m.state ∈ [MutationState.purged, .rolledBack, .rejected, .cancelled]
      · have hstay : m.state.attempt .purged = m.state := by simp [MutationState.attempt, hterm _ hs]
        simp only [hstay, ite_self]
      · rw [if_pos (decide_eq_true ((hmem m hrow).2 ⟨hp, hs⟩)), if_pos hp]
    · rw [if_neg fun h => hp ((hmem m hrow).1 (of_decide_eq_true h)).1, if_neg hp]
  · rw [hids id]
    constructor
    · rintro (h | ⟨ht, m, hlook, hat⟩)
      · cases h
      · have hrow := Table.lookup_mem hlook
        have hid : m.mutationId = id := Table.lookup_key hlook
        rw [← hid] at ht
        obtain ⟨hp, hs⟩ := (hmem m hrow).1 ht
        refine ⟨m, hlook, hp, ?_⟩
        by_contra hn
        rw [MutationState.attempt, if_neg hn] at hat
        rw [hat] at hs; simp at hs
    · rintro ⟨m, hlook, hp, hn⟩
      have hid : m.mutationId = id := Table.lookup_key hlook
      refine Or.inr ⟨?_, m, hlook, by rw [MutationState.attempt, if_pos hn]⟩
      rw [← hid]
      exact (hmem m (Table.lookup_mem hlook)).2 ⟨hp, fun hs => by rw [hterm _ hs] at hn; cases hn⟩

/-- The rows a document purge rewrites: its mutations lose their payload, the document and its
revisions are purged, and its assertions are retracted unless another document owns them. -/
def purgedCore (db : Db) (core : Core) (tenantId datasetId documentId : String) : Core :=
  { core with
    mutations := core.mutations.update (fun m => m.datasetId = datasetId && m.documentId = documentId) Mutation.erase
    documents := core.documents.update (fun d => d.documentId = documentId) fun d => { d with status := .purged }
    revisions := core.revisions.update (fun r => r.documentId = documentId) fun r => { r with status := .purged }
    assertions := core.assertions.update
      (fun a => a.tenantId = tenantId && a.datasetId = datasetId && a.documentId = documentId &&
        !ownedByOtherDocument db.own a documentId)
      fun a => { a with status := .retracted, predicate := "", literalValue := a.literalValue.map fun _ => "" } }

theorem purgeDocument_cases {db db' : Db} {t d i : String} (h : purgeDocument db t d i = .ok db') :
    ∃ core purged, purgeMutations db.core (fun m => m.datasetId = d && m.documentId = i) = .ok (core, purged) ∧
      db' = { db with core := purgedCore db core t d i, outbox := cancelLanes db.outbox purged } := by
  unfold purgeDocument at h
  split at h
  · cases h
  · obtain ⟨⟨core, purged⟩, hp, h⟩ := bind_eq_ok.1 h
    cases pure_eq_ok.1 h
    exact ⟨core, purged, hp, rfl⟩

theorem purgeMemory_cases {db db' : Db} {a : String} {s : Option String} (h : purgeMemory db a s = .ok db') :
    ∃ core purged, purgeMutations db.core (fun m => m.agentId = a && s.all fun s => m.sessionId = s) =
        .ok (core, purged) ∧
      db' = { db with core, outbox := cancelLanes db.outbox purged } := by
  obtain ⟨⟨core, purged⟩, hp, h⟩ := bind_eq_ok.1 h
  cases pure_eq_ok.1 h
  exact ⟨core, purged, hp, rfl⟩

/-! ## Assertions, claims and dispatches -/

theorem insertAssertion_cases {env : Env} {db db' : Db} {id aid : String} {t : Triplet} {f : FactIdentity}
    (h : insertAssertion env db id t f = .ok (db', aid)) :
    ∃ m a, db.core.mutations.lookup id = some m ∧ a.assertionId = aid ∧ a.mutationId = id ∧
      a.pipelineRunId = m.pipelineRunId ∧ a.revisionId = m.revisionId ∧ a.tenantId = m.tenantId ∧
      a.documentId = m.documentId ∧ a.status = .active ∧ ∃ core : Core, ∃ links,
      core = { db.core with assertions := db.core.assertions.insertOrIgnore a } ∧
      links = (supersededBy core db.idents m t aid f.subjectId).foldl
        (fun ls old => ls.insertOrIgnore ⟨aid, old, id⟩) db.core.links ∧
      db' = { db with core := { core with links } } := by
  unfold insertAssertion at h
  cases hm : db.core.mutations.lookup id with
  | none => rw [hm] at h; cases h
  | some m =>
    rw [hm] at h
    obtain ⟨assertionId, -, h⟩ := bind_eq_ok.1 h
    simp only at h
    split at h
    · cases h
    · cases pure_eq_ok.1 h
      exact ⟨m, _, rfl, rfl, rfl, rfl, rfl, rfl, rfl, rfl, _, _, rfl, rfl, rfl⟩

/-- The id of the assertion that a fact of the mutation becomes. -/
def assertionIdFor (env : Env) (m : Mutation) (t : Triplet) (f : FactIdentity) : Except DaoError String :=
  v4AssertionId env m.tenantId m.datasetId m.revisionId m.chunkId f.subjectId t.relation f.objectEntityId f.literalValue
    (if t.evidenceSpan = "" then m.evidenceSpan else t.evidenceSpan)

/-- The row that `project_v4_sql_assertion` inserts. -/
def assertionRow (m : Mutation) (mutationId : String) (t : Triplet) (f : FactIdentity) (assertionId : String) :
    Assertion where
  assertionId := assertionId
  tenantId := m.tenantId
  datasetId := m.datasetId
  subjectId := f.subjectId
  predicate := t.relation
  objectEntityId := f.objectEntityId
  literalValue := f.literalValue
  documentId := m.documentId
  revisionId := m.revisionId
  chunkId := m.chunkId
  validFrom := if t.validFrom = "" then m.metadataValidFrom else t.validFrom
  validTo := if t.validTo = "" then m.metadataValidTo else t.validTo
  status := .active
  mutationId := mutationId
  pipelineRunId := m.pipelineRunId

/-- The core with the assertion, before it is linked. -/
def withAssertion (c : Core) (a : Assertion) : Core := { c with assertions := c.assertions.insertOrIgnore a }

theorem insertAssertion_row {env : Env} {db db' : Db} {id aid : String} {t : Triplet} {f : FactIdentity}
    (h : insertAssertion env db id t f = .ok (db', aid)) :
    ∃ m, db.core.mutations.lookup id = some m ∧ assertionIdFor env m t f = .ok aid ∧
      db' = { db with core := { withAssertion db.core (assertionRow m id t f aid) with
        links := (supersededBy (withAssertion db.core (assertionRow m id t f aid)) db.idents m t aid f.subjectId).foldl
          (fun ls old => ls.insertOrIgnore ⟨aid, old, id⟩) db.core.links } } := by
  unfold insertAssertion at h
  cases hm : db.core.mutations.lookup id with
  | none => rw [hm] at h; cases h
  | some m =>
    rw [hm] at h
    obtain ⟨assertionId, haid, h⟩ := bind_eq_ok.1 h
    simp only at h
    split at h
    · cases h
    · cases pure_eq_ok.1 h
      exact ⟨m, rfl, haid, rfl⟩

/-- A fenced mutation loses an assertion, its links and its receipt; any other keeps them. -/
theorem dropFencedAssertion_cases (db : Db) (id aid : String) :
    dropFencedAssertion db id aid = db ∨
    ∃ m, db.core.mutations.lookup id = some m ∧ db.core.advanceFenced m = true ∧
      dropFencedAssertion db id aid = { db with
        core := { db.core with
          links := db.core.links.delete fun l => l.sourceAssertionId = aid || l.targetAssertionId = aid
          assertions := db.core.assertions.delete fun a => a.assertionId = aid && a.mutationId = id }
        own := { db.own with receipts := db.own.receipts.delete fun r => r = ⟨id, .sql, .assertion, aid⟩ } } := by
  unfold dropFencedAssertion
  cases hm : db.core.mutations.lookup id with
  | none => exact Or.inl rfl
  | some m =>
    by_cases hf : db.core.advanceFenced m = true
    · exact Or.inr ⟨m, rfl, hf, if_pos hf⟩
    · exact Or.inl (if_neg hf)

theorem claimProjectionOutbox_cases {db db' : Db} {w t : String} {limit lease : Nat} {claims : List Projection}
    (h : claimProjectionOutbox db w t limit lease = .ok (db', claims)) :
    ∃ ids, ids = ((claimCandidates db).take limit).map (·.key) ∧
      db' = { db with outbox := db'.outbox } ∧
      db'.outbox = db.outbox.update (fun p => p.key ∈ ids && p.claimable db.now)
        (fun p => p.claimed w t (db.now + lease)) ∧
      claims = db'.outbox.select fun p => p.key ∈ ids := by
  unfold claimProjectionOutbox at h
  split at h
  · cases h
  · cases h; exact ⟨_, rfl, rfl, rfl, rfl⟩

/-- What a cleanup claim does to a row it takes. -/
def CleanupRow.claimed (x : CleanupRow) (workerId claimToken : String) (lease : Nat) : CleanupRow :=
  { x with
    state := .inFlight
    claimToken := some claimToken
    claimedBy := some workerId
    leaseExpiresAt := some lease
    attemptCount := x.attemptCount + 1 }

theorem claimArtifactCleanup_cases {db db' : Db} {w t : String} {limit lease : Nat} {claims : List CleanupClaim}
    (h : claimArtifactCleanup db w t limit lease = .ok (db', claims)) :
    ∃ ids, ids = ((cleanupCandidates db).take limit).map (·.key) ∧
      db' = { db with own := { db.own with cleanup := db'.own.cleanup } } ∧
      db'.own.cleanup = db.own.cleanup.update (fun x => x.key ∈ ids && x.claimable db.now)
        (fun x => x.claimed w t (db.now + lease)) ∧
      claims = ids.filterMap fun key => (db.core.runs.lookup key.pipelineRunId).map fun run => ⟨key, run.agentId⟩ := by
  unfold claimArtifactCleanup at h
  split at h
  · cases h
  · cases h; exact ⟨_, rfl, rfl, rfl, rfl⟩

/-- A settled dispatch changes the queue; the fifth failure also dead-letters linked mutations. -/
theorem completeDispatchQueue_cases {db db' : Db} {key : DispatchKey} {w t : String} {v : Bool}
    (h : completeDispatchQueue db key w t v = .ok db') :
    db' = { db with core := db'.core, queue := db'.queue } ∧
      (db'.core = db.core ∨ ∃ ids, moveAll db.core ids .deadLetter = .ok db'.core) := by
  unfold completeDispatchQueue at h
  split at h
  · cases h; exact ⟨rfl, Or.inl rfl⟩
  · simp only at h
    split at h
    · cases h; exact ⟨rfl, Or.inl rfl⟩
    · split at h
      · cases h; exact ⟨rfl, Or.inl rfl⟩
      · split at h
        · obtain ⟨core, hc, h⟩ := bind_eq_ok.1 h
          cases pure_eq_ok.1 h
          exact ⟨rfl, Or.inr ⟨_, hc⟩⟩
        · cases h; exact ⟨rfl, Or.inl rfl⟩

end Mesa.Ledger
