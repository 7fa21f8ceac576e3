/-
Rows that no transaction deletes: mutations with what admission fixed of them, pipeline runs,
projection lanes and raw logs.
-/
import Mesa.Ledger.Lanes
import Mesa.Ledger.Progress

namespace Mesa.Ledger

open Mesa.Foundation

/-! ## Pipeline runs -/

/-- Every run is still there. -/
def Core.KeepsRuns (c c' : Core) : Prop := ∀ k, c.runs.lookup k ≠ none → c'.runs.lookup k ≠ none

theorem Core.KeepsRuns.of_runs {c c' : Core} (h : c'.runs = c.runs) : c.KeepsRuns c' := by
  intro k hk; rwa [h]

theorem Core.KeepsRuns.trans {c d e : Core} (h : c.KeepsRuns d) (h' : d.KeepsRuns e) : c.KeepsRuns e :=
  fun k hk => h' k (h k hk)

theorem Core.KeepsRuns.insert {c c' : Core} {r : PipelineRun} (h : c'.runs = c.runs.insertOrIgnore r) :
    c.KeepsRuns c' := by
  intro k hk
  obtain ⟨x, hx⟩ := Option.ne_none_iff_exists'.1 hk
  rw [h, Table.lookup_insertOrIgnore, hx]
  exact Option.some_ne_none x

theorem transitionPipelineRun_keeps {c c' : Core} {id : String} {s : PipelineState} {b : Bool}
    (h : transitionPipelineRun c.runs id s = .ok (c'.runs, b)) : c.KeepsRuns c' :=
  fun _ hk => (transitionPipelineRun_moved h).1.lookup_ne_none.2 hk

theorem recomputePipelineState_keeps {c c' : Core} {mutations : Table Mutation} {id : String} {b : Bool}
    (h : recomputePipelineState mutations c.runs id = .ok (c'.runs, b)) : c.KeepsRuns c' :=
  fun _ hk => (recomputePipelineState_moved h).lookup_ne_none.2 hk

theorem transitionMemoryMutation_keeps {c c' : Core} {id : String} {s : MutationState} {b : Bool}
    (h : transitionMemoryMutation c id s = .ok (c', b)) : c.KeepsRuns c' :=
  fun k hk => (transitionMemoryMutation_runs h k).2 hk

theorem moveAll_keeps {c c' : Core} {ids : List String} {s : MutationState} (h : moveAll c ids s = .ok c') :
    c.KeepsRuns c' :=
  fun k hk => (moveAll_runs h k).2 hk

theorem closeRollback_keeps {c c' : Core} {id : String} (h : closeRollback c id = .ok c') : c.KeepsRuns c' := by
  obtain ⟨⟨runs, b⟩, hr, h⟩ := bind_eq_ok.1 h
  have hmoved : c.KeepsRuns { c with runs := runs } := transitionPipelineRun_keeps hr
  exact hmoved.trans (moveAll_keeps h)

theorem purgeMutations_keeps {c c' : Core} {p : Mutation → Bool} {ids : List String}
    (h : purgeMutations c p = .ok (c', ids)) : c.KeepsRuns c' := by
  refine foldOk_invariant (I := fun acc : Core × List String => c.KeepsRuns acc.1) (fun d id d' hd hstep => ?_)
    (.of_runs rfl) h
  obtain ⟨⟨e, b⟩, ht, hp⟩ := bind_eq_ok.1 hstep
  cases pure_eq_ok.1 hp
  exact hd.trans (transitionMemoryMutation_keeps ht)

theorem climbMilestones_keeps {id : String} : ∀ {ms : List MutationState} {c c' : Core} {index : Int} {b : Bool},
    climbMilestones id c index ms = .ok (c', b) → c.KeepsRuns c'
  | [], c, c', index, b, h => by cases h; exact .of_runs rfl
  | s :: rest, c, c', index, b, h => by
    unfold climbMilestones at h
    split at h
    · exact climbMilestones_keeps h
    · obtain ⟨⟨d, moved⟩, ht, h⟩ := bind_eq_ok.1 h
      cases moved with
      | true => exact (transitionMemoryMutation_keeps ht).trans (climbMilestones_keeps h)
      | false => cases pure_eq_ok.1 h; exact transitionMemoryMutation_keeps ht

theorem advanceMutationProjectionState_keeps {c c' : Core} {outbox : Table Projection} {id : String}
    (h : advanceMutationProjectionState c outbox id = .ok c') : c.KeepsRuns c' := by
  unfold advanceMutationProjectionState at h
  split at h
  · cases h; exact .of_runs rfl
  · split at h
    · cases h; exact .of_runs rfl
    · split at h
      · cases h; exact .of_runs rfl
      · obtain ⟨⟨d, reentered⟩, hd, h⟩ := bind_eq_ok.1 h
        have hfirst : c.KeepsRuns d := by
          unfold reenterLifecycle at hd
          split at hd
          · exact transitionMemoryMutation_keeps hd
          · cases hd; exact .of_runs rfl
        cases reentered with
        | false => cases pure_eq_ok.1 h; exact hfirst
        | true =>
          obtain ⟨⟨e, finished⟩, he, h⟩ := bind_eq_ok.1 h
          have hsecond := hfirst.trans (climbMilestones_keeps he)
          cases finished with
          | false => cases pure_eq_ok.1 h; exact hsecond
          | true =>
            obtain ⟨⟨runs, b⟩, hr, h⟩ := bind_eq_ok.1 h
            cases pure_eq_ok.1 h
            have hlast : e.KeepsRuns { e with runs := runs } := recomputePipelineState_keeps hr
            exact hsecond.trans hlast

/-- No transaction deletes a run. -/
theorem transact_keepsRuns {env : Env} {db db' : Db} {op : Op} (h : transact env db op = .ok db') :
    db.core.KeepsRuns db'.core := by
  by_cases hw : Part.runs ∉ op.writes
  · exact .of_runs (transact_frame h hw)
  cases op with
  | admitMemory q =>
    obtain ⟨core, m, queue, hc, -, -, hdb⟩ := admitMemory_cases h
    refine .insert (r := ⟨m.pipelineRunId, m.tenantId, m.agentId, .queued⟩) ?_
    rw [hdb, ← (admitProvenance_frame hc).runs]
  | recordMutation m =>
    refine .insert (r := ⟨m.pipelineRunId, m.tenantId, m.agentId, .queued⟩) ?_
    rw [(recordMutation_cases h).1]
  | recordMutationExtraction a id ts =>
    obtain ⟨⟨c, b⟩, hc, rfl⟩ := map_eq_ok.1 h
    rcases recordMutationExtraction_cases hc with ⟨rfl, -⟩ | ⟨m, -, -, -, ht⟩
    · exact .of_runs rfl
    · have hset := transitionMemoryMutation_keeps ht
      exact Core.KeepsRuns.trans (.of_runs rfl) hset
  | setMutationState a id s =>
    obtain ⟨⟨db₁, b⟩, hc, rfl⟩ := map_eq_ok.1 h
    rcases (setMutationState_cases hc).2 with rfl | ⟨m, core, b', hm, -, ht, hb, hdb⟩
    · exact .of_runs rfl
    · have hfirst := transitionMemoryMutation_keeps ht
      rcases hdb with ⟨-, hdb⟩ | ⟨rfl, rb, hre, hdb⟩ <;> rw [hdb]
      · exact hfirst
      · have hsecond : core.KeepsRuns { core with runs := db₁.core.runs } := recomputePipelineState_keeps hre
        exact hfirst.trans hsecond
  | completeProjectionOutbox k w t o =>
    obtain ⟨⟨db₁, r⟩, hc, rfl⟩ := map_eq_ok.1 h
    rcases completeProjectionOutbox_cases hc with ⟨rfl, -, -⟩ |
      ⟨p, m, -, -, ⟨-, -, hdb⟩ | ⟨-, -, -, core, hadv, hdb⟩⟩
    · exact .of_runs rfl
    · rw [hdb]; exact .of_runs rfl
    · rw [hdb]; exact advanceMutationProjectionState_keeps hadv
  | failProjectionOutbox k w t r =>
    rcases failProjectionOutbox_cases h with rfl | ⟨p, m, terminal, -, -, -, -, hcore⟩
    · exact .of_runs rfl
    · rcases hcore with ⟨-, hc⟩ | ⟨-, core, b, rb, ht, hr, hc⟩
      · rw [hc]; exact .of_runs rfl
      · have hsecond : core.KeepsRuns db'.core := transitionPipelineRun_keeps hr
        exact (transitionMemoryMutation_keeps ht).trans hsecond
  | requestPipelineRollback r =>
    obtain ⟨run, -, ⟨-, rfl⟩ | ⟨-, -, runs, moved, restored, cleanup, -, hr, hmv, hre, hcl, -⟩⟩ :=
      requestPipelineRollback_cases h
    · exact .of_runs rfl
    · have hrun : db.core.KeepsRuns { db.core with
          runs := runs, assertions := retractAssertions db.core.assertions cleanup } := transitionPipelineRun_keeps hr
      have hrestored := (hrun.trans (moveAll_keeps hmv)).trans (.of_runs (restorePipelineSupersession_frame hre).runs)
      unfold closeIfIdle at hcl
      split at hcl
      · exact hrestored.trans (closeRollback_keeps hcl)
      · cases hcl; exact hrestored
  | replayPipelineRun r t =>
    obtain ⟨run, runs, -, -, cr, -, hr, hmv, -⟩ := replayPipelineRun_cases h
    have hrun : db.core.KeepsRuns { db.core with runs := runs } := transitionPipelineRun_keeps hr
    exact hrun.trans (moveAll_keeps hmv)
  | reconcileProjectionParity ms =>
    refine foldOk_invariant (I := fun d : Db => db.core.KeepsRuns d.core) (fun d x d' hd hstep => ?_) (.of_runs rfl) h
    rcases repairMutation_cases hstep with rfl | ⟨m, core, -, -, -, -, ht, hr, hdb⟩
    · exact hd
    · have hrun : core.KeepsRuns d'.core := transitionPipelineRun_keeps hr
      exact (hd.trans (transitionMemoryMutation_keeps ht)).trans hrun
  | finishArtifactCleanup k w t f =>
    rcases finishArtifactCleanup_cases h with rfl | ⟨row, -, -, -, ⟨-, hc⟩ | ⟨-, runs, rb, hr, hmv⟩ | ⟨-, -, hc⟩⟩
    · exact .of_runs rfl
    · rw [hc]; exact .of_runs rfl
    · have hrun : db.core.KeepsRuns { db.core with runs := runs } := transitionPipelineRun_keeps hr
      exact hrun.trans (moveAll_keeps hmv)
    · exact closeRollback_keeps hc
  | enqueueUnownedProjectionCleanup id artifacts =>
    simp only [transact, enqueueUnownedProjectionCleanup] at h
    split at h
    · cases h
    · cases h
      intro k hk
      obtain ⟨x, hx⟩ := Option.ne_none_iff_exists'.1 hk
      simp only [Table.lookup_update, hx, Option.map_some]
      exact Option.some_ne_none _
  | finalizeTerminalProjectionCompensation id =>
    rcases finalizeTerminalProjectionCompensation_cases h with rfl | ⟨m, -, -, hc, -⟩
    · exact .of_runs rfl
    · exact closeRollback_keeps hc
  | purgeDocument t d i =>
    obtain ⟨core, purged, hc, hdb⟩ := purgeDocument_cases h
    have hruns : db'.core.runs = core.runs := by rw [hdb]; rfl
    exact (purgeMutations_keeps hc).trans (.of_runs hruns)
  | purgeMemory a s =>
    obtain ⟨core, purged, hc, hdb⟩ := purgeMemory_cases h
    rw [hdb]; exact purgeMutations_keeps hc
  | completeDispatchQueue k w t v =>
    rcases (completeDispatchQueue_cases h).2 with hc | ⟨ids, hc⟩
    · rw [hc]; exact .of_runs rfl
    · exact moveAll_keeps hc
  | _ => exact absurd (by simp [Op.writes]) hw

/-! ## Raw logs -/

/-- No transaction deletes a raw log, and none changes whose it is. -/
theorem transact_keepsRawLogs {env : Env} {db db' : Db} {op : Op} (h : transact env db op = .ok db') {k : Nat}
    {r : RawLog} (hr : db.queue.rawLogs.lookup k = some r) :
    ∃ r', db'.queue.rawLogs.lookup k = some r' ∧ r'.agentId = r.agentId := by
  by_cases hw : Part.queue ∉ op.writes
  · rw [show db'.queue = db.queue from transact_frame h hw]
    exact ⟨r, hr, rfl⟩
  cases op with
  | admitMemory q =>
    obtain ⟨core, -, h⟩ := bind_eq_ok.1 h
    simp only at h
    split at h
    · cases h
    · split at h
      · cases h
      · split at h
        · cases h
        · cases pure_eq_ok.1 h
          refine ⟨r, ?_, rfl⟩
          rw [Table.lookup_insertOrIgnore, hr, Option.some_or]
  | recoverInFlight => cases h; exact ⟨r, hr, rfl⟩
  | claimDispatchQueue w t limit lease =>
    have h : claimDispatchQueue db w t limit lease = .ok db' := h
    unfold claimDispatchQueue at h
    split at h
    · cases h
    · cases h; exact ⟨r, hr, rfl⟩
  | replayPipelineRun run t =>
    obtain ⟨-, runs, -, -, cr, -, -, -, hrows⟩ := replayPipelineRun_cases h
    rw [hrows]
    cases cr with
    | true => exact ⟨r, hr, rfl⟩
    | false =>
      simp only [requeueDispatches, Bool.false_eq_true, ↓reduceIte, Table.lookup_update, hr, Option.map_some]
      refine ⟨_, rfl, ?_⟩
      split <;> rfl
  | completeDispatchQueue key w t v =>
    have h : completeDispatchQueue db key w t v = .ok db' := h
    unfold completeDispatchQueue at h
    split at h
    · cases h; exact ⟨r, hr, rfl⟩
    · simp only at h
      split at h
      · cases h; exact ⟨r, hr, rfl⟩
      · split at h
        · cases h; exact ⟨r, hr, rfl⟩
        · split at h
          · obtain ⟨core, -, h⟩ := bind_eq_ok.1 h
            cases pure_eq_ok.1 h
            simp only [Table.lookup_update, hr, Option.map_some]
            refine ⟨_, rfl, ?_⟩
            split <;> rfl
          · cases h; exact ⟨r, hr, rfl⟩
  | _ => exact absurd (by simp [Op.writes]) hw

/-! ## Everything at once -/

/-- A later database: mutations keep what admission fixed of them, and runs, lanes and raw logs stay. -/
structure Db.Later (db db' : Db) : Prop where
  mutations : ∀ id m, db.core.mutations.lookup id = some m →
    ∃ m', db'.core.mutations.lookup id = some m' ∧ m'.toMutationScope = m.toMutationScope
  runs : db.core.KeepsRuns db'.core
  lanes : ∀ k, db.outbox.lookup k ≠ none → db'.outbox.lookup k ≠ none
  rawLogs : ∀ k r, db.queue.rawLogs.lookup k = some r →
    ∃ r', db'.queue.rawLogs.lookup k = some r' ∧ r'.agentId = r.agentId

theorem Db.Later.trans {a b c : Db} (h : a.Later b) (h' : b.Later c) : a.Later c where
  mutations id m hm := by
    obtain ⟨m₁, hm₁, hs₁⟩ := h.mutations id m hm
    obtain ⟨m₂, hm₂, hs₂⟩ := h'.mutations id m₁ hm₁
    exact ⟨m₂, hm₂, hs₂.trans hs₁⟩
  runs := h.runs.trans h'.runs
  lanes k hk := h'.lanes k (h.lanes k hk)
  rawLogs k r hr := by
    obtain ⟨r₁, hr₁, ha₁⟩ := h.rawLogs k r hr
    obtain ⟨r₂, hr₂, ha₂⟩ := h'.rawLogs k r₁ hr₁
    exact ⟨r₂, hr₂, ha₂.trans ha₁⟩

/-- Work on the queue that keeps the raw logs. -/
theorem Db.Later.of_queue {db db' : Db} (hcore : db'.core = db.core) (houtbox : db'.outbox = db.outbox)
    (h : ∀ k r, db.queue.rawLogs.lookup k = some r →
      ∃ r', db'.queue.rawLogs.lookup k = some r' ∧ r'.agentId = r.agentId) : db.Later db' where
  mutations id m hm := ⟨m, by rw [hcore]; exact hm, rfl⟩
  runs := .of_runs (by rw [hcore])
  lanes k hk := by rwa [houtbox]
  rawLogs := h

theorem Db.Later.refl (db : Db) : db.Later db := .of_queue rfl rfl fun _ r hr => ⟨r, hr, rfl⟩

theorem transact_later {env : Env} {db db' : Db} {op : Op} (h : transact env db op = .ok db') : db.Later db' where
  mutations id m hm := by
    obtain ⟨m', hm', hscope, -⟩ := (transact_progress h).kept id m hm
    exact ⟨m', hm', hscope⟩
  runs := transact_keepsRuns h
  lanes k hk := by
    obtain ⟨p, hp⟩ := Option.ne_none_iff_exists'.1 hk
    obtain ⟨p', hp', -⟩ := (transact_lanes h).moved k p hp
    rw [hp']; exact Option.some_ne_none p'
  rawLogs _ _ hr := transact_keepsRawLogs h hr

end Mesa.Ledger
