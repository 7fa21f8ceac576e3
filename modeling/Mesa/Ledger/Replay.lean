/-
Operator replay: what it does to the children of a run and which of them it leaves with work that
a worker can claim.
-/
import Mesa.Ledger.Commit

namespace Mesa.Ledger

open Mesa.Foundation

/-! ## Runnable work -/

/-- `claim_projection_outbox` will hand out a lane of the mutation. -/
def handsOutLane (db : Db) (mutationId : String) : Bool :=
  (claimCandidates db).any fun p => p.key.mutationId = mutationId

/-- The dispatch record belongs to the raw log the mutation was admitted with. -/
def dispatchedFor (m : Mutation) (d : DispatchRecord) : Bool :=
  m.rawLogId = some d.key.payloadReference && m.agentId = d.key.agentId && m.tenantId = d.tenantId

/-- `claim_dispatch_queue` will hand out a dispatch record of the mutation. -/
def handsOutDispatch (db : Db) (m : Mutation) : Bool :=
  db.queue.dispatch.anyWhere fun d => dispatchedFor m d && d.claimable db.now

/-- A replay demotes no committed child, and every child it retries has work to hand out. -/
structure ReplaySound (db db' : Db) (pipelineRunId : String) : Prop where
  committed : ∀ m ∈ db.core.children pipelineRunId, m.state = .committed →
    db'.core.mutationState m.mutationId = some .committed
  retried : ∀ m ∈ db.core.children pipelineRunId, m.state ≠ .retryPending →
    db'.core.mutationState m.mutationId = some .retryPending →
      handsOutLane db' m.mutationId = true ∨ handsOutDispatch db' m = true

/-- A lane of the mutation is dead or claimable, and the lane before it is finished. -/
def revivableLane (db : Db) (mutationId : String) : Bool :=
  db.outbox.anyWhere fun p => p.key.mutationId = mutationId && (p.state = .deadLetter || p.claimable db.now) &&
    predecessorFinished db.outbox p.key

/-- A dispatch record of the mutation is dead or claimable. -/
def revivableDispatch (db : Db) (m : Mutation) : Bool :=
  db.queue.dispatch.anyWhere fun d => dispatchedFor m d && (d.state = .deadLetter || d.claimable db.now)

/-- A cleanup of the run is blocked, so the replay resumes a rollback. -/
def resumesRollback (db : Db) (pipelineRunId : String) : Bool :=
  db.own.cleanup.anyWhere fun x => x.key.pipelineRunId = pipelineRunId && x.state = .blocked

/-- No child is committed, and unless a rollback is resumed every child that can be retried has a lane
or a dispatch record to revive. -/
def replayKeepsWork (db : Db) (pipelineRunId : String) : Bool :=
  (db.core.children pipelineRunId).all fun m => m.state ≠ .committed &&
    (resumesRollback db pipelineRunId || .retryPending ∉ m.state.next ||
      revivableLane db m.mutationId || revivableDispatch db m)

/-! ## What a replay hands out -/

theorem handsOutLane_iff {db : Db} {id : String} :
    handsOutLane db id = true ↔ ∃ p ∈ db.outbox.rows, p.key.mutationId = id ∧ p.claimable db.now = true ∧
      predecessorFinished db.outbox p.key = true := by
  simp only [handsOutLane, List.any_eq_true, decide_eq_true_eq, mem_claimCandidates]
  exact ⟨fun ⟨p, ⟨hp, hc, hf⟩, hid⟩ => ⟨p, hp, hid, hc, hf⟩, fun ⟨p, hp, hid, hc, hf⟩ => ⟨p, ⟨hp, hc, hf⟩, hid⟩⟩

/-- Dead lanes of some mutations go back to retry. -/
def reviveLanes (outbox : Table Projection) (ids : List String) : Table Projection :=
  outbox.update (fun p => p.key.mutationId ∈ ids && p.state = .deadLetter) (·.released .retryPending)

/-- Reviving dead lanes finishes none and unfinishes none. -/
theorem predecessorFinished_revive (outbox : Table Projection) (ids : List String) (key : ProjectionKey) :
    predecessorFinished (reviveLanes outbox ids) key = predecessorFinished outbox key := by
  have keep : ∀ (k : ProjectionKey) (q : LaneState → Bool), q .deadLetter = false → q .retryPending = false →
      ((reviveLanes outbox ids).lookup k).any (fun p => q p.state) = (outbox.lookup k).any fun p => q p.state := by
    intro k q hd hr
    rw [reviveLanes, Table.lookup_update]
    cases outbox.lookup k with
    | none => rfl
    | some p =>
      simp only [Option.map_some, Option.any_some]
      split
      · next h =>
        simp only [Bool.and_eq_true, decide_eq_true_eq] at h
        rw [h.2, hd]; exact hr
      · rfl
  unfold predecessorFinished
  split
  · rfl
  · exact keep _ (fun s => decide (s = .completed)) rfl rfl
  · exact keep _ (fun s => decide (s ∈ [LaneState.completed, .skipped])) rfl rfl

theorem revived_lane {db db' : Db} {ids : List String} {id : String} (hid : id ∈ ids)
    (hout : db'.outbox = reviveLanes db.outbox ids) (hnow : db'.now = db.now) :
    handsOutLane db' id = true ↔ revivableLane db id = true := by
  rw [handsOutLane_iff, hout, hnow]
  simp only [revivableLane, Table.anyWhere_iff, Bool.and_eq_true, decide_eq_true_eq, Bool.or_eq_true,
    predecessorFinished_revive]
  constructor
  · rintro ⟨p, hp, hpid, hc, hf⟩
    obtain ⟨q, hq, rfl⟩ := Table.mem_updated.1 hp
    by_cases hd : q.key.mutationId ∈ ids ∧ q.state = .deadLetter
    · have hif : (decide (q.key.mutationId ∈ ids) && decide (q.state = .deadLetter)) = true := by simp [hd.1, hd.2]
      rw [if_pos hif] at hpid hf
      exact ⟨q, hq, ⟨hpid, Or.inl hd.2⟩, hf⟩
    · have hif : ¬ (decide (q.key.mutationId ∈ ids) && decide (q.state = .deadLetter)) = true := by simpa using hd
      rw [if_neg hif] at hpid hf hc
      exact ⟨q, hq, ⟨hpid, Or.inr hc⟩, hf⟩
  · rintro ⟨q, hq, ⟨hqid, hs⟩, hf⟩
    refine ⟨_, Table.mem_updated.2 ⟨q, hq, rfl⟩, ?_⟩
    by_cases hd : q.state = .deadLetter
    · have hif : (decide (q.key.mutationId ∈ ids) && decide (q.state = .deadLetter)) = true := by simp [hqid, hid, hd]
      rw [if_pos hif]
      exact ⟨hqid, by simp [Projection.claimable], hf⟩
    · have hif : ¬ (decide (q.key.mutationId ∈ ids) && decide (q.state = .deadLetter)) = true := by simp [hd]
      rw [if_neg hif]
      exact ⟨hqid, hs.resolve_left hd, hf⟩

/-- A dead dispatch record of a child that is retried goes back to the queue. -/
theorem revived_dispatch {db : Db} {core : Core} {run : String} {m m' : Mutation}
    (hlook : core.mutations.lookup m.mutationId = some m') (hscope : m'.toMutationScope = m.toMutationScope)
    (hrun : m.pipelineRunId = run) (hretry : m'.state = .retryPending) :
    ((requeueDispatches core db.queue run).dispatch.anyWhere fun d => dispatchedFor m d && d.claimable db.now) = true ↔
      revivableDispatch db m = true := by
  simp only [revivableDispatch, Table.anyWhere_iff, Bool.and_eq_true, Bool.or_eq_true, decide_eq_true_eq]
  constructor
  · rintro ⟨d, hd, hfor, hc⟩
    obtain ⟨q, hq, rfl⟩ := Table.mem_updated.1 hd
    split at hfor
    · next h =>
      simp only [Bool.and_eq_true, decide_eq_true_eq] at h
      exact ⟨q, hq, hfor, Or.inl h.1⟩
    · next h => rw [if_neg h] at hc; exact ⟨q, hq, hfor, Or.inr hc⟩
  · rintro ⟨q, hq, hfor, hs⟩
    refine ⟨_, Table.mem_updated.2 ⟨q, hq, rfl⟩, ?_⟩
    by_cases hd : q.state = .deadLetter
    · have hlinked : (core.mutations.anyWhere fun x => x.pipelineRunId = run && x.state = .retryPending &&
          x.rawLogId = some q.key.payloadReference && x.agentId = q.key.agentId && x.tenantId = q.tenantId) = true := by
        refine Table.anyWhere_iff.2 ⟨m', Table.lookup_mem hlook, ?_⟩
        simp only [dispatchedFor, Bool.and_eq_true, decide_eq_true_eq] at hfor
        simp [hscope, hrun, hretry, hfor.1.1, hfor.1.2, hfor.2]
      rw [if_pos (by simp [hd, hlinked])]
      exact ⟨hfor, by simp [DispatchRecord.claimable]⟩
    · rw [if_neg (by simp [hd])]
      exact ⟨hfor, hs.resolve_left hd⟩

/-! ## The main result -/

/-- A replay demotes no committed child and strands none exactly when no child is committed and each
child that it retries has a lane or a dispatch record to revive. -/
theorem replay_sound_iff {db db' : Db} {id : String} {target : Option String}
    (h : replayPipelineRun db id target = .ok db') : ReplaySound db db' id ↔ replayKeepsWork db id = true := by
  obtain ⟨run, runs, -, -, resumes, hres, -, hmv, hdb⟩ := replayPipelineRun_cases h
  have hmut : db'.core.mutations = moveMutations db.core.mutations (fun m => m.pipelineRunId = id)
      (if resumes then .rollingBack else .retryPending) := (transitionPipelineMutations_spec hmv).1
  have hout : db'.outbox = reviveLanes db.outbox (childIds db.core id) := by rw [hdb]; rfl
  have hnow : db'.now = db.now := by rw [hdb]
  have hqueue : db'.queue = if resumes then db.queue else requeueDispatches db'.core db.queue id := by
    conv_lhs => rw [hdb]
  -- where a child is after the replay
  have hafter : ∀ m ∈ db.core.children id, db'.core.mutations.lookup m.mutationId =
      some { m with state := m.state.attempt (if resumes then .rollingBack else .retryPending) } := by
    intro m hm
    obtain ⟨hrow, hrun⟩ := Table.mem_select.1 hm
    rw [hmut, lookup_moveMutations, show db.core.mutations.lookup m.mutationId = some m from Table.lookup_of_mem hrow]
    simp [of_decide_eq_true hrun]
  have hstate : ∀ m ∈ db.core.children id, db'.core.mutationState m.mutationId =
      some (m.state.attempt (if resumes then .rollingBack else .retryPending)) := by
    intro m hm
    rw [Core.mutationState, hafter m hm]; rfl
  have hlane : ∀ m ∈ db.core.children id,
      (handsOutLane db' m.mutationId = true ↔ revivableLane db m.mutationId = true) := fun m hm =>
    revived_lane (List.mem_map.2 ⟨m, hm, rfl⟩) hout hnow
  have hresumes : resumesRollback db id = resumes := hres.symm
  simp only [replayKeepsWork, List.all_eq_true, Bool.and_eq_true, Bool.or_eq_true, decide_eq_true_eq, hresumes]
  constructor
  · intro hsound m hm
    have hnc : m.state ≠ .committed := by
      intro hc
      have hs := hsound.committed m hm hc
      rw [hstate m hm, hc] at hs
      cases resumes <;> revert hs <;> decide
    refine ⟨hnc, ?_⟩
    by_cases hn : .retryPending ∈ m.state.next
    · cases hr : resumes with
      | true => exact Or.inl (Or.inl (Or.inl rfl))
      | false =>
        have hs : db'.core.mutationState m.mutationId = some .retryPending := by
          rw [hstate m hm, hr]; simp [MutationState.attempt, hn]
        have hne : m.state ≠ .retryPending := by
          intro he; rw [he] at hn; exact absurd hn (by decide)
        rcases hsound.retried m hm hne hs with hl | hd
        · exact Or.inl (Or.inr ((hlane m hm).1 hl))
        · refine Or.inr ?_
          have hd' : ((requeueDispatches db'.core db.queue id).dispatch.anyWhere fun d =>
              dispatchedFor m d && d.claimable db.now) = true := by
            rw [handsOutDispatch, hqueue, hr, hnow] at hd; exact hd
          refine (revived_dispatch (hafter m hm) rfl (of_decide_eq_true (Table.mem_select.1 hm).2) ?_).1 hd'
          rw [hr]; simp [MutationState.attempt, hn]
    · exact Or.inl (Or.inl (Or.inr hn))
  · intro hkeep
    refine ⟨fun m hm hc => absurd hc (hkeep m hm).1, fun m hm hne hs => ?_⟩
    rw [hstate m hm, Option.some_inj] at hs
    cases hr : resumes with
    | true =>
      -- a resumed rollback moves nobody to RETRY_PENDING
      rw [hr, if_pos rfl] at hs
      rcases m.state.attempt_cases .rollingBack with ⟨-, he⟩ | ⟨-, he⟩ <;> rw [he] at hs
      · cases hs
      · exact absurd hs hne
    | false =>
      have hn : .retryPending ∈ m.state.next := by
        rw [hr] at hs
        rcases m.state.attempt_cases .retryPending with ⟨hn, -⟩ | ⟨-, he⟩
        · exact hn
        · exact absurd (he.symm.trans hs) hne
      rcases (hkeep m hm).2 with ((hb | hb) | hl) | hd
      · rw [hr] at hb; cases hb
      · exact absurd hn hb
      · exact Or.inl ((hlane m hm).2 hl)
      · refine Or.inr ?_
        rw [handsOutDispatch, hqueue, hr, hnow]
        refine (revived_dispatch (hafter m hm) rfl (of_decide_eq_true (Table.mem_select.1 hm).2) ?_).2 hd
        rw [hr]; simp [MutationState.attempt, hn]

/-- The only child of the run dies in its first lane. -/
def deadLetterRun : List Op :=
  admitted (sampleMutation "m" "r" "rev" "c") ++
    [.claimProjectionOutbox "w" "token" 1 60, .failProjectionOutbox ⟨"m", .sql⟩ "w" "token" false]

theorem replay_sound_dead_letter :
    ReplaySound (reach sampleEnv deadLetterRun)
      (exec sampleEnv (reach sampleEnv deadLetterRun) (.replayPipelineRun "r" none)) "r" :=
  (replay_sound_iff (transact_eq_ok (by decide) : transact sampleEnv _ (.replayPipelineRun "r" none) = _)).2 (by decide)

/-- One child of the run commits, the other dies in its first lane. -/
def halfCommittedRun : List Op :=
  admitted (sampleMutation "m1" "r" "rev" "c1") ++ admitted (sampleMutation "m2" "r" "rev" "c2") ++
    [.claimProjectionOutbox "w" "token" 2 60, .completeProjectionOutbox ⟨"m1", .sql⟩ "w" "token" .applied,
      .failProjectionOutbox ⟨"m2", .sql⟩ "w" "token" false] ++
    projected "m1" .vector ++ projected "m1" .graph

/-- The replay retries the committed child, which is left with no work at all. -/
theorem replay_demotes_and_strands :
    (reach sampleEnv halfCommittedRun).core.mutationState "m1" = some .committed ∧
      (exec sampleEnv (reach sampleEnv halfCommittedRun) (.replayPipelineRun "r" none)).core.mutationState "m1" =
        some .retryPending ∧
      handsOutLane (exec sampleEnv (reach sampleEnv halfCommittedRun) (.replayPipelineRun "r" none)) "m1" = false ∧
      (exec sampleEnv (reach sampleEnv halfCommittedRun) (.replayPipelineRun "r" none)).queue.dispatch.rows = [] := by
  refine ⟨?_, ?_, ?_, ?_⟩ <;> decide

end Mesa.Ledger
