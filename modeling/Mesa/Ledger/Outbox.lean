/-
The projection outbox: claiming, completing and failing lanes, the advance of a mutation over
its finished lanes, and the operations that move lanes from outside the projector.
-/
import Mesa.Ledger.Transition

namespace Mesa.Ledger

open Mesa.Foundation

/-! ## Claiming -/

/-- A pending lane, a retry whose delay is over, or a claim whose lease ran out. -/
def Projection.claimable (now : Nat) (p : Projection) : Bool :=
  p.state = .pending || (p.state = .retryPending && p.leaseExpiresAt.all (· ≤ now)) ||
    (p.state = .inFlight && p.leaseExpiresAt.any (· ≤ now))

/-- The lane before it is finished: SQL for VECTOR, VECTOR (possibly skipped) for GRAPH. -/
def predecessorFinished (outbox : Table Projection) (key : ProjectionKey) : Bool :=
  match key.projectionName with
  | .sql => true
  | .vector => (outbox.lookup ⟨key.mutationId, .sql⟩).any (·.state = .completed)
  | .graph => (outbox.lookup ⟨key.mutationId, .vector⟩).any (·.state ∈ [.completed, .skipped])

/-- The rows a claim selects from, by lane and then by age. -/
def claimCandidates (db : Db) : List Projection :=
  [Lane.sql, .vector, .graph].flatMap fun lane => db.outbox.select fun p =>
    p.key.projectionName = lane && p.claimable db.now && predecessorFinished db.outbox p.key

theorem mem_claimCandidates {db : Db} {p : Projection} :
    p ∈ claimCandidates db ↔
      p ∈ db.outbox.rows ∧ p.claimable db.now = true ∧ predecessorFinished db.outbox p.key = true := by
  have hlane : ∀ lane : Lane, lane ∈ [Lane.sql, .vector, .graph] := by intro lane; cases lane <;> decide
  simp only [claimCandidates, List.mem_flatMap, Table.mem_select, Bool.and_eq_true, decide_eq_true_eq]
  exact ⟨fun ⟨_, _, hp, ⟨_, hc⟩, hf⟩ => ⟨hp, hc, hf⟩, fun ⟨hp, hc, hf⟩ => ⟨_, hlane _, hp, ⟨rfl, hc⟩, hf⟩⟩

@[reducible] def Projection.claimed (p : Projection) (workerId claimToken : String) (lease : Nat) : Projection :=
  { p with
    state := .inFlight
    claimToken := some claimToken
    claimedBy := some workerId
    leaseExpiresAt := some lease
    attemptCount := p.attemptCount + 1 }

/-- A row that nobody holds. -/
@[reducible] def Projection.released (p : Projection) (state : LaneState) : Projection :=
  { p with state := state, claimToken := none, claimedBy := none, leaseExpiresAt := none }

/-- `claim_projection_outbox`: lease up to `limit` claimable lanes, and return them. -/
def claimProjectionOutbox (db : Db) (workerId claimToken : String) (limit leaseSeconds : Nat) :
    Except DaoError (Db × List Projection) :=
  if workerId = "" ∨ ¬ (1 ≤ limit ∧ limit ≤ 100) ∨ ¬ (1 ≤ leaseSeconds ∧ leaseSeconds ≤ 3600) then
    .error (.valueError "invalid projection claim bounds")
  else
    let identifiers := ((claimCandidates db).take limit).map (·.key)
    let outbox := db.outbox.update (fun p => p.key ∈ identifiers && p.claimable db.now) fun p =>
      p.claimed workerId claimToken (db.now + leaseSeconds)
    .ok ({ db with outbox }, outbox.select fun p => p.key ∈ identifiers)

/-! ## Advancing a mutation -/

/-- The position of a state in the projection lifecycle; states outside it come before SQL_APPLIED. -/
def MutationState.lifecycleOrder : MutationState → Int
  | .sqlApplied => 0
  | .vectorApplied => 1
  | .graphApplied => 2
  | .committed => 3
  | _ => -1

/-- The milestones the finished lanes of a mutation have reached. -/
def milestones (outbox : Table Projection) (mutationId : String) : List MutationState :=
  let state := fun lane => (outbox.lookup ⟨mutationId, lane⟩).map (·.state)
  let sql := decide (state .sql = some .completed)
  let vector := decide (state .vector ∈ [some .completed, some .skipped])
  let graph := decide (state .graph ∈ [some .completed, some .skipped])
  (if sql then [.sqlApplied] else []) ++ (if vector then [.vectorApplied] else []) ++
    (if graph then [.graphApplied] else []) ++ (if sql && vector && graph then [.committed] else [])

/-- Transition through the milestones above `index`; `false` when one of them was refused. -/
def climbMilestones (mutationId : String) : Core → Int → List MutationState → Except DaoError (Core × Bool)
  | c, _, [] => .ok (c, true)
  | c, index, s :: rest =>
    if s.lifecycleOrder ≤ index then climbMilestones mutationId c index rest
    else do
      let (c, moved) ← transitionMemoryMutation c mutationId s
      if moved then climbMilestones mutationId c s.lifecycleOrder rest else pure (c, false)

/-- A retried mutation re-enters the lifecycle through PENDING. -/
def reenterLifecycle (c : Core) (m : Mutation) : Except DaoError (Core × Bool) :=
  if m.state = .retryPending then transitionMemoryMutation c m.mutationId .pending else .ok (c, true)

/-- `_advance_mutation_projection_state`. -/
def advanceMutationProjectionState (c : Core) (outbox : Table Projection) (mutationId : String) :
    Except DaoError Core :=
  match c.mutations.lookup mutationId with
  | none => .ok c
  | some m =>
    if m.state.fenced || (c.pipelineState m.pipelineRunId).any PipelineState.fenced then .ok c
    else if milestones outbox mutationId = [] then .ok c
    else do
      let (c, reentered) ← reenterLifecycle c m
      if ¬ reentered then pure c
      else do
        let index := if m.state = .retryPending then -1 else m.state.lifecycleOrder
        let (c, finished) ← climbMilestones mutationId c index (milestones outbox mutationId)
        if ¬ finished then pure c
        else do
          let (runs, _) ← recomputePipelineState c.mutations c.runs m.pipelineRunId
          pure { c with runs }

/-! ## Completing and failing a lane -/

/-- The outcome a projector reports: the lane was applied, or skipped because it is disabled. -/
inductive Outcome
  | applied | skipped
  deriving DecidableEq

/-- What the first transaction of `complete_projection_outbox` decided: there is no such row, the
claim is lost or fenced and the receipts read are to be compensated, or the lane is complete. -/
inductive Completion
  | unknown
  | lost (agentId : String) (receipts : List Artifact)
  | completed

/-- The caller does not hold the row's current claim. -/
def Projection.notHeldBy (p : Projection) (workerId claimToken : String) : Bool :=
  p.state ≠ .inFlight || p.claimedBy ≠ some workerId || p.claimToken ≠ some claimToken

/-- `SELECT … FROM memory_artifacts WHERE mutation_id = ?`. -/
def receiptsOf (receipts : Table Receipt) (mutationId : String) : List Artifact :=
  (receipts.select fun r => r.mutationId = mutationId).map (·.artifact)

/-- A skip is only accepted for a lane that the configuration disables. -/
def Env.maySkip (env : Env) : Lane → Bool
  | .sql => false
  | .vector => !env.embeddingEnabled
  | .graph => !env.graphEnabled

/-- The state of a lane that its projector finished. -/
def Outcome.laneState : Outcome → LaneState
  | .applied => .completed
  | .skipped => .skipped

/-- Settle the lane `key` that is held under a claim token. -/
def settleLane (outbox : Table Projection) (key : ProjectionKey) (claimToken : String) (state : LaneState)
    (lease : Option Nat) : Table Projection :=
  outbox.update (fun q => q.key = key && q.claimToken = some claimToken) fun q =>
    { (q.released state) with leaseExpiresAt := lease }

/-- Cancel a lane that is in flight for a fenced mutation. -/
def cancelFenced (outbox : Table Projection) (p : Projection) (fenced : Bool) : Table Projection :=
  if fenced && p.state = .inFlight then outbox.update (fun q => q.key = p.key) (·.released .cancelled) else outbox

/-- The first transaction of `complete_projection_outbox`. -/
def completeProjectionOutbox (env : Env) (db : Db) (key : ProjectionKey) (workerId claimToken : String)
    (outcome : Outcome) : Except DaoError (Db × Completion) :=
  match db.outbox.lookup key, db.core.mutations.lookup key.mutationId with
  | some p, some m =>
    if p.notHeldBy workerId claimToken || db.core.isFenced m then
      .ok ({ db with outbox := cancelFenced db.outbox p (db.core.isFenced m) },
        .lost m.agentId (receiptsOf db.own.receipts key.mutationId))
    else if outcome = .skipped ∧ ¬ env.maySkip key.projectionName then
      .error (.valueError "only a disabled VECTOR or GRAPH lane may be skipped")
    else do
      let outbox := settleLane db.outbox key claimToken outcome.laneState none
      let core ← advanceMutationProjectionState db.core outbox key.mutationId
      pure ({ db with core, outbox }, .completed)
  | _, _ => .ok (db, .unknown)

/-- `_retry_delay_seconds`. -/
def retryDelaySeconds (attemptCount : Nat) : Nat := min (60 * 2 ^ (attemptCount - 1)) 900

/-- `fail_projection_outbox`: fence a failed lane and move it to retry or to the dead letters. -/
def failProjectionOutbox (db : Db) (key : ProjectionKey) (workerId claimToken : String) (retryable : Bool) :
    Except DaoError Db :=
  match db.outbox.lookup key, db.core.mutations.lookup key.mutationId with
  | some p, some m =>
    if p.notHeldBy workerId claimToken then .ok db
    else do
      let terminal := !retryable || decide (p.retryLimit ≤ p.attemptCount)
      let outbox := settleLane db.outbox key claimToken (if terminal then .deadLetter else .retryPending)
        (if terminal then none else some (db.now + retryDelaySeconds p.attemptCount))
      if m.state = .committed then pure { db with outbox }
      else do
        let (core, _) ← transitionMemoryMutation db.core key.mutationId
          (if terminal then .deadLetter else .retryPending)
        let (runs, _) ← transitionPipelineRun core.runs m.pipelineRunId (if terminal then .dlq else .retryPending)
        pure { db with core := { core with runs }, outbox }
  | _, _ => .ok db

/-! ## Lanes moved from outside the projector -/

/-- `requeue_skipped_vector_projections`: backfill a lane that was disabled. -/
def requeueSkippedProjections (db : Db) (lane : Lane) : Except DaoError Db :=
  if lane = .sql then .error (.valueError "only VECTOR and GRAPH lanes can be backfilled")
  else
    let outbox := db.outbox.update (fun p => p.key.projectionName = lane && p.state = .skipped) fun p =>
      { (p.released .pending) with attemptCount := 0 }
    .ok { db with outbox }

/-- `recover_in_flight_projection_and_dispatch`: release abandoned claims. -/
def recoverInFlight (db : Db) : Db :=
  { db with
    outbox := db.outbox.update (·.state = .inFlight) (·.released .retryPending)
    queue := { db.queue with
      dispatch := db.queue.dispatch.update (·.state = .inFlight) fun q =>
        { q with state := .retryPending, claimToken := none, claimedBy := none, leaseExpiresAt := none } } }

/-- The last statement of `mark_assertion_vector_representation` for a generation whose manifest
disables the graph: its completed GRAPH lanes become skipped. -/
def publishWithoutGraph (db : Db) : Db :=
  let outbox := db.outbox.update (fun p => p.key.projectionName = .graph && p.state = .completed) fun p =>
    { p with state := .skipped }
  { db with outbox }

/-! ## Mutation states set from outside -/

/-- The states `set_mutation_state` accepts. -/
def settableStates : List MutationState :=
  [.received, .extracted, .validated, .sqlApplied, .vectorApplied, .graphApplied, .committed, .rejected,
    .retryPending, .deadLetter, .rollingBack, .rolledBack, .blocked]

/-- What `set_mutation_state` does to the lanes of a validated or rejected mutation. -/
def settleLanes (outbox : Table Projection) (mutationId : String) : MutationState → Table Projection
  | .validated => outbox.update (fun p => p.key.mutationId = mutationId && p.state = .blockedValidation)
      fun p => { p with state := .pending }
  | .rejected => outbox.update
      (fun p => p.key.mutationId = mutationId && p.state ∈ [LaneState.blockedValidation, .pending, .retryPending])
      (·.released .cancelled)
  | _ => outbox

/-- `set_mutation_state`. -/
def setMutationState (db : Db) (agentId mutationId : String) (state : MutationState) :
    Except DaoError (Db × Bool) :=
  if state ∉ settableStates then .error (.valueError "invalid v4 mutation state")
  else match (db.core.mutations.lookup mutationId).filter fun m => m.agentId = agentId with
  | none => .ok (db, false)
  | some m => do
    let (core, changed) ← transitionMemoryMutation db.core mutationId state
    if ¬ changed then pure ({ db with core }, false)
    else do
      let (runs, _) ← recomputePipelineState core.mutations core.runs m.pipelineRunId
      pure ({ db with core := { core with runs }, outbox := settleLanes db.outbox mutationId state }, true)

/-- A fact that `record_mutation_extraction` keeps: a head, a relation and exactly one object. -/
def Triplet.wellFormed (t : Triplet) : Bool :=
  t.head ≠ "" && t.relation ≠ "" && (t.tail.isSome != t.literalValue.isSome)

/-- `record_mutation_extraction`: persist the validated extraction that the projectors replay. -/
def recordMutationExtraction (c : Core) (agentId mutationId : String) (triplets : List Triplet) :
    Except DaoError (Core × Bool) :=
  let updatable := fun m : Mutation => m.mutationId = mutationId && m.agentId = agentId &&
    m.state ∈ [MutationState.received, .extracted, .retryPending]
  if c.mutations.anyWhere updatable then
    transitionMemoryMutation
      { c with mutations := c.mutations.update updatable fun m =>
          { m with projectionTriplets := triplets.filter Triplet.wellFormed } }
      mutationId .extracted
  else .ok (c, false)

end Mesa.Ledger
