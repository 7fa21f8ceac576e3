/-
Operations on a whole pipeline run or document: rollback with the undoing of supersession,
operator replay, parity repair, and the purge of a document or of an agent's memory.
-/
import Mesa.Ledger.Artifacts
import Mesa.Ledger.Outbox

namespace Mesa.Ledger

open Mesa.Foundation

/-! ## Undoing supersession -/

/-- The targets of SUPERSEDES links whose source assertion belongs to a mutation of the run. -/
def factLevelTargets (c : Core) (pipelineRunId : String) : List String :=
  ((c.links.select fun l => (c.assertions.lookup l.sourceAssertionId).any fun source =>
    (c.mutations.lookup source.mutationId).any fun m => m.pipelineRunId = pipelineRunId).map
      (·.targetAssertionId)).eraseDups

/-- A committed mutation of another run still supersedes the assertion by a link. -/
def stillSuperseded (c : Core) (pipelineRunId targetId : String) : Bool :=
  c.links.anyWhere fun l => l.targetAssertionId = targetId &&
    (c.assertions.lookup l.sourceAssertionId).any fun source =>
      (c.mutations.lookup source.mutationId).any fun m => m.pipelineRunId ≠ pipelineRunId && m.state = .committed

/-- Fact-level undo: reactivate each target nobody else supersedes. -/
def restoreFactTargets (c : Core) (pipelineRunId : String) : Table Assertion :=
  let targets := (factLevelTargets c pipelineRunId).filter fun t => !stillSuperseded c pipelineRunId t
  c.assertions.update (fun a => a.assertionId ∈ targets && a.status = .superseded) fun a =>
    { a with status := .active, validTo := "" }

/-- `valid_to = CASE WHEN v != '' AND valid_to = v THEN '' ELSE valid_to END`. -/
def reopenValidity (validFrom validTo : String) : String :=
  if validFrom ≠ "" ∧ validTo = validFrom then "" else validTo

/-- Revision-level undo for one revision of the run: it is rolled back, and its predecessor and the
predecessor's assertions become active again. -/
def restoreRevision (pipelineRunId : String) (c : Core) (tenantId revisionId validFrom : String) :
    Except DaoError Core :=
  let rev := c.revisions.lookup revisionId
  if revisionId = "" ∨ (rev.bind fun r => c.documentStatus r.documentId) = some .purged then .ok c
  else if c.mutations.anyWhere fun m =>
      m.revisionId = revisionId && m.pipelineRunId ≠ pipelineRunId && m.state = .committed then .ok c
  else
    let rolledBack := c.revisions.update
      (fun r => r.revisionId = revisionId && r.status ∈ [RevisionStatus.active, .pending])
      fun r => { r with status := .rolledBack }
    match rev.bind fun r => r.supersedesRevisionId.map fun p => (p, r.documentId) with
    | none => .ok { c with revisions := rolledBack }
    | some (predecessorId, documentId) => do
      let revisions ← activateRevisions rolledBack fun r =>
        r.revisionId = predecessorId && r.documentId = documentId && r.status = .superseded
      let assertions := c.assertions.update
        (fun a => a.tenantId = tenantId && a.revisionId = predecessorId && a.status = .superseded) fun a =>
          { a with status := .active, validTo := reopenValidity validFrom a.validTo }
      pure { c with revisions, assertions }

/-- `_restore_pipeline_supersession_in_tx`: undo revision activation when its run is rolled back. -/
def restorePipelineSupersession (c : Core) (pipelineRunId : String) : Except DaoError Core :=
  let rows := ((c.children pipelineRunId).map fun m => (m.tenantId, m.revisionId, m.metadataValidFrom)).eraseDups
  foldOk (fun c row => restoreRevision pipelineRunId c row.1 row.2.1 row.2.2)
    { c with assertions := restoreFactTargets c pipelineRunId } rows

/-! ## Rollback -/

/-- The head of a document. -/
def activeHead (c : Core) (documentId : String) : Option Revision :=
  (c.revisions.select fun r => r.documentId = documentId ∧ r.status = .active).head?

/-- A revision of the run that is, or was, a head, but is not its document's head now. -/
def nonHeadRevision (c : Core) (pipelineRunId : String) : Option Revision :=
  ((c.children pipelineRunId).filterMap fun m => c.revisions.lookup m.revisionId).find? fun r =>
    r.documentId ≠ "" && r.revisionId ≠ "" && (r.status = .superseded ||
      (r.status = .active && (activeHead c r.documentId).any fun head => head.revisionId ≠ r.revisionId))

/-- The registry rows the run owned and nobody owns any more. -/
def unownedArtifacts (o : Ownership) (pipelineRunId : String) : List RegistryKey :=
  (o.registry.select fun r =>
    (o.sources.anyWhere fun s => s.key.registry = r.key && s.pipelineRunId = pipelineRunId) &&
      !o.sources.anyWhere fun s => s.key.registry = r.key && s.state = .active).map (·.key)

/-- Release the run's ownership. -/
def releaseSources (o : Ownership) (pipelineRunId : String) : Ownership :=
  { o with sources := o.sources.update (fun s => s.pipelineRunId = pipelineRunId && s.state = .active) fun s =>
      { s with state := .released } }

/-- Tombstone the unowned artifacts and queue their cleanup. -/
def tombstoneUnowned (o : Ownership) (pipelineRunId : String) (keys : List RegistryKey) : Ownership :=
  { o with
    registry := o.registry.update (fun r => r.key ∈ keys) fun r => { r with state := .tombstoned }
    cleanup := keys.foldl (fun t key => t.insertOrIgnore (pendingCleanup pipelineRunId key)) o.cleanup }

/-- Retract the canonical rows of the unowned SQL artifacts. -/
def retractAssertions (assertions : Table Assertion) (keys : List RegistryKey) : Table Assertion :=
  assertions.update (fun a => keys.any fun k => k.artifact = ⟨.sql, .assertion, a.assertionId⟩) fun a =>
    { a with status := .retracted }

def retractEntities (entities : Table Entity) (keys : List RegistryKey) : Table Entity :=
  entities.update (fun e => keys.any fun k => k.artifact = ⟨.sql, .entity, e.entityId⟩) fun e =>
    { e with status := .retracted }

/-- Cancel every lane of the selected mutations. -/
def cancelLanes (outbox : Table Projection) (mutationIds : List String) : Table Projection :=
  outbox.update (fun p => p.key.mutationId ∈ mutationIds) (·.released .cancelled)

/-- The ids of the mutations of a run. -/
def childIds (c : Core) (pipelineRunId : String) : List String := (c.children pipelineRunId).map (·.mutationId)

/-- With nothing to clean up and no lane in flight, the rollback is over at once. -/
def closeIfIdle (c : Core) (pipelineRunId : String) (idle : Bool) : Except DaoError Core :=
  if idle then closeRollback c pipelineRunId else .ok c

/-- `request_pipeline_rollback`: release only this run's ownership and queue zero-owner cleanup. -/
def requestPipelineRollback (db : Db) (pipelineRunId : String) : Except DaoError Db :=
  match db.core.runs.lookup pipelineRunId with
  | none => .error (.valueError "unknown pipeline run")
  | some run =>
    if run.state = .rolledBack then .ok db
    else match nonHeadRevision db.core pipelineRunId with
    | some r =>
      let current := ((activeHead db.core r.documentId).map (·.revisionId)).getD "missing"
      .error (.nonHeadRollbackConflict (s!"409 NON_HEAD_ROLLBACK_CONFLICT: revision {r.revisionId} is not " ++
        s!"current active head {current} for document {r.documentId}"))
    | none => do
      let inFlight := db.outbox.anyWhere fun p =>
        p.state = .inFlight && p.key.mutationId ∈ childIds db.core pipelineRunId
      let (runs, transitioned) ← transitionPipelineRun db.core.runs pipelineRunId .rollingBack
      if ¬ transitioned then throw (.valueError s!"pipeline cannot rollback from {run.state.text}")
      else do
        let released := releaseSources db.own pipelineRunId
        let cleanup := unownedArtifacts released pipelineRunId
        let assertions := retractAssertions db.core.assertions cleanup
        let core ← transitionPipelineMutations { db.core with runs, assertions } pipelineRunId .rollingBack
        let core ← restorePipelineSupersession core pipelineRunId
        let core ← closeIfIdle core pipelineRunId (decide (cleanup = []) && !inFlight)
        pure { db with
          core
          own := tombstoneUnowned released pipelineRunId cleanup
          idents := { db.idents with entities := retractEntities db.idents.entities cleanup }
          outbox := cancelLanes db.outbox (childIds db.core pipelineRunId) }

/-! ## Replay -/

/-- Hand the dead dispatch records of the run's retried mutations back to the queue. -/
def requeueDispatches (c : Core) (q : Queue) (pipelineRunId : String) : Queue :=
  let linked := fun (d : DispatchRecord) => d.state = .deadLetter && c.mutations.anyWhere fun m =>
    m.pipelineRunId = pipelineRunId && m.state = .retryPending && m.rawLogId = some d.key.payloadReference &&
      m.agentId = d.key.agentId && m.tenantId = d.tenantId
  let keys := (q.dispatch.select linked).map (·.key)
  { dispatch := q.dispatch.update linked fun d =>
      { d with state := .retryPending, attemptCount := 0, claimToken := none, claimedBy := none, leaseExpiresAt := none }
    rawLogs := q.rawLogs.update (fun r => ⟨r.agentId, r.id⟩ ∈ keys) fun r => { r with status := .deferred } }

/-- The blocked cleanups of the run go back to the cleanup worker. -/
def requeueCleanups (cleanup : Table CleanupRow) (pipelineRunId : String) : Table CleanupRow :=
  cleanup.update (fun x => x.key.pipelineRunId = pipelineRunId && x.state = .blocked) fun x =>
    { x with state := .retryPending, claimToken := none, claimedBy := none, leaseExpiresAt := none }

/-- `replay_pipeline_run`: operator replay for a fenced DLQ/BLOCKED projection or cleanup. -/
def replayPipelineRun (db : Db) (pipelineRunId : String) (targetMutationId : Option String) : Except DaoError Db :=
  match db.core.runs.lookup pipelineRunId with
  | none => .error (.valueError "unknown pipeline run")
  | some run =>
    let children := db.core.children pipelineRunId
    let target := children.filter fun m => targetMutationId.all fun t => m.mutationId = t
    if run.state ∉ [.dlq, .blocked] then .error (.valueError "pipeline run is not replayable")
    else if targetMutationId.isSome ∧ target = [] then
      .error (.valueError "target mutation does not belong to pipeline run")
    else if target.any (·.state = .rejected) then
      .error (.nonReplayableMutationConflict "semantic rejection is terminal and non-replayable")
    else do
      let cleanupReplay := db.own.cleanup.anyWhere fun x =>
        x.key.pipelineRunId = pipelineRunId && x.state = .blocked
      let (runs, transitioned) ← transitionPipelineRun db.core.runs pipelineRunId
        (if cleanupReplay then .rollingBack else .retryPending)
      if ¬ transitioned then throw (.runtimeError "pipeline replay fence lost")
      else do
        let outbox := db.outbox.update
          (fun p => p.key.mutationId ∈ childIds db.core pipelineRunId && p.state = .deadLetter)
          (·.released .retryPending)
        let core ← transitionPipelineMutations { db.core with runs } pipelineRunId
          (if cleanupReplay then .rollingBack else .retryPending)
        pure { db with
          core
          outbox
          own := { db.own with cleanup := requeueCleanups db.own.cleanup pipelineRunId }
          queue := if cleanupReplay then db.queue else requeueDispatches core db.queue pipelineRunId }

/-! ## Parity repair -/

/-- A lane of the mutation that a repair retries: it is complete and an artifact of it is missing. -/
def repairedLane (mutationId : String) (lanes : List Lane) (p : Projection) : Bool :=
  p.key.mutationId = mutationId && p.key.projectionName ∈ lanes && p.state = .completed

/-- The repair of one mutation by `reconcile_v4_projection_parity`: its completed lanes among those
with a missing artifact are retried, and the mutation and its run with them. -/
def repairMutation (db : Db) (mutationId : String) (lanes : List Lane) : Except DaoError Db :=
  match db.core.mutations.lookup mutationId with
  | none => .ok db
  | some m =>
    if m.state ≠ .committed ∨ db.core.pipelineState m.pipelineRunId ≠ some .committed ∨
        db.core.documentStatus m.documentId = some .purged then .ok db
    else if ¬ db.outbox.anyWhere (repairedLane mutationId lanes) then .ok db
    else do
      let outbox := db.outbox.update (repairedLane mutationId lanes) (·.released .retryPending)
      let (core, mutationChanged) ← transitionMemoryMutation db.core mutationId .retryPending
      let (runs, pipelineChanged) ← transitionPipelineRun core.runs m.pipelineRunId .retryPending
      if mutationChanged && pipelineChanged then pure { db with core := { core with runs }, outbox }
      else throw (.runtimeError "projection parity repair fence lost")

/-- The repair transaction of `reconcile_v4_projection_parity`, for the lanes it found a missing
artifact of. -/
def reconcileProjectionParity (db : Db) (missing : List (String × List Lane)) : Except DaoError Db :=
  foldOk (fun db x => repairMutation db x.1 x.2) db missing

/-! ## Purge -/

/-- Drop the payload and the caller's metadata of a purged admission. -/
@[reducible] def Mutation.erase (m : Mutation) : Mutation :=
  { m with contentPayload := "", evidenceSpan := "", metadataValidFrom := "", metadataValidTo := "",
           projectionTriplets := [] }

/-- Another document still owns the assertion. -/
def ownedByOtherDocument (o : Ownership) (a : Assertion) (documentId : String) : Bool :=
  o.sources.anyWhere fun s => s.key.registry.tenantId = a.tenantId &&
    s.key.registry.artifact = ⟨.sql, .assertion, a.assertionId⟩ && s.state = .active && s.documentId ≠ documentId

/-- The first transaction of `purge_v4_document`. -/
def purgeDocument (db : Db) (tenantId datasetId documentId : String) : Except DaoError Db :=
  match (db.core.documents.lookup documentId).filter fun d => d.datasetId = datasetId ∧ d.tenantId = tenantId with
  | none => .error (.valueError "document does not belong to dataset scope")
  | some _ => do
    let (core, purged) ← purgeMutations db.core fun m => m.datasetId = datasetId && m.documentId = documentId
    let mutations := core.mutations.update (fun m => m.datasetId = datasetId && m.documentId = documentId) Mutation.erase
    let documents := core.documents.update (fun d => d.documentId = documentId) fun d => { d with status := .purged }
    let revisions := core.revisions.update (fun r => r.documentId = documentId) fun r => { r with status := .purged }
    let assertions := core.assertions.update
      (fun a => a.tenantId = tenantId && a.datasetId = datasetId && a.documentId = documentId &&
        !ownedByOtherDocument db.own a documentId)
      fun a => { a with status := .retracted, predicate := "", literalValue := a.literalValue.map fun _ => "" }
    pure { db with
      core := { core with mutations, documents, revisions, assertions }
      outbox := cancelLanes db.outbox purged }

/-- The ledger part of `purge_memory`: an agent's mutations, of one session or of all. -/
def purgeMemory (db : Db) (agentId : String) (sessionId : Option String) : Except DaoError Db := do
  let (core, purged) ← purgeMutations db.core fun m => m.agentId = agentId && sessionId.all fun s => m.sessionId = s
  pure { db with core, outbox := cancelLanes db.outbox purged }

/-! ## The dispatch queue -/

def DispatchRecord.claimable (now : Nat) (q : DispatchRecord) : Bool :=
  q.state = .enqueued || (q.state = .retryPending && q.leaseExpiresAt.all (· ≤ now)) ||
    (q.state = .inFlight && q.leaseExpiresAt.any (· ≤ now))

/-- `claim_dispatch_queue`. -/
def claimDispatchQueue (db : Db) (workerId claimToken : String) (limit leaseSeconds : Nat) : Except DaoError Db :=
  if workerId = "" ∨ ¬ (1 ≤ limit ∧ limit ≤ 1000) ∨ ¬ (1 ≤ leaseSeconds ∧ leaseSeconds ≤ 3600) then
    .error (.valueError "invalid dispatch queue claim bounds")
  else
    let ids := ((db.queue.dispatch.select (·.claimable db.now)).take limit).map (·.key)
    let dispatch := db.queue.dispatch.update (fun q => q.key ∈ ids && q.claimable db.now) fun q =>
      { q with
        state := .inFlight
        claimedBy := some workerId
        claimToken := some claimToken
        leaseExpiresAt := some (db.now + leaseSeconds)
        attemptCount := q.attemptCount + 1 }
    .ok { db with queue := { db.queue with dispatch } }

/-- Dead-letter the mutations of a dispatch record that are not projecting yet. -/
def deadLetterLinked (c : Core) (q : DispatchRecord) : Except DaoError Core :=
  let linked := (c.mutations.select fun m =>
    m.rawLogId = some q.key.payloadReference && m.agentId = q.key.agentId && m.tenantId = q.tenantId &&
      m.state ∈ [MutationState.received, .extracted, .retryPending]).map (·.mutationId)
  foldOk (fun c m => do
    let (c, _) ← transitionMemoryMutation c m .deadLetter
    pure c) c linked

/-- `complete_dispatch_queue`: finalize a verified record; after five failures dead-letter it and
the mutations it was dispatched for. -/
def completeDispatchQueue (db : Db) (key : DispatchKey) (workerId claimToken : String) (sideEffectVerified : Bool) :
    Except DaoError Db :=
  match db.queue.dispatch.lookup key with
  | none => .ok db
  | some row =>
    let settle := fun (state : DispatchState) (lease : Option Nat) => db.queue.dispatch.update
      (fun q => q.key = key && q.claimToken = some claimToken) fun q =>
        { q with state := state, claimToken := none, claimedBy := none, leaseExpiresAt := lease }
    if row.state ≠ .inFlight ∨ row.claimedBy ≠ some workerId ∨ row.claimToken ≠ some claimToken then .ok db
    else if sideEffectVerified then .ok { db with queue := { db.queue with dispatch := settle .finalized none } }
    else if 5 ≤ row.attemptCount then do
      let core ← deadLetterLinked db.core row
      let rawLogs := db.queue.rawLogs.update
        (fun r => r.id = key.payloadReference && r.agentId = key.agentId && r.status ∈ [RawLogStatus.deferred, .processing])
        fun r => { r with status := .failed }
      pure { db with core, queue := { dispatch := settle .deadLetter none, rawLogs } }
    else .ok { db with queue := { db.queue with
      dispatch := settle .retryPending (some (db.now + retryDelaySeconds row.attemptCount)) } }

end Mesa.Ledger
