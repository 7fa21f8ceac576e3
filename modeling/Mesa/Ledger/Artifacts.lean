/-
Artifact ownership: receipts of projected artifacts, the registry with its source rows, and the
cleanup outbox that deletes artifacts nobody owns.
-/
import Mesa.Ledger.Transition

namespace Mesa.Ledger

open Mesa.Foundation

/-! ## Registration -/

/-- SQL artifacts are shared by a tenant; the others belong to the agent that projected them. -/
def registryKey (tenantId agentId : String) (a : Artifact) : RegistryKey :=
  ⟨tenantId, if a.storeName = .sql then "__tenant__" else agentId, a⟩

/-- The source row a mutation registers for an artifact. -/
def sourceRow (m : Mutation) (a : Artifact) : SourceRow where
  key := ⟨registryKey m.tenantId m.agentId a, m.mutationId, m.chunkId⟩
  pipelineRunId := m.pipelineRunId
  datasetId := m.datasetId
  documentId := m.documentId
  state := .active

/-- The three rows of a registration: the receipt, the registry row and the ownership. A row that
is already there keeps its state. -/
def Ownership.register (o : Ownership) (m : Mutation) (a : Artifact) : Ownership :=
  { o with
    receipts := o.receipts.insertOrIgnore ⟨m.mutationId, a⟩
    registry := o.registry.insertOrIgnore ⟨registryKey m.tenantId m.agentId a, .active⟩
    sources := o.sources.insertOrIgnore (sourceRow m a) }

/-- `record_mutation_artifact`: the post-write receipt fence of every projector. -/
def recordMutationArtifact (db : Db) (mutationId : String) (a : Artifact) : Except DaoError Db :=
  if mutationId = "" ∨ a.artifactId = "" then .error (.valueError "artifact identity fields are required")
  else match db.core.mutations.lookup mutationId with
  | none => .error (.valueError "unknown mutation artifact owner")
  | some m =>
    if m.state.fenced || (db.core.pipelineState m.pipelineRunId).any PipelineState.fenced then
      .error (.valueError s!"cannot register artifact for mutation in state {m.state.text}")
    else if db.core.documentStatus m.documentId = some .purged then
      .error (.valueError s!"cannot register artifact for purged document {m.documentId}")
    else .ok { db with own := db.own.register m a }

/-! ## Compensation of artifacts nobody registered -/

/-- A cleanup that was never claimed. -/
def pendingCleanup (pipelineRunId : String) (registry : RegistryKey) : CleanupRow where
  key := ⟨pipelineRunId, registry⟩
  state := .pending
  attemptCount := 0
  retryLimit := 5
  claimToken := none
  claimedBy := none
  leaseExpiresAt := none

/-- Tombstone one artifact, registered or not, and queue its cleanup for a run. -/
def Ownership.tombstone (o : Ownership) (pipelineRunId : String) (key : RegistryKey) : Ownership :=
  { o with
    registry := (o.registry.insertOrIgnore ⟨key, .tombstoned⟩).update (fun r => r.key = key) fun r =>
      { r with state := .tombstoned }
    cleanup := o.cleanup.insertOrIgnore (pendingCleanup pipelineRunId key) }

/-- `_enqueue_unowned_projection_cleanup`: durably retain a failed compensation, reopening a
finished rollback for it. -/
def enqueueUnownedProjectionCleanup (db : Db) (mutationId : String) (artifacts : List Artifact) :
    Except DaoError Db :=
  match db.core.mutations.lookup mutationId with
  | none => .error (.runtimeError "unowned projection cleanup lacks pipeline scope")
  | some m =>
    let runs := db.core.runs.update
      (fun r => r.pipelineRunId = m.pipelineRunId && r.state ∈ [PipelineState.rolledBack, .rollingBack])
      fun r => { r with state := .rollingBack }
    let mutations := db.core.mutations.update
      (fun x => x.mutationId = mutationId && x.state ∈ [MutationState.rolledBack, .rollingBack])
      fun x => { x with state := .rollingBack }
    let own := artifacts.foldl (fun o a => o.tombstone m.pipelineRunId (registryKey m.tenantId m.agentId a)) db.own
    .ok { db with core := { db.core with runs, mutations }, own }

/-- No cleanup of the run is outstanding. -/
def cleanupDrained (o : Ownership) (pipelineRunId : String) : Bool :=
  !o.cleanup.anyWhere fun x => x.key.pipelineRunId = pipelineRunId && x.state ≠ .completed

/-- Both transitions to ROLLED_BACK: of the run and of all its mutations. -/
def closeRollback (c : Core) (pipelineRunId : String) : Except DaoError Core := do
  let (runs, _) ← transitionPipelineRun c.runs pipelineRunId .rolledBack
  transitionPipelineMutations { c with runs } pipelineRunId .rolledBack

/-- `_finalize_terminal_projection_compensation`: finish a rollback whose cleanup has drained. -/
def finalizeTerminalProjectionCompensation (db : Db) (mutationId : String) : Except DaoError Db :=
  match db.core.mutations.lookup mutationId with
  | none => .ok db
  | some m =>
    if cleanupDrained db.own m.pipelineRunId then do
      let core ← closeRollback db.core m.pipelineRunId
      pure { db with core }
    else .ok db

/-! ## The cleanup outbox -/

def CleanupRow.claimable (now : Nat) (x : CleanupRow) : Bool :=
  x.state ∈ [CleanupState.pending, .retryPending] || (x.state = .inFlight && x.leaseExpiresAt.any (· ≤ now))

/-- What a cleanup worker is handed: the claim, the artifact and the agent of the run. -/
structure CleanupClaim where
  key : CleanupKey
  agentId : String

/-- The claimable cleanups: assertions first, then entity vectors, then the rest. -/
def cleanupCandidates (db : Db) : List CleanupRow :=
  [[ArtifactKind.assertion], [.entityVector], [.entity, .assertionVector]].flatMap fun kinds =>
    db.own.cleanup.select fun x => x.key.registry.artifact.artifactKind ∈ kinds && x.claimable db.now &&
      db.own.registry.hasKey x.key.registry

/-- `claim_artifact_cleanup`. -/
def claimArtifactCleanup (db : Db) (workerId claimToken : String) (limit leaseSeconds : Nat) :
    Except DaoError (Db × List CleanupClaim) :=
  if workerId = "" ∨ ¬ (1 ≤ limit ∧ limit ≤ 100) then .error (.valueError "invalid cleanup claim")
  else
    let identifiers := ((cleanupCandidates db).take limit).map (·.key)
    let cleanup := db.own.cleanup.update (fun x => x.key ∈ identifiers && x.claimable db.now) fun x =>
      { x with
        state := .inFlight
        claimToken := some claimToken
        claimedBy := some workerId
        leaseExpiresAt := some (db.now + leaseSeconds)
        attemptCount := x.attemptCount + 1 }
    let claims := identifiers.filterMap fun key =>
      (db.core.runs.lookup key.pipelineRunId).map fun run => ⟨key, run.agentId⟩
    .ok ({ db with own := { db.own with cleanup } }, claims)

/-- The safety check of `apply_artifact_cleanup` on a VECTOR or GRAPH artifact: the canonical row
of the artifact is still live, so the artifact is left alone. -/
def cleanupSkipped (db : Db) (a : Artifact) : Bool :=
  let liveAssertion := (db.core.assertions.lookup a.artifactId).any (·.status ≠ .retracted)
  let liveEntity := (db.idents.entities.lookup a.artifactId).any (·.status ≠ .retracted)
  match a.storeName, a.artifactKind with
  | .vector, _ => liveAssertion || liveEntity
  | .graph, .assertion => liveAssertion
  | .graph, .entity => liveEntity && db.core.assertions.anyWhere fun x =>
      x.subjectId = a.artifactId || x.objectEntityId = some a.artifactId
  | _, _ => false

/-- The SQL transaction of `apply_artifact_cleanup`. -/
def applySqlCleanup (db : Db) (a : Artifact) : Db :=
  match a.storeName, a.artifactKind with
  | .sql, .assertion =>
    let links := db.core.links.delete fun l =>
      l.sourceAssertionId = a.artifactId || l.targetAssertionId = a.artifactId
    let assertions := db.core.assertions.delete fun x => x.assertionId = a.artifactId
    { db with core := { db.core with links, assertions } }
  | .sql, .entity =>
    let referenced := db.core.assertions.anyWhere fun x =>
      x.subjectId = a.artifactId || x.objectEntityId = some a.artifactId
    { db with idents := {
        aliases := db.idents.aliases.delete fun x => x.entityId = a.artifactId
        externalIds := db.idents.externalIds.delete fun x => x.entityId = a.artifactId
        entities := db.idents.entities.delete fun e => e.entityId = a.artifactId && !referenced } }
  | _, _ => db

/-- The caller does not hold the cleanup's current claim. -/
def CleanupRow.notHeldBy (x : CleanupRow) (workerId claimToken : String) : Bool :=
  x.state ≠ .inFlight || x.claimedBy ≠ some workerId || x.claimToken ≠ some claimToken

/-- Settle the cleanup `key` that is held under a claim token. -/
def settleCleanup (cleanup : Table CleanupRow) (key : CleanupKey) (claimToken : String) (state : CleanupState) :
    Table CleanupRow :=
  cleanup.update (fun x => x.key = key && x.claimToken = some claimToken) fun x =>
    { x with state := state, claimToken := none, claimedBy := none, leaseExpiresAt := none }

def markDeleted (registry : Table RegistryRow) (key : RegistryKey) : Table RegistryRow :=
  registry.update (fun r => r.key = key) fun r => { r with state := .deleted }

/-- A failed cleanup that has no attempt left. -/
def CleanupRow.exhausted (x : CleanupRow) (failed : Bool) : Bool := failed && decide (x.retryLimit ≤ x.attemptCount)

def CleanupRow.settledState (x : CleanupRow) (failed : Bool) : CleanupState :=
  if x.exhausted failed then .blocked else if failed then .retryPending else .completed

/-- The ownership tables after the end of a cleanup: a success deletes the artifact for good. -/
def Ownership.settle (o : Ownership) (x : CleanupRow) (claimToken : String) (failed : Bool) : Ownership :=
  { o with
    cleanup := settleCleanup o.cleanup x.key claimToken (x.settledState failed)
    registry := if failed then o.registry else markDeleted o.registry x.key.registry }

/-- `finish_artifact_cleanup`: fence the end of a cleanup. A success may finish the rollback, a
terminal failure blocks the run. -/
def finishArtifactCleanup (db : Db) (key : CleanupKey) (workerId claimToken : String) (failed : Bool) :
    Except DaoError Db :=
  match db.own.cleanup.lookup key with
  | none => .ok db
  | some row =>
    if row.notHeldBy workerId claimToken then .ok db
    else if row.exhausted failed then do
      let (runs, _) ← transitionPipelineRun db.core.runs key.pipelineRunId .blocked
      let core ← transitionPipelineMutations { db.core with runs } key.pipelineRunId .blocked
      pure { db with core, own := db.own.settle row claimToken failed }
    else if ¬ failed ∧ cleanupDrained (db.own.settle row claimToken failed) key.pipelineRunId then do
      let core ← closeRollback db.core key.pipelineRunId
      pure { db with core, own := db.own.settle row claimToken failed }
    else .ok { db with own := db.own.settle row claimToken failed }

end Mesa.Ledger
