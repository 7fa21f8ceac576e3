/-
Admission: documents, revisions, source chunks and the mutations that carry them into the
ledger. Catalog identities are already resolved to physical ids, and dataset membership holds.
-/
import Mesa.Ledger.Transition

namespace Mesa.Ledger

open Mesa.Foundation

/-! ## Documents and revisions -/

/-- `INSERT OR IGNORE INTO documents`, under `UNIQUE(dataset_id, external_ref)`. -/
def insertDocument (documents : Table Document) (d : Document) : Table Document :=
  if documents.anyWhere fun x => x.datasetId = d.datasetId && d.externalRef.isSome && x.externalRef = d.externalRef then
    documents
  else documents.insertOrIgnore d

/-- `INSERT OR IGNORE INTO document_revisions`, under the uniqueness of the revision number and of
the content hash inside a document. -/
def insertRevision (revisions : Table Revision) (r : Revision) : Table Revision :=
  if revisions.anyWhere fun x => x.documentId = r.documentId &&
      (x.revisionNumber = r.revisionNumber || (r.contentHash.isSome && x.contentHash = r.contentHash)) then revisions
  else revisions.insertOrIgnore r

/-- `INSERT OR IGNORE INTO source_chunks`, under `UNIQUE(revision_id, ordinal)`. -/
def insertChunk (chunks : Table Chunk) (k : Chunk) : Table Chunk :=
  if chunks.anyWhere fun x => x.revisionId = k.revisionId && x.ordinal = k.ordinal then chunks
  else chunks.insertOrIgnore k

/-- `create_v4_document`. -/
def createDocument (c : Core) (tenantId datasetId documentId : String) (externalRef : Option String) :
    Except DaoError Core :=
  let documents := insertDocument c.documents ⟨documentId, tenantId, datasetId, externalRef, .active⟩
  match documents.lookup documentId with
  | none => .error (.valueError "document identity collides with another dataset")
  | some d =>
    if d.tenantId ≠ tenantId ∨ d.datasetId ≠ datasetId then
      .error (.valueError "document identity collides with another dataset")
    else if externalRef.isSome ∧ d.externalRef ∉ [none, externalRef] then
      .error (.valueError "document external_ref is immutable")
    else .ok { c with documents }

structure RevisionRequest where
  tenantId : String
  datasetId : String
  documentId : String
  revisionId : String
  revisionNumber : Nat
  contentHash : String
  supersedesRevisionId : Option String

/-- The predecessor, when one is named, is a revision of the same document. -/
def predecessorInDocument (revisions : Table Revision) (documentId : String) : Option String → Bool
  | none => true
  | some p => (revisions.lookup p).any fun r => r.documentId = documentId

/-- `create_v4_revision`: create one immutable draft revision. -/
def createRevision (c : Core) (q : RevisionRequest) : Except DaoError Core :=
  match c.documents.lookup q.documentId with
  | none => .error (.valueError "document does not belong to dataset")
  | some d =>
    if d.status = .purged ∨ d.tenantId ≠ q.tenantId ∨ d.datasetId ≠ q.datasetId then
      .error (.valueError "document does not belong to dataset")
    else if ¬ predecessorInDocument c.revisions q.documentId q.supersedesRevisionId then
      .error (.valueError "superseded revision is outside document scope")
    else
      let expected : RevisionIdentity := ⟨q.revisionId, q.tenantId, q.documentId, q.revisionNumber,
        some q.contentHash, q.supersedesRevisionId⟩
      let revisions := insertRevision c.revisions ⟨expected, .pending, "", false⟩
      if (revisions.lookup q.revisionId).map (·.toRevisionIdentity) = some expected then .ok { c with revisions }
      else .error (.valueError "revision identity is immutable and already differs")

/-! ## Source chunks -/

def chunkLe (a b : Chunk) : Prop := a.ordinal < b.ordinal ∨ (a.ordinal = b.ordinal ∧ a.chunkId ≤ b.chunkId)

instance : DecidableRel chunkLe := fun a b =>
  inferInstanceAs (Decidable (a.ordinal < b.ordinal ∨ (a.ordinal = b.ordinal ∧ a.chunkId ≤ b.chunkId)))

/-- `_update_revision_manifest`: store the hash over every chunk of a revision, freeze it when the
revision is finalized, and then reconcile its activation. -/
def updateRevisionManifest (env : Env) (c : Core) (revisionId : String) (finalizeRevision : Bool) :
    Except DaoError Core :=
  let chunks := (c.chunks.select fun k => k.revisionId = revisionId).insertionSort chunkLe
  if chunks = [] then .error (.runtimeError "revision manifest requires at least one source chunk")
  else
    let manifestHash := env.manifestHash (chunks.map fun k => (k.chunkId, k.ordinal, k.contentHash, k.sourceRef))
    let stillOpen := fun r : Revision => r.revisionId = revisionId && r.status = .pending && r.manifestFrozen = false
    let stored := { c with revisions := c.revisions.update stillOpen fun r =>
      { r with manifestHash := manifestHash, manifestFrozen := r.manifestFrozen || finalizeRevision } }
    if ¬ c.revisions.anyWhere stillOpen ∧ (c.revisions.lookup revisionId).map (·.manifestHash) ≠ some manifestHash then
      .error (.valueError "cannot change manifest of finalized revision")
    else if finalizeRevision then reconcileRevisionActivation stored revisionId
    else .ok stored

structure ChunkRequest where
  tenantId : String
  datasetId : String
  documentId : String
  revisionId : String
  chunkId : String
  contentPayload : String
  sourceRef : String
  revisionNumber : Nat
  chunkOrdinal : Nat
  externalRef : Option String
  supersedesRevisionId : Option String
  finalizeRevision : Bool

/-- The draft revision a chunk or an admission creates when it names a new one. -/
def draftRevision (revisionId tenantId documentId : String) (revisionNumber : Nat)
    (supersedesRevisionId : Option String) : Revision :=
  ⟨⟨revisionId, tenantId, documentId, revisionNumber, none, supersedesRevisionId⟩, .pending, "", false⟩

/-- Insert the chunk, or check that the one already there is the same. -/
def storeChunk (c : Core) (k : Chunk) : Except DaoError Core :=
  let chunks := insertChunk c.chunks k
  if chunks.lookup k.chunkId = some k then .ok { c with chunks }
  else .error (.valueError "source chunk identity is immutable and already differs")

/-- `create_v4_source_chunk`. -/
def createSourceChunk (env : Env) (c : Core) (q : ChunkRequest) : Except DaoError Core :=
  let documents := insertDocument c.documents ⟨q.documentId, q.tenantId, q.datasetId, q.externalRef, .active⟩
  let existing := c.revisions.lookup q.revisionId
  let revisions := insertRevision c.revisions
    (draftRevision q.revisionId q.tenantId q.documentId q.revisionNumber q.supersedesRevisionId)
  if (documents.lookup q.documentId).map (fun d => (d.tenantId, d.datasetId)) ≠ some (q.tenantId, q.datasetId) then
    .error (.valueError "document identity collides with another dataset")
  else if (revisions.lookup q.revisionId).map (fun r => (r.tenantId, r.documentId)) ≠
      some (q.tenantId, q.documentId) then
    .error (.valueError "revision identity collides with another document")
  else if existing.any fun r =>
      (r.status ∈ [RevisionStatus.active, .superseded, .purged, .rolledBack] || r.manifestFrozen) &&
        !c.chunks.hasKey q.chunkId then
    .error (.valueError ("cannot append source chunk to finalized revision in state " ++
      (existing.map fun r => r.status.text).getD ""))
  else if existing.any fun r =>
      r.revisionNumber ≠ q.revisionNumber || r.supersedesRevisionId ≠ q.supersedesRevisionId then
    .error (.valueError "revision identity is immutable and already differs")
  else if existing.isNone ∧ ¬ predecessorInDocument revisions q.documentId q.supersedesRevisionId then
    .error (.valueError "superseded revision is outside document scope")
  else do
    let c ← storeChunk { c with documents, revisions }
      ⟨q.chunkId, q.tenantId, q.datasetId, q.revisionId, q.chunkOrdinal, env.sha256 q.contentPayload, q.sourceRef⟩
    updateRevisionManifest env c q.revisionId q.finalizeRevision

/-! ## Mutations -/

/-- `memory_mutations` has unique mutation, candidate and raw-log ids. -/
def mutationConflict (mutations : Table Mutation) (m : Mutation) : Bool :=
  mutations.anyWhere fun x => x.mutationId = m.mutationId || x.candidateId = m.candidateId ||
    (m.rawLogId.isSome && x.rawLogId = m.rawLogId)

/-- The three lanes of a new mutation, blocked until validation releases them. -/
def insertLanes (outbox : Table Projection) (mutationId : String) : Table Projection :=
  [Lane.sql, .vector, .graph].foldl (fun t lane =>
    t.insertOrIgnore ⟨⟨mutationId, lane⟩, .blockedValidation, 0, 5, none, none, none⟩) outbox

/-- `record_mutation`: persist one canonical candidate, its run and its lanes; a re-delivery of the
same mutation changes nothing. -/
def recordMutation (db : Db) (m : Mutation) : Except DaoError Db :=
  let candidate := { m with state := .received }
  let runs := db.core.runs.insertOrIgnore ⟨m.pipelineRunId, m.tenantId, m.agentId, .queued⟩
  let mutations := if mutationConflict db.core.mutations candidate then db.core.mutations
    else db.core.mutations.insertOrIgnore candidate
  match mutations.lookup m.mutationId with
  | none => .error (.integrityError "FOREIGN KEY constraint failed")
  | some existing =>
    if existing.agentId ≠ m.agentId then .error (.runtimeError "mutation ledger insert did not persist")
    else if existing.candidateId ≠ m.candidateId then
      .error (.valueError "mutation_id collision with a different candidate")
    else .ok { db with
      core := { db.core with runs, mutations }
      outbox := insertLanes db.outbox m.mutationId }

structure Admission where
  tenantId : String
  datasetId : String
  agentId : String
  sessionId : String
  documentId : String
  revisionId : String
  chunkId : String
  contentPayload : String
  sourceRef : String
  evidenceSpan : String
  revisionNumber : Nat
  chunkOrdinal : Nat
  supersedesRevisionId : Option String
  metadataValidFrom : String
  metadataValidTo : String
  legalIdentity : Option (String × String)
  documentChunk : Bool
  finalizeRevision : Bool
  /-- The verdict of `_enforce_queue_capacity`. -/
  withinCapacity : Bool

/-- The id SQLite gives the next raw log. -/
def nextRawLogId (rawLogs : Table RawLog) : Nat := (rawLogs.rows.map (·.id)).foldl max 0 + 1

/-- The catalog half of `admit_v4_memory`: document, revision, chunk and manifest. -/
def admitProvenance (env : Env) (c : Core) (q : Admission) : Except DaoError Core :=
  let documents := insertDocument c.documents ⟨q.documentId, q.tenantId, q.datasetId, none, .active⟩
  let existing := c.revisions.lookup q.revisionId
  let revisions := insertRevision c.revisions
    (draftRevision q.revisionId q.tenantId q.documentId q.revisionNumber q.supersedesRevisionId)
  match documents.lookup q.documentId with
  | none => .error (.valueError "document identity collides with another dataset")
  | some d =>
    if (d.tenantId, d.datasetId) ≠ (q.tenantId, q.datasetId) then
      .error (.valueError "document identity collides with another dataset")
    else if d.status = .purged then .error (.valueError "document is purged")
    else if ¬ revisions.hasKey q.revisionId then
      .error (.valueError "revision number already used for this document")
    else if existing.any fun r =>
        r.revisionNumber ≠ q.revisionNumber || r.supersedesRevisionId ≠ q.supersedesRevisionId then
      .error (.valueError "revision identity is immutable and already differs")
    else if existing.any fun r => (r.status ≠ .pending || r.manifestFrozen) && !c.chunks.hasKey q.chunkId then
      .error (.valueError "cannot append source chunk to finalized revision")
    else if ¬ predecessorInDocument revisions q.documentId q.supersedesRevisionId then
      .error (.valueError "superseded revision is outside document scope")
    else do
      let c ← storeChunk { c with documents, revisions }
        ⟨q.chunkId, q.tenantId, q.datasetId, q.revisionId, q.chunkOrdinal, env.sha256 q.contentPayload, q.sourceRef⟩
      updateRevisionManifest env c q.revisionId q.finalizeRevision

/-- The ids `admit_v4_memory` derives from the raw log of an admission. -/
def admissionId (env : Env) (q : Admission) (rawLogId : Nat) (kind : String) : String :=
  env.uuid5 "url" s!"mesa:v4:{q.tenantId}:{q.agentId}:{rawLogId}:{kind}"

/-- `admit_v4_memory`: one transaction for the provenance, the raw log with its dispatch record,
the run, the mutation and its lanes. -/
def admitMemory (env : Env) (db : Db) (q : Admission) : Except DaoError Db := do
  let core ← admitProvenance env db.core q
  let rawLogId := nextRawLogId db.queue.rawLogs
  let m : Mutation := {
    mutationId := admissionId env q rawLogId "mutation"
    candidateId := admissionId env q rawLogId "candidate"
    rawLogId := some rawLogId
    tenantId := q.tenantId
    datasetId := q.datasetId
    documentId := q.documentId
    revisionId := q.revisionId
    chunkId := q.chunkId
    agentId := q.agentId
    sessionId := q.sessionId
    pipelineRunId := admissionId env q rawLogId "pipeline-run"
    contentPayload := q.contentPayload
    evidenceSpan := q.evidenceSpan
    metadataValidFrom := q.metadataValidFrom
    metadataValidTo := q.metadataValidTo
    legalIdentity := q.legalIdentity
    documentChunk := q.documentChunk
    projectionTriplets := []
    state := .received }
  if q.withinCapacity = false then throw .queueBackpressure
  else if core.runs.hasKey m.pipelineRunId then
    throw (.integrityError "UNIQUE constraint failed: pipeline_runs.pipeline_run_id")
  else if mutationConflict core.mutations m then
    throw (.integrityError "UNIQUE constraint failed: memory_mutations")
  else pure { db with
    core := { core with
      runs := core.runs.insertOrIgnore ⟨m.pipelineRunId, q.tenantId, q.agentId, .queued⟩
      mutations := core.mutations.insertOrIgnore m }
    outbox := insertLanes db.outbox m.mutationId
    queue := {
      rawLogs := db.queue.rawLogs.insertOrIgnore ⟨rawLogId, q.agentId, .deferred⟩
      dispatch := db.queue.dispatch.insertOrIgnore
        ⟨⟨q.agentId, rawLogId⟩, q.tenantId, .enqueued, 0, none, none, none⟩ } }

end Mesa.Ledger
