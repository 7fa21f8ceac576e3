/-
The lifecycle ledger: the SQLite tables behind the v4 write path, their rows and states.
Enumerated TEXT columns are inductive types, identifiers are strings, and a timestamp is a
number of seconds. A surrogate id that the code derives from a natural key (a registry id, a
cleanup id, a projection id, an ownership id) is that key.
-/
import Mesa.Foundation.Table

namespace Mesa.Ledger

open Mesa.Foundation

/-! ## Enumerations -/

/-- `memory_mutations.state`. -/
inductive MutationState
  | received | extracted | validated | pending | sqlApplied | vectorApplied | graphApplied | committed
  | retryPending | deadLetter | blocked | rollingBack | purging | rolledBack | purged | rejected | cancelled
  deriving DecidableEq

/-- `pipeline_runs.state`. -/
inductive PipelineState
  | queued | running | extracted | validated | projecting | retryPending | dlq | rollingBack | blocked
  | committed | rolledBack | purged | cancelled | rejected
  deriving DecidableEq

/-- The three projection lanes, also the names of the stores they write. -/
inductive Lane
  | sql | vector | graph
  deriving DecidableEq

/-- `projection_outbox.state`. -/
inductive LaneState
  | blockedValidation | pending | inFlight | completed | skipped | retryPending | deadLetter | cancelled
  deriving DecidableEq

/-- `artifact_kind` of a receipt or a registry row. -/
inductive ArtifactKind
  | entity | assertion | entityVector | assertionVector
  deriving DecidableEq

/-- `artifact_registry.state`. -/
inductive ArtifactState
  | active | tombstoned | deleted
  deriving DecidableEq

/-- `artifact_sources.state`. -/
inductive SourceState
  | active | released
  deriving DecidableEq

/-- `artifact_cleanup_outbox.state`. -/
inductive CleanupState
  | pending | inFlight | retryPending | completed | blocked
  deriving DecidableEq

/-- `document_revisions.status`. -/
inductive RevisionStatus
  | pending | active | superseded | rolledBack | purged
  deriving DecidableEq

/-- `documents.status`. -/
inductive DocumentStatus
  | active | purged
  deriving DecidableEq

/-- `v4_assertions.status`. -/
inductive AssertionStatus
  | active | superseded | retracted
  deriving DecidableEq

/-- `v4_entities.status`. -/
inductive EntityStatus
  | active | redirected | retracted
  deriving DecidableEq

/-- `dispatch_queue.state`. -/
inductive DispatchState
  | enqueued | inFlight | retryPending | deadLetter | finalized
  deriving DecidableEq

/-- `raw_logs.status`, without the reason appended to a failure. -/
inductive RawLogStatus
  | deferred | processing | processed | failed | rejected
  deriving DecidableEq

/-! ## The lifecycle core -/

structure PipelineRun where
  pipelineRunId : String
  tenantId : String
  agentId : String
  state : PipelineState

/-- One extracted fact, as `record_mutation_extraction` persists it. -/
structure Triplet where
  head : String
  relation : String
  tail : Option String
  literalValue : Option String
  objectType : Option String
  validFrom : String
  validTo : String
  evidenceSpan : String
  supersedes : String

/-- What admission fixes of a mutation for good. -/
structure MutationScope where
  mutationId : String
  candidateId : String
  rawLogId : Option Nat
  tenantId : String
  datasetId : String
  documentId : String
  revisionId : String
  chunkId : String
  agentId : String
  sessionId : String
  pipelineRunId : String
  /-- Statute code and article id of `_mesa_legal_identity`. -/
  legalIdentity : Option (String × String)
  /-- `_mesa_document_chunk` of the metadata document. -/
  documentChunk : Bool

structure Mutation extends MutationScope where
  contentPayload : String
  evidenceSpan : String
  /-- `valid_from` of the metadata document, `""` when it has none. -/
  metadataValidFrom : String
  /-- `valid_to` of the metadata document, `""` when it has none. -/
  metadataValidTo : String
  /-- `_mesa_v4_projection_triplets` of the metadata document. -/
  projectionTriplets : List Triplet
  state : MutationState

structure Document where
  documentId : String
  tenantId : String
  datasetId : String
  externalRef : Option String
  status : DocumentStatus

/-- The immutable identity of a revision. -/
structure RevisionIdentity where
  revisionId : String
  tenantId : String
  documentId : String
  revisionNumber : Nat
  contentHash : Option String
  supersedesRevisionId : Option String
  deriving DecidableEq

structure Revision extends RevisionIdentity where
  status : RevisionStatus
  manifestHash : String
  manifestFrozen : Bool

structure Chunk where
  chunkId : String
  tenantId : String
  datasetId : String
  revisionId : String
  ordinal : Nat
  contentHash : String
  sourceRef : String
  deriving DecidableEq

/-- What the projection of an assertion fixes for good. -/
structure AssertionScope where
  assertionId : String
  tenantId : String
  datasetId : String
  subjectId : String
  objectEntityId : Option String
  documentId : String
  revisionId : String
  chunkId : String
  validFrom : String
  mutationId : String
  pipelineRunId : String

structure Assertion extends AssertionScope where
  predicate : String
  literalValue : Option String
  validTo : String
  status : AssertionStatus

/-- A `SUPERSEDES` row of `v4_assertion_links`. -/
structure AssertionLink where
  sourceAssertionId : String
  targetAssertionId : String
  mutationId : String

instance : Keyed PipelineRun String := ⟨PipelineRun.pipelineRunId⟩
instance : Keyed Mutation String := ⟨fun m => m.mutationId⟩
instance : Keyed Document String := ⟨Document.documentId⟩
instance : Keyed Revision String := ⟨fun r => r.revisionId⟩
instance : Keyed Chunk String := ⟨Chunk.chunkId⟩
instance : Keyed Assertion String := ⟨fun a => a.assertionId⟩
instance : Keyed AssertionLink (String × String) := ⟨fun l => (l.sourceAssertionId, l.targetAssertionId)⟩

structure Core where
  runs : Table PipelineRun
  mutations : Table Mutation
  documents : Table Document
  revisions : Table Revision
  chunks : Table Chunk
  assertions : Table Assertion
  links : Table AssertionLink

/-! ## Artifact ownership -/

/-- What one receipt names: a store, a kind and the physical id. -/
structure Artifact where
  storeName : Lane
  artifactKind : ArtifactKind
  artifactId : String
  deriving DecidableEq

/-- A row of `memory_artifacts`. -/
structure Receipt where
  mutationId : String
  artifact : Artifact
  deriving DecidableEq

/-- The natural key of `artifact_registry`; `registry_id` is its uuid5. -/
structure RegistryKey where
  tenantId : String
  agentId : String
  artifact : Artifact
  deriving DecidableEq

structure RegistryRow where
  key : RegistryKey
  state : ArtifactState

/-- The natural key of `artifact_sources`; `source_ownership_id` is its uuid5. -/
structure SourceKey where
  registry : RegistryKey
  mutationId : String
  chunkId : String
  deriving DecidableEq

structure SourceRow where
  key : SourceKey
  pipelineRunId : String
  datasetId : String
  documentId : String
  state : SourceState

/-- The natural key of `artifact_cleanup_outbox`; `cleanup_id` is its uuid5. -/
structure CleanupKey where
  pipelineRunId : String
  registry : RegistryKey
  deriving DecidableEq

structure CleanupRow where
  key : CleanupKey
  state : CleanupState
  attemptCount : Nat
  retryLimit : Nat
  claimToken : Option String
  claimedBy : Option String
  leaseExpiresAt : Option Nat

instance : Keyed Receipt Receipt := ⟨id⟩
instance : Keyed RegistryRow RegistryKey := ⟨RegistryRow.key⟩
instance : Keyed SourceRow SourceKey := ⟨SourceRow.key⟩
instance : Keyed CleanupRow CleanupKey := ⟨CleanupRow.key⟩

structure Ownership where
  receipts : Table Receipt
  registry : Table RegistryRow
  sources : Table SourceRow
  cleanup : Table CleanupRow

/-! ## Canonical entities -/

structure Entity where
  entityId : String
  tenantId : String
  entityType : String
  canonicalName : String
  normalizedName : String
  identityKey : String
  status : EntityStatus
  redirectEntityId : Option String

structure AliasKey where
  tenantId : String
  entityType : String
  normalizedAlias : String
  deriving DecidableEq

structure Alias where
  key : AliasKey
  entityId : String

/-- The key of `entity_external_ids` rows of scheme `ontology`. -/
structure ExternalIdKey where
  tenantId : String
  entityType : String
  normalizedExternalId : String
  deriving DecidableEq

structure ExternalId where
  key : ExternalIdKey
  entityId : String

instance : Keyed Entity String := ⟨Entity.entityId⟩
instance : Keyed Alias AliasKey := ⟨Alias.key⟩
instance : Keyed ExternalId ExternalIdKey := ⟨ExternalId.key⟩

structure Identities where
  entities : Table Entity
  aliases : Table Alias
  externalIds : Table ExternalId

/-! ## Work queues -/

/-- The natural key of `projection_outbox`; `projection_id` is its uuid5. -/
structure ProjectionKey where
  mutationId : String
  projectionName : Lane
  deriving DecidableEq

structure Projection where
  key : ProjectionKey
  state : LaneState
  attemptCount : Nat
  retryLimit : Nat
  claimToken : Option String
  claimedBy : Option String
  leaseExpiresAt : Option Nat

/-- The natural key of `dispatch_queue`: its idempotency key names the agent and the raw log. -/
structure DispatchKey where
  agentId : String
  payloadReference : Nat
  deriving DecidableEq

structure DispatchRecord where
  key : DispatchKey
  tenantId : String
  state : DispatchState
  attemptCount : Nat
  claimToken : Option String
  claimedBy : Option String
  leaseExpiresAt : Option Nat

structure RawLog where
  id : Nat
  agentId : String
  status : RawLogStatus

instance : Keyed Projection ProjectionKey := ⟨Projection.key⟩
instance : Keyed DispatchRecord DispatchKey := ⟨DispatchRecord.key⟩
instance : Keyed RawLog Nat := ⟨RawLog.id⟩

structure Queue where
  dispatch : Table DispatchRecord
  rawLogs : Table RawLog

/-! ## The database -/

/-- The canonical database, with the clock that `CURRENT_TIMESTAMP` reads. -/
structure Db where
  core : Core
  own : Ownership
  idents : Identities
  outbox : Table Projection
  queue : Queue
  now : Nat

def Db.empty : Db where
  core := ⟨.empty, .empty, .empty, .empty, .empty, .empty, .empty⟩
  own := ⟨.empty, .empty, .empty, .empty⟩
  idents := ⟨.empty, .empty, .empty⟩
  outbox := .empty
  queue := ⟨.empty, .empty⟩
  now := 0

/-- The exceptions the ledger operations raise; every one aborts its transaction. -/
inductive DaoError
  | valueError (message : String)
  | runtimeError (message : String)
  | integrityError (message : String)
  | nonHeadRollbackConflict (message : String)
  | nonReplayableMutationConflict (message : String)
  | queueBackpressure
  | permanentProjection (message : String)
  deriving DecidableEq

/-! ## Configuration -/

/-- What the ledger takes from its surroundings: the hash functions and text normalisations of
the Python side, as arbitrary functions, and the two lane switches. -/
structure Env where
  /-- `uuid.uuid5` of a namespace and a name. -/
  uuid5 : String → String → String
  /-- SHA-256 of a text. -/
  sha256 : String → String
  /-- SHA-256 of the canonical JSON of a manifest: chunk id, ordinal, content hash and source of each chunk. -/
  manifestHash : List (String × Nat × String × String) → String
  /-- `str.strip`. -/
  strip : String → String
  /-- `str.upper`. -/
  upper : String → String
  /-- `_normalize_identity_text`. -/
  normalizeIdentityText : String → String
  /-- `_normalize_ontology_uri`. -/
  normalizeOntologyUri : String → String
  /-- `LegalEntityResolver.canonicalize_entity`. -/
  canonicalizeEntity : String → String
  /-- `classify_graph_object`: tail, literal and type to tail, literal and resolved type. -/
  classifyGraphObject : Option String → Option String → Option String → Option String × Option String × String
  embeddingEnabled : Bool
  graphEnabled : Bool

/-! ## Texts and fences -/

/-- The TEXT value of a mutation state, as error messages show it. -/
def MutationState.text : MutationState → String
  | .received => "RECEIVED"
  | .extracted => "EXTRACTED"
  | .validated => "VALIDATED"
  | .pending => "PENDING"
  | .sqlApplied => "SQL_APPLIED"
  | .vectorApplied => "VECTOR_APPLIED"
  | .graphApplied => "GRAPH_APPLIED"
  | .committed => "COMMITTED"
  | .retryPending => "RETRY_PENDING"
  | .deadLetter => "DEAD_LETTER"
  | .blocked => "BLOCKED"
  | .rollingBack => "ROLLING_BACK"
  | .purging => "PURGING"
  | .rolledBack => "ROLLED_BACK"
  | .purged => "PURGED"
  | .rejected => "REJECTED"
  | .cancelled => "CANCELLED"

/-- The TEXT value of a pipeline state, as error messages show it. -/
def PipelineState.text : PipelineState → String
  | .queued => "QUEUED"
  | .running => "RUNNING"
  | .extracted => "EXTRACTED"
  | .validated => "VALIDATED"
  | .projecting => "PROJECTING"
  | .retryPending => "RETRY_PENDING"
  | .dlq => "DLQ"
  | .rollingBack => "ROLLING_BACK"
  | .blocked => "BLOCKED"
  | .committed => "COMMITTED"
  | .rolledBack => "ROLLED_BACK"
  | .purged => "PURGED"
  | .cancelled => "CANCELLED"
  | .rejected => "REJECTED"

/-- The TEXT value of a revision status, as error messages show it. -/
def RevisionStatus.text : RevisionStatus → String
  | .pending => "PENDING"
  | .active => "ACTIVE"
  | .superseded => "SUPERSEDED"
  | .rolledBack => "ROLLED_BACK"
  | .purged => "PURGED"

/-- A mutation in one of these states may no longer be projected. -/
def MutationState.fenced : MutationState → Bool
  | .rollingBack | .rolledBack | .purging | .purged | .cancelled | .rejected => true
  | _ => false

/-- A run in one of these states fences all its mutations. -/
def PipelineState.fenced : PipelineState → Bool
  | .rollingBack | .rolledBack | .purged | .cancelled | .rejected => true
  | _ => false

namespace Core

def pipelineState (c : Core) (pipelineRunId : String) : Option PipelineState :=
  (c.runs.lookup pipelineRunId).map (·.state)

def mutationState (c : Core) (mutationId : String) : Option MutationState :=
  (c.mutations.lookup mutationId).map (·.state)

def documentStatus (c : Core) (documentId : String) : Option DocumentStatus :=
  (c.documents.lookup documentId).map (·.status)

/-- The child mutations of a pipeline run, in insertion order. -/
def children (c : Core) (pipelineRunId : String) : List Mutation :=
  c.mutations.select fun m => m.pipelineRunId = pipelineRunId

/-- A mutation is fenced by its own state, by its run or by its purged document. -/
def isFenced (c : Core) (m : Mutation) : Bool :=
  m.state.fenced || (c.pipelineState m.pipelineRunId).any PipelineState.fenced ||
    decide (c.documentStatus m.documentId = some .purged)

end Core

namespace Db

/-- The state of one projection lane. -/
def laneState (db : Db) (mutationId : String) (lane : Lane) : Option LaneState :=
  (db.outbox.lookup ⟨mutationId, lane⟩).map (·.state)

end Db

end Mesa.Ledger
