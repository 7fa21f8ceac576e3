/-
Intake: the raw logs with their payloads and claims, the dispatch journal, queue and receipts,
the catalog identities and the idempotent v4 admission. These tables surround the ledger, whose
own operations stay as they are; the intake versions of four of them also write the new tables.
-/
import Mesa.Ledger.Footprint

namespace Mesa.Ledger

open Mesa.Foundation

/-! ## Tables -/

/-- What later statements read of `raw_logs.payload`. -/
structure RawPayload where
  tenantId : Option String
  agentId : Option String
  sessionId : Option String
  content : String
  validationMode : Option Nat
  documentId : Option String
  chunkId : Option String
  /-- `metadata.memory_type`. -/
  memoryType : Option String
  /-- `metadata.idempotency_key`. -/
  idempotencyKey : Option String
  /-- `metadata.content_sha256`. -/
  contentSha256 : Option String
  /-- The other members, as JSON text. -/
  others : String
  deriving DecidableEq

/-- The columns of `raw_logs` that the ledger leaves out: the payload and the claim. -/
structure RawLogColumns where
  rawLogId : Nat
  payload : RawPayload
  claimToken : Option String
  claimedBy : Option String
  leaseExpiresAt : Option Nat
  attemptCount : Nat

/-- `dispatch_journal.state`. -/
inductive JournalState
  | pending | claimed | receiptRecorded
  deriving DecidableEq

/-- A row of `dispatch_journal`, unique by its source record. -/
structure JournalRow where
  sourceRecordId : Nat
  tenantId : String
  agentId : String
  state : JournalState
  attemptCount : Nat
  deriving DecidableEq

/-- `dispatch_queue.payload_bytes`, the column that the ledger leaves out. -/
structure QueueCharge where
  key : DispatchKey
  payloadBytes : Nat

/-- A row of `dispatch_receipts`. -/
structure DispatchReceipt where
  key : DispatchKey
  tenantId : String

/-- A row of `dispatch_completion_receipts`, unique by its queue record. -/
structure CompletionReceipt where
  key : DispatchKey
  tenantId : String
  workerId : String
  claimToken : String
  outcome : String
  attemptCount : Nat

/-- The kinds of catalog identities. -/
inductive CatalogKind
  | workspace | dataset | document | revision | chunk
  deriving DecidableEq

structure CatalogKey where
  tenantId : String
  kind : CatalogKind
  externalId : String
  deriving DecidableEq

/-- A row of `v4_catalog_identities`. -/
structure CatalogIdentity where
  key : CatalogKey
  physicalId : String

structure Dataset where
  datasetId : String
  tenantId : String
  workspaceId : String

/-- The primary key of `v4_idempotency_receipts`; the operation is always `INSERT`. -/
structure IdempotencyScope where
  tenantId : String
  agentId : String
  datasetId : String
  idempotencyKey : String
  deriving DecidableEq

/-- The response of an admission; its status is always `accepted`. -/
structure AdmissionResponse where
  mutationId : String
  candidateId : String
  pipelineRunId : String
  rawLogId : Nat
  deriving DecidableEq

/-- A row of `v4_idempotency_receipts`: COMPLETED with a response, PENDING without. -/
structure IdempotencyReceipt where
  scope : IdempotencyScope
  payloadHash : String
  response : Option AdmissionResponse
  deriving DecidableEq

instance : Keyed RawLogColumns Nat := ⟨RawLogColumns.rawLogId⟩
instance : Keyed JournalRow Nat := ⟨JournalRow.sourceRecordId⟩
instance : Keyed QueueCharge DispatchKey := ⟨QueueCharge.key⟩
instance : Keyed DispatchReceipt DispatchKey := ⟨DispatchReceipt.key⟩
instance : Keyed CompletionReceipt DispatchKey := ⟨CompletionReceipt.key⟩
instance : Keyed CatalogIdentity CatalogKey := ⟨CatalogIdentity.key⟩
instance : Keyed Dataset String := ⟨Dataset.datasetId⟩
instance : Keyed IdempotencyReceipt IdempotencyScope := ⟨IdempotencyReceipt.scope⟩

/-- The ledger with the intake tables around it. -/
structure Intake where
  db : Db
  logs : Table RawLogColumns
  journal : Table JournalRow
  charges : Table QueueCharge
  dispatchReceipts : Table DispatchReceipt
  completions : Table CompletionReceipt
  identities : Table CatalogIdentity
  datasets : Table Dataset
  requests : Table IdempotencyReceipt

def Intake.empty : Intake := ⟨.empty, .empty, .empty, .empty, .empty, .empty, .empty, .empty, .empty⟩

/-- What the intake operations raise. An `aiosqlite.Error` inside an admission is reported as
unavailability. -/
inductive IntakeError
  | dao (e : DaoError)
  | queueRecordTooLarge
  | queueOverCapacity (scope : String)
  | queueUnavailable
  | catalogIdentityNotFound (message : String)
  deriving DecidableEq

/-- The surroundings of the intake, as arbitrary functions. -/
structure IntakeEnv extends Env where
  /-- The second component of `_canonical_payload_bytes`. -/
  canonicalPayloadBytes : RawPayload → Nat
  /-- `_validate_write_payload`: the message of the ValueError, if it raises one. -/
  validateWritePayload : RawPayload → Option String
  /-- The members that a purge retains of a payload. -/
  retained : String → String

/-- `_assert_valid_agent_id`. -/
def assertValidAgentId (agentId : String) : Except IntakeError Unit :=
  if agentId ∈ ["__unset__", "__system__", ""] then
    .error (.dao (.valueError s!"agent_id must be a non-empty, non-reserved identifier. Got: '{agentId}'"))
  else .ok ()

/-! ## Queue capacity -/

structure QueueAdmissionPolicy where
  queueMaxPendingRecords : Nat
  queueMaxPendingBytes : Nat
  queueMaxPendingRecordsPerTenant : Nat
  queueMaxPendingBytesPerTenant : Nat
  queueMaxInFlightRecords : Nat
  queueMaxInFlightRecordsPerTenant : Nat
  queueMaxRetryPendingRecords : Nat
  queueMaxRetryPendingRecordsPerTenant : Nat
  queueMaxSingleRecordBytes : Nat

/-- `_DEFAULT_QUEUE_ADMISSION_POLICY`. -/
def defaultQueueAdmissionPolicy : QueueAdmissionPolicy where
  queueMaxPendingRecords := 10000
  queueMaxPendingBytes := 536870912
  queueMaxPendingRecordsPerTenant := 2000
  queueMaxPendingBytesPerTenant := 134217728
  queueMaxInFlightRecords := 32
  queueMaxInFlightRecordsPerTenant := 8
  queueMaxRetryPendingRecords := 2000
  queueMaxRetryPendingRecordsPerTenant := 500
  queueMaxSingleRecordBytes := 8388608

/-- `_ADMISSION_ACTIVE_STATES`, as far as they are ever written. -/
def DispatchState.active (s : DispatchState) : Bool := s ∈ [.enqueued, .inFlight, .retryPending]

structure QueueUsage where
  records : Nat
  bytes : Nat
  inFlight : Nat
  retryPending : Nat
  deriving DecidableEq

/-- `payload_bytes` of a queue record. -/
def Intake.payloadBytes (s : Intake) (key : DispatchKey) : Nat := ((s.charges.lookup key).map (·.payloadBytes)).getD 0

/-- The records in an active admission state, of one tenant or of all. -/
def Intake.activeRecords (s : Intake) (tenantId : Option String) : List DispatchRecord :=
  s.db.queue.dispatch.select fun q => q.state.active && tenantId.all fun t => q.tenantId = t

/-- `_queue_usage`. -/
def Intake.queueUsage (s : Intake) (tenantId : Option String) : QueueUsage :=
  let rows := s.activeRecords tenantId
  { records := rows.length
    bytes := (rows.map fun q => s.payloadBytes q.key).sum
    inFlight := rows.countP fun q => q.state = .inFlight
    retryPending := rows.countP fun q => q.state = .retryPending }

/-- `_enforce_queue_capacity`. -/
def enforceQueueCapacity (globalUsage tenantUsage : QueueUsage) (payloadBytes : Nat) (policy : QueueAdmissionPolicy) :
    Except IntakeError Unit :=
  if policy.queueMaxSingleRecordBytes < payloadBytes then .error .queueRecordTooLarge
  else
    let checks : List (Bool × String) :=
      [(globalUsage.records + 1 > policy.queueMaxPendingRecords, "global"),
       (globalUsage.bytes + payloadBytes > policy.queueMaxPendingBytes, "global"),
       (globalUsage.inFlight ≥ policy.queueMaxInFlightRecords, "global"),
       (globalUsage.retryPending ≥ policy.queueMaxRetryPendingRecords, "global"),
       (tenantUsage.records + 1 > policy.queueMaxPendingRecordsPerTenant, "tenant"),
       (tenantUsage.bytes + payloadBytes > policy.queueMaxPendingBytesPerTenant, "tenant"),
       (tenantUsage.inFlight ≥ policy.queueMaxInFlightRecordsPerTenant, "tenant"),
       (tenantUsage.retryPending ≥ policy.queueMaxRetryPendingRecordsPerTenant, "tenant")]
    match checks.find? (·.1) with
    | some (_, scope) => .error (.queueOverCapacity scope)
    | none => .ok ()

/-- The capacity check of an admission charged to a tenant. -/
def Intake.enforce (s : Intake) (policy : QueueAdmissionPolicy) (tenantId : String) (payloadBytes : Nat) :
    Except IntakeError Unit :=
  enforceQueueCapacity (s.queueUsage none) (s.queueUsage (some tenantId)) payloadBytes policy

/-! ## Raw logs and their dispatch -/

/-- `insert_raw_log`: store the payload only, to be dispatched later. -/
def insertRawLog (s : Intake) (agentId : String) (payload : RawPayload) : Except IntakeError Intake := do
  assertValidAgentId agentId
  let rawLogId := nextRawLogId s.db.queue.rawLogs
  pure { s with
    db := { s.db with queue := { s.db.queue with
      rawLogs := s.db.queue.rawLogs.insertOrIgnore ⟨rawLogId, agentId, .deferred⟩ } }
    logs := s.logs.insertOrIgnore ⟨rawLogId, payload, none, none, none, 0⟩ }

/-- The journal row and the receipt of a dispatch, and what its queue record is charged. -/
def Intake.recordDispatch (s : Intake) (key : DispatchKey) (tenantId : String) (payloadBytes : Nat) : Intake :=
  let journal := s.journal.insertOrIgnore ⟨key.payloadReference, tenantId, key.agentId, .pending, 0⟩
  { s with
    journal := journal.update (fun j => j.sourceRecordId = key.payloadReference) fun j =>
      { j with state := .receiptRecorded, attemptCount := j.attemptCount + 1 }
    charges := s.charges.insertOrIgnore ⟨key, payloadBytes⟩
    dispatchReceipts := s.dispatchReceipts.insertOrIgnore ⟨key, tenantId⟩ }

/-- The queue record of a dispatch. -/
def Intake.enqueue (s : Intake) (key : DispatchKey) (tenantId : String) : Intake :=
  { s with db := { s.db with queue := { s.db.queue with
    dispatch := s.db.queue.dispatch.insertOrIgnore ⟨key, tenantId, .enqueued, 0, none, none, none⟩ } } }

/-- `dispatch_raw_log`: queue a stored raw log once; the record is charged to the agent. -/
def dispatchRawLog (env : IntakeEnv) (s : Intake) (agentId : String) (logId : Nat) (workerId : String)
    (policy : Option QueueAdmissionPolicy) : Except IntakeError Intake := do
  assertValidAgentId agentId
  if workerId = "" then throw (.dao (.valueError "worker_id is required"))
  else match (s.db.queue.rawLogs.lookup logId).filter (·.agentId = agentId), s.logs.lookup logId with
    | some _, some log =>
      if (s.journal.lookup logId).any fun j => j.agentId ≠ agentId then
        throw (.dao (.integrityError "UNIQUE constraint failed: dispatch_journal.source_record_id"))
      else if (s.journal.lookup logId).any fun j => j.state = .receiptRecorded then pure s
      else do
        let payloadBytes := env.canonicalPayloadBytes log.payload
        s.enforce (policy.getD defaultQueueAdmissionPolicy) agentId payloadBytes
        pure ((s.enqueue ⟨agentId, logId⟩ agentId).recordDispatch ⟨agentId, logId⟩ agentId payloadBytes)
    | _, _ => throw (.dao (.valueError "raw log is not in the requested tenant scope"))

/-- The inserts of an admission conflict with rows of the same raw log. -/
def Intake.dispatchConflict (s : Intake) (key : DispatchKey) : Bool :=
  s.journal.hasKey key.payloadReference || s.db.queue.dispatch.hasKey key || s.dispatchReceipts.hasKey key

/-- The first of two texts that is there and not empty, else the third: `a or b or c`. -/
def firstNonEmpty (a b : Option String) (c : String) : String :=
  ((a.filter (· ≠ "")).or (b.filter (· ≠ ""))).getD c

/-- The earliest raw log of the same agent, tenant, session and memory type with the same
idempotency key or content hash. -/
def duplicateRawLog (s : Intake) (agentId tenantId : String) (p : RawPayload) : Option Nat :=
  let same := fun (x : RawPayload) => x.tenantId = some tenantId && p.sessionId.isSome && x.sessionId = p.sessionId &&
    x.memoryType = p.memoryType && ((p.idempotencyKey.isSome && x.idempotencyKey = p.idempotencyKey) ||
      (p.contentSha256.isSome && x.contentSha256 = p.contentSha256))
  if p.idempotencyKey.any (· ≠ "") || p.contentSha256.any (· ≠ "") then
    ((s.db.queue.rawLogs.select fun r => r.agentId = agentId && (s.logs.lookup r.id).any fun x => same x.payload).map
      (·.id)).min?
  else none

/-- What `admit_raw_log` reports. -/
inductive RawLogAdmission
  | deduplicated (logId : Nat)
  | deferred (logId payloadBytes : Nat)
  deriving DecidableEq

/-- `admit_raw_log`: the raw log with its journal row, queue record and receipt, or nothing. -/
def admitRawLog (env : IntakeEnv) (policy : QueueAdmissionPolicy) (s : Intake) (agentId : String)
    (tenantId : Option String) (payload : RawPayload) : Except IntakeError (Intake × RawLogAdmission) := do
  assertValidAgentId agentId
  let tenant := firstNonEmpty tenantId payload.tenantId agentId
  if payload.tenantId.any (· ≠ tenant) then
    throw (.dao (.valueError "payload tenant_id must match the durable tenant scope"))
  else if payload.agentId.any (· ≠ agentId) then
    throw (.dao (.valueError "payload agent_id must match the durable admission tenant"))
  else match env.validateWritePayload payload with
    | some message => throw (.dao (.valueError message))
    | none =>
      match duplicateRawLog s agentId tenant payload with
      | some logId => pure (s, .deduplicated logId)
      | none => do
        let payload := { payload with tenantId := some tenant, agentId := some agentId }
        let payloadBytes := env.canonicalPayloadBytes payload
        s.enforce policy tenant payloadBytes
        let key : DispatchKey := ⟨agentId, nextRawLogId s.db.queue.rawLogs⟩
        if s.dispatchConflict key then throw .queueUnavailable
        else do
          let logged ← insertRawLog s agentId payload
          pure ((logged.enqueue key tenant).recordDispatch key tenant payloadBytes,
            .deferred key.payloadReference payloadBytes)

/-! ## Claims on raw logs -/

/-- A raw log nobody works on, or whose claim has run out. -/
def Intake.logClaimable (s : Intake) (r : RawLog) : Bool :=
  r.status = .deferred || (r.status = .processing &&
    (s.logs.lookup r.id).any fun x => x.leaseExpiresAt.any (· ≤ s.db.now))

/-- Set the status of the selected raw logs, and their claim columns. -/
def Intake.moveLogs (s : Intake) (p : RawLog → Bool) (status : RawLogStatus) (f : RawLogColumns → RawLogColumns)
    (hf : ∀ x, (f x).rawLogId = x.rawLogId) : Intake :=
  { s with
    db := { s.db with queue := { s.db.queue with
      rawLogs := s.db.queue.rawLogs.update p fun r => { r with status := status } } }
    logs := s.logs.update (fun x => (s.db.queue.rawLogs.lookup x.rawLogId).any p) f hf }

@[reducible] def RawLogColumns.release (x : RawLogColumns) : RawLogColumns :=
  { x with claimToken := none, claimedBy := none, leaseExpiresAt := none }

@[reducible] def RawLogColumns.claim (x : RawLogColumns) (workerId claimToken : String) (lease : Nat) :
    RawLogColumns :=
  { x with
    claimToken := some claimToken
    claimedBy := some workerId
    leaseExpiresAt := some lease
    attemptCount := x.attemptCount + 1 }

/-- The raw log is the caller's to claim. -/
def Intake.mayClaimLog (s : Intake) (agentId : String) (logId : Nat) (r : RawLog) : Bool :=
  r.id = logId && r.agentId = agentId && s.logClaimable r

/-- The caller holds the claim on the raw log. -/
def Intake.holdsLog (s : Intake) (agentId : String) (logId : Nat) (workerId claimToken : String) (r : RawLog) :
    Bool :=
  r.id = logId && r.agentId = agentId && r.status = .processing &&
    (s.logs.lookup r.id).any fun x => x.claimedBy = some workerId && x.claimToken = some claimToken

/-- `claim_raw_log`: claim a deferred or expired cold-path job. -/
def claimRawLog (s : Intake) (agentId : String) (logId : Nat) (workerId claimToken : String) (leaseSeconds : Nat) :
    Except IntakeError (Intake × Option RawLogColumns) := do
  assertValidAgentId agentId
  if workerId = "" ∨ ¬ (1 ≤ leaseSeconds ∧ leaseSeconds ≤ 3600) then
    throw (.dao (.valueError "worker_id and a 1..3600 second lease are required."))
  else if s.db.queue.rawLogs.anyWhere (s.mayClaimLog agentId logId) then
    let claimed := s.moveLogs (s.mayClaimLog agentId logId) .processing
      (·.claim workerId claimToken (s.db.now + leaseSeconds)) fun _ => rfl
    pure (claimed, claimed.logs.lookup logId)
  else pure (s, none)

/-- `transition_claimed_raw_log`: finish a job whose claim still matches. -/
def transitionClaimedRawLog (s : Intake) (agentId : String) (logId : Nat) (workerId claimToken : String)
    (status : RawLogStatus) : Except IntakeError (Intake × Bool) := do
  assertValidAgentId agentId
  if status = .processing then throw (.dao (.valueError "claimed job status must be terminal or DEFERRED."))
  else if s.db.queue.rawLogs.anyWhere (s.holdsLog agentId logId workerId claimToken) then
    pure (s.moveLogs (s.holdsLog agentId logId workerId claimToken) status RawLogColumns.release fun _ => rfl, true)
  else pure (s, false)

/-- `recover_expired_raw_log_claims`. -/
def recoverExpiredRawLogClaims (s : Intake) : Intake :=
  s.moveLogs (fun r => r.status = .processing && s.logClaimable r) .deferred RawLogColumns.release fun _ => rfl

/-- `recover_processing_raw_logs`. -/
def recoverProcessingRawLogs (s : Intake) : Intake :=
  s.moveLogs (fun r => r.status = .processing) .deferred RawLogColumns.release fun _ => rfl

/-! ## Completion, replay and purge with their intake columns -/

/-- Clear the claims of raw logs whose status the ledger has changed. -/
def Intake.releaseLogs (s : Intake) (db : Db) (p : RawLog → Bool) : Intake :=
  { s with
    db
    logs := s.logs.update (fun x => (s.db.queue.rawLogs.lookup x.rawLogId).any p) RawLogColumns.release }

/-- The caller holds the record's claim. -/
def DispatchRecord.heldBy (q : DispatchRecord) (workerId claimToken : String) : Bool :=
  q.state = .inFlight && q.claimedBy = some workerId && q.claimToken = some claimToken

/-- `complete_dispatch_queue`: a verified completion also writes a receipt, and the fifth failure
also clears the claim of the raw log. -/
def Intake.completeDispatchQueue (s : Intake) (key : DispatchKey) (workerId claimToken outcome : String)
    (sideEffectVerified : Bool) : Except IntakeError Intake :=
  if workerId = "" ∨ claimToken = "" then .error (.dao (.valueError "worker_id and claim_token are required"))
  else do
    let db ← (Ledger.completeDispatchQueue s.db key workerId claimToken sideEffectVerified).mapError .dao
    match (s.db.queue.dispatch.lookup key).filter (·.heldBy workerId claimToken) with
    | none => pure { s with db }
    | some row =>
      if sideEffectVerified then
        pure { s with
          db
          completions := s.completions.insertOrIgnore
            ⟨key, row.tenantId, workerId, claimToken, outcome, row.attemptCount⟩ }
      else if 5 ≤ row.attemptCount then
        pure (s.releaseLogs db fun r => r.id = key.payloadReference && r.agentId = key.agentId &&
          r.status ∈ [RawLogStatus.deferred, .processing])
      else pure { s with db }

/-- The dispatch records that a replay has handed back. -/
def requeuedKeys (before after : Queue) : List DispatchKey :=
  (before.dispatch.select fun d => d.state = .deadLetter &&
    (after.dispatch.lookup d.key).any fun d' => d'.state = .retryPending).map (·.key)

/-- `replay_pipeline_run`: the raw logs of the requeued records also lose their claims. -/
def Intake.replayPipelineRun (s : Intake) (pipelineRunId : String) (targetMutationId : Option String) :
    Except IntakeError Intake := do
  let db ← (Ledger.replayPipelineRun s.db pipelineRunId targetMutationId).mapError .dao
  pure (s.releaseLogs db fun r => ⟨r.agentId, r.id⟩ ∈ requeuedKeys s.db.queue db.queue)

/-- Drop the text and the caller's metadata of a payload. -/
def RawPayload.erase (env : IntakeEnv) (p : RawPayload) : RawPayload :=
  { p with
    content := ""
    memoryType := none
    idempotencyKey := none
    contentSha256 := none
    others := env.retained p.others }

/-- `purge_v4_document`: the first transaction also erases the payloads of the document's raw logs. -/
def Intake.purgeDocument (env : IntakeEnv) (s : Intake) (tenantId datasetId documentId : String) :
    Except IntakeError Intake := do
  let db ← (Ledger.purgeDocument s.db tenantId datasetId documentId).mapError .dao
  let admitted := fun (r : RawLog) => s.db.core.mutations.anyWhere fun m =>
    m.datasetId = datasetId && m.documentId = documentId && m.rawLogId = some r.id && m.agentId = r.agentId
  pure { s with
    db
    logs := s.logs.update (fun x => (s.db.queue.rawLogs.lookup x.rawLogId).any admitted) fun x =>
      { x with payload := x.payload.erase env } }

/-! ## The catalog -/

/-- The name of a kind in messages. -/
def CatalogKind.text : CatalogKind → String
  | .workspace => "workspace"
  | .dataset => "dataset"
  | .document => "document"
  | .revision => "revision"
  | .chunk => "chunk"

/-- `resolve_id_in_tx` without `create`. -/
def resolveId (identities : Table CatalogIdentity) (key : CatalogKey) : Except IntakeError String :=
  match identities.lookup key with
  | some row => .ok row.physicalId
  | none => .error (.catalogIdentityNotFound s!"unknown {key.kind.text} external identifier in tenant scope")

/-- `resolve_id_in_tx` with `create`: an unknown identifier gets the physical id at hand. -/
def createId (identities : Table CatalogIdentity) (key : CatalogKey) (physicalId : String) :
    Except IntakeError (Table CatalogIdentity × String) :=
  match identities.lookup key with
  | some row => .ok (identities, row.physicalId)
  | none =>
    if identities.anyWhere fun x => x.key.kind = key.kind && x.physicalId = physicalId then .error .queueUnavailable
    else .ok (identities.insertOrIgnore ⟨key, physicalId⟩, physicalId)

/-- `ensure_scope`: provision a workspace and a dataset. -/
def ensureScope (s : Intake) (tenantId workspaceId datasetId newWorkspace newDataset : String) :
    Except IntakeError Intake :=
  if tenantId = "" ∨ workspaceId = "" ∨ datasetId = "" then
    .error (.dao (.valueError "tenant, workspace and dataset identifiers are required"))
  else do
    let (identities, workspace) ← createId s.identities ⟨tenantId, .workspace, workspaceId⟩ newWorkspace
    let (identities, dataset) ← createId identities ⟨tenantId, .dataset, datasetId⟩ newDataset
    let datasets := s.datasets.insertOrIgnore ⟨dataset, tenantId, workspace⟩
    if (datasets.lookup dataset).any fun d => d.tenantId = tenantId && d.workspaceId = workspace then
      pure { s with identities, datasets }
    else throw (.dao (.valueError "dataset identity collides with another catalog scope"))

/-! ## V4 admission -/

/-- The arguments of `admit_v4_memory`, and the physical ids that its `uuid4` calls draw. -/
structure AdmissionRequest where
  tenantId : String
  workspaceId : String
  datasetId : String
  agentId : String
  sessionId : String
  documentId : String
  revisionId : String
  chunkId : String
  title : String
  contentPayload : String
  sourceRef : String
  evidenceSpan : String
  revisionNumber : Nat
  chunkOrdinal : Nat
  supersedesRevisionId : Option String
  metadataValidFrom : String
  metadataValidTo : String
  memoryType : Option String
  metadataIdempotencyKey : Option String
  contentSha256 : Option String
  otherMembers : String
  embeddingProvider : String
  embeddingModel : String
  embeddingVersion : String
  embeddingDimension : Int
  embeddingSpaceId : Option String
  embeddingModelRevision : Option String
  embeddingNormalized : Bool
  validationMode : Int
  /-- Statute code and article id from `canonicalize_trusted_legal_identity`, or the message of
  its ValueError. -/
  legalIdentity : Except String (Option (String × String))
  documentChunk : Bool
  idempotencyKey : Option String
  payloadHash : Option String
  finalizeRevision : Bool
  newDocument : String
  newRevision : String
  newChunk : String

/-- The embedding space that an admission derives from its embedding identity. -/
def AdmissionRequest.derivedSpaceId (q : AdmissionRequest) : String :=
  let revision := ((q.embeddingModelRevision.filter (· ≠ "")).getD q.embeddingVersion)
  s!"{q.embeddingProvider}:{q.embeddingModel}:{revision}:{q.embeddingDimension}:norm={q.embeddingNormalized}"

/-- The checks of `admit_v4_memory` before its transaction. -/
def AdmissionRequest.validate (q : AdmissionRequest) : Except IntakeError Unit := do
  assertValidAgentId q.agentId
  if "" ∈ [q.tenantId, q.workspaceId, q.datasetId, q.sessionId, q.documentId, q.revisionId, q.chunkId, q.title,
      q.contentPayload, q.sourceRef] then
    throw (.dao (.valueError "complete V4 admission provenance is required"))
  else if q.idempotencyKey.isNone ≠ q.payloadHash.isNone then
    throw (.dao (.valueError "idempotency key and payload hash must be supplied together"))
  else if q.embeddingProvider = "" ∨ q.embeddingModel = "" ∨ q.embeddingVersion = "" ∨ q.embeddingDimension < 1 then
    throw (.dao (.valueError "complete embedding identity is required"))
  else match q.legalIdentity with
    | .error message => throw (.dao (.valueError message))
    | .ok _ =>
      if q.validationMode ∉ [0, 1, 2] then throw (.dao (.valueError "validation_mode must be 0, 1, or 2"))
      else if q.embeddingSpaceId.any fun id => id ≠ "" && id ≠ q.derivedSpaceId then
        throw (.dao (.valueError "embedding space identity is inconsistent"))
      else pure ()

/-- The envelope that becomes the payload of the raw log. -/
def AdmissionRequest.payload (q : AdmissionRequest) : RawPayload where
  tenantId := some q.tenantId
  agentId := some q.agentId
  sessionId := some q.sessionId
  content := q.contentPayload
  validationMode := some q.validationMode.toNat
  documentId := some q.documentId
  chunkId := some q.chunkId
  memoryType := q.memoryType
  idempotencyKey := q.metadataIdempotencyKey
  contentSha256 := q.contentSha256
  others := q.otherMembers

/-- What an admission returns. -/
inductive AdmissionOutcome
  | admitted (response : AdmissionResponse)
  | duplicate (response : AdmissionResponse)
  | inProgress
  deriving DecidableEq

/-- Reserve the idempotency key, if there is one. A key that is taken ends the admission: with the
stored response, or with a conflict when the payload hash differs. -/
def Intake.reserve (s : Intake) (receipt : Option IdempotencyReceipt) :
    Except IntakeError (Intake × Option AdmissionOutcome) :=
  match receipt with
  | none => .ok (s, none)
  | some r =>
    match s.requests.lookup r.scope with
    | none => .ok ({ s with requests := s.requests.insertOrIgnore r }, none)
    | some taken =>
      if taken.payloadHash ≠ r.payloadHash then .error (.dao (.valueError "idempotency_key payload mismatch"))
      else match taken.response with
        | some response => .ok (s, some (.duplicate response))
        | none => .ok (s, some .inProgress)

/-- Resolve the catalog identities of an admission to physical ids. -/
def Intake.identify (s : Intake) (q : AdmissionRequest) (datasetId : String) :
    Except IntakeError (Intake × Admission) := do
  let (identities, documentId) ← createId s.identities ⟨q.tenantId, .document, q.documentId⟩ q.newDocument
  let (identities, revisionId) ← createId identities ⟨q.tenantId, .revision, q.revisionId⟩ q.newRevision
  let (identities, chunkId) ← createId identities ⟨q.tenantId, .chunk, q.chunkId⟩ q.newChunk
  let supersedes ← (q.supersedesRevisionId.filter (· ≠ "")).mapM fun p =>
    resolveId identities ⟨q.tenantId, .revision, p⟩
  if (s.datasets.lookup datasetId).map (·.tenantId) ≠ some q.tenantId then
    throw (.dao (.valueError "dataset does not belong to tenant"))
  else pure ({ s with identities }, {
    tenantId := q.tenantId
    datasetId := datasetId
    agentId := q.agentId
    sessionId := q.sessionId
    documentId := documentId
    revisionId := revisionId
    chunkId := chunkId
    contentPayload := q.contentPayload
    sourceRef := q.sourceRef
    evidenceSpan := q.evidenceSpan
    revisionNumber := q.revisionNumber
    chunkOrdinal := q.chunkOrdinal
    supersedesRevisionId := supersedes
    metadataValidFrom := q.metadataValidFrom
    metadataValidTo := q.metadataValidTo
    legalIdentity := (q.legalIdentity.toOption).join
    documentChunk := q.documentChunk
    finalizeRevision := q.finalizeRevision
    withinCapacity := true })

/-- The error of an admission whose ledger part raised `e`. -/
def admissionError (enforced : Except IntakeError Unit) (e : DaoError) : IntakeError :=
  match e, enforced with
  | .queueBackpressure, .error refused => refused
  | .integrityError _, _ => .queueUnavailable
  | e, _ => .dao e

/-- The provenance, the raw log with its dispatch, the run, the mutation and its lanes. -/
def Intake.admit (env : IntakeEnv) (policy : QueueAdmissionPolicy) (s : Intake) (payload : RawPayload)
    (a : Admission) : Except IntakeError (Intake × AdmissionResponse) := do
  let payloadBytes := env.canonicalPayloadBytes payload
  let enforced := s.enforce policy a.tenantId payloadBytes
  let rawLogId := nextRawLogId s.db.queue.rawLogs
  let key : DispatchKey := ⟨a.agentId, rawLogId⟩
  let db ← (admitMemory env.toEnv s.db { a with withinCapacity := enforced.toOption.isSome }).mapError
    (admissionError enforced)
  if s.dispatchConflict key then throw .queueUnavailable
  else
    let logged := { s with db, logs := s.logs.insertOrIgnore ⟨rawLogId, payload, none, none, none, 0⟩ }
    pure (logged.recordDispatch key a.tenantId payloadBytes, {
      mutationId := admissionId env.toEnv a rawLogId "mutation"
      candidateId := admissionId env.toEnv a rawLogId "candidate"
      pipelineRunId := admissionId env.toEnv a rawLogId "pipeline-run"
      rawLogId := rawLogId })

/-- Store the response of an admission in its idempotency receipt, if it has one. -/
def Intake.settle (s : Intake) (receipt : Option IdempotencyReceipt) (response : AdmissionResponse) : Intake :=
  match receipt with
  | none => s
  | some x => { s with requests := s.requests.update (fun r => r.scope = x.scope) fun r =>
      { r with response := some response } }

/-- The storage fails before the `n`-th group of statements of a transaction. -/
def storage (failure : Option Nat) (n : Nat) : Except IntakeError Unit :=
  if failure = some n then .error .queueUnavailable else .ok ()

/-- The idempotency receipt that an admission reserves. -/
def AdmissionRequest.receipt (q : AdmissionRequest) (datasetId : String) : Option IdempotencyReceipt :=
  q.idempotencyKey.bind fun key => q.payloadHash.map fun hash => ⟨⟨q.tenantId, q.agentId, datasetId, key⟩, hash, none⟩

/-- `admit_v4_memory`. The groups of statements run on the transaction's own copy of the tables,
so an error at any of them, from a check or from the storage, leaves nothing behind. -/
def Intake.admitV4Memory (env : IntakeEnv) (policy : QueueAdmissionPolicy) (s : Intake) (q : AdmissionRequest)
    (failure : Option Nat) : Except IntakeError (Intake × AdmissionOutcome) := do
  q.validate
  storage failure 0
  let _ ← resolveId s.identities ⟨q.tenantId, .workspace, q.workspaceId⟩
  let datasetId ← resolveId s.identities ⟨q.tenantId, .dataset, q.datasetId⟩
  storage failure 1
  let (reserved, ended) ← s.reserve (q.receipt datasetId)
  match ended with
  | some outcome => do
    storage failure 2
    pure (reserved, outcome)
  | none => do
    storage failure 3
    let (identified, a) ← reserved.identify q datasetId
    storage failure 4
    let (admitted, response) ← identified.admit env policy q.payload a
    storage failure 5
    let settled := admitted.settle (q.receipt datasetId) response
    storage failure 6
    pure (settled, .admitted response)

/-! ## The intake as a machine -/

/-- The intake has its own version of the operation. -/
def Op.hasIntakeVersion : Op → Bool
  | .admitMemory _ | .completeDispatchQueue .. | .replayPipelineRun .. | .purgeDocument .. => true
  | _ => false

/-- The transactions of the intake; those of the ledger that it has no version of are among them. -/
inductive IntakeOp
  | ledger (op : Op) (plain : op.hasIntakeVersion = false)
  | ensureScope (tenantId workspaceId datasetId newWorkspace newDataset : String)
  | createId (key : CatalogKey) (physicalId : String)
  | admitV4Memory (request : AdmissionRequest) (failure : Option Nat)
  | admitRawLog (agentId : String) (tenantId : Option String) (payload : RawPayload)
  | insertRawLog (agentId : String) (payload : RawPayload)
  | dispatchRawLog (agentId : String) (logId : Nat) (workerId : String) (policy : Option QueueAdmissionPolicy)
  | claimRawLog (agentId : String) (logId : Nat) (workerId claimToken : String) (leaseSeconds : Nat)
  | transitionClaimedRawLog (agentId : String) (logId : Nat) (workerId claimToken : String) (status : RawLogStatus)
  | recoverExpiredRawLogClaims
  | recoverProcessingRawLogs
  | completeDispatchQueue (key : DispatchKey) (workerId claimToken outcome : String) (sideEffectVerified : Bool)
  | replayPipelineRun (pipelineRunId : String) (targetMutationId : Option String)
  | purgeDocument (tenantId datasetId documentId : String)

/-- What one transaction does to the intake under the configured policy. -/
def intakeTransact (env : IntakeEnv) (policy : QueueAdmissionPolicy) (s : Intake) :
    IntakeOp → Except IntakeError Intake
  | .ledger op _ => ((transact env.toEnv s.db op).mapError .dao).map fun db => { s with db }
  | .ensureScope t w d nw nd => ensureScope s t w d nw nd
  | .createId k p => (createId s.identities k p).map fun r => { s with identities := r.1 }
  | .admitV4Memory q f => (s.admitV4Memory env policy q f).map (·.1)
  | .admitRawLog a t p => (admitRawLog env policy s a t p).map (·.1)
  | .insertRawLog a p => insertRawLog s a p
  | .dispatchRawLog a l w p => dispatchRawLog env s a l w p
  | .claimRawLog a l w t n => (claimRawLog s a l w t n).map (·.1)
  | .transitionClaimedRawLog a l w t st => (transitionClaimedRawLog s a l w t st).map (·.1)
  | .recoverExpiredRawLogClaims => .ok (recoverExpiredRawLogClaims s)
  | .recoverProcessingRawLogs => .ok (recoverProcessingRawLogs s)
  | .completeDispatchQueue k w t o v => s.completeDispatchQueue k w t o v
  | .replayPipelineRun r t => s.replayPipelineRun r t
  | .purgeDocument t d i => s.purgeDocument env t d i

/-- One step of the intake: the transaction commits, or it rolls back. -/
def intakeExec (env : IntakeEnv) (policy : QueueAdmissionPolicy) (s : Intake) (op : IntakeOp) : Intake :=
  orKeep s (intakeTransact env policy s op)

/-! ## Sample inputs -/

/-- The sample configuration with payloads measured by their content. -/
def sampleIntakeEnv : IntakeEnv where
  toEnv := sampleEnv
  canonicalPayloadBytes p := p.content.length
  validateWritePayload _ := none
  retained _ := ""

/-- A policy for `records` pending records. -/
def samplePolicy (records : Nat) : QueueAdmissionPolicy := ⟨records, 100, records, 100, 4, 4, 4, 4, 100⟩

/-- A payload of agent `a` for tenant `t`. -/
def samplePayload (content : String) : RawPayload :=
  ⟨some "t", some "a", some "s", content, none, none, none, none, none, none, ""⟩

/-- The first or a later chunk of a revision, admitted under an idempotency key. -/
def sampleRequest (key hash chunk : String) (ordinal : Nat) : AdmissionRequest where
  tenantId := "t"
  workspaceId := "w"
  datasetId := "d"
  agentId := "a"
  sessionId := "s"
  documentId := "doc"
  revisionId := "rev"
  chunkId := chunk
  title := "title"
  contentPayload := "text"
  sourceRef := "source"
  evidenceSpan := "text"
  revisionNumber := 1
  chunkOrdinal := ordinal
  supersedesRevisionId := none
  metadataValidFrom := ""
  metadataValidTo := ""
  memoryType := none
  metadataIdempotencyKey := none
  contentSha256 := none
  otherMembers := ""
  embeddingProvider := "provider"
  embeddingModel := "model"
  embeddingVersion := "1"
  embeddingDimension := 8
  embeddingSpaceId := none
  embeddingModelRevision := none
  embeddingNormalized := true
  validationMode := 0
  legalIdentity := .ok none
  documentChunk := false
  idempotencyKey := some key
  payloadHash := some hash
  finalizeRevision := false
  newDocument := "physical doc"
  newRevision := "physical rev"
  newChunk := "physical " ++ chunk

/-- The scope of the sample requests. -/
def sampleScope : IntakeOp := .ensureScope "t" "w" "d" "physical w" "physical d"

end Mesa.Ledger
