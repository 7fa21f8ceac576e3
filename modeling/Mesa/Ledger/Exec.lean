/-
The ledger as a machine: one operation is one SQLite transaction. SQLite serialises them, so an
interleaving of any number of workers is a list of operations; a transaction that raises leaves
the database as it was.
-/
import Mesa.Foundation.Run
import Mesa.Ledger.Catalog
import Mesa.Ledger.Identity
import Mesa.Ledger.Rollback

namespace Mesa.Ledger

open Mesa.Foundation

/-- The transactions that write the lifecycle ledger, with their arguments. -/
inductive Op
  | passTime (seconds : Nat)
  | createDocument (tenantId datasetId documentId : String) (externalRef : Option String)
  | createRevision (request : RevisionRequest)
  | createSourceChunk (request : ChunkRequest)
  | admitMemory (admission : Admission)
  | recordMutation (candidate : Mutation)
  | recordMutationExtraction (agentId mutationId : String) (triplets : List Triplet)
  | setMutationState (agentId mutationId : String) (state : MutationState)
  | recordMutationArtifact (mutationId : String) (artifact : Artifact)
  | resolveV4Entity (request : EntityRequest)
  | insertAssertion (mutationId : String) (triplet : Triplet) (fact : FactIdentity)
  | dropFencedAssertion (mutationId assertionId : String)
  | claimProjectionOutbox (workerId claimToken : String) (limit leaseSeconds : Nat)
  | completeProjectionOutbox (key : ProjectionKey) (workerId claimToken : String) (outcome : Outcome)
  | failProjectionOutbox (key : ProjectionKey) (workerId claimToken : String) (retryable : Bool)
  | requeueSkippedProjections (lane : Lane)
  | recoverInFlight
  | publishWithoutGraph
  | requestPipelineRollback (pipelineRunId : String)
  | replayPipelineRun (pipelineRunId : String) (targetMutationId : Option String)
  | reconcileProjectionParity (missing : List (String × List Lane))
  | claimArtifactCleanup (workerId claimToken : String) (limit leaseSeconds : Nat)
  | applySqlCleanup (artifact : Artifact)
  | finishArtifactCleanup (key : CleanupKey) (workerId claimToken : String) (failed : Bool)
  | enqueueUnownedProjectionCleanup (mutationId : String) (artifacts : List Artifact)
  | finalizeTerminalProjectionCompensation (mutationId : String)
  | purgeDocument (tenantId datasetId documentId : String)
  | purgeMemory (agentId : String) (sessionId : Option String)
  | claimDispatchQueue (workerId claimToken : String) (limit leaseSeconds : Nat)
  | completeDispatchQueue (key : DispatchKey) (workerId claimToken : String) (sideEffectVerified : Bool)

/-- The mutation an operation may commit. -/
def Op.committing : Op → Option String
  | .completeProjectionOutbox key _ _ _ => some key.mutationId
  | .setMutationState _ mutationId state => if state = .committed then some mutationId else none
  | _ => none

/-- What one transaction does to the database, or the exception it raises. -/
def transact (env : Env) (db : Db) : Op → Except DaoError Db
  | .passTime seconds => .ok { db with now := db.now + seconds }
  | .createDocument t d i r => (createDocument db.core t d i r).map fun core => { db with core }
  | .createRevision q => (createRevision db.core q).map fun core => { db with core }
  | .createSourceChunk q => (createSourceChunk env db.core q).map fun core => { db with core }
  | .admitMemory q => admitMemory env db q
  | .recordMutation m => recordMutation db m
  | .recordMutationExtraction a m ts => (recordMutationExtraction db.core a m ts).map fun r => { db with core := r.1 }
  | .setMutationState a m s => (setMutationState db a m s).map (·.1)
  | .recordMutationArtifact m a => recordMutationArtifact db m a
  | .resolveV4Entity q => (resolveV4Entity env db.idents q).map fun r => { db with idents := r.1 }
  | .insertAssertion m t f => (insertAssertion env db m t f).map (·.1)
  | .dropFencedAssertion m a => .ok (dropFencedAssertion db m a)
  | .claimProjectionOutbox w t n l => (claimProjectionOutbox db w t n l).map (·.1)
  | .completeProjectionOutbox k w t o => (completeProjectionOutbox env db k w t o).map (·.1)
  | .failProjectionOutbox k w t r => failProjectionOutbox db k w t r
  | .requeueSkippedProjections l => requeueSkippedProjections db l
  | .recoverInFlight => .ok (recoverInFlight db)
  | .publishWithoutGraph => .ok (publishWithoutGraph db)
  | .requestPipelineRollback r => requestPipelineRollback db r
  | .replayPipelineRun r t => replayPipelineRun db r t
  | .reconcileProjectionParity ms => reconcileProjectionParity db ms
  | .claimArtifactCleanup w t n l => (claimArtifactCleanup db w t n l).map (·.1)
  | .applySqlCleanup a => .ok (applySqlCleanup db a)
  | .finishArtifactCleanup k w t f => finishArtifactCleanup db k w t f
  | .enqueueUnownedProjectionCleanup m as => enqueueUnownedProjectionCleanup db m as
  | .finalizeTerminalProjectionCompensation m => finalizeTerminalProjectionCompensation db m
  | .purgeDocument t d i => purgeDocument db t d i
  | .purgeMemory a s => purgeMemory db a s
  | .claimDispatchQueue w t n l => claimDispatchQueue db w t n l
  | .completeDispatchQueue k w t v => completeDispatchQueue db k w t v

/-- One step of the ledger: the transaction commits, or it rolls back and changes nothing. -/
def exec (env : Env) (db : Db) (op : Op) : Db := orKeep db (transact env db op)

/-- The database after a list of transactions, from an empty one. -/
def reach (env : Env) (ops : List Op) : Db := run (exec env) Db.empty ops

theorem exec_of_ok {env : Env} {db db' : Db} {op : Op} (h : transact env db op = .ok db') : exec env db op = db' := by
  rw [exec, h]; rfl

theorem exec_of_error {env : Env} {db : Db} {op : Op} {e : DaoError} (h : transact env db op = .error e) :
    exec env db op = db := by
  rw [exec, h]; rfl

/-- A transaction that commits ends in the step's state. -/
theorem transact_eq_ok {env : Env} {db : Db} {op : Op} (h : (transact env db op).toOption.isSome = true) :
    transact env db op = .ok (exec env db op) := by
  unfold exec
  cases ht : transact env db op with
  | error e => rw [ht] at h; cases h
  | ok db' => rfl

/-- What holds before a step and after every step that commits holds after every step. -/
theorem exec_induction {env : Env} {db : Db} {op : Op} {P : Db → Prop} (h : P db)
    (hok : ∀ db', transact env db op = .ok db' → P db') : P (exec env db op) :=
  orKeep_invariant h hok

/-! ## Sample inputs -/

/-- A configuration to run the ledger on concrete inputs: names are their own normal forms, a
uuid5 is its namespace and name, a hash is its input, and every lane is enabled. -/
def sampleEnv : Env where
  uuid5 ns name := ns ++ ":" ++ name
  sha256 text := text
  manifestHash _ := "manifest"
  strip text := text
  upper text := text
  normalizeIdentityText text := text
  normalizeOntologyUri uri := uri
  canonicalizeEntity name := name
  classifyGraphObject tail literalValue objectType := (tail, literalValue, objectType.getD "ENTITY")
  embeddingEnabled := true
  graphEnabled := true

/-- A candidate of agent `a` for a chunk of a revision. -/
def sampleMutation (mutationId pipelineRunId revisionId chunkId : String) : Mutation where
  mutationId := mutationId
  candidateId := mutationId
  rawLogId := none
  tenantId := "t"
  datasetId := "d"
  documentId := "doc"
  revisionId := revisionId
  chunkId := chunkId
  agentId := "a"
  sessionId := "s"
  pipelineRunId := pipelineRunId
  legalIdentity := none
  documentChunk := false
  contentPayload := "text"
  evidenceSpan := "text"
  metadataValidFrom := ""
  metadataValidTo := ""
  projectionTriplets := []
  state := .received

/-- The only chunk of a revision of the sample document, with its manifest frozen. -/
def sampleChunk (revisionId chunkId : String) (revisionNumber : Nat) (supersedesRevisionId : Option String) :
    ChunkRequest where
  tenantId := "t"
  datasetId := "d"
  documentId := "doc"
  revisionId := revisionId
  chunkId := chunkId
  contentPayload := "text"
  sourceRef := "source"
  revisionNumber := revisionNumber
  chunkOrdinal := 0
  externalRef := none
  supersedesRevisionId := supersedesRevisionId
  finalizeRevision := true

/-- Record a candidate and release its lanes to the projectors. -/
def admitted (m : Mutation) : List Op :=
  [.recordMutation m, .setMutationState "a" m.mutationId .extracted, .setMutationState "a" m.mutationId .validated]

/-- Claim the first claimable lane and complete it as `lane` of the mutation. -/
def projected (mutationId : String) (lane : Lane) : List Op :=
  [.claimProjectionOutbox "w" "token" 1 60, .completeProjectionOutbox ⟨mutationId, lane⟩ "w" "token" .applied]

/-- Project every lane of the only mutation with claimable lanes. -/
def projectedAll (mutationId : String) : List Op :=
  projected mutationId .sql ++ projected mutationId .vector ++ projected mutationId .graph

/-- Resolve the subject of a fact about a literal and insert its assertion. -/
def asserted (mutationId : String) (t : Triplet) : List Op :=
  [.resolveV4Entity (nameRequest "t" t.head), .insertAssertion mutationId t
    ⟨t.head, none, t.literalValue, ((v4EntityId sampleEnv "t" t.head "ENTITY" none).toOption).getD "", none⟩]

end Mesa.Ledger
