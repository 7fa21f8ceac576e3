/-
The repository of system operations: rebuilds of the projections, each submitted once, claimed by
one runner at a time under a lease and a fencing token, and moved through its states with an event
for every move. A call is one immediate transaction. The clock is read once before the checks and
once by the statement that writes, so both readings are arguments, and nothing orders them.
-/
import Mesa.Foundation.Result
import Mesa.Foundation.Run
import Mesa.Foundation.Table

namespace Mesa.Operations

open Mesa.Foundation

/-! ## States -/

inductive OperationState
  | pending | claimed | running | verifying | readyToCutover | completed | retryableFailed | finalFailed | cancelled
  deriving DecidableEq

/-- `_ACTIVE_EXECUTION_STATES`. -/
def OperationState.activeExecution (s : OperationState) : Bool :=
  s ∈ [.claimed, .running, .verifying, .readyToCutover]

/-- `_MAINTENANCE_STATES`, which are the states of the unique index of active rebuilds, too. -/
def OperationState.maintenance (s : OperationState) : Bool :=
  s ∈ [.pending, .claimed, .running, .verifying, .readyToCutover, .retryableFailed]

/-- `_FINAL_STATES`: the states that give up the claim. -/
def OperationState.final (s : OperationState) : Bool := s ∈ [.completed, .retryableFailed, .finalFailed, .cancelled]

/-- `_ALLOWED_TRANSITIONS`. -/
def OperationState.allowed : OperationState → List OperationState
  | .claimed => [.running, .retryableFailed, .finalFailed]
  | .running => [.running, .verifying, .retryableFailed, .finalFailed]
  | .verifying => [.verifying, .readyToCutover, .retryableFailed, .finalFailed]
  | .readyToCutover => [.readyToCutover, .completed, .retryableFailed, .finalFailed]
  | _ => []

/-- The name of the state ends in `FAILED`. -/
def OperationState.failed (s : OperationState) : Bool := s ∈ [.retryableFailed, .finalFailed]

/-- The states before which the replay must be finished. -/
def OperationState.replayed (s : OperationState) : Bool := s ∈ [.verifying, .readyToCutover, .completed]

def OperationState.ofText : String → Option OperationState
  | "PENDING" => some .pending
  | "CLAIMED" => some .claimed
  | "RUNNING" => some .running
  | "VERIFYING" => some .verifying
  | "READY_TO_CUTOVER" => some .readyToCutover
  | "COMPLETED" => some .completed
  | "RETRYABLE_FAILED" => some .retryableFailed
  | "FINAL_FAILED" => some .finalFailed
  | "CANCELLED" => some .cancelled
  | _ => none

/-! ## Tables -/

/-- A row of `system_operations`; its kind and scope are constants of the table. -/
structure Operation where
  operationId : String
  requestedByPrincipalId : String
  idempotencyKey : String
  payloadHash : String
  state : OperationState
  claimedBy : Option String
  claimToken : Option String
  fencingToken : Nat
  leaseExpiresAt : Option Nat
  attemptCount : Nat
  retryLimit : Nat
  progressCompleted : Int
  progressTotal : Int
  checkpointJson : String
  sourceManifestHash : Option String
  sourceManifestJson : String
  sourceGenerationId : Option String
  targetGenerationId : Option String
  lastErrorClass : Option String
  lastErrorCode : Option String
  deriving DecidableEq

structure EventKey where
  operationId : String
  sequenceNumber : Nat
  deriving DecidableEq

/-- A row of `system_operation_events`, unique by its operation and number. -/
structure OperationEvent where
  key : EventKey
  eventType : String
  fromState : Option OperationState
  toState : OperationState
  fencingToken : Nat
  attemptCount : Nat
  progressCompleted : Int
  progressTotal : Int
  checkpointHash : Option String
  errorClass : Option String
  deriving DecidableEq

instance : Keyed Operation String := ⟨Operation.operationId⟩
instance : Keyed OperationEvent EventKey := ⟨OperationEvent.key⟩

structure Store where
  operations : Table Operation
  events : Table OperationEvent
  /-- The ids of `projection_generations`. -/
  generations : List String

/-- The tables as the migration leaves them. -/
def Store.empty : Store := ⟨.empty, .empty, ["legacy"]⟩

inductive OperationError
  | valueError (message : String)
  | notFound (message : String)
  | idempotencyConflict (message : String)
  | activeConflict (message : String)
  | state (message : String)
  | fenced (message : String)
  | integrityError
  deriving DecidableEq

/-! ## Arguments -/

/-- `_bounded`. -/
def bounded (value label : String) : Except OperationError String :=
  if value = "" ∨ 128 < value.length ∨ value.toList.any (·.toNat < 32) then
    .error (.valueError s!"{label} is invalid")
  else .ok value

def isHexDigit (c : Char) : Bool := ('0' ≤ c ∧ c ≤ '9') || ('a' ≤ c ∧ c ≤ 'f')

/-- `_hash`. -/
def hashValue (value label : String) : Except OperationError String :=
  let normalized := value.toLower
  if normalized.length = 64 ∧ normalized.toList.all isHexDigit then .ok normalized
  else .error (.valueError s!"{label} must be a lowercase SHA-256 digest")

/-- `_ERROR_PATTERN`. -/
def isErrorName : List Char → Bool
  | [] => false
  | c :: rest => c.isAlpha && rest.length ≤ 127 && rest.all fun d => d.isAlphanum || d ∈ ['_', '.', '-']

/-- `_error_value`. -/
def errorValue (value : Option String) (label : String) : Except OperationError (Option String) :=
  if value.any fun v => !isErrorName v.toList then .error (.valueError s!"{label} is invalid") else .ok value

/-- `_canonical_json` of a document, given as its canonical text, or `none` when it has none. -/
def canonicalJson (sha256 : String → String) (text : Option String) (label : String) :
    Except OperationError (String × String) :=
  match text with
  | none => .error (.valueError s!"{label} must be JSON serializable")
  | some serialized =>
    if 65536 < serialized.utf8ByteSize then .error (.valueError s!"{label} exceeds the durable size limit")
    else .ok (serialized, sha256 serialized)

/-! ## Rows -/

/-- `lease_valid`: the lease runs at the time of the reading. -/
def Operation.leaseValid (x : Operation) (now : Nat) : Bool := x.leaseExpiresAt.any (now < ·)

/-- The caller's claim is the one on the row. -/
def Operation.claimIs (x : Operation) (runnerId claimToken : String) (fencingToken : Nat) : Bool :=
  x.claimedBy = some runnerId && x.claimToken = some claimToken && x.fencingToken = fencingToken

/-- `_assert_fence`. -/
def Operation.assertFence (x : Operation) (runnerId claimToken : String) (fencingToken now : Nat) :
    Except OperationError Unit :=
  if x.claimIs runnerId claimToken fencingToken && x.leaseValid now then .ok ()
  else .error (.fenced "operation lease or fence is stale")

/-- The row of an operation that has to exist. -/
def Store.row (s : Store) (operationId : String) : Except OperationError Operation :=
  match s.operations.lookup operationId with
  | some x => .ok x
  | none => .error (.notFound "operation does not exist")

/-- The events of an operation, in the order of their insertion. -/
def Store.log (s : Store) (operationId : String) : List OperationEvent :=
  s.events.select fun e => e.key.operationId = operationId

/-- `_event`: append an event of the row as it is after the move. -/
def Store.event (s : Store) (x : Operation) (eventType : String) (fromState : Option OperationState)
    (checkpointHash errorClass : Option String) : Store :=
  let sequence := ((s.log x.operationId).map (·.key.sequenceNumber)).foldl max 0 + 1
  let e : OperationEvent := ⟨⟨x.operationId, sequence⟩, eventType, fromState, x.state, x.fencingToken, x.attemptCount,
    x.progressCompleted, x.progressTotal, checkpointHash, errorClass⟩
  { s with events := s.events.insertOrIgnore e }

/-- Write the columns of one operation's row, when the row still satisfies the statement's condition. -/
def Store.write (s : Store) (operationId : String) (condition : Operation → Bool) (f : Operation → Operation)
    (hf : ∀ x, (f x).operationId = x.operationId := by intro _; rfl) : Store :=
  { s with operations := s.operations.update (fun x => x.operationId = operationId && condition x) f hf }

/-! ## Calls -/

/-- A new operation. -/
def submitted (operationId principal key payloadHash : String) : Operation where
  operationId := operationId
  requestedByPrincipalId := principal
  idempotencyKey := key
  payloadHash := payloadHash
  state := .pending
  claimedBy := none
  claimToken := none
  fencingToken := 0
  leaseExpiresAt := none
  attemptCount := 0
  retryLimit := 3
  progressCompleted := 0
  progressTotal := 0
  checkpointJson := "\x7b\x7d"
  sourceManifestHash := none
  sourceManifestJson := "\x7b\x7d"
  sourceGenerationId := none
  targetGenerationId := none
  lastErrorClass := none
  lastErrorCode := none

/-- `submit`; a repeated key returns the operation it was first used for. -/
def submit (s : Store) (requestedByPrincipalId idempotencyKey payloadHash operationId : String) :
    Except OperationError Store := do
  let principal ← bounded requestedByPrincipalId "requested principal"
  let key ← bounded idempotencyKey "idempotency key"
  let digest ← hashValue payloadHash "payload hash"
  match s.operations.rows.find? (·.idempotencyKey = key) with
  | some existing =>
    if existing.payloadHash ≠ digest then
      throw (.idempotencyConflict "idempotency key conflicts with another rebuild payload")
    else pure s
  | none =>
    if s.operations.hasKey operationId || s.operations.anyWhere (·.state.maintenance) then
      throw (.activeConflict "storage root already has an active projection rebuild")
    else
      let x := submitted operationId principal key digest
      pure ({ s with operations := s.operations.insertOrIgnore x }.event x "SUBMITTED" none none none)

@[reducible] def Operation.claim (x : Operation) (state : OperationState) (runnerId claimToken : String)
    (lease : Nat) : Operation :=
  { x with
    state
    claimedBy := some runnerId
    claimToken := some claimToken
    fencingToken := x.fencingToken + 1
    attemptCount := x.attemptCount + 1
    leaseExpiresAt := some lease }

/-- The state in which an operation is claimed, and the type of the event. -/
def Operation.claimTarget (x : Operation) (now : Nat) : Except OperationError (OperationState × String) :=
  if x.state = .pending then .ok (.claimed, "CLAIMED")
  else if x.state.activeExecution && !x.leaseValid now then .ok (x.state, "RECLAIMED")
  else .error (.state "operation is not claimable")

/-- `claim`: a pending operation, or one whose lease has run out. -/
def claim (s : Store) (operationId runnerId : String) (leaseSeconds : Nat) (claimToken : String)
    (readAt writeAt : Nat) : Except OperationError Store := do
  let id ← bounded operationId "operation id"
  let runner ← bounded runnerId "runner id"
  if ¬ (1 ≤ leaseSeconds ∧ leaseSeconds ≤ 3600) then
    throw (.valueError "lease seconds must be between 1 and 3600")
  else
    let x ← s.row id
    let (nextState, eventType) ← x.claimTarget readAt
    let claimed := s.write id (·.fencingToken = x.fencingToken)
      (·.claim nextState runner claimToken (writeAt + leaseSeconds))
    pure (claimed.event (x.claim nextState runner claimToken (writeAt + leaseSeconds)) eventType (some x.state)
      none none)

/-- `renew`. -/
def renew (s : Store) (operationId runnerId claimToken : String) (fencingToken leaseSeconds readAt writeAt : Nat) :
    Except OperationError Store := do
  let id ← bounded operationId "operation id"
  let runner ← bounded runnerId "runner id"
  let token ← bounded claimToken "claim token"
  if ¬ (1 ≤ leaseSeconds ∧ leaseSeconds ≤ 3600) then
    throw (.valueError "lease seconds must be between 1 and 3600")
  else
    let x ← s.row id
    if ¬ x.state.activeExecution then throw (.state "operation lease cannot be renewed")
    else
      x.assertFence runner token fencingToken readAt
      if ¬ x.leaseValid writeAt then throw (.fenced "operation renewal was fenced out")
      else pure (s.write id (fun y => y.claimIs runner token fencingToken && y.leaseValid writeAt) fun y =>
        { y with leaseExpiresAt := some (writeAt + leaseSeconds) })

/-- The arguments of `transition`. -/
structure TransitionRequest where
  operationId : String
  toState : String
  runnerId : String
  claimToken : String
  fencingToken : Nat
  progressCompleted : Option Int
  progressTotal : Option Int
  /-- The canonical text of the checkpoint, if there is a checkpoint and if it has one. -/
  checkpoint : Option (Option String)
  sourceManifestHash : Option String
  sourceManifest : Option (Option String)
  sourceGenerationId : Option String
  targetGenerationId : Option String
  errorClass : Option String
  errorCode : Option String

/-- The arguments of a transition after their checks. -/
structure TransitionValues where
  target : OperationState
  checkpoint : Option (String × String)
  manifestHash : Option String
  manifestJson : Option String
  sourceGeneration : Option String
  targetGeneration : Option String
  errorClass : Option String
  errorCode : Option String

/-- The checks of `transition` before its transaction. -/
def TransitionRequest.validate (sha256 : String → String) (q : TransitionRequest) :
    Except OperationError TransitionValues := do
  let _ ← bounded q.operationId "operation id"
  let _ ← bounded q.runnerId "runner id"
  let _ ← bounded q.claimToken "claim token"
  match OperationState.ofText q.toState with
  | none => throw (.state "unknown operation state")
  | some target => do
    let errorClass ← errorValue q.errorClass "error class"
    let errorCode ← errorValue q.errorCode "error code"
    let manifestHash ← q.sourceManifestHash.mapM fun h => hashValue h "source manifest hash"
    let sourceGeneration ← q.sourceGenerationId.mapM fun g => bounded g "source generation id"
    let targetGeneration ← q.targetGenerationId.mapM fun g => bounded g "target generation id"
    let checkpoint ← q.checkpoint.mapM fun c => canonicalJson sha256 c "checkpoint"
    let manifest ← q.sourceManifest.mapM fun m => canonicalJson sha256 m "source manifest"
    pure ⟨target, checkpoint, manifestHash, manifest.map (·.1), sourceGeneration, targetGeneration, errorClass,
      errorCode⟩

/-- The checks of `transition` on the row. -/
def checkTransition (x : Operation) (v : TransitionValues) (completed total : Int) : Except OperationError Unit :=
  if v.target ∉ x.state.allowed then .error (.state "operation transition is not allowed")
  else if v.target.failed && v.errorClass.isNone then .error (.state "failed operation requires an error class")
  else if !v.target.failed && (v.errorClass.isSome || v.errorCode.isSome) then
    .error (.state "non-failure transition cannot record an error")
  else if v.target = .retryableFailed ∧ x.retryLimit ≤ x.attemptCount then
    .error (.state "operation retry budget is exhausted")
  else if completed < x.progressCompleted then .error (.state "operation progress cannot move backwards")
  else if x.progressTotal ≠ 0 ∧ total ≠ x.progressTotal then
    .error (.state "operation progress total cannot change")
  else if completed < 0 ∨ total < completed then .error (.state "operation progress is invalid")
  else if v.target.replayed ∧ completed ≠ total then
    .error (.state "operation must finish replay before verification or cutover")
  else if v.target = x.state ∧ v.checkpoint.isNone ∧ completed = x.progressCompleted ∧ total = x.progressTotal then
    .error (.state "same-state transition requires a checkpoint")
  else .ok ()

/-- The columns that a transition sets. -/
@[reducible] def Operation.transition (x : Operation) (v : TransitionValues) (completed total : Int) : Operation :=
  { x with
    state := v.target
    progressCompleted := completed
    progressTotal := total
    checkpointJson := (v.checkpoint.map (·.1)).getD x.checkpointJson
    sourceManifestHash := v.manifestHash.or x.sourceManifestHash
    sourceManifestJson := v.manifestJson.getD x.sourceManifestJson
    sourceGenerationId := v.sourceGeneration.or x.sourceGenerationId
    targetGenerationId := v.targetGeneration.or x.targetGenerationId
    lastErrorClass := v.errorClass.or x.lastErrorClass
    lastErrorCode := v.errorCode.or x.lastErrorCode
    claimedBy := if v.target.final then none else x.claimedBy
    claimToken := if v.target.final then none else x.claimToken
    leaseExpiresAt := if v.target.final then none else x.leaseExpiresAt }

/-- `transition`: the holder moves a claimed operation or records its progress. -/
def transition (sha256 : String → String) (s : Store) (q : TransitionRequest) (readAt writeAt : Nat) :
    Except OperationError Store := do
  let v ← q.validate sha256
  let x ← s.row q.operationId
  x.assertFence q.runnerId q.claimToken q.fencingToken readAt
  let completed := q.progressCompleted.getD x.progressCompleted
  let total := q.progressTotal.getD x.progressTotal
  checkTransition x v completed total
  if ¬ x.leaseValid writeAt then throw (.fenced "operation transition was fenced out")
  else if (v.sourceGeneration.toList ++ v.targetGeneration.toList).any (· ∉ s.generations) then throw .integrityError
  else
    let moved := s.write q.operationId
      (fun y => y.claimIs q.runnerId q.claimToken q.fencingToken && y.leaseValid writeAt)
      (·.transition v completed total)
    pure (moved.event (x.transition v completed total)
      (if v.target = x.state then "CHECKPOINTED" else "TRANSITIONED") (some x.state) (v.checkpoint.map (·.2))
      v.errorClass)

/-- The row without its claim, in another state. -/
@[reducible] def Operation.release (x : Operation) (state : OperationState) : Operation :=
  { x with state, claimedBy := none, claimToken := none, leaseExpiresAt := none }

/-- `cancel`. -/
def cancel (s : Store) (operationId : String) : Except OperationError Store := do
  let id ← bounded operationId "operation id"
  let x ← s.row id
  if x.state ∉ [OperationState.pending, .retryableFailed] then throw (.state "operation cannot be cancelled")
  else
    let cancelled := s.write id (·.state = x.state) (·.release .cancelled)
    pure (cancelled.event (x.release .cancelled) "CANCELLED" (some x.state) none none)

@[reducible] def Operation.retry (x : Operation) : Operation :=
  { x.release .pending with lastErrorClass := none, lastErrorCode := none }

/-- `retry`. -/
def retry (s : Store) (operationId : String) : Except OperationError Store := do
  let id ← bounded operationId "operation id"
  let x ← s.row id
  if x.state ≠ .retryableFailed then throw (.state "operation is not retryable")
  else if x.retryLimit ≤ x.attemptCount then throw (.state "operation retry budget is exhausted")
  else
    let retried := s.write id (·.state = .retryableFailed) Operation.retry
    pure (retried.event x.retry "RETRIED" (some .retryableFailed) none none)

/-! ## The repository as a machine -/

/-- The calls on the repository, with the ids and tokens that `uuid4` draws and the clock's readings. -/
inductive Call
  | submit (requestedByPrincipalId idempotencyKey payloadHash operationId : String)
  | claim (operationId runnerId : String) (leaseSeconds : Nat) (claimToken : String) (readAt writeAt : Nat)
  | renew (operationId runnerId claimToken : String) (fencingToken leaseSeconds readAt writeAt : Nat)
  | transition (request : TransitionRequest) (readAt writeAt : Nat)
  | cancel (operationId : String)
  | retry (operationId : String)
  /-- A rebuild registers a projection generation. -/
  | generation (generationId : String)

/-- What one call does, where `sha256` is the digest of a text. -/
def transact (sha256 : String → String) (s : Store) : Call → Except OperationError Store
  | .submit p k h id => submit s p k h id
  | .claim id r n t a b => Operations.claim s id r n t a b
  | .renew id r t f n a b => renew s id r t f n a b
  | .transition q a b => transition sha256 s q a b
  | .cancel id => cancel s id
  | .retry id => Operations.retry s id
  | .generation g => .ok { s with generations := s.generations ++ [g] }

/-- One step: the call commits, or it rolls back. -/
def exec (sha256 : String → String) (s : Store) (c : Call) : Store := orKeep s (transact sha256 s c)

/-- The repository after a list of calls. -/
def reach (sha256 : String → String) (calls : List Call) : Store := run (exec sha256) .empty calls

end Mesa.Operations
