/-
The write-ahead ledger of the vector store. While the vectors migrate, every new node queues an
entry; workers claim entries under a lease, project them, compare the stores with the entry and
acknowledge it. A call is one transaction with one reading of the clock. A reconciliation is two
calls: it reads the entry, looks at the stores, and writes its verdict later, so the reading is
part of the state between them.
-/
import Mesa.Foundation.Result
import Mesa.Foundation.Run
import Mesa.Foundation.Table
import Mathlib.Data.List.Sort

namespace Mesa.Wal

open Mesa.Foundation

/-! ## States -/

inductive WalState
  | pending | sqliteCommitted | retryPending | claimed | reconciled | reconciliationRequired | blocked | acked
  deriving DecidableEq

/-- The states that a claim takes whatever their lease. -/
def WalState.open (s : WalState) : Bool := s ∈ [.pending, .sqliteCommitted, .retryPending]

/-- Acknowledged, given up, or waiting for an operator. -/
def WalState.settled (s : WalState) : Bool := s ∈ [.acked, .blocked, .reconciliationRequired]

/-- The values of `vector_state` and `graph_state`. -/
inductive ProjectionState
  | pending | vectorApplied | graphApplied | notRequired
  deriving DecidableEq

/-- The values of `reconciliation_state`. -/
inductive Verdict
  | aligned | vectorMissing | graphMissing | vectorExtra | graphExtra | scopeMismatch | payloadOrVersionMismatch
  | unknownOrUnverifiable
  deriving DecidableEq

/-- The fields of the metadata document that a reconciliation reads; a missing key is `none`. -/
structure Metadata where
  nodeId : String
  graphRequired : Option Bool
  canonicalAgentId : Option String
  payloadVersion : Option Int
  expectedVectorProjection : Option Bool
  expectedGraphProjection : Option Bool
  deriving DecidableEq

/-- A row of `lancedb_wal`. -/
structure WalEntry where
  id : String
  agentId : String
  /-- `none` when the text is no document with a node id. -/
  metadata : Option Metadata
  state : WalState
  claimToken : Option String
  claimedBy : Option String
  leaseExpiresAt : Option Nat
  attemptCount : Nat
  lastError : Option String
  vectorState : ProjectionState
  graphState : ProjectionState
  reconciliationState : Verdict
  fenceEpoch : Nat
  retryLimit : Nat
  deriving DecidableEq

instance : Keyed WalEntry String := ⟨WalEntry.id⟩

/-- A reconciliation that has read its entry and not yet written its verdict. -/
structure Reading where
  walId : String
  workerId : String
  claimToken : String
  entry : WalEntry
  metadata : Metadata
  deriving DecidableEq

structure Store where
  now : Nat
  wal : Table WalEntry
  readings : List Reading

def Store.empty : Store := ⟨0, .empty, []⟩

inductive WalError
  | valueError (message : String)
  | integrityError
  | badMetadata
  | provider (name : String)
  deriving DecidableEq

/-! ## Queueing -/

/-- A new entry, with the defaults of the table. -/
def queued (id agentId : String) (metadata : Metadata) : WalEntry where
  id := id
  agentId := agentId
  metadata := some metadata
  state := .pending
  claimToken := none
  claimedBy := none
  leaseExpiresAt := none
  attemptCount := 0
  lastError := none
  vectorState := .pending
  graphState := .notRequired
  reconciliationState := .unknownOrUnverifiable
  fenceEpoch := 0
  retryLimit := 3

/-- The metadata of a node that is inserted during the migration. -/
def nodeMetadata (nodeId agentId : String) (graphAttached : Bool) : Metadata where
  nodeId := nodeId
  graphRequired := some graphAttached
  canonicalAgentId := some agentId
  payloadVersion := some 1
  expectedVectorProjection := some true
  expectedGraphProjection := some graphAttached

/-- One row of `INSERT INTO lancedb_wal`. -/
def Store.queue (s : Store) (walId agentId nodeId : String) (graphAttached : Bool) : Except WalError Store :=
  if s.wal.hasKey walId then .error .integrityError
  else .ok { s with wal := s.wal.insertOrIgnore (queued walId agentId (nodeMetadata nodeId agentId graphAttached)) }

/-! ## Claims -/

/-- The condition of the claim statements. -/
def WalEntry.claimable (e : WalEntry) (now : Nat) : Bool :=
  e.state.open || (e.state = .claimed && e.leaseExpiresAt.any (· ≤ now))

@[reducible] def WalEntry.claim (e : WalEntry) (workerId claimToken : String) (lease : Nat) : WalEntry :=
  { e with
    state := .claimed
    claimToken := some claimToken
    claimedBy := some workerId
    leaseExpiresAt := some lease
    attemptCount := e.attemptCount + 1
    fenceEpoch := e.fenceEpoch + 1
    lastError := none }

/-- `ORDER BY id`. -/
def byId (l : List WalEntry) : List WalEntry := l.insertionSort fun x y => x.id ≤ y.id

/-- The entries that a claim of `limit` takes. -/
def Store.candidates (s : Store) (limit : Nat) : List String :=
  ((byId (s.wal.select (·.claimable s.now))).take limit).map (·.id)

/-- The entries after the claim. -/
def Store.claimed (s : Store) (workerId claimToken : String) (limit leaseSeconds : Nat) : Store :=
  let identifiers := s.candidates limit
  { s with
    wal := s.wal.update (fun e => e.id ∈ identifiers && e.claimable s.now)
      (·.claim workerId claimToken (s.now + leaseSeconds)) }

/-- The bounds of a claim. -/
def claimBounds (workerId : String) (limit leaseSeconds : Nat) : Bool :=
  workerId ≠ "" && (1 ≤ limit && limit ≤ 1000) && (1 ≤ leaseSeconds && leaseSeconds ≤ 3600)

/-- `claim_lancedb_wal_entries`: the claimed rows, and the ledger with them claimed. -/
def Store.claim (s : Store) (workerId claimToken : String) (limit leaseSeconds : Nat) :
    Except WalError (List WalEntry × Store) :=
  if claimBounds workerId limit leaseSeconds then
    let s' := s.claimed workerId claimToken limit leaseSeconds
    .ok (byId (s'.wal.select (·.id ∈ s.candidates limit)), s')
  else .error (.valueError "invalid WAL claim bounds.")

/-! ## Fenced statements -/

/-- The caller holds the claim of the entry. -/
def WalEntry.heldBy (e : WalEntry) (workerId claimToken : String) : Bool :=
  e.state = .claimed && e.claimedBy = some workerId && e.claimToken = some claimToken

/-- The caller holds the entry `walId`: the row count of every fenced statement. -/
def Store.holds (s : Store) (walId workerId claimToken : String) : Bool :=
  (s.wal.lookup walId).any (·.heldBy workerId claimToken)

/-- A statement on the entry `walId`, fenced by the claim. -/
def Store.fenced (s : Store) (walId workerId claimToken : String) (f : WalEntry → WalEntry)
    (hf : ∀ e, (f e).id = e.id := by intro _; rfl) : Store :=
  { s with wal := s.wal.update (fun e => e.id = walId && e.heldBy workerId claimToken) f hf }

/-- The entry without its claim, in another state. -/
@[reducible] def WalEntry.release (e : WalEntry) (state : WalState) : WalEntry :=
  { e with state, claimToken := none, claimedBy := none, leaseExpiresAt := none }

inductive Projection
  | vectorApplied | graphApplied | graphNotRequired
  deriving DecidableEq

def Projection.ofText : String → Option Projection
  | "VECTOR_APPLIED" => some .vectorApplied
  | "GRAPH_APPLIED" => some .graphApplied
  | "GRAPH_NOT_REQUIRED" => some .graphNotRequired
  | _ => none

@[reducible] def WalEntry.project (e : WalEntry) : Projection → WalEntry
  | .vectorApplied => { e with vectorState := .vectorApplied }
  | .graphApplied => { e with graphState := .graphApplied }
  | .graphNotRequired => { e with graphState := .notRequired }

theorem WalEntry.project_id (e : WalEntry) (p : Projection) : (e.project p).id = e.id := by
  cases p <;> rfl

/-- `record_lancedb_projection_state`. -/
def Store.record (s : Store) (walId workerId claimToken projection : String) : Except WalError Store :=
  match Projection.ofText projection with
  | none => .error (.valueError "unsupported projection state")
  | some p => .ok (s.fenced walId workerId claimToken (·.project p) fun e => e.project_id p)

/-- `_retry_lancedb_wal_entry`: the retry limit blocks the entry. -/
def Store.retry (s : Store) (walId workerId claimToken error : String) : Store :=
  s.fenced walId workerId claimToken fun e =>
    { e.release (if e.retryLimit ≤ e.attemptCount then .blocked else .retryPending) with
      lastError := some (String.ofList (error.toList.take 500)) }

/-! ## Reconciliation -/

/-- What the stores answer to a reconciliation: whether they have the node, or `none` when the call
raises. -/
structure Observation where
  graphAttached : Bool
  vector : Option Bool
  graph : Option Bool
  graphAgain : Option Bool
  deriving DecidableEq

/-- `_graph_has_wal_node`. -/
def Observation.graphHas (o : Observation) (answer : Option Bool) : Option Bool :=
  if o.graphAttached then answer else some false

/-- The result of the comparison, unless a store raises. -/
def compare (m : Metadata) (o : Observation) : Option Verdict := do
  let vectorPresent ← o.vector
  let graphPresent ← if m.graphRequired.getD false then o.graphHas o.graph else some true
  if !m.expectedVectorProjection.getD true && vectorPresent then some .vectorExtra
  else
    let graphExtra ← if m.expectedGraphProjection = some false && o.graphAttached then o.graphHas o.graphAgain
      else some false
    if graphExtra then some .graphExtra
    else if m.expectedVectorProjection.getD true && !vectorPresent then some .vectorMissing
    else if m.graphRequired.getD false && !graphPresent then some .graphMissing
    else some .aligned

/-- The verdict on the entry that was read. -/
def Reading.verdict (r : Reading) (o : Observation) : Verdict :=
  if r.metadata.canonicalAgentId.getD r.entry.agentId ≠ r.entry.agentId then .scopeMismatch
  else if r.metadata.payloadVersion.getD 1 ≠ 1 then .payloadOrVersionMismatch
  else (compare r.metadata o).getD .unknownOrUnverifiable

/-- The columns that a verdict sets: an aligned entry keeps its claim, every other one is released. -/
@[reducible] def WalEntry.reconcile (e : WalEntry) (read : WalEntry) (verdict : Verdict) : WalEntry :=
  match verdict with
  | .aligned => { e with
      state := .reconciled
      reconciliationState := .aligned
      vectorState := read.vectorState
      graphState := read.graphState }
  | .vectorMissing => { e.release .retryPending with
      reconciliationState := .vectorMissing
      vectorState := .pending
      graphState := read.graphState }
  | .graphMissing => { e.release .retryPending with
      reconciliationState := .graphMissing
      vectorState := read.vectorState
      graphState := .pending }
  | .scopeMismatch => { e.release .blocked with
      reconciliationState := .scopeMismatch
      vectorState := read.vectorState
      graphState := read.graphState }
  | verdict => { e.release .reconciliationRequired with
      reconciliationState := verdict
      vectorState := read.vectorState
      graphState := read.graphState }

theorem WalEntry.reconcile_id (e read : WalEntry) (v : Verdict) : (e.reconcile read v).id = e.id := by
  cases v <;> rfl

/-- `reconcile_lancedb_wal_entry` until it looks at the stores. -/
def Store.observe (s : Store) (walId workerId claimToken : String) : Except WalError Store :=
  match s.wal.lookup walId with
  | none => .error (.valueError "unknown WAL mutation")
  | some e =>
    match e.metadata with
    | none => .error .badMetadata
    | some m => .ok { s with readings := s.readings ++ [⟨walId, workerId, claimToken, e, m⟩] }

/-- The rest of the reconciliation `r`: the verdict is written where the claim is still held. -/
def Store.report (s : Store) (r : Reading) (o : Observation) : Store :=
  s.fenced r.walId r.workerId r.claimToken (·.reconcile r.entry (r.verdict o))
    fun e => e.reconcile_id r.entry (r.verdict o)

/-! ## Acknowledgement and recovery -/

/-- The caller holds a reconciled entry. -/
def WalEntry.alignedBy (e : WalEntry) (workerId claimToken : String) : Bool :=
  e.state = .reconciled && e.reconciliationState = .aligned && e.claimedBy = some workerId &&
    e.claimToken = some claimToken

/-- `ack_lancedb_wal_entry`. -/
def Store.ack (s : Store) (walId workerId claimToken : String) : Store :=
  { s with wal := s.wal.update (fun e => e.id = walId && e.alignedBy workerId claimToken) (·.release .acked) }

/-- `recover_expired_lancedb_wal_claims`. -/
def Store.recover (s : Store) : Store :=
  { s with
    wal := s.wal.update (fun e => e.state = .claimed && e.leaseExpiresAt.any (· ≤ s.now))
      (·.release .retryPending) }

/-! ## Calls -/

/-- A row of an insert into the ledger. -/
structure QueueRow where
  walId : String
  agentId : String
  nodeId : String
  graphAttached : Bool

inductive Call
  | queue (rows : List QueueRow)
  | claim (workerId claimToken : String) (limit leaseSeconds : Nat)
  | record (walId workerId claimToken projection : String)
  | retry (walId workerId claimToken error : String)
  | observe (walId workerId claimToken : String)
  /-- The reconciliation with number `reading` writes its verdict. -/
  | report (reading : Nat) (observation : Observation)
  | ack (walId workerId claimToken : String)
  | recover
  /-- The worker dies: its reconciliations are never finished. -/
  | crash (workerId : String)
  | clock (now : Nat)

def transact (s : Store) : Call → Except WalError Store
  | .queue rows => foldOk (fun s r => s.queue r.walId r.agentId r.nodeId r.graphAttached) s rows
  | .claim w t limit lease => (s.claim w t limit lease).map (·.2)
  | .record id w t p => s.record id w t p
  | .retry id w t e => .ok (s.retry id w t e)
  | .observe id w t => s.observe id w t
  | .report i o =>
    match s.readings[i]? with
    | none => .ok s
    | some r => .ok { s.report r o with readings := s.readings.eraseIdx i }
  | .ack id w t => .ok (s.ack id w t)
  | .recover => .ok s.recover
  | .crash w => .ok { s with readings := s.readings.filter (·.workerId ≠ w) }
  | .clock t => .ok { s with now := t }

/-- A call that raises leaves the ledger as it was. -/
def exec (s : Store) (c : Call) : Store := orKeep s (transact s c)

/-! ## Replay -/

/-- What the stores do while a worker replays one entry: the error they raise, if any. -/
structure StoreAnswers where
  upsert : Option String
  insertNode : Option String
  observation : Observation

/-- One part of a replay and, when it says so, the rest. -/
def andThen (r : Except WalError Bool × Store) (rest : Store → Except WalError Bool × Store) :
    Except WalError Bool × Store :=
  match r with
  | (.ok true, s) => rest s
  | r => r

/-- Record a projection; the worker goes on while it holds the claim. -/
def recorded (s : Store) (walId workerId claimToken projection : String) : Except WalError Bool × Store :=
  match s.record walId workerId claimToken projection with
  | .ok s' => (.ok (s.holds walId workerId claimToken), s')
  | .error e => (.error e, s)

/-- The vector part of the replay. -/
def applyVector (s : Store) (e : WalEntry) (workerId claimToken : String) (a : StoreAnswers) :
    Except WalError Bool × Store :=
  if e.vectorState = .vectorApplied then (.ok true, s)
  else
    match a.upsert with
    | some error => (.error (.provider error), s.retry e.id workerId claimToken error)
    | none => recorded s e.id workerId claimToken "VECTOR_APPLIED"

/-- The graph part of the replay. -/
def applyGraph (s : Store) (e : WalEntry) (m : Metadata) (workerId claimToken : String) (a : StoreAnswers) :
    Except WalError Bool × Store :=
  if m.graphRequired.getD false then
    if e.graphState = .graphApplied then (.ok true, s)
    else if !a.observation.graphAttached then
      (.error (.provider "RuntimeError"), s.retry e.id workerId claimToken "GraphProviderUnavailable")
    else
      match a.insertNode with
      | some error => (.error (.provider error), s.retry e.id workerId claimToken error)
      | none => recorded s e.id workerId claimToken "GRAPH_APPLIED"
  else if e.graphState = .notRequired then (.ok true, s)
  else recorded s e.id workerId claimToken "GRAPH_NOT_REQUIRED"

/-- `reconcile_lancedb_wal_entry` without an interruption, and whether it reports `ALIGNED`. -/
def reconcile (s : Store) (walId workerId claimToken : String) (o : Observation) : Except WalError Bool × Store :=
  match s.wal.lookup walId with
  | none => (.error (.valueError "unknown WAL mutation"), s)
  | some e =>
    match e.metadata with
    | none => (.error .badMetadata, s)
    | some m =>
      let r : Reading := ⟨walId, workerId, claimToken, e, m⟩
      (.ok (s.holds walId workerId claimToken && r.verdict o = .aligned), s.report r o)

/-- `replay_claimed_lancedb_wal_entry` without an interruption. -/
def replayClaimed (s : Store) (e : WalEntry) (workerId claimToken : String) (a : StoreAnswers) :
    Except WalError Bool × Store :=
  match e.metadata with
  | none => (.error .badMetadata, s)
  | some m =>
    andThen (applyVector s e workerId claimToken a) fun s =>
      andThen (applyGraph s e m workerId claimToken a) fun s =>
        andThen (reconcile s e.id workerId claimToken a.observation) fun s =>
          (.ok ((s.wal.lookup e.id).any (·.alignedBy workerId claimToken)), s.ack e.id workerId claimToken)

end Mesa.Wal
