/-
The bridge and its write spool. A tool call first sends what the spool holds and then goes to the gateway itself; a
write that the gateway cannot take now is put into the spool. Calls are tasks that interleave at their requests, and
what has been sent, accepted and answered is recorded beside the state, which does not read it.
-/
import Mesa.Foundation.Run
import Mesa.Foundation.Table
import Mesa.Rebuild.Payload

namespace Mesa.Gateway

open Mesa.Foundation

/-! ## Writes -/

inductive BridgeTool
  | health | recall | remember | improve | forget | getOperationStatus | unknown
  deriving DecidableEq

/-- The tools whose calls are put into the spool. -/
def BridgeTool.spools : BridgeTool → Bool
  | .remember | .improve => true
  | _ => false

/-- A JSON value: a text, or something else in its canonical form. -/
inductive ArgumentValue
  | text (value : String)
  | other (json : String)
  deriving DecidableEq

/-- The arguments of a tool call, with the other ones by name. -/
structure BridgeArguments where
  idempotencyKey : Option ArgumentValue
  others : List (String × ArgumentValue)
  deriving DecidableEq

/-- A tool with its arguments. -/
structure BridgeCall where
  tool : BridgeTool
  arguments : BridgeArguments
  deriving DecidableEq

/-- `str.strip`. -/
def stripText (s : String) : String := String.ofList (Rebuild.strip s.toList)

/-- `_required_idempotency_key`; none where it raises. -/
def requiredIdempotencyKey (a : BridgeArguments) : Option String :=
  match a.idempotencyKey with
  | some (.text value) => if stripText value = "" then none else some (stripText value)
  | _ => none

/-- `arguments["idempotency_key"] = idempotency_key`. -/
def BridgeCall.withKey (w : BridgeCall) (key : String) : BridgeCall :=
  { w with arguments := { w.arguments with idempotencyKey := some (.text key) } }

/-! ## The spool -/

inductive SpoolStatus
  | queued | completed
  deriving DecidableEq

/-- A row of `outbound_operations`, with its payload decrypted. -/
structure SpoolRow where
  operationId : Nat
  idempotencyKey : String
  write : BridgeCall
  status : SpoolStatus
  attemptCount : Nat
  nextAttemptAt : ℚ
  createdAt : ℚ
  deriving DecidableEq

/-- `idempotency_key TEXT UNIQUE NOT NULL`. -/
instance : Keyed SpoolRow String := ⟨SpoolRow.idempotencyKey⟩

abbrev EncryptedWriteSpool := Table SpoolRow

/-- `enqueue`: the spool, and the id of the row that has the key then. -/
def EncryptedWriteSpool.enqueue (spool : EncryptedWriteSpool) (uuid : Nat) (key : String) (w : BridgeCall) (now : ℚ) :
    EncryptedWriteSpool × Nat :=
  (spool.insertOrIgnore ⟨uuid, key, w, .queued, 0, 0, now⟩, ((spool.lookup key).map SpoolRow.operationId).getD uuid)

/-- A row as `pending` returns it. -/
structure PendingWrite where
  operationId : Nat
  idempotencyKey : String
  write : BridgeCall
  attempts : Nat
  deriving DecidableEq

def SpoolRow.pending (r : SpoolRow) : PendingWrite := ⟨r.operationId, r.idempotencyKey, r.write, r.attemptCount⟩

def EncryptedWriteSpool.pending (spool : EncryptedWriteSpool) (now : ℚ) : List PendingWrite :=
  ((spool.select fun r => r.status = .queued ∧ r.nextAttemptAt ≤ now).mergeSort
    fun r s => decide (r.createdAt ≤ s.createdAt)).map SpoolRow.pending

def EncryptedWriteSpool.complete (spool : EncryptedWriteSpool) (operationId : Nat) : EncryptedWriteSpool :=
  spool.update (fun r => r.operationId = operationId) fun r => { r with status := .completed }

/-- From this count on `2 ** attempts` is not a float. -/
def attemptLimit : Nat := 1024

/-- The delay of `retry`; none where the multiplication raises `OverflowError`. -/
def retryDelay (attempts : Nat) (jitter : ℚ) : Option ℚ :=
  if attempts < attemptLimit then some (min 30 (1 / 5 * 2 ^ attempts + jitter)) else none

/-- The assignments of `retry`. -/
def EncryptedWriteSpool.postpone (spool : EncryptedWriteSpool) (operationId attempts : Nat) (at' : ℚ) :
    EncryptedWriteSpool :=
  spool.update (fun r => r.operationId = operationId) fun r =>
    { r with attemptCount := attempts + 1, nextAttemptAt := at' }

/-! ## Calls -/

/-- Where a call is: at a spooled write, with those after it, or at its own request; and whether the request of the
one it is at has been sent. -/
inductive BridgePhase
  | draining (next : PendingWrite) (rest : List PendingWrite) (sent : Bool)
  | calling (sent : Bool)
  deriving DecidableEq

structure BridgeTask where
  call : Nat
  write : BridgeCall
  phase : BridgePhase
  deriving DecidableEq

instance : Keyed BridgeTask Nat := ⟨BridgeTask.call⟩

inductive BridgeAnswer
  | success
  | queuedOffline (operationId : Nat)
  | invalidArgument
  | notFound
  | gatewayError
  | internalError
  deriving DecidableEq

/-- A request is that of a call, or of a row of the spool. -/
inductive Sender
  | call (call : Nat)
  | spool (operationId : Nat)
  deriving DecidableEq

/-- A request that was sent, and whether it was sent for a row that was completed. -/
structure BridgeRequest where
  sender : Sender
  write : BridgeCall
  late : Bool
  deriving DecidableEq

/-- A write that was answered with `QUEUED_OFFLINE`. -/
structure QueuedWrite where
  call : Nat
  write : BridgeCall
  operationId : Nat
  deriving DecidableEq

/-- The bridge. A new operation id is one that was never drawn; the last five fields are not read. -/
structure Bridge where
  spool : EncryptedWriteSpool
  tasks : Table BridgeTask
  drawn : Nat
  calls : List BridgeCall
  requests : List BridgeRequest
  accepted : List BridgeCall
  queued : List QueuedWrite
  answers : List (Nat × BridgeAnswer)

def Bridge.start : Bridge := ⟨Table.empty, Table.empty, 0, [], [], [], [], []⟩

/-- The call ends. -/
def Bridge.finish (b : Bridge) (c : Nat) (answer : BridgeAnswer) : Bridge :=
  { b with tasks := b.tasks.delete fun t => t.call = c, answers := (c, answer) :: b.answers }

def Bridge.goTo (b : Bridge) (c : Nat) (w : BridgeCall) (phase : BridgePhase) : Bridge :=
  { b with tasks := (b.tasks.delete fun t => t.call = c).insertOrIgnore ⟨c, w, phase⟩ }

/-- What follows the drain. -/
def Bridge.serve (b : Bridge) (c : Nat) (w : BridgeCall) : Bridge :=
  match w.tool with
  | .unknown | .health => b.finish c .notFound
  | .getOperationStatus | .recall => b.goTo c w (.calling false)
  | .remember | .improve | .forget =>
    if (requiredIdempotencyKey w.arguments).isSome then b.goTo c w (.calling false) else b.finish c .invalidArgument

/-- The loop of `_drain_spool` over what is left of the rows. -/
def Bridge.drain (b : Bridge) (c : Nat) (w : BridgeCall) : List PendingWrite → Bridge
  | [] => b.serve c w
  | p :: rest => b.goTo c w (.draining p rest false)

/-- A tool call starts; `mesa_health` leaves the spool alone and does not fail. -/
def Bridge.call (b : Bridge) (w : BridgeCall) (now : ℚ) : Bridge :=
  let c := b.calls.length
  if w.tool = .health then { b with calls := b.calls ++ [w] }.finish c .success
  else { b with calls := b.calls ++ [w] }.drain c w (b.spool.pending now)

def Bridge.completed (b : Bridge) (operationId : Nat) : Bool :=
  b.spool.anyWhere fun r => r.operationId = operationId ∧ r.status = .completed

/-- The request of a task leaves the bridge. -/
def Bridge.send (b : Bridge) (c : Nat) : Bridge :=
  match b.tasks.lookup c with
  | some ⟨_, w, .draining p rest false⟩ =>
    { b with
      requests := ⟨.spool p.operationId, p.write.withKey p.idempotencyKey, b.completed p.operationId⟩ :: b.requests
    }.goTo c w (.draining p rest true)
  | some ⟨_, w, .calling false⟩ =>
    { b with requests := ⟨.call c, w, false⟩ :: b.requests }.goTo c w (.calling true)
  | _ => b

inductive GatewayOutcome
  | success
  | error (retryable : Bool)
  deriving DecidableEq

/-- The gateway's answer to a spooled write. -/
def Bridge.drained (b : Bridge) (c : Nat) (w : BridgeCall) (p : PendingWrite) (rest : List PendingWrite)
    (outcome : GatewayOutcome) (now jitter : ℚ) : Bridge :=
  match outcome with
  | .success =>
    { b with
      spool := b.spool.complete p.operationId
      accepted := p.write.withKey p.idempotencyKey :: b.accepted }.drain c w rest
  | .error false => b.drain c w rest
  | .error true =>
    match retryDelay p.attempts jitter with
    | some delay => { b with spool := b.spool.postpone p.operationId p.attempts (now + delay) }.drain c w rest
    | none => b.finish c .internalError

/-- The gateway's answer to the call itself. -/
def Bridge.called (b : Bridge) (c : Nat) (w : BridgeCall) (outcome : GatewayOutcome) (now : ℚ) : Bridge :=
  match outcome with
  | .success => { b with accepted := w :: b.accepted }.finish c .success
  | .error retryable =>
    match requiredIdempotencyKey w.arguments with
    | some key =>
      if retryable && w.tool.spools then
        let (spool, operationId) := b.spool.enqueue b.drawn key w now
        { b with spool, drawn := b.drawn + 1, queued := ⟨c, w, operationId⟩ :: b.queued }.finish c
          (.queuedOffline operationId)
      else b.finish c .gatewayError
    | none => b.finish c .gatewayError

/-- An outcome reaches a task. A request that was not sent has failed before, in the handshake. -/
def Bridge.receive (b : Bridge) (c : Nat) (outcome : GatewayOutcome) (now jitter : ℚ) : Bridge :=
  match b.tasks.lookup c with
  | some ⟨_, w, .draining p rest sent⟩ =>
    if outcome = .success ∧ sent = false then b else b.drained c w p rest outcome now jitter
  | some ⟨_, w, .calling sent⟩ => if outcome = .success ∧ sent = false then b else b.called c w outcome now
  | none => b

inductive BridgeStep
  | call (w : BridgeCall) (now : ℚ)
  | send (c : Nat)
  | receive (c : Nat) (outcome : GatewayOutcome) (now jitter : ℚ)
  /-- The client gives up a call. -/
  | cancel (c : Nat)
  | restart

def Bridge.exec (b : Bridge) : BridgeStep → Bridge
  | .call w now => b.call w now
  | .send c => b.send c
  | .receive c outcome now jitter => b.receive c outcome now jitter
  | .cancel c => { b with tasks := b.tasks.delete fun t => t.call = c }
  | .restart => { b with tasks := Table.empty }

end Mesa.Gateway
