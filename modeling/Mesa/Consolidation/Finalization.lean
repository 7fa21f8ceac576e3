/-
The journal of session finalizations. A row is claimed under a fencing token, and completed when every
raw log of its session is processed or rejected; the test is a prefix match on the status text, while
workers move the raw logs. A failed attempt blocks the row at its limit, an expired lease does not.
-/
import Mesa.Foundation.Run
import Mesa.Foundation.Table
import Mesa.Purge.Journal

namespace Mesa.Consolidation

open Mesa.Foundation

/-! ## Raw logs -/

inductive RawLogState
  | queued | deferred | processing | dispatched | processed | failed | rejected
  deriving DecidableEq

def RawLogState.text : RawLogState → String
  | .queued => "queued"
  | .deferred => "DEFERRED"
  | .processing => "processing"
  | .dispatched => "dispatched"
  | .processed => "processed"
  | .failed => "failed"
  | .rejected => "rejected"

/-- The status that a writer sets, with the reason that it appends. -/
structure RawLogStatus where
  state : RawLogState
  reason : Option String
  deriving DecidableEq

/-- `f"{status}:{error_reason}" if error_reason else status`. -/
def RawLogStatus.text (status : RawLogStatus) : String :=
  match status.reason.filter (· ≠ "") with
  | some reason => status.state.text ++ (":" ++ reason)
  | none => status.state.text

/-- A row of `raw_logs`; `session` is what `json_extract` finds in the payload. -/
structure RawLog where
  id : Nat
  agentId : String
  session : Option String
  status : RawLogStatus
  deriving DecidableEq

instance : Keyed RawLog Nat := ⟨RawLog.id⟩

/-- `LIKE 'start%'`, which ignores the case of ASCII letters. -/
def likePrefix (start text : String) : Bool := start.toList.isPrefixOf (text.toList.map Char.toLower)

/-- A raw log of this session that is neither processed nor rejected. -/
def RawLog.pending (agentId sessionId : String) (l : RawLog) : Bool :=
  decide (l.agentId = agentId ∧ l.session = some sessionId) &&
    (!likePrefix "processed" l.status.text && !likePrefix "rejected" l.status.text)

/-! ## The journal -/

inductive FinalizationState
  | pending | claimed | retryPending | completed | blocked
  deriving DecidableEq

/-- A row of `session_finalization_journal`. -/
structure Finalization where
  agentId : String
  sessionId : String
  finalizationId : String
  idempotencyKey : String
  state : FinalizationState
  attemptCount : Nat
  retryLimit : Nat
  claimToken : Option String
  claimedBy : Option String
  leaseExpiresAt : Option Nat
  lastErrorClass : Option String
  deriving DecidableEq

instance : Keyed Finalization (String × String) := ⟨fun r => (r.agentId, r.sessionId)⟩

/-- The two tables, and how often each session was claimed, which nothing reads. -/
structure FinalizationStore where
  journal : Table Finalization
  rawLogs : Table RawLog
  claims : String × String → Nat

def FinalizationStore.start (rawLogs : Table RawLog) : FinalizationStore := ⟨.empty, rawLogs, fun _ => 0⟩

def FinalizationStore.open (s : FinalizationStore) (agentId sessionId : String) : Bool :=
  s.rawLogs.anyWhere (RawLog.pending agentId sessionId)

/-- `request_session_finalization`. -/
def FinalizationStore.request (s : FinalizationStore) (agentId sessionId fresh : String) : FinalizationStore :=
  let idempotencyKey := "session-finalize:" ++ agentId ++ ":" ++ sessionId
  if ¬ Purge.validAgentId agentId ∨ sessionId = "" ∨ sessionId = "*" then s
  else if s.journal.hasKey (agentId, sessionId) then s
  else if s.journal.anyWhere fun r => decide (r.finalizationId = fresh ∨ r.idempotencyKey = idempotencyKey) then s
  else
    { s with
      journal := s.journal.insertOrIgnore
        { agentId, sessionId, finalizationId := fresh, idempotencyKey
          state := if s.open agentId sessionId then .pending else .completed
          attemptCount := 0, retryLimit := 3, claimToken := none, claimedBy := none, leaseExpiresAt := none,
          lastErrorClass := none } }

def Finalization.claimable (now : Nat) (r : Finalization) : Bool :=
  decide (r.state = .pending ∨ r.state = .retryPending) ||
    decide (r.state = .claimed) && r.leaseExpiresAt.any (· ≤ now)

def Finalization.claim (workerId token : String) (expires : Nat) (r : Finalization) : Finalization :=
  { r with
    state := .claimed, claimToken := some token, claimedBy := some workerId, leaseExpiresAt := some expires,
    attemptCount := r.attemptCount + 1, lastErrorClass := none }

/-- `claim_session_finalization`. -/
def FinalizationStore.claim (s : FinalizationStore) (agentId sessionId workerId token : String) (leaseSeconds now : Nat) :
    FinalizationStore :=
  let claimed : Finalization → Bool := fun r => decide (r.agentId = agentId ∧ r.sessionId = sessionId) && r.claimable now
  if ¬ Purge.validAgentId agentId ∨ workerId = "" ∨ ¬ (1 ≤ leaseSeconds ∧ leaseSeconds ≤ 3600) then s
  else
    { s with
      journal := s.journal.update claimed (Finalization.claim workerId token (now + leaseSeconds))
      claims := if s.journal.anyWhere claimed
        then Function.update s.claims (agentId, sessionId) (s.claims (agentId, sessionId) + 1) else s.claims }

/-- The fence of `complete` and `fail`. -/
def Finalization.heldBy (agentId sessionId workerId token : String) (r : Finalization) : Bool :=
  decide (r.agentId = agentId ∧ r.sessionId = sessionId ∧ r.state = .claimed ∧ r.claimedBy = some workerId ∧
    r.claimToken = some token)

def Finalization.complete (r : Finalization) : Finalization :=
  { r with state := .completed, claimToken := none, claimedBy := none, leaseExpiresAt := none }

/-- `complete_session_finalization`. -/
def FinalizationStore.complete (s : FinalizationStore) (agentId sessionId workerId token : String) : FinalizationStore :=
  if ¬ Purge.validAgentId agentId ∨ s.open agentId sessionId then s
  else { s with journal := s.journal.update (Finalization.heldBy agentId sessionId workerId token) Finalization.complete }

def Finalization.fail (errorClass : String) (r : Finalization) : Finalization :=
  { r with
    state := if r.retryLimit ≤ r.attemptCount then .blocked else .retryPending
    lastErrorClass := some (String.ofList (errorClass.toList.take 120))
    claimToken := none, claimedBy := none, leaseExpiresAt := none }

/-- `fail_session_finalization`. -/
def FinalizationStore.fail (s : FinalizationStore) (agentId sessionId workerId token errorClass : String) :
    FinalizationStore :=
  if ¬ Purge.validAgentId agentId then s
  else
    { s with
      journal := s.journal.update (Finalization.heldBy agentId sessionId workerId token) (Finalization.fail errorClass) }

/-- The calls of requesters and workers; between them the raw logs become what they like. -/
inductive FinalizationStep
  | request (agentId sessionId fresh : String)
  | claim (agentId sessionId workerId token : String) (leaseSeconds now : Nat)
  | complete (agentId sessionId workerId token : String)
  | fail (agentId sessionId workerId token errorClass : String)
  | logs (rawLogs : Table RawLog)

def FinalizationStore.exec (s : FinalizationStore) : FinalizationStep → FinalizationStore
  | .request agentId sessionId fresh => s.request agentId sessionId fresh
  | .claim agentId sessionId workerId token leaseSeconds now => s.claim agentId sessionId workerId token leaseSeconds now
  | .complete agentId sessionId workerId token => s.complete agentId sessionId workerId token
  | .fail agentId sessionId workerId token errorClass => s.fail agentId sessionId workerId token errorClass
  | .logs rawLogs => { s with rawLogs }

/-! ## The claim -/

/-- The worker and the token that a call presents. -/
def FinalizationStep.fence : FinalizationStep → Option (String × String × String × String)
  | .complete agentId sessionId workerId token | .fail agentId sessionId workerId token _ =>
    some (agentId, sessionId, workerId, token)
  | _ => none

/-- What is claimed of a step: a session has one row; it becomes completed only when all its raw logs are processed or
rejected, and stays completed; an old token changes nothing; and a session is claimed at most `retryLimit` times. -/
structure FinalizationStore.Proper (s : FinalizationStore) (step : FinalizationStep) : Prop where
  single : ∀ r ∈ (s.exec step).journal.rows, ∀ r' ∈ (s.exec step).journal.rows,
    r.agentId = r'.agentId → r.sessionId = r'.sessionId → r = r'
  enters : ∀ r ∈ (s.exec step).journal.rows, r.state = .completed → r ∈ s.journal.rows ∨
    (s.exec step).rawLogs = s.rawLogs ∧ ∀ l ∈ s.rawLogs.rows, l.agentId = r.agentId → l.session = some r.sessionId →
      l.status.state = .processed ∨ l.status.state = .rejected
  stays : ∀ r ∈ s.journal.rows, r.state = .completed → r ∈ (s.exec step).journal.rows
  fenced : ∀ agentId sessionId workerId token, step.fence = some (agentId, sessionId, workerId, token) →
    (∀ r, s.journal.lookup (agentId, sessionId) = some r → r.claimToken ≠ some token) → s.exec step = s
  bounded : ∀ r ∈ (s.exec step).journal.rows, (s.exec step).claims (r.agentId, r.sessionId) ≤ r.retryLimit

/-- An expired lease is taken over only while attempts are left. -/
def FinalizationStore.fit (s : FinalizationStore) : FinalizationStep → Bool
  | .claim agentId sessionId workerId _ leaseSeconds now =>
    decide (¬ Purge.validAgentId agentId ∨ workerId = "" ∨ ¬ (1 ≤ leaseSeconds ∧ leaseSeconds ≤ 3600)) ||
      (s.journal.lookup (agentId, sessionId)).all fun r =>
        decide (r.state = .claimed → r.claimable now = true → r.attemptCount < r.retryLimit)
  | _ => true

end Mesa.Consolidation
