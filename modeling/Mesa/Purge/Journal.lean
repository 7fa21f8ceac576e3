/-
The purge of an agent's memory. One transaction writes the exact targets to the journal and puts a
tombstone on each; afterwards a resume deletes the copies of the targets in the graph and in the
vector store, checks that they are gone, and records each result in the journal. A rollback takes
the tombstones away. Resumes and rollbacks run side by side, and every statement of theirs is a
transaction of its own, so the state has the threads in it and a step is one statement of one of
them.
-/
import Mesa.Foundation.Result
import Mesa.Foundation.Run
import Mesa.Foundation.Table

namespace Mesa.Purge

open Mesa.Foundation

/-! ## Tables -/

inductive PurgeState
  | prepared | tombstoned | kuzuApplied | vectorApplied | verified | finalized | retryPending | compensationRequired
  | blocked | failedSafe
  deriving DecidableEq

def PurgeState.text : PurgeState → String
  | .prepared => "PREPARED"
  | .tombstoned => "TOMBSTONED"
  | .kuzuApplied => "KUZU_APPLIED"
  | .vectorApplied => "VECTOR_APPLIED"
  | .verified => "VERIFIED"
  | .finalized => "FINALIZED"
  | .retryPending => "RETRY_PENDING"
  | .compensationRequired => "COMPENSATION_REQUIRED"
  | .blocked => "BLOCKED"
  | .failedSafe => "FAILED_SAFE"

/-- The values of `kuzu_result` and `vector_result`. -/
inductive StoreResult
  | pending | applied
  deriving DecidableEq

inductive Scope
  | agent | session
  deriving DecidableEq

/-- A row of `purge_journal`. -/
structure PurgeRecord where
  purgeId : String
  idempotencyKey : String
  principalId : String
  agentId : String
  scope : Scope
  sessionId : Option String
  targetNodeIds : List String
  state : PurgeState
  kuzuResult : StoreResult
  vectorResult : StoreResult
  retryCount : Nat
  lastError : Option String
  deriving DecidableEq

/-- A row of `nodes`: its owner and its tombstone. -/
structure Node where
  id : String
  agentId : String
  sessionId : String
  invalid : Bool
  deleted : Bool
  purgeId : Option String
  deriving DecidableEq

instance : Keyed PurgeRecord String := ⟨PurgeRecord.purgeId⟩
instance : Keyed Node String := ⟨Node.id⟩

/-! ## Secondary stores -/

inductive StoreKind
  | graph | vector
  deriving DecidableEq

/-- The copy of a node in one of the stores. -/
structure Copy where
  store : StoreKind
  agentId : String
  nodeId : String
  deriving DecidableEq

/-- The copies that the stores hold, and those that have been deleted from them. -/
structure Stores where
  held : List Copy
  erased : List Copy

/-- Delete the copies of some nodes of an agent; a node without a copy is no error. -/
def Stores.erase (s : Stores) (store : StoreKind) (agentId : String) (nodeIds : List String) : Stores :=
  let hit (c : Copy) : Bool := c.store = store && c.agentId = agentId && c.nodeId ∈ nodeIds
  { held := s.held.filter fun c => !hit c, erased := s.erased ++ s.held.filter hit }

/-- A copy of the node has been deleted from a store. -/
def Stores.lost (s : Stores) (agentId nodeId : String) : Bool :=
  s.erased.any fun c => c.agentId = agentId && c.nodeId = nodeId

/-! ## Threads -/

inductive PurgeError
  | valueError (message : String)
  | alreadyFinalized (message : String)
  | blocked (message : String)
  | retryPending (message : String)
  | assertion
  | integrityError
  | database (error : String)
  deriving DecidableEq

/-- What a call has read of its record first. -/
structure Target where
  purgeId : String
  agentId : String
  nodeIds : List String
  deriving DecidableEq

/-- The next statement of a resume that has read its record. -/
inductive Stage
  | kuzuDelete | kuzuVerify | kuzuAdvance | kuzuRetry (error : String)
  | readAgain
  | vectorDelete (rest : List String) | vectorAdvance | vectorRetry (error : String)
  | verified | finalized
  deriving DecidableEq

inductive Thread
  /-- A resume before its first read; `attached` says whether its process has both stores. -/
  | resuming (purgeId : String) (attached : Bool)
  | resumed (target : Target) (stage : Stage)
  | rollingBack (purgeId : String)
  /-- A rollback that has passed its check. -/
  | restoring (target : Target)
  | finished (result : Except PurgeError Nat)

/-- What a thread that has read its record works on. -/
def Thread.target : Thread → Option Target
  | .resumed t _ => some t
  | .restoring t => some t
  | _ => none

/-- The targets of a rollback that has passed its check. -/
def Thread.restores : Thread → Option Target
  | .restoring t => some t
  | _ => none

structure Purges where
  journal : Table PurgeRecord
  nodes : Table Node
  stores : Stores
  threads : List Thread

/-! ## The journal -/

/-- `_advance_purge`. -/
def Purges.advance (s : Purges) (purgeId : String) (state : PurgeState) (kuzuResult vectorResult : Option StoreResult) :
    Purges :=
  { s with
    journal := s.journal.update (·.purgeId = purgeId) fun r =>
      { r with
        state
        lastError := none
        kuzuResult := kuzuResult.getD r.kuzuResult
        vectorResult := vectorResult.getD r.vectorResult } }

/-- `_PURGE_MAX_RETRIES`. -/
def purgeMaxRetries : Nat := 3

/-- `_mark_purge_retry`. -/
def Purges.markRetry (s : Purges) (purgeId phase error : String) : Purges :=
  { s with
    journal := s.journal.update (·.purgeId = purgeId) fun r =>
      { r with
        state := if purgeMaxRetries ≤ r.retryCount + 1 then .blocked else .retryPending
        retryCount := r.retryCount + 1
        lastError := some s!"{phase}: {error}" } }

/-- A tombstone of the purge on one of its targets. -/
def Node.tombstoneOf (n : Node) (t : Target) : Bool :=
  n.purgeId = some t.purgeId && n.agentId = t.agentId && n.id ∈ t.nodeIds

/-- The transaction of `rollback_purge`. -/
def Purges.restore (s : Purges) (t : Target) : Purges :=
  { s with
    nodes := s.nodes.update (·.tombstoneOf t) fun n => { n with invalid := false, deleted := false, purgeId := none }
    journal := s.journal.update (·.purgeId = t.purgeId) fun r =>
      { r with state := .failedSafe, lastError := some "pre-downstream tombstone rollback" } }

/-- The check of `rollback_purge`. -/
def PurgeRecord.mayRollBack (r : PurgeRecord) : Bool :=
  r.state ∈ [PurgeState.prepared, .tombstoned, .retryPending] && r.kuzuResult = .pending && r.vectorResult = .pending

def PurgeRecord.target (r : PurgeRecord) : Target := ⟨r.purgeId, r.agentId, r.targetNodeIds⟩

/-! ## Statements of a thread -/

/-- What a statement meets: the error it raises, the nodes a deletion reached before its error, and
what a verification finds. -/
structure Outcome where
  error : Option String
  reached : List String
  absent : Bool

/-- The nodes that a deletion of `nodeIds` reaches. -/
def Outcome.reaches (o : Outcome) (nodeIds : List String) : List String :=
  if o.error.isNone then nodeIds else nodeIds.filter (· ∈ o.reached)

/-- The first statement of `resume_purge`. -/
def resumeRead (s : Purges) (purgeId : String) (attached : Bool) : Thread :=
  match s.journal.lookup purgeId with
  | none => .finished (.error (.valueError "unknown purge_id"))
  | some r =>
    if r.state = .finalized then .finished (.error (.alreadyFinalized "purge is already FINALIZED."))
    else if r.state ∈ [PurgeState.blocked, .compensationRequired, .failedSafe] then
      .finished (.error (.blocked s!"purge is not resumable from {r.state.text}."))
    else if !attached then .finished (.ok r.targetNodeIds.length)
    else if r.kuzuResult ≠ .applied then .resumed r.target .kuzuDelete
    else .resumed r.target .readAgain

/-- Where a resume goes when a statement in its error handlers raises. -/
def kuzuRaised (t : Target) (next : Stage) (error : Option String) : Thread :=
  .resumed t (match error with
    | some e => .kuzuRetry e
    | none => next)

def vectorRaised (t : Target) (next : Stage) (error : Option String) : Thread :=
  .resumed t (match error with
    | some e => .vectorRetry e
    | none => next)

/-- The error of a verification that finds a copy. -/
def Outcome.verification (o : Outcome) : Option String :=
  o.error.or (if o.absent then none else some "RuntimeError")

/-- One statement of a resume. -/
def resumeStep (s : Purges) (t : Target) (o : Outcome) : Stage → Purges × Thread
  | .kuzuDelete =>
    ({ s with stores := s.stores.erase .graph t.agentId (o.reaches t.nodeIds) }, kuzuRaised t .kuzuVerify o.error)
  | .kuzuVerify => (s, kuzuRaised t .kuzuAdvance o.verification)
  | .kuzuAdvance =>
    (if o.error.isNone then s.advance t.purgeId .kuzuApplied (some .applied) none else s,
      kuzuRaised t .readAgain o.error)
  | .kuzuRetry error =>
    match o.error with
    | some e => (s, .finished (.error (.database e)))
    | none =>
      (s.markRetry t.purgeId "kuzu" error, .finished (.error (.retryPending s!"Kuzu purge pending for {t.purgeId}")))
  | .readAgain =>
    match o.error, s.journal.lookup t.purgeId with
    | some e, _ => (s, .finished (.error (.database e)))
    | none, none => (s, .finished (.error .assertion))
    | none, some r => (s, .resumed t (if r.vectorResult ≠ .applied then .vectorDelete t.nodeIds else .verified))
  | .vectorDelete (n :: rest) =>
    ({ s with stores := s.stores.erase .vector t.agentId (o.reaches [n]) }, vectorRaised t (.vectorDelete rest) o.error)
  | .vectorDelete [] => (s, vectorRaised t .vectorAdvance o.verification)
  | .vectorAdvance =>
    (if o.error.isNone then s.advance t.purgeId .vectorApplied none (some .applied) else s,
      vectorRaised t .verified o.error)
  | .vectorRetry error =>
    match o.error with
    | some e => (s, .finished (.error (.database e)))
    | none =>
      (s.markRetry t.purgeId "vector" error,
        .finished (.error (.retryPending s!"vector purge pending for {t.purgeId}")))
  | .verified =>
    match o.error with
    | some e => (s, .finished (.error (.database e)))
    | none => (s.advance t.purgeId .verified none none, .resumed t .finalized)
  | .finalized =>
    match o.error with
    | some e => (s, .finished (.error (.database e)))
    | none => (s.advance t.purgeId .finalized none none, .finished (.ok t.nodeIds.length))

/-- The first statement of `rollback_purge`. -/
def rollbackRead (s : Purges) (purgeId : String) : Thread :=
  match s.journal.lookup purgeId with
  | none => .finished (.error (.valueError "unknown purge_id"))
  | some r =>
    if r.mayRollBack then .restoring r.target
    else .finished (.error (.blocked "purge compensation requires a verified pre-downstream snapshot."))

/-- The next statement of a thread. -/
def threadStep (s : Purges) (o : Outcome) : Thread → Purges × Thread
  | .resuming purgeId attached =>
    match o.error with
    | some e => (s, .finished (.error (.database e)))
    | none => (s, resumeRead s purgeId attached)
  | .resumed t stage => resumeStep s t o stage
  | .rollingBack purgeId =>
    match o.error with
    | some e => (s, .finished (.error (.database e)))
    | none => (s, rollbackRead s purgeId)
  | .restoring t =>
    match o.error with
    | some e => (s, .finished (.error (.database e)))
    | none => (s.restore t, .finished (.ok (s.nodes.select (·.tombstoneOf t)).length))
  | .finished result => (s, .finished result)

/-! ## Calls -/

/-- `str.isspace` of one character. -/
def isSpace (c : Char) : Bool :=
  c.toNat ∈ [32, 133, 160, 5760, 8232, 8233, 8239, 8287, 12288] || (9 ≤ c.toNat && c.toNat ≤ 13) ||
    (28 ≤ c.toNat && c.toNat ≤ 31) || (8192 ≤ c.toNat && c.toNat ≤ 8202)

/-- `_assert_valid_agent_id`. -/
def validAgentId (agentId : String) : Bool := agentId ∉ ["", "__unset__", "__system__"]

def Scope.ofText : String → Option Scope
  | "agent" => some .agent
  | "session" => some .session
  | _ => none

/-- The arguments of `purge_memory`, and the two ids it may draw. -/
structure PurgeRequest where
  agentId : String
  scope : String
  sessionId : Option String
  principalId : Option String
  idempotencyKey : Option String
  freshKey : String
  purgeId : String

/-- The checks of `purge_memory` before its transaction. -/
def PurgeRequest.validate (q : PurgeRequest) : Except PurgeError Scope :=
  if !validAgentId q.agentId then
    .error (.valueError s!"agent_id must be a non-empty, non-reserved identifier. Got: '{q.agentId}'")
  else
    match Scope.ofText q.scope with
    | none => .error (.valueError "scope must be exactly 'agent' or 'session'.")
    | some scope =>
      if scope = .session ∧ q.sessionId.getD "" ∈ ["", "*"] then
        .error (.valueError "session scope requires one exact non-wildcard session_id.")
      else if scope = .agent ∧ q.sessionId.isSome then
        .error (.valueError "agent scope must not carry a session_id.")
      else if q.idempotencyKey.any fun k => k.toList.all isSpace then
        .error (.valueError "idempotency_key must be non-empty when supplied.")
      else .ok scope

def PurgeRequest.key (q : PurgeRequest) : String := q.idempotencyKey.getD s!"purge:{q.freshKey}"

/-- A live node in the scope of the request. -/
def PurgeRequest.selects (q : PurgeRequest) (scope : Scope) (n : Node) : Bool :=
  n.agentId = q.agentId && (scope = .agent || some n.sessionId = q.sessionId) && !n.invalid && !n.deleted &&
    n.purgeId.isNone

/-- The new journal row of a purge, after its tombstones. -/
def PurgeRequest.record (q : PurgeRequest) (scope : Scope) (nodeIds : List String) : PurgeRecord where
  purgeId := q.purgeId
  idempotencyKey := q.key
  principalId := match q.principalId with
    | some p => if p = "" then "__internal__" else p
    | none => "__internal__"
  agentId := q.agentId
  scope := scope
  sessionId := q.sessionId
  targetNodeIds := nodeIds
  state := .tombstoned
  kuzuResult := .pending
  vectorResult := .pending
  retryCount := 0
  lastError := none

/-- The transaction of `purge_memory`: the purge to resume, or `none` when there is nothing to do. -/
def Purges.prepare (s : Purges) (q : PurgeRequest) (scope : Scope) : Except PurgeError (Option String × Purges) :=
  match s.journal.rows.find? (·.idempotencyKey = q.key) with
  | some r =>
    if r.agentId ≠ q.agentId ∨ r.scope ≠ scope ∨ r.sessionId ≠ q.sessionId then
      .error (.valueError "idempotency key cannot be reused for a different purge scope.")
    else if r.state = .finalized then .error (.alreadyFinalized "purge is already FINALIZED.")
    else .ok (some r.purgeId, s)
  | none =>
    let nodeIds := (s.nodes.select (q.selects scope)).map (·.id)
    if nodeIds = [] then .ok (none, s)
    else if s.journal.hasKey q.purgeId then .error .integrityError
    else
      .ok (some q.purgeId, { s with
        journal := s.journal.insertOrIgnore (q.record scope nodeIds)
        nodes := s.nodes.update
          (fun n => n.agentId = q.agentId && n.id ∈ nodeIds && !n.invalid && !n.deleted && n.purgeId.isNone)
          fun n => { n with invalid := true, deleted := true, purgeId := some q.purgeId } })

/-- The process that makes a call: whether it writes the secondary stores, and whether it has both. -/
structure Process where
  secondaryWrites : Bool
  attached : Bool

inductive Step
  | purge (request : PurgeRequest) (process : Process)
  | resume (purgeId : String) (process : Process)
  | rollback (purgeId : String)
  /-- The thread with number `i` makes its next statement. -/
  | statement (i : Nat) (outcome : Outcome)
  | crash (i : Nat)

/-- A call that begins with `t`. -/
def Purges.begin (s : Purges) (t : Thread) : Purges := { s with threads := s.threads ++ [t] }

/-- `purge_memory` until it resumes the purge. -/
def Purges.purge (s : Purges) (q : PurgeRequest) (p : Process) : Purges :=
  match q.validate with
  | .error e => s.begin (.finished (.error e))
  | .ok scope =>
    match s.prepare q scope with
    | .error e => s.begin (.finished (.error e))
    | .ok (none, s') => s'.begin (.finished (.ok 0))
    | .ok (some purgeId, s') =>
      if p.secondaryWrites then s'.begin (.resuming purgeId p.attached)
      else s'.begin (.finished ((s'.journal.lookup purgeId).elim (.error .assertion) fun r => .ok r.targetNodeIds.length))

def exec (s : Purges) : Step → Purges
  | .purge q p => s.purge q p
  | .resume purgeId p =>
    if p.secondaryWrites then s.begin (.resuming purgeId p.attached)
    else s.begin (.finished (.error (.blocked "this runtime is not the secondary-store writer")))
  | .rollback purgeId => s.begin (.rollingBack purgeId)
  | .statement i o =>
    match s.threads[i]? with
    | none => s
    | some t => { (threadStep s o t).1 with threads := s.threads.set i (threadStep s o t).2 }
  | .crash i => { s with threads := s.threads.set i (.finished (.error (.database "crash"))) }

end Mesa.Purge
