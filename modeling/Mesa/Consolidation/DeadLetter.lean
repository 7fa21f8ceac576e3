/-
The dead-letter queue of the consolidation. Its records are one file, which every operation replaces
under a lock by a rename; the receipts of completed items are a second file of lines, to which an
operation appends. A process can crash before the rename or after it, and anywhere in an append.
-/
import Mathlib.Data.Rat.Floor
import Mesa.Foundation.JsonLines
import Mesa.Foundation.Run
import Mesa.Foundation.Table

namespace Mesa.Consolidation

open Mesa.Foundation

/-! ## Records -/

/-- What an item says besides its place in the queue. -/
structure Payload where
  cmbId : Option String
  agentId : Option String
  tenantId : Option String
  dispatchId : Option String
  mutationId : Option String
  idempotencyKey : Option String
  deriving DecidableEq

inductive RecordState
  | pending | processing | blocked
  deriving DecidableEq

structure Record where
  queueId : String
  payload : Payload
  state : RecordState
  attemptCount : Nat
  claimedBy : Option String
  claimToken : Option String
  leaseExpiresAt : Option ℚ
  lastErrorType : Option String
  deriving DecidableEq

instance : Keyed Record String := ⟨Record.queueId⟩

/-- `_normalize` of a new item, with the id that it gets if it has none. -/
def normalize (queueId : Option String) (payload : Payload) (fresh : String) : Record where
  queueId := queueId.getD fresh
  payload := payload
  state := .pending
  attemptCount := 0
  claimedBy := none
  claimToken := none
  leaseExpiresAt := none
  lastErrorType := none

/-- `_MAX_ATTEMPTS`. -/
def maxAttempts : Nat := 4

/-- `_expired`; no lease is an expired one. -/
def expired (lease : Option ℚ) (now : ℚ) : Bool := lease.all fun l => decide (l ≤ now)

def Record.eligible (now : ℚ) (r : Record) : Bool :=
  decide (r.state = .pending) || (decide (r.state = .processing) && expired r.leaseExpiresAt now)

def Record.claim (workerId claimToken : String) (leaseExpiresAt : ℚ) (r : Record) : Record :=
  { r with
    state := .processing
    claimedBy := some workerId
    claimToken := some claimToken
    leaseExpiresAt := some leaseExpiresAt
    attemptCount := r.attemptCount + 1 }

def Record.ownedBy (workerId : String) (r : Record) : Bool :=
  decide (r.state = .processing) && decide (r.claimedBy = some workerId)

/-- The queue id and the claim token that a caller gives back. -/
abbrev Identity := Option String × Option String

def Record.identity (r : Record) : Identity := (some r.queueId, r.claimToken)

def Record.nack (errorType : String) (r : Record) : Record :=
  { r with
    lastErrorType := some (String.ofList (errorType.toList.take 80))
    claimedBy := none
    claimToken := none
    leaseExpiresAt := none
    state := if maxAttempts ≤ r.attemptCount then .blocked else .pending }

/-! ## Receipts -/

/-- A text that is not empty. -/
def truthy (s : Option String) : Option String := s.filter (· ≠ "")

def textOrNull (s : Option String) : Json.Value := s.elim .null .string

/-- The receipt of `_write_completion_receipt_locked`, with its keys in order. -/
def completionReceipt (claim : Record) (workerId outcome receiptId : String) (completedAt : Json.Number) : Json.Object :=
  [("agent_id", textOrNull claim.payload.agentId),
    ("attempt_number", .number (.ofNat claim.attemptCount)),
    ("claim_token", textOrNull claim.claimToken),
    ("completed_at", .number completedAt),
    ("dispatch_id", .string (claim.payload.dispatchId.getD claim.queueId)),
    ("error_class", .null),
    ("idempotency_key", .string ((truthy claim.payload.idempotencyKey).getD ("dlq:" ++ claim.queueId))),
    ("mutation_id", .string
      (((truthy claim.payload.mutationId).or (truthy claim.payload.idempotencyKey)).getD claim.queueId)),
    ("outcome", .string outcome),
    ("queue_record_id", .string claim.queueId),
    ("receipt_id", .string receiptId),
    ("receipt_version", .number (.ofNat 1)),
    ("side_effect_verification", .bool true),
    ("tenant_id", textOrNull ((truthy claim.payload.tenantId).or claim.payload.agentId)),
    ("worker_id", .string workerId)]

/-- The line that is appended for a receipt. -/
def receiptLine (receipt : Json.Object) : List Char := Json.dumps receipt ++ ['\n']

/-- `_read_completion_receipts`, or `none` when a line is not an object and it raises. -/
def readCompletionReceipts (text : List Char) : Option (List Json.Object) :=
  ((Json.lines text).filter fun line => !line.all Json.isBlank).mapM Json.loads

/-- The receipts name this item. -/
def receipted (receipts : List Json.Object) (queueId : String) : Bool :=
  decide (queueId ≠ "") && receipts.any fun r => r.get "queue_record_id" = some (.string queueId)

/-! ## Operations -/

/-- The two files. The last two fields, which nothing reads, are the claims that there were and how
often each item was handed out. -/
structure Queue where
  requireCompletionReceipt : Bool
  records : Table Record
  receipts : List Char
  issued : List (String × String)
  handed : String → Nat

def Queue.start (requireCompletionReceipt : Bool) : Queue :=
  ⟨requireCompletionReceipt, .empty, [], [], fun _ => 0⟩

/-- How far a process gets with the file of the records. -/
inductive Fate
  | returns | crashesBefore | crashesAfter
  deriving DecidableEq

/-- `_rewrite_locked`: the file is the old one or the new one. -/
def Queue.rewrite (s : Queue) (fate : Fate) (t : Queue) : Queue :=
  match fate with
  | .crashesBefore => s
  | .returns | .crashesAfter => t

/-- `append`. -/
def Queue.append (s : Queue) (queueId : Option String) (payload : Payload) (fresh : String) (full : Bool)
    (fate : Fate) : Queue :=
  let record := normalize queueId payload fresh
  if full ∨ s.records.hasKey record.queueId then s
  else s.rewrite fate { s with
    records := s.records.insertOrIgnore record
    handed := Function.update s.handed record.queueId 0 }

/-- The counts after a claim, which hands its records out if it returns. -/
def handedOut (fate : Fate) (ids : List String) (handed : String → Nat) (id : String) : Nat :=
  if fate = .returns ∧ id ∈ ids then handed id + 1 else handed id

/-- The records that a claim takes. -/
def Queue.chosen (s : Queue) (limit : Nat) (now : ℚ) : List Record := (s.records.select (·.eligible now)).take limit

/-- `_claim`, with a token for each record; no token is drawn twice. -/
def Queue.claim (s : Queue) (workerId : String) (limit leaseSeconds : Nat) (now : ℚ) (tokens : String → String)
    (fate : Fate) : Queue :=
  let ids := (s.chosen limit now).map (·.queueId)
  if workerId = "" ∨ ¬ (1 ≤ limit ∧ limit ≤ 1000) ∨ ¬ (1 ≤ leaseSeconds ∧ leaseSeconds ≤ 3600) then s
  else if ∃ id ∈ ids, (id, tokens id) ∈ s.issued then s
  else s.rewrite fate { s with
    records := s.records.update (fun r => decide (r.queueId ∈ ids))
      fun r => r.claim workerId (tokens r.queueId) (now + leaseSeconds)
    issued := ids.map (fun id => (id, tokens id)) ++ s.issued
    handed := handedOut fate ids s.handed }

/-- The receipts that an acknowledgement needs are there and can be read. -/
def Queue.acknowledges (s : Queue) (items : List Identity) : Bool :=
  !s.requireCompletionReceipt || (readCompletionReceipts s.receipts).any fun receipts =>
    items.all fun i => i.1.any (receipted receipts)

/-- `_ack`. -/
def Queue.ack (s : Queue) (items : List Identity) (workerId : String) (fate : Fate) : Queue :=
  if items = [] then s
  else if ¬ ∀ i ∈ items, i ∈ (s.records.select (·.ownedBy workerId)).map Record.identity then s
  else if !s.acknowledges items then s
  else s.rewrite fate { s with records := s.records.delete fun r => decide (r.identity ∈ items) }

/-- The record that a completion is about. -/
def Queue.completing (s : Queue) (item : Identity) (workerId : String) : Option Record :=
  s.records.rows.find? fun r => decide (r.identity = item) && r.ownedBy workerId

/-- What `_complete` is called with, and what it draws. -/
structure Completion where
  item : Identity
  workerId : String
  outcome : String
  sideEffectVerified : Bool
  receiptId : String
  completedAt : Json.Number

def Completion.line (c : Completion) (claim : Record) : List Char :=
  receiptLine (completionReceipt claim c.workerId c.outcome c.receiptId c.completedAt)

/-- `_complete`; `kept` is how much of the line a crash in the append leaves. -/
def Queue.complete (s : Queue) (c : Completion) (kept : Option Nat) (fate : Fate) : Queue :=
  if !c.sideEffectVerified then s
  else
    match s.completing c.item c.workerId, readCompletionReceipts s.receipts with
    | some claim, some receipts =>
      if receipted receipts claim.queueId then
        s.rewrite fate { s with records := s.records.delete fun r => decide (r.queueId = claim.queueId) }
      else
        match kept with
        | some n => { s with receipts := s.receipts ++ (c.line claim).take n }
        | none => Queue.rewrite { s with receipts := s.receipts ++ c.line claim } fate
            { s with
              receipts := s.receipts ++ c.line claim
              records := s.records.delete fun r => decide (r.queueId = claim.queueId) }
    | _, _ => s

/-- `_nack`. -/
def Queue.nack (s : Queue) (items : List Identity) (workerId errorType : String) (fate : Fate) : Queue :=
  if items = [] then s
  else if (∀ i ∈ items, i ∈ s.records.rows.map Record.identity) ∧
      ∀ r ∈ s.records.rows, r.identity ∈ items → r.ownedBy workerId = true then
    s.rewrite fate { s with
      records := s.records.update (fun r => decide (r.identity ∈ items)) (·.nack errorType) }
  else s

/-! ## Runs -/

inductive QueueStep
  | append (queueId : Option String) (payload : Payload) (fresh : String) (full : Bool) (fate : Fate)
  | claim (workerId : String) (limit leaseSeconds : Nat) (now : ℚ) (tokens : String → String) (fate : Fate)
  | ack (items : List Identity) (workerId : String) (fate : Fate)
  | complete (completion : Completion) (kept : Option Nat) (fate : Fate)
  | nack (items : List Identity) (workerId errorType : String) (fate : Fate)

def Queue.exec (s : Queue) : QueueStep → Queue
  | .append queueId payload fresh full fate => s.append queueId payload fresh full fate
  | .claim workerId limit leaseSeconds now tokens fate => s.claim workerId limit leaseSeconds now tokens fate
  | .ack items workerId fate => s.ack items workerId fate
  | .complete completion kept fate => s.complete completion kept fate
  | .nack items workerId errorType fate => s.nack items workerId errorType fate

end Mesa.Consolidation
