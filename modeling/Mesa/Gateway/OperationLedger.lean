/-
Write operations of the gateway. A tool call, the worker that runs approved operations and a status poll
are tasks that go on from await to await; between two of their steps the other tasks, the operators and
the expiry of approvals go on. A step is one transaction of the control database or one call of the backend.
-/
import Mesa.Foundation.JsonLines
import Mesa.Foundation.Result
import Mesa.Foundation.Table
import Mesa.Gateway.Breaker

namespace Mesa.Gateway

open Mesa.Foundation

/-! ## Policy -/

/-- `_WRITE_TOOLS`. -/
inductive WriteTool
  | mesaRemember | mesaImprove | mesaForget
  deriving DecidableEq

/-- `_POLICY_OPERATIONS`. -/
def WriteTool.policyOperation : WriteTool → String
  | .mesaRemember => "WRITE"
  | .mesaImprove => "UPDATE"
  | .mesaForget => "DELETE"

structure PolicyRule where
  ruleId : String
  scopeType : String
  scopeId : Option String
  operation : String
  effect : String
  priority : Int

def PolicyRule.applies (r : PolicyRule) (clientId projectId operation : String) : Bool :=
  decide (r.operation = operation) && (decide (r.scopeType = "GLOBAL") ||
    decide (r.scopeType = "CLIENT" ∧ r.scopeId = some clientId) ||
    decide (r.scopeType = "PROJECT" ∧ r.scopeId = some projectId))

/-- What `sort(key=(priority, rule_id), reverse=True)` puts first. -/
def firstRule : List PolicyRule → Option PolicyRule
  | [] => none
  | r :: rules =>
    match firstRule rules with
    | none => some r
    | some top =>
      if r.priority < top.priority ∨ (r.priority = top.priority ∧ r.ruleId < top.ruleId) then some top else some r

/-- The rules and the settings. -/
structure Policy where
  rules : List PolicyRule
  setting : String → Option String

/-- The effect of the rules that match, if some do. -/
def Policy.ruled (p : Policy) (clientId projectId operation : String) : Option String :=
  (firstRule (p.rules.filter (·.applies clientId projectId operation))).map (·.effect)

def settingKey (operation : String) : Option String :=
  if operation = "WRITE" ∨ operation = "UPDATE" then some "writes.default_policy"
  else if operation = "DELETE" then some "deletes.default_policy"
  else none

def safestDefault (operation : String) : String :=
  if operation ∈ ["HEALTH", "READ", "SEARCH", "CONTEXT", "GRAPH_PROCESS", "VECTOR_INDEX"] then "ALLOW"
  else if operation ∈ ["WRITE", "UPDATE", "DELETE", "REPLAY", "VIEW_RAW_CONTENT"] then "REQUIRE_APPROVAL"
  else "DENY"

/-- The effect when no rule matches. -/
def Policy.defaulted (p : Policy) (operation : String) : String :=
  match (settingKey operation).bind p.setting with
  | some value => if value = "" then safestDefault operation else value
  | none => safestDefault operation

/-! ## Tables -/

inductive OperationStatus
  | created | pendingApproval | approved | dispatching | submitted | processing | accepted
  | committed | rejected | denied | failed
  deriving DecidableEq

/-- `terminal`. -/
def OperationStatus.terminal (status : OperationStatus) : Bool :=
  decide (status ∈ [.committed, .rejected, .denied, .failed])

/-- The statuses that `_refresh_operation_finality` synchronizes. -/
def OperationStatus.refreshed (status : OperationStatus) : Bool :=
  decide (status ∈ [.submitted, .processing, .accepted])

/-- A row of `mcp_operations`; `B` are encrypted payloads. -/
structure McpOperation (B : Type) where
  operationId : String
  clientId : String
  bindingId : String
  connectionId : String
  toolName : WriteTool
  idempotencyKey : String
  payloadHash : String
  payloadEncrypted : B
  status : OperationStatus
  approvalId : Option String
  mutationId : Option String
  response : Option Json.Object
  errorCode : Option String
  errorMessage : Option String
  completed : Bool

inductive ApprovalStatus
  | pending | approved | rejected | expired
  deriving DecidableEq

/-- A row of `mcp_approval_requests`. -/
structure Approval where
  approvalId : String
  callId : String
  clientId : String
  operation : String
  status : ApprovalStatus
  payloadHash : String
  requestedAt : Int
  deriving DecidableEq

variable {P B : Type}

instance : Keyed (McpOperation B) String := ⟨McpOperation.operationId⟩
instance : Keyed Approval String := ⟨Approval.approvalId⟩

/-- The columns that `_set_operation` and `_transition_operation` assign; none keeps a column. -/
structure Assignment where
  status : OperationStatus
  approvalId : Option String := none
  mutationId : Option String := none
  response : Option Json.Object := none
  errorCode : Option String := none
  errorMessage : Option String := none

def McpOperation.set (u : Assignment) (o : McpOperation B) : McpOperation B :=
  { o with
    status := u.status
    approvalId := u.approvalId.or o.approvalId
    mutationId := u.mutationId.or o.mutationId
    response := (u.response.filter (· ≠ [])).or o.response
    errorCode := u.errorCode.or o.errorCode
    errorMessage := u.errorMessage.or o.errorMessage
    completed := u.status.terminal }

/-- The handler of an `MCPError`. -/
def MCPError.failure (exc : MCPError) : Assignment :=
  { status := .failed, errorCode := some exc.code, errorMessage := some exc.message }

/-! ## Tasks -/

structure ProjectBinding where
  bindingId : String
  externalProjectId : String
  tenantId : String
  workspaceId : String
  datasetId : String

/-- A call of a write tool whose scope has been found. `principalBinding` is the binding of the credential
for `call_tool_for_principal`. -/
structure ToolCall (P : Type) where
  clientId : String
  connectionId : String
  toolName : WriteTool
  arguments : P
  binding : ProjectBinding
  principalId : String
  principalBinding : Option String

/-- Why an operation is run. -/
inductive Warrant
  | effect (effect : String)
  | approval (approval : Approval)

/-- What follows `_set_operation`. -/
inductive Continuation
  | status (clientId : String) (bindingId : Option String)
  | raise (exc : MCPError)
  | reread
  | next

/-- What a task does next. Operations and approvals in it are rows as they were read. -/
inductive Phase (P B : Type)
  | creating (c : ToolCall P)
  | evaluating (c : ToolCall P) (op : McpOperation B)
  | defaulting (c : ToolCall P) (op : McpOperation B)
  | requesting (c : ToolCall P) (op : McpOperation B)
  | scanning
  | next
  | deciding (op : McpOperation B) (approval : Approval)
  | mismatched (op : McpOperation B)
  | claiming (op : McpOperation B) (approval : Approval)
  | scoping (op : McpOperation B) (approval : Approval)
  | running (op : McpOperation B) (binding : ProjectBinding) (principalId : String) (warrant : Warrant)
  | writing (op : McpOperation B)
  | setting (operationId : String) (u : Assignment) (continuation : Continuation)
  | reading (clientId : String) (bindingId : Option String) (operationId : String)
  | asking (op : McpOperation B) (mutationId : String)
  | rereading (operationId : String)

/-- A call or a poll, or a run of `process_approved_operations` with the rows it has not come to. -/
inductive Caller (B : Type)
  | request
  | worker (rest : List (McpOperation B))

/-- A task; `seen` is not read: the status that the task has last read or written. -/
structure OperationTask (P B : Type) where
  caller : Caller B
  phase : Phase P B
  seen : OperationStatus

/-- A write that was handed to the backend. The last three fields are not sent: what the policy evaluated to for
the call, the approval recorded on the operation, and its payload hash, at that moment. -/
structure IssuedWrite (P : Type) where
  operationId : String
  toolName : WriteTool
  tenantId : String
  workspaceId : String
  datasetId : String
  actorId : String
  idempotencyKey : String
  payload : P
  effect : Option String
  recorded : Option Approval
  payloadHash : Option String

/-- The control database, the tasks, and the writes so far, which nothing reads. -/
structure OperationService (P B : Type) where
  operations : Table (McpOperation B)
  approvals : Table Approval
  policy : Policy
  tasks : Nat → Option (OperationTask P B)
  issued : List (IssuedWrite P)

/-- What a V4 mutation is reported as. -/
structure MutationReport where
  state : String
  rejectionReason : Option String

/-- The functions on payloads. `idempotencyKey` is the key after the arguments are validated; `provenance` and
`required` raise what `_run_operation` raises before and after the breaker admits the call. -/
structure GatewayEnv (P B : Type) where
  encrypt : P → B
  decrypt : B → P
  payloadHash : P → String
  idempotencyKey : P → Except MCPError String
  provenance : WriteTool → P → Except MCPError Unit
  required : WriteTool → P → Except MCPError Unit
  upper : String → String

/-- What a task gets from outside: a fresh uuid, the clock, the scope of an operation, the breaker, and the backend. -/
structure Answer where
  fresh : String
  now : Int
  scope : Option (ProjectBinding × String)
  admitted : Except MCPError Unit
  response : Except MCPError Json.Object
  mutation : Except MCPError MutationReport

/-! ## Statements -/

/-- `_set_operation`: whatever the status is. -/
def OperationService.setOperation (s : OperationService P B) (operationId : String) (u : Assignment) :
    OperationService P B :=
  { s with operations := s.operations.update (fun o => decide (o.operationId = operationId)) (McpOperation.set u) }

/-- `_transition_operation`: only from this status. -/
def OperationService.transitionOperation (s : OperationService P B) (operationId : String)
    (expected : OperationStatus) (u : Assignment) : OperationService P B × Bool :=
  let expects : McpOperation B → Bool := fun o => decide (o.operationId = operationId ∧ o.status = expected)
  ({ s with operations := s.operations.update expects (McpOperation.set u) }, s.operations.anyWhere expects)

/-- The task goes on with another step. -/
def OperationTask.goTo (task : OperationTask P B) (phase : Phase P B) : OperationTask P B := { task with phase }

/-- A call returns; the worker comes to its next row. -/
def OperationTask.returned (task : OperationTask P B) : Option (OperationTask P B) :=
  match task.caller with
  | .request => none
  | .worker _ => some (task.goTo .next)

/-- A call raises; the worker handles the error. -/
def OperationTask.raised (task : OperationTask P B) (operationId : String) (exc : MCPError) :
    Option (OperationTask P B) :=
  match task.caller with
  | .request => none
  | .worker _ => some (task.goTo (.setting operationId exc.failure .next))

/-- The service and the task after a step of it; a task that has ended is none. -/
abbrev Advanced (P B : Type) := OperationService P B × Option (OperationTask P B)

/-! ## Calls -/

/-- The row that has the unique columns of a call. -/
def ToolCall.owns (c : ToolCall P) (key : String) (o : McpOperation B) : Bool :=
  decide (o.clientId = c.clientId ∧ o.bindingId = c.binding.bindingId ∧ o.toolName = c.toolName ∧
    o.idempotencyKey = key)

/-- The table after `INSERT OR IGNORE INTO mcp_operations`. -/
def OperationService.inserted (env : GatewayEnv P B) (s : OperationService P B) (c : ToolCall P) (key fresh : String) :
    Table (McpOperation B) :=
  if s.operations.anyWhere (c.owns key) then s.operations
  else s.operations.insertOrIgnore
    { operationId := fresh, clientId := c.clientId, bindingId := c.binding.bindingId, connectionId := c.connectionId,
      toolName := c.toolName, idempotencyKey := key, payloadHash := env.payloadHash c.arguments,
      payloadEncrypted := env.encrypt c.arguments, status := .created, approvalId := none, mutationId := none,
      response := none, errorCode := none, errorMessage := none, completed := false }

/-- `_create_operation` and the branch on its status. -/
def OperationService.createOperation (env : GatewayEnv P B) (s : OperationService P B) (task : OperationTask P B)
    (c : ToolCall P) (a : Answer) : Advanced P B :=
  match env.idempotencyKey c.arguments with
  | .error _ => (s, none)
  | .ok key =>
    let s' := { s with operations := s.inserted env c key a.fresh }
    match s'.operations.rows.find? (c.owns key) with
    | none => (s', none)
    | some op =>
      if op.payloadHash ≠ env.payloadHash c.arguments then (s', none)
      else if op.status ≠ .created then
        (s', some { task with phase := .reading c.clientId c.principalBinding op.operationId, seen := op.status })
      else (s', some { task with phase := .evaluating c op, seen := op.status })

/-- The branches on the effect of the policy. -/
def OperationTask.rule (task : OperationTask P B) (c : ToolCall P) (op : McpOperation B) (effect : String) :
    OperationTask P B :=
  if effect = "DENY" then
    task.goTo (.setting op.operationId { status := .denied, errorCode := some "DENIED" }
      (.status c.clientId c.principalBinding))
  else if effect = "REQUIRE_APPROVAL" then task.goTo (.requesting c op)
  else task.goTo (.running op c.binding c.principalId (.effect effect))

/-- The insertion of an approval request; a duplicate key is an exception. -/
def OperationService.requestApproval (s : OperationService P B) (task : OperationTask P B) (c : ToolCall P)
    (op : McpOperation B) (a : Answer) : Advanced P B :=
  if s.approvals.hasKey a.fresh then (s, none)
  else
    ({ s with
      approvals := s.approvals.insertOrIgnore
        { approvalId := a.fresh, callId := op.operationId, clientId := c.clientId,
          operation := c.toolName.policyOperation, status := .pending, payloadHash := op.payloadHash,
          requestedAt := a.now } },
      some (task.goTo (.setting op.operationId { status := .pendingApproval, approvalId := some a.fresh }
        (.status c.clientId c.principalBinding))))

/-! ## Runs of an operation -/

def OperationService.issue (env : GatewayEnv P B) (s : OperationService P B) (op : McpOperation B)
    (binding : ProjectBinding) (principalId : String) (warrant : Warrant) : IssuedWrite P where
  operationId := op.operationId
  toolName := op.toolName
  tenantId := binding.tenantId
  workspaceId := binding.workspaceId
  datasetId := binding.datasetId
  actorId := principalId
  idempotencyKey := op.idempotencyKey
  payload := env.decrypt op.payloadEncrypted
  effect := match warrant with | .effect effect => some effect | .approval _ => none
  recorded := (s.operations.lookup op.operationId).bind fun o => o.approvalId.bind s.approvals.lookup
  payloadHash := (s.operations.lookup op.operationId).map (·.payloadHash)

/-- `_run_operation` until the backend has the write. -/
def OperationService.runOperation (env : GatewayEnv P B) (s : OperationService P B) (task : OperationTask P B)
    (op : McpOperation B) (binding : ProjectBinding) (principalId : String) (warrant : Warrant) (a : Answer) :
    Advanced P B :=
  let payload := env.decrypt op.payloadEncrypted
  if env.payloadHash payload ≠ op.payloadHash then
    (s, some (task.goTo (.setting op.operationId
      { status := .denied, errorCode := some "OPERATION_PAYLOAD_MISMATCH" } (.status op.clientId none))))
  else
    match (do env.provenance op.toolName payload; a.admitted; env.required op.toolName payload) with
    | .error exc => (s, some (task.goTo (.setting op.operationId exc.failure (.raise exc))))
    | .ok () =>
      ({ s with issued := s.issue env op binding principalId warrant :: s.issued }, some (task.goTo (.writing op)))

/-- The text that an object has for a key. -/
def textOf (o : Json.Object) (key : String) : Option String :=
  match o.get key with
  | some (.string text) => some text
  | _ => none

/-- What `_run_operation` records when the backend answers. -/
def written (response : Json.Object) : Assignment :=
  let mutationId := textOf response "mutation_id"
  { status := if mutationId.any (· ≠ "") then .submitted else .committed, mutationId, response := some response }

/-! ## Finality -/

/-- `_mcp_status_from_mutation`. -/
def mcpStatusFromMutation (upper : String → String) (mutation : MutationReport) :
    OperationStatus × Option String × Option String :=
  let state := upper mutation.state
  if state = "COMMITTED" then (.committed, none, none)
  else if state = "REJECTED" then
    match mutation.rejectionReason.filter (· ≠ "") with
    | some reason =>
      (.rejected, some "MUTATION_REJECTED",
        some ("V4 rejected the mutation: " ++ String.ofList (reason.toList.take 120)))
    | none => (.rejected, some "MUTATION_REJECTED", some "V4 rejected the mutation")
  else if state ∈ ["DEAD_LETTER", "ROLLED_BACK", "BLOCKED", "FAILED"] then
    (.failed, some "MUTATION_FAILED", some ("V4 mutation ended as " ++ state))
  else (.processing, none, none)

/-- What a poll records when the backend reports the mutation. -/
def settled (upper : String → String) (op : McpOperation B) (mutation : MutationReport) : Assignment :=
  let (status, errorCode, errorMessage) := mcpStatusFromMutation upper mutation
  let response := op.response.getD []
  { status, errorCode, errorMessage,
    response := some (match mutation.rejectionReason.filter (· ≠ "") with
      | some reason => response.filter (·.1 ≠ "rejection_reason") ++
          [("rejection_reason", .string (String.ofList (reason.toList.take 120)))]
      | none => response) }

/-- The lookup of `operation_status`. -/
def OperationService.getOperation (s : OperationService P B) (clientId : String) (bindingId : Option String)
    (operationId : String) : Option (McpOperation B) :=
  (s.operations.lookup operationId).filter fun o => o.clientId = clientId ∧ bindingId.all (· = o.bindingId)

/-- `operation_status` until the backend is asked. -/
def OperationService.operationStatus (s : OperationService P B) (task : OperationTask P B) (clientId : String)
    (bindingId : Option String) (operationId : String) : Option (OperationTask P B) :=
  match s.getOperation clientId bindingId operationId with
  | none => task.raised operationId ⟨"NOT_FOUND", "operation was not found", false⟩
  | some op =>
    let task := { task with seen := op.status }
    if op.status.refreshed = false then task.returned
    else
      match op.mutationId.filter (· ≠ "") with
      | some mutationId => some (task.goTo (.asking op mutationId))
      | none =>
        some (task.goTo (.setting operationId
          (if op.toolName = .mesaRemember then
            { status := .failed, errorCode := some "FINALITY_UNAVAILABLE",
              errorMessage := some "V4 mutation identifier is unavailable" }
          else { status := .committed }) .reread))

/-- `_refresh_operation_finality` when the backend answers. -/
def OperationTask.refreshed (env : GatewayEnv P B) (task : OperationTask P B) (op : McpOperation B) (a : Answer) :
    Option (OperationTask P B) :=
  match a.mutation with
  | .error exc =>
    if exc.retryable then task.returned else some (task.goTo (.setting op.operationId exc.failure .reread))
  | .ok mutation => some (task.goTo (.setting op.operationId (settled env.upper op mutation) .reread))

/-! ## Approved operations -/

/-- The rows that `process_approved_operations` reads. -/
def OperationService.scan (s : OperationService P B) : List (McpOperation B) :=
  s.operations.select fun o => decide (o.status = .pendingApproval ∨ o.status = .approved)

def OperationService.approvalOf (s : OperationService P B) (op : McpOperation B) : Option Approval :=
  s.approvals.lookup (op.approvalId.getD "None")

/-- What an approval with this hash leads to. -/
def compared (op : McpOperation B) (approval : Approval) : Phase P B :=
  if approval.payloadHash ≠ op.payloadHash then .mismatched op else .claiming op approval

/-- What the worker does with a row; nothing is `continue`. -/
def OperationService.considered (s : OperationService P B) (op : McpOperation B) : Option (Phase P B) :=
  match s.approvalOf op with
  | none => none
  | some approval =>
    if approval.status = .pending then none
    else if op.status = .pendingApproval then some (.deciding op approval)
    else if approval.status ≠ .approved then none
    else some (compared op approval)

/-- The worker comes to its next row. -/
def OperationService.nextApproved (s : OperationService P B) (task : OperationTask P B) : Option (OperationTask P B) :=
  match task.caller with
  | .request | .worker [] => none
  | .worker (op :: rest) => some ⟨.worker rest, (s.considered op).getD .next, op.status⟩

/-- The target of an approval that is not pending. -/
def Approval.target (approval : Approval) : OperationStatus :=
  if approval.status = .approved then .approved else .rejected

def OperationService.decideScanned (s : OperationService P B) (task : OperationTask P B) (op : McpOperation B)
    (approval : Approval) : Advanced P B :=
  match s.transitionOperation op.operationId .pendingApproval { status := approval.target } with
  | (s', true) =>
    if approval.target = .rejected then (s', task.returned)
    else (s', some { task with phase := compared op approval, seen := approval.target })
  | (s', false) => (s', task.returned)

def OperationService.denyScanned (s : OperationService P B) (task : OperationTask P B) (op : McpOperation B) :
    Advanced P B :=
  ((s.transitionOperation op.operationId .approved
    { status := .denied, errorCode := some "APPROVAL_PAYLOAD_MISMATCH" }).1, task.returned)

def OperationService.claimScanned (s : OperationService P B) (task : OperationTask P B) (op : McpOperation B)
    (approval : Approval) : Advanced P B :=
  match s.transitionOperation op.operationId .approved { status := .dispatching } with
  | (s', true) => (s', some { task with phase := .scoping op approval, seen := .dispatching })
  | (s', false) => (s', task.returned)

/-- `_scope_for_operation`. -/
def OperationTask.scoped (task : OperationTask P B) (op : McpOperation B) (approval : Approval) (a : Answer) :
    Option (OperationTask P B) :=
  match a.scope with
  | none => task.raised op.operationId ⟨"ACCESS_DENIED", "operation scope is no longer active", false⟩
  | some (binding, principalId) => some (task.goTo (.running op binding principalId (.approval approval)))

/-! ## Decisions -/

inductive Decision
  | approved | rejected
  deriving DecidableEq

def Decision.approval : Decision → ApprovalStatus
  | .approved => .approved
  | .rejected => .rejected

/-- What `decide` sets on the operation. -/
def Decision.apply (decision : Decision) (reason : Option String) (o : McpOperation B) : McpOperation B :=
  match decision with
  | .approved => { o with status := .approved, errorCode := none, errorMessage := none, completed := false }
  | .rejected =>
    { o with
      status := .rejected, errorCode := some "OPERATOR_REJECTED", completed := true,
      errorMessage := some ((reason.filter (· ≠ "")).getD "Operator rejected the operation") }

/-- `decide_approval`. -/
def OperationService.decideApproval (s : OperationService P B) (approvalId : String) (decision : Decision) :
    OperationService P B :=
  { s with
    approvals := s.approvals.update (fun r => decide (r.approvalId = approvalId ∧ r.status = .pending))
      fun r : Approval => { r with status := decision.approval } }

/-- `expire_stale_approvals`. -/
def OperationService.expireStaleApprovals (s : OperationService P B) (cutoff : Int) : OperationService P B :=
  { s with
    approvals := s.approvals.update (fun r => decide (r.status = .pending ∧ r.requestedAt < cutoff))
      fun r : Approval => { r with status := .expired } }

/-- `OperationApprovalService.decide`; `admin` and `active` are the role of the operator and the scope of the
operation. -/
def OperationService.decide (s : OperationService P B) (operationId : String) (decision : Decision)
    (reason : Option String) (admin active : Bool) : Except String (OperationService P B) :=
  if admin = false then .error "control administrator role required"
  else
    match s.operations.lookup operationId with
    | none => .error "operation not found"
    | some op =>
      if active = false then .error "operation scope is no longer active"
      else if op.status ≠ .pendingApproval then .error "operation is not in PENDING_APPROVAL"
      else
        match op.approvalId.bind s.approvals.lookup with
        | none => .error "operation does not have a pending approval request"
        | some approval =>
          if approval.callId ≠ operationId ∨ approval.clientId ≠ op.clientId ∨ approval.status ≠ .pending then
            .error "operation does not have a pending approval request"
          else
            let s' := s.decideApproval approval.approvalId decision
            .ok
              { s' with
                operations := s'.operations.update
                  (fun o => Decidable.decide (o.operationId = operationId ∧ o.status = .pendingApproval))
                  (decision.apply reason) fun _ => by cases decision <;> rfl }

/-! ## Runs of the gateway -/

/-- The continuation of a task that has set an operation. -/
def OperationTask.continued (task : OperationTask P B) (operationId : String) :
    Continuation → Option (OperationTask P B)
  | .status clientId bindingId => some (task.goTo (.reading clientId bindingId operationId))
  | .raise exc => task.raised operationId exc
  | .reread => some (task.goTo (.rereading operationId))
  | .next => task.returned

/-- The next step of a task. -/
def OperationService.advance (env : GatewayEnv P B) (s : OperationService P B) (task : OperationTask P B) (a : Answer) :
    Advanced P B :=
  match task.phase with
  | .creating c => s.createOperation env task c a
  | .evaluating c op =>
    match s.policy.ruled c.clientId c.binding.externalProjectId c.toolName.policyOperation with
    | some effect => (s, some (task.rule c op effect))
    | none => (s, some (task.goTo (.defaulting c op)))
  | .defaulting c op => (s, some (task.rule c op (s.policy.defaulted c.toolName.policyOperation)))
  | .requesting c op => s.requestApproval task c op a
  | .scanning => (s, some { task with caller := .worker s.scan, phase := .next })
  | .next => (s, s.nextApproved task)
  | .deciding op approval => s.decideScanned task op approval
  | .mismatched op => s.denyScanned task op
  | .claiming op approval => s.claimScanned task op approval
  | .scoping op approval => (s, task.scoped op approval a)
  | .running op binding principalId warrant => s.runOperation env task op binding principalId warrant a
  | .writing op =>
    match a.response with
    | .error exc => (s, some (task.goTo (.setting op.operationId exc.failure (.raise exc))))
    | .ok response => (s, some (task.goTo (.setting op.operationId (written response) (.status op.clientId none))))
  | .setting operationId u continuation =>
    (s.setOperation operationId u, { task with seen := u.status }.continued operationId continuation)
  | .reading clientId bindingId operationId => (s, s.operationStatus task clientId bindingId operationId)
  | .asking op _ => (s, task.refreshed env op a)
  | .rereading _ => (s, task.returned)

inductive GatewayStep (P : Type)
  | call (t : Nat) (c : ToolCall P)
  | work (t : Nat)
  | poll (t : Nat) (clientId : String) (bindingId : Option String) (operationId : String)
  | resume (t : Nat) (a : Answer)
  | cut (t : Nat)
  | crash
  | decide (operationId : String) (decision : Decision) (reason : Option String) (admin active : Bool)
  | decideApproval (approvalId : String) (decision : Decision)
  | expire (cutoff : Int)
  | policy (p : Policy)

def OperationService.put (s : OperationService P B) (t : Nat) (next : Option (OperationTask P B)) :
    OperationService P B :=
  { s with tasks := Function.update s.tasks t next }

/-- A new task, under a number that no task has. -/
def OperationService.begin (s : OperationService P B) (t : Nat) (caller : Caller B) (phase : Phase P B) :
    OperationService P B :=
  if (s.tasks t).isSome then s else s.put t (some ⟨caller, phase, .created⟩)

/-- `cut` is a cancellation, or an exception that nothing catches; a crash ends every task. -/
def OperationService.exec (env : GatewayEnv P B) (s : OperationService P B) : GatewayStep P → OperationService P B
  | .call t c => s.begin t .request (.creating c)
  | .work t => s.begin t (.worker []) .scanning
  | .poll t clientId bindingId operationId => s.begin t .request (.reading clientId bindingId operationId)
  | .resume t a =>
    match s.tasks t with
    | some task => (s.advance env task a).1.put t (s.advance env task a).2
    | none => s
  | .cut t => s.put t none
  | .crash => { s with tasks := fun _ => none }
  | .decide operationId decision reason admin active => orKeep s (s.decide operationId decision reason admin active)
  | .decideApproval approvalId decision => s.decideApproval approvalId decision
  | .expire cutoff => s.expireStaleApprovals cutoff
  | .policy p => { s with policy := p }

/-- The gateway starts without tasks, on operations of earlier versions: accepted or final. -/
structure OperationService.Initial (s : OperationService P B) : Prop where
  operations : ∀ o ∈ s.operations.rows, o.status = .accepted ∨ o.status.terminal = true
  tasks : ∀ t, s.tasks t = none
  issued : s.issued = []

end Mesa.Gateway
