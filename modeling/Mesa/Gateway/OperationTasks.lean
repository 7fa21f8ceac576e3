/-
What the tasks of the gateway know. The rows and approvals that a task has read may be old; this is
what stays true of them whatever the other tasks, the operators and the expiry of approvals do.
-/
import Mesa.Gateway.OperationMoves

namespace Mesa.Gateway

open Mesa.Foundation

variable {P B : Type} {env : GatewayEnv P B} {s s' : OperationService P B} {task task' : OperationTask P B} {a : Answer}
  {step : GatewayStep P} {E : String → Prop}

/-! ## What stays true -/

/-- The ledger has the operation, for this client and with this payload. -/
def OperationService.Known (s : OperationService P B) (op : McpOperation B) : Prop :=
  ∃ o, s.operations.lookup op.operationId = some o ∧ o.clientId = op.clientId ∧ o.payloadHash = op.payloadHash

/-- An approval that has been decided, as it was read. -/
def OperationService.Frozen (s : OperationService P B) (r : Approval) : Prop :=
  s.approvals.lookup r.approvalId = some r ∧ r.status ≠ .pending

def OperationService.Granted (s : OperationService P B) (op : McpOperation B) (r : Approval) : Prop :=
  s.Frozen r ∧ r.status = .approved ∧ r.payloadHash = op.payloadHash

/-- Why an operation is run: an effect that is neither of the other two, or a granted approval. -/
def OperationService.Warranted (E : String → Prop) (s : OperationService P B) (op : McpOperation B) : Warrant → Prop
  | .effect effect => E effect ∧ effect ≠ "DENY" ∧ effect ≠ "REQUIRE_APPROVAL"
  | .approval r => s.Granted op r

/-- What is assigned without a comparison: never a status that the worker goes on from, and a recorded approval
with each request for one. -/
def OperationService.Assigns (s : OperationService P B) (u : Assignment) : Prop :=
  (u.status ≠ .created ∧ u.status ≠ .approved ∧ u.status ≠ .dispatching) ∧
    (u.status = .pendingApproval → ∃ id r, u.approvalId = some id ∧ s.approvals.lookup id = some r)

/-- The worker reads an operation that the ledger has, as its client. -/
def OperationService.Readable (s : OperationService P B) (caller : Caller B) (clientId : String)
    (bindingId : Option String) (operationId : String) : Prop :=
  match caller with
  | .request => True
  | .worker _ => bindingId = none ∧ ∃ o, s.operations.lookup operationId = some o ∧ o.clientId = clientId

def Caller.isWorker : Caller B → Bool
  | .request => false
  | .worker _ => true

/-- What a task that waits before this phase knows. -/
def OperationService.PhaseSound (E : String → Prop) (s : OperationService P B) (caller : Caller B)
    (seen : OperationStatus) : Phase P B → Prop
  | .creating _ => caller.isWorker = false
  | .evaluating _ op | .defaulting _ op | .requesting _ op =>
    caller.isWorker = false ∧ seen.terminal = false ∧ s.Known op
  | .deciding op r => caller.isWorker = true ∧ s.Known op ∧ s.Frozen r
  | .claiming op r => caller.isWorker = true ∧ s.Known op ∧ s.Granted op r
  | .scoping op r => caller.isWorker = true ∧ seen.terminal = false ∧ s.Known op ∧ s.Granted op r
  | .writing op => seen.terminal = false ∧ s.Known op
  | .running op _ _ warrant => seen.terminal = false ∧ s.Known op ∧ s.Warranted E op warrant
  | .setting id u continuation =>
    (seen.terminal = false ∨ u.status = seen) ∧ s.Assigns u ∧
      match continuation with
      | .status clientId bindingId => s.Readable caller clientId bindingId id
      | .raise _ => u.status = .failed
      | .reread | .next => True
  | .reading clientId bindingId id => s.Readable caller clientId bindingId id
  | .asking _ _ => seen.terminal = false
  | .scanning | .next | .mismatched _ | .rereading _ => True

structure OperationService.TaskSound (E : String → Prop) (s : OperationService P B) (task : OperationTask P B) : Prop where
  rest : ∀ rest, task.caller = .worker rest → ∀ op ∈ rest, s.Known op
  phase : s.PhaseSound E task.caller task.seen task.phase

def OperationService.Sound (E : String → Prop) (s : OperationService P B) : Prop :=
  ∀ i task, s.tasks i = some task → s.TaskSound E task

/-! ## Later states -/

/-- Operations keep their client and their payload; approvals stay, and stay decided. -/
structure OperationService.Evolves (s s' : OperationService P B) : Prop where
  operations : ∀ k o, s.operations.lookup k = some o →
    ∃ o', s'.operations.lookup k = some o' ∧ o'.clientId = o.clientId ∧ o'.payloadHash = o.payloadHash
  approvals : ∀ k r, s.approvals.lookup k = some r →
    ∃ r', s'.approvals.lookup k = some r' ∧ (r.status ≠ .pending → r' = r)

theorem RowMove.keeps {o o' : McpOperation B} (h : RowMove env s step o o') :
    o'.clientId = o.clientId ∧ o'.payloadHash = o.payloadHash := by
  cases h with
  | operator => rename_i decision _ _ _ _ _; cases decision <;> exact ⟨rfl, rfl⟩
  | _ => exact ⟨rfl, rfl⟩

variable (env s step) in
theorem exec_evolves : s.Evolves (s.exec env step) where
  operations k o ho := by
    obtain ⟨o', ho', hmove⟩ := exec_row env step ho
    exact ⟨o', ho', hmove.keeps⟩
  approvals k r hr := exec_approval env step hr

namespace OperationService.Evolves

variable (h : s.Evolves s')

include h

theorem known {op : McpOperation B} (hop : s.Known op) : s'.Known op := by
  obtain ⟨o, ho, hclient, hhash⟩ := hop
  obtain ⟨o', ho', hclient', hhash'⟩ := h.operations _ _ ho
  exact ⟨o', ho', hclient'.trans hclient, hhash'.trans hhash⟩

theorem frozen {r : Approval} (hr : s.Frozen r) : s'.Frozen r := by
  obtain ⟨r', hr', heq⟩ := h.approvals _ _ hr.1
  obtain rfl := heq hr.2
  exact ⟨hr', hr.2⟩

theorem granted {op : McpOperation B} {r : Approval} (hr : s.Granted op r) : s'.Granted op r :=
  ⟨h.frozen hr.1, hr.2⟩

theorem warranted {op : McpOperation B} {warrant : Warrant} (hw : s.Warranted E op warrant) :
    s'.Warranted E op warrant := by
  cases warrant with
  | effect effect => exact hw
  | approval r => exact h.granted hw

theorem assigns {u : Assignment} (hu : s.Assigns u) : s'.Assigns u := by
  refine ⟨hu.1, fun hstatus => ?_⟩
  obtain ⟨id, r, hid, hr⟩ := hu.2 hstatus
  obtain ⟨r', hr', -⟩ := h.approvals _ _ hr
  exact ⟨id, r', hid, hr'⟩

theorem readable {caller : Caller B} {clientId id : String} {bindingId : Option String}
    (hread : s.Readable caller clientId bindingId id) : s'.Readable caller clientId bindingId id := by
  cases caller with
  | request => trivial
  | worker rest =>
    obtain ⟨hbinding, o, ho, hclient⟩ := hread
    obtain ⟨o', ho', hclient', -⟩ := h.operations _ _ ho
    exact ⟨hbinding, o', ho', hclient'.trans hclient⟩

theorem phaseSound {caller : Caller B} {seen : OperationStatus} {phase : Phase P B}
    (hphase : s.PhaseSound E caller seen phase) : s'.PhaseSound E caller seen phase := by
  cases phase with
  | evaluating c op | defaulting c op | requesting c op => exact ⟨hphase.1, hphase.2.1, h.known hphase.2.2⟩
  | writing op => exact ⟨hphase.1, h.known hphase.2⟩
  | deciding op r => exact ⟨hphase.1, h.known hphase.2.1, h.frozen hphase.2.2⟩
  | claiming op r => exact ⟨hphase.1, h.known hphase.2.1, h.granted hphase.2.2⟩
  | scoping op r => exact ⟨hphase.1, hphase.2.1, h.known hphase.2.2.1, h.granted hphase.2.2.2⟩
  | running op binding principalId warrant => exact ⟨hphase.1, h.known hphase.2.1, h.warranted hphase.2.2⟩
  | setting id u continuation =>
    refine ⟨hphase.1, h.assigns hphase.2.1, ?_⟩
    have hcontinue := hphase.2.2
    cases continuation with
    | status clientId bindingId => exact h.readable hcontinue
    | _ => exact hcontinue
  | reading clientId bindingId id => exact Evolves.readable h hphase
  | _ => exact hphase

theorem taskSound (htask : s.TaskSound E task) : s'.TaskSound E task :=
  ⟨fun rest hrest op hop => h.known (htask.rest rest hrest op hop), h.phaseSound htask.phase⟩

end OperationService.Evolves

/-! ## Steps of a task -/

theorem Caller.readable_of_request {caller : Caller B} (h : caller.isWorker = false) (clientId id : String)
    (bindingId : Option String) : s.Readable caller clientId bindingId id := by
  cases caller with
  | request => trivial
  | worker rest => cases h

theorem assigns_of {u : Assignment} (h : u.status ∉ [.created, .approved, .dispatching, .pendingApproval]) :
    s.Assigns u := by
  simp only [List.mem_cons, List.not_mem_nil, or_false, not_or] at h
  exact ⟨⟨h.1, h.2.1, h.2.2.1⟩, fun hstatus => absurd hstatus h.2.2.2⟩

theorem failure_assigns (exc : MCPError) : s.Assigns exc.failure := assigns_of (by simp [MCPError.failure])

theorem written_status (response : Json.Object) :
    (written response).status = .submitted ∨ (written response).status = .committed := by
  unfold written
  dsimp only
  split
  · exact .inl rfl
  · exact .inr rfl

theorem mcpStatus_mem (upper : String → String) (mutation : MutationReport) :
    (mcpStatusFromMutation upper mutation).1 ∈ [OperationStatus.committed, .rejected, .failed, .processing] := by
  unfold mcpStatusFromMutation
  dsimp only
  split
  · simp
  split
  · split <;> simp
  split <;> simp

theorem settled_assigns (upper : String → String) (op : McpOperation B) (mutation : MutationReport) :
    s.Assigns (settled upper op mutation) := by
  refine assigns_of fun h => ?_
  have hstatus := mcpStatus_mem upper mutation
  change (mcpStatusFromMutation upper mutation).1 ∈ _ at h
  generalize (mcpStatusFromMutation upper mutation).1 = status at h hstatus
  revert h hstatus
  cases status <;> decide

namespace OperationService.TaskSound

variable (h : s.TaskSound E task)

include h

theorem goTo {phase : Phase P B} (hphase : s.PhaseSound E task.caller task.seen phase) :
    s.TaskSound E (task.goTo phase) :=
  ⟨h.rest, hphase⟩

theorem returned (hnext : task.returned = some task') : s.TaskSound E task' := by
  unfold OperationTask.returned at hnext
  split at hnext
  · cases hnext
  · cases hnext
    exact h.goTo trivial

theorem raised {id : String} {exc : MCPError} (hseen : task.seen.terminal = false ∨ task.seen = .failed)
    (hnext : task.raised id exc = some task') : s.TaskSound E task' := by
  unfold OperationTask.raised at hnext
  split at hnext
  · cases hnext
  · cases hnext
    exact h.goTo ⟨hseen.imp_right Eq.symm, failure_assigns exc, trivial⟩

/-- A step that the worker or a call takes because of an error. -/
theorem fails {id : String} {exc : MCPError} {continuation : Continuation} (hseen : task.seen.terminal = false)
    (hcontinue : continuation = .raise exc ∨ continuation = .reread) :
    s.TaskSound E (task.goTo (.setting id exc.failure continuation)) := by
  refine h.goTo ⟨.inl hseen, failure_assigns exc, ?_⟩
  rcases hcontinue with rfl | rfl
  · rfl
  · trivial

/-- The branches on an effect. -/
theorem rule {c : ToolCall P} {op : McpOperation B} {effect : String} (hcaller : task.caller.isWorker = false)
    (hseen : task.seen.terminal = false) (hop : s.Known op) (hE : E effect) : s.TaskSound E (task.rule c op effect) := by
  unfold OperationTask.rule
  split
  · exact h.goTo ⟨.inl hseen, assigns_of (by decide), Caller.readable_of_request hcaller _ _ _⟩
  split
  · exact h.goTo ⟨hcaller, hseen, hop⟩
  next hdeny happroval => exact h.goTo ⟨hseen, hop, hE, hdeny, happroval⟩

end OperationService.TaskSound

theorem scan_known {op : McpOperation B} (hop : op ∈ s.scan) : s.Known op :=
  ⟨op, Table.lookup_of_mem (Table.mem_select.1 hop).1, rfl, rfl⟩

/-- An approval that the worker goes on with is decided. -/
theorem considered_cases {op : McpOperation B} {phase : Phase P B} (h : s.considered op = some phase) :
    ∃ r, s.Frozen r ∧ (phase = .deciding op r ∨ phase = .mismatched op ∨
      phase = .claiming op r ∧ s.Granted op r) := by
  unfold OperationService.considered at h
  cases hr : s.approvalOf op with
  | none => rw [hr] at h; cases h
  | some r =>
    rw [hr] at h
    dsimp only at h
    split at h
    · cases h
    next hpending =>
    have hfrozen : s.Frozen r := by
      have hkey : r.approvalId = op.approvalId.getD "None" := Table.lookup_key hr
      exact ⟨by rw [hkey]; exact hr, hpending⟩
    refine ⟨r, hfrozen, ?_⟩
    split at h
    · cases h
      exact .inl rfl
    split at h
    · cases h
    next happroved =>
    cases h
    unfold compared
    split
    · exact .inr (.inl rfl)
    next hhash => exact .inr (.inr ⟨rfl, hfrozen, not_not.1 happroved, not_not.1 hhash⟩)

theorem exec_resume {t : Nat} (htask : s.tasks t = some task) :
    s.exec env (.resume t a) = (s.advance env task a).1.put t (s.advance env task a).2 := by
  unfold OperationService.exec
  dsimp only
  rw [htask]

/-- The effects that the policy evaluates to in this step satisfy `E`. -/
def OperationService.Evaluates (E : String → Prop) (s : OperationService P B) (task : OperationTask P B) : Prop :=
  match task.phase with
  | .evaluating c _ =>
    ∀ effect, s.policy.ruled c.clientId c.binding.externalProjectId c.toolName.policyOperation = some effect → E effect
  | .defaulting c _ => E (s.policy.defaulted c.toolName.policyOperation)
  | _ => True

theorem createOperation_sound {c : ToolCall P} (hcaller : task.caller.isWorker = false)
    (hnext : (s.createOperation env task c a).2 = some task') :
    (s.createOperation env task c a).1.TaskSound E task' := by
  have norest {s : OperationService P B} (rest) (hrest : task.caller = .worker rest) : ∀ op ∈ rest, s.Known op := by
    rw [hrest] at hcaller; cases hcaller
  unfold OperationService.createOperation at hnext ⊢
  split at hnext
  · cases hnext
  dsimp only at hnext ⊢
  cases hfind : (s.inserted env c _ a.fresh).rows.find? (c.owns _) with
  | none => rw [hfind] at hnext; cases hnext
  | some op =>
    rw [hfind] at hnext
    dsimp only at hnext ⊢
    split at hnext
    · cases hnext
    split at hnext
    · cases hnext
      rw [if_neg ‹_›, if_pos ‹_›]
      exact ⟨norest, Caller.readable_of_request hcaller _ _ _⟩
    · next hhash hstatus =>
      cases hnext
      rw [if_neg hhash, if_neg hstatus]
      refine ⟨norest, hcaller, ?_, op, Table.lookup_of_mem (List.mem_of_find?_eq_some hfind), rfl, rfl⟩
      rw [not_not.1 hstatus]
      rfl

theorem requestApproval_sound {c : ToolCall P} {op : McpOperation B} (hcaller : task.caller.isWorker = false)
    (hseen : task.seen.terminal = false) (hnext : (s.requestApproval task c op a).2 = some task') :
    (s.requestApproval task c op a).1.TaskSound E task' := by
  unfold OperationService.requestApproval at hnext ⊢
  split at hnext
  · cases hnext
  next hkey =>
  rw [if_neg hkey]
  cases hnext
  refine ⟨fun rest hrest => ?_, .inl hseen, ⟨by simp, fun _ => ?_⟩, Caller.readable_of_request hcaller _ _ _⟩
  · rw [show task.caller = .worker rest from hrest] at hcaller
    cases hcaller
  · have hlookup : s.approvals.lookup a.fresh = none := Table.hasKey_eq_false.1 (Bool.eq_false_iff.2 hkey)
    refine ⟨a.fresh, ⟨a.fresh, op.operationId, c.clientId, c.toolName.policyOperation, .pending, op.payloadHash, a.now⟩,
      rfl, ?_⟩
    dsimp only
    rw [Table.lookup_insertOrIgnore, hlookup, Option.none_or]
    exact if_pos rfl

theorem operationStatus_sound (h : s.TaskSound E task) {clientId id : String} {bindingId : Option String}
    (hread : s.Readable task.caller clientId bindingId id)
    (hnext : s.operationStatus task clientId bindingId id = some task') : s.TaskSound E task' := by
  unfold OperationService.operationStatus at hnext
  cases hget : s.getOperation clientId bindingId id with
  | none =>
    -- the worker finds its operation, so only a call raises here
    rw [hget] at hnext
    dsimp only at hnext
    unfold OperationTask.raised at hnext
    cases hcaller : task.caller with
    | request => rw [hcaller] at hnext; cases hnext
    | worker rest =>
      rw [hcaller] at hread
      obtain ⟨rfl, o, ho, hclient⟩ := hread
      unfold OperationService.getOperation at hget
      rw [ho, Option.filter_some, if_pos (by simp [hclient])] at hget
      cases hget
  | some op =>
    rw [hget] at hnext
    dsimp only at hnext
    have hrest : ∀ rest, task.caller = .worker rest → ∀ op ∈ rest, s.Known op := h.rest
    split at hnext
    · unfold OperationTask.returned at hnext
      split at hnext
      · cases hnext
      · cases hnext
        exact ⟨hrest, trivial⟩
    next hrefreshed =>
    have hseen : op.status.terminal = false := by
      revert hrefreshed
      cases op.status <;> decide
    split at hnext
    · cases hnext
      exact ⟨hrest, hseen⟩
    · cases hnext
      refine ⟨hrest, .inl hseen, ?_, trivial⟩
      split
      · exact assigns_of (by decide)
      · exact assigns_of (by decide)

/-- The worker comes to its next row, which was there when it read it. -/
theorem nextApproved_sound (h : s.TaskSound E task) (hnext : s.nextApproved task = some task') : s.TaskSound E task' := by
  unfold OperationService.nextApproved at hnext
  split at hnext
  · cases hnext
  · cases hnext
  next op rest hcaller =>
  cases hnext
  have hknown := h.rest _ hcaller
  have hrest : ∀ rest', Caller.worker rest = .worker rest' → ∀ x ∈ rest', s.Known x := by
    rintro _ ⟨⟩ x hx
    exact hknown x (List.mem_cons_of_mem _ hx)
  have hop : s.Known op := hknown op List.mem_cons_self
  cases hconsidered : s.considered op with
  | none => exact ⟨hrest, trivial⟩
  | some phase =>
    obtain ⟨r, hfrozen, rfl | rfl | ⟨rfl, hgranted⟩⟩ := considered_cases hconsidered
    · exact ⟨hrest, rfl, hop, hfrozen⟩
    · exact ⟨hrest, trivial⟩
    · exact ⟨hrest, rfl, hop, hgranted⟩

theorem decideScanned_sound (h : s.TaskSound E task) {op : McpOperation B} {r : Approval}
    (hcaller : task.caller.isWorker = true) (hop : s.Known op) (hfrozen : s.Frozen r)
    (hnext : (s.decideScanned task op r).2 = some task') : s.TaskSound E task' := by
  unfold OperationService.decideScanned at hnext
  split at hnext
  · split at hnext
    · exact h.returned hnext
    next htarget =>
    cases hnext
    have happroved : r.status = .approved := by
      by_contra hne
      exact htarget (by rw [Approval.target, if_neg hne])
    refine ⟨h.rest, ?_⟩
    unfold compared
    split
    · trivial
    next hhash => exact ⟨hcaller, hop, hfrozen, happroved, not_not.1 hhash⟩
  · exact h.returned hnext

theorem claimScanned_sound (h : s.TaskSound E task) {op : McpOperation B} {r : Approval}
    (hcaller : task.caller.isWorker = true) (hop : s.Known op) (hgranted : s.Granted op r)
    (hnext : (s.claimScanned task op r).2 = some task') : s.TaskSound E task' := by
  unfold OperationService.claimScanned at hnext
  split at hnext
  · cases hnext
    exact ⟨h.rest, hcaller, rfl, hop, hgranted⟩
  · exact h.returned hnext

theorem runOperation_sound (h : s.TaskSound E task) {op : McpOperation B} {binding : ProjectBinding}
    {principalId : String} {warrant : Warrant} (hseen : task.seen.terminal = false) (hop : s.Known op)
    (hread : s.Readable task.caller op.clientId none op.operationId)
    (hnext : (s.runOperation env task op binding principalId warrant a).2 = some task') : s.TaskSound E task' := by
  unfold OperationService.runOperation at hnext
  dsimp only at hnext
  split at hnext
  · cases hnext
    exact h.goTo ⟨.inl hseen, assigns_of (by decide), hread⟩
  split at hnext
  · cases hnext
    exact h.fails hseen (.inl rfl)
  · cases hnext
    exact h.goTo ⟨hseen, hop⟩

theorem OperationService.Known.readable {op : McpOperation B} (h : s.Known op) (caller : Caller B) :
    s.Readable caller op.clientId none op.operationId := by
  obtain ⟨o, ho, hclient, -⟩ := h
  cases caller with
  | request => trivial
  | worker rest => exact ⟨rfl, o, ho, hclient⟩

/-- What follows an assignment. -/
theorem continued_sound {caller : Caller B} {phase : Phase P B} {seen : OperationStatus} {id : String} {u : Assignment}
    {continuation : Continuation} (hrest : ∀ rest, caller = .worker rest → ∀ op ∈ rest, s.Known op)
    (h : s.PhaseSound E caller seen (.setting id u continuation))
    (hnext : OperationTask.continued ⟨caller, phase, u.status⟩ id continuation = some task') : s.TaskSound E task' := by
  cases continuation with
  | status clientId bindingId =>
    cases hnext
    exact ⟨hrest, h.2.2⟩
  | raise exc =>
    have hfailed : u.status = .failed := h.2.2
    unfold OperationTask.continued OperationTask.raised at hnext
    cases caller with
    | request => cases hnext
    | worker rest =>
      cases hnext
      exact ⟨hrest, .inr hfailed.symm, failure_assigns exc, trivial⟩
  | reread =>
    cases hnext
    exact ⟨hrest, trivial⟩
  | next =>
    unfold OperationTask.continued OperationTask.returned at hnext
    cases caller with
    | request => cases hnext
    | worker rest =>
      cases hnext
      exact ⟨hrest, trivial⟩

theorem evolves_put (t : Nat) (next : Option (OperationTask P B)) : s.Evolves (s.put t next) :=
  ⟨fun _ o ho => ⟨o, ho, rfl, rfl⟩, fun _ r hr => ⟨r, hr, fun _ => rfl⟩⟩

/-- A step of a task keeps what it knows. -/
theorem advance_sound {t : Nat} (h : s.TaskSound E task) (htask : s.tasks t = some task) (hE : s.Evaluates E task)
    (hnext : (s.advance env task a).2 = some task') : (s.exec env (.resume t a)).TaskSound E task' := by
  have now : (s.advance env task a).1.TaskSound E task' → (s.exec env (.resume t a)).TaskSound E task' := by
    rw [exec_resume htask]
    exact (evolves_put _ _).taskSound
  have later : s.TaskSound E task' → (s.exec env (.resume t a)).TaskSound E task' := (exec_evolves env s _).taskSound
  have hphase := h.phase
  obtain ⟨caller, phase, seen⟩ := task
  cases phase with
  | creating c => exact now (createOperation_sound hphase hnext)
  | evaluating c op =>
    obtain ⟨hcaller, hseen, hop⟩ := hphase
    unfold OperationService.advance at hnext
    dsimp only at hnext
    split at hnext
    next effect heffect =>
      cases hnext
      exact later (h.rule hcaller hseen hop (hE effect heffect))
    · cases hnext
      exact later (h.goTo ⟨hcaller, hseen, hop⟩)
  | defaulting c op =>
    cases hnext
    exact later (h.rule hphase.1 hphase.2.1 hphase.2.2 hE)
  | requesting c op => exact now (requestApproval_sound hphase.1 hphase.2.1 hnext)
  | scanning =>
    cases hnext
    refine later ⟨?_, trivial⟩
    rintro _ ⟨⟩ op hop
    exact scan_known hop
  | next => exact later (nextApproved_sound h hnext)
  | deciding op r => exact later (decideScanned_sound h hphase.1 hphase.2.1 hphase.2.2 hnext)
  | mismatched op => exact later (h.returned hnext)
  | claiming op r => exact later (claimScanned_sound h hphase.1 hphase.2.1 hphase.2.2 hnext)
  | scoping op r =>
    obtain ⟨-, hseen, hop, hgranted⟩ := hphase
    refine later ?_
    change OperationTask.scoped ⟨caller, .scoping op r, seen⟩ op r a = some task' at hnext
    unfold OperationTask.scoped at hnext
    split at hnext
    · exact h.raised (.inl hseen) hnext
    · cases hnext
      exact h.goTo ⟨hseen, hop, hgranted⟩
  | running op binding principalId warrant =>
    exact later (runOperation_sound h hphase.1 hphase.2.1 (hphase.2.1.readable caller) hnext)
  | writing op =>
    obtain ⟨hseen, hop⟩ := hphase
    unfold OperationService.advance at hnext
    dsimp only at hnext
    split at hnext
    · cases hnext
      exact later (h.fails hseen (.inl rfl))
    next response _ =>
      cases hnext
      refine later (h.goTo ⟨.inl hseen, assigns_of ?_, hop.readable caller⟩)
      rcases written_status response with hstatus | hstatus <;> rw [hstatus] <;> decide
  | setting id u continuation => exact later (continued_sound h.rest hphase hnext)
  | reading clientId bindingId id => exact later (operationStatus_sound h hphase hnext)
  | asking op mutationId =>
    change OperationTask.refreshed env ⟨caller, .asking op mutationId, seen⟩ op a = some task' at hnext
    unfold OperationTask.refreshed at hnext
    refine later ?_
    split at hnext
    · split at hnext
      · exact h.returned hnext
      · cases hnext
        exact h.fails hphase (.inr rfl)
    · cases hnext
      exact h.goTo ⟨.inl hphase, settled_assigns _ _ _, trivial⟩
  | rereading id => exact later (h.returned hnext)

/-- What the tasks know stays true. -/
theorem OperationService.Sound.exec (h : s.Sound E)
    (hE : ∀ t a task, step = .resume t a → s.tasks t = some task → s.Evaluates E task) : (s.exec env step).Sound E := by
  intro i task' hi
  rcases exec_tasks hi with hi | ⟨a, task, rfl, htask, hnext⟩ | ⟨c, rfl⟩ | rfl | ⟨clientId, bindingId, id, rfl⟩
  · exact (exec_evolves env s _).taskSound (h i task' hi)
  · exact advance_sound (h i task htask) htask (hE i a task rfl htask) hnext
  · exact ⟨fun rest hrest => (by cases hrest), rfl⟩
  · refine ⟨?_, trivial⟩
    rintro _ ⟨⟩ op hop
    cases hop
  · exact ⟨fun rest hrest => (by cases hrest), trivial⟩

theorem OperationService.Initial.sound (h : s.Initial) : s.Sound E := fun i task hi => by rw [h.tasks i] at hi; cases hi

end Mesa.Gateway
