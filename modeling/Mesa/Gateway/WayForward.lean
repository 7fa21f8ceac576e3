/-
What becomes of an operation that is not final: for every run, each of them awaits the approval that it
records, is read by a later worker, poll or repeated call, or is in the hands of a task. A crash strands what
is DISPATCHING, and an approval that was replaced strands what is moved on by it.
-/
import Mesa.Gateway.WriteSafety

namespace Mesa.Gateway

open Mesa.Foundation

variable {P B : Type} {env : GatewayEnv P B} {s : OperationService P B} {step : GatewayStep P}

/-! ## Ways forward -/

/-- It awaits the approval that it records. -/
def OperationService.AwaitsApproval (s : OperationService P B) (o : McpOperation B) : Prop :=
  (o.status = .pendingApproval ∨ o.status = .approved) ∧
    ∃ id r, o.approvalId = some id ∧ s.approvals.lookup id = some r ∧ r.status = .pending

/-- A run of `process_approved_operations` reads it and does not pass over it. -/
def OperationService.PickedUp (s : OperationService P B) (o : McpOperation B) : Prop :=
  o ∈ s.scan ∧ s.considered o ≠ none

/-- The operation that a task is running. -/
def Phase.runs : Phase P B → Option String
  | .scoping op _ | .running op _ _ _ | .writing op => some op.operationId
  | .setting id _ _ => some id
  | _ => none

/-- A task is running it and will set its status. -/
def OperationService.InHand (s : OperationService P B) (id : String) : Prop :=
  ∃ t task, s.tasks t = some task ∧ task.phase.runs = some id

/-- A way forward: the repeated call finds it created, a poll refreshes it, its approval is awaited, a worker picks
it up, or a task that has not ended runs it. -/
def OperationService.GoesOn (s : OperationService P B) (o : McpOperation B) : Prop :=
  o.status = .created ∨ o.status.refreshed = true ∨ s.AwaitsApproval o ∨ s.PickedUp o ∨ s.InHand o.operationId

def OperationService.notDispatching (s : OperationService P B) (id : String) : Bool :=
  (s.operations.lookup id).all fun o => o.status ≠ .dispatching

/-- No task ends, and the gateway does not crash, between an operation's DISPATCHING and its next status; and the
worker moves an operation to APPROVED by the approval that the operation still records. -/
def OperationService.uncut (s : OperationService P B) : GatewayStep P → Bool
  | .cut t => (s.tasks t).all fun task => task.phase.runs.all s.notDispatching
  | .crash => s.operations.rows.all fun o => o.status ≠ .dispatching
  | .resume t _ =>
    (s.tasks t).all fun task =>
      match task.phase with
      | .deciding op r =>
        (s.operations.lookup op.operationId).all fun o =>
          Decidable.decide (r.status = .approved → o.status = .pendingApproval → o.approvalId = some r.approvalId)
      | _ => true
  | _ => true

/-! ## The invariant -/

/-- What each status says of the rest of the state. -/
structure OperationService.Attended (s : OperationService P B) (o : McpOperation B) : Prop where
  pending : o.status = .pendingApproval → ∃ id r, o.approvalId = some id ∧ s.approvals.lookup id = some r
  approved : o.status = .approved → ∃ r, o.approvalId = some r.approvalId ∧
    s.approvals.lookup r.approvalId = some r ∧ r.status = .approved
  dispatching : o.status = .dispatching → s.InHand o.operationId

theorem OperationService.Attended.of_status {o : McpOperation B} {status : OperationStatus} (hstatus : o.status = status)
    (h : status ∉ [.pendingApproval, .approved, .dispatching]) : s.Attended o := by
  subst hstatus
  simp only [List.mem_cons, List.not_mem_nil, or_false, not_or] at h
  exact ⟨fun hs => absurd hs h.1, fun hs => absurd hs h.2.1, fun hs => absurd hs h.2.2⟩

/-- The statuses that the service can be in, each with its way forward. -/
theorem OperationService.Attended.goesOn {o : McpOperation B} (h : s.Attended o) (ho : o ∈ s.operations.rows) :
    o.status.terminal = true ∨ s.GoesOn o := by
  have hscan (hstatus : o.status = .pendingApproval ∨ o.status = .approved) : o ∈ s.scan :=
    Table.mem_select.2 ⟨ho, decide_eq_true hstatus⟩
  have hfound {id : String} {r : Approval} (hid : o.approvalId = some id) (hr : s.approvals.lookup id = some r) :
      s.approvalOf o = some r := by
    unfold OperationService.approvalOf
    rw [hid]
    exact hr
  cases hstatus : o.status with
  | created => exact .inr (.inl hstatus)
  | pendingApproval =>
    obtain ⟨id, r, hid, hr⟩ := h.pending hstatus
    by_cases hpending : r.status = .pending
    · exact .inr (.inr (.inr (.inl ⟨.inl hstatus, id, r, hid, hr, hpending⟩)))
    · refine .inr (.inr (.inr (.inr (.inl ⟨hscan (.inl hstatus), ?_⟩))))
      unfold OperationService.considered
      rw [hfound hid hr]
      dsimp only
      rw [if_neg hpending, if_pos hstatus]
      exact Option.some_ne_none _
  | approved =>
    obtain ⟨r, hid, hr, happroved⟩ := h.approved hstatus
    refine .inr (.inr (.inr (.inr (.inl ⟨hscan (.inr hstatus), ?_⟩))))
    unfold OperationService.considered
    rw [hfound hid hr]
    dsimp only
    rw [happroved, hstatus]
    exact Option.some_ne_none _
  | dispatching => exact .inr (.inr (.inr (.inr (.inr (h.dispatching hstatus)))))
  | submitted | processing | accepted =>
    refine .inr (.inr (.inl ?_))
    rw [hstatus]
    rfl
  | committed | rejected | denied | failed => exact .inl rfl

/-! ## Tasks that run an operation -/

variable (env) in
/-- A task that runs an operation keeps it until it sets the status. -/
theorem advance_runs {E : String → Prop} {task : OperationTask P B} (a : Answer) {id : String}
    (h : s.TaskSound E task) (hruns : task.phase.runs = some id) :
    (∃ u continuation, task.phase = .setting id u continuation) ∨
      ∃ task', (s.advance env task a).2 = some task' ∧ task'.phase.runs = some id := by
  obtain ⟨caller, phase, seen⟩ := task
  cases phase with
  | setting id' u continuation =>
    cases hruns
    exact .inl ⟨u, continuation, rfl⟩
  | scoping op r =>
    refine .inr ?_
    obtain ⟨hcaller, -⟩ := h.phase
    show ∃ task', OperationTask.scoped _ op r a = some task' ∧ _
    unfold OperationTask.scoped
    split
    · unfold OperationTask.raised
      cases caller with
      | request => cases hcaller
      | worker rest => exact ⟨_, rfl, hruns⟩
    · exact ⟨_, rfl, hruns⟩
  | running op binding principalId warrant =>
    refine .inr ?_
    show ∃ task', (s.runOperation env _ op binding principalId warrant a).2 = some task' ∧ _
    unfold OperationService.runOperation
    dsimp only
    split
    · exact ⟨_, rfl, hruns⟩
    split
    · exact ⟨_, rfl, hruns⟩
    · exact ⟨_, rfl, hruns⟩
  | writing op =>
    refine .inr ?_
    unfold OperationService.advance
    dsimp only
    cases a.response with
    | error exc => exact ⟨_, rfl, hruns⟩
    | ok response => exact ⟨_, rfl, hruns⟩
  | _ => cases hruns

/-- A task that neither takes a step nor is cut stays as it is. -/
theorem exec_waits {i : Nat} {task : OperationTask P B} (hi : s.tasks i = some task)
    (hresume : ∀ a, step ≠ .resume i a) (hcut : step ≠ .cut i) (hcrash : step ≠ .crash) :
    (s.exec env step).tasks i = some task := by
  have begun (t : Nat) (caller : Caller B) (phase : Phase P B) : (s.begin t caller phase).tasks i = some task := by
    unfold OperationService.begin
    split
    · exact hi
    next ht =>
    rw [put_tasks, if_neg]
    · exact hi
    · rintro rfl
      exact ht (by rw [hi]; rfl)
  cases step with
  | call t c | work t | poll t clientId bindingId id => exact begun _ _ _
  | resume t a =>
    have ht : i ≠ t := by
      rintro rfl
      exact hresume a rfl
    cases htask : s.tasks t with
    | none =>
      unfold OperationService.exec
      dsimp only
      rw [htask]
      exact hi
    | some task' => rw [exec_resume htask, put_tasks, if_neg ht, advance_tasks, hi]
  | cut t =>
    show (s.put t none).tasks i = some task
    rw [put_tasks, if_neg, hi]
    rintro rfl
    exact hcut rfl
  | crash => exact absurd rfl hcrash
  | decide id decision reason admin active =>
    unfold OperationService.exec
    dsimp only
    cases hdecide : s.decide id decision reason admin active with
    | error e => exact hi
    | ok s' =>
      obtain ⟨x, approval, -, -, -, -, -, -, -, htasks, -⟩ := decide_eq_ok hdecide
      rw [orKeep_ok, htasks, hi]
  | decideApproval id decision | expire cutoff | policy p => exact hi

/-- An operation that stays DISPATCHING stays in hand. -/
theorem inHand_exec {E : String → Prop} {o o' : McpOperation B} (hs : s.Sound E) (h : s.uncut step = true)
    (ho : s.operations.lookup o.operationId = some o) (hstatus : o.status = .dispatching)
    (ho' : (s.exec env step).operations.lookup o.operationId = some o') (hstatus' : o'.status = .dispatching)
    (hhand : s.InHand o.operationId) : (s.exec env step).InHand o.operationId := by
  obtain ⟨t, task, htask, hruns⟩ := hhand
  by_cases hresume : ∃ a, step = .resume t a
  · obtain ⟨a, rfl⟩ := hresume
    rcases advance_runs env a (hs t task htask) hruns with ⟨u, continuation, hphase⟩ | ⟨task', hnext, hruns'⟩
    · -- its own assignment would have changed the status
      have hassigns := (hs t task htask).phase
      rw [hphase] at hassigns
      rw [exec_resume htask, put_operations, advance_operations, hphase] at ho'
      dsimp only at ho'
      rw [lookup_setOperation, ho, Option.map_some, if_pos (decide_eq_true rfl)] at ho'
      cases ho'
      exact absurd hstatus' hassigns.2.1.1.2.2
    · exact ⟨t, task', by rw [exec_resume htask, put_tasks, if_pos rfl, hnext], hruns'⟩
  refine ⟨t, task, exec_waits htask (fun a ha => hresume ⟨a, ha⟩) ?_ ?_, hruns⟩
  · rintro rfl
    change (s.tasks t).all _ = true at h
    rw [htask, Option.all_some, hruns, Option.all_some, OperationService.notDispatching, ho, Option.all_some,
      hstatus] at h
    cases h
  · rintro rfl
    change s.operations.rows.all _ = true at h
    have hne := List.all_eq_true.1 h o (Table.lookup_mem ho)
    rw [hstatus] at hne
    cases hne

/-! ## Steps -/

theorem target_cases (r : Approval) : r.target = .approved ∧ r.status = .approved ∨ r.target = .rejected := by
  unfold Approval.target
  split
  next h => exact .inl ⟨rfl, h⟩
  · exact .inr rfl

variable (env) in
/-- The worker's claim leaves the operation in its hands. -/
theorem inHand_claimed {t : Nat} (a : Answer) {task : OperationTask P B} {op o : McpOperation B} {r : Approval}
    (htask : s.tasks t = some task) (hphase : task.phase = .claiming op r) (hid : op.operationId = o.operationId)
    (ho : s.operations.lookup o.operationId = some o) (hstatus : o.status = .approved) :
    (s.exec env (.resume t a)).InHand o.operationId := by
  have hmoved : (s.transitionOperation op.operationId .approved { status := .dispatching }).2 = true :=
    transition_moved.2 ⟨o, by rw [hid, ho], hstatus⟩
  refine ⟨t, { task with phase := .scoping op r, seen := .dispatching }, ?_, congrArg some hid⟩
  rw [exec_resume htask, put_tasks, if_pos rfl]
  unfold OperationService.advance
  rw [hphase]
  show (s.claimScanned task op r).2 = _
  unfold OperationService.claimScanned
  split
  · rfl
  next h =>
    rw [h] at hmoved
    cases hmoved

theorem attended_exec {E : String → Prop} {o' : McpOperation B} (hs : s.Sound E) (h : s.uncut step = true)
    (hrows : ∀ o ∈ s.operations.rows, s.Attended o) (hmem : o' ∈ (s.exec env step).operations.rows) :
    (s.exec env step).Attended o' := by
  have hnow : (s.exec env step).operations.lookup o'.operationId = some o' := Table.lookup_of_mem hmem
  cases hbefore : s.operations.lookup o'.operationId with
  | none =>
    exact .of_status (exec_new hbefore hnow) (by decide)
  | some o =>
    have hid : o.operationId = o'.operationId := Table.lookup_key hbefore
    rw [← hid] at hbefore hnow
    have ho := hrows o (Table.lookup_mem hbefore)
    obtain ⟨x, hx, hmove⟩ := exec_row env step hbefore
    obtain rfl : o' = x := Option.some.inj (hnow.symm.trans hx)
    cases hmove with
    | kept =>
      refine ⟨fun hstatus => ?_, fun hstatus => ?_, fun hstatus => ?_⟩
      · obtain ⟨id, r, hrecorded, hr⟩ := ho.pending hstatus
        obtain ⟨r', hr', -⟩ := exec_approval env step hr
        exact ⟨id, r', hrecorded, hr'⟩
      · obtain ⟨r, hrecorded, hr, happroved⟩ := ho.approved hstatus
        obtain ⟨r', hr', hsame⟩ := exec_approval env step hr
        obtain rfl := hsame (by rw [happroved]; decide)
        exact ⟨r', hrecorded, hr', happroved⟩
      · exact inHand_exec hs h hbefore hstatus hnow hstatus (ho.dispatching hstatus)
    | @set t a task u continuation hstep htask hphase =>
      have hassigns := (hs t task htask).phase
      rw [hphase] at hassigns
      obtain ⟨-, ⟨⟨-, happroved, hdispatching⟩, hpending⟩, -⟩ := hassigns
      refine ⟨fun hstatus => ?_, fun hstatus => absurd hstatus happroved, fun hstatus => absurd hstatus hdispatching⟩
      obtain ⟨id, r, hu, hr⟩ := hpending hstatus
      obtain ⟨r', hr', -⟩ := exec_approval env step hr
      exact ⟨id, r', by rw [McpOperation.set, hu, Option.some_or], hr'⟩
    | @decided t a task op r hstep htask hphase hop hpending =>
      rcases target_cases r with ⟨htarget, happroved⟩ | htarget
      · refine ⟨fun hstatus => ?_, fun _ => ?_, fun hstatus => ?_⟩
        · exact absurd (htarget.symm.trans hstatus) (by decide)
        · -- the approval that was read is the one recorded, and nothing changes it any more
          have hfrozen := (hs t task htask).phase
          rw [hphase] at hfrozen
          have hlater := (exec_evolves env s step).frozen hfrozen.2.2
          subst hstep
          change (s.tasks t).all _ = true at h
          rw [htask, Option.all_some, hphase] at h
          dsimp only at h
          rw [hop, hbefore, Option.all_some] at h
          have hrecorded := of_decide_eq_true h happroved hpending
          exact ⟨r, by rw [McpOperation.set, Option.none_or, hrecorded], hlater.1, happroved⟩
        · exact absurd (htarget.symm.trans hstatus) (by decide)
      · exact .of_status htarget (by decide)
    | denied happroved hdenied => exact .of_status hdenied (by decide)
    | @claimed t a task op r hstep htask hphase hop happroved =>
      subst hstep
      have hhand := inHand_claimed env a htask hphase hop hbefore happroved
      exact ⟨fun hstatus => (by cases hstatus), fun hstatus => (by cases hstatus), fun _ => hhand⟩
    | @operator decision reason r hpending hrecorded hafter =>
      cases decision with
      | approved =>
        exact ⟨fun hstatus => (by cases hstatus), fun _ => ⟨{ r with status := .approved }, hrecorded, hafter, rfl⟩,
          fun hstatus => (by cases hstatus)⟩
      | rejected => exact .of_status (show _ = OperationStatus.rejected from rfl) (by decide)

/-- In a run whose tasks are not cut while they dispatch, and whose approvals are not replaced under the worker,
every operation that is not final has a way forward. -/
theorem operations_go_on (env : GatewayEnv P B) {s : OperationService P B} (hs : s.Initial)
    (steps : List (GatewayStep P))
    (h : Along (OperationService.exec env) (fun s step => s.uncut step = true) s steps) :
    ∀ o ∈ (run (OperationService.exec env) s steps).operations.rows,
      o.status.terminal = true ∨ (run (OperationService.exec env) s steps).GoesOn o := by
  have hsound : s.Sound fun _ => True := hs.sound
  have hattended : ∀ o ∈ s.operations.rows, s.Attended o := by
    intro o ho
    refine .of_status (Eq.refl o.status) ?_
    rcases hs.operations o ho with hstatus | hfinal
    · rw [hstatus]
      decide
    · revert hfinal
      cases o.status <;> decide
  have hend := invariant_run
    (I := fun s => (s.Sound fun _ => True) ∧ ∀ o ∈ s.operations.rows, s.Attended o)
    (fun s step hs h => ⟨hs.1.exec fun _ _ task _ _ => by
      unfold OperationService.Evaluates
      split
      · exact fun _ _ => trivial
      · trivial
      · trivial, fun o ho => attended_exec hs.1 h hs.2 ho⟩) ⟨hsound, hattended⟩ h
  exact fun o ho => (hend.2 o ho).goesOn ho

/-! ## Runs that meet the defects -/

/-- The gateway crashes after the worker has claimed an approved operation. -/
def crashedWorker : List (GatewayStep String) :=
  [.call 0 rememberCall, .resume 0 (plainAnswer "op"), .resume 0 (plainAnswer ""), .resume 0 (plainAnswer ""),
    .resume 0 (plainAnswer "first"), .resume 0 (plainAnswer ""), .decide "op" .approved none true true,
    .work 2, .resume 2 (plainAnswer ""), .resume 2 (plainAnswer ""), .resume 2 (plainAnswer ""), .crash]

/-- The worker reads the first request, which the control API approves; a second request replaces it and expires. -/
def replacedRequest : List (GatewayStep String) :=
  [.call 0 rememberCall, .call 1 rememberCall, .resume 0 (plainAnswer "op"), .resume 1 (plainAnswer "other"),
    .resume 0 (plainAnswer ""), .resume 0 (plainAnswer ""), .resume 0 (plainAnswer "first"), .resume 0 (plainAnswer ""),
    .decideApproval "first" .approved,
    .work 2, .resume 2 (plainAnswer ""), .resume 2 (plainAnswer ""),
    .resume 1 (plainAnswer ""), .resume 1 (plainAnswer ""), .resume 1 (plainAnswer "second"), .resume 1 (plainAnswer ""),
    .resume 2 (plainAnswer ""), .expire 1, .crash]

/-- No call, poll or worker will do anything with it. -/
def OperationService.passesOver (s : OperationService P B) (o : McpOperation B) : Bool :=
  Decidable.decide (o.status = .dispatching ∨ o.status = .approved ∧ (s.considered o).isNone = true) &&
    (o.approvalId.bind s.approvals.lookup).all fun r => r.status ≠ .pending

theorem stranded_of {o : McpOperation B} (htasks : ∀ t, s.tasks t = none) (h : s.passesOver o = true) : ¬ s.GoesOn o := by
  obtain ⟨hstatus, happroval⟩ := (Bool.and_eq_true _ _).mp h
  have hstatus := of_decide_eq_true hstatus
  rintro (hs | hs | ⟨-, id, r, hid, hr, hpending⟩ | ⟨hscan, hconsidered⟩ | ⟨t, task, htask, -⟩)
  · rw [hs] at hstatus
    rcases hstatus with hs | ⟨hs, -⟩ <;> cases hs
  · rcases hstatus with hstatus | ⟨hstatus, -⟩ <;> rw [hstatus] at hs <;> cases hs
  · rw [hid, Option.bind_some, hr, Option.all_some] at happroval
    exact of_decide_eq_true happroval hpending
  · rcases hstatus with hstatus | ⟨-, hpassed⟩
    · rcases of_decide_eq_true (Table.mem_select.1 hscan).2 with hs | hs <;> rw [hstatus] at hs <;> cases hs
    · exact hconsidered (Option.isNone_iff_eq_none.1 hpassed)
  · rw [htasks t] at htask
    cases htask

theorem operations_stranded :
    (∃ o ∈ (run (OperationService.exec plainGateway) emptyLedger crashedWorker).operations.rows,
      o.status.terminal = false ∧ ¬ (run (OperationService.exec plainGateway) emptyLedger crashedWorker).GoesOn o) ∧
    ∃ o ∈ (run (OperationService.exec plainGateway) emptyLedger replacedRequest).operations.rows,
      o.status.terminal = false ∧ ¬ (run (OperationService.exec plainGateway) emptyLedger replacedRequest).GoesOn o := by
  have hcrashed : ∃ o ∈ (run (OperationService.exec plainGateway) emptyLedger crashedWorker).operations.rows,
      o.status.terminal = false ∧
        (run (OperationService.exec plainGateway) emptyLedger crashedWorker).passesOver o = true := by
    decide +kernel
  have hreplaced : ∃ o ∈ (run (OperationService.exec plainGateway) emptyLedger replacedRequest).operations.rows,
      o.status.terminal = false ∧
        (run (OperationService.exec plainGateway) emptyLedger replacedRequest).passesOver o = true := by
    decide +kernel
  obtain ⟨o, ho, hopen, hpassed⟩ := hcrashed
  obtain ⟨x, hx, hopen', hpassed'⟩ := hreplaced
  exact ⟨⟨o, ho, hopen, stranded_of (fun _ => rfl) hpassed⟩, x, hx, hopen', stranded_of (fun _ => rfl) hpassed'⟩

/-- The approved call of `approvedCall`, with a crash before the worker claims it. -/
theorem operations_go_on_crash :
    (run (OperationService.exec plainGateway) emptyLedger
      (approvedCall.take 10 ++ [.crash])).operations.rows.length = 1 ∧
    ∀ o ∈ (run (OperationService.exec plainGateway) emptyLedger (approvedCall.take 10 ++ [.crash])).operations.rows,
      o.status.terminal = true ∨
        (run (OperationService.exec plainGateway) emptyLedger (approvedCall.take 10 ++ [.crash])).GoesOn o :=
  ⟨by decide +kernel, operations_go_on plainGateway emptyLedger_initial _ (by decide +kernel)⟩

end Mesa.Gateway
