/-
What a step of the gateway can do to a row of the ledger, to an approval, to the writes and to the
tasks. Everything about runs is derived from these cases.
-/
import Mesa.Gateway.OperationLedger

namespace Mesa.Gateway

open Mesa.Foundation

variable {P B : Type} {env : GatewayEnv P B} {s : OperationService P B} {task : OperationTask P B} {a : Answer}
  {step : GatewayStep P}

/-! ## Statements -/

@[simp] theorem put_operations (t : Nat) (next : Option (OperationTask P B)) : (s.put t next).operations = s.operations :=
  rfl

@[simp] theorem put_approvals (t : Nat) (next : Option (OperationTask P B)) : (s.put t next).approvals = s.approvals :=
  rfl

@[simp] theorem put_issued (t : Nat) (next : Option (OperationTask P B)) : (s.put t next).issued = s.issued := rfl

theorem put_tasks (t i : Nat) (next : Option (OperationTask P B)) :
    (s.put t next).tasks i = if i = t then next else s.tasks i :=
  Function.update_apply ..

theorem lookup_setOperation (id k : String) (u : Assignment) :
    (s.setOperation id u).operations.lookup k = (s.operations.lookup k).map fun o =>
      if decide (o.operationId = id) then o.set u else o :=
  Table.lookup_update _ _ (McpOperation.set u) (fun _ => rfl) k

theorem lookup_transition (id k : String) (expected : OperationStatus) (u : Assignment) :
    (s.transitionOperation id expected u).1.operations.lookup k = (s.operations.lookup k).map fun o =>
      if decide (o.operationId = id ∧ o.status = expected) then o.set u else o :=
  Table.lookup_update _ _ (McpOperation.set u) (fun _ => rfl) k

/-- The CAS goes through when the row has the expected status. -/
theorem transition_moved {id : String} {expected : OperationStatus} {u : Assignment} :
    (s.transitionOperation id expected u).2 = true ↔
      ∃ o, s.operations.lookup id = some o ∧ o.status = expected := by
  unfold OperationService.transitionOperation
  rw [Table.anyWhere_iff]
  constructor
  · rintro ⟨o, ho, h⟩
    obtain ⟨rfl, hstatus⟩ := of_decide_eq_true h
    exact ⟨o, Table.lookup_of_mem ho, hstatus⟩
  · rintro ⟨o, ho, hstatus⟩
    exact ⟨o, Table.lookup_mem ho, decide_eq_true ⟨Table.lookup_key ho, hstatus⟩⟩

variable (env s) in
theorem lookup_inserted (c : ToolCall P) (key fresh k : String) :
    (s.inserted env c key fresh).lookup k = s.operations.lookup k ∨
      s.operations.lookup k = none ∧ ∃ o, (s.inserted env c key fresh).lookup k = some o ∧ o.status = .created := by
  unfold OperationService.inserted
  split
  · exact .inl rfl
  rw [Table.lookup_insertOrIgnore]
  cases s.operations.lookup k with
  | some o => exact .inl rfl
  | none =>
    rw [Option.none_or]
    split
    · exact .inr ⟨rfl, _, rfl, rfl⟩
    · exact .inl rfl

theorem lookup_decideApproval (id k : String) (decision : Decision) :
    (s.decideApproval id decision).approvals.lookup k = (s.approvals.lookup k).map fun r =>
      if decide (r.approvalId = id ∧ r.status = .pending) then { r with status := decision.approval } else r :=
  Table.lookup_update _ _ (fun r : Approval => { r with status := decision.approval }) (fun _ => rfl) k

theorem lookup_expire (cutoff : Int) (k : String) :
    (s.expireStaleApprovals cutoff).approvals.lookup k = (s.approvals.lookup k).map fun r =>
      if decide (r.status = .pending ∧ r.requestedAt < cutoff) then { r with status := .expired } else r :=
  Table.lookup_update _ _ (fun r : Approval => { r with status := .expired }) (fun _ => rfl) k

/-- What a decision of an operator does, and when. -/
theorem decide_eq_ok {id : String} {decision : Decision} {reason : Option String} {admin active : Bool}
    {s' : OperationService P B} (h : s.decide id decision reason admin active = .ok s') :
    ∃ o approval, s.operations.lookup id = some o ∧ o.status = .pendingApproval ∧
      o.approvalId = some approval.approvalId ∧ s.approvals.lookup approval.approvalId = some approval ∧
      approval.status = .pending ∧ s'.approvals = (s.decideApproval approval.approvalId decision).approvals ∧
      s'.issued = s.issued ∧ s'.tasks = s.tasks ∧ ∀ k, s'.operations.lookup k = (s.operations.lookup k).map fun o =>
        if decide (o.operationId = id ∧ o.status = .pendingApproval) then decision.apply reason o else o := by
  unfold OperationService.decide at h
  split at h
  · cases h
  cases ho : s.operations.lookup id with
  | none => rw [ho] at h; cases h
  | some o =>
    rw [ho] at h
    dsimp only at h
    split at h
    · cases h
    split at h
    · cases h
    next hstatus =>
    cases happroval : o.approvalId.bind s.approvals.lookup with
    | none => rw [happroval] at h; cases h
    | some approval =>
      rw [happroval] at h
      dsimp only at h
      split at h
      · cases h
      next hpending =>
      obtain ⟨approvalId, hid, hlookup⟩ := Option.bind_eq_some_iff.1 happroval
      obtain rfl : approval.approvalId = approvalId := Table.lookup_key hlookup
      simp only [ne_eq, not_or, not_not] at hpending
      cases h
      refine ⟨o, approval, rfl, not_not.1 hstatus, hid, hlookup, hpending.2.2, rfl, rfl, rfl, fun k => ?_⟩
      exact Table.lookup_update _ _ (decision.apply reason) (fun _ => by cases decision <;> rfl) k

/-! ## Rows -/

/-- What a step can do to a row of the ledger. -/
inductive RowMove (env : GatewayEnv P B) (s : OperationService P B) (step : GatewayStep P) (o : McpOperation B) :
    McpOperation B → Prop
  | kept : RowMove env s step o o
  | set {t : Nat} {a : Answer} {task : OperationTask P B} {u : Assignment} {continuation : Continuation}
      (hstep : step = .resume t a) (htask : s.tasks t = some task)
      (hphase : task.phase = .setting o.operationId u continuation) : RowMove env s step o (o.set u)
  | decided {t : Nat} {a : Answer} {task : OperationTask P B} {op : McpOperation B} {approval : Approval}
      (hstep : step = .resume t a) (htask : s.tasks t = some task) (hphase : task.phase = .deciding op approval)
      (hid : op.operationId = o.operationId) (hstatus : o.status = .pendingApproval) :
      RowMove env s step o (o.set { status := approval.target })
  | denied {u : Assignment} (hstatus : o.status = .approved) (hdenied : u.status = .denied) :
      RowMove env s step o (o.set u)
  | claimed {t : Nat} {a : Answer} {task : OperationTask P B} {op : McpOperation B} {approval : Approval}
      (hstep : step = .resume t a) (htask : s.tasks t = some task) (hphase : task.phase = .claiming op approval)
      (hid : op.operationId = o.operationId) (hstatus : o.status = .approved) :
      RowMove env s step o (o.set { status := .dispatching })
  | operator {decision : Decision} {reason : Option String} {approval : Approval}
      (hstatus : o.status = .pendingApproval) (hrecorded : o.approvalId = some approval.approvalId)
      (hafter : (s.exec env step).approvals.lookup approval.approvalId =
        some { approval with status := decision.approval }) :
      RowMove env s step o (decision.apply reason o)

/-- The tables after a step of a task, by its phase. -/
theorem advance_operations : (s.advance env task a).1.operations =
    match task.phase with
    | .creating c => (s.createOperation env task c a).1.operations
    | .deciding op approval => (s.decideScanned task op approval).1.operations
    | .mismatched op => (s.denyScanned task op).1.operations
    | .claiming op approval => (s.claimScanned task op approval).1.operations
    | .setting id u _ => (s.setOperation id u).operations
    | _ => s.operations := by
  unfold OperationService.advance
  cases task.phase with
  | evaluating c op => dsimp only; split <;> rfl
  | requesting c op => unfold OperationService.requestApproval; dsimp only; split <;> rfl
  | running op binding principalId warrant =>
    unfold OperationService.runOperation
    dsimp only
    split
    · rfl
    split <;> rfl
  | writing op => dsimp only; split <;> rfl
  | _ => rfl

variable (env s task a) in
theorem create_cases (c : ToolCall P) : (s.createOperation env task c a).1 = s ∨
    ∃ key, (s.createOperation env task c a).1 = { s with operations := s.inserted env c key a.fresh } := by
  unfold OperationService.createOperation
  split
  · exact .inl rfl
  next key _ =>
  refine .inr ⟨key, ?_⟩
  dsimp only
  split
  · rfl
  split
  · rfl
  split <;> rfl

theorem decideScanned_state {op : McpOperation B} {approval : Approval} :
    (s.decideScanned task op approval).1 =
      (s.transitionOperation op.operationId .pendingApproval { status := approval.target }).1 := by
  unfold OperationService.decideScanned
  split
  next h =>
    rw [h]
    split <;> rfl
  next h => rw [h]

theorem claimScanned_state {op : McpOperation B} {approval : Approval} :
    (s.claimScanned task op approval).1 =
      (s.transitionOperation op.operationId .approved { status := .dispatching }).1 := by
  unfold OperationService.claimScanned
  split
  next h => rw [h]
  next h => rw [h]

variable (env a) in
/-- A step of a task moves a row that is there. -/
theorem advance_row {t : Nat} {k : String} {o : McpOperation B} (htask : s.tasks t = some task)
    (ho : s.operations.lookup k = some o) :
    ∃ o', (s.advance env task a).1.operations.lookup k = some o' ∧ RowMove env s (.resume t a) o o' := by
  obtain rfl : o.operationId = k := Table.lookup_key ho
  rw [advance_operations]
  split
  next c _ =>
    rcases create_cases env s task a c with h | ⟨key, h⟩
    · exact ⟨o, by rw [h, ho], .kept⟩
    · rw [h]
      rcases lookup_inserted env s c key a.fresh o.operationId with h | ⟨h, -⟩
      · exact ⟨o, by rw [h, ho], .kept⟩
      · rw [ho] at h; cases h
  next op approval hphase =>
    rw [decideScanned_state, lookup_transition, ho, Option.map_some]
    split
    next h =>
      obtain ⟨hid, hstatus⟩ := of_decide_eq_true h
      exact ⟨_, rfl, .decided rfl htask hphase hid.symm hstatus⟩
    · exact ⟨o, rfl, .kept⟩
  next op _ =>
    rw [OperationService.denyScanned, lookup_transition, ho, Option.map_some]
    split
    next h => exact ⟨_, rfl, .denied (of_decide_eq_true h).2 rfl⟩
    · exact ⟨o, rfl, .kept⟩
  next op approval hphase =>
    rw [claimScanned_state, lookup_transition, ho, Option.map_some]
    split
    next h =>
      obtain ⟨hid, hstatus⟩ := of_decide_eq_true h
      exact ⟨_, rfl, .claimed rfl htask hphase hid.symm hstatus⟩
    · exact ⟨o, rfl, .kept⟩
  next id u continuation hphase =>
    rw [lookup_setOperation, ho, Option.map_some]
    split
    next h =>
      obtain rfl : o.operationId = id := of_decide_eq_true h
      exact ⟨_, rfl, .set rfl htask hphase⟩
    · exact ⟨o, rfl, .kept⟩
  · exact ⟨o, ho, .kept⟩

variable (env step) in
/-- A row that is there stays, and moves in one of these ways. -/
theorem exec_row {k : String} {o : McpOperation B} (ho : s.operations.lookup k = some o) :
    ∃ o', (s.exec env step).operations.lookup k = some o' ∧ RowMove env s step o o' := by
  obtain rfl : o.operationId = k := Table.lookup_key ho
  have kept (h : (s.exec env step).operations = s.operations) :
      ∃ o', (s.exec env step).operations.lookup o.operationId = some o' ∧ RowMove env s step o o' :=
    ⟨o, by rw [h, ho], .kept⟩
  cases step with
  | call t c => exact kept (by unfold OperationService.exec OperationService.begin; dsimp only; split <;> rfl)
  | work t => exact kept (by unfold OperationService.exec OperationService.begin; dsimp only; split <;> rfl)
  | poll t clientId bindingId id =>
    exact kept (by unfold OperationService.exec OperationService.begin; dsimp only; split <;> rfl)
  | resume t a =>
    cases htask : s.tasks t with
    | none => exact kept (by unfold OperationService.exec; dsimp only; rw [htask])
    | some task =>
      obtain ⟨o', ho', hmove⟩ := advance_row env a htask ho
      exact ⟨o', by unfold OperationService.exec; dsimp only; rw [htask]; exact ho', hmove⟩
  | decide id decision reason admin active =>
    unfold OperationService.exec
    dsimp only
    cases hdecide : s.decide id decision reason admin active with
    | error e => exact ⟨o, ho, .kept⟩
    | ok s' =>
      obtain ⟨x, approval, hx, hstatus, hrecorded, hlookup, hpending, happrovals, -, -, hrows⟩ := decide_eq_ok hdecide
      rw [orKeep_ok, hrows, ho, Option.map_some]
      split
      next h =>
        obtain ⟨rfl, -⟩ := of_decide_eq_true h
        obtain rfl : o = x := Option.some.inj (ho.symm.trans hx)
        refine ⟨_, rfl, .operator hstatus hrecorded ?_⟩
        unfold OperationService.exec
        dsimp only
        rw [hdecide, orKeep_ok, happrovals, lookup_decideApproval, hlookup, Option.map_some]
        simp [hpending]
      · exact ⟨o, rfl, .kept⟩
  | cut t => exact kept rfl
  | crash => exact kept rfl
  | decideApproval id decision => exact kept rfl
  | expire cutoff => exact kept rfl
  | policy p => exact kept rfl

/-- A row that is new has been created. -/
theorem exec_new {k : String} {o : McpOperation B} (hnew : s.operations.lookup k = none)
    (ho : (s.exec env step).operations.lookup k = some o) : o.status = .created := by
  have absent (h : (s.exec env step).operations.lookup k = (s.operations.lookup k).map fun o => o) : False := by
    rw [ho, hnew] at h; cases h
  cases step with
  | resume t a =>
    unfold OperationService.exec at ho
    dsimp only at ho
    cases htask : s.tasks t with
    | none => rw [htask] at ho; rw [hnew] at ho; cases ho
    | some task =>
      rw [htask] at ho
      dsimp only at ho
      rw [put_operations, advance_operations] at ho
      split at ho
      next c _ =>
        rcases create_cases env s task a c with h | ⟨key, h⟩
        · rw [h, hnew] at ho; cases ho
        · rw [h] at ho
          rcases lookup_inserted env s c key a.fresh k with h | ⟨-, o', ho', hstatus⟩
          · rw [h, hnew] at ho; cases ho
          · rw [ho'] at ho
            cases ho
            exact hstatus
      · rw [decideScanned_state, lookup_transition, hnew] at ho; cases ho
      · rw [OperationService.denyScanned, lookup_transition, hnew] at ho; cases ho
      · rw [claimScanned_state, lookup_transition, hnew] at ho; cases ho
      · rw [lookup_setOperation, hnew] at ho; cases ho
      · rw [hnew] at ho; cases ho
  | decide id decision reason admin active =>
    unfold OperationService.exec at ho
    dsimp only at ho
    cases hdecide : s.decide id decision reason admin active with
    | error e => rw [hdecide, orKeep_error, hnew] at ho; cases ho
    | ok s' =>
      obtain ⟨x, approval, -, -, -, -, -, -, -, -, hrows⟩ := decide_eq_ok hdecide
      rw [hdecide, orKeep_ok, hrows, hnew] at ho
      cases ho
  | call t c | work t | poll t clientId bindingId id =>
    unfold OperationService.exec OperationService.begin at ho
    dsimp only at ho
    split at ho
    · rw [hnew] at ho; cases ho
    · rw [put_operations, hnew] at ho; cases ho
  | cut t | crash | decideApproval id decision | expire cutoff | policy p =>
    change s.operations.lookup k = some o at ho
    rw [hnew] at ho
    cases ho

/-! ## Approvals and writes -/

variable (env s task a) in
/-- What a step of a task does to the service: a change of the ledger, a new approval, or a write. -/
theorem advance_cases : (s.advance env task a).1 = { s with operations := (s.advance env task a).1.operations } ∨
    (∃ approval, s.approvals.lookup approval.approvalId = none ∧
      (s.advance env task a).1 = { s with approvals := s.approvals.insertOrIgnore approval }) ∨
    ∃ op binding principalId warrant, task.phase = .running op binding principalId warrant ∧
      (s.advance env task a).1 = { s with issued := s.issue env op binding principalId warrant :: s.issued } := by
  unfold OperationService.advance
  cases hphase : task.phase with
  | creating c =>
    rcases create_cases env s task a c with h | ⟨key, h⟩ <;>
      exact .inl (by dsimp only; rw [h])
  | evaluating c op => refine .inl ?_; dsimp only; split <;> rfl
  | requesting c op =>
    unfold OperationService.requestApproval
    dsimp only
    split
    · exact .inl rfl
    next h => exact .inr (.inl ⟨_, Table.hasKey_eq_false.1 (Bool.eq_false_iff.2 h), rfl⟩)
  | running op binding principalId warrant =>
    unfold OperationService.runOperation
    dsimp only
    split
    · exact .inl rfl
    split
    · exact .inl rfl
    · exact .inr (.inr ⟨op, binding, principalId, warrant, rfl, rfl⟩)
  | deciding op approval => exact .inl (by dsimp only; rw [decideScanned_state]; rfl)
  | claiming op approval => exact .inl (by dsimp only; rw [claimScanned_state]; rfl)
  | writing op => refine .inl ?_; dsimp only; split <;> rfl
  | _ => exact .inl rfl

variable (env step) in
/-- An approval stays, and does not change any more once it is not pending. -/
theorem exec_approval {k : String} {r : Approval} (hr : s.approvals.lookup k = some r) :
    ∃ r', (s.exec env step).approvals.lookup k = some r' ∧ (r.status ≠ .pending → r' = r) := by
  have kept (h : (s.exec env step).approvals = s.approvals) :
      ∃ r', (s.exec env step).approvals.lookup k = some r' ∧ (r.status ≠ .pending → r' = r) :=
    ⟨r, by rw [h, hr], fun _ => rfl⟩
  have decided (id : String) (decision : Decision) :
      ∃ r', (s.decideApproval id decision).approvals.lookup k = some r' ∧ (r.status ≠ .pending → r' = r) := by
    rw [lookup_decideApproval, hr, Option.map_some]
    exact ⟨_, rfl, fun h => if_neg fun hdec => h (of_decide_eq_true hdec).2⟩
  cases step with
  | resume t a =>
    cases htask : s.tasks t with
    | none => exact kept (by unfold OperationService.exec; dsimp only; rw [htask])
    | some task =>
      have hexec : (s.exec env (.resume t a)).approvals = (s.advance env task a).1.approvals := by
        unfold OperationService.exec; dsimp only; rw [htask]; rfl
      rcases advance_cases env s task a with h | ⟨approval, -, h⟩ | ⟨_, _, _, _, -, h⟩
      · exact kept (hexec.trans (by rw [h]))
      · refine ⟨r, ?_, fun _ => rfl⟩
        rw [hexec, h, Table.lookup_insertOrIgnore, hr, Option.some_or]
      · exact kept (hexec.trans (by rw [h]))
  | decide id decision reason admin active =>
    unfold OperationService.exec
    dsimp only
    cases hdecide : s.decide id decision reason admin active with
    | error e => exact ⟨r, hr, fun _ => rfl⟩
    | ok s' =>
      obtain ⟨x, approval, -, -, -, -, -, happrovals, -⟩ := decide_eq_ok hdecide
      rw [orKeep_ok, happrovals]
      exact decided _ _
  | decideApproval id decision => exact decided id decision
  | expire cutoff =>
    show ∃ r', (s.expireStaleApprovals cutoff).approvals.lookup k = some r' ∧ _
    rw [lookup_expire, hr, Option.map_some]
    exact ⟨_, rfl, fun h => if_neg fun hdec => h (of_decide_eq_true hdec).1⟩
  | call t c | work t | poll t clientId bindingId id =>
    exact kept (by unfold OperationService.exec OperationService.begin; dsimp only; split <;> rfl)
  | cut t | crash | policy p => exact kept rfl

variable (env s step) in
/-- Only a task that runs an operation hands a write to the backend. -/
theorem exec_issued : (s.exec env step).issued = s.issued ∨
    ∃ t a task op binding principalId warrant, step = .resume t a ∧ s.tasks t = some task ∧
      task.phase = .running op binding principalId warrant ∧
      (s.exec env step).issued = s.issue env op binding principalId warrant :: s.issued := by
  cases step with
  | resume t a =>
    unfold OperationService.exec
    dsimp only
    cases htask : s.tasks t with
    | none => exact .inl rfl
    | some task =>
      dsimp only
      rw [put_issued]
      rcases advance_cases env s task a with
        h | ⟨approval, -, h⟩ | ⟨op, binding, principalId, warrant, hphase, h⟩
      · exact .inl (by rw [h])
      · exact .inl (by rw [h])
      · exact .inr ⟨t, a, task, op, binding, principalId, warrant, rfl, htask, hphase, by rw [h]⟩
  | decide id decision reason admin active =>
    refine .inl ?_
    unfold OperationService.exec
    dsimp only
    cases hdecide : s.decide id decision reason admin active with
    | error e => rfl
    | ok s' =>
      obtain ⟨x, approval, -, -, -, -, -, -, hissued, -⟩ := decide_eq_ok hdecide
      rw [orKeep_ok, hissued]
  | call t c | work t | poll t clientId bindingId id =>
    exact .inl (by unfold OperationService.exec OperationService.begin; dsimp only; split <;> rfl)
  | cut t | crash | decideApproval id decision | expire cutoff | policy p => exact .inl rfl

/-! ## Tasks -/

variable (env s task a) in
theorem advance_tasks : (s.advance env task a).1.tasks = s.tasks := by
  rcases advance_cases env s task a with h | ⟨approval, -, h⟩ | ⟨_, _, _, _, -, h⟩ <;>
    rw [h]

/-- A task is new, or has taken its next step, or waits. -/
theorem exec_tasks {i : Nat} {task' : OperationTask P B} (h : (s.exec env step).tasks i = some task') :
    s.tasks i = some task' ∨
    (∃ a task, step = .resume i a ∧ s.tasks i = some task ∧ (s.advance env task a).2 = some task') ∨
    (∃ c, task' = ⟨.request, .creating c, .created⟩) ∨ task' = ⟨.worker [], .scanning, .created⟩ ∨
    ∃ clientId bindingId id, task' = ⟨.request, .reading clientId bindingId id, .created⟩ := by
  have begun {t : Nat} {caller : Caller B} {phase : Phase P B} (h : (s.begin t caller phase).tasks i = some task') :
      s.tasks i = some task' ∨ task' = ⟨caller, phase, .created⟩ := by
    unfold OperationService.begin at h
    split at h
    · exact .inl h
    rw [put_tasks] at h
    split at h
    · cases h
      exact .inr rfl
    · exact .inl h
  cases step with
  | call t c =>
    rcases begun h with h | h
    · exact .inl h
    · exact .inr (.inr (.inl ⟨c, h⟩))
  | work t =>
    rcases begun h with h | h
    · exact .inl h
    · exact .inr (.inr (.inr (.inl h)))
  | poll t clientId bindingId id =>
    rcases begun h with h | h
    · exact .inl h
    · exact .inr (.inr (.inr (.inr ⟨clientId, bindingId, id, h⟩)))
  | resume t a =>
    unfold OperationService.exec at h
    dsimp only at h
    cases htask : s.tasks t with
    | none => rw [htask] at h; exact .inl h
    | some task =>
      rw [htask] at h
      dsimp only at h
      rw [put_tasks] at h
      split at h
      next hi =>
        subst hi
        exact .inr (.inl ⟨a, task, rfl, htask, h⟩)
      · exact .inl (by rw [← advance_tasks env s task a]; exact h)
  | cut t =>
    change (s.put t none).tasks i = some task' at h
    rw [put_tasks] at h
    split at h
    · cases h
    · exact .inl h
  | crash => cases h
  | decide id decision reason admin active =>
    unfold OperationService.exec at h
    dsimp only at h
    cases hdecide : s.decide id decision reason admin active with
    | error e => rw [hdecide] at h; exact .inl h
    | ok s' =>
      obtain ⟨x, approval, -, -, -, -, -, -, -, htasks, -⟩ := decide_eq_ok hdecide
      rw [hdecide, orKeep_ok, htasks] at h
      exact .inl h
  | decideApproval id decision | expire cutoff | policy p => exact .inl h

end Mesa.Gateway
