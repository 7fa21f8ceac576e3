/-
Which writes the gateway hands to the backend, and that a final status is final: for every run whose
steps overwrite no status that became final in the meantime.
-/
import Mesa.Gateway.OperationTasks

namespace Mesa.Gateway

open Mesa.Foundation

variable {P B : Type} {env : GatewayEnv P B} {s : OperationService P B} {step : GatewayStep P}

/-! ## The claim -/

/-- The policy allowed the call, or the approval recorded on the operation is approved for its payload. -/
def IssuedWrite.Authorised (w : IssuedWrite P) : Prop :=
  w.effect = some "ALLOW" ∨ ∃ r, w.recorded = some r ∧ r.status = .approved ∧ w.payloadHash = some r.payloadHash

instance (w : IssuedWrite P) : Decidable w.Authorised :=
  decidable_of_iff (w.effect = some "ALLOW" ∨
    w.recorded.any (fun r => decide (r.status = .approved ∧ w.payloadHash = some r.payloadHash)) = true) <| by
      unfold IssuedWrite.Authorised
      cases w.recorded <;> simp

def OperationService.statusOf (s : OperationService P B) (operationId : String) : Option OperationStatus :=
  (s.operations.lookup operationId).map (·.status)

/-- What `evaluate` documents to return. -/
def policyEffects : List String := ["ALLOW", "DENY", "REQUIRE_APPROVAL"]

/-- The rule or setting that decides says one of the three effects; an approved operation still records the
approval that the worker read when it is run; and a status that is assigned without a comparison is the one that
the task last saw, or not final. -/
def OperationService.fitTask (s : OperationService P B) (task : OperationTask P B) : Bool :=
  match task.phase with
  | .evaluating c _ =>
    (s.policy.ruled c.clientId c.binding.externalProjectId c.toolName.policyOperation).all (· ∈ policyEffects)
  | .defaulting c _ => s.policy.defaulted c.toolName.policyOperation ∈ policyEffects
  | .running op _ _ (.approval r) => (s.operations.lookup op.operationId).all fun o => o.approvalId = some r.approvalId
  | .setting operationId _ _ =>
    (s.operations.lookup operationId).all fun o => o.status = task.seen ∨ o.status.terminal = false
  | _ => true

def OperationService.fit (s : OperationService P B) : GatewayStep P → Bool
  | .resume t _ => (s.tasks t).all s.fitTask
  | _ => true

/-! ## The invariant -/

theorem fit_resume {t : Nat} {a : Answer} {task : OperationTask P B} (h : s.fit (.resume t a) = true)
    (htask : s.tasks t = some task) : s.fitTask task = true := by
  change (s.tasks t).all s.fitTask = true at h
  rwa [htask, Option.all_some] at h

theorem fit_evaluates {task : OperationTask P B} (h : s.fitTask task = true) :
    s.Evaluates (· ∈ policyEffects) task := by
  unfold OperationService.fitTask at h
  unfold OperationService.Evaluates
  cases hphase : task.phase with
  | evaluating c op =>
    intro effect heffect
    rw [hphase] at h
    dsimp only at h
    rw [heffect, Option.all_some] at h
    exact of_decide_eq_true h
  | defaulting c op =>
    rw [hphase] at h
    exact of_decide_eq_true h
  | _ => trivial

/-- A write is issued only with an authority. -/
theorem issue_authorised {t : Nat} {task : OperationTask P B} {op : McpOperation B}
    {binding : ProjectBinding} {principalId : String} {warrant : Warrant} (hs : s.Sound (· ∈ policyEffects))
    (h : s.fitTask task = true) (htask : s.tasks t = some task)
    (hphase : task.phase = .running op binding principalId warrant) :
    (s.issue env op binding principalId warrant).Authorised := by
  have hsound := (hs t task htask).phase
  rw [hphase] at hsound
  obtain ⟨-, ⟨o, ho, -, hhash⟩, hwarrant⟩ := hsound
  cases warrant with
  | effect effect =>
    obtain ⟨hmem, hdeny, happroval⟩ := hwarrant
    refine .inl (congrArg some ?_)
    simp only [policyEffects, List.mem_cons, List.not_mem_nil, or_false] at hmem
    rcases hmem with rfl | rfl | rfl
    · rfl
    · exact absurd rfl hdeny
    · exact absurd rfl happroval
  | approval r =>
    obtain ⟨⟨hr, -⟩, happroved, hpayload⟩ := hwarrant
    unfold OperationService.fitTask at h
    rw [hphase] at h
    dsimp only at h
    rw [ho, Option.all_some] at h
    have hrecorded : o.approvalId = some r.approvalId := of_decide_eq_true h
    refine .inr ⟨r, ?_, happroved, ?_⟩
    · show (s.operations.lookup op.operationId).bind _ = some r
      rw [ho, Option.bind_some, hrecorded, Option.bind_some, hr]
    · show (s.operations.lookup op.operationId).map _ = _
      rw [ho, Option.map_some, hhash, hpayload]

/-- A fit step leaves a final status. -/
theorem fit_keeps_final {E : String → Prop} {operationId : String} {status : OperationStatus} (hs : s.Sound E)
    (h : s.fit step = true) (hstatus : s.statusOf operationId = some status) (hfinal : status.terminal = true) :
    (s.exec env step).statusOf operationId = some status := by
  obtain ⟨o, ho, rfl⟩ := Option.map_eq_some_iff.1 hstatus
  obtain rfl : o.operationId = operationId := Table.lookup_key ho
  obtain ⟨o', ho', hmove⟩ := exec_row env step ho
  refine Option.map_eq_some_iff.2 ⟨o', ho', ?_⟩
  cases hmove with
  | kept => rfl
  | @set t a task u continuation hstep htask hphase =>
    -- the row is still as the task saw it, and what the task saw is not final unless it writes it again
    subst hstep
    have hfit := fit_resume h htask
    unfold OperationService.fitTask at hfit
    rw [hphase] at hfit
    dsimp only at hfit
    rw [ho, Option.all_some] at hfit
    have hsound := (hs t task htask).phase
    rw [hphase] at hsound
    obtain ⟨hseen, -⟩ := hsound
    rcases of_decide_eq_true hfit with hcurrent | hopen
    · rcases hseen with hseen | hseen
      · rw [hcurrent, hseen] at hfinal
        cases hfinal
      · exact hseen.trans hcurrent.symm
    · rw [hopen] at hfinal
      cases hfinal
  | decided hstep htask hphase hid hpending => rw [hpending] at hfinal; cases hfinal
  | denied happroved hdenied => rw [happroved] at hfinal; cases hfinal
  | claimed hstep htask hphase hid happroved => rw [happroved] at hfinal; cases hfinal
  | operator hpending hrecorded hafter => rw [hpending] at hfinal; cases hfinal

theorem OperationService.Sound.exec_fit (hs : s.Sound (· ∈ policyEffects)) (h : s.fit step = true) :
    (s.exec env step).Sound (· ∈ policyEffects) := by
  refine hs.exec fun t a task hstep htask => ?_
  subst hstep
  exact fit_evaluates (fit_resume h htask)

theorem issued_authorised (hs : s.Sound (· ∈ policyEffects)) (hissued : ∀ w ∈ s.issued, w.Authorised)
    (h : s.fit step = true) : ∀ w ∈ (s.exec env step).issued, w.Authorised := by
  rcases exec_issued env s step with hsame |
    ⟨t, a, task, op, binding, principalId, warrant, rfl, htask, hphase, hnew⟩
  · rw [hsame]
    exact hissued
  · rw [hnew]
    intro w hw
    rcases List.mem_cons.1 hw with rfl | hw
    · exact issue_authorised hs (fit_resume h htask) htask hphase
    · exact hissued w hw

/-- In a run of fit steps every write that is handed to the backend is authorised, and a final status never
changes, whatever the calls, workers, polls, operators, policies and crashes do. -/
theorem writes_authorised_and_final (env : GatewayEnv P B) {s : OperationService P B} (hs : s.Initial)
    (steps later : List (GatewayStep P))
    (h : Along (OperationService.exec env) (fun s step => s.fit step = true) s (steps ++ later)) :
    (∀ w ∈ (run (OperationService.exec env) s (steps ++ later)).issued, w.Authorised) ∧
    ∀ operationId status, (run (OperationService.exec env) s steps).statusOf operationId = some status →
      status.terminal = true →
      (run (OperationService.exec env) s (steps ++ later)).statusOf operationId = some status := by
  have hsound : s.Sound (· ∈ policyEffects) := hs.sound
  constructor
  · have hwrites := invariant_run (I := fun s => s.Sound (· ∈ policyEffects) ∧ ∀ w ∈ s.issued, w.Authorised)
      (fun s step hs h => ⟨hs.1.exec_fit h, issued_authorised hs.1 hs.2 h⟩)
      ⟨hsound, fun w hw => by rw [hs.issued] at hw; cases hw⟩ h
    exact hwrites.2
  · intro operationId status hstatus hfinal
    obtain ⟨hsteps, hlater⟩ := along_append.1 h
    have hmiddle : (run (OperationService.exec env) s steps).Sound (· ∈ policyEffects) :=
      invariant_run (fun s step hs h => hs.exec_fit h) hsound hsteps
    rw [run_append]
    have hend := invariant_run
      (I := fun s => s.Sound (· ∈ policyEffects) ∧ s.statusOf operationId = some status)
      (fun s step hs h => ⟨hs.1.exec_fit h, fit_keeps_final hs.1 h hs.2 hfinal⟩) ⟨hmiddle, hstatus⟩ hlater
    exact hend.2

/-! ## Runs that meet the defects -/

/-- Payloads are texts that are stored as they are. -/
def plainGateway : GatewayEnv String String where
  encrypt payload := payload
  decrypt payload := payload
  payloadHash payload := payload
  idempotencyKey _ := .ok "key"
  provenance _ _ := .ok ()
  required _ _ := .ok ()
  upper state := state

def emptyLedger : OperationService String String := ⟨.empty, .empty, ⟨[], fun _ => none⟩, fun _ => none, []⟩

theorem emptyLedger_initial : emptyLedger.Initial :=
  ⟨fun _ ho => (by cases ho), fun _ => rfl, rfl⟩

def plainScope : ProjectBinding := ⟨"binding", "project", "tenant", "workspace", "dataset"⟩

def rememberCall : ToolCall String := ⟨"client", "connection", .mesaRemember, "payload", plainScope, "principal", none⟩

/-- The answer that every step of these runs gets, but for the uuid. -/
def plainAnswer (fresh : String) : Answer :=
  ⟨fresh, 0, some (plainScope, "principal"), .ok (), .ok [], .ok ⟨"COMMITTED", none⟩⟩

def globalRule (effect : String) : Policy := ⟨[⟨"rule", "GLOBAL", none, "WRITE", effect, 100⟩], fun _ => none⟩

/-- Two calls with one key find the operation created; the first commits it. -/
def committedCall : List (GatewayStep String) :=
  [.policy (globalRule "ALLOW"), .call 0 rememberCall, .call 1 rememberCall, .resume 0 (plainAnswer "op"),
    .resume 1 (plainAnswer "other"), .resume 0 (plainAnswer ""), .resume 0 (plainAnswer ""), .resume 0 (plainAnswer ""),
    .resume 0 (plainAnswer "")]

/-- The policy changes, and the second call denies what the first has committed. -/
def deniedCall : List (GatewayStep String) :=
  [.policy (globalRule "DENY"), .resume 1 (plainAnswer ""), .resume 1 (plainAnswer "")]

/-- Two calls with one key ask for approval; the worker runs the operation on the first request, while the
operation already records the second one. -/
def replacedApproval : List (GatewayStep String) :=
  [.call 0 rememberCall, .call 1 rememberCall, .resume 0 (plainAnswer "op"), .resume 1 (plainAnswer "other"),
    .resume 0 (plainAnswer ""), .resume 0 (plainAnswer ""), .resume 0 (plainAnswer "first"), .resume 0 (plainAnswer ""),
    .decide "op" .approved none true true,
    .work 2, .resume 2 (plainAnswer ""), .resume 2 (plainAnswer ""), .resume 2 (plainAnswer ""),
    .resume 1 (plainAnswer ""), .resume 1 (plainAnswer ""), .resume 1 (plainAnswer "second"), .resume 1 (plainAnswer ""),
    .resume 2 (plainAnswer ""), .resume 2 (plainAnswer "")]

/-- A rule with an effect that the engine does not document is run like one that allows. -/
def unknownEffect : List (GatewayStep String) :=
  [.policy (globalRule "AUDIT"), .call 0 rememberCall, .resume 0 (plainAnswer "op"), .resume 0 (plainAnswer ""),
    .resume 0 (plainAnswer "")]

theorem writes_unauthorised_or_not_final :
    (∃ w ∈ (run (OperationService.exec plainGateway) emptyLedger unknownEffect).issued, ¬ w.Authorised) ∧
    (∃ w ∈ (run (OperationService.exec plainGateway) emptyLedger replacedApproval).issued, ¬ w.Authorised) ∧
    (run (OperationService.exec plainGateway) emptyLedger committedCall).statusOf "op" = some .committed ∧
    (run (OperationService.exec plainGateway) emptyLedger (committedCall ++ deniedCall)).statusOf "op" = some .denied := by
  decide +kernel

/-- One call, approved and run: the write is authorised, and a poll leaves the committed status. -/
def approvedCall : List (GatewayStep String) :=
  [.call 0 rememberCall, .resume 0 (plainAnswer "op"), .resume 0 (plainAnswer ""), .resume 0 (plainAnswer ""),
    .resume 0 (plainAnswer "first"), .resume 0 (plainAnswer ""), .decide "op" .approved none true true,
    .work 2, .resume 2 (plainAnswer ""), .resume 2 (plainAnswer ""), .resume 2 (plainAnswer ""),
    .resume 2 (plainAnswer ""), .resume 2 (plainAnswer ""), .resume 2 (plainAnswer ""), .resume 2 (plainAnswer "")]

def polledCall : List (GatewayStep String) := [.poll 3 "client" none "op", .resume 3 (plainAnswer ""), .expire 5, .crash]

theorem writes_authorised_and_final_approved :
    (∀ w ∈ (run (OperationService.exec plainGateway) emptyLedger (approvedCall ++ polledCall)).issued, w.Authorised) ∧
    (run (OperationService.exec plainGateway) emptyLedger approvedCall).statusOf "op" = some .committed ∧
    (run (OperationService.exec plainGateway) emptyLedger (approvedCall ++ polledCall)).statusOf "op" = some .committed := by
  have h := writes_authorised_and_final plainGateway emptyLedger_initial approvedCall polledCall (by decide +kernel)
  have hcommitted : (run (OperationService.exec plainGateway) emptyLedger approvedCall).statusOf "op" = some .committed := by
    decide +kernel
  exact ⟨h.1, hcommitted, h.2 "op" .committed hcommitted rfl⟩

end Mesa.Gateway
