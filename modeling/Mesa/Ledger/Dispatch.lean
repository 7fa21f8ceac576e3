/-
What one transaction of the intake does to the dispatch queue and to the completion receipts. A
record is never deleted, and every change of one is a move below, each made by its own operation.
-/
import Mesa.Ledger.Admission

namespace Mesa.Ledger

open Mesa.Foundation

/-- A record that nobody holds. -/
@[reducible] def DispatchRecord.released (q : DispatchRecord) (state : DispatchState) (lease : Option Nat) :
    DispatchRecord :=
  { q with state := state, claimToken := none, claimedBy := none, leaseExpiresAt := lease }

@[reducible] def DispatchRecord.claimed (q : DispatchRecord) (workerId claimToken : String) (lease : Nat) :
    DispatchRecord :=
  { q with
    state := .inFlight
    claimedBy := some workerId
    claimToken := some claimToken
    leaseExpiresAt := some lease
    attemptCount := q.attemptCount + 1 }

/-- What one transaction can do to a record. -/
inductive DispatchMove (s : Intake) : IntakeOp → DispatchRecord → DispatchRecord → Prop
  | kept (op : IntakeOp) (q : DispatchRecord) : DispatchMove s op q q
  | claimed (w t : String) (limit lease : Nat)
    (plain : (Op.claimDispatchQueue w t limit lease).hasIntakeVersion = false) (q : DispatchRecord)
    (h : q.claimable s.db.now = true) :
    DispatchMove s (.ledger (.claimDispatchQueue w t limit lease) plain) q (q.claimed w t (s.db.now + lease))
  | recovered (plain : Op.recoverInFlight.hasIntakeVersion = false) (q : DispatchRecord) (h : q.state = .inFlight) :
    DispatchMove s (.ledger .recoverInFlight plain) q (q.released .retryPending none)
  | finalized (w t o : String) (q : DispatchRecord) (h : q.heldBy w t = true) :
    DispatchMove s (.completeDispatchQueue q.key w t o true) q (q.released .finalized none)
  | retried (w t o : String) (q : DispatchRecord) (h : q.heldBy w t = true) (lease : Nat)
    (hlimit : q.attemptCount < 5) :
    DispatchMove s (.completeDispatchQueue q.key w t o false) q (q.released .retryPending (some lease))
  | deadLettered (w t o : String) (q : DispatchRecord) (h : q.heldBy w t = true) (hlimit : 5 ≤ q.attemptCount) :
    DispatchMove s (.completeDispatchQueue q.key w t o false) q (q.released .deadLetter none)
  | requeued (r : String) (t : Option String) (q : DispatchRecord) (h : q.state = .deadLetter) :
    DispatchMove s (.replayPipelineRun r t) q { (q.released .retryPending none) with attemptCount := 0 }

/-- The operation finalizes the record. -/
def finalizes (s : Intake) : IntakeOp → DispatchKey → Bool
  | .completeDispatchQueue key w t _ true, k => key = k && (s.db.queue.dispatch.lookup k).any (·.heldBy w t)
  | _, _ => false

/-- The policy that an operation enforces, where `policy` is the configured one. -/
def IntakeOp.enforced (policy : QueueAdmissionPolicy) : IntakeOp → QueueAdmissionPolicy
  | .dispatchRawLog _ _ _ given => given.getD defaultQueueAdmissionPolicy
  | _ => policy

/-- A step that queues a record with its charge, within the policy it enforces. -/
structure Enqueues (env : IntakeEnv) (policy : QueueAdmissionPolicy) (s : Intake) (op : IntakeOp) (s' : Intake)
    (key : DispatchKey) (tenantId : String) (payloadBytes : Nat) : Prop where
  row : s'.db.queue.dispatch = s.db.queue.dispatch.insertOrIgnore (enqueuedRecord key tenantId)
  charge : s'.charges = s.charges.insertOrIgnore ⟨key, payloadBytes⟩
  enforced : s.enforce (op.enforced policy) tenantId payloadBytes = .ok ()
  log : ∀ a l w given, op = .dispatchRawLog a l w given → tenantId = a ∧
    ((s.journal.lookup l).any fun j => j.state = .receiptRecorded) = false ∧
    ∃ log, s.logs.lookup l = some log ∧ payloadBytes = env.canonicalPayloadBytes log.payload

/-- A transaction that commits moves every record or queues one, and writes a completion receipt
exactly for the record it finalizes. -/
structure DispatchStep (env : IntakeEnv) (policy : QueueAdmissionPolicy) (s : Intake) (op : IntakeOp) (s' : Intake) :
    Prop where
  rows : (s.db.queue.dispatch.Rel (DispatchMove s op) s'.db.queue.dispatch ∧ s'.charges = s.charges) ∨
    ∃ key tenantId payloadBytes, Enqueues env policy s op s' key tenantId payloadBytes
  receipts : ∀ k, s'.completions.hasKey k = true ↔ s.completions.hasKey k = true ∨ finalizes s op k = true
  finals : ∀ k, finalizes s op k = true → (s'.db.queue.dispatch.lookup k).any (·.state = .finalized) = true

theorem DispatchMove.key {s : Intake} {op : IntakeOp} {q q' : DispatchRecord} (h : DispatchMove s op q q') :
    q'.key = q.key := by
  cases h <;> rfl

variable {env : IntakeEnv} {policy : QueueAdmissionPolicy}

/-- An operation that finalizes nothing and leaves the receipts alone. -/
theorem dispatchStep_of_rows {s s' : Intake} {op : IntakeOp} (hop : ∀ k, finalizes s op k = false)
    (hcompletions : s'.completions = s.completions)
    (hrows : (s.db.queue.dispatch.Rel (DispatchMove s op) s'.db.queue.dispatch ∧ s'.charges = s.charges) ∨
      ∃ key tenantId payloadBytes, Enqueues env policy s op s' key tenantId payloadBytes) :
    DispatchStep env policy s op s' where
  rows := hrows
  receipts k := by rw [hcompletions, hop k]; simp
  finals k hk := by rw [hop k] at hk; cases hk

/-- An operation that leaves the queue alone. -/
theorem dispatchStep_of_same {s s' : Intake} {op : IntakeOp} (hop : ∀ k, finalizes s op k = false)
    (hcompletions : s'.completions = s.completions) (hqueue : s'.db.queue.dispatch = s.db.queue.dispatch)
    (hcharges : s'.charges = s.charges) : DispatchStep env policy s op s' :=
  dispatchStep_of_rows hop hcompletions (Or.inl ⟨by rw [hqueue]; exact Table.Rel.refl (.kept op) _, hcharges⟩)

/-! ## Completion -/

/-- The records after the holder of `claimToken` has settled `key`. -/
def settleDispatch (dispatch : Table DispatchRecord) (key : DispatchKey) (claimToken : String) (state : DispatchState)
    (lease : Option Nat) : Table DispatchRecord :=
  dispatch.update (fun q => q.key = key && q.claimToken = some claimToken) fun q => q.released state lease

/-- Only the holder completes a record: it is finalized, dead-lettered or retried. -/
theorem completeDispatchQueue_held {db db' : Db} {key : DispatchKey} {w t : String} {v : Bool}
    (h : completeDispatchQueue db key w t v = .ok db') :
    (((db.queue.dispatch.lookup key).filter (·.heldBy w t)) = none ∧ db' = db) ∨
      ∃ row, (db.queue.dispatch.lookup key).filter (·.heldBy w t) = some row ∧
        ((v = true ∧ db' = { db with queue := { db.queue with
            dispatch := settleDispatch db.queue.dispatch key t .finalized none } }) ∨
          (v = false ∧ 5 ≤ row.attemptCount ∧ deadLetterLinked db.core row = .ok db'.core ∧
            db' = { db with
              core := db'.core
              queue := {
                dispatch := settleDispatch db.queue.dispatch key t .deadLetter none
                rawLogs := db.queue.rawLogs.update (fun r => r.id = key.payloadReference && r.agentId = key.agentId &&
                  r.status ∈ [RawLogStatus.deferred, .processing]) fun r => { r with status := .failed } } }) ∨
          (v = false ∧ row.attemptCount < 5 ∧ db' = { db with queue := { db.queue with
            dispatch := settleDispatch db.queue.dispatch key t .retryPending
              (some (db.now + retryDelaySeconds row.attemptCount)) } })) := by
  unfold completeDispatchQueue at h
  cases hrow : db.queue.dispatch.lookup key with
  | none => rw [hrow] at h; cases h; exact Or.inl ⟨rfl, rfl⟩
  | some row =>
    rw [hrow] at h
    simp only at h
    split at h
    · next hlost =>
      cases h
      refine Or.inl ⟨?_, rfl⟩
      have : row.heldBy w t = false := by
        unfold DispatchRecord.heldBy
        rcases hlost with hs | hw | ht
        · simp [hs]
        · simp [hw]
        · simp [ht]
      simp [Option.filter, this]
    · next hheld =>
      simp only [not_or, not_not] at hheld
      have : row.heldBy w t = true := by
        unfold DispatchRecord.heldBy
        simp [hheld.1, hheld.2.1, hheld.2.2]
      refine Or.inr ⟨row, by simp [Option.filter, this], ?_⟩
      split at h
      · next hv => cases h; exact Or.inl ⟨hv, rfl⟩
      · next hv =>
        have hv := eq_false_of_ne_true hv
        split at h
        · next hfive =>
          obtain ⟨core, hc, h⟩ := bind_eq_ok.1 h
          cases pure_eq_ok.1 h
          exact Or.inr (Or.inl ⟨hv, hfive, hc, rfl⟩)
        · next hfive =>
          cases h
          exact Or.inr (Or.inr ⟨hv, Nat.lt_of_not_le hfive, rfl⟩)

/-- A settled record moves as its holder decided; the others stay. -/
theorem settleDispatch_rel {s : Intake} {op : IntakeOp} {row : DispatchRecord} {key : DispatchKey} {w t : String}
    {state : DispatchState} {lease : Option Nat}
    (hrow : (s.db.queue.dispatch.lookup key).filter (·.heldBy w t) = some row)
    (hmove : row.key = key → row.heldBy w t = true → DispatchMove s op row (row.released state lease)) :
    s.db.queue.dispatch.Rel (DispatchMove s op) (settleDispatch s.db.queue.dispatch key t state lease) := by
  obtain ⟨hlookup, hheld⟩ := Option.filter_eq_some_iff.1 hrow
  refine Table.rel_update (.kept op) fun q hq hp => ?_
  simp only [Bool.and_eq_true, decide_eq_true_eq] at hp
  have hqr : q = row := by
    have := Table.lookup_of_mem hq
    rw [show Keyed.key q = key from hp.1, hlookup] at this
    exact (Option.some.inj this).symm
  rw [hqr]
  exact hmove (Table.lookup_key hlookup) hheld

theorem lookup_settleDispatch {t : Table DispatchRecord} {row : DispatchRecord} {key : DispatchKey} {w token : String}
    {state : DispatchState} {lease : Option Nat} (hrow : (t.lookup key).filter (·.heldBy w token) = some row) :
    (settleDispatch t key token state lease).lookup key = some (row.released state lease) := by
  obtain ⟨hlookup, hheld⟩ := Option.filter_eq_some_iff.1 hrow
  have htoken : row.claimToken = some token := by
    simp only [DispatchRecord.heldBy, Bool.and_eq_true, decide_eq_true_eq] at hheld
    exact hheld.2
  have hkey : row.key = key := Table.lookup_key hlookup
  rw [settleDispatch, Table.lookup_update, hlookup, Option.map_some]
  simp [hkey, htoken]

theorem completeDispatchQueue_step {s s' : Intake} {key : DispatchKey} {w t o : String} {v : Bool}
    (h : s.completeDispatchQueue key w t o v = .ok s') :
    DispatchStep env policy s (.completeDispatchQueue key w t o v) s' := by
  unfold Intake.completeDispatchQueue at h
  split at h
  · cases h
  · obtain ⟨db, hok, h⟩ := bind_eq_ok.1 h
    rcases completeDispatchQueue_held (mapError_eq_ok.1 hok) with ⟨hnone, rfl⟩ | ⟨row, hrow, hcases⟩
    · -- the claim is lost
      rw [hnone] at h
      cases pure_eq_ok.1 h
      refine dispatchStep_of_same (fun k => ?_) rfl rfl rfl
      cases v with
      | false => rfl
      | true =>
        by_cases hk : key = k
        · subst hk
          have hlost : (s.db.queue.dispatch.lookup key).any (·.heldBy w t) = false := by
            cases hl : s.db.queue.dispatch.lookup key with
            | none => rfl
            | some q =>
              rw [hl] at hnone
              simpa [Option.filter] using hnone
          simp [finalizes, hlost]
        · simp [finalizes, hk]
    · rw [hrow] at h
      have hkey : row.key = key := Table.lookup_key (Option.filter_eq_some_iff.1 hrow).1
      rcases hcases with ⟨rfl, hdb⟩ | ⟨rfl, hfive, -, hdb⟩ | ⟨rfl, hfour, hdb⟩
      · simp only [↓reduceIte] at h
        cases pure_eq_ok.1 h
        refine ⟨Or.inl ⟨?_, rfl⟩, fun k => ?_, fun k hk => ?_⟩
        · rw [hdb]
          refine settleDispatch_rel hrow fun hk hheld => ?_
          rw [← hk]; exact .finalized w t o row hheld
        · have hheld : (s.db.queue.dispatch.lookup key).any (·.heldBy w t) = true := by
            obtain ⟨hlookup, hheld⟩ := Option.filter_eq_some_iff.1 hrow
            rw [hlookup]; exact hheld
          rw [Table.hasKey_iff, Table.hasKey_iff, Table.lookup_insertOrIgnore]
          by_cases hk : key = k
          · subst hk
            simp [finalizes, hheld, Keyed.key]
          · have hne : ¬ Keyed.key (⟨key, row.tenantId, w, t, o, row.attemptCount⟩ : CompletionReceipt) = k := hk
            simp [finalizes, hk, hne]
        · have hk : key = k := by
            simp only [finalizes, Bool.and_eq_true, decide_eq_true_eq] at hk
            exact hk.1
          subst hk
          rw [hdb]
          show ((settleDispatch _ _ _ _ _).lookup key).any _ = true
          rw [lookup_settleDispatch hrow]; rfl
      · simp only [Bool.false_eq_true, ↓reduceIte, hfive] at h
        cases pure_eq_ok.1 h
        refine dispatchStep_of_rows (fun k => rfl) rfl (Or.inl ⟨?_, rfl⟩)
        show s.db.queue.dispatch.Rel _ db.queue.dispatch
        rw [hdb]
        refine settleDispatch_rel hrow fun hk hheld => ?_
        rw [← hk]; exact .deadLettered w t o row hheld hfive
      · simp only [Bool.false_eq_true, ↓reduceIte, Nat.not_le.2 hfour] at h
        cases pure_eq_ok.1 h
        refine dispatchStep_of_rows (fun k => rfl) rfl (Or.inl ⟨?_, rfl⟩)
        show s.db.queue.dispatch.Rel _ db.queue.dispatch
        rw [hdb]
        refine settleDispatch_rel hrow fun hk hheld => ?_
        rw [← hk]; exact .retried w t o row hheld _ hfour

/-! ## Every operation -/

theorem ledger_dispatch_step {s : Intake} {op : Op} {db : Db} {plain : op.hasIntakeVersion = false}
    (h : transact env.toEnv s.db op = .ok db) : DispatchStep env policy s (.ledger op plain) { s with db } := by
  by_cases hw : Part.queue ∉ op.writes
  · exact dispatchStep_of_same (fun k => rfl) rfl (congrArg Queue.dispatch (transact_frame h hw)) rfl
  refine dispatchStep_of_rows (fun k => rfl) rfl (Or.inl ⟨?_, rfl⟩)
  cases op with
  | recoverInFlight =>
    cases h
    exact Table.Rel.of_update rfl (.kept _) fun q _ hq => .recovered plain q (of_decide_eq_true hq)
  | claimDispatchQueue w t limit lease =>
    have h : claimDispatchQueue s.db w t limit lease = .ok db := h
    unfold claimDispatchQueue at h
    split at h
    · cases h
    · cases h
      refine Table.Rel.of_update rfl (.kept _) fun q _ hq => ?_
      simp only [Bool.and_eq_true] at hq
      exact .claimed w t limit lease plain q hq.2
  | admitMemory _ => cases plain
  | replayPipelineRun _ _ => cases plain
  | completeDispatchQueue _ _ _ _ => cases plain
  | _ => exact absurd (by simp [Op.writes]) hw

/-- The rows that an admission of either kind leaves in the queue. -/
theorem intake_dispatch_step {s s' : Intake} {op : IntakeOp}
    (h : intakeTransact env policy s op = .ok s') : DispatchStep env policy s op s' := by
  cases op with
  | ledger op plain =>
    obtain ⟨db, hdb, rfl⟩ := map_eq_ok.1 h
    exact ledger_dispatch_step (mapError_eq_ok.1 hdb)
  | ensureScope t w d nw nd =>
    have h : ensureScope s t w d nw nd = .ok s' := h
    unfold ensureScope at h
    split at h
    · cases h
    · obtain ⟨⟨ids₁, workspace⟩, -, h⟩ := bind_eq_ok.1 h
      obtain ⟨⟨ids₂, dataset⟩, -, h⟩ := bind_eq_ok.1 h
      simp only at h
      split at h
      · cases pure_eq_ok.1 h
        exact dispatchStep_of_same (fun k => rfl) rfl rfl rfl
      · cases h
  | createId k p =>
    obtain ⟨r, -, rfl⟩ := map_eq_ok.1 h
    exact dispatchStep_of_same (fun k => rfl) rfl rfl rfl
  | admitV4Memory q f =>
    obtain ⟨⟨s₁, outcome⟩, hq, rfl⟩ := map_eq_ok.1 h
    cases outcome with
    | admitted response =>
      obtain ⟨datasetId, a, ids, db, -, -, -, -, -, henforce, hdb, -, -, rfl⟩ := admitted_rows hq
      obtain ⟨-, core, -, -, -, hrows⟩ := admitMemory_rows hdb
      refine dispatchStep_of_rows (fun k => rfl) rfl (Or.inr
        ⟨⟨a.agentId, nextRawLogId s.db.queue.rawLogs⟩, a.tenantId, env.canonicalPayloadBytes q.payload, ?_, rfl, henforce,
          fun _ _ _ _ hop => by cases hop⟩)
      show db.queue.dispatch = _
      rw [hrows]
    | duplicate response =>
      obtain rfl := admitV4Memory_ended hq (by intro _ h; cases h)
      exact dispatchStep_of_same (fun k => rfl) rfl rfl rfl
    | inProgress =>
      obtain rfl := admitV4Memory_ended hq (by intro _ h; cases h)
      exact dispatchStep_of_same (fun k => rfl) rfl rfl rfl
  | admitRawLog a t p =>
    obtain ⟨⟨s₁, result⟩, hq, rfl⟩ := map_eq_ok.1 h
    rcases admitRawLog_cases hq with rfl | ⟨tenant, stored, logged, henforce, -, hlogged, rfl⟩
    · exact dispatchStep_of_same (fun k => rfl) rfl rfl rfl
    · rw [insertRawLog_cases hlogged]
      exact dispatchStep_of_rows (fun k => rfl) rfl (Or.inr
        ⟨_, tenant, _, rfl, rfl, henforce, fun _ _ _ _ hop => by cases hop⟩)
  | insertRawLog a p =>
    rw [insertRawLog_cases h]
    exact dispatchStep_of_same (fun k => rfl) rfl rfl rfl
  | dispatchRawLog a l w p =>
    rcases dispatchRawLog_cases h with rfl | ⟨log, hlog, hjournal, henforce, rfl⟩
    · exact dispatchStep_of_same (fun k => rfl) rfl rfl rfl
    · refine dispatchStep_of_rows (fun k => rfl) rfl (Or.inr ⟨_, a, _, rfl, rfl, henforce, fun a' l' w' p' hop => ?_⟩)
      cases hop
      exact ⟨rfl, hjournal, log, hlog, rfl⟩
  | claimRawLog a l w t n =>
    obtain ⟨⟨s₁, claim⟩, hq, rfl⟩ := map_eq_ok.1 h
    rcases claimRawLog_cases hq with ⟨-, rfl, -⟩ | ⟨-, -, rfl⟩ <;>
      exact dispatchStep_of_same (fun k => rfl) rfl rfl rfl
  | transitionClaimedRawLog a l w t st =>
    obtain ⟨⟨s₁, b⟩, hq, rfl⟩ := map_eq_ok.1 h
    rcases transitionClaimedRawLog_cases hq with ⟨-, rfl, -⟩ | ⟨-, -, -, rfl⟩ <;>
      exact dispatchStep_of_same (fun k => rfl) rfl rfl rfl
  | recoverExpiredRawLogClaims => cases h; exact dispatchStep_of_same (fun k => rfl) rfl rfl rfl
  | recoverProcessingRawLogs => cases h; exact dispatchStep_of_same (fun k => rfl) rfl rfl rfl
  | completeDispatchQueue k w t o v => exact completeDispatchQueue_step h
  | replayPipelineRun r t =>
    obtain ⟨db, hdb, h⟩ := bind_eq_ok.1 h
    cases pure_eq_ok.1 h
    obtain ⟨run, runs, -, -, cleanupReplay, -, -, -, hrows⟩ := replayPipelineRun_cases (mapError_eq_ok.1 hdb)
    refine dispatchStep_of_rows (fun k => rfl) rfl (Or.inl ⟨?_, rfl⟩)
    show s.db.queue.dispatch.Rel _ db.queue.dispatch
    rw [hrows]
    cases cleanupReplay with
    | true => exact Table.Rel.refl (.kept _) _
    | false =>
      refine Table.Rel.of_update rfl (.kept _) fun q _ hq => ?_
      simp only [Bool.and_eq_true, decide_eq_true_eq] at hq
      exact .requeued r t q hq.1
  | purgeDocument t d i =>
    obtain ⟨db, hdb, h⟩ := bind_eq_ok.1 h
    cases pure_eq_ok.1 h
    obtain ⟨core, purged, -, hrows⟩ := purgeDocument_cases (mapError_eq_ok.1 hdb)
    refine dispatchStep_of_same (fun k => rfl) rfl ?_ rfl
    show db.queue.dispatch = _
    rw [hrows]

end Mesa.Ledger
