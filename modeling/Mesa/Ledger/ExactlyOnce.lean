/-
The idempotent v4 admission over whole runs: what an admission adds, that nothing of it is ever
lost, and that the same request admitted again, at any later time and whatever happened in
between, adds nothing.
-/
import Mathlib.Data.List.Fold
import Mathlib.Data.List.MinMax
import Mesa.Ledger.Admission
import Mesa.Ledger.Persistence
import Mesa.Ledger.QueueSafety

namespace Mesa.Ledger

open Mesa.Foundation

variable {env : IntakeEnv} {policy : QueueAdmissionPolicy}

/-! ## Rows that stay -/

/-- A later state of the intake: identities and idempotency receipts stay as they are. -/
structure Intake.Later (s s' : Intake) : Prop where
  db : s.db.Later s'.db
  identities : KeepsIdentities s.identities s'.identities
  requests : ∀ k x, s.requests.lookup k = some x → s'.requests.lookup k = some x
  logs : ∀ k, s.logs.lookup k ≠ none → s'.logs.lookup k ≠ none
  owned : ∀ k, s'.logs.lookup k ≠ none → s.logs.lookup k ≠ none ∨ s'.db.queue.rawLogs.lookup k ≠ none

theorem Db.Later.rawLog {db db' : Db} (h : db.Later db') {k : Nat} (hk : db.queue.rawLogs.lookup k ≠ none) :
    db'.queue.rawLogs.lookup k ≠ none := by
  obtain ⟨r, hr⟩ := Option.ne_none_iff_exists'.1 hk
  obtain ⟨r', hr', -⟩ := h.rawLogs k r hr
  rw [hr']; exact Option.some_ne_none r'

/-- A step around the ledger that touches the claims and payloads of raw logs at most. -/
theorem Intake.Later.of_db {s s' : Intake} (h : s.db.Later s'.db) (hi : s'.identities = s.identities)
    (hr : s'.requests = s.requests) (hl : ∀ k, s'.logs.lookup k = none ↔ s.logs.lookup k = none) : s.Later s' where
  db := h
  identities k row hk := by rw [hi]; exact hk
  requests k x hk := by rw [hr]; exact hk
  logs k := mt (hl k).1
  owned k hk := Or.inl (mt (hl k).2 hk)

theorem Intake.Later.refl (s : Intake) : s.Later s := .of_db (.refl s.db) rfl rfl fun _ => Iff.rfl

theorem Intake.Later.trans {s t u : Intake} (h : s.Later t) (h' : t.Later u) : s.Later u where
  db := h.db.trans h'.db
  identities := h.identities.trans h'.identities
  requests k x hk := h'.requests k x (h.requests k x hk)
  logs k hk := h'.logs k (h.logs k hk)
  owned k hk := by
    rcases h'.owned k hk with hk | hk
    · exact (h.owned k hk).imp_right h'.db.rawLog
    · exact Or.inr hk

theorem releaseLogs_lookup (s : Intake) (db : Db) (p : RawLog → Bool) (k : Nat) :
    (s.releaseLogs db p).logs.lookup k = none ↔ s.logs.lookup k = none := by
  simp only [Intake.releaseLogs, Table.lookup_update, Option.map_eq_none_iff]

/-- Setting the status of raw logs loses none. -/
theorem moveLogs_later (s : Intake) (p : RawLog → Bool) (status : RawLogStatus) (f : RawLogColumns → RawLogColumns)
    (hf : ∀ x, (f x).rawLogId = x.rawLogId) : s.Later (s.moveLogs p status f hf) := by
  refine .of_db (.of_queue rfl rfl fun k r hr => ?_) rfl rfl fun k => by
    simp only [Intake.moveLogs, Table.lookup_update, Option.map_eq_none_iff]
  refine ⟨if p r then { r with status := status } else r, ?_, by split <;> rfl⟩
  show (s.db.queue.rawLogs.update p fun r => { r with status := status }).lookup k = _
  rw [Table.lookup_update, hr, Option.map_some]

theorem insertRawLog_later {s s' : Intake} {agentId : String} {payload : RawPayload}
    (h : insertRawLog s agentId payload = .ok s') : s.Later s' := by
  rw [insertRawLog_cases h]
  refine ⟨.of_queue rfl rfl fun k r hr => ⟨r, ?_, rfl⟩, fun _ _ hk => hk, fun _ _ hk => hk, fun k hk => ?_,
    fun k hk => ?_⟩
  · rw [Table.lookup_insertOrIgnore, hr, Option.some_or]
  · exact Table.lookup_insertOrIgnore_ne_none.2 (Or.inl hk)
  · exact (Table.lookup_insertOrIgnore_ne_none.1 hk).imp_right fun hkey =>
      Table.lookup_insertOrIgnore_ne_none.2 (Or.inr hkey)

/-- A transaction that admits nothing keeps the receipts and what the admissions have written. -/
theorem intake_kept {s s' : Intake} {op : IntakeOp} (h : intakeTransact env policy s op = .ok s') :
    (s.Later s' ∧ s'.requests = s.requests) ∨
      ∃ q f r, op = .admitV4Memory q f ∧ s.admitV4Memory env policy q f = .ok (s', .admitted r) := by
  cases op with
  | ledger op plain =>
    obtain ⟨db, hdb, rfl⟩ := map_eq_ok.1 h
    exact Or.inl ⟨.of_db (transact_later (mapError_eq_ok.1 hdb)) rfl rfl fun _ => Iff.rfl, rfl⟩
  | ensureScope t w d nw nd =>
    have h : ensureScope s t w d nw nd = .ok s' := h
    unfold ensureScope at h
    split at h
    · cases h
    · obtain ⟨⟨ids₁, workspace⟩, h₁, h⟩ := bind_eq_ok.1 h
      obtain ⟨⟨ids₂, dataset⟩, h₂, h⟩ := bind_eq_ok.1 h
      simp only at h
      split at h
      · cases pure_eq_ok.1 h
        have hids := (createId_keeps h₁).trans (createId_keeps h₂)
        exact Or.inl ⟨{ Intake.Later.refl s with identities := hids }, rfl⟩
      · cases h
  | createId k p =>
    obtain ⟨⟨ids, id⟩, hr, rfl⟩ := map_eq_ok.1 h
    exact Or.inl ⟨{ Intake.Later.refl s with identities := createId_keeps hr }, rfl⟩
  | admitV4Memory q f =>
    obtain ⟨⟨s₁, outcome⟩, hq, rfl⟩ := map_eq_ok.1 h
    cases outcome with
    | admitted response => exact Or.inr ⟨q, f, response, rfl, hq⟩
    | duplicate response =>
      obtain rfl := admitV4Memory_ended hq (by intro _ h; cases h)
      exact Or.inl ⟨.refl s₁, rfl⟩
    | inProgress =>
      obtain rfl := admitV4Memory_ended hq (by intro _ h; cases h)
      exact Or.inl ⟨.refl s₁, rfl⟩
  | admitRawLog a t p =>
    obtain ⟨⟨s₁, result⟩, hq, rfl⟩ := map_eq_ok.1 h
    rcases admitRawLog_cases hq with rfl | ⟨tenant, stored, logged, -, -, hlogged, rfl⟩
    · exact Or.inl ⟨.refl s₁, rfl⟩
    · have hstep := insertRawLog_later hlogged
      have hrequests : logged.requests = s.requests := by rw [insertRawLog_cases hlogged]
      refine Or.inl ⟨hstep.trans (.of_db ?_ rfl rfl fun _ => Iff.rfl), hrequests⟩
      exact .of_queue rfl rfl fun k r hr => ⟨r, hr, rfl⟩
  | insertRawLog a p => exact Or.inl ⟨insertRawLog_later h, by rw [insertRawLog_cases h]⟩
  | dispatchRawLog a l w p =>
    rcases dispatchRawLog_cases h with rfl | ⟨log, -, -, -, rfl⟩
    · exact Or.inl ⟨.refl s', rfl⟩
    · exact Or.inl ⟨.of_db (.of_queue rfl rfl fun k r hr => ⟨r, hr, rfl⟩) rfl rfl fun _ => Iff.rfl, rfl⟩
  | claimRawLog a l w t n =>
    obtain ⟨⟨s₁, claim⟩, hq, rfl⟩ := map_eq_ok.1 h
    rcases claimRawLog_cases hq with ⟨-, rfl, -⟩ | ⟨-, -, rfl⟩
    · exact Or.inl ⟨.refl s₁, rfl⟩
    · exact Or.inl ⟨moveLogs_later s _ _ _ _, rfl⟩
  | transitionClaimedRawLog a l w t st =>
    obtain ⟨⟨s₁, b⟩, hq, rfl⟩ := map_eq_ok.1 h
    rcases transitionClaimedRawLog_cases hq with ⟨-, rfl, -⟩ | ⟨-, -, -, rfl⟩
    · exact Or.inl ⟨.refl s₁, rfl⟩
    · exact Or.inl ⟨moveLogs_later s _ _ _ _, rfl⟩
  | recoverExpiredRawLogClaims => cases h; exact Or.inl ⟨moveLogs_later s _ _ _ _, rfl⟩
  | recoverProcessingRawLogs => cases h; exact Or.inl ⟨moveLogs_later s _ _ _ _, rfl⟩
  | completeDispatchQueue k w t o v =>
    have h : s.completeDispatchQueue k w t o v = .ok s' := h
    unfold Intake.completeDispatchQueue at h
    split at h
    · cases h
    · obtain ⟨db, hdb, h⟩ := bind_eq_ok.1 h
      have hledger : transact env.toEnv s.db (.completeDispatchQueue k w t v) = .ok db := mapError_eq_ok.1 hdb
      have hlater := transact_later hledger
      have hkept : s.Later { s with db } := .of_db hlater rfl rfl fun _ => Iff.rfl
      split at h
      · cases pure_eq_ok.1 h; exact Or.inl ⟨hkept, rfl⟩
      · split at h
        · cases pure_eq_ok.1 h
          exact Or.inl ⟨.of_db hlater rfl rfl fun _ => Iff.rfl, rfl⟩
        · split at h
          · cases pure_eq_ok.1 h
            exact Or.inl ⟨.of_db hlater rfl rfl (releaseLogs_lookup s db _), rfl⟩
          · cases pure_eq_ok.1 h; exact Or.inl ⟨hkept, rfl⟩
  | replayPipelineRun r t =>
    obtain ⟨db, hdb, h⟩ := bind_eq_ok.1 h
    cases pure_eq_ok.1 h
    have hledger : transact env.toEnv s.db (.replayPipelineRun r t) = .ok db := mapError_eq_ok.1 hdb
    exact Or.inl ⟨.of_db (transact_later hledger) rfl rfl (releaseLogs_lookup s db _), rfl⟩
  | purgeDocument t d i =>
    obtain ⟨db, hdb, h⟩ := bind_eq_ok.1 h
    cases pure_eq_ok.1 h
    have hledger : transact env.toEnv s.db (.purgeDocument t d i) = .ok db := mapError_eq_ok.1 hdb
    exact Or.inl ⟨.of_db (transact_later hledger) rfl rfl fun k => (by
      simp only [Table.lookup_update, Option.map_eq_none_iff]), rfl⟩

/-! ## What an admission adds -/

theorem nextRawLogId_free (rawLogs : Table RawLog) : rawLogs.lookup (nextRawLogId rawLogs) = none := by
  refine Table.lookup_eq_none.2 fun r hr hid => ?_
  have hle : r.id ≤ (rawLogs.rows.map (·.id)).foldl max 0 := by
    rw [List.foldl_eq_foldr]
    exact List.le_max_of_le' 0 (List.mem_map_of_mem hr) le_rfl
  have hid : r.id = (rawLogs.rows.map (·.id)).foldl max 0 + 1 := hid
  omega

/-- The idempotency scope of a request, with the dataset's physical id. -/
def Intake.scopeOf (s : Intake) (q : AdmissionRequest) : Option IdempotencyScope :=
  match resolveId s.identities ⟨q.tenantId, .dataset, q.datasetId⟩ with
  | .ok datasetId => (q.receipt datasetId).map (·.scope)
  | .error _ => none

/-- The mutation of an admission, its run, its raw log with the payload and its three lanes. -/
structure Intake.HasAdmission (s : Intake) (r : AdmissionResponse) : Prop where
  mutation : ∃ m, s.db.core.mutations.lookup r.mutationId = some m ∧ m.candidateId = r.candidateId ∧
    m.rawLogId = some r.rawLogId ∧ m.pipelineRunId = r.pipelineRunId
  run : s.db.core.runs.lookup r.pipelineRunId ≠ none
  rawLog : s.db.queue.rawLogs.lookup r.rawLogId ≠ none
  payload : s.logs.lookup r.rawLogId ≠ none
  lanes : ∀ lane, s.db.outbox.lookup ⟨r.mutationId, lane⟩ ≠ none

/-- One new row in each table of the admission, and nothing else in them. -/
structure AddsAdmission (s : Intake) (q : AdmissionRequest) (s' : Intake) (r : AdmissionResponse) : Prop where
  mutation : ∃ m, s'.db.core.mutations.rows = s.db.core.mutations.rows ++ [m] ∧
    mutationConflict s.db.core.mutations m = false ∧ m.mutationId = r.mutationId ∧
    m.candidateId = r.candidateId ∧ m.rawLogId = some r.rawLogId ∧ m.pipelineRunId = r.pipelineRunId
  run : s'.db.core.runs.rows = s.db.core.runs.rows ++ [⟨r.pipelineRunId, q.tenantId, q.agentId, .queued⟩]
  rawLog : s'.db.queue.rawLogs.rows = s.db.queue.rawLogs.rows ++ [⟨r.rawLogId, q.agentId, .deferred⟩]
  payload : s'.logs.rows = s.logs.rows ++ [⟨r.rawLogId, q.payload, none, none, none, 0⟩]
  dispatch : s'.db.queue.dispatch.rows =
    s.db.queue.dispatch.rows ++ [enqueuedRecord ⟨q.agentId, r.rawLogId⟩ q.tenantId]
  lanes : ∀ k, s'.db.outbox.lookup k =
    (s.db.outbox.lookup k).or (if k.mutationId = r.mutationId then some (blockedLane k) else none)
  receipt : ∀ k, s.scopeOf q = some k → s.requests.lookup k = none ∧ ∃ hash, q.payloadHash = some hash ∧
    s'.requests.rows = s.requests.rows ++ [⟨k, hash, some r⟩]
  unkeyed : s.scopeOf q = none → s'.requests = s.requests

/-- The payloads belong to raw logs. -/
def Intake.Owned (s : Intake) : Prop := ∀ k, s.logs.lookup k ≠ none → s.db.queue.rawLogs.lookup k ≠ none

/-- A conflict-free mutation has a new id. -/
theorem lookup_of_no_conflict {mutations : Table Mutation} {m : Mutation} (h : mutationConflict mutations m = false) :
    mutations.lookup m.mutationId = none := by
  refine Table.lookup_eq_none.2 fun x hx hid => ?_
  have hno := Table.anyWhere_eq_false.1 h x hx
  have hid : x.mutationId = m.mutationId := hid
  simp [hid] at hno

theorem receipt_hash {q : AdmissionRequest} {datasetId : String} {r : IdempotencyReceipt}
    (h : q.receipt datasetId = some r) : q.payloadHash = some r.payloadHash ∧ r.response = none := by
  obtain ⟨key, -, h⟩ := Option.bind_eq_some_iff.1 h
  obtain ⟨hash, hhash, rfl⟩ := Option.map_eq_some_iff.1 h
  exact ⟨hhash, rfl⟩

theorem rows_answered {requests : Table IdempotencyReceipt} {x : IdempotencyReceipt} {r : AdmissionResponse}
    (hfree : requests.lookup x.scope = none) :
    (answered requests (some x) r).rows = requests.rows ++ [{ x with response := some r }] := by
  show ((requests.insertOrIgnore x).rows.map fun y =>
    if decide (y.scope = x.scope) then { y with response := some r } else y) = _
  rw [Table.rows_insertOrIgnore_fresh hfree, List.map_append, List.map_singleton, if_pos (decide_eq_true rfl)]
  congr 1
  refine (List.map_congr_left fun y hy => ?_).trans (List.map_id _)
  exact if_neg fun hscope => Table.lookup_eq_none.1 hfree y hy (of_decide_eq_true hscope)

theorem admission_adds {s s' : Intake} {q : AdmissionRequest} {failure : Option Nat} {r : AdmissionResponse}
    (howned : s.Owned) (h : s.admitV4Memory env policy q failure = .ok (s', .admitted r)) :
    AddsAdmission s q s' r := by
  obtain ⟨datasetId, a, ids, db, hdataset, hfree, -, htenant, hagent, -, hdb, hconflict, rfl, rfl⟩ := admitted_rows h
  obtain ⟨-, core, hcore, hrun, hmutation, rfl⟩ := admitMemory_rows hdb
  have hframe := admitProvenance_frame hcore
  have hlog := nextRawLogId_free s.db.queue.rawLogs
  have hpayload : s.logs.lookup (nextRawLogId s.db.queue.rawLogs) = none := by
    by_contra hk
    exact howned _ hk hlog
  simp only [Intake.dispatchConflict, Bool.or_eq_false_iff] at hconflict
  have hscope : s.scopeOf q = (q.receipt datasetId).map (·.scope) := by
    unfold Intake.scopeOf
    rw [hdataset]
  let m := admittedMutation env.toEnv { a with withinCapacity := true } (nextRawLogId s.db.queue.rawLogs)
  refine ⟨⟨m, ?_, ?_, rfl, rfl, rfl, rfl⟩, ?_, ?_, ?_, ?_, fun k => ?_, fun k hk => ?_, fun hnone => ?_⟩
  · rw [← hframe.mutations]
    exact Table.rows_insertOrIgnore_fresh (lookup_of_no_conflict hmutation)
  · rw [← hframe.mutations]
    exact hmutation
  · rw [← hframe.runs, ← htenant, ← hagent]
    exact Table.rows_insertOrIgnore_fresh (Table.hasKey_eq_false.1 hrun)
  · rw [← hagent]
    exact Table.rows_insertOrIgnore_fresh hlog
  · exact Table.rows_insertOrIgnore_fresh hpayload
  · rw [← htenant, ← hagent]
    exact Table.rows_insertOrIgnore_fresh (Table.hasKey_eq_false.1 hconflict.1.2)
  · exact lookup_insertLanes s.db.outbox _ k
  · rw [hscope] at hk
    obtain ⟨x, hx, rfl⟩ := Option.map_eq_some_iff.1 hk
    refine ⟨hfree x hx, x.payloadHash, (receipt_hash hx).1, ?_⟩
    show (answered s.requests (q.receipt datasetId) _).rows = _
    rw [hx]
    exact rows_answered (hfree x hx)
  · rw [hscope] at hnone
    show answered s.requests (q.receipt datasetId) _ = s.requests
    rw [Option.map_eq_none_iff.1 hnone]
    rfl

/-- An answered receipt takes a scope that was free. -/
theorem answered_keeps {requests : Table IdempotencyReceipt} {receipt : Option IdempotencyReceipt}
    {r : AdmissionResponse} (hfree : ∀ x, receipt = some x → requests.lookup x.scope = none)
    {k : IdempotencyScope} {y : IdempotencyReceipt} (hk : requests.lookup k = some y) :
    (answered requests receipt r).lookup k = some y := by
  cases receipt with
  | none => exact hk
  | some x =>
    refine Table.lookup_eq_some.2 ⟨?_, Table.lookup_key hk⟩
    rw [rows_answered (hfree x rfl)]
    exact List.mem_append_left _ (Table.lookup_mem hk)

/-- An admission loses nothing either. -/
theorem admission_later {s s' : Intake} {q : AdmissionRequest} {failure : Option Nat} {r : AdmissionResponse}
    (howned : s.Owned) (h : s.admitV4Memory env policy q failure = .ok (s', .admitted r)) : s.Later s' := by
  have hadds := admission_adds howned h
  obtain ⟨datasetId, a, ids, db, -, hfree, hids, -, -, -, hdb, -, -, rfl⟩ := admitted_rows h
  have hledger : transact env.toEnv s.db (.admitMemory { a with withinCapacity := true }) = .ok db := hdb
  refine ⟨transact_later hledger, hids, fun k x hk => answered_keeps hfree hk, fun k hk => ?_, fun k hk => ?_⟩
  · exact Table.lookup_insertOrIgnore_ne_none.2 (Or.inl hk)
  · refine (Table.lookup_insertOrIgnore_ne_none.1 hk).imp_right fun hkey => ?_
    obtain ⟨-, core, -, -, -, hrows⟩ := admitMemory_rows hdb
    show db.queue.rawLogs.lookup k ≠ none
    rw [hrows]
    exact Table.lookup_insertOrIgnore_ne_none.2 (Or.inr hkey)

theorem intake_later {s s' : Intake} {op : IntakeOp} (howned : s.Owned)
    (h : intakeTransact env policy s op = .ok s') : s.Later s' := by
  rcases intake_kept h with ⟨hlater, -⟩ | ⟨q, f, r, -, hq⟩
  · exact hlater
  · exact admission_later howned hq

/-! ## The invariant -/

/-- What an admission has added is there from then on. -/
theorem Intake.HasAdmission.later {s s' : Intake} {r : AdmissionResponse} (h : s.HasAdmission r) (hl : s.Later s') :
    s'.HasAdmission r where
  mutation := by
    obtain ⟨m, hm, hc, hr, hp⟩ := h.mutation
    obtain ⟨m', hm', hscope⟩ := hl.db.mutations _ m hm
    exact ⟨m', hm', by rw [hscope, hc], by rw [hscope, hr], by rw [hscope, hp]⟩
  run := hl.db.runs _ h.run
  rawLog := hl.db.rawLog h.rawLog
  payload := hl.logs _ h.payload
  lanes lane := hl.db.lanes _ (h.lanes lane)

theorem AddsAdmission.has {s s' : Intake} {q : AdmissionRequest} {r : AdmissionResponse}
    (h : AddsAdmission s q s' r) : s'.HasAdmission r where
  mutation := by
    obtain ⟨m, hm, -, hid, hrest⟩ := h.mutation
    exact ⟨m, by rw [← hid]; exact Table.lookup_appended hm, hrest⟩
  run := by
    have hrow := Table.lookup_appended h.run
    exact ne_of_eq_of_ne hrow (Option.some_ne_none _)
  rawLog := by
    have hrow := Table.lookup_appended h.rawLog
    exact ne_of_eq_of_ne hrow (Option.some_ne_none _)
  payload := by
    have hrow := Table.lookup_appended h.payload
    exact ne_of_eq_of_ne hrow (Option.some_ne_none _)
  lanes lane := by
    rw [h.lanes, if_pos rfl]
    cases s.db.outbox.lookup ⟨r.mutationId, lane⟩ <;> simp

/-- Two responses share one of their ids. -/
def AdmissionResponse.Meets (r r' : AdmissionResponse) : Prop :=
  r.mutationId = r'.mutationId ∨ r.candidateId = r'.candidateId ∨ r.pipelineRunId = r'.pipelineRunId ∨
    r.rawLogId = r'.rawLogId

theorem AdmissionResponse.Meets.symm {r r' : AdmissionResponse} (h : r.Meets r') : r'.Meets r := by
  rcases h with h | h | h | h
  · exact Or.inl h.symm
  · exact Or.inr (Or.inl h.symm)
  · exact Or.inr (Or.inr (Or.inl h.symm))
  · exact Or.inr (Or.inr (Or.inr h.symm))

/-- What an admission adds is new: it shares no id with an admission that is there. -/
theorem AddsAdmission.new {s s' : Intake} {q : AdmissionRequest} {r r' : AdmissionResponse}
    (h : AddsAdmission s q s' r) (hr' : s.HasAdmission r') : ¬ r.Meets r' := by
  obtain ⟨m, hrows, hfree, hid, hcandidate, hlog, -⟩ := h.mutation
  obtain ⟨m', hm', hcandidate', hlog', -⟩ := hr'.mutation
  have hid' : m'.mutationId = r'.mutationId := Table.lookup_key hm'
  have hno := Table.anyWhere_eq_false.1 hfree m' (Table.lookup_mem hm')
  rintro (hmeet | hmeet | hmeet | hmeet)
  · simp [hid, hid', hmeet] at hno
  · simp [hcandidate, hcandidate', hmeet] at hno
  · have hrun := Table.lookup_before_appended h.run
    exact hr'.run (hmeet ▸ hrun)
  · simp [hlog, hlog', hmeet] at hno

/-- Every idempotency receipt is answered with an admission of its own, whose rows are there. -/
structure AdmissionInv (s : Intake) : Prop where
  answered : ∀ x ∈ s.requests.rows, ∃ r, x.response = some r ∧ s.HasAdmission r
  distinct : ∀ x ∈ s.requests.rows, ∀ y ∈ s.requests.rows, ∀ r r', x.response = some r → y.response = some r' →
    r.Meets r' → x = y
  owned : s.Owned

theorem AdmissionInv.step {s s' : Intake} {op : IntakeOp} (hs : AdmissionInv s)
    (h : intakeTransact env policy s op = .ok s') : AdmissionInv s' := by
  have hlater := intake_later hs.owned h
  have howned : s'.Owned := fun k hk => by
    rcases hlater.owned k hk with hk | hk
    · exact hlater.db.rawLog (hs.owned k hk)
    · exact hk
  have hsame : s'.requests = s.requests → AdmissionInv s' := by
    intro hrequests
    refine ⟨fun x hx => ?_, fun x hx y hy => ?_, howned⟩
    · rw [hrequests] at hx
      obtain ⟨r, hr, hhas⟩ := hs.answered x hx
      exact ⟨r, hr, hhas.later hlater⟩
    · rw [hrequests] at hx hy
      exact hs.distinct x hx y hy
  rcases intake_kept h with ⟨-, hrequests⟩ | ⟨q, f, r, -, hq⟩
  · exact hsame hrequests
  have hadds := admission_adds hs.owned hq
  cases hk : s.scopeOf q with
  | none => exact hsame (hadds.unkeyed hk)
  | some k =>
    obtain ⟨-, hash, -, hrows⟩ := hadds.receipt k hk
    have hold : ∀ x ∈ s.requests.rows, ∀ r', x.response = some r' → s.HasAdmission r' := by
      intro x hx r' hr'
      obtain ⟨r₁, hr₁, hhas⟩ := hs.answered x hx
      rw [hr'] at hr₁
      cases hr₁
      exact hhas
    have hmem : ∀ x ∈ s'.requests.rows, x ∈ s.requests.rows ∨ x = ⟨k, hash, some r⟩ := by
      intro x hx
      rwa [hrows, List.mem_append, List.mem_singleton] at hx
    refine ⟨fun x hx => ?_, fun x hx y hy r₁ r₂ hr₁ hr₂ hmeets => ?_, howned⟩
    · rcases hmem x hx with hx | rfl
      · obtain ⟨r', hr', hhas⟩ := hs.answered x hx
        exact ⟨r', hr', hhas.later hlater⟩
      · exact ⟨r, rfl, hadds.has⟩
    · rcases hmem x hx with hx | rfl <;> rcases hmem y hy with hy | rfl
      · exact hs.distinct x hx y hy r₁ r₂ hr₁ hr₂ hmeets
      · cases hr₂
        exact absurd hmeets.symm (hadds.new (hold x hx r₁ hr₁))
      · cases hr₁
        exact absurd hmeets (hadds.new (hold y hy r₂ hr₂))
      · rfl

theorem AdmissionInv.exec {s : Intake} (hs : AdmissionInv s) (op : IntakeOp) :
    AdmissionInv (intakeExec env policy s op) :=
  orKeep_invariant hs fun _ h => hs.step h

theorem admissionInv_empty : AdmissionInv .empty where
  answered _ hx := by cases hx
  distinct _ hx := by cases hx
  owned _ hk := absurd rfl hk

theorem run_later {s : Intake} (hs : AdmissionInv s) (ops : List IntakeOp) :
    s.Later (run (intakeExec env policy) s ops) := by
  refine (stable_run (I := fun t => AdmissionInv t ∧ s.Later t) (fun t op ht => ⟨ht.1.exec op, ?_⟩) ⟨hs, .refl s⟩).2
  exact orKeep_invariant ht.2 fun _ h => ht.2.trans (intake_later ht.1.owned h)

/-! ## The same request again -/

theorem resolveId_eq_ok {identities : Table CatalogIdentity} {key : CatalogKey} {id : String} :
    resolveId identities key = .ok id ↔ ∃ row, identities.lookup key = some row ∧ row.physicalId = id := by
  unfold resolveId
  cases identities.lookup key <;> simp

/-- A known identifier stays known, with the same physical id. -/
theorem KeepsIdentities.resolveId {t u : Table CatalogIdentity} (h : KeepsIdentities t u) {key : CatalogKey}
    {id : String} (hid : resolveId t key = .ok id) : Ledger.resolveId u key = .ok id := by
  obtain ⟨row, hrow, hrest⟩ := resolveId_eq_ok.1 hid
  exact resolveId_eq_ok.2 ⟨row, h key row hrow, hrest⟩

theorem scopeOf_eq_some {s : Intake} {q : AdmissionRequest} {k : IdempotencyScope} :
    s.scopeOf q = some k ↔ ∃ datasetId x, resolveId s.identities ⟨q.tenantId, .dataset, q.datasetId⟩ = .ok datasetId ∧
      q.receipt datasetId = some x ∧ x.scope = k := by
  unfold Intake.scopeOf
  cases h : resolveId s.identities ⟨q.tenantId, .dataset, q.datasetId⟩ <;> simp

theorem Intake.Later.scopeOf {s t : Intake} (h : s.Later t) {q : AdmissionRequest} {k : IdempotencyScope}
    (hk : s.scopeOf q = some k) : t.scopeOf q = some k := by
  obtain ⟨datasetId, x, hdataset, hx⟩ := scopeOf_eq_some.1 hk
  exact scopeOf_eq_some.2 ⟨datasetId, x, h.identities.resolveId hdataset, hx⟩

/-- What admissions under a scope do in a state where the scope has been admitted with a payload
hash and a response. -/
structure Repeats (env : IntakeEnv) (policy : QueueAdmissionPolicy) (s : Intake) (k : IdempotencyScope)
    (hash : String) (r : AdmissionResponse) : Prop where
  /-- Nothing is added, and nothing but the first response is returned. -/
  nothing : ∀ q failure s' outcome, s.scopeOf q = some k →
    s.admitV4Memory env policy q failure = .ok (s', outcome) → s' = s ∧ outcome = .duplicate r
  /-- Another payload raises. -/
  conflict : ∀ q failure, s.scopeOf q = some k → q.payloadHash ≠ some hash →
    ∃ e, s.admitV4Memory env policy q failure = .error e
  /-- The same payload gets the first response. -/
  duplicate : ∀ q w, s.scopeOf q = some k → q.payloadHash = some hash → q.validate = .ok () →
    resolveId s.identities ⟨q.tenantId, .workspace, q.workspaceId⟩ = .ok w →
    s.admitV4Memory env policy q none = .ok (s, .duplicate r)

theorem repeats_of_receipt {s : Intake} {k : IdempotencyScope} {hash : String} {r : AdmissionResponse}
    (h : s.requests.lookup k = some ⟨k, hash, some r⟩) : Repeats env policy s k hash r := by
  have hended : ∀ q failure s' outcome, s.scopeOf q = some k →
      s.admitV4Memory env policy q failure = .ok (s', outcome) →
        s' = s ∧ outcome = .duplicate r ∧ q.payloadHash = some hash := by
    intro q failure s' outcome hk hq
    obtain ⟨datasetId, x, hdataset, hx, rfl⟩ := scopeOf_eq_some.1 hk
    obtain ⟨datasetId', hdataset', hcases⟩ := admitV4Memory_cases hq
    rw [hdataset] at hdataset'
    cases hdataset'
    rcases hcases with ⟨x', taken, hx', htaken, hhash, rfl, rfl⟩ | ⟨reserved, -, -, -, -, hreserved, -⟩
    · rw [hx] at hx'
      cases hx'
      rw [h] at htaken
      cases htaken
      exact ⟨rfl, rfl, by rw [(receipt_hash hx).1, ← hhash]⟩
    · rw [hx] at hreserved
      rw [hreserved.1] at h
      cases h
  refine ⟨fun q failure s' outcome hk hq => ?_, fun q failure hk hhash => ?_, fun q w hk hhash hvalid hw => ?_⟩
  · obtain ⟨hs, houtcome, -⟩ := hended q failure s' outcome hk hq
    exact ⟨hs, houtcome⟩
  · cases hq : s.admitV4Memory env policy q failure with
    | error e => exact ⟨e, rfl⟩
    | ok result =>
      obtain ⟨-, -, hsame⟩ := hended q failure result.1 result.2 hk hq
      exact absurd hsame hhash
  · obtain ⟨datasetId, x, hdataset, hx, rfl⟩ := scopeOf_eq_some.1 hk
    have hreserve : s.reserve (some x) = .ok (s, some (.duplicate r)) := by
      have hsame : hash = x.payloadHash := by
        have := (receipt_hash hx).1
        rw [hhash] at this
        exact Option.some.inj this
      simp [Intake.reserve, h, hsame]
    refine bind_eq_ok.2 ⟨(), hvalid, bind_eq_ok.2 ⟨(), rfl, bind_eq_ok.2 ⟨w, hw, ?_⟩⟩⟩
    refine bind_eq_ok.2 ⟨datasetId, hdataset, ?_⟩
    refine bind_eq_ok.2 ⟨(), rfl, bind_eq_ok.2 ⟨(s, some (.duplicate r)), ?_, rfl⟩⟩
    rw [hx]
    exact hreserve

/-! ## Failures of the storage -/

theorem bind_raises {α β : Type} (x : Except IntakeError α) {f g : α → Except IntakeError β}
    (h : ∀ a, (∃ e, f a = .error e) ∨ f a = g a) : (∃ e, (x >>= f) = .error e) ∨ (x >>= f) = (x >>= g) := by
  cases x with
  | error e => exact Or.inr rfl
  | ok a => exact h a

theorem storage_raises {β : Type} (n m : Nat) {f g : Unit → Except IntakeError β}
    (h : (∃ e, f () = .error e) ∨ f () = g ()) :
    (∃ e, (storage (some n) m >>= f) = .error e) ∨ (storage (some n) m >>= f) = (storage none m >>= g) := by
  unfold storage
  by_cases hn : some n = some m
  · rw [if_pos hn]
    exact Or.inl ⟨.queueUnavailable, rfl⟩
  · rw [if_neg hn]
    exact h

/-- A storage that fails at one point makes the admission raise, or the point is never reached. -/
theorem storage_failure {s : Intake} {q : AdmissionRequest} (n : Nat) :
    (∃ e, s.admitV4Memory env policy q (some n) = .error e) ∨
      s.admitV4Memory env policy q (some n) = s.admitV4Memory env policy q none := by
  unfold Intake.admitV4Memory
  refine bind_raises _ fun _ => storage_raises n 0 ?_
  refine bind_raises _ fun _ => bind_raises _ fun datasetId => storage_raises n 1 ?_
  refine bind_raises _ fun result => ?_
  obtain ⟨reserved, ended⟩ := result
  cases ended with
  | some outcome => exact storage_raises n 2 (Or.inr rfl)
  | none =>
    refine storage_raises n 3 (bind_raises _ fun identified => storage_raises n 4 ?_)
    exact bind_raises _ fun admitted => storage_raises n 5 (storage_raises n 6 (Or.inr rfl))

/-! ## Whole runs -/

/-- What holds of the admissions in a state, now and in every later state. -/
structure ExactlyOnce (env : IntakeEnv) (policy : QueueAdmissionPolicy) (s : Intake) : Prop where
  /-- An admission that raises leaves every table as it was. -/
  atomic : ∀ q failure e, s.admitV4Memory env policy q failure = .error e →
    intakeExec env policy s (.admitV4Memory q failure) = s
  /-- A failure of the storage raises wherever it happens, or it changes nothing about the admission. -/
  failing : ∀ q n, (∃ e, s.admitV4Memory env policy q (some n) = .error e) ∨
    s.admitV4Memory env policy q (some n) = s.admitV4Memory env policy q none
  /-- An admission that admits adds its rows once. -/
  adds : ∀ q failure s' r, s.admitV4Memory env policy q failure = .ok (s', .admitted r) → AddsAdmission s q s' r
  /-- An admission that ends otherwise adds nothing. -/
  ends : ∀ q failure s' outcome, s.admitV4Memory env policy q failure = .ok (s', outcome) →
    (∀ r, outcome ≠ .admitted r) → s' = s
  /-- From an admission on, whatever happens, its scope resolves as before and is never admitted again. -/
  once : ∀ q failure s' r k, s.admitV4Memory env policy q failure = .ok (s', .admitted r) → s.scopeOf q = some k →
    ∃ hash, q.payloadHash = some hash ∧ ∀ later, (run (intakeExec env policy) s' later).scopeOf q = some k ∧
      Repeats env policy (run (intakeExec env policy) s' later) k hash r
  /-- Every receipt is answered with an admission whose rows are there. -/
  answered : ∀ x ∈ s.requests.rows, ∃ r, x.response = some r ∧ s.HasAdmission r
  /-- No two receipts share a mutation, a run or a raw log. -/
  distinct : ∀ x ∈ s.requests.rows, ∀ y ∈ s.requests.rows, ∀ r r', x.response = some r → y.response = some r' →
    r.Meets r' → x = y

/-- Admissions are atomic and exactly once, in every state that any interleaving of admissions with
each other and with the rest of the intake reaches. -/
theorem admission_exactly_once (env : IntakeEnv) (policy : QueueAdmissionPolicy) (ops : List IntakeOp) :
    ExactlyOnce env policy (intakeReach env policy ops) := by
  have hinv : AdmissionInv (intakeReach env policy ops) := stable_run (fun _ op hs => hs.exec op) admissionInv_empty
  generalize intakeReach env policy ops = s at hinv
  refine ⟨fun q failure e h => ?_, fun q n => storage_failure n, fun q failure s' r h => admission_adds hinv.owned h,
    fun q failure s' outcome h hnot => admitV4Memory_ended h hnot, fun q failure s' r k h hk => ?_, hinv.answered,
    hinv.distinct⟩
  · refine intakeExec_of_error (e := e) ?_
    show (s.admitV4Memory env policy q failure).map (·.1) = .error e
    rw [h]; rfl
  · have hadmission : intakeTransact env policy s (.admitV4Memory q failure) = .ok s' := map_eq_ok.2 ⟨_, h, rfl⟩
    obtain ⟨-, hash, hhash, hrows⟩ := (admission_adds hinv.owned h).receipt k hk
    refine ⟨hash, hhash, fun later => ?_⟩
    have hlater : s'.Later (run (intakeExec env policy) s' later) := run_later (hinv.step hadmission) later
    refine ⟨((intake_later hinv.owned hadmission).trans hlater).scopeOf hk, repeats_of_receipt ?_⟩
    exact hlater.requests k _ (Table.lookup_appended hrows)

-- The same request twice, then another chunk under a key of its own.
example : ((intakeReach sampleIntakeEnv (samplePolicy 9) [sampleScope,
    .admitV4Memory (sampleRequest "k" "h" "c" 1) none, .admitV4Memory (sampleRequest "k" "h" "c" 1) none,
    .admitV4Memory (sampleRequest "k2" "h" "c2" 2) none]).db.core.mutations.rows.length) = 2 := by decide +kernel

end Mesa.Ledger
