/-
What the admissions write: the rows of a v4 admission, of a raw-log admission and of a dispatch,
each taken apart once.
-/
import Mesa.Ledger.Effects
import Mesa.Ledger.Intake

namespace Mesa.Ledger

open Mesa.Foundation

/-- A record as it enters the queue. -/
def enqueuedRecord (key : DispatchKey) (tenantId : String) : DispatchRecord :=
  ⟨key, tenantId, .enqueued, 0, none, none, none⟩

/-- The mutation of an admission whose raw log has the given id. -/
def admittedMutation (env : Env) (a : Admission) (rawLogId : Nat) : Mutation where
  mutationId := admissionId env a rawLogId "mutation"
  candidateId := admissionId env a rawLogId "candidate"
  rawLogId := some rawLogId
  tenantId := a.tenantId
  datasetId := a.datasetId
  documentId := a.documentId
  revisionId := a.revisionId
  chunkId := a.chunkId
  agentId := a.agentId
  sessionId := a.sessionId
  pipelineRunId := admissionId env a rawLogId "pipeline-run"
  contentPayload := a.contentPayload
  evidenceSpan := a.evidenceSpan
  metadataValidFrom := a.metadataValidFrom
  metadataValidTo := a.metadataValidTo
  legalIdentity := a.legalIdentity
  documentChunk := a.documentChunk
  projectionTriplets := []
  state := .received

/-- The rows that the ledger part of an admission adds. -/
theorem admitMemory_rows {env : Env} {db db' : Db} {a : Admission} (h : admitMemory env db a = .ok db') :
    a.withinCapacity = true ∧ ∃ core, admitProvenance env db.core a = .ok core ∧
      core.runs.hasKey (admissionId env a (nextRawLogId db.queue.rawLogs) "pipeline-run") = false ∧
      mutationConflict core.mutations (admittedMutation env a (nextRawLogId db.queue.rawLogs)) = false ∧
      db' = { db with
        core := { core with
          runs := core.runs.insertOrIgnore ⟨admissionId env a (nextRawLogId db.queue.rawLogs) "pipeline-run",
            a.tenantId, a.agentId, .queued⟩
          mutations := core.mutations.insertOrIgnore (admittedMutation env a (nextRawLogId db.queue.rawLogs)) }
        outbox := insertLanes db.outbox (admissionId env a (nextRawLogId db.queue.rawLogs) "mutation")
        queue := {
          rawLogs := db.queue.rawLogs.insertOrIgnore ⟨nextRawLogId db.queue.rawLogs, a.agentId, .deferred⟩
          dispatch := db.queue.dispatch.insertOrIgnore
            (enqueuedRecord ⟨a.agentId, nextRawLogId db.queue.rawLogs⟩ a.tenantId) } } := by
  obtain ⟨core, hc, h⟩ := bind_eq_ok.1 h
  simp only at h
  split at h
  · cases h
  · next hcap =>
    split at h
    · cases h
    · next hrun =>
      split at h
      · cases h
      · next hm =>
        cases pure_eq_ok.1 h
        exact ⟨eq_true_of_ne_false hcap, core, hc, eq_false_of_ne_true hrun, eq_false_of_ne_true hm, rfl⟩

/-- Every identity of one catalog stands in the other. -/
def KeepsIdentities (t u : Table CatalogIdentity) : Prop := ∀ k row, t.lookup k = some row → u.lookup k = some row

theorem KeepsIdentities.trans {t u v : Table CatalogIdentity} (h : KeepsIdentities t u) (h' : KeepsIdentities u v) :
    KeepsIdentities t v :=
  fun k row hk => h' k row (h k row hk)

/-- A physical id, once given, is never given anew. -/
theorem createId_keeps {t u : Table CatalogIdentity} {key : CatalogKey} {physicalId id : String}
    (h : createId t key physicalId = .ok (u, id)) : KeepsIdentities t u := by
  unfold createId at h
  split at h
  · cases h; exact fun _ _ hk => hk
  · split at h
    · cases h
    · cases h
      intro k row hk
      rw [Table.lookup_insertOrIgnore, hk, Option.some_or]

/-- An admission resolves its identities and does nothing else. -/
theorem identify_cases {s s' : Intake} {q : AdmissionRequest} {datasetId : String} {a : Admission}
    (h : s.identify q datasetId = .ok (s', a)) :
    s' = { s with identities := s'.identities } ∧ a.tenantId = q.tenantId ∧ a.agentId = q.agentId ∧
      a.datasetId = datasetId ∧ KeepsIdentities s.identities s'.identities := by
  obtain ⟨⟨ids₁, document⟩, h₁, h⟩ := bind_eq_ok.1 h
  obtain ⟨⟨ids₂, revision⟩, h₂, h⟩ := bind_eq_ok.1 h
  obtain ⟨⟨ids₃, chunk⟩, h₃, h⟩ := bind_eq_ok.1 h
  obtain ⟨supersedes, -, h⟩ := bind_eq_ok.1 h
  split at h
  · cases h
  · cases pure_eq_ok.1 h
    exact ⟨rfl, rfl, rfl, rfl, ((createId_keeps h₁).trans (createId_keeps h₂)).trans (createId_keeps h₃)⟩

theorem mapError_eq_ok {ε ε' α : Type} {f : ε → ε'} {x : Except ε α} {a : α} : x.mapError f = .ok a ↔ x = .ok a := by
  cases x <;> simp [Except.mapError]

/-- The response of an admission whose raw log has the given id. -/
def admissionResponse (env : Env) (a : Admission) (rawLogId : Nat) : AdmissionResponse where
  mutationId := admissionId env a rawLogId "mutation"
  candidateId := admissionId env a rawLogId "candidate"
  pipelineRunId := admissionId env a rawLogId "pipeline-run"
  rawLogId := rawLogId

/-- The ledger, the raw log and the dispatch of an admission. -/
theorem admit_cases {env : IntakeEnv} {policy : QueueAdmissionPolicy} {s s' : Intake} {payload : RawPayload}
    {a : Admission} {response : AdmissionResponse} (h : s.admit env policy payload a = .ok (s', response)) :
    ∃ db, s.enforce policy a.tenantId (env.canonicalPayloadBytes payload) = .ok () ∧
      admitMemory env.toEnv s.db { a with withinCapacity := true } = .ok db ∧
      s.dispatchConflict ⟨a.agentId, nextRawLogId s.db.queue.rawLogs⟩ = false ∧
      response = admissionResponse env.toEnv a (nextRawLogId s.db.queue.rawLogs) ∧
      s' = ({ s with
          db
          logs := s.logs.insertOrIgnore ⟨nextRawLogId s.db.queue.rawLogs, payload, none, none, none, 0⟩ } :
          Intake).recordDispatch ⟨a.agentId, nextRawLogId s.db.queue.rawLogs⟩ a.tenantId
            (env.canonicalPayloadBytes payload) := by
  obtain ⟨db, hdb, h⟩ := bind_eq_ok.1 h
  have hdb := mapError_eq_ok.1 hdb
  split at h
  · cases h
  · next hconflict =>
    cases pure_eq_ok.1 h
    have hcap := (admitMemory_rows hdb).1
    cases he : s.enforce policy a.tenantId (env.canonicalPayloadBytes payload) with
    | error e => rw [he] at hcap; cases hcap
    | ok u =>
      rw [he] at hdb
      exact ⟨db, rfl, hdb, by simpa using hconflict, rfl, rfl⟩

/-- What a reservation that goes on leaves: nothing is reserved without a key. -/
def Intake.Reserved (s : Intake) (receipt : Option IdempotencyReceipt) (s' : Intake) : Prop :=
  match receipt with
  | none => s' = s
  | some r => s.requests.lookup r.scope = none ∧ s' = { s with requests := s.requests.insertOrIgnore r }

/-- The outcome of an admission whose key is taken. -/
def takenOutcome (taken : IdempotencyReceipt) : AdmissionOutcome :=
  match taken.response with
  | some response => .duplicate response
  | none => .inProgress

/-- A reservation goes on, or it ends the admission and changes nothing. -/
theorem reserve_cases {s s' : Intake} {receipt : Option IdempotencyReceipt} {ended : Option AdmissionOutcome}
    (h : s.reserve receipt = .ok (s', ended)) :
    (ended = none ∧ s.Reserved receipt s') ∨ ∃ r taken, receipt = some r ∧ s.requests.lookup r.scope = some taken ∧
      taken.payloadHash = r.payloadHash ∧ s' = s ∧ ended = some (takenOutcome taken) := by
  cases receipt with
  | none => cases h; exact Or.inl ⟨rfl, rfl⟩
  | some r =>
    simp only [Intake.reserve] at h
    cases ht : s.requests.lookup r.scope with
    | none => rw [ht] at h; cases h; exact Or.inl ⟨rfl, ht, rfl⟩
    | some taken =>
      rw [ht] at h
      simp only at h
      split at h
      · cases h
      · next hhash =>
        refine Or.inr ⟨r, taken, rfl, ht, not_not.1 hhash, ?_⟩
        unfold takenOutcome
        cases hr : taken.response <;> rw [hr] at h <;> cases h <;> exact ⟨rfl, rfl⟩

/-- An admission that returns has found its key taken by the same request, or has admitted. -/
theorem admitV4Memory_cases {env : IntakeEnv} {policy : QueueAdmissionPolicy} {s s' : Intake} {q : AdmissionRequest}
    {failure : Option Nat} {outcome : AdmissionOutcome}
    (h : s.admitV4Memory env policy q failure = .ok (s', outcome)) :
    ∃ datasetId, resolveId s.identities ⟨q.tenantId, .dataset, q.datasetId⟩ = .ok datasetId ∧
      ((∃ r taken, q.receipt datasetId = some r ∧ s.requests.lookup r.scope = some taken ∧
          taken.payloadHash = r.payloadHash ∧ s' = s ∧ outcome = takenOutcome taken) ∨
        ∃ reserved identified a admitted response, s.Reserved (q.receipt datasetId) reserved ∧
          reserved.identify q datasetId = .ok (identified, a) ∧
          identified.admit env policy q.payload a = .ok (admitted, response) ∧
          s' = admitted.settle (q.receipt datasetId) response ∧ outcome = .admitted response) := by
  obtain ⟨-, -, h⟩ := bind_eq_ok.1 h
  obtain ⟨-, -, h⟩ := bind_eq_ok.1 h
  obtain ⟨-, -, h⟩ := bind_eq_ok.1 h
  obtain ⟨datasetId, hdataset, h⟩ := bind_eq_ok.1 h
  obtain ⟨-, -, h⟩ := bind_eq_ok.1 h
  obtain ⟨⟨reserved, ended⟩, hreserve, h⟩ := bind_eq_ok.1 h
  refine ⟨datasetId, hdataset, ?_⟩
  rcases reserve_cases hreserve with ⟨rfl, hreserved⟩ | ⟨r, taken, hq, ht, hhash, rfl, rfl⟩
  · obtain ⟨-, -, h⟩ := bind_eq_ok.1 h
    obtain ⟨⟨identified, a⟩, hidentify, h⟩ := bind_eq_ok.1 h
    obtain ⟨-, -, h⟩ := bind_eq_ok.1 h
    obtain ⟨⟨admitted, response⟩, hadmit, h⟩ := bind_eq_ok.1 h
    obtain ⟨-, -, h⟩ := bind_eq_ok.1 h
    obtain ⟨-, -, h⟩ := bind_eq_ok.1 h
    cases pure_eq_ok.1 h
    exact Or.inr ⟨reserved, identified, a, admitted, response, hreserved, hidentify, hadmit, rfl, rfl⟩
  · obtain ⟨-, -, h⟩ := bind_eq_ok.1 h
    cases pure_eq_ok.1 h
    exact Or.inl ⟨r, taken, hq, ht, hhash, rfl, rfl⟩

/-- An admission that ends without admitting changes nothing. -/
theorem admitV4Memory_ended {env : IntakeEnv} {policy : QueueAdmissionPolicy} {s s' : Intake} {q : AdmissionRequest}
    {failure : Option Nat} {outcome : AdmissionOutcome} (h : s.admitV4Memory env policy q failure = .ok (s', outcome))
    (hnot : ∀ response, outcome ≠ .admitted response) : s' = s := by
  obtain ⟨-, -, ⟨-, -, -, -, -, rfl, -⟩ | ⟨-, -, -, -, response, -, -, -, -, houtcome⟩⟩ := admitV4Memory_cases h
  · rfl
  · exact absurd houtcome (hnot response)

/-- The idempotency receipts after an admission has stored its response. -/
def answered (requests : Table IdempotencyReceipt) (receipt : Option IdempotencyReceipt)
    (response : AdmissionResponse) : Table IdempotencyReceipt :=
  match receipt with
  | none => requests
  | some x => (requests.insertOrIgnore x).update (fun r => r.scope = x.scope) fun r =>
    { r with response := some response }

/-- The tables after an admission: the ledger of the admission, its raw log and its dispatch, the
identities it created and its answered receipt. -/
theorem admitted_rows {env : IntakeEnv} {policy : QueueAdmissionPolicy} {s s' : Intake} {q : AdmissionRequest}
    {failure : Option Nat} {response : AdmissionResponse}
    (h : s.admitV4Memory env policy q failure = .ok (s', .admitted response)) :
    ∃ datasetId a identities db, resolveId s.identities ⟨q.tenantId, .dataset, q.datasetId⟩ = .ok datasetId ∧
      (∀ r, q.receipt datasetId = some r → s.requests.lookup r.scope = none) ∧
      KeepsIdentities s.identities identities ∧ a.tenantId = q.tenantId ∧ a.agentId = q.agentId ∧
      s.enforce policy a.tenantId (env.canonicalPayloadBytes q.payload) = .ok () ∧
      admitMemory env.toEnv s.db { a with withinCapacity := true } = .ok db ∧
      s.dispatchConflict ⟨a.agentId, nextRawLogId s.db.queue.rawLogs⟩ = false ∧
      response = admissionResponse env.toEnv a (nextRawLogId s.db.queue.rawLogs) ∧
      s' = ({ s with
          db
          identities
          logs := s.logs.insertOrIgnore ⟨nextRawLogId s.db.queue.rawLogs, q.payload, none, none, none, 0⟩
          requests := answered s.requests (q.receipt datasetId) response } :
          Intake).recordDispatch ⟨a.agentId, nextRawLogId s.db.queue.rawLogs⟩ a.tenantId
            (env.canonicalPayloadBytes q.payload) := by
  obtain ⟨datasetId, hdataset, ⟨-, taken, -, -, -, -, houtcome⟩ |
    ⟨reserved, identified, a, admitted, r, hreserved, hidentify, hadmit, rfl, houtcome⟩⟩ := admitV4Memory_cases h
  · unfold takenOutcome at houtcome
    split at houtcome <;> cases houtcome
  · cases houtcome
    obtain ⟨hi, htenant, hagent, -, hkept⟩ := identify_cases hidentify
    obtain ⟨db, henforce, hdb, hconflict, hresponse, rfl⟩ := admit_cases hadmit
    rw [hi] at henforce hdb hconflict hresponse
    refine ⟨datasetId, a, identified.identities, db, hdataset, ?_⟩
    cases hr : q.receipt datasetId with
    | none =>
      rw [hr] at hreserved
      obtain rfl : reserved = s := hreserved
      refine ⟨fun r hsome => (by cases hsome), hkept, htenant, hagent, henforce, hdb, hconflict, hresponse, ?_⟩
      rw [hi]; rfl
    | some x =>
      rw [hr] at hreserved
      obtain ⟨hfresh, rfl⟩ := hreserved
      refine ⟨fun r hsome => ?_, hkept, htenant, hagent, henforce, hdb, hconflict, hresponse, ?_⟩
      · cases hsome; exact hfresh
      · rw [hi]; rfl

/-! ## Raw logs -/

theorem insertRawLog_cases {s s' : Intake} {agentId : String} {payload : RawPayload}
    (h : insertRawLog s agentId payload = .ok s') :
    s' = { s with
      db := { s.db with queue := { s.db.queue with
        rawLogs := s.db.queue.rawLogs.insertOrIgnore ⟨nextRawLogId s.db.queue.rawLogs, agentId, .deferred⟩ } }
      logs := s.logs.insertOrIgnore ⟨nextRawLogId s.db.queue.rawLogs, payload, none, none, none, 0⟩ } := by
  obtain ⟨-, -, h⟩ := bind_eq_ok.1 h
  exact (pure_eq_ok.1 h).symm

/-- A dispatch finds its receipt recorded, or queues the record within the capacity. -/
theorem dispatchRawLog_cases {env : IntakeEnv} {s s' : Intake} {agentId : String} {logId : Nat} {workerId : String}
    {policy : Option QueueAdmissionPolicy} (h : dispatchRawLog env s agentId logId workerId policy = .ok s') :
    s' = s ∨ ∃ log, s.logs.lookup logId = some log ∧
      ((s.journal.lookup logId).any fun j => j.state = .receiptRecorded) = false ∧
      s.enforce (policy.getD defaultQueueAdmissionPolicy) agentId (env.canonicalPayloadBytes log.payload) = .ok () ∧
      s' = (s.enqueue ⟨agentId, logId⟩ agentId).recordDispatch ⟨agentId, logId⟩ agentId
        (env.canonicalPayloadBytes log.payload) := by
  obtain ⟨-, -, h⟩ := bind_eq_ok.1 h
  split at h
  · cases h
  · split at h
    · next log _ hlog =>
      split at h
      · cases h
      · split at h
        · exact Or.inl (pure_eq_ok.1 h).symm
        · next hjournal =>
          obtain ⟨_, henforce, h⟩ := bind_eq_ok.1 h
          exact Or.inr ⟨_, hlog, eq_false_of_ne_true hjournal, henforce, (pure_eq_ok.1 h).symm⟩
    · cases h

/-- A raw-log admission finds a duplicate, or stores and queues a new raw log within the capacity. -/
theorem admitRawLog_cases {env : IntakeEnv} {policy : QueueAdmissionPolicy} {s s' : Intake} {agentId : String}
    {tenantId : Option String} {payload : RawPayload} {result : RawLogAdmission}
    (h : admitRawLog env policy s agentId tenantId payload = .ok (s', result)) :
    s' = s ∨ ∃ tenant stored logged, s.enforce policy tenant (env.canonicalPayloadBytes stored) = .ok () ∧
      s.dispatchConflict ⟨agentId, nextRawLogId s.db.queue.rawLogs⟩ = false ∧
      insertRawLog s agentId stored = .ok logged ∧
      s' = (logged.enqueue ⟨agentId, nextRawLogId s.db.queue.rawLogs⟩ tenant).recordDispatch
        ⟨agentId, nextRawLogId s.db.queue.rawLogs⟩ tenant (env.canonicalPayloadBytes stored) := by
  obtain ⟨-, -, h⟩ := bind_eq_ok.1 h
  simp only at h
  split at h
  · cases h
  · split at h
    · cases h
    · split at h
      · cases h
      · split at h
        · cases pure_eq_ok.1 h; exact Or.inl rfl
        · obtain ⟨_, henforce, h⟩ := bind_eq_ok.1 h
          split at h
          · cases h
          · next hconflict =>
            obtain ⟨logged, hlogged, h⟩ := bind_eq_ok.1 h
            cases pure_eq_ok.1 h
            exact Or.inr ⟨_, _, logged, henforce, eq_false_of_ne_true hconflict, hlogged, rfl⟩

/-- A claim that returns takes the raw log, if it is the caller's to claim. -/
theorem claimRawLog_cases {s s' : Intake} {agentId : String} {logId : Nat} {w t : String} {lease : Nat}
    {claim : Option RawLogColumns} (h : claimRawLog s agentId logId w t lease = .ok (s', claim)) :
    (s.db.queue.rawLogs.anyWhere (s.mayClaimLog agentId logId) = false ∧ s' = s ∧ claim = none) ∨
      (s.db.queue.rawLogs.anyWhere (s.mayClaimLog agentId logId) = true ∧ claim = s'.logs.lookup logId ∧
        s' = s.moveLogs (s.mayClaimLog agentId logId) .processing (·.claim w t (s.db.now + lease)) fun _ => rfl) := by
  obtain ⟨-, -, h⟩ := bind_eq_ok.1 h
  split at h
  · cases h
  · split at h
    · next hany => cases pure_eq_ok.1 h; exact Or.inr ⟨hany, rfl, rfl⟩
    · next hany => cases pure_eq_ok.1 h; exact Or.inl ⟨eq_false_of_ne_true hany, rfl, rfl⟩

/-- A transition that returns settles the raw log, if the caller holds its claim. -/
theorem transitionClaimedRawLog_cases {s s' : Intake} {agentId : String} {logId : Nat} {w t : String}
    {status : RawLogStatus} {b : Bool} (h : transitionClaimedRawLog s agentId logId w t status = .ok (s', b)) :
    (s.db.queue.rawLogs.anyWhere (s.holdsLog agentId logId w t) = false ∧ s' = s ∧ b = false) ∨
      (s.db.queue.rawLogs.anyWhere (s.holdsLog agentId logId w t) = true ∧ b = true ∧ status ≠ .processing ∧
        s' = s.moveLogs (s.holdsLog agentId logId w t) status RawLogColumns.release fun _ => rfl) := by
  obtain ⟨-, -, h⟩ := bind_eq_ok.1 h
  split at h
  · cases h
  · next hstatus =>
    split at h
    · next hany => cases pure_eq_ok.1 h; exact Or.inr ⟨hany, rfl, hstatus, rfl⟩
    · next hany => cases pure_eq_ok.1 h; exact Or.inl ⟨eq_false_of_ne_true hany, rfl, rfl⟩

end Mesa.Ledger
