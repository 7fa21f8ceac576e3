/-
Bounded retries. A claim counts an attempt, and `fail_projection_outbox` is the only place that
compares the count with the retry limit: an attempt that ends there or completes is bounded. An
attempt that ends by its lease running out, by a recovery, or by an exception while its lane is
completed is handed out again whatever the count. A batch is completed lane by lane, and the first
exception leaves the lanes behind it unrecorded.
-/
import Mesa.Ledger.Lanes

namespace Mesa.Ledger

open Mesa.Foundation

/-! ## Counting claims -/

/-- The operation hands the lane `key` to a worker. -/
def claimsLane (db : Db) (key : ProjectionKey) : Op → Bool
  | .claimProjectionOutbox w t limit lease =>
    (claimProjectionOutbox db w t limit lease).toOption.any fun r => r.2.any fun p => p.key = key
  | _ => false

/-- How often a run hands out the lane `key`. -/
def claimCount (env : Env) (key : ProjectionKey) : Db → List Op → Nat
  | _, [] => 0
  | db, op :: ops => (if claimsLane db key op then 1 else 0) + claimCount env key (exec env db op) ops

/-- The step takes no abandoned attempt that has used up the retries of its lane: a claim whose lease
ran out, or one that a recovery releases. -/
def Op.sparesExhausted (db : Db) : Op → Bool
  | .claimProjectionOutbox _ _ limit _ => ((claimCandidates db).take limit).all fun p =>
    p.state ≠ .inFlight || p.attemptCount < p.retryLimit
  | .recoverInFlight => db.outbox.rows.all fun p => p.state ≠ .inFlight || p.attemptCount < p.retryLimit
  | _ => true

/-! ## What bounds the count -/

/-- The lane may still be handed out for the first time or again. -/
def LaneState.waiting : LaneState → Bool
  | .blockedValidation | .pending | .retryPending => true
  | _ => false

/-- A lane after `n` claims: it has counted them, and one more is left unless it is held or finished. -/
structure Budget (n : Nat) (p : Projection) : Prop where
  counted : n ≤ p.attemptCount
  within : n ≤ p.retryLimit
  spare : p.state.waiting = true → n < p.retryLimit

theorem Budget.start {p : Projection} (h : 0 < p.retryLimit) : Budget 0 p :=
  ⟨Nat.zero_le _, Nat.zero_le _, fun _ => h⟩

theorem Budget.keep {n : Nat} {p p' : Projection} (h : Budget n p) (ha : p'.attemptCount = p.attemptCount)
    (hl : p'.retryLimit = p.retryLimit) (hs : p'.state.waiting = true → n < p.retryLimit) : Budget n p' :=
  ⟨ha ▸ h.counted, hl ▸ h.within, hl ▸ hs⟩

theorem transact_claim (env : Env) (db : Db) (w t : String) (limit lease : Nat) :
    transact env db (.claimProjectionOutbox w t limit lease) = (claimProjectionOutbox db w t limit lease).map (·.1) := rfl

/-- A claim returns the lanes it has just taken. -/
theorem claimsLane_claimed {env : Env} {db : Db} {op : Op} {p p' : Projection} (hp : db.outbox.lookup p.key = some p)
    (hp' : (exec env db op).outbox.lookup p.key = some p') (hclaims : claimsLane db p.key op = true) :
    ∃ w t limit lease, op = .claimProjectionOutbox w t limit lease ∧ p ∈ (claimCandidates db).take limit ∧
      p' = p.claimed w t (db.now + lease) := by
  cases op with
  | claimProjectionOutbox w t limit lease =>
    refine ⟨w, t, limit, lease, rfl, ?_⟩
    unfold claimsLane at hclaims
    simp only at hclaims
    cases hc : claimProjectionOutbox db w t limit lease with
    | error e => rw [hc] at hclaims; cases hclaims
    | ok r =>
      obtain ⟨db₁, claims⟩ := r
      rw [hc] at hclaims
      obtain ⟨ids, rfl, -, hout, rfl⟩ := claimProjectionOutbox_cases hc
      have hexec : exec env db (.claimProjectionOutbox w t limit lease) = db₁ :=
        exec_of_ok (by rw [transact_claim, hc]; rfl)
      simp only [Except.toOption, Option.any_some, List.any_eq_true, decide_eq_true_eq] at hclaims
      obtain ⟨q, hq, hkey⟩ := hclaims
      have hmem := of_decide_eq_true (Table.mem_select.1 hq).2
      rw [hkey] at hmem
      have htaken := (mem_claim_iff (Table.lookup_mem hp)).1 hmem
      refine ⟨htaken, ?_⟩
      rw [hexec, hout, Table.lookup_update, hp, Option.map_some, if_pos] at hp'
      · cases hp'; rfl
      · simp only [Bool.and_eq_true, decide_eq_true_eq]
        exact ⟨hmem, (mem_claimCandidates.1 (List.mem_of_mem_take htaken)).2.1⟩
  | _ => cases hclaims

theorem claimsLane_of_taken {env : Env} {db : Db} {w t : String} {limit lease : Nat} {p : Projection}
    (hp : db.outbox.lookup p.key = some p) (htaken : p ∈ (claimCandidates db).take limit)
    (hp' : (exec env db (.claimProjectionOutbox w t limit lease)).outbox.lookup p.key =
      some (p.claimed w t (db.now + lease))) : claimsLane db p.key (.claimProjectionOutbox w t limit lease) = true := by
  cases hc : claimProjectionOutbox db w t limit lease with
  | error e =>
    have hexec : exec env db (.claimProjectionOutbox w t limit lease) = db :=
      exec_of_error (by rw [transact_claim, hc]; rfl)
    rw [hexec, hp] at hp'
    have := congrArg Projection.attemptCount (Option.some.inj hp')
    simp at this
  | ok r =>
    obtain ⟨db₁, claims⟩ := r
    have hexec : exec env db (.claimProjectionOutbox w t limit lease) = db₁ :=
      exec_of_ok (by rw [transact_claim, hc]; rfl)
    rw [hexec] at hp'
    obtain ⟨ids, rfl, -, -, rfl⟩ := claimProjectionOutbox_cases hc
    unfold claimsLane
    simp only [hc, Except.toOption, Option.any_some, List.any_eq_true, decide_eq_true_eq]
    exact ⟨_, Table.mem_select.2 ⟨Table.lookup_mem hp', decide_eq_true ((mem_claim_iff (Table.lookup_mem hp)).2 htaken)⟩,
      rfl⟩

/-- A step that reopens nothing and spares exhausted attempts keeps the budget of a lane. -/
theorem Budget.step {env : Env} {db : Db} {op : Op} {n : Nat} {p p' : Projection} (h : Budget n p)
    (hp : db.outbox.lookup p.key = some p) (hp' : (exec env db op).outbox.lookup p.key = some p')
    (hreopens : op.reopensLanes = false) (hspares : op.sparesExhausted db = true) :
    Budget (n + if claimsLane db p.key op then 1 else 0) p' := by
  by_cases hclaims : claimsLane db p.key op = true
  · obtain ⟨w, t, limit, lease, rfl, htaken, rfl⟩ := claimsLane_claimed hp hp' hclaims
    rw [if_pos hclaims]
    have hlt : n < p.retryLimit := by
      obtain ⟨-, hclaimable, -⟩ := mem_claimCandidates.1 (List.mem_of_mem_take htaken)
      have hcond := List.all_eq_true.1 hspares p htaken
      simp only [Projection.claimable, Bool.or_eq_true, Bool.and_eq_true, decide_eq_true_eq, ne_eq] at hclaimable hcond
      rcases hclaimable with (hs | ⟨hs, -⟩) | ⟨hs, -⟩
      · exact h.spare (by rw [hs]; decide)
      · exact h.spare (by rw [hs]; decide)
      · have := h.counted
        rcases hcond with hno | hlt
        · rw [hs] at hno; simp at hno
        · omega
    refine ⟨Nat.succ_le_succ h.counted, hlt, fun hs => ?_⟩
    simp [LaneState.waiting] at hs
  · rw [if_neg hclaims, Nat.add_zero]
    obtain ⟨p'', hp'', hmove⟩ := (exec_lanes env db op).moved p.key p hp
    rw [hp'] at hp''
    cases hp''
    cases hmove with
    | kept => exact h
    | claimed w t limit lease _ htaken =>
      exact absurd (claimsLane_of_taken hp htaken hp') hclaims
    | completed w t o _ hheld =>
      refine h.keep rfl rfl fun hs => ?_
      cases o <;> cases hs
    | fenced => exact h.keep rfl rfl fun hs => by cases hs
    | retried w t r _ lease hheld hlimit => exact h.keep rfl rfl fun _ => lt_of_le_of_lt h.counted hlimit
    | dead => exact h.keep rfl rfl fun hs => by cases hs
    | recovered _ hs =>
      have hlimit := List.all_eq_true.1 hspares p (Table.lookup_mem hp)
      rw [hs] at hlimit
      exact h.keep rfl rfl fun _ => lt_of_le_of_lt h.counted (by simpa using hlimit)
    | released a _ hs => exact h.keep rfl rfl fun _ => h.spare (by rw [hs]; rfl)
    | rejected => exact h.keep rfl rfl fun hs => by cases hs
    | withdrawn => exact h.keep rfl rfl fun hs => by cases hs
    | unpublished => exact h.keep rfl rfl fun hs => by cases hs
    | requeued => cases hreopens
    | revived _ _ hop => rw [hreopens] at hop; cases hop

/-! ## Runs -/

/-- Every lane can be claimed at least once. -/
def Retryable (db : Db) : Prop := ∀ k p, db.outbox.lookup k = some p → 0 < p.retryLimit

theorem exec_retryable {env : Env} {db : Db} {op : Op} (h : Retryable db) : Retryable (exec env db op) := by
  intro k p' hp'
  cases hp : db.outbox.lookup k with
  | none =>
    rw [(exec_lanes env db op).added k p' hp hp']
    exact Nat.succ_pos 4
  | some p =>
    obtain ⟨p'', hp'', hmove⟩ := (exec_lanes env db op).moved k p hp
    rw [hp'] at hp''
    cases hp''
    have hlimit := h k p hp
    cases hmove <;> exact hlimit

theorem reach_retryable (env : Env) (ops : List Op) : Retryable (reach env ops) :=
  stable_run (fun _ _ h => exec_retryable h) (by intro k p h; cases h)

/-- The budget of a lane, or nothing claimed while there is no lane. -/
def Spent (key : ProjectionKey) (n : Nat) (db : Db) : Prop :=
  match db.outbox.lookup key with
  | none => n = 0
  | some p => Budget n p

theorem claimsLane_lookup {db : Db} {key : ProjectionKey} {op : Op} (h : claimsLane db key op = true) :
    (db.outbox.lookup key).isSome = true := by
  cases op with
  | claimProjectionOutbox w t limit lease =>
    unfold claimsLane at h
    simp only at h
    cases hc : claimProjectionOutbox db w t limit lease with
    | error e => rw [hc] at h; cases h
    | ok r =>
      obtain ⟨db₁, claims⟩ := r
      obtain ⟨ids, rfl, -, hout, rfl⟩ := claimProjectionOutbox_cases hc
      rw [hc] at h
      simp only [Except.toOption, Option.any_some, List.any_eq_true, decide_eq_true_eq] at h
      obtain ⟨q, hq, rfl⟩ := h
      have hl : db₁.outbox.lookup q.key = some q := Table.lookup_of_mem (Table.mem_select.1 hq).1
      rw [hout, Table.lookup_update] at hl
      obtain ⟨p, hp, -⟩ := Option.map_eq_some_iff.1 hl
      rw [hp]; rfl
  | _ => cases h

theorem Spent.step {env : Env} {db : Db} {op : Op} {key : ProjectionKey} {n : Nat} (h : Spent key n db)
    (hreopens : op.reopensLanes = false) (hspares : op.sparesExhausted db = true) :
    Spent key (n + if claimsLane db key op then 1 else 0) (exec env db op) := by
  unfold Spent at h ⊢
  cases hp : db.outbox.lookup key with
  | none =>
    rw [hp] at h
    have hclaims : ¬ claimsLane db key op = true := by
      intro hc
      have := claimsLane_lookup hc
      rw [hp] at this; cases this
    rw [if_neg hclaims, h]
    cases hp' : (exec env db op).outbox.lookup key with
    | none => rfl
    | some p' =>
      rw [(exec_lanes env db op).added key p' hp hp']
      exact Budget.start (Nat.succ_pos 4)
  | some p =>
    rw [hp] at h
    obtain rfl : p.key = key := Table.lookup_key hp
    obtain ⟨p', hp', -⟩ := (exec_lanes env db op).moved p.key p hp
    rw [hp']
    exact Budget.step h hp hp' hreopens hspares

theorem Spent.run {env : Env} {key : ProjectionKey} : ∀ {ops : List Op} {db : Db} {n : Nat}, Spent key n db →
    (∀ op ∈ ops, op.reopensLanes = false) → Along (exec env) (fun db op => op.sparesExhausted db = true) db ops →
      Spent key (n + claimCount env key db ops) (run (exec env) db ops)
  | [], db, n, h, _, _ => h
  | op :: ops, db, n, h, hops, hcond => by
    rw [claimCount, ← Nat.add_assoc, run_cons]
    exact Spent.run (h.step (hops op List.mem_cons_self) hcond.1) (fun o ho => hops o (List.mem_cons_of_mem _ ho)) hcond.2

/-! ## Batches -/

/-- One lane of a batch: the claim it is completed under, the exception that SQLite or a store raises
while it is completed, if any, and the transactions that run before the next one's turn. -/
structure BatchItem where
  key : ProjectionKey
  claimToken : String
  fault : Option DaoError
  between : List Op

/-- The call of `complete_projection_outbox` for one lane of the batch. -/
def BatchItem.complete (env : Env) (workerId : String) (db : Db) (i : BatchItem) : Except DaoError (Db × Completion) :=
  match i.fault with
  | some e => .error e
  | none => completeProjectionOutbox env db i.key workerId i.claimToken .applied

/-- The database at the next lane's turn. -/
def BatchItem.leaves (env : Env) (workerId : String) (db : Db) (i : BatchItem) : Db :=
  run (exec env) (orKeep db ((i.complete env workerId db).map (·.1))) i.between

def Completion.isCompleted : Completion → Bool
  | .completed => true
  | _ => false

structure BatchResult where
  db : Db
  completed : List ProjectionKey
  raised : Option DaoError

/-- `complete_projection_outbox_batch`: the lanes it counts, up to the first exception. -/
def completeProjectionOutboxBatch (env : Env) (workerId : String) : Db → List BatchItem → BatchResult
  | db, [] => ⟨db, [], none⟩
  | db, i :: rest =>
    match i.complete env workerId db with
    | .error e => ⟨db, [], some e⟩
    | .ok (_, c) =>
      let r := completeProjectionOutboxBatch env workerId (i.leaves env workerId db) rest
      { r with completed := if c.isCompleted then i.key :: r.completed else r.completed }

/-- The lanes that are recorded when an exception ends the completion of its own lane only. -/
def recordedAlone (env : Env) (workerId : String) : Db → List BatchItem → List ProjectionKey
  | _, [] => []
  | db, i :: rest =>
    (if (i.complete env workerId db).toOption.any (·.2.isCompleted) then [i.key] else []) ++
      recordedAlone env workerId (i.leaves env workerId db) rest

/-- The worker holds the lane, and nothing fences its mutation. -/
def BatchItem.held (workerId : String) (db : Db) (i : BatchItem) : Bool :=
  (db.outbox.lookup i.key).any fun p => (db.core.mutations.lookup i.key.mutationId).any fun m =>
    !(p.notHeldBy workerId i.claimToken || db.core.isFenced m)

/-- The mutation can be advanced over the lane. -/
def BatchItem.advances (db : Db) (i : BatchItem) : Bool :=
  (advanceMutationProjectionState db.core (settleLane db.outbox i.key i.claimToken .completed none)
    i.key.mutationId).toOption.isSome

def BatchItem.completable (workerId : String) (db : Db) (i : BatchItem) : Bool :=
  i.fault.isNone && i.held workerId db && i.advances db

def BatchItem.raises (workerId : String) (db : Db) (i : BatchItem) : Bool :=
  i.fault.isSome || (i.held workerId db && !i.advances db)

/-- The turn of one lane, and whether a lane up to it has raised. -/
def batchTurn (env : Env) (workerId : String) (s : Db × Bool) (i : BatchItem) : Db × Bool :=
  (i.leaves env workerId s.1, s.2 || i.raises workerId s.1)

theorem complete_cases (env : Env) (workerId : String) (db : Db) (i : BatchItem) :
    (∃ e, i.complete env workerId db = .error e ∧ i.raises workerId db = true ∧ i.completable workerId db = false) ∨
      (∃ db' c, i.complete env workerId db = .ok (db', c) ∧ i.raises workerId db = false ∧
        c.isCompleted = i.completable workerId db) := by
  unfold BatchItem.complete BatchItem.raises BatchItem.completable
  cases hfault : i.fault with
  | some e => exact Or.inl ⟨e, rfl, rfl, rfl⟩
  | none =>
    unfold BatchItem.held BatchItem.advances completeProjectionOutbox
    cases hp : db.outbox.lookup i.key with
    | none => exact Or.inr ⟨db, .unknown, rfl, rfl, rfl⟩
    | some p =>
      cases hm : db.core.mutations.lookup i.key.mutationId with
      | none => exact Or.inr ⟨db, .unknown, rfl, rfl, rfl⟩
      | some m =>
        have hskip : ¬ (Outcome.applied = .skipped ∧ ¬ env.maySkip i.key.projectionName = true) := by
          rintro ⟨h, -⟩; cases h
        simp only [Option.any_some, if_neg hskip]
        cases hlost : p.notHeldBy workerId i.claimToken || db.core.isFenced m with
        | true => exact Or.inr ⟨_, _, rfl, rfl, rfl⟩
        | false =>
          simp only [Bool.false_eq_true, ↓reduceIte]
          cases hadv : advanceMutationProjectionState db.core
              (settleLane db.outbox i.key i.claimToken .completed none) i.key.mutationId with
          | error e => exact Or.inl ⟨e, by simp only [Outcome.laneState, hadv]; rfl, rfl, rfl⟩
          | ok core => exact Or.inr ⟨_, .completed, by simp only [Outcome.laneState, hadv]; rfl, rfl, rfl⟩

/-- Nothing is recorded from here on exactly when no lane is completable at its turn. -/
theorem recordedAlone_eq_nil {env : Env} {workerId : String} : ∀ {db : Db} {items : List BatchItem},
    recordedAlone env workerId db items = [] ↔
      Along (batchTurn env workerId) (fun s i => s.2 = true → i.completable workerId s.1 = false) (db, true) items
  | _, [] => by simp [recordedAlone, Along]
  | db, i :: rest => by
    unfold recordedAlone Along
    rw [List.append_eq_nil_iff, recordedAlone_eq_nil]
    refine and_congr ?_ (by unfold batchTurn; rfl)
    rcases complete_cases env workerId db i with ⟨e, he, -, hno⟩ | ⟨db', c, hok, -, hc⟩
    · simp [he, hno, Except.toOption]
    · cases hcomp : i.completable workerId db <;> simp [hok, hc, hcomp, Except.toOption]

/-- A batch records what each lane would record alone exactly when no completable lane is behind one
that raises. -/
theorem batch_records_iff {env : Env} {workerId : String} : ∀ {db : Db} {items : List BatchItem},
    (completeProjectionOutboxBatch env workerId db items).completed = recordedAlone env workerId db items ↔
      Along (batchTurn env workerId) (fun s i => s.2 = true → i.completable workerId s.1 = false) (db, false) items
  | _, [] => by simp [completeProjectionOutboxBatch, recordedAlone, Along]
  | db, i :: rest => by
    unfold completeProjectionOutboxBatch recordedAlone Along
    rcases complete_cases env workerId db i with ⟨e, he, hraises, -⟩ | ⟨db', c, hok, hraises, -⟩
    · have hturn : batchTurn env workerId (db, false) i = (i.leaves env workerId db, true) := by
        rw [batchTurn, hraises]; rfl
      rw [hturn, ← recordedAlone_eq_nil]
      simp only [he, Except.toOption, Option.any_none, Bool.false_eq_true, ↓reduceIte, List.nil_append]
      rw [eq_comm]
      simp
    · have hturn : batchTurn env workerId (db, false) i = (i.leaves env workerId db, false) := by
        rw [batchTurn, hraises]; rfl
      rw [hturn, ← batch_records_iff]
      cases hc : c.isCompleted <;> simp [hok, hc, Except.toOption]

/-! ## Bounded retry and batch isolation -/

/-- In a part of a run without replays and requeues, if no exhausted attempt is abandoned, no lane is
claimed more often than its retry limit; and a batch records every lane that its own completion allows
exactly when none of these is behind one that raises. -/
theorem retries_bounded_and_batches_isolated (env : Env) :
    (∀ ops seg key, (∀ op ∈ seg, op.reopensLanes = false) →
      Along (exec env) (fun db op => op.sparesExhausted db = true) (reach env ops) seg →
      ∀ p, (run (exec env) (reach env ops) seg).outbox.lookup key = some p →
        claimCount env key (reach env ops) seg ≤ p.retryLimit) ∧
    ∀ workerId db items,
      (completeProjectionOutboxBatch env workerId db items).completed = recordedAlone env workerId db items ↔
        Along (batchTurn env workerId) (fun s i => s.2 = true → i.completable workerId s.1 = false) (db, false) items := by
  refine ⟨fun ops seg key hseg hcond p hp => ?_, fun workerId db items => batch_records_iff⟩
  have start : Spent key 0 (reach env ops) := by
    unfold Spent
    cases hl : (reach env ops).outbox.lookup key with
    | none => rfl
    | some q => exact Budget.start (reach_retryable env ops key q hl)
  have hspent := start.run hseg hcond
  unfold Spent at hspent
  rw [hp, Nat.zero_add] at hspent
  exact hspent.within

/-- Two candidates whose SQL lanes are ready. -/
def twoReady : List Op := admitted (sampleMutation "m1" "r1" "rev" "k1") ++ admitted (sampleMutation "m2" "r2" "rev" "k2")

/-- A worker that claims one lane and crashes, until its lease has run out. -/
def crashing : List Op := [.claimProjectionOutbox "w" "token" 1 60, .passTime 60]

theorem retries_bounded_five :
    claimCount sampleEnv ⟨"m1", .sql⟩ (reach sampleEnv twoReady)
      (crashing ++ crashing ++ crashing ++ crashing ++ crashing) ≤ 5 := by
  have hp := (retries_bounded_and_batches_isolated sampleEnv).1 twoReady
    (crashing ++ crashing ++ crashing ++ crashing ++ crashing) ⟨"m1", .sql⟩ (by decide) (by decide +kernel)
    (((run (exec sampleEnv) (reach sampleEnv twoReady)
      (crashing ++ crashing ++ crashing ++ crashing ++ crashing)).outbox.lookup ⟨"m1", .sql⟩).get (by decide +kernel))
    (Option.some_get _).symm
  exact hp.trans (by decide +kernel)

/-- A lane whose worker keeps crashing is claimed a sixth time, although its retry limit is five; and an
exception in the completion of the first lane of a batch leaves the second one unrecorded. -/
theorem crashes_exceed_and_fault_spreads :
    (claimCount sampleEnv ⟨"m1", .sql⟩ (reach sampleEnv twoReady)
        (crashing ++ crashing ++ crashing ++ crashing ++ crashing ++ crashing) = 6 ∧
      ((reach sampleEnv twoReady).outbox.lookup ⟨"m1", .sql⟩).map (·.retryLimit) = some 5) ∧
    (completeProjectionOutboxBatch sampleEnv "w"
        (reach sampleEnv (twoReady ++ [.claimProjectionOutbox "w" "token" 2 60]))
        [⟨⟨"m1", .sql⟩, "token", some (.runtimeError "database is locked"), []⟩, ⟨⟨"m2", .sql⟩, "token", none, []⟩]).completed =
      [] ∧
    recordedAlone sampleEnv "w" (reach sampleEnv (twoReady ++ [.claimProjectionOutbox "w" "token" 2 60]))
        [⟨⟨"m1", .sql⟩, "token", some (.runtimeError "database is locked"), []⟩, ⟨⟨"m2", .sql⟩, "token", none, []⟩] =
      [⟨"m2", .sql⟩] := by
  decide +kernel

end Mesa.Ledger
