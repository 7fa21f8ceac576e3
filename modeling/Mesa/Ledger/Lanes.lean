/-
What one transaction does to one projection lane. Lanes are never deleted and a new lane is
blocked; every other change is one of the moves below, each made by its own operations.
-/
import Mesa.Ledger.Footprint

namespace Mesa.Ledger

open Mesa.Foundation

/-- The operations that withdraw all lanes of the mutations they end. -/
def Op.withdraws : Op → Bool
  | .requestPipelineRollback _ | .purgeDocument .. | .purgeMemory .. => true
  | _ => false

/-- The operations by which an operator or a repair hands finished lanes out again. -/
def Op.reopensLanes : Op → Bool
  | .replayPipelineRun .. | .reconcileProjectionParity _ | .requeueSkippedProjections _ => true
  | _ => false

/-- A lane as an admission inserts it. -/
def blockedLane (key : ProjectionKey) : Projection := ⟨key, .blockedValidation, 0, 5, none, none, none⟩

/-- What one transaction can do to a lane. -/
inductive LaneMove (db : Db) : Op → Projection → Projection → Prop
  | kept (op : Op) (p : Projection) : LaneMove db op p p
  | claimed (w t : String) (limit lease : Nat) (p : Projection) (h : p ∈ (claimCandidates db).take limit) :
    LaneMove db (.claimProjectionOutbox w t limit lease) p (p.claimed w t (db.now + lease))
  | completed (w t : String) (o : Outcome) (p : Projection) (h : p.notHeldBy w t = false) :
    LaneMove db (.completeProjectionOutbox p.key w t o) p (p.released o.laneState)
  | fenced (w t : String) (o : Outcome) (p : Projection) (h : p.state = .inFlight) :
    LaneMove db (.completeProjectionOutbox p.key w t o) p (p.released .cancelled)
  | retried (w t : String) (r : Bool) (p : Projection) (lease : Nat) (h : p.notHeldBy w t = false)
    (hlimit : p.attemptCount < p.retryLimit) :
    LaneMove db (.failProjectionOutbox p.key w t r) p { (p.released .retryPending) with leaseExpiresAt := some lease }
  | dead (w t : String) (r : Bool) (p : Projection) (h : p.notHeldBy w t = false) :
    LaneMove db (.failProjectionOutbox p.key w t r) p (p.released .deadLetter)
  | recovered (p : Projection) (h : p.state = .inFlight) : LaneMove db .recoverInFlight p (p.released .retryPending)
  | released (agentId : String) (p : Projection) (h : p.state = .blockedValidation) :
    LaneMove db (.setMutationState agentId p.key.mutationId .validated) p { p with state := .pending }
  | rejected (agentId : String) (p : Projection)
    (h : p.state ∈ [LaneState.blockedValidation, .pending, .retryPending]) :
    LaneMove db (.setMutationState agentId p.key.mutationId .rejected) p (p.released .cancelled)
  | withdrawn (op : Op) (p : Projection) (h : op.withdraws = true) : LaneMove db op p (p.released .cancelled)
  | unpublished (p : Projection) (h : p.state = .completed) :
    LaneMove db .publishWithoutGraph p { p with state := .skipped }
  | requeued (p : Projection) (h : p.state = .skipped) :
    LaneMove db (.requeueSkippedProjections p.key.projectionName) p { (p.released .pending) with attemptCount := 0 }
  | revived (op : Op) (p : Projection) (hop : op.reopensLanes = true) (h : p.state = .deadLetter ∨ p.state = .completed) :
    LaneMove db op p (p.released .retryPending)

/-- A transaction moves every lane and may add blocked ones. -/
structure OutboxMoved (db : Db) (op : Op) (outbox' : Table Projection) : Prop where
  moved : ∀ k p, db.outbox.lookup k = some p → ∃ p', outbox'.lookup k = some p' ∧ LaneMove db op p p'
  added : ∀ k p', db.outbox.lookup k = none → outbox'.lookup k = some p' → p' = blockedLane k

theorem outboxMoved_refl (db : Db) (op : Op) : OutboxMoved db op db.outbox where
  moved _ p h := ⟨p, h, .kept op p⟩
  added _ _ hnone hsome := by rw [hnone] at hsome; cases hsome

/-- An update makes a move of every lane it selects. -/
theorem outboxMoved_update {db : Db} {op : Op} {p : Projection → Bool} {f : Projection → Projection}
    (hf : ∀ r, Keyed.key (f r) = Keyed.key r)
    (h : ∀ r ∈ db.outbox.rows, p r = true → LaneMove db op r (f r)) : OutboxMoved db op (db.outbox.update p f hf) where
  moved k r hr := by
    refine ⟨if p r then f r else r, by rw [Table.lookup_update, hr]; rfl, ?_⟩
    by_cases hp : p r = true
    · rw [if_pos hp]; exact h r (Table.lookup_mem hr) hp
    · rw [if_neg hp]; exact .kept op r
  added k r hnone hsome := by
    rw [Table.lookup_update, hnone] at hsome; cases hsome

theorem lookup_insertLanes (outbox : Table Projection) (id : String) (k : ProjectionKey) :
    (insertLanes outbox id).lookup k = (outbox.lookup k).or (if k.mutationId = id then some (blockedLane k) else none) := by
  obtain ⟨m, lane⟩ := k
  unfold insertLanes
  simp only [List.foldl_cons, List.foldl_nil, Table.lookup_insertOrIgnore, Keyed.key, ProjectionKey.mk.injEq,
    Option.or_assoc, blockedLane]
  congr 1
  by_cases hm : m = id
  · subst hm
    cases lane <;> simp
  · simp [hm, Ne.symm hm]

theorem outboxMoved_insertLanes (db : Db) (op : Op) (id : String) : OutboxMoved db op (insertLanes db.outbox id) where
  moved k p h := ⟨p, by rw [lookup_insertLanes, h]; rfl, .kept op p⟩
  added k p' hnone hsome := by
    rw [lookup_insertLanes, hnone, Option.none_or] at hsome
    split at hsome
    · cases hsome; rfl
    · cases hsome

/-- Settling a lane settles no other one. -/
theorem outboxMoved_settleLane {db : Db} {op : Op} {p : Projection} {t : String} {state : LaneState}
    {lease : Option Nat} (hp : db.outbox.lookup p.key = some p)
    (h : LaneMove db op p { (p.released state) with leaseExpiresAt := lease }) :
    OutboxMoved db op (settleLane db.outbox p.key t state lease) := by
  refine outboxMoved_update (by intro _; rfl) fun r hr hsel => ?_
  simp only [Bool.and_eq_true, decide_eq_true_eq] at hsel
  have hrp : r = p := by
    have hl := Table.lookup_of_mem hr
    rw [show Keyed.key r = p.key from hsel.1, hp] at hl
    cases hl; rfl
  rw [hrp]; exact h

/-- The rows a claim takes are the candidates it selected. -/
theorem mem_claim_iff {db : Db} {limit : Nat} {p : Projection} (hp : p ∈ db.outbox.rows) :
    (p.key ∈ ((claimCandidates db).take limit).map (·.key)) ↔ p ∈ (claimCandidates db).take limit := by
  constructor
  · intro h
    obtain ⟨r, hr, hkey⟩ := List.mem_map.1 h
    have hmem : r ∈ db.outbox.rows := by
      obtain ⟨lane, -, hsel⟩ := List.mem_flatMap.1 (List.mem_of_mem_take hr)
      exact (Table.mem_select.1 hsel).1
    have : r = p := Table.eq_of_key_eq hmem hp hkey
    exact this ▸ hr
  · exact fun h => List.mem_map_of_mem h

/-- The repairs of a parity check retry completed lanes and leave the others alone. -/
theorem reconcileProjectionParity_outbox {db db' : Db} {missing : List (String × List Lane)}
    (h : reconcileProjectionParity db missing = .ok db') : ∀ k, db'.outbox.lookup k = db.outbox.lookup k ∨
      ∃ p, db.outbox.lookup k = some p ∧ p.state = .completed ∧
        db'.outbox.lookup k = some (p.released .retryPending) := by
  unfold reconcileProjectionParity at h
  have start : ∀ k, db.outbox.lookup k = db.outbox.lookup k ∨ ∃ p, db.outbox.lookup k = some p ∧
      p.state = .completed ∧ db.outbox.lookup k = some (p.released .retryPending) := fun k => Or.inl rfl
  refine foldOk_invariant (I := fun d => ∀ k, d.outbox.lookup k = db.outbox.lookup k ∨ ∃ p,
    db.outbox.lookup k = some p ∧ p.state = .completed ∧ d.outbox.lookup k = some (p.released .retryPending)) ?_ start h
  intro d i d' hd hi k
  rcases repairMutation_cases hi with rfl | ⟨m, core, -, -, -, -, -, -, hdb⟩
  · exact hd k
  · rw [hdb]
    show (d.outbox.update (repairedLane i.1 i.2) (·.released .retryPending)).lookup k = _ ∨ _
    rw [Table.lookup_update]
    rcases hd k with hk | ⟨p, hp, hc, hk⟩
    · rw [hk]
      cases hp : db.outbox.lookup k with
      | none => exact Or.inl rfl
      | some p =>
        rw [Option.map_some]
        by_cases hrep : repairedLane i.1 i.2 p = true
        · rw [if_pos hrep]
          simp only [repairedLane, Bool.and_eq_true, decide_eq_true_eq] at hrep
          exact Or.inr ⟨p, rfl, hrep.2, rfl⟩
        · rw [if_neg hrep]; exact Or.inl rfl
    · refine Or.inr ⟨p, hp, hc, ?_⟩
      rw [hk, Option.map_some, if_neg]
      simp [repairedLane]

/-- A failure the holder reports is terminal at the retry limit. -/
theorem failProjectionOutbox_outbox {db db' : Db} {key : ProjectionKey} {w t : String} {retryable : Bool}
    (h : failProjectionOutbox db key w t retryable = .ok db') :
    db'.outbox = db.outbox ∨ ∃ p, p.key = key ∧ db.outbox.lookup p.key = some p ∧ p.notHeldBy w t = false ∧
      db'.outbox = settleLane db.outbox p.key t
        (if (!retryable || decide (p.retryLimit ≤ p.attemptCount)) = true then .deadLetter else .retryPending)
        (if (!retryable || decide (p.retryLimit ≤ p.attemptCount)) = true then none
          else some (db.now + retryDelaySeconds p.attemptCount)) := by
  unfold failProjectionOutbox at h
  cases hp : db.outbox.lookup key with
  | none => rw [hp] at h; cases h; exact Or.inl rfl
  | some p =>
    obtain rfl : p.key = key := Table.lookup_key hp
    cases hm : db.core.mutations.lookup p.key.mutationId with
    | none => rw [hp, hm] at h; cases h; exact Or.inl rfl
    | some m =>
      rw [hp, hm] at h
      simp only at h
      split at h
      · cases h; exact Or.inl rfl
      · next hheld =>
        refine Or.inr ⟨p, rfl, hp, by simpa using hheld, ?_⟩
        split at h
        · cases pure_eq_ok.1 h; rfl
        · obtain ⟨⟨core, b⟩, -, h⟩ := bind_eq_ok.1 h
          obtain ⟨⟨runs, rb⟩, -, h⟩ := bind_eq_ok.1 h
          cases pure_eq_ok.1 h; rfl

theorem transact_lanes {env : Env} {db db' : Db} {op : Op} (h : transact env db op = .ok db') :
    OutboxMoved db op db'.outbox := by
  by_cases hw : Part.outbox ∉ op.writes
  · rw [show db'.outbox = db.outbox from transact_frame h hw]
    exact outboxMoved_refl _ _
  cases op with
  | admitMemory q =>
    obtain ⟨core, m, queue, -, -, -, hdb⟩ := admitMemory_cases h
    rw [hdb]; exact outboxMoved_insertLanes db _ _
  | recordMutation m =>
    rw [(recordMutation_cases h).1]; exact outboxMoved_insertLanes db _ _
  | setMutationState a id s =>
    obtain ⟨⟨db₁, b⟩, hc, rfl⟩ := map_eq_ok.1 h
    rcases (setMutationState_cases hc).2 with rfl | ⟨m, core, b', -, -, -, -, ⟨-, hdb⟩ | ⟨-, rb, -, hdb⟩⟩
    · exact outboxMoved_refl _ _
    · rw [hdb]; exact outboxMoved_refl _ _
    · rw [hdb]
      show OutboxMoved db _ (settleLanes db.outbox id s)
      unfold settleLanes
      split
      · refine outboxMoved_update (by intro _; rfl) fun r _ hsel => ?_
        simp only [Bool.and_eq_true, decide_eq_true_eq] at hsel
        rw [← hsel.1]
        exact .released a r hsel.2
      · refine outboxMoved_update (by intro _; rfl) fun r _ hsel => ?_
        simp only [Bool.and_eq_true, decide_eq_true_eq] at hsel
        rw [← hsel.1]
        exact .rejected a r hsel.2
      · exact outboxMoved_refl _ _
  | claimProjectionOutbox w t limit lease =>
    obtain ⟨⟨db₁, claims⟩, hc, rfl⟩ := map_eq_ok.1 h
    obtain ⟨ids, rfl, -, hout, -⟩ := claimProjectionOutbox_cases hc
    show OutboxMoved db _ db₁.outbox
    rw [hout]
    refine outboxMoved_update (by intro _; rfl) fun r hr hsel => ?_
    simp only [Bool.and_eq_true, decide_eq_true_eq] at hsel
    exact .claimed w t limit lease r ((mem_claim_iff hr).1 hsel.1)
  | completeProjectionOutbox k w t o =>
    obtain ⟨⟨db₁, r⟩, hc, rfl⟩ := map_eq_ok.1 h
    rcases completeProjectionOutbox_cases hc with ⟨rfl, -⟩ | ⟨p, m, hp, -, ⟨-, -, hdb⟩ | ⟨hheld, -, -, core, -, hdb⟩⟩
    · exact outboxMoved_refl _ _
    · rw [hdb]
      obtain rfl : p.key = k := Table.lookup_key hp
      show OutboxMoved db _ (cancelFenced db.outbox p _)
      unfold cancelFenced
      split
      · next hf =>
        simp only [Bool.and_eq_true, decide_eq_true_eq] at hf
        refine outboxMoved_update (by intro _; rfl) fun q hq hsel => ?_
        have hqp : q = p := Table.eq_of_key_eq hq (Table.lookup_mem hp) (of_decide_eq_true hsel)
        rw [hqp]
        exact .fenced w t o p hf.2
      · exact outboxMoved_refl _ _
    · rw [hdb]
      obtain rfl : p.key = k := Table.lookup_key hp
      simp only [Bool.or_eq_false_iff] at hheld
      exact outboxMoved_settleLane hp (.completed w t o p hheld.1)
  | failProjectionOutbox k w t r =>
    rcases failProjectionOutbox_outbox h with hout | ⟨p, rfl, hp, hheld, hout⟩
    · rw [hout]; exact outboxMoved_refl _ _
    · rw [hout]
      refine outboxMoved_settleLane hp ?_
      split
      · exact .dead w t r p hheld
      · next hlive =>
        refine .retried w t r p _ hheld ?_
        simp only [Bool.or_eq_true, decide_eq_true_eq, not_or, not_le] at hlive
        exact hlive.2
  | requeueSkippedProjections lane =>
    change requeueSkippedProjections db lane = .ok db' at h
    unfold requeueSkippedProjections at h
    split at h
    · cases h
    · cases h
      refine outboxMoved_update (by intro _; rfl) fun r _ hsel => ?_
      simp only [Bool.and_eq_true, decide_eq_true_eq] at hsel
      rw [← hsel.1]
      exact .requeued r hsel.2
  | recoverInFlight =>
    cases h
    exact outboxMoved_update (by intro _; rfl) fun r _ hsel => .recovered r (by simpa using hsel)
  | publishWithoutGraph =>
    cases h
    refine outboxMoved_update (by intro _; rfl) fun r _ hsel => ?_
    simp only [Bool.and_eq_true, decide_eq_true_eq] at hsel
    exact .unpublished r hsel.2
  | requestPipelineRollback id =>
    obtain ⟨run, -, ⟨-, rfl⟩ | ⟨-, -, runs, moved, restored, cleanup, -, -, -, -, -, hdb⟩⟩ :=
      requestPipelineRollback_cases h
    · exact outboxMoved_refl _ _
    · rw [hdb]; exact outboxMoved_update (by intro _; rfl) fun r _ _ => .withdrawn _ r rfl
  | replayPipelineRun id target =>
    obtain ⟨run, runs, -, -, cr, -, -, -, hdb⟩ := replayPipelineRun_cases h
    rw [hdb]
    refine outboxMoved_update (by intro _; rfl) fun r _ hsel => ?_
    simp only [Bool.and_eq_true, decide_eq_true_eq] at hsel
    exact .revived _ r rfl (Or.inl hsel.2)
  | reconcileProjectionParity ms =>
    refine ⟨fun k p hp => ?_, fun k p' hnone hsome => ?_⟩
    · rcases reconcileProjectionParity_outbox h k with hk | ⟨q, hq, hc, hk⟩
      · exact ⟨p, by rw [hk, hp], .kept _ p⟩
      · rw [hp] at hq; cases hq
        exact ⟨_, hk, .revived _ p rfl (Or.inr hc)⟩
    · rcases reconcileProjectionParity_outbox h k with hk | ⟨q, hq, -, -⟩
      · rw [hk, hnone] at hsome; cases hsome
      · rw [hnone] at hq; cases hq
  | purgeDocument t d i =>
    obtain ⟨core, purged, -, hdb⟩ := purgeDocument_cases h
    rw [hdb]; exact outboxMoved_update (by intro _; rfl) fun r _ _ => .withdrawn _ r rfl
  | purgeMemory a s =>
    obtain ⟨core, purged, -, hdb⟩ := purgeMemory_cases h
    rw [hdb]; exact outboxMoved_update (by intro _; rfl) fun r _ _ => .withdrawn _ r rfl
  | _ => exact absurd (by simp [Op.writes]) hw

/-- The step rule for lanes. -/
theorem exec_lanes (env : Env) (db : Db) (op : Op) : OutboxMoved db op (exec env db op).outbox := by
  unfold exec
  cases h : transact env db op with
  | error e => exact outboxMoved_refl _ _
  | ok db' => exact transact_lanes h

end Mesa.Ledger
