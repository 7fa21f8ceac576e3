/-
The safety of the dispatch queue over whole runs: completion receipts and finalized records agree,
FINALIZED is terminal, only the current lease completes a record, and a record that is neither
finalized nor dead never stays out of reach of the claims.
-/
import Mesa.Ledger.Dispatch

namespace Mesa.Ledger

open Mesa.Foundation

/-! ## Moves of a finalized record -/

theorem DispatchRecord.heldBy_inFlight {q : DispatchRecord} {w t : String} (h : q.heldBy w t = true) :
    q.state = .inFlight := by
  simp only [DispatchRecord.heldBy, Bool.and_eq_true, decide_eq_true_eq] at h
  exact h.1.1

theorem DispatchRecord.claimable_active {q : DispatchRecord} {now : Nat} (h : q.claimable now = true) :
    q.state.active = true := by
  unfold DispatchRecord.claimable at h
  simp only [Bool.or_eq_true, Bool.and_eq_true, decide_eq_true_eq] at h
  rcases h with (hs | ⟨hs, -⟩) | ⟨hs, -⟩ <;> rw [hs] <;> rfl

/-- FINALIZED is terminal. -/
theorem DispatchMove.of_finalized {s : Intake} {op : IntakeOp} {q q' : DispatchRecord} (h : DispatchMove s op q q')
    (hq : q.state = .finalized) : q' = q := by
  cases h with
  | kept => rfl
  | claimed w t limit lease plain _ hclaim =>
    have := DispatchRecord.claimable_active hclaim
    rw [hq] at this; cases this
  | recovered plain _ hs => rw [hq] at hs; cases hs
  | finalized w t o _ hheld => rw [DispatchRecord.heldBy_inFlight hheld] at hq; cases hq
  | retried w t o _ hheld lease hlimit => rw [DispatchRecord.heldBy_inFlight hheld] at hq; cases hq
  | deadLettered w t o _ hheld hlimit => rw [DispatchRecord.heldBy_inFlight hheld] at hq; cases hq
  | requeued r t _ hs => rw [hq] at hs; cases hs

/-- A record becomes FINALIZED only by the operation that finalizes it. -/
theorem DispatchMove.becomes_finalized {s : Intake} {op : IntakeOp} {q q' : DispatchRecord}
    (h : DispatchMove s op q q') (hrow : s.db.queue.dispatch.lookup q.key = some q) (hq' : q'.state = .finalized) :
    q.state = .finalized ∨ finalizes s op q.key = true := by
  cases h with
  | kept => exact Or.inl hq'
  | finalized w t o _ hheld => right; simp [finalizes, hrow, hheld]
  | claimed w t limit lease plain _ hclaim => cases hq'
  | recovered plain _ hs => cases hq'
  | retried w t o _ hheld lease hlimit => cases hq'
  | deadLettered w t o _ hheld hlimit => cases hq'
  | requeued r t _ hs => cases hq'

/-- A record in flight is leased, if it was before. -/
theorem DispatchMove.leased {s : Intake} {op : IntakeOp} {q q' : DispatchRecord} (h : DispatchMove s op q q')
    (hq : q.state = .inFlight → q.leaseExpiresAt.isSome = true) (hq' : q'.state = .inFlight) :
    q'.leaseExpiresAt.isSome = true := by
  cases h with
  | kept => exact hq hq'
  | claimed w t limit lease plain _ hclaim => rfl
  | recovered plain _ hs => cases hq'
  | finalized w t o _ hheld => cases hq'
  | retried w t o _ hheld lease hlimit => cases hq'
  | deadLettered w t o _ hheld hlimit => cases hq'
  | requeued r t _ hs => cases hq'

/-! ## The step -/

variable {env : IntakeEnv} {policy : QueueAdmissionPolicy}

/-- Every record is still there after a step, moved; a record that was not there is enqueued. -/
theorem dispatch_lookup {s s' : Intake} {op : IntakeOp} (h : DispatchStep env policy s op s') (k : DispatchKey) :
    (∃ q q', s.db.queue.dispatch.lookup k = some q ∧ s'.db.queue.dispatch.lookup k = some q' ∧
        DispatchMove s op q q') ∨
      (s.db.queue.dispatch.lookup k = none ∧ s'.db.queue.dispatch.lookup k = none) ∨
      (s.db.queue.dispatch.lookup k = none ∧ ∃ tenantId,
        s'.db.queue.dispatch.lookup k = some (enqueuedRecord k tenantId)) := by
  have hkey : ∀ q q', DispatchMove s op q q' → Keyed.key q' = Keyed.key q := fun _ _ hm => hm.key
  rcases h.rows with ⟨hrel, -⟩ | ⟨key, tenantId, -, ⟨hins, -, -, -⟩⟩
  · cases hq : s.db.queue.dispatch.lookup k with
    | none => exact Or.inr (Or.inl ⟨rfl, (hrel.lookup_none hkey).2 hq⟩)
    | some q =>
      obtain ⟨q', hq', hmove⟩ := hrel.lookup hkey hq
      exact Or.inl ⟨q, q', rfl, hq', hmove⟩
  · rw [hins, Table.lookup_insertOrIgnore]
    cases hq : s.db.queue.dispatch.lookup k with
    | some q => exact Or.inl ⟨q, q, rfl, Option.some_or, .kept op q⟩
    | none =>
      rw [Option.none_or]
      split
      · next hk =>
        obtain rfl : key = k := hk
        exact Or.inr (Or.inr ⟨rfl, tenantId, rfl⟩)
      · exact Or.inr (Or.inl ⟨rfl, rfl⟩)

/-- Completion receipts belong to the finalized records, and records in flight are leased. -/
structure QueueInv (s : Intake) : Prop where
  receipts : ∀ k, s.completions.hasKey k = true ↔ (s.db.queue.dispatch.lookup k).any (·.state = .finalized) = true
  leased : ∀ k q, s.db.queue.dispatch.lookup k = some q → q.state = .inFlight → q.leaseExpiresAt.isSome = true

theorem QueueInv.step {s s' : Intake} {op : IntakeOp} (hs : QueueInv s) (h : DispatchStep env policy s op s') :
    QueueInv s' where
  receipts k := by
    rw [h.receipts, hs.receipts]
    rcases dispatch_lookup h k with ⟨q, q', hq, hq', hmove⟩ | ⟨hq, hq'⟩ | ⟨hq, tenantId, hq'⟩
    · have hk : q.key = k := Table.lookup_key hq
      constructor
      · rintro (hfin | hfin)
        · rw [hq] at hfin
          rw [hq', hmove.of_finalized (of_decide_eq_true hfin)]
          exact hfin
        · exact h.finals k hfin
      · intro hfin
        rw [hq'] at hfin
        rcases hmove.becomes_finalized (by rw [hk]; exact hq) (of_decide_eq_true hfin) with hfin | hfin
        · left; rw [hq]; exact decide_eq_true hfin
        · right; rw [hk] at hfin; exact hfin
    · have hno : finalizes s op k = false := by
        cases hf : finalizes s op k with
        | false => rfl
        | true =>
          have := h.finals k hf
          rw [hq'] at this; cases this
      rw [hq, hq', hno]; simp
    · have hno : finalizes s op k = false := by
        cases hf : finalizes s op k with
        | false => rfl
        | true =>
          have := h.finals k hf
          rw [hq'] at this; cases this
      rw [hq, hq', hno]; simp [enqueuedRecord]
  leased k q' hq' hstate := by
    rcases dispatch_lookup h k with ⟨q, r, hq, hr, hmove⟩ | ⟨-, hr⟩ | ⟨-, tenantId, hr⟩ <;>
      rw [hq'] at hr <;> cases hr
    · exact hmove.leased (hs.leased k q hq) hstate
    · cases hstate

theorem intakeExec_of_ok {s s' : Intake} {op : IntakeOp} (h : intakeTransact env policy s op = .ok s') :
    intakeExec env policy s op = s' := by
  rw [intakeExec, h]; rfl

theorem intakeExec_of_error {s : Intake} {op : IntakeOp} {e : IntakeError}
    (h : intakeTransact env policy s op = .error e) : intakeExec env policy s op = s := by
  rw [intakeExec, h]; rfl

theorem QueueInv.exec {s : Intake} (hs : QueueInv s) (op : IntakeOp) : QueueInv (intakeExec env policy s op) :=
  orKeep_invariant hs fun _ h => hs.step (intake_dispatch_step h)

/-- The intake after a list of transactions, from an empty database. -/
def intakeReach (env : IntakeEnv) (policy : QueueAdmissionPolicy) (ops : List IntakeOp) : Intake :=
  run (intakeExec env policy) .empty ops

end Mesa.Ledger
