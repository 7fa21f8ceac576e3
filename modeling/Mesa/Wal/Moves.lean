/-
What one call does to the entries of the write-ahead ledger. An entry is never deleted, and every
change of one is a move below, each made by its own call.
-/
import Mesa.Wal.Repository

namespace Mesa.Wal

open Mesa.Foundation

variable {s s' : Store}

/-- What one call can do to an entry. -/
inductive WalMove (s : Store) : Call → WalEntry → WalEntry → Prop
  | kept (c : Call) (e : WalEntry) : WalMove s c e e
  | claimed (w t : String) (limit lease : Nat) (e : WalEntry) (hbounds : claimBounds w limit lease = true)
    (hid : e.id ∈ s.candidates limit) (hclaim : e.claimable s.now = true) :
    WalMove s (.claim w t limit lease) e (e.claim w t (s.now + lease))
  | projected (w t text : String) (p : Projection) (e : WalEntry) (hheld : e.heldBy w t = true) :
    WalMove s (.record e.id w t text) e (e.project p)
  | retried (w t error : String) (e : WalEntry) (hheld : e.heldBy w t = true) (state : WalState)
    (hstate : state = .blocked ∨ state = .retryPending) (lastError : Option String) :
    WalMove s (.retry e.id w t error) e { e.release state with lastError }
  | reconciled (i : Nat) (o : Observation) (r : Reading) (e : WalEntry) (hreading : s.readings[i]? = some r)
    (hid : e.id = r.walId) (hheld : e.heldBy r.workerId r.claimToken = true) :
    WalMove s (.report i o) e (e.reconcile r.entry (r.verdict o))
  | acked (w t : String) (e : WalEntry) (haligned : e.alignedBy w t = true) :
    WalMove s (.ack e.id w t) e (e.release .acked)
  | recovered (e : WalEntry) (hstate : e.state = .claimed) : WalMove s .recover e (e.release .retryPending)

/-- The entry is as it is queued. -/
def WalEntry.new (e : WalEntry) : Prop :=
  ∃ id agentId nodeId graphAttached, e = queued id agentId (nodeMetadata nodeId agentId graphAttached)

/-- Every entry makes a move, and the entries that are added are new. -/
def WalStep (s : Store) (c : Call) (s' : Store) : Prop :=
  ∃ moved added, List.Forall₂ (WalMove s c) s.wal.rows moved ∧ s'.wal.rows = moved ++ added ∧ ∀ e ∈ added, e.new

theorem WalMove.id {c : Call} {e e' : WalEntry} (h : WalMove s c e e') : e'.id = e.id := by
  cases h with
  | projected w t text p => exact e.project_id p
  | reconciled i o r => exact e.reconcile_id _ _
  | _ => rfl

theorem walStep_of_rel {c : Call} (h : s.wal.Rel (WalMove s c) s'.wal) : WalStep s c s' :=
  ⟨s'.wal.rows, [], h, by simp, by simp⟩

theorem walStep_of_same {c : Call} (h : s'.wal = s.wal) : WalStep s c s' :=
  walStep_of_rel (by rw [h]; exact Table.Rel.refl (.kept c) _)

/-- A fenced statement moves the entry that the caller holds. -/
theorem fenced_rel {c : Call} {id w t : String} {f : WalEntry → WalEntry} (hf : ∀ e, (f e).id = e.id)
    (hmove : ∀ e, e.id = id → e.heldBy w t = true → WalMove s c e (f e)) :
    s.wal.Rel (WalMove s c) (s.fenced id w t f hf).wal := by
  refine Table.Rel.of_update rfl (.kept c) fun e _ he => ?_
  rw [Bool.and_eq_true, decide_eq_true_eq] at he
  exact hmove e he.1 he.2

/-! ## Every call -/

theorem queue_rows {id a n : String} {g : Bool} (hok : s.queue id a n g = .ok s') :
    s'.wal.rows = s.wal.rows ++ [queued id a (nodeMetadata n a g)] := by
  unfold Store.queue at hok
  split at hok
  · cases hok
  · next hfree =>
    cases hok
    exact Table.rows_insertOrIgnore_fresh (Table.hasKey_eq_false.1 (eq_false_of_ne_true hfree))

theorem queue_step {rows : List QueueRow} (hok : transact s (.queue rows) = .ok s') : WalStep s (.queue rows) s' := by
  have hinv : ∃ added, s'.wal.rows = s.wal.rows ++ added ∧ ∀ e ∈ added, e.new := by
    refine foldOk_invariant (I := fun u : Store => ∃ added, u.wal.rows = s.wal.rows ++ added ∧ ∀ e ∈ added, e.new)
      ?_ ⟨[], by simp, by simp⟩ hok
    rintro u r u' ⟨added, hu, hnew⟩ hok
    refine ⟨added ++ [_], by rw [queue_rows hok, hu, List.append_assoc], ?_⟩
    intro e he
    rcases List.mem_append.1 he with he | he
    · exact hnew e he
    · exact ⟨_, _, _, _, List.mem_singleton.1 he⟩
  obtain ⟨added, hrows, hnew⟩ := hinv
  exact ⟨s.wal.rows, added, Table.Rel.refl (.kept _) _, hrows, hnew⟩

theorem claim_step {w t : String} {limit lease : Nat} (hok : transact s (.claim w t limit lease) = .ok s') :
    WalStep s (.claim w t limit lease) s' := by
  obtain ⟨r, hr, rfl⟩ := map_eq_ok.1 hok
  unfold Store.claim at hr
  split at hr
  · next hbounds =>
    cases hr
    refine walStep_of_rel (Table.Rel.of_update rfl (.kept _) fun e _ he => ?_)
    rw [Bool.and_eq_true, decide_eq_true_eq] at he
    exact .claimed w t limit lease e hbounds he.1 he.2
  · cases hr

theorem record_step {id w t p : String} (hok : transact s (.record id w t p) = .ok s') :
    WalStep s (.record id w t p) s' := by
  have hok : s.record id w t p = .ok s' := hok
  unfold Store.record at hok
  split at hok
  · cases hok
  · next q hq =>
    cases hok
    refine walStep_of_rel (fenced_rel (fun e => e.project_id q) fun e hid hheld => ?_)
    rw [← hid]; exact .projected w t p q e hheld

theorem retry_step {id w t error : String} : WalStep s (.retry id w t error) (s.retry id w t error) := by
  unfold Store.retry
  refine walStep_of_rel (fenced_rel _ fun e hid hheld => ?_)
  rw [← hid]
  refine .retried w t error e hheld _ ?_ _
  by_cases hlimit : e.retryLimit ≤ e.attemptCount
  · left; rw [if_pos hlimit]
  · right; rw [if_neg hlimit]

theorem observe_step {id w t : String} (hok : transact s (.observe id w t) = .ok s') :
    WalStep s (.observe id w t) s' := by
  have hok : s.observe id w t = .ok s' := hok
  unfold Store.observe at hok
  split at hok
  · cases hok
  · split at hok
    · cases hok
    · cases hok; exact walStep_of_same rfl

theorem report_step {i : Nat} {o : Observation} (hok : transact s (.report i o) = .ok s') :
    WalStep s (.report i o) s' := by
  simp only [transact] at hok
  split at hok
  · cases hok; exact walStep_of_same rfl
  · next r hr =>
    cases hok
    exact walStep_of_rel (fenced_rel (fun e => e.reconcile_id _ _) fun e hid hheld => .reconciled i o r e hr hid hheld)

theorem ack_step {id w t : String} : WalStep s (.ack id w t) (s.ack id w t) := by
  refine walStep_of_rel (Table.Rel.of_update rfl (.kept _) fun e _ he => ?_)
  rw [Bool.and_eq_true, decide_eq_true_eq] at he
  rw [← he.1]; exact .acked w t e he.2

theorem recover_step : WalStep s .recover s.recover := by
  refine walStep_of_rel (Table.Rel.of_update rfl (.kept _) fun e _ he => ?_)
  rw [Bool.and_eq_true, decide_eq_true_eq] at he
  exact .recovered e he.1

theorem transact_step {c : Call} (hok : transact s c = .ok s') : WalStep s c s' := by
  cases c with
  | queue rows => exact queue_step hok
  | claim w t limit lease => exact claim_step hok
  | record id w t p => exact record_step hok
  | retry id w t error => cases hok; exact retry_step
  | observe id w t => exact observe_step hok
  | report i o => exact report_step hok
  | ack id w t => cases hok; exact ack_step
  | recover => cases hok; exact recover_step
  | crash w => cases hok; exact walStep_of_same rfl
  | clock t => cases hok; exact walStep_of_same rfl

/-- Every call makes a step, also one that raises. -/
theorem exec_step (s : Store) (c : Call) : WalStep s c (exec s c) :=
  orKeep_invariant (P := WalStep s c) (walStep_of_same rfl) fun _ hok => transact_step hok

/-- Where an entry comes from. -/
theorem WalStep.origin {c : Call} (h : WalStep s c s') {e' : WalEntry} (he : e' ∈ s'.wal.rows) :
    e'.new ∨ ∃ e ∈ s.wal.rows, WalMove s c e e' := by
  obtain ⟨moved, added, hmoved, hrows, hnew⟩ := h
  rw [hrows, List.mem_append] at he
  rcases he with he | he
  · obtain ⟨i, hi, rfl⟩ := List.getElem_of_mem he
    have hi' : i < s.wal.rows.length := by rw [hmoved.length_eq]; exact hi
    exact Or.inr ⟨s.wal.rows[i], List.getElem_mem hi', List.Forall₂.get hmoved hi' hi⟩
  · exact Or.inl (hnew e' he)

/-- Only the clock moves the time. -/
theorem exec_now (s : Store) (c : Call) : (exec s c).now = match c with | .clock t => t | _ => s.now := by
  cases c with
  | clock t => rfl
  | queue rows =>
    refine orKeep_invariant (P := fun u : Store => u.now = s.now) rfl fun u hok => ?_
    refine foldOk_invariant (I := fun u : Store => u.now = s.now) (fun u r u' hu hok => ?_) rfl hok
    unfold Store.queue at hok
    split at hok
    · cases hok
    · cases hok; exact hu
  | claim w t limit lease =>
    refine orKeep_invariant (P := fun u : Store => u.now = s.now) rfl fun u hok => ?_
    obtain ⟨r, hr, rfl⟩ := map_eq_ok.1 hok
    unfold Store.claim at hr
    split at hr <;> cases hr
    rfl
  | record id w t p =>
    refine orKeep_invariant (P := fun u : Store => u.now = s.now) rfl fun u hok => ?_
    have hok : s.record id w t p = .ok u := hok
    unfold Store.record at hok
    split at hok <;> cases hok
    rfl
  | observe id w t =>
    refine orKeep_invariant (P := fun u : Store => u.now = s.now) rfl fun u hok => ?_
    have hok : s.observe id w t = .ok u := hok
    unfold Store.observe at hok
    split at hok
    · cases hok
    · split at hok <;> cases hok
      rfl
  | report i o =>
    refine orKeep_invariant (P := fun u : Store => u.now = s.now) rfl fun u hok => ?_
    simp only [transact] at hok
    split at hok <;> cases hok <;> rfl
  | retry id w t error => rfl
  | ack id w t => rfl
  | recover => rfl
  | crash w => rfl

/-! ## Replay -/

/-- The ledger after a part of a replay is the ledger after some calls. -/
def IsRun (s : Store) (r : Except WalError Bool × Store) : Prop := ∃ calls, r.2 = run exec s calls

theorem isRun_one {c : Call} {r : Except WalError Bool} (h : exec s c = s') : IsRun s (r, s') :=
  ⟨[c], h.symm⟩

theorem isRun_none {r : Except WalError Bool} : IsRun s (r, s) := ⟨[], rfl⟩

theorem IsRun.andThen {r : Except WalError Bool × Store} {rest : Store → Except WalError Bool × Store}
    (h : IsRun s r) (hrest : ∀ u, IsRun u (rest u)) : IsRun s (andThen r rest) := by
  obtain ⟨calls, hcalls⟩ := h
  obtain ⟨later, hlater⟩ := hrest r.2
  unfold Wal.andThen
  split
  · exact ⟨calls ++ later, by rw [run_append, ← hcalls, ← hlater]⟩
  · exact ⟨calls, hcalls⟩

theorem recorded_isRun {id w t p : String} : IsRun s (recorded s id w t p) := by
  unfold recorded
  split
  · next s' hok => exact isRun_one (c := .record id w t p) (by simp [exec, transact, hok])
  · exact isRun_none

theorem applyVector_isRun {e : WalEntry} {w t : String} {a : StoreAnswers} : IsRun s (applyVector s e w t a) := by
  unfold applyVector
  split
  · exact isRun_none
  · split
    · next error _ => exact isRun_one (c := .retry e.id w t error) rfl
    · exact recorded_isRun

theorem applyGraph_isRun {e : WalEntry} {m : Metadata} {w t : String} {a : StoreAnswers} :
    IsRun s (applyGraph s e m w t a) := by
  unfold applyGraph
  split
  · split
    · exact isRun_none
    · split
      · exact isRun_one (c := .retry e.id w t "GraphProviderUnavailable") rfl
      · split
        · next error _ => exact isRun_one (c := .retry e.id w t error) rfl
        · exact recorded_isRun
  · split
    · exact isRun_none
    · exact recorded_isRun

/-- Reading the entry and writing the verdict at once. -/
theorem reconcile_isRun {id w t : String} {o : Observation} : IsRun s (reconcile s id w t o) := by
  unfold reconcile
  split
  · exact isRun_none
  · next e he =>
    split
    · exact isRun_none
    · next m hm =>
      refine ⟨[.observe id w t, .report s.readings.length o], ?_⟩
      have hobserve : exec s (.observe id w t) = { s with readings := s.readings ++ [⟨id, w, t, e, m⟩] } := by
        simp [exec, transact, Store.observe, he, hm]
      rw [run_cons, hobserve, run_cons, run_nil]
      simp [exec, transact, Store.report, Store.fenced, List.eraseIdx_append_of_length_le]

/-- A replay is a run of the ledger, so what holds along every run holds at every crash in a replay. -/
theorem replayClaimed_isRun {e : WalEntry} {w t : String} {a : StoreAnswers} : IsRun s (replayClaimed s e w t a) := by
  unfold replayClaimed
  split
  · exact isRun_none
  · exact applyVector_isRun.andThen fun _ => applyGraph_isRun.andThen fun _ => reconcile_isRun.andThen fun _ =>
      isRun_one (c := .ack e.id w t) rfl

end Mesa.Wal
