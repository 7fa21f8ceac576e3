/-
The attempt budget of a system operation. Every claim counts an attempt; a failure and an operator
retry compare the count with the retry limit, a claim of an expired lease does not. So a runner
that crashes again and again is the one way past the limit.
-/
import Mesa.Operations.Invariants

namespace Mesa.Operations

open Mesa.Foundation

variable {sha256 : String → String}

/-- The call claims the operation. -/
def claimed (sha256 : String → String) (s : Store) (id : String) (c : Call) : Bool :=
  c.claims = some id && (transact sha256 s c).toOption.isSome

/-- How often a run claims the operation. -/
def claimCount (sha256 : String → String) (id : String) : Store → List Call → Nat
  | _, [] => 0
  | s, c :: calls => (if claimed sha256 s id c then 1 else 0) + claimCount sha256 id (exec sha256 s c) calls

/-- The call takes over the operation from a runner whose lease has run out. -/
def Store.takesOver (s : Store) (id : String) : Call → Option Operation
  | .claim id' r n _ readAt _ =>
    if id' = id ∧ (bounded id' "operation id").isOk ∧ (bounded r "runner id").isOk ∧ 1 ≤ n ∧ n ≤ 3600 then
      (s.operations.lookup id).filter fun x => x.state.activeExecution && !x.leaseValid readAt
    else none
  | _ => none

/-- No call takes over the operation when its attempts are used up. -/
def SparesExhausted (id : String) (s : Store) (c : Call) : Prop :=
  ∀ x, s.takesOver id c = some x → x.attemptCount < x.retryLimit

/-! ## Counting -/

theorem Move.attempts {c : Call} {x x' : Operation} (h : Move c x x') :
    x'.attemptCount = x.attemptCount + (if c.claims = some x.operationId then 1 else 0) ∧
      x'.retryLimit = x.retryLimit := by
  cases h <;> simp [Call.claims]

/-- The attempts of an operation are its claims. -/
theorem exec_attempts (sha256 : String → String) {s : Store} {id : String} {x : Operation}
    (hx : s.operations.lookup id = some x) (c : Call) :
    ∃ x', (exec sha256 s c).operations.lookup id = some x' ∧ x'.retryLimit = x.retryLimit ∧
      x'.attemptCount = x.attemptCount + (if claimed sha256 s id c then 1 else 0) := by
  have hid : x.operationId = id := Table.lookup_key hx
  unfold exec claimed
  cases h : transact sha256 s c with
  | error e => exact ⟨x, hx, rfl, by simp [Except.toOption]⟩
  | ok s' =>
    have hstep := transact_step h
    simp only [Except.toOption, Option.isSome_some, Bool.and_true, decide_eq_true_eq, orKeep_ok]
    by_cases hc : c.claims = some id
    · obtain ⟨y, x', hy, hx', hmove, -⟩ := hstep.claims hc
      rw [hx] at hy
      cases hy
      have hattempts := hmove.attempts
      rw [hid] at hattempts
      exact ⟨x', hx', hattempts.2, hattempts.1⟩
    · rw [if_neg hc]
      rcases hstep.lookup hx with hk | ⟨x', hx', hmove⟩
      · exact ⟨x, hk, rfl, rfl⟩
      · have hattempts := hmove.attempts
        rw [hid, if_neg hc] at hattempts
        exact ⟨x', hx', hattempts.2, hattempts.1⟩

theorem OperationState.pending_not_allowed (s : OperationState) : .pending ∉ s.allowed := by
  cases s <;> decide

/-- A pending operation has an attempt left. -/
theorem Move.pending {c : Call} {x x' : Operation} (h : Move c x x') (hpending : x'.state = .pending) :
    x'.attemptCount < x'.retryLimit := by
  cases h with
  | claimed r t l a b _ h => cases hpending
  | reclaimed r t l a b _ h hlease =>
    have hpending : x.state = .pending := hpending
    rw [hpending] at h; cases h
  | renewed r t f l a b _ h =>
    have hpending : x.state = .pending := hpending
    rw [hpending] at h; cases h
  | transitioned q a b _ v c t hid hclaim hread hwrite hcheck =>
    have hallowed := (checkTransition_ok hcheck).1
    rw [show v.target = .pending from hpending] at hallowed
    exact absurd hallowed (OperationState.pending_not_allowed x.state)
  | cancelled _ h => cases hpending
  | retried _ h hbudget => exact hbudget

/-- An operation that a step adds has been submitted by it. -/
theorem StoreStep.added {s s' : Store} {c : Call} (h : StoreStep s c s') {k : String} {x : Operation}
    (hk : s.operations.lookup k = none) (hx : s'.operations.lookup k = some x) :
    x.attemptCount = 0 ∧ x.retryLimit = 3 := by
  have hput : ∀ y', (s.put y').operations.lookup k ≠ some x := by
    intro y' hy'
    rw [lookup_put, hk] at hy'; cases hy'
  cases h with
  | same => rw [hk] at hx; cases hx
  | registered g =>
    have hx : s.operations.lookup k = some x := hx
    rw [hk] at hx; cases hx
  | submitted p q h id y hid hstate hprogress hattempts hfree hidle =>
    have hx : (s.operations.insertOrIgnore y).lookup k = some x := hx
    rw [Table.lookup_insertOrIgnore, hk, Option.none_or] at hx
    split at hx
    · cases hx; exact hattempts
    · cases hx
  | moved _ y y' hy hmove => exact absurd hx (hput y')
  | quiet _ y y' hy hmove => exact absurd hx (hput y')

/-- The operation has been claimed `n` times, and may be claimed again while it is pending. -/
structure Counted (id : String) (n : Nat) (s : Store) : Prop where
  absent : s.operations.lookup id = none → n = 0
  count : ∀ x, s.operations.lookup id = some x → x.attemptCount = n
  pending : ∀ x, s.operations.lookup id = some x → x.state = .pending → x.attemptCount < x.retryLimit

theorem claimed_exists {s : Store} {id : String} {c : Call} (h : claimed sha256 s id c = true) :
    ∃ x, s.operations.lookup id = some x := by
  unfold claimed at h
  rw [Bool.and_eq_true, decide_eq_true_eq] at h
  obtain ⟨s', hs'⟩ := Option.isSome_iff_exists.1 h.2
  cases hok : transact sha256 s c with
  | error e => rw [hok] at hs'; cases hs'
  | ok t =>
    obtain ⟨x, -, hx, -⟩ := (transact_step hok).claims h.1
    exact ⟨x, hx⟩

theorem Counted.exec (sha256 : String → String) {id : String} {n : Nat} {s : Store} (h : Counted id n s) (c : Call) :
    Counted id (n + if claimed sha256 s id c then 1 else 0) (exec sha256 s c) := by
  cases hid : s.operations.lookup id with
  | some x =>
    obtain ⟨x', hx', -, hattempts⟩ := exec_attempts sha256 hid c
    refine ⟨fun hnone => ?_, fun y hy => ?_, fun y hy hpending => ?_⟩
    · rw [hnone] at hx'; cases hx'
    · rw [hx'] at hy
      cases hy
      rw [hattempts, h.count x hid]
    · revert hy
      refine orKeep_invariant (P := fun s' : Store => s'.operations.lookup id = some y →
        y.attemptCount < y.retryLimit) (fun hy => h.pending y hy hpending) fun s' hok hy => ?_
      rcases (transact_step hok).lookup hid with hk | ⟨z, hz, hmove⟩
      · rw [hk] at hy
        cases hy
        exact h.pending x hid hpending
      · rw [hz] at hy
        cases hy
        exact hmove.pending hpending
  | none =>
    have hno : claimed sha256 s id c = false := by
      by_contra hclaimed
      obtain ⟨x, hx⟩ := claimed_exists (eq_true_of_ne_false hclaimed)
      rw [hid] at hx; cases hx
    have hadded : ∀ y, (Operations.exec sha256 s c).operations.lookup id = some y →
        y.attemptCount = 0 ∧ y.retryLimit = 3 := by
      intro y
      refine orKeep_invariant (P := fun s' : Store => s'.operations.lookup id = some y → _) (fun hy => ?_)
        fun s' hok hy => (transact_step hok).added hid hy
      rw [hid] at hy; cases hy
    rw [hno, if_neg Bool.false_ne_true, Nat.add_zero]
    refine ⟨fun _ => h.absent hid, fun y hy => ?_, fun y hy _ => ?_⟩
    · rw [(hadded y hy).1, h.absent hid]
    · rw [(hadded y hy).1, (hadded y hy).2]; decide

/-! ## What goes past the limit -/

theorem bounded_isOk {value label : String} (h : (bounded value label).isOk = true) :
    bounded value label = .ok value := by
  unfold bounded at *
  split at h
  · cases h
  · next hv => rw [if_neg hv]

/-- A call that takes an operation over claims it. -/
theorem claimed_of_takesOver (sha256 : String → String) {s : Store} {id : String} {c : Call} {x : Operation}
    (h : s.takesOver id c = some x) :
    s.operations.lookup id = some x ∧ claimed sha256 s id c = true := by
  cases c with
  | claim id' r n t a b =>
    simp only [Store.takesOver] at h
    split at h
    · next hargs =>
      obtain ⟨rfl, hid, hr, hlow, hhigh⟩ := hargs
      obtain ⟨hx, hlease⟩ := Option.filter_eq_some_iff.1 h
      refine ⟨hx, ?_⟩
      have hactive := (Bool.and_eq_true_iff.1 hlease).1
      have hpending : x.state ≠ .pending := by
        intro hp
        rw [hp] at hactive; cases hactive
      have htarget : x.claimTarget a = .ok (x.state, "RECLAIMED") := by
        unfold Operation.claimTarget
        rw [if_neg hpending, if_pos hlease]
      have hok : (Operations.claim s id' r n t a b).toOption.isSome = true := by
        simp [Operations.claim, bounded_isOk hid, bounded_isOk hr, row_eq_ok.2 hx, htarget, hlow, hhigh, bind,
          Except.bind, pure, Except.pure, Except.toOption]
      unfold claimed
      rw [show (transact sha256 s (.claim id' r n t a b)).toOption.isSome = true from hok]
      simp [Call.claims]
    · cases h
  | _ => cases h

/-- A claim takes a pending operation, or takes one over. -/
theorem takesOver_of_claimed {s : Store} {id : String} {c : Call} {x : Operation}
    (hx : s.operations.lookup id = some x) (h : claimed sha256 s id c = true) :
    x.state = .pending ∨ s.takesOver id c = some x := by
  unfold claimed at h
  rw [Bool.and_eq_true, decide_eq_true_eq] at h
  cases c with
  | claim id' r n t a b =>
    obtain rfl : id' = id := Option.some.inj h.1
    obtain ⟨s', hs'⟩ := Option.isSome_iff_exists.1 h.2
    cases hok : Operations.claim s id' r n t a b with
    | error e =>
      rw [show transact sha256 s (.claim id' r n t a b) = .error e from hok] at hs'
      cases hs'
    | ok s₁ =>
      obtain ⟨_, hid, hok⟩ := bind_eq_ok.1 hok
      obtain ⟨_, hr, hok⟩ := bind_eq_ok.1 hok
      split at hok
      · cases hok
      · next hlease =>
        have hlease := not_not.1 hlease
        obtain ⟨y, hy, hok⟩ := bind_eq_ok.1 hok
        obtain rfl := bounded_eq_ok hid
        have hy := row_eq_ok.1 hy
        rw [hx] at hy
        cases hy
        obtain ⟨_, htarget, -⟩ := bind_eq_ok.1 hok
        unfold Operation.claimTarget at htarget
        split at htarget
        · next hpending => exact Or.inl hpending
        · split at htarget
          · next hexpired =>
            right
            have hbounded : (bounded id' "operation id").isOk = true := by rw [hid]; rfl
            have hrunner : (bounded r "runner id").isOk = true := by rw [hr]; rfl
            simp only [Store.takesOver]
            rw [if_pos (by exact ⟨trivial, hbounded, hrunner, hlease⟩)]
            exact Option.filter_eq_some_iff.2 ⟨hx, hexpired⟩
          · cases htarget
  | _ => cases h.1

/-- After a step that spares an exhausted operation, the claims so far are within the limit. -/
theorem Counted.within {id : String} {n : Nat} {s : Store} (h : Counted id n s) {x : Operation}
    (hx : s.operations.lookup id = some x) (hn : n ≤ x.retryLimit) {c : Call} (hspares : SparesExhausted id s c) :
    n + (if claimed sha256 s id c then 1 else 0) ≤ x.retryLimit := by
  by_cases hclaimed : claimed sha256 s id c = true
  · rw [if_pos hclaimed, ← h.count x hx]
    rcases takesOver_of_claimed hx hclaimed with hpending | hover
    · exact h.pending x hx hpending
    · exact hspares x hover
  · rw [if_neg hclaimed]
    exact hn

theorem run_retryLimit (sha256 : String → String) {id : String} {x : Operation} : ∀ (calls : List Call) {s : Store},
    s.operations.lookup id = some x → ∃ y, (run (exec sha256) s calls).operations.lookup id = some y ∧
      y.retryLimit = x.retryLimit := by
  intro calls s hx
  refine stable_run (I := fun t : Store => ∃ y, t.operations.lookup id = some y ∧ y.retryLimit = x.retryLimit)
    (fun t c ht => ?_) ⟨x, hx, rfl⟩
  obtain ⟨y, hy, hlimit⟩ := ht
  obtain ⟨z, hz, hsame, -⟩ := exec_attempts sha256 hy c
  exact ⟨z, hz, hsame.trans hlimit⟩

/-- From a state within the limit on, a run stays within it exactly when its steps spare the
exhausted operation. -/
theorem claimCount_le_iff (sha256 : String → String) {id : String} : ∀ {calls : List Call} {s : Store} {n : Nat},
    Counted id n s →
    (∀ x, s.operations.lookup id = some x → n ≤ x.retryLimit) →
    ((∀ x, (run (exec sha256) s calls).operations.lookup id = some x →
      n + claimCount sha256 id s calls ≤ x.retryLimit) ↔ Along (exec sha256) (SparesExhausted id) s calls)
  | [], s, n, h, hn => ⟨fun _ => trivial, fun _ => hn⟩
  | c :: calls, s, n, h, hn => by
    have hnext := h.exec sha256 c
    -- the claims after this step, once it is known to spare the operation
    have hwithin : SparesExhausted id s c → ∀ x, (exec sha256 s c).operations.lookup id = some x →
        n + (if claimed sha256 s id c then 1 else 0) ≤ x.retryLimit := by
      intro hspares x hx
      cases hid : s.operations.lookup id with
      | some y =>
        obtain ⟨x', hx', hlimit, -⟩ := exec_attempts sha256 hid c
        rw [hx] at hx'
        cases hx'
        rw [hlimit]
        exact h.within hid (hn y hid) hspares
      | none =>
        have hno : ¬ claimed sha256 s id c = true := by
          intro hclaimed
          obtain ⟨y, hy⟩ := claimed_exists hclaimed
          rw [hid] at hy; cases hy
        rw [if_neg hno, h.absent hid]
        exact Nat.zero_le _
    have hcount : n + claimCount sha256 id s (c :: calls) =
        n + (if claimed sha256 s id c then 1 else 0) + claimCount sha256 id (exec sha256 s c) calls := by
      rw [claimCount, Nat.add_assoc]
    constructor
    · intro hall
      have hspares : SparesExhausted id s c := by
        intro x hover
        obtain ⟨hx, hclaimed⟩ := claimed_of_takesOver sha256 hover
        obtain ⟨y, hy, hlimit⟩ := run_retryLimit sha256 (c :: calls) hx
        have hle := hall y hy
        rw [hcount, if_pos hclaimed, hlimit] at hle
        rw [h.count x hx]
        omega
      refine ⟨hspares, (claimCount_le_iff sha256 hnext (hwithin hspares)).1 fun x hx => ?_⟩
      rw [← hcount]
      exact hall x hx
    · rintro ⟨hspares, hrest⟩ x hx
      rw [hcount]
      exact (claimCount_le_iff sha256 hnext (hwithin hspares)).2 hrest x hx

/-- An operation is claimed within its retry limit exactly in the runs that never take it over when
its attempts are used up. -/
theorem attempt_budget (sha256 : String → String) (id : String) (calls : List Call) :
    (∀ x, (reach sha256 calls).operations.lookup id = some x → claimCount sha256 id .empty calls ≤ x.retryLimit) ↔
      Along (exec sha256) (SparesExhausted id) .empty calls := by
  have hcounted : Counted id 0 .empty :=
    ⟨fun _ => rfl, fun _ hx => (by cases hx), fun _ hx => (by cases hx)⟩
  have hlimit : ∀ x, Store.empty.operations.lookup id = some x → 0 ≤ x.retryLimit := fun x _ => Nat.zero_le _
  rw [← claimCount_le_iff sha256 hcounted hlimit, Nat.zero_add]
  rfl

/-- A runner that crashes after each claim: the lease of one second runs out before every next claim. -/
def crashingRunner : List Call :=
  [.submit "p" "k" (String.ofList (List.replicate 64 'a')) "op", .claim "op" "r" 1 "t1" 0 0,
    .claim "op" "r" 1 "t2" 2 2, .claim "op" "r" 1 "t3" 4 4, .claim "op" "r" 1 "t4" 6 6]

/-- Its fourth claim goes past the limit of three, and the operation is not failed. -/
theorem crashes_exceed_budget : ∃ x, (reach id crashingRunner).operations.lookup "op" = some x ∧
    x.retryLimit < claimCount id "op" .empty crashingRunner ∧ x.state = .claimed := by
  decide +kernel

end Mesa.Operations
