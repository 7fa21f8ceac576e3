/-
What one call does to the operations and to their events: it submits an operation or moves one,
and every change of a state leaves an event.
-/
import Mathlib.Data.List.Fold
import Mathlib.Data.List.MinMax
import Mesa.Operations.Repository

namespace Mesa.Operations

open Mesa.Foundation

/-- What a call can do to an operation. -/
inductive Move : Call → Operation → Operation → Prop
  | claimed (runner token : String) (lease readAt writeAt : Nat) (x : Operation) (h : x.state = .pending) :
    Move (.claim x.operationId runner lease token readAt writeAt) x (x.claim .claimed runner token (writeAt + lease))
  | reclaimed (runner token : String) (lease readAt writeAt : Nat) (x : Operation)
    (h : x.state.activeExecution = true) (hlease : x.leaseValid readAt = false) :
    Move (.claim x.operationId runner lease token readAt writeAt) x (x.claim x.state runner token (writeAt + lease))
  | renewed (runner token : String) (fence lease readAt writeAt : Nat) (x : Operation)
    (h : x.state.activeExecution = true) :
    Move (.renew x.operationId runner token fence lease readAt writeAt) x
      { x with leaseExpiresAt := some (writeAt + lease) }
  | transitioned (q : TransitionRequest) (readAt writeAt : Nat) (x : Operation) (v : TransitionValues)
    (completed total : Int) (hid : q.operationId = x.operationId)
    (hclaim : x.claimIs q.runnerId q.claimToken q.fencingToken = true) (hread : x.leaseValid readAt = true)
    (hwrite : x.leaseValid writeAt = true) (hcheck : checkTransition x v completed total = .ok ()) :
    Move (.transition q readAt writeAt) x (x.transition v completed total)
  | cancelled (x : Operation) (h : x.state ∈ [OperationState.pending, .retryableFailed]) :
    Move (.cancel x.operationId) x (x.release .cancelled)
  | retried (x : Operation) (h : x.state = .retryableFailed) (hbudget : x.attemptCount < x.retryLimit) :
    Move (.retry x.operationId) x x.retry

theorem Move.operationId {c : Call} {x x' : Operation} (h : Move c x x') : x'.operationId = x.operationId := by
  cases h <;> rfl

/-- The operations with one row replaced. -/
def Store.put (s : Store) (x : Operation) : Store :=
  { s with operations := s.operations.update (·.operationId = x.operationId) fun y =>
    { x with operationId := y.operationId } }

/-- What a call that commits does to the store. -/
inductive StoreStep (s : Store) : Call → Store → Prop
  | same (p k h id : String) : StoreStep s (.submit p k h id) s
  | registered (g : String) : StoreStep s (.generation g) { s with generations := s.generations ++ [g] }
  | submitted (p k h id : String) (x : Operation) (hid : x.operationId = id) (hstate : x.state = .pending)
    (hprogress : x.progressCompleted = 0 ∧ x.progressTotal = 0) (hattempts : x.attemptCount = 0 ∧ x.retryLimit = 3)
    (hfree : s.operations.lookup id = none)
    (hidle : s.operations.anyWhere (·.state.maintenance) = false) :
    StoreStep s (.submit p k h id)
      ({ s with operations := s.operations.insertOrIgnore x }.event x "SUBMITTED" none none none)
  | moved (c : Call) (x x' : Operation) (hx : s.operations.lookup x.operationId = some x) (hmove : Move c x x')
    (eventType : String) (checkpointHash errorClass : Option String) :
    StoreStep s c ((s.put x').event x' eventType (some x.state) checkpointHash errorClass)
  | quiet (c : Call) (x x' : Operation) (hx : s.operations.lookup x.operationId = some x) (hmove : Move c x x')
    (hstate : x'.state = x.state) : StoreStep s c (s.put x')

theorem Operation.withId {x : Operation} {id : String} (h : x.operationId = id) :
    { x with operationId := id } = x := by
  cases h; rfl

/-- A write whose condition the row satisfies replaces the row. -/
theorem write_eq_put {s : Store} {id : String} {condition : Operation → Bool} {f : Operation → Operation}
    {hf : ∀ x, (f x).operationId = x.operationId} {x : Operation} (hx : s.operations.lookup id = some x)
    (hcondition : condition x = true) : s.write id condition f hf = s.put (f x) := by
  have hid : x.operationId = id := Table.lookup_key hx
  unfold Store.write Store.put
  congr 1
  apply Table.ext
  refine List.map_congr_left fun y hy => ?_
  rw [hf, hid]
  by_cases hy' : y.operationId = id
  · have hyx : y = x := by
      have := Table.lookup_of_mem hy
      rw [show Keyed.key y = id from hy', hx] at this
      exact (Option.some.inj this).symm
    subst hyx
    rw [if_pos (by simp [hy', hcondition]), if_pos (by simp [hy'])]
    exact (Operation.withId (hf y)).symm
  · simp [hy']

variable {sha256 : String → String} {s s' : Store}

theorem row_eq_ok {id : String} {x : Operation} : s.row id = .ok x ↔ s.operations.lookup id = some x := by
  unfold Store.row
  cases s.operations.lookup id <;> simp

theorem bounded_eq_ok {value label v : String} (h : bounded value label = .ok v) : value = v := by
  unfold bounded at h
  split at h <;> cases h
  rfl

theorem assertFence_eq_ok {x : Operation} {r t : String} {f now : Nat} {u : Unit} :
    x.assertFence r t f now = .ok u ↔ x.claimIs r t f = true ∧ x.leaseValid now = true := by
  unfold Operation.assertFence
  rw [← Bool.and_eq_true]
  cases x.claimIs r t f && x.leaseValid now <;> simp

theorem submit_step {p k h id : String} (hok : submit s p k h id = .ok s') : StoreStep s (.submit p k h id) s' := by
  obtain ⟨principal, hp, hok⟩ := bind_eq_ok.1 hok
  obtain ⟨key, hk, hok⟩ := bind_eq_ok.1 hok
  obtain ⟨digest, hd, hok⟩ := bind_eq_ok.1 hok
  split at hok
  · split at hok
    · cases hok
    · cases pure_eq_ok.1 hok; exact .same p k h id
  · split at hok
    · cases hok
    · next hconflict =>
      cases pure_eq_ok.1 hok
      have hconflict := eq_false_of_ne_true hconflict
      rw [Bool.or_eq_false_iff] at hconflict
      exact .submitted p k h id (submitted id principal key digest) rfl rfl ⟨rfl, rfl⟩ ⟨rfl, rfl⟩
        (Table.hasKey_eq_false.1 hconflict.1) hconflict.2

theorem claim_step {id r t : String} {n a b : Nat} (hok : claim s id r n t a b = .ok s') :
    StoreStep s (.claim id r n t a b) s' := by
  obtain ⟨_, hid, hok⟩ := bind_eq_ok.1 hok
  obtain ⟨_, hr, hok⟩ := bind_eq_ok.1 hok
  obtain rfl := bounded_eq_ok hid
  obtain rfl := bounded_eq_ok hr
  split at hok
  · cases hok
  · obtain ⟨x, hx, hok⟩ := bind_eq_ok.1 hok
    have hx := row_eq_ok.1 hx
    obtain rfl : x.operationId = _ := Table.lookup_key hx
    obtain ⟨⟨next, eventType⟩, hnext, hok⟩ := bind_eq_ok.1 hok
    cases pure_eq_ok.1 hok
    rw [write_eq_put hx (by simp)]
    unfold Operation.claimTarget at hnext
    split at hnext
    · next hpending => cases hnext; exact .moved _ x _ hx (.claimed r t n a b x hpending) _ _ _
    · split at hnext
      · next hexpired =>
        cases hnext
        simp only [Bool.and_eq_true, Bool.not_eq_true'] at hexpired
        exact .moved _ x _ hx (.reclaimed r t n a b x hexpired.1 hexpired.2) _ _ _
      · cases hnext

theorem renew_step {id r t : String} {f n a b : Nat} (hok : renew s id r t f n a b = .ok s') :
    StoreStep s (.renew id r t f n a b) s' := by
  obtain ⟨_, hid, hok⟩ := bind_eq_ok.1 hok
  obtain ⟨_, hr, hok⟩ := bind_eq_ok.1 hok
  obtain ⟨_, ht, hok⟩ := bind_eq_ok.1 hok
  obtain rfl := bounded_eq_ok hid
  obtain rfl := bounded_eq_ok hr
  obtain rfl := bounded_eq_ok ht
  split at hok
  · cases hok
  · obtain ⟨x, hx, hok⟩ := bind_eq_ok.1 hok
    have hx := row_eq_ok.1 hx
    obtain rfl : x.operationId = _ := Table.lookup_key hx
    split at hok
    · cases hok
    · next hactive =>
      obtain ⟨_, hfence, hok⟩ := bind_eq_ok.1 hok
      split at hok
      · cases hok
      · next hlease =>
        cases pure_eq_ok.1 hok
        rw [write_eq_put hx (by rw [(assertFence_eq_ok.1 hfence).1, not_not.1 hlease]; rfl)]
        exact .quiet _ x _ hx (.renewed r t f n a b x (not_not.1 hactive)) rfl

theorem transition_step {q : TransitionRequest} {a b : Nat} (hok : transition sha256 s q a b = .ok s') :
    StoreStep s (.transition q a b) s' := by
  obtain ⟨v, hv, hok⟩ := bind_eq_ok.1 hok
  obtain ⟨x, hx, hok⟩ := bind_eq_ok.1 hok
  have hx := row_eq_ok.1 hx
  have hid : x.operationId = q.operationId := Table.lookup_key hx
  obtain ⟨_, hfence, hok⟩ := bind_eq_ok.1 hok
  obtain ⟨_, hcheck, hok⟩ := bind_eq_ok.1 hok
  obtain ⟨hclaim, hread⟩ := assertFence_eq_ok.1 hfence
  split at hok
  · cases hok
  · next hwrite =>
    have hwrite := not_not.1 hwrite
    split at hok
    · cases hok
    · cases pure_eq_ok.1 hok
      rw [write_eq_put hx (by rw [hclaim, hwrite]; rfl)]
      have hmove := Move.transitioned q a b x v _ _ hid.symm hclaim hread hwrite hcheck
      exact .moved _ x _ (by rw [hid]; exact hx) hmove _ _ _

theorem cancel_step {id : String} (hok : cancel s id = .ok s') : StoreStep s (.cancel id) s' := by
  obtain ⟨_, hid, hok⟩ := bind_eq_ok.1 hok
  obtain rfl := bounded_eq_ok hid
  obtain ⟨x, hx, hok⟩ := bind_eq_ok.1 hok
  have hx := row_eq_ok.1 hx
  obtain rfl : x.operationId = _ := Table.lookup_key hx
  split at hok
  · cases hok
  · next hstate =>
    cases pure_eq_ok.1 hok
    rw [write_eq_put hx (by simp)]
    exact .moved _ x _ hx (.cancelled x (not_not.1 hstate)) _ _ _

theorem retry_step {id : String} (hok : retry s id = .ok s') : StoreStep s (.retry id) s' := by
  obtain ⟨_, hid, hok⟩ := bind_eq_ok.1 hok
  obtain rfl := bounded_eq_ok hid
  obtain ⟨x, hx, hok⟩ := bind_eq_ok.1 hok
  have hx := row_eq_ok.1 hx
  obtain rfl : x.operationId = _ := Table.lookup_key hx
  split at hok
  · cases hok
  · next hstate =>
    have hstate := not_not.1 hstate
    split at hok
    · cases hok
    · next hbudget =>
      cases pure_eq_ok.1 hok
      rw [write_eq_put hx (by simp [hstate]), ← hstate]
      exact .moved _ x _ hx (.retried x hstate (Nat.lt_of_not_le hbudget)) _ _ _

/-- Every call that commits makes a step. -/
theorem transact_step {c : Call} (hok : transact sha256 s c = .ok s') : StoreStep s c s' := by
  cases c with
  | submit p k h id => exact submit_step hok
  | claim id r n t a b => exact claim_step hok
  | renew id r t f n a b => exact renew_step hok
  | transition q a b => exact transition_step hok
  | cancel id => exact cancel_step hok
  | retry id => exact retry_step hok
  | generation g => cases hok; exact .registered g

end Mesa.Operations
