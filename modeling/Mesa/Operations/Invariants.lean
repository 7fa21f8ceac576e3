/-
The safety of system operations over whole runs: one active rebuild, fencing tokens that grow with
every claim, state and progress in the hands of the current holder, monotone progress, and an event
log without gaps.
-/
import Mesa.Operations.Moves

namespace Mesa.Operations

open Mesa.Foundation

/-! ## Moves -/

/-- What a transition has checked. -/
theorem checkTransition_ok {x : Operation} {v : TransitionValues} {completed total : Int} {u : Unit}
    (h : checkTransition x v completed total = .ok u) :
    v.target ∈ x.state.allowed ∧ (v.target = .retryableFailed → x.attemptCount < x.retryLimit) ∧
      x.progressCompleted ≤ completed ∧ (x.progressTotal ≠ 0 → total = x.progressTotal) ∧ 0 ≤ completed ∧
      completed ≤ total ∧ (v.target.replayed = true → completed = total) := by
  unfold checkTransition at h
  split at h
  · cases h
  next hallowed =>
  split at h
  · cases h
  split at h
  · cases h
  split at h
  · cases h
  next hbudget =>
  split at h
  · cases h
  next hback =>
  split at h
  · cases h
  next htotal =>
  split at h
  · cases h
  next hrange =>
  split at h
  · cases h
  next hreplayed =>
  refine ⟨not_not.1 hallowed, fun ht => ?_, by omega, fun h0 => ?_, by omega, by omega, fun ht => ?_⟩
  · by_contra hlimit
    exact hbudget ⟨ht, Nat.le_of_not_lt hlimit⟩
  · by_contra hne
    exact htotal ⟨h0, hne⟩
  · by_contra hne
    exact hreplayed ⟨ht, hne⟩

theorem OperationState.active_of_allowed {s t : OperationState} (h : t ∈ s.allowed) : s.activeExecution = true := by
  cases s <;> first | rfl | cases h

theorem OperationState.maintenance_of_active {s : OperationState} (h : s.activeExecution = true) :
    s.maintenance = true := by
  cases s <;> first | rfl | cases h

/-- Only operations of an active rebuild move. -/
theorem Move.maintenance {c : Call} {x x' : Operation} (h : Move c x x') : x.state.maintenance = true := by
  cases h with
  | claimed r t l a b _ h => rw [h]; rfl
  | reclaimed r t l a b _ h hlease => exact OperationState.maintenance_of_active h
  | renewed r t f l a b _ h => exact OperationState.maintenance_of_active h
  | transitioned q a b _ v c t hid hclaim hread hwrite hcheck =>
    exact OperationState.maintenance_of_active (OperationState.active_of_allowed (checkTransition_ok hcheck).1)
  | cancelled _ h =>
    rcases List.mem_cons.1 h with h | h
    · rw [h]; rfl
    · rw [List.mem_singleton.1 h]; rfl
  | retried _ h hbudget => rw [h]; rfl

/-- The tokens of an operation never go back, its progress neither, and its total is set once. -/
structure Operation.Advances (x x' : Operation) : Prop where
  fence : x.fencingToken ≤ x'.fencingToken
  completed : x.progressCompleted ≤ x'.progressCompleted
  total : x.progressTotal ≠ 0 → x'.progressTotal = x.progressTotal

theorem Operation.Advances.refl (x : Operation) : x.Advances x := ⟨le_rfl, le_rfl, fun _ => rfl⟩

theorem Operation.Advances.trans {x y z : Operation} (h : x.Advances y) (h' : y.Advances z) : x.Advances z where
  fence := h.fence.trans h'.fence
  completed := h.completed.trans h'.completed
  total h0 := by
    have hy := h.total h0
    rw [h'.total (by rw [hy]; exact h0), hy]

theorem Move.advances {c : Call} {x x' : Operation} (h : Move c x x') : x.Advances x' := by
  cases h with
  | claimed r t l a b _ h => exact ⟨Nat.le_succ _, le_rfl, fun _ => rfl⟩
  | reclaimed r t l a b _ h hlease => exact ⟨Nat.le_succ _, le_rfl, fun _ => rfl⟩
  | renewed r t f l a b _ h => exact ⟨le_rfl, le_rfl, fun _ => rfl⟩
  | transitioned q a b _ v c t hid hclaim hread hwrite hcheck =>
    obtain ⟨-, -, hback, htotal, -⟩ := checkTransition_ok hcheck
    exact ⟨le_rfl, hback, htotal⟩
  | cancelled _ h => exact ⟨le_rfl, le_rfl, fun _ => rfl⟩
  | retried _ h hbudget => exact ⟨le_rfl, le_rfl, fun _ => rfl⟩

/-- The progress of an operation fits its total, and its state. -/
structure Operation.Sound (x : Operation) : Prop where
  nonneg : 0 ≤ x.progressCompleted
  bounded : x.progressCompleted ≤ x.progressTotal
  replayed : x.state.replayed = true → x.progressCompleted = x.progressTotal

theorem Move.sound {c : Call} {x x' : Operation} (h : Move c x x') (hx : x.Sound) : x'.Sound := by
  cases h with
  | claimed r t l a b _ h => exact ⟨hx.nonneg, hx.bounded, fun hr => by cases hr⟩
  | reclaimed r t l a b _ h hlease => exact ⟨hx.nonneg, hx.bounded, hx.replayed⟩
  | renewed r t f l a b _ h => exact ⟨hx.nonneg, hx.bounded, hx.replayed⟩
  | transitioned q a b _ v c t hid hclaim hread hwrite hcheck =>
    obtain ⟨-, -, -, -, hnonneg, hbounded, hreplayed⟩ := checkTransition_ok hcheck
    exact ⟨hnonneg, hbounded, hreplayed⟩
  | cancelled _ h => exact ⟨hx.nonneg, hx.bounded, fun hr => by cases hr⟩
  | retried _ h hbudget => exact ⟨hx.nonneg, hx.bounded, fun hr => by cases hr⟩

/-- The call is a transition by the current holder of the operation, whose lease runs. -/
def Call.byHolder (x : Operation) : Call → Prop
  | .transition q readAt writeAt => q.operationId = x.operationId ∧
      x.claimIs q.runnerId q.claimToken q.fencingToken = true ∧ x.leaseValid readAt = true ∧
      x.leaseValid writeAt = true
  | _ => False

/-- A claimed operation changes its state or its progress by a transition of its holder only. -/
theorem Move.holder {c : Call} {x x' : Operation} (h : Move c x x') (hx : x.state.activeExecution = true) :
    (x'.state = x.state ∧ x'.progressCompleted = x.progressCompleted ∧ x'.progressTotal = x.progressTotal) ∨
      c.byHolder x := by
  cases h with
  | claimed r t l a b _ h => rw [h] at hx; cases hx
  | reclaimed r t l a b _ h hlease => exact Or.inl ⟨rfl, rfl, rfl⟩
  | renewed r t f l a b _ h => exact Or.inl ⟨rfl, rfl, rfl⟩
  | transitioned q a b _ v c t hid hclaim hread hwrite hcheck => exact Or.inr ⟨hid, hclaim, hread, hwrite⟩
  | cancelled _ h =>
    rcases List.mem_cons.1 h with h | h
    · rw [h] at hx; cases hx
    · rw [List.mem_singleton.1 h] at hx; cases hx
  | retried _ h hbudget => rw [h] at hx; cases hx

/-- The operation that a call claims. -/
def Call.claims : Call → Option String
  | .claim id .. => some id
  | _ => none

/-- A claim takes the next fencing token. -/
theorem Move.claims {c : Call} {x x' : Operation} (h : Move c x x') (hc : c.claims = some x.operationId) :
    x'.fencingToken = x.fencingToken + 1 := by
  cases h <;> first | rfl | cases hc

/-! ## The event log -/

/-- A log without gaps: its events are numbered from 1, each starts where the one before ended, and
the last ends in the current state. -/
structure EventLog (log : List OperationEvent) (current : OperationState) : Prop where
  numbered : log.map (·.key.sequenceNumber) = List.range' 1 log.length
  linked : log.IsChain fun e e' => e'.fromState = some e.toState
  first : log.head?.map (·.fromState) = some none
  last : log.getLast?.map (·.toState) = some current

theorem EventLog.append {log : List OperationEvent} {current : OperationState} (h : EventLog log current)
    {e : OperationEvent} (hnumber : e.key.sequenceNumber = log.length + 1) (hfrom : e.fromState = some current) :
    EventLog (log ++ [e]) e.toState where
  numbered := by
    rw [List.map_append, h.numbered, List.map_singleton, hnumber, List.length_append, List.length_singleton,
      List.range'_concat]
    simp [Nat.add_comm]
  linked := by
    refine h.linked.append (List.isChain_singleton e) fun a ha b hb => ?_
    obtain rfl : e = b := by simpa using hb
    have hlast := h.last
    rw [Option.mem_def.1 ha] at hlast
    rw [hfrom]
    exact (congrArg some (Option.some.inj hlast)).symm
  first := by
    rw [List.head?_append]
    cases hhead : log.head? with
    | none => rw [List.head?_eq_none_iff.1 hhead] at h; cases h.first
    | some a => have := h.first; rw [hhead] at this; exact this
  last := by simp

theorem eventLog_singleton {e : OperationEvent} (hnumber : e.key.sequenceNumber = 1) (hfrom : e.fromState = none) :
    EventLog [e] e.toState where
  numbered := by rw [List.map_singleton, hnumber]; rfl
  linked := List.isChain_singleton e
  first := by rw [List.head?_cons, Option.map_some, hfrom]
  last := rfl

theorem le_foldl_max {l : List Nat} {n : Nat} (h : n ∈ l) : n ≤ l.foldl max 0 := by
  rw [List.foldl_eq_foldr]
  exact List.le_max_of_le' 0 h le_rfl

theorem foldl_max_range' (n : Nat) : (List.range' 1 n).foldl max 0 = n := by
  induction n with
  | zero => rfl
  | succ n ih =>
    rw [List.range'_concat, List.foldl_append, ih]
    simp [Nat.add_comm]

/-- An event goes to the end of its operation's log, and to no other log. -/
theorem log_event (s : Store) (x : Operation) (eventType : String) (fromState : Option OperationState)
    (checkpointHash errorClass : Option String) (id : String) :
    ∃ e : OperationEvent, e.fromState = fromState ∧ e.toState = x.state ∧
      e.key.sequenceNumber = ((s.log x.operationId).map (·.key.sequenceNumber)).foldl max 0 + 1 ∧
      (s.event x eventType fromState checkpointHash errorClass).log id =
        s.log id ++ if x.operationId = id then [e] else [] := by
  refine ⟨⟨⟨x.operationId, ((s.log x.operationId).map (·.key.sequenceNumber)).foldl max 0 + 1⟩, eventType, fromState,
    x.state, x.fencingToken, x.attemptCount, x.progressCompleted, x.progressTotal, checkpointHash, errorClass⟩, rfl,
    rfl, rfl, ?_⟩
  unfold Store.event Store.log Table.select
  simp only
  rw [Table.rows_insertOrIgnore_fresh, List.filter_append, List.filter_cons, List.filter_nil]
  · by_cases hid : x.operationId = id <;> simp [hid]
  · -- its number is above all numbers of the log
    refine Table.lookup_eq_none.2 fun e he hkey => ?_
    have hkey : e.key = ⟨x.operationId, _⟩ := hkey
    have hmem : e.key.sequenceNumber ∈ (s.log x.operationId).map (·.key.sequenceNumber) :=
      List.mem_map_of_mem (Table.mem_select.2 ⟨he, by rw [hkey]; simp⟩)
    have hle := le_foldl_max hmem
    rw [hkey] at hle
    exact absurd hle (Nat.not_succ_le_self _)

/-! ## The invariant -/

theorem lookup_put (s : Store) (x' : Operation) (k : String) :
    (s.put x').operations.lookup k =
      (s.operations.lookup k).map fun y => if k = x'.operationId then x' else y := by
  unfold Store.put
  rw [Table.lookup_update]
  cases hy : s.operations.lookup k with
  | none => rfl
  | some y =>
    obtain rfl : y.operationId = k := Table.lookup_key hy
    rw [Option.map_some, Option.map_some]
    by_cases hid : y.operationId = x'.operationId
    · simp only [hid, decide_true, if_true]
    · simp only [hid, decide_false, Bool.false_eq_true, if_false]

structure OperationInv (s : Store) : Prop where
  single : ∀ j k x y, s.operations.lookup j = some x → s.operations.lookup k = some y → x.state.maintenance = true →
    y.state.maintenance = true → j = k
  sound : ∀ k x, s.operations.lookup k = some x → x.Sound
  logged : ∀ k x, s.operations.lookup k = some x → EventLog (s.log k) x.state
  unlogged : ∀ k, s.operations.lookup k = none → s.log k = []

theorem operationInv_empty : OperationInv .empty where
  single _ _ _ _ h := by cases h
  sound _ _ h := by cases h
  logged _ _ h := by cases h
  unlogged _ _ := rfl

/-- Replacing a row by what a move makes of it keeps all but the log. -/
theorem OperationInv.put {s : Store} {c : Call} {x x' : Operation} (hs : OperationInv s)
    (hx : s.operations.lookup x.operationId = some x) (hmove : Move c x x') {j k : String} {y z : Operation}
    (hy : (s.put x').operations.lookup j = some y) (hz : (s.put x').operations.lookup k = some z)
    (hmy : y.state.maintenance = true) (hmz : z.state.maintenance = true) : j = k := by
  have hid := hmove.operationId
  have hold : ∀ {i w}, (s.put x').operations.lookup i = some w → w.state.maintenance = true →
      ∃ v, s.operations.lookup i = some v ∧ v.state.maintenance = true := by
    intro i w hw hmw
    rw [lookup_put] at hw
    obtain ⟨v, hv, hvw⟩ := Option.map_eq_some_iff.1 hw
    by_cases hi : i = x'.operationId
    · rw [if_pos hi] at hvw
      rw [hi, hid]
      exact ⟨x, hx, hmove.maintenance⟩
    · rw [if_neg hi] at hvw
      exact ⟨v, hv, by rw [hvw]; exact hmw⟩
  obtain ⟨y', hy', hmy'⟩ := hold hy hmy
  obtain ⟨z', hz', hmz'⟩ := hold hz hmz
  exact hs.single j k y' z' hy' hz' hmy' hmz'

theorem OperationInv.put_sound {s : Store} {c : Call} {x x' : Operation} (hs : OperationInv s)
    (hx : s.operations.lookup x.operationId = some x) (hmove : Move c x x') {k : String} {y : Operation}
    (hy : (s.put x').operations.lookup k = some y) : y.Sound := by
  rw [lookup_put] at hy
  obtain ⟨v, hv, hvy⟩ := Option.map_eq_some_iff.1 hy
  by_cases hk : k = x'.operationId
  · rw [if_pos hk] at hvy
    exact hvy ▸ hmove.sound (hs.sound _ x hx)
  · rw [if_neg hk] at hvy
    exact hvy ▸ hs.sound k v hv

theorem OperationInv.step {s s' : Store} {c : Call} (hs : OperationInv s) (h : StoreStep s c s') :
    OperationInv s' := by
  cases h with
  | same => exact hs
  | registered g => exact ⟨hs.single, hs.sound, hs.logged, hs.unlogged⟩
  | submitted p k h id x hid hstate hprogress hattempts hfree hidle =>
    have hlookup : ∀ j y, (s.operations.insertOrIgnore x).lookup j = some y →
        s.operations.lookup j = some y ∨ (j = id ∧ y = x) := by
      intro j y hy
      rw [Table.lookup_insertOrIgnore] at hy
      cases hj : s.operations.lookup j with
      | some z => rw [hj, Option.some_or] at hy; exact Or.inl hy
      | none =>
        rw [hj, Option.none_or] at hy
        split at hy
        · next hkey =>
          cases hy
          exact Or.inr ⟨hkey.symm.trans hid, rfl⟩
        · cases hy
    have hquiet : ∀ j y, s.operations.lookup j = some y → y.state.maintenance = false := fun j y hy =>
      Table.anyWhere_eq_false.1 hidle y (Table.lookup_mem hy)
    refine ⟨fun i j y z hy hz hmy hmz => ?_, fun j y hy => ?_, fun j y hy => ?_, fun j hj => ?_⟩
    · rcases hlookup i y hy with hy | ⟨hi, -⟩
      · rw [hquiet i y hy] at hmy; cases hmy
      · rcases hlookup j z hz with hz | ⟨hj, -⟩
        · rw [hquiet j z hz] at hmz; cases hmz
        · rw [hi, hj]
    · rcases hlookup j y hy with hy | ⟨-, rfl⟩
      · exact hs.sound j y hy
      · refine ⟨hprogress.1.symm.le, by rw [hprogress.1, hprogress.2], fun _ => by rw [hprogress.1, hprogress.2]⟩
    · obtain ⟨e, hfrom, hto, hnumber, hlog⟩ := log_event
        { s with operations := s.operations.insertOrIgnore x } x "SUBMITTED" none none none j
      rw [hlog]
      rcases hlookup j y hy with hy | ⟨rfl, rfl⟩
      · have hne : x.operationId ≠ j := by
          rintro heq
          rw [← heq, hid, hfree] at hy; cases hy
        rw [if_neg hne, List.append_nil]
        exact hs.logged j y hy
      · have hempty : s.log y.operationId = [] := hs.unlogged y.operationId (by rw [hid]; exact hfree)
        rw [if_pos hid, ← hto]
        replace hnumber : e.key.sequenceNumber =
            ((s.log y.operationId).map (·.key.sequenceNumber)).foldl max 0 + 1 := hnumber
        rw [hempty] at hnumber
        rw [← hid]
        show EventLog (s.log y.operationId ++ [e]) e.toState
        rw [hempty]
        exact eventLog_singleton hnumber hfrom
    · obtain ⟨e, -, -, -, hlog⟩ := log_event
        { s with operations := s.operations.insertOrIgnore x } x "SUBMITTED" none none none j
      have hj : (s.operations.insertOrIgnore x).lookup j = none := hj
      have hnone : s.operations.lookup j = none ∧ x.operationId ≠ j := by
        by_contra hsome
        refine Table.lookup_insertOrIgnore_ne_none.2 ?_ hj
        by_cases hkey : x.operationId = j
        · exact Or.inr hkey
        · exact Or.inl fun hnone => hsome ⟨hnone, hkey⟩
      rw [hlog, if_neg hnone.2, List.append_nil]
      exact hs.unlogged j hnone.1
  | moved _ x x' hx hmove eventType checkpointHash errorClass =>
    have hid := hmove.operationId
    refine ⟨fun i j y z hy hz => hs.put hx hmove hy hz, fun j y hy => hs.put_sound hx hmove hy, fun j y hy => ?_,
      fun j hj => ?_⟩
    · obtain ⟨e, hfrom, hto, hnumber, hlog⟩ :=
        log_event (s.put x') x' eventType (some x.state) checkpointHash errorClass j
      rw [hlog]
      have hy : (s.put x').operations.lookup j = some y := hy
      rw [lookup_put] at hy
      obtain ⟨v, hv, hvy⟩ := Option.map_eq_some_iff.1 hy
      by_cases hj : j = x'.operationId
      · rw [if_pos hj] at hvy
        subst hj
        have hold := hs.logged x.operationId x hx
        replace hnumber : e.key.sequenceNumber =
            ((s.log x'.operationId).map (·.key.sequenceNumber)).foldl max 0 + 1 := hnumber
        rw [if_pos rfl, ← hvy, ← hto]
        show EventLog (s.log x'.operationId ++ [e]) e.toState
        rw [hid] at hnumber ⊢
        rw [hold.numbered, foldl_max_range'] at hnumber
        exact hold.append hnumber hfrom
      · rw [if_neg hj] at hvy
        rw [if_neg (Ne.symm hj), List.append_nil, ← hvy]
        exact hs.logged j v hv
    · obtain ⟨e, -, -, -, hlog⟩ := log_event (s.put x') x' eventType (some x.state) checkpointHash errorClass j
      have hj : (s.put x').operations.lookup j = none := hj
      rw [lookup_put, Option.map_eq_none_iff] at hj
      have hne : x'.operationId ≠ j := by
        rintro heq
        rw [← heq, hid, hx] at hj; cases hj
      rw [hlog, if_neg hne, List.append_nil]
      exact hs.unlogged j hj
  | quiet _ x x' hx hmove hstate =>
    have hid := hmove.operationId
    refine ⟨fun i j y z hy hz => hs.put hx hmove hy hz, fun j y hy => hs.put_sound hx hmove hy, fun j y hy => ?_,
      fun j hj => ?_⟩
    · show EventLog (s.log j) y.state
      rw [lookup_put] at hy
      obtain ⟨v, hv, hvy⟩ := Option.map_eq_some_iff.1 hy
      by_cases hj : j = x'.operationId
      · rw [if_pos hj] at hvy
        rw [← hvy, hstate, hj, hid]
        exact hs.logged x.operationId x hx
      · rw [if_neg hj] at hvy
        exact hvy ▸ hs.logged j v hv
    · rw [lookup_put, Option.map_eq_none_iff] at hj
      exact hs.unlogged j hj

/-! ## Whole runs -/

variable {sha256 : String → String}

/-- Every operation is still there after a step, as it was or moved. -/
theorem StoreStep.lookup {s s' : Store} {c : Call} (h : StoreStep s c s') {k : String} {x : Operation}
    (hk : s.operations.lookup k = some x) :
    s'.operations.lookup k = some x ∨ ∃ x', s'.operations.lookup k = some x' ∧ Move c x x' := by
  have hput : ∀ {y y' : Operation}, s.operations.lookup y.operationId = some y → Move c y y' →
      (s.put y').operations.lookup k = some x ∨ ∃ x', (s.put y').operations.lookup k = some x' ∧ Move c x x' := by
    intro y y' hy hmove
    rw [lookup_put, hk, Option.map_some]
    by_cases hid : k = y'.operationId
    · rw [if_pos hid]
      rw [hid, hmove.operationId, hy] at hk
      cases hk
      exact Or.inr ⟨y', rfl, hmove⟩
    · rw [if_neg hid]
      exact Or.inl rfl
  cases h with
  | same => exact Or.inl hk
  | registered g => exact Or.inl hk
  | submitted p q h id y hid hstate hprogress hattempts hfree hidle =>
    left
    show (s.operations.insertOrIgnore y).lookup k = some x
    rw [Table.lookup_insertOrIgnore, hk, Option.some_or]
  | moved _ y y' hy hmove => exact hput hy hmove
  | quiet _ y y' hy hmove => exact hput hy hmove

/-- A claim that succeeds moves the operation that it claims. -/
theorem StoreStep.claims {s s' : Store} {c : Call} (h : StoreStep s c s') {id : String} (hc : c.claims = some id) :
    ∃ x x', s.operations.lookup id = some x ∧ s'.operations.lookup id = some x' ∧ Move c x x' ∧
      x'.fencingToken = x.fencingToken + 1 := by
  have hput : ∀ {y y' : Operation}, s.operations.lookup y.operationId = some y → Move c y y' →
      ∃ x x', s.operations.lookup id = some x ∧ (s.put y').operations.lookup id = some x' ∧ Move c x x' ∧
        x'.fencingToken = x.fencingToken + 1 := by
    intro y y' hy hmove
    have hid : y.operationId = id := by
      cases hmove <;> first | exact Option.some.inj hc | cases hc
    subst hid
    refine ⟨y, y', hy, ?_, hmove, hmove.claims hc⟩
    rw [lookup_put, hy, Option.map_some, if_pos hmove.operationId.symm]
  cases h with
  | same => cases hc
  | registered g => cases hc
  | submitted p q h id y hid hstate hprogress hattempts hfree hidle => cases hc
  | moved _ y y' hy hmove => exact hput hy hmove
  | quiet _ y y' hy hmove => exact hput hy hmove

/-- What holds of the system operations in a state, now and through every later call. -/
structure OperationsSafe (sha256 : String → String) (s : Store) : Prop where
  /-- At most one rebuild is not terminal. -/
  single : ∀ x ∈ s.operations.rows, ∀ y ∈ s.operations.rows, x.state.maintenance = true →
    y.state.maintenance = true → x = y
  /-- A claim takes the next fencing token of its operation. -/
  claims : ∀ c id s', c.claims = some id → transact sha256 s c = .ok s' → ∃ x x', s.operations.lookup id = some x ∧
    s'.operations.lookup id = some x' ∧ x'.fencingToken = x.fencingToken + 1
  /-- Only the holder, while its lease runs, changes the state or the progress of a claimed operation. -/
  holder : ∀ x ∈ s.operations.rows, x.state.activeExecution = true → ∀ c, ∃ x',
    (exec sha256 s c).operations.lookup x.operationId = some x' ∧
      ((x'.state = x.state ∧ x'.progressCompleted = x.progressCompleted ∧ x'.progressTotal = x.progressTotal) ∨
        c.byHolder x)
  /-- No token and no progress ever goes back, and a total stays once it is set. -/
  advances : ∀ x ∈ s.operations.rows, ∀ later, ∃ x',
    (run (exec sha256) s later).operations.lookup x.operationId = some x' ∧ x.Advances x'
  /-- Progress fits its total, and is complete from the verification on. -/
  sound : ∀ x ∈ s.operations.rows, x.Sound
  /-- The events of an operation are a chain without gaps that ends in its state. -/
  logged : ∀ x ∈ s.operations.rows, EventLog (s.log x.operationId) x.state

theorem OperationInv.exec {s : Store} (hs : OperationInv s) (c : Call) : OperationInv (exec sha256 s c) :=
  orKeep_invariant hs fun _ h => hs.step (transact_step h)

theorem exec_advances {s : Store} {k : String} {x y : Operation} (hy : s.operations.lookup k = some y)
    (hxy : x.Advances y) (c : Call) : ∃ z, (exec sha256 s c).operations.lookup k = some z ∧ x.Advances z := by
  refine orKeep_invariant (P := fun s' : Store => ∃ z, s'.operations.lookup k = some z ∧ x.Advances z) ⟨y, hy, hxy⟩
    fun s' h => ?_
  rcases (transact_step h).lookup hy with hk | ⟨z, hz, hmove⟩
  · exact ⟨y, hk, hxy⟩
  · exact ⟨z, hz, hxy.trans hmove.advances⟩

/-- System operations are safe, after any sequence of calls by any number of runners. -/
theorem system_operations_safe (sha256 : String → String) (calls : List Call) :
    OperationsSafe sha256 (reach sha256 calls) := by
  have hinv : OperationInv (reach sha256 calls) := stable_run (fun _ c hs => hs.exec c) operationInv_empty
  generalize reach sha256 calls = s at hinv
  refine ⟨fun x hx y hy hmx hmy => ?_, fun c id s' hc h => ?_, fun x hx hactive c => ?_, fun x hx later => ?_,
    fun x hx => hinv.sound _ x (Table.lookup_of_mem hx), fun x hx => hinv.logged _ x (Table.lookup_of_mem hx)⟩
  · have hid := hinv.single _ _ x y (Table.lookup_of_mem hx) (Table.lookup_of_mem hy) hmx hmy
    exact Table.eq_of_key_eq hx hy hid
  · obtain ⟨x, x', hx, hx', -, hnext⟩ := (transact_step h).claims hc
    exact ⟨x, x', hx, hx', hnext⟩
  · have hx := Table.lookup_of_mem hx
    refine orKeep_invariant (P := fun s' : Store => ∃ x', s'.operations.lookup x.operationId = some x' ∧
      ((x'.state = x.state ∧ x'.progressCompleted = x.progressCompleted ∧ x'.progressTotal = x.progressTotal) ∨
        c.byHolder x)) ⟨x, hx, Or.inl ⟨rfl, rfl, rfl⟩⟩ fun s' h => ?_
    rcases (transact_step h).lookup hx with hk | ⟨x', hx', hmove⟩
    · exact ⟨x, hk, Or.inl ⟨rfl, rfl, rfl⟩⟩
    · exact ⟨x', hx', hmove.holder hactive⟩
  · refine stable_run (I := fun t : Store => ∃ z, t.operations.lookup x.operationId = some z ∧ x.Advances z)
      (fun t c ht => ?_) ⟨x, Table.lookup_of_mem hx, .refl x⟩
    obtain ⟨y, hy, hxy⟩ := ht
    exact exec_advances hy hxy c

end Mesa.Operations
