/-
The circuit breaker between the gateway and MESA. Each call is two steps, one before its operation
is awaited and one after it has ended, and the calls overlap as they like. The flag of the half-open
probe belongs to the breaker and not to the probe, and any call may clear it.
-/
import Mesa.Foundation.Run

namespace Mesa.Gateway

open Mesa.Foundation

/-! ## The breaker -/

/-- The arguments of `CircuitBreaker`. -/
structure BreakerConfig where
  failureThreshold : Int
  recoverySeconds : ℚ

/-- The defaults, which the gateway uses. -/
def BreakerConfig.default : BreakerConfig := ⟨5, 10⟩

structure CircuitBreaker where
  failures : Int
  openedAt : Option ℚ
  halfOpenProbeInFlight : Bool
  deriving DecidableEq

inductive CircuitState
  | closed | halfOpen | opened
  deriving DecidableEq

/-- An `MCPError`. -/
structure MCPError where
  code : String
  message : String
  retryable : Bool
  deriving DecidableEq

/-- How an awaited operation ends. -/
inductive Outcome
  | returned
  | mcpError (retryable : Bool)
  | otherException
  | cancelled
  deriving DecidableEq

variable (cfg : BreakerConfig)

/-- `CircuitBreaker.state` at a reading of the monotonic clock. -/
def CircuitBreaker.state (b : CircuitBreaker) (now : ℚ) : CircuitState :=
  match b.openedAt with
  | none => .closed
  | some openedAt => if now - openedAt ≥ cfg.recoverySeconds then .halfOpen else .opened

/-- The part of `call` before the operation: whether the call is a probe. -/
def CircuitBreaker.admit (b : CircuitBreaker) (now : ℚ) : Except MCPError (CircuitBreaker × Bool) :=
  match b.state cfg now with
  | .opened => .error ⟨"BACKEND_UNAVAILABLE", "MESA circuit is open", true⟩
  | .halfOpen =>
    if b.halfOpenProbeInFlight then .error ⟨"BACKEND_UNAVAILABLE", "MESA circuit probe is in progress", true⟩
    else .ok ({ b with halfOpenProbeInFlight := true }, true)
  | .closed => .ok (b, false)

/-- The handler of a retryable error. -/
def CircuitBreaker.failed (b : CircuitBreaker) (probe : Bool) (now : ℚ) : CircuitBreaker :=
  if probe then { b with openedAt := some now, halfOpenProbeInFlight := false }
  else
    { failures := b.failures + 1
      openedAt := if b.failures + 1 ≥ cfg.failureThreshold then some now else b.openedAt
      halfOpenProbeInFlight := false }

/-- The part of `call` after the operation. -/
def CircuitBreaker.finish (b : CircuitBreaker) (probe : Bool) (outcome : Outcome) (now : ℚ) : CircuitBreaker :=
  match outcome with
  | .returned => ⟨0, none, false⟩
  | .mcpError true => b.failed cfg probe now
  | .mcpError false | .otherException | .cancelled => b

/-! ## Calls -/

/-- The breaker and the calls whose operation is running, each with whether it is a probe. -/
structure Calls where
  breaker : CircuitBreaker
  running : Nat → Option Bool

def Calls.start : Calls := ⟨⟨0, none, false⟩, fun _ => none⟩

inductive CallStep
  | call (i : Nat) (now : ℚ)
  | finish (i : Nat) (outcome : Outcome) (now : ℚ)

def Calls.call (s : Calls) (i : Nat) (now : ℚ) : Calls :=
  match s.running i, CircuitBreaker.admit cfg s.breaker now with
  | none, .ok (b, probe) => ⟨b, Function.update s.running i (some probe)⟩
  | _, _ => s

def Calls.finish (s : Calls) (i : Nat) (outcome : Outcome) (now : ℚ) : Calls :=
  match s.running i with
  | some probe => ⟨s.breaker.finish cfg probe outcome now, Function.update s.running i none⟩
  | none => s

def Calls.exec (s : Calls) : CallStep → Calls
  | .call i now => s.call cfg i now
  | .finish i outcome now => s.finish cfg i outcome now

/-! ## What a breaker is for -/

def Calls.Probing (s : Calls) : Prop := ∃ i, s.running i = some true

/-- At most one probe runs, the flag is set exactly while one runs, and with no call running a call
after the recovery time is admitted. -/
structure Calls.Sound (s : Calls) : Prop where
  single : ∀ i j, s.running i = some true → s.running j = some true → i = j
  flag : s.breaker.halfOpenProbeInFlight = true ↔ s.Probing
  admits : (∀ i, s.running i = none) → ∀ now, (∀ openedAt, s.breaker.openedAt = some openedAt →
    cfg.recoverySeconds ≤ now - openedAt) → ∃ admitted, CircuitBreaker.admit cfg s.breaker now = .ok admitted

/-- The outcomes after which `call` writes the breaker. -/
def Outcome.settles : Outcome → Bool
  | .returned | .mcpError true => true
  | _ => false

/-- A probe ends in a way that settles it, and no other call settles while a probe runs. -/
def Calls.Settled (s : Calls) : CallStep → Prop
  | .call _ _ => True
  | .finish i outcome _ =>
    (s.running i = some true → outcome.settles = true) ∧
      (s.running i = some false → outcome.settles = true → ¬ s.Probing)

variable {cfg} {s : Calls}

theorem finish_of_settles {b : CircuitBreaker} {probe : Bool} {outcome : Outcome} {now : ℚ}
    (h : outcome.settles = true) : (b.finish cfg probe outcome now).halfOpenProbeInFlight = false := by
  unfold CircuitBreaker.finish
  split
  · rfl
  · unfold CircuitBreaker.failed
    split <;> rfl
  all_goals cases h

theorem finish_of_not_settles {b : CircuitBreaker} {probe : Bool} {outcome : Outcome} {now : ℚ}
    (h : outcome.settles = false) : b.finish cfg probe outcome now = b := by
  unfold CircuitBreaker.finish
  split
  · cases h
  · cases h
  all_goals rfl

/-- After the recovery time only the flag of a probe keeps a call out. -/
theorem admit_eq_ok {b : CircuitBreaker} {now : ℚ} (hflag : b.halfOpenProbeInFlight = false)
    (h : ∀ openedAt, b.openedAt = some openedAt → cfg.recoverySeconds ≤ now - openedAt) :
    ∃ admitted, b.admit cfg now = .ok admitted := by
  unfold CircuitBreaker.admit CircuitBreaker.state
  cases hopened : b.openedAt with
  | none => exact ⟨_, rfl⟩
  | some openedAt =>
    simp only [ge_iff_le, h openedAt hopened, if_true, hflag]
    exact ⟨_, rfl⟩

/-- The first two parts give the third. -/
theorem Calls.Sound.of (single : ∀ i j, s.running i = some true → s.running j = some true → i = j)
    (flag : s.breaker.halfOpenProbeInFlight = true ↔ s.Probing) : s.Sound cfg where
  single := single
  flag := flag
  admits hnone _ := by
    apply admit_eq_ok
    rw [Bool.eq_false_iff, ne_eq, flag]
    rintro ⟨i, hi⟩
    rw [hnone i] at hi
    cases hi

/-! ## Steps -/

/-- What an admission makes of the flag. -/
theorem admit_flag {b b' : CircuitBreaker} {probe : Bool} {now : ℚ} (h : b.admit cfg now = .ok (b', probe)) :
    (probe = true ∧ b.halfOpenProbeInFlight = false ∧ b'.halfOpenProbeInFlight = true) ∨
      (probe = false ∧ b' = b) := by
  unfold CircuitBreaker.admit at h
  split at h
  · cases h
  · split at h
    · cases h
    · next hflag =>
      cases h
      exact .inl ⟨rfl, by simpa using hflag, rfl⟩
  · cases h
    exact .inr ⟨rfl, rfl⟩

theorem Calls.Sound.call (h : s.Sound cfg) (i : Nat) (now : ℚ) : (s.call cfg i now).Sound cfg := by
  unfold Calls.call
  split
  case h_2 => exact h
  case h_1 b probe hi hadmit =>
    rcases admit_flag hadmit with ⟨rfl, hclear, hset⟩ | ⟨rfl, rfl⟩
    · -- the flag was clear, so the new probe is the only one
      have hnone : ∀ j, s.running j ≠ some true := fun j hj => by
        have hflag := h.flag.2 ⟨j, hj⟩
        rw [hclear] at hflag
        cases hflag
      have honly : ∀ j, Function.update s.running i (some true) j = some true → j = i := by
        intro j hj
        by_contra hne
        rw [Function.update_of_ne hne] at hj
        exact hnone j hj
      refine .of (fun j k hj hk => (honly j hj).trans (honly k hk).symm) ?_
      exact iff_of_true hset ⟨i, Function.update_self ..⟩
    · have hsame : ∀ j, Function.update s.running i (some false) j = some true ↔ s.running j = some true := by
        intro j
        by_cases hji : j = i
        · subst hji
          rw [Function.update_self, hi]
          simp
        · rw [Function.update_of_ne hji]
      refine .of (fun j k hj hk => h.single j k ((hsame j).1 hj) ((hsame k).1 hk)) ?_
      rw [h.flag]
      exact exists_congr fun j => (hsame j).symm

theorem running_update_none {running : Nat → Option Bool} {i j : Nat} :
    Function.update running i none j = some true ↔ j ≠ i ∧ running j = some true := by
  by_cases hji : j = i
  · subst hji
    simp
  · rw [Function.update_of_ne hji]
    simp [hji]

theorem finish_of_running {i : Nat} {probe : Bool} {outcome : Outcome} {now : ℚ} (h : s.running i = some probe) :
    s.finish cfg i outcome now = ⟨s.breaker.finish cfg probe outcome now, Function.update s.running i none⟩ := by
  rw [Calls.finish, h]

/-- The end of a call keeps the breaker sound exactly when it is one that `Settled` describes. -/
theorem Calls.Sound.finish_iff (h : s.Sound cfg) (i : Nat) (outcome : Outcome) (now : ℚ) :
    (s.finish cfg i outcome now).Sound cfg ↔ s.Settled (.finish i outcome now) := by
  have hsingle : ∀ j k, Function.update s.running i none j = some true →
      Function.update s.running i none k = some true → j = k := fun j k hj hk =>
    h.single j k (running_update_none.1 hj).2 (running_update_none.1 hk).2
  unfold Calls.Settled
  cases hi : s.running i with
  | none =>
    rw [Calls.finish, hi]
    exact iff_of_true h (by simp [hi])
  | some probe =>
    rw [finish_of_running hi]
    cases probe with
    | true =>
      have hother : ¬ (∃ j, Function.update s.running i none j = some true) := by
        rintro ⟨j, hj⟩
        obtain ⟨hne, hj⟩ := running_update_none.1 hj
        exact hne (h.single j i hj hi)
      cases hsettles : outcome.settles with
      | true =>
        refine iff_of_true (.of hsingle (iff_of_false ?_ hother)) (by simp [hi, hsettles])
        simp [finish_of_settles hsettles]
      | false =>
        refine iff_of_false (fun hs => hother (hs.flag.1 ?_)) (by simp [hi, hsettles])
        rw [finish_of_not_settles hsettles]
        exact h.flag.2 ⟨i, hi⟩
    | false =>
      have hsame : (∃ j, Function.update s.running i none j = some true) ↔ s.Probing := by
        refine exists_congr fun j => ?_
        rw [running_update_none, and_iff_right_iff_imp]
        rintro hj rfl
        rw [hi] at hj
        cases hj
      cases hsettles : outcome.settles with
      | true =>
        constructor
        · refine fun hs => ⟨by simp [hi], fun _ _ hprobing => ?_⟩
          have hflag := hs.flag.2 (hsame.2 hprobing)
          rw [finish_of_settles hsettles] at hflag
          cases hflag
        · rintro ⟨-, hnone⟩
          refine .of hsingle (iff_of_false ?_ fun hj => hnone hi hsettles (hsame.1 hj))
          simp [finish_of_settles hsettles]
      | false =>
        refine iff_of_true (.of hsingle ?_) (by simp [hi, hsettles])
        rw [finish_of_not_settles hsettles, h.flag]
        exact hsame.symm

theorem Calls.Sound.start : Calls.start.Sound cfg :=
  .of (fun _ _ h => by cases h) (iff_of_false (by simp [Calls.start]) (fun ⟨_, h⟩ => by cases h))

/-! ## Runs -/

/-- Over every interleaving of calls and of the ways they end: the breaker is sound in every state
exactly when each probe settles and no other call settles while a probe is running. -/
theorem breaker_sound_iff (steps : List CallStep) :
    Throughout (Calls.exec cfg) (Calls.Sound cfg) .start steps ↔ Along (Calls.exec cfg) Calls.Settled .start steps :=
  throughout_iff_along (I := fun _ => True) (fun _ _ _ => trivial)
    (fun _ step _ h => match step with
      | .call i now => iff_of_true (h.call i now) trivial
      | .finish i outcome now => h.finish_iff i outcome now)
    trivial .start

/-! ## A probe that never settles -/

def CallStep.id : CallStep → Nat
  | .call i _ | .finish i _ _ => i

theorem exec_running_of_ne {step : CallStep} {i : Nat} (h : step.id ≠ i) :
    (s.exec cfg step).running i = s.running i := by
  cases step with
  | call j now =>
    show (s.call cfg j now).running i = _
    unfold Calls.call
    split
    · exact Function.update_of_ne (Ne.symm h) ..
    · rfl
  | finish j outcome now =>
    show (s.finish cfg j outcome now).running i = _
    unfold Calls.finish
    split
    · exact Function.update_of_ne (Ne.symm h) ..
    · rfl

/-- The steps of other calls leave a call where it is. -/
theorem run_running_of_ne {i : Nat} : ∀ {steps : List CallStep} {s : Calls}, (∀ step ∈ steps, step.id ≠ i) →
    (run (Calls.exec cfg) s steps).running i = s.running i
  | [], _, _ => rfl
  | step :: steps, s, h => by
    rw [run_cons, run_running_of_ne fun other hother => h other (List.mem_cons_of_mem _ hother)]
    exact exec_running_of_ne (h step List.mem_cons_self)

/-- Five calls fail, and after the recovery time the probe ends with an error that is not retryable. -/
def stuckRun : List CallStep :=
  [.call 0 0, .finish 0 (.mcpError true) 0, .call 0 0, .finish 0 (.mcpError true) 0, .call 0 0,
    .finish 0 (.mcpError true) 0, .call 0 0, .finish 0 (.mcpError true) 0, .call 0 0, .finish 0 (.mcpError true) 0,
    .call 0 10, .finish 0 (.mcpError false) 10]

/-- No call is running, the flag is set, and no call is admitted any more. -/
theorem probe_never_settles :
    (∀ i, (run (Calls.exec .default) .start stuckRun).running i = none) ∧
      (run (Calls.exec .default) .start stuckRun).breaker = ⟨5, some 0, true⟩ ∧
      ∀ now admitted, CircuitBreaker.admit .default (run (Calls.exec .default) .start stuckRun).breaker now ≠ .ok admitted := by
  have hbreaker : (run (Calls.exec .default) .start stuckRun).breaker = ⟨5, some 0, true⟩ := by decide +kernel
  refine ⟨fun i => ?_, hbreaker, fun now admitted => ?_⟩
  · by_cases hi : i = 0
    · subst hi
      decide +kernel
    · refine run_running_of_ne fun step hstep heq => hi ?_
      have hzero : ∀ step ∈ stuckRun, step.id = 0 := by decide
      rw [← heq, hzero step hstep]
  · rw [hbreaker]
    unfold CircuitBreaker.admit
    split
    · simp
    · simp
    · next h =>
      unfold CircuitBreaker.state at h
      simp only at h
      split at h <;> cases h

end Mesa.Gateway
