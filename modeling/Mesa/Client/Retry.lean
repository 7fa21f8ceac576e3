/-
The retry loops of the client. Network failures and refusals with 503 are counted apart, each with a limit of its own,
and what is sent again is either refused without an effect or a request that may be repeated. The loop exists for
blocking and for asynchronous operations, with the same counters, errors and delays.
-/
import Mathlib.Tactic

namespace Mesa.Client

/-! ## Responses -/

/-- A value of a JSON object, with what `str` makes of it; a container has no hash. -/
inductive Value
  | text (t : String)
  | scalar (shown : String)
  | container (shown : String)
  deriving DecidableEq

def Value.shown : Value → String
  | .text t | .scalar t | .container t => t

/-- A JSON object as an error response is read from it. -/
structure ErrorBody where
  detail : Option Value
  error : Option Value
  /-- What validation makes of `status_code`, `none` where that is no integer. -/
  statusCode : Option Int
  /-- `retryable` is missing or a truth value. -/
  retryableValid : Bool

inductive Body
  | invalid
  | object (o : ErrorBody)
  | other

structure Response where
  statusCode : Int
  /-- The header `Retry-After`. -/
  retryAfter : Option String
  text : String
  /-- `response.json()`. -/
  body : Body

/-- The result of `float`. -/
inductive Number
  | nan
  | infinite (negative : Bool)
  | finite (q : ℚ)

/-- `max(0.0, min(value, 10.0))`. -/
def Number.clamp : Number → ℚ
  | .nan => 0
  | .infinite negative => if negative then 0 else 10
  | .finite q => max 0 (min q 10)

structure MesaApiError where
  statusCode : Int
  error : String
  detail : String
  retryAfter : Option ℚ
  deriving DecidableEq

/-- `_RETRYABLE_503_DETAILS`. -/
def retryable503Details : List String := ["canonical_processing_unavailable", "maintenance_pending"]

def namesDetail : Option Value → Bool
  | some (.text t) => decide (t ∈ retryable503Details)
  | _ => false

def hasHash : Option Value → Bool
  | some (.container _) => false
  | _ => true

/-- `_is_retryable_503`; asking a set for a value without a hash raises, which ends the check. -/
def isRetryable503 (r : Response) : Bool :=
  if r.statusCode ≠ 503 then false
  else
    match r.body with
    | .object o => hasHash o.detail && (namesDetail o.detail || namesDetail o.error)
    | _ => false

section

variable (float : String → Option Number)

/-- `_retry_after_seconds`. -/
def retryAfterSeconds (r : Response) : ℚ := ((r.retryAfter.bind float).getD (.finite 5)).clamp

/-- `ErrorResponse(**data)`. -/
def errorResponse (o : ErrorBody) : Option (Int × String × String) :=
  match o.statusCode, o.error, o.detail with
  | some statusCode, some (.text error), some (.text detail) =>
    if 400 ≤ statusCode ∧ statusCode ≤ 599 ∧ o.retryableValid then some (statusCode, error, detail) else none
  | _, _, _ => none

/-- `_parse_api_error`. -/
def parseApiError (r : Response) : MesaApiError :=
  let retryAfter := (r.retryAfter.bind float).map (·.clamp)
  match r.body with
  | .object o =>
    match errorResponse o with
    | some (statusCode, error, detail) => ⟨statusCode, error, detail, retryAfter⟩
    | none => ⟨r.statusCode, "UnknownError", (o.detail.map (·.shown)).getD r.text, retryAfter⟩
  | _ => ⟨r.statusCode, "UnknownError", r.text, retryAfter⟩

end

/-! ## Failures -/

inductive FailureKind
  | connectError
  | connectTimeout
  | otherTimeout
  | otherNetwork
  deriving DecidableEq

/-- A method as a request has it. -/
structure Method where
  name : String
  filled : name ≠ ""
  ascii : ∀ c ∈ name.toList, c.toNat < 128

/-- A network error or a timeout with its request. -/
structure Failure where
  kind : FailureKind
  method : Method
  message : String

def isIdempotent (m : Method) : Bool := decide (m.name.toUpper ∈ ["GET", "HEAD", "OPTIONS", "PUT", "DELETE"])

/-- The connection was not established. -/
def isSafeError (f : Failure) : Bool := decide (f.kind = .connectError ∨ f.kind = .connectTimeout)

inductive Outcome
  | response (r : Response)
  | failure (f : Failure)

inductive Raised
  | api (e : MesaApiError)
  | refused (message : String)
  | exhausted (message : String)
  deriving DecidableEq

def refusal (f : Failure) : Raised :=
  .refused ("Refusing to retry non-idempotent " ++ f.method.name.toUpper ++ " request: " ++ f.message)

def exhaustion (maxRetries : Int) (f : Failure) : Raised :=
  .exhausted ("Max retries (" ++ toString maxRetries ++ ") exceeded. Last error: " ++ f.message)

/-! ## The loops -/

/-- The two counters. -/
structure Attempts where
  network : Nat
  service : Nat

/-- `max_503_attempts`. -/
def max503Attempts : Nat := 3

/-- A loop that has ended, or run out of fuel: how often the operation was sent and how long it slept in between. -/
structure Run where
  sends : Nat
  delays : List ℚ
  result : Option (Except Raised Response)

/-- The send before a rest of the loop, and the sleep after it. -/
def Run.after (delay : ℚ) (rest : Run) : Run := ⟨rest.sends + 1, delay :: rest.delays, rest.result⟩

def Run.ended (result : Except Raised Response) : Run := ⟨1, [], some result⟩

variable (float : String → Option Number) (maxRetries : Int) (baseDelay : ℚ)

/-- `_sync_retry`, from its counters on; `results` are the results of the operation. -/
def syncRetry : Nat → (Nat → Outcome) → Attempts → Run
  | 0, _, _ => ⟨0, [], none⟩
  | fuel + 1, results, a =>
    let next : Attempts → Run := syncRetry fuel fun i => results (i + 1)
    match results 0 with
    | .response r =>
      let a := if isRetryable503 r then { a with service := a.service + 1 } else a
      if isRetryable503 r ∧ a.service < max503Attempts then (next a).after (retryAfterSeconds float r)
      else if 400 ≤ r.statusCode ∧ r.statusCode < 600 then
        let e := parseApiError float r
        if e.statusCode = 503 ∧ e.detail ∈ retryable503Details then
          let a := { a with service := a.service + 1 }
          if a.service < max503Attempts then (next a).after (max 0 (min (e.retryAfter.getD 5) 10))
          else Run.ended (.error (.api e))
        else Run.ended (.error (.api e))
      else Run.ended (.ok r)
    | .failure f =>
      let a := { a with network := a.network + 1 }
      if isIdempotent f.method = false ∧ isSafeError f = false then Run.ended (.error (refusal f))
      else if maxRetries ≤ a.network then Run.ended (.error (exhaustion maxRetries f))
      else (next a).after (baseDelay * 2 ^ (a.network - 1))

/-- `_async_retry`, which awaits the operation and the sleeps. -/
def asyncRetry : Nat → (Nat → Outcome) → Attempts → Run
  | 0, _, _ => ⟨0, [], none⟩
  | fuel + 1, results, a =>
    let next : Attempts → Run := asyncRetry fuel fun i => results (i + 1)
    match results 0 with
    | .response r =>
      let a := if isRetryable503 r then { a with service := a.service + 1 } else a
      if isRetryable503 r ∧ a.service < max503Attempts then (next a).after (retryAfterSeconds float r)
      else if 400 ≤ r.statusCode ∧ r.statusCode < 600 then
        let e := parseApiError float r
        if e.statusCode = 503 ∧ e.detail ∈ retryable503Details then
          let a := { a with service := a.service + 1 }
          if a.service < max503Attempts then (next a).after (max 0 (min (e.retryAfter.getD 5) 10))
          else Run.ended (.error (.api e))
        else Run.ended (.error (.api e))
      else Run.ended (.ok r)
    | .failure f =>
      let a := { a with network := a.network + 1 }
      if isIdempotent f.method = false ∧ isSafeError f = false then Run.ended (.error (refusal f))
      else if maxRetries ≤ a.network then Run.ended (.error (exhaustion maxRetries f))
      else (next a).after (baseDelay * 2 ^ (a.network - 1))

/-! ## One send -/

/-- The detail that the server gives: that of its error body, else the text. -/
def serverDetail (r : Response) : String :=
  match r.body with
  | .object o => (o.detail.map (·.shown)).getD r.text
  | _ => r.text

/-- A refusal with 503 that names an admission state which passes. -/
def RefusesForNow (r : Response) : Prop :=
  r.statusCode = 503 ∧ (serverDetail r ∈ retryable503Details ∨ ∃ o, r.body = .object o ∧ namesDetail o.error = true)

/-- A status code inside of the error body is the response's own. -/
def OwnStatus (r : Response) : Prop := ∀ o code, r.body = .object o → o.statusCode = some code → code = r.statusCode

/-- What may be sent again after this. -/
def Repeatable : Outcome → Prop
  | .response r => RefusesForNow r
  | .failure f => isSafeError f = true ∨ isIdempotent f.method = true

/-- How the last send ends the loop. -/
def Ends (o : Outcome) (result : Except Raised Response) : Prop :=
  match o with
  | .response r =>
    if 400 ≤ r.statusCode ∧ r.statusCode < 600 then
      ∃ e, result = .error (.api e) ∧ e.statusCode = r.statusCode ∧ e.detail = serverDetail r
    else result = .ok r
  | .failure f => result = .error (refusal f) ∨ result = .error (exhaustion maxRetries f)

theorem parseApiError_own {r : Response} (h : OwnStatus r) :
    (parseApiError float r).statusCode = r.statusCode ∧ (parseApiError float r).detail = serverDetail r := by
  unfold parseApiError serverDetail
  cases hbody : r.body with
  | invalid => exact ⟨rfl, rfl⟩
  | other => exact ⟨rfl, rfl⟩
  | object o =>
    dsimp only
    cases herror : errorResponse o with
    | none => exact ⟨rfl, rfl⟩
    | some p =>
      unfold errorResponse at herror
      split at herror
      · next code error detail hcode _ hdetail =>
        split at herror
        · cases herror
          exact ⟨h o code hbody hcode, by rw [hdetail]; rfl⟩
        · cases herror
      · cases herror

theorem refuses_of_isRetryable503 {r : Response} (h : isRetryable503 r = true) : RefusesForNow r := by
  unfold isRetryable503 at h
  split at h
  · cases h
  next hstatus =>
    refine ⟨not_not.1 hstatus, ?_⟩
    split at h
    · next o hbody =>
      rw [Bool.and_eq_true, Bool.or_eq_true] at h
      rcases h.2 with hdetail | herror
      · left
        unfold serverDetail
        rw [hbody]
        dsimp only
        unfold namesDetail at hdetail
        split at hdetail
        · next t ht =>
          rw [ht]
          exact of_decide_eq_true hdetail
        · cases hdetail
      · exact Or.inr ⟨o, hbody, herror⟩
    · cases h

/-- How many more sends there can be after one, by the counters: each of the limits bounds its own retries. -/
def remaining (maxRetries : Int) (a : Attempts) : Nat := (maxRetries.toNat - 1 - a.network) + (2 - a.service)

/-- One send ends the loop, or it may be repeated and brings one of the counters closer to its limit. -/
theorem syncRetry_step {fuel : Nat} {results : Nat → Outcome} {a : Attempts} (hown : ∀ r, results 0 = .response r → OwnStatus r) :
    (∃ result, syncRetry float maxRetries baseDelay (fuel + 1) results a = Run.ended result ∧
      Ends maxRetries (results 0) result) ∨
    ∃ a' delay, Repeatable (results 0) ∧ remaining maxRetries a' < remaining maxRetries a ∧
      syncRetry float maxRetries baseDelay (fuel + 1) results a =
        (syncRetry float maxRetries baseDelay fuel (fun i => results (i + 1)) a').after delay := by
  rw [syncRetry]
  cases hresult : results 0 with
  | failure f =>
    dsimp only
    by_cases hrefused : isIdempotent f.method = false ∧ isSafeError f = false
    · rw [if_pos hrefused]
      exact Or.inl ⟨_, rfl, Or.inl rfl⟩
    rw [if_neg hrefused]
    by_cases hmax : maxRetries ≤ (a.network + 1 : Nat)
    · rw [if_pos hmax]
      exact Or.inl ⟨_, rfl, Or.inr rfl⟩
    rw [if_neg hmax]
    refine Or.inr ⟨_, _, ?_, ?_, rfl⟩
    · rw [not_and_or, Bool.not_eq_false, Bool.not_eq_false] at hrefused
      exact hrefused.symm
    · unfold remaining
      dsimp only
      omega
  | response r =>
    obtain ⟨hstatus, hdetail⟩ := parseApiError_own float (hown r hresult)
    dsimp only
    by_cases hretryable : isRetryable503 r = true
    · have hrefuses := refuses_of_isRetryable503 hretryable
      rw [if_pos hretryable]
      dsimp only
      by_cases hmax : a.service + 1 < max503Attempts
      · rw [if_pos ⟨hretryable, hmax⟩]
        refine Or.inr ⟨_, _, hrefuses, ?_, rfl⟩
        unfold remaining max503Attempts at *
        dsimp only
        omega
      · have herror : 400 ≤ r.statusCode ∧ r.statusCode < 600 := by
          rw [hrefuses.1]
          decide
        rw [if_neg (fun h => hmax h.2), if_pos herror]
        left
        refine ⟨.error (.api (parseApiError float r)), ?_, ?_⟩
        · split
          · rw [if_neg (by omega)]
          · rfl
        · unfold Ends
          dsimp only
          rw [if_pos herror]
          exact ⟨_, rfl, hstatus, hdetail⟩
    · rw [if_neg hretryable, if_neg (fun h => hretryable h.1)]
      by_cases herror : 400 ≤ r.statusCode ∧ r.statusCode < 600
      · have hends : Ends maxRetries (.response r) (.error (.api (parseApiError float r))) := by
          unfold Ends
          dsimp only
          rw [if_pos herror]
          exact ⟨_, rfl, hstatus, hdetail⟩
        rw [if_pos herror]
        by_cases hnamed : (parseApiError float r).statusCode = 503 ∧ (parseApiError float r).detail ∈ retryable503Details
        · rw [if_pos hnamed]
          by_cases hmax : a.service + 1 < max503Attempts
          · rw [if_pos hmax]
            rw [hstatus, hdetail] at hnamed
            refine Or.inr ⟨_, _, ⟨hnamed.1, Or.inl hnamed.2⟩, ?_, rfl⟩
            unfold remaining max503Attempts at *
            dsimp only
            omega
          · rw [if_neg hmax]
            exact Or.inl ⟨_, rfl, hends⟩
        · rw [if_neg hnamed]
          exact Or.inl ⟨_, rfl, hends⟩
      · rw [if_neg herror]
        left
        refine ⟨_, rfl, ?_⟩
        unfold Ends
        dsimp only
        rw [if_neg herror]

/-! ## The whole loop -/

/-- The loop ends within its bound, sends again only what may be repeated, and ends as its last send says. -/
theorem syncRetry_run : ∀ {fuel : Nat} {results : Nat → Outcome} {a : Attempts},
    (∀ i r, results i = .response r → OwnStatus r) → remaining maxRetries a < fuel →
    ∃ result, (syncRetry float maxRetries baseDelay fuel results a).result = some result ∧
      1 ≤ (syncRetry float maxRetries baseDelay fuel results a).sends ∧
      (syncRetry float maxRetries baseDelay fuel results a).sends ≤ remaining maxRetries a + 1 ∧
      (∀ i, i + 1 < (syncRetry float maxRetries baseDelay fuel results a).sends → Repeatable (results i)) ∧
      Ends maxRetries (results ((syncRetry float maxRetries baseDelay fuel results a).sends - 1)) result
  | 0, _, _, _, hfuel => absurd hfuel (Nat.not_lt_zero _)
  | fuel + 1, results, a, hown, hfuel => by
    rcases syncRetry_step float maxRetries baseDelay (hown 0) with ⟨result, heq, hends⟩ | ⟨a', delay, hrepeat, hless, heq⟩
    · rw [heq]
      refine ⟨result, rfl, le_rfl, Nat.succ_le_succ (Nat.zero_le _), fun i hi => ?_, hends⟩
      exact absurd hi (by simp [Run.ended])
    · obtain ⟨result, hresult, hpos, hbound, hall, hends⟩ := syncRetry_run
        (fun i => hown (i + 1)) (show remaining maxRetries a' < fuel by omega)
      rw [heq]
      generalize syncRetry float maxRetries baseDelay fuel (fun i => results (i + 1)) a' = rest at *
      refine ⟨result, hresult, Nat.succ_le_succ (Nat.zero_le _), ?_, fun i hi => ?_, ?_⟩
      · unfold Run.after
        dsimp only
        omega
      · cases i with
        | zero => exact hrepeat
        | succ i => exact hall i (Nat.lt_of_succ_lt_succ hi)
      · have hlast : (rest.after delay).sends - 1 = rest.sends - 1 + 1 := by
          unfold Run.after
          dsimp only
          omega
        rw [hlast]
        exact hends

/-- The two loops send and sleep alike. -/
theorem asyncRetry_eq : ∀ (fuel : Nat) (results : Nat → Outcome) (a : Attempts),
    asyncRetry float maxRetries baseDelay fuel results a = syncRetry float maxRetries baseDelay fuel results a
  | 0, _, _ => rfl
  | fuel + 1, results, a => by
    have hrest : asyncRetry float maxRetries baseDelay fuel (fun i => results (i + 1)) =
        syncRetry float maxRetries baseDelay fuel fun i => results (i + 1) :=
      funext fun a => asyncRetry_eq fuel (fun i => results (i + 1)) a
    rw [asyncRetry, syncRetry, hrest]

/-- Either loop ends after at most two sends more than there are retries, sends again only what may be repeated, and
ends as its last send says; the asynchronous one sends, sleeps and ends as the other one does. -/
theorem retry_safe (results : Nat → Outcome) (hown : ∀ i r, results i = .response r → OwnStatus r) {fuel : Nat}
    (hfuel : maxRetries.toNat + 3 ≤ fuel) :
    asyncRetry float maxRetries baseDelay fuel results ⟨0, 0⟩ = syncRetry float maxRetries baseDelay fuel results ⟨0, 0⟩ ∧
      ∃ result, (syncRetry float maxRetries baseDelay fuel results ⟨0, 0⟩).result = some result ∧
        (1 ≤ maxRetries → ((syncRetry float maxRetries baseDelay fuel results ⟨0, 0⟩).sends : Int) ≤ maxRetries + 2) ∧
        (∀ i, i + 1 < (syncRetry float maxRetries baseDelay fuel results ⟨0, 0⟩).sends → Repeatable (results i)) ∧
        Ends maxRetries (results ((syncRetry float maxRetries baseDelay fuel results ⟨0, 0⟩).sends - 1)) result := by
  have hremaining : remaining maxRetries ⟨0, 0⟩ = maxRetries.toNat - 1 + 2 := rfl
  obtain ⟨result, hresult, -, hbound, hall, hends⟩ := syncRetry_run float maxRetries baseDelay (a := ⟨0, 0⟩) hown
    (show remaining maxRetries ⟨0, 0⟩ < fuel by omega)
  refine ⟨asyncRetry_eq float maxRetries baseDelay fuel results ⟨0, 0⟩, result, hresult, fun hpos => ?_, hall, hends⟩
  omega

/-- A refusal for now, then an answer. -/
def refusedOnce (i : Nat) : Outcome :=
  if i = 0 then .response ⟨503, none, "maintenance_pending", .invalid⟩ else .response ⟨200, none, "", .other⟩

theorem retry_safe_refusedOnce :
    asyncRetry (fun _ => none) 1 1 4 refusedOnce ⟨0, 0⟩ = syncRetry (fun _ => none) 1 1 4 refusedOnce ⟨0, 0⟩ ∧
      ∃ result, (syncRetry (fun _ => none) 1 1 4 refusedOnce ⟨0, 0⟩).result = some result ∧
        ((1 : Int) ≤ 1 → ((syncRetry (fun _ => none) 1 1 4 refusedOnce ⟨0, 0⟩).sends : Int) ≤ 1 + 2) ∧
        (∀ i, i + 1 < (syncRetry (fun _ => none) 1 1 4 refusedOnce ⟨0, 0⟩).sends → Repeatable (refusedOnce i)) ∧
        Ends 1 (refusedOnce ((syncRetry (fun _ => none) 1 1 4 refusedOnce ⟨0, 0⟩).sends - 1)) result := by
  refine retry_safe (fun _ => none) 1 1 refusedOnce (fun i r hr o code hbody _ => ?_) (by decide)
  unfold refusedOnce at hr
  split at hr
  · cases hr
    cases hbody
  · cases hr
    cases hbody

end Mesa.Client
