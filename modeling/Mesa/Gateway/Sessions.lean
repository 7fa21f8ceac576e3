/-
The sessions of the V4 service. A session is started for a scope and kept under one text made of the
four ids of the scope; a call that is told that its session is inactive drops it and asks again.
Every call is a task that other calls interleave with at its awaits.
-/
import Mesa.Foundation.Run
import Mesa.Gateway.BoundedCache

namespace Mesa.Gateway

open Mesa.Foundation

/-! ## Scopes -/

/-- The identifiers of a call. -/
structure CallIds where
  tenantId : Option String
  workspaceId : Option String
  actorId : Option String
  datasetId : Option String

/-- The ids of a session; the defaults of the settings are one, too. -/
structure SessionScope where
  tenantId : String
  workspaceId : String
  actorId : String
  datasetId : String
  deriving DecidableEq

/-- `kwargs.get(..) or default`. -/
def orDefault (id : Option String) (default : String) : String := (id.filter (· ≠ "")).getD default

def SessionScope.resolve (defaults : SessionScope) (ids : CallIds) : SessionScope where
  tenantId := orDefault ids.tenantId defaults.tenantId
  workspaceId := orDefault ids.workspaceId defaults.workspaceId
  actorId := orDefault ids.actorId defaults.actorId
  datasetId := orDefault ids.datasetId defaults.datasetId

/-- `_session_cache_key`. -/
def sessionCacheKey (s : SessionScope) : String :=
  s.tenantId ++ ":" ++ s.workspaceId ++ ":" ++ s.actorId ++ ":" ++ s.datasetId

/-! ## Locks -/

/-- `BoundedAsyncKeyedLocks`: the tasks that hold or await a lock, and those that hold one. -/
structure KeyedLocks where
  maxSize : Nat
  users : List (Nat × String)
  holders : List (Nat × String)

/-- The entry of a task in `hold`; a new key needs room. -/
def KeyedLocks.enter (l : KeyedLocks) (t : Nat) (key : String) : Option KeyedLocks :=
  if key ∈ l.users.map (·.2) ∨ (l.users.map (·.2)).eraseDups.length < l.maxSize then
    some { l with users := (t, key) :: l.users }
  else none

def KeyedLocks.free (l : KeyedLocks) (key : String) : Bool := key ∉ l.holders.map (·.2)

def KeyedLocks.acquire (l : KeyedLocks) (t : Nat) (key : String) : KeyedLocks :=
  { l with holders := (t, key) :: l.holders }

def KeyedLocks.leave (l : KeyedLocks) (t : Nat) : KeyedLocks :=
  { l with users := l.users.filter (·.1 ≠ t), holders := l.holders.filter (·.1 ≠ t) }

/-! ## Calls -/

inductive CallKind
  | remember | recall | context | improve
  deriving DecidableEq

/-- The calls that ask for another session after an inactive-session conflict. -/
def CallKind.retries : CallKind → Bool
  | .improve => false
  | _ => true

/-- Where a call is; `conflicted` is the session that it was told to be inactive. -/
inductive CallPhase
  | waiting (conflicted : Option String)
  | starting (conflicted : Option String)
  | requesting (sessionId : String) (conflicted : Option String)

structure ServiceCall where
  kind : CallKind
  scope : SessionScope
  phase : CallPhase

/-- A session that a call has used. -/
structure SessionUse where
  scope : SessionScope
  sessionId : String
  conflicted : Option String

/-- The service and the sessions that the server has started, with what the calls have used. The last
two fields are not read. -/
structure Service where
  defaults : SessionScope
  cache : BoundedLRUCache String String
  locks : KeyedLocks
  calls : Nat → Option ServiceCall
  started : List (String × SessionScope)
  called : List SessionScope
  uses : List SessionUse

/-- `MesaHttpV4Service.__init__`. -/
def Service.start (defaults : SessionScope) : Service :=
  ⟨defaults, .new _ _ 512 (some 3600), ⟨512, [], []⟩, fun _ => none, [], [], []⟩

def Service.goTo (s : Service) (t : Nat) (c : Option ServiceCall) : Service :=
  { s with calls := Function.update s.calls t c }

/-- A call gets a session and makes its request with it. -/
def Service.use (s : Service) (t : Nat) (c : ServiceCall) (sessionId : String) (conflicted : Option String) : Service :=
  { s with
    locks := s.locks.leave t
    uses := ⟨c.scope, sessionId, conflicted⟩ :: s.uses }.goTo t
      (some { c with phase := .requesting sessionId conflicted })

/-- The call ends. -/
def Service.finish (s : Service) (t : Nat) : Service := { s with locks := s.locks.leave t }.goTo t none

/-- `_get_session_id`, up to the lock. -/
def Service.enter (s : Service) (t : Nat) (c : ServiceCall) (conflicted : Option String) : Service :=
  match s.locks.enter t (sessionCacheKey c.scope) with
  | some locks => { s with locks }.goTo t (some { c with phase := .waiting conflicted })
  | none => s.finish t

/-- With the lock: the cached session, or a request for a new one. -/
def Service.acquire (s : Service) (t : Nat) (now : ℚ) : Service :=
  match s.calls t with
  | some ⟨kind, scope, .waiting conflicted⟩ =>
    if s.locks.free (sessionCacheKey scope) then
      match s.cache.get (sessionCacheKey scope) now with
      | (cache, some sessionId) => { s with cache }.use t ⟨kind, scope, .waiting conflicted⟩ sessionId conflicted
      | (cache, none) =>
        { s with cache, locks := s.locks.acquire t (sessionCacheKey scope) }.goTo t
          (some ⟨kind, scope, .starting conflicted⟩)
    else s
  | _ => s

/-- `start_session` answers: the server has started a session under an id that it has not given
before, or has failed. -/
def Service.startSession (s : Service) (t : Nat) (sessionId : Option String) (now : ℚ) : Service :=
  match s.calls t, sessionId with
  | some ⟨kind, scope, .starting conflicted⟩, some id =>
    if id ∈ s.started.map (·.1) then s
    else
      { s with
        started := (id, scope) :: s.started
        cache := s.cache.put (sessionCacheKey scope) id none now }.use t ⟨kind, scope, .starting conflicted⟩ id conflicted
  | some ⟨_, _, .starting _⟩, none => s.finish t
  | _, _ => s

/-- `_invalidate_session`. -/
def BoundedLRUCache.invalidate (c : BoundedLRUCache String String) (key sessionId : String) (now : ℚ) :
    BoundedLRUCache String String :=
  match c.get key now with
  | (c, found) => if found = some sessionId then c.pop key else c

/-- The request answers: a conflict of an inactive session, or anything else. The second request is
the last one. -/
def Service.answer (s : Service) (t : Nat) (inactive : Bool) (now : ℚ) : Service :=
  match s.calls t with
  | some ⟨kind, scope, .requesting sessionId none⟩ =>
    if inactive && kind.retries then
      { s with cache := s.cache.invalidate (sessionCacheKey scope) sessionId now }.enter t
        ⟨kind, scope, .requesting sessionId none⟩ (some sessionId)
    else s.finish t
  | some ⟨_, _, .requesting _ (some _)⟩ => s.finish t
  | _ => s

/-- A new call of a task that has none. -/
def Service.call (s : Service) (t : Nat) (kind : CallKind) (ids : CallIds) : Service :=
  match s.calls t with
  | none =>
    let scope := s.defaults.resolve ids
    { s with called := scope :: s.called }.enter t ⟨kind, scope, .waiting none⟩ none
  | some _ => s

/-- A call is cancelled at an await, or one of its other requests fails. -/
def Service.cancel (s : Service) (t : Nat) : Service :=
  match s.calls t with
  | some _ => s.finish t
  | none => s

inductive ServiceStep
  | call (t : Nat) (kind : CallKind) (ids : CallIds)
  | acquire (t : Nat) (now : ℚ)
  | startSession (t : Nat) (sessionId : Option String) (now : ℚ)
  | answer (t : Nat) (inactive : Bool) (now : ℚ)
  | cancel (t : Nat)

def Service.exec (s : Service) : ServiceStep → Service
  | .call t kind ids => s.call t kind ids
  | .acquire t now => s.acquire t now
  | .startSession t sessionId now => s.startSession t sessionId now
  | .answer t inactive now => s.answer t inactive now
  | .cancel t => s.cancel t

end Mesa.Gateway
