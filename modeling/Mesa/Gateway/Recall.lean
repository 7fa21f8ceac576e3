/-
Recalls through the gateway. A recall is answered from a bounded cache, or by a fetch from the
backend that recalls with the same key share while it is in flight; a write that completes clears the
cache. The fetches, the recalls that wait for them and the writes interleave at every await.
-/
import Mathlib.Data.List.Sort
import Mathlib.Data.String.Basic
import Mesa.Foundation.Run
import Mesa.Gateway.BoundedCache

namespace Mesa.Gateway

open Mesa.Foundation

/-! ## Arguments -/

/-- The binding and the client that a recall is made for. -/
structure RecallScope where
  bindingId : String
  clientId : String
  tenantId : String
  workspaceId : String
  datasetId : String
  principalId : String
  deriving DecidableEq

/-- The context profile of a binding. -/
structure RecallProfile where
  maxRecords : Int
  maxTokens : Int
  memoryTypes : List String
  revision : Int

/-- The arguments of the tool, after their types are checked. -/
structure RecallArguments where
  query : String
  mode : String
  limit : Option Int
  tokenBudget : Option Int
  memoryTypes : Option (List String)

/-- The arguments of `_fetch_recall`. -/
structure FetchArguments where
  scope : RecallScope
  query : String
  limit : Int
  mode : String
  tokenBudget : Int
  includeTypes : Option (List String)
  deriving DecidableEq

/-- The defaults and bounds of `_recall`. -/
def RecallArguments.resolve (a : RecallArguments) (scope : RecallScope) (profile : RecallProfile) : FetchArguments where
  scope
  query := a.query
  limit := min (max (a.limit.getD (if a.mode = "context" then profile.maxRecords else 8)) 1) 8
  mode := a.mode
  tokenBudget := min (max (a.tokenBudget.getD (if a.mode = "context" then profile.maxTokens else 2500)) 1) 2500
  includeTypes := a.memoryTypes.or (if a.mode = "context" then some profile.memoryTypes else none)

/-- What the digest of the cache key is taken of. -/
structure RecallKey where
  bindingId : String
  query : String
  mode : String
  limit : Int
  tokenBudget : Int
  memoryTypes : List String
  policyVersion : String
  profileRevision : Int
  deriving DecidableEq

/-- The key of a recall, where `casefold` is the method of strings. -/
def FetchArguments.key (casefold : String → String) (a : FetchArguments) (policyVersion : String) (revision : Int) :
    RecallKey where
  bindingId := a.scope.bindingId
  query := casefold a.query
  mode := a.mode
  limit := a.limit
  tokenBudget := a.tokenBudget
  memoryTypes := (a.includeTypes.getD []).insertionSort (· ≤ ·)
  policyVersion
  profileRevision := revision

/-! ## Fetches -/

/-- The backend and the texts of the answer. `v4Recall` is what the backend returns at a moment; `M` are
its memories and `F` the formatted ones. -/
structure RecallEnv (M F : Type) where
  casefold : String → String
  v4Recall : Nat → (tenantId workspaceId datasetId actorId query : String) → Int → List M
  memoryType : M → Option String
  content : M → String
  format : M → F
  render : List M → String

inductive RecallResult (F : Type)
  | search (memories : List F) (total : Nat)
  | context (contextText : String) (memories : List F) (estimatedTokens : Int) (truncated : Bool)
  deriving DecidableEq

variable {M F : Type}

/-- The memories that the budget has room for, each content once, and what is left of the budget. -/
def pack (content : M → String) : List String → Int → List M → List M × Int
  | _, remaining, [] => ([], remaining)
  | seen, remaining, m :: rest =>
    if content m = "" ∨ content m ∈ seen ∨ remaining < (content m).length then pack content seen remaining rest
    else
      let (packed, left) := pack content (content m :: seen) (remaining - (content m).length) rest
      (m :: packed, left)

/-- The memories of these types, if there are types. -/
def RecallEnv.ofTypes (env : RecallEnv M F) (types : Option (List String)) (results : List M) : List M :=
  match types with
  | some types => results.filter fun m => (env.memoryType m).any (· ∈ types)
  | none => results

/-- `_fetch_recall`, when the backend answers at this moment. -/
def RecallEnv.fetchRecall (env : RecallEnv M F) (moment : Nat) (a : FetchArguments) : RecallResult F :=
  let results := env.v4Recall moment a.scope.tenantId a.scope.workspaceId a.scope.datasetId a.scope.principalId
    a.query a.limit
  let memories := env.ofTypes a.includeTypes results
  if a.mode ≠ "context" then .search (memories.map env.format) memories.length
  else
    let (packed, remaining) := pack env.content [] (a.tokenBudget * 4) memories
    .context (env.render packed) (packed.map env.format) ((a.tokenBudget * 4 - remaining + 3) / 4)
      (decide (packed.length < memories.length))

/-! ## The service -/

/-- A result in the cache. All but the result itself is not read: what it is the answer to, when the backend
gave it, and when it was stored. -/
structure Cached (F : Type) where
  result : RecallResult F
  arguments : FetchArguments
  read : Nat
  stored : Nat × ℚ

/-- A fetch that runs, that the backend has answered, that has returned, and that has raised. -/
inductive FetchStatus (F : Type)
  | running
  | read (moment : Nat) (result : RecallResult F)
  | done (moment : Nat) (result : RecallResult F)
  | failed

/-- The answer of the backend, if there is one by now. -/
def FetchStatus.answer : FetchStatus F → Option (Nat × RecallResult F)
  | .read moment result | .done moment result => some (moment, result)
  | .running | .failed => none

structure FetchTask (F : Type) where
  taskId : Nat
  arguments : FetchArguments
  status : FetchStatus F

/-- A recall that awaits a task. `since` is the moment of the client's last write before the lookup. -/
structure Waiting where
  recallId : Nat
  key : RecallKey
  arguments : FetchArguments
  taskId : Nat
  since : Nat

structure InFlight where
  key : RecallKey
  taskId : Nat

instance : Keyed (FetchTask F) Nat := ⟨FetchTask.taskId⟩
instance : Keyed Waiting Nat := ⟨Waiting.recallId⟩
instance : Keyed InFlight RecallKey := ⟨InFlight.key⟩

/-- An answer, with the moment and the time it is given at; `stored` is when its result was cached, if it
comes from the cache. -/
structure RecallAnswer (F : Type) where
  arguments : FetchArguments
  result : RecallResult F
  since : Nat
  moment : Nat
  now : ℚ
  stored : Option (Nat × ℚ)
  deriving DecidableEq

/-- The service. Every step is a moment of its own; the last three fields are not read: the moments of the last
writes, the keys that there were, and the answers. -/
structure RecallService (F : Type) where
  moment : Nat
  clock : ℚ
  cache : BoundedLRUCache RecallKey (Cached F)
  tasks : Table (FetchTask F)
  inflight : Table InFlight
  waiting : Table Waiting
  written : String → Nat
  asked : List (RecallKey × FetchArguments)
  answers : List (RecallAnswer F)

def RecallService.start (F : Type) (clock : ℚ) : RecallService F :=
  ⟨0, clock, .new _ _ 512 (some 45), .empty, .empty, .empty, fun _ => 0, [], []⟩

/-! ## Steps -/

/-- A recall awaits the task with this number. -/
def RecallService.join (s : RecallService F) (recallId : Nat) (key : RecallKey) (a : FetchArguments) (taskId : Nat) :
    RecallService F :=
  { s with waiting := s.waiting.insertOrIgnore ⟨recallId, key, a, taskId, s.written a.scope.clientId⟩ }

/-- A recall has its key: the cached answer, the task in flight, or a new task. -/
def RecallService.lookup (s : RecallService F) (recallId taskId : Nat) (key : RecallKey) (a : FetchArguments) :
    RecallService F :=
  if s.waiting.hasKey recallId ∨ s.tasks.hasKey taskId then s
  else
    match s.cache.get key s.clock with
    | (cache, some found) =>
      { s with
        cache
        asked := (key, a) :: s.asked
        answers := ⟨a, found.result, s.written a.scope.clientId, s.moment, s.clock, some found.stored⟩ :: s.answers }
    | (cache, none) =>
      match s.inflight.lookup key with
      | some flight => { s with cache, asked := (key, a) :: s.asked }.join recallId key a flight.taskId
      | none =>
        { s with
          cache
          tasks := s.tasks.insertOrIgnore ⟨taskId, a, .running⟩
          inflight := s.inflight.insertOrIgnore ⟨key, taskId⟩
          asked := (key, a) :: s.asked }.join recallId key a taskId

def FetchTask.to (status : FetchStatus F) (t : FetchTask F) : FetchTask F := { t with status }

/-- The backend answers a fetch. -/
def RecallService.read (env : RecallEnv M F) (s : RecallService F) (taskId : Nat) : RecallService F :=
  match s.tasks.lookup taskId with
  | some ⟨_, a, .running⟩ =>
    { s with tasks := s.tasks.update (·.taskId = taskId) (FetchTask.to (.read s.moment (env.fetchRecall s.moment a))) }
  | _ => s

/-- The task of a fetch returns. -/
def RecallService.finish (s : RecallService F) (taskId : Nat) : RecallService F :=
  match s.tasks.lookup taskId with
  | some ⟨_, _, .read moment result⟩ =>
    { s with tasks := s.tasks.update (·.taskId = taskId) (FetchTask.to (.done moment result)) }
  | _ => s

/-- The task of a fetch raises or is cancelled. -/
def RecallService.fail (s : RecallService F) (taskId : Nat) : RecallService F :=
  match s.tasks.lookup taskId with
  | some ⟨_, _, .running⟩ | some ⟨_, _, .read _ _⟩ =>
    { s with tasks := s.tasks.update (·.taskId = taskId) (FetchTask.to .failed) }
  | _ => s

/-- A recall goes on after its task: the key leaves the tasks in flight, whatever task it has by now. -/
def RecallService.leave (s : RecallService F) (w : Waiting) : RecallService F :=
  { s with
    inflight := s.inflight.delete fun f => decide (f.key = w.key)
    waiting := s.waiting.delete fun x => decide (x.recallId = w.recallId) }

def RecallService.resume (s : RecallService F) (recallId : Nat) : RecallService F :=
  match s.waiting.lookup recallId with
  | none => s
  | some w =>
    match s.tasks.lookup w.taskId with
    | some ⟨_, fetched, .done moment result⟩ =>
      { s.leave w with
        cache := s.cache.put w.key ⟨result, fetched, moment, s.moment, s.clock⟩ (some 45) s.clock
        answers := ⟨w.arguments, result, w.since, s.moment, s.clock, none⟩ :: s.answers }
    | some ⟨_, _, .failed⟩ => s.leave w
    | _ => s

/-- A write of a client completes: `_run_operation` returns and clears the cache, or a status poll finds
that the mutation is committed. -/
def RecallService.write (s : RecallService F) (clientId : String) (invalidates : Bool) : RecallService F :=
  { s with
    written := Function.update s.written clientId s.moment
    cache := if invalidates then s.cache.clear else s.cache }

inductive RecallStep
  | ask (recallId taskId : Nat) (arguments : RecallArguments) (scope : RecallScope) (profile : RecallProfile)
    (policyVersion : String)
  | read (taskId : Nat)
  | finish (taskId : Nat)
  | fail (taskId : Nat)
  | resume (recallId : Nat)
  | write (clientId : String) (invalidates : Bool)
  | tick (now : ℚ)

def RecallService.step (env : RecallEnv M F) (s : RecallService F) : RecallStep → RecallService F
  | .ask recallId taskId a scope profile policyVersion =>
    let fetched := a.resolve scope profile
    s.lookup recallId taskId (fetched.key env.casefold policyVersion profile.revision) fetched
  | .read taskId => s.read env taskId
  | .finish taskId => s.finish taskId
  | .fail taskId => s.fail taskId
  | .resume recallId => s.resume recallId
  | .write clientId invalidates => s.write clientId invalidates
  | .tick now => { s with clock := max s.clock now }

def RecallService.exec (env : RecallEnv M F) (s : RecallService F) (step : RecallStep) : RecallService F :=
  { s with moment := s.moment + 1 }.step env step

end Mesa.Gateway
