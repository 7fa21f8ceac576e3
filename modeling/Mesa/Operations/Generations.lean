/-
The generations of the projection stores and the pointer to the one in use. A rebuild stages a
generation, a cutover makes it the active one and retains the one before it, and a rollback goes back
to the retained one. A call is one immediate transaction, fenced by the claim of its operation.
-/
import Mesa.Operations.Repository

namespace Mesa.Operations

open Mesa.Foundation

/-! ## Tables -/

inductive GenerationKind
  | legacy | rebuild
  deriving DecidableEq

inductive Lifecycle
  | staging | active | retained | failed
  deriving DecidableEq

/-- A row of `projection_generations`. -/
structure Generation where
  generationId : String
  generationKind : GenerationKind
  lifecycleState : Lifecycle
  vectorRelativePath : String
  graphRelativePath : String
  sourceManifestHash : Option String
  providerManifestJson : String
  createdByOperationId : Option String
  deriving DecidableEq

instance : Keyed Generation String := ⟨Generation.generationId⟩

/-- The row of `projection_runtime`. -/
structure Runtime where
  activeGenerationId : String
  previousGenerationId : Option String
  fencingToken : Nat
  deriving DecidableEq

/-- The two tables, and the operations that the calls are fenced by. -/
structure ProjectionStore where
  generations : Table Generation
  runtime : Runtime
  operations : Table Operation

def legacyGeneration : Generation where
  generationId := "legacy"
  generationKind := .legacy
  lifecycleState := .active
  vectorRelativePath := "vector.lance"
  graphRelativePath := "kuzu_db"
  sourceManifestHash := none
  providerManifestJson := "\x7b\x7d"
  createdByOperationId := none

/-- The tables as the migration leaves them. -/
def ProjectionStore.initial : ProjectionStore where
  generations := ⟨[legacyGeneration], List.nodup_singleton _⟩
  runtime := ⟨"legacy", none, 0⟩
  operations := .empty

inductive GenerationError
  | valueError (message : String)
  | notFound (message : String)
  | conflict (message : String)
  | fenced (message : String)
  deriving DecidableEq

/-! ## Arguments -/

/-- `_IDENTIFIER_PATTERN`. -/
def isIdentifier : List Char → Bool
  | [] => false
  | c :: rest => c.isAlphanum && decide (rest.length ≤ 63) && rest.all fun d => d.isAlphanum || d ∈ ['_', '-']

/-- `_identifier`. -/
def identifier (value label : String) : Except GenerationError String :=
  if isIdentifier value.toList then .ok value else .error (.valueError s!"{label} is invalid")

/-- `_operation_identifier`. -/
def operationIdentifier (value : String) : Except GenerationError String :=
  if value = "" ∨ 128 < value.length ∨ value.toList.any (·.toNat < 32) then
    .error (.valueError "operation id is invalid")
  else .ok value

/-- `_manifest_hash`. -/
def manifestHash : Option String → Except GenerationError (Option String)
  | none => .ok none
  | some value =>
    let normalized := value.toLower
    if normalized.length = 64 ∧ normalized.toList.all isHexDigit then .ok (some normalized)
    else .error (.valueError "source manifest hash must be a SHA-256 digest")

/-- `_provider_manifest` of a document, given as its canonical text, or `none` when it has none. -/
def providerManifest (text : Option String) : Except GenerationError String :=
  match text with
  | none => .error (.valueError "provider manifest must be JSON serializable")
  | some serialized =>
    if 16384 < serialized.utf8ByteSize then .error (.valueError "provider manifest exceeds the durable size limit")
    else .ok serialized

/-! ## Statements -/

/-- The claim that a call is made under. -/
structure Fence where
  operationId : String
  runnerId : String
  claimToken : String
  fencingToken : Nat

/-- The arguments of a fence after their checks. -/
def Fence.validate (f : Fence) : Except GenerationError Fence := do
  let operationId ← operationIdentifier f.operationId
  let runnerId ← identifier f.runnerId "runner id"
  let claimToken ← operationIdentifier f.claimToken
  pure ⟨operationId, runnerId, claimToken, f.fencingToken⟩

/-- The operation is in this state and its claim is the one of the fence, with a lease that runs. -/
def Fence.holds (f : Fence) (state : OperationState) (x : Operation) (now : Nat) : Bool :=
  decide (x.state = state) && x.claimIs f.runnerId f.claimToken f.fencingToken && x.leaseValid now

/-- `_operation` and `_assert_operation_fence`. -/
def ProjectionStore.fenced (s : ProjectionStore) (f : Fence) (state : OperationState) (now : Nat) :
    Except GenerationError Operation :=
  match s.operations.lookup f.operationId with
  | none => .error (.notFound "projection operation is unavailable")
  | some x =>
    if f.holds state x now then .ok x else .error (.fenced "projection operation lease or fence is stale")

def ProjectionStore.stateOf (s : ProjectionStore) (generationId : String) : Option Lifecycle :=
  (s.generations.lookup generationId).map (·.lifecycleState)

/-- The update of one row's state, when the row is in the state that the statement names. -/
def ProjectionStore.move (s : ProjectionStore) (generationId : String) (source target : Lifecycle) : ProjectionStore :=
  { s with
    generations := s.generations.update
      (fun g => g.generationId = generationId && g.lifecycleState = source) ({ · with lifecycleState := target }) }

/-- The update of the runtime row, with the fence checked once more by the statement itself. -/
def ProjectionStore.point (s : ProjectionStore) (condition : Runtime → Bool) (f : Fence) (now : Nat) (active : String)
    (previous : Option String) (message : String) : Except GenerationError ProjectionStore :=
  if condition s.runtime ∧ (s.operations.lookup f.operationId).any (f.holds .readyToCutover · now) then
    .ok { s with runtime := ⟨active, previous, s.runtime.fencingToken + 1⟩ }
  else .error (.fenced message)

/-! ## Calls -/

structure StagingRequest where
  generationId : String
  fence : Fence
  sourceManifestHash : Option String
  /-- The canonical text of the manifest, if it has one. -/
  providerManifest : Option String

/-- A generation that is staged for the first time. -/
def staged (generationId : String) (manifestHash : Option String) (manifestJson operationId : String) : Generation where
  generationId := generationId
  generationKind := .rebuild
  lifecycleState := .staging
  vectorRelativePath := s!"projection-generations/{generationId}/vector.lance"
  graphRelativePath := s!"projection-generations/{generationId}/kuzu_db"
  sourceManifestHash := manifestHash
  providerManifestJson := manifestJson
  createdByOperationId := some operationId

/-- The runtime row names this generation. -/
def Runtime.references (r : Runtime) (generationId : String) : Bool :=
  decide (r.activeGenerationId = generationId) || decide (r.previousGenerationId = some generationId)

/-- Staging a generation that is there already. -/
def ProjectionStore.restage (s : ProjectionStore) (existing wanted : Generation) :
    Except GenerationError ProjectionStore :=
  if existing.createdByOperationId ≠ wanted.createdByOperationId ∨
      existing.vectorRelativePath ≠ wanted.vectorRelativePath ∨
      existing.graphRelativePath ≠ wanted.graphRelativePath ∨
      existing.sourceManifestHash ≠ wanted.sourceManifestHash ∨
      existing.providerManifestJson ≠ wanted.providerManifestJson then
    .error (.conflict "projection generation identity conflicts")
  else if existing.lifecycleState = .failed then
    if s.runtime.references wanted.generationId then
      .error (.conflict "failed projection generation is still retained")
    else .ok (s.move wanted.generationId .failed .staging)
  else if existing.lifecycleState ≠ .staging then .error (.conflict "projection generation cannot be staged")
  else .ok s

/-- The insert of a new generation, whose paths are unique. -/
def ProjectionStore.insert (s : ProjectionStore) (wanted : Generation) : Except GenerationError ProjectionStore :=
  if s.generations.anyWhere (fun g => decide (g.vectorRelativePath = wanted.vectorRelativePath) ||
      decide (g.graphRelativePath = wanted.graphRelativePath)) then
    .error (.conflict "projection generation paths conflict")
  else .ok { s with generations := s.generations.insertOrIgnore wanted }

/-- `create_staging`. -/
def createStaging (s : ProjectionStore) (q : StagingRequest) (readAt : Nat) : Except GenerationError ProjectionStore := do
  let operationId ← operationIdentifier q.fence.operationId
  let generationId ← identifier q.generationId "generation id"
  if generationId = "legacy" then throw (.valueError "legacy generation id is reserved")
  else
    let fence ← q.fence.validate
    let hash ← manifestHash q.sourceManifestHash
    let manifest ← providerManifest q.providerManifest
    let _ ← s.fenced fence .running readAt
    let wanted := staged generationId hash manifest operationId
    match s.generations.lookup generationId with
    | some existing => s.restage existing wanted
    | none => s.insert wanted

/-- What the caller of a cutover or a rollback has read of the runtime row. -/
structure Expected where
  activeGenerationId : String
  runtimeFencingToken : Nat

def Expected.holds (e : Expected) (r : Runtime) : Bool :=
  decide (r.activeGenerationId = e.activeGenerationId) && decide (r.fencingToken = e.runtimeFencingToken)

/-- `activate`. -/
def activate (s : ProjectionStore) (generationId : String) (fence : Fence) (expected : Expected)
    (readAt writeAt : Nat) : Except GenerationError ProjectionStore := do
  let generation ← identifier generationId "generation id"
  let fence ← fence.validate
  let expectedActive ← identifier expected.activeGenerationId "active generation id"
  let operation ← s.fenced fence .readyToCutover readAt
  if operation.targetGenerationId ≠ some generation then
    throw (.conflict "operation target generation does not match")
  else if ¬ expected.holds s.runtime then throw (.fenced "projection runtime pointer fence is stale")
  else if s.stateOf expectedActive ≠ some .active ∨ s.stateOf generation ≠ some .staging then
    throw (.conflict "projection generations are not cutover-ready")
  else
    ((s.move expectedActive .active .retained).move generation .staging .active).point expected.holds fence writeAt
      generation (some expectedActive) "projection activation was fenced out"

/-- `rollback`. -/
def rollback (s : ProjectionStore) (fence : Fence) (expected : Expected) (readAt writeAt : Nat) :
    Except GenerationError ProjectionStore := do
  let fence ← fence.validate
  let expectedActive ← identifier expected.activeGenerationId "active generation id"
  let operation ← s.fenced fence .readyToCutover readAt
  if operation.targetGenerationId ≠ some expectedActive then
    throw (.conflict "operation target generation does not match active generation")
  else
    match s.runtime.previousGenerationId with
    | none => throw (.conflict "projection runtime has no retained rollback generation")
    | some retained =>
      if ¬ expected.holds s.runtime then throw (.fenced "projection runtime pointer fence is stale")
      else if s.stateOf expectedActive ≠ some .active ∨ s.stateOf retained ≠ some .retained then
        throw (.conflict "projection generations are not rollback-ready")
      else
        ((s.move expectedActive .active .failed).move retained .retained .active).point
          (fun r => expected.holds r && decide (r.previousGenerationId = some retained)) fence writeAt
          retained none "projection rollback was fenced out"

/-! ## Runs -/

/-- The calls, and what other code does to the tables between them. -/
inductive GenerationCall
  | createStaging (request : StagingRequest) (readAt : Nat)
  | activate (generationId : String) (fence : Fence) (expected : Expected) (readAt writeAt : Nat)
  | rollback (fence : Fence) (expected : Expected) (readAt writeAt : Nat)
  /-- The operations are claimed, moved and released. -/
  | operations (operations : Table Operation)
  /-- `assert_active_embedding_identity` writes the manifest of the active generation. -/
  | adopt (providerManifestJson : String)

def ProjectionStore.adopt (s : ProjectionStore) (manifest : String) : ProjectionStore :=
  { s with
    generations := s.generations.update (fun g => decide (g.generationId = s.runtime.activeGenerationId))
      ({ · with providerManifestJson := manifest }) }

def ProjectionStore.transact (s : ProjectionStore) : GenerationCall → Except GenerationError ProjectionStore
  | .createStaging q readAt => Operations.createStaging s q readAt
  | .activate g f e readAt writeAt => Operations.activate s g f e readAt writeAt
  | .rollback f e readAt writeAt => Operations.rollback s f e readAt writeAt
  | .operations t => .ok { s with operations := t }
  | .adopt manifest => .ok (s.adopt manifest)

/-- One step: the call commits, or it rolls back. -/
def ProjectionStore.exec (s : ProjectionStore) (c : GenerationCall) : ProjectionStore := orKeep s (s.transact c)

end Mesa.Operations
