/-
The replay of a snapshot: lane by lane and batch by batch, every row becomes a write to one of the
two staging stores. The program is written over any durable state that holds the stores, and over
what a runner does before a batch and after it.
-/
import Mesa.Foundation.Durable
import Mesa.Provider.Tasks
import Mesa.Rebuild.Snapshot

namespace Mesa.Rebuild

open Mesa.Foundation

/-! ## Staging stores -/

/-- A vector, in the table of its dimension; a staging store has one table. -/
structure VectorRecord (F : Type) where
  nodeId : String
  agentId : String
  embedding : List F
  contentHash : String

instance {F : Type} : Keyed (VectorRecord F) (String × String) := ⟨fun r => (r.nodeId, r.agentId)⟩

/-- The stores of one generation. -/
structure Staging (F : Type) where
  vectors : Table (VectorRecord F)
  graph : Provider.Graph AssertionProperties

variable {F σ : Type}

def Staging.empty : Staging F := ⟨.empty, .empty⟩

/-- What a replay sends to a store. -/
inductive StoreWrite (F : Type)
  /-- `merge_insert` of records. -/
  | upsert (records : List (VectorRecord F))
  | graph (statement : Provider.Statement AssertionProperties)

def upsertRecord (t : Table (VectorRecord F)) (r : VectorRecord F) : Table (VectorRecord F) :=
  t.upsert r fun x => { x with embedding := r.embedding, contentHash := r.contentHash }

def Staging.write (t : Staging F) : StoreWrite F → Staging F
  | .upsert records => { t with vectors := records.foldl upsertRecord t.vectors }
  | .graph statement => { t with graph := t.graph.apply statement }

/-! ## Batches -/

/-- The embedding service for one configuration, and the digest of a text. -/
structure Encoder (F : Type) where
  embed : Text → List F
  digest : Text → String

def VectorItem.record (enc : Encoder F) (i : VectorItem) : VectorRecord F :=
  ⟨i.assertionId, i.agentId, enc.embed i.payloadText, enc.digest i.payloadText⟩

def EntityItem.operation (i : EntityItem) : Provider.Operation AssertionProperties :=
  .insertNode i.entityId i.canonicalName i.agentId

def AssertionItem.operation (i : AssertionItem) : Provider.Operation AssertionProperties :=
  .insertAssertion i.assertionId i.subjectId i.objectEntityId (i.literalValue.map fun _ => "") i.agentId i.properties

/-- `link_assertions`. -/
def LinkItem.statement (i : LinkItem) : Provider.Statement AssertionProperties :=
  .mergeLink i.agentId ⟨Provider.compositeId i.agentId i.sourceAssertionId,
    Provider.compositeId i.agentId i.targetAssertionId, i.relationType⟩

section

variable (put : StoreWrite F → σ → σ)

/-- `insert_node` and `insert_assertion`, outside of a transaction. -/
def insert (caches : Provider.Caches) (op : Provider.Operation AssertionProperties) :
    Durable σ RebuildError Provider.Caches :=
  if op.invalid then Durable.raise ⟨.valueError, "assertion requires exactly one object target"⟩
  else if caches.knows op || caches.stages op then pure caches
  else do
    Durable.forEach (fun statement => Durable.write (put (.graph statement))) op.statements
    pure (caches.finish [] op)

def insertAll (caches : Provider.Caches) :
    List (Provider.Operation AssertionProperties) → Durable σ RebuildError Provider.Caches
  | [] => pure caches
  | op :: ops => do
    let caches ← insert put caches op
    insertAll caches ops

/-- The vector lane of `_apply_batch`. -/
def applyVectors (enc : Encoder F) (expected : Option ProviderSignature) (items : List VectorItem) :
    Durable σ RebuildError Unit :=
  match expected with
  | none => Durable.raise ⟨.embeddingProviderConflict, "vector source has no embedding provider identity"⟩
  | some signature =>
    if items.any fun i => decide ((enc.embed i.payloadText).length ≠ signature.dimension) then
      Durable.raise ⟨.embeddingProviderConflict, "embedding provider returned an incompatible dimension"⟩
    else Durable.write (put (.upsert (items.map (·.record enc))))

/-- `_apply_batch`. -/
def applyBatch (enc : Encoder F) (expected : Option ProviderSignature) (graphEnabled : Bool)
    (caches : Provider.Caches) : (lane : ReplayLane) → List lane.Item → Durable σ RebuildError Provider.Caches
  | .vector, items => do
    applyVectors put enc expected items
    pure caches
  | .graphEntity, items =>
    if graphEnabled then insertAll put caches (items.map EntityItem.operation)
    else Durable.raise ⟨.rebuildReplay, "graph replay target is disabled"⟩
  | .graphAssertion, items =>
    if graphEnabled then insertAll put caches (items.map AssertionItem.operation)
    else Durable.raise ⟨.rebuildReplay, "graph replay target is disabled"⟩
  | .graphLink, items =>
    if graphEnabled then do
      Durable.forEach (fun i => Durable.write (put (.graph (LinkItem.statement i)))) items
      pure caches
    else Durable.raise ⟨.rebuildReplay, "graph replay target is disabled"⟩

end

/-! ## The loop -/

/-- How many rows of each lane have been replayed. -/
abbrev Offsets := ReplayLane → Nat

def lanes : List ReplayLane := [.vector, .graphEntity, .graphAssertion, .graphLink]

/-- The sum over the lanes. -/
def Offsets.sum (o : Offsets) : Nat := (lanes.map o).sum

def Offsets.advance (o : Offsets) (lane : ReplayLane) (n : Nat) : Offsets := Function.update o lane (o lane + n)

/-- What a replay is run with. -/
structure ReplayInputs (σ F : Type) where
  snapshot : Snapshot
  graphEnabled : Bool
  batchSize : Nat
  encoder : Encoder F
  expected : Option ProviderSignature
  put : StoreWrite F → σ → σ
  /-- What happens before the batch at these offsets. -/
  before : ReplayLane → Offsets → Durable σ RebuildError Unit
  /-- What happens when the batch up to these offsets has been applied. -/
  after : Offsets → Durable σ RebuildError Unit

namespace ReplayInputs

variable (q : ReplayInputs σ F)

def count (lane : ReplayLane) : Nat := q.snapshot.counts q.graphEnabled lane

/-- A result or an exception. -/
def ofExcept {α : Type} : Except RebuildError α → Durable σ RebuildError α
  | .ok a => pure a
  | .error e => Durable.raise e

/-- One round of the loop over a lane. -/
def batch (lane : ReplayLane) (o : Offsets) (caches : Provider.Caches) :
    Durable σ RebuildError (Offsets × Provider.Caches) := do
  q.before lane o
  let items ← ofExcept (q.snapshot.fetch lane (o lane) q.batchSize)
  if items.isEmpty then Durable.raise ⟨.rebuildReplay, "projection source page is incomplete"⟩
  else do
    let caches ← applyBatch q.put q.encoder q.expected q.graphEnabled caches lane items
    q.after (o.advance lane items.length)
    pure (o.advance lane items.length, caches)

/-- The loop over a lane; a round advances its offset, so `fuel` rounds are enough when as many rows
are left. -/
def replayLane (lane : ReplayLane) : Nat → Offsets × Provider.Caches →
    Durable σ RebuildError (Offsets × Provider.Caches)
  | 0, p => pure p
  | fuel + 1, p =>
    if p.1 lane < q.count lane then do
      let p ← q.batch lane p.1 p.2
      replayLane lane fuel p
    else pure p

def replayLanes : List ReplayLane → Offsets × Provider.Caches →
    Durable σ RebuildError (Offsets × Provider.Caches)
  | [], p => pure p
  | lane :: rest, p => do
    let p ← q.replayLane lane (q.count lane) p
    replayLanes rest p

end ReplayInputs

/-- The caches of a provider that has just been opened. -/
def noCaches : Provider.Caches := ⟨[], [], [], []⟩

/-- A replay from the start that nothing interrupts, on the stores alone. -/
def replayInputs (s : Snapshot) (graphEnabled : Bool) (batchSize : Nat) (enc : Encoder F)
    (expected : Option ProviderSignature) : ReplayInputs (Staging F) F where
  snapshot := s
  graphEnabled := graphEnabled
  batchSize := batchSize
  encoder := enc
  expected := expected
  put write t := t.write write
  before _ _ := pure ()
  after _ := pure ()

/-- The replay of every lane into a staging generation. -/
def replayAll (s : Snapshot) (graphEnabled : Bool) (batchSize : Nat) (enc : Encoder F)
    (expected : Option ProviderSignature) : Durable (Staging F) RebuildError (Offsets × Provider.Caches) :=
  (replayInputs s graphEnabled batchSize enc expected).replayLanes lanes (fun _ => 0, noCaches)

end Mesa.Rebuild
