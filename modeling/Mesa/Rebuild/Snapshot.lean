/-
The snapshot that a rebuild replays: an immutable copy of the canonical database, read through four
queries, one for each lane. The rows of a query are distinct and totally ordered, so that a lane is
a list and a page of it is a piece of that list.
-/
import Mathlib.Data.Rat.Defs
import Mesa.Foundation.Ordering
import Mesa.Ledger.State
import Mesa.Rebuild.Payload

namespace Mesa.Rebuild

open Mesa.Foundation

/-! ## Exceptions -/

/-- The classes of the exceptions that end a rebuild. -/
inductive ErrorKind
  | valueError | operationNotFound | operationState | operationFenced | operationConflict | integrityError
  | rebuildPreparation | rebuildSourceChanged | rebuildReplay | embeddingProviderConflict | projectionOwnership
  | rebuildCheckpoint | rebuildInterrupted | rebuildVerification | projectionParity | postCutoverRollback
  | generationNotFound | generationConflict | generationFenced
  /-- An exception of code below the rebuild. -/
  | other (name : String)
  deriving DecidableEq

structure RebuildError where
  kind : ErrorKind
  message : String
  deriving DecidableEq

/-! ## Rows -/

structure AssertionRow extends Ledger.Assertion where
  evidenceSpan : String
  jurisdiction : String
  authorityLevel : String
  observedAt : String
  confidence : ℚ
  objectType : String
  representationVersion : String

/-- A row of `v4_assertion_links`, whose key has the type of the relation in it. -/
structure AssertionLink where
  sourceAssertionId : String
  targetAssertionId : String
  relationType : String
  deriving DecidableEq

/-- The embedding columns of a mutation. -/
structure EmbeddingIdentity where
  provider : Option String
  model : Option String
  version : Option String
  dimension : Option Int
  deriving DecidableEq

structure MutationRow where
  mutationId : String
  agentId : String
  embedding : EmbeddingIdentity

instance : Keyed AssertionRow String := ⟨fun a => a.assertionId⟩
instance : Keyed AssertionLink (String × String × String) :=
  ⟨fun l => (l.sourceAssertionId, l.targetAssertionId, l.relationType)⟩
instance : Keyed MutationRow String := ⟨MutationRow.mutationId⟩

/-- The text of a `uuid5`: hexadecimal digits and hyphens, of one length. -/
def IsUuid (id : String) : Prop :=
  id.length = 36 ∧ ∀ c ∈ id.toList, c = '-' ∨ ('0' ≤ c ∧ c ≤ '9') ∨ ('a' ≤ c ∧ c ≤ 'f')

/-- The canonical tables, as far as a rebuild reads them, with the constraints of their columns. -/
structure Snapshot where
  assertions : Table AssertionRow
  entities : Table Ledger.Entity
  mutations : Table MutationRow
  registry : Table Ledger.RegistryRow
  sources : Table Ledger.SourceRow
  links : Table AssertionLink
  /-- `CHECK ((object_entity_id IS NOT NULL) != (literal_value IS NOT NULL))`. -/
  objectTarget : ∀ a ∈ assertions.rows, a.objectEntityId.isSome ≠ a.literalValue.isSome
  /-- The foreign keys of `v4_assertions.subject_id` and `artifact_sources.mutation_id`. -/
  subjects : ∀ a ∈ assertions.rows, entities.hasKey a.subjectId = true
  owners : ∀ x ∈ sources.rows, mutations.hasKey x.key.mutationId = true
  /-- `v4_assertion_id` is a uuid5. -/
  assertionIds : ∀ a ∈ assertions.rows, IsUuid a.assertionId

/-! ## The rows of a lane -/

/-- `_LANES`. -/
inductive ReplayLane
  | vector | graphEntity | graphAssertion | graphLink
  deriving DecidableEq

structure VectorItem where
  tenantId : String
  agentId : String
  assertionId : String
  payloadText : Text
  deriving DecidableEq

structure EntityItem where
  agentId : String
  entityId : String
  canonicalName : String
  deriving DecidableEq

/-- The columns of an assertion that the graph keeps as properties. -/
structure AssertionProperties where
  predicate : String
  mutationId : String
  jurisdiction : String
  authorityLevel : String
  validFrom : String
  validTo : String
  observedAt : String
  confidence : ℚ
  pipelineRunId : String
  status : Ledger.AssertionStatus
  objectType : String
  representationVersion : String
  deriving DecidableEq

structure AssertionItem where
  agentId : String
  assertionId : String
  subjectId : String
  objectEntityId : Option String
  literalValue : Option String
  properties : AssertionProperties
  deriving DecidableEq

structure LinkItem where
  agentId : String
  sourceAssertionId : String
  targetAssertionId : String
  relationType : String
  deriving DecidableEq

@[reducible] def ReplayLane.Item : ReplayLane → Type
  | .vector => VectorItem
  | .graphEntity => EntityItem
  | .graphAssertion => AssertionItem
  | .graphLink => LinkItem

/-- The columns that an assertion selects. -/
def AssertionRow.item (a : AssertionRow) (agentId : String) : AssertionItem :=
  ⟨agentId, a.assertionId, a.subjectId, a.objectEntityId, a.literalValue,
    ⟨a.predicate, a.mutationId, a.jurisdiction, a.authorityLevel, a.validFrom, a.validTo, a.observedAt, a.confidence,
      a.pipelineRunId, a.status, a.objectType, a.representationVersion⟩⟩

namespace Snapshot

variable (s : Snapshot)

/-- `_ACTIVE_OWNERSHIP`. -/
def owned (r : Ledger.RegistryRow) : Bool :=
  decide (r.state = .active) &&
    s.sources.anyWhere fun x => decide (x.key.registry = r.key) && decide (x.state = .active)

/-- An owned row of the registry for one store and kind. -/
def projects (store : Ledger.Lane) (kind : Ledger.ArtifactKind) (r : Ledger.RegistryRow) : Bool :=
  s.owned r && decide (r.key.artifact.storeName = store) && decide (r.key.artifact.artifactKind = kind)

/-- The assertion that a row of the registry is about. -/
def assertionOf (r : Ledger.RegistryRow) : Option AssertionRow :=
  (s.assertions.lookup r.key.artifact.artifactId).filter fun a => decide (a.tenantId = r.key.tenantId)

/-- `_VECTOR_QUERY`, for one row of the registry. -/
def vectorItem (r : Ledger.RegistryRow) : Option VectorItem :=
  if s.projects .vector .assertionVector r then
    (s.assertionOf r).bind fun a => (s.entities.lookup a.subjectId).map fun subject =>
      ⟨r.key.tenantId, r.key.agentId, a.assertionId,
        payloadText subject.canonicalName.toList a.predicate.toList
          ((a.objectEntityId.bind s.entities.lookup).map (·.canonicalName.toList)) (a.literalValue.map (·.toList))
          a.evidenceSpan.toList⟩
  else none

/-- `_GRAPH_ENTITY_QUERY`, for one row of the registry. -/
def entityItem (r : Ledger.RegistryRow) : Option EntityItem :=
  if s.projects .graph .entity r then
    ((s.entities.lookup r.key.artifact.artifactId).filter fun e => decide (e.tenantId = r.key.tenantId)).map fun e =>
      ⟨r.key.agentId, r.key.artifact.artifactId, e.canonicalName⟩
  else none

/-- The agent of the mutation that wrote an assertion. -/
def writer (a : AssertionRow) : Option String := (s.mutations.lookup a.mutationId).map (·.agentId)

/-- `_GRAPH_ASSERTION_QUERY`, for one row of the registry. -/
def assertionItem (r : Ledger.RegistryRow) : Option AssertionItem :=
  if s.projects .graph .assertion r then
    ((s.assertionOf r).filter fun a => decide (s.writer a = some r.key.agentId)).map (·.item r.key.agentId)
  else none

/-- The registry names an assertion for the graph of an agent, and owns it. -/
def graphOwned (tenantId agentId assertionId : String) : Bool :=
  (s.registry.lookup ⟨tenantId, agentId, .graph, .assertion, assertionId⟩).any s.owned

/-- `_GRAPH_LINK_QUERY`, for one link. -/
def linkItem (l : AssertionLink) : Option LinkItem :=
  (s.assertions.lookup l.sourceAssertionId).bind fun source =>
    (s.assertions.lookup l.targetAssertionId).bind fun target =>
      (s.writer source).bind fun agentId =>
        if s.writer target = some agentId ∧ source.tenantId = target.tenantId ∧
            s.graphOwned source.tenantId agentId l.sourceAssertionId ∧
            s.graphOwned target.tenantId agentId l.targetAssertionId then
          some ⟨agentId, l.sourceAssertionId, l.targetAssertionId, l.relationType⟩
        else none

/-- The rows of a lane: `SELECT DISTINCT .. ORDER BY`. -/
def items : (lane : ReplayLane) → List lane.Item
  | .vector => orderBy (fun i : VectorItem => toLex (i.tenantId, toLex (i.agentId, i.assertionId)))
    (s.registry.rows.filterMap s.vectorItem).dedup
  | .graphEntity => orderBy (fun i : EntityItem => toLex (i.agentId, i.entityId))
    (s.registry.rows.filterMap s.entityItem).dedup
  | .graphAssertion => orderBy (fun i : AssertionItem => toLex (i.agentId, i.assertionId))
    (s.registry.rows.filterMap s.assertionItem).dedup
  | .graphLink => orderBy (fun i : LinkItem =>
      toLex (i.agentId, toLex (i.sourceAssertionId, toLex (i.targetAssertionId, i.relationType))))
    (s.links.rows.filterMap s.linkItem).dedup

/-- `counts`. -/
def counts (graphEnabled : Bool) (lane : ReplayLane) : Nat :=
  if graphEnabled ∨ lane = .vector then (s.items lane).length else 0

/-- `fetch`. -/
def fetch (lane : ReplayLane) (offset limit : Nat) : Except RebuildError (List lane.Item) :=
  if 1 ≤ limit ∧ limit ≤ 1000 then .ok (((s.items lane).drop offset).take limit)
  else .error ⟨.valueError, "invalid projection replay page"⟩

/-! ## The checks of a snapshot -/

/-- The end points of an assertion are in the entity lane, for its agent. -/
def hasEndpoint (agentId entityId : String) : Bool :=
  (s.items .graphEntity).any fun e => decide (e.agentId = agentId ∧ e.entityId = entityId)

def missesEndpoint (i : AssertionItem) : Bool :=
  !s.hasEndpoint i.agentId i.subjectId || i.objectEntityId.any fun o => !s.hasEndpoint i.agentId o

/-- A link between owned artifacts of two tenants or of two agents. -/
def crossesScope (l : AssertionLink) (source target : Ledger.RegistryRow) : Bool :=
  decide (source.key.artifact = ⟨.graph, .assertion, l.sourceAssertionId⟩) &&
    decide (target.key.artifact = ⟨.graph, .assertion, l.targetAssertionId⟩) && s.owned source && s.owned target &&
    (s.assertions.lookup l.sourceAssertionId).any fun a => (s.assertions.lookup l.targetAssertionId).any fun b =>
      (s.writer a).any fun sourceAgent => (s.writer b).any fun targetAgent =>
        decide (a.tenantId ≠ b.tenantId ∨ source.key.agentId ≠ target.key.agentId ∨ source.key.agentId ≠ sourceAgent ∨
          target.key.agentId ≠ targetAgent)

/-- `validate_ownership`. -/
def validateOwnership : Except RebuildError Unit :=
  if (s.items .graphAssertion).any s.missesEndpoint ∨
      s.links.anyWhere (fun l => l.relationType ∉ ["CONTRADICTS", "SUPERSEDES"]) ∨
      s.links.anyWhere (fun l => s.registry.anyWhere fun x => s.registry.anyWhere fun y => s.crossesScope l x y) then
    .error ⟨.projectionOwnership, "projection ownership validation failed"⟩
  else .ok ()

/-- The artifacts whose sources say which embedding they have. -/
def embeds (r : Ledger.RegistryRow) : Bool :=
  s.owned r && decide ((r.key.artifact.storeName, r.key.artifact.artifactKind) ∈
    [(Ledger.Lane.sql, Ledger.ArtifactKind.assertion), (.vector, .assertionVector), (.vector, .entityVector)])

/-- `provider_signatures`. -/
def providerSignatures : List EmbeddingIdentity :=
  (((s.registry.select s.embeds).flatMap fun r =>
    (s.sources.select fun x => decide (x.key.registry = r.key) && decide (x.state = .active)).filterMap fun x =>
      (s.mutations.lookup x.key.mutationId).map (·.embedding))).dedup

end Snapshot

/-! ## The provider -/

/-- The manifest of the configured provider: the keys that a rebuild reads, and the text of the rest. -/
structure ProviderManifest where
  graphEnabled : Bool
  embeddingProvider : Option String
  embeddingModel : Option String
  embeddingVersion : Option String
  dimension : Option Int
  embeddingSpaceId : Option String
  rest : String
  deriving DecidableEq

structure ProviderSignature where
  provider : String
  model : String
  version : String
  dimension : Nat
  deriving DecidableEq

/-- A text value that is there and is not empty. -/
def named (value : Option String) : Option String := value.filter (· ≠ "")

/-- `_expected_provider_signature`. -/
def ProviderManifest.expectedSignature (m : ProviderManifest) : Except RebuildError ProviderSignature :=
  match named m.embeddingProvider, named m.embeddingModel, named m.embeddingVersion,
      m.dimension.filter fun d => decide (0 < d) with
  | some provider, some model, some version, some dimension => .ok ⟨provider, model, version, dimension.toNat⟩
  | _, _, _, _ => .error ⟨.embeddingProviderConflict, "embedding provider manifest is incomplete"⟩

/-- An identity that does not name an embedding. -/
def EmbeddingIdentity.incomplete (e : EmbeddingIdentity) : Bool :=
  e.provider.isNone || e.model.isNone || e.version.isNone || e.dimension.all fun d => decide (d ≤ 0)

def ProviderSignature.identity (p : ProviderSignature) : EmbeddingIdentity :=
  ⟨some p.provider, some p.model, some p.version, some p.dimension⟩

/-- `_validate_provider`. -/
def validateProvider (s : Snapshot) (m : ProviderManifest) : Except RebuildError (Option ProviderSignature) :=
  if s.providerSignatures.isEmpty then .ok none
  else if s.providerSignatures.any EmbeddingIdentity.incomplete then
    .error ⟨.embeddingProviderConflict, "canonical vector source has incomplete embedding identity"⟩
  else do
    let expected ← m.expectedSignature
    if m.embeddingSpaceId.isNone ∧ s.providerSignatures ≠ [expected.identity] then
      throw ⟨.embeddingProviderConflict, "embedding provider manifest conflicts"⟩
    else pure (some expected)

end Mesa.Rebuild
