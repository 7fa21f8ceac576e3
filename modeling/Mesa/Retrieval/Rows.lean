/-
What a search reads: the columns of the canonical database that the retrieval path selects, the
request with its scope, and the predicate that decides which assertions the scope authorises. The
row types extend those of the ledger by the text columns the ledger operations do not look at. An
index row of `v4_assertions_fts` is named by its assertion: the triggers keep its rowid the one of
the assertion.
-/
import Mesa.Ledger.State
import Mathlib.Data.Rat.Defs

namespace Mesa.Retrieval

open Mesa.Foundation

/-! ## Rows -/

/-- The canonical legal identity columns of `v4_assertions`. -/
structure LegalColumns where
  lawId : String
  statuteCode : String
  articleId : String
  paragraphId : String
  clauseId : String
  legalVersionId : String
  legalIdentitySource : String
  deriving DecidableEq

structure AssertionRow extends Ledger.Assertion where
  sourceRef : String
  evidenceSpan : String
  jurisdiction : String
  confidence : ℚ
  legal : LegalColumns

/-- A row of `v4_assertions_fts`, or of a scoped copy of it. -/
structure FtsRow where
  assertionId : String
  predicate : String
  evidenceSpan : String
  literalValue : String
  sourceRef : String
  subjectName : String
  objectName : String
  chunkPayload : String
  deriving DecidableEq

structure MutationRow extends Ledger.MutationScope where
  state : Ledger.MutationState
  contentPayload : String
  metadataJson : String

structure ArtifactRow where
  key : Ledger.RegistryKey
  state : Ledger.ArtifactState
  metadataJson : String
  deriving DecidableEq

inductive CatalogKind
  | workspace | dataset | document | revision | chunk
  deriving DecidableEq

/-- The primary key of `v4_catalog_identities`. -/
structure CatalogKey where
  tenantId : String
  kind : CatalogKind
  externalId : String
  deriving DecidableEq

structure CatalogIdentity where
  key : CatalogKey
  physicalId : String

structure ChunkRow extends Ledger.Chunk where
  contentPayload : String

structure DocumentRow extends Ledger.Document where
  title : String

instance : Keyed AssertionRow String := ⟨fun a => a.assertionId⟩
instance : Keyed FtsRow String := ⟨FtsRow.assertionId⟩
instance : Keyed MutationRow String := ⟨fun m => m.mutationId⟩
instance : Keyed ArtifactRow Ledger.RegistryKey := ⟨ArtifactRow.key⟩
instance : Keyed CatalogIdentity CatalogKey := ⟨CatalogIdentity.key⟩
instance : Keyed ChunkRow String := ⟨fun c => c.chunkId⟩
instance : Keyed DocumentRow String := ⟨fun d => d.documentId⟩

/-- One snapshot of the canonical database, as far as a search reads it. -/
structure Snapshot where
  assertions : Table AssertionRow
  assertionsFts : Table FtsRow
  /-- Also the content of `v4_entities_fts`, an external-content index over this table. -/
  entities : Table Ledger.Entity
  mutations : Table MutationRow
  registry : Table ArtifactRow
  sources : Table Ledger.SourceRow
  catalog : Table CatalogIdentity
  projections : Table Ledger.Projection
  chunks : Table ChunkRow
  revisions : Table Ledger.Revision
  documents : Table DocumentRow
  /-- `v4_entity_id` is a uuid5, so no id reads like the text of NULL. -/
  entityIds : ∀ e ∈ entities.rows, e.entityId ≠ "None"

/-! ## Requests -/

inductive RetrievalLane
  | vector | bm25 | assertion | graph
  deriving DecidableEq

/-- The keyword arguments of `search_v4_memory`; `certified` says that the caller hands over a
`certification_metadata` document to be filled. -/
structure SearchRequest where
  tenantId : String
  agentId : String
  datasetIds : List String
  query : String
  limit : Nat
  jurisdiction : Option String
  validAt : Option String
  validFrom : Option String
  validTo : Option String
  rrfK : Option Int
  rrfWeights : Option (List (RetrievalLane × ℚ))
  graphEnabled : Bool
  certified : Bool

/-- The key of a cached scope: every argument that selects the authorised rows. -/
structure ScopeKey where
  tenantId : String
  datasetIds : List String
  agentId : String
  jurisdiction : Option String
  validAt : Option String
  validFrom : Option String
  validTo : Option String
  deriving DecidableEq

/-- `sorted(set(l))`. -/
def sortedSet (l : List String) : List String := l.dedup.insertionSort (· ≤ ·)

def SearchRequest.scopeKey (r : SearchRequest) : ScopeKey where
  tenantId := r.tenantId
  datasetIds := sortedSet r.datasetIds
  agentId := r.agentId
  jurisdiction := r.jurisdiction
  validAt := r.validAt
  validFrom := r.validFrom
  validTo := r.validTo

/-- The exceptions of a search. -/
inductive SearchError
  | valueError (message : String)
  | catalogIdentityNotFound (message : String)
  | keyError (key : String)
  | vectorSearch (message : String)
  | graphSearch (message : String)
  | semanticRuntimeDisabled (message : String)
  | runtimeError (message : String)
  /-- `asyncio.CancelledError`, or whatever else ends an `await` from outside. -/
  | interrupted (what : String)
  deriving DecidableEq

/-! ## The authorised rows -/

/-- A truthy optional text. -/
def truthy : Option String → Option String
  | some s => if s = "" then none else some s
  | none => none

namespace ScopeKey

/-- `historical_query = bool(valid_at or valid_from or valid_to)`. -/
def historical (k : ScopeKey) : Bool :=
  (truthy k.validAt).isSome || (truthy k.validFrom).isSome || (truthy k.validTo).isSome

/-- Whether `provenance_filters` is nonempty. -/
def filtersProvenance (k : ScopeKey) : Bool := (truthy k.jurisdiction).isSome || k.historical

end ScopeKey

section Authorisation

variable {Clock : Type} (julianday : Clock → String → Option Int)

/-- `julianday(x) <= julianday(y)`, which is not true when one of the two is no time. -/
def notAfter (now : Clock) (x y : String) : Bool :=
  match julianday now x, julianday now y with
  | some i, some j => decide (i ≤ j)
  | _, _ => false

/-- `valid_from = '' OR julianday(valid_from) <= julianday(t)`. -/
def startedBy (now : Clock) (a : AssertionRow) (t : String) : Bool :=
  a.validFrom == "" || notAfter julianday now a.validFrom t

/-- `valid_to = '' OR julianday(valid_to) >= julianday(t)`. -/
def notEndedBy (now : Clock) (a : AssertionRow) (t : String) : Bool :=
  a.validTo == "" || notAfter julianday now t a.validTo

/-- The conjunction of `provenance_filters`. -/
def ScopeKey.withinWindow (k : ScopeKey) (now : Clock) (a : AssertionRow) : Bool :=
  (match truthy k.jurisdiction with
    | some j => a.jurisdiction == j
    | none => true) &&
  (match truthy k.validAt with
    | some t => startedBy julianday now a t && notEndedBy julianday now a t
    | none => true) &&
  (match truthy k.validFrom with
    | some t => notEndedBy julianday now a t
    | none => true) &&
  (match truthy k.validTo with
    | some t => startedBy julianday now a t
    | none => true)

/-- `assertion_status_sql`. -/
def ScopeKey.admitsStatus (k : ScopeKey) (a : AssertionRow) : Bool :=
  decide (a.status = .active) || (k.historical && decide (a.status = .superseded) && a.validTo != "")

/-- The mutation of a row is committed and belongs to the agent. -/
def Snapshot.committedBy (db : Snapshot) (agentId mutationId : String) : Bool :=
  db.mutations.anyWhere fun m => decide (m.mutationId = mutationId) && decide (m.agentId = agentId) &&
    decide (m.state = .committed)

/-- The WHERE clause of `in_scope_assertion_query`, with the datasets already resolved. -/
def Snapshot.authorises (db : Snapshot) (k : ScopeKey) (datasets : List String) (now : Clock)
    (a : AssertionRow) : Bool :=
  decide (a.tenantId = k.tenantId) && decide (a.datasetId ∈ datasets) && k.admitsStatus a &&
    db.committedBy k.agentId a.mutationId && k.withinWindow julianday now a

/-- `in_scope_assertion_query`. -/
def Snapshot.inScopeAssertions (db : Snapshot) (k : ScopeKey) (datasets : List String) (now : Clock) :
    List AssertionRow :=
  db.assertions.select (db.authorises julianday k datasets now)

end Authorisation

end Mesa.Retrieval
