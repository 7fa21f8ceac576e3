/-
The scope data of a search: what `_search_v4_memory_uncached` loads once for each scope document,
each item memoised under its own key, from the resolved datasets to the legal context.
-/
import Mesa.Retrieval.Environment

namespace Mesa.Retrieval

open Mesa.Foundation Mesa.Foundation.Prog

/-! ## Queries -/

namespace Snapshot

/-- The registry rows that the datasets and the agent own. -/
def scopeArtifacts (db : Snapshot) (k : ScopeKey) (datasets : List String) : List ArtifactRow :=
  db.registry.select fun r =>
    decide (r.key.tenantId = k.tenantId) && decide (r.state = .active) &&
      (decide (r.key.artifact.artifactKind = .entity) || decide (r.key.artifact.artifactKind = .assertionVector)) &&
      (decide (r.key.artifact.artifactKind ≠ .assertionVector) || decide (r.key.agentId = k.agentId)) &&
      (db.sources.anyWhere fun s => decide (s.key.registry = r.key) && decide (s.datasetId ∈ datasets) &&
        decide (s.state = .active) && db.committedBy k.agentId s.key.mutationId) &&
      (decide (r.key.artifact.artifactKind = .assertionVector) ||
        db.entities.anyWhere fun e => decide (e.entityId = r.key.artifact.artifactId) &&
          decide (e.tenantId = r.key.tenantId) && decide (e.status = .active))

/-- Whether a lane of one of the rows' mutations is not completed. -/
def laneIncomplete (db : Snapshot) (rows : List AssertionRow) (lane : Ledger.Lane) : Bool :=
  db.projections.anyWhere fun p => decide (p.key.projectionName = lane) && decide (p.state ≠ .completed) &&
    rows.any fun a => decide (a.mutationId = p.key.mutationId)

/-- The external id of a physical catalog id, through `UNIQUE(kind, physical_id)`. -/
def externalId (db : Snapshot) (tenantId : String) (kind : CatalogKind) (physicalId : String) : Option String :=
  ((db.catalog.select fun c => decide (c.key.tenantId = tenantId) && decide (c.key.kind = kind) &&
    decide (c.physicalId = physicalId)).head?).map (·.key.externalId)

/-- `audit_query`, ordered by assertion. -/
def auditRows (db : Snapshot) (k : ScopeKey) (rows : List AssertionRow) : List AuditRow :=
  (rows.insertionSort fun a b => a.assertionId ≤ b.assertionId).map fun a =>
    ⟨a, (db.externalId a.tenantId .dataset a.datasetId).getD "", k.agentId⟩

/-- One row of the legal context query. -/
structure LegalRow where
  chunkId : String
  ordinal : Nat
  revisionId : String
  documentId : String
  title : String
  header : String
  mutationId : Option String
  ruleMetadata : String

/-- The chunks of a batch of revisions with their document and their mutations. -/
def legalRows (db : Snapshot) (tenantId : String) (batch : List String) : List LegalRow :=
  (db.chunks.select fun c => decide (c.tenantId = tenantId) && decide (c.revisionId ∈ batch)).flatMap fun c =>
    match db.revisions.lookup c.revisionId with
    | none => []
    | some r =>
      match db.documents.lookup r.documentId with
      | none => []
      | some d =>
        let header := if c.ordinal = 0 then c.contentPayload else ""
        match db.mutations.select fun m => decide (m.chunkId = c.chunkId) && decide (m.tenantId = c.tenantId) with
        | [] => [⟨c.chunkId, c.ordinal, c.revisionId, r.documentId, d.title, header, none,
            if c.ordinal = 0 then "" else "\x7b\x7d"⟩]
        | ms => ms.map fun m => ⟨c.chunkId, c.ordinal, c.revisionId, r.documentId, d.title, header,
            some m.mutationId, if c.ordinal = 0 then m.metadataJson else "\x7b\x7d"⟩

end Snapshot

/-! ## The legal context -/

section LegalContext

variable (E : SearchEnv)

/-- The law ids that the rows of a revision carry. -/
def revisionLaws (rows : List AssertionRow) (revisionId : String) : List String :=
  (rows.filterMap fun a => if a.revisionId = revisionId then (assertionLegalIdentity a.legal).map (·.lawId)
    else none).dedup

/-- A name with the law it was seen with; only revisions of one law teach names. -/
def lawNamePairs (rows : List AssertionRow) (r : Snapshot.LegalRow) : List (String × String) :=
  match revisionLaws rows r.revisionId with
  | [law] => [E.headerName r.header, r.title].filterMap fun name =>
      if name = "" ∨ 200 < name.length then none
      else if 200 < (E.normalizeLawName name).length then none
      else some (E.normalizeLawName name, law)
  | _ => []

/-- The names that were seen with exactly one law. -/
def unambiguousNames (pairs : List (String × String)) : List (String × String) :=
  (pairs.map Prod.fst).eraseDups.filterMap fun name =>
    match ((pairs.filter fun p => decide (p.1 = name)).map Prod.snd).dedup with
    | [law] => some (name, law)
    | _ => none

/-- The decisions that the authorised first chunks of the rows' mutations teach. -/
def taughtDecisions (rows : List AssertionRow) (r : Snapshot.LegalRow) : List ((String × String) × String) :=
  match r.mutationId with
  | none => []
  | some mid =>
    if r.ordinal = 0 then
      (E.decisionRefs r.ruleMetadata).flatMap fun d =>
        (rows.filter fun a => decide (a.mutationId = mid)).map fun a => (d, a.assertionId)
    else []

/-- `chunk_order.get(chunk_id, (document_id, revision_id, 0))` followed by the assertion id. -/
def legalOrderKey (legalRows : List Snapshot.LegalRow) (a : AssertionRow) : String × String × Nat × String :=
  match legalRows.find? fun r => decide (r.chunkId = a.chunkId) with
  | some r => (r.documentId, r.revisionId, r.ordinal, a.assertionId)
  | none => (a.documentId, a.revisionId, 0, a.assertionId)

/-- The order of Python tuples. -/
def legalKeyLe (x y : String × String × Nat × String) : Prop :=
  x.1 < y.1 ∨ x.1 = y.1 ∧ (x.2.1 < y.2.1 ∨ x.2.1 = y.2.1 ∧ (x.2.2.1 < y.2.2.1 ∨ x.2.2.1 = y.2.2.1 ∧
    x.2.2.2 ≤ y.2.2.2))

instance : DecidableRel legalKeyLe := fun x y => by unfold legalKeyLe; infer_instance

/-- The construction of `scope["legal_context"]` from the authorised rows. -/
def buildLegalContext (rows : List AssertionRow) (fetched : List Snapshot.LegalRow) : LegalContext :=
  let authorised := fetched.filter fun r => rows.any fun a => decide (a.chunkId = r.chunkId)
  { names := unambiguousNames (authorised.flatMap (lawNamePairs E rows))
    identities := rows.filterMap fun a => (assertionLegalIdentity a.legal).map fun i => (a.assertionId, i)
    decisions := authorised.flatMap (taughtDecisions E rows)
    orderedAssertions := (rows.insertionSort fun a b =>
      legalKeyLe (legalOrderKey authorised a) (legalOrderKey authorised b)).map (·.assertionId) }

end LegalContext

/-! ## The memoised loads -/

section Loads

variable {E : SearchEnv} (rt : Runtime E) (db : Snapshot) (r : SearchRequest)

def datasetsSlot : Slot E (List String) := ⟨Scope.datasets, fun v s => { s with datasets := some v }⟩
def artifactRowsSlot : Slot E (List ArtifactRow) := ⟨Scope.artifactRows, fun v s => { s with artifactRows := some v }⟩
def assertionRowsSlot : Slot E (List AssertionRow) :=
  ⟨Scope.assertionRows, fun v s => { s with assertionRows := some v }⟩
def degradedSourcesSlot : Slot E (List Ledger.Lane) :=
  ⟨Scope.degradedSources, fun v s => { s with degradedSources := some v }⟩
def auditRowsSlot : Slot E (List AuditRow) := ⟨Scope.auditRows, fun v s => { s with auditRows := some v }⟩
def auditDecisionsSlot : Slot E (List AuditDecision × Nat) :=
  ⟨Scope.auditDecisions, fun v s => { s with auditDecisions := some v }⟩
def legalContextSlot : Slot E LegalContext := ⟨Scope.legalContext, fun v s => { s with legalContext := some v }⟩
def legalResolverSlot : Slot E E.Resolver := ⟨Scope.legalResolver, fun v s => { s with legalResolver := some v }⟩

/-- `CatalogRepository.resolve_id_in_tx` of a dataset, without `create`. -/
def resolveIdInTx (externalId : String) : SearchM E String := do
  let _ ← awaiting
  match db.catalog.lookup ⟨r.tenantId, .dataset, externalId⟩ with
  | some row => pure row.physicalId
  | none => raise (.catalogIdentityNotFound "unknown dataset external identifier in tenant scope")

/-- `scope["datasets"]`. -/
def scopeDatasets : SearchM E (List String) := datasetsSlot.memo do
  let ids ← forEach (resolveIdInTx db r) r.datasetIds
  pure (sortedSet ids)

/-- `scope["artifact_rows"]`. -/
def scopeArtifactRows (datasets : List String) : SearchM E (List ArtifactRow) := artifactRowsSlot.memo do
  let _ ← awaiting
  pure (db.scopeArtifacts r.scopeKey datasets)

/-- The authorised rows at the time at which the query runs. -/
def queryInScope (datasets : List String) : SearchM E (List AssertionRow) := do
  let now ← awaiting
  pure (db.inScopeAssertions E.julianday r.scopeKey datasets now)

/-- `scope["assertion_rows"]`, which `scope["assertions"]` only keys by id. -/
def scopeAssertionRows (datasets : List String) : SearchM E (List AssertionRow) :=
  assertionRowsSlot.memo (queryInScope db r datasets)

/-- One round of the loop that fills `scope["degraded_sources"]`. -/
def degradedLane (datasets : List String) (lane : Ledger.Lane × Bool) : SearchM E (List Ledger.Lane) :=
  if lane.2 then do
    let rows ← queryInScope db r datasets
    pure (if db.laneIncomplete rows lane.1 then [lane.1] else [])
  else pure [lane.1]

/-- `scope["degraded_sources"]`. -/
def scopeDegradedSources (datasets : List String) : SearchM E (List Ledger.Lane) := degradedSourcesSlot.memo do
  let found ← forEach (degradedLane db r datasets) [(.vector, rt.embeddingEnabled), (.graph, rt.graphEnabled)]
  pure found.flatten

/-- `scope["audit_rows"]`. -/
def scopeAuditRows (datasets : List String) : SearchM E (List AuditRow) := auditRowsSlot.memo do
  let rows ← queryInScope db r datasets
  pure (db.auditRows r.scopeKey rows)

def auditDecision (datasets : List String) (x : AuditRow) : AuditDecision where
  assertionId := x.row.assertionId
  tenantId := x.row.tenantId
  datasetId := x.externalDatasetId
  agentId := x.agentId
  jurisdiction := x.row.jurisdiction
  status := x.row.status
  validFrom := x.row.validFrom
  validTo := x.row.validTo
  eligible := decide (x.row.tenantId = r.tenantId) && decide (x.row.datasetId ∈ datasets) &&
    decide (x.agentId = r.agentId)

/-- `scope["audit_decisions"]`: every decision, and how many rows are eligible. -/
def scopeAuditDecisions (datasets : List String) (rows : List AuditRow) :
    SearchM E (List AuditDecision × Nat) :=
  auditDecisionsSlot.memo (pure ((rows.map (auditDecision r datasets)),
    (rows.map (auditDecision r datasets)).countP (·.eligible)))

/-- The part of a search that fills `certification_metadata`. -/
def certify (datasets : List String) : SearchM E Unit :=
  if r.certified then do
    let degraded ← scopeDegradedSources rt db r datasets
    let rows ← scopeAuditRows db r datasets
    let audit ← scopeAuditDecisions r datasets rows
    modify fun w => { w with certification := some ⟨degraded, audit.1, audit.2⟩ }
  else pure ()

/-- `scope["legal_context"]`: the revisions of the authorised rows, five hundred to a query. -/
def scopeLegalContext (rows : List AssertionRow) : SearchM E LegalContext := legalContextSlot.memo do
  let fetched ← forEach (fun batch => do
    let _ ← awaiting
    pure (db.legalRows r.tenantId batch)) ((sortedSet (rows.map (·.revisionId))).toChunks 500)
  pure (buildLegalContext E rows fetched.flatten)

/-- `scope["legal_resolver"]`, built in a thread. -/
def scopeLegalResolver (ctx : LegalContext) : SearchM E E.Resolver := legalResolverSlot.memo do
  let _ ← awaiting
  pure (E.legalEntityResolver ctx.names)

end Loads

end Mesa.Retrieval
