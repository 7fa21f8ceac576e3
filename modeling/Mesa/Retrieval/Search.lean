/-
`_search_v4_memory_uncached`: the lanes are fused by reciprocal ranks, weighted by the legal
factor, cut to the limit and materialised with their provenance.
-/
import Mesa.Retrieval.Graph

namespace Mesa.Retrieval

open Mesa.Foundation Mesa.Foundation.Prog

/-! ## Reciprocal rank fusion -/

section Fusion

variable (E : SearchEnv)

/-- The lanes in the order in which `rrf_fuse_lanes` sums them, `sorted(lane_rankings)`. -/
def fusionOrder : List RetrievalLane := [.assertion, .bm25, .graph, .vector]

structure Fused (Float : Type) where
  candidateId : String
  score : Float
  laneRanks : List (RetrievalLane × Nat)

/-- The one-based rank of a candidate in a lane; repetitions do not count. -/
def laneRank (ranking : List String) (id : String) : Option Nat :=
  (((ranking.eraseDups).zipIdx 1).find? fun p => decide (p.1 = id)).map Prod.snd

def laneWeight (weights : List (RetrievalLane × ℚ)) (lane : RetrievalLane) : ℚ :=
  ((weights.find? fun p => decide (p.1 = lane)).map Prod.snd).getD 1

/-- The ranks and the score of one candidate. -/
def fuseCandidate (k : Int) (weights : List (RetrievalLane × ℚ)) (rankings : RetrievalLane → List String)
    (id : String) : Fused E.Float where
  candidateId := id
  score := fusionOrder.foldl (fun s lane =>
    match laneRank (rankings lane) id with
    | some rank => E.add s (E.rrfContribution (laneWeight weights lane) k rank)
    | none => s) E.zero
  laneRanks := fusionOrder.filterMap fun lane => (laneRank (rankings lane) id).map fun rank => (lane, rank)

/-- `rrf_fuse_lanes`. -/
def rrfFuseLanes (k : Int) (weights : List (RetrievalLane × ℚ)) (rankings : RetrievalLane → List String) :
    Except SearchError (List (Fused E.Float)) :=
  let ids := (fusionOrder.flatMap rankings).eraseDups
  if weights.any fun w => decide (w.2 < 0) then .error (.valueError "lane weight must be non-negative and finite")
  else if k < 1 ∧ ids ≠ [] then .error (.valueError "k must be >= 1 and finite")
  else .ok ((ids.map (fuseCandidate E k weights rankings)).insertionSort fun x y =>
    ScoreBefore E (x.score, x.candidateId) (y.score, y.candidateId))

end Fusion

/-! ## Candidates -/

/-- The raw scores of a candidate, one for each scored lane that ranked it. -/
structure RawScores (Float : Type) where
  vector : Option Float
  bm25 : Option Float
  assertion : Option Float

structure Candidate (Float : Type) where
  candidateId : String
  entityId : String
  assertion : PassageRow Float
  laneRanks : List (RetrievalLane × Nat)
  rawScores : RawScores Float
  vectorArtifact : Option ArtifactRow
  graphEvidence : Option (GraphEvidence Float)
  rrfScore : Float
  legalFactor : Float

namespace Candidate

variable {Float : Type}

/-- `supporting_evidence_ids`. -/
def supporting (c : Candidate Float) : List String :=
  match c.graphEvidence with
  | some g => g.supportingAssertionIds
  | none => []

end Candidate

/-- What the lanes hand to the fusion. -/
structure LaneResults (E : SearchEnv) where
  rows : List AssertionRow
  vectorArtifacts : List ArtifactRow
  legal : LegalQuery E
  vector : VectorLane E.Float
  lexical : List (PassageRow E.Float)
  assertion : List (E.Float × PassageRow E.Float)
  graph : List (GraphEvidence E.Float)

section Candidates

variable {E : SearchEnv} (x : LaneResults E)

/-- A row that no passage query extended. -/
def AssertionRow.bare {Float : Type} (a : AssertionRow) : PassageRow Float := ⟨a, none, none, none⟩

/-- `lane_rankings`. -/
def LaneResults.rankings : RetrievalLane → List String
  | .vector => x.vector.ranking
  | .bm25 => x.lexical.map (·.row.assertionId)
  | .assertion =>
    let ranked := x.assertion.map (·.2.row.assertionId)
    ranked ++ (x.legal.exact.map Prod.fst).filter fun i => decide (i ∉ ranked)
  | .graph => x.graph.map (·.matchedAssertionId)

/-- `candidate_assertions.get(id)`: the later updates win. -/
def LaneResults.candidateAssertion (id : String) : Option (PassageRow E.Float) :=
  match x.assertion.find? fun p => decide (p.2.row.assertionId = id) with
  | some p => some p.2
  | none =>
    match x.lexical.find? fun p => decide (p.row.assertionId = id) with
    | some p => some p
    | none =>
      match x.vector.assertions.find? fun a => decide (a.assertionId = id) with
      | some a => some a.bare
      | none => (x.rows.find? fun a => decide (a.assertionId = id)).map AssertionRow.bare

/-- A text of a record, with the first nonempty fallback. -/
def orElse (s t : String) : String := if s = "" then t else s

/-- One entry of `candidates`; the legal factor is set later. -/
def LaneResults.candidate (f : Fused E.Float) : Option (Candidate E.Float) :=
  (x.candidateAssertion f.candidateId).map fun a =>
    let evidence := x.graph.find? fun g => decide (g.matchedAssertionId = f.candidateId)
    let target := (evidence.map (·.best.targetId)).getD ""
    { candidateId := f.candidateId
      entityId := if f.laneRanks.any fun p => decide (p.1 ≠ .graph) then orElse a.row.subjectId target
        else orElse target a.row.subjectId
      assertion := a
      laneRanks := f.laneRanks
      rawScores :=
        { vector := (x.vector.distances.find? fun p => decide (p.1 = f.candidateId)).map Prod.snd
          bm25 := (x.lexical.find? fun p => decide (p.row.assertionId = f.candidateId)).map fun p =>
            p.bm25.getD E.zero
          assertion := (x.assertion.find? fun p => decide (p.2.row.assertionId = f.candidateId)).map Prod.fst }
      vectorArtifact := if f.laneRanks.any fun p => decide (p.1 = .vector) then
          x.vectorArtifacts.reverse.find? fun g => decide (g.key.artifact.artifactId = f.candidateId)
        else none
      graphEvidence := evidence
      rrfScore := f.score
      legalFactor := E.one }

/-- `cand_entity_ids`. -/
def LaneResults.candidateEntityIds (cands : List (Candidate E.Float)) : List String :=
  (cands.flatMap fun c => c.entityId :: c.assertion.row.subjectId :: (c.assertion.row.objectEntityId.toList ++
    c.supporting.flatMap fun i =>
      match x.rows.find? fun a => decide (a.assertionId = i) with
      | some a => a.subjectId :: a.objectEntityId.toList
      | none => [])).filter (· ≠ "")

end Candidates

/-! ## The legal factor -/

section LegalFactor

variable {E : SearchEnv} (db : Snapshot) (r : SearchRequest)

/-- `cand_entity_names.get(id, "")`. -/
def nameOf (names : List (String × String)) (id : String) : String :=
  ((names.find? fun p => decide (p.1 = id)).map Prod.snd).getD ""

/-- `cand_entity_names`. -/
def candidateNames (ids : List String) : SearchM E (List (String × String)) :=
  if ids.isEmpty then pure [] else do
    let _ ← awaiting
    pure ((db.tenantEntities r.tenantId ids).map fun e => (e.entityId, e.canonicalName))

/-- `cand_texts`. -/
def candidateTexts {Float : Type} (names : List (String × String)) (c : Candidate Float) : List String :=
  let a := c.assertion.row
  [a.documentId, a.sourceRef, a.predicate, a.literalValue.getD "", a.evidenceSpan] ++
    ([nameOf names a.subjectId, nameOf names (a.objectEntityId.getD "")].filter (· ≠ "")) ++
    (if c.entityId ≠ "" ∧ names.any fun p => decide (p.1 = c.entityId) then [nameOf names c.entityId] else [])

def candidateCitationsSlot (k : String × List String) : Slot E (List Citation) :=
  Slot.at Scope.candidateCitations (fun l s => { s with candidateCitations := l }) k

/-- One round of the loop that sets `legal_factor`. -/
def weighCandidate (lq : LegalQuery E) (names : List (String × String)) (c : Candidate E.Float) :
    SearchM E (Candidate E.Float) :=
  if lq.citations.isEmpty then pure c
  else
    match assertionLegalIdentity c.assertion.row.legal with
    | some identity => pure { c with legalFactor := E.legalFactor (some identity) [] lq.citations }
    | none => do
      let texts := candidateTexts names c
      let cites ← (candidateCitationsSlot (c.candidateId, texts)).memo (lq.extract (" ".intercalate texts))
      pure { c with legalFactor := E.legalFactor none cites lq.citations }

/-- `ordered_candidates`: the exact matches first, the rest by weighted score, cut to the limit. -/
def orderCandidates (lq : LegalQuery E) (cands : List (Candidate E.Float)) : List (Candidate E.Float) :=
  let exact := lq.exact.filterMap fun e => cands.find? fun c => decide (c.candidateId = e.1)
  let ordered := cands.insertionSort fun x y =>
    ScoreBefore E (E.mul x.rrfScore x.legalFactor, x.candidateId) (E.mul y.rrfScore y.legalFactor, y.candidateId)
  (exact ++ ordered.filter fun c => decide (c.candidateId ∉ lq.exact.map Prod.fst)).take r.limit

end LegalFactor

/-! ## Provenance -/

/-- A matched or supporting assertion of a result: the stored row under the fields that replace
its own. The catalog fields are external ids; `direction` is `none` for `asserted`. -/
structure Provenance (Float : Type) where
  source : PassageRow Float
  subjectName : Option String
  objectName : Option String
  direction : Option EdgeDirection
  datasetId : Option String
  documentId : Option String
  revisionId : Option String
  chunkId : Option String
  metadata : Option String

structure RetrievalProvenance (Float : Type) where
  laneRanks : List (RetrievalLane × Nat)
  rawScores : RawScores Float
  exactMatch : Option (MatchKind × Nat)
  vector : Option (ArtifactRow × Float × Nat)
  graphEvidence : Option (GraphEvidence Float)
  legalIdentity : Option LegalIdentity
  legalItems : Option String

/-- `scope_identity` of a certified result; tenant and agent are those of the request. -/
structure ScopeIdentity where
  datasetId : String
  jurisdiction : String
  status : Ledger.AssertionStatus

structure SearchResult (Float : Type) where
  entity : Option Ledger.Entity
  candidateId : String
  sourceChunkId : Option String
  documentId : Option String
  evidenceSpan : String
  rawScore : Option Float
  rrfScore : Float
  legalFactor : Float
  finalScore : Float
  provenance : List (Provenance Float)
  retrieval : RetrievalProvenance Float
  rerankText : Option String
  rerankScore : Option Float
  scopeIdentity : Option ScopeIdentity

namespace SearchResult

variable {Float : Type}

/-- `matched_assertions`. -/
def matchedAssertions (x : SearchResult Float) : List (Provenance Float) :=
  x.provenance.filter fun p => decide (p.source.row.assertionId = x.candidateId)

/-- `supporting_assertions`. -/
def supportingAssertions (x : SearchResult Float) : List (Provenance Float) :=
  x.provenance.filter fun p => decide (p.source.row.assertionId ≠ x.candidateId)

end SearchResult

section Materialisation

variable {E : SearchEnv} (rt : Runtime E) (db : Snapshot) (r : SearchRequest)

/-- The stored legal overlay is hidden when the legal rules are off. -/
def visibleRow (a : AssertionRow) : AssertionRow :=
  if rt.legalRulesEnabled then a else { a with legal := ⟨"", "", "", "", "", "", ""⟩ }

/-- `dict(zip(path, directions)).get(id)`: the last crossing of an assertion counts. -/
def bestDirection {Float : Type} (c : Candidate Float) (id : String) : Option EdgeDirection :=
  c.graphEvidence.bind fun g =>
    (((g.best.assertionIds.zip g.best.edgeDirections).reverse.find? fun p => decide (p.1 = id)).map Prod.snd)

/-- The external id of a nonempty physical id. -/
def shownId (kind : CatalogKind) (physicalId : String) : Option String :=
  if physicalId = "" then some "" else db.externalId r.tenantId kind physicalId

/-- The metadata document of a mutation. -/
def metadataOf (mutationId : String) : String :=
  ((db.mutations.lookup mutationId).map (·.metadataJson)).getD "\x7b\x7d"

/-- One materialised assertion of a candidate. -/
def materialise (names : List (String × String)) (c : Candidate E.Float) (p : PassageRow E.Float) :
    Provenance E.Float :=
  let named (id : String) : Option String :=
    if names.any fun n => decide (n.1 = id) then some (nameOf names id) else none
  { source := { p with row := visibleRow rt p.row }
    subjectName := (named p.row.subjectId).or p.subjectName
    objectName := (named (p.row.objectEntityId.getD "")).or p.objectName
    direction := bestDirection c p.row.assertionId
    datasetId := shownId db r .dataset p.row.datasetId
    documentId := shownId db r .document p.row.documentId
    revisionId := shownId db r .revision p.row.revisionId
    chunkId := shownId db r .chunk p.row.chunkId
    metadata := E.publicMetadata (metadataOf db p.row.mutationId) }

/-- `materialized_provenance`: the candidate's own assertion, then its supporting ones. -/
def materialisedProvenance (rows : List AssertionRow) (names : List (String × String))
    (c : Candidate E.Float) : List (Provenance E.Float) :=
  ((c.candidateId :: c.supporting).eraseDups.filterMap fun i =>
    if i = c.candidateId then some c.assertion
    else (rows.find? fun a => decide (a.assertionId = i)).map AssertionRow.bare).map (materialise rt db r names c)

/-- One entry of `results`; a candidate without provenance has none. -/
def buildResult (entities : List Ledger.Entity) (lq : LegalQuery E) (c : Candidate E.Float)
    (provenance : List (Provenance E.Float)) : Option (SearchResult E.Float) :=
  match provenance with
  | [] => none
  | first :: _ => some
    { entity := entities.find? fun e => decide (e.entityId = c.entityId)
      candidateId := c.candidateId
      sourceChunkId := first.chunkId
      documentId := first.documentId
      evidenceSpan := c.assertion.row.evidenceSpan
      rawScore := c.rawScores.vector.or c.rawScores.assertion
      rrfScore := c.rrfScore
      legalFactor := c.legalFactor
      finalScore := E.mul c.rrfScore c.legalFactor
      provenance := provenance
      retrieval :=
        { laneRanks := c.laneRanks
          rawScores := c.rawScores
          exactMatch := ((lq.exact.zipIdx 0).find? fun e => decide (e.1.1 = c.candidateId)).map fun e =>
            (e.1.2, e.2)
          vector := c.vectorArtifact.bind fun g => c.rawScores.vector.bind fun distance =>
            (c.laneRanks.find? fun p => decide (p.1 = .vector)).map fun p => (g, distance, p.2)
          graphEvidence := c.graphEvidence
          legalIdentity := if rt.legalRulesEnabled then assertionLegalIdentity c.assertion.row.legal else none
          legalItems := if rt.legalRulesEnabled then
            E.legalItems (metadataOf db first.source.row.mutationId) else none }
      rerankText := if rt.reranker.isSome then
          (db.mutations.lookup first.source.row.mutationId).map (·.contentPayload) else none
      rerankScore := none
      scopeIdentity := if r.certified then
          some ⟨first.datasetId.getD "", first.source.row.jurisdiction, first.source.row.status⟩ else none }

/-- The active entities of the candidates. -/
def neededEntities (needed : List String) : SearchM E (List Ledger.Entity) :=
  if needed.isEmpty then pure [] else do
    let _ ← awaiting
    pure ((db.tenantEntities r.tenantId needed).filter fun e => decide (e.status = .active))

/-- The last part of a search, from the ordered candidates to the results. -/
def assemble (x : LaneResults E) (allowedEntityIds : List String) (names : List (String × String))
    (ordered : List (Candidate E.Float)) : SearchM E (List (SearchResult E.Float)) := do
  let entities ← neededEntities db r ((ordered.map (·.entityId)).filter fun i => decide (i ∈ allowedEntityIds))
  let proofs := ordered.map fun c => (c, materialisedProvenance rt db r x.rows names c)
  let _ ← awaiting
  let physical := proofs.flatMap fun p => p.2.flatMap fun q =>
    [q.source.row.datasetId, q.source.row.documentId, q.source.row.revisionId, q.source.row.chunkId]
  let _ ← forEach (fun _ => awaiting) ((sortedSet physical).toChunks 500)
  pure (proofs.filterMap fun p => buildResult rt db r entities x.legal p.1 p.2)

end Materialisation

/-! ## The search -/

section Search

variable {E : SearchEnv} (rt : Runtime E) (db : Snapshot) (r : SearchRequest)

/-- The entity ids that the scope allows. -/
def allowedEntities (artifacts : List ArtifactRow) (rows : List AssertionRow) : List String :=
  let raw := (artifacts.filter fun g => decide (g.key.artifact.artifactKind = .entity)).map
    (·.key.artifact.artifactId)
  if r.scopeKey.filtersProvenance then
    raw.filter fun i => rows.any fun a => decide (a.subjectId = i) || decide (a.objectEntityId = some i)
  else raw

/-- The registry rows of compatible assertion vectors. -/
def compatibleVectors (E : SearchEnv) (artifacts : List ArtifactRow) : List ArtifactRow :=
  artifacts.filter fun g => decide (g.key.artifact.artifactKind = .assertionVector) &&
    (E.compatibilityErrors g.metadataJson).isEmpty

/-- `allowed_vector_ids`. -/
def allowedVectors (E : SearchEnv) (artifacts : List ArtifactRow) (rows : List AssertionRow) : List String :=
  ((compatibleVectors E artifacts).map (·.key.artifact.artifactId)).filter fun i =>
    rows.any fun a => decide (a.assertionId = i)

/-- Every candidate lane of the authorised scope. -/
def retrieveLanes (datasets : List String) (artifacts : List ArtifactRow) (rows : List AssertionRow)
    (lq : LegalQuery E) (typed : List String) : SearchM E (LaneResults E) := do
  let allowed := allowedEntities r artifacts rows
  let vector ← vectorLane rt db r (allowedVectors E artifacts rows) allowed rows
  let tokens := queryTokens E r.query lq.citations
  let passages ← passageCandidates db r datasets rows tokens typed
  let lexical ← lexicalLane lq tokens allowed passages
  let entityHits ← entityLane db r datasets tokens allowed
  let ranked ← assertionLane r lq tokens allowed passages
  let graph ← graphLane rt db r lq rows allowed vector lexical entityHits
  pure ⟨rows, compatibleVectors E artifacts, lq, vector, lexical, ranked, graph⟩

/-- Fusion, legal factor, order and materialisation. -/
def fuse (allowed : List String) (x : LaneResults E) : SearchM E (List (SearchResult E.Float)) :=
  match rrfFuseLanes E (r.rrfK.getD rt.rrfK) (r.rrfWeights.getD rt.rrfWeights) x.rankings with
  | .error e => raise e
  | .ok fused => do
    let cands := fused.filterMap x.candidate
    if cands.isEmpty then pure []
    else do
      let names ← candidateNames db r (x.candidateEntityIds cands)
      let weighed ← forEach (weighCandidate x.legal names) cands
      assemble rt db r x allowed names (orderCandidates r x.legal weighed)

/-- The argument check that both entry points make. -/
def SearchRequest.valid (E : SearchEnv) (r : SearchRequest) : Bool :=
  r.tenantId != "" && !r.datasetIds.isEmpty && E.strip r.query != "" && decide (1 ≤ r.limit) &&
    decide (r.limit ≤ 50)

/-- `_search_v4_memory_uncached`, over the scope document of the running search. -/
def searchV4MemoryUncached : SearchM E (List (SearchResult E.Float)) :=
  if r.valid E then do
    let datasets ← scopeDatasets db r
    let artifacts ← scopeArtifactRows db r datasets
    let rows ← scopeAssertionRows db r datasets
    certify rt db r datasets
    let lq ← legalQuery rt db r rows
    let typed ← typedLegalCandidates db r datasets lq
    if (allowedEntities r artifacts rows).isEmpty && rows.isEmpty then pure []
    else do
      let x ← retrieveLanes rt db r datasets artifacts rows lq typed
      fuse rt db r (allowedEntities r artifacts rows) x
  else raise (.valueError "invalid v4 search scope")

end Search

end Mesa.Retrieval
