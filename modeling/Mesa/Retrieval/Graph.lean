/-
The graph lane: the seeds of a traversal, the request to the provider, and the validation of what
it answers. A reported path is kept only as a whole: every edge an authorised assertion, every
entity an allowed one, and each assertion joining the two entities around it.
-/
import Mesa.Retrieval.Lanes

namespace Mesa.Retrieval

open Mesa.Foundation Mesa.Foundation.Prog

/-! ## Seeds -/

section Seeds

variable (E : SearchEnv)

/-- `seed_scores[id] = score`. -/
def setSeed (id : String) (score : E.Float) (l : List (String × E.Float)) : List (String × E.Float) :=
  if l.any fun p => decide (p.1 = id) then l.map fun p => if p.1 = id then (id, score) else p
  else l ++ [(id, score)]

/-- `seed_scores[id] = max(seed_scores.get(id, 0.0), score)`. -/
def raiseSeed (id : String) (score : E.Float) (l : List (String × E.Float)) : List (String × E.Float) :=
  setSeed E id (E.max (((l.find? fun p => decide (p.1 = id)).map Prod.snd).getD E.zero) score) l

/-- Subject and object of a ranked assertion become seeds when they are allowed. -/
def seedEndpoints (allowed : List String) (relevance : E.Float) (a : AssertionRow)
    (l : List (String × E.Float)) : List (String × E.Float) :=
  let l := if a.subjectId ∈ allowed then raiseSeed E a.subjectId relevance l else l
  if a.objectEntityId.getD "" ∈ allowed then
    raiseSeed E (a.objectEntityId.getD "") (E.mul relevance E.entityRelevance) l
  else l

/-- `sub in text`. -/
def contains (text sub : String) : Bool := text.toList.tails.any fun l => sub.toList.isPrefixOf l

variable {E} (db : Snapshot) (r : SearchRequest)

/-- The names by which the citations of the query are known. -/
def legalEntityNames (lq : LegalQuery E) : List String :=
  ((match lq.resolver with
    | some resolver => E.extractEntities resolver r.query
    | none => []) ++ lq.citations.flatMap fun c =>
    [c.statuteCode, c.statuteCanonical] ++ (truthy c.article).toList.flatMap fun article =>
      [c.statuteCode ++ " " ++ article, c.statuteCode ++ " m." ++ article]).map E.normalizeIdentityText

/-- The rows of the tenant's entities among the given ids. -/
def Snapshot.tenantEntities (db : Snapshot) (tenantId : String) (ids : List String) : List Ledger.Entity :=
  db.entities.select fun e => decide (e.tenantId = tenantId) && decide (e.entityId ∈ ids)

/-- The first seeds: entities that the citations name. -/
def citedSeeds (lq : LegalQuery E) (allowed : List String) : SearchM E (List (String × E.Float)) :=
  if lq.citations.isEmpty || allowed.isEmpty then pure [] else do
    let _ ← awaiting
    pure (((db.tenantEntities r.tenantId allowed).filter fun e =>
      decide (e.normalizedName ∈ legalEntityNames r lq)).foldl (fun l e => setSeed E e.entityId E.one l) [])

/-- The next: entities whose name is in the query, or the query in it. -/
def namedSeeds (allowed : List String) (cited : List (String × E.Float)) : SearchM E (List (String × E.Float)) :=
  if allowed.isEmpty then pure cited else do
    let _ ← awaiting
    pure (((db.tenantEntities r.tenantId allowed).filter fun e => e.normalizedName != "" &&
      (contains (E.strip (E.normalizeIdentityText r.query)) e.normalizedName ||
        contains e.normalizedName (E.strip (E.normalizeIdentityText r.query)))).foldl
      (fun l e => raiseSeed E e.entityId E.nameRelevance l) cited)

/-- `seed_scores`. -/
def seedScores (lq : LegalQuery E) (allowed : List String) (vector : VectorLane E.Float)
    (lexical : List (PassageRow E.Float)) (entityHits : List String) : SearchM E (List (String × E.Float)) := do
  let cited ← citedSeeds db r lq allowed
  let named ← namedSeeds db r allowed cited
  let ranked := ((vector.ranking.take 8).zipIdx 1).foldl (fun l p =>
    match vector.assertions.find? fun a => decide (a.assertionId = p.1) with
    | some a => seedEndpoints E allowed (E.vectorRelevance p.2) a l
    | none => l) named
  let read := ((lexical.take 8).zipIdx 1).foldl
    (fun l p => seedEndpoints E allowed (E.lexicalRelevance p.2) p.1.row l) ranked
  pure ((entityHits.take 8).foldl (fun l i => raiseSeed E i E.entityRelevance l) read)

/-- `graph_seed_ids`. -/
def seedIds (scores : List (String × E.Float)) : List String :=
  (scores.insertionSort fun x y => ScoreBefore E (x.2, x.1) (y.2, y.1)).map Prod.fst

end Seeds

/-! ## Paths -/

/-- A validated path. -/
structure GraphPath (Float : Type) where
  assertionIds : List String
  entityIds : List String
  edgeDirections : List EdgeDirection
  predicates : List String
  seedId : String
  score : Float
  graphPathId : String

/-- `str(assertion["object_entity_id"])`. -/
def AssertionRow.objectText (a : AssertionRow) : String := a.objectEntityId.getD "None"

/-- The edges of a path over the authorised rows: each assertion has the entities before and after
it as its endpoints, in one direction or the other. -/
def walkEdges (rows : List AssertionRow) : List String → List String → Option (List (EdgeDirection × String))
  | [], _ => some []
  | aid :: aids, x :: y :: entities =>
    match rows.find? fun a => decide (a.assertionId = aid) with
    | none => none
    | some a =>
      if a.subjectId = x ∧ a.objectText = y then
        (walkEdges rows aids (y :: entities)).map fun l => (.forward, a.predicate) :: l
      else if a.subjectId = y ∧ a.objectText = x then
        (walkEdges rows aids (y :: entities)).map fun l => (.reverse, a.predicate) :: l
      else none
  | _ :: _, _ => none

section Paths

variable (E : SearchEnv)

/-- `hit.get("paths") or [{…}]`. -/
def GraphHit.rawPaths {Float : Type} (h : GraphHit Float) : List (RawPath Float) :=
  if h.paths.isEmpty then [⟨h.bestPathAssertionIds.getD h.pathAssertionIds, h.pathEntityIds, h.score⟩] else h.paths

/-- The checks of one reported path. An incomplete proof is rejected, never trimmed. -/
def acceptPath (rows : List AssertionRow) (allowedEntityIds : List String) (p : RawPath E.Float) :
    Option (GraphPath E.Float) :=
  if p.assertionIds.isEmpty || p.assertionIds.any fun i => !rows.any fun a => decide (a.assertionId = i) then none
  else if p.entityIds.length ≠ p.assertionIds.length + 1 ∨ p.entityIds.any (fun i => decide (i ∉ allowedEntityIds))
  then none
  else (walkEdges rows p.assertionIds p.entityIds).map fun edges =>
    { assertionIds := p.assertionIds
      entityIds := p.entityIds
      edgeDirections := edges.map Prod.fst
      predicates := edges.map Prod.snd
      seedId := p.entityIds.headD ""
      score := p.score
      graphPathId := E.stableGraphPathId p.assertionIds p.entityIds (edges.map Prod.fst) (edges.map Prod.snd) }

/-- The accepted paths of the hits, each once. -/
def acceptedPaths (rows : List AssertionRow) (allowedEntityIds : List String)
    (hits : List (GraphHit E.Float)) : List (GraphPath E.Float) :=
  keepFirst (fun p => (p.entityIds, p.assertionIds))
    (((hits.filter fun h => decide (h.entityId ∈ allowedEntityIds)).flatMap GraphHit.rawPaths).filterMap
      (acceptPath E rows allowedEntityIds))

/-- The candidate of a path, its last assertion. -/
def GraphPath.candidateId {Float : Type} (p : GraphPath Float) : String := p.assertionIds.getLastD ""

/-- `paths.sort(key=(-score, hops, entity_ids, assertion_ids))`. -/
def PathBefore (x y : GraphPath E.Float) : Prop :=
  E.le y.score x.score = true ∧ (E.le x.score y.score = true →
    x.assertionIds.length < y.assertionIds.length ∨ x.assertionIds.length = y.assertionIds.length ∧
      (x.entityIds < y.entityIds ∨ x.entityIds = y.entityIds ∧ x.assertionIds ≤ y.assertionIds))

instance : DecidableRel (PathBefore E) := fun x y => by unfold PathBefore; infer_instance

/-- The evidence of one candidate: its paths, best first, and what is summed up of them. -/
structure GraphEvidence (Float : Type) where
  matchedAssertionId : String
  best : GraphPath Float
  graphPaths : List (GraphPath Float)
  seedEntityIds : List String
  targetEntityIds : List String
  supportingAssertionIds : List String
  graphScore : Float

/-- The target of a path. -/
def GraphPath.targetId {Float : Type} (p : GraphPath Float) : String := p.entityIds.getLastD ""

def graphEvidenceOf (paths : List (GraphPath E.Float)) (candidateId : String) : Option (GraphEvidence E.Float) :=
  match (paths.filter fun p => decide (p.candidateId = candidateId)).insertionSort (PathBefore E) with
  | [] => none
  | best :: others =>
    let seeds := sortedSet ((best :: others).map (·.seedId))
    some
      { matchedAssertionId := candidateId
        best := best
        graphPaths := best :: others
        seedEntityIds := seeds
        targetEntityIds := sortedSet ((best :: others).map GraphPath.targetId)
        supportingAssertionIds := ((best :: others).flatMap (·.assertionIds)).eraseDups
        graphScore := E.graphScore best.score (best :: others).length seeds.length }

/-- `graph_lane` with `graph_evidence_by_candidate`. -/
def graphRanking (paths : List (GraphPath E.Float)) : List (GraphEvidence E.Float) :=
  ((paths.map GraphPath.candidateId).eraseDups.filterMap (graphEvidenceOf E paths)).insertionSort fun x y =>
    ScoreBefore E (x.graphScore, x.matchedAssertionId) (y.graphScore, y.matchedAssertionId)

end Paths

/-! ## The lane -/

section Lane

variable {E : SearchEnv} (rt : Runtime E) (db : Snapshot) (r : SearchRequest)

def graphRequest (rows : List AssertionRow) (allowed : List String) (scores : List (String × E.Float)) :
    GraphRequest E.Float where
  agentId := r.agentId
  seedEntityIds := (seedIds scores).take 20
  allowedEntityIds := sortedSet allowed
  allowedAssertionIds := sortedSet (rows.map (·.assertionId))
  assertionEvidence := rows.map fun a => (a.assertionId, a.evidenceSpan)
  maxHops := 3
  limit := providerLimit r.limit
  query := r.query
  seedScores := scores.insertionSort fun x y => x.1 ≤ y.1
  legalRulesEnabled := rt.legalRulesEnabled

/-- The graph lane, empty unless the graph is on, composed and has something to traverse. -/
def graphLane (lq : LegalQuery E) (rows : List AssertionRow) (allowed : List String)
    (vector : VectorLane E.Float) (lexical : List (PassageRow E.Float)) (entityHits : List String) :
    SearchM E (List (GraphEvidence E.Float)) :=
  match r.graphEnabled && rt.graphEnabled, rt.graph, rows with
  | true, some provider, _ :: _ => do
    let scores ← seedScores db r lq allowed vector lexical entityHits
    if scores.isEmpty then pure []
    else if provider.isOperational then do
      let hits ← awaited (provider.searchV4Graph (graphRequest rt r rows allowed scores))
      pure (graphRanking E (acceptedPaths E rows allowed hits))
    else raise (.graphSearch "configured graph backend is unavailable")
  | _, _, _ => pure []

end Lane

end Mesa.Retrieval
