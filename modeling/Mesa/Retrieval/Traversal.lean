/-
The graph search of the provider: up to three rounds of expansion from the seeds, each asking the store for the
assertions around its frontier with a limit, keeping what the scope allows, and scoring the paths that grow; then one
hit for each target, with all of its paths. The store is the part of a graph that belongs to the tenant, under the
tenant's own ids.
-/
import Mesa.Foundation.Ordering
import Mesa.Foundation.Rounding
import Mesa.Retrieval.Graph

namespace Mesa.Retrieval.Traversal

open Mesa.Foundation

/-! ## The store -/

/-- A stored assertion with its endpoints. -/
structure GraphAssertion where
  id : String
  subjectId : String
  objectId : String
  predicate : String
  confidence : Option ℚ
  jurisdiction : String
  deriving DecidableEq

/-- The entities' names and the assertions in the order of their insertion; an id is a primary key, and an assertion
has one subject and one object. -/
structure TenantGraph where
  name : String → String
  assertions : List GraphAssertion
  unique : (assertions.map (·.id)).Nodup

structure ExpandRow where
  srcId : String
  dstId : String
  dstName : String
  assertionId : String
  predicate : String
  confidence : Option ℚ
  jurisdiction : String
  direction : EdgeDirection
  deriving DecidableEq

variable (G : TenantGraph)

/-- The rows of `q_forward`. -/
def TenantGraph.forwardRows (srcIds : List String) : List ExpandRow :=
  (G.assertions.filter fun a => decide (a.subjectId ∈ srcIds) && decide (a.objectId ≠ a.subjectId)).map fun a =>
    ⟨a.subjectId, a.objectId, G.name a.objectId, a.id, a.predicate, a.confidence, a.jurisdiction, .forward⟩

/-- The rows of `q_reverse`. -/
def TenantGraph.reverseRows (srcIds : List String) : List ExpandRow :=
  (G.assertions.filter fun a => decide (a.objectId ∈ srcIds) && decide (a.subjectId ≠ a.objectId)).map fun a =>
    ⟨a.objectId, a.subjectId, G.name a.subjectId, a.id, a.predicate, a.confidence, a.jurisdiction, .reverse⟩

def fanoutLimit (srcIds : List String) : Nat := min 5000 (max 200 (srcIds.length * 32 * 2))

/-- The rows that the store has for the sources. -/
def TenantGraph.allRows (direction : String) (srcIds : List String) : List ExpandRow × List ExpandRow :=
  (if direction = "forward" ∨ direction = "any" then G.forwardRows srcIds else [],
    if direction = "reverse" ∨ direction = "any" then G.reverseRows srcIds else [])

/-- `_step_expand`: `LIMIT` cuts each of the two queries. -/
def TenantGraph.stepExpand (direction : String) (srcIds : List String) : List ExpandRow :=
  if srcIds = [] then []
  else
    (G.allRows direction srcIds).1.take (fanoutLimit srcIds) ++ (G.allRows direction srcIds).2.take (fanoutLimit srcIds)

/-! ## Scores -/

/-- What the scores take of texts. -/
structure PathTexts where
  /-- `_normalize_text`. -/
  normalize : String → String
  /-- `re.findall(r"\w+", text)`. -/
  words : String → List String
  isBlank : String → Bool
  /-- The statutes of the citations that the resolver extracts. -/
  statutes : String → List String
  /-- `resolver.laws`. -/
  laws : List String

/-- A request to the provider, with the direction of its paths. -/
structure TraversalRequest extends GraphRequest ℚ where
  direction : String

variable (R : Rounding) (T : PathTexts) (r : TraversalRequest)

/-- `query_tokens`. -/
def queryTokens : List String :=
  if T.isBlank r.query then [] else ((T.words (T.normalize r.query)).filter fun t => 2 ≤ t.length).reverse.dedup.reverse

/-- The resolver is there. -/
def resolves : Bool := !T.isBlank r.query && r.legalRulesEnabled

/-- `target_statutes`. -/
def targetStatutes : List String := if resolves T r then T.statutes r.query else []

/-- `competing_statutes`. -/
def competingStatutes : List String :=
  if targetStatutes T r = [] then [] else T.laws.filter fun l => decide (l ∉ targetStatutes T r)

/-- The evidence of an edge: predicate, evidence span and jurisdiction. -/
abbrev EdgeText := String × String × String

def tokenBonus (e : EdgeText) (bonus : ℚ) (tok : String) : ℚ :=
  if contains (T.normalize e.1) tok then R.add bonus (R.round (6 / 10))
  else if contains (T.normalize e.2.1) tok then R.add bonus (R.round (3 / 10))
  else bonus

def edgeBonus (bonus : ℚ) (e : EdgeText) : ℚ :=
  let bonus := ((queryTokens T r).take 64).foldl (tokenBonus R T e) bonus
  if targetStatutes T r = [] then bonus
  else
    let found := T.statutes (e.1 ++ " " ++ e.2.1 ++ " " ++ e.2.2)
    let bonus := if found.any (· ∈ targetStatutes T r) then R.add bonus (R.round (4 / 10)) else bonus
    if found.any (· ∈ competingStatutes T r) then R.sub bonus (R.round (8 / 10)) else bonus

/-- `_compute_path_score`. -/
def computePathScore (hop : Nat) (seedId : String) (edges : List EdgeText) (confidences : List ℚ)
    (edgeDirections : List EdgeDirection) : ℚ :=
  let baseLen := R.div 1 (R.add 1 (R.mul (R.round (1 / 2)) (hop - 1 : Nat)))
  let seedScore := ((r.seedScores.find? fun p => decide (p.1 = seedId)).map (·.2)).getD 1
  let seedFactor := R.add (R.round (2 / 10)) (R.mul (R.round (8 / 10)) (max 0 (min 1 seedScore)))
  let predBonus := if queryTokens T r = [] then 0 else edges.foldl (edgeBonus R T r) 0
  let predFactor := max (R.round (2 / 10)) (R.add 1 (min (R.round (5 / 2)) predBonus))
  let minConf := confidences.min?.getD 1
  let evFactor := max (R.round (1 / 10)) (min 1 minConf)
  let dirFactor := R.sub 1 (R.div (R.mul (R.round (15 / 100)) (edgeDirections.count .reverse : Nat)) (hop : Nat))
  R.mul (R.mul (R.mul (R.mul baseLen seedFactor) predFactor) evFactor) dirFactor

/-! ## Paths -/

inductive PathDirection
  | forward | reverse | undirected
  deriving DecidableEq

structure TraversalPath where
  seedId : String
  targetName : String
  hops : Nat
  pathScore : ℚ
  pathAssertions : List String
  pathEntityIds : List String
  direction : PathDirection
  edgeDirections : List EdgeDirection
  predicates : List String
  minConf : ℚ
  confidences : List ℚ
  evidenceSpans : List String
  jurisdictions : List String
  deriving DecidableEq

/-- The entity that the path ends at. -/
def TraversalPath.target (p : TraversalPath) : String := p.pathEntityIds.getLastD ""

abbrev PathKey := String × String × List String

/-- `path_key`. -/
def TraversalPath.key (p : TraversalPath) : PathKey := (p.seedId, p.target, p.pathAssertions)

def ExpandRow.conf (row : ExpandRow) : ℚ := row.confidence.getD 1

/-- The row leads to an allowed entity by an allowed assertion that is sure enough. -/
def usable (row : ExpandRow) : Bool :=
  decide (row.dstId ∈ r.allowedEntityIds) && decide (row.assertionId ∈ r.allowedAssertionIds) &&
    !decide (row.conf < R.round (15 / 100))

/-- `evidence_by_id.get(id, "")`. -/
def evidenceOf (id : String) : String := ((r.assertionEvidence.find? fun e => decide (e.1 = id)).map (·.2)).getD ""

def pathDirection (dirs : List EdgeDirection) : PathDirection :=
  if dirs.all (· = .forward) then .forward else if dirs.all (· = .reverse) then .reverse else .undirected

/-- A path of one edge. -/
def firstPath (row : ExpandRow) : TraversalPath where
  seedId := row.srcId
  targetName := row.dstName
  hops := 1
  pathScore := computePathScore R T r 1 row.srcId [(row.predicate, evidenceOf r row.assertionId, row.jurisdiction)]
    [row.conf] [row.direction]
  pathAssertions := [row.assertionId]
  pathEntityIds := [row.srcId, row.dstId]
  direction := pathDirection [row.direction]
  edgeDirections := [row.direction]
  predicates := [row.predicate]
  minConf := row.conf
  confidences := [row.conf]
  evidenceSpans := [evidenceOf r row.assertionId]
  jurisdictions := [row.jurisdiction]

/-- A path with one edge more; none where its entity or its assertion is in it already. -/
def extendPath (hop : Nat) (row : ExpandRow) (p : TraversalPath) : Option TraversalPath :=
  if row.dstId ∈ p.pathEntityIds ∨ row.assertionId ∈ p.pathAssertions then none
  else
    let predicates := p.predicates ++ [row.predicate]
    let evidenceSpans := p.evidenceSpans ++ [evidenceOf r row.assertionId]
    let jurisdictions := p.jurisdictions ++ [row.jurisdiction]
    let confidences := p.confidences ++ [row.conf]
    let edgeDirections := p.edgeDirections ++ [row.direction]
    some {
      seedId := p.seedId, targetName := row.dstName, hops := hop
      pathScore := computePathScore R T r hop p.seedId (predicates.zip (evidenceSpans.zip jurisdictions)) confidences
        edgeDirections
      pathAssertions := p.pathAssertions ++ [row.assertionId], pathEntityIds := p.pathEntityIds ++ [row.dstId]
      direction := pathDirection edgeDirections, edgeDirections, predicates
      minConf := min p.minConf row.conf, confidences, evidenceSpans, jurisdictions }

/-! ## Rounds -/

/-- The candidates whose key is not among the keys seen before, each key once. -/
def addPaths (seen : List PathKey) (candidates : List TraversalPath) : List TraversalPath :=
  candidates.foldl (fun new p => if p.key ∈ seen ∨ p.key ∈ new.map (·.key) then new else new ++ [p]) []

/-- `comp_seed_ids`. -/
def seedEntities : List String :=
  (r.seedEntityIds.take 20).filter fun s => !T.isBlank s && decide (s ∈ r.allowedEntityIds)

/-- The first round, from the rows of the seeds. -/
def firstRound (rows : List ExpandRow) : List TraversalPath :=
  addPaths [] ((rows.filter (usable R r)).map (firstPath R T r))

/-- The second and the third round, from the paths of the round before. -/
def nextRound (hop : Nat) (prev : List TraversalPath) (seen : List PathKey) (rows : List ExpandRow) :
    List TraversalPath :=
  addPaths seen ((rows.filter (usable R r)).flatMap fun row =>
    (prev.filter fun p => decide (p.target = row.srcId)).filterMap (extendPath R T r hop row))

/-- `frontier_best_score`. -/
def bestScore (paths : List TraversalPath) (id : String) : ℚ :=
  (((paths.filter fun p => decide (p.target = id)).map (·.pathScore)).max?).getD 0

/-- The ends of the paths, the best ones first. -/
def frontierOrder (paths : List TraversalPath) : List String :=
  orderBy (fun id => toLex (-bestScore paths id, id)) (paths.map (·.target)).dedup

def frontier (paths : List TraversalPath) : List String := (frontierOrder paths).take 64

def hop1Paths : List TraversalPath := firstRound R T r (G.stepExpand r.direction (seedEntities T r))

def hop2Paths : List TraversalPath :=
  if r.maxHops < 2 then []
  else
    nextRound R T r 2 (hop1Paths G R T r) ((hop1Paths G R T r).map (·.key))
      (G.stepExpand r.direction (frontier (hop1Paths G R T r)))

def hop3Paths : List TraversalPath :=
  if r.maxHops < 3 then []
  else
    nextRound R T r 3 (hop2Paths G R T r) ((hop1Paths G R T r ++ hop2Paths G R T r).map (·.key))
      (G.stepExpand r.direction (frontier (hop2Paths G R T r)))

/-- The paths of all rounds. -/
def searchPaths : List TraversalPath := hop1Paths G R T r ++ hop2Paths G R T r ++ hop3Paths G R T r

/-! ## Hits -/

/-- The order of the paths of a target. -/
def orderPaths (paths : List TraversalPath) : List TraversalPath :=
  orderBy (fun p => toLex (-p.pathScore, toLex (p.hops, toLex (p.seedId, p.pathAssertions)))) paths

/-- The score of a target from its best path and from how many paths and seeds support it. -/
def supportScore (bestScore : ℚ) (supportCount distinctSeeds : Nat) : ℚ :=
  R.mul bestScore (R.add 1 (min (R.round (1 / 2))
    (R.add (R.mul (R.round (12 / 100)) (supportCount - 1 : Nat)) (R.mul (R.round (8 / 100)) (distinctSeeds - 1 : Nat)))))

structure TraversalHit where
  entityId : String
  entityName : String
  hops : Nat
  score : ℚ
  seedId : String
  pathAssertionIds : List String
  bestPathAssertionIds : List String
  pathEntityIds : List String
  matchedAssertionId : Option String
  supportCount : Nat
  direction : PathDirection
  edgeDirections : List EdgeDirection
  predicates : List String
  distinctSeedCount : Nat
  paths : List TraversalPath
  deriving DecidableEq

/-- The hit of a target, unless its score or the confidence of its best path is too low. -/
def hitOf (id : String) (targetPaths : List TraversalPath) : Option TraversalHit :=
  match orderPaths targetPaths with
  | [] => none
  | best :: rest =>
    let distinctSeeds := ((best :: rest).map (·.seedId)).dedup.length
    let score := supportScore R best.pathScore (best :: rest).length distinctSeeds
    if score < R.round (1 / 10) ∨ best.minConf < R.round (15 / 100) then none
    else some {
      entityId := id, entityName := best.targetName, hops := best.hops, score, seedId := best.seedId
      pathAssertionIds := ((best :: rest).flatMap (·.pathAssertions)).reverse.dedup.reverse
      bestPathAssertionIds := best.pathAssertions, pathEntityIds := best.pathEntityIds
      matchedAssertionId := best.pathAssertions.getLast?, supportCount := (best :: rest).length
      direction := best.direction, edgeDirections := best.edgeDirections, predicates := best.predicates
      distinctSeedCount := distinctSeeds, paths := best :: rest }

/-- `paths_by_target[id]`. -/
def pathsTo (paths : List TraversalPath) (id : String) : List TraversalPath :=
  paths.filter fun p => decide (p.target = id)

/-- The hits before the limit, the best ones first. -/
def orderedHits (paths : List TraversalPath) : List TraversalHit :=
  orderBy (fun h => toLex (-h.score, toLex (h.hops, h.entityId)))
    ((paths.map (·.target)).dedup.filterMap fun id => hitOf R id (pathsTo paths id))

inductive TraversalError
  | maxHops
  | limit
  deriving DecidableEq

/-- `search_v4_graph`. -/
def searchV4Graph : Except TraversalError (List TraversalHit) :=
  if r.seedEntityIds = [] ∨ r.allowedEntityIds = [] ∨ r.allowedAssertionIds = [] ∨ r.limit < 1 then .ok []
  else if r.maxHops ∉ [1, 2, 3] then .error .maxHops
  else if 500 < r.limit then .error .limit
  else if seedEntities T r = [] then .ok []
  else .ok ((orderedHits R (searchPaths G R T r)).take r.limit)

/-- A hit as the callers of the provider read it. -/
def TraversalHit.toGraphHit (h : TraversalHit) : GraphHit ℚ where
  entityId := h.entityId
  paths := h.paths.map fun p => ⟨p.pathAssertions, p.pathEntityIds, p.pathScore⟩
  bestPathAssertionIds := some h.bestPathAssertionIds
  pathAssertionIds := h.pathAssertionIds
  pathEntityIds := h.pathEntityIds
  score := h.score

end Mesa.Retrieval.Traversal
