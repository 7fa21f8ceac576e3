/-
Adaptive retrieval: the original query first; where its result is weak, one call of a planner for at most two other
wordings, a retrieval for each of them, and the results fused by their ranks. What the planner or a further retrieval
fails to give leaves the original result as it is.
-/
import Mesa.Retrieval.Fusion

namespace Mesa.Retrieval.Adaptive

open Mesa.Foundation Mesa.Retrieval.Fusion

/-! ## The planner -/

def maxExpansionQueries : Nat := 2

def maxQueryLength : Nat := 4096

/-- What the planner asks of a text. -/
structure QueryTexts where
  /-- `normalize_planner_query`. -/
  normalize : String → String
  /-- Whether `strip()` leaves nothing. -/
  isBlank : String → Bool
  /-- `_has_invalid_control_character`. -/
  hasControl : String → Bool
  /-- `_citation_identities`: statute codes and articles. -/
  citations : String → List (String × Option String)

/-- What the adapter answers; an answer that the schema does not admit is `invalid`. -/
inductive Reply
  | queries (queries : List String)
  | invalid
  | unavailable
  | cancelled

inductive PlannerStatus
  | notNeeded
  | invalidQuery
  | invalidOutput
  | unavailable
  | noValidExpansions
  | expanded
  deriving DecidableEq

structure PlannerResult where
  expansions : List String
  status : PlannerStatus

variable (T : QueryTexts)

/-- `_introduces_citation`. -/
def introducesCitation (original expansion : String) : Bool :=
  (T.citations expansion).any fun c =>
    decide (c.1 ∉ (T.citations original).map Prod.fst) || (c.2.isSome && decide (c ∉ T.citations original))

/-- The texts among the answers that are new, each normalised, in order. -/
def acceptQueries (original : String) : List String → List String → List String
  | _, [] => []
  | seen, raw :: queries =>
    let normalized := T.normalize raw
    if T.isBlank raw ∨ maxQueryLength < raw.length ∨ T.hasControl raw then acceptQueries original seen queries
    else if normalized = "" ∨ maxQueryLength < normalized.length ∨ normalized ∈ seen then
      acceptQueries original seen queries
    else if introducesCitation T original normalized then acceptQueries original seen queries
    else normalized :: acceptQueries original (normalized :: seen) queries

/-- `BoundedQueryPlanner.plan`; a cancellation goes through. -/
def plan (adapter : String → Reply) (query : String) : Except Unit PlannerResult :=
  let original := T.normalize query
  if original = "" ∨ maxQueryLength < original.length ∨ T.hasControl query then .ok ⟨[], .invalidQuery⟩
  else
    match adapter original with
    | .cancelled => .error ()
    | .unavailable => .ok ⟨[], .unavailable⟩
    | .invalid => .ok ⟨[], .invalidOutput⟩
    | .queries queries =>
      let accepted := acceptQueries T original [original] queries
      if accepted = [] then .ok ⟨[], .noValidExpansions⟩ else .ok ⟨accepted, .expanded⟩

/-! ## Fusion -/

structure QueryFusion where
  queryOrigins : List (String × Nat)
  queryFusionScore : ℚ
  deriving DecidableEq

/-- A retrieved candidate. An id that is missing or not true is `none`; of the origins only texts are read. -/
structure Candidate (D : Type) where
  assertionId : Option String
  evidenceId : Option String
  candidateId : Option String
  origins : List String
  fusion : Option QueryFusion
  rest : D
  deriving DecidableEq

variable {D : Type}

/-- `_candidate_identity`. -/
def Candidate.identity (c : Candidate D) : String :=
  (([c.assertionId, c.evidenceId, c.candidateId].filterMap fun i => i).find? fun i => decide (i ≠ "")).getD ""

/-- `retrieval_is_weak`. -/
def retrievalIsWeak (candidates : List (Candidate D)) : Bool :=
  (candidates.take 3).all fun c => decide ((firstHits (c.origins.filter fun o => decide (o ≠ ""))).length < 2)

/-- A retrieval of one of the queries. -/
structure QueryResult (D : Type) where
  queryId : String
  candidates : List (Candidate D)

/-- The identities of a result, each once; candidates without one do not count. -/
def ranking (candidates : List (Candidate D)) : List String :=
  firstHits ((candidates.map (·.identity)).filter fun i => decide (i ≠ ""))

/-- `QUERY_RRF_WEIGHTS`. -/
def queryRrfWeights : List (String × ℚ) := [("Q0", 1), ("Q1", 1 / 2), ("Q2", 1 / 2)]

/-- `V4_RRF_DEFAULT_K`. -/
def rrfDefaultK : ℚ := 60

theorem set_distinct (L : LaneRankings) (lane : String) (ranking : List String) :
    ((if lane ∈ L.lanes.map Prod.fst then L.lanes.map fun l => if l.1 = lane then (lane, ranking) else l
      else L.lanes ++ [(lane, ranking)]).map Prod.fst).Nodup := by
  split
  · have hkeys : (L.lanes.map fun l => if l.1 = lane then (lane, ranking) else l).map Prod.fst = L.lanes.map Prod.fst := by
      rw [List.map_map]
      refine List.map_congr_left fun l _ => ?_
      by_cases h : l.1 = lane
      · simp [h]
      · simp [h]
    rw [hkeys]
    exact L.distinct
  · next h =>
    rw [List.map_append]
    exact List.nodup_append_comm.1 (List.nodup_cons.2 ⟨h, L.distinct⟩)

/-- `rankings[lane] = ranking`. -/
def setLane (L : LaneRankings) (lane : String) (ranking : List String) : LaneRankings where
  lanes :=
    if lane ∈ L.lanes.map Prod.fst then L.lanes.map fun l => if l.1 = lane then (lane, ranking) else l
    else L.lanes ++ [(lane, ranking)]
  distinct := set_distinct L lane ranking

def noLanes : LaneRankings := ⟨[], List.nodup_nil⟩

/-- `rankings`. -/
def rankings (results : List (QueryResult D)) : LaneRankings :=
  results.foldl (fun L r => setLane L r.queryId (ranking r.candidates)) noLanes

/-- `candidates_by_identity`: the first candidate of an identity. -/
def candidateOf (results : List (QueryResult D)) (identity : String) : Option (Candidate D) :=
  (results.flatMap (·.candidates)).find? fun c => decide (c.identity = identity)

/-- The ranks of a candidate by query. -/
def queryOrigins (queryRanks : List (String × Nat)) : List (String × Nat) :=
  ["Q0", "Q1", "Q2"].filterMap fun q => queryRanks.find? fun r => decide (r.1 = q)

/-- The final order: by score, with candidates of the original query first, then by identity. -/
def fusedOrder (c : Candidate D) : ℚ ×ₗ (Nat ×ₗ String) :=
  toLex (-((c.fusion.map (·.queryFusionScore)).getD 0),
    toLex (if ((c.fusion.map (·.queryOrigins)).getD []).any (fun o => decide (o.1 = "Q0")) then 0 else 1, c.identity))

/-- `fuse_query_results`; the rankings rank nothing that is not among the candidates. -/
def fuseQueryResults (results : List (QueryResult D)) : Except FusionError (List (Candidate D)) := do
  let fused ← rrfFuseLanes rrfDefaultK (some queryRrfWeights) (rankings results)
  .ok (orderBy fusedOrder (fused.filterMap fun f =>
    (candidateOf results f.candidateId).map fun c => { c with fusion := some ⟨queryOrigins f.laneRanks, f.score⟩ }))

/-! ## Retrieval -/

/-- How a retrieval ends. -/
inductive Outcome (D : Type)
  | results (candidates : List (Candidate D))
  | failed
  | cancelled

structure Diagnostics where
  plannerUsed : Bool
  plannerStatus : PlannerStatus
  expansionCount : Nat
  retrievalCount : Nat
  expansionFailureCount : Nat
  deriving DecidableEq

/-- The result, with the queries that were sent to the store. -/
structure AdaptiveRetrieval (D : Type) where
  candidates : List (Candidate D)
  diagnostics : Diagnostics
  asked : List String

inductive AdaptiveError
  | retrieval
  | cancelled
  | fusion (e : FusionError)

def queryId (index : Nat) : String := "Q" ++ toString index

/-- The retrievals for the expansions from an index on: what they gave, how many failed and what was asked. -/
def runExpansions (search : Nat → String → Outcome D) :
    Nat → List String → Except AdaptiveError (List (QueryResult D) × Nat × List String)
  | _, [] => .ok ([], 0, [])
  | index, expansion :: expansions =>
    match search index expansion with
    | .cancelled => .error .cancelled
    | .failed => do
      let (results, failures, asked) ← runExpansions search (index + 1) expansions
      .ok (results, failures + 1, expansion :: asked)
    | .results candidates => do
      let (results, failures, asked) ← runExpansions search (index + 1) expansions
      .ok (⟨queryId index, candidates⟩ :: results, failures, expansion :: asked)

/-- The result of the expansions of a plan. -/
def expand (search : Nat → String → Outcome D) (query : String) (original : List (Candidate D)) (p : PlannerResult) :
    Except AdaptiveError (AdaptiveRetrieval D) :=
  let expansions := p.expansions.take maxExpansionQueries
  if expansions = [] then .ok ⟨original, ⟨true, p.status, 0, 1, 0⟩, [query]⟩
  else do
    let (results, failures, asked) ← runExpansions search 1 expansions
    let diagnostics := ⟨true, p.status, expansions.length, 1 + asked.length, failures⟩
    if results = [] then .ok ⟨original, diagnostics, query :: asked⟩
    else
      match fuseQueryResults (⟨"Q0", original⟩ :: results) with
      | .error e => .error (.fusion e)
      | .ok candidates => .ok ⟨candidates, diagnostics, query :: asked⟩

/-- `retrieve`, with a planner's adapter or without; `search i` is the store's answer to the retrieval `i`. -/
def retrieve (search : Nat → String → Outcome D) (planner : Option (String → Reply)) (query : String) :
    Except AdaptiveError (AdaptiveRetrieval D) :=
  let normalized := T.normalize query
  match search 0 normalized with
  | .cancelled => .error .cancelled
  | .failed => .error .retrieval
  | .results original =>
    if retrievalIsWeak original = false then .ok ⟨original, ⟨false, .notNeeded, 0, 1, 0⟩, [normalized]⟩
    else
      match planner with
      | none => .ok ⟨original, ⟨false, .unavailable, 0, 1, 0⟩, [normalized]⟩
      | some adapter =>
        match plan T adapter normalized with
        | .error () => .error .cancelled
        | .ok p => expand search normalized original p

end Mesa.Retrieval.Adaptive
