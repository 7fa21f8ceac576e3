/-
The context of an answer: the retrieved memories as records with the facts of their provenance, packed into a token
budget. A candidate is packed as its minimum first, a single fact or one complete graph path, and then grows: an atomic
graph candidate to all of its facts or not at all, another one fact by fact.
-/
import Mesa.Foundation.Ordering
import Mesa.Foundation.Packing
import Mesa.Security.UntrustedMemory

namespace Mesa.Retrieval.Context

open Mesa.Foundation
open Mesa.Rebuild (Text)
open Mesa.Security (Evidence Record Title renderUntrustedMemory)

/-! ## What is retrieved -/

/-- A value that counts: present, and not the empty text. -/
def given (value : Option Text) : Option Text := value.filter fun text => decide (text ≠ [])

/-- An entry of a candidate's provenance. The predicate can be there without a value. -/
structure Provenance where
  predicate : Option (Option Text)
  literalValue : Option Text
  objectName : Option Text
  objectEntityId : Option Text
  direction : Option Text
  assertionId : Option Text
  subjectName : Option Text
  objectType : Option Text
  sourceRef : Option Text
  documentId : Option Text
  revisionId : Option Text
  chunkId : Option Text
  evidenceSpan : Option Text
  jurisdiction : Option Text
  authorityLevel : Option Text

/-- A graph path; a sequence is missing where it is no list. -/
structure GraphPath where
  graphPathId : Option Text
  assertionIds : Option (List Text)
  entityIds : Option (List Text)
  edgeDirections : Option (List Text)
  predicates : Option (List Text)
  seedId : Option Text

/-- `retrieval_provenance`; the path of an entry that is no dict is missing. `R` is what else it holds. -/
structure RetrievalProvenance (R : Type) where
  graphHopCount : Int
  graphPathAssertionIds : List Text
  isAtomicProof : Bool
  graphPaths : List (Option GraphPath)
  matchedAssertionId : Option Text
  assertionId : Option Text
  rest : R

/-- A retrieved memory. `D` is what else the answer copies from it. -/
structure Item (D R : Type) where
  assertionId : Option Text
  evidenceId : Option Text
  candidateId : Option Text
  canonicalName : Text
  provenance : List Provenance
  retrievalProvenance : Option (RetrievalProvenance R)
  copied : D

variable {D R : Type}

/-! ## Records -/

/-- A fact of a record. The first three and the rest that is there are shown; the index and `_assertion_id` are not. -/
structure Fact where
  predicate : Text
  value : Text
  direction : Text
  subject : Option Text
  objectType : Option Text
  sourceRef : Option Text
  documentId : Option Text
  revisionId : Option Text
  chunkId : Option Text
  evidenceSpan : Option Text
  jurisdiction : Option Text
  authorityLevel : Option Text
  assertionId : Option Text
  sourceProvenanceIndex : Nat
  hiddenAssertionId : Option Text

/-- `val`, as a text. An object id that looks like an internal one is not shown. -/
def valueOf (p : Provenance) : Text :=
  match p.literalValue with
  | some value => value
  | none =>
    match given p.objectName, given p.objectEntityId with
    | some name, _ => name
    | none, some id =>
      if ["e_".toList, "ent_".toList, "ast_".toList].any (·.isPrefixOf id) || decide (24 < id.length) then
        (p.predicate.getD (some "related_entity".toList)).getD "None".toList
      else id
    | none, none => []

/-- One round of the loop over the provenance. -/
def factOf (includeProvenance graphPaths : Bool) (name : Text) (p : Provenance) (index : Nat) : Fact :=
  let source (value : Option Text) : Option Text := if includeProvenance then given value else none
  { predicate := (p.predicate.join).getD []
    value := valueOf p
    direction := (given p.direction).getD "asserted".toList
    subject := (given p.subjectName).or (given (some name))
    objectType := given p.objectType
    sourceRef := source p.sourceRef
    documentId := source p.documentId
    revisionId := source p.revisionId
    chunkId := source p.chunkId
    evidenceSpan := source p.evidenceSpan
    jurisdiction := source p.jurisdiction
    authorityLevel := source p.authorityLevel
    assertionId := if graphPaths then given p.assertionId else none
    sourceProvenanceIndex := index
    hiddenAssertionId := given p.assertionId }

/-- `_fact_assertion_id`. -/
def Fact.id (f : Fact) : Text := ((given f.assertionId).or (given f.hiddenAssertionId)).getD []

/-- A part of a fact that is shown where it is there. -/
def shown (key : String) (value : Option Text) : List (Text × Evidence) :=
  match value with
  | some text => [(key.toList, .str text)]
  | none => []

/-- The part of a fact that the model sees. -/
def Fact.visible (f : Fact) : Record :=
  [("predicate".toList, .str f.predicate), ("value".toList, .str f.value), ("direction".toList, .str f.direction)] ++
    shown "subject" f.subject ++ shown "object_type" f.objectType ++ shown "source_ref" f.sourceRef ++
    shown "document_id" f.documentId ++ shown "revision_id" f.revisionId ++ shown "chunk_id" f.chunkId ++
    shown "evidence_span" f.evidenceSpan ++ shown "jurisdiction" f.jurisdiction ++
    shown "authority_level" f.authorityLevel ++ shown "assertion_id" f.assertionId

/-- `_visible_graph_path`. -/
def visibleGraphPath (path : GraphPath) : GraphPath :=
  { path with graphPathId := given path.graphPathId, seedId := given path.seedId }

/-- What `_selected_retrieval_provenance` says of the path that was kept. -/
structure GraphProof where
  graphHopCount : Nat
  graphSeedEntityId : Text
  graphSeedEntityIds : List Text
  graphDistinctSeedCount : Nat
  graphTargetEntityId : Text
  graphTargetEntityIds : List Text
  graphPathAssertionIds : List Text
  graphPathEntityIds : List Text
  graphPathId : Text
  graphEdgeDirections : List Text
  graphPredicates : List Text
  graphDirection : Text
  graphSupportCount : Nat
  graphSupportingAssertionIds : List Text
  graphPaths : List GraphPath
  originalPathCount : Nat
  selectedGraphPathId : Text

/-- A record of the context under construction. -/
structure Memory where
  entity : Text
  facts : List Fact
  rawIndex : Nat
  isAtomicProof : Bool
  principalAssertionId : Text
  graphPaths : List GraphPath
  /-- The path that a compacted record keeps. -/
  graphProof : Option GraphProof
  proofCompacted : Bool

/-- The part of a record that the model sees. -/
def Memory.visible (m : Memory) : Record :=
  [("type".toList, .str "canonical_memory".toList), ("entity".toList, .str m.entity),
    ("facts".toList, .list (m.facts.map fun f => .dict f.visible))]

/-- `_graph_paths` of a candidate. -/
def graphPathsOf (item : Item D R) : List GraphPath :=
  match item.retrievalProvenance with
  | some r => (r.graphPaths.filterMap fun path => path).map visibleGraphPath
  | none => []

def isAtomicProof (item : Item D R) : Bool :=
  match item.retrievalProvenance with
  | some r => decide (1 < r.graphHopCount) || decide (1 < r.graphPathAssertionIds.length) || r.isAtomicProof
  | none => false

/-- The facts of a candidate. -/
def factsOf (includeProvenance : Bool) (item : Item D R) : List Fact :=
  item.provenance.zipIdx.map fun x =>
    factOf includeProvenance (!(graphPathsOf item).isEmpty) item.canonicalName x.1 x.2

def recordOf (includeProvenance : Bool) (index : Nat) (item : Item D R) : Memory where
  entity := item.canonicalName
  facts := factsOf includeProvenance item
  rawIndex := index
  isAtomicProof := isAtomicProof item
  principalAssertionId := ((((given item.assertionId).or (given item.evidenceId)).or
    (item.retrievalProvenance.bind fun r => given r.matchedAssertionId)).or
    (item.retrievalProvenance.bind fun r => given r.assertionId)).getD []
  graphPaths := graphPathsOf item
  graphProof := none
  proofCompacted := false

/-- `evidence_identity`. -/
def evidenceIdentity (item : Item D R) : Text :=
  (((given item.assertionId).or (given item.evidenceId)).or (given item.candidateId)).getD []

/-- `facts_by_assertion_id`: the last fact of an id counts. -/
def factById (facts : List Fact) (id : Text) : Option Fact :=
  if id = [] then none else (facts.filter fun f => decide (f.id = id)).getLast?

/-- The conditions on a path that can be mapped to facts and ends in the principal one. -/
def isProof (facts : List Fact) (principalAssertionId : Text) (path : GraphPath) : Bool :=
  let assertionIds := path.assertionIds.getD []
  (given path.graphPathId).isSome && decide (assertionIds ≠ []) &&
    decide (assertionIds.getLast? = some principalAssertionId) && assertionIds.all (fun id => (factById facts id).isSome) &&
    decide ((path.entityIds.getD []).length = assertionIds.length + 1) &&
    decide ((path.edgeDirections.getD []).length = assertionIds.length) &&
    decide ((path.predicates.getD []).length = assertionIds.length)

/-- What makes two paths the same proof. -/
def signature (path : GraphPath) : List (List Text) :=
  [path.assertionIds.getD [], path.entityIds.getD [], path.edgeDirections.getD [], path.predicates.getD []]

/-- One path more for `deduplicated`: of two with one signature the one with the smaller id stays, in the first one's
place. -/
def keepSmallest (kept : List (Nat × GraphPath)) (entry : Nat × GraphPath) : List (Nat × GraphPath) :=
  if kept.any fun x => decide (signature x.2 = signature entry.2) then
    kept.map fun x =>
      if signature x.2 = signature entry.2 ∧ entry.2.graphPathId.getD [] < x.2.graphPathId.getD [] then entry else x
  else kept ++ [entry]

/-- `_valid_graph_paths`. -/
def validGraphPaths (m : Memory) : List GraphPath :=
  if m.principalAssertionId = [] ∨ m.facts.all (fun f => decide (f.id = [])) then []
  else
    let paths := ((m.graphPaths.zipIdx.filter fun x => isProof m.facts m.principalAssertionId x.1).map fun x => (x.2, x.1))
    (orderBy (fun x => toLex ((x.2.assertionIds.getD []).length, toLex (x.2.graphPathId.getD [], x.1)))
      (paths.foldl keepSmallest [])).map Prod.snd

/-- `_selected_retrieval_provenance`, as what it changes. -/
def selectedRetrievalProvenance (originalPathCount : Nat) (path : GraphPath) : GraphProof :=
  let assertionIds := path.assertionIds.getD []
  let entityIds := path.entityIds.getD []
  let edgeDirections := path.edgeDirections.getD []
  let graphPathId := path.graphPathId.getD []
  { graphHopCount := assertionIds.length
    graphSeedEntityId := entityIds.headD []
    graphSeedEntityIds := [entityIds.headD []]
    graphDistinctSeedCount := 1
    graphTargetEntityId := entityIds.getLastD []
    graphTargetEntityIds := [entityIds.getLastD []]
    graphPathAssertionIds := assertionIds
    graphPathEntityIds := entityIds
    graphPathId
    graphEdgeDirections := edgeDirections
    graphPredicates := path.predicates.getD []
    graphDirection := if edgeDirections.dedup.length = 1 then edgeDirections.headD [] else "mixed".toList
    graphSupportCount := 1
    graphSupportingAssertionIds := assertionIds
    graphPaths := [path]
    originalPathCount
    selectedGraphPathId := graphPathId }

/-- `_minimum_complete_graph_proof`. -/
def minimumCompleteGraphProof (originalPathCount : Nat) (m : Memory) : Option Memory :=
  let valid := validGraphPaths m
  valid.head?.map fun path =>
    { m with
      facts := (path.assertionIds.getD []).filterMap (factById m.facts)
      graphPaths := [path]
      graphProof := some (selectedRetrievalProvenance originalPathCount path)
      proofCompacted := decide (valid.length ≠ 1) ||
        decide ((m.facts.map Fact.id).filter (fun id => decide (id ≠ [])) ≠ path.assertionIds.getD []) }

/-! ## Packing -/

def sessionTitle : Title := ⟨"Current Session Information".toList, by decide⟩

def memoryTitle : Title := ⟨"Long-Term Canonical Truth".toList, by decide⟩

/-- A session log as a record. -/
def sessionRecord (content : Text) : Record :=
  [("type".toList, .str "session_log".toList), ("content".toList, .str content)]

/-- `_render_context`. -/
def renderContext (sessions : List Text) (memories : List Record) : Text :=
  renderUntrustedMemory [(sessionTitle, sessions.map sessionRecord), (memoryTitle, memories)]

/-- `_count_tokens`. -/
def countTokens (count : Text → Nat) (text : Text) : Nat := if text = [] then 0 else count text

variable (count : Text → Nat) (budget : Int)

/-- `_fits`. -/
def fits (records : List Memory) : Bool :=
  decide ((countTokens count (renderContext [] (records.map Memory.visible)) : Int) ≤ budget)

/-- A candidate with its full and its minimum representation. -/
structure Prepared where
  full : Memory
  minimum : Memory
  candidateId : Option Text

/-- `prepared_memories`, for a record that has facts. -/
def prepare (items : List (Item D R)) (m : Memory) : Prepared where
  full := m
  minimum :=
    if m.isAtomicProof then
      (minimumCompleteGraphProof ((items[m.rawIndex]?.bind (·.retrievalProvenance)).elim 0 (·.graphPaths.length)) m).getD m
    else { m with facts := m.facts.take 1 }
  candidateId := items[m.rawIndex]?.bind (·.candidateId)

inductive Reason
  | proofExceedsContextBudget
  | evidenceExceedsContextBudget
  | contextBudgetExhausted
  deriving DecidableEq

/-- A candidate that was rejected. -/
structure Rejection where
  candidateId : Option Text
  reason : Reason

/-- The first rejections: candidates whose minimum alone does not fit. -/
def tooLarge (p : Prepared) : Rejection :=
  ⟨p.candidateId, if p.full.isAtomicProof then .proofExceedsContextBudget else .evidenceExceedsContextBudget⟩

/-- Whole facts one at a time, until one does not fit. -/
def addFacts (position : Nat) : List Fact → List Memory → List Memory
  | [], memories => memories
  | fact :: rest, memories =>
    match memories[position]? with
    | none => memories
    | some m =>
      let enriched := memories.set position { m with facts := m.facts ++ [fact] }
      if fits count budget enriched then addFacts position rest enriched else memories

/-- One round of the enrichment: all of an atomic candidate or the minimum, or one fact after the other. -/
def enrich (positionOf : Nat → Option Nat) (memories : List Memory) (p : Prepared) : List Memory :=
  match positionOf p.full.rawIndex with
  | none => memories
  | some position =>
    if p.full.isAtomicProof then
      if p.minimum.proofCompacted && fits count budget (memories.set position p.full) then memories.set position p.full
      else memories
    else addFacts count budget position (p.full.facts.drop 1) memories

/-- The records of the candidates that are kept, and the rejections. -/
def pack (prepared : List Prepared) : List Memory × List Rejection :=
  let viable := prepared.filter fun p => fits count budget [p.minimum]
  let minimums := viable.map Prepared.minimum
  let selected := Packing.choose (fits count budget) minimums
  let retained := Packing.atPositions minimums selected
  let positionOf (index : Nat) : Option Nat := retained.findIdx? fun m => decide (m.rawIndex = index)
  (prepared.foldl (enrich count budget positionOf) retained,
    (prepared.filter fun p => !fits count budget [p.minimum]).map tooLarge ++
      (viable.zipIdx.filter fun x => decide (x.2 ∉ selected)).map fun x => ⟨x.1.candidateId, .contextBudgetExhausted⟩)

end Mesa.Retrieval.Context
