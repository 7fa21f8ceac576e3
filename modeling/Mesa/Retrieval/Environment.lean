/-
What a search works with: the functions of SQLite, of the text layer and of floating-point
arithmetic that it calls, taken as arbitrary functions; the vector and graph providers; the scope
entry that a search fills; and the coroutine monad it runs in. Every `await` of the source is a
statement here: it reads the clock, and an exception can be injected in its place.
-/
import Mesa.Retrieval.Rows
import Mesa.Foundation.Program

namespace Mesa.Retrieval

open Mesa.Foundation

/-! ## Citations -/

/-- What `extract_citations` returns for one citation. -/
structure Citation where
  statuteCode : String
  statuteCanonical : String
  article : Option String
  aliases : List String
  deriving DecidableEq

/-- The result of `_assertion_legal_identity`. -/
structure LegalIdentity where
  lawId : String
  statuteCode : String
  articleId : String
  versionId : String
  identitySource : String
  paragraphId : String
  clauseId : String
  deriving DecidableEq

/-- `_assertion_legal_identity`. -/
def assertionLegalIdentity (l : LegalColumns) : Option LegalIdentity :=
  if l.legalIdentitySource ≠ "catalog" ∧ l.legalIdentitySource ≠ "verified_ingestion" then none
  else if l.lawId = "" ∨ l.statuteCode = "" ∨ l.articleId = "" then none
  else some ⟨l.lawId, l.statuteCode, l.articleId, l.legalVersionId, l.legalIdentitySource, l.paragraphId,
    l.clauseId⟩

/-- The normalised fields that `features["assertion_text"]` keeps. -/
structure AssertionText where
  predicate : String
  subjectName : String
  objectName : String
  literal : String
  evidence : String
  combined : String

/-- An assertion with the columns that `passage_sql` adds to it; `none` is an absent column or NULL. -/
structure PassageRow (Float : Type) where
  row : AssertionRow
  subjectName : Option String
  objectName : Option String
  bm25 : Option Float

/-- The direction in which a path crosses an assertion. -/
inductive EdgeDirection
  | forward | reverse
  deriving DecidableEq

/-! ## The functions a search calls -/

/-- SQLite, the text functions and the floating-point computations, as arbitrary functions. -/
structure SearchEnv where
  Clock : Type
  Float : Type
  Resolver : Type
  Vector : Type
  /-- `julianday(text)` at a time, in milliseconds; only a text that denotes `now` reads the time. -/
  julianday : Clock → String → Option Int
  /-- FTS5 `MATCH` of quoted tokens joined by `OR`, over the assertion columns. -/
  ftsMatch : List String → FtsRow → Bool
  /-- `bm25` of a row of an index that holds the given corpus. -/
  bm25 : List FtsRow → List String → FtsRow → Float
  /-- FTS5 `MATCH` over `canonical_name` and `entity_type`. -/
  entityMatch : List String → Ledger.Entity → Bool
  /-- `rank` of a row of `v4_entities_fts`, whose corpus is the whole entity table. -/
  entityRank : List Ledger.Entity → List String → Ledger.Entity → Float
  le : Float → Float → Bool
  zero : Float
  one : Float
  add : Float → Float → Float
  mul : Float → Float → Float
  max : Float → Float → Float
  /-- `_normalize_identity_text`. -/
  normalizeIdentityText : String → String
  /-- `str.lower`. -/
  lower : String → String
  /-- `str.strip`. -/
  strip : String → String
  /-- `re.findall(r"\w+", text)`. -/
  words : String → List String
  /-- `normalize_law_name`. -/
  normalizeLawName : String → String
  /-- The name in front of the law number in a header, `""` when there is none. -/
  headerName : String → String
  /-- Docket and decision number of each early `decision_ref` item of `_mesa_legal_items`. -/
  decisionRefs : String → List (String × String)
  /-- Docket and decision number of each `decision_ref` that `legal_rules.extract` finds. -/
  extractRules : String → List (String × String)
  /-- `LegalEntityResolver(law_names=names)`. -/
  legalEntityResolver : List (String × String) → Resolver
  extractCitations : Resolver → String → List Citation
  extractEntities : Resolver → String → List String
  /-- `V4_VECTOR_CONSUMER_CONTRACT.compatibility_errors` of decoded registry metadata. -/
  compatibilityErrors : String → List String
  /-- The lexical score: bm25, normalised text, tokens, typed identity or citations of the row, and
  the citations of the query. -/
  passageScore : Float → String → List String → Option LegalIdentity → List Citation → List Citation → Float
  /-- The composite assertion score: normalised fields and query, tokens, typed identity or
  citations of the row, the citations of the query, and the confidence. -/
  assertionScore : AssertionText → String → List String → Option LegalIdentity → List Citation →
    List Citation → ℚ → Float
  /-- The legal factor of a candidate from its typed identity or its citations. -/
  legalFactor : Option LegalIdentity → List Citation → List Citation → Float
  /-- `max(0.4, 0.9 - 0.05 * rank)`. -/
  vectorRelevance : Nat → Float
  /-- `max(0.35, 0.85 - 0.05 * rank)`. -/
  lexicalRelevance : Nat → Float
  /-- 0.95, the seed score of a name in the query. -/
  nameRelevance : Float
  /-- 0.9, the seed score of an entity hit and the damping of an object. -/
  entityRelevance : Float
  /-- `weight / (k + rank)`. -/
  rrfContribution : ℚ → Int → Nat → Float
  /-- `best * (1.0 + support_bonus)` from the best score and the numbers of paths and of seeds. -/
  graphScore : Float → Nat → Nat → Float
  /-- `stable_graph_path_id`: assertions, entities, directions and predicates. -/
  stableGraphPathId : List String → List String → List EdgeDirection → List String → String
  /-- The public part of a metadata document, `none` when there is nothing to show. -/
  publicMetadata : String → Option String
  /-- `_mesa_legal_items` of a metadata document. -/
  legalItems : String → Option String

/-! ## Providers -/

structure VectorHit (Float : Type) where
  nodeId : String
  distance : Float

/-- The vector engine; `getExistingNodeIds` is `none` for one without that method. -/
structure VectorEngine (Float Vector : Type) where
  computeQueryEmbedding : String → Except SearchError Vector
  getExistingNodeIds : Option (String → List String → Except SearchError (List String))
  search : Vector → String → List String → Nat → Except SearchError (List (VectorHit Float))

/-- A path as the graph provider reports it. -/
structure RawPath (Float : Type) where
  assertionIds : List String
  entityIds : List String
  score : Float

structure GraphHit (Float : Type) where
  entityId : String
  paths : List (RawPath Float)
  bestPathAssertionIds : Option (List String)
  pathAssertionIds : List String
  pathEntityIds : List String
  score : Float

/-- The arguments of `search_v4_graph`; its sets and its map of scores are given as sorted lists. -/
structure GraphRequest (Float : Type) where
  agentId : String
  seedEntityIds : List String
  allowedEntityIds : List String
  allowedAssertionIds : List String
  assertionEvidence : List (String × String)
  maxHops : Nat
  limit : Nat
  query : String
  seedScores : List (String × Float)
  legalRulesEnabled : Bool

structure GraphProvider (Float : Type) where
  isOperational : Bool
  searchV4Graph : GraphRequest Float → Except SearchError (List (GraphHit Float))

structure Reranker (Float : Type) where
  score : String → List String → Except SearchError (List Float)
  isFinite : Float → Bool
  depth : Nat

/-- The switches of a DAO. -/
structure Config where
  embeddingEnabled : Bool
  graphEnabled : Bool
  legalRulesEnabled : Bool
  rrfK : Int
  rrfWeights : List (RetrievalLane × ℚ)

/-- A DAO: its switches and the components it was composed with, as they answer at present. -/
structure Runtime (E : SearchEnv) extends Config where
  vec : Option (VectorEngine E.Float E.Vector)
  graph : Option (GraphProvider E.Float)
  reranker : Option (Reranker E.Float)

/-! ## The scope entry -/

/-- One row of the audit query. -/
structure AuditRow where
  row : AssertionRow
  externalDatasetId : String
  agentId : String

structure AuditDecision where
  assertionId : String
  tenantId : String
  datasetId : String
  agentId : String
  jurisdiction : String
  status : Ledger.AssertionStatus
  validFrom : String
  validTo : String
  eligible : Bool

/-- `scope["legal_context"]`. -/
structure LegalContext where
  names : List (String × String)
  identities : List (String × LegalIdentity)
  /-- A decision with one assertion that it selects. -/
  decisions : List ((String × String) × String)
  orderedAssertions : List String

/-- `(assertion_id, subject_name, object_name)`. -/
abbrev FeatureKey := String × Option String × Option String

/-- A scope document: an entry of the cache, or the local document of an uncached search. The
`text_features` document is kept as one association list for each feature. -/
structure Scope (E : SearchEnv) where
  ftsTable : Nat
  datasets : Option (List String)
  artifactRows : Option (List ArtifactRow)
  assertionRows : Option (List AssertionRow)
  degradedSources : Option (List Ledger.Lane)
  auditRows : Option (List AuditRow)
  auditDecisions : Option (List AuditDecision × Nat)
  legalContext : Option LegalContext
  legalResolver : Option E.Resolver
  ftsBuilt : Bool
  passageTexts : List (FeatureKey × String × String)
  passageCitations : List (FeatureKey × List Citation)
  assertionTexts : List (FeatureKey × AssertionText)
  assertionCitations : List (FeatureKey × List Citation)
  candidateCitations : List ((String × List String) × List Citation)

/-- `{"fts_table": name}`. -/
def Scope.fresh (E : SearchEnv) (ftsTable : Nat) : Scope E where
  ftsTable := ftsTable
  datasets := none
  artifactRows := none
  assertionRows := none
  degradedSources := none
  auditRows := none
  auditDecisions := none
  legalContext := none
  legalResolver := none
  ftsBuilt := false
  passageTexts := []
  passageCitations := []
  assertionTexts := []
  assertionCitations := []
  candidateCitations := []

/-- `certification_metadata`, without the hashes over it. -/
structure Certification where
  degradedSources : List Ledger.Lane
  decisions : List AuditDecision
  eligibleCount : Nat

/-- What a running search changes: its scope, the TEMP tables of its connection, the number of
statements so far and the certification document. -/
structure Work (E : SearchEnv) where
  scope : Scope E
  temp : List (Nat × List FtsRow)
  statements : Nat
  certification : Option Certification

/-- What surrounds a running search: the clock and the exception, if any, at each statement. -/
structure Context (E : SearchEnv) where
  clock : Nat → E.Clock
  interrupt : Nat → Option String

abbrev SearchM (E : SearchEnv) := Prog (Context E) (Work E) SearchError

section Statements

variable {E : SearchEnv} {α κ : Type}

/-- One awaited call: the time at which it runs, or the exception raised in its place. -/
def awaiting : SearchM E E.Clock := fun c w =>
  match c.interrupt w.statements with
  | some what => (.error (.interrupted what), { w with statements := w.statements + 1 })
  | none => (.ok (c.clock w.statements), { w with statements := w.statements + 1 })

/-- An awaited provider call. -/
def awaited (r : Except SearchError α) : SearchM E α := do
  let _ ← awaiting
  match r with
  | .ok a => pure a
  | .error e => Prog.raise e

/-- One item of the scope document. -/
structure Slot (E : SearchEnv) (α : Type) where
  get : Scope E → Option α
  put : α → Scope E → Scope E

/-- `if item in scope` … `else` … `scope[item] = …`. -/
def Slot.memo (slot : Slot E α) (load : SearchM E α) : SearchM E α :=
  Prog.memo (fun w => slot.get w.scope) (fun a w => { w with scope := slot.put a w.scope }) load

/-- The slot of one key of an association list. -/
def Slot.at [DecidableEq κ] (get : Scope E → List (κ × α)) (put : List (κ × α) → Scope E → Scope E)
    (k : κ) : Slot E α where
  get s := ((get s).find? fun p => decide (p.1 = k)).map Prod.snd
  put a s := put ((k, a) :: get s) s

end Statements

end Mesa.Retrieval
