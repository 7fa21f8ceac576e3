/-
The candidate lanes of a search besides the graph: the legal citations of the query with their
exact matches, the vector lane, the scoped full-text passages with their lexical and composite
rankings, and the entity names.
-/
import Mesa.Retrieval.Scope
import Mathlib.Data.List.Lex
import Mathlib.Data.String.Basic

namespace Mesa.Retrieval

open Mesa.Foundation Mesa.Foundation.Prog

/-! ## Rankings -/

/-- The first element of each key, as a loop with `if key not in seen` keeps them. -/
def keepFirst {α κ : Type} [DecidableEq κ] (key : α → κ) : List α → List α
  | [] => []
  | a :: l => a :: (keepFirst key l).filter fun b => decide (key b ≠ key a)

/-- `sorted` by `(-score, id)`. -/
def ScoreBefore (E : SearchEnv) (x y : E.Float × String) : Prop :=
  E.le y.1 x.1 = true ∧ (E.le x.1 y.1 = true → x.2 ≤ y.2)

instance (E : SearchEnv) : DecidableRel (ScoreBefore E) := fun x y => by unfold ScoreBefore; infer_instance

/-- `ORDER BY rank, id`. -/
def RankBefore (E : SearchEnv) (x y : E.Float × String) : Prop :=
  E.le x.1 y.1 = true ∧ (E.le y.1 x.1 = true → x.2 ≤ y.2)

instance (E : SearchEnv) : DecidableRel (RankBefore E) := fun x y => by unfold RankBefore; infer_instance

/-! ## The legal citations of the query -/

inductive MatchKind
  | article | decision
  deriving DecidableEq

structure LegalQuery (E : SearchEnv) where
  resolver : Option E.Resolver
  citations : List Citation
  /-- `exact_ids` with `exact_kinds`, in order. -/
  exact : List (String × MatchKind)

section LegalQuery

/-- The loop that fills `exact_ids`: one assertion of a chunk, three in all. -/
def pickExact (keys : List (String × String)) (decisionIds : List String) (ctx : LegalContext)
    (rows : List AssertionRow) : List String → List String → Nat → List (String × MatchKind)
  | [], _, _ => []
  | _ :: _, _, 0 => []
  | aid :: rest, seen, n + 1 =>
    match rows.find? fun a => decide (a.assertionId = aid) with
    | none => pickExact keys decisionIds ctx rows rest seen (n + 1)
    | some a =>
      let isArticle := ctx.identities.any fun i => decide (i.1 = aid) &&
        decide ((i.2.statuteCode, i.2.articleId) ∈ keys)
      if (isArticle || decide (aid ∈ decisionIds)) && decide (a.chunkId ∉ seen) then
        (aid, if isArticle then .article else .decision) ::
          pickExact keys decisionIds ctx rows rest (a.chunkId :: seen) n
      else pickExact keys decisionIds ctx rows rest seen (n + 1)

/-- `exact_keys`. -/
def exactKeys (citations : List Citation) : List (String × String) :=
  citations.filterMap fun c => (truthy c.article).map fun article => (c.statuteCode, article)

def exactMatches (ctx : LegalContext) (rows : List AssertionRow) (citations : List Citation)
    (refs : List (String × String)) : List (String × MatchKind) :=
  let decisionIds := refs.flatMap fun d => (ctx.decisions.filter fun p => decide (p.1 = d)).map Prod.snd
  if exactKeys citations = [] ∧ decisionIds = [] then []
  else pickExact (exactKeys citations) decisionIds ctx rows ctx.orderedAssertions [] 3

/-- A citation of the query names the typed identity of a row. -/
def Citation.names (c : Citation) (l : LegalColumns) : Bool :=
  match truthy c.article with
  | some article => decide (l.statuteCode = c.statuteCode) && decide (l.articleId = article)
  | none => decide (l.statuteCode = c.statuteCode)

/-- `min(1000, max(limit * 25, 100))`. -/
def passageLimit (limit : Nat) : Nat := min 1000 (max (limit * 25) 100)

/-- `min(500, max(limit * 10, 50))`. -/
def providerLimit (limit : Nat) : Nat := min 500 (max (limit * 10) 50)

/-- `typed_candidate_query`. -/
def Snapshot.typedLegalCandidates {Clock : Type} (julianday : Clock → String → Option Int) (db : Snapshot)
    (k : ScopeKey) (datasets : List String) (now : Clock) (citations : List Citation) (limit : Nat) :
    List String :=
  (((db.assertions.select fun a => db.authorises julianday k datasets now a &&
      (a.legal.legalIdentitySource == "catalog" || a.legal.legalIdentitySource == "verified_ingestion") &&
      citations.any fun c => c.names a.legal).insertionSort fun a b =>
    ([a.legal.statuteCode, a.legal.articleId, a.legal.legalVersionId, a.assertionId] : List String) ≤
      [b.legal.statuteCode, b.legal.articleId, b.legal.legalVersionId, b.assertionId]).take
    (passageLimit limit)).map (·.assertionId)

variable {E : SearchEnv} (rt : Runtime E) (db : Snapshot) (r : SearchRequest)

/-- `query_items`: the decisions that the query names, looked for only when some are known. -/
def decisionQuery (ctx : LegalContext) : SearchM E (List (String × String)) :=
  if ctx.decisions.isEmpty then pure [] else awaited (.ok (E.extractRules r.query))

def legalQuery (rows : List AssertionRow) : SearchM E (LegalQuery E) :=
  if rt.legalRulesEnabled then do
    let ctx ← scopeLegalContext db r rows
    let resolver ← scopeLegalResolver ctx
    let citations ← awaited (.ok (E.extractCitations resolver (E.strip r.query)))
    let refs ← decisionQuery r ctx
    pure ⟨some resolver, citations, exactMatches ctx rows citations refs⟩
  else pure ⟨none, [], []⟩

/-- The typed candidates of a query with citations. -/
def typedQuery (datasets : List String) (lq : LegalQuery E) : SearchM E (List String) :=
  if lq.citations.isEmpty then pure [] else do
    let now ← awaiting
    pure (db.typedLegalCandidates E.julianday r.scopeKey datasets now lq.citations r.limit)

/-- `typed_legal_candidate_ids`, with the exact articles. -/
def typedLegalCandidates (datasets : List String) (lq : LegalQuery E) : SearchM E (List String) := do
  let typed ← typedQuery db r datasets lq
  pure (typed ++ (lq.exact.filter fun e => decide (e.2 = .article)).map Prod.fst)

/-- A memoised `legal_resolver.extract_citations` runs in a thread. -/
def LegalQuery.extract (lq : LegalQuery E) (text : String) : SearchM E (List Citation) := do
  let _ ← awaiting
  match lq.resolver with
  | some resolver => pure (E.extractCitations resolver text)
  | none => pure []

end LegalQuery

/-! ## Tokens -/

/-- `TURKISH_LEGAL_STOPWORDS`. -/
def turkishLegalStopwords : List String :=
  ["m", "md", "madde", "maddesi", "maddesine", "maddesinde", "fıkra", "fıkrası", "bent", "bendi", "uyarınca",
    "gereğince", "göre", "ve", "veya", "ile", "için", "olan", "bir", "bu", "şu", "hükmü", "hükmünce",
    "kapsamında", "ilgili", "nedir", "nelerdir", "hakkında", "tarafından", "sayılı", "kanun", "kanunu"]

/-- `token.replace('"', "")`. -/
def unquote (s : String) : String := String.ofList (s.toList.filter fun c => decide (c ≠ Char.ofNat 34))

structure QueryTokens where
  raw : List String
  content : List String
  fts : List String

/-- The tokens of the query, those that carry content, and those of the passage search. -/
def queryTokens (E : SearchEnv) (query : String) (citations : List Citation) : QueryTokens :=
  let raw := (E.words (E.normalizeIdentityText query)).eraseDups
  let statutes := citations.flatMap fun c =>
    (c.statuteCode :: c.statuteCanonical :: c.aliases).map E.normalizeIdentityText
  let articles := citations.filterMap fun c => truthy c.article
  let content := raw.filter fun t => decide (t ∉ turkishLegalStopwords) && decide (t ∉ statutes) &&
    decide (t ∉ articles) && decide (2 ≤ t.length)
  let cited := content ++ citations.flatMap fun c =>
    E.words (E.normalizeIdentityText c.statuteCode) ++ (truthy c.article).toList
  let terms := if cited = [] then raw.filter fun t => decide (2 ≤ t.length) else cited
  { raw := raw
    content := content
    fts := ((terms.filter fun t => decide (2 ≤ t.length)).map unquote).eraseDups.take 12 }

/-- `content_tokens if content_tokens else raw_tokens`. -/
def QueryTokens.contentOrRaw (t : QueryTokens) : List String := if t.content = [] then t.raw else t.content

/-- `clean_fts_tokens`. -/
def QueryTokens.entityTokens (t : QueryTokens) : List String :=
  ((t.contentOrRaw.filter fun s => decide (2 ≤ s.length)).map unquote).take 8

/-! ## The vector lane -/

structure VectorLane (Float : Type) where
  ranking : List String
  distances : List (String × Float)
  assertions : List AssertionRow

section Vector

variable {E : SearchEnv} (rt : Runtime E) (db : Snapshot) (r : SearchRequest)

/-- `_query_error` and `_query_vector`, computed before the scope is known. -/
def queryVector : Except SearchError (Option E.Vector) :=
  if rt.embeddingEnabled then
    match rt.vec with
    | some vec => (vec.computeQueryEmbedding r.query).map some
    | none => .ok none
  else .ok none

/-- `searchable_vector_ids`. -/
def searchableVectors (vec : VectorEngine E.Float E.Vector) (allowed : List String) : SearchM E (List String) :=
  match vec.getExistingNodeIds with
  | some existing => do
    let ids ← awaited (existing r.agentId (sortedSet allowed))
    pure (allowed.filter fun i => decide (i ∈ ids))
  | none => pure allowed

/-- The awaited provider calls of the vector lane. -/
def vectorHits (vec : VectorEngine E.Float E.Vector) (allowed : List String) :
    SearchM E (List (VectorHit E.Float)) := do
  let searchable ← searchableVectors r vec allowed
  if searchable.isEmpty then pure []
  else
    match queryVector rt r with
    | .error e => raise e
    | .ok none => raise (.vectorSearch "query embedding is unavailable")
    | .ok (some v) => awaited (vec.search v r.agentId (sortedSet searchable) (providerLimit r.limit))

/-- The lane from the hits of the provider: known ids only, re-read and checked again. -/
def rankVectorHits (allowedVectorIds allowedEntityIds : List String) (rows : List AssertionRow)
    (hits : List (VectorHit E.Float)) : SearchM E (VectorLane E.Float) := do
  let known := keepFirst (·.nodeId) (hits.filter fun h => decide (h.nodeId ∈ allowedVectorIds))
  if known.isEmpty then pure ⟨[], [], []⟩
  else do
    let _ ← awaiting
    let found := db.assertions.select fun a => known.any fun h => decide (h.nodeId = a.assertionId)
    let admitted := known.filter fun h => found.any fun a => decide (a.assertionId = h.nodeId) &&
      decide (a.subjectId ∈ allowedEntityIds) && rows.any fun b => decide (b.assertionId = h.nodeId)
    pure ⟨admitted.map (·.nodeId), known.map fun h => (h.nodeId, h.distance), found⟩

/-- `except SemanticRuntimeDisabledError`: the lane stays empty. -/
def unlessDisabled (m : SearchM E (VectorLane E.Float)) : SearchM E (VectorLane E.Float) := fun c w =>
  match m c w with
  | (.error (.semanticRuntimeDisabled _), w') => (.ok ⟨[], [], []⟩, w')
  | out => out

def vectorLane (allowedVectorIds allowedEntityIds : List String) (rows : List AssertionRow) :
    SearchM E (VectorLane E.Float) :=
  match rt.embeddingEnabled, rt.vec, allowedVectorIds with
  | true, some vec, _ :: _ => unlessDisabled do
    let hits ← vectorHits rt r vec allowedVectorIds
    rankVectorHits db allowedVectorIds allowedEntityIds rows hits
  | _, _, _ => pure ⟨[], [], []⟩

end Vector

/-! ## Passages -/

/-- The text of `features["passage_raw_text"]`. -/
def passageRawText {Float : Type} (p : PassageRow Float) : String :=
  " ".intercalate [p.subjectName.getD "", p.row.sourceRef, p.row.documentId, p.row.literalValue.getD "",
    p.row.evidenceSpan, p.row.predicate, p.objectName.getD ""]

/-- The text whose citations are `features["assertion_citations"]`. -/
def assertionRawText {Float : Type} (p : PassageRow Float) : String :=
  " ".intercalate [p.row.predicate, p.subjectName.getD "", p.objectName.getD "", p.row.literalValue.getD "",
    p.row.evidenceSpan, p.row.sourceRef]

/-- The fields of `features["assertion_text"]`. -/
def assertionText (E : SearchEnv) (p : PassageRow E.Float) : AssertionText :=
  let predicate := E.normalizeIdentityText (E.lower p.row.predicate)
  let subjectName := E.normalizeIdentityText (p.subjectName.getD "")
  let objectName := E.normalizeIdentityText (p.objectName.getD "")
  let literal := E.normalizeIdentityText (p.row.literalValue.getD "")
  let evidence := E.normalizeIdentityText p.row.evidenceSpan
  ⟨predicate, subjectName, objectName, literal, evidence,
    " ".intercalate [predicate, subjectName, objectName, literal, evidence]⟩

def PassageRow.featureKey {Float : Type} (p : PassageRow Float) : FeatureKey :=
  (p.row.assertionId, p.subjectName, p.objectName)

/-- `passage_sql` over the scoped index: the authorised matches by rank, with the entity names. -/
def Snapshot.passages (E : SearchEnv) (db : Snapshot) (corpus : List FtsRow) (k : ScopeKey)
    (datasets : List String) (now : E.Clock) (tokens : List String) (limit : Nat) : List (PassageRow E.Float) :=
  ((corpus.filter (E.ftsMatch tokens)).filterMap fun f =>
    ((db.assertions.lookup f.assertionId).filter (db.authorises E.julianday k datasets now)).map fun a =>
      (⟨a, (db.entities.lookup a.subjectId).map (·.canonicalName),
        a.objectEntityId.bind fun o => (db.entities.lookup o).map (·.canonicalName),
        some (E.bm25 corpus tokens f)⟩ : PassageRow E.Float)).insertionSort (fun x y =>
      RankBefore E (x.bm25.getD E.zero, x.row.assertionId) (y.bm25.getD E.zero, y.row.assertionId)) |>.take
    (passageLimit limit)

section Passages

variable {E : SearchEnv} (db : Snapshot) (r : SearchRequest)

def ftsBuiltSlot : Slot E Unit where
  get s := if s.ftsBuilt then some () else none
  put _ s := { s with ftsBuilt := true }

/-- `CREATE VIRTUAL TABLE temp.…`. -/
def createScopedFts : SearchM E Unit := do
  let _ ← awaiting
  fun _ w =>
    if w.temp.any fun t => decide (t.1 = w.scope.ftsTable) then
      (.error (.runtimeError "table already exists"), w)
    else (.ok (), { w with temp := (w.scope.ftsTable, []) :: w.temp })

/-- `INSERT INTO temp.… SELECT …` of the index rows of the authorised assertions. -/
def fillScopedFts (datasets : List String) : SearchM E Unit := do
  let now ← awaiting
  modify fun w => { w with temp := w.temp.map fun t =>
    if t.1 = w.scope.ftsTable then
      (t.1, t.2 ++ db.assertionsFts.select fun f =>
        (db.inScopeAssertions E.julianday r.scopeKey datasets now).any fun a =>
          decide (a.assertionId = f.assertionId))
    else t }

/-- The scoped index, built once for each scope. -/
def buildScopedFts (datasets : List String) : SearchM E Unit := ftsBuiltSlot.memo do
  createScopedFts
  fillScopedFts db r datasets

/-- The content of the scoped index. -/
def scopedCorpus : SearchM E (List FtsRow) := fun _ w =>
  match w.temp.find? fun t => decide (t.1 = w.scope.ftsTable) with
  | some t => (.ok t.2, w)
  | none => (.error (.runtimeError "no such table"), w)

/-- A typed candidate that the index did not return is taken from the authorised rows. -/
def typedPassage (rows : List AssertionRow) (assertionId : String) : SearchM E (PassageRow E.Float) :=
  match rows.find? fun a => decide (a.assertionId = assertionId) with
  | some a => pure ⟨a, some "", some "", some E.zero⟩
  | none => raise (.keyError assertionId)

/-- `passage_candidate_rows`. -/
def passageCandidates (datasets : List String) (rows : List AssertionRow) (tokens : QueryTokens)
    (typed : List String) : SearchM E (List (PassageRow E.Float)) :=
  if tokens.fts.isEmpty then pure []
  else do
    buildScopedFts db r datasets
    let now ← awaiting
    let corpus ← scopedCorpus
    let hits := db.passages E corpus r.scopeKey datasets now tokens.fts r.limit
    let missing := sortedSet (typed.filter fun i => !hits.any fun p => decide (p.row.assertionId = i))
    let added ← forEach (typedPassage rows) missing
    pure (hits ++ added)

def passageTextSlot (k : FeatureKey) : Slot E (String × String) :=
  Slot.at Scope.passageTexts (fun l s => { s with passageTexts := l }) k
def passageCitationsSlot (k : FeatureKey) : Slot E (List Citation) :=
  Slot.at Scope.passageCitations (fun l s => { s with passageCitations := l }) k
def assertionTextSlot (k : FeatureKey) : Slot E AssertionText :=
  Slot.at Scope.assertionTexts (fun l s => { s with assertionTexts := l }) k
def assertionCitationsSlot (k : FeatureKey) : Slot E (List Citation) :=
  Slot.at Scope.assertionCitations (fun l s => { s with assertionCitations := l }) k

/-- The citations of a row, asked for only when the query has some and the row no typed identity. -/
def rowCitations (lq : LegalQuery E) (p : PassageRow E.Float) (slot : Slot E (List Citation)) (text : String) :
    SearchM E (List Citation) :=
  if lq.citations.isEmpty || (assertionLegalIdentity p.row.legal).isSome then pure []
  else slot.memo (lq.extract text)

/-- One round of the lexical scoring loop; the loop sleeps now and then. -/
def scorePassage (lq : LegalQuery E) (tokens : List String) (p : PassageRow E.Float) :
    SearchM E (E.Float × PassageRow E.Float) := do
  let text ← (passageTextSlot p.featureKey).memo
    (pure (passageRawText p, E.normalizeIdentityText (passageRawText p)))
  let cites ← rowCitations lq p (passageCitationsSlot p.featureKey) text.1
  let _ ← awaiting
  pure (E.passageScore (p.bm25.getD E.zero) text.2 tokens (assertionLegalIdentity p.row.legal) cites lq.citations, p)

/-- `lexical_lane` with `lexical_assertions`: the scored passages of allowed subjects. -/
def lexicalLane (lq : LegalQuery E) (tokens : QueryTokens) (allowedEntityIds : List String)
    (passages : List (PassageRow E.Float)) : SearchM E (List (PassageRow E.Float)) := do
  let marked ← forEach (scorePassage lq (tokens.content.take 64)) passages
  let ordered := (marked.insertionSort fun x y =>
    ScoreBefore E (x.1, x.2.row.assertionId) (y.1, y.2.row.assertionId)).map Prod.snd
  pure (keepFirst (·.row.assertionId) (ordered.filter fun p => decide (p.row.subjectId ∈ allowedEntityIds)))

/-- One round of the composite scoring loop. -/
def scoreAssertion (lq : LegalQuery E) (tokens : List String) (p : PassageRow E.Float) :
    SearchM E (E.Float × PassageRow E.Float) := do
  let text ← (assertionTextSlot p.featureKey).memo (pure (assertionText E p))
  let cites ← rowCitations lq p (assertionCitationsSlot p.featureKey) (assertionRawText p)
  let _ ← awaiting
  pure (E.assertionScore text (E.normalizeIdentityText r.query) tokens (assertionLegalIdentity p.row.legal) cites
    lq.citations p.row.confidence, p)

/-- `scored_assertions.sort(key=(-score, -confidence, id))`. -/
def CompositeBefore (E : SearchEnv) (x y : E.Float × PassageRow E.Float) : Prop :=
  E.le y.1 x.1 = true ∧ (E.le x.1 y.1 = true → y.2.row.confidence < x.2.row.confidence ∨
    y.2.row.confidence = x.2.row.confidence ∧ x.2.row.assertionId ≤ y.2.row.assertionId)

instance (E : SearchEnv) : DecidableRel (CompositeBefore E) := fun x y => by
  unfold CompositeBefore; infer_instance

/-- `assertion_lane` with `assertion_scores` and `assertion_records`. -/
def assertionLane (lq : LegalQuery E) (tokens : QueryTokens) (allowedEntityIds : List String)
    (passages : List (PassageRow E.Float)) : SearchM E (List (E.Float × PassageRow E.Float)) := do
  let marked ← forEach (scoreAssertion r lq (tokens.contentOrRaw.take 64))
    (passages.filter fun p => decide (p.row.subjectId ∈ allowedEntityIds))
  pure ((keepFirst (·.2.row.assertionId) (marked.insertionSort (CompositeBefore E))).take r.limit)

end Passages

/-! ## Entity names -/

/-- The EXISTS clause of `build_v4_lexical_query`. -/
def Snapshot.ownsEntity (db : Snapshot) (k : ScopeKey) (datasets : List String) (e : Ledger.Entity) : Bool :=
  db.registry.anyWhere fun g => decide (g.key.tenantId = e.tenantId) &&
    decide (g.key.artifact.artifactId = e.entityId) && decide (g.state = .active) &&
    (decide (g.key.artifact.artifactKind = .entity) || decide (g.key.artifact.artifactKind = .entityVector)) &&
    db.sources.anyWhere fun s => decide (s.key.registry = g.key) && decide (s.state = .active) &&
      decide (s.datasetId ∈ datasets) &&
      db.mutations.anyWhere fun m => decide (m.mutationId = s.key.mutationId) && decide (m.agentId = k.agentId)

/-- `build_v4_lexical_query`: the owned matches in the order of `rank, entity_id`, cut to the limit. -/
def Snapshot.entityHits (E : SearchEnv) (db : Snapshot) (k : ScopeKey) (datasets tokens : List String)
    (limit : Nat) : List String :=
  (((db.entities.select fun e => E.entityMatch tokens e && decide (e.tenantId = k.tenantId) &&
      decide (e.status = .active) && db.ownsEntity k datasets e).insertionSort fun x y =>
    RankBefore E (E.entityRank db.entities.rows tokens x, x.entityId)
      (E.entityRank db.entities.rows tokens y, y.entityId)).take (providerLimit limit)).map (·.entityId)

section Entities

variable {E : SearchEnv} (db : Snapshot) (r : SearchRequest)

/-- `lexical_entity_lane`. -/
def entityLane (datasets : List String) (tokens : QueryTokens) (allowedEntityIds : List String) :
    SearchM E (List String) :=
  if tokens.entityTokens.isEmpty then pure []
  else do
    let _ ← awaiting
    pure ((db.entityHits E r.scopeKey datasets tokens.entityTokens r.limit).filter fun i =>
      decide (i ∈ allowedEntityIds)).eraseDups

end Entities

end Mesa.Retrieval
