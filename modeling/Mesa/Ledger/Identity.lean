/-
Canonical entities and assertions: content-derived ids, entity resolution with redirects and
merges, and the SQL transactions of the projectors.
-/
import Mathlib.Data.List.Sort
import Mesa.Ledger.Transition

namespace Mesa.Ledger

open Mesa.Foundation

/-! ## Content-derived ids -/

/-- The unit separator that joins the parts of an identity. -/
def joinIdentity (parts : List String) : String := "\x1f".intercalate parts

/-- `v4_entity_id`: a stable tenant/type/ontology-or-name entity identity. -/
def v4EntityId (env : Env) (tenantId entityName entityType : String) (ontologyUri : Option String) :
    Except DaoError String :=
  if tenantId = "" ∨ entityName = "" ∨ entityType = "" then
    .error (.valueError "tenant, entity type and canonical name are required")
  else
    let identityKey := match ontologyUri with
      | some uri => "ontology:" ++ env.normalizeOntologyUri uri
      | none => "name:" ++ env.normalizeIdentityText entityName
    .ok (env.uuid5 "entity"
      (joinIdentity [tenantId, env.upper (env.normalizeIdentityText entityType), identityKey]))

/-- `v4_assertion_id`: the stable source-scoped assertion identity. -/
def v4AssertionId (env : Env) (tenantId datasetId revisionId chunkId subjectId predicate : String)
    (objectEntityId literalValue : Option String) (evidenceSpan : String) : Except DaoError String :=
  if "" ∈ [tenantId, datasetId, revisionId, chunkId, subjectId, predicate] ∨
      objectEntityId.isSome = literalValue.isSome then
    .error (.valueError "assertion identity requires one entity or literal object")
  else
    let object := (objectEntityId.filter (· ≠ "")).getD ("literal:" ++ literalValue.getD "None")
    .ok (env.uuid5 "assertion"
      (joinIdentity [tenantId, datasetId, revisionId, chunkId, subjectId, predicate, object, evidenceSpan]))

/-! ## Redirects and merges -/

/-- `_follow_v4_entity_redirect_in_tx`: resolve a redirect chain of bounded length. -/
def followEntityRedirect (entities : Table Entity) (visited : List String) :
    Nat → Entity → Except DaoError (Option Entity)
  | budget, e => match e.redirectEntityId with
    | none => .ok (some e)
    | some target => match budget with
      | 0 => .error (.runtimeError "invalid canonical entity redirect chain")
      | budget + 1 =>
        if e.entityId ∈ visited then .error (.runtimeError "invalid canonical entity redirect chain")
        else match entities.lookup target with
          | none => .ok none
          | some next => followEntityRedirect entities (e.entityId :: visited) budget next

/-- The length bound of a redirect chain. -/
def redirectBudget : Nat := 16

def Entity.isOntology (e : Entity) : Bool := "ontology:".toList.isPrefixOf e.identityKey.toList

/-- Ontology-backed identities outrank name-only ones; ids break ties. -/
def Entity.outranks (a b : Entity) : Bool :=
  (a.isOntology && !b.isOntology) || (a.isOntology == b.isOntology && decide (a.entityId < b.entityId))

/-- `_merge_v4_entity_rows_in_tx`: redirect one colliding identity to its winner. -/
def mergeEntityRows (ids : Identities) (first second : Entity) : Except DaoError (Identities × Entity) := do
  let first ← followEntityRedirect ids.entities [] redirectBudget first
  let second ← followEntityRedirect ids.entities [] redirectBudget second
  match first, second with
  | some first, some second =>
    if first.entityId = second.entityId then pure (ids, first)
    else
      let winner := if first.outranks second then first else second
      let duplicate := if first.outranks second then second else first
      if winner.tenantId ≠ duplicate.tenantId ∨ winner.entityType ≠ duplicate.entityType then
        throw (.valueError "canonical entities can only merge inside tenant/type")
      else
        let aliases := (ids.aliases.select (·.entityId = duplicate.entityId)).foldl
          (fun t x => t.insertOrIgnore { x with entityId := winner.entityId })
          (ids.aliases.delete (·.entityId = duplicate.entityId))
        let externalIds := (ids.externalIds.select (·.entityId = duplicate.entityId)).foldl
          (fun t x => t.insertOrIgnore { x with entityId := winner.entityId })
          (ids.externalIds.delete (·.entityId = duplicate.entityId))
        let entities := ids.entities.update (·.entityId = duplicate.entityId) fun e =>
          { e with status := .redirected, redirectEntityId := some winner.entityId }
        pure (⟨entities, aliases, externalIds⟩, winner)
  | _, _ => throw (.runtimeError "cannot merge a missing canonical entity")

/-! ## Resolution -/

structure EntityRequest where
  tenantId : String
  canonicalName : String
  entityType : String
  ontologyUri : Option String
  aliases : List String

/-- The entity an alias names. -/
def aliasOwner (ids : Identities) (key : AliasKey) : Option Entity :=
  (ids.aliases.lookup key).bind fun x => ids.entities.lookup x.entityId

/-- The entity an ontology URI names. -/
def externalOwner (ids : Identities) (key : ExternalIdKey) : Option Entity :=
  (ids.externalIds.lookup key).bind fun x => ids.entities.lookup x.entityId

/-- The first active entity of that name, by id. -/
def activeNamesake (ids : Identities) (tenantId entityType normalizedName : String) : Option Entity :=
  ((ids.entities.select fun e => e.tenantId = tenantId && e.entityType = entityType &&
    e.normalizedName = normalizedName && e.status = .active).insertionSort
      (fun a b => a.entityId ≤ b.entityId)).head?

/-- `INSERT OR IGNORE INTO v4_entities`, under `UNIQUE(tenant_id, entity_type, identity_key)`. -/
def insertEntity (entities : Table Entity) (e : Entity) : Table Entity :=
  if entities.anyWhere fun x => x.tenantId = e.tenantId && x.entityType = e.entityType &&
      x.identityKey = e.identityKey then entities
  else entities.insertOrIgnore e

def entityByIdentity (entities : Table Entity) (tenantId entityType identityKey : String) : Option Entity :=
  (entities.select fun e => e.tenantId = tenantId && e.entityType = entityType && e.identityKey = identityKey).head?

/-- Insert the entity of a name or URI unless it exists, and read it back. -/
def createEntity (env : Env) (ids : Identities) (q : EntityRequest) (identityKey : String) :
    Except DaoError (Identities × Option Entity) := do
  let entityType := env.upper (env.normalizeIdentityText q.entityType)
  let uri := q.ontologyUri.map env.normalizeOntologyUri
  let entityId ← v4EntityId env q.tenantId q.canonicalName entityType uri
  let entities := insertEntity ids.entities
    ⟨entityId, q.tenantId, entityType, env.strip q.canonicalName, env.normalizeIdentityText q.canonicalName,
      identityKey, .active, none⟩
  pure ({ ids with entities }, entityByIdentity entities q.tenantId entityType identityKey)

/-- Attach one name to the resolved entity, merging it with the name's owner if that differs. -/
def attachAlias (env : Env) (q : EntityRequest) (ids : Identities) (row : Entity) (name : String) :
    Except DaoError (Identities × Entity) :=
  if env.strip name = "" then .ok (ids, row)
  else do
    let key : AliasKey :=
      ⟨q.tenantId, env.upper (env.normalizeIdentityText q.entityType), env.normalizeIdentityText name⟩
    let (ids, row) ← match aliasOwner ids key with
      | some owner => if owner.entityId = row.entityId then pure (ids, row) else mergeEntityRows ids row owner
      | none => pure (ids, row)
    pure ({ ids with aliases := ids.aliases.insertOrIgnore ⟨key, row.entityId⟩ }, row)

/-- Attach a list of names, in the given order. -/
def attachAliases (env : Env) (q : EntityRequest) : Identities → Entity → List String →
    Except DaoError (Identities × Entity)
  | ids, row, [] => .ok (ids, row)
  | ids, row, name :: names => do
    let (ids, row) ← attachAlias env q ids row name
    attachAliases env q ids row names

/-- Attach the ontology URI, merging with the entity that already has it. -/
def attachUri (env : Env) (q : EntityRequest) (ids : Identities) (row : Entity) (uri : String) :
    Except DaoError (Identities × Entity) := do
  let key : ExternalIdKey := ⟨q.tenantId, env.upper (env.normalizeIdentityText q.entityType), uri⟩
  let (ids, row) ← match externalOwner ids key with
    | some owner => if owner.entityId = row.entityId then pure (ids, row) else mergeEntityRows ids row owner
    | none => pure (ids, row)
  pure ({ ids with externalIds := ids.externalIds.insertOrIgnore ⟨key, row.entityId⟩ }, row)

/-- The row a request first lands on: by URI, by alias, by name, or a new one. -/
def locateEntity (env : Env) (ids : Identities) (q : EntityRequest) : Except DaoError (Identities × Option Entity) :=
  let name := env.normalizeIdentityText q.canonicalName
  let entityType := env.upper (env.normalizeIdentityText q.entityType)
  let byUri := q.ontologyUri.bind fun uri => externalOwner ids ⟨q.tenantId, entityType, env.normalizeOntologyUri uri⟩
  let found := (byUri.or (aliasOwner ids ⟨q.tenantId, entityType, name⟩)).or
    (activeNamesake ids q.tenantId entityType name)
  match found with
  | some row => .ok (ids, some row)
  | none => createEntity env ids q (match q.ontologyUri with
    | some uri => "ontology:" ++ env.normalizeOntologyUri uri
    | none => "name:" ++ name)

/-- A request with a URI upgrades a name-only entity by merging it into the URI's entity. -/
def upgradeToOntology (env : Env) (q : EntityRequest) (ids : Identities) (row : Entity) :
    Except DaoError (Identities × Entity) :=
  match q.ontologyUri with
  | none => .ok (ids, row)
  | some uri =>
    if row.isOntology then .ok (ids, row)
    else do
      let (ids, ontologyRow) ← createEntity env ids q ("ontology:" ++ env.normalizeOntologyUri uri)
      match ontologyRow with
      | none => throw (.runtimeError "cannot merge a missing canonical entity")
      | some ontologyRow => mergeEntityRows ids row ontologyRow

/-- `resolve_v4_entity`: resolve external id, alias or canonical name, then create once. The names of
the request are a set in the source; `names` is the order in which it is iterated. -/
def resolveInOrder (env : Env) (ids : Identities) (q : EntityRequest) (names : List String) :
    Except DaoError (Identities × Entity) :=
  if q.ontologyUri.any fun uri => env.normalizeOntologyUri uri = "" then
    .error (.valueError "ontology_uri cannot be blank")
  else do
    let (ids, located) ← locateEntity env ids q
    match located with
    | none => throw (.runtimeError "canonical entity resolution failed")
    | some located => do
      let resolved ← followEntityRedirect ids.entities [] redirectBudget located
      match resolved with
      | none => throw (.runtimeError "canonical entity redirect target is missing")
      | some row => do
        let (ids, row) ← upgradeToOntology env q ids row
        let (ids, row) ← attachAliases env q ids row names
        match q.ontologyUri with
        | none => pure (ids, row)
        | some uri => attachUri env q ids row (env.normalizeOntologyUri uri)

/-- `resolve_v4_entity` with its names in the order of the request. -/
def resolveV4Entity (env : Env) (ids : Identities) (q : EntityRequest) : Except DaoError (Identities × Entity) :=
  resolveInOrder env ids q (q.canonicalName :: q.aliases).eraseDups

/-- The projectors resolve by name alone. -/
def nameRequest (tenantId canonicalName : String) : EntityRequest := ⟨tenantId, canonicalName, "ENTITY", none, []⟩

/-! ## The facts of a mutation -/

/-- One fact for the whole source chunk, when no finer one was extracted. -/
def Mutation.chunkFact (m : Mutation) : Triplet :=
  let evidence := if m.evidenceSpan = "" then m.contentPayload else m.evidenceSpan
  match m.legalIdentity, m.documentChunk with
  | some (statuteCode, articleId), false =>
    ⟨s!"{statuteCode} m.{articleId}", "hükmü", none,
      some (if m.contentPayload = "" then evidence else m.contentPayload), none, "", "", evidence, ""⟩
  | _, _ => ⟨m.documentId, "madde", some m.chunkId, none, none, "", "", evidence, ""⟩

/-- A persisted fact as the projector reads it: checked again, and its object classified. -/
def projectedFact (env : Env) (t : Triplet) : Except DaoError Triplet :=
  let tail := t.tail.filter (· ≠ "")
  if t.head = "" ∨ t.relation = "" ∨ tail.isNone = t.literalValue.isNone then
    .error (.permanentProjection "blank durable projection extraction")
  else
    let (tail, literalValue, objectType) := env.classifyGraphObject tail t.literalValue t.objectType
    .ok { t with tail, literalValue, objectType := some objectType }

/-- `_triplets`: the durable extraction of a mutation, as the projector replays it. -/
def Mutation.facts (env : Env) (m : Mutation) : Except DaoError (List Triplet) :=
  if m.projectionTriplets = [] then .ok [m.chunkFact] else m.projectionTriplets.mapM (projectedFact env)

/-- The entity names of the facts, which the SQL lane resolves before it writes assertions. -/
def entityNames (facts : List Triplet) : List String :=
  ((facts.flatMap fun t => t.head :: t.tail.toList).filter (· ≠ "")).eraseDups.insertionSort (· ≤ ·)

/-! ## Canonical assertions -/

/-- What `project_v4_sql_assertion` derives from a fact before it opens a transaction. -/
structure FactIdentity where
  head : String
  tail : Option String
  literalValue : Option String
  subjectId : String
  objectEntityId : Option String

def identifyFact (env : Env) (tenantId : String) (t : Triplet) : Except DaoError FactIdentity := do
  let (tail, literalValue, _) := env.classifyGraphObject t.tail t.literalValue t.objectType
  let head := env.canonicalizeEntity t.head
  let tail := tail.map env.canonicalizeEntity
  if tail.isNone = literalValue.isNone then
    throw (.valueError "assertion requires one entity or literal object")
  else
    let subjectId ← v4EntityId env tenantId head "ENTITY" none
    let objectEntityId ← match tail with
      | none => pure none
      | some tail => (v4EntityId env tenantId tail "ENTITY" none).map some
    pure ⟨head, tail, literalValue, subjectId, objectEntityId⟩

/-- SQLite `lower(trim(x))`. -/
def foldText (s : String) : String :=
  let trimmed := (s.toList.dropWhile (· = ' ')).reverse.dropWhile (· = ' ')
  String.ofList (trimmed.reverse.map Char.toLower)

/-- The assertions a new assertion supersedes: those of the predecessor revision with the same subject
and predicate, or without a predecessor the active ones whose object the fact names. -/
def supersededBy (c : Core) (ids : Identities) (m : Mutation) (t : Triplet) (assertionId subjectId : String) :
    List String :=
  match (c.revisions.lookup m.revisionId).bind (·.supersedesRevisionId) with
  | some predecessorId =>
    (c.assertions.select fun a => a.tenantId = m.tenantId && a.revisionId = predecessorId &&
      a.subjectId = subjectId && a.predicate = t.relation && a.status ≠ .retracted).map (·.assertionId)
  | none =>
    if t.supersedes = "" then []
    else (c.assertions.select fun a => a.tenantId = m.tenantId && a.datasetId = m.datasetId &&
      a.subjectId = subjectId && a.predicate = t.relation && a.assertionId ≠ assertionId && a.status = .active &&
      foldText ((((a.objectEntityId.bind ids.entities.lookup).map (·.canonicalName)).or a.literalValue).getD "") =
        foldText t.supersedes).map (·.assertionId)

/-- The transaction of `project_v4_sql_assertion`: insert the assertion unless its id exists, and
link it to what it supersedes. -/
def insertAssertion (env : Env) (db : Db) (mutationId : String) (t : Triplet) (f : FactIdentity) :
    Except DaoError (Db × String) :=
  match db.core.mutations.lookup mutationId with
  | none => .error (.integrityError "FOREIGN KEY constraint failed")
  | some m => do
    let evidenceSpan := if t.evidenceSpan = "" then m.evidenceSpan else t.evidenceSpan
    let assertionId ← v4AssertionId env m.tenantId m.datasetId m.revisionId m.chunkId f.subjectId t.relation
      f.objectEntityId f.literalValue evidenceSpan
    let row : Assertion := {
      assertionId, tenantId := m.tenantId, datasetId := m.datasetId, subjectId := f.subjectId
      predicate := t.relation, objectEntityId := f.objectEntityId, literalValue := f.literalValue
      documentId := m.documentId, revisionId := m.revisionId, chunkId := m.chunkId
      validFrom := if t.validFrom = "" then m.metadataValidFrom else t.validFrom
      validTo := if t.validTo = "" then m.metadataValidTo else t.validTo
      status := .active, mutationId, pipelineRunId := m.pipelineRunId }
    let referencesExist := db.idents.entities.hasKey f.subjectId &&
      f.objectEntityId.all db.idents.entities.hasKey && db.core.runs.hasKey m.pipelineRunId
    if ¬ db.core.assertions.hasKey assertionId ∧ ¬ referencesExist then
      throw (.integrityError "FOREIGN KEY constraint failed")
    else
      let assertions := db.core.assertions.insertOrIgnore row
      let core := { db.core with assertions }
      let links := (supersededBy core db.idents m t assertionId f.subjectId).foldl
        (fun ls old => ls.insertOrIgnore ⟨assertionId, old, mutationId⟩) db.core.links
      pure ({ db with core := { core with links } }, assertionId)

/-- `list_v4_assertions_for_mutation`: the live assertions the derived lanes project. -/
def assertionsOf (db : Db) (mutationId : String) : List Assertion :=
  (db.core.assertions.select fun a => a.mutationId = mutationId && a.status ≠ .retracted &&
    db.idents.entities.hasKey a.subjectId).insertionSort fun a b => a.assertionId ≤ b.assertionId

/-- The terminal branch of `_compensate_v4_graph_projection`: a fenced mutation's assertion and its
SQL receipt are removed with the graph artifact. -/
def dropFencedAssertion (db : Db) (mutationId assertionId : String) : Db :=
  match db.core.mutations.lookup mutationId with
  | none => db
  | some m =>
    if m.state.fenced || (db.core.pipelineState m.pipelineRunId).any PipelineState.fenced then
      let links := db.core.links.delete fun l => l.sourceAssertionId = assertionId || l.targetAssertionId = assertionId
      let assertions := db.core.assertions.delete fun a => a.assertionId = assertionId && a.mutationId = mutationId
      let receipts := db.own.receipts.delete fun r => r = ⟨mutationId, .sql, .assertion, assertionId⟩
      { db with core := { db.core with links, assertions }, own := { db.own with receipts } }
    else db

end Mesa.Ledger
