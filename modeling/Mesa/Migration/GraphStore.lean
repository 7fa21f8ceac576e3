/-
The graph artifact that the schema migration copies: its tables, whose newer columns and relations an
old artifact may lack, the snapshot that is read from it, the artifact that is built from a snapshot,
and the digest by which the two are compared.
-/
import Mesa.Foundation.Ordering
import Mesa.Migration.SchemaMigration

namespace Mesa.Migration

open Mesa.Foundation

/-! ## Artifacts -/

/-- The tables and columns of an artifact besides those that every artifact has. -/
structure Shape where
  isQuarantined : Bool
  epistemicUncertainty : Bool
  assertion : Bool
  assertionSubject : Bool
  assertionObject : Bool
  assertionLink : Bool
  objectType : Bool
  representationVersion : Bool
  deriving DecidableEq

/-- A value in a row, as Python has it. -/
inductive Cell (F : Type)
  | text (s : String)
  | number (x : F)
  | flag (b : Bool)
  | none
  deriving DecidableEq

structure EntityNode where
  id : String
  name : String
  agentId : String
  isQuarantined : Bool
  deriving DecidableEq

structure ObservedEdge (F : Type) where
  source : String
  target : String
  weight : F
  updatedAt : String
  agentId : String
  epistemicUncertainty : F
  deriving DecidableEq

structure AssertionNode (F : Type) where
  id : String
  agentId : Cell F
  predicate : Cell F
  objectValue : Cell F
  sourceRef : Cell F
  evidenceSpan : Cell F
  jurisdiction : Cell F
  authorityLevel : Cell F
  validFrom : Cell F
  validTo : Cell F
  observedAt : Cell F
  confidence : Cell F
  status : Cell F
  mutationId : Cell F
  pipelineRunId : Cell F
  objectType : Cell F
  representationVersion : Cell F
  deriving DecidableEq

/-- An artifact: its shape, and its rows in the order in which it holds them. A column that the
shape does not have is never read. -/
structure Graph (F : Type) where
  shape : Shape
  entities : List EntityNode
  observed : List (ObservedEdge F)
  assertions : List (AssertionNode F)
  assertionSubjects : List (String × String)
  assertionObjects : List (String × String)
  assertionLinks : List (String × String × String)
  deriving DecidableEq

/-- `GraphSnapshot`. -/
structure GraphSnapshot (F : Type) where
  nodes : List EntityNode
  edges : List (ObservedEdge F)
  assertions : List (AssertionNode F)
  assertionSubjects : List (String × String)
  assertionObjects : List (String × String)
  assertionLinks : List (String × String × String)
  deriving DecidableEq

variable {F : Type}

def Shape.current : Shape := ⟨true, true, true, true, true, true, true, true⟩

/-- What the engine of the store sees to: primary keys, the end points of relations, and no rows in
a table that does not exist. -/
structure Graph.Consistent (g : Graph F) : Prop where
  entities : (g.entities.map (·.id)).Nodup
  assertions : (g.assertions.map (·.id)).Nodup
  observed : ∀ e ∈ g.observed, e.source ∈ g.entities.map (·.id) ∧ e.target ∈ g.entities.map (·.id)
  subjects : ∀ r ∈ g.assertionSubjects, r.1 ∈ g.assertions.map (·.id) ∧ r.2 ∈ g.entities.map (·.id)
  objects : ∀ r ∈ g.assertionObjects, r.1 ∈ g.assertions.map (·.id) ∧ r.2 ∈ g.entities.map (·.id)
  links : ∀ r ∈ g.assertionLinks, r.1 ∈ g.assertions.map (·.id) ∧ r.2.1 ∈ g.assertions.map (·.id)
  noAssertion : g.shape.assertion = false → g.assertions = []
  noSubject : g.shape.assertionSubject = false → g.assertionSubjects = []
  noObject : g.shape.assertionObject = false → g.assertionObjects = []
  noLink : g.shape.assertionLink = false → g.assertionLinks = []

/-! ## The snapshot -/

/-- A query that names what may be absent. -/
def query {α : Type} (present : Bool) (rows : List α) : Except String (List α) :=
  if present then .ok rows else .error "Binder exception: a table or a property does not exist"

/-- `try: q except RuntimeError: r`. -/
def recoverWith {α : Type} (q : Except String α) (r : α) : α :=
  match q with
  | .ok rows => rows
  | .error _ => r

def ObservedEdge.ends (e : ObservedEdge F) : String ×ₗ String := toLex (e.source, e.target)

def linkEnds (r : String × String × String) : String ×ₗ String := toLex (r.1, r.2.1)

section

variable [Zero F]

/-- `snapshot.nodes`. -/
def Graph.nodes (g : Graph F) : List EntityNode :=
  recoverWith (query g.shape.isQuarantined (orderBy (·.id) g.entities))
    ((orderBy (·.id) g.entities).map fun e => { e with isQuarantined := false })

/-- `snapshot.edges`. -/
def Graph.edges (g : Graph F) : List (ObservedEdge F) :=
  recoverWith (query g.shape.epistemicUncertainty (orderBy (·.ends) g.observed))
    ((orderBy (·.ends) g.observed).map fun e => { e with epistemicUncertainty := 0 })

/-- The columns that a snapshot blanks. -/
def AssertionNode.blank (a : AssertionNode F) : AssertionNode F :=
  { a with objectValue := .text "", sourceRef := .text "", evidenceSpan := .text "" }

/-- The `object_type` of an assertion without that column. -/
def legacyObjectType (objects : List (String × String)) (assertionId : String) : String :=
  if assertionId ∈ objects.map (·.1) then "ENTITY" else "LEGACY_LITERAL"

/-- An assertion without the two newer columns. -/
def AssertionNode.legacy (objects : List (String × String)) (a : AssertionNode F) : AssertionNode F :=
  { a.blank with
    objectType := .text (legacyObjectType objects a.id)
    representationVersion := .text "legacy-v0" }

/-- `snapshot.assertions`, once the relations have been read. -/
def Graph.readAssertions (g : Graph F) (objects : List (String × String)) : Except String (List (AssertionNode F)) :=
  match query (g.shape.assertion && g.shape.objectType && g.shape.representationVersion)
      ((orderBy (·.id) g.assertions).map (·.blank)) with
  | .ok rows => .ok rows
  | .error _ => query g.shape.assertion ((orderBy (·.id) g.assertions).map (·.legacy objects))

/-- The four queries about assertions: if one of them raises, all four are taken to be empty. -/
def Graph.readRelations (g : Graph F) : Except String (GraphSnapshot F) := do
  let assertionSubjects ← query (g.shape.assertion && g.shape.assertionSubject) (orderBy toLex g.assertionSubjects)
  let assertionObjects ← query (g.shape.assertion && g.shape.assertionObject) (orderBy toLex g.assertionObjects)
  let assertionLinks ← query (g.shape.assertion && g.shape.assertionLink) (orderBy linkEnds g.assertionLinks)
  let assertions ← g.readAssertions assertionObjects
  pure ⟨g.nodes, g.edges, assertions, assertionSubjects, assertionObjects, assertionLinks⟩

/-- `_snapshot`. -/
def Graph.snapshot (g : Graph F) : GraphSnapshot F := recoverWith g.readRelations ⟨g.nodes, g.edges, [], [], [], []⟩

end

/-! ## The staging artifact -/

/-- `initialize_schema_artifact`. -/
def Graph.initial : Graph F := ⟨.current, [], [], [], [], [], []⟩

def Graph.createEntity (g : Graph F) (e : EntityNode) : Except String (Graph F) :=
  if e.id ∈ g.entities.map (·.id) then .error "Runtime exception: Found duplicated primary key value"
  else .ok { g with entities := g.entities ++ [e] }

def Graph.createObserved (g : Graph F) (e : ObservedEdge F) : Except String (Graph F) :=
  .ok (if e.source ∈ g.entities.map (·.id) ∧ e.target ∈ g.entities.map (·.id)
    then { g with observed := g.observed ++ [e] } else g)

def Graph.createAssertion (g : Graph F) (a : AssertionNode F) : Except String (Graph F) :=
  if a.id ∈ g.assertions.map (·.id) then .error "Runtime exception: Found duplicated primary key value"
  else .ok { g with assertions := g.assertions ++ [a.blank] }

def Graph.createSubject (g : Graph F) (r : String × String) : Except String (Graph F) :=
  .ok (if r.1 ∈ g.assertions.map (·.id) ∧ r.2 ∈ g.entities.map (·.id)
    then { g with assertionSubjects := g.assertionSubjects ++ [r] } else g)

def Graph.createObject (g : Graph F) (r : String × String) : Except String (Graph F) :=
  .ok (if r.1 ∈ g.assertions.map (·.id) ∧ r.2 ∈ g.entities.map (·.id)
    then { g with assertionObjects := g.assertionObjects ++ [r] } else g)

def Graph.createLink (g : Graph F) (r : String × String × String) : Except String (Graph F) :=
  .ok (if r.1 ∈ g.assertions.map (·.id) ∧ r.2.1 ∈ g.assertions.map (·.id)
    then { g with assertionLinks := g.assertionLinks ++ [r] } else g)

/-- The statements of `_load_snapshot`. -/
def GraphSnapshot.statements (s : GraphSnapshot F) : List (Graph F → Except String (Graph F)) :=
  s.nodes.map (fun e g => g.createEntity e) ++ s.edges.map (fun e g => g.createObserved e) ++
    s.assertions.map (fun a g => g.createAssertion a) ++ s.assertionSubjects.map (fun r g => g.createSubject r) ++
    s.assertionObjects.map (fun r g => g.createObject r) ++ s.assertionLinks.map fun r g => g.createLink r

/-- The artifacts after each statement, and how the sequence ends. -/
def execute : List (Graph F → Except String (Graph F)) → Graph F → List (Graph F) × Ending
  | [], _ => ([], .returns)
  | statement :: rest, g =>
    match statement g with
    | .error e => ([], .raises e)
    | .ok g' => (g' :: (execute rest g').1, (execute rest g').2)

/-- `build`. -/
def GraphSnapshot.build (s : GraphSnapshot F) : Builder (Graph F) where
  contents := (Graph.initial :: (execute s.statements .initial).1).map some
  ending := (execute s.statements .initial).2

/-! ## The digest -/

def EntityNode.row (e : EntityNode) : List (Cell F) := [.text e.id, .text e.name, .text e.agentId, .flag e.isQuarantined]

def ObservedEdge.row (e : ObservedEdge F) : List (Cell F) :=
  [.text e.source, .text e.target, .number e.weight, .text e.updatedAt, .text e.agentId, .number e.epistemicUncertainty]

def AssertionNode.row (a : AssertionNode F) : List (Cell F) :=
  [.text a.id, a.agentId, a.predicate, a.objectValue, a.sourceRef, a.evidenceSpan, a.jurisdiction, a.authorityLevel,
    a.validFrom, a.validTo, a.observedAt, a.confidence, a.status, a.mutationId, a.pipelineRunId, a.objectType,
    a.representationVersion]

def pairRow (r : String × String) : List (Cell F) := [.text r.1, .text r.2]

def linkRow (r : String × String × String) : List (Cell F) := [.text r.1, .text r.2.1, .text r.2.2]

/-- The rows that are digested, one kind after another. -/
def GraphSnapshot.rows (s : GraphSnapshot F) : List (List (Cell F)) :=
  s.nodes.map (·.row) ++ s.edges.map (·.row) ++ s.assertions.map (·.row) ++ s.assertionSubjects.map pairRow ++
    s.assertionObjects.map pairRow ++ s.assertionLinks.map linkRow

/-- How rows are written and digested: `repr` tells rows apart and escapes line breaks, and SHA-256
is taken to have no collision. -/
structure Encoding (F : Type) where
  repr : List (Cell F) → List Char
  repr_injective : Function.Injective repr
  repr_line : ∀ row, '\n' ∉ repr row
  sha256 : List Char → String
  sha256_injective : Function.Injective sha256

/-- `_digest_snapshot`. -/
def Encoding.digestSnapshot (c : Encoding F) (s : GraphSnapshot F) : String :=
  c.sha256 (s.rows.map fun row => c.repr row ++ ['\n']).flatten

/-- The migration of graphs, for the path and the fingerprints of the files. -/
def graphEngine [Zero F] (c : Encoding F) (pathHash : String) (fingerprint : Graph F → String) :
    Engine (Graph F) (GraphSnapshot F) where
  pathHash := pathHash
  snapshot g := .ok g.snapshot
  empty := ⟨[], [], [], [], [], []⟩
  fingerprint := fingerprint
  build := GraphSnapshot.build
  digest := c.digestSnapshot

end Mesa.Migration
