/-
The graph behind a provider: entities, assertions with the entities that they are about, and links
between assertions. The statements are those that the provider sends; a MATCH without a row does
nothing, and a MERGE creates what is not there.
-/
import Mesa.Foundation.Table

namespace Mesa.Provider

open Mesa.Foundation

/-! ## The store -/

structure EntityRow where
  id : String
  name : String
  agentId : String
  deriving DecidableEq

instance : Keyed EntityRow String := ⟨EntityRow.id⟩

/-- An assertion with its relations to entities. `P` are the properties that are written when it is
created, besides its agent. -/
structure AssertionRow (P : Type) where
  id : String
  agentId : String
  properties : P
  subjects : List String
  objects : List String
  deriving DecidableEq

instance {P : Type} : Keyed (AssertionRow P) String := ⟨AssertionRow.id⟩

/-- `AssertionLink`: one relation between two assertions. -/
structure LinkRow where
  source : String
  target : String
  relationType : String
  deriving DecidableEq

instance : Keyed LinkRow (String × String) := ⟨fun r => (r.source, r.target)⟩

structure Graph (P : Type) where
  entities : Table EntityRow
  assertions : Table (AssertionRow P)
  links : Table LinkRow

/-- The relation between an assertion and an entity. -/
inductive Relation
  | assertionSubject | assertionObject
  deriving DecidableEq

variable {P : Type}

def Graph.empty : Graph P := ⟨.empty, .empty, .empty⟩

def AssertionRow.ends (r : AssertionRow P) : Relation → List String
  | .assertionSubject => r.subjects
  | .assertionObject => r.objects

/-- The entities of an agent among these ids. -/
def Graph.named (g : Graph P) (agentId : String) (ids : List String) (id : String) : Bool :=
  decide (id ∈ ids) && (g.entities.lookup id).any fun e => e.agentId = agentId

/-- An assertion that a relation connects to one of these entities. -/
def Graph.attached (g : Graph P) (relation : Relation) (agentId : String) (ids : List String) (r : AssertionRow P) :
    Bool :=
  (r.ends relation).any (g.named agentId ids)

/-! ## Statements -/

inductive Statement (P : Type)
  | beginTransaction
  | commit
  | rollback
  /-- `_UPSERT_NODE_CYPHER`. -/
  | mergeNode (row : EntityRow)
  /-- The statement of `insert_assertion`; the row has no relations yet. -/
  | mergeAssertion (id agentId : String) (properties : P) (subject : String) (object : Option String)
  /-- The statement of `link_assertions`. -/
  | mergeLink (agentId : String) (row : LinkRow)
  | attachedAssertions (relation : Relation) (agentId : String) (ids : List String)
  | deleteAttached (relation : Relation) (agentId : String) (ids : List String)
  | deleteNodes (agentId : String) (ids : List String)
  | deleteAssertions (agentId : String) (ids : List String)
  | existingNodes (agentId : String) (ids : List String)
  | existingAssertions (agentId : String) (ids : List String)

/-- MERGE of a relation: it is there once. -/
def merged (ends : List String) (e : String) : List String := if e ∈ ends then ends else ends ++ [e]

def AssertionRow.linked (subject : String) (object : Option String) (r : AssertionRow P) : AssertionRow P :=
  { r with
    subjects := merged r.subjects subject
    objects := object.elim r.objects (merged r.objects) }

/-- The end points that the MATCH of an assertion asks for are there. -/
def Graph.matches (g : Graph P) (subject : String) (object : Option String) : Bool :=
  g.entities.hasKey subject && object.all g.entities.hasKey

def Graph.mergeAssertion (g : Graph P) (id agentId : String) (properties : P) (subject : String)
    (object : Option String) : Graph P :=
  if g.matches subject object then
    { g with
      assertions := g.assertions.upsert
        (AssertionRow.linked subject object ⟨id, agentId, properties, [], []⟩) (·.linked subject object) }
  else g

/-- DETACH DELETE of assertions. -/
def Graph.dropAssertions (g : Graph P) (p : AssertionRow P → Bool) : Graph P :=
  { g with
    assertions := g.assertions.delete p
    links := g.links.delete fun l =>
      (g.assertions.lookup l.source).any p || (g.assertions.lookup l.target).any p }

def AssertionRow.without (gone : String → Bool) (r : AssertionRow P) : AssertionRow P :=
  { r with
    subjects := r.subjects.filter fun e => !gone e
    objects := r.objects.filter fun e => !gone e }

/-- DETACH DELETE of entities. -/
def Graph.dropEntities (g : Graph P) (agentId : String) (ids : List String) : Graph P :=
  { g with
    entities := g.entities.delete fun e => g.named agentId ids e.id
    assertions := g.assertions.update (fun _ => true) (·.without (g.named agentId ids)) }

def Graph.mergeLink (g : Graph P) (agentId : String) (row : LinkRow) : Graph P :=
  if (g.assertions.lookup row.source).any (fun r => r.agentId = agentId) &&
      (g.assertions.lookup row.target).any (fun r => r.agentId = agentId) then
    { g with links := g.links.insertOrIgnore row }
  else g

/-- What a statement makes of the graph. -/
def Graph.apply (g : Graph P) : Statement P → Graph P
  | .mergeNode row => { g with entities := g.entities.insertOrIgnore row }
  | .mergeAssertion id agentId properties subject object => g.mergeAssertion id agentId properties subject object
  | .mergeLink agentId row => g.mergeLink agentId row
  | .deleteAttached relation agentId ids => g.dropAssertions (g.attached relation agentId ids)
  | .deleteNodes agentId ids => g.dropEntities agentId ids
  | .deleteAssertions agentId ids => g.dropAssertions fun r => decide (r.id ∈ ids) && decide (r.agentId = agentId)
  | _ => g

/-- `_sync_execute`: the prefix of the agent that asks is cut off the ids that it gets. -/
def visibleId (agentId id : String) : String :=
  if agentId ≠ "" ∧ (agentId ++ "::").toList.isPrefixOf id.toList then
    String.ofList (id.toList.drop (agentId ++ "::").length)
  else id

/-- The rows that a query returns. -/
def Graph.rows (g : Graph P) : Statement P → List String
  | .attachedAssertions relation agentId ids =>
    (g.assertions.select (g.attached relation agentId ids)).map fun r => visibleId agentId r.id
  | .existingNodes agentId ids =>
    (g.entities.select fun e => decide (e.id ∈ ids) && decide (e.agentId = agentId)).map fun e => visibleId agentId e.id
  | .existingAssertions agentId ids =>
    (g.assertions.select fun r => decide (r.id ∈ ids) && decide (r.agentId = agentId)).map fun r => visibleId agentId r.id
  | _ => []

end Mesa.Provider
