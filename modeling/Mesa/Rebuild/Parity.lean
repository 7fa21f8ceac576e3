/-
The parity check of a rebuilt generation: the identities that the snapshot expects are asked for,
page by page and agent by agent, and the rows of the stores are counted. The keys of the graph are
composed of an agent and an id; it answers with the ids, unless the agent is empty.
-/
import Mesa.Rebuild.Replay

namespace Mesa.Rebuild

open Mesa.Foundation

/-! ## The stores as a verifier reads them -/

/-- A character of `_SAFE_FILTER_VALUE_RE`. -/
def isSafeChar (c : Char) : Bool :=
  ('a' ≤ c ∧ c ≤ 'z') || ('A' ≤ c ∧ c ≤ 'Z') || ('0' ≤ c ∧ c ≤ '9') || c ∈ ['_', '-', '.', '@', ':']

/-- `_SAFE_FILTER_VALUE_RE.match`; the end of the pattern is before a last line break, too. -/
def isSafeValue (value : String) : Bool :=
  let body := if value.toList.getLast? = some '\n' then value.toList.dropLast else value.toList
  !body.isEmpty && body.all isSafeChar

variable {F : Type}

/-- `VectorEngine.get_existing_node_ids`. -/
def Staging.existingVectors (t : Staging F) (agentId : String) (nodeIds : List String) :
    Except RebuildError (List String) :=
  if nodeIds.isEmpty then .ok []
  else if !isSafeValue agentId then .error ⟨.valueError, "agent_id contains unsafe characters for LanceDB filter"⟩
  else .ok ((t.vectors.select fun r =>
    decide (r.agentId = agentId) && nodeIds.any fun id => isSafeValue id && decide (id = r.nodeId)).map (·.nodeId))

/-- `VectorEngine.count_records` of the active rows. -/
def Staging.countVectors (t : Staging F) : Nat := min t.vectors.rows.length 1000000

/-- `KuzuGraphProvider.get_existing_node_ids` of entities. -/
def Staging.existingNodes (t : Staging F) (agentId : String) (nodeIds : List String) : List String :=
  if nodeIds.isEmpty then []
  else t.graph.rows (.existingNodes agentId (nodeIds.map (Provider.compositeId agentId)))

/-- The same for the other label. -/
def Staging.existingAssertions (t : Staging F) (agentId : String) (nodeIds : List String) : List String :=
  if nodeIds.isEmpty then []
  else t.graph.rows (.existingAssertions agentId (nodeIds.map (Provider.compositeId agentId)))

/-! ## The report -/

structure ParityReport where
  expected : ReplayLane → Nat
  actual : ReplayLane → Nat
  missing : Nat
  orphans : Nat

def ParityReport.passed (r : ParityReport) : Bool := decide (r.missing = 0 ∧ r.orphans = 0)

/-- The lanes whose identities are asked for. -/
inductive IdentityLane
  | vector | graphEntity | graphAssertion
  deriving DecidableEq

@[reducible] def IdentityLane.lane : IdentityLane → ReplayLane
  | .vector => .vector
  | .graphEntity => .graphEntity
  | .graphAssertion => .graphAssertion

/-- The agent and the identifier of a row. -/
def IdentityLane.identity : (lane : IdentityLane) → lane.lane.Item → String × String
  | .vector, i => (VectorItem.agentId i, i.assertionId)
  | .graphEntity, i => (EntityItem.agentId i, i.entityId)
  | .graphAssertion, i => (AssertionItem.agentId i, i.assertionId)

/-- The identifiers that a store has, of those of one agent. -/
def Staging.found (t : Staging F) (lane : IdentityLane) (agentId : String) (identifiers : List String) :
    Except RebuildError (List String) :=
  match lane with
  | .vector => t.existingVectors agentId identifiers
  | .graphEntity => .ok (t.existingNodes agentId identifiers)
  | .graphAssertion => .ok (t.existingAssertions agentId identifiers)

/-- `by_agent`: the identifiers of a page, agent by agent. -/
def byAgent (page : List (String × String)) : List (String × List String) :=
  (page.map (·.1)).eraseDups.map fun agentId => (agentId, (page.filter fun p => p.1 = agentId).map (·.2))

/-- `len(set(identifiers) - found)`. -/
def missingOf (identifiers found : List String) : Nat := (identifiers.dedup.filter fun id => id ∉ found).length

/-- The missing identifiers of a page. -/
def Staging.missingInPage (t : Staging F) (lane : IdentityLane) (page : List (String × String)) :
    Except RebuildError Nat :=
  (byAgent page).foldlM (fun total group => do
    let found ← t.found lane group.1 group.2
    pure (total + missingOf group.2 found)) 0

/-- `range(0, expected, parity_limit)`. -/
def pageOffsets (expected parityLimit : Nat) : List Nat :=
  (List.range ((expected + parityLimit - 1) / parityLimit)).map (· * parityLimit)

/-- The missing identifiers of a lane. -/
def Staging.missingInLane (t : Staging F) (s : Snapshot) (graphEnabled : Bool) (parityLimit : Nat)
    (lane : IdentityLane) : Except RebuildError Nat :=
  (pageOffsets (s.counts graphEnabled lane.lane) parityLimit).foldlM (fun total offset => do
    let rows ← s.fetch lane.lane offset parityLimit
    let missing ← t.missingInPage lane (rows.map lane.identity)
    pure (total + missing)) 0

def Staging.actual (t : Staging F) (graphEnabled : Bool) : ReplayLane → Nat
  | .vector => t.countVectors
  | .graphEntity => if graphEnabled then t.graph.entities.rows.length else 0
  | .graphAssertion => if graphEnabled then t.graph.assertions.rows.length else 0
  | .graphLink => if graphEnabled then t.graph.links.rows.length else 0

/-- The identities and the counts of `ProjectionParityVerifier.verify`, on healthy stores. -/
def parityReport (s : Snapshot) (graphEnabled : Bool) (parityLimit : Nat) (t : Staging F) :
    Except RebuildError ParityReport := do
  if ¬ (1 ≤ parityLimit ∧ parityLimit ≤ 10000) then
    throw ⟨.valueError, "invalid projection verification bounds"⟩
  else
    let vectors ← t.missingInLane s graphEnabled parityLimit .vector
    let entities ← t.missingInLane s graphEnabled parityLimit .graphEntity
    let assertions ← t.missingInLane s graphEnabled parityLimit .graphAssertion
    let expected := s.counts graphEnabled
    let actual := t.actual graphEnabled
    pure {
      expected
      actual
      missing := (lanes.map fun lane => expected lane - actual lane).sum + (vectors + entities + assertions)
      orphans := (lanes.map fun lane => actual lane - expected lane).sum }

end Mesa.Rebuild
