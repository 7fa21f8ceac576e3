/-
Tasks over one graph provider. Every statement is awaited: it is sent, executed on the one shared
connection, and only then does the task go on, so any other task may act before and after the
execution. BEGIN, COMMIT and ROLLBACK are statements like any other, and the caches of known ids
belong to the provider and not to a task.
-/
import Mesa.Foundation.Run
import Mesa.Provider.Graph

namespace Mesa.Provider

open Mesa.Foundation

variable {P : Type}

/-! ## Operations -/

/-- `_composite_id`. -/
def compositeId (agentId nodeId : String) : String := agentId ++ "::" ++ nodeId

/-- An agent gets its own ids back. -/
theorem visibleId_compositeId {agentId : String} (h : agentId ≠ "") (nodeId : String) :
    visibleId agentId (compositeId agentId nodeId) = nodeId := by
  have hlist : (compositeId agentId nodeId).toList = (agentId ++ "::").toList ++ nodeId.toList := by
    rw [compositeId, String.toList_append]
  rw [visibleId, if_pos ⟨h, by rw [hlist]; exact List.isPrefixOf_iff_prefix.2 (List.prefix_append _ _)⟩, hlist,
    ← String.length_toList, List.drop_left, String.ofList_toList]

/-- Without an agent nothing is cut off. -/
theorem visibleId_empty (id : String) : visibleId "" id = id := by
  simp [visibleId]

inductive Operation (P : Type)
  | insertNode (nodeId name agentId : String)
  | insertAssertion (assertionId subjectId : String) (objectId objectValue : Option String) (agentId : String)
    (properties : P)
  | deleteNodes (agentId : String) (nodeIds : List String)
  | deleteAssertions (agentId : String) (assertionIds : List String)
  | verifyNodesAbsent (agentId : String) (nodeIds : List String)

/-- `object_key`: an empty object id is no object. -/
def objectKey (agentId : String) (objectId : Option String) : Option String :=
  (objectId.filter (· ≠ "")).map (compositeId agentId)

/-- The statements that an operation awaits, one after the other. -/
def Operation.statements : Operation P → List (Statement P)
  | .insertNode nodeId name agentId => [.mergeNode ⟨compositeId agentId nodeId, name, agentId⟩]
  | .insertAssertion assertionId subjectId objectId _ agentId properties =>
    [.mergeAssertion (compositeId agentId assertionId) agentId properties (compositeId agentId subjectId)
      (objectKey agentId objectId)]
  | .deleteNodes agentId nodeIds =>
    let ids := nodeIds.map (compositeId agentId)
    [.attachedAssertions .assertionSubject agentId ids, .attachedAssertions .assertionObject agentId ids,
      .deleteAttached .assertionSubject agentId ids, .deleteAttached .assertionObject agentId ids,
      .deleteNodes agentId ids]
  | .deleteAssertions agentId assertionIds => [.deleteAssertions agentId (assertionIds.map (compositeId agentId))]
  | .verifyNodesAbsent agentId nodeIds => [.existingNodes agentId (nodeIds.map (compositeId agentId))]

/-- The argument check of `insert_assertion`. -/
def Operation.invalid : Operation P → Bool
  | .insertAssertion _ _ objectId objectValue _ _ => objectId.isNone == objectValue.isNone
  | _ => false

/-- The operations that have nothing to do. -/
def Operation.empty : Operation P → Bool
  | .deleteNodes _ nodeIds => nodeIds.isEmpty
  | .deleteAssertions _ assertionIds => assertionIds.isEmpty
  | .verifyNodesAbsent _ nodeIds => nodeIds.isEmpty
  | _ => false

/-- An exception of the queries of `delete_nodes` is logged and goes no further. -/
def Operation.swallows (op : Operation P) (position : Nat) : Bool :=
  match op with
  | .deleteNodes _ _ => position < 2
  | _ => false

/-- The attached assertions that `delete_nodes` notes. -/
def Operation.notes (op : Operation P) (position : Nat) (rows : List String) : List String :=
  match op with
  | .deleteNodes agentId _ =>
    if position < 2 then (rows.filter (· ≠ "")).map fun raw =>
      if (agentId ++ "::").toList.isPrefixOf raw.toList then raw else compositeId agentId raw
    else []
  | _ => []

/-! ## Caches -/

/-- The caches; the last set of a stack comes first. -/
structure Caches where
  knownNodes : List String
  knownAssertions : List String
  stagedNodes : List (List String)
  stagedAssertions : List (List String)

/-- Adding to the last staged set, or to the known ids when there is none. -/
def remember (known : List String) (staged : List (List String)) (id : String) : List String × List (List String) :=
  match staged with
  | [] => (id :: known, [])
  | last :: rest => (known, (id :: last) :: rest)

def forget (ids known : List String) : List String := known.filter fun id => id ∉ ids

/-- What an operation does to the caches when its last statement has returned. -/
def Caches.finish (c : Caches) (noted : List String) : Operation P → Caches
  | .insertNode nodeId _ agentId =>
    let (knownNodes, stagedNodes) := remember c.knownNodes c.stagedNodes (compositeId agentId nodeId)
    { c with knownNodes, stagedNodes }
  | .insertAssertion assertionId _ _ _ agentId _ =>
    let (knownAssertions, stagedAssertions) :=
      remember c.knownAssertions c.stagedAssertions (compositeId agentId assertionId)
    { c with knownAssertions, stagedAssertions }
  | .deleteNodes agentId nodeIds =>
    ⟨forget (nodeIds.map (compositeId agentId)) c.knownNodes, forget noted c.knownAssertions,
      c.stagedNodes.map (forget (nodeIds.map (compositeId agentId))), c.stagedAssertions.map (forget noted)⟩
  | .deleteAssertions agentId assertionIds =>
    { c with
      knownAssertions := forget (assertionIds.map (compositeId agentId)) c.knownAssertions
      stagedAssertions := c.stagedAssertions.map (forget (assertionIds.map (compositeId agentId))) }
  | .verifyNodesAbsent _ _ => c

/-- An insert whose id is known. -/
def Caches.knows (c : Caches) : Operation P → Bool
  | .insertNode nodeId _ agentId => decide (compositeId agentId nodeId ∈ c.knownNodes)
  | .insertAssertion assertionId _ _ _ agentId _ => decide (compositeId agentId assertionId ∈ c.knownAssertions)
  | _ => false

/-- An insert whose id is staged. -/
def Caches.stages (c : Caches) : Operation P → Bool
  | .insertNode nodeId _ agentId => c.stagedNodes.any fun s => decide (compositeId agentId nodeId ∈ s)
  | .insertAssertion assertionId _ _ _ agentId _ =>
    c.stagedAssertions.any fun s => decide (compositeId agentId assertionId ∈ s)
  | _ => false

/-- After BEGIN. -/
def Caches.push (c : Caches) : Caches :=
  { c with stagedNodes := [] :: c.stagedNodes, stagedAssertions := [] :: c.stagedAssertions }

/-- After COMMIT: the last staged sets go to the ones before them, or to the known ids. -/
def Caches.merge (c : Caches) : Caches :=
  match c.stagedNodes.drop 1, c.stagedAssertions.drop 1 with
  | nodes :: restNodes, assertions :: restAssertions =>
    { c with
      stagedNodes := (c.stagedNodes.headD [] ++ nodes) :: restNodes
      stagedAssertions := (c.stagedAssertions.headD [] ++ assertions) :: restAssertions }
  | restNodes, restAssertions =>
    ⟨c.stagedNodes.headD [] ++ c.knownNodes, c.stagedAssertions.headD [] ++ c.knownAssertions, restNodes, restAssertions⟩

/-- In the handler, before ROLLBACK. -/
def Caches.discard (c : Caches) : Caches :=
  { c with stagedNodes := c.stagedNodes.drop 1, stagedAssertions := c.stagedAssertions.drop 1 }

/-! ## Tasks -/

inductive Answer
  | rows (ids : List String)
  | raised

/-- A statement is sent and waits, or it has been executed and its task has not gone on yet. -/
inductive Phase
  | waiting
  | answered (answer : Answer)

/-- Where a task is. -/
inductive Control (P : Type)
  | outside
  /-- In the body of `transaction`. -/
  | inside
  | entering (phase : Phase)
  | committing (phase : Phase)
  | rollingBack (phase : Phase)
  | calling (inTransaction : Bool) (op : Operation P) (position : Nat) (noted : List String) (phase : Phase)

/-- The transaction that is open on the connection, with what has happened in it. -/
structure Transaction (P : Type) where
  owner : Nat
  /-- The graph at BEGIN. -/
  before : Graph P
  createdNodes : List String
  createdAssertions : List String
  removedNodes : List String
  removedAssertions : List String
  /-- The other tasks of which a write has come into the transaction, executed or skipped. -/
  foreign : List Nat

/-- An operation that has returned, and the rows of its last statement. -/
structure Returned (P : Type) where
  task : Nat
  op : Operation P
  rows : List String

structure State (P : Type) where
  graph : Graph P
  transaction : Option (Transaction P)
  caches : Caches
  tasks : Nat → Control P
  /-- The graph that there is if a rollback takes back the writes of its own task only. Nothing in
  the provider reads this or the history. -/
  expected : Graph P
  history : List (Returned P)

def State.start (g : Graph P) : State P where
  graph := g
  transaction := none
  caches := ⟨[], [], [], []⟩
  tasks _ := .outside
  expected := g
  history := []

def Control.awaits : Control P → Option (Statement P)
  | .entering .waiting => some .beginTransaction
  | .committing .waiting => some .commit
  | .rollingBack .waiting => some .rollback
  | .calling _ op position _ .waiting => op.statements[position]?
  | _ => none

def Control.answered (a : Answer) : Control P → Control P
  | .entering _ => .entering (.answered a)
  | .committing _ => .committing (.answered a)
  | .rollingBack _ => .rollingBack (.answered a)
  | .calling inTransaction op position noted _ => .calling inTransaction op position noted (.answered a)
  | c => c

def State.goTo (s : State P) (t : Nat) (c : Control P) : State P := { s with tasks := Function.update s.tasks t c }

def State.answer (s : State P) (t : Nat) (a : Answer) : State P := s.goTo t ((s.tasks t).answered a)

/-! ## Steps -/

def Statement.writes : Statement P → Bool
  | .mergeNode _ | .mergeAssertion .. | .mergeLink .. | .deleteAttached .. | .deleteNodes .. | .deleteAssertions .. => true
  | _ => false

/-- The rows of one table that the other does not have. -/
def newKeys {ρ : Type} [Keyed ρ String] (t u : Table ρ) : List String :=
  (t.rows.map Keyed.key).filter fun k => !u.hasKey k

/-- What is noted of a statement that a task executes in the transaction. -/
def Transaction.record (tx : Transaction P) (t : Nat) (g g' : Graph P) (writes : Bool) : Transaction P :=
  { tx with
    createdNodes := newKeys g'.entities g.entities ++ tx.createdNodes
    createdAssertions := newKeys g'.assertions g.assertions ++ tx.createdAssertions
    removedNodes := newKeys g.entities g'.entities ++ tx.removedNodes
    removedAssertions := newKeys g.assertions g'.assertions ++ tx.removedAssertions
    foreign := if writes ∧ t ≠ tx.owner then t :: tx.foreign else tx.foreign }

/-- What the task writes does not belong to the open transaction. -/
def State.independent (s : State P) (t : Nat) : Bool := s.transaction.all fun tx => tx.owner ≠ t

/-- The execution of a statement that reads or writes rows. -/
def State.perform (s : State P) (t : Nat) (statement : Statement P) : State P :=
  { s with
    graph := s.graph.apply statement
    transaction := s.transaction.map (·.record t s.graph (s.graph.apply statement) statement.writes)
    expected := if s.independent t then s.expected.apply statement else s.expected }

/-- The execution of BEGIN: there is one transaction at a time. -/
def State.openTransaction (s : State P) (t : Nat) : State P :=
  match s.transaction with
  | some _ => s.answer t .raised
  | none => { s with transaction := some ⟨t, s.graph, [], [], [], [], []⟩, expected := s.graph }.answer t (.rows [])

/-- The execution of COMMIT. -/
def State.commit (s : State P) (t : Nat) : State P :=
  match s.transaction with
  | some _ => { s with transaction := none, expected := s.graph }.answer t (.rows [])
  | none => s.answer t .raised

/-- The execution of ROLLBACK. -/
def State.rollback (s : State P) (t : Nat) : State P :=
  match s.transaction with
  | some tx => { s with transaction := none, graph := tx.before }.answer t (.rows [])
  | none => s.answer t .raised

/-- The execution of the statement that a task awaits, on the shared connection. -/
def State.execute (s : State P) (t : Nat) : Statement P → State P
  | .beginTransaction => s.openTransaction t
  | .commit => s.commit t
  | .rollback => s.rollback t
  | statement => (s.perform t statement).answer t (.rows (s.graph.rows statement))

/-- Where an operation goes back to. -/
def callerOf (inTransaction : Bool) : Control P := if inTransaction then .inside else .outside

/-- The operation returns. -/
def State.returns (s : State P) (t : Nat) (inTransaction : Bool) (op : Operation P) (rows : List String) : State P :=
  { s with history := ⟨t, op, rows⟩ :: s.history }.goTo t (callerOf inTransaction)

/-- An insert that is skipped for a staged id is a write that its task takes to be done. -/
def State.skip (s : State P) (t : Nat) (op : Operation P) : State P :=
  match s.transaction with
  | some tx =>
    if tx.owner = t ∨ s.caches.knows op then s
    else { s with
      transaction := some { tx with foreign := t :: tx.foreign }
      expected := op.statements.foldl Graph.apply s.expected }
  | none => s

/-- The call of an operation, up to its first await. -/
def State.call (s : State P) (t : Nat) (inTransaction : Bool) (op : Operation P) : State P :=
  if op.invalid then s
  else if op.empty then s.returns t inTransaction op []
  else if s.caches.knows op || s.caches.stages op then (s.skip t op).returns t inTransaction op []
  else s.goTo t (.calling inTransaction op 0 [] .waiting)

/-- The next await of an operation, or its end. -/
def State.advance (s : State P) (t : Nat) (inTransaction : Bool) (op : Operation P) (position : Nat)
    (noted rows : List String) : State P :=
  if position + 1 < op.statements.length then s.goTo t (.calling inTransaction op (position + 1) noted .waiting)
  else { s with caches := s.caches.finish noted op }.returns t inTransaction op rows

/-- A task goes on after its statement. -/
def State.resume (s : State P) (t : Nat) : State P :=
  match s.tasks t with
  | .entering (.answered (.rows _)) => { s with caches := s.caches.push }.goTo t .inside
  | .entering (.answered .raised) => s.goTo t .outside
  | .committing (.answered (.rows _)) => { s with caches := s.caches.merge }.goTo t .outside
  | .committing (.answered .raised) => { s with caches := s.caches.discard }.goTo t (.rollingBack .waiting)
  | .rollingBack (.answered _) => s.goTo t .outside
  | .calling inTransaction op position noted (.answered (.rows rows)) =>
    s.advance t inTransaction op position (noted ++ op.notes position rows) rows
  | .calling inTransaction op position noted (.answered .raised) =>
    if op.swallows position then s.advance t inTransaction op position noted []
    else s.goTo t (callerOf inTransaction)
  | _ => s

inductive Step (P : Type)
  /-- A task that awaits nothing calls an operation. -/
  | call (t : Nat) (op : Operation P)
  /-- A task enters `transaction`. -/
  | enter (t : Nat)
  /-- The body of a transaction ends. -/
  | leave (t : Nat)
  /-- The body of a transaction raises. -/
  | fail (t : Nat)
  /-- The statement that a task awaits is executed. -/
  | execute (t : Nat)
  /-- The statement that a task awaits raises and does nothing. -/
  | refuse (t : Nat)
  | resume (t : Nat)

def State.callFrom (s : State P) (t : Nat) (op : Operation P) : State P :=
  match s.tasks t with
  | .outside => s.call t false op
  | .inside => s.call t true op
  | _ => s

def State.enter (s : State P) (t : Nat) : State P :=
  match s.tasks t with
  | .outside => s.goTo t (.entering .waiting)
  | _ => s

def State.leave (s : State P) (t : Nat) : State P :=
  match s.tasks t with
  | .inside => s.goTo t (.committing .waiting)
  | _ => s

def State.fail (s : State P) (t : Nat) : State P :=
  match s.tasks t with
  | .inside => { s with caches := s.caches.discard }.goTo t (.rollingBack .waiting)
  | _ => s

def State.serve (s : State P) (t : Nat) : State P :=
  match (s.tasks t).awaits with
  | some statement => s.execute t statement
  | none => s

def State.refuse (s : State P) (t : Nat) : State P :=
  match (s.tasks t).awaits with
  | some _ => s.answer t .raised
  | none => s

def exec (s : State P) : Step P → State P
  | .call t op => s.callFrom t op
  | .enter t => s.enter t
  | .leave t => s.leave t
  | .fail t => s.fail t
  | .execute t => s.serve t
  | .refuse t => s.refuse t
  | .resume t => s.resume t

end Mesa.Provider
