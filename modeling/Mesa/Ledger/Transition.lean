/-
The two state machines of the lifecycle ledger and what a mutation transition drags along: the
aggregate state of its pipeline run and, on commit, fact-level supersession and the activation
of its revision. Every function reads tables and returns the tables it writes.
-/
import Mesa.Foundation.Result
import Mesa.Ledger.State

namespace Mesa.Ledger

open Mesa.Foundation

/-! ## Transition tables -/

/-- The states `_transition_memory_mutation_in_tx` allows after each state. -/
def MutationState.next : MutationState → List MutationState
  | .received => [.extracted, .retryPending, .deadLetter, .blocked, .rejected, .rollingBack, .purging, .purged,
      .cancelled]
  | .extracted => [.validated, .retryPending, .deadLetter, .blocked, .rejected, .rollingBack, .purging, .purged,
      .cancelled]
  | .validated => [.sqlApplied, .retryPending, .deadLetter, .blocked, .rejected, .rollingBack, .purging, .purged,
      .cancelled]
  | .pending => [.sqlApplied, .retryPending, .deadLetter, .blocked, .rejected, .rollingBack, .purging, .purged,
      .cancelled]
  | .sqlApplied => [.vectorApplied, .retryPending, .deadLetter, .blocked, .rejected, .rollingBack, .purging,
      .purged, .cancelled]
  | .vectorApplied => [.graphApplied, .retryPending, .deadLetter, .blocked, .rejected, .rollingBack, .purging,
      .purged, .cancelled]
  | .graphApplied => [.committed, .retryPending, .deadLetter, .blocked, .rejected, .rollingBack, .purging,
      .purged, .cancelled]
  | .committed => [.retryPending, .rollingBack, .purging, .purged]
  | .retryPending => [.pending, .extracted, .deadLetter, .blocked, .rejected, .rollingBack, .purging, .purged,
      .cancelled]
  | .deadLetter => [.retryPending, .rollingBack, .purged]
  | .blocked => [.retryPending, .rollingBack, .purged]
  | .rollingBack => [.rolledBack, .blocked, .cancelled]
  | .purging => [.purged]
  | .rolledBack | .purged | .rejected | .cancelled => []

/-- The states `_transition_pipeline_run_in_tx` allows after each state. -/
def PipelineState.next : PipelineState → List PipelineState
  | .queued => [.running, .retryPending, .dlq, .rollingBack, .blocked, .purged, .cancelled]
  | .running => [.extracted, .validated, .projecting, .committed, .retryPending, .dlq, .rollingBack, .blocked,
      .purged, .cancelled]
  | .extracted => [.validated, .projecting, .committed, .retryPending, .dlq, .rollingBack, .blocked, .purged,
      .cancelled]
  | .validated => [.projecting, .committed, .retryPending, .dlq, .rollingBack, .blocked, .purged, .cancelled]
  | .projecting => [.committed, .retryPending, .dlq, .rollingBack, .blocked, .purged, .cancelled]
  | .retryPending => [.running, .projecting, .committed, .dlq, .rollingBack, .blocked, .purged, .cancelled]
  | .dlq => [.retryPending, .rollingBack, .blocked, .purged, .cancelled]
  | .rollingBack => [.rolledBack, .blocked, .purged, .cancelled]
  | .blocked => [.retryPending, .rollingBack, .purged, .cancelled]
  | .committed => [.retryPending, .rollingBack, .purged, .cancelled]
  | .rolledBack | .purged | .cancelled | .rejected => []

/-! ## Pipeline runs -/

def setRunState (runs : Table PipelineRun) (pipelineRunId : String) (state : PipelineState) : Table PipelineRun :=
  runs.update (fun r => r.pipelineRunId = pipelineRunId) fun r => { r with state := state }

/-- `_transition_pipeline_run_in_tx`: compare-and-swap one legal pipeline transition. -/
def transitionPipelineRun (runs : Table PipelineRun) (pipelineRunId : String) (toState : PipelineState) :
    Except DaoError (Table PipelineRun × Bool) :=
  match runs.lookup pipelineRunId with
  | none => .error (.valueError "unknown pipeline run")
  | some row =>
    if row.state = toState then .ok (runs, true)
    else if toState ∈ row.state.next then .ok (setRunState runs pipelineRunId toState, true)
    else .ok (runs, false)

/-- The parent state that the states of all child mutations derive. -/
def aggregateState (childStates : List MutationState) : PipelineState :=
  if childStates.all (· = .committed) then .committed
  else if childStates.any (· ∈ [.deadLetter, .blocked, .rejected]) then .dlq
  else if childStates.any (· = .retryPending) then .retryPending
  else if childStates.any (· ∈ [.sqlApplied, .vectorApplied, .graphApplied]) then .projecting
  else if childStates.any (· = .validated) then .validated
  else if childStates.any (· = .extracted) then .extracted
  else .running

/-- `_recompute_pipeline_state_in_tx`: derive the run's state from its children. -/
def recomputePipelineState (mutations : Table Mutation) (runs : Table PipelineRun) (pipelineRunId : String) :
    Except DaoError (Table PipelineRun × Bool) :=
  let childStates := (mutations.select fun m => m.pipelineRunId = pipelineRunId).map (·.state)
  if childStates = [] then .ok (runs, false)
  else
    let target := aggregateState childStates
    match runs.lookup pipelineRunId with
    | none => .error (.valueError "unknown pipeline run")
    | some row =>
      if row.state = .queued ∧ target ∈ [.extracted, .validated, .projecting, .committed] then do
        let (runs, started) ← transitionPipelineRun runs pipelineRunId .running
        if started then transitionPipelineRun runs pipelineRunId target else pure (runs, false)
      else transitionPipelineRun runs pipelineRunId target

/-! ## Supersession and revision heads -/

/-- `valid_to = CASE WHEN valid_to = '' AND v != '' THEN v ELSE valid_to END`. -/
def closeValidity (validFrom validTo : String) : String :=
  if validTo = "" ∧ validFrom ≠ "" then validFrom else validTo

/-- `_activate_assertion_supersession_links_in_tx`: each link the mutation wrote supersedes its
target, if that is still active, from the source assertion's `valid_from` on. -/
def activateAssertionSupersessionLinks (links : Table AssertionLink) (assertions : Table Assertion)
    (mutationId : String) : Table Assertion :=
  let targets := (links.select fun l => l.mutationId = mutationId).filterMap fun l =>
    (assertions.lookup l.sourceAssertionId).map fun source => (l.targetAssertionId, source.validFrom)
  targets.foldl
    (fun as (target, sourceValidFrom) =>
      as.update (fun a => a.assertionId = target ∧ a.status = .active) fun a =>
        { a with status := .superseded, validTo := closeValidity sourceValidFrom a.validTo })
    assertions

/-- `UPDATE document_revisions SET status = 'ACTIVE' WHERE p`, under the partial unique index
that allows one ACTIVE revision for each document. -/
def activateRevisions (revisions : Table Revision) (p : Revision → Bool) : Except DaoError (Table Revision) :=
  let updated := revisions.update p fun r => { r with status := .active }
  if (updated.select fun r => r.status = .active).Pairwise (fun r s => r.documentId ≠ s.documentId) then .ok updated
  else .error (.integrityError "UNIQUE constraint failed: document_revisions.document_id")

/-- Every chunk of the revision's manifest has a committed mutation, and no child is uncommitted. -/
def revisionComplete (c : Core) (revisionId : String) : Bool :=
  let childStates := (c.mutations.select fun m => m.revisionId = revisionId).map (·.state)
  let manifest := c.chunks.select fun k => k.revisionId = revisionId
  childStates ≠ [] && childStates.all (· = .committed) && manifest ≠ [] &&
    manifest.all fun k => c.mutations.anyWhere fun m =>
      m.revisionId = k.revisionId && m.chunkId = k.chunkId && m.state = .committed

/-- Supersede the predecessor head and its active assertions, and make the revision the head. -/
def supersedeHead (c : Core) (rev : Revision) (predecessorId : String) : Except DaoError Core :=
  let validFrom := match (c.mutations.select fun m => m.revisionId = rev.revisionId ∧ m.state = .committed).head? with
    | some m => m.metadataValidFrom
    | none => ""
  let status := (c.revisions.lookup predecessorId).map (·.status)
  let found := (status.map RevisionStatus.text).getD "missing"
  if status ≠ some .active then
    .error (.valueError (s!"revision supersession conflict: predecessor {predecessorId} is no longer ACTIVE " ++
      s!"({found})"))
  else if ¬ c.revisions.anyWhere fun r =>
      r.revisionId = predecessorId && r.documentId = rev.documentId && r.status = .active then
    .error (.valueError "revision supersession conflict: predecessor head changed")
  else
    let superseded := c.revisions.update
      (fun r => r.revisionId = predecessorId && r.documentId = rev.documentId && r.status = .active)
      fun r => { r with status := .superseded }
    if ¬ superseded.anyWhere fun r => r.revisionId = rev.revisionId && r.status = .pending then
      .error (.valueError "revision supersession conflict: successor is not pending")
    else do
      let revisions ← activateRevisions superseded fun r => r.revisionId = rev.revisionId && r.status = .pending
      let assertions := c.assertions.update
        (fun a => a.tenantId = rev.tenantId && a.revisionId = predecessorId && a.status = .active)
        fun a => { a with status := .superseded, validTo := closeValidity validFrom a.validTo }
      pure { c with revisions, assertions }

/-- Make a revision without predecessor the head of a document that has none. -/
def activateFirstHead (c : Core) (rev : Revision) : Except DaoError Core :=
  if c.revisions.anyWhere fun r => r.documentId = rev.documentId && r.status = .active then
    .error (.valueError "revision-head conflict: document already has an ACTIVE revision")
  else do
    let revisions ← activateRevisions c.revisions fun r => r.revisionId = rev.revisionId && r.status = .pending
    pure { c with revisions }

/-- `_reconcile_revision_activation_in_tx`: evaluate completeness and the head invariant. -/
def reconcileRevisionActivation (c : Core) (revisionId : String) : Except DaoError Core :=
  match c.revisions.lookup revisionId with
  | none => .ok c
  | some rev =>
    if rev.status ≠ .pending then .ok c
    else if rev.manifestHash = "" ∨ rev.manifestFrozen = false then .ok c
    else if ¬ revisionComplete c revisionId then .ok c
    else match rev.supersedesRevisionId with
      | some predecessorId => supersedeHead c rev predecessorId
      | none => activateFirstHead c rev

/-- `_activate_committed_revision_in_tx`: the side effects of a mutation's commit. -/
def activateCommittedRevision (c : Core) (mutationId : String) : Except DaoError Core :=
  match c.mutations.lookup mutationId with
  | none => .ok c
  | some m =>
    let c := if c.pipelineState m.pipelineRunId ∈ [none, some .committed] then
      { c with assertions := activateAssertionSupersessionLinks c.links c.assertions mutationId } else c
    reconcileRevisionActivation c m.revisionId

/-! ## Mutations -/

def setMutationStates (mutations : Table Mutation) (mutationId : String) (state : MutationState) :
    Table Mutation :=
  mutations.update (fun m => m.mutationId = mutationId) fun m => { m with state := state }

/-- `_transition_memory_mutation_in_tx`: compare-and-swap one legal mutation transition, then
recompute the run and, on commit, activate what the mutation replaces. -/
def transitionMemoryMutation (c : Core) (mutationId : String) (toState : MutationState) :
    Except DaoError (Core × Bool) :=
  match c.mutations.lookup mutationId with
  | none => .error (.valueError s!"unknown mutation {mutationId}")
  | some m =>
    if m.state = toState then .ok (c, true)
    else if toState ∈ m.state.next then do
      let mutations := setMutationStates c.mutations mutationId toState
      let (runs, _) ← recomputePipelineState mutations c.runs m.pipelineRunId
      let moved := { c with mutations, runs }
      if toState = .committed then do
        let activated ← activateCommittedRevision moved mutationId
        pure (activated, true)
      else pure (moved, true)
    else .ok (c, false)

/-- `_transition_pipeline_mutations_in_tx`: the same transition for every child of a run. -/
def transitionPipelineMutations (c : Core) (pipelineRunId : String) (toState : MutationState) :
    Except DaoError Core :=
  foldOk (fun c m => do
    let (c, _) ← transitionMemoryMutation c m toState
    pure c) c ((c.children pipelineRunId).map (·.mutationId))

/-- `_purge_mutations_in_tx`: purge every selected mutation that is not already terminal, and
return the ids that became PURGED. -/
def purgeMutations (c : Core) (p : Mutation → Bool) : Except DaoError (Core × List String) :=
  let targets := (c.mutations.select fun m =>
    p m && m.state ∉ [MutationState.purged, .rolledBack, .rejected, .cancelled]).map (·.mutationId)
  foldOk (fun acc m => do
    let (c, changed) ← transitionMemoryMutation acc.1 m .purged
    pure (c, if changed then acc.2 ++ [m] else acc.2)) (c, []) targets

end Mesa.Ledger
