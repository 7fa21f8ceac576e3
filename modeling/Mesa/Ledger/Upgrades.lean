/-
Two upgrades of the ledger's database. The provenance upgrade makes runs, registry rows and ownership rows of the
mutations and receipts that there are; the rows that several of them share are taken from the first one. The upgrade to
one active head demotes the other active revisions of a document.
-/
import Mesa.Ledger.Transition

namespace Mesa.Ledger

open Mesa.Foundation

/-! ## The database before the provenance upgrade -/

/-- A row of `memory_mutations`. -/
structure LegacyMutation where
  mutationId : String
  rawLogId : Option Int
  tenantId : String
  agentId : String
  sessionId : String
  pipelineRunId : Option String
  state : MutationState
  failureClass : Option String

/-- A row of `memory_artifacts`. -/
structure LegacyArtifact where
  artifactRowId : String
  mutationId : String
  storeName : String
  artifactKind : String
  artifactId : String
  state : String
  metadataJson : String
  createdAt : String
  invalidatedAt : Option String

instance : Keyed LegacyMutation String := ⟨LegacyMutation.mutationId⟩
instance : Keyed LegacyArtifact String := ⟨LegacyArtifact.artifactRowId⟩

/-- Every artifact row references a mutation. -/
structure LegacyDb where
  mutations : Table LegacyMutation
  artifacts : Table LegacyArtifact
  owned : ∀ a ∈ artifacts.rows, mutations.hasKey a.mutationId = true

/-! ## The provenance upgrade -/

/-- A row of `pipeline_runs`; its state is none when it is a text that no pipeline state has. -/
structure BackfilledRun where
  pipelineRunId : String
  tenantId : String
  sessionId : String
  agentId : String
  state : Option PipelineState
  failureClass : Option String
  deriving DecidableEq

/-- A row of `artifact_registry`. -/
structure BackfilledArtifact where
  registryId : String
  tenantId : String
  agentId : String
  storeName : String
  artifactKind : String
  physicalArtifactId : String
  state : String
  metadataJson : String
  createdAt : String
  invalidatedAt : Option String

/-- A row of `artifact_sources`, whose other columns are null. -/
structure BackfilledSource where
  sourceOwnershipId : String
  registryId : String
  mutationId : String
  pipelineRunId : Option String
  sourceRef : String
  state : String
  createdAt : String
  invalidatedAt : Option String

instance : Keyed BackfilledRun String := ⟨BackfilledRun.pipelineRunId⟩
instance : Keyed BackfilledArtifact String := ⟨BackfilledArtifact.registryId⟩
instance : Keyed BackfilledSource String := ⟨BackfilledSource.sourceOwnershipId⟩

structure ProvenanceDb where
  mutations : Table LegacyMutation
  runs : Table BackfilledRun
  registry : Table BackfilledArtifact
  sources : Table BackfilledSource

/-- `COALESCE(pipeline_run_id, mutation_id)`. -/
def LegacyMutation.runId (m : LegacyMutation) : String := m.pipelineRunId.getD m.mutationId

/-- `CASE state … ELSE state END`; `PENDING` and `PURGING` are no states of a run. -/
def backfilledState : MutationState → Option PipelineState
  | .received => some .queued
  | .sqlApplied | .vectorApplied | .graphApplied => some .projecting
  | .deadLetter => some .dlq
  | .extracted => some .extracted
  | .validated => some .validated
  | .committed => some .committed
  | .retryPending => some .retryPending
  | .blocked => some .blocked
  | .rollingBack => some .rollingBack
  | .rolledBack => some .rolledBack
  | .purged => some .purged
  | .rejected => some .rejected
  | .cancelled => some .cancelled
  | .pending | .purging => none

def LegacyMutation.run (m : LegacyMutation) : BackfilledRun :=
  ⟨m.runId, m.tenantId, m.sessionId, m.agentId, backfilledState m.state, m.failureClass⟩

/-- `memory_artifacts a JOIN memory_mutations m ON m.mutation_id = a.mutation_id`. -/
def ownedArtifacts (mutations : Table LegacyMutation) (artifacts : Table LegacyArtifact) :
    List (LegacyArtifact × LegacyMutation) :=
  artifacts.rows.filterMap fun a => (mutations.lookup a.mutationId).map fun m => (a, m)

/-- `CASE WHEN a.store_name = 'SQL' THEN '__tenant__' ELSE m.agent_id END`. -/
def registryAgent (a : LegacyArtifact) (m : LegacyMutation) : String :=
  if a.storeName = "SQL" then "__tenant__" else m.agentId

/-- The registry id that the upgrade gives to a receipt. -/
def backfilledRegistryId (a : LegacyArtifact) (m : LegacyMutation) : String :=
  m.tenantId ++ "|" ++ registryAgent a m ++ "|" ++ a.storeName ++ "|" ++ a.artifactKind ++ "|" ++ a.artifactId

def backfilledArtifact (a : LegacyArtifact) (m : LegacyMutation) : BackfilledArtifact :=
  ⟨backfilledRegistryId a m, m.tenantId, registryAgent a m, a.storeName, a.artifactKind, a.artifactId, a.state,
    a.metadataJson, a.createdAt, a.invalidatedAt⟩

def backfilledSource (a : LegacyArtifact) (m : LegacyMutation) : BackfilledSource :=
  ⟨a.artifactRowId, backfilledRegistryId a m, a.mutationId, m.pipelineRunId, (m.rawLogId.map toString).getD "", a.state,
    a.createdAt, a.invalidatedAt⟩

/-- `upgrade` of revision 9a1b2c3d4e5f, as far as it moves rows. -/
def provenanceUpgrade (db : LegacyDb) : ProvenanceDb :=
  let runs := ((db.mutations.rows.map LegacyMutation.run).eraseDups).foldl (fun t r => t.insertOrIgnore r) Table.empty
  let mutations := db.mutations.update (fun m => m.pipelineRunId = none) fun m =>
    { m with pipelineRunId := some m.mutationId }
  let owned := ownedArtifacts mutations db.artifacts
  { mutations, runs
    registry := owned.foldl (fun t p => t.insertOrIgnore (backfilledArtifact p.1 p.2)) Table.empty
    sources := owned.foldl (fun t p => t.insertOrIgnore (backfilledSource p.1 p.2)) Table.empty }

/-! ## What the runtime expects -/

/-- The states of the mutations of a run. -/
def ProvenanceDb.childStates (db : ProvenanceDb) (run : String) : List MutationState :=
  (db.mutations.select fun m => m.pipelineRunId = some run).map LegacyMutation.state

/-- Rolled back, purged, rejected or cancelled. -/
def MutationState.ended : MutationState → Bool
  | .rolledBack | .purged | .rejected | .cancelled => true
  | _ => false

def ProvenanceDb.Active (db : ProvenanceDb) (registryId : String) : Prop :=
  ∃ s ∈ db.sources.rows, s.registryId = registryId ∧ s.state = "ACTIVE"

structure ProvenanceDb.Sound (db : LegacyDb) (up : ProvenanceDb) : Prop where
  sources : ∀ a ∈ db.artifacts.rows, ∃! s, s ∈ up.sources.rows ∧ s.sourceOwnershipId = a.artifactRowId
  registry : ∀ g ∈ up.registry.rows, g.state = "ACTIVE" ↔ up.Active g.registryId
  states : ∀ r ∈ up.runs.rows, r.state.isSome = true
  aggregates : ∀ r ∈ up.runs.rows, (∀ s ∈ up.childStates r.pipelineRunId, s.ended = false) →
    r.state = some (aggregateState (up.childStates r.pipelineRunId))

/-! ## Runs -/

/-- Dropping repeated elements keeps the first one of each kind. -/
theorem find?_eraseDups {α : Type} [DecidableEq α] (p : α → Bool) : ∀ l : List α, l.eraseDups.find? p = l.find? p
  | [] => rfl
  | a :: l => by
    rw [List.eraseDups_cons, List.find?_cons, List.find?_cons]
    cases hpa : p a with
    | true => rfl
    | false =>
      dsimp only
      rw [find?_eraseDups p, List.find?_filter]
      congr 1
      funext b
      by_cases hb : b = a
      · rw [hb, hpa]
        simp
      · rw [beq_false_of_ne hb]
        simp
  termination_by l => l.length
  decreasing_by exact Nat.lt_succ_of_le (List.length_filter_le _ _)

theorem lookup_run (db : LegacyDb) (run : String) : (provenanceUpgrade db).runs.lookup run =
    (db.mutations.rows.find? fun m => decide (m.runId = run)).map LegacyMutation.run := by
  have hlookup := Table.lookup_foldl_insertOrIgnore (g := fun r : BackfilledRun => r)
    ((db.mutations.rows.map LegacyMutation.run).eraseDups) Table.empty run
  refine hlookup.trans ?_
  rw [Table.lookup_empty, Option.none_or, Option.map_id', find?_eraseDups, List.find?_map]
  rfl

/-- The mutations of a run are those that had its id, and the one that has it itself. -/
theorem childStates_eq (db : LegacyDb) (run : String) : (provenanceUpgrade db).childStates run =
    (db.mutations.rows.filter fun m => decide (m.runId = run)).map LegacyMutation.state := by
  unfold ProvenanceDb.childStates provenanceUpgrade Table.select Table.update LegacyMutation.runId
  dsimp only
  rw [List.filter_map, List.map_map]
  have hfilter : ((fun m : LegacyMutation => decide (m.pipelineRunId = some run)) ∘ fun m : LegacyMutation =>
      if decide (m.pipelineRunId = none) = true then { m with pipelineRunId := some m.mutationId } else m) =
      fun m => decide (m.pipelineRunId.getD m.mutationId = run) := by
    funext m
    cases hrun : m.pipelineRunId <;> simp [hrun]
  rw [hfilter]
  refine List.map_congr_left fun m _ => ?_
  rw [Function.comp_apply]
  split <;> rfl

/-- A run is made of the first one of its mutations. -/
theorem run_of_first {db : LegacyDb} {r : BackfilledRun} (hr : r ∈ (provenanceUpgrade db).runs.rows) :
    ∃ s rest, (provenanceUpgrade db).childStates r.pipelineRunId = s :: rest ∧ r.state = backfilledState s := by
  have hlookup := (lookup_run db r.pipelineRunId).symm.trans (Table.lookup_of_mem hr)
  rw [childStates_eq]
  generalize db.mutations.rows = rows at hlookup
  induction rows with
  | nil => cases hlookup
  | cons m rest ih =>
    rw [List.find?_cons] at hlookup
    rw [List.filter_cons]
    cases hm : decide (m.runId = r.pipelineRunId) with
    | true =>
      rw [hm] at hlookup
      cases hlookup
      exact ⟨m.state, _, rfl, rfl⟩
    | false =>
      rw [hm] at hlookup
      exact ih hlookup

/-- The first mutation of a run is in a state that decides the aggregate of all of them. -/
def leads (all : List MutationState) : MutationState → Bool
  | .committed => all.all (· = .committed)
  | .deadLetter => true
  | .retryPending => !all.any (· ∈ [.deadLetter, .blocked, .rejected])
  | .sqlApplied | .vectorApplied | .graphApplied =>
    !all.any (· ∈ [.deadLetter, .blocked, .rejected]) && !all.any (· = .retryPending)
  | .validated => !all.any (· ∈ [.deadLetter, .blocked, .rejected]) && !all.any (· = .retryPending) &&
      !all.any (· ∈ [.sqlApplied, .vectorApplied, .graphApplied])
  | .extracted => !all.any (· ∈ [.deadLetter, .blocked, .rejected]) && !all.any (· = .retryPending) &&
      !all.any (· ∈ [.sqlApplied, .vectorApplied, .graphApplied]) && !all.any (· = .validated)
  | _ => false

theorem backfilledState_of_leads {s : MutationState} {rest : List MutationState} (h : leads (s :: rest) s = true) :
    backfilledState s = some (aggregateState (s :: rest)) := by
  have hany (p : MutationState → Bool) (hs : p s = true) : (s :: rest).any p = true :=
    List.any_eq_true.2 ⟨s, List.mem_cons_self, hs⟩
  have hcommitted (hall : (s :: rest).all (· = .committed) = true) : s = .committed :=
    of_decide_eq_true (List.all_eq_true.1 hall s List.mem_cons_self)
  have hdead (hs : s ∈ [.deadLetter, .blocked, .rejected]) := hany (· ∈ [.deadLetter, .blocked, .rejected]) (decide_eq_true hs)
  have hretry (hs : s = .retryPending) := hany (· = .retryPending) (decide_eq_true hs)
  have happlied (hs : s ∈ [.sqlApplied, .vectorApplied, .graphApplied]) :=
    hany (· ∈ [.sqlApplied, .vectorApplied, .graphApplied]) (decide_eq_true hs)
  have hvalidated (hs : s = .validated) := hany (· = .validated) (decide_eq_true hs)
  have hextracted (hs : s = .extracted) := hany (· = .extracted) (decide_eq_true hs)
  clear hany
  unfold leads at h
  unfold aggregateState
  -- what is left depends on the first state and on six facts about all of them
  generalize (s :: rest).all (· = .committed) = committed at *
  generalize (s :: rest).any (· ∈ [.deadLetter, .blocked, .rejected]) = dead at *
  generalize (s :: rest).any (· = .retryPending) = retry at *
  generalize (s :: rest).any (· ∈ [.sqlApplied, .vectorApplied, .graphApplied]) = applied at *
  generalize (s :: rest).any (· = .validated) = validated at *
  generalize (s :: rest).any (· = .extracted) = extracted at *
  revert committed dead retry applied validated extracted
  cases s <;> decide

/-! ## Artifacts -/

/-- The mutations keep everything but the run id. -/
theorem lookup_mutation (db : LegacyDb) (id : String) : (provenanceUpgrade db).mutations.lookup id =
    (db.mutations.lookup id).map fun m =>
      if decide (m.pipelineRunId = none) = true then { m with pipelineRunId := some m.mutationId } else m :=
  Table.lookup_update db.mutations (fun m => decide (m.pipelineRunId = none))
    (fun m => { m with pipelineRunId := some m.mutationId }) (fun _ => rfl) id

def LegacyDb.registryOf (db : LegacyDb) (a : LegacyArtifact) : Option String :=
  (db.mutations.lookup a.mutationId).map fun m => backfilledRegistryId a m

theorem registryOf_eq (db : LegacyDb) (a : LegacyArtifact) : db.registryOf a =
    ((provenanceUpgrade db).mutations.lookup a.mutationId).map fun m => backfilledRegistryId a m := by
  unfold LegacyDb.registryOf
  rw [lookup_mutation]
  cases db.mutations.lookup a.mutationId with
  | none => rfl
  | some m =>
    rw [Option.map_some, Option.map_some, Option.map_some]
    split <;> rfl

theorem mem_owned {db : LegacyDb} {a : LegacyArtifact} {m : LegacyMutation} :
    (a, m) ∈ ownedArtifacts (provenanceUpgrade db).mutations db.artifacts ↔
      a ∈ db.artifacts.rows ∧ (provenanceUpgrade db).mutations.lookup a.mutationId = some m := by
  unfold ownedArtifacts
  rw [List.mem_filterMap]
  constructor
  · rintro ⟨a', ha', h⟩
    obtain ⟨m', hm', h⟩ := Option.map_eq_some_iff.1 h
    cases h
    exact ⟨ha', hm'⟩
  · rintro ⟨ha, hm⟩
    exact ⟨a, ha, by rw [hm]; rfl⟩

/-- Every artifact row has its mutation. -/
theorem owned_of_mem {db : LegacyDb} {a : LegacyArtifact} (ha : a ∈ db.artifacts.rows) :
    ∃ m, (provenanceUpgrade db).mutations.lookup a.mutationId = some m := by
  obtain ⟨m, hm⟩ := Option.isSome_iff_exists.1 (Table.hasKey_iff.1 (db.owned a ha))
  rw [lookup_mutation, hm]
  exact ⟨_, rfl⟩

theorem mem_sources {db : LegacyDb} {s : BackfilledSource} : s ∈ (provenanceUpgrade db).sources.rows ↔
    ∃ a ∈ db.artifacts.rows, ∃ m, (provenanceUpgrade db).mutations.lookup a.mutationId = some m ∧
      s = backfilledSource a m := by
  constructor
  · intro hs
    rcases Table.mem_foldl_insertOrIgnore hs with hs | ⟨⟨a, m⟩, hp, rfl⟩
    · cases hs
    · obtain ⟨ha, hm⟩ := mem_owned.1 hp
      exact ⟨a, ha, m, hm, rfl⟩
  · rintro ⟨a, ha, m, hm, rfl⟩
    have hlookup := Table.lookup_foldl_insertOrIgnore
      (g := fun p : LegacyArtifact × LegacyMutation => backfilledSource p.1 p.2)
      (ownedArtifacts (provenanceUpgrade db).mutations db.artifacts) Table.empty a.artifactRowId
    rw [Table.lookup_empty, Option.none_or] at hlookup
    have hfind : (ownedArtifacts (provenanceUpgrade db).mutations db.artifacts).find?
        (fun p => decide (p.1.artifactRowId = a.artifactRowId)) = some (a, m) := by
      cases hf : (ownedArtifacts (provenanceUpgrade db).mutations db.artifacts).find?
          (fun p => decide (p.1.artifactRowId = a.artifactRowId)) with
      | none => exact absurd rfl (of_decide_eq_false (eq_false_of_ne_true (List.find?_eq_none.1 hf _ (mem_owned.2 ⟨ha, hm⟩))))
      | some q =>
        obtain ⟨hq, hm'⟩ := mem_owned.1 (List.mem_of_find?_eq_some hf)
        have hkey : q.1.artifactRowId = a.artifactRowId := by simpa using List.find?_some hf
        have hsame : q.1 = a := Table.eq_of_key_eq hq ha hkey
        have hsame' : q.2 = m := Option.some.inj (hm'.symm.trans ((congrArg _ (by rw [hsame])).trans hm))
        rw [← hsame, ← hsame']
    have hrow : (provenanceUpgrade db).sources.lookup a.artifactRowId = some (backfilledSource a m) :=
      hlookup.trans (congrArg _ hfind)
    exact Table.lookup_mem hrow

/-- Each artifact row gives one ownership row. -/
theorem source_unique (db : LegacyDb) {a : LegacyArtifact} (ha : a ∈ db.artifacts.rows) :
    ∃! s, s ∈ (provenanceUpgrade db).sources.rows ∧ s.sourceOwnershipId = a.artifactRowId := by
  obtain ⟨m, hm⟩ := owned_of_mem ha
  have hs := mem_sources.2 ⟨a, ha, m, hm, rfl⟩
  exact ⟨backfilledSource a m, ⟨hs, rfl⟩, fun s' h' => Table.eq_of_key_eq h'.1 hs h'.2⟩

/-- A registry row is made of the first of its artifact rows. -/
theorem artifact_of_first {db : LegacyDb} {g : BackfilledArtifact} (hg : g ∈ (provenanceUpgrade db).registry.rows) :
    ∃ a, db.artifacts.rows.find? (fun a => decide (db.registryOf a = some g.registryId)) = some a ∧ g.state = a.state := by
  have hlookup := Table.lookup_foldl_insertOrIgnore
    (g := fun p : LegacyArtifact × LegacyMutation => backfilledArtifact p.1 p.2)
    (ownedArtifacts (provenanceUpgrade db).mutations db.artifacts) Table.empty g.registryId
  have hrow : (provenanceUpgrade db).registry.lookup g.registryId = some g := Table.lookup_of_mem hg
  obtain ⟨⟨a, m⟩, hfind, rfl⟩ := Option.map_eq_some_iff.1
    ((hlookup.symm.trans hrow : (Table.empty.lookup _).or _ = some g))
  refine ⟨a, ?_, rfl⟩
  unfold ownedArtifacts at hfind
  rw [List.find?_filterMap] at hfind
  obtain ⟨a', ha', hpair⟩ := Option.bind_eq_some_iff.1 hfind
  obtain ⟨m', hm', hpair⟩ := Option.map_eq_some_iff.1 hpair
  cases hpair
  rw [← ha']
  congr 1
  funext b
  rw [registryOf_eq]
  cases (provenanceUpgrade db).mutations.lookup b.mutationId with
  | none => rfl
  | some mb =>
    rw [Option.map_some, Option.map_some, Option.any_some, decide_eq_decide, Option.some.injEq]
    exact Iff.rfl

/-! ## The upgrade to one active head -/

/-- A row of `document_revisions`. -/
structure HeadRevision where
  revisionId : String
  documentId : String
  revisionNumber : Nat
  createdAt : String
  status : RevisionStatus

/-- A row of `v4_assertions`. -/
structure HeadAssertion where
  assertionId : String
  revisionId : String
  status : AssertionStatus

instance : Keyed HeadRevision String := ⟨HeadRevision.revisionId⟩
instance : Keyed HeadAssertion String := ⟨HeadAssertion.assertionId⟩

/-- The numbers of a document's revisions are different. -/
structure HeadDb where
  revisions : Table HeadRevision
  assertions : Table HeadAssertion
  numbers : (revisions.rows.map fun r => (r.documentId, r.revisionNumber)).Nodup

/-- `ORDER BY created_at DESC, revision_number DESC`. -/
def HeadRevision.ahead (r s : HeadRevision) : Bool :=
  decide (s.createdAt < r.createdAt) || (decide (s.createdAt = r.createdAt) && decide (s.revisionNumber < r.revisionNumber))

/-- `ROW_NUMBER()` of an active revision among those of its document. -/
def HeadDb.rowNumber (db : HeadDb) (r : HeadRevision) : Nat :=
  (db.revisions.select fun s => s.status = .active ∧ s.documentId = r.documentId ∧ s.ahead r).length + 1

/-- The revisions that are not superseded. -/
def HeadDb.heads (db : HeadDb) : List String :=
  (db.revisions.select fun r => r.status = .active ∧ db.rowNumber r = 1).map HeadRevision.revisionId

/-- `upgrade` of revision fe5f6a7b8c9d. -/
def activeHeadUpgrade (db : HeadDb) : HeadDb where
  revisions := db.revisions.update (fun r => r.status = .active ∧ r.revisionId ∉ db.heads) fun r =>
    { r with status := .superseded }
  assertions := db.assertions
  numbers := by
    have hsame : ((db.revisions.update (fun r => r.status = .active ∧ r.revisionId ∉ db.heads) fun r =>
        { r with status := .superseded }).rows.map fun r => (r.documentId, r.revisionNumber)) =
        db.revisions.rows.map fun r => (r.documentId, r.revisionNumber) := by
      unfold Table.update
      rw [List.map_map]
      refine List.map_congr_left fun r _ => ?_
      rw [Function.comp_apply]
      split <;> rfl
    exact hsame ▸ db.numbers

/-- The upgrade has demoted the revision. -/
def HeadDb.Demoted (db : HeadDb) (r : HeadRevision) : Prop :=
  r ∈ db.revisions.rows ∧ r.status = .active ∧
    ∃ r' ∈ (activeHeadUpgrade db).revisions.rows, r'.revisionId = r.revisionId ∧ r'.status ≠ .active

def HeadDb.SingleHead (db : HeadDb) : Prop :=
  ∀ r ∈ db.revisions.rows, ∀ s ∈ db.revisions.rows, r.status = .active → s.status = .active →
    r.documentId = s.documentId → r = s

theorem HeadDb.rowNumber_eq_one {db : HeadDb} {r : HeadRevision} : db.rowNumber r = 1 ↔
    ∀ s ∈ db.revisions.rows, s.status = .active → s.documentId = r.documentId → s.ahead r = false := by
  unfold HeadDb.rowNumber
  rw [Nat.add_eq_right, List.length_eq_zero_iff, List.eq_nil_iff_forall_not_mem]
  constructor
  · intro h s hs hactive hdocument
    refine eq_false_of_ne_true fun hahead => h s (Table.mem_select.2 ⟨hs, decide_eq_true ⟨hactive, hdocument, hahead⟩⟩)
  · intro h s hs
    obtain ⟨hrow, hs⟩ := Table.mem_select.1 hs
    obtain ⟨hactive, hdocument, hahead⟩ := of_decide_eq_true hs
    rw [h s hrow hactive hdocument] at hahead
    cases hahead

/-- An active revision after the upgrade was one, and none was ahead of it. -/
theorem active_of_upgrade {db : HeadDb} {r : HeadRevision} (hr : r ∈ (activeHeadUpgrade db).revisions.rows)
    (hactive : r.status = .active) : r ∈ db.revisions.rows ∧ db.rowNumber r = 1 := by
  obtain ⟨r₀, hr₀, rfl⟩ := Table.mem_updated.1 hr
  by_cases hdemoted : r₀.status = .active ∧ r₀.revisionId ∉ db.heads
  · rw [if_pos (decide_eq_true hdemoted)] at hactive
    cases hactive
  · rw [if_neg (by rw [decide_eq_true_iff]; exact hdemoted)] at hactive ⊢
    refine ⟨hr₀, ?_⟩
    have hhead : r₀.revisionId ∈ db.heads := by
      by_contra hnot
      exact hdemoted ⟨hactive, hnot⟩
    obtain ⟨r₁, hr₁, hid⟩ := List.mem_map.1 hhead
    obtain ⟨hrow, hr₁⟩ := Table.mem_select.1 hr₁
    obtain rfl : r₁ = r₀ := Table.eq_of_key_eq hrow hr₀ hid
    exact (of_decide_eq_true hr₁).2

theorem single_head (db : HeadDb) : (activeHeadUpgrade db).SingleHead := by
  intro r hr s hs hractive hsactive hdocument
  obtain ⟨hr', hrhead⟩ := active_of_upgrade hr hractive
  obtain ⟨hs', hshead⟩ := active_of_upgrade hs hsactive
  have hrs := HeadDb.rowNumber_eq_one.1 hshead r hr' hractive hdocument
  have hsr := HeadDb.rowNumber_eq_one.1 hrhead s hs' hsactive hdocument.symm
  unfold HeadRevision.ahead at hrs hsr
  rw [Bool.or_eq_false_iff, Bool.and_eq_false_iff, decide_eq_false_iff_not, decide_eq_false_iff_not,
    decide_eq_false_iff_not] at hrs hsr
  have hcreated : r.createdAt = s.createdAt := String.le_antisymm (String.not_lt.1 hrs.1) (String.not_lt.1 hsr.1)
  have hrs' := hrs.2.resolve_left (not_not.2 hcreated.symm)
  have hsr' := hsr.2.resolve_left (not_not.2 hcreated)
  have hnumber : r.revisionNumber = s.revisionNumber := by omega
  exact List.inj_on_of_nodup_map db.numbers hr' hs' (Prod.ext hdocument hnumber)

/-- A demoted revision had another active one of its document ahead of it. -/
theorem ahead_of_demoted {db : HeadDb} {r : HeadRevision} (h : db.Demoted r) :
    ∃ s ∈ db.revisions.rows, s.status = .active ∧ s.documentId = r.documentId ∧ s.ahead r = true := by
  obtain ⟨hr, hactive, r', hr', hid, hdemoted⟩ := h
  by_contra hnone
  have hhead : r.revisionId ∈ db.heads := by
    refine List.mem_map.2 ⟨r, Table.mem_select.2 ⟨hr, decide_eq_true ⟨hactive, ?_⟩⟩, rfl⟩
    refine HeadDb.rowNumber_eq_one.2 fun s hs hsactive hdocument => eq_false_of_ne_true fun hahead => ?_
    exact hnone ⟨s, hs, hsactive, hdocument, hahead⟩
  obtain ⟨r₀, hr₀, rfl⟩ := Table.mem_updated.1 hr'
  have hkept : (if decide (r₀.status = .active ∧ r₀.revisionId ∉ db.heads) = true then
      { r₀ with status := .superseded } else r₀).revisionId = r₀.revisionId := by
    split <;> rfl
  obtain rfl : r₀ = r := Table.eq_of_key_eq hr₀ hr (hkept.symm.trans hid)
  rw [if_neg (by rw [decide_eq_true_iff]; exact fun hnot => hnot.2 hhead)] at hdemoted
  exact hdemoted hactive

/-! ## The result -/

/-- If one of the artifact rows of a registry row is active, the first of them is. -/
def LegacyDb.FirstActive (db : LegacyDb) (registryId : String) : Prop :=
  ∀ a, db.artifacts.rows.find? (fun a => decide (db.registryOf a = some registryId)) = some a →
    (∃ b ∈ db.artifacts.rows, db.registryOf b = some registryId ∧ b.state = "ACTIVE") → a.state = "ACTIVE"

theorem active_iff {db : LegacyDb} {registryId : String} : (provenanceUpgrade db).Active registryId ↔
    ∃ b ∈ db.artifacts.rows, db.registryOf b = some registryId ∧ b.state = "ACTIVE" := by
  constructor
  · rintro ⟨s, hs, rfl, hstate⟩
    obtain ⟨a, ha, m, hm, rfl⟩ := mem_sources.1 hs
    exact ⟨a, ha, by rw [registryOf_eq, hm]; rfl, hstate⟩
  · rintro ⟨b, hb, hregistry, hstate⟩
    obtain ⟨m, hm⟩ := owned_of_mem hb
    rw [registryOf_eq, hm] at hregistry
    exact ⟨backfilledSource b m, mem_sources.2 ⟨b, hb, m, hm, rfl⟩, Option.some.inj hregistry, hstate⟩

/-- No active assertion belongs to an active revision that another one of its document is ahead of. -/
def HeadDb.Settled (db : HeadDb) : Prop :=
  ∀ r ∈ db.revisions.rows, r.status = .active →
    (∃ s ∈ db.revisions.rows, s.status = .active ∧ s.documentId = r.documentId ∧ s.ahead r = true) →
    ∀ a ∈ db.assertions.rows, a.revisionId = r.revisionId → a.status ≠ .active

/-- What the provenance upgrade gives: one ownership row an artifact row; a registry row that is active as its ownership
rows are, where the first of them leads; a run in a state of runs, queued over mutations that are all RECEIVED and
otherwise in the state that they derive, where the first of them leads. -/
structure ProvenanceDb.Established (db : LegacyDb) (up : ProvenanceDb) : Prop where
  sources : ∀ a ∈ db.artifacts.rows, ∃! s, s ∈ up.sources.rows ∧ s.sourceOwnershipId = a.artifactRowId
  registry : ∀ g ∈ up.registry.rows, db.FirstActive g.registryId → (g.state = "ACTIVE" ↔ up.Active g.registryId)
  states : ∀ r ∈ up.runs.rows, (up.childStates r.pipelineRunId).head? ≠ some .pending →
    (up.childStates r.pipelineRunId).head? ≠ some .purging → r.state.isSome = true
  queued : ∀ r ∈ up.runs.rows, (∀ s ∈ up.childStates r.pipelineRunId, s = .received) → r.state = some .queued
  aggregates : ∀ r ∈ up.runs.rows, (∀ s ∈ up.childStates r.pipelineRunId, s.ended = false) →
    (up.childStates r.pipelineRunId).head?.any (leads (up.childStates r.pipelineRunId)) = true →
    r.state = some (aggregateState (up.childStates r.pipelineRunId))

theorem provenance_established (db : LegacyDb) : (provenanceUpgrade db).Established db where
  sources _ ha := source_unique db ha
  registry g hg hfirst := by
    obtain ⟨a, hfind, hstate⟩ := artifact_of_first hg
    rw [active_iff, hstate]
    refine ⟨fun hactive => ⟨a, List.mem_of_find?_eq_some hfind, ?_, hactive⟩, hfirst a hfind⟩
    simpa using List.find?_some hfind
  states r hr hpending hpurging := by
    obtain ⟨s, rest, hchildren, hstate⟩ := run_of_first hr
    rw [hchildren, List.head?_cons] at hpending hpurging
    rw [hstate]
    cases s with
    | pending => exact absurd rfl hpending
    | purging => exact absurd rfl hpurging
    | _ => rfl
  queued r hr hreceived := by
    obtain ⟨s, rest, hchildren, hstate⟩ := run_of_first hr
    rw [hchildren] at hreceived
    rw [hstate, hreceived s List.mem_cons_self]
    rfl
  aggregates r hr _ hleads := by
    obtain ⟨s, rest, hchildren, hstate⟩ := run_of_first hr
    rw [hchildren, List.head?_cons, Option.any_some] at hleads
    rw [hchildren, hstate]
    exact backfilledState_of_leads hleads

/-- Both upgrades, on every database. -/
theorem upgrades_establish (db : LegacyDb) (heads : HeadDb) :
    (provenanceUpgrade db).Established db ∧ (activeHeadUpgrade heads).SingleHead ∧
      (heads.Settled → ∀ r, heads.Demoted r → ∀ a ∈ (activeHeadUpgrade heads).assertions.rows,
        a.revisionId = r.revisionId → a.status ≠ .active) := by
  refine ⟨provenance_established db, single_head heads, fun hsettled r hr a ha hrevision => ?_⟩
  exact hsettled r hr.1 hr.2.1 (ahead_of_demoted hr) a ha hrevision

/-- A run of one mutation that nothing has been done about. -/
def receivedDb : LegacyDb where
  mutations := Table.empty.insertOrIgnore ⟨"m1", none, "t", "a", "s", some "r1", .received, none⟩
  artifacts := Table.empty
  owned _ h := by cases h

/-- The upgrade queues the run, and the aggregate of its mutation is RUNNING. -/
theorem upgrade_queues_run : ¬ (provenanceUpgrade receivedDb).Sound receivedDb := by
  intro h
  have hrun : (⟨"r1", "t", "s", "a", some .queued, none⟩ : BackfilledRun) ∈ (provenanceUpgrade receivedDb).runs.rows := by
    decide +kernel
  have hstate := h.aggregates _ hrun (by decide +kernel)
  revert hstate
  decide +kernel

end Mesa.Ledger
