/-
Rolling back a draft: when the run of a revision that never became ACTIVE can be rolled back
without touching another revision or another revision's assertions.
-/
import Mesa.Ledger.Restore

namespace Mesa.Ledger

open Mesa.Foundation

/-- The rollback of the run succeeds and changes the status of no other revision and of no assertion of
another revision. -/
def RollsBackAlone (db : Db) (run rev : String) : Prop :=
  ∃ db', requestPipelineRollback db run = .ok db' ∧
    (∀ r ∈ db.core.revisions.rows, r.revisionId ≠ rev →
      (db'.core.revisions.lookup r.revisionId).map (·.status) = some r.status) ∧
    ∀ a ∈ db.core.assertions.rows, a.revisionId ≠ rev →
      (db'.core.assertions.lookup a.assertionId).map (·.status) = some a.status

/-- The revision-level undo reaches the assertion. -/
def reopens (db : Db) (run rev : String) (a : Assertion) : Bool :=
  db.core.restores run rev && (db.core.predecessor rev).any (fun pd => pd.1 = a.revisionId) &&
    (reopeningFrom (undoRows db.core run) a.tenantId).isSome

/-- The rollback leaves the status of an assertion alone: it is retracted; or it is not the row of an
artifact that loses its last owner, and if it is superseded neither undo reaches it. -/
def keepsAssertion (db : Db) (run rev : String) (a : Assertion) : Bool :=
  a.status = .retracted || (!retractedBy (rollbackCleanup db.own run) a.assertionId &&
    (a.status = .active || (!unsuperseded db.core run a.assertionId && !reopens db run rev a)))

/-- The rollback leaves the status of a revision alone: it is not a predecessor that was superseded by
another revision. -/
def keepsRevision (db : Db) (run rev : String) (r : Revision) : Bool :=
  !(db.core.restores run rev && db.core.predecessor rev = some (r.revisionId, r.documentId) &&
    r.status = .superseded)

/-- The run is rolled back already; or it may roll back, and leaves alone every other revision and every
assertion of another revision. -/
def draftRollbackAlone (db : Db) (run rev : String) : Bool :=
  db.core.pipelineState run = some .rolledBack ||
    ((db.core.pipelineState run).any (fun s => s = .rollingBack || .rollingBack ∈ s.next) &&
      (db.core.revisions.rows.all fun r => r.revisionId = rev || keepsRevision db run rev r) &&
      db.core.assertions.rows.all fun a => a.revisionId = rev || keepsAssertion db run rev a)

/-! ## Statuses -/

/-- A fact of the restored predecessor reopens. -/
def reopenRestored (db : Db) (run rev : String) (b : Assertion) : Assertion :=
  match db.core.restores run rev, db.core.predecessor rev with
  | true, some (p, _) => reopenFact (undoRows db.core run) p b
  | _, _ => b

theorem undoneAssertion_status_iff {db : Db} {run rev : String} {a : Assertion} :
    (undoneAssertion db run rev a).status = a.status ↔ keepsAssertion db run rev a = true := by
  have hreopens : ∀ b : Assertion, b.toAssertionScope = a.toAssertionScope →
      (reopenRestored db run rev b).status = if b.status = .superseded && reopens db run rev a then .active
        else b.status := by
    intro b hb
    unfold reopens reopenRestored
    cases hres : db.core.restores run rev with
    | false => simp
    | true =>
      cases hpred : db.core.predecessor rev with
      | none => simp
      | some pd =>
        have hrev : b.revisionId = a.revisionId := by rw [hb]
        have hten : b.tenantId = a.tenantId := by rw [hb]
        by_cases hp : pd.1 = a.revisionId <;> by_cases hs : b.status = .superseded <;>
          cases hr : reopeningFrom (undoRows db.core run) a.tenantId <;>
            simp [reopenFact, hrev, hten, hp, hs, hr, eq_comm (a := a.revisionId)]
  have hundo : undoneAssertion db run rev a = reopenRestored db run rev (undoFact db run a) := rfl
  have hscope := undoFact_scope db run a
  rw [hundo, hreopens _ hscope]
  unfold keepsAssertion undoFact
  cases hs : a.status <;> cases hr : retractedBy (rollbackCleanup db.own run) a.assertionId <;>
    cases hu : unsuperseded db.core run a.assertionId <;> cases ho : reopens db run rev a <;> simp [hs]

theorem undoneRevision_status_iff {db : Db} {run rev : String} {r : Revision} (hr : r.revisionId ≠ rev) :
    (undoneRevision db run rev r).status = r.status ↔ keepsRevision db run rev r = true := by
  unfold undoneRevision keepsRevision
  by_cases hres : db.core.restores run rev = true
  · by_cases hp : db.core.predecessor rev = some (r.revisionId, r.documentId) <;>
      by_cases hs : r.status = .superseded <;> simp [hres, hr, hp, hs]
  · simp [hres]

/-! ## The main result -/

/-- A revision that keeps the status of every other one keeps heads unique when it is rolled back. -/
theorem unique_of_keeps {db : Db} {run rev p d : String} (hu : UniqueHead db.core.revisions)
    (hns : NotSuperseded db.core.revisions rev) (hres : db.core.restores run rev = true)
    (hpred : db.core.predecessor rev = some (p, d))
    (hkeep : ∀ r ∈ db.core.revisions.rows, r.revisionId ≠ rev → keepsRevision db run rev r = true) :
    UniqueHead (restoreHead (rollBackRevision db.core.revisions rev) p d) := by
  have hsame : restoreHead (rollBackRevision db.core.revisions rev) p d = rollBackRevision db.core.revisions rev := by
    refine Table.update_eq_self fun x hx => ?_
    obtain ⟨y, hy, rfl⟩ := Table.mem_updated.1 hx
    by_cases hif : (decide (y.revisionId = rev) && decide (y.status ∈ [RevisionStatus.active, .pending])) = true
    · rw [if_pos hif]; simp
    · rw [if_neg hif]
      by_cases hyr : y.revisionId = rev
      · have := hns y hy hyr
        simp [this]
      · have := hkeep y hy hyr
        rw [keepsRevision, hres, hpred] at this
        by_cases hyp : y.revisionId = p <;> by_cases hyd : y.documentId = d <;> simp_all
  rw [hsame]
  exact hu.update fun _ hs => by cases hs

theorem nonHeadRevision_draft {c : Core} {run rev : String} {row : Revision} (hrow : c.revisions.lookup rev = some row)
    (hp : row.status = .pending) (hch : ∀ m ∈ c.children run, m.revisionId = rev) : nonHeadRevision c run = none := by
  refine List.find?_eq_none.2 fun r hr => ?_
  obtain ⟨m, hm, hlook⟩ := List.mem_filterMap.1 hr
  rw [hch m hm, hrow] at hlook
  cases hlook
  simp [hp]

/-- In every reachable state a document has at most one head, and the run of a draft rolls back alone
exactly under `draftRollbackAlone`. -/
theorem heads_and_drafts (env : Env) (ops : List Op) :
    UniqueHead (reach env ops).core.revisions ∧
    ∀ run rev row, (reach env ops).core.revisions.lookup rev = some row → row.status = .pending →
      (reach env ops).core.children run ≠ [] → (∀ m ∈ (reach env ops).core.children run, m.revisionId = rev) →
      (RollsBackAlone (reach env ops) run rev ↔ draftRollbackAlone (reach env ops) run rev = true) := by
  refine ⟨reach_unique env ops, fun run rev row hrow hpend hne hch => ?_⟩
  have hu := reach_unique env ops
  generalize reach env ops = db at *
  have hns : NotSuperseded db.core.revisions rev := by
    intro x hx hxr
    have hx' : db.core.revisions.lookup rev = some x := Table.lookup_eq_some.2 ⟨hx, hxr⟩
    rw [hrow] at hx'; cases hx'
    rw [hpend]; decide
  simp only [draftRollbackAlone, Bool.or_eq_true, Bool.and_eq_true, decide_eq_true_eq, List.all_eq_true]
  constructor
  · rintro ⟨db', h, hrevs, hass⟩
    by_cases hdone : db.core.pipelineState run = some .rolledBack
    · exact Or.inl hdone
    refine Or.inr ⟨⟨?_, fun r hr => ?_⟩, fun a ha => ?_⟩
    · obtain ⟨prun, hprun, ⟨hs, -⟩ | ⟨-, -, runs, moved, restored, cleanup, -, htr, -⟩⟩ := requestPipelineRollback_cases h
      · exact absurd (by rw [Core.pipelineState, hprun, Option.map_some, hs]) hdone
      · obtain ⟨y, hy, hmay⟩ := transitionPipelineRun_may htr
        rw [Core.pipelineState, hy]
        simpa using hmay
    · by_cases hrr : r.revisionId = rev
      · exact Or.inl hrr
      · refine Or.inr ((undoneRevision_status_iff hrr).1 ?_)
        have hafter := hrevs r hr hrr
        rw [(requestPipelineRollback_rows h hdone hch hne hns).lookup_revision,
          show db.core.revisions.lookup r.revisionId = some r from Table.lookup_of_mem hr] at hafter
        exact Option.some_inj.1 hafter
    · by_cases har : a.revisionId = rev
      · exact Or.inl har
      · refine Or.inr (undoneAssertion_status_iff.1 ?_)
        have hafter := hass a ha har
        rw [(requestPipelineRollback_rows h hdone hch hne hns).lookup_assertion,
          show db.core.assertions.lookup a.assertionId = some a from Table.lookup_of_mem ha] at hafter
        exact Option.some_inj.1 hafter
  · intro hcond
    by_cases hdone : db.core.pipelineState run = some .rolledBack
    · -- a finished rollback is answered without touching anything
      obtain ⟨prun, hprun, hs⟩ := Option.map_eq_some_iff.1 hdone
      refine ⟨db, ?_, fun r hr _ => ?_, fun a ha _ => ?_⟩
      · simp only [requestPipelineRollback, hprun, hs, ↓reduceIte]
      · rw [show db.core.revisions.lookup r.revisionId = some r from Table.lookup_of_mem hr]; rfl
      · rw [show db.core.assertions.lookup a.assertionId = some a from Table.lookup_of_mem ha]; rfl
    obtain ⟨⟨hmay, hrevs⟩, hass⟩ := hcond.resolve_left hdone
    cases hprun : db.core.runs.lookup run with
    | none => rw [Core.pipelineState, hprun] at hmay; cases hmay
    | some prun =>
      have hmay' : prun.state = .rollingBack ∨ .rollingBack ∈ prun.state.next := by
        rw [Core.pipelineState, hprun] at hmay
        simpa using hmay
      have hkeep : ∀ r ∈ db.core.revisions.rows, r.revisionId ≠ rev → keepsRevision db run rev r = true :=
        fun r hr hrr => (hrevs r hr).resolve_left hrr
      obtain ⟨db', h⟩ := requestPipelineRollback_total hprun hmay' (nonHeadRevision_draft hrow hpend hch) hch hne hns
        fun p d hres hpred => unique_of_keeps hu hns hres hpred hkeep
      have hrows := requestPipelineRollback_rows h hdone hch hne hns
      refine ⟨db', h, fun r hr hrr => ?_, fun a ha har => ?_⟩
      · rw [hrows.lookup_revision, show db.core.revisions.lookup r.revisionId = some r from Table.lookup_of_mem hr]
        exact congrArg some ((undoneRevision_status_iff hrr).2 (hkeep r hr hrr))
      · rw [hrows.lookup_assertion, show db.core.assertions.lookup a.assertionId = some a from Table.lookup_of_mem ha]
        exact congrArg some (undoneAssertion_status_iff.2 ((hass a ha).resolve_left har))

/-- A first revision whose only mutation is not projected yet. -/
def firstDraftRun : List Op :=
  .createSourceChunk (sampleChunk "rev1" "c1" 1 none) :: admitted (sampleMutation "m1" "r1" "rev1" "c1")

theorem heads_and_drafts_first : RollsBackAlone (reach sampleEnv firstDraftRun) "r1" "rev1" :=
  ((heads_and_drafts sampleEnv firstDraftRun).2 "r1" "rev1"
    (((reach sampleEnv firstDraftRun).core.revisions.lookup "rev1").get (by decide)) (Option.some_get _).symm (by decide)
    (fun h => absurd (congrArg List.length h) (by decide)) (by decide)).2 (by decide)

/-- The first revision is superseded by the second while a third one also names it as predecessor. -/
def competingDraftRun : List Op :=
  firstDraftRun ++ projectedAll "m1" ++
    [.createSourceChunk (sampleChunk "rev2" "c2" 2 (some "rev1"))] ++ admitted (sampleMutation "m2" "r2" "rev2" "c2") ++
    projectedAll "m2" ++
    [.createSourceChunk (sampleChunk "rev3" "c3" 3 (some "rev1"))] ++ admitted (sampleMutation "m3" "r3" "rev3" "c3")

/-- The third revision is still a draft, but the rollback of its run raises: it would make the
superseded first revision a second head. -/
theorem competing_draft_raises :
    ((reach sampleEnv competingDraftRun).core.revisions.lookup "rev3").map (·.status) = some .pending ∧
      ¬ RollsBackAlone (reach sampleEnv competingDraftRun) "r3" "rev3" := by
  refine ⟨by decide +kernel, ?_⟩
  rintro ⟨db', h, -⟩
  have hraises : (requestPipelineRollback (reach sampleEnv competingDraftRun) "r3").toOption.isSome = false := by
    decide +kernel
  rw [h] at hraises
  cases hraises

end Mesa.Ledger
