/-
The commit of a run and its rollback, against the state before: which assertions and revisions of
others the rollback brings back to what they were. The undo reads no saved value, so the answer
depends on what the row looked like before the commit.
-/
import Mesa.Ledger.Activation
import Mesa.Ledger.Drafts

namespace Mesa.Ledger

open Mesa.Foundation

/-! ## A commit and what follows it -/

/-- In this step the run is committed, and the revision that all its mutations belong to becomes the
head of its document. -/
structure CommitsRun (db db' : Db) (run rev : String) : Prop where
  children : ∀ m ∈ db.core.children run, m.revisionId = rev
  before : db.core.pipelineState run ≠ some .committed
  after : db'.core.pipelineState run = some .committed
  draft : (db.core.revisions.lookup rev).map (·.status) = some .pending
  head : (db'.core.revisions.lookup rev).map (·.status) = some .active

/-- The run, the mutations of the run and of its revision, the revision and its document are as they were. -/
structure Undisturbed (db db' : Db) (run rev : String) : Prop where
  state : db'.core.pipelineState run = db.core.pipelineState run
  children : db'.core.children run = db.core.children run
  mutations : (db'.core.mutations.select fun m => m.revisionId = rev) = db.core.mutations.select fun m => m.revisionId = rev
  revision : db'.core.revisions.lookup rev = db.core.revisions.lookup rev
  document : ∀ r, db.core.revisions.lookup rev = some r →
    db'.core.documentStatus r.documentId = db.core.documentStatus r.documentId

/-- Status and validity of the row are those of `a`. -/
def Restored (db : Db) (a : Assertion) : Prop :=
  (db.core.assertions.lookup a.assertionId).map (fun x => (x.status, x.validTo)) = some (a.status, a.validTo)

instance (db : Db) (a : Assertion) : Decidable (Restored db a) := inferInstanceAs (Decidable (_ = _))

/-! ## The condition -/

/-- The `valid_from` of the first mutation of a revision. -/
def firstValidFrom (c : Core) (revisionId : String) : String :=
  (((c.mutations.select fun m => m.revisionId = revisionId).map (·.metadataValidFrom)).head?).getD ""

/-- The date from which the commit supersedes the assertion, by a link of the committing mutation or
as an assertion of the predecessor revision. -/
def closingFrom (c : Core) (mutationId revisionId : String) (a : Assertion) : Option String :=
  (firedFrom c mutationId a.assertionId).or ((c.revisions.lookup revisionId).bind fun rev =>
    if a.tenantId = rev.tenantId ∧ rev.supersedesRevisionId = some a.revisionId then
      some (firstValidFrom c revisionId) else none)

/-- The date with which the revision-level undo reopens the assertion. -/
def reopening (c : Core) (run rev : String) (a : Assertion) : Option String :=
  if c.restores run rev && (c.predecessor rev).any (fun pd => pd.1 = a.revisionId) then
    reopeningFrom (undoRows c run) a.tenantId else none

/-- What the rollback makes of a row. -/
def undone (retracts unsupersedes : Bool) (reopening : Option String) (a : Assertion) : Assertion :=
  let b := if retracts then { a with status := .retracted }
    else if unsupersedes && a.status = .superseded then { a with status := .active, validTo := "" } else a
  match reopening with
  | some g => if b.status = .superseded then { b with status := .active, validTo := reopenValidity g b.validTo } else b
  | none => b

/-- What a committing step makes of the rows, for a run and revision that it commits. -/
structure CommittedRows (c c' : Core) (id rev : String) : Prop where
  assertions : ∀ k, c'.assertions.lookup k = (c.assertions.lookup k).map fun a => supersedeFrom (closingFrom c id rev a) a
  revisions : ∀ k, c'.revisions.lookup k = (c.revisions.lookup k).map fun r =>
    if ((c.revisions.lookup rev).bind (·.supersedesRevisionId)) = some k then { r with status := .superseded }
    else if k = rev then { r with status := .active } else r
  predecessor : ∀ p, ((c.revisions.lookup rev).bind (·.supersedesRevisionId)) = some p →
    ∃ row, c.revisions.lookup p = some row ∧ row.status = .active ∧
      (c.revisions.lookup rev).map (·.documentId) = some row.documentId
  draft : (c.revisions.lookup rev).map (·.status) = some .pending

/-- All mutations of a complete revision are committed, so the first committed one is the first one. -/
theorem headValidFrom_of_complete {c : Core} {rev : String} (h : revisionComplete c rev = true) :
    headValidFrom c rev = firstValidFrom c rev := by
  unfold revisionComplete at h
  simp only [Bool.and_eq_true] at h
  have hall := List.all_eq_true.1 h.1.1.2
  have hsel : (c.mutations.select fun m => m.revisionId = rev ∧ m.state = .committed) =
      c.mutations.select fun m => m.revisionId = rev := by
    refine List.filter_congr fun m hm => ?_
    by_cases hr : m.revisionId = rev
    · have := hall m.state (List.mem_map.2 ⟨m, Table.mem_select.2 ⟨hm, decide_eq_true hr⟩, rfl⟩)
      simp [hr, of_decide_eq_true this]
    · simp [hr]
  unfold headValidFrom firstValidFrom
  rw [hsel, List.head?_map]
  cases (c.mutations.select fun m => m.revisionId = rev).head? <;> rfl

theorem firstValidFrom_setMutationStates {c c' : Core} {id : String} {s : MutationState}
    (h : c'.mutations = setMutationStates c.mutations id s) (rev : String) :
    firstValidFrom c' rev = firstValidFrom c rev := by
  have hrel : c.mutations.Rel (fun m m' => m'.revisionId = m.revisionId ∧ m'.metadataValidFrom = m.metadataValidFrom)
      c'.mutations := by
    rw [h, setMutationStates]
    apply Table.rel_update
    · exact fun _ => ⟨rfl, rfl⟩
    · exact fun _ _ _ => ⟨rfl, rfl⟩
  unfold firstValidFrom
  rw [forall₂_map_eq (hrel.select fun m m' hm => ?_) fun m m' hm => hm.2.symm]
  rw [hm.1]

theorem Commits.rows {c c' : Core} {m : Mutation} (h : Commits c m c')
    (hrun : c'.pipelineState m.pipelineRunId = some .committed)
    (hdraft : (c.revisions.lookup m.revisionId).map (·.status) = some .pending)
    (hhead : (c'.revisions.lookup m.revisionId).map (·.status) = some .active) :
    CommittedRows c c' m.mutationId m.revisionId := by
  obtain ⟨fired, act, hf, hfa, hrec, hrev, has⟩ := h.activates
  rw [hrun] at hfa
  have hfr : fired.revisions = c.revisions := by rw [hf]
  have hfm : fired.mutations = setMutationStates c.mutations m.mutationId .committed := by rw [hf]; exact h.mutations
  rcases reconcileRevisionActivation_cases hrec with rfl | ⟨rev, hlook, hpend, hcomplete, hnew⟩
  · rw [hrev, hfr, hdraft] at hhead
    cases hhead
  · rw [hfr] at hlook
    have hid : rev.revisionId = m.revisionId := Table.lookup_key hlook
    refine ⟨fun k => ?_, fun k => ?_, fun p hp => ?_, hdraft⟩
    · rw [has, hnew.assertions, hfa, Option.map_map]
      cases hk : c.assertions.lookup k with
      | none => rfl
      | some a =>
        have hak : a.assertionId = k := Table.lookup_key hk
        -- firing a link keeps what decides whether the predecessor's assertions are superseded
        have hsame : supersededFrom fired rev (supersedeFrom (firedAt c m (some .committed) k) a) =
            supersededFrom fired rev a := by
          unfold supersededFrom
          rw [congrArg (·.tenantId) (supersedeFrom_scope (firedAt c m (some .committed) k) a),
            congrArg (·.revisionId) (supersedeFrom_scope (firedAt c m (some .committed) k) a)]
        rw [Option.map_some, Option.map_some, Function.comp_apply, hsame, supersedeFrom_supersedeFrom]
        unfold closingFrom supersededFrom firedAt
        rw [hlook, if_pos (by simp), hak, hid, headValidFrom_of_complete hcomplete, firstValidFrom_setMutationStates hfm]
        rfl
    · rw [hrev, hnew.revisions, hfr, hlook, Option.bind_some, hid]
    · rw [hlook, Option.bind_some] at hp
      obtain ⟨row, hrow, hst, hdoc⟩ := hnew.predecessor p hp
      exact ⟨row, by rw [← hfr]; exact hrow, hst, by rw [hlook, Option.map_some, hdoc]⟩

/-- A step that commits a run and activates its revision is the commit of a mutation of the run. -/
theorem CommitsRun.commits {env : Env} {db : Db} {op : Op} {run rev : String}
    (h : CommitsRun db (exec env db op) run rev) :
    ∃ id m, op.committing = some id ∧ m.mutationId = id ∧ m.pipelineRunId = run ∧ m.revisionId = rev ∧
      Commits db.core m (exec env db op).core ∧ Part.Same db (exec env db op) .registry ∧
      Part.Same db (exec env db op) .sources := by
  have hhead := h.head
  unfold exec at hhead ⊢
  have hafter := h.after
  unfold exec at hafter
  cases ht : transact env db op with
  | error e =>
    rw [ht] at hafter
    exact absurd hafter h.before
  | ok db' =>
    rw [ht] at hafter hhead
    simp only [orKeep_ok] at hafter hhead ⊢
    cases hop : op.committing with
    | none => exact absurd (transact_noRunCommits hop ht run hafter) h.before
    | some id =>
      have hwrites : Part.registry ∉ op.writes ∧ Part.sources ∉ op.writes := by
        unfold Op.committing at hop
        split at hop
        · simp [Op.writes]
        · simp [Op.writes]
        · cases hop
      have hown := And.intro (transact_frame ht hwrites.1) (transact_frame ht hwrites.2)
      rcases transact_commits hop ht with hc | ⟨m, hm, hp | hc⟩
      · rw [hc] at hafter
        exact absurd hafter h.before
      · rw [hp.revisions, h.draft] at hhead
        cases hhead
      · have hid : m.mutationId = id := Table.lookup_key hm
        -- only the run of the committed mutation moves
        have hrun : m.pipelineRunId = run := by
          by_contra hne
          refine h.before ?_
          unfold Core.pipelineState at hafter ⊢
          rwa [hc.runs run fun he => hne he.symm] at hafter
        have hrev : m.revisionId = rev :=
          h.children m (Table.mem_select.2 ⟨Table.lookup_mem hm, decide_eq_true hrun⟩)
        exact ⟨id, m, rfl, hid, hrun, hrev, hc, hown.1, hown.2⟩

/-- A commit does not change what the undo of its run reads. -/
theorem Commits.alike {c c' : Core} {m : Mutation} {rev : String} (h : Commits c m c')
    (hrows : CommittedRows c c' m.mutationId rev) : c.UndoAlike m.pipelineRunId c' where
  mutations := by
    rw [h.mutations]
    have hself : ∀ x ∈ c.mutations.rows, x.mutationId = m.mutationId → x = m := by
      intro x hx hid
      have hx' : c.mutations.lookup m.mutationId = some x := Table.lookup_eq_some.2 ⟨hx, hid⟩
      rw [h.row] at hx'; cases hx'; rfl
    rw [setMutationStates]
    apply Table.rel_update
    · exact fun _ => Or.inl rfl
    · intro x hx hid
      refine Or.inr ⟨?_, rfl, rfl⟩
      rw [hself x hx (of_decide_eq_true hid)]
  assertions k := by
    rw [hrows.assertions, Option.map_map]
    congr 1; funext a
    exact supersedeFrom_scope _ a
  links := h.links
  documents := h.documents
  revisions k := by
    rw [hrows.revisions, Option.map_map]
    congr 1; funext r
    show (if _ then _ else if _ then _ else _ : Revision).toRevisionIdentity = _
    split
    · rfl
    · split <;> rfl

/-! ## The rollback -/

section Undisturbed

variable {db db' : Db} {run rev : String} (h : Undisturbed db db' run rev)

include h

theorem Undisturbed.undoRows : undoRows db'.core run = Ledger.undoRows db.core run := by
  unfold Ledger.undoRows
  rw [h.children]

theorem Undisturbed.predecessor : db'.core.predecessor rev = db.core.predecessor rev := by
  unfold Core.predecessor
  rw [h.revision]

theorem Undisturbed.restores : db'.core.restores run rev = db.core.restores run rev := by
  have hother : ∀ c : Core, (c.mutations.anyWhere fun m =>
      m.revisionId = rev && m.pipelineRunId ≠ run && m.state = .committed) =
      (c.mutations.select fun m => m.revisionId = rev).any fun m => m.pipelineRunId ≠ run && m.state = .committed := by
    intro c
    unfold Table.anyWhere Table.select
    rw [List.any_filter]
    congr 1
    funext m
    rw [Bool.and_assoc]
  unfold Core.restores
  rw [hother, hother, h.mutations, h.revision]
  cases hr : db.core.revisions.lookup rev with
  | none => rfl
  | some r => rw [Option.bind_some, Option.bind_some, h.document r hr]

theorem Undisturbed.reopening (a : Assertion) : reopening db'.core run rev a = Ledger.reopening db.core run rev a := by
  unfold Ledger.reopening
  rw [h.restores, h.predecessor, h.undoRows]

end Undisturbed

/-- The undo reads the same of a core alike. -/
theorem Core.UndoAlike.reopening {c c' : Core} {run : String} (h : c.UndoAlike run c') (rev : String) (a : Assertion) :
    Ledger.reopening c' run rev a = Ledger.reopening c run rev a := by
  unfold Ledger.reopening
  rw [(h.restores rev).1, (h.restores rev).2, h.undoRows]

end Mesa.Ledger
