/-
What a rollback does to the revisions and assertions of others: retraction of unowned artifacts,
the fact-level undo, and the revision-level undo for a run whose mutations all belong to one
revision. Each is stated row by row.
-/
import Mesa.Ledger.Heads

namespace Mesa.Ledger

open Mesa.Foundation

/-! ## The revision-level undo -/

/-- The undo does not skip the revision: it exists, its document is not purged, and no other run
committed it too. -/
def Core.restores (c : Core) (pipelineRunId revisionId : String) : Bool :=
  revisionId ≠ "" && ((c.revisions.lookup revisionId).bind fun r => c.documentStatus r.documentId) ≠ some .purged &&
    !c.mutations.anyWhere fun m =>
      m.revisionId = revisionId && m.pipelineRunId ≠ pipelineRunId && m.state = .committed

/-- The revision was the head, or a draft, and is rolled back. -/
def rollBackRevision (revisions : Table Revision) (revisionId : String) : Table Revision :=
  revisions.update (fun r => r.revisionId = revisionId && r.status ∈ [RevisionStatus.active, .pending]) fun r =>
    { r with status := .rolledBack }

/-- Its superseded predecessor `p` becomes the head of document `d` again. -/
def restoreHead (revisions : Table Revision) (p d : String) : Table Revision :=
  revisions.update (fun r => r.revisionId = p && r.documentId = d && r.status = .superseded) fun r =>
    { r with status := .active }

/-- The `valid_from` that reopens an assertion of a tenant: that of the first row of the tenant. -/
def reopeningFrom (rows : List (String × String × String)) (tenantId : String) : Option String :=
  (rows.find? fun row => row.1 = tenantId).map (·.2.2)

/-- The assertions of the predecessor become active again. -/
def reopenAssertions (assertions : Table Assertion) (rows : List (String × String × String)) (p : String) :
    Table Assertion :=
  assertions.update (fun a => a.revisionId = p && a.status = .superseded && (reopeningFrom rows a.tenantId).isSome)
    fun a => { a with
      status := .active
      validTo := reopenValidity ((reopeningFrom rows a.tenantId).getD "") a.validTo }

/-- The predecessor of a revision, with the revision's document. -/
def Core.predecessor (c : Core) (revisionId : String) : Option (String × String) :=
  (c.revisions.lookup revisionId).bind fun r => r.supersedesRevisionId.map fun p => (p, r.documentId)

theorem restoreRevision_skip {run t r v : String} {c : Core} (h : c.restores run r = false) :
    restoreRevision run c t r v = .ok c := by
  unfold Core.restores at h
  unfold restoreRevision
  simp only [Bool.and_eq_false_iff, decide_eq_false_iff_not, not_not, ne_eq, Bool.not_eq_false'] at h
  rcases h with (h | h) | h
  · rw [if_pos (Or.inl h)]
  · rw [if_pos (Or.inr h)]
  · by_cases h₀ : r = "" ∨ ((c.revisions.lookup r).bind fun r => c.documentStatus r.documentId) = some .purged
    · rw [if_pos h₀]
    · rw [if_neg h₀, if_pos h]

/-- An undo without predecessor. -/
theorem restoreRevision_draft {run t r v : String} {c : Core} (h : c.restores run r = true)
    (hp : c.predecessor r = none) :
    restoreRevision run c t r v = .ok { c with revisions := rollBackRevision c.revisions r } := by
  unfold Core.restores at h
  unfold Core.predecessor at hp
  unfold restoreRevision
  simp only [Bool.and_eq_true, decide_eq_true_eq, ne_eq, Bool.not_eq_true'] at h
  obtain ⟨⟨h₁, h₂⟩, h₃⟩ := h
  have h₁₂ : ¬ (r = "" ∨ ((c.revisions.lookup r).bind fun r => c.documentStatus r.documentId) = some .purged) :=
    not_or.2 ⟨h₁, h₂⟩
  simp only [if_neg h₁₂, h₃, hp, Bool.false_eq_true, ↓reduceIte]
  rfl

/-- An undo with predecessor `p`: success is that of the head check. -/
theorem restoreRevision_eq_ok {run t r v p d : String} {c e : Core} (h : c.restores run r = true)
    (hp : c.predecessor r = some (p, d)) :
    restoreRevision run c t r v = .ok e ↔ UniqueHead (restoreHead (rollBackRevision c.revisions r) p d) ∧
      e = { c with
        revisions := restoreHead (rollBackRevision c.revisions r) p d
        assertions := reopenAssertions c.assertions [(t, r, v)] p } := by
  unfold Core.restores at h
  unfold Core.predecessor at hp
  unfold restoreRevision
  simp only [Bool.and_eq_true, decide_eq_true_eq, ne_eq, Bool.not_eq_true'] at h
  obtain ⟨⟨h₁, h₂⟩, h₃⟩ := h
  have h₁₂ : ¬ (r = "" ∨ ((c.revisions.lookup r).bind fun r => c.documentStatus r.documentId) = some .purged) :=
    not_or.2 ⟨h₁, h₂⟩
  simp only [if_neg h₁₂, h₃, hp, Bool.false_eq_true, ↓reduceIte]
  -- one row's reopening is the reopening over that row alone
  have hre : reopenAssertions c.assertions [(t, r, v)] p =
      c.assertions.update (fun a => a.tenantId = t && a.revisionId = p && a.status = .superseded)
        (fun a => { a with status := .active, validTo := reopenValidity v a.validTo }) := by
    apply Table.ext
    show c.assertions.rows.map _ = c.assertions.rows.map _
    refine List.map_congr_left fun a _ => ?_
    by_cases ht : t = a.tenantId
    · subst ht; simp [reopeningFrom]
    · have ht' : ¬ a.tenantId = t := fun h => ht h.symm
      simp [reopeningFrom, ht, ht']
  rw [hre, bind_eq_ok]
  constructor
  · rintro ⟨revisions, hact, hpure⟩
    obtain ⟨rfl, hu⟩ := activateRevisions_eq_ok.1 hact
    cases pure_eq_ok.1 hpure
    exact ⟨hu, rfl⟩
  · rintro ⟨hu, rfl⟩
    exact ⟨_, activateRevisions_eq_ok.2 ⟨rfl, hu⟩, rfl⟩

/-- A revision-level undo keeps what decides whether and how it is done. -/
theorem restores_congr {c e : Core} {t r : String} (hm : e.mutations = c.mutations) (hd : e.documents = c.documents)
    (hr : (e.revisions.lookup r).map (·.toRevisionIdentity) = (c.revisions.lookup r).map (·.toRevisionIdentity)) :
    e.restores t r = c.restores t r ∧ e.predecessor r = c.predecessor r := by
  unfold Core.restores Core.predecessor Core.documentStatus
  rw [hm, hd]
  cases h : c.revisions.lookup r with
  | none => rw [h] at hr; rw [Option.map_eq_none_iff.1 hr]; exact ⟨rfl, rfl⟩
  | some x =>
    rw [h] at hr
    obtain ⟨y, hy, hid⟩ := Option.map_eq_some_iff.1 hr
    rw [hy, Option.bind_some, Option.bind_some, Option.bind_some, Option.bind_some, hid]
    exact ⟨rfl, rfl⟩

theorem rollBackRevision_rollBackRevision (t : Table Revision) (r : String) :
    rollBackRevision (rollBackRevision t r) r = rollBackRevision t r := by
  refine Table.update_eq_self fun x hx => ?_
  obtain ⟨y, -, rfl⟩ := Table.mem_updated.1 hx
  split
  · simp
  · next h => simpa using h

theorem identity_rollBack (t : Table Revision) (r k : String) :
    ((rollBackRevision t r).lookup k).map (·.toRevisionIdentity) = (t.lookup k).map (·.toRevisionIdentity) := by
  rw [rollBackRevision, Table.lookup_update, Option.map_map]
  congr 1; funext x
  show (if _ then _ else _ : Revision).toRevisionIdentity = _
  split <;> rfl

theorem identity_restoreHead (t : Table Revision) (p d k : String) :
    ((restoreHead t p d).lookup k).map (·.toRevisionIdentity) = (t.lookup k).map (·.toRevisionIdentity) := by
  rw [restoreHead, Table.lookup_update, Option.map_map]
  congr 1; funext x
  show (if _ then _ else _ : Revision).toRevisionIdentity = _
  split <;> rfl

/-- The revision has not been superseded. -/
def NotSuperseded (revisions : Table Revision) (revisionId : String) : Prop :=
  ∀ x ∈ revisions.rows, x.revisionId = revisionId → x.status ≠ .superseded

/-- After one undo the next one of the same revision finds nothing left to do. -/
theorem undo_idempotent {t : Table Revision} {r p d : String} (h : NotSuperseded t r) :
    restoreHead (rollBackRevision (restoreHead (rollBackRevision t r) p d) r) p d =
      restoreHead (rollBackRevision t r) p d := by
  have hroll : rollBackRevision (restoreHead (rollBackRevision t r) p d) r = restoreHead (rollBackRevision t r) p d := by
    refine Table.update_eq_self fun x hx => ?_
    obtain ⟨y, hy, rfl⟩ := Table.mem_updated.1 hx
    obtain ⟨z, hz, rfl⟩ := Table.mem_updated.1 hy
    by_cases hzr : z.revisionId = r
    · have hns := h z hz hzr
      by_cases hza : z.status ∈ [RevisionStatus.active, .pending]
      · simp [hzr, hza]
      · simp only [List.mem_cons, List.not_mem_nil, or_false, not_or] at hza
        simp [hzr, hza.1, hza.2, hns]
    · by_cases hif : (decide (z.revisionId = r) && decide (z.status ∈ [RevisionStatus.active, .pending])) = true
      · simp [hzr] at hif
      · rw [if_neg hif]
        split <;> simp [hzr]
  rw [hroll]
  refine Table.update_eq_self fun x hx => ?_
  obtain ⟨y, -, rfl⟩ := Table.mem_updated.1 hx
  split
  · simp
  · next h => simpa using h

theorem notSuperseded_undo {t : Table Revision} {r p d : String} (h : NotSuperseded t r) :
    NotSuperseded (restoreHead (rollBackRevision t r) p d) r := by
  intro x hx hxr
  obtain ⟨y, hy, rfl⟩ := Table.mem_updated.1 hx
  by_cases hy' : (decide (y.revisionId = p) && decide (y.documentId = d) && decide (y.status = .superseded)) = true
  · rw [if_pos hy']; simp
  · rw [if_neg hy'] at hxr ⊢
    obtain ⟨z, hz, rfl⟩ := Table.mem_updated.1 hy
    by_cases hz' : (decide (z.revisionId = r) && decide (z.status ∈ [RevisionStatus.active, .pending])) = true
    · rw [if_pos hz']; simp
    · rw [if_neg hz'] at hxr ⊢
      exact h z hz hxr

theorem reopeningFrom_cons (row : String × String × String) (rows : List (String × String × String)) (t : String) :
    reopeningFrom (row :: rows) t = if row.1 = t then some row.2.2 else reopeningFrom rows t := by
  unfold reopeningFrom
  by_cases ht : row.1 = t <;> simp [ht]

theorem reopenAssertions_cons (t : Table Assertion) (row : String × String × String)
    (rows : List (String × String × String)) (p : String) :
    reopenAssertions (reopenAssertions t [row] p) rows p = reopenAssertions t (row :: rows) p := by
  apply Table.ext
  show (t.rows.map _).map _ = t.rows.map _
  rw [List.map_map]
  refine List.map_congr_left fun a _ => ?_
  have hnil : reopeningFrom [] a.tenantId = none := rfl
  by_cases hp : a.revisionId = p
  · by_cases hs : a.status = .superseded
    · by_cases ht : row.1 = a.tenantId <;> simp [reopeningFrom_cons, hnil, hp, hs, ht]
    · simp [hs]
  · simp [hp]

/-- The loop of undos over the rows of one revision. -/
def restoreAll (pipelineRunId : String) (c : Core) (rows : List (String × String × String)) : Except DaoError Core :=
  foldOk (fun c row => restoreRevision pipelineRunId c row.1 row.2.1 row.2.2) c rows

theorem restoreAll_skip {run r : String} {c : Core} (h : c.restores run r = false) :
    ∀ {rows : List (String × String × String)}, (∀ row ∈ rows, row.2.1 = r) → restoreAll run c rows = .ok c
  | [], _ => rfl
  | row :: rows, hrows => by
    refine foldOk_cons_eq_ok.2 ⟨c, ?_, restoreAll_skip h fun x hx => hrows x (List.mem_cons_of_mem _ hx)⟩
    rw [hrows row List.mem_cons_self]; exact restoreRevision_skip h

theorem restoreAll_draft {run r : String} : ∀ {rows : List (String × String × String)} {c : Core},
    c.restores run r = true → c.predecessor r = none → (∀ row ∈ rows, row.2.1 = r) → rows ≠ [] →
      restoreAll run c rows = .ok { c with revisions := rollBackRevision c.revisions r }
  | [], _, _, _, _, hne => absurd rfl hne
  | row :: rows, c, h, hp, hrows, _ => by
    have hid := identity_rollBack c.revisions r r
    refine foldOk_cons_eq_ok.2 ⟨{ c with revisions := rollBackRevision c.revisions r }, ?_, ?_⟩
    · rw [hrows row List.mem_cons_self]; exact restoreRevision_draft h hp
    · obtain ⟨hr', hp'⟩ := restores_congr (c := c) (e := { c with revisions := rollBackRevision c.revisions r })
        (t := run) rfl rfl hid
      by_cases hnil : rows = []
      · rw [hnil]; rfl
      · have ih := restoreAll_draft (hr'.trans h) (hp'.trans hp) (fun x hx => hrows x (List.mem_cons_of_mem _ hx)) hnil
        rw [rollBackRevision_rollBackRevision] at ih
        exact ih

/-- A loop of undos with predecessor `p`: success is that of the head check. -/
theorem restoreAll_eq_ok {run r p d : String} : ∀ {rows : List (String × String × String)} {c u : Core},
    c.restores run r = true → c.predecessor r = some (p, d) → NotSuperseded c.revisions r →
      (∀ row ∈ rows, row.2.1 = r) → rows ≠ [] →
      (restoreAll run c rows = .ok u ↔ UniqueHead (restoreHead (rollBackRevision c.revisions r) p d) ∧
        u = { c with
          revisions := restoreHead (rollBackRevision c.revisions r) p d
          assertions := reopenAssertions c.assertions rows p })
  | [], _, _, _, _, _, _, hne => absurd rfl hne
  | row :: rows, c, u, h, hp, hns, hrows, _ => by
    have hrow := hrows row List.mem_cons_self
    have hfirst : ∀ e, restoreRevision run c row.1 row.2.1 row.2.2 = .ok e ↔
        UniqueHead (restoreHead (rollBackRevision c.revisions r) p d) ∧ e = { c with
          revisions := restoreHead (rollBackRevision c.revisions r) p d
          assertions := reopenAssertions c.assertions [row] p } := by
      intro e
      have hone := restoreRevision_eq_ok (t := row.1) (v := row.2.2) (e := e) h hp
      rw [hrow, hone]
      have : [(row.1, r, row.2.2)] = [row] := by rw [← hrow]
      rw [this]
    have hid : ((restoreHead (rollBackRevision c.revisions r) p d).lookup r).map (·.toRevisionIdentity) =
        (c.revisions.lookup r).map (·.toRevisionIdentity) := by
      rw [identity_restoreHead, identity_rollBack]
    obtain ⟨hr', hp'⟩ := restores_congr (c := c) (t := run) (e := { c with
      revisions := restoreHead (rollBackRevision c.revisions r) p d
      assertions := reopenAssertions c.assertions [row] p }) rfl rfl hid
    have hloop : restoreAll run c (row :: rows) = .ok u ↔ ∃ e, restoreRevision run c row.1 row.2.1 row.2.2 = .ok e ∧
        restoreAll run e rows = .ok u := foldOk_cons_eq_ok
    rw [hloop]
    by_cases hnil : rows = []
    · subst hnil
      constructor
      · rintro ⟨e, he, hrest⟩
        cases hrest
        exact (hfirst _).1 he
      · exact fun hc => ⟨u, (hfirst u).2 hc, rfl⟩
    · have ih : ∀ f, restoreAll run _ rows = .ok f ↔ _ := fun f => restoreAll_eq_ok (u := f) (hr'.trans h) (hp'.trans hp)
        (notSuperseded_undo hns) (fun x hx => hrows x (List.mem_cons_of_mem _ hx)) hnil
      simp only [undo_idempotent hns, reopenAssertions_cons] at ih
      constructor
      · rintro ⟨e, he, hrest⟩
        obtain ⟨-, rfl⟩ := (hfirst e).1 he
        exact (ih u).1 hrest
      · rintro ⟨hu, hc⟩
        exact ⟨_, (hfirst _).2 ⟨hu, rfl⟩, (ih u).2 ⟨hu, hc⟩⟩

/-! ## A whole rollback -/

/-- The artifacts that lose their last owner when the run releases its own. -/
def rollbackCleanup (o : Ownership) (pipelineRunId : String) : List RegistryKey :=
  unownedArtifacts (releaseSources o pipelineRunId) pipelineRunId

/-- The canonical row of an unowned artifact. -/
def retractedBy (keys : List RegistryKey) (assertionId : String) : Bool :=
  keys.any fun k => k.artifact = ⟨.sql, .assertion, assertionId⟩

/-- The fact-level undo reactivates the assertion if it is superseded. -/
def unsuperseded (c : Core) (pipelineRunId assertionId : String) : Bool :=
  assertionId ∈ factLevelTargets c pipelineRunId && !stillSuperseded c pipelineRunId assertionId

/-- The rows of the revision-level undo: tenant, revision and `valid_from` of each mutation of the run. -/
def undoRows (c : Core) (pipelineRunId : String) : List (String × String × String) :=
  ((c.children pipelineRunId).map fun m => (m.tenantId, m.revisionId, m.metadataValidFrom)).eraseDups

/-- The assertions after retraction and the fact-level undo. -/
def undoneFacts (db : Db) (pipelineRunId : String) : Table Assertion :=
  (retractAssertions db.core.assertions (rollbackCleanup db.own pipelineRunId)).update
    (fun a => unsuperseded db.core pipelineRunId a.assertionId && a.status = .superseded) fun a =>
      { a with status := .active, validTo := "" }

/-- What an undo of the run reads is the same in both cores: mutations differ at most in the state of
the run's own ones, assertions in predicate, status and validity, revisions in status and manifest. -/
structure Core.UndoAlike (pipelineRunId : String) (c c' : Core) : Prop where
  mutations : c.mutations.Rel (fun m m' => m' = m ∨ (m.pipelineRunId = pipelineRunId ∧
    m'.toMutationScope = m.toMutationScope ∧ m'.metadataValidFrom = m.metadataValidFrom)) c'.mutations
  assertions : ∀ k, (c'.assertions.lookup k).map (·.toAssertionScope) = (c.assertions.lookup k).map (·.toAssertionScope)
  links : c'.links = c.links
  documents : c'.documents = c.documents
  revisions : ∀ k, (c'.revisions.lookup k).map (·.toRevisionIdentity) = (c.revisions.lookup k).map (·.toRevisionIdentity)

namespace Core.UndoAlike

variable {run : String} {c c' : Core} (h : c.UndoAlike run c')

include h

/-- The mutation that wrote an assertion, as far as its run's states do not matter. -/
theorem source {q : Mutation → Bool} (hq : ∀ m m' : Mutation, m.pipelineRunId = run →
    m'.toMutationScope = m.toMutationScope → q m' = q m) (id : String) :
    ((c'.assertions.lookup id).any fun s => (c'.mutations.lookup s.mutationId).any q) =
      (c.assertions.lookup id).any fun s => (c.mutations.lookup s.mutationId).any q := by
  have hkey : ∀ m m' : Mutation, (m' = m ∨ (m.pipelineRunId = run ∧ m'.toMutationScope = m.toMutationScope ∧
      m'.metadataValidFrom = m.metadataValidFrom)) → Keyed.key m' = Keyed.key m := by
    rintro m m' (rfl | ⟨-, hs, -⟩)
    · rfl
    · exact congrArg (·.mutationId) hs
  have hmut : ∀ k, (c'.mutations.lookup k).any q = (c.mutations.lookup k).any q := by
    intro k
    cases hk : c.mutations.lookup k with
    | none => rw [(h.mutations.lookup_none hkey).2 hk]
    | some m =>
      obtain ⟨m', hm', rfl | ⟨hr, hs, -⟩⟩ := h.mutations.lookup hkey hk
      · rw [hm']
      · rw [hm', Option.any_some, Option.any_some]; exact hq m m' hr hs
  have hscope := h.assertions id
  cases hid : c.assertions.lookup id with
  | none => rw [hid] at hscope; rw [Option.map_eq_none_iff.1 hscope]; rfl
  | some a =>
    rw [hid] at hscope
    obtain ⟨a', ha', hs⟩ := Option.map_eq_some_iff.1 hscope
    rw [ha', Option.any_some, Option.any_some, hmut, congrArg (·.mutationId) hs]

theorem factLevelTargets : Ledger.factLevelTargets c' run = Ledger.factLevelTargets c run := by
  unfold Ledger.factLevelTargets
  rw [h.links]
  congr 2
  refine List.filter_congr fun l _ => h.source (fun m m' _ hs => ?_) l.sourceAssertionId
  rw [congrArg (·.pipelineRunId) hs]

theorem stillSuperseded (id : String) : Ledger.stillSuperseded c' run id = Ledger.stillSuperseded c run id := by
  unfold Ledger.stillSuperseded Table.anyWhere
  rw [h.links]
  congr 1
  funext l
  congr 1
  refine h.source (fun m m' hr hs => ?_) l.sourceAssertionId
  simp [congrArg (·.pipelineRunId) hs, hr]

theorem unsuperseded (id : String) : Ledger.unsuperseded c' run id = Ledger.unsuperseded c run id := by
  rw [Ledger.unsuperseded, Ledger.unsuperseded, h.factLevelTargets, h.stillSuperseded]

theorem undoRows : Ledger.undoRows c' run = Ledger.undoRows c run := by
  unfold Ledger.undoRows Core.children
  congr 1
  refine (forall₂_map_eq (h.mutations.select fun m m' hm => ?_) fun m m' hm => ?_).symm
  · rcases hm with rfl | ⟨-, hs, -⟩
    · rfl
    · rw [congrArg (·.pipelineRunId) hs]
  · rcases hm with rfl | ⟨-, hs, hv⟩
    · rfl
    · rw [congrArg (·.tenantId) hs, congrArg (·.revisionId) hs, hv]

/-- Whether and how the revision-level undo is done is the same. -/
theorem restores (r : String) : c'.restores run r = c.restores run r ∧ c'.predecessor r = c.predecessor r := by
  have hother : (c'.mutations.anyWhere fun m => m.revisionId = r && m.pipelineRunId ≠ run && m.state = .committed) =
      c.mutations.anyWhere fun m => m.revisionId = r && m.pipelineRunId ≠ run && m.state = .committed := by
    refine (h.mutations.anyWhere fun m m' hm => ?_).symm
    rcases hm with rfl | ⟨hr, hs, -⟩
    · rfl
    · simp [congrArg (·.pipelineRunId) hs, hr]
  have hrev := h.revisions r
  unfold Core.restores Core.predecessor Core.documentStatus
  rw [hother, h.documents]
  cases hl : c.revisions.lookup r with
  | none => rw [hl] at hrev; rw [Option.map_eq_none_iff.1 hrev]; exact ⟨rfl, rfl⟩
  | some x =>
    rw [hl] at hrev
    obtain ⟨y, hy, hid⟩ := Option.map_eq_some_iff.1 hrev
    rw [hy, Option.bind_some, Option.bind_some, Option.bind_some, Option.bind_some, hid]
    exact ⟨rfl, rfl⟩

end Core.UndoAlike

/-- A core whose run was fenced and whose unowned assertions were retracted. -/
structure Fenced (db : Db) (pipelineRunId : String) (c : Core) : Prop where
  mutations : c.mutations = moveMutations db.core.mutations (fun m => m.pipelineRunId = pipelineRunId) .rollingBack
  assertions : c.assertions = retractAssertions db.core.assertions (rollbackCleanup db.own pipelineRunId)
  links : c.links = db.core.links
  documents : c.documents = db.core.documents
  revisions : c.revisions = db.core.revisions

/-- Fencing does not change what the undo reads. -/
theorem Fenced.alike {db : Db} {run : String} {c : Core} (hf : Fenced db run c) : db.core.UndoAlike run c where
  mutations := by
    rw [hf.mutations, moveMutations]
    apply Table.rel_update
    · exact fun _ => Or.inl rfl
    · exact fun m _ hr => Or.inr ⟨of_decide_eq_true hr, rfl, rfl⟩
  assertions k := by
    rw [hf.assertions, retractAssertions, Table.lookup_update, Option.map_map]
    congr 1; funext a
    show (if _ then _ else _ : Assertion).toAssertionScope = _
    split <;> rfl
  links := hf.links
  documents := hf.documents
  revisions _ := by rw [hf.revisions]

/-- The fact-level undo after fencing. -/
theorem Fenced.restoreFactTargets {db : Db} {run : String} {c : Core} (hf : Fenced db run c) :
    restoreFactTargets c run = undoneFacts db run := by
  unfold Ledger.restoreFactTargets undoneFacts unsuperseded
  simp only [hf.alike.factLevelTargets, hf.alike.stillSuperseded, hf.assertions]
  apply Table.ext
  show List.map _ _ = List.map _ _
  refine List.map_congr_left fun a _ => ?_
  simp only [List.mem_filter, Bool.decide_and, Bool.decide_eq_true]

/-- What the retraction and the fact-level undo make of an assertion. -/
def undoFact (db : Db) (pipelineRunId : String) (a : Assertion) : Assertion :=
  if retractedBy (rollbackCleanup db.own pipelineRunId) a.assertionId then { a with status := .retracted }
  else if unsuperseded db.core pipelineRunId a.assertionId && a.status = .superseded then
    { a with status := .active, validTo := "" }
  else a

theorem undoFact_scope (db : Db) (run : String) (a : Assertion) :
    (undoFact db run a).toAssertionScope = a.toAssertionScope := by
  unfold undoFact
  split
  · rfl
  · split <;> rfl

/-- What the revision-level undo makes of an assertion of predecessor `p`. -/
def reopenFact (rows : List (String × String × String)) (p : String) (a : Assertion) : Assertion :=
  if a.revisionId = p && a.status = .superseded && (reopeningFrom rows a.tenantId).isSome then
    { a with status := .active, validTo := reopenValidity ((reopeningFrom rows a.tenantId).getD "") a.validTo }
  else a

theorem lookup_undoneFacts (db : Db) (run k : String) :
    (undoneFacts db run).lookup k = (db.core.assertions.lookup k).map (undoFact db run) := by
  rw [undoneFacts, Table.lookup_update, retractAssertions, Table.lookup_update, Option.map_map]
  congr 1
  funext a
  show (if _ then _ else _ : Assertion) = undoFact db run a
  unfold undoFact retractedBy
  by_cases hr : ((rollbackCleanup db.own run).any fun k => k.artifact = ⟨.sql, .assertion, a.assertionId⟩) = true
  · simp only [hr, ↓reduceIte, reduceCtorEq, decide_false, Bool.and_false, Bool.false_eq_true]
  · simp only [hr, Bool.false_eq_true, ↓reduceIte]

theorem lookup_reopenAssertions (t : Table Assertion) (rows : List (String × String × String)) (p k : String) :
    (reopenAssertions t rows p).lookup k = (t.lookup k).map (reopenFact rows p) :=
  Table.lookup_update _ _ _ _ _

/-- A rollback that starts, of a run whose mutations all belong to revision `rev`. -/
structure RolledBackRows (db db' : Db) (run rev : String) : Prop where
  skipped : db.core.restores run rev = false →
    db'.core.revisions = db.core.revisions ∧ db'.core.assertions = undoneFacts db run
  draft : db.core.restores run rev = true → db.core.predecessor rev = none →
    db'.core.revisions = rollBackRevision db.core.revisions rev ∧ db'.core.assertions = undoneFacts db run
  restored : ∀ p d, db.core.restores run rev = true → db.core.predecessor rev = some (p, d) →
    db'.core.revisions = restoreHead (rollBackRevision db.core.revisions rev) p d ∧
      db'.core.assertions = reopenAssertions (undoneFacts db run) (undoRows db.core run) p

theorem mem_undoRows {c : Core} {run rev : String} (hch : ∀ m ∈ c.children run, m.revisionId = rev) :
    ∀ row ∈ undoRows c run, row.2.1 = rev := by
  intro row hrow
  obtain ⟨m, hm, rfl⟩ := List.mem_map.1 (List.mem_eraseDups.1 hrow)
  exact hch m hm

theorem undoRows_ne_nil {c : Core} {run : String} (hne : c.children run ≠ []) : undoRows c run ≠ [] := by
  obtain ⟨m, hm⟩ := List.exists_mem_of_ne_nil _ hne
  exact List.ne_nil_of_mem (List.mem_eraseDups.2 (List.mem_map.2 ⟨m, hm, rfl⟩))

/-- The core that a rollback fences. -/
theorem fenced_of_moved {db : Db} {run : String} {runs : Table PipelineRun} {moved : Core}
    (hmv : transitionPipelineMutations { db.core with
      runs := runs
      assertions := retractAssertions db.core.assertions (rollbackCleanup db.own run) } run .rollingBack = .ok moved) :
    Fenced db run moved := by
  obtain ⟨hm, hu⟩ := transitionPipelineMutations_spec hmv
  exact ⟨hm, hu.assertions (by decide), hu.links, hu.documents, hu.revisions (by decide)⟩

/-- The undo of a whole run is the loop of its revision's undos over the undone facts. -/
theorem Fenced.restore {db : Db} {run : String} {c : Core} (hf : Fenced db run c) :
    restorePipelineSupersession c run =
      restoreAll run { c with assertions := undoneFacts db run } (Ledger.undoRows db.core run) := by
  rw [← hf.alike.undoRows, ← hf.restoreFactTargets]; rfl

theorem requestPipelineRollback_rows {db db' : Db} {run rev : String} (h : requestPipelineRollback db run = .ok db')
    (hstate : db.core.pipelineState run ≠ some .rolledBack) (hch : ∀ m ∈ db.core.children run, m.revisionId = rev)
    (hne : db.core.children run ≠ []) (hns : NotSuperseded db.core.revisions rev) : RolledBackRows db db' run rev := by
  obtain ⟨row, hrow, ⟨hs, -⟩ | ⟨-, -, runs, moved, restored, cleanup, rfl, -, hmv, hre, hcl, hdb⟩⟩ :=
    requestPipelineRollback_cases h
  · exact absurd (by rw [Core.pipelineState, hrow, Option.map_some, hs]) hstate
  · have hf : Fenced db run moved := fenced_of_moved hmv
    rw [hf.restore] at hre
    have hclosed : db'.core.revisions = restored.revisions ∧ db'.core.assertions = restored.assertions := by
      unfold closeIfIdle at hcl
      split at hcl
      · have hu := (closeRollback_spec hcl).2
        exact ⟨hu.revisions (by decide), hu.assertions (by decide)⟩
      · cases hcl; exact ⟨rfl, rfl⟩
    obtain ⟨hr, hp⟩ := hf.alike.restores rev
    have hrows := mem_undoRows hch
    have hnil := undoRows_ne_nil hne
    have hns' : NotSuperseded moved.revisions rev := by rw [hf.revisions]; exact hns
    -- the undone facts do not decide how the revision is undone
    generalize hu : ({ moved with assertions := undoneFacts db run } : Core) = undone at hre
    have hrev : undone.revisions = db.core.revisions := by rw [← hu]; exact hf.revisions
    have has : undone.assertions = undoneFacts db run := by rw [← hu]
    have hr : undone.restores run rev = db.core.restores run rev := by rw [← hu]; exact hr
    have hp : undone.predecessor rev = db.core.predecessor rev := by rw [← hu]; exact hp
    rw [← hrev] at hns
    refine ⟨fun hskip => ?_, fun hres hpred => ?_, fun p d hres hpred => ?_⟩ <;> rw [hclosed.1, hclosed.2]
    · rw [restoreAll_skip (hr.trans hskip) hrows] at hre
      cases hre
      exact ⟨hrev, has⟩
    · rw [restoreAll_draft (hr.trans hres) (hp.trans hpred) hrows hnil] at hre
      cases hre
      exact ⟨by rw [hrev], has⟩
    · obtain ⟨-, rfl⟩ := (restoreAll_eq_ok (hr.trans hres) (hp.trans hpred) hns hrows hnil).1 hre
      exact ⟨by rw [hrev], by rw [has]⟩

theorem closeRollback_total {c : Core} {run : String} (h : c.runs.lookup run ≠ none) :
    ∃ c', closeRollback c run = .ok c' := by
  obtain ⟨runs, b, ht⟩ := transitionPipelineRun_total h .rolledBack
  have hr : runs.lookup run ≠ none := (transitionPipelineRun_moved ht).1.lookup_ne_none.2 h
  obtain ⟨c', hc⟩ : ∃ c', transitionPipelineMutations { c with runs := runs } run .rolledBack = .ok c' :=
    transitionPipelineMutations_total hr (by decide)
  exact ⟨c', bind_eq_ok.2 ⟨_, ht, hc⟩⟩

/-- The rollback of such a run succeeds when the run may roll back, no revision of it conflicts with a
head, and the restored heads are unique. -/
theorem requestPipelineRollback_total {db : Db} {run rev : String} {row : PipelineRun}
    (hrow : db.core.runs.lookup run = some row) (hmay : row.state = .rollingBack ∨ .rollingBack ∈ row.state.next)
    (hhead : nonHeadRevision db.core run = none) (hch : ∀ m ∈ db.core.children run, m.revisionId = rev)
    (hne : db.core.children run ≠ []) (hns : NotSuperseded db.core.revisions rev)
    (hunique : ∀ p d, db.core.restores run rev = true → db.core.predecessor rev = some (p, d) →
      UniqueHead (restoreHead (rollBackRevision db.core.revisions rev) p d)) :
    ∃ db', requestPipelineRollback db run = .ok db' := by
  have hnr : row.state ≠ .rolledBack := by
    rintro he; rw [he] at hmay; exact absurd hmay (by decide)
  have hrun : db.core.runs.lookup run ≠ none := by rw [hrow]; simp
  obtain ⟨runs, hruns, hkeep⟩ : ∃ runs, transitionPipelineRun db.core.runs run .rollingBack = .ok (runs, true) ∧
      runs.lookup run ≠ none := by
    obtain ⟨runs, b, ht⟩ := transitionPipelineRun_total hrun .rollingBack
    have hb : b = true := by
      obtain ⟨row', hrow', hcase⟩ := transitionPipelineRun_cases ht
      rw [hrow] at hrow'; cases hrow'
      rcases hcase with ⟨-, hb, -⟩ | ⟨-, -, hb, -⟩ | ⟨h₁, h₂, -⟩
      · exact hb
      · exact hb
      · exact absurd hmay (not_or.2 ⟨h₁, h₂⟩)
    exact ⟨runs, by rw [ht, hb], (transitionPipelineRun_moved ht).1.lookup_ne_none.2 hrun⟩
  obtain ⟨moved, hmv⟩ : ∃ moved, transitionPipelineMutations { db.core with
      runs := runs
      assertions := retractAssertions db.core.assertions (rollbackCleanup db.own run) } run .rollingBack = .ok moved :=
    transitionPipelineMutations_total hkeep (by decide)
  have hf : Fenced db run moved := fenced_of_moved hmv
  obtain ⟨restored, hre⟩ : ∃ restored, restorePipelineSupersession moved run = .ok restored := by
    rw [hf.restore]
    obtain ⟨hr, hp⟩ := hf.alike.restores rev
    generalize hu : ({ moved with assertions := undoneFacts db run } : Core) = undone
    have hrev : undone.revisions = db.core.revisions := by rw [← hu]; exact hf.revisions
    have hr : undone.restores run rev = db.core.restores run rev := by rw [← hu]; exact hr
    have hp : undone.predecessor rev = db.core.predecessor rev := by rw [← hu]; exact hp
    rw [← hrev] at hns hunique
    cases hres : db.core.restores run rev with
    | false => exact ⟨_, restoreAll_skip (hr.trans hres) (mem_undoRows hch)⟩
    | true =>
      cases hpred : db.core.predecessor rev with
      | none => exact ⟨_, restoreAll_draft (hr.trans hres) (hp.trans hpred) (mem_undoRows hch) (undoRows_ne_nil hne)⟩
      | some pd =>
        exact ⟨_, (restoreAll_eq_ok (hr.trans hres) (hp.trans hpred) hns (mem_undoRows hch)
          (undoRows_ne_nil hne)).2 ⟨hunique _ _ hres hpred, rfl⟩⟩
  have hkept : restored.runs.lookup run ≠ none := by
    rw [(restorePipelineSupersession_frame hre).runs]
    exact (transitionPipelineMutations_runs hmv run).2 hkeep
  obtain ⟨closed, hcl⟩ : ∃ closed, closeIfIdle restored run (decide (rollbackCleanup db.own run = []) &&
      !db.outbox.anyWhere fun p => p.state = .inFlight && p.key.mutationId ∈ childIds db.core run) = .ok closed := by
    unfold closeIfIdle
    split
    · exact closeRollback_total hkept
    · exact ⟨_, rfl⟩
  refine ⟨{ db with
    core := closed
    own := tombstoneUnowned (releaseSources db.own run) run (rollbackCleanup db.own run)
    idents := { db.idents with entities := retractEntities db.idents.entities (rollbackCleanup db.own run) }
    outbox := cancelLanes db.outbox (childIds db.core run) }, ?_⟩
  unfold requestPipelineRollback
  simp only [hrow, if_neg hnr, hhead]
  refine bind_eq_ok.2 ⟨_, hruns, ?_⟩
  exact bind_eq_ok.2 ⟨_, hmv, bind_eq_ok.2 ⟨_, hre, bind_eq_ok.2 ⟨_, hcl, rfl⟩⟩⟩

/-! ## Row by row -/

/-- What the rollback makes of an assertion. -/
def undoneAssertion (db : Db) (run rev : String) (a : Assertion) : Assertion :=
  match db.core.restores run rev, db.core.predecessor rev with
  | true, some (p, _) => reopenFact (undoRows db.core run) p (undoFact db run a)
  | _, _ => undoFact db run a

/-- What the rollback makes of a revision. -/
def undoneRevision (db : Db) (run rev : String) (r : Revision) : Revision :=
  if db.core.restores run rev then
    if r.revisionId = rev && r.status ∈ [RevisionStatus.active, .pending] then { r with status := .rolledBack }
    else if db.core.predecessor rev = some (r.revisionId, r.documentId) && r.status = .superseded then
      { r with status := .active }
    else r
  else r

variable {db db' : Db} {run rev : String}

theorem RolledBackRows.lookup_assertion (h : RolledBackRows db db' run rev) (k : String) :
    db'.core.assertions.lookup k = (db.core.assertions.lookup k).map (undoneAssertion db run rev) := by
  unfold undoneAssertion
  cases hres : db.core.restores run rev with
  | false => rw [(h.skipped hres).2, lookup_undoneFacts]
  | true =>
    cases hpred : db.core.predecessor rev with
    | none => rw [(h.draft hres hpred).2, lookup_undoneFacts]
    | some pd => rw [(h.restored pd.1 pd.2 hres hpred).2, lookup_reopenAssertions, lookup_undoneFacts, Option.map_map]; rfl

theorem RolledBackRows.lookup_revision (h : RolledBackRows db db' run rev) (k : String) :
    db'.core.revisions.lookup k = (db.core.revisions.lookup k).map (undoneRevision db run rev) := by
  unfold undoneRevision
  cases hres : db.core.restores run rev with
  | false => rw [(h.skipped hres).1]; simp
  | true =>
    cases hpred : db.core.predecessor rev with
    | none =>
      rw [(h.draft hres hpred).1, rollBackRevision, Table.lookup_update]
      simp
    | some pd =>
      rw [(h.restored pd.1 pd.2 hres hpred).1, restoreHead, Table.lookup_update, rollBackRevision,
        Table.lookup_update, Option.map_map]
      congr 1
      funext r
      by_cases hroll : (decide (r.revisionId = rev) && decide (r.status ∈ [RevisionStatus.active, .pending])) = true
      · simp only [Function.comp_apply, hroll, ↓reduceIte]
        simp
      · simp only [Function.comp_apply, hroll, Bool.false_eq_true, ↓reduceIte]
        have hpred' : (decide (r.revisionId = pd.1) && decide (r.documentId = pd.2)) =
            decide (some pd = some (r.revisionId, r.documentId)) := by
          rw [← Bool.decide_and]
          refine decide_eq_decide.2 ⟨?_, ?_⟩
          · rintro ⟨h₁, h₂⟩
            rw [h₁, h₂]
          · rintro h
            cases h; exact ⟨rfl, rfl⟩
        rw [hpred']

end Mesa.Ledger
