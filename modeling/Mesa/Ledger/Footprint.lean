/-
The footprint of each operation: the tables it may write. Every other table is as it was before,
so an invariant over some tables has to be proved for the operations that write one of them only.
-/
import Mesa.Ledger.Effects

namespace Mesa.Ledger

open Mesa.Foundation

/-- The tables of the database, and its clock. -/
inductive Part
  | runs | mutations | documents | revisions | chunks | assertions | links | receipts | registry | sources
  | cleanup | idents | outbox | queue | now
  deriving DecidableEq

/-- The part is the same in both databases. -/
def Part.Same (db db' : Db) : Part → Prop
  | .runs => db'.core.runs = db.core.runs
  | .mutations => db'.core.mutations = db.core.mutations
  | .documents => db'.core.documents = db.core.documents
  | .revisions => db'.core.revisions = db.core.revisions
  | .chunks => db'.core.chunks = db.core.chunks
  | .assertions => db'.core.assertions = db.core.assertions
  | .links => db'.core.links = db.core.links
  | .receipts => db'.own.receipts = db.own.receipts
  | .registry => db'.own.registry = db.own.registry
  | .sources => db'.own.sources = db.own.sources
  | .cleanup => db'.own.cleanup = db.own.cleanup
  | .idents => db'.idents = db.idents
  | .outbox => db'.outbox = db.outbox
  | .queue => db'.queue = db.queue
  | .now => db'.now = db.now

theorem Part.Same.refl (db : Db) (part : Part) : part.Same db db := by
  cases part <;> rfl

theorem Part.Same.trans {a b c : Db} {part : Part} (h₁ : part.Same a b) (h₂ : part.Same b c) : part.Same a c := by
  cases part <;> exact Eq.trans h₂ h₁

/-- The parts an operation may write. -/
def Op.writes : Op → List Part
  | .passTime _ => [.now]
  | .createDocument .. => [.documents]
  | .createRevision _ => [.revisions]
  | .createSourceChunk _ => [.documents, .revisions, .chunks, .assertions]
  | .admitMemory _ => [.documents, .revisions, .chunks, .assertions, .runs, .mutations, .outbox, .queue]
  | .recordMutation _ => [.runs, .mutations, .outbox]
  | .recordMutationExtraction .. => [.runs, .mutations]
  | .setMutationState .. => [.runs, .mutations, .revisions, .assertions, .outbox]
  | .recordMutationArtifact .. => [.receipts, .registry, .sources]
  | .resolveV4Entity _ => [.idents]
  | .insertAssertion .. => [.assertions, .links]
  | .dropFencedAssertion .. => [.assertions, .links, .receipts]
  | .claimProjectionOutbox .. => [.outbox]
  | .completeProjectionOutbox .. => [.runs, .mutations, .revisions, .assertions, .outbox]
  | .failProjectionOutbox .. => [.runs, .mutations, .outbox]
  | .requeueSkippedProjections _ => [.outbox]
  | .recoverInFlight => [.outbox, .queue]
  | .publishWithoutGraph => [.outbox]
  | .requestPipelineRollback _ =>
    [.runs, .mutations, .revisions, .assertions, .registry, .sources, .cleanup, .idents, .outbox]
  | .replayPipelineRun .. => [.runs, .mutations, .cleanup, .outbox, .queue]
  | .reconcileProjectionParity _ => [.runs, .mutations, .outbox]
  | .claimArtifactCleanup .. => [.cleanup]
  | .applySqlCleanup _ => [.assertions, .links, .idents]
  | .finishArtifactCleanup .. => [.runs, .mutations, .registry, .cleanup]
  | .enqueueUnownedProjectionCleanup .. => [.runs, .mutations, .registry, .cleanup]
  | .finalizeTerminalProjectionCompensation _ => [.runs, .mutations]
  | .purgeDocument .. => [.runs, .mutations, .documents, .revisions, .assertions, .outbox]
  | .purgeMemory .. => [.runs, .mutations, .outbox]
  | .claimDispatchQueue .. => [.queue]
  | .completeDispatchQueue .. => [.runs, .mutations, .queue]

/-- A core that a non-committing transition leaves differs in runs and mutations only. -/
theorem Core.Unmoved.same {s : MutationState} {db : Db} {core : Core} (h : db.core.Unmoved s core)
    (hs : s ≠ .committed) {part : Part} (hp : part ≠ .runs) (hp' : part ≠ .mutations) :
    part.Same db { db with core } := by
  cases part <;> first | rfl | contradiction | skip
  · exact h.documents
  · exact h.revisions hs
  · exact h.chunks
  · exact h.assertions hs
  · exact h.links

/-- The repair of a mutation writes runs, mutations and lanes only. -/
theorem repairMutation_frame {db db' : Db} {id : String} {lanes : List Lane} {part : Part}
    (h : repairMutation db id lanes = .ok db') (hr : part ≠ .runs) (hm : part ≠ .mutations) (ho : part ≠ .outbox) :
    part.Same db db' := by
  rcases repairMutation_cases h with rfl | ⟨m, core, -, -, -, -, ht, -, hdb⟩
  · exact .refl _ _
  · obtain ⟨-, hu, -⟩ := transitionMemoryMutation_spec ht
    have hsame := hu.same (by decide) hr hm
    rw [hdb]
    cases part <;> first | contradiction | exact hsame

/-- `_enqueue_unowned_projection_cleanup` neither releases ownership nor touches a receipt. -/
theorem tombstoneAll_frame (artifacts : List Artifact) (run : String) (key : Artifact → RegistryKey) :
    ∀ o : Ownership, (artifacts.foldl (fun o a => o.tombstone run (key a)) o).receipts = o.receipts ∧
      (artifacts.foldl (fun o a => o.tombstone run (key a)) o).sources = o.sources := by
  induction artifacts with
  | nil => exact fun o => ⟨rfl, rfl⟩
  | cons a rest ih => exact fun o => ⟨(ih _).1, (ih _).2⟩

theorem foldOk_frame {part : Part} {ι : Type} {f : Db → ι → Except DaoError Db}
    (step : ∀ db i db', f db i = .ok db' → part.Same db db') {db db' : Db} {l : List ι}
    (h : foldOk f db l = .ok db') : part.Same db db' := by
  have keep : ∀ d i d', part.Same db d → f d i = .ok d' → part.Same db d' :=
    fun d i d' hs hf => hs.trans (step d i d' hf)
  exact foldOk_invariant keep (.refl _ _) h

/-- A part outside the footprint of an operation is the same before and after. -/
theorem transact_frame {env : Env} {db db' : Db} {op : Op} (h : transact env db op = .ok db') {part : Part}
    (hp : part ∉ op.writes) : part.Same db db' := by
  cases op with
  | passTime n =>
    cases h
    cases part <;> first | rfl | simp [Op.writes] at hp
  | createDocument t d i r =>
    obtain ⟨c, hc, rfl⟩ := map_eq_ok.1 h
    unfold createDocument at hc
    simp only at hc
    split at hc
    · cases hc
    · split at hc
      · cases hc
      · split at hc
        · cases hc
        · cases hc
          cases part <;> first | rfl | simp [Op.writes] at hp
  | createRevision q =>
    obtain ⟨c, hc, rfl⟩ := map_eq_ok.1 h
    unfold createRevision at hc
    split at hc
    · cases hc
    · split at hc
      · cases hc
      · split at hc
        · cases hc
        · simp only at hc
          split at hc
          · cases hc
            cases part <;> first | rfl | simp [Op.writes] at hp
          · cases hc
  | createSourceChunk q =>
    obtain ⟨c, hc, rfl⟩ := map_eq_ok.1 h
    have hf := createSourceChunk_frame hc
    cases part <;> first | rfl | exact hf.runs | exact hf.mutations | exact hf.links | simp [Op.writes] at hp
  | admitMemory q =>
    obtain ⟨core, m, queue, hc, -, -, hdb⟩ := admitMemory_cases h
    rw [hdb]
    have hf := admitProvenance_frame hc
    cases part <;> first | rfl | exact hf.links | simp [Op.writes] at hp
  | recordMutation m =>
    obtain ⟨hdb, -⟩ := recordMutation_cases h
    rw [hdb]
    cases part <;> first | rfl | simp [Op.writes] at hp
  | recordMutationExtraction a m ts =>
    obtain ⟨⟨c, b⟩, hc, rfl⟩ := map_eq_ok.1 h
    rcases recordMutationExtraction_cases hc with ⟨rfl, -⟩ | ⟨m, -, -, -, ht⟩
    · exact .refl _ _
    · obtain ⟨-, hu, -⟩ := transitionMemoryMutation_spec ht
      have hu' : db.core.Unmoved .extracted c := ⟨hu.documents, hu.chunks, hu.links, hu.revisions, hu.assertions⟩
      exact hu'.same (by decide) (fun he => by simp [he, Op.writes] at hp) (fun he => by simp [he, Op.writes] at hp)
  | setMutationState a m s =>
    obtain ⟨⟨db₁, b⟩, hc, rfl⟩ := map_eq_ok.1 h
    rcases (setMutationState_cases hc).2 with rfl | ⟨m, core, b', -, -, ht, -, hdb⟩
    · exact .refl _ _
    · obtain ⟨-, hu, -⟩ := transitionMemoryMutation_spec ht
      rcases hdb with ⟨-, hdb⟩ | ⟨-, -, -, hdb⟩ <;> rw [hdb] <;>
        cases part <;> first | rfl | exact hu.documents | exact hu.chunks | exact hu.links | simp [Op.writes] at hp
  | recordMutationArtifact m a =>
    simp only [transact, recordMutationArtifact] at h
    split at h
    · cases h
    · split at h
      · cases h
      · split at h
        · cases h
        · split at h
          · cases h
          · cases h
            cases part <;> first | rfl | simp [Op.writes] at hp
  | resolveV4Entity q =>
    obtain ⟨r, -, rfl⟩ := map_eq_ok.1 h
    cases part <;> first | rfl | simp [Op.writes] at hp
  | insertAssertion m t f =>
    obtain ⟨⟨db₁, aid⟩, hc, rfl⟩ := map_eq_ok.1 h
    obtain ⟨m, a, -, -, -, -, -, -, -, -, core, links, rfl, -, hdb⟩ := insertAssertion_cases hc
    rw [hdb]
    cases part <;> first | rfl | simp [Op.writes] at hp
  | dropFencedAssertion m a =>
    cases h
    rcases dropFencedAssertion_cases db m a with hdb | ⟨m, -, -, hdb⟩ <;> rw [hdb]
    · exact .refl _ _
    · cases part <;> first | rfl | simp [Op.writes] at hp
  | claimProjectionOutbox w t n l =>
    obtain ⟨⟨db₁, claims⟩, hc, rfl⟩ := map_eq_ok.1 h
    obtain ⟨ids, -, hdb, -⟩ := claimProjectionOutbox_cases hc
    rw [hdb]
    cases part <;> first | rfl | simp [Op.writes] at hp
  | completeProjectionOutbox k w t o =>
    obtain ⟨⟨db₁, r⟩, hc, rfl⟩ := map_eq_ok.1 h
    rcases completeProjectionOutbox_cases hc with ⟨rfl, -⟩ | ⟨p, m, -, hm, ⟨-, -, hdb⟩ | ⟨-, -, -, core, hadv, hdb⟩⟩
    · exact .refl _ _
    · rw [hdb]
      cases part <;> first | rfl | simp [Op.writes] at hp
    · obtain ⟨-, hcl⟩ := advanceMutationProjectionState_spec hm hadv
      rw [hdb]
      cases part <;> first | rfl | exact hcl.documents | exact hcl.chunks | exact hcl.links | simp [Op.writes] at hp
  | failProjectionOutbox k w t r =>
    rcases failProjectionOutbox_cases h with rfl | ⟨p, m, terminal, -, -, -, hdb, hcore⟩
    · exact .refl _ _
    · have hsame : part.Same db { db with core := db'.core } := by
        rcases hcore with ⟨-, hc⟩ | ⟨-, core, b, rb, ht, -, hc⟩
        · rw [hc]; exact .refl _ _
        · obtain ⟨-, hu, -⟩ := transitionMemoryMutation_spec ht
          have hs : (if terminal = true then MutationState.deadLetter else .retryPending) ≠ .committed := by
            cases terminal <;> decide
          rw [hc]
          have hmoved : part.Same db { db with core } := hu.same hs (fun he => by simp [he, Op.writes] at hp)
            (fun he => by simp [he, Op.writes] at hp)
          cases part <;> first | exact hmoved | simp [Op.writes] at hp
      rw [hdb]
      cases part <;> first | exact hsame | simp [Op.writes] at hp
  | requeueSkippedProjections l =>
    simp only [transact, requeueSkippedProjections] at h
    split at h
    · cases h
    · cases h
      cases part <;> first | rfl | simp [Op.writes] at hp
  | recoverInFlight =>
    cases h
    cases part <;> first | rfl | simp [Op.writes] at hp
  | publishWithoutGraph =>
    cases h
    cases part <;> first | rfl | simp [Op.writes] at hp
  | requestPipelineRollback r =>
    obtain ⟨run, -, ⟨-, rfl⟩ | ⟨-, -, runs, moved, restored, cleanup, -, -, hmv, hre, hcl, hdb⟩⟩ :=
      requestPipelineRollback_cases h
    · exact .refl _ _
    · obtain ⟨-, hu⟩ := transitionPipelineMutations_spec hmv
      have hrf := restorePipelineSupersession_frame hre
      have hidle : restored.Unmoved .rolledBack db'.core := by
        unfold closeIfIdle at hcl
        split at hcl
        · exact (closeRollback_spec hcl).2
        · cases hcl; exact .refl _ _
      rw [hdb]
      cases part <;> first
        | rfl
        | exact hidle.documents.trans (hrf.documents.trans hu.documents)
        | exact hidle.chunks.trans (hrf.chunks.trans hu.chunks)
        | exact hidle.links.trans (hrf.links.trans hu.links)
        | simp [Op.writes] at hp
  | replayPipelineRun r t =>
    obtain ⟨run, runs, -, -, cr, -, -, hmv, hdb⟩ := replayPipelineRun_cases h
    obtain ⟨-, hu⟩ := transitionPipelineMutations_spec hmv
    have hs : (if cr = true then MutationState.rollingBack else .retryPending) ≠ .committed := by
      cases cr <;> decide
    rw [hdb]
    cases part <;> first
      | rfl
      | exact hu.documents
      | exact hu.chunks
      | exact hu.links
      | exact hu.revisions hs
      | exact hu.assertions hs
      | simp [Op.writes] at hp
  | reconcileProjectionParity ms =>
    refine foldOk_frame (fun db x db' hr => ?_) h
    exact repairMutation_frame hr (fun he => by simp [he, Op.writes] at hp) (fun he => by simp [he, Op.writes] at hp)
      (fun he => by simp [he, Op.writes] at hp)
  | claimArtifactCleanup w t n l =>
    obtain ⟨⟨db₁, claims⟩, hc, rfl⟩ := map_eq_ok.1 h
    obtain ⟨ids, -, hdb, -⟩ := claimArtifactCleanup_cases hc
    rw [hdb]
    cases part <;> first | rfl | simp [Op.writes] at hp
  | applySqlCleanup a =>
    cases h
    unfold applySqlCleanup
    split <;> cases part <;> first | rfl | simp [Op.writes] at hp
  | finishArtifactCleanup k w t f =>
    rcases finishArtifactCleanup_cases h with rfl | ⟨row, -, -, hdb, hcore⟩
    · exact .refl _ _
    · have hr : part ≠ .runs := fun he => by simp [he, Op.writes] at hp
      have hm : part ≠ .mutations := fun he => by simp [he, Op.writes] at hp
      have hsame : part.Same db { db with core := db'.core } := by
        rcases hcore with ⟨-, hc⟩ | ⟨-, runs, rb, -, hmv⟩ | ⟨-, -, hc⟩
        · rw [hc]; exact .refl _ _
        · have hu := (transitionPipelineMutations_spec hmv).2
          have hu' : db.core.Unmoved .blocked db'.core :=
            ⟨hu.documents, hu.chunks, hu.links, hu.revisions, hu.assertions⟩
          exact hu'.same (by decide) hr hm
        · exact (closeRollback_spec hc).2.same (by decide) hr hm
      rw [hdb]
      cases part <;> first | exact hsame | rfl | simp [Op.writes] at hp
  | enqueueUnownedProjectionCleanup m as =>
    simp only [transact, enqueueUnownedProjectionCleanup] at h
    split at h
    · cases h
    · next m hm =>
      cases h
      have hf := tombstoneAll_frame as m.pipelineRunId (registryKey m.tenantId m.agentId) db.own
      cases part <;> first | rfl | exact hf.1 | exact hf.2 | simp [Op.writes] at hp
  | finalizeTerminalProjectionCompensation m =>
    rcases finalizeTerminalProjectionCompensation_cases h with rfl | ⟨m, -, -, hc, hdb⟩
    · exact .refl _ _
    · rw [hdb]
      exact (closeRollback_spec hc).2.same (by decide) (fun he => by simp [he, Op.writes] at hp)
        (fun he => by simp [he, Op.writes] at hp)
  | purgeDocument t d i =>
    obtain ⟨core, purged, hc, hdb⟩ := purgeDocument_cases h
    have hu := (purgeMutations_spec hc).2.1
    rw [hdb]
    cases part <;> first | rfl | exact hu.chunks | exact hu.links | simp [Op.writes] at hp
  | purgeMemory a s =>
    obtain ⟨core, purged, hc, hdb⟩ := purgeMemory_cases h
    have hsame : part.Same db { db with core } := (purgeMutations_spec hc).2.1.same (by decide)
      (fun he => by simp [he, Op.writes] at hp) (fun he => by simp [he, Op.writes] at hp)
    rw [hdb]
    cases part <;> first | exact hsame | simp [Op.writes] at hp
  | claimDispatchQueue w t n l =>
    simp only [transact, claimDispatchQueue] at h
    split at h
    · cases h
    · cases h
      cases part <;> first | rfl | simp [Op.writes] at hp
  | completeDispatchQueue k w t v =>
    obtain ⟨hdb, hc⟩ := completeDispatchQueue_cases h
    have hr : part ≠ .runs := fun he => by simp [he, Op.writes] at hp
    have hm : part ≠ .mutations := fun he => by simp [he, Op.writes] at hp
    have hsame : part.Same db { db with core := db'.core } := by
      rcases hc with hc | ⟨ids, hc⟩
      · rw [hc]; exact .refl _ _
      · exact (moveAll_spec hc).2.same (by decide) hr hm
    rw [hdb]
    cases part <;> first | exact hsame | simp [Op.writes] at hp

end Mesa.Ledger
