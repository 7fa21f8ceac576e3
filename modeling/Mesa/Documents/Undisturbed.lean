/-
What the rest of the system does to a revision that a document upload is filling: the transactions of the ledger that
do not name it keep its chunks and its payloads, and at most activate it once its manifest is frozen, or supersede it
once it is active.
-/
import Mesa.Ledger.Manifests

namespace Mesa.Ledger

open Mesa.Foundation

/-! ## Payloads -/

/-- What the mutations of a revision were admitted with. -/
def Core.payloads (c : Core) (revisionId : String) : List (MutationScope × String) :=
  (c.mutations.select fun m => m.revisionId = revisionId).map fun m => (m.toMutationScope, m.contentPayload)

/-- An update of other columns. -/
theorem payloads_update {c c' : Core} {p : Mutation → Bool} {f : Mutation → Mutation}
    (hf : ∀ m : Mutation, Keyed.key (f m) = Keyed.key m) (h : c'.mutations = c.mutations.update p f hf)
    (hscope : ∀ m, (f m).toMutationScope = m.toMutationScope) (htext : ∀ m, (f m).contentPayload = m.contentPayload)
    (R : String) : c'.payloads R = c.payloads R := by
  have hselect : (c.mutations.update p f hf).select (fun m => decide (m.revisionId = R)) =
      (c.mutations.select fun m => decide (m.revisionId = R)).map fun m => if p m then f m else m :=
    Table.select_update fun m => congrArg (fun scope : MutationScope => decide (scope.revisionId = R)) (hscope m)
  unfold Core.payloads
  rw [h, hselect, List.map_map]
  refine List.map_congr_left fun m _ => ?_
  show ((if p m then f m else m).toMutationScope, (if p m then f m else m).contentPayload) = _
  split
  · rw [hscope, htext]
  · rfl

theorem payloads_move {c c' : Core} {p : Mutation → Bool} {s : MutationState}
    (h : c'.mutations = moveMutations c.mutations p s) (R : String) : c'.payloads R = c.payloads R :=
  payloads_update (f := fun m => { m with state := m.state.attempt s }) (fun _ => rfl) h (fun _ => rfl) (fun _ => rfl) R

theorem payloads_set {c c' : Core} {id : String} {s : MutationState}
    (h : c'.mutations = setMutationStates c.mutations id s) (R : String) : c'.payloads R = c.payloads R :=
  payloads_update (f := fun m => { m with state := s }) (fun _ => rfl) h (fun _ => rfl) (fun _ => rfl) R

/-- A new mutation stands at the end of the payloads of its revision. -/
theorem payloads_insert {c c' : Core} {m : Mutation} (h : c'.mutations = c.mutations.insertOrIgnore m)
    (hnew : c.mutations.lookup m.mutationId = none) (R : String) :
    c'.payloads R = c.payloads R ++ if m.revisionId = R then [(m.toMutationScope, m.contentPayload)] else [] := by
  unfold Core.payloads Table.select
  rw [h, Table.rows_insertOrIgnore_fresh hnew, List.filter_append, List.map_append]
  congr 1
  by_cases hR : m.revisionId = R <;> simp [hR]

theorem payloads_insert_other {c c' : Core} {m : Mutation} {R : String}
    (h : c'.mutations = c.mutations.insertOrIgnore m) (hR : m.revisionId ≠ R) : c'.payloads R = c.payloads R := by
  cases hkey : c.mutations.hasKey m.mutationId with
  | true => unfold Core.payloads; rw [h, Table.insertOrIgnore_of_hasKey hkey]
  | false => rw [payloads_insert h (Table.hasKey_eq_false.1 hkey), if_neg hR, List.append_nil]

/-! ## The revision -/

/-- How the row of a revision goes on: its identity and whether it is frozen stay, and only its status moves. -/
structure Revision.GoesOn (r r' : Revision) : Prop where
  identity : r'.toRevisionIdentity = r.toRevisionIdentity
  frozen : r'.manifestFrozen = r.manifestFrozen
  status : r'.status = r.status ∨ (r.status = .pending ∧ r.manifestFrozen = true ∧ r'.status = .active) ∨
    (r.status = .active ∧ r'.status = .superseded)

theorem Revision.GoesOn.refl (r : Revision) : r.GoesOn r := ⟨rfl, rfl, Or.inl rfl⟩

/-- Nothing happens to a revision but what its own work brings about. -/
structure Core.Undisturbed (R : String) (c c' : Core) : Prop where
  chunks : c'.manifest R = c.manifest R
  payloads : c'.payloads R = c.payloads R
  missing : c.revisions.lookup R = none → c'.revisions.lookup R = none
  goesOn : ∀ r, c.revisions.lookup R = some r → ∃ r', c'.revisions.lookup R = some r' ∧ r.GoesOn r'

/-- The revisions of `t'` are those of `t`, and each goes on. -/
def RevisionsGoOn (R : String) (t t' : Table Revision) : Prop :=
  (t.lookup R = none → t'.lookup R = none) ∧ ∀ r, t.lookup R = some r → ∃ r', t'.lookup R = some r' ∧ r.GoesOn r'

theorem RevisionsGoOn.refl (R : String) (t : Table Revision) : RevisionsGoOn R t t :=
  ⟨id, fun r hr => ⟨r, hr, .refl r⟩⟩

theorem RevisionsGoOn.of_lookup {R : String} {t t' : Table Revision} (h : t'.lookup R = t.lookup R) :
    RevisionsGoOn R t t' :=
  ⟨fun hn => by rw [h, hn], fun r hr => ⟨r, by rw [h, hr], .refl r⟩⟩

/-- A change of the revisions after one that left the row alone. -/
theorem RevisionsGoOn.after {R : String} {t u v : Table Revision} (h : u.lookup R = t.lookup R)
    (h' : RevisionsGoOn R u v) : RevisionsGoOn R t v :=
  ⟨fun hn => h'.1 (by rw [h, hn]), fun r hr => h'.2 r (by rw [h, hr])⟩

/-- A reconciliation activates a pending revision with a frozen manifest, and supersedes the active one. -/
theorem reconcileRevisionActivation_goesOn {c c' : Core} {id : String} (h : reconcileRevisionActivation c id = .ok c')
    (R : String) : RevisionsGoOn R c.revisions c'.revisions := by
  rcases reconcileRevisionActivation_cases h with rfl | ⟨rev, hrev, hpending, -, hhead⟩
  · exact .refl R _
  · rcases reconcileRevisionActivation_frozen h with rfl | ⟨rev', hrev', hfrozen⟩
    · exact .refl R _
    · rw [hrev] at hrev'
      cases hrev'
      have hid : rev.revisionId = id := Table.lookup_key hrev
      refine ⟨fun hn => by rw [hhead.revisions R, hn]; rfl, fun r hr => ⟨_, by rw [hhead.revisions R, hr]; rfl, ?_⟩⟩
      beta_reduce
      by_cases hsup : rev.supersedesRevisionId = some R
      · obtain ⟨row, hrow, hactive, -⟩ := hhead.predecessor R hsup
        rw [hr] at hrow
        cases hrow
        rw [if_pos hsup]
        exact ⟨rfl, rfl, Or.inr (Or.inr ⟨hactive, rfl⟩)⟩
      · rw [if_neg hsup]
        by_cases hk : R = rev.revisionId
        · rw [if_pos hk]
          rw [hk, hid, hrev] at hr
          cases hr
          exact ⟨rfl, rfl, Or.inr (Or.inl ⟨hpending, hfrozen, rfl⟩)⟩
        · rw [if_neg hk]
          exact .refl r

theorem lookup_insertRevision_of_ne {t : Table Revision} {x : Revision} {R : String} (h : x.revisionId ≠ R) :
    (insertRevision t x).lookup R = t.lookup R := by
  unfold insertRevision
  split
  · rfl
  · exact Table.lookup_insertOrIgnore_of_ne h

/-- Storing the manifest of another revision. -/
theorem updateRevisionManifest_goesOn {env : Env} {c c' : Core} {id : String} {fin : Bool}
    (h : updateRevisionManifest env c id fin = .ok c') {R : String} (hR : id ≠ R) :
    RevisionsGoOn R c.revisions c'.revisions := by
  unfold updateRevisionManifest at h
  simp only at h
  split at h
  · cases h
  · split at h
    · cases h
    · generalize env.manifestHash _ = hash at h
      have hstored : (storedManifest c.revisions id hash fin).lookup R = c.revisions.lookup R := by
        rw [lookup_storedManifest]
        cases hr : c.revisions.lookup R with
        | none => rfl
        | some r =>
          have hid : r.revisionId = R := Table.lookup_key hr
          rw [Option.map_some, if_neg (by simp [hid, hR.symm])]
      split at h
      · exact .after hstored (reconcileRevisionActivation_goesOn h R)
      · cases h
        exact .of_lookup hstored

/-- Creating provenance for another revision. -/
theorem provenance_undisturbed {env : Env} {c c' : Core} {documents : Table Document} {x : Revision} {y : Chunk}
    {fin : Bool} {R : String} (hx : x.revisionId ≠ R) (hy : y.revisionId ≠ R)
    (h : updateRevisionManifest env { c with
      documents, revisions := insertRevision c.revisions x, chunks := insertChunk c.chunks y } y.revisionId fin = .ok c') :
    c.Undisturbed R c' := by
  have hframe := updateRevisionManifest_frame h
  have hgoes := RevisionsGoOn.after (lookup_insertRevision_of_ne hx) (updateRevisionManifest_goesOn h hy)
  refine ⟨?_, ?_, hgoes.1, hgoes.2⟩
  · unfold Core.manifest
    rw [hframe.chunks]
    exact insertChunk_manifest (Or.inr hy)
  · unfold Core.payloads
    rw [hframe.mutations]

theorem createSourceChunk_undisturbed {env : Env} {c c' : Core} {q : ChunkRequest} {R : String}
    (h : createSourceChunk env c q = .ok c') (hR : q.revisionId ≠ R) : c.Undisturbed R c' := by
  unfold createSourceChunk at h
  simp only at h
  iterate 5
    split at h
    · cases h
  obtain ⟨d, hd, h⟩ := bind_eq_ok.1 h
  cases storeChunk_cases hd
  exact provenance_undisturbed (x := draftRevision ..) hR hR h

theorem admitProvenance_undisturbed {env : Env} {c c' : Core} {q : Admission} {R : String}
    (h : admitProvenance env c q = .ok c') (hR : q.revisionId ≠ R) : c.Undisturbed R c' := by
  unfold admitProvenance at h
  simp only at h
  split at h
  · cases h
  · iterate 6
      split at h
      · cases h
    obtain ⟨d, hd, h⟩ := bind_eq_ok.1 h
    cases storeChunk_cases hd
    exact provenance_undisturbed (x := draftRevision ..) hR hR h

theorem createRevision_undisturbed {c c' : Core} {q : RevisionRequest} {R : String} (h : createRevision c q = .ok c')
    (hR : q.revisionId ≠ R) : c.Undisturbed R c' := by
  unfold createRevision at h
  split at h
  · cases h
  · split at h
    · cases h
    · split at h
      · cases h
      · simp only at h
        split at h
        · cases h
          have hgoes := RevisionsGoOn.of_lookup (lookup_insertRevision_of_ne (t := c.revisions)
            (x := ⟨⟨q.revisionId, q.tenantId, q.documentId, q.revisionNumber, some q.contentHash,
              q.supersedesRevisionId⟩, .pending, "", false⟩) hR)
          exact ⟨rfl, rfl, hgoes.1, hgoes.2⟩
        · cases h

/-- Work on mutations that leaves the revisions to a reconciliation. -/
theorem Core.Undisturbed.of_work {c c' : Core} {R : String} (hchunks : c'.chunks = c.chunks)
    (hpayloads : c'.payloads R = c.payloads R) (hgoes : RevisionsGoOn R c.revisions c'.revisions) :
    c.Undisturbed R c' :=
  ⟨by unfold Core.manifest; rw [hchunks], hpayloads, hgoes.1, hgoes.2⟩

theorem Core.Undisturbed.refl (R : String) (c : Core) : c.Undisturbed R c := .of_work rfl rfl (.refl R _)

theorem Core.Passes.undisturbed {c c' : Core} {m : Mutation} (h : c.Passes m c') (R : String) : c.Undisturbed R c' := by
  obtain ⟨s, hs, -⟩ := h.mutations
  exact .of_work h.chunks (payloads_set hs R) (by rw [h.revisions]; exact .refl R _)

theorem Commits.undisturbed {c c' : Core} {m : Mutation} (h : Commits c m c') (R : String) : c.Undisturbed R c' := by
  obtain ⟨fired, act, hfired, -, hact, hrev, -⟩ := h.activates
  have hfr : fired.revisions = c.revisions := by rw [hfired]
  refine .of_work h.chunks (payloads_set h.mutations R) ?_
  rw [hrev, ← hfr]
  exact reconcileRevisionActivation_goesOn hact R

/-! ## Every operation -/

/-- The operation does not name the revision, and if it is a rollback or a purge, it leaves the revision alone. -/
def Op.Spares (env : Env) (R : String) (db : Db) (op : Op) : Prop :=
  match op with
  | .createRevision q => q.revisionId ≠ R
  | .createSourceChunk q => q.revisionId ≠ R
  | .admitMemory q => q.revisionId ≠ R
  | .recordMutation m => m.revisionId ≠ R
  | .requestPipelineRollback _ => db.core.Undisturbed R (exec env db op).core
  | .purgeDocument _ _ _ => db.core.Undisturbed R (exec env db op).core
  | _ => True

/-- Work that leaves the revisions alone. -/
theorem Core.Undisturbed.of_payloads {c c' : Core} {R : String} (hchunks : c'.chunks = c.chunks)
    (hrev : c'.revisions = c.revisions) (hpayloads : c'.payloads R = c.payloads R) : c.Undisturbed R c' :=
  .of_work hchunks hpayloads (by rw [hrev]; exact .refl R _)

/-- A parity repair keeps the payloads. -/
theorem reconcileProjectionParity_payloads {db db' : Db} {missing : List (String × List Lane)}
    (h : reconcileProjectionParity db missing = .ok db') (R : String) : db'.core.payloads R = db.core.payloads R := by
  refine foldOk_invariant (I := fun d : Db => d.core.payloads R = db.core.payloads R) (fun d x d' hd hr => ?_) rfl h
  rcases repairMutation_cases hr with rfl | ⟨m, core, -, -, -, -, ht, -, hdb⟩
  · exact hd
  · have hmut : d'.core.mutations = core.mutations := by rw [hdb]
    exact (payloads_move (hmut.trans (transitionMemoryMutation_spec ht).1) R).trans hd

/-- A transaction that does not name a revision and does not undo it leaves it undisturbed. -/
theorem transact_undisturbed {env : Env} {db db' : Db} {op : Op} {R : String} (h : transact env db op = .ok db')
    (hop : op.Spares env R db) : db.core.Undisturbed R db'.core := by
  have quiet : Part.chunks ∉ op.writes → Part.revisions ∉ op.writes → db'.core.payloads R = db.core.payloads R →
      db.core.Undisturbed R db'.core :=
    fun hc hr hp => .of_payloads (transact_frame h hc) (transact_frame h hr) hp
  by_cases hw : Part.mutations ∉ op.writes ∧ Part.chunks ∉ op.writes ∧ Part.revisions ∉ op.writes
  · have hmut : db'.core.mutations = db.core.mutations := transact_frame h hw.1
    exact quiet hw.2.1 hw.2.2 (by unfold Core.payloads; rw [hmut])
  cases op with
  | createRevision q =>
    obtain ⟨c, hc, rfl⟩ := map_eq_ok.1 h
    exact createRevision_undisturbed hc hop
  | createSourceChunk q =>
    obtain ⟨c, hc, rfl⟩ := map_eq_ok.1 h
    exact createSourceChunk_undisturbed hc hop
  | admitMemory q =>
    obtain ⟨-, core, hc, -, -, hdb⟩ := admitMemory_rows h
    have hund := admitProvenance_undisturbed hc hop
    have hmut : db'.core.mutations = core.mutations.insertOrIgnore
        (admittedMutation env q (nextRawLogId db.queue.rawLogs)) := by rw [hdb]
    refine ⟨?_, (payloads_insert_other hmut hop).trans hund.payloads, ?_, ?_⟩
    · rw [hdb]; exact hund.chunks
    · rw [hdb]; exact hund.missing
    · rw [hdb]; exact hund.goesOn
  | recordMutation m =>
    refine quiet (by simp [Op.writes]) (by simp [Op.writes]) ?_
    rcases (recordMutation_cases h).2 with ⟨hm, -⟩ | ⟨-, hm⟩
    · unfold Core.payloads; rw [hm]
    · exact payloads_insert_other hm hop
  | recordMutationExtraction a id ts =>
    obtain ⟨⟨c, b⟩, hc, rfl⟩ := map_eq_ok.1 h
    refine quiet (by simp [Op.writes]) (by simp [Op.writes]) ?_
    rcases recordMutationExtraction_cases hc with ⟨rfl, -⟩ | ⟨m, -, -, -, ht⟩
    · rfl
    · have hmoved := payloads_move (transitionMemoryMutation_spec ht).1 R
      exact hmoved.trans (payloads_update (f := fun x => { x with projectionTriplets := ts.filter Triplet.wellFormed })
        (fun _ => rfl) rfl (fun _ => rfl) (fun _ => rfl) R)
  | setMutationState a id s =>
    obtain ⟨⟨db₁, b⟩, hc, rfl⟩ := map_eq_ok.1 h
    rcases (setMutationState_cases hc).2 with rfl | ⟨m, core, b', hm, -, ht, -, hdb⟩
    · exact .refl R _
    · have hcore : db.core.Undisturbed R core := by
        rcases transitionMemoryMutation_commits hm ht with hp | ⟨-, hcommits⟩
        · exact hp.undisturbed R
        · exact hcommits.undisturbed R
      rcases hdb with ⟨-, hdb⟩ | ⟨-, -, -, hdb⟩ <;> rw [hdb]
      · exact hcore
      · exact ⟨hcore.chunks, hcore.payloads, hcore.missing, hcore.goesOn⟩
  | completeProjectionOutbox k w t o =>
    have hcommitting : (Op.completeProjectionOutbox k w t o).committing = some k.mutationId := rfl
    rcases transact_commits hcommitting h with hsame | ⟨m, -, hp | hcommits⟩
    · rw [hsame]; exact .refl R _
    · exact hp.undisturbed R
    · exact hcommits.undisturbed R
  | failProjectionOutbox k w t r =>
    refine quiet (by simp [Op.writes]) (by simp [Op.writes]) ?_
    rcases failProjectionOutbox_cases h with rfl | ⟨p, m, terminal, -, -, -, -, hcore⟩
    · rfl
    · rcases hcore with ⟨-, hc⟩ | ⟨-, core, b, rb, ht, -, hc⟩ <;> rw [hc]
      exact payloads_move (transitionMemoryMutation_spec ht).1 R
  | requestPipelineRollback r => rw [← exec_of_ok h]; exact hop
  | replayPipelineRun r t =>
    refine quiet (by simp [Op.writes]) (by simp [Op.writes]) ?_
    obtain ⟨run, runs, -, -, cr, -, -, hmv, -⟩ := replayPipelineRun_cases h
    exact payloads_move (transitionPipelineMutations_spec hmv).1 R
  | reconcileProjectionParity ms =>
    exact quiet (by simp [Op.writes]) (by simp [Op.writes]) (reconcileProjectionParity_payloads h R)
  | finishArtifactCleanup k w t f =>
    refine quiet (by simp [Op.writes]) (by simp [Op.writes]) ?_
    rcases finishArtifactCleanup_cases h with rfl | ⟨row, -, -, -, ⟨-, hc⟩ | ⟨-, runs, rb, -, hmv⟩ | ⟨-, -, hc⟩⟩
    · rfl
    · rw [hc]
    · exact payloads_move (transitionPipelineMutations_spec hmv).1 R
    · exact payloads_move (closeRollback_spec hc).1 R
  | enqueueUnownedProjectionCleanup id artifacts =>
    refine quiet (by simp [Op.writes]) (by simp [Op.writes]) ?_
    simp only [transact, enqueueUnownedProjectionCleanup] at h
    split at h
    · cases h
    · cases h
      exact payloads_update (f := fun x => { x with state := .rollingBack }) (fun _ => rfl) rfl (fun _ => rfl)
        (fun _ => rfl) R
  | finalizeTerminalProjectionCompensation id =>
    refine quiet (by simp [Op.writes]) (by simp [Op.writes]) ?_
    rcases finalizeTerminalProjectionCompensation_cases h with rfl | ⟨m, -, -, hc, -⟩
    · rfl
    · exact payloads_move (closeRollback_spec hc).1 R
  | purgeDocument t d i => rw [← exec_of_ok h]; exact hop
  | purgeMemory a s =>
    refine quiet (by simp [Op.writes]) (by simp [Op.writes]) ?_
    obtain ⟨core, purged, hc, hdb⟩ := purgeMemory_cases h
    have hmut : db'.core.mutations = core.mutations := by rw [hdb]
    exact payloads_move (hmut.trans (purgeMutations_spec hc).1) R
  | completeDispatchQueue k w t v =>
    refine quiet (by simp [Op.writes]) (by simp [Op.writes]) ?_
    rcases (completeDispatchQueue_cases h).2 with hc | ⟨ids, hc⟩
    · rw [hc]
    · exact payloads_move (moveAll_spec hc).1 R
  | _ => exact absurd (by simp [Op.writes]) hw

theorem exec_undisturbed {env : Env} {db : Db} {op : Op} {R : String} (hop : op.Spares env R db) :
    db.core.Undisturbed R (exec env db op).core :=
  exec_induction (P := fun db' => db.core.Undisturbed R db'.core) (.refl R _) fun _ h => transact_undisturbed h hop

end Mesa.Ledger
