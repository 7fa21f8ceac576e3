/-
Manifests of revisions: once a manifest is frozen, neither its hash nor the chunks of the revision
change, and a revision that becomes ACTIVE has a frozen manifest whose chunks all have a committed
mutation. A rollback, which makes a superseded predecessor ACTIVE again, keeps the first part.
-/
import Mesa.Ledger.Activation
import Mesa.Ledger.ExactlyOnce

namespace Mesa.Ledger

open Mesa.Foundation

/-! ## The properties -/

/-- The chunks of a revision. -/
def Core.manifest (c : Core) (revisionId : String) : List Chunk := c.chunks.select fun k => k.revisionId = revisionId

/-- The manifest has a chunk, and every chunk of it has a committed mutation. -/
def Core.ManifestCommitted (c : Core) (revisionId : String) : Prop :=
  c.manifest revisionId ≠ [] ∧ ∀ k ∈ c.manifest revisionId, ∃ m ∈ c.mutations.rows,
    m.revisionId = revisionId ∧ m.chunkId = k.chunkId ∧ m.state = .committed

/-- Every revision is still there with its manifest hash, frozen if it was. -/
def SameManifests (t t' : Table Revision) : Prop :=
  ∀ k r, t.lookup k = some r → ∃ r', t'.lookup k = some r' ∧ r'.manifestHash = r.manifestHash ∧
    r'.manifestFrozen = r.manifestFrozen

/-- What is frozen stays: the hash, and the chunks of the revision. -/
structure Core.KeepsFrozen (c c' : Core) : Prop where
  revisions : ∀ k r, c.revisions.lookup k = some r → r.manifestFrozen = true →
    ∃ r', c'.revisions.lookup k = some r' ∧ r'.manifestHash = r.manifestHash ∧ r'.manifestFrozen = true
  chunks : ∀ k r, c.revisions.lookup k = some r → r.manifestFrozen = true → c'.manifest k = c.manifest k

/-- A revision that is newly ACTIVE has a frozen manifest that is committed. -/
def Core.ActivatesCommitted (c c' : Core) : Prop :=
  ∀ k r', c'.revisions.lookup k = some r' → r'.status = .active →
    (∃ r, c.revisions.lookup k = some r ∧ r.status = .active) ∨
      (r'.manifestFrozen = true ∧ c'.ManifestCommitted k)

theorem SameManifests.refl (t : Table Revision) : SameManifests t t := fun _ r hr => ⟨r, hr, rfl, rfl⟩

theorem SameManifests.trans {t u v : Table Revision} (h : SameManifests t u) (h' : SameManifests u v) :
    SameManifests t v := by
  intro k r hr
  obtain ⟨s, hs, hhash, hfrozen⟩ := h k r hr
  obtain ⟨x, hx, hhash', hfrozen'⟩ := h' k s hs
  exact ⟨x, hx, hhash'.trans hhash, hfrozen'.trans hfrozen⟩

/-- Setting the status of some revisions. -/
theorem SameManifests.update (t : Table Revision) (p : Revision → Bool) (status : RevisionStatus) :
    SameManifests t (t.update p fun r => { r with status := status }) := by
  intro k r hr
  have hrow := Table.lookup_update t p (fun r => { r with status := status }) (fun _ => rfl) k
  rw [hr, Option.map_some] at hrow
  by_cases hp : p r = true
  · rw [if_pos hp] at hrow; exact ⟨_, hrow, rfl, rfl⟩
  · rw [if_neg hp] at hrow; exact ⟨r, hrow, rfl, rfl⟩

/-- No revision becomes ACTIVE through another status. -/
theorem update_active {t : Table Revision} {p : Revision → Bool} {status : RevisionStatus} (hstatus : status ≠ .active)
    {k : String} {r : Revision} (hr : (t.update p fun r => { r with status := status }).lookup k = some r)
    (hactive : r.status = .active) : t.lookup k = some r := by
  have hrow := Table.lookup_update t p (fun r => { r with status := status }) (fun _ => rfl) k
  obtain ⟨x, hx, hxr⟩ := Option.map_eq_some_iff.1 (hrow.symm.trans hr)
  split at hxr
  · rw [← hxr] at hactive; exact absurd hactive hstatus
  · rw [← hxr]; exact hx

theorem SameManifests.insert (t : Table Revision) (x : Revision) : SameManifests t (insertRevision t x) := by
  intro k r hr
  unfold insertRevision
  split
  · exact ⟨r, hr, rfl, rfl⟩
  · exact ⟨r, by rw [Table.lookup_insertOrIgnore, hr, Option.some_or], rfl, rfl⟩

theorem Core.KeepsFrozen.of_same {c c' : Core} (hr : SameManifests c.revisions c'.revisions) (hc : c'.chunks = c.chunks) :
    c.KeepsFrozen c' where
  revisions k r hk hfrozen := by
    obtain ⟨r', hr', hhash, hsame⟩ := hr k r hk
    exact ⟨r', hr', hhash, hsame.trans hfrozen⟩
  chunks k r _ _ := by unfold Core.manifest; rw [hc]

theorem Core.KeepsFrozen.refl (c : Core) : c.KeepsFrozen c := .of_same (.refl _) rfl

theorem Core.KeepsFrozen.trans {a b c : Core} (h : a.KeepsFrozen b) (h' : b.KeepsFrozen c) : a.KeepsFrozen c where
  revisions k r hk hfrozen := by
    obtain ⟨s, hs, hhash, hsf⟩ := h.revisions k r hk hfrozen
    obtain ⟨x, hx, hhash', hxf⟩ := h'.revisions k s hs hsf
    exact ⟨x, hx, hhash'.trans hhash, hxf⟩
  chunks k r hk hfrozen := by
    obtain ⟨s, hs, -, hsf⟩ := h.revisions k r hk hfrozen
    rw [h'.chunks k s hs hsf, h.chunks k r hk hfrozen]

theorem Core.ActivatesCommitted.of_revisions {c c' : Core} (h : c'.revisions = c.revisions) : c.ActivatesCommitted c' := by
  intro k r' hr' hactive
  rw [h] at hr'
  exact Or.inl ⟨r', hr', hactive⟩

/-! ## Activation -/

theorem revisionComplete_committed {c : Core} {id : String} (h : revisionComplete c id = true) :
    c.ManifestCommitted id := by
  simp only [revisionComplete, Bool.and_eq_true, decide_eq_true_eq] at h
  refine ⟨h.1.2, fun k hk => ?_⟩
  obtain ⟨m, hm, hrow⟩ := Table.anyWhere_iff.1 (List.all_eq_true.1 h.2 k hk)
  simp only [Bool.and_eq_true, decide_eq_true_eq] at hrow
  have hkid : k.revisionId = id := of_decide_eq_true (Table.mem_select.1 hk).2
  exact ⟨m, hm, hrow.1.1.trans hkid, hrow.1.2, hrow.2⟩

/-- Only a frozen manifest is reconciled. -/
theorem reconcileRevisionActivation_frozen {c c' : Core} {id : String}
    (h : reconcileRevisionActivation c id = .ok c') :
    c' = c ∨ ∃ rev, c.revisions.lookup id = some rev ∧ rev.manifestFrozen = true := by
  unfold reconcileRevisionActivation at h
  cases hrev : c.revisions.lookup id with
  | none => rw [hrev] at h; cases h; exact Or.inl rfl
  | some rev =>
    rw [hrev] at h
    simp only at h
    split at h
    · cases h; exact Or.inl rfl
    · split at h
      · cases h; exact Or.inl rfl
      · next hfrozen =>
        rw [not_or] at hfrozen
        exact Or.inr ⟨rev, rfl, eq_true_of_ne_false hfrozen.2⟩

theorem NewHead.sameManifests {c c' : Core} {rev : Revision} (h : NewHead c rev c') :
    SameManifests c.revisions c'.revisions := by
  intro k r hr
  have hrow := h.revisions k
  rw [hr, Option.map_some] at hrow
  split at hrow
  · exact ⟨_, hrow, rfl, rfl⟩
  · split at hrow
    · exact ⟨_, hrow, rfl, rfl⟩
    · exact ⟨r, hrow, rfl, rfl⟩

theorem reconcileRevisionActivation_same {c c' : Core} {id : String} (h : reconcileRevisionActivation c id = .ok c') :
    SameManifests c.revisions c'.revisions := by
  rcases reconcileRevisionActivation_cases h with rfl | ⟨rev, -, -, -, hhead⟩
  · exact .refl _
  · exact hhead.sameManifests

/-- A reconciliation makes at most one revision ACTIVE, and only a complete one. -/
theorem reconcileRevisionActivation_activates {c c' : Core} {id : String}
    (h : reconcileRevisionActivation c id = .ok c') : c.ActivatesCommitted c' := by
  intro k r' hr' hactive
  rcases reconcileRevisionActivation_cases h with rfl | ⟨rev, hrev, hpending, hcomplete, hhead⟩
  · exact Or.inl ⟨r', hr', hactive⟩
  · rcases reconcileRevisionActivation_frozen h with rfl | ⟨rev', hrev', hfrozen⟩
    · exact Or.inl ⟨r', hr', hactive⟩
    · rw [hrev] at hrev'
      cases hrev'
      have hid : rev.revisionId = id := Table.lookup_key hrev
      rw [hhead.revisions k] at hr'
      obtain ⟨r, hr, hrow⟩ := Option.map_eq_some_iff.1 hr'
      by_cases hsup : rev.supersedesRevisionId = some k
      · rw [if_pos hsup] at hrow
        rw [← hrow] at hactive; cases hactive
      · rw [if_neg hsup] at hrow
        by_cases hk : k = rev.revisionId
        · right
          rw [if_pos hk] at hrow
          have hkid : k = id := hk.trans hid
          rw [hkid] at hr ⊢
          rw [hrev] at hr
          cases hr
          have hframe := reconcileRevisionActivation_frame h
          have hcommitted := revisionComplete_committed hcomplete
          refine ⟨by rw [← hrow]; exact hfrozen, ?_⟩
          unfold Core.ManifestCommitted Core.manifest at hcommitted ⊢
          rw [hframe.chunks, hframe.mutations]
          exact hcommitted
        · rw [if_neg hk] at hrow
          rw [← hrow] at hactive
          exact Or.inl ⟨r, hr, hactive⟩

/-- A step that starts from the same revisions, chunks and work activates as the reconciliation does. -/
theorem Core.ActivatesCommitted.congr {c d c' d' : Core} (h : d.ActivatesCommitted d')
    (hback : ∀ k r, d.revisions.lookup k = some r → r.status = .active →
      ∃ r', c.revisions.lookup k = some r' ∧ r'.status = .active)
    (hr : c'.revisions = d'.revisions) (hc : c'.chunks = d'.chunks)
    (hm : ∀ m ∈ d'.mutations.rows, m ∈ c'.mutations.rows) : c.ActivatesCommitted c' := by
  intro k r' hr' hactive
  rw [hr] at hr'
  rcases h k r' hr' hactive with ⟨r, hrow, hstatus⟩ | ⟨hfrozen, hne, hall⟩
  · exact Or.inl (hback k r hrow hstatus)
  · refine Or.inr ⟨hfrozen, ?_, fun x hx => ?_⟩
    · unfold Core.manifest at hne ⊢; rw [hc]; exact hne
    · unfold Core.manifest at hx
      rw [hc] at hx
      obtain ⟨m, hmrow, hrest⟩ := hall x hx
      exact ⟨m, hm m hmrow, hrest⟩

/-! ## Creating provenance -/

/-- A new draft is not ACTIVE. -/
theorem insertRevision_active {t : Table Revision} {x r : Revision} {k : String} (hx : x.status ≠ .active)
    (h : (insertRevision t x).lookup k = some r) (hr : r.status = .active) : t.lookup k = some r := by
  unfold insertRevision at h
  split at h
  · exact h
  · rw [Table.lookup_insertOrIgnore] at h
    cases hk : t.lookup k with
    | some s => rw [hk, Option.some_or] at h; exact h
    | none =>
      rw [hk, Option.none_or] at h
      split at h
      · cases h; exact absurd hr hx
      · cases h

/-- The revisions after the manifest of an open one has been stored. -/
def storedManifest (t : Table Revision) (id hash : String) (fin : Bool) : Table Revision :=
  t.update (fun r => r.revisionId = id && r.status = .pending && r.manifestFrozen = false) fun r =>
    { r with manifestHash := hash, manifestFrozen := r.manifestFrozen || fin }

theorem lookup_storedManifest (t : Table Revision) (id hash : String) (fin : Bool) (k : String) :
    (storedManifest t id hash fin).lookup k = (t.lookup k).map fun r =>
      if (r.revisionId = id && r.status = .pending && r.manifestFrozen = false : Bool) then
        { r with manifestHash := hash, manifestFrozen := r.manifestFrozen || fin } else r :=
  Table.lookup_update t (fun r => r.revisionId = id && r.status = .pending && r.manifestFrozen = false)
    (fun r => { r with manifestHash := hash, manifestFrozen := r.manifestFrozen || fin }) (fun _ => rfl) k

/-- A frozen manifest is not stored again. -/
theorem storedManifest_frozen {t : Table Revision} {id hash : String} {fin : Bool} {k : String} {r : Revision}
    (hr : t.lookup k = some r) (hfrozen : r.manifestFrozen = true) : (storedManifest t id hash fin).lookup k = some r := by
  rw [lookup_storedManifest, hr, Option.map_some, if_neg (by simp [hfrozen])]

theorem storedManifest_status {t : Table Revision} {id hash : String} {fin : Bool} {k : String} {r : Revision}
    (hr : (storedManifest t id hash fin).lookup k = some r) : ∃ r', t.lookup k = some r' ∧ r'.status = r.status := by
  rw [lookup_storedManifest] at hr
  obtain ⟨x, hx, hxr⟩ := Option.map_eq_some_iff.1 hr
  refine ⟨x, hx, ?_⟩
  split at hxr <;> rw [← hxr]

/-- The manifest of a revision that is not open is left alone. -/
theorem updateRevisionManifest_manifests {env : Env} {c c' : Core} {id : String} {fin : Bool}
    (h : updateRevisionManifest env c id fin = .ok c') : c.KeepsFrozen c' ∧ c.ActivatesCommitted c' := by
  unfold updateRevisionManifest at h
  simp only at h
  split at h
  · cases h
  · split at h
    · cases h
    · generalize env.manifestHash _ = hash at h
      split at h
      · have h : reconcileRevisionActivation { c with revisions := storedManifest c.revisions id hash fin } id = .ok c' := h
        have hframe := reconcileRevisionActivation_frame h
        refine ⟨⟨fun k r hr hrf => ?_, fun k r _ _ => by unfold Core.manifest; rw [hframe.chunks]⟩, ?_⟩
        · obtain ⟨r', hr', hhash, hsf⟩ := reconcileRevisionActivation_same h k r (storedManifest_frozen hr hrf)
          exact ⟨r', hr', hhash, hsf.trans hrf⟩
        · refine (reconcileRevisionActivation_activates h).congr (fun k r hr hstatus => ?_) rfl rfl fun _ hm => hm
          obtain ⟨r', hr', hsame⟩ := storedManifest_status hr
          exact ⟨r', hr', hsame.trans hstatus⟩
      · cases h
        refine ⟨⟨fun k r hr hrf => ⟨r, storedManifest_frozen hr hrf, rfl, hrf⟩, fun _ _ _ _ => rfl⟩,
          fun k r hr hstatus => ?_⟩
        obtain ⟨r', hr', hsame⟩ := storedManifest_status hr
        exact Or.inl ⟨r', hr', hsame.trans hstatus⟩

theorem insertChunk_manifest {t : Table Chunk} {x : Chunk} {k : String}
    (h : t.hasKey x.chunkId = true ∨ x.revisionId ≠ k) :
    ((insertChunk t x).select fun y => y.revisionId = k) = t.select fun y => y.revisionId = k := by
  unfold insertChunk
  split
  · rfl
  · cases hkey : t.hasKey x.chunkId with
    | true => rw [Table.insertOrIgnore_of_hasKey hkey]
    | false =>
      have hne := h.resolve_left (by rw [hkey]; exact Bool.false_ne_true)
      rw [Table.select, Table.rows_insertOrIgnore_fresh (Table.hasKey_eq_false.1 hkey), List.filter_append, Table.select]
      simp [hne]

/-- Creating a chunk keeps what is frozen, when a chunk of a frozen revision is only found again. -/
theorem provenance_manifests {env : Env} {c c' : Core} {documents : Table Document} {x : Revision} {y : Chunk}
    {fin : Bool} (hx : x.status ≠ .active) (hlate : ∀ r, c.revisions.lookup y.revisionId = some r →
      r.manifestFrozen = true → c.chunks.hasKey y.chunkId = true)
    (h : updateRevisionManifest env { c with
      documents, revisions := insertRevision c.revisions x, chunks := insertChunk c.chunks y } y.revisionId fin = .ok c') :
    c.KeepsFrozen c' ∧ c.ActivatesCommitted c' := by
  obtain ⟨hkeeps, hactivates⟩ := updateRevisionManifest_manifests h
  have hcreated : c.KeepsFrozen { c with
      documents, revisions := insertRevision c.revisions x, chunks := insertChunk c.chunks y } := by
    refine ⟨fun k r hr hrf => ?_, fun k r hr hrf => ?_⟩
    · obtain ⟨r', hr', hhash, hsf⟩ := SameManifests.insert c.revisions x k r hr
      exact ⟨r', hr', hhash, hsf.trans hrf⟩
    · refine insertChunk_manifest ?_
      by_cases hk : y.revisionId = k
      · exact Or.inl (hlate r (by rw [hk]; exact hr) hrf)
      · exact Or.inr hk
  refine ⟨hcreated.trans hkeeps, ?_⟩
  exact hactivates.congr (fun k r hr hstatus => ⟨r, insertRevision_active hx hr hstatus, hstatus⟩) rfl rfl
      fun _ hm => hm

theorem createSourceChunk_manifests {env : Env} {c c' : Core} {q : ChunkRequest}
    (h : createSourceChunk env c q = .ok c') : c.KeepsFrozen c' ∧ c.ActivatesCommitted c' := by
  unfold createSourceChunk at h
  simp only at h
  split at h
  · cases h
  · split at h
    · cases h
    · split at h
      · cases h
      · next hlate =>
        iterate 2
          split at h
          · cases h
        obtain ⟨d, hd, h⟩ := bind_eq_ok.1 h
        cases storeChunk_cases hd
        refine provenance_manifests (x := draftRevision ..) RevisionStatus.pending_ne_active ?_ h
        intro r hr hrf
        by_contra hkey
        have hr : c.revisions.lookup q.revisionId = some r := hr
        rw [hr] at hlate
        simp [hrf] at hlate
        exact hkey hlate

theorem admitProvenance_manifests {env : Env} {c c' : Core} {q : Admission}
    (h : admitProvenance env c q = .ok c') : c.KeepsFrozen c' ∧ c.ActivatesCommitted c' := by
  unfold admitProvenance at h
  simp only at h
  split at h
  · cases h
  · iterate 4
      split at h
      · cases h
    split at h
    · cases h
    · next hlate =>
      split at h
      · cases h
      obtain ⟨d, hd, h⟩ := bind_eq_ok.1 h
      cases storeChunk_cases hd
      refine provenance_manifests (x := draftRevision ..) RevisionStatus.pending_ne_active ?_ h
      intro r hr hrf
      by_contra hkey
      have hr : c.revisions.lookup q.revisionId = some r := hr
      rw [hr] at hlate
      simp [hrf] at hlate
      exact hkey hlate

theorem createRevision_manifests {c c' : Core} {q : RevisionRequest} (h : createRevision c q = .ok c') :
    c.KeepsFrozen c' ∧ c.ActivatesCommitted c' := by
  unfold createRevision at h
  split at h
  · cases h
  · split at h
    · cases h
    · split at h
      · cases h
      · simp only at h
        split at h
        · cases h
          exact ⟨.of_same (.insert _ _) rfl, fun k r' hr' hstatus =>
            Or.inl ⟨r', insertRevision_active RevisionStatus.pending_ne_active hr' hstatus, hstatus⟩⟩
        · cases h

/-! ## Commits -/

theorem Commits.manifests {c c' : Core} {m : Mutation} (h : Commits c m c') : c.KeepsFrozen c' ∧ c.ActivatesCommitted c' := by
  obtain ⟨fired, act, hfired, -, hact, hrev, -⟩ := h.activates
  have hfr : fired.revisions = c.revisions := by rw [hfired]
  have hfc : fired.chunks = c.chunks := by rw [hfired]
  have hfm : fired.mutations = c'.mutations := by rw [hfired]
  have hframe := reconcileRevisionActivation_frame hact
  refine ⟨.of_same ?_ h.chunks, ?_⟩
  · rw [hrev, ← hfr]; exact reconcileRevisionActivation_same hact
  · refine (reconcileRevisionActivation_activates hact).congr (fun k r hr hstatus => ⟨r, by rw [← hfr]; exact hr, hstatus⟩)
      hrev ?_ fun m hm => ?_
    · rw [h.chunks, hframe.chunks, hfc]
    · rw [← hfm, ← hframe.mutations]; exact hm

theorem Core.Passes.manifests {c c' : Core} {m : Mutation} (h : c.Passes m c') :
    c.KeepsFrozen c' ∧ c.ActivatesCommitted c' :=
  ⟨.of_same (by rw [h.revisions]; exact .refl _) h.chunks, .of_revisions h.revisions⟩

/-! ## Rollback -/

theorem restoreRevision_same {run t r v : String} {c c' : Core} (h : restoreRevision run c t r v = .ok c') :
    SameManifests c.revisions c'.revisions ∧ c'.chunks = c.chunks := by
  unfold restoreRevision at h
  simp only at h
  split at h
  · cases h; exact ⟨.refl _, rfl⟩
  · split at h
    · cases h; exact ⟨.refl _, rfl⟩
    · split at h
      · cases h; exact ⟨.update _ _ _, rfl⟩
      · obtain ⟨revisions, hr, h⟩ := bind_eq_ok.1 h
        cases pure_eq_ok.1 h
        refine ⟨?_, rfl⟩
        rw [(activateRevisions_eq_ok.1 hr).1]
        exact (SameManifests.update _ _ _).trans (.update _ _ _)

/-! ## Every operation -/

/-- The operation undoes a run. -/
def Op.rollsBack : Op → Bool
  | .requestPipelineRollback _ => true
  | _ => false

theorem rollback_keepsFrozen {db db' : Db} {r : String} (h : requestPipelineRollback db r = .ok db') :
    db.core.KeepsFrozen db'.core := by
  obtain ⟨run, -, ⟨-, rfl⟩ | ⟨-, -, runs, moved, restored, cleanup, -, -, hmv, hre, hcl, -⟩⟩ :=
    requestPipelineRollback_cases h
  · exact .refl _
  · have hmoved := (transitionPipelineMutations_spec hmv).2
    have step : ∀ (d : Core) (row : String × String × String) (d' : Core),
        SameManifests db.core.revisions d.revisions ∧ d.chunks = db.core.chunks →
        restoreRevision r d row.1 row.2.1 row.2.2 = .ok d' →
        SameManifests db.core.revisions d'.revisions ∧ d'.chunks = db.core.chunks := by
      rintro d row d' ⟨hsame, hchunks⟩ hstep
      obtain ⟨hs, hc⟩ := restoreRevision_same hstep
      exact ⟨hsame.trans hs, hc.trans hchunks⟩
    obtain ⟨hsame, hchunks⟩ := foldOk_invariant step (s := { moved with assertions := restoreFactTargets moved r })
      ⟨by rw [hmoved.revisions (by decide)]; exact .refl _, hmoved.chunks⟩ hre
    refine .of_same ?_ ?_
    · unfold closeIfIdle at hcl
      split at hcl
      · rw [(closeRollback_spec hcl).2.revisions (by decide)]; exact hsame
      · cases hcl; exact hsame
    · unfold closeIfIdle at hcl
      split at hcl
      · rw [(closeRollback_spec hcl).2.chunks]; exact hchunks
      · cases hcl; exact hchunks

/-- Every transaction keeps what is frozen, and only a rollback activates anything but a committed manifest. -/
theorem transact_manifests {env : Env} {db db' : Db} {op : Op} (h : transact env db op = .ok db') :
    db.core.KeepsFrozen db'.core ∧ (op.rollsBack = false → db.core.ActivatesCommitted db'.core) := by
  have of_both : db.core.KeepsFrozen db'.core ∧ db.core.ActivatesCommitted db'.core →
      db.core.KeepsFrozen db'.core ∧ (op.rollsBack = false → db.core.ActivatesCommitted db'.core) :=
    fun hboth => ⟨hboth.1, fun _ => hboth.2⟩
  by_cases hw : Part.revisions ∉ op.writes
  · have hrev : db'.core.revisions = db.core.revisions := transact_frame h hw
    have hwrites : Part.chunks ∉ op.writes := by
      cases op <;> simp [Op.writes] at hw ⊢
    have hchunks : db'.core.chunks = db.core.chunks := transact_frame h hwrites
    exact of_both ⟨.of_same (by rw [hrev]; exact .refl _) hchunks, .of_revisions hrev⟩
  cases op with
  | createRevision q =>
    obtain ⟨c, hc, rfl⟩ := map_eq_ok.1 h
    exact of_both (createRevision_manifests hc)
  | createSourceChunk q =>
    obtain ⟨c, hc, rfl⟩ := map_eq_ok.1 h
    exact of_both (createSourceChunk_manifests hc)
  | admitMemory q =>
    obtain ⟨core, m, queue, hc, -, -, hdb⟩ := admitMemory_cases h
    obtain ⟨hkeeps, hactivates⟩ := admitProvenance_manifests hc
    have hrev : db'.core.revisions = core.revisions := by rw [hdb]
    have hchunks : db'.core.chunks = core.chunks := by rw [hdb]
    refine of_both ⟨hkeeps.trans (.of_same (by rw [hrev]; exact .refl _) hchunks), ?_⟩
    refine hactivates.congr (fun k r hr hstatus => ⟨r, hr, hstatus⟩) hrev hchunks fun x hx => ?_
    rw [hdb]
    exact Table.mem_insertOrIgnore.2 (Or.inl hx)
  | setMutationState a m s =>
    obtain ⟨⟨db₁, b⟩, hc, rfl⟩ := map_eq_ok.1 h
    rcases (setMutationState_cases hc).2 with rfl | ⟨m, core, b', hm, -, ht, -, hdb⟩
    · exact of_both ⟨.refl _, .of_revisions rfl⟩
    · have hcore : db.core.KeepsFrozen core ∧ db.core.ActivatesCommitted core := by
        rcases transitionMemoryMutation_commits hm ht with hp | ⟨-, hcommits⟩
        · exact hp.manifests
        · exact hcommits.manifests
      refine of_both ?_
      rcases hdb with ⟨-, hdb⟩ | ⟨-, -, -, hdb⟩ <;> rw [hdb]
      · exact hcore
      · exact ⟨hcore.1.trans (.of_same (.refl _) rfl),
          hcore.2.congr (fun k r hr hstatus => ⟨r, hr, hstatus⟩) rfl rfl fun _ hx => hx⟩
  | completeProjectionOutbox k w t o =>
    refine of_both ?_
    have hop : (Op.completeProjectionOutbox k w t o).committing = some k.mutationId := rfl
    rcases transact_commits hop h with hsame | ⟨m, -, hp | hcommits⟩
    · rw [hsame]; exact ⟨.refl _, .of_revisions rfl⟩
    · exact hp.manifests
    · exact hcommits.manifests
  | requestPipelineRollback r => exact ⟨rollback_keepsFrozen h, fun hr => by cases hr⟩
  | purgeDocument t d i =>
    obtain ⟨core, purged, hc, hdb⟩ := purgeDocument_cases h
    have hspec := (purgeMutations_spec hc).2.1
    have hrev := hspec.revisions (by decide)
    refine of_both ⟨.of_same ?_ ?_, fun k r' hr' hstatus => ?_⟩
    · rw [hdb, ← hrev]; exact .update _ _ _
    · rw [hdb]; exact hspec.chunks
    · rw [hdb] at hr'
      exact Or.inl ⟨r', by rw [← hrev]; exact update_active (by decide) hr' hstatus, hstatus⟩
  | _ => exact absurd (by simp [Op.writes]) hw

/-! ## The intake -/

def IntakeOp.rollsBack : IntakeOp → Bool
  | .ledger op _ => op.rollsBack
  | _ => false

/-- What a transaction of the intake does to the core, a transaction of the ledger does. -/
theorem intake_core {env : IntakeEnv} {policy : QueueAdmissionPolicy} {s s' : Intake} {op : IntakeOp}
    (h : intakeTransact env policy s op = .ok s') : s'.db.core = s.db.core ∨
      ∃ ledgerOp db, transact env.toEnv s.db ledgerOp = .ok db ∧ s'.db.core = db.core ∧
        (op.rollsBack = false → ledgerOp.rollsBack = false) := by
  cases op with
  | ledger op plain =>
    obtain ⟨db, hdb, rfl⟩ := map_eq_ok.1 h
    exact Or.inr ⟨op, db, mapError_eq_ok.1 hdb, rfl, id⟩
  | ensureScope t w d nw nd =>
    left
    have h : ensureScope s t w d nw nd = .ok s' := h
    unfold ensureScope at h
    split at h
    · cases h
    · obtain ⟨⟨ids₁, workspace⟩, h₁, h⟩ := bind_eq_ok.1 h
      obtain ⟨⟨ids₂, dataset⟩, h₂, h⟩ := bind_eq_ok.1 h
      simp only at h
      split at h
      · cases pure_eq_ok.1 h; rfl
      · cases h
  | createId k p =>
    obtain ⟨⟨ids, id⟩, hr, rfl⟩ := map_eq_ok.1 h
    exact Or.inl rfl
  | admitV4Memory q f =>
    obtain ⟨⟨s₁, outcome⟩, hq, rfl⟩ := map_eq_ok.1 h
    cases outcome with
    | admitted response =>
      obtain ⟨datasetId, a, ids, db, -, -, -, -, -, -, hdb, -, -, rfl⟩ := admitted_rows hq
      exact Or.inr ⟨.admitMemory { a with withinCapacity := true }, db, hdb, rfl, fun _ => rfl⟩
    | duplicate response => exact Or.inl (by rw [admitV4Memory_ended hq (by intro _ h; cases h)])
    | inProgress => exact Or.inl (by rw [admitV4Memory_ended hq (by intro _ h; cases h)])
  | admitRawLog a t p =>
    obtain ⟨⟨s₁, result⟩, hq, rfl⟩ := map_eq_ok.1 h
    rcases admitRawLog_cases hq with rfl | ⟨tenant, stored, logged, -, -, hlogged, rfl⟩
    · exact Or.inl rfl
    · left
      rw [insertRawLog_cases hlogged]; rfl
  | insertRawLog a p => exact Or.inl (by rw [insertRawLog_cases h])
  | dispatchRawLog a l w p =>
    rcases dispatchRawLog_cases h with rfl | ⟨log, -, -, -, rfl⟩
    · exact Or.inl rfl
    · exact Or.inl rfl
  | claimRawLog a l w t n =>
    obtain ⟨⟨s₁, claim⟩, hq, rfl⟩ := map_eq_ok.1 h
    rcases claimRawLog_cases hq with ⟨-, rfl, -⟩ | ⟨-, -, rfl⟩
    · exact Or.inl rfl
    · exact Or.inl rfl
  | transitionClaimedRawLog a l w t st =>
    obtain ⟨⟨s₁, b⟩, hq, rfl⟩ := map_eq_ok.1 h
    rcases transitionClaimedRawLog_cases hq with ⟨-, rfl, -⟩ | ⟨-, -, -, rfl⟩
    · exact Or.inl rfl
    · exact Or.inl rfl
  | recoverExpiredRawLogClaims => cases h; exact Or.inl rfl
  | recoverProcessingRawLogs => cases h; exact Or.inl rfl
  | completeDispatchQueue k w t o v =>
    have h : s.completeDispatchQueue k w t o v = .ok s' := h
    unfold Intake.completeDispatchQueue at h
    split at h
    · cases h
    · obtain ⟨db, hdb, h⟩ := bind_eq_ok.1 h
      have hledger : transact env.toEnv s.db (.completeDispatchQueue k w t v) = .ok db := mapError_eq_ok.1 hdb
      refine Or.inr ⟨_, db, hledger, ?_, fun _ => rfl⟩
      split at h
      · cases pure_eq_ok.1 h; rfl
      · split at h
        · cases pure_eq_ok.1 h; rfl
        · split at h
          · cases pure_eq_ok.1 h; rfl
          · cases pure_eq_ok.1 h; rfl
  | replayPipelineRun r t =>
    obtain ⟨db, hdb, h⟩ := bind_eq_ok.1 h
    cases pure_eq_ok.1 h
    have hledger : transact env.toEnv s.db (.replayPipelineRun r t) = .ok db := mapError_eq_ok.1 hdb
    exact Or.inr ⟨_, db, hledger, rfl, fun _ => rfl⟩
  | purgeDocument t d i =>
    obtain ⟨db, hdb, h⟩ := bind_eq_ok.1 h
    cases pure_eq_ok.1 h
    have hledger : transact env.toEnv s.db (.purgeDocument t d i) = .ok db := mapError_eq_ok.1 hdb
    exact Or.inr ⟨_, db, hledger, rfl, fun _ => rfl⟩

theorem intakeExec_manifests (env : IntakeEnv) (policy : QueueAdmissionPolicy) (s : Intake) (op : IntakeOp) :
    s.db.core.KeepsFrozen (intakeExec env policy s op).db.core ∧
      (op.rollsBack = false → s.db.core.ActivatesCommitted (intakeExec env policy s op).db.core) := by
  refine orKeep_invariant (P := fun s' : Intake => s.db.core.KeepsFrozen s'.db.core ∧
    (op.rollsBack = false → s.db.core.ActivatesCommitted s'.db.core)) ⟨.refl _, fun _ => .of_revisions rfl⟩ ?_
  intro s' hok
  rcases intake_core hok with hsame | ⟨ledgerOp, db, hdb, hcore, hrolls⟩
  · rw [hsame]; exact ⟨.refl _, fun _ => .of_revisions rfl⟩
  · rw [hcore]
    exact ⟨(transact_manifests hdb).1, fun h => (transact_manifests hdb).2 (hrolls h)⟩

theorem run_keepsFrozen (env : IntakeEnv) (policy : QueueAdmissionPolicy) : ∀ (ops : List IntakeOp) (s : Intake),
    s.db.core.KeepsFrozen (run (intakeExec env policy) s ops).db.core
  | [], _ => .refl _
  | op :: ops, s => (intakeExec_manifests env policy s op).1.trans (run_keepsFrozen env policy ops _)

/-- In every run a frozen manifest keeps its hash and its chunks, and a revision that becomes ACTIVE by
anything but a rollback has a frozen manifest all of whose chunks have a committed mutation. -/
theorem manifests_frozen_and_committed (env : IntakeEnv) (policy : QueueAdmissionPolicy) (ops : List IntakeOp) :
    (∀ before after, ops = before ++ after →
      (intakeReach env policy before).db.core.KeepsFrozen (intakeReach env policy ops).db.core) ∧
    Along (intakeExec env policy) (fun s op => op.rollsBack = false →
      s.db.core.ActivatesCommitted (intakeExec env policy s op).db.core) .empty ops := by
  refine ⟨?_, along_of_invariant (I := fun _ => True) (C := fun _ _ => True) (fun _ _ _ _ => trivial)
    (fun s op _ _ => (intakeExec_manifests env policy s op).2) trivial along_true⟩
  rintro before after rfl
  unfold intakeReach
  rw [run_append]
  exact run_keepsFrozen env policy after _

end Mesa.Ledger
