/-
Commit soundness and terminality: when a mutation may enter COMMITTED, in which order its lanes
are claimed, which states are never left, and that a fenced mutation registers nothing.
-/
import Mesa.Ledger.Progress

namespace Mesa.Ledger

open Mesa.Foundation

/-! ## Lanes are claimed by claims -/

/-- Every lane in flight in `u` was in flight in `t`, under the same claim. -/
def NoClaim (t u : Table Projection) : Prop :=
  ∀ key p, u.lookup key = some p → p.state = .inFlight → t.lookup key = some p

theorem NoClaim.refl (t : Table Projection) : NoClaim t t := fun _ _ h _ => h

theorem NoClaim.trans {t u v : Table Projection} (h₁ : NoClaim t u) (h₂ : NoClaim u v) : NoClaim t v :=
  fun key p hp hs => h₁ key p (h₂ key p hp hs) hs

theorem noClaim_update {t : Table Projection} {p : Projection → Bool} {f : Projection → Projection}
    (hs : ∀ q : Projection, p q = true → (f q).state ≠ .inFlight)
    (hf : ∀ q : Projection, Keyed.key (f q) = Keyed.key q := by intro _; rfl) : NoClaim t (t.update p f hf) := by
  intro key q hq hfl
  rw [Table.lookup_update] at hq
  cases hl : t.lookup key with
  | none => rw [hl] at hq; cases hq
  | some x =>
    rw [hl, Option.map_some] at hq
    by_cases hp : p x = true
    · rw [if_pos hp] at hq; cases hq
      exact absurd hfl (hs x hp)
    · rw [if_neg hp] at hq; exact hq

theorem noClaim_insertLanes (t : Table Projection) (id : String) : NoClaim t (insertLanes t id) := by
  have one : ∀ (t : Table Projection) (lane : Lane),
      NoClaim t (t.insertOrIgnore ⟨⟨id, lane⟩, .blockedValidation, 0, 5, none, none, none⟩) := by
    intro t lane key p hp hs
    rw [Table.lookup_insertOrIgnore] at hp
    cases hl : t.lookup key with
    | some x => rw [hl] at hp; exact hp
    | none =>
      rw [hl, Option.none_or] at hp
      split at hp
      · cases hp; cases hs
      · cases hp
  exact ((one t .sql).trans (one _ .vector)).trans (one _ .graph)

theorem noClaim_settleLane (t : Table Projection) (key : ProjectionKey) (token : String) {s : LaneState}
    (hs : s ≠ .inFlight) (lease : Option Nat) : NoClaim t (settleLane t key token s lease) :=
  noClaim_update fun _ _ => hs

theorem noClaim_cancelLanes (t : Table Projection) (ids : List String) : NoClaim t (cancelLanes t ids) :=
  noClaim_update fun _ _ hs => by cases hs

theorem noClaim_settleLanes (t : Table Projection) (id : String) (s : MutationState) :
    NoClaim t (settleLanes t id s) := by
  unfold settleLanes
  split
  · exact noClaim_update fun _ _ hs => by cases hs
  · exact noClaim_update fun _ _ hs => by cases hs
  · exact .refl _

/-- No operation but a claim puts a lane in flight. -/
theorem transact_noClaim {env : Env} {db db' : Db} {op : Op} (h : transact env db op = .ok db')
    (hop : ∀ w t n l, op ≠ .claimProjectionOutbox w t n l) : NoClaim db.outbox db'.outbox := by
  by_cases hw : Part.outbox ∉ op.writes
  · rw [show db'.outbox = db.outbox from transact_frame h hw]; exact .refl _
  cases op with
  | admitMemory q =>
    obtain ⟨core, m, queue, -, -, -, hdb⟩ := admitMemory_cases h
    rw [hdb]; exact noClaim_insertLanes _ _
  | recordMutation m =>
    rw [(recordMutation_cases h).1]; exact noClaim_insertLanes _ _
  | setMutationState a id s =>
    obtain ⟨⟨db₁, b⟩, hc, rfl⟩ := map_eq_ok.1 h
    rcases (setMutationState_cases hc).2 with rfl | ⟨m, core, b', -, -, -, -, ⟨-, hdb⟩ | ⟨-, -, -, hdb⟩⟩
    · exact .refl _
    · rw [hdb]; exact .refl _
    · rw [hdb]
      exact noClaim_settleLanes _ _ _
  | claimProjectionOutbox w t n l => exact absurd rfl (hop w t n l)
  | completeProjectionOutbox k w t o =>
    obtain ⟨⟨db₁, r⟩, hc, rfl⟩ := map_eq_ok.1 h
    rcases completeProjectionOutbox_cases hc with ⟨rfl, -⟩ | ⟨p, m, -, -, ⟨-, -, hdb⟩ | ⟨-, -, -, core, -, hdb⟩⟩
    · exact .refl _
    · rw [hdb]
      show NoClaim db.outbox (cancelFenced db.outbox p _)
      unfold cancelFenced
      split
      · exact noClaim_update fun _ _ hs => by cases hs
      · exact .refl _
    · rw [hdb]; exact noClaim_settleLane _ _ _ (by cases o <;> decide) _
  | failProjectionOutbox k w t r =>
    rcases failProjectionOutbox_cases h with rfl | ⟨p, m, terminal, -, -, -, hdb, -⟩
    · exact .refl _
    · rw [hdb]; exact noClaim_settleLane _ _ _ (by cases terminal <;> decide) _
  | requeueSkippedProjections l =>
    simp only [transact, requeueSkippedProjections] at h
    split at h
    · cases h
    · cases h; exact noClaim_update fun _ _ hs => by cases hs
  | recoverInFlight => cases h; exact noClaim_update fun _ _ hs => by cases hs
  | publishWithoutGraph => cases h; exact noClaim_update fun _ _ hs => by cases hs
  | requestPipelineRollback r =>
    obtain ⟨run, -, ⟨-, rfl⟩ | ⟨-, -, runs, moved, restored, cleanup, -, -, -, -, -, hdb⟩⟩ :=
      requestPipelineRollback_cases h
    · exact .refl _
    · rw [hdb]; exact noClaim_cancelLanes _ _
  | replayPipelineRun r t =>
    obtain ⟨run, runs, -, -, cr, -, -, -, hdb⟩ := replayPipelineRun_cases h
    rw [hdb]; exact noClaim_update fun _ _ hs => by cases hs
  | reconcileProjectionParity ms =>
    have step : ∀ (d : Db) (x : String × List Lane) (d' : Db), NoClaim db.outbox d.outbox →
        repairMutation d x.1 x.2 = .ok d' → NoClaim db.outbox d'.outbox := by
      intro d x d' hd hr
      rcases repairMutation_cases hr with rfl | ⟨m, core, -, -, -, -, -, -, hdb⟩
      · exact hd
      · rw [hdb]; exact hd.trans (noClaim_update fun _ _ hs => by cases hs)
    exact foldOk_invariant step (.refl _) h
  | purgeDocument t d i =>
    obtain ⟨core, purged, -, hdb⟩ := purgeDocument_cases h
    rw [hdb]; exact noClaim_cancelLanes _ _
  | purgeMemory a s =>
    obtain ⟨core, purged, -, hdb⟩ := purgeMemory_cases h
    rw [hdb]; exact noClaim_cancelLanes _ _
  | _ => exact absurd (by simp [Op.writes]) hw

/-! ## Claims follow the lane order -/

/-- The rows a claim takes are the candidates with the taken keys. -/
theorem claimed_key {db : Db} {ids : List ProjectionKey} {limit : Nat}
    (hids : ids = ((claimCandidates db).take limit).map (·.key)) {key : ProjectionKey} (hk : key ∈ ids) :
    ∃ p, db.outbox.lookup key = some p ∧ p.claimable db.now = true ∧ predecessorFinished db.outbox key = true := by
  rw [hids] at hk
  obtain ⟨p, hp, rfl⟩ := List.mem_map.1 hk
  obtain ⟨hrow, hc, hf⟩ := mem_claimCandidates.1 (List.mem_of_mem_take hp)
  exact ⟨p, Table.lookup_of_mem hrow, hc, hf⟩

/-- A claim does not touch finished lanes, so what it takes still follows its predecessor. -/
theorem claim_keeps_predecessor {db : Db} {ids : List ProjectionKey} {w t : String} {lease : Nat}
    {outbox : Table Projection}
    (hout : outbox = db.outbox.update (fun p => p.key ∈ ids && p.claimable db.now) fun p => p.claimed w t lease)
    {key : ProjectionKey} (hf : predecessorFinished db.outbox key = true) : predecessorFinished outbox key = true := by
  have keep : ∀ (k : ProjectionKey) (q : LaneState → Bool), (∀ s, q s = true → s ∈ [LaneState.completed, .skipped]) →
      (db.outbox.lookup k).any (fun p => q p.state) = true → (outbox.lookup k).any (fun p => q p.state) = true := by
    intro k q hq h
    rw [hout, Table.lookup_update]
    cases hl : db.outbox.lookup k with
    | none => rw [hl] at h; cases h
    | some p =>
      rw [hl] at h
      simp only [Option.any_some, Option.map_some] at h ⊢
      have hs := hq _ h
      have hn : p.claimable db.now = false := by
        simp only [List.mem_cons, List.not_mem_nil, or_false] at hs
        rcases hs with hs | hs <;> simp [Projection.claimable, hs]
      simp [hn, h]
  unfold predecessorFinished at hf ⊢
  split
  · rfl
  · next hlane =>
    rw [hlane] at hf
    exact keep _ (fun s => decide (s = .completed)) (by intro s; cases s <;> decide) hf
  · next hlane =>
    rw [hlane] at hf
    exact keep _ (fun s => decide (s ∈ [LaneState.completed, .skipped])) (by intro s; cases s <;> decide) hf

/-! ## The main result -/

/-- One step of the ledger commits, claims, terminates and registers soundly. -/
structure LifecycleSound (env : Env) (db : Db) (op : Op) : Prop where
  /-- A mutation enters COMMITTED over finished lanes, or by an explicit COMMITTED after GRAPH_APPLIED. -/
  commits : ∀ id, db.core.mutationState id ≠ some .committed →
    (exec env db op).core.mutationState id = some .committed →
      lanesDone (exec env db op).outbox id = true ∨
        (db.core.mutationState id = some .graphApplied ∧ ∃ a, op = .setMutationState a id .committed)
  /-- A lane enters flight only by a claim, with the lane before it finished before and after. -/
  claims : ∀ key p, (exec env db op).outbox.lookup key = some p → p.state = .inFlight →
    db.outbox.lookup key ≠ some p →
      (∃ w t n l, op = .claimProjectionOutbox w t n l) ∧ predecessorFinished db.outbox key = true ∧
        predecessorFinished (exec env db op).outbox key = true
  /-- PURGED, REJECTED and CANCELLED are never left. -/
  terminal : ∀ id s, s ∈ [MutationState.purged, .rejected, .cancelled] → db.core.mutationState id = some s →
    (exec env db op).core.mutationState id = some s
  /-- ROLLED_BACK is left only to ROLLING_BACK, and only to retain a failed compensation. -/
  rolledBack : ∀ id, db.core.mutationState id = some .rolledBack →
    (exec env db op).core.mutationState id = some .rolledBack ∨
      ((exec env db op).core.mutationState id = some .rollingBack ∧
        ∃ artifacts, op = .enqueueUnownedProjectionCleanup id artifacts)
  /-- A mutation that is rolling back, rolled back or purged registers no artifact. -/
  registers : ∀ id a s, op = .recordMutationArtifact id a →
    s ∈ [MutationState.rollingBack, .rolledBack, .purged] → db.core.mutationState id = some s → exec env db op = db

theorem mutationState_eq_some {c : Core} {id : String} {s : MutationState} :
    c.mutationState id = some s ↔ ∃ m, c.mutations.lookup id = some m ∧ m.state = s :=
  Option.map_eq_some_iff

/-- How the state of one mutation changes over a step. -/
theorem exec_shift (env : Env) (db : Db) (op : Op) {id : String} {s : MutationState}
    (h : db.core.mutationState id = some s) :
    ∃ s', (exec env db op).core.mutationState id = some s' ∧ Shift op (exec env db op).outbox id s s' := by
  obtain ⟨m, hm, rfl⟩ := mutationState_eq_some.1 h
  obtain ⟨m', hm', -, hs⟩ := (exec_progress env db op).kept id m hm
  exact ⟨m'.state, mutationState_eq_some.2 ⟨m', hm', rfl⟩, hs⟩

/-- A state without successors other than ROLLED_BACK is kept by every step. -/
theorem Shift.eq_of_terminal {op : Op} {outbox : Table Projection} {id : String} {s s' : MutationState}
    (h : Shift op outbox id s s') (hs : s.next = []) :
    s' = s ∨ (s' = .rollingBack ∧ s = .rolledBack ∧ ∃ artifacts, op = .enqueueUnownedProjectionCleanup id artifacts) := by
  rcases h with h | ⟨-, h, -⟩ | ⟨-, rfl, -⟩ | h
  · exact Or.inl (h.eq_of_terminal hs)
  · have hg := h.eq_of_terminal hs
    rw [← hg] at hs; exact absurd hs (by decide)
  · exact absurd hs (by decide)
  · exact Or.inr h

theorem exec_commits (env : Env) (db : Db) (op : Op) {id : String}
    (hbefore : db.core.mutationState id ≠ some .committed)
    (hafter : (exec env db op).core.mutationState id = some .committed) :
    lanesDone (exec env db op).outbox id = true ∨
      (db.core.mutationState id = some .graphApplied ∧ ∃ a, op = .setMutationState a id .committed) := by
  cases hs : db.core.mutationState id with
  | none =>
    -- a mutation that the step creates is only received
    obtain ⟨m', hm', hcom⟩ := mutationState_eq_some.1 hafter
    have hn : db.core.mutations.lookup id = none := Option.map_eq_none_iff.1 hs
    rw [(exec_progress env db op).fresh id m' hm' hn] at hcom; cases hcom
  | some s =>
    obtain ⟨s', hs', hshift⟩ := exec_shift env db op hs
    rw [hafter] at hs'; cases hs'
    rcases hshift with h | ⟨-, -, hd, -⟩ | ⟨-, rfl, a⟩ | ⟨h, -, -⟩
    · rw [h.committed] at hs; exact absurd hs hbefore
    · exact Or.inl hd
    · exact Or.inr ⟨rfl, a⟩
    · cases h

theorem exec_claims (env : Env) (db : Db) (op : Op) {key : ProjectionKey} {p : Projection}
    (hafter : (exec env db op).outbox.lookup key = some p) (hfl : p.state = .inFlight)
    (hnew : db.outbox.lookup key ≠ some p) :
    (∃ w t n l, op = .claimProjectionOutbox w t n l) ∧ predecessorFinished db.outbox key = true ∧
      predecessorFinished (exec env db op).outbox key = true := by
  cases h : transact env db op with
  | error e => rw [exec_of_error h] at hafter; exact absurd hafter hnew
  | ok db' =>
    rw [exec_of_ok h] at hafter ⊢
    by_cases hop : ∃ w t n l, op = .claimProjectionOutbox w t n l
    · refine ⟨hop, ?_⟩
      obtain ⟨w, t, n, l, rfl⟩ := hop
      obtain ⟨⟨db₁, claims⟩, hc, rfl⟩ := map_eq_ok.1 h
      obtain ⟨ids, hids, -, hout, -⟩ := claimProjectionOutbox_cases hc
      have hf : predecessorFinished db.outbox key = true := by
        by_contra hno
        have hk : key ∉ ids := fun hk => by
          obtain ⟨_, _, _, hf⟩ := claimed_key hids hk
          exact hno hf
        apply hnew
        rw [← hafter]
        show _ = db₁.outbox.lookup key
        rw [hout, Table.lookup_update]
        cases hl : db.outbox.lookup key with
        | none => rfl
        | some q => simp [show q.key = key from Table.lookup_key hl, hk]
      exact ⟨hf, claim_keeps_predecessor hout hf⟩
    · exact absurd (transact_noClaim h (fun w t n l he => hop ⟨w, t, n, l, he⟩) key p hafter hfl) hnew

theorem exec_registers (env : Env) (db : Db) {id : String} {a : Artifact} {s : MutationState}
    (hs : s ∈ [MutationState.rollingBack, .rolledBack, .purged]) (hm : db.core.mutationState id = some s) :
    exec env db (.recordMutationArtifact id a) = db := by
  obtain ⟨m, hlook, rfl⟩ := mutationState_eq_some.1 hm
  have hf : m.state.fenced = true := by
    revert hs; cases m.state <;> decide
  have herr : ∃ e, transact env db (.recordMutationArtifact id a) = .error e := by
    simp only [transact, recordMutationArtifact]
    split
    · exact ⟨_, rfl⟩
    · simp [hlook, hf]
  obtain ⟨e, he⟩ := herr
  exact exec_of_error he

/-- Commit soundness and terminality, for every interleaving of ledger transactions. -/
theorem lifecycle_sound (env : Env) (ops : List Op) : Along (exec env) (LifecycleSound env) Db.empty ops := by
  refine along_of_invariant (I := fun _ => True) (C := fun _ _ => True) (fun _ _ _ _ => trivial) ?_ trivial along_true
  intro db op _ _
  refine ⟨fun id => exec_commits env db op, fun key p => exec_claims env db op, ?_, ?_, ?_⟩
  · intro id s hs hm
    obtain ⟨s', hs', hshift⟩ := exec_shift env db op hm
    have hnext : s.next = [] := by revert hs; cases s <;> decide
    rcases hshift.eq_of_terminal hnext with rfl | ⟨-, rfl, -⟩
    · exact hs'
    · exact absurd hs (by decide)
  · intro id hm
    obtain ⟨s', hs', hshift⟩ := exec_shift env db op hm
    rcases hshift.eq_of_terminal rfl with rfl | ⟨rfl, -, hop⟩
    · exact Or.inl hs'
    · exact Or.inr ⟨hs', hop⟩
  · rintro id a s rfl hs hm
    exact exec_registers env db hs hm

/-- A mutation whose lanes are all still pending. -/
def explicitCommitRun : List Op :=
  admitted (sampleMutation "m" "r" "rev" "c") ++ [.setMutationState "a" "m" .sqlApplied,
    .setMutationState "a" "m" .vectorApplied, .setMutationState "a" "m" .graphApplied]

/-- `set_mutation_state` enters COMMITTED without reading a lane. -/
theorem explicit_commit_ignores_lanes :
    (reach sampleEnv explicitCommitRun).core.mutationState "m" = some .graphApplied ∧
      (exec sampleEnv (reach sampleEnv explicitCommitRun) (.setMutationState "a" "m" .committed)).core.mutationState
        "m" = some .committed ∧
      lanesDone (exec sampleEnv (reach sampleEnv explicitCommitRun) (.setMutationState "a" "m" .committed)).outbox
        "m" = false := by
  decide

end Mesa.Ledger
