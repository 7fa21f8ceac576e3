/-
How far one operation can carry a mutation: which state changes each operation makes, that what
admission fixed stays fixed, and that new mutations start as received.
-/
import Mathlib.Logic.Relation
import Mesa.Ledger.Footprint

namespace Mesa.Ledger

open Mesa.Foundation

/-! ## Legal steps -/

/-- A legal transition other than a commit. -/
def MutationState.Quiet (s t : MutationState) : Prop := t ∈ s.next ∧ t ≠ .committed

/-- Any number of legal transitions, none of them a commit. -/
def MutationState.Steps : MutationState → MutationState → Prop := Relation.ReflTransGen MutationState.Quiet

theorem MutationState.Steps.refl (s : MutationState) : s.Steps s := Relation.ReflTransGen.refl

theorem MutationState.Steps.trans {s t u : MutationState} (h₁ : s.Steps t) (h₂ : t.Steps u) : s.Steps u :=
  Relation.ReflTransGen.trans h₁ h₂

theorem MutationState.steps_attempt {t : MutationState} (ht : t ≠ .committed) (s : MutationState) :
    s.Steps (s.attempt t) := by
  unfold MutationState.attempt
  split
  · next h => exact Relation.ReflTransGen.single ⟨h, ht⟩
  · exact .refl s

/-- A state without successors is never left. -/
theorem MutationState.Steps.eq_of_terminal {s t : MutationState} (hs : s.next = []) (h : s.Steps t) : t = s := by
  induction h with
  | refl => rfl
  | tail _ hstep ih => rw [ih, MutationState.Quiet, hs] at hstep; cases hstep.1

/-- Steps that are not commits do not end in COMMITTED unless they start there. -/
theorem MutationState.Steps.committed {s : MutationState} (h : s.Steps .committed) : s = .committed := by
  cases h with
  | refl => rfl
  | tail _ hstep => exact absurd rfl hstep.2

theorem MutationState.eq_graphApplied {s : MutationState} (h : .committed ∈ s.next) : s = .graphApplied := by
  cases s <;> first | rfl | simp [MutationState.next] at h

/-- The lanes of a mutation have all been projected: SQL is complete, the others may be skipped. -/
def lanesDone (outbox : Table Projection) (mutationId : String) : Bool :=
  (outbox.lookup ⟨mutationId, .sql⟩).any (·.state = .completed) &&
    (outbox.lookup ⟨mutationId, .vector⟩).any (·.state ∈ [.completed, .skipped]) &&
    (outbox.lookup ⟨mutationId, .graph⟩).any (·.state ∈ [.completed, .skipped])

theorem committed_mem_milestones {outbox : Table Projection} {id : String}
    (h : .committed ∈ milestones outbox id) : lanesDone outbox id = true := by
  unfold milestones at h
  unfold lanesDone
  simp only [List.mem_append, List.mem_ite_nil_right, List.mem_singleton, reduceCtorEq, and_false, or_false,
    Bool.and_eq_true, decide_eq_true_eq, and_true, false_or] at h
  obtain ⟨⟨hs, hv⟩, hg⟩ := h
  cases h₁ : outbox.lookup ⟨id, .sql⟩ <;> cases h₂ : outbox.lookup ⟨id, .vector⟩ <;>
    cases h₃ : outbox.lookup ⟨id, .graph⟩ <;> simp_all

/-! ## Climbing -/

theorem lifecycleOrder_le (s : MutationState) : s.lifecycleOrder ≤ 3 := by
  cases s <;> decide

theorem climbState_top (s : MutationState) : ∀ ms, climbState s 3 ms = (s, true)
  | [] => rfl
  | t :: rest => by rw [climbState, if_pos (lifecycleOrder_le t), climbState_top s rest]

/-- A climb takes legal steps; it ends in COMMITTED only over the milestone COMMITTED. -/
theorem climbState_steps : ∀ (ms : List MutationState) (s : MutationState) (index : Int),
    s.Steps (climbState s index ms).1 ∨
      (.committed ∈ ms ∧ (climbState s index ms).1 = .committed ∧ s.Steps .graphApplied)
  | [], s, _ => Or.inl (.refl s)
  | t :: rest, s, index => by
    unfold climbState
    split
    · rcases climbState_steps rest s index with h | ⟨hm, h⟩
      · exact Or.inl h
      · exact Or.inr ⟨List.mem_cons_of_mem _ hm, h⟩
    · split
      · next hat =>
        by_cases ht : t = .committed
        · subst ht
          rw [show MutationState.committed.lifecycleOrder = 3 from rfl, climbState_top]
          by_cases hn : .committed ∈ s.next
          · rw [MutationState.eq_graphApplied hn]
            exact Or.inr ⟨List.mem_cons_self, rfl, .refl _⟩
          · rw [MutationState.attempt, if_neg hn] at hat
            rw [hat]; exact Or.inl (.refl _)
        · have hst : s.Steps t := by
            have := MutationState.steps_attempt ht s
            rwa [hat] at this
          rcases climbState_steps rest t t.lifecycleOrder with h | ⟨hm, hc, h⟩
          · exact Or.inl (hst.trans h)
          · exact Or.inr ⟨List.mem_cons_of_mem _ hm, hc, hst.trans h⟩
      · exact Or.inl (.refl s)

/-- An advance takes legal steps; it commits only over the milestone COMMITTED. -/
theorem Core.advanced_steps (c : Core) (m : Mutation) (ms : List MutationState) :
    m.state.Steps (c.advanced m ms) ∨
      (.committed ∈ ms ∧ c.advanced m ms = .committed ∧ m.state.Steps .graphApplied) := by
  unfold Core.advanced advancedState
  split
  · exact Or.inl (.refl _)
  · split
    · exact Or.inl (.refl _)
    · split
      · next hs =>
        have hp : m.state.Steps .pending := by
          rw [hs]; exact Relation.ReflTransGen.single ⟨by decide, by decide⟩
        rcases climbState_steps ms .pending (-1) with h | ⟨hm, hc, h⟩
        · exact Or.inl (hp.trans h)
        · exact Or.inr ⟨hm, hc, hp.trans h⟩
      · exact climbState_steps ms m.state m.state.lifecycleOrder

/-! ## Tables of mutations -/

/-- The mutations of `u` are those of `t`, with their admission unchanged and their states changed by
`R`, and new ones that were just received. -/
structure Progressed (R : String → MutationState → MutationState → Prop) (t u : Table Mutation) : Prop where
  kept : ∀ id m, t.lookup id = some m →
    ∃ m', u.lookup id = some m' ∧ m'.toMutationScope = m.toMutationScope ∧ R id m.state m'.state
  fresh : ∀ id m', u.lookup id = some m' → t.lookup id = none → m'.state = .received

variable {R : String → MutationState → MutationState → Prop} {t u v : Table Mutation}

theorem Progressed.refl (hR : ∀ id s, R id s s) (t : Table Mutation) : Progressed R t t :=
  ⟨fun id m hm => ⟨m, hm, rfl, hR id m.state⟩, fun id m' hm' hn => by rw [hn] at hm'; cases hm'⟩

/-- Quiet steps after quiet steps. -/
theorem Progressed.trans (h₁ : Progressed (fun _ => MutationState.Steps) t u)
    (h₂ : Progressed (fun _ => MutationState.Steps) u v) (hkeys : ∀ id, u.lookup id = none ↔ t.lookup id = none) :
    Progressed (fun _ => MutationState.Steps) t v where
  kept id m hm := by
    obtain ⟨m₁, hm₁, hs₁, hr₁⟩ := h₁.kept id m hm
    obtain ⟨m₂, hm₂, hs₂, hr₂⟩ := h₂.kept id m₁ hm₁
    exact ⟨m₂, hm₂, hs₂.trans hs₁, hr₁.trans hr₂⟩
  fresh id m' hm' hn := h₂.fresh id m' hm' ((hkeys id).2 hn)

theorem Progressed.mono {Q : String → MutationState → MutationState → Prop}
    (h : Progressed R t u) (hRQ : ∀ id s s', R id s s' → Q id s s') : Progressed Q t u where
  kept id m hm := by
    obtain ⟨m', hm', hs, hr⟩ := h.kept id m hm
    exact ⟨m', hm', hs, hRQ _ _ _ hr⟩
  fresh := h.fresh

/-- An update that keeps the admission of every row. -/
theorem progressed_update {p : Mutation → Bool} {f : Mutation → Mutation}
    (hR : ∀ m : Mutation, t.lookup m.mutationId = some m →
      R m.mutationId m.state (if p m then f m else m).state)
    (hscope : ∀ m : Mutation, (f m).toMutationScope = m.toMutationScope := by intro _; rfl)
    (hf : ∀ m : Mutation, Keyed.key (f m) = Keyed.key m := by intro _; rfl) :
    Progressed R t (t.update p f hf) where
  kept id m hm := by
    have hid : m.mutationId = id := Table.lookup_key hm
    refine ⟨if p m then f m else m, by rw [Table.lookup_update, hm]; rfl, ?_, ?_⟩
    · split
      · exact hscope m
      · rfl
    · have := hR m (by rw [hid]; exact hm)
      rwa [hid] at this
  fresh id m' hm' hn := by rw [Table.lookup_update, hn] at hm'; cases hm'

/-- A transition of selected mutations to a state other than COMMITTED. -/
theorem progressed_move (t : Table Mutation) (p : Mutation → Bool) {s : MutationState} (hs : s ≠ .committed) :
    Progressed (fun _ => MutationState.Steps) t (moveMutations t p s) :=
  progressed_update fun m _ => by
    by_cases hp : p m = true
    · rw [if_pos hp]; exact MutationState.steps_attempt hs m.state
    · rw [if_neg hp]; exact .refl m.state

theorem progressed_insert {m : Mutation} (hR : ∀ id s, R id s s) (hm : m.state = .received) :
    Progressed R t (t.insertOrIgnore m) where
  kept id x hx := ⟨x, by rw [Table.lookup_insertOrIgnore, hx]; rfl, rfl, hR id x.state⟩
  fresh id m' hm' hn := by
    rw [Table.lookup_insertOrIgnore, hn, Option.none_or] at hm'
    split at hm'
    · cases hm'; exact hm
    · cases hm'

theorem lookup_moveMutations_none {p : Mutation → Bool} {s : MutationState} {id : String} :
    (moveMutations t p s).lookup id = none ↔ t.lookup id = none := by
  rw [lookup_moveMutations, Option.map_eq_none_iff]

/-! ## Operations -/

/-- What an operation may do to the state of a mutation: quiet steps; a commit over finished lanes;
an explicit COMMITTED for a mutation whose lanes it does not read; the reopening of a rollback. -/
def Shift (op : Op) (outbox' : Table Projection) (id : String) (s s' : MutationState) : Prop :=
  s.Steps s' ∨
  (s' = .committed ∧ s.Steps .graphApplied ∧ lanesDone outbox' id = true ∧ op.committing = some id) ∨
  (s' = .committed ∧ s = .graphApplied ∧ ∃ a, op = .setMutationState a id .committed) ∨
  (s' = .rollingBack ∧ s = .rolledBack ∧ ∃ artifacts, op = .enqueueUnownedProjectionCleanup id artifacts)

theorem shift_refl (op : Op) (outbox' : Table Projection) (id : String) (s : MutationState) :
    Shift op outbox' id s s := Or.inl (.refl s)

theorem Progressed.quiet {op : Op} {outbox' : Table Projection}
    (h : Progressed (fun _ => MutationState.Steps) t u) : Progressed (Shift op outbox') t u :=
  h.mono fun _ _ _ => Or.inl

/-- A parity repair retries mutations of its run at most. -/
theorem reconcileProjectionParity_progress {db db' : Db} {missing : List (String × List Lane)}
    (h : reconcileProjectionParity db missing = .ok db') :
    Progressed (fun _ => MutationState.Steps) db.core.mutations db'.core.mutations := by
  have step : ∀ (d : Db) (x : String × List Lane) (d' : Db),
      (Progressed (fun _ => MutationState.Steps) db.core.mutations d.core.mutations ∧
        ∀ id, d.core.mutations.lookup id = none ↔ db.core.mutations.lookup id = none) →
      repairMutation d x.1 x.2 = .ok d' →
      Progressed (fun _ => MutationState.Steps) db.core.mutations d'.core.mutations ∧
        ∀ id, d'.core.mutations.lookup id = none ↔ db.core.mutations.lookup id = none := by
    rintro d x d' ⟨hp, hk⟩ hr
    rcases repairMutation_cases hr with rfl | ⟨m, core, -, -, -, -, ht, -, hdb⟩
    · exact ⟨hp, hk⟩
    · have hmut : d'.core.mutations = core.mutations := by rw [hdb]
      rw [hmut, (transitionMemoryMutation_spec ht).1]
      exact ⟨hp.trans (progressed_move _ _ (by decide)) hk, fun id => lookup_moveMutations_none.trans (hk id)⟩
  exact (foldOk_invariant step ⟨.refl (fun _ s => .refl s) _, fun _ => Iff.rfl⟩ h).1

/-- Every operation keeps each mutation's admission and moves its state by `Shift`. -/
theorem transact_progress {env : Env} {db db' : Db} {op : Op} (h : transact env db op = .ok db') :
    Progressed (Shift op db'.outbox) db.core.mutations db'.core.mutations := by
  by_cases hw : Part.mutations ∉ op.writes
  · rw [show db'.core.mutations = db.core.mutations from transact_frame h hw]
    exact .refl (shift_refl _ _) _
  cases op with
  | admitMemory q =>
    obtain ⟨core, m, queue, hc, hm, -, hdb⟩ := admitMemory_cases h
    rw [hdb, ← (admitProvenance_frame hc).mutations]
    exact progressed_insert (shift_refl _ _) hm
  | recordMutation m =>
    rcases (recordMutation_cases h).2 with ⟨hm, -⟩ | ⟨-, hm⟩ <;> rw [hm]
    · exact .refl (shift_refl _ _) _
    · exact progressed_insert (shift_refl _ _) rfl
  | recordMutationExtraction a id ts =>
    obtain ⟨⟨c, b⟩, hc, rfl⟩ := map_eq_ok.1 h
    rcases recordMutationExtraction_cases hc with ⟨rfl, -⟩ | ⟨m, -, -, -, ht⟩
    · exact .refl (shift_refl _ _) _
    · rw [(transitionMemoryMutation_spec ht).1]
      refine Progressed.quiet (Progressed.trans (progressed_update fun m _ => ?_)
        (progressed_move _ _ (by decide)) fun id => ?_)
      · split <;> exact .refl _
      · rw [Table.lookup_update, Option.map_eq_none_iff]
  | setMutationState a id s =>
    obtain ⟨⟨db₁, b⟩, hc, rfl⟩ := map_eq_ok.1 h
    rcases (setMutationState_cases hc).2 with rfl | ⟨m, core, b', hm, -, ht, -, hdb⟩
    · exact .refl (shift_refl _ _) _
    · have hmut : db₁.core.mutations = moveMutations db.core.mutations (fun m => m.mutationId = id) s := by
        rw [← (transitionMemoryMutation_spec ht).1]
        rcases hdb with ⟨-, hdb⟩ | ⟨-, -, -, hdb⟩ <;> rw [hdb]
      rw [hmut]
      by_cases hs : s = .committed
      · subst hs
        refine progressed_update fun m _ => ?_
        by_cases hid : m.mutationId = id
        · by_cases hn : .committed ∈ m.state.next
          · have hg := MutationState.eq_graphApplied hn
            exact Or.inr (Or.inr (Or.inl ⟨by simp [hid, MutationState.attempt, hn], hg, a, by rw [hid]⟩))
          · simp only [hid, decide_true, ↓reduceIte, MutationState.attempt, if_neg hn]
            exact shift_refl _ _ _ _
        · simp only [hid, decide_false, Bool.false_eq_true, ↓reduceIte]
          exact shift_refl _ _ _ _
      · exact (progressed_move _ _ hs).quiet
  | completeProjectionOutbox k w t o =>
    obtain ⟨⟨db₁, r⟩, hc, rfl⟩ := map_eq_ok.1 h
    rcases completeProjectionOutbox_cases hc with ⟨rfl, -⟩ | ⟨p, m, -, hm, ⟨-, -, hdb⟩ | ⟨-, -, -, core, hadv, hdb⟩⟩
    · exact .refl (shift_refl _ _) _
    · rw [hdb]; exact .refl (shift_refl _ _) _
    · have hmut := (advanceMutationProjectionState_spec hm hadv).1
      have hout : db₁.outbox = settleLane db.outbox k t o.laneState none := by rw [hdb]
      have hcore : db₁.core = core := by rw [hdb]
      rw [hcore, hmut, hout]
      refine progressed_update fun x hx => ?_
      by_cases hid : x.mutationId = k.mutationId
      · rw [hid, hm] at hx; cases hx
        simp only [hid, decide_true, ↓reduceIte]
        rcases db.core.advanced_steps m (milestones (settleLane db.outbox k t o.laneState none) k.mutationId) with
          hst | ⟨hmem, hcom, hst⟩
        · exact Or.inl hst
        · exact Or.inr (Or.inl ⟨hcom, hst, committed_mem_milestones hmem, rfl⟩)
      · simp only [hid, decide_false, Bool.false_eq_true, ↓reduceIte]
        exact shift_refl _ _ _ _
  | failProjectionOutbox k w t r =>
    rcases failProjectionOutbox_cases h with rfl | ⟨p, m, terminal, -, -, -, -, hcore⟩
    · exact .refl (shift_refl _ _) _
    · rcases hcore with ⟨-, hc⟩ | ⟨-, core, b, rb, ht, -, hc⟩ <;> rw [hc]
      · exact .refl (shift_refl _ _) _
      · rw [(transitionMemoryMutation_spec ht).1]
        exact (progressed_move _ _ (by cases terminal <;> decide)).quiet
  | requestPipelineRollback r =>
    obtain ⟨run, -, ⟨-, rfl⟩ | ⟨-, -, runs, moved, restored, cleanup, -, -, hmv, hre, hcl, -⟩⟩ :=
      requestPipelineRollback_cases h
    · exact .refl (shift_refl _ _) _
    · have h₁ := (transitionPipelineMutations_spec hmv).1
      have h₂ := (restorePipelineSupersession_frame hre).mutations
      unfold closeIfIdle at hcl
      split at hcl
      · rw [(closeRollback_spec hcl).1, h₂, h₁]
        exact ((progressed_move _ _ (by decide)).trans (progressed_move _ _ (by decide))
          fun id => lookup_moveMutations_none).quiet
      · cases hcl
        rw [h₂, h₁]
        exact (progressed_move _ _ (by decide)).quiet
  | replayPipelineRun r t =>
    obtain ⟨run, runs, -, -, cr, -, -, hmv, -⟩ := replayPipelineRun_cases h
    rw [(transitionPipelineMutations_spec hmv).1]
    exact (progressed_move _ _ (by cases cr <;> decide)).quiet
  | reconcileProjectionParity ms => exact (reconcileProjectionParity_progress h).quiet
  | finishArtifactCleanup k w t f =>
    rcases finishArtifactCleanup_cases h with rfl | ⟨row, -, -, -, ⟨-, hc⟩ | ⟨-, runs, rb, -, hmv⟩ | ⟨-, -, hc⟩⟩
    · exact .refl (shift_refl _ _) _
    · rw [hc]; exact .refl (shift_refl _ _) _
    · rw [(transitionPipelineMutations_spec hmv).1]; exact (progressed_move _ _ (by decide)).quiet
    · rw [(closeRollback_spec hc).1]; exact (progressed_move _ _ (by decide)).quiet
  | enqueueUnownedProjectionCleanup id artifacts =>
    simp only [transact, enqueueUnownedProjectionCleanup] at h
    split at h
    · cases h
    · cases h
      refine progressed_update fun m _ => ?_
      by_cases hp : m.mutationId = id ∧ m.state = .rolledBack
      · exact Or.inr (Or.inr (Or.inr ⟨by simp [hp.1, hp.2], hp.2, artifacts, by rw [hp.1]⟩))
      · refine Or.inl ?_
        split
        · next hif =>
          have hs : m.state = .rollingBack := by
            simp only [Bool.and_eq_true, decide_eq_true_eq, List.mem_cons, List.not_mem_nil, or_false] at hif
            exact hif.2.resolve_left fun hr => hp ⟨hif.1, hr⟩
          rw [hs]; exact .refl _
        · exact .refl _
  | finalizeTerminalProjectionCompensation id =>
    rcases finalizeTerminalProjectionCompensation_cases h with rfl | ⟨m, -, -, hc, -⟩
    · exact .refl (shift_refl _ _) _
    · rw [(closeRollback_spec hc).1]; exact (progressed_move _ _ (by decide)).quiet
  | purgeDocument t d i =>
    obtain ⟨core, purged, hc, hdb⟩ := purgeDocument_cases h
    have hmut : db'.core.mutations =
        core.mutations.update (fun m => m.datasetId = d && m.documentId = i) Mutation.erase := by rw [hdb]; rfl
    rw [hmut, (purgeMutations_spec hc).1]
    refine ((progressed_move _ _ (by decide)).trans (progressed_update fun m _ => ?_)
      fun id => lookup_moveMutations_none).quiet
    split <;> exact .refl _
  | purgeMemory a s =>
    obtain ⟨core, purged, hc, hdb⟩ := purgeMemory_cases h
    have hmut : db'.core.mutations = core.mutations := by rw [hdb]
    rw [hmut, (purgeMutations_spec hc).1]
    exact (progressed_move _ _ (by decide)).quiet
  | completeDispatchQueue k w t v =>
    rcases (completeDispatchQueue_cases h).2 with hc | ⟨ids, hc⟩
    · rw [hc]; exact .refl (shift_refl _ _) _
    · rw [(moveAll_spec hc).1]; exact (progressed_move _ _ (by decide)).quiet
  | _ => exact absurd (by simp [Op.writes]) hw

/-- The step rule for mutations: what every step does to every mutation. -/
theorem exec_progress (env : Env) (db : Db) (op : Op) :
    Progressed (Shift op (exec env db op).outbox) db.core.mutations (exec env db op).core.mutations := by
  unfold exec
  cases h : transact env db op with
  | error e => exact .refl (shift_refl _ _) _
  | ok db' => exact transact_progress h

end Mesa.Ledger
