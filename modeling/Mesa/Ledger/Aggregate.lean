/-
The aggregate state of a pipeline run under the transitions of its children. The recompute
derives a state from the children alone, but stores it through the transition table of runs,
which refuses some of the states it derives; the run then keeps the state it had. The condition
below says, from the stored state and the children, when the table lets the run follow.
-/
import Mesa.Ledger.Exec
import Mesa.Ledger.Moves

namespace Mesa.Ledger

open Mesa.Foundation

/-! ## Sequences of child transitions -/

/-- The arguments of one call of `_transition_memory_mutation_in_tx`. -/
structure ChildStep where
  mutationId : String
  toState : MutationState

/-- The ledger after one call; a call that raises rolls back. -/
def childStep (c : Core) (s : ChildStep) : Core :=
  orKeep c ((transitionMemoryMutation c s.mutationId s.toState).map (·.1))

/-- The calls that are accepted. -/
def Core.accepts (c : Core) (s : ChildStep) : Bool :=
  match transitionMemoryMutation c s.mutationId s.toState with
  | .ok (_, accepted) => accepted
  | .error _ => false

/-- The states of a run that belong to a rollback, a purge or a cancellation. -/
def PipelineState.owned : PipelineState → Bool
  | .rollingBack | .rolledBack | .purged | .cancelled => true
  | _ => false

/-- The call moves a child of a run that no rollback, purge or cancellation owns. -/
def Core.moves (c : Core) (run : String) (s : ChildStep) : Bool :=
  c.accepts s && (c.pipelineState run).any (fun p => !p.owned) &&
    (c.mutations.lookup s.mutationId).any fun m => m.pipelineRunId = run && m.state ≠ s.toState

/-- The run stores the state that its children derive. -/
def Core.Tracks (c : Core) (run : String) : Prop :=
  c.pipelineState run = some (aggregateState (childStates c.mutations run))

instance (c : Core) (run : String) : Decidable (c.Tracks run) :=
  inferInstanceAs (Decidable (c.pipelineState run = some (aggregateState (childStates c.mutations run))))

/-! ## When a run can follow its children -/

/-- Children that hold a run back: a dead, blocked or rejected one. -/
def anyDead (l : List MutationState) : Bool := l.any (· ∈ [.deadLetter, .blocked, .rejected])

/-- Children that are being projected. -/
def anyApplied (l : List MutationState) : Bool := l.any (· ∈ [.sqlApplied, .vectorApplied, .graphApplied])

/-- A run in state `p` can follow children in the states `l`. A QUEUED or RUNNING run follows any
children; a later one never goes back, a retrying one enters neither VALIDATED nor EXTRACTED, and
a dead, blocked or committed one is left for a retry only. -/
def followable (p : PipelineState) (l : List MutationState) : Bool :=
  let committed := l.all (· = .committed)
  let retrying := anyDead l || l.any (· = .retryPending)
  let waiting := l.any (· = .validated) || l.any (· = .extracted)
  match p with
  | .queued | .running => true
  | .extracted => committed || retrying || anyApplied l || waiting
  | .validated => committed || retrying || anyApplied l || l.any (· = .validated)
  | .projecting => committed || retrying || anyApplied l
  | .retryPending => committed || retrying || anyApplied l || !waiting
  | .dlq => !committed && retrying
  | .committed => committed || (!anyDead l && retrying)
  | .blocked => !committed && !anyDead l && retrying
  | .rollingBack | .rolledBack | .purged | .cancelled | .rejected => false

/-- The states of the children of a run after a call that moves one of them. -/
def Core.movedChildren (c : Core) (run : String) (s : ChildStep) : List MutationState :=
  (c.children run).map fun m => if m.mutationId = s.mutationId then s.toState else m.state

/-- The run can follow the child that the call moves. -/
def Core.follows (c : Core) (run : String) (s : ChildStep) : Bool :=
  (c.pipelineState run).any fun p => followable p (c.movedChildren run s)

/-- Recomputing stores the derived state exactly when the run can follow. -/
theorem recomputedState_eq_iff {l : List MutationState} (hl : l ≠ []) (p : PipelineState) :
    recomputedState l p = aggregateState l ↔ followable p l = true := by
  unfold recomputedState aggregateState followable
  simp only [if_neg hl, ← anyDead.eq_1, ← anyApplied.eq_1]
  -- what is left depends on six facts about the children only
  generalize l.all (· = .committed) = committed
  generalize l.any (· = .retryPending) = retry
  generalize l.any (· = .validated) = validated
  generalize l.any (· = .extracted) = extracted
  generalize anyDead l = dead
  generalize anyApplied l = applied
  revert committed retry validated extracted dead applied
  cases p <;> decide

/-! ## One call -/

theorem childStates_set (c : Core) (run : String) (s : ChildStep) :
    childStates (setMutationStates c.mutations s.mutationId s.toState) run = c.movedChildren run s := by
  unfold childStates Core.movedChildren Core.children setMutationStates
  rw [Table.select_update (by intro _; rfl), List.map_map]
  refine List.map_congr_left fun m _ => ?_
  by_cases hm : m.mutationId = s.mutationId <;> simp [hm]

/-- A call is refused or repeats a state, or it moves a mutation and recomputes its run. -/
theorem childStep_cases (c : Core) (s : ChildStep) :
    (childStep c s = c ∧ ∀ m, c.mutations.lookup s.mutationId = some m → m.state ≠ s.toState → c.accepts s = false) ∨
    ∃ m, c.mutations.lookup s.mutationId = some m ∧ m.state ≠ s.toState ∧ c.accepts s = true ∧
      (childStep c s).mutations = setMutationStates c.mutations s.mutationId s.toState ∧
      RunsMoved m.pipelineRunId (recomputedState (childStates (childStep c s).mutations m.pipelineRunId)) c.runs
        (childStep c s).runs := by
  unfold childStep Core.accepts
  cases ht : transitionMemoryMutation c s.mutationId s.toState with
  | error e => exact Or.inl ⟨rfl, fun _ _ _ => rfl⟩
  | ok r =>
    obtain ⟨c', b⟩ := r
    show (c' = c ∧ _) ∨ ∃ m, _ ∧ _ ∧ b = true ∧ c'.mutations = _ ∧ RunsMoved _ (recomputedState (childStates
      c'.mutations _)) c.runs c'.runs
    obtain ⟨m, hm, ⟨heq, -, rfl⟩ | ⟨-, -, hb, rfl⟩ | ⟨hne, -, hb, moved, rb, hmoved, hre, hact⟩⟩ :=
      transitionMemoryMutation_cases ht
    · refine Or.inl ⟨rfl, fun x hx hne => absurd heq ?_⟩
      rw [hm] at hx; cases hx; exact hne
    · exact Or.inl ⟨rfl, fun _ _ _ => hb⟩
    · -- the commit touches neither runs nor mutations
      have hframe : c'.runs = moved.runs ∧ c'.mutations = moved.mutations := by
        split at hact
        · exact ⟨(activateCommittedRevision_frame hact).runs, (activateCommittedRevision_frame hact).mutations⟩
        · rw [hact]; exact ⟨rfl, rfl⟩
      refine Or.inr ⟨m, hm, hne, hb, ?_, ?_⟩
      · rw [hframe.2, hmoved]
      · rw [hframe.1, hframe.2]; exact recomputePipelineState_moved hre

theorem moves_iff {c : Core} {run : String} {s : ChildStep} :
    c.moves run s = true ↔ c.accepts s = true ∧ (∃ p, c.pipelineState run = some p ∧ p.owned = false) ∧
      ∃ m, c.mutations.lookup s.mutationId = some m ∧ m.pipelineRunId = run ∧ m.state ≠ s.toState := by
  simp only [Core.moves, Bool.and_eq_true, Option.any_eq_true, and_assoc, Bool.not_eq_true', decide_eq_true_eq,
    decide_not, decide_eq_false_iff_not, ne_eq]

/-- After a call that moves a child, the run stores the derived state exactly when it can follow. -/
theorem childStep_tracks_iff {c : Core} {run : String} {s : ChildStep} (h : c.moves run s = true) :
    (childStep c s).Tracks run ↔ c.follows run s = true := by
  obtain ⟨hacc, ⟨p, hp, -⟩, m, hm, hrun, hne⟩ := moves_iff.1 h
  rcases childStep_cases c s with ⟨-, hrefused⟩ | ⟨m', hm', -, -, hmut, hruns⟩
  · rw [hrefused m hm hne] at hacc; cases hacc
  · rw [hm] at hm'; cases hm'
    have hkids : childStates (childStep c s).mutations run = c.movedChildren run s := by
      rw [hmut, childStates_set]
    have hnil : c.movedChildren run s ≠ [] :=
      List.ne_nil_of_mem (List.mem_map.2 ⟨m, Table.mem_select.2 ⟨Table.lookup_mem hm, decide_eq_true hrun⟩, rfl⟩)
    have hstate : (childStep c s).pipelineState run = some (recomputedState (c.movedChildren run s) p) := by
      rw [hrun, hkids] at hruns
      exact hruns.state.trans (congrArg (Option.map _) hp)
    unfold Core.Tracks Core.follows
    rw [hstate, hkids, hp, Option.some.injEq, recomputedState_eq_iff hnil]
    rfl

theorem aggregateState_not_owned (l : List MutationState) : (aggregateState l).owned = false := by
  unfold aggregateState
  repeat' split
  all_goals rfl

/-- A call that moves no child of a tracking run leaves it and its children alone. -/
theorem childStep_tracks_of_not_moves {c : Core} {run : String} {s : ChildStep} (h : c.Tracks run)
    (hm : c.moves run s = false) : (childStep c s).Tracks run := by
  rcases childStep_cases c s with ⟨hkeep, -⟩ | ⟨m, hrow, hne, hacc, hmut, hruns⟩
  · rw [hkeep]; exact h
  · have hother : run ≠ m.pipelineRunId := by
      intro hrun
      have := moves_iff.2 ⟨hacc, ⟨_, h, aggregateState_not_owned _⟩, m, hrow, hrun.symm, hne⟩
      rw [hm] at this; cases this
    have hkids : childStates (childStep c s).mutations run = childStates c.mutations run := by
      rw [hmut, childStates_set]
      refine List.map_congr_left fun x hx => if_neg fun hid => hother ?_
      obtain ⟨hxm, hxr⟩ := Table.mem_select.1 hx
      have hlook : c.mutations.lookup s.mutationId = some x := Table.lookup_eq_some.2 ⟨hxm, hid⟩
      rw [hrow] at hlook; cases hlook
      exact (of_decide_eq_true hxr).symm
    unfold Core.Tracks Core.pipelineState
    rw [hruns.state_of_ne hother, hkids]
    exact h

/-! ## Whole sequences -/

/-- The derived state depends on the multiset of the children's states only. -/
theorem aggregateState_perm {l k : List MutationState} (h : l.Perm k) : aggregateState l = aggregateState k := by
  unfold aggregateState
  simp only [h.all_eq, h.any_eq]

/-- For every ledger, every run and every sequence of child transitions: each accepted move of a
child leaves the run in the state its children derive exactly when each is one the run can follow;
then a run that tracks its children once tracks them for good, and two runs that do so over the
same multiset of child states are in the same state. -/
theorem aggregate_follows_children (c : Core) (run : String) (steps : List ChildStep) :
    (Along childStep (fun c s => c.moves run s = true → (childStep c s).Tracks run) c steps ↔
      Along childStep (fun c s => c.moves run s = true → c.follows run s = true) c steps) ∧
    (Along childStep (fun c s => c.moves run s = true → c.follows run s = true) c steps →
      c.Tracks run → (Foundation.run childStep c steps).Tracks run) ∧
    ∀ (c' : Core) (run' : String), c.Tracks run → c'.Tracks run' →
      (childStates c.mutations run).Perm (childStates c'.mutations run') →
        c.pipelineState run = c'.pipelineState run' := by
  refine ⟨⟨fun h => along_mono ?_ h, fun h => along_mono ?_ h⟩, ?_, ?_⟩
  · intro d s hd hm
    exact (childStep_tracks_iff hm).1 (hd hm)
  · intro d s hd hm
    exact (childStep_tracks_iff hm).2 (hd hm)
  · intro hsteps h
    refine invariant_run (I := fun d => d.Tracks run) (fun d s hd hs => ?_) h hsteps
    cases hm : d.moves run s with
    | true => exact (childStep_tracks_iff hm).2 (hs hm)
    | false => exact childStep_tracks_of_not_moves hd hm
  · intro c' run' h h' hperm
    rw [h, h', aggregateState_perm hperm]

/-- Two candidates, each alone in its run. -/
def twoCandidates : Core :=
  (reach sampleEnv [.recordMutation (sampleMutation "m1" "r1" "rev" "k1"),
    .recordMutation (sampleMutation "m2" "r2" "rev" "k2")]).core

/-- The first candidate is retried before its extraction succeeds. -/
def retriedExtraction : List ChildStep :=
  [⟨"m1", .retryPending⟩, ⟨"m1", .extracted⟩, ⟨"m2", .extracted⟩]

/-- Every call is accepted, but the retried run stays in RETRY_PENDING over an extracted child,
where the other run, over the same multiset of states, is EXTRACTED. -/
theorem retried_extraction_not_followed :
    Along childStep (fun c s => c.accepts s = true) twoCandidates retriedExtraction ∧
    ¬ Along childStep (fun c s => c.moves "r1" s = true → (childStep c s).Tracks "r1") twoCandidates
      retriedExtraction ∧
    childStates (run childStep twoCandidates retriedExtraction).mutations "r1" = [.extracted] ∧
    childStates (run childStep twoCandidates retriedExtraction).mutations "r2" = [.extracted] ∧
    (run childStep twoCandidates retriedExtraction).pipelineState "r1" = some .retryPending ∧
    (run childStep twoCandidates retriedExtraction).pipelineState "r2" = some .extracted := by
  decide +kernel

end Mesa.Ledger
