/-
What a transition does to the ledger core, said once: which tables it leaves alone, how the
state of a run and of a mutation changes, and what remains true of every other row.
-/
import Mesa.Ledger.Transition

namespace Mesa.Ledger

open Mesa.Foundation

/-! ## Pipeline runs -/

/-- The state a compare-and-swap to `toState` leaves. -/
def PipelineState.attempt (s toState : PipelineState) : PipelineState :=
  if toState ∈ s.next then toState else s

theorem lookup_setRunState (runs : Table PipelineRun) (id k : String) (s : PipelineState) :
    (setRunState runs id s).lookup k = (runs.lookup k).map fun r => if k = id then { r with state := s } else r := by
  rw [setRunState, Table.lookup_update]
  cases h : runs.lookup k with
  | none => rfl
  | some r =>
    have hk : r.pipelineRunId = k := Table.lookup_key h
    simp [hk]

theorem transitionPipelineRun_cases {runs runs' : Table PipelineRun} {id : String} {toState : PipelineState}
    {b : Bool} (h : transitionPipelineRun runs id toState = .ok (runs', b)) :
    ∃ row, runs.lookup id = some row ∧
      ((row.state = toState ∧ b = true ∧ runs' = runs) ∨
        (row.state ≠ toState ∧ toState ∈ row.state.next ∧ b = true ∧ runs' = setRunState runs id toState) ∨
        (row.state ≠ toState ∧ toState ∉ row.state.next ∧ b = false ∧ runs' = runs)) := by
  unfold transitionPipelineRun at h
  cases hrow : runs.lookup id with
  | none => rw [hrow] at h; cases h
  | some row =>
    rw [hrow] at h
    refine ⟨row, rfl, ?_⟩
    by_cases heq : row.state = toState
    · simp only [heq, ↓reduceIte] at h; cases h; exact Or.inl ⟨heq, rfl, rfl⟩
    · by_cases hnext : toState ∈ row.state.next
      · simp only [heq, hnext, ↓reduceIte] at h; cases h; exact Or.inr (Or.inl ⟨heq, hnext, rfl, rfl⟩)
      · simp only [heq, hnext, ↓reduceIte] at h; cases h; exact Or.inr (Or.inr ⟨heq, hnext, rfl, rfl⟩)

/-- A run transition that is not refused was made before or is legal. -/
theorem transitionPipelineRun_may {runs runs' : Table PipelineRun} {id : String} {toState : PipelineState}
    (h : transitionPipelineRun runs id toState = .ok (runs', true)) :
    ∃ row, runs.lookup id = some row ∧ (row.state = toState ∨ toState ∈ row.state.next) := by
  obtain ⟨row, hrow, ⟨hs, -⟩ | ⟨-, hn, -⟩ | ⟨-, -, hb, -⟩⟩ := transitionPipelineRun_cases h
  · exact ⟨row, hrow, Or.inl hs⟩
  · exact ⟨row, hrow, Or.inr hn⟩
  · cases hb

/-- How the runs of two tables correspond: the same rows, the state of run `id` changed by `f`. -/
def RunsMoved (id : String) (f : PipelineState → PipelineState) (runs runs' : Table PipelineRun) : Prop :=
  ∀ k, runs'.lookup k = (runs.lookup k).map fun r => if k = id then { r with state := f r.state } else r

theorem RunsMoved.refl (id : String) (runs : Table PipelineRun) : RunsMoved id (fun s => s) runs runs := by
  intro k
  cases runs.lookup k <;> simp

theorem RunsMoved.trans {id : String} {f g : PipelineState → PipelineState} {a b c : Table PipelineRun}
    (h₁ : RunsMoved id f a b) (h₂ : RunsMoved id g b c) : RunsMoved id (fun s => g (f s)) a c := by
  intro k
  rw [h₂ k, h₁ k, Option.map_map]
  congr 1
  funext r
  by_cases hk : k = id <;> simp [hk]

theorem RunsMoved.congr {id : String} {f g : PipelineState → PipelineState} {a b : Table PipelineRun}
    (h : RunsMoved id f a b) (hfg : ∀ r, a.lookup id = some r → f r.state = g r.state) : RunsMoved id g a b := by
  intro k
  rw [h k]
  cases hr : a.lookup k with
  | none => rfl
  | some r =>
    by_cases hk : k = id
    · subst hk; simp [hfg r hr]
    · simp [hk]

theorem RunsMoved.state {id : String} {f : PipelineState → PipelineState} {a b : Table PipelineRun}
    (h : RunsMoved id f a b) : (b.lookup id).map (·.state) = ((a.lookup id).map (·.state)).map f := by
  rw [h id]
  cases a.lookup id <;> simp

theorem RunsMoved.state_of_ne {id k : String} {f : PipelineState → PipelineState} {a b : Table PipelineRun}
    (h : RunsMoved id f a b) (hk : k ≠ id) : b.lookup k = a.lookup k := by
  rw [h k]
  cases a.lookup k <;> simp [hk]

theorem runsMoved_setRunState (runs : Table PipelineRun) (id : String) (s : PipelineState) :
    RunsMoved id (fun _ => s) runs (setRunState runs id s) :=
  fun k => lookup_setRunState runs id k s

/-- A run transition moves one run by `attempt` and reports whether the run is in the new state. -/
theorem transitionPipelineRun_moved {runs runs' : Table PipelineRun} {id : String} {toState : PipelineState}
    {b : Bool} (h : transitionPipelineRun runs id toState = .ok (runs', b)) :
    RunsMoved id (·.attempt toState) runs runs' ∧
      (b = true ↔ (runs'.lookup id).map (·.state) = some toState) := by
  obtain ⟨row, hrow, hc⟩ := transitionPipelineRun_cases h
  have hself : ∀ s : PipelineState, s.attempt s = s := by intro s; cases s <;> rfl
  rcases hc with ⟨hs, rfl, rfl⟩ | ⟨hs, hnext, rfl, rfl⟩ | ⟨hs, hnext, rfl, rfl⟩
  · refine ⟨(RunsMoved.refl id runs').congr fun r hr => ?_, by simp [hrow, hs]⟩
    rw [hrow] at hr; cases hr; rw [hs, hself]
  · refine ⟨(runsMoved_setRunState runs id toState).congr fun r hr => ?_, ?_⟩
    · rw [hrow] at hr; cases hr; simp [PipelineState.attempt, hnext]
    · rw [lookup_setRunState, hrow]; simp
  · refine ⟨(RunsMoved.refl id runs').congr fun r hr => ?_, by simp [hrow, hs]⟩
    rw [hrow] at hr; cases hr; simp [PipelineState.attempt, hnext]

/-- The state that recomputing leaves a run in, given the states of its children. -/
def recomputedState (childStates : List MutationState) (s : PipelineState) : PipelineState :=
  if childStates = [] then s
  else
    let target := aggregateState childStates
    if s = .queued ∧ target ∈ [PipelineState.extracted, .validated, .projecting, .committed] then
      (s.attempt .running).attempt target
    else s.attempt target

/-- The states of the children of a run. -/
def childStates (mutations : Table Mutation) (id : String) : List MutationState :=
  (mutations.select fun m => m.pipelineRunId = id).map (·.state)

theorem recomputePipelineState_moved {mutations : Table Mutation} {runs runs' : Table PipelineRun} {id : String}
    {b : Bool} (h : recomputePipelineState mutations runs id = .ok (runs', b)) :
    RunsMoved id (recomputedState (childStates mutations id)) runs runs' := by
  unfold recomputePipelineState at h
  unfold childStates recomputedState
  by_cases hnil : (mutations.select fun m => m.pipelineRunId = id).map (·.state) = []
  · simp only [hnil, ↓reduceIte] at h ⊢
    cases h; exact RunsMoved.refl id _
  · simp only [hnil, ↓reduceIte] at h ⊢
    cases hrow : runs.lookup id with
    | none => rw [hrow] at h; cases h
    | some row =>
      rw [hrow] at h
      simp only at h
      split at h
      · next hq =>
        obtain ⟨⟨r₁, b₁⟩, h₁, h₂⟩ := bind_eq_ok.1 h
        obtain ⟨hm₁, -⟩ := transitionPipelineRun_moved h₁
        -- RUNNING is reachable from QUEUED, so the first transition never fails
        have hstarted : b₁ = true := by
          rw [(transitionPipelineRun_moved h₁).2, hm₁.state, hrow, Option.map_some, Option.map_some, hq.1]
          decide
        simp only [hstarted, ↓reduceIte] at h₂
        refine (hm₁.trans (transitionPipelineRun_moved h₂).1).congr fun r hr => ?_
        rw [hrow] at hr; cases hr; rw [if_pos hq]
      · next hq =>
        refine (transitionPipelineRun_moved h).1.congr fun r hr => ?_
        rw [hrow] at hr; cases hr; rw [if_neg hq]

/-! ## Activation leaves the lifecycle tables alone -/

/-- Two cores that differ at most in revisions and assertions. -/
structure Core.SameLifecycle (c c' : Core) : Prop where
  runs : c'.runs = c.runs
  mutations : c'.mutations = c.mutations
  documents : c'.documents = c.documents
  chunks : c'.chunks = c.chunks
  links : c'.links = c.links

theorem Core.SameLifecycle.refl (c : Core) : c.SameLifecycle c := ⟨rfl, rfl, rfl, rfl, rfl⟩

theorem supersedeHead_frame {c c' : Core} {rev : Revision} {p : String} (h : supersedeHead c rev p = .ok c') :
    c.SameLifecycle c' := by
  unfold supersedeHead at h
  simp only at h
  split at h
  · cases h
  · split at h
    · cases h
    · split at h
      · cases h
      · obtain ⟨revisions, -, hc⟩ := bind_eq_ok.1 h
        cases pure_eq_ok.1 hc
        exact ⟨rfl, rfl, rfl, rfl, rfl⟩

theorem activateFirstHead_frame {c c' : Core} {rev : Revision} (h : activateFirstHead c rev = .ok c') :
    c.SameLifecycle c' := by
  unfold activateFirstHead at h
  split at h
  · cases h
  · obtain ⟨revisions, -, hc⟩ := bind_eq_ok.1 h
    cases pure_eq_ok.1 hc
    exact ⟨rfl, rfl, rfl, rfl, rfl⟩

theorem reconcileRevisionActivation_frame {c c' : Core} {id : String}
    (h : reconcileRevisionActivation c id = .ok c') : c.SameLifecycle c' := by
  unfold reconcileRevisionActivation at h
  cases hrev : c.revisions.lookup id with
  | none => rw [hrev] at h; cases h; exact .refl _
  | some rev =>
    rw [hrev] at h
    simp only at h
    split at h
    · cases h; exact .refl _
    · split at h
      · cases h; exact .refl _
      · split at h
        · cases h; exact .refl _
        · split at h
          · exact supersedeHead_frame h
          · exact activateFirstHead_frame h

theorem activateCommittedRevision_frame {c c' : Core} {id : String}
    (h : activateCommittedRevision c id = .ok c') : c.SameLifecycle c' := by
  unfold activateCommittedRevision at h
  cases hm : c.mutations.lookup id with
  | none => rw [hm] at h; cases h; exact .refl _
  | some m =>
    rw [hm] at h
    simp only at h
    have hr := reconcileRevisionActivation_frame h
    by_cases hs : c.pipelineState m.pipelineRunId ∈ [none, some .committed]
    · simp only [hs, ↓reduceIte] at hr
      exact ⟨hr.runs, hr.mutations, hr.documents, hr.chunks, hr.links⟩
    · simp only [hs, ↓reduceIte] at hr
      exact hr

/-! ## Mutation transitions -/

/-- Everything a successful mutation transition can be: the mutation is already there, the
transition is illegal and nothing happens, or the mutation moves and its run is recomputed. -/
theorem transitionMemoryMutation_cases {c c' : Core} {id : String} {toState : MutationState} {b : Bool}
    (h : transitionMemoryMutation c id toState = .ok (c', b)) :
    ∃ m, c.mutations.lookup id = some m ∧
      ((m.state = toState ∧ b = true ∧ c' = c) ∨
        (m.state ≠ toState ∧ toState ∉ m.state.next ∧ b = false ∧ c' = c) ∨
        (m.state ≠ toState ∧ toState ∈ m.state.next ∧ b = true ∧ ∃ moved : Core, ∃ rb,
          moved = { c with mutations := setMutationStates c.mutations id toState, runs := moved.runs } ∧
          recomputePipelineState moved.mutations c.runs m.pipelineRunId = .ok (moved.runs, rb) ∧
          (if toState = .committed then activateCommittedRevision moved id = .ok c' else c' = moved))) := by
  unfold transitionMemoryMutation at h
  cases hm : c.mutations.lookup id with
  | none => rw [hm] at h; cases h
  | some m =>
    rw [hm] at h
    refine ⟨m, rfl, ?_⟩
    by_cases heq : m.state = toState
    · simp only [heq, ↓reduceIte] at h; cases h; exact Or.inl ⟨heq, rfl, rfl⟩
    · by_cases hnext : toState ∈ m.state.next
      · simp only [heq, hnext, ↓reduceIte] at h
        obtain ⟨⟨runs, rb⟩, hre, h⟩ := bind_eq_ok.1 h
        refine Or.inr (Or.inr ⟨heq, hnext, ?_⟩)
        by_cases hcom : toState = .committed
        · rw [if_pos hcom] at h
          obtain ⟨act, hact, h⟩ := bind_eq_ok.1 h
          cases pure_eq_ok.1 h
          refine ⟨rfl, { c with mutations := setMutationStates c.mutations id toState, runs := runs }, rb, rfl, hre, ?_⟩
          rw [if_pos hcom]; exact hact
        · rw [if_neg hcom] at h
          cases pure_eq_ok.1 h
          refine ⟨rfl, { c with mutations := setMutationStates c.mutations id toState, runs := runs }, rb, rfl, hre, ?_⟩
          rw [if_neg hcom]
      · simp only [heq, hnext, ↓reduceIte] at h; cases h; exact Or.inr (Or.inl ⟨heq, hnext, rfl, rfl⟩)

/-- The state a compare-and-swap to `toState` leaves. -/
def MutationState.attempt (s toState : MutationState) : MutationState :=
  if toState ∈ s.next then toState else s

theorem MutationState.attempt_cases (s t : MutationState) :
    (t ∈ s.next ∧ s.attempt t = t) ∨ (t ∉ s.next ∧ s.attempt t = s) := by
  unfold MutationState.attempt
  by_cases h : t ∈ s.next
  · exact Or.inl ⟨h, if_pos h⟩
  · exact Or.inr ⟨h, if_neg h⟩

theorem MutationState.not_mem_next_self (s : MutationState) : s ∉ s.next := by
  cases s <;> decide

@[simp] theorem MutationState.attempt_self (s : MutationState) : s.attempt s = s := by
  rw [MutationState.attempt, if_neg s.not_mem_next_self]

@[simp] theorem MutationState.attempt_attempt (s t : MutationState) : (s.attempt t).attempt t = s.attempt t := by
  unfold MutationState.attempt
  by_cases h : t ∈ s.next
  · simp [h, t.not_mem_next_self]
  · simp [h]

/-- The mutations after a transition of the selected ones. -/
def moveMutations (mutations : Table Mutation) (p : Mutation → Bool) (toState : MutationState) : Table Mutation :=
  mutations.update p fun m => { m with state := m.state.attempt toState }

theorem lookup_moveMutations (t : Table Mutation) (p : Mutation → Bool) (toState : MutationState) (id : String) :
    (moveMutations t p toState).lookup id =
      (t.lookup id).map fun m => if p m then { m with state := m.state.attempt toState } else m :=
  Table.lookup_update _ _ _ _ _

theorem moveMutations_eq_self {t : Table Mutation} {p : Mutation → Bool} {toState : MutationState}
    (h : ∀ m ∈ t.rows, p m = true → m.state.attempt toState = m.state) : moveMutations t p toState = t := by
  apply Table.ext
  show t.rows.map _ = t.rows
  conv_rhs => rw [← List.map_id t.rows]
  refine List.map_congr_left fun m hm => ?_
  by_cases hp : p m = true
  · simp [hp, h m hm hp]
  · simp [hp]

/-- Two moves to the same state are one move of both selections. -/
theorem moveMutations_moveMutations (t : Table Mutation) (p q : Mutation → Bool) (toState : MutationState)
    (hq : ∀ m s, q { m with state := s } = q m) :
    moveMutations (moveMutations t p toState) q toState = moveMutations t (fun m => p m || q m) toState := by
  apply Table.ext
  show (t.rows.map _).map _ = t.rows.map _
  rw [List.map_map]
  refine List.map_congr_left fun m _ => ?_
  by_cases hp : p m = true <;> by_cases hqm : q m = true <;> simp [hp, hqm, hq]

/-- The tables that a transition to `toState` may change: runs and mutations, and on a commit also
revisions and assertions. -/
structure Core.Unmoved (toState : MutationState) (c c' : Core) : Prop where
  documents : c'.documents = c.documents
  chunks : c'.chunks = c.chunks
  links : c'.links = c.links
  revisions : toState ≠ .committed → c'.revisions = c.revisions
  assertions : toState ≠ .committed → c'.assertions = c.assertions

theorem Core.Unmoved.refl (toState : MutationState) (c : Core) : c.Unmoved toState c :=
  ⟨rfl, rfl, rfl, fun _ => rfl, fun _ => rfl⟩

theorem Core.Unmoved.trans {toState : MutationState} {a b c : Core} (h₁ : a.Unmoved toState b)
    (h₂ : b.Unmoved toState c) : a.Unmoved toState c :=
  ⟨h₂.documents.trans h₁.documents, h₂.chunks.trans h₁.chunks, h₂.links.trans h₁.links,
    fun h => (h₂.revisions h).trans (h₁.revisions h), fun h => (h₂.assertions h).trans (h₁.assertions h)⟩

/-- The specification of `transitionMemoryMutation`: the mutation attempts the new state, the
answer says whether it got there, and only the tables of `Core.Unmoved` move. -/
theorem transitionMemoryMutation_spec {c c' : Core} {id : String} {toState : MutationState} {b : Bool}
    (h : transitionMemoryMutation c id toState = .ok (c', b)) :
    c'.mutations = moveMutations c.mutations (fun m => m.mutationId = id) toState ∧
      c.Unmoved toState c' ∧ ∃ m, c.mutations.lookup id = some m ∧ b = decide (m.state.attempt toState = toState) := by
  obtain ⟨m, hm, hc⟩ := transitionMemoryMutation_cases h
  -- the rows selected by the id are the row found under it
  have hrow : ∀ x ∈ c.mutations.rows, decide (x.mutationId = id) = true → x = m := by
    intro x hx hid
    have hx' : c.mutations.lookup id = some x := Table.lookup_eq_some.2 ⟨hx, of_decide_eq_true hid⟩
    rw [hm] at hx'; cases hx'; rfl
  rcases hc with ⟨hs, hb, rfl⟩ | ⟨hs, hnext, hb, rfl⟩ | ⟨hs, hnext, hb, moved, rb, hmoved, -, hact⟩
  · refine ⟨(moveMutations_eq_self fun x hx hid => ?_).symm, .refl _ _, m, hm, by simp [hb, hs]⟩
    rw [hrow x hx hid, hs, MutationState.attempt_self]
  · refine ⟨(moveMutations_eq_self fun x hx hid => ?_).symm, .refl _ _, m, hm, ?_⟩
    · rw [hrow x hx hid, MutationState.attempt, if_neg hnext]
    · simp [hb, MutationState.attempt, hnext, hs]
  · have hmut : moved.mutations = moveMutations c.mutations (fun m => m.mutationId = id) toState := by
      rw [hmoved]
      apply Table.ext
      show c.mutations.rows.map _ = c.mutations.rows.map _
      refine List.map_congr_left fun x hx => ?_
      by_cases hid : decide (x.mutationId = id) = true
      · simp only [hid, ↓reduceIte]
        rw [hrow x hx hid, MutationState.attempt, if_pos hnext]
      · simp only [hid, Bool.false_eq_true, ↓reduceIte]
    have hframe : c.Unmoved toState moved := by rw [hmoved]; exact ⟨rfl, rfl, rfl, fun _ => rfl, fun _ => rfl⟩
    refine ⟨?_, ?_, m, hm, by simp [hb, MutationState.attempt, hnext]⟩
    · split at hact
      · rw [(activateCommittedRevision_frame hact).mutations, hmut]
      · rw [hact, hmut]
    · split at hact
      · next hcom =>
        have hf := activateCommittedRevision_frame hact
        exact ⟨hf.documents.trans hframe.documents, hf.chunks.trans hframe.chunks, hf.links.trans hframe.links,
          fun hne => absurd hcom hne, fun hne => absurd hcom hne⟩
      · rw [hact]; exact hframe

/-! ## Transitions in a loop -/

/-- The loop that moves a list of mutations to one state. -/
def moveAll (c : Core) (ids : List String) (toState : MutationState) : Except DaoError Core :=
  foldOk (fun c m => do
    let (c, _) ← transitionMemoryMutation c m toState
    pure c) c ids

theorem moveAll_spec {toState : MutationState} : ∀ {ids : List String} {c c' : Core},
    moveAll c ids toState = .ok c' →
      c'.mutations = moveMutations c.mutations (fun m => m.mutationId ∈ ids) toState ∧ c.Unmoved toState c'
  | [], c, c', h => by
    cases h
    exact ⟨(moveMutations_eq_self fun m _ hp => by simp at hp).symm, .refl _ _⟩
  | id :: ids, c, c', h => by
    obtain ⟨d, hd, hrest⟩ := foldOk_cons_eq_ok.1 h
    obtain ⟨⟨d', b⟩, ht, hp⟩ := bind_eq_ok.1 hd
    cases pure_eq_ok.1 hp
    obtain ⟨hm₁, hf₁, -⟩ := transitionMemoryMutation_spec ht
    obtain ⟨hm₂, hf₂⟩ := moveAll_spec hrest
    refine ⟨?_, hf₁.trans hf₂⟩
    rw [hm₂, hm₁, moveMutations_moveMutations _ _ _ _ fun _ _ => rfl]
    congr 1
    funext m
    simp

/-- The mutations selected by the ids of a run's children are the children. -/
theorem mem_childIds_iff {c : Core} {id : String} {m : Mutation} (hm : m ∈ c.mutations.rows) :
    m.mutationId ∈ (c.children id).map (·.mutationId) ↔ m.pipelineRunId = id := by
  constructor
  · intro h
    obtain ⟨x, hx, hid⟩ := List.mem_map.1 h
    have hx' := Table.mem_select.1 hx
    have : x = m := Table.eq_of_key_eq hx'.1 hm hid
    rw [← this]; exact of_decide_eq_true hx'.2
  · intro h
    exact List.mem_map.2 ⟨m, Table.mem_select.2 ⟨hm, by simpa using h⟩, rfl⟩

theorem transitionPipelineMutations_spec {c c' : Core} {id : String} {toState : MutationState}
    (h : transitionPipelineMutations c id toState = .ok c') :
    c'.mutations = moveMutations c.mutations (fun m => m.pipelineRunId = id) toState ∧ c.Unmoved toState c' := by
  obtain ⟨hm, hf⟩ := moveAll_spec h
  refine ⟨?_, hf⟩
  rw [hm]
  apply Table.ext
  show c.mutations.rows.map _ = c.mutations.rows.map _
  refine List.map_congr_left fun m hmem => ?_
  by_cases hp : m.pipelineRunId = id
  · rw [if_pos (decide_eq_true ((mem_childIds_iff hmem).2 hp)), if_pos (decide_eq_true hp)]
  · rw [if_neg fun h => hp ((mem_childIds_iff hmem).1 (of_decide_eq_true h)),
      if_neg fun h => hp (of_decide_eq_true h)]

/-! ## Transitions that do not commit never raise -/

theorem transitionPipelineRun_total {runs : Table PipelineRun} {id : String} (h : runs.lookup id ≠ none)
    (toState : PipelineState) : ∃ runs' b, transitionPipelineRun runs id toState = .ok (runs', b) := by
  obtain ⟨row, hrow⟩ := Option.ne_none_iff_exists'.1 h
  unfold transitionPipelineRun
  rw [hrow]
  simp only
  split
  · exact ⟨_, _, rfl⟩
  · split <;> exact ⟨_, _, rfl⟩

/-- A run transition keeps every run. -/
theorem RunsMoved.lookup_ne_none {id k : String} {f : PipelineState → PipelineState} {a b : Table PipelineRun}
    (h : RunsMoved id f a b) : b.lookup k ≠ none ↔ a.lookup k ≠ none := by
  rw [h k, Ne, Option.map_eq_none_iff]

theorem recomputePipelineState_total (mutations : Table Mutation) {runs : Table PipelineRun} {id : String}
    (h : runs.lookup id ≠ none) : ∃ runs' b, recomputePipelineState mutations runs id = .ok (runs', b) := by
  obtain ⟨row, hrow⟩ := Option.ne_none_iff_exists'.1 h
  unfold recomputePipelineState
  simp only [hrow]
  split
  · exact ⟨_, _, rfl⟩
  · split
    · obtain ⟨r₁, b₁, h₁⟩ := transitionPipelineRun_total h .running
      have hr₁ : r₁.lookup id ≠ none := (transitionPipelineRun_moved h₁).1.lookup_ne_none.2 h
      rw [h₁]
      cases b₁ with
      | false => exact ⟨_, _, rfl⟩
      | true => exact transitionPipelineRun_total hr₁ _
    · exact transitionPipelineRun_total h _

/-- A transition keeps every run. -/
theorem transitionMemoryMutation_runs {c c' : Core} {id : String} {s : MutationState} {b : Bool}
    (h : transitionMemoryMutation c id s = .ok (c', b)) (k : String) :
    c'.runs.lookup k ≠ none ↔ c.runs.lookup k ≠ none := by
  obtain ⟨m, -, ⟨-, -, rfl⟩ | ⟨-, -, -, rfl⟩ | ⟨-, -, -, moved, rb, -, hre, hif⟩⟩ := transitionMemoryMutation_cases h
  · exact Iff.rfl
  · exact Iff.rfl
  · have hmoved : c'.runs = moved.runs := by
      split at hif
      · exact (activateCommittedRevision_frame hif).runs
      · rw [hif]
    rw [hmoved]
    exact (recomputePipelineState_moved hre).lookup_ne_none

theorem moveAll_runs {s : MutationState} : ∀ {ids : List String} {c c' : Core}, moveAll c ids s = .ok c' →
    ∀ k, c'.runs.lookup k ≠ none ↔ c.runs.lookup k ≠ none
  | [], c, c', h, _ => by cases h; exact Iff.rfl
  | id :: ids, c, c', h, k => by
    obtain ⟨d, hd, hrest⟩ := foldOk_cons_eq_ok.1 h
    obtain ⟨⟨d', b⟩, ht, hp⟩ := bind_eq_ok.1 hd
    cases pure_eq_ok.1 hp
    exact (moveAll_runs hrest k).trans (transitionMemoryMutation_runs ht k)

theorem transitionMemoryMutation_total {c : Core} {id : String} {m : Mutation} {toState : MutationState}
    (hm : c.mutations.lookup id = some m) (hr : c.runs.lookup m.pipelineRunId ≠ none) (hs : toState ≠ .committed) :
    ∃ c' b, transitionMemoryMutation c id toState = .ok (c', b) := by
  unfold transitionMemoryMutation
  simp only [hm, if_neg hs]
  split
  · exact ⟨_, _, rfl⟩
  · split
    · obtain ⟨runs', b, h⟩ := recomputePipelineState_total (setMutationStates c.mutations id toState) hr
      rw [h]
      exact ⟨_, _, rfl⟩
    · exact ⟨_, _, rfl⟩

theorem moveAll_total {toState : MutationState} (hs : toState ≠ .committed) : ∀ {ids : List String} {c : Core},
    (∀ id ∈ ids, ∃ m, c.mutations.lookup id = some m ∧ c.runs.lookup m.pipelineRunId ≠ none) →
      ∃ c', moveAll c ids toState = .ok c'
  | [], c, _ => ⟨c, rfl⟩
  | id :: ids, c, h => by
    obtain ⟨m, hm, hr⟩ := h id List.mem_cons_self
    obtain ⟨d, b, hd⟩ := transitionMemoryMutation_total hm hr hs
    have hruns := transitionMemoryMutation_runs hd
    have hmut := (transitionMemoryMutation_spec hd).1
    have hrest : ∀ k ∈ ids, ∃ m, d.mutations.lookup k = some m ∧ d.runs.lookup m.pipelineRunId ≠ none := by
      intro k hk
      obtain ⟨x, hx, hxr⟩ := h k (List.mem_cons_of_mem _ hk)
      refine ⟨_, by rw [hmut, lookup_moveMutations, hx]; rfl, (hruns _).2 ?_⟩
      beta_reduce
      split <;> exact hxr
    obtain ⟨c', hc'⟩ := moveAll_total hs hrest
    exact ⟨c', foldOk_cons_eq_ok.2 ⟨d, by rw [hd]; rfl, hc'⟩⟩

theorem transitionPipelineMutations_runs {c c' : Core} {id : String} {s : MutationState}
    (h : transitionPipelineMutations c id s = .ok c') (k : String) :
    c'.runs.lookup k ≠ none ↔ c.runs.lookup k ≠ none :=
  moveAll_runs h k

/-- The children of a run that exists can be moved to any state but COMMITTED. -/
theorem transitionPipelineMutations_total {c : Core} {id : String} {toState : MutationState}
    (hr : c.runs.lookup id ≠ none) (hs : toState ≠ .committed) :
    ∃ c', transitionPipelineMutations c id toState = .ok c' := by
  refine moveAll_total hs fun k hk => ?_
  obtain ⟨m, hm, rfl⟩ := List.mem_map.1 hk
  obtain ⟨hrow, hid⟩ := Table.mem_select.1 hm
  exact ⟨m, Table.lookup_of_mem hrow, by rw [of_decide_eq_true hid]; exact hr⟩

end Mesa.Ledger
