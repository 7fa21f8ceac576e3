/-
The advance of a mutation over its finished lanes, as a function of its state alone, and the
outcomes of completing and failing a lane.
-/
import Mesa.Ledger.Moves
import Mesa.Ledger.Outbox

namespace Mesa.Ledger

open Mesa.Foundation

/-! ## Climbing milestones -/

/-- The state a climb over the milestones above `index` ends in, and whether no step was refused. -/
def climbState : MutationState → Int → List MutationState → MutationState × Bool
  | s, _, [] => (s, true)
  | s, index, t :: rest =>
    if t.lifecycleOrder ≤ index then climbState s index rest
    else if s.attempt t = t then climbState t t.lifecycleOrder rest
    else (s, false)

/-- The tables an advance may change besides the mutation's own state. -/
structure Core.Climbed (ms : List MutationState) (c c' : Core) : Prop where
  documents : c'.documents = c.documents
  chunks : c'.chunks = c.chunks
  links : c'.links = c.links
  revisions : .committed ∉ ms → c'.revisions = c.revisions
  assertions : .committed ∉ ms → c'.assertions = c.assertions

theorem setMutationStates_self {t : Table Mutation} {id : String} {m : Mutation} (hm : t.lookup id = some m) :
    setMutationStates t id m.state = t := by
  apply Table.ext
  show t.rows.map _ = t.rows
  conv_rhs => rw [← List.map_id t.rows]
  refine List.map_congr_left fun x hx => ?_
  by_cases hid : x.mutationId = id
  · have hx' : t.lookup id = some x := Table.lookup_eq_some.2 ⟨hx, hid⟩
    rw [hm] at hx'; cases hx'; simp
  · simp [hid]

theorem setMutationStates_setMutationStates (t : Table Mutation) (id : String) (s s' : MutationState) :
    setMutationStates (setMutationStates t id s) id s' = setMutationStates t id s' := by
  apply Table.ext
  show (t.rows.map _).map _ = t.rows.map _
  rw [List.map_map]
  refine List.map_congr_left fun x _ => ?_
  by_cases hid : x.mutationId = id <;> simp [hid]

theorem moveMutations_eq_set {t : Table Mutation} {id : String} {m : Mutation} (hm : t.lookup id = some m)
    (toState : MutationState) :
    moveMutations t (fun x => x.mutationId = id) toState = setMutationStates t id (m.state.attempt toState) := by
  apply Table.ext
  show t.rows.map _ = t.rows.map _
  refine List.map_congr_left fun x hx => ?_
  by_cases hid : x.mutationId = id
  · have hx' : t.lookup id = some x := Table.lookup_eq_some.2 ⟨hx, hid⟩
    rw [hm] at hx'; cases hx'; simp
  · simp [hid]

theorem lookup_setMutationStates {t : Table Mutation} {id : String} {m : Mutation} (hm : t.lookup id = some m)
    (s : MutationState) : (setMutationStates t id s).lookup id = some { m with state := s } := by
  rw [setMutationStates, Table.lookup_update, hm]
  have hid : m.mutationId = id := Table.lookup_key hm
  simp [hid]

/-- Whether or not a transition to `t` succeeds, the mutation ends in `s.attempt t`. -/
theorem transitionMemoryMutation_set {c c' : Core} {id : String} {m : Mutation} {toState : MutationState} {b : Bool}
    (hm : c.mutations.lookup id = some m) (h : transitionMemoryMutation c id toState = .ok (c', b)) :
    c'.mutations = setMutationStates c.mutations id (m.state.attempt toState) ∧
      b = decide (m.state.attempt toState = toState) ∧ c.Unmoved toState c' := by
  obtain ⟨hmut, hf, m', hm', hb⟩ := transitionMemoryMutation_spec h
  rw [hm] at hm'; cases hm'
  exact ⟨hmut.trans (moveMutations_eq_set hm _), hb, hf⟩

theorem climbMilestones_spec {id : String} : ∀ {ms : List MutationState} {c c' : Core} {m : Mutation} {index : Int}
    {b : Bool}, c.mutations.lookup id = some m → climbMilestones id c index ms = .ok (c', b) →
      c'.mutations = setMutationStates c.mutations id (climbState m.state index ms).1 ∧
        b = (climbState m.state index ms).2 ∧ c.Climbed ms c'
  | [], c, c', m, index, b, hm, h => by
    cases h
    exact ⟨(setMutationStates_self hm).symm, rfl, rfl, rfl, rfl, fun _ => rfl, fun _ => rfl⟩
  | t :: rest, c, c', m, index, b, hm, h => by
    unfold climbMilestones at h
    unfold climbState
    split at h
    · next hle =>
      rw [if_pos hle]
      obtain ⟨h₁, h₂, hf⟩ := climbMilestones_spec hm h
      exact ⟨h₁, h₂, hf.documents, hf.chunks, hf.links, fun hc => hf.revisions fun hr => hc (List.mem_cons_of_mem _ hr),
        fun hc => hf.assertions fun hr => hc (List.mem_cons_of_mem _ hr)⟩
    · next hle =>
      rw [if_neg hle]
      obtain ⟨⟨d, moved⟩, ht, h⟩ := bind_eq_ok.1 h
      obtain ⟨hset, hmoved, hu⟩ := transitionMemoryMutation_set hm ht
      have hne : MutationState.committed ∉ t :: rest → t ≠ .committed := by
        intro hc he; exact hc (by rw [he]; exact List.mem_cons_self)
      by_cases hat : m.state.attempt t = t
      · rw [if_pos hat]
        rw [decide_eq_true hat] at hmoved
        subst hmoved
        simp only [↓reduceIte] at h
        rw [hat] at hset
        have hd : d.mutations.lookup id = some { m with state := t } := by
          rw [hset]; exact lookup_setMutationStates hm t
        obtain ⟨h₁, h₂, hf⟩ := climbMilestones_spec hd h
        refine ⟨?_, h₂, hf.documents.trans hu.documents, hf.chunks.trans hu.chunks, hf.links.trans hu.links,
          fun hc => ?_, fun hc => ?_⟩
        · rw [h₁, hset, setMutationStates_setMutationStates]
        · exact (hf.revisions fun hr => hc (List.mem_cons_of_mem _ hr)).trans (hu.revisions (hne hc))
        · exact (hf.assertions fun hr => hc (List.mem_cons_of_mem _ hr)).trans (hu.assertions (hne hc))
      · rw [if_neg hat]
        rw [decide_eq_false hat] at hmoved
        subst hmoved
        simp only [Bool.false_eq_true, ↓reduceIte] at h
        cases pure_eq_ok.1 h
        have hstay : m.state.attempt t = m.state := by
          unfold MutationState.attempt at hat ⊢
          split
          · next hn => rw [if_pos hn] at hat; exact absurd rfl hat
          · rfl
        rw [hstay] at hset
        exact ⟨hset, rfl, hu.documents, hu.chunks, hu.links, fun hc => hu.revisions (hne hc),
          fun hc => hu.assertions (hne hc)⟩

/-! ## Advancing -/

/-- The state an unfenced mutation advances to over its milestones. -/
def advancedState (s : MutationState) (ms : List MutationState) : MutationState :=
  if ms = [] then s
  else if s = .retryPending then (climbState .pending (-1) ms).1
  else (climbState s s.lifecycleOrder ms).1

/-- The mutation is in a state, or in a run, that the advance refuses to touch. -/
def Core.advanceFenced (c : Core) (m : Mutation) : Bool :=
  m.state.fenced || (c.pipelineState m.pipelineRunId).any PipelineState.fenced

/-- The state after an advance, fenced or not. -/
def Core.advanced (c : Core) (m : Mutation) (ms : List MutationState) : MutationState :=
  if c.advanceFenced m then m.state else advancedState m.state ms

theorem advanceMutationProjectionState_spec {c c' : Core} {outbox : Table Projection} {id : String} {m : Mutation}
    (hm : c.mutations.lookup id = some m) (h : advanceMutationProjectionState c outbox id = .ok c') :
    c'.mutations = setMutationStates c.mutations id (c.advanced m (milestones outbox id)) ∧
      c.Climbed (milestones outbox id) c' := by
  unfold advanceMutationProjectionState at h
  rw [hm] at h
  simp only at h
  unfold Core.advanced Core.advanceFenced advancedState
  split at h
  · next hf =>
    cases h
    rw [if_pos hf]
    exact ⟨(setMutationStates_self hm).symm, rfl, rfl, rfl, fun _ => rfl, fun _ => rfl⟩
  · next hf =>
    rw [if_neg hf]
    split at h
    · next hnil =>
      cases h
      rw [if_pos hnil]
      exact ⟨(setMutationStates_self hm).symm, rfl, rfl, rfl, fun _ => rfl, fun _ => rfl⟩
    · next hnil =>
      rw [if_neg hnil]
      obtain ⟨⟨d, re⟩, hre, h⟩ := bind_eq_ok.1 h
      -- the state the climb starts from, and how the first step got there
      have hstart : re = true ∧
          d.mutations = setMutationStates c.mutations id
            (if m.state = .retryPending then .pending else m.state) ∧ c.Unmoved .pending d := by
        have hid : m.mutationId = id := Table.lookup_key hm
        unfold reenterLifecycle at hre
        rw [hid] at hre
        split at hre
        · next hs =>
          obtain ⟨hset, hb, hu⟩ := transitionMemoryMutation_set hm hre
          rw [hs] at hset hb
          exact ⟨hb.trans (by decide), by rw [if_pos hs]; exact hset, hu⟩
        · next hs =>
          cases hre
          exact ⟨rfl, by rw [if_neg hs]; exact (setMutationStates_self hm).symm, .refl _ _⟩
      obtain ⟨rfl, hd, hu⟩ := hstart
      simp only [not_true_eq_false, ↓reduceIte] at h
      obtain ⟨⟨e, fin⟩, hclimb, h⟩ := bind_eq_ok.1 h
      have hdm : d.mutations.lookup id =
          some { m with state := if m.state = .retryPending then .pending else m.state } := by
        rw [hd]; exact lookup_setMutationStates hm _
      obtain ⟨he, -, hf⟩ := climbMilestones_spec hdm hclimb
      have hcl : c.Climbed (milestones outbox id) e :=
        ⟨hf.documents.trans hu.documents, hf.chunks.trans hu.chunks, hf.links.trans hu.links,
          fun hc => (hf.revisions hc).trans (hu.revisions (by decide)),
          fun hc => (hf.assertions hc).trans (hu.assertions (by decide))⟩
      have hset : e.mutations = setMutationStates c.mutations id
          (if m.state = .retryPending then (climbState .pending (-1) (milestones outbox id)).1
            else (climbState m.state m.state.lifecycleOrder (milestones outbox id)).1) := by
        rw [he, hd, setMutationStates_setMutationStates]
        by_cases hs : m.state = .retryPending <;> simp [hs]
      split at h
      · cases pure_eq_ok.1 h; exact ⟨hset, hcl⟩
      · obtain ⟨⟨runs, rb⟩, -, h⟩ := bind_eq_ok.1 h
        cases pure_eq_ok.1 h
        exact ⟨hset, hcl.documents, hcl.chunks, hcl.links, hcl.revisions, hcl.assertions⟩

end Mesa.Ledger
