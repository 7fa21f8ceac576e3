/-
What the commit of a mutation activates, row by row: the assertions its links supersede, the
predecessor revision with its assertions, and the new head. The last section says which operations
commit a run, and that every other one leaves no run newly COMMITTED.
-/
import Mesa.Ledger.Progress
import Mesa.Ledger.Restore

namespace Mesa.Ledger

open Mesa.Foundation

/-! ## Firing links -/

/-- The links a mutation wrote, as targets with the `valid_from` of their source assertion. -/
def firedLinks (links : Table AssertionLink) (assertions : Table Assertion) (mutationId : String) :
    List (String × String) :=
  (links.select fun l => l.mutationId = mutationId).filterMap fun l =>
    (assertions.lookup l.sourceAssertionId).map fun source => (l.targetAssertionId, source.validFrom)

/-- The `valid_from` of the first link of the mutation to an assertion. -/
def firedFrom (c : Core) (mutationId assertionId : String) : Option String :=
  ((firedLinks c.links c.assertions mutationId).find? fun t => t.1 = assertionId).map (·.2)

/-- What superseding an assertion from a date on makes of it. -/
def supersedeFrom (validFrom : Option String) (a : Assertion) : Assertion :=
  match validFrom with
  | some v => if a.status = .active then { a with status := .superseded, validTo := closeValidity v a.validTo } else a
  | none => a

theorem supersedeFrom_scope (v : Option String) (a : Assertion) :
    (supersedeFrom v a).toAssertionScope = a.toAssertionScope := by
  cases v with
  | none => rfl
  | some v => unfold supersedeFrom; simp only; split <;> rfl

/-- A second supersession finds nothing active. -/
theorem supersedeFrom_supersedeFrom (v w : Option String) (a : Assertion) :
    supersedeFrom w (supersedeFrom v a) = supersedeFrom (v.or w) a := by
  cases v with
  | none => rfl
  | some v =>
    rw [Option.some_or]
    by_cases ha : a.status = .active
    · cases w <;> simp [supersedeFrom, ha]
    · cases w <;> simp [supersedeFrom, ha]

/-- The loop over the links of a mutation. -/
def fire (assertions : Table Assertion) (targets : List (String × String)) : Table Assertion :=
  targets.foldl
    (fun as (target, sourceValidFrom) =>
      as.update (fun a => a.assertionId = target ∧ a.status = .active) fun a =>
        { a with status := .superseded, validTo := closeValidity sourceValidFrom a.validTo })
    assertions

theorem lookup_fire : ∀ (targets : List (String × String)) (t : Table Assertion) (k : String),
    (fire t targets).lookup k =
      (t.lookup k).map (supersedeFrom ((targets.find? fun x => x.1 = k).map (·.2)))
  | [], t, k => by
    rw [show fire t [] = t from rfl, List.find?_nil, Option.map_none]
    exact Option.map_id'.symm
  | (target, v) :: rest, t, k => by
    rw [show fire t ((target, v) :: rest) = fire _ rest from rfl, lookup_fire rest, Table.lookup_update]
    cases ht : t.lookup k with
    | none => rfl
    | some a =>
      have hid : a.assertionId = k := Table.lookup_key ht
      rw [Option.map_some, Option.map_some, Option.map_some, List.find?_cons]
      by_cases hk : target = k
      · -- the first link wins: the target is no longer active for the later ones
        by_cases ha : a.status = .active
        · cases hr : (rest.find? fun x => x.1 = k).map (·.2) <;> simp [supersedeFrom, hid, hk, ha]
        · cases hr : (rest.find? fun x => x.1 = k).map (·.2) <;> simp [supersedeFrom, hk, ha]
      · have hk' : ¬ k = target := fun h => hk h.symm
        simp [hid, hk, hk']

theorem lookup_activateAssertionSupersessionLinks (c : Core) (id k : String) :
    (activateAssertionSupersessionLinks c.links c.assertions id).lookup k =
      (c.assertions.lookup k).map (supersedeFrom (firedFrom c id k)) :=
  lookup_fire _ _ _

/-! ## Activating a revision -/

/-- The `valid_from` of the first committed mutation of a revision. -/
def headValidFrom (c : Core) (revisionId : String) : String :=
  match (c.mutations.select fun m => m.revisionId = revisionId ∧ m.state = .committed).head? with
  | some m => m.metadataValidFrom
  | none => ""

/-- The date from which the activation of a revision supersedes an assertion of its predecessor. -/
def supersededFrom (c : Core) (rev : Revision) (a : Assertion) : Option String :=
  if a.tenantId = rev.tenantId ∧ rev.supersedesRevisionId = some a.revisionId then
    some (headValidFrom c rev.revisionId) else none

/-- A new head: the predecessor it names was the head, and is superseded with its assertions. -/
structure NewHead (c : Core) (rev : Revision) (c' : Core) : Prop where
  predecessor : ∀ p, rev.supersedesRevisionId = some p →
    ∃ row, c.revisions.lookup p = some row ∧ row.status = .active ∧ row.documentId = rev.documentId
  revisions : ∀ k, c'.revisions.lookup k = (c.revisions.lookup k).map fun r =>
    if rev.supersedesRevisionId = some k then { r with status := .superseded }
    else if k = rev.revisionId then { r with status := .active } else r
  assertions : ∀ k, c'.assertions.lookup k =
    (c.assertions.lookup k).map fun a => supersedeFrom (supersededFrom c rev a) a

theorem supersedeHead_spec {c c' : Core} {rev : Revision} {p : String}
    (hrev : c.revisions.lookup rev.revisionId = some rev) (hpend : rev.status = .pending)
    (hp : rev.supersedesRevisionId = some p) (h : supersedeHead c rev p = .ok c') : NewHead c rev c' := by
  unfold supersedeHead at h
  simp only at h
  split at h
  · cases h
  · next hactive =>
    split at h
    · cases h
    · next hhead =>
      split at h
      · cases h
      · obtain ⟨revisions, hact, h⟩ := bind_eq_ok.1 h
        obtain ⟨rfl, -⟩ := activateRevisions_eq_ok.1 hact
        cases pure_eq_ok.1 h
        -- the predecessor is the one row that both checks found
        obtain ⟨row, hrow, hrowp⟩ := Table.anyWhere_iff.1 (not_not.1 hhead)
        simp only [Bool.and_eq_true, decide_eq_true_eq] at hrowp
        obtain ⟨⟨hid, hdoc⟩, hst⟩ := hrowp
        have hlook : c.revisions.lookup p = some row := Table.lookup_eq_some.2 ⟨hrow, hid⟩
        refine ⟨fun p' hp' => ?_, fun k => ?_, fun k => ?_⟩
        · rw [hp] at hp'; cases hp'
          exact ⟨row, hlook, hst, hdoc⟩
        · rw [Table.lookup_update, Table.lookup_update]
          cases hk : c.revisions.lookup k with
          | none => rfl
          | some r =>
            have hrk : r.revisionId = k := Table.lookup_key hk
            rw [Option.map_some, Option.map_some, Option.map_some, hp]
            by_cases hkp : p = k
            · subst hkp
              rw [hlook] at hk; cases hk
              simp [hid, hdoc, hst]
            · have hkp' : ¬ k = p := fun he => hkp he.symm
              by_cases hkr : k = rev.revisionId
              · subst hkr
                rw [hrev] at hk; cases hk
                simp [hkp, hkp', hpend]
              · simp [hrk, hkp, hkp', hkr]
        · rw [Table.lookup_update]
          cases hk : c.assertions.lookup k with
          | none => rfl
          | some a =>
            rw [Option.map_some, Option.map_some, supersededFrom, hp]
            show some (if _ then { a with
              status := .superseded
              validTo := closeValidity (headValidFrom c rev.revisionId) a.validTo } else a) = _
            by_cases hr : a.revisionId = p
            · by_cases ht : a.tenantId = rev.tenantId <;> by_cases ha : a.status = .active <;>
                simp [supersedeFrom, ht, hr, ha]
            · have hr' : ¬ p = a.revisionId := fun he => hr he.symm
              simp [supersedeFrom, hr, hr']

theorem activateFirstHead_spec {c c' : Core} {rev : Revision}
    (hrev : c.revisions.lookup rev.revisionId = some rev) (hpend : rev.status = .pending)
    (hp : rev.supersedesRevisionId = none) (h : activateFirstHead c rev = .ok c') : NewHead c rev c' := by
  unfold activateFirstHead at h
  split at h
  · cases h
  · obtain ⟨revisions, hact, h⟩ := bind_eq_ok.1 h
    obtain ⟨rfl, -⟩ := activateRevisions_eq_ok.1 hact
    cases pure_eq_ok.1 h
    refine ⟨fun p hp' => (by rw [hp] at hp'; cases hp'), fun k => ?_, fun k => ?_⟩
    · rw [Table.lookup_update]
      cases hk : c.revisions.lookup k with
      | none => rfl
      | some r =>
        have hrk : r.revisionId = k := Table.lookup_key hk
        rw [Option.map_some, Option.map_some, hp]
        by_cases hkr : k = rev.revisionId
        · subst hkr
          rw [hrev] at hk; cases hk
          simp [hpend]
        · simp [hrk, hkr]
    · cases hk : c.assertions.lookup k with
      | none => rfl
      | some a => simp [supersededFrom, hp, supersedeFrom]

/-- Reconciling leaves everything alone, or makes a complete pending revision the head. -/
theorem reconcileRevisionActivation_cases {c c' : Core} {id : String}
    (h : reconcileRevisionActivation c id = .ok c') :
    c' = c ∨ ∃ rev, c.revisions.lookup id = some rev ∧ rev.status = .pending ∧ revisionComplete c id = true ∧
      NewHead c rev c' := by
  unfold reconcileRevisionActivation at h
  cases hrev : c.revisions.lookup id with
  | none => rw [hrev] at h; cases h; exact Or.inl rfl
  | some rev =>
    have hid : rev.revisionId = id := Table.lookup_key hrev
    rw [hrev] at h
    simp only at h
    split at h
    · cases h; exact Or.inl rfl
    · next hpend =>
      have hpend := not_not.1 hpend
      split at h
      · cases h; exact Or.inl rfl
      · split at h
        · cases h; exact Or.inl rfl
        · next hc =>
          refine Or.inr ⟨rev, rfl, hpend, not_not.1 hc, ?_⟩
          have hrev' : c.revisions.lookup rev.revisionId = some rev := by rw [hid]; exact hrev
          split at h
          · next hp => exact supersedeHead_spec hrev' hpend hp h
          · next hp => exact activateFirstHead_spec hrev' hpend hp h

/-- A complete pending revision with a frozen manifest becomes the head. -/
theorem reconcileRevisionActivation_newHead {c c' : Core} {id : String} {rev : Revision}
    (hrev : c.revisions.lookup id = some rev) (hpend : rev.status = .pending) (hhash : rev.manifestHash ≠ "")
    (hfrozen : rev.manifestFrozen = true) (hc : revisionComplete c id = true)
    (h : reconcileRevisionActivation c id = .ok c') : NewHead c rev c' := by
  have hid : rev.revisionId = id := Table.lookup_key hrev
  have hrev' : c.revisions.lookup rev.revisionId = some rev := by rw [hid]; exact hrev
  unfold reconcileRevisionActivation at h
  rw [hrev] at h
  simp only [hpend, hhash, hfrozen, hc, ne_eq, not_true_eq_false, Bool.true_eq_false, or_self, ↓reduceIte] at h
  split at h
  · next hp => exact supersedeHead_spec hrev' hpend hp h
  · next hp => exact activateFirstHead_spec hrev' hpend hp h

/-! ## Committing a mutation -/

/-- The links of a mutation fire when its run is committed with it, or unknown. -/
def firedAt (c : Core) (m : Mutation) (run : Option PipelineState) (assertionId : String) : Option String :=
  if run = none ∨ run = some .committed then firedFrom c m.mutationId assertionId else none

/-- The commit of a mutation: its links fire, and its revision is reconciled. -/
structure Commits (c : Core) (m : Mutation) (c' : Core) : Prop where
  row : c.mutations.lookup m.mutationId = some m
  mutations : c'.mutations = setMutationStates c.mutations m.mutationId .committed
  documents : c'.documents = c.documents
  chunks : c'.chunks = c.chunks
  links : c'.links = c.links
  runs : ∀ k, k ≠ m.pipelineRunId → c'.runs.lookup k = c.runs.lookup k
  /-- Recomputing the run again changes nothing. -/
  settled : (c'.pipelineState m.pipelineRunId).map (recomputedState (childStates c'.mutations m.pipelineRunId)) =
    c'.pipelineState m.pipelineRunId
  commits : c'.pipelineState m.pipelineRunId = some .committed → c.pipelineState m.pipelineRunId = some .committed ∨
    m.state = .committed ∨ ∀ s ∈ childStates c'.mutations m.pipelineRunId, s = .committed
  activates : ∃ fired act : Core,
    fired = { c with mutations := c'.mutations, runs := fired.runs, assertions := fired.assertions } ∧
    (∀ k, fired.assertions.lookup k =
      (c.assertions.lookup k).map (supersedeFrom (firedAt c m (c'.pipelineState m.pipelineRunId) k))) ∧
    reconcileRevisionActivation fired m.revisionId = .ok act ∧
    c'.revisions = act.revisions ∧ c'.assertions = act.assertions

/-- A step that commits nothing: the mutation moves to a state, not newly COMMITTED, and at most its run
is recomputed. -/
structure Core.Passes (c : Core) (m : Mutation) (c' : Core) : Prop where
  mutations : ∃ s, c'.mutations = setMutationStates c.mutations m.mutationId s ∧ (s = .committed → m.state = .committed)
  documents : c'.documents = c.documents
  chunks : c'.chunks = c.chunks
  links : c'.links = c.links
  revisions : c'.revisions = c.revisions
  assertions : c'.assertions = c.assertions
  runs : ∀ k, k ≠ m.pipelineRunId → c'.runs.lookup k = c.runs.lookup k
  commits : c'.pipelineState m.pipelineRunId = some .committed →
    c.pipelineState m.pipelineRunId = some .committed ∨ m.state = .committed

theorem Core.Passes.refl {c : Core} {m : Mutation} (hm : c.mutations.lookup m.mutationId = some m) : c.Passes m c :=
  ⟨⟨m.state, (setMutationStates_self hm).symm, fun h => h⟩, rfl, rfl, rfl, rfl, rfl, fun _ _ => rfl, Or.inl⟩

variable {c d e : Core} {m : Mutation} {s : MutationState}

/-- The mutation as a passing step leaves it. -/
theorem Core.Passes.trans (h : c.Passes m d) (hs : d.mutations = setMutationStates c.mutations m.mutationId s)
    (hc : s = .committed → m.state = .committed) (h' : d.Passes { m with state := s } e) : c.Passes m e where
  mutations := by
    obtain ⟨s', he, hs'⟩ := h'.mutations
    exact ⟨s', by rw [he, hs, setMutationStates_setMutationStates], fun h => hc (hs' h)⟩
  documents := h'.documents.trans h.documents
  chunks := h'.chunks.trans h.chunks
  links := h'.links.trans h.links
  revisions := h'.revisions.trans h.revisions
  assertions := h'.assertions.trans h.assertions
  runs k hk := (h'.runs k hk).trans (h.runs k hk)
  commits he := (h'.commits he).elim h.commits fun hs => Or.inr (hc hs)

/-- A commit after a passing step is a commit. -/
theorem Core.Passes.then_commits (hm : c.mutations.lookup m.mutationId = some m) (h : c.Passes m d)
    (hs : d.mutations = setMutationStates c.mutations m.mutationId s) (hc : s = .committed → m.state = .committed)
    (h' : Commits d { m with state := s } e) : Commits c m e where
  row := hm
  mutations := by rw [h'.mutations, hs, setMutationStates_setMutationStates]
  documents := h'.documents.trans h.documents
  chunks := h'.chunks.trans h.chunks
  links := h'.links.trans h.links
  runs k hk := (h'.runs k hk).trans (h.runs k hk)
  settled := h'.settled
  commits he := by
    rcases h'.commits he with hd | hs | hall
    · exact (h.commits hd).imp_right Or.inl
    · exact Or.inr (Or.inl (hc hs))
    · exact Or.inr (Or.inr hall)
  activates := by
    obtain ⟨fired, act, hf, ha, hr, hrev, has⟩ := h'.activates
    refine ⟨fired, act, ?_, fun k => ?_, hr, hrev, has⟩
    · rw [h.documents, h.revisions, h.chunks, h.links] at hf; exact hf
    · rw [ha, h.assertions]
      unfold firedAt firedFrom
      rw [h.links, h.assertions]

theorem aggregateState_committed {l : List MutationState} (h : aggregateState l = .committed) :
    ∀ s ∈ l, s = .committed := by
  unfold aggregateState at h
  split at h
  · next hall => exact fun s hs => of_decide_eq_true (List.all_eq_true.1 hall s hs)
  · iterate 5
      split at h
      · cases h
    cases h

/-- A run is recomputed to COMMITTED only over committed children. -/
theorem recomputedState_committed {l : List MutationState} {s : PipelineState}
    (h : recomputedState l s = .committed) : s = .committed ∨ ∀ x ∈ l, x = .committed := by
  unfold recomputedState at h
  split at h
  · exact Or.inl h
  · by_cases ht : aggregateState l = .committed
    · exact Or.inr (aggregateState_committed ht)
    · refine Or.inl ?_
      revert h ht
      generalize aggregateState l = t
      intro h ht
      cases s <;> cases t <;> first | rfl | exact absurd rfl ht | exact absurd h (by decide)

/-- Recomputing a run twice over the same children is recomputing it once. -/
theorem recomputedState_idem (l : List MutationState) (s : PipelineState) :
    recomputedState l (recomputedState l s) = recomputedState l s := by
  unfold recomputedState
  split
  · rfl
  · generalize aggregateState l = t
    cases s <;> cases t <;> decide

/-- Recomputing the run of a mutation leaves every other run alone. -/
theorem Commits.recompute {runs : Table PipelineRun} {b : Bool} (h : Commits c m d)
    (hre : recomputePipelineState d.mutations d.runs m.pipelineRunId = .ok (runs, b)) :
    Commits c m { d with runs := runs } := by
  have hmoved := recomputePipelineState_moved hre
  have hstate : ({ d with runs := runs } : Core).pipelineState m.pipelineRunId = d.pipelineState m.pipelineRunId := by
    unfold Core.pipelineState
    rw [hmoved.state]
    exact h.settled
  refine ⟨h.row, h.mutations, h.documents, h.chunks, h.links, fun k hk => ?_, ?_, ?_, ?_⟩
  · exact (hmoved.state_of_ne hk).trans (h.runs k hk)
  · rw [hstate]; exact h.settled
  · rw [hstate]; exact h.commits
  · rw [hstate]; exact h.activates

theorem Core.Passes.recompute {runs : Table PipelineRun} {b : Bool} (h : c.Passes m d)
    (hm : c.mutations.lookup m.mutationId = some m)
    (hre : recomputePipelineState d.mutations d.runs m.pipelineRunId = .ok (runs, b)) :
    c.Passes m { d with runs := runs } := by
  have hmoved := recomputePipelineState_moved hre
  refine ⟨h.mutations, h.documents, h.chunks, h.links, h.revisions, h.assertions,
    fun k hk => (hmoved.state_of_ne hk).trans (h.runs k hk), fun hcom => ?_⟩
  unfold Core.pipelineState at hcom
  rw [hmoved.state] at hcom
  obtain ⟨x, hx, hxc⟩ := Option.map_eq_some_iff.1 hcom
  rcases recomputedState_committed hxc with rfl | hall
  · exact h.commits hx
  · -- the mutation is one of the children the run was recomputed over
    obtain ⟨s, hs, hsc⟩ := h.mutations
    have hrow : d.mutations.lookup m.mutationId = some { m with state := s } := by
      rw [hs]; exact lookup_setMutationStates hm s
    exact Or.inr (hsc (hall s (List.mem_map.2
      ⟨_, Table.mem_select.2 ⟨Table.lookup_mem hrow, decide_eq_true rfl⟩, rfl⟩)))

theorem activateCommittedRevision_cases {c c' : Core} {m : Mutation} (hm : c.mutations.lookup m.mutationId = some m)
    (h : activateCommittedRevision c m.mutationId = .ok c') : ∃ fired : Core,
      fired = { c with assertions := fired.assertions } ∧
      (∀ k, fired.assertions.lookup k =
        (c.assertions.lookup k).map (supersedeFrom (firedAt c m (c.pipelineState m.pipelineRunId) k))) ∧
      reconcileRevisionActivation fired m.revisionId = .ok c' := by
  unfold activateCommittedRevision at h
  rw [hm] at h
  refine ⟨_, ?_, fun k => ?_, h⟩
  · split <;> rfl
  · unfold firedAt
    simp only [List.mem_cons, List.not_mem_nil, or_false]
    split
    · exact lookup_activateAssertionSupersessionLinks c m.mutationId k
    · cases c.assertions.lookup k <;> rfl

/-- A transition of a mutation passes, or commits it. -/
theorem transitionMemoryMutation_commits {c c' : Core} {id : String} {m : Mutation} {toState : MutationState} {b : Bool}
    (hm : c.mutations.lookup id = some m) (h : transitionMemoryMutation c id toState = .ok (c', b)) :
    c.Passes m c' ∨ (toState = .committed ∧ Commits c m c') := by
  have hid : m.mutationId = id := Table.lookup_key hm
  subst hid
  obtain ⟨m', hm', ⟨-, -, rfl⟩ | ⟨-, -, -, rfl⟩ | ⟨hne, -, -, moved, rb, hmoved, hre, hif⟩⟩ :=
    transitionMemoryMutation_cases h
  · exact Or.inl (.refl hm)
  · exact Or.inl (.refl hm)
  · rw [hm] at hm'; cases hm'
    have hruns := recomputePipelineState_moved hre
    have hmut : moved.mutations = setMutationStates c.mutations m.mutationId toState := by rw [hmoved]
    have hkeep : ∀ k, k ≠ m.pipelineRunId → moved.runs.lookup k = c.runs.lookup k := fun k hk => hruns.state_of_ne hk
    by_cases hcom : toState = .committed
    · rw [if_pos hcom] at hif
      subst hcom
      have hframe := activateCommittedRevision_frame hif
      have hrow : moved.mutations.lookup m.mutationId = some { m with state := .committed } := by
        rw [hmut]; exact lookup_setMutationStates hm _
      obtain ⟨fired, hf, ha, hrec⟩ :=
        activateCommittedRevision_cases (m := { m with state := .committed }) hrow hif
      have hstate : c'.pipelineState m.pipelineRunId = moved.pipelineState m.pipelineRunId := by
        unfold Core.pipelineState; rw [hframe.runs]
      refine Or.inr ⟨rfl, hm, hframe.mutations.trans hmut, ?_, ?_, ?_, fun k hk => ?_, ?_, fun hrun => ?_, fired, c', ?_,
        fun k => ?_, hrec, rfl, rfl⟩
      · rw [hframe.documents, hmoved]
      · rw [hframe.chunks, hmoved]
      · rw [hframe.links, hmoved]
      · rw [hframe.runs]; exact hkeep k hk
      · rw [hstate, hframe.mutations]
        unfold Core.pipelineState
        rw [hruns.state, Option.map_map]
        congr 1
        funext x
        exact recomputedState_idem _ x
      · rw [hstate, Core.pipelineState, hruns.state] at hrun
        obtain ⟨x, hx, hxc⟩ := Option.map_eq_some_iff.1 hrun
        rw [hframe.mutations]
        rcases recomputedState_committed hxc with rfl | hall
        · exact Or.inl hx
        · exact Or.inr (Or.inr hall)
      · rw [hframe.mutations]
        rw [hmoved] at hf
        rw [hf, hmoved]
      · rw [ha, hstate]
        unfold firedAt firedFrom
        rw [hmoved]
    · rw [if_neg hcom] at hif
      subst hif
      refine Or.inl ⟨⟨toState, hmut, fun h => absurd h hcom⟩, ?_, ?_, ?_, ?_, ?_, hkeep, fun hrun => ?_⟩
      iterate 5 rw [hmoved]
      rw [Core.pipelineState, hruns.state] at hrun
      obtain ⟨x, hx, hxc⟩ := Option.map_eq_some_iff.1 hrun
      rcases recomputedState_committed hxc with rfl | hall
      · exact Or.inl hx
      · have hrow : c'.mutations.lookup m.mutationId = some { m with state := toState } := by
          rw [hmut]; exact lookup_setMutationStates hm _
        exact absurd (hall toState (List.mem_map.2
          ⟨_, Table.mem_select.2 ⟨Table.lookup_mem hrow, decide_eq_true rfl⟩, rfl⟩)) hcom

theorem climbMilestones_top {id : String} : ∀ (ms : List MutationState) (c : Core),
    climbMilestones id c 3 ms = .ok (c, true)
  | [], _ => rfl
  | t :: rest, c => by rw [climbMilestones, if_pos (lifecycleOrder_le t), climbMilestones_top rest c]

/-- A climb passes, or ends with the commit. -/
theorem climbMilestones_commits {id : String} : ∀ {ms : List MutationState} {c c' : Core} {m : Mutation} {index : Int}
    {b : Bool}, c.mutations.lookup id = some m → climbMilestones id c index ms = .ok (c', b) →
      c.Passes m c' ∨ Commits c m c'
  | [], c, c', m, index, b, hm, h => by
    cases h
    have hid : m.mutationId = id := Table.lookup_key hm
    exact Or.inl (.refl (by rw [hid]; exact hm))
  | t :: rest, c, c', m, index, b, hm, h => by
    have hid : m.mutationId = id := Table.lookup_key hm
    unfold climbMilestones at h
    split at h
    · exact climbMilestones_commits hm h
    · obtain ⟨⟨d, moved⟩, ht, h⟩ := bind_eq_ok.1 h
      have hset := (transitionMemoryMutation_set hm ht).1
      rcases transitionMemoryMutation_commits hm ht with hp | ⟨rfl, hc⟩
      · cases moved with
        | false => cases pure_eq_ok.1 h; exact Or.inl hp
        | true =>
          have hd : d.mutations.lookup id = some { m with state := m.state.attempt t } := by
            rw [hset]; exact lookup_setMutationStates hm _
          have hset' : d.mutations = setMutationStates c.mutations m.mutationId (m.state.attempt t) := by
            rw [hid]; exact hset
          -- a passing step is not newly COMMITTED
          have hnew : m.state.attempt t = .committed → m.state = .committed := by
            intro hcom
            obtain ⟨s, hs, hsc⟩ := hp.mutations
            have hss : s = m.state.attempt t := by
              have h₁ : d.mutations.lookup m.mutationId = some { m with state := s } := by
                rw [hs]; exact lookup_setMutationStates (by rw [hid]; exact hm) _
              rw [hid, hd] at h₁
              exact (congrArg (fun x : Mutation => x.state) (Option.some_inj.1 h₁)).symm
            exact hsc (hss.trans hcom)
          rcases climbMilestones_commits hd h with hp' | hc'
          · exact Or.inl (hp.trans hset' hnew hp')
          · exact Or.inr (hp.then_commits (by rw [hid]; exact hm) hset' hnew hc')
      · cases moved with
        | false => cases pure_eq_ok.1 h; exact Or.inr hc
        | true =>
          have htop : climbMilestones id d 3 rest = .ok (c', b) := h
          rw [climbMilestones_top] at htop
          cases htop
          exact Or.inr hc

/-- An advance passes or commits. -/
theorem advanceMutationProjectionState_commits {c c' : Core} {outbox : Table Projection} {id : String} {m : Mutation}
    (hm : c.mutations.lookup id = some m) (h : advanceMutationProjectionState c outbox id = .ok c') :
    c.Passes m c' ∨ Commits c m c' := by
  have hid : m.mutationId = id := Table.lookup_key hm
  have hself : c.mutations.lookup m.mutationId = some m := by rw [hid]; exact hm
  unfold advanceMutationProjectionState at h
  rw [hm] at h
  simp only at h
  split at h
  · cases h; exact Or.inl (.refl hself)
  · split at h
    · cases h; exact Or.inl (.refl hself)
    · obtain ⟨⟨d, re⟩, hre, h⟩ := bind_eq_ok.1 h
      -- the mutation re-enters through PENDING, or starts where it is
      obtain ⟨s, hs, hsc, hpass⟩ : ∃ s, d.mutations = setMutationStates c.mutations m.mutationId s ∧
          (s = .committed → m.state = .committed) ∧ c.Passes m d := by
        unfold reenterLifecycle at hre
        split at hre
        · rcases transitionMemoryMutation_commits hself hre with hp | ⟨hcom, -⟩
          · obtain ⟨s, hs, hsc⟩ := hp.mutations
            exact ⟨s, hs, hsc, hp⟩
          · cases hcom
        · cases hre
          exact ⟨m.state, (setMutationStates_self hself).symm, fun h => h, .refl hself⟩
      cases re with
      | false => cases pure_eq_ok.1 h; exact Or.inl hpass
      | true =>
        obtain ⟨⟨e, fin⟩, hclimb, h⟩ := bind_eq_ok.1 h
        have hd : d.mutations.lookup id = some { m with state := s } := by
          rw [hs, ← hid]; exact lookup_setMutationStates hself _
        have hstep : c.Passes m e ∨ Commits c m e := by
          rcases climbMilestones_commits hd hclimb with hp | hc
          · exact Or.inl (hpass.trans hs hsc hp)
          · exact Or.inr (hpass.then_commits hself hs hsc hc)
        cases fin with
        | false => cases pure_eq_ok.1 h; exact hstep
        | true =>
          obtain ⟨⟨runs, rb⟩, hruns, h⟩ := bind_eq_ok.1 h
          cases pure_eq_ok.1 h
          exact hstep.imp (·.recompute hself hruns) (·.recompute hruns)

/-! ## Operations that commit -/

/-- A lane completion, or an explicit COMMITTED, leaves the core alone, passes or commits. -/
theorem transact_commits {env : Env} {db db' : Db} {op : Op} {id : String} (hop : op.committing = some id)
    (h : transact env db op = .ok db') : db'.core = db.core ∨
    ∃ m, db.core.mutations.lookup id = some m ∧ (db.core.Passes m db'.core ∨ Commits db.core m db'.core) := by
  unfold Op.committing at hop
  split at hop
  · cases hop
    obtain ⟨⟨db₁, r⟩, hc, rfl⟩ := map_eq_ok.1 h
    rcases completeProjectionOutbox_cases hc with ⟨rfl, -⟩ | ⟨p, m, -, hm, ⟨-, -, hdb⟩ | ⟨-, -, -, core, hadv, hdb⟩⟩
    · exact Or.inl rfl
    · exact Or.inl (by rw [hdb])
    · refine Or.inr ⟨m, hm, ?_⟩
      rw [hdb]
      exact advanceMutationProjectionState_commits hm hadv
  · split at hop
    · next hs =>
      subst hs
      cases hop
      obtain ⟨⟨db₁, b⟩, hc, rfl⟩ := map_eq_ok.1 h
      rcases (setMutationState_cases hc).2 with rfl | ⟨m, core, b', hm, -, ht, -, hdb⟩
      · exact Or.inl rfl
      · refine Or.inr ⟨m, hm, ?_⟩
        have hstep := (transitionMemoryMutation_commits hm ht).imp_right (·.2)
        rcases hdb with ⟨-, hdb⟩ | ⟨-, rb, hre, hdb⟩ <;> rw [hdb]
        · exact hstep
        · have hself : db.core.mutations.lookup m.mutationId = some m := Table.lookup_of_mem (Table.lookup_mem hm)
          exact hstep.imp (·.recompute hself hre) (·.recompute hre)
    · cases hop
  · cases hop

/-! ## Operations that commit no run -/

/-- No run is newly COMMITTED. -/
def Core.NoRunCommits (c c' : Core) : Prop :=
  ∀ k, c'.pipelineState k = some .committed → c.pipelineState k = some .committed

theorem Core.NoRunCommits.of_runs {c c' : Core} (h : c'.runs = c.runs) : c.NoRunCommits c' := by
  intro k hk
  unfold Core.pipelineState at hk ⊢
  rwa [h] at hk

theorem Core.NoRunCommits.trans {c d e : Core} (h : c.NoRunCommits d) (h' : d.NoRunCommits e) : c.NoRunCommits e :=
  fun k hk => h k (h' k hk)

/-- A move of one run that reaches COMMITTED only from COMMITTED. -/
theorem RunsMoved.noRunCommits {id : String} {f : PipelineState → PipelineState} {c c' : Core}
    (h : RunsMoved id f c.runs c'.runs)
    (hf : ∀ r, c.runs.lookup id = some r → f r.state = .committed → r.state = .committed) : c.NoRunCommits c' := by
  intro k hk
  unfold Core.pipelineState at hk ⊢
  by_cases hid : k = id
  · subst hid
    rw [h.state] at hk
    cases hr : c.runs.lookup k with
    | none => rw [hr] at hk; cases hk
    | some r =>
      rw [hr] at hk
      exact congrArg some (hf r hr (Option.some_inj.1 hk))
  · rwa [h.state_of_ne hid] at hk

theorem transitionPipelineRun_noRunCommits {c c' : Core} {id : String} {s : PipelineState} {b : Bool}
    (h : transitionPipelineRun c.runs id s = .ok (c'.runs, b)) (hs : s ≠ .committed) : c.NoRunCommits c' := by
  refine (transitionPipelineRun_moved h).1.noRunCommits fun r _ hr => ?_
  unfold PipelineState.attempt at hr
  split at hr
  · exact absurd hr hs
  · exact hr

theorem recomputePipelineState_noRunCommits {c d : Core} {id : String} {b : Bool} {m : Mutation}
    (h : recomputePipelineState c.mutations c.runs id = .ok (d.runs, b)) (hm : m ∈ c.mutations.rows)
    (hr : m.pipelineRunId = id) (hs : m.state ≠ .committed) : c.NoRunCommits d := by
  refine (recomputePipelineState_moved h).noRunCommits fun r _ hrec => ?_
  refine (recomputedState_committed hrec).resolve_right fun hall => hs (hall m.state ?_)
  exact List.mem_map.2 ⟨m, Table.mem_select.2 ⟨hm, decide_eq_true hr⟩, rfl⟩

/-- A transition to another state than COMMITTED commits no run. -/
theorem transitionMemoryMutation_noRunCommits {c c' : Core} {id : String} {s : MutationState} {b : Bool}
    (h : transitionMemoryMutation c id s = .ok (c', b)) (hs : s ≠ .committed) : c.NoRunCommits c' := by
  obtain ⟨m, hm, ⟨-, -, rfl⟩ | ⟨-, -, -, rfl⟩ | ⟨-, -, -, moved, rb, hmoved, hre, hif⟩⟩ := transitionMemoryMutation_cases h
  · exact .of_runs rfl
  · exact .of_runs rfl
  · rw [if_neg hs] at hif
    subst hif
    have hmut : c'.mutations = setMutationStates c.mutations id s := by rw [hmoved]
    have hrow : c'.mutations.lookup id = some { m with state := s } := by rw [hmut]; exact lookup_setMutationStates hm s
    refine Core.NoRunCommits.trans (d := { c with mutations := c'.mutations }) (.of_runs rfl) ?_
    exact recomputePipelineState_noRunCommits hre (Table.lookup_mem hrow) rfl hs

theorem moveAll_noRunCommits {s : MutationState} (hs : s ≠ .committed) {ids : List String} {c c' : Core}
    (h : moveAll c ids s = .ok c') : c.NoRunCommits c' := by
  refine foldOk_invariant (I := c.NoRunCommits) (fun d id d' hd hstep => ?_) (.of_runs rfl) h
  obtain ⟨⟨e, b⟩, ht, hp⟩ := bind_eq_ok.1 hstep
  cases pure_eq_ok.1 hp
  exact hd.trans (transitionMemoryMutation_noRunCommits ht hs)

theorem purgeMutations_noRunCommits {c c' : Core} {p : Mutation → Bool} {ids : List String}
    (h : purgeMutations c p = .ok (c', ids)) : c.NoRunCommits c' := by
  refine foldOk_invariant (I := fun acc : Core × List String => c.NoRunCommits acc.1) (fun d id d' hd hstep => ?_)
    (.of_runs rfl) h
  obtain ⟨⟨e, b⟩, ht, hp⟩ := bind_eq_ok.1 hstep
  cases pure_eq_ok.1 hp
  exact hd.trans (transitionMemoryMutation_noRunCommits ht (by decide))

theorem closeRollback_noRunCommits {c c' : Core} {id : String} (h : closeRollback c id = .ok c') :
    c.NoRunCommits c' := by
  obtain ⟨⟨runs, b⟩, hr, h⟩ := bind_eq_ok.1 h
  have hmoved : c.NoRunCommits { c with runs := runs } := transitionPipelineRun_noRunCommits hr (by decide)
  exact hmoved.trans (moveAll_noRunCommits (by decide) h)

theorem noRunCommits_insert {c c' : Core} {r : PipelineRun} (h : c'.runs = c.runs.insertOrIgnore r)
    (hr : r.state ≠ .committed) : c.NoRunCommits c' := by
  intro k hk
  unfold Core.pipelineState at hk ⊢
  rw [h, Table.lookup_insertOrIgnore] at hk
  cases hl : c.runs.lookup k with
  | some x => rwa [hl, Option.some_or] at hk
  | none =>
    rw [hl, Option.none_or] at hk
    split at hk
    · exact absurd (Option.some_inj.1 hk) hr
    · cases hk

/-- What follows the fencing of a run in a rollback commits no run. -/
theorem rollback_noRunCommits {c moved restored c' : Core} {id : String} {idle : Bool}
    (hmv : transitionPipelineMutations c id .rollingBack = .ok moved)
    (hre : restorePipelineSupersession moved id = .ok restored) (hcl : closeIfIdle restored id idle = .ok c') :
    c.NoRunCommits c' := by
  have hmoved : c.NoRunCommits moved := moveAll_noRunCommits (by decide) hmv
  have hrestored := hmoved.trans (.of_runs (restorePipelineSupersession_frame hre).runs)
  unfold closeIfIdle at hcl
  split at hcl
  · exact hrestored.trans (closeRollback_noRunCommits hcl)
  · cases hcl; exact hrestored

/-- Only lane completions and an explicit COMMITTED commit runs. -/
theorem transact_noRunCommits {env : Env} {db db' : Db} {op : Op} (hop : op.committing = none)
    (h : transact env db op = .ok db') : db.core.NoRunCommits db'.core := by
  by_cases hw : Part.runs ∉ op.writes
  · exact .of_runs (transact_frame h hw)
  cases op with
  | admitMemory q =>
    obtain ⟨core, m, queue, hc, -, -, hdb⟩ := admitMemory_cases h
    refine noRunCommits_insert (r := ⟨m.pipelineRunId, m.tenantId, m.agentId, .queued⟩) ?_ nofun
    rw [hdb, ← (admitProvenance_frame hc).runs]
  | recordMutation m =>
    refine noRunCommits_insert (r := ⟨m.pipelineRunId, m.tenantId, m.agentId, .queued⟩) ?_ nofun
    rw [(recordMutation_cases h).1]
  | recordMutationExtraction a id ts =>
    obtain ⟨⟨c, b⟩, hc, rfl⟩ := map_eq_ok.1 h
    rcases recordMutationExtraction_cases hc with ⟨rfl, -⟩ | ⟨m, -, -, -, ht⟩
    · exact .of_runs rfl
    · have hset := transitionMemoryMutation_noRunCommits ht (by decide)
      exact Core.NoRunCommits.trans (.of_runs rfl) hset
  | setMutationState a id s =>
    have hs : s ≠ .committed := by
      rintro rfl; cases hop
    obtain ⟨⟨db₁, b⟩, hc, rfl⟩ := map_eq_ok.1 h
    rcases (setMutationState_cases hc).2 with rfl | ⟨m, core, b', hm, -, ht, hb, hdb⟩
    · exact .of_runs rfl
    · have hfirst := transitionMemoryMutation_noRunCommits ht hs
      rcases hdb with ⟨-, hdb⟩ | ⟨rfl, rb, hre, hdb⟩ <;> rw [hdb]
      · exact hfirst
      · -- the mutation is now in the state that was set, so its run is not recomputed to COMMITTED
        obtain ⟨hset, hmoved, -⟩ := transitionMemoryMutation_set hm ht
        have hat : m.state.attempt s = s := of_decide_eq_true hmoved.symm
        have hrow : core.mutations.lookup id = some { m with state := s } := by
          rw [hset, hat]; exact lookup_setMutationStates hm s
        exact hfirst.trans (recomputePipelineState_noRunCommits (d := { core with runs := db₁.core.runs }) hre
          (Table.lookup_mem hrow) rfl hs)
  | completeProjectionOutbox k w t o => cases hop
  | failProjectionOutbox k w t r =>
    rcases failProjectionOutbox_cases h with rfl | ⟨p, m, terminal, -, -, -, -, hcore⟩
    · exact .of_runs rfl
    · rcases hcore with ⟨-, hc⟩ | ⟨-, core, b, rb, ht, hr, hc⟩
      · rw [hc]; exact .of_runs rfl
      · have hfirst := transitionMemoryMutation_noRunCommits ht (by cases terminal <;> decide)
        have hsecond : core.NoRunCommits db'.core :=
          transitionPipelineRun_noRunCommits hr (by cases terminal <;> decide)
        exact hfirst.trans hsecond
  | requestPipelineRollback r =>
    obtain ⟨run, -, ⟨-, rfl⟩ | ⟨-, -, runs, moved, restored, cleanup, -, hr, hmv, hre, hcl, -⟩⟩ :=
      requestPipelineRollback_cases h
    · exact .of_runs rfl
    · have hrun : db.core.NoRunCommits { db.core with
          runs := runs, assertions := retractAssertions db.core.assertions cleanup } :=
        transitionPipelineRun_noRunCommits hr (by decide)
      exact hrun.trans (rollback_noRunCommits hmv hre hcl)
  | replayPipelineRun r t =>
    obtain ⟨run, runs, -, -, cr, -, hr, hmv, -⟩ := replayPipelineRun_cases h
    have hrun : db.core.NoRunCommits { db.core with runs := runs } :=
      transitionPipelineRun_noRunCommits hr (by cases cr <;> decide)
    exact hrun.trans (moveAll_noRunCommits (by cases cr <;> decide) hmv)
  | reconcileProjectionParity ms =>
    refine foldOk_invariant (I := fun d : Db => db.core.NoRunCommits d.core) (fun d x d' hd hstep => ?_) (.of_runs rfl) h
    rcases repairMutation_cases hstep with rfl | ⟨m, core, -, -, -, -, ht, hr, hdb⟩
    · exact hd
    · have hrun : core.NoRunCommits d'.core := transitionPipelineRun_noRunCommits hr (by decide)
      exact (hd.trans (transitionMemoryMutation_noRunCommits ht (by decide))).trans hrun
  | finishArtifactCleanup k w t f =>
    rcases finishArtifactCleanup_cases h with rfl | ⟨row, -, -, -, ⟨-, hc⟩ | ⟨-, runs, rb, hr, hmv⟩ | ⟨-, -, hc⟩⟩
    · exact .of_runs rfl
    · rw [hc]; exact .of_runs rfl
    · have hrun : db.core.NoRunCommits { db.core with runs := runs } :=
        transitionPipelineRun_noRunCommits hr (by decide)
      exact hrun.trans (moveAll_noRunCommits (by decide) hmv)
    · exact closeRollback_noRunCommits hc
  | enqueueUnownedProjectionCleanup id artifacts =>
    simp only [transact, enqueueUnownedProjectionCleanup] at h
    split at h
    · cases h
    · cases h
      intro k hk
      unfold Core.pipelineState at hk ⊢
      simp only [Table.lookup_update] at hk
      cases hl : db.core.runs.lookup k with
      | none => rw [hl] at hk; cases hk
      | some x =>
        rw [hl, Option.map_some, Option.map_some] at hk
        refine congrArg some ?_
        have hx := Option.some_inj.1 hk
        split at hx
        · cases hx
        · exact hx
  | finalizeTerminalProjectionCompensation id =>
    rcases finalizeTerminalProjectionCompensation_cases h with rfl | ⟨m, -, -, hc, -⟩
    · exact .of_runs rfl
    · exact closeRollback_noRunCommits hc
  | purgeDocument t d i =>
    obtain ⟨core, purged, hc, hdb⟩ := purgeDocument_cases h
    have hruns : db'.core.runs = core.runs := by rw [hdb]; rfl
    exact (purgeMutations_noRunCommits hc).trans (.of_runs hruns)
  | purgeMemory a s =>
    obtain ⟨core, purged, hc, hdb⟩ := purgeMemory_cases h
    rw [hdb]; exact purgeMutations_noRunCommits hc
  | completeDispatchQueue k w t v =>
    rcases (completeDispatchQueue_cases h).2 with hc | ⟨ids, hc⟩
    · rw [hc]; exact .of_runs rfl
    · exact moveAll_noRunCommits (by decide) hc
  | _ => exact absurd (by simp [Op.writes]) hw

end Mesa.Ledger
