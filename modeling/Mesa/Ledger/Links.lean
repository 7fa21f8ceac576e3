/-
Fact-level supersession over whole runs: when every SUPERSEDES link of a committed mutation of a
committed run has fired. Links fire in the transition that commits the run, and only those of the
mutation whose commit that is.
-/
import Mesa.Ledger.Activation

namespace Mesa.Ledger

open Mesa.Foundation

/-! ## The property -/

/-- The mutation is committed, and so is its run. -/
def Core.settled (c : Core) (mutationId : String) : Bool :=
  (c.mutations.lookup mutationId).any fun m =>
    m.state = .committed && c.pipelineState m.pipelineRunId = some .committed

theorem Core.settled_iff {c : Core} {id : String} : c.settled id = true ↔ ∃ m, c.mutations.lookup id = some m ∧
    m.state = .committed ∧ c.pipelineState m.pipelineRunId = some .committed := by
  unfold Core.settled
  rw [Option.any_eq_true]
  simp only [Bool.and_eq_true, decide_eq_true_eq]

def Core.assertionStatus (c : Core) (assertionId : String) : Option AssertionStatus :=
  (c.assertions.lookup assertionId).map (·.status)

/-- No link whose source assertion belongs to a committed mutation of a committed run has an active target. -/
def Core.Fired (c : Core) : Prop :=
  ∀ l ∈ c.links.rows, ∀ s, c.assertions.lookup l.sourceAssertionId = some s → c.settled s.mutationId = true →
    c.assertionStatus l.targetAssertionId ≠ some .active

/-- Both ends of every link are there. -/
def Core.Linked (c : Core) : Prop :=
  ∀ l ∈ c.links.rows, (c.assertions.lookup l.sourceAssertionId).isSome ∧ (c.assertions.lookup l.targetAssertionId).isSome

/-! ## Steps that fire or forget -/

/-- The assertions are the same ones, none is newly ACTIVE, and the links are the same. -/
structure Core.Quiets (c c' : Core) : Prop where
  links : c'.links = c.links
  scopes : ∀ k, (c'.assertions.lookup k).map (·.toAssertionScope) = (c.assertions.lookup k).map (·.toAssertionScope)
  active : ∀ k, c'.assertionStatus k = some .active → c.assertionStatus k = some .active

theorem Core.Quiets.of_eq {c c' : Core} (hl : c'.links = c.links) (ha : c'.assertions = c.assertions) :
    c.Quiets c' :=
  ⟨hl, fun _ => by rw [ha], fun _ h => by rwa [Core.assertionStatus, ha] at h⟩

theorem Core.Quiets.trans {c d e : Core} (h : c.Quiets d) (h' : d.Quiets e) : c.Quiets e :=
  ⟨h'.links.trans h.links, fun k => (h'.scopes k).trans (h.scopes k), fun k hk => h.active k (h'.active k hk)⟩

/-- Rows that keep their scope and are ACTIVE only if they were. -/
theorem quiets_map {c c' : Core} {f : Assertion → Assertion} (hl : c'.links = c.links)
    (ha : ∀ k, c'.assertions.lookup k = (c.assertions.lookup k).map f)
    (hscope : ∀ a, (f a).toAssertionScope = a.toAssertionScope)
    (hf : ∀ a, (f a).status = .active → a.status = .active) : c.Quiets c' := by
  refine ⟨hl, fun k => ?_, fun k hk => ?_⟩
  · rw [ha, Option.map_map]; congr 1; funext a; exact hscope a
  · unfold Core.assertionStatus at hk ⊢
    rw [ha] at hk
    cases h : c.assertions.lookup k with
    | none => rw [h] at hk; cases hk
    | some a =>
      rw [h, Option.map_some, Option.map_some] at hk
      exact congrArg some (hf a (Option.some_inj.1 hk))

theorem supersedeFrom_active {v : Option String} {a : Assertion} (h : (supersedeFrom v a).status = .active) :
    a.status = .active ∧ v = none := by
  cases v with
  | none => exact ⟨h, rfl⟩
  | some v =>
    unfold supersedeFrom at h
    simp only at h
    split at h
    · cases h
    · next hne => exact absurd h hne

theorem reconcileRevisionActivation_quiets {c c' : Core} {id : String}
    (h : reconcileRevisionActivation c id = .ok c') : c.Quiets c' := by
  have hl := (reconcileRevisionActivation_frame h).links
  rcases reconcileRevisionActivation_cases h with rfl | ⟨rev, -, -, -, hnew⟩
  · exact .of_eq rfl rfl
  · refine ⟨hl, fun k => ?_, fun k hk => ?_⟩
    · rw [hnew.assertions, Option.map_map]; congr 1; funext a; exact supersedeFrom_scope _ a
    · unfold Core.assertionStatus at hk ⊢
      rw [hnew.assertions] at hk
      cases ha : c.assertions.lookup k with
      | none => rw [ha] at hk; cases hk
      | some a =>
        rw [ha, Option.map_some, Option.map_some] at hk
        exact congrArg some (supersedeFrom_active (Option.some_inj.1 hk)).1

theorem updateRevisionManifest_quiets {env : Env} {c c' : Core} {id : String} {fin : Bool}
    (h : updateRevisionManifest env c id fin = .ok c') : c.Quiets c' := by
  unfold updateRevisionManifest at h
  simp only at h
  split at h
  · cases h
  · split at h
    · cases h
    · split at h
      · have hq := reconcileRevisionActivation_quiets h
        exact ⟨hq.links, hq.scopes, hq.active⟩
      · cases h; exact .of_eq rfl rfl

theorem createSourceChunk_quiets {env : Env} {c c' : Core} {q : ChunkRequest}
    (h : createSourceChunk env c q = .ok c') : c.Quiets c' := by
  unfold createSourceChunk at h
  simp only at h
  iterate 5
    split at h
    · cases h
  obtain ⟨d, hd, h⟩ := bind_eq_ok.1 h
  cases storeChunk_cases hd
  have hq := updateRevisionManifest_quiets h
  exact ⟨hq.links, hq.scopes, hq.active⟩

theorem admitProvenance_quiets {env : Env} {c c' : Core} {q : Admission}
    (h : admitProvenance env c q = .ok c') : c.Quiets c' := by
  unfold admitProvenance at h
  simp only at h
  split at h
  · cases h
  · iterate 6
      split at h
      · cases h
    obtain ⟨d, hd, h⟩ := bind_eq_ok.1 h
    cases storeChunk_cases hd
    have hq := updateRevisionManifest_quiets h
    exact ⟨hq.links, hq.scopes, hq.active⟩

/-- A commit supersedes assertions and makes none active. -/
theorem Commits.quiets {c c' : Core} {m : Mutation} (h : Commits c m c') : c.Quiets c' := by
  obtain ⟨fired, act, hf, hfa, hrec, -, has⟩ := h.activates
  have hfired : c.Quiets fired := by
    refine ⟨by rw [hf], fun k => ?_, fun k hk => ?_⟩
    · rw [hfa, Option.map_map]; congr 1; funext a; exact supersedeFrom_scope _ a
    · unfold Core.assertionStatus at hk ⊢
      rw [hfa] at hk
      cases ha : c.assertions.lookup k with
      | none => rw [ha] at hk; cases hk
      | some a =>
        rw [ha, Option.map_some, Option.map_some] at hk
        exact congrArg some (supersedeFrom_active (Option.some_inj.1 hk)).1
  have hact := reconcileRevisionActivation_quiets hrec
  refine (hfired.trans hact).trans (.of_eq ?_ has)
  rw [h.links, hact.links, hfired.links]

/-! ## What settles -/

/-- No mutation is newly COMMITTED, and no run. -/
def Core.SettlesNothing (c c' : Core) : Prop := ∀ id, c'.settled id = true → c.settled id = true

/-- Mutations that are COMMITTED only if they were, in runs that are COMMITTED only if they were. -/
theorem settlesNothing {c c' : Core} (hr : c.NoRunCommits c')
    (hm : ∀ id m', c'.mutations.lookup id = some m' → m'.state = .committed →
      ∃ m, c.mutations.lookup id = some m ∧ m.state = .committed ∧ m.pipelineRunId = m'.pipelineRunId) :
    c.SettlesNothing c' := by
  intro id h
  obtain ⟨m', hl, hcom, hset⟩ := Core.settled_iff.1 h
  obtain ⟨m, hlook, hs, hrun⟩ := hm id m' hl hcom
  exact Core.settled_iff.2 ⟨m, hlook, hs, by rw [hrun]; exact hr _ hset⟩

theorem transact_settlesNothing {env : Env} {db db' : Db} {op : Op} (hop : op.committing = none)
    (h : transact env db op = .ok db') : db.core.SettlesNothing db'.core := by
  refine settlesNothing (transact_noRunCommits hop h) fun id m' hm' hcom => ?_
  have hp := transact_progress h
  cases hm : db.core.mutations.lookup id with
  | none => rw [hp.fresh id m' hm' hm] at hcom; cases hcom
  | some m =>
    obtain ⟨x, hx, hscope, hshift⟩ := hp.kept id m hm
    rw [hm'] at hx; cases hx
    refine ⟨m, rfl, ?_, (congrArg (·.pipelineRunId) hscope).symm⟩
    rcases hshift with hst | ⟨-, -, -, he⟩ | ⟨-, -, a, rfl⟩ | ⟨hrb, -, -⟩
    · rw [hcom] at hst; exact hst.committed
    · rw [hop] at he; cases he
    · cases hop
    · rw [hcom] at hrb; cases hrb

/-- A quiet step that settles nothing keeps every link fired. -/
theorem Core.Quiets.fired {c c' : Core} (h : c.Quiets c') (hs : c.SettlesNothing c') (hf : c.Fired) : c'.Fired := by
  intro l hl s hlook hset hact
  rw [h.links] at hl
  have hscope := h.scopes l.sourceAssertionId
  rw [hlook] at hscope
  obtain ⟨s₀, hs₀, hsc⟩ := Option.map_eq_some_iff.1 hscope.symm
  refine hf l hl s₀ hs₀ ?_ (h.active _ hact)
  have hid : s₀.mutationId = s.mutationId := congrArg (·.mutationId) hsc
  rw [hid]
  exact hs _ hset

theorem Core.Quiets.linked {c c' : Core} (h : c.Quiets c') (hl : c.Linked) : c'.Linked := by
  have hsome : ∀ k, (c'.assertions.lookup k).isSome = (c.assertions.lookup k).isSome := by
    intro k
    have := congrArg Option.isSome (h.scopes k)
    rwa [Option.isSome_map, Option.isSome_map] at this
  intro l hmem
  rw [h.links] at hmem
  rw [hsome, hsome]
  exact hl l hmem

/-- Deleting assertions together with the links that touch them. -/
theorem linked_delete {c c' : Core} {p : Assertion → Bool} {id : String} (hl : c.Linked)
    (ha : c'.assertions = c.assertions.delete p) (hp : ∀ a, p a = true → a.assertionId = id)
    (hlinks : c'.links = c.links.delete fun l => l.sourceAssertionId = id || l.targetAssertionId = id) :
    c'.Linked ∧ ∀ k, k ≠ id → c'.assertions.lookup k = c.assertions.lookup k := by
  have hkeep : ∀ k, k ≠ id → c'.assertions.lookup k = c.assertions.lookup k := by
    intro k hk
    rw [ha, Table.lookup_delete]
    cases hlook : c.assertions.lookup k with
    | none => rfl
    | some a =>
      have hak : a.assertionId = k := Table.lookup_key hlook
      have hpa : p a = false := by
        by_contra hne
        exact hk (hak.symm.trans (hp a (by simpa using hne)))
      simp [hpa]
  refine ⟨fun l hmem => ?_, hkeep⟩
  rw [hlinks] at hmem
  obtain ⟨hmem, hno⟩ := Table.mem_delete.1 hmem
  simp only [Bool.or_eq_false_iff, decide_eq_false_iff_not] at hno
  rw [hkeep _ hno.1, hkeep _ hno.2]
  exact hl l hmem

/-- Deleting an assertion with its links keeps the other links fired. -/
theorem fired_delete {c c' : Core} {p : Assertion → Bool} {id : String} (hl : c.Linked) (hf : c.Fired)
    (hs : c.SettlesNothing c') (hp : ∀ a, p a = true → a.assertionId = id)
    (hlinks : c'.links = c.links.delete fun l => l.sourceAssertionId = id || l.targetAssertionId = id)
    (ha : c'.assertions = c.assertions.delete p) : c'.Linked ∧ c'.Fired := by
  obtain ⟨hlinked, hkeep⟩ := linked_delete hl ha hp hlinks
  refine ⟨hlinked, fun l hmem s hlook hset hact => ?_⟩
  rw [hlinks] at hmem
  obtain ⟨hmem, hno⟩ := Table.mem_delete.1 hmem
  simp only [Bool.or_eq_false_iff, decide_eq_false_iff_not] at hno
  rw [hkeep _ hno.1] at hlook
  refine hf l hmem s hlook (hs _ hset) ?_
  rwa [Core.assertionStatus, hkeep _ hno.2] at hact

/-! ## The commit of a mutation -/

/-- The source assertion of the link belongs to a committed mutation of the run, or to mutation `id`. -/
def ofChild (c : Core) (run id : String) (l : AssertionLink) : Bool :=
  (c.assertions.lookup l.sourceAssertionId).any fun s => (c.mutations.lookup s.mutationId).any fun m =>
    m.pipelineRunId = run && (m.state = .committed || m.mutationId = id)

/-- With the mutation committed its revision is complete and becomes the head, and the assertion is one of
the predecessor's. -/
def headSupersedes (c : Core) (m : Mutation) (assertionId : String) : Bool :=
  (c.revisions.lookup m.revisionId).any fun rev => rev.status = .pending && rev.manifestHash ≠ "" && rev.manifestFrozen &&
    revisionComplete { c with mutations := setMutationStates c.mutations m.mutationId .committed } m.revisionId &&
    (c.assertions.lookup assertionId).any fun a =>
      a.tenantId = rev.tenantId && rev.supersedesRevisionId = some a.revisionId

/-- The run does not commit together with the mutation: it has another child that is not committed. -/
def staysOpen (c : Core) (m : Mutation) : Bool :=
  m.state ≠ .committed && c.pipelineState m.pipelineRunId ≠ some .committed &&
    (c.children m.pipelineRunId).any fun x => x.mutationId ≠ m.mutationId && x.state ≠ .committed

/-- The commit of mutation `id` leaves its run open, or every active target of a committed sibling is also
a target of the mutation's own links or superseded with the predecessor revision. -/
def commitFires (c : Core) (id : String) : Bool :=
  (c.mutations.lookup id).all fun m => staysOpen c m || c.links.rows.all fun l =>
    !ofChild c m.pipelineRunId id l || c.assertionStatus l.targetAssertionId ≠ some .active ||
      (m.state ≠ .committed && ((firedFrom c id l.targetAssertionId).isSome || headSupersedes c m l.targetAssertionId))

/-- The condition, for a link whose target is active. -/
theorem commitFires_link {c : Core} {m m₁ : Mutation} {l : AssertionLink} {s : Assertion}
    (hok : commitFires c m.mutationId = true) (hm : c.mutations.lookup m.mutationId = some m)
    (hopen : staysOpen c m = false) (hl : l ∈ c.links.rows) (hs : c.assertions.lookup l.sourceAssertionId = some s)
    (hm₁ : c.mutations.lookup s.mutationId = some m₁) (hrun : m₁.pipelineRunId = m.pipelineRunId)
    (hcom : m₁.state = .committed ∨ m₁.mutationId = m.mutationId)
    (hact : c.assertionStatus l.targetAssertionId = some .active) :
    m.state ≠ .committed ∧ ((firedFrom c m.mutationId l.targetAssertionId).isSome = true ∨
      headSupersedes c m l.targetAssertionId = true) := by
  unfold commitFires at hok
  rw [hm, Option.all_some, hopen, Bool.false_or, List.all_eq_true] at hok
  have hlink := hok l hl
  have hchild : ofChild c m.pipelineRunId m.mutationId l = true := by
    unfold ofChild
    rw [hs, Option.any_some, hm₁, Option.any_some]
    simpa [hrun] using hcom
  simpa [hchild, hact] using hlink

/-- What is settled after one mutation has changed its state. -/
theorem settled_of_set {c c' : Core} {id k : String} {st : MutationState}
    (h : c'.mutations = setMutationStates c.mutations id st) (hset : c'.settled k = true) :
    ∃ m₁, c.mutations.lookup k = some m₁ ∧ c'.pipelineState m₁.pipelineRunId = some .committed ∧
      ((m₁.mutationId ≠ id ∧ m₁.state = .committed) ∨ (m₁.mutationId = id ∧ st = .committed)) := by
  obtain ⟨x, hx, hcom, hrun⟩ := Core.settled_iff.1 hset
  rw [h, setMutationStates, Table.lookup_update] at hx
  obtain ⟨m₁, hm₁, rfl⟩ := Option.map_eq_some_iff.1 hx
  by_cases hid : m₁.mutationId = id
  · simp only [hid, decide_true, ↓reduceIte] at hcom hrun
    exact ⟨m₁, hm₁, hrun, Or.inr ⟨hid, hcom⟩⟩
  · simp only [hid, decide_false, Bool.false_eq_true, ↓reduceIte] at hcom hrun
    exact ⟨m₁, hm₁, hrun, Or.inl ⟨hid, hcom⟩⟩

theorem Core.Passes.fired {c c' : Core} {m : Mutation} (h : c.Passes m c')
    (hm : c.mutations.lookup m.mutationId = some m) (hf : c.Fired) (hok : commitFires c m.mutationId = true) :
    c'.Fired := by
  intro l hl s hs hset hact
  rw [h.links] at hl
  rw [h.assertions] at hs
  rw [Core.assertionStatus, h.assertions] at hact
  obtain ⟨st, hst, hstc⟩ := h.mutations
  -- the mutation that wrote the source was committed before
  obtain ⟨m₁, hm₁, hrun', hcases⟩ := settled_of_set hst hset
  have hcom : m₁.state = .committed := by
    rcases hcases with ⟨-, hcom⟩ | ⟨hid, hcom⟩
    · exact hcom
    · have : m₁ = m := Table.eq_of_key_eq (Table.lookup_mem hm₁) (Table.lookup_mem hm) hid
      rw [this]; exact hstc hcom
  have hbefore : c.pipelineState m₁.pipelineRunId ≠ some .committed :=
    fun hr => hf l hl s hs (Core.settled_iff.2 ⟨m₁, hm₁, hcom, hr⟩) hact
  by_cases hrun : m₁.pipelineRunId = m.pipelineRunId
  · rw [hrun] at hrun' hbefore
    have hmc := (h.commits hrun').resolve_left hbefore
    have hopen : staysOpen c m = false := by unfold staysOpen; simp [hmc]
    exact (commitFires_link hok hm hopen hl hs hm₁ hrun (Or.inl hcom) hact).1 hmc
  · refine hbefore ?_
    unfold Core.pipelineState at hrun' ⊢
    rwa [h.runs _ hrun] at hrun'

theorem Commits.fired {c c' : Core} {m : Mutation} (h : Commits c m c') (hf : c.Fired)
    (hok : commitFires c m.mutationId = true) : c'.Fired := by
  intro l hl s' hs' hset hact
  have hq := h.quiets
  rw [h.links] at hl
  obtain ⟨s, hs, hsc⟩ : ∃ s, c.assertions.lookup l.sourceAssertionId = some s ∧ s.toAssertionScope = s'.toAssertionScope := by
    have hscope := hq.scopes l.sourceAssertionId
    rw [hs'] at hscope
    exact Option.map_eq_some_iff.1 hscope.symm
  rw [← congrArg (·.mutationId) hsc] at hset
  have hact₀ := hq.active _ hact
  obtain ⟨m₁, hm₁, hrun', hcases⟩ := settled_of_set h.mutations hset
  have hcom : m₁.state = .committed ∨ m₁.mutationId = m.mutationId := hcases.imp (·.2) (·.1)
  by_cases hrun : m₁.pipelineRunId = m.pipelineRunId
  · rw [hrun] at hrun'
    -- the run is committed, so no other child is left open
    have hopen : staysOpen c m = false := by
      by_contra hne
      have ho : staysOpen c m = true := by simpa using hne
      unfold staysOpen at ho
      rw [Bool.and_eq_true, Bool.and_eq_true, decide_eq_true_eq, decide_eq_true_eq, List.any_eq_true] at ho
      obtain ⟨⟨hms, hcr⟩, x, hx, hxs⟩ := ho
      rw [Bool.and_eq_true, decide_eq_true_eq, decide_eq_true_eq] at hxs
      rcases h.commits hrun' with hc | hc | hall
      · exact hcr hc
      · exact hms hc
      · obtain ⟨hx, hxr⟩ := Table.mem_select.1 hx
        have hx' : c'.mutations.lookup x.mutationId = some x := by
          rw [h.mutations, setMutationStates, Table.lookup_update,
            show c.mutations.lookup x.mutationId = some x from Table.lookup_of_mem hx]
          simp [hxs.1]
        exact hxs.2 (hall x.state (List.mem_map.2 ⟨x, Table.mem_select.2 ⟨Table.lookup_mem hx', hxr⟩, rfl⟩))
    obtain ⟨fired, act, hfd, hfa, hrec, -, has⟩ := h.activates
    rw [hrun'] at hfa
    have hactive : act.assertionStatus l.targetAssertionId = some .active := by
      rwa [Core.assertionStatus, has] at hact
    obtain ⟨-, hfire | hhead⟩ := commitFires_link hok h.row hopen hl hs hm₁ hrun hcom hact₀
    · -- its own link fired
      have hfa' := (reconcileRevisionActivation_quiets hrec).active _ hactive
      unfold Core.assertionStatus at hfa'
      rw [hfa] at hfa'
      obtain ⟨b, hb, hbs⟩ := Option.map_eq_some_iff.1 hfa'
      obtain ⟨a, -, rfl⟩ := Option.map_eq_some_iff.1 hb
      have hnone := (supersedeFrom_active hbs).2
      unfold firedAt at hnone
      rw [if_pos (by simp)] at hnone
      rw [hnone] at hfire; cases hfire
    · -- the predecessor's assertions were superseded
      unfold headSupersedes at hhead
      obtain ⟨rev, hrev, hcond⟩ := (Option.any_eq_true _ _).1 hhead
      simp only [Bool.and_eq_true, decide_eq_true_eq] at hcond
      obtain ⟨⟨⟨⟨hpend, hhash⟩, hfrozen⟩, hcomplete⟩, htarget⟩ := hcond
      have hnew : NewHead fired rev act := by
        refine reconcileRevisionActivation_newHead ?_ hpend hhash hfrozen ?_ hrec
        · rw [hfd]; exact hrev
        · rw [hfd, h.mutations]; exact hcomplete
      obtain ⟨a, ha, hap⟩ := (Option.any_eq_true _ _).1 htarget
      simp only [Bool.and_eq_true, decide_eq_true_eq] at hap
      unfold Core.assertionStatus at hactive
      rw [hnew.assertions, hfa, ha, Option.map_some, Option.map_some, Option.map_some, Option.some_inj] at hactive
      have hnone := (supersedeFrom_active hactive).2
      unfold supersededFrom at hnone
      have hsc' := supersedeFrom_scope (firedAt c m (some .committed) l.targetAssertionId) a
      rw [congrArg (·.tenantId) hsc', congrArg (·.revisionId) hsc', if_pos hap] at hnone
      cases hnone
  · -- another run: neither it nor its mutation changed
    have hid : m₁.mutationId ≠ m.mutationId := by
      intro hid
      have : m₁ = m := Table.eq_of_key_eq (Table.lookup_mem hm₁) (Table.lookup_mem h.row) hid
      rw [this] at hrun; exact hrun rfl
    refine hf l hl s hs (Core.settled_iff.2 ⟨m₁, hm₁, hcom.resolve_right hid, ?_⟩) hact₀
    unfold Core.pipelineState at hrun' ⊢
    rwa [h.runs _ hrun] at hrun'

/-! ## New assertions -/

/-- The assertion's writer is not committed in a committed run, or nothing that the assertion is linked to
is active. -/
def insertFires (env : Env) (db : Db) (mutationId : String) (t : Triplet) (f : FactIdentity) : Bool :=
  (db.core.mutations.lookup mutationId).all fun m =>
    match assertionIdFor env m t f with
    | .error _ => true
    | .ok aid =>
      let core := withAssertion db.core (assertionRow m mutationId t f aid)
      !((core.assertions.lookup aid).any fun s => db.core.settled s.mutationId) ||
        (supersededBy core db.idents m t aid f.subjectId).all fun old => core.assertionStatus old ≠ some .active

/-- What an assertion supersedes is there. -/
theorem supersededBy_isSome {c : Core} {ids : Identities} {m : Mutation} {t : Triplet} {aid subjectId old : String}
    (h : old ∈ supersededBy c ids m t aid subjectId) : (c.assertions.lookup old).isSome := by
  have hsel : ∀ p : Assertion → Bool, old ∈ (c.assertions.select p).map (·.assertionId) →
      (c.assertions.lookup old).isSome := by
    intro p hp
    obtain ⟨a, ha, rfl⟩ := List.mem_map.1 hp
    rw [show c.assertions.lookup a.assertionId = some a from Table.lookup_of_mem (Table.mem_select.1 ha).1]
    rfl
  unfold supersededBy at h
  split at h
  · exact hsel _ h
  · split at h
    · cases h
    · exact hsel _ h

theorem insertAssertion_fired {env : Env} {db db' : Db} {id aid : String} {t : Triplet} {f : FactIdentity}
    (h : insertAssertion env db id t f = .ok (db', aid)) (hl : db.core.Linked) (hf : db.core.Fired)
    (hok : insertFires env db id t f = true) : db'.core.Linked ∧ db'.core.Fired := by
  obtain ⟨m, hm, haid, rfl⟩ := insertAssertion_row h
  have hrow : (assertionRow m id t f aid).assertionId = aid := rfl
  generalize hcore : withAssertion db.core (assertionRow m id t f aid) = core at *
  have hold : ∀ k, (db.core.assertions.lookup k).isSome → core.assertions.lookup k = db.core.assertions.lookup k := by
    intro k hk
    obtain ⟨a, ha⟩ := Option.isSome_iff_exists.1 hk
    rw [← hcore, withAssertion, Table.lookup_insertOrIgnore, ha]
    rfl
  have hnew : (core.assertions.lookup aid).isSome := by
    rw [← hcore, withAssertion, Table.lookup_insertOrIgnore]
    have : Keyed.key (assertionRow m id t f aid) = aid := rfl
    rw [if_pos this]
    cases db.core.assertions.lookup aid <;> rfl
  have hsettled : ∀ k, core.settled k = db.core.settled k := by intro k; rw [← hcore]; rfl
  -- a link was there before, or is one of those inserted now
  have hlink : ∀ l ∈ ((supersededBy core db.idents m t aid f.subjectId).foldl
      (fun ls old => ls.insertOrIgnore ⟨aid, old, id⟩) db.core.links).rows, l ∈ db.core.links.rows ∨
        ∃ old ∈ supersededBy core db.idents m t aid f.subjectId, l = ⟨aid, old, id⟩ :=
    fun l hmem => Table.mem_foldl_insertOrIgnore hmem
  constructor
  · intro l hmem
    rcases hlink l hmem with hmem | ⟨old, hold', rfl⟩
    · obtain ⟨h₁, h₂⟩ := hl l hmem
      exact ⟨by rw [show _ = core.assertions.lookup _ from rfl, hold _ h₁]; exact h₁,
        by rw [show _ = core.assertions.lookup _ from rfl, hold _ h₂]; exact h₂⟩
    · exact ⟨hnew, supersededBy_isSome hold'⟩
  · intro l hmem s hs hset hact
    have hset' : db.core.settled s.mutationId = true := (hsettled _).symm.trans hset
    rcases hlink l hmem with hmem | ⟨old, hold', rfl⟩
    · obtain ⟨h₁, h₂⟩ := hl l hmem
      have hs' : core.assertions.lookup l.sourceAssertionId = some s := hs
      rw [hold _ h₁] at hs'
      have hact' : core.assertionStatus l.targetAssertionId = some .active := hact
      rw [Core.assertionStatus, hold _ h₂] at hact'
      exact hf l hmem s hs' hset' hact'
    · unfold insertFires at hok
      rw [hm, Option.all_some, haid] at hok
      simp only [hcore] at hok
      have hs' : core.assertions.lookup aid = some s := hs
      rw [hs', Option.any_some, hset', Bool.not_true, Bool.false_or, List.all_eq_true] at hok
      exact absurd hact (of_decide_eq_true (hok old hold'))

/-! ## Rollbacks -/

/-- The rollback of the run reopens no target of a link that a settled mutation of another run wrote. -/
def rollbackKeeps (c : Core) (run : String) : Bool :=
  c.links.rows.all fun l =>
    !((c.assertions.lookup l.sourceAssertionId).any fun s => c.settled s.mutationId &&
        (c.mutations.lookup s.mutationId).any fun m => m.pipelineRunId ≠ run) ||
      !(c.children run).any fun m => c.restores run m.revisionId && (c.assertions.lookup l.targetAssertionId).any fun a =>
        a.status = .superseded && a.tenantId = m.tenantId && (c.predecessor m.revisionId).any fun pd => pd.1 = a.revisionId

/-- The same assertions, some superseded ones of scope `Q` active again. -/
def Reopened (Q : AssertionScope → Prop) (t t' : Table Assertion) : Prop :=
  ∀ k, (t.lookup k = none ∧ t'.lookup k = none) ∨ ∃ a a', t.lookup k = some a ∧ t'.lookup k = some a' ∧
    a'.toAssertionScope = a.toAssertionScope ∧
    (a'.status = a.status ∨ (a.status = .superseded ∧ a'.status = .active ∧ Q a.toAssertionScope))

theorem Reopened.refl (Q : AssertionScope → Prop) (t : Table Assertion) : Reopened Q t t := by
  intro k
  cases h : t.lookup k with
  | none => exact Or.inl ⟨rfl, rfl⟩
  | some a => exact Or.inr ⟨a, a, rfl, rfl, rfl, Or.inl rfl⟩

theorem Reopened.trans {Q : AssertionScope → Prop} {t u v : Table Assertion} (h : Reopened Q t u)
    (h' : Reopened Q u v) : Reopened Q t v := by
  intro k
  rcases h k with ⟨ht, hu⟩ | ⟨a, b, ha, hb, hab, hst⟩
  · rcases h' k with ⟨-, hv⟩ | ⟨b, -, hb, -⟩
    · exact Or.inl ⟨ht, hv⟩
    · rw [hu] at hb; cases hb
  · rcases h' k with ⟨hu, -⟩ | ⟨b', d, hb', hd, hbd, hst'⟩
    · rw [hu] at hb; cases hb
    · rw [hb] at hb'; cases hb'
      refine Or.inr ⟨a, d, ha, hd, hbd.trans hab, ?_⟩
      rcases hst with hst | ⟨hs, hact, hq⟩
      · rcases hst' with hst' | ⟨hs', hact', hq'⟩
        · exact Or.inl (hst'.trans hst)
        · exact Or.inr ⟨hst.symm.trans hs', hact', hab ▸ hq'⟩
      · rcases hst' with hst' | ⟨hs', -, -⟩
        · exact Or.inr ⟨hs, hst'.trans hact, hq⟩
        · rw [hact] at hs'; cases hs'

theorem Reopened.mono {Q Q' : AssertionScope → Prop} {t u : Table Assertion} (h : Reopened Q t u)
    (hq : ∀ a, Q a → Q' a) : Reopened Q' t u := by
  intro k
  rcases h k with hn | ⟨a, b, ha, hb, hab, hst⟩
  · exact Or.inl hn
  · exact Or.inr ⟨a, b, ha, hb, hab, hst.imp_right fun ⟨h₁, h₂, h₃⟩ => ⟨h₁, h₂, hq _ h₃⟩⟩

/-- The row of the undo reaches assertions of the tenant in the predecessor of a revision it does not skip. -/
def undoReaches (c : Core) (run : String) (row : String × String × String) (a : AssertionScope) : Prop :=
  c.restores run row.2.1 = true ∧ a.tenantId = row.1 ∧
    ((c.predecessor row.2.1).any fun pd => pd.1 = a.revisionId) = true

theorem restoreRevision_reopens {run t r v : String} {c c' : Core} (h : restoreRevision run c t r v = .ok c') :
    Reopened (undoReaches c run (t, r, v)) c.assertions c'.assertions := by
  cases hres : c.restores run r with
  | false =>
    rw [restoreRevision_skip hres] at h
    cases h; exact .refl _ _
  | true =>
    cases hpred : c.predecessor r with
    | none =>
      rw [restoreRevision_draft hres hpred] at h
      cases h; exact .refl _ _
    | some pd =>
      obtain ⟨-, rfl⟩ := (restoreRevision_eq_ok hres (p := pd.1) (d := pd.2) hpred).1 h
      intro k
      simp only [lookup_reopenAssertions]
      cases ha : c.assertions.lookup k with
      | none => exact Or.inl ⟨rfl, rfl⟩
      | some a =>
        refine Or.inr ⟨a, _, rfl, rfl, ?_, ?_⟩
        · unfold reopenFact; split <;> rfl
        · unfold reopenFact
          by_cases hc : (decide (a.revisionId = pd.1) && decide (a.status = .superseded) &&
              (reopeningFrom [(t, r, v)] a.tenantId).isSome) = true
          · rw [if_pos hc]
            simp only [Bool.and_eq_true, decide_eq_true_eq] at hc
            have ht : t = a.tenantId := by
              by_contra hne
              have := hc.2
              simp [reopeningFrom, hne] at this
            exact Or.inr ⟨hc.1.2, rfl, hres, ht.symm, by rw [hpred]; simp [hc.1.1]⟩
          · rw [if_neg hc]; exact Or.inl rfl

/-- Undoing keeps what decides later undos. -/
theorem restoreRevision_alike {run t r v : String} {c c' : Core} (h : restoreRevision run c t r v = .ok c') (k : String) :
    c'.restores run k = c.restores run k ∧ c'.predecessor k = c.predecessor k := by
  have hf := restoreRevision_frame h
  refine restores_congr hf.mutations hf.documents ?_
  cases hres : c.restores run r with
  | false =>
    rw [restoreRevision_skip hres] at h
    cases h; rfl
  | true =>
    cases hpred : c.predecessor r with
    | none =>
      rw [restoreRevision_draft hres hpred] at h
      cases h; exact identity_rollBack _ _ _
    | some pd =>
      obtain ⟨-, rfl⟩ := (restoreRevision_eq_ok hres (p := pd.1) (d := pd.2) hpred).1 h
      exact (identity_restoreHead _ _ _ _).trans (identity_rollBack _ _ _)

/-- The loop of undos reopens only what one of its rows reaches. -/
theorem restoreAll_reopens {run : String} {c c' : Core} {rows : List (String × String × String)}
    (h : restoreAll run c rows = .ok c') :
    Reopened (fun a => ∃ row ∈ rows, undoReaches c run row a) c.assertions c'.assertions := by
  refine (foldOk_invariant_mem (I := fun d : Core => (∀ k, d.restores run k = c.restores run k ∧
    d.predecessor k = c.predecessor k) ∧ Reopened (fun a => ∃ row ∈ rows, undoReaches c run row a) c.assertions d.assertions)
    (fun row hrow d d' hd hstep => ?_) ⟨fun _ => ⟨rfl, rfl⟩, .refl _ _⟩ h).2
  obtain ⟨hk, hre⟩ := hd
  have halike := restoreRevision_alike hstep
  refine ⟨fun k => ⟨(halike k).1.trans (hk k).1, (halike k).2.trans (hk k).2⟩, hre.trans fun k => ?_⟩
  rcases restoreRevision_reopens hstep k with hn | ⟨a, a', ha, ha', hsc, hst⟩
  · exact Or.inl hn
  · refine Or.inr ⟨a, a', ha, ha', hsc, hst.imp_right fun ⟨hs, hact, h₁, h₂, h₃⟩ => ⟨hs, hact, row, hrow, ?_, h₂, ?_⟩⟩
    · rw [← (hk row.2.1).1]; exact h₁
    · rw [← (hk row.2.1).2]; exact h₃

/-- A rollback that starts: the run is no longer committed, and beyond the undone facts only what the
revision-level undo of one of its mutations reaches is active again. -/
theorem requestPipelineRollback_reopens {db db' : Db} {run : String} (h : requestPipelineRollback db run = .ok db')
    (hstate : db.core.pipelineState run ≠ some .rolledBack) :
    db'.core.links = db.core.links ∧ db'.core.pipelineState run ≠ some .committed ∧
      Reopened (fun a => ∃ m ∈ db.core.children run,
        undoReaches db.core run (m.tenantId, m.revisionId, m.metadataValidFrom) a) (undoneFacts db run)
        db'.core.assertions := by
  obtain ⟨prun, hprun, ⟨hs, -⟩ | ⟨-, -, runs, moved, restored, cleanup, hcleanup, hr, hmv, hre, hcl, -⟩⟩ :=
    requestPipelineRollback_cases h
  · exact absurd (by rw [Core.pipelineState, hprun, Option.map_some, hs]) hstate
  have hcommits := rollback_noRunCommits hmv hre hcl
  subst hcleanup
  have hfence : Fenced db run moved := fenced_of_moved hmv
  have hlinks := (restorePipelineSupersession_frame hre).links.trans hfence.links
  rw [hfence.restore] at hre
  have hsame : db'.core.assertions = restored.assertions ∧ db'.core.links = db.core.links := by
    unfold closeIfIdle at hcl
    split at hcl
    · have hu := (closeRollback_spec hcl).2
      exact ⟨hu.assertions (by decide), hu.links.trans hlinks⟩
    · cases hcl; exact ⟨rfl, hlinks⟩
  refine ⟨hsame.2, fun hcom => ?_, ?_⟩
  · have hrolling : (runs.lookup run).map (·.state) = some .rollingBack := (transitionPipelineRun_moved hr).2.1 rfl
    have hfirst : (runs.lookup run).map (·.state) = some .committed := hcommits run hcom
    rw [hrolling] at hfirst; cases hfirst
  · rw [hsame.1]
    refine (restoreAll_reopens hre).mono fun a => ?_
    rintro ⟨row, hrow, h₁, h₂, h₃⟩
    obtain ⟨m, hm, rfl⟩ := List.mem_map.1 (List.mem_eraseDups.1 hrow)
    have halike := hfence.alike.restores m.revisionId
    refine ⟨m, hm, halike.1.symm.trans h₁, h₂, ?_⟩
    have h₃ : ((moved.predecessor m.revisionId).any fun pd => pd.1 = a.revisionId) = true := h₃
    rwa [halike.2] at h₃

/-- The condition on a rollback, for a link of a settled mutation of another run. -/
theorem rollbackKeeps_link {c : Core} {run : String} {l : AssertionLink} {s a : Assertion} {m x : Mutation}
    (hok : rollbackKeeps c run = true) (hl : l ∈ c.links.rows) (hs : c.assertions.lookup l.sourceAssertionId = some s)
    (hset : c.settled s.mutationId = true) (hm : c.mutations.lookup s.mutationId = some m) (hne : m.pipelineRunId ≠ run)
    (ha : c.assertions.lookup l.targetAssertionId = some a) (hx : x ∈ c.children run)
    (hreach : undoReaches c run (x.tenantId, x.revisionId, x.metadataValidFrom) a.toAssertionScope) :
    a.status ≠ .superseded := by
  intro hsup
  obtain ⟨h₁, h₂, h₃⟩ := hreach
  unfold rollbackKeeps at hok
  have hlink := List.all_eq_true.1 hok l hl
  have hleft : ((c.assertions.lookup l.sourceAssertionId).any fun s => c.settled s.mutationId &&
      (c.mutations.lookup s.mutationId).any fun m => m.pipelineRunId ≠ run) = true := by
    rw [hs, Option.any_some, hset, hm]; simp [hne]
  rw [hleft, Bool.not_true, Bool.false_or, Bool.not_eq_true', List.any_eq_false] at hlink
  refine hlink x hx ?_
  rw [h₁, ha, Option.any_some, h₃, hsup]
  simpa using h₂

theorem requestPipelineRollback_fired {db db' : Db} {run : String} (h : requestPipelineRollback db run = .ok db')
    (hl : db.core.Linked) (hf : db.core.Fired) (hok : rollbackKeeps db.core run = true) :
    db'.core.Linked ∧ db'.core.Fired := by
  have hop : transact sampleEnv db (.requestPipelineRollback run) = .ok db' := h
  by_cases hstate : db.core.pipelineState run = some .rolledBack
  · obtain ⟨prun, hprun, ⟨-, rfl⟩ | ⟨hne, -⟩⟩ := requestPipelineRollback_cases h
    · exact ⟨hl, hf⟩
    · rw [Core.pipelineState, hprun] at hstate
      exact absurd (Option.some_inj.1 hstate) hne
  obtain ⟨hlinks, hnot, hopen⟩ := requestPipelineRollback_reopens h hstate
  have hfact := lookup_undoneFacts db run
  constructor
  · -- every assertion is still there
    have hsome : ∀ k, (db.core.assertions.lookup k).isSome → (db'.core.assertions.lookup k).isSome := by
      intro k hk
      obtain ⟨a, ha⟩ := Option.isSome_iff_exists.1 hk
      rcases hopen k with ⟨hn, -⟩ | ⟨b, b', -, hb', -⟩
      · rw [hfact, ha] at hn; cases hn
      · rw [hb']; rfl
    intro l hmem
    rw [hlinks] at hmem
    exact ⟨hsome _ (hl l hmem).1, hsome _ (hl l hmem).2⟩
  · intro l hmem s' hs' hset hact
    rw [hlinks] at hmem
    -- the source, and the mutation that wrote it
    obtain ⟨s, hs, hsc⟩ : ∃ s, db.core.assertions.lookup l.sourceAssertionId = some s ∧
        s'.toAssertionScope = s.toAssertionScope := by
      rcases hopen l.sourceAssertionId with ⟨-, hn⟩ | ⟨b, b', hb, hb', hbb, -⟩
      · rw [hn] at hs'; cases hs'
      · rw [hb'] at hs'; cases hs'
        rw [hfact] at hb
        obtain ⟨s, hs, rfl⟩ := Option.map_eq_some_iff.1 hb
        exact ⟨s, hs, hbb.trans (undoFact_scope db run s)⟩
    rw [congrArg (·.mutationId) hsc] at hset
    have hset₀ := transact_settlesNothing rfl hop _ hset
    obtain ⟨m, hm, hcom, -⟩ := Core.settled_iff.1 hset₀
    have hne : m.pipelineRunId ≠ run := by
      rintro rfl
      obtain ⟨m', hm', hscope, -⟩ := (transact_progress hop).kept _ _ hm
      obtain ⟨x, hx, -, hxr⟩ := Core.settled_iff.1 hset
      rw [hm'] at hx; cases hx
      rw [congrArg (·.pipelineRunId) hscope] at hxr
      exact hnot hxr
    have hnofact : unsuperseded db.core run l.targetAssertionId = false := by
      have hstill : stillSuperseded db.core run l.targetAssertionId = true :=
        Table.anyWhere_iff.2 ⟨l, hmem, by simp [hs, hm, hne, hcom]⟩
      unfold unsuperseded
      rw [hstill]; simp
    unfold Core.assertionStatus at hact
    rcases hopen l.targetAssertionId with ⟨-, hn⟩ | ⟨b, b', hb, hb', -, hst⟩
    · rw [hn] at hact; cases hact
    · rw [hb', Option.map_some, Option.some_inj] at hact
      rw [hfact] at hb
      obtain ⟨a, ha, rfl⟩ := Option.map_eq_some_iff.1 hb
      have haid : a.assertionId = l.targetAssertionId := Table.lookup_key ha
      have hundo : undoFact db run a = if retractedBy (rollbackCleanup db.own run) a.assertionId then
          { a with status := .retracted } else a := by
        unfold undoFact
        rw [haid, hnofact]; simp
      have hkept : ∀ st : AssertionStatus, (undoFact db run a).status = st → st ≠ .retracted → a.status = st := by
        intro st hsta hne
        rw [hundo] at hsta
        split at hsta
        · exact absurd hsta.symm hne
        · exact hsta
      rcases hst with hst | ⟨hsup, -, x, hx, hreach⟩
      · refine hf l hmem s hs hset₀ ?_
        rw [Core.assertionStatus, ha, Option.map_some, hkept .active (hst.symm.trans hact) (by decide)]
      · rw [undoFact_scope] at hreach
        exact rollbackKeeps_link hok hmem hs hset₀ hm hne ha hx hreach (hkept .superseded hsup (by decide))

/-! ## Runs -/

/-- The condition on one step: a commit, a new assertion and a rollback leave every link fired. -/
def firesLinks (env : Env) (db : Db) : Op → Bool
  | .completeProjectionOutbox key _ _ _ => commitFires db.core key.mutationId
  | .setMutationState _ id state => state ≠ .committed || commitFires db.core id
  | .insertAssertion id t f => insertFires env db id t f
  | .requestPipelineRollback run => rollbackKeeps db.core run
  | _ => true

/-- A step that commits a mutation keeps every link fired. -/
theorem transact_committing_fired {env : Env} {db db' : Db} {op : Op} {id : String} (hop : op.committing = some id)
    (h : transact env db op = .ok db') (hl : db.core.Linked) (hf : db.core.Fired)
    (hok : commitFires db.core id = true) : db'.core.Linked ∧ db'.core.Fired := by
  rcases transact_commits hop h with hc | ⟨m, hm, hstep⟩
  · rw [hc]; exact ⟨hl, hf⟩
  · have hid : m.mutationId = id := Table.lookup_key hm
    subst hid
    rcases hstep with hp | hc
    · exact ⟨(Core.Quiets.of_eq hp.links hp.assertions).linked hl, hp.fired hm hf hok⟩
    · exact ⟨hc.quiets.linked hl, hc.fired hf hok⟩

theorem transact_fired {env : Env} {db db' : Db} {op : Op} (h : transact env db op = .ok db')
    (hl : db.core.Linked) (hf : db.core.Fired) (hok : firesLinks env db op = true) :
    db'.core.Linked ∧ db'.core.Fired := by
  cases hop : op.committing with
  | some id =>
    refine transact_committing_fired hop h hl hf ?_
    unfold Op.committing at hop
    split at hop
    · cases hop; exact hok
    · split at hop
      · next hs => cases hop; simpa [firesLinks, hs] using hok
      · cases hop
    · cases hop
  | none =>
    have hsettle := transact_settlesNothing hop h
    -- everything that keeps the assertions and supersedes at most
    have quiet : db.core.Quiets db'.core → db'.core.Linked ∧ db'.core.Fired :=
      fun hq => ⟨hq.linked hl, hq.fired hsettle hf⟩
    by_cases hw : Part.assertions ∉ op.writes
    · have hwl : Part.links ∉ op.writes := by
        intro hmem; revert hw
        cases op <;> simp [Op.writes] at hmem ⊢
      exact quiet (.of_eq (transact_frame h hwl) (transact_frame h hw))
    cases op with
    | createSourceChunk q =>
      obtain ⟨c, hc, rfl⟩ := map_eq_ok.1 h
      exact quiet (createSourceChunk_quiets hc)
    | admitMemory q =>
      obtain ⟨core, m, queue, hc, -, -, hdb⟩ := admitMemory_cases h
      have hq := admitProvenance_quiets hc
      exact quiet (by rw [hdb]; exact ⟨hq.links, hq.scopes, hq.active⟩)
    | setMutationState a id s =>
      have hs : s ≠ .committed := by rintro rfl; cases hop
      obtain ⟨⟨db₁, b⟩, hc, rfl⟩ := map_eq_ok.1 h
      rcases (setMutationState_cases hc).2 with rfl | ⟨m, core, b', hm, -, ht, hb, hdb⟩
      · exact ⟨hl, hf⟩
      · obtain ⟨-, hu, -⟩ := transitionMemoryMutation_spec ht
        refine quiet (.of_eq ?_ ?_) <;> rcases hdb with ⟨-, hdb⟩ | ⟨-, rb, -, hdb⟩ <;> rw [hdb]
        · exact hu.links
        · exact hu.links
        · exact hu.assertions hs
        · exact hu.assertions hs
    | insertAssertion id t f =>
      obtain ⟨⟨db₁, aid⟩, hc, rfl⟩ := map_eq_ok.1 h
      exact insertAssertion_fired hc hl hf hok
    | dropFencedAssertion id aid =>
      cases h
      rcases dropFencedAssertion_cases db id aid with hdb | ⟨m, -, -, hdb⟩
      · rw [hdb]; exact ⟨hl, hf⟩
      · rw [hdb] at hsettle ⊢
        have hid : ∀ a : Assertion, (decide (a.assertionId = aid) && decide (a.mutationId = id)) = true →
            a.assertionId = aid := fun a ha => of_decide_eq_true (Bool.and_eq_true_iff.1 ha).1
        exact fired_delete hl hf hsettle hid rfl rfl
    | applySqlCleanup a =>
      cases h
      unfold applySqlCleanup at hsettle ⊢
      split
      · have hid : ∀ x : Assertion, decide (x.assertionId = a.artifactId) = true → x.assertionId = a.artifactId :=
          fun x hx => of_decide_eq_true hx
        exact fired_delete hl hf (fun _ hk => hk) hid rfl rfl
      · exact ⟨hl, hf⟩
      · exact ⟨hl, hf⟩
    | requestPipelineRollback r => exact requestPipelineRollback_fired h hl hf hok
    | purgeDocument t d i =>
      obtain ⟨core, purged, hc, hdb⟩ := purgeDocument_cases h
      have hu := (purgeMutations_spec hc).2.1
      have hass : core.assertions = db.core.assertions := hu.assertions (by decide)
      have hpurged : ∀ k, db'.core.assertions.lookup k = (db.core.assertions.lookup k).map fun a =>
          if a.tenantId = t && a.datasetId = d && a.documentId = i && !ownedByOtherDocument db.own a i then
            { a with status := .retracted, predicate := "", literalValue := a.literalValue.map fun _ => "" } else a := by
        intro k
        rw [hdb, ← hass]
        simp only [purgedCore, Table.lookup_update]
      refine quiet (quiets_map (by rw [hdb]; exact hu.links) hpurged (fun a => ?_) fun a ha => ?_)
      · show (if _ then _ else _ : Assertion).toAssertionScope = _
        split <;> rfl
      · split at ha
        · cases ha
        · exact ha
    | completeProjectionOutbox k w t o => cases hop
    | _ => exact absurd (by simp [Op.writes]) hw

/-- In every run whose steps all meet the condition: once a pipeline run is committed, no link of any of its
committed mutations has an active target. -/
theorem links_fired (env : Env) (ops : List Op)
    (h : Along (exec env) (fun db op => firesLinks env db op = true) Db.empty ops) :
    Along (exec env) (fun db op => (exec env db op).core.Fired) Db.empty ops := by
  have step : ∀ db op, db.core.Linked ∧ db.core.Fired → firesLinks env db op = true →
      (exec env db op).core.Linked ∧ (exec env db op).core.Fired := by
    intro db op hI hok
    unfold exec
    cases ht : transact env db op with
    | error e => exact hI
    | ok db' => exact transact_fired ht hI.1 hI.2 hok
  have start : Db.empty.core.Linked ∧ Db.empty.core.Fired := by
    constructor <;> intro l hl <;> cases hl
  exact along_of_invariant (I := fun db : Db => db.core.Linked ∧ db.core.Fired) step
    (fun db op hI hok => (step db op hI hok).2) start h

/-- A fact about `x`, after which another one no longer holds. -/
def sampleFact (literalValue supersedes : String) : Triplet :=
  ⟨"x", "is", none, some literalValue, none, "", "", "evidence", supersedes⟩

/-- A first run asserts a fact; the two mutations of a second run, which commit one after the other, assert
facts that supersede `first` and `second`. -/
def twoChildrenRun (first second : String) : List Op :=
  admitted (sampleMutation "m0" "r0" "rev0" "c0") ++ asserted "m0" (sampleFact "old" "") ++ projectedAll "m0" ++
    admitted (sampleMutation "m1" "r1" "rev1" "c1") ++ admitted (sampleMutation "m2" "r1" "rev1" "c2") ++
    asserted "m1" (sampleFact "new" first) ++ asserted "m2" (sampleFact "newer" second) ++
    projected "m1" .sql ++ projected "m2" .sql ++ projected "m1" .vector ++ projected "m2" .vector ++
    projected "m1" .graph ++ projected "m2" .graph

theorem links_fired_twice :
    Along (exec sampleEnv) (fun db op => (exec sampleEnv db op).core.Fired) Db.empty (twoChildrenRun "old" "old") :=
  links_fired sampleEnv (twoChildrenRun "old" "old") (by decide +kernel)

/-- The run is committed with both its mutations, but the link of the first one has not fired. -/
theorem first_child_never_fires :
    (reach sampleEnv (twoChildrenRun "old" "")).core.pipelineState "r1" = some .committed ∧
      ¬ (reach sampleEnv (twoChildrenRun "old" "")).core.Fired := by
  refine ⟨by decide +kernel, fun h => ?_⟩
  have hlink : ∃ l ∈ (reach sampleEnv (twoChildrenRun "old" "")).core.links.rows,
      ((reach sampleEnv (twoChildrenRun "old" "")).core.assertions.lookup l.sourceAssertionId).any (fun s =>
        (reach sampleEnv (twoChildrenRun "old" "")).core.settled s.mutationId) = true ∧
      (reach sampleEnv (twoChildrenRun "old" "")).core.assertionStatus l.targetAssertionId = some .active := by
    decide +kernel
  obtain ⟨l, hl, hs, hact⟩ := hlink
  obtain ⟨s, hlook, hset⟩ := (Option.any_eq_true _ _).1 hs
  exact h l hl s hlook hset hact

end Mesa.Ledger
