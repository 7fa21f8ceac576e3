/-
What the runtime row and the generations have to do with each other over any history of calls: one
generation is active, and it is the one that the row names.
-/
import Mesa.Operations.Generations

namespace Mesa.Operations

open Mesa.Foundation

variable {s s' : ProjectionStore}

/-- The active generation is the one that the runtime row names, and its previous generation, if it has
one, is retained. -/
structure ProjectionStore.Placed (s : ProjectionStore) : Prop where
  active : ∀ g, s.stateOf g = some .active ↔ g = s.runtime.activeGenerationId
  previous : ∀ g, s.runtime.previousGenerationId = some g → s.stateOf g = some .retained

/-! ## Statements -/

@[simp] theorem move_runtime (g : String) (source target : Lifecycle) : (s.move g source target).runtime = s.runtime := rfl

@[simp] theorem move_operations (g : String) (source target : Lifecycle) :
    (s.move g source target).operations = s.operations := rfl

theorem lookup_move (g k : String) (source target : Lifecycle) :
    (s.move g source target).generations.lookup k = (s.generations.lookup k).map fun r =>
      if r.generationId = g && r.lifecycleState = source then { r with lifecycleState := target } else r :=
  Table.lookup_update _ _ (fun r : Generation => { r with lifecycleState := target }) (fun _ => rfl) k

theorem stateOf_move (g k : String) (source target : Lifecycle) :
    (s.move g source target).stateOf k =
      if k = g ∧ s.stateOf k = some source then some target else s.stateOf k := by
  unfold ProjectionStore.stateOf
  rw [lookup_move, Option.map_map]
  cases hlookup : s.generations.lookup k with
  | none => simp
  | some r =>
    obtain rfl : r.generationId = k := Table.lookup_key hlookup
    by_cases hg : r.generationId = g <;> by_cases hsource : r.lifecycleState = source <;> simp [hg, hsource]

theorem point_eq_ok {condition : Runtime → Bool} {f : Fence} {now : Nat} {active : String} {previous : Option String}
    {message : String} :
    s.point condition f now active previous message = .ok s' ↔
      (condition s.runtime = true ∧ (s.operations.lookup f.operationId).any (f.holds .readyToCutover · now) = true) ∧
        s' = { s with runtime := ⟨active, previous, s.runtime.fencingToken + 1⟩ } := by
  unfold ProjectionStore.point
  split
  · next h => simp [h, eq_comm]
  · next h => simp [h]

theorem fenced_eq_ok {f : Fence} {state : OperationState} {now : Nat} {x : Operation} :
    s.fenced f state now = .ok x ↔ s.operations.lookup f.operationId = some x ∧ f.holds state x now = true := by
  unfold ProjectionStore.fenced
  cases s.operations.lookup f.operationId with
  | none => simp
  | some y =>
    dsimp only
    split
    · next h =>
      constructor
      · rintro ⟨⟩
        exact ⟨rfl, h⟩
      · rintro ⟨⟨⟩, -⟩
        rfl
    · next h =>
      constructor
      · rintro ⟨⟩
      · rintro ⟨⟨⟩, hx⟩
        exact absurd hx h

theorem identifier_eq_ok {value label a : String} :
    identifier value label = .ok a ↔ isIdentifier value.toList = true ∧ a = value := by
  unfold identifier
  split
  · next h => simp [h, eq_comm]
  · next h => simp [h]

theorem operationIdentifier_eq {value a : String} (h : operationIdentifier value = .ok a) : a = value := by
  unfold operationIdentifier at h
  split at h
  · cases h
  · cases h
    rfl

theorem validate_eq {f g : Fence} (h : f.validate = .ok g) : g = f := by
  obtain ⟨_, h₁, h⟩ := bind_eq_ok.1 h
  obtain ⟨_, h₂, h⟩ := bind_eq_ok.1 h
  obtain ⟨_, h₃, h⟩ := bind_eq_ok.1 h
  cases h
  rw [operationIdentifier_eq h₁, (identifier_eq_ok.1 h₂).2, operationIdentifier_eq h₃]

theorem holds_iff {e : Expected} {r : Runtime} :
    e.holds r = true ↔ r.activeGenerationId = e.activeGenerationId ∧ r.fencingToken = e.runtimeFencingToken := by
  rw [Expected.holds, Bool.and_eq_true, decide_eq_true_eq, decide_eq_true_eq]

/-! ## Calls -/

/-- What a call of `create_staging` can do. -/
theorem createStaging_cases {q : StagingRequest} {now : Nat} (h : createStaging s q now = .ok s') :
    s' = s ∨
    (∃ g, s.runtime.references g = false ∧ s.stateOf g = some .failed ∧ s' = s.move g .failed .staging) ∨
    (∃ w : Generation, w.lifecycleState = .staging ∧ s.generations.lookup w.generationId = none ∧
      s' = { s with generations := s.generations.insertOrIgnore w }) := by
  obtain ⟨operationId, -, h⟩ := bind_eq_ok.1 h
  obtain ⟨generationId, -, h⟩ := bind_eq_ok.1 h
  split at h
  · cases h
  obtain ⟨fence, -, h⟩ := bind_eq_ok.1 h
  obtain ⟨hash, -, h⟩ := bind_eq_ok.1 h
  obtain ⟨manifest, -, h⟩ := bind_eq_ok.1 h
  obtain ⟨x, -, h⟩ := bind_eq_ok.1 h
  cases hlookup : s.generations.lookup generationId with
  | some existing =>
    rw [hlookup] at h
    change s.restage existing _ = .ok s' at h
    unfold ProjectionStore.restage at h
    split at h
    · cases h
    split at h
    · next hfailed =>
      split at h
      · cases h
      · next hfree =>
        cases h
        refine .inr (.inl ⟨generationId, Bool.eq_false_iff.2 hfree, ?_, rfl⟩)
        rw [ProjectionStore.stateOf, hlookup, Option.map_some, hfailed]
    · split at h
      · cases h
      · cases h
        exact .inl rfl
  | none =>
    rw [hlookup] at h
    change s.insert _ = .ok s' at h
    unfold ProjectionStore.insert at h
    split at h
    · cases h
    · cases h
      exact .inr (.inr ⟨_, rfl, hlookup, rfl⟩)

/-- What a cutover does, and when. -/
theorem activate_cases {g : String} {f : Fence} {e : Expected} {readAt writeAt : Nat}
    (h : activate s g f e readAt writeAt = .ok s') :
    (isIdentifier g.toList = true ∧ f.validate = .ok f ∧ (s.operations.lookup f.operationId).any
      (fun x => decide (x.targetGenerationId = some g)) = true) ∧
    e.holds s.runtime = true ∧ s.stateOf e.activeGenerationId = some .active ∧ s.stateOf g = some .staging ∧
    s' = { (s.move e.activeGenerationId .active .retained).move g .staging .active with
      runtime := ⟨g, some e.activeGenerationId, s.runtime.fencingToken + 1⟩ } := by
  obtain ⟨generation, hg, h₁⟩ := bind_eq_ok.1 h
  obtain ⟨fence, hf, h₂⟩ := bind_eq_ok.1 h₁
  obtain ⟨expectedActive, he, h₃⟩ := bind_eq_ok.1 h₂
  obtain ⟨x, hx, h₄⟩ := bind_eq_ok.1 h₃
  clear h h₁ h₂ h₃
  obtain ⟨hg, rfl⟩ := identifier_eq_ok.1 hg
  obtain ⟨-, rfl⟩ := identifier_eq_ok.1 he
  obtain rfl := validate_eq hf
  split at h₄
  · cases h₄
  next htarget =>
  split at h₄
  · cases h₄
  next hexpected =>
  split at h₄
  · cases h₄
  next hstates =>
  simp only [ne_eq, not_or, not_not] at hstates
  obtain ⟨-, rfl⟩ := point_eq_ok.1 h₄
  refine ⟨⟨hg, hf, ?_⟩, not_not.1 hexpected, hstates.1, hstates.2, rfl⟩
  rw [(fenced_eq_ok.1 hx).1]
  simpa using htarget

/-- What a rollback does. -/
theorem rollback_cases {f : Fence} {e : Expected} {readAt writeAt : Nat} (h : rollback s f e readAt writeAt = .ok s') :
    ∃ retained, s.runtime.previousGenerationId = some retained ∧ e.holds s.runtime = true ∧
      s.stateOf e.activeGenerationId = some .active ∧ s.stateOf retained = some .retained ∧
      s' = { (s.move e.activeGenerationId .active .failed).move retained .retained .active with
        runtime := ⟨retained, none, s.runtime.fencingToken + 1⟩ } := by
  obtain ⟨fence, -, h₁⟩ := bind_eq_ok.1 h
  obtain ⟨expectedActive, he, h₂⟩ := bind_eq_ok.1 h₁
  obtain ⟨x, -, h₃⟩ := bind_eq_ok.1 h₂
  clear h h₁ h₂
  obtain ⟨-, rfl⟩ := identifier_eq_ok.1 he
  split at h₃
  · cases h₃
  cases hprevious : s.runtime.previousGenerationId with
  | none =>
    rw [hprevious] at h₃
    cases h₃
  | some retained =>
    rw [hprevious] at h₃
    dsimp only at h₃
    split at h₃
    · cases h₃
    next hexpected =>
    split at h₃
    · cases h₃
    next hstates =>
    simp only [ne_eq, not_or, not_not] at hstates
    obtain ⟨-, rfl⟩ := point_eq_ok.1 h₃
    exact ⟨retained, rfl, not_not.1 hexpected, hstates.1, hstates.2, rfl⟩

/-- When a rollback goes through. -/
theorem rollback_ok {f : Fence} {e : Expected} {readAt writeAt : Nat} {x : Operation} {retained : String}
    (hvalidate : f.validate = .ok f) (hidentifier : isIdentifier e.activeGenerationId.toList = true)
    (hlookup : s.operations.lookup f.operationId = some x) (hread : f.holds .readyToCutover x readAt = true)
    (hwrite : f.holds .readyToCutover x writeAt = true) (htarget : x.targetGenerationId = some e.activeGenerationId)
    (hprevious : s.runtime.previousGenerationId = some retained) (hexpected : e.holds s.runtime = true)
    (hactive : s.stateOf e.activeGenerationId = some .active) (hretained : s.stateOf retained = some .retained) :
    rollback s f e readAt writeAt = .ok { (s.move e.activeGenerationId .active .failed).move retained .retained .active with
      runtime := ⟨retained, none, s.runtime.fencingToken + 1⟩ } := by
  refine bind_eq_ok.2 ⟨f, hvalidate, bind_eq_ok.2 ⟨_, identifier_eq_ok.2 ⟨hidentifier, rfl⟩,
    bind_eq_ok.2 ⟨x, fenced_eq_ok.2 ⟨hlookup, hread⟩, ?_⟩⟩⟩
  rw [if_neg (not_not.2 htarget), hprevious]
  dsimp only
  rw [if_neg (not_not.2 hexpected), if_neg (by rw [not_or, not_not, not_not]; exact ⟨hactive, hretained⟩)]
  refine point_eq_ok.2 ⟨⟨?_, ?_⟩, rfl⟩
  · rw [move_runtime, move_runtime, hexpected, hprevious]
    simp
  · rw [move_operations, move_operations, hlookup]
    exact hwrite

/-! ## The invariant -/

theorem placed_initial : ProjectionStore.initial.Placed where
  active g := by
    by_cases hg : g = "legacy"
    · subst hg
      exact iff_of_true rfl rfl
    · refine iff_of_false ?_ hg
      rw [ProjectionStore.stateOf, Table.lookup_eq_none.2]
      · simp
      · intro r hr
        obtain rfl := List.mem_singleton.1 hr
        exact fun h => hg h.symm
  previous _ h := by cases h

theorem ProjectionStore.Placed.congr (h : s.Placed) (hruntime : s'.runtime = s.runtime)
    (hstate : ∀ g l, l = .active ∨ l = .retained → (s'.stateOf g = some l ↔ s.stateOf g = some l)) : s'.Placed where
  active g := by rw [hstate g .active (.inl rfl), hruntime, h.active]
  previous g hg := (hstate g .retained (.inr rfl)).2 (h.previous g (hruntime ▸ hg))

theorem stateOf_insert {w : Generation} (hw : s.generations.lookup w.generationId = none) (g : String) :
    ProjectionStore.stateOf { s with generations := s.generations.insertOrIgnore w } g =
      if g = w.generationId then some w.lifecycleState else s.stateOf g := by
  unfold ProjectionStore.stateOf
  rw [Table.lookup_insertOrIgnore]
  by_cases hg : g = w.generationId
  · subst hg
    simp [hw, Keyed.key]
  · rw [if_neg hg]
    have hkey : ¬ (Keyed.key w = g) := fun h => hg h.symm
    simp [hkey]

theorem stateOf_adopt (manifest g : String) : (s.adopt manifest).stateOf g = s.stateOf g := by
  unfold ProjectionStore.stateOf ProjectionStore.adopt
  rw [Table.lookup_update, Option.map_map]
  congr 1
  funext r
  by_cases hr : r.generationId = s.runtime.activeGenerationId <;> simp [hr]

theorem placed_createStaging (h : s.Placed) {q : StagingRequest} {now : Nat} (hs : createStaging s q now = .ok s') :
    s'.Placed := by
  rcases createStaging_cases hs with rfl | ⟨g, -, hfailed, rfl⟩ | ⟨w, hw, hfresh, rfl⟩
  · exact h
  · refine h.congr rfl fun k l hl => ?_
    rw [stateOf_move]
    split
    · next hk =>
      rw [hk.2]
      rcases hl with rfl | rfl <;> simp
    · rfl
  · refine h.congr rfl fun k l hl => ?_
    rw [stateOf_insert hfresh]
    split
    · next hk =>
      subst hk
      rw [hw, ProjectionStore.stateOf, hfresh]
      rcases hl with rfl | rfl <;> simp
    · rfl

/-- The states after the active generation has given way to another one. -/
theorem stateOf_swap {old new : String} {source left : Lifecycle} (hold : s.stateOf old = some .active)
    (hnew : s.stateOf new = some source) (hsource : source ≠ .active) (k : String) :
    ((s.move old .active left).move new source .active).stateOf k =
      if k = new then some .active else if k = old then some left else s.stateOf k := by
  have hne : new ≠ old := by
    rintro rfl
    rw [hold] at hnew
    exact hsource (Option.some.inj hnew).symm
  rw [stateOf_move, stateOf_move]
  by_cases hk : k = new
  · subst hk
    simp [hne, hnew]
  · by_cases hk' : k = old
    · subst hk'
      simp [hk, hold]
    · simp [hk, hk']

theorem ProjectionStore.Placed.swap (h : s.Placed) {old new : String} {source left : Lifecycle} {previous : Option String}
    {token : Nat} (hold : s.stateOf old = some .active) (hnew : s.stateOf new = some source) (hsource : source ≠ .active)
    (hprevious : ∀ g, previous = some g → g = old ∧ left = .retained) (hleft : left ≠ .active) :
    ProjectionStore.Placed { (s.move old .active left).move new source .active with runtime := ⟨new, previous, token⟩ } where
  active k := by
    change ((s.move old .active left).move new source .active).stateOf k = _ ↔ k = new
    rw [stateOf_swap hold hnew hsource]
    by_cases hk : k = new
    · simp [hk]
    · rw [if_neg hk]
      refine iff_of_false ?_ hk
      split
      · exact fun heq => hleft (Option.some.inj heq)
      · next hk' =>
        rw [h.active]
        exact fun heq => hk' (heq.trans ((h.active _).1 hold).symm)
  previous k hk := by
    obtain ⟨rfl, rfl⟩ := hprevious k hk
    change ((s.move k .active .retained).move new source .active).stateOf k = _
    rw [stateOf_swap hold hnew hsource, if_neg, if_pos rfl]
    rintro rfl
    rw [hold] at hnew
    exact hsource (Option.some.inj hnew).symm

theorem placed_activate (h : s.Placed) {g : String} {f : Fence} {e : Expected} {readAt writeAt : Nat}
    (hs : activate s g f e readAt writeAt = .ok s') : s'.Placed := by
  obtain ⟨-, -, hactive, hstaging, rfl⟩ := activate_cases hs
  exact h.swap hactive hstaging (by decide) (fun k hk => ⟨(Option.some.inj hk).symm, rfl⟩) (by decide)

theorem placed_rollback (h : s.Placed) {f : Fence} {e : Expected} {readAt writeAt : Nat}
    (hs : rollback s f e readAt writeAt = .ok s') : s'.Placed := by
  obtain ⟨retained, -, -, hactive, hretained, rfl⟩ := rollback_cases hs
  exact h.swap hactive hretained (by decide) (fun k hk => by cases hk) (by decide)

theorem placed_exec (h : s.Placed) (c : GenerationCall) : (s.exec c).Placed := by
  refine orKeep_invariant h fun t ht => ?_
  cases c with
  | createStaging q readAt => exact placed_createStaging h ht
  | activate g f e readAt writeAt => exact placed_activate h ht
  | rollback f e readAt writeAt => exact placed_rollback h ht
  | operations operations =>
    cases ht
    exact h.congr rfl fun _ _ _ => Iff.rfl
  | adopt manifest =>
    cases ht
    exact h.congr rfl fun k _ _ => by rw [stateOf_adopt]

/-! ## The fencing token -/

/-- The token has grown if the active generation is another one. -/
structure Runtime.Later (r r' : Runtime) : Prop where
  token : r.fencingToken ≤ r'.fencingToken
  changed : r'.activeGenerationId ≠ r.activeGenerationId → r.fencingToken < r'.fencingToken

theorem Runtime.Later.refl (r : Runtime) : r.Later r := ⟨le_rfl, fun h => absurd rfl h⟩

theorem Runtime.Later.trans {r r' r'' : Runtime} (h : r.Later r') (h' : r'.Later r'') : r.Later r'' where
  token := h.token.trans h'.token
  changed hne := by
    by_cases hmid : r'.activeGenerationId = r.activeGenerationId
    · have hlt := h'.changed fun heq => hne (heq.trans hmid)
      exact lt_of_le_of_lt h.token hlt
    · exact lt_of_lt_of_le (h.changed hmid) h'.token

theorem later_exec (c : GenerationCall) : s.runtime.Later (s.exec c).runtime := by
  refine orKeep_invariant (P := fun t : ProjectionStore => s.runtime.Later t.runtime) (.refl _) fun t ht => ?_
  cases c with
  | createStaging q readAt =>
    rcases createStaging_cases ht with rfl | ⟨g, -, -, rfl⟩ | ⟨w, -, -, rfl⟩ <;> exact .refl _
  | activate g f e readAt writeAt =>
    obtain ⟨-, -, -, -, rfl⟩ := activate_cases ht
    exact ⟨Nat.le_succ _, fun _ => Nat.lt_succ_self _⟩
  | rollback f e readAt writeAt =>
    obtain ⟨retained, -, -, -, -, rfl⟩ := rollback_cases ht
    exact ⟨Nat.le_succ _, fun _ => Nat.lt_succ_self _⟩
  | operations operations =>
    cases ht
    exact .refl _
  | adopt manifest =>
    cases ht
    exact .refl _

theorem later_run (s : ProjectionStore) (calls : List GenerationCall) :
    s.runtime.Later (run ProjectionStore.exec s calls).runtime :=
  stable_run (I := fun t : ProjectionStore => s.runtime.Later t.runtime) (fun _ c h => h.trans (later_exec c)) (.refl _)

/-! ## Staging and going back -/

/-- Staging leaves the generations that the runtime row names as they are. -/
theorem createStaging_referenced (h : s.Placed) (q : StagingRequest) (readAt : Nat) {g : String}
    (hg : s.runtime.references g = true) :
    (s.exec (.createStaging q readAt)).generations.lookup g = s.generations.lookup g := by
  refine orKeep_invariant (P := fun t : ProjectionStore => t.generations.lookup g = s.generations.lookup g) rfl fun t ht => ?_
  rcases createStaging_cases ht with rfl | ⟨k, hfree, -, rfl⟩ | ⟨w, -, hfresh, rfl⟩
  · rfl
  · have hne : g ≠ k := by
      rintro rfl
      rw [hfree] at hg
      cases hg
    rw [lookup_move]
    cases hlookup : s.generations.lookup g with
    | none => rfl
    | some r =>
      obtain rfl : r.generationId = g := Table.lookup_key hlookup
      simp [hne]
  · refine Table.lookup_insertOrIgnore_of_ne ?_
    rintro rfl
    have hplaced : s.stateOf (Keyed.key w) = some .active ∨ s.stateOf (Keyed.key w) = some .retained := by
      rw [Runtime.references, Bool.or_eq_true, decide_eq_true_eq, decide_eq_true_eq] at hg
      rcases hg with hg | hg
      · exact .inl ((h.active _).2 hg.symm)
      · exact .inr (h.previous _ hg)
    have hnone : s.stateOf (Keyed.key w) = none := by
      rw [ProjectionStore.stateOf, show s.generations.lookup (Keyed.key w) = none from hfresh, Option.map_none]
    rw [hnone] at hplaced
    rcases hplaced with hplaced | hplaced <;> cases hplaced

/-- A rollback right after a cutover takes it back: the cutover's generation has failed, and the others
are as before. -/
theorem rollback_activate {t : ProjectionStore} {g : String} {f f' : Fence} {e e' : Expected} {readAt writeAt readAt'
    writeAt' : Nat} (ha : activate s g f e readAt writeAt = .ok t)
    (hr : rollback t f' e' readAt' writeAt' = .ok s') :
    s'.runtime.activeGenerationId = s.runtime.activeGenerationId ∧
      ∀ k, s'.stateOf k = if k = g then some .failed else s.stateOf k := by
  obtain ⟨-, hexpected, hactive, hstaging, rfl⟩ := activate_cases ha
  obtain ⟨retained, hretained, hexpected', hactive', hstate', rfl⟩ := rollback_cases hr
  obtain rfl : e.activeGenerationId = retained := Option.some.inj hretained
  obtain hg : g = e'.activeGenerationId := (holds_iff.1 hexpected').1
  subst hg
  have hne : e.activeGenerationId ≠ e'.activeGenerationId := by
    intro heq
    rw [← heq, hactive] at hstaging
    cases hstaging
  refine ⟨(holds_iff.1 hexpected).1.symm, fun k => ?_⟩
  have hmid : ∀ k, ((s.move e.activeGenerationId .active .retained).move e'.activeGenerationId .staging .active).stateOf k =
      _ := stateOf_swap hactive hstaging (by decide)
  refine (stateOf_swap hactive' hstate' (by decide) k).trans ?_
  by_cases hk : k = e.activeGenerationId
  · rw [if_pos hk, if_neg (by rw [hk]; exact hne), hk, hactive]
  · rw [if_neg hk]
    by_cases hk' : k = e'.activeGenerationId
    · rw [if_pos hk', if_pos hk']
    · rw [if_neg hk', if_neg hk']
      refine (hmid k).trans ?_
      rw [if_neg hk', if_neg hk]

/-- It goes through under the claim of the cutover, as long as the lease runs. -/
theorem rollback_activate_ok {t : ProjectionStore} {g : String} {f : Fence} {e : Expected} {readAt writeAt readAt'
    writeAt' : Nat} (ha : activate s g f e readAt writeAt = .ok t)
    (hread : (s.operations.lookup f.operationId).any (f.holds .readyToCutover · readAt') = true)
    (hwrite : (s.operations.lookup f.operationId).any (f.holds .readyToCutover · writeAt') = true) :
    ∃ s', rollback t f ⟨g, t.runtime.fencingToken⟩ readAt' writeAt' = .ok s' := by
  obtain ⟨⟨hidentifier, hvalidate, htarget⟩, -, hactive, hstaging, rfl⟩ := activate_cases ha
  cases hlookup : s.operations.lookup f.operationId with
  | none =>
    rw [hlookup] at hread
    cases hread
  | some x =>
    rw [hlookup, Option.any_some] at hread hwrite htarget
    have hne : e.activeGenerationId ≠ g := by
      intro heq
      rw [← heq, hactive] at hstaging
      cases hstaging
    have hstate : ∀ k, ((s.move e.activeGenerationId .active .retained).move g .staging .active).stateOf k = _ :=
      stateOf_swap hactive hstaging (by decide)
    refine ⟨_, rollback_ok hvalidate hidentifier hlookup hread hwrite (of_decide_eq_true htarget) rfl
      (holds_iff.2 ⟨rfl, rfl⟩) ((hstate g).trans (if_pos rfl)) ((hstate e.activeGenerationId).trans ?_)⟩
    rw [if_neg hne, if_pos rfl]

/-! ## Runs -/

/-- The state after a history of calls, from the tables of the migration. -/
def ProjectionStore.reach (calls : List GenerationCall) : ProjectionStore := run ProjectionStore.exec .initial calls

/-- After every history of calls: the runtime row and the states of the generations fit together; the
token grows with every later change of the active generation; a call that raises leaves the tables as
they are; staging leaves what the runtime row names; and a rollback right after a cutover goes back. -/
theorem generations_sound (calls : List GenerationCall) :
    (ProjectionStore.reach calls).Placed ∧
    (∀ later, (ProjectionStore.reach calls).runtime.Later (ProjectionStore.reach (calls ++ later)).runtime) ∧
    (∀ c e, (ProjectionStore.reach calls).transact c = .error e →
      ProjectionStore.reach (calls ++ [c]) = ProjectionStore.reach calls) ∧
    (∀ q readAt g, (ProjectionStore.reach calls).runtime.references g = true →
      (ProjectionStore.reach (calls ++ [.createStaging q readAt])).generations.lookup g =
        (ProjectionStore.reach calls).generations.lookup g) ∧
    (∀ g f e readAt writeAt t, activate (ProjectionStore.reach calls) g f e readAt writeAt = .ok t →
      (∀ f' e' readAt' writeAt' s', rollback t f' e' readAt' writeAt' = .ok s' →
        s'.runtime.activeGenerationId = (ProjectionStore.reach calls).runtime.activeGenerationId ∧
          ∀ k, s'.stateOf k = if k = g then some .failed else (ProjectionStore.reach calls).stateOf k) ∧
      ∀ readAt' writeAt',
        (t.operations.lookup f.operationId).any (f.holds .readyToCutover · readAt') = true →
        (t.operations.lookup f.operationId).any (f.holds .readyToCutover · writeAt') = true →
        ∃ s', rollback t f ⟨g, t.runtime.fencingToken⟩ readAt' writeAt' = .ok s') := by
  have hplaced : (ProjectionStore.reach calls).Placed := stable_run (I := ProjectionStore.Placed)
    (fun _ c h => placed_exec h c) placed_initial
  refine ⟨hplaced, fun later => ?_, fun c e hc => ?_, fun q readAt g hg => ?_, fun g f e readAt writeAt t ht => ⟨?_, ?_⟩⟩
  · rw [ProjectionStore.reach, ProjectionStore.reach, run_append]
    exact later_run _ later
  · rw [ProjectionStore.reach, run_snoc]
    exact congrArg (orKeep _) hc
  · rw [ProjectionStore.reach, run_snoc]
    exact createStaging_referenced hplaced q readAt hg
  · exact fun f' e' readAt' writeAt' s' hr => rollback_activate ht hr
  · intro readAt' writeAt' hread hwrite
    have hoperations : t.operations = (ProjectionStore.reach calls).operations := by
      obtain ⟨-, -, -, -, rfl⟩ := activate_cases ht
      rfl
    rw [hoperations] at hread hwrite
    exact rollback_activate_ok ht hread hwrite

end Mesa.Operations
