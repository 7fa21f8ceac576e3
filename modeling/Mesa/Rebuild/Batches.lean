/-
The batches of a replay, over any durable state that holds the stores. Wherever a batch is cut, the
stores hold a first part of the log that is at least as long as what the offsets say; when it ends,
they hold the rows of the batch as well.
-/
import Mesa.Rebuild.Content

namespace Mesa.Rebuild

open Mesa.Foundation

/-- The caches know rows that have been written. -/
structure Remembered (s : Snapshot) {F : Type} (enc : Encoder F) (done : List (StoreWrite F)) (c : Provider.Caches) :
    Prop where
  unstaged : c.stagedNodes = [] ∧ c.stagedAssertions = []
  nodes : ∀ id ∈ c.knownNodes, ∃ i : EntityItem, Provider.compositeId i.agentId i.entityId = id ∧
    itemWrite enc .graphEntity i ∈ done
  assertions : ∀ id ∈ c.knownAssertions, ∃ i ∈ s.items .graphAssertion,
    Provider.compositeId (AssertionItem.agentId i) i.assertionId = id ∧ itemWrite enc .graphAssertion i ∈ done

variable {F σ : Type} {s : Snapshot} {graphEnabled : Bool} {enc : Encoder F} {put : StoreWrite F → σ → σ}
  {view : σ → Staging F} {R : σ → Prop} {X : Prop} {E : RebuildError → σ → Prop} {p p' : Nat} {o : Offsets}

theorem Remembered.mono {done done' : List (StoreWrite F)} {c : Provider.Caches} (h : Remembered s enc done c)
    (hsub : ∀ w ∈ done, w ∈ done') : Remembered s enc done' c where
  unstaged := h.unstaged
  nodes id hid := by
    obtain ⟨i, hi, hw⟩ := h.nodes id hid
    exact ⟨i, hi, hsub _ hw⟩
  assertions id hid := by
    obtain ⟨i, hi, hid, hw⟩ := h.assertions id hid
    exact ⟨i, hi, hid, hsub _ hw⟩

theorem remembered_noCaches (done : List (StoreWrite F)) : Remembered s enc done noCaches :=
  ⟨⟨rfl, rfl⟩, fun _ h => (by cases h), fun _ h => (by cases h)⟩

/-- The stores hold a first part of the log, of `p` rows or more. -/
def Holds (s : Snapshot) (graphEnabled : Bool) (enc : Encoder F) (view : σ → Staging F) (R : σ → Prop) (p : Nat)
    (x : σ) : Prop :=
  R x ∧ ∃ k, p ≤ k ∧ k ≤ (replayLog s graphEnabled enc).length ∧ view x = content s graphEnabled enc k

theorem Holds.mono {x : σ} (h : Holds s graphEnabled enc view R p x) (hp : p' ≤ p) :
    Holds s graphEnabled enc view R p' x := by
  obtain ⟨hr, k, hpk, hk, hview⟩ := h
  exact ⟨hr, k, hp.trans hpk, hk, hview⟩

/-- What a write to the stores does to the durable state. -/
structure Stored (put : StoreWrite F → σ → σ) (view : σ → Staging F) (R : σ → Prop) : Prop where
  view : ∀ w x, view (put w x) = (view x).write w
  kept : ∀ w x, R x → R (put w x)

theorem Holds.write {x : σ} {w : StoreWrite F} {ws : List (StoreWrite F)} (hstored : Stored put view R)
    (h : Holds s graphEnabled enc view R p x) (hws : ws <+: (replayLog s graphEnabled enc).drop p)
    (hw : ∀ t : Staging F, t.write w = ws.foldl Staging.write t) :
    Holds s graphEnabled enc view R (p + ws.length) (put w x) := by
  obtain ⟨hr, k, hpk, hk, hview⟩ := h
  have hlength := hws.length_le
  rw [List.length_drop] at hlength
  refine ⟨hstored.kept w x hr, max k (p + ws.length), le_max_right .., ?_, ?_⟩
  · rcases ws with _ | ⟨v, ws⟩
    · simpa using ⟨hk, hpk.trans hk⟩
    · rw [List.length_cons] at hlength ⊢
      omega
  · rw [hstored.view, hview, hw]
    exact (replayLog_redoable s graphEnabled enc).redo_all hpk hws

/-- A row that is skipped because it is settled. -/
theorem Holds.skip {x : σ} {w : StoreWrite F} (h : Holds s graphEnabled enc view R p x)
    (hw : (replayLog s graphEnabled enc)[p]? = some w)
    (hsettled : ∀ k, p ≤ k → (content s graphEnabled enc k).write w = content s graphEnabled enc k) :
    Holds s graphEnabled enc view R (p + 1) x := by
  obtain ⟨hr, k, hpk, hk, hview⟩ := h
  rcases hpk.lt_or_eq with hlt | rfl
  · exact ⟨hr, k, hlt, hk, hview⟩
  · refine ⟨hr, p + 1, le_rfl, (List.getElem?_eq_some_iff.1 hw).1, ?_⟩
    rw [hview]
    exact (hsettled p le_rfl).symm.trans (applied_succ hw).symm

/-! ## One row -/

theorem mem_take_succ_of_get {log : List (StoreWrite F)} {w : StoreWrite F} (hw : log[p]? = some w) :
    w ∈ log.take (p + 1) := by
  rw [List.take_add_one, hw]
  simp

/-- What a cache remembers is settled in the stores. -/
theorem settled_of_done {lane : ReplayLane} {i : lane.Item}
    (hdone : itemWrite enc lane i ∈ (replayLog s graphEnabled enc).take p) {k : Nat} (hpk : p ≤ k) :
    Settled enc (content s graphEnabled enc k) lane i :=
  (settled_iff ..).1 ((replayLog_redoable s graphEnabled enc).absorbed
    ((List.take_subset_take_left _ hpk) hdone))

/-- The write of one statement. -/
theorem leaves_statement {statement : Provider.Statement AssertionProperties} (hstored : Stored put view R)
    (hw : (replayLog s graphEnabled enc)[p]? = some (.graph statement)) (hp : p' ≤ p) :
    Durable.Leaves (Holds s graphEnabled enc view R p) (Durable.write (put (.graph statement)))
      (Holds s graphEnabled enc view R p') (fun _ => Holds s graphEnabled enc view R (p + 1)) E := by
  have hnext : ∀ x, Holds s graphEnabled enc view R p x → Holds s graphEnabled enc view R (p + 1)
      (put (.graph statement) x) := by
    intro x hx
    refine hx.write hstored (?_ : [StoreWrite.graph statement] <+: _) fun _ => rfl
    obtain ⟨hlt, hget⟩ := List.getElem?_eq_some_iff.1 hw
    rw [List.drop_eq_getElem_cons hlt, hget]
    exact ⟨_, rfl⟩
  exact Durable.Leaves.write (fun x hx => (hnext x hx).mono (by omega)) hnext

/-- Outside of a transaction an insert adds to the known ids. -/
theorem finish_entity {c : Provider.Caches} (hc : c.stagedNodes = []) (i : EntityItem) :
    c.finish [] i.operation = { c with knownNodes := Provider.compositeId i.agentId i.entityId :: c.knownNodes } := by
  obtain ⟨knownNodes, knownAssertions, stagedNodes, stagedAssertions⟩ := c
  cases hc
  rfl

theorem finish_assertion {c : Provider.Caches} (hc : c.stagedAssertions = []) (i : AssertionItem) :
    c.finish [] i.operation =
      { c with knownAssertions := Provider.compositeId i.agentId i.assertionId :: c.knownAssertions } := by
  obtain ⟨knownNodes, knownAssertions, stagedNodes, stagedAssertions⟩ := c
  cases hc
  rfl

theorem leaves_insertEntity {i : EntityItem} {c : Provider.Caches} (hstored : Stored put view R)
    (hw : (replayLog s graphEnabled enc)[p]? = some (itemWrite enc .graphEntity i)) (hp : p' ≤ p)
    (hc : Remembered s enc ((replayLog s graphEnabled enc).take p) c) :
    Durable.Leaves (Holds s graphEnabled enc view R p) (insert put c i.operation)
      (Holds s graphEnabled enc view R p')
      (fun c' x => Remembered s enc ((replayLog s graphEnabled enc).take (p + 1)) c' ∧
        Holds s graphEnabled enc view R (p + 1) x) E := by
  have hsub : ∀ w ∈ (replayLog s graphEnabled enc).take p, w ∈ (replayLog s graphEnabled enc).take (p + 1) :=
    fun _ h => List.take_subset_take_left _ (Nat.le_succ p) h
  unfold insert
  rw [if_neg (by simp [EntityItem.operation, Provider.Operation.invalid])]
  refine Durable.Leaves.ite (fun hknown => Durable.Leaves.pure fun x hx => ⟨hc.mono hsub, ?_⟩) fun _ => ?_
  · -- a row with this key has been written
    have hmem : Provider.compositeId i.agentId i.entityId ∈ c.knownNodes := by
      simpa [EntityItem.operation, Provider.Caches.knows, Provider.Caches.stages, hc.unstaged.1] using hknown
    obtain ⟨j, hj, hdone⟩ := hc.nodes _ hmem
    refine hx.skip hw fun k hk => (settled_iff ..).2 ?_
    have hsettled := settled_of_done hdone hk
    show Table.hasKey _ _ = true
    rw [← hj]
    exact hsettled
  · rw [finish_entity hc.unstaged.1]
    refine Durable.Leaves.bind (Q := fun _ => Holds s graphEnabled enc view R (p + 1)) ?_ fun _ =>
      Durable.Leaves.pure fun x hx => ⟨⟨hc.unstaged, fun id hid => ?_, (hc.mono hsub).assertions⟩, hx⟩
    · exact Durable.Leaves.bind (leaves_statement hstored hw hp) fun _ => Durable.Leaves.pure fun _ => id
    · rcases List.mem_cons.1 hid with rfl | hid
      · exact ⟨i, rfl, mem_take_succ_of_get hw⟩
      · exact (hc.mono hsub).nodes id hid

theorem leaves_insertAssertion {i : AssertionItem} {c : Provider.Caches} (hstored : Stored put view R)
    (hi : i ∈ s.items .graphAssertion)
    (hw : (replayLog s graphEnabled enc)[p]? = some (itemWrite enc .graphAssertion i)) (hp : p' ≤ p)
    (hc : Remembered s enc ((replayLog s graphEnabled enc).take p) c) :
    Durable.Leaves (Holds s graphEnabled enc view R p) (insert put c i.operation)
      (Holds s graphEnabled enc view R p')
      (fun c' x => Remembered s enc ((replayLog s graphEnabled enc).take (p + 1)) c' ∧
        Holds s graphEnabled enc view R (p + 1) x) E := by
  have hsub : ∀ w ∈ (replayLog s graphEnabled enc).take p, w ∈ (replayLog s graphEnabled enc).take (p + 1) :=
    fun _ h => List.take_subset_take_left _ (Nat.le_succ p) h
  unfold insert
  rw [if_neg (by simp [Snapshot.assertionItem_valid hi])]
  refine Durable.Leaves.ite (fun hknown => Durable.Leaves.pure fun x hx => ⟨hc.mono hsub, ?_⟩) fun _ => ?_
  · -- this very row has been written
    have hmem : Provider.compositeId i.agentId i.assertionId ∈ c.knownAssertions := by
      simpa [AssertionItem.operation, Provider.Caches.knows, Provider.Caches.stages, hc.unstaged.2] using hknown
    obtain ⟨j, hj, hkey, hdone⟩ := hc.assertions _ hmem
    obtain rfl := Snapshot.assertionItem_composite hj hi hkey
    exact hx.skip hw fun k hk => (settled_iff ..).2 (settled_of_done hdone hk)
  · rw [finish_assertion hc.unstaged.2]
    refine Durable.Leaves.bind (Q := fun _ => Holds s graphEnabled enc view R (p + 1)) ?_ fun _ =>
      Durable.Leaves.pure fun x hx => ⟨⟨hc.unstaged, (hc.mono hsub).nodes, fun id hid => ?_⟩, hx⟩
    · exact Durable.Leaves.bind (leaves_statement hstored hw hp) fun _ => Durable.Leaves.pure fun _ => id
    · rcases List.mem_cons.1 hid with rfl | hid
      · exact ⟨i, hi, rfl, mem_take_succ_of_get hw⟩
      · exact (hc.mono hsub).assertions id hid

/-! ## One batch -/

/-- Inserts of a lane, one after the other. -/
theorem leaves_insertAll {lane : ReplayLane} {operation : lane.Item → Provider.Operation AssertionProperties}
    (hinsert : ∀ (i : lane.Item) (p : Nat) (c : Provider.Caches), i ∈ s.items lane →
      (replayLog s graphEnabled enc)[p]? = some (itemWrite enc lane i) → p' ≤ p →
      Remembered s enc ((replayLog s graphEnabled enc).take p) c →
      Durable.Leaves (Holds s graphEnabled enc view R p) (insert put c (operation i))
        (Holds s graphEnabled enc view R p')
        (fun c' x => Remembered s enc ((replayLog s graphEnabled enc).take (p + 1)) c' ∧
          Holds s graphEnabled enc view R (p + 1) x) E) : ∀ (items : List lane.Item) (p : Nat) (c : Provider.Caches),
    (∀ i ∈ items, i ∈ s.items lane) → items.map (itemWrite enc lane) <+: (replayLog s graphEnabled enc).drop p →
    p' ≤ p → Remembered s enc ((replayLog s graphEnabled enc).take p) c →
    Durable.Leaves (Holds s graphEnabled enc view R p) (insertAll put c (items.map operation))
      (Holds s graphEnabled enc view R p')
      (fun c' x => Remembered s enc ((replayLog s graphEnabled enc).take (p + items.length)) c' ∧
        Holds s graphEnabled enc view R (p + items.length) x) E
  | [], p, c, _, _, _, hc => Durable.Leaves.pure fun x hx => ⟨hc, hx⟩
  | i :: items, p, c, hmem, hws, hp, hc => by
    obtain ⟨hw, hws⟩ := prefix_drop_cons hws
    refine Durable.Leaves.bind (hinsert i p c (hmem i (List.mem_cons_self ..)) hw hp hc) fun c' => ?_
    refine Durable.Leaves.assume (fun x hx => hx.1) fun hc' => ?_
    have hrest := leaves_insertAll hinsert items (p + 1) c' (fun j hj => hmem j (List.mem_cons_of_mem _ hj)) hws
      (by omega) hc'
    rw [List.length_cons, ← Nat.add_assoc, Nat.add_right_comm]
    exact hrest.pre fun x hx => hx.2

theorem leaves_links (hstored : Stored put view R) : ∀ (items : List LinkItem) (p : Nat),
    items.map (itemWrite enc .graphLink) <+: (replayLog s graphEnabled enc).drop p → p' ≤ p →
    Durable.Leaves (Holds s graphEnabled enc view R p)
      (Durable.forEach (fun i => Durable.write (put (.graph (LinkItem.statement i)))) items)
      (Holds s graphEnabled enc view R p') (fun _ => Holds s graphEnabled enc view R (p + items.length)) E
  | [], p, _, _ => Durable.Leaves.pure fun x hx => hx
  | i :: items, p, hws, hp => by
    obtain ⟨hw, hws⟩ := prefix_drop_cons hws
    refine Durable.Leaves.bind (leaves_statement hstored hw hp) fun _ => ?_
    rw [List.length_cons, ← Nat.add_assoc, Nat.add_right_comm]
    exact leaves_links hstored items (p + 1) hws (by omega)

/-- The embedding service returns what the manifest says. -/
def Embeds (enc : Encoder F) (expected : Option ProviderSignature) (i : VectorItem) : Prop :=
  ∃ signature, expected = some signature ∧ (enc.embed i.payloadText).length = signature.dimension

/-- A batch of vectors is one write of all its rows. -/
theorem write_upsert_map (items : List VectorItem) (t : Staging F) :
    t.write (.upsert (items.map (·.record enc))) = (items.map (itemWrite enc .vector)).foldl Staging.write t := by
  induction items generalizing t with
  | nil => rfl
  | cons i items ih =>
    rw [List.map_cons, write_upsert_cons, ih]
    rfl

theorem leaves_vectors {items : List VectorItem} {expected : Option ProviderSignature} (hstored : Stored put view R)
    (hne : items ≠ []) (hws : items.map (itemWrite enc .vector) <+: (replayLog s graphEnabled enc).drop p)
    (hX : (¬ ∀ i ∈ items, Embeds enc expected i) → X) :
    Durable.Leaves (Holds s graphEnabled enc view R p) (applyVectors put enc expected items)
      (Holds s graphEnabled enc view R p)
      (fun _ x => (∀ i ∈ items, Embeds enc expected i) ∧ Holds s graphEnabled enc view R (p + items.length) x)
      (fun _ x => X ∧ Holds s graphEnabled enc view R p x) := by
  unfold applyVectors
  cases expected with
  | none =>
    refine Durable.Leaves.raise fun x hx => ⟨hX fun hall => ?_, hx⟩
    obtain ⟨i, rest, rfl⟩ := List.exists_cons_of_ne_nil hne
    obtain ⟨signature, hsome, -⟩ := hall i (List.mem_cons_self ..)
    cases hsome
  | some signature =>
    refine Durable.Leaves.ite (fun hbad => Durable.Leaves.raise fun x hx => ⟨hX fun hall => ?_, hx⟩) fun hgood => ?_
    · obtain ⟨i, hi, hlength⟩ := List.any_eq_true.1 hbad
      obtain ⟨_, heq, hdimension⟩ := hall i hi
      cases heq
      exact of_decide_eq_true hlength hdimension
    · have hall : ∀ i ∈ items, Embeds enc (some signature) i := by
        intro i hi
        refine ⟨signature, rfl, ?_⟩
        by_contra hlength
        exact hgood (List.any_eq_true.2 ⟨i, hi, decide_eq_true hlength⟩)
      have hnext : ∀ x, Holds s graphEnabled enc view R p x →
          Holds s graphEnabled enc view R (p + items.length) (put (.upsert (items.map (·.record enc))) x) := by
        intro x hx
        have := hx.write hstored hws (write_upsert_map items)
        rwa [List.length_map] at this
      exact Durable.Leaves.write (fun x hx => (hnext x hx).mono (by omega)) fun x hx => ⟨hall, hnext x hx⟩

/-! ## Positions in the log -/

/-- Lanes are replayed one after the other. -/
structure Aligned (s : Snapshot) (graphEnabled : Bool) (o : Offsets) : Prop where
  bounded : ∀ lane, o lane ≤ s.counts graphEnabled lane
  ordered : ∀ lane lane' : ReplayLane, lane.rank < lane'.rank → o lane < s.counts graphEnabled lane → o lane' = 0

/-- The lanes before this one are finished. -/
def Before (s : Snapshot) (graphEnabled : Bool) (lane : ReplayLane) (o : Offsets) : Prop :=
  ∀ l : ReplayLane, l.rank < lane.rank → o l = s.counts graphEnabled l

theorem Offsets.sum_eq (o : Offsets) : o.sum = o .vector + (o .graphEntity + (o .graphAssertion + o .graphLink)) := by
  simp [Offsets.sum, lanes]

theorem sum_advance (o : Offsets) (lane : ReplayLane) (n : Nat) : (o.advance lane n).sum = o.sum + n := by
  rw [Offsets.sum_eq, Offsets.sum_eq]
  cases lane <;> simp [Offsets.advance, Function.update] <;> omega

theorem laneLog_length (s : Snapshot) (graphEnabled : Bool) (enc : Encoder F) (lane : ReplayLane) :
    (laneLog s graphEnabled enc lane).length = s.counts graphEnabled lane := by
  unfold laneLog Snapshot.counts
  split <;> simp

theorem replayLog_length (s : Snapshot) (graphEnabled : Bool) (enc : Encoder F) :
    (replayLog s graphEnabled enc).length = Offsets.sum (s.counts graphEnabled) := by
  rw [Offsets.sum_eq]
  simp only [replayLog, lanes, List.flatMap_cons, List.flatMap_nil, List.length_append, List.length_nil, laneLog_length,
    Nat.add_zero]

theorem Aligned.sum_le (h : Aligned s graphEnabled o) : Offsets.sum o ≤ Offsets.sum (s.counts graphEnabled) := by
  rw [Offsets.sum_eq, Offsets.sum_eq]
  have h₁ := h.bounded .vector
  have h₂ := h.bounded .graphEntity
  have h₃ := h.bounded .graphAssertion
  have h₄ := h.bounded .graphLink
  omega

theorem drop_prefix_drop (before l rest : List (StoreWrite F)) {j : Nat} (hj : j ≤ l.length) :
    l.drop j <+: (before ++ (l ++ rest)).drop (before.length + j) := by
  have hpast : before.drop (before.length + j) = [] := List.drop_of_length_le (Nat.le_add_right ..)
  rw [List.drop_append, hpast, List.nil_append, Nat.add_sub_cancel_left, List.drop_append_of_le_length hj]
  exact ⟨rest, rfl⟩

/-- The rows that are left of a lane are the next writes of the log. -/
theorem laneLog_prefix (enc : Encoder F) {lane : ReplayLane} (h : Aligned s graphEnabled o) (hbefore : Before s graphEnabled lane o)
    (hlt : o lane < s.counts graphEnabled lane) :
    (laneLog s graphEnabled enc lane).drop (o lane) <+: (replayLog s graphEnabled enc).drop o.sum := by
  have hlog : replayLog s graphEnabled enc = laneLog s graphEnabled enc .vector ++
      (laneLog s graphEnabled enc .graphEntity ++ (laneLog s graphEnabled enc .graphAssertion ++
        (laneLog s graphEnabled enc .graphLink ++ []))) := rfl
  have hle : o lane ≤ (laneLog s graphEnabled enc lane).length := by rw [laneLog_length]; exact hlt.le
  have hafter : ∀ l : ReplayLane, lane.rank < l.rank → o l = 0 := fun l hl => h.ordered lane l hl hlt
  rw [hlog]
  cases lane with
  | vector =>
    have hsum : o.sum = ([] : List (StoreWrite F)).length + o .vector := by
      rw [Offsets.sum_eq, hafter .graphEntity (by decide), hafter .graphAssertion (by decide),
        hafter .graphLink (by decide), List.length_nil]
      omega
    rw [hsum]
    exact drop_prefix_drop [] _ _ hle
  | graphEntity =>
    have hsum : o.sum = (laneLog s graphEnabled enc .vector).length + o .graphEntity := by
      rw [Offsets.sum_eq, laneLog_length, hbefore .vector (by decide), hafter .graphAssertion (by decide),
        hafter .graphLink (by decide)]
      omega
    rw [hsum]
    exact drop_prefix_drop _ _ _ hle
  | graphAssertion =>
    have hsum : o.sum = (laneLog s graphEnabled enc .vector ++ laneLog s graphEnabled enc .graphEntity).length +
        o .graphAssertion := by
      rw [Offsets.sum_eq, List.length_append, laneLog_length, laneLog_length, hbefore .vector (by decide),
        hbefore .graphEntity (by decide), hafter .graphLink (by decide)]
      omega
    rw [hsum, ← List.append_assoc]
    exact drop_prefix_drop _ _ _ hle
  | graphLink =>
    have hsum : o.sum = (laneLog s graphEnabled enc .vector ++ laneLog s graphEnabled enc .graphEntity ++
        laneLog s graphEnabled enc .graphAssertion).length + o .graphLink := by
      rw [Offsets.sum_eq, List.length_append, List.length_append, laneLog_length, laneLog_length, laneLog_length,
        hbefore .vector (by decide), hbefore .graphEntity (by decide), hbefore .graphAssertion (by decide)]
      omega
    rw [hsum, ← List.append_assoc, ← List.append_assoc]
    exact drop_prefix_drop _ _ _ hle

/-- So is a page of the lane. -/
theorem page_prefix (enc : Encoder F) {lane : ReplayLane} (h : Aligned s graphEnabled o) (hbefore : Before s graphEnabled lane o)
    (hlt : o lane < s.counts graphEnabled lane) (n : Nat) :
    (((s.items lane).drop (o lane)).take n).map (itemWrite enc lane) <+: (replayLog s graphEnabled enc).drop o.sum := by
  refine List.IsPrefix.trans ?_ <| laneLog_prefix enc h hbefore hlt
  have henabled : graphEnabled = true ∨ lane = .vector := by
    unfold Snapshot.counts at hlt
    by_contra hno
    rw [if_neg hno] at hlt
    omega
  rw [laneLog, if_pos henabled, ← List.map_drop, List.map_take]
  exact List.take_prefix _ _

theorem Aligned.advance {lane : ReplayLane} {n : Nat} (h : Aligned s graphEnabled o)
    (hbefore : Before s graphEnabled lane o) (hlt : o lane < s.counts graphEnabled lane)
    (hn : o lane + n ≤ s.counts graphEnabled lane) : Aligned s graphEnabled (o.advance lane n) where
  bounded l := by
    unfold Offsets.advance
    by_cases hl : l = lane
    · rw [hl, Function.update_self]; exact hn
    · rw [Function.update_of_ne hl]; exact h.bounded l
  ordered l l' hrank hl := by
    unfold Offsets.advance at hl ⊢
    by_cases hll : l = lane
    · rw [Function.update_of_ne (by rintro rfl; rw [hll] at hrank; omega)]
      exact h.ordered lane l' (hll ▸ hrank) hlt
    · rw [Function.update_of_ne hll] at hl
      have hlater : lane.rank < l.rank := by
        by_contra hle
        rcases (Nat.le_of_not_lt hle).lt_or_eq with hlow | heq
        · rw [hbefore l hlow] at hl
          omega
        · exact hll (by cases l <;> cases lane <;> first | rfl | cases heq)
      rw [Function.update_of_ne (by rintro rfl; omega)]
      exact h.ordered l l' hrank hl

/-! ## The loop -/

/-- The vectors that have been replayed were embedded as the manifest says. -/
def Embedded (s : Snapshot) (enc : Encoder F) (expected : Option ProviderSignature) (o : Offsets) : Prop :=
  ∀ i ∈ (s.items .vector).take (o .vector), Embeds enc expected i

variable {q : ReplayInputs σ F} {R : Offsets → σ → Prop}

/-- A replay at some offsets: `R` is what the durable state says of them besides the stores. -/
structure At (q : ReplayInputs σ F) (view : σ → Staging F) (R : Offsets → σ → Prop) (o : Offsets) (x : σ) : Prop where
  aligned : Aligned q.snapshot q.graphEnabled o
  embedded : Embedded q.snapshot q.encoder q.expected o
  holds : Holds q.snapshot q.graphEnabled q.encoder view (R o) o.sum x

/-- What the runner does around a batch leaves the stores alone; before, it leaves the offsets, and
after, it records the new ones. -/
structure Hooked (q : ReplayInputs σ F) (view : σ → Staging F) (R : Offsets → σ → Prop) (X : Prop) : Prop where
  stored : ∀ o, Stored q.put view (R o)
  before : ∀ lane o t, Durable.Leaves (fun x => view x = t ∧ R o x) (q.before lane o) (fun x => view x = t ∧ R o x)
    (fun _ x => view x = t ∧ R o x) fun _ x => X ∧ view x = t ∧ R o x
  after : ∀ lane n o t, Aligned q.snapshot q.graphEnabled (o.advance lane n) →
    Durable.Leaves (fun x => view x = t ∧ R o x) (q.after (o.advance lane n))
      (fun x => view x = t ∧ (R o x ∨ R (o.advance lane n) x)) (fun _ x => view x = t ∧ R (o.advance lane n) x)
      fun _ x => X ∧ view x = t ∧ (R o x ∨ R (o.advance lane n) x)

/-- Something may stop the replay: its arguments, or the embedding service. -/
structure Troubled (q : ReplayInputs σ F) (X : Prop) : Prop where
  size : ¬ (1 ≤ q.batchSize ∧ q.batchSize ≤ 1000) → X
  embeds : (¬ ∀ i ∈ q.snapshot.items .vector, Embeds q.encoder q.expected i) → X

/-- What keeps the stores and turns `R₁` into `R₂` keeps the part of the log that they hold. -/
theorem leaves_of_kept {α : Type} {m : Durable σ RebuildError α} {R₁ R₂ R₃ : σ → Prop}
    (h : ∀ t, Durable.Leaves (fun x => view x = t ∧ R₁ x) m (fun x => view x = t ∧ R₃ x) (fun _ x => view x = t ∧ R₂ x)
      fun _ x => X ∧ view x = t ∧ R₃ x) :
    Durable.Leaves (Holds s graphEnabled enc view R₁ p) m (Holds s graphEnabled enc view R₃ p)
      (fun _ => Holds s graphEnabled enc view R₂ p) fun _ x => X ∧ Holds s graphEnabled enc view R₃ p x := by
  have hk : ∀ k, Durable.Leaves (fun x => (p ≤ k ∧ k ≤ (replayLog s graphEnabled enc).length) ∧
      view x = content s graphEnabled enc k ∧ R₁ x) m (Holds s graphEnabled enc view R₃ p)
      (fun _ => Holds s graphEnabled enc view R₂ p) fun _ x => X ∧ Holds s graphEnabled enc view R₃ p x := by
    intro k
    refine Durable.Leaves.assume (fun x hx => hx.1) fun hk => ?_
    exact (h (content s graphEnabled enc k)).mono (fun x hx => hx.2) (fun x hx => ⟨hx.2, k, hk.1, hk.2, hx.1⟩)
      (fun _ x hx => ⟨hx.2, k, hk.1, hk.2, hx.1⟩) fun _ x hx => ⟨hx.1, hx.2.2, k, hk.1, hk.2, hx.2.1⟩
  refine (Durable.Leaves.exists hk).pre fun x hx => ?_
  obtain ⟨hr, k, hpk, hk, hview⟩ := hx
  exact ⟨k, ⟨hpk, hk⟩, hview, hr⟩

/-- Rows of the vector lane are embedded as the manifest says. -/
def EmbedsAll (enc : Encoder F) (expected : Option ProviderSignature) : (lane : ReplayLane) → List lane.Item → Prop
  | .vector, items => ∀ i ∈ items, Embeds enc expected i
  | .graphEntity, _ | .graphAssertion, _ | .graphLink, _ => True

/-- A batch of any lane. -/
theorem leaves_applyBatch {expected : Option ProviderSignature} {R : σ → Prop} (hstored : Stored put view R) :
    (lane : ReplayLane) → (items : List lane.Item) → (c : Provider.Caches) →
    (graphEnabled = true ∨ lane = .vector) → items ≠ [] → (∀ i ∈ items, i ∈ s.items lane) →
    items.map (itemWrite enc lane) <+: (replayLog s graphEnabled enc).drop p →
    Remembered s enc ((replayLog s graphEnabled enc).take p) c →
    ((¬ ∀ i ∈ s.items .vector, Embeds enc expected i) → X) →
    Durable.Leaves (Holds s graphEnabled enc view R p) (applyBatch put enc expected graphEnabled c lane items)
      (Holds s graphEnabled enc view R p)
      (fun c' x => (EmbedsAll enc expected lane items ∧
        Remembered s enc ((replayLog s graphEnabled enc).take (p + items.length)) c') ∧
        Holds s graphEnabled enc view R (p + items.length) x)
      (fun _ x => X ∧ Holds s graphEnabled enc view R p x)
  | .vector, items, c, _, hne, hmem, hws, hc, hX => by
    have hsub : ∀ w ∈ (replayLog s graphEnabled enc).take p,
        w ∈ (replayLog s graphEnabled enc).take (p + items.length) :=
      fun _ h => List.take_subset_take_left _ (Nat.le_add_right ..) h
    refine Durable.Leaves.bind (leaves_vectors hstored hne hws fun hno => hX fun hall => hno fun i hi =>
      hall i (hmem i hi)) fun _ => ?_
    exact Durable.Leaves.pure fun x hx => ⟨⟨hx.1, hc.mono hsub⟩, hx.2⟩
  | .graphEntity, items, c, hg, _, hmem, hws, hc, _ => by
    obtain rfl : graphEnabled = true := hg.elim id fun h => by cases h
    have h := leaves_insertAll (E := fun _ x => X ∧ Holds s true enc view R p x)
      (fun i p' c' _ hw hp hc' => leaves_insertEntity hstored hw hp hc') items p c hmem hws le_rfl hc
    exact h.mono (fun _ => id) (fun _ => id) (fun _ _ hx => ⟨⟨trivial, hx.1⟩, hx.2⟩) fun _ _ => id
  | .graphAssertion, items, c, hg, _, hmem, hws, hc, _ => by
    obtain rfl : graphEnabled = true := hg.elim id fun h => by cases h
    have h := leaves_insertAll (E := fun _ x => X ∧ Holds s true enc view R p x)
      (fun i p' c' hi hw hp hc' => leaves_insertAssertion hstored hi hw hp hc') items p c hmem hws le_rfl hc
    exact h.mono (fun _ => id) (fun _ => id) (fun _ _ hx => ⟨⟨trivial, hx.1⟩, hx.2⟩) fun _ _ => id
  | .graphLink, items, c, hg, _, _, hws, hc, _ => by
    obtain rfl : graphEnabled = true := hg.elim id fun h => by cases h
    have hsub : ∀ w ∈ (replayLog s true enc).take p,
        w ∈ (replayLog s true enc).take (p + items.length) :=
      fun _ h => List.take_subset_take_left _ (Nat.le_add_right ..) h
    refine Durable.Leaves.bind (leaves_links hstored items p hws le_rfl) fun _ => ?_
    exact Durable.Leaves.pure fun x hx => ⟨⟨trivial, hc.mono hsub⟩, hx⟩

/-- Where a replay can be cut. -/
def Reached (q : ReplayInputs σ F) (view : σ → Staging F) (R : Offsets → σ → Prop) (x : σ) : Prop :=
  ∃ o, At q view R o x

/-- A replay between two batches, with its caches. -/
def Between (q : ReplayInputs σ F) (view : σ → Staging F) (R : Offsets → σ → Prop) (done : ReplayLane → Prop)
    (p : Offsets × Provider.Caches) (x : σ) : Prop :=
  (Aligned q.snapshot q.graphEnabled p.1 ∧ Embedded q.snapshot q.encoder q.expected p.1 ∧
    Remembered q.snapshot q.encoder ((replayLog q.snapshot q.graphEnabled q.encoder).take p.1.sum) p.2 ∧
    ∀ l, done l → p.1 l = q.count l) ∧ Holds q.snapshot q.graphEnabled q.encoder view (R p.1) p.1.sum x

theorem Between.reached {done : ReplayLane → Prop} {p : Offsets × Provider.Caches} {x : σ}
    (h : Between q view R done p x) : Reached q view R x :=
  ⟨p.1, h.1.1, h.1.2.1, h.2⟩

theorem leaves_batch (h : Hooked q view R X) (hX : Troubled q X) {lane : ReplayLane} {p : Offsets × Provider.Caches}
    (hlt : p.1 lane < q.count lane) :
    Durable.Leaves (Between q view R (fun l => l.rank < lane.rank) p) (q.batch lane p.1 p.2) (Reached q view R)
      (fun p' x => Between q view R (fun l => l.rank < lane.rank) p' x ∧ p.1 lane < p'.1 lane)
      fun _ x => X ∧ Reached q view R x := by
  obtain ⟨o, c⟩ := p
  refine Durable.Leaves.assume (fun x hx => hx.1) fun ⟨haligned, hembedded, hc, hbefore⟩ => ?_
  have hreached : ∀ x, Holds q.snapshot q.graphEnabled q.encoder view (R o) o.sum x → Reached q view R x :=
    fun x hx => ⟨o, haligned, hembedded, hx⟩
  have hpage := page_prefix q.encoder haligned hbefore hlt q.batchSize
  have henabled : q.graphEnabled = true ∨ lane = .vector := by
    unfold ReplayInputs.count Snapshot.counts at hlt
    by_contra hno
    rw [if_neg hno] at hlt
    omega
  have hpageMem : ∀ i ∈ ((q.snapshot.items lane).drop (o lane)).take q.batchSize, i ∈ q.snapshot.items lane :=
    fun i hi => List.mem_of_mem_drop (List.mem_of_mem_take hi)
  have hlength : o lane < (q.snapshot.items lane).length := by
    unfold ReplayInputs.count Snapshot.counts at hlt
    rwa [if_pos henabled] at hlt
  unfold ReplayInputs.batch
  refine Durable.Leaves.bind (((leaves_of_kept (h.before lane o)).mono (fun x hx => hx.2) hreached (fun _ _ => id)
    fun _ x hx => ⟨hx.1, hreached x hx.2⟩)) fun _ => ?_
  by_cases hsize : 1 ≤ q.batchSize ∧ q.batchSize ≤ 1000
  · rw [Snapshot.fetch, if_pos hsize]
    generalize hitems : ((q.snapshot.items lane).drop (o lane)).take q.batchSize = items at hpage hpageMem
    have hcount : 0 < items.length ∧ o lane + items.length ≤ q.count lane := by
      unfold ReplayInputs.count Snapshot.counts
      rw [if_pos henabled, ← hitems, List.length_take, List.length_drop]
      omega
    have hne : items ≠ [] := List.ne_nil_of_length_pos hcount.1
    have hnext := haligned.advance hbefore hlt hcount.2
    refine Durable.Leaves.bind (Q := fun l x => l = items ∧
      Holds q.snapshot q.graphEnabled q.encoder view (R o) o.sum x) (Durable.Leaves.pure fun x hx => ⟨rfl, hx⟩)
      fun l => ?_
    refine Durable.Leaves.assume (fun x hx => hx.1) fun heq => ?_
    rw [heq, if_neg (by simpa using hne)]
    refine Durable.Leaves.bind (((leaves_applyBatch (h.stored o) lane items c henabled hne hpageMem hpage hc
      hX.embeds)).mono (fun x hx => hx.2) hreached (fun _ _ => id) fun _ x hx => ⟨hx.1, hreached x hx.2⟩) fun c' => ?_
    refine Durable.Leaves.assume (fun x hx => hx.1) fun ⟨hall, hc'⟩ => ?_
    have hembedded' : Embedded q.snapshot q.encoder q.expected (o.advance lane items.length) := by
      intro i hi
      cases lane with
      | vector =>
        rw [Offsets.advance, Function.update_self, List.take_add, List.mem_append] at hi
        rcases hi with hi | hi
        · exact hembedded i hi
        · refine hall i ?_
          rw [← hitems] at hi ⊢
          exact (List.take_subset_take_left _ (by rw [List.length_take]; exact Nat.min_le_left ..)) hi
      | graphEntity | graphAssertion | graphLink => exact hembedded i hi
    have hsum := sum_advance o lane items.length
    have hcut : ∀ x, Holds q.snapshot q.graphEnabled q.encoder view
        (fun x => R o x ∨ R (o.advance lane items.length) x) (o.sum + items.length) x → Reached q view R x := by
      rintro x ⟨hr | hr, hk⟩
      · exact hreached x (Holds.mono ⟨hr, hk⟩ (Nat.le_add_right ..))
      · exact ⟨_, hnext, hembedded', hsum ▸ ⟨hr, hk⟩⟩
    refine Durable.Leaves.bind ((leaves_of_kept fun t => h.after lane items.length o t hnext).mono (fun x hx => hx.2)
      hcut (fun _ _ => id) fun _ x hx => ⟨hx.1, hcut x hx.2⟩) fun _ => ?_
    refine Durable.Leaves.pure fun x hx => ⟨⟨⟨hnext, hembedded', hsum ▸ hc', fun l hl => ?_⟩, hsum ▸ hx⟩, ?_⟩
    · have hlow : l ≠ lane := by
        rintro rfl
        exact lt_irrefl _ hl
      exact (Function.update_of_ne hlow _ _).trans (hbefore l hl)
    · show o lane < o.advance lane items.length lane
      rw [Offsets.advance, Function.update_self]
      omega
  · rw [Snapshot.fetch, if_neg hsize]
    exact Durable.Leaves.bind (Q := fun _ _ => False) (Durable.Leaves.raise fun x hx => ⟨hX.size hsize, hreached x hx⟩)
      fun _ => ⟨fun _ h => h.elim, fun _ _ h => h.elim, fun _ _ h => h.elim⟩

/-- The loop over a lane finishes the lane. -/
theorem leaves_replayLane (h : Hooked q view R X) (hX : Troubled q X) (lane : ReplayLane) :
    ∀ (fuel : Nat) (p : Offsets × Provider.Caches), q.count lane ≤ p.1 lane + fuel →
    Durable.Leaves (Between q view R (fun l => l.rank < lane.rank) p) (q.replayLane lane fuel p) (Reached q view R)
      (Between q view R fun l => l.rank ≤ lane.rank) fun _ x => X ∧ Reached q view R x := by
  have hfinished : ∀ {p : Offsets × Provider.Caches}, q.count lane ≤ p.1 lane → ∀ x,
      Between q view R (fun l => l.rank < lane.rank) p x → Between q view R (fun l => l.rank ≤ lane.rank) p x := by
    rintro p hp x ⟨⟨haligned, hembedded, hc, hbefore⟩, hx⟩
    refine ⟨⟨haligned, hembedded, hc, fun l hl => ?_⟩, hx⟩
    rcases hl.lt_or_eq with hlt | heq
    · exact hbefore l hlt
    · obtain rfl : l = lane := by cases l <;> cases lane <;> first | rfl | cases heq
      exact le_antisymm (haligned.bounded l) hp
  intro fuel
  induction fuel with
  | zero => exact fun p hp => Durable.Leaves.pure (hfinished hp)
  | succ fuel ih =>
    intro p hp
    refine Durable.Leaves.ite (fun hlt => ?_) fun hge => Durable.Leaves.pure (hfinished (Nat.le_of_not_lt hge))
    refine Durable.Leaves.bind (leaves_batch h hX hlt) fun p' => ?_
    refine Durable.Leaves.assume (fun x hx => hx.2) fun hnext => ?_
    exact (ih p' (by omega)).pre fun x hx => hx.1

theorem Between.weaken {done done' : ReplayLane → Prop} (hd : ∀ l, done' l → done l) {p : Offsets × Provider.Caches}
    {x : σ} (h : Between q view R done p x) : Between q view R done' p x :=
  ⟨⟨h.1.1, h.1.2.1, h.1.2.2.1, fun l hl => h.1.2.2.2 l (hd l hl)⟩, h.2⟩

/-- The whole replay, from any offsets at which it may have been cut. -/
theorem leaves_replayLanes (h : Hooked q view R X) (hX : Troubled q X) (p : Offsets × Provider.Caches) :
    Durable.Leaves (Between q view R (fun _ => False) p) (q.replayLanes lanes p) (Reached q view R)
      (Between q view R fun _ => True) fun _ x => X ∧ Reached q view R x := by
  have hlane : ∀ lane p, Durable.Leaves (Between q view R (fun l => l.rank < lane.rank) p)
      (q.replayLane lane (q.count lane) p) (Reached q view R) (Between q view R fun l => l.rank ≤ lane.rank)
      fun _ x => X ∧ Reached q view R x :=
    fun lane p => leaves_replayLane h hX lane (q.count lane) p (Nat.le_add_left ..)
  refine Durable.Leaves.bind ((hlane .vector p).pre fun x => Between.weaken fun l hl => by cases l <;> simp_all [ReplayLane.rank])
    fun p => ?_
  refine Durable.Leaves.bind ((hlane .graphEntity p).pre fun x => Between.weaken fun l hl => ?_) fun p => ?_
  · cases l <;> simp_all [ReplayLane.rank]
  refine Durable.Leaves.bind ((hlane .graphAssertion p).pre fun x => Between.weaken fun l hl => ?_) fun p => ?_
  · cases l <;> simp_all [ReplayLane.rank]
  refine Durable.Leaves.bind ((hlane .graphLink p).pre fun x => Between.weaken fun l hl => ?_) fun p => ?_
  · cases l <;> simp_all [ReplayLane.rank]
  exact Durable.Leaves.pure fun x => Between.weaken fun l _ => by cases l <;> simp [ReplayLane.rank]

/-! ## A replay that nothing interrupts -/

theorem replayInputs_hooked (s : Snapshot) (graphEnabled : Bool) (batchSize : Nat) (enc : Encoder F)
    (expected : Option ProviderSignature) (X : Prop) :
    Hooked (replayInputs s graphEnabled batchSize enc expected) id (fun _ _ => True) X where
  stored _ := ⟨fun _ _ => rfl, fun _ _ _ => trivial⟩
  before _ _ _ := Durable.Leaves.pure fun _ => id
  after _ _ _ _ _ := Durable.Leaves.pure fun _ => id

theorem aligned_zero (s : Snapshot) (graphEnabled : Bool) : Aligned s graphEnabled fun _ => 0 :=
  ⟨fun _ => Nat.zero_le _, fun _ _ _ _ => rfl⟩

/-- It writes the log, when the page size is valid and the embeddings have the right dimension. -/
theorem replayAll_content {batchSize : Nat} {expected : Option ProviderSignature}
    (hsize : 1 ≤ batchSize ∧ batchSize ≤ 1000) (hembeds : ∀ i ∈ s.items .vector, Embeds enc expected i) :
    (∃ p, (replayAll s graphEnabled batchSize enc expected).result .empty = .ok p) ∧
      (replayAll s graphEnabled batchSize enc expected).final .empty =
        content s graphEnabled enc (replayLog s graphEnabled enc).length := by
  have hstart : Between (replayInputs s graphEnabled batchSize enc expected) id (fun _ _ => True) (fun _ => False)
      (fun _ => 0, noCaches) (Staging.empty : Staging F) :=
    ⟨⟨aligned_zero .., fun i hi => (by simp at hi), remembered_noCaches _, fun _ h => h.elim⟩, trivial, 0, by
      simp [Offsets.sum, lanes], Nat.zero_le _, applied_zero.symm⟩
  have hleaves := leaves_replayLanes (replayInputs_hooked s graphEnabled batchSize enc expected False)
    ⟨fun h => h hsize, fun h => h hembeds⟩ (fun _ => 0, noCaches)
  rcases hresult : (replayAll s graphEnabled batchSize enc expected).result .empty with e | p
  · exact (hleaves.raised _ e hstart hresult).1.elim
  · refine ⟨⟨p, rfl⟩, ?_⟩
    obtain ⟨⟨-, -, -, hdone⟩, -, k, hpk, hk, hview⟩ := hleaves.returned _ p hstart hresult
    have hp : p.1 = s.counts graphEnabled := funext fun l => hdone l trivial
    rw [hp] at hpk
    obtain rfl : k = (replayLog s graphEnabled enc).length := le_antisymm hk (by rw [replayLog_length]; exact hpk)
    exact hview

end Mesa.Rebuild
