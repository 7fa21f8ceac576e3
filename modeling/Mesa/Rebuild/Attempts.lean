/-
Attempts to replay a snapshot into the staging stores of a rebuild. A runner starts from the offsets
of the operation's checkpoint, and it can be stopped, fenced out, refused by a store or cut at any
write; the next runner, which may use another batch size, takes over where the checkpoint says. The
runner holds the lock of the storage root, so attempts come one after another.
-/
import Mesa.Foundation.Run
import Mesa.Rebuild.Batches

namespace Mesa.Rebuild

open Mesa.Foundation

variable {F : Type}

/-- What a rebuild keeps: its staging stores and the row of its operation. -/
structure Rebuild (F : Type) where
  stores : Staging F
  /-- `checkpoint["replay"]`. -/
  offsets : Offsets
  progressCompleted : Nat
  progressTotal : Nat
  /-- The operation is `VERIFYING`. -/
  verifying : Bool

def Rebuild.initial : Rebuild F := ⟨.empty, fun _ => 0, 0, 0, false⟩

/-- How a transition of the operation ends: done, refused, or done and reported as an error. -/
inductive Recorded
  | done
  | refused (error : RebuildError)
  | lost (error : RebuildError)

/-- What an attempt meets outside of the rebuild. -/
structure Attempt where
  batchSize : Nat
  /-- The manifest hashes of the snapshot differ from the prepared ones. -/
  sourceChanged : Bool
  shouldStop : ReplayLane → Offsets → Bool
  renew : ReplayLane → Offsets → Option RebuildError
  transition : Offsets → Recorded
  /-- `should_stop` after the last batch. -/
  stopsLast : Bool
  verify : Recorded

/-- `OperationRepository.transition`, with what it writes. -/
def Recorded.run (r : Recorded) (f : Rebuild F → Rebuild F) : Durable (Rebuild F) RebuildError Unit :=
  match r with
  | .done => Durable.write f
  | .refused e => Durable.raise e
  | .lost e => do
    Durable.write f
    Durable.raise e

section

variable (s : Snapshot) (manifest : ProviderManifest) (enc : Encoder F)

/-- The number of rows of all lanes. -/
def replayTotal : Nat := Offsets.sum (s.counts manifest.graphEnabled)

def attemptInputs (expected : Option ProviderSignature) (a : Attempt) : ReplayInputs (Rebuild F) F where
  snapshot := s
  graphEnabled := manifest.graphEnabled
  batchSize := a.batchSize
  encoder := enc
  expected := expected
  put w x := { x with stores := x.stores.write w }
  before lane o :=
    if a.shouldStop lane o then Durable.raise ⟨.rebuildInterrupted, "rebuild interrupted at a batch boundary"⟩
    else
      match a.renew lane o with
      | some e => Durable.raise e
      | none => pure ()
  after o := (a.transition o).run fun x =>
    { x with offsets := o, progressCompleted := o.sum, progressTotal := replayTotal s manifest }

/-- `ProjectionReplayer.replay`. -/
def replay (a : Attempt) : Durable (Rebuild F) RebuildError Unit :=
  if ¬ (1 ≤ a.batchSize ∧ a.batchSize ≤ 1000) then
    Durable.raise ⟨.valueError, "rebuild batch size must be between 1 and 1000"⟩
  else if a.sourceChanged then Durable.raise ⟨.rebuildSourceChanged, "rebuild source snapshot changed"⟩
  else do
    ReplayInputs.ofExcept s.validateOwnership
    let expected ← ReplayInputs.ofExcept (validateProvider s manifest)
    let x ← Durable.read
    if lanes.any fun lane => s.counts manifest.graphEnabled lane < x.offsets lane then
      Durable.raise ⟨.rebuildCheckpoint, "rebuild checkpoint offset is invalid"⟩
    else if x.progressCompleted ≠ x.offsets.sum then
      Durable.raise ⟨.rebuildCheckpoint, "rebuild checkpoint progress conflicts"⟩
    else if x.progressTotal ∉ [0, replayTotal s manifest] then
      Durable.raise ⟨.rebuildCheckpoint, "rebuild checkpoint total conflicts"⟩
    else do
      let _ ← (attemptInputs s manifest enc expected a).replayLanes lanes (x.offsets, noCaches)
      if a.stopsLast then Durable.raise ⟨.rebuildInterrupted, "rebuild interrupted after replay checkpoint"⟩
      else a.verify.run fun x =>
        { x with
          verifying := true
          progressCompleted := replayTotal s manifest
          progressTotal := replayTotal s manifest }

/-- An attempt that ends after so many of its writes. -/
def attempt (x : Rebuild F) (a : Attempt × Nat) : Rebuild F := (replay s manifest enc a.1).cut a.2 x

end

variable {s : Snapshot} {manifest : ProviderManifest} {enc : Encoder F} {x : Rebuild F} {o : Offsets} {b : Nat}
  {a : Attempt}

/-! ## What the operation says -/

/-- The row of the operation says how far the replay is, and no less than `b`. -/
structure Says (s : Snapshot) (manifest : ProviderManifest) (b : Nat) (o : Offsets) (x : Rebuild F) : Prop where
  offsets : x.offsets = o
  completed : x.progressCompleted = o.sum
  total : x.progressTotal = 0 ∨ x.progressTotal = replayTotal s manifest
  least : b ≤ o.sum
  finished : x.verifying = true → o = s.counts manifest.graphEnabled ∧ x.progressTotal = replayTotal s manifest

/-- A rebuild between two attempts. -/
structure Resumable (s : Snapshot) (manifest : ProviderManifest) (enc : Encoder F) (b : Nat) (x : Rebuild F) :
    Prop where
  aligned : Aligned s manifest.graphEnabled x.offsets
  embedded : ∀ expected, validateProvider s manifest = .ok expected → Embedded s enc expected x.offsets
  holds : Holds s manifest.graphEnabled enc Rebuild.stores (Says s manifest b x.offsets) x.offsets.sum x

theorem Resumable.of_at {expected : Option ProviderSignature} (hexpected : validateProvider s manifest = .ok expected)
    (h : At (attemptInputs s manifest enc expected a) Rebuild.stores (Says s manifest b) o x) :
    Resumable s manifest enc b x := by
  obtain rfl : x.offsets = o := h.holds.1.offsets
  refine ⟨h.aligned, fun expected' hexpected' => ?_, h.holds⟩
  obtain rfl : expected = expected' := Except.ok.inj (hexpected.symm.trans hexpected')
  exact h.embedded

/-- An attempt that nothing outside of it disturbs. -/
structure Attempt.Calm (a : Attempt) : Prop where
  size : 1 ≤ a.batchSize ∧ a.batchSize ≤ 1000
  source : a.sourceChanged = false
  stop : ∀ lane o, a.shouldStop lane o = false
  renew : ∀ lane o, a.renew lane o = none
  transition : ∀ o, a.transition o = .done
  stopsLast : a.stopsLast = false
  verify : a.verify = .done

/-- What may end an attempt early: something outside of it, or a vector of a wrong dimension. -/
def Disturbed (s : Snapshot) (enc : Encoder F) (expected : Option ProviderSignature) (a : Attempt) : Prop :=
  ¬ (a.Calm ∧ ∀ i ∈ s.items .vector, Embeds enc expected i)

theorem attemptInputs_hooked (s : Snapshot) (manifest : ProviderManifest) (enc : Encoder F)
    (expected : Option ProviderSignature) (a : Attempt) (b : Nat) :
    Hooked (attemptInputs s manifest enc expected a) Rebuild.stores (Says s manifest b)
      (Disturbed s enc expected a) where
  stored o := ⟨fun _ _ => rfl, fun _ _ h => ⟨h.offsets, h.completed, h.total, h.least, h.finished⟩⟩
  before lane o t := by
    refine Durable.Leaves.ite (fun hstop => Durable.Leaves.raise fun x hx => ⟨fun h => ?_, hx⟩) fun _ => ?_
    · rw [h.1.stop lane o] at hstop
      cases hstop
    · cases hrenew : a.renew lane o with
      | none => exact Durable.Leaves.pure fun _ hx => hx
      | some e =>
        refine Durable.Leaves.raise fun x hx => ⟨fun h => ?_, hx⟩
        rw [h.1.renew lane o] at hrenew
        cases hrenew
  after lane n o t haligned := by
    have hnext : ∀ x : Rebuild F, x.stores = t ∧ Says s manifest b o x → ({ x with
        offsets := o.advance lane n
        progressCompleted := (o.advance lane n).sum
        progressTotal := replayTotal s manifest } : Rebuild F).stores = t ∧
        Says s manifest b (o.advance lane n) { x with
        offsets := o.advance lane n
        progressCompleted := (o.advance lane n).sum
        progressTotal := replayTotal s manifest } := by
      rintro x ⟨hx, hrow⟩
      refine ⟨hx, rfl, rfl, .inr rfl, ?_, fun hverifying => ⟨?_, rfl⟩⟩
      · rw [sum_advance]
        exact hrow.least.trans (Nat.le_add_right ..)
      · -- a finished lane has no row left, so the batch was empty
        have ho := (hrow.finished hverifying).1
        have hbound := haligned.bounded lane
        rw [Offsets.advance, Function.update_self, ho] at hbound
        have hzero : n = 0 := by
          change _ ≤ s.counts manifest.graphEnabled lane at hbound
          omega
        rw [Offsets.advance, ho, hzero, Nat.add_zero, Function.update_eq_self]
    change Durable.Leaves _ ((a.transition _).run _) _ _ _
    cases htransition : a.transition (o.advance lane n) with
    | done =>
      exact Durable.Leaves.write (fun x hx => ⟨(hnext x hx).1, .inr (hnext x hx).2⟩) fun x hx => hnext x hx
    | refused e =>
      refine Durable.Leaves.raise fun x hx => ⟨fun h => ?_, hx.1, .inl hx.2⟩
      rw [h.1.transition] at htransition
      cases htransition
    | lost e =>
      refine Durable.Leaves.bind (Q := fun _ x => x.stores = t ∧ Says s manifest b (o.advance lane n) x)
        (Durable.Leaves.write (fun x hx => ⟨(hnext x hx).1, .inr (hnext x hx).2⟩) fun x hx => hnext x hx) fun _ => ?_
      refine Durable.Leaves.raise fun x hx => ⟨fun h => ?_, hx.1, .inr hx.2⟩
      rw [h.1.transition] at htransition
      cases htransition

/-! ## Attempts -/

/-- Nothing disturbs the attempt, and the snapshot can be replayed with the configured provider. -/
def Undisturbed (s : Snapshot) (manifest : ProviderManifest) (enc : Encoder F) (a : Attempt) : Prop :=
  a.Calm ∧ s.validateOwnership = .ok () ∧
    ∃ expected, validateProvider s manifest = .ok expected ∧ ∀ i ∈ s.items .vector, Embeds enc expected i

theorem ofExcept_leaves {σ α : Type} {P C : σ → Prop} {D : RebuildError → σ → Prop} (r : Except RebuildError α)
    (hD : ∀ e x, r = .error e → P x → D e x) :
    Durable.Leaves P (ReplayInputs.ofExcept r : Durable σ RebuildError α) C (fun v x => r = .ok v ∧ P x) D := by
  cases r with
  | ok v => exact Durable.Leaves.pure fun _ hx => ⟨rfl, hx⟩
  | error e => exact Durable.Leaves.raise fun x hx => hD e x rfl hx

/-- The last lane is finished: the operation may be verified. -/
theorem Resumable.verify {expected : Option ProviderSignature} (hexpected : validateProvider s manifest = .ok expected)
    {p : Offsets × Provider.Caches}
    (h : Between (attemptInputs s manifest enc expected a) Rebuild.stores (Says s manifest b) (fun _ => True) p x) :
    Resumable s manifest enc b { x with
      verifying := true
      progressCompleted := replayTotal s manifest
      progressTotal := replayTotal s manifest } := by
  have hreached := Resumable.of_at (o := p.1) hexpected ⟨h.1.1, h.1.2.1, h.2⟩
  have hoffsets : x.offsets = s.counts manifest.graphEnabled :=
    h.2.1.offsets.trans (funext fun l => h.1.2.2.2 l trivial)
  obtain ⟨hrow, hprefix⟩ := hreached.holds
  have hsum : replayTotal s manifest = x.offsets.sum := by rw [replayTotal, ← hoffsets]
  exact ⟨hreached.aligned, hreached.embedded, ⟨rfl, hsum, .inr rfl, hrow.least, fun _ => ⟨hoffsets, rfl⟩⟩, hprefix⟩

/-- Wherever an attempt ends, the next one can take over; and only something outside of the rebuild
keeps it from finishing. -/
theorem replay_leaves (s : Snapshot) (manifest : ProviderManifest) (enc : Encoder F) (b : Nat) (a : Attempt) :
    Durable.Leaves (Resumable s manifest enc b) (replay s manifest enc a) (Resumable s manifest enc b)
      (fun _ x => Resumable s manifest enc b x ∧ x.verifying = true)
      (fun _ x => ¬ Undisturbed s manifest enc a ∧ Resumable s manifest enc b x) := by
  refine Durable.Leaves.ite (fun hsize => Durable.Leaves.raise fun x hx => ⟨fun h => hsize h.1.size, hx⟩) fun _ => ?_
  refine Durable.Leaves.ite (fun hsource => Durable.Leaves.raise fun x hx => ⟨fun h => ?_, hx⟩) fun _ => ?_
  · rw [h.1.source] at hsource
    cases hsource
  refine Durable.Leaves.bind (ofExcept_leaves _ fun e x he hx => ⟨fun h => ?_, hx⟩) fun _ => ?_
  · cases h.2.1.symm.trans he
  have hprovider : ∀ e, validateProvider s manifest = .error e → ¬ Undisturbed s manifest enc a := by
    rintro e he ⟨-, -, expected, hexpected, -⟩
    cases hexpected.symm.trans he
  refine Durable.Leaves.pre (P := Resumable s manifest enc b) ?_ fun _ hx => hx.2
  refine Durable.Leaves.bind (ofExcept_leaves _ fun e x he hx => ⟨hprovider e he, hx⟩) fun expected => ?_
  refine Durable.Leaves.assume (fun _ hx => hx.1) fun hexpected => Durable.Leaves.pre ?_ fun _ hx => hx.2
  refine Durable.Leaves.bind_read fun x => ?_
  refine Durable.Leaves.assume (fun y hy => (hy.1 ▸ hy.2 : Resumable s manifest enc b x)) fun hx => ?_
  have hundisturbed : Disturbed s enc expected a → ¬ Undisturbed s manifest enc a := by
    rintro hdisturbed ⟨hcalm, -, expected', hexpected', hembeds⟩
    obtain rfl : expected = expected' := Except.ok.inj (hexpected.symm.trans hexpected')
    exact hdisturbed ⟨hcalm, hembeds⟩
  refine Durable.Leaves.ite (fun hinvalid => ?_) fun _ => ?_
  · obtain ⟨lane, -, hlane⟩ := List.any_eq_true.1 hinvalid
    exact absurd (of_decide_eq_true hlane) (Nat.not_lt.2 (hx.aligned.bounded lane))
  refine Durable.Leaves.ite (fun hne => absurd hx.holds.1.completed hne) fun _ => ?_
  refine Durable.Leaves.ite (fun hne => absurd ?_ hne) fun _ => ?_
  · rcases hx.holds.1.total with h | h <;> simp [h]
  have hstart : ∀ y, y = x ∧ Resumable s manifest enc b y →
      Between (attemptInputs s manifest enc expected a) Rebuild.stores (Says s manifest b) (fun _ => False)
        (x.offsets, noCaches) y := by
    rintro y ⟨rfl, hy⟩
    exact ⟨⟨hy.aligned, hy.embedded expected hexpected, remembered_noCaches _, fun _ h => h.elim⟩, hy.holds⟩
  have hreached : ∀ y, Reached (attemptInputs s manifest enc expected a) Rebuild.stores (Says s manifest b) y →
      Resumable s manifest enc b y := by
    rintro y ⟨o, ho⟩
    exact Resumable.of_at hexpected ho
  refine Durable.Leaves.bind ((leaves_replayLanes (attemptInputs_hooked s manifest enc expected a b)
    ⟨fun hsize h => hsize h.1.size, fun hembeds h => hembeds h.2⟩ (x.offsets, noCaches)).mono hstart hreached
    (fun _ _ => id) fun _ y hy => ⟨hundisturbed hy.1, hreached y hy.2⟩) fun p => ?_
  have hbetween : ∀ y, Between (attemptInputs s manifest enc expected a) Rebuild.stores (Says s manifest b)
      (fun _ => True) p y → Resumable s manifest enc b y := fun y hy => hreached y hy.reached
  refine Durable.Leaves.ite (fun hstop => Durable.Leaves.raise fun y hy => ⟨fun h => ?_, hbetween y hy⟩) fun _ => ?_
  · rw [h.1.stopsLast] at hstop
    cases hstop
  · cases hverify : a.verify with
    | done =>
      exact Durable.Leaves.write (fun y hy => Resumable.verify hexpected hy) fun y hy =>
        ⟨Resumable.verify hexpected hy, rfl⟩
    | refused e =>
      refine Durable.Leaves.raise fun y hy => ⟨fun h => ?_, hbetween y hy⟩
      rw [h.1.verify] at hverify
      cases hverify
    | lost e =>
      refine Durable.Leaves.bind (Q := fun _ => Resumable s manifest enc b)
        (Durable.Leaves.write (fun y hy => Resumable.verify hexpected hy) fun y hy => Resumable.verify hexpected hy)
        fun _ => Durable.Leaves.raise fun y hy => ⟨fun h => ?_, hy⟩
      rw [h.1.verify] at hverify
      cases hverify

theorem Resumable.initial (s : Snapshot) (manifest : ProviderManifest) (enc : Encoder F) :
    Resumable s manifest enc 0 (Rebuild.initial : Rebuild F) where
  aligned := aligned_zero ..
  embedded _ _ i hi := by simp [Rebuild.initial] at hi
  holds := ⟨⟨rfl, rfl, .inl rfl, Nat.zero_le _, fun h => by cases h⟩, 0, by simp [Rebuild.initial, Offsets.sum, lanes],
    Nat.zero_le _, applied_zero.symm⟩

/-- A rebuild that is resumable from `b` is resumable from where it is. -/
theorem Resumable.rebase (h : Resumable s manifest enc b x) : Resumable s manifest enc x.progressCompleted x where
  aligned := h.aligned
  embedded := h.embedded
  holds := by
    obtain ⟨hrow, hprefix⟩ := h.holds
    exact ⟨⟨rfl, hrow.completed, hrow.total, hrow.completed.le, hrow.finished⟩, hprefix⟩

theorem Resumable.attempt (a : Attempt × Nat) (h : Resumable s manifest enc b x) :
    Resumable s manifest enc b (attempt s manifest enc x a) :=
  (replay_leaves s manifest enc b a.1).cut h a.2

/-- A verified rebuild has what one replay leaves that nothing interrupts. -/
theorem Resumable.verified (h : Resumable s manifest enc b x) (hv : x.verifying = true) {batchSize : Nat}
    {expected : Option ProviderSignature} (hsize : 1 ≤ batchSize ∧ batchSize ≤ 1000)
    (hexpected : validateProvider s manifest = .ok expected) :
    (∃ p, (replayAll s manifest.graphEnabled batchSize enc expected).result .empty = .ok p) ∧
      x.stores = (replayAll s manifest.graphEnabled batchSize enc expected).final .empty := by
  obtain ⟨hrow, k, hpk, hk, hview⟩ := h.holds
  have hcounts := (hrow.finished hv).1
  have hembeds : ∀ i ∈ s.items .vector, Embeds enc expected i := by
    intro i hi
    refine h.embedded expected hexpected i ?_
    rw [hcounts, Snapshot.counts, if_pos (.inr rfl), List.take_length]
    exact hi
  obtain ⟨hresult, hfinal⟩ : (∃ p, (replayAll s manifest.graphEnabled batchSize enc expected).result .empty = .ok p) ∧
      (replayAll s manifest.graphEnabled batchSize enc expected).final .empty =
        content s manifest.graphEnabled enc (replayLog s manifest.graphEnabled enc).length :=
    replayAll_content hsize hembeds
  refine ⟨hresult, ?_⟩
  rw [hfinal, hview]
  congr 1
  refine le_antisymm hk ?_
  rw [replayLog_length, ← hcounts]
  exact hpk

/-- A rebuild may be stopped, refused or cut at any write, any number of times and with any batch
sizes. Its progress never moves backwards or past its total; once it is verified, its stores hold what
one uninterrupted replay writes; and from wherever it is, an undisturbed attempt verifies it. -/
theorem replay_resumable (s : Snapshot) (manifest : ProviderManifest) (enc : Encoder F)
    (attempts : List (Attempt × Nat)) :
    let x := run (attempt s manifest enc) Rebuild.initial attempts
    (x.progressCompleted ≤ replayTotal s manifest ∧ ∀ earlier later, attempts = earlier ++ later →
      (run (attempt s manifest enc) Rebuild.initial earlier).progressCompleted ≤ x.progressCompleted) ∧
    (x.verifying = true → x.offsets = s.counts manifest.graphEnabled ∧ x.progressCompleted = replayTotal s manifest ∧
      ∀ batchSize expected, 1 ≤ batchSize ∧ batchSize ≤ 1000 → validateProvider s manifest = .ok expected →
        (∃ p, (replayAll s manifest.graphEnabled batchSize enc expected).result .empty = .ok p) ∧
          x.stores = (replayAll s manifest.graphEnabled batchSize enc expected).final .empty) ∧
    ∀ a, Undisturbed s manifest enc a → (replay s manifest enc a).result x = .ok () ∧
      ((replay s manifest enc a).final x).verifying = true := by
  have hreach : ∀ (l : List (Attempt × Nat)) (y : Rebuild F), Resumable s manifest enc y.progressCompleted y →
      Resumable s manifest enc y.progressCompleted (run (attempt s manifest enc) y l) := fun l y hy =>
    stable_run (fun z c hz => hz.attempt c) hy
  have hx := hreach attempts Rebuild.initial (Resumable.initial s manifest enc)
  refine ⟨⟨?_, ?_⟩, fun hv => ?_, fun a ha => ?_⟩
  · rw [hx.holds.1.completed]
    exact hx.aligned.sum_le
  · rintro earlier later rfl
    rw [run_append]
    have hearlier := (hreach earlier Rebuild.initial (Resumable.initial s manifest enc)).rebase
    have hlater := hreach later _ hearlier
    rw [hlater.holds.1.completed]
    exact hlater.holds.1.least
  · have hcounts := (hx.holds.1.finished hv).1
    refine ⟨hcounts, ?_, fun batchSize expected hsize hexpected => hx.verified hv hsize hexpected⟩
    rw [hx.holds.1.completed, hcounts]
    rfl
  · have hleaves := replay_leaves s manifest enc 0 a
    have hzero : Resumable s manifest enc 0 (run (attempt s manifest enc) Rebuild.initial attempts) := hx
    rcases hresult : (replay s manifest enc a).result (run (attempt s manifest enc) Rebuild.initial attempts) with e | v
    · exact absurd ha (hleaves.raised _ e hzero hresult).1
    · exact ⟨rfl, (hleaves.returned _ v hzero hresult).2⟩

end Mesa.Rebuild
