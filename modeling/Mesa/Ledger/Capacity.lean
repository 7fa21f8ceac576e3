/-
The capacity of the dispatch queue. Admissions check it, and claims, completions and recoveries
never add an active record; a replay and a dispatch under another policy can exceed it, and every
run in which they have room stays within the maxima.
-/
import Mesa.Ledger.QueueSafety
import Mesa.Ledger.Replay

namespace Mesa.Ledger

open Mesa.Foundation

/-! ## The maxima -/

/-- The active records and their bytes are at most the maxima of the policy, globally and for each
tenant. -/
structure WithinCapacity (policy : QueueAdmissionPolicy) (s : Intake) : Prop where
  records : (s.queueUsage none).records ≤ policy.queueMaxPendingRecords
  bytes : (s.queueUsage none).bytes ≤ policy.queueMaxPendingBytes
  tenantRecords : ∀ t, (s.queueUsage (some t)).records ≤ policy.queueMaxPendingRecordsPerTenant
  tenantBytes : ∀ t, (s.queueUsage (some t)).bytes ≤ policy.queueMaxPendingBytesPerTenant

/-- The summed `payload_bytes` of records. -/
def Intake.bytesOf (s : Intake) (rows : List DispatchRecord) : Nat := (rows.map fun q => s.payloadBytes q.key).sum

/-- The selected records and their bytes are at most the maxima. -/
structure Fits (policy : QueueAdmissionPolicy) (s : Intake) (p : DispatchRecord → Bool) : Prop where
  records : (s.db.queue.dispatch.select p).length ≤ policy.queueMaxPendingRecords
  bytes : s.bytesOf (s.db.queue.dispatch.select p) ≤ policy.queueMaxPendingBytes
  tenantRecords : ∀ t, (s.db.queue.dispatch.select fun q => p q && q.tenantId = t).length ≤
    policy.queueMaxPendingRecordsPerTenant
  tenantBytes : ∀ t, s.bytesOf (s.db.queue.dispatch.select fun q => p q && q.tenantId = t) ≤
    policy.queueMaxPendingBytesPerTenant

/-- One more record of a tenant fits. -/
structure HasRoom (policy : QueueAdmissionPolicy) (s : Intake) (tenantId : String) (payloadBytes : Nat) : Prop where
  records : (s.queueUsage none).records + 1 ≤ policy.queueMaxPendingRecords
  bytes : (s.queueUsage none).bytes + payloadBytes ≤ policy.queueMaxPendingBytes
  tenantRecords : (s.queueUsage (some tenantId)).records + 1 ≤ policy.queueMaxPendingRecordsPerTenant
  tenantBytes : (s.queueUsage (some tenantId)).bytes + payloadBytes ≤ policy.queueMaxPendingBytesPerTenant

theorem withinCapacity_iff {policy : QueueAdmissionPolicy} {s : Intake} :
    WithinCapacity policy s ↔ Fits policy s fun q => q.state.active := by
  have hall : s.activeRecords none = s.db.queue.dispatch.select fun q => q.state.active :=
    List.filter_congr fun q _ => by simp
  have hone : ∀ t, s.activeRecords (some t) = s.db.queue.dispatch.select fun q => q.state.active && q.tenantId = t :=
    fun t => rfl
  constructor
  · rintro ⟨h₁, h₂, h₃, h₄⟩
    unfold Intake.queueUsage at h₁ h₂
    rw [hall] at h₁ h₂
    exact ⟨h₁, h₂, fun t => by have := h₃ t; unfold Intake.queueUsage at this; rwa [hone] at this,
      fun t => by have := h₄ t; unfold Intake.queueUsage at this; rwa [hone] at this⟩
  · rintro ⟨h₁, h₂, h₃, h₄⟩
    refine ⟨?_, ?_, fun t => ?_, fun t => ?_⟩ <;> unfold Intake.queueUsage
    · rw [hall]; exact h₁
    · rw [hall]; exact h₂
    · rw [hone]; exact h₃ t
    · rw [hone]; exact h₄ t

/-- A record that passes the check of a policy fits its maxima. -/
theorem hasRoom_of_enforce {policy : QueueAdmissionPolicy} {s : Intake} {tenantId : String} {payloadBytes : Nat}
    (h : s.enforce policy tenantId payloadBytes = .ok ()) : HasRoom policy s tenantId payloadBytes := by
  unfold Intake.enforce enforceQueueCapacity at h
  split at h
  · cases h
  · simp only at h
    split at h
    · cases h
    · next hnone =>
      simp only [List.find?_eq_none, List.mem_cons, List.not_mem_nil, or_false, forall_eq_or_imp, forall_eq,
        decide_eq_true_eq, Nat.not_lt, ge_iff_le, gt_iff_lt] at hnone
      obtain ⟨h₁, h₂, -, -, h₃, h₄, -, -⟩ := hnone
      exact ⟨h₁, h₂, h₃, h₄⟩

/-! ## Steps that queue nothing -/

/-- Selections that never select more rows keep a sublist of the keys. -/
theorem select_sublist {α β γ : Type} {R : α → β → Prop} {p : α → Bool} {q : β → Bool} {f : α → γ} {g : β → γ}
    (hR : ∀ a b, R a b → (q b = true → p a = true) ∧ g b = f a) : ∀ {l : List α} {m : List β}, List.Forall₂ R l m →
      ((m.filter q).map g).Sublist ((l.filter p).map f)
  | _, _, .nil => .slnil
  | a :: l, b :: m, .cons hab hrest => by
    obtain ⟨hpq, hfg⟩ := hR a b hab
    have ih := select_sublist hR hrest
    rw [List.filter_cons, List.filter_cons]
    by_cases hq : q b = true
    · rw [if_pos hq, if_pos (hpq hq), List.map_cons, List.map_cons, hfg]
      exact ih.cons_cons _
    · rw [if_neg hq]
      split
      · exact ih.cons _
      · exact ih

/-- Moves that select no more records keep what fits. -/
theorem Fits.of_rel {policy : QueueAdmissionPolicy} {s s' : Intake} {p p' : DispatchRecord → Bool}
    {R : DispatchRecord → DispatchRecord → Prop} (h : Fits policy s p)
    (hrel : s.db.queue.dispatch.Rel R s'.db.queue.dispatch) (hcharges : s'.charges = s.charges)
    (hR : ∀ q q', R q q' → (p' q' = true → p q = true) ∧ q'.key = q.key ∧ q'.tenantId = q.tenantId) :
    Fits policy s' p' := by
  have hbytes : s'.payloadBytes = s.payloadBytes := by
    funext k; unfold Intake.payloadBytes; rw [hcharges]
  have hkeys : ∀ r r' : DispatchRecord → Bool, (∀ q q', R q q' → r' q' = true → r q = true) →
      (s'.db.queue.dispatch.select r').length ≤ (s.db.queue.dispatch.select r).length ∧
        s'.bytesOf (s'.db.queue.dispatch.select r') ≤ s.bytesOf (s.db.queue.dispatch.select r) := by
    intro r r' hr
    have hsub := select_sublist (p := r) (q := r') (f := fun q : DispatchRecord => q.key)
      (g := fun q : DispatchRecord => q.key) (fun q q' hq => ⟨hr q q' hq, (hR q q' hq).2.1⟩) hrel
    constructor
    · have := hsub.length_le
      rwa [List.length_map, List.length_map] at this
    · have := (hsub.map s.payloadBytes).sum_le_sum fun _ _ => Nat.zero_le _
      rw [List.map_map, List.map_map] at this
      unfold Intake.bytesOf
      rw [hbytes]
      exact this
  have htenant : ∀ t q q', R q q' → (p' q' && q'.tenantId = t) = true → (p q && q.tenantId = t) = true := by
    intro t q q' hq ht
    rw [(hR q q' hq).2.2] at ht
    simp only [Bool.and_eq_true] at ht ⊢
    exact ⟨(hR q q' hq).1 ht.1, ht.2⟩
  have hall := hkeys p p' fun q q' hq => (hR q q' hq).1
  exact ⟨hall.1.trans h.records, hall.2.trans h.bytes,
    fun t => (hkeys _ _ (htenant t)).1.trans (h.tenantRecords t),
    fun t => (hkeys _ _ (htenant t)).2.trans (h.tenantBytes t)⟩

/-- Only a replay makes a record active again. -/
theorem DispatchMove.active {s : Intake} {op : IntakeOp} {q q' : DispatchRecord} (h : DispatchMove s op q q')
    (hop : ∀ r t, op ≠ .replayPipelineRun r t) (hq' : q'.state.active = true) : q.state.active = true := by
  cases h with
  | kept => exact hq'
  | claimed w t limit lease plain _ hclaim => exact DispatchRecord.claimable_active hclaim
  | recovered plain _ hs => rw [hs]; rfl
  | finalized w t o _ hheld => cases hq'
  | retried w t o _ hheld lease hlimit => rw [DispatchRecord.heldBy_inFlight hheld]; rfl
  | deadLettered w t o _ hheld hlimit => cases hq'
  | requeued r t _ hs => exact absurd rfl (hop r t)

theorem DispatchMove.tenantId {s : Intake} {op : IntakeOp} {q q' : DispatchRecord} (h : DispatchMove s op q q') :
    q'.tenantId = q.tenantId := by
  cases h <;> rfl

/-! ## Steps that queue a record -/

/-- Every queue record is charged, and nothing else is. -/
def Charged (s : Intake) : Prop := ∀ k, s.charges.hasKey k = s.db.queue.dispatch.hasKey k

variable {env : IntakeEnv} {policy : QueueAdmissionPolicy}

theorem Charged.step {s s' : Intake} {op : IntakeOp} (hs : Charged s) (h : DispatchStep env policy s op s') :
    Charged s' := by
  intro k
  rcases h.rows with ⟨hrel, hcharges⟩ | ⟨key, tenantId, payloadBytes, hq⟩
  · have hkey : ∀ q q', DispatchMove s op q q' → Keyed.key q' = Keyed.key q := fun _ _ hm => hm.key
    rw [hcharges, hs k, Bool.eq_iff_iff, Table.hasKey_iff, Table.hasKey_iff]
    cases hl : s.db.queue.dispatch.lookup k with
    | none => rw [(hrel.lookup_none hkey).2 hl]
    | some q =>
      obtain ⟨q', hq', -⟩ := hrel.lookup hkey hl
      rw [hq']; rfl
  · rw [hq.row, hq.charge, Table.hasKey_insertOrIgnore, Table.hasKey_insertOrIgnore, hs k]; rfl

/-- A new record adds itself to the selections it belongs to, and its charge to their bytes. -/
theorem Enqueues.select {s s' : Intake} {op : IntakeOp} {key : DispatchKey} {tenantId : String} {payloadBytes : Nat}
    (h : Enqueues env policy s op s' key tenantId payloadBytes) (hs : Charged s)
    (hfresh : s.db.queue.dispatch.hasKey key = false) (p : DispatchRecord → Bool) :
    (s'.db.queue.dispatch.select p).length =
        (s.db.queue.dispatch.select p).length + (if p (enqueuedRecord key tenantId) then 1 else 0) ∧
      s'.bytesOf (s'.db.queue.dispatch.select p) =
        s.bytesOf (s.db.queue.dispatch.select p) + (if p (enqueuedRecord key tenantId) then payloadBytes else 0) := by
  have hcharge : s.charges.lookup key = none := Table.hasKey_eq_false.1 ((hs key).trans hfresh)
  have hrows : s'.db.queue.dispatch.rows = s.db.queue.dispatch.rows ++ [enqueuedRecord key tenantId] := by
    rw [h.row]; exact Table.rows_insertOrIgnore_fresh (Table.hasKey_eq_false.1 hfresh)
  have hnew : s'.payloadBytes key = payloadBytes := by
    have hkey : Keyed.key (⟨key, payloadBytes⟩ : QueueCharge) = key := rfl
    unfold Intake.payloadBytes
    rw [h.charge, Table.lookup_insertOrIgnore, hcharge, Option.none_or, if_pos hkey]; rfl
  have hold : ∀ q ∈ s.db.queue.dispatch.rows, s'.payloadBytes q.key = s.payloadBytes q.key := by
    intro q hq
    have hne : key ≠ q.key := by
      rintro rfl
      have : s.db.queue.dispatch.lookup q.key = some q := Table.lookup_of_mem hq
      rw [Table.hasKey_eq_false.1 hfresh] at this; cases this
    unfold Intake.payloadBytes
    rw [h.charge, Table.lookup_insertOrIgnore_of_ne (k := q.key) hne]
  have hbytes : ∀ l : List DispatchRecord, (∀ q ∈ l, q ∈ s.db.queue.dispatch.rows) → s'.bytesOf l = s.bytesOf l :=
    fun l hl => congrArg List.sum (List.map_congr_left fun q hq => hold q (hl q hq))
  have hsel : s'.db.queue.dispatch.select p =
      s.db.queue.dispatch.select p ++
        if p (enqueuedRecord key tenantId) then [enqueuedRecord key tenantId] else [] := by
    unfold Table.select
    rw [hrows, List.filter_append, List.filter_singleton]
    cases p (enqueuedRecord key tenantId) <;> rfl
  have hpart : s'.bytesOf (s.db.queue.dispatch.select p) = s.bytesOf (s.db.queue.dispatch.select p) :=
    hbytes _ fun q hq => (Table.mem_select.1 hq).1
  rw [hsel]
  split
  · refine ⟨by rw [List.length_append]; rfl, ?_⟩
    show s'.bytesOf (_ ++ [enqueuedRecord key tenantId]) = _
    unfold Intake.bytesOf at hpart ⊢
    rw [List.map_append, List.sum_append, hpart, List.map_singleton, List.sum_singleton]
    exact congrArg _ hnew
  · rw [List.append_nil]
    exact ⟨rfl, hpart⟩

/-- A new record that has room keeps the queue within its capacity. -/
theorem Enqueues.within {s s' : Intake} {op : IntakeOp} {key : DispatchKey} {tenantId : String} {payloadBytes : Nat}
    (h : Enqueues env policy s op s' key tenantId payloadBytes) (hs : Charged s) (hw : WithinCapacity policy s)
    (hroom : HasRoom policy s tenantId payloadBytes) : WithinCapacity policy s' := by
  have hfits := withinCapacity_iff.1 hw
  refine withinCapacity_iff.2 ?_
  cases hkey : s.db.queue.dispatch.hasKey key with
  | true =>
    have hcharges : s'.charges = s.charges := by
      rw [h.charge]; exact Table.insertOrIgnore_of_hasKey ((hs key).trans hkey)
    have hrows : s'.db.queue.dispatch = s.db.queue.dispatch := by
      rw [h.row]; exact Table.insertOrIgnore_of_hasKey hkey
    refine hfits.of_rel (R := Eq) ?_ hcharges fun q q' hq => by subst hq; exact ⟨id, rfl, rfl⟩
    rw [hrows]; exact Table.Rel.refl (fun _ => rfl) _
  | false =>
    have hsel := h.select hs hkey
    have hpos : (fun q : DispatchRecord => q.state.active) (enqueuedRecord key tenantId) = true := rfl
    have hall : s.activeRecords none = s.db.queue.dispatch.select fun q => q.state.active :=
      List.filter_congr fun q _ => by simp
    refine ⟨?_, ?_, fun t => ?_, fun t => ?_⟩
    · rw [(hsel _).1, if_pos hpos]
      have := hroom.records
      unfold Intake.queueUsage at this
      rwa [hall] at this
    · rw [(hsel _).2, if_pos hpos]
      have := hroom.bytes
      unfold Intake.queueUsage at this
      rwa [hall] at this
    · rw [(hsel _).1]
      by_cases ht : tenantId = t
      · subst ht
        rw [if_pos (by simp [enqueuedRecord, DispatchState.active])]
        exact hroom.tenantRecords
      · rw [if_neg (by simp [enqueuedRecord, ht])]
        exact hfits.tenantRecords t
    · rw [(hsel _).2]
      by_cases ht : tenantId = t
      · subst ht
        rw [if_pos (by simp [enqueuedRecord, DispatchState.active])]
        exact hroom.tenantBytes
      · rw [if_neg (by simp [enqueuedRecord, ht])]
        exact hfits.tenantBytes t

/-! ## Replays -/

/-- A replay of the run would hand back the record: it is dead, and dispatched for a mutation of the
run that can be retried. -/
def requeuedBy (db : Db) (pipelineRunId : String) (q : DispatchRecord) : Bool :=
  q.state = .deadLetter && db.core.mutations.anyWhere fun m =>
    m.pipelineRunId = pipelineRunId && m.state.attempt .retryPending = .retryPending && dispatchedFor m q

/-- A replay of the run goes through and resumes no rollback. -/
def replaysDispatches (db : Db) (pipelineRunId : String) (targetMutationId : Option String) : Bool :=
  let target := (db.core.children pipelineRunId).filter fun m => targetMutationId.all fun t => m.mutationId = t
  ((db.core.runs.lookup pipelineRunId).any fun run => run.state ∈ [PipelineState.dlq, .blocked]) &&
    (targetMutationId.isNone || target ≠ []) && target.all (·.state ≠ .rejected) && !resumesRollback db pipelineRunId

/-- The records of a replay move to active states only when they were active or are handed back. -/
theorem replay_rel {db db' : Db} {id : String} {target : Option String} (h : replayPipelineRun db id target = .ok db')
    (hresumes : resumesRollback db id = false) : db.queue.dispatch.Rel (fun q q' =>
      (q'.state.active = true → (q.state.active || requeuedBy db id q) = true) ∧ q'.key = q.key ∧
        q'.tenantId = q.tenantId) db'.queue.dispatch := by
  obtain ⟨run, runs, -, -, cleanupReplay, hcleanup, -, hmove, hrows⟩ := replayPipelineRun_cases h
  have hfalse : cleanupReplay = false := hcleanup.trans hresumes
  subst hfalse
  rw [hrows]
  refine Table.Rel.of_update rfl (fun q => ⟨fun hq => by rw [hq]; rfl, rfl, rfl⟩) fun q hq hlinked => ?_
  refine ⟨fun _ => ?_, rfl, rfl⟩
  simp only [Bool.and_eq_true, decide_eq_true_eq, Table.anyWhere_iff] at hlinked
  obtain ⟨hdead, m', hm', ⟨⟨⟨hrun, hstate⟩, hlog⟩, hagent⟩, htenant⟩ := hlinked
  have hmut := (transitionPipelineMutations_spec hmove).1
  rw [hmut] at hm'
  obtain ⟨m, hm, rfl⟩ := Table.mem_update.1 hm'
  have hmine : m.pipelineRunId = id := by
    by_cases hp : m.pipelineRunId = id
    · exact hp
    · rw [if_neg (by simpa using hp)] at hrun; exact hrun
  rw [if_pos (by simpa using hmine)] at hstate hlog hagent htenant
  rw [Bool.or_eq_true]
  right
  simp only [requeuedBy, Bool.and_eq_true, decide_eq_true_eq, Table.anyWhere_iff, dispatchedFor]
  exact ⟨hdead, m, hm, ⟨hmine, hstate⟩, ⟨hlog, hagent⟩, htenant⟩

/-- A replay that succeeds passes its guards. -/
theorem replay_guards {db db' : Db} {id : String} {target : Option String}
    (h : replayPipelineRun db id target = .ok db')
    (hresumes : resumesRollback db id = false) : replaysDispatches db id target = true := by
  obtain ⟨run, runs, hrun, hstate, -⟩ := replayPipelineRun_cases h
  unfold replayPipelineRun at h
  rw [hrun] at h
  simp only at h
  split at h
  · cases h
  · split at h
    · cases h
    · next htarget =>
      split at h
      · cases h
      · next hrejected =>
        unfold replaysDispatches
        simp only [hrun, Option.any_some, hstate, decide_true, Bool.true_and, hresumes, Bool.not_false, Bool.and_true,
          Bool.and_eq_true, Bool.or_eq_true, decide_eq_true_eq]
        refine ⟨?_, ?_⟩
        · rw [not_and_or] at htarget
          rcases htarget with hnone | hne
          · left
            cases target with
            | none => rfl
            | some t => exact absurd rfl hnone
          · exact Or.inr hne
        · rw [List.all_eq_true]
          intro m hm
          have hnot := eq_false_of_ne_true hrejected
          have := List.any_eq_false.1 hnot m hm
          simpa using this

/-! ## Whole runs -/

/-- Whenever the step queues records without asking the configured policy, they fit its maxima: a
dispatch that passes the check of the policy it was given has room, and the records that a replay
hands back fit together with the active ones. -/
def KeepsCapacity (env : IntakeEnv) (policy : QueueAdmissionPolicy) (s : Intake) : IntakeOp → Prop
  | .dispatchRawLog a l _ given => ∀ log, s.logs.lookup l = some log →
      ((s.journal.lookup l).any fun j => j.state = .receiptRecorded) = false →
        s.enforce (given.getD defaultQueueAdmissionPolicy) a (env.canonicalPayloadBytes log.payload) = .ok () →
          HasRoom policy s a (env.canonicalPayloadBytes log.payload)
  | .replayPipelineRun r t => replaysDispatches s.db r t = true →
      Fits policy s fun q => q.state.active || requeuedBy s.db r q
  | _ => True

theorem WithinCapacity.step {s s' : Intake} {op : IntakeOp} (hw : WithinCapacity policy s) (hc : Charged s)
    (hop : KeepsCapacity env policy s op) (h : intakeTransact env policy s op = .ok s') :
    WithinCapacity policy s' := by
  have hstep := intake_dispatch_step h
  rcases hstep.rows with ⟨hrel, hcharges⟩ | ⟨key, tenantId, payloadBytes, hq⟩
  · have hmoves : (∀ r t, op ≠ .replayPipelineRun r t) → WithinCapacity policy s' := by
      intro hnot
      refine withinCapacity_iff.2 ((withinCapacity_iff.1 hw).of_rel hrel hcharges fun q q' hm => ?_)
      exact ⟨hm.active hnot, hm.key, hm.tenantId⟩
    cases op with
    | replayPipelineRun r t =>
      obtain ⟨db, hdb, hs'⟩ := bind_eq_ok.1 h
      cases pure_eq_ok.1 hs'
      have hok := mapError_eq_ok.1 hdb
      cases hresumes : resumesRollback s.db r with
      | true =>
        obtain ⟨run, runs, -, -, cleanupReplay, hcleanup, -, -, hrows⟩ := replayPipelineRun_cases hok
        have htrue : cleanupReplay = true := hcleanup.trans hresumes
        subst htrue
        refine withinCapacity_iff.2 ((withinCapacity_iff.1 hw).of_rel (R := Eq) ?_ rfl fun q q' hq => ?_)
        · show s.db.queue.dispatch.Rel Eq db.queue.dispatch
          rw [hrows]; exact Table.Rel.refl (fun _ => rfl) _
        · subst hq; exact ⟨id, rfl, rfl⟩
      | false =>
        have hfits := hop (replay_guards hok hresumes)
        exact withinCapacity_iff.2 (hfits.of_rel (replay_rel hok hresumes) rfl fun _ _ hq => hq)
    | _ => exact hmoves (by intro r t hr; cases hr)
  · refine hq.within hc hw ?_
    have henforced := hq.enforced
    cases op with
    | dispatchRawLog a l w given =>
      obtain ⟨rfl, hjournal, log, hlog, rfl⟩ := hq.log a l w given rfl
      exact hop log hlog hjournal henforced
    | _ => exact hasRoom_of_enforce henforced

/-- In every run whose dispatches and replays have room, the active records and their bytes stay
within the maxima of the configured policy, globally and for each tenant, in every state. -/
theorem capacity_kept (env : IntakeEnv) (policy : QueueAdmissionPolicy) (ops : List IntakeOp)
    (h : Along (intakeExec env policy) (KeepsCapacity env policy) .empty ops) :
    Along (intakeExec env policy) (fun s _ => WithinCapacity policy s) .empty ops ∧
      WithinCapacity policy (intakeReach env policy ops) := by
  have hempty : Charged .empty ∧ WithinCapacity policy .empty :=
    ⟨fun _ => rfl, Nat.zero_le _, Nat.zero_le _, fun _ => Nat.zero_le _, fun _ => Nat.zero_le _⟩
  have hstep : ∀ s op, Charged s ∧ WithinCapacity policy s → KeepsCapacity env policy s op →
      Charged (intakeExec env policy s op) ∧ WithinCapacity policy (intakeExec env policy s op) := by
    intro s op hs hop
    refine orKeep_invariant (P := fun s' => Charged s' ∧ WithinCapacity policy s') hs fun s' hok => ?_
    exact ⟨hs.1.step (intake_dispatch_step hok), hs.2.step hs.1 hop hok⟩
  exact ⟨along_of_invariant hstep (fun _ _ hs _ => hs.2) hempty h, (invariant_run hstep hempty h).2⟩

/-- A dispatch under the default policy that has room, and a replay of an unknown run. -/
def roomyRun : List IntakeOp :=
  [.insertRawLog "a" (samplePayload "text"), .dispatchRawLog "a" 1 "w" none, .replayPipelineRun "r" none]

theorem capacity_kept_roomy :
    Along (intakeExec sampleIntakeEnv (samplePolicy 2)) (fun s _ => WithinCapacity (samplePolicy 2) s) .empty
        roomyRun ∧
      WithinCapacity (samplePolicy 2) (intakeReach sampleIntakeEnv (samplePolicy 2) roomyRun) := by
  refine capacity_kept sampleIntakeEnv (samplePolicy 2) roomyRun
    ⟨trivial, fun log hlog _ _ => ?_, fun h => ?_, trivial⟩
  · cases hlog
    exact ⟨by decide, by decide, by decide, by decide⟩
  · exact absurd h (by decide)

/-- The dispatch of the first raw log fails and its retry delay passes. -/
def failedDispatch : List IntakeOp :=
  [.ledger (.claimDispatchQueue "w" "token" 1 60) rfl, .completeDispatchQueue ⟨"a", 1⟩ "w" "token" "failed" false,
    .ledger (.passTime 900) rfl]

/-- An admission is dead-lettered after five failures, another takes its place, and an operator
replays the first. -/
def replayedRun : List IntakeOp :=
  [sampleScope, .admitV4Memory (sampleRequest "k" "h" "c" 0) none] ++
    failedDispatch ++ failedDispatch ++ failedDispatch ++ failedDispatch ++ failedDispatch ++
      [.admitV4Memory (sampleRequest "k'" "h'" "c'" 1) none, .replayPipelineRun "url:mesa:v4:t:a:1:pipeline-run" none]

/-- Two stored raw logs are dispatched without a policy. -/
def defaultPolicyRun : List IntakeOp :=
  [.insertRawLog "a" (samplePayload "text"), .insertRawLog "a" (samplePayload "more"),
    .dispatchRawLog "a" 1 "w" none, .dispatchRawLog "a" 2 "w" none]

/-- A replay, and a dispatch under the default policy, exceed a maximum of one pending record. -/
theorem replay_exceeds_capacity :
    ¬ WithinCapacity (samplePolicy 1) (intakeReach sampleIntakeEnv (samplePolicy 1) replayedRun) ∧
      ¬ WithinCapacity (samplePolicy 1) (intakeReach sampleIntakeEnv (samplePolicy 1) defaultPolicyRun) := by
  refine ⟨fun h => absurd h.records ?_, fun h => absurd h.records ?_⟩
  · decide +kernel
  · decide +kernel

end Mesa.Ledger
