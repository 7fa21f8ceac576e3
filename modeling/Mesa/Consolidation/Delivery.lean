/-
What the dead-letter queue promises: an item stays until the holder of its current claim removes it, an
older claim changes nothing, the receipts can be read, and no item is handed out too often.
-/
import Mesa.Consolidation.DeadLetter

namespace Mesa.Consolidation

open Mesa.Foundation

variable {s s' : Queue}

/-! ## The properties -/

/-- A claim that there was and that is not the current one of its item. -/
def Queue.Stale (s : Queue) (queueId claimToken : String) : Prop :=
  (queueId, claimToken) ∈ s.issued ∧ ∀ r, s.records.lookup queueId = some r → r.claimToken ≠ some claimToken

/-- The operation is called with this claim. -/
def QueueStep.names (i : Identity) : QueueStep → Prop
  | .ack items _ _ => i ∈ items
  | .complete c _ _ => i = c.item
  | .nack items _ _ _ => i ∈ items
  | _ => False

/-- The operation acknowledges or completes the item under its current claim. -/
def QueueStep.removes (r : Record) : QueueStep → Prop
  | .ack items workerId _ => r.identity ∈ items ∧ r.ownedBy workerId = true
  | .complete c _ _ => r.identity = c.item ∧ r.ownedBy c.workerId = true
  | _ => False

/-- What a step keeps. -/
structure Queue.Keeps (s : Queue) (step : QueueStep) : Prop where
  appended : ∀ queueId payload fresh, step = .append queueId payload fresh false .returns →
    s.records.lookup (queueId.getD fresh) = none →
    (s.exec step).records.lookup (queueId.getD fresh) = some (normalize queueId payload fresh)
  stays : ∀ r ∈ s.records.rows,
    (∃ r' ∈ (s.exec step).records.rows, r'.queueId = r.queueId ∧ r'.payload = r.payload) ∨ step.removes r
  unchanged : ∀ q t, s.Stale q t → step.names (some q, some t) → s.exec step = s
  stale : ∀ q t, s.Stale q t → (s.exec step).Stale q t

/-- What holds between the steps. -/
structure Queue.Sound (s : Queue) : Prop where
  readable : (readCompletionReceipts s.receipts).isSome = true
  completes : ∀ r ∈ s.records.rows, ∀ c : Completion, c.item = r.identity → r.ownedBy c.workerId = true →
    c.sideEffectVerified = true → (s.complete c none .returns).records.lookup r.queueId = none
  attempts : ∀ q, s.handed q ≤ maxAttempts

/-- A claim takes no record that has had its attempts, and a crash leaves nothing of a receipt or its whole
line. -/
def Queue.Fit (s : Queue) : QueueStep → Prop
  | .claim _ limit _ now _ _ => ∀ r ∈ s.chosen limit now, r.attemptCount < maxAttempts
  | .complete c (some n) _ => n = 0 ∨ (s.completing c.item c.workerId).all (fun r => (c.line r).length ≤ n) = true
  | _ => True

instance Queue.Fit.decidable (s : Queue) : ∀ step, Decidable (s.Fit step)
  | .claim _ _ _ _ _ _ => inferInstanceAs (Decidable (∀ r ∈ _, _))
  | .complete _ (some _) _ => inferInstanceAs (Decidable (_ ∨ _))
  | .complete _ none _ | .append _ _ _ _ _ | .ack _ _ _ | .nack _ _ _ _ => inferInstanceAs (Decidable True)

/-! ## Rewriting -/

theorem rewrite_cases (s : Queue) (fate : Fate) (t : Queue) : s.rewrite fate t = s ∨ s.rewrite fate t = t := by
  cases fate
  · exact .inr rfl
  · exact .inl rfl
  · exact .inr rfl

/-- The records and claims that an operation can leave. -/
inductive Queue.Moved (s : Queue) : QueueStep → Queue → Prop
  | same {step : QueueStep} : s.Moved step s
  | append {queueId : Option String} {payload : Payload} {fresh : String} {fate : Fate}
    (h : s.records.lookup (queueId.getD fresh) = none) : s.Moved (.append queueId payload fresh false fate)
      { s with
        records := s.records.insertOrIgnore (normalize queueId payload fresh)
        handed := Function.update s.handed (queueId.getD fresh) 0 }
  | claim {workerId : String} {limit leaseSeconds : Nat} {now : ℚ} {tokens : String → String} {fate : Fate}
    (h : ∀ id ∈ (s.chosen limit now).map (·.queueId), (id, tokens id) ∉ s.issued) :
      s.Moved (.claim workerId limit leaseSeconds now tokens fate)
      { s with
        records := s.records.update (fun r => decide (r.queueId ∈ (s.chosen limit now).map (·.queueId)))
          fun r => r.claim workerId (tokens r.queueId) (now + leaseSeconds)
        issued := ((s.chosen limit now).map (·.queueId)).map (fun id => (id, tokens id)) ++ s.issued
        handed := handedOut fate ((s.chosen limit now).map (·.queueId)) s.handed }
  | ack {items : List Identity} {workerId : String} {fate : Fate}
    (h : ∀ i ∈ items, i ∈ (s.records.select (·.ownedBy workerId)).map Record.identity) :
      s.Moved (.ack items workerId fate) { s with records := s.records.delete fun r => decide (r.identity ∈ items) }
  | receipt {c : Completion} {kept : Option Nat} {fate : Fate} {claim : Record}
    (h : s.completing c.item c.workerId = some claim) :
      s.Moved (.complete c kept fate)
        { s with receipts := s.receipts ++ kept.elim (c.line claim) fun n => (c.line claim).take n }
  | complete {c : Completion} {kept : Option Nat} {fate : Fate} {claim : Record} {text : List Char}
    (h : s.completing c.item c.workerId = some claim) (htext : text = [] ∨ text = c.line claim) :
      s.Moved (.complete c kept fate)
        { s with
          receipts := s.receipts ++ text
          records := s.records.delete fun r => decide (r.queueId = claim.queueId) }
  | nack {items : List Identity} {workerId errorType : String} {fate : Fate}
    (h : ∀ i ∈ items, i ∈ s.records.rows.map Record.identity) :
      s.Moved (.nack items workerId errorType fate)
        { s with records := s.records.update (fun r => decide (r.identity ∈ items)) (·.nack errorType) }

/-- What a step can do. -/
theorem exec_moved (s : Queue) (step : QueueStep) : s.Moved step (s.exec step) := by
  cases step with
  | append queueId payload fresh full fate =>
    simp only [Queue.exec, Queue.append]
    split
    · exact .same
    · next h =>
      simp only [not_or, Bool.not_eq_true] at h
      obtain ⟨rfl, hfree⟩ := h
      rcases rewrite_cases s fate _ with hs | hs <;> rw [hs]
      · exact .same
      · exact .append (Table.hasKey_eq_false.1 hfree)
  | claim workerId limit leaseSeconds now tokens fate =>
    simp only [Queue.exec, Queue.claim]
    split
    · exact .same
    · split
      · exact .same
      · next h =>
        rcases rewrite_cases s fate _ with hs | hs <;> rw [hs]
        · exact .same
        · exact .claim fun id hid hissued => h ⟨id, hid, hissued⟩
  | ack items workerId fate =>
    simp only [Queue.exec, Queue.ack]
    split
    · exact .same
    · split
      · exact .same
      · next h =>
        split
        · exact .same
        · rcases rewrite_cases s fate _ with hs | hs <;> rw [hs]
          · exact .same
          · exact .ack (not_not.1 h)
  | complete c kept fate =>
    simp only [Queue.exec, Queue.complete]
    split
    · exact .same
    · split
      · next claim receipts hclaim hreceipts =>
        split
        · rcases rewrite_cases s fate _ with hs | hs <;> rw [hs]
          · exact .same
          · have := @Queue.Moved.complete s c kept fate _ [] hclaim (.inl rfl)
            rwa [List.append_nil] at this
        · cases kept with
          | some n => exact .receipt hclaim
          | none =>
            cases fate with
            | crashesBefore => exact .receipt hclaim
            | returns | crashesAfter => exact .complete hclaim (.inr rfl)
      · exact .same
  | nack items workerId errorType fate =>
    simp only [Queue.exec, Queue.nack]
    split
    · exact .same
    · split
      · next h =>
        rcases rewrite_cases s fate _ with hs | hs <;> rw [hs]
        · exact .same
        · exact .nack h.1
      · exact .same

/-! ## What a step keeps -/

theorem mem_completing {i : Identity} {workerId : String} {r : Record} (h : s.completing i workerId = some r) :
    r ∈ s.records.rows ∧ r.identity = i ∧ r.ownedBy workerId = true := by
  refine ⟨List.mem_of_find?_eq_some h, ?_⟩
  have hr := List.find?_some h
  rwa [Bool.and_eq_true, decide_eq_true_eq] at hr

/-- No record is at a claim that is not the current one. -/
theorem Queue.Stale.identity_ne {q t : String} (h : s.Stale q t) {r : Record} (hr : r ∈ s.records.rows) :
    r.identity ≠ (some q, some t) := by
  intro heq
  obtain ⟨hid, htoken⟩ := Prod.mk.inj heq
  obtain rfl := Option.some.inj hid
  exact h.2 r (Table.lookup_of_mem hr) htoken

theorem eq_of_queueId {r r' : Record} (hr : r ∈ s.records.rows) (hr' : r' ∈ s.records.rows)
    (h : r.queueId = r'.queueId) : r = r' :=
  Table.eq_of_key_eq hr hr' h

theorem stays_of_moved {step : QueueStep} (h : s.Moved step s') {r : Record} (hr : r ∈ s.records.rows) :
    (∃ r' ∈ s'.records.rows, r'.queueId = r.queueId ∧ r'.payload = r.payload) ∨ step.removes r := by
  cases h with
  | same => exact .inl ⟨r, hr, rfl, rfl⟩
  | append hfree => exact .inl ⟨r, Table.mem_insertOrIgnore.2 (.inl hr), rfl, rfl⟩
  | claim hfresh =>
    refine .inl ⟨_, Table.mem_updated.2 ⟨r, hr, rfl⟩, ?_⟩
    split <;> exact ⟨rfl, rfl⟩
  | @ack items workerId fate hall =>
    by_cases hmem : r.identity ∈ items
    · obtain ⟨r', hr', hidentity⟩ := List.mem_map.1 (hall _ hmem)
      obtain ⟨hr', howned⟩ := Table.mem_select.1 hr'
      obtain rfl : r' = r := eq_of_queueId hr' hr (Option.some.inj (Prod.mk.inj hidentity).1)
      exact .inr ⟨hmem, howned⟩
    · exact .inl ⟨r, Table.mem_delete.2 ⟨hr, by simp [hmem]⟩, rfl, rfl⟩
  | receipt hclaim => exact .inl ⟨r, hr, rfl, rfl⟩
  | @complete c kept fate claim text hclaim htext =>
    obtain ⟨hmem, hidentity, howned⟩ := mem_completing hclaim
    by_cases hid : r.queueId = claim.queueId
    · obtain rfl := eq_of_queueId hr hmem hid
      exact .inr ⟨hidentity, howned⟩
    · exact .inl ⟨r, Table.mem_delete.2 ⟨hr, by simp [hid]⟩, rfl, rfl⟩
  | nack hall =>
    refine .inl ⟨_, Table.mem_updated.2 ⟨r, hr, rfl⟩, ?_⟩
    split <;> exact ⟨rfl, rfl⟩

/-- An operation under an older claim does nothing. -/
theorem unchanged_of_stale {step : QueueStep} {q t : String} (h : s.Stale q t) (hnames : step.names (some q, some t)) :
    s.exec step = s := by
  have hnone : ∀ rows : List Record, rows ⊆ s.records.rows → (some q, some t) ∉ rows.map Record.identity := by
    intro rows hsub hmem
    obtain ⟨r, hr, hidentity⟩ := List.mem_map.1 hmem
    exact h.identity_ne (hsub hr) hidentity
  cases step with
  | append queueId payload fresh full fate => exact hnames.elim
  | claim workerId limit leaseSeconds now tokens fate => exact hnames.elim
  | ack items workerId fate =>
    have hmem : (some q, some t) ∈ items := hnames
    simp only [Queue.exec, Queue.ack]
    rw [if_neg (List.ne_nil_of_mem hmem), if_pos]
    exact fun hall => hnone _ (fun r hr => (Table.mem_select.1 hr).1) (hall _ hmem)
  | complete c kept fate =>
    have hitem : (some q, some t) = c.item := hnames
    have hcompleting : s.completing c.item c.workerId = none := by
      cases hclaim : s.completing c.item c.workerId with
      | none => rfl
      | some r =>
        obtain ⟨hr, hidentity, -⟩ := mem_completing hclaim
        exact absurd (hidentity.trans hitem.symm) (h.identity_ne hr)
    simp only [Queue.exec, Queue.complete, hcompleting]
    split <;> rfl
  | nack items workerId errorType fate =>
    have hmem : (some q, some t) ∈ items := hnames
    simp only [Queue.exec, Queue.nack]
    rw [if_neg (List.ne_nil_of_mem hmem), if_neg]
    exact fun hall => hnone _ (List.Subset.refl _) (hall.1 _ hmem)

/-- An older claim never becomes the current one again. -/
theorem stale_of_moved {step : QueueStep} (h : s.Moved step s') {q t : String} (hstale : s.Stale q t) : s'.Stale q t := by
  obtain ⟨hissued, hcurrent⟩ := hstale
  cases h with
  | same => exact ⟨hissued, hcurrent⟩
  | @append queueId payload fresh fate hfree =>
    refine ⟨hissued, fun r hr => ?_⟩
    rcases Table.mem_insertOrIgnore.1 (Table.lookup_mem hr) with hmem | ⟨rfl, -⟩
    · exact hcurrent r (Table.lookup_key hr ▸ Table.lookup_of_mem hmem)
    · simp [normalize]
  | @claim workerId limit leaseSeconds now tokens fate hfresh =>
    refine ⟨List.mem_append_right _ hissued, fun r hr => ?_⟩
    obtain ⟨r', hr', rfl⟩ := Table.mem_updated.1 (Table.lookup_mem hr)
    have hkey : r'.queueId = q := by
      have := Table.lookup_key hr
      split at this <;> exact this
    split
    · next hchosen =>
      intro htoken
      rw [decide_eq_true_eq] at hchosen
      have htoken : tokens r'.queueId = t := Option.some.inj htoken
      have hnot := hfresh r'.queueId hchosen
      rw [htoken, hkey] at hnot
      exact hnot hissued
    · exact hcurrent r' (hkey ▸ Table.lookup_of_mem hr')
  | ack hall =>
    refine ⟨hissued, fun r hr => hcurrent r ?_⟩
    exact Table.lookup_key hr ▸ Table.lookup_of_mem (Table.mem_delete.1 (Table.lookup_mem hr)).1
  | receipt hclaim => exact ⟨hissued, hcurrent⟩
  | complete hclaim htext =>
    refine ⟨hissued, fun r hr => hcurrent r ?_⟩
    exact Table.lookup_key hr ▸ Table.lookup_of_mem (Table.mem_delete.1 (Table.lookup_mem hr)).1
  | nack hall =>
    refine ⟨hissued, fun r hr => ?_⟩
    obtain ⟨r', hr', rfl⟩ := Table.mem_updated.1 (Table.lookup_mem hr)
    have hkey : r'.queueId = q := by
      have := Table.lookup_key hr
      split at this <;> exact this
    split
    · simp [Record.nack]
    · exact hcurrent r' (hkey ▸ Table.lookup_of_mem hr')

theorem keeps (s : Queue) (step : QueueStep) : s.Keeps step where
  appended := by
    rintro queueId payload fresh rfl hfree
    simp only [Queue.exec, Queue.append, Queue.rewrite]
    have hkey : s.records.hasKey (normalize queueId payload fresh).queueId = false := Table.hasKey_eq_false.2 hfree
    rw [if_neg (by simp [hkey])]
    show (s.records.insertOrIgnore (normalize queueId payload fresh)).lookup _ = _
    rw [Table.lookup_insertOrIgnore, hfree, Option.none_or]
    exact if_pos rfl
  stays r hr := stays_of_moved (exec_moved s step) hr
  unchanged q t hstale hnames := unchanged_of_stale hstale hnames
  stale q t hstale := stale_of_moved (exec_moved s step) hstale

/-! ## The invariant -/

/-- The receipts are whole lines, and no item has been handed out more often than its attempts say. -/
structure Queue.Whole (s : Queue) : Prop where
  receipts : ∃ os : List Json.Object, s.receipts = os.flatMap receiptLine
  attempts : ∀ q, s.handed q ≤ maxAttempts
  counted : ∀ r ∈ s.records.rows, s.handed r.queueId ≤ r.attemptCount

theorem whole_start (require : Bool) : (Queue.start require).Whole := ⟨⟨[], rfl⟩, fun _ => Nat.zero_le _, by simp [Queue.start]⟩

theorem lines_flatMap (os : List Json.Object) : Json.lines (os.flatMap receiptLine) = os.map Json.dumps := by
  induction os with
  | nil => rfl
  | cons o os ih =>
    rw [List.flatMap_cons, receiptLine, List.append_assoc, List.singleton_append,
      Json.lines_cons (Json.newline_not_mem_dumps o), ih]
    rfl

/-- Whole lines are read back. -/
theorem readCompletionReceipts_lines (os : List Json.Object) :
    readCompletionReceipts (os.flatMap receiptLine) = some os := by
  have hblank : ∀ o : Json.Object, (Json.dumps o).all Json.isBlank = false := fun o => rfl
  unfold readCompletionReceipts
  rw [lines_flatMap, List.filter_eq_self.2]
  · induction os with
    | nil => rfl
    | cons o os ih => rw [List.map_cons, List.mapM_cons, Json.loads_dumps, ih]; rfl
  · intro line hline
    obtain ⟨o, -, rfl⟩ := List.mem_map.1 hline
    rw [hblank]
    rfl

theorem receipts_append {os : List Json.Object} (h : s.receipts = os.flatMap receiptLine) (o : Json.Object) :
    ∃ os : List Json.Object, s.receipts ++ receiptLine o = os.flatMap receiptLine :=
  ⟨os ++ [o], by rw [h, List.flatMap_append, List.flatMap_singleton]⟩

theorem handedOut_le (fate : Fate) (ids : List String) (handed : String → Nat) (id : String) :
    handedOut fate ids handed id ≤ handed id + 1 := by
  unfold handedOut
  split
  · exact le_rfl
  · exact Nat.le_succ _

theorem handedOut_of_not_mem {fate : Fate} {ids : List String} {handed : String → Nat} {id : String} (h : id ∉ ids) :
    handedOut fate ids handed id = handed id :=
  if_neg fun hand => h hand.2

theorem whole_of_moved {step : QueueStep} (h : s.Whole) (hfit : s.Fit step) (hm : s.Moved step s') : s'.Whole := by
  obtain ⟨⟨os, hos⟩, hattempts, hcounted⟩ := h
  cases hm with
  | same => exact ⟨⟨os, hos⟩, hattempts, hcounted⟩
  | @append queueId payload fresh fate hfree =>
    refine ⟨⟨os, hos⟩, fun q => ?_, fun r hr => ?_⟩
    · dsimp only
      by_cases hq : q = queueId.getD fresh
      · subst hq
        rw [Function.update_self]
        exact Nat.zero_le _
      · rw [Function.update_of_ne hq]
        exact hattempts q
    · dsimp only
      rcases Table.mem_insertOrIgnore.1 hr with hmem | ⟨rfl, -⟩
      · rw [Function.update_of_ne]
        · exact hcounted r hmem
        · exact Table.lookup_eq_none.1 hfree r hmem
      · exact (Function.update_self ..).le
  | @claim workerId limit leaseSeconds now tokens fate hfresh =>
    have hfit : ∀ r ∈ s.chosen limit now, r.attemptCount < maxAttempts := hfit
    refine ⟨⟨os, hos⟩, fun q => ?_, fun r hr => ?_⟩
    · by_cases hq : q ∈ (s.chosen limit now).map (·.queueId)
      · obtain ⟨r, hr, rfl⟩ := List.mem_map.1 hq
        have hmem : r ∈ s.records.rows := (Table.mem_select.1 (List.mem_of_mem_take hr)).1
        calc handedOut fate _ s.handed r.queueId ≤ s.handed r.queueId + 1 := handedOut_le ..
          _ ≤ r.attemptCount + 1 := Nat.succ_le_succ (hcounted r hmem)
          _ ≤ maxAttempts := hfit r hr
      · exact (handedOut_of_not_mem hq).le.trans (hattempts q)
    · obtain ⟨r', hr', rfl⟩ := Table.mem_updated.1 hr
      have hle := hcounted r' hr'
      by_cases hchosen : r'.queueId ∈ (s.chosen limit now).map (·.queueId)
      · rw [if_pos (decide_eq_true hchosen)]
        exact (handedOut_le ..).trans (Nat.succ_le_succ hle)
      · rw [if_neg (by rw [decide_eq_true_eq]; exact hchosen)]
        exact (handedOut_of_not_mem hchosen).le.trans hle
  | ack hall => exact ⟨⟨os, hos⟩, hattempts, fun r hr => hcounted r (Table.mem_delete.1 hr).1⟩
  | @receipt c kept fate claim hclaim =>
    refine ⟨?_, hattempts, hcounted⟩
    cases kept with
    | none => exact receipts_append hos _
    | some n =>
      have hfit : n = 0 ∨ (s.completing c.item c.workerId).all (fun r => (c.line r).length ≤ n) = true := hfit
      rcases hfit with rfl | hlen
      · exact ⟨os, by simp [hos]⟩
      · rw [hclaim, Option.all_some, decide_eq_true_eq] at hlen
        rw [Option.elim_some, List.take_of_length_le hlen]
        exact receipts_append hos _
  | @complete c kept fate claim text hclaim htext =>
    refine ⟨?_, hattempts, fun r hr => hcounted r (Table.mem_delete.1 hr).1⟩
    rcases htext with rfl | rfl
    · exact ⟨os, by rw [List.append_nil, hos]⟩
    · exact receipts_append hos _
  | nack hall =>
    refine ⟨⟨os, hos⟩, hattempts, fun r hr => ?_⟩
    obtain ⟨r', hr', rfl⟩ := Table.mem_updated.1 hr
    split <;> exact hcounted r' hr'

theorem Queue.Whole.sound (h : s.Whole) : s.Sound := by
  obtain ⟨⟨os, hos⟩, hattempts, -⟩ := h
  have hread : readCompletionReceipts s.receipts = some os := by rw [hos, readCompletionReceipts_lines]
  refine ⟨by rw [hread]; rfl, fun r hr c hitem howned hverified => ?_, hattempts⟩
  obtain ⟨claim, hclaim⟩ : ∃ claim, s.completing c.item c.workerId = some claim := by
    refine Option.isSome_iff_exists.1 (List.find?_isSome.2 ⟨r, hr, ?_⟩)
    rw [hitem, howned, decide_eq_true rfl, Bool.and_self]
  obtain ⟨hmem, hidentity, -⟩ := mem_completing hclaim
  have hid : claim.queueId = r.queueId := Option.some.inj (Prod.mk.inj (hidentity.trans hitem)).1
  have hgone : (s.records.delete fun r => decide (r.queueId = claim.queueId)).lookup r.queueId = none := by
    refine Table.lookup_eq_none.2 fun x hx hkey => ?_
    obtain ⟨-, hne⟩ := Table.mem_delete.1 hx
    exact of_decide_eq_false hne (Eq.trans hkey hid.symm)
  unfold Queue.complete
  rw [hverified, hclaim, hread]
  simp only [Bool.not_true, Bool.false_eq_true, if_false]
  split <;> exact hgone

/-! ## Runs -/

/-- Over every interleaving of operations and crashes in which each step is fit: between the steps the
receipts can be read, completions work and no item was handed out more than four times; and each step
keeps what no step may lose. -/
theorem queue_sound (requireCompletionReceipt : Bool) (steps : List QueueStep)
    (h : Along Queue.exec Queue.Fit (.start requireCompletionReceipt) steps) :
    Throughout Queue.exec Queue.Sound (.start requireCompletionReceipt) steps ∧
      Along Queue.exec Queue.Keeps (.start requireCompletionReceipt) steps := by
  have hstep : ∀ s step, Queue.Whole s → s.Fit step → (s.exec step).Whole :=
    fun s step hs hfit => whole_of_moved hs hfit (exec_moved s step)
  exact ⟨throughout_of_invariant hstep (fun _ hs => hs.sound) (whole_start _) h,
    along_of_invariant hstep (fun s step _ _ => keeps s step) (whole_start _) h⟩

/-- The item of the runs below and the completion of its first claim. -/
def firstPayload : Payload := ⟨some "cmb", some "agent", none, none, none, none⟩

def firstCompletion : Completion := ⟨(some "q", some "t"), "worker", "SUCCEEDED", true, "receipt", .ofNat 1⟩

/-- The item is appended, claimed and completed, and the completion crashes once its receipt is written. -/
theorem queue_sound_completion :
    Throughout Queue.exec Queue.Sound (.start true)
      [.append none firstPayload "q" false .returns, .claim "worker" 10 300 0 (fun _ => "t") .returns,
        .complete firstCompletion none .crashesBefore, .ack [(some "q", some "t")] "worker" .returns] ∧
    Along Queue.exec Queue.Keeps (.start true)
      [.append none firstPayload "q" false .returns, .claim "worker" 10 300 0 (fun _ => "t") .returns,
        .complete firstCompletion none .crashesBefore, .ack [(some "q", some "t")] "worker" .returns] :=
  queue_sound true _ (by decide +kernel)

/-- A crash cuts the line of the receipt after seven characters. -/
def tornReceipt : Queue :=
  run Queue.exec (.start true)
    [.append none firstPayload "q" false .returns, .claim "worker" 10 300 0 (fun _ => "t") .returns,
      .complete firstCompletion (some 7) .crashesBefore]

/-- The lease of the item expires again and again. -/
def expiredLeases : Queue :=
  run Queue.exec (.start true)
    [.append none firstPayload "q" false .returns, .claim "worker" 10 300 0 (fun _ => "t1") .returns,
      .claim "worker" 10 300 300 (fun _ => "t2") .returns, .claim "worker" 10 300 600 (fun _ => "t3") .returns,
      .claim "worker" 10 300 900 (fun _ => "t4") .returns, .claim "worker" 10 300 1200 (fun _ => "t5") .returns]

/-- The torn receipts cannot be read any more, and a completion under the current claim leaves its item
where it is; the item whose lease expires is handed out a fifth time. -/
theorem queue_unsound :
    (¬ tornReceipt.Sound ∧ readCompletionReceipts tornReceipt.receipts = none ∧
      ((tornReceipt.complete firstCompletion none .returns).records.lookup "q").isSome = true) ∧
    ¬ expiredLeases.Sound ∧ expiredLeases.handed "q" = 5 := by
  refine ⟨⟨fun h => ?_, by decide +kernel, by decide +kernel⟩, fun h => ?_, by decide +kernel⟩
  · have hread := h.readable
    revert hread
    decide +kernel
  · have hattempts := h.attempts "q"
    revert hattempts
    decide +kernel

end Mesa.Consolidation
