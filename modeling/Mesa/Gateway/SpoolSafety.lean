/-
What becomes of the writes that the bridge has put into its spool. Over any interleaving of calls, drains, gateway
errors and restarts a write stays in the spool until the gateway has accepted it, as long as a key stands for one
write, two drains do not send the same row and no row has failed too often.
-/
import Mesa.Gateway.Spool

namespace Mesa.Gateway

open Mesa.Foundation

/-! ## The property -/

/-- The request is the write's own one, or one of the row that it was put into. -/
def BridgeRequest.Of (r : BridgeRequest) (q : QueuedWrite) : Prop :=
  r.sender = .call q.call ∨ r.sender = .spool q.operationId

structure Bridge.Sound (b : Bridge) : Prop where
  /-- A write that was answered with `QUEUED_OFFLINE` is in the spool as it was made, or has been accepted so. -/
  kept : ∀ q ∈ b.queued, (∃ r ∈ b.spool.rows, r.operationId = q.operationId ∧ r.status = .queued ∧ r.write = q.write) ∨
    q.write ∈ b.accepted
  oneKey : ∀ q ∈ b.queued, ∀ r ∈ b.requests, ∀ r' ∈ b.requests, r.Of q → r'.Of q →
    r.write.arguments.idempotencyKey = r'.write.arguments.idempotencyKey
  once : ∀ r ∈ b.requests, r.late = false
  unharmed : ∀ a ∈ b.answers, a.2 ≠ .internalError

/-! ## The condition -/

/-- The spooled writes that a task has still to send. -/
def BridgePhase.unsent : BridgePhase → List PendingWrite
  | .draining p rest false => p :: rest
  | .draining _ rest true => rest
  | .calling _ => []

/-- The write is given its key without spaces around it, and a row that has the key holds the same write. -/
def Bridge.Takes (b : Bridge) (w : BridgeCall) : Prop :=
  ∀ key, requiredIdempotencyKey w.arguments = some key →
    w.arguments.idempotencyKey = some (.text key) ∧ ∀ r ∈ b.spool.rows, r.idempotencyKey = key → r.write = w

instance Bridge.Takes.decidable (b : Bridge) (w : BridgeCall) : Decidable (b.Takes w) :=
  match h : requiredIdempotencyKey w.arguments with
  | none => .isTrue fun key hkey => by rw [h] at hkey; cases hkey
  | some key =>
    decidable_of_iff (w.arguments.idempotencyKey = some (.text key) ∧
        ∀ r ∈ b.spool.rows, r.idempotencyKey = key → r.write = w)
      ⟨fun hkey key' hsome => by rw [h] at hsome; cases hsome; exact hkey, fun hall => hall key h⟩

/-- What a step must not run into: the completion of a row that another task has still to send, an error of a row that
has failed too often, and a write whose key the spool has for another one. -/
def Bridge.Fits (b : Bridge) : BridgeStep → Prop
  | .receive c .success _ _ =>
    match b.tasks.lookup c with
    | some ⟨_, _, .draining p _ true⟩ =>
      ∀ t ∈ b.tasks.rows, t.call ≠ c → ∀ x ∈ t.phase.unsent, x.operationId ≠ p.operationId
    | _ => True
  | .receive c (.error true) _ _ =>
    match b.tasks.lookup c with
    | some ⟨_, _, .draining p _ _⟩ => p.attempts < attemptLimit
    | some ⟨_, w, .calling _⟩ => w.tool.spools = true → b.Takes w
    | none => True
  | _ => True

instance Bridge.Fits.decidable (b : Bridge) : ∀ step, Decidable (b.Fits step)
  | .receive c .success _ _ => by
    unfold Bridge.Fits
    dsimp only
    split <;> infer_instance
  | .receive c (.error true) _ _ => by
    unfold Bridge.Fits
    dsimp only
    split <;> infer_instance
  | .receive _ (.error false) _ _ | .call _ _ | .send _ | .cancel _ | .restart => inferInstanceAs (Decidable True)

/-! ## The invariant -/

/-- A row as a task has read it. -/
def EncryptedWriteSpool.Holds (spool : EncryptedWriteSpool) (p : PendingWrite) : Prop :=
  ∃ r ∈ spool.rows, r.operationId = p.operationId ∧ r.idempotencyKey = p.idempotencyKey ∧ r.write = p.write

/-- The row is not completed. -/
def EncryptedWriteSpool.Waits (spool : EncryptedWriteSpool) (p : PendingWrite) : Prop :=
  ∀ r ∈ spool.rows, r.operationId = p.operationId → r.status = .queued

/-- The spooled writes of a task that have no outcome yet. -/
def BridgePhase.items : BridgePhase → List PendingWrite
  | .draining p rest _ => p :: rest
  | .calling _ => []

/-- Different rows that are there and, as far as they are still to be sent, not completed. -/
structure EncryptedWriteSpool.Fine (spool : EncryptedWriteSpool) (phase : BridgePhase) : Prop where
  nodup : (phase.items.map PendingWrite.operationId).Nodup
  holds : ∀ p ∈ phase.items, spool.Holds p
  waits : ∀ p ∈ phase.unsent, spool.Waits p

structure Bridge.Inv (b : Bridge) : Prop where
  drawn : ∀ r ∈ b.spool.rows, r.operationId < b.drawn
  distinct : ∀ r ∈ b.spool.rows, ∀ r' ∈ b.spool.rows, r.operationId = r'.operationId → r = r'
  keyed : ∀ r ∈ b.spool.rows, r.write.arguments.idempotencyKey = some (.text r.idempotencyKey)
  accepted : ∀ r ∈ b.spool.rows, r.status = .completed → r.write ∈ b.accepted
  tasks : ∀ t ∈ b.tasks.rows, b.calls[t.call]? = some t.write ∧ b.spool.Fine t.phase
  queued : ∀ q ∈ b.queued, b.calls[q.call]? = some q.write ∧
    ∃ r ∈ b.spool.rows, r.operationId = q.operationId ∧ r.write = q.write
  calls : ∀ r ∈ b.requests, ∀ c, r.sender = .call c → b.calls[c]? = some r.write
  spooled : ∀ r ∈ b.requests, ∀ o, r.sender = .spool o → ∃ row ∈ b.spool.rows, row.operationId = o ∧ row.write = r.write
  once : ∀ r ∈ b.requests, r.late = false
  unharmed : ∀ a ∈ b.answers, a.2 ≠ .internalError

variable {b : Bridge} {c : Nat} {w : BridgeCall}

theorem Bridge.Inv.start : Bridge.start.Inv where
  drawn _ h := by cases h
  distinct _ h := by cases h
  keyed _ h := by cases h
  accepted _ h := by cases h
  tasks _ h := by cases h
  queued _ h := by cases h
  calls _ h := by cases h
  spooled _ h := by cases h
  once _ h := by cases h
  unharmed _ h := by cases h

/-- All requests that belong to a write are that write. -/
theorem Bridge.Inv.write_of (h : b.Inv) {q : QueuedWrite} (hq : q ∈ b.queued) {r : BridgeRequest} (hr : r ∈ b.requests)
    (hof : r.Of q) : r.write = q.write := by
  obtain ⟨hcall, row, hrow, hop, hwrite⟩ := h.queued q hq
  rcases hof with hof | hof
  · exact Option.some.inj ((h.calls r hr _ hof).symm.trans hcall)
  · obtain ⟨row', hrow', hop', hwrite'⟩ := h.spooled r hr _ hof
    rw [← hwrite', ← hwrite, h.distinct row' hrow' row hrow (hop'.trans hop.symm)]

theorem Bridge.Inv.sound (h : b.Inv) : b.Sound where
  kept q hq := by
    obtain ⟨-, r, hr, hop, hwrite⟩ := h.queued q hq
    cases hstatus : r.status with
    | queued => exact .inl ⟨r, hr, hop, hstatus, hwrite⟩
    | completed => exact .inr (hwrite ▸ h.accepted r hr hstatus)
  oneKey q hq r hr r' hr' hof hof' := by rw [h.write_of hq hr hof, h.write_of hq hr' hof']
  once := h.once
  unharmed := h.unharmed

/-! ## Tasks -/

/-- Tasks that go on as they may. -/
theorem Bridge.Inv.withTasks (h : b.Inv) {tasks : Table BridgeTask}
    (htasks : ∀ t ∈ tasks.rows, t ∈ b.tasks.rows ∨ b.calls[t.call]? = some t.write ∧ b.spool.Fine t.phase) :
    Bridge.Inv { b with tasks } :=
  { h with tasks := fun t ht => (htasks t ht).elim (h.tasks t) id }

theorem Bridge.Inv.finish (h : b.Inv) {answer : BridgeAnswer} (hanswer : answer ≠ .internalError) :
    (b.finish c answer).Inv := by
  have htasks : Bridge.Inv { b with tasks := b.tasks.delete fun t => t.call = c } :=
    h.withTasks fun t ht => .inl (Table.mem_delete.1 ht).1
  refine { htasks with unharmed := fun a ha => ?_ }
  rcases List.mem_cons.1 ha with rfl | ha
  · exact hanswer
  · exact h.unharmed a ha

theorem Bridge.Inv.goTo (h : b.Inv) {phase : BridgePhase} (hcall : b.calls[c]? = some w) (hfine : b.spool.Fine phase) :
    (b.goTo c w phase).Inv := by
  refine h.withTasks fun t ht => ?_
  rcases Table.mem_insertOrIgnore.1 ht with ht | ⟨rfl, -⟩
  · exact .inl (Table.mem_delete.1 ht).1
  · exact .inr ⟨hcall, hfine⟩

theorem fine_calling {spool : EncryptedWriteSpool} {sent : Bool} : spool.Fine (.calling sent) where
  nodup := List.nodup_nil
  holds _ h := by cases h
  waits _ h := by cases h

theorem Bridge.Inv.serve (h : b.Inv) (hcall : b.calls[c]? = some w) : (b.serve c w).Inv := by
  unfold Bridge.serve
  split
  · exact h.finish (by decide)
  · exact h.finish (by decide)
  · exact h.goTo hcall fine_calling
  · exact h.goTo hcall fine_calling
  all_goals
    split
    · exact h.goTo hcall fine_calling
    · exact h.finish (by decide)

theorem Bridge.Inv.drain (h : b.Inv) (hcall : b.calls[c]? = some w) {rest : List PendingWrite}
    (hnodup : (rest.map PendingWrite.operationId).Nodup) (hholds : ∀ p ∈ rest, b.spool.Holds p)
    (hwaits : ∀ p ∈ rest, b.spool.Waits p) : (b.drain c w rest).Inv := by
  cases rest with
  | nil => exact h.serve hcall
  | cons p rest => exact h.goTo hcall ⟨hnodup, hholds, hwaits⟩

/-! ## The spool -/

theorem mem_pending {spool : EncryptedWriteSpool} {now : ℚ} {p : PendingWrite} (h : p ∈ spool.pending now) :
    ∃ r ∈ spool.rows, r.status = .queued ∧ r.pending = p := by
  obtain ⟨r, hr, hp⟩ := List.mem_map.1 h
  obtain ⟨hrow, hdue⟩ := Table.mem_select.1 (List.mem_mergeSort.1 hr)
  exact ⟨r, hrow, (decide_eq_true_iff.1 hdue).1, hp⟩

/-- What a call finds in the spool. -/
theorem Bridge.Inv.pending (h : b.Inv) (now : ℚ) : ((b.spool.pending now).map PendingWrite.operationId).Nodup ∧
    (∀ p ∈ b.spool.pending now, b.spool.Holds p) ∧ ∀ p ∈ b.spool.pending now, b.spool.Waits p := by
  refine ⟨?_, fun p hp => ?_, fun p hp r hr hop => ?_⟩
  · unfold EncryptedWriteSpool.pending
    rw [List.map_map]
    refine List.Nodup.map_on (fun r hr r' hr' hop => ?_) ?_
    · exact h.distinct r (Table.mem_select.1 (List.mem_mergeSort.1 hr)).1 r'
        (Table.mem_select.1 (List.mem_mergeSort.1 hr')).1 hop
    · exact (List.mergeSort_perm _ _).nodup_iff.2 ((List.Nodup.of_map _ b.spool.unique).filter _)
  · obtain ⟨r, hr, -, rfl⟩ := mem_pending hp
    exact ⟨r, hr, rfl, rfl, rfl⟩
  · obtain ⟨r', hr', hstatus, rfl⟩ := mem_pending hp
    rw [h.distinct r hr r' hr' hop]
    exact hstatus

/-- Assignments to the columns that no write is made of. -/
structure SpoolRow.Same (r r' : SpoolRow) : Prop where
  operationId : r'.operationId = r.operationId
  idempotencyKey : r'.idempotencyKey = r.idempotencyKey
  write : r'.write = r.write

/-- The spool after an update of such columns, which may complete rows whose writes are accepted. -/
theorem Bridge.Inv.withSpool (h : b.Inv) {spool : EncryptedWriteSpool} (accepted : List BridgeCall)
    (f : SpoolRow → SpoolRow) (hrows : spool.rows = b.spool.rows.map f) (hsame : ∀ r : SpoolRow, r.Same (f r))
    (hdone : ∀ r ∈ b.spool.rows, (f r).status = .completed → r.write ∈ accepted)
    (hwaits : ∀ t ∈ b.tasks.rows, ∀ p ∈ t.phase.unsent, spool.Waits p) : Bridge.Inv { b with spool, accepted } := by
  have hmem : ∀ {r'}, r' ∈ spool.rows → ∃ r ∈ b.spool.rows, r' = f r := by
    intro r' hr'
    rw [hrows] at hr'
    obtain ⟨r, hr, rfl⟩ := List.mem_map.1 hr'
    exact ⟨r, hr, rfl⟩
  have hkept : ∀ {r}, r ∈ b.spool.rows → f r ∈ spool.rows := fun hr => hrows ▸ List.mem_map_of_mem hr
  have hrow : ∀ {o w}, (∃ r ∈ b.spool.rows, r.operationId = o ∧ r.write = w) →
      ∃ r ∈ spool.rows, r.operationId = o ∧ r.write = w := by
    rintro o w ⟨r, hr, hop, hwrite⟩
    exact ⟨f r, hkept hr, (hsame r).operationId.trans hop, (hsame r).write.trans hwrite⟩
  refine ⟨fun r' hr' => ?_, fun r₁ h₁ r₂ h₂ hop => ?_, fun r' hr' => ?_, fun r' hr' hstatus => ?_, fun t ht => ?_,
    fun q hq => ⟨(h.queued q hq).1, hrow (h.queued q hq).2⟩, h.calls, fun r hr o ho => hrow (h.spooled r hr o ho), h.once,
    h.unharmed⟩
  · obtain ⟨r, hr, rfl⟩ := hmem hr'
    exact (hsame r).operationId ▸ h.drawn r hr
  · obtain ⟨x, hx, rfl⟩ := hmem h₁
    obtain ⟨y, hy, rfl⟩ := hmem h₂
    rw [h.distinct x hx y hy (by rw [← (hsame x).operationId, hop, (hsame y).operationId])]
  · obtain ⟨r, hr, rfl⟩ := hmem hr'
    rw [(hsame r).write, (hsame r).idempotencyKey, h.keyed r hr]
  · obtain ⟨r, hr, rfl⟩ := hmem hr'
    rw [(hsame r).write]
    exact hdone r hr hstatus
  · obtain ⟨hcall, hfine⟩ := h.tasks t ht
    refine ⟨hcall, hfine.nodup, fun p hp => ?_, hwaits t ht⟩
    obtain ⟨r, hr, hop, hkey, hwrite⟩ := hfine.holds p hp
    exact ⟨f r, hkept hr, (hsame r).operationId.trans hop, (hsame r).idempotencyKey.trans hkey,
      (hsame r).write.trans hwrite⟩

/-- A row with a key that the spool does not have. -/
theorem Bridge.Inv.insert (h : b.Inv) {row : SpoolRow} {spool : EncryptedWriteSpool}
    (hrows : spool.rows = b.spool.rows ++ [row]) (hop : row.operationId = b.drawn)
    (hkey : row.write.arguments.idempotencyKey = some (.text row.idempotencyKey)) (hstatus : row.status = .queued) :
    Bridge.Inv { b with spool, drawn := b.drawn + 1 } := by
  have hmem : ∀ {r}, r ∈ spool.rows ↔ r ∈ b.spool.rows ∨ r = row := by
    intro r
    rw [hrows, List.mem_append, List.mem_singleton]
  have hnew : ∀ {r}, r ∈ b.spool.rows → r.operationId ≠ row.operationId := by
    intro r hr
    have := h.drawn r hr
    omega
  have hrow : ∀ {o w}, (∃ r ∈ b.spool.rows, r.operationId = o ∧ r.write = w) →
      ∃ r ∈ spool.rows, r.operationId = o ∧ r.write = w := by
    rintro o w ⟨r, hr, hrest⟩
    exact ⟨r, hmem.2 (.inl hr), hrest⟩
  refine ⟨fun r hr => ?_, fun r₁ h₁ r₂ h₂ hsame => ?_, fun r hr => ?_, fun r hr hdone => ?_, fun t ht => ?_,
    fun q hq => ⟨(h.queued q hq).1, hrow (h.queued q hq).2⟩, h.calls, fun r hr o ho => hrow (h.spooled r hr o ho), h.once,
    h.unharmed⟩
  · rcases hmem.1 hr with hr | rfl
    · exact Nat.lt_succ_of_lt (h.drawn r hr)
    · exact hop ▸ Nat.lt_succ_self _
  · rcases hmem.1 h₁ with h₁ | rfl <;> rcases hmem.1 h₂ with h₂ | rfl
    · exact h.distinct r₁ h₁ r₂ h₂ hsame
    · exact absurd hsame (hnew h₁)
    · exact absurd hsame.symm (hnew h₂)
    · rfl
  · rcases hmem.1 hr with hr | rfl
    · exact h.keyed r hr
    · exact hkey
  · rcases hmem.1 hr with hr | rfl
    · exact h.accepted r hr hdone
    · cases hstatus.symm.trans hdone
  · obtain ⟨hcall, hfine⟩ := h.tasks t ht
    refine ⟨hcall, hfine.nodup, fun p hp => ?_, fun p hp r hr hsame => ?_⟩
    · obtain ⟨r, hr, hrest⟩ := hfine.holds p hp
      exact ⟨r, hmem.2 (.inl hr), hrest⟩
    · rcases hmem.1 hr with hr | rfl
      · exact hfine.waits p hp r hr hsame
      · exact hstatus

/-! ## Steps -/

theorem Bridge.Inv.call (h : b.Inv) (w : BridgeCall) (now : ℚ) : (b.call w now).Inv := by
  have hcalls : ∀ {c : Nat} {w' : BridgeCall}, b.calls[c]? = some w' → (b.calls ++ [w])[c]? = some w' := by
    intro c w' hc
    rw [List.getElem?_append_left (List.getElem?_eq_some_iff.1 hc).1, hc]
  have hrecorded : Bridge.Inv { b with calls := b.calls ++ [w] } :=
    { h with
      tasks := fun t ht => ⟨hcalls (h.tasks t ht).1, (h.tasks t ht).2⟩
      queued := fun q hq => ⟨hcalls (h.queued q hq).1, (h.queued q hq).2⟩
      calls := fun r hr c hc => hcalls (h.calls r hr c hc) }
  unfold Bridge.call
  dsimp only
  split
  · exact hrecorded.finish (by decide)
  · obtain ⟨hnodup, hholds, hwaits⟩ := h.pending now
    exact hrecorded.drain List.getElem?_concat_length hnodup hholds hwaits

/-- A request that is recorded. -/
theorem Bridge.Inv.record (h : b.Inv) {r : BridgeRequest} (hcall : ∀ c, r.sender = .call c → b.calls[c]? = some r.write)
    (hspool : ∀ o, r.sender = .spool o → ∃ row ∈ b.spool.rows, row.operationId = o ∧ row.write = r.write)
    (honce : r.late = false) : Bridge.Inv { b with requests := r :: b.requests } := by
  refine { h with calls := fun x hx => ?_, spooled := fun x hx => ?_, once := fun x hx => ?_ }
  all_goals rcases List.mem_cons.1 hx with rfl | hx
  · exact hcall
  · exact h.calls x hx
  · exact hspool
  · exact h.spooled x hx
  · exact honce
  · exact h.once x hx

theorem withKey_of_keyed {w : BridgeCall} {key : String} (h : w.arguments.idempotencyKey = some (.text key)) :
    w.withKey key = w := by
  unfold BridgeCall.withKey
  rw [← h]

/-- A spooled write is sent as it was made. -/
theorem Bridge.Inv.withKey (h : b.Inv) {p : PendingWrite} (hp : b.spool.Holds p) :
    p.write.withKey p.idempotencyKey = p.write := by
  obtain ⟨r, hr, -, hkey, hwrite⟩ := hp
  refine withKey_of_keyed ?_
  rw [← hwrite, ← hkey]
  exact h.keyed r hr

theorem completed_eq_false {p : PendingWrite} (h : b.spool.Waits p) : b.completed p.operationId = false := by
  unfold Bridge.completed
  refine Table.anyWhere_eq_false.2 fun r hr => decide_eq_false ?_
  rintro ⟨hop, hstatus⟩
  cases (h r hr hop).symm.trans hstatus

theorem Bridge.Inv.send (h : b.Inv) (c : Nat) : (b.send c).Inv := by
  unfold Bridge.send
  split
  · next c' w p rest hlookup =>
    obtain rfl : c' = c := Table.lookup_key hlookup
    obtain ⟨hcall, hfine⟩ := h.tasks _ (Table.lookup_mem hlookup)
    have hholds := hfine.holds p List.mem_cons_self
    obtain ⟨row, hrow, hop, hkey, hwrite⟩ := hholds
    refine Bridge.Inv.goTo (h.record ?_ ?_ ?_) hcall ⟨hfine.nodup, hfine.holds, fun x hx => ?_⟩
    · rintro _ ⟨⟩
    · rintro _ ⟨⟩
      exact ⟨row, hrow, hop, hwrite.trans (h.withKey ⟨row, hrow, hop, hkey, hwrite⟩).symm⟩
    · exact completed_eq_false (hfine.waits p List.mem_cons_self)
    · exact hfine.waits x (List.mem_cons_of_mem _ hx)
  · next c' w hlookup =>
    obtain rfl : c' = c := Table.lookup_key hlookup
    obtain ⟨hcall, -⟩ := h.tasks _ (Table.lookup_mem hlookup)
    refine Bridge.Inv.goTo (h.record ?_ ?_ rfl) hcall fine_calling
    · rintro _ ⟨⟩
      exact hcall
    · rintro _ ⟨⟩
  · exact h

/-- What is left of a drain after its first row. -/
theorem fine_rest {spool : EncryptedWriteSpool} {p : PendingWrite} {rest : List PendingWrite} {sent : Bool}
    (h : spool.Fine (.draining p rest sent)) :
    (rest.map PendingWrite.operationId).Nodup ∧ (∀ x ∈ rest, spool.Holds x) ∧ (∀ x ∈ rest, spool.Waits x) ∧
      ∀ x ∈ rest, x.operationId ≠ p.operationId := by
  have hnodup : p.operationId ∉ rest.map PendingWrite.operationId ∧ (rest.map PendingWrite.operationId).Nodup :=
    List.nodup_cons.1 h.nodup
  refine ⟨hnodup.2, fun x hx => h.holds x (List.mem_cons_of_mem _ hx), fun x hx => h.waits x ?_, fun x hx hop => ?_⟩
  · cases sent with
    | false => exact List.mem_cons_of_mem _ hx
    | true => exact hx
  · exact hnodup.1 (hop ▸ List.mem_map_of_mem hx)

theorem Bridge.Inv.drainRest (h : b.Inv) {p : PendingWrite} {rest : List PendingWrite} {sent : Bool}
    (htask : ⟨c, w, .draining p rest sent⟩ ∈ b.tasks.rows) : (b.drain c w rest).Inv := by
  obtain ⟨hcall, hfine⟩ := h.tasks _ htask
  obtain ⟨hnodup, hholds, hwaits, -⟩ := fine_rest hfine
  exact h.drain hcall hnodup hholds hwaits

/-- The row of a write that a task has sent is completed. -/
theorem Bridge.Inv.complete (h : b.Inv) {p : PendingWrite} {rest : List PendingWrite}
    (htask : ⟨c, w, .draining p rest true⟩ ∈ b.tasks.rows)
    (hfits : ∀ t ∈ b.tasks.rows, t.call ≠ c → ∀ x ∈ t.phase.unsent, x.operationId ≠ p.operationId) :
    Bridge.Inv { b with
      spool := b.spool.complete p.operationId
      accepted := p.write.withKey p.idempotencyKey :: b.accepted } := by
  obtain ⟨-, hfine⟩ := h.tasks _ htask
  have hholds := hfine.holds p List.mem_cons_self
  have hwithKey := h.withKey hholds
  obtain ⟨row, hrow, hop, -, hwrite⟩ := hholds
  refine h.withSpool _ _ rfl (fun r => ?_) (fun r hr hstatus => ?_) fun t ht x hx r' hr' hsame => ?_
  · dsimp only
    split <;> exact ⟨rfl, rfl, rfl⟩
  · by_cases hr' : r.operationId = p.operationId
    · rw [h.distinct r hr row hrow (hr'.trans hop.symm), hwrite, hwithKey]
      exact List.mem_cons_self
    · rw [if_neg (by rw [decide_eq_true_iff]; exact hr')] at hstatus
      exact List.mem_cons_of_mem _ (h.accepted r hr hstatus)
  · obtain ⟨r, hr, rfl⟩ := Table.mem_update.1 hr'
    by_cases hdone : r.operationId = p.operationId
    · rw [if_pos (decide_eq_true hdone)] at hsame
      have hx' : x.operationId = p.operationId := hsame.symm.trans hdone
      by_cases hc : t.call = c
      · obtain rfl : t = ⟨c, w, .draining p rest true⟩ := Table.eq_of_key_eq ht htask hc
        exact absurd hx' ((fine_rest hfine).2.2.2 x hx)
      · exact absurd hx' (hfits t ht hc x hx)
    · rw [if_neg (by rw [decide_eq_true_iff]; exact hdone)] at hsame ⊢
      exact (h.tasks t ht).2.waits x hx r hr hsame

theorem Bridge.Inv.postpone (h : b.Inv) (operationId attempts : Nat) (at' : ℚ) :
    Bridge.Inv { b with spool := b.spool.postpone operationId attempts at' } := by
  have hstatus : ∀ r : SpoolRow, (if decide (r.operationId = operationId) = true then
      { r with attemptCount := attempts + 1, nextAttemptAt := at' } else r).status = r.status := by
    intro r
    split <;> rfl
  refine h.withSpool b.accepted _ rfl (fun r => ?_) (fun r hr hdone => ?_) fun t ht x hx r' hr' hsame => ?_
  · dsimp only
    split <;> exact ⟨rfl, rfl, rfl⟩
  · exact h.accepted r hr ((hstatus r).symm.trans hdone)
  · obtain ⟨r, hr, rfl⟩ := Table.mem_update.1 hr'
    rw [hstatus r]
    refine (h.tasks t ht).2.waits x hx r hr ?_
    rw [← hsame]
    split <;> rfl

/-- A write that the gateway cannot take now. -/
theorem Bridge.Inv.enqueue (h : b.Inv) {key : String} (now : ℚ) (hcall : b.calls[c]? = some w)
    (hkey : w.arguments.idempotencyKey = some (.text key)) (hsame : ∀ r ∈ b.spool.rows, r.idempotencyKey = key → r.write = w) :
    Bridge.Inv { b with
      spool := (b.spool.enqueue b.drawn key w now).1
      drawn := b.drawn + 1
      queued := ⟨c, w, (b.spool.enqueue b.drawn key w now).2⟩ :: b.queued } := by
  have hqueue : ∀ {b' : Bridge} (_ : b'.Inv) {o : Nat}, b'.calls[c]? = some w →
      (∃ r ∈ b'.spool.rows, r.operationId = o ∧ r.write = w) → Bridge.Inv { b' with queued := ⟨c, w, o⟩ :: b'.queued } := by
    intro b' h' o hcall' hrow
    refine { h' with queued := fun q hq => ?_ }
    rcases List.mem_cons.1 hq with rfl | hq
    · exact ⟨hcall', hrow⟩
    · exact h'.queued q hq
  unfold EncryptedWriteSpool.enqueue
  cases hlookup : b.spool.lookup key with
  | none =>
    have hrows : (b.spool.insertOrIgnore ⟨b.drawn, key, w, .queued, 0, 0, now⟩).rows =
        b.spool.rows ++ [⟨b.drawn, key, w, .queued, 0, 0, now⟩] := Table.rows_insertOrIgnore_fresh hlookup
    refine hqueue (h.insert hrows rfl hkey rfl) hcall ⟨⟨b.drawn, key, w, .queued, 0, 0, now⟩, ?_, rfl, rfl⟩
    show _ ∈ (b.spool.insertOrIgnore ⟨b.drawn, key, w, .queued, 0, 0, now⟩).rows
    rw [hrows]
    exact List.mem_append_right _ List.mem_cons_self
  | some r =>
    have hr := Table.lookup_mem hlookup
    have hrkey : r.idempotencyKey = key := Table.lookup_key hlookup
    have hkept : b.spool.insertOrIgnore ⟨b.drawn, key, w, .queued, 0, 0, now⟩ = b.spool :=
      Table.insertOrIgnore_of_hasKey (Table.hasKey_iff.2 (Option.isSome_iff_exists.2 ⟨r, hlookup⟩))
    rw [hkept]
    have hdrawn : Bridge.Inv { b with drawn := b.drawn + 1 } :=
      { h with drawn := fun r hr => Nat.lt_succ_of_lt (h.drawn r hr) }
    exact hqueue hdrawn hcall ⟨r, hr, rfl, hsame r hr hrkey⟩

theorem Bridge.Inv.called (h : b.Inv) (hcall : b.calls[c]? = some w) {outcome : GatewayOutcome} (now : ℚ)
    (hfits : outcome = .error true → w.tool.spools = true → b.Takes w) : (b.called c w outcome now).Inv := by
  unfold Bridge.called
  cases outcome with
  | success =>
    have haccepted : Bridge.Inv { b with accepted := w :: b.accepted } :=
      { h with accepted := fun r hr hstatus => List.mem_cons_of_mem _ (h.accepted r hr hstatus) }
    exact haccepted.finish (by decide)
  | error retryable =>
    dsimp only
    split
    · next key hkey =>
      split
      · next hspools =>
        obtain ⟨hretryable, hspools⟩ := Bool.and_eq_true_iff.1 hspools
        obtain ⟨htext, hsame⟩ := hfits (by rw [hretryable]) hspools key hkey
        exact (h.enqueue now hcall htext hsame).finish (by rintro ⟨⟩)
      · exact h.finish (by decide)
    · exact h.finish (by decide)

theorem Bridge.Inv.receive (h : b.Inv) (c : Nat) (outcome : GatewayOutcome) (now jitter : ℚ)
    (hfits : b.Fits (.receive c outcome now jitter)) : (b.receive c outcome now jitter).Inv := by
  unfold Bridge.receive
  split
  · next c' w p rest sent hlookup =>
    obtain rfl : c' = c := Table.lookup_key hlookup
    have htask := Table.lookup_mem hlookup
    split
    · exact h
    · next hsent =>
      unfold Bridge.drained
      split
      · obtain rfl : sent = true := by
          cases sent with
          | true => rfl
          | false => exact absurd ⟨rfl, rfl⟩ hsent
        unfold Bridge.Fits at hfits
        dsimp only at hfits
        rw [hlookup] at hfits
        exact (h.complete htask hfits).drainRest htask
      · exact h.drainRest htask
      · unfold Bridge.Fits at hfits
        dsimp only at hfits
        rw [hlookup] at hfits
        unfold retryDelay
        rw [if_pos hfits]
        exact (h.postpone _ _ _).drainRest htask
  · next c' w sent hlookup =>
    obtain rfl : c' = c := Table.lookup_key hlookup
    obtain ⟨hcall, -⟩ := h.tasks _ (Table.lookup_mem hlookup)
    split
    · exact h
    · refine h.called hcall now ?_
      rintro rfl
      unfold Bridge.Fits at hfits
      dsimp only at hfits
      rw [hlookup] at hfits
      exact hfits
  · exact h

theorem Bridge.Inv.exec (h : b.Inv) (step : BridgeStep) (hfits : b.Fits step) : (b.exec step).Inv := by
  cases step with
  | call w now => exact h.call w now
  | send c => exact h.send c
  | receive c outcome now jitter => exact h.receive c outcome now jitter hfits
  | cancel c => exact h.withTasks fun t ht => .inl (Table.mem_delete.1 ht).1
  | restart => exact h.withTasks fun t ht => by cases ht

/-! ## Runs -/

/-- Over every interleaving of calls, requests, outcomes, cancellations and restarts whose steps meet the condition:
queued writes stay until they are accepted as they were made, each write has one key, no completed row is sent and no
row makes another call fail. -/
theorem spool_sound (steps : List BridgeStep) (h : Along Bridge.exec Bridge.Fits .start steps) :
    Throughout Bridge.exec Bridge.Sound .start steps :=
  throughout_of_invariant (I := Bridge.Inv) (fun _ step hb hfits => hb.exec step hfits) (fun _ hb => hb.sound) .start h

/-- A write of a text under a key. -/
def remember (key content : String) : BridgeCall := ⟨.remember, some (.text key), [("content", .text content)]⟩

/-- The gateway is away for a write and back for the recall after it. -/
theorem spool_sound_recovery :
    Throughout Bridge.exec Bridge.Sound .start
      [.call (remember "k" "a") 0, .send 0, .receive 0 (.error true) 1 0,
        .call ⟨.recall, none, [("query", .text "a")]⟩ 2, .send 1, .receive 1 .success 3 0, .send 1,
        .receive 1 .success 4 0] :=
  spool_sound _ (by decide +kernel)

/-- A second write under the key of the first one is answered with `QUEUED_OFFLINE` and is nowhere. -/
theorem spool_loses_write :
    ¬ Throughout Bridge.exec Bridge.Sound .start
      [.call (remember "k" "a") 0, .send 0, .receive 0 (.error true) 1 0,
        .call (remember "k" "b") 2, .send 1, .receive 1 (.error true) 3 0, .send 1, .receive 1 (.error true) 4 0] := by
  rintro ⟨-, -, -, -, -, -, -, -, hsound⟩
  have hqueued : (⟨1, remember "k" "b", 0⟩ : QueuedWrite) ∈
      (run Bridge.exec .start [.call (remember "k" "a") 0, .send 0, .receive 0 (.error true) 1 0,
        .call (remember "k" "b") 2, .send 1, .receive 1 (.error true) 3 0, .send 1,
        .receive 1 (.error true) 4 0]).queued := by
    decide +kernel
  rcases hsound.kept _ hqueued with ⟨r, hr, -, -, hwrite⟩ | haccepted
  · revert r
    decide +kernel
  · revert haccepted
    decide +kernel

end Mesa.Gateway
