/-
Whether the write-ahead ledger hands out its work again. Claims and the recovery of expired claims
look at CLAIMED entries only; an aligned reconciliation moves an entry to RECONCILED and leaves the
claim on it. So every open entry is handed out again exactly as long as no RECONCILED entry
outlives its lease, and an entry is acknowledged only by the holder whose reconciliation was
aligned.
-/
import Mesa.Wal.Moves

namespace Mesa.Wal

open Mesa.Foundation

/-! ## The properties -/

/-- The arguments of a claim. -/
structure ClaimArguments where
  workerId : String
  claimToken : String
  limit : Nat
  leaseSeconds : Nat

def ClaimArguments.valid (c : ClaimArguments) : Bool := claimBounds c.workerId c.limit c.leaseSeconds

/-- One of the claims, made one after the other, hands out the entry `id` under its own fence. -/
def HandsOut (id : String) : Store → List ClaimArguments → Prop
  | _, [] => False
  | s, c :: claims => ∃ rows s', s.claim c.workerId c.claimToken c.limit c.leaseSeconds = .ok (rows, s') ∧
      ((∃ e ∈ rows, e.id = id ∧ e.heldBy c.workerId c.claimToken = true) ∨ HandsOut id s' claims)

/-- How many claimable entries come before `id`. -/
def Store.ahead (s : Store) (id : String) : Nat := s.wal.rows.countP fun e => e.claimable s.now && e.id < id

/-- The claims hand out the entry, as soon as their limits reach past the entries before it. -/
def HandedOut (s : Store) (id : String) : Prop :=
  ∀ claims : List ClaimArguments, claims.all (·.valid) = true → s.ahead id < (claims.map (·.limit)).sum →
    HandsOut id s claims

/-- The entry has no lease that still runs. -/
def WalEntry.expired (e : WalEntry) (now : Nat) : Bool := e.leaseExpiresAt.all (· ≤ now)

/-- Every entry that is not settled and whose lease has run out is handed out again. -/
def Served (s : Store) : Prop :=
  ∀ e ∈ s.wal.rows, e.state.settled = false → e.expired s.now = true → HandedOut s e.id

/-- The lease of a reconciled entry does not run out: an aligned verdict is written while the lease
runs, and the clock does not pass the lease before the acknowledgement. -/
def InTime (s : Store) : Call → Prop
  | .clock t => ∀ e ∈ s.wal.rows, e.state = .reconciled → e.expired t = false
  | .report i o => ∀ r ∈ s.readings[i]?, r.verdict o = .aligned → ∀ e ∈ s.wal.rows, e.id = r.walId →
      e.heldBy r.workerId r.claimToken = true → e.expired s.now = false
  | _ => True

/-- The call reports the entry `id` aligned to the holder of its fence. -/
def ReportsAligned (s : Store) (id workerId claimToken : String) (fenceEpoch : Nat) : Call → Prop
  | .report i o => ∃ r e, s.readings[i]? = some r ∧ r.walId = id ∧ r.workerId = workerId ∧
      r.claimToken = claimToken ∧ r.verdict o = .aligned ∧ s.wal.lookup id = some e ∧
      e.heldBy workerId claimToken = true ∧ e.fenceEpoch = fenceEpoch
  | _ => False

/-- Some call of the run from the empty ledger reported the entry aligned. -/
def Aligned (calls : List Call) (id workerId claimToken : String) (fenceEpoch : Nat) : Prop :=
  ∃ before c after, calls = before ++ c :: after ∧
    ReportsAligned (run exec .empty before) id workerId claimToken fenceEpoch c

/-- Entries become ACKED only by the holder of their fence, whose reconciliation was aligned. -/
def AckedByHolder (calls : List Call) : Prop :=
  ∀ before c after, calls = before ++ c :: after → ∀ id e',
    (exec (run exec .empty before) c).wal.lookup id = some e' → e'.state = .acked →
    (∃ e, (run exec .empty before).wal.lookup id = some e ∧ e.state = .acked) ∨
      ∃ e w t, (run exec .empty before).wal.lookup id = some e ∧ c = .ack id w t ∧ e.claimedBy = some w ∧
        e.claimToken = some t ∧ Aligned before id w t e.fenceEpoch

/-! ## Claims in order -/

theorem byId_perm (l : List WalEntry) : (byId l).Perm l := List.perm_insertionSort _ l

theorem byId_sorted (l : List WalEntry) : (byId l).Pairwise fun x y => x.id ≤ y.id :=
  List.pairwise_insertionSort _ l

/-- The claimable entries in the order of the claims. -/
def Store.line (s : Store) : List WalEntry := byId (s.wal.select (·.claimable s.now))

theorem mem_line {s : Store} {e : WalEntry} : e ∈ s.line ↔ e ∈ s.wal.rows ∧ e.claimable s.now = true := by
  rw [Store.line, (byId_perm _).mem_iff, Table.mem_select]

theorem line_nodup (s : Store) : (s.line.map (·.id)).Nodup := by
  have hsub : ((s.wal.select (·.claimable s.now)).map (·.id)).Nodup :=
    (List.Sublist.map _ List.filter_sublist).nodup s.wal.unique
  exact ((byId_perm _).map _).nodup_iff.2 hsub

theorem mem_candidates {s : Store} {limit : Nat} {e : WalEntry} (he : e ∈ s.wal.rows) :
    e.id ∈ s.candidates limit ↔ e ∈ s.line.take limit := by
  constructor
  · intro hid
    obtain ⟨x, hx, hxe⟩ := List.mem_map.1 hid
    have hrow : x ∈ s.wal.rows := (mem_line.1 (List.mem_of_mem_take hx)).1
    rw [← Table.eq_of_key_eq hrow he hxe]
    exact hx
  · exact fun h => List.mem_map_of_mem h

/-- An entry that the claim leaves waits behind all entries that the claim takes. -/
theorem taken_before {s : Store} {limit : Nat} {e : WalEntry} (he : e ∈ s.line) (hleft : e ∉ s.line.take limit) :
    (s.line.take limit).length = limit ∧ (∀ x ∈ s.line.take limit, x.id < e.id) := by
  have hdrop : e ∈ s.line.drop limit := by
    rw [← List.take_append_drop limit s.line, List.mem_append] at he
    exact he.resolve_left hleft
  have hsorted := byId_sorted (s.wal.select (·.claimable s.now))
  have hnodup := line_nodup s
  change s.line.Pairwise _ at hsorted
  rw [← List.take_append_drop limit s.line] at hsorted hnodup
  rw [List.pairwise_append] at hsorted
  rw [List.map_append, List.nodup_append] at hnodup
  constructor
  · rw [List.length_take, Nat.min_eq_left]
    have hpos : 0 < (s.line.drop limit).length := List.length_pos_of_mem hdrop
    rw [List.length_drop] at hpos
    omega
  · intro x hx
    have hne : x.id ≠ e.id := hnodup.2.2 _ (List.mem_map_of_mem hx) _ (List.mem_map_of_mem hdrop)
    exact String.not_le.1 fun hle => hne (String.le_antisymm (hsorted.2.2 x hx e hdrop) hle)

theorem countP_line (s : Store) (p : WalEntry → Bool) :
    s.wal.rows.countP (fun e => e.claimable s.now && p e) = s.line.countP p := by
  rw [Store.line, (byId_perm _).countP_eq, Table.select, List.countP_filter]
  exact List.countP_congr fun e _ => by rw [Bool.and_comm]

/-- The rows after a claim. -/
theorem mem_claimed {s : Store} {w t : String} {limit lease : Nat} {e' : WalEntry} :
    e' ∈ (s.claimed w t limit lease).wal.rows ↔ ∃ e ∈ s.wal.rows,
      (if (decide (e.id ∈ s.candidates limit) && e.claimable s.now) = true then e.claim w t (s.now + lease) else e)
        = e' :=
  Table.mem_updated

theorem claimed_not_claimable {e : WalEntry} {w t : String} {now lease : Nat} (hlease : 1 ≤ lease) :
    (e.claim w t (now + lease)).claimable now = false := by
  have : ¬ now + lease ≤ now := by omega
  simp [WalEntry.claimable, WalState.open, this]

theorem claimBounds_lease {w : String} {limit lease : Nat} (h : claimBounds w limit lease = true) :
    1 ≤ limit ∧ 1 ≤ lease := by
  simp only [claimBounds, Bool.and_eq_true, decide_eq_true_eq] at h
  exact ⟨h.1.2.1, h.2.1⟩

/-- The claimable entries after a claim are those that it leaves. -/
theorem ahead_claimed {s : Store} {w t : String} {limit lease : Nat} (hlease : 1 ≤ lease) (id : String) :
    (s.claimed w t limit lease).ahead id =
      s.line.countP fun e => !decide (e.id ∈ s.candidates limit) && decide (e.id < id) := by
  rw [← countP_line]
  unfold Store.ahead Store.claimed Table.update
  rw [List.countP_map]
  refine List.countP_congr fun e _ => ?_
  simp only [Function.comp_apply]
  by_cases htake : (decide (e.id ∈ s.candidates limit) && e.claimable s.now) = true
  · rw [if_pos htake, claimed_not_claimable hlease]
    rw [Bool.and_eq_true] at htake
    simp [htake.1]
  · rw [if_neg htake]
    by_cases hclaim : e.claimable s.now = true
    · have hid : decide (e.id ∈ s.candidates limit) = false := by
        rw [hclaim, Bool.and_true] at htake
        exact eq_false_of_ne_true htake
      rw [hclaim, hid]; simp
    · rw [eq_false_of_ne_true hclaim]; simp

/-- Every claim that leaves an entry takes as many entries before it as its limit says. -/
theorem ahead_left {s : Store} {e : WalEntry} {w t : String} {limit lease : Nat} (hlease : 1 ≤ lease)
    (he : e ∈ s.line) (hleft : e ∉ s.line.take limit) :
    (s.claimed w t limit lease).ahead e.id + limit = s.ahead e.id := by
  obtain ⟨hlength, hbefore⟩ := taken_before he hleft
  have hnodup := line_nodup s
  rw [ahead_claimed hlease, Store.ahead, countP_line]
  conv_lhs => rw [← List.take_append_drop limit s.line]
  conv_rhs => rw [← List.take_append_drop limit s.line]
  rw [← List.take_append_drop limit s.line, List.map_append, List.nodup_append] at hnodup
  rw [List.countP_append, List.countP_append]
  have htake : (s.line.take limit).countP (fun x => !decide (x.id ∈ s.candidates limit) && decide (x.id < e.id)) = 0 := by
    refine List.countP_eq_zero.2 fun x hx => ?_
    have : x.id ∈ s.candidates limit := List.mem_map_of_mem hx
    simp [this]
  have hall : (s.line.take limit).countP (fun x => decide (x.id < e.id)) = limit := by
    conv_rhs => rw [← hlength]
    exact List.countP_eq_length.2 fun x hx => decide_eq_true (hbefore x hx)
  have hdrop : (s.line.drop limit).countP (fun x => !decide (x.id ∈ s.candidates limit) && decide (x.id < e.id)) =
      (s.line.drop limit).countP (fun x => decide (x.id < e.id)) := by
    refine List.countP_congr fun x hx => ?_
    have : x.id ∉ s.candidates limit := fun hmem => hnodup.2.2 _ hmem _ (List.mem_map_of_mem hx) rfl
    simp [this]
  rw [htake, hall, hdrop, Nat.zero_add, Nat.add_comm]

/-- A claimable entry is handed out by claims whose limits reach past the entries before it. -/
theorem handedOut_of_claimable : ∀ {claims : List ClaimArguments} {s : Store} {e : WalEntry}, e ∈ s.wal.rows →
    e.claimable s.now = true → claims.all (·.valid) = true → s.ahead e.id < (claims.map (·.limit)).sum →
    HandsOut e.id s claims
  | [], _, _, _, _, _, hlimit => by simp at hlimit
  | c :: claims, s, e, he, hclaim, hvalid, hlimit => by
    rw [List.all_cons, Bool.and_eq_true] at hvalid
    have hbounds : claimBounds c.workerId c.limit c.leaseSeconds = true := hvalid.1
    have hlease := (claimBounds_lease hbounds).2
    refine ⟨_, _, by rw [Store.claim, if_pos hbounds], ?_⟩
    by_cases htake : e ∈ s.line.take c.limit
    · left
      have hid := (mem_candidates he).2 htake
      refine ⟨e.claim c.workerId c.claimToken (s.now + c.leaseSeconds), ?_, rfl, by simp [WalEntry.heldBy]⟩
      rw [(byId_perm _).mem_iff, Table.mem_select]
      exact ⟨mem_claimed.2 ⟨e, he, by rw [if_pos (by simp [hid, hclaim])]⟩, decide_eq_true hid⟩
    · right
      have hid : e.id ∉ s.candidates c.limit := fun h => htake ((mem_candidates he).1 h)
      have hrow : e ∈ (s.claimed c.workerId c.claimToken c.limit c.leaseSeconds).wal.rows :=
        mem_claimed.2 ⟨e, he, by rw [if_neg (by simp [hid])]⟩
      have hahead := ahead_left (w := c.workerId) (t := c.claimToken) hlease (mem_line.2 ⟨he, hclaim⟩) htake
      refine handedOut_of_claimable hrow hclaim hvalid.2 ?_
      rw [List.map_cons, List.sum_cons] at hlimit
      omega

/-- Claims hand out only claimable entries. -/
theorem claimable_of_handsOut : ∀ {claims : List ClaimArguments} {s : Store} {e : WalEntry}, e ∈ s.wal.rows →
    HandsOut e.id s claims → e.claimable s.now = true
  | [], _, _, _, h => False.elim h
  | c :: claims, s, e, he, h => by
    obtain ⟨rows, s', hok, h⟩ := h
    unfold Store.claim at hok
    split at hok
    · cases hok
      by_contra hclaim
      have hid : e.id ∉ s.candidates c.limit := fun hid =>
        hclaim (mem_line.1 (List.mem_of_mem_take ((mem_candidates he).1 hid))).2
      have hrow : e ∈ (s.claimed c.workerId c.claimToken c.limit c.leaseSeconds).wal.rows :=
        mem_claimed.2 ⟨e, he, by rw [if_neg (by simp [hid])]⟩
      rcases h with ⟨x, hx, hxid, -⟩ | h
      · rw [(byId_perm _).mem_iff, Table.mem_select, hxid] at hx
        exact hid (of_decide_eq_true hx.2)
      · have hlater : e.claimable (s.claimed c.workerId c.claimToken c.limit c.leaseSeconds).now = true :=
          claimable_of_handsOut hrow h
        exact hclaim hlater
    · cases hok

theorem handedOut_iff {s : Store} {e : WalEntry} (he : e ∈ s.wal.rows) :
    HandedOut s e.id ↔ e.claimable s.now = true := by
  constructor
  · intro h
    have hvalid : ClaimArguments.valid ⟨"worker", "token", 1, 1⟩ = true := by decide
    refine claimable_of_handsOut he (h (List.replicate (s.ahead e.id + 1) ⟨"worker", "token", 1, 1⟩) ?_ ?_)
    · exact List.all_eq_true.2 fun c hc => by rw [List.eq_of_mem_replicate hc]; exact hvalid
    · simp
  · exact fun hclaim claims hvalid hlimit => handedOut_of_claimable he hclaim hvalid hlimit

/-! ## Reconciled entries -/

theorem WalEntry.reconcile_state {e read : WalEntry} {v : Verdict} :
    (e.reconcile read v).state = .reconciled ↔ v = .aligned := by
  cases v <;> simp

theorem WalEntry.reconcile_acked {e read : WalEntry} {v : Verdict} : (e.reconcile read v).state ≠ .acked := by
  cases v <;> simp

theorem WalEntry.heldBy_claimed {e : WalEntry} {w t : String} (h : e.heldBy w t = true) :
    e.state = .claimed ∧ e.claimedBy = some w ∧ e.claimToken = some t := by
  simpa [WalEntry.heldBy, and_assoc] using h

theorem WalEntry.project_state (e : WalEntry) (p : Projection) :
    (e.project p).state = e.state ∧ (e.project p).leaseExpiresAt = e.leaseExpiresAt := by
  cases p <;> exact ⟨rfl, rfl⟩

theorem WalEntry.new_pending {e : WalEntry} (h : e.new) : e.state = .pending := by
  obtain ⟨id, a, n, g, rfl⟩ := h; rfl

/-- An entry is reconciled by the aligned verdict of its holder, and stays as it is then. -/
theorem WalMove.reconciles {s : Store} {c : Call} {e e' : WalEntry} (h : WalMove s c e e')
    (hstate : e'.state = .reconciled) : e' = e ∨ ∃ i o r, c = .report i o ∧ s.readings[i]? = some r ∧
      e.id = r.walId ∧ e.heldBy r.workerId r.claimToken = true ∧ r.verdict o = .aligned ∧
      e' = e.reconcile r.entry .aligned := by
  cases h with
  | kept => exact Or.inl rfl
  | claimed w t limit lease _ _ hid hclaim => cases hstate
  | projected w t text p _ hheld =>
    rw [(e.project_state p).1, (WalEntry.heldBy_claimed hheld).1] at hstate; cases hstate
  | retried w t error _ hheld state hs =>
    have hstate : state = .reconciled := hstate
    rcases hs with rfl | rfl <;> cases hstate
  | reconciled i o r _ hreading hid hheld =>
    have hverdict := WalEntry.reconcile_state.1 hstate
    exact Or.inr ⟨i, o, r, rfl, hreading, hid, hheld, hverdict, by rw [hverdict]⟩
  | acked w t _ haligned => cases hstate
  | recovered _ hs => cases hstate

/-- Work that is claimed or reconciled has a lease. -/
def Leased (s : Store) : Prop :=
  ∀ e ∈ s.wal.rows, e.state = .claimed ∨ e.state = .reconciled → e.leaseExpiresAt.isSome = true

theorem leased_exec (s : Store) (c : Call) (h : Leased s) : Leased (exec s c) := by
  intro e' he' hstate
  rcases (exec_step s c).origin he' with hnew | ⟨e, he, hmove⟩
  · rw [WalEntry.new_pending hnew] at hstate
    rcases hstate with hstate | hstate <;> cases hstate
  · cases hmove with
    | kept => exact h e' he hstate
    | claimed w t limit lease _ _ hid hclaim => rfl
    | projected w t text p _ hheld =>
      rw [(e.project_state p).2]
      exact h e he (Or.inl (WalEntry.heldBy_claimed hheld).1)
    | retried w t error _ hheld state hs =>
      have hstate : state = .claimed ∨ state = .reconciled := hstate
      rcases hs with rfl | rfl <;> rcases hstate with hstate | hstate <;> cases hstate
    | reconciled i o r _ hreading hid hheld =>
      have hlease := h e he (Or.inl (WalEntry.heldBy_claimed hheld).1)
      generalize r.verdict o = v at hstate ⊢
      cases v with
      | aligned => exact hlease
      | _ => rcases hstate with hstate | hstate <;> cases hstate
    | acked w t _ haligned => rcases hstate with hstate | hstate <;> cases hstate
    | recovered _ hs => rcases hstate with hstate | hstate <;> cases hstate

/-- No reconciled entry has outlived its lease. -/
def NoneStranded (s : Store) : Prop := ∀ e ∈ s.wal.rows, e.state = .reconciled → e.expired s.now = false

theorem served_iff {s : Store} (hleased : Leased s) : Served s ↔ NoneStranded s := by
  constructor
  · intro h e he hstate
    by_contra hexpired
    have hclaim := (handedOut_iff he).1 (h e he (by rw [hstate]; rfl) (eq_true_of_ne_false hexpired))
    rw [WalEntry.claimable, hstate] at hclaim
    cases hclaim
  · intro h e he hsettled hexpired
    refine (handedOut_iff he).2 ?_
    cases hstate : e.state with
    | claimed =>
      obtain ⟨l, hl⟩ := Option.isSome_iff_exists.1 (hleased e he (Or.inl hstate))
      have hpast : l ≤ s.now := by simpa [WalEntry.expired, hl] using hexpired
      simp [WalEntry.claimable, WalState.open, hstate, hl, hpast]
    | reconciled => rw [h e he hstate] at hexpired; cases hexpired
    | reconciliationRequired | blocked | acked => rw [hstate] at hsettled; cases hsettled
    | pending | sqliteCommitted | retryPending => rw [WalEntry.claimable, hstate]; rfl

theorem mem_report {s : Store} {r : Reading} {o : Observation} {e : WalEntry} (he : e ∈ s.wal.rows)
    (hid : e.id = r.walId) (hheld : e.heldBy r.workerId r.claimToken = true) :
    e.reconcile r.entry (r.verdict o) ∈ (s.report r o).wal.rows := by
  refine Table.mem_updated.2 ⟨e, he, ?_⟩
  rw [if_pos (by rw [hheld, hid]; simp)]

/-- A step strands an entry exactly when it is not in time. -/
theorem noneStranded_exec (s : Store) (c : Call) (h : NoneStranded s) : NoneStranded (exec s c) ↔ InTime s c := by
  constructor
  · intro h'
    cases c with
    | clock t => exact h'
    | report i o =>
      intro r hr hverdict e he hid hheld
      have hr : s.readings[i]? = some r := hr
      have hexec : exec s (.report i o) = { s.report r o with readings := s.readings.eraseIdx i } := by
        simp [exec, transact, hr]
      have hrow : e.reconcile r.entry (r.verdict o) ∈ (exec s (.report i o)).wal.rows := by
        rw [hexec]; exact mem_report he hid hheld
      rw [hverdict] at hrow
      have hfresh := h' _ hrow rfl
      rw [exec_now] at hfresh
      exact hfresh
    | _ => trivial
  · intro hc e' he' hstate
    rcases (exec_step s c).origin he' with hnew | ⟨e, he, hmove⟩
    · rw [WalEntry.new_pending hnew] at hstate; cases hstate
    · rcases hmove.reconciles hstate with rfl | ⟨i, o, r, rfl, hr, hid, hheld, hverdict, rfl⟩
      · cases c with
        | clock t => exact hc e' he hstate
        | _ => rw [exec_now]; exact h e' he hstate
      · rw [exec_now]
        exact hc r hr hverdict e he hid hheld

/-! ## Acknowledged entries -/

theorem WalMove.acks {s : Store} {c : Call} {e e' : WalEntry} (h : WalMove s c e e') (hstate : e'.state = .acked) :
    e' = e ∨ ∃ w t, c = .ack e.id w t ∧ e.alignedBy w t = true := by
  cases h with
  | kept => exact Or.inl rfl
  | acked w t _ haligned => exact Or.inr ⟨w, t, rfl, haligned⟩
  | claimed w t limit lease _ _ hid hclaim => cases hstate
  | projected w t text p _ hheld =>
    rw [(e.project_state p).1, (WalEntry.heldBy_claimed hheld).1] at hstate; cases hstate
  | retried w t error _ hheld state hs =>
    have hstate : state = .acked := hstate
    rcases hs with rfl | rfl <;> cases hstate
  | reconciled i o r _ hreading hid hheld => exact absurd hstate WalEntry.reconcile_acked
  | recovered _ hs => cases hstate

theorem Aligned.extend {calls : List Call} {id w t : String} {n : Nat} (h : Aligned calls id w t n) (c : Call) :
    Aligned (calls ++ [c]) id w t n := by
  obtain ⟨before, d, after, rfl, hd⟩ := h
  exact ⟨before, d, after ++ [c], by simp, hd⟩

/-- A reconciled entry is claimed by a holder whose reconciliation was aligned. -/
theorem reconciled_aligned (calls : List Call) : ∀ e ∈ (run exec .empty calls).wal.rows, e.state = .reconciled →
    ∃ w t, e.claimedBy = some w ∧ e.claimToken = some t ∧ Aligned calls e.id w t e.fenceEpoch := by
  induction calls using List.reverseRecOn with
  | nil => intro e he; cases he
  | append_singleton calls c ih =>
    intro e' he' hstate
    rw [run_snoc] at he'
    rcases (exec_step _ c).origin he' with hnew | ⟨e, he, hmove⟩
    · rw [WalEntry.new_pending hnew] at hstate; cases hstate
    · rcases hmove.reconciles hstate with rfl | ⟨i, o, r, rfl, hr, hid, hheld, hverdict, rfl⟩
      · obtain ⟨w, t, hw, ht, haligned⟩ := ih e' he hstate
        exact ⟨w, t, hw, ht, haligned.extend c⟩
      · obtain ⟨-, hw, ht⟩ := WalEntry.heldBy_claimed hheld
        refine ⟨r.workerId, r.claimToken, hw, ht, calls, .report i o, [], rfl, r, e, hr, hid.symm, rfl, rfl, hverdict,
          ?_, hheld, rfl⟩
        exact Table.lookup_of_mem he

theorem acked_by_holder (calls : List Call) : AckedByHolder calls := by
  rintro before c after rfl id e' he' hstate
  have hid' : e'.id = id := Table.lookup_key he'
  rcases (exec_step _ c).origin (Table.lookup_mem he') with hnew | ⟨e, he, hmove⟩
  · rw [WalEntry.new_pending hnew] at hstate; cases hstate
  · have hrow : (run exec .empty before).wal.lookup id = some e := by
      rw [← hid', hmove.id]; exact Table.lookup_of_mem he
    rcases hmove.acks hstate with rfl | ⟨w, t, rfl, haligned⟩
    · exact Or.inl ⟨e', hrow, hstate⟩
    · right
      have hid : e.id = id := Table.lookup_key hrow
      simp only [WalEntry.alignedBy, Bool.and_eq_true, decide_eq_true_eq] at haligned
      obtain ⟨w', t', hw, ht, hreport⟩ := reconciled_aligned before e he haligned.1.1.1
      rw [haligned.1.2] at hw
      rw [haligned.2] at ht
      cases hw
      cases ht
      rw [hid] at hreport
      exact ⟨e, w, t, hrow, by rw [hid], haligned.1.2, haligned.2, hreport⟩

/-! ## The write-ahead ledger -/

theorem throughout_served (calls : List Call) :
    Throughout exec Served .empty calls ↔ Along exec InTime .empty calls := by
  refine throughout_iff_along (I := Leased) leased_exec ?_ ?_ ?_
  · intro s c hleased hserved
    rw [served_iff (leased_exec s c hleased)]
    exact noneStranded_exec s c ((served_iff hleased).1 hserved)
  · intro e he; cases he
  · intro e he; cases he

/-- In every run, all work is handed out again in every state exactly when no reconciled entry
outlives its lease; and only an aligned holder acknowledges. -/
theorem wal_served_in_time (calls : List Call) :
    (Throughout exec Served .empty calls ↔ Along exec InTime .empty calls) ∧ AckedByHolder calls :=
  ⟨throughout_served calls, acked_by_holder calls⟩

instance InTime.decidable (s : Store) : (c : Call) → Decidable (InTime s c)
  | .clock t => inferInstanceAs (Decidable (∀ e ∈ s.wal.rows, e.state = .reconciled → e.expired t = false))
  | .report i o => inferInstanceAs (Decidable (∀ r ∈ s.readings[i]?, r.verdict o = .aligned → ∀ e ∈ s.wal.rows,
      e.id = r.walId → e.heldBy r.workerId r.claimToken = true → e.expired s.now = false))
  | .queue _ | .claim .. | .record .. | .retry .. | .observe .. | .ack .. | .recover | .crash _ => .isTrue trivial

/-- A worker that dies between its aligned reconciliation and the acknowledgement strands the entry:
neither the recovery of expired claims nor a claim takes it. -/
def crashedBeforeAck : List Call :=
  [.queue [⟨"wal", "agent", "node", false⟩], .claim "worker" "token" 100 300,
    .record "wal" "worker" "token" "VECTOR_APPLIED", .record "wal" "worker" "token" "GRAPH_NOT_REQUIRED",
    .observe "wal" "worker" "token", .report 0 ⟨false, some true, none, none⟩, .crash "worker", .clock 1000, .recover]

theorem crash_strands : ¬ ∀ calls, Throughout exec Served .empty calls ∧ AckedByHolder calls := by
  intro h
  have hrun : Along exec InTime .empty crashedBeforeAck := (throughout_served _).1 (h crashedBeforeAck).1
  revert hrun
  decide

end Mesa.Wal
