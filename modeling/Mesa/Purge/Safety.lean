/-
The safety of the purge journal. The journal is written without a comparison with the state that
was read, and a rollback checks its record before its transaction. So a finalized record and the
tombstones of deleted nodes are safe in every run in which no other thread works on a record when
it is finalized, a rollback is checked only while no copy of its nodes is deleted, and no deletion
reaches a node between the check of a rollback and its transaction.
-/
import Mesa.Purge.Journal

namespace Mesa.Purge

open Mesa.Foundation

/-! ## The properties -/

/-- The step clears no tombstone of a node that has lost a copy. -/
def TombstonesKept (s s' : Purges) : Prop :=
  ∀ id n n', s.nodes.lookup id = some n → s'.nodes.lookup id = some n' → n.purgeId.isSome = true →
    n'.purgeId = none → s.stores.lost n.agentId id = false

/-- No other thread that has read its record works on the purge. -/
def Purges.alone (s : Purges) (i : Nat) (purgeId : String) : Bool :=
  (s.threads.eraseIdx i).all fun u => u.target.all (·.purgeId ≠ purgeId)

/-- A rollback that has passed its check is going to restore the node. -/
def Purges.restoring (s : Purges) (n : Node) : Bool := s.threads.any fun u => u.restores.any n.tombstoneOf

/-- No node that is going to be restored is among the nodes of the deletion. -/
def Purges.spares (s : Purges) (agentId : String) (nodeIds : List String) : Bool :=
  s.nodes.rows.all fun n => !(s.restoring n && n.agentId = agentId && n.id ∈ nodeIds)

/-- No node with a tombstone of the purge has lost a copy. -/
def Purges.intact (s : Purges) (t : Target) : Bool :=
  s.nodes.rows.all fun n => !(n.tombstoneOf t && s.stores.lost n.agentId n.id)

/-- The statement of thread `i` does not meet another thread of its purge in a critical place. -/
def Purges.undisturbed (s : Purges) (i : Nat) (o : Outcome) : Thread → Bool
  | .resumed t .finalized => o.error.isSome || s.alone i t.purgeId
  | .resumed t .kuzuDelete => s.spares t.agentId (o.reaches t.nodeIds)
  | .resumed t (.vectorDelete (n :: _)) => s.spares t.agentId (o.reaches [n])
  | .rollingBack purgeId =>
    o.error.isSome || (s.journal.lookup purgeId).all fun r => !r.mayRollBack || s.intact r.target
  | _ => true

def Undisturbed (s : Purges) : Step → Prop
  | .statement i o => s.threads[i]?.all (s.undisturbed i o) = true
  | _ => True

instance Undisturbed.decidable (s : Purges) : (step : Step) → Decidable (Undisturbed s step)
  | .statement i o => inferInstanceAs (Decidable (s.threads[i]?.all (s.undisturbed i o) = true))
  | .purge .. | .resume .. | .rollback _ | .crash _ => .isTrue trivial

/-! ## What a statement does -/

variable {s : Purges} {o : Outcome}

/-- The statement writes the record of one purge, and `P` holds of the state it leaves there. -/
structure Writes (s s' : Purges) (purgeId : String) (P : PurgeState → Prop) : Prop where
  nodes : s'.nodes = s.nodes
  stores : s'.stores = s.stores
  others : ∀ p, p ≠ purgeId → s'.journal.lookup p = s.journal.lookup p
  absent : s.journal.lookup purgeId = none → s'.journal.lookup purgeId = none
  record : ∀ r, s.journal.lookup purgeId = some r → ∃ r', s'.journal.lookup purgeId = some r' ∧ P r'.state

/-- What the next statement of a thread does to the tables, and where the thread goes. -/
inductive Statement (s : Purges) (o : Outcome) : Thread → Purges → Thread → Prop
  | ended (t : Thread) (result : Except PurgeError Nat) : Statement s o t s (.finished result)
  | went (u : Target) (stage next : Stage) : Statement s o (.resumed u stage) s (.resumed u next)
  | read (p : String) (attached : Bool) (r : PurgeRecord) (next : Stage) (hr : s.journal.lookup p = some r)
    (hstate : r.state ≠ .finalized) : Statement s o (.resuming p attached) s (.resumed r.target next)
  | checked (p : String) (r : PurgeRecord) (hok : o.error = none) (hr : s.journal.lookup p = some r)
    (hmay : r.mayRollBack = true) : Statement s o (.rollingBack p) s (.restoring r.target)
  | wrote (u : Target) (stage next : Stage) (s' : Purges) (hs' : Writes s s' u.purgeId (· ≠ .finalized)) :
    Statement s o (.resumed u stage) s' (.resumed u next)
  | gaveUp (u : Target) (stage : Stage) (result : Except PurgeError Nat) (s' : Purges)
    (hs' : Writes s s' u.purgeId (· ≠ .finalized)) : Statement s o (.resumed u stage) s' (.finished result)
  | finalizedRecord (u : Target) (result : Except PurgeError Nat) (s' : Purges) (hok : o.error = none)
    (hs' : Writes s s' u.purgeId fun _ => True) : Statement s o (.resumed u .finalized) s' (.finished result)
  | erased (u : Target) (stage next : Stage) (store : StoreKind) (ids : List String)
    (hids : ∀ i, s.undisturbed i o (.resumed u stage) = s.spares u.agentId ids) :
    Statement s o (.resumed u stage) { s with stores := s.stores.erase store u.agentId ids } (.resumed u next)
  | restored (u : Target) (result : Except PurgeError Nat) :
    Statement s o (.restoring u) (s.restore u) (.finished result)

/-- An update of the record of one purge. -/
theorem lookup_writes {t t' : Table PurgeRecord} {purgeId : String} {f : PurgeRecord → PurgeRecord}
    (hf : ∀ r, Keyed.key (f r) = Keyed.key r) (ht : t' = t.update (·.purgeId = purgeId) f hf) (p : String) :
    t'.lookup p = (t.lookup p).map fun r => if p = purgeId then f r else r := by
  rw [ht, Table.lookup_update]
  cases hr : t.lookup p with
  | none => rfl
  | some r =>
    have hid : r.purgeId = p := Table.lookup_key hr
    rw [Option.map_some, Option.map_some, hid]
    simp only [decide_eq_true_eq]

theorem writes_of_update {s' : Purges} {purgeId : String} {f : PurgeRecord → PurgeRecord}
    (hf : ∀ r, Keyed.key (f r) = Keyed.key r) {P : PurgeState → Prop} (hP : ∀ r, P (f r).state)
    (hs' : s' = { s with journal := s.journal.update (·.purgeId = purgeId) f hf }) : Writes s s' purgeId P := by
  have hlookup : ∀ p, s'.journal.lookup p = (s.journal.lookup p).map fun r => if p = purgeId then f r else r :=
    lookup_writes hf (by rw [hs'])
  refine ⟨by rw [hs'], by rw [hs'], fun p hp => ?_, fun hnone => ?_, fun r hr => ?_⟩
  · rw [hlookup]; simp [hp]
  · rw [hlookup, hnone]; rfl
  · exact ⟨f r, by rw [hlookup, hr]; simp, hP r⟩

theorem advance_writes {purgeId : String} {state : PurgeState} {kuzu vector : Option StoreResult}
    {P : PurgeState → Prop} (hP : P state) : Writes s (s.advance purgeId state kuzu vector) purgeId P :=
  writes_of_update (f := fun r => { r with
    state
    lastError := none
    kuzuResult := kuzu.getD r.kuzuResult
    vectorResult := vector.getD r.vectorResult }) (fun _ => rfl) (fun _ => hP) rfl

theorem markRetry_writes {purgeId phase error : String} :
    Writes s (s.markRetry purgeId phase error) purgeId (· ≠ .finalized) := by
  refine writes_of_update (f := fun r => { r with
    state := if purgeMaxRetries ≤ r.retryCount + 1 then .blocked else .retryPending
    retryCount := r.retryCount + 1
    lastError := some s!"{phase}: {error}" }) (fun _ => rfl) (fun r => ?_) rfl
  show (if purgeMaxRetries ≤ r.retryCount + 1 then PurgeState.blocked else .retryPending) ≠ .finalized
  split <;> decide

theorem PurgeRecord.mayRollBack_not_finalized {r : PurgeRecord} (h : r.mayRollBack = true) : r.state ≠ .finalized := by
  intro hstate
  simp [PurgeRecord.mayRollBack, hstate] at h

theorem resumeRead_statement (p : String) (attached : Bool) :
    Statement s o (.resuming p attached) s (resumeRead s p attached) := by
  unfold resumeRead
  split
  · exact .ended _ _
  · next r hr =>
    split
    · exact .ended _ _
    · next hstate =>
      split
      · exact .ended _ _
      · split
        · exact .ended _ _
        · split
          · exact .read p attached r _ hr hstate
          · exact .read p attached r _ hr hstate

theorem rollbackRead_statement (p : String) (hok : o.error = none) :
    Statement s o (.rollingBack p) s (rollbackRead s p) := by
  unfold rollbackRead
  split
  · exact .ended _ _
  · next r hr =>
    split
    · next hmay => exact .checked p r hok hr hmay
    · exact .ended _ _

theorem resumeStep_statement (u : Target) (stage : Stage) :
    Statement s o (.resumed u stage) (resumeStep s u o stage).1 (resumeStep s u o stage).2 := by
  cases stage with
  | kuzuDelete => exact .erased u _ _ _ _ fun _ => rfl
  | kuzuVerify => exact .went u _ _
  | kuzuAdvance =>
    unfold resumeStep
    cases o.error with
    | none => exact .wrote u _ _ _ (advance_writes (by decide))
    | some e => exact .went u _ _
  | kuzuRetry error =>
    unfold resumeStep
    cases o.error with
    | none => exact .gaveUp u _ _ _ markRetry_writes
    | some e => exact .ended _ _
  | readAgain =>
    unfold resumeStep
    cases o.error with
    | some e => exact .ended _ _
    | none =>
      cases s.journal.lookup u.purgeId with
      | none => exact .ended _ _
      | some r => exact .went u _ _
  | vectorDelete rest =>
    cases rest with
    | nil => exact .went u _ _
    | cons n rest => exact .erased u _ _ _ _ fun _ => rfl
  | vectorAdvance =>
    unfold resumeStep
    cases o.error with
    | none => exact .wrote u _ _ _ (advance_writes (by decide))
    | some e => exact .went u _ _
  | vectorRetry error =>
    unfold resumeStep
    cases o.error with
    | none => exact .gaveUp u _ _ _ markRetry_writes
    | some e => exact .ended _ _
  | verified =>
    unfold resumeStep
    cases o.error with
    | none => exact .wrote u _ _ _ (advance_writes (by decide))
    | some e => exact .ended _ _
  | finalized =>
    unfold resumeStep
    cases he : o.error with
    | none => exact .finalizedRecord u _ _ he (advance_writes trivial)
    | some e => exact .ended _ _

theorem threadStep_statement (t : Thread) : Statement s o t (threadStep s o t).1 (threadStep s o t).2 := by
  cases t with
  | resuming p attached =>
    unfold threadStep
    cases o.error with
    | none => exact resumeRead_statement p attached
    | some e => exact .ended _ _
  | resumed u stage => exact resumeStep_statement u stage
  | rollingBack p =>
    unfold threadStep
    cases he : o.error with
    | none => exact rollbackRead_statement p he
    | some e => exact .ended _ _
  | restoring u =>
    unfold threadStep
    cases o.error with
    | none => exact .restored u _
    | some e => exact .ended _ _
  | finished result => exact .ended _ _

/-! ## The invariant -/

structure PurgeInv (s : Purges) : Prop where
  /-- Nobody works on a finalized record any more. -/
  settled : ∀ p r, s.journal.lookup p = some r → r.state = .finalized → ∀ t ∈ s.threads, ∀ u, t.target = some u →
    u.purgeId ≠ p
  known : ∀ t ∈ s.threads, ∀ u, t.target = some u → (s.journal.lookup u.purgeId).isSome = true
  /-- A node that is going to be restored has lost no copy. -/
  sound : ∀ t ∈ s.threads, ∀ u, t.restores = some u → ∀ n ∈ s.nodes.rows, n.tombstoneOf u = true →
    s.stores.lost n.agentId n.id = false

theorem Thread.restores_target {t : Thread} {u : Target} (h : t.restores = some u) : t.target = some u := by
  cases t with
  | restoring => exact h
  | _ => cases h

/-- The threads after one of them has moved. -/
theorem mem_moved {l : List Thread} {i : Nat} {t x : Thread} (h : x ∈ l.set i t) : x = t ∨ x ∈ l.eraseIdx i := by
  rw [List.mem_iff_getElem?] at h
  obtain ⟨j, hj⟩ := h
  rw [List.getElem?_set] at hj
  by_cases hij : i = j
  · rw [if_pos hij] at hj
    split at hj
    · cases hj; exact Or.inl rfl
    · cases hj
  · rw [if_neg hij] at hj
    exact Or.inr (List.mem_eraseIdx_iff_getElem?.2 ⟨j, Ne.symm hij, hj⟩)

theorem alone_iff {i : Nat} {p : String} : s.alone i p = true ↔
    ∀ t ∈ s.threads.eraseIdx i, ∀ u, t.target = some u → u.purgeId ≠ p := by
  unfold Purges.alone
  rw [List.all_eq_true]
  constructor
  · intro h t ht u hu
    have := h t ht
    rw [hu] at this
    exact of_decide_eq_true this
  · intro h t ht
    cases hu : t.target with
    | none => rfl
    | some u => exact decide_eq_true (h t ht u hu)

theorem lost_erase {stores : Stores} {store : StoreKind} {a a' n : String} {ids : List String}
    (h : (stores.erase store a ids).lost a' n = true) : stores.lost a' n = true ∨ (a' = a ∧ n ∈ ids) := by
  unfold Stores.lost Stores.erase at h
  obtain ⟨c, hc, hcn⟩ := List.any_eq_true.1 h
  rw [Bool.and_eq_true, decide_eq_true_eq, decide_eq_true_eq] at hcn
  rcases List.mem_append.1 hc with hc | hc
  · exact Or.inl (List.any_eq_true.2 ⟨c, hc, by simp [hcn]⟩)
  · have hhit := (List.mem_filter.1 hc).2
    simp only [Bool.and_eq_true, decide_eq_true_eq] at hhit
    obtain ⟨⟨-, ha⟩, hn⟩ := hhit
    rw [hcn.1] at ha
    rw [hcn.2] at hn
    exact Or.inr ⟨ha, hn⟩

theorem spares_iff {a : String} {ids : List String} (h : s.spares a ids = true) {t : Thread} (ht : t ∈ s.threads)
    {u : Target} (hu : t.restores = some u) {n : Node} (hn : n ∈ s.nodes.rows) (htomb : n.tombstoneOf u = true)
    (ha : n.agentId = a) : n.id ∉ ids := by
  intro hid
  have hrow := List.all_eq_true.1 h n hn
  have hrestoring : s.restoring n = true := List.any_eq_true.2 ⟨t, ht, by rw [hu]; exact htomb⟩
  simp [hrestoring, ha, hid] at hrow

/-- The record of a purge after a write is there if it was before. -/
theorem Writes.isSome {s' : Purges} {purgeId p : String} {P : PurgeState → Prop} (h : Writes s s' purgeId P)
    (hp : (s.journal.lookup p).isSome = true) : (s'.journal.lookup p).isSome = true := by
  by_cases hpp : p = purgeId
  · subst hpp
    obtain ⟨r, hr⟩ := Option.isSome_iff_exists.1 hp
    obtain ⟨r', hr', -⟩ := h.record r hr
    rw [hr']; rfl
  · rw [h.others p hpp]; exact hp

theorem restore_writes {u : Target} :
    Writes { s with nodes := (s.restore u).nodes } (s.restore u) u.purgeId (· ≠ .finalized) :=
  writes_of_update (f := fun r => { r with
    state := .failedSafe, lastError := some "pre-downstream tombstone rollback" }) (fun _ => rfl)
    (fun _ => PurgeState.noConfusion) rfl

/-- A node that a rollback leaves a tombstone on had it before. -/
theorem tombstone_restore {u v : Target} {n' : Node} (hn' : n' ∈ (s.restore u).nodes.rows)
    (h : n'.tombstoneOf v = true) : n' ∈ s.nodes.rows := by
  obtain ⟨n, hn, rfl⟩ := Table.mem_updated.1 hn'
  by_cases hu : n.tombstoneOf u = true
  · rw [if_pos hu] at h
    simp [Node.tombstoneOf] at h
  · rw [if_neg hu]; exact hn

/-- What a statement does to the journal, for each record. -/
theorem Statement.journal {t t' : Thread} {s' : Purges} (h : Statement s o t s' t') (p : String) :
    s'.journal.lookup p = s.journal.lookup p ∨
      ∃ u, t.target = some u ∧ u.purgeId = p ∧ ((s.journal.lookup p).isSome = true → (s'.journal.lookup p).isSome = true) ∧
        ∀ r', s'.journal.lookup p = some r' → r'.state = .finalized →
          t = .resumed u .finalized ∧ o.error = none ∧ t'.target = none := by
  have hwrites : ∀ {a s' : Purges} {u : Target}, a.journal = s.journal → Writes a s' u.purgeId (· ≠ .finalized) →
      t.target = some u → s'.journal.lookup p = s.journal.lookup p ∨
        ∃ u, t.target = some u ∧ u.purgeId = p ∧
          ((s.journal.lookup p).isSome = true → (s'.journal.lookup p).isSome = true) ∧
          ∀ r', s'.journal.lookup p = some r' → r'.state = .finalized →
            t = .resumed u .finalized ∧ o.error = none ∧ t'.target = none := by
    intro a s' u hjournal hw hu
    by_cases hp : p = u.purgeId
    · refine Or.inr ⟨u, hu, hp.symm, fun hsome => hw.isSome (by rw [hjournal]; exact hsome), fun r' hr' hstate => ?_⟩
      cases hr : s.journal.lookup u.purgeId with
      | none =>
        have := hw.absent (by rw [hjournal]; exact hr)
        rw [hp, this] at hr'; cases hr'
      | some r =>
        obtain ⟨r'', hr'', hne⟩ := hw.record r (by rw [hjournal]; exact hr)
        rw [hp, hr''] at hr'
        cases hr'
        exact absurd hstate hne
    · left; rw [hw.others p hp, hjournal]
  cases h with
  | ended | went | read | checked | erased => exact Or.inl rfl
  | wrote u stage next s' hs' => exact hwrites rfl hs' rfl
  | gaveUp u stage result s' hs' => exact hwrites rfl hs' rfl
  | restored u result => exact hwrites (a := { s with nodes := (s.restore u).nodes }) rfl restore_writes rfl
  | finalizedRecord u result s' hok hs' =>
    by_cases hp : p = u.purgeId
    · refine Or.inr ⟨u, rfl, hp.symm, fun hsome => hs'.isSome hsome, fun r' hr' hstate => ⟨rfl, hok, rfl⟩⟩
    · exact Or.inl (hs'.others p hp)

/-- Where the target of a thread comes from. -/
theorem Statement.target {t t' : Thread} {s' : Purges} (h : Statement s o t s' t') {u : Target}
    (hu : t'.target = some u) : t.target = some u ∨
      ∃ r, s.journal.lookup u.purgeId = some r ∧ r.state ≠ .finalized ∧ s' = s := by
  cases h with
  | ended => cases hu
  | went u' => cases hu; exact Or.inl rfl
  | read p attached r next hr hstate =>
    cases hu
    have hid : r.purgeId = p := Table.lookup_key hr
    exact Or.inr ⟨r, by show s.journal.lookup r.purgeId = some r; rw [hid]; exact hr, hstate, rfl⟩
  | checked p r hok hr hmay =>
    cases hu
    have hid : r.purgeId = p := Table.lookup_key hr
    exact Or.inr ⟨r, by show s.journal.lookup r.purgeId = some r; rw [hid]; exact hr,
      PurgeRecord.mayRollBack_not_finalized hmay, rfl⟩
  | wrote u' => cases hu; exact Or.inl rfl
  | gaveUp => cases hu
  | finalizedRecord => cases hu
  | erased u' => cases hu; exact Or.inl rfl
  | restored => cases hu

/-- Only the check of a rollback decides what is restored. -/
theorem Statement.checks {t t' : Thread} {s' : Purges} (h : Statement s o t s' t') {u : Target}
    (hu : t'.restores = some u) : s' = s ∧ ∃ p r, t = .rollingBack p ∧ o.error = none ∧
      s.journal.lookup p = some r ∧ r.mayRollBack = true ∧ u = r.target := by
  cases h with
  | checked p r hok hr hmay => cases hu; exact ⟨rfl, p, r, rfl, hok, hr, hmay, rfl⟩
  | ended | went | read | wrote | gaveUp | finalizedRecord | erased | restored => cases hu

/-- No statement puts a tombstone on a node. -/
theorem Statement.tombstone {t t' : Thread} {s' : Purges} (h : Statement s o t s' t') {u : Target} {n : Node}
    (hn : n ∈ s'.nodes.rows) (htomb : n.tombstoneOf u = true) : n ∈ s.nodes.rows := by
  cases h with
  | ended | went | read | checked | erased => exact hn
  | wrote v stage next _ hw => rw [← hw.nodes]; exact hn
  | gaveUp v stage result _ hw => rw [← hw.nodes]; exact hn
  | finalizedRecord v result _ hok hw => rw [← hw.nodes]; exact hn
  | restored v result => exact tombstone_restore hn htomb

/-- A statement deletes copies only of the nodes of its deletion. -/
theorem Statement.lost {t t' : Thread} {s' : Purges} (h : Statement s o t s' t') {a n : String}
    (hlost : s'.stores.lost a n = true) : s.stores.lost a n = true ∨
      ∃ ids, (∀ i, s.undisturbed i o t = s.spares a ids) ∧ n ∈ ids := by
  cases h with
  | ended | went | read | checked | restored => exact Or.inl hlost
  | wrote v stage next _ hw => rw [hw.stores] at hlost; exact Or.inl hlost
  | gaveUp v stage result _ hw => rw [hw.stores] at hlost; exact Or.inl hlost
  | finalizedRecord v result _ hok hw => rw [hw.stores] at hlost; exact Or.inl hlost
  | erased v stage next store ids hids =>
    rcases lost_erase hlost with hlost | ⟨rfl, hid⟩
    · exact Or.inl hlost
    · exact Or.inr ⟨ids, hids, hid⟩

/-- An undisturbed statement keeps the invariant. -/
theorem PurgeInv.statement (h : PurgeInv s) {i : Nat} {t t' : Thread} {s' : Purges} (ht : s.threads[i]? = some t)
    (hstep : Statement s o t s' t') (hcalm : s.undisturbed i o t = true) :
    PurgeInv { s' with threads := s.threads.set i t' } := by
  have hmem : t ∈ s.threads := List.mem_of_getElem? ht
  refine ⟨fun p r' hrow hstate x hx u hu => ?_, fun x hx u hu => ?_, fun x hx u hu n hn htomb => ?_⟩
  · -- a record that is finalized after the statement
    change s'.journal.lookup p = some r' at hrow
    rcases hstep.journal p with hsame | ⟨v, hv, hvp, -, hfinal⟩
    · rw [hsame] at hrow
      rcases mem_moved hx with rfl | hx
      · rcases hstep.target hu with hold | ⟨r, hr, hne, -⟩
        · exact h.settled p r' hrow hstate t hmem u hold
        · intro hup
          rw [hup, hrow] at hr
          cases hr
          exact hne hstate
      · exact h.settled p r' hrow hstate x (List.mem_of_mem_eraseIdx hx) u hu
    · obtain ⟨rfl, hok, hnone⟩ := hfinal r' hrow hstate
      rcases mem_moved hx with rfl | hx
      · rw [hnone] at hu; cases hu
      · have halone : (o.error.isSome || s.alone i v.purgeId) = true := hcalm
        rw [hok, Option.isSome_none, Bool.false_or] at halone
        rw [← hvp]
        exact alone_iff.1 halone x hx u hu
  · have hold : (s.journal.lookup u.purgeId).isSome = true := by
      rcases mem_moved hx with rfl | hx
      · rcases hstep.target hu with hold | ⟨r, hr, -⟩
        · exact h.known t hmem u hold
        · rw [hr]; rfl
      · exact h.known x (List.mem_of_mem_eraseIdx hx) u hu
    show (s'.journal.lookup u.purgeId).isSome = true
    rcases hstep.journal u.purgeId with hsame | ⟨v, hv, hvp, hkept, -⟩
    · rw [hsame]; exact hold
    · exact hkept hold
  · -- a rollback that has passed its check
    show s'.stores.lost n.agentId n.id = false
    have hnode : n ∈ s.nodes.rows := hstep.tombstone hn htomb
    rcases mem_moved hx with rfl | hx
    · obtain ⟨rfl, p, r, rfl, hok, hr, hmay, rfl⟩ := hstep.checks hu
      have hintact : (o.error.isSome || (s'.journal.lookup p).all fun r => !r.mayRollBack || s'.intact r.target) = true :=
        hcalm
      rw [hok, hr] at hintact
      simp only [Option.isSome_none, Bool.false_or, Option.all_some, hmay, Bool.not_true] at hintact
      have hrow := List.all_eq_true.1 hintact n hnode
      rw [htomb] at hrow
      simpa using hrow
    · have hx := List.mem_of_mem_eraseIdx hx
      refine eq_false_of_ne_true fun hlost => ?_
      rcases hstep.lost hlost with hlost | ⟨ids, hids, hid⟩
      · rw [h.sound x hx u hu n hnode htomb] at hlost; cases hlost
      · rw [hids] at hcalm
        exact spares_iff hcalm hx hu hnode htomb rfl hid

/-! ## The calls -/

/-- A call begins with a thread that has not read its record. -/
theorem PurgeInv.begin (h : PurgeInv s) {t : Thread} (ht : t.target = none) : PurgeInv (s.begin t) := by
  have hthread : ∀ x ∈ (s.begin t).threads, ∀ u, x.target = some u → x ∈ s.threads := by
    intro x hx u hu
    rcases List.mem_append.1 hx with hx | hx
    · exact hx
    · rw [List.mem_singleton.1 hx, ht] at hu; cases hu
  exact ⟨fun p r hr hstate x hx u hu => h.settled p r hr hstate x (hthread x hx u hu) u hu,
    fun x hx u hu => h.known x (hthread x hx u hu) u hu,
    fun x hx u hu => h.sound x (hthread x hx u (Thread.restores_target hu)) u hu⟩

/-- What the transaction of a purge does: nothing, or a new record and its tombstones. -/
inductive Prepared (s : Purges) (q : PurgeRequest) : Purges → Prop
  | same : Prepared s q s
  | added (scope : Scope) (nodeIds : List String) (p : Node → Bool) (hfree : s.journal.lookup q.purgeId = none) :
    Prepared s q { s with
      journal := s.journal.insertOrIgnore (q.record scope nodeIds)
      nodes := s.nodes.update p fun n => { n with invalid := true, deleted := true, purgeId := some q.purgeId } }

theorem prepare_prepared {q : PurgeRequest} {scope : Scope} {r : Option String × Purges}
    (hok : s.prepare q scope = .ok r) : Prepared s q r.2 := by
  unfold Purges.prepare at hok
  split at hok
  · split at hok
    · cases hok
    · split at hok <;> cases hok
      exact .same
  · dsimp only at hok
    split at hok
    · cases hok; exact .same
    · split at hok
      · cases hok
      · next hkey =>
        cases hok
        exact .added scope _ _ (Table.hasKey_eq_false.1 (eq_false_of_ne_true hkey))

/-- The records that were there stay as they are. -/
theorem Prepared.journal {q : PurgeRequest} {s' : Purges} (h : Prepared s q s') {p : String} {r : PurgeRecord}
    (hr : s.journal.lookup p = some r) : s'.journal.lookup p = some r := by
  cases h with
  | same => exact hr
  | added scope nodeIds _ hfree =>
    show (s.journal.insertOrIgnore _).lookup p = some r
    rw [Table.lookup_insertOrIgnore, hr, Option.some_or]

theorem Prepared.finalized {q : PurgeRequest} {s' : Purges} (h : Prepared s q s') {p : String} {r : PurgeRecord}
    (hr : s'.journal.lookup p = some r) (hstate : r.state = .finalized) : s.journal.lookup p = some r := by
  cases h with
  | same => exact hr
  | added scope nodeIds _ hfree =>
    change (s.journal.insertOrIgnore _).lookup p = some r at hr
    rw [Table.lookup_insertOrIgnore] at hr
    cases hp : s.journal.lookup p with
    | some r' => rw [hp, Option.some_or] at hr; exact hr
    | none =>
      rw [hp, Option.none_or] at hr
      split at hr
      · cases hr; cases hstate
      · cases hr

theorem Prepared.rest {q : PurgeRequest} {s' : Purges} (h : Prepared s q s') :
    s'.threads = s.threads ∧ s'.stores = s.stores := by
  cases h <;> exact ⟨rfl, rfl⟩

theorem PurgeInv.prepared (h : PurgeInv s) {q : PurgeRequest} {s' : Purges} (hp : Prepared s q s') : PurgeInv s' := by
  obtain ⟨hthreads, hstores⟩ := hp.rest
  refine ⟨fun p r hr hstate => ?_, fun x hx u hu => ?_, fun x hx u hu n hn htomb => ?_⟩
  · rw [hthreads]; exact h.settled p r (hp.finalized hr hstate) hstate
  · rw [hthreads] at hx
    obtain ⟨r, hr⟩ := Option.isSome_iff_exists.1 (h.known x hx u hu)
    rw [hp.journal hr]; rfl
  · rw [hthreads] at hx
    rw [hstores]
    cases hp with
    | same => exact h.sound x hx u hu n hn htomb
    | added scope nodeIds p hfree =>
      obtain ⟨m, hm, rfl⟩ := Table.mem_updated.1 hn
      by_cases hpm : p m = true
      · -- the tombstone is of the new purge, and nobody has read its record
        rw [if_pos hpm] at htomb
        simp only [Node.tombstoneOf, Bool.and_eq_true, decide_eq_true_eq, Option.some.injEq] at htomb
        have hknown := h.known x hx u (Thread.restores_target hu)
        rw [← htomb.1.1, hfree] at hknown
        cases hknown
      · rw [if_neg hpm] at htomb ⊢
        exact h.sound x hx u hu m hm htomb

/-- `purge_memory` makes its transaction and begins a thread. -/
theorem purge_prepared (q : PurgeRequest) (p : Process) :
    ∃ s' t, Prepared s q s' ∧ t.target = none ∧ s.purge q p = s'.begin t := by
  unfold Purges.purge
  split
  · exact ⟨s, _, .same, rfl, rfl⟩
  · next scope _ =>
    split
    · exact ⟨s, _, .same, rfl, rfl⟩
    · next s' hok => exact ⟨s', _, prepare_prepared hok, rfl, rfl⟩
    · next purgeId s' hok =>
      split
      · exact ⟨s', _, prepare_prepared hok, rfl, rfl⟩
      · exact ⟨s', _, prepare_prepared hok, rfl, rfl⟩

theorem exec_statement {i : Nat} {t : Thread} (ht : s.threads[i]? = some t) :
    exec s (.statement i o) = { (threadStep s o t).1 with threads := s.threads.set i (threadStep s o t).2 } := by
  simp only [exec, ht]

theorem PurgeInv.exec {s : Purges} (h : PurgeInv s) {step : Step} (hcalm : Undisturbed s step) :
    PurgeInv (exec s step) := by
  cases step with
  | purge q p =>
    obtain ⟨s', t, hp, ht, heq⟩ := purge_prepared (s := s) q p
    show PurgeInv (s.purge q p)
    rw [heq]
    exact (h.prepared hp).begin ht
  | resume purgeId p =>
    simp only [Purge.exec]
    split
    · exact h.begin rfl
    · exact h.begin rfl
  | rollback purgeId => exact h.begin rfl
  | statement i o =>
    cases ht : s.threads[i]? with
    | none => simp only [Purge.exec, ht]; exact h
    | some t =>
      rw [exec_statement ht]
      refine h.statement ht (threadStep_statement t) ?_
      have hcalm : s.threads[i]?.all (s.undisturbed i o) = true := hcalm
      rw [ht] at hcalm
      exact hcalm
  | crash i =>
    have hthread : ∀ x ∈ s.threads.set i (.finished (.error (.database "crash"))), ∀ u, x.target = some u →
        x ∈ s.threads := by
      intro x hx u hu
      rcases mem_moved hx with rfl | hx
      · cases hu
      · exact List.mem_of_mem_eraseIdx hx
    exact ⟨fun p r hr hstate x hx u hu => h.settled p r hr hstate x (hthread x hx u hu) u hu,
      fun x hx u hu => h.known x (hthread x hx u hu) u hu,
      fun x hx u hu => h.sound x (hthread x hx u (Thread.restores_target hu)) u hu⟩

/-! ## One step -/

/-- Nothing writes a finalized record. -/
theorem PurgeInv.record_kept (h : PurgeInv s) (step : Step) {p : String} {r : PurgeRecord}
    (hr : s.journal.lookup p = some r) (hstate : r.state = .finalized) :
    (Purge.exec s step).journal.lookup p = some r := by
  cases step with
  | purge q process =>
    obtain ⟨s', t, hp, -, heq⟩ := purge_prepared (s := s) q process
    show (s.purge q process).journal.lookup p = some r
    rw [heq]
    exact hp.journal hr
  | resume purgeId process =>
    simp only [Purge.exec]
    split <;> exact hr
  | rollback purgeId => exact hr
  | statement i o =>
    cases ht : s.threads[i]? with
    | none => simp only [Purge.exec, ht]; exact hr
    | some t =>
      rw [exec_statement ht]
      show (threadStep s o t).1.journal.lookup p = some r
      rcases (threadStep_statement t).journal p with hsame | ⟨u, hu, hup, -⟩
      · rw [hsame]; exact hr
      · exact absurd hup (h.settled p r hr hstate t (List.mem_of_getElem? ht) u hu)
  | crash i => exact hr

theorem Prepared.nodes_kept {q : PurgeRequest} {s' : Purges} (h : Prepared s q s') {id : String} {n n' : Node}
    (hn : s.nodes.lookup id = some n) (hn' : s'.nodes.lookup id = some n') (htomb : n.purgeId.isSome = true) :
    n'.purgeId ≠ none := by
  intro hnone
  cases h with
  | same =>
    rw [hn] at hn'
    cases hn'
    rw [hnone] at htomb; cases htomb
  | added scope nodeIds p hfree =>
    have hrow := hn'.symm.trans (Table.lookup_update s.nodes p (fun n =>
      { n with invalid := true, deleted := true, purgeId := some q.purgeId }) (fun _ => rfl) id)
    rw [hn, Option.map_some, Option.some.injEq] at hrow
    subst hrow
    by_cases hp : p n = true
    · rw [if_pos hp] at hnone; cases hnone
    · rw [if_neg hp] at hnone
      rw [hnone] at htomb; cases htomb

/-- A tombstone that a statement takes away is one of a rollback that has passed its check. -/
theorem Statement.clears {t t' : Thread} {s' : Purges} (h : Statement s o t s' t') {id : String} {n n' : Node}
    (hn : s.nodes.lookup id = some n) (hn' : s'.nodes.lookup id = some n') (htomb : n.purgeId.isSome = true)
    (hnone : n'.purgeId = none) : ∃ u, t.restores = some u ∧ n.tombstoneOf u = true := by
  have hsame : s'.nodes = s.nodes → False := by
    intro hnodes
    rw [hnodes, hn] at hn'
    cases hn'
    rw [hnone] at htomb; cases htomb
  cases h with
  | ended | went | read | checked | erased => exact absurd rfl hsame
  | wrote v stage next _ hw => exact absurd hw.nodes hsame
  | gaveUp v stage result _ hw => exact absurd hw.nodes hsame
  | finalizedRecord v result _ hok hw => exact absurd hw.nodes hsame
  | restored u result =>
    refine ⟨u, rfl, ?_⟩
    have hrow := hn'.symm.trans (Table.lookup_update s.nodes (·.tombstoneOf u) (fun n =>
      { n with invalid := false, deleted := false, purgeId := none }) (fun _ => rfl) id)
    rw [hn, Option.map_some, Option.some.injEq] at hrow
    subst hrow
    by_contra hu
    rw [if_neg hu] at hnone
    rw [hnone] at htomb; cases htomb

theorem PurgeInv.tombstones_kept (h : PurgeInv s) (step : Step) : TombstonesKept s (Purge.exec s step) := by
  intro id n n' hn hn' htomb hnone
  have hsame : (Purge.exec s step).nodes = s.nodes → False := by
    intro hnodes
    rw [hnodes, hn] at hn'
    cases hn'
    rw [hnone] at htomb; cases htomb
  cases step with
  | purge q process =>
    obtain ⟨s', t, hp, -, heq⟩ := purge_prepared (s := s) q process
    change (s.purge q process).nodes.lookup id = some n' at hn'
    rw [heq] at hn'
    exact absurd hnone (hp.nodes_kept hn hn' htomb)
  | resume purgeId process =>
    refine absurd ?_ hsame
    simp only [Purge.exec]
    split <;> rfl
  | rollback purgeId => exact absurd rfl hsame
  | statement i o =>
    cases ht : s.threads[i]? with
    | none => exact absurd (by simp only [Purge.exec, ht]) hsame
    | some t =>
      rw [exec_statement ht] at hn'
      obtain ⟨u, hu, htombstone⟩ := (threadStep_statement t).clears hn hn' htomb hnone
      have hid : n.id = id := Table.lookup_key hn
      rw [← hid]
      exact h.sound t (List.mem_of_getElem? ht) u hu n (Table.lookup_mem hn) htombstone
  | crash i => exact absurd rfl hsame

/-! ## The purge journal -/

/-- The journal, the nodes and the stores before any call. -/
def quiet (journal : Table PurgeRecord) (nodes : Table Node) (stores : Stores) : Purges := ⟨journal, nodes, stores, []⟩

theorem quiet_inv (journal : Table PurgeRecord) (nodes : Table Node) (stores : Stores) :
    PurgeInv (quiet journal nodes stores) :=
  ⟨fun _ _ _ _ _ ht => absurd ht List.not_mem_nil, fun _ ht => absurd ht List.not_mem_nil,
    fun _ ht => absurd ht List.not_mem_nil⟩

/-- A finalized record is the same after every later step of the run. -/
def FinalizedKept (s : Purges) (steps : List Step) : Prop :=
  ∀ before after, steps = before ++ after → ∀ p r, (run exec s before).journal.lookup p = some r →
    r.state = .finalized → (run exec s steps).journal.lookup p = some r

theorem finalized_run : ∀ {steps : List Step} {s : Purges}, PurgeInv s → Along exec Undisturbed s steps →
    ∀ {p r}, s.journal.lookup p = some r → r.state = .finalized → (run exec s steps).journal.lookup p = some r
  | [], _, _, _, _, _, hr, _ => hr
  | step :: steps, s, h, ⟨hc, hrest⟩, p, r, hr, hstate => by
    rw [run_cons]
    exact finalized_run (h.exec hc) hrest (h.record_kept step hr hstate) hstate

/-- In an undisturbed run a finalized record never changes, and no tombstone of a node is cleared
after a copy of the node has been deleted. -/
theorem purge_safe (journal : Table PurgeRecord) (nodes : Table Node) (stores : Stores) (steps : List Step)
    (hcalm : Along exec Undisturbed (quiet journal nodes stores) steps) :
    FinalizedKept (quiet journal nodes stores) steps ∧
      Along exec (fun s step => TombstonesKept s (exec s step)) (quiet journal nodes stores) steps := by
  have hinv := quiet_inv journal nodes stores
  refine ⟨?_, along_of_invariant (I := PurgeInv) (fun s step h hc => h.exec hc) (fun s step h _ => h.tombstones_kept step)
    hinv hcalm⟩
  rintro before after rfl p r hr hstate
  obtain ⟨hbefore, hafter⟩ := along_append.1 hcalm
  rw [run_append]
  exact finalized_run (invariant_run (I := PurgeInv) (fun s step h hc => h.exec hc) hinv hbefore) hafter hr hstate

/-! ## Runs on one node -/

/-- An agent with one node, which both stores have. -/
def oneNode : Purges :=
  quiet .empty ((.empty : Table Node).insertOrIgnore ⟨"node", "agent", "session", false, false, none⟩)
    ⟨[⟨.graph, "agent", "node"⟩, ⟨.vector, "agent", "node"⟩], []⟩

def purgeAgent : Step :=
  .purge ⟨"agent", "agent", none, none, some "key", "fresh", "purge"⟩ ⟨true, true⟩

/-- The next statement of thread `i` succeeds. -/
def succeeds (i : Nat) : Step := .statement i ⟨none, [], true⟩

/-- The next statement of thread `i` raises. -/
def raises (i : Nat) : Step := .statement i ⟨some "RuntimeError", [], false⟩

/-- A purge that is finalized, and a resume and a rollback that come too late. -/
theorem purge_safe_finalized :
    FinalizedKept oneNode (purgeAgent :: List.replicate 10 (succeeds 0) ++
        [.resume "purge" ⟨true, true⟩, succeeds 1, .rollback "purge", succeeds 2]) ∧
      Along exec (fun s step => TombstonesKept s (exec s step)) oneNode
        (purgeAgent :: List.replicate 10 (succeeds 0) ++
          [.resume "purge" ⟨true, true⟩, succeeds 1, .rollback "purge", succeeds 2]) :=
  purge_safe _ _ _ _ (by decide)

/-- A resume that has read the record before it was finalized marks it for a retry afterwards. -/
def lateRetry : List Step := [raises 1, succeeds 1]

def overtakenResume : List Step :=
  [purgeAgent, .resume "purge" ⟨true, true⟩, succeeds 1] ++ List.replicate 10 (succeeds 0)

theorem finalized_overwritten : ¬ FinalizedKept oneNode (overtakenResume ++ lateRetry) := by
  intro h
  have hbefore : ((run exec oneNode overtakenResume).journal.lookup "purge").map (·.state) = some .finalized := by
    decide
  obtain ⟨r, hr, hstate⟩ := Option.map_eq_some_iff.1 hbefore
  have hafter : ((run exec oneNode (overtakenResume ++ lateRetry)).journal.lookup "purge").map (·.state) =
      some .retryPending := by decide
  rw [h _ _ rfl _ r hr hstate, Option.map_some, hstate] at hafter
  cases hafter

/-- The deletion succeeds in the graph and its verification fails, so the journal allows a rollback. -/
def unverifiedDeletion : List Step :=
  [purgeAgent, succeeds 0, succeeds 0, raises 0, succeeds 0, .rollback "purge", succeeds 1]

theorem deleted_restored : ¬ Along exec (fun s step => TombstonesKept s (exec s step)) oneNode
    (unverifiedDeletion ++ [succeeds 1]) := by
  intro h
  have hlast := (along_snoc.1 h).2
  have hlost := hlast "node" ⟨"node", "agent", "session", true, true, some "purge"⟩
    ⟨"node", "agent", "session", false, false, none⟩ (by decide) (by decide) rfl rfl
  revert hlost
  decide

/-- Both halves of the safety fail in some run. -/
theorem purge_unsafe : ¬ (∀ steps, FinalizedKept oneNode steps) ∧
    ¬ ∀ steps, Along exec (fun s step => TombstonesKept s (exec s step)) oneNode steps :=
  ⟨fun h => finalized_overwritten (h _), fun h => deleted_restored (h _)⟩

end Mesa.Purge
