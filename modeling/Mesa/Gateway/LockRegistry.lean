/-
The keyed locks of the gateway: an entry a key, made under one lock and awaited on its own, with a count of the tasks
that use it. A task runs to its next suspension in one step; while it is suspended it can be cancelled, and the
cancellation is delivered when it runs again. The lock over the registry is never held at a suspension, so only the lock
of an entry is ever awaited, and the count of an entry is the number of tasks that hold its lock or await it.
-/
import Mesa.Foundation.AsyncLock
import Mesa.Foundation.Run

namespace Mesa.Gateway

open Mesa.Foundation

/-- `_AsyncLockEntry`. -/
structure AsyncLockEntry where
  lock : AsyncLock Nat
  users : Int

/-- Where a call of `hold` stands while it is suspended: at the registry's lock on its way in, at the lock of its entry, in
its body, at the registry's lock on its way out; or it is over. -/
inductive Position (K : Type)
  | entering (key : K)
  | waiting (key : K) (entry : Nat)
  | inside (key : K) (entry : Nat)
  | exiting (key : K) (entry : Nat)
  | refused
  | ended
  deriving DecidableEq

/-- `BoundedAsyncKeyedLocks`, the entries it ever made and the calls of `hold`, each under its number. -/
structure LockRegistry (K : Type) where
  maxSize : Nat
  entries : List (K × Nat)
  guard : AsyncLock Nat
  heap : Nat → AsyncLockEntry
  made : Nat
  calls : List (Position K)

namespace LockRegistry

variable {K : Type} [DecidableEq K]

def new (K : Type) (maxSize : Nat) : LockRegistry K := ⟨maxSize, [], .new, fun _ => ⟨.new, 0⟩, 0, []⟩

/-- `self._entries.get(key)`. -/
def find (s : LockRegistry K) (key : K) : Option Nat := (s.entries.find? fun x => decide (x.1 = key)).map Prod.snd

def setEntry (s : LockRegistry K) (e : Nat) (x : AsyncLockEntry) : LockRegistry K :=
  { s with heap := Function.update s.heap e x }

/-- The registry's lock is given back; it is held there, so this does not raise. -/
def releaseGuard (s : LockRegistry K) : LockRegistry K := { s with guard := s.guard.release.getD s.guard }

/-- `entry.users += 1` and `entry.lock.acquire()` up to its first suspension. -/
def acquire (s : LockRegistry K) (c : Nat) (key : K) (e : Nat) : LockRegistry K × Position K :=
  let (lock, got) := (s.heap e).lock.acquire c
  (s.setEntry e ⟨lock, (s.heap e).users + 1⟩, if got then .inside key e else .waiting key e)

/-- `hold` from the registry's lock, which the call has, to its next suspension. -/
def enterHeld (s : LockRegistry K) (c : Nat) (key : K) : LockRegistry K × Position K :=
  match s.find key with
  | some e => s.releaseGuard.acquire c key e
  | none =>
    if s.maxSize ≤ s.entries.length then
      (s.releaseGuard, .refused)
    else
      let e := s.made
      ({ s with entries := s.entries ++ [(key, e)], made := e + 1 }.setEntry e ⟨.new, 0⟩).releaseGuard.acquire c key e

/-- The clean-up from the registry's lock, which the call has. -/
def exitHeld (s : LockRegistry K) (key : K) (e : Nat) : LockRegistry K :=
  let users := (s.heap e).users - 1
  let s := s.setEntry e { s.heap e with users }
  if users = 0 ∧ s.find key = some e then
    { s with entries := s.entries.filter fun x => decide (x.1 ≠ key) }.releaseGuard
  else
    s.releaseGuard

/-- The clean-up up to its first suspension. -/
def exit (s : LockRegistry K) (c : Nat) (key : K) (e : Nat) : LockRegistry K × Position K :=
  let (guard, got) := s.guard.acquire c
  if got then ({ s with guard }.exitHeld key e, .ended) else ({ s with guard }, .exiting key e)

def put (c : Nat) (r : LockRegistry K × Position K) : LockRegistry K := { r.1 with calls := r.1.calls.set c r.2 }

inductive Event (K : Type)
  /-- A task calls `hold`. -/
  | enter (key : K)
  /-- A task that was woken runs. -/
  | resume (c : Nat)
  /-- A suspended task is cancelled. -/
  | cancel (c : Nat)
  /-- A task that was cancelled while it awaited a lock runs. -/
  | deliver (c : Nat)
  /-- The body ends: it returns, raises or is cancelled. -/
  | leave (c : Nat)

def enter (s : LockRegistry K) (key : K) : LockRegistry K :=
  let (guard, got) := s.guard.acquire s.calls.length
  let r := if got then { s with guard }.enterHeld s.calls.length key else ({ s with guard }, .entering key)
  { r.1 with calls := s.calls ++ [r.2] }

def resume (s : LockRegistry K) (c : Nat) : LockRegistry K :=
  match s.calls[c]? with
  | some (.entering key) =>
    if s.guard.waiter c = some .woken then put c ({ s with guard := s.guard.resume c }.enterHeld c key) else s
  | some (.waiting key e) =>
    if (s.heap e).lock.waiter c = some .woken then
      put c (s.setEntry e { s.heap e with lock := (s.heap e).lock.resume c }, .inside key e)
    else
      s
  | some (.exiting key e) =>
    if s.guard.waiter c = some .woken then put c ({ s with guard := s.guard.resume c }.exitHeld key e, .ended) else s
  | _ => s

def cancel (s : LockRegistry K) (c : Nat) : LockRegistry K :=
  match s.calls[c]? with
  | some (.entering _) | some (.exiting _ _) => { s with guard := s.guard.cancel c }
  | some (.waiting _ e) => s.setEntry e { s.heap e with lock := (s.heap e).lock.cancel c }
  | _ => s

/-- Whether the cancellation of a waiter can be delivered: its future is done, or a wake came first. -/
def stopped (l : AsyncLock Nat) (c : Nat) : Bool := decide (l.waiter c = some .cancelled ∨ l.waiter c = some .woken)

def deliver (s : LockRegistry K) (c : Nat) : LockRegistry K :=
  match s.calls[c]? with
  | some (.entering _) | some (.exiting _ _) =>
    if stopped s.guard c then put c ({ s with guard := s.guard.withdraw c }, .ended) else s
  | some (.waiting key e) =>
    if stopped (s.heap e).lock c then
      put c ((s.setEntry e { s.heap e with lock := (s.heap e).lock.withdraw c }).exit c key e)
    else
      s
  | _ => s

/-- The end of the body; a lock that is not held raises out of the clean-up. -/
def leave (s : LockRegistry K) (c : Nat) : LockRegistry K :=
  match s.calls[c]? with
  | some (.inside key e) =>
    match (s.heap e).lock.release with
    | some lock => put c ((s.setEntry e { s.heap e with lock }).exit c key e)
    | none => put c (s, .ended)
  | _ => s

def exec (s : LockRegistry K) : Event K → LockRegistry K
  | .enter key => s.enter key
  | .resume c => s.resume c
  | .cancel c => s.cancel c
  | .deliver c => s.deliver c
  | .leave c => s.leave c

/-! ## One entry -/

end LockRegistry

/-- The entry that a call holds or awaits. -/
def Position.uses {K : Type} : Position K → Option (K × Nat)
  | .waiting key e | .inside key e => some (key, e)
  | _ => none

/-- A call that is suspended at the registry's lock. -/
def Position.atGuard {K : Type} : Position K → Bool
  | .entering _ | .exiting _ _ => true
  | _ => false

variable {K : Type} [DecidableEq K]

/-- An entry says what the calls do with it. -/
structure Tallies (x : AsyncLockEntry) (calls : List (Position K)) (k : K) (e : Nat) : Prop where
  users : x.users = (calls.countP fun p => decide (p.uses = some (k, e)) : Nat)
  held : (calls.countP fun p => decide (p = .inside k e)) = x.lock.locked.toNat
  queued : ∀ c, c ∈ x.lock.names ↔ calls[c]? = some (.waiting k e)
  fair : x.lock.Fair

section

variable {x : AsyncLockEntry} {calls : List (Position K)} {k : K} {e c : Nat} {p q : Position K}

omit [DecidableEq K] in
theorem ne_of_uses {x : K × Nat} (hp : p.uses ≠ some x) : p ≠ .inside x.1 x.2 ∧ p ≠ .waiting x.1 x.2 :=
  ⟨fun h => hp (by rw [h]; rfl), fun h => hp (by rw [h]; rfl)⟩

omit [DecidableEq K] in
theorem countP_moved (f : Position K → Bool) (hc : calls[c]? = some p) (q : Position K) :
    (calls.set c q).countP f + (f p).toNat = calls.countP f + (f q).toNat := by
  obtain ⟨hlt, rfl⟩ := List.getElem?_eq_some_iff.1 hc
  rw [List.countP_set hlt]
  have hle : f calls[c] = true → 0 < calls.countP f := fun h => List.countP_pos_iff.2 ⟨_, List.getElem_mem hlt, h⟩
  cases hp : f calls[c] <;> cases hq : f q <;> simp only [Bool.toNat_true, Bool.toNat_false, if_true, if_false,
    Bool.false_eq_true] <;> [skip; skip; have := hle hp; have := hle hp] <;> omega

/-- A call that has nothing to do with an entry comes. -/
theorem Tallies.come (h : Tallies x calls k e) (hp : p.uses ≠ some (k, e)) : Tallies x (calls ++ [p]) k e := by
  obtain ⟨hinside, hwaiting⟩ := ne_of_uses hp
  refine ⟨?_, ?_, fun d => ?_, h.fair⟩
  · rw [List.countP_append, List.countP_singleton, decide_eq_false hp]
    exact h.users
  · rw [List.countP_append, List.countP_singleton, decide_eq_false hinside]
    exact h.held
  · rw [h.queued d]
    rcases Nat.lt_trichotomy d calls.length with hlt | rfl | hgt
    · rw [List.getElem?_append_left hlt]
    · rw [List.getElem?_concat_length, List.getElem?_eq_none le_rfl]
      exact ⟨fun h => (by cases h), fun h => absurd (Option.some.inj h) hwaiting⟩
    · rw [List.getElem?_eq_none hgt.le, List.getElem?_eq_none]
      rw [List.length_append]
      exact hgt

/-- A call that has nothing to do with an entry moves on. -/
theorem Tallies.move (h : Tallies x calls k e) (hc : calls[c]? = some p) (hp : p.uses ≠ some (k, e))
    (hq : q.uses ≠ some (k, e)) : Tallies x (calls.set c q) k e := by
  refine ⟨?_, ?_, fun d => ?_, h.fair⟩
  · have hcount := countP_moved (fun p => decide (p.uses = some (k, e))) hc q
    rw [decide_eq_false hp, decide_eq_false hq] at hcount
    rw [h.users, Nat.add_right_cancel hcount]
  · have hcount := countP_moved (fun p => decide (p = .inside k e)) hc q
    rw [decide_eq_false (ne_of_uses hp).1, decide_eq_false (ne_of_uses hq).1] at hcount
    rw [Nat.add_right_cancel hcount]
    exact h.held
  · rw [h.queued d]
    by_cases hd : c = d
    · subst hd
      rw [hc, List.getElem?_set_self (List.getElem?_eq_some_iff.1 hc).1]
      exact ⟨fun h => absurd (Option.some.inj h) (ne_of_uses hp).2, fun h => absurd (Option.some.inj h) (ne_of_uses hq).2⟩
    · rw [List.getElem?_set_ne hd]

/-- A call joins: it gets the lock, or waits for it. -/
theorem Tallies.join (h : Tallies x calls k e) :
    Tallies ⟨(x.lock.acquire calls.length).1, x.users + 1⟩
      (calls ++ [if (x.lock.acquire calls.length).2 then .inside k e else .waiting k e]) k e := by
  have hnew : calls.length ∉ x.lock.names := by
    rw [h.queued, List.getElem?_eq_none le_rfl]
    intro h
    cases h
  have hfair := h.fair.acquire hnew
  rcases x.lock.acquire_cases calls.length with ⟨heq, hfree, -⟩ | heq
  · rw [heq] at hfair ⊢
    rw [if_pos rfl]
    refine ⟨?_, ?_, fun d => ?_, hfair⟩
    · rw [List.countP_append, h.users]
      simp [Position.uses]
    · rw [List.countP_append, h.held, hfree]
      simp
    · refine (h.queued d).trans ?_
      rw [List.getElem?_append]
      split
      · rfl
      · next hge =>
        rw [List.getElem?_eq_none (Nat.le_of_not_lt hge), List.getElem?_singleton]
        split <;> simp
  · rw [heq] at hfair ⊢
    rw [if_neg Bool.false_ne_true]
    refine ⟨?_, ?_, fun d => ?_, hfair⟩
    · rw [List.countP_append, h.users]
      simp [Position.uses]
    · rw [List.countP_append, h.held]
      simp
    · unfold AsyncLock.names
      rw [List.map_append, List.mem_append, List.map_singleton, List.mem_singleton]
      refine (or_congr (h.queued d) Iff.rfl).trans ?_
      rw [List.getElem?_append]
      split
      · next hlt => exact or_iff_left (Nat.ne_of_lt hlt)
      · next hge =>
        rw [List.getElem?_eq_none (Nat.le_of_not_lt hge), List.getElem?_singleton]
        split <;> simp <;> omega

/-- A waiter that was woken gets the lock. -/
theorem Tallies.resume (h : Tallies x calls k e) (hc : calls[c]? = some (.waiting k e))
    (hwoken : x.lock.waiter c = some .woken) :
    Tallies { x with lock := x.lock.resume c } (calls.set c (.inside k e)) k e := by
  obtain ⟨hfair, hfree⟩ := h.fair.resume hwoken
  refine ⟨?_, ?_, fun d => ?_, hfair⟩
  · have hcount := countP_moved (fun p => decide (p.uses = some (k, e))) hc (.inside k e)
    rw [h.users]
    exact congrArg Nat.cast (Nat.add_right_cancel hcount).symm
  · have hcount := countP_moved (fun p => decide (p = .inside k e)) hc (.inside k e)
    rw [h.held, hfree] at hcount
    simpa using hcount
  · rw [AsyncLock.names_resume, List.mem_filter, h.queued]
    by_cases hd : c = d
    · subst hd
      rw [List.getElem?_set_self (List.getElem?_eq_some_iff.1 hc).1]
      simp
    · rw [List.getElem?_set_ne hd]
      simp [Ne.symm hd]

theorem Tallies.cancel (h : Tallies x calls k e) (c : Nat) : Tallies { x with lock := x.lock.cancel c } calls k e :=
  ⟨h.users, h.held, fun d => by rw [AsyncLock.names_cancel]; exact h.queued d, h.fair.cancel c⟩

/-- While a call is in its body the lock is held, and no other call is. -/
theorem Tallies.locked (h : Tallies x calls k e) (hc : calls[c]? = some (.inside k e)) : x.lock.locked = true := by
  have hpos : 0 < x.lock.locked.toNat := by
    rw [← h.held]
    exact List.countP_pos_iff.2 ⟨_, List.mem_of_getElem? hc, decide_eq_true rfl⟩
  cases hlocked : x.lock.locked
  · rw [hlocked] at hpos
    cases hpos
  · rfl

theorem Tallies.exclusive (h : Tallies x calls k e) {d : Nat} (hc : calls[c]? = some (.inside k e))
    (hd : calls[d]? = some (.inside k e)) : c = d := by
  by_contra hne
  -- with one of the two taken out, there is none left to find the other
  have hcount := countP_moved (fun p => decide (p = .inside k e)) hc .ended
  rw [h.held, h.locked hc, decide_eq_true rfl] at hcount
  have hzero : (calls.set c .ended).countP (fun p => decide (p = .inside k e)) = 0 := Nat.add_right_cancel hcount
  refine absurd (List.countP_eq_zero.1 hzero (.inside k e) ?_) (by rw [decide_eq_true rfl]; exact fun h => h rfl)
  exact List.mem_of_getElem? (by rw [List.getElem?_set_ne hne]; exact hd)

/-- A call of an entry is over. -/
theorem Tallies.finish (h : Tallies x calls k e) (hc : calls[c]? = some p) (hp : p.uses = some (k, e))
    {lock : AsyncLock Nat} (hfair : lock.Fair) (hnames : ∀ d, d ∈ lock.names ↔ d ∈ x.lock.names ∧ c ≠ d)
    (hlocked : lock.locked.toNat + (decide (p = .inside k e)).toNat = x.lock.locked.toNat) :
    Tallies ⟨lock, x.users - 1⟩ (calls.set c .ended) k e := by
  refine ⟨?_, ?_, fun d => ?_, hfair⟩
  · have hcount := countP_moved (fun p => decide (p.uses = some (k, e))) hc .ended
    have hended : decide ((Position.ended : Position K).uses = some (k, e)) = false := rfl
    rw [decide_eq_true hp, hended, Bool.toNat_true, Bool.toNat_false] at hcount
    dsimp only
    rw [h.users]
    omega
  · have hcount := countP_moved (fun p => decide (p = .inside k e)) hc .ended
    rw [h.held] at hcount
    simp only [reduceCtorEq, decide_false, Bool.toNat_false] at hcount
    dsimp only
    omega
  · rw [hnames, h.queued]
    by_cases hd : c = d
    · subst hd
      rw [List.getElem?_set_self (List.getElem?_eq_some_iff.1 hc).1]
      simp
    · rw [List.getElem?_set_ne hd]
      simp [hd]

end

/-! ## The registry -/

namespace LockRegistry

/-- Between two steps nobody is at the registry's lock; the entries are those of the calls that hold or await one, and
each says what they do. -/
structure Inv (s : LockRegistry K) : Prop where
  guard : s.guard = .new
  settled : ∀ p ∈ s.calls, p.atGuard = false
  keys : (s.entries.map Prod.fst).Nodup
  numbers : (s.entries.map Prod.snd).Nodup
  made : ∀ x ∈ s.entries, x.2 < s.made
  size : s.entries.length ≤ s.maxSize
  filed : ∀ p ∈ s.calls, ∀ x, p.uses = some x → x ∈ s.entries
  used : ∀ x ∈ s.entries, ∃ p ∈ s.calls, p.uses = some x
  tallies : ∀ x ∈ s.entries, Tallies (s.heap x.2) s.calls x.1 x.2

section

variable {s : LockRegistry K} {k key : K} {e c : Nat} {p q : Position K}

theorem inv_new (maxSize : Nat) : (new K maxSize).Inv where
  guard := rfl
  settled _ h := absurd h List.not_mem_nil
  keys := List.nodup_nil
  numbers := List.nodup_nil
  made _ h := absurd h List.not_mem_nil
  size := Nat.zero_le _
  filed _ h := absurd h List.not_mem_nil
  used _ h := absurd h List.not_mem_nil
  tallies _ h := absurd h List.not_mem_nil

theorem find_eq_none : s.find key = none ↔ ∀ x ∈ s.entries, x.1 ≠ key := by
  unfold find
  rw [Option.map_eq_none_iff, List.find?_eq_none]
  exact forall₂_congr fun x _ => by rw [decide_eq_true_iff]

theorem mem_of_find (h : s.find key = some e) : (key, e) ∈ s.entries := by
  obtain ⟨⟨k, e'⟩, hfind, rfl⟩ := Option.map_eq_some_iff.1 h
  have hk : k = key := of_decide_eq_true (List.find?_some (p := fun x : K × Nat => decide (x.1 = key)) hfind)
  exact hk ▸ List.mem_of_find?_eq_some hfind

theorem Inv.eq_of_key (h : s.Inv) {x y : K × Nat} (hx : x ∈ s.entries) (hy : y ∈ s.entries) (heq : x.1 = y.1) : x = y :=
  List.inj_on_of_nodup_map h.keys hx hy heq

theorem Inv.eq_of_number (h : s.Inv) {x y : K × Nat} (hx : x ∈ s.entries) (hy : y ∈ s.entries) (heq : x.2 = y.2) :
    x = y :=
  List.inj_on_of_nodup_map h.numbers hx hy heq

theorem Inv.find (h : s.Inv) (hx : (k, e) ∈ s.entries) : s.find k = some e := by
  cases hfind : s.find k with
  | none => exact absurd rfl (find_eq_none.1 hfind _ hx)
  | some e' => rw [(Prod.mk.inj (h.eq_of_key (mem_of_find hfind) hx rfl)).2]

/-! ## Steps -/

/-- A call that uses no entry comes. -/
theorem Inv.come (h : s.Inv) (hp : p.uses = none) (hguard : p.atGuard = false) :
    Inv { s with calls := s.calls ++ [p] } where
  guard := h.guard
  settled q hq := by
    rcases List.mem_append.1 hq with hq | hq
    · exact h.settled q hq
    · rw [List.mem_singleton.1 hq]
      exact hguard
  keys := h.keys
  numbers := h.numbers
  made := h.made
  size := h.size
  filed q hq x hx := by
    rcases List.mem_append.1 hq with hq | hq
    · exact h.filed q hq x hx
    · rw [List.mem_singleton.1 hq, hp] at hx
      cases hx
  used x hx := by
    obtain ⟨q, hq, hqx⟩ := h.used x hx
    exact ⟨q, List.mem_append_left _ hq, hqx⟩
  tallies x hx := (h.tallies x hx).come (by rw [hp]; exact (by intro heq; cases heq))

/-- One entry changes with the call that uses it; the other entries stay as they are. -/
theorem Inv.rework (h : s.Inv) (hx : (k, e) ∈ s.entries) {x : AsyncLockEntry} {calls : List (Position K)}
    (hself : Tallies x calls k e) (hsettled : ∀ p ∈ calls, p.atGuard = false)
    (hothers : ∀ y ∈ s.entries, y ≠ (k, e) → Tallies (s.heap y.2) calls y.1 y.2)
    (hfiled : ∀ p ∈ calls, ∀ y, p.uses = some y → y ∈ s.entries)
    (hused : ∀ y ∈ s.entries, ∃ p ∈ calls, p.uses = some y) :
    Inv { s.setEntry e x with calls } where
  guard := h.guard
  settled := hsettled
  keys := h.keys
  numbers := h.numbers
  made := h.made
  size := h.size
  filed := hfiled
  used := hused
  tallies y hy := by
    unfold setEntry
    dsimp only
    by_cases hye : y.2 = e
    · obtain rfl := h.eq_of_number hy hx hye
      rw [Function.update_self]
      exact hself
    · rw [Function.update_of_ne hye]
      exact hothers y hy fun heq => hye (by rw [heq])

/-- A call comes to an entry that is there. -/
theorem Inv.join (h : s.Inv) (hx : (k, e) ∈ s.entries) :
    Inv { (s.acquire s.calls.length k e).1 with calls := s.calls ++ [(s.acquire s.calls.length k e).2] } := by
  have hp : (s.acquire s.calls.length k e).2.uses = some (k, e) ∧ (s.acquire s.calls.length k e).2.atGuard = false := by
    unfold acquire
    dsimp only
    split <;> exact ⟨rfl, rfl⟩
  refine h.rework hx (h.tallies _ hx).join (fun q hq => ?_) (fun y hy hne => ?_) (fun q hq y hy => ?_) (fun y hy => ?_)
  · rcases List.mem_append.1 hq with hq | hq
    · exact h.settled q hq
    · rw [List.mem_singleton.1 hq]
      exact hp.2
  · refine (h.tallies y hy).come fun heq => hne ?_
    exact Option.some.inj (heq.symm.trans hp.1)
  · rcases List.mem_append.1 hq with hq | hq
    · exact h.filed q hq y hy
    · rw [List.mem_singleton.1 hq] at hy
      rw [← Option.some.inj (hp.1.symm.trans hy)]
      exact hx
  · obtain ⟨q, hq, hqy⟩ := h.used y hy
    exact ⟨q, List.mem_append_left _ hq, hqy⟩

/-- A call comes to a key that has no entry yet. -/
theorem Inv.fresh (h : s.Inv) (hnone : s.find k = none) (hroom : s.entries.length < s.maxSize) :
    Inv { s.setEntry s.made ⟨⟨true, []⟩, 1⟩ with
      entries := s.entries ++ [(k, s.made)], made := s.made + 1, calls := s.calls ++ [.inside k s.made] } where
  guard := h.guard
  settled q hq := by
    rcases List.mem_append.1 hq with hq | hq
    · exact h.settled q hq
    · rw [List.mem_singleton.1 hq]
      rfl
  keys := by
    rw [List.map_append]
    refine List.nodup_append_comm.1 (List.nodup_cons.2 ⟨fun hk => ?_, h.keys⟩)
    obtain ⟨x, hx, hxk⟩ := List.mem_map.1 hk
    exact find_eq_none.1 hnone x hx hxk
  numbers := by
    rw [List.map_append]
    refine List.nodup_append_comm.1 (List.nodup_cons.2 ⟨fun hk => ?_, h.numbers⟩)
    obtain ⟨x, hx, hxe⟩ := List.mem_map.1 hk
    exact absurd hxe (Nat.ne_of_lt (h.made x hx))
  made x hx := by
    rcases List.mem_append.1 hx with hx | hx
    · exact (h.made x hx).trans (Nat.lt_succ_self _)
    · rw [List.mem_singleton.1 hx]
      exact Nat.lt_succ_self _
  size := by
    rw [List.length_append]
    exact hroom
  filed q hq x hx := by
    rcases List.mem_append.1 hq with hq | hq
    · exact List.mem_append_left _ (h.filed q hq x hx)
    · rw [List.mem_singleton.1 hq] at hx
      rw [← Option.some.inj hx]
      exact List.mem_append_right _ (List.mem_singleton_self _)
  used x hx := by
    rcases List.mem_append.1 hx with hx | hx
    · obtain ⟨q, hq, hqx⟩ := h.used x hx
      exact ⟨q, List.mem_append_left _ hq, hqx⟩
    · rw [List.mem_singleton.1 hx]
      exact ⟨_, List.mem_append_right _ (List.mem_singleton_self _), rfl⟩
  tallies x hx := by
    unfold setEntry
    dsimp only
    rcases List.mem_append.1 hx with hx | hx
    · rw [Function.update_of_ne (Nat.ne_of_lt (h.made x hx))]
      exact (h.tallies x hx).come fun heq => Nat.ne_of_lt (h.made x hx) (congrArg Prod.snd (Option.some.inj heq)).symm
    · rw [List.mem_singleton.1 hx, Function.update_self]
      -- nobody used the number before
      have hnobody : ∀ q ∈ s.calls, q.uses ≠ some (k, s.made) := fun q hq huses =>
        absurd (h.made _ (h.filed q hq _ huses)) (Nat.lt_irrefl _)
      have htallies : Tallies ⟨.new, 0⟩ s.calls k s.made := by
        refine ⟨?_, ?_, fun d => ?_, AsyncLock.fair_new⟩
        · rw [List.countP_eq_zero.2 fun q hq => by rw [decide_eq_true_iff]; exact hnobody q hq]
          rfl
        · rw [List.countP_eq_zero.2 fun q hq => by rw [decide_eq_true_iff]; exact (ne_of_uses (hnobody q hq)).1]
          rfl
        · exact iff_of_false List.not_mem_nil fun hd =>
            (ne_of_uses (hnobody _ (List.mem_of_getElem? hd))).2 rfl
      exact htallies.join

omit [DecidableEq K] in
theorem mem_set_self (hc : s.calls[c]? = some p) (q : Position K) : q ∈ s.calls.set c q :=
  List.mem_set (List.getElem?_eq_some_iff.1 hc).1 q

omit [DecidableEq K] in
theorem mem_set_of_ne (hc : s.calls[c]? = some p) {q r : Position K} (hr : r ∈ s.calls) (hne : r ≠ p) : r ∈ s.calls.set c q := by
  obtain ⟨i, hi, rfl⟩ := List.mem_iff_getElem.1 hr
  obtain ⟨hlt, rfl⟩ := List.getElem?_eq_some_iff.1 hc
  have hic : c ≠ i := fun heq => hne (by subst heq; rfl)
  exact List.mem_of_getElem? (by rw [List.getElem?_set_ne hic]; exact List.getElem?_eq_getElem hi)

/-- A waiter of an entry gets the lock. -/
theorem Inv.resume (h : s.Inv) (hc : s.calls[c]? = some (.waiting k e))
    (hwoken : (s.heap e).lock.waiter c = some .woken) :
    Inv (put c (s.setEntry e { s.heap e with lock := (s.heap e).lock.resume c }, .inside k e)) := by
  have hx := h.filed _ (List.mem_of_getElem? hc) (k, e) rfl
  refine h.rework hx ((h.tallies _ hx).resume hc hwoken) (fun q hq => ?_) (fun y hy hne => ?_) (fun q hq y hy => ?_)
    (fun y hy => ?_)
  · rcases List.mem_or_eq_of_mem_set hq with hq | rfl
    · exact h.settled q hq
    · rfl
  · exact (h.tallies y hy).move hc (fun heq => hne (Option.some.inj heq).symm) fun heq => hne (Option.some.inj heq).symm
  · rcases List.mem_or_eq_of_mem_set hq with hq | rfl
    · exact h.filed q hq y hy
    · rw [← Option.some.inj hy]
      exact hx
  · by_cases hye : y = (k, e)
    · exact ⟨_, mem_set_self hc _, by rw [hye]; rfl⟩
    · obtain ⟨q, hq, hqy⟩ := h.used y hy
      exact ⟨q, mem_set_of_ne hc hq fun heq => hye (by rw [heq] at hqy; exact (Option.some.inj hqy).symm), hqy⟩

/-- A waiter of an entry is cancelled. -/
theorem Inv.cancel (h : s.Inv) (hx : (k, e) ∈ s.entries) (c : Nat) :
    Inv (s.setEntry e { s.heap e with lock := (s.heap e).lock.cancel c }) :=
  h.rework hx ((h.tallies _ hx).cancel c) h.settled (fun y hy _ => h.tallies y hy) h.filed h.used

/-- The clean-up of a call runs through: the registry's lock is free. -/
theorem Inv.exit_eq (h : s.Inv) (hx : (k, e) ∈ s.entries) (c : Nat) (lock : AsyncLock Nat) :
    put c ((s.setEntry e { s.heap e with lock }).exit c k e) =
      { s.setEntry e ⟨lock, (s.heap e).users - 1⟩ with
        entries := if (s.heap e).users - 1 = 0 then s.entries.filter fun x => decide (x.1 ≠ k) else s.entries
        calls := s.calls.set c .ended } := by
  have hfind : ∀ t : LockRegistry K, t.entries = s.entries → t.find k = some e := by
    intro t ht
    rw [← h.find hx, LockRegistry.find, LockRegistry.find, ht]
  have hnew : (AsyncLock.new : AsyncLock Nat).acquire c = (⟨true, []⟩, true) := rfl
  unfold put exit exitHeld setEntry releaseGuard
  simp only [h.guard, hnew, if_true, Function.update_self, Function.update_idem]
  by_cases hzero : (s.heap e).users - 1 = 0
  · rw [if_pos ⟨hzero, hfind _ rfl⟩, if_pos hzero]
    rfl
  · rw [if_neg fun hboth => hzero hboth.1, if_neg hzero]
    rfl

/-- A call of an entry is over: the entry counts one user less, and goes with the last one. -/
theorem Inv.finish (h : s.Inv) (hc : s.calls[c]? = some p) (hp : p.uses = some (k, e)) {lock : AsyncLock Nat}
    (hself : Tallies ⟨lock, (s.heap e).users - 1⟩ (s.calls.set c .ended) k e) :
    Inv (put c ((s.setEntry e { s.heap e with lock }).exit c k e)) := by
  have hx := h.filed _ (List.mem_of_getElem? hc) (k, e) hp
  have hothers : ∀ y ∈ s.entries, y ≠ (k, e) → Tallies (s.heap y.2) (s.calls.set c .ended) y.1 y.2 := fun y hy hne =>
    (h.tallies y hy).move hc (by rw [hp]; exact fun heq => hne (Option.some.inj heq).symm) (by intro heq; cases heq)
  have hsettled : ∀ q ∈ s.calls.set c .ended, q.atGuard = false := by
    intro q hq
    rcases List.mem_or_eq_of_mem_set hq with hq | rfl
    · exact h.settled q hq
    · rfl
  have hfiled : ∀ q ∈ s.calls.set c .ended, ∀ y, q.uses = some y → y ∈ s.entries := by
    intro q hq y hy
    rcases List.mem_or_eq_of_mem_set hq with hq | rfl
    · exact h.filed q hq y hy
    · cases hy
  have hused : ∀ y ∈ s.entries, y ≠ (k, e) → ∃ q ∈ s.calls.set c .ended, q.uses = some y := by
    intro y hy hne
    obtain ⟨q, hq, hqy⟩ := h.used y hy
    exact ⟨q, mem_set_of_ne hc hq fun heq => hne (by rw [heq, hp] at hqy; exact (Option.some.inj hqy).symm), hqy⟩
  rw [h.exit_eq hx c lock]
  by_cases hzero : (s.heap e).users - 1 = 0
  · rw [if_pos hzero]
    have hnobody : ∀ q ∈ s.calls.set c .ended, q.uses ≠ some (k, e) := by
      have hcount := hself.users.symm.trans hzero
      intro q hq huses
      exact absurd (List.countP_eq_zero.1 (Int.ofNat.inj hcount) q hq) (by rw [decide_eq_true huses]; exact fun h => h rfl)
    have hmem : ∀ y, y ∈ s.entries.filter (fun x => decide (x.1 ≠ k)) ↔ y ∈ s.entries ∧ y ≠ (k, e) := by
      intro y
      rw [List.mem_filter, decide_eq_true_iff]
      exact and_congr_right fun hy => not_congr ⟨fun heq => h.eq_of_key hy hx heq, fun heq => by rw [heq]⟩
    exact {
      guard := h.guard
      settled := hsettled
      keys := (List.Sublist.map _ List.filter_sublist).nodup h.keys
      numbers := (List.Sublist.map _ List.filter_sublist).nodup h.numbers
      made := fun y hy => h.made y ((hmem y).1 hy).1
      size := (List.length_filter_le _ _).trans h.size
      filed := fun q hq y hy => (hmem y).2 ⟨hfiled q hq y hy, fun heq => hnobody q hq (by rw [hy, heq])⟩
      used := fun y hy => hused y ((hmem y).1 hy).1 ((hmem y).1 hy).2
      tallies := fun y hy => by
        obtain ⟨hy, hne⟩ := (hmem y).1 hy
        unfold setEntry
        dsimp only
        rw [Function.update_of_ne fun heq => hne (h.eq_of_number hy hx heq)]
        exact hothers y hy hne }
  · rw [if_neg hzero]
    refine h.rework hx hself hsettled hothers hfiled fun y hy => ?_
    by_cases hye : y = (k, e)
    · have hcount : (s.calls.set c .ended).countP (fun p => decide (p.uses = some (k, e))) ≠ 0 := fun hcount =>
        hzero (hself.users.trans (by rw [hcount]; rfl))
      obtain ⟨q, hq, huses⟩ := List.countP_pos_iff.1 (Nat.pos_of_ne_zero hcount)
      exact ⟨q, hq, by rw [hye]; exact of_decide_eq_true huses⟩
    · exact hused y hy hye

/-- A call of `hold` finds the entry of its key, is refused, or makes an entry. -/
theorem Inv.enter_cases (h : s.Inv) (key : K) :
    (∃ e, (key, e) ∈ s.entries ∧ s.enter key =
      { (s.acquire s.calls.length key e).1 with calls := s.calls ++ [(s.acquire s.calls.length key e).2] }) ∨
    (s.find key = none ∧ s.maxSize ≤ s.entries.length ∧ s.enter key = { s with calls := s.calls ++ [.refused] }) ∨
    (s.find key = none ∧ s.entries.length < s.maxSize ∧ s.enter key = { s.setEntry s.made ⟨⟨true, []⟩, 1⟩ with
      entries := s.entries ++ [(key, s.made)], made := s.made + 1, calls := s.calls ++ [.inside key s.made] }) := by
  obtain ⟨maxSize, entries, guard, heap, made, calls⟩ := s
  obtain rfl : guard = .new := h.guard
  -- the registry's lock is free, and is given back before the call goes on
  have hheld : LockRegistry.enter ⟨maxSize, entries, .new, heap, made, calls⟩ key =
      { (enterHeld ⟨maxSize, entries, ⟨true, []⟩, heap, made, calls⟩ calls.length key).1 with
        calls := calls ++ [(enterHeld ⟨maxSize, entries, ⟨true, []⟩, heap, made, calls⟩ calls.length key).2] } := rfl
  have hfind : ∀ g g', LockRegistry.find ⟨maxSize, entries, g, heap, made, calls⟩ key =
      LockRegistry.find ⟨maxSize, entries, g', heap, made, calls⟩ key := fun _ _ => rfl
  rw [hheld]
  unfold enterHeld
  rw [hfind ⟨true, []⟩ .new]
  cases hentry : LockRegistry.find ⟨maxSize, entries, .new, heap, made, calls⟩ key with
  | some e => exact Or.inl ⟨e, mem_of_find hentry, rfl⟩
  | none =>
    refine Or.inr ?_
    dsimp only
    by_cases hfull : maxSize ≤ entries.length
    · rw [if_pos hfull]
      exact Or.inl ⟨rfl, hfull, rfl⟩
    · rw [if_neg hfull]
      refine Or.inr ⟨rfl, Nat.lt_of_not_le hfull, ?_⟩
      unfold acquire setEntry releaseGuard
      simp only [Function.update_self, Function.update_idem]
      rfl

/-- One step: a task calls, is woken, is cancelled or leaves. -/
theorem Inv.exec (h : s.Inv) (event : Event K) : (s.exec event).Inv ∧ (s.exec event).maxSize = s.maxSize := by
  cases event with
  | enter key =>
    rcases h.enter_cases key with ⟨e, hx, heq⟩ | ⟨-, -, heq⟩ | ⟨hnone, hroom, heq⟩
    · rw [LockRegistry.exec, heq]
      exact ⟨h.join hx, rfl⟩
    · rw [LockRegistry.exec, heq]
      exact ⟨h.come rfl rfl, rfl⟩
    · rw [LockRegistry.exec, heq]
      exact ⟨h.fresh hnone hroom, rfl⟩
  | resume c =>
    rw [LockRegistry.exec, LockRegistry.resume]
    split
    · next key hc => cases h.settled _ (List.mem_of_getElem? hc)
    · next key e hc =>
      split
      · next hwoken => exact ⟨h.resume hc hwoken, rfl⟩
      · exact ⟨h, rfl⟩
    · next key e hc => cases h.settled _ (List.mem_of_getElem? hc)
    · exact ⟨h, rfl⟩
  | cancel c =>
    rw [LockRegistry.exec, LockRegistry.cancel]
    split
    · next key hc => cases h.settled _ (List.mem_of_getElem? hc)
    · next key e hc => cases h.settled _ (List.mem_of_getElem? hc)
    · next key e hc => exact ⟨h.cancel (h.filed _ (List.mem_of_getElem? hc) _ rfl) c, rfl⟩
    · exact ⟨h, rfl⟩
  | deliver c =>
    rw [LockRegistry.exec, LockRegistry.deliver]
    split
    · next key hc => cases h.settled _ (List.mem_of_getElem? hc)
    · next key e hc => cases h.settled _ (List.mem_of_getElem? hc)
    · next key e hc =>
      split
      · have hx := h.filed _ (List.mem_of_getElem? hc) (key, e) rfl
        have htallies := h.tallies _ hx
        refine ⟨h.finish hc rfl (htallies.finish hc rfl (htallies.fair.withdraw c) (fun d => ?_) ?_), ?_⟩
        · rw [AsyncLock.names_withdraw, List.mem_filter, decide_eq_true_iff, ne_comm]
        · rw [AsyncLock.locked_withdraw]
          rfl
        · rw [h.exit_eq hx]
          rfl
      · exact ⟨h, rfl⟩
    · exact ⟨h, rfl⟩
  | leave c =>
    rw [LockRegistry.exec, LockRegistry.leave]
    split
    · next key e hc =>
      have hx := h.filed _ (List.mem_of_getElem? hc) (key, e) rfl
      have htallies := h.tallies _ hx
      obtain ⟨lock, hrelease, hfair, hnames, hfree⟩ := htallies.fair.release (htallies.locked hc)
      rw [hrelease]
      refine ⟨h.finish hc rfl (htallies.finish hc rfl hfair (fun d => ?_) ?_), ?_⟩
      · rw [hnames]
        refine (and_iff_left_of_imp fun hd heq => ?_).symm
        -- a call in its body is no waiter
        rw [htallies.queued, ← heq, hc] at hd
        cases hd
      · rw [hfree, htallies.locked hc, decide_eq_true rfl]
        rfl
      · dsimp only
        rw [h.exit_eq hx]
        rfl
    · exact ⟨h, rfl⟩

end

/-! ## Safety -/

/-- The key that a call is inside of or waits for. -/
def key (p : Position K) : Option K := p.uses.map Prod.fst

/-- What holds between any two steps. -/
structure Sound (maxSize : Nat) (s : LockRegistry K) : Prop where
  /-- No two calls are in the body for the same key. -/
  exclusive : ∀ (k : K) (c d e e' : Nat), s.calls[c]? = some (.inside k e) → s.calls[d]? = some (.inside k e') → c = d
  bounded : s.entries.length ≤ maxSize
  single : (s.entries.map Prod.fst).Nodup
  /-- The count of an entry is the number of calls that are inside or wait for its key. -/
  counted : ∀ x ∈ s.entries, (s.heap x.2).users = (s.calls.countP fun p => decide (key p = some x.1) : Nat)
  /-- A key has an entry exactly while a call is inside or waits for it. -/
  kept : ∀ k, k ∈ s.entries.map Prod.fst ↔ ∃ p ∈ s.calls, key p = some k
  /-- The entry that a call uses is the one under its key. -/
  filed : ∀ p ∈ s.calls, ∀ x, p.uses = some x → x ∈ s.entries
  /-- No call is suspended at the registry's lock, on its way in or in its clean-up. -/
  settled : ∀ p ∈ s.calls, p.atGuard = false

/-- A call is refused only while as many other keys as there may be entries are in use. -/
def Refusal (maxSize : Nat) (s : LockRegistry K) : Event K → Prop
  | .enter k => (s.exec (.enter k)).calls = s.calls ++ [.refused] →
    ∃ keys : List K, keys.Nodup ∧ keys.length = maxSize ∧ k ∉ keys ∧ ∀ k' ∈ keys, ∃ p ∈ s.calls, key p = some k'
  | _ => True

section

variable {s : LockRegistry K}

theorem Inv.key_iff (h : s.Inv) {p : Position K} (hp : p ∈ s.calls) {x : K × Nat} (hx : x ∈ s.entries) :
    key p = some x.1 ↔ p.uses = some x := by
  constructor
  · intro hkey
    obtain ⟨y, huses, hy⟩ := Option.map_eq_some_iff.1 hkey
    rw [huses, h.eq_of_key (h.filed p hp y huses) hx hy]
  · intro huses
    rw [key, huses]
    rfl

theorem Inv.kept (h : s.Inv) (k : K) : k ∈ s.entries.map Prod.fst ↔ ∃ p ∈ s.calls, key p = some k := by
  constructor
  · intro hk
    obtain ⟨x, hx, rfl⟩ := List.mem_map.1 hk
    obtain ⟨p, hp, huses⟩ := h.used x hx
    exact ⟨p, hp, (h.key_iff hp hx).2 huses⟩
  · rintro ⟨p, hp, hkey⟩
    obtain ⟨x, huses, rfl⟩ := Option.map_eq_some_iff.1 hkey
    exact List.mem_map_of_mem (h.filed p hp x huses)

theorem Inv.sound (h : s.Inv) : Sound s.maxSize s where
  exclusive k c d e e' hc hd := by
    have hx := h.filed _ (List.mem_of_getElem? hc) (k, e) rfl
    obtain rfl : e = e' :=
      (Prod.mk.inj (h.eq_of_key hx (h.filed _ (List.mem_of_getElem? hd) (k, e') rfl) rfl)).2
    exact (h.tallies _ hx).exclusive hc hd
  bounded := h.size
  single := h.keys
  counted x hx := by
    rw [(h.tallies x hx).users]
    exact congrArg Nat.cast (List.countP_congr fun p hp => by
      rw [decide_eq_true_iff, decide_eq_true_iff, h.key_iff hp hx])
  kept := h.kept
  filed := h.filed
  settled := h.settled

theorem Inv.refusal (h : s.Inv) (event : Event K) : Refusal s.maxSize s event := by
  cases event with
  | enter k =>
    intro hrefused
    rw [LockRegistry.exec] at hrefused
    rcases h.enter_cases k with ⟨e, -, heq⟩ | ⟨hnone, hfull, -⟩ | ⟨-, -, heq⟩
    · rw [heq] at hrefused
      have hq := List.singleton_inj.1 (List.append_cancel_left hrefused)
      unfold acquire at hq
      dsimp only at hq
      split at hq <;> cases hq
    · refine ⟨_, h.keys, ?_, fun hk => ?_, fun k' hk' => (h.kept k').1 hk'⟩
      · rw [List.length_map]
        exact le_antisymm h.size hfull
      · obtain ⟨x, hx, hxk⟩ := List.mem_map.1 hk
        exact find_eq_none.1 hnone x hx hxk
    · rw [heq] at hrefused
      cases List.singleton_inj.1 (List.append_cancel_left hrefused)
  | resume c => trivial
  | cancel c => trivial
  | deliver c => trivial
  | leave c => trivial

/-- In every run of tasks that enter, are woken, cancelled and leave in any order, at most one is inside for a key, the
entries are those in use, and a task is refused only when the registry is full of other keys that are. -/
theorem keyedLocks_sound (maxSize : Nat) (events : List (Event K)) :
    Throughout exec (Sound maxSize) (new K maxSize) events ∧ Along exec (Refusal maxSize) (new K maxSize) events := by
  have hstep : ∀ (s : LockRegistry K) (event : Event K), s.Inv ∧ s.maxSize = maxSize → True →
      (s.exec event).Inv ∧ (s.exec event).maxSize = maxSize := by
    rintro s event ⟨h, hsize⟩ -
    obtain ⟨hnext, hkept⟩ := h.exec event
    exact ⟨hnext, hkept.trans hsize⟩
  have hstart : (new K maxSize).Inv ∧ (new K maxSize).maxSize = maxSize := ⟨inv_new maxSize, rfl⟩
  constructor
  · exact throughout_of_invariant hstep (fun s h => h.2 ▸ h.1.sound) hstart along_true
  · exact along_of_invariant hstep (fun s event h _ => h.2 ▸ h.1.refusal event) hstart along_true

end

end LockRegistry

end Mesa.Gateway
