/-
The mutual exclusion lock of an event loop. A caller that cannot have the lock at once joins the waiters; a release wakes
the first of them, which takes the lock when it runs again; a waiter whose cancellation is delivered passes a wake on.
Only the first waiter is ever woken, and while it is the lock is free and nobody else takes it.
-/
import Mathlib.Tactic

namespace Mesa.Foundation

inductive Waiter
  | pending | woken | cancelled
  deriving DecidableEq

structure AsyncLock (T : Type) where
  locked : Bool
  waiters : List (T × Waiter)

namespace AsyncLock

variable {T : Type} [DecidableEq T]

def new : AsyncLock T := ⟨false, []⟩

/-- Whether a caller gets the lock without waiting. -/
def free (l : AsyncLock T) : Bool := !l.locked && l.waiters.all fun w => decide (w.2 = .cancelled)

/-- The waiters, in order. -/
def names (l : AsyncLock T) : List T := l.waiters.map Prod.fst

/-- The state of a waiter. -/
def waiter (l : AsyncLock T) (t : T) : Option Waiter := (l.waiters.find? fun w => decide (w.1 = t)).map Prod.snd

/-- `acquire` up to its first suspension: the lock itself, or a place among the waiters. -/
def acquire (l : AsyncLock T) (t : T) : AsyncLock T × Bool :=
  if l.free then ({ l with locked := true }, true) else ({ l with waiters := l.waiters ++ [(t, .pending)] }, false)

/-- `_wake_up_first`. -/
def wakeFirst (l : AsyncLock T) : AsyncLock T :=
  match l.waiters with
  | (t, .pending) :: rest => { l with waiters := (t, .woken) :: rest }
  | _ => l

/-- `release`; one of a lock that is not held raises. -/
def release (l : AsyncLock T) : Option (AsyncLock T) := if l.locked then some (wakeFirst { l with locked := false }) else none

/-- The rest of `acquire` for a waiter that was woken. -/
def resume (l : AsyncLock T) (t : T) : AsyncLock T :=
  { locked := true, waiters := l.waiters.filter fun w => decide (w.1 ≠ t) }

/-- A waiter's task is cancelled; one that was woken already finds out when it runs. -/
def cancel (l : AsyncLock T) (t : T) : AsyncLock T :=
  { l with waiters := l.waiters.map fun w => if w.1 = t ∧ w.2 = .pending then (t, .cancelled) else w }

/-- The rest of `acquire` for a waiter whose cancellation is delivered. -/
def withdraw (l : AsyncLock T) (t : T) : AsyncLock T :=
  let l := { l with waiters := l.waiters.filter fun w => decide (w.1 ≠ t) }
  if l.locked then l else l.wakeFirst

/-! ## Waking -/

/-- Every waiter once; none but the first is woken, and that only while the lock is free. -/
structure Fair (l : AsyncLock T) : Prop where
  distinct : l.names.Nodup
  rest : ∀ w ∈ l.waiters.tail, w.2 ≠ .woken
  first : ∀ w ∈ l.waiters.head?, w.2 = .woken → l.locked = false

section

variable {l : AsyncLock T} {t u : T}

omit [DecidableEq T] in
theorem fair_new : (new : AsyncLock T).Fair :=
  ⟨List.nodup_nil, fun _ h => absurd h List.not_mem_nil, fun _ h => by cases h⟩

omit [DecidableEq T] in
@[simp] theorem names_wakeFirst (l : AsyncLock T) : l.wakeFirst.names = l.names := by
  unfold wakeFirst names
  split
  · next heq => rw [heq]; rfl
  · rfl

omit [DecidableEq T] in
@[simp] theorem locked_wakeFirst (l : AsyncLock T) : l.wakeFirst.locked = l.locked := by
  unfold wakeFirst
  split <;> rfl

omit [DecidableEq T] in
theorem release_of_locked (h : l.locked = true) : l.release = some (wakeFirst { l with locked := false }) := if_pos h

theorem filter_waiters (ws : List (T × Waiter)) (t : T) :
    (ws.filter fun w => decide (w.1 ≠ t)).map Prod.fst = (ws.map Prod.fst).filter fun u => decide (u ≠ t) := by
  rw [List.filter_map]
  rfl

@[simp] theorem names_resume (l : AsyncLock T) (t : T) : (l.resume t).names = l.names.filter fun u => decide (u ≠ t) :=
  filter_waiters l.waiters t

@[simp] theorem locked_resume (l : AsyncLock T) (t : T) : (l.resume t).locked = true := rfl

@[simp] theorem names_withdraw (l : AsyncLock T) (t : T) : (l.withdraw t).names = l.names.filter fun u => decide (u ≠ t) := by
  unfold withdraw
  dsimp only
  split
  · exact filter_waiters l.waiters t
  · rw [names_wakeFirst]
    exact filter_waiters l.waiters t

@[simp] theorem locked_withdraw (l : AsyncLock T) (t : T) : (l.withdraw t).locked = l.locked := by
  unfold withdraw
  dsimp only
  split
  · rfl
  · exact locked_wakeFirst _

@[simp] theorem names_cancel (l : AsyncLock T) (t : T) : (l.cancel t).names = l.names := by
  unfold cancel names
  rw [List.map_map]
  refine List.map_congr_left fun w _ => ?_
  by_cases h : w.1 = t ∧ w.2 = .pending
  · simp [h]
  · simp [h]

theorem mem_of_waiter {w : Waiter} (h : l.waiter t = some w) : (t, w) ∈ l.waiters := by
  obtain ⟨⟨u, v⟩, hfind, rfl⟩ := Option.map_eq_some_iff.1 h
  have hu : u = t := of_decide_eq_true (List.find?_some (p := fun w : T × Waiter => decide (w.1 = t)) hfind)
  exact hu ▸ List.mem_of_find?_eq_some hfind

omit [DecidableEq T] in
/-- A caller either gets a lock that is not held and at which nobody is woken, or joins the waiters. -/
theorem acquire_cases (l : AsyncLock T) (t : T) :
    (l.acquire t = (⟨true, l.waiters⟩, true) ∧ l.locked = false ∧ ∀ w ∈ l.waiters, w.2 = .cancelled) ∨
      l.acquire t = (⟨l.locked, l.waiters ++ [(t, .pending)]⟩, false) := by
  unfold acquire
  by_cases hfree : l.free = true
  · rw [if_pos hfree]
    unfold free at hfree
    rw [Bool.and_eq_true, Bool.not_eq_true', List.all_eq_true] at hfree
    exact Or.inl ⟨rfl, hfree.1, fun w hw => of_decide_eq_true (hfree.2 w hw)⟩
  · rw [if_neg hfree]
    exact Or.inr rfl

omit [DecidableEq T] in
theorem Fair.acquire (h : l.Fair) (ht : t ∉ l.names) : (l.acquire t).1.Fair := by
  rcases acquire_cases l t with ⟨heq, -, hcancelled⟩ | heq
  · rw [heq]
    refine ⟨h.distinct, h.rest, fun w hw hwoken => ?_⟩
    rw [hcancelled w (List.mem_of_head? hw)] at hwoken
    cases hwoken
  · rw [heq]
    refine ⟨?_, ?_, ?_⟩
    · unfold names
      rw [List.map_append]
      exact List.nodup_append_comm.1 (List.nodup_cons.2 ⟨ht, h.distinct⟩)
    · dsimp only
      cases hw : l.waiters with
      | nil => exact fun _ hw => absurd hw List.not_mem_nil
      | cons v ws =>
        intro w hmem
        rw [List.cons_append, List.tail_cons] at hmem
        rcases List.mem_append.1 hmem with hmem | hmem
        · exact h.rest w (by rw [hw]; exact hmem)
        · rw [List.mem_singleton.1 hmem]
          intro hwoken
          cases hwoken
    · dsimp only
      cases hw : l.waiters with
      | nil =>
        intro w hmem hwoken
        obtain rfl := Option.some.inj hmem
        cases hwoken
      | cons v ws =>
        intro w hmem
        exact h.first w (by rw [hw]; exact hmem)

omit [DecidableEq T] in
theorem Fair.wakeFirst (h : l.Fair) (hfree : l.locked = false) : l.wakeFirst.Fair := by
  refine ⟨?_, ?_, fun _ _ _ => ?_⟩
  · rw [names_wakeFirst]
    exact h.distinct
  · unfold AsyncLock.wakeFirst
    split
    · next t ws heq =>
      intro w hw
      exact h.rest w (by rw [heq]; exact hw)
    · exact h.rest
  · rw [locked_wakeFirst]
    exact hfree

omit [DecidableEq T] in
/-- The holder of a lock can release it, and then it is not held. -/
theorem Fair.release (h : l.Fair) (hlocked : l.locked = true) :
    ∃ l', l.release = some l' ∧ l'.Fair ∧ l'.names = l.names ∧ l'.locked = false :=
  ⟨_, release_of_locked hlocked, Fair.wakeFirst (l := { l with locked := false }) ⟨h.distinct, h.rest, fun _ _ _ => rfl⟩ rfl,
    names_wakeFirst _, locked_wakeFirst _⟩

/-- Without a waiter, the others are as they were; without the first one nobody is woken. -/
theorem tail_filter (t : T) {ws : List (T × Waiter)} {w : T × Waiter}
    (hw : w ∈ (ws.filter fun w => decide (w.1 ≠ t)).tail) : w ∈ ws.tail := by
  cases ws with
  | nil => cases hw
  | cons v ws =>
    rw [List.filter_cons] at hw
    split at hw
    · exact (List.mem_filter.1 hw).1
    · exact (List.mem_filter.1 (List.mem_of_mem_tail hw)).1

/-- The first of the waiters takes the lock. -/
theorem Fair.resume (h : l.Fair) (ht : l.waiter t = some .woken) : (l.resume t).Fair ∧ l.locked = false := by
  have hmem := mem_of_waiter ht
  cases hws : l.waiters with
  | nil =>
    rw [hws] at hmem
    cases hmem
  | cons v ws =>
    have hrest : ∀ w ∈ ws, w.2 ≠ .woken := fun w hw => h.rest w (by rw [hws]; exact hw)
    have hv : v = (t, .woken) := by
      rw [hws] at hmem
      rcases List.mem_cons.1 hmem with heq | hmem
      · exact heq.symm
      · exact absurd rfl (hrest _ hmem)
    have hnone : ∀ w ∈ (l.resume t).waiters, w.2 ≠ .woken := by
      intro w hw
      obtain ⟨hw, hne⟩ := List.mem_filter.1 hw
      rw [hws] at hw
      rcases List.mem_cons.1 hw with rfl | hw
      · rw [hv] at hne
        exact absurd rfl (of_decide_eq_true hne)
      · exact hrest w hw
    refine ⟨⟨?_, fun w hw => hnone w (List.mem_of_mem_tail hw), fun w hw hwoken => ?_⟩, ?_⟩
    · rw [names_resume]
      exact h.distinct.filter _
    · exact absurd hwoken (hnone w (List.mem_of_head? hw))
    · exact h.first v (by rw [hws]; rfl) (by rw [hv])

theorem Fair.cancel (h : l.Fair) (t : T) : (l.cancel t).Fair := by
  have hwoken : ∀ w : T × Waiter, (if w.1 = t ∧ w.2 = .pending then (t, .cancelled) else w).2 = .woken → w.2 = .woken := by
    intro w
    split
    · intro hw
      cases hw
    · exact fun hw => hw
  refine ⟨?_, ?_, ?_⟩
  · rw [names_cancel]
    exact h.distinct
  · intro w hw
    unfold AsyncLock.cancel at hw
    dsimp only at hw
    rw [← List.map_tail] at hw
    obtain ⟨v, hv, rfl⟩ := List.mem_map.1 hw
    exact fun hwoken' => h.rest v hv (hwoken v hwoken')
  · intro w hw hwoken'
    unfold AsyncLock.cancel at hw
    dsimp only at hw
    rw [List.head?_map] at hw
    obtain ⟨v, hv, rfl⟩ := Option.map_eq_some_iff.1 hw
    exact h.first v hv (hwoken v hwoken')

theorem Fair.withdraw (h : l.Fair) (t : T) : (l.withdraw t).Fair := by
  have hrest : ∀ w ∈ (l.waiters.filter fun w => decide (w.1 ≠ t)).tail, w.2 ≠ .woken := fun w hw =>
    h.rest w (tail_filter t hw)
  have hdistinct : ((l.waiters.filter fun w => decide (w.1 ≠ t)).map Prod.fst).Nodup := by
    rw [filter_waiters]
    exact h.distinct.filter _
  unfold AsyncLock.withdraw
  dsimp only
  by_cases hlocked : l.locked = true
  · rw [if_pos hlocked]
    refine ⟨hdistinct, hrest, fun w hw hwoken => ?_⟩
    -- while the lock is held nobody is woken, the first waiter included
    have hnone : ∀ v ∈ l.waiters, v.2 ≠ .woken := by
      intro v hv
      cases hws : l.waiters with
      | nil =>
        rw [hws] at hv
        cases hv
      | cons u us =>
        rw [hws] at hv
        rcases List.mem_cons.1 hv with rfl | hv
        · intro hwoken
          have hfree := h.first v (by rw [hws]; rfl) hwoken
          rw [hlocked] at hfree
          cases hfree
        · exact h.rest v (by rw [hws]; exact hv)
    exact absurd hwoken (hnone w (List.mem_filter.1 (List.mem_of_head? hw)).1)
  · rw [Bool.not_eq_true] at hlocked
    rw [if_neg (by rw [hlocked]; exact Bool.false_ne_true)]
    exact Fair.wakeFirst (l := { l with waiters := l.waiters.filter fun w => decide (w.1 ≠ t) })
      ⟨hdistinct, hrest, fun _ _ _ => hlocked⟩ hlocked

end

end AsyncLock

end Mesa.Foundation
