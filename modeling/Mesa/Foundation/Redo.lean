/-
Logs whose writes may be redone. A writer that crashes applies an earlier part of the log again; the
log is redoable when that leaves what was there.
-/
import Mathlib.Tactic

namespace Mesa.Foundation

variable {τ ω : Type} (act : τ → ω → τ)

/-- A write changes nothing when it comes twice, and where it changes nothing it still changes
nothing after a later write of the log. -/
structure Redoable (log : List ω) : Prop where
  idempotent : ∀ w ∈ log, ∀ t, act (act t w) w = act t w
  settled : log.Pairwise fun w w' => ∀ t, act t w = t → act (act t w') w = act t w'

/-- The first `k` writes of a log, from a state. -/
def applied (log : List ω) (t : τ) (k : Nat) : τ := (log.take k).foldl act t

variable {act} {log : List ω} {t : τ} {w : ω} {p k : Nat}

theorem applied_zero : applied act log t 0 = t := by simp [applied]

theorem applied_succ (hw : log[k]? = some w) : applied act log t (k + 1) = act (applied act log t k) w := by
  unfold applied
  rw [List.take_add_one, hw, Option.toList_some, List.foldl_append]
  rfl

/-- What has been applied is settled. -/
theorem Redoable.absorbed (h : Redoable act log) (hw : w ∈ log.take k) :
    act (applied act log t k) w = applied act log t k := by
  induction k with
  | zero => simp at hw
  | succ k ih =>
    rcases hk : log[k]? with _ | v
    · -- the log has ended
      have htake : log.take (k + 1) = log.take k := by rw [List.take_add_one, hk]; simp
      unfold applied
      rw [htake] at hw ⊢
      exact ih hw
    · rw [applied_succ hk]
      have hlt : k < log.length := (List.getElem?_eq_some_iff.1 hk).1
      have hget : log[k] = v := (List.getElem?_eq_some_iff.1 hk).2
      rw [List.take_add_one, hk, Option.toList_some, List.mem_append, List.mem_singleton] at hw
      rcases hw with hw | rfl
      · obtain ⟨i, hi, rfl⟩ := List.getElem_of_mem hw
        rw [List.length_take] at hi
        have hpair := List.pairwise_iff_getElem.1 h.settled i k (by omega) hlt (by omega)
        rw [List.getElem_take] at hw ih ⊢
        rw [hget] at hpair
        exact hpair _ (ih hw)
      · exact h.idempotent w (hget ▸ List.getElem_mem hlt) _

/-- The next write of a part of the log that was already applied up to `k`. -/
theorem Redoable.redo (h : Redoable act log) (hpk : p ≤ k) (hw : log[p]? = some w) :
    act (applied act log t k) w = applied act log t (max k (p + 1)) := by
  rcases hpk.lt_or_eq with hlt | rfl
  · rw [max_eq_left hlt]
    refine h.absorbed (List.mem_take_iff_getElem.2 ⟨p, ?_, (List.getElem?_eq_some_iff.1 hw).2⟩)
    have hp := (List.getElem?_eq_some_iff.1 hw).1
    omega
  · rw [max_eq_right (by omega), applied_succ hw]

/-- A piece of the log at a position: its first write, and the rest. -/
theorem prefix_drop_cons {ws : List ω} (h : w :: ws <+: log.drop p) : log[p]? = some w ∧ ws <+: log.drop (p + 1) := by
  obtain ⟨rest, hrest⟩ := h
  refine ⟨?_, rest, ?_⟩
  · rw [← List.head?_drop, ← hrest]
    rfl
  · rw [← List.drop_drop, ← hrest]
    rfl

/-- A piece of the log that was already applied up to `k`, redone at once. -/
theorem Redoable.redo_all (h : Redoable act log) : ∀ {ws : List ω} {p k : Nat}, p ≤ k → ws <+: log.drop p →
    ws.foldl act (applied act log t k) = applied act log t (max k (p + ws.length))
  | [], p, k, hpk, _ => by rw [List.length_nil, Nat.add_zero, max_eq_left hpk]; rfl
  | w :: ws, p, k, hpk, hws => by
    obtain ⟨hw, hws⟩ := prefix_drop_cons hws
    rw [List.foldl_cons, h.redo hpk hw, h.redo_all (le_max_right ..) hws, List.length_cons]
    congr 1
    omega

end Mesa.Foundation
