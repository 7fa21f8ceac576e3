/-
Half-open spans of positions, and how far the spans that begin up to a position reach: whether a span of a list contains
a span, or meets it, is a comparison with that reach.
-/
import Mathlib.Data.List.MinMax
import Mathlib.Tactic

namespace Mesa.Foundation

/-! ## Spans -/

/-- A nonempty span of positions of something of length `n`. -/
structure Extent (n : Nat) where
  start : Nat
  stop : Nat
  proper : start < stop
  inside : stop ≤ n
deriving DecidableEq

namespace Extent

variable {n : Nat}

/-- The span as a pair. -/
def pair (s : Extent n) : Nat × Nat := (s.start, s.stop)

def Contains (a q : Extent n) : Prop := a.start ≤ q.start ∧ q.stop ≤ a.stop

def Meets (a q : Extent n) : Prop := a.start < q.stop ∧ q.start < a.stop

end Extent

/-! ## Reach -/

/-- The furthest end of the spans that begin at or before a position, `0` without any. -/
def reach : List (Nat × Nat) → Nat → Nat
  | [], _ => 0
  | s :: spans, i => if s.1 ≤ i then max s.2 (reach spans i) else reach spans i

section

variable {spans : List (Nat × Nat)} {i k : Nat}

/-- A position lies before the reach exactly if a span that begins early enough ends after it. -/
theorem lt_reach_iff : k < reach spans i ↔ ∃ s ∈ spans, s.1 ≤ i ∧ k < s.2 := by
  induction spans with
  | nil => exact iff_of_false (Nat.not_lt_zero k) fun ⟨s, hs, _⟩ => by cases hs
  | cons s spans ih =>
    rw [reach, List.exists_mem_cons_iff, ← ih]
    split
    · next h => rw [lt_max_iff, and_iff_right h]
    · next h => exact ⟨Or.inr, fun hor => hor.resolve_left fun hs => h hs.1⟩

theorem le_reach_iff (hk : 0 < k) : k ≤ reach spans i ↔ ∃ s ∈ spans, s.1 ≤ i ∧ k ≤ s.2 := by
  obtain ⟨j, rfl⟩ := Nat.exists_eq_succ_of_ne_zero hk.ne'
  exact lt_reach_iff

end

section

variable {n : Nat} {spans : List (Extent n)} {q : Extent n}

/-- A span is contained in one of the list exactly if the reach at its start gets to its end. -/
theorem exists_contains_iff : (∃ a ∈ spans, a.Contains q) ↔ q.stop ≤ reach (spans.map Extent.pair) q.start := by
  rw [le_reach_iff (Nat.zero_lt_of_lt q.proper)]
  simp only [List.mem_map, exists_exists_and_eq_and]
  rfl

/-- A span meets one of the list exactly if the reach at its last position gets past its start. -/
theorem exists_meets_iff : (∃ a ∈ spans, a.Meets q) ↔ q.start < reach (spans.map Extent.pair) (q.stop - 1) := by
  rw [lt_reach_iff]
  simp only [List.mem_map, exists_exists_and_eq_and]
  refine exists_congr fun a => and_congr_right fun _ => and_congr_left fun _ => ?_
  have hproper := q.proper
  show a.start < q.stop ↔ a.start ≤ q.stop - 1
  omega

end

end Mesa.Foundation
