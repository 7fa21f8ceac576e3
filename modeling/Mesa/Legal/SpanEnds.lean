/-
`_span_ends`: for each character the furthest end of the spans that start at or before it. One array answers both
whether a span lies in one of many and whether it meets one of them.
-/
import Mathlib.Data.List.GetD
import Mesa.Foundation.Spans

namespace Mesa.Legal

open Mesa.Foundation

/-! ## The array -/

/-- `ends[start] = max(ends[start], end)`. -/
def markEnd (ends : List Nat) (span : Nat × Nat) : List Nat := ends.modify span.1 fun e => max e span.2

/-- The second loop: each entry becomes the largest one so far. -/
def furthestEnds (furthest : Nat) : List Nat → List Nat
  | [] => []
  | e :: ends =>
    let furthest := if furthest < e then e else furthest
    furthest :: furthestEnds furthest ends

/-- `_span_ends`. -/
def spanEnds (length : Nat) (spans : List (Nat × Nat)) : List Nat :=
  let ends := List.replicate (length + 1) 0
  if spans = [] then ends else furthestEnds 0 (spans.foldl markEnd ends)

/-! ## What it holds -/

/-- The furthest end of the spans that start at a position. -/
def endAt : List (Nat × Nat) → Nat → Nat
  | [], _ => 0
  | s :: spans, i => if s.1 = i then max s.2 (endAt spans i) else endAt spans i

theorem length_foldl_markEnd (spans : List (Nat × Nat)) (ends : List Nat) :
    (spans.foldl markEnd ends).length = ends.length := by
  induction spans generalizing ends with
  | nil => rfl
  | cons s spans ih => rw [List.foldl_cons, ih, markEnd, List.length_modify]

section

variable {spans : List (Nat × Nat)} {ends : List Nat} {i : Nat}

theorem getD_markEnd (ends : List Nat) (s : Nat × Nat) (i : Nat) :
    (markEnd ends s).getD i 0 = if s.1 = i ∧ i < ends.length then max (ends.getD i 0) s.2 else ends.getD i 0 := by
  unfold markEnd
  rw [List.getD_eq_getElem?_getD, List.getElem?_modify, List.getD_eq_getElem?_getD]
  by_cases hi : i < ends.length
  · rw [List.getElem?_eq_getElem hi]
    by_cases hs : s.1 = i
    · rw [if_pos ⟨hs, hi⟩]
      simp [hs]
    · rw [if_neg fun h => hs h.1]
      simp [hs]
  · rw [List.getElem?_eq_none (not_lt.1 hi), if_neg fun h => hi h.2]
    rfl

/-- The first loop leaves at each position the furthest end of the spans that start there. -/
theorem getD_foldl_markEnd (hi : i < ends.length) :
    (spans.foldl markEnd ends).getD i 0 = max (ends.getD i 0) (endAt spans i) := by
  induction spans generalizing ends with
  | nil => exact (Nat.max_zero _).symm
  | cons s spans ih =>
    have hlength : i < (markEnd ends s).length := by rwa [markEnd, List.length_modify]
    rw [List.foldl_cons, ih hlength, getD_markEnd, endAt]
    by_cases hs : s.1 = i
    · rw [if_pos ⟨hs, hi⟩, if_pos hs, max_assoc]
    · rw [if_neg fun h => hs h.1, if_neg hs]

/-- The second loop leaves the largest entry up to each position. -/
theorem getD_furthestEnds (furthest : Nat) (hi : i < ends.length) :
    (furthestEnds furthest ends).getD i 0 = ((ends.take (i + 1)).foldr max furthest) := by
  induction ends generalizing furthest i with
  | nil => exact absurd hi (Nat.not_lt_zero i)
  | cons e ends ih =>
    have hmax : (if furthest < e then e else furthest) = max e furthest := by
      split <;> omega
    rw [furthestEnds, hmax]
    cases i with
    | zero => rfl
    | succ i =>
      rw [List.getD_cons_succ, ih _ (Nat.lt_of_succ_lt_succ hi), List.take_succ_cons, List.foldr_cons]
      induction ends.take (i + 1) with
      | nil => rfl
      | cons x xs ihx => rw [List.foldr_cons, List.foldr_cons, ihx, max_left_comm]

theorem lt_foldr_max {l : List Nat} {k : Nat} : k < l.foldr max 0 ↔ ∃ x ∈ l, k < x := by
  induction l with
  | nil => exact iff_of_false (Nat.not_lt_zero k) fun ⟨x, hx, _⟩ => by cases hx
  | cons x l ih => rw [List.foldr_cons, lt_max_iff, ih, List.exists_mem_cons_iff]

theorem lt_endAt_iff {k : Nat} : k < endAt spans i ↔ ∃ s ∈ spans, s.1 = i ∧ k < s.2 := by
  induction spans with
  | nil => exact iff_of_false (Nat.not_lt_zero k) fun ⟨s, hs, _⟩ => by cases hs
  | cons s spans ih =>
    rw [endAt, List.exists_mem_cons_iff, ← ih]
    split
    · next h => rw [lt_max_iff, and_iff_right h]
    · next h => exact ⟨Or.inr, fun hor => hor.resolve_left fun hs => h hs.1⟩

/-- Each entry of the array is the reach of the spans. -/
theorem getD_spanEnds {length : Nat} (hi : i ≤ length) : (spanEnds length spans).getD i 0 = reach spans i := by
  have hlength : (spans.foldl markEnd (List.replicate (length + 1) 0)).length = length + 1 := by
    rw [length_foldl_markEnd, List.length_replicate]
  have hmarked : ∀ j, j ≤ length →
      (spans.foldl markEnd (List.replicate (length + 1) 0)).getD j 0 = endAt spans j := by
    intro j hj
    have hzero : (List.replicate (length + 1) 0).getD j 0 = 0 := by
      rw [List.getD_eq_getElem?_getD, List.getElem?_replicate]
      split <;> rfl
    rw [getD_foldl_markEnd (by rw [List.length_replicate]; omega), hzero, Nat.zero_max]
  unfold spanEnds
  dsimp only
  split
  · next hnil =>
    subst hnil
    rw [List.getD_eq_getElem?_getD, List.getElem?_replicate]
    split <;> rfl
  · rw [getD_furthestEnds 0 (by rw [hlength]; omega)]
    refine Nat.le_antisymm (Nat.le_of_not_lt fun hlt => ?_) (Nat.le_of_not_lt fun hlt => ?_)
    · obtain ⟨x, hx, hk⟩ := lt_foldr_max.1 hlt
      obtain ⟨j, hj, hx⟩ := List.mem_iff_getElem.1 hx
      rw [List.length_take, hlength] at hj
      have hget := hmarked j (by omega)
      rw [List.getElem_take, ← List.getD_eq_getElem _ 0] at hx
      rw [← hx, hget] at hk
      obtain ⟨s, hs, hstart, hstop⟩ := lt_endAt_iff.1 hk
      exact Nat.lt_irrefl _ (lt_reach_iff.2 ⟨s, hs, by omega, hstop⟩)
    · obtain ⟨s, hs, hstart, hstop⟩ := lt_reach_iff.1 hlt
      have hk := lt_endAt_iff.2 ⟨s, hs, rfl, hstop⟩
      rw [← hmarked s.1 (by omega)] at hk
      have hbound : s.1 < (spans.foldl markEnd (List.replicate (length + 1) 0)).length := by omega
      rw [List.getD_eq_getElem _ 0 hbound] at hk
      refine Nat.lt_irrefl _ (lt_foldr_max.2 ⟨_, ?_, hk⟩)
      exact List.mem_take_iff_getElem.2 ⟨s.1, by omega, rfl⟩

end

/-! ## Queries -/

/-- The array answers exactly whether a span of the text lies in one of the spans, and whether it meets one. -/
theorem spanEnds_queries {n : Nat} (spans : List (Extent n)) (q : Extent n) :
    (q.stop ≤ (spanEnds n (spans.map Extent.pair)).getD q.start 0 ↔ ∃ a ∈ spans, a.Contains q) ∧
      ((spanEnds n (spans.map Extent.pair)).getD (q.stop - 1) 0 > q.start ↔ ∃ a ∈ spans, a.Meets q) := by
  have hproper := q.proper
  have hinside := q.inside
  rw [getD_spanEnds (by omega), getD_spanEnds (by omega)]
  exact ⟨exists_contains_iff.symm, exists_meets_iff.symm⟩

end Mesa.Legal
