/-
Pieces joined by a separator, where all but the last one are not empty. A separator inside of a piece
can stand for a join unless one side of it would be empty; the pieces are determined by what they join
to exactly when none can.
-/
import Mathlib.Tactic

namespace Mesa.Foundation

variable {α : Type} (sep : α)

/-- The pieces after the first: of a separator inside of a piece nothing is on either side, and the
last piece has none. -/
def FirmRest : List (List α) → Prop
  | [] => True
  | [p] => sep ∉ p
  | p :: q :: ps => (∀ u v, p = u ++ sep :: v → u = [] ∧ v = []) ∧ FirmRest (q :: ps)

/-- No separator inside of a piece can stand for a join. The first piece has no neighbour on the left. -/
def Firm : List (List α) → Prop
  | [] => True
  | [p] => sep ∉ p
  | p :: q :: ps => (∀ u v, p = u ++ sep :: v → u = []) ∧ FirmRest sep (q :: ps)

/-- All pieces but the last are not empty. -/
def Filled : List (List α) → Prop
  | p :: q :: ps => p ≠ [] ∧ Filled (q :: ps)
  | _ => True

variable {sep}

/-- Two cuts of one list at a separator: the same cut, or one after the other. -/
theorem cut_cases {a b x y : List α} (h : a ++ sep :: x = b ++ sep :: y) : (a = b ∧ x = y) ∨
    (∃ w, b = a ++ sep :: w ∧ x = w ++ sep :: y) ∨ ∃ w, a = b ++ sep :: w ∧ y = w ++ sep :: x := by
  rcases List.append_eq_append_iff.1 h with ⟨w, hw, hrest⟩ | ⟨w, hw, hrest⟩ <;> cases w with
  | nil =>
    rw [List.append_nil] at hw
    rw [List.nil_append, List.cons_eq_cons] at hrest
    first
    | exact .inl ⟨hw.symm, hrest.2⟩
    | exact .inl ⟨hw, hrest.2.symm⟩
  | cons c w =>
    rw [List.cons_append, List.cons_eq_cons] at hrest
    obtain ⟨rfl, hrest⟩ := hrest
    first
    | exact .inr (.inl ⟨w, hw, hrest⟩)
    | exact .inr (.inr ⟨w, hw, hrest⟩)

theorem intercalate_cons (p q : List α) (ps : List (List α)) :
    [sep].intercalate (p :: q :: ps) = p ++ sep :: [sep].intercalate (q :: ps) := by
  rw [List.intercalate_cons_cons, List.append_assoc]
  rfl

/-- Firm pieces after the others have fallen behind by `e`. -/
theorem firmRest_unique : ∀ {ps qs : List (List α)} {e : List α}, FirmRest sep ps → Filled qs → ps.length = qs.length →
    (e = [] ∨ ∃ e', e = e' ++ [sep]) → [sep].intercalate ps = e ++ [sep].intercalate qs → e = [] ∧ ps = qs
  | [], [], _, _, _, _, _, h => by simpa using h
  | [p], [q], e, hfirm, _, _, he, h => by
    rw [List.intercalate_singleton, List.intercalate_singleton] at h
    rcases he with rfl | ⟨e', rfl⟩
    · exact ⟨rfl, by rw [h, List.nil_append]⟩
    · exact absurd (by rw [h]; simp) hfirm
  | p :: p' :: ps, q :: q' :: qs, e, ⟨hp, hfirm⟩, ⟨hq, hfilled⟩, hlen, he, h => by
    rw [intercalate_cons, intercalate_cons, ← List.append_assoc] at h
    have hlen' : (p' :: ps).length = (q' :: qs).length := Nat.succ.inj hlen
    rcases cut_cases h with ⟨hsame, hrest⟩ | ⟨w, -, hrest⟩ | ⟨w, hlater, -⟩
    · obtain ⟨-, hpieces⟩ := firmRest_unique hfirm hfilled hlen' (.inl rfl) hrest
      rcases he with rfl | ⟨e', rfl⟩
      · exact ⟨rfl, by rw [hsame, hpieces, List.nil_append]⟩
      · exact absurd (hp e' q (by rw [hsame]; simp)).2 hq
    · -- the others are still behind after this join
      have hbehind := firmRest_unique (e := w ++ [sep]) hfirm hfilled hlen' (.inr ⟨w, rfl⟩) (by rw [hrest]; simp)
      exact absurd hbehind.1 (by simp)
    · exact absurd (hp _ _ hlater).1 (by simp [hq])

/-- Firm pieces are determined by what they join to. -/
theorem Firm.unique : ∀ {ps qs : List (List α)}, Firm sep ps → Filled qs → ps.length = qs.length →
    [sep].intercalate ps = [sep].intercalate qs → ps = qs
  | [], [], _, _, _, _ => rfl
  | [p], [q], _, _, _, h => by simpa using h
  | p :: p' :: ps, q :: q' :: qs, ⟨hp, hrest⟩, ⟨hq, hfilled⟩, hlen, h => by
    have hlen' : (p' :: ps).length = (q' :: qs).length := Nat.succ.inj hlen
    rw [intercalate_cons, intercalate_cons] at h
    rcases cut_cases h with ⟨hsame, hjoin⟩ | ⟨w, -, hjoin⟩ | ⟨w, hlater, -⟩
    · rw [hsame, (firmRest_unique (e := []) hrest hfilled hlen' (.inl rfl) hjoin).2]
    · have hbehind := firmRest_unique (e := w ++ [sep]) hrest hfilled hlen' (.inr ⟨w, rfl⟩) (by rw [hjoin]; simp)
      exact absurd hbehind.1 (by simp)
    · exact absurd (hp _ _ hlater) hq

/-! ## Pieces that are not firm -/

/-- Other pieces that join to the same: of the same number, and filled. -/
structure Shifted (sep : α) (ps qs : List (List α)) : Prop where
  length : qs.length = ps.length
  filled : Filled qs
  join : [sep].intercalate qs = [sep].intercalate ps
  ne : qs ≠ ps

theorem Shifted.cons {p a : List α} {ps qs : List (List α)} (h : Shifted sep (a :: ps) qs) (hp : p ≠ []) :
    Shifted sep (p :: a :: ps) (p :: qs) := by
  obtain ⟨b, qs, rfl⟩ : ∃ b rest, qs = b :: rest := by
    cases qs with
    | nil => exact absurd h.length (by simp)
    | cons b rest => exact ⟨b, rest, rfl⟩
  refine ⟨congrArg (· + 1) h.length, ⟨hp, h.filled⟩, ?_, fun heq => h.ne (List.cons.inj heq).2⟩
  rw [intercalate_cons, intercalate_cons, h.join]

/-- The part of a piece after a separator goes to the next piece. -/
theorem shifted_right {u v q : List α} {ps : List (List α)} (hu : u ≠ []) (hfilled : Filled (q :: ps)) :
    Shifted sep ((u ++ sep :: v) :: q :: ps) (u :: (v ++ sep :: q) :: ps) := by
  refine ⟨rfl, ⟨hu, ?_⟩, ?_, by simp⟩
  · cases ps with
    | nil => trivial
    | cons p ps => exact ⟨by simp, hfilled.2⟩
  · cases ps <;> simp

/-- The part of a piece before a separator goes to the piece before. -/
theorem shifted_left {o u v : List α} {ps : List (List α)} (hv : v ≠ [] ∨ ps = [])
    (hfilled : Filled ((u ++ sep :: v) :: ps)) : Shifted sep (o :: (u ++ sep :: v) :: ps) ((o ++ sep :: u) :: v :: ps) := by
  refine ⟨rfl, ⟨by simp, ?_⟩, ?_, by simp⟩
  · cases ps with
    | nil => trivial
    | cons p ps => exact ⟨hv.resolve_right (List.cons_ne_nil p ps), hfilled.2⟩
  · cases ps <;> simp

theorem exists_shifted_rest : ∀ {o : List α} {ps : List (List α)}, o ≠ [] → Filled ps → ¬ FirmRest sep ps →
    ∃ qs, Shifted sep (o :: ps) qs
  | _, [], _, _, h => absurd trivial h
  | o, [p], _, hfilled, h => by
    obtain ⟨u, v, rfl⟩ := List.append_of_mem (not_not.1 h)
    exact ⟨_, shifted_left (.inr rfl) hfilled⟩
  | o, p :: q :: ps, ho, hfilled, h => by
    by_cases hp : ∀ u v, p = u ++ sep :: v → u = [] ∧ v = []
    · have hrest : ¬ FirmRest sep (q :: ps) := fun hrest => h ⟨hp, hrest⟩
      obtain ⟨qs, hqs⟩ := exists_shifted_rest hfilled.1 hfilled.2 hrest
      exact ⟨o :: qs, hqs.cons ho⟩
    · simp only [not_forall, not_and_or] at hp
      obtain ⟨u, v, rfl, hu | hv⟩ := hp
      · exact ⟨_, (shifted_right hu hfilled.2).cons ho⟩
      · exact ⟨_, shifted_left (.inl hv) hfilled⟩

/-- Pieces that are not firm share their join with others. -/
theorem exists_shifted {p q : List α} {ps : List (List α)} (hfilled : Filled (p :: q :: ps))
    (h : ¬ Firm sep (p :: q :: ps)) : ∃ qs, Shifted sep (p :: q :: ps) qs := by
  by_cases hp : ∀ u v, p = u ++ sep :: v → u = []
  · exact exists_shifted_rest hfilled.1 hfilled.2 fun hrest => h ⟨hp, hrest⟩
  · simp only [not_forall] at hp
    obtain ⟨u, v, rfl, hu⟩ := hp
    exact ⟨_, shifted_right hu hfilled.2⟩

end Mesa.Foundation
