/-
Brackets paired by a stack: each closing bracket is paired with the last opening one that is still open. A bracketed
stretch whose inside is balanced is one of the pairs, whatever stands around it.
-/
import Mathlib.Tactic

namespace Mesa.Foundation.Brackets

variable {α : Type} [DecidableEq α] (left right : α)

/-- The loop over the characters: the positions of the brackets still open are the stack. -/
def pairs : Nat → List Nat → List α → List (Nat × Nat)
  | _, _, [] => []
  | i, opens, c :: l =>
    if c = left then pairs (i + 1) (i :: opens) l
    else if c = right then
      match opens with
      | [] => pairs (i + 1) [] l
      | start :: opens => (start, i) :: pairs (i + 1) opens l
    else pairs (i + 1) opens l

/-- Texts in which every bracket has its partner. -/
inductive Balanced : List α → Prop
  | nil : Balanced []
  | plain {c : α} {l : List α} : c ≠ left → c ≠ right → Balanced l → Balanced (c :: l)
  | pair {v l : List α} : Balanced v → Balanced l → Balanced (left :: v ++ right :: l)

section

variable {left right} {v l : List α} {c : α} (i : Nat) (opens : List Nat)

theorem pairs_left : pairs left right i opens (left :: l) = pairs left right (i + 1) (i :: opens) l := if_pos rfl

theorem pairs_right (hne : left ≠ right) (start : Nat) :
    pairs left right i (start :: opens) (right :: l) = (start, i) :: pairs left right (i + 1) opens l :=
  (if_neg hne.symm).trans (if_pos rfl)

theorem pairs_plain (hleft : c ≠ left) (hright : c ≠ right) :
    pairs left right i opens (c :: l) = pairs left right (i + 1) opens l :=
  (if_neg hleft).trans (if_neg hright)

/-- Reading a balanced text leaves the stack as it was. -/
theorem pairs_balanced (hne : left ≠ right) (h : Balanced left right v) :
    ∀ i opens l, pairs left right i opens (v ++ l) =
      pairs left right i [] v ++ pairs left right (i + v.length) opens l := by
  induction h with
  | nil =>
    intro i opens l
    rfl
  | plain hleft hright _ ih =>
    intro i opens l
    rw [List.cons_append, pairs_plain _ _ hleft hright, pairs_plain _ _ hleft hright, ih, List.length_cons,
      Nat.add_right_comm, Nat.add_assoc]
  | @pair v w hv hw ihv ihw =>
    intro i opens l
    have hinner : ∀ opens l, pairs left right i opens (left :: v ++ right :: l) =
        pairs left right (i + 1) [] v ++ (i, i + 1 + v.length) :: pairs left right (i + 1 + v.length + 1) opens l := by
      intro opens l
      rw [List.cons_append, pairs_left, ihv, pairs_right _ _ hne]
    have hlength : i + (left :: v ++ right :: w).length = i + 1 + v.length + 1 + w.length := by
      rw [List.cons_append, List.length_cons, List.length_append, List.length_cons]
      omega
    have hsplit : left :: v ++ right :: w ++ l = left :: v ++ right :: (w ++ l) := by
      rw [List.append_assoc]
      rfl
    rw [hsplit, hinner, hinner, ihw, List.append_assoc, List.cons_append, hlength]

/-- A bracketed stretch with a balanced inside is paired, whatever comes before it and after it. -/
theorem mem_pairs (hne : left ≠ right) (hv : Balanced left right v) (before : List α) :
    ∀ i opens, (i + before.length, i + before.length + 1 + v.length) ∈
      pairs left right i opens (before ++ left :: (v ++ right :: l)) := by
  induction before with
  | nil =>
    intro i opens
    rw [List.nil_append, pairs_left, pairs_balanced hne hv, pairs_right _ _ hne]
    exact List.mem_append_right _ List.mem_cons_self
  | cons c before ih =>
    intro i opens
    rw [List.cons_append, List.length_cons, ← Nat.add_assoc, Nat.add_right_comm i]
    by_cases hleft : c = left
    · subst hleft
      rw [pairs_left]
      exact ih _ _
    · by_cases hright : c = right
      · subst hright
        cases opens with
        | nil =>
          have hdrop : pairs left c i [] (c :: (before ++ left :: (v ++ c :: l))) =
              pairs left c (i + 1) [] (before ++ left :: (v ++ c :: l)) := by
            rw [pairs, if_neg hleft, if_pos rfl]
          rw [hdrop]
          exact ih _ _
        | cons start opens =>
          rw [pairs_right _ _ hne]
          exact List.mem_cons_of_mem _ (ih _ _)
      · rw [pairs_plain _ _ hleft hright]
        exact ih _ _

end

end Mesa.Foundation.Brackets
