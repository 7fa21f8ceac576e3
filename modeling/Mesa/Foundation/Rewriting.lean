/-
Rewriting of lists: the replacement of the matches of a pattern, from left to right and without
overlaps, and the words between the elements of a class, joined by one separator.
-/
import Mathlib.Tactic

namespace Mesa.Foundation

variable {α : Type}

/-! ## Substitution -/

/-- The list with each match replaced by `r`; the first `skip` elements belong to the match before.
A match is not empty. -/
def substituteFrom (m : List α → Option Nat) (r : List α) : Nat → List α → List α
  | _, [] => []
  | skip + 1, _ :: l => substituteFrom m r skip l
  | 0, c :: l =>
    match m (c :: l) with
    | some (n + 1) => r ++ substituteFrom m r n l
    | _ => c :: substituteFrom m r 0 l

def substitute (m : List α → Option Nat) (r l : List α) : List α := substituteFrom m r 0 l

/-- The pattern matches at no position. -/
def Unmatched (m : List α → Option Nat) (l : List α) : Prop := ∀ t, t <:+ l → m t = none

theorem Unmatched.tail {m : List α → Option Nat} {c : α} {l : List α} (h : Unmatched m (c :: l)) : Unmatched m l :=
  fun t ht => h t (ht.trans (List.suffix_cons c l))

theorem substitute_eq_self {m : List α → Option Nat} (r : List α) : ∀ {l : List α}, Unmatched m l → substitute m r l = l
  | [], _ => rfl
  | c :: l, h => by
    unfold substitute
    rw [substituteFrom, h (c :: l) (List.suffix_refl _)]
    exact congrArg (c :: ·) (substitute_eq_self r h.tail)

variable (p : α → Bool)

/-- The longest parts without an element of `p`. -/
def words (l : List α) : List (List α) := (l.splitOnP p).filter fun w => !w.isEmpty

/-- The words with one separator between them. -/
def joinWords (s : α) (l : List α) : List α := [s].intercalate (words p l)

variable {p}

theorem splitOnP_separator {x : α} (hx : p x = true) (l : List α) : (x :: l).splitOnP p = [] :: l.splitOnP p := by
  rw [List.splitOnP_cons_eq_if_modifyHead, if_pos hx]

theorem splitOnP_element {x : α} (hx : p x = false) (l : List α) :
    ∃ w rest, l.splitOnP p = w :: rest ∧ (x :: l).splitOnP p = (x :: w) :: rest := by
  obtain ⟨w, rest, hsplit⟩ := List.exists_cons_of_ne_nil (List.splitOnP_ne_nil p l)
  refine ⟨w, rest, hsplit, ?_⟩
  rw [List.splitOnP_cons_eq_if_modifyHead, if_neg (by simp [hx]), hsplit, List.modifyHead_cons]

/-- The first part is at the start. -/
theorem splitOnP_prefix : ∀ {l w : List α} {rest : List (List α)}, l.splitOnP p = w :: rest → w <+: l
  | [], w, rest, h => by
    rw [List.splitOnP_nil] at h
    cases h
    exact List.nil_prefix
  | x :: l, w, rest, h => by
    cases hx : p x with
    | true =>
      rw [splitOnP_separator hx] at h
      cases h
      exact List.nil_prefix
    | false =>
      obtain ⟨v, rest', hsplit, hcons⟩ := splitOnP_element hx l
      rw [hcons] at h
      cases h
      exact List.cons_prefix_cons.2 ⟨rfl, splitOnP_prefix hsplit⟩

/-- The parts have no element of the class, and lie in the list. -/
theorem mem_splitOnP : ∀ {l w : List α}, w ∈ l.splitOnP p → (∀ c ∈ w, p c = false) ∧ w <:+: l
  | [], w, hw => by
    rw [List.splitOnP_nil, List.mem_singleton] at hw
    rw [hw]
    exact ⟨fun _ hc => absurd hc List.not_mem_nil, List.infix_rfl⟩
  | x :: l, w, hw => by
    cases hx : p x with
    | true =>
      rw [splitOnP_separator hx] at hw
      rcases List.mem_cons.1 hw with rfl | hw
      · exact ⟨fun _ hc => absurd hc List.not_mem_nil, List.nil_infix⟩
      · obtain ⟨hfree, hinfix⟩ := mem_splitOnP hw
        exact ⟨hfree, hinfix.trans (List.suffix_cons x l).isInfix⟩
    | false =>
      obtain ⟨v, rest, hsplit, hcons⟩ := splitOnP_element hx l
      rw [hcons] at hw
      rcases List.mem_cons.1 hw with rfl | hw
      · obtain ⟨hfree, -⟩ := mem_splitOnP (l := l) (by rw [hsplit]; exact List.mem_cons_self)
        refine ⟨List.forall_mem_cons.2 ⟨hx, hfree⟩, ?_⟩
        exact (List.cons_prefix_cons.2 ⟨rfl, splitOnP_prefix hsplit⟩).isInfix
      · obtain ⟨hfree, hinfix⟩ := mem_splitOnP (l := l) (by rw [hsplit]; exact List.mem_cons_of_mem _ hw)
        exact ⟨hfree, hinfix.trans (List.suffix_cons x l).isInfix⟩

theorem mem_words {l w : List α} (hw : w ∈ words p l) : w ≠ [] ∧ ∀ c ∈ w, p c = false := by
  obtain ⟨hw, hne⟩ := List.mem_filter.1 hw
  exact ⟨by simpa using hne, (mem_splitOnP hw).1⟩

/-- Joining words and splitting at the separator gives them back. -/
theorem words_intercalate {s : α} (hs : p s = true) : ∀ {ws : List (List α)}, (∀ w ∈ ws, w ≠ [] ∧ ∀ c ∈ w, p c = false) →
    words p ([s].intercalate ws) = ws
  | [], _ => rfl
  | [w], h => by
    obtain ⟨hne, hw⟩ := h w List.mem_cons_self
    have hjoin : [s].intercalate [w] = w := by simp [List.intercalate]
    rw [hjoin, words, List.splitOnP_eq_singleton hw]
    simp [hne]
  | w :: v :: ws, h => by
    obtain ⟨hne, hw⟩ := h w List.mem_cons_self
    have hjoin : [s].intercalate (w :: v :: ws) = w ++ s :: [s].intercalate (v :: ws) := by simp [List.intercalate]
    have hrest := words_intercalate hs fun u hu => h u (List.mem_cons_of_mem w hu)
    unfold words at *
    rw [hjoin, List.splitOnP_append_cons _ _ hs, List.splitOnP_eq_singleton hw, List.singleton_append, List.filter_cons,
      if_pos (by simpa using hne), hrest]

end Mesa.Foundation
