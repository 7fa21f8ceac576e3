/-
Rankings that may repeat: an element counts where it occurs first, and its rank is one more than the number of
different elements before. Moving an element up lowers no rank but those of the elements it passes. The position of an
element in an ordered list is the number of elements with a smaller key.
-/
import Mathlib.Data.List.TakeWhile
import Mesa.Foundation.Ordering

namespace Mesa.Foundation

variable {α : Type} [DecidableEq α]

/-! ## First hits -/

/-- `list(dict.fromkeys(l))`: every element once, where it occurs first. -/
def firstHits : List α → List α
  | [] => []
  | x :: l => x :: (firstHits l).filter fun y => decide (y ≠ x)

@[simp] theorem mem_firstHits {l : List α} {x : α} : x ∈ firstHits l ↔ x ∈ l := by
  induction l with
  | nil => rfl
  | cons y l ih =>
    rw [firstHits, List.mem_cons, List.mem_cons, List.mem_filter, ih, decide_eq_true_eq]
    by_cases h : x = y
    · simp [h]
    · simp [h]

theorem firstHits_nodup : ∀ l : List α, (firstHits l).Nodup
  | [] => List.nodup_nil
  | x :: l => by
    rw [firstHits, List.nodup_cons]
    exact ⟨fun h => of_decide_eq_true (List.mem_filter.1 h).2 rfl, (firstHits_nodup l).filter _⟩

/-- The first hits of a list without repetitions are the list. -/
theorem firstHits_of_nodup : ∀ {l : List α}, l.Nodup → firstHits l = l
  | [], _ => rfl
  | x :: l, h => by
    obtain ⟨hx, hl⟩ := List.nodup_cons.1 h
    rw [firstHits, firstHits_of_nodup hl, List.filter_eq_self.2]
    intro y hy
    exact decide_eq_true fun hyx => hx (hyx ▸ hy)

theorem firstHits_firstHits (l : List α) : firstHits (firstHits l) = firstHits l := firstHits_of_nodup (firstHits_nodup l)

theorem firstHits_append (a b : List α) :
    firstHits (a ++ b) = firstHits a ++ (firstHits b).filter fun y => decide (y ∉ a) := by
  induction a with
  | nil => simp [firstHits]
  | cons x a ih =>
    rw [List.cons_append, firstHits, firstHits, ih, List.filter_append, List.filter_filter, List.cons_append]
    congr 2
    refine List.filter_congr fun y _ => ?_
    simp [not_or, Bool.decide_and]

/-- The elements in front of the first occurrence. -/
def before (x : α) (l : List α) : List α := l.takeWhile fun y => decide (y ≠ x)

theorem notMem_before (x : α) (l : List α) : x ∉ before x l := by
  intro h
  have hne : decide (x ≠ x) = true := List.mem_takeWhile_imp (p := fun y => decide (y ≠ x)) h
  exact of_decide_eq_true hne rfl

/-- One more than the number of different elements in front of the first occurrence. -/
def rank (x : α) (l : List α) : Nat := (firstHits (before x l)).length + 1

theorem before_append_of_notMem {x : α} {a : List α} (h : x ∉ a) (b : List α) : before x (a ++ b) = a ++ before x b := by
  unfold before
  refine List.takeWhile_append_of_pos fun y hy => decide_eq_true ?_
  rintro rfl
  exact h hy

theorem before_append_of_mem {x : α} {a : List α} (h : x ∈ a) (b : List α) : before x (a ++ b) = before x a := by
  unfold before
  rw [List.takeWhile_append, if_neg]
  intro hlength
  have hall := List.takeWhile_prefix (p := fun y => decide (y ≠ x)) |>.eq_of_length hlength
  rw [← hall] at h
  exact notMem_before x a h

theorem before_cons_self (x : α) (l : List α) : before x (x :: l) = [] := by simp [before]

theorem before_cons_of_ne {x y : α} (h : y ≠ x) (l : List α) : before x (y :: l) = y :: before x l := by
  simp [before, h]

/-- A list is what is in front of an element, the element and the rest. -/
theorem eq_before_append {x : α} {l : List α} (h : x ∈ l) : ∃ rest, l = before x l ++ x :: rest := by
  obtain ⟨a, b, hl, hnot⟩ := List.eq_append_cons_of_mem h
  exact ⟨b, by rw [hl, before_append_of_notMem hnot, before_cons_self, List.append_nil]⟩

/-- The rank is the place among the first hits. -/
theorem idxOf_firstHits {x : α} {l : List α} (h : x ∈ l) : (firstHits l).idxOf x + 1 = rank x l := by
  obtain ⟨rest, hl⟩ := eq_before_append h
  have hhits : firstHits l = firstHits (before x l) ++
      x :: ((firstHits rest).filter fun y => decide (y ≠ x)).filter fun y => decide (y ∉ before x l) := by
    conv_lhs => rw [hl, firstHits_append, firstHits, List.filter_cons]
    rw [if_pos (decide_eq_true (notMem_before x l))]
  rw [hhits, List.idxOf_append_of_notMem (by simpa using notMem_before x l), List.idxOf_cons_self, Nat.add_zero, rank]

theorem length_firstHits_le {a b : List α} (h : ∀ x ∈ a, x ∈ b) : (firstHits a).length ≤ (firstHits b).length :=
  ((firstHits_nodup a).subperm fun x hx => mem_firstHits.2 (h x (mem_firstHits.1 hx))).length_le

theorem rank_le_rank {x y : α} {l l' : List α} (h : ∀ z ∈ before x l, z ∈ before y l') : rank x l ≤ rank y l' :=
  Nat.succ_le_succ (length_firstHits_le h)

/-- An element that moves up does not get a worse rank. -/
theorem rank_moved (x : α) (a b c : List α) : rank x (a ++ x :: (b ++ c)) ≤ rank x (a ++ (b ++ x :: c)) := by
  refine rank_le_rank fun z hz => ?_
  by_cases hx : x ∈ a
  · rwa [before_append_of_mem hx] at hz ⊢
  · rw [before_append_of_notMem hx, before_cons_self, List.append_nil] at hz
    rw [before_append_of_notMem hx]
    exact List.mem_append_left _ hz

/-- No other element gets a better one. -/
theorem rank_passed {x y : α} (h : x ≠ y) (a b c : List α) :
    rank y (a ++ (b ++ x :: c)) ≤ rank y (a ++ x :: (b ++ c)) := by
  refine rank_le_rank fun z hz => ?_
  by_cases ha : y ∈ a
  · rwa [before_append_of_mem ha] at hz ⊢
  rw [before_append_of_notMem ha] at hz ⊢
  rw [before_cons_of_ne h]
  by_cases hb : y ∈ b
  · rw [before_append_of_mem hb] at hz ⊢
    simp only [List.mem_append, List.mem_cons] at hz ⊢
    tauto
  · rw [before_append_of_notMem hb, before_cons_of_ne h] at hz
    rw [before_append_of_notMem hb]
    simp only [List.mem_append, List.mem_cons] at hz ⊢
    tauto

/-! ## Positions -/

variable {κ : Type} [LinearOrder κ] {key key' : α → κ} {l l' : List α} {x : α}

/-- In a list that ascends strictly the position is the number of smaller elements. -/
theorem idxOf_of_ascending (hl : l.Pairwise fun y z => key y < key z) (hx : x ∈ l) :
    l.idxOf x = (l.filter fun y => decide (key y < key x)).length := by
  induction l with
  | nil => cases hx
  | cons y l ih =>
    obtain ⟨hy, hl⟩ := List.pairwise_cons.1 hl
    rcases List.mem_cons.1 hx with rfl | hx
    · rw [List.idxOf_cons_self, List.filter_cons, if_neg (by simp), List.filter_eq_nil_iff.2, List.length_nil]
      intro z hz
      simpa using (hy z hz).le
    · have hne : y ≠ x := by
        rintro rfl
        exact lt_irrefl _ (hy y hx)
      rw [List.idxOf_cons_ne _ hne, ih hl hx, List.filter_cons, if_pos (decide_eq_true (hy x hx)), List.length_cons]

omit [DecidableEq α] in
theorem orderBy_ascending (hkey : Function.Injective key) (hl : l.Nodup) :
    (orderBy key l).Pairwise fun y z => key y < key z := by
  have hnodup := ((orderBy_perm key l).nodup_iff).2 hl
  exact ((orderBy_sorted key l).and hnodup).imp fun h => lt_of_le_of_ne h.1 fun heq => h.2 (hkey heq)

/-- The position in an ordered list is the number of elements with a smaller key. -/
theorem idxOf_orderBy (hkey : Function.Injective key) (hl : l.Nodup) (hx : x ∈ l) :
    (orderBy key l).idxOf x = (l.filter fun y => decide (key y < key x)).length := by
  rw [idxOf_of_ascending (orderBy_ascending hkey hl) ((orderBy_perm key l).mem_iff.2 hx)]
  exact ((orderBy_perm key l).filter _).length_eq

/-- Where every element in front of another one in the second order is in front of it in the first, the position is no
worse. -/
theorem idxOf_orderBy_le (hkey : Function.Injective key) (hkey' : Function.Injective key') (hl : l.Nodup) (hl' : l'.Nodup)
    (hmem : ∀ y, y ∈ l' ↔ y ∈ l) (hx : x ∈ l) (h : ∀ y ∈ l, key' y < key' x → key y < key x) :
    (orderBy key' l').idxOf x ≤ (orderBy key l).idxOf x := by
  rw [idxOf_orderBy hkey hl hx, idxOf_orderBy hkey' hl' ((hmem x).2 hx)]
  refine ((hl'.filter _).subperm fun y hy => ?_).length_le
  obtain ⟨hy, hlt⟩ := List.mem_filter.1 hy
  exact List.mem_filter.2 ⟨(hmem y).1 hy, decide_eq_true (h y ((hmem y).1 hy) (of_decide_eq_true hlt))⟩

end Mesa.Foundation
