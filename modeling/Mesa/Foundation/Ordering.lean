/-
Lists that are read in the order of a key. Rows with equal keys stay in the order in which they were
stored, so the ordered list says what was stored, and says nothing else where ties are equal rows.
-/
import Mathlib.Data.List.Lex
import Mathlib.Data.List.Sort
import Mathlib.Data.Prod.Lex
import Mathlib.Data.String.Basic
import Mathlib.Tactic

namespace Mesa.Foundation

variable {α κ : Type} [LinearOrder κ]

/-- `ORDER BY`: ties stay as they were stored. -/
def orderBy (key : α → κ) (l : List α) : List α := l.insertionSort fun x y => key x ≤ key y

section

variable {key : α → κ} {l l' : List α}

theorem orderBy_perm (key : α → κ) (l : List α) : (orderBy key l).Perm l := List.perm_insertionSort _ l

theorem orderBy_sorted (key : α → κ) (l : List α) : (orderBy key l).Pairwise fun x y => key x ≤ key y := by
  have : Std.Total fun x y : α => key x ≤ key y := ⟨fun x y => le_total (key x) (key y)⟩
  have : IsTrans α fun x y : α => key x ≤ key y := ⟨fun x y z => le_trans⟩
  exact List.pairwise_insertionSort _ l

/-- Ordering before or after a change that leaves the keys alone. -/
theorem map_orderBy {β : Type} {k : β → κ} {f : α → β} (hf : ∀ x, k (f x) = key x) (l : List α) :
    (orderBy key l).map f = orderBy k (l.map f) :=
  List.map_insertionSort _ _ f l fun x _ y _ => by rw [hf, hf]

/-- An ordered list is read as it is. -/
theorem orderBy_of_sorted (h : l.Pairwise fun x y => key x ≤ key y) : orderBy key l = l := h.insertionSort_eq

theorem perm_of_orderBy_eq (h : orderBy key l = orderBy key l') : l.Perm l' :=
  (orderBy_perm key l).symm.trans (h ▸ orderBy_perm key l')

/-- Where rows with equal keys are equal, the order of storage does not show. -/
theorem orderBy_congr (hties : ∀ x ∈ l, ∀ y ∈ l, key x = key y → x = y) (h : l.Perm l') :
    orderBy key l = orderBy key l' := by
  refine List.Perm.eq_of_pairwise ?_ (orderBy_sorted key l) (orderBy_sorted key l')
    (((orderBy_perm key l).trans h).trans (orderBy_perm key l').symm)
  intro x y hx hy hxy hyx
  have hx' : x ∈ l := (orderBy_perm key l).mem_iff.1 hx
  have hy' : y ∈ l := h.mem_iff.2 ((orderBy_perm key l').mem_iff.1 hy)
  exact hties x hx' y hy' (le_antisymm hxy hyx)

/-- The rows of one key are read in the order of storage. -/
theorem filter_orderBy [DecidableEq κ] (k : κ) :
    (orderBy key l).filter (fun x => key x = k) = l.filter fun x => key x = k := by
  have : IsTrans α fun x y : α => key x ≤ key y := ⟨fun x y z => le_trans⟩
  have : Std.Total fun x y : α => key x ≤ key y := ⟨fun x y => le_total (key x) (key y)⟩
  have hties : (l.filter fun x => key x = k).Pairwise fun x y => key x ≤ key y := by
    refine List.Pairwise.imp_of_mem ?_ (List.pairwise_of_forall (R := fun _ _ => True) fun _ _ => trivial)
    intro x y hx hy _
    rw [of_decide_eq_true (List.mem_filter.1 hx).2, of_decide_eq_true (List.mem_filter.1 hy).2]
  have hsub : (l.filter fun x => key x = k).Sublist (orderBy key l) :=
    List.sublist_insertionSort hties List.filter_sublist
  have hsub' := hsub.filter fun x => key x = k
  rw [List.filter_filter] at hsub'
  simp only [Bool.and_self] at hsub'
  exact (hsub'.eq_of_length ((orderBy_perm key l).filter _).length_eq.symm).symm

/-- Where the order of storage does not show, rows with equal keys are equal. -/
theorem eq_of_orderBy_congr (h : ∀ l', l.Perm l' → orderBy key l' = orderBy key l) {x y : α} (hx : x ∈ l) (hy : y ∈ l)
    (hkey : key x = key y) : x = y := by
  classical
  by_contra hne
  have hy' : y ∈ l.erase x := (List.mem_erase_of_ne fun h => hne h.symm).2 hy
  obtain ⟨rest, hrest⟩ : ∃ rest, l.Perm (x :: y :: rest) :=
    ⟨_, (List.perm_cons_erase hx).trans ((List.perm_cons_erase hy').cons x)⟩
  have hfirst := h _ hrest
  have hsecond := h _ (hrest.trans (List.Perm.swap y x rest))
  have heq : (x :: y :: rest).filter (fun z => key z = key x) = (y :: x :: rest).filter fun z => key z = key x := by
    have hfilter : ∀ l : List α, (orderBy key l).filter (fun z => key z = key x) = l.filter fun z => key z = key x :=
      fun _ => filter_orderBy (key x)
    rw [← hfilter (x :: y :: rest), hfirst, ← hsecond, hfilter]
  simp only [List.filter_cons, hkey, decide_true, if_true] at heq
  exact hne (List.cons.inj heq).1

end

/-! ## Lines -/

/-- Lines that have no line break in them, each with one after it, can be told apart. -/
theorem flatten_lines_injective {line : α → List Char} (hinjective : Function.Injective line)
    (hbreak : ∀ x, '\n' ∉ line x) {l l' : List α}
    (h : (l.map fun x => line x ++ ['\n']).flatten = (l'.map fun x => line x ++ ['\n']).flatten) : l = l' := by
  induction l generalizing l' with
  | nil => cases l' with
    | nil => rfl
    | cons y l' => simp at h
  | cons x l ih => cases l' with
    | nil => simp at h
    | cons y l' =>
      simp only [List.map_cons, List.flatten_cons, List.append_assoc, List.singleton_append] at h
      obtain ⟨hxy, hrest⟩ := line_eq (hbreak x) (hbreak y) h
      rw [hinjective hxy, ih hrest]
where
  line_eq {a b c d : List Char} (ha : '\n' ∉ a) (hb : '\n' ∉ b) (h : a ++ '\n' :: c = b ++ '\n' :: d) :
      a = b ∧ c = d := by
    induction a generalizing b with
    | nil => cases b with
      | nil => exact ⟨rfl, (List.cons.inj h).2⟩
      | cons y b => exact absurd (List.mem_cons.2 (.inl (List.cons.inj h).1)) hb
    | cons x a ih => cases b with
      | nil => exact absurd (List.mem_cons.2 (.inl (List.cons.inj h).1.symm)) ha
      | cons y b =>
        obtain ⟨hxy, hrest⟩ := List.cons.inj h
        obtain ⟨hab, hcd⟩ := ih (fun hm => ha (List.mem_cons_of_mem _ hm)) (fun hm => hb (List.mem_cons_of_mem _ hm)) hrest
        exact ⟨by rw [hxy, hab], hcd⟩

/-! ## Two ordered lists in one -/

/-- The place where one ordered list ends and the next one begins is the only possible one. -/
def UniqueSplit (key : α → κ) (l l' : List α) : Prop :=
  (l = [] ∧ l' = []) ∨ ∃ x ∈ l.getLast?, ∃ y ∈ l'.head?, key y < key x

theorem split_of_unique {key : α → κ} {l₁ l₂ l₁' l₂' : List α} (h : l₁ ++ l₂ = l₁' ++ l₂')
    (hunique : UniqueSplit key l₁ l₂) (h₁' : l₁'.Pairwise fun x y => key x ≤ key y)
    (h₂' : l₂'.Pairwise fun x y => key x ≤ key y) : l₁ = l₁' ∧ l₂ = l₂' := by
  rcases hunique with ⟨rfl, rfl⟩ | ⟨x, hx, y, hy, hlt⟩
  · obtain ⟨h₁, h₂⟩ := List.append_eq_nil_iff.1 h.symm
    exact ⟨h₁.symm, h₂.symm⟩
  · rcases List.append_eq_append_iff.1 h with ⟨c, rfl, hc⟩ | ⟨c, rfl, rfl⟩
    · rcases c with _ | ⟨z, c⟩
      · exact ⟨(List.append_nil l₁).symm, hc⟩
      · -- the second list cannot have lost its head to the first
        subst hc
        cases hy
        have hle := (List.pairwise_append.1 h₁').2.2 x (List.mem_of_getLast? hx) y (List.mem_cons_self ..)
        exact absurd hlt (not_lt.2 hle)
    · rcases List.eq_nil_or_concat c with rfl | ⟨c, z, rfl⟩
      · exact ⟨List.append_nil l₁', rfl⟩
      · -- the first list cannot have lost its last row to the second
        have hz : z = x := by simpa [List.getLast?_append] using hx
        subst hz
        have hle := (List.pairwise_append.1 h₂').2.2 z (by simp) y (List.mem_of_head? hy)
        exact absurd hlt (not_lt.2 hle)

/-- Where it is not the only one, another place divides the same rows into two ordered lists. -/
theorem exists_split_of_not_unique {key : α → κ} {l₁ l₂ : List α} (h₁ : l₁.Pairwise fun x y => key x ≤ key y)
    (h₂ : l₂.Pairwise fun x y => key x ≤ key y) (hunique : ¬ UniqueSplit key l₁ l₂) :
    ∃ l₁' l₂' : List α, l₁' ++ l₂' = l₁ ++ l₂ ∧ (l₁'.Pairwise fun x y => key x ≤ key y) ∧
      (l₂'.Pairwise fun x y => key x ≤ key y) ∧ l₁'.length ≠ l₁.length := by
  rcases List.eq_nil_or_concat l₁ with rfl | ⟨l, x, rfl⟩
  · rcases l₂ with _ | ⟨y, l₂⟩
    · exact absurd (.inl ⟨rfl, rfl⟩) hunique
    · exact ⟨[y], l₂, rfl, List.pairwise_singleton _ _, (List.pairwise_cons.1 h₂).2, by simp⟩
  · rw [List.concat_eq_append] at h₁
    refine ⟨l, x :: l₂, by simp, (List.pairwise_append.1 h₁).1, List.pairwise_cons.2 ⟨fun z hz => ?_, h₂⟩, by simp⟩
    rcases l₂ with _ | ⟨y, l₂⟩
    · cases hz
    · have hxy : key x ≤ key y := by
        by_contra hlt
        exact hunique (.inr ⟨x, by simp, y, by simp, not_le.1 hlt⟩)
      rcases List.mem_cons.1 hz with rfl | hz
      · exact hxy
      · exact hxy.trans ((List.pairwise_cons.1 h₂).1 z hz)

end Mesa.Foundation
