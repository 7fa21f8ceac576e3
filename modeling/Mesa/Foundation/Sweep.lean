/-
A sweep over items in the order of their starts. It keeps the items whose end is not behind the current start and shows
each new item those: exactly the pairs of items that touch are seen, each once, the earlier one first.
-/
import Mathlib.Tactic

namespace Mesa.Foundation

variable {ι σ : Type}

/-! ## The sweep -/

/-- What has been gathered, and the items that are not behind. -/
structure SweepState (ι σ : Type) where
  gathered : σ
  active : List ι

variable (stop : ι → Nat) (visit : ι → σ → ι → σ) (bucket : Nat → List ι)

/-- A new item sees the active ones. -/
def sweepItem (s : SweepState ι σ) (i : ι) : SweepState ι σ := ⟨s.active.foldl (visit i) s.gathered, s.active ++ [i]⟩

/-- The items that start at an offset; active ones that end before it are dropped. -/
def sweepOffset (s : SweepState ι σ) (offset : Nat) : SweepState ι σ :=
  if bucket offset = [] then s
  else (bucket offset).foldl (sweepItem visit) ⟨s.gathered, s.active.filter fun i => offset ≤ stop i⟩

/-- The sweep over the offsets up to `n`. -/
def sweep (n : Nat) (gathered : σ) : SweepState ι σ :=
  (List.range (n + 1)).foldl (sweepOffset stop visit bucket) ⟨gathered, []⟩

/-! ## The pairs it sees -/

/-- The sweep after the items `done`, before the offset `k`. What it has gathered satisfies `P` if it did at the start,
or if a pair of items was seen that adds it. -/
structure Swept (P : σ → Prop) (Adds : ι → ι → Prop) (start : ι → Nat) (init : σ) (done : List ι) (k : Nat)
    (s : SweepState ι σ) : Prop where
  active : ∀ o, k ≤ o → (s.active.filter fun i => o ≤ stop i) = done.filter fun i => o ≤ stop i
  gathered : P s.gathered ↔ P init ∨ ∃ p i, [p, i].Sublist done ∧ start i ≤ stop p ∧ Adds p i

section

variable {stop visit bucket} {P : σ → Prop} {Adds : ι → ι → Prop} {start : ι → Nat} {init : σ} {done : List ι} {k : Nat}
  {s : SweepState ι σ}

theorem pair_sublist_snoc {p j i : ι} : [p, j].Sublist (done ++ [i]) ↔ [p, j].Sublist done ∨ p ∈ done ∧ j = i := by
  constructor
  · intro h
    obtain ⟨a, b, hab, ha, hb⟩ := List.sublist_append_iff.1 h
    rcases a with _ | ⟨x, _ | ⟨y, a⟩⟩
    · rw [List.nil_append] at hab
      rw [← hab] at hb
      exact absurd hb.length_le (by simp)
    · simp only [List.cons_append, List.nil_append, List.cons.injEq] at hab
      obtain ⟨rfl, rfl⟩ := hab
      exact Or.inr ⟨List.singleton_sublist.1 ha, List.mem_singleton.1 (List.singleton_sublist.1 hb)⟩
    · simp only [List.cons_append, List.cons.injEq] at hab
      obtain ⟨rfl, rfl, hab⟩ := hab
      obtain ⟨rfl, -⟩ := List.append_eq_nil_iff.1 hab.symm
      exact Or.inl ha
  · rintro (h | ⟨hp, rfl⟩)
    · exact h.trans (List.sublist_append_left _ _)
    · exact List.Sublist.append (List.singleton_sublist.2 hp) (List.Sublist.refl _)

/-- Of two elements of a list one comes first. -/
theorem pair_sublist_or {l : List ι} {p i : ι} (hp : p ∈ l) (hi : i ∈ l) (hne : p ≠ i) :
    [p, i].Sublist l ∨ [i, p].Sublist l := by
  obtain ⟨a, b, rfl⟩ := List.append_of_mem hp
  rcases List.mem_append.1 hi with h | h
  · exact Or.inr (List.Sublist.append (List.singleton_sublist.2 h) (List.singleton_sublist.2 List.mem_cons_self))
  · have hb := (List.mem_cons.1 h).resolve_left hne.symm
    exact Or.inl (((List.singleton_sublist.2 hb).cons_cons p).trans (List.sublist_append_right _ _))

theorem foldl_visit_iff {i : ι} (hvisit : ∀ s p, P (visit i s p) ↔ P s ∨ Adds p i) (l : List ι) (g : σ) :
    P (l.foldl (visit i) g) ↔ P g ∨ ∃ p ∈ l, Adds p i := by
  induction l generalizing g with
  | nil => exact ⟨Or.inl, fun h => h.resolve_right fun ⟨p, hp, _⟩ => by cases hp⟩
  | cons p l ih => rw [List.foldl_cons, ih, hvisit, List.exists_mem_cons_iff, or_assoc]

/-- One item: all active ones end at its start or later. -/
theorem Swept.item (hvisit : ∀ i s p, P (visit i s p) ↔ P s ∨ Adds p i) {i : ι} (hstart : start i = k) (hstop : k ≤ stop i)
    (hactive : s.active = done.filter fun j => k ≤ stop j)
    (h : P s.gathered ↔ P init ∨ ∃ p j, [p, j].Sublist done ∧ start j ≤ stop p ∧ Adds p j) :
    ((sweepItem visit s i).active = (done ++ [i]).filter fun j => k ≤ stop j) ∧
      (P (sweepItem visit s i).gathered ↔
        P init ∨ ∃ p j, [p, j].Sublist (done ++ [i]) ∧ start j ≤ stop p ∧ Adds p j) := by
  constructor
  · rw [List.filter_append, List.filter_singleton, decide_eq_true hstop, cond_true, ← hactive]
    rfl
  · have hsees : P (sweepItem visit s i).gathered ↔ P s.gathered ∨ ∃ p ∈ s.active, Adds p i :=
      foldl_visit_iff (hvisit i) s.active s.gathered
    rw [hsees, h, hactive, or_assoc]
    refine or_congr_right ?_
    constructor
    · rintro (⟨p, j, hpair, htouch, hadds⟩ | ⟨p, hp, hadds⟩)
      · exact ⟨p, j, pair_sublist_snoc.2 (Or.inl hpair), htouch, hadds⟩
      · obtain ⟨hmem, hend⟩ := List.mem_filter.1 hp
        exact ⟨p, i, pair_sublist_snoc.2 (Or.inr ⟨hmem, rfl⟩), hstart ▸ of_decide_eq_true hend, hadds⟩
    · rintro ⟨p, j, hpair, htouch, hadds⟩
      rcases pair_sublist_snoc.1 hpair with hpair | ⟨hmem, rfl⟩
      · exact Or.inl ⟨p, j, hpair, htouch, hadds⟩
      · exact Or.inr ⟨p, List.mem_filter.2 ⟨hmem, decide_eq_true (hstart ▸ htouch)⟩, hadds⟩

/-- The items of one offset. -/
theorem Swept.items (hvisit : ∀ i s p, P (visit i s p) ↔ P s ∨ Adds p i) {items : List ι}
    (hitems : ∀ i ∈ items, start i = k ∧ k ≤ stop i) (hactive : s.active = done.filter fun j => k ≤ stop j)
    (h : P s.gathered ↔ P init ∨ ∃ p j, [p, j].Sublist done ∧ start j ≤ stop p ∧ Adds p j) :
    ((items.foldl (sweepItem visit) s).active = (done ++ items).filter fun j => k ≤ stop j) ∧
      (P (items.foldl (sweepItem visit) s).gathered ↔
        P init ∨ ∃ p j, [p, j].Sublist (done ++ items) ∧ start j ≤ stop p ∧ Adds p j) := by
  induction items generalizing done s with
  | nil =>
    rw [List.append_nil]
    exact ⟨hactive, h⟩
  | cons i items ih =>
    obtain ⟨hi, hrest⟩ := List.forall_mem_cons.1 hitems
    obtain ⟨hactive, h⟩ := Swept.item hvisit hi.1 hi.2 hactive h
    have happend : done ++ i :: items = (done ++ [i]) ++ items := by rw [List.append_assoc, List.singleton_append]
    rw [List.foldl_cons, happend]
    exact ih hrest hactive h

theorem Swept.offset (hvisit : ∀ i s p, P (visit i s p) ↔ P s ∨ Adds p i)
    (hitems : ∀ i ∈ bucket k, start i = k ∧ k ≤ stop i) (h : Swept stop P Adds start init done k s) :
    Swept stop P Adds start init (done ++ bucket k) (k + 1) (sweepOffset stop visit bucket s k) := by
  unfold sweepOffset
  split
  · next hnil =>
    rw [hnil, List.append_nil]
    exact ⟨fun o ho => h.active o (Nat.le_of_succ_le ho), h.gathered⟩
  · obtain ⟨hactive, hgathered⟩ := Swept.items (s := ⟨s.gathered, s.active.filter fun i => k ≤ stop i⟩) hvisit hitems
      (h.active k le_rfl) h.gathered
    refine ⟨fun o ho => ?_, hgathered⟩
    rw [hactive, List.filter_filter]
    refine List.filter_congr fun i _ => ?_
    rw [Bool.eq_iff_iff, Bool.and_eq_true, decide_eq_true_iff, decide_eq_true_iff]
    exact ⟨And.left, fun hle => ⟨hle, (Nat.le_of_succ_le ho).trans hle⟩⟩

/-- What a sweep gathers comes from the start or from a pair of items that touch. -/
theorem sweep_iff (hitems : ∀ o, ∀ i ∈ bucket o, start i = o ∧ o ≤ stop i)
    (hvisit : ∀ i s p, P (visit i s p) ↔ P s ∨ Adds p i) (n : Nat) (init : σ) :
    P (sweep stop visit bucket n init).gathered ↔
      P init ∨ ∃ p i, [p, i].Sublist ((List.range (n + 1)).flatMap bucket) ∧ start i ≤ stop p ∧ Adds p i := by
  suffices hrun : ∀ k, Swept stop P Adds start init ((List.range k).flatMap bucket) k
      ((List.range k).foldl (sweepOffset stop visit bucket) ⟨init, []⟩) from (hrun (n + 1)).gathered
  intro k
  induction k with
  | zero =>
    refine ⟨fun o _ => rfl, ⟨Or.inl, fun h => h.resolve_right ?_⟩⟩
    rintro ⟨p, i, hpair, -⟩
    exact absurd hpair.length_le (by simp)
  | succ k ih =>
    rw [List.range_succ, List.foldl_append, List.flatMap_append, List.flatMap_singleton]
    exact ih.offset hvisit (hitems k)

end

end Mesa.Foundation
