/-
Labelled partitions of a hypergraph. A labelling represents the connected components of a list of
hyperedges when exactly the nodes of the edges have labels, and two of them have the same label
exactly when the edges connect them. An edge is added node by node: a node without a label takes
the edge's, and a node with another label merges the two classes under either of their labels.
-/
import Mathlib.Logic.Relation
import Mathlib.Tactic

namespace Mesa.Foundation

variable {ν ι : Type}

/-! ## Connected nodes -/

/-- Two nodes of one hyperedge. -/
def Joined (H : List (List ν)) (v w : ν) : Prop := ∃ e ∈ H, v ∈ e ∧ w ∈ e

/-- Nodes that a chain of hyperedges connects. -/
def Connected (H : List (List ν)) : ν → ν → Prop := Relation.EqvGen (Joined H)

theorem Joined.connected {H : List (List ν)} {v w : ν} (h : Joined H v w) : Connected H v w := .rel _ _ h

theorem Connected.symm {H : List (List ν)} {v w : ν} (h : Connected H v w) : Connected H w v := Relation.EqvGen.symm _ _ h

theorem Connected.trans {H : List (List ν)} {u v w : ν} (h : Connected H u v) (k : Connected H v w) : Connected H u w :=
  Relation.EqvGen.trans _ _ _ h k

/-- A larger hypergraph connects more. -/
theorem Connected.mono {H K : List (List ν)} (hsub : ∀ v w, Joined H v w → Joined K v w) {v w : ν}
    (h : Connected H v w) : Connected K v w :=
  Relation.EqvGen.mono hsub _ _ h

/-- Nodes that are connected agree on everything that the nodes of each edge agree on. -/
theorem Connected.agree {α : Type} {H : List (List ν)} {f : ν → α} (hf : ∀ e ∈ H, ∀ v ∈ e, ∀ w ∈ e, f v = f w)
    {v w : ν} (h : Connected H v w) : f v = f w := by
  induction h with
  | rel v w h => obtain ⟨e, he, hv, hw⟩ := h; exact hf e he v hv w hw
  | refl v => rfl
  | symm v w _ ih => exact ih.symm
  | trans u v w _ _ ih₁ ih₂ => exact ih₁.trans ih₂

/-! ## Labelled partitions -/

/-- The labels `f` are the connected components of `H`. -/
structure Partition (H : List (List ν)) (f : ν → Option ι) : Prop where
  covers : ∀ v, (f v).isSome ↔ ∃ e ∈ H, v ∈ e
  joins : ∀ e ∈ H, ∀ v ∈ e, ∀ w ∈ e, f v = f w
  separates : ∀ v w l, f v = some l → f w = some l → Connected H v w

/-- Only the nodes of the last edge matter, not their order. -/
theorem Partition.congr {H : List (List ν)} {e e' : List ν} {f : ν → Option ι} (h : Partition (e :: H) f)
    (hmem : ∀ v, v ∈ e ↔ v ∈ e') : Partition (e' :: H) f := by
  have hjoined : ∀ v w, Joined (e :: H) v w → Joined (e' :: H) v w := by
    rintro v w ⟨d, hd, hv, hw⟩
    rcases List.mem_cons.1 hd with rfl | hd
    · exact ⟨e', List.mem_cons_self, (hmem v).1 hv, (hmem w).1 hw⟩
    · exact ⟨d, List.mem_cons_of_mem _ hd, hv, hw⟩
  refine ⟨fun v => ?_, fun d hd v hv w hw => ?_, fun v w l hv hw => (h.separates v w l hv hw).mono hjoined⟩
  · rw [h.covers v]
    simp only [List.mem_cons, exists_eq_or_imp, hmem]
  · rcases List.mem_cons.1 hd with rfl | hd
    · exact h.joins e List.mem_cons_self v ((hmem v).2 hv) w ((hmem w).2 hw)
    · exact h.joins d (List.mem_cons_of_mem _ hd) v hv w hw

/-! ## Building an edge -/

/-- An edge `e` under construction over `H`: its nodes have the label `r`, which is the label of no
other class. -/
structure OpenEdge (H : List (List ν)) (e : List ν) (f : ν → Option ι) (r : ι) : Prop where
  partition : Partition (e :: H) f
  labelled : ∀ v ∈ e, f v = some r
  fresh : ∀ v, f v = some r → e ≠ []

theorem Joined.cons {H : List (List ν)} {e : List ν} {u v w : ν} (h : Joined (e :: H) v w) :
    Joined ((u :: e) :: H) v w := by
  obtain ⟨d, hd, hv, hw⟩ := h
  rcases List.mem_cons.1 hd with rfl | hd
  · exact ⟨u :: d, List.mem_cons_self, List.mem_cons_of_mem _ hv, List.mem_cons_of_mem _ hw⟩
  · exact ⟨d, List.mem_cons_of_mem _ hd, hv, hw⟩

section Attach

variable {H : List (List ν)} {e : List ν} {f g : ν → Option ι} {r s : ι} {v : ν}

/-- A labelled node is attached to the open edge: both classes take one of the two labels. -/
theorem OpenEdge.merge {w : ι} (h : OpenEdge H e f r) (hv : f v = some s)
    (hg : ∀ x l, g x = some l ↔ ((f x = some r ∨ f x = some s) ∧ l = w) ∨ (f x = some l ∧ l ≠ r ∧ l ≠ s))
    (hw : w = r ∨ w = s) : OpenEdge H (v :: e) g w := by
  have hv' : Joined ((v :: e) :: H) v v := ⟨v :: e, List.mem_cons_self, List.mem_cons_self, List.mem_cons_self⟩
  -- a node of either old class is connected to `v`
  have hclass : ∀ x, f x = some r ∨ f x = some s → Connected ((v :: e) :: H) x v := by
    rintro x (hx | hx)
    · obtain ⟨u, hu⟩ := List.exists_mem_of_ne_nil e (h.fresh x hx)
      have hxu := (h.partition.separates x u r hx (h.labelled u hu)).mono fun _ _ => Joined.cons (u := v)
      exact hxu.trans (Joined.connected ⟨v :: e, List.mem_cons_self, List.mem_cons_of_mem _ hu, List.mem_cons_self⟩)
    · exact (h.partition.separates x v s hx hv).mono fun _ _ => Joined.cons
  have hsome : ∀ x, (g x).isSome ↔ (f x).isSome := by
    intro x
    constructor
    · intro hx
      obtain ⟨l, hl⟩ := Option.isSome_iff_exists.1 hx
      rcases (hg x l).1 hl with ⟨hf | hf, -⟩ | ⟨hf, -⟩ <;> rw [hf] <;> rfl
    · intro hx
      obtain ⟨l, hl⟩ := Option.isSome_iff_exists.1 hx
      by_cases hrs : l = r ∨ l = s
      · rw [(hg x w).2 (Or.inl ⟨hrs.imp (by rintro rfl; exact hl) (by rintro rfl; exact hl), rfl⟩)]; rfl
      · rw [(hg x l).2 (Or.inr ⟨hl, fun h => hrs (Or.inl h), fun h => hrs (Or.inr h)⟩)]; rfl
  -- `g` is a function of `f`
  have hcongr : ∀ x y, f x = f y → g x = g y := by
    intro x y hxy
    refine Option.ext fun l => ?_
    rw [hg, hg, hxy]
  have hedge : ∀ x ∈ v :: e, g x = some w := by
    intro x hx
    refine (hg x w).2 (Or.inl ⟨?_, rfl⟩)
    rcases List.mem_cons.1 hx with rfl | hx
    · exact Or.inr hv
    · exact Or.inl (h.labelled x hx)
  refine ⟨⟨fun x => ?_, fun d hd x hx y hy => ?_, fun x y l hx hy => ?_⟩, hedge, fun _ _ => List.cons_ne_nil _ _⟩
  · rw [hsome, h.partition.covers]
    simp only [List.mem_cons, exists_eq_or_imp]
    constructor
    · rintro (hx | hx)
      · exact Or.inl (Or.inr hx)
      · exact Or.inr hx
    · rintro ((rfl | hx) | hx)
      · have := (h.partition.covers x).1 (by rw [hv]; rfl)
        simpa only [List.mem_cons, exists_eq_or_imp] using this
      · exact Or.inl hx
      · exact Or.inr hx
  · rcases List.mem_cons.1 hd with rfl | hd
    · rw [hedge x hx, hedge y hy]
    · exact hcongr x y (h.partition.joins d (List.mem_cons_of_mem _ hd) x hx y hy)
  · rcases (hg x l).1 hx with ⟨hfx, rfl⟩ | ⟨hfx, hlr, hls⟩
    · rcases (hg y l).1 hy with ⟨hfy, -⟩ | ⟨hfy, hlr, hls⟩
      · exact (hclass x hfx).trans (hclass y hfy).symm
      · rcases hw with hw | hw
        · exact absurd hw hlr
        · exact absurd hw hls
    · rcases (hg y l).1 hy with ⟨-, rfl⟩ | ⟨hfy, -⟩
      · rcases hw with hw | hw
        · exact absurd hw hlr
        · exact absurd hw hls
      · exact (h.partition.separates x y l hfx hfy).mono fun _ _ => Joined.cons

/-- A node without a label is attached to the open edge and takes its label. -/
theorem OpenEdge.attach (h : OpenEdge H e f r) (hv : f v = none) (hgv : g v = some r) (hg : ∀ x, x ≠ v → g x = f x) :
    OpenEdge H (v :: e) g r := by
  have hout : ∀ d ∈ e :: H, ∀ x ∈ d, x ≠ v := by
    rintro d hd x hx rfl
    have := (h.partition.covers x).2 ⟨d, hd, hx⟩
    rw [hv] at this; cases this
  have hedge : ∀ x ∈ v :: e, g x = some r := by
    intro x hx
    rcases List.mem_cons.1 hx with rfl | hx
    · exact hgv
    · rw [hg x (hout e List.mem_cons_self x hx), h.labelled x hx]
  have hclass : ∀ x, f x = some r → Connected ((v :: e) :: H) x v := by
    intro x hx
    obtain ⟨u, hu⟩ := List.exists_mem_of_ne_nil e (h.fresh x hx)
    have hxu := (h.partition.separates x u r hx (h.labelled u hu)).mono fun _ _ => Joined.cons (u := v)
    exact hxu.trans (Joined.connected ⟨v :: e, List.mem_cons_self, List.mem_cons_of_mem _ hu, List.mem_cons_self⟩)
  refine ⟨⟨fun x => ?_, fun d hd x hx y hy => ?_, fun x y l hx hy => ?_⟩, hedge, fun _ _ => List.cons_ne_nil _ _⟩
  · by_cases hxv : x = v
    · subst hxv
      simp [hgv]
    · rw [hg x hxv, h.partition.covers]
      simp only [List.mem_cons, exists_eq_or_imp, hxv, false_or]
  · rcases List.mem_cons.1 hd with rfl | hd
    · rw [hedge x hx, hedge y hy]
    · have hd' := List.mem_cons_of_mem e hd
      rw [hg x (hout d hd' x hx), hg y (hout d hd' y hy)]
      exact h.partition.joins d hd' x hx y hy
  · by_cases hxv : x = v <;> by_cases hyv : y = v
    · rw [hxv, hyv]; exact Relation.EqvGen.refl _
    · rw [hxv, hgv] at hx; cases hx
      rw [hg y hyv] at hy
      rw [hxv]; exact (hclass y hy).symm
    · rw [hyv, hgv] at hy; cases hy
      rw [hg x hxv] at hx
      rw [hyv]; exact hclass x hx
    · rw [hg x hxv] at hx
      rw [hg y hyv] at hy
      exact (h.partition.separates x y l hx hy).mono fun _ _ => Joined.cons

end Attach

end Mesa.Foundation
