/-
Trimming: a list without the elements of a class at its two ends. Every list is either all of the
class or a tight list between two paddings, and two trimmings of one list are compared by the
paddings they remove.
-/
import Mathlib.Data.List.DropRight
import Mathlib.Data.List.TakeWhile
import Mathlib.Tactic

namespace Mesa.Foundation

variable {α : Type} (p : α → Bool)

/-- The list without its elements of `p` on the left and on the right. -/
def trimBy (l : List α) : List α := (l.dropWhile p).rdropWhile p

/-- Not empty, and both ends are outside of `p`. -/
def Tight (l : List α) : Prop := l ≠ [] ∧ l.dropWhile p = l ∧ l.rdropWhile p = l

variable {p}

theorem rdropWhile_append_of_all {l b : List α} (h : ∀ c ∈ b, p c = true) : (l ++ b).rdropWhile p = l.rdropWhile p := by
  unfold List.rdropWhile
  rw [List.reverse_append, List.dropWhile_append_of_pos fun c hc => h c (List.mem_reverse.1 hc)]

theorem dropWhile_append_of_stuck {l b : List α} (hl : l ≠ []) (h : l.dropWhile p = l) :
    (l ++ b).dropWhile p = l ++ b := by
  cases l with
  | nil => exact absurd rfl hl
  | cons c l =>
    rw [List.dropWhile_cons] at h
    split at h
    · have := congrArg List.length h
      have hle := List.length_dropWhile_le p l
      simp only [List.length_cons] at this
      omega
    · next hc => rw [List.cons_append, List.dropWhile_cons, if_neg hc]

theorem rdropWhile_append_of_stuck {a l : List α} (hl : l ≠ []) (h : l.rdropWhile p = l) :
    (a ++ l).rdropWhile p = a ++ l := by
  have hstuck : l.reverse.dropWhile p = l.reverse := by
    rw [← List.reverse_inj]; simpa [List.rdropWhile] using h
  unfold List.rdropWhile
  rw [List.reverse_append, dropWhile_append_of_stuck (by simpa using hl) hstuck, List.reverse_append]
  simp

/-- A tight list stays tight around anything, as long as both ends are tight. -/
theorem Tight.around {l r : List α} (hl : Tight p l) (hr : Tight p r) (m : List α) : Tight p (l ++ m ++ r) := by
  refine ⟨by simp [hl.1], ?_, rdropWhile_append_of_stuck hr.1 hr.2.2⟩
  rw [List.append_assoc]
  exact dropWhile_append_of_stuck hl.1 hl.2.1

theorem trimBy_blank {l : List α} (h : ∀ c ∈ l, p c = true) : trimBy p l = [] := by
  unfold trimBy
  rw [List.dropWhile_eq_nil_iff.2 h, List.rdropWhile_nil]

theorem trimBy_eq_nil {l : List α} : trimBy p l = [] ↔ ∀ c ∈ l, p c = true := by
  refine ⟨fun h => ?_, trimBy_blank⟩
  have hall := List.rdropWhile_eq_nil_iff.1 h
  refine List.dropWhile_eq_nil_iff.1 (List.eq_nil_iff_forall_not_mem.2 fun c hc => ?_)
  have hpos : 0 < (l.dropWhile p).length := List.length_pos_of_mem hc
  exact List.dropWhile_get_zero_not p l hpos (hall _ (List.getElem_mem hpos))

theorem trimBy_framed {a l b : List α} (ha : ∀ c ∈ a, p c = true) (hl : Tight p l) (hb : ∀ c ∈ b, p c = true) :
    trimBy p (a ++ l ++ b) = l := by
  unfold trimBy
  rw [List.append_assoc, List.dropWhile_append_of_pos ha, dropWhile_append_of_stuck hl.1 hl.2.1,
    rdropWhile_append_of_all hb, hl.2.2]

theorem trimBy_tight {l : List α} (h : Tight p l) : trimBy p l = l := by
  simpa using trimBy_framed (a := []) (b := []) (by simp) h (by simp)

/-- The two paddings and what is between them. -/
theorem padding_trimBy (l : List α) : l.takeWhile p ++ (trimBy p l ++ (l.dropWhile p).rtakeWhile p) = l := by
  unfold trimBy
  rw [List.rdropWhile_append_rtakeWhile, List.takeWhile_append_dropWhile]

theorem tight_trimBy {l : List α} (h : trimBy p l ≠ []) : Tight p (trimBy p l) := by
  refine ⟨h, ?_, by unfold trimBy; exact List.rdropWhile_idempotent p _⟩
  rw [List.dropWhile_eq_self_iff]
  intro hpos
  have hpos' : 0 < (l.dropWhile p).length := by
    have := (List.rdropWhile_prefix p (l.dropWhile p)).length_le
    exact lt_of_lt_of_le hpos this
  have hhead : (trimBy p l)[0] = (l.dropWhile p)[0] := (List.rdropWhile_prefix p (l.dropWhile p)).getElem hpos
  rw [hhead]
  exact List.dropWhile_get_zero_not p l hpos'

/-- A list with something outside of `p` is a tight list between two paddings. -/
theorem framed_of_trimBy {l : List α} (h : trimBy p l ≠ []) : ∃ a b, l = a ++ trimBy p l ++ b ∧
    (∀ c ∈ a, p c = true) ∧ Tight p (trimBy p l) ∧ ∀ c ∈ b, p c = true := by
  refine ⟨l.takeWhile p, (l.dropWhile p).rtakeWhile p, ?_, fun c => ?_, tight_trimBy h, fun c hc => ?_⟩
  · rw [List.append_assoc, padding_trimBy]
  · exact List.mem_takeWhile_imp
  · exact List.mem_rtakeWhile_imp hc

theorem trimBy_idempotent (l : List α) : trimBy p (trimBy p l) = trimBy p l := by
  by_cases h : trimBy p l = []
  · rw [h]; rfl
  · exact trimBy_tight (tight_trimBy h)

/-! ## The paddings of a framed list -/

theorem takeWhile_framed {a l b : List α} (ha : ∀ c ∈ a, p c = true) (hl : Tight p l) :
    (a ++ l ++ b).takeWhile p = a := by
  have h := List.takeWhile_append_dropWhile (p := p) (l := a ++ l ++ b)
  rw [List.append_assoc, List.dropWhile_append_of_pos ha, dropWhile_append_of_stuck hl.1 hl.2.1] at h
  rw [List.append_assoc]
  exact List.append_cancel_right h

theorem rtakeWhile_framed {a l b : List α} (hl : Tight p l) (hb : ∀ c ∈ b, p c = true) :
    (a ++ l ++ b).rtakeWhile p = b := by
  have h := List.rdropWhile_append_rtakeWhile (p := p) (l := a ++ l ++ b)
  rw [rdropWhile_append_of_all hb, rdropWhile_append_of_stuck hl.1 hl.2.2] at h
  exact List.append_cancel_left h

/-! ## A smaller class -/

/-- The paddings of `p` are of the smaller class `q`. -/
def PaddedBy (p q : α → Bool) (l : List α) : Prop :=
  (∀ c ∈ l.takeWhile p, q c = true) ∧ ∀ c ∈ l.rtakeWhile p, q c = true

instance (p q : α → Bool) (l : List α) : Decidable (PaddedBy p q l) :=
  inferInstanceAs (Decidable (_ ∧ _))

theorem Tight.mono {q : α → Bool} (hq : ∀ c, q c = true → p c = true) {l : List α} (h : Tight p l) : Tight q l := by
  obtain ⟨hne, hleft, hright⟩ := h
  refine ⟨hne, ?_, ?_⟩
  · rw [List.dropWhile_eq_self_iff] at hleft ⊢
    exact fun hpos hc => hleft hpos (hq _ hc)
  · rw [List.rdropWhile_eq_self_iff] at hright ⊢
    exact fun hl hc => hright hl (hq _ hc)

/-- Trimming by a smaller class leaves what trimming by the larger one leaves exactly when the
paddings are of the smaller class. -/
theorem trimBy_eq_iff {q : α → Bool} (hq : ∀ c, q c = true → p c = true) {l : List α} :
    trimBy q l = trimBy p l ↔ PaddedBy p q l := by
  by_cases hblank : trimBy p l = []
  · have hall := trimBy_eq_nil.1 hblank
    rw [hblank, trimBy_eq_nil, PaddedBy, List.takeWhile_eq_self_iff.2 hall, List.rtakeWhile_eq_self_iff.2 hall]
    exact ⟨fun h => ⟨h, h⟩, fun h => h.1⟩
  · obtain ⟨a, b, hl, ha, ht, hb⟩ := framed_of_trimBy hblank
    generalize trimBy p l = x at hl ht
    subst hl
    rw [PaddedBy, takeWhile_framed ha ht, rtakeWhile_framed ht hb]
    refine ⟨fun h => ?_, fun h => trimBy_framed h.1 (ht.mono hq) h.2⟩
    have hpad := padding_trimBy (p := q) (a ++ x ++ b)
    rw [h] at hpad
    have hleft := takeWhile_framed (p := p) (a := (a ++ x ++ b).takeWhile q)
      (b := ((a ++ x ++ b).dropWhile q).rtakeWhile q) (fun c hc => hq c (List.mem_takeWhile_imp hc)) ht
    have hright := rtakeWhile_framed (p := p) (a := (a ++ x ++ b).takeWhile q)
      (b := ((a ++ x ++ b).dropWhile q).rtakeWhile q) ht (fun c hc => hq c (List.mem_rtakeWhile_imp hc))
    rw [← List.append_assoc] at hpad
    rw [hpad, takeWhile_framed ha ht] at hleft
    rw [hpad, rtakeWhile_framed ht hb] at hright
    refine ⟨fun c hc => ?_, fun c hc => ?_⟩
    · rw [hleft] at hc; exact List.mem_takeWhile_imp hc
    · rw [hright] at hc; exact List.mem_rtakeWhile_imp hc

end Mesa.Foundation
