/-
Fallible computations in `Except`: how a successful bind, guard or fold comes apart.
-/
import Mathlib.Tactic

namespace Mesa.Foundation

variable {ε α β σ ι : Type}

/-- A sequence succeeds exactly when its first part does and the rest does on its value. -/
theorem bind_eq_ok {x : Except ε α} {f : α → Except ε β} {b : β} :
    (x >>= f) = .ok b ↔ ∃ a, x = .ok a ∧ f a = .ok b := by
  cases x with
  | error e => simp [bind, Except.bind]
  | ok a => simp [bind, Except.bind]

theorem map_eq_ok {x : Except ε α} {f : α → β} {b : β} : x.map f = .ok b ↔ ∃ a, x = .ok a ∧ f a = b := by
  cases x with
  | error e => simp [Except.map]
  | ok a => simp [Except.map]

theorem pure_eq_ok {a b : α} : (pure a : Except ε α) = .ok b ↔ a = b := by
  simp [pure, Except.pure]

/-- Each result of a loop is that of an element. -/
theorem mem_of_mapM {f : α → Except ε β} : ∀ {l : List α} {r : List β}, l.mapM f = .ok r → ∀ b ∈ r, ∃ a ∈ l, f a = .ok b
  | [], r, h, b, hb => by
    cases h
    cases hb
  | a :: l, r, h, b, hb => by
    rw [List.mapM_cons] at h
    obtain ⟨c, hc, h⟩ := bind_eq_ok.1 h
    obtain ⟨rest, hrest, h⟩ := bind_eq_ok.1 h
    cases h
    rcases List.mem_cons.1 hb with rfl | hb
    · exact ⟨a, List.mem_cons_self, hc⟩
    · obtain ⟨a', ha', hfa⟩ := mem_of_mapM hrest b hb
      exact ⟨a', List.mem_cons_of_mem _ ha', hfa⟩

/-- Every element of a loop that succeeds has its result. -/
theorem exists_of_mapM {f : α → Except ε β} : ∀ {l : List α} {r : List β}, l.mapM f = .ok r → ∀ a ∈ l, ∃ b ∈ r, f a = .ok b
  | [], _, _, _, ha => absurd ha List.not_mem_nil
  | a :: l, r, h, a', ha => by
    rw [List.mapM_cons] at h
    obtain ⟨c, hc, h⟩ := bind_eq_ok.1 h
    obtain ⟨rest, hrest, h⟩ := bind_eq_ok.1 h
    cases h
    rcases List.mem_cons.1 ha with rfl | ha
    · exact ⟨c, List.mem_cons_self, hc⟩
    · obtain ⟨b, hb, hfa⟩ := exists_of_mapM hrest a' ha
      exact ⟨b, List.mem_cons_of_mem _ hb, hfa⟩

/-- A loop whose steps all succeed gives their results in order. -/
theorem mapM_forall₂ {f : α → Except ε β} {R : α → β → Prop} : ∀ {l : List α}, (∀ a ∈ l, ∃ b, f a = .ok b ∧ R a b) →
    ∃ r, l.mapM f = .ok r ∧ List.Forall₂ R l r
  | [], _ => ⟨[], rfl, .nil⟩
  | a :: l, h => by
    obtain ⟨⟨b, hb, hab⟩, hl⟩ := List.forall_mem_cons.1 h
    obtain ⟨r, hr, hrel⟩ := mapM_forall₂ hl
    refine ⟨b :: r, ?_, .cons hab hrel⟩
    rw [List.mapM_cons, hb, hr]
    rfl

/-- A loop over `l` that stops at the first error. -/
def foldOk (f : σ → ι → Except ε σ) : σ → List ι → Except ε σ
  | s, [] => .ok s
  | s, i :: l => do
    let next ← f s i
    foldOk f next l

theorem foldOk_cons_eq_ok {f : σ → ι → Except ε σ} {s t : σ} {i : ι} {l : List ι} :
    foldOk f s (i :: l) = .ok t ↔ ∃ u, f s i = .ok u ∧ foldOk f u l = .ok t :=
  bind_eq_ok

/-- What every iteration that succeeds preserves holds after the loop. -/
theorem foldOk_invariant {f : σ → ι → Except ε σ} {I : σ → Prop}
    (step : ∀ s i s', I s → f s i = .ok s' → I s') : ∀ {l : List ι} {s t : σ},
    I s → foldOk f s l = .ok t → I t
  | [], s, t, h, ht => by cases ht; exact h
  | i :: l, s, t, h, ht => by
    obtain ⟨u, hu, ht'⟩ := foldOk_cons_eq_ok.1 ht
    exact foldOk_invariant step (step s i u h hu) ht'

/-- The same for iterations over the entries of the list only. -/
theorem foldOk_invariant_mem {f : σ → ι → Except ε σ} {I : σ → Prop} : ∀ {l : List ι} {s t : σ},
    (∀ i ∈ l, ∀ s s', I s → f s i = .ok s' → I s') → I s → foldOk f s l = .ok t → I t
  | [], s, t, _, h, ht => by cases ht; exact h
  | i :: l, s, t, step, h, ht => by
    obtain ⟨u, hu, ht'⟩ := foldOk_cons_eq_ok.1 ht
    exact foldOk_invariant_mem (fun j hj => step j (List.mem_cons_of_mem _ hj)) (step i List.mem_cons_self s u h hu) ht'

/-- The state a computation leaves behind: its result, or the old state when it raised. -/
def orKeep (s : σ) : Except ε σ → σ
  | .ok t => t
  | .error _ => s

@[simp] theorem orKeep_ok (s t : σ) : orKeep s (.ok t : Except ε σ) = t := rfl

@[simp] theorem orKeep_error (s : σ) (e : ε) : orKeep s (.error e : Except ε σ) = s := rfl

theorem orKeep_invariant {s : σ} {x : Except ε σ} {P : σ → Prop} (h : P s) (hx : ∀ t, x = .ok t → P t) :
    P (orKeep s x) := by
  cases x with
  | error e => exact h
  | ok t => exact hx t rfl

end Mesa.Foundation
