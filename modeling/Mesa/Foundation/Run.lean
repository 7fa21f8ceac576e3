/-
Runs of a deterministic machine: a total step function applied to a list of inputs. `Along`
states a condition on every step of a run, and the rules below turn one-step facts into facts
about whole runs.
-/
import Mathlib.Tactic

namespace Mesa.Foundation

variable {σ ι : Type} (exec : σ → ι → σ)

/-- The state after the inputs `l`, from left to right. -/
def run (s : σ) (l : List ι) : σ := l.foldl exec s

/-- `C` holds of every step of the run: of the state a step starts from and of its input. -/
def Along (C : σ → ι → Prop) : σ → List ι → Prop
  | _, [] => True
  | s, i :: l => C s i ∧ Along C (exec s i) l

instance Along.decidable {C : σ → ι → Prop} [∀ s i, Decidable (C s i)] : ∀ s l, Decidable (Along exec C s l)
  | _, [] => .isTrue trivial
  | s, i :: l =>
    haveI := Along.decidable (C := C) (exec s i) l
    inferInstanceAs (Decidable (C s i ∧ Along exec C (exec s i) l))

@[simp] theorem run_nil (s : σ) : run exec s [] = s := rfl

@[simp] theorem run_cons (s : σ) (i : ι) (l : List ι) : run exec s (i :: l) = run exec (exec s i) l := rfl

theorem run_append (s : σ) (l m : List ι) : run exec s (l ++ m) = run exec (run exec s l) m :=
  List.foldl_append

theorem run_snoc (s : σ) (l : List ι) (i : ι) : run exec s (l ++ [i]) = exec (run exec s l) i := by
  rw [run_append]; rfl

variable {exec}

theorem along_append {C : σ → ι → Prop} : ∀ {s : σ} {l m : List ι},
    Along exec C s (l ++ m) ↔ Along exec C s l ∧ Along exec C (run exec s l) m
  | s, [], m => by simp [Along]
  | s, i :: l, m => by
    rw [List.cons_append, Along, Along, along_append, run_cons, and_assoc]

theorem along_snoc {C : σ → ι → Prop} {s : σ} {l : List ι} {i : ι} :
    Along exec C s (l ++ [i]) ↔ Along exec C s l ∧ C (run exec s l) i := by
  rw [along_append]; simp [Along]

theorem along_mono {C D : σ → ι → Prop} (h : ∀ s i, C s i → D s i) : ∀ {s : σ} {l : List ι},
    Along exec C s l → Along exec D s l
  | _, [], _ => trivial
  | _, _ :: _, ⟨hc, hl⟩ => ⟨h _ _ hc, along_mono h hl⟩

theorem along_true : ∀ {s : σ} {l : List ι}, Along exec (fun _ _ => True) s l
  | _, [] => trivial
  | _, _ :: _ => ⟨trivial, along_true⟩

/-- The invariant rule: what every admitted step preserves holds after every admitted run. -/
theorem invariant_run {I : σ → Prop} {C : σ → ι → Prop}
    (step : ∀ s i, I s → C s i → I (exec s i)) : ∀ {s : σ} {l : List ι},
    I s → Along exec C s l → I (run exec s l)
  | _, [], h, _ => h
  | s, i :: l, h, ⟨hc, hl⟩ => by
    rw [run_cons]; exact invariant_run step (step s i h hc) hl

/-- What every step preserves, whatever its input, holds after every run. -/
theorem stable_run {I : σ → Prop} (step : ∀ s i, I s → I (exec s i)) {s : σ} {l : List ι}
    (h : I s) : I (run exec s l) :=
  invariant_run (C := fun _ _ => True) (fun s i hs _ => step s i hs) h along_true

/-- A property of every admitted step from an invariant state holds all along an admitted run. -/
theorem along_of_invariant {I : σ → Prop} {C P : σ → ι → Prop}
    (step : ∀ s i, I s → C s i → I (exec s i)) (hP : ∀ s i, I s → C s i → P s i) :
    ∀ {s : σ} {l : List ι}, I s → Along exec C s l → Along exec P s l
  | _, [], _, _ => trivial
  | s, i :: _, h, ⟨hc, hl⟩ => ⟨hP s i h hc, along_of_invariant step hP (step s i h hc) hl⟩

/-- When two conditions agree on a step from a state that meets `I` and `B`, and the second one keeps `B`, the same
runs meet both. -/
theorem along_iff {I B : σ → Prop} {C D : σ → ι → Prop} (step : ∀ s i, I s → I (exec s i))
    (agree : ∀ s i, I s → B s → (C s i ↔ D s i)) (keeps : ∀ s i, I s → B s → D s i → B (exec s i)) :
    ∀ {s : σ} {l : List ι}, I s → B s → (Along exec C s l ↔ Along exec D s l)
  | _, [], _, _ => Iff.rfl
  | s, i :: l, hi, hb => by
    rw [Along, Along, agree s i hi hb]
    exact and_congr_right fun hd => along_iff step agree keeps (step s i hi) (keeps s i hi hb hd)

/-! ## Every state of a run -/

variable (exec) in
/-- `P` holds of every state of the run, the first one and the last one included. -/
def Throughout (P : σ → Prop) : σ → List ι → Prop
  | s, [] => P s
  | s, i :: l => P s ∧ Throughout P (exec s i) l

theorem throughout_head {P : σ → Prop} : ∀ {s : σ} {l : List ι}, Throughout exec P s l → P s
  | _, [], h => h
  | _, _ :: _, h => h.1

/-- What an invariant implies holds of every state of an admitted run. -/
theorem throughout_of_invariant {I P : σ → Prop} {C : σ → ι → Prop} (step : ∀ s i, I s → C s i → I (exec s i))
    (hP : ∀ s, I s → P s) : ∀ {s : σ} {l : List ι}, I s → Along exec C s l → Throughout exec P s l
  | s, [], h, _ => hP s h
  | s, i :: _, h, ⟨hc, hl⟩ => ⟨hP s h, throughout_of_invariant step hP (step s i h hc) hl⟩

/-- When a step from an invariant state keeps `P` exactly if `C` admits it, a run keeps `P`
throughout exactly if it is admitted. -/
theorem throughout_iff_along {I P : σ → Prop} {C : σ → ι → Prop} (step : ∀ s i, I s → I (exec s i))
    (keeps : ∀ s i, I s → P s → (P (exec s i) ↔ C s i)) : ∀ {s : σ} {l : List ι}, I s → P s →
    (Throughout exec P s l ↔ Along exec C s l)
  | _, [], _, hp => ⟨fun _ => trivial, fun _ => hp⟩
  | s, i :: l, hi, hp => by
    rw [Throughout, Along]
    constructor
    · rintro ⟨-, hrest⟩
      have hnext := throughout_head hrest
      exact ⟨(keeps s i hi hp).1 hnext, (throughout_iff_along step keeps (step s i hi) hnext).1 hrest⟩
    · rintro ⟨hc, hrest⟩
      have hnext := (keeps s i hi hp).2 hc
      exact ⟨hp, (throughout_iff_along step keeps (step s i hi) hnext).2 hrest⟩

end Mesa.Foundation
