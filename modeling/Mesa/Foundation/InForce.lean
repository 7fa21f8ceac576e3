/-
What a history of grants and revocations leaves in force for one subject, and the highest of the
levels that are in force.
-/
import Mathlib.Tactic

namespace Mesa.Foundation

/-- What one operation does for a subject. -/
inductive Effect (α : Type)
  | grant (a : α)
  | revoke
  | nothing

variable {α : Type}

def Effect.after (l : List α) : Effect α → List α
  | .grant a => a :: l
  | .revoke => []
  | .nothing => l

/-- The grants in force after a history, the last one first. -/
def inForce (history : List (Effect α)) : List α := history.foldl Effect.after []

@[simp] theorem inForce_nil : inForce ([] : List (Effect α)) = [] := rfl

theorem inForce_snoc (history : List (Effect α)) (e : Effect α) :
    inForce (history ++ [e]) = e.after (inForce history) := by
  rw [inForce, List.foldl_append]
  rfl

/-- The same for the last grant alone. -/
def Effect.replace (a : Option α) : Effect α → Option α
  | .grant b => some b
  | .revoke => none
  | .nothing => a

theorem head?_after (l : List α) (e : Effect α) : (e.after l).head? = e.replace l.head? := by
  cases e <;> rfl

/-! ## Levels -/

variable (rank : α → Nat)

/-- The higher of two levels, the first one when they tie. -/
def higher (a b : α) : α := if rank a ≥ rank b then a else b

/-- The highest level of a list. -/
def highest : List α → Option α
  | [] => none
  | a :: l => some ((highest l).elim a fun b => higher rank b a)

theorem rank_higher (a b : α) : rank (higher rank a b) = max (rank a) (rank b) := by
  unfold higher
  split <;> omega

/-- The same for the highest level alone. -/
def Effect.raise (a : Option α) : Effect α → Option α
  | .grant b => some (a.elim b fun c => higher rank c b)
  | .revoke => none
  | .nothing => a

variable {rank}

theorem highest_after (l : List α) (e : Effect α) : highest rank (e.after l) = e.raise rank (highest rank l) := by
  cases e <;> rfl

/-- A requirement is met by the highest level exactly when some level meets it. -/
theorem highest_meets {n : Nat} : ∀ {l : List α}, (∃ a, highest rank l = some a ∧ n ≤ rank a) ↔ ∃ a ∈ l, n ≤ rank a
  | [] => by simp [highest]
  | a :: l => by
    have ih := highest_meets (n := n) (l := l)
    rw [List.exists_mem_cons_iff, ← ih, highest]
    cases h : highest rank l with
    | none => simp
    | some b =>
      simp only [Option.elim_some, Option.some.injEq, exists_eq_left']
      rw [rank_higher rank b a, le_max_iff, or_comm]

/-- The largest value of a loop meets a requirement exactly when its start or one value does. -/
theorem le_foldl_max_iff {β : Type} (f : β → Nat) {m : Nat} : ∀ (l : List β) (n : Nat),
    m ≤ l.foldl (fun largest x => max largest (f x)) n ↔ m ≤ n ∨ ∃ x ∈ l, m ≤ f x
  | [], n => by simp
  | x :: l, n => by
    rw [List.foldl_cons, le_foldl_max_iff f l, le_max_iff, List.exists_mem_cons_iff, or_assoc]

end Mesa.Foundation
