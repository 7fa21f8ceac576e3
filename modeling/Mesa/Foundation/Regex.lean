/-
Regular expressions with bounded repetition, as a backtracking matcher runs them: alternatives and repetitions are tried
in order, an atomic part gives up no choice once it has matched, and an assertion looks at the characters on both sides
of a position. What a match is depends on the character before it and on what follows, and on nothing else.
-/
import Mathlib.Tactic

namespace Mesa.Foundation

variable {α ν : Type}

/-! ## Expressions -/

/-- Expressions over characters `α` with groups named by `ν`. -/
inductive Regex (α ν : Type)
  | eps
  | char (p : α → Bool)
  | here (p : Option α → Option α → Bool)
  | seq (a b : Regex α ν)
  | alt (a b : Regex α ν)
  /-- At most `n` times, as often as possible. -/
  | greedy (n : Nat) (a : Regex α ν)
  /-- At most `n` times, as rarely as possible. -/
  | lazy (n : Nat) (a : Regex α ν)
  | atomic (a : Regex α ν)
  | group (g : ν) (a : Regex α ν)

/-- A position in a match: the character before it, what follows, how much was matched, and the groups. -/
structure Cursor (α ν : Type) where
  before : Option α
  rest : List α
  pos : Nat
  groups : ν → Option (Nat × Nat)

/-- Up to `n` rounds of `f`, more rounds first. -/
def mostRounds (f : Cursor α ν → List (Cursor α ν)) : Nat → Cursor α ν → List (Cursor α ν)
  | 0, c => [c]
  | n + 1, c => (f c).flatMap (mostRounds f n) ++ [c]

/-- Up to `n` rounds of `f`, fewer rounds first. -/
def fewestRounds (f : Cursor α ν → List (Cursor α ν)) : Nat → Cursor α ν → List (Cursor α ν)
  | 0, c => [c]
  | n + 1, c => c :: (f c).flatMap (fewestRounds f n)

variable [DecidableEq ν]

namespace Regex

/-- The ends of all matches, in the order in which they are tried. -/
def run : Regex α ν → Cursor α ν → List (Cursor α ν)
  | eps, c => [c]
  | char p, c =>
    match c.rest with
    | [] => []
    | x :: rest => if p x then [⟨some x, rest, c.pos + 1, c.groups⟩] else []
  | here p, c => if p c.before c.rest.head? then [c] else []
  | seq a b, c => (a.run c).flatMap b.run
  | alt a b, c => a.run c ++ b.run c
  | greedy n a, c => mostRounds a.run n c
  | lazy n a, c => fewestRounds a.run n c
  | atomic a, c => (a.run c).take 1
  | group g a, c => (a.run c).map fun d => { d with groups := Function.update d.groups g (some (c.pos, d.pos)) }

/-- The match that begins at a position. -/
def matchAt (r : Regex α ν) (before : Option α) (rest : List α) : Option (Cursor α ν) :=
  (r.run ⟨before, rest, 0, fun _ => none⟩).head?

/-- Exactly `n` times. -/
def times : Nat → Regex α ν → Regex α ν
  | 0, _ => eps
  | n + 1, a => seq a (times n a)

/-- From `m` to `n` times, all that there are: `{m,n}+`. -/
def all (m n : Nat) (a : Regex α ν) : Regex α ν := atomic (seq (times m a) (greedy (n - m) a))

/-- From `m` to `n` times: `{m,n}`. -/
def between (m n : Nat) (a : Regex α ν) : Regex α ν := seq (times m a) (greedy (n - m) a)

def opt (a : Regex α ν) : Regex α ν := greedy 1 a

/-- A literal text, up to an equivalence of characters. -/
def literal (same : α → α → Bool) : List α → Regex α ν
  | [] => eps
  | c :: l => seq (char (same c)) (literal same l)

/-- One of several, the first ones first. -/
def oneOf : List (Regex α ν) → Regex α ν
  | [] => here fun _ _ => false
  | [a] => a
  | a :: rest => alt a (oneOf rest)

def seqs : List (Regex α ν) → Regex α ν
  | [] => eps
  | a :: rest => seq a (seqs rest)

end Regex

/-! ## A match stays in the text -/

/-- A cursor that was reached by going forward. -/
structure Ahead (c d : Cursor α ν) : Prop where
  pos : c.pos ≤ d.pos
  fits : d.pos - c.pos ≤ c.rest.length
  rest : d.rest = c.rest.drop (d.pos - c.pos)
  before : d.before = if d.pos = c.pos then c.before else c.rest[d.pos - c.pos - 1]?

section

omit [DecidableEq ν]

variable {c d e : Cursor α ν}

theorem Ahead.refl (c : Cursor α ν) : Ahead c c where
  pos := le_rfl
  fits := by omega
  rest := by rw [Nat.sub_self, List.drop_zero]
  before := (if_pos rfl).symm

theorem Ahead.trans (h : Ahead c d) (h' : Ahead d e) : Ahead c e := by
  have hpos := h.pos
  have hpos' := h'.pos
  have hfits := h.fits
  have hfits' := h'.fits
  rw [h.rest, List.length_drop] at hfits'
  refine ⟨by omega, by omega, ?_, ?_⟩
  · rw [h'.rest, h.rest, List.drop_drop]
    congr 1
    omega
  · rw [h'.before]
    by_cases hde : e.pos = d.pos
    · rw [if_pos hde, h.before, hde]
    · rw [if_neg hde, if_neg (by omega), h.rest, List.getElem?_drop]
      congr 1
      omega

theorem Ahead.groups (h : Ahead c d) (groups : ν → Option (Nat × Nat)) : Ahead c { d with groups } :=
  ⟨h.pos, h.fits, h.rest, h.before⟩

theorem mostRounds_ahead {f : Cursor α ν → List (Cursor α ν)} (hf : ∀ c, ∀ d ∈ f c, Ahead c d) (n : Nat) :
    ∀ d ∈ mostRounds f n c, Ahead c d := by
  induction n generalizing c with
  | zero =>
    intro d hd
    rw [List.mem_singleton.1 hd]
    exact .refl c
  | succ n ih =>
    intro d hd
    rcases List.mem_append.1 hd with hd | hd
    · obtain ⟨x, hx, hd⟩ := List.mem_flatMap.1 hd
      exact (hf c x hx).trans (ih d hd)
    · rw [List.mem_singleton.1 hd]
      exact .refl c

theorem fewestRounds_ahead {f : Cursor α ν → List (Cursor α ν)} (hf : ∀ c, ∀ d ∈ f c, Ahead c d) (n : Nat) :
    ∀ d ∈ fewestRounds f n c, Ahead c d := by
  induction n generalizing c with
  | zero =>
    intro d hd
    rw [List.mem_singleton.1 hd]
    exact .refl c
  | succ n ih =>
    intro d hd
    rcases List.mem_cons.1 hd with rfl | hd
    · exact .refl d
    · obtain ⟨x, hx, hd⟩ := List.mem_flatMap.1 hd
      exact (hf c x hx).trans (ih d hd)

end

/-- Matching goes forward in the text. -/
theorem Regex.run_ahead (r : Regex α ν) (c : Cursor α ν) : ∀ d ∈ r.run c, Ahead c d := by
  induction r generalizing c with
  | eps =>
    intro d hd
    rw [List.mem_singleton.1 hd]
    exact .refl c
  | char p =>
    intro d hd
    rw [run] at hd
    split at hd
    · cases hd
    · next x rest hrest =>
      split at hd
      · rw [List.mem_singleton.1 hd]
        refine ⟨Nat.le_succ _, ?_, ?_, ?_⟩
        · dsimp only
          rw [hrest, List.length_cons]
          omega
        · dsimp only
          rw [hrest, Nat.add_sub_cancel_left, List.drop_one, List.tail_cons]
        · dsimp only
          rw [if_neg (by omega), hrest, Nat.add_sub_cancel_left]
          rfl
      · cases hd
  | here p =>
    intro d hd
    rw [run] at hd
    split at hd
    · rw [List.mem_singleton.1 hd]
      exact .refl c
    · cases hd
  | seq a b iha ihb =>
    intro d hd
    obtain ⟨x, hx, hd⟩ := List.mem_flatMap.1 hd
    exact (iha c x hx).trans (ihb x d hd)
  | alt a b iha ihb =>
    intro d hd
    rcases List.mem_append.1 hd with hd | hd
    · exact iha c d hd
    · exact ihb c d hd
  | greedy n a ih => exact mostRounds_ahead ih n
  | lazy n a ih => exact fewestRounds_ahead ih n
  | atomic a ih => exact fun d hd => ih c d (List.mem_of_mem_take hd)
  | group g a ih =>
    intro d hd
    obtain ⟨x, hx, rfl⟩ := List.mem_map.1 hd
    exact (ih c x hx).groups _

theorem Regex.matchAt_ahead {r : Regex α ν} {before : Option α} {rest : List α} {d : Cursor α ν}
    (h : r.matchAt before rest = some d) : Ahead ⟨before, rest, 0, fun _ => none⟩ d :=
  r.run_ahead _ d (List.mem_of_mem_head? h)

theorem Regex.matchAt_pos_le {r : Regex α ν} {before : Option α} {rest : List α} {d : Cursor α ν}
    (h : r.matchAt before rest = some d) : d.pos ≤ rest.length := by
  have hfits := (matchAt_ahead h).fits
  dsimp only at hfits
  omega

end Mesa.Foundation
