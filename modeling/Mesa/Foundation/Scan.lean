/-
Scanning a list for the matches of a pattern, from left to right and without overlaps, and cutting a list at given
positions. A pattern sees the element before the position and what follows it, and says how long its match is.
-/
import Mathlib.Tactic

namespace Mesa.Foundation

variable {α : Type}

/-! ## Matches -/

abbrev Pattern (α : Type) := Option α → List α → Option Nat

/-- A match, from its first position to the one after its last. -/
structure Span where
  start : Nat
  stop : Nat
  deriving DecidableEq

/-- The matches from a position on; the first `skip` elements belong to the match before. A match is not empty. -/
def scanFrom (m : Pattern α) : Nat → Option α → Nat → List α → List Span
  | _, _, _, [] => []
  | pos, _, skip + 1, c :: l => scanFrom m (pos + 1) (some c) skip l
  | pos, prev, 0, c :: l =>
    match m prev (c :: l) with
    | some (n + 1) => ⟨pos, pos + n + 1⟩ :: scanFrom m (pos + 1) (some c) n l
    | _ => scanFrom m (pos + 1) (some c) 0 l

/-- All matches of the pattern. -/
def scan (m : Pattern α) (l : List α) : List Span := scanFrom m 0 none 0 l

/-- A pattern does not match beyond the end. -/
def Pattern.Fits (m : Pattern α) : Prop := ∀ prev l n, m prev l = some n → n ≤ l.length

/-- The matches begin at different positions, from left to right, inside of the list. -/
theorem scanFrom_starts (m : Pattern α) : ∀ (pos : Nat) (prev : Option α) (skip : Nat) (l : List α),
    ((scanFrom m pos prev skip l).map Span.start).Pairwise (· < ·) ∧
      ∀ s ∈ scanFrom m pos prev skip l, pos ≤ s.start ∧ s.start < pos + l.length ∧ s.start < s.stop
  | _, _, _, [] => ⟨List.Pairwise.nil, fun _ h => absurd h List.not_mem_nil⟩
  | pos, prev, skip + 1, c :: l => by
    obtain ⟨hsorted, hinside⟩ := scanFrom_starts m (pos + 1) (some c) skip l
    rw [scanFrom]
    refine ⟨hsorted, fun s hs => ?_⟩
    obtain ⟨hlow, hhigh, hpos⟩ := hinside s hs
    rw [List.length_cons]
    omega
  | pos, prev, 0, c :: l => by
    rw [scanFrom]
    split
    · next n _ =>
      obtain ⟨hsorted, hinside⟩ := scanFrom_starts m (pos + 1) (some c) n l
      refine ⟨List.pairwise_cons.2 ⟨fun a ha => ?_, hsorted⟩, fun s hs => ?_⟩
      · obtain ⟨s, hs, rfl⟩ := List.mem_map.1 ha
        exact (hinside s hs).1
      · rw [List.length_cons]
        rcases List.mem_cons.1 hs with rfl | hs
        · dsimp only
          omega
        · obtain ⟨hlow, hhigh, hpos⟩ := hinside s hs
          omega
    · obtain ⟨hsorted, hinside⟩ := scanFrom_starts m (pos + 1) (some c) 0 l
      refine ⟨hsorted, fun s hs => ?_⟩
      obtain ⟨hlow, hhigh, hpos⟩ := hinside s hs
      rw [List.length_cons]
      omega

theorem scanFrom_stops {m : Pattern α} (hm : m.Fits) : ∀ (pos : Nat) (prev : Option α) (skip : Nat) (l : List α),
    ∀ s ∈ scanFrom m pos prev skip l, s.stop ≤ pos + l.length
  | _, _, _, [], _, h => absurd h List.not_mem_nil
  | pos, prev, skip + 1, c :: l, s, hs => by
    rw [scanFrom] at hs
    have := scanFrom_stops hm (pos + 1) (some c) skip l s hs
    rw [List.length_cons]
    omega
  | pos, prev, 0, c :: l, s, hs => by
    rw [scanFrom] at hs
    rw [List.length_cons]
    split at hs
    · next n hn =>
      have hfits := hm prev (c :: l) (n + 1) hn
      rw [List.length_cons] at hfits
      rcases List.mem_cons.1 hs with rfl | hs
      · dsimp only
        omega
      · have := scanFrom_stops hm (pos + 1) (some c) n l s hs
        omega
    · have := scanFrom_stops hm (pos + 1) (some c) 0 l s hs
      omega

theorem scan_starts (m : Pattern α) (l : List α) : ((scan m l).map Span.start).Pairwise (· < ·) :=
  (scanFrom_starts m 0 none 0 l).1

theorem mem_scan {m : Pattern α} {l : List α} {s : Span} (hs : s ∈ scan m l) : s.start < l.length ∧ s.start < s.stop := by
  obtain ⟨-, hlength, hpos⟩ := (scanFrom_starts m 0 none 0 l).2 s hs
  omega

theorem scan_stop {m : Pattern α} (hm : m.Fits) {l : List α} {s : Span} (hs : s ∈ scan m l) : s.stop ≤ l.length := by
  have := scanFrom_stops hm 0 none 0 l s hs
  omega

/-! ## Cuts -/

/-- The pieces between consecutive positions. -/
def slices (l : List α) : List Nat → List (List α)
  | a :: b :: rest => (l.take b).drop a :: slices l (b :: rest)
  | _ => []

/-- Positions that ascend cut out what is between the first and the last one. -/
theorem flatten_slices (l : List α) : ∀ (a : Nat) (rest : List Nat), (a :: rest).Pairwise (· < ·) →
    (slices l (a :: rest)).flatten = (l.take ((a :: rest).getLast (List.cons_ne_nil _ _))).drop a
  | a, [], _ => by
    rw [List.getLast_singleton, List.drop_take, Nat.sub_self, List.take_zero]
    simp [slices]
  | a, b :: rest, h => by
    obtain ⟨hab, hrest⟩ := List.pairwise_cons.1 h
    have hlast : b ≤ (b :: rest).getLast (List.cons_ne_nil _ _) := by
      cases rest with
      | nil => exact le_refl _
      | cons c rest => exact Nat.le_of_lt ((List.pairwise_cons.1 hrest).1 _ (List.getLast_mem (List.cons_ne_nil c rest)))
    rw [slices, List.flatten_cons, flatten_slices l b rest hrest, List.getLast_cons (List.cons_ne_nil b rest)]
    have hlt : a < b := hab b List.mem_cons_self
    generalize (b :: rest).getLast (List.cons_ne_nil b rest) = n at hlast
    rw [List.drop_take, List.drop_take, List.drop_take]
    have hsplit : l.drop b = (l.drop a).drop (b - a) := by
      rw [List.drop_drop]
      congr 1
      omega
    rw [hsplit, show n - a = (b - a) + (n - b) by omega, List.take_add]

/-- A slice is the text from a position to the next one. -/
theorem exists_of_mem_slices {l piece : List α} : ∀ {positions : List Nat}, piece ∈ slices l positions →
    ∃ pre a b post, positions = pre ++ a :: b :: post ∧ piece = (l.take b).drop a
  | [], h => absurd h List.not_mem_nil
  | [_], h => absurd h List.not_mem_nil
  | a :: b :: rest, h => by
    rw [slices] at h
    rcases List.mem_cons.1 h with rfl | h
    · exact ⟨[], a, b, rest, rfl, rfl⟩
    · obtain ⟨pre, a', b', post, heq, hpiece⟩ := exists_of_mem_slices h
      exact ⟨a :: pre, a', b', post, by rw [heq]; rfl, hpiece⟩

theorem length_le_of_mem_slices {l piece : List α} {positions : List Nat} (h : piece ∈ slices l positions) :
    piece.length ≤ l.length := by
  obtain ⟨-, a, b, -, -, rfl⟩ := exists_of_mem_slices h
  rw [List.length_drop, List.length_take]
  omega

/-- Positions inside of the list that ascend cut out pieces that are not empty. -/
theorem slices_ne_nil {l : List α} : ∀ {positions : List Nat}, positions.Pairwise (· < ·) →
    (∀ p ∈ positions, p ≤ l.length) → ∀ piece ∈ slices l positions, piece ≠ []
  | [], _, _, _, h => absurd h List.not_mem_nil
  | [_], _, _, _, h => absurd h List.not_mem_nil
  | a :: b :: rest, hsorted, hinside, piece, h => by
    obtain ⟨hab, hrest⟩ := List.pairwise_cons.1 hsorted
    rw [slices] at h
    rcases List.mem_cons.1 h with rfl | h
    · have hlt : a < b := hab b List.mem_cons_self
      have hb : b ≤ l.length := hinside b (List.mem_cons_of_mem _ List.mem_cons_self)
      rw [ne_eq, List.drop_eq_nil_iff, List.length_take]
      omega
    · exact slices_ne_nil hrest (fun p hp => hinside p (List.mem_cons_of_mem _ hp)) piece h

end Mesa.Foundation
