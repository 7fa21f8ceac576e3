/-
Reading a list token by token, each time the first token that the rest begins with. Where no token is the beginning of
another one, what is written as tokens one after the other is read back as these.
-/
import Mathlib.Tactic

namespace Mesa.Foundation

variable {α β : Type} [DecidableEq α] (tokens : List (List α × β))

/-- The first token that the list begins with. -/
def firstToken (l : List α) : Option (List α × β) := tokens.find? fun t => t.1.isPrefixOf l

/-- The values of the tokens that make up the list, `none` where a rest begins with no token. -/
def tokenize : Nat → List α → Option (List β)
  | _, [] => some []
  | 0, _ :: _ => none
  | fuel + 1, c :: l =>
    match firstToken tokens (c :: l) with
    | none => none
    | some t => (tokenize fuel ((c :: l).drop t.1.length)).map (t.2 :: ·)

/-- One of the two begins with the other one. -/
def Comparable (a b : List α) : Prop := a <+: b ∨ b <+: a

instance (a b : List α) : Decidable (Comparable a b) := inferInstanceAs (Decidable (_ ∨ _))

/-- No token is the beginning of another one, and none is empty. -/
structure IsPrefixCode : Prop where
  free : tokens.Pairwise fun s t => ¬ Comparable s.1 t.1
  filled : ∀ t ∈ tokens, t.1 ≠ []

variable {tokens}

omit [DecidableEq α] in
theorem comparable_of_start {a b rest : List α} (h : a <+: b ++ rest) : Comparable a b :=
  List.prefix_or_prefix_of_prefix h (List.prefix_append b rest)

theorem firstToken_none {w : List α} (h : ∀ t ∈ tokens, ¬ Comparable t.1 w) (rest : List α) :
    firstToken tokens (w ++ rest) = none := by
  refine List.find?_eq_none.2 fun t ht hprefix => ?_
  exact h t ht (comparable_of_start (List.isPrefixOf_iff_prefix.1 hprefix))

theorem firstToken_append {t : List α × β} (hcode : IsPrefixCode tokens) (ht : t ∈ tokens) (rest : List α) :
    firstToken tokens (t.1 ++ rest) = some t := by
  obtain ⟨front, back, rfl⟩ := List.append_of_mem ht
  have hfree := (List.pairwise_append.1 hcode.free).2.2
  have hnone : front.find? (fun s => s.1.isPrefixOf (t.1 ++ rest)) = none :=
    firstToken_none (fun s hs => hfree s hs t List.mem_cons_self) rest
  have hself : t.1.isPrefixOf (t.1 ++ rest) = true := List.isPrefixOf_iff_prefix.2 (List.prefix_append t.1 rest)
  unfold firstToken
  rw [List.find?_append, hnone, Option.none_or, List.find?_cons, hself]

/-- Reading goes on behind a token. -/
theorem tokenize_append {t : List α × β} (hcode : IsPrefixCode tokens) (ht : t ∈ tokens) (fuel : Nat) (rest : List α) :
    tokenize tokens (fuel + 1) (t.1 ++ rest) = (tokenize tokens fuel rest).map (t.2 :: ·) := by
  have hfirst := firstToken_append hcode ht rest
  cases hl : t.1 ++ rest with
  | nil => exact absurd (List.append_eq_nil_iff.1 hl).1 (hcode.filled t ht)
  | cons c l =>
    rw [hl] at hfirst
    rw [tokenize, hfirst, ← hl]
    dsimp only
    rw [List.drop_left]

theorem tokenize_flatten (hcode : IsPrefixCode tokens) : ∀ {ts : List (List α × β)} {fuel : Nat}, (∀ t ∈ ts, t ∈ tokens) →
    (ts.map Prod.fst).flatten.length ≤ fuel → tokenize tokens fuel (ts.map Prod.fst).flatten = some (ts.map Prod.snd)
  | [], fuel, _, _ => by cases fuel <;> rfl
  | t :: ts, fuel, h, hfuel => by
    have ht := h t List.mem_cons_self
    have hpos := List.length_pos_of_ne_nil (hcode.filled t ht)
    rw [List.map_cons, List.flatten_cons, List.length_append] at hfuel
    cases fuel with
    | zero => omega
    | succ fuel =>
      rw [List.map_cons, List.flatten_cons, tokenize_append hcode ht,
        tokenize_flatten hcode (fun s hs => h s (List.mem_cons_of_mem t hs)) (by omega)]
      rfl

/-- Reading stops where a word that is like no token follows. -/
theorem tokenize_stuck (hcode : IsPrefixCode tokens) {w : List α} (hw : w ≠ []) (hnone : ∀ t ∈ tokens, ¬ Comparable t.1 w)
    (rest : List α) : ∀ {ts : List (List α × β)} (fuel : Nat), (∀ t ∈ ts, t ∈ tokens) →
    tokenize tokens fuel ((ts.map Prod.fst).flatten ++ (w ++ rest)) = none
  | [], fuel, _ => by
    have hfirst := firstToken_none hnone rest
    cases hl : w ++ rest with
    | nil => exact absurd (List.append_eq_nil_iff.1 hl).1 hw
    | cons c l =>
      rw [hl] at hfirst
      cases fuel with
      | zero => rfl
      | succ fuel => rw [List.map_nil, List.flatten_nil, List.nil_append, tokenize, hfirst]
  | t :: ts, fuel, h => by
    rw [List.map_cons, List.flatten_cons, List.append_assoc]
    cases fuel with
    | zero =>
      cases hl : t.1 ++ ((ts.map Prod.fst).flatten ++ (w ++ rest)) with
      | nil => exact absurd (List.append_eq_nil_iff.1 hl).1 (hcode.filled t (h t List.mem_cons_self))
      | cons c l => rfl
    | succ fuel =>
      rw [tokenize_append hcode (h t List.mem_cons_self),
        tokenize_stuck hcode hw hnone rest fuel fun s hs => h s (List.mem_cons_of_mem t hs)]
      rfl

end Mesa.Foundation
