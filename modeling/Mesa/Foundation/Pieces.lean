/-
Lists cut into pieces: where the pieces lie, the pieces that a pattern matches one after the other, and the words of a
list whose pieces are blank or have no blank.
-/
import Mesa.Foundation.Rewriting
import Mesa.Foundation.Scan
import Mesa.Foundation.Trim

namespace Mesa.Foundation

variable {α : Type}

/-! ## Places -/

/-- The places of pieces that follow each other. -/
def layOut : Nat → List (List α) → List Span
  | _, [] => []
  | pos, v :: pieces => ⟨pos, pos + v.length⟩ :: layOut (pos + v.length) pieces

/-- Each place comes before the next ones and is not empty. -/
theorem layOut_ordered : ∀ {pieces : List (List α)} {p : Nat}, (∀ v ∈ pieces, v ≠ []) →
    (layOut p pieces).Pairwise (fun a b => a.stop ≤ b.start) ∧
      ∀ s ∈ layOut p pieces, p ≤ s.start ∧ s.start < s.stop ∧ s.stop ≤ p + pieces.flatten.length
  | [], _, _ => ⟨List.Pairwise.nil, fun _ h => absurd h List.not_mem_nil⟩
  | v :: pieces, p, h => by
    obtain ⟨hv, hrest⟩ := List.forall_mem_cons.1 h
    obtain ⟨hordered, hinside⟩ := layOut_ordered (p := p + v.length) hrest
    have hpos := List.length_pos_iff.2 hv
    rw [layOut, List.flatten_cons, List.length_append]
    refine ⟨List.pairwise_cons.2 ⟨fun s hs => (hinside s hs).1, hordered⟩, List.forall_mem_cons.2 ⟨?_, fun s hs => ?_⟩⟩
    · dsimp only
      omega
    · obtain ⟨hlow, hproper, hhigh⟩ := hinside s hs
      omega

/-- A piece that the pattern matches is the first match, and the scan goes on behind it. -/
theorem scanFrom_append {m : Pattern α} {before : Option α} {piece rest : List α} (pos : Nat) (hne : piece ≠ [])
    (h : m before (piece ++ rest) = some piece.length) :
    scanFrom m pos before 0 (piece ++ rest) =
      ⟨pos, pos + piece.length⟩ :: scanFrom m (pos + piece.length) piece.getLast? 0 rest := by
  have hskip : ∀ (l : List α) (pos : Nat) (before : Option α),
      scanFrom m pos before l.length (l ++ rest) = scanFrom m (pos + l.length) (l.getLast?.or before) 0 rest := by
    intro l
    induction l with
    | nil => exact fun pos before => rfl
    | cons c l ih =>
      intro pos before
      rw [List.length_cons, List.cons_append, scanFrom, ih, Nat.add_assoc, Nat.add_comm 1]
      cases l with
      | nil => rfl
      | cons d l => rw [List.getLast?_cons_cons, List.getLast?_eq_some_getLast (List.cons_ne_nil d l), Option.some_or, Option.some_or]
  obtain ⟨c, l, rfl⟩ := List.exists_cons_of_ne_nil hne
  rw [List.cons_append, List.length_cons] at h
  rw [List.cons_append, scanFrom, h]
  dsimp only
  rw [hskip, List.length_cons, Nat.add_assoc, Nat.add_assoc, Nat.add_comm 1]
  cases l with
  | nil => rfl
  | cons d l => rw [List.getLast?_cons_cons, List.getLast?_eq_some_getLast (List.cons_ne_nil d l), Option.some_or]

/-! ## Words -/

section

variable {p : α → Bool} {s : α}

theorem words_separator {x : α} (hx : p x = true) (l : List α) : words p (x :: l) = words p l := by
  unfold words
  rw [splitOnP_separator hx, List.filter_cons, if_neg (by simp)]

/-- What follows a word in the words of a list. -/
def afterWord (p : α → Bool) (s : α) (l : List α) : List α :=
  if l.head?.any p = true ∧ words p l ≠ [] then s :: joinWords p s l else joinWords p s l

theorem joinWords_element {x : α} (hx : p x = false) (l : List α) : joinWords p s (x :: l) = x :: afterWord p s l := by
  obtain ⟨w, rest, hsplit, hcons⟩ := splitOnP_element hx l
  have hwords : words p (x :: l) = (x :: w) :: rest.filter fun w => !w.isEmpty := by
    unfold words
    rw [hcons, List.filter_cons]
    rfl
  cases l with
  | nil =>
    rw [List.splitOnP_nil] at hsplit
    cases hsplit
    unfold joinWords
    rw [hwords]
    rfl
  | cons y l =>
    unfold afterWord
    cases hy : p y with
    | true =>
      rw [splitOnP_separator hy] at hsplit
      cases hsplit
      have hrest : words p (y :: l) = words p l := words_separator hy l
      have hcons : words p (x :: y :: l) = [x] :: words p l := hwords
      unfold joinWords
      rw [hcons, hrest, List.head?_cons, Option.any_some]
      cases hl : words p l with
      | nil =>
        rw [if_neg fun h => h.2 rfl]
        rfl
      | cons v ws => simp [List.intercalate, hy]
    | false =>
      have hne : w ≠ [] := by
        obtain ⟨w', rest', -, hcons'⟩ := splitOnP_element hy l
        rw [hcons'] at hsplit
        cases hsplit
        exact List.cons_ne_nil _ _
      have hrest : words p (y :: l) = w :: rest.filter fun w => !w.isEmpty := by
        unfold words
        rw [hsplit, List.filter_cons, if_pos (by simpa using hne)]
      rw [List.head?_cons, Option.any_some, hy, if_neg fun h => Bool.false_ne_true h.1]
      unfold joinWords
      rw [hwords, hrest]
      cases rest.filter fun w => !w.isEmpty with
      | nil => simp [List.intercalate]
      | cons v ws => simp [List.intercalate]

/-- Blanks at the start are dropped. -/
theorem joinWords_blank {b : List α} (hb : ∀ c ∈ b, p c = true) (l : List α) :
    words p (b ++ l) = words p l ∧ joinWords p s (b ++ l) = joinWords p s l := by
  have hwords : words p (b ++ l) = words p l := by
    induction b with
    | nil => rfl
    | cons x b ih =>
      obtain ⟨hx, hb⟩ := List.forall_mem_cons.1 hb
      rw [List.cons_append, words_separator hx, ih hb]
  refine ⟨hwords, ?_⟩
  unfold joinWords
  rw [hwords]

theorem afterWord_word {w : List α} (hw : ∀ c ∈ w, p c = false) (l : List α) :
    afterWord p s (w ++ l) = w ++ afterWord p s l := by
  induction w with
  | nil => rfl
  | cons x w ih =>
    obtain ⟨hx, hw⟩ := List.forall_mem_cons.1 hw
    have hhead : afterWord p s (x :: (w ++ l)) = joinWords p s (x :: (w ++ l)) := by
      unfold afterWord
      rw [List.head?_cons, Option.any_some, hx, if_neg fun h => Bool.false_ne_true h.1]
    rw [List.cons_append, hhead, joinWords_element hx, ih hw, List.cons_append]

theorem joinWords_word {w : List α} (hne : w ≠ []) (hw : ∀ c ∈ w, p c = false) (l : List α) :
    joinWords p s (w ++ l) = w ++ afterWord p s l ∧ words p (w ++ l) ≠ [] := by
  obtain ⟨x, w, rfl⟩ := List.exists_cons_of_ne_nil hne
  obtain ⟨hx, hw⟩ := List.forall_mem_cons.1 hw
  have hjoin : joinWords p s ((x :: w) ++ l) = (x :: w) ++ afterWord p s l := by
    rw [List.cons_append, joinWords_element hx, afterWord_word hw, List.cons_append]
  refine ⟨hjoin, fun hnil => ?_⟩
  unfold joinWords at hjoin
  rw [hnil] at hjoin
  cases hjoin

theorem rdropWhile_cons {β : Type} (q : β → Bool) (a : β) (l : List β) :
    (a :: l).rdropWhile q = if l.rdropWhile q = [] ∧ q a = true then [] else a :: l.rdropWhile q := by
  unfold List.rdropWhile
  rw [List.reverse_cons, List.dropWhile_append]
  simp only [List.reverse_eq_nil_iff]
  cases hl : l.reverse.dropWhile q with
  | nil =>
    cases ha : q a <;> simp [ha]
  | cons b l' => simp

/-- A piece as it shows in the joined words. -/
def shown (p : α → Bool) (s : α) (w : List α) : List α := if w.all p then [s] else w

/-- Pieces that are blank or have no blank; no two blank ones follow each other. -/
structure Pieces (p : α → Bool) (pieces : List (List α)) : Prop where
  proper : ∀ w ∈ pieces, w ≠ []
  kinds : ∀ w ∈ pieces, w.all p = true ∨ ∀ c ∈ w, p c = false
  apart : pieces.IsChain fun v w => v.all p = true → w.all p = false

theorem Pieces.tail {w : List α} {pieces : List (List α)} (h : Pieces p (w :: pieces)) : Pieces p pieces :=
  ⟨fun v hv => h.proper v (List.mem_cons_of_mem _ hv), fun v hv => h.kinds v (List.mem_cons_of_mem _ hv), h.apart.tail⟩

theorem all_eq_false_of_free {w : List α} (hne : w ≠ []) (hw : ∀ c ∈ w, p c = false) : w.all p = false := by
  obtain ⟨x, w, rfl⟩ := List.exists_cons_of_ne_nil hne
  rw [List.all_cons, hw x List.mem_cons_self, Bool.false_and]

/-- What follows a word: the rest of the pieces without blank ones at the end. -/
theorem afterWord_flatten : ∀ {pieces : List (List α)}, Pieces p pieces →
    afterWord p s pieces.flatten = (pieces.rdropWhile (List.all · p)).flatMap (shown p s)
  | [], _ => rfl
  | w :: pieces, h => by
    have hne := h.proper w List.mem_cons_self
    have ih := afterWord_flatten h.tail
    rw [rdropWhile_cons, List.flatten_cons]
    rcases h.kinds w List.mem_cons_self with hblank | hfree
    · have hall := List.all_eq_true.1 hblank
      obtain ⟨hwords, hjoin⟩ := joinWords_blank (s := s) hall pieces.flatten
      have hhead : (w ++ pieces.flatten).head?.any p = true := by
        obtain ⟨x, w, rfl⟩ := List.exists_cons_of_ne_nil hne
        exact hall x List.mem_cons_self
      unfold afterWord
      rw [hwords, hjoin, hhead]
      cases pieces with
      | nil =>
        rw [if_neg fun h => h.2 rfl, if_pos ⟨rfl, hblank⟩]
        rfl
      | cons v pieces =>
        have hv : v.all p = false := (List.isChain_cons_cons.1 h.apart).1 hblank
        have hvne := h.proper v (List.mem_cons_of_mem _ List.mem_cons_self)
        have hvfree := (h.kinds v (List.mem_cons_of_mem _ List.mem_cons_self)).resolve_left (by rw [hv]; exact Bool.false_ne_true)
        obtain ⟨hvjoin, hvwords⟩ := joinWords_word (s := s) hvne hvfree pieces.flatten
        have hkept : (v :: pieces).rdropWhile (List.all · p) ≠ [] := by
          rw [rdropWhile_cons, if_neg fun h => by rw [hv] at h; exact Bool.false_ne_true h.2]
          exact List.cons_ne_nil _ _
        rw [List.flatten_cons, afterWord_word hvfree] at ih
        rw [if_pos ⟨rfl, by rw [List.flatten_cons]; exact hvwords⟩, if_neg fun h => hkept h.1, List.flatten_cons, hvjoin,
          List.flatMap_cons, ← ih, shown, if_pos hblank, List.singleton_append]
    · have hw := all_eq_false_of_free hne hfree
      rw [afterWord_word hfree, ih, if_neg fun h => by rw [hw] at h; exact Bool.false_ne_true h.2, List.flatMap_cons, shown,
        if_neg (by rw [hw]; exact Bool.false_ne_true)]

/-- The joined words of a list are its pieces, each blank one between words as the separator. -/
theorem joinWords_flatten {pieces : List (List α)} (h : Pieces p pieces) :
    joinWords p s pieces.flatten = (trimBy (List.all · p) pieces).flatMap (shown p s) := by
  unfold trimBy
  cases pieces with
  | nil => rfl
  | cons w pieces =>
    have hword : ∀ {v : List α} {pieces : List (List α)}, Pieces p (v :: pieces) → v.all p = false →
        joinWords p s (v :: pieces).flatten = ((v :: pieces).rdropWhile (List.all · p)).flatMap (shown p s) := by
      intro v pieces h hv
      have hfree := (h.kinds v List.mem_cons_self).resolve_left (by rw [hv]; exact Bool.false_ne_true)
      rw [← afterWord_flatten h, List.flatten_cons, (joinWords_word (h.proper v List.mem_cons_self) hfree _).1,
        afterWord_word hfree]
    cases hw : w.all p with
    | false =>
      rw [List.dropWhile_cons, if_neg (by rw [hw]; exact Bool.false_ne_true)]
      exact hword h hw
    | true =>
      rw [List.dropWhile_cons, if_pos hw, List.flatten_cons, (joinWords_blank (List.all_eq_true.1 hw) _).2]
      cases pieces with
      | nil => rfl
      | cons v pieces =>
        have hv : v.all p = false := (List.isChain_cons_cons.1 h.apart).1 hw
        rw [List.dropWhile_cons, if_neg (by rw [hv]; exact Bool.false_ne_true)]
        exact hword h.tail hv

end

end Mesa.Foundation
