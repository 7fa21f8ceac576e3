/-
What the two chunking plans have in common, whatever the tokenizer counts: their slices are not empty, keep to the
bounds of a single admission, and joined they are the content.
-/
import Mesa.Documents.Chunking

namespace Mesa.Documents

open Mesa.Foundation
open Mesa.Rebuild (isSpace)

variable (T : CharTables) (κ : TokenCounter)

/-! ## Boundaries -/

theorem lineBreaks_le (started : Bool) (l : List Char) : (lineBreaks started l).2 ≤ l.length := by
  fun_induction lineBreaks started l with
  | case1 started l ih => simp only [List.length_cons]; omega
  | case2 started l ih => simp only [List.length_cons]; omega
  | case3 started c l _ _ _ ih => simp only [List.length_cons]; omega
  | case4 => exact Nat.zero_le _
  | case5 => exact Nat.zero_le _

theorem paragraphEnd_fits : paragraphEnd.Fits := by
  intro prev l n h
  unfold paragraphEnd at h
  simp only at h
  split at h
  · cases h
    exact lineBreaks_le false l
  · cases h

theorem sentenceEnd_fits : sentenceEnd.Fits := by
  intro prev l n h
  cases l with
  | nil => cases h
  | cons c l =>
    simp only [sentenceEnd] at h
    split at h
    · cases h
      have := (List.takeWhile_prefix isSpace : l.takeWhile isSpace <+: l).length_le
      rw [List.length_cons]
      omega
    · cases h

/-- A boundary of a text that is not empty lies inside of it and not at its start. -/
theorem boundary_bounds {pre : List Char} (hne : pre ≠ []) :
    1 ≤ boundary T pre ∧ boundary T pre ≤ pre.length := by
  have inside : ∀ {m : Pattern Char} {s : Span}, m.Fits → s ∈ scan m pre → 1 ≤ s.stop ∧ s.stop ≤ pre.length := by
    intro m s hm hs
    have hstop := scan_stop hm hs
    have hpos := (mem_scan hs).2
    omega
  unfold boundary
  split
  · next s hs => exact inside paragraphEnd_fits (List.mem_of_getLast? hs)
  · simp only
    split
    · next s hs =>
      refine inside sentenceEnd_fits ?_
      have hmem := List.mem_of_getLast? hs
      split at hmem
      · exact hmem
      · exact List.mem_of_mem_filter hmem
    · exact ⟨List.length_pos_of_ne_nil hne, le_refl _⟩

/-! ## One slice -/

/-- The first loop ends at the ceiling, or at an end that does not fit. -/
theorem widen_spec (l : List Char) (ceiling : Nat) : ∀ (fuel low high : Nat), low ≤ high → 1 ≤ high →
    high ≤ ceiling → ceiling < fuel + high → (low = 0 ∨ κ.count (l.take low) ≤ 512) →
    (widen κ l ceiling fuel low high).1 ≤ (widen κ l ceiling fuel low high).2 ∧
      (widen κ l ceiling fuel low high).2 ≤ ceiling ∧ 1 ≤ (widen κ l ceiling fuel low high).2 ∧
      ((widen κ l ceiling fuel low high).1 = 0 ∨ κ.count (l.take (widen κ l ceiling fuel low high).1) ≤ 512) ∧
      ((widen κ l ceiling fuel low high).1 = ceiling ∨
        512 < κ.count (l.take (widen κ l ceiling fuel low high).2))
  | 0, low, high, _, _, hceiling, hfuel, _ => by omega
  | fuel + 1, low, high, hle, hpos, hceiling, hfuel, hlow => by
    rw [widen]
    split
    · next hfits =>
      split
      · next heq => exact ⟨le_refl _, hceiling, hpos, Or.inr hfits, Or.inl heq⟩
      · next hne =>
        exact widen_spec l ceiling fuel high (min (high * 2) ceiling) (by omega) (by omega) (by omega) (by omega)
          (Or.inr hfits)
    · next hfits => exact ⟨hle, hceiling, hpos, hlow, Or.inr (Nat.lt_of_not_le hfits)⟩

/-- The second loop ends at an end that fits, below one that does not. -/
theorem narrow_spec (l : List Char) : ∀ (fuel low high : Nat), low < high → high ≤ fuel + low + 1 →
    (low = 0 ∨ κ.count (l.take low) ≤ 512) → 512 < κ.count (l.take high) →
    narrow κ l fuel low high < high ∧
      (narrow κ l fuel low high = 0 ∨ κ.count (l.take (narrow κ l fuel low high)) ≤ 512) ∧
      512 < κ.count (l.take (narrow κ l fuel low high + 1))
  | 0, low, high, hlt, hfuel, hlow, hhigh => by
    obtain rfl : high = low + 1 := by omega
    exact ⟨hlt, hlow, hhigh⟩
  | fuel + 1, low, high, hlt, hfuel, hlow, hhigh => by
    rw [narrow]
    split
    · next hgap =>
      simp only
      split
      · next hfits =>
        exact narrow_spec l fuel ((low + high) / 2) high (by omega) (by omega) (Or.inr hfits) hhigh
      · next hfits =>
        obtain ⟨hend, hrest⟩ := narrow_spec l fuel low ((low + high) / 2) (by omega) (by omega) hlow (by omega)
        exact ⟨by omega, hrest⟩
    · next hgap =>
      obtain rfl : high = low + 1 := by omega
      exact ⟨hlt, hlow, hhigh⟩

theorem count_first {l : List Char} (hne : l ≠ []) : κ.count (l.take 1) ≤ 512 := by
  cases l with
  | nil => exact absurd rfl hne
  | cons c l => exact κ.single c

/-- The first two loops find an end that fits: the ceiling, or the last one before an end that does not. -/
theorem fitting_spec {l : List Char} (hne : l ≠ []) :
    1 ≤ fitting κ l ∧ fitting κ l ≤ min l.length 32768 ∧ κ.count (l.take (fitting κ l)) ≤ 512 ∧
      (fitting κ l = min l.length 32768 ∨ 512 < κ.count (l.take (fitting κ l + 1))) := by
  have hlength := List.length_pos_of_ne_nil hne
  unfold fitting
  simp only
  generalize hceiling : min l.length 32768 = ceiling
  obtain ⟨hle, hhigh, hpos, hlow, hend⟩ := widen_spec κ l ceiling (ceiling + 1) 0 (min 512 ceiling)
    (by omega) (by omega) (by omega) (by omega) (Or.inl rfl)
  generalize widen κ l ceiling (ceiling + 1) 0 (min 512 ceiling) = w at *
  obtain ⟨low, high⟩ := w
  simp only at *
  by_cases heq : low = ceiling
  · subst heq
    obtain rfl : high = low := by omega
    have hfits := hlow.resolve_left (by omega)
    have hstays : narrow κ l high high high = high := by
      cases high with
      | zero => rfl
      | succ n => rw [narrow, if_neg (by omega)]
    rw [hstays]
    exact ⟨hpos, le_refl _, hfits, Or.inl rfl⟩
  · have hexceeds := hend.resolve_left heq
    have hlt : low < high := by
      rcases Nat.lt_or_ge low high with hlt | hge
      · exact hlt
      · obtain rfl : low = high := by omega
        have := hlow.resolve_left (by omega)
        omega
    obtain ⟨hend, hfits, hnext⟩ := narrow_spec κ l high low high hlt (by omega) hlow hexceeds
    generalize narrow κ l high low high = r at *
    have hr : r ≠ 0 := by
      rintro rfl
      have hone : κ.count (l.take (0 + 1)) ≤ 512 := count_first κ hne
      omega
    exact ⟨by omega, by omega, hfits.resolve_left hr, Or.inr hnext⟩

/-- The third loop ends before or at the end it starts from, at one that fits. -/
theorem shrink_spec {l : List Char} (hne : l ≠ []) : ∀ {n : Nat}, 1 ≤ n →
    1 ≤ shrink κ l n ∧ shrink κ l n ≤ n ∧ κ.count (l.take (shrink κ l n)) ≤ 512
  | 1, _ => by
    rw [shrink, if_pos (count_first κ hne)]
    exact ⟨le_refl _, le_refl _, count_first κ hne⟩
  | n + 2, _ => by
    rw [shrink]
    split
    · next hfits => exact ⟨by omega, le_refl _, hfits⟩
    · obtain ⟨hpos, hle, hfits⟩ := shrink_spec hne (n := n + 1) (by omega)
      exact ⟨hpos, by omega, hfits⟩

/-- A slice is not empty and keeps to the bounds of a single admission. -/
theorem cut_spec {l : List Char} (hne : l ≠ []) :
    1 ≤ cut T κ l ∧ cut T κ l ≤ min l.length 32768 ∧ κ.count (l.take (cut T κ l)) ≤ 512 := by
  obtain ⟨hpos, hceiling, -, -⟩ := fitting_spec κ hne
  have hend : ∃ n, 1 ≤ n ∧ n ≤ fitting κ l ∧ cut T κ l = shrink κ l n := by
    unfold cut
    simp only
    split
    · have hpre : l.take (fitting κ l) ≠ [] := by
        rw [ne_eq, List.take_eq_nil_iff, not_or]
        exact ⟨by omega, hne⟩
      obtain ⟨hlow, hhigh⟩ := boundary_bounds T hpre
      rw [List.length_take] at hhigh
      exact ⟨_, hlow, by omega, rfl⟩
    · exact ⟨_, hpos, le_refl _, rfl⟩
  obtain ⟨n, hn, hle, hcut⟩ := hend
  obtain ⟨hfirst, hlast, hfits⟩ := shrink_spec κ hne hn
  rw [hcut]
  exact ⟨hfirst, by omega, hfits⟩

/-! ## The two plans -/

/-- A plan for a content: slices that are not empty and that joined are the content. -/
structure IsPlan (content : List Char) (chunks : List (List Char)) : Prop where
  joined : chunks.flatten = content
  filled : ∀ chunk ∈ chunks, chunk ≠ []

/-- The slice is within the bounds of a single admission. -/
def Admissible (chunk : List Char) : Prop := chunk.length ≤ 32768 ∧ κ.count chunk ≤ 512

theorem IsPlan.append {a b : List Char} {chunks rest : List (List Char)} (h : IsPlan a chunks) (h' : IsPlan b rest) :
    IsPlan (a ++ b) (chunks ++ rest) where
  joined := by rw [List.flatten_append, h.joined, h'.joined]
  filled chunk hchunk := (List.mem_append.1 hchunk).elim (h.filled chunk) (h'.filled chunk)

theorem IsPlan.single {a : List Char} (h : a ≠ []) : IsPlan a [a] where
  joined := by simp
  filled chunk hchunk := by rw [List.mem_singleton.1 hchunk]; exact h

/-- Slices of slices. -/
theorem IsPlan.flatMap {f : List Char → List (List Char)} : ∀ {pieces : List (List Char)},
    (∀ piece ∈ pieces, IsPlan piece (f piece)) → IsPlan pieces.flatten (pieces.flatMap f)
  | [], _ => ⟨rfl, fun _ h => absurd h List.not_mem_nil⟩
  | piece :: pieces, h => by
    rw [List.flatten_cons, List.flatMap_cons]
    exact (h piece List.mem_cons_self).append (IsPlan.flatMap fun p hp => h p (List.mem_cons_of_mem _ hp))

theorem chunkFrom_plan : ∀ (fuel : Nat) (l : List Char), l.length ≤ fuel →
    IsPlan l (chunkFrom T κ fuel l) ∧ ∀ chunk ∈ chunkFrom T κ fuel l, Admissible κ chunk
  | 0, l, hlength => by
    obtain rfl : l = [] := List.length_eq_zero_iff.1 (by omega)
    exact ⟨⟨rfl, fun _ h => absurd h List.not_mem_nil⟩, fun _ h => absurd h List.not_mem_nil⟩
  | fuel + 1, l, hlength => by
    rw [chunkFrom]
    split
    · next hnil =>
      subst hnil
      exact ⟨⟨rfl, fun _ h => absurd h List.not_mem_nil⟩, fun _ h => absurd h List.not_mem_nil⟩
    · next hne =>
      obtain ⟨hpos, hend, hfits⟩ := cut_spec T κ hne
      obtain ⟨hplan, hadmissible⟩ := chunkFrom_plan fuel (l.drop (cut T κ l)) (by rw [List.length_drop]; omega)
      have hfirst : l.take (cut T κ l) ≠ [] := by
        rw [ne_eq, List.take_eq_nil_iff, not_or]
        exact ⟨by omega, hne⟩
      refine ⟨?_, fun chunk hchunk => ?_⟩
      · have hall := (IsPlan.single hfirst).append hplan
        rwa [List.take_append_drop] at hall
      · rcases List.mem_cons.1 hchunk with rfl | hchunk
        · refine ⟨?_, hfits⟩
          rw [List.length_take]
          omega
        · exact hadmissible chunk hchunk

theorem chunkDocument_plan (content : List Char) : IsPlan content (chunkDocument T κ content) :=
  (chunkFrom_plan T κ content.length content (le_refl _)).1

/-- Positions that ascend strictly, the first of them the start and the last the end of the content. -/
theorem legalBoundaries_spec (content : List Char) :
    ∃ rest, legalBoundaries T content = 0 :: rest ∧ (0 :: rest).Pairwise (· < ·) ∧
      (0 :: rest).getLast (List.cons_ne_nil _ _) = content.length ∧ ∀ p ∈ 0 :: rest, p ≤ content.length := by
  have hmem : ∀ p, p ∈ legalBoundaries T content ↔ p = 0 ∨ p ∈ articleStarts T content ∨ p = content.length := by
    intro p
    rw [legalBoundaries, List.mem_insertionSort, List.mem_dedup, List.mem_append, List.mem_cons, List.mem_singleton]
    tauto
  have hsorted : (legalBoundaries T content).Pairwise (· < ·) := by
    have hle : (legalBoundaries T content).Pairwise (· ≤ ·) := List.pairwise_insertionSort _ _
    have hnodup : (legalBoundaries T content).Nodup :=
      ((List.perm_insertionSort _ _).nodup_iff).2 (List.nodup_dedup _)
    exact (hle.and hnodup).imp fun {a b} h => by omega
  have hinside : ∀ p ∈ legalBoundaries T content, p ≤ content.length := by
    intro p hp
    rcases (hmem p).1 hp with rfl | hstart | rfl
    · exact Nat.zero_le _
    · obtain ⟨s, hs, rfl⟩ := List.mem_map.1 hstart
      exact Nat.le_of_lt (mem_scan hs).1
    · exact le_refl _
  have hzero := (hmem 0).2 (Or.inl rfl)
  have hlast := (hmem content.length).2 (Or.inr (Or.inr rfl))
  cases hb : legalBoundaries T content with
  | nil => rw [hb] at hzero; cases hzero
  | cons p rest =>
    rw [hb] at hsorted hinside hzero hlast
    have hp : p = 0 := by
      rcases List.mem_cons.1 hzero with hp | hrest
      · exact hp.symm
      · have := (List.pairwise_cons.1 hsorted).1 0 hrest
        omega
    subst hp
    refine ⟨rest, rfl, hsorted, ?_, hinside⟩
    have hmax : content.length ≤ (0 :: rest).getLast (List.cons_ne_nil _ _) :=
      (hsorted.imp fun {a b} (h : a < b) => Nat.le_of_lt h).rel_getLast hlast
    have := hinside _ (List.getLast_mem (List.cons_ne_nil 0 rest))
    omega

theorem chunkLegalDocument_plan (content : List Char) :
    IsPlan content (chunkLegalDocument T κ content) ∧
      ∀ chunk ∈ chunkLegalDocument T κ content, Admissible κ chunk := by
  have plain : ∀ piece, IsPlan piece (chunkDocument T κ piece) ∧
      ∀ chunk ∈ chunkDocument T κ piece, Admissible κ chunk :=
    fun piece => chunkFrom_plan T κ piece.length piece (le_refl _)
  unfold chunkLegalDocument
  simp only
  split
  · exact plain content
  · obtain ⟨rest, hbounds, hsorted, hlast, hinside⟩ := legalBoundaries_spec T content
    have hflatten : (slices content (legalBoundaries T content)).flatten = content := by
      rw [hbounds, flatten_slices content 0 rest hsorted, hlast, List.take_length, List.drop_zero]
    have hfilled : ∀ piece ∈ slices content (legalBoundaries T content), piece ≠ [] := by
      rw [hbounds]
      exact slices_ne_nil hsorted hinside
    refine ⟨?_, fun chunk hchunk => ?_⟩
    · have hall : IsPlan (slices content (legalBoundaries T content)).flatten
          ((slices content (legalBoundaries T content)).flatMap fun piece =>
            if piece.length ≤ 32768 ∧ κ.count piece ≤ 512 then [piece] else chunkDocument T κ piece) :=
        IsPlan.flatMap fun piece hpiece => by
          split
          · exact .single (hfilled piece hpiece)
          · exact (plain piece).1
      rwa [hflatten] at hall
    · obtain ⟨piece, -, hchunk⟩ := List.mem_flatMap.1 hchunk
      split at hchunk
      · next hfits => rw [List.mem_singleton.1 hchunk]; exact hfits
      · exact (plain piece).2 chunk hchunk

end Mesa.Documents
