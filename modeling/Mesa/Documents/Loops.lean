/-
The chunking loops as the code runs them, with the number of rounds as a bound that makes them give up: for any tokenizer
that gives a single character at most 512 tokens they end, with the plans of `chunkDocument` and `chunkLegalDocument`.
-/
import Mesa.Documents.Slices
import Mesa.Foundation.Optional

namespace Mesa.Documents

open Mesa.Foundation

variable (T : CharTables) (count : List Char → Nat)

/-! ## The loops -/

/-- `while count_tokens(content[start:high]) <= 512: low = high; …`. -/
def widenLoop (l : List Char) (ceiling : Nat) : Nat → Nat → Nat → Option (Nat × Nat)
  | 0, _, _ => none
  | fuel + 1, low, high =>
    if count (l.take high) ≤ 512 then
      if high = ceiling then some (high, high) else widenLoop l ceiling fuel high (min (high * 2) ceiling)
    else some (low, high)

/-- `while low + 1 < high: middle = …`. -/
def narrowLoop (l : List Char) : Nat → Nat → Nat → Option Nat
  | 0, _, _ => none
  | fuel + 1, low, high =>
    if low + 1 < high then
      let middle := (low + high) / 2
      if count (l.take middle) ≤ 512 then narrowLoop l fuel middle high else narrowLoop l fuel low middle
    else some low

/-- `while count_tokens(content[start:end]) > 512: end -= 1`. -/
def shrinkLoop (l : List Char) : Nat → Nat → Option Nat
  | 0, _ => none
  | fuel + 1, stop => if 512 < count (l.take stop) then shrinkLoop l fuel (stop - 1) else some stop

/-- One round of `while start < len(content)`: the length of the slice. -/
def cutLoop (fuel : Nat) (l : List Char) : Option Nat := do
  let ceiling := min l.length 32768
  let (low, high) ← widenLoop count l ceiling fuel 0 (min 512 ceiling)
  let stop ← narrowLoop count l fuel low high
  shrinkLoop count l fuel (if stop < l.length then boundary T (l.take stop) else stop)

/-- `chunk_document`. -/
def chunkLoop : Nat → List Char → Option (List (List Char))
  | 0, _ => none
  | fuel + 1, l =>
    if l = [] then some []
    else do
      let stop ← cutLoop T count fuel l
      let chunks ← chunkLoop fuel (l.drop stop)
      some (l.take stop :: chunks)

/-- `chunk_legal_document`. -/
def chunkLegalLoop (fuel : Nat) (content : List Char) : Option (List (List Char)) :=
  let starts := articleStarts T content
  if starts.length < 3 ∨ scan (caseLawPreamble T) (content.take (starts.headD 0)) ≠ [] then chunkLoop T count fuel content
  else do
    let chunks ← (slices content (legalBoundaries T content)).mapM fun piece =>
      if piece.length ≤ 32768 ∧ count piece ≤ 512 then some [piece] else chunkLoop T count fuel piece
    some chunks.flatten

/-! ## They end -/

section

variable {T : CharTables} {κ : TokenCounter} {l : List Char} {fuel n low high ceiling : Nat}

theorem widenLoop_eq (hle : 1 ≤ high) (hhigh : high ≤ ceiling) (hfuel : ceiling < fuel + high) (hn : fuel ≤ n) :
    widenLoop κ.count l ceiling n low high = some (widen κ l ceiling fuel low high) := by
  induction fuel generalizing n low high with
  | zero => omega
  | succ fuel ih =>
    obtain ⟨n, rfl⟩ : ∃ m, n = m + 1 := ⟨n - 1, by omega⟩
    rw [widenLoop, widen]
    split
    · split
      · rfl
      · next hne => exact ih (by omega) (by omega) (by omega) (by omega)
    · rfl

theorem narrowLoop_eq (hfuel : high ≤ fuel + low + 1) (hn : fuel < n) :
    narrowLoop κ.count l n low high = some (narrow κ l fuel low high) := by
  induction fuel generalizing n low high with
  | zero =>
    obtain ⟨n, rfl⟩ : ∃ m, n = m + 1 := ⟨n - 1, by omega⟩
    rw [narrowLoop, narrow, if_neg (by omega)]
  | succ fuel ih =>
    obtain ⟨n, rfl⟩ : ∃ m, n = m + 1 := ⟨n - 1, by omega⟩
    rw [narrowLoop, narrow]
    split
    · dsimp only
      split
      · exact ih (by omega) (by omega)
      · exact ih (by omega) (by omega)
    · rfl

/-- From an end that is not the start, the third loop stops at the first character at the latest. -/
theorem shrinkLoop_eq (hne : l ≠ []) {stop : Nat} (hstop : 1 ≤ stop) (hn : stop ≤ n) :
    shrinkLoop κ.count l n stop = some (shrink κ l stop) := by
  induction stop generalizing n with
  | zero => omega
  | succ stop ih =>
    obtain ⟨n, rfl⟩ : ∃ m, n = m + 1 := ⟨n - 1, by omega⟩
    rw [shrinkLoop, shrink]
    by_cases hfits : κ.count (l.take (stop + 1)) ≤ 512
    · rw [if_neg (Nat.not_lt.2 hfits), if_pos hfits]
    · rw [if_pos (Nat.lt_of_not_le hfits), if_neg hfits]
      refine ih ?_ (by omega)
      -- the first character alone fits
      rcases Nat.eq_zero_or_pos stop with rfl | hpos
      · exact absurd (count_first κ hne) hfits
      · exact hpos

theorem cutLoop_eq (hne : l ≠ []) (hn : l.length < n) : cutLoop T κ.count n l = some (cut T κ l) := by
  have hlength := List.length_pos_of_ne_nil hne
  obtain ⟨hpos, hlast, -, -⟩ := fitting_spec κ hne
  have hwiden : widenLoop κ.count l (min l.length 32768) n 0 (min 512 (min l.length 32768)) =
      some (widen κ l (min l.length 32768) (min l.length 32768 + 1) 0 (min 512 (min l.length 32768))) :=
    widenLoop_eq (by omega) (by omega) (by omega) (by omega)
  have hbounds := widen_spec κ l (min l.length 32768) (min l.length 32768 + 1) 0 (min 512 (min l.length 32768))
    (by omega) (by omega) (by omega) (by omega) (Or.inl rfl)
  unfold cutLoop cut
  unfold fitting at hpos hlast ⊢
  simp only at hpos hlast ⊢
  rw [hwiden]
  generalize widen κ l (min l.length 32768) (min l.length 32768 + 1) 0 (min 512 (min l.length 32768)) = w at *
  obtain ⟨low, high⟩ := w
  simp only [Option.bind_eq_bind, Option.bind_some] at hpos hlast hbounds ⊢
  have hnarrow : narrowLoop κ.count l n low high = some (narrow κ l high low high) := narrowLoop_eq (by omega) (by omega)
  rw [hnarrow, Option.bind_some]
  generalize narrow κ l high low high = stop at hpos hlast ⊢
  refine shrinkLoop_eq hne ?_ ?_ <;> split
  · exact (boundary_bounds T (by rw [ne_eq, List.take_eq_nil_iff, not_or]; exact ⟨by omega, hne⟩)).1
  · exact hpos
  · have hpre : l.take stop ≠ [] := by
      rw [ne_eq, List.take_eq_nil_iff, not_or]
      exact ⟨by omega, hne⟩
    have hend := (boundary_bounds T hpre).2
    rw [List.length_take] at hend
    omega
  · omega

theorem chunkLoop_eq (hfuel : l.length ≤ fuel) (hn : l.length + 2 ≤ n) :
    chunkLoop T κ.count n l = some (chunkFrom T κ fuel l) := by
  induction fuel generalizing n l with
  | zero =>
    obtain rfl : l = [] := List.length_eq_zero_iff.1 (by omega)
    obtain ⟨n, rfl⟩ : ∃ m, n = m + 1 := ⟨n - 1, by omega⟩
    rfl
  | succ fuel ih =>
    obtain ⟨n, rfl⟩ : ∃ m, n = m + 1 := ⟨n - 1, by omega⟩
    rw [chunkLoop, chunkFrom]
    by_cases hne : l = []
    · rw [if_pos hne, if_pos hne]
    · -- a slice has a character at least, so less text is left for one round less
      have hpos := (cut_spec T κ hne).1
      have hshorter : (l.drop (cut T κ l)).length < l.length := by
        have hlength := List.length_pos_of_ne_nil hne
        rw [List.length_drop]
        omega
      rw [if_neg hne, if_neg hne, cutLoop_eq hne (by omega), Option.bind_eq_bind, Option.bind_some,
        ih (by omega) (by omega)]
      rfl

theorem chunkLegalLoop_eq {content : List Char} (hn : content.length + 2 ≤ n) :
    chunkLegalLoop T κ.count n content = some (chunkLegalDocument T κ content) := by
  unfold chunkLegalLoop chunkLegalDocument
  simp only
  split
  · exact chunkLoop_eq le_rfl hn
  · have hpieces : ∀ piece ∈ slices content (legalBoundaries T content),
        (if piece.length ≤ 32768 ∧ κ.count piece ≤ 512 then some [piece] else chunkLoop T κ.count n piece) =
          some (if piece.length ≤ 32768 ∧ κ.count piece ≤ 512 then [piece] else chunkDocument T κ piece) := by
      intro piece hpiece
      split
      · rfl
      · have hlength := length_le_of_mem_slices hpiece
        exact chunkLoop_eq le_rfl (by omega)
    rw [Optional.mapM_map hpieces]
    exact congrArg some List.flatMap_def.symm

end

/-! ## Partition -/

/-- For all bounds from some point on the run ends with the same slices of the content, and these lose, add and reorder
nothing, are not empty and keep to the two limits. -/
def Partitions (κ : TokenCounter) (content : List Char) (chunked : Nat → Option (List (List Char))) : Prop :=
  ∃ chunks rounds, (∀ fuel, rounds ≤ fuel → chunked fuel = some chunks) ∧ chunks.flatten = content ∧
    ∀ chunk ∈ chunks, chunk ≠ [] ∧ chunk.length ≤ 32768 ∧ κ.count chunk ≤ 512

/-- Both ways to chunk a text end, with a partition of it into slices within the limits. -/
theorem chunking_partitions (T : CharTables) (κ : TokenCounter) (content : List Char) :
    Partitions κ content (fun fuel => chunkLoop T κ.count fuel content) ∧
      Partitions κ content (fun fuel => chunkLegalLoop T κ.count fuel content) := by
  obtain ⟨hplan, hadmissible⟩ := chunkFrom_plan T κ content.length content le_rfl
  obtain ⟨hlegal, hlegalAdmissible⟩ := chunkLegalDocument_plan T κ content
  constructor
  · refine ⟨chunkDocument T κ content, content.length + 2, fun fuel hfuel => chunkLoop_eq le_rfl hfuel, hplan.joined, ?_⟩
    exact fun chunk hchunk => ⟨hplan.filled chunk hchunk, hadmissible chunk hchunk⟩
  · refine ⟨chunkLegalDocument T κ content, content.length + 2, fun fuel hfuel => chunkLegalLoop_eq hfuel,
      hlegal.joined, ?_⟩
    exact fun chunk hchunk => ⟨hlegal.filled chunk hchunk, hlegalAdmissible chunk hchunk⟩

end Mesa.Documents
