/-
The spans of the source text behind the characters of its normal form as a law name. The text is cut into runs of spaces,
abbreviations and single characters; each piece shows in the normal form as a blank, as the word spelled out or as the
character, but spaces at the ends are dropped.
-/
import Mesa.Foundation.Pieces
import Mesa.Legal.NameScan

namespace Mesa.Legal

open Mesa.Foundation
open Mesa.Rebuild (isSpace Text)

variable (U : Unicode)

/-! ## The map -/

/-- `\s+|\bk\.(?=\W|$)|.`. -/
def sourcePiece : Pattern Char := fun before l =>
  match l with
  | [] => none
  | c :: rest =>
    if isSpace c then some ((rest.takeWhile isSpace).length + 1) else if abbreviates U before (c :: rest) then some 2 else some 1

/-- `str.isspace()`. -/
def isBlankText (t : Text) : Bool := t ≠ [] && t.all isSpace

/-- The spans after one more piece. -/
def addSpans (source : Text) (spans : List Span) (piece : Span) : List Span :=
  let value := slice source (piece.start, piece.stop)
  if isBlankText value then if spans = [] then spans else spans ++ [piece]
  else spans ++ List.replicate (if value = ['k', '.'] then kanunu.length else 1) piece

/-- `source_spans`. -/
def sourceSpans (source : Text) : List Span :=
  let spans := (scan (sourcePiece U) source).foldl (addSpans source) []
  if spans ≠ [] ∧ source.getLast?.any isSpace = true then spans.dropLast else spans

/-! ## The pieces -/

/-- What a piece of the source becomes. -/
def produced (piece : Text) : Text :=
  if isBlankText piece then [' '] else if piece = ['k', '.'] then kanunu else piece.map dotted

/-- What a piece becomes before the spaces are joined. -/
def spelled (piece : Text) : Text := if piece.all isSpace then piece else produced piece

/-- A piece of the source: spaces, an abbreviation or a character. -/
def IsPiece (piece : Text) : Prop :=
  piece ≠ [] ∧ (piece.all isSpace = true ∨ piece = ['k', '.'] ∨ ∃ c, isSpace c = false ∧ piece = [c])

variable {U}

theorem isWord_dotted (c : Char) : U.isWord (dotted c) = U.isWord c := by
  unfold dotted
  split
  · next h => rw [h, isWord_letter (by decide), isWord_letter (by decide)]
  · rfl

theorem inWord_dotted (c : Option Char) : U.inWord (c.map dotted) = U.inWord c := by
  cases c with
  | none => rfl
  | some c => exact isWord_dotted c

theorem dotted_space {c : Char} (h : isSpace c = true) : dotted c = c := by
  refine if_neg ?_
  rintro rfl
  exact absurd h (by decide)

theorem beq_dotted {d : Char} (hd : d ≠ 'i' ∧ d ≠ 'ı') (c : Char) : (d == dotted c) = (d == c) := by
  unfold dotted
  split
  · next h =>
    subst h
    rw [beq_eq_false_iff_ne.2 hd.1, beq_eq_false_iff_ne.2 hd.2]
  · rfl

/-- The abbreviation is found before and after `ı` is replaced. -/
theorem abbreviates_dotted {before before' : Option Char} (h : U.inWord before' = U.inWord before) (l : Text) :
    abbreviates U before' (l.map dotted) = abbreviates U before l := by
  have hstart : ['k', '.'].isPrefixOf (l.map dotted) = ['k', '.'].isPrefixOf l := by
    cases l with
    | nil => rfl
    | cons c l =>
      cases l with
      | nil => simp only [List.map_cons, List.map_nil, List.isPrefixOf, Bool.and_false]
      | cons d l =>
        simp only [List.map_cons, List.isPrefixOf, beq_dotted (d := 'k') (by decide), beq_dotted (d := '.') (by decide)]
  unfold abbreviates
  rw [hstart, h, ← List.map_drop, List.head?_map, inWord_dotted]

theorem abbreviates_head {before : Option Char} {c : Char} {l : Text} (hc : c ≠ 'k') :
    abbreviates U before (c :: l) = false := by
  unfold abbreviates
  rw [List.isPrefixOf, beq_eq_false_iff_ne.2 hc.symm, Bool.false_and, Bool.false_and, Bool.false_and]

theorem spellOut_spaces {b : Text} (hb : ∀ c ∈ b, isSpace c = true) (before : Option Char) (l : Text) :
    spellOut U before false (b ++ l) = b ++ spellOut U (b.getLast?.or before) false l := by
  induction b generalizing before with
  | nil => rfl
  | cons c b ih =>
    obtain ⟨hc, hb⟩ := List.forall_mem_cons.1 hb
    have hne : c ≠ 'k' := by
      rintro rfl
      exact absurd hc (by decide)
    rw [List.cons_append, spellOut, abbreviates_head hne, if_neg Bool.false_ne_true, ih hb]
    cases b with
    | nil => rfl
    | cons d b => rw [List.getLast?_cons_cons, List.getLast?_eq_some_getLast (List.cons_ne_nil d b), Option.some_or, Option.some_or]; rfl

theorem produced_char {c : Char} (hc : isSpace c = false) : produced [c] = [dotted c] := by
  unfold produced isBlankText
  rw [List.all_cons, hc, Bool.false_and, Bool.and_false, if_neg Bool.false_ne_true, if_neg (by simp)]
  rfl

/-- The pieces of the source: where the scan finds them, and what each becomes in the spelled-out text. -/
theorem exists_pieces (l : Text) (pos : Nat) (before before' : Option Char) (h : U.inWord before' = U.inWord before) :
    ∃ pieces, scanFrom (sourcePiece U) pos before 0 l = layOut pos pieces ∧ l = pieces.flatten ∧
      spellOut U before' false (l.map dotted) = pieces.flatMap spelled ∧ (∀ v ∈ pieces, IsPiece v) ∧
      pieces.IsChain fun v w => v.all isSpace = true → w.all isSpace = false := by
  cases l with
  | nil => exact ⟨[], by rw [scanFrom, layOut], rfl, rfl, fun _ h => absurd h List.not_mem_nil, List.IsChain.nil⟩
  | cons c l =>
    cases hspace : isSpace c with
    | true =>
      -- a run of spaces
      have hsplit : c :: l = (c :: l.takeWhile isSpace) ++ l.dropWhile isSpace := by
        rw [List.cons_append, List.takeWhile_append_dropWhile]
      have hall : ∀ x ∈ c :: l.takeWhile isSpace, isSpace x = true :=
        List.forall_mem_cons.2 ⟨hspace, fun x hx => List.mem_takeWhile_imp hx⟩
      have hmatch : sourcePiece U before ((c :: l.takeWhile isSpace) ++ l.dropWhile isSpace) =
          some (c :: l.takeWhile isSpace).length := by
        rw [← hsplit]
        exact if_pos hspace
      have hdotted : (c :: l).map dotted = (c :: l.takeWhile isSpace) ++ (l.dropWhile isSpace).map dotted := by
        rw [hsplit, List.map_append]
        exact congrArg (· ++ _) ((List.map_congr_left fun x hx => dotted_space (hall x hx)).trans (List.map_id _))
      have hlength : (l.dropWhile isSpace).length < (c :: l).length :=
        Nat.lt_succ_of_le (List.length_dropWhile_le _ _)
      have hlast : (c :: l.takeWhile isSpace).getLast?.or before' = (c :: l.takeWhile isSpace).getLast? := by
        rw [List.getLast?_eq_some_getLast (List.cons_ne_nil _ _), Option.some_or]
      obtain ⟨pieces, hscan, hflatten, hspell, hpieces, hchain⟩ := exists_pieces (l.dropWhile isSpace)
        (pos + (c :: l.takeWhile isSpace).length) (c :: l.takeWhile isSpace).getLast? _ rfl
      refine ⟨(c :: l.takeWhile isSpace) :: pieces, ?_, ?_, ?_, List.forall_mem_cons.2 ⟨?_, hpieces⟩, ?_⟩
      · rw [layOut, ← hscan, ← scanFrom_append pos (List.cons_ne_nil _ _) hmatch, ← hsplit]
      · rw [List.flatten_cons, ← hflatten, ← hsplit]
      · rw [hdotted, spellOut_spaces hall, hlast, hspell, List.flatMap_cons, spelled, if_pos (List.all_eq_true.2 hall)]
      · exact ⟨List.cons_ne_nil _ _, Or.inl (List.all_eq_true.2 hall)⟩
      · cases pieces with
        | nil => exact List.isChain_singleton _
        | cons w pieces =>
          refine List.isChain_cons_cons.2 ⟨fun _ => ?_, hchain⟩
          obtain ⟨x, w, rfl⟩ := List.exists_cons_of_ne_nil (hpieces w List.mem_cons_self).1
          have hx : isSpace x = false := by
            have hhead := List.head?_dropWhile_not isSpace l
            rw [hflatten] at hhead
            simpa using hhead
          rw [List.all_cons, hx, Bool.false_and]
    | false =>
      have hfree : ∀ {w : Text} {pieces : List Text}, w.all isSpace = false →
          (pieces.IsChain fun v w => v.all isSpace = true → w.all isSpace = false) →
            (w :: pieces).IsChain fun v w => v.all isSpace = true → w.all isSpace = false := by
        intro w pieces hw hchain
        cases pieces with
        | nil => exact List.isChain_singleton _
        | cons v pieces => exact List.isChain_cons_cons.2 ⟨fun h => absurd (hw.symm.trans h) Bool.false_ne_true, hchain⟩
      cases habbr : abbreviates U before (c :: l) with
      | true =>
        -- an abbreviation
        have hk : ['k', '.'] <+: c :: l := by
          unfold abbreviates at habbr
          rw [Bool.and_eq_true, Bool.and_eq_true] at habbr
          exact List.isPrefixOf_iff_prefix.1 habbr.1.1
        obtain ⟨rest, hrest⟩ := hk
        have hmatch : sourcePiece U before (['k', '.'] ++ rest) = some ['k', '.'].length := by
          rw [hrest]
          unfold sourcePiece
          dsimp only
          rw [hspace, if_neg Bool.false_ne_true, if_pos habbr]
          rfl
        have hlength : rest.length < (c :: l).length := by
          rw [← hrest, List.length_append]
          exact Nat.lt_add_of_pos_left (by decide)
        obtain ⟨pieces, hscan, hflatten, hspell, hpieces, hchain⟩ := exists_pieces rest (pos + ['k', '.'].length)
          (some '.') (some '.') rfl
        refine ⟨['k', '.'] :: pieces, ?_, ?_, ?_, List.forall_mem_cons.2 ⟨?_, hpieces⟩, hfree (by decide) hchain⟩
        · rw [layOut, ← hscan, ← hrest]
          exact scanFrom_append pos (List.cons_ne_nil _ _) hmatch
        · rw [List.flatten_cons, ← hflatten, hrest]
        · have hmap : (c :: l).map dotted = 'k' :: '.' :: rest.map dotted := by rw [← hrest, List.map_append]; rfl
          have habbr' : abbreviates U before' ('k' :: '.' :: rest.map dotted) = true := by
            rw [← hmap, abbreviates_dotted h]
            exact habbr
          rw [hmap, spellOut, if_pos habbr', spellOut, hspell, List.flatMap_cons]
          rfl
        · exact ⟨List.cons_ne_nil _ _, Or.inr (Or.inl rfl)⟩
      | false =>
        -- another character
        have hmatch : sourcePiece U before ([c] ++ l) = some [c].length := by
          unfold sourcePiece
          rw [List.singleton_append]
          dsimp only
          rw [hspace, habbr]
          rfl
        have hlength : l.length < (c :: l).length := Nat.lt_succ_self _
        obtain ⟨pieces, hscan, hflatten, hspell, hpieces, hchain⟩ := exists_pieces l (pos + [c].length) (some c)
          (some (dotted c)) (isWord_dotted c)
        have hall : [c].all isSpace = false := by rw [List.all_cons, hspace, Bool.false_and]
        refine ⟨[c] :: pieces, ?_, ?_, ?_, List.forall_mem_cons.2 ⟨?_, hpieces⟩, hfree hall hchain⟩
        · rw [layOut, ← hscan]
          exact scanFrom_append pos (List.cons_ne_nil _ _) hmatch
        · rw [List.flatten_cons, ← hflatten, List.singleton_append]
        · have hnot : abbreviates U before' (dotted c :: l.map dotted) = false := (abbreviates_dotted h (c :: l)).trans habbr
          rw [List.map_cons, spellOut, hnot, if_neg Bool.false_ne_true, hspell, List.flatMap_cons, spelled, hall,
            if_neg Bool.false_ne_true, produced_char hspace, List.singleton_append]
        · exact ⟨List.cons_ne_nil _ _, Or.inr (Or.inr ⟨c, hspace, rfl⟩)⟩
termination_by l.length
decreasing_by all_goals exact hlength

/-! ## The spans -/

section

variable {source : Text} {places : List Span}

/-- The text of a place. -/
def pieceOf (source : Text) (s : Span) : Text := slice source (s.start, s.stop)

/-- The entries of a place. -/
def entriesOf (source : Text) (s : Span) : List Span := List.replicate (produced (pieceOf source s)).length s

def blankAt (source : Text) (s : Span) : Bool := (pieceOf source s).all isSpace

theorem map_pieceOf : ∀ {pieces : List Text} {pos : Nat}, source.drop pos = pieces.flatten →
    (layOut pos pieces).map (pieceOf source) = pieces
  | [], _, _ => rfl
  | v :: pieces, pos, h => by
    rw [List.flatten_cons] at h
    have hrest : source.drop (pos + v.length) = pieces.flatten := by rw [← List.drop_drop, h, List.drop_left]
    have hv : pieceOf source ⟨pos, pos + v.length⟩ = v := (slice_add source pos v.length).trans (by rw [h, List.take_left])
    rw [layOut, List.map_cons, hv, map_pieceOf hrest]

theorem isBlankText_eq {piece : Text} (h : piece ≠ []) : isBlankText piece = piece.all isSpace := by
  unfold isBlankText
  rw [decide_eq_true h, Bool.true_and]

theorem produced_blank {piece : Text} (h : IsPiece piece) (hblank : piece.all isSpace = true) : produced piece = [' '] := by
  unfold produced
  rw [isBlankText_eq h.1, if_pos hblank]

theorem produced_ne_nil {piece : Text} (h : IsPiece piece) : produced piece ≠ [] := by
  rcases h with ⟨hne, hblank | rfl | ⟨c, hc, rfl⟩⟩
  · rw [produced_blank ⟨hne, Or.inl hblank⟩ hblank]
    exact List.cons_ne_nil _ _
  · decide
  · rw [produced_char hc]
    exact List.cons_ne_nil _ _

theorem addSpans_eq {spans : List Span} {s : Span} (h : IsPiece (pieceOf source s)) :
    addSpans source spans s = if spans = [] ∧ blankAt source s = true then [] else spans ++ entriesOf source s := by
  have hpiece : slice source (s.start, s.stop) = pieceOf source s := rfl
  unfold addSpans blankAt entriesOf
  dsimp only
  rw [hpiece, isBlankText_eq h.1]
  cases hblank : (pieceOf source s).all isSpace with
  | true =>
    rw [if_pos rfl, produced_blank h hblank]
    by_cases hnil : spans = []
    · rw [if_pos hnil, if_pos ⟨hnil, rfl⟩, hnil]
    · rw [if_neg hnil, if_neg fun hand => hnil hand.1]
      rfl
  | false =>
    have hnot : ¬ (spans = [] ∧ false = true) := fun hand => Bool.false_ne_true hand.2
    rw [if_neg Bool.false_ne_true, if_neg hnot]
    rcases h with ⟨-, hspace | hk | ⟨c, hc, hchar⟩⟩
    · rw [hspace] at hblank
      cases hblank
    · rw [hk, if_pos rfl]
      rfl
    · rw [hchar, if_neg (by simp), produced_char hc]
      rfl

theorem foldl_addSpans (h : ∀ s ∈ places, IsPiece (pieceOf source s)) (spans : List Span) :
    places.foldl (addSpans source) spans =
      if spans = [] then (places.dropWhile (blankAt source)).flatMap (entriesOf source)
      else spans ++ places.flatMap (entriesOf source) := by
  induction places generalizing spans with
  | nil => split <;> simp [*]
  | cons s places ih =>
    obtain ⟨hs, hplaces⟩ := List.forall_mem_cons.1 h
    have hne : entriesOf source s ≠ [] := by
      intro hnil
      unfold entriesOf at hnil
      rw [List.replicate_eq_nil_iff, List.length_eq_zero_iff] at hnil
      exact produced_ne_nil hs hnil
    rw [List.foldl_cons, ih hplaces, addSpans_eq hs]
    by_cases hskip : spans = [] ∧ blankAt source s = true
    · rw [if_pos hskip, if_pos rfl, if_pos hskip.1, List.dropWhile_cons, if_pos hskip.2]
    · have happend : spans ++ entriesOf source s ≠ [] := fun h => hne (List.append_eq_nil_iff.1 h).2
      rw [if_neg hskip, if_neg happend, List.append_assoc, ← List.flatMap_cons]
      by_cases hnil : spans = []
      · rw [if_pos hnil, hnil, List.nil_append, List.dropWhile_cons, if_neg fun h => hskip ⟨hnil, h⟩]
      · rw [if_neg hnil]

/-- The entries without the ones of spaces at the ends: a last entry that is dropped is the one of the spaces there. -/
theorem trimmed_entries (hpieces : ∀ s ∈ places, IsPiece (pieceOf source s))
    (hchain : places.IsChain fun a b => blankAt source a = true → blankAt source b = false)
    (hlast : ∀ s, places.getLast? = some s → source.getLast?.any isSpace = blankAt source s) :
    (let spans := (places.dropWhile (blankAt source)).flatMap (entriesOf source)
      if spans ≠ [] ∧ source.getLast?.any isSpace = true then spans.dropLast else spans) =
      (trimBy (blankAt source) places).flatMap (entriesOf source) := by
  have hsuffix := List.dropWhile_suffix (blankAt source) (l := places)
  have hhead := List.head?_dropWhile_not (blankAt source) places
  unfold trimBy
  dsimp only
  rcases List.eq_nil_or_concat (places.dropWhile (blankAt source)) with hnil | ⟨kept, s, hkept⟩
  · rw [hnil, if_neg fun hand => hand.1 rfl]
    rfl
  · rw [List.concat_eq_append] at hkept
    have hs : places.getLast? = some s := by
      obtain ⟨skipped, hplaces⟩ := hsuffix
      rw [← hplaces, hkept, ← List.append_assoc, List.getLast?_concat]
    have hpiece := hpieces s (List.mem_of_getLast? hs)
    rw [hkept] at hhead
    rw [hkept, hlast s hs, List.flatMap_append, List.flatMap_singleton]
    cases hblank : blankAt source s with
    | true =>
      have hone : entriesOf source s = [s] := by
        unfold entriesOf
        rw [produced_blank hpiece hblank]
        rfl
      rw [hone, if_pos ⟨by simp, rfl⟩, List.dropLast_concat, List.rdropWhile_concat_pos _ _ _ hblank]
      rcases List.eq_nil_or_concat kept with rfl | ⟨kept, r, rfl⟩
      · rw [List.nil_append, List.head?_cons] at hhead
        exact absurd hblank (by simpa using hhead)
      · rw [List.concat_eq_append] at hkept ⊢
        have hpair : [r, s] <:+: places := by
          refine List.IsInfix.trans ?_ hsuffix.isInfix
          rw [hkept, List.append_assoc]
          exact (List.suffix_append kept [r, s]).isInfix
        have hr : ¬ blankAt source r = true := fun hr =>
          absurd hblank (Bool.eq_false_iff.1 ((List.isChain_cons_cons.1 ( List.IsChain.infix hchain hpair)).1 hr))
        rw [List.rdropWhile_concat_neg _ _ _ hr]
    | false =>
      rw [if_neg fun hand => Bool.false_ne_true hand.2,
        List.rdropWhile_concat_neg _ _ _ (by rw [hblank]; exact Bool.false_ne_true), List.flatMap_append, List.flatMap_singleton]

theorem all_spelled (piece : Text) : (spelled piece).all isSpace = piece.all isSpace := by
  unfold spelled
  cases hblank : piece.all isSpace with
  | true => rw [if_pos rfl, hblank]
  | false =>
    have hnot : isBlankText piece = false := by
      unfold isBlankText
      rw [hblank, Bool.and_false]
    have hdotted : ∀ c, isSpace (dotted c) = isSpace c := by
      intro c
      unfold dotted
      split
      · next h =>
        subst h
        decide
      · rfl
    unfold produced
    rw [if_neg Bool.false_ne_true, hnot, if_neg Bool.false_ne_true]
    split
    · decide
    · rw [List.all_map, ← hblank]
      exact congrArg (piece.all ·) (funext hdotted)

theorem shown_spelled {piece : Text} (h : piece ≠ []) : shown isSpace ' ' (spelled piece) = produced piece := by
  unfold shown
  rw [all_spelled]
  unfold spelled produced
  rw [isBlankText_eq h]
  cases piece.all isSpace with
  | true => rfl
  | false => rfl

theorem spelled_kinds {piece : Text} (h : IsPiece piece) :
    (spelled piece).all isSpace = true ∨ ∀ c ∈ spelled piece, isSpace c = false := by
  rw [all_spelled]
  rcases h with ⟨-, hblank | rfl | ⟨c, hc, rfl⟩⟩
  · exact Or.inl hblank
  · exact Or.inr (List.all_iff_forall_prop.1 (by decide))
  · right
    have hall : [c].all isSpace = false := by rw [List.all_cons, hc, Bool.false_and]
    have hspelled : spelled [c] = [dotted c] := by
      unfold spelled
      rw [hall, if_neg Bool.false_ne_true, produced_char hc]
    have hkept := all_spelled [c]
    rw [hspelled, hall, List.all_cons, List.all_nil, Bool.and_true] at hkept
    rw [hspelled]
    exact List.forall_mem_singleton.2 hkept

theorem spelled_ne_nil {piece : Text} (h : IsPiece piece) : spelled piece ≠ [] := by
  unfold spelled
  split
  · exact h.1
  · exact produced_ne_nil h

/-- The pieces of a source, the spans that map its normal form back to them, and the normal form itself. -/
theorem exists_places (U : Unicode) (text : Text) :
    ∃ pieces : List Text, normalizeTurkish U text = pieces.flatten ∧ (∀ v ∈ pieces, IsPiece v) ∧
      sourceSpans U (normalizeTurkish U text) =
        (trimBy (blankAt (normalizeTurkish U text)) (layOut 0 pieces)).flatMap (entriesOf (normalizeTurkish U text)) ∧
      normalizeLawName U text =
        (trimBy (blankAt (normalizeTurkish U text)) (layOut 0 pieces)).flatMap fun s => produced (pieceOf (normalizeTurkish U text) s) := by
  obtain ⟨pieces, hscan, hflatten, hspell, hpieces, hchain⟩ := exists_pieces (U := U) (normalizeTurkish U text) 0 none none rfl
  have hname : normalizeLawName U text = joinWords isSpace ' ' (pieces.flatMap spelled) := by rw [← hspell]; rfl
  generalize normalizeTurkish U text = source at hscan hflatten
  have hmap : (layOut 0 pieces).map (pieceOf source) = pieces := map_pieceOf hflatten
  have hplaces : ∀ s ∈ layOut 0 pieces, IsPiece (pieceOf source s) := fun s hs =>
    hpieces _ (hmap ▸ List.mem_map_of_mem hs)
  refine ⟨pieces, hflatten, hpieces, ?_, ?_⟩
  · have hapart : (layOut 0 pieces).IsChain fun a b => blankAt source a = true → blankAt source b = false := by
      rw [← hmap] at hchain
      exact (List.isChain_map _).1 hchain
    have hlast : ∀ s, (layOut 0 pieces).getLast? = some s → source.getLast?.any isSpace = blankAt source s := by
      intro s hs
      have hv : pieces.getLast? = some (pieceOf source s) := by
        rw [← hmap, List.getLast?_map, hs]
        rfl
      have hpiece := hplaces s (List.mem_of_getLast? hs)
      obtain ⟨init, hinit⟩ := List.getLast?_eq_some_iff.1 hv
      obtain ⟨d, hd⟩ : ∃ d, (pieceOf source s).getLast? = some d := ⟨_, List.getLast?_eq_some_getLast hpiece.1⟩
      have hsource : source.getLast? = some d := by
        rw [hflatten, hinit, List.flatten_append, List.flatten_singleton, List.getLast?_append, hd, Option.some_or]
      rw [hsource, Option.any_some]
      unfold blankAt
      rcases hpiece with ⟨-, hblank | hk | ⟨c, hc, hchar⟩⟩
      · rw [hblank]
        exact List.all_eq_true.1 hblank d (List.mem_of_getLast? hd)
      · rw [hk] at hd ⊢
        cases hd
        decide
      · rw [hchar] at hd ⊢
        cases hd
        rw [List.all_cons, hc, Bool.false_and]
        exact hc
    unfold sourceSpans scan
    rw [hscan, foldl_addSpans hplaces, if_pos rfl]
    exact trimmed_entries hplaces hapart hlast
  · have hkept : Pieces isSpace (pieces.map spelled) := by
      refine ⟨fun w hw => ?_, fun w hw => ?_, ?_⟩
      · obtain ⟨v, hv, rfl⟩ := List.mem_map.1 hw
        exact spelled_ne_nil (hpieces v hv)
      · obtain ⟨v, hv, rfl⟩ := List.mem_map.1 hw
        exact spelled_kinds (hpieces v hv)
      · refine (List.isChain_map _).2 (hchain.imp fun v w h => ?_)
        rw [all_spelled, all_spelled]
        exact h
    have hblank : (fun s => (spelled (pieceOf source s)).all isSpace) = blankAt source := funext fun s => all_spelled _
    have htrim : trimBy (List.all · isSpace) (pieces.map spelled) =
        (trimBy (blankAt source) (layOut 0 pieces)).map fun s => spelled (pieceOf source s) := by
      have hboth : pieces.map spelled = (layOut 0 pieces).map fun s => spelled (pieceOf source s) :=
        (congrArg (List.map spelled) hmap.symm).trans List.map_map
      rw [hboth, ← hblank]
      unfold trimBy List.rdropWhile
      rw [List.dropWhile_map, ← List.map_reverse, List.dropWhile_map, ← List.map_reverse]
      rfl
    rw [hname, List.flatMap_def, joinWords_flatten hkept, htrim, List.flatMap_map]
    refine List.flatMap_congr fun s hs => shown_spelled (hplaces s ?_).1
    exact (List.dropWhile_suffix _).subset (List.rdropWhile_prefix _ _ |>.subset hs)

/-! ## What the map says -/

/-- Spans and characters that come from the same places belong together. -/
theorem getElem_entries {places : List Span} {g : Span → Text} {i : Nat} {s : Span}
    (h : (places.flatMap fun s => List.replicate (g s).length s)[i]? = some s) :
    ∃ c, (places.flatMap g)[i]? = some c ∧ c ∈ g s := by
  induction places generalizing i with
  | nil => cases h
  | cons r places ih =>
    rw [List.flatMap_cons] at h ⊢
    by_cases hi : i < (g r).length
    · rw [List.getElem?_append_left (by rwa [List.length_replicate]), List.getElem?_replicate, if_pos hi] at h
      have hsame : r = s := Option.some.inj h
      subst hsame
      rw [List.getElem?_append_left hi]
      exact ⟨(g r)[i], List.getElem?_eq_getElem hi, List.getElem_mem hi⟩
    · rw [List.getElem?_append_right (by rw [List.length_replicate]; exact not_lt.1 hi), List.length_replicate] at h
      rw [List.getElem?_append_right (not_lt.1 hi)]
      exact ih h

end

/-- The spans map the normal form of a text as a law name back to the text: one for each character, in the order of the
text, each the place of a piece that became this character; and each match of a name has spans at both ends. -/
theorem sourceSpans_exact (U : Unicode) (text : Text) :
    (sourceSpans U (normalizeTurkish U text)).length = (normalizeLawName U text).length ∧
      (sourceSpans U (normalizeTurkish U text)).Pairwise (fun a b => a = b ∨ a.stop ≤ b.start) ∧
      (∀ (i : Nat) (s : Span), (sourceSpans U (normalizeTurkish U text))[i]? = some s →
        s.start < s.stop ∧ s.stop ≤ (normalizeTurkish U text).length ∧ IsPiece (pieceOf (normalizeTurkish U text) s) ∧
          ∃ c, (normalizeLawName U text)[i]? = some c ∧ c ∈ produced (pieceOf (normalizeTurkish U text) s)) ∧
      (∃ pieces : List Text, normalizeTurkish U text = pieces.flatten ∧
        sourceSpans U (normalizeTurkish U text) =
          (trimBy (blankAt (normalizeTurkish U text)) (layOut 0 pieces)).flatMap (entriesOf (normalizeTurkish U text)) ∧
        normalizeLawName U text =
          (trimBy (blankAt (normalizeTurkish U text)) (layOut 0 pieces)).flatMap fun s =>
            produced (pieceOf (normalizeTurkish U text) s)) ∧
      ∀ names index, nameIndex U names = some index → ∀ m ∈ scopeMatches U index (normalizeLawName U text),
        m.start < m.stop ∧ m.stop ≤ (sourceSpans U (normalizeTurkish U text)).length := by
  obtain ⟨pieces, hflatten, hpieces, hspans, hname⟩ := exists_places U text
  have hlength : (sourceSpans U (normalizeTurkish U text)).length = (normalizeLawName U text).length := by
    rw [hspans, hname, List.length_flatMap, List.length_flatMap]
    refine congrArg List.sum (List.map_congr_left fun s _ => ?_)
    rw [entriesOf, List.length_replicate]
  have hmap : (layOut 0 pieces).map (pieceOf (normalizeTurkish U text)) = pieces := map_pieceOf hflatten
  obtain ⟨hordered, hinside⟩ := layOut_ordered (p := 0) fun v hv => (hpieces v hv).1
  have htrim : (trimBy (blankAt (normalizeTurkish U text)) (layOut 0 pieces)).Sublist (layOut 0 pieces) :=
    (List.rdropWhile_prefix _ _).sublist.trans (List.dropWhile_suffix _).sublist
  refine ⟨hlength, ?_, fun i s hs => ?_, ⟨pieces, hflatten, hspans, hname⟩, fun names index hindex m hm => ?_⟩
  · rw [hspans]
    refine List.pairwise_flatMap.2 ⟨fun s _ => List.pairwise_replicate.2 (Or.inr (Or.inl rfl)), ?_⟩
    refine (hordered.sublist htrim).imp fun hab x hx y hy => Or.inr ?_
    rw [List.eq_of_mem_replicate hx, List.eq_of_mem_replicate hy]
    exact hab
  · rw [hspans] at hs
    obtain ⟨r, hr, hentry⟩ := List.mem_flatMap.1 (List.mem_of_getElem? hs)
    have hplace : s ∈ layOut 0 pieces := List.eq_of_mem_replicate hentry ▸ htrim.subset hr
    obtain ⟨-, hproper, hstop⟩ := hinside s hplace
    rw [← hflatten, Nat.zero_add] at hstop
    obtain ⟨c, hc, hproduced⟩ := getElem_entries hs
    exact ⟨hproper, hstop, hpieces _ (hmap ▸ List.mem_map_of_mem hplace), c, hname ▸ hc, hproduced⟩
  · rw [hlength]
    rw [scopeMatches_eq_plain hindex] at hm
    exact mem_plainMatches (indexes_nameIndex hindex).named hm

end Mesa.Legal
