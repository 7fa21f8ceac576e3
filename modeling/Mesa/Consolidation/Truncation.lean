/-
What is salvaged of a batch response that was cut off behind the opening of its array: the elements that end before
the cut, up to the first one of them with an array inside. A fence in the strings of the response is taken for the
fence around it, so the text that was cut is one without two fences.
-/
import Mesa.Consolidation.Salvage

namespace Mesa.Consolidation

open Mesa.Foundation Mesa.Foundation.Json
open Mesa.Rebuild (Text isSpace strip)

/-! ## The response -/

/-- The members of a triplet object. -/
abbrev Element := List (Text × Tree)

def batchResponse (elements : List Element) : Tree := .obj [("triplets".toList, .arr (elements.map .obj))]

variable (w : Writer)

/-- The text up to the opening bracket of the array. -/
def opening : Text := '{' :: (w.quote "triplets".toList ++ ':' :: (w.colon ++ ['[']))

/-- Elements with what separates them, the first one behind `sep`. -/
def listed (sep : Text) : List Element → Text
  | [] => []
  | e :: es => sep ++ (w.render (.obj e) ++ listed (',' :: w.comma) es)

/-- The elements that lie within the next `n` characters. -/
def complete (sep : Text) : List Element → Nat → List Element
  | [], _ => []
  | e :: es, n =>
    let size := (sep ++ w.render (.obj e)).length
    if size ≤ n then e :: complete (',' :: w.comma) es (n - size) else []

/-- The elements that end before the cut. -/
def endingBefore (elements : List Element) (cut : Nat) : List Element :=
  complete w [] elements (cut - (opening w).length)

theorem renderItems_listed (es : List Element) :
    w.renderItems (es.map .obj) = listed w (',' :: w.comma) es ++ [']'] := by
  induction es with
  | nil => rfl
  | cons e es ih => rw [List.map_cons, Style.renderItems, ih, listed]; simp

theorem render_batchResponse (es : List Element) :
    w.render (batchResponse es) = opening w ++ (listed w [] es ++ [']', '}']) := by
  unfold batchResponse opening
  cases es with
  | nil => rw [Style.render, List.map_nil, Style.render, listed]; simp [Style.renderPairs]
  | cons e es =>
    rw [Style.render, List.map_cons, Style.render, renderItems_listed, listed]
    simp [Style.renderPairs]

theorem prefix_complete (sep : Text) (es : List Element) (n : Nat) : complete w sep es n <+: es := by
  induction es generalizing sep n with
  | nil => exact List.prefix_refl _
  | cons e es ih =>
    rw [complete]
    split
    · exact (List.prefix_cons_inj e).2 (ih _ _)
    · exact List.nil_prefix

theorem prefix_listed (sep : Text) {k es : List Element} (h : k <+: es) : listed w sep k <+: listed w sep es := by
  obtain ⟨r, rfl⟩ := h
  induction k generalizing sep with
  | nil => exact List.nil_prefix
  | cons e k ih =>
    rw [List.cons_append, listed, listed, List.prefix_append_right_inj, List.prefix_append_right_inj]
    exact ih _

/-! ## The scan of the elements -/

/-- One element, between two elements of the array. -/
theorem scan_element {sep : Text} (hsep : ∀ c ∈ sep, isSignificant c = false) (e : Element) {s : Scanner}
    (hs : s.Outside) (hdepth : s.elementDepth = 0) :
    (∀ n, n < (sep ++ w.render (.obj e)).length →
      (((sep ++ w.render (.obj e)).take n).foldl Scanner.step s).lastCompleteElementEnd = s.lastCompleteElementEnd) ∧
    if arrayFreeMembers e then
      (sep ++ w.render (.obj e)).foldl Scanner.step s =
        { s.moved (sep ++ w.render (.obj e)).length with
          lastCompleteElementEnd := s.i + (sep ++ w.render (.obj e)).length }
    else
      ((sep ++ w.render (.obj e)).foldl Scanner.step s).stopped = true ∧
        ((sep ++ w.render (.obj e)).foldl Scanner.step s).lastCompleteElementEnd = s.lastCompleteElementEnd := by
  obtain ⟨body, hbody, hquiet⟩ := object_body w e
  rw [hbody]
  have hblank := quiet_plain hs hsep
  obtain ⟨hstring, hescape, hstop⟩ := hs
  -- the brace opens the element
  have hopen : (s.moved sep.length).step '{' = { s.moved (sep.length + 1) with elementDepth := 1 } := by
    unfold Scanner.step
    simp [hstring, hescape, hstop, hdepth, Scanner.moved, Nat.add_assoc]
  have hinner := hquiet ((s.moved sep.length).step '{') (by rw [hopen]; exact ⟨hstring, hescape, hstop⟩)
    (by rw [hopen]; exact Int.one_pos)
  have hkeeps : Keeps (sep ++ '{' :: body) s := by
    refine hblank.keeps.append ?_
    rw [hblank.passed]
    exact Keeps.cons (by rw [hopen]; rfl) hinner.keeps
  have hsplit : sep ++ '{' :: (body ++ ['}']) = (sep ++ '{' :: body) ++ ['}'] := by simp
  have hfold : (sep ++ '{' :: body).foldl Scanner.step s =
      body.foldl Scanner.step ((s.moved sep.length).step '{') := by
    rw [List.foldl_append, hblank.passed, List.foldl_cons]
  rw [hsplit]
  refine ⟨fun n hn => ?_, ?_⟩
  · rw [List.length_append, List.length_singleton] at hn
    rw [List.take_append_of_le_length (by omega)]
    exact hkeeps n
  · have hlast := hkeeps.all
    rw [List.foldl_append, hfold, List.foldl_cons, List.foldl_nil]
    rw [hfold] at hlast
    cases hfree : arrayFreeMembers e with
    | false =>
      rw [hfree] at hinner
      have hstopped := stopped_foldl hinner.left ['}']
      rw [List.foldl_cons, List.foldl_nil] at hstopped
      simp only [Bool.false_eq_true, if_false]
      rw [hstopped]
      exact ⟨hinner.left, hlast⟩
    | true =>
      rw [hfree] at hinner
      simp only [if_true]
      rw [hinner.passed, hopen]
      unfold Scanner.step
      simp [hstring, hescape, hstop, hdepth, Scanner.moved]
      omega

theorem isSignificant_separator : ∀ c ∈ ',' :: w.comma, isSignificant c = false := by
  rintro c (_ | ⟨_, hc⟩)
  · rfl
  · exact isSignificant_blank (List.all_eq_true.1 w.commaBlank c hc)

/-- The scan ends behind the last of the complete elements before the first one with an array. -/
theorem scan_listed {sep : Text} (hsep : ∀ c ∈ sep, isSignificant c = false) (es : List Element) (n : Nat) {s : Scanner}
    (hs : s.Outside) (hdepth : s.elementDepth = 0) (hlast : s.lastCompleteElementEnd = s.i) :
    (((listed w sep es ++ [']', '}']).take n).foldl Scanner.step s).lastCompleteElementEnd =
      s.i + (listed w sep ((complete w sep es n).takeWhile arrayFreeMembers)).length := by
  induction es generalizing sep n s with
  | nil =>
    have hclose : s.step ']' = { s with stopped := true } := by
      obtain ⟨hstring, hescape, hstop⟩ := hs
      unfold Scanner.step
      simp [hstring, hescape, hstop]
    have hkeeps : Keeps [']', '}'] s := Keeps.cons (by rw [hclose]) (keeps_stopped (by rw [hclose]) _)
    rw [listed, List.nil_append, hkeeps n, hlast]
    rfl
  | cons e es ih =>
    obtain ⟨hbegun, hwhole⟩ := scan_element w hsep e hs hdepth
    have htext : listed w sep (e :: es) ++ [']', '}'] =
        (sep ++ w.render (.obj e)) ++ (listed w (',' :: w.comma) es ++ [']', '}']) := by
      rw [listed]
      simp
    rw [htext, complete]
    split
    · next hsize =>
      rw [List.take_append, List.take_of_length_le hsize, List.foldl_append]
      cases hfree : arrayFreeMembers e with
      | false =>
        rw [hfree] at hwhole
        have hleft : ((sep ++ w.render (.obj e)).foldl Scanner.step s).stopped = true ∧
            ((sep ++ w.render (.obj e)).foldl Scanner.step s).lastCompleteElementEnd = s.lastCompleteElementEnd := by
          simpa only [Bool.false_eq_true, if_false] using hwhole
        rw [stopped_foldl hleft.1, hleft.2, hlast, List.takeWhile_cons_of_neg (by simp [hfree])]
        rfl
      | true =>
        rw [hfree] at hwhole
        simp only [if_true] at hwhole
        rw [hwhole, List.takeWhile_cons_of_pos hfree]
        refine (ih (s := { s.moved (sep ++ w.render (.obj e)).length with
          lastCompleteElementEnd := s.i + (sep ++ w.render (.obj e)).length }) (isSignificant_separator w) _ hs hdepth
          rfl).trans ?_
        rw [listed]
        simp only [Scanner.moved, List.length_append, Nat.add_assoc]
    · next hsize =>
      rw [List.take_append_of_le_length (by omega), hbegun n (by omega), hlast]
      rfl

/-! ## Sanitizing a cut text -/

theorem find_none {c : Char} {l : Text} (h : c ∉ l) : find c l = none := by
  unfold find
  rw [List.findIdx?_eq_none_iff]
  intro x hx
  rw [decide_eq_false_iff_not]
  rintro rfl
  exact h hx

theorem find_append {c : Char} {l : Text} (h : c ∉ l) (r : Text) : find c (l ++ c :: r) = some l.length := by
  induction l with
  | nil => simp [find, List.findIdx?_cons]
  | cons d l ih =>
    obtain ⟨hd, hl⟩ := not_or.1 (fun hc => h (List.mem_cons.2 hc))
    have hskip := ih hl
    unfold find at hskip ⊢
    rw [List.cons_append, List.findIdx?_cons, if_neg (by simpa using fun he => hd he.symm), hskip]
    rfl

theorem rfind_none {c : Char} {l : Text} (h : c ∉ l) : rfind c l = none := by
  unfold rfind
  rw [find_none (by simpa using h)]
  rfl

theorem rfind_append {c : Char} {r : Text} (h : c ∉ r) (l : Text) : rfind c (l ++ c :: r) = some l.length := by
  unfold rfind
  have hreverse : (l ++ c :: r).reverse = r.reverse ++ c :: l.reverse := by simp
  rw [hreverse, find_append (by simpa using h), Option.map_some]
  simp only [List.length_append, List.length_cons, List.length_reverse]
  congr 1
  omega

theorem rdropWhile_append_cons {p : Char → Bool} {c : Char} (hc : p c = false) (l r : Text) :
    (l ++ c :: r).rdropWhile p = l ++ c :: r.rdropWhile p := by
  unfold List.rdropWhile
  have hreverse : (l ++ c :: r).reverse = r.reverse ++ c :: l.reverse := by simp
  rw [hreverse, List.dropWhile_append]
  split
  · next hempty =>
    rw [List.isEmpty_iff] at hempty
    rw [hempty, List.dropWhile_cons, hc]
    simp
  · simp

theorem last_occurrence {c : Char} {l : Text} (h : c ∈ l) : ∃ a b, l = a ++ c :: b ∧ c ∉ b := by
  obtain ⟨b, a, hl, hb⟩ := List.eq_append_cons_of_mem (List.mem_reverse.2 h)
  refine ⟨a.reverse, b.reverse, ?_, by simpa using hb⟩
  rw [← List.reverse_reverse l, hl]
  simp

theorem quote_triplets : w.quote "triplets".toList = "\"triplets\"".toList := by
  unfold Style.quote
  rw [flatMap_eq_self w.named]
  rfl

/-- The opening ends with the bracket and has no closing brace. -/
theorem opening_eq : ∃ o, opening w = '{' :: (o ++ ['[']) ∧ '}' ∉ opening w := by
  refine ⟨"\"triplets\"".toList ++ ':' :: w.colon, ?_, ?_⟩
  · unfold opening
    rw [quote_triplets]
    simp
  · unfold opening
    rw [quote_triplets]
    have hcolon : '}' ∉ w.colon := fun hc => absurd (List.all_eq_true.1 w.colonBlank _ hc) (by decide)
    simp [hcolon]

theorem strip_opening (p : Text) : strip (opening w ++ p) = opening w ++ p.rdropWhile isSpace := by
  obtain ⟨o, ho, -⟩ := opening_eq w
  have hhead : (opening w ++ p).dropWhile isSpace = opening w ++ p := by
    rw [ho, List.cons_append, List.dropWhile_cons, if_neg (by decide)]
  have hsplit : ∀ q, opening w ++ q = ('{' :: o) ++ '[' :: q := by simp [ho]
  unfold strip trimBy
  rw [hhead, hsplit, hsplit, rdropWhile_append_cons (by decide)]

/-- Behind the opening, sanitizing takes characters off the end, none of which is a closing brace. -/
theorem sanitize_cut {p : Text} (hfence : fenced (opening w ++ p) = none) :
    ∃ kept rest, p = kept ++ rest ∧ '}' ∉ rest ∧ sanitizeLlmResponse (opening w ++ p) = opening w ++ kept := by
  obtain ⟨o, ho, hbrace⟩ := opening_eq w
  have hblanks : '}' ∉ p.rtakeWhile isSpace := fun hc => absurd (List.mem_rtakeWhile_imp hc) (by decide)
  have hp : p.rdropWhile isSpace ++ p.rtakeWhile isSpace = p := List.rdropWhile_append_rtakeWhile
  have hfirst : ∀ q, find '{' (opening w ++ q) = some 0 := by
    intro q
    rw [ho]
    exact find_append (l := []) (by simp) _
  unfold sanitizeLlmResponse stripMarkdownJson
  rw [hfence]
  dsimp only
  rw [strip_opening, hfirst]
  by_cases hlast : '}' ∈ p.rdropWhile isSpace
  · obtain ⟨a, b, hab, hb⟩ := last_occurrence hlast
    have hrfind : rfind '}' (opening w ++ p.rdropWhile isSpace) = some (opening w ++ a).length := by
      rw [hab, ← List.append_assoc]
      exact rfind_append hb _
    have hpos : 0 < (opening w ++ a).length := by rw [ho]; exact Nat.succ_pos _
    have hcut : (opening w ++ p.rdropWhile isSpace).take ((opening w ++ a).length + 1) = opening w ++ (a ++ ['}']) := by
      rw [hab, ← List.append_assoc, List.take_append, List.take_of_length_le (by omega), Nat.add_sub_cancel_left]
      simp
    rw [hrfind]
    dsimp only
    rw [if_pos hpos, hcut, List.drop_zero, strip_opening, rdropWhile_append_cons (by decide)]
    refine ⟨a ++ ['}'], b ++ p.rtakeWhile isSpace, ?_, by simp [hb, hblanks], by simp⟩
    calc p = p.rdropWhile isSpace ++ p.rtakeWhile isSpace := hp.symm
      _ = (a ++ ['}']) ++ (b ++ p.rtakeWhile isSpace) := by rw [hab]; simp
  · have hnone : rfind '}' (opening w ++ p.rdropWhile isSpace) = none := rfind_none (by simp [hbrace, hlast])
    rw [hnone]
    dsimp only
    rw [strip_opening, List.rdropWhile_idempotent]
    exact ⟨_, _, hp.symm, hblanks, rfl⟩

/-! ## Finding the array -/

theorem matchTriplets_opening (p : Text) :
    matchTriplets ("\"triplets\"".toList ++ ':' :: (w.colon ++ '[' :: p)) = some (w.colon.length + 12) := by
  have hquoted : "\"triplets\"".toList.isPrefixOf ("\"triplets\"".toList ++ ':' :: (w.colon ++ '[' :: p)) = true :=
    List.isPrefixOf_iff_prefix.2 (List.prefix_append _ _)
  have hcolon : (("\"triplets\"".toList ++ ':' :: (w.colon ++ '[' :: p)).drop 10).dropWhile isSpace =
      ':' :: (w.colon ++ '[' :: p) := by
    have hdrop : ("\"triplets\"".toList ++ ':' :: (w.colon ++ '[' :: p)).drop 10 = ':' :: (w.colon ++ '[' :: p) := rfl
    rw [hdrop, List.dropWhile_cons, if_neg (by decide)]
  have hblank : ∀ c ∈ w.colon, isSpace c = true := by
    intro c hc
    have hc := List.all_eq_true.1 w.colonBlank c hc
    have hcases : c = ' ' ∨ c = '\t' ∨ c = '\n' ∨ c = '\r' := by simpa [Json.isBlank] using hc
    rcases hcases with rfl | rfl | rfl | rfl <;> decide
  have hbracket : (w.colon ++ '[' :: p).dropWhile isSpace = '[' :: p := by
    rw [List.dropWhile_append_of_pos hblank, List.dropWhile_cons, if_neg (by decide)]
  unfold matchTriplets
  rw [if_pos hquoted, hcolon]
  simp only [hbracket]
  congr 1
  simp
  omega

theorem scan_opening (p : Text) :
    (scan (fun _ l => matchTriplets l) (opening w ++ p)).head?.map Span.stop = some (opening w).length := by
  have htext : opening w ++ p = '{' :: ("\"triplets\"".toList ++ ':' :: (w.colon ++ '[' :: p)) := by
    unfold opening
    rw [quote_triplets]
    simp
  have hlength : (opening w).length = w.colon.length + 13 := by
    unfold opening
    rw [quote_triplets]
    simp
  have hmatch := matchTriplets_opening w p
  have hbrace : matchTriplets ('{' :: ("\"triplets\"".toList ++ ':' :: (w.colon ++ '[' :: p))) = none := by
    have hquoted : "\"triplets\"".toList.isPrefixOf ('{' :: ("\"triplets\"".toList ++ ':' :: (w.colon ++ '[' :: p))) =
        false := rfl
    unfold matchTriplets
    rw [hquoted]
    rfl
  rw [htext, hlength]
  unfold scan
  rw [scanFrom, hbrace]
  have hquote : "\"triplets\"".toList ++ ':' :: (w.colon ++ '[' :: p) =
      '"' :: ("triplets\"".toList ++ ':' :: (w.colon ++ '[' :: p)) := rfl
  rw [hquote] at hmatch ⊢
  simp only [scanFrom, hmatch, List.head?_cons, Option.map_some]
  congr 1
  omega

/-! ## Salvage of a cut text -/

theorem step_open {c : Char} (h : c ≠ '}') (s : Scanner) :
    (s.step c).lastCompleteElementEnd = s.lastCompleteElementEnd := by
  unfold Scanner.step
  rw [if_neg h]
  repeat' split
  all_goals rfl

/-- What is scanned behind the last closing brace ends no element. -/
theorem scan_open {l : Text} (h : '}' ∉ l) (s : Scanner) :
    (l.foldl Scanner.step s).lastCompleteElementEnd = s.lastCompleteElementEnd := by
  induction l generalizing s with
  | nil => rfl
  | cons c l ih =>
    obtain ⟨hc, hl⟩ := not_or.1 (fun hx => h (List.mem_cons.2 hx))
    rw [List.foldl_cons, ih hl, step_open fun he => hc he.symm]

theorem step_bound {s : Scanner} (h : s.lastCompleteElementEnd ≤ s.i) (c : Char) :
    (s.step c).lastCompleteElementEnd ≤ (s.step c).i ∧ (s.step c).i ≤ s.i + 1 := by
  unfold Scanner.step
  repeat' split
  all_goals try dsimp only
  all_goals omega

/-- An element ends where the scan is, or earlier. -/
theorem scan_bound {s : Scanner} (h : s.lastCompleteElementEnd ≤ s.i) (l : Text) :
    (l.foldl Scanner.step s).lastCompleteElementEnd ≤ s.i + l.length := by
  induction l generalizing s with
  | nil => exact h
  | cons c l ih =>
    obtain ⟨hlast, hi⟩ := step_bound h c
    have := ih hlast
    rw [List.foldl_cons, List.length_cons]
    omega

/-- The text of some elements ends with a closing brace. -/
theorem listed_end (sep : Text) (es : List Element) : es = [] ∨ ∃ l, listed w sep es = l ++ ['}'] := by
  induction es generalizing sep with
  | nil => exact Or.inl rfl
  | cons e es ih =>
    right
    rw [listed]
    rcases ih (',' :: w.comma) with rfl | ⟨l, hl⟩
    · obtain ⟨body, hbody, -⟩ := object_body w e
      exact ⟨sep ++ '{' :: body, by rw [hbody, listed]; simp⟩
    · exact ⟨sep ++ (w.render (.obj e) ++ l), by rw [hl]; simp⟩

/-- Behind complete elements the closing brackets are all that is missing. -/
theorem repair_eq {kept : Text} {es : List Element} (hkept : listed w [] es <+: kept)
    (hlast : (kept.foldl Scanner.step (Scanner.start (opening w).length)).lastCompleteElementEnd =
      (opening w).length + (listed w [] es).length) :
    repair (opening w ++ kept) (opening w).length = w.render (batchResponse es) := by
  obtain ⟨rest, rfl⟩ := hkept
  unfold repair
  dsimp only
  rw [List.drop_left, hlast, render_batchResponse]
  have htake : (opening w ++ (listed w [] es ++ rest)).take ((opening w).length + (listed w [] es).length) =
      opening w ++ listed w [] es := by
    rw [← List.append_assoc, ← List.length_append, List.take_left]
  have hend : ∃ l c, opening w ++ listed w [] es = l ++ [c] ∧ c ≠ ',' ∧ isSpace c = false := by
    rcases listed_end w [] es with rfl | ⟨l, hl⟩
    · obtain ⟨o, ho, -⟩ := opening_eq w
      exact ⟨'{' :: o, '[', by rw [ho, listed]; simp, by decide, by decide⟩
    · exact ⟨opening w ++ l, '}', by rw [hl]; simp, by decide, by decide⟩
  obtain ⟨l, c, hl, hcomma, hspace⟩ := hend
  rw [htake, hl, List.rdropWhile_concat_neg _ _ _ (by simpa using hcomma),
    List.rdropWhile_concat_neg _ _ _ (by simp [hspace]), ← hl]
  simp

/-- The whole response is read as it is; of a shorter text the complete elements before the first one with an array
are kept. -/
theorem salvage_cut (es : List Element) (n : Nat)
    (hfence : fenced (opening w ++ (listed w [] es ++ [']', '}']).take n) = none) :
    salvageTruncatedJson (opening w ++ (listed w [] es ++ [']', '}']).take n) =
      some (batchResponse (if (listed w [] es).length + 2 ≤ n then es
        else (complete w [] es n).takeWhile arrayFreeMembers)) := by
  obtain ⟨kept, rest, hp, hrest, hsanitized⟩ := sanitize_cut w hfence
  unfold salvageTruncatedJson
  dsimp only
  rw [hsanitized]
  by_cases hwhole : (listed w [] es).length + 2 ≤ n
  · rw [if_pos hwhole]
    rw [List.take_of_length_le (by simpa using hwhole)] at hp
    have hnil : rest = [] := by
      rcases List.eq_nil_or_concat rest with hnil | ⟨r, c, hr⟩
      · exact hnil
      · have hlast := congrArg List.getLast? hp
        rw [hr, List.concat_eq_append, ← List.append_assoc, List.getLast?_concat] at hlast
        have hc : '}' = c := by simpa using hlast
        exact absurd (by rw [hr, hc]; simp) hrest
    rw [hnil, List.append_nil] at hp
    rw [← hp, ← render_batchResponse, loadsTree_render]
  · rw [if_neg hwhole]
    have hdrop : (listed w [] es ++ [']', '}']).drop n ≠ [] := by
      rw [Ne, List.drop_eq_nil_iff, List.length_append]
      exact hwhole
    have hsplit : listed w [] es ++ [']', '}'] = (kept ++ rest) ++ (listed w [] es ++ [']', '}']).drop n := by
      rw [← hp, List.take_append_drop]
    have htext : w.render (batchResponse es) = (opening w ++ kept) ++ (rest ++ (listed w [] es ++ [']', '}']).drop n) :=
      calc w.render (batchResponse es) = opening w ++ (listed w [] es ++ [']', '}']) := render_batchResponse w es
        _ = opening w ++ ((kept ++ rest) ++ (listed w [] es ++ [']', '}']).drop n) := congrArg _ hsplit
        _ = (opening w ++ kept) ++ (rest ++ (listed w [] es ++ [']', '}']).drop n) := by simp only [List.append_assoc]
    have hnone : loadsTree (opening w ++ kept) = none := by
      refine loadsTree_proper w.toStyle htext fun h => hdrop (List.append_eq_nil_iff.1 h).2
    obtain ⟨found, hfound, hstop⟩ := Option.map_eq_some_iff.1 (scan_opening w kept)
    rw [hnone, hfound]
    dsimp only
    rw [hstop]
    have hblank : ∀ c ∈ ([] : Text), isSignificant c = false := fun _ h => absurd h List.not_mem_nil
    have hscan := scan_listed w hblank es n (s := Scanner.start (opening w).length) ⟨rfl, rfl, rfl⟩ rfl rfl
    rw [hp, List.foldl_append, scan_open hrest] at hscan
    have hbound := scan_bound (s := Scanner.start (opening w).length) (Nat.le_refl _) kept
    have hlisted : listed w [] ((complete w [] es n).takeWhile arrayFreeMembers) <+: listed w [] es ++ [']', '}'] :=
      (prefix_listed w [] ((List.takeWhile_prefix _).trans (prefix_complete w [] es n))).trans (List.prefix_append _ _)
    have hbegun : kept <+: listed w [] es ++ [']', '}'] := ⟨_, (List.append_assoc _ _ _).symm.trans hsplit.symm⟩
    have hkept : listed w [] ((complete w [] es n).takeWhile arrayFreeMembers) <+: kept := by
      refine List.prefix_of_prefix_length_le hlisted hbegun ?_
      have hi : (Scanner.start (opening w).length).i = (opening w).length := rfl
      omega
    rw [repair_eq w hkept hscan, loadsTree_render]

theorem complete_all (sep : Text) (es : List Element) (n : Nat) (h : (listed w sep es).length ≤ n) :
    complete w sep es n = es := by
  induction es generalizing sep n with
  | nil => rfl
  | cons e es ih =>
    rw [listed, ← List.append_assoc, List.length_append] at h
    rw [complete, if_pos (by omega), ih _ _ (by omega)]

/-! ## Every response and every cut -/

def cutText (elements : List Element) (cut : Nat) : Text := (w.render (batchResponse elements)).take cut

/-- An object is returned, and its triplets are exactly the elements that end before the cut. -/
def KeepsComplete (elements : List Element) (cut : Nat) : Prop :=
  ∃ v, salvageTruncatedJson (cutText w elements cut) = some v ∧
    v.get "triplets".toList = some (.arr ((endingBefore w elements cut).map .obj))

theorem get_batchResponse (es : List Element) :
    (batchResponse es).get "triplets".toList = some (.arr (es.map .obj)) := by
  rw [batchResponse, Json.Tree.get, List.reverse_singleton]
  rfl

/-- Behind the opening of the array and without two fences, exactly the complete elements are kept if and only if
nothing was cut off or none of them has an array inside. -/
theorem salvage_exact_iff (elements : List Element) (cut : Nat) (hcut : (opening w).length ≤ cut)
    (hfence : fenced (cutText w elements cut) = none) :
    KeepsComplete w elements cut ↔
      (cutText w elements cut = w.render (batchResponse elements) ∨
        ∀ e ∈ endingBefore w elements cut, arrayFreeMembers e = true) := by
  have htext : cutText w elements cut =
      opening w ++ (listed w [] elements ++ [']', '}']).take (cut - (opening w).length) := by
    unfold cutText
    rw [render_batchResponse, List.take_append, List.take_of_length_le hcut]
  have hwhole : cutText w elements cut = w.render (batchResponse elements) ↔
      (listed w [] elements).length + 2 ≤ cut - (opening w).length := by
    unfold cutText
    rw [List.take_eq_self_iff, render_batchResponse]
    simp only [List.length_append, List.length_cons, List.length_nil]
    omega
  have hsalvage := salvage_cut w elements (cut - (opening w).length) (htext ▸ hfence)
  rw [← htext] at hsalvage
  have hkeeps : KeepsComplete w elements cut ↔
      (if (listed w [] elements).length + 2 ≤ cut - (opening w).length then elements
        else (endingBefore w elements cut).takeWhile arrayFreeMembers) = endingBefore w elements cut := by
    have hobj : Function.Injective Tree.obj := fun a b h => by injection h
    unfold KeepsComplete
    rw [hsalvage]
    constructor
    · rintro ⟨v, hv, hget⟩
      obtain rfl := Option.some.inj hv
      rw [get_batchResponse] at hget
      exact hobj.list_map (Tree.arr.inj (Option.some.inj hget))
    · intro h
      refine ⟨_, rfl, ?_⟩
      rw [get_batchResponse]
      exact congrArg (fun es => some (Tree.arr (es.map .obj))) h
  rw [hkeeps, hwhole]
  split
  · next hall =>
    simp only [hall, true_or, iff_true]
    exact (complete_all w [] elements _ (by omega)).symm
  · next hcutoff => simp only [hcutoff, false_or, List.takeWhile_eq_self_iff]

/-- A complete triplet without arrays is kept although the next one is cut off. -/
theorem salvage_exact_iff_flat :
    KeepsComplete dumps [[("head".toList, .str ['a'])], [("head".toList, .str ['b'])]] 40 ↔
      (cutText dumps [[("head".toList, .str ['a'])], [("head".toList, .str ['b'])]] 40 =
          dumps.render (batchResponse [[("head".toList, .str ['a'])], [("head".toList, .str ['b'])]]) ∨
        ∀ e ∈ endingBefore dumps [[("head".toList, .str ['a'])], [("head".toList, .str ['b'])]] 40,
          arrayFreeMembers e = true) :=
  salvage_exact_iff dumps _ 40 (by decide) (by decide +kernel)

/-- A triplet with an empty array of further triplets, as the schema writes it. -/
def nestedTriplet : Element :=
  [("record_index".toList, .num ⟨['0'], by decide⟩), ("head".toList, .str ['a']), ("relation".toList, .str ['b']),
    ("tail".toList, .str ['c']), ("additional_triplets".toList, .arr [])]

/-- Behind a complete triplet with an array the text ends, and nothing is kept. -/
theorem salvage_drops_nested :
    endingBefore dumps [nestedTriplet] 103 = [nestedTriplet] ∧
      salvageTruncatedJson (cutText dumps [nestedTriplet] 103) = some (batchResponse []) ∧
      ¬ KeepsComplete dumps [nestedTriplet] 103 := by
  have hending : endingBefore dumps [nestedTriplet] 103 = [nestedTriplet] := rfl
  have htext : cutText dumps [nestedTriplet] 103 =
      opening dumps ++ (listed dumps [] [nestedTriplet] ++ [']', '}']).take 89 := by decide +kernel
  have hfence : fenced (opening dumps ++ (listed dumps [] [nestedTriplet] ++ [']', '}']).take 89) = none := by
    decide +kernel
  have hsalvage : salvageTruncatedJson (cutText dumps [nestedTriplet] 103) = some (batchResponse []) := by
    rw [htext, salvage_cut dumps [nestedTriplet] 89 hfence, if_neg (by decide +kernel)]
    rfl
  refine ⟨hending, hsalvage, ?_⟩
  rintro ⟨v, hv, hget⟩
  rw [hsalvage] at hv
  obtain rfl := Option.some.inj hv
  rw [hending] at hget
  cases hget

end Mesa.Consolidation
