/-
The legal identities of an ingested document: the law it is, from the request's metadata or from its own header, and for
every chunk the article of the last heading at or before its start. The chunks and the identities come from two scans of
the headings; they agree because no heading starts inside of a chunk after its first character.
-/
import Mesa.Documents.Loops

namespace Mesa.Documents

open Mesa.Foundation
open Mesa.Rebuild (isSpace)

variable (T : CharTables)

/-! ## The law -/

/-- `\w`. -/
def CharTables.wordChar (c : Char) : Bool := T.word c || c = '_'

/-- `\b`, after a character and before a text. -/
def wordBoundary (prev : Option Char) (l : List Char) : Bool := prev.any T.wordChar != l.head?.any T.wordChar

/-- `\s*([0-9]{3,5})\b`. -/
def lawDigits (l : List Char) : Option (List Char) :=
  let l := l.dropWhile isSpace
  let digits := l.takeWhile Char.isDigit
  if 3 ≤ digits.length ∧ digits.length ≤ 5 ∧ wordBoundary T digits.getLast? (l.drop digits.length) then some digits
  else none

/-- What follows `Numarası\s*:`. -/
def afterNumarasi (l : List Char) : Option (List Char) :=
  (afterWord T "Numarası".toList l).bind fun l =>
    match l.dropWhile isSpace with
    | ':' :: l => some l
    | _ => none

/-- What follows `No\.?\s*:?`. -/
def afterNo (l : List Char) : Option (List Char) :=
  (afterWord T "No".toList l).map fun l =>
    let l := if l.head? = some '.' then l.tail else l
    match l.dropWhile isSpace with
    | ':' :: l => l
    | _ => l

/-- The number in a law's header line that starts at a position. -/
def headerAt (prev : Option Char) (l : List Char) : Option (List Char) :=
  if wordBoundary T prev l then
    (afterWord T "Kanun".toList l).bind fun l => (afterSome isSpace (orSkip (afterWord T "un".toList) l)).bind fun l =>
      ((afterNumarasi T l).bind (lawDigits T)).or ((afterNo T l).bind (lawDigits T))
  else none

/-- `re.search`: the first position at which there is a match. -/
def search (found : Option Char → List Char → Option (List Char)) : Option Char → List Char → Option (List Char)
  | prev, [] => found prev []
  | prev, c :: l => (found prev (c :: l)).or (search found (some c) l)

/-- The law number: the one of the metadata unless it is missing or empty, else the one of the header. -/
def lawNumber (metadataNumber : Option (List Char)) (content : List Char) : List Char :=
  (metadataNumber.or (search (headerAt T) none (content.take 3000))).getD []

/-- `re.fullmatch(r"[0-9]{3,5}", law_number)`. -/
def isLawNumber (number : List Char) : Bool := 3 ≤ number.length && number.length ≤ 5 && number.all Char.isDigit

/-! ## The articles -/

/-- The text of a heading. -/
def headingText (content : List Char) (s : Span) : List Char := (content.take s.stop).drop s.start

/-- The article of an ordinary heading: `\s*MADDE\s+([0-9]+)\s*[-–—−:]` is all of its text. -/
def ordinaryArticle (heading : List Char) : Option (List Char) :=
  ((afterWord T "MADDE".toList (heading.dropWhile isSpace)).bind (afterSome isSpace)).bind fun l =>
    let article := l.takeWhile Char.isDigit
    match (l.drop article.length).dropWhile isSpace with
    | [c] => if article ≠ [] ∧ c ∈ ['-', '–', '—', '−', ':'] then some article else none
    | _ => none

/-- The inner loop: how many headings start at or before an offset, of which `passed` are known to. -/
def advance (headings : List Span) (offset passed : Nat) : Nat :=
  passed + ((headings.drop passed).takeWhile fun s => decide (s.start ≤ offset)).length

/-- The identity of a chunk that the last of the passed headings is about. -/
def identityOf (law content : List Char) (headings : List Span) : Nat → Option (List Char × List Char)
  | 0 => none
  | index + 1 => headings[index]?.bind fun s => (ordinaryArticle T (headingText content s)).map (law, ·)

/-- The loop over the chunks. -/
def label (law content : List Char) (headings : List Span) :
    Nat → Nat → List (List Char) → List (Option (List Char × List Char))
  | _, _, [] => []
  | passed, offset, chunk :: chunks =>
    let passed := advance headings offset passed
    identityOf T law content headings passed :: label law content headings passed (offset + chunk.length) chunks

/-- Whether a content is one for the article plan. -/
def hasArticlePlan (content : List Char) : Bool :=
  3 ≤ (articleStarts T content).length &&
    decide (scan (caseLawPreamble T) (content.take ((articleStarts T content).headD 0)) = [])

/-- `identities` of `ingest_document`. -/
def legalIdentities (legalRulesEnabled legalPlan : Bool) (metadataNumber : Option (List Char)) (content : List Char)
    (chunks : List (List Char)) : List (Option (List Char × List Char)) :=
  let law := lawNumber T metadataNumber content
  if legalRulesEnabled && legalPlan && isLawNumber law && hasArticlePlan T content then
    label T law content (scan (articleHeading T) content) 0 0 chunks
  else chunks.map fun _ => none

/-! ## Chunks and headings -/

section

variable {T} {count : List Char → Nat} {fuel : Nat} {content l : List Char} {chunks : List (List Char)}

/-- Whatever the tokens, the chunks joined are the text. -/
theorem chunkLoop_joined (h : chunkLoop T count fuel l = some chunks) : chunks.flatten = l := by
  induction fuel generalizing l chunks with
  | zero => cases h
  | succ fuel ih =>
    rw [chunkLoop] at h
    split at h
    · next hnil =>
      cases h
      exact hnil.symm
    · obtain ⟨stop, -, h⟩ := Option.bind_eq_some_iff.1 h
      obtain ⟨rest, hrest, h⟩ := Option.bind_eq_some_iff.1 h
      cases h
      rw [List.flatten_cons, ih hrest, List.take_append_drop]

/-- The positions of the legal plan ascend, and no heading starts between two of them. -/
theorem no_heading_between {pre post : List Nat} {a b p : Nat} (h : legalBoundaries T content = pre ++ a :: b :: post)
    (hp : p ∈ articleStarts T content) : p ≤ a ∨ b ≤ p := by
  obtain ⟨rest, hbounds, hsorted, -, -⟩ := legalBoundaries_spec T content
  rw [← hbounds, h] at hsorted
  have hmem : p ∈ legalBoundaries T content := by
    rw [legalBoundaries, List.mem_insertionSort, List.mem_dedup]
    exact List.mem_append_left _ (List.mem_cons_of_mem _ hp)
  rw [h] at hmem
  obtain ⟨-, htail, hcross⟩ := List.pairwise_append.1 hsorted
  obtain ⟨hafter, hlast⟩ := List.pairwise_cons.1 htail
  rcases List.mem_append.1 hmem with hmem | hmem
  · exact Or.inl (Nat.le_of_lt (hcross p hmem a List.mem_cons_self))
  · rcases List.mem_cons.1 hmem with rfl | hmem
    · exact Or.inl le_rfl
    · rcases List.mem_cons.1 hmem with rfl | hmem
      · exact Or.inr le_rfl
      · exact Or.inr (Nat.le_of_lt ((List.pairwise_cons.1 hlast).1 p hmem))

/-- A chunk of pieces that were cut up lies between two consecutive positions. -/
theorem chunk_in_piece : ∀ {positions : List Nat} {a : Nat} {cut : List (List (List Char))},
    (a :: positions).Pairwise (· < ·) → (∀ p ∈ positions, p ≤ l.length) → List.Forall₂ (fun piece cs => cs.flatten = piece) (slices l (a :: positions)) cut →
    ∀ {pre chunk post}, cut.flatten = pre ++ chunk :: post → ∃ before x y after, a :: positions = before ++ x :: y :: after ∧
      x ≤ a + pre.flatten.length ∧ a + pre.flatten.length + chunk.length ≤ y
  | [], a, cut, _, _, hcut, pre, chunk, post, heq => by
    cases hcut
    simp at heq
  | b :: positions, a, cut, hsorted, hinside, hcut, pre, chunk, post, heq => by
    rw [slices] at hcut
    obtain ⟨cs, rest, hcs, hrest, rfl⟩ := List.forall₂_cons_left_iff.1 hcut
    obtain ⟨hab, hsorted⟩ := List.pairwise_cons.1 hsorted
    have hlt := hab b List.mem_cons_self
    have hlength : cs.flatten.length = b - a := by
      rw [hcs, List.length_drop, List.length_take, Nat.min_eq_left (hinside b List.mem_cons_self)]
    rw [List.flatten_cons] at heq
    -- the chunk is one of this piece or of a later one
    have hlater : ∀ {more}, pre = cs ++ more → rest.flatten = more ++ chunk :: post → ∃ before x y after,
        a :: b :: positions = before ++ x :: y :: after ∧ x ≤ a + pre.flatten.length ∧
          a + pre.flatten.length + chunk.length ≤ y := by
      rintro more rfl hmore
      obtain ⟨before, x, y, after, hpositions, hx, hy⟩ :=
        chunk_in_piece hsorted (fun p hp => hinside p (List.mem_cons_of_mem _ hp)) hrest hmore
      refine ⟨a :: before, x, y, after, by rw [hpositions]; rfl, ?_⟩
      rw [List.flatten_append, List.length_append, hlength]
      omega
    rcases List.append_eq_append_iff.1 heq with ⟨more, hpre, hmore⟩ | ⟨mine, hcsmine, hmine⟩
    · exact hlater hpre hmore
    · cases mine with
      | nil =>
        have hpre : pre = cs ++ [] := by rw [hcsmine, List.append_nil, List.append_nil]
        exact hlater hpre hmine.symm
      | cons c mine =>
        obtain ⟨rfl, -⟩ := List.cons.inj hmine
        refine ⟨[], a, b, positions, rfl, Nat.le_add_right _ _, ?_⟩
        rw [hcsmine, List.flatten_append, List.flatten_cons, List.length_append, List.length_append] at hlength
        omega

theorem mapM_flatten {f : List Char → Option (List (List Char))} (hf : ∀ piece cs, f piece = some cs → cs.flatten = piece) :
    ∀ {pieces : List (List Char)} {cut}, pieces.mapM f = some cut →
      List.Forall₂ (fun piece cs => cs.flatten = piece) pieces cut
  | [], cut, h => by
    cases h
    exact List.Forall₂.nil
  | piece :: pieces, cut, h => by
    rw [List.mapM_cons] at h
    obtain ⟨cs, hcs, h⟩ := Option.bind_eq_some_iff.1 h
    obtain ⟨rest, hrest, h⟩ := Option.bind_eq_some_iff.1 h
    cases h
    exact List.Forall₂.cons (hf piece cs hcs) (mapM_flatten hf hrest)

theorem flatten_joined {pieces : List (List Char)} {cut : List (List (List Char))}
    (h : List.Forall₂ (fun piece cs => cs.flatten = piece) pieces cut) : cut.flatten.flatten = pieces.flatten := by
  induction h with
  | nil => rfl
  | cons hcs _ ih => rw [List.flatten_cons, List.flatten_append, hcs, ih, List.flatten_cons]

/-- The chunks of the article plan are the content, and no heading starts inside of one. -/
theorem chunkLegalLoop_spans (hplan : hasArticlePlan T content = true) (h : chunkLegalLoop T count fuel content = some chunks) :
    chunks.flatten = content ∧ ∀ pre chunk post, chunks = pre ++ chunk :: post → ∀ p ∈ articleStarts T content,
      p ≤ pre.flatten.length ∨ pre.flatten.length + chunk.length ≤ p := by
  rw [hasArticlePlan, Bool.and_eq_true, decide_eq_true_iff, decide_eq_true_iff] at hplan
  unfold chunkLegalLoop at h
  simp only at h
  rw [if_neg (by rw [not_or, ne_eq, not_not]; exact ⟨Nat.not_lt.2 hplan.1, hplan.2⟩)] at h
  obtain ⟨cut, hcut, h⟩ := Option.bind_eq_some_iff.1 h
  cases h
  have hjoined := mapM_flatten (fun piece cs hcs => by
    split at hcs
    · cases hcs
      exact List.flatten_singleton
    · exact chunkLoop_joined hcs) hcut
  obtain ⟨rest, hbounds, hsorted, hlast, hinside⟩ := legalBoundaries_spec T content
  constructor
  · have hflatten : (slices content (legalBoundaries T content)).flatten = content := by
      rw [hbounds, flatten_slices content 0 rest hsorted, hlast, List.take_length, List.drop_zero]
    rw [flatten_joined hjoined, hflatten]
  · intro pre chunk post heq p hp
    rw [hbounds] at hjoined
    obtain ⟨before, x, y, after, hpositions, hx, hy⟩ :=
      chunk_in_piece hsorted (fun q hq => hinside q (List.mem_cons_of_mem _ hq)) hjoined heq
    rw [Nat.zero_add] at hx hy
    exact (no_heading_between (hbounds.trans hpositions) hp).imp (fun h => h.trans hx) fun h => hy.trans h

/-! ## The labelling loop -/

/-- How many headings start at or before an offset. -/
def passedAt (headings : List Span) (offset : Nat) : Nat :=
  (headings.takeWhile fun s => decide (s.start ≤ offset)).length

theorem takeWhile_from {α : Type} {p : α → Bool} : ∀ {n : Nat} {l : List α}, n ≤ (l.takeWhile p).length →
    n + ((l.drop n).takeWhile p).length = (l.takeWhile p).length
  | 0, l, _ => by rw [List.drop_zero, Nat.zero_add]
  | n + 1, [], h => absurd h (Nat.not_succ_le_zero n)
  | n + 1, a :: l, h => by
    rw [List.takeWhile_cons] at h ⊢
    split at h
    · next ha =>
      rw [if_pos ha, List.drop_succ_cons, List.length_cons, ← takeWhile_from (Nat.le_of_succ_le_succ h)]
      omega
    · exact absurd h (Nat.not_succ_le_zero n)

theorem passedAt_mono (headings : List Span) {offset later : Nat} (h : offset ≤ later) :
    passedAt headings offset ≤ passedAt headings later := by
  unfold passedAt
  induction headings with
  | nil => exact le_rfl
  | cons s headings ih =>
    rw [List.takeWhile_cons, List.takeWhile_cons]
    split
    · next hs =>
      rw [if_pos (decide_eq_true ((of_decide_eq_true hs).trans h))]
      exact Nat.succ_le_succ ih
    · exact Nat.zero_le _

/-- A chunk gets its identity from the headings at or before its start. -/
theorem label_getElem (law : List Char) (headings : List Span) : ∀ {chunks : List (List Char)} {passed offset : Nat},
    passed ≤ passedAt headings offset → ∀ {pre chunk post}, chunks = pre ++ chunk :: post →
      (label T law content headings passed offset chunks)[pre.length]? =
        some (identityOf T law content headings (passedAt headings (offset + pre.flatten.length)))
  | [], _, _, _, pre, chunk, post, heq => by simp at heq
  | c :: chunks, passed, offset, hpassed, pre, chunk, post, heq => by
    have hadvance : advance headings offset passed = passedAt headings offset := takeWhile_from hpassed
    rw [label]
    simp only [hadvance]
    cases pre with
    | nil => rfl
    | cons first pre =>
      rw [List.cons_append] at heq
      obtain ⟨rfl, hrest⟩ := List.cons.inj heq
      have hnext := label_getElem law headings (passedAt_mono headings (Nat.le_add_right offset c.length)) hrest
      rw [List.length_cons, List.getElem?_cons_succ, hnext, List.flatten_cons, List.length_append, Nat.add_assoc]

/-- The last heading that starts at or before an offset, with the next one after it. -/
theorem passedAt_cases (headings : List Span) (offset : Nat) :
    (passedAt headings offset = 0 ∧ ∀ s, headings[0]? = some s → offset < s.start) ∨
      ∃ index s, passedAt headings offset = index + 1 ∧ headings[index]? = some s ∧ s.start ≤ offset ∧
        ∀ s', headings[index + 1]? = some s' → offset < s'.start := by
  induction headings with
  | nil => exact Or.inl ⟨rfl, fun s hs => by cases hs⟩
  | cons s headings ih =>
    unfold passedAt at ih ⊢
    rw [List.takeWhile_cons]
    by_cases hs : s.start ≤ offset
    · rw [if_pos (decide_eq_true hs), List.length_cons]
      refine Or.inr ?_
      rcases ih with ⟨hzero, hfirst⟩ | ⟨index, s', hpassed, hs', hle, hnext⟩
      · exact ⟨0, s, by rw [hzero], rfl, hs, fun s' hs' => hfirst s' hs'⟩
      · exact ⟨index + 1, s', by rw [hpassed], hs', hle, hnext⟩
    · rw [if_neg (by rw [decide_eq_true_iff]; exact hs)]
      exact Or.inl ⟨rfl, fun s' hs' => by
        obtain rfl := Option.some.inj hs'
        exact Nat.lt_of_not_le hs⟩

end

/-! ## Chunks carry the identity of their text -/

/-- A chunk at an offset is before the first heading and has no identity, or it lies from a heading to the next one and has
the identity that this heading's text gives. -/
def Identified (T : CharTables) (law content : List Char) (offset : Nat) (chunk : List Char)
    (identity : Option (List Char × List Char)) : Prop :=
  let headings := scan (articleHeading T) content
  ((∀ s ∈ headings, offset + chunk.length ≤ s.start) ∧ identity = none) ∨
    ∃ index s, headings[index]? = some s ∧ s.start ≤ offset ∧
      (∀ s', headings[index + 1]? = some s' → offset + chunk.length ≤ s'.start) ∧
      identity = (ordinaryArticle T (headingText content s)).map (law, ·)

/-- Where the article plan is used, every chunk is a part of the content between two headings and carries the identity
of the first of them, if that is an ordinary one. -/
theorem legalIdentities_of_chunks {T : CharTables} {count : List Char → Nat} {fuel : Nat} {content : List Char}
    {chunks : List (List Char)} {metadataNumber : Option (List Char)} (hplan : hasArticlePlan T content = true)
    (hlaw : isLawNumber (lawNumber T metadataNumber content) = true)
    (hchunks : chunkLegalLoop T count fuel content = some chunks) {pre : List (List Char)} {chunk : List Char}
    {post : List (List Char)} (heq : chunks = pre ++ chunk :: post) :
    (content.drop pre.flatten.length).take chunk.length = chunk ∧
      ∃ identity, (legalIdentities T true true metadataNumber content chunks)[pre.length]? = some identity ∧
        Identified T (lawNumber T metadataNumber content) content pre.flatten.length chunk identity := by
  obtain ⟨hjoined, hspans⟩ := chunkLegalLoop_spans hplan hchunks
  refine ⟨?_, identityOf T (lawNumber T metadataNumber content) content (scan (articleHeading T) content)
    (passedAt (scan (articleHeading T) content) pre.flatten.length), ?_, ?_⟩
  · rw [← hjoined, heq, List.flatten_append, List.flatten_cons, List.drop_left, List.take_left]
  · unfold legalIdentities
    simp only [hplan, hlaw, Bool.and_self, if_true]
    rw [label_getElem _ _ (Nat.zero_le _) heq, Nat.zero_add]
  · have hnone : ∀ s ∈ scan (articleHeading T) content, pre.flatten.length < s.start →
        pre.flatten.length + chunk.length ≤ s.start := fun s hs hlt =>
      (hspans pre chunk post heq s.start (List.mem_map_of_mem hs)).resolve_left (Nat.not_le_of_lt hlt)
    rcases passedAt_cases (scan (articleHeading T) content) pre.flatten.length with
      ⟨hzero, hfirst⟩ | ⟨index, s, hpassed, hs, hle, hnext⟩
    · rw [hzero]
      refine Or.inl ⟨fun s hs => hnone s hs ?_, rfl⟩
      -- the headings come one after the other
      have hsorted := scan_starts (articleHeading T) content
      cases hheadings : scan (articleHeading T) content with
      | nil =>
        rw [hheadings] at hs
        cases hs
      | cons first rest =>
        rw [hheadings] at hs hsorted hfirst
        have hlt := hfirst first rfl
        rcases List.mem_cons.1 hs with rfl | hs
        · exact hlt
        · exact hlt.trans ((List.pairwise_cons.1 hsorted).1 _ (List.mem_map_of_mem hs))
    · rw [hpassed]
      refine Or.inr ⟨index, s, hs, hle, fun s' hs' => hnone s' (List.mem_of_getElem? hs') (hnext s' hs'), ?_⟩
      rw [identityOf, hs, Option.bind_some]

/-- Tables that know no letters beyond the Latin alphabet. -/
def latinTables : CharTables where
  word := Char.isAlphanum
  isdigit := Char.isDigit
  isalpha := Char.isAlpha
  decimal := Char.isDigit
  same a b := a.toLower = b.toLower
  lower := List.map Char.toLower

theorem legalIdentities_of_chunks_second :
    (("MADDE 1- a\nMADDE 2- b\nMADDE 3/A- c".toList.drop ["MADDE 1- a\n".toList].flatten.length).take
      "MADDE 2- b\n".toList.length) = "MADDE 2- b\n".toList ∧
      ∃ identity, (legalIdentities latinTables true true (some "6098".toList) "MADDE 1- a\nMADDE 2- b\nMADDE 3/A- c".toList
        ["MADDE 1- a\n".toList, "MADDE 2- b\n".toList, "MADDE 3/A- c".toList])[1]? = some identity ∧
        Identified latinTables "6098".toList "MADDE 1- a\nMADDE 2- b\nMADDE 3/A- c".toList 11 "MADDE 2- b\n".toList identity :=
  legalIdentities_of_chunks (by decide +kernel)
    (show isLawNumber (lawNumber latinTables (some "6098".toList) _) = true by decide +kernel)
    (show chunkLegalLoop latinTables List.length 1 _ = some _ by decide +kernel)
    (show _ = ["MADDE 1- a\n".toList] ++ _ :: ["MADDE 3/A- c".toList] from rfl)

end Mesa.Documents
