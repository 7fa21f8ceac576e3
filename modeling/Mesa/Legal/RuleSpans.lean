/-
The spans of the rule items: trimming stays between the ends of a match, an article clause on its own keeps clear of
what is covered, a date inside a reference or an amendment parenthesis is not reported, and the report is ordered and
has no two items of one key. That no extractor finds an empty item needs what the patterns promise of where their
matches begin.
-/
import Mesa.Foundation.Pieces
import Mesa.Legal.RuleItems

namespace Mesa.Legal

open Mesa.Foundation
open Mesa.Rebuild (isSpace strip Text)

/-! ## Positions -/

/-- The item has a span of the text and the text that stands there. -/
def Item.Sound (text : Text) (item : Item) : Prop :=
  item.start < item.stop ∧ item.stop ≤ text.length ∧ item.text = slice text item.pair

/-- A position is one of the item's. -/
def Item.Has (item : Item) (i : Nat) : Prop := item.start ≤ i ∧ i < item.stop

/-- What the patterns promise: a law header and an article clause do not begin with a blank, a comma or a full stop, and
a number token begins with neither a blank nor a quotation mark. -/
structure Outcome.Fits {text : Text} (F : Outcome text.length) : Prop where
  header : ∀ m ∈ F.lawHeaders.found, ∀ c, text[m.span.start]? = some c → isTail c = false
  clause : ∀ m ∈ F.articleClauses.found, ∀ c, text[m.span.start]? = some c → isTail c = false
  token : ∀ m ∈ F.numberTokens.found, ∀ c, text[m.span.start]? = some c → isSpace c = false ∧ isQuote c = false

section

variable {text : Text} {a b k : Nat} {c : Char} {p : Char → Bool} {t w : Text}

theorem length_slice (text : Text) (a b : Nat) : (slice text (a, b)).length = min b text.length - a := by
  rw [slice, List.length_drop, List.length_take]

theorem slice_ne_nil (h : slice text (a, b) ≠ []) : a < b ∧ a < text.length := by
  have hlength := List.length_pos_iff.2 h
  rw [length_slice] at hlength
  omega

theorem slice_head (hab : a < b) (hc : text[a]? = some c) : ∃ rest, slice text (a, b) = c :: rest := by
  have hget : (slice text (a, b))[0]? = some c := by
    rw [slice, List.getElem?_drop, Nat.add_zero, List.getElem?_take, if_pos hab, hc]
  cases hslice : slice text (a, b) with
  | nil =>
    rw [hslice] at hget
    cases hget
  | cons d rest =>
    rw [hslice] at hget
    cases hget
    exact ⟨rest, rfl⟩

theorem slice_begins (h : b ≤ k) : slice text (a, b) <+: slice text (a, k) := by
  have htake : text.take b <+: text.take k := List.take_prefix_take_left h
  exact htake.drop a

theorem leading_le (p : Char → Bool) (t : Text) : leading p t ≤ t.length := (List.takeWhile_prefix p).length_le

theorem trailing_le (p : Char → Bool) (t : Text) : trailing p t ≤ t.length := by
  have h := leading_le p t.reverse
  rwa [List.length_reverse] at h

theorem leading_eq_zero (h : p c = false) : leading p (c :: t) = 0 := by
  rw [leading, List.takeWhile_cons_of_neg (by rw [h]; exact Bool.false_ne_true), List.length_nil]

/-- A character outside the class at the front is left by `rstrip`. -/
theorem trailing_lt (h : p c = false) : trailing p (c :: t) < (c :: t).length := by
  refine Nat.lt_of_le_of_ne (trailing_le p _) fun heq => ?_
  have hall : (c :: t).reverse.takeWhile p = (c :: t).reverse := by
    refine (List.takeWhile_prefix p).eq_of_length ?_
    rw [List.length_reverse]
    exact heq
  have hc := List.takeWhile_eq_self_iff.1 hall c (List.mem_reverse.2 List.mem_cons_self)
  rw [h] at hc
  cases hc

theorem findIn_front (h : w <+: t) : findIn t w = some 0 := by
  unfold findIn
  rw [List.range_succ_eq_map, List.find?_cons, List.drop_zero, List.isPrefixOf_iff_prefix.2 h]

theorem findIn_some {i : Nat} (h : findIn t w = some i) : i + w.length ≤ t.length := by
  have hfound : w.isPrefixOf (t.drop i) = true := by
    exact List.find?_some (p := fun i => w.isPrefixOf (t.drop i)) h
  have hpre := List.isPrefixOf_iff_prefix.1 hfound
  have hmem := List.mem_range.1 (List.mem_of_find?_eq_some h)
  have hle := hpre.length_le
  rw [List.length_drop] at hle
  omega

theorem itemAt_sound {n : Nat} (hn : n = text.length) (e : Extent n) (fields : Fields) :
    (itemAt text e.pair fields).Sound text :=
  ⟨e.proper, hn ▸ e.inside, rfl⟩

end

section

variable {text : Text} {R : Readings} {F : Outcome text.length} {item : Item}

/-! ## Rounds -/

theorem mem_rounds {n : Nat} : ∀ {passes : List (List Item)} {items : List Item}, item ∈ rounds n passes items →
    item ∈ items ∨ ∃ found ∈ passes, item ∈ found
  | [], _, h => Or.inl h
  | found :: passes, items, h => by
    unfold rounds at h
    rcases mem_rounds h with h | ⟨found', hfound, h⟩
    · rcases List.mem_append.1 h with h | h
      · exact Or.inl h
      · exact Or.inr ⟨found, List.mem_cons_self, (List.mem_filter.1 h).1⟩
    · exact Or.inr ⟨found', List.mem_cons_of_mem _ hfound, h⟩

/-! ## Dates -/

theorem extractDates_spans (h : item ∈ extractDates R F) :
    item.type = .date ∧ ∃ e : Extent text.length, ∃ fields, item = itemAt text e.pair fields := by
  unfold extractDates fullDates at h
  simp only [List.mem_append, List.mem_filterMap] at h
  rcases h with (⟨m, -, h⟩ | ⟨m, -, h⟩) | ⟨m, -, h⟩
  · split at h
    · cases h
      exact ⟨rfl, m.span, _, rfl⟩
    · cases h
  · obtain ⟨code, -, h⟩ := Option.bind_eq_some_iff.1 h
    split at h
    · cases h
      exact ⟨rfl, m.span, _, rfl⟩
    · cases h
  · split at h
    · cases h
    · obtain ⟨code, -, h⟩ := Option.bind_eq_some_iff.1 h
      split at h
      · cases h
        exact ⟨rfl, m.span, _, rfl⟩
      · cases h

theorem sound_of_extent (h : ∃ e : Extent text.length, ∃ fields, item = itemAt text e.pair fields) : item.Sound text := by
  obtain ⟨e, fields, rfl⟩ := h
  exact itemAt_sound rfl e fields

/-! ## Decision references -/

theorem le_skipBlanks (s : Nat × Nat) : s.1 ≤ skipBlanks text s := Nat.le_add_right _ _

theorem le_stripPrefix (stop start : Nat) (w : Text) : start ≤ stripPrefix R text stop start w := by
  unfold stripPrefix
  split
  · exact (Nat.le_add_right _ _).trans (le_skipBlanks (start + w.length, stop))
  · exact Nat.le_refl _

theorem le_foldl_stripPrefix (stop : Nat) : ∀ (ws : List Text) (start : Nat),
    start ≤ ws.foldl (stripPrefix R text stop) start
  | [], start => Nat.le_refl start
  | w :: ws, start => (le_stripPrefix stop start w).trans (le_foldl_stripPrefix stop ws _)

/-- Trimming a decision reference stays in the match. -/
theorem decisionRefOf_within {m : Match text.length DecisionGroups} (h : decisionRefOf R m = some item) :
    item.type = .decisionRef ∧ item.Sound text ∧ m.span.start ≤ item.start ∧ item.stop ≤ m.span.stop := by
  unfold decisionRefOf at h
  dsimp only at h
  split at h
  · cases h
  · next hne =>
    cases h
    obtain ⟨hlt, -⟩ := slice_ne_nil hne
    have hstop : (decisionSpan R text m.span.pair).2 ≤ m.span.stop := Nat.sub_le _ _
    have hstart : m.span.start ≤ (decisionSpan R text m.span.pair).1 :=
      (le_skipBlanks m.span.pair).trans (le_foldl_stripPrefix m.span.stop badPrefixes _)
    exact ⟨rfl, ⟨hlt, hstop.trans m.span.inside, rfl⟩, hstart, hstop⟩

theorem mem_extractDecisionRefs (h : item ∈ extractDecisionRefs R F) :
    ∃ m : Match text.length DecisionGroups, decisionRefOf R m = some item := by
  unfold extractDecisionRefs at h
  split at h
  · cases h
  · split at h
    · cases h
    · rcases mem_rounds h with h | ⟨found, hfound, h⟩
      · cases h
      · obtain ⟨pat, -, rfl⟩ := List.mem_map.1 hfound
        obtain ⟨m, -, hm⟩ := List.mem_filterMap.1 h
        exact ⟨m, hm⟩

/-! ## Number spans -/

theorem mem_nextChain {word : Bool} {gap : Text} {start a : Nat} {chain : List Nat} (h : a ∈ nextChain word gap start chain) :
    a ∈ chain ∨ a = start := by
  have hkept : ∀ {q : Prop} [Decidable q], a ∈ (if q then [] else chain) → a ∈ chain := by
    intro q _ ha
    split at ha
    · cases ha
    · exact ha
  unfold nextChain at h
  dsimp only at h
  split at h
  · rcases List.mem_append.1 (List.mem_of_mem_drop h) with h | h
    · exact Or.inl (hkept h)
    · exact Or.inr (List.mem_singleton.1 h)
  · exact Or.inl (hkept h)

/-- A number span runs from the start of a number token to the end of the same token or of a later one. -/
theorem mem_numberSpansFrom {P : Nat → Prop} {wordsOnly : Bool} {s : Nat × Nat} :
    ∀ {tokens : List (Match text.length Unit)} {chain : List Nat} {previousEnd : Option Nat},
      (tokens.Pairwise fun a b => a.span.stop ≤ b.span.start) → (∀ t ∈ tokens, P t.span.start) →
      (∀ a ∈ chain, P a ∧ ∀ t ∈ tokens, a ≤ t.span.start) →
      s ∈ numberSpansFrom R text wordsOnly tokens chain previousEnd →
        P s.1 ∧ ∃ t ∈ tokens, s.1 ≤ t.span.start ∧ s.2 = t.span.stop
  | [], _, _, _, _, _, h => by cases h
  | t :: tokens, chain, previousEnd, hordered, hP, hchain, h => by
    obtain ⟨hfirst, hordered⟩ := List.pairwise_cons.1 hordered
    have hproper := t.span.proper
    unfold numberSpansFrom at h
    dsimp only at h
    generalize hnext : nextChain _ _ _ chain = next at h
    have hnext' : ∀ a ∈ next, P a ∧ ∀ t' ∈ t :: tokens, a ≤ t'.span.start := by
      intro a ha
      rw [← hnext] at ha
      rcases mem_nextChain ha with ha | rfl
      · exact hchain a ha
      · refine ⟨hP t List.mem_cons_self, List.forall_mem_cons.2 ⟨Nat.le_refl _, fun t' ht' => ?_⟩⟩
        have := hfirst t' ht'
        omega
    have hrest : s ∈ numberSpansFrom R text wordsOnly tokens next (some t.span.stop) →
        P s.1 ∧ ∃ t' ∈ t :: tokens, s.1 ≤ t'.span.start ∧ s.2 = t'.span.stop := by
      intro h
      obtain ⟨hs, t', ht', hle, heq⟩ := mem_numberSpansFrom hordered (fun t' ht' => hP t' (List.mem_cons_of_mem _ ht'))
        (fun a ha => ⟨(hnext' a ha).1, fun t' ht' => (hnext' a ha).2 t' (List.mem_cons_of_mem _ ht')⟩) h
      exact ⟨hs, t', List.mem_cons_of_mem _ ht', hle, heq⟩
    have hhead : P (next.headD t.span.start) ∧ next.headD t.span.start ≤ t.span.start := by
      cases next with
      | nil => exact ⟨hP t List.mem_cons_self, Nat.le_refl _⟩
      | cons a next => exact ⟨(hnext' a List.mem_cons_self).1, (hnext' a List.mem_cons_self).2 t List.mem_cons_self⟩
    split at h
    · rcases List.mem_cons.1 h with rfl | h
      · refine ⟨?_, t, List.mem_cons_self, ?_, rfl⟩
        · dsimp only
          split
          · exact hhead.1
          · exact hP t List.mem_cons_self
        · dsimp only
          split
          · exact hhead.2
          · exact Nat.le_refl _
      · exact hrest h
    · exact hrest h

theorem mem_numberSpans {wordsOnly : Bool} {s : Nat × Nat} (h : s ∈ numberSpans R F wordsOnly) :
    (∃ t ∈ F.numberTokens.found, t.span.start = s.1) ∧ s.1 < s.2 ∧ s.2 ≤ text.length := by
  obtain ⟨hstart, t, ht, hle, heq⟩ := mem_numberSpansFrom (P := fun a => ∃ t ∈ F.numberTokens.found, t.span.start = a)
    F.numberTokens.ordered (fun t ht => ⟨t, ht, rfl⟩) (fun a ha => by cases ha) h
  have hproper := t.span.proper
  have hinside := t.span.inside
  exact ⟨hstart, by omega, by omega⟩

/-! ## Durations and amounts -/

theorem durationOf_sound {s : Nat × Nat} (hs : s.1 ≤ s.2) (h : durationOf R F s = some item) :
    item.type = .duration ∧ item.Sound text := by
  unfold durationOf at h
  split at h
  · cases h
  · next m hm =>
    split at h
    · cases h
    · split at h
      · cases h
      · next val best hbest =>
        dsimp only at h
        split at h
        · cases h
        · split at h
          · cases h
          · cases h
            have hafter := m.after
            have hwithin := m.within
            have hproper := m.unitLemma.proper
            have hinside := m.unitLemma.inside
            have hoffset : (findIn (slice text (s.1, m.unitFull)) ([' '].intercalate best)).getD 0 ≤ m.unitFull - s.1 := by
              cases hfind : findIn (slice text (s.1, m.unitFull)) ([' '].intercalate best) with
              | none => exact Nat.zero_le _
              | some i =>
                have hle := findIn_some hfind
                rw [length_slice] at hle
                show i ≤ _
                omega
            refine ⟨rfl, ?_, m.unitLemma.inside, rfl⟩
            show s.1 + _ < m.unitLemma.stop
            omega

theorem bestNumber_some {fits : Nat → Bool} {ws best : List Text} {val : Nat} (h : bestNumber R fits ws = some (val, best)) :
    ∃ w rest best', ws = w :: rest ∧ best = w :: best' := by
  unfold bestNumber at h
  obtain ⟨i, hi, h⟩ := List.exists_of_findSome?_eq_some h
  obtain ⟨v, -, h⟩ := Option.map_eq_some_iff.1 h
  cases h
  cases ws with
  | nil =>
    rw [List.length_nil, List.range_zero, List.reverse_nil] at hi
    cases hi
  | cons w rest => exact ⟨w, rest, rest.take i, rfl, rfl⟩

/-- The first word of a text that begins with no blank begins the text. -/
theorem firstWord_front {c : Char} {t w : Text} {rest : List Text} (hc : isSpace c = false)
    (h : words isSpace (strip (c :: t)) = w :: rest) : w <+: c :: t ∧ ∃ w', w = c :: w' := by
  have hstrip : strip (c :: t) <+: c :: t := by
    unfold strip trimBy
    rw [List.dropWhile_cons_of_neg (by rw [hc]; exact Bool.false_ne_true)]
    exact List.rdropWhile_prefix _ _
  have hne : strip (c :: t) ≠ [] := fun hnil => by
    rw [trimBy_eq_nil.1 hnil c List.mem_cons_self] at hc
    cases hc
  obtain ⟨t', ht'⟩ : ∃ t', strip (c :: t) = c :: t' := by
    obtain ⟨d, t', heq⟩ := List.exists_cons_of_ne_nil hne
    rw [heq, List.cons_prefix_cons] at hstrip
    exact ⟨t', by rw [heq, hstrip.1]⟩
  rw [ht'] at h hstrip
  obtain ⟨w', rest', -, hsplit⟩ := splitOnP_element (p := isSpace) hc t'
  unfold words at h
  rw [hsplit, List.filter_cons_of_pos (by simp)] at h
  cases h
  exact ⟨List.IsPrefix.trans ( splitOnP_prefix hsplit) hstrip, w', rfl⟩

theorem wordAmountOf_sound {digitSpans : List Nat} {s : Nat × Nat} {c : Char} (hlt : s.1 < s.2) (hc : text[s.1]? = some c)
    (hspace : isSpace c = false) (hquote : isQuote c = false) (h : wordAmountOf R F digitSpans s = some item) :
    item.Sound text := by
  unfold wordAmountOf at h
  split at h
  · cases h
  · next m hm =>
    split at h
    · cases h
    · next val best hbest =>
      split at h
      · next curr candIdx hcurr hfind =>
        dsimp only at h
        split at h
        · cases h
        · cases h
          have hafter := m.after
          have hinside := m.inside
          have hproper := curr.proper
          have hcurrInside : curr.stop ≤ min m.stop text.length - s.1 := length_slice text s.1 m.stop ▸ curr.inside
          obtain ⟨t, hslice⟩ := slice_head hlt hc
          obtain ⟨w, rest, best', hws, rfl⟩ := bestNumber_some hbest
          rw [show slice text s = c :: t from hslice] at hws
          obtain ⟨hw, w', rfl⟩ := firstWord_front hspace hws
          have hfront : (c :: w') <+: slice text (s.1, m.stop) := by
            rw [← hslice] at hw
            exact hw.trans (slice_begins (Nat.le_of_lt hafter))
          have hzero : candIdx = 0 := by
            rw [List.headD_cons, findIn_front hfront] at hfind
            exact (Option.some.inj hfind).symm
          subst hzero
          obtain ⟨t', ht'⟩ := slice_head (b := s.1 + curr.stop) (by omega) hc
          have hleading : leading isQuote (slice text (s.1 + 0, s.1 + curr.stop)) = 0 := by
            rw [Nat.add_zero, ht']
            exact leading_eq_zero hquote
          refine ⟨?_, ?_, rfl⟩
          · show s.1 + 0 + leading isQuote _ < s.1 + curr.stop
            rw [hleading]
            omega
          · show s.1 + curr.stop ≤ text.length
            omega
      · cases h

/-! ## Citations -/

theorem mem_slashCitations (h : item ∈ slashCitations R F) :
    item.type = .citation ∧ ∃ e : Extent text.length, ∃ fields, item = itemAt text e.pair fields := by
  obtain ⟨m, -, rfl⟩ := List.mem_map.1 h
  exact ⟨rfl, m.span, _, rfl⟩

theorem articleAfter_le {headerEnd fullEnd : Nat} {artText : Text} (hend : headerEnd ≤ text.length)
    (h : articleAfter R text headerEnd = some (fullEnd, artText)) : headerEnd ≤ fullEnd ∧ fullEnd ≤ text.length := by
  have hlength := length_slice text headerEnd (headerEnd + 8192)
  unfold articleAfter at h
  dsimp only at h
  split at h
  · next k hk =>
    cases h
    have hdrop := (List.dropWhile_suffix (l := slice text (headerEnd, headerEnd + 8192))
      fun c : Char => decide (c ∈ [' ', ',', '\t', '\r', '\n'])).length_le
    have hk := k.isLt
    omega
  · split at h
    · next k hk =>
      split at h
      · cases h
      · cases h
        have hk := k.isLt
        omega
    · cases h

/-- A law header with its article, trimmed behind: it is empty only if all of it is trimmed away. -/
theorem headerCitationOf_within {slashEnds : List Nat} {m : Match text.length HeaderGroups}
    (h : headerCitationOf R slashEnds m = some item) :
    item.type = .citation ∧ item.stop ≤ text.length ∧ item.text = slice text item.pair ∧
      ((∀ c, text[m.span.start]? = some c → isTail c = false) → item.start < item.stop) := by
  unfold headerCitationOf at h
  dsimp only at h
  split at h
  · cases h
  · split at h
    · cases h
    · next fullEnd artText hafter =>
      split at h
      · cases h
      · cases h
        obtain ⟨hle, hend⟩ := articleAfter_le m.span.inside hafter
        have hproper := m.span.proper
        have hinside := m.span.inside
        refine ⟨rfl, (Nat.sub_le _ _).trans hend, rfl, fun hfront => ?_⟩
        obtain ⟨t, ht⟩ := slice_head (b := fullEnd) (by omega) (List.getElem?_eq_getElem (by omega : m.span.start < text.length))
        have hlt := trailing_lt (t := t) (hfront _ (List.getElem?_eq_getElem (by omega)))
        rw [← ht, length_slice] at hlt
        show m.span.start < fullEnd - _
        omega

theorem mem_headerCitations (h : item ∈ headerCitations R F) :
    ∃ slashEnds, ∃ m ∈ F.lawHeaders.found, headerCitationOf R slashEnds m = some item := by
  obtain ⟨m, hm, h⟩ := List.mem_filterMap.1 h
  exact ⟨_, m, hm, h⟩

theorem length_cover (covered : List Bool) (s : Nat × Nat) : (cover covered s).length = covered.length :=
  List.length_mapIdx

theorem getElem?_cover {covered : List Bool} {s : Nat × Nat} {i : Nat} (h : (cover covered s)[i]? = some false) :
    covered[i]? = some false ∧ ¬ (s.1 ≤ i ∧ i < s.2) := by
  unfold cover at h
  rw [List.getElem?_mapIdx] at h
  obtain ⟨c, hc, h⟩ := Option.map_eq_some_iff.1 h
  obtain ⟨rfl, h⟩ := Bool.or_eq_false_iff.1 h
  refine ⟨hc, fun hi => ?_⟩
  rw [decide_eq_true hi.1, decide_eq_true hi.2] at h
  cases h

theorem getElem?_foldl_cover {i : Nat} : ∀ {spans : List (Nat × Nat)} {covered : List Bool},
    (spans.foldl cover covered)[i]? = some false → ∀ s ∈ spans, ¬ (s.1 ≤ i ∧ i < s.2)
  | [], _, _ => fun _ h => by cases h
  | s :: spans, covered, h => by
    refine List.forall_mem_cons.2 ⟨?_, @getElem?_foldl_cover i spans (cover covered s) h⟩
    have hkept : ∀ {spans : List (Nat × Nat)} {covered : List Bool},
        (spans.foldl cover covered)[i]? = some false → covered[i]? = some false := by
      intro spans
      induction spans with
      | nil => exact fun h => h
      | cons s spans ih => exact fun h => (getElem?_cover (ih h)).1
    exact (getElem?_cover (hkept h)).2

/-- Where nothing in a stretch is covered, every position in it that is of the text is free. -/
theorem free_of_any {covered : List Bool} {a b i : Nat} (h : ¬ ((covered.take b).drop a).any id = true) (ha : a ≤ i)
    (hb : i < b) (hi : i < covered.length) : covered[i]? = some false := by
  have hget : ((covered.take b).drop a)[i - a]? = some covered[i] := by
    rw [List.getElem?_drop, Nat.add_sub_cancel' ha, List.getElem?_take, if_pos hb, List.getElem?_eq_getElem hi]
  rw [List.getElem?_eq_getElem hi]
  cases hvalue : covered[i] with
  | false => rfl
  | true =>
    rw [hvalue] at hget
    exact absurd (List.any_eq_true.2 ⟨true, List.mem_of_getElem? hget, rfl⟩) h

/-- Every clause on its own comes from a match, trimmed behind, and has only positions that were free before it. -/
theorem mem_standaloneFrom : ∀ {found : List (Match text.length Unit)} {covered : List Bool},
    covered.length = text.length → item ∈ standaloneFrom R text covered found →
      item.type = .citation ∧ item.text = slice text item.pair ∧ (∀ i, item.Has i → covered[i]? = some false) ∧
        ∃ m ∈ found, item.start = m.span.start ∧ item.stop = m.span.stop - trailing isTail (slice text m.span.pair)
  | [], _, _, h => by cases h
  | m :: found, covered, hlength, h => by
    have hinside := m.span.inside
    unfold standaloneFrom at h
    dsimp only at h
    have hskip : item ∈ standaloneFrom R text covered found →
        item.type = .citation ∧ item.text = slice text item.pair ∧ (∀ i, item.Has i → covered[i]? = some false) ∧
          ∃ m' ∈ m :: found, item.start = m'.span.start ∧
            item.stop = m'.span.stop - trailing isTail (slice text m'.span.pair) := by
      intro h
      obtain ⟨htype, htext, hfree, m', hm', hspan⟩ := mem_standaloneFrom hlength h
      exact ⟨htype, htext, hfree, m', List.mem_cons_of_mem _ hm', hspan⟩
    split at h
    · exact hskip h
    · next hany =>
      split at h
      · exact hskip h
      · rcases List.mem_cons.1 h with rfl | h
        · refine ⟨rfl, rfl, fun i hi => ?_, m, List.mem_cons_self, rfl, rfl⟩
          have hstop : i < m.span.stop := Nat.lt_of_lt_of_le hi.2 (Nat.sub_le _ _)
          exact free_of_any hany hi.1 hi.2 (by omega)
        · obtain ⟨htype, htext, hfree, m', hm', hspan⟩ := mem_standaloneFrom (by rw [length_cover, hlength]) h
          exact ⟨htype, htext, fun i hi => (getElem?_cover (hfree i hi)).1, m', List.mem_cons_of_mem _ hm', hspan⟩

/-- Clauses on their own have no position in common. -/
theorem standaloneFrom_disjoint : ∀ {found : List (Match text.length Unit)} {covered : List Bool},
    covered.length = text.length →
      (standaloneFrom R text covered found).Pairwise fun a b => ∀ i, a.Has i → ¬ b.Has i
  | [], _, _ => List.Pairwise.nil
  | m :: found, covered, hlength => by
    unfold standaloneFrom
    dsimp only
    split
    · exact standaloneFrom_disjoint hlength
    · split
      · exact standaloneFrom_disjoint hlength
      · have hcover : ∀ s, (cover covered s).length = text.length := fun s => by rw [length_cover, hlength]
        refine List.pairwise_cons.2 ⟨fun b hb i ha hi => ?_, standaloneFrom_disjoint (hcover _)⟩
        obtain ⟨-, -, hfree, -⟩ := mem_standaloneFrom (hcover _) hb
        exact (getElem?_cover (hfree i hi)).2 ha

theorem length_covered : (((slashCitations R F ++ headerCitations R F).map Item.pair).foldl cover
    (List.replicate text.length false)).length = text.length := by
  generalize (slashCitations R F ++ headerCitations R F).map Item.pair = spans
  have hfold : ∀ covered : List Bool, (spans.foldl cover covered).length = covered.length := by
    induction spans with
    | nil => exact fun _ => rfl
    | cons s spans ih => exact fun covered => (ih _).trans (length_cover covered s)
  rw [hfold, List.length_replicate]

/-- A clause on its own has no position in common with another citation. -/
theorem standalone_clear {s c : Item} (hs : s ∈ standaloneCitations R F) (hc : c ∈ extractCitations R F) :
    c = s ∨ ∀ i, s.Has i → ¬ c.Has i := by
  unfold extractCitations at hc
  rcases List.mem_append.1 ((orderBy_perm _ _).mem_iff.1 hc) with hc | hc
  · refine Or.inr fun i hi hother => ?_
    obtain ⟨-, -, hfree, -⟩ := mem_standaloneFrom length_covered hs
    exact getElem?_foldl_cover (hfree i hi) c.pair (List.mem_map_of_mem hc) hother
  · by_cases heq : c = s
    · exact Or.inl heq
    · have hsymm : Std.Symm fun a b : Item => ∀ i, a.Has i → ¬ b.Has i := ⟨fun a b h i hb ha => h i ha hb⟩
      exact Or.inr ((standaloneFrom_disjoint length_covered).forall hs hc (Ne.symm heq))

theorem extractCitations_sound (hfits : F.Fits) (h : item ∈ extractCitations R F) : item.Sound text := by
  unfold extractCitations at h
  rcases List.mem_append.1 ((orderBy_perm _ _).mem_iff.1 h) with h | h
  · rcases List.mem_append.1 h with h | h
    · exact sound_of_extent (mem_slashCitations h).2
    · obtain ⟨slashEnds, m, hm, h⟩ := mem_headerCitations h
      obtain ⟨-, hstop, htext, hlt⟩ := headerCitationOf_within h
      exact ⟨hlt (hfits.header m hm), hstop, htext⟩
  · obtain ⟨-, htext, -, m, hm, hstart, hstop⟩ := mem_standaloneFrom length_covered h
    have hproper := m.span.proper
    have hinside := m.span.inside
    have hget : text[m.span.start]? = some text[m.span.start] := List.getElem?_eq_getElem (by omega)
    obtain ⟨t, ht⟩ := slice_head hproper hget
    have hlt := trailing_lt (t := t) (hfits.clause m hm _ hget)
    rw [← ht, length_slice] at hlt
    have hpair : slice text m.span.pair = slice text (m.span.start, m.span.stop) := rfl
    refine ⟨?_, ?_, htext⟩
    · rw [hstart, hstop, hpair]
      omega
    · rw [hstop]
      omega

/-! ## Amounts and outcomes -/

theorem wordAmountOf_form {digitSpans : List Nat} {s : Nat × Nat} (h : wordAmountOf R F digitSpans s = some item) :
    item.type = .amount ∧ item.text = slice text item.pair := by
  unfold wordAmountOf at h
  split at h
  · cases h
  · split at h
    · cases h
    · split at h
      · dsimp only at h
        split at h
        · cases h
        · cases h
          exact ⟨rfl, rfl⟩
      · cases h

theorem extractAmounts_form (h : item ∈ extractAmounts R F) : item.type = .amount ∧ item.text = slice text item.pair := by
  unfold extractAmounts at h
  dsimp only at h
  rcases List.mem_append.1 ((orderBy_perm _ _).mem_iff.1 h) with h | h
  · obtain ⟨m, -, rfl⟩ := List.mem_map.1 h
    exact ⟨rfl, rfl⟩
  · obtain ⟨s, -, h⟩ := List.mem_filterMap.1 h
    exact wordAmountOf_form h

theorem extractAmounts_sound (hfits : F.Fits) (h : item ∈ extractAmounts R F) : item.Sound text := by
  unfold extractAmounts at h
  dsimp only at h
  rcases List.mem_append.1 ((orderBy_perm _ _).mem_iff.1 h) with h | h
  · obtain ⟨m, -, rfl⟩ := List.mem_map.1 h
    exact itemAt_sound rfl m.span _
  · obtain ⟨s, hs, h⟩ := List.mem_filterMap.1 h
    obtain ⟨⟨t, ht, hstart⟩, hlt, hstop⟩ := mem_numberSpans hs
    have hget : text[s.1]? = some text[s.1] := List.getElem?_eq_getElem (by omega)
    obtain ⟨hspace, hquote⟩ := hfits.token t ht _ (by rw [hstart]; exact hget)
    exact wordAmountOf_sound hlt hget hspace hquote h

theorem extractDurations_sound (h : item ∈ extractDurations R F) : item.type = .duration ∧ item.Sound text := by
  obtain ⟨s, hs, h⟩ := List.mem_filterMap.1 h
  obtain ⟨-, hlt, -⟩ := mem_numberSpans hs
  exact durationOf_sound (Nat.le_of_lt hlt) h

theorem back_le (p : Char → Bool) (text : Text) : ∀ k pos, back p text k pos ≤ pos
  | 0, pos => Nat.le_refl pos
  | k + 1, pos => by
    unfold back
    split
    · exact (back_le p text k (pos - 1)).trans (Nat.sub_le _ _)
    · exact Nat.le_refl pos

theorem mem_wordsBefore {w : Nat × Text} : ∀ {k gapEnd : Nat}, w ∈ wordsBefore R text k gapEnd → w.1 ≤ gapEnd
  | 0, _, h => by cases h
  | k + 1, gapEnd, h => by
    have hword := back_le isSpace text 4 gapEnd
    have hpos := back_le (fun c => R.letters.isAlnum c || c = '.') text 64 (back isSpace text 4 gapEnd)
    unfold wordsBefore at h
    dsimp only at h
    split at h
    · cases h
    · split at h
      · cases h
      · rcases List.mem_cons.1 h with rfl | h
        · exact hpos.trans hword
        · exact (mem_wordsBefore h).trans (hpos.trans hword)

theorem mem_forwardingSpans {s : Nat × Nat} (h : s ∈ forwardingSpans R F) : s.1 < s.2 ∧ s.2 ≤ text.length := by
  unfold forwardingSpans at h
  split at h
  · obtain ⟨m, -, h⟩ := List.mem_filterMap.1 h
    obtain ⟨i, -, h⟩ := Option.bind_eq_some_iff.1 h
    obtain ⟨w, hw, rfl⟩ := Option.map_eq_some_iff.1 h
    have hle := mem_wordsBefore (List.mem_reverse.1 (List.mem_of_getElem? hw))
    have hproper := m.span.proper
    exact ⟨Nat.lt_of_le_of_lt hle hproper, m.span.inside⟩
  · cases h

theorem extractOutcomes_sound (h : item ∈ extractOutcomes R F) : item.type = .outcome ∧ item.Sound text := by
  rcases mem_rounds h with h | ⟨found, hfound, h⟩
  · obtain ⟨s, hs, rfl⟩ := List.mem_map.1 h
    obtain ⟨hlt, hstop⟩ := mem_forwardingSpans hs
    exact ⟨rfl, hlt, hstop, rfl⟩
  · obtain ⟨val, -, rfl⟩ := List.mem_map.1 hfound
    obtain ⟨m, -, rfl⟩ := List.mem_map.1 h
    exact ⟨rfl, itemAt_sound rfl m.span _⟩

/-! ## All rules -/

variable (R F)

/-- The items of all extractors, the dates before the filter among them. -/
def subItems : List Item :=
  extractDecisionRefs R F ++ extractCitations R F ++ extractAmounts R F ++ extractDurations R F ++
    extractOutcomes R F ++ extractDates R F

variable {R F}

theorem candidates_sub (h : item ∈ candidates R F) : item ∈ subItems R F := by
  unfold candidates at h
  unfold subItems
  rcases List.mem_append.1 h with h | h
  · exact List.mem_append_left _ h
  · exact List.mem_append_right _ (List.mem_filter.1 h).1

theorem extractDecisionRefs_type (h : item ∈ extractDecisionRefs R F) : item.type = .decisionRef := by
  obtain ⟨m, hm⟩ := mem_extractDecisionRefs h
  exact (decisionRefOf_within hm).1

theorem extractCitations_type (h : item ∈ extractCitations R F) : item.type = .citation := by
  unfold extractCitations at h
  rcases List.mem_append.1 ((orderBy_perm _ _).mem_iff.1 h) with h | h
  · rcases List.mem_append.1 h with h | h
    · exact (mem_slashCitations h).1
    · obtain ⟨slashEnds, m, -, h⟩ := mem_headerCitations h
      exact (headerCitationOf_within h).1
  · exact (mem_standaloneFrom length_covered h).1

/-- Which list an item of a type comes from. -/
theorem candidates_of_type (h : item ∈ candidates R F) :
    (item.type = .date → item ∈ validDates R F) ∧ (item.type = .citation → item ∈ extractCitations R F) ∧
      (item.type = .decisionRef → item ∈ extractDecisionRefs R F) := by
  unfold candidates at h
  simp only [List.mem_append] at h
  rcases h with ((((h | h) | h) | h) | h) | h
  · have htype := extractDecisionRefs_type h
    simp [htype, h]
  · have htype := extractCitations_type h
    simp [htype, h]
  · have htype := (extractAmounts_form h).1
    simp [htype]
  · have htype := (extractDurations_sound h).1
    simp [htype]
  · have htype := (extractOutcomes_sound h).1
    simp [htype]
  · have htype := (extractDates_spans (List.mem_filter.1 h).1).1
    simp [htype, h]

theorem subItems_text (h : item ∈ subItems R F) : item.text = slice text item.pair := by
  unfold subItems at h
  simp only [List.mem_append] at h
  rcases h with ((((h | h) | h) | h) | h) | h
  · obtain ⟨m, hm⟩ := mem_extractDecisionRefs h
    exact (decisionRefOf_within hm).2.1.2.2
  · unfold extractCitations at h
    rcases List.mem_append.1 ((orderBy_perm _ _).mem_iff.1 h) with h | h
    · rcases List.mem_append.1 h with h | h
      · exact (sound_of_extent (mem_slashCitations h).2).2.2
      · obtain ⟨slashEnds, m, -, h⟩ := mem_headerCitations h
        exact (headerCitationOf_within h).2.2.1
    · exact (mem_standaloneFrom length_covered h).2.1
  · exact (extractAmounts_form h).2
  · exact (extractDurations_sound h).2.2.2
  · exact (extractOutcomes_sound h).2.2.2
  · exact (sound_of_extent (extractDates_spans h).2).2.2

theorem subItems_sound (hfits : F.Fits) (h : item ∈ subItems R F) : item.Sound text := by
  unfold subItems at h
  simp only [List.mem_append] at h
  rcases h with ((((h | h) | h) | h) | h) | h
  · obtain ⟨m, hm⟩ := mem_extractDecisionRefs h
    exact (decisionRefOf_within hm).2.1
  · exact extractCitations_sound hfits h
  · exact extractAmounts_sound hfits h
  · exact (extractDurations_sound h).2
  · exact (extractOutcomes_sound h).2
  · exact sound_of_extent (extractDates_spans h).2

/-! ## The report -/

theorem keepFirst_sublist : ∀ (items : List Item) (seen : List (Nat × Nat × ItemType)),
    (keepFirst text seen items).Sublist items
  | [], _ => List.Sublist.refl _
  | item :: items, seen => by
    unfold keepFirst
    split
    · exact (keepFirst_sublist items seen).cons _
    · split
      · exact (keepFirst_sublist items _).cons _
      · exact (keepFirst_sublist items _).cons_cons _

theorem keepFirst_keys : ∀ (items : List Item) (seen : List (Nat × Nat × ItemType)),
    ((keepFirst text seen items).map Item.key).Nodup ∧ ∀ item ∈ keepFirst text seen items, item.key ∉ seen
  | [], _ => ⟨List.nodup_nil, fun _ h => by cases h⟩
  | item :: items, seen => by
    unfold keepFirst
    split
    · exact keepFirst_keys items seen
    · next hnew =>
      obtain ⟨hnodup, hfresh⟩ := keepFirst_keys items (item.key :: seen)
      have hfresh' : ∀ other ∈ keepFirst text (item.key :: seen) items, other.key ∉ seen := fun other h hmem =>
        hfresh other h (List.mem_cons_of_mem _ hmem)
      split
      · exact ⟨hnodup, hfresh'⟩
      · refine ⟨List.nodup_cons.2 ⟨fun h => ?_, hnodup⟩, List.forall_mem_cons.2 ⟨hnew, hfresh'⟩⟩
        obtain ⟨other, hother, hkey⟩ := List.mem_map.1 h
        exact hfresh other hother (hkey ▸ List.mem_cons_self)

/-- Among items with the right text, each key is kept. -/
theorem exists_keepFirst : ∀ {items : List Item} (seen : List (Nat × Nat × ItemType)),
    (∀ item ∈ items, item.text = slice text item.pair) →
      ∀ item ∈ items, item.key ∈ seen ∨ ∃ kept ∈ keepFirst text seen items, kept.key = item.key
  | first :: items, seen, htext, item, hitem => by
    obtain ⟨hfirst, hrest⟩ := List.forall_mem_cons.1 htext
    unfold keepFirst
    split
    · next hseen =>
      rcases List.mem_cons.1 hitem with rfl | hitem
      · exact Or.inl hseen
      · exact exists_keepFirst seen hrest item hitem
    · rw [if_neg (not_not.2 hfirst.symm)]
      rcases List.mem_cons.1 hitem with rfl | hitem
      · exact Or.inr ⟨item, List.mem_cons_self, rfl⟩
      · rcases exists_keepFirst (first.key :: seen) hrest item hitem with h | ⟨kept, hkept, hkey⟩
        · rcases List.mem_cons.1 h with h | h
          · exact Or.inr ⟨first, List.mem_cons_self, h.symm⟩
          · exact Or.inl h
        · exact Or.inr ⟨kept, List.mem_cons_of_mem _ hkept, hkey⟩

theorem mem_extractAllRules (h : item ∈ extractAllRules R F) : item ∈ candidates R F :=
  (orderBy_perm _ _).mem_iff.1 ((keepFirst_sublist _ _).subset ((orderBy_perm _ _).mem_iff.1 h))

theorem mem_extract (h : item ∈ extract R F) : item ∈ extractAllRules R F ∧ item.Sound text := by
  unfold extract at h
  split at h
  · cases h
  · obtain ⟨hmem, hvalid⟩ := List.mem_filter.1 h
    obtain ⟨hspan, htext⟩ := Bool.and_eq_true_iff.1 hvalid
    obtain ⟨hlt, hstop⟩ := of_decide_eq_true hspan
    exact ⟨hmem, hlt, hstop, (of_decide_eq_true htext).symm⟩

theorem extract_sublist : (extract R F).Sublist (extractAllRules R F) := by
  unfold extract
  split
  · exact List.nil_sublist _
  · exact List.filter_sublist

theorem mem_extract_of_sound (h : item ∈ extractAllRules R F) (hsound : item.Sound text) : item ∈ extract R F := by
  obtain ⟨hlt, hstop, htext⟩ := hsound
  have hne : text ≠ [] := fun hnil => by
    rw [hnil, List.length_nil] at hstop
    omega
  unfold extract
  rw [if_neg hne]
  exact List.mem_filter.2 ⟨h, Bool.and_eq_true_iff.2 ⟨decide_eq_true ⟨hlt, hstop⟩, decide_eq_true htext.symm⟩⟩

/-- A date that is kept lies in no decision reference, no citation and no amendment parenthesis. -/
theorem validDates_outside {d : Item} (h : d ∈ validDates R F) :
    ∀ s ∈ (extractDecisionRefs R F ++ extractCitations R F).map Item.pair ++ amendmentSpans F,
      ¬ (s.1 ≤ d.start ∧ d.stop ≤ s.2) := by
  obtain ⟨hmem, hfree⟩ := List.mem_filter.1 h
  obtain ⟨-, e, fields, rfl⟩ := extractDates_spans hmem
  have hproper := e.proper
  have hinside := e.inside
  have hlt := of_decide_eq_true hfree
  rw [getD_spanEnds (show (itemAt text e.pair fields).start ≤ text.length from (Nat.le_of_lt hproper).trans hinside)] at hlt
  intro s hs hin
  exact absurd ((le_reach_iff (Nat.zero_lt_of_lt hproper)).2 ⟨s, hs, hin.1, hin.2⟩) (Nat.not_le.2 hlt)

/-- A closed amendment parenthesis: a marker at an opening bracket, and the bracket that closes it. -/
theorem mem_amendmentSpans {before inner after : Text} (htext : text = before ++ '(' :: (inner ++ ')' :: after))
    (hinner : Brackets.Balanced '(' ')' inner)
    (hmarker : ∃ m ∈ F.amendmentMarkers.found, m.span.start = before.length) :
    (before.length, before.length + inner.length + 2) ∈ amendmentSpans F := by
  have hpair := Brackets.mem_pairs (l := after) (by decide : '(' ≠ ')') hinner before 0 []
  rw [← htext, Nat.zero_add] at hpair
  refine List.mem_map.2 ⟨_, List.mem_filter.2 ⟨hpair, decide_eq_true ?_⟩, ?_⟩
  · obtain ⟨m, hm, hstart⟩ := hmarker
    exact List.mem_map.2 ⟨m, hm, hstart⟩
  · dsimp only
    rw [show before.length + 1 + inner.length + 1 = before.length + inner.length + 2 by omega]

/-- What `extract` reports, whatever the patterns find: items with their spans and texts, in order and each key once, no
date inside a reference or a closed amendment parenthesis, and no clause on its own that meets another citation. Where
the patterns keep what they promise, every item of an extractor has a span of the text, and its key is reported unless
it is a date that is suppressed. -/
theorem extract_exclusive {text : Text} (R : Readings) (F : Outcome text.length) :
    (∀ item ∈ extract R F, item.Sound text) ∧
    (F.Fits → (∀ item ∈ subItems R F, item.Sound text) ∧
      ∀ item ∈ candidates R F, ∃ kept ∈ extract R F, kept.key = item.key) ∧
    (extract R F).Pairwise (fun a b => a.start < b.start ∨ a.start = b.start ∧ a.stop ≤ b.stop) ∧
    ((extract R F).map Item.key).Nodup ∧
    (∀ d ∈ extract R F, d.type = .date →
      (∀ r ∈ candidates R F, r.type = .citation ∨ r.type = .decisionRef → ¬ (r.start ≤ d.start ∧ d.stop ≤ r.stop)) ∧
      ∀ before inner after, text = before ++ '(' :: (inner ++ ')' :: after) → Brackets.Balanced '(' ')' inner →
        (∃ m ∈ F.amendmentMarkers.found, m.span.start = before.length) →
          ¬ (before.length ≤ d.start ∧ d.stop ≤ before.length + inner.length + 2)) ∧
    ∀ s ∈ standaloneCitations R F, ∀ c ∈ extract R F, c.type = .citation → c = s ∨ ∀ i, s.Has i → ¬ c.Has i := by
  refine ⟨fun item h => (mem_extract h).2, fun hfits => ⟨fun item h => subItems_sound hfits h, fun item h => ?_⟩, ?_, ?_,
    fun d hd htype => ⟨fun r hr hrtype => ?_, fun before inner after htext hinner hmarker => ?_⟩,
    fun s hs c hc htype => ?_⟩
  · have htext : ∀ other ∈ orderBy (fun item : Item => toLex (item.start, -(item.stop : Int))) (candidates R F),
        other.text = slice text other.pair := fun other ho =>
      subItems_text (candidates_sub ((orderBy_perm _ _).mem_iff.1 ho))
    rcases exists_keepFirst [] htext item ((orderBy_perm _ _).mem_iff.2 h) with h | ⟨kept, hkept, hkey⟩
    · cases h
    · have hall : kept ∈ extractAllRules R F := (orderBy_perm _ _).mem_iff.2 hkept
      exact ⟨kept, mem_extract_of_sound hall (subItems_sound hfits (candidates_sub (mem_extractAllRules hall))), hkey⟩
  · refine ((orderBy_sorted _ _).sublist extract_sublist).imp fun {a b} hle => ?_
    exact Prod.Lex.toLex_le_toLex.1 hle
  · have hnodup := (@keepFirst_keys text
      (orderBy (fun item : Item => toLex (item.start, -(item.stop : Int))) (candidates R F)) []).1
    exact (((orderBy_perm _ _).map Item.key).nodup_iff.2 hnodup).sublist (extract_sublist.map _)
  · have hvalid := (candidates_of_type (mem_extractAllRules (mem_extract hd).1)).1 htype
    refine validDates_outside hvalid r.pair (List.mem_append_left _ (List.mem_map_of_mem (List.mem_append.2 ?_)))
    rcases hrtype with hrtype | hrtype
    · exact Or.inr ((candidates_of_type hr).2.1 hrtype)
    · exact Or.inl ((candidates_of_type hr).2.2 hrtype)
  · have hvalid := (candidates_of_type (mem_extractAllRules (mem_extract hd).1)).1 htype
    exact validDates_outside hvalid _ (List.mem_append_right _ (mem_amendmentSpans htext hinner hmarker))
  · exact standalone_clear hs ((candidates_of_type (mem_extractAllRules (mem_extract hc).1)).2.1 htype)

end

end Mesa.Legal
