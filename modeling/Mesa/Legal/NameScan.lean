/-
The index, the least lengths and the windows that were missed leave out only places where no name matches: the scan with
them finds what a scan that tries every name at every position finds.

The two scans run side by side over the positions. A name that begins with a mark is also entered under its first word,
but when the scan comes to that word the name has been tried at its mark before; and a window that was missed holds all
that the names of its word read.
-/
import Mesa.Legal.NameIndex

namespace Mesa.Legal

open Mesa.Foundation
open Mesa.Rebuild (isSpace Text)

variable {U : Unicode}

/-! ## The words of a text -/

/-- The words and marks, position by position. -/
def wordsFrom (U : Unicode) : Nat → Option Char → Text → List Span
  | _, _, [] => []
  | pos, before, c :: l =>
    if U.isWord c then
      (if U.inWord before then [] else [⟨pos, pos + (l.takeWhile U.isWord).length + 1⟩]) ++ wordsFrom U (pos + 1) (some c) l
    else (if isSpace c then [] else [⟨pos, pos + 1⟩]) ++ wordsFrom U (pos + 1) (some c) l

theorem scanFrom_scopeWord (pos : Nat) (before : Option Char) (l : Text) :
    scanFrom (scopeWord U) pos before (if U.inWord before then (l.takeWhile U.isWord).length else 0) l =
      wordsFrom U pos before l := by
  induction l generalizing pos before with
  | nil => rw [wordsFrom, scanFrom]
  | cons c l ih =>
    have hnext := ih (pos + 1) (some c)
    rw [wordsFrom, List.takeWhile_cons]
    cases hc : U.isWord c with
    | true =>
      have hin : U.inWord (some c) = true := hc
      rw [hin, if_pos rfl] at hnext
      cases hbefore : U.inWord before with
      | true =>
        rw [if_pos rfl, if_pos rfl, if_pos rfl, if_pos rfl, List.length_cons, scanFrom, hnext, List.nil_append]
      | false =>
        have hmatch : scopeWord U before (c :: l) = some ((l.takeWhile U.isWord).length + 1) := if_pos hc
        rw [if_neg Bool.false_ne_true, if_pos rfl, if_neg Bool.false_ne_true, scanFrom, hmatch]
        dsimp only
        rw [hnext, List.singleton_append]
    | false =>
      have hin : U.inWord (some c) = false := hc
      have hzero : (if U.inWord before = true then (if false = true then c :: l.takeWhile U.isWord else []).length else 0) = 0 := by
        rw [if_neg Bool.false_ne_true, List.length_nil, ite_self]
      have hmatch : scopeWord U before (c :: l) = if isSpace c then none else some 1 :=
        if_neg (by rw [hc]; exact Bool.false_ne_true)
      rw [hin, if_neg Bool.false_ne_true] at hnext
      rw [hzero, if_neg Bool.false_ne_true, scanFrom, hmatch]
      cases isSpace c with
      | true =>
        rw [if_pos rfl, if_pos rfl, List.nil_append]
        exact hnext
      | false =>
        rw [if_neg Bool.false_ne_true, if_neg Bool.false_ne_true, List.singleton_append]
        exact congrArg _ hnext

theorem scan_scopeWord (t : Text) : scan (scopeWord U) t = wordsFrom U 0 none t := scanFrom_scopeWord 0 none t

/-! ## What the index holds -/

/-- The entry of a name under a word. -/
def wordEntry (U : Unicode) (word variant : Text) : Option (Text × Nat) :=
  (firstWord U variant).bind fun f => if word ∈ scopeKeys variant f.1 f.2 then some (variant, f.1) else none

/-- The entry of a name under the mark that it begins with. -/
def markEntry (U : Unicode) (c : Char) (variant : Text) : Option (Text × Nat) :=
  if variant.head? = some c ∧ ((firstWord U variant).all fun f => f.1 ≠ 0) = true then some (variant, 0) else none

structure Indexes (U : Unicode) (index : NameIndex) (V : List Text) : Prop where
  words : ∀ word, index.names.get word = V.filterMap (wordEntry U word)
  marks : ∀ c, index.punctuation.get c = V.filterMap (markEntry U c)
  named : ∀ v ∈ V, v ≠ []

theorem scopeKeys_nodup (variant : Text) (start : Nat) (word : Text) : (scopeKeys variant start word).Nodup := by
  unfold scopeKeys
  split
  · refine List.nodup_cons.2 ⟨fun h => ?_, ?_⟩
    · obtain ⟨s, hs, heq⟩ := List.mem_map.1 h
      have hnil : s = [] := by simpa using heq
      subst hnil
      exact absurd hs (by decide)
    · exact List.Nodup.map (fun a b h => List.append_cancel_left h) (by decide)
  · exact List.nodup_singleton _

theorem NameIndex.enter_adds {index index' : NameIndex} {v : Text} (h : index.enter U v = some index') :
    (∀ word, index'.names.get word = index.names.get word ++ (wordEntry U word v).toList) ∧
      (∀ c, index'.punctuation.get c = index.punctuation.get c ++ (markEntry U c v).toList) ∧ v ≠ [] := by
  have hmark : ∀ {c d : Char}, v.head? = some d → ((firstWord U v).all fun f => f.1 ≠ 0) = true →
      (if d = c then [(v, 0)] else []) = (markEntry U c v).toList := by
    intro c d hd hall
    unfold markEntry
    by_cases hdc : d = c
    · rw [if_pos hdc, if_pos ⟨hdc ▸ hd, hall⟩, Option.toList_some]
    · rw [if_neg hdc, if_neg fun hand => hdc (Option.some.inj (hd.symm.trans hand.1)), Option.toList_none]
  unfold NameIndex.enter at h
  unfold wordEntry
  cases hfirst : firstWord U v with
  | none =>
    rw [hfirst] at h hmark
    obtain ⟨d, hd, rfl⟩ := Option.map_eq_some_iff.1 h
    refine ⟨fun word => (List.append_nil _).symm, fun c => ?_, fun hnil => by rw [hnil] at hd; cases hd⟩
    rw [Buckets.get_add, hmark hd rfl]
  | some f =>
    obtain ⟨start, word⟩ := f
    rw [hfirst] at h hmark
    dsimp only at h
    obtain ⟨index₁, h₁, rfl⟩ := Option.map_eq_some_iff.1 h
    have hwords : ∀ names : Buckets Text (Text × Nat), ∀ w,
        ((scopeKeys v start word).foldl (fun names key => names.add key (v, start)) names).get w =
          names.get w ++ ((some (start, word)).bind fun f =>
            if w ∈ scopeKeys v f.1 f.2 then some (v, f.1) else none).toList := by
      intro names w
      rw [Buckets.get_foldl_add w (v, start) (scopeKeys_nodup v start word), Option.bind_some]
      split <;> rfl
    split at h₁
    · next hstart =>
      cases h₁
      refine ⟨hwords index.names, fun c => ?_, ?_⟩
      · unfold markEntry
        rw [hfirst, if_neg fun hand => absurd hand.2 (by simp [hstart]), Option.toList_none, List.append_nil]
      · rintro rfl
        cases hfirst
    · next hstart =>
      obtain ⟨d, hd, rfl⟩ := Option.map_eq_some_iff.1 h₁
      refine ⟨hwords index.names, fun c => ?_, fun hnil => by rw [hnil] at hd; cases hd⟩
      rw [Buckets.get_add, hmark hd (by simp [hstart])]

theorem indexes_foldlM {V : List Text} {index index' : NameIndex} (h : V.foldlM (NameIndex.enter U) index = some index') :
    (∀ word, index'.names.get word = index.names.get word ++ V.filterMap (wordEntry U word)) ∧
      (∀ c, index'.punctuation.get c = index.punctuation.get c ++ V.filterMap (markEntry U c)) ∧ ∀ v ∈ V, v ≠ [] := by
  induction V generalizing index with
  | nil =>
    cases h
    exact ⟨fun _ => (List.append_nil _).symm, fun _ => (List.append_nil _).symm, fun v hv => absurd hv List.not_mem_nil⟩
  | cons v V ih =>
    rw [List.foldlM_cons] at h
    obtain ⟨index₁, h₁, h⟩ := Option.bind_eq_some_iff.1 h
    obtain ⟨hwords, hmarks, hnamed⟩ := NameIndex.enter_adds h₁
    obtain ⟨hwords', hmarks', hnamed'⟩ := ih h
    have hcons : ∀ f : Text → Option (Text × Nat), (v :: V).filterMap f = (f v).toList ++ V.filterMap f := by
      intro f
      rw [List.filterMap_cons]
      cases f v <;> rfl
    refine ⟨fun word => ?_, fun c => ?_, List.forall_mem_cons.2 ⟨hnamed, hnamed'⟩⟩
    · rw [hwords', hwords, hcons, List.append_assoc]
    · rw [hmarks', hmarks, hcons, List.append_assoc]

/-- The index of the constructor has each name under its words and marks. -/
theorem indexes_nameIndex {names : List (Text × Text)} {index : NameIndex} (h : nameIndex U names = some index) :
    Indexes U index (scopeVariants U names) :=
  let ⟨hwords, hmarks, hnamed⟩ := indexes_foldlM h
  ⟨hwords, hmarks, hnamed⟩

/-- A name does not begin with a space. -/
theorem scopeVariants_head {names : List (Text × Text)} {v : Text} (hv : v ∈ scopeVariants U names) {c : Char}
    (hc : v.head? = some c) : isSpace c = false := by
  obtain ⟨name, hname, hvariant⟩ := List.mem_flatMap.1 hv
  have hhead : name.head? = some c := by
    unfold variants at hvariant
    split at hvariant
    · rcases List.mem_cons.1 hvariant with rfl | hvariant
      · exact hc
      · rw [List.mem_singleton.1 hvariant] at hc
        cases name with
        | nil => cases hc
        | cons x l =>
          cases l with
          | nil => cases hc
          | cons y l => exact hc
    · rwa [← List.mem_singleton.1 hvariant]
  obtain ⟨x, rfl⟩ := mem_lawNames ((orderBy_perm _ _).mem_iff.1 hname)
  obtain ⟨l, hl⟩ := List.head?_eq_some_iff.1 hhead
  exact joinWords_head hl

/-! ## Where a name matches -/

/-- The word that begins at a position. -/
def WordAt (U : Unicode) (t : Text) (pos : Nat) (word : Text) : Prop :=
  U.inWord (charBefore t pos) = false ∧ (t.drop pos).takeWhile U.isWord = word ∧ word ≠ []

section

variable {t v word : Text} {pos : Nat} {m : ScopeMatch}

theorem nameAt_eq_some (h : nameAt U t pos v = some m) :
    U.inWord (charBefore t pos) = false ∧ v <+: t.drop pos ∧ (scopeNameEnd U t (pos + v.length)).isSome ∧ m.start = pos := by
  unfold nameAt at h
  split at h
  · cases h
  · next hbefore =>
    split at h
    · cases h
    · next hv =>
      obtain ⟨stop, hstop, rfl⟩ := Option.map_eq_some_iff.1 h
      refine ⟨Bool.eq_false_iff.2 hbefore, ?_, by rw [hstop]; rfl, ?_⟩
      · rw [Bool.not_eq_true', Bool.not_eq_false] at hv
        exact List.isPrefixOf_iff_prefix.1 hv
      · split <;> rfl

theorem nameAt_isSome (hbefore : U.inWord (charBefore t pos) = false) (hv : v <+: t.drop pos)
    (hstop : (scopeNameEnd U t (pos + v.length)).isSome) : (nameAt U t pos v).isSome := by
  unfold nameAt
  rw [if_neg (by rw [hbefore]; exact Bool.false_ne_true),
    if_neg (by rw [List.isPrefixOf_iff_prefix.2 hv]; exact Bool.false_ne_true), Option.isSome_map]
  exact hstop

theorem firstWord_of_head {c : Char} {l : Text} (hc : U.isWord c = true) :
    firstWord U (c :: l) = some (0, c :: l.takeWhile U.isWord) := by
  unfold firstWord
  have hstart : ((c :: l).takeWhile fun c => !U.isWord c) = [] := by rw [List.takeWhile_cons, hc]; rfl
  have hword : (c :: l).takeWhile U.isWord = c :: l.takeWhile U.isWord := by rw [List.takeWhile_cons, if_pos hc]
  dsimp only
  rw [hstart, List.length_nil, List.drop_zero, hword, if_neg (List.cons_ne_nil _ _)]

theorem firstWord_of_mark {c : Char} {l : Text} (hc : U.isWord c = false) :
    ((firstWord U (c :: l)).all fun f => f.1 ≠ 0) = true := by
  unfold firstWord
  dsimp only
  split
  · rfl
  · rw [List.takeWhile_cons, hc]
    simp

theorem possessive_letters : ∀ s ∈ scopePossessives, s ≠ [] ∧ ∀ c ∈ s, c ∈ namedLetters := by
  have hne : ∀ s ∈ scopePossessives, s ≠ [] := by decide
  have hall : ∀ s ∈ scopePossessives, (s.all fun c => decide (c ∈ namedLetters)) = true := by decide
  intro s hs
  exact ⟨hne s hs, fun c hc => of_decide_eq_true (List.all_eq_true.1 (hall s hs) c hc)⟩

/-- What follows a name that matches: no word goes on there, or a possessive does. -/
theorem scopeNameEnd_isSome {stop : Nat} (h : (scopeNameEnd U t stop).isSome) :
    U.inWord t[stop]? = false ∨
      ∃ s ∈ scopePossessives, s <+: t.drop stop ∧ U.inWord t[stop + s.length]? = false := by
  unfold scopeNameEnd at h
  by_cases happos : t[stop]? = some '\'' ∨ t[stop]? = some '’'
  · left
    rcases happos with h | h <;> rw [h] <;> exact isWord_mark (by decide)
  · dsimp only at h
    rw [if_neg happos] at h
    split at h
    · next s hs =>
      right
      have hfound := List.find?_some hs
      rw [Bool.and_eq_true, Bool.not_eq_true'] at hfound
      exact ⟨s, List.mem_of_find?_eq_some hs, List.isPrefixOf_iff_prefix.1 hfound.1, hfound.2⟩
    · split at h
      · cases h
      · next hstop => exact Or.inl (Bool.eq_false_iff.2 hstop)

theorem takeWhile_of_end {l : Text} (h : U.inWord l.head? = false) : l.takeWhile U.isWord = [] := by
  cases l with
  | nil => rfl
  | cons c l => rw [List.takeWhile_cons, if_neg (by rw [show U.isWord c = false from h]; exact Bool.false_ne_true)]

/-- A name that matches at a word is entered under it, with the word at its start. -/
theorem wordEntry_of_nameAt (hword : WordAt U t pos word) (hv : v ≠ []) (h : nameAt U t pos v = some m) :
    wordEntry U word v = some (v, 0) := by
  obtain ⟨-, ⟨rest, hrest⟩, hstop, -⟩ := nameAt_eq_some h
  obtain ⟨c, l, rfl⟩ := List.exists_cons_of_ne_nil hv
  obtain ⟨-, htake, hne⟩ := hword
  have hc : U.isWord c = true := by
    rw [← htake, ← hrest, List.cons_append, List.takeWhile_cons] at hne
    by_contra hc
    rw [if_neg hc] at hne
    exact hne rfl
  have hget : ∀ k, t[pos + (c :: l).length + k]? = rest[k]? := by
    intro k
    rw [Nat.add_assoc, ← List.getElem?_drop, ← hrest, List.getElem?_append_right (Nat.le_add_right _ _), Nat.add_sub_cancel_left]
  have hdrop : t.drop (pos + (c :: l).length) = rest := by
    rw [← List.drop_drop, ← hrest, List.drop_left]
  unfold wordEntry
  rw [firstWord_of_head hc, Option.bind_some, if_pos]
  unfold scopeKeys
  have hfirst : (c :: l).takeWhile U.isWord = c :: l.takeWhile U.isWord := by rw [List.takeWhile_cons, if_pos hc]
  rw [← hrest, List.takeWhile_append, hfirst] at htake
  by_cases hwhole : (c :: l.takeWhile U.isWord).length = (c :: l).length
  · -- the name is one word, and the text may go on with a possessive
    rw [if_pos hwhole] at htake
    have hall : c :: l.takeWhile U.isWord = c :: l :=
      (List.cons_prefix_cons.2 ⟨rfl, List.takeWhile_prefix _⟩).eq_of_length hwhole
    rw [if_pos (by rw [Nat.zero_add]; exact hwhole), hall]
    rcases scopeNameEnd_isSome hstop with hend | ⟨s, hs, hsuffix, hend⟩
    · have hend' : U.inWord rest.head? = false := by
        rw [List.head?_eq_getElem?, ← hget 0]
        exact hend
      rw [takeWhile_of_end hend', List.append_nil] at htake
      exact htake ▸ List.mem_cons_self
    · obtain ⟨rest', hrest'⟩ := hdrop ▸ hsuffix
      have hletters : ∀ x ∈ s, U.isWord x = true := fun x hx => isWord_letter ((possessive_letters s hs).2 x hx)
      have hend' : U.inWord rest'.head? = false := by
        rw [hget, ← hrest', List.getElem?_append_right le_rfl, Nat.sub_self] at hend
        rw [List.head?_eq_getElem?]
        exact hend
      rw [← hrest', List.takeWhile_append_of_pos hletters, takeWhile_of_end hend', List.append_nil] at htake
      exact List.mem_cons_of_mem _ (htake ▸ List.mem_map_of_mem hs)
  · rw [if_neg hwhole] at htake
    rw [htake]
    split <;> exact List.mem_cons_self

theorem slice_add (t : Text) (pos n : Nat) : slice t (pos, pos + n) = (t.drop pos).take n := by
  unfold slice
  rw [List.drop_take, Nat.add_sub_cancel_left]

theorem possessive_length : ∀ s ∈ scopePossessives, s.length ≤ 3 := by decide

/-- Whether a name may end somewhere is decided by the next five characters. -/
theorem scopeNameEnd_local {a b : Nat} (h : (t.drop a).take 5 = (t.drop b).take 5) :
    (scopeNameEnd U t a).isSome = (scopeNameEnd U t b).isSome := by
  have hget : ∀ k, k < 5 → t[a + k]? = t[b + k]? := by
    intro k hk
    have := congrArg (fun l : Text => l[k]?) h
    simpa only [List.getElem?_take, if_pos hk, List.getElem?_drop] using this
  have hstart : ∀ (s : Text) (k : Nat), k + s.length ≤ 5 →
      s.isPrefixOf (t.drop (a + k)) = s.isPrefixOf (t.drop (b + k)) := by
    intro s k hk
    have := congrArg (fun l : Text => (l.drop k).take s.length) h
    simp only [List.drop_take, List.take_take, List.drop_drop, Nat.min_eq_left (show s.length ≤ 5 - k by omega)] at this
    rw [Bool.eq_iff_iff, List.isPrefixOf_iff_prefix, List.isPrefixOf_iff_prefix, List.prefix_iff_eq_take,
      List.prefix_iff_eq_take, this]
  have hfind : ∀ k, k ≤ 1 →
      (scopePossessives.find? fun s => s.isPrefixOf (t.drop (a + k)) && !U.inWord t[a + k + s.length]?) =
        scopePossessives.find? fun s => s.isPrefixOf (t.drop (b + k)) && !U.inWord t[b + k + s.length]? := by
    intro k hk
    refine List.find?_congr fun s hs => ?_
    have hlength := possessive_length s hs
    rw [hstart s k (by omega), Nat.add_assoc, Nat.add_assoc, hget (k + s.length) (by omega)]
  have hhead : t[a]? = t[b]? := hget 0 (by omega)
  unfold scopeNameEnd
  dsimp only
  rw [hhead]
  by_cases happos : t[b]? = some '\'' ∨ t[b]? = some '’'
  · rw [if_pos happos, if_pos happos, hfind 1 le_rfl]
    split
    · rfl
    · split <;> rfl
  · have hfind := hfind 0 (Nat.zero_le 1)
    rw [Nat.add_zero, Nat.add_zero] at hfind
    rw [if_neg happos, if_neg happos, hfind]
    split
    · rfl
    · split <;> rfl

/-- A name that matches at a word matches at each other one with the same window. -/
theorem nameAt_window {q window : Nat} (hq : U.inWord (charBefore t q) = false)
    (hwindow : slice t (q, q + window) = slice t (pos, pos + window)) (hlength : v.length + 5 ≤ window)
    (h : (nameAt U t pos v).isSome) : (nameAt U t q v).isSome := by
  obtain ⟨m, hm⟩ := Option.isSome_iff_exists.1 h
  obtain ⟨-, hv, hstop, -⟩ := nameAt_eq_some hm
  rw [slice_add, slice_add] at hwindow
  refine nameAt_isSome hq ?_ ?_
  · have := congrArg (fun l : Text => l.take v.length) hwindow
    simp only [List.take_take, Nat.min_eq_left (show v.length ≤ window by omega)] at this
    rw [List.prefix_iff_eq_take] at hv ⊢
    rw [this]
    exact hv
  · have := congrArg (fun l : Text => (l.drop v.length).take 5) hwindow
    simp only [List.drop_take, List.take_take, List.drop_drop,
      Nat.min_eq_left (show 5 ≤ window - v.length by omega)] at this
    rw [scopeNameEnd_local this]
    exact hstop

theorem scopeNameEnd_bounds {stop e : Nat} (h : scopeNameEnd U t stop = some e) (hstop : stop ≤ t.length) :
    stop ≤ e ∧ e ≤ t.length := by
  unfold scopeNameEnd at h
  dsimp only at h
  generalize hstart : (if t[stop]? = some '\'' ∨ t[stop]? = some '’' then stop + 1 else stop) = start at h
  have hle : stop ≤ start := by
    rw [← hstart]
    split <;> omega
  split at h
  · next s hs =>
    cases h
    have hfound := List.find?_some hs
    rw [Bool.and_eq_true] at hfound
    have hfits := (List.isPrefixOf_iff_prefix.1 hfound.1).length_le
    have hpos := List.length_pos_iff.2 (possessive_letters s (List.mem_of_find?_eq_some hs)).1
    rw [List.length_drop] at hfits
    omega
  · split at h
    · cases h
    · cases h
      exact ⟨le_rfl, hstop⟩

/-- A match takes at least one character and stays in the text. -/
theorem nameAt_bounds (h : nameAt U t pos v = some m) (hv : v ≠ []) : pos < m.stop ∧ m.stop ≤ t.length := by
  have hfits := (nameAt_eq_some h).2.1.length_le
  have hpos := List.length_pos_iff.2 hv
  rw [List.length_drop] at hfits
  unfold nameAt at h
  split at h
  · cases h
  · split at h
    · cases h
    · obtain ⟨stop, hstop, rfl⟩ := Option.map_eq_some_iff.1 h
      obtain ⟨hlow, hhigh⟩ := scopeNameEnd_bounds hstop (by omega)
      split
      · dsimp only
        omega
      · next article after harticle =>
        unfold articleAt at harticle
        obtain ⟨d, hd, heq⟩ := Option.map_eq_some_iff.1 harticle
        have hd := Regex.matchAt_pos_le hd
        rw [List.length_drop] at hd
        have hafter : stop + d.pos = after := (Prod.ext_iff.1 heq).2
        dsimp only
        omega

end

/-! ## Candidates -/

section

variable {V : List Text} {index : NameIndex} {t word : Text} {pos consumedTo : Nat} {m : ScopeMatch}

/-- The candidates of a place, when those with an offset have been tried before: the first one that matches counts. -/
theorem bestCandidate_eq {early : Bool} (hpos : consumedTo ≤ pos) : ∀ {entries : List (Text × Nat)} {best : Option ScopeMatch},
    (∀ b, best = some b → b.start = pos ∧ early = false) →
    (∀ e ∈ entries, e.2 ≠ 0 → e.2 ≤ pos → consumedTo ≤ pos - e.2 → nameAt U t (pos - e.2) e.1 = none) →
    bestCandidate U t consumedTo pos early best entries =
      best.or (entries.findSome? fun e => if e.2 = 0 then nameAt U t pos e.1 else none)
  | [], best, _, _ => by rw [bestCandidate, List.findSome?_nil, Option.or_none]
  | (v, offset) :: entries, best, hbest, hoffset => by
    obtain ⟨hv, hrest⟩ := List.forall_mem_cons.1 hoffset
    have htried : (if pos < offset ∨ pos - offset < consumedTo then none else nameAt U t (pos - offset) v) =
        if offset = 0 then nameAt U t pos v else none := by
      by_cases hzero : offset = 0
      · subst hzero
        rw [if_neg (by omega), if_pos rfl, Nat.sub_zero]
      · rw [if_neg hzero]
        split
        · rfl
        · exact hv hzero (by dsimp only; omega) (by dsimp only; omega)
    rw [bestCandidate, htried, List.findSome?_cons]
    dsimp only
    cases hm : (if offset = 0 then nameAt U t pos v else none) with
    | none => exact bestCandidate_eq hpos hbest hrest
    | some m =>
      dsimp only
      have hstart : m.start = pos := by
        split at hm
        · exact (nameAt_eq_some hm).2.2.2
        · cases hm
      cases best with
      | none =>
        rw [Option.all_none, if_pos rfl, Option.none_or]
        cases early with
        | true => rfl
        | false =>
          rw [if_neg Bool.false_ne_true, bestCandidate_eq hpos (fun b hb => ⟨Option.some.inj hb ▸ hstart, rfl⟩) hrest,
            Option.some_or]
      | some b =>
        obtain ⟨hb, rfl⟩ := hbest b rfl
        rw [Option.all_some, decide_eq_false (by omega), if_neg Bool.false_ne_true, if_neg Bool.false_ne_true,
          bestCandidate_eq hpos hbest hrest, Option.some_or, Option.some_or]

/-- The candidates of the index are enough where each name that matches has its entry. -/
theorem findSome_entries {entry : Text → Option (Text × Nat)} (hname : ∀ v e, entry v = some e → e.1 = v)
    (hentry : ∀ v ∈ V, ∀ m, nameAt U t pos v = some m → entry v = some (v, 0)) :
    ((V.filterMap entry).findSome? fun e => if e.2 = 0 then nameAt U t pos e.1 else none) = firstName U V t pos := by
  unfold firstName
  induction V with
  | nil => rfl
  | cons v V ih =>
    obtain ⟨hv, hV⟩ := List.forall_mem_cons.1 hentry
    rw [List.filterMap_cons, List.findSome?_cons]
    cases hm : nameAt U t pos v with
    | some m =>
      rw [hv m hm]
      dsimp only
      rw [List.findSome?_cons, if_pos rfl, hm]
    | none =>
      cases he : entry v with
      | none => exact ih hV
      | some e =>
        dsimp only
        rw [List.findSome?_cons, hname v e he, hm, ite_self]
        exact ih hV

theorem wordEntry_name {v : Text} {e : Text × Nat} (h : wordEntry U word v = some e) : e.1 = v := by
  obtain ⟨f, -, hf⟩ := Option.bind_eq_some_iff.1 h
  split at hf
  · cases hf
    rfl
  · cases hf

theorem markEntry_eq {c : Char} {v : Text} {e : Text × Nat} (h : markEntry U c v = some e) : e.1 = v ∧ e.2 = 0 := by
  unfold markEntry at h
  split at h
  · cases h
    exact ⟨rfl, rfl⟩
  · cases h

/-- At a mark only names that begin with it match. -/
theorem markEntry_of_nameAt {c : Char} {l v : Text} (hc : U.isWord c = false) (hdrop : t.drop pos = c :: l) (hv : v ≠ [])
    (h : nameAt U t pos v = some m) : markEntry U c v = some (v, 0) := by
  obtain ⟨-, hprefix, -, -⟩ := nameAt_eq_some h
  obtain ⟨d, l', rfl⟩ := List.exists_cons_of_ne_nil hv
  rw [hdrop] at hprefix
  obtain ⟨rfl, -⟩ := List.cons_prefix_cons.1 hprefix
  unfold markEntry
  rw [if_pos ⟨rfl, firstWord_of_mark hc⟩]

/-- No name begins at a space or within a word. -/
theorem firstName_inside {c : Char} {l : Text} (hdrop : t.drop pos = c :: l)
    (hnames : ∀ v ∈ V, v ≠ [] ∧ ∀ c, v.head? = some c → isSpace c = false)
    (h : isSpace c = true ∨ U.inWord (charBefore t pos) = true) : firstName U V t pos = none := by
  refine List.findSome?_eq_none_iff.2 fun v hv => ?_
  cases hm : nameAt U t pos v with
  | none => rfl
  | some m =>
    exfalso
    obtain ⟨hbefore, hprefix, -, -⟩ := nameAt_eq_some hm
    rcases h with hspace | hinside
    · obtain ⟨hne, hhead⟩ := hnames v hv
      obtain ⟨d, l', rfl⟩ := List.exists_cons_of_ne_nil hne
      rw [hdrop] at hprefix
      obtain ⟨rfl, -⟩ := List.cons_prefix_cons.1 hprefix
      rw [hhead _ rfl] at hspace
      cases hspace
    · rw [hbefore] at hinside
      cases hinside

end

/-! ## Side by side -/

/-- The names of an index, none of which is empty or begins with a space. -/
structure Proper (V : List Text) : Prop where
  named : ∀ v ∈ V, v ≠ []
  head : ∀ v ∈ V, ∀ c, v.head? = some c → isSpace c = false

/-- The two scans before a position: they found the same, no name matches at a place that was left, and none at a word
with a window that was missed. -/
structure KeepsUp (U : Unicode) (index : NameIndex) (V : List Text) (t : Text) (pos : Nat) (s : ScopeScan)
    (p : PlainScan) : Prop where
  found : s.found = p.found
  consumedTo : s.consumedTo = p.consumedTo
  settled : ∀ q < pos, p.consumedTo ≤ q → firstName U V t q = none
  missed : ∀ key ∈ s.missedWindows, ∀ q window, WordAt U t q key.1 → index.window key.1 = some window →
    slice t (q, q + window) = key.2 → firstName U V t q = none

section

variable {V : List Text} {index : NameIndex} {t : Text} {pos : Nat} {s : ScopeScan} {p : PlainScan}

/-- A position is passed where no name matches, or that belongs to a match. -/
theorem KeepsUp.pass (h : KeepsUp U index V t pos s p) (hpos : p.consumedTo ≤ pos → firstName U V t pos = none) :
    KeepsUp U index V t (pos + 1) s (tryNames U V t p pos) := by
  have hsame : tryNames U V t p pos = p := by
    unfold tryNames
    split
    · rfl
    · next hle => rw [hpos (not_lt.1 hle)]
  rw [hsame]
  refine ⟨h.found, h.consumedTo, fun q hq hle => ?_, h.missed⟩
  rcases Nat.lt_succ_iff_lt_or_eq.1 hq with hlt | rfl
  · exact h.settled q hlt hle
  · exact hpos hle

theorem tryNames_some {m : ScopeMatch} (hpos : p.consumedTo ≤ pos) (hm : firstName U V t pos = some m) :
    tryNames U V t p pos = ⟨p.found ++ [m], m.stop⟩ := by
  unfold tryNames
  rw [if_neg (not_lt.2 hpos), hm]

/-- Both scans take a match. -/
theorem KeepsUp.take (h : KeepsUp U index V t pos s p) (hV : Proper V) {m : ScopeMatch} (hpos : p.consumedTo ≤ pos)
    (hm : firstName U V t pos = some m) :
    KeepsUp U index V t (pos + 1) { s with found := s.found ++ [m], consumedTo := m.stop } (tryNames U V t p pos) := by
  rw [tryNames_some hpos hm]
  obtain ⟨v, hv, hname⟩ := List.exists_of_findSome?_eq_some hm
  have hstop := (nameAt_bounds hname (hV.named v hv)).1
  refine ⟨by rw [h.found], rfl, fun q hq hle => ?_, h.missed⟩
  dsimp only at hle
  omega

/-- One mark of the text. -/
theorem KeepsUp.mark (hI : Indexes U index V) (hV : Proper V) (h : KeepsUp U index V t pos s p) {c : Char} {l : Text}
    (hdrop : t.drop pos = c :: l) (hc : U.isWord c = false) :
    KeepsUp U index V t (pos + 1) (scanWord U index t s ⟨pos, pos + 1⟩) (tryNames U V t p pos) := by
  have hword : slice t (pos, pos + 1) = [c] := by rw [slice_add, hdrop, List.take_succ_cons, List.take_zero]
  have hin : U.inWord ([c] : Text).head? = false := hc
  unfold scanWord
  dsimp only
  rw [hword, hin]
  by_cases hpos : pos < s.consumedTo
  · rw [if_pos hpos]
    exact h.pass fun hle => absurd hle (by rw [← h.consumedTo]; omega)
  · have hpos := not_lt.1 hpos
    have hbest : bestCandidate U t s.consumedTo pos true none (index.punctuation.get c) = firstName U V t pos := by
      rw [hI.marks, bestCandidate_eq hpos (fun b hb => by cases hb) fun e he hne => ?_, Option.none_or,
        findSome_entries (fun v e he => (markEntry_eq he).1) fun v hv m => markEntry_of_nameAt hc hdrop (hV.named v hv)]
      obtain ⟨v, -, hve⟩ := List.mem_filterMap.1 he
      exact absurd (markEntry_eq hve).2 hne
    rw [if_neg (not_lt.2 hpos), if_neg fun hand => Bool.false_ne_true hand.1, if_neg Bool.false_ne_true, Option.any_none,
      if_neg Bool.false_ne_true, if_neg Bool.false_ne_true, Bool.not_false, Bool.true_or, List.head?_cons, Option.elim_some, hbest]
    rw [h.consumedTo] at hpos
    cases hm : firstName U V t pos with
    | some m => exact h.take hV hpos hm
    | none => exact h.pass fun _ => hm

/-- The candidates of a word are shorter than what is left, or none of them matches. -/
theorem firstName_short (hI : Indexes U index V) {word : Text} (hword : WordAt U t pos word)
    (hshort : t.length - pos < index.minLength word) : firstName U V t pos = none := by
  refine List.findSome?_eq_none_iff.2 fun v hv => ?_
  cases hm : nameAt U t pos v with
  | none => rfl
  | some m =>
    exfalso
    have hentry := wordEntry_of_nameAt hword (hI.named v hv) hm
    have hmem : v.length ∈ (index.names.get word).map fun e => e.1.length - e.2 :=
      List.mem_map.2 ⟨(v, 0), hI.words word ▸ List.mem_filterMap.2 ⟨v, hv, hentry⟩, Nat.sub_zero _⟩
    have hfits := (nameAt_eq_some hm).2.1.length_le
    rw [List.length_drop] at hfits
    unfold NameIndex.minLength at hshort
    cases hmin : ((index.names.get word).map fun e => e.1.length - e.2).min? with
    | none => exact absurd (List.min?_eq_none_iff.1 hmin ▸ hmem) List.not_mem_nil
    | some k =>
      have hle := (List.min?_eq_some_iff.1 hmin).2 v.length hmem
      rw [hmin, Option.getD_some] at hshort
      omega

/-- Where a window was missed once, no name matches at another word with this window. -/
theorem firstName_missed (hI : Indexes U index V) {word : Text} {q window : Nat} (hpos : WordAt U t pos word)
    (hq : WordAt U t q word) (hwindow : index.window word = some window)
    (hsame : slice t (q, q + window) = slice t (pos, pos + window)) (hnone : firstName U V t pos = none) :
    firstName U V t q = none := by
  refine List.findSome?_eq_none_iff.2 fun v hv => ?_
  cases hm : nameAt U t q v with
  | none => rfl
  | some m =>
    exfalso
    have hentry := wordEntry_of_nameAt hq (hI.named v hv) hm
    have hmem : v.length ∈ (index.names.get word).map fun e => e.1.length :=
      List.mem_map.2 ⟨(v, 0), hI.words word ▸ List.mem_filterMap.2 ⟨v, hv, hentry⟩, rfl⟩
    have hlength : v.length + 5 ≤ window := by
      unfold NameIndex.window at hwindow
      split at hwindow
      · cases hwindow
        cases hmax : ((index.names.get word).map fun e => e.1.length).max? with
        | none => exact absurd (List.max?_eq_none_iff.1 hmax ▸ hmem) List.not_mem_nil
        | some k =>
          have hle := (List.max?_eq_some_iff.1 hmax).2 v.length hmem
          rw [Option.getD_some]
          omega
      · cases hwindow
    have hsome := nameAt_window hpos.1 hsame.symm hlength (by rw [hm]; rfl)
    rw [List.findSome?_eq_none_iff.1 hnone v hv] at hsome
    cases hsome

/-- One word of the text. -/
theorem KeepsUp.word (hI : Indexes U index V) (hV : Proper V) (h : KeepsUp U index V t pos s p) {word : Text} {stop : Nat}
    (hword : WordAt U t pos word) (hslice : slice t (pos, stop) = word) :
    KeepsUp U index V t (pos + 1) (scanWord U index t s ⟨pos, stop⟩) (tryNames U V t p pos) := by
  have hin : U.inWord word.head? = true := by
    obtain ⟨-, htake, hne⟩ := hword
    obtain ⟨c, l, hcons⟩ := List.exists_cons_of_ne_nil hne
    have hmem : c ∈ (t.drop pos).takeWhile U.isWord := by
      rw [htake, hcons]
      exact List.mem_cons_self
    have hc : U.isWord c = true := List.mem_takeWhile_imp hmem
    rw [hcons]
    exact hc
  unfold scanWord
  dsimp only
  rw [hslice, hin]
  by_cases hpos : pos < s.consumedTo
  · rw [if_pos hpos]
    exact h.pass fun hle => absurd hle (by rw [← h.consumedTo]; omega)
  have hpos := not_lt.1 hpos
  rw [if_neg (not_lt.2 hpos)]
  by_cases hshort : t.length - pos < index.minLength word
  · rw [if_pos ⟨rfl, hshort⟩]
    exact h.pass fun _ => firstName_short hI hword hshort
  rw [if_neg fun hand => hshort hand.2, if_pos rfl, if_pos rfl, Bool.not_true, Bool.false_or]
  have hbest : bestCandidate U t s.consumedTo pos (index.direct word) none (index.names.get word) = firstName U V t pos := by
    rw [hI.words, bestCandidate_eq hpos (fun b hb => by cases hb) fun e he hne hle hfree => ?_, Option.none_or,
      findSome_entries (fun v e => wordEntry_name) fun v hv m => wordEntry_of_nameAt hword (hV.named v hv)]
    obtain ⟨v, hv, hve⟩ := List.mem_filterMap.1 he
    rw [wordEntry_name hve]
    rw [h.consumedTo] at hfree
    exact List.findSome?_eq_none_iff.1 (h.settled (pos - e.2) (by omega) hfree) v hv
  rw [hbest]
  rw [h.consumedTo] at hpos
  cases hwindow : index.window word with
  | none =>
    rw [Option.map_none, Option.any_none, if_neg Bool.false_ne_true]
    cases hm : firstName U V t pos with
    | some m => exact h.take hV hpos hm
    | none => exact h.pass fun _ => hm
  | some window =>
    rw [Option.map_some, Option.any_some]
    by_cases hmissed : (word, slice t (pos, pos + window)) ∈ s.missedWindows
    · rw [if_pos (decide_eq_true hmissed)]
      exact h.pass fun _ => h.missed _ hmissed pos window hword hwindow rfl
    · rw [if_neg (by rw [decide_eq_true_iff]; exact hmissed)]
      cases hm : firstName U V t pos with
      | some m => exact h.take hV hpos hm
      | none =>
        dsimp only
        have hpass := h.pass fun _ => hm
        split
        · refine ⟨hpass.found, hpass.consumedTo, hpass.settled, List.forall_mem_cons.2 ⟨?_, hpass.missed⟩⟩
          intro q window' hq hwindow' hsame
          obtain rfl : window = window' := Option.some.inj (hwindow.symm.trans hwindow')
          exact firstName_missed hI hword hq hwindow hsame hm
        · exact hpass

theorem charBefore_succ {c : Char} {l : Text} (hdrop : t.drop pos = c :: l) : charBefore t (pos + 1) = some c := by
  have hget : (t.drop pos)[0]? = some c := by rw [hdrop]; rfl
  rw [List.getElem?_drop, Nat.add_zero] at hget
  exact hget

/-- The scan of the words of the rest of a text, and the one of its positions. -/
theorem KeepsUp.run (hI : Indexes U index V) (hV : Proper V) : ∀ (l : Text) {pos : Nat} {s : ScopeScan} {p : PlainScan},
    t.drop pos = l → KeepsUp U index V t pos s p →
      KeepsUp U index V t (pos + l.length) ((wordsFrom U pos (charBefore t pos) l).foldl (scanWord U index t) s)
        ((List.range' pos l.length).foldl (tryNames U V t) p)
  | [], _, _, _, _, h => h
  | c :: l, pos, s, p, hdrop, h => by
    have hnext : t.drop (pos + 1) = l := by rw [← List.drop_drop, hdrop, List.drop_one, List.tail_cons]
    have hnames : ∀ v ∈ V, v ≠ [] ∧ ∀ c, v.head? = some c → isSpace c = false := fun v hv => ⟨hV.named v hv, hV.head v hv⟩
    have hlength : pos + (c :: l).length = pos + 1 + l.length := by rw [List.length_cons]; omega
    have hrun : ∀ {s' : ScopeScan}, KeepsUp U index V t (pos + 1) s' (tryNames U V t p pos) →
        KeepsUp U index V t (pos + 1 + l.length) ((wordsFrom U (pos + 1) (some c) l).foldl (scanWord U index t) s')
          ((List.range' (pos + 1) l.length).foldl (tryNames U V t) (tryNames U V t p pos)) := by
      intro s' h'
      have hall := KeepsUp.run hI hV l hnext h'
      rwa [charBefore_succ hdrop] at hall
    rw [hlength, List.length_cons, List.range'_succ, List.foldl_cons, wordsFrom]
    cases hc : U.isWord c with
    | true =>
      rw [if_pos rfl]
      cases hbefore : U.inWord (charBefore t pos) with
      | true =>
        rw [if_pos rfl, List.nil_append]
        exact hrun (h.pass fun _ => firstName_inside hdrop hnames (Or.inr hbefore))
      | false =>
        have htake : (t.drop pos).takeWhile U.isWord = c :: l.takeWhile U.isWord := by
          rw [hdrop, List.takeWhile_cons, if_pos hc]
        have hslice : slice t (pos, pos + (l.takeWhile U.isWord).length + 1) = c :: l.takeWhile U.isWord := by
          rw [Nat.add_assoc, slice_add, hdrop, List.take_succ_cons, ← List.prefix_iff_eq_take.1 (List.takeWhile_prefix _)]
        rw [if_neg Bool.false_ne_true, List.singleton_append, List.foldl_cons]
        exact hrun (h.word hI hV ⟨hbefore, htake, List.cons_ne_nil _ _⟩ hslice)
    | false =>
      rw [if_neg Bool.false_ne_true]
      cases hspace : isSpace c with
      | true =>
        rw [if_pos rfl, List.nil_append]
        exact hrun (h.pass fun _ => firstName_inside hdrop hnames (Or.inl hspace))
      | false =>
        rw [if_neg Bool.false_ne_true, List.singleton_append, List.foldl_cons]
        exact hrun (h.mark hI hV hdrop hc)

end

/-! ## The scan -/

/-- With the index the scan finds what it finds when it tries every name at every position. -/
theorem scopeMatches_eq_plain {names : List (Text × Text)} {index : NameIndex} (h : nameIndex U names = some index) (t : Text) :
    scopeMatches U index t = plainMatches U (scopeVariants U names) t := by
  have hI := indexes_nameIndex h
  have hV : Proper (scopeVariants U names) := ⟨hI.named, fun v hv c => scopeVariants_head hv⟩
  have hstart : KeepsUp U index (scopeVariants U names) t 0 ⟨[], 0, []⟩ ⟨[], 0⟩ :=
    ⟨rfl, rfl, fun q hq => absurd hq (Nat.not_lt_zero q), fun key hkey => absurd hkey List.not_mem_nil⟩
  have hrun := KeepsUp.run hI hV t (List.drop_zero (l := t)) hstart
  unfold scopeMatches plainMatches
  rw [scan_scopeWord, List.range_eq_range']
  exact hrun.found

/-- The matches of names that are not empty are not empty either, and stay in the text. -/
theorem mem_plainMatches {V : List Text} (hV : ∀ v ∈ V, v ≠ []) {t : Text} {m : ScopeMatch} (hm : m ∈ plainMatches U V t) :
    m.start < m.stop ∧ m.stop ≤ t.length := by
  have hrun : ∀ (positions : List Nat) (p : PlainScan), (∀ m ∈ p.found, m.start < m.stop ∧ m.stop ≤ t.length) →
      ∀ m ∈ (positions.foldl (tryNames U V t) p).found, m.start < m.stop ∧ m.stop ≤ t.length := by
    intro positions
    induction positions with
    | nil => exact fun p h => h
    | cons pos positions ih =>
      intro p h
      refine ih _ ?_
      unfold tryNames
      split
      · exact h
      · split
        · next m hm =>
          obtain ⟨v, hv, hname⟩ := List.exists_of_findSome?_eq_some hm
          obtain ⟨hlow, hhigh⟩ := nameAt_bounds hname (hV v hv)
          rw [← (nameAt_eq_some hname).2.2.2] at hlow
          exact List.forall_mem_append.2 ⟨h, List.forall_mem_singleton.2 ⟨hlow, hhigh⟩⟩
        · exact h
  exact hrun _ _ (fun m hm => absurd hm List.not_mem_nil) m hm

theorem NameIndex.enter_isSome (index : NameIndex) {v : Text} (hv : v ≠ []) : (index.enter U v).isSome := by
  obtain ⟨c, l, rfl⟩ := List.exists_cons_of_ne_nil hv
  unfold NameIndex.enter
  split
  · rfl
  · split <;> rfl

theorem foldlM_enter_isSome {V : List Text} (hV : ∀ v ∈ V, v ≠ []) (index : NameIndex) :
    (V.foldlM (NameIndex.enter U) index).isSome := by
  induction V generalizing index with
  | nil => rfl
  | cons v V ih =>
    obtain ⟨hv, hV⟩ := List.forall_mem_cons.1 hV
    obtain ⟨index₁, h₁⟩ := Option.isSome_iff_exists.1 (index.enter_isSome (U := U) hv)
    rw [List.foldlM_cons, h₁]
    exact ih hV index₁

theorem nil_mem_variants {name : Text} : [] ∈ variants name ↔ name = [] := by
  unfold variants
  split
  · next hsuffix =>
    have hlength := (List.isSuffixOf_iff_suffix.1 hsuffix).length_le
    have hsix : kanunu.length = 6 := rfl
    refine iff_of_false (fun h => ?_) fun h => by rw [h] at hlength; cases hlength
    rcases List.mem_cons.1 h with h | h
    · rw [← h] at hlength
      cases hlength
    · have hzero := congrArg List.length (List.mem_singleton.1 h)
      rw [List.length_dropLast, List.length_nil] at hzero
      omega
  · exact List.mem_singleton.trans eq_comm

theorem nil_mem_scopeVariants {names : List (Text × Text)} :
    [] ∈ scopeVariants U names ↔ [] ∈ (lawNames U names).map Prod.fst := by
  unfold scopeVariants
  rw [List.mem_flatMap, ← (orderBy_perm (fun name : Text => OrderDual.toDual name.length) _).mem_iff]
  constructor
  · rintro ⟨name, hname, hnil⟩
    exact nil_mem_variants.1 hnil ▸ hname
  · exact fun h => ⟨[], h, nil_mem_variants.2 rfl⟩

/-- A resolver is made unless a name has an empty normal form, and its scan with the index finds exactly what the scan
finds that tries every name at every position. -/
theorem scopeMatches_exact (U : Unicode) (names : List (Text × Text)) (t : Text) :
    (nameIndex U names).map (fun index => scopeMatches U index t) =
      if [] ∈ (lawNames U names).map Prod.fst then none else some (plainMatches U (scopeVariants U names) t) := by
  split
  · next hnil =>
    cases hindex : nameIndex U names with
    | none => rfl
    | some index => exact absurd rfl ((indexes_nameIndex hindex).named [] (nil_mem_scopeVariants.2 hnil))
  · next hnil =>
    have hsome : (nameIndex U names).isSome :=
      foldlM_enter_isSome (fun v hv h => hnil (nil_mem_scopeVariants.1 (h ▸ hv))) _
    obtain ⟨index, hindex⟩ := Option.isSome_iff_exists.1 hsome
    rw [hindex, Option.map_some, scopeMatches_eq_plain hindex]

end Mesa.Legal
