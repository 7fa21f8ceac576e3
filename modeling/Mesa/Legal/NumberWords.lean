/-
`parse_turkish_number`: a text of digits is read as it stands; else the words, lower-cased and cleaned of everything but
letters, are read token by token and their values folded by hundreds and by scales. The standard spelling of a number
is read back, unless it is in capital letters and has the word for sixty, whose capital letters no token has in lower
case.
-/
import Mathlib.Data.Bool.AllAny
import Mesa.Foundation.PrefixCode
import Mesa.Foundation.Rewriting
import Mesa.Rebuild.Payload

namespace Mesa.Legal

open Mesa.Foundation
open Mesa.Rebuild (isSpace strip Text)

/-! ## The parser -/

/-- `_NUM_TOKENS`. -/
def numTokens : List (Text × Nat) :=
  [("milyar", 1000000000), ("milyon", 1000000), ("bin", 1000), ("yüz", 100), ("yuz", 100), ("doksan", 90),
    ("seksen", 80), ("yetmiş", 70), ("yetmis", 70), ("altmış", 60), ("altmis", 60), ("elli", 50), ("kırk", 40),
    ("kirk", 40), ("otuz", 30), ("yirmi", 20), ("on", 10), ("dokuz", 9), ("sekiz", 8), ("yedi", 7), ("altı", 6),
    ("alti", 6), ("beş", 5), ("bes", 5), ("dört", 4), ("dort", 4), ("üç", 3), ("uc", 3), ("iki", 2),
    ("bir", 1)].map fun t => (t.1.toList, t.2)

/-- What `str.lower` makes of the letters of Turkish words. -/
def letterCases : List (Char × Text) :=
  ("abcçdefgğhıijklmnoöprsştuüvyz".toList.map fun c => (c, [c])) ++
    [('A', "a"), ('B', "b"), ('C', "c"), ('Ç', "ç"), ('D', "d"), ('E', "e"), ('F', "f"), ('G', "g"), ('Ğ', "ğ"),
      ('H', "h"), ('I', "i"), ('İ', "i̇"), ('J', "j"), ('K', "k"), ('L', "l"), ('M', "m"), ('N', "n"), ('O', "o"),
      ('Ö', "ö"), ('P', "p"), ('R', "r"), ('S', "s"), ('Ş', "ş"), ('T', "t"), ('U', "u"), ('Ü', "ü"), ('V', "v"),
      ('Y', "y"), ('Z', "z")].map fun p => (p.1, p.2.toList)

/-- The Unicode tables behind `lower`, `isdigit` and `int`, which raises where it is `none`. -/
structure LetterTables where
  lower : Char → Text
  isDigit : Char → Bool
  int : Text → Option Nat
  lower_letter : ∀ p ∈ (' ', [' ']) :: letterCases, lower p.1 = p.2
  digit_letter : ∀ p ∈ (' ', [' ']) :: letterCases, isDigit p.1 = false

/-- `[a-zçğıöşü]`. -/
def isWordLetter (c : Char) : Bool := ('a' ≤ c ∧ c ≤ 'z') ∨ c ∈ ['ç', 'ğ', 'ı', 'ö', 'ş', 'ü']

/-- `re.sub(r"[^a-zçğıöşü]", "", w)`. -/
def cleanWord (w : Text) : Text := w.filter isWordLetter

/-- The tokens of a word. -/
def wordTokens (w : Text) : Option (List Nat) := tokenize numTokens (cleanWord w).length (cleanWord w)

/-- The tokens of all words, `none` where one of them has other parts. -/
def flatTokens : List Text → Option (List Nat)
  | [] => some []
  | w :: ws => (wordTokens w).bind fun vals => (flatTokens ws).map (vals ++ ·)

structure Sum where
  total : Nat
  scaleAcc : Nat
  hundredsAcc : Nat

def Sum.add (s : Sum) (val : Nat) : Sum :=
  if val ∈ [1000000000, 1000000, 1000] then
    let num := s.scaleAcc + s.hundredsAcc
    ⟨s.total + (if num = 0 then 1 else num) * val, 0, 0⟩
  else if val = 100 then ⟨s.total, s.scaleAcc + (if 0 < s.hundredsAcc then s.hundredsAcc else 1) * 100, 0⟩
  else ⟨s.total, s.scaleAcc, s.hundredsAcc + val⟩

/-- The number that the tokens stand for. -/
def sumTokens (vals : List Nat) : Nat :=
  let s := vals.foldl Sum.add ⟨0, 0, 0⟩
  s.total + (s.scaleAcc + s.hundredsAcc)

variable (U : LetterTables)

/-- `parse_turkish_number`. -/
def parseTurkishNumber (text : Text) : Except Unit (Option Nat) :=
  let s := strip text
  if s ≠ [] ∧ s.all U.isDigit then
    match U.int s with
    | some n => .ok (some n)
    | none => .error ()
  else
    match flatTokens (words isSpace ((s.flatMap U.lower).map fun c => if c = '’' then '\'' else c)) with
    | none => .ok none
    | some vals => if vals = [] then .ok none else .ok (some (sumTokens vals))

/-! ## Spelling -/

/-- The words for units, tens and scales. -/
def standardWords : List (Nat × Text) :=
  [(1, "bir"), (2, "iki"), (3, "üç"), (4, "dört"), (5, "beş"), (6, "altı"), (7, "yedi"), (8, "sekiz"), (9, "dokuz"),
    (10, "on"), (20, "yirmi"), (30, "otuz"), (40, "kırk"), (50, "elli"), (60, "altmış"), (70, "yetmiş"), (80, "seksen"),
    (90, "doksan"), (100, "yüz"), (1000, "bin"), (1000000, "milyon"), (1000000000, "milyar")].map fun p => (p.1, p.2.toList)

/-- The parts of a number below one thousand; one hundred has no unit before it. -/
def groupParts (g : Nat) : List Nat :=
  (if g / 100 = 0 then [] else if g / 100 = 1 then [100] else [g / 100, 100]) ++
    ((if g / 10 % 10 = 0 then [] else [g / 10 % 10 * 10]) ++ if g % 10 = 0 then [] else [g % 10])

/-- A group with its scale, nothing for an empty one. -/
def scaledParts (g scale : Nat) : List Nat := if g = 0 then [] else groupParts g ++ [scale]

/-- The thousands; one thousand has no unit before it. -/
def thousandParts (g : Nat) : List Nat := if g = 1 then [1000] else scaledParts g 1000

/-- The groups of three digits of a number below a million million, the highest first. -/
def digitGroups (n : Nat) : List Nat := [n / 1000000000, n / 1000000 % 1000, n / 1000 % 1000, n % 1000]

/-- The parts of the spelling of a number, by their values. -/
def spelledParts (n : Nat) : List Nat :=
  scaledParts (n / 1000000000) 1000000000 ++ (scaledParts (n / 1000000 % 1000) 1000000 ++
    (thousandParts (n / 1000 % 1000) ++ groupParts (n % 1000)))

def wordOf (val : Nat) : Text := ((standardWords.find? fun p => decide (p.1 = val)).map Prod.snd).getD []

/-- A capital letter of Turkish; the capital letter of `i` keeps its dot, the one of `ı` has none. -/
def turkishUpper (c : Char) : Char :=
  (([('i', 'İ'), ('ı', 'I'), ('ç', 'Ç'), ('ğ', 'Ğ'), ('ö', 'Ö'), ('ş', 'Ş'), ('ü', 'Ü')].find? fun p => decide (p.1 = c)).map
    Prod.snd).getD c.toUpper

def cased (upper : Bool) (w : Text) : Text := if upper then w.map turkishUpper else w

/-- A spelling of the number: its words, some written together, one space between the others. -/
def IsSpelling (n : Nat) (upper : Bool) (text : Text) : Prop :=
  ∃ chunks : List (List Nat), (∀ chunk ∈ chunks, chunk ≠ []) ∧ chunks.flatten = spelledParts n ∧
    text = [' '].intercalate (chunks.map fun chunk => cased upper (chunk.map wordOf).flatten)

/-! ## The sum of a spelling -/

theorem foldl_groupParts {g : Nat} (hg : g < 1000) (total : Nat) :
    (groupParts g).foldl Sum.add ⟨total, 0, 0⟩ = ⟨total, g / 100 * 100, g % 100⟩ := by
  have hsmall : ∀ s : Sum, ∀ val, val ≠ 100 → val < 1000 → s.add val = ⟨s.total, s.scaleAcc, s.hundredsAcc + val⟩ := by
    intro s val hval hlt
    unfold Sum.add
    rw [if_neg (by simp only [List.mem_cons, List.not_mem_nil, or_false]; omega), if_neg hval]
  have hhundreds : (if g / 100 = 0 then [] else if g / 100 = 1 then [100] else [g / 100, 100]).foldl Sum.add ⟨total, 0, 0⟩ =
      ⟨total, g / 100 * 100, 0⟩ := by
    by_cases hzero : g / 100 = 0
    · rw [if_pos hzero, hzero]
      rfl
    by_cases hone : g / 100 = 1
    · rw [if_neg hzero, if_pos hone, hone]
      rfl
    · rw [if_neg hzero, if_neg hone, List.foldl_cons, hsmall _ _ (by omega) (by omega), List.foldl_cons, List.foldl_nil]
      unfold Sum.add
      rw [if_neg (by decide), if_pos rfl, if_pos (by dsimp only; omega)]
      dsimp only
      rw [Nat.zero_add, Nat.zero_add]
  have htens : ∀ s : Sum, (if g / 10 % 10 = 0 then [] else [g / 10 % 10 * 10]).foldl Sum.add s =
      ⟨s.total, s.scaleAcc, s.hundredsAcc + g / 10 % 10 * 10⟩ := by
    intro s
    by_cases hzero : g / 10 % 10 = 0
    · rw [if_pos hzero, hzero]
      rfl
    · rw [if_neg hzero, List.foldl_cons, List.foldl_nil, hsmall _ _ (by omega) (by omega)]
  have hunits : ∀ s : Sum, (if g % 10 = 0 then [] else [g % 10]).foldl Sum.add s =
      ⟨s.total, s.scaleAcc, s.hundredsAcc + g % 10⟩ := by
    intro s
    by_cases hzero : g % 10 = 0
    · rw [if_pos hzero, hzero]
      rfl
    · rw [if_neg hzero, List.foldl_cons, List.foldl_nil, hsmall _ _ (by omega) (by omega)]
  unfold groupParts
  rw [List.foldl_append, List.foldl_append, hhundreds, htens, hunits]
  dsimp only
  congr 1
  omega

theorem add_scale {scale : Nat} (hscale : scale ∈ [1000000000, 1000000, 1000]) {g : Nat} (hpos : g ≠ 0) (total : Nat) :
    Sum.add ⟨total, g / 100 * 100, g % 100⟩ scale = ⟨total + g * scale, 0, 0⟩ := by
  have hsum : g / 100 * 100 + g % 100 = g := by omega
  unfold Sum.add
  rw [if_pos hscale]
  dsimp only
  rw [hsum, if_neg hpos]

theorem foldl_scaledParts {scale : Nat} (hscale : scale ∈ [1000000000, 1000000, 1000]) {g : Nat} (hg : g < 1000)
    (total : Nat) : (scaledParts g scale).foldl Sum.add ⟨total, 0, 0⟩ = ⟨total + g * scale, 0, 0⟩ := by
  unfold scaledParts
  by_cases hzero : g = 0
  · rw [if_pos hzero, hzero, Nat.zero_mul]
    rfl
  · rw [if_neg hzero, List.foldl_append, foldl_groupParts hg, List.foldl_cons, List.foldl_nil, add_scale hscale hzero]

theorem foldl_thousandParts {g : Nat} (hg : g < 1000) (total : Nat) :
    (thousandParts g).foldl Sum.add ⟨total, 0, 0⟩ = ⟨total + g * 1000, 0, 0⟩ := by
  unfold thousandParts
  by_cases hone : g = 1
  · rw [if_pos hone, hone]
    rfl
  · rw [if_neg hone, foldl_scaledParts (by decide) hg]

/-- The parts of a spelling sum up to the number. -/
theorem sumTokens_spelledParts {n : Nat} (h : n < 1000000000000) : sumTokens (spelledParts n) = n := by
  unfold sumTokens spelledParts
  rw [List.foldl_append, foldl_scaledParts (by decide) (by omega), List.foldl_append, foldl_scaledParts (by decide) (by omega),
    List.foldl_append, foldl_thousandParts (by omega), foldl_groupParts (by omega)]
  dsimp only
  omega

theorem mem_standardWords {n : Nat} (h : n < 1000000000000) {val : Nat} (hval : val ∈ spelledParts n) :
    val ∈ standardWords.map Prod.fst := by
  have hunit : ∀ d < 10, d ≠ 0 → d ∈ standardWords.map Prod.fst := by decide
  have hten : ∀ d < 10, d ≠ 0 → d * 10 ∈ standardWords.map Prod.fst := by decide
  have hgroup : ∀ g < 1000, val ∈ groupParts g → val ∈ standardWords.map Prod.fst := by
    intro g hg hmem
    rcases List.mem_append.1 hmem with hmem | hmem
    · split at hmem
      · cases hmem
      split at hmem
      · rw [List.mem_singleton.1 hmem]
        decide
      · rcases List.mem_cons.1 hmem with rfl | hmem
        · exact hunit _ (by omega) (by assumption)
        · rw [List.mem_singleton.1 hmem]
          decide
    rcases List.mem_append.1 hmem with hmem | hmem
    · split at hmem
      · cases hmem
      · rw [List.mem_singleton.1 hmem]
        exact hten _ (by omega) (by assumption)
    · split at hmem
      · cases hmem
      · rw [List.mem_singleton.1 hmem]
        exact hunit _ (by omega) (by assumption)
  have hscaled : ∀ scale ∈ [1000000000, 1000000, 1000], ∀ g < 1000, val ∈ scaledParts g scale →
      val ∈ standardWords.map Prod.fst := by
    intro scale hscale g hg hmem
    unfold scaledParts at hmem
    split at hmem
    · cases hmem
    rcases List.mem_append.1 hmem with hmem | hmem
    · exact hgroup g hg hmem
    · rw [List.mem_singleton.1 hmem]
      have hall : ∀ scale ∈ [1000000000, 1000000, 1000], scale ∈ standardWords.map Prod.fst := by decide
      exact hall scale hscale
  unfold spelledParts at hval
  rcases List.mem_append.1 hval with hval | hval
  · exact hscaled _ (by decide) _ (by omega) hval
  rcases List.mem_append.1 hval with hval | hval
  · exact hscaled _ (by decide) _ (by omega) hval
  rcases List.mem_append.1 hval with hval | hval
  · unfold thousandParts at hval
    split at hval
    · rw [List.mem_singleton.1 hval]
      decide
    · exact hscaled _ (by decide) _ (by omega) hval
  · exact hgroup _ (by omega) hval

/-- The word for sixty is in a spelling where the tens of a group are six. -/
theorem sixty_mem_spelledParts {n : Nat} (h : n < 1000000000000) :
    60 ∈ spelledParts n ↔ ∃ g ∈ digitGroups n, g / 10 % 10 = 6 := by
  have hgroup : ∀ g < 1000, 60 ∈ groupParts g ↔ g / 10 % 10 = 6 := by
    intro g hg
    unfold groupParts
    rw [List.mem_append, List.mem_append]
    have hhundreds : 60 ∉ (if g / 100 = 0 then [] else if g / 100 = 1 then [100] else [g / 100, 100]) := by
      split
      · exact List.not_mem_nil
      split
      · decide
      · simp only [List.mem_cons, List.not_mem_nil, or_false]
        omega
    have htens : 60 ∈ (if g / 10 % 10 = 0 then [] else [g / 10 % 10 * 10]) ↔ g / 10 % 10 = 6 := by
      split
      · simp only [List.not_mem_nil, false_iff]
        omega
      · rw [List.mem_singleton]
        omega
    have hunits : 60 ∉ (if g % 10 = 0 then [] else [g % 10]) := by
      split
      · exact List.not_mem_nil
      · rw [List.mem_singleton]
        omega
    tauto
  have hscaled : ∀ scale ∈ [1000000000, 1000000, 1000], ∀ g < 1000, 60 ∈ scaledParts g scale ↔ g / 10 % 10 = 6 := by
    intro scale hscale g hg
    have hne : 60 ≠ scale := by
      rintro rfl
      revert hscale
      decide
    unfold scaledParts
    split
    · next hzero =>
      subst hzero
      simp
    · rw [List.mem_append, hgroup g hg, List.mem_singleton, or_iff_left hne]
  have hthousand : ∀ g < 1000, 60 ∈ thousandParts g ↔ g / 10 % 10 = 6 := by
    intro g hg
    unfold thousandParts
    split
    · next hone =>
      subst hone
      decide
    · exact hscaled 1000 (by decide) g hg
  unfold spelledParts digitGroups
  rw [List.mem_append, List.mem_append, List.mem_append, hscaled _ (by decide) _ (by omega), hscaled _ (by decide) _ (by omega),
    hthousand _ (by omega), hgroup _ (by omega)]
  simp only [List.mem_cons, List.not_mem_nil, or_false, exists_eq_or_imp, exists_eq_left]

/-! ## Reading the words -/

/-- What `lower` makes of a letter. -/
def lowerLetter (c : Char) : Text := (((letterCases.find? fun p => decide (p.1 = c)).map Prod.snd).getD [])

/-- The word as it is compared with the tokens. -/
def readWord (upper : Bool) (val : Nat) : Text := cleanWord ((cased upper (wordOf val)).flatMap lowerLetter)

-- The tables with their texts as lists: evaluation would take the texts apart again and again.
theorem numTokens_eq : numTokens =
    [(['m', 'i', 'l', 'y', 'a', 'r'], 1000000000), (['m', 'i', 'l', 'y', 'o', 'n'], 1000000),
     (['b', 'i', 'n'], 1000), (['y', 'ü', 'z'], 100), (['y', 'u', 'z'], 100),
     (['d', 'o', 'k', 's', 'a', 'n'], 90), (['s', 'e', 'k', 's', 'e', 'n'], 80),
     (['y', 'e', 't', 'm', 'i', 'ş'], 70), (['y', 'e', 't', 'm', 'i', 's'], 70),
     (['a', 'l', 't', 'm', 'ı', 'ş'], 60), (['a', 'l', 't', 'm', 'i', 's'], 60), (['e', 'l', 'l', 'i'], 50),
     (['k', 'ı', 'r', 'k'], 40), (['k', 'i', 'r', 'k'], 40), (['o', 't', 'u', 'z'], 30),
     (['y', 'i', 'r', 'm', 'i'], 20), (['o', 'n'], 10), (['d', 'o', 'k', 'u', 'z'], 9),
     (['s', 'e', 'k', 'i', 'z'], 8), (['y', 'e', 'd', 'i'], 7), (['a', 'l', 't', 'ı'], 6),
     (['a', 'l', 't', 'i'], 6), (['b', 'e', 'ş'], 5), (['b', 'e', 's'], 5), (['d', 'ö', 'r', 't'], 4),
     (['d', 'o', 'r', 't'], 4), (['ü', 'ç'], 3), (['u', 'c'], 3), (['i', 'k', 'i'], 2), (['b', 'i', 'r'], 1)] := by
  simp only [numTokens, List.map_cons, List.map_nil, String.reduceToList]

theorem standardWords_eq : standardWords =
    [(1, ['b', 'i', 'r']), (2, ['i', 'k', 'i']), (3, ['ü', 'ç']), (4, ['d', 'ö', 'r', 't']),
     (5, ['b', 'e', 'ş']), (6, ['a', 'l', 't', 'ı']), (7, ['y', 'e', 'd', 'i']), (8, ['s', 'e', 'k', 'i', 'z']),
     (9, ['d', 'o', 'k', 'u', 'z']), (10, ['o', 'n']), (20, ['y', 'i', 'r', 'm', 'i']),
     (30, ['o', 't', 'u', 'z']), (40, ['k', 'ı', 'r', 'k']), (50, ['e', 'l', 'l', 'i']),
     (60, ['a', 'l', 't', 'm', 'ı', 'ş']), (70, ['y', 'e', 't', 'm', 'i', 'ş']),
     (80, ['s', 'e', 'k', 's', 'e', 'n']), (90, ['d', 'o', 'k', 's', 'a', 'n']), (100, ['y', 'ü', 'z']),
     (1000, ['b', 'i', 'n']), (1000000, ['m', 'i', 'l', 'y', 'o', 'n']),
     (1000000000, ['m', 'i', 'l', 'y', 'a', 'r'])] := by
  simp only [standardWords, List.map_cons, List.map_nil, String.reduceToList]

theorem letterCases_eq : letterCases =
    [('a', ['a']), ('b', ['b']), ('c', ['c']), ('ç', ['ç']), ('d', ['d']), ('e', ['e']), ('f', ['f']),
     ('g', ['g']), ('ğ', ['ğ']), ('h', ['h']), ('ı', ['ı']), ('i', ['i']), ('j', ['j']), ('k', ['k']),
     ('l', ['l']), ('m', ['m']), ('n', ['n']), ('o', ['o']), ('ö', ['ö']), ('p', ['p']), ('r', ['r']),
     ('s', ['s']), ('ş', ['ş']), ('t', ['t']), ('u', ['u']), ('ü', ['ü']), ('v', ['v']), ('y', ['y']),
     ('z', ['z']), ('A', ['a']), ('B', ['b']), ('C', ['c']), ('Ç', ['ç']), ('D', ['d']), ('E', ['e']),
     ('F', ['f']), ('G', ['g']), ('Ğ', ['ğ']), ('H', ['h']), ('I', ['i']), ('İ', ['i', '̇']), ('J', ['j']),
     ('K', ['k']), ('L', ['l']), ('M', ['m']), ('N', ['n']), ('O', ['o']), ('Ö', ['ö']), ('P', ['p']),
     ('R', ['r']), ('S', ['s']), ('Ş', ['ş']), ('T', ['t']), ('U', ['u']), ('Ü', ['ü']), ('V', ['v']),
     ('Y', ['y']), ('Z', ['z'])] := by
  have hlower : "abcçdefgğhıijklmnoöprsştuüvyz".toList = ['a', 'b', 'c', 'ç', 'd', 'e', 'f', 'g', 'ğ', 'h', 'ı', 'i', 'j',
      'k', 'l', 'm', 'n', 'o', 'ö', 'p', 'r', 's', 'ş', 't', 'u', 'ü', 'v', 'y', 'z'] := String.toList_ofList
  unfold letterCases
  simp only [hlower, List.map_cons, List.map_nil, String.reduceToList, List.cons_append, List.nil_append]

theorem numTokens_isPrefixCode : IsPrefixCode numTokens := by
  rw [numTokens_eq]
  exact ⟨by decide, by decide⟩

/-- In lower case every word is a token, and in capital letters every one but the word for sixty. -/
theorem readWord_mem : ∀ val ∈ standardWords.map Prod.fst, ∀ upper, (upper = true → val ≠ 60) →
    (readWord upper val, val) ∈ numTokens := by
  unfold readWord wordOf lowerLetter
  rw [numTokens_eq, standardWords_eq, letterCases_eq]
  decide

theorem readWord_sixty : readWord true 60 ≠ [] ∧ ∀ t ∈ numTokens, ¬ Comparable t.1 (readWord true 60) := by
  unfold readWord wordOf lowerLetter
  rw [numTokens_eq, standardWords_eq, letterCases_eq]
  decide

/-- The letters of the words. -/
theorem letters_cased : ∀ val ∈ standardWords.map Prod.fst, ∀ upper, ∀ c ∈ cased upper (wordOf val),
    c ∈ letterCases.map Prod.fst := by
  have hall : ∀ val ∈ standardWords.map Prod.fst, ∀ upper,
      (cased upper (wordOf val)).all fun c => c ∈ letterCases.map Prod.fst := by
    unfold wordOf
    rw [standardWords_eq, letterCases_eq]
    decide
  exact fun val hval upper => List.all_iff_forall_prop.1 (hall val hval upper)

theorem wordOf_ne_nil : ∀ val ∈ standardWords.map Prod.fst, ∀ upper, cased upper (wordOf val) ≠ [] := by
  unfold wordOf
  rw [standardWords_eq]
  decide

theorem letterCases_plain : ∀ p ∈ letterCases, isSpace p.1 = false ∧ p.2 ≠ [] ∧
    (p.2.map fun c => if c = '’' then '\'' else c) = p.2 ∧ (∀ c ∈ p.2, isSpace c = false) ∧ lowerLetter p.1 = p.2 := by
  have hall : ∀ p ∈ letterCases, isSpace p.1 = false ∧ p.2 ≠ [] ∧
      (p.2.map fun c => if c = '’' then '\'' else c) = p.2 ∧ (p.2.all fun c => isSpace c = false) ∧
      lowerLetter p.1 = p.2 := by
    unfold lowerLetter
    rw [letterCases_eq]
    decide
  intro p hp
  obtain ⟨hspace, hne, hquote, hspaces, hlower⟩ := hall p hp
  exact ⟨hspace, hne, hquote, List.all_iff_forall_prop.1 hspaces, hlower⟩

/-! ## Reading a spelling -/

section Reading

variable {U} {upper : Bool} {chunk : List Nat}

/-- Every character of the text is lower-cased and loses its typographic apostrophe. -/
def lowered (U : LetterTables) (t : Text) : Text := t.flatMap fun c => (U.lower c).map fun c => if c = '’' then '\'' else c

theorem lowered_letter {c : Char} (hc : c ∈ letterCases.map Prod.fst) :
    (U.lower c).map (fun c => if c = '’' then '\'' else c) = lowerLetter c := by
  obtain ⟨p, hp, rfl⟩ := List.mem_map.1 hc
  obtain ⟨-, -, hplain, -, hlower⟩ := letterCases_plain p hp
  rw [U.lower_letter p (List.mem_cons_of_mem _ hp), hplain, hlower]

/-- The written form of words without a space between them. -/
def written (upper : Bool) (chunk : List Nat) : Text := cased upper (chunk.map wordOf).flatten

theorem written_eq (upper : Bool) (chunk : List Nat) : written upper chunk = chunk.flatMap fun val => cased upper (wordOf val) := by
  unfold written cased
  cases upper with
  | false => rfl
  | true => simp [List.map_flatten, List.flatMap, Function.comp_def]

theorem letters_written (upper : Bool) (h : ∀ val ∈ chunk, val ∈ standardWords.map Prod.fst) :
    ∀ c ∈ written upper chunk, c ∈ letterCases.map Prod.fst := by
  intro c hc
  rw [written_eq] at hc
  obtain ⟨val, hval, hc⟩ := List.mem_flatMap.1 hc
  exact letters_cased val (h val hval) upper c hc

theorem written_ne_nil (upper : Bool) (hne : chunk ≠ []) (h : ∀ val ∈ chunk, val ∈ standardWords.map Prod.fst) : written upper chunk ≠ [] := by
  obtain ⟨val, hval⟩ := List.exists_mem_of_ne_nil chunk hne
  rw [written_eq]
  intro hnil
  exact wordOf_ne_nil val (h val hval) upper (List.flatMap_eq_nil_iff.1 hnil val hval)

theorem clean_lowered (h : ∀ val ∈ chunk, val ∈ standardWords.map Prod.fst) :
    cleanWord (lowered U (written upper chunk)) = chunk.flatMap (readWord upper) := by
  have hletters := letters_written upper h
  have hlower : lowered U (written upper chunk) = (written upper chunk).flatMap lowerLetter :=
    List.flatMap_congr fun c hc => lowered_letter (hletters c hc)
  rw [hlower, written_eq, List.flatMap_assoc]
  unfold cleanWord
  rw [List.filter_flatMap]
  rfl

/-- Words that all are tokens are read as their values. -/
theorem wordTokens_some (h : ∀ val ∈ chunk, val ∈ standardWords.map Prod.fst) (hsixty : upper = true → 60 ∉ chunk) :
    wordTokens (lowered U (written upper chunk)) = some chunk := by
  have htokens : ∀ t ∈ chunk.map fun val => (readWord upper val, val), t ∈ numTokens := by
    intro t ht
    obtain ⟨val, hval, rfl⟩ := List.mem_map.1 ht
    refine readWord_mem val (h val hval) upper fun hupper heq => ?_
    exact hsixty hupper (heq ▸ hval)
  have hwords : (chunk.map fun val => (readWord upper val, val)).map Prod.fst = chunk.map (readWord upper) := by
    rw [List.map_map]
    rfl
  have hread := tokenize_flatten numTokens_isPrefixCode htokens le_rfl
  rw [hwords, List.map_map, Function.comp_def, List.map_id'] at hread
  unfold wordTokens
  rw [clean_lowered h]
  exact hread

/-- With the word for sixty in capital letters they are not read. -/
theorem wordTokens_none (h : ∀ val ∈ chunk, val ∈ standardWords.map Prod.fst) (hsixty : 60 ∈ chunk) :
    wordTokens (lowered U (written true chunk)) = none := by
  obtain ⟨front, back, hchunk, hnot⟩ := List.eq_append_cons_of_mem hsixty
  have htokens : ∀ t ∈ front.map fun val => (readWord true val, val), t ∈ numTokens := by
    intro t ht
    obtain ⟨val, hval, rfl⟩ := List.mem_map.1 ht
    refine readWord_mem val (h val (by rw [hchunk]; exact List.mem_append_left _ hval)) true fun _ heq => ?_
    exact hnot (heq ▸ hval)
  have hwords : ((front.map fun val => (readWord true val, val)).map Prod.fst).flatten = front.flatMap (readWord true) := by
    rw [List.map_map]
    rfl
  unfold wordTokens
  rw [clean_lowered h, hchunk, List.flatMap_append, List.flatMap_cons, ← hwords]
  exact tokenize_stuck numTokens_isPrefixCode readWord_sixty.1 readWord_sixty.2 _ _ htokens

theorem flatTokens_some : ∀ {chunks : List (List Nat)}, (∀ val ∈ chunks.flatten, val ∈ standardWords.map Prod.fst) →
    (upper = true → 60 ∉ chunks.flatten) →
    flatTokens (chunks.map fun chunk => lowered U (written upper chunk)) = some chunks.flatten
  | [], _, _ => rfl
  | chunk :: chunks, h, hsixty => by
    rw [List.flatten_cons] at h hsixty
    have hchunk := wordTokens_some (U := U) (fun val hval => h val (List.mem_append_left _ hval))
      fun hupper hmem => hsixty hupper (List.mem_append_left _ hmem)
    have hvals : ∀ val ∈ chunks.flatten, val ∈ standardWords.map Prod.fst := fun val hval =>
      h val (List.mem_append_right _ hval)
    have hrest := flatTokens_some hvals
      fun hupper hmem => hsixty hupper (List.mem_append_right _ hmem)
    rw [List.map_cons, flatTokens, hchunk, Option.bind_some, hrest]
    rfl

theorem flatTokens_none : ∀ {chunks : List (List Nat)}, (∀ val ∈ chunks.flatten, val ∈ standardWords.map Prod.fst) →
    60 ∈ chunks.flatten → flatTokens (chunks.map fun chunk => lowered U (written true chunk)) = none
  | [], _, hsixty => absurd hsixty List.not_mem_nil
  | chunk :: chunks, h, hsixty => by
    rw [List.flatten_cons] at h hsixty
    have hchunk : ∀ val ∈ chunk, val ∈ standardWords.map Prod.fst := fun val hval => h val (List.mem_append_left _ hval)
    rw [List.map_cons, flatTokens]
    by_cases hmem : 60 ∈ chunk
    · rw [wordTokens_none hchunk hmem]
      rfl
    · have hvals : ∀ val ∈ chunks.flatten, val ∈ standardWords.map Prod.fst := fun val hval =>
        h val (List.mem_append_right _ hval)
      have hrest := flatTokens_none hvals ((List.mem_append.1 hsixty).resolve_left hmem)
      rw [wordTokens_some hchunk fun _ => hmem, Option.bind_some, hrest]
      rfl

theorem flatMap_intercalate {f : Char → Text} (hspace : f ' ' = [' ']) : ∀ parts : List Text,
    ([' '].intercalate parts).flatMap f = [' '].intercalate (parts.map fun part => part.flatMap f)
  | [] => rfl
  | [part] => by simp
  | part :: next :: parts => by
    have ih := flatMap_intercalate hspace (next :: parts)
    rw [List.map_cons] at ih
    rw [List.map_cons, List.map_cons, List.intercalate_cons_cons, List.intercalate_cons_cons, List.flatMap_append,
      List.flatMap_append, ih, List.flatMap_singleton, hspace]

theorem mem_intercalate {part : Text} {c : Char} (hc : c ∈ part) : ∀ {parts : List Text}, part ∈ parts →
    c ∈ [' '].intercalate parts
  | [], h => absurd h List.not_mem_nil
  | [_], h => by
    rw [List.intercalate_singleton, ← List.mem_singleton.1 h]
    exact hc
  | first :: next :: parts, h => by
    rw [List.intercalate_cons_cons]
    rcases List.mem_cons.1 h with rfl | h
    · exact List.mem_append_left _ (List.mem_append_left _ hc)
    · exact List.mem_append_right _ (mem_intercalate hc h)

theorem tight_intercalate {parts : List Text} (hne : parts ≠ []) (h : ∀ part ∈ parts, Tight isSpace part) :
    Tight isSpace ([' '].intercalate parts) := by
  induction parts with
  | nil => exact absurd rfl hne
  | cons part parts ih =>
    cases parts with
    | nil =>
      rw [List.intercalate_singleton]
      exact h part List.mem_cons_self
    | cons next parts =>
      rw [List.intercalate_cons_cons]
      exact (h part List.mem_cons_self).around
        (ih (List.cons_ne_nil _ _) fun p hp => h p (List.mem_cons_of_mem _ hp)) [' ']

theorem tight_written (hne : chunk ≠ []) (h : ∀ val ∈ chunk, val ∈ standardWords.map Prod.fst) :
    Tight isSpace (written upper chunk) := by
  have hspace : ∀ c ∈ written upper chunk, ¬ isSpace c = true := by
    intro c hc
    obtain ⟨p, hp, rfl⟩ := List.mem_map.1 (letters_written _ h c hc)
    rw [(letterCases_plain p hp).1]
    exact Bool.false_ne_true
  have hfilled := written_ne_nil upper hne h
  exact ⟨hfilled, List.dropWhile_eq_self_iff.2 fun hlength => hspace _ (List.getElem_mem hlength),
    List.rdropWhile_eq_self_iff.2 fun hfilled => hspace _ (List.getLast_mem hfilled)⟩

theorem lowered_written (hne : chunk ≠ []) (h : ∀ val ∈ chunk, val ∈ standardWords.map Prod.fst) :
    lowered U (written upper chunk) ≠ [] ∧ ∀ c ∈ lowered U (written upper chunk), isSpace c = false := by
  have hletter : ∀ c ∈ written upper chunk, ∃ p ∈ letterCases,
      (U.lower c).map (fun c => if c = '’' then '\'' else c) = p.2 := by
    intro c hc
    have hcase := letters_written _ h c hc
    rw [lowered_letter hcase]
    obtain ⟨p, hp, rfl⟩ := List.mem_map.1 hcase
    exact ⟨p, hp, (letterCases_plain p hp).2.2.2.2⟩
  refine ⟨fun hnil => ?_, fun c hc => ?_⟩
  · obtain ⟨c, hc⟩ := List.exists_mem_of_ne_nil _ (written_ne_nil upper hne h)
    obtain ⟨p, hp, heq⟩ := hletter c hc
    exact (letterCases_plain p hp).2.1 (heq.symm.trans (List.flatMap_eq_nil_iff.1 hnil c hc))
  · obtain ⟨d, hd, hc⟩ := List.mem_flatMap.1 hc
    obtain ⟨p, hp, heq⟩ := hletter d hd
    rw [heq] at hc
    exact (letterCases_plain p hp).2.2.2.1 c hc

/-- A text of written words is read by the tokens of its words. -/
theorem parseTurkishNumber_written (upper : Bool) (U : LetterTables) {chunks : List (List Nat)} (hne : chunks ≠ [])
    (hfilled : ∀ chunk ∈ chunks, chunk ≠ []) (h : ∀ val ∈ chunks.flatten, val ∈ standardWords.map Prod.fst) :
    parseTurkishNumber U ([' '].intercalate (chunks.map (written upper))) =
      match flatTokens (chunks.map fun chunk => lowered U (written upper chunk)) with
      | none => .ok none
      | some vals => if vals = [] then .ok none else .ok (some (sumTokens vals)) := by
  have hchunk : ∀ chunk ∈ chunks, ∀ val ∈ chunk, val ∈ standardWords.map Prod.fst := fun chunk hchunk val hval =>
    h val (List.mem_flatten.2 ⟨chunk, hchunk, hval⟩)
  have htight : Tight isSpace ([' '].intercalate (chunks.map (written upper))) := by
    refine tight_intercalate (fun hnil => hne (List.map_eq_nil_iff.1 hnil)) fun part hpart => ?_
    obtain ⟨chunk, hmem, rfl⟩ := List.mem_map.1 hpart
    exact tight_written (hfilled chunk hmem) (hchunk chunk hmem)
  have hdigits : ([' '].intercalate (chunks.map (written upper))).all U.isDigit = false := by
    obtain ⟨chunk, hmem⟩ := List.exists_mem_of_ne_nil _ hne
    obtain ⟨c, hc⟩ := List.exists_mem_of_ne_nil _ (written_ne_nil upper (hfilled chunk hmem) (hchunk chunk hmem))
    obtain ⟨p, hp, rfl⟩ := List.mem_map.1 (letters_written _ (hchunk chunk hmem) c hc)
    refine List.all_eq_false.2 ⟨p.1, mem_intercalate hc (List.mem_map_of_mem hmem), ?_⟩
    rw [U.digit_letter p (List.mem_cons_of_mem _ hp)]
    exact Bool.false_ne_true
  have hspace : (U.lower ' ').map (fun c => if c = '’' then '\'' else c) = [' '] := by
    rw [U.lower_letter (' ', [' ']) List.mem_cons_self]
    decide
  have hwords : words isSpace ((([' '].intercalate (chunks.map (written upper))).flatMap U.lower).map
      fun c => if c = '’' then '\'' else c) = chunks.map fun chunk => lowered U (written upper chunk) := by
    rw [List.map_flatMap, flatMap_intercalate hspace, List.map_map]
    refine words_intercalate (by decide) fun w hw => ?_
    obtain ⟨chunk, hmem, rfl⟩ := List.mem_map.1 hw
    exact lowered_written (hfilled chunk hmem) (hchunk chunk hmem)
  have hstrip : strip ([' '].intercalate (chunks.map (written upper))) = [' '].intercalate (chunks.map (written upper)) :=
    trimBy_tight htight
  unfold parseTurkishNumber
  dsimp only
  rw [hstrip, if_neg (by rw [hdigits]; simp), hwords]

/-- The standard spelling of a number is read back exactly when it is in lower case or no group of three digits has
six tens. -/
theorem parseTurkishNumber_spelling (U : LetterTables) {n : Nat} (hpos : 1 ≤ n) (hlt : n < 1000000000000) {upper : Bool}
    {text : Text} (h : IsSpelling n upper text) :
    parseTurkishNumber U text = .ok (some n) ↔ (upper = true → ∀ g ∈ digitGroups n, g / 10 % 10 ≠ 6) := by
  obtain ⟨chunks, hfilled, hparts, rfl⟩ := h
  have hvals : ∀ val ∈ chunks.flatten, val ∈ standardWords.map Prod.fst := by
    rw [hparts]
    exact fun val => mem_standardWords hlt
  have hsum := sumTokens_spelledParts hlt
  have hsome : spelledParts n ≠ [] := by
    intro hnil
    rw [hnil] at hsum
    have hzero : sumTokens [] = 0 := rfl
    omega
  have hne : chunks ≠ [] := by
    rintro rfl
    exact hsome hparts.symm
  have hread := parseTurkishNumber_written upper U hne hfilled hvals
  have hsixty : (upper = true → ∀ g ∈ digitGroups n, g / 10 % 10 ≠ 6) ↔ (upper = true → 60 ∉ chunks.flatten) := by
    rw [hparts, sixty_mem_spelledParts hlt]
    simp only [not_exists, not_and, ne_eq]
  rw [hsixty]
  change parseTurkishNumber U ([' '].intercalate (chunks.map (written upper))) = _ ↔ _
  rw [hread]
  constructor
  · intro hok hupper hmem
    subst hupper
    rw [flatTokens_none hvals hmem] at hok
    cases hok
  · intro hnot
    rw [flatTokens_some hvals hnot]
    dsimp only
    rw [hparts, if_neg hsome, hsum]

end Reading

/-! ## Sixty in capital letters -/

/-- Tables that know the letters and the decimal digits. -/
def plainTables : LetterTables where
  lower c := (((' ', [' ']) :: letterCases).find? fun p => decide (p.1 = c)).elim [c] Prod.snd
  isDigit := Char.isDigit
  int s := some (s.foldl (fun n c => 10 * n + (c.toNat - '0'.toNat)) 0)
  lower_letter := by decide +kernel
  digit_letter := by decide +kernel

theorem parseTurkishNumber_spelling_twentyOne :
    parseTurkishNumber plainTables "YİRMİ BİR".toList = .ok (some 21) ↔ (true = true → ∀ g ∈ digitGroups 21, g / 10 % 10 ≠ 6) :=
  parseTurkishNumber_spelling plainTables (by decide) (by decide) ⟨[[20], [1]], by decide, by decide, by decide +kernel⟩

/-- The capital letters of sixty are a spelling of it, and are not read. -/
theorem altmis_unread : IsSpelling 60 true "ALTMIŞ".toList ∧ parseTurkishNumber plainTables "ALTMIŞ".toList = .ok none :=
  ⟨⟨[[60]], by decide, by decide, by decide +kernel⟩, by decide +kernel⟩

end Mesa.Legal
