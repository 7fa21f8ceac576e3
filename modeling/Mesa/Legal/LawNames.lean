/-
Normal forms of the text of laws and of their names: Turkish letters are folded, `k.` is spelled out, and the words stand
one blank apart.
-/
import Mathlib.Data.Bool.AllAny
import Mesa.Foundation.Rewriting
import Mesa.Rebuild.Payload

namespace Mesa.Legal

open Mesa.Foundation
open Mesa.Rebuild (isSpace Text)

/-! ## Characters -/

/-- The letters and the marks that the patterns name. -/
def namedLetters : Text := "abcçdefgğhıijklmnoöprsştuüvyz0123456789".toList

def namedMarks : Text := ['\'', '’', '.', ',', ';', '-', '–', '—', '|']

/-- The Unicode tables behind `\w`, `unicodedata.normalize` and `lower`. -/
structure Unicode where
  isAlnum : Char → Bool
  nfc : Text → Text
  nfkc : Text → Text
  lower : Text → Text
  alnum_letter : ∀ c ∈ namedLetters, isAlnum c = true
  alnum_mark : ∀ c ∈ namedMarks, isAlnum c = false
  alnum_space : ∀ c, isSpace c = true → isAlnum c = false

/-- Tables of the letters that the patterns name. -/
def namedUnicode : Unicode where
  isAlnum c := decide (c ∈ namedLetters)
  nfc := id
  nfkc := id
  lower t := t.map Char.toLower
  alnum_letter _ h := decide_eq_true h
  alnum_mark := List.all_iff_forall_prop.1 (by decide)
  alnum_space := by
    intro c hc
    rw [decide_eq_false_iff_not]
    intro hmem
    have hplain : ∀ c ∈ namedLetters, isSpace c = false := List.all_iff_forall_prop.1 (by decide)
    rw [hplain c hmem] at hc
    cases hc

variable (U : Unicode)

/-- `\w`. -/
def Unicode.isWord (c : Char) : Bool := U.isAlnum c || c = '_'

/-- Whether a character is there and is one of a word. -/
def Unicode.inWord (c : Option Char) : Bool := c.any U.isWord

/-! ## Normal forms -/

/-- A dot above that follows an `i`. -/
def dottedI (l : Text) : Option Nat := if ['i', '\u0307'].isPrefixOf l then some 2 else none

/-- The replacement of the capital letters of `i` and `ı`. -/
def foldCapital (c : Char) : Char := if c = 'İ' then 'i' else if c = 'I' then 'ı' else c

/-- `normalize_turkish`. -/
def normalizeTurkish (text : Text) : Text :=
  if text = [] then [] else U.lower (U.nfkc (substitute dottedI ['i'] ((U.nfc text).map foldCapital)))

/-- `replace("ı", "i")`. -/
def dotted (c : Char) : Char := if c = 'ı' then 'i' else c

def kanunu : Text := ['k', 'a', 'n', 'u', 'n', 'u']

/-- `\bk\.(?=\W|$)`. -/
def abbreviates (before : Option Char) (l : Text) : Bool :=
  ['k', '.'].isPrefixOf l && !U.inWord before && !U.inWord (l.drop 2).head?

/-- The substitution of the abbreviation; `inside` says that a character belongs to the match before. -/
def spellOut : Option Char → Bool → Text → Text
  | _, _, [] => []
  | _, true, c :: l => spellOut (some c) false l
  | before, false, c :: l =>
    if abbreviates U before (c :: l) then kanunu ++ spellOut (some c) true l else c :: spellOut (some c) false l

/-- `normalize_law_name`. -/
def normalizeLawName (text : Text) : Text :=
  joinWords isSpace ' ' (spellOut U none false ((normalizeTurkish U text).map dotted))

/-! ## Names -/

/-- `re.fullmatch(r"[0-9]{3,5}", number)`. -/
def isLawNumber (number : Text) : Bool := 3 ≤ number.length && number.length ≤ 5 && number.all Char.isDigit

/-- Insertion of a key: a key that is there keeps its place. -/
def insertKey (key : Text) (value : Text) (entries : List (Text × Text)) : List (Text × Text) :=
  if entries.any fun e => e.1 = key then entries.map fun e => if e.1 = key then (key, value) else e
  else entries ++ [(key, value)]

/-- `_law_names`: the numbers of the names in normal form. -/
def lawNames (names : List (Text × Text)) : List (Text × Text) :=
  (names.filter fun e => e.1 ≠ [] && isLawNumber e.2).foldl (fun d e => insertKey (normalizeLawName U e.1) e.2 d) []

variable {U}

theorem isWord_letter {c : Char} (h : c ∈ namedLetters) : U.isWord c = true := by
  unfold Unicode.isWord
  rw [U.alnum_letter c h, Bool.true_or]

theorem isWord_mark {c : Char} (h : c ∈ namedMarks) : U.isWord c = false := by
  unfold Unicode.isWord
  rw [U.alnum_mark c h, Bool.false_or, decide_eq_false_iff_not]
  rintro rfl
  exact absurd h (by decide)

/-- A name in normal form does not begin with a space. -/
theorem joinWords_head {c : Char} {l rest : Text} (h : joinWords isSpace ' ' l = c :: rest) : isSpace c = false := by
  unfold joinWords at h
  cases hwords : words isSpace l with
  | nil =>
    rw [hwords] at h
    cases h
  | cons w ws =>
    obtain ⟨hne, hw⟩ := mem_words (p := isSpace) (l := l) (w := w) (by rw [hwords]; exact List.mem_cons_self)
    obtain ⟨x, w, rfl⟩ := List.exists_cons_of_ne_nil hne
    rw [hwords] at h
    cases ws with
    | nil =>
      simp only [List.intercalate, List.intersperse_singleton, List.flatten_singleton] at h
      cases h
      exact hw c List.mem_cons_self
    | cons v ws =>
      simp only [List.intercalate, List.intersperse_cons_cons, List.flatten_cons, List.cons_append] at h
      cases h
      exact hw c List.mem_cons_self

theorem mem_keys_insertKey {key value x : Text} {entries : List (Text × Text)} :
    x ∈ (insertKey key value entries).map Prod.fst → x = key ∨ x ∈ entries.map Prod.fst := by
  unfold insertKey
  split
  · intro hx
    obtain ⟨e, he, rfl⟩ := List.mem_map.1 hx
    obtain ⟨d, hd, rfl⟩ := List.mem_map.1 he
    split
    · exact Or.inl rfl
    · exact Or.inr (List.mem_map_of_mem hd)
  · intro hx
    rw [List.map_append, List.mem_append] at hx
    exact hx.symm.imp_left List.mem_singleton.1

/-- The keys are names in normal form. -/
theorem mem_lawNames {names : List (Text × Text)} {x : Text} (h : x ∈ (lawNames U names).map Prod.fst) :
    ∃ name, x = normalizeLawName U name := by
  unfold lawNames at h
  generalize names.filter _ = l at h
  have hfold : ∀ (l : List (Text × Text)) (d : List (Text × Text)),
      x ∈ (l.foldl (fun d e => insertKey (normalizeLawName U e.1) e.2 d) d).map Prod.fst →
        (∃ name, x = normalizeLawName U name) ∨ x ∈ d.map Prod.fst := by
    intro l
    induction l with
    | nil => exact fun d h => Or.inr h
    | cons e l ih =>
      intro d h
      rcases ih _ h with h | h
      · exact Or.inl h
      · exact (mem_keys_insertKey h).imp_left fun hx => ⟨e.1, hx⟩
  exact (hfold l [] h).resolve_right List.not_mem_nil

end Mesa.Legal
