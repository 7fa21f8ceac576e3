/-
The index of the names of laws, by their first word, and the scan of a text with it. Names are tried longest first; a
match ends after a possessive and after the article that follows.
-/
import Mesa.Foundation.Buckets
import Mesa.Foundation.Ordering
import Mesa.Foundation.Regex
import Mesa.Foundation.Scan
import Mesa.Legal.LawNames

namespace Mesa.Legal

open Mesa.Foundation
open Mesa.Rebuild (isSpace Text)

/-! ## Articles -/

/-- The groups of a pattern that has an article before or after its word. -/
inductive ArticleGroup
  | marked
  | ordinal
  deriving DecidableEq

section

variable {ν : Type}

def blank : Regex Char ν := .char isSpace

def digit : Regex Char ν := .char Char.isDigit

def lit (t : String) : Regex Char ν := .literal (fun c d => decide (c = d)) t.toList

def mark (c : Char) : Regex Char ν := .char fun d => decide (d = c)

/-- `[0-9]{1,12}+(?![0-9])`. -/
def articleNumber : Regex Char ν := .seq (.all 1 12 digit) (.here fun _ next => !next.any Char.isDigit)

/-- `m\.|md\.?|madde`. -/
def articleMarker : Regex Char ν := .oneOf [lit "m.", .seq (lit "md") (.opt (mark '.')), lit "madde"]

/-- `madde(?:si)?`. -/
def maddesi : Regex Char ν := .seq (lit "madde") (.opt (lit "si"))

end

/-- `_SCOPE_ARTICLE`. -/
def scopeArticle : Regex Char ArticleGroup :=
  .seq (.all 0 128 blank) (.alt
    (.seqs [articleMarker, .all 0 128 blank, .group .marked articleNumber])
    (.seqs [.group .ordinal articleNumber,
      .opt (.alt (mark '.') (.seq (.all 1 128 blank) (.oneOf (["inci", "uncu", "üncü", "nci", "ncu", "ncü"].map lit)))),
      .all 1 128 blank, maddesi]))

/-- What stands before a position. -/
def charBefore (t : Text) (pos : Nat) : Option Char := if pos = 0 then none else t[pos - 1]?

/-- The text of a group. -/
def slice (t : Text) (s : Nat × Nat) : Text := (t.take s.2).drop s.1

/-- The article that follows a name, and where it ends. -/
def articleAt (t : Text) (stop : Nat) : Option (Option Text × Nat) :=
  (scopeArticle.matchAt (charBefore t stop) (t.drop stop)).map fun d =>
    (((d.groups .marked).or (d.groups .ordinal)).map (slice (t.drop stop)), stop + d.pos)

variable (U : Unicode)

/-! ## Names in a text -/

/-- `_SCOPE_POSSESSIVES`. -/
def scopePossessives : List Text := [['n', 'u', 'n'], ['u', 'n'], ['n', 'i', 'n'], ['i', 'n']]

/-- `_scope_name_end`. -/
def scopeNameEnd (t : Text) (stop : Nat) : Option Nat :=
  let suffixStart := if t[stop]? = some '\'' ∨ t[stop]? = some '’' then stop + 1 else stop
  match scopePossessives.find? fun s => s.isPrefixOf (t.drop suffixStart) && !U.inWord t[suffixStart + s.length]? with
  | some s => some (suffixStart + s.length)
  | none => if U.inWord t[stop]? then none else some stop

structure ScopeMatch where
  name : Text
  article : Option Text
  start : Nat
  stop : Nat
  deriving DecidableEq

/-- A name at a position: not within a word, and up to the end of a word or of its possessive. -/
def nameAt (t : Text) (start : Nat) (name : Text) : Option ScopeMatch :=
  if U.inWord (charBefore t start) then none
  else if !name.isPrefixOf (t.drop start) then none
  else (scopeNameEnd U t (start + name.length)).map fun stop =>
    match articleAt t stop with
    | none => ⟨name, none, start, stop⟩
    | some (article, after) => ⟨name, article, start, after⟩

/-! ## The index -/

/-- A name that ends with `kanunu` is also matched without its last letter. -/
def variants (name : Text) : List Text := if kanunu.isSuffixOf name then [name, name.dropLast] else [name]

/-- The names as they are tried, longest first. -/
def scopeVariants (names : List (Text × Text)) : List Text :=
  (orderBy (fun name : Text => OrderDual.toDual name.length) ((lawNames U names).map Prod.fst)).flatMap variants

/-- `re.search(r"\w+", variant)`: where the first word starts, and the word. -/
def firstWord (t : Text) : Option (Nat × Text) :=
  let start := (t.takeWhile fun c => !U.isWord c).length
  let word := (t.drop start).takeWhile U.isWord
  if word = [] then none else some (start, word)

/-- The words of a text under which a name is looked up. -/
def scopeKeys (variant : Text) (start : Nat) (word : Text) : List Text :=
  if start + word.length = variant.length then word :: scopePossessives.map (word ++ ·) else [word]

/-- `_scope_names` and `_scope_punctuation`: each name with the offset of its first word. -/
structure NameIndex where
  names : Buckets Text (Text × Nat)
  punctuation : Buckets Char (Text × Nat)

/-- A name is entered; `variant[0]` raises where the name is empty. -/
def NameIndex.enter (index : NameIndex) (variant : Text) : Option NameIndex :=
  match firstWord U variant with
  | none => variant.head?.map fun c => { index with punctuation := index.punctuation.add c (variant, 0) }
  | some (start, word) =>
    (if start = 0 then some index
      else variant.head?.map fun c => { index with punctuation := index.punctuation.add c (variant, 0) }).map fun index =>
        { index with
          names := (scopeKeys variant start word).foldl (fun names key => names.add key (variant, start)) index.names }

/-- The index of the constructor, `none` where it raises. -/
def nameIndex (names : List (Text × Text)) : Option NameIndex := (scopeVariants U names).foldlM (NameIndex.enter U) ⟨[], []⟩

/-- `word in _scope_direct`. -/
def NameIndex.direct (index : NameIndex) (word : Text) : Bool :=
  index.names.get word ≠ [] && (index.names.get word).all fun e => decide (e.2 = 0)

/-- `_scope_min_lengths.get(word, 0)`. -/
def NameIndex.minLength (index : NameIndex) (word : Text) : Nat :=
  ((index.names.get word).map fun e => e.1.length - e.2).min?.getD 0

/-- `_scope_windows.get(word)`. -/
def NameIndex.window (index : NameIndex) (word : Text) : Option Nat :=
  if index.direct word ∧ 32 < (index.names.get word).length then
    some (((index.names.get word).map fun e => e.1.length).max?.getD 0 + 5)
  else none

/-! ## The scan with the index -/

/-- `_SCOPE_WORD`: a run of word characters, or one character that is no space. -/
def scopeWord : Pattern Char := fun _ l =>
  match l with
  | [] => none
  | c :: l => if U.isWord c then some ((l.takeWhile U.isWord).length + 1) else if isSpace c then none else some 1

/-- The candidates of one word, in their order; `early` stops at the first match. -/
def bestCandidate (t : Text) (consumedTo start : Nat) (early : Bool) :
    Option ScopeMatch → List (Text × Nat) → Option ScopeMatch
  | best, [] => best
  | best, (name, offset) :: rest =>
    match if start < offset ∨ start - offset < consumedTo then none else nameAt U t (start - offset) name with
    | none => bestCandidate t consumedTo start early best rest
    | some m =>
      let best := if best.all fun b => decide (m.start < b.start) then some m else best
      if early then best else bestCandidate t consumedTo start early best rest

structure ScopeScan where
  found : List ScopeMatch
  consumedTo : Nat
  missedWindows : List (Text × Text)

/-- One word of the text. -/
def scanWord (index : NameIndex) (t : Text) (s : ScopeScan) (span : Span) : ScopeScan :=
  let word := slice t (span.start, span.stop)
  if span.start < s.consumedTo then s
  else
    let isWord := U.inWord word.head?
    if isWord ∧ t.length - span.start < index.minLength word then s
    else
      let candidates := if isWord then index.names.get word else word.head?.elim [] fun c => index.punctuation.get c
      let missKey :=
        if isWord then (index.window word).map fun window => (word, slice t (span.start, span.start + window)) else none
      if missKey.any fun key => decide (key ∈ s.missedWindows) then s
      else
        match bestCandidate U t s.consumedTo span.start (!isWord || index.direct word) none candidates with
        | some m => { s with found := s.found ++ [m], consumedTo := m.stop }
        | none =>
          match missKey with
          | some key => if s.missedWindows.length < 128 then { s with missedWindows := key :: s.missedWindows } else s
          | none => s

/-- `_scope_matches`. -/
def scopeMatches (index : NameIndex) (t : Text) : List ScopeMatch :=
  ((scan (scopeWord U) t).foldl (scanWord U index t) ⟨[], 0, []⟩).found

/-! ## Every name at every position -/

/-- The first name that matches at a position. -/
def firstName (variants : List Text) (t : Text) (pos : Nat) : Option ScopeMatch := variants.findSome? (nameAt U t pos)

structure PlainScan where
  found : List ScopeMatch
  consumedTo : Nat

def tryNames (variants : List Text) (t : Text) (s : PlainScan) (pos : Nat) : PlainScan :=
  if pos < s.consumedTo then s
  else
    match firstName U variants t pos with
    | some m => ⟨s.found ++ [m], m.stop⟩
    | none => s

/-- The matches of a scan that tries every name at every position. -/
def plainMatches (variants : List Text) (t : Text) : List ScopeMatch :=
  ((List.range t.length).foldl (tryNames U variants t) ⟨[], 0⟩).found

end Mesa.Legal
