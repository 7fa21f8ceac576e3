/-
Document chunking: the slices of a content within 512 tokens each, at blank lines or sentence ends where there are
any, and the legal variant that starts a slice at every article heading. Whatever the tokenizer counts, the slices of
either variant are not empty and joined they are the content.
-/
import Mesa.Foundation.Scan
import Mesa.Rebuild.Payload

namespace Mesa.Documents

open Mesa.Foundation
open Mesa.Rebuild (isSpace)

/-- What the patterns ask of single characters, and `str.lower`. -/
structure CharTables where
  /-- `[^\W_]`. -/
  word : Char → Bool
  isdigit : Char → Bool
  isalpha : Char → Bool
  /-- `\d`. -/
  decimal : Char → Bool
  /-- The equality of `re.IGNORECASE`. -/
  same : Char → Char → Bool
  lower : List Char → List Char

/-- `count_tokens(text, "openai")`. No single character is more than 512 tokens. -/
structure TokenCounter where
  count : List Char → Nat
  single : ∀ c, count [c] ≤ 512

/-! ## Boundaries -/

def isTab (c : Char) : Bool := c = ' ' || c = '\t'

/-- The units `\r?\n[ \t]*` at the start and their length; `started` after the first of them. -/
def lineBreaks (started : Bool) : List Char → Nat × Nat
  | '\r' :: '\n' :: l => ((lineBreaks true l).1 + 1, (lineBreaks true l).2 + 2)
  | '\n' :: l => ((lineBreaks true l).1 + 1, (lineBreaks true l).2 + 1)
  | c :: l => if started && isTab c then ((lineBreaks true l).1, (lineBreaks true l).2 + 1) else (0, 0)
  | [] => (0, 0)

/-- `_PARAGRAPH_END`. -/
def paragraphEnd : Pattern Char := fun _ l =>
  let (units, length) := lineBreaks false l
  if 2 ≤ units then some length else none

/-- `_SENTENCE_END`. -/
def sentenceEnd : Pattern Char := fun _ l =>
  match l with
  | [] => none
  | c :: l =>
    let spaces := (l.takeWhile isSpace).length
    if c ∈ ['.', '!', '?'] ∧ spaces ≠ 0 then some (spaces + 1) else none

/-- `_ABBREVIATIONS`. -/
def abbreviations : List (List Char) :=
  ["md", "mad", "bkz", "vb", "vs", "sy", "sf", "no", "yarg", "hd", "cgk", "hgk", "av", "dr", "prof", "doç", "yrd",
    "ltd", "şti"].map String.toList

/-- The text without a line break at its end, before which `$` matches too. -/
def beforeNewline (text : List Char) : List Char := if text.getLast? = some '\n' then text.dropLast else text

/-- The word that `_TRAILING_WORD` finds, empty if it finds none. -/
def trailingWord (T : CharTables) (text : List Char) : List Char := (beforeNewline text).rtakeWhile T.word

/-- `_is_sentence_end` for a match that starts at a position of the prefix. -/
def isSentenceEnd (T : CharTables) (pre : List Char) (start : Nat) : Bool :=
  if (pre.drop start).head?.any (· ∈ ['!', '?']) then true
  else
    let lookback := start - 64
    let window := (pre.take start).drop lookback
    let found := trailingWord T window
    let w := if found ≠ [] ∧ found = beforeNewline window ∧ 0 < lookback then trailingWord T (pre.take start) else found
    if w = [] then true
    else if w.all T.isdigit then false
    else if w.length = 1 ∧ w.all T.isalpha then false
    else T.lower (w.map fun c => if c = 'İ' then 'i' else if c = 'I' then 'ı' else c) ∉ abbreviations

/-- The end of the last paragraph of a prefix, else of its last sentence, else its own end. -/
def boundary (T : CharTables) (pre : List Char) : Nat :=
  match (scan paragraphEnd pre).getLast? with
  | some s => s.stop
  | none =>
    let sentences := scan sentenceEnd pre
    let filtered := sentences.filter fun s => isSentenceEnd T pre s.start
    match (if filtered = [] then sentences else filtered).getLast? with
    | some s => s.stop
    | none => pre.length

/-! ## One slice -/

/-- The first loop: double the upper end while the text up to it fits. -/
def widen (κ : TokenCounter) (l : List Char) (ceiling : Nat) : Nat → Nat → Nat → Nat × Nat
  | 0, low, high => (low, high)
  | fuel + 1, low, high =>
    if κ.count (l.take high) ≤ 512 then
      if high = ceiling then (high, high) else widen κ l ceiling fuel high (min (high * 2) ceiling)
    else (low, high)

/-- The second loop: halve the interval between an end that fits and one that does not. -/
def narrow (κ : TokenCounter) (l : List Char) : Nat → Nat → Nat → Nat
  | 0, low, _ => low
  | fuel + 1, low, high =>
    if low + 1 < high then
      let middle := (low + high) / 2
      if κ.count (l.take middle) ≤ 512 then narrow κ l fuel middle high else narrow κ l fuel low middle
    else low

/-- The third loop: step back from an end until the text up to it fits. -/
def shrink (κ : TokenCounter) (l : List Char) : Nat → Nat
  | 0 => 0
  | n + 1 => if κ.count (l.take (n + 1)) ≤ 512 then n + 1 else shrink κ l n

/-- The longest end that the first two loops find. -/
def fitting (κ : TokenCounter) (l : List Char) : Nat :=
  let ceiling := min l.length 32768
  let (low, high) := widen κ l ceiling (ceiling + 1) 0 (min 512 ceiling)
  narrow κ l high low high

/-- The length of the first slice of a text. -/
def cut (T : CharTables) (κ : TokenCounter) (l : List Char) : Nat :=
  let low := fitting κ l
  shrink κ l (if low < l.length then boundary T (l.take low) else low)

/-! ## The two plans -/

def chunkFrom (T : CharTables) (κ : TokenCounter) : Nat → List Char → List (List Char)
  | 0, _ => []
  | fuel + 1, l => if l = [] then [] else l.take (cut T κ l) :: chunkFrom T κ fuel (l.drop (cut T κ l))

/-- `chunk_document`. -/
def chunkDocument (T : CharTables) (κ : TokenCounter) (content : List Char) : List (List Char) :=
  chunkFrom T κ content.length content

/-- What follows a word at the start, compared without case. -/
def afterWord (T : CharTables) : List Char → List Char → Option (List Char)
  | [], l => some l
  | _ :: _, [] => none
  | w :: ws, c :: l => if T.same w c then afterWord T ws l else none

/-- What follows one or more characters of a kind at the start. -/
def afterSome (p : Char → Bool) (l : List Char) : Option (List Char) :=
  if l.head?.any p then some (l.dropWhile p) else none

/-- What follows a part at the start, or the text itself where the part is missing. -/
def orSkip (part : List Char → Option (List Char)) (l : List Char) : List Char := (part l).getD l

/-- `[A-ZÇĞİÖŞÜ]`, compared without case. -/
def suffixLetter (T : CharTables) (c : Char) : Bool := "ABCDEFGHIJKLMNOPQRSTUVWXYZÇĞİÖŞÜ".toList.any (T.same · c)

/-- `(?:GEÇİCİ|EK)[ \t]++`. -/
def articleKind (T : CharTables) (l : List Char) : Option (List Char) :=
  ((afterWord T "GEÇİCİ".toList l).or (afterWord T "EK".toList l)).bind (afterSome isTab)

/-- `/[A-ZÇĞİÖŞÜ]++`. -/
def articleSuffix (T : CharTables) : List Char → Option (List Char)
  | '/' :: l => afterSome (suffixLetter T) l
  | _ => none

/-- `[ \t]++ila[ \t]++\d++`. -/
def articleRange (T : CharTables) (l : List Char) : Option (List Char) :=
  (((afterSome isTab l).bind (afterWord T "ila".toList)).bind (afterSome isTab)).bind (afterSome T.decimal)

/-- What follows an article heading at the start. -/
def afterHeading (T : CharTables) (l : List Char) : Option (List Char) :=
  ((afterWord T "MADDE".toList (orSkip (articleKind T) (l.dropWhile isTab))).bind (afterSome isTab)).bind fun l =>
    (afterSome T.decimal l).bind fun l =>
      match (orSkip (articleRange T) (orSkip (articleSuffix T) l)).dropWhile isTab with
      | c :: l => if c ∈ ['-', '–', '—', '−', ':'] then some l else none
      | [] => none

/-- A pattern at the start of a line, by what follows its match. -/
def atLineStart (after : List Char → Option (List Char)) : Pattern Char := fun prev l =>
  if prev ∈ [none, some '\n'] then (after l).map fun rest => l.length - rest.length else none

/-- `_ARTICLE_HEADING`. -/
def articleHeading (T : CharTables) : Pattern Char := atLineStart (afterHeading T)

def quoteOpen (l : List Char) : List Char := if l.head?.any (· ∈ ['"', '“']) then l.tail else l

def quoteClose (l : List Char) : List Char := if l.head?.any (· ∈ ['"', '”']) then l.tail else l

/-- What follows the title of a court decision on a line of its own. -/
def afterPreamble (T : CharTables) (l : List Char) : Option (List Char) :=
  (afterWord T "İçtihat Metni".toList (quoteOpen (l.dropWhile isTab))).bind fun l =>
    let rest := (quoteClose l).dropWhile isTab
    let rest := if rest.head? = some '\r' then rest.tail else rest
    if rest.head? ∈ [none, some '\n'] then some rest else none

/-- `_CASE_LAW_PREAMBLE`. -/
def caseLawPreamble (T : CharTables) : Pattern Char := atLineStart (afterPreamble T)

/-- The positions of the article headings. -/
def articleStarts (T : CharTables) (content : List Char) : List Nat := (scan (articleHeading T) content).map Span.start

/-- `sorted({0, *starts, len(content)})`. -/
def legalBoundaries (T : CharTables) (content : List Char) : List Nat :=
  ((0 :: articleStarts T content) ++ [content.length]).dedup.insertionSort (· ≤ ·)

/-- `chunk_legal_document`. -/
def chunkLegalDocument (T : CharTables) (κ : TokenCounter) (content : List Char) : List (List Char) :=
  let starts := articleStarts T content
  if starts.length < 3 ∨ scan (caseLawPreamble T) (content.take (starts.headD 0)) ≠ [] then chunkDocument T κ content
  else (slices content (legalBoundaries T content)).flatMap fun piece =>
    if piece.length ≤ 32768 ∧ κ.count piece ≤ 512 then [piece] else chunkDocument T κ piece

end Mesa.Documents
