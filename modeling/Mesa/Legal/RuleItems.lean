/-
The rule items of a legal text: dates, decision references, citations, amounts, durations and outcomes. What the
regular expressions find in the text, and what they make of its parts, is given; every position that the extractors
work out from it, by trimming, searching and comparing with what is already taken, is computed here.
-/
import Mesa.Foundation.Brackets
import Mesa.Foundation.Ordering
import Mesa.Legal.NameIndex
import Mesa.Legal.NumberWords
import Mesa.Legal.SpanEnds

namespace Mesa.Legal

open Mesa.Foundation
open Mesa.Rebuild (isSpace strip Text)

/-! ## Items -/

inductive ItemType
  | citation
  | decisionRef
  | date
  | amount
  | duration
  | outcome
deriving DecidableEq

/-- What an item says besides where it stands. -/
inductive Fields
  | citation (lawNo lawName article paragraph : Option Text)
  | decisionRef (court chamber docketNo decisionNo date : Option Text)
  | date (value : Text)
  | amount (value currency : Text)
  | duration (value : Nat) (unit : Text)
  | outcome (value : Text)
deriving DecidableEq

def Fields.type : Fields → ItemType
  | .citation .. => .citation
  | .decisionRef .. => .decisionRef
  | .date _ => .date
  | .amount .. => .amount
  | .duration .. => .duration
  | .outcome _ => .outcome

structure Item where
  start : Nat
  stop : Nat
  text : Text
  fields : Fields
deriving DecidableEq

def Item.type (item : Item) : ItemType := item.fields.type

def Item.pair (item : Item) : Nat × Nat := (item.start, item.stop)

def Item.key (item : Item) : Nat × Nat × ItemType := (item.start, item.stop, item.type)

/-- An item with the text that stands there. -/
def itemAt (text : Text) (s : Nat × Nat) (fields : Fields) : Item := ⟨s.1, s.2, slice text s, fields⟩

/-! ## Matches -/

/-- A match of a pattern with the groups that the code reads. -/
structure Match (n : Nat) (γ : Type) where
  span : Extent n
  groups : γ

/-- `finditer`: matches from left to right that do not overlap. -/
structure Finds (n : Nat) (γ : Type) where
  found : List (Match n γ)
  ordered : found.Pairwise fun a b => a.span.stop ≤ b.span.start

/-- Day, month and year of a date in numbers. -/
structure NumericDate where
  day : Nat
  month : Nat
  year : Nat

/-- A date with the name of the month. -/
structure NamedDate where
  day : Nat
  month : Text
  year : Nat

structure AmountGroups where
  num : Text
  curr : Text

structure DecisionGroups where
  courtCham : Option Text
  datePre : Option Text
  datePost : Option Text
  date : Option Text
  docket : Option Text
  decision : Option Text

structure SlashGroups where
  acronym : Text
  art : Text

structure HeaderGroups where
  lawNo : Option Text
  lawNoBare : Option Text
  lawTitle1 : Option Text
  lawTitleBare : Option Text
  acronym : Option Text
  lawTitle2 : Option Text
  anaphoric : Option Text
  anaphNoun : Option Text

/-- `_DURATION_PAT` at a position: where `unit_full` begins, and `unit_lemma` in it. -/
structure UnitMatch (n pos : Nat) where
  unitFull : Nat
  unitLemma : Extent n
  after : pos ≤ unitFull
  within : unitFull ≤ unitLemma.start

/-- `_WORD_AMOUNT_PAT` at a position. -/
structure CurrencyMatch (n pos : Nat) where
  stop : Nat
  curr : Text
  after : pos < stop
  inside : stop ≤ n

/-- What the patterns find in the text. -/
structure Outcome (n : Nat) where
  numberTokens : Finds n Unit
  durationAt : (pos : Nat) → Option (UnitMatch n pos)
  digitAmounts : Finds n AmountGroups
  wordAmountAt : (pos : Nat) → Option (CurrencyMatch n pos)
  numericDates : Finds n NumericDate
  textDates : Finds n NamedDate
  partialDates : Finds n (Text × Nat)
  decRef1 : Finds n DecisionGroups
  decRef2 : Finds n DecisionGroups
  decRef3 : Finds n DecisionGroups
  decRef4 : Finds n DecisionGroups
  decRef5 : Finds n DecisionGroups
  slashShort : Finds n SlashGroups
  lawHeaders : Finds n HeaderGroups
  articleClauses : Finds n Unit
  outcomeEnds : Finds n Unit
  outcomeRule : Text → Finds n Unit
  amendmentMarkers : Finds n Unit

/-- What the patterns, and the functions built from them, make of a part of the text. -/
structure Readings where
  letters : Unicode
  numbers : LetterTables
  upper : Text → Text
  /-- `\d{1,12}+[./]\s{0,4}+$`. -/
  endsInDatePart : Text → Bool
  currencyIn : (t : Text) → Option (Extent t.length)
  decisionHint : Text → Bool
  dateIn : Text → Option NumericDate
  cleanCourtChamber : Option Text → Option Text × Option Text
  cleanLawName : Text → Option Text
  /-- The number of a `(Tebliğ No: …)` or `(Karar No: …)`. -/
  noticeNumber : Text → Option Text
  articleClause : (t : Text) → Option (Fin (t.length + 1))
  shortArticle : (t : Text) → Option (Fin (t.length + 1))
  /-- `^\s{0,4}+/\d{4}` or `^\s{0,4}+tarih`. -/
  dateGoesOn : Text → Bool
  parseArticlesAndParagraphs : Text → Option Text × Option Text

/-! ## Texts -/

/-- `str.find`. -/
def findIn (t w : Text) : Option Nat := (List.range (t.length + 1)).find? fun i => w.isPrefixOf (t.drop i)

/-- `w in t`. -/
def within (w t : Text) : Bool := (findIn t w).isSome

/-- How many characters `lstrip` takes off. -/
def leading (p : Char → Bool) (t : Text) : Nat := (t.takeWhile p).length

/-- How many characters `rstrip` takes off. -/
def trailing (p : Char → Bool) (t : Text) : Nat := leading p t.reverse

/-- `" ,."`. -/
def isTail (c : Char) : Bool := c = ' ' || c = ',' || c = '.'

/-- `a or b` for texts that may be missing. -/
def orText (a b : Option Text) : Option Text := if a = none ∨ a = some [] then b else a

/-- `f"{n:0wd}"`. -/
def padded (w n : Nat) : Text := List.replicate (w - (Nat.toDigits 10 n).length) '0' ++ Nat.toDigits 10 n

section

variable {text : Text} (R : Readings) (F : Outcome text.length)

/-- `parse_turkish_number`. -/
def Readings.numberOf (t : Text) : Option Nat :=
  match parseTurkishNumber R.numbers t with
  | .ok n => n
  | .error _ => none

/-- The longest run of first words that is a number, with the number. -/
def bestNumber (fits : Nat → Bool) (ws : List Text) : Option (Nat × List Text) :=
  (List.range ws.length).reverse.findSome? fun i =>
    ((R.numberOf ([' '].intercalate (ws.take (i + 1)))).filter fits).map fun val => (val, ws.take (i + 1))

/-! ## Number spans -/

/-- The starts of the adjacent number words, at most twelve, after one more token. -/
def nextChain (word : Bool) (gap : Text) (start : Nat) (chain : List Nat) : List Nat :=
  let chain := if !word || chain.isEmpty || !(0 < gap.length && gap.length ≤ 4 && gap.all isSpace) then [] else chain
  if word then (chain ++ [start]).drop ((chain ++ [start]).length - 12) else chain

/-- The loop over the number tokens. -/
def numberSpansFrom (text : Text) (wordsOnly : Bool) :
    List (Match text.length Unit) → List Nat → Option Nat → List (Nat × Nat)
  | [], _, _ => []
  | token :: tokens, chain, previousEnd =>
    let start := token.span.start
    let stop := token.span.stop
    let word := !(slice text (start, stop)).all R.numbers.isDigit
    let gap := previousEnd.elim [] fun e => slice text (e, start)
    let chain := nextChain word gap start chain
    let rest := numberSpansFrom text wordsOnly tokens chain (some stop)
    if word || !wordsOnly then ((if word then chain.headD start else start), stop) :: rest else rest

/-- `_number_spans`. -/
def numberSpans (wordsOnly : Bool) : List (Nat × Nat) := numberSpansFrom R text wordsOnly F.numberTokens.found [] none

/-! ## Durations -/

/-- `_MONTH_NAMES`. -/
def monthNames : List Text :=
  ["ocak", "şubat", "mart", "nisan", "mayıs", "haziran", "temmuz", "ağustos", "eylül", "ekim", "kasım",
    "aralık"].map String.toList

/-- The unit that a lemma names. -/
def unitOf (unitRaw : Text) : Option Text :=
  let named (ws : List String) := ws.any fun w => within w.toList unitRaw
  if named ["yarıyıl", "yariyil"] then some "yarıyıl".toList
  else if named ["işgünü", "isgunu"] then some "iş günü".toList
  else if named ["gün", "gun"] then some "gün".toList
  else if named ["hafta"] then some "hafta".toList
  else if named ["ay"] then some "ay".toList
  else if named ["yıl", "yil"] then some "yıl".toList
  else if named ["saat"] then some "saat".toList
  else none

def durationOf (s : Nat × Nat) : Option Item :=
  match F.durationAt s.2 with
  | none => none
  | some m =>
    if R.endsInDatePart (slice text (s.1 - 10, s.1)) then none
    else
      match bestNumber R (fun val => 0 < val) (words isSpace (strip (slice text s))) with
      | none => none
      | some (val, best) =>
        let unitRaw := (R.letters.lower (slice text m.unitLemma.pair)).filter fun c => !isSpace c
        match unitOf unitRaw with
        | none => none
        | some unit =>
          let before := strip (R.letters.lower (slice text (s.1 - 15, s.1)))
          if unit = "ay".toList ∧ monthNames.any (fun mon => mon.isSuffixOf before) then none
          else
            let offset := (findIn (slice text (s.1, m.unitFull)) ([' '].intercalate best)).getD 0
            some (itemAt text (s.1 + offset, m.unitLemma.stop) (.duration val unit))

/-- `extract_durations`. -/
def extractDurations : List Item := (numberSpans R F false).filterMap (durationOf R F)

/-! ## Amounts -/

/-- The currency that a text names. -/
def currencyOf (curr : Text) : Text :=
  let named (ws : List String) := ws.any fun w => within w.toList curr
  if named ["tl", "türk", "t.l.", "₺", "lira"] then "TRY".toList
  else if named ["dolar", "usd", "$"] then "USD".toList
  else if named ["avro", "euro", "eur", "€"] then "EUR".toList
  else "TRY".toList

/-- The value of an amount in digits. -/
def digitValue (num : Text) : Text :=
  let parts := num.splitOnP (· = ',')
  let whole := (parts.headD []).filter (· ≠ '.')
  if ',' ∈ num then whole ++ '.' :: parts.getD 1 [] else whole

def digitAmounts : List Item :=
  F.digitAmounts.found.map fun m =>
    itemAt text m.span.pair
      (.amount (digitValue (strip m.groups.num)) (currencyOf (R.letters.lower (strip m.groups.curr))))

/-- The characters that `lstrip` takes off a written amount. -/
def isQuote (c : Char) : Bool := c ∈ ['“', '"', '\'', '‘', '\x60', ' ']

def wordAmountOf (digitSpans : List Nat) (s : Nat × Nat) : Option Item :=
  match F.wordAmountAt s.2 with
  | none => none
  | some m =>
    match bestNumber R (fun _ => true) (words isSpace (strip (slice text s))) with
    | none => none
    | some (val, best) =>
      match R.currencyIn (slice text (s.1, m.stop)), findIn (slice text (s.1, m.stop)) (best.headD []) with
      | some curr, some candIdx =>
        let stop := s.1 + curr.stop
        let start := s.1 + candIdx + leading isQuote (slice text (s.1 + candIdx, stop))
        if start < digitSpans.getD (stop - 1) 0 then none
        else
          some (itemAt text (start, stop) (.amount (Nat.toDigits 10 val) (currencyOf (R.letters.lower (strip m.curr)))))
      | _, _ => none

/-- `extract_amounts`. -/
def extractAmounts : List Item :=
  let digits := digitAmounts R F
  let digitSpans := spanEnds text.length (digits.map Item.pair)
  orderBy Item.start (digits ++ (numberSpans R F true).filterMap (wordAmountOf R F digitSpans))

/-! ## Dates -/

/-- `_MONTHS`. -/
def months : List (Text × Text) :=
  [("ocak", "01"), ("şubat", "02"), ("subat", "02"), ("mart", "03"), ("nisan", "04"), ("mayıs", "05"), ("mayis", "05"),
    ("haziran", "06"), ("temmuz", "07"), ("ağustos", "08"), ("agustos", "08"), ("eylül", "09"), ("eylul", "09"),
    ("ekim", "10"), ("kasım", "11"), ("kasim", "11"), ("aralık", "12"), ("aralik", "12")].map fun p =>
      (p.1.toList, p.2.toList)

def monthCode (name : Text) : Option Text :=
  (months.find? fun p => decide (p.1 = R.letters.lower name)).map Prod.snd

def isoDate (d : NumericDate) : Text := padded 4 d.year ++ '-' :: padded 2 d.month ++ '-' :: padded 2 d.day

def isYear (year : Nat) : Bool := 1900 ≤ year && year ≤ 2099

def isDay (day : Nat) : Bool := 1 ≤ day && day ≤ 31

/-- Dates in numbers and dates with a day and the name of a month. -/
def fullDates : List Item :=
  (F.numericDates.found.filterMap fun m =>
    let d := m.groups
    if isDay d.day && (1 ≤ d.month && d.month ≤ 12) && isYear d.year then
      some (itemAt text m.span.pair (.date (isoDate d)))
    else none) ++
  F.textDates.found.filterMap fun m =>
    let d := m.groups
    (monthCode R d.month).bind fun code =>
      if isDay d.day && isYear d.year then
        some (itemAt text m.span.pair (.date (padded 4 d.year ++ '-' :: code ++ '-' :: padded 2 d.day)))
      else none

/-- `extract_dates`. -/
def extractDates : List Item :=
  let full := fullDates R F
  let dateEnds := spanEnds text.length (full.map Item.pair)
  full ++ F.partialDates.found.filterMap fun m =>
    if m.span.stop ≤ dateEnds.getD m.span.start 0 then none
    else
      (monthCode R m.groups.1).bind fun code =>
        if isYear m.groups.2 then
          some (itemAt text m.span.pair (.date (padded 4 m.groups.2 ++ '-' :: code)))
        else none

/-! ## Decision references -/

/-- The items of one pattern after another: those that lie in what the patterns before it found are left out. -/
def rounds (n : Nat) : List (List Item) → List Item → List Item
  | [], items => items
  | found :: passes, items =>
    let previousEnds := spanEnds n (items.map Item.pair)
    rounds n passes (items ++ found.filter fun item => !(item.stop ≤ previousEnds.getD item.start 0))

/-- The start behind the blanks. -/
def skipBlanks (text : Text) (s : Nat × Nat) : Nat := s.1 + leading isSpace (slice text s)

/-- One unrelated word and the blanks behind it are stripped off the start. -/
def stripPrefix (text : Text) (stop start : Nat) (badPrefix : Text) : Nat :=
  if badPrefix.isPrefixOf (R.letters.lower (slice text (start, stop))) then
    skipBlanks text (start + badPrefix.length, stop)
  else start

def badPrefixes : List Text := ["verilen ".toList, "ilişkin ".toList, "sayılı ".toList]

/-- The span of a match without the blanks and the words before it and the punctuation behind it. -/
def decisionSpan (text : Text) (s : Nat × Nat) : Nat × Nat :=
  let start := badPrefixes.foldl (stripPrefix R text s.2) (skipBlanks text s)
  (start, s.2 - trailing isTail (slice text (start, s.2)))

def decisionRefOf (m : Match text.length DecisionGroups) : Option Item :=
  let s := decisionSpan R text m.span.pair
  if slice text s = [] then none
  else
    let g := m.groups
    let (court, chamber) := R.cleanCourtChamber g.courtCham
    let dateVal := (((orText (orText g.datePre g.datePost) g.date).filter (· ≠ [])).bind R.dateIn).map isoDate
    some (itemAt text s (.decisionRef court chamber g.docket g.decision dateVal))

/-- `extract_decision_refs`. -/
def extractDecisionRefs : List Item :=
  if '/' ∉ text ∧ '-' ∉ text then []
  else if R.decisionHint text = false ∧ F.numericDates.found.isEmpty then []
  else
    rounds text.length
      ([F.decRef2, F.decRef1, F.decRef4, F.decRef5, F.decRef3].map fun pat => pat.found.filterMap (decisionRefOf R)) []

/-! ## Citations -/

/-- `covered[start:end] = b"\1" * (end - start)`. -/
def cover (covered : List Bool) (s : Nat × Nat) : List Bool :=
  covered.mapIdx fun i c => c || (decide (s.1 ≤ i) && decide (i < s.2))

def slashCitations : List Item :=
  F.slashShort.found.map fun m =>
    itemAt text m.span.pair (.citation none (some (R.upper m.groups.acronym)) (some m.groups.art) none)

/-- The end of the article that follows a law header, and its text. -/
def articleAfter (text : Text) (headerEnd : Nat) : Option (Nat × Text) :=
  let afterText := slice text (headerEnd, headerEnd + 8192)
  let stripped := afterText.dropWhile fun c => c ∈ [' ', ',', '\t', '\r', '\n']
  match R.articleClause stripped with
  | some k => some (headerEnd + (afterText.length - stripped.length + k), stripped.take k)
  | none =>
    match R.shortArticle afterText with
    | some k =>
      if R.dateGoesOn (slice afterText (k, k + 20)) then none else some (headerEnd + k, afterText.take k)
    | none => none

def headerCitationOf (slashEnds : List Nat) (m : Match text.length HeaderGroups) : Option Item :=
  let full := slice text m.span.pair
  let lookahead := R.letters.lower (slice text (m.span.stop, m.span.stop + 25))
  if within "Anayasa".toList full && (" mahkemesi".toList.isPrefixOf lookahead || "mahkemesi".toList.isPrefixOf lookahead) then
    none
  else
    let g := m.groups
    let rawName := orText (orText (orText g.lawTitle1 g.lawTitleBare) g.acronym) g.lawTitle2
    let anaphoric := orText g.anaphoric g.anaphNoun
    let isAnaphoric := anaphoric ≠ none ∧ anaphoric ≠ some []
    let lawName := if isAnaphoric ∨ rawName = some [] then none else rawName.bind R.cleanLawName
    let ownNo := if isAnaphoric then none else orText g.lawNo g.lawNoBare
    let lawNo := if ownNo = none ∨ ownNo = some [] then (R.noticeNumber full).or ownNo else ownNo
    match articleAfter R text m.span.stop with
    | none => none
    | some (fullEnd, artText) =>
      let stop := fullEnd - trailing isTail (slice text (m.span.start, fullEnd))
      if artText = [] ∨ stop ≤ slashEnds.getD m.span.start 0 then none
      else
        let (article, paragraph) := R.parseArticlesAndParagraphs artText
        some (itemAt text (m.span.start, stop) (.citation lawNo lawName article paragraph))

def headerCitations : List Item :=
  F.lawHeaders.found.filterMap (headerCitationOf R (spanEnds text.length ((slashCitations R F).map Item.pair)))

/-- The article clauses that stand apart from everything covered so far. -/
def standaloneFrom (text : Text) : List Bool → List (Match text.length Unit) → List Item
  | _, [] => []
  | covered, m :: matches' =>
    let s := (m.span.start, m.span.stop - trailing isTail (slice text m.span.pair))
    if ((covered.take s.2).drop s.1).any id then standaloneFrom text covered matches'
    else
      let (article, paragraph) := R.parseArticlesAndParagraphs (slice text s)
      if article = none ∨ article = some [] then standaloneFrom text covered matches'
      else
        itemAt text s (.citation none none article paragraph) :: standaloneFrom text (cover covered s) matches'

def standaloneCitations : List Item :=
  standaloneFrom R text (((slashCitations R F ++ headerCitations R F).map Item.pair).foldl cover
    (List.replicate text.length false)) F.articleClauses.found

/-- `extract_citations`. -/
def extractCitations : List Item :=
  orderBy (fun item => toLex item.pair) (slashCitations R F ++ headerCitations R F ++ standaloneCitations R F)

/-! ## Outcomes -/

/-- Going back over at most `k` characters of a kind. -/
def back (p : Char → Bool) (text : Text) : Nat → Nat → Nat
  | 0, pos => pos
  | k + 1, pos => if 0 < pos ∧ (text[pos - 1]?).any p then back p text k (pos - 1) else pos

/-- `_OUTCOME_WORD`, a character at a time. -/
def isOutcomeWord (c : Char) : Bool :=
  ('A' ≤ c ∧ c ≤ 'Z') ∨ ('a' ≤ c ∧ c ≤ 'z') ∨ ('0' ≤ c ∧ c ≤ '9') ∨
    c ∈ ['Ç', 'Ğ', 'İ', 'Ö', 'Ş', 'Ü', 'ç', 'ğ', 'ı', 'ö', 'ş', 'ü', '.']

/-- The words before a position, the last one first. -/
def wordsBefore (text : Text) : Nat → Nat → List (Nat × Text)
  | 0, _ => []
  | k + 1, gapEnd =>
    let wordEnd := back isSpace text 4 gapEnd
    if wordEnd = gapEnd then []
    else
      let pos := back (fun c => R.letters.isAlnum c || c = '.') text 64 wordEnd
      let word := slice text (pos, wordEnd)
      if word = [] ∨ ¬ word.all isOutcomeWord then [] else (pos, word) :: wordsBefore text k pos

/-- `_forwarding_spans`. -/
def forwardingSpans : List (Nat × Nat) :=
  if within "gönderilmek".toList text then
    F.outcomeEnds.found.filterMap fun m =>
      let ws := (wordsBefore R text 26 m.span.start).reverse
      ((List.range ws.length).find? fun i =>
        decide ((ws[i]?).map Prod.snd = some "gönderilmek".toList ∧ (ws[i + 1]?).map Prod.snd = some "üzere".toList ∧
          ws.length - i - 2 ≤ 12)).bind fun i => (ws[i - 12]?).map fun w => (w.1, m.span.stop)
  else []

/-- The values of `_OUTCOME_RULES`. -/
def outcomeValues : List Text :=
  ["gönderme", "düzeltilerek onama", "kısmen kabul", "onama", "bozma", "kabul", "red", "direnme"].map String.toList

/-- `extract_outcomes`. -/
def extractOutcomes : List Item :=
  rounds text.length
    (outcomeValues.map fun val => (F.outcomeRule val).found.map fun m => itemAt text m.span.pair (.outcome val))
    ((forwardingSpans R F).map fun s => itemAt text s (.outcome "gönderme".toList))

/-! ## All rules -/

/-- The closed parentheses that an amendment marker opens. -/
def amendmentSpans : List (Nat × Nat) :=
  ((Brackets.pairs '(' ')' 0 [] text).filter fun p => p.1 ∈ F.amendmentMarkers.found.map (·.span.start)).map fun p =>
    (p.1, p.2 + 1)

/-- The dates outside citations, decision references and amendment parentheses. -/
def validDates : List Item :=
  let suppressed := (extractDecisionRefs R F ++ extractCitations R F).map Item.pair ++ amendmentSpans F
  let suppressedEnds := spanEnds text.length suppressed
  (extractDates R F).filter fun d => suppressedEnds.getD d.start 0 < d.stop

def candidates : List Item :=
  extractDecisionRefs R F ++ extractCitations R F ++ extractAmounts R F ++ extractDurations R F ++
    extractOutcomes R F ++ validDates R F

/-- The first item of each key, where it has the text that stands there. -/
def keepFirst (text : Text) : List (Nat × Nat × ItemType) → List Item → List Item
  | _, [] => []
  | seen, item :: items =>
    if item.key ∈ seen then keepFirst text seen items
    else if slice text item.pair ≠ item.text then keepFirst text (item.key :: seen) items
    else item :: keepFirst text (item.key :: seen) items

/-- `extract_all_rules`. -/
def extractAllRules : List Item :=
  orderBy (fun item => toLex item.pair)
    (keepFirst text [] (orderBy (fun item => toLex (item.start, -(item.stop : Int))) (candidates R F)))

/-- `extract`. -/
def extract : List Item :=
  if text = [] then []
  else (extractAllRules R F).filter fun item =>
    decide (item.start < item.stop ∧ item.stop ≤ text.length) && decide (slice text item.pair = item.text)

end

end Mesa.Legal
