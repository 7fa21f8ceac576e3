/-
Recovery of a truncated batch response. The text is trimmed to its last closing brace, the elements of the array
`triplets` are scanned with a count of open braces, and the array is closed behind the last element that was counted
as complete. The scanner stops at the first closing bracket outside of strings, of whatever array it is.
-/
import Mathlib.Data.Bool.AllAny
import Mesa.Foundation.JsonTree
import Mesa.Foundation.Scan
import Mesa.Rebuild.Payload

namespace Mesa.Consolidation

open Mesa.Foundation Mesa.Foundation.Json
open Mesa.Rebuild (Text isSpace strip)

/-! ## Sanitizing -/

def fence : Text := ['\x60', '\x60', '\x60']

/-- The text before the first fence and the text after it. -/
def splitFence : Text → Option (Text × Text)
  | [] => none
  | c :: t => if fence.isPrefixOf (c :: t) then some ([], t.drop 2) else (splitFence t).map fun p => (c :: p.1, p.2)

/-- The block between the first two fences, without `json` and blanks at its beginning. -/
def fenced (text : Text) : Option Text := do
  let (_, rest) ← splitFence text
  let (block, _) ← splitFence rest
  some ((if "json".toList.isPrefixOf block then block.drop 4 else block).dropWhile isSpace)

/-- `_strip_markdown_json`. -/
def stripMarkdownJson (text : Text) : Text :=
  match fenced text with
  | some block => strip block
  | none => strip text

/-- `text.find`. -/
def find (c : Char) (text : Text) : Option Nat := text.findIdx? (· = c)

/-- `text.rfind`. -/
def rfind (c : Char) (text : Text) : Option Nat := (find c text.reverse).map fun k => text.length - 1 - k

/-- `_sanitize_llm_response`. -/
def sanitizeLlmResponse (text : Text) : Text :=
  let text := stripMarkdownJson text
  strip (match find '{' text, rfind '}' text with
    | some first, some last => if first < last then (text.take (last + 1)).drop first else text
    | _, _ => text)

/-! ## Salvage -/

/-- The length of `"triplets"\s*:\s*\[` at the beginning of a text. -/
def matchTriplets (text : Text) : Option Nat :=
  if "\"triplets\"".toList.isPrefixOf text then
    match (text.drop 10).dropWhile isSpace with
    | ':' :: rest =>
      match rest.dropWhile isSpace with
      | '[' :: rest => some (text.length - rest.length)
      | _ => none
    | _ => none
  else none

/-- The state of the loop. -/
structure Scanner where
  inString : Bool
  escapeNext : Bool
  elementDepth : Int
  lastCompleteElementEnd : Nat
  i : Nat
  /-- The loop was left. -/
  stopped : Bool

/-- The loop's body, for the next character. -/
def Scanner.step (s : Scanner) (ch : Char) : Scanner :=
  if s.stopped then s
  else if s.escapeNext then { s with escapeNext := false, i := s.i + 1 }
  else if ch = '\\' && s.inString then { s with escapeNext := true, i := s.i + 1 }
  else if ch = '"' then { s with inString := !s.inString, i := s.i + 1 }
  else if s.inString then { s with i := s.i + 1 }
  else if ch = '{' then { s with elementDepth := s.elementDepth + 1, i := s.i + 1 }
  else if ch = '}' then
    { s with
      elementDepth := s.elementDepth - 1
      lastCompleteElementEnd := if s.elementDepth - 1 = 0 then s.i + 1 else s.lastCompleteElementEnd
      i := s.i + 1 }
  else if ch = ']' then { s with stopped := true }
  else { s with i := s.i + 1 }

def Scanner.start (arrStart : Nat) : Scanner := ⟨false, false, 0, arrStart, arrStart, false⟩

/-- The array is closed behind the last complete element. -/
def repair (sanitized : Text) (arrStart : Nat) : Text :=
  let final := (sanitized.drop arrStart).foldl Scanner.step (Scanner.start arrStart)
  ((sanitized.take final.lastCompleteElementEnd).rdropWhile (· = ',')).rdropWhile isSpace ++ [']', '}']

/-- `_salvage_truncated_json`. -/
def salvageTruncatedJson (raw : Text) : Option Tree :=
  let sanitized := sanitizeLlmResponse raw
  match loadsTree sanitized with
  | some v => some v
  | none =>
    match (scan (fun _ l => matchTriplets l) sanitized).head? with
    | none => none
    | some found => loadsTree (repair sanitized found.stop)

/-- `BatchResponseParser.parse` of a text; `validate` is `BatchExtractionResponse.model_validate`. -/
def parse {R : Type} (validate : Tree → Option R) (rawResponse : Text) : Option R :=
  match (loadsTree (sanitizeLlmResponse rawResponse)).bind validate with
  | some response => some response
  | none => (salvageTruncatedJson rawResponse).bind validate

/-! ## Quiet texts -/

def Scanner.moved (s : Scanner) (n : Nat) : Scanner := { s with i := s.i + n }

/-- Between two values. -/
def Scanner.Outside (s : Scanner) : Prop := s.inString = false ∧ s.escapeNext = false ∧ s.stopped = false

/-- Inside of a string, before an unescaped character. -/
def Scanner.Inside (s : Scanner) : Prop := s.inString = true ∧ s.escapeNext = false ∧ s.stopped = false

theorem stopped_foldl {s : Scanner} (h : s.stopped = true) (l : Text) : l.foldl Scanner.step s = s := by
  induction l with
  | nil => rfl
  | cons c l ih =>
    have hstep : s.step c = s := by
      unfold Scanner.step
      rw [if_pos h]
    rw [List.foldl_cons, hstep, ih]

/-- No beginning of the text ends an element. -/
def Keeps (l : Text) (s : Scanner) : Prop :=
  ∀ n, ((l.take n).foldl Scanner.step s).lastCompleteElementEnd = s.lastCompleteElementEnd

theorem Keeps.all {l : Text} {s : Scanner} (h : Keeps l s) :
    (l.foldl Scanner.step s).lastCompleteElementEnd = s.lastCompleteElementEnd := by
  have := h l.length
  rwa [List.take_length] at this

theorem Keeps.append {l r : Text} {s : Scanner} (hl : Keeps l s) (hr : Keeps r (l.foldl Scanner.step s)) :
    Keeps (l ++ r) s := by
  intro n
  rw [List.take_append, List.foldl_append]
  rcases Nat.le_total n l.length with hn | hn
  · rw [Nat.sub_eq_zero_of_le hn, List.take_zero]
    exact hl n
  · rw [List.take_of_length_le hn]
    exact (hr _).trans hl.all

theorem keeps_nil (s : Scanner) : Keeps [] s := by
  intro n
  rw [List.take_nil]
  rfl

theorem Keeps.cons {c : Char} {l : Text} {s : Scanner}
    (hc : (s.step c).lastCompleteElementEnd = s.lastCompleteElementEnd) (hl : Keeps l (s.step c)) :
    Keeps (c :: l) s := by
  intro n
  cases n with
  | zero => rfl
  | succ n =>
    rw [List.take_succ_cons, List.foldl_cons, ← hc]
    exact hl n

theorem keeps_stopped {s : Scanner} (h : s.stopped = true) (l : Text) : Keeps l s := by
  intro n
  rw [stopped_foldl h]

/-- No beginning of the text ends an element, and the scanner passes through the text or is left in it. -/
structure Quiet (passes : Bool) (l : Text) (s : Scanner) : Prop where
  keeps : Keeps l s
  ends : if passes then l.foldl Scanner.step s = s.moved l.length else (l.foldl Scanner.step s).stopped = true

theorem Quiet.passed {l : Text} {s : Scanner} (h : Quiet true l s) : l.foldl Scanner.step s = s.moved l.length := by
  simpa using h.ends

theorem Quiet.left {l : Text} {s : Scanner} (h : Quiet false l s) : (l.foldl Scanner.step s).stopped = true := by
  simpa using h.ends

theorem Quiet.append {a b : Bool} {l r : Text} {s : Scanner} (hl : Quiet a l s)
    (hr : a = true → Quiet b r (s.moved l.length)) : Quiet (a && b) (l ++ r) s := by
  cases a with
  | false =>
    refine ⟨hl.keeps.append (keeps_stopped hl.left r), ?_⟩
    rw [List.foldl_append, stopped_foldl hl.left]
    exact hl.left
  | true =>
    have hr := hr rfl
    refine ⟨hl.keeps.append (by rw [hl.passed]; exact hr.keeps), ?_⟩
    rw [List.foldl_append, hl.passed, List.length_append, Bool.true_and]
    cases b with
    | false => exact hr.left
    | true =>
      refine hr.passed.trans ?_
      simp only [Scanner.moved, Nat.add_assoc]

theorem quiet_nil (s : Scanner) : Quiet true [] s := ⟨keeps_nil s, rfl⟩

theorem quiet_single {c : Char} {s : Scanner} (h : s.step c = s.moved 1) : Quiet true [c] s :=
  ⟨Keeps.cons (by rw [h]; rfl) (keeps_nil _), h⟩

theorem Scanner.Outside.moved {s : Scanner} (h : s.Outside) (n : Nat) : (s.moved n).Outside := h

/-- A text between two characters, the second of which takes back what the first one did. -/
theorem Quiet.between {passes : Bool} {l : Text} {s t : Scanner} {a b : Char} (hl : Quiet passes l t)
    (ha : s.step a = t) (hkeep : t.lastCompleteElementEnd = s.lastCompleteElementEnd)
    (hb : (t.moved l.length).step b = s.moved (l.length + 2)) : Quiet passes (a :: (l ++ [b])) s := by
  subst ha
  cases passes with
  | false =>
    refine ⟨Keeps.cons hkeep (hl.keeps.append (keeps_stopped hl.left [b])), ?_⟩
    rw [List.foldl_cons, List.foldl_append, stopped_foldl hl.left]
    exact hl.left
  | true =>
    have hlast : (((s.step a).moved l.length).step b).lastCompleteElementEnd =
        ((s.step a).moved l.length).lastCompleteElementEnd := by
      rw [hb]
      exact hkeep.symm
    refine ⟨Keeps.cons hkeep (hl.keeps.append ?_), ?_⟩
    · rw [hl.passed]
      exact Keeps.cons hlast (keeps_nil _)
    · rw [List.foldl_cons, List.foldl_append, hl.passed, List.length_cons, List.length_append]
      exact hb

/-- A character that the scanner looks at outside of strings. -/
def isSignificant (c : Char) : Bool := c ∈ ['"', '{', '}', ']']

theorem quiet_plain {l : Text} {s : Scanner} (hs : s.Outside) (h : ∀ c ∈ l, isSignificant c = false) :
    Quiet true l s := by
  induction l generalizing s with
  | nil => exact quiet_nil s
  | cons c l ih =>
    obtain ⟨hc, hl⟩ := List.forall_mem_cons.1 h
    obtain ⟨hstring, hescape, hstop⟩ := hs
    have hother : c ≠ '"' ∧ c ≠ '{' ∧ c ≠ '}' ∧ c ≠ ']' := by simpa [isSignificant, not_or] using hc
    have hstep : s.step c = s.moved 1 := by
      unfold Scanner.step
      simp [hstring, hescape, hstop, hother, Scanner.moved]
    exact (quiet_single hstep).append (l := [c]) fun _ => ih ⟨hstring, hescape, hstop⟩ hl

/-! ## Strings -/

/-- Read inside a string, the text stays in it and ends between two characters. -/
def staysInside : Text → Bool
  | [] => true
  | [c] => c ≠ '\\' && c ≠ '"'
  | c :: d :: l => if c = '\\' then staysInside l else c ≠ '"' && staysInside (d :: l)

theorem quiet_inside {l : Text} {s : Scanner} (hs : s.Inside) (h : staysInside l = true) : Quiet true l s := by
  obtain ⟨hstring, hescape, hstop⟩ := hs
  fun_induction staysInside l generalizing s with
  | case1 => exact quiet_nil s
  | case2 c =>
    have hc : c ≠ '\\' ∧ c ≠ '"' := by simpa using h
    refine quiet_single ?_
    unfold Scanner.step
    simp [hstring, hescape, hstop, hc, Scanner.moved]
  | case3 d l ih =>
    have hpair : Quiet true ['\\', d] s := by
      have hescaped : s.step '\\' = { s with escapeNext := true, i := s.i + 1 } := by
        unfold Scanner.step
        simp [hstring, hescape, hstop]
      have hnext : ({ s with escapeNext := true, i := s.i + 1 } : Scanner).step d = s.moved 2 := by
        unfold Scanner.step
        simp [hstop, Scanner.moved, hescape]
      refine ⟨Keeps.cons (by rw [hescaped]) (Keeps.cons (by rw [hescaped, hnext]; rfl) (keeps_nil _)), ?_⟩
      rw [List.foldl_cons, hescaped, List.foldl_cons, hnext]
      rfl
    exact hpair.append fun _ => ih h hstring hescape hstop
  | case4 c d l hne ih =>
    obtain ⟨hquote, hl⟩ : c ≠ '"' ∧ staysInside (d :: l) = true := by simpa using h
    have hstep : s.step c = s.moved 1 := by
      unfold Scanner.step
      simp [hstring, hescape, hstop, hne, hquote, Scanner.moved]
    exact (quiet_single hstep).append fun _ => ih hl hstring hescape hstop

theorem quiet_quoted {l : Text} {s : Scanner} (hs : s.Outside) (h : staysInside l = true) :
    Quiet true ('"' :: (l ++ ['"'])) s := by
  obtain ⟨hstring, hescape, hstop⟩ := hs
  have hopen : s.step '"' = { s with inString := true, i := s.i + 1 } := by
    unfold Scanner.step
    simp [hstring, hescape, hstop]
  refine (quiet_inside (s := { s with inString := true, i := s.i + 1 }) ⟨rfl, hescape, hstop⟩ h).between hopen rfl ?_
  unfold Scanner.step
  simp [hstring, hescape, hstop, Scanner.moved]
  omega

/-- An object that lies in another one. -/
theorem quiet_braces {passes : Bool} {l : Text} {s : Scanner} (hs : s.Outside) (hdepth : 0 < s.elementDepth)
    (h : ∀ t : Scanner, t.Outside → 0 < t.elementDepth → Quiet passes l t) : Quiet passes ('{' :: (l ++ ['}'])) s := by
  obtain ⟨hstring, hescape, hstop⟩ := hs
  have hopen : s.step '{' = { s with elementDepth := s.elementDepth + 1, i := s.i + 1 } := by
    unfold Scanner.step
    simp [hstring, hescape, hstop]
  have hinner := h { s with elementDepth := s.elementDepth + 1, i := s.i + 1 } ⟨hstring, hescape, hstop⟩
    (by dsimp only; omega)
  refine hinner.between hopen rfl ?_
  have hopened : s.elementDepth ≠ 0 := by omega
  unfold Scanner.step
  simp [hstring, hescape, hstop, Scanner.moved, hopened]
  omega

/-! ## Written values -/

/-- A way to write values that the scanner can follow: the characters of a string stay inside it, and the letters of
the array's name are not escaped. -/
structure Writer extends Style where
  stays : ∀ c, staysInside (encode c) = true
  named : ∀ c ∈ "triplets".toList, encode c = [c]

theorem staysInside_append {l r : Text} (hl : staysInside l = true) (hr : staysInside r = true) :
    staysInside (l ++ r) = true := by
  fun_induction staysInside l with
  | case1 => exact hr
  | case2 c =>
    have hc : c ≠ '\\' ∧ c ≠ '"' := by simpa using hl
    cases r with
    | nil => simp [staysInside, hc]
    | cons d r => simp [staysInside, hc, hr]
  | case3 d l ih => simpa [staysInside] using ih hl
  | case4 c d l hne ih =>
    obtain ⟨hquote, hl⟩ : c ≠ '"' ∧ staysInside (d :: l) = true := by simpa using hl
    simpa [staysInside, hne, hquote] using ih hl

theorem stays_plain {l : Text} (h : ∀ c ∈ l, c ≠ '\\' ∧ c ≠ '"') : staysInside l = true := by
  induction l with
  | nil => rfl
  | cons c l ih =>
    obtain ⟨hc, hl⟩ := List.forall_mem_cons.1 h
    cases l with
    | nil => simp [staysInside, hc]
    | cons d l => simp [staysInside, hc, ih hl]

theorem stays_unit (n : Nat) : staysInside ('\\' :: 'u' :: hex4 n) = true := by
  have hall : ∀ n : Fin 16, hexDigit n ≠ '\\' ∧ hexDigit n ≠ '"' := by decide
  have hdigit : ∀ m, hexDigit (m % 16) ≠ '\\' ∧ hexDigit (m % 16) ≠ '"' := fun m =>
    hall ⟨m % 16, Nat.mod_lt _ (by decide)⟩
  have hhex : staysInside (hex4 n) = true := stays_plain (by simp [hex4, hdigit])
  simpa [staysInside] using hhex

theorem stays_short {c e : Char} (h : shortEscapes.lookup c = some e) : staysInside ['\\', e] = true := by
  have hall : ∀ p ∈ shortEscapes, staysInside ['\\', p.2] = true := by decide
  exact hall _ (mem_of_lookup h)

theorem stays_escape (c : Char) : staysInside (escape c) = true := by
  unfold escape
  cases hlookup : shortEscapes.lookup c with
  | some e => exact stays_short hlookup
  | none =>
    dsimp only
    split
    · refine stays_plain fun d hd => ?_
      obtain rfl := List.mem_singleton.1 hd
      constructor <;> rintro rfl <;> revert hlookup <;> decide
    · unfold units
      split
      · simpa using stays_unit c.toNat
      · simpa using staysInside_append (stays_unit (0xD800 + (c.toNat - 0x10000) / 0x400))
          (stays_unit (0xDC00 + (c.toNat - 0x10000) % 0x400))

theorem stays_escapeRaw (c : Char) : staysInside (escapeRaw c) = true := by
  unfold escapeRaw
  cases hlookup : shortEscapes.lookup c with
  | some e => exact stays_short hlookup
  | none =>
    dsimp only
    split
    · exact stays_unit c.toNat
    · refine stays_plain fun d hd => ?_
      obtain rfl := List.mem_singleton.1 hd
      constructor <;> rintro rfl <;> revert hlookup <;> decide

/-- `json.dumps` with its default arguments. -/
def dumps : Writer where
  toStyle := ⟨asciiEncoder, [' '], [' '], rfl, rfl⟩
  stays := stays_escape
  named := List.all_iff_forall_prop.1 (by decide)

/-- `model_dump_json`. -/
def dumpJson : Writer where
  toStyle := ⟨unicodeEncoder, [], [], nil_blank, nil_blank⟩
  stays := stays_escapeRaw
  named := List.all_iff_forall_prop.1 (by decide)

mutual

/-- There is no array in the value. -/
def arrayFree : Tree → Bool
  | .arr _ => false
  | .obj members => arrayFreeMembers members
  | _ => true

def arrayFreeMembers : List (Text × Tree) → Bool
  | [] => true
  | (_, x) :: ms => arrayFree x && arrayFreeMembers ms

end

variable (w : Writer)

theorem stays_flatMap (s : Text) : staysInside (s.flatMap w.encode) = true := by
  induction s with
  | nil => rfl
  | cons c s ih =>
    rw [List.flatMap_cons]
    exact staysInside_append (w.stays c) ih

/-- Quiet inside an element. -/
def QuietWithin (passes : Bool) (l : Text) : Prop :=
  ∀ s : Scanner, s.Outside → 0 < s.elementDepth → Quiet passes l s

theorem QuietWithin.append {a b : Bool} {l r : Text} (hl : QuietWithin a l) (hr : QuietWithin b r) :
    QuietWithin (a && b) (l ++ r) :=
  fun s hs hdepth => (hl s hs hdepth).append fun _ => hr _ (hs.moved _) hdepth

theorem QuietWithin.cons {b : Bool} {c : Char} {r : Text} (hc : isSignificant c = false) (hr : QuietWithin b r) :
    QuietWithin b (c :: r) :=
  fun s hs hdepth => (quiet_plain (l := [c]) hs (by simpa using hc)).append fun _ => hr _ (hs.moved _) hdepth

theorem quiet_closed : QuietWithin false [']'] := by
  rintro s ⟨hstring, hescape, hstop⟩ -
  have hclose : s.step ']' = { s with stopped := true } := by
    unfold Scanner.step
    simp [hstring, hescape, hstop]
  exact ⟨Keeps.cons (by rw [hclose]) (keeps_nil _), by simp [hclose]⟩

theorem quiet_quote (text : Text) : QuietWithin true (w.quote text) :=
  fun _ hs _ => quiet_quoted hs (stays_flatMap w text)

theorem isSignificant_token {c : Char} (h : isTokenChar c = true) : isSignificant c = false := by
  rw [Bool.eq_false_iff]
  intro hsignificant
  have hcases : c = '"' ∨ c = '{' ∨ c = '}' ∨ c = ']' := by simpa [isSignificant] using hsignificant
  rcases hcases with rfl | rfl | rfl | rfl <;> revert h <;> decide

theorem isSignificant_blank {c : Char} (h : Json.isBlank c = true) : isSignificant c = false := by
  have hcases : c = ' ' ∨ c = '\t' ∨ c = '\n' ∨ c = '\r' := by simpa [Json.isBlank] using h
  rcases hcases with rfl | rfl | rfl | rfl <;> decide

theorem quiet_token {l : Text} (h : l.all isTokenChar = true) : QuietWithin true l :=
  fun _ hs _ => quiet_plain hs fun c hc => isSignificant_token (List.all_eq_true.1 h c hc)

theorem quiet_blanks {l : Text} (h : l.all Json.isBlank = true) : QuietWithin true l :=
  fun _ hs _ => quiet_plain hs fun c hc => isSignificant_blank (List.all_eq_true.1 h c hc)

theorem quiet_member {a b : Bool} {l r : Text} (key : Text) (hl : QuietWithin a l) (hr : QuietWithin b r) :
    QuietWithin (a && b) (w.quote key ++ ':' :: (w.colon ++ (l ++ r))) := by
  have hvalue := (quiet_blanks w.colonBlank).append (hl.append hr)
  rw [Bool.true_and] at hvalue
  exact (quiet_quote w key).append (hvalue.cons rfl)

mutual

/-- Inside an element, the scanner passes through a value, or is left in it if there is an array. -/
theorem quiet_render : ∀ v : Tree, QuietWithin (arrayFree v) (w.render v)
  | .null => quiet_token (l := "null".toList) rfl
  | .bool true => quiet_token (l := "true".toList) rfl
  | .bool false => quiet_token (l := "false".toList) rfl
  | .num n => quiet_token n.all
  | .str text => quiet_quote w text
  | .arr [] => quiet_closed.cons rfl
  | .arr (x :: xs) => by
    have hitems := (quiet_render x).append (quiet_items xs)
    rw [Bool.and_false] at hitems
    exact hitems.cons rfl
  | .obj ms => by
    obtain ⟨body, hbody, hquiet⟩ := object_body ms
    rw [hbody]
    exact fun s hs hdepth => quiet_braces hs hdepth hquiet

theorem quiet_items : ∀ xs : List Tree, QuietWithin false (w.renderItems xs)
  | [] => quiet_closed
  | x :: xs => by
    have hitems := (quiet_blanks w.commaBlank).append ((quiet_render x).append (quiet_items xs))
    rw [Bool.and_false, Bool.and_false] at hitems
    exact hitems.cons rfl

/-- What stands between the braces of an object. -/
theorem object_body : ∀ ms : List (Text × Tree),
    ∃ body, w.render (.obj ms) = '{' :: (body ++ ['}']) ∧ QuietWithin (arrayFreeMembers ms) body
  | [] => ⟨[], rfl, fun s _ _ => quiet_nil s⟩
  | (key, x) :: ms => by
    obtain ⟨body, hbody, hquiet⟩ := pairs_body ms
    refine ⟨w.quote key ++ ':' :: (w.colon ++ (w.render x ++ body)), ?_, quiet_member w key (quiet_render x) hquiet⟩
    rw [Style.render, hbody]
    simp

theorem pairs_body : ∀ ms : List (Text × Tree),
    ∃ body, w.renderPairs ms = body ++ ['}'] ∧ QuietWithin (arrayFreeMembers ms) body
  | [] => ⟨[], rfl, fun s _ _ => quiet_nil s⟩
  | (key, x) :: ms => by
    obtain ⟨body, hbody, hquiet⟩ := pairs_body ms
    have hmember := (quiet_blanks w.commaBlank).append (quiet_member w key (quiet_render x) hquiet)
    rw [Bool.true_and] at hmember
    refine ⟨',' :: (w.comma ++ (w.quote key ++ ':' :: (w.colon ++ (w.render x ++ body)))), ?_, hmember.cons rfl⟩
    rw [Style.renderPairs, hbody]
    simp

end

end Mesa.Consolidation
