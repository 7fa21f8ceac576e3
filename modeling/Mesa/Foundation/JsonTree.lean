/-
Nested JSON values as text. A value is written with the escapes of an encoder and with blanks after its commas and
colons, and `loads` reads it back. No proper beginning of an object's text is the text of a value.
-/
import Mathlib.Data.String.Basic
import Mesa.Foundation.JsonLines
import Mesa.Foundation.Texts

namespace Mesa.Foundation.Json

/-! ## Values -/

/-- A character of a number or of one of the names `null`, `true`, `false`, `NaN`, `Infinity`. -/
def isTokenChar (c : Char) : Bool := c.isAlphanum || c ∈ ['-', '+', '.']

def isExponent : List Char → Bool
  | [] => true
  | e :: rest =>
    let digits := if rest.head? ∈ [some '+', some '-'] then rest.tail else rest
    (e = 'e' || e = 'E') && digits ≠ [] && digits.all (·.isDigit)

def isFraction : List Char → Bool
  | [] => true
  | c :: rest =>
    if c = '.' then rest.takeWhile (·.isDigit) ≠ [] && isExponent (rest.dropWhile (·.isDigit))
    else isExponent (c :: rest)

/-- An integer part without leading zeros, and a fraction and an exponent if they are there. -/
def isDecimal (l : List Char) : Bool :=
  let integer := l.takeWhile (·.isDigit)
  integer ≠ [] && (integer = ['0'] || integer.head? ≠ some '0') && isFraction (l.dropWhile (·.isDigit))

/-- The numbers that `json.dumps` writes and `json.loads` reads. -/
def isNumeral (l : List Char) : Bool :=
  l.all isTokenChar && (l ∈ ["NaN".toList, "Infinity".toList, "-Infinity".toList] ||
    isDecimal (if l.head? = some '-' then l.tail else l))

/-- A number, kept as it is written. -/
structure Numeral where
  literal : List Char
  valid : isNumeral literal = true
  deriving DecidableEq

/-- A JSON value. An object has its members in the order of the text. -/
inductive Tree
  | null
  | bool (b : Bool)
  | num (n : Numeral)
  | str (s : List Char)
  | arr (items : List Tree)
  | obj (members : List (List Char × Tree))

/-- The value of a key: that of its last member. -/
def Tree.get : Tree → List Char → Option Tree
  | .obj members, key => (members.reverse.find? (·.1 = key)).map (·.2)
  | _, _ => none

mutual

/-- The value with the members of every object in the order of their keys. -/
def Tree.sorted : Tree → Tree
  | .arr items => .arr (Tree.sortedItems items)
  | .obj members => .obj ((Tree.sortedPairs members).insertionSort fun a b => a.1 ≤ b.1)
  | v => v

def Tree.sortedItems : List Tree → List Tree
  | [] => []
  | x :: xs => Tree.sorted x :: Tree.sortedItems xs

def Tree.sortedPairs : List (List Char × Tree) → List (List Char × Tree)
  | [] => []
  | (key, x) :: ms => (key, Tree.sorted x) :: Tree.sortedPairs ms

end

/-! ## Reading -/

/-- The rest of a string and what follows it. -/
def readChars (l : List Char) : Option (List Char × List Char) := do
  let (us, rest) ← readString l
  let chars ← merge us
  some (chars, rest)

/-- A value that is one token. -/
def scalar (token : List Char) : Option Tree :=
  if token = "null".toList then some .null
  else if token = "true".toList then some (.bool true)
  else if token = "false".toList then some (.bool false)
  else if h : isNumeral token = true then some (.num ⟨token, h⟩)
  else none

def readScalar (l : List Char) : Option (Tree × List Char) :=
  (scalar (l.takeWhile isTokenChar)).map fun v => (v, l.dropWhile isTokenChar)

mutual

/-- A value at the beginning of a text, and what follows it. -/
def readTree : Nat → List Char → Option (Tree × List Char)
  | 0, _ => none
  | _ + 1, [] => none
  | n + 1, c :: t =>
    if c = '"' then (readChars t).map fun p => (.str p.1, p.2)
    else if c = '[' then
      if (skip t).head? = some ']' then some (.arr [], (skip t).tail)
      else do
        let (x, r) ← readTree n (skip t)
        let (xs, r) ← readItems n r
        some (.arr (x :: xs), r)
    else if c = '{' then
      if (skip t).head? = some '}' then some (.obj [], (skip t).tail)
      else do
        let (m, r) ← readMember n (skip t)
        let (ms, r) ← readPairs n r
        some (.obj (m :: ms), r)
    else readScalar (c :: t)

/-- The items after the first one, up to the closing bracket. -/
def readItems : Nat → List Char → Option (List Tree × List Char)
  | 0, _ => none
  | n + 1, l =>
    match skip l with
    | [] => none
    | c :: t =>
      if c = ']' then some ([], t)
      else if c = ',' then do
        let (x, r) ← readTree n (skip t)
        let (xs, r) ← readItems n r
        some (x :: xs, r)
      else none

def readMember : Nat → List Char → Option ((List Char × Tree) × List Char)
  | 0, _ => none
  | _ + 1, [] => none
  | n + 1, c :: t =>
    if c = '"' then do
      let (key, r) ← readChars t
      match skip r with
      | [] => none
      | d :: t =>
        if d = ':' then do
          let (x, r) ← readTree n (skip t)
          some ((key, x), r)
        else none
    else none

/-- The members after the first one, up to the closing brace. -/
def readPairs : Nat → List Char → Option (List (List Char × Tree) × List Char)
  | 0, _ => none
  | n + 1, l =>
    match skip l with
    | [] => none
    | c :: t =>
      if c = '}' then some ([], t)
      else if c = ',' then do
        let (m, r) ← readMember n (skip t)
        let (ms, r) ← readPairs n r
        some (m :: ms, r)
      else none

end

/-- `json.loads`. -/
def loadsTree (l : List Char) : Option Tree := do
  let (v, r) ← readTree (l.length + 1) (skip l)
  if skip r = [] then some v else none

/-! ## Writing -/

/-- How the characters of a string are written. -/
structure Encoder where
  encode : Char → List Char
  reads : ∀ c l, readChars (encode c ++ l) = (readChars l).map fun p => (c :: p.1, p.2)

theorem nil_blank : ([] : List Char).all isBlank = true := rfl

/-- An encoder, and the blanks that are written after commas and colons. -/
structure Style extends Encoder where
  comma : List Char
  colon : List Char
  commaBlank : comma.all isBlank = true
  colonBlank : colon.all isBlank = true

variable (st : Style)

def Style.quote (s : List Char) : List Char := '"' :: (s.flatMap st.encode ++ ['"'])

mutual

/-- `json.dumps`. -/
def Style.render : Tree → List Char
  | .null => "null".toList
  | .bool true => "true".toList
  | .bool false => "false".toList
  | .num n => n.literal
  | .str s => st.quote s
  | .arr [] => ['[', ']']
  | .arr (x :: xs) => '[' :: (Style.render x ++ Style.renderItems xs)
  | .obj [] => ['{', '}']
  | .obj ((key, x) :: ms) => '{' :: (st.quote key ++ ':' :: (st.colon ++ (Style.render x ++ Style.renderPairs ms)))

def Style.renderItems : List Tree → List Char
  | [] => [']']
  | x :: xs => ',' :: (st.comma ++ (Style.render x ++ Style.renderItems xs))

def Style.renderPairs : List (List Char × Tree) → List Char
  | [] => ['}']
  | (key, x) :: ms =>
    ',' :: (st.comma ++ (st.quote key ++ ':' :: (st.colon ++ (Style.render x ++ Style.renderPairs ms))))

end

/-! ## Encoders -/

theorem readChars_units (us : List Nat) {c : Char} (hus : ∀ m, merge (us ++ m) = (merge m).map (c :: ·))
    {e l : List Char} (h : readString (e ++ l) = (readString l).map fun p => (us ++ p.1, p.2)) :
    readChars (e ++ l) = (readChars l).map fun p => (c :: p.1, p.2) := by
  unfold readChars
  rw [h]
  cases readString l with
  | none => rfl
  | some p =>
    simp only [Option.map_some, Option.bind_eq_bind, Option.bind_some, hus]
    cases merge p.1 <;> rfl

/-- `ensure_ascii=True`. -/
def asciiEncoder : Encoder where
  encode := escape
  reads c l := readChars_units _ (merge_units c) (readString_escape c l)

/-- The escapes of `ensure_ascii=False`. -/
def escapeRaw (c : Char) : List Char :=
  match shortEscapes.lookup c with
  | some e => ['\\', e]
  | none => if c < ' ' then '\\' :: 'u' :: hex4 c.toNat else [c]

theorem readChars_unit {c : Char} (h : c.toNat < 0xD800) (l : List Char) :
    readChars ('\\' :: 'u' :: (hex4 c.toNat ++ l)) = (readChars l).map fun p => (c :: p.1, p.2) := by
  refine readChars_units [c.toNat] (e := '\\' :: 'u' :: hex4 c.toNat) (fun m => ?_) ?_
  · rw [List.singleton_append, merge_single (by omega), Char.ofNat_toNat]
  · exact readString_unit (by omega) l

theorem readChars_plain {c : Char} (hquote : c ≠ '"') (hslash : c ≠ '\\') (hc : ' ' ≤ c) (l : List Char) :
    readChars (c :: l) = (readChars l).map fun p => (c :: p.1, p.2) := by
  refine readChars_units [c.toNat] (e := [c]) (fun m => ?_) (readString_plain hquote hslash hc l)
  have hvalid := char_toNat_lt c
  rw [List.singleton_append, merge_single (by omega), Char.ofNat_toNat]

theorem escapeRaw_reads (c : Char) (l : List Char) :
    readChars (escapeRaw c ++ l) = (readChars l).map fun p => (c :: p.1, p.2) := by
  unfold escapeRaw
  cases hlookup : shortEscapes.lookup c with
  | some e =>
    have hall : ∀ p ∈ shortEscapes, p.2 ≠ 'u' ∧ unescape p.2 = some p.1 ∧ p.1.toNat < 0xD800 := by decide
    obtain ⟨hu, hunescape, hsmall⟩ := hall _ (mem_of_lookup hlookup)
    dsimp only at hu hunescape hsmall ⊢
    refine readChars_units [c.toNat] (fun m => ?_) (readString_short hu hunescape l)
    rw [List.singleton_append, merge_single (by omega), Char.ofNat_toNat]
  | none =>
    dsimp only
    split
    · next hcontrol => exact readChars_unit (lt_trans (show c.toNat < ' '.toNat from hcontrol) (by decide)) l
    · next hplain =>
      refine readChars_plain ?_ ?_ (Char.not_lt.1 hplain) l
      · rintro rfl; revert hlookup; decide
      · rintro rfl; revert hlookup; decide

/-- `ensure_ascii=False`. -/
def unicodeEncoder : Encoder := ⟨escapeRaw, escapeRaw_reads⟩

theorem readChars_quote (l : List Char) : readChars ('"' :: l) = some ([], l) := by
  unfold readChars
  rw [readString_quote]
  rfl

theorem readChars_encoded (e : Encoder) (s l : List Char) :
    readChars (s.flatMap e.encode ++ '"' :: l) = some (s, l) := by
  induction s with
  | nil => exact readChars_quote l
  | cons c s ih =>
    rw [List.flatMap_cons, List.append_assoc, e.reads, ih]
    rfl

/-! ## Tokens and blanks -/

/-- What follows a token does not go on with it. -/
def Delimited (r : List Char) : Prop := ∀ c ∈ r.head?, isTokenChar c = false

theorem delimited_cons {c : Char} (h : isTokenChar c = false) (r : List Char) : Delimited (c :: r) := by
  rintro d hd
  obtain rfl := Option.some.inj hd
  exact h

theorem token_append {token r : List Char} (h : token.all isTokenChar = true) (hr : Delimited r) :
    (token ++ r).takeWhile isTokenChar = token ∧ (token ++ r).dropWhile isTokenChar = r := by
  have hall := List.all_eq_true.1 h
  rw [List.takeWhile_append_of_pos hall, List.dropWhile_append_of_pos hall]
  cases r with
  | nil => simp
  | cons c r =>
    rw [List.takeWhile_cons, List.dropWhile_cons, hr c rfl]
    simp

theorem Numeral.all (n : Numeral) : n.literal.all isTokenChar = true := by
  have h := n.valid
  unfold isNumeral at h
  exact (Bool.and_eq_true_iff.1 h).1

theorem Numeral.ne_nil (n : Numeral) : n.literal ≠ [] := by
  intro h
  have hv := n.valid
  rw [h] at hv
  revert hv
  decide

theorem scalar_numeral (n : Numeral) : scalar n.literal = some (.num n) := by
  have hne : ∀ name : List Char, isNumeral name = false → n.literal ≠ name := by
    rintro name hname rfl
    rw [n.valid] at hname
    cases hname
  unfold scalar
  rw [if_neg (hne _ (by decide)), if_neg (hne _ (by decide)), if_neg (hne _ (by decide)), dif_pos n.valid]

theorem readScalar_token {token r : List Char} (h : token.all isTokenChar = true) (hr : Delimited r) :
    readScalar (token ++ r) = (scalar token).map fun v => (v, r) := by
  unfold readScalar
  rw [(token_append h hr).1, (token_append h hr).2]

theorem skip_blanks {b : List Char} (h : b.all isBlank = true) (l : List Char) : skip (b ++ l) = skip l := by
  unfold skip
  rw [List.dropWhile_append_of_pos (List.all_eq_true.1 h)]

/-- The first character of a value. -/
theorem render_head (v : Tree) : ∃ c t, st.render v = c :: t ∧ isBlank c = false ∧ c ≠ ']' ∧ c ≠ '}' := by
  cases v with
  | null => exact ⟨_, _, rfl, rfl, by decide, by decide⟩
  | bool b => cases b <;> exact ⟨_, _, rfl, rfl, by decide, by decide⟩
  | num n =>
    cases hl : n.literal with
    | nil => exact absurd hl n.ne_nil
    | cons c t =>
      have hc : isTokenChar c = true := List.all_eq_true.1 n.all c (by rw [hl]; exact List.mem_cons_self)
      refine ⟨c, t, hl, ?_, ?_, ?_⟩
      · rw [Bool.eq_false_iff]
        intro hb
        have hcases : c = ' ' ∨ c = '\t' ∨ c = '\n' ∨ c = '\r' := by simpa [isBlank] using hb
        rcases hcases with rfl | rfl | rfl | rfl <;> revert hc <;> decide
      · rintro rfl; revert hc; decide
      · rintro rfl; revert hc; decide
  | str s => exact ⟨_, _, rfl, rfl, by decide, by decide⟩
  | arr xs => cases xs <;> exact ⟨_, _, rfl, rfl, by decide, by decide⟩
  | obj ms => rcases ms with _ | ⟨⟨key, x⟩, ms⟩ <;> exact ⟨_, _, rfl, rfl, by decide, by decide⟩

theorem skip_render (v : Tree) (r : List Char) : skip (st.render v ++ r) = st.render v ++ r := by
  obtain ⟨c, t, h, hb, -⟩ := render_head st v
  rw [h]
  exact skip_cons hb _

/-! ## What is written is read back -/

theorem renderItems_head (xs : List Tree) (r : List Char) :
    Delimited (st.renderItems xs ++ r) ∧ skip (st.renderItems xs ++ r) = st.renderItems xs ++ r := by
  cases xs <;> exact ⟨delimited_cons (by decide) _, skip_cons (by decide) _⟩

theorem renderPairs_head (ms : List (List Char × Tree)) (r : List Char) :
    Delimited (st.renderPairs ms ++ r) ∧ skip (st.renderPairs ms ++ r) = st.renderPairs ms ++ r := by
  rcases ms with _ | ⟨⟨key, x⟩, ms⟩ <;> exact ⟨delimited_cons (by decide) _, skip_cons (by decide) _⟩

/-- A token that stands for a value is not the beginning of a string, an array or an object. -/
theorem readTree_token {token r : List Char} (hne : token ≠ []) (h : token.all isTokenChar = true) (hr : Delimited r)
    (n : Nat) : readTree (n + 1) (token ++ r) = (scalar token).map fun v => (v, r) := by
  cases token with
  | nil => exact absurd rfl hne
  | cons c t =>
    have hc : isTokenChar c = true := List.all_eq_true.1 h c List.mem_cons_self
    rw [← readScalar_token h hr, List.cons_append, readTree, if_neg, if_neg, if_neg] <;>
    · rintro rfl
      revert hc
      decide

theorem quote_append (s r : List Char) : st.quote s ++ r = '"' :: (s.flatMap st.encode ++ '"' :: r) := by
  simp [Style.quote]

/-- One member, before what is left of its object. -/
theorem readMember_render {key : List Char} {x : Tree} {n : Nat} {r : List Char}
    (h : readTree n (st.render x ++ r) = some (x, r)) :
    readMember (n + 1) (st.quote key ++ ':' :: (st.colon ++ (st.render x ++ r))) = some ((key, x), r) := by
  rw [quote_append, readMember, if_pos rfl, readChars_encoded]
  simp only [Option.bind_eq_bind, Option.bind_some]
  rw [skip_cons (by decide)]
  simp only [if_true]
  rw [skip_blanks st.colonBlank, skip_render, h]
  rfl

mutual

/-- A written value is read back with what follows it. -/
theorem readTree_render : ∀ (v : Tree) (n : Nat) (r : List Char), (st.render v).length < n → Delimited r →
    readTree n (st.render v ++ r) = some (v, r)
  | v, 0, r, h, _ => absurd h (Nat.not_lt_zero _)
  | .null, n + 1, r, _, hr => readTree_token (show "null".toList ≠ [] by decide) (by decide) hr n
  | .bool true, n + 1, r, _, hr => readTree_token (show "true".toList ≠ [] by decide) (by decide) hr n
  | .bool false, n + 1, r, _, hr => readTree_token (show "false".toList ≠ [] by decide) (by decide) hr n
  | .num k, n + 1, r, _, hr => by
    rw [Style.render, readTree_token k.ne_nil k.all hr, scalar_numeral]
    rfl
  | .str s, n + 1, r, _, _ => by
    rw [Style.render, quote_append, readTree, if_pos rfl, readChars_encoded]
    rfl
  | .arr [], n + 1, r, _, _ => by
    rw [Style.render, List.cons_append, readTree, if_neg (by decide), if_pos rfl]
    rfl
  | .arr (x :: xs), n + 1, r, h, hr => by
    simp only [Style.render, List.length_cons, List.length_append] at h
    have hx := readTree_render x n (st.renderItems xs ++ r) (by omega) (renderItems_head st xs r).1
    have hxs := readItems_render xs n r (by omega)
    obtain ⟨c, t, hc, -, hbracket, -⟩ := render_head st x
    rw [Style.render, List.cons_append, List.append_assoc, readTree, if_neg (by decide), if_pos rfl, skip_render, if_neg,
      hx]
    · simp only [Option.bind_eq_bind, Option.bind_some, hxs]
    · rw [hc]
      intro he
      exact hbracket (Option.some.inj he)
  | .obj [], n + 1, r, _, _ => by
    rw [Style.render, List.cons_append, readTree, if_neg (by decide), if_neg (by decide), if_pos rfl]
    rfl
  | .obj ((key, x) :: ms), n + 1, r, h, hr => by
    simp only [Style.render, List.length_cons, List.length_append] at h
    cases n with
    | zero => omega
    | succ n =>
      have hx := readTree_render x n (st.renderPairs ms ++ r) (by omega) (renderPairs_head st ms r).1
      have hms := readPairs_render ms (n + 1) r (by omega)
      have hskip : ∀ l, skip (st.quote key ++ l) = st.quote key ++ l := fun l => skip_cons (by decide) _
      rw [Style.render, List.cons_append, readTree, if_neg (by decide), if_neg (by decide), if_pos rfl, if_neg]
      · simp only [List.append_assoc, List.cons_append]
        rw [hskip, readMember_render st hx]
        simp only [Option.bind_eq_bind, Option.bind_some, hms]
      · simp only [List.append_assoc, List.cons_append]
        rw [hskip, quote_append]
        exact fun he => absurd (Option.some.inj he) (by decide)

theorem readItems_render : ∀ (xs : List Tree) (n : Nat) (r : List Char), (st.renderItems xs).length < n →
    readItems n (st.renderItems xs ++ r) = some (xs, r)
  | xs, 0, r, h => absurd h (Nat.not_lt_zero _)
  | [], n + 1, r, _ => by
    rw [readItems, (renderItems_head st [] r).2]
    simp [Style.renderItems]
  | x :: xs, n + 1, r, h => by
    simp only [Style.renderItems, List.length_cons, List.length_append] at h
    have hx := readTree_render x n (st.renderItems xs ++ r) (by omega) (renderItems_head st xs r).1
    have hxs := readItems_render xs n r (by omega)
    rw [readItems, (renderItems_head st (x :: xs) r).2, Style.renderItems]
    simp only [List.cons_append, List.append_assoc, Char.reduceEq, if_false, if_true]
    rw [skip_blanks st.commaBlank, skip_render, hx]
    simp only [Option.bind_eq_bind, Option.bind_some, hxs]

theorem readPairs_render : ∀ (ms : List (List Char × Tree)) (n : Nat) (r : List Char),
    (st.renderPairs ms).length < n → readPairs n (st.renderPairs ms ++ r) = some (ms, r)
  | ms, 0, r, h => absurd h (Nat.not_lt_zero _)
  | [], n + 1, r, _ => by
    rw [readPairs, (renderPairs_head st [] r).2]
    simp [Style.renderPairs]
  | (key, x) :: ms, n + 1, r, h => by
    simp only [Style.renderPairs, List.length_cons, List.length_append] at h
    cases n with
    | zero => omega
    | succ n =>
      have hx := readTree_render x n (st.renderPairs ms ++ r) (by omega) (renderPairs_head st ms r).1
      have hms := readPairs_render ms (n + 1) r (by omega)
      have hskip : ∀ l, skip (st.quote key ++ l) = st.quote key ++ l := fun l => skip_cons (by decide) _
      rw [readPairs, (renderPairs_head st ((key, x) :: ms) r).2, Style.renderPairs]
      simp only [List.cons_append, List.append_assoc, Char.reduceEq, if_false, if_true]
      rw [skip_blanks st.commaBlank, hskip, readMember_render st hx]
      simp only [Option.bind_eq_bind, Option.bind_some, hms]

end

theorem loadsTree_render (v : Tree) : loadsTree (st.render v) = some v := by
  have hread := readTree_render st v ((st.render v).length + 1) [] (by omega) (by intro c hc; cases hc)
  rw [List.append_nil] at hread
  have hskip := skip_render st v []
  rw [List.append_nil] at hskip
  unfold loadsTree
  rw [hskip, hread]
  rfl

/-! ## Longer texts -/

theorem readString_append {l : List Char} {us : List Nat} {u : List Char} (h : readString l = some (us, u))
    (r : List Char) : readString (l ++ r) = some (us, u ++ r) := by
  fun_induction readString l generalizing us u with
  | case1 => cases h
  | case2 rest =>
    cases h
    exact readString_quote _
  | case3 a b c d rest _ ih =>
    obtain ⟨unit, hunit, h⟩ := Option.bind_eq_some_iff.1 h
    obtain ⟨⟨us', u'⟩, hrest, h⟩ := Option.bind_eq_some_iff.1 h
    cases h
    simp [readString, hunit, ih hrest]
  | case4 => cases h
  | case5 e rest hu _ ih =>
    obtain ⟨char, hchar, h⟩ := Option.bind_eq_some_iff.1 h
    obtain ⟨⟨us', u'⟩, hrest, h⟩ := Option.bind_eq_some_iff.1 h
    cases h
    rw [List.cons_append, List.cons_append, readString_short hu hchar, ih hrest]
    rfl
  | case6 => cases h
  | case7 => cases h
  | case8 c rest hquote hslash hc ih =>
    obtain ⟨⟨us', u'⟩, hrest, h⟩ := Option.bind_eq_some_iff.1 h
    cases h
    rw [List.cons_append, readString_plain hquote hslash (Char.not_lt.1 hc), ih hrest]
    rfl

theorem readChars_append {l s u : List Char} (h : readChars l = some (s, u)) (r : List Char) :
    readChars (l ++ r) = some (s, u ++ r) := by
  obtain ⟨⟨us, u'⟩, hread, h⟩ := Option.bind_eq_some_iff.1 h
  obtain ⟨chars, hchars, h⟩ := Option.bind_eq_some_iff.1 h
  cases h
  unfold readChars
  rw [readString_append hread]
  simp [hchars]

theorem skip_append {l : List Char} (h : skip l ≠ []) (r : List Char) : skip (l ++ r) = skip l ++ r := by
  unfold skip at h ⊢
  rw [List.dropWhile_append, if_neg]
  simpa using h

theorem readScalar_append {l u : List Char} {v : Tree} (h : readScalar l = some (v, u)) (hu : u ≠ []) (r : List Char) :
    readScalar (l ++ r) = some (v, u ++ r) := by
  obtain ⟨w, hw, hpair⟩ := Option.map_eq_some_iff.1 h
  cases hpair
  have hstop : (l ++ r).dropWhile isTokenChar = l.dropWhile isTokenChar ++ r := by
    rw [List.dropWhile_append, if_neg]
    simpa using hu
  have htoken : (l ++ r).takeWhile isTokenChar = l.takeWhile isTokenChar := by
    have hsplit := List.takeWhile_append_dropWhile (p := isTokenChar) (l := l ++ r)
    rw [hstop, ← List.append_assoc] at hsplit
    have hl := List.append_cancel_right hsplit
    conv_rhs at hl => rw [← List.takeWhile_append_dropWhile (p := isTokenChar) (l := l)]
    exact List.append_cancel_right hl
  unfold readScalar
  rw [htoken, hstop, hw]
  rfl

theorem readItems_nil (n : Nat) : readItems n [] = none := by cases n <;> rfl

theorem readPairs_nil (n : Nat) : readPairs n [] = none := by cases n <;> rfl

theorem readTree_nil (n : Nat) : readTree n [] = none := by cases n <;> rw [readTree]

theorem readMember_nil (n : Nat) : readMember n [] = none := by cases n <;> rw [readMember]

theorem ne_nil_of_read {α : Type} {f : List Char → Option α} {x : α} (hf : f [] = none) {l : List Char}
    (h : f l = some x) : l ≠ [] := by
  rintro rfl
  rw [hf] at h
  cases h

mutual

/-- What is read from a text is read from a longer one, as long as the value cannot go on. -/
theorem readTree_append : ∀ {n : Nat} {l u : List Char} {v : Tree}, readTree n l = some (v, u) →
    u ≠ [] ∨ l.head? = some '{' → ∀ r, readTree n (l ++ r) = some (v, u ++ r)
  | 0, l, u, v, h, _, r => by rw [readTree] at h; cases h
  | n + 1, [], u, v, h, _, r => by rw [readTree] at h; cases h
  | n + 1, c :: t, u, v, h, hu, r => by
    rw [List.cons_append]
    rw [readTree] at h ⊢
    by_cases hquote : c = '"'
    · rw [if_pos hquote] at h ⊢
      obtain ⟨⟨s, u'⟩, hs, hpair⟩ := Option.map_eq_some_iff.1 h
      cases hpair
      rw [readChars_append hs]
      rfl
    rw [if_neg hquote] at h ⊢
    by_cases hbracket : c = '['
    · rw [if_pos hbracket] at h ⊢
      by_cases hclose : (skip t).head? = some ']'
      · rw [if_pos hclose] at h
        have hne : skip t ≠ [] := by rintro he; rw [he] at hclose; cases hclose
        cases h
        rw [skip_append hne, List.head?_append_of_ne_nil _ hne, if_pos hclose, List.tail_append_of_ne_nil hne]
      · rw [if_neg hclose] at h
        obtain ⟨⟨x, r₁⟩, hx, h⟩ := Option.bind_eq_some_iff.1 h
        obtain ⟨⟨xs, r₂⟩, hxs, h⟩ := Option.bind_eq_some_iff.1 h
        cases h
        have hne := ne_nil_of_read (readTree_nil n) hx
        have hmore := ne_nil_of_read (readItems_nil n) hxs
        rw [skip_append hne, List.head?_append_of_ne_nil _ hne, if_neg hclose, readTree_append hx (Or.inl hmore)]
        simp only [Option.bind_eq_bind, Option.bind_some, readItems_append hxs]
    rw [if_neg hbracket] at h ⊢
    by_cases hbrace : c = '{'
    · rw [if_pos hbrace] at h ⊢
      by_cases hclose : (skip t).head? = some '}'
      · rw [if_pos hclose] at h
        have hne : skip t ≠ [] := by rintro he; rw [he] at hclose; cases hclose
        cases h
        rw [skip_append hne, List.head?_append_of_ne_nil _ hne, if_pos hclose, List.tail_append_of_ne_nil hne]
      · rw [if_neg hclose] at h
        obtain ⟨⟨m, r₁⟩, hm, h⟩ := Option.bind_eq_some_iff.1 h
        obtain ⟨⟨ms, r₂⟩, hms, h⟩ := Option.bind_eq_some_iff.1 h
        cases h
        have hne := ne_nil_of_read (readMember_nil n) hm
        have hmore := ne_nil_of_read (readPairs_nil n) hms
        rw [skip_append hne, List.head?_append_of_ne_nil _ hne, if_neg hclose, readMember_append hm hmore]
        simp only [Option.bind_eq_bind, Option.bind_some, readPairs_append hms]
    rw [if_neg hbrace] at h ⊢
    refine readScalar_append h (hu.resolve_right fun hhead => hbrace ?_) r
    exact Option.some.inj hhead

theorem readItems_append : ∀ {n : Nat} {l u : List Char} {xs : List Tree}, readItems n l = some (xs, u) →
    ∀ r, readItems n (l ++ r) = some (xs, u ++ r)
  | 0, l, u, xs, h, r => by rw [readItems] at h; cases h
  | n + 1, l, u, xs, h, r => by
    rw [readItems] at h ⊢
    cases hskip : skip l with
    | nil => rw [hskip] at h; cases h
    | cons c t =>
      rw [hskip] at h
      rw [skip_append (by rw [hskip]; exact List.cons_ne_nil c t), hskip, List.cons_append]
      dsimp only at h ⊢
      by_cases hclose : c = ']'
      · rw [if_pos hclose] at h ⊢
        cases h
        rfl
      rw [if_neg hclose] at h ⊢
      by_cases hcomma : c = ','
      · rw [if_pos hcomma] at h ⊢
        obtain ⟨⟨x, r₁⟩, hx, h⟩ := Option.bind_eq_some_iff.1 h
        obtain ⟨⟨ys, r₂⟩, hys, h⟩ := Option.bind_eq_some_iff.1 h
        cases h
        have hne := ne_nil_of_read (readTree_nil n) hx
        have hmore := ne_nil_of_read (readItems_nil n) hys
        rw [skip_append hne, readTree_append hx (Or.inl hmore)]
        simp only [Option.bind_eq_bind, Option.bind_some, readItems_append hys]
      · rw [if_neg hcomma] at h
        cases h

theorem readMember_append : ∀ {n : Nat} {l u : List Char} {m : List Char × Tree}, readMember n l = some (m, u) →
    u ≠ [] → ∀ r, readMember n (l ++ r) = some (m, u ++ r)
  | 0, l, u, m, h, _, r => by rw [readMember] at h; cases h
  | n + 1, [], u, m, h, _, r => by rw [readMember] at h; cases h
  | n + 1, c :: t, u, m, h, hu, r => by
    rw [List.cons_append]
    rw [readMember] at h ⊢
    by_cases hquote : c = '"'
    · rw [if_pos hquote] at h ⊢
      obtain ⟨⟨key, r₁⟩, hkey, h⟩ := Option.bind_eq_some_iff.1 h
      rw [readChars_append hkey]
      dsimp only [Option.bind_eq_bind, Option.bind_some] at h ⊢
      cases hskip : skip r₁ with
      | nil => rw [hskip] at h; cases h
      | cons d t' =>
        rw [hskip] at h
        rw [skip_append (by rw [hskip]; exact List.cons_ne_nil d t'), hskip, List.cons_append]
        dsimp only at h ⊢
        by_cases hcolon : d = ':'
        · rw [if_pos hcolon] at h ⊢
          obtain ⟨⟨x, r₂⟩, hx, h⟩ := Option.bind_eq_some_iff.1 h
          cases h
          rw [skip_append (ne_nil_of_read (readTree_nil n) hx), readTree_append hx (Or.inl hu)]
          rfl
        · rw [if_neg hcolon] at h
          cases h
    · rw [if_neg hquote] at h
      cases h

theorem readPairs_append : ∀ {n : Nat} {l u : List Char} {ms : List (List Char × Tree)},
    readPairs n l = some (ms, u) → ∀ r, readPairs n (l ++ r) = some (ms, u ++ r)
  | 0, l, u, ms, h, r => by rw [readPairs] at h; cases h
  | n + 1, l, u, ms, h, r => by
    rw [readPairs] at h ⊢
    cases hskip : skip l with
    | nil => rw [hskip] at h; cases h
    | cons c t =>
      rw [hskip] at h
      rw [skip_append (by rw [hskip]; exact List.cons_ne_nil c t), hskip, List.cons_append]
      dsimp only at h ⊢
      by_cases hclose : c = '}'
      · rw [if_pos hclose] at h ⊢
        cases h
        rfl
      rw [if_neg hclose] at h ⊢
      by_cases hcomma : c = ','
      · rw [if_pos hcomma] at h ⊢
        obtain ⟨⟨m, r₁⟩, hm, h⟩ := Option.bind_eq_some_iff.1 h
        obtain ⟨⟨ys, r₂⟩, hys, h⟩ := Option.bind_eq_some_iff.1 h
        cases h
        have hne := ne_nil_of_read (readMember_nil n) hm
        have hmore := ne_nil_of_read (readPairs_nil n) hys
        rw [skip_append hne, readMember_append hm hmore]
        simp only [Option.bind_eq_bind, Option.bind_some, readPairs_append hys]
      · rw [if_neg hcomma] at h
        cases h

end

mutual

/-- More fuel changes nothing. -/
theorem readTree_succ : ∀ {n : Nat} {l : List Char} {x : Tree × List Char}, readTree n l = some x →
    readTree (n + 1) l = some x
  | 0, l, x, h => by rw [readTree] at h; cases h
  | n + 1, [], x, h => by rw [readTree] at h; cases h
  | n + 1, c :: t, x, h => by
    rw [readTree] at h ⊢
    by_cases hquote : c = '"'
    · rw [if_pos hquote] at h ⊢
      exact h
    rw [if_neg hquote] at h ⊢
    by_cases hbracket : c = '['
    · rw [if_pos hbracket] at h ⊢
      by_cases hclose : (skip t).head? = some ']'
      · rw [if_pos hclose] at h ⊢
        exact h
      · rw [if_neg hclose] at h ⊢
        obtain ⟨⟨y, r₁⟩, hy, h⟩ := Option.bind_eq_some_iff.1 h
        obtain ⟨⟨ys, r₂⟩, hys, h⟩ := Option.bind_eq_some_iff.1 h
        rw [readTree_succ hy]
        simp only [Option.bind_eq_bind, Option.bind_some, readItems_succ hys]
        exact h
    rw [if_neg hbracket] at h ⊢
    by_cases hbrace : c = '{'
    · rw [if_pos hbrace] at h ⊢
      by_cases hclose : (skip t).head? = some '}'
      · rw [if_pos hclose] at h ⊢
        exact h
      · rw [if_neg hclose] at h ⊢
        obtain ⟨⟨m, r₁⟩, hm, h⟩ := Option.bind_eq_some_iff.1 h
        obtain ⟨⟨ms, r₂⟩, hms, h⟩ := Option.bind_eq_some_iff.1 h
        rw [readMember_succ hm]
        simp only [Option.bind_eq_bind, Option.bind_some, readPairs_succ hms]
        exact h
    rw [if_neg hbrace] at h ⊢
    exact h

theorem readItems_succ : ∀ {n : Nat} {l : List Char} {x : List Tree × List Char}, readItems n l = some x →
    readItems (n + 1) l = some x
  | 0, l, x, h => by rw [readItems] at h; cases h
  | n + 1, l, x, h => by
    rw [readItems] at h ⊢
    cases hskip : skip l with
    | nil => rw [hskip] at h; cases h
    | cons c t =>
      rw [hskip] at h
      dsimp only at h ⊢
      by_cases hclose : c = ']'
      · rw [if_pos hclose] at h ⊢
        exact h
      rw [if_neg hclose] at h ⊢
      by_cases hcomma : c = ','
      · rw [if_pos hcomma] at h ⊢
        obtain ⟨⟨y, r₁⟩, hy, h⟩ := Option.bind_eq_some_iff.1 h
        obtain ⟨⟨ys, r₂⟩, hys, h⟩ := Option.bind_eq_some_iff.1 h
        rw [readTree_succ hy]
        simp only [Option.bind_eq_bind, Option.bind_some, readItems_succ hys]
        exact h
      · rw [if_neg hcomma] at h
        cases h

theorem readMember_succ : ∀ {n : Nat} {l : List Char} {x : (List Char × Tree) × List Char},
    readMember n l = some x → readMember (n + 1) l = some x
  | 0, l, x, h => by rw [readMember] at h; cases h
  | n + 1, [], x, h => by rw [readMember] at h; cases h
  | n + 1, c :: t, x, h => by
    rw [readMember] at h ⊢
    by_cases hquote : c = '"'
    · rw [if_pos hquote] at h ⊢
      obtain ⟨⟨key, r₁⟩, hkey, h⟩ := Option.bind_eq_some_iff.1 h
      rw [hkey]
      dsimp only [Option.bind_eq_bind, Option.bind_some] at h ⊢
      cases hskip : skip r₁ with
      | nil => rw [hskip] at h; cases h
      | cons d t' =>
        rw [hskip] at h
        dsimp only at h ⊢
        by_cases hcolon : d = ':'
        · rw [if_pos hcolon] at h ⊢
          obtain ⟨⟨y, r₂⟩, hy, h⟩ := Option.bind_eq_some_iff.1 h
          rw [readTree_succ hy]
          exact h
        · rw [if_neg hcolon] at h
          cases h
    · rw [if_neg hquote] at h
      cases h

theorem readPairs_succ : ∀ {n : Nat} {l : List Char} {x : List (List Char × Tree) × List Char},
    readPairs n l = some x → readPairs (n + 1) l = some x
  | 0, l, x, h => by rw [readPairs] at h; cases h
  | n + 1, l, x, h => by
    rw [readPairs] at h ⊢
    cases hskip : skip l with
    | nil => rw [hskip] at h; cases h
    | cons c t =>
      rw [hskip] at h
      dsimp only at h ⊢
      by_cases hclose : c = '}'
      · rw [if_pos hclose] at h ⊢
        exact h
      rw [if_neg hclose] at h ⊢
      by_cases hcomma : c = ','
      · rw [if_pos hcomma] at h ⊢
        obtain ⟨⟨m, r₁⟩, hm, h⟩ := Option.bind_eq_some_iff.1 h
        obtain ⟨⟨ys, r₂⟩, hys, h⟩ := Option.bind_eq_some_iff.1 h
        rw [readMember_succ hm]
        simp only [Option.bind_eq_bind, Option.bind_some, readPairs_succ hys]
        exact h
      · rw [if_neg hcomma] at h
        cases h

end

theorem readTree_mono {n m : Nat} (h : n ≤ m) {l : List Char} {x : Tree × List Char} (hx : readTree n l = some x) :
    readTree m l = some x := by
  induction h with
  | refl => exact hx
  | step _ ih => exact readTree_succ ih

/-- A proper beginning of an object's text is not the text of a value. -/
theorem loadsTree_proper {ms : List (List Char × Tree)} {l r : List Char} (h : st.render (.obj ms) = l ++ r)
    (hr : r ≠ []) : loadsTree l = none := by
  cases l with
  | nil => rfl
  | cons c t =>
    have hbrace : c = '{' := by
      rcases ms with _ | ⟨⟨key, x⟩, ms⟩ <;> exact (List.cons.inj h).1.symm
    subst hbrace
    cases hread : readTree (('{' :: t).length + 1) ('{' :: t) with
    | none =>
      unfold loadsTree
      rw [skip_cons (by decide), hread]
      rfl
    | some p =>
      obtain ⟨v, u⟩ := p
      have hlonger := readTree_append hread (Or.inr rfl) r
      have hfull := readTree_render st (.obj ms) ((st.render (.obj ms)).length + 1) [] (by omega)
        (by intro c hc; cases hc)
      rw [List.append_nil, h] at hfull
      have hsame := readTree_mono (m := ('{' :: t ++ r).length + 1) (by simp) hlonger
      rw [hfull] at hsame
      have hnil : u ++ r = [] := (congrArg (fun x => x.2) (Option.some.inj hsame)).symm
      exact absurd (List.append_eq_nil_iff.1 hnil).2 hr

/-! ## The characters of a text -/

-- the mutual theorems share what only one of them uses
set_option linter.unusedSectionVars false

/-- A character that stands outside of strings and is no blank, or the quote around them. -/
def isMark (c : Char) : Bool := isTokenChar c || c ∈ ['"', '[', ']', '{', '}', ',', ':']

theorem isMark_token {c : Char} (h : isTokenChar c = true) : isMark c = true := by
  unfold isMark
  rw [h, Bool.true_or]

theorem flatMap_eq_self {f : Char → List Char} {l : List Char} (h : ∀ c ∈ l, f c = [c]) : l.flatMap f = l := by
  induction l with
  | nil => rfl
  | cons c l ih =>
    obtain ⟨hc, hl⟩ := List.forall_mem_cons.1 h
    rw [List.flatMap_cons, hc, ih hl]
    rfl

section Rewriting

variable {st} {st' : Style} {f : Char → List Char} (hf : ∀ c, isMark c = true → f c = [c])
  (hencode : ∀ c, st'.encode c = (st.encode c).flatMap f) (hcomma : st.comma.flatMap f = st'.comma)
  (hcolon : st.colon.flatMap f = st'.colon)

include hf in
theorem flatMap_marks {l : List Char} (h : l.all isMark = true) : l.flatMap f = l :=
  flatMap_eq_self fun c hc => hf c (List.all_eq_true.1 h c hc)

include hf hencode in
theorem quote_flatMap (s : List Char) : (st.quote s).flatMap f = st'.quote s := by
  have hs : (s.flatMap st.encode).flatMap f = s.flatMap st'.encode := by
    rw [List.flatMap_assoc]
    exact List.flatMap_congr fun c _ => (hencode c).symm
  unfold Style.quote
  rw [List.flatMap_cons, List.flatMap_append, hs, hf '"' (by decide), flatMap_marks hf (by decide)]
  rfl

include hf hencode hcomma hcolon

mutual

/-- A rewriting that leaves the marks alone goes through to the characters of the strings. -/
theorem render_flatMap : ∀ v : Tree, (st.render v).flatMap f = st'.render v
  | .null => flatMap_marks hf rfl
  | .bool true => flatMap_marks hf rfl
  | .bool false => flatMap_marks hf rfl
  | .num n => flatMap_eq_self fun c hc => hf c (isMark_token (List.all_eq_true.1 n.all c hc))
  | .str s => quote_flatMap hf hencode s
  | .arr [] => flatMap_marks hf rfl
  | .arr (x :: xs) => by
    rw [Style.render, List.flatMap_cons, List.flatMap_append, render_flatMap x, renderItems_flatMap xs,
      hf '[' (by decide)]
    rfl
  | .obj [] => flatMap_marks hf rfl
  | .obj ((key, x) :: ms) => by
    rw [Style.render, List.flatMap_cons, List.flatMap_append, List.flatMap_cons, List.flatMap_append,
      List.flatMap_append, render_flatMap x, renderPairs_flatMap ms, quote_flatMap hf hencode, hcolon,
      hf '{' (by decide), hf ':' (by decide)]
    rfl

theorem renderItems_flatMap : ∀ xs : List Tree, (st.renderItems xs).flatMap f = st'.renderItems xs
  | [] => flatMap_marks hf rfl
  | x :: xs => by
    rw [Style.renderItems, List.flatMap_cons, List.flatMap_append, List.flatMap_append, render_flatMap x,
      renderItems_flatMap xs, hcomma, hf ',' (by decide)]
    rfl

theorem renderPairs_flatMap : ∀ ms : List (List Char × Tree), (st.renderPairs ms).flatMap f = st'.renderPairs ms
  | [] => flatMap_marks hf rfl
  | (key, x) :: ms => by
    rw [Style.renderPairs, List.flatMap_cons, List.flatMap_append, List.flatMap_append, List.flatMap_cons,
      List.flatMap_append, List.flatMap_append, render_flatMap x, renderPairs_flatMap ms,
      quote_flatMap hf hencode, hcomma, hcolon, hf ',' (by decide), hf ':' (by decide)]
    rfl

end

end Rewriting

section Alphabet

variable {st} {p : Char → Bool} (hmark : ∀ c, isMark c = true → p c = true) (hencode : ∀ c, (st.encode c).all p = true)
  (hcomma : st.comma.all p = true) (hcolon : st.colon.all p = true)

include hmark in
theorem all_marks {l : List Char} (h : l.all isMark = true) : l.all p = true :=
  List.all_eq_true.2 fun c hc => hmark c (List.all_eq_true.1 h c hc)

include hmark hencode in
theorem quote_all (s : List Char) : (st.quote s).all p = true := by
  unfold Style.quote
  rw [List.all_cons, List.all_append, List.all_flatMap, hmark '"' (by decide), all_marks hmark (by decide)]
  simpa using fun c _ => by simpa using hencode c

include hmark hencode hcomma hcolon

mutual

/-- The text of a value is made of marks and of encoded characters. -/
theorem render_all : ∀ v : Tree, (st.render v).all p = true
  | .null => all_marks hmark rfl
  | .bool true => all_marks hmark rfl
  | .bool false => all_marks hmark rfl
  | .num n => List.all_eq_true.2 fun c hc => hmark c (isMark_token (List.all_eq_true.1 n.all c hc))
  | .str s => quote_all hmark hencode s
  | .arr [] => all_marks hmark rfl
  | .arr (x :: xs) => by
    rw [Style.render, List.all_cons, List.all_append, render_all x, renderItems_all xs, hmark '[' (by decide)]
    rfl
  | .obj [] => all_marks hmark rfl
  | .obj ((key, x) :: ms) => by
    rw [Style.render, List.all_cons, List.all_append, List.all_cons, List.all_append, List.all_append, render_all x,
      renderPairs_all ms, quote_all hmark hencode, hcolon, hmark '{' (by decide), hmark ':' (by decide)]
    rfl

theorem renderItems_all : ∀ xs : List Tree, (st.renderItems xs).all p = true
  | [] => all_marks hmark rfl
  | x :: xs => by
    rw [Style.renderItems, List.all_cons, List.all_append, List.all_append, render_all x, renderItems_all xs, hcomma,
      hmark ',' (by decide)]
    rfl

theorem renderPairs_all : ∀ ms : List (List Char × Tree), (st.renderPairs ms).all p = true
  | [] => all_marks hmark rfl
  | (key, x) :: ms => by
    rw [Style.renderPairs, List.all_cons, List.all_append, List.all_append, List.all_cons, List.all_append,
      List.all_append, render_all x, renderPairs_all ms, quote_all hmark hencode, hcomma, hcolon, hmark ',' (by decide),
      hmark ':' (by decide)]
    rfl

end

end Alphabet

end Mesa.Foundation.Json
