/-
Flat JSON objects as text: every value is null, a boolean, a number or a string. `dumps` writes an
object on one line of printable ASCII, and `loads` reads what it has written, and the same object with
other white space. A file of such lines is read line by line.
-/
import Mathlib.Tactic

namespace Mesa.Foundation.Json

/-! ## Values -/

def isNumberChar (c : Char) : Bool := c.isDigit || c ∈ ['-', '+', '.', 'e', 'E']

/-- A number, kept as it is written. -/
structure Number where
  literal : List Char
  shape : literal ≠ [] ∧ literal.all isNumberChar = true
  deriving DecidableEq

inductive Value
  | null
  | bool (b : Bool)
  | number (n : Number)
  | string (s : String)
  deriving DecidableEq

/-- The members of an object, in the order in which they are written. -/
abbrev Object := List (String × Value)

/-- `o.get(key)`; the last of several members with the same key counts. -/
def Object.get (o : Object) (key : String) : Option Value := (o.reverse.find? (·.1 = key)).map (·.2)

theorem natDigits_shape (n : Nat) : (Nat.toDigits 10 n) ≠ [] ∧ (Nat.toDigits 10 n).all isNumberChar = true := by
  constructor
  · exact Nat.toDigits_ne_nil
  · rw [List.all_eq_true]
    intro c hc
    rw [isNumberChar, Nat.isDigit_of_mem_toDigits (by decide) (by decide) hc, Bool.true_or]

def Number.ofNat (n : Nat) : Number := ⟨Nat.toDigits 10 n, natDigits_shape n⟩

/-! ## Characters of a string -/

def hexDigit (n : Nat) : Char := if n < 10 then Char.ofNat (48 + n) else Char.ofNat (87 + n)

def hexValue (c : Char) : Option Nat :=
  if '0' ≤ c ∧ c ≤ '9' then some (c.toNat - 48)
  else if 'a' ≤ c ∧ c ≤ 'f' then some (c.toNat - 87)
  else if 'A' ≤ c ∧ c ≤ 'F' then some (c.toNat - 55)
  else none

def hex4 (n : Nat) : List Char :=
  [hexDigit (n / 4096 % 16), hexDigit (n / 256 % 16), hexDigit (n / 16 % 16), hexDigit (n % 16)]

def unhex4 (a b c d : Char) : Option Nat := do
  let a ← hexValue a
  let b ← hexValue b
  let c ← hexValue c
  let d ← hexValue d
  some (((a * 16 + b) * 16 + c) * 16 + d)

/-- The UTF-16 code units of a character. -/
def units (c : Char) : List Nat :=
  if c.toNat < 0x10000 then [c.toNat]
  else [0xD800 + (c.toNat - 0x10000) / 0x400, 0xDC00 + (c.toNat - 0x10000) % 0x400]

/-- The characters of code units; a lone surrogate is none. -/
def merge : List Nat → Option (List Char)
  | [] => some []
  | unit :: rest =>
    if 0xD800 ≤ unit ∧ unit < 0xDC00 then
      match rest with
      | low :: rest' =>
        if 0xDC00 ≤ low ∧ low < 0xE000 then
          (merge rest').map (Char.ofNat (0x10000 + (unit - 0xD800) * 0x400 + (low - 0xDC00)) :: ·)
        else none
      | [] => none
    else if 0xDC00 ≤ unit ∧ unit < 0xE000 then none
    else (merge rest).map (Char.ofNat unit :: ·)

/-- The characters that have a short escape. -/
def shortEscapes : List (Char × Char) :=
  [('"', '"'), ('\\', '\\'), ('\n', 'n'), ('\r', 'r'), ('\t', 't'), ('\x0c', 'f'), ('\x08', 'b')]

def escape (c : Char) : List Char :=
  match shortEscapes.lookup c with
  | some e => ['\\', e]
  | none => if ' ' ≤ c ∧ c ≤ '~' then [c] else (units c).flatMap fun u => '\\' :: 'u' :: hex4 u

def unescape (e : Char) : Option Char :=
  if e = '/' then some '/' else (shortEscapes.map Prod.swap).lookup e

/-- The rest of a string: its code units up to the closing quote, and what follows. -/
def readString : List Char → Option (List Nat × List Char)
  | [] => none
  | c :: rest =>
    if c = '"' then some ([], rest)
    else if c = '\\' then
      match rest with
      | e :: rest' =>
        if e = 'u' then
          match rest' with
          | h₁ :: h₂ :: h₃ :: h₄ :: rest'' => do
            let unit ← unhex4 h₁ h₂ h₃ h₄
            let (us, end_) ← readString rest''
            some (unit :: us, end_)
          | _ => none
        else do
          let char ← unescape e
          let (us, end_) ← readString rest'
          some (char.toNat :: us, end_)
      | [] => none
    else if c < ' ' then none
    else do
      let (us, end_) ← readString rest
      some (c.toNat :: us, end_)

theorem hexValue_hexDigit {n : Nat} (h : n < 16) : hexValue (hexDigit n) = some n := by
  have hall : ∀ n : Fin 16, hexValue (hexDigit n) = some n.val := by decide
  exact hall ⟨n, h⟩

theorem unhex4_hex4 {n : Nat} (h : n < 65536) :
    unhex4 (hexDigit (n / 4096 % 16)) (hexDigit (n / 256 % 16)) (hexDigit (n / 16 % 16)) (hexDigit (n % 16)) = some n := by
  unfold unhex4
  rw [hexValue_hexDigit (Nat.mod_lt _ (by decide)), hexValue_hexDigit (Nat.mod_lt _ (by decide)),
    hexValue_hexDigit (Nat.mod_lt _ (by decide)), hexValue_hexDigit (Nat.mod_lt _ (by decide))]
  refine congrArg some ?_
  omega

theorem readString_quote (rest : List Char) : readString ('"' :: rest) = some ([], rest) := by
  rw [readString.eq_def]
  simp

theorem readString_short {e c : Char} (he : e ≠ 'u') (hc : unescape e = some c) (rest : List Char) :
    readString ('\\' :: e :: rest) = (readString rest).map fun p => (c.toNat :: p.1, p.2) := by
  rw [readString.eq_def]
  simp only [Char.reduceEq, if_false, if_true, he, hc]
  cases readString rest <;> rfl

theorem readString_plain {c : Char} (hquote : c ≠ '"') (hslash : c ≠ '\\') (hc : ' ' ≤ c) (rest : List Char) :
    readString (c :: rest) = (readString rest).map fun p => (c.toNat :: p.1, p.2) := by
  rw [readString.eq_def]
  have hlt : ¬ c < ' ' := Char.not_lt.2 hc
  simp only [hquote, hslash, if_false, hlt]
  cases readString rest <;> rfl

theorem readString_unit {n : Nat} (h : n < 65536) (l : List Char) :
    readString ('\\' :: 'u' :: (hex4 n ++ l)) = (readString l).map fun p => (n :: p.1, p.2) := by
  rw [hex4]
  simp only [List.cons_append, List.nil_append]
  rw [readString]
  simp only [Char.reduceEq, if_false, if_true, unhex4_hex4 h]
  cases readString l <;> rfl

theorem char_toNat_lt (c : Char) : c.toNat < 0x110000 ∧ (c.toNat < 0xD800 ∨ 0xDFFF < c.toNat) := by
  have h := c.valid
  simp only [UInt32.isValidChar, Nat.isValidChar] at h
  change c.toNat < 0xd800 ∨ 0xdfff < c.toNat ∧ c.toNat < 0x110000 at h
  omega

theorem units_lt {c : Char} {u : Nat} (h : u ∈ units c) : u < 65536 := by
  have hc := char_toNat_lt c
  unfold units at h
  split at h
  · obtain rfl := List.mem_singleton.1 h
    assumption
  · simp only [List.mem_cons, List.not_mem_nil, or_false] at h
    omega

theorem merge_single {unit : Nat} (h : ¬ (0xD800 ≤ unit ∧ unit < 0xE000)) (rest : List Nat) :
    merge (unit :: rest) = (merge rest).map (Char.ofNat unit :: ·) := by
  rw [merge.eq_def]
  dsimp only
  rw [if_neg (by omega), if_neg (by omega)]

theorem merge_pair {high low : Nat} (hh : 0xD800 ≤ high ∧ high < 0xDC00) (hl : 0xDC00 ≤ low ∧ low < 0xE000)
    (rest : List Nat) : merge (high :: low :: rest) =
      (merge rest).map (Char.ofNat (0x10000 + (high - 0xD800) * 0x400 + (low - 0xDC00)) :: ·) := by
  rw [merge.eq_def]
  dsimp only
  rw [if_pos hh, if_pos hl]

theorem merge_units (c : Char) (l : List Nat) : merge (units c ++ l) = (merge l).map (c :: ·) := by
  have hc := char_toNat_lt c
  unfold units
  split
  · rw [List.singleton_append, merge_single (by omega), Char.ofNat_toNat]
  · rw [List.cons_append, List.singleton_append, merge_pair (by omega) (by omega)]
    have hnat : 0x10000 + (0xD800 + (c.toNat - 0x10000) / 0x400 - 0xD800) * 0x400 +
        (0xDC00 + (c.toNat - 0x10000) % 0x400 - 0xDC00) = c.toNat := by omega
    rw [hnat, Char.ofNat_toNat]

theorem merge_flatMap_units (l : List Char) : merge (l.flatMap units) = some l := by
  induction l with
  | nil => rfl
  | cons c l ih => rw [List.flatMap_cons, merge_units, ih, Option.map_some]

theorem readString_units {us : List Nat} (h : ∀ u ∈ us, u < 65536) (l : List Char) :
    readString ((us.flatMap fun u => '\\' :: 'u' :: hex4 u) ++ l) = (readString l).map fun p => (us ++ p.1, p.2) := by
  induction us with
  | nil => simp
  | cons u us ih =>
    obtain ⟨hu, hus⟩ := List.forall_mem_cons.1 h
    rw [List.flatMap_cons, List.append_assoc, List.cons_append, List.cons_append, readString_unit hu, ih hus,
      Option.map_map]
    rfl

theorem mem_of_lookup {l : List (Char × Char)} {c e : Char} (h : l.lookup c = some e) : (c, e) ∈ l := by
  obtain ⟨l₁, l₂, rfl, -⟩ := List.lookup_eq_some_iff.1 h
  exact List.mem_append_right _ List.mem_cons_self

/-- A character of a string is read as its code units. -/
theorem readString_escape (c : Char) (l : List Char) :
    readString (escape c ++ l) = (readString l).map fun p => (units c ++ p.1, p.2) := by
  unfold escape
  cases hlookup : shortEscapes.lookup c with
  | some e =>
    have hshort := mem_of_lookup hlookup
    have hall : ∀ p ∈ shortEscapes, p.2 ≠ 'u' ∧ unescape p.2 = some p.1 ∧ units p.1 = [p.1.toNat] := by decide
    obtain ⟨hu, hunescape, hunits⟩ := hall _ hshort
    dsimp only at hu hunescape hunits ⊢
    rw [List.cons_append, List.singleton_append, readString_short hu hunescape, hunits]
    rfl
  | none =>
    dsimp only
    split
    · next hprintable =>
      have hquote : c ≠ '"' := by rintro rfl; revert hlookup; decide
      have hslash : c ≠ '\\' := by rintro rfl; revert hlookup; decide
      have hunits : units c = [c.toNat] := by
        have hle : c.toNat ≤ '~'.toNat := hprintable.2
        rw [units, if_pos (lt_of_le_of_lt hle (by decide))]
      rw [List.singleton_append, readString_plain hquote hslash hprintable.1, hunits]
      rfl
    · exact readString_units (fun u hu => units_lt hu) l

def quote (s : String) : List Char := '"' :: (s.toList.flatMap escape ++ ['"'])

theorem readString_flatMap (chars l : List Char) :
    readString (chars.flatMap escape ++ '"' :: l) = some (chars.flatMap units, l) := by
  induction chars with
  | nil =>
    rw [List.flatMap_nil, List.nil_append, readString_quote]
    rfl
  | cons c chars ih =>
    rw [List.flatMap_cons, List.append_assoc, readString_escape, ih]
    rfl

/-! ## Values and members -/

def Value.text : Value → List Char
  | .null => ['n', 'u', 'l', 'l']
  | .bool true => ['t', 'r', 'u', 'e']
  | .bool false => ['f', 'a', 'l', 's', 'e']
  | .number n => n.literal
  | .string s => quote s

def member (m : String × Value) : List Char := quote m.1 ++ (':' :: ' ' :: m.2.text)

def members : Object → List Char
  | [] => []
  | [m] => member m
  | m :: rest => member m ++ (',' :: ' ' :: members rest)

/-- `json.dumps`. -/
def dumps (o : Object) : List Char := '{' :: (members o ++ ['}'])

def isBlank (c : Char) : Bool := c ∈ [' ', '\t', '\n', '\r']

def skip (l : List Char) : List Char := l.dropWhile isBlank

def readText (l : List Char) : Option (String × List Char) := do
  let (us, rest) ← readString l
  let chars ← merge us
  some (String.ofList chars, rest)

def readNumber (l : List Char) : Option (Value × List Char) :=
  if h : l.takeWhile isNumberChar ≠ [] then
    some (.number ⟨l.takeWhile isNumberChar, h, List.all_takeWhile⟩, l.dropWhile isNumberChar)
  else none

def readValue : List Char → Option (Value × List Char)
  | [] => none
  | c :: rest =>
    if c = '"' then do
      let (s, rest') ← readText rest
      some (.string s, rest')
    else if c = 'n' then if rest.take 3 = ['u', 'l', 'l'] then some (.null, rest.drop 3) else none
    else if c = 't' then if rest.take 3 = ['r', 'u', 'e'] then some (.bool true, rest.drop 3) else none
    else if c = 'f' then if rest.take 4 = ['a', 'l', 's', 'e'] then some (.bool false, rest.drop 4) else none
    else readNumber (c :: rest)

/-- The members of an object, up to its closing brace. -/
def readMembers : Nat → List Char → Option (Object × List Char)
  | 0, _ => none
  | fuel + 1, l =>
    match skip l with
    | [] => none
    | c :: rest =>
      if c = '"' then do
        let (key, rest) ← readText rest
        match skip rest with
        | [] => none
        | colon :: rest =>
          if colon = ':' then do
            let (value, rest) ← readValue (skip rest)
            match skip rest with
            | [] => none
            | sep :: rest =>
              if sep = '}' then some ([(key, value)], rest)
              else if sep = ',' then do
                let (o, rest) ← readMembers fuel rest
                some ((key, value) :: o, rest)
              else none
          else none
      else none

def readObject (l : List Char) : Option (Object × List Char) :=
  match skip l with
  | [] => none
  | c :: rest =>
    if c = '{' then
      match skip rest with
      | [] => none
      | d :: rest' => if d = '}' then some ([], rest') else readMembers rest.length rest
    else none

/-- `json.loads` of a text that is one flat object. -/
def loads (l : List Char) : Option Object := do
  let (o, rest) ← readObject l
  if skip rest = [] then some o else none

/-! ## What is written is read back -/

theorem skip_cons {c : Char} (h : isBlank c = false) (l : List Char) : skip (c :: l) = c :: l := by
  rw [skip, List.dropWhile_cons, h]
  rfl

theorem skip_space (l : List Char) : skip (' ' :: l) = skip l := by
  rw [skip, List.dropWhile_cons]
  rfl

theorem readText_quote (s : String) (l : List Char) : readText (s.toList.flatMap escape ++ '"' :: l) = some (s, l) := by
  rw [readText, readString_flatMap]
  simp [merge_flatMap_units]

theorem takeWhile_stop {p : Char → Bool} {l : List Char} (hl : l.all p = true) {c : Char} (hc : p c = false)
    (rest : List Char) : (l ++ c :: rest).takeWhile p = l ∧ (l ++ c :: rest).dropWhile p = c :: rest := by
  have hall : ∀ a ∈ l, p a = true := List.all_eq_true.1 hl
  rw [List.takeWhile_append_of_pos hall, List.dropWhile_append_of_pos hall, List.takeWhile_cons, List.dropWhile_cons, hc]
  simp

theorem readNumber_literal (n : Number) {c : Char} (hc : isNumberChar c = false) (rest : List Char) :
    readNumber (n.literal ++ c :: rest) = some (.number n, c :: rest) := by
  obtain ⟨htake, hdrop⟩ := takeWhile_stop n.shape.2 hc rest
  unfold readNumber
  rw [dif_pos (by rw [htake]; exact n.shape.1)]
  simp only [htake, hdrop]

theorem readValue_text (v : Value) {c : Char} (hc : isNumberChar c = false) (rest : List Char) :
    readValue (v.text ++ c :: rest) = some (v, c :: rest) := by
  cases v with
  | null => simp [Value.text, readValue]
  | bool b => cases b <;> simp [Value.text, readValue]
  | string s =>
    rw [Value.text, quote, List.cons_append, List.append_assoc, readValue, if_pos rfl, List.singleton_append,
      readText_quote]
    rfl
  | number n =>
    rw [Value.text, ← readNumber_literal n hc rest]
    obtain ⟨hne, hall⟩ := n.shape
    cases hliteral : n.literal with
    | nil => exact absurd hliteral hne
    | cons d ds =>
      rw [hliteral] at hall
      have hd : isNumberChar d = true := List.all_eq_true.1 hall d List.mem_cons_self
      rw [List.cons_append, readValue, if_neg, if_neg, if_neg, if_neg] <;>
      · rintro rfl
        revert hd
        decide

theorem text_head (v : Value) (l : List Char) : skip (v.text ++ l) = v.text ++ l := by
  cases v with
  | null => exact skip_cons rfl _
  | bool b => cases b <;> exact skip_cons rfl _
  | string s => exact skip_cons rfl _
  | number n =>
    obtain ⟨hne, hall⟩ := n.shape
    rw [Value.text]
    cases hliteral : n.literal with
    | nil => exact absurd hliteral hne
    | cons d ds =>
      rw [hliteral] at hall
      have hd : isNumberChar d = true := List.all_eq_true.1 hall d List.mem_cons_self
      refine skip_cons (Bool.eq_false_iff.2 fun hblank => ?_) _
      have hcases : d = ' ' ∨ d = '\t' ∨ d = '\n' ∨ d = '\r' := by simpa [isBlank] using hblank
      rcases hcases with rfl | rfl | rfl | rfl <;> revert hd <;> decide

theorem member_append (m : String × Value) (l : List Char) :
    member m ++ l = '"' :: (m.1.toList.flatMap escape ++ '"' :: ':' :: ' ' :: (m.2.text ++ l)) := by
  simp [member, quote]

/-- One member and the separator after it. -/
theorem readMembers_member (fuel : Nat) (m : String × Value) {sep : Char} (hsep : sep = '}' ∨ sep = ',')
    (rest : List Char) : readMembers (fuel + 1) (member m ++ sep :: rest) =
      if sep = '}' then some ([m], rest) else (readMembers fuel rest).map fun p => (m :: p.1, p.2) := by
  have hnumber : isNumberChar sep = false := by rcases hsep with rfl | rfl <;> rfl
  have hblank : isBlank sep = false := by rcases hsep with rfl | rfl <;> rfl
  rw [member_append, readMembers, skip_cons rfl]
  simp only [if_true]
  rw [readText_quote]
  simp only [Option.bind_eq_bind, Option.bind_some]
  rw [skip_cons rfl]
  simp only [if_true]
  rw [skip_space, text_head, readValue_text _ hnumber]
  simp only [Option.bind_some]
  rw [skip_cons hblank]
  rcases hsep with rfl | rfl
  · rfl
  · simp only [Char.reduceEq, if_false, if_true]
    cases readMembers fuel rest <;> rfl

theorem readMembers_space (fuel : Nat) (l : List Char) : readMembers fuel (' ' :: l) = readMembers fuel l := by
  cases fuel with
  | zero => rfl
  | succ fuel => rw [readMembers, skip_space, readMembers]

theorem readMembers_members : ∀ {o : Object} {fuel : Nat} (rest : List Char), o ≠ [] → o.length ≤ fuel →
    readMembers fuel (members o ++ '}' :: rest) = some (o, rest)
  | [], _, _, h, _ => absurd rfl h
  | [m], 0, _, _, h => absurd h (by simp)
  | [m], fuel + 1, rest, _, _ => by
    rw [members, readMembers_member fuel m (.inl rfl), if_pos rfl]
  | m :: m' :: o, 0, _, _, h => absurd h (by simp)
  | m :: m' :: o, fuel + 1, rest, _, h => by
    have hlen : (m' :: o).length ≤ fuel := Nat.le_of_succ_le_succ h
    rw [members, List.append_assoc, List.cons_append, List.cons_append, readMembers_member fuel m (.inr rfl),
      if_neg (by decide), readMembers_space, readMembers_members rest (by simp) hlen]
    · rfl
    · simp

theorem members_length : ∀ o : Object, o.length ≤ (members o).length
  | [] => le_rfl
  | [m] => by
    simp only [members, member, List.length_append, List.length_cons, List.length_nil]
    omega
  | m :: m' :: o => by
    have ih := members_length (m' :: o)
    have hmember : members (m :: m' :: o) = member m ++ (',' :: ' ' :: members (m' :: o)) := rfl
    simp only [hmember, List.length_append, List.length_cons] at ih ⊢
    omega

theorem loads_dumps (o : Object) : loads (dumps o) = some o := by
  have hread : readObject (dumps o) = some (o, []) := by
    rw [dumps, readObject, skip_cons rfl]
    simp only [if_true]
    cases o with
    | nil => rfl
    | cons m o =>
      have hhead : ∃ l, members (m :: o) ++ ['}'] = '"' :: l := by
        cases o with
        | nil => exact ⟨_, member_append m _⟩
        | cons m' o => exact ⟨_, by rw [members, List.append_assoc, member_append]; simp⟩
      obtain ⟨l, hl⟩ := hhead
      have hmembers : readMembers (members (m :: o) ++ ['}']).length (members (m :: o) ++ ['}']) = some (m :: o, []) :=
        readMembers_members [] (List.cons_ne_nil m o)
        (by
          have := members_length (m :: o)
          rw [List.length_append]
          omega)
      rw [hl] at hmembers ⊢
      rw [skip_cons rfl]
      exact hmembers
  rw [loads, hread]
  rfl

/-! ## Lines -/

/-- The lines of a text, without their line breaks. -/
def lines : List Char → List (List Char)
  | [] => []
  | c :: rest =>
    if c = '\n' then [] :: lines rest
    else
      match lines rest with
      | [] => [[c]]
      | l :: ls => (c :: l) :: ls

theorem lines_cons {l : List Char} (h : '\n' ∉ l) (rest : List Char) : lines (l ++ '\n' :: rest) = l :: lines rest := by
  induction l with
  | nil => simp [lines]
  | cons c l ih =>
    simp only [List.mem_cons, not_or] at h
    rw [List.cons_append, lines, if_neg (Ne.symm h.1), ih h.2]

theorem hexDigit_ne_newline (n : Nat) : hexDigit (n % 16) ≠ '\n' := by
  have hall : ∀ n : Fin 16, hexDigit n ≠ '\n' := by decide
  exact hall ⟨n % 16, Nat.mod_lt _ (by decide)⟩

theorem newline_not_mem_escape (c : Char) : '\n' ∉ escape c := by
  unfold escape
  cases hlookup : shortEscapes.lookup c with
  | some e =>
    have hshort := mem_of_lookup hlookup
    have hall : ∀ p ∈ shortEscapes, '\n' ≠ p.2 := by decide
    simp [hall _ hshort]
  | none =>
    dsimp only
    split
    · rw [List.mem_singleton]
      rintro rfl
      revert hlookup
      decide
    · rw [List.mem_flatMap]
      rintro ⟨u, -, hmem⟩
      simp only [hex4, List.mem_cons, List.not_mem_nil, or_false, Char.reduceEq, false_or] at hmem
      rcases hmem with h | h | h | h <;> exact hexDigit_ne_newline _ h.symm

theorem newline_not_mem_quote (s : String) : '\n' ∉ quote s := by
  simp only [quote, List.mem_cons, List.mem_append, List.mem_flatMap, not_or, not_exists, not_and]
  exact ⟨by decide, fun c _ => newline_not_mem_escape c, by decide, by simp⟩

theorem newline_not_mem_text (v : Value) : '\n' ∉ v.text := by
  cases v with
  | null => decide
  | bool b => cases b <;> decide
  | string s => exact newline_not_mem_quote s
  | number n =>
    intro h
    have hnumber := List.all_eq_true.1 n.shape.2 _ h
    revert hnumber
    decide

theorem newline_not_mem_members : ∀ o : Object, '\n' ∉ members o
  | [] => by simp [members]
  | [m] => by
    simp [members, member, newline_not_mem_quote, newline_not_mem_text]
  | m :: m' :: o => by
    have ih := newline_not_mem_members (m' :: o)
    have hmembers : members (m :: m' :: o) = member m ++ (',' :: ' ' :: members (m' :: o)) := rfl
    rw [hmembers]
    simp [member, newline_not_mem_quote, newline_not_mem_text, ih]

theorem newline_not_mem_dumps (o : Object) : '\n' ∉ dumps o := by
  simp [dumps, newline_not_mem_members]

end Mesa.Foundation.Json
