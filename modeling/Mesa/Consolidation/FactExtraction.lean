/-
Fact extraction: one call of the model, one correction when its answer does not fit the schema, and the deterministic
checks of the facts that came out. The values of the model are arbitrary Python objects, seen through `Objects`; a
candidate has passed its schema, so that its times are canonical.
-/
import Mathlib.Data.Bool.AllAny
import Mesa.Foundation.JsonTree
import Mesa.Ledger.IdentityTexts

namespace Mesa.Consolidation

open Mesa.Foundation
open Mesa.Rebuild (Text isSpace strip)
open Mesa.Ledger (replaceText)

/-! ## The host -/

/-- A `datetime` in microseconds of its own clock; without an offset it is naive. -/
structure Moment where
  clock : Int
  offset : Option Int
  deriving DecidableEq

/-- `self > other`, or a TypeError for a naive and an aware value. -/
def Moment.after (m n : Moment) : Option Bool :=
  match m.offset, n.offset with
  | none, none => some (n.clock < m.clock)
  | some a, some b => some (n.clock - b < m.clock - a)
  | _, _ => none

/-- The size of `json.dumps(metadata)` in bytes; `refused` is a TypeError or a ValueError, `raises` anything else. -/
inductive Dumped
  | bytes (n : Nat)
  | refused
  | raises

/-- The characters that `isoformat` writes, and `Z`. -/
def isTemporalChar (c : Char) : Bool := c ∈ "0123456789-:.+TZ".toList

/-- Python objects, `datetime` and the Unicode tables. -/
structure Objects where
  V : Type
  F : Type
  isNone : V → Bool
  /-- `value == ""`. -/
  isEmptyText : V → Bool
  /-- `str(value)`, or an exception. -/
  str : V → Option Text
  /-- `float(value)`, or an exception. -/
  float : V → Option F
  /-- `0.0 <= x <= 1.0`. -/
  inUnit : F → Bool
  /-- The entries of a dict; a key that is no text is none. -/
  entries : V → Option (List (Option Text × V))
  /-- The elements of a list. -/
  items : V → Option (List V)
  emptyDict : V
  dumps : V → Dumped
  /-- `json.loads`. -/
  loads : Text → Option V
  /-- The reader of `model_validate_json`. -/
  readJson : Text → Option V
  /-- `\d`. -/
  isDecimal : Char → Bool
  fromIsoFormat : Text → Option Moment
  isoFormat : Moment → Text
  /-- `date().isoformat()`. -/
  isoDate : Moment → Text
  foldChar : Char → Text
  fromIsoFormat_empty : fromIsoFormat [] = none
  isoFormat_plain : ∀ m, ∀ c ∈ isoFormat m, isTemporalChar c = true
  isoDate_plain : ∀ m, ∀ c ∈ isoDate m, isTemporalChar c = true
  foldChar_ascii : ∀ c, c.toNat < 128 → foldChar c = [c.toLower]

variable (O : Objects)

/-- `str.casefold`. -/
def Objects.casefold (t : Text) : Text := t.flatMap O.foldChar

/-! ## Candidates -/

/-- `re.fullmatch(r"\d{4}-\d{2}-\d{2}", raw)`. -/
def isDateForm (raw : Text) : Bool :=
  raw.length = 10 && raw[4]? = some '-' && raw[7]? = some '-' &&
    (raw.take 4 ++ (raw.drop 5).take 2 ++ raw.drop 8).all O.isDecimal

def hasControl (t : Text) : Bool := t.any fun c => c.toNat < 32

/-- `_canonical_iso_temporal`; the outer none is a ValueError. -/
def canonicalIsoTemporal (value : O.V) : Option (Option Text) :=
  if O.isNone value then some none
  else do
    let raw := strip (← O.str value)
    if raw = [] then some none
    else if raw.length > 128 || hasControl raw then none
    else if isDateForm O raw then (O.fromIsoFormat raw).map fun m => some (O.isoDate m)
    else (O.fromIsoFormat (replaceText ['Z'] "+00:00".toList raw)).map fun m =>
      some (replaceText "+00:00".toList ['Z'] (O.isoFormat m))

/-- A canonical time. -/
abbrev Temporal := { t : Text // ∃ value, canonicalIsoTemporal O value = some (some t) }

/-- `FactCandidate`. -/
structure Candidate where
  factText : Text
  subject : Text
  predicate : Text
  object : Text
  objectType : Option Text
  validFrom : Option (Temporal O)
  validTo : Option (Temporal O)
  confidence : Option O.F
  sourceSpan : Option Text
  supersedes : Option Text
  metadata : O.V

/-- The value of a field, if it is given. -/
def given (fields : List (Option Text × O.V)) (name : String) : Option O.V :=
  (fields.find? fun f => f.1 = some name.toList).map (·.2)

/-- `strip_and_validate_nonempty` and the bounds of the length. -/
def requiredText (fields : List (Option Text × O.V)) (name : String) (bound : Nat) : Option Text := do
  let value ← given O fields name
  if O.isNone value then none
  else
    let t := strip (← O.str value)
    if t = [] || bound < t.length then none else some t

/-- `strip_optional_str`. -/
def optionalText (fields : List (Option Text × O.V)) (name : String) : Option (Option Text) :=
  match given O fields name with
  | none => some none
  | some value =>
    if O.isNone value then some none
    else (O.str value).map fun t => if strip t = [] then none else some (strip t)

/-- `canonicalize_temporal`. -/
def temporalOf (value : O.V) : Option (Option (Temporal O)) :=
  match h : canonicalIsoTemporal O value with
  | none => none
  | some none => some none
  | some (some t) => some (some ⟨t, value, h⟩)

def temporal (fields : List (Option Text × O.V)) (name : String) : Option (Option (Temporal O)) :=
  match given O fields name with
  | none => some none
  | some value => temporalOf O value

/-- `validate_confidence`. -/
def confidenceOf (fields : List (Option Text × O.V)) : Option (Option O.F) :=
  match given O fields "confidence" with
  | none => some none
  | some value =>
    if O.isNone value || O.isEmptyText value then some none
    else do
      let x ← O.float value
      if O.inUnit x then some (some x) else none

/-- `dict[str, Any]`. -/
def metadataOf (fields : List (Option Text × O.V)) : Option O.V :=
  match given O fields "metadata" with
  | none => some O.emptyDict
  | some value => do
    let entries ← O.entries value
    if entries.all fun e => e.1.isSome then some value else none

/-- `FactCandidate.model_validate` of a dict; `resolveType` is the type that `classify_graph_object` resolves. -/
def candidateOf (resolveType : Text → Text) (fields : List (Option Text × O.V)) : Option (Candidate O) := do
  let factText ← requiredText O fields "fact_text" 4096
  let subject ← requiredText O fields "subject" 512
  let predicate ← requiredText O fields "predicate" 512
  let object ← requiredText O fields "object" 512
  let objectType ← optionalText O fields "object_type"
  let validFrom ← temporal O fields "valid_from"
  let validTo ← temporal O fields "valid_to"
  let confidence ← confidenceOf O fields
  let sourceSpan ← optionalText O fields "source_span"
  let supersedes ← optionalText O fields "supersedes"
  let metadata ← metadataOf O fields
  if sourceSpan.any fun t => 4096 < t.length then none
  else some ⟨factText, subject, predicate, object, some (objectType.getD (resolveType object)), validFrom, validTo,
    confidence, sourceSpan, supersedes, metadata⟩

/-! ## Answers -/

/-- What pydantic does with the objects of an answer. -/
structure Schema where
  resolveType : Text → Text
  /-- A `FactCandidate`, which is taken as it is. -/
  asCandidate : O.V → Option (Candidate O)

variable {O} (S : Schema O)

def Schema.candidate (value : O.V) : Option (Candidate O) :=
  match S.asCandidate value with
  | some c => some c
  | none => (O.entries value).bind (candidateOf O S.resolveType)

/-- `FactExtractionResponse.model_validate`; keys other than `facts` are ignored. -/
def Schema.response (data : O.V) : Option (List (Candidate O)) := do
  let fields ← O.entries data
  match given O fields "facts" with
  | none => some []
  | some facts =>
    let items ← O.items facts
    if 32 < items.length then none else items.mapM S.candidate

/-- `_parse_dict_or_list`. -/
def Schema.parseDictOrList (data : O.V) : Option (List (Candidate O)) := do
  let fields ← O.entries data
  if fields ≠ [] ∧ ∀ f ∈ fields, f.1 = some "facts".toList then
    let facts ← given O fields "facts"
    let _ ← O.items facts
    S.response data
  else none

/-- The answer without a fence around it. -/
def unfence (raw : Text) : Text :=
  let cleaned := strip raw
  let cleaned :=
    if "\x60\x60\x60json".toList.isPrefixOf cleaned then cleaned.drop 7
    else if "\x60\x60\x60".toList.isPrefixOf cleaned then cleaned.drop 3
    else cleaned
  strip (if "\x60\x60\x60".toList.isSuffixOf cleaned then cleaned.take (cleaned.length - 3) else cleaned)

/-- What the model returns: a validated response, a text, or any other object. -/
inductive Output (O : Objects)
  | response (facts : List (Candidate O))
  | text (raw : Text)
  | value (v : O.V)

/-- `_parse_response`. -/
def Schema.parseResponse : Output O → Option (List (Candidate O))
  | .response facts => some facts
  | .text raw =>
    match (O.loads (unfence raw)).bind S.parseDictOrList with
    | some facts => some facts
    | none => (O.readJson (unfence raw)).bind S.response
  | .value v => S.parseDictOrList v

/-! ## Checks of the facts -/

/-- An exception of `extract_facts`: the one it declares, the TypeError of a comparison, or one of `json.dumps`. -/
inductive Raised
  | unavailable
  | typeError
  | serialization
  deriving DecidableEq

/-- The source span is given and stands in the text, up to case. -/
def spanOccurs (text : Text) (c : Candidate O) : Bool :=
  match c.sourceSpan with
  | none => false
  | some span => !span.isEmpty && decide (O.casefold span <:+: O.casefold text)

/-- A stored time, read again; the outer none is a text that is refused. -/
def readTemporal (value : Option Text) : Option (Option Moment) :=
  match value with
  | none => some none
  | some t =>
    if t.length > 128 || hasControl t then none
    else (O.fromIsoFormat (replaceText ['Z'] "+00:00".toList t)).map some

def Candidate.validFromText (c : Candidate O) : Option Text := c.validFrom.map (·.val)

def Candidate.validToText (c : Candidate O) : Option Text := c.validTo.map (·.val)

/-- The checks of the texts, the confidence and the span. -/
def isPlausible (text : Text) (c : Candidate O) : Bool :=
  !(c.factText.isEmpty || c.subject.isEmpty || c.predicate.isEmpty || c.object.isEmpty) &&
    !(c.confidence.any fun x => !O.inUnit x) && spanOccurs text c

/-- The checks of the two times. -/
def checkTemporal (c : Candidate O) : Except Raised Bool :=
  match readTemporal (O := O) c.validFromText, readTemporal (O := O) c.validToText with
  | some (some m), some (some n) =>
    if c.validFromText = some [] ∨ c.validToText = some [] then .ok true
    else
      match m.after n with
      | none => .error .typeError
      | some later => .ok (!later)
  | some _, some _ => .ok true
  | _, _ => .ok false

/-- `DeterministicFactValidator.validate`. -/
def validate (text : Text) (c : Candidate O) : Except Raised Bool :=
  if !isPlausible text c then .ok false
  else
    match O.dumps c.metadata with
    | .refused => .ok false
    | .raises => .error .serialization
    | .bytes n => if n > 8192 then .ok false else checkTemporal c

/-- The key of a fact among the facts of an answer. -/
def Candidate.key (c : Candidate O) : Text × Text × Text × Option Text :=
  (O.casefold c.subject, O.casefold c.predicate, O.casefold c.object, c.validFromText)

/-- `deduplicate_and_canonicalize`, behind facts with the keys `seen`. -/
def deduplicate (text : Text) : List (Text × Text × Text × Option Text) → List (Candidate O) →
    Except Raised (List (Candidate O))
  | _, [] => .ok []
  | seen, c :: cs => do
    let valid ← validate text c
    if !valid || c.key ∈ seen then deduplicate text seen cs
    else do
      let rest ← deduplicate text (c.key :: seen) cs
      pure (c :: rest)

/-! ## Calls of the model -/

/-- An exception: the names of its classes, its own first, and whether it is an OSError; or one with the exception of
its last attempt, a cause or a context, of which the first is followed. -/
inductive Exn
  | plain (classes : List Text) (isOSError : Bool)
  | chained (inner : Exn)

/-- `_unwrap_exception`. -/
def Exn.unwrap : Exn → Exn
  | .chained e => e.unwrap
  | e => e

def providerErrorNames : List Text :=
  ["APIConnectionError", "APITimeoutError", "APIStatusError", "RateLimitError", "InternalServerError", "ConnectError",
    "ConnectTimeout", "ReadTimeout", "WriteTimeout", "PoolTimeout", "TimeoutException", "NetworkError",
    "TransportError", "RetryError"].map String.toList

/-- `_is_provider_failure`. -/
def Exn.isProviderFailure (e : Exn) : Bool :=
  match e.unwrap with
  | .plain classes isOSError =>
    isOSError || classes.any (· ∈ providerErrorNames) ||
      classes.head?.any fun name => decide ("Timeout".toList <:+: name) || decide ("Connection".toList <:+: name)
  | .chained _ => false

/-- One call of the model. -/
inductive Outcome (O : Objects)
  | raised (e : Exn)
  | returned (out : Output O)

/-- What is made of a call: the provider is unavailable, the answer does not fit the schema, or it is read. -/
inductive Attempt (O : Objects)
  | unavailable
  | schemaError
  | parsed (facts : List (Candidate O))

def Schema.attempt : Outcome O → Attempt O
  | .raised e => if e.isProviderFailure then .unavailable else .schemaError
  | .returned out =>
    match S.parseResponse out with
    | some facts => .parsed facts
    | none => .schemaError

/-- The answer that the calls end with, and how many there are; `provider n` is what call `n` makes. -/
def Schema.answer (provider : Nat → Outcome O) : Attempt O × Nat :=
  match S.attempt (provider 0) with
  | .schemaError => (S.attempt (provider 1), 2)
  | attempt => (attempt, 1)

structure Extraction (O : Objects) where
  result : Except Raised (List (Candidate O))
  calls : Nat

/-- The exception that is raised. -/
def Extraction.raised (e : Extraction O) : Option Raised :=
  match e.result with
  | .error raised => some raised
  | .ok _ => none

/-- `extract_facts`. -/
def Schema.extractFacts (provider : Nat → Outcome O) (text : Text) : Extraction O :=
  if strip text = [] then ⟨.ok [], 0⟩
  else
    match S.answer provider with
    | (.unavailable, calls) => ⟨.error .unavailable, calls⟩
    | (.schemaError, calls) => ⟨.ok [], calls⟩
    | (.parsed facts, calls) => ⟨deduplicate text [] facts, calls⟩

/-! ## What is declared -/

/-- The first time is not later than the second one. -/
def NotLater (O : Objects) (a b : Text) : Prop :=
  ∃ m n, readTemporal (O := O) (some a) = some (some m) ∧ readTemporal (O := O) (some b) = some (some n) ∧
    m.after n = some false

/-- Subject, predicate, object and the begin are the same up to case. -/
def SameFact (c d : Candidate O) : Prop :=
  O.casefold c.subject = O.casefold d.subject ∧ O.casefold c.predicate = O.casefold d.predicate ∧
    O.casefold c.object = O.casefold d.object ∧ c.validFromText.map O.casefold = d.validFromText.map O.casefold

/-- What holds of a fact of the result. -/
structure Sound (text : Text) (c : Candidate O) : Prop where
  valid : validate text c = .ok true
  span : ∃ span, c.sourceSpan = some span ∧ O.casefold span <:+: O.casefold text
  ordered : ∀ a b, c.validFromText = some a → c.validToText = some b → NotLater O a b

/-- `extract_facts` raises the declared exception or returns sound facts without repetition, after at most two calls. -/
def Declared (text : Text) (e : Extraction O) : Prop :=
  e.calls ≤ 2 ∧
    match e.result with
    | .error raised => raised = .unavailable
    | .ok facts => (∀ c ∈ facts, Sound text c) ∧ facts.Pairwise fun c d => ¬ SameFact c d

/-- One of the two times has an offset and the other one has none. -/
def mixesOffsets (c : Candidate O) : Bool :=
  match readTemporal (O := O) c.validFromText, readTemporal (O := O) c.validToText with
  | some (some m), some (some n) => m.offset.isSome ≠ n.offset.isSome
  | _, _ => false

/-- The candidate is plausible, and either its metadata cannot be written for another reason than a type or a value, or
they are small enough and its times cannot be compared. -/
def offends (text : Text) (c : Candidate O) : Bool :=
  isPlausible text c &&
    match O.dumps c.metadata with
    | .refused => false
    | .raises => true
    | .bytes n => n ≤ 8192 && mixesOffsets c

/-- The candidates of the answer that the calls end with. -/
def Schema.candidates (provider : Nat → Outcome O) : List (Candidate O) :=
  match (S.answer provider).1 with
  | .parsed facts => facts
  | _ => []

theorem after_eq_none {m n : Moment} : m.after n = none ↔ m.offset.isSome ≠ n.offset.isSome := by
  unfold Moment.after
  cases m.offset <;> cases n.offset <;> simp

/-- A time that is read is not the empty text. -/
theorem readTemporal_ne {value : Option Text} {m : Option Moment} (h : readTemporal (O := O) value = some m) :
    value ≠ some [] := by
  rintro rfl
  have hempty : replaceText ['Z'] "+00:00".toList [] = [] := rfl
  rw [readTemporal, hempty, O.fromIsoFormat_empty] at h
  simp at h

/-- The comparison of the times raises exactly where they mix offsets. -/
theorem checkTemporal_cases (c : Candidate O) :
    (mixesOffsets c = true ∧ checkTemporal c = .error .typeError) ∨
      (mixesOffsets c = false ∧ ∃ v, checkTemporal c = .ok v) := by
  unfold mixesOffsets checkTemporal
  rcases hfrom : readTemporal (O := O) c.validFromText with _ | _ | m <;>
    rcases hto : readTemporal (O := O) c.validToText with _ | _ | n
  all_goals try exact Or.inr ⟨rfl, _, rfl⟩
  -- both times are read
  dsimp only
  rw [if_neg (not_or.2 ⟨readTemporal_ne hfrom, readTemporal_ne hto⟩)]
  cases hafter : m.after n with
  | none => exact Or.inl ⟨decide_eq_true (after_eq_none.1 hafter), rfl⟩
  | some later =>
    refine Or.inr ⟨decide_eq_false fun h => ?_, _, rfl⟩
    rw [after_eq_none.2 h] at hafter
    cases hafter

/-- The validator raises for the offending candidates only, and never what is declared. -/
theorem validate_cases (text : Text) (c : Candidate O) :
    (offends text c = true ∧ ∃ e, validate text c = .error e ∧ e ≠ .unavailable) ∨
      (offends text c = false ∧ ∃ v, validate text c = .ok v) := by
  unfold offends validate
  cases isPlausible text c with
  | false => exact Or.inr ⟨rfl, _, rfl⟩
  | true =>
    cases O.dumps c.metadata with
    | refused => exact Or.inr ⟨rfl, _, rfl⟩
    | raises => exact Or.inl ⟨rfl, _, rfl, by decide⟩
    | bytes n =>
      simp only [Bool.not_true, Bool.false_eq_true, if_false, Bool.true_and]
      by_cases hlarge : n > 8192
      · rw [if_pos hlarge, decide_eq_false (Nat.not_le.2 hlarge)]
        exact Or.inr ⟨rfl, _, rfl⟩
      · rw [if_neg hlarge, decide_eq_true (Nat.not_lt.1 hlarge), Bool.true_and]
        rcases checkTemporal_cases c with ⟨hmixes, hraises⟩ | ⟨hmixes, hreturns⟩
        · exact Or.inl ⟨hmixes, _, hraises, by decide⟩
        · exact Or.inr ⟨hmixes, hreturns⟩

theorem validate_eq_true {text : Text} {c : Candidate O} (h : validate text c = .ok true) :
    isPlausible text c = true ∧ checkTemporal c = .ok true := by
  unfold validate at h
  cases hplaus : isPlausible text c with
  | false => rw [hplaus] at h; cases h
  | true =>
    rw [hplaus] at h
    cases hdumps : O.dumps c.metadata with
    | refused => rw [hdumps] at h; cases h
    | raises => rw [hdumps] at h; cases h
    | bytes n =>
      rw [hdumps] at h
      by_cases hlarge : n > 8192
      · simp [hlarge] at h
      · exact ⟨rfl, by simpa [hlarge] using h⟩

theorem span_of_isPlausible {text : Text} {c : Candidate O} (h : isPlausible text c = true) :
    ∃ span, c.sourceSpan = some span ∧ O.casefold span <:+: O.casefold text := by
  have hspan : spanOccurs text c = true := (Bool.and_eq_true_iff.1 h).2
  unfold spanOccurs at hspan
  cases hgiven : c.sourceSpan with
  | none => rw [hgiven] at hspan; cases hspan
  | some span =>
    rw [hgiven] at hspan
    exact ⟨span, rfl, of_decide_eq_true (Bool.and_eq_true_iff.1 hspan).2⟩

theorem ordered_of_checkTemporal {c : Candidate O} (h : checkTemporal c = .ok true) {a b : Text}
    (ha : c.validFromText = some a) (hb : c.validToText = some b) : NotLater O a b := by
  unfold checkTemporal at h
  rw [ha, hb] at h
  have hread : ∀ t, readTemporal (O := O) (some t) ≠ some none := by
    intro t
    rw [readTemporal]
    split
    · exact nofun
    · cases O.fromIsoFormat (replaceText ['Z'] "+00:00".toList t) <;> simp
  rcases hfrom : readTemporal (O := O) (some a) with _ | _ | m
  · rw [hfrom] at h; cases h
  · exact absurd hfrom (hread a)
  · rcases hto : readTemporal (O := O) (some b) with _ | _ | n
    · rw [hfrom, hto] at h; cases h
    · exact absurd hto (hread b)
    · rw [hfrom, hto] at h
      dsimp only at h
      rw [if_neg (not_or.2 ⟨readTemporal_ne hfrom, readTemporal_ne hto⟩)] at h
      refine ⟨m, n, hfrom, hto, ?_⟩
      cases hafter : m.after n with
      | none => simp [hafter] at h
      | some later => simpa [hafter] using h

/-- A candidate that the validator accepts is sound. -/
theorem sound_of_validate {text : Text} {c : Candidate O} (h : validate text c = .ok true) : Sound text c := by
  obtain ⟨hplaus, htemporal⟩ := validate_eq_true h
  exact ⟨h, span_of_isPlausible hplaus, fun _ _ => ordered_of_checkTemporal htemporal⟩

/-! ## Canonical times -/

theorem mem_substituteFrom {m : Text → Option Nat} {r : Text} : ∀ {skip : Nat} {l : Text} {c : Char},
    c ∈ substituteFrom m r skip l → c ∈ l ∨ c ∈ r
  | _, [], c, h => by rw [substituteFrom] at h; cases h
  | skip + 1, d :: l, c, h => by
    rw [substituteFrom] at h
    exact (mem_substituteFrom h).imp_left (List.mem_cons_of_mem d)
  | 0, d :: l, c, h => by
    rw [substituteFrom] at h
    split at h
    · rcases List.mem_append.1 h with h | h
      · exact Or.inr h
      · exact (mem_substituteFrom h).imp_left (List.mem_cons_of_mem d)
    · rcases List.mem_cons.1 h with rfl | h
      · exact Or.inl List.mem_cons_self
      · exact (mem_substituteFrom h).imp_left (List.mem_cons_of_mem d)

theorem Temporal.plain (t : Temporal O) : ∀ c ∈ t.val, isTemporalChar c = true := by
  obtain ⟨t, value, h⟩ := t
  intro c hc
  unfold canonicalIsoTemporal at h
  split at h
  · cases Option.some.inj h
  obtain ⟨raw, -, h⟩ := Option.bind_eq_some_iff.1 h
  dsimp only at h
  split at h
  · cases Option.some.inj h
  split at h
  · cases h
  split at h
  · obtain ⟨m, -, hm⟩ := Option.map_eq_some_iff.1 h
    obtain rfl := Option.some.inj hm
    exact O.isoDate_plain m c hc
  · obtain ⟨m, -, hm⟩ := Option.map_eq_some_iff.1 h
    obtain rfl := Option.some.inj hm
    rcases mem_substituteFrom hc with hc | hc
    · exact O.isoFormat_plain m c hc
    · obtain rfl := List.mem_singleton.1 hc
      decide

theorem casefold_plain {t : Text} (h : ∀ c ∈ t, isTemporalChar c = true) : O.casefold t = t.map Char.toLower := by
  induction t with
  | nil => rfl
  | cons c t ih =>
    obtain ⟨hc, ht⟩ := List.forall_mem_cons.1 h
    have hascii : ∀ d ∈ "0123456789-:.+TZ".toList, d.toNat < 128 := List.all_iff_forall_prop.1 (by decide)
    have hfold := O.foldChar_ascii c (hascii c (of_decide_eq_true hc))
    have hcons : O.casefold (c :: t) = O.foldChar c ++ O.casefold t := List.flatMap_cons
    rw [hcons, hfold, ih ht]
    rfl

/-- Canonical times that are the same up to case are the same. -/
theorem Temporal.eq_of_casefold {a b : Temporal O} (h : O.casefold a.val = O.casefold b.val) : a = b := by
  rw [casefold_plain a.plain, casefold_plain b.plain] at h
  have hall : "0123456789-:.+TZ".toList.all fun c =>
      "0123456789-:.+TZ".toList.all fun d => c.toLower = d.toLower → c = d := by decide
  have hinj : ∀ c ∈ "0123456789-:.+TZ".toList, ∀ d ∈ "0123456789-:.+TZ".toList, c.toLower = d.toLower → c = d :=
    fun c hc => List.all_iff_forall_prop.1 (List.all_eq_true.1 hall c hc)
  have hsame : ∀ {l r : Text}, (∀ c ∈ l, isTemporalChar c = true) → (∀ c ∈ r, isTemporalChar c = true) →
      l.map Char.toLower = r.map Char.toLower → l = r := by
    intro l
    induction l with
    | nil => intro r _ _ h; exact (List.map_eq_nil_iff.1 h.symm).symm
    | cons c l ih =>
      intro r hl hr h
      cases r with
      | nil => cases h
      | cons d r =>
        obtain ⟨hc, hl⟩ := List.forall_mem_cons.1 hl
        obtain ⟨hd, hr⟩ := List.forall_mem_cons.1 hr
        obtain ⟨hhead, htail⟩ := List.cons.inj h
        rw [hinj c (of_decide_eq_true hc) d (of_decide_eq_true hd) hhead, ih hl hr htail]
  exact Subtype.ext (hsame a.plain b.plain h)

/-- Facts that are the same up to case have one key. -/
theorem SameFact.key {c d : Candidate O} (h : SameFact c d) : c.key = d.key := by
  obtain ⟨hsubject, hpredicate, hobject, hfrom⟩ := h
  have hbegin : c.validFrom = d.validFrom := by
    unfold Candidate.validFromText at hfrom
    cases hc : c.validFrom with
    | none =>
      cases hd : d.validFrom with
      | none => rfl
      | some b => rw [hc, hd] at hfrom; cases hfrom
    | some a =>
      cases hd : d.validFrom with
      | none => rw [hc, hd] at hfrom; cases hfrom
      | some b =>
        rw [hc, hd] at hfrom
        rw [Temporal.eq_of_casefold (Option.some.inj hfrom)]
  unfold Candidate.key Candidate.validFromText
  rw [hsubject, hpredicate, hobject, hbegin]

/-! ## Every answer -/

theorem deduplicate_cons {text : Text} {seen : List (Text × Text × Text × Option Text)} {c : Candidate O}
    {cs : List (Candidate O)} {valid : Bool} (h : validate text c = .ok valid) :
    deduplicate text seen (c :: cs) =
      if !valid || c.key ∈ seen then deduplicate text seen cs
      else (deduplicate text (c.key :: seen) cs).map (c :: ·) := by
  rw [deduplicate, h]
  rfl

/-- The facts that are kept are valid, and no two of them have one key. -/
theorem deduplicate_eq_ok {text : Text} {seen : List (Text × Text × Text × Option Text)} {cs out : List (Candidate O)}
    (h : deduplicate text seen cs = .ok out) :
    (∀ c ∈ out, validate text c = .ok true ∧ c.key ∉ seen) ∧ out.Pairwise fun c d => c.key ≠ d.key := by
  induction cs generalizing seen out with
  | nil =>
    obtain rfl := Except.ok.inj h
    exact ⟨fun c hc => absurd hc List.not_mem_nil, List.Pairwise.nil⟩
  | cons c cs ih =>
    cases hvalid : validate text c with
    | error e =>
      rw [deduplicate, hvalid] at h
      cases h
    | ok valid =>
      rw [deduplicate_cons hvalid] at h
      split at h
      · exact ih h
      · next hkept =>
        have hkept : valid = true ∧ c.key ∉ seen := by simpa using hkept
        obtain ⟨rest, hrest, rfl⟩ := map_eq_ok.1 h
        obtain ⟨hmem, hpairwise⟩ := ih hrest
        refine ⟨fun d hd => ?_, List.pairwise_cons.2 ⟨fun d hd => ?_, hpairwise⟩⟩
        · rcases List.mem_cons.1 hd with rfl | hd
          · exact ⟨hkept.1 ▸ hvalid, hkept.2⟩
          · exact ⟨(hmem d hd).1, fun hs => (hmem d hd).2 (List.mem_cons_of_mem _ hs)⟩
        · exact fun he => (hmem d hd).2 (he ▸ List.mem_cons_self)

/-- The deduplication raises for the answers with an offending candidate only, and never what is declared. -/
theorem deduplicate_cases (text : Text) (seen : List (Text × Text × Text × Option Text)) (cs : List (Candidate O)) :
    ((∃ c ∈ cs, offends text c = true) ∧ ∃ e, deduplicate text seen cs = .error e ∧ e ≠ .unavailable) ∨
      ((∀ c ∈ cs, offends text c = false) ∧ ∃ out, deduplicate text seen cs = .ok out) := by
  induction cs generalizing seen with
  | nil => exact Or.inr ⟨fun c hc => absurd hc List.not_mem_nil, _, rfl⟩
  | cons c cs ih =>
    rcases validate_cases text c with ⟨hoffends, e, hraises, hundeclared⟩ | ⟨hclean, valid, hvalid⟩
    · refine Or.inl ⟨⟨c, List.mem_cons_self, hoffends⟩, e, ?_, hundeclared⟩
      rw [deduplicate, hraises]
      rfl
    · rw [deduplicate_cons hvalid]
      have hrest : ∀ seen', ((∃ d ∈ c :: cs, offends text d = true) ∧
            ∃ e, deduplicate text seen' cs = .error e ∧ e ≠ .unavailable) ∨
          ((∀ d ∈ c :: cs, offends text d = false) ∧ ∃ out, deduplicate text seen' cs = .ok out) := by
        intro seen'
        rcases ih seen' with ⟨⟨d, hd, hoffends⟩, hraises⟩ | ⟨hall, hreturns⟩
        · exact Or.inl ⟨⟨d, List.mem_cons_of_mem c hd, hoffends⟩, hraises⟩
        · exact Or.inr ⟨List.forall_mem_cons.2 ⟨hclean, hall⟩, hreturns⟩
      split
      · exact hrest seen
      · rcases hrest (c.key :: seen) with ⟨hsome, e, he, hundeclared⟩ | ⟨hall, out, hout⟩
        · exact Or.inl ⟨hsome, e, by rw [he]; rfl, hundeclared⟩
        · exact Or.inr ⟨hall, c :: out, by rw [hout]; rfl⟩

theorem answer_calls (provider : Nat → Outcome O) : (S.answer provider).2 ≤ 2 := by
  unfold Schema.answer
  split <;> simp

/-- The calls end as declared if and only if no candidate of their answer offends. -/
theorem extractFacts_declared_iff (provider : Nat → Outcome O) (text : Text) :
    Declared text (S.extractFacts provider text) ↔
      (strip text = [] ∨ ∀ c ∈ S.candidates provider, offends text c = false) := by
  unfold Declared Schema.extractFacts Schema.candidates
  have hcalls := answer_calls S provider
  by_cases hblank : strip text = []
  · rw [if_pos hblank]
    simp [hblank]
  · rw [if_neg hblank]
    simp only [hblank, false_or]
    generalize S.answer provider = answer at hcalls ⊢
    obtain ⟨attempt, calls⟩ := answer
    cases attempt with
    | unavailable => simpa using hcalls
    | schemaError => simpa using hcalls
    | parsed facts =>
      dsimp only
      rcases deduplicate_cases text [] facts with ⟨⟨c, hc, hoffends⟩, e, he, hundeclared⟩ | ⟨hclean, out, hout⟩
      · rw [he]
        refine ⟨fun h => absurd h.2 hundeclared, fun h => ?_⟩
        rw [h c hc] at hoffends
        cases hoffends
      · rw [hout]
        obtain ⟨hvalid, hpairwise⟩ := deduplicate_eq_ok hout
        refine ⟨fun _ => hclean, fun _ => ⟨hcalls, fun c hc => sound_of_validate (hvalid c hc).1, ?_⟩⟩
        exact hpairwise.imp fun hne hsame => hne hsame.key

theorem not_declared {text : Text} {e : Extraction O} {raised : Raised} (h : e.raised = some raised)
    (hraised : raised ≠ .unavailable) : ¬ Declared text e := by
  rintro ⟨-, hresult⟩
  unfold Extraction.raised at h
  cases he : e.result with
  | error r =>
    rw [he] at h hresult
    exact hraised ((Option.some.inj h).symm.trans hresult)
  | ok facts =>
    rw [he] at h
    cases h

/-- JSON values as objects, and the two times of `mixedAnswer`. -/
def jsonObjects : Objects where
  V := Json.Tree
  F := Nat
  isNone v := match v with
    | .null => true
    | _ => false
  isEmptyText v := match v with
    | .str t => t.isEmpty
    | _ => false
  str v := match v with
    | .str t => some t
    | _ => none
  float _ := none
  inUnit _ := true
  entries v := match v with
    | .obj members => some (members.map fun m => (some m.1, m.2))
    | _ => none
  items v := match v with
    | .arr items => some items
    | _ => none
  emptyDict := .obj []
  dumps v := match v with
    | .obj [] => .bytes 2
    | _ => .refused
  loads := Json.loadsTree
  readJson := Json.loadsTree
  isDecimal := Char.isDigit
  fromIsoFormat t :=
    if t = "2024-06-01".toList then some ⟨1717200000000000, none⟩
    else if t = "2024-12-31T00:00:00+00:00".toList then some ⟨1735603200000000, some 0⟩
    else none
  isoFormat m := if m.offset.isSome then "2024-12-31T00:00:00+00:00".toList else "2024-06-01T00:00:00".toList
  isoDate _ := "2024-06-01".toList
  foldChar c := [c.toLower]
  fromIsoFormat_empty := by decide
  isoFormat_plain m := by split <;> exact List.all_eq_true.1 (by decide)
  isoDate_plain _ := List.all_eq_true.1 (by decide)
  foldChar_ascii _ _ := rfl

def jsonSchema : Schema jsonObjects := ⟨fun _ => "ENTITY".toList, fun _ => none⟩

/-- A fact that begins on a date and ends at a time with an offset. -/
def mixedAnswer : Text :=
  ("\x7b\"facts\": [\x7b\"fact_text\": \"a\", \"subject\": \"a\", \"predicate\": \"b\", \"object\": \"c\", \"source_span\": \"a\", " ++
    "\"valid_from\": \"2024-06-01\", \"valid_to\": \"2024-12-31T00:00:00Z\"\x7d]\x7d").toList

theorem mixedAnswer_eq : mixedAnswer =
    ['\x7b', '"', 'f', 'a', 'c', 't', 's', '"', ':', ' ', '[', '\x7b', '"', 'f', 'a', 'c', 't', '_', 't',
     'e', 'x', 't', '"', ':', ' ', '"', 'a', '"', ',', ' ', '"', 's', 'u', 'b', 'j', 'e', 'c', 't', '"',
     ':', ' ', '"', 'a', '"', ',', ' ', '"', 'p', 'r', 'e', 'd', 'i', 'c', 'a', 't', 'e', '"', ':', ' ',
     '"', 'b', '"', ',', ' ', '"', 'o', 'b', 'j', 'e', 'c', 't', '"', ':', ' ', '"', 'c', '"', ',', ' ',
     '"', 's', 'o', 'u', 'r', 'c', 'e', '_', 's', 'p', 'a', 'n', '"', ':', ' ', '"', 'a', '"', ',', ' '] ++
    ['"', 'v', 'a', 'l', 'i', 'd', '_', 'f', 'r', 'o', 'm', '"', ':', ' ', '"', '2', '0', '2', '4', '-',
     '0', '6', '-', '0', '1', '"', ',', ' ', '"', 'v', 'a', 'l', 'i', 'd', '_', 't', 'o', '"', ':', ' ',
     '"', '2', '0', '2', '4', '-', '1', '2', '-', '3', '1', 'T', '0', '0', ':', '0', '0', ':', '0', '0',
     'Z', '"', '\x7d', ']', '\x7d'] :=
  String.toList_append.trans (congrArg₂ (· ++ ·) String.toList_ofList String.toList_ofList)

/-- A begin without an offset and an end with one make `extract_facts` raise a TypeError. -/
theorem extractFacts_mixed_raises :
    (jsonSchema.extractFacts (fun _ => .returned (.text mixedAnswer)) ['a']).raised = some .typeError ∧
      ¬ Declared ['a'] (jsonSchema.extractFacts (fun _ => .returned (.text mixedAnswer)) ['a']) := by
  have hraised : (jsonSchema.extractFacts (fun _ => .returned (.text mixedAnswer)) ['a']).raised = some .typeError := by
    rw [mixedAnswer_eq]
    decide +kernel
  exact ⟨hraised, not_declared hraised (by decide)⟩

end Mesa.Consolidation
