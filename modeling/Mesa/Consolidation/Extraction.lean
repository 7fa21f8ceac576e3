/-
The durable extraction of a mutation: what the consolidation persists of a list of extracted facts, and
what the projectors read back. The reader checks again, and stricter, and it resolves whether an object
is an entity.
-/
import Mesa.Foundation.Result
import Mesa.Foundation.Rewriting
import Mesa.Rebuild.Payload

namespace Mesa.Consolidation

open Mesa.Foundation
open Mesa.Rebuild (Text isSpace strip)

/-! ## Values -/

/-- A value of a fact as the model returned it. -/
inductive PyValue (F : Type)
  | none
  | bool (b : Bool)
  | int (n : Int)
  | float (x : F)
  | str (t : Text)
  | list (items : List (PyValue F))
  | dict (items : List (Text × PyValue F))

/-- Floating point numbers, their conversions, and `str` of values other than texts. -/
structure Host where
  F : Type
  /-- `float(n)`, or an OverflowError. -/
  ofInt : Int → Option F
  /-- `float(t)`, or a ValueError. -/
  ofText : Text → Option F
  one : F
  isZero : F → Bool
  isFinite : F → Bool
  /-- `0.0 <= x <= 1.0`. -/
  inUnit : F → Bool
  render : PyValue F → Text
  render_ne_nil : ∀ v, render v ≠ []

inductive PyError
  | typeError
  | valueError
  | overflowError
  | attributeError
  | permanentProjection (message : String)
  deriving DecidableEq

variable {H : Host}

/-- `bool(value)`. -/
def PyValue.truthy : PyValue H.F → Bool
  | .none => false
  | .bool b => b
  | .int n => n ≠ 0
  | .float x => !H.isZero x
  | .str t => !t.isEmpty
  | .list items => !items.isEmpty
  | .dict items => !items.isEmpty

/-- `str(value)`. -/
def PyValue.text (v : PyValue H.F) : Text :=
  match v with
  | .str t => t
  | v => H.render v

/-- `str(value) if value is not None else None`. -/
def PyValue.optional (v : PyValue H.F) : Option Text :=
  match v with
  | .none => Option.none
  | v => some v.text

/-- `float(value)`. -/
def PyValue.toFloat : PyValue H.F → Except PyError H.F
  | .bool b => (H.ofInt b.toInt).elim (.error .overflowError) .ok
  | .int n => (H.ofInt n).elim (.error .overflowError) .ok
  | .float x => .ok x
  | .str t => (H.ofText t).elim (.error .valueError) .ok
  | _ => .error .typeError

/-- `value or other`. -/
def PyValue.orElse (v w : PyValue H.F) : PyValue H.F := if v.truthy then v else w

def PyValue.isNone : PyValue H.F → Bool
  | .none => true
  | _ => false

/-! ## What is persisted -/

/-- What `record_mutation_extraction` gets from the dictionary of a fact; a key that is not there is none. -/
structure ExtractedFact (H : Host) where
  head : PyValue H.F
  relation : PyValue H.F
  tail : PyValue H.F
  literalValue : PyValue H.F
  confidence : PyValue H.F
  factText : PyValue H.F
  validFrom : PyValue H.F
  validTo : PyValue H.F
  sourceSpan : PyValue H.F
  supersedes : PyValue H.F
  objectType : PyValue H.F
  tailType : PyValue H.F
  metadata : PyValue H.F

/-- An item of `_mesa_v4_projection_triplets`. -/
structure PersistedFact (H : Host) where
  head : Text
  relation : Text
  tail : Option Text
  literalValue : Option Text
  confidence : H.F
  factText : Text
  validFrom : PyValue H.F
  validTo : PyValue H.F
  sourceSpan : PyValue H.F
  supersedes : PyValue H.F
  objectType : PyValue H.F
  metadata : PyValue H.F

/-- `value if isinstance(value, dict) else {}`. -/
def dictOr (v : PyValue H.F) : PyValue H.F :=
  match v with
  | .dict items => .dict items
  | _ => .dict []

/-- `float(1.0 if confidence is None else confidence)`. -/
def factConfidence (t : ExtractedFact H) : Except PyError H.F :=
  if t.confidence.isNone then .ok H.one else t.confidence.toFloat

/-- The pass of `record_mutation_extraction` over one fact; none where the fact is skipped. -/
def normalizeFact (t : ExtractedFact H) : Except PyError (Option (PersistedFact H)) :=
  if !t.head.truthy || !t.relation.truthy || t.tail.isNone == t.literalValue.isNone then .ok none
  else do
    let confidence ← factConfidence t
    pure (some {
      head := t.head.text, relation := t.relation.text, tail := t.tail.optional
      literalValue := t.literalValue.optional, confidence, factText := (t.factText.orElse (.str [])).text
      validFrom := t.validFrom, validTo := t.validTo, sourceSpan := t.sourceSpan, supersedes := t.supersedes
      objectType := t.objectType.orElse t.tailType, metadata := dictOr t.metadata })

/-- The list that `record_mutation_extraction` persists. -/
def persistedFacts (facts : List (ExtractedFact H)) : Except PyError (List (PersistedFact H)) :=
  (facts.mapM normalizeFact).map fun kept => kept.filterMap id

/-! ## The kinds of objects -/

/-- The patterns of `classify_graph_object`, `str.upper`, and the statute codes that
`LegalEntityResolver.extract_citations` finds. -/
structure ObjectPatterns where
  upper : Text → Text
  /-- `_DATE_REGEX`, `_TR_DATE_REGEX` or `_TR_YEAR_REGEX`. -/
  date : Text → Bool
  /-- `_QUANTITY_REGEX` or `_PERCENT_REGEX`. -/
  quantity : Text → Bool
  /-- `_ARTICLE_REF_REGEX`. -/
  articleRef : Text → Bool
  citations : Text → List Text
  withoutAbbreviations : Text → Text
  /-- A full stop, a space and a letter. -/
  sentence : Text → Bool

def legalStatutes : List Text :=
  ["TBK", "TMK", "TCK", "TTK", "HMK", "CMK", "İYUK", "VUK", "İİK", "ANAYASA", "KVKK", "İŞ KANUNU", "4857", "6098",
    "4721", "5237", "5271", "6100", "6102", "2577", "6698"].map String.toList

/-- The object types that a name stands for: as a literal of that type. -/
def literalTypes : List (List String × String) :=
  [(["LITERAL", "TEXT", "STRING", "NUMBER"], "LITERAL"), (["DATE", "TEMPORAL", "TIME", "DATETIME"], "DATE"),
    (["ARTICLE_REFERENCE"], "ARTICLE_REFERENCE"), (["LEGAL_REFERENCE", "STATUTE_REFERENCE"], "LEGAL_REFERENCE")]

/-- `(object_type or "").strip().upper()`. -/
def rawType (P : ObjectPatterns) (objectType : PyValue H.F) : Except PyError Text :=
  if !objectType.truthy then .ok (P.upper [])
  else
    match objectType with
    | .str t => .ok (P.upper (strip t))
    | _ => .error .attributeError

/-- The inferred type of a literal. -/
def literalKind (P : ObjectPatterns) (literal : Text) : String :=
  let cleaned := strip literal
  if P.date cleaned then "DATE"
  else if P.articleRef cleaned then "ARTICLE_REFERENCE"
  else if legalStatutes.any fun s => s.isPrefixOf (P.upper cleaned) then "LEGAL_REFERENCE"
  else "LITERAL"

/-- Whether a tail is a phrase and not a name. -/
def longPhrase (P : ObjectPatterns) (cleaned : Text) : Bool :=
  let count := (words isSpace cleaned).length
  let bare := P.withoutAbbreviations cleaned
  60 < cleaned.length || 6 < count || cleaned.any (· ∈ [';', '\n', '\t']) || P.sentence bare ||
    (['.'].isSuffixOf (strip bare) && 3 ≤ count)

/-- The inferred type of a tail. -/
def tailKind (P : ObjectPatterns) (cleaned : Text) : String :=
  if P.date cleaned then "DATE"
  else if P.quantity cleaned then "LITERAL"
  else if P.articleRef cleaned then "ARTICLE_REFERENCE"
  else if legalStatutes.any (fun s => P.upper cleaned = s || (s ++ [' ']).isPrefixOf (P.upper cleaned)) ||
      (P.citations cleaned).any fun code => P.upper code ∈ legalStatutes then "LEGAL_REFERENCE"
  else if longPhrase P cleaned then "LITERAL"
  else "ENTITY"

/-- `classify_graph_object`, for an object type that is a text. -/
def classify (P : ObjectPatterns) (tail literalValue : Option Text) (raw : Text) : Option Text × Option Text × String :=
  match literalTypes.find? fun kind => raw ∈ kind.1.map String.toList with
  | some kind => (none, literalValue.or tail, kind.2)
  | none =>
    if raw = "ENTITY".toList then (tail.or literalValue, none, "ENTITY")
    else
      match tail, literalValue with
      | none, some literal => (none, some literal, literalKind P literal)
      | some tail, none =>
        let kind := tailKind P (strip tail)
        if kind = "ENTITY" then (some (strip tail), none, kind) else (none, some (strip tail), kind)
      | tail, literalValue => (tail, literalValue, if (tail.getD []).isEmpty then "LITERAL" else "ENTITY")

def classifyGraphObject (P : ObjectPatterns) (tail literalValue : Option Text) (objectType : PyValue H.F) :
    Except PyError (Option Text × Option Text × String) :=
  (rawType P objectType).map (classify P tail literalValue)

/-! ## What is read back -/

/-- `_normalized_confidence`. -/
def normalizedConfidence (value : PyValue H.F) : Except PyError H.F :=
  if value.isNone then .ok H.one
  else
    match value.toFloat with
    | .error .overflowError => .error .overflowError
    | .error _ => .error (.permanentProjection "projection confidence is not numeric")
    | .ok confidence =>
      if !H.isFinite confidence || !H.inUnit confidence then
        .error (.permanentProjection "projection confidence is outside [0, 1]")
      else .ok confidence

/-- A fact that the lanes project. -/
structure ProjectionFact (H : Host) where
  head : Text
  relation : Text
  tail : Option Text
  literalValue : Option Text
  confidence : H.F
  factText : Text
  validFrom : PyValue H.F
  validTo : PyValue H.F
  sourceSpan : PyValue H.F
  supersedes : PyValue H.F
  objectType : Option String
  metadata : PyValue H.F

/-- The pass of `_triplets` over one persisted item. -/
def readFact (P : ObjectPatterns) (item : PersistedFact H) : Except PyError (ProjectionFact H) := do
  let confidence ← normalizedConfidence (.float item.confidence)
  let tail := item.tail.filter (· ≠ [])
  if item.head = [] ∨ item.relation = [] ∨ tail.isNone = item.literalValue.isNone then
    .error (.permanentProjection "blank durable projection extraction")
  else
    let (tail, literalValue, objectType) ← classifyGraphObject P tail item.literalValue item.objectType
    pure {
      head := item.head, relation := item.relation, tail, literalValue, confidence, factText := item.factText
      validFrom := item.validFrom, validTo := item.validTo, sourceSpan := item.sourceSpan
      supersedes := item.supersedes, objectType := some objectType, metadata := dictOr item.metadata }

/-- What `_triplets` reads of the mutation. -/
structure ProjectionRecord (H : Host) where
  projectionTriplets : List (PersistedFact H)
  contentPayload : Text
  documentId : Text
  title : Text
  chunkId : Text
  evidenceSpan : Text
  /-- Statute code and article id. -/
  legalIdentity : Option (Text × Text)
  documentChunk : Bool
  metadata : PyValue H.F

/-- The fact for the whole chunk where no finer one was extracted. -/
def ProjectionRecord.chunkFact (record : ProjectionRecord H) : ProjectionFact H :=
  let orElse := fun a b : Text => if a = [] then b else a
  let docId := orElse (orElse record.documentId record.title) "Belge".toList
  let chunkId := orElse record.chunkId docId
  let evidence := orElse record.evidenceSpan record.contentPayload
  let (head, relation, tail, literalValue) : Text × Text × Option Text × Option Text :=
    match record.legalIdentity, record.documentChunk with
    | some (statuteCode, articleId), false =>
      (statuteCode ++ " m.".toList ++ articleId, "hükmü".toList, none, some (orElse record.contentPayload evidence))
    | _, _ => (docId, "madde".toList, some chunkId, none)
  { head, relation, tail, literalValue, confidence := H.one, factText := orElse record.contentPayload docId
    validFrom := .none, validTo := .none, sourceSpan := .str evidence, supersedes := .none, objectType := none
    metadata := record.metadata }

/-- `_triplets`. -/
def triplets (P : ObjectPatterns) (record : ProjectionRecord H) : Except PyError (List (ProjectionFact H)) :=
  if record.projectionTriplets = [] then .ok [record.chunkFact] else record.projectionTriplets.mapM (readFact P)

/-! ## Agreement -/

/-- A persisted item that the reader accepts: its tail is not empty, its confidence is in the unit
interval, and its object type is a text if it is one at all. -/
structure PersistedFact.Projectable (p : PersistedFact H) : Prop where
  tail : p.tail ≠ some []
  finite : H.isFinite p.confidence = true
  inUnit : H.inUnit p.confidence = true
  objectType : p.objectType.truthy = true → ∃ t, p.objectType = .str t

/-- A fact that is read of a persisted item: its object is the persisted one, classified, which can make
a tail a literal or a literal a tail, and takes the spaces around a tail away. -/
structure Agrees (P : ObjectPatterns) (p : PersistedFact H) (f : ProjectionFact H) : Prop where
  head : f.head = p.head
  relation : f.relation = p.relation
  confidence : f.confidence = p.confidence
  classified : ∃ raw kind, rawType P p.objectType = .ok raw ∧
    classify P p.tail p.literalValue raw = (f.tail, f.literalValue, kind) ∧ f.objectType = some kind
  one : f.tail.isSome ≠ f.literalValue.isSome
  object : ∃ o, p.tail.or p.literalValue = some o ∧
    (f.tail.or f.literalValue = some o ∨ f.tail.or f.literalValue = some (strip o))

theorem text_ne_nil {v : PyValue H.F} (h : v.truthy = true) : v.text ≠ [] := by
  cases v with
  | str t => simpa [PyValue.truthy, PyValue.text] using h
  | _ => exact H.render_ne_nil _

theorem isNone_optional (v : PyValue H.F) : v.optional.isNone = v.isNone := by
  cases v <;> rfl

/-- A persisted item has a head, a relation and exactly one object. -/
theorem normalizeFact_eq_some {t : ExtractedFact H} {p : PersistedFact H} (h : normalizeFact t = .ok (some p)) :
    p.head ≠ [] ∧ p.relation ≠ [] ∧ p.tail.isNone ≠ p.literalValue.isNone := by
  unfold normalizeFact at h
  split at h
  · cases h
  · next hkept =>
    obtain ⟨confidence, -, h⟩ := bind_eq_ok.1 h
    cases h
    simp only [Bool.or_eq_true, Bool.not_eq_eq_eq_not, Bool.not_true, beq_iff_eq, not_or, Bool.not_eq_false] at hkept
    obtain ⟨⟨hhead, hrelation⟩, hobject⟩ := hkept
    refine ⟨text_ne_nil hhead, text_ne_nil hrelation, ?_⟩
    rw [isNone_optional, isNone_optional]
    exact hobject

theorem mem_persistedFacts {facts : List (ExtractedFact H)} {ps : List (PersistedFact H)}
    (h : persistedFacts facts = .ok ps) {p : PersistedFact H} (hp : p ∈ ps) :
    p.head ≠ [] ∧ p.relation ≠ [] ∧ p.tail.isNone ≠ p.literalValue.isNone := by
  obtain ⟨kept, hkept, rfl⟩ := map_eq_ok.1 h
  obtain ⟨q, hq, rfl⟩ := List.mem_filterMap.1 hp
  obtain ⟨t, -, ht⟩ := mem_of_mapM hkept _ hq
  exact normalizeFact_eq_some ht

/-- An object stays one object with the same text, up to the spaces around a tail. -/
theorem classify_object (P : ObjectPatterns) {tail literalValue : Option Text} (h : tail.isNone ≠ literalValue.isNone)
    (raw : Text) : ∃ o o', tail.or literalValue = some o ∧ (o' = o ∨ o' = strip o) ∧
      ((∃ kind, classify P tail literalValue raw = (some o', none, kind)) ∨
        ∃ kind, classify P tail literalValue raw = (none, some o', kind)) := by
  unfold classify
  cases tail with
  | none =>
    cases literalValue with
    | none => exact absurd rfl h
    | some o =>
      refine ⟨o, o, rfl, .inl rfl, ?_⟩
      split
      · exact .inr ⟨_, rfl⟩
      · split
        · exact .inl ⟨_, rfl⟩
        · exact .inr ⟨_, rfl⟩
  | some o =>
    cases literalValue with
    | some _ => exact absurd rfl h
    | none =>
      split
      · exact ⟨o, o, rfl, .inl rfl, .inr ⟨_, rfl⟩⟩
      · split
        · exact ⟨o, o, rfl, .inl rfl, .inl ⟨_, rfl⟩⟩
        · refine ⟨o, strip o, rfl, .inr rfl, ?_⟩
          dsimp only
          split
          · exact .inl ⟨_, rfl⟩
          · exact .inr ⟨_, rfl⟩

theorem normalizedConfidence_float (x : H.F) : normalizedConfidence (.float x) =
    if !H.isFinite x || !H.inUnit x then .error (.permanentProjection "projection confidence is outside [0, 1]")
    else .ok x := rfl

theorem rawType_ok_iff (P : ObjectPatterns) (v : PyValue H.F) :
    (∃ raw, rawType P v = .ok raw) ↔ (v.truthy = true → ∃ t, v = .str t) := by
  unfold rawType
  cases htruthy : v.truthy with
  | false => simp
  | true =>
    cases v with
    | str t => simp
    | _ => simp

/-- A projectable item is read, and agrees with what is read of it. -/
theorem PersistedFact.Projectable.read (P : ObjectPatterns) {p : PersistedFact H} (h : p.Projectable)
    (hhead : p.head ≠ []) (hrelation : p.relation ≠ []) (hobject : p.tail.isNone ≠ p.literalValue.isNone) :
    ∃ f, readFact P p = .ok f ∧ Agrees P p f := by
  obtain ⟨raw, hraw⟩ := (rawType_ok_iff P p.objectType).2 h.objectType
  have htail : p.tail.filter (· ≠ []) = p.tail := by
    cases ht : p.tail with
    | none => rfl
    | some t => exact Option.filter_some_pos (by simpa using fun hnil => h.tail (by rw [ht, hnil]))
  have hvalid : ¬ (p.head = [] ∨ p.relation = [] ∨ p.tail.isNone = p.literalValue.isNone) :=
    not_or.2 ⟨hhead, not_or.2 ⟨hrelation, hobject⟩⟩
  obtain ⟨o, o', ho, hsame, hclass⟩ := classify_object P hobject raw
  have hread : ∀ r, classify P p.tail p.literalValue raw = r → readFact P p = .ok {
      head := p.head, relation := p.relation, tail := r.1, literalValue := r.2.1, confidence := p.confidence
      factText := p.factText, validFrom := p.validFrom, validTo := p.validTo, sourceSpan := p.sourceSpan
      supersedes := p.supersedes, objectType := some r.2.2, metadata := dictOr p.metadata } := by
    rintro r rfl
    unfold readFact
    rw [normalizedConfidence_float, if_neg (by simp [h.finite, h.inUnit])]
    dsimp only [bind, Except.bind]
    rw [htail, if_neg hvalid, classifyGraphObject, hraw]
    rfl
  rcases hclass with ⟨kind, hclass⟩ | ⟨kind, hclass⟩
  · refine ⟨_, hread _ hclass, rfl, rfl, rfl, ⟨raw, kind, hraw, hclass, rfl⟩, by simp, o, ho, ?_⟩
    rcases hsame with rfl | rfl
    · exact .inl rfl
    · exact .inr rfl
  · refine ⟨_, hread _ hclass, rfl, rfl, rfl, ⟨raw, kind, hraw, hclass, rfl⟩, by simp, o, ho, ?_⟩
    rcases hsame with rfl | rfl
    · exact .inl rfl
    · exact .inr rfl

/-- A list that is persisted with projectable items only is read back: an empty one as the one fact for
the whole chunk, and any other with one fact for each item, in order, that agrees with it. -/
theorem triplets_agree (P : ObjectPatterns) (facts : List (ExtractedFact H)) (record : ProjectionRecord H)
    (h : persistedFacts facts = .ok record.projectionTriplets)
    (hprojectable : ∀ p ∈ record.projectionTriplets, p.Projectable) :
    (record.projectionTriplets = [] → triplets P record = .ok [record.chunkFact]) ∧
      (record.projectionTriplets ≠ [] → ∃ fs, triplets P record = .ok fs ∧
        List.Forall₂ (Agrees P) record.projectionTriplets fs) := by
  refine ⟨fun hnil => if_pos hnil, fun hne => ?_⟩
  unfold triplets
  rw [if_neg hne]
  exact mapM_forall₂ fun p hp =>
    (hprojectable p hp).read P (mem_persistedFacts h hp).1 (mem_persistedFacts h hp).2.1 (mem_persistedFacts h hp).2.2

/-! ## Samples -/

/-- Numbers that are natural parts of a hundred. -/
def percentHost : Host where
  F := Nat
  ofInt n := some (n.toNat * 100)
  ofText _ := none
  one := 100
  isZero x := x = 0
  isFinite _ := true
  inUnit x := x ≤ 100
  render _ := ['?']
  render_ne_nil _ := List.cons_ne_nil _ _

/-- Patterns that match nothing. -/
def noPatterns : ObjectPatterns where
  upper t := t
  date _ := false
  quantity _ := false
  articleRef _ := false
  citations _ := []
  withoutAbbreviations t := t
  sentence _ := false

/-- A fact about `a` with a tail and an object type. -/
def sampleFact (tail objectType : PyValue percentHost.F) : ExtractedFact percentHost where
  head := .str ['a']
  relation := .str ['r']
  tail := tail
  literalValue := .none
  confidence := .float (90 : Nat)
  factText := .none
  validFrom := .none
  validTo := .none
  sourceSpan := .none
  supersedes := .none
  objectType := objectType
  tailType := .none
  metadata := .none

def samplePersisted (objectType : PyValue percentHost.F) : PersistedFact percentHost :=
  ⟨['a'], ['r'], some ['b'], none, (90 : Nat), [], .none, .none, .none, .none, objectType, .dict []⟩

def sampleRecord (items : List (PersistedFact percentHost)) : ProjectionRecord percentHost :=
  ⟨items, [], ['d'], [], ['c'], [], none, false, .none⟩

theorem triplets_agree_entity : persistedFacts [sampleFact (.str ['b']) (.str "ENTITY".toList)] =
      .ok (sampleRecord [samplePersisted (.str "ENTITY".toList)]).projectionTriplets ∧
    ∃ fs, triplets noPatterns (sampleRecord [samplePersisted (.str "ENTITY".toList)]) = .ok fs ∧
      List.Forall₂ (Agrees noPatterns) [samplePersisted (.str "ENTITY".toList)] fs :=
  ⟨rfl, (triplets_agree noPatterns [sampleFact (.str ['b']) (.str "ENTITY".toList)]
    (sampleRecord [samplePersisted (.str "ENTITY".toList)]) rfl (by
      intro p hp
      rw [List.mem_singleton.1 hp]
      exact ⟨by decide, rfl, rfl, fun _ => ⟨_, rfl⟩⟩)).2 (List.cons_ne_nil _ _)⟩

/-- A tail of the type TEXT is persisted as a tail and read back as a literal, and a list without a
valid fact is read back as one fact. -/
theorem typed_tail_becomes_literal :
    persistedFacts [sampleFact (.str ['b']) (.str "TEXT".toList)] = .ok [samplePersisted (.str "TEXT".toList)] ∧
    (∃ f, triplets noPatterns (sampleRecord [samplePersisted (.str "TEXT".toList)]) = .ok [f] ∧
      (samplePersisted (.str "TEXT".toList)).tail = some ['b'] ∧ f.tail = none ∧ f.literalValue = some ['b']) ∧
    persistedFacts ([] : List (ExtractedFact percentHost)) = .ok [] ∧
    ∃ f, triplets noPatterns (sampleRecord []) = .ok [f] :=
  ⟨rfl, ⟨_, rfl, rfl, rfl, rfl⟩, rfl, _, rfl⟩

end Mesa.Consolidation
