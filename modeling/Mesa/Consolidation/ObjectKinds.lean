/-
The classification of the object of a fact, applied again to what it returned: once by the worker that reads a fact back,
and once more by the projection of the assertion. For a fact with one object the second pass changes nothing, and the
worker projects the entities that the assertion names.
-/
import Mesa.Consolidation.Extraction
import Mesa.Foundation.Ordering

namespace Mesa.Consolidation

open Mesa.Foundation
open Mesa.Rebuild (Text isSpace strip)

/-! ## Entities -/

/-- The types that `classify_graph_object` returns. -/
def objectKinds : List String := ["ENTITY", "LITERAL", "LEGAL_REFERENCE", "ARTICLE_REFERENCE", "DATE"]

/-- The patterns, and `LegalEntityResolver.canonicalize_entity`. Their types are in capital letters, and the empty text
has no citation. -/
structure ObjectRules extends ObjectPatterns where
  canonicalizeEntity : Text → Text
  upper_kind : ∀ kind ∈ objectKinds, upper (strip kind.toList) = kind.toList
  canonicalize_nil : canonicalizeEntity [] = []
  canonicalize_ne_nil : ∀ t, t ≠ [] → canonicalizeEntity t ≠ []

variable {H : Host} (R : ObjectRules)

/-- The object type that `project_v4_sql_assertion` classifies with. -/
def explicitType (f : ProjectionFact H) : PyValue H.F :=
  match f.objectType with
  | some kind => if kind = "" then .none else .str kind.toList
  | none => .none

/-- `v4_entity_id` raises where a part is empty. -/
def hasEntityId (tenantId name : Text) : Bool := tenantId ≠ [] && name ≠ []

/-- The entities that `project_v4_sql_assertion` resolves. -/
def assertionEntities (tenantId : Text) (f : ProjectionFact H) : Except PyError (List Text) := do
  let head := R.canonicalizeEntity f.head
  let (tail, literalValue, _) ← classifyGraphObject R.toObjectPatterns f.tail f.literalValue (explicitType f)
  let tail := tail.map R.canonicalizeEntity
  if tail.isNone = literalValue.isNone then .error .valueError
  else if !hasEntityId tenantId head || tail.any fun t => !hasEntityId tenantId t then .error .valueError
  else pure (head :: tail.toList)

/-- `sorted({entity for … in (triplet["head"], triplet.get("tail")) if entity})`. -/
def workerEntities (fs : List (ProjectionFact H)) : List Text :=
  orderBy id ((fs.flatMap fun f => f.head :: f.tail.toList).filter (· ≠ [])).dedup

/-- The entities that the SQL lane resolves for them by `project_v4_sql_entity`. -/
def projectedEntities (fs : List (ProjectionFact H)) : List Text := (workerEntities fs).map R.canonicalizeEntity

/-! ## The second pass -/

theorem literalTypes_kind {kind : List String × String} (h : kind ∈ literalTypes) :
    kind.2 ∈ objectKinds ∧ kind.2 ≠ "ENTITY" ∧ (literalTypes.find? fun k => kind.2.toList ∈ k.1.map String.toList) = some kind := by
  revert kind
  decide

/-- What a classification returns for one object: a type of the list, and the object as an entity exactly for ENTITY. -/
structure Classified (r : Option Text × Option Text × String) : Prop where
  kind : r.2.2 ∈ objectKinds
  entity : r.2.2 = "ENTITY" → (∃ t, r.1 = some t) ∧ r.2.1 = none
  literal : r.2.2 ≠ "ENTITY" → r.1 = none ∧ ∃ t, r.2.1 = some t

section

variable {P : ObjectPatterns}

theorem literalKind_mem (literal : Text) : literalKind P literal ∈ objectKinds ∧ literalKind P literal ≠ "ENTITY" := by
  unfold literalKind
  dsimp only
  split_ifs <;> decide

theorem tailKind_mem (cleaned : Text) : tailKind P cleaned ∈ objectKinds := by
  unfold tailKind
  split_ifs <;> decide

/-- One object is classified as one object. -/
theorem classified {tail literalValue : Option Text} (h : tail.isNone ≠ literalValue.isNone) (raw : Text) :
    Classified (classify P tail literalValue raw) := by
  unfold classify
  cases hfind : literalTypes.find? fun kind => raw ∈ kind.1.map String.toList with
  | some kind =>
    obtain ⟨hkind, hliteral, -⟩ := literalTypes_kind (List.mem_of_find?_eq_some hfind)
    refine ⟨hkind, fun h => absurd h hliteral, fun _ => ⟨rfl, ?_⟩⟩
    cases tail with
    | none =>
      cases literalValue with
      | none => exact absurd rfl h
      | some literal => exact ⟨literal, rfl⟩
    | some t =>
      cases literalValue with
      | none => exact ⟨t, rfl⟩
      | some literal => exact ⟨literal, rfl⟩
  | none =>
    dsimp only
    split
    · refine ⟨List.mem_cons_self, fun _ => ⟨?_, rfl⟩, fun h => absurd rfl h⟩
      cases tail with
      | some t => exact ⟨t, rfl⟩
      | none =>
        cases literalValue with
        | none => exact absurd rfl h
        | some literal => exact ⟨literal, rfl⟩
    · cases tail with
      | none =>
        cases literalValue with
        | none => exact absurd rfl h
        | some literal =>
          obtain ⟨hkind, hliteral⟩ := literalKind_mem (P := P) literal
          exact ⟨hkind, fun h => absurd h hliteral, fun _ => ⟨rfl, literal, rfl⟩⟩
      | some t =>
        cases literalValue with
        | some _ => exact absurd rfl h
        | none =>
          dsimp only
          split
          · next hentity => exact ⟨tailKind_mem _, fun _ => ⟨⟨_, rfl⟩, rfl⟩, fun h => absurd hentity h⟩
          · next hliteral => exact ⟨tailKind_mem _, fun h => absurd h hliteral, fun _ => ⟨rfl, _, rfl⟩⟩

/-- A classified object is classified as it is. -/
theorem Classified.again {t l : Option Text} {kind : String} (h : Classified (t, l, kind)) :
    classify P t l kind.toList = (t, l, kind) := by
  by_cases hentity : kind = "ENTITY"
  · subst hentity
    obtain ⟨⟨x, hx⟩, hl⟩ := h.entity rfl
    dsimp only at hx hl
    subst hx hl
    have hnone : (literalTypes.find? fun kind => "ENTITY".toList ∈ kind.1.map String.toList) = none := by decide
    unfold classify
    rw [hnone]
    dsimp only
    rw [if_pos rfl]
    rfl
  · obtain ⟨ht, x, hx⟩ := h.literal hentity
    dsimp only at ht hx
    subst ht hx
    have hkind : ∀ kind ∈ objectKinds, kind ≠ "ENTITY" → ∃ k ∈ literalTypes, k.2 = kind := by decide
    obtain ⟨k, hk, rfl⟩ := hkind kind h.kind hentity
    unfold classify
    rw [(literalTypes_kind hk).2.2]
    rfl

end

/-! ## Persisted facts -/

section

variable {R : ObjectRules} {item : PersistedFact H} {f : ProjectionFact H} {tenantId : Text}

theorem rawType_kind {kind : String} (h : kind ∈ objectKinds) :
    rawType R.toObjectPatterns (.str kind.toList : PyValue H.F) = .ok kind.toList := by
  have hne : ∀ kind ∈ objectKinds, kind.toList.isEmpty = false := by decide
  unfold rawType
  rw [PyValue.truthy, hne kind h, if_neg (by decide)]
  exact congrArg Except.ok (R.upper_kind kind h)

/-- A fact that is read has a head and one object, classified. -/
theorem readFact_classified (h : readFact R.toObjectPatterns item = .ok f) :
    f.head ≠ [] ∧ ∃ kind, f.objectType = some kind ∧ Classified (f.tail, f.literalValue, kind) := by
  obtain ⟨confidence, -, h⟩ := bind_eq_ok.1 h
  dsimp only at h
  split at h
  · cases h
  · next hvalid =>
    obtain ⟨hhead, hvalid⟩ := not_or.1 hvalid
    obtain ⟨-, hobject⟩ := not_or.1 hvalid
    obtain ⟨r, hclass, h⟩ := bind_eq_ok.1 h
    obtain ⟨raw, -, rfl⟩ := map_eq_ok.1 hclass
    have hclassified := classified (P := R.toObjectPatterns) hobject raw
    cases h
    exact ⟨hhead, _, rfl, hclassified⟩

/-- The projection of the assertion classifies a fact that was read as it is. -/
theorem classify_read {kind : String} (hkind : f.objectType = some kind) (h : Classified (f.tail, f.literalValue, kind)) :
    classifyGraphObject R.toObjectPatterns f.tail f.literalValue (explicitType f) = .ok (f.tail, f.literalValue, kind) := by
  have hne : kind ≠ "" := by
    rintro rfl
    have hnot : "" ∉ objectKinds := by decide
    exact hnot h.kind
  unfold classifyGraphObject explicitType
  rw [hkind]
  dsimp only
  rw [if_neg hne, rawType_kind h.kind]
  exact congrArg Except.ok h.again

/-- The assertion of a fact that was read names its head and its tail, unless the tail is empty. -/
theorem assertionEntities_read (htenant : tenantId ≠ []) (h : readFact R.toObjectPatterns item = .ok f) :
    assertionEntities R tenantId f =
      if f.tail = some [] then .error .valueError
      else .ok ((f.head :: f.tail.toList).map R.canonicalizeEntity) := by
  obtain ⟨hhead, kind, hkind, hclassified⟩ := readFact_classified h
  have hone : ¬ (f.tail.map R.canonicalizeEntity).isNone = f.literalValue.isNone := by
    rw [Option.isNone_map]
    by_cases hentity : kind = "ENTITY"
    · obtain ⟨⟨t, ht⟩, hl⟩ := hclassified.entity hentity
      dsimp only at ht hl
      rw [ht, hl]
      exact Bool.false_ne_true
    · obtain ⟨ht, l, hl⟩ := hclassified.literal hentity
      dsimp only at ht hl
      rw [ht, hl]
      exact Bool.false_ne_true.symm
  have hid : ∀ t, hasEntityId tenantId (R.canonicalizeEntity t) = decide (t ≠ []) := by
    intro t
    unfold hasEntityId
    by_cases ht : t = []
    · subst ht
      rw [R.canonicalize_nil, decide_eq_false (p := [] ≠ []) fun h => h rfl, Bool.and_false]
    · rw [decide_eq_true htenant, decide_eq_true (R.canonicalize_ne_nil t ht), decide_eq_true ht, Bool.true_and]
  unfold assertionEntities
  rw [classify_read hkind hclassified]
  dsimp only [bind, Except.bind]
  rw [if_neg hone, hid, decide_eq_true hhead, Bool.not_true, Bool.false_or]
  cases ht : f.tail with
  | none => rfl
  | some t =>
    rw [Option.map_some, Option.any_some, hid]
    by_cases hnil : t = []
    · subst hnil
      rfl
    · rw [decide_eq_true hnil, if_neg (by decide), if_neg fun h => hnil (Option.some.inj h)]
      rfl

theorem mem_projectedEntities {fs : List (ProjectionFact H)} {name : Text} :
    name ∈ projectedEntities R fs ↔
      ∃ f ∈ fs, ∃ e ∈ f.head :: f.tail.toList, e ≠ [] ∧ R.canonicalizeEntity e = name := by
  unfold projectedEntities workerEntities
  simp only [List.mem_map, (orderBy_perm id _).mem_iff, List.mem_dedup, List.mem_filter, List.mem_flatMap,
    decide_eq_true_eq]
  constructor
  · rintro ⟨e, ⟨⟨f, hf, he⟩, hne⟩, hname⟩
    exact ⟨f, hf, e, he, hne, hname⟩
  · rintro ⟨f, hf, e, he, hne, hname⟩
    exact ⟨e, ⟨⟨f, hf, he⟩, hne⟩, hname⟩

end

/-- The classification of one object is one object and is classified as it is; and the worker projects for a fact that
it reads back exactly the entities that the projection of its assertion resolves, which raises only for an empty name. -/
theorem classification_stable (R : ObjectRules) :
    (∀ (tail literalValue : Option Text) (raw : Text), tail.isNone ≠ literalValue.isNone →
      ∀ tail' literal' kind, classify R.toObjectPatterns tail literalValue raw = (tail', literal', kind) →
        tail'.isNone ≠ literal'.isNone ∧ classifyGraphObject R.toObjectPatterns tail' literal'
          (.str kind.toList : PyValue H.F) = .ok (tail', literal', kind)) ∧
      ∀ (item : PersistedFact H) (f : ProjectionFact H), readFact R.toObjectPatterns item = .ok f →
        ∀ tenantId, tenantId ≠ [] →
          (f.tail ≠ some [] → ∃ entities, assertionEntities R tenantId f = .ok entities) ∧
            ∀ entities, assertionEntities R tenantId f = .ok entities →
              ∀ name, name ∈ projectedEntities R [f] ↔ name ∈ entities := by
  refine ⟨fun tail literalValue raw hone tail' literal' kind h => ?_, fun item f h tenantId htenant => ?_⟩
  · have hclassified := classified (P := R.toObjectPatterns) hone raw
    rw [h] at hclassified
    refine ⟨?_, ?_⟩
    · by_cases hentity : kind = "ENTITY"
      · obtain ⟨⟨t, rfl⟩, rfl⟩ := hclassified.entity hentity
        exact Bool.false_ne_true
      · obtain ⟨rfl, l, rfl⟩ := hclassified.literal hentity
        exact Bool.false_ne_true.symm
    · unfold classifyGraphObject
      rw [rawType_kind hclassified.kind]
      exact congrArg Except.ok hclassified.again
  · have hhead := (readFact_classified h).1
    rw [assertionEntities_read htenant h]
    refine ⟨fun hne => ⟨_, if_neg hne⟩, fun entities hentities name => ?_⟩
    split at hentities
    · cases hentities
    · next hne =>
      cases hentities
      rw [mem_projectedEntities, List.mem_map]
      constructor
      · rintro ⟨f', hf', e, he, -, hname⟩
        rw [List.mem_singleton.1 hf'] at he
        exact ⟨e, he, hname⟩
      · rintro ⟨e, he, hname⟩
        refine ⟨f, List.mem_singleton_self f, e, he, ?_, hname⟩
        rintro rfl
        rcases List.mem_cons.1 he with heq | htail
        · exact hhead heq.symm
        · exact hne (Option.mem_toList.1 htail)

/-- A fact with a tail and a literal, and without a type: the second pass takes the literal away. -/
theorem two_objects_unstable : ∃ R : ObjectRules,
    classifyGraphObject R.toObjectPatterns (some ['x']) (some ['y']) (.none : PyValue percentHost.F) =
        .ok (some ['x'], some ['y'], "ENTITY") ∧
      classifyGraphObject R.toObjectPatterns (some ['x']) (some ['y']) (.str "ENTITY".toList : PyValue percentHost.F) =
        .ok (some ['x'], none, "ENTITY") :=
  ⟨{ noPatterns with
      canonicalizeEntity := id
      upper_kind := by decide
      canonicalize_nil := rfl
      canonicalize_ne_nil := fun _ h => h }, by decide, by decide⟩

end Mesa.Consolidation
