/-
The coverage audit of a batch answer: one triplet for every record, into which later triplets of the same record are
folded as additional objects. The additional objects of an answer are arbitrary; they are validated only when a triplet
is folded or flattened, and folding drops what they hold of their own.
-/
import Mesa.Rebuild.Payload
import Mesa.Foundation.Optional

namespace Mesa.Consolidation.Coverage

open Mesa.Foundation
open Mesa.Rebuild (Text isSpace strip)

/-! ## Objects -/

/-- A value as `json.loads` makes it; `S` are the numbers and booleans. -/
inductive Value (S : Type)
  | null
  | scalar (s : S)
  | str (s : Text)
  | list (items : List (Value S))
  | dict (members : List (Text × Value S))

abbrev Obj (S : Type) := List (Text × Value S)

/-- Validation of a confidence, a number from 0 to 1. What it makes of a value it leaves alone. -/
structure Numbers where
  S : Type
  toConfidence : Value S → Option S
  toConfidence_self : ∀ v s, toConfidence v = some s → toConfidence (.scalar s) = some s

/-- `head`, `relation` and `tail`: stripped, and 1 to 256 characters. -/
structure Name where
  text : Text
  tight : Tight isSpace text
  short : text.length ≤ 256

variable (N : Numbers)

structure Confidence where
  value : N.S
  valid : N.toConfidence (.scalar value) = some value

/-- What a triplet says, apart from the record it is of and its additional triplets. -/
structure Fact where
  head : Name
  relation : Name
  tail : Name
  objectType : Option Text
  confidence : Option (Confidence N)
  factText : Option Text
  validFrom : Option Text
  validTo : Option Text
  sourceSpan : Option Text
  supersedes : Option Text
  metadata : Obj N.S

/-- `ExtractedTriplet`. -/
structure Triplet extends Fact N where
  recordIndex : Nat
  additionalTriplets : List (Obj N.S)

variable {N}

/-! ## Validation -/

/-- A required text of 1 to 256 characters once it is stripped. -/
def toName : Option (Value N.S) → Option Name
  | some (.str s) =>
    if h : strip s ≠ [] ∧ (strip s).length ≤ 256 then some ⟨strip s, tight_trimBy h.1, h.2⟩ else none
  | _ => none

/-- An optional text. -/
def toText : Option (Value N.S) → Option (Option Text)
  | none | some .null => some none
  | some (.str s) => some (some s)
  | _ => none

def toConfidence : Option (Value N.S) → Option (Option (Confidence N))
  | none | some .null => some none
  | some v =>
    match h : N.toConfidence v with
    | some s => some (some ⟨s, N.toConfidence_self v s h⟩)
    | none => none

def toDict : Option (Value N.S) → Option (Obj N.S)
  | none => some []
  | some (.dict members) => some members
  | _ => none

/-- `list[dict[str, Any]]`. -/
def toDicts : Option (Value N.S) → Option (List (Obj N.S))
  | none => some []
  | some (.list items) => items.mapM fun item => toDict (some item)
  | _ => none

def field (o : Obj N.S) (key : String) : Option (Value N.S) := o.lookup key.toList

/-- `ExtractedTriplet(record_index=…, **item)`: the fact of an object and its additional triplets, or a
`ValidationError`. -/
def validate (o : Obj N.S) : Option (Fact N × List (Obj N.S)) := do
  let head ← toName (field o "head")
  let relation ← toName (field o "relation")
  let tail ← toName (field o "tail")
  let objectType ← toText (N := N) (field o "object_type")
  let confidence ← toConfidence (field o "confidence")
  let additionalTriplets ← toDicts (field o "additional_triplets")
  let factText ← toText (N := N) (field o "fact_text")
  let validFrom ← toText (N := N) (field o "valid_from")
  let validTo ← toText (N := N) (field o "valid_to")
  let sourceSpan ← toText (N := N) (field o "source_span")
  let supersedes ← toText (N := N) (field o "supersedes")
  let metadata ← toDict (field o "metadata")
  some (⟨head, relation, tail, objectType, confidence, factText, validFrom, validTo, sourceSpan, supersedes, metadata⟩,
    additionalTriplets)

/-- `all_triplets`, as facts. -/
def Triplet.allTriplets (t : Triplet N) : Option (List (Fact N)) :=
  (t.additionalTriplets.mapM validate).map fun items => t.toFact :: items.map Prod.fst

def ofText : Option Text → Value N.S
  | some s => .str s
  | none => .null

/-- `model_dump(exclude={"record_index", "additional_triplets"})`. -/
def Fact.dump (f : Fact N) : Obj N.S :=
  [("head".toList, .str f.head.text), ("relation".toList, .str f.relation.text), ("tail".toList, .str f.tail.text),
    ("object_type".toList, ofText f.objectType),
    ("confidence".toList, (f.confidence.map fun c => Value.scalar c.value).getD .null),
    ("fact_text".toList, ofText f.factText), ("valid_from".toList, ofText f.validFrom),
    ("valid_to".toList, ofText f.validTo), ("source_span".toList, ofText f.sourceSpan),
    ("supersedes".toList, ofText f.supersedes), ("metadata".toList, .dict f.metadata)]

/-! ## The audit -/

/-- A response: the triplet objects there are, and the positions of those that it lists. -/
structure Response (N : Numbers) where
  store : List (Triplet N)
  triplets : List Nat
  inside : ∀ a ∈ triplets, a < store.length

/-- The objects during the audit, and the one that is kept for an index. -/
structure Audit (N : Numbers) where
  store : List (Triplet N)
  indexed : Nat → Option Nat

/-- One round of the loop over the triplets; a `ValidationError` ends the audit. -/
def Audit.step (expectedCount : Int) (s : Audit N) (a : Nat) : Option (Audit N) :=
  match s.store[a]? with
  | none => some s
  | some triplet =>
    if (triplet.recordIndex : Int) < expectedCount then
      match s.indexed triplet.recordIndex with
      | none =>
        -- `model_copy(deep=True)`: a new object
        some ⟨s.store ++ [triplet], Function.update s.indexed triplet.recordIndex (some s.store.length)⟩
      | some existing => do
        let facts ← triplet.allTriplets
        some { s with store := s.store.modify existing fun t =>
          { t with additionalTriplets := t.additionalTriplets ++ facts.map Fact.dump } }
    else some s

/-- `audit_coverage`: the objects, the triplets by index and the missing indices. -/
def auditCoverage (response : Response N) (expectedCount : Int) : Option (Audit N × List Nat) := do
  let s ← response.triplets.foldlM (Audit.step expectedCount) ⟨response.store, fun _ => none⟩
  some (s, (List.range expectedCount.toNat).filter fun i => (s.indexed i).isNone)

/-! ## Flattening -/

section

variable {o : Obj N.S} {f : Fact N} {nested : List (Obj N.S)}

theorem field_mem {key : String} {v : Value N.S} (h : field o key = some v) : (key.toList, v) ∈ o := by
  unfold field at h
  induction o with
  | nil => cases h
  | cons member o ih =>
    obtain ⟨k, x⟩ := member
    rw [List.lookup_cons] at h
    split at h
    · next heq =>
      rw [← Option.some.inj h, ← beq_iff_eq.1 heq]
      exact List.mem_cons_self
    · exact List.mem_cons_of_mem _ (ih h)

/-- The additional triplets of an object are parts of it. -/
theorem validate_nested (h : validate o = some (f, nested)) : toDicts (field o "additional_triplets") = some nested := by
  unfold validate at h
  obtain ⟨head, -, h⟩ := Option.bind_eq_some_iff.1 h
  obtain ⟨relation, -, h⟩ := Option.bind_eq_some_iff.1 h
  obtain ⟨tail, -, h⟩ := Option.bind_eq_some_iff.1 h
  obtain ⟨objectType, -, h⟩ := Option.bind_eq_some_iff.1 h
  obtain ⟨confidence, -, h⟩ := Option.bind_eq_some_iff.1 h
  obtain ⟨additional, hadditional, h⟩ := Option.bind_eq_some_iff.1 h
  obtain ⟨factText, -, h⟩ := Option.bind_eq_some_iff.1 h
  obtain ⟨validFrom, -, h⟩ := Option.bind_eq_some_iff.1 h
  obtain ⟨validTo, -, h⟩ := Option.bind_eq_some_iff.1 h
  obtain ⟨sourceSpan, -, h⟩ := Option.bind_eq_some_iff.1 h
  obtain ⟨supersedes, -, h⟩ := Option.bind_eq_some_iff.1 h
  obtain ⟨metadata, -, h⟩ := Option.bind_eq_some_iff.1 h
  rw [hadditional, (Prod.mk.inj (Option.some.inj h)).2]

theorem sizeOf_nested (h : validate o = some (f, nested)) {x : Obj N.S} (hx : x ∈ nested) : sizeOf x < sizeOf o := by
  have hdicts := validate_nested h
  cases hfield : field o "additional_triplets" with
  | none =>
    rw [hfield] at hdicts
    cases hdicts
    cases hx
  | some v =>
    rw [hfield] at hdicts
    cases v with
    | list items =>
      obtain ⟨item, hitem, hdict⟩ := Optional.mem_of_mapM hdicts x hx
      cases item with
      | dict members =>
        obtain rfl := Option.some.inj hdict
        have hlt := List.sizeOf_lt_of_mem hitem
        have hmember := List.sizeOf_lt_of_mem (field_mem hfield)
        simp only [Value.dict.sizeOf_spec, Value.list.sizeOf_spec, Prod.mk.sizeOf_spec] at hlt hmember
        omega
      | null => cases hdict
      | scalar s => cases hdict
      | str s => cases hdict
      | list l => cases hdict
    | null => cases hdicts
    | scalar s => cases hdicts
    | str s => cases hdicts
    | dict m => cases hdicts

end

/-- The facts of an object and of the objects in it, to any depth; none if one of them does not validate. -/
def flattenObj (o : Obj N.S) : Option (List (Fact N)) :=
  match h : validate o with
  | none => none
  | some (f, nested) =>
    (nested.attach.mapM fun x => have := sizeOf_nested h x.2; flattenObj x.1).map fun facts => f :: facts.flatten
termination_by sizeOf o

/-- The facts of several objects. -/
def flattenAll (objects : List (Obj N.S)) : Option (List (Fact N)) := (objects.mapM flattenObj).map List.flatten

/-- The facts of a triplet. -/
def Triplet.flatten (t : Triplet N) : Option (List (Fact N)) :=
  (flattenAll t.additionalTriplets).map fun facts => t.toFact :: facts

section

variable {o : Obj N.S} {f : Fact N} {t u : Triplet N}

theorem flattenObj_eq (o : Obj N.S) :
    flattenObj o = (validate o).bind fun p => (flattenAll p.2).map fun facts => p.1 :: facts := by
  rw [flattenObj]
  split
  · next h => rw [h, Option.bind_none]
  · next f nested h =>
    have hattach : (nested.attach.mapM fun x => flattenObj x.1) = nested.mapM flattenObj := by
      conv_rhs => rw [← List.attach_map_subtype_val nested]
      rw [List.mapM_map]
      rfl
    show Option.map _ (nested.attach.mapM fun x => flattenObj x.1) = _
    rw [hattach, h, Option.bind_some, flattenAll, Option.map_map]
    rfl

theorem flattenAll_append (a b : List (Obj N.S)) :
    flattenAll (a ++ b) = (flattenAll a).bind fun facts => (flattenAll b).map (facts ++ ·) := by
  unfold flattenAll
  rw [List.mapM_append]
  cases a.mapM flattenObj with
  | none => rfl
  | some x =>
    cases b.mapM flattenObj with
    | none => rfl
    | some y =>
      show some (x ++ y).flatten = some (x.flatten ++ y.flatten)
      rw [List.flatten_append]

theorem flattenAll_cons (o : Obj N.S) (l : List (Obj N.S)) :
    flattenAll (o :: l) = (flattenObj o).bind fun facts => (flattenAll l).map (facts ++ ·) := by
  unfold flattenAll
  rw [List.mapM_cons]
  cases flattenObj o with
  | none => rfl
  | some x =>
    cases l.mapM flattenObj with
    | none => rfl
    | some y => rfl

theorem toName_text (name : Name) : toName (N := N) (some (.str name.text)) = some name := by
  have hstrip : strip name.text = name.text := trimBy_tight name.tight
  obtain ⟨text, htight, hshort⟩ := name
  unfold toName
  dsimp only at hstrip ⊢
  rw [dif_pos (by rw [hstrip]; exact ⟨htight.1, hshort⟩)]
  congr 2

theorem toText_ofText (text : Option Text) : toText (N := N) (some (ofText text)) = some text := by
  cases text <;> rfl

theorem toConfidence_value (c : Option (Confidence N)) :
    toConfidence (some ((c.map fun c => Value.scalar c.value).getD .null)) = some c := by
  cases c with
  | none => rfl
  | some c =>
    obtain ⟨value, hvalid⟩ := c
    unfold toConfidence
    rw [Option.map_some, Option.getD_some]
    split
    · next heq => cases heq
    · next heq => cases heq
    · next v heq =>
      cases heq
      split
      · next s hs =>
        rw [hvalid] at hs
        cases hs
        rfl
      · next hs =>
        rw [hvalid] at hs
        cases hs

/-- A fact that was written out reads as itself, without additional triplets. -/
theorem validate_dump (f : Fact N) : validate f.dump = some (f, []) := by
  have hhead : field f.dump "head" = some (.str f.head.text) := rfl
  have hrelation : field f.dump "relation" = some (.str f.relation.text) := rfl
  have htail : field f.dump "tail" = some (.str f.tail.text) := rfl
  have htype : field f.dump "object_type" = some (ofText f.objectType) := rfl
  have hconfidence : field f.dump "confidence" = some ((f.confidence.map fun c => Value.scalar c.value).getD .null) := rfl
  have hadditional : field f.dump "additional_triplets" = none := rfl
  have hfact : field f.dump "fact_text" = some (ofText f.factText) := rfl
  have hfrom : field f.dump "valid_from" = some (ofText f.validFrom) := rfl
  have hto : field f.dump "valid_to" = some (ofText f.validTo) := rfl
  have hspan : field f.dump "source_span" = some (ofText f.sourceSpan) := rfl
  have hsupersedes : field f.dump "supersedes" = some (ofText f.supersedes) := rfl
  have hmetadata : field f.dump "metadata" = some (.dict f.metadata) := rfl
  unfold validate
  rw [hhead, hrelation, htail, htype, hconfidence, hadditional, hfact, hfrom, hto, hspan, hsupersedes, hmetadata,
    toName_text, toName_text, toName_text, toConfidence_value]
  simp only [toText_ofText]
  rfl

theorem flattenObj_dump (f : Fact N) : flattenObj f.dump = some [f] := by
  rw [flattenObj_eq, validate_dump]
  rfl

/-- Folded facts are what flattening finds. -/
theorem flattenAll_dumps (facts : List (Fact N)) : flattenAll (facts.map Fact.dump) = some facts := by
  induction facts with
  | nil => rfl
  | cons f facts ih =>
    rw [List.map_cons, flattenAll_cons, flattenObj_dump, ih]
    rfl

/-! ## Folding -/

/-- The triplet that is left of one and the next one with the same index. -/
def Triplet.merge (t u : Triplet N) : Option (Triplet N) :=
  u.allTriplets.map fun facts => { t with additionalTriplets := t.additionalTriplets ++ facts.map Fact.dump }

/-- The listed triplets with an index, in their order. -/
def occurrences (store : List (Triplet N)) (listed : List Nat) (i : Nat) : List (Triplet N) :=
  (listed.filterMap fun a => store[a]?).filter fun t => decide (t.recordIndex = i)

theorem merge_foldlM : ∀ {rest : List (Triplet N)} {t m : Triplet N}, rest.foldlM Triplet.merge t = some m →
    ∃ facts, rest.mapM Triplet.allTriplets = some facts ∧
      m = { t with additionalTriplets := t.additionalTriplets ++ facts.flatten.map Fact.dump }
  | [], t, m, h => by
    cases h
    exact ⟨[], rfl, by rw [List.flatten_nil, List.map_nil, List.append_nil]⟩
  | u :: rest, t, m, h => by
    rw [List.foldlM_cons] at h
    obtain ⟨t', ht', h⟩ := Option.bind_eq_some_iff.1 h
    obtain ⟨facts, hfacts, rfl⟩ := Option.map_eq_some_iff.1 ht'
    obtain ⟨more, hmore, rfl⟩ := merge_foldlM h
    refine ⟨facts :: more, ?_, ?_⟩
    · rw [List.mapM_cons, hfacts, hmore]
      rfl
    · rw [List.flatten_cons, List.map_append, ← List.append_assoc]

theorem merge_foldlM_isSome_iff {rest : List (Triplet N)} {t : Triplet N} :
    (rest.foldlM Triplet.merge t).isSome ↔ ∀ u ∈ rest, (u.allTriplets).isSome := by
  induction rest generalizing t with
  | nil => exact iff_of_true rfl fun u hu => by cases hu
  | cons u rest ih =>
    rw [List.foldlM_cons, List.forall_mem_cons, Triplet.merge]
    cases u.allTriplets with
    | none => exact iff_of_false (fun h => by cases h) fun h => by cases h.1
    | some facts => exact ih.trans ⟨fun h => ⟨rfl, h⟩, And.right⟩

/-! ## The loop -/

/-- The audit after some of the triplets: the objects of the response are as they were, and an index in range has an
object of its own, into which its triplets are folded. -/
structure Follows (store : List (Triplet N)) (expectedCount : Int) (seen : List Nat) (s : Audit N) : Prop where
  kept : store <+: s.store
  fresh : ∀ i a, s.indexed i = some a → store.length ≤ a ∧ a < s.store.length
  apart : ∀ i j a, s.indexed i = some a → s.indexed j = some a → i = j
  absent : ∀ i, s.indexed i = none ↔ expectedCount ≤ i ∨ occurrences store seen i = []
  folded : ∀ i a, s.indexed i = some a → ∃ t rest m, occurrences store seen i = t :: rest ∧
    rest.foldlM Triplet.merge t = some m ∧ s.store[a]? = some m

section

variable {store : List (Triplet N)} {expectedCount : Int} {seen : List Nat} {s : Audit N} {a : Nat}

theorem follows_start : Follows store expectedCount [] ⟨store, fun _ => none⟩ where
  kept := List.prefix_rfl
  fresh _ _ h := by cases h
  apart _ _ _ h := by cases h
  absent _ := iff_of_true rfl (Or.inr rfl)
  folded _ _ h := by cases h

theorem occurrences_append (seen more : List Nat) (i : Nat) :
    occurrences store (seen ++ more) i = occurrences store seen i ++ occurrences store more i := by
  unfold occurrences
  rw [List.filterMap_append, List.filter_append]

theorem occurrences_snoc (ha : store[a]? = some t) (i : Nat) :
    occurrences store (seen ++ [a]) i = occurrences store seen i ++ if t.recordIndex = i then [t] else [] := by
  rw [occurrences_append]
  unfold occurrences
  rw [List.filterMap_cons, ha, List.filterMap_nil]
  congr 1
  rw [List.filter_singleton]
  by_cases h : t.recordIndex = i
  · rw [if_pos h, decide_eq_true h, cond_true]
  · rw [if_neg h, decide_eq_false h, cond_false]

/-- A triplet whose index is out of range is left out. -/
theorem Follows.beyond (h : Follows store expectedCount seen s) (ha : store[a]? = some t)
    (hindex : ¬(t.recordIndex : Int) < expectedCount) : Follows store expectedCount (seen ++ [a]) s where
  kept := h.kept
  fresh := h.fresh
  apart := h.apart
  absent i := by
    rw [h.absent, occurrences_snoc ha]
    split
    · next heq =>
      subst heq
      exact iff_of_true (Or.inl (not_lt.1 hindex)) (Or.inl (not_lt.1 hindex))
    · rw [List.append_nil]
  folded i b hb := by
    have hne : t.recordIndex ≠ i := by
      rintro rfl
      rw [(h.absent t.recordIndex).2 (Or.inl (not_lt.1 hindex))] at hb
      cases hb
    rw [occurrences_snoc ha, if_neg hne, List.append_nil]
    exact h.folded i b hb

/-- The first triplet of an index is copied. -/
theorem Follows.copy (h : Follows store expectedCount seen s) (ha : store[a]? = some t)
    (hindex : (t.recordIndex : Int) < expectedCount) (hnone : s.indexed t.recordIndex = none) :
    Follows store expectedCount (seen ++ [a])
      ⟨s.store ++ [t], Function.update s.indexed t.recordIndex (some s.store.length)⟩ where
  kept := h.kept.trans (List.prefix_append _ _)
  fresh i b hb := by
    dsimp only at hb ⊢
    rw [List.length_append, List.length_singleton]
    by_cases hi : i = t.recordIndex
    · rw [hi, Function.update_self] at hb
      obtain rfl := Option.some.inj hb
      exact ⟨h.kept.length_le, Nat.lt_succ_self _⟩
    · rw [Function.update_of_ne hi] at hb
      exact ⟨(h.fresh i b hb).1, (h.fresh i b hb).2.trans (Nat.lt_succ_self _)⟩
  apart i j b hi hj := by
    dsimp only at hi hj
    by_cases hit : i = t.recordIndex <;> by_cases hjt : j = t.recordIndex
    · exact hit.trans hjt.symm
    · rw [hit, Function.update_self] at hi
      rw [Function.update_of_ne hjt] at hj
      obtain rfl := Option.some.inj hi
      exact absurd (h.fresh j _ hj).2 (Nat.lt_irrefl _)
    · rw [hjt, Function.update_self] at hj
      rw [Function.update_of_ne hit] at hi
      obtain rfl := Option.some.inj hj
      exact absurd (h.fresh i _ hi).2 (Nat.lt_irrefl _)
    · rw [Function.update_of_ne hit] at hi
      rw [Function.update_of_ne hjt] at hj
      exact h.apart i j b hi hj
  absent i := by
    rw [occurrences_snoc ha]
    by_cases hi : i = t.recordIndex
    · subst hi
      rw [if_pos rfl]
      dsimp only
      rw [Function.update_self]
      refine iff_of_false (fun h => by cases h) (not_or.2 ⟨not_le.2 hindex, ?_⟩)
      exact List.append_ne_nil_of_right_ne_nil _ (List.cons_ne_nil _ _)
    · rw [if_neg (Ne.symm hi), List.append_nil]
      dsimp only
      rw [Function.update_of_ne hi]
      exact h.absent i
  folded i b hb := by
    dsimp only at hb
    rw [occurrences_snoc ha]
    by_cases hi : i = t.recordIndex
    · subst hi
      have hnew : occurrences store seen t.recordIndex = [] :=
        ((h.absent t.recordIndex).1 hnone).resolve_left (not_le.2 hindex)
      rw [Function.update_self] at hb
      obtain rfl := Option.some.inj hb
      rw [hnew, if_pos rfl]
      exact ⟨t, [], t, rfl, rfl, List.getElem?_concat_length⟩
    · rw [if_neg (Ne.symm hi), List.append_nil]
      rw [Function.update_of_ne hi] at hb
      obtain ⟨first, rest, m, hocc, hm, hstore⟩ := h.folded i b hb
      refine ⟨first, rest, m, hocc, hm, ?_⟩
      rw [List.getElem?_append_left (h.fresh i b hb).2]
      exact hstore

/-- A later triplet of an index is folded into its object. -/
theorem Follows.fold (h : Follows store expectedCount seen s) (ha : store[a]? = some t) {existing : Nat}
    (hexisting : s.indexed t.recordIndex = some existing) {facts : List (Fact N)} (hfacts : t.allTriplets = some facts) :
    Follows store expectedCount (seen ++ [a])
      { s with store := s.store.modify existing fun t =>
          { t with additionalTriplets := t.additionalTriplets ++ facts.map Fact.dump } } where
  kept := by
    refine List.prefix_iff_getElem?.2 fun k hk => ?_
    have hne : existing ≠ k := fun heq => absurd (h.fresh _ _ hexisting).1 (not_le.2 (heq ▸ hk))
    dsimp only
    rw [List.getElem?_modify_ne _ _ hne]
    exact List.prefix_iff_getElem?.1 h.kept k hk
  fresh i b hb := by
    rw [List.length_modify]
    exact h.fresh i b hb
  apart := h.apart
  absent i := by
    rw [occurrences_snoc ha]
    split
    · next heq =>
      subst heq
      dsimp only
      rw [hexisting]
      have hnot := (not_congr (h.absent t.recordIndex)).1 (by rw [hexisting]; exact Option.some_ne_none _)
      refine iff_of_false (fun h => by cases h) (not_or.2 ⟨(not_or.1 hnot).1, ?_⟩)
      exact List.append_ne_nil_of_right_ne_nil _ (List.cons_ne_nil _ _)
    · rw [List.append_nil]
      exact h.absent i
  folded i b hb := by
    obtain ⟨first, rest, m, hocc, hm, hstore⟩ := h.folded i b hb
    rw [occurrences_snoc ha]
    by_cases hi : t.recordIndex = i
    · subst hi
      obtain rfl := Option.some.inj (hexisting.symm.trans hb)
      refine ⟨first, rest ++ [t], { m with additionalTriplets := m.additionalTriplets ++ facts.map Fact.dump }, ?_, ?_, ?_⟩
      · rw [hocc, if_pos rfl, List.cons_append]
      · rw [List.foldlM_append, hm]
        show (m.merge t).bind some = _
        rw [Triplet.merge, hfacts]
        rfl
      · dsimp only
        rw [List.getElem?_modify_eq, hstore]
        rfl
    · have hne : existing ≠ b := fun heq => hi (h.apart _ _ _ hexisting (heq ▸ hb))
      rw [if_neg hi, List.append_nil]
      refine ⟨first, rest, m, hocc, hm, ?_⟩
      dsimp only
      rw [List.getElem?_modify_ne _ _ hne]
      exact hstore

theorem Follows.expected_of_some (h : Follows store expectedCount seen s) {i a : Nat} (ha : s.indexed i = some a) :
    (i : Int) < expectedCount := by
  by_contra hle
  rw [(h.absent i).2 (Or.inl (not_lt.1 hle))] at ha
  cases ha

/-- The loop ends with every triplet folded, or with an index whose triplets cannot be folded. -/
theorem audit_run {todo : List Nat} (hinside : ∀ a ∈ todo, a < store.length) (h : Follows store expectedCount seen s) :
    (∃ s', todo.foldlM (Audit.step expectedCount) s = some s' ∧ Follows store expectedCount (seen ++ todo) s') ∨
    todo.foldlM (Audit.step expectedCount) s = none ∧ ∃ (i : Nat) (t : Triplet N) (rest : List (Triplet N)), (i : Int) < expectedCount ∧
      occurrences store (seen ++ todo) i = t :: rest ∧ rest.foldlM Triplet.merge t = none := by
  induction todo generalizing seen s with
  | nil => exact Or.inl ⟨s, rfl, by rw [List.append_nil]; exact h⟩
  | cons a todo ih =>
    obtain ⟨t, ha⟩ : ∃ t, store[a]? = some t := ⟨_, List.getElem?_eq_getElem (hinside a List.mem_cons_self)⟩
    have hget : s.store[a]? = some t := by
      obtain ⟨copies, hcopies⟩ := h.kept
      rw [← hcopies, List.getElem?_append_left (hinside a List.mem_cons_self), ha]
    have hrest : ∀ b ∈ todo, b < store.length := fun b hb => hinside b (List.mem_cons_of_mem _ hb)
    have happend : seen ++ a :: todo = (seen ++ [a]) ++ todo := by rw [List.append_assoc, List.singleton_append]
    rw [List.foldlM_cons, happend, Audit.step, hget]
    dsimp only
    by_cases hindex : (t.recordIndex : Int) < expectedCount
    · rw [if_pos hindex]
      cases hexisting : s.indexed t.recordIndex with
      | none => exact ih hrest (h.copy ha hindex hexisting)
      | some existing =>
        cases hfacts : t.allTriplets with
        | some facts => exact ih hrest (h.fold ha hexisting hfacts)
        | none =>
          -- the additional triplets of this one do not validate
          obtain ⟨first, rest, m, hocc, hm, -⟩ := h.folded _ _ hexisting
          have hnone : rest.foldlM Triplet.merge first >>= (Triplet.merge · t) = none := by
            rw [hm]
            show m.merge t = none
            rw [Triplet.merge, hfacts, Option.map_none]
          refine Or.inr ⟨rfl, t.recordIndex, first, rest ++ t :: occurrences store todo t.recordIndex, hindex, ?_, ?_⟩
          · rw [occurrences_append, occurrences_snoc ha, hocc, if_pos rfl, List.append_assoc, List.cons_append,
              List.singleton_append]
          · simp only [List.foldlM_append, List.foldlM_cons]
            rw [← bind_assoc, hnone]
            rfl
    · rw [if_neg hindex]
      exact ih hrest (h.beyond ha hindex)

end

end

/-! ## Nested objects -/

/-- An object that is a single fact. -/
def Alone (o : Obj N.S) : Prop := ∃ f, validate o = some (f, [])

section

variable {o : Obj N.S} {objects : List (Obj N.S)} {facts : List (Fact N)} {t u : Triplet N}

theorem flattenObj_some (h : flattenObj o = some facts) : ∃ f nested rest, validate o = some (f, nested) ∧
    flattenAll nested = some rest ∧ facts = f :: rest := by
  rw [flattenObj_eq] at h
  obtain ⟨⟨f, nested⟩, hvalid, h⟩ := Option.bind_eq_some_iff.1 h
  obtain ⟨rest, hrest, rfl⟩ := Option.map_eq_some_iff.1 h
  exact ⟨f, nested, rest, hvalid, hrest, rfl⟩

theorem flattenObj_alone {f : Fact N} (h : validate o = some (f, [])) : flattenObj o = some [f] := by
  rw [flattenObj_eq, h]
  rfl

/-- Several objects have at least one fact each, and exactly one each only if none has others in it. -/
theorem flattenAll_length (h : flattenAll objects = some facts) :
    objects.length ≤ facts.length ∧ (facts.length = objects.length → ∀ o ∈ objects, Alone o) := by
  induction objects generalizing facts with
  | nil =>
    cases h
    exact ⟨le_rfl, fun _ o ho => by cases ho⟩
  | cons o objects ih =>
    rw [flattenAll_cons] at h
    obtain ⟨first, hfirst, h⟩ := Option.bind_eq_some_iff.1 h
    obtain ⟨more, hmore, rfl⟩ := Option.map_eq_some_iff.1 h
    obtain ⟨f, nested, inner, hvalid, hinner, rfl⟩ := flattenObj_some hfirst
    obtain ⟨hle, halone⟩ := ih hmore
    simp only [List.length_append, List.length_cons]
    refine ⟨by omega, fun heq => List.forall_mem_cons.2 ⟨?_, halone (by omega)⟩⟩
    cases nested with
    | nil => exact ⟨f, hvalid⟩
    | cons x nested =>
      rw [flattenAll_cons] at hinner
      obtain ⟨fx, hfx, h⟩ := Option.bind_eq_some_iff.1 hinner
      obtain ⟨others, -, rfl⟩ := Option.map_eq_some_iff.1 h
      obtain ⟨fx', nx, rx, -, -, rfl⟩ := flattenObj_some hfx
      simp only [List.length_append, List.length_cons] at heq
      omega

theorem allTriplets_length (h : u.allTriplets = some facts) : facts.length = u.additionalTriplets.length + 1 := by
  obtain ⟨items, hitems, rfl⟩ := Option.map_eq_some_iff.1 h
  rw [List.length_cons, List.length_map, Optional.mapM_length hitems]

theorem allTriplets_isSome : (u.allTriplets).isSome ↔ ∀ o ∈ u.additionalTriplets, (validate o).isSome := by
  rw [Triplet.allTriplets, Option.isSome_map, Optional.mapM_isSome_iff]

/-- Where the additional objects are single facts, the triplet's own facts are all there are. -/
theorem flatten_of_alone (hall : u.allTriplets = some facts) (h : ∀ o ∈ u.additionalTriplets, Alone o) :
    u.flatten = some facts := by
  obtain ⟨items, hitems, rfl⟩ := Option.map_eq_some_iff.1 hall
  rw [Triplet.flatten]
  suffices hflat : flattenAll u.additionalTriplets = some (items.map Prod.fst) by rw [hflat, Option.map_some]
  clear hall
  generalize u.additionalTriplets = objects at hitems h
  induction objects generalizing items with
  | nil =>
    cases hitems
    rfl
  | cons o objects ih =>
    obtain ⟨⟨f, hf⟩, hrest⟩ := List.forall_mem_cons.1 h
    rw [List.mapM_cons, hf] at hitems
    obtain ⟨first, hfirst, hitems⟩ := Option.bind_eq_some_iff.1 hitems
    obtain ⟨more, hmore, h⟩ := Option.bind_eq_some_iff.1 hitems
    cases hfirst
    cases h
    rw [flattenAll_cons, flattenObj_alone hf, ih more hmore hrest]
    rfl

theorem flatten_length {deep : List (Fact N)} (hall : u.allTriplets = some facts) (h : u.flatten = some deep) :
    facts.length ≤ deep.length ∧ (deep.length = facts.length → ∀ o ∈ u.additionalTriplets, Alone o) := by
  obtain ⟨rest, hrest, rfl⟩ := Option.map_eq_some_iff.1 h
  obtain ⟨hle, halone⟩ := flattenAll_length hrest
  rw [allTriplets_length hall, List.length_cons]
  exact ⟨by omega, fun heq => halone (by omega)⟩

theorem mapM_flatten_length {rest : List (Triplet N)} {shallow deep : List (List (Fact N))}
    (hshallow : rest.mapM Triplet.allTriplets = some shallow) (hdeep : rest.mapM Triplet.flatten = some deep) :
    shallow.flatten.length ≤ deep.flatten.length ∧ (deep.flatten.length = shallow.flatten.length →
      ∀ u ∈ rest, ∀ o ∈ u.additionalTriplets, Alone o) := by
  induction rest generalizing shallow deep with
  | nil =>
    cases hshallow
    cases hdeep
    exact ⟨le_rfl, fun _ u hu => by cases hu⟩
  | cons u rest ih =>
    rw [List.mapM_cons] at hshallow hdeep
    obtain ⟨facts, hfacts, hshallow⟩ := Option.bind_eq_some_iff.1 hshallow
    obtain ⟨more, hmore, hshallow⟩ := Option.bind_eq_some_iff.1 hshallow
    obtain ⟨all, hall, hdeep⟩ := Option.bind_eq_some_iff.1 hdeep
    obtain ⟨others, hothers, hdeep⟩ := Option.bind_eq_some_iff.1 hdeep
    cases hshallow
    cases hdeep
    obtain ⟨hle, halone⟩ := flatten_length hfacts hall
    obtain ⟨hle', halone'⟩ := ih hmore hothers
    simp only [List.flatten_cons, List.length_append]
    exact ⟨by omega, fun heq => List.forall_mem_cons.2 ⟨halone (by omega), halone' (by omega)⟩⟩

theorem mapM_flatten_of_alone {rest : List (Triplet N)} {shallow : List (List (Fact N))}
    (hshallow : rest.mapM Triplet.allTriplets = some shallow)
    (h : ∀ u ∈ rest, ∀ o ∈ u.additionalTriplets, Alone o) : rest.mapM Triplet.flatten = some shallow := by
  induction rest generalizing shallow with
  | nil => exact hshallow
  | cons u rest ih =>
    rw [List.mapM_cons] at hshallow
    obtain ⟨facts, hfacts, hshallow⟩ := Option.bind_eq_some_iff.1 hshallow
    obtain ⟨more, hmore, hshallow⟩ := Option.bind_eq_some_iff.1 hshallow
    cases hshallow
    obtain ⟨hu, hrest⟩ := List.forall_mem_cons.1 h
    rw [List.mapM_cons, flatten_of_alone hfacts hu, ih hmore hrest]
    rfl

/-- Folding is faithful when the folded objects are single facts, or when nothing can be flattened anyway. -/
theorem flatten_merged_iff {rest : List (Triplet N)} {m : Triplet N} (h : rest.foldlM Triplet.merge t = some m) :
    m.flatten = ((t :: rest).mapM Triplet.flatten).map List.flatten ↔
      ∀ u ∈ rest, ∀ o ∈ u.additionalTriplets, t.flatten = none ∨ Alone o := by
  obtain ⟨shallow, hshallow, rfl⟩ := merge_foldlM h
  have hmerged : ({ t with additionalTriplets := t.additionalTriplets ++ shallow.flatten.map Fact.dump } : Triplet N).flatten =
      t.flatten.map (· ++ shallow.flatten) := by
    unfold Triplet.flatten
    rw [flattenAll_append, flattenAll_dumps]
    cases flattenAll t.additionalTriplets <;> rfl
  rw [hmerged, List.mapM_cons]
  cases hflat : t.flatten with
  | none => exact iff_of_true rfl fun u _ o _ => Or.inl rfl
  | some own =>
    have hright : Option.map List.flatten (do let r ← some own; let rs ← rest.mapM Triplet.flatten; pure (r :: rs)) =
        (rest.mapM Triplet.flatten).map fun deep => own ++ deep.flatten := by
      cases rest.mapM Triplet.flatten <;> rfl
    rw [hright]
    constructor
    · intro heq u hu o ho
      obtain ⟨deep, hdeep, heq⟩ := Option.map_eq_some_iff.1 heq.symm
      have hsame := congrArg List.length heq
      rw [List.length_append, List.length_append] at hsame
      exact Or.inr ((mapM_flatten_length hshallow hdeep).2 (by omega) u hu o ho)
    · intro halone
      rw [mapM_flatten_of_alone hshallow fun u hu o ho => (halone u hu o ho).resolve_left fun heq => by cases heq]
      rfl

end

/-! ## Coverage -/

/-- What the audit is for: it returns and leaves the objects of the response as they were, the missing indices are those
without a triplet, in order, and the triplet of every other index has exactly the facts of the triplets with that index. -/
def Covers (response : Response N) (expectedCount : Int) : Prop :=
  ∃ out missing, auditCoverage response expectedCount = some (out, missing) ∧ response.store <+: out.store ∧
    (missing.Pairwise (· < ·) ∧
      ∀ i, i ∈ missing ↔ (i : Int) < expectedCount ∧ occurrences response.store response.triplets i = []) ∧
    (∀ i, (out.indexed i).isSome ↔ (i : Int) < expectedCount ∧ occurrences response.store response.triplets i ≠ []) ∧
    ∀ i a, out.indexed i = some a → ∃ t, out.store[a]? = some t ∧ t.recordIndex = i ∧
      t.flatten = ((occurrences response.store response.triplets i).mapM Triplet.flatten).map List.flatten

/-- The additional objects of all triplets but the first are facts, and have no others in them unless an object of the
first one is not a fact. -/
def Folds : List (Triplet N) → Prop
  | [] => True
  | t :: rest => ∀ u ∈ rest, ∀ o ∈ u.additionalTriplets, (validate o).isSome ∧ (t.flatten = none ∨ Alone o)

section

variable {response : Response N} {expectedCount : Int}

theorem recordIndex_of_mem {store : List (Triplet N)} {listed : List Nat} {i : Nat} {t : Triplet N}
    (h : t ∈ occurrences store listed i) : t.recordIndex = i :=
  of_decide_eq_true (List.mem_filter.1 h).2

theorem folds_iff {t : Triplet N} {rest : List (Triplet N)} : Folds (t :: rest) ↔
    (rest.foldlM Triplet.merge t).isSome ∧ ∀ u ∈ rest, ∀ o ∈ u.additionalTriplets, t.flatten = none ∨ Alone o := by
  rw [merge_foldlM_isSome_iff]
  simp only [allTriplets_isSome]
  exact ⟨fun h => ⟨fun u hu o ho => (h u hu o ho).1, fun u hu o ho => (h u hu o ho).2⟩,
    fun h u hu o ho => ⟨h.1 u hu o ho, h.2 u hu o ho⟩⟩

/-- The missing indices are those in range without a triplet. -/
theorem Follows.missing {store : List (Triplet N)} {seen : List Nat} {s : Audit N}
    (h : Follows store expectedCount seen s) (i : Nat) :
    i ∈ (List.range expectedCount.toNat).filter (fun i => (s.indexed i).isNone) ↔
      (i : Int) < expectedCount ∧ occurrences store seen i = [] := by
  rw [List.mem_filter, List.mem_range, Option.isNone_iff_eq_none, h.absent, Int.lt_toNat]
  exact ⟨fun ⟨hlt, hor⟩ => ⟨hlt, hor.resolve_left (not_le.2 hlt)⟩, fun ⟨hlt, hnil⟩ => ⟨hlt, Or.inr hnil⟩⟩

theorem auditCoverage_covers (response : Response N) (expectedCount : Int) : Covers response expectedCount ↔
    ∀ i : Nat, (i : Int) < expectedCount → Folds (occurrences response.store response.triplets i) := by
  have hstart : Follows response.store expectedCount [] ⟨response.store, fun _ => none⟩ := follows_start
  rcases audit_run response.inside hstart with
    ⟨s, hrun, hfollows⟩ | ⟨hrun, i, t, rest, hi, hocc, hfails⟩
  · rw [List.nil_append] at hfollows
    have hout : auditCoverage response expectedCount =
        some (s, (List.range expectedCount.toNat).filter fun i => (s.indexed i).isNone) := by
      rw [auditCoverage, hrun]
      rfl
    constructor
    · rintro ⟨out, missing, heq, -, -, hpresent, hflatten⟩ i hi
      obtain ⟨rfl, rfl⟩ := Prod.mk.inj (Option.some.inj (hout.symm.trans heq))
      cases hocc : occurrences response.store response.triplets i with
      | nil => trivial
      | cons t rest =>
        obtain ⟨a, ha⟩ := Option.isSome_iff_exists.1 ((hpresent i).2 ⟨hi, by rw [hocc]; exact List.cons_ne_nil _ _⟩)
        obtain ⟨m, hm, -, hfacts⟩ := hflatten i a ha
        obtain ⟨t', rest', m', hocc', hfold, hm'⟩ := hfollows.folded i a ha
        obtain ⟨rfl, rfl⟩ := List.cons.inj (hocc.symm.trans hocc')
        obtain rfl := Option.some.inj (hm.symm.trans hm')
        rw [hocc] at hfacts
        exact folds_iff.2 ⟨by rw [hfold]; rfl, (flatten_merged_iff hfold).1 hfacts⟩
    · intro hfolds
      refine ⟨s, _, hout, hfollows.kept, ⟨List.pairwise_lt_range.filter _, hfollows.missing⟩, fun i => ?_, ?_⟩
      · rw [Option.isSome_iff_ne_none, Ne, hfollows.absent, not_or, not_le]
      · intro i a ha
        obtain ⟨t, rest, m, hocc, hfold, hm⟩ := hfollows.folded i a ha
        have hi := hfolds i (hfollows.expected_of_some ha)
        rw [hocc] at hi
        refine ⟨m, hm, ?_, ?_⟩
        · obtain ⟨facts, -, rfl⟩ := merge_foldlM hfold
          have hfirst : t ∈ occurrences response.store response.triplets i := hocc ▸ List.mem_cons_self
          exact (recordIndex_of_mem hfirst :)
        · rw [hocc]
          exact (flatten_merged_iff hfold).2 (folds_iff.1 hi).2
  · refine iff_of_false ?_ fun hfolds => ?_
    · rintro ⟨out, missing, heq, -⟩
      rw [auditCoverage, hrun] at heq
      cases heq
    · have hi' := hfolds i hi
      rw [List.nil_append] at hocc
      rw [hocc, folds_iff, hfails] at hi'
      cases hi'.1

end

/-- Rational numbers as the numbers of an answer. -/
def rationals : Numbers where
  S := ℚ
  toConfidence
    | .scalar s => if 0 ≤ s ∧ s ≤ 1 then some s else none
    | _ => none
  toConfidence_self v s h := by
    cases v with
    | scalar s' =>
      have hs := h
      dsimp only at hs
      split at hs
      · cases hs
        exact h
      · cases hs
    | null => cases h
    | str s => cases h
    | list l => cases h
    | dict m => cases h

/-- A name of one letter. -/
def letter (c : Char) (h : isSpace c = false) : Name := ⟨[c], ⟨by simp, by simpa using h, by simpa using h⟩, by simp⟩

/-- A fact without optional parts. -/
def shortFact (tail : Name) : Fact rationals :=
  ⟨letter 'a' rfl, letter 'r' rfl, tail, none, none, none, none, none, none, none, []⟩

def first : Triplet rationals := ⟨shortFact (letter 'b' rfl), 0, []⟩

def second (additional : Obj ℚ) : Triplet rationals := ⟨shortFact (letter 'c' rfl), 0, [additional]⟩

/-- An object with an additional object of its own. -/
def nesting : Obj ℚ :=
  ("additional_triplets".toList, .list [.dict (shortFact (letter 'e' rfl)).dump]) :: (shortFact (letter 'd' rfl)).dump

/-- Two triplets for record 0, the second one with an additional object. -/
def twice (additional : Obj ℚ) : Response rationals where
  store := [first, second additional]
  triplets := [0, 1]
  inside a ha := by
    rw [List.mem_cons, List.mem_singleton] at ha
    rcases ha with rfl | rfl
    · exact Nat.two_pos
    · exact Nat.one_lt_two

/-- An additional object without a head ends the audit, and the additional facts of an additional object are lost. -/
theorem auditCoverage_loses : ¬Covers (twice []) 1 ∧ ¬Covers (twice nesting) 1 := by
  constructor
  · rintro ⟨out, missing, heq, -⟩
    have hnone : auditCoverage (twice []) 1 = none := rfl
    rw [hnone] at heq
    cases heq
  · rintro ⟨out, missing, heq, -, -, -, hflatten⟩
    cases heq
    obtain ⟨t, ht, -, hfacts⟩ := hflatten 0 2 rfl
    have hfold : [second nesting].foldlM Triplet.merge first = some t := ht
    have hvalid : validate nesting = some (shortFact (letter 'd' rfl), [(shortFact (letter 'e' rfl)).dump]) := rfl
    rcases (flatten_merged_iff hfold).1 hfacts _ List.mem_cons_self nesting List.mem_cons_self with hnone | ⟨f, halone⟩
    · have hflat : first.flatten = some [first.toFact] := rfl
      rw [hflat] at hnone
      cases hnone
    · rw [hvalid] at halone
      cases halone

end Mesa.Consolidation.Coverage
