/-
The texts that the ids of assertions and entities are computed from. Their parts are joined by the
unit separator, which free text may have, and a literal object is told from an entity by its prefix.
-/
import Mesa.Foundation.Joining
import Mesa.Foundation.Rewriting
import Mesa.Ledger.Exec
import Mesa.Rebuild.Payload

namespace Mesa.Ledger

open Mesa.Foundation
open Mesa.Rebuild (isSpace strip)

/-! ## Normal texts -/

/-- What `_normalize_identity_text` takes from the Unicode tables. Folding case makes no separator. -/
structure UnicodeTables where
  nfc : List Char → List Char
  nfkc : List Char → List Char
  casefold : List Char → List Char
  casefold_separator : ∀ t, '\x1f' ∉ t → '\x1f' ∉ casefold t

/-- `str.replace`. -/
def replaceText (old new text : List Char) : List Char :=
  substitute (fun l => if old.isPrefixOf l then some old.length else none) new text

/-- `\s+`. -/
def whitespaceRun (l : List Char) : Option Nat :=
  let run := (l.takeWhile isSpace).length
  if run = 0 then none else some run

/-- `_normalize_identity_text`. -/
def normalizeIdentityText (U : UnicodeTables) (value : List Char) : List Char :=
  if value = [] then []
  else
    let normalized := U.nfc value
    let cleaned := replaceText ['i', '\u0307'] ['i'] (replaceText ['\u0131'] ['\u0131']
      (replaceText ['\u0130'] ['i'] (replaceText ['I'] ['\u0131'] (replaceText ['\u0130'] ['i'] normalized))))
    U.casefold (substitute whitespaceRun [' '] (strip (U.nfkc cleaned)))

/-- The environment normalises as the source does, and `str.upper` makes neither a separator nor a
small letter. -/
structure Env.Normalizes (env : Env) (U : UnicodeTables) : Prop where
  identityText : ∀ s, env.normalizeIdentityText s = String.ofList (Ledger.normalizeIdentityText U s.toList)
  upper_separator : ∀ s, '\x1f' ∉ s.toList → '\x1f' ∉ (env.upper s).toList
  upper_letters : ∀ s, ∀ c ∈ (env.upper s).toList, c.isLower = false

/-! ## Assertions -/

/-- The arguments of `v4_assertion_id`. -/
structure AssertionKey where
  tenantId : String
  datasetId : String
  revisionId : String
  chunkId : String
  subjectId : String
  predicate : String
  objectEntityId : Option String
  literalValue : Option String
  evidenceSpan : String
  deriving DecidableEq

def AssertionKey.id (env : Env) (k : AssertionKey) : Except DaoError String :=
  v4AssertionId env k.tenantId k.datasetId k.revisionId k.chunkId k.subjectId k.predicate k.objectEntityId
    k.literalValue k.evidenceSpan

def AssertionKey.required (k : AssertionKey) : List String :=
  [k.tenantId, k.datasetId, k.revisionId, k.chunkId, k.subjectId, k.predicate]

/-- The object as the id has it. -/
def AssertionKey.object (k : AssertionKey) : String :=
  (k.objectEntityId.filter (· ≠ "")).getD ("literal:" ++ k.literalValue.getD "None")

def AssertionKey.parts (k : AssertionKey) : List String :=
  [k.tenantId, k.datasetId, k.revisionId, k.chunkId, k.subjectId, k.predicate, k.object, k.evidenceSpan]

/-- No separator inside of a part can stand for a join, and the object is an entity whose id is neither
empty nor the text of a literal. -/
structure AssertionKey.Distinctive (k : AssertionKey) : Prop where
  firm : Firm '\x1f' (k.parts.map String.toList)
  entity : ∃ e, k.objectEntityId = some e ∧ e ≠ "" ∧ ¬ "literal:".toList <+: e.toList

/-! ## Entities -/

/-- The arguments of `v4_entity_id`. -/
structure EntityKey where
  tenantId : String
  entityName : String
  entityType : String
  ontologyUri : Option String

def EntityKey.id (env : Env) (k : EntityKey) : Except DaoError String :=
  v4EntityId env k.tenantId k.entityName k.entityType k.ontologyUri

def EntityKey.normalType (env : Env) (k : EntityKey) : String := env.upper (env.normalizeIdentityText k.entityType)

/-- The ontology URI or the name, normalised. -/
def EntityKey.identity (env : Env) (k : EntityKey) : String ⊕ String :=
  match k.ontologyUri with
  | some uri => .inl (env.normalizeOntologyUri uri)
  | none => .inr (env.normalizeIdentityText k.entityName)

/-- The identity as the id has it. -/
def EntityKey.identityKey (env : Env) (k : EntityKey) : String :=
  (k.identity env).elim ("ontology:" ++ ·) ("name:" ++ ·)

/-- The key as far as it identifies an entity. -/
def EntityKey.normal (env : Env) (k : EntityKey) : String × String × (String ⊕ String) :=
  (k.tenantId, k.normalType env, k.identity env)

/-- The tenant of the second key is the tenant, the type and a beginning of the identity of the first one,
which goes on with the type and the identity of the second. -/
def EntityKey.Continued (env : Env) (k k' : EntityKey) : Prop :=
  ∃ a, k'.tenantId = joinIdentity [k.tenantId, k.normalType env, a] ∧
    k.identityKey env = joinIdentity [a, k'.normalType env, k'.identityKey env]

/-! ## Normal types -/

theorem mem_spaced : ∀ {skip : Nat} {l : List Char} {c : Char}, c ∈ substituteFrom whitespaceRun [' '] skip l →
    c = ' ' ∨ isSpace c = false
  | _, [], _, h => absurd h List.not_mem_nil
  | skip + 1, d :: l, c, h => mem_spaced (show c ∈ substituteFrom whitespaceRun [' '] skip l from h)
  | 0, d :: l, c, h => by
    rw [substituteFrom] at h
    split at h
    · next n _ =>
      rcases List.mem_append.1 h with h | h
      · exact .inl (List.mem_singleton.1 h)
      · exact mem_spaced h
    · next hnone =>
      rcases List.mem_cons.1 h with rfl | h
      · refine .inr (Bool.eq_false_iff.2 fun hspace => ?_)
        refine hnone (l.takeWhile isSpace).length ?_
        rw [whitespaceRun, List.takeWhile_cons, if_pos hspace]
        rfl
      · exact mem_spaced h

theorem separator_normalizeIdentityText (U : UnicodeTables) (value : List Char) :
    '\x1f' ∉ normalizeIdentityText U value := by
  unfold normalizeIdentityText
  split
  · exact List.not_mem_nil
  · refine U.casefold_separator _ fun h => ?_
    rcases mem_spaced h with h | h <;> exact absurd h (by decide)

theorem separator_normalType {env : Env} {U : UnicodeTables} (h : env.Normalizes U) (k : EntityKey) :
    '\x1f' ∉ (k.normalType env).toList := by
  refine h.upper_separator _ ?_
  rw [h.identityText, String.toList_ofList]
  exact separator_normalizeIdentityText U _

/-! ## Assertions -/

theorem toList_joinIdentity (parts : List String) :
    (joinIdentity parts).toList = ['\x1f'].intercalate (parts.map String.toList) :=
  String.toList_intercalate

theorem AssertionKey.id_eq_ok {env : Env} {k : AssertionKey} {i : String} : k.id env = .ok i ↔
    "" ∉ k.required ∧ k.objectEntityId.isSome ≠ k.literalValue.isSome ∧
      i = env.uuid5 "assertion" (joinIdentity k.parts) := by
  unfold AssertionKey.id v4AssertionId
  split
  · next h =>
    refine iff_of_false (fun hok => by cases hok) ?_
    rintro ⟨hrequired, hobject, -⟩
    exact h.elim hrequired hobject
  · next h =>
    obtain ⟨hrequired, hobject⟩ := not_or.1 h
    rw [Except.ok.injEq]
    exact ⟨fun heq => ⟨hrequired, hobject, heq.symm⟩, fun hid => hid.2.2.symm⟩

theorem AssertionKey.object_ne_empty (k : AssertionKey) : k.object ≠ "" := by
  unfold AssertionKey.object
  intro h
  cases hentity : k.objectEntityId.filter (· ≠ "") with
  | some e =>
    rw [hentity, Option.getD_some] at h
    simpa [h] using (Option.filter_eq_some_iff.1 hentity).2
  | none =>
    rw [hentity, Option.getD_none] at h
    have := congrArg String.length h
    rw [String.length_append] at this
    exact absurd this (by simp)

theorem AssertionKey.filled {k : AssertionKey} (h : "" ∉ k.required) : Filled (k.parts.map String.toList) := by
  have hpart : ∀ s ∈ k.required, s.toList ≠ [] := by
    rintro s hs hnil
    rw [String.toList_eq_nil_iff] at hnil
    exact h (hnil ▸ hs)
  have hobject : k.object.toList ≠ [] := fun hnil => k.object_ne_empty (String.toList_eq_nil_iff.1 hnil)
  simp only [AssertionKey.required, List.forall_mem_cons] at hpart
  obtain ⟨h₁, h₂, h₃, h₄, h₅, h₆, -⟩ := hpart
  exact ⟨h₁, h₂, h₃, h₄, h₅, h₆, hobject, trivial⟩

/-- Keys with the same parts differ at most in how they name the object. -/
theorem AssertionKey.eq_of_parts {k k' : AssertionKey} (h : k.parts = k'.parts)
    (hentity : k.objectEntityId = k'.objectEntityId) (hliteral : k.literalValue = k'.literalValue) : k = k' := by
  obtain ⟨_, _, _, _, _, _, _, _, _⟩ := k
  obtain ⟨_, _, _, _, _, _, _, _, _⟩ := k'
  simp only [AssertionKey.parts, List.cons.injEq, and_true] at h
  obtain ⟨rfl, rfl, rfl, rfl, rfl, rfl, -, rfl⟩ := h
  obtain rfl : _ = _ := hentity
  obtain rfl : _ = _ := hliteral
  rfl

theorem map_toList_injective {l m : List String} (h : l.map String.toList = m.map String.toList) : l = m :=
  List.map_injective_iff.2 (fun _ _ => String.toList_inj.1) h

/-- An accepted key that is distinctive is the only one with its parts. -/
theorem AssertionKey.Distinctive.unique {k k' : AssertionKey} (h : k.Distinctive)
    (hk : k.objectEntityId.isSome ≠ k.literalValue.isSome) (hrequired : "" ∉ k'.required)
    (hk' : k'.objectEntityId.isSome ≠ k'.literalValue.isSome) (hjoin : joinIdentity k'.parts = joinIdentity k.parts) :
    k' = k := by
  have hparts : k.parts = k'.parts := by
    refine map_toList_injective (h.firm.unique (AssertionKey.filled hrequired) rfl ?_)
    rw [← toList_joinIdentity, ← toList_joinIdentity, hjoin]
  obtain ⟨e, he, hne, hprefix⟩ := h.entity
  have hliteral : k.literalValue = none := by
    rw [he] at hk
    simpa using hk
  have hobject : k'.object = e := by
    have hsame : k.object = k'.object := by
      simp only [AssertionKey.parts, List.cons.injEq] at hparts
      exact hparts.2.2.2.2.2.2.1
    rw [← hsame, AssertionKey.object, he, Option.filter_some, if_pos (by simpa using hne)]
    rfl
  have hname : ∃ e', k'.objectEntityId = some e' ∧ e' ≠ "" := by
    by_contra hnone
    refine hprefix ?_
    rw [← hobject, AssertionKey.object]
    have hfilter : k'.objectEntityId.filter (· ≠ "") = none := by
      rw [Option.filter_eq_none_iff]
      intro e' he'
      have : ¬ e' ≠ "" := fun hne' => hnone ⟨e', he', hne'⟩
      simpa using this
    rw [hfilter, Option.getD_none, String.toList_append]
    exact List.prefix_append _ _
  obtain ⟨e', he', hne'⟩ := hname
  rw [AssertionKey.object, he', Option.filter_some, if_pos (by simpa using hne')] at hobject
  obtain rfl : e' = e := hobject
  have hliteral' : k'.literalValue = none := by
    rw [he'] at hk'
    simpa using hk'
  exact (AssertionKey.eq_of_parts hparts (by rw [he, he']) (by rw [hliteral, hliteral'])).symm

/-- A key whose object is an entity. -/
def AssertionKey.ofParts (tenantId datasetId revisionId chunkId subjectId predicate object evidenceSpan : List Char) :
    AssertionKey where
  tenantId := String.ofList tenantId
  datasetId := String.ofList datasetId
  revisionId := String.ofList revisionId
  chunkId := String.ofList chunkId
  subjectId := String.ofList subjectId
  predicate := String.ofList predicate
  objectEntityId := some (String.ofList object)
  literalValue := none
  evidenceSpan := String.ofList evidenceSpan

theorem ofList_ne_empty {l : List Char} (h : l ≠ []) : String.ofList l ≠ "" := fun heq =>
  h (by rw [← String.toList_ofList (l := l), heq]; rfl)

/-- Filled parts are those of a key. -/
theorem AssertionKey.exists_of_parts {qs : List (List Char)} (hlen : qs.length = 8) (hfilled : Filled qs) :
    ∃ k : AssertionKey, "" ∉ k.required ∧ k.objectEntityId.isSome ≠ k.literalValue.isSome ∧
      k.parts.map String.toList = qs := by
  obtain ⟨a, qs, rfl⟩ := List.exists_cons_of_length_eq_add_one hlen
  obtain ⟨b, qs, rfl⟩ := List.exists_cons_of_length_eq_add_one (Nat.succ.inj hlen)
  obtain ⟨c, qs, rfl⟩ := List.exists_cons_of_length_eq_add_one (Nat.succ.inj (Nat.succ.inj hlen))
  simp only [List.length_cons, Nat.reduceEqDiff] at hlen
  obtain ⟨d, qs, rfl⟩ := List.exists_cons_of_length_eq_add_one hlen
  obtain ⟨e, qs, rfl⟩ := List.exists_cons_of_length_eq_add_one (Nat.succ.inj hlen)
  obtain ⟨f, qs, rfl⟩ := List.exists_cons_of_length_eq_add_one (Nat.succ.inj (Nat.succ.inj hlen))
  simp only [List.length_cons, Nat.reduceEqDiff] at hlen
  obtain ⟨g, z, rfl⟩ := List.length_eq_two.1 hlen
  obtain ⟨ha, hb, hc, hd, he, hf, hg, -⟩ := hfilled
  refine ⟨.ofParts a b c d e f g z, ?_, by simp [AssertionKey.ofParts], ?_⟩
  · simp only [AssertionKey.required, AssertionKey.ofParts, List.mem_cons, List.not_mem_nil, or_false, not_or]
    exact ⟨(ofList_ne_empty ha).symm, (ofList_ne_empty hb).symm, (ofList_ne_empty hc).symm, (ofList_ne_empty hd).symm,
      (ofList_ne_empty he).symm, (ofList_ne_empty hf).symm⟩
  · have hobject : (AssertionKey.ofParts a b c d e f g z).object = String.ofList g := by
      rw [AssertionKey.object, AssertionKey.ofParts, Option.filter_some, if_pos (by simpa using ofList_ne_empty hg)]
      rfl
    rw [AssertionKey.parts, hobject]
    simp [AssertionKey.ofParts]

/-- A key that is not distinctive has the parts of another one, or parts that join to the same. -/
theorem AssertionKey.exists_other {k : AssertionKey} (hrequired : "" ∉ k.required)
    (hk : k.objectEntityId.isSome ≠ k.literalValue.isSome) (h : ¬ k.Distinctive) :
    ∃ k' : AssertionKey, k' ≠ k ∧ "" ∉ k'.required ∧ k'.objectEntityId.isSome ≠ k'.literalValue.isSome ∧
      joinIdentity k'.parts = joinIdentity k.parts := by
  by_cases hfirm : Firm '\x1f' (k.parts.map String.toList)
  · -- the object is told from no other kind of object
    cases hentity : k.objectEntityId with
    | none =>
      obtain ⟨x, hx⟩ : ∃ x, k.literalValue = some x := by
        rw [hentity] at hk
        exact Option.ne_none_iff_exists'.1 (by simpa using hk.symm)
      refine ⟨{ k with objectEntityId := some ("literal:" ++ x), literalValue := none }, fun heq => ?_, hrequired,
        by simp, ?_⟩
      · have := congrArg AssertionKey.objectEntityId heq
        rw [hentity] at this
        cases this
      · have hne : "literal:" ++ x ≠ "" := fun hnil => by simp at hnil
        have hobject : ({ k with objectEntityId := some ("literal:" ++ x), literalValue := none } : AssertionKey).object =
            k.object := by
          rw [AssertionKey.object, AssertionKey.object, Option.filter_some, if_pos (decide_eq_true hne), hentity, hx]
          rfl
        rw [AssertionKey.parts, AssertionKey.parts, hobject]
    | some e =>
      have hliteral : k.literalValue = none := by
        rw [hentity] at hk
        simpa using hk
      have hfound : ∃ x, k.object = "literal:" ++ x := by
        by_cases hne : e = ""
        · exact ⟨"None", by rw [AssertionKey.object, hentity, hne, hliteral]; rfl⟩
        · have hprefix : "literal:".toList <+: e.toList := by
            by_contra hprefix
            exact h ⟨hfirm, e, hentity, hne, hprefix⟩
          obtain ⟨x, hx⟩ := hprefix
          refine ⟨String.ofList x, ?_⟩
          rw [AssertionKey.object, hentity, Option.filter_some, if_pos (by simpa using hne), Option.getD_some,
            ← String.toList_inj, String.toList_append, ← hx, String.toList_ofList (l := x)]
      obtain ⟨x, hx⟩ := hfound
      refine ⟨{ k with objectEntityId := none, literalValue := some x }, fun heq => ?_, hrequired, by simp, ?_⟩
      · have := congrArg AssertionKey.objectEntityId heq
        rw [hentity] at this
        cases this
      · rw [AssertionKey.parts, AssertionKey.parts, hx]
        rfl
  · obtain ⟨qs, hqs⟩ := exists_shifted (AssertionKey.filled hrequired) hfirm
    obtain ⟨k', hrequired', hk', hparts⟩ := AssertionKey.exists_of_parts hqs.length hqs.filled
    refine ⟨k', fun heq => hqs.ne ?_, hrequired', hk', ?_⟩
    · rw [← hparts, heq]
      rfl
    · rw [← String.toList_inj, toList_joinIdentity, toList_joinIdentity, hparts]
      exact hqs.join

/-- An accepted key has an id of its own exactly if it is distinctive. -/
theorem AssertionKey.own_id_iff {env : Env} (huuid : ∀ a b, env.uuid5 "assertion" a = env.uuid5 "assertion" b → a = b)
    {k : AssertionKey} {i : String} (hk : k.id env = .ok i) :
    (∀ k' : AssertionKey, k'.id env = .ok i → k' = k) ↔ k.Distinctive := by
  obtain ⟨hrequired, hobject, rfl⟩ := AssertionKey.id_eq_ok.1 hk
  constructor
  · intro hown
    by_contra h
    obtain ⟨k', hne, hrequired', hobject', hjoin⟩ := AssertionKey.exists_other hrequired hobject h
    exact hne (hown k' (AssertionKey.id_eq_ok.2 ⟨hrequired', hobject', by rw [hjoin]⟩))
  · intro h k' hk'
    obtain ⟨hrequired', hobject', hid⟩ := AssertionKey.id_eq_ok.1 hk'
    exact h.unique hobject hrequired' hobject' (huuid _ _ hid).symm

/-! ## Entities -/

theorem EntityKey.id_eq_ok {env : Env} {k : EntityKey} {i : String} (h : k.id env = .ok i) :
    i = env.uuid5 "entity" (joinIdentity [k.tenantId, k.normalType env, k.identityKey env]) := by
  unfold EntityKey.id v4EntityId at h
  split at h
  · cases h
  · rw [Except.ok.injEq] at h
    rw [← h]
    unfold EntityKey.identityKey EntityKey.identity EntityKey.normalType
    cases k.ontologyUri <;> rfl

theorem toList_joinIdentity_three (a b c : String) :
    (joinIdentity [a, b, c]).toList = a.toList ++ '\x1f' :: (b.toList ++ '\x1f' :: c.toList) := by
  rw [toList_joinIdentity]
  simp

theorem EntityKey.identity_of_identityKey {env : Env} {k k' : EntityKey} (h : k.identityKey env = k'.identityKey env) :
    k.identity env = k'.identity env := by
  unfold EntityKey.identityKey at h
  have hkinds : ∀ u n : String, "ontology:" ++ u ≠ "name:" ++ n := by
    intro u n heq
    have := congrArg String.toList heq
    rw [String.toList_append, String.toList_append] at this
    simp at this
  cases hk : k.identity env <;> cases hk' : k'.identity env <;> rw [hk, hk'] at h
  · exact congrArg Sum.inl ((String.append_right_inj _).1 h)
  · exact absurd h (hkinds _ _)
  · exact absurd h.symm (hkinds _ _)
  · exact congrArg Sum.inr ((String.append_right_inj _).1 h)

theorem EntityKey.identityKey_head (env : Env) (k : EntityKey) : ∃ c rest, (k.identityKey env).toList = c :: rest ∧
    c.isLower = true := by
  unfold EntityKey.identityKey
  cases k.identity env with
  | inl u => exact ⟨'o', _, by rw [Sum.elim_inl, String.toList_append]; rfl, rfl⟩
  | inr n => exact ⟨'n', _, by rw [Sum.elim_inr, String.toList_append]; rfl, rfl⟩

/-- A tenant that goes on after the other one takes in its type and a beginning of its identity. -/
theorem EntityKey.continued_of_later {env : Env} {U : UnicodeTables} (h : env.Normalizes U) {k k' : EntityKey}
    {w : List Char} (htenant : k'.tenantId.toList = k.tenantId.toList ++ '\x1f' :: w)
    (hrest : (k.normalType env).toList ++ '\x1f' :: (k.identityKey env).toList =
      w ++ '\x1f' :: ((k'.normalType env).toList ++ '\x1f' :: (k'.identityKey env).toList)) : k.Continued env k' := by
  rcases cut_cases hrest with ⟨hsame, hidentity⟩ | ⟨a, hw, hidentity⟩ | ⟨a, htype, -⟩
  · -- an identity starts with a small letter, and a type has none
    obtain ⟨c, rest, hhead, hlower⟩ := k.identityKey_head env
    rw [hhead] at hidentity
    cases htype : (k'.normalType env).toList with
    | nil =>
      rw [htype] at hidentity
      cases hidentity
      cases hlower
    | cons d t =>
      rw [htype, List.cons_append, List.cons_eq_cons] at hidentity
      have hupper := h.upper_letters (env.normalizeIdentityText k'.entityType) d
        (by rw [show env.upper _ = k'.normalType env from rfl, htype]; exact List.mem_cons_self)
      rw [← hidentity.1, hlower] at hupper
      cases hupper
  · refine ⟨String.ofList a, ?_, ?_⟩
    · rw [← String.toList_inj, toList_joinIdentity_three, htenant, hw, String.toList_ofList]
    · rw [← String.toList_inj, toList_joinIdentity_three, hidentity, String.toList_ofList]
  · exact absurd (by rw [htype]; simp) (separator_normalType h k)

/-- Two accepted keys with one id have one normal form, unless the tenant of one continues the other. -/
theorem EntityKey.same_id_iff {env : Env} {U : UnicodeTables} (h : env.Normalizes U)
    (huuid : ∀ a b, env.uuid5 "entity" a = env.uuid5 "entity" b → a = b) {k k' : EntityKey} {i i' : String}
    (hk : k.id env = .ok i) (hk' : k'.id env = .ok i') :
    (i = i' → k.normal env = k'.normal env) ↔ ¬ k.Continued env k' ∧ ¬ k'.Continued env k := by
  have hcontinued : ∀ {k k' : EntityKey}, k.Continued env k' →
      joinIdentity [k.tenantId, k.normalType env, k.identityKey env] =
        joinIdentity [k'.tenantId, k'.normalType env, k'.identityKey env] ∧ k.tenantId ≠ k'.tenantId := by
    rintro k k' ⟨a, htenant, hidentity⟩
    refine ⟨?_, fun heq => ?_⟩
    · rw [← String.toList_inj, toList_joinIdentity_three, toList_joinIdentity_three, htenant, hidentity,
        toList_joinIdentity_three, toList_joinIdentity_three]
      simp
    · have := congrArg (List.length ∘ String.toList) (heq.trans htenant)
      simp only [Function.comp_apply, toList_joinIdentity_three, List.length_append, List.length_cons] at this
      omega
  rw [EntityKey.id_eq_ok hk, EntityKey.id_eq_ok hk']
  constructor
  · refine fun hsame => ⟨fun hc => ?_, fun hc => ?_⟩
    · obtain ⟨hjoin, hne⟩ := hcontinued hc
      exact hne (congrArg Prod.fst (hsame (by rw [hjoin])))
    · obtain ⟨hjoin, hne⟩ := hcontinued hc
      exact hne (congrArg Prod.fst (hsame (by rw [hjoin]))).symm
  · rintro ⟨hnot, hnot'⟩ hid
    have hjoin := congrArg String.toList (huuid _ _ hid)
    rw [toList_joinIdentity_three, toList_joinIdentity_three] at hjoin
    rcases cut_cases hjoin with ⟨htenant, hrest⟩ | ⟨w, htenant, hrest⟩ | ⟨w, htenant, hrest⟩
    · rcases cut_cases hrest with ⟨htype, hidentity⟩ | ⟨w, htype, -⟩ | ⟨w, htype, -⟩
      · unfold EntityKey.normal
        rw [String.toList_inj.1 htenant, String.toList_inj.1 htype,
          EntityKey.identity_of_identityKey (String.toList_inj.1 hidentity)]
      · exact absurd (by rw [htype]; simp) (separator_normalType h k')
      · exact absurd (by rw [htype]; simp) (separator_normalType h k)
    · exact absurd (EntityKey.continued_of_later h htenant hrest) hnot
    · exact absurd (EntityKey.continued_of_later h htenant hrest) hnot'

/-! ## Both ids -/

/-- An assertion has an id of its own exactly if its key is distinctive, and two entities with one id have
one normal form exactly if neither tenant continues the other. -/
theorem identities_distinct_iff {env : Env} {U : UnicodeTables} (h : env.Normalizes U)
    (huuid : ∀ ns a b, env.uuid5 ns a = env.uuid5 ns b → a = b) :
    (∀ (k : AssertionKey) (i : String), k.id env = .ok i →
      ((∀ k' : AssertionKey, k'.id env = .ok i → k' = k) ↔ k.Distinctive)) ∧
    ∀ (k k' : EntityKey) (i i' : String), k.id env = .ok i → k'.id env = .ok i' →
      ((i = i' → k.normal env = k'.normal env) ↔ ¬ k.Continued env k' ∧ ¬ k'.Continued env k) :=
  ⟨fun _ _ hk => AssertionKey.own_id_iff (huuid "assertion") hk,
    fun _ _ _ _ hk hk' => EntityKey.same_id_iff h (huuid "entity") hk hk'⟩

/-- No other character has the separator as its small letter. -/
theorem separator_toLower {c : Char} (h : c.toLower = '\x1f') : c = '\x1f' := by
  unfold Char.toLower at h
  split at h
  · next hupper =>
    have hvalue := congrArg (fun d : Char => d.val.toNat) h
    have hlow := UInt32.le_iff_toNat_le.1 hupper.1
    have hhigh := UInt32.le_iff_toNat_le.1 hupper.2
    have hfirst : 'A'.val.toNat = 65 := rfl
    have hlast : 'Z'.val.toNat = 90 := rfl
    have hshift : ('a'.val - 'A'.val).toNat = 32 := rfl
    have hseparator : '\x1f'.val.toNat = 31 := rfl
    simp only [UInt32.toNat_add] at hvalue
    omega
  · exact h

/-- And none as its capital letter. -/
theorem separator_toUpper {c : Char} (h : c.toUpper = '\x1f') : c = '\x1f' := by
  unfold Char.toUpper at h
  split at h
  · next hlower =>
    have hvalue := congrArg (fun d : Char => d.val.toNat) h
    have hlow := UInt32.le_iff_toNat_le.1 hlower.1
    have hhigh := UInt32.le_iff_toNat_le.1 hlower.2
    have hfirst : 'a'.val.toNat = 97 := rfl
    have hlast : 'z'.val.toNat = 122 := rfl
    have hshift : ('A'.val - 'a'.val).toNat = 4294967264 := rfl
    have hseparator : '\x1f'.val.toNat = 31 := rfl
    simp only [UInt32.toNat_add] at hvalue
    omega
  · exact h

theorem isLower_toUpper (c : Char) : c.toUpper.isLower = false := by
  unfold Char.toUpper
  split
  · next hlower =>
    have hlow := UInt32.le_iff_toNat_le.1 hlower.1
    have hhigh := UInt32.le_iff_toNat_le.1 hlower.2
    have hfirst : 'a'.val.toNat = 97 := rfl
    have hlast : 'z'.val.toNat = 122 := rfl
    have hshift : ('A'.val - 'a'.val).toNat = 4294967264 := rfl
    refine Bool.and_eq_false_iff.2 (.inl (decide_eq_false ?_))
    rw [ge_iff_le, UInt32.le_iff_toNat_le, UInt32.toNat_add]
    omega
  · next hlower =>
    refine Bool.and_eq_false_iff.2 (by_contra fun h => hlower ?_)
    simpa only [not_or, Bool.not_eq_false, decide_eq_true_eq] using h

/-- Tables that fold ASCII letters. -/
def asciiTables : UnicodeTables where
  nfc t := t
  nfkc t := t
  casefold t := t.map Char.toLower
  casefold_separator t ht h := by
    obtain ⟨c, hc, hlower⟩ := List.mem_map.1 h
    exact ht (separator_toLower hlower ▸ hc)

/-- The sample environment with these tables; a uuid5 names its namespace by its length first. -/
def asciiEnv : Env :=
  { sampleEnv with
    uuid5 := fun ns name => String.ofList (List.replicate ns.length '0' ++ '1' :: name.toList)
    upper := fun s => String.ofList (s.toList.map Char.toUpper)
    normalizeIdentityText := fun s => String.ofList (normalizeIdentityText asciiTables s.toList) }

theorem asciiEnv_normalizes : asciiEnv.Normalizes asciiTables where
  identityText _ := rfl
  upper_separator s hs h := by
    rw [asciiEnv, String.toList_ofList] at h
    obtain ⟨c, hc, hupper⟩ := List.mem_map.1 h
    exact hs (separator_toUpper hupper ▸ hc)
  upper_letters s c hc := by
    rw [asciiEnv, String.toList_ofList] at hc
    obtain ⟨d, -, rfl⟩ := List.mem_map.1 hc
    exact isLower_toUpper d

/-- A literal with a separator, and the literal and the evidence that it is cut into. -/
def spilledKey (literal evidence : String) : AssertionKey :=
  ⟨"t", "d", "r", "c", "s", "p", none, some literal, evidence⟩

theorem identities_distinct_ascii :
    ((∀ (k : AssertionKey) (i : String), k.id asciiEnv = .ok i →
      ((∀ k' : AssertionKey, k'.id asciiEnv = .ok i → k' = k) ↔ k.Distinctive)) ∧
    ∀ (k k' : EntityKey) (i i' : String), k.id asciiEnv = .ok i → k'.id asciiEnv = .ok i' →
      ((i = i' → k.normal asciiEnv = k'.normal asciiEnv) ↔ ¬ k.Continued asciiEnv k' ∧ ¬ k'.Continued asciiEnv k)) ∧
    ∃ i, (spilledKey "x" "y").id asciiEnv = .ok i := by
  refine ⟨identities_distinct_iff asciiEnv_normalizes fun ns a b h => ?_, _, rfl⟩
  have hlists := congrArg String.toList h
  rw [asciiEnv, String.toList_ofList, String.toList_ofList, List.append_cancel_left_eq, List.cons_eq_cons] at hlists
  exact String.toList_inj.1 hlists.2

/-- Two assertions with one id: what one has as the end of its literal the other has in its evidence. -/
theorem spilled_same_id : spilledKey "x\x1fy" "e" ≠ spilledKey "x" "y\x1fe" ∧
    (spilledKey "x\x1fy" "e").id asciiEnv = (spilledKey "x" "y\x1fe").id asciiEnv ∧
    ∃ i, (spilledKey "x\x1fy" "e").id asciiEnv = .ok i :=
  ⟨by decide, by decide +kernel, _, rfl⟩

end Mesa.Ledger
