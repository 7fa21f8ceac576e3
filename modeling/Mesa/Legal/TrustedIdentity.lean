/-
The canonical form of a legal identity that the runtime owns. The law is named by its number, its code or an alias; the
canonical form names it by number and code, and is its own canonical form.
-/
import Mesa.Foundation.Result
import Mesa.Legal.Statutes

namespace Mesa.Legal

open Mesa.Foundation
open Mesa.Rebuild (isSpace strip strip_strip Text)

/-! ## The function -/

/-- `[A-Za-zÇĞİÖŞÜçğıöşü]`. -/
def isLegalLetter (c : Char) : Bool := c.isAlpha || c ∈ ['Ç', 'Ğ', 'İ', 'Ö', 'Ş', 'Ü', 'ç', 'ğ', 'ı', 'ö', 'ş', 'ü']

/-- The tables with the decimal digits of `\d`, none of which the other classes of the patterns have. -/
structure LegalUnicode extends PlainUnicode where
  isDecimal : Char → Bool
  decimal_digit : ∀ c, c.isDigit = true → isDecimal c = true
  decimal_other : ∀ c, (isSpace c || isLegalLetter c || c = '-') = true → isDecimal c = false

/-- The texts of an identity, `str(value.get(key) or "")`. -/
structure LegalIdentity where
  lawId : Text
  statuteCode : Text
  articleId : Text
  versionId : Text
  paragraphId : Text
  clauseId : Text
  identitySource : Text
  deriving DecidableEq

/-- What is handed over as an identity. -/
inductive IdentityValue
  | missing
  | mapping (fields : LegalIdentity)
  | other

variable (U : LegalUnicode)

/-- `resolve_code`. -/
def resolveCode (reference : Text) : Option Text :=
  if isLawNumber reference then some (((lawIds.find? fun e => decide (e.2 = reference)).map Prod.fst).getD reference)
  else (lookupKey (normalizeTurkish U.toUnicode reference) (aliasToCode U.toPlainUnicode)).filter fun code => code ∈ laws

def madde : Text := ['m', 'a', 'd', 'd', 'e']

/-- The article of `_ARTICLE_PATTERN.fullmatch(reference)`. -/
def articleOf (reference : Text) : Option Text :=
  let l := if madde.isPrefixOf reference then (reference.drop madde.length).dropWhile fun c => c ∈ ['-', ' '] else reference
  let letters := l.dropWhile U.isDecimal
  if l.takeWhile U.isDecimal ≠ [] ∧ letters.length ≤ 1 ∧ letters.all isLegalLetter = true then some l else none

/-- `_LEGAL_COMPONENT_PATTERN.fullmatch(component)`. -/
def isComponent (component : Text) : Bool :=
  1 ≤ component.length && component.length ≤ 128 &&
    component.all fun c => c.isDigit || isLegalLetter c || c ∈ ['.', '_', ':', '/', '-']

def identitySources : List Text := ["catalog".toList, "verified_ingestion".toList]

/-- The loop over the optional components. -/
def checkComponents : List (String × Text) → Except String Unit
  | [] => .ok ()
  | (key, component) :: rest =>
    if component ≠ [] ∧ isComponent component = false then .error ("legal identity " ++ key ++ " is invalid")
    else checkComponents rest

/-- `canonicalize_trusted_legal_identity`. -/
def canonicalizeTrustedLegalIdentity (value : IdentityValue) : Except String (Option LegalIdentity) :=
  match value with
  | .missing => .ok none
  | .other => .error "legal identity must be an object"
  | .mapping fields =>
    let lawRef := strip fields.lawId
    let statuteRef := strip fields.statuteCode
    let articleRef := strip fields.articleId
    if lawRef = [] ∨ articleRef = [] then .error "legal identity requires law_id and article_id"
    else
      match resolveCode U lawRef with
      | none => .error "legal identity law aliases are unknown or inconsistent"
      | some lawCode =>
        let statuteCode := if statuteRef ≠ [] then resolveCode U statuteRef else some lawCode
        if statuteCode ≠ some lawCode then .error "legal identity law aliases are unknown or inconsistent"
        else
          match articleOf U articleRef with
          | none => .error "legal identity article_id is invalid"
          | some article =>
            let source := strip (if fields.identitySource = [] then "catalog".toList else fields.identitySource)
            if source ∉ identitySources then .error "legal identity source is not trusted"
            else
              let normalized : LegalIdentity := {
                lawId := (lookupKey lawCode lawIds).getD lawCode, statuteCode := lawCode, articleId := article
                versionId := strip fields.versionId, paragraphId := strip fields.paragraphId
                clauseId := strip fields.clauseId, identitySource := source }
              (checkComponents [("version_id", normalized.versionId), ("paragraph_id", normalized.paragraphId),
                ("clause_id", normalized.clauseId)]).map fun _ => some normalized

/-! ## What a reference names -/

/-- A reference names a law by its number, by its code, by one of its aliases or a text with the normal form of one, or
by a number that the tables do not have. -/
inductive Denotes : Text → Text → Prop
  | number {law number : Text} (h : (law, number) ∈ lawIds) : Denotes law number
  | code {law : Text} (h : law ∈ laws) : Denotes law law
  | byAlias {law a reference : Text} (hlaw : law ∈ laws) (ha : (a, law) ∈ aliases)
      (h : normalizeTurkish U.toUnicode reference = normalizeTurkish U.toUnicode a) : Denotes law reference
  | unlisted {number : Text} (h : isLawNumber number = true) (hlist : number ∉ lawIds.map Prod.snd) : Denotes number number

/-! ## Resolution -/

section

variable {U}

theorem lawIds_sound : ∀ e ∈ lawIds, e.1 ∈ laws ∧ isLawNumber e.2 = true ∧
    lawIds.find? (fun n => decide (n.2 = e.2)) = some e ∧ lookupKey e.1 lawIds = some e.2 ∧ strip e.2 = e.2 := by
  simp only [lawIds, laws, List.map]
  repeat rw [String.toList_ofList]
  decide

theorem laws_sound : ∀ law ∈ laws, isLawNumber law = false ∧ law ∈ lawIds.map Prod.fst ∧ Plain law ∧ law ≠ [] ∧
    strip law = law := by
  simp only [lawIds, laws, List.map]
  repeat rw [String.toList_ofList]
  decide

theorem aliases_ne_nil : ¬ ∃ e ∈ aliases, e.1 = [] := by
  simp only [aliases, ontology, List.map, List.flatMap_cons, List.flatMap_nil, List.append_nil, List.cons_append,
    List.nil_append]
  repeat rw [String.toList_ofList]
  decide

/-- The normal form of a code is an alias of its law. -/
theorem code_alias : ∀ law ∈ laws, (foldPlain law, law) ∈ aliases := by
  simp only [aliases, ontology, laws, List.map, List.flatMap_cons, List.flatMap_nil, List.append_nil, List.cons_append,
    List.nil_append]
  repeat rw [String.toList_ofList]
  decide

theorem normalizeTurkish_alias {a law : Text} (h : (a, law) ∈ aliases) : normalizeTurkish U.toUnicode a = a := by
  obtain ⟨hplain, hfold⟩ := aliases_sound.2.1 (a, law) h
  exact (normalizeTurkish_plain (U := U.toPlainUnicode) hplain).trans hfold

/-- The aliases are their own normal forms, so the dictionary is the table. -/
theorem aliasToCode_eq (U : PlainUnicode) : aliasToCode U = aliases := by
  have hmap : (aliases.map fun e => (normalizeTurkish U.toUnicode e.1, e.2)) = aliases := by
    refine (List.map_congr_left fun e he => ?_).trans (List.map_id _)
    obtain ⟨hplain, hfold⟩ := aliases_sound.2.1 e he
    rw [normalizeTurkish_plain hplain, hfold]
    rfl
  unfold aliasToCode
  rw [hmap, dictOf_nodup aliases_sound.1]

theorem foldPlain_digit {c : Char} (h : c.isDigit = true) : isPlainSmall c = true ∧ lowerPlain (foldCapital c) = c := by
  have hbounds := Char.isDigit_iff_toNat.1 h
  have hzero : '0'.toNat = 48 := rfl
  have hnine : '9'.toNat = 57 := rfl
  have hne : ∀ d : Char, 57 < d.toNat → c ≠ d := by
    rintro d hd rfl
    omega
  have hupper : c.isUpper = false := by
    rw [Bool.eq_false_iff]
    intro hu
    have : 65 ≤ c.toNat := by
      have hu' : c.val ≥ 'A'.val ∧ c.val ≤ 'Z'.val := of_decide_eq_true hu
      exact UInt32.le_iff_toNat_le.1 hu'.1
    omega
  have hfold : foldCapital c = c := by
    unfold foldCapital
    rw [if_neg (hne 'İ' (by decide)), if_neg (hne 'I' (by decide))]
  refine ⟨?_, ?_⟩
  · unfold isPlainSmall
    rw [h, Bool.or_true, Bool.true_or]
  · have hnone : (turkishCapitals.find? fun p => decide (p.1 = c)) = none := by
      rw [List.find?_eq_none]
      intro p hp hpc
      have hhigh : ∀ p ∈ turkishCapitals, 57 < p.1.toNat := by decide
      exact hne p.1 (hhigh p hp) (of_decide_eq_true hpc).symm
    unfold lowerPlain
    rw [hfold, hupper, if_neg Bool.false_ne_true, hnone]
    rfl

theorem isLawNumber_digits {t : Text} (h : isLawNumber t = true) : ∀ c ∈ t, c.isDigit = true := by
  unfold isLawNumber at h
  rw [Bool.and_eq_true] at h
  exact List.all_eq_true.1 h.2

theorem normalizeTurkish_digits {t : Text} (h : ∀ c ∈ t, c.isDigit = true) : normalizeTurkish U.toUnicode t = t := by
  have hplain : Plain t := fun c hc => by rw [(foldPlain_digit (h c hc)).1, Bool.true_or, Bool.true_or]
  refine (normalizeTurkish_plain (U := U.toPlainUnicode) hplain).trans ?_
  exact (List.map_congr_left fun c hc => (foldPlain_digit (h c hc)).2).trans (List.map_id t)

/-- A reference is resolved to the law that it names. -/
theorem resolveCode_iff {reference law : Text} : resolveCode U reference = some law ↔ Denotes U law reference := by
  unfold resolveCode
  rw [aliasToCode_eq]
  constructor
  · intro h
    split at h
    · next hnumber =>
      cases hfind : lawIds.find? fun e => decide (e.2 = reference) with
      | some e =>
        rw [hfind] at h
        cases h
        have hreference := List.find?_some hfind
        exact of_decide_eq_true hreference ▸ Denotes.number (List.mem_of_find?_eq_some hfind)
      | none =>
        rw [hfind] at h
        cases h
        refine Denotes.unlisted hnumber fun hmem => ?_
        obtain ⟨e, he, heq⟩ := List.mem_map.1 hmem
        exact List.find?_eq_none.1 hfind e he (decide_eq_true heq)
    · obtain ⟨hlookup, hlaw⟩ := Option.filter_eq_some_iff.1 h
      have hmem := mem_of_lookupKey hlookup
      exact Denotes.byAlias (of_decide_eq_true hlaw) hmem (normalizeTurkish_alias hmem).symm
  · have hlookup : ∀ {key law : Text}, (key, law) ∈ aliases → law ∈ laws →
        (lookupKey key aliases).filter (fun code => code ∈ laws) = some law := by
      intro key law hkey hlaw
      rw [lookupKey_of_mem aliases_sound.1 hkey, Option.filter_some, if_pos (decide_eq_true hlaw)]
    rintro (hnumber | hlaw | ⟨hlaw, ha, hsame⟩ | ⟨hnumber, hlist⟩)
    · obtain ⟨-, hnumber', hfind, -⟩ := lawIds_sound _ hnumber
      rw [if_pos hnumber', hfind]
      rfl
    · obtain ⟨hnumber, -, hplain, -⟩ := laws_sound _ hlaw
      rw [hnumber, if_neg Bool.false_ne_true, normalizeTurkish_plain (U := U.toPlainUnicode) hplain]
      exact hlookup (code_alias _ hlaw) hlaw
    · rw [normalizeTurkish_alias ha] at hsame
      split
      · next hnumber =>
        rw [normalizeTurkish_digits (isLawNumber_digits hnumber)] at hsame
        subst hsame
        rw [aliases_sound.2.2 _ ha hnumber]
        rfl
      · rw [hsame]
        exact hlookup ha hlaw
    · have hnone : (lawIds.find? fun e => decide (e.2 = reference)) = none := by
        rw [List.find?_eq_none]
        exact fun e he hsame => hlist (List.mem_map.2 ⟨e, he, of_decide_eq_true hsame⟩)
      rw [if_pos hnumber, hnone]
      rfl

/-! ## Articles -/

/-- The letters are none of the spaces and come after the digits. -/
theorem isLegalLetter_bounds {c : Char} (h : isLegalLetter c = true) : isSpace c = false ∧ 65 ≤ c.toNat := by
  unfold isLegalLetter at h
  rw [Bool.or_eq_true] at h
  rcases h with halpha | hturkish
  · have hbounds : 65 ≤ c.toNat ∧ c.toNat ≤ 90 ∨ 97 ≤ c.toNat ∧ c.toNat ≤ 122 := by
      have hcases : (decide ('A'.val ≤ c.val ∧ c.val ≤ 'Z'.val) ||
          decide ('a'.val ≤ c.val) && decide (c.val ≤ 'z'.val)) = true := halpha
      simpa [UInt32.le_iff_toNat_le, ← Char.toNat_val] using hcases
    simp only [isSpace, List.mem_cons, List.not_mem_nil, or_false, decide_eq_false_iff_not]
    omega
  · have hall : ∀ c ∈ ['Ç', 'Ğ', 'İ', 'Ö', 'Ş', 'Ü', 'ç', 'ğ', 'ı', 'ö', 'ş', 'ü'],
        isSpace c = false ∧ 65 ≤ c.toNat := List.all_iff_forall_prop.1 (by decide)
    exact hall c (of_decide_eq_true hturkish)

theorem strip_of_free {t : Text} (h : ∀ c ∈ t, isSpace c = false) : strip t = t := by
  have hleft : t.dropWhile isSpace = t := by
    cases t with
    | nil => rfl
    | cons c t => rw [List.dropWhile_cons, h c List.mem_cons_self, if_neg Bool.false_ne_true]
  have hright : t.rdropWhile isSpace = t := by
    rcases List.eq_nil_or_concat t with rfl | ⟨t, c, rfl⟩
    · rfl
    · rw [List.concat_eq_append] at h ⊢
      have hc := h c (List.mem_append_right t (List.mem_singleton_self c))
      exact List.rdropWhile_concat_neg _ _ _ (by rw [hc]; exact Bool.false_ne_true)
  show (t.dropWhile isSpace).rdropWhile isSpace = t
  rw [hleft, hright]

/-- An article is the article of itself, and has no spaces. -/
theorem articleOf_again {reference article : Text} (h : articleOf U reference = some article) :
    article ≠ [] ∧ strip article = article ∧ articleOf U article = some article := by
  unfold articleOf at h
  dsimp only at h
  generalize (if madde.isPrefixOf reference then (reference.drop madde.length).dropWhile fun c => c ∈ ['-', ' ']
    else reference) = l at h
  split at h
  · next hform =>
    cases h
    obtain ⟨hdigits, hletters⟩ := hform
    have hne : article ≠ [] := by
      rintro rfl
      exact hdigits rfl
    have hmadde : madde.isPrefixOf article = false := by
      obtain ⟨c, l, rfl⟩ := List.exists_cons_of_ne_nil hne
      have hm : U.isDecimal 'm' = false := U.decimal_other 'm' (by decide)
      have hc : c ≠ 'm' := by
        rintro rfl
        rw [List.takeWhile_cons, hm] at hdigits
        exact hdigits rfl
      unfold madde
      rw [List.isPrefixOf, beq_eq_false_iff_ne.2 hc.symm, Bool.false_and]
    refine ⟨hne, strip_of_free fun c hc => ?_, ?_⟩
    · rw [← List.takeWhile_append_dropWhile (p := U.isDecimal) (l := article)] at hc
      rcases List.mem_append.1 hc with hc | hc
      · rw [Bool.eq_false_iff]
        intro hspace
        have hdecimal := List.mem_takeWhile_imp hc
        rw [U.decimal_other c (by rw [hspace, Bool.true_or, Bool.true_or])] at hdecimal
        cases hdecimal
      · exact (isLegalLetter_bounds (List.all_eq_true.1 hletters.2 c hc)).1
    · unfold articleOf
      rw [hmadde, if_neg Bool.false_ne_true]
      exact if_pos ⟨hdigits, hletters⟩
  · cases h

/-! ## The canonical form -/

/-- The canonical form of an identity whose law and article are known. -/
def canonicalForm (fields : LegalIdentity) (law article : Text) : LegalIdentity where
  lawId := (lookupKey law lawIds).getD law
  statuteCode := law
  articleId := article
  versionId := strip fields.versionId
  paragraphId := strip fields.paragraphId
  clauseId := strip fields.clauseId
  identitySource := strip (if fields.identitySource = [] then "catalog".toList else fields.identitySource)

/-- What is checked of the fields besides the law and the article. -/
def Trusted (fields : LegalIdentity) : Prop :=
  strip (if fields.identitySource = [] then "catalog".toList else fields.identitySource) ∈ identitySources ∧
    checkComponents [("version_id", strip fields.versionId), ("paragraph_id", strip fields.paragraphId),
      ("clause_id", strip fields.clauseId)] = .ok ()

/-- What is accepted, and as what. -/
theorem canonicalize_ok_iff {fields r : LegalIdentity} :
    canonicalizeTrustedLegalIdentity U (.mapping fields) = .ok (some r) ↔
      ∃ law article, Denotes U law (strip fields.lawId) ∧ strip fields.lawId ≠ [] ∧ strip fields.articleId ≠ [] ∧
        (strip fields.statuteCode ≠ [] → Denotes U law (strip fields.statuteCode)) ∧
        articleOf U (strip fields.articleId) = some article ∧ Trusted fields ∧ r = canonicalForm fields law article := by
  simp only [← resolveCode_iff]
  unfold canonicalizeTrustedLegalIdentity
  dsimp only
  constructor
  · intro h
    split at h
    · cases h
    · next hrequired =>
      obtain ⟨hlaw, harticle⟩ := not_or.1 hrequired
      split at h
      · cases h
      · next law hresolve =>
        generalize hcode : (if strip fields.statuteCode ≠ [] then resolveCode U (strip fields.statuteCode) else some law) =
          statuteCode at h
        split at h
        · cases h
        · next hstatute =>
          split at h
          · cases h
          · next article hmatch =>
            generalize hstrip : strip (if fields.identitySource = [] then "catalog".toList else fields.identitySource) =
              source at h
            split at h
            · cases h
            · next hsource =>
              obtain ⟨⟨⟩, hcomponents, hr⟩ := map_eq_ok.1 h
              subst hstrip
              refine ⟨law, article, hresolve, hlaw, harticle, fun hne => ?_, hmatch, ⟨not_not.1 hsource, hcomponents⟩,
                (Option.some.inj hr).symm⟩
              rw [if_pos hne] at hcode
              exact hcode.trans (not_not.1 hstatute)
  · rintro ⟨law, article, hresolve, hlaw, harticle, hstatute, hmatch, ⟨hsource, hcomponents⟩, rfl⟩
    have hsame : (if strip fields.statuteCode ≠ [] then resolveCode U (strip fields.statuteCode) else some law) = some law := by
      split
      · next hne => exact hstatute hne
      · rfl
    rw [if_neg (not_or.2 ⟨hlaw, harticle⟩), hresolve]
    dsimp only
    rw [if_neg (not_not.2 hsame), hmatch]
    dsimp only
    rw [if_neg (not_not.2 hsource), hcomponents]
    rfl

theorem Trusted.again {fields : LegalIdentity} (h : Trusted fields) (law article : Text) :
    Trusted (canonicalForm fields law article) := by
  have hne : ∀ t ∈ identitySources, t ≠ [] := by decide
  obtain ⟨hsource, hcomponents⟩ := h
  unfold Trusted canonicalForm
  dsimp only
  rw [if_neg (hne _ hsource), strip_strip, strip_strip, strip_strip, strip_strip]
  exact ⟨hsource, hcomponents⟩

theorem canonicalForm_again {fields : LegalIdentity} (h : Trusted fields) (law article : Text) :
    canonicalForm (canonicalForm fields law article) law article = canonicalForm fields law article := by
  have hne : ∀ t ∈ identitySources, t ≠ [] := by decide
  unfold canonicalForm
  dsimp only
  rw [if_neg (hne _ h.1), strip_strip, strip_strip, strip_strip, strip_strip]

/-- A law has its number in the table, or is a number that the table does not have. -/
theorem canonical_listed {law reference : Text} (h : Denotes U law reference) :
    (law, (lookupKey law lawIds).getD law) ∈ lawIds ∨
      (lookupKey law lawIds).getD law = law ∧ (lookupKey law lawIds).getD law ∉ lawIds.map Prod.snd := by
  cases hlookup : lookupKey law lawIds with
  | some number => exact Or.inl (mem_of_lookupKey hlookup)
  | none =>
    have hnone : law ∉ laws := by
      intro hlaw
      obtain ⟨e, he, rfl⟩ := List.mem_map.1 (laws_sound law hlaw).2.1
      rw [(lawIds_sound e he).2.2.2.1] at hlookup
      cases hlookup
    refine Or.inr ⟨rfl, ?_⟩
    cases h with
    | number h => exact absurd (lawIds_sound _ h).1 hnone
    | code h => exact absurd h hnone
    | byAlias h _ _ => exact absurd h hnone
    | unlisted _ hlist => exact hlist

/-- The number and the code of a law name the same law. -/
theorem canonical_law {law reference : Text} (h : Denotes U law reference) :
    let lawId := (lookupKey law lawIds).getD law
    Denotes U law lawId ∧ Denotes U law law ∧ strip lawId = lawId ∧ strip law = law ∧ lawId ≠ [] ∧ law ≠ [] := by
  have hlisted : ∀ {number : Text}, (law, number) ∈ lawIds → Denotes U law ((lookupKey law lawIds).getD law) ∧
      Denotes U law law ∧ strip ((lookupKey law lawIds).getD law) = (lookupKey law lawIds).getD law ∧ strip law = law ∧
      (lookupKey law lawIds).getD law ≠ [] ∧ law ≠ [] := by
    intro number hmem
    obtain ⟨hlaw, hnumber, -, hlookup, hstrip⟩ := lawIds_sound _ hmem
    obtain ⟨-, -, -, hne, hcode⟩ := laws_sound law hlaw
    rw [hlookup]
    refine ⟨Denotes.number hmem, Denotes.code hlaw, hstrip, hcode, ?_, hne⟩
    rintro hnil
    dsimp only [Option.getD_some] at hnil hnumber
    rw [hnil] at hnumber
    exact absurd hnumber (by decide)
  have hnumbered : law ∈ laws → ∃ number, (law, number) ∈ lawIds := by
    intro hlaw
    obtain ⟨e, he, rfl⟩ := List.mem_map.1 (laws_sound law hlaw).2.1
    exact ⟨e.2, he⟩
  cases h with
  | number h => exact hlisted h
  | code h => exact hlisted (hnumbered h).choose_spec
  | byAlias h _ _ => exact hlisted (hnumbered h).choose_spec
  | unlisted hnumber hlist =>
    have hcode : lookupKey law lawIds = none := by
      unfold lookupKey
      rw [Option.map_eq_none_iff, List.find?_eq_none]
      intro e he hsame
      have hlaw := (lawIds_sound e he).1
      rw [of_decide_eq_true hsame] at hlaw
      rw [(laws_sound law hlaw).1] at hnumber
      cases hnumber
    have hfree : ∀ c ∈ law, isSpace c = false := by
      intro c hc
      rw [Bool.eq_false_iff]
      intro hspace
      have hdecimal := U.decimal_digit c (isLawNumber_digits hnumber c hc)
      rw [U.decimal_other c (by rw [hspace, Bool.true_or, Bool.true_or])] at hdecimal
      cases hdecimal
    have hne : law ≠ [] := by
      rintro rfl
      exact absurd hnumber (by decide)
    dsimp only
    rw [hcode]
    exact ⟨Denotes.unlisted hnumber hlist, Denotes.unlisted hnumber hlist, strip_of_free hfree, strip_of_free hfree, hne, hne⟩

/-- The empty text names no law. -/
theorem denotes_ne_nil {law reference : Text} (h : Denotes U law reference) : reference ≠ [] := by
  rintro rfl
  have hnumber : isLawNumber [] = false := by decide
  rw [← resolveCode_iff, resolveCode, hnumber, if_neg Bool.false_ne_true, aliasToCode_eq] at h
  obtain ⟨hlookup, -⟩ := Option.filter_eq_some_iff.1 h
  have hmem : ∃ e ∈ aliases, e.1 = [] := ⟨_, mem_of_lookupKey hlookup, rfl⟩
  revert hmem
  exact aliases_ne_nil

end

/-- The canonical form is its own canonical form; its number and its code name the same law; and identities that differ
only in how they name a law are treated alike. -/
theorem canonicalize_stable (U : LegalUnicode) :
    (∀ fields r, canonicalizeTrustedLegalIdentity U (.mapping fields) = .ok (some r) →
      canonicalizeTrustedLegalIdentity U (.mapping r) = .ok (some r)) ∧
    (∀ fields r, canonicalizeTrustedLegalIdentity U (.mapping fields) = .ok (some r) →
      Denotes U r.statuteCode r.lawId ∧ Denotes U r.statuteCode r.statuteCode ∧
        ((r.statuteCode, r.lawId) ∈ lawIds ∨ r.lawId = r.statuteCode ∧ r.lawId ∉ lawIds.map Prod.snd)) ∧
    ∀ (law : Text) (fields : LegalIdentity) (lawId statuteCode : Text),
      Denotes U law (strip fields.lawId) → (strip fields.statuteCode = [] ∨ Denotes U law (strip fields.statuteCode)) →
      Denotes U law (strip lawId) → (strip statuteCode = [] ∨ Denotes U law (strip statuteCode)) →
        canonicalizeTrustedLegalIdentity U (.mapping { fields with lawId, statuteCode }) =
          canonicalizeTrustedLegalIdentity U (.mapping fields) := by
  refine ⟨fun fields r h => ?_, fun fields r h => ?_, fun law fields lawId statuteCode ha hsa hb hsb => ?_⟩
  · obtain ⟨law, article, hlaw, -, -, -, harticle, htrusted, rfl⟩ := canonicalize_ok_iff.1 h
    obtain ⟨hnumber, hcode, hstripId, hstripCode, hneId, hneCode⟩ := canonical_law hlaw
    obtain ⟨hne, hstrip, hagain⟩ := articleOf_again harticle
    refine canonicalize_ok_iff.2 ⟨law, article, ?_, ?_, ?_, fun _ => ?_, ?_, ?_, ?_⟩
    · rw [canonicalForm, hstripId]
      exact hnumber
    · rw [canonicalForm, hstripId]
      exact hneId
    · rw [canonicalForm, hstrip]
      exact hne
    · rw [canonicalForm, hstripCode]
      exact hcode
    · rw [canonicalForm, hstrip]
      exact hagain
    · exact htrusted.again law article
    · exact (canonicalForm_again htrusted law article).symm
  · obtain ⟨law, article, hlaw, -, -, -, -, -, rfl⟩ := canonicalize_ok_iff.1 h
    obtain ⟨hnumber, hcode, -⟩ := canonical_law hlaw
    exact ⟨hnumber, hcode, canonical_listed hlaw⟩
  · have hresolveA := resolveCode_iff.2 ha
    have hresolveB := resolveCode_iff.2 hb
    have hstatute : ∀ {t : Text}, t = [] ∨ Denotes U law t → (if t ≠ [] then resolveCode U t else some law) = some law := by
      intro t ht
      split
      · next hne => exact resolveCode_iff.2 (ht.resolve_left hne)
      · rfl
    have hneA := denotes_ne_nil ha
    have hneB := denotes_ne_nil hb
    unfold canonicalizeTrustedLegalIdentity
    dsimp only
    rw [hresolveA, hresolveB]
    dsimp only
    rw [hstatute hsa, hstatute hsb]
    simp only [hneA, hneB, false_or]

/-- Tables of plain texts. -/
def plainLegalUnicode : LegalUnicode where
  toUnicode := { namedUnicode with lower := fun t => t.map lowerPlain }
  nfc_plain _ _ := rfl
  nfkc_plain _ _ := rfl
  lower_plain _ _ := rfl
  isDecimal := Char.isDigit
  decimal_digit _ h := h
  decimal_other := by
    intro c h
    rw [Bool.eq_false_iff]
    intro hdigit
    have hbounds := Char.isDigit_iff_toNat.1 hdigit
    have hzero : '0'.toNat = 48 := rfl
    have hnine : '9'.toNat = 57 := rfl
    rw [Bool.or_eq_true, Bool.or_eq_true] at h
    rcases h with (hspace | hletter) | hdash
    · simp only [isSpace, List.mem_cons, List.not_mem_nil, or_false, decide_eq_true_eq] at hspace
      omega
    · have hhigh : 65 ≤ c.toNat := (isLegalLetter_bounds hletter).2
      omega
    · rw [of_decide_eq_true hdash] at hbounds
      revert hbounds
      decide

example : (canonicalizeTrustedLegalIdentity plainLegalUnicode
    (.mapping ⟨"6098".toList, [], " madde - 117a".toList, [], [], [], []⟩)).toOption.join.map
      (fun r => (r.statuteCode, r.articleId)) = some ("TBK".toList, "117a".toList) := by
  decide

end Mesa.Legal
