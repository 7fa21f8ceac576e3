/-
The statutes and courts that the resolver knows, with their aliases, and the numbers of the laws among them.
-/
import Mesa.Legal.LawNames

namespace Mesa.Legal

open Mesa.Foundation
open Mesa.Rebuild (isSpace Text)

/-! ## Tables -/

structure Statute where
  code : Text
  canonical : Text
  aliases : List Text

/-- `ONTOLOGY`. -/
def ontology : List Statute :=
  [("TBK", "Türk Borçlar Kanunu", ["türk borçlar kanunu", "borçlar kanunu", "6098 sayılı türk borçlar kanunu",
      "6098 sayılı kanun", "6098", "tbk"]),
    ("TMK", "Türk Medeni Kanunu", ["türk medeni kanunu", "medeni kanun", "4721 sayılı türk medeni kanunu",
      "4721 sayılı kanun", "4721", "tmk", "m.k.", "mk"]),
    ("TCK", "Türk Ceza Kanunu", ["türk ceza kanunu", "ceza kanunu", "5237 sayılı türk ceza kanunu",
      "5237 sayılı kanun", "5237", "tck"]),
    ("CMK", "Ceza Muhakemesi Kanunu", ["ceza muhakemesi kanunu", "ceza muhakemeleri kanunu",
      "5271 sayılı ceza muhakemesi kanunu", "5271 sayılı kanun", "5271", "cmk", "cmuk"]),
    ("HMK", "Hukuk Muhakemeleri Kanunu", ["hukuk muhakemeleri kanunu", "hukuk usulü muhakemeleri kanunu",
      "6100 sayılı hukuk muhakemeleri kanunu", "6100 sayılı kanun", "6100", "hmk", "humk"]),
    ("TTK", "Türk Ticaret Kanunu", ["türk ticaret kanunu", "ticaret kanunu", "6102 sayılı türk ticaret kanunu",
      "6102 sayılı kanun", "6102", "ttk"]),
    ("İYUK", "İdari Yargılama Usulü Kanunu", ["idari yargılama usulü kanunu", "idari yargılama kanunu",
      "2577 sayılı idari yargılama usulü kanunu", "2577 sayılı kanun", "2577", "iyuk", "ıyuk"]),
    ("KVKK", "Kişisel Verilerin Korunması Kanunu", ["kişisel verilerin korunması kanunu",
      "6698 sayılı kişisel verilerin korunması kanunu", "6698 sayılı kanun", "6698", "kvkk", "k.v.k.k."]),
    ("İş Kanunu", "İş Kanunu", ["iş kanunu", "türk iş kanunu", "4857 sayılı iş kanunu", "4857 sayılı kanun",
      "is kanunu", "4857 s.k.", "4857 sk", "4857"]),
    ("Anayasa", "Anayasa", ["türk anayasası", "türkiye cumhuriyeti anayasası", "t.c. anayasası", "1982 anayasası",
      "2709 sayılı kanun", "anayasa", "ay"]),
    ("Yargıtay Hukuk Genel Kurulu", "Yargıtay Hukuk Genel Kurulu", ["yargıtay hukuk genel kurulu",
      "hukuk genel kurulu", "yhgk"]),
    ("Yargıtay Ceza Genel Kurulu", "Yargıtay Ceza Genel Kurulu", ["yargıtay ceza genel kurulu",
      "ceza genel kurulu", "ycgk"]),
    ("Yargıtay 4. Hukuk Dairesi", "Yargıtay 4. Hukuk Dairesi", ["yargıtay 4. hukuk dairesi", "yargıtay 4. dairesi",
      "4. hukuk dairesi", "4.hd", "4. hd"]),
    ("Yargıtay 11. Hukuk Dairesi", "Yargıtay 11. Hukuk Dairesi", ["yargıtay 11. hukuk dairesi",
      "yargıtay 11. dairesi", "11. hukuk dairesi", "11.hd", "11. hd"])].map fun s =>
    ⟨s.1.toList, s.2.1.toList, s.2.2.map String.toList⟩

/-- `LAW_IDS`. -/
def lawIds : List (Text × Text) :=
  [("TBK", "6098"), ("TMK", "4721"), ("TCK", "5237"), ("CMK", "5271"), ("HMK", "6100"), ("TTK", "6102"),
    ("İYUK", "2577"), ("KVKK", "6698"), ("İş Kanunu", "4857"), ("Anayasa", "2709")].map fun e => (e.1.toList, e.2.toList)

/-- `LegalEntityResolver.laws`. -/
def laws : List Text := ["TBK", "TMK", "TCK", "CMK", "HMK", "TTK", "İYUK", "KVKK", "İş Kanunu", "Anayasa"].map String.toList

/-- The aliases of the ontology with their codes. -/
def aliases : List (Text × Text) := ontology.flatMap fun s => s.aliases.map fun a => (a, s.code)

/-! ## Plain texts -/

/-- The small letters, the digits and the marks of plain texts. -/
def isPlainSmall (c : Char) : Bool := c.isLower || c.isDigit || c ∈ [' ', '.', 'ç', 'ğ', 'ı', 'ö', 'ş', 'ü']

/-- The capital letters that ASCII does not have, without the one of `i`. -/
def turkishCapitals : List (Char × Char) := [('Ç', 'ç'), ('Ğ', 'ğ'), ('Ö', 'ö'), ('Ş', 'ş'), ('Ü', 'ü')]

/-- The capital letters, but for those of `ı` and `i`. -/
def isPlainCapital (c : Char) : Bool := (c.isUpper && c ≠ 'I') || c ∈ turkishCapitals.map Prod.fst

def lowerPlain (c : Char) : Char :=
  if c.isUpper then c.toLower else ((turkishCapitals.find? fun p => decide (p.1 = c)).map Prod.snd).getD c

/-- A text of letters, digits, blanks and dots. -/
def Plain (t : Text) : Prop := ∀ c ∈ t, (isPlainSmall c || isPlainCapital c || c ∈ ['I', 'İ']) = true

instance (t : Text) : Decidable (Plain t) :=
  decidable_of_iff (t.all fun c => isPlainSmall c || isPlainCapital c || c ∈ ['I', 'İ']) List.all_eq_true

/-- Unicode tables that leave plain texts composed, and lower them letter by letter. -/
structure PlainUnicode extends Unicode where
  nfc_plain : ∀ t, Plain t → nfc t = t
  nfkc_plain : ∀ t, Plain t → nfkc t = t
  lower_plain : ∀ t, (∀ c ∈ t, (isPlainSmall c || isPlainCapital c) = true) → lower t = t.map lowerPlain

/-- The normal form of a plain text. -/
def foldPlain (t : Text) : Text := t.map fun c => lowerPlain (foldCapital c)

variable {U : PlainUnicode}

theorem foldCapital_plain {c : Char} (h : (isPlainSmall c || isPlainCapital c || c ∈ ['I', 'İ']) = true) :
    (isPlainSmall (foldCapital c) || isPlainCapital (foldCapital c)) = true := by
  unfold foldCapital
  split
  · decide
  · next hdotted =>
    split
    · decide
    · next hdotless =>
      have hnot : c ∉ ['I', 'İ'] := by simp [hdotted, hdotless]
      rwa [decide_eq_false hnot, Bool.or_false] at h

theorem substitute_dottedI {t : Text} (h : '\u0307' ∉ t) : substitute dottedI ['i'] t = t := by
  refine substitute_eq_self _ fun l hl => if_neg fun hprefix => h ?_
  obtain ⟨rest, rfl⟩ := List.isPrefixOf_iff_prefix.1 hprefix
  exact hl.subset (List.mem_cons_of_mem _ List.mem_cons_self)

theorem normalizeTurkish_plain {t : Text} (h : Plain t) : normalizeTurkish U.toUnicode t = foldPlain t := by
  have hfold : ∀ c ∈ t.map foldCapital, (isPlainSmall c || isPlainCapital c) = true := by
    intro c hc
    obtain ⟨d, hd, rfl⟩ := List.mem_map.1 hc
    exact foldCapital_plain (h d hd)
  have hdot : '\u0307' ∉ t.map foldCapital := by
    intro hmem
    exact absurd (hfold _ hmem) (by decide)
  unfold normalizeTurkish
  split
  · next hnil =>
    subst hnil
    rfl
  · have hplain : Plain (t.map foldCapital) := fun c hc => by rw [hfold c hc, Bool.true_or]
    rw [U.nfc_plain t h, substitute_dottedI hdot, U.nfkc_plain _ hplain, U.lower_plain _ hfold, List.map_map]
    rfl

/-! ## Aliases -/

/-- Entries of a dictionary, a later one in the place of an earlier one with its key. -/
def dictOf (entries : List (Text × Text)) : List (Text × Text) := entries.foldl (fun d e => insertKey e.1 e.2 d) []

def lookupKey (key : Text) (d : List (Text × Text)) : Option Text := (d.find? fun e => decide (e.1 = key)).map Prod.snd

variable (U) in
/-- `alias_to_code`. -/
def aliasToCode : List (Text × Text) := dictOf (aliases.map fun e => (normalizeTurkish U.toUnicode e.1, e.2))

theorem dictOf_nodup {entries : List (Text × Text)} (h : (entries.map Prod.fst).Nodup) : dictOf entries = entries := by
  have hfold : ∀ (rest d : List (Text × Text)), ((d ++ rest).map Prod.fst).Nodup →
      rest.foldl (fun d e => insertKey e.1 e.2 d) d = d ++ rest := by
    intro rest
    induction rest with
    | nil => exact fun d _ => (List.append_nil d).symm
    | cons e rest ih =>
      intro d hd
      have hnew : (d.any fun x => decide (x.1 = e.1)) = false := by
        rw [List.any_eq_false]
        intro x hx hsame
        rw [List.map_append, List.map_cons] at hd
        exact List.disjoint_of_nodup_append hd (List.mem_map_of_mem hx)
          (of_decide_eq_true hsame ▸ List.mem_cons_self)
      rw [List.foldl_cons, insertKey, hnew, if_neg Bool.false_ne_true, ih, List.append_assoc, List.singleton_append]
      rw [List.append_assoc, List.singleton_append]
      exact hd
  exact hfold entries [] h

theorem lookupKey_of_mem {key value : Text} {d : List (Text × Text)} (hd : (d.map Prod.fst).Nodup) (h : (key, value) ∈ d) :
    lookupKey key d = some value := by
  unfold lookupKey
  induction d with
  | nil => cases h
  | cons e d ih =>
    rw [List.map_cons, List.nodup_cons] at hd
    rw [List.find?_cons]
    rcases List.mem_cons.1 h with rfl | h
    · rw [decide_eq_true rfl]
      rfl
    · have hne : e.1 ≠ key := fun hsame => hd.1 (hsame ▸ List.mem_map_of_mem h)
      rw [decide_eq_false hne]
      exact ih hd.2 h

theorem mem_of_lookupKey {key value : Text} {d : List (Text × Text)} (h : lookupKey key d = some value) :
    (key, value) ∈ d := by
  obtain ⟨e, he, rfl⟩ := Option.map_eq_some_iff.1 h
  have hkey := List.find?_some he
  exact of_decide_eq_true hkey ▸ List.mem_of_find?_eq_some he

/-- The aliases differ, are plain texts in their normal form, and those that are numbers are the numbers of their laws. -/
theorem aliases_sound : (aliases.map Prod.fst).Nodup ∧ (∀ e ∈ aliases, Plain e.1 ∧ foldPlain e.1 = e.1) ∧
    ∀ e ∈ aliases, isLawNumber e.1 = true → lawIds.find? (fun n => decide (n.2 = e.1)) = some (e.2, e.1) := by
  simp only [aliases, ontology, lawIds, List.map, List.flatMap_cons, List.flatMap_nil, List.append_nil, List.cons_append,
    List.nil_append]
  repeat rw [String.toList_ofList]
  refine ⟨by decide, by decide, by decide⟩

end Mesa.Legal
