/-
The text that an assertion vector embeds. The live projection builds it in Python, part by part;
the rebuild computes it in SQL, from the joined columns. When the two agree is decided by the
paddings of the columns.
-/
import Mesa.Foundation.Texts
import Mesa.Foundation.Trim

namespace Mesa.Rebuild

open Mesa.Foundation

abbrev Text := List Char

/-! ## The two builders -/

/-- The characters that `str.strip()` removes. -/
def isSpace (c : Char) : Bool :=
  c.toNat ∈ [0x09, 0x0a, 0x0b, 0x0c, 0x0d, 0x1c, 0x1d, 0x1e, 0x1f, 0x20, 0x85, 0xa0, 0x1680, 0x2000, 0x2001, 0x2002,
    0x2003, 0x2004, 0x2005, 0x2006, 0x2007, 0x2008, 0x2009, 0x200a, 0x2028, 0x2029, 0x202f, 0x205f, 0x3000]

/-- The one character that `trim` of SQLite removes. -/
def isBlank (c : Char) : Bool := c = ' '

def strip (t : Text) : Text := trimBy isSpace t

def trim (t : Text) : Text := trimBy isBlank t

/-- `value.startswith("mesa-")`. -/
def reserved (t : Text) : Bool := ['m', 'e', 's', 'a', '-'].isPrefixOf t

/-- The separator between the fact and its evidence. -/
def colon : Text := [':', ' ']

/-- The parts of the prefix that are kept. -/
def keptParts (subject predicate objectValue : Text) : List Text :=
  [strip subject, strip predicate, strip objectValue].filter fun value => value ≠ [] && !reserved value

/-- `build_v4_assertion_vector_payload`. -/
def buildV4AssertionVectorPayload (subject predicate objectValue evidenceSpan : Text) : Text :=
  let head := [' '].intercalate (keptParts subject predicate objectValue)
  let evidence := strip evidenceSpan
  if evidence ≠ [] ∧ head ≠ [] then head ++ colon ++ evidence
  else if evidence ≠ [] then evidence
  else head

/-- `project_v4_vector_assertion` up to the text that it embeds. -/
def projectV4VectorAssertion (head predicate : Text) (tail literalValue : Option Text) (evidenceSpan : Text) :
    Except String Text :=
  let payloadText := buildV4AssertionVectorPayload (strip head) (strip predicate)
    (strip ((tail.or literalValue).getD [])) (strip evidenceSpan)
  if payloadText = [] then .error "assertion vector representation is empty" else .ok payloadText

/-- `canonical_name || ' ' || predicate || ' ' || COALESCE(canonical_name, literal_value, '')`. -/
def joined (subject predicate objectValue : Text) : Text := subject ++ ' ' :: (predicate ++ ' ' :: objectValue)

/-- `payload_text` of the vector query, from the columns of the joined rows; the name of the object
and the literal are null where there is none. -/
def payloadText (subject predicate : Text) (objectName literalValue : Option Text) (evidenceSpan : Text) : Text :=
  let head := trim (joined subject predicate ((objectName.or literalValue).getD []))
  if trim evidenceSpan ≠ [] then head ++ colon ++ trim evidenceSpan else head

/-! ## When they agree -/

/-- No padding where the two parts meet. -/
def Meet (left right : Text) : Prop := left.rtakeWhile isSpace = [] ∧ right.takeWhile isSpace = []

/-- The columns that SQL renders as Python does: no part is reserved, an empty predicate is not
between two other parts, parts meet without padding, the outer paddings are spaces, and evidence
comes with a fact. -/
structure Reproducible (subject predicate objectValue evidenceSpan : Text) : Prop where
  unreserved : ∀ part ∈ [subject, predicate, objectValue], reserved (strip part) = false
  predicateBetween : strip subject ≠ [] → strip objectValue ≠ [] → strip predicate ≠ []
  subjectMeets : strip subject ≠ [] → strip predicate ≠ [] → Meet subject predicate
  objectMeets : strip predicate ≠ [] → strip objectValue ≠ [] → Meet predicate objectValue
  headPadding : PaddedBy isSpace isBlank (joined subject predicate objectValue)
  evidencePadding : PaddedBy isSpace isBlank evidenceSpan
  evidenceNamed : strip evidenceSpan ≠ [] → strip subject ≠ [] ∨ strip predicate ≠ [] ∨ strip objectValue ≠ []

theorem isSpace_of_isBlank (c : Char) (h : isBlank c = true) : isSpace c = true := by
  obtain rfl : c = ' ' := by simpa [isBlank] using h
  rfl

theorem trim_eq_strip_iff {t : Text} : trim t = strip t ↔ PaddedBy isSpace isBlank t :=
  trimBy_eq_iff isSpace_of_isBlank

theorem strip_trim (t : Text) : strip (trim t) = strip t := by
  unfold strip trim
  by_cases h : trimBy isBlank t = []
  · rw [h]
    exact (trimBy_blank fun c hc => isSpace_of_isBlank c (trimBy_eq_nil.1 h c hc)).symm
  · obtain ⟨a, b, ht, ha, -, hb⟩ := framed_of_trimBy h
    generalize trimBy isBlank t = x at ht
    subst ht
    unfold trimBy
    rw [List.append_assoc, List.dropWhile_append_of_pos fun c hc => isSpace_of_isBlank c (ha c hc),
      List.dropWhile_append]
    split
    · next hnil =>
      have hb' : ∀ c ∈ b, isSpace c = true := fun c hc => isSpace_of_isBlank c (hb c hc)
      rw [List.isEmpty_iff.1 hnil, List.dropWhile_eq_nil_iff.2 hb']
    · rw [rdropWhile_append_of_all fun c hc => isSpace_of_isBlank c (hb c hc)]

theorem strip_strip (t : Text) : strip (strip t) = strip t := trimBy_idempotent t

/-! ## The evidence -/

theorem strip_length_le (t : Text) : (strip t).length ≤ t.length :=
  ((List.rdropWhile_prefix isSpace _).length_le).trans (List.length_dropWhile_le isSpace t)

/-- A text that ends outside of the spaces. -/
def Ended (t : Text) : Prop := t.rdropWhile isSpace = t

theorem not_ended_of_spaces {t w : Text} (hw : w ≠ []) (hspace : ∀ c ∈ w, isSpace c = true) : ¬ Ended (t ++ w) := by
  intro h
  unfold Ended at h
  rw [rdropWhile_append_of_all hspace] at h
  have hle := (List.rdropWhile_prefix isSpace t).length_le
  rw [h, List.length_append] at hle
  have := List.length_pos_of_ne_nil hw
  omega

theorem ended_strip (t : Text) : Ended (strip t) := List.rdropWhile_idempotent isSpace _

/-- The two texts agree exactly when their heads do, their evidence does, and no evidence stands
without a head. -/
theorem split_evidence {x head : Text} (hhead : Ended head) (evidence : Text) :
    (if trim evidence ≠ [] then x ++ colon ++ trim evidence else x) =
      (if strip evidence ≠ [] ∧ head ≠ [] then head ++ colon ++ strip evidence
       else if strip evidence ≠ [] then strip evidence else head) ↔
    x = head ∧ trim evidence = strip evidence ∧ (strip evidence ≠ [] → head ≠ []) := by
  constructor
  · intro h
    by_cases htrim : trim evidence = []
    · have hstrip : strip evidence = [] := by rw [← strip_trim, htrim]; rfl
      simp only [htrim, hstrip, ne_eq, not_true_eq_false, if_false, false_and] at h
      exact ⟨h, by rw [htrim, hstrip], fun hne => absurd hstrip hne⟩
    · rw [if_pos htrim] at h
      by_cases hstrip : strip evidence = []
      · -- the evidence is whitespace that SQL keeps, and no head ends in whitespace
        simp only [hstrip, ne_eq, not_true_eq_false, false_and, if_false] at h
        refine absurd (h ▸ hhead) (not_ended_of_spaces htrim ?_)
        exact trimBy_eq_nil.1 (by rw [← strip, strip_trim, hstrip])
      · by_cases hnil : head = []
        · simp only [hstrip, hnil, ne_eq, not_true_eq_false, not_false_eq_true, and_false, if_false, if_true] at h
          have hlen := congrArg List.length h
          have hle := strip_length_le (trim evidence)
          rw [strip_trim, ← h] at hle
          simp only [List.length_append, colon, List.length_cons] at hle
          omega
        · rw [if_pos ⟨hstrip, hnil⟩] at h
          obtain ⟨u, v, hu, hus, ht, hvs⟩ := framed_of_trimBy (p := isSpace) (l := trim evidence)
            (by rw [← strip, strip_trim]; exact hstrip)
          rw [← strip, strip_trim] at hu ht
          rw [hu] at h
          have hright := congrArg (List.rtakeWhile isSpace) h
          rw [← List.append_assoc, ← List.append_assoc, rtakeWhile_framed ht hvs,
            show head ++ colon ++ strip evidence = head ++ colon ++ strip evidence ++ [] by simp,
            rtakeWhile_framed ht (by simp)] at hright
          subst hright
          rw [List.append_nil, ← List.append_assoc] at h
          have h := List.append_cancel_right h
          have hu' : u = [] := by
            by_contra hne
            -- the last character of `u` is the space of the colon, and the one before it the colon
            rw [← List.dropLast_append_getLast hne, ← List.append_assoc, colon,
              show head ++ [':', ' '] = head ++ [':'] ++ [' '] by simp] at h
            have hinit := (List.append_inj' h rfl).1
            refine absurd (show Ended (head ++ [':']) from ?_) ?_
            · exact rdropWhile_append_of_stuck (by simp) (by decide)
            · rw [← hinit, show x ++ [':', ' '] ++ u.dropLast = x ++ [':'] ++ (' ' :: u.dropLast) by simp]
              refine not_ended_of_spaces (by simp) fun c hc => ?_
              rcases List.mem_cons.1 hc with rfl | hc
              · rfl
              · exact hus c (List.dropLast_subset u hc)
          subst hu'
          rw [List.append_nil] at h
          exact ⟨List.append_cancel_right h, by simpa using hu, fun _ => hnil⟩
  · rintro ⟨rfl, heq, hnamed⟩
    rw [heq]
    by_cases hstrip : strip evidence = []
    · simp [hstrip]
    · rw [if_pos hstrip, if_pos ⟨hstrip, hnamed hstrip⟩]

/-! ## The head -/

/-- The number of characters outside of the spaces. -/
def solid (t : Text) : Nat := t.countP fun c => !isSpace c

theorem solid_append (l r : Text) : solid (l ++ r) = solid l + solid r := List.countP_append

theorem solid_of_spaces {t : Text} (h : ∀ c ∈ t, isSpace c = true) : solid t = 0 :=
  List.countP_eq_zero.2 fun c hc => by simp [h c hc]

theorem solid_strip (t : Text) : solid (strip t) = solid t := by
  conv_rhs => rw [← padding_trimBy (p := isSpace) t]
  rw [solid_append, solid_append, solid_of_spaces fun c hc => List.mem_takeWhile_imp hc,
    solid_of_spaces fun c hc => List.mem_rtakeWhile_imp hc, ← strip]
  omega

theorem solid_pos {t : Text} (h : strip t ≠ []) : 0 < solid t := by
  rw [Nat.pos_iff_ne_zero]
  intro hzero
  refine h (trimBy_blank fun c hc => ?_)
  simpa using List.countP_eq_zero.1 hzero c hc

theorem solid_joined (subject predicate objectValue : Text) :
    solid (joined subject predicate objectValue) = solid subject + solid predicate + solid objectValue := by
  have hcons : ∀ t : Text, solid (' ' :: t) = solid t := fun t => by rw [solid, List.countP_cons_of_neg (by decide)]; rfl
  unfold joined
  rw [solid_append, hcons, solid_append, hcons]
  omega

theorem solid_intercalate : ∀ l : List Text, solid ([' '].intercalate l) = (l.map solid).sum
  | [] => rfl
  | [t] => by simp [List.intercalate]
  | t :: u :: l => by
    have h := solid_intercalate (u :: l)
    have hcons : [' '].intercalate (t :: u :: l) = t ++ ' ' :: [' '].intercalate (u :: l) := by simp [List.intercalate]
    rw [hcons, solid_append, solid, solid, List.countP_cons_of_neg (by decide), ← solid, ← solid, h]
    simp

theorem tight_intercalate : ∀ l : List Text, (∀ t ∈ l, Tight isSpace t) → l ≠ [] →
    Tight isSpace ([' '].intercalate l)
  | [], _, h => absurd rfl h
  | [t], h, _ => by simpa [List.intercalate] using h t (List.mem_singleton_self t)
  | t :: u :: l, h, _ => by
    have hrest := tight_intercalate (u :: l) (fun x hx => h x (List.mem_cons_of_mem _ hx)) (by simp)
    have hcons : [' '].intercalate (t :: u :: l) = t ++ [' '] ++ [' '].intercalate (u :: l) := by
      simp [List.intercalate]
    rw [hcons]
    exact (h t (List.mem_cons_self ..)).around hrest [' ']

/-- The prefix of the fact is stripped already. -/
theorem strip_head (subject predicate objectValue : Text) :
    strip ([' '].intercalate (keptParts subject predicate objectValue)) =
      [' '].intercalate (keptParts subject predicate objectValue) := by
  by_cases h : keptParts subject predicate objectValue = []
  · rw [h]; rfl
  · refine trimBy_tight (tight_intercalate _ (fun t ht => ?_) h)
    simp only [keptParts, List.mem_filter, Bool.and_eq_true, decide_eq_true_eq] at ht
    obtain ⟨hmem, hne, -⟩ := ht
    have hpart : ∃ u, t = strip u := by
      simp only [List.mem_cons, List.not_mem_nil, or_false] at hmem
      rcases hmem with rfl | rfl | rfl <;> exact ⟨_, rfl⟩
    obtain ⟨u, rfl⟩ := hpart
    exact tight_trimBy hne

theorem solid_filter_le (q : Text → Bool) : ∀ l : List Text, ((l.filter q).map solid).sum ≤ (l.map solid).sum
  | [] => le_rfl
  | t :: l => by
    have h := solid_filter_le q l
    rw [List.filter_cons]
    split <;> simp only [List.map_cons, List.sum_cons] <;> omega

/-- Dropping parts keeps the count only when the dropped parts are blank. -/
theorem solid_of_dropped {q : Text → Bool} : ∀ {l : List Text}, ((l.filter q).map solid).sum = (l.map solid).sum →
    ∀ t ∈ l, q t = false → solid t = 0
  | u :: l, h, t, ht, hq => by
    have hle := solid_filter_le q l
    rw [List.filter_cons] at h
    split at h
    · next hu =>
      simp only [List.map_cons, List.sum_cons] at h
      rcases List.mem_cons.1 ht with rfl | ht
      · rw [hq] at hu; cases hu
      · exact solid_of_dropped (by omega) t ht hq
    · simp only [List.map_cons, List.sum_cons] at h
      rcases List.mem_cons.1 ht with rfl | ht
      · omega
      · exact solid_of_dropped (by omega) t ht hq

/-- SQL drops no part, so a head that Python builds alike has none to drop. -/
theorem unreserved_of_strip_eq {subject predicate objectValue : Text}
    (h : strip (joined subject predicate objectValue) = [' '].intercalate (keptParts subject predicate objectValue)) :
    ∀ part ∈ [subject, predicate, objectValue], reserved (strip part) = false := by
  have hcount := congrArg solid h
  rw [solid_strip, solid_joined, solid_intercalate] at hcount
  intro part hpart
  by_contra hres
  have hres : reserved (strip part) = true := by simpa using hres
  have hpos : 0 < solid part := solid_pos fun hnil => by rw [hnil] at hres; cases hres
  have hdropped := solid_of_dropped (q := fun value => value ≠ [] && !reserved value)
    (l := [strip subject, strip predicate, strip objectValue]) (t := strip part)
    (by rw [← keptParts, ← hcount]; simp [solid_strip, Nat.add_assoc])
    (by simpa using List.mem_map_of_mem (f := strip) hpart) (by simp [hres])
  rw [solid_strip] at hdropped
  omega

theorem keptParts_of_unreserved {subject predicate objectValue : Text}
    (h : ∀ part ∈ [subject, predicate, objectValue], reserved (strip part) = false) :
    keptParts subject predicate objectValue =
      [strip subject, strip predicate, strip objectValue].filter fun value => value ≠ [] := by
  refine List.filter_congr fun value hvalue => ?_
  have hpart : reserved value = false := by
    simp only [List.mem_cons, List.not_mem_nil, or_false] at hvalue
    rcases hvalue with rfl | rfl | rfl <;> exact h _ (by simp)
  simp [hpart]

/-! ## Whitespace where the parts meet -/

theorem strip_blank_append {l r : Text} (h : strip l = []) : strip (l ++ r) = strip r := by
  unfold strip trimBy
  rw [List.dropWhile_append_of_pos (trimBy_eq_nil.1 h)]

theorem strip_append_blank {l r : Text} (h : strip r = []) : strip (l ++ r) = strip l := by
  have hall := trimBy_eq_nil.1 h
  unfold strip trimBy
  rw [List.dropWhile_append]
  split
  · next hnil => rw [List.isEmpty_iff.1 hnil, List.dropWhile_eq_nil_iff.2 hall]
  · rw [rdropWhile_append_of_all hall]

/-- What is between two parts keeps the paddings that face it. -/
theorem strip_between {l r : Text} (hl : strip l ≠ []) (hr : strip r ≠ []) (m : Text) :
    strip (l ++ m ++ r) = strip l ++ (l.rtakeWhile isSpace ++ m ++ r.takeWhile isSpace) ++ strip r := by
  obtain ⟨a, b, hleq, ha, hlt, hb⟩ := framed_of_trimBy hl
  obtain ⟨c, d, hreq, hc, hrt, hd⟩ := framed_of_trimBy hr
  rw [← strip] at hleq hlt hreq hrt
  have hbl : l.rtakeWhile isSpace = b := by
    conv_lhs => rw [hleq]
    exact rtakeWhile_framed hlt hb
  have hcr : r.takeWhile isSpace = c := by
    conv_lhs => rw [hreq]
    exact takeWhile_framed hc hrt
  rw [hbl, hcr]
  have hshape : l ++ m ++ r = a ++ (strip l ++ (b ++ m ++ c) ++ strip r) ++ d := by
    conv_lhs => rw [hleq, hreq]
    simp only [List.append_assoc]
  rw [hshape]
  exact trimBy_framed ha (hlt.around hrt _) hd

theorem between_iff (x y m m' : Text) : x ++ m ++ y = x ++ m' ++ y ↔ m = m' := by
  rw [List.append_left_inj, List.append_right_inj]

theorem meet_iff (l r : Text) : l.rtakeWhile isSpace ++ [' '] ++ r.takeWhile isSpace = [' '] ↔ Meet l r := by
  constructor
  · intro h
    have := congrArg List.length h
    simp only [List.length_append, List.length_cons, List.length_nil] at this
    exact ⟨List.length_eq_zero_iff.1 (by omega), List.length_eq_zero_iff.1 (by omega)⟩
  · rintro ⟨hl, hr⟩
    rw [hl, hr]; rfl

/-- The parts of the fact stay what they are exactly when they meet without padding and none is
missing in the middle. -/
theorem strip_joined_iff (subject predicate objectValue : Text) :
    strip (joined subject predicate objectValue) =
      [' '].intercalate ([strip subject, strip predicate, strip objectValue].filter fun value => value ≠ []) ↔
    (strip subject ≠ [] → strip objectValue ≠ [] → strip predicate ≠ []) ∧
      (strip subject ≠ [] → strip predicate ≠ [] → Meet subject predicate) ∧
      (strip predicate ≠ [] → strip objectValue ≠ [] → Meet predicate objectValue) := by
  have hspace : strip [' '] = [] := by decide
  have hblank : ∀ t, strip t = [] → strip (t ++ [' ']) = [] := fun t ht => by rw [strip_blank_append ht, hspace]
  have hblank' : ∀ t, strip t = [] → strip (' ' :: t) = [] := fun t ht => by
    rw [show ' ' :: t = [' '] ++ t from rfl, strip_blank_append hspace, ht]
  have hleft : joined subject predicate objectValue = (subject ++ [' ']) ++ (predicate ++ ' ' :: objectValue) := by
    simp [joined]
  have hright : joined subject predicate objectValue = (subject ++ [' '] ++ predicate) ++ (' ' :: objectValue) := by
    simp [joined]
  have hmid : joined subject predicate objectValue = subject ++ ([' '] ++ predicate ++ [' ']) ++ objectValue := by
    simp [joined]
  have hpo : predicate ++ ' ' :: objectValue = predicate ++ [' '] ++ objectValue := by simp
  by_cases hs : strip subject = [] <;> by_cases hp : strip predicate = [] <;> by_cases ho : strip objectValue = []
  · rw [hleft, strip_blank_append (hblank _ hs), strip_blank_append hp, hblank' _ ho]; simp [hs, hp, ho]
  · rw [hleft, strip_blank_append (hblank _ hs), hpo, strip_blank_append (hblank _ hp)]
    simp [hs, hp, ho, List.intercalate]
  · rw [hleft, strip_blank_append (hblank _ hs), strip_append_blank (hblank' _ ho)]
    simp [hs, hp, ho, List.intercalate]
  · rw [hleft, strip_blank_append (hblank _ hs), hpo, strip_between hp ho]
    have htail : [' '].intercalate ([strip subject, strip predicate, strip objectValue].filter fun value => value ≠ []) =
        strip predicate ++ [' '] ++ strip objectValue := by simp [hs, hp, ho, List.intercalate]
    rw [htail, between_iff, meet_iff]
    simp [hs, hp, ho]
  · rw [hright, strip_append_blank (hblank' _ ho), List.append_assoc, List.singleton_append,
      strip_append_blank (hblank' _ hp)]
    simp [hs, hp, ho, List.intercalate]
  · have htail : [' '].intercalate ([strip subject, strip predicate, strip objectValue].filter fun value => value ≠ []) =
        strip subject ++ [' '] ++ strip objectValue := by simp [hs, hp, ho, List.intercalate]
    rw [hmid, strip_between hs ho, htail, between_iff]
    refine iff_of_false (fun h => ?_) (by simp [hs, hp, ho])
    have := congrArg List.length h
    simp only [List.length_append, List.length_cons, List.length_nil] at this
    omega
  · rw [hright, strip_append_blank (hblank' _ ho), strip_between hs hp]
    have htail : [' '].intercalate ([strip subject, strip predicate, strip objectValue].filter fun value => value ≠ []) =
        strip subject ++ [' '] ++ strip predicate := by simp [hs, hp, ho, List.intercalate]
    rw [htail, between_iff, meet_iff]
    simp [hs, hp, ho]
  · have htail : [' '].intercalate ([strip subject, strip predicate, strip objectValue].filter fun value => value ≠ []) =
        strip subject ++ ([' '] ++ strip predicate ++ [' ']) ++ strip objectValue := by
      simp [hs, hp, ho, List.intercalate]
    rw [hmid, strip_between hs ho, htail, between_iff]
    obtain ⟨a, b, hpeq, ha, hpt, hb⟩ := framed_of_trimBy hp
    rw [← strip] at hpeq hpt
    have hlead : predicate.takeWhile isSpace = a := by
      conv_lhs => rw [hpeq]
      exact takeWhile_framed ha hpt
    have htrail : predicate.rtakeWhile isSpace = b := by
      conv_lhs => rw [hpeq]
      exact rtakeWhile_framed hpt hb
    simp only [ne_eq, hs, hp, ho, not_false_eq_true, true_implies, true_and, Meet, hlead, htrail]
    constructor
    · intro h
      have hlen := congrArg List.length h
      have hplen := congrArg List.length hpeq
      simp only [List.length_append, List.length_cons, List.length_nil] at hlen hplen
      refine ⟨⟨?_, ?_⟩, ?_, ?_⟩ <;> exact List.length_eq_zero_iff.1 (by omega)
    · rintro ⟨⟨hsb, rfl⟩, rfl, hol⟩
      rw [hsb, hol, ← show predicate = strip predicate by simpa using hpeq]
      simp

/-! ## The rebuilt text -/

theorem head_eq_iff (subject predicate objectValue : Text) :
    trim (joined subject predicate objectValue) = [' '].intercalate (keptParts subject predicate objectValue) ↔
      strip (joined subject predicate objectValue) = [' '].intercalate (keptParts subject predicate objectValue) ∧
        PaddedBy isSpace isBlank (joined subject predicate objectValue) := by
  rw [← trim_eq_strip_iff]
  constructor
  · intro h
    have hstrip : strip (joined subject predicate objectValue) =
        [' '].intercalate (keptParts subject predicate objectValue) := by
      rw [← strip_trim, h, strip_head]
    exact ⟨hstrip, h.trans hstrip.symm⟩
  · rintro ⟨hstrip, htrim⟩
    rw [htrim, hstrip]

/-- The text that the rebuild embeds is the one of the builder, which the live projection embeds,
exactly for the columns that are `Reproducible`. -/
theorem rebuilt_text_is_live (subject predicate evidenceSpan : Text) (objectName literalValue : Option Text) :
    payloadText subject predicate objectName literalValue evidenceSpan =
      buildV4AssertionVectorPayload subject predicate ((objectName.or literalValue).getD []) evidenceSpan ↔
    Reproducible subject predicate ((objectName.or literalValue).getD []) evidenceSpan := by
  generalize hobject : (objectName.or literalValue).getD [] = objectValue
  have hhead := strip_head subject predicate objectValue
  have hsplit := split_evidence (x := trim (joined subject predicate objectValue))
    (hhead ▸ ended_strip _ : Ended ([' '].intercalate (keptParts subject predicate objectValue)))
    evidenceSpan
  unfold payloadText buildV4AssertionVectorPayload
  rw [hobject]
  refine hsplit.trans ?_
  rw [head_eq_iff, trim_eq_strip_iff]
  constructor
  · rintro ⟨⟨hstrip, hpadding⟩, hevidence, hnamed⟩
    have hun := unreserved_of_strip_eq hstrip
    rw [keptParts_of_unreserved hun] at hstrip hnamed
    obtain ⟨hbetween, hsubject, hobjectMeets⟩ := (strip_joined_iff subject predicate objectValue).1 hstrip
    refine ⟨hun, hbetween, hsubject, hobjectMeets, hpadding, hevidence, fun hne => ?_⟩
    have hkept := hnamed hne
    by_contra hnone
    simp only [not_or, not_not] at hnone
    obtain ⟨hs, hp, ho⟩ := hnone
    rw [hs, hp, ho] at hkept
    exact hkept rfl
  · intro h
    have hkept := keptParts_of_unreserved h.unreserved
    have hstrip := (strip_joined_iff subject predicate objectValue).2
      ⟨h.predicateBetween, h.subjectMeets, h.objectMeets⟩
    rw [← hkept] at hstrip
    refine ⟨⟨hstrip, h.headPadding⟩, h.evidencePadding, fun hne hnil => ?_⟩
    have hempty : strip (joined subject predicate objectValue) = [] := hstrip.trans hnil
    have hzero : solid (joined subject predicate objectValue) = 0 := by rw [← solid_strip, hempty]; rfl
    rw [solid_joined] at hzero
    rcases h.evidenceNamed hne with hpart | hpart | hpart <;> have := solid_pos hpart <;> omega

/-- Evidence that starts on a new line: SQL embeds the line break, Python does not. -/
theorem rebuilt_text_keeps_line_break :
    payloadText "Alice".toList "likes".toList (some "Bob".toList) none "\nAlice likes Bob.".toList ≠
      buildV4AssertionVectorPayload "Alice".toList "likes".toList "Bob".toList "\nAlice likes Bob.".toList := by
  decide +kernel

example : payloadText "Alice".toList "likes".toList (some "Bob".toList) none " seen ".toList =
    buildV4AssertionVectorPayload "Alice".toList "likes".toList "Bob".toList " seen ".toList := by
  decide +kernel

end Mesa.Rebuild
