/-
The sweep that drops subsumed matches of the citation resolver: it drops exactly what a comparison of all pairs drops,
and every code, with every article it was matched with, is still there.
-/
import Mesa.Foundation.Spans
import Mesa.Foundation.Sweep
import Mesa.Rebuild.Payload

namespace Mesa.Legal

open Mesa.Foundation
open Mesa.Rebuild (Text)

/-! ## The sweep -/

/-- A raw match in a text of length `n`. -/
structure RawMatch (n : Nat) where
  code : Text
  article : Option Text
  span : Extent n

variable {n : Nat} (raw : List (RawMatch n))

/-- `starts[offset]`: the indices of the matches that start there. -/
def starts (offset : Nat) : List Nat :=
  (List.range raw.length).filter fun i => (raw[i]?).any fun m => decide (m.span.start = offset)

/-- `raw_matches[index]["end"]`. -/
def endOf (i : Nat) : Nat := (raw[i]?).elim 0 fun m => m.span.stop

def RawMatch.length (m : RawMatch n) : Nat := m.span.stop - m.span.start

/-- `(length, -index) > (prior_length, -prior_index)`. -/
def outranks (item : RawMatch n) (index : Nat) (prior : RawMatch n) (priorIndex : Nat) : Bool :=
  decide (prior.length < item.length ∨ prior.length = item.length ∧ index < priorIndex)

/-- A match is compared with one that is active. -/
def compareWith (index : Nat) (subsumed : List Nat) (priorIndex : Nat) : List Nat :=
  match raw[index]?, raw[priorIndex]? with
  | some item, some prior =>
    if item.code ≠ prior.code then subsumed
    else if item.article = none ∧ prior.article ≠ none then index :: subsumed
    else if prior.article = none ∧ item.article ≠ none then priorIndex :: subsumed
    else if item.article ≠ none ∧ item.article = prior.article ∧ item.span.start < prior.span.stop then
      (if outranks item index prior priorIndex then priorIndex else index) :: subsumed
    else subsumed
  | _, _ => subsumed

/-- The indices of the matches that are dropped. -/
def subsumed : List Nat := (sweep (endOf raw) (compareWith raw) (starts raw) n []).gathered

/-- `filtered_matches`. -/
def filteredMatches : List (RawMatch n) := (raw.zipIdx.filter fun p => p.2 ∉ subsumed raw).map Prod.fst

/-- The codes and articles of the citations, each once, in the order of the matches. -/
def references : List (Text × Option Text) := ((filteredMatches raw).map fun m => (m.code, m.article)).eraseDups

/-! ## All pairs -/

def RawMatch.Touches (a b : RawMatch n) : Prop := a.span.start ≤ b.span.stop ∧ b.span.start ≤ a.span.stop

instance (a b : RawMatch n) : Decidable (a.Touches b) := inferInstanceAs (Decidable (_ ∧ _))

instance (a b : Extent n) : Decidable (a.Meets b) := inferInstanceAs (Decidable (_ ∧ _))

/-- The match at `j` subsumes the one at `i`: of the same code, and either only the first one has an article and the two
touch, or both have the same one, the two overlap, and the first one is longer, or as long and listed before. -/
def Subsumes (j i : Nat) (a b : RawMatch n) : Prop :=
  a.code = b.code ∧ (b.article = none ∧ a.article ≠ none ∧ a.Touches b ∨
    b.article ≠ none ∧ a.article = b.article ∧ a.span.Meets b.span ∧ outranks a j b i = true)

instance (j i : Nat) (a b : RawMatch n) : Decidable (Subsumes j i a b) := inferInstanceAs (Decidable (_ ∧ _))

/-- The matches that no other one subsumes. -/
def unsubsumed : List (RawMatch n) :=
  (raw.zipIdx.filter fun p => raw.zipIdx.all fun q => ¬ Subsumes q.2 p.2 q.1 p.1).map Prod.fst

/-! ## The sweep is the comparison of all pairs -/

section

variable {raw} {i j : Nat} {a b : RawMatch n}

theorem mem_starts {offset : Nat} : i ∈ starts raw offset ↔ ∃ m, raw[i]? = some m ∧ m.span.start = offset := by
  unfold starts
  rw [List.mem_filter, List.mem_range]
  constructor
  · rintro ⟨hi, hm⟩
    rw [List.getElem?_eq_getElem hi] at hm ⊢
    exact ⟨raw[i], rfl, of_decide_eq_true hm⟩
  · rintro ⟨m, hm, hstart⟩
    refine ⟨(List.getElem?_eq_some_iff.1 hm).1, ?_⟩
    rw [hm]
    exact decide_eq_true hstart

/-- All indices in the order of the sweep. -/
def swept (raw : List (RawMatch n)) : List Nat := (List.range (n + 1)).flatMap (starts raw)

theorem mem_swept : i ∈ swept raw ↔ ∃ m, raw[i]? = some m := by
  unfold swept
  simp only [List.mem_flatMap, List.mem_range, mem_starts]
  constructor
  · rintro ⟨_, -, m, hm, -⟩
    exact ⟨m, hm⟩
  · rintro ⟨m, hm⟩
    have hproper := m.span.proper
    have hinside := m.span.inside
    exact ⟨m.span.start, by omega, m, hm, rfl⟩

/-- Where a match starts. -/
def startOf (raw : List (RawMatch n)) (i : Nat) : Nat := (raw[i]?).elim 0 fun m => m.span.start

theorem startOf_eq (h : raw[i]? = some a) : startOf raw i = a.span.start := by
  rw [startOf, h, Option.elim_some]

theorem endOf_eq (h : raw[i]? = some a) : endOf raw i = a.span.stop := by
  rw [endOf, h, Option.elim_some]

theorem swept_pairwise (raw : List (RawMatch n)) :
    (swept raw).Pairwise fun p i => startOf raw p < startOf raw i ∨ startOf raw p = startOf raw i ∧ p < i := by
  refine List.pairwise_flatMap.2 ⟨fun o _ => ?_, ?_⟩
  · have hsame : ∀ i ∈ starts raw o, startOf raw i = o := by
      intro i hi
      obtain ⟨m, hm, hstart⟩ := mem_starts.1 hi
      rw [startOf_eq hm, hstart]
    refine List.Pairwise.imp_of_mem (fun {p i} hp hi hlt => Or.inr ⟨?_, hlt⟩) (List.pairwise_lt_range.filter _)
    rw [hsame p hp, hsame i hi]
  · refine List.pairwise_lt_range.imp fun {o o'} hlt p hp i hi => Or.inl ?_
    obtain ⟨m, hm, hstart⟩ := mem_starts.1 hp
    obtain ⟨m', hm', hstart'⟩ := mem_starts.1 hi
    rw [startOf_eq hm, startOf_eq hm', hstart, hstart']
    exact hlt

theorem mem_compareWith {x : Nat} (i : Nat) (s : List Nat) (p : Nat) :
    x ∈ compareWith raw i s p ↔ x ∈ s ∨ x ∈ compareWith raw i [] p := by
  unfold compareWith
  split
  · split_ifs <;> simp [or_comm]
  · simp

/-- Of two matches that touch, the comparison drops the one that the other one subsumes. -/
theorem compareWith_iff {x p : Nat} (ha : raw[p]? = some a) (hb : raw[i]? = some b)
    (hstart : a.span.start < b.span.start ∨ a.span.start = b.span.start ∧ p < i) (htouch : b.span.start ≤ a.span.stop) :
    x ∈ compareWith raw i [] p ↔ x = i ∧ Subsumes p i a b ∨ x = p ∧ Subsumes i p b a := by
  have ha' := a.span.proper
  have hb' := b.span.proper
  have htouches : a.Touches b := ⟨by omega, htouch⟩
  have htouches' : b.Touches a := ⟨htouch, by omega⟩
  have hmeets : a.span.Meets b.span ↔ b.span.start < a.span.stop := ⟨And.right, fun h => ⟨by omega, h⟩⟩
  have hmeets' : b.span.Meets a.span ↔ b.span.start < a.span.stop := ⟨And.left, fun h => ⟨h, by omega⟩⟩
  have hne : p ≠ i := by
    rintro rfl
    have hsame : a.span.start = b.span.start := by rw [Option.some.inj (ha.symm.trans hb)]
    omega
  have hrank : outranks a p b i = !outranks b i a p := by
    unfold outranks
    rw [Bool.eq_iff_iff, Bool.not_eq_true', decide_eq_true_iff, decide_eq_false_iff_not]
    omega
  unfold compareWith Subsumes
  rw [ha, hb]
  dsimp only
  rw [hmeets, hmeets', hrank]
  by_cases hcode : b.code = a.code
  · rw [if_neg (not_not.2 hcode)]
    cases hart : b.article with
    | none =>
      cases hart' : a.article with
      | none => simp [hcode]
      | some y => simp [hcode, htouches]
    | some y =>
      cases hart' : a.article with
      | none => simp [hcode, htouches']
      | some z =>
        by_cases hyz : y = z
        · subst hyz
          by_cases hlt : b.span.start < a.span.stop
          · cases outranks b i a p <;> simp [hcode, hlt]
          · simp [hcode, hlt]
        · simp [hcode, hyz, Ne.symm hyz]
  · rw [if_pos hcode]
    simp [hcode, Ne.symm hcode]

/-- A match is dropped exactly if another one subsumes it. -/
theorem mem_subsumed_iff (hb : raw[i]? = some b) :
    i ∈ subsumed raw ↔ ∃ j a, raw[j]? = some a ∧ Subsumes j i a b := by
  have hitems : ∀ o, ∀ k ∈ starts raw o, startOf raw k = o ∧ o ≤ endOf raw k := by
    intro o k hk
    obtain ⟨m, hm, hstart⟩ := mem_starts.1 hk
    have hproper := m.span.proper
    rw [startOf_eq hm, endOf_eq hm]
    omega
  have hadds : ∀ k s p, i ∈ compareWith raw k s p ↔ i ∈ s ∨ i ∈ compareWith raw k [] p :=
    fun k s p => mem_compareWith k s p
  have hsweep := sweep_iff (P := fun s => i ∈ s) hitems hadds n []
  unfold subsumed
  rw [hsweep]
  constructor
  · rintro (hnil | ⟨p, k, hpair, htouch, hadds⟩)
    · cases hnil
    have horder := List.pairwise_iff_forall_sublist.1 (swept_pairwise raw) hpair
    obtain ⟨a, ha⟩ := mem_swept.1 (hpair.subset List.mem_cons_self)
    obtain ⟨c, hc⟩ := mem_swept.1 (hpair.subset (List.mem_cons_of_mem _ List.mem_cons_self))
    rw [startOf_eq ha, startOf_eq hc] at horder
    rw [startOf_eq hc, endOf_eq ha] at htouch
    rcases (compareWith_iff ha hc horder htouch).1 hadds with ⟨rfl, hsub⟩ | ⟨rfl, hsub⟩
    · rw [← Option.some.inj (hc.symm.trans hb)]
      exact ⟨p, a, ha, hsub⟩
    · rw [← Option.some.inj (ha.symm.trans hb)]
      exact ⟨k, c, hc, hsub⟩
  · rintro ⟨j, a, ha, hsub⟩
    refine Or.inr ?_
    have hne : j ≠ i := by
      rintro rfl
      obtain rfl := Option.some.inj (ha.symm.trans hb)
      rcases hsub.2 with ⟨hnone, hsome, -⟩ | ⟨-, -, -, hrank⟩
      · exact hsome hnone
      · unfold outranks at hrank
        simp at hrank
    have htouches : a.Touches b := by
      rcases hsub.2 with ⟨-, -, h⟩ | ⟨-, -, h, -⟩
      · exact h
      · exact ⟨h.1.le, h.2.le⟩
    rcases pair_sublist_or (mem_swept.2 ⟨a, ha⟩) (mem_swept.2 ⟨b, hb⟩) hne with hpair | hpair
    · have horder := List.pairwise_iff_forall_sublist.1 (swept_pairwise raw) hpair
      rw [startOf_eq ha, startOf_eq hb] at horder
      refine ⟨j, i, hpair, ?_, (compareWith_iff ha hb horder htouches.2).2 (Or.inl ⟨rfl, hsub⟩)⟩
      rw [startOf_eq hb, endOf_eq ha]
      exact htouches.2
    · have horder := List.pairwise_iff_forall_sublist.1 (swept_pairwise raw) hpair
      rw [startOf_eq ha, startOf_eq hb] at horder
      refine ⟨i, j, hpair, ?_, (compareWith_iff hb ha horder htouches.1).2 (Or.inr ⟨rfl, hsub⟩)⟩
      rw [startOf_eq ha, endOf_eq hb]
      exact htouches.1

/-! ## Nothing is lost -/

theorem mem_filteredMatches {m : RawMatch n} : m ∈ filteredMatches raw ↔ ∃ i, raw[i]? = some m ∧ i ∉ subsumed raw := by
  unfold filteredMatches
  simp only [List.mem_map, List.mem_filter, decide_eq_true_eq, Prod.exists, List.mem_zipIdx_iff_getElem?]
  constructor
  · rintro ⟨m', i, ⟨hm, hi⟩, rfl⟩
    exact ⟨i, hm, hi⟩
  · rintro ⟨i, hm, hi⟩
    exact ⟨m, i, ⟨hm, hi⟩, rfl⟩

/-- From a match with an article one gets by ever higher ranks to one with the same article that is kept. -/
theorem exists_kept (i : Nat) (b : RawMatch n) (hb : raw[i]? = some b) (harticle : b.article ≠ none) :
    ∃ m ∈ filteredMatches raw, m.code = b.code ∧ m.article = b.article := by
  by_cases hi : i ∈ subsumed raw
  · obtain ⟨j, a, ha, hcode, hsub⟩ := (mem_subsumed_iff hb).1 hi
    obtain ⟨-, hsame, -, hrank⟩ := hsub.resolve_left fun h => harticle h.1
    have hlower : (n - a.length, j).1 < (n - b.length, i).1 ∨ n - a.length = n - b.length ∧ j < i := by
      have hinside := a.span.inside
      unfold outranks RawMatch.length at hrank
      unfold RawMatch.length
      rw [decide_eq_true_iff] at hrank
      dsimp only
      omega
    obtain ⟨m, hm, hmcode, hmarticle⟩ := exists_kept j a ha (hsame ▸ harticle)
    exact ⟨m, hm, hmcode.trans hcode, hmarticle.trans hsame⟩
  · exact ⟨b, mem_filteredMatches.2 ⟨i, hb, hi⟩, rfl, rfl⟩
termination_by (n - b.length, i)
decreasing_by exact Prod.lex_def.2 hlower

theorem filteredMatches_eq (raw : List (RawMatch n)) : filteredMatches raw = unsubsumed raw := by
  unfold filteredMatches unsubsumed
  congr 1
  refine List.filter_congr fun p hp => ?_
  have hb := List.mem_zipIdx_iff_getElem?.1 hp
  rw [Bool.eq_iff_iff, decide_eq_true_iff, List.all_eq_true, mem_subsumed_iff hb]
  constructor
  · intro h q hq
    exact decide_eq_true fun hsub => h ⟨q.2, q.1, List.mem_zipIdx_iff_getElem?.1 hq, hsub⟩
  · rintro h ⟨j, a, ha, hsub⟩
    exact of_decide_eq_true (h (a, j) (List.mem_zipIdx_iff_getElem?.2 ha)) hsub

/-- The sweep keeps what the comparison of all pairs keeps. A match without an article is dropped exactly if it touches
one of its code with an article; what a match says is said by one that is kept, and its code in any case. -/
theorem filteredMatches_exact (raw : List (RawMatch n)) : filteredMatches raw = unsubsumed raw ∧
    (∀ i m, raw[i]? = some m → m.article = none →
      (i ∈ subsumed raw ↔ ∃ a ∈ raw, a.code = m.code ∧ a.article ≠ none ∧ a.Touches m)) ∧
    (∀ m ∈ raw, m.article ≠ none → (m.code, m.article) ∈ references raw) ∧
    ∀ m ∈ raw, ∃ article, (m.code, article) ∈ references raw := by
  have hreference : ∀ m ∈ filteredMatches raw, (m.code, m.article) ∈ references raw := fun m hm =>
    List.mem_eraseDups.2 (List.mem_map.2 ⟨m, hm, rfl⟩)
  have hnone : ∀ i m, raw[i]? = some m → m.article = none →
      (i ∈ subsumed raw ↔ ∃ a ∈ raw, a.code = m.code ∧ a.article ≠ none ∧ a.Touches m) := by
    intro i m hm harticle
    rw [mem_subsumed_iff hm]
    constructor
    · rintro ⟨j, a, ha, hcode, hsub⟩
      obtain ⟨-, hsome, htouches⟩ := hsub.resolve_right fun h => h.1 harticle
      exact ⟨a, List.mem_of_getElem? ha, hcode, hsome, htouches⟩
    · rintro ⟨a, ha, hcode, hsome, htouches⟩
      obtain ⟨j, hj⟩ := List.mem_iff_getElem?.1 ha
      exact ⟨j, a, hj, hcode, Or.inl ⟨harticle, hsome, htouches⟩⟩
  have hsome : ∀ m ∈ raw, m.article ≠ none → (m.code, m.article) ∈ references raw := by
    intro m hm harticle
    obtain ⟨i, hi⟩ := List.mem_iff_getElem?.1 hm
    obtain ⟨k, hk, hcode, hsame⟩ := exists_kept i m hi harticle
    exact hcode ▸ hsame ▸ hreference k hk
  refine ⟨filteredMatches_eq raw, hnone, hsome, fun m hm => ?_⟩
  by_cases harticle : m.article = none
  · obtain ⟨i, hi⟩ := List.mem_iff_getElem?.1 hm
    by_cases hkept : i ∈ subsumed raw
    · obtain ⟨a, ha, hcode, hsome', -⟩ := (hnone i m hi harticle).1 hkept
      exact ⟨a.article, hcode ▸ hsome a ha hsome'⟩
    · exact ⟨m.article, hreference m (mem_filteredMatches.2 ⟨i, hi, hkept⟩)⟩
  · exact ⟨m.article, hsome m hm harticle⟩

end

end Mesa.Legal
