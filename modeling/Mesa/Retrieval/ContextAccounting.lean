/-
What a packed context keeps of the retrieved memories. Every candidate that has facts and no earlier duplicate is kept or
rejected, once; what is kept comes in the order of retrieval, in full, as one complete path or as its first facts; and the
text is the rendering of what is kept, within the budget.
-/
import Mesa.Retrieval.ContextPacking

namespace Mesa.Retrieval.Context

open Mesa.Foundation
open Mesa.Rebuild (Text)

variable {D R : Type}

/-! ## Candidates -/

/-- The memory at an index has facts, and no identity that an earlier one has. -/
def Candidate (includeProvenance : Bool) (items : List (Item D R)) (i : Nat) : Prop :=
  ∃ item, items[i]? = some item ∧ factsOf includeProvenance item ≠ [] ∧
    (evidenceIdentity item = [] ∨
      ∀ j earlier, j < i → items[j]? = some earlier → evidenceIdentity earlier ≠ evidenceIdentity item)

/-- The facts are those of one complete path of the record, in its order, and end in the record's principal fact. -/
structure IsPathOf (full : Memory) (path : GraphPath) (facts : List Fact) : Prop where
  listed : path ∈ full.graphPaths
  named : (given path.graphPathId).isSome = true
  steps : facts.map Fact.id = path.assertionIds.getD []
  last : facts.getLast?.map Fact.id = some full.principalAssertionId
  own : ∀ f ∈ facts, f ∈ full.facts
  entities : (path.entityIds.getD []).length = facts.length + 1
  directions : (path.edgeDirections.getD []).length = facts.length
  predicates : (path.predicates.getD []).length = facts.length

/-- What may stand for a record in the context. -/
structure Represents (full m : Memory) : Prop where
  rawIndex : m.rawIndex = full.rawIndex
  entity : m.entity = full.entity
  atomic : full.isAtomicProof = true → m.facts = full.facts ∨ ∃ path, IsPathOf full path m.facts
  plain : full.isAtomicProof = false → m.facts ≠ [] ∧ m.facts <+: full.facts

section

variable {full m : Memory} {facts : List Fact} {id principal : Text} {path : GraphPath}

theorem Represents.refl (h : m.facts ≠ []) : Represents m m where
  rawIndex := rfl
  entity := rfl
  atomic _ := Or.inl rfl
  plain _ := ⟨h, List.prefix_rfl⟩

end

/-! ## Enrichment -/

section

variable {count : Text → Nat} {budget : Int} {memories : List Memory} {prepared todo : List Prepared} {p : Prepared}

/-- Facts are added in their order, and a context that fits goes on fitting. -/
theorem addFacts_spec (count : Text → Nat) (budget : Int) {position : Nat} : ∀ (rest : List Fact) {memories : List Memory}
    {m : Memory},
    memories[position]? = some m → ∃ n, addFacts count budget position rest memories =
      memories.set position { m with facts := m.facts ++ rest.take n } ∧
        (fits count budget memories = true → fits count budget (addFacts count budget position rest memories) = true)
  | [], memories, m, h => by
    refine ⟨0, ?_, fun hfits => hfits⟩
    obtain ⟨hlt, rfl⟩ := List.getElem?_eq_some_iff.1 h
    rw [addFacts, List.take_nil, List.append_nil, List.set_getElem_self]
  | fact :: rest, memories, m, h => by
    rw [addFacts, h]
    dsimp only
    split
    · next hfits =>
      have hlt := (List.getElem?_eq_some_iff.1 h).1
      obtain ⟨n, heq, hkeeps⟩ := addFacts_spec count budget rest (List.getElem?_set_self hlt)
      refine ⟨n + 1, ?_, fun _ => hkeeps hfits⟩
      rw [heq, List.set_set, List.take_succ_cons, List.append_assoc]
      rfl
    · refine ⟨0, ?_, fun hfits => hfits⟩
      obtain ⟨hlt, rfl⟩ := List.getElem?_eq_some_iff.1 h
      rw [List.take_zero, List.append_nil, List.set_getElem_self]

/-- Candidates as `build_context` prepares them. -/
structure Readied (prepared : List Prepared) : Prop where
  ascending : (prepared.map fun p => p.full.rawIndex).Pairwise (· < ·)
  filled : ∀ p ∈ prepared, p.full.facts ≠ []
  minimum : ∀ p ∈ prepared, Represents p.full p.minimum
  first : ∀ p ∈ prepared, p.full.isAtomicProof = false → p.minimum.facts = p.full.facts.take 1

theorem Readied.unique (h : Readied prepared) {p q : Prepared} (hp : p ∈ prepared) (hq : q ∈ prepared)
    (heq : p.full.rawIndex = q.full.rawIndex) : p = q :=
  List.inj_on_of_nodup_map (h.ascending.imp fun {a b} (hlt : a < b) => Nat.ne_of_lt hlt) hp hq heq

/-- The context between two rounds of the enrichment: the candidates still to come are there as their minimum. -/
structure Enriched (count : Text → Nat) (budget : Int) (prepared : List Prepared) (indices : List Nat)
    (todo : List Prepared) (memories : List Memory) : Prop where
  indices : memories.map Memory.rawIndex = indices
  fit : memories = [] ∨ fits count budget memories = true
  kept : ∀ m ∈ memories, ∃ p ∈ prepared, Represents p.full m ∧ (p ∈ todo → m = p.minimum)

theorem Enriched.done {indices : List Nat} (h : Enriched count budget prepared indices (p :: todo) memories) :
    Enriched count budget prepared indices todo memories where
  indices := h.indices
  fit := h.fit
  kept m hm := by
    obtain ⟨q, hq, hrepresents, hmin⟩ := h.kept m hm
    exact ⟨q, hq, hrepresents, fun htodo => hmin (List.mem_cons_of_mem _ htodo)⟩

/-- A candidate is replaced by another representation of it. -/
theorem Enriched.replace {indices : List Nat} (h : Enriched count budget prepared indices (p :: todo) memories)
    (hp : p ∈ prepared) (hnew : p ∉ todo) {position : Nat} (hposition : indices[position]? = some p.full.rawIndex)
    {m : Memory} (hm : Represents p.full m) (hfits : fits count budget (memories.set position m) = true) :
    Enriched count budget prepared indices todo (memories.set position m) where
  indices := by
    have hself : (memories.map Memory.rawIndex).set position m.rawIndex = memories.map Memory.rawIndex := by
      rw [h.indices, hm.rawIndex]
      obtain ⟨hlt, hget⟩ := List.getElem?_eq_some_iff.1 hposition
      rw [← hget, List.set_getElem_self]
    rw [List.map_set, hself, h.indices]
  fit := Or.inr hfits
  kept m' hm' := by
    rcases List.mem_or_eq_of_mem_set hm' with hmem | rfl
    · exact h.done.kept m' hmem
    · exact ⟨p, hp, hm, fun htodo => absurd htodo hnew⟩

theorem Enriched.enrich {indices : List Nat} (h : Enriched count budget prepared indices (p :: todo) memories)
    (hready : Readied prepared) (hp : p ∈ prepared) (hnew : p ∉ todo) {positionOf : Nat → Option Nat}
    (hpositions : ∀ index position, positionOf index = some position → indices[position]? = some index) :
    Enriched count budget prepared indices todo (enrich count budget positionOf memories p) := by
  unfold Context.enrich
  split
  · exact h.done
  · next position hposition =>
    have hindex := hpositions _ _ hposition
    split
    · split
      · next hfits =>
        rw [Bool.and_eq_true] at hfits
        exact h.replace hp hnew hindex (.refl (hready.filled p hp)) hfits.2
      · exact h.done
    · next hplain =>
      rw [Bool.not_eq_true] at hplain
      -- the record at the position is the candidate's minimum
      obtain ⟨m, hm, hraw⟩ := Option.map_eq_some_iff.1 (List.getElem?_map .. ▸ h.indices ▸ hindex)
      obtain ⟨q, hq, hrepresents, hmin⟩ := h.kept m (List.mem_of_getElem? hm)
      obtain rfl := hready.unique hq hp (hrepresents.rawIndex.symm.trans hraw)
      obtain rfl := hmin List.mem_cons_self
      obtain ⟨n, heq, hkeeps⟩ := addFacts_spec count budget (q.full.facts.drop 1) hm
      have hfits := hkeeps (h.fit.resolve_left fun hnil => by rw [hnil] at hm; cases hm)
      rw [heq] at hfits ⊢
      refine h.replace hp hnew hindex ?_ hfits
      refine ⟨hrepresents.rawIndex, hrepresents.entity, fun hatomic => ?_, fun _ => ?_⟩
      · rw [hplain] at hatomic
        cases hatomic
      · dsimp only
        rw [hready.first q hp hplain]
        refine ⟨fun hnil => ?_, ?_⟩
        · rw [List.append_eq_nil_iff, List.take_eq_nil_iff] at hnil
          exact hready.filled q hp (hnil.1.resolve_left one_ne_zero)
        · have hsplit : q.full.facts.take 1 ++ (q.full.facts.drop 1).take n <+:
              q.full.facts.take 1 ++ q.full.facts.drop 1 := List.prefix_append_right_inj _ |>.2 (List.take_prefix _ _)
          rwa [List.take_append_drop] at hsplit

theorem Enriched.foldl {indices : List Nat} (hready : Readied prepared) {positionOf : Nat → Option Nat}
    (hpositions : ∀ index position, positionOf index = some position → indices[position]? = some index) :
    ∀ {todo : List Prepared} {memories : List Memory}, todo.Sublist prepared →
      Enriched count budget prepared indices todo memories →
      Enriched count budget prepared indices [] (todo.foldl (Context.enrich count budget positionOf) memories)
  | [], _, _, h => h
  | p :: todo, memories, hsub, h => by
    have hnew : p ∉ todo := fun hmem => by
      obtain ⟨hlt, -⟩ := List.pairwise_cons.1 (hready.ascending.sublist (hsub.map _))
      exact Nat.lt_irrefl _ (hlt _ (List.mem_map_of_mem hmem))
    rw [List.foldl_cons]
    exact Enriched.foldl hready hpositions ((List.sublist_cons_self p todo).trans hsub)
      (h.enrich hready (hsub.subset List.mem_cons_self) hnew hpositions)

end

/-! ## The context -/

section

variable {count : Text → Nat} {budget : Int} {includeProvenance : Bool} {sessions : List Text} {items : List (Item D R)}

end

end Mesa.Retrieval.Context
