/-
What the copy of a graph keeps. The digest compares the ordered rows of two artifacts, kind after
kind, so it tells an artifact from a different one and knows a faithful one in any order of its rows
exactly where nothing was lost in the snapshot, rows that tie are equal, and the rows of the two
relations between assertions and entities can be divided in one way only.
-/
import Mesa.Migration.GraphStore
import Mesa.Migration.Recovery

namespace Mesa.Migration

open Mesa.Foundation

variable {F : Type}

/-! ## The digest tells artifacts apart -/

/-- The rows of a kind with this many cells, among those with so many. -/
theorem filter_cells {α : Type} {f : α → List (Cell F)} {n : Nat} (hf : ∀ x, (f x).length = n) (l : List α) (k : Nat) :
    (l.map f).filter (fun r => r.length = k) = if n = k then l.map f else [] := by
  split
  · refine List.filter_eq_self.2 fun r hr => ?_
    obtain ⟨x, -, rfl⟩ := List.mem_map.1 hr
    simpa [hf x]
  · refine List.filter_eq_nil_iff.2 fun r hr => ?_
    obtain ⟨x, -, rfl⟩ := List.mem_map.1 hr
    simpa [hf x]

/-- The rows of one kind are those of its length. -/
theorem filter_rows (s : GraphSnapshot F) :
    s.rows.filter (fun r => r.length = 4) = s.nodes.map (·.row) ∧
      s.rows.filter (fun r => r.length = 6) = s.edges.map (·.row) ∧
      s.rows.filter (fun r => r.length = 17) = s.assertions.map (·.row) ∧
      s.rows.filter (fun r => r.length = 2) = (s.assertionSubjects ++ s.assertionObjects).map pairRow ∧
      s.rows.filter (fun r => r.length = 3) = s.assertionLinks.map linkRow := by
  unfold GraphSnapshot.rows
  have hnode : ∀ x : EntityNode, (x.row (F := F)).length = 4 := fun _ => rfl
  have hedge : ∀ x : ObservedEdge F, x.row.length = 6 := fun _ => rfl
  have hassertion : ∀ x : AssertionNode F, x.row.length = 17 := fun _ => rfl
  have hpair : ∀ x, (pairRow (F := F) x).length = 2 := fun _ => rfl
  have hlink : ∀ x, (linkRow (F := F) x).length = 3 := fun _ => rfl
  simp only [List.filter_append, List.map_append, filter_cells hnode, filter_cells hedge, filter_cells hassertion,
    filter_cells hpair, filter_cells hlink]
  simp

theorem rows_eq_iff {s s' : GraphSnapshot F} : s.rows = s'.rows ↔ s.nodes = s'.nodes ∧ s.edges = s'.edges ∧
    s.assertions = s'.assertions ∧ s.assertionSubjects ++ s.assertionObjects =
      s'.assertionSubjects ++ s'.assertionObjects ∧ s.assertionLinks = s'.assertionLinks := by
  constructor
  · intro h
    obtain ⟨h₁, h₂, h₃, h₄, h₅⟩ := filter_rows s
    obtain ⟨h₁', h₂', h₃', h₄', h₅'⟩ := filter_rows s'
    rw [h] at h₁ h₂ h₃ h₄ h₅
    refine ⟨?_, ?_, ?_, ?_, ?_⟩
    · refine List.map_injective_iff.2 (fun x y hxy => ?_) (h₁.symm.trans h₁')
      cases x; cases y; simpa [EntityNode.row] using hxy
    · refine List.map_injective_iff.2 (fun x y hxy => ?_) (h₂.symm.trans h₂')
      cases x; cases y; simpa [ObservedEdge.row] using hxy
    · refine List.map_injective_iff.2 (fun x y hxy => ?_) (h₃.symm.trans h₃')
      cases x; cases y; simpa [AssertionNode.row] using hxy
    · refine List.map_injective_iff.2 (fun x y hxy => ?_) (h₄.symm.trans h₄')
      cases x; cases y; simpa [pairRow] using hxy
    · refine List.map_injective_iff.2 (fun x y hxy => ?_) (h₅.symm.trans h₅')
      obtain ⟨x₁, x₂, x₃⟩ := x
      obtain ⟨y₁, y₂, y₃⟩ := y
      simpa [linkRow] using hxy
  · rintro ⟨h₁, h₂, h₃, h₄, h₅⟩
    have h₄ : s.assertionSubjects.map (pairRow (F := F)) ++ s.assertionObjects.map pairRow =
        s'.assertionSubjects.map pairRow ++ s'.assertionObjects.map pairRow := by
      rw [← List.map_append, h₄, List.map_append]
    unfold GraphSnapshot.rows
    rw [h₁, h₂, h₃, h₅, List.append_assoc _ (s.assertionSubjects.map _), h₄, ← List.append_assoc]

theorem digest_eq_iff (c : Encoding F) {s s' : GraphSnapshot F} :
    c.digestSnapshot s = c.digestSnapshot s' ↔ s.rows = s'.rows := by
  unfold Encoding.digestSnapshot
  refine ⟨fun h => ?_, fun h => by rw [h]⟩
  exact flatten_lines_injective c.repr_injective c.repr_line (c.sha256_injective h)

/-- An assertion in the current columns: what a newer column says where there is one. -/
def Graph.currentAssertion (g : Graph F) (a : AssertionNode F) : AssertionNode F :=
  { a.blank with
    objectType := if g.shape.objectType then a.objectType else .text (legacyObjectType g.assertionObjects a.id)
    representationVersion := if g.shape.representationVersion then a.representationVersion else .text "legacy-v0" }

/-! ## Content, and what a snapshot loses -/

/-- The same rows, each as often, in whatever order. -/
structure GraphSnapshot.Reordered (s s' : GraphSnapshot F) : Prop where
  nodes : s.nodes.Perm s'.nodes
  edges : s.edges.Perm s'.edges
  assertions : s.assertions.Perm s'.assertions
  subjects : s.assertionSubjects.Perm s'.assertionSubjects
  objects : s.assertionObjects.Perm s'.assertionObjects
  links : s.assertionLinks.Perm s'.assertionLinks

theorem GraphSnapshot.Reordered.refl (s : GraphSnapshot F) : s.Reordered s := ⟨.rfl, .rfl, .rfl, .rfl, .rfl, .rfl⟩

/-- The tables that a snapshot reads all or none of. -/
def Graph.hasRelations (g : Graph F) : Bool :=
  g.shape.assertion && g.shape.assertionSubject && g.shape.assertionObject && g.shape.assertionLink

/-- The assertion as a snapshot has it. -/
def Graph.readAssertion (g : Graph F) (a : AssertionNode F) : AssertionNode F :=
  if g.shape.objectType && g.shape.representationVersion then a.blank else a.legacy g.assertionObjects

/-- A snapshot has what the graph holds. -/
def Graph.Lossless (g : Graph F) : Prop :=
  ∀ a ∈ g.assertions, g.hasRelations = true ∧
    (g.shape.objectType = g.shape.representationVersion ∨ g.currentAssertion a = a.legacy g.assertionObjects)

/-- Without assertions there are no relations either. -/
theorem Graph.Consistent.relations_nil {g : Graph F} (hg : g.Consistent) (h : g.assertions = []) :
    g.assertionSubjects = [] ∧ g.assertionObjects = [] ∧ g.assertionLinks = [] := by
  refine ⟨List.eq_nil_iff_forall_not_mem.2 fun r hr => ?_, List.eq_nil_iff_forall_not_mem.2 fun r hr => ?_,
    List.eq_nil_iff_forall_not_mem.2 fun r hr => ?_⟩
  · simpa [h] using (hg.subjects r hr).1
  · simpa [h] using (hg.objects r hr).1
  · simpa [h] using (hg.links r hr).1

/-- An artifact of the current shape loses nothing. -/
theorem lossless_of_current {g : Graph F} (h : g.shape = .current) : g.Lossless := by
  intro a _
  simp [Graph.hasRelations, h, Shape.current]

theorem legacyObjectType_perm {objects objects' : List (String × String)} (h : objects.Perm objects') (i : String) :
    legacyObjectType objects i = legacyObjectType objects' i := by
  unfold legacyObjectType
  exact if_congr (h.map _).mem_iff rfl rfl

section

variable [Zero F]

/-- What an artifact holds, in the current columns and in the order in which it holds it. -/
def Graph.content (g : Graph F) : GraphSnapshot F where
  nodes := g.entities.map fun e => if g.shape.isQuarantined then e else { e with isQuarantined := false }
  edges := g.observed.map fun e => if g.shape.epistemicUncertainty then e else { e with epistemicUncertainty := 0 }
  assertions := g.assertions.map g.currentAssertion
  assertionSubjects := g.assertionSubjects
  assertionObjects := g.assertionObjects
  assertionLinks := g.assertionLinks

/-- The artifact of the current shape with these rows. -/
def GraphSnapshot.toGraph (s : GraphSnapshot F) : Graph F :=
  ⟨.current, s.nodes, s.edges, s.assertions, s.assertionSubjects, s.assertionObjects, s.assertionLinks⟩

def GraphSnapshot.ordered (s : GraphSnapshot F) : GraphSnapshot F where
  nodes := orderBy (·.id) s.nodes
  edges := orderBy (·.ends) s.edges
  assertions := orderBy (·.id) s.assertions
  assertionSubjects := orderBy toLex s.assertionSubjects
  assertionObjects := orderBy toLex s.assertionObjects
  assertionLinks := orderBy linkEnds s.assertionLinks

/-- Two artifacts hold the same rows. -/
abbrev Faithful (g copy : Graph F) : Prop := g.content.Reordered copy.content

theorem snapshot_nodes (g : Graph F) : g.nodes = orderBy (·.id) g.content.nodes := by
  unfold Graph.nodes query Graph.content
  cases g.shape.isQuarantined
  · exact map_orderBy (k := fun e : EntityNode => e.id) (fun _ => rfl) _
  · simp [recoverWith]

theorem snapshot_edges (g : Graph F) : g.edges = orderBy (·.ends) g.content.edges := by
  unfold Graph.edges query Graph.content
  cases g.shape.epistemicUncertainty
  · exact map_orderBy (k := fun e : ObservedEdge F => e.ends) (fun _ => rfl) _
  · simp [recoverWith]

/-- With all its tables, a graph is read in full, up to the newer columns of its assertions. -/
theorem snapshot_of_relations {g : Graph F} (h : g.hasRelations = true) :
    g.snapshot = { g.content.ordered with assertions := orderBy (·.id) (g.assertions.map g.readAssertion) } := by
  unfold Graph.hasRelations at h
  simp only [Bool.and_eq_true] at h
  obtain ⟨⟨⟨ha, hs⟩, ho⟩, hl⟩ := h
  have hassertions : g.readAssertions (orderBy toLex g.assertionObjects) =
      .ok (orderBy (·.id) (g.assertions.map g.readAssertion)) := by
    unfold Graph.readAssertions query Graph.readAssertion
    rw [ha, Bool.true_and]
    cases g.shape.objectType && g.shape.representationVersion
    · refine congrArg Except.ok ((map_orderBy (k := fun a : AssertionNode F => a.id) (fun _ => rfl) _).trans ?_)
      refine congrArg _ (List.map_congr_left fun a _ => ?_)
      simp only [AssertionNode.legacy, legacyObjectType_perm (orderBy_perm toLex g.assertionObjects)]
      rfl
    · exact congrArg Except.ok (map_orderBy (k := fun a : AssertionNode F => a.id) (fun _ => rfl) _)
  have hread : g.readRelations = .ok { g.content.ordered with
      assertions := orderBy (·.id) (g.assertions.map g.readAssertion) } := by
    unfold Graph.readRelations
    rw [ha, hs, ho, hl]
    change (do
      let assertions ← g.readAssertions (orderBy toLex g.assertionObjects)
      pure _ : Except String (GraphSnapshot F)) = _
    rw [hassertions, snapshot_nodes, snapshot_edges]
    rfl
  unfold Graph.snapshot recoverWith
  rw [hread]

/-- Without one of its tables, none of them is read. -/
theorem snapshot_without {g : Graph F} (h : g.hasRelations = false) : g.snapshot = ⟨g.nodes, g.edges, [], [], [], []⟩ := by
  have hread : ∃ e, g.readRelations = .error e := by
    unfold Graph.readRelations Graph.readAssertions query
    unfold Graph.hasRelations at h
    cases ha : g.shape.assertion <;> cases hs : g.shape.assertionSubject <;> cases ho : g.shape.assertionObject <;>
      cases hl : g.shape.assertionLink <;> simp [ha, hs, ho, hl] at h ⊢ <;> exact ⟨_, rfl⟩
  obtain ⟨e, he⟩ := hread
  unfold Graph.snapshot recoverWith
  rw [he]

/-- A snapshot that loses nothing is the content in order. -/
theorem Graph.Lossless.snapshot {g : Graph F} (h : g.Lossless) (hg : g.Consistent) :
    g.snapshot = g.content.ordered := by
  by_cases hnone : g.assertions = []
  · obtain ⟨hs, ho, hl⟩ := hg.relations_nil hnone
    cases hrel : g.hasRelations
    · rw [snapshot_without hrel, snapshot_nodes, snapshot_edges]
      simp only [GraphSnapshot.ordered, Graph.content, hnone, hs, ho, hl]
      rfl
    · rw [snapshot_of_relations hrel]
      simp only [GraphSnapshot.ordered, Graph.content, hnone]
      rfl
  · obtain ⟨a, l, hl⟩ := List.exists_cons_of_ne_nil hnone
    rw [snapshot_of_relations (h a (by rw [hl]; exact List.mem_cons_self ..)).1]
    refine congrArg (fun x => { g.content.ordered with assertions := orderBy (·.id) x }) (List.map_congr_left ?_)
    intro b hb
    rcases (h b hb).2 with hcolumns | hlegacy
    · unfold Graph.readAssertion Graph.currentAssertion
      rw [hcolumns]
      cases g.shape.representationVersion <;> rfl
    · unfold Graph.readAssertion
      split
      · next hboth =>
        simp only [Bool.and_eq_true] at hboth
        unfold Graph.currentAssertion
        rw [hboth.1, hboth.2]
        rfl
      · exact hlegacy.symm

/-- What the validator accepts. -/
theorem validate_iff (c : Encoding F) (pathHash : String) (fingerprint : Graph F → String) (g copy : Graph F) :
    (graphEngine c pathHash fingerprint).validate g.snapshot (some copy) = .returns ↔
      copy.snapshot.rows = g.snapshot.rows := by
  rw [← digest_eq_iff c]
  unfold Engine.validate graphEngine
  simp only
  split
  · next h => exact iff_of_false (by simp) h
  · next h => exact iff_of_true rfl (not_not.1 h)

/-! ## The condition -/

/-- Rows that tie under the order of their query are equal. -/
structure Graph.TieFree (g : Graph F) : Prop where
  edges : ∀ x ∈ g.content.edges, ∀ y ∈ g.content.edges, x.ends = y.ends → x = y
  links : ∀ x ∈ g.content.assertionLinks, ∀ y ∈ g.content.assertionLinks, linkEnds x = linkEnds y → x = y

/-- The ordered subjects and objects of assertions, one after the other, are divided in one way. -/
def Graph.Divided (g : Graph F) : Prop :=
  UniqueSplit toLex (orderBy toLex g.assertionSubjects) (orderBy toLex g.assertionObjects)

/-- What the validator compares, for an artifact of the current shape. -/
theorem current_rows_iff {g copy : Graph F} (hcopy : copy.Consistent) (hshape : copy.shape = .current) :
    copy.snapshot.rows = g.snapshot.rows ↔ copy.content.ordered.nodes = g.snapshot.nodes ∧
      copy.content.ordered.edges = g.snapshot.edges ∧ copy.content.ordered.assertions = g.snapshot.assertions ∧
      copy.content.ordered.assertionSubjects ++ copy.content.ordered.assertionObjects =
        g.snapshot.assertionSubjects ++ g.snapshot.assertionObjects ∧
      copy.content.ordered.assertionLinks = g.snapshot.assertionLinks := by
  rw [(lossless_of_current hshape).snapshot hcopy, rows_eq_iff]

theorem content_ids (g : Graph F) : g.content.nodes.map (·.id) = g.entities.map (·.id) ∧
    g.content.assertions.map (·.id) = g.assertions.map (·.id) := by
  unfold Graph.content
  simp only [List.map_map]
  refine ⟨List.map_congr_left fun e _ => ?_, List.map_congr_left fun a _ => rfl⟩
  simp only [Function.comp_apply]
  split <;> rfl

/-- Rows with distinct ids do not tie. -/
theorem eq_of_ids {α : Type} {id : α → String} {l : List α} (h : (l.map id).Nodup) :
    ∀ x ∈ l, ∀ y ∈ l, id x = id y → x = y :=
  fun _ hx _ hy hid => List.inj_on_of_nodup_map h hx hy hid

theorem accepted_iff_faithful {g copy : Graph F} (hg : g.Consistent) (hlossless : g.Lossless) (hties : g.TieFree)
    (hdivided : g.Divided) (hcopy : copy.Consistent) (hshape : copy.shape = .current) :
    copy.snapshot.rows = g.snapshot.rows ↔ Faithful g copy := by
  rw [current_rows_iff hcopy hshape, hlossless.snapshot hg]
  constructor
  · rintro ⟨h₁, h₂, h₃, h₄, h₅⟩
    obtain ⟨hs, ho⟩ := split_of_unique h₄.symm hdivided (orderBy_sorted toLex _) (orderBy_sorted toLex _)
    exact ⟨perm_of_orderBy_eq h₁.symm, perm_of_orderBy_eq h₂.symm, perm_of_orderBy_eq h₃.symm, perm_of_orderBy_eq hs,
      perm_of_orderBy_eq ho, perm_of_orderBy_eq h₅.symm⟩
  · intro h
    have hpairs : ∀ l : List (String × String), ∀ x ∈ l, ∀ y ∈ l, toLex x = toLex y → x = y :=
      fun _ _ _ _ _ hxy => toLex.injective hxy
    refine ⟨?_, ?_, ?_, ?_, ?_⟩
    · exact (orderBy_congr (eq_of_ids (by rw [(content_ids g).1]; exact hg.entities)) h.nodes).symm
    · exact (orderBy_congr hties.edges h.edges).symm
    · exact (orderBy_congr (eq_of_ids (by rw [(content_ids g).2]; exact hg.assertions)) h.assertions).symm
    · exact congr_arg₂ (· ++ ·) (orderBy_congr (hpairs _) h.subjects).symm (orderBy_congr (hpairs _) h.objects).symm
    · exact (orderBy_congr hties.links h.links).symm

/-! ## Copies -/

theorem content_toGraph {s : GraphSnapshot F} (h : ∀ a ∈ s.assertions, a.blank = a) : s.toGraph.content = s := by
  unfold GraphSnapshot.toGraph Graph.content
  obtain ⟨nodes, edges, assertions, subjects, objects, links⟩ := s
  simp only [Shape.current, if_true, List.map_id', GraphSnapshot.mk.injEq, and_true, true_and]
  exact (List.map_congr_left h).trans (List.map_id' _)

/-- Rows of a consistent graph, of which no entity and no assertion is missing. -/
theorem toGraph_consistent {g : Graph F} (hg : g.Consistent) {s : GraphSnapshot F} (hn : g.content.nodes.Perm s.nodes)
    (ha : g.content.assertions.Perm s.assertions) (he : ∀ e ∈ s.edges, e ∈ g.content.edges)
    (hs : ∀ r ∈ s.assertionSubjects, r ∈ g.assertionSubjects ∨ r ∈ g.assertionObjects)
    (ho : ∀ r ∈ s.assertionObjects, r ∈ g.assertionSubjects ∨ r ∈ g.assertionObjects)
    (hl : ∀ r ∈ s.assertionLinks, r ∈ g.assertionLinks) : s.toGraph.Consistent := by
  have hnodes : (s.nodes.map (·.id)).Perm (g.entities.map (·.id)) := (content_ids g).1 ▸ (hn.map _).symm
  have hassertions : (s.assertions.map (·.id)).Perm (g.assertions.map (·.id)) := (content_ids g).2 ▸ (ha.map _).symm
  have hends : ∀ r, r ∈ g.assertionSubjects ∨ r ∈ g.assertionObjects →
      r.1 ∈ s.assertions.map (·.id) ∧ r.2 ∈ s.nodes.map (·.id) := by
    rintro r (hr | hr)
    · exact ⟨hassertions.mem_iff.2 (hg.subjects r hr).1, hnodes.mem_iff.2 (hg.subjects r hr).2⟩
    · exact ⟨hassertions.mem_iff.2 (hg.objects r hr).1, hnodes.mem_iff.2 (hg.objects r hr).2⟩
  refine ⟨hnodes.nodup_iff.2 hg.entities, hassertions.nodup_iff.2 hg.assertions, fun e hmem => ?_,
    fun r hr => hends r (hs r hr), fun r hr => hends r (ho r hr), fun r hr => ?_, nofun, nofun, nofun, nofun⟩
  · obtain ⟨x, hx, rfl⟩ := List.mem_map.1 (he e hmem)
    have hx := hg.observed x hx
    have hboth : x.source ∈ s.nodes.map (·.id) ∧ x.target ∈ s.nodes.map (·.id) :=
      ⟨hnodes.mem_iff.2 hx.1, hnodes.mem_iff.2 hx.2⟩
    split <;> exact hboth
  · exact ⟨hassertions.mem_iff.2 (hg.links r (hl r hr)).1, hassertions.mem_iff.2 (hg.links r (hl r hr)).2⟩

/-- A graph with the content of another one, in whatever order, is a faithful copy. -/
theorem faithful_toGraph {g : Graph F} (hg : g.Consistent) {s : GraphSnapshot F} (h : g.content.Reordered s) :
    s.toGraph.Consistent ∧ s.toGraph.content = s ∧ Faithful g s.toGraph := by
  have hcontent : s.toGraph.content = s := by
    refine content_toGraph fun a ha => ?_
    obtain ⟨x, -, rfl⟩ := List.mem_map.1 (h.assertions.mem_iff.2 ha)
    rfl
  refine ⟨toGraph_consistent hg h.nodes h.assertions (fun e he => h.edges.mem_iff.2 he)
    (fun r hr => .inl (h.subjects.mem_iff.2 hr)) (fun r hr => .inr (h.objects.mem_iff.2 hr))
    (fun r hr => h.links.mem_iff.2 hr), hcontent, ?_⟩
  rw [Faithful, hcontent]
  exact h

/-- If every faithful copy is accepted and nothing else, then nothing was lost, no rows tie, and the
two relations can be told apart. -/
theorem condition_of_accepted {g : Graph F} (hg : g.Consistent) (h : ∀ copy : Graph F, copy.Consistent →
    copy.shape = .current → (copy.snapshot.rows = g.snapshot.rows ↔ Faithful g copy)) :
    g.Lossless ∧ g.TieFree ∧ g.Divided := by
  -- what every reordering of the content says about the snapshot
  have hread : ∀ s, g.content.Reordered s → s.ordered.nodes = g.snapshot.nodes ∧ s.ordered.edges = g.snapshot.edges ∧
      s.ordered.assertions = g.snapshot.assertions ∧ s.ordered.assertionSubjects ++ s.ordered.assertionObjects =
        g.snapshot.assertionSubjects ++ g.snapshot.assertionObjects ∧
      s.ordered.assertionLinks = g.snapshot.assertionLinks := by
    intro s hs
    obtain ⟨hconsistent, hcontent, hfaithful⟩ := faithful_toGraph hg hs
    have hrows := (current_rows_iff (g := g) hconsistent rfl).1 ((h _ hconsistent rfl).2 hfaithful)
    rwa [hcontent] at hrows
  obtain ⟨hnodes, hedges, hassertions, hpairs, hlinks⟩ := hread _ (.refl _)
  refine ⟨fun a ha => ?_, ⟨fun x hx y hy => ?_, fun x hx y hy => ?_⟩, ?_⟩
  · have hmem : g.currentAssertion a ∈ g.snapshot.assertions :=
      hassertions ▸ (orderBy_perm _ _).mem_iff.2 (List.mem_map_of_mem ha)
    have hrelations : g.hasRelations = true := by
      cases hrel : g.hasRelations
      · rw [snapshot_without hrel] at hmem; cases hmem
      · rfl
    refine ⟨hrelations, ?_⟩
    by_cases hcolumns : g.shape.objectType = g.shape.representationVersion
    · exact .inl hcolumns
    · -- with one of the two columns only, both are derived
      rw [snapshot_of_relations hrelations] at hmem
      obtain ⟨b, hb, heq⟩ := List.mem_map.1 ((orderBy_perm _ _).mem_iff.1 hmem)
      have hlegacy : ∀ x, g.readAssertion x = x.legacy g.assertionObjects := by
        intro x
        unfold Graph.readAssertion
        cases ht : g.shape.objectType <;> cases hv : g.shape.representationVersion <;> simp_all
      rw [hlegacy] at heq
      have hid : (b.legacy g.assertionObjects).id = (g.currentAssertion a).id := by rw [heq]
      change b.id = a.id at hid
      rw [eq_of_ids hg.assertions b hb a ha hid] at heq
      exact .inr heq.symm
  · refine eq_of_orderBy_congr (fun l hl => ?_) hx hy
    exact (hread { g.content with edges := l } { GraphSnapshot.Reordered.refl g.content with edges := hl }).2.1.trans
      hedges.symm
  · refine eq_of_orderBy_congr (fun l hl => ?_) hx hy
    exact (hread { g.content with assertionLinks := l }
      { GraphSnapshot.Reordered.refl g.content with links := hl }).2.2.2.2.trans hlinks.symm
  · by_contra hno
    obtain ⟨subjects, objects, happend, hsubjects, hobjects, hlength⟩ :=
      exists_split_of_not_unique (orderBy_sorted toLex _) (orderBy_sorted toLex _) hno
    have hfrom : ∀ r, r ∈ subjects ++ objects → r ∈ g.assertionSubjects ∨ r ∈ g.assertionObjects := by
      intro r hr
      rw [happend, List.mem_append] at hr
      exact hr.imp (orderBy_perm _ _).mem_iff.1 (orderBy_perm _ _).mem_iff.1
    -- the artifact with another division of the same rows
    have hconsistent := toGraph_consistent hg
      (s := { g.content with assertionSubjects := subjects, assertionObjects := objects }) .rfl .rfl (fun _ => id)
      (fun r hr => hfrom r (List.mem_append_left _ hr)) (fun r hr => hfrom r (List.mem_append_right _ hr)) fun _ => id
    have hcontent : { g.content with assertionSubjects := subjects, assertionObjects := objects }.toGraph.content =
        { g.content with assertionSubjects := subjects, assertionObjects := objects } := by
      refine content_toGraph fun a ha => ?_
      obtain ⟨x, -, rfl⟩ := List.mem_map.1 ha
      rfl
    have hfaithful := (h _ hconsistent rfl).1 ((current_rows_iff hconsistent rfl).2 (by
      rw [hcontent]
      refine ⟨hnodes, hedges, hassertions, ?_, hlinks⟩
      refine Eq.trans ?_ hpairs
      exact (congr_arg₂ (· ++ ·) (orderBy_of_sorted hsubjects) (orderBy_of_sorted hobjects)).trans happend))
    rw [Faithful, hcontent] at hfaithful
    exact hlength (hfaithful.subjects.length_eq.symm.trans (orderBy_perm toLex _).length_eq.symm)

end

/-! ## The artifact that is built -/

/-- A sequence of statements returns and leads from one artifact to another. -/
def Loads (statements : List (Graph F → Except String (Graph F))) (g g' : Graph F) : Prop :=
  (execute statements g).2 = .returns ∧ (execute statements g).1.getLastD g = g'

theorem Loads.cons {statement : Graph F → Except String (Graph F)} {rest : List (Graph F → Except String (Graph F))}
    {g g₁ g' : Graph F} (h : statement g = .ok g₁) (hrest : Loads rest g₁ g') : Loads (statement :: rest) g g' := by
  unfold Loads execute
  rw [h]
  exact ⟨hrest.1, (List.getLastD_cons ..).trans hrest.2⟩

theorem Loads.append {l l' : List (Graph F → Except String (Graph F))} {g g₁ g' : Graph F} (h : Loads l g g₁)
    (h' : Loads l' g₁ g') : Loads (l ++ l') g g' := by
  induction l generalizing g with
  | nil => cases h.2; exact h'
  | cons statement l ih =>
    unfold Loads execute at h
    cases hs : statement g with
    | error e => rw [hs] at h; cases h.1
    | ok g₂ =>
      rw [hs] at h
      exact Loads.cons hs (ih ⟨h.1, (List.getLastD_cons ..).symm.trans h.2⟩)

/-- Statements that each add one row. -/
theorem loads_map {α : Type} {create : α → Graph F → Except String (Graph F)} {p : List α → Graph F} {l : List α}
    (h : ∀ before x after, l = before ++ x :: after → create x (p before) = .ok (p (before ++ [x]))) :
    Loads (l.map create) (p []) (p l) := by
  suffices hfrom : ∀ after before, l = before ++ after → Loads (after.map create) (p before) (p l) from hfrom l [] rfl
  intro after
  induction after with
  | nil =>
    intro before heq
    rw [heq, List.append_nil]
    exact ⟨rfl, rfl⟩
  | cons x after ih =>
    intro before heq
    exact Loads.cons (h before x after heq) (ih (before ++ [x]) (by rw [heq]; simp))

/-- A row is not yet there when it is created. -/
theorem notMem_ids {α : Type} {id : α → String} {l before after : List α} {x : α} (h : (l.map id).Nodup)
    (heq : l = before ++ x :: after) : id x ∉ before.map id := by
  rw [heq, List.map_append, List.map_cons] at h
  intro hmem
  exact (List.nodup_append.1 h).2.2 _ hmem _ (List.mem_cons_self ..) rfl

/-- A snapshot is loaded in full into an artifact of the current shape. -/
theorem loads_statements {s : GraphSnapshot F} (hs : s.toGraph.Consistent) (hblank : ∀ a ∈ s.assertions, a.blank = a) :
    Loads s.statements .initial s.toGraph := by
  have hmem : ∀ {α : Type} {l before after : List α} {x : α}, l = before ++ x :: after → x ∈ l := by
    rintro α l before after x rfl
    simp
  unfold GraphSnapshot.statements
  refine (((((loads_map (p := fun l => ⟨.current, l, [], [], [], [], []⟩) ?_).append
    (loads_map (p := fun l => ⟨.current, s.nodes, l, [], [], [], []⟩) ?_)).append
    (loads_map (p := fun l => ⟨.current, s.nodes, s.edges, l, [], [], []⟩) ?_)).append
    (loads_map (p := fun l => ⟨.current, s.nodes, s.edges, s.assertions, l, [], []⟩) ?_)).append
    (loads_map (p := fun l => ⟨.current, s.nodes, s.edges, s.assertions, s.assertionSubjects, l, []⟩) ?_)).append
    (loads_map (p := fun l =>
      ⟨.current, s.nodes, s.edges, s.assertions, s.assertionSubjects, s.assertionObjects, l⟩) ?_)
  · exact fun before x after heq => if_neg (notMem_ids hs.entities heq)
  · exact fun before x after heq => congrArg Except.ok (if_pos (hs.observed x (hmem heq)))
  · intro before x after heq
    refine (if_neg (notMem_ids hs.assertions heq)).trans ?_
    rw [hblank x (hmem heq)]
  · exact fun before x after heq => congrArg Except.ok (if_pos (hs.subjects x (hmem heq)))
  · exact fun before x after heq => congrArg Except.ok (if_pos (hs.objects x (hmem heq)))
  · exact fun before x after heq => congrArg Except.ok (if_pos (hs.links x (hmem heq)))

theorem build_artifact {s : GraphSnapshot F} (hs : s.toGraph.Consistent) (hblank : ∀ a ∈ s.assertions, a.blank = a) :
    s.build.artifact = some s.toGraph := by
  unfold GraphSnapshot.build Builder.artifact
  rw [List.map_cons, List.getLastD_cons, List.getLastD_eq_getLast?, List.getLast?_map]
  have hlast := (loads_statements hs hblank).2
  rw [List.getLastD_eq_getLast?] at hlast
  rw [← hlast]
  cases (execute s.statements .initial).1.getLast? <;> rfl

/-! ## A run that returns -/

section Run

variable {A : Type} {env : Env} {q : RunRequest A} {t : Nat}

/-- The call says nothing about the states on the way nor about what it raises. -/
abbrev Ends {α : Type} (P : Disk A → Prop) (x : Action A α) (Q : α → Disk A → Prop) : Prop :=
  Durable.Leaves P x (fun _ => True) Q fun _ _ => True

theorem ends_raise {α : Type} {P : Disk A → Prop} {Q : α → Disk A → Prop} {e : MigrationError} :
    Ends P (Durable.raise e : Action A α) Q :=
  Durable.Leaves.raise fun _ _ => trivial

theorem ends_setState {P : Disk A → Prop} {m : String} {state : JournalState} {error : Option String}
    {Q : Unit → Disk A → Prop} (h : ∀ d, P d → Q () (d.setState m state error)) :
    Ends P (setState m state error) Q :=
  Durable.Leaves.write (fun _ _ => trivial) h

theorem ends_state_raise {α : Type} {P : Disk A → Prop} {m : String} {state : JournalState} {error : Option String}
    {e : MigrationError} {Q : α → Disk A → Prop} : Ends P (do
      setState m state error
      Durable.raise e) Q :=
  Durable.Leaves.bind (ends_setState (Q := fun _ _ => True) fun _ _ => trivial) fun _ => ends_raise

theorem ends_outcomeOf {P : Disk A → Prop} {m : String} : Ends P (outcomeOf m) fun _ => P :=
  (leaves_outcomeOf (C := fun _ => True)).mono (fun _ => id) (fun _ _ => trivial) (fun _ _ => id) fun _ _ _ => trivial

theorem ends_replace {source target : Place} {P Q : Disk A → Prop}
    (h : ∀ d a, P d → d.files source = some a → Q (d.move source target a)) :
    Ends P (replace env source target) fun _ => Q :=
  (leaves_replace fun d a hd ha => ⟨trivial, h d a hd ha⟩).mono (fun _ => id) (fun _ => id) (fun _ _ => id)
    fun _ _ _ => trivial

/-- The swap puts at the live path what is staged. -/
theorem ends_swap {m : String} {a : A} : Ends (fun d => d.files (.staging m t) = some a)
    (swap env m (.staging m t) (.rollback m t)) fun _ d => d.files .live = some a := by
  unfold swap
  refine Durable.Leaves.bind (Q := fun _ d => d.files (.staging m t) = some a) ?_ fun _ => ?_
  · unfold retireLive
    refine Durable.Leaves.bind_read fun d => Durable.Leaves.ite (fun _ => ?_) fun _ => Durable.Leaves.pure fun s hs => hs.2
    exact ends_replace fun s x hs _ => by simpa [Disk.move] using hs.2
  refine Durable.Leaves.bind (Q := fun _ d => d.files .live = some a) ?_ fun _ => ?_
  · refine Durable.Leaves.handle (D := fun _ _ => True) (ends_replace fun s x hs hx => ?_) fun _ => ends_state_raise
    rw [hs] at hx
    cases hx
    simp [Disk.move]
  · exact Durable.Leaves.bind (ends_setState fun _ => id) fun _ => ends_outcomeOf

/-- What a builder leaves at the staging path. -/
theorem ends_contents {p : Place} (contents : List (Option A)) (content : Option A) :
    Ends (fun d => d.files p = content)
      (Durable.forEach (fun content => Durable.write (·.put p content)) contents : Action A Unit)
      fun _ d => d.files p = contents.getLastD content := by
  induction contents generalizing content with
  | nil => exact Durable.Leaves.pure fun _ => id
  | cons next rest ih =>
    refine Durable.Leaves.bind (Q := fun _ d => d.files p = next)
      (Durable.Leaves.write (fun _ _ => trivial) fun d _ => Function.update_self ..) fun _ => ?_
    simp only [List.getLastD_cons]
    exact ih next

/-- The artifact that the builder has made is at the staging path. -/
def Built (q : RunRequest A) (t : Nat) (d : Disk A) : Prop :=
  ∃ a, q.buildStaging.artifact = some a ∧ d.files (.staging q.migrationId t) = some a

theorem ends_build : Ends (fun d => d.files (.staging q.migrationId t) = none) (build q (.staging q.migrationId t))
    fun _ => Built q t := by
  unfold build
  refine Durable.Leaves.bind (ends_contents _ none) fun _ => Durable.Leaves.bind_read fun d => ?_
  cases q.buildStaging.ending with
  | asksToResume e => exact ends_state_raise
  | raises e => exact ends_state_raise
  | returns =>
    refine Durable.Leaves.ite (fun _ => ends_state_raise) fun hmade => ends_setState ?_
    rintro s ⟨rfl, hs⟩
    obtain ⟨a, ha⟩ := Option.isSome_iff_exists.1 (not_not.1 hmade)
    exact ⟨a, hs.symm.trans ha, ha⟩

/-- What is live once a run returns is what the builder made and the validator accepted. -/
def Promoted (q : RunRequest A) (d : Disk A) : Prop :=
  ∃ a, q.buildStaging.artifact = some a ∧ q.validateStaging (some a) = .returns ∧ d.files .live = some a

theorem ends_promote {a : A} (ha : q.buildStaging.artifact = some a) (hvalid : q.validateStaging (some a) = .returns) :
    Ends (fun d => d.journal.lookup q.migrationId =
        some (q.record .validated t (.staging q.migrationId t) (some (.rollback q.migrationId t))) ∧
      d.files (.staging q.migrationId t) = some a) (promote env q.migrationId) fun _ => Promoted q := by
  unfold promote
  refine Durable.Leaves.bind_read fun d => Durable.Leaves.assume (fun s hs => hs.1 ▸ hs.2.1) fun hrow => ?_
  rw [hrow]
  refine Durable.Leaves.ite (fun _ => ends_raise) fun _ => Durable.Leaves.ite (fun _ => ends_raise) fun _ => ?_
  exact Durable.Leaves.bind (ends_setState fun s hs => hs.2.2) fun _ =>
    ends_swap.mono (fun _ => id) (fun _ => id) (fun _ s hs => ⟨a, ha, hvalid, hs⟩) fun _ _ => id

theorem ends_validateAndPromote : Ends (Built q t) (validateAndPromote env q t (.staging q.migrationId t))
    fun _ => Promoted q := by
  unfold validateAndPromote
  refine Durable.Leaves.bind_read fun d => Durable.Leaves.assume (fun s hs => hs.1 ▸ hs.2) fun hbuilt => ?_
  obtain ⟨a, ha, hfile⟩ := hbuilt
  rw [hfile]
  cases hvalid : q.validateStaging (some a) with
  | asksToResume e => exact ends_state_raise
  | raises e => exact ends_state_raise
  | returns =>
    refine Durable.Leaves.bind (Q := fun _ s => s.files (.staging q.migrationId t) = some a)
      (Durable.Leaves.write (fun _ _ => trivial) fun s hs => ?_) fun _ => ?_
    · rw [hs.1, hfile]; exact hfile
    refine Durable.Leaves.bind (Durable.Leaves.write (fun _ _ => trivial) fun s hs => ⟨?_, hs⟩) fun _ =>
      ends_promote ha hvalid
    exact (lookup_writeRecord s _ _).trans (if_pos rfl)

/-- A run of a migration without a row promotes what the builder makes. -/
theorem ends_run {d : Disk A} (hnew : d.journal.lookup q.migrationId = none) :
    Ends (fun s => s = d) (run env q) fun _ => Promoted q := by
  unfold run
  refine Durable.Leaves.ite (fun _ => ends_raise) fun _ => Durable.Leaves.ite (fun _ => ends_raise) fun _ => ?_
  refine Durable.Leaves.bind_read fun d' => Durable.Leaves.assume (fun s hs => hs.1.symm.trans hs.2) fun hd => ?_
  subst hd
  rw [hnew]
  unfold begin
  refine Durable.Leaves.bind_read fun d => Durable.Leaves.ite (fun _ => ends_raise) fun hfree => ?_
  refine Durable.Leaves.bind (Durable.Leaves.write (fun _ _ => trivial) fun s hs => ?_) fun _ =>
    Durable.Leaves.bind ends_build fun _ => ends_validateAndPromote
  rw [hs.1]
  exact Option.not_isSome_iff_eq_none.1 hfree

end Run

/-! ## The migration of a graph -/

variable [Zero F] (c : Encoding F) (pathHash : String) (fingerprint : Graph F → String)

/-- The schema migration of a graph keeps its content: what is promoted holds exactly that, with the
columns blanked, and the validator accepts the artifacts that do and no other ones. -/
structure Preserves (g : Graph F) : Prop where
  promoted : ∀ (env : Env) (d : Disk (Graph F)) (outcome : MigrationOutcome), d.files .live = some g →
    d.journal.lookup (graphEngine c pathHash fingerprint).migrationId = none →
    (migrateSchemaOffline env (graphEngine c pathHash fingerprint)).result d = .ok outcome →
    ∃ copy, ((migrateSchemaOffline env (graphEngine c pathHash fingerprint)).final d).files .live = some copy ∧
      Faithful g copy ∧ ∀ a ∈ copy.assertions, a.blank = a
  rejects : ∀ copy : Graph F, copy.Consistent → copy.shape = .current → ¬ Faithful g copy →
    (graphEngine c pathHash fingerprint).validate g.snapshot (some copy) ≠ .returns
  accepts : ∀ copy : Graph F, copy.Consistent → copy.shape = .current → Faithful g copy →
    (graphEngine c pathHash fingerprint).validate g.snapshot (some copy) = .returns

variable {c pathHash fingerprint}

/-- A migration that has no row yet promotes what it builds from the live graph. -/
theorem migrate_promotes {env : Env} {g : Graph F} {d : Disk (Graph F)} {outcome : MigrationOutcome}
    (hlive : d.files .live = some g)
    (hnew : d.journal.lookup (graphEngine c pathHash fingerprint).migrationId = none)
    (hok : (migrateSchemaOffline env (graphEngine c pathHash fingerprint)).result d = .ok outcome) :
    Promoted ((graphEngine c pathHash fingerprint).request g.snapshot (fingerprint g))
      ((migrateSchemaOffline env (graphEngine c pathHash fingerprint)).final d) := by
  have hends : Ends (fun s => s = d) (migrateSchemaOffline env (graphEngine c pathHash fingerprint))
      fun _ => Promoted ((graphEngine c pathHash fingerprint).request g.snapshot (fingerprint g)) := by
    unfold migrateSchemaOffline
    refine Durable.Leaves.bind (Q := fun promoted s => promoted = false ∧ s = d) ?_ fun promoted => ?_
    · unfold isPromoted
      refine Durable.Leaves.ite (fun _ => ends_raise) fun _ => Durable.Leaves.bind_read fun d' => ?_
      refine Durable.Leaves.pure fun s hs => ⟨?_, hs.2⟩
      rw [← hs.1, hs.2, hnew]
      rfl
    · refine Durable.Leaves.assume (fun s hs => hs.1) fun hpromoted => ?_
      rw [hpromoted]
      unfold migrateLive
      refine Durable.Leaves.bind_read fun d' => Durable.Leaves.assume (fun s hs => hs.1.symm.trans hs.2.2) fun hd => ?_
      rw [hd, hlive]
      exact (ends_run hnew).pre fun s hs => hs.2.2
  exact hends.returned d outcome rfl hok

/-- The schema migration of a graph keeps its content if and only if its snapshot loses nothing, the
rows that tie under the order of a query are equal, and the rows of the two relations between
assertions and entities can be divided in one way only. -/
theorem migration_preserves_iff (g : Graph F) (hg : g.Consistent) :
    Preserves c pathHash fingerprint g ↔ g.Lossless ∧ g.TieFree ∧ g.Divided := by
  constructor
  · intro h
    refine condition_of_accepted hg fun copy hcopy hshape => ?_
    rw [← validate_iff c pathHash fingerprint]
    refine ⟨fun hvalid => ?_, h.accepts copy hcopy hshape⟩
    by_contra hno
    exact h.rejects copy hcopy hshape hno hvalid
  · rintro ⟨hlossless, hties, hdivided⟩
    refine ⟨fun env d outcome hlive hnew hok => ?_, fun copy hcopy hshape hno hvalid => ?_,
      fun copy hcopy hshape hfaithful => ?_⟩
    · obtain ⟨copy, hbuilt, hvalid, hfile⟩ := migrate_promotes hlive hnew hok
      have hreordered : g.content.Reordered g.content.ordered :=
        ⟨(orderBy_perm _ _).symm, (orderBy_perm _ _).symm, (orderBy_perm _ _).symm, (orderBy_perm _ _).symm,
          (orderBy_perm _ _).symm, (orderBy_perm _ _).symm⟩
      obtain ⟨hconsistent, -, hfaithful⟩ := faithful_toGraph hg hreordered
      have hblank : ∀ a ∈ g.content.ordered.assertions, a.blank = a := by
        intro a ha
        obtain ⟨x, -, rfl⟩ := List.mem_map.1 ((orderBy_perm _ _).mem_iff.1 ha)
        rfl
      have hartifact : g.snapshot.build.artifact = some g.content.ordered.toGraph := by
        rw [hlossless.snapshot hg]
        exact build_artifact hconsistent hblank
      cases hbuilt.symm.trans hartifact
      exact ⟨_, hfile, hfaithful, hblank⟩
    · exact hno ((accepted_iff_faithful hg hlossless hties hdivided hcopy hshape).1 ((validate_iff c pathHash fingerprint g copy).1 hvalid))
    · exact (validate_iff c pathHash fingerprint g copy).2 ((accepted_iff_faithful hg hlossless hties hdivided hcopy hshape).2 hfaithful)

/-! ## An encoding -/

/-- A character in a quoted string. -/
def escape (ch : Char) : List Char :=
  if ch = '\n' then ['\\', 'n'] else if ch = '\\' then ['\\', '\\'] else if ch = '\'' then ['\\', '\''] else [ch]

/-- `repr` of a value, where the only number is `0.0`. -/
def Cell.code : Cell Unit → List Char
  | .text s => '\'' :: (s.toList.flatMap escape ++ ['\''])
  | .number _ => ['0', '.', '0']
  | .flag true => ['T', 'r', 'u', 'e']
  | .flag false => ['F', 'a', 'l', 's', 'e']
  | .none => ['N', 'o', 'n', 'e']

/-- `repr` of a tuple of more than one value. -/
def tupleCode : List (Cell Unit) → List Char
  | [] => [')']
  | [x] => x.code ++ [')']
  | x :: y :: row => x.code ++ ',' :: ' ' :: tupleCode (y :: row)

theorem escape_ne_quote {x : Char} {a r : List Char} : escape x ++ a ≠ '\'' :: r := by
  unfold escape
  split
  · simp
  · split
    · simp
    · split
      · simp
      · next h => exact fun heq => h (List.cons.inj heq).1

theorem escape_step {x y : Char} {a b : List Char} (h : escape x ++ a = escape y ++ b) : x = y ∧ a = b := by
  unfold escape at h
  by_cases hx₁ : x = '\n' <;> by_cases hx₂ : x = '\\' <;> by_cases hx₃ : x = '\'' <;>
    by_cases hy₁ : y = '\n' <;> by_cases hy₂ : y = '\\' <;> by_cases hy₃ : y = '\'' <;> simp_all
  all_goals exact absurd h.1.symm hy₂

theorem escape_cancel {l l' r r' : List Char} (h : l.flatMap escape ++ '\'' :: r = l'.flatMap escape ++ '\'' :: r') :
    l = l' ∧ r = r' := by
  induction l generalizing l' with
  | nil =>
    cases l' with
    | nil => exact ⟨rfl, (List.cons.inj h).2⟩
    | cons y l' =>
      rw [List.flatMap_cons, List.append_assoc] at h
      exact absurd h.symm escape_ne_quote
  | cons x l ih =>
    rw [List.flatMap_cons, List.append_assoc] at h
    cases l' with
    | nil => exact absurd h escape_ne_quote
    | cons y l' =>
      rw [List.flatMap_cons, List.append_assoc] at h
      obtain ⟨rfl, hrest⟩ := escape_step h
      obtain ⟨rfl, hr⟩ := ih hrest
      exact ⟨rfl, hr⟩

theorem code_cancel {x y : Cell Unit} {r r' : List Char} (h : x.code ++ r = y.code ++ r') : x = y ∧ r = r' := by
  rcases x with s | ⟨⟩ | (_ | _) | _ <;> rcases y with s' | ⟨⟩ | (_ | _) | _ <;>
    simp only [Cell.code, List.cons_append, List.append_assoc, List.nil_append, List.cons.injEq, true_and] at h <;>
    simp_all
  obtain ⟨hs, hr⟩ := escape_cancel h
  exact ⟨String.toList_injective hs, hr⟩

theorem code_ne_close {x : Cell Unit} {a b : List Char} : x.code ++ a ≠ ')' :: b := by
  rcases x with s | ⟨⟩ | (_ | _) | _ <;> simp [Cell.code]

theorem tupleCode_injective : Function.Injective tupleCode := by
  intro l
  induction l using tupleCode.induct with
  | case1 =>
    rintro (_ | ⟨x, _ | ⟨y, row⟩⟩) h
    · rfl
    · exact absurd h.symm code_ne_close
    · exact absurd h.symm code_ne_close
  | case2 x =>
    rintro (_ | ⟨x', _ | ⟨y', row'⟩⟩) h
    · exact absurd h code_ne_close
    · rw [(code_cancel h).1]
    · exact absurd (code_cancel h).2 (by simp)
  | case3 x y row ih =>
    rintro (_ | ⟨x', _ | ⟨y', row'⟩⟩) h
    · exact absurd h code_ne_close
    · exact absurd (code_cancel h).2 (by simp)
    · obtain ⟨rfl, hrest⟩ := code_cancel h
      simp only [List.cons.injEq, true_and] at hrest
      rw [ih hrest]

theorem newline_notMem (row : List (Cell Unit)) : '\n' ∉ tupleCode row := by
  have hescape : ∀ ch, '\n' ∉ escape ch := by
    intro ch
    unfold escape
    split
    · simp
    · next h =>
      split
      · simp
      · split
        · simp
        · exact fun hmem => h (List.mem_singleton.1 hmem).symm
  have hcode : ∀ x : Cell Unit, '\n' ∉ x.code := by
    rintro (s | ⟨⟩ | (_ | _) | _)
    · simp only [Cell.code, List.mem_cons, List.mem_append, List.mem_flatMap, List.not_mem_nil, or_false, not_or]
      exact ⟨by decide, fun ⟨ch, _, hch⟩ => hescape ch hch, by decide⟩
    all_goals simp [Cell.code]
  induction row using tupleCode.induct with
  | case1 => decide
  | case2 x => simp [tupleCode, hcode x]
  | case3 x y row ih => simp [tupleCode, hcode x, ih]
/-- The encoding of graphs whose only number is `0.0`. -/
def tupleEncoding : Encoding Unit where
  repr := tupleCode
  repr_injective := tupleCode_injective
  repr_line := newline_notMem
  sha256 := String.ofList
  sha256_injective _ _ := String.ofList_injective

/-! ## A graph and a different one that is accepted -/

/-- A graph of one assertion about one entity; `subject` says which relation holds between them. -/
def twoNodes (subject : Bool) : Graph Unit where
  shape := .current
  entities := [⟨"t::e", "Ada", "t", false⟩]
  observed := []
  assertions := [⟨"t::a", .text "t", .text "born_in", .text "", .text "", .text "", .text "", .text "", .text "",
    .text "", .text "", .number (), .text "ACTIVE", .text "m", .text "", .text "LITERAL", .text "v1"⟩]
  assertionSubjects := if subject then [("t::a", "t::e")] else []
  assertionObjects := if subject then [] else [("t::a", "t::e")]
  assertionLinks := []

theorem twoNodes_consistent (subject : Bool) : (twoNodes subject).Consistent := by
  refine ⟨by decide +revert, by decide +revert, by decide +revert, by decide +revert, by decide +revert,
    by decide +revert, nofun, nofun, nofun, nofun⟩

theorem migration_preserves_iff_twoNodes : Preserves tupleEncoding "0f" (fun _ => "sha256") (twoNodes true) ↔
    (twoNodes true).Lossless ∧ (twoNodes true).TieFree ∧ (twoNodes true).Divided :=
  migration_preserves_iff (twoNodes true) (twoNodes_consistent true)

/-- The entity of an assertion becomes its object instead of its subject, and the validator accepts
that. -/
theorem different_graph_accepted : ¬ Preserves tupleEncoding "0f" (fun _ => "sha256") (twoNodes true) := by
  intro h
  refine h.rejects (twoNodes false) (twoNodes_consistent false) rfl (fun hfaithful => ?_) ?_
  · exact absurd hfaithful.subjects.length_eq (by decide)
  · exact (validate_iff _ _ _ _ _).2 (by decide +kernel)

end Mesa.Migration
