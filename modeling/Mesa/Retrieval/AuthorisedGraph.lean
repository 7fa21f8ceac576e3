/-
The graph search reads the authorised part of the graph. The rows in scope of an expansion come from the assertions in
scope between entities in scope, in the order of their insertion; so two graphs with the same authorised part give the
same paths round by round, as long as the store's limit cuts off no row in scope. The limit counts the other rows too.
-/
import Mesa.Retrieval.SimplePaths

namespace Mesa.Retrieval.Traversal

open Mesa.Foundation

variable (G G' : TenantGraph) (R : Rounding) (T : PathTexts) (r : TraversalRequest)

/-- The assertion and both of its endpoints are allowed. -/
def authorised (a : GraphAssertion) : Bool :=
  decide (a.id ∈ r.allowedAssertionIds) && decide (a.subjectId ∈ r.allowedEntityIds) &&
    decide (a.objectId ∈ r.allowedEntityIds)

/-- The two graphs have the same authorised part. -/
structure Agree : Prop where
  assertions : G.assertions.filter (authorised r) = G'.assertions.filter (authorised r)
  names : ∀ e ∈ r.allowedEntityIds, G.name e = G'.name e

/-- The limit cuts off no row in scope. -/
def Kept (srcIds : List String) : Prop :=
  (((G.allRows r.direction srcIds).1.take (fanoutLimit srcIds)).filter (usable R r) =
      (G.allRows r.direction srcIds).1.filter (usable R r)) ∧
    ((G.allRows r.direction srcIds).2.take (fanoutLimit srcIds)).filter (usable R r) =
      (G.allRows r.direction srcIds).2.filter (usable R r)

variable {G G' R T r}

/-! ## One expansion -/

/-- The rows in scope come from authorised assertions. -/
theorem filter_rows {p : GraphAssertion → Bool} (row : TenantGraph → GraphAssertion → ExpandRow)
    (hscope : ∀ G a, p a = true → usable R r (row G a) = true → authorised r a = true)
    (hrow : ∀ a, authorised r a = true → row G a = row G' a) (h : Agree G G' r) :
    ((G.assertions.filter p).map (row G)).filter (usable R r) =
      ((G'.assertions.filter p).map (row G')).filter (usable R r) := by
  have hauthorised : ∀ G₁ : TenantGraph, ((G₁.assertions.filter p).map (row G₁)).filter (usable R r) =
      (((G₁.assertions.filter (authorised r)).filter p).filter fun a => usable R r (row G₁ a)).map (row G₁) := by
    intro G₁
    rw [List.filter_map, List.filter_filter, List.filter_filter, List.filter_filter]
    congr 1
    refine List.filter_congr fun a _ => ?_
    cases hp : p a with
    | false => simp
    | true =>
      cases husable : usable R r (row G₁ a) with
      | false => simp [husable]
      | true => simp [husable, hscope G₁ a hp husable]
  rw [hauthorised, hauthorised, h.assertions]
  have hmem : ∀ a ∈ (G'.assertions.filter (authorised r)).filter p, row G a = row G' a := fun a ha =>
    hrow a (List.mem_filter.1 (List.mem_filter.1 ha).1).2
  have hsame : (((G'.assertions.filter (authorised r)).filter p).filter fun a => usable R r (row G a)) =
      ((G'.assertions.filter (authorised r)).filter p).filter fun a => usable R r (row G' a) :=
    List.filter_congr fun a ha => by rw [hmem a ha]
  rw [hsame]
  exact List.map_congr_left fun a ha => hmem a (List.mem_filter.1 ha).1

theorem filter_forwardRows (h : Agree G G' r) {srcIds : List String} (hsrc : ∀ s ∈ srcIds, s ∈ r.allowedEntityIds) :
    (G.forwardRows srcIds).filter (usable R r) = (G'.forwardRows srcIds).filter (usable R r) := by
  refine filter_rows
    (fun G a => ⟨a.subjectId, a.objectId, G.name a.objectId, a.id, a.predicate, a.confidence, a.jurisdiction, .forward⟩)
    (fun G₁ a hp husable => ?_) (fun a ha => ?_) h
  · obtain ⟨hentity, hassertion, -⟩ := usable_iff.1 husable
    simp only [Bool.and_eq_true, decide_eq_true_eq] at hp
    simp only [authorised, Bool.and_eq_true, decide_eq_true_eq]
    exact ⟨⟨hassertion, hsrc _ hp.1⟩, hentity⟩
  · simp only [authorised, Bool.and_eq_true, decide_eq_true_eq] at ha
    rw [h.names _ ha.2]

theorem filter_reverseRows (h : Agree G G' r) {srcIds : List String} (hsrc : ∀ s ∈ srcIds, s ∈ r.allowedEntityIds) :
    (G.reverseRows srcIds).filter (usable R r) = (G'.reverseRows srcIds).filter (usable R r) := by
  refine filter_rows
    (fun G a => ⟨a.objectId, a.subjectId, G.name a.subjectId, a.id, a.predicate, a.confidence, a.jurisdiction, .reverse⟩)
    (fun G₁ a hp husable => ?_) (fun a ha => ?_) h
  · obtain ⟨hentity, hassertion, -⟩ := usable_iff.1 husable
    simp only [Bool.and_eq_true, decide_eq_true_eq] at hp
    simp only [authorised, Bool.and_eq_true, decide_eq_true_eq]
    exact ⟨⟨hassertion, hentity⟩, hsrc _ hp.1⟩
  · simp only [authorised, Bool.and_eq_true, decide_eq_true_eq] at ha
    rw [h.names _ ha.1.2]

/-- The rows in scope of an expansion are the same on both graphs. -/
theorem filter_stepExpand (h : Agree G G' r) {srcIds : List String} (hsrc : ∀ s ∈ srcIds, s ∈ r.allowedEntityIds)
    (hkept : Kept G R r srcIds) (hkept' : Kept G' R r srcIds) :
    (G.stepExpand r.direction srcIds).filter (usable R r) = (G'.stepExpand r.direction srcIds).filter (usable R r) := by
  have hforward : (G.allRows r.direction srcIds).1.filter (usable R r) =
      (G'.allRows r.direction srcIds).1.filter (usable R r) := by
    unfold TenantGraph.allRows
    dsimp only
    split
    · exact filter_forwardRows h hsrc
    · rfl
  have hreverse : (G.allRows r.direction srcIds).2.filter (usable R r) =
      (G'.allRows r.direction srcIds).2.filter (usable R r) := by
    unfold TenantGraph.allRows
    dsimp only
    split
    · exact filter_reverseRows h hsrc
    · rfl
  unfold TenantGraph.stepExpand
  split
  · rfl
  · rw [List.filter_append, List.filter_append, hkept.1, hkept.2, hkept'.1, hkept'.2, hforward, hreverse]

/-! ## The rounds -/

theorem firstRound_congr {rows rows' : List ExpandRow} (h : rows.filter (usable R r) = rows'.filter (usable R r)) :
    firstRound R T r rows = firstRound R T r rows' := by
  unfold firstRound
  rw [h]

theorem nextRound_congr {hop : Nat} {prev : List TraversalPath} {seen : List PathKey} {rows rows' : List ExpandRow}
    (h : rows.filter (usable R r) = rows'.filter (usable R r)) :
    nextRound R T r hop prev seen rows = nextRound R T r hop prev seen rows' := by
  unfold nextRound
  rw [h]

theorem frontier_subset {paths : List TraversalPath} (h : ∀ p ∈ paths, p.target ∈ r.allowedEntityIds) :
    ∀ s ∈ frontier paths, s ∈ r.allowedEntityIds := by
  intro s hs
  have hmem := (orderBy_perm _ _).mem_iff.1 (List.mem_of_mem_take hs)
  obtain ⟨p, hp, rfl⟩ := List.mem_map.1 (List.mem_dedup.1 hmem)
  exact h p hp

theorem firstRound_allowed (rows : List ExpandRow) : ∀ p ∈ firstRound R T r rows, p.target ∈ r.allowedEntityIds := by
  intro p hp
  obtain ⟨row, hrow, rfl⟩ := List.mem_map.1 ((addPaths_spec _ _).1 p hp).1
  exact (usable_iff.1 (List.mem_filter.1 hrow).2).1

theorem nextRound_allowed {hop : Nat} {prev : List TraversalPath} {seen : List PathKey} (rows : List ExpandRow) :
    ∀ p ∈ nextRound R T r hop prev seen rows, p.target ∈ r.allowedEntityIds := by
  intro q hq
  obtain ⟨row, hrow, hq⟩ := List.mem_flatMap.1 ((addPaths_spec _ _).1 q hq).1
  obtain ⟨p, -, hextend⟩ := List.mem_filterMap.1 hq
  unfold extendPath at hextend
  split at hextend
  · cases hextend
  · obtain rfl := Option.some.inj hextend
    have htarget : (p.pathEntityIds ++ [row.dstId]).getLastD "" = row.dstId := by simp [List.getLastD_eq_getLast?]
    unfold TraversalPath.target
    dsimp only
    rw [htarget]
    exact (usable_iff.1 (List.mem_filter.1 hrow).2).1

theorem seedEntities_allowed : ∀ s ∈ seedEntities T r, s ∈ r.allowedEntityIds := by
  intro s hs
  have hs := (List.mem_filter.1 hs).2
  simp only [Bool.and_eq_true, decide_eq_true_eq] at hs
  exact hs.2

/-- Two graphs with the same authorised part have the same paths, where the limit cuts off no row in scope. -/
theorem searchPaths_congr (h : Agree G G' r) (hkept : ∀ srcIds ∈ sourcesAsked G R T r, Kept G R r srcIds)
    (hkept' : ∀ srcIds ∈ sourcesAsked G' R T r, Kept G' R r srcIds) :
    searchPaths G R T r = searchPaths G' R T r := by
  have hfirst : hop1Paths G R T r = hop1Paths G' R T r :=
    firstRound_congr (filter_stepExpand h seedEntities_allowed (hkept _ List.mem_cons_self) (hkept' _ List.mem_cons_self))
  have hsecond : hop2Paths G R T r = hop2Paths G' R T r := by
    unfold hop2Paths
    split
    · rfl
    · next hmax =>
      have hasked : ∀ G₁, frontier (hop1Paths G₁ R T r) ∈ sourcesAsked G₁ R T r := by
        intro G₁
        unfold sourcesAsked
        rw [if_neg hmax]
        simp
      have hkept₂ := hkept' _ (hasked G')
      rw [← hfirst] at hkept₂ ⊢
      refine nextRound_congr (filter_stepExpand h ?_ (hkept _ (hasked G)) hkept₂)
      exact frontier_subset (firstRound_allowed _)
  have hthird : hop3Paths G R T r = hop3Paths G' R T r := by
    unfold hop3Paths
    split
    · rfl
    · next hmax =>
      have hasked : ∀ G₁, frontier (hop2Paths G₁ R T r) ∈ sourcesAsked G₁ R T r := by
        intro G₁
        unfold sourcesAsked
        rw [if_neg hmax]
        simp
      have hallowed : ∀ p ∈ hop2Paths G R T r, p.target ∈ r.allowedEntityIds := by
        unfold hop2Paths
        split
        · exact fun p hp => absurd hp List.not_mem_nil
        · exact nextRound_allowed _
      have hkept₃ := hkept' _ (hasked G')
      rw [← hsecond] at hkept₃ ⊢
      rw [← hfirst]
      exact nextRound_congr (filter_stepExpand h (frontier_subset hallowed) (hkept _ (hasked G)) hkept₃)
  unfold searchPaths
  rw [hfirst, hsecond, hthird]

/-- The search gives the same ordered hits with the same paths on two graphs with the same authorised part, where the
limit cuts off no row in scope. -/
theorem searchV4Graph_authorised (h : Agree G G' r) (hkept : ∀ srcIds ∈ sourcesAsked G R T r, Kept G R r srcIds)
    (hkept' : ∀ srcIds ∈ sourcesAsked G' R T r, Kept G' R r srcIds) :
    searchV4Graph G R T r = searchV4Graph G' R T r := by
  unfold searchV4Graph
  rw [searchPaths_congr h hkept hkept']

/-! ## Graphs that differ out of scope -/

theorem singleton_unique (a : GraphAssertion) : ([a].map (·.id)).Nodup := List.nodup_singleton _

/-- The only assertion of the tenant that is in scope. -/
def granted : GraphAssertion := ⟨"granted", "s", "a", "p", none, ""⟩

def grantedGraph : TenantGraph := ⟨id, [granted], singleton_unique granted⟩

theorem extended_unique : ([⟨"hidden", "s", "a", "q", none, ""⟩, granted].map (·.id)).Nodup := by decide

/-- The same graph with an assertion out of scope. -/
def extendedGraph : TenantGraph := ⟨id, [⟨"hidden", "s", "a", "q", none, ""⟩, granted], extended_unique⟩

def grantedRequest : TraversalRequest where
  agentId := "t"
  seedEntityIds := ["s"]
  allowedEntityIds := ["s", "a"]
  allowedAssertionIds := ["granted"]
  assertionEvidence := []
  maxHops := 1
  limit := 1
  query := ""
  seedScores := []
  legalRulesEnabled := false
  direction := "any"

theorem searchV4Graph_authorised_extended :
    searchV4Graph grantedGraph exactRounding plainTexts grantedRequest =
      searchV4Graph extendedGraph exactRounding plainTexts grantedRequest := by
  refine searchV4Graph_authorised ⟨by decide, fun _ _ => rfl⟩ (fun srcIds h => ?_) (fun srcIds h => ?_)
  · obtain rfl : srcIds = ["s"] := List.mem_singleton.1 h
    exact ⟨by decide +kernel, by decide +kernel⟩
  · obtain rfl : srcIds = ["s"] := List.mem_singleton.1 h
    exact ⟨by decide +kernel, by decide +kernel⟩

/-- Assertions out of scope, as many as the limit of an expansion from one entity. -/
def crowd : List GraphAssertion :=
  (List.range 200).map fun i => ⟨String.ofList (List.replicate (i + 8) 'x'), "s", "a", "q", none, ""⟩

theorem crowd_unique : ((crowd ++ [granted]).map (·.id)).Nodup := by
  have hid : (crowd ++ [granted]).map (·.id) =
      ((List.range 200).map fun i => String.ofList (List.replicate (i + 8) 'x')) ++ ["granted"] := by
    unfold crowd
    rw [List.map_append, List.map_map]
    rfl
  rw [hid]
  refine List.Nodup.append (List.nodup_range.map fun i j hij => ?_) (List.nodup_singleton _) ?_
  · have hlength := congrArg List.length (String.ofList_injective hij)
    simpa using hlength
  · intro x hx hgranted
    obtain ⟨i, -, rfl⟩ := List.mem_map.1 hx
    have hlist : List.replicate (i + 8) 'x' = "granted".toList := by
      rw [← List.mem_singleton.1 hgranted, String.toList_ofList]
    have hlength := congrArg List.length hlist
    rw [List.length_replicate] at hlength
    have hgranted : "granted".toList.length = 7 := by decide
    omega

def crowdedGraph : TenantGraph := ⟨id, crowd ++ [granted], crowd_unique⟩

/-- The limit of an expansion counts the rows out of scope: they cut off the row in scope behind them. -/
theorem searchV4Graph_crowded :
    Agree grantedGraph crowdedGraph grantedRequest ∧
      (searchV4Graph grantedGraph exactRounding plainTexts grantedRequest).toOption.map
        (fun hits => hits.flatMap fun h => h.paths.map (·.key)) = some [("s", "a", ["granted"])] ∧
      (searchV4Graph crowdedGraph exactRounding plainTexts grantedRequest).toOption.map
        (fun hits => hits.flatMap fun h => h.paths.map (·.key)) = some [] := by
  refine ⟨⟨by decide +kernel, fun _ _ => rfl⟩, by decide +kernel, by decide +kernel⟩

end Mesa.Retrieval.Traversal
