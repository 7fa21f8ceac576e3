/-
Search results stay within the authorised scope. Whatever the providers answer, every assertion
of a returned result is one that the request authorises, and every graph path is a connected chain
of such assertions.
-/
import Mesa.Retrieval.Contracts

namespace Mesa.Retrieval

open Mesa.Foundation Mesa.Foundation.Prog

/-! ## What confinement means -/

/-- The assertion joins the two entities, in one direction or the other. -/
def Joins (a : AssertionRow) (x y : String) : Prop :=
  (a.subjectId = x ∧ a.objectEntityId = some y) ∨ (a.subjectId = y ∧ a.objectEntityId = some x)

/-- Assertions that satisfy `P` lead from each entity of the second list to the next one. -/
def ChainOf (P : AssertionRow → Prop) : List String → List String → Prop
  | [], [_] => True
  | aid :: aids, x :: y :: entities =>
    (∃ a, P a ∧ a.assertionId = aid ∧ Joins a x y) ∧ ChainOf P aids (y :: entities)
  | _, _ => False

theorem ChainOf.mono {P Q : AssertionRow → Prop} (h : ∀ a, P a → Q a) : ∀ {aids entities : List String},
    ChainOf P aids entities → ChainOf Q aids entities
  | [], [_], _ => trivial
  | _ :: _, _ :: _ :: _, ⟨⟨a, ha, hid, hj⟩, hrest⟩ => ⟨⟨a, h a ha, hid, hj⟩, ChainOf.mono h hrest⟩

/-- The row belongs to the tenant, a dataset, the agent and the validity window of the request, as
read by the clock of the search. -/
structure InScope {E : SearchEnv} (db : Snapshot) (r : SearchRequest) (c : Context E) (a : AssertionRow) : Prop where
  stored : a ∈ db.assertions.rows
  tenant : a.tenantId = r.tenantId
  dataset : ∃ e ∈ r.datasetIds, db.physicalDataset r.tenantId e = some a.datasetId
  agent : ∃ m ∈ db.mutations.rows, m.mutationId = a.mutationId ∧ m.agentId = r.agentId ∧ m.state = .committed
  status : r.scopeKey.admitsStatus a = true
  window : ∃ n, r.scopeKey.withinWindow E.julianday (c.clock n) a = true

/-- What a result shows: its matched and supporting assertions are copies of rows in scope, and
its graph paths are chains of them. -/
structure Confined {E : SearchEnv} (rt : Runtime E) (db : Snapshot) (r : SearchRequest) (c : Context E)
    (x : SearchResult E.Float) : Prop where
  assertions : ∀ p ∈ x.matchedAssertions ++ x.supportingAssertions, ∃ a, InScope db r c a ∧
    p.source.row = visibleRow rt a
  paths : ∀ g, x.retrieval.graphEvidence = some g → g.best ∈ g.graphPaths ∧
    ∀ q ∈ g.graphPaths, ChainOf (InScope db r c) q.assertionIds q.entityIds

section Contracts

variable {E : SearchEnv} {times : E.Clock → Prop} {T : ScopeTyping E} {rt : Runtime E} {db : Snapshot}
  {r : SearchRequest} {name : Nat} {base : List (Nat × List FtsRow)}

/-! ## Paths -/

/-- A walk over rows that satisfy `P` is a chain, provided none of its entities reads like NULL. -/
theorem walkEdges_chain {rows : List AssertionRow} {P : AssertionRow → Prop} (hP : ∀ a ∈ rows, P a) :
    ∀ {aids entities : List String} {edges : List (EdgeDirection × String)},
      walkEdges rows aids entities = some edges → entities.length = aids.length + 1 →
      (∀ i ∈ entities, i ≠ "None") → ChainOf P aids entities
  | [], [_], _, _, _, _ => trivial
  | [], [], _, _, hlen, _ => by cases hlen
  | [], _ :: _ :: _, _, _, hlen, _ => by cases hlen
  | aid :: aids, [], _, _, hlen, _ => by cases hlen
  | aid :: aids, [_], _, _, hlen, _ => by cases hlen
  | aid :: aids, x :: y :: entities, edges, h, hlen, hid => by
    have hobject : ∀ {a : AssertionRow} {z : String}, z ∈ x :: y :: entities → a.objectText = z →
        a.objectEntityId = some z := by
      intro a z hz ho
      unfold AssertionRow.objectText at ho
      cases hobj : a.objectEntityId with
      | some o => rw [hobj] at ho; exact congrArg some ho
      | none => rw [hobj] at ho; exact absurd ho.symm (hid z hz)
    have hx : x ∈ x :: y :: entities := List.mem_cons_self ..
    have hy : y ∈ x :: y :: entities := List.mem_cons_of_mem _ (List.mem_cons_self ..)
    have hrest : ∀ {edges' : List (EdgeDirection × String)}, walkEdges rows aids (y :: entities) = some edges' →
        ChainOf P aids (y :: entities) := fun h' =>
      walkEdges_chain hP h' (Nat.succ.inj hlen) fun i hi => hid i (List.mem_cons_of_mem _ hi)
    rw [walkEdges] at h
    split at h
    · cases h
    · next a ha =>
      have hkey := List.find?_some ha
      rw [decide_eq_true_eq] at hkey
      split at h
      · next hend =>
        obtain ⟨edges', h', -⟩ := Option.map_eq_some_iff.1 h
        exact ⟨⟨a, hP a (List.mem_of_find?_eq_some ha), hkey, .inl ⟨hend.1, hobject hy hend.2⟩⟩, hrest h'⟩
      · split at h
        · next hend =>
          obtain ⟨edges', h', -⟩ := Option.map_eq_some_iff.1 h
          exact ⟨⟨a, hP a (List.mem_of_find?_eq_some ha), hkey, .inr ⟨hend.1, hobject hx hend.2⟩⟩, hrest h'⟩
        · cases h

/-- An accepted path is a chain of the rows it was checked against. -/
theorem acceptPath_chain {rows : List AssertionRow} {P : AssertionRow → Prop} (hP : ∀ a ∈ rows, P a)
    {allowed : List String} (hallowed : ∀ i ∈ allowed, i ≠ "None") {p : RawPath E.Float} {q : GraphPath E.Float}
    (h : acceptPath E rows allowed p = some q) : ChainOf P q.assertionIds q.entityIds := by
  unfold acceptPath at h
  split at h
  · cases h
  · split at h
    · cases h
    · next hok =>
      rw [not_or, not_not, Bool.not_eq_true] at hok
      obtain ⟨edges, hedges, rfl⟩ := Option.map_eq_some_iff.1 h
      refine walkEdges_chain hP hedges hok.1 fun i hi => hallowed i ?_
      have hmem := List.any_eq_false.1 hok.2 i hi
      rwa [decide_eq_true_eq, not_not] at hmem

/-- The evidence of a candidate: chains only, the best one among them. -/
structure GraphEvidence.Ok (P : AssertionRow → Prop) (g : GraphEvidence E.Float) : Prop where
  best : g.best ∈ g.graphPaths
  paths : ∀ q ∈ g.graphPaths, ChainOf P q.assertionIds q.entityIds

theorem graphRanking_ok {P : AssertionRow → Prop} {paths : List (GraphPath E.Float)}
    (h : ∀ q ∈ paths, ChainOf P q.assertionIds q.entityIds) : ∀ g ∈ graphRanking E paths, g.Ok P := by
  intro g hg
  obtain ⟨i, -, hg⟩ := List.mem_filterMap.1 ((List.mem_insertionSort _).1 hg)
  unfold graphEvidenceOf at hg
  split at hg
  · cases hg
  · next best others hsorted =>
    cases hg
    refine ⟨List.mem_cons_self .., fun q hq => h q ?_⟩
    rw [← hsorted] at hq
    exact (List.mem_filter.1 ((List.mem_insertionSort _).1 hq)).1

theorem citedSeeds_ensures {lq : LegalQuery E} {allowed : List String} :
    Ensures (OnTime times) (Within T db r.scopeKey name base) (citedSeeds db r lq allowed) fun _ => True := by
  unfold citedSeeds
  split
  · exact Ensures.pure trivial
  · exact Within.read fun _ _ => trivial

theorem namedSeeds_ensures {allowed : List String} {cited : List (String × E.Float)} :
    Ensures (OnTime times) (Within T db r.scopeKey name base) (namedSeeds db r allowed cited) fun _ => True := by
  unfold namedSeeds
  split
  · exact Ensures.pure trivial
  · exact Within.read fun _ _ => trivial

theorem seedScores_ensures {lq : LegalQuery E} {allowed : List String} {vector : VectorLane E.Float}
    {lexical : List (PassageRow E.Float)} {hits : List String} :
    Ensures (OnTime times) (Within T db r.scopeKey name base) (seedScores db r lq allowed vector lexical hits)
      fun _ => True := by
  refine Ensures.bind citedSeeds_ensures fun cited _ => ?_
  exact Ensures.bind namedSeeds_ensures fun named _ => Ensures.pure trivial

theorem graphLane_ensures {lq : LegalQuery E} {rows : List AssertionRow} {P : AssertionRow → Prop}
    (hP : ∀ a ∈ rows, P a) {allowed : List String} (hallowed : ∀ i ∈ allowed, i ≠ "None")
    {vector : VectorLane E.Float} {lexical : List (PassageRow E.Float)} {hits : List String} :
    Ensures (OnTime times) (Within T db r.scopeKey name base)
      (graphLane rt db r lq rows allowed vector lexical hits) fun l => ∀ g ∈ l, g.Ok P := by
  have hnone : ∀ g ∈ ([] : List (GraphEvidence E.Float)), g.Ok P := by
    intro g hg
    cases hg
  unfold graphLane
  split
  · refine Ensures.bind seedScores_ensures fun scores _ => ?_
    split
    · exact Ensures.pure hnone
    · split
      · refine Ensures.bind Within.awaited fun answered _ => Ensures.pure ?_
        refine graphRanking_ok fun q hq => ?_
        obtain ⟨p, -, hp⟩ := List.mem_filterMap.1 (mem_keepFirst hq)
        exact acceptPath_chain hP hallowed hp
      · exact Ensures.raise
  · exact Ensures.pure hnone

/-! ## The lanes together -/

/-- Allowed entities are stored entities, so none of them reads like NULL. -/
theorem allowedEntities_ne_none {k : ScopeKey} {datasets : List String} {rows : List AssertionRow} :
    ∀ i ∈ allowedEntities r (db.scopeArtifacts k datasets) rows, i ≠ "None" := by
  intro i hi
  have hraw : i ∈ ((db.scopeArtifacts k datasets).filter fun g =>
      decide (g.key.artifact.artifactKind = .entity)).map (·.key.artifact.artifactId) := by
    unfold allowedEntities at hi
    dsimp only at hi
    split at hi
    · exact (List.mem_filter.1 hi).1
    · exact hi
  obtain ⟨g, hg, rfl⟩ := List.mem_map.1 hraw
  obtain ⟨hg, hkind⟩ := List.mem_filter.1 hg
  obtain ⟨-, hwhere⟩ := Table.mem_select.1 hg
  have hentity := (Bool.and_eq_true_iff.1 hwhere).2
  have hkind : g.key.artifact.artifactKind = .entity := of_decide_eq_true hkind
  rw [hkind] at hentity
  obtain ⟨e, he, hid⟩ := List.any_eq_true.1 hentity
  have hid : e.entityId = g.key.artifact.artifactId :=
    of_decide_eq_true (Bool.and_eq_true_iff.1 (Bool.and_eq_true_iff.1 hid).1).1
  rw [← hid]
  exact db.entityIds e he

theorem allowedVectors_mem {artifacts : List ArtifactRow} {rows : List AssertionRow} :
    ∀ i ∈ allowedVectors E artifacts rows, ∃ a ∈ rows, a.assertionId = i := by
  intro i hi
  obtain ⟨a, ha, hid⟩ := List.any_eq_true.1 (List.mem_filter.1 hi).2
  exact ⟨a, ha, of_decide_eq_true hid⟩

/-- The lanes hold authorised rows, and chains of them. -/
structure LaneResults.Ok (times : E.Clock → Prop) (db : Snapshot) (k : ScopeKey) (x : LaneResults E) : Prop where
  rows : ∀ a ∈ x.rows, db.Authorised E times k a
  vector : VectorLane.Ok times db k x.vector
  lexical : PassagesOk times db k x.lexical
  assertion : RankedOk times db k x.assertion
  graph : ∀ g ∈ x.graph, g.Ok (db.Authorised E times k)

theorem retrieveLanes_ensures (hT : T.Admits times db r.scopeKey) {rows : List AssertionRow}
    (hrows : T.assertionRows rows) {lq : LegalQuery E} (hlq : lq.Ok T) {typed : List String} :
    Ensures (OnTime times) (Within T db r.scopeKey name base)
      (retrieveLanes rt db r (db.datasetsOf r.scopeKey)
        (db.scopeArtifacts r.scopeKey (db.datasetsOf r.scopeKey)) rows lq typed)
      fun x => x.Ok times db r.scopeKey ∧ x.legal.Ok T := by
  have hauth := hT.authorised rows hrows
  refine Ensures.bind (vectorLane_ensures hauth allowedVectors_mem) fun vector hvector => ?_
  refine Ensures.bind (passageCandidates_ensures hT hauth) fun passages hpassages => ?_
  refine Ensures.bind (lexicalLane_ensures hT hlq hpassages) fun lexical hlexical => ?_
  refine Ensures.bind entityLane_ensures fun hits _ => ?_
  refine Ensures.bind (assertionLane_ensures hT hlq hpassages) fun ranked hranked => ?_
  refine Ensures.bind (graphLane_ensures hauth allowedEntities_ne_none) fun graph hgraph => ?_
  exact Ensures.pure ⟨⟨hauth, hvector, hlexical, hranked, hgraph⟩, hlq⟩

/-! ## Candidates -/

/-- A candidate shows an authorised assertion, and chains of such. -/
structure Candidate.Ok (P : AssertionRow → Prop) (c : Candidate E.Float) : Prop where
  assertion : P c.assertion.row
  evidence : ∀ g, c.graphEvidence = some g → g.Ok P

theorem candidateAssertion_ok {x : LaneResults E} (hx : x.Ok times db r.scopeKey) {i : String}
    {p : PassageRow E.Float} (h : x.candidateAssertion i = some p) : db.Authorised E times r.scopeKey p.row := by
  unfold LaneResults.candidateAssertion at h
  split at h
  · next q hq => cases h; exact hx.assertion _ (List.mem_of_find?_eq_some hq)
  · split at h
    · next q hq => cases h; exact hx.lexical _ (List.mem_of_find?_eq_some hq)
    · split at h
      · next a ha => cases h; exact hx.vector _ (List.mem_of_find?_eq_some ha)
      · obtain ⟨a, ha, rfl⟩ := Option.map_eq_some_iff.1 h
        exact hx.rows a (List.mem_of_find?_eq_some ha)

theorem candidate_ok {x : LaneResults E} (hx : x.Ok times db r.scopeKey) {f : Fused E.Float}
    {c : Candidate E.Float} (h : x.candidate f = some c) : c.Ok (db.Authorised E times r.scopeKey) := by
  obtain ⟨p, hp, rfl⟩ := Option.map_eq_some_iff.1 h
  exact ⟨candidateAssertion_ok hx hp, fun g hg => hx.graph g (List.mem_of_find?_eq_some hg)⟩

theorem candidateNames_ensures {ids : List String} :
    Ensures (OnTime times) (Within T db r.scopeKey name base) (candidateNames db r ids) fun _ => True := by
  unfold candidateNames
  split
  · exact Ensures.pure trivial
  · exact Within.read fun _ _ => trivial

theorem candidateCitations_ensures (hT : T.Admits times db r.scopeKey) {lq : LegalQuery E} (hlq : lq.Ok T)
    (hne : lq.citations ≠ []) {key : String × List String} :
    Ensures (OnTime times) (Within T db r.scopeKey name base)
      ((candidateCitationsSlot key).memo (lq.extract (" ".intercalate key.2))) (T.candidateCitations key) := by
  refine Within.feature (extract_ensures hlq hne fun l hl => hT.candidateCitations l key hl)
    (fun w hw => hw.holds.candidateCitations) ?_ fun _ _ => rfl
  exact fun w l hw hl => { hw.holds with candidateCitations := hl }

/-- The legal factor is all that weighing changes of a candidate. -/
theorem weighCandidate_ensures (hT : T.Admits times db r.scopeKey) {lq : LegalQuery E} (hlq : lq.Ok T)
    {names : List (String × String)} {c : Candidate E.Float} :
    Ensures (OnTime times) (Within T db r.scopeKey name base) (weighCandidate lq names c)
      fun d => ∃ factor, d = { c with legalFactor := factor } := by
  unfold weighCandidate
  split
  · exact Ensures.pure ⟨c.legalFactor, rfl⟩
  · next hne =>
    split
    · exact Ensures.pure ⟨_, rfl⟩
    · have hcites : lq.citations ≠ [] := by
        intro hnil
        rw [hnil] at hne
        exact hne rfl
      exact Ensures.bind (candidateCitations_ensures hT hlq hcites) fun cites _ => Ensures.pure ⟨_, rfl⟩

theorem orderCandidates_mem {lq : LegalQuery E} {cands : List (Candidate E.Float)} {c : Candidate E.Float}
    (h : c ∈ orderCandidates r lq cands) : c ∈ cands := by
  unfold orderCandidates at h
  rcases List.mem_append.1 (List.mem_of_mem_take h) with h | h
  · obtain ⟨e, -, he⟩ := List.mem_filterMap.1 h
    exact List.mem_of_find?_eq_some he
  · exact (List.mem_insertionSort _).1 (List.mem_filter.1 h).1

/-! ## Results -/

theorem materialisedProvenance_ok {P : AssertionRow → Prop} {rows : List AssertionRow} (hrows : ∀ a ∈ rows, P a)
    {names : List (String × String)} {c : Candidate E.Float} (hc : c.Ok P) :
    ∀ p ∈ materialisedProvenance rt db r rows names c, ∃ a, P a ∧ p.source.row = visibleRow rt a := by
  intro p hp
  obtain ⟨q, hq, rfl⟩ := List.mem_map.1 hp
  obtain ⟨i, -, hi⟩ := List.mem_filterMap.1 hq
  split at hi
  · cases hi
    exact ⟨_, hc.assertion, rfl⟩
  · obtain ⟨a, ha, rfl⟩ := Option.map_eq_some_iff.1 hi
    exact ⟨a, hrows a (List.mem_of_find?_eq_some ha), rfl⟩

/-- A result shows what its candidate's provenance holds. -/
theorem buildResult_shows {entities : List Ledger.Entity} {lq : LegalQuery E} {c : Candidate E.Float}
    {prov : List (Provenance E.Float)} {x : SearchResult E.Float}
    (h : buildResult rt db r entities lq c prov = some x) :
    x.provenance = prov ∧ x.retrieval.graphEvidence = c.graphEvidence := by
  unfold buildResult at h
  split at h
  · cases h
  · cases h; exact ⟨rfl, rfl⟩

/-- A result whose rows satisfy `P`. -/
structure SearchResult.Ok (rt : Runtime E) (P : AssertionRow → Prop) (x : SearchResult E.Float) : Prop where
  provenance : ∀ p ∈ x.provenance, ∃ a, P a ∧ p.source.row = visibleRow rt a
  evidence : ∀ g, x.retrieval.graphEvidence = some g → g.Ok P

theorem neededEntities_ensures {needed : List String} :
    Ensures (OnTime times) (Within T db r.scopeKey name base) (neededEntities (E := E) db r needed) fun _ => True := by
  unfold neededEntities
  split
  · exact Ensures.pure trivial
  · exact Within.read fun _ _ => trivial

theorem assemble_ensures {x : LaneResults E} {P : AssertionRow → Prop} (hrows : ∀ a ∈ x.rows, P a)
    {allowed : List String} {names : List (String × String)} {ordered : List (Candidate E.Float)}
    (hordered : ∀ c ∈ ordered, c.Ok P) :
    Ensures (OnTime times) (Within T db r.scopeKey name base) (assemble rt db r x allowed names ordered)
      fun l => ∀ y ∈ l, y.Ok rt P := by
  refine Ensures.bind neededEntities_ensures fun entities _ => ?_
  refine Ensures.bind Within.awaiting fun _ _ => ?_
  refine Ensures.bind (Ensures.forEach (S := fun _ _ => True) fun _ _ => Within.awaiting.mono fun _ _ => trivial)
    fun _ _ => ?_
  refine Ensures.pure fun y hy => ?_
  obtain ⟨p, hp, hresult⟩ := List.mem_filterMap.1 hy
  obtain ⟨c, hc, rfl⟩ := List.mem_map.1 hp
  obtain ⟨hprov, hevidence⟩ := buildResult_shows hresult
  refine ⟨?_, ?_⟩
  · rw [hprov]
    exact materialisedProvenance_ok hrows (hordered c hc)
  · rw [hevidence]
    exact (hordered c hc).evidence

theorem fuse_ensures (hT : T.Admits times db r.scopeKey) {allowed : List String} {x : LaneResults E}
    (hx : x.Ok times db r.scopeKey) (hlq : x.legal.Ok T) :
    Ensures (OnTime times) (Within T db r.scopeKey name base) (fuse rt db r allowed x)
      fun l => ∀ y ∈ l, y.Ok rt (db.Authorised E times r.scopeKey) := by
  unfold fuse
  split
  · exact Ensures.raise
  · next fused _ =>
    dsimp only
    split
    · refine Ensures.pure fun y hy => ?_
      cases hy
    · refine Ensures.bind candidateNames_ensures fun names _ => ?_
      refine Ensures.bind (Ensures.forEach fun c _ => weighCandidate_ensures hT hlq) fun weighed hw => ?_
      refine assemble_ensures hx.rows fun c hc => ?_
      obtain ⟨d, hd, factor, rfl⟩ := forall₂_mem_right hw c (orderCandidates_mem hc)
      obtain ⟨f, -, hf⟩ := List.mem_filterMap.1 hd
      have hok := candidate_ok hx hf
      exact ⟨hok.assertion, hok.evidence⟩

/-- Every result of a search over a typed scope shows authorised rows only. -/
theorem search_ensures (hR : T.AdmitsRows times db r.scopeKey) (hT : T.Admits times db r.scopeKey) :
    Ensures (OnTime times) (Within T db r.scopeKey name base) (searchV4MemoryUncached rt db r)
      fun l => ∀ y ∈ l, y.Ok rt (db.Authorised E times r.scopeKey) := by
  unfold searchV4MemoryUncached
  split
  · refine Ensures.bind scopeDatasets_ensures fun datasets hd => ?_
    obtain ⟨rfl, -⟩ := hd
    refine Ensures.bind scopeArtifactRows_ensures fun artifacts ha => ?_
    subst ha
    refine Ensures.bind (scopeAssertionRows_ensures hR) fun rows hrows => ?_
    refine Ensures.bind certify_ensures fun _ _ => ?_
    refine Ensures.bind (legalQuery_ensures hT hrows) fun lq hlq => ?_
    refine Ensures.bind typedLegalCandidates_ensures fun typed _ => ?_
    split
    · refine Ensures.pure fun y hy => ?_
      cases hy
    · refine Ensures.bind (retrieveLanes_ensures hT hrows hlq) fun x hx => ?_
      exact fuse_ensures hT hx.1 hx.2
  · exact Ensures.raise

end Contracts

/-! ## Confinement -/

section Confinement

variable {E : SearchEnv}

/-- Scope documents that hold authorised rows, and otherwise anything. -/
def authorisedTyping (E : SearchEnv) (times : E.Clock → Prop) (db : Snapshot) (k : ScopeKey) : ScopeTyping E where
  assertionRows v := ∀ a ∈ v, db.Authorised E times k a
  legalContext _ := True
  legalResolver _ := True
  corpus _ := True
  passageText _ _ := True
  passageCitations _ _ := True
  assertionText _ _ := True
  assertionCitations _ _ := True
  candidateCitations _ _ := True

theorem authorisedTyping_rows (times : E.Clock → Prop) (db : Snapshot) (k : ScopeKey) :
    (authorisedTyping E times db k).AdmitsRows times db k := by
  intro now hnow a ha
  obtain ⟨hmem, hauth⟩ := Table.mem_select.1 ha
  exact ⟨hmem, now, hnow, hauth⟩

theorem authorisedTyping_admits (times : E.Clock → Prop) (db : Snapshot) (k : ScopeKey) :
    (authorisedTyping E times db k).Admits times db k where
  authorised _ hv := hv
  legalContext _ _ := trivial
  legalResolver _ _ := trivial
  corpus _ _ := trivial
  passageText _ _ := trivial
  passageCitations _ _ _ _ _ _ := trivial
  assertionText _ _ := trivial
  assertionCitations _ _ _ _ := trivial
  candidateCitations _ _ _ := trivial

theorem inScope_of_authorised {db : Snapshot} {r : SearchRequest} {c : Context E} {a : AssertionRow}
    (h : db.Authorised E (fun now => ∃ n, now = c.clock n) r.scopeKey a) : InScope db r c a := by
  obtain ⟨hmem, now, ⟨n, rfl⟩, hauth⟩ := h
  simp only [Snapshot.authorises, Bool.and_eq_true, decide_eq_true_eq] at hauth
  obtain ⟨⟨⟨⟨htenant, hdataset⟩, hstatus⟩, hagent⟩, hwindow⟩ := hauth
  refine ⟨hmem, htenant, ?_, ?_, hstatus, n, hwindow⟩
  · obtain ⟨e, he, hid⟩ := List.mem_filterMap.1 (mem_sortedSet.1 hdataset)
    exact ⟨e, mem_sortedSet.1 he, hid⟩
  · obtain ⟨m, hm, hwhere⟩ := List.any_eq_true.1 hagent
    simp only [Bool.and_eq_true, decide_eq_true_eq] at hwhere
    exact ⟨m, hm, hwhere.1.1, hwhere.1.2, hwhere.2⟩

/-- A search document of its own: an empty scope and a connection without TEMP tables. -/
def Work.fresh (E : SearchEnv) : Work E := ⟨Scope.fresh E 0, [], 0, none⟩

theorem Within.fresh {T : ScopeTyping E} {db : Snapshot} {k : ScopeKey} : Within T db k 0 [] (Work.fresh E) :=
  ⟨ScopeHolds.fresh rfl, rfl, fun _ _ => rfl⟩

/-- What an outcome returns, if it returns, satisfies `Q`. -/
def Returns {α : Type} (out : Except SearchError α) (Q : α → Prop) : Prop :=
  match out with
  | .ok a => Q a
  | .error _ => True

/-- Search results never leave the authorised scope: for every database, request, clock, and
providers that answer anything at all, every returned result shows only assertions of the tenant,
the datasets, the agent and the validity window, and only paths that are connected chains of them. -/
theorem search_confined (E : SearchEnv) (rt : Runtime E) (db : Snapshot) (r : SearchRequest) (c : Context E) :
    Returns (searchV4MemoryUncached rt db r c (Work.fresh E)).1 fun results =>
      ∀ x ∈ results, Confined rt db r c x := by
  rcases hrun : searchV4MemoryUncached rt db r c (Work.fresh E) with ⟨out, w⟩
  cases out with
  | error e => exact trivial
  | ok results =>
    intro x hx
    obtain ⟨-, hok⟩ := search_ensures (authorisedTyping_rows (fun now => ∃ n, now = c.clock n) db r.scopeKey)
      (authorisedTyping_admits (fun now => ∃ n, now = c.clock n) db r.scopeKey) c (Work.fresh E) results w (fun n => ⟨n, rfl⟩) Within.fresh hrun
    have hx := hok x hx
    constructor
    · intro p hp
      have hmem : p ∈ x.provenance := by
        rcases List.mem_append.1 hp with hp | hp
        · exact (List.mem_filter.1 hp).1
        · exact (List.mem_filter.1 hp).1
      obtain ⟨a, ha, hrow⟩ := hx.provenance p hmem
      exact ⟨a, inScope_of_authorised ha, hrow⟩
    · intro g hg
      refine ⟨(hx.evidence g hg).best, fun q hq => ?_⟩
      exact ((hx.evidence g hg).paths q hq).mono fun a ha => inScope_of_authorised ha

end Confinement

end Mesa.Retrieval
