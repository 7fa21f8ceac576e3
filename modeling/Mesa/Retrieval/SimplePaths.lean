/-
The graph search enumerates simple paths. Where the store cuts off no rows and no frontier is cut, the paths of round
`n` are the simple trails of length `n` from the seeds, each once: a trail of length `n + 1` is a trail of length `n`
and one more edge, whose source is on the frontier. An assertion has one subject and one object, so a trail is known by
its seed and its assertions, and no trail is lost when paths with one key are merged.
-/
import Mesa.Foundation.Trails
import Mesa.Retrieval.Traversal

namespace Mesa.Retrieval.Traversal

open Mesa.Foundation

variable (G : TenantGraph) (R : Rounding) (T : PathTexts) (r : TraversalRequest)

/-! ## Steps -/

/-- An allowed assertion that is sure enough leads from one entity to another, allowed one in the direction asked for. -/
def Follows (x a y : String) : Prop :=
  ∃ e ∈ G.assertions, e.id = a ∧ x ≠ y ∧
    (((r.direction = "forward" ∨ r.direction = "any") ∧ e.subjectId = x ∧ e.objectId = y) ∨
      ((r.direction = "reverse" ∨ r.direction = "any") ∧ e.objectId = x ∧ e.subjectId = y)) ∧
    y ∈ r.allowedEntityIds ∧ a ∈ r.allowedAssertionIds ∧ R.round (15 / 100) ≤ e.confidence.getD 1

/-- Neither query returns as many rows as its limit. -/
def Whole (srcIds : List String) : Prop :=
  (G.allRows r.direction srcIds).1.length < fanoutLimit srcIds ∧
    (G.allRows r.direction srcIds).2.length < fanoutLimit srcIds

variable {G R T r}

theorem follows_unique {x a y z : String} (hy : Follows G R r x a y) (hz : Follows G R r x a z) : y = z := by
  obtain ⟨e, he, rfl, hxy, hends, -⟩ := hy
  obtain ⟨f, hf, hid, hxz, hends', -⟩ := hz
  obtain rfl := List.inj_on_of_nodup_map G.unique hf he hid
  rcases hends with ⟨-, hs, ho⟩ | ⟨-, ho, hs⟩ <;> rcases hends' with ⟨-, hs', ho'⟩ | ⟨-, ho', hs'⟩
  · exact ho.symm.trans ho'
  · exact absurd (ho'.symm.trans ho) hxy
  · exact absurd (ho.symm.trans ho') hxz
  · exact hs.symm.trans hs'

theorem mem_allRows {srcIds : List String} {row : ExpandRow} :
    (row ∈ (G.allRows r.direction srcIds).1 ∨ row ∈ (G.allRows r.direction srcIds).2) ↔
      ((r.direction = "forward" ∨ r.direction = "any") ∧ row ∈ G.forwardRows srcIds) ∨
        ((r.direction = "reverse" ∨ r.direction = "any") ∧ row ∈ G.reverseRows srcIds) := by
  unfold TenantGraph.allRows
  dsimp only
  refine or_congr ?_ ?_ <;> split <;> simp [*]

theorem usable_iff {row : ExpandRow} : usable R r row = true ↔
    row.dstId ∈ r.allowedEntityIds ∧ row.assertionId ∈ r.allowedAssertionIds ∧ R.round (15 / 100) ≤ row.conf := by
  unfold usable
  simp only [Bool.and_eq_true, decide_eq_true_eq, Bool.not_eq_true', decide_eq_false_iff_not, not_lt, and_assoc]

/-- A row in scope is a step from a source. -/
theorem follows_of_row {srcIds : List String} {row : ExpandRow} (hrow : row ∈ G.stepExpand r.direction srcIds)
    (husable : usable R r row = true) :
    row.srcId ∈ srcIds ∧ Follows G R r row.srcId row.assertionId row.dstId := by
  have hmem : row ∈ (G.allRows r.direction srcIds).1 ∨ row ∈ (G.allRows r.direction srcIds).2 := by
    unfold TenantGraph.stepExpand at hrow
    split at hrow
    · cases hrow
    · exact (List.mem_append.1 hrow).imp List.mem_of_mem_take List.mem_of_mem_take
  obtain ⟨hentity, hassertion, hconf⟩ := usable_iff.1 husable
  rcases mem_allRows.1 hmem with ⟨hdir, hrow⟩ | ⟨hdir, hrow⟩
  · obtain ⟨e, he, rfl⟩ := List.mem_map.1 hrow
    obtain ⟨he, hsrc⟩ := List.mem_filter.1 he
    simp only [Bool.and_eq_true, decide_eq_true_eq] at hsrc
    exact ⟨hsrc.1, e, he, rfl, fun h => hsrc.2 h.symm, Or.inl ⟨hdir, rfl, rfl⟩, hentity, hassertion, hconf⟩
  · obtain ⟨e, he, rfl⟩ := List.mem_map.1 hrow
    obtain ⟨he, hsrc⟩ := List.mem_filter.1 he
    simp only [Bool.and_eq_true, decide_eq_true_eq] at hsrc
    exact ⟨hsrc.1, e, he, rfl, fun h => hsrc.2 h.symm, Or.inr ⟨hdir, rfl, rfl⟩, hentity, hassertion, hconf⟩

/-- A step from a source has its row, if no row is cut off. -/
theorem row_of_follows {srcIds : List String} (hwhole : Whole G r srcIds) {x a y : String} (hx : x ∈ srcIds)
    (h : Follows G R r x a y) :
    ∃ row ∈ G.stepExpand r.direction srcIds, usable R r row = true ∧ row.srcId = x ∧ row.assertionId = a ∧
      row.dstId = y := by
  have hexpand : ∀ row, row ∈ (G.allRows r.direction srcIds).1 ∨ row ∈ (G.allRows r.direction srcIds).2 →
      row ∈ G.stepExpand r.direction srcIds := by
    intro row hrow
    unfold TenantGraph.stepExpand
    rw [if_neg (List.ne_nil_of_mem hx), List.take_of_length_le (Nat.le_of_lt hwhole.1),
      List.take_of_length_le (Nat.le_of_lt hwhole.2)]
    exact List.mem_append.2 hrow
  obtain ⟨e, he, rfl, hxy, hends, hentity, hassertion, hconf⟩ := h
  rcases hends with ⟨hdir, rfl, rfl⟩ | ⟨hdir, rfl, rfl⟩
  · refine ⟨_, hexpand _ (mem_allRows.2 (Or.inl ⟨hdir, List.mem_map.2 ⟨e, List.mem_filter.2 ⟨he, ?_⟩, rfl⟩⟩)),
      usable_iff.2 ⟨hentity, hassertion, hconf⟩, rfl, rfl, rfl⟩
    simpa using ⟨hx, fun h => hxy h.symm⟩
  · refine ⟨_, hexpand _ (mem_allRows.2 (Or.inr ⟨hdir, List.mem_map.2 ⟨e, List.mem_filter.2 ⟨he, ?_⟩, rfl⟩⟩)),
      usable_iff.2 ⟨hentity, hassertion, hconf⟩, rfl, rfl, rfl⟩
    simpa using ⟨hx, fun h => hxy h.symm⟩

/-! ## Keys -/

/-- The paths that are added are candidates with new keys, each key once, and no key is left out. -/
theorem addPaths_spec (seen : List PathKey) (candidates : List TraversalPath) :
    (∀ p ∈ addPaths seen candidates, p ∈ candidates ∧ p.key ∉ seen) ∧
      ((addPaths seen candidates).map (·.key)).Nodup ∧
      ∀ c ∈ candidates, c.key ∈ seen ∨ c.key ∈ (addPaths seen candidates).map (·.key) := by
  have hfold : ∀ (l new : List TraversalPath), (new.map (·.key)).Nodup →
      let out := l.foldl (fun new p => if p.key ∈ seen ∨ p.key ∈ new.map (·.key) then new else new ++ [p]) new
      (∀ p ∈ out, p ∈ new ∨ p ∈ l ∧ p.key ∉ seen) ∧ (out.map (·.key)).Nodup ∧ new <+: out ∧
        ∀ c ∈ l, c.key ∈ seen ∨ c.key ∈ out.map (·.key) := by
    intro l
    induction l with
    | nil => intro new hnew; exact ⟨fun p hp => Or.inl hp, hnew, List.prefix_refl _, fun c hc => absurd hc List.not_mem_nil⟩
    | cons c l ih =>
      intro new hnew
      dsimp only
      rw [List.foldl_cons]
      split
      · next hold =>
        obtain ⟨hmem, hnodup, hstart, hall⟩ := ih new hnew
        refine ⟨fun p hp => ?_, hnodup, hstart, List.forall_mem_cons.2 ⟨hold.imp_right fun h => ?_, hall⟩⟩
        · exact (hmem p hp).imp_right fun h => ⟨List.mem_cons_of_mem c h.1, h.2⟩
        · exact (hstart.map _).subset h
      · next hfresh =>
        obtain ⟨hseen, hkey⟩ := not_or.1 hfresh
        have hnew' : ((new ++ [c]).map (·.key)).Nodup := by
          rw [List.map_append, List.nodup_append]
          refine ⟨hnew, List.nodup_singleton _, fun k hk k' hk' => ?_⟩
          rw [List.mem_singleton.1 hk']
          exact ne_of_mem_of_not_mem hk hkey
        obtain ⟨hmem, hnodup, hstart, hall⟩ := ih (new ++ [c]) hnew'
        refine ⟨fun p hp => ?_, hnodup, (List.prefix_append _ _).trans hstart,
          List.forall_mem_cons.2 ⟨Or.inr ((hstart.map _).subset (by simp)), hall⟩⟩
        rcases hmem p hp with hp | hp
        · rcases List.mem_append.1 hp with hp | hp
          · exact Or.inl hp
          · obtain rfl := List.mem_singleton.1 hp
            exact Or.inr ⟨List.mem_cons_self, hseen⟩
        · exact Or.inr ⟨List.mem_cons_of_mem c hp.1, hp.2⟩
  obtain ⟨hmem, hnodup, -, hall⟩ := hfold candidates [] List.nodup_nil
  exact ⟨fun p hp => (hmem p hp).resolve_left List.not_mem_nil, hnodup, hall⟩

/-! ## Rounds -/

/-- The path is the trail. -/
structure Represents (p : TraversalPath) (t : List (String × String)) : Prop where
  entities : p.pathEntityIds = p.seedId :: t.map (·.2)
  assertions : p.pathAssertions = t.map (·.1)

theorem getLastD_trail (x : String) (t : List (String × String)) (d : String) :
    (x :: t.map (·.2)).getLastD d = lastVertex x t := by
  induction t generalizing x with
  | nil => rfl
  | cons m t ih => exact ih m.2

theorem Represents.target {p : TraversalPath} {t : List (String × String)} (h : Represents p t) :
    p.target = lastVertex p.seedId t := by
  unfold TraversalPath.target
  rw [h.entities, getLastD_trail]

theorem Represents.unique {p q : TraversalPath} {t u : List (String × String)} (hp : Represents p t) (hq : Represents q u)
    (ht : SimpleTrail (Follows G R r) p.seedId t) (hu : SimpleTrail (Follows G R r) q.seedId u) (h : p.key = q.key) :
    t = u ∧ p.seedId = q.seedId := by
  have hseed : p.seedId = q.seedId := congrArg (·.1) h
  have hassertions : p.pathAssertions = q.pathAssertions := congrArg (·.2.2) h
  rw [hp.assertions, hq.assertions] at hassertions
  have hstep : ∀ x a y z, Follows G R r x a y → Follows G R r x a z → y = z := fun _ _ _ _ => follows_unique
  have huwalks : Walks (Follows G R r) p.seedId u := hseed ▸ hu.walks
  exact ⟨walks_unique hstep ht.walks huwalks hassertions, hseed⟩

variable (G R T r)

/-- The paths are the simple trails of a length from the seeds, each once. -/
structure Level (n : Nat) (paths : List TraversalPath) : Prop where
  sound : ∀ p ∈ paths, p.seedId ∈ seedEntities T r ∧ p.hops = n ∧ R.round (15 / 100) ≤ p.minConf ∧
    ∃ t, Represents p t ∧ SimpleTrail (Follows G R r) p.seedId t ∧ t.length = n
  full : ∀ s ∈ seedEntities T r, ∀ t, SimpleTrail (Follows G R r) s t → t.length = n →
    ∃ p ∈ paths, p.seedId = s ∧ Represents p t
  nodup : (paths.map (·.key)).Nodup

variable {G R T r}

/-- The added candidates are a level, if the candidates are all trails of that length and no key was seen. -/
theorem level_addPaths {n : Nat} {seen : List PathKey} {candidates : List TraversalPath}
    (hsound : ∀ p ∈ candidates, p.seedId ∈ seedEntities T r ∧ p.hops = n ∧ R.round (15 / 100) ≤ p.minConf ∧
      ∃ t, Represents p t ∧ SimpleTrail (Follows G R r) p.seedId t ∧ t.length = n)
    (hfull : ∀ s ∈ seedEntities T r, ∀ t, SimpleTrail (Follows G R r) s t → t.length = n →
      ∃ p ∈ candidates, p.seedId = s ∧ Represents p t)
    (hseen : ∀ p ∈ candidates, p.key ∉ seen) : Level G R T r n (addPaths seen candidates) := by
  obtain ⟨hmem, hnodup, hall⟩ := addPaths_spec seen candidates
  refine ⟨fun p hp => hsound p (hmem p hp).1, fun s hs t ht hn => ?_, hnodup⟩
  obtain ⟨c, hc, hseed, hrep⟩ := hfull s hs t ht hn
  obtain ⟨p, hp, hkey⟩ := List.mem_map.1 ((hall c hc).resolve_left (hseen c hc))
  obtain ⟨-, -, -, u, hrepu, hu, -⟩ := hsound p (hmem p hp).1
  obtain ⟨rfl, hsame⟩ := hrepu.unique hrep hu (hseed ▸ ht) hkey
  exact ⟨p, hp, hsame.trans hseed, hrepu⟩

theorem firstRound_level (hwhole : Whole G r (seedEntities T r)) :
    Level G R T r 1 (firstRound R T r (G.stepExpand r.direction (seedEntities T r))) := by
  refine level_addPaths (fun p hp => ?_) (fun s hs t ht hn => ?_) fun _ _ => List.not_mem_nil
  · obtain ⟨row, hrow, rfl⟩ := List.mem_map.1 hp
    obtain ⟨hrow, husable⟩ := List.mem_filter.1 hrow
    obtain ⟨hsrc, hfollows⟩ := follows_of_row hrow husable
    have hne : row.srcId ≠ row.dstId := by
      obtain ⟨_, _, _, hne, _⟩ := hfollows
      exact hne
    have htrail : SimpleTrail (Follows G R r) row.srcId ([] ++ [(row.assertionId, row.dstId)]) :=
      simpleTrail_concat.2 ⟨SimpleTrail.nil _, hfollows, by simpa using fun h => hne h.symm, by simp⟩
    exact ⟨hsrc, rfl, (usable_iff.1 husable).2.2, _, ⟨rfl, rfl⟩, htrail, rfl⟩
  · obtain ⟨⟨a, y⟩, rfl⟩ := List.length_eq_one_iff.1 hn
    obtain ⟨row, hrow, husable, rfl, rfl, rfl⟩ := row_of_follows hwhole hs ht.walks.1
    exact ⟨firstPath R T r row, List.mem_map.2 ⟨row, List.mem_filter.2 ⟨hrow, husable⟩, rfl⟩, rfl, rfl, rfl⟩

/-- An extension is the trail with one step more. -/
theorem extendPath_represents {hop : Nat} {row : ExpandRow} {p q : TraversalPath} {t : List (String × String)}
    (hp : Represents p t) (ht : SimpleTrail (Follows G R r) p.seedId t) (hsrc : p.target = row.srcId)
    (hfollows : Follows G R r row.srcId row.assertionId row.dstId) (h : extendPath R T r hop row p = some q) :
    q.seedId = p.seedId ∧ q.hops = hop ∧ q.minConf = min p.minConf row.conf ∧
      Represents q (t ++ [(row.assertionId, row.dstId)]) ∧
      SimpleTrail (Follows G R r) q.seedId (t ++ [(row.assertionId, row.dstId)]) := by
  unfold extendPath at h
  split at h
  · cases h
  · next hnew =>
    obtain ⟨hentity, hassertion⟩ := not_or.1 hnew
    obtain rfl := Option.some.inj h
    refine ⟨rfl, rfl, rfl, ⟨?_, ?_⟩, simpleTrail_concat.2 ⟨ht, ?_, ?_, ?_⟩⟩
    · simp [hp.entities]
    · simp [hp.assertions]
    · rw [← hp.target, hsrc]
      exact hfollows
    · exact hp.entities ▸ hentity
    · exact hp.assertions ▸ hassertion

theorem nextRound_level {n : Nat} {prev : List TraversalPath} {seen : List PathKey} {srcIds : List String}
    (hprev : Level G R T r n prev) (hseen : ∀ k ∈ seen, k.2.2.length ≤ n) (hwhole : Whole G r srcIds)
    (hfrontier : ∀ p ∈ prev, p.target ∈ srcIds) :
    Level G R T r (n + 1) (nextRound R T r (n + 1) prev seen (G.stepExpand r.direction srcIds)) := by
  have hsound : ∀ q ∈ ((G.stepExpand r.direction srcIds).filter (usable R r)).flatMap fun row =>
      (prev.filter fun p => decide (p.target = row.srcId)).filterMap (extendPath R T r (n + 1) row),
      q.seedId ∈ seedEntities T r ∧ q.hops = n + 1 ∧ R.round (15 / 100) ≤ q.minConf ∧
        ∃ t, Represents q t ∧ SimpleTrail (Follows G R r) q.seedId t ∧ t.length = n + 1 := by
    intro q hq
    obtain ⟨row, hrow, hq⟩ := List.mem_flatMap.1 hq
    obtain ⟨hrow, husable⟩ := List.mem_filter.1 hrow
    obtain ⟨p, hp, hextend⟩ := List.mem_filterMap.1 hq
    obtain ⟨hp, hsrc⟩ := List.mem_filter.1 hp
    obtain ⟨hseed, -, hconf, t, hrep, ht, hn⟩ := hprev.sound p hp
    obtain ⟨hsame, hhops, hmin, hrepq, htq⟩ :=
      extendPath_represents hrep ht (of_decide_eq_true hsrc) (follows_of_row hrow husable).2 hextend
    refine ⟨hsame ▸ hseed, hhops, ?_, _, hrepq, htq, by simp [hn]⟩
    rw [hmin]
    exact le_min hconf (usable_iff.1 husable).2.2
  refine level_addPaths hsound (fun s hs u hu hn => ?_) fun q hq hmem => ?_
  · rcases List.eq_nil_or_concat u with rfl | ⟨t, ⟨a, y⟩, rfl⟩
    · simp at hn
    rw [List.concat_eq_append] at hu hn ⊢
    obtain ⟨ht, hfollows, hy, ha⟩ := simpleTrail_concat.1 hu
    obtain ⟨p, hp, rfl, hrep⟩ := hprev.full s hs t ht (by simpa using hn)
    obtain ⟨row, hrow, husable, hsrc, rfl, rfl⟩ :=
      row_of_follows hwhole (hrep.target ▸ hfrontier p hp) hfollows
    have hnew : ¬ (row.dstId ∈ p.pathEntityIds ∨ row.assertionId ∈ p.pathAssertions) := by
      rw [hrep.entities, hrep.assertions]
      exact not_or.2 ⟨hy, ha⟩
    obtain ⟨q, hq⟩ : ∃ q, extendPath R T r (n + 1) row p = some q := by
      unfold extendPath
      rw [if_neg hnew]
      exact ⟨_, rfl⟩
    have hsrc' : p.target = row.srcId := hrep.target.trans hsrc.symm
    obtain ⟨hsame, -, -, hrepq, -⟩ :=
      extendPath_represents hrep ht hsrc' (follows_of_row hrow husable).2 hq
    refine ⟨q, List.mem_flatMap.2 ⟨row, List.mem_filter.2 ⟨hrow, husable⟩, List.mem_filterMap.2 ⟨p, ?_, hq⟩⟩, hsame, hrepq⟩
    exact List.mem_filter.2 ⟨hp, decide_eq_true hsrc'⟩
  · obtain ⟨-, -, -, t, hrep, -, hn⟩ := hsound q hq
    have hlength : q.pathAssertions.length ≤ n := hseen q.key hmem
    rw [hrep.assertions, List.length_map] at hlength
    omega

/-! ## The whole search -/

variable (G R T r)

/-- The sources of the expansions. -/
def sourcesAsked : List (List String) :=
  seedEntities T r :: ((if r.maxHops < 2 then [] else [frontier (hop1Paths G R T r)]) ++
    (if r.maxHops < 3 then [] else [frontier (hop2Paths G R T r)]))

/-- No expansion returns as many rows as its limit, and no frontier has more nodes than its limit. -/
structure Uncut : Prop where
  rows : ∀ srcIds ∈ sourcesAsked G R T r, Whole G r srcIds
  first : 2 ≤ r.maxHops → (frontierOrder (hop1Paths G R T r)).length ≤ 64
  second : 3 ≤ r.maxHops → (frontierOrder (hop2Paths G R T r)).length ≤ 64

/-- Seed, target and assertions of a simple path of at most `max_hops` steps. -/
def IsPath (k : PathKey) : Prop :=
  k.1 ∈ seedEntities T r ∧ ∃ t, SimpleTrail (Follows G R r) k.1 t ∧ 1 ≤ t.length ∧ t.length ≤ r.maxHops ∧
    k.2 = (lastVertex k.1 t, t.map (·.1))

variable {G R T r}

theorem mem_frontier {paths : List TraversalPath} (h : (frontierOrder paths).length ≤ 64) :
    ∀ p ∈ paths, p.target ∈ frontier paths := by
  intro p hp
  unfold frontier
  rw [List.take_of_length_le h]
  unfold frontierOrder
  exact (orderBy_perm _ _).mem_iff.2 (List.mem_dedup.2 (List.mem_map_of_mem hp))

theorem Level.length {n : Nat} {paths : List TraversalPath} (h : Level G R T r n paths) :
    ∀ k ∈ paths.map (·.key), k.2.2.length = n := by
  rintro k hk
  obtain ⟨p, hp, rfl⟩ := List.mem_map.1 hk
  obtain ⟨-, -, -, t, hrep, -, hn⟩ := h.sound p hp
  have hassertions : p.key.2.2 = t.map (·.1) := hrep.assertions
  rw [hassertions, List.length_map, hn]

theorem hop1_level (hcut : Uncut G R T r) : Level G R T r 1 (hop1Paths G R T r) :=
  firstRound_level (hcut.rows _ List.mem_cons_self)

theorem hop2_level (hcut : Uncut G R T r) (hmax : 2 ≤ r.maxHops) : Level G R T r 2 (hop2Paths G R T r) := by
  have hlevel := hop1_level hcut
  unfold hop2Paths
  rw [if_neg (by omega)]
  refine nextRound_level hlevel (fun k hk => (hlevel.length k hk).le) (hcut.rows _ ?_) (mem_frontier (hcut.first hmax))
  unfold sourcesAsked
  rw [if_neg (by omega)]
  simp

theorem hop3_level (hcut : Uncut G R T r) (hmax : 3 ≤ r.maxHops) : Level G R T r 3 (hop3Paths G R T r) := by
  have hfirst := hop1_level hcut
  have hlevel := hop2_level hcut (by omega)
  unfold hop3Paths
  rw [if_neg (by omega)]
  refine nextRound_level hlevel (fun k hk => ?_) (hcut.rows _ ?_) (mem_frontier (hcut.second hmax))
  · rw [List.map_append, List.mem_append] at hk
    rcases hk with hk | hk
    · have := hfirst.length k hk
      omega
    · exact (hlevel.length k hk).le
  · unfold sourcesAsked
    rw [if_neg (by omega), if_neg (by omega)]
    simp

/-- The search consists of the levels up to the bound. -/
theorem search_rounds (hcut : Uncut G R T r) (hmax : r.maxHops ∈ [1, 2, 3]) :
    ∃ rounds : List (List TraversalPath), rounds.length = r.maxHops ∧ searchPaths G R T r = rounds.flatten ∧
      ∀ i, (h : i < rounds.length) → Level G R T r (i + 1) rounds[i] := by
  have hnone2 : r.maxHops < 2 → hop2Paths G R T r = [] := fun h => by unfold hop2Paths; rw [if_pos h]
  have hnone3 : r.maxHops < 3 → hop3Paths G R T r = [] := fun h => by unfold hop3Paths; rw [if_pos h]
  unfold searchPaths
  simp only [List.mem_cons, List.not_mem_nil, or_false] at hmax
  rcases hmax with hmax | hmax | hmax
  · refine ⟨[hop1Paths G R T r], hmax.symm, by rw [hnone2 (by omega), hnone3 (by omega)]; simp, fun i hi => ?_⟩
    obtain rfl : i = 0 := by simpa using hi
    exact hop1_level hcut
  · refine ⟨[hop1Paths G R T r, hop2Paths G R T r], hmax.symm, by rw [hnone3 (by omega)]; simp, fun i hi => ?_⟩
    have hi : i = 0 ∨ i = 1 := by simp at hi; omega
    rcases hi with rfl | rfl
    · exact hop1_level hcut
    · exact hop2_level hcut (by omega)
  · refine ⟨[hop1Paths G R T r, hop2Paths G R T r, hop3Paths G R T r], hmax.symm, by simp, fun i hi => ?_⟩
    have hi : i = 0 ∨ i = 1 ∨ i = 2 := by simp at hi; omega
    rcases hi with rfl | rfl | rfl
    · exact hop1_level hcut
    · exact hop2_level hcut (by omega)
    · exact hop3_level hcut (by omega)

theorem Represents.key {p : TraversalPath} {t : List (String × String)} (h : Represents p t) :
    p.key = (p.seedId, lastVertex p.seedId t, t.map (·.1)) := by
  unfold TraversalPath.key
  rw [h.target, h.assertions]

/-- The paths of the search are the simple paths, each once. -/
theorem searchPaths_keys (hcut : Uncut G R T r) (hmax : r.maxHops ∈ [1, 2, 3]) :
    ((searchPaths G R T r).map (·.key)).Nodup ∧
      (∀ k, k ∈ (searchPaths G R T r).map (·.key) ↔ IsPath G R T r k) ∧
      ∀ p ∈ searchPaths G R T r, R.round (15 / 100) ≤ p.minConf := by
  obtain ⟨rounds, hlength, hsearch, hlevel⟩ := search_rounds hcut hmax
  rw [hsearch]
  refine ⟨?_, fun k => ⟨fun hk => ?_, ?_⟩, fun p hp => ?_⟩
  · rw [List.map_flatten, List.nodup_flatten]
    refine ⟨fun keys hkeys => ?_, ?_⟩
    · obtain ⟨paths, hpaths, rfl⟩ := List.mem_map.1 hkeys
      obtain ⟨i, hi, rfl⟩ := List.getElem_of_mem hpaths
      exact (hlevel i hi).nodup
    · rw [List.pairwise_map, List.pairwise_iff_getElem]
      intro i j hi hj hij k hk hk'
      have := (hlevel i hi).length k hk
      have := (hlevel j hj).length k hk'
      omega
  · obtain ⟨p, hp, rfl⟩ := List.mem_map.1 hk
    obtain ⟨paths, hpaths, hp⟩ := List.mem_flatten.1 hp
    obtain ⟨i, hi, rfl⟩ := List.getElem_of_mem hpaths
    obtain ⟨hseed, -, -, t, hrep, ht, hn⟩ := (hlevel i hi).sound p hp
    exact ⟨hseed, t, ht, by omega, by omega, congrArg (·.2) hrep.key⟩
  · rintro ⟨hseed, t, ht, hpos, hbound, hk⟩
    have hi : t.length - 1 < rounds.length := by omega
    obtain ⟨p, hp, hsame, hrep⟩ := (hlevel _ hi).full k.1 hseed t ht (by omega)
    refine List.mem_map.2 ⟨p, List.mem_flatten.2 ⟨_, List.getElem_mem hi, hp⟩, ?_⟩
    rw [hrep.key, hsame, ← hk]
  · obtain ⟨paths, hpaths, hp⟩ := List.mem_flatten.1 hp
    obtain ⟨i, hi, rfl⟩ := List.getElem_of_mem hpaths
    exact ((hlevel i hi).sound p hp).2.2.1

/-! ## Scores -/

variable (R T r)

/-- The score of the path was computed for at most three steps. -/
def Scored (p : TraversalPath) : Prop :=
  ∃ hop seedId edges confidences dirs, dirs.length ≤ hop ∧ hop ≤ 3 ∧
    p.pathScore = computePathScore R T r hop seedId edges confidences dirs

/-- The score of a target from its paths. -/
def targetScore (paths : List TraversalPath) : Option ℚ :=
  match orderPaths paths with
  | [] => none
  | best :: rest =>
    some (supportScore R best.pathScore (best :: rest).length ((best :: rest).map (·.seedId)).dedup.length)

variable {R T r}

theorem computePathScore_nonneg {hop : Nat} {seedId : String} {edges : List EdgeText} {confidences : List ℚ}
    {dirs : List EdgeDirection} (hdirs : dirs.length ≤ hop) (hhop : hop ≤ 3) :
    0 ≤ computePathScore R T r hop seedId edges confidences dirs := by
  have hlit : ∀ q : ℚ, 0 ≤ q → 0 ≤ R.round q := fun q => R.nonneg
  unfold computePathScore
  dsimp only
  refine R.mul_nonneg (R.mul_nonneg (R.mul_nonneg (R.mul_nonneg ?_ ?_) ?_) ?_) ?_
  · exact R.div_nonneg zero_le_one (R.add_nonneg zero_le_one (R.mul_nonneg (hlit _ (by norm_num)) (Nat.cast_nonneg _)))
  · exact R.add_nonneg (hlit _ (by norm_num)) (R.mul_nonneg (hlit _ (by norm_num)) (le_max_left _ _))
  · exact le_max_of_le_left (hlit _ (by norm_num))
  · exact le_max_of_le_left (hlit _ (by norm_num))
  · refine R.sub_nonneg (R.div_mul_le_one (R.le_one (by norm_num)) ?_ (by omega))
    exact List.count_le_length.trans hdirs

theorem supportScore_mono {a b : ℚ} {m n c d : Nat} (ha : 0 ≤ a) (hab : a ≤ b) (hmn : m ≤ n) (hcd : c ≤ d) :
    supportScore R a m c ≤ supportScore R b n d := by
  have hlit : ∀ q : ℚ, 0 ≤ q → 0 ≤ R.round q := fun q => R.nonneg
  have hterm : ∀ {q : ℚ} {k l : Nat}, 0 ≤ q → k ≤ l →
      R.mul (R.round q) (k - 1 : Nat) ≤ R.mul (R.round q) (l - 1 : Nat) := by
    intro q k l hq hkl
    exact R.mul_le_mul (hlit q hq) (Nat.cast_nonneg _) le_rfl (Nat.cast_le.2 (by omega))
  have hbonus : ∀ k l : Nat, 0 ≤ min (R.round (1 / 2))
      (R.add (R.mul (R.round (12 / 100)) (k - 1 : Nat)) (R.mul (R.round (8 / 100)) (l - 1 : Nat))) := by
    intro k l
    refine le_min (hlit _ (by norm_num)) (R.add_nonneg ?_ ?_)
    · exact R.mul_nonneg (hlit _ (by norm_num)) (Nat.cast_nonneg _)
    · exact R.mul_nonneg (hlit _ (by norm_num)) (Nat.cast_nonneg _)
  unfold supportScore
  refine R.mul_le_mul ha (R.add_nonneg zero_le_one (hbonus m c)) hab (R.add_le_add le_rfl ?_)
  exact min_le_min le_rfl (R.add_le_add (hterm (by norm_num) hmn) (hterm (by norm_num) hcd))

theorem firstRound_scored (rows : List ExpandRow) :
    ∀ p ∈ firstRound R T r rows, p.edgeDirections.length = 1 ∧ Scored R T r p := by
  intro p hp
  obtain ⟨row, -, rfl⟩ := List.mem_map.1 ((addPaths_spec _ _).1 p hp).1
  exact ⟨rfl, 1, _, _, _, [row.direction], by simp, by omega, rfl⟩

theorem nextRound_scored {n : Nat} (hn : n < 3) {prev : List TraversalPath}
    (hprev : ∀ p ∈ prev, p.edgeDirections.length = n) (seen : List PathKey) (rows : List ExpandRow) :
    ∀ p ∈ nextRound R T r (n + 1) prev seen rows, p.edgeDirections.length = n + 1 ∧ Scored R T r p := by
  intro q hq
  obtain ⟨row, -, hq⟩ := List.mem_flatMap.1 ((addPaths_spec _ _).1 q hq).1
  obtain ⟨p, hp, hextend⟩ := List.mem_filterMap.1 hq
  have hlength := hprev p (List.mem_filter.1 hp).1
  unfold extendPath at hextend
  split at hextend
  · cases hextend
  · obtain rfl := Option.some.inj hextend
    have hdirs : (p.edgeDirections ++ [row.direction]).length = n + 1 := by simp [hlength]
    exact ⟨hdirs, n + 1, _, _, _, p.edgeDirections ++ [row.direction], hdirs.le, by omega, rfl⟩

theorem searchPaths_scored : ∀ p ∈ searchPaths G R T r, Scored R T r p := by
  have hfirst := firstRound_scored (R := R) (T := T) (r := r) (G.stepExpand r.direction (seedEntities T r))
  have hsecond : ∀ p ∈ hop2Paths G R T r, p.edgeDirections.length = 2 ∧ Scored R T r p := by
    unfold hop2Paths
    split
    · exact fun p hp => absurd hp List.not_mem_nil
    · exact nextRound_scored (by omega) (fun p hp => (hfirst p hp).1) _ _
  have hthird : ∀ p ∈ hop3Paths G R T r, p.edgeDirections.length = 3 ∧ Scored R T r p := by
    unfold hop3Paths
    split
    · exact fun p hp => absurd hp List.not_mem_nil
    · exact nextRound_scored (by omega) (fun p hp => (hsecond p hp).1) _ _
  intro p hp
  rcases List.mem_append.1 hp with hp | hp
  · rcases List.mem_append.1 hp with hp | hp
    · exact (hfirst p hp).2
    · exact (hsecond p hp).2
  · exact (hthird p hp).2

/-- The first path in the order has the best score. -/
theorem orderPaths_best {paths rest : List TraversalPath} {best : TraversalPath}
    (h : orderPaths paths = best :: rest) : best ∈ paths ∧ ∀ p ∈ paths, p.pathScore ≤ best.pathScore := by
  have hperm := orderBy_perm
    (fun p : TraversalPath => toLex (-p.pathScore, toLex (p.hops, toLex (p.seedId, p.pathAssertions)))) paths
  have hsorted := orderBy_sorted
    (fun p : TraversalPath => toLex (-p.pathScore, toLex (p.hops, toLex (p.seedId, p.pathAssertions)))) paths
  unfold orderPaths at h
  rw [h] at hperm hsorted
  refine ⟨hperm.mem_iff.1 List.mem_cons_self, fun p hp => ?_⟩
  rcases List.mem_cons.1 (hperm.mem_iff.2 hp) with rfl | hp
  · exact le_rfl
  · have hle := (List.pairwise_cons.1 hsorted).1 p hp
    rw [Prod.Lex.toLex_le_toLex] at hle
    rcases hle with hlt | ⟨heq, -⟩
    · dsimp only at hlt
      linarith
    · dsimp only at heq
      linarith

theorem orderPaths_perm (paths : List TraversalPath) : (orderPaths paths).Perm paths := orderBy_perm _ _

/-- A further path never lowers the score of a target. -/
theorem targetScore_mono {paths : List TraversalPath} {p : TraversalPath} {s : ℚ}
    (hscored : ∀ q ∈ paths, Scored R T r q) (h : targetScore R paths = some s) :
    ∃ s', targetScore R (p :: paths) = some s' ∧ s ≤ s' := by
  unfold targetScore at h ⊢
  cases hold : orderPaths paths with
  | nil => rw [hold] at h; cases h
  | cons best rest =>
    rw [hold] at h
    obtain rfl := Option.some.inj h
    cases hnew : orderPaths (p :: paths) with
    | nil =>
      have := (orderPaths_perm (p :: paths)).length_eq
      rw [hnew] at this
      simp at this
    | cons best' rest' =>
      refine ⟨_, rfl, ?_⟩
      obtain ⟨hbest, -⟩ := orderPaths_best hold
      have hperm := orderPaths_perm paths
      have hperm' := orderPaths_perm (p :: paths)
      rw [hold] at hperm
      rw [hnew] at hperm'
      have hnonneg : 0 ≤ best.pathScore := by
        obtain ⟨hop, seedId, edges, confidences, dirs, hdirs, hhop, hscore⟩ := hscored best hbest
        rw [hscore]
        exact computePathScore_nonneg hdirs hhop
      refine supportScore_mono hnonneg ((orderPaths_best hnew).2 best (List.mem_cons_of_mem p hbest)) ?_ ?_
      · rw [hperm.length_eq, hperm'.length_eq]
        exact Nat.le_succ _
      · rw [← List.toFinset_card_of_nodup (List.nodup_dedup _), ← List.toFinset_card_of_nodup (List.nodup_dedup _)]
        refine Finset.card_le_card fun x hx => ?_
        rw [List.mem_toFinset, List.mem_dedup] at hx ⊢
        obtain ⟨q, hq, rfl⟩ := List.mem_map.1 hx
        exact List.mem_map_of_mem (hperm'.mem_iff.2 (List.mem_cons_of_mem p (hperm.mem_iff.1 hq)))

/-! ## Hits -/

/-- A hit has the target's paths in their order and its score, which is not below the floor. -/
theorem hitOf_eq_some {id : String} {paths : List TraversalPath} {h : TraversalHit} (heq : hitOf R id paths = some h) :
    h.entityId = id ∧ h.paths.Perm paths ∧ targetScore R paths = some h.score ∧ R.round (1 / 10) ≤ h.score := by
  have hperm := orderPaths_perm paths
  unfold hitOf at heq
  unfold targetScore
  cases horder : orderPaths paths with
  | nil => rw [horder] at heq; cases heq
  | cons best rest =>
    rw [horder] at heq hperm
    dsimp only at heq
    split at heq
    · cases heq
    · next hkept =>
      obtain rfl := Option.some.inj heq
      exact ⟨rfl, hperm, rfl, not_lt.1 (not_or.1 hkept).1⟩

/-- A target without a hit has no path, or its score is below the floor. -/
theorem hitOf_eq_none {id : String} {paths : List TraversalPath} (hconf : ∀ p ∈ paths, R.round (15 / 100) ≤ p.minConf)
    (heq : hitOf R id paths = none) : paths = [] ∨ ∃ s, targetScore R paths = some s ∧ s < R.round (1 / 10) := by
  have hperm := orderPaths_perm paths
  unfold hitOf at heq
  unfold targetScore
  cases horder : orderPaths paths with
  | nil =>
    rw [horder] at hperm
    exact Or.inl hperm.nil_eq.symm
  | cons best rest =>
    rw [horder] at heq hperm
    dsimp only at heq
    split at heq
    · next hlow =>
      have hbest := hconf best (hperm.mem_iff.1 List.mem_cons_self)
      exact Or.inr ⟨_, rfl, hlow.resolve_right (not_lt.2 hbest)⟩
    · cases heq

theorem mem_orderedHits {paths : List TraversalPath} {h : TraversalHit} :
    h ∈ orderedHits R paths ↔ ∃ id ∈ paths.map (·.target), hitOf R id (pathsTo paths id) = some h := by
  unfold orderedHits
  rw [(orderBy_perm _ _).mem_iff, List.mem_filterMap]
  simp only [List.mem_dedup]

theorem orderedHits_nodup (paths : List TraversalPath) : ((orderedHits R paths).map (·.entityId)).Nodup := by
  unfold orderedHits
  rw [((orderBy_perm _ _).map _).nodup_iff, List.map_filterMap]
  refine (List.nodup_dedup _).filterMap fun a b id ha hb => ?_
  obtain ⟨h, hhit, hid⟩ := Option.map_eq_some_iff.1 ha
  obtain ⟨h', hhit', hid'⟩ := Option.map_eq_some_iff.1 hb
  exact (hitOf_eq_some hhit).1.symm.trans (hid.trans (hid'.symm.trans (hitOf_eq_some hhit').1))

/-- The key by which the hits are ordered. -/
def hitKey (h : TraversalHit) : ℚ ×ₗ Nat ×ₗ String := toLex (-h.score, toLex (h.hops, h.entityId))

theorem orderedHits_sorted (paths : List TraversalPath) :
    (orderedHits R paths).Pairwise fun x y => hitKey x ≤ hitKey y := orderBy_sorted _ _

variable (G R T r)

/-- The hits have, for each target, exactly its simple paths, each once, and only a score below the floor leaves a
target out. -/
structure ExactHits (all : List TraversalHit) : Prop where
  sorted : all.Pairwise fun x y => hitKey x ≤ hitKey y
  targets : (all.map (·.entityId)).Nodup
  once : ∀ h ∈ all, (h.paths.map (·.key)).Nodup
  paths : ∀ h ∈ all, ∀ k, k ∈ h.paths.map (·.key) ↔ k.2.1 = h.entityId ∧ IsPath G R T r k
  floor : ∀ h ∈ all, R.round (1 / 10) ≤ h.score
  complete : ∀ k, IsPath G R T r k → k.2.1 ∈ all.map (·.entityId) ∨
    ∃ s, targetScore R (pathsTo (searchPaths G R T r) k.2.1) = some s ∧ s < R.round (1 / 10)

variable {G R T r}

theorem orderedHits_exact (hcut : Uncut G R T r) (hmax : r.maxHops ∈ [1, 2, 3]) :
    ExactHits G R T r (orderedHits R (searchPaths G R T r)) := by
  obtain ⟨hnodup, hkeys, hconf⟩ := searchPaths_keys hcut hmax
  have hpathsTo : ∀ id, ((pathsTo (searchPaths G R T r) id).map (·.key)).Nodup ∧
      ∀ k, k ∈ (pathsTo (searchPaths G R T r) id).map (·.key) ↔ k.2.1 = id ∧ IsPath G R T r k := by
    intro id
    refine ⟨hnodup.sublist (List.filter_sublist.map _), fun k => ?_⟩
    rw [← hkeys]
    constructor
    · rintro hk
      obtain ⟨p, hp, rfl⟩ := List.mem_map.1 hk
      obtain ⟨hp, htarget⟩ := List.mem_filter.1 hp
      exact ⟨of_decide_eq_true htarget, List.mem_map_of_mem hp⟩
    · rintro ⟨htarget, hk⟩
      obtain ⟨p, hp, rfl⟩ := List.mem_map.1 hk
      exact List.mem_map_of_mem (List.mem_filter.2 ⟨hp, decide_eq_true htarget⟩)
  refine ⟨orderedHits_sorted _, orderedHits_nodup _, fun h hh => ?_, fun h hh k => ?_, fun h hh => ?_, fun k hk => ?_⟩
  · obtain ⟨id, -, heq⟩ := mem_orderedHits.1 hh
    exact (((hitOf_eq_some heq).2.1.map _).nodup_iff).2 (hpathsTo id).1
  · obtain ⟨id, -, heq⟩ := mem_orderedHits.1 hh
    obtain ⟨rfl, hperm, -⟩ := hitOf_eq_some heq
    rw [(hperm.map _).mem_iff]
    exact (hpathsTo _).2 k
  · obtain ⟨id, -, heq⟩ := mem_orderedHits.1 hh
    exact (hitOf_eq_some heq).2.2.2
  · have hmem := (hkeys k).2 hk
    obtain ⟨p, hp, rfl⟩ := List.mem_map.1 hmem
    cases heq : hitOf R p.target (pathsTo (searchPaths G R T r) p.target) with
    | some h =>
      left
      have hh := mem_orderedHits.2 ⟨p.target, List.mem_map_of_mem hp, heq⟩
      exact List.mem_map.2 ⟨h, hh, (hitOf_eq_some heq).1⟩
    | none =>
      right
      refine (hitOf_eq_none (fun q hq => hconf q (List.mem_filter.1 hq).1) heq).resolve_left fun hnil => ?_
      have hmem' : p ∈ pathsTo (searchPaths G R T r) p.target := List.mem_filter.2 ⟨hp, decide_eq_true rfl⟩
      exact List.ne_nil_of_mem hmem' hnil

/-- Where no path can be, no hits are exact. -/
theorem exactHits_nil (h : ∀ k, ¬ IsPath G R T r k) : ExactHits G R T r [] :=
  ⟨List.Pairwise.nil, List.nodup_nil, fun _ hh => absurd hh List.not_mem_nil, fun _ hh => absurd hh List.not_mem_nil,
    fun _ hh => absurd hh List.not_mem_nil, fun k hk => absurd hk (h k)⟩

theorem not_isPath_of_seeds (h : seedEntities T r = []) (k : PathKey) : ¬ IsPath G R T r k := by
  rintro ⟨hseed, -⟩
  rw [h] at hseed
  cases hseed

theorem not_isPath_of_assertions (h : r.allowedAssertionIds = []) (k : PathKey) : ¬ IsPath G R T r k := by
  rintro ⟨-, t, ht, hpos, -⟩
  cases t with
  | nil => simp at hpos
  | cons m t =>
    obtain ⟨_, _, _, _, _, _, hallowed, _⟩ := ht.walks.1
    rw [h] at hallowed
    cases hallowed

/-- The search returns the best of the exact hits, as many as it is asked for; and a further path of a target never
lowers its score. -/
theorem searchV4Graph_exact (hmax : r.maxHops ∈ [1, 2, 3]) (hcut : Uncut G R T r) {hits : List TraversalHit} (h : searchV4Graph G R T r = .ok hits) :
    (∃ all, hits = all.take r.limit ∧ ExactHits G R T r all) ∧ (∀ p ∈ searchPaths G R T r, Scored R T r p) ∧
      ∀ paths p s, (∀ q ∈ paths, Scored R T r q) → targetScore R paths = some s →
        ∃ s', targetScore R (p :: paths) = some s' ∧ s ≤ s' := by
  refine ⟨?_, searchPaths_scored, fun paths p s hscored => targetScore_mono hscored⟩
  unfold searchV4Graph at h
  rw [if_neg (not_not.2 hmax)] at h
  split at h
  · next hempty =>
    obtain rfl := Except.ok.inj h
    rcases hempty with hseeds | hentities | hassertions | hlimit
    · refine ⟨[], List.take_nil.symm, exactHits_nil (not_isPath_of_seeds ?_)⟩
      unfold seedEntities
      rw [hseeds]
      rfl
    · refine ⟨[], List.take_nil.symm, exactHits_nil (not_isPath_of_seeds ?_)⟩
      unfold seedEntities
      rw [hentities]
      simp
    · exact ⟨[], List.take_nil.symm, exactHits_nil (not_isPath_of_assertions hassertions)⟩
    · refine ⟨_, ?_, orderedHits_exact hcut hmax⟩
      rw [Nat.lt_one_iff.1 hlimit, List.take_zero]
  · split at h
    · cases h
    split at h
    · next hseeds =>
      obtain rfl := Except.ok.inj h
      exact ⟨[], List.take_nil.symm, exactHits_nil (not_isPath_of_seeds hseeds)⟩
    · obtain rfl := Except.ok.inj h
      exact ⟨_, rfl, orderedHits_exact hcut hmax⟩

/-! ## A fork -/

/-- Arithmetic without rounding. -/
def exactRounding : Rounding := ⟨id, monotone_id, fun _ _ => rfl⟩

def plainTexts : PathTexts := ⟨id, fun _ => [], fun t => t = "", fun _ => [], []⟩

/-- Two assertions that lead from one entity to two others. -/
def forkGraph : TenantGraph :=
  ⟨id, [⟨"left", "s", "a", "p", none, ""⟩, ⟨"right", "s", "b", "p", none, ""⟩], by decide⟩

def forkRequest (limit : Nat) : TraversalRequest where
  agentId := "t"
  seedEntityIds := ["s"]
  allowedEntityIds := ["s", "a", "b"]
  allowedAssertionIds := ["left", "right"]
  assertionEvidence := []
  maxHops := 1
  limit := limit
  query := ""
  seedScores := []
  legalRulesEnabled := false
  direction := "any"

theorem fork_uncut (limit : Nat) : Uncut forkGraph exactRounding plainTexts (forkRequest limit) where
  rows := by
    intro srcIds h
    obtain rfl : srcIds = ["s"] := List.mem_singleton.1 h
    exact ⟨show (forkGraph.allRows "any" ["s"]).1.length < fanoutLimit ["s"] by decide,
      show (forkGraph.allRows "any" ["s"]).2.length < fanoutLimit ["s"] by decide⟩
  first := fun h => absurd h (show ¬ 2 ≤ 1 by decide)
  second := fun h => absurd h (show ¬ 3 ≤ 1 by decide)

theorem searchV4Graph_exact_fork :
    (∃ all, (orderedHits exactRounding (searchPaths forkGraph exactRounding plainTexts (forkRequest 2))).take 2 =
        all.take (forkRequest 2).limit ∧ ExactHits forkGraph exactRounding plainTexts (forkRequest 2) all) ∧
      (∀ p ∈ searchPaths forkGraph exactRounding plainTexts (forkRequest 2),
        Scored exactRounding plainTexts (forkRequest 2) p) ∧
      ∀ paths p s, (∀ q ∈ paths, Scored exactRounding plainTexts (forkRequest 2) q) →
        targetScore exactRounding paths = some s →
          ∃ s', targetScore exactRounding (p :: paths) = some s' ∧ s ≤ s' :=
  searchV4Graph_exact (by decide) (fork_uncut 2) rfl

/-- With a limit of one hit, a path of the fork is on no hit although its target's score is above the floor. -/
theorem searchV4Graph_limited :
    Uncut forkGraph exactRounding plainTexts (forkRequest 1) ∧
      IsPath forkGraph exactRounding plainTexts (forkRequest 1) ("s", "b", ["right"]) ∧
      targetScore exactRounding (pathsTo (searchPaths forkGraph exactRounding plainTexts (forkRequest 1)) "b") = some 1 ∧
      (searchV4Graph forkGraph exactRounding plainTexts (forkRequest 1)).toOption.map
        (fun hits => hits.flatMap fun h => h.paths.map (·.key)) = some [("s", "a", ["left"])] := by
  refine ⟨fork_uncut 1, ⟨by decide, [("right", "b")], ⟨⟨?_, trivial⟩, by decide, by decide⟩, by decide, by decide, rfl⟩,
    by decide +kernel, by decide +kernel⟩
  exact ⟨_, List.mem_cons_of_mem _ List.mem_cons_self, rfl, by decide, Or.inl ⟨Or.inr rfl, rfl, rfl⟩, by decide, by decide,
    by decide +kernel⟩

end Mesa.Retrieval.Traversal
