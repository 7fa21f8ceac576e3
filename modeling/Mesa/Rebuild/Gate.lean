/-
When the parity check of a rebuild decides what it is there to decide: that a faithful replay passes
it, and that nothing else does. The check finds only rows that it can ask for: a vector needs an agent
and an id of safe characters, and a node an agent that is not empty.
-/
import Mesa.Foundation.Result
import Mesa.Rebuild.Batches
import Mesa.Rebuild.Parity

namespace Mesa.Rebuild

open Mesa.Foundation

variable {F : Type} {s : Snapshot} {graphEnabled : Bool} {parityLimit : Nat} {t : Staging F}

/-! ## Sums of checks -/

theorem foldlM_add_le {α ε : Type} {f : α → Except ε Nat} : ∀ {l : List α} {a r : Nat},
    l.foldlM (fun total x => do let n ← f x; pure (total + n)) a = .ok r → a ≤ r
  | [], a, r, h => by cases h; exact le_rfl
  | x :: l, a, r, h => by
    rw [List.foldlM_cons] at h
    obtain ⟨b, hb, h⟩ := bind_eq_ok.1 h
    obtain ⟨n, -, hb⟩ := bind_eq_ok.1 hb
    cases hb
    exact (Nat.le_add_right a n).trans (foldlM_add_le h)

/-- A sum of checks is zero exactly when every check is. -/
theorem foldlM_add_eq_self_iff {α ε : Type} {f : α → Except ε Nat} : ∀ {l : List α} {a : Nat},
    l.foldlM (fun total x => do let n ← f x; pure (total + n)) a = .ok a ↔ ∀ x ∈ l, f x = .ok 0
  | [], a => by simp [pure, Except.pure]
  | x :: l, a => by
    rw [List.foldlM_cons, List.forall_mem_cons]
    constructor
    · intro h
      obtain ⟨b, hb, h⟩ := bind_eq_ok.1 h
      obtain ⟨n, hn, hb⟩ := bind_eq_ok.1 hb
      cases hb
      have hle := foldlM_add_le h
      obtain rfl : n = 0 := by omega
      exact ⟨hn, foldlM_add_eq_self_iff.1 h⟩
    · rintro ⟨hx, hl⟩
      rw [hx]
      exact foldlM_add_eq_self_iff.2 hl

theorem missingOf_eq_zero {identifiers found : List String} :
    missingOf identifiers found = 0 ↔ ∀ id ∈ identifiers, id ∈ found := by
  unfold missingOf
  rw [List.length_eq_zero_iff, List.filter_eq_nil_iff]
  simp [List.mem_dedup]

theorem mem_byAgent {page : List (String × String)} {g : String × List String} :
    g ∈ byAgent page ↔ (∃ p ∈ page, p.1 = g.1) ∧ g.2 = (page.filter fun p => p.1 = g.1).map (·.2) := by
  unfold byAgent
  rw [List.mem_map]
  constructor
  · rintro ⟨agentId, hmem, rfl⟩
    rw [List.mem_eraseDups] at hmem
    obtain ⟨p, hp, rfl⟩ := List.mem_map.1 hmem
    exact ⟨⟨p, hp, rfl⟩, rfl⟩
  · rintro ⟨⟨p, hp, hpg⟩, hg⟩
    exact ⟨g.1, List.mem_eraseDups.2 (List.mem_map.2 ⟨p, hp, hpg⟩), by rw [← hg]⟩

/-- No identifier of a page is missing. -/
theorem missingInPage_eq_zero {lane : IdentityLane} {page : List (String × String)} :
    t.missingInPage lane page = .ok 0 ↔ ∀ g ∈ byAgent page, ∃ found, t.found lane g.1 g.2 = .ok found ∧
      ∀ id ∈ g.2, id ∈ found := by
  unfold Staging.missingInPage
  have hsum : (byAgent page).foldlM (fun total group => do
        let found ← t.found lane group.1 group.2
        pure (total + missingOf group.2 found)) 0 =
      (byAgent page).foldlM (fun total group => do
        let n ← (do let found ← t.found lane group.1 group.2; pure (missingOf group.2 found))
        pure (total + n)) 0 := by
    congr 1
    funext total group
    cases t.found lane group.1 group.2 <;> rfl
  rw [hsum, foldlM_add_eq_self_iff]
  refine forall₂_congr fun g _ => ?_
  constructor
  · intro h
    obtain ⟨found, hfound, hzero⟩ := bind_eq_ok.1 h
    exact ⟨found, hfound, missingOf_eq_zero.1 (Except.ok.inj hzero)⟩
  · rintro ⟨found, hfound, hall⟩
    rw [hfound]
    exact congrArg Except.ok (missingOf_eq_zero.2 hall)

/-! ## Identities -/

/-- An identity that a store can be asked for, and has. -/
def Staging.Has (t : Staging F) : IdentityLane → String × String → Prop
  | .vector, p => isSafeValue p.1 = true ∧ isSafeValue p.2 = true ∧ t.vectors.hasKey (p.2, p.1) = true
  | .graphEntity, p =>
    p.1 ≠ "" ∧ ∃ e ∈ t.graph.entities.rows, e.id = Provider.compositeId p.1 p.2 ∧ e.agentId = p.1
  | .graphAssertion, p =>
    p.1 ≠ "" ∧ ∃ r ∈ t.graph.assertions.rows, r.id = Provider.compositeId p.1 p.2 ∧ r.agentId = p.1

theorem mem_existingVectors {agentId id : String} {ids found : List String} (hid : id ∈ ids)
    (h : t.existingVectors agentId ids = .ok found) : id ∈ found ↔ t.Has .vector (agentId, id) := by
  unfold Staging.existingVectors at h
  rw [if_neg (by simpa using List.ne_nil_of_mem hid)] at h
  split at h
  · cases h
  · next hsafe =>
    cases h
    have hsafe : isSafeValue agentId = true := by simpa using hsafe
    rw [List.mem_map]
    constructor
    · rintro ⟨r, hr, rfl⟩
      obtain ⟨hrow, hcond⟩ := Table.mem_select.1 hr
      simp only [Bool.and_eq_true, decide_eq_true_eq, List.any_eq_true] at hcond
      obtain ⟨rfl, id, hid, hs, rfl⟩ := hcond
      have hkey : t.vectors.hasKey (Keyed.key r) = true := Table.hasKey_iff.2 (by rw [Table.lookup_of_mem hrow]; rfl)
      exact ⟨hsafe, hs, hkey⟩
    · rintro ⟨-, hs, hkey⟩
      obtain ⟨r, hr⟩ := Option.isSome_iff_exists.1 (Table.hasKey_iff.1 hkey)
      obtain ⟨hnode, hagent⟩ := Prod.mk.inj (Table.lookup_key hr)
      refine ⟨r, Table.mem_select.2 ⟨Table.lookup_mem hr, ?_⟩, hnode⟩
      simp only [Bool.and_eq_true, decide_eq_true_eq, List.any_eq_true]
      exact ⟨hagent, id, hid, hs, hnode.symm⟩

theorem existingVectors_covers {agentId : String} {ids : List String} (hne : ids ≠ []) :
    (∃ found, t.existingVectors agentId ids = .ok found ∧ ∀ id ∈ ids, id ∈ found) ↔
      ∀ id ∈ ids, t.Has .vector (agentId, id) := by
  constructor
  · rintro ⟨found, hfound, hall⟩ id hid
    exact (mem_existingVectors hid hfound).1 (hall id hid)
  · intro hall
    obtain ⟨id, hid⟩ := List.exists_mem_of_ne_nil ids hne
    have hsafe : isSafeValue agentId = true := (hall id hid).1
    rcases hfound : t.existingVectors agentId ids with e | found
    · unfold Staging.existingVectors at hfound
      rw [if_neg (by simpa using hne), if_neg (by simp [hsafe])] at hfound
      cases hfound
    · exact ⟨found, rfl, fun id hid => (mem_existingVectors hid hfound).2 (hall id hid)⟩

/-- A key is longer than the id in it, so the shortest id is never among the keys. -/
theorem exists_not_found (agentId : String) {ids : List String} (found : List String) (hne : ids ≠ [])
    (h : ∀ key ∈ found, key ∈ ids.map (Provider.compositeId agentId)) : ∃ id ∈ ids, id ∉ found := by
  obtain ⟨id, hid, hmin⟩ := Finset.exists_min_image ids.toFinset String.length
    (by obtain ⟨x, hx⟩ := List.exists_mem_of_ne_nil ids hne; exact ⟨x, List.mem_toFinset.2 hx⟩)
  refine ⟨id, List.mem_toFinset.1 hid, fun hfound => ?_⟩
  obtain ⟨other, hother, hkey⟩ := List.mem_map.1 (h id hfound)
  have hle := hmin other (List.mem_toFinset.2 hother)
  rw [← hkey, Provider.compositeId, String.length_append, String.length_append] at hle
  have htwo : "::".length = 2 := rfl
  omega

/-- What a graph finds of the keys with `p`, under the ids that it shows. -/
theorem visible_covers {agentId : String} {ids found : List String} {p : String → Prop} (hne : ids ≠ [])
    (hfound : ∀ x, x ∈ found ↔ ∃ id ∈ ids, p (Provider.compositeId agentId id) ∧
      Provider.visibleId agentId (Provider.compositeId agentId id) = x) :
    (∀ id ∈ ids, id ∈ found) ↔ ∀ id ∈ ids, agentId ≠ "" ∧ p (Provider.compositeId agentId id) := by
  by_cases hagent : agentId = ""
  · subst hagent
    obtain ⟨id, hid, hnot⟩ := exists_not_found "" found hne fun key hkey => by
      obtain ⟨id, hid, -, rfl⟩ := (hfound key).1 hkey
      exact List.mem_map.2 ⟨id, hid, (Provider.visibleId_empty _).symm⟩
    exact ⟨fun h => absurd (h id hid) hnot, fun h => absurd rfl (h id hid).1⟩
  · refine forall₂_congr fun id hid => ?_
    rw [hfound]
    constructor
    · rintro ⟨other, -, hp, hvisible⟩
      rw [Provider.visibleId_compositeId hagent] at hvisible
      exact ⟨hagent, hvisible ▸ hp⟩
    · rintro ⟨-, hp⟩
      exact ⟨id, hid, hp, Provider.visibleId_compositeId hagent id⟩

theorem existingNodes_covers {agentId : String} {ids : List String} (hne : ids ≠ []) :
    (∀ id ∈ ids, id ∈ t.existingNodes agentId ids) ↔ ∀ id ∈ ids, t.Has .graphEntity (agentId, id) := by
  refine visible_covers (p := fun key => ∃ e ∈ t.graph.entities.rows, e.id = key ∧ e.agentId = agentId) hne fun x => ?_
  rw [Staging.existingNodes, if_neg (by simpa using hne), Provider.Graph.rows, List.mem_map]
  constructor
  · rintro ⟨e, he, rfl⟩
    obtain ⟨hrow, hcond⟩ := Table.mem_select.1 he
    obtain ⟨hid, hagent⟩ := Bool.and_eq_true_iff.1 hcond
    obtain ⟨id, hid, hkey⟩ := List.mem_map.1 (of_decide_eq_true hid)
    exact ⟨id, hid, ⟨e, hrow, hkey.symm, of_decide_eq_true hagent⟩, by rw [hkey]⟩
  · rintro ⟨id, hid, ⟨e, hrow, hkey, hagent⟩, rfl⟩
    refine ⟨e, Table.mem_select.2 ⟨hrow, ?_⟩, by rw [hkey]⟩
    rw [Bool.and_eq_true, decide_eq_true_eq, decide_eq_true_eq]
    exact ⟨List.mem_map.2 ⟨id, hid, hkey.symm⟩, hagent⟩

theorem existingAssertions_covers {agentId : String} {ids : List String} (hne : ids ≠ []) :
    (∀ id ∈ ids, id ∈ t.existingAssertions agentId ids) ↔ ∀ id ∈ ids, t.Has .graphAssertion (agentId, id) := by
  refine visible_covers (p := fun key => ∃ r ∈ t.graph.assertions.rows, r.id = key ∧ r.agentId = agentId) hne
    fun x => ?_
  rw [Staging.existingAssertions, if_neg (by simpa using hne), Provider.Graph.rows, List.mem_map]
  constructor
  · rintro ⟨r, hr, rfl⟩
    obtain ⟨hrow, hcond⟩ := Table.mem_select.1 hr
    obtain ⟨hid, hagent⟩ := Bool.and_eq_true_iff.1 hcond
    obtain ⟨id, hid, hkey⟩ := List.mem_map.1 (of_decide_eq_true hid)
    exact ⟨id, hid, ⟨r, hrow, hkey.symm, of_decide_eq_true hagent⟩, by rw [hkey]⟩
  · rintro ⟨id, hid, ⟨r, hrow, hkey, hagent⟩, rfl⟩
    refine ⟨r, Table.mem_select.2 ⟨hrow, ?_⟩, by rw [hkey]⟩
    rw [Bool.and_eq_true, decide_eq_true_eq, decide_eq_true_eq]
    exact ⟨List.mem_map.2 ⟨id, hid, hkey.symm⟩, hagent⟩

theorem found_covers {lane : IdentityLane} {agentId : String} {ids : List String} (hne : ids ≠ []) :
    (∃ found, t.found lane agentId ids = .ok found ∧ ∀ id ∈ ids, id ∈ found) ↔ ∀ id ∈ ids, t.Has lane (agentId, id) := by
  cases lane with
  | vector => exact existingVectors_covers hne
  | graphEntity =>
    rw [← existingNodes_covers hne]
    exact ⟨fun ⟨_, hfound, hall⟩ => by cases hfound; exact hall, fun hall => ⟨_, rfl, hall⟩⟩
  | graphAssertion =>
    rw [← existingAssertions_covers hne]
    exact ⟨fun ⟨_, hfound, hall⟩ => by cases hfound; exact hall, fun hall => ⟨_, rfl, hall⟩⟩

theorem missingInPage_iff {lane : IdentityLane} {page : List (String × String)} :
    t.missingInPage lane page = .ok 0 ↔ ∀ p ∈ page, t.Has lane p := by
  rw [missingInPage_eq_zero]
  constructor
  · intro h p hp
    have hmem : p.2 ∈ (page.filter fun x => x.1 = p.1).map (·.2) :=
      List.mem_map.2 ⟨p, List.mem_filter.2 ⟨hp, by simp⟩, rfl⟩
    have hgroup := h (p.1, (page.filter fun x => x.1 = p.1).map (·.2)) (mem_byAgent.2 ⟨⟨p, hp, rfl⟩, rfl⟩)
    exact (found_covers (List.ne_nil_of_mem hmem)).1 hgroup _ hmem
  · intro h g hg
    obtain ⟨⟨p, hp, hpg⟩, hids⟩ := mem_byAgent.1 hg
    have hmem : p.2 ∈ g.2 := by
      rw [hids]
      exact List.mem_map.2 ⟨p, List.mem_filter.2 ⟨hp, by simp [hpg]⟩, rfl⟩
    refine (found_covers (List.ne_nil_of_mem hmem)).2 fun id hid => ?_
    rw [hids] at hid
    obtain ⟨x, hx, rfl⟩ := List.mem_map.1 hid
    obtain ⟨hx, hagent⟩ := List.mem_filter.1 hx
    rw [← of_decide_eq_true hagent]
    exact h x hx

/-! ## Lanes -/

theorem mem_pageOffsets_zero {expected : Nat} (hl : 1 ≤ parityLimit) (hpos : 0 < expected) :
    0 ∈ pageOffsets expected parityLimit := by
  refine List.mem_map.2 ⟨0, List.mem_range.2 (Nat.div_pos (by omega) hl), Nat.zero_mul _⟩

/-- Every row is on a page. -/
theorem exists_page {expected n : Nat} (hl : 1 ≤ parityLimit) (hn : n < expected) :
    ∃ offset ∈ pageOffsets expected parityLimit, offset ≤ n ∧ n < offset + parityLimit := by
  refine ⟨n / parityLimit * parityLimit, List.mem_map.2 ⟨n / parityLimit, List.mem_range.2 ?_, rfl⟩,
    Nat.div_mul_le_self .., ?_⟩
  · calc n / parityLimit < n / parityLimit + 1 := Nat.lt_succ_self _
      _ = (n + parityLimit) / parityLimit := (Nat.add_div_right n hl).symm
      _ ≤ (expected + parityLimit - 1) / parityLimit := Nat.div_le_div_right (by omega)
  · have hdiv := Nat.div_add_mod n parityLimit
    have hmod := Nat.mod_lt n hl
    rw [Nat.mul_comm] at hdiv
    omega

theorem missingInLane_eq_zero {lane : IdentityLane} :
    t.missingInLane s graphEnabled parityLimit lane = .ok 0 ↔
      ∀ offset ∈ pageOffsets (s.counts graphEnabled lane.lane) parityLimit, ∃ rows,
        s.fetch lane.lane offset parityLimit = .ok rows ∧ t.missingInPage lane (rows.map lane.identity) = .ok 0 := by
  unfold Staging.missingInLane
  have hsum : (pageOffsets (s.counts graphEnabled lane.lane) parityLimit).foldlM (fun total offset => do
        let rows ← s.fetch lane.lane offset parityLimit
        let missing ← t.missingInPage lane (rows.map lane.identity)
        pure (total + missing)) 0 =
      (pageOffsets (s.counts graphEnabled lane.lane) parityLimit).foldlM (fun total offset => do
        let n ← (do
          let rows ← s.fetch lane.lane offset parityLimit
          t.missingInPage lane (rows.map lane.identity))
        pure (total + n)) 0 := by
    congr 1
    funext total offset
    cases s.fetch lane.lane offset parityLimit <;> rfl
  rw [hsum, foldlM_add_eq_self_iff]
  refine forall₂_congr fun offset _ => ?_
  exact bind_eq_ok

/-- A page that is on the snapshot is fetched when the limit is one that `fetch` accepts. -/
theorem fetch_eq_ok {lane : ReplayLane} {offset limit : Nat} {rows : List lane.Item} :
    s.fetch lane offset limit = .ok rows ↔
      (1 ≤ limit ∧ limit ≤ 1000) ∧ ((s.items lane).drop offset).take limit = rows := by
  unfold Snapshot.fetch
  split
  · next h => simp [h]
  · next h => simp [h]

/-- Nothing of a lane is missing when the lane is empty, or its pages are not larger than `fetch` allows
and the stores have each identity. -/
theorem missingInLane_iff {lane : IdentityLane} (hl : 1 ≤ parityLimit) :
    t.missingInLane s graphEnabled parityLimit lane = .ok 0 ↔ s.counts graphEnabled lane.lane = 0 ∨
      parityLimit ≤ 1000 ∧ ∀ i ∈ s.items lane.lane, t.Has lane (lane.identity i) := by
  rw [missingInLane_eq_zero]
  by_cases hzero : s.counts graphEnabled lane.lane = 0
  · refine ⟨fun _ => .inl hzero, fun _ offset hoffset => ?_⟩
    rw [hzero, pageOffsets, Nat.div_eq_of_lt (by omega)] at hoffset
    cases hoffset
  have hcount : s.counts graphEnabled lane.lane = (s.items lane.lane).length := by
    unfold Snapshot.counts at hzero ⊢
    split at hzero
    · rw [if_pos (by assumption)]
    · exact absurd rfl hzero
  rw [hcount] at hzero ⊢
  constructor
  · intro h
    refine .inr ⟨?_, fun i hi => ?_⟩
    · obtain ⟨rows, hrows, -⟩ := h 0 (mem_pageOffsets_zero hl (Nat.pos_of_ne_zero hzero))
      exact (fetch_eq_ok.1 hrows).1.2
    · obtain ⟨n, hn, rfl⟩ := List.getElem_of_mem hi
      obtain ⟨offset, hoffset, hle, hlt⟩ := exists_page hl hn
      obtain ⟨rows, hrows, hpage⟩ := h offset hoffset
      refine missingInPage_iff.1 hpage _ (List.mem_map.2 ⟨(s.items lane.lane)[n], ?_, rfl⟩)
      rw [← (fetch_eq_ok.1 hrows).2, List.mem_iff_getElem?]
      refine ⟨n - offset, ?_⟩
      rw [List.getElem?_take_of_lt (by omega), List.getElem?_drop, Nat.add_sub_cancel' hle]
      exact List.getElem?_eq_getElem hn
  · rintro (hnil | ⟨hlimit, hall⟩) offset hoffset
    · exact absurd hnil hzero
    · refine ⟨_, fetch_eq_ok.2 ⟨⟨hl, hlimit⟩, rfl⟩, missingInPage_iff.2 fun p hp => ?_⟩
      obtain ⟨i, hi, rfl⟩ := List.mem_map.1 hp
      exact hall i (List.mem_of_mem_drop (List.mem_of_mem_take hi))

/-! ## Reports -/

/-- A report without a missing identity and without an orphan. -/
def Clean (s : Snapshot) (graphEnabled : Bool) (parityLimit : Nat) (t : Staging F) : Prop :=
  ∃ r, parityReport s graphEnabled parityLimit t = .ok r ∧ r.missing = 0 ∧ r.orphans = 0

theorem clean_iff : Clean s graphEnabled parityLimit t ↔ (1 ≤ parityLimit ∧ parityLimit ≤ 10000) ∧
    (∀ lane, t.missingInLane s graphEnabled parityLimit lane = .ok 0) ∧
    ∀ lane, t.actual graphEnabled lane = s.counts graphEnabled lane := by
  have hlanes : ∀ lane, lane ∈ lanes := by intro lane; cases lane <;> simp [lanes]
  unfold Clean parityReport
  constructor
  · rintro ⟨r, hr, hmissing, horphans⟩
    split at hr
    · cases hr
    · next hbounds =>
      obtain ⟨vectors, hv, hr⟩ := bind_eq_ok.1 hr
      obtain ⟨entities, he, hr⟩ := bind_eq_ok.1 hr
      obtain ⟨assertions, ha, hr⟩ := bind_eq_ok.1 hr
      cases hr
      simp only [Nat.add_eq_zero_iff, List.sum_eq_zero_iff, List.mem_map, forall_exists_index, and_imp,
        forall_apply_eq_imp_iff₂] at hmissing horphans
      obtain ⟨hless, ⟨rfl, rfl⟩, rfl⟩ := hmissing
      refine ⟨not_not.1 hbounds, fun lane => by cases lane <;> assumption, fun lane => ?_⟩
      have h₁ := hless lane (hlanes lane)
      have h₂ := horphans lane (hlanes lane)
      omega
  · rintro ⟨hbounds, hzero, hactual⟩
    rw [if_neg (not_not.2 hbounds), hzero .vector, hzero .graphEntity, hzero .graphAssertion]
    refine ⟨_, rfl, ?_, ?_⟩ <;> simp [hactual, lanes]

end Mesa.Rebuild
