/-
The scope cache is transparent. Between two steps every scope document that a later search would
use holds exact values for the present snapshot, so a search that finds one answers as a search
without a cache would; an exception leaves no document behind.
-/
import Mesa.Retrieval.Cache
import Mesa.Retrieval.Determinacy
import Mesa.Foundation.Run

namespace Mesa.Retrieval

open Mesa.Foundation Mesa.Foundation.Prog

section Cache

variable {E : SearchEnv}

/-! ## What a search owes its caller -/

/-- `search_v4_memory` with the scope cache disabled, over one snapshot. -/
def uncachedSearch (rt : Runtime E) (db : Snapshot) (r : SearchRequest) (c : Context E) :
    Except SearchError (List (SearchResult E.Float)) :=
  if r.valid E then
    match (searchV4MemoryUncached rt db (deepened rt r) c (Work.fresh E)).1 with
    | .ok results => finish rt r results
    | .error e => .error e
  else .error (.valueError "invalid v4 search scope")

/-- The snapshot that a search pins, with the commits before its first two statements. -/
def readSnapshot (s : System E) (c : CallContext E) : Snapshot := (s.land (c.commits 0 ++ c.commits 1)).snapshot

/-- A context without interrupts. -/
def Context.Quiet (c : Context E) : Prop := ∀ n, c.interrupt n = none

/-- A search is ended by an exception from outside, or its outcome is that of the search without a
cache on the same snapshot. -/
def Served (s : System E) (rt : Runtime E) (r : SearchRequest) (c : CallContext E) : Prop :=
  (∃ e, Injected c.toContext e ∧ (searchV4Memory rt r c s).1 = .error e) ∨
    ∀ c' : Context E, c'.Quiet → (searchV4Memory rt r c s).1 = uncachedSearch rt (readSnapshot s c) r c'

def CacheEvent.Served (s : System E) : CacheEvent E → Prop
  | .search rt r c => Retrieval.Served s rt r c
  | _ => True

/-- The clock does not decide what the scope of a search authorises. -/
def CacheEvent.TimeFree (s : System E) : CacheEvent E → Prop
  | .search _ r c => Retrieval.TimeFree E (readSnapshot s c) r.scopeKey
  | _ => True

/-- Every document that the next search would use holds exact values for the present snapshot. -/
def System.Faithful (s : System E) : Prop :=
  s.cacheDb = some s.connection → s.dataVersion = some s.commits → ∀ p ∈ s.entries, ∀ now : E.Clock,
    ScopeHolds (exactTyping E s.snapshot p.1 now) s.snapshot p.1 p.2 s.temp

/-! ## Tables and commits -/

theorem tableContent_filter {temp : List (Nat × List FtsRow)} {f : Nat → Bool} {n : Nat} :
    tableContent (temp.filter fun t => f t.1) n = if f n then tableContent temp n else none := by
  induction temp with
  | nil => cases f n <;> rfl
  | cons t temp ih =>
    obtain ⟨m, v⟩ := t
    rw [List.filter_cons]
    by_cases hm : m = n
    · subst hm
      cases hf : f m with
      | true => rw [if_pos rfl, if_pos rfl, tableContent_cons, tableContent_cons, if_pos rfl, if_pos rfl]
      | false => rw [hf] at ih; exact ih
    · cases hf : f m with
      | true => rw [if_pos rfl, tableContent_cons, tableContent_cons, if_neg hm, if_neg hm, ih]
      | false => rw [if_neg Bool.false_ne_true, tableContent_cons, if_neg hm, ih]

theorem dropTables_content {s : System E} {tables : List Nat} {n : Nat} :
    tableContent (s.dropTables tables).temp n = if n ∈ tables then none else tableContent s.temp n := by
  refine (tableContent_filter (f := fun m => decide (m ∉ tables))).trans ?_
  by_cases h : n ∈ tables <;> simp [h]

/-- A document depends on the TEMP tables through its own only. -/
theorem ScopeHolds.frame {T : ScopeTyping E} {db : Snapshot} {k : ScopeKey} {x : Scope E}
    {temp temp' : List (Nat × List FtsRow)} (h : ScopeHolds T db k x temp)
    (htable : tableContent temp' x.ftsTable = tableContent temp x.ftsTable) : ScopeHolds T db k x temp' where
  datasets := h.datasets
  artifactRows := h.artifactRows
  assertionRows := h.assertionRows
  legalContext := h.legalContext
  legalResolver := h.legalResolver
  built hb := by rw [htable]; exact h.built hb
  unbuilt hb := by rw [htable]; exact h.unbuilt hb
  passageTexts := h.passageTexts
  passageCitations := h.passageCitations
  assertionTexts := h.assertionTexts
  assertionCitations := h.assertionCitations
  candidateCitations := h.candidateCitations

/-- Commits change the database only. -/
theorem land_eq : ∀ (s : System E) (l : List Snapshot),
    s.land l = { s with snapshot := (s.land l).snapshot, commits := s.commits + l.length }
  | s, [] => rfl
  | s, db :: l => by
    have hland : s.land (db :: l) = (s.commit db).land l := rfl
    have ih := land_eq (s.commit db) l
    rw [hland]
    generalize ((s.commit db).land l).snapshot = x at ih ⊢
    rw [ih]
    simp only [System.commit, List.length_cons, System.mk.injEq, true_and, and_true]
    omega

theorem land_snapshot {s : System E} {l : List Snapshot} (h : (s.land l).commits = s.commits) :
    (s.land l).snapshot = s.snapshot := by
  rw [land_eq] at h
  cases l with
  | nil => rfl
  | cons db l => exact absurd h (by simp)

/-! ## Invariants -/

/-- The documents have keys and tables of their own, and the tables from `nextTable` on are free. -/
structure Stocked (s : System E) : Prop where
  keys : (s.entries.map Prod.fst).Nodup
  distinct : s.tables.Nodup
  below : ∀ n ∈ s.tables, n < s.nextTable
  supply : ∀ n, s.nextTable ≤ n → tableContent s.temp n = none

/-- What holds between two steps. -/
structure CacheInv (s : System E) : Prop where
  stocked : Stocked s
  unpinned : s.pinned = none
  adopted : ∀ n, s.cacheDb = some n → n ≤ s.connection
  known : ∀ v, s.dataVersion = some v → v ≤ s.commits
  faithful : s.Faithful

/-- What holds in a transaction that has pinned the snapshot `db` of version `v` and checked it. -/
structure Opened (db : Snapshot) (v : Nat) (s : System E) : Prop where
  stocked : Stocked s
  pinned : s.pinned = some (db, v)
  adopted : s.cacheDb = some s.connection
  known : s.dataVersion = some v
  landed : v ≤ s.commits
  present : s.commits = v → s.snapshot = db
  exact : ∀ p ∈ s.entries, ∀ now : E.Clock, ScopeHolds (exactTyping E db p.1 now) db p.1 p.2 s.temp

theorem Stocked.empty {s : System E} (h : s.entries = [])
    (hsupply : ∀ n, s.nextTable ≤ n → tableContent s.temp n = none) : Stocked s where
  keys := by rw [h]; exact List.nodup_nil
  distinct := by unfold System.tables; rw [h]; exact List.nodup_nil
  below := by
    intro n hn
    unfold System.tables at hn
    rw [h] at hn
    cases hn
  supply := hsupply

theorem CacheInv.initial (db : Snapshot) : CacheInv (System.initial E db) where
  stocked := Stocked.empty rfl fun _ _ => rfl
  unpinned := rfl
  adopted _ h := by cases h
  known _ h := by cases h
  faithful _ h := by cases h

theorem CacheInv.commit {s : System E} (hs : CacheInv s) (db : Snapshot) : CacheInv (s.commit db) where
  stocked := ⟨hs.stocked.keys, hs.stocked.distinct, hs.stocked.below, hs.stocked.supply⟩
  unpinned := hs.unpinned
  adopted := hs.adopted
  known v hv := Nat.le_succ_of_le (hs.known v hv)
  faithful _ hv := absurd (hs.known _ hv) (Nat.not_succ_le_self _)

theorem CacheInv.land {s : System E} (hs : CacheInv s) : ∀ l : List Snapshot, CacheInv (s.land l) := by
  intro l
  induction l generalizing s with
  | nil => exact hs
  | cons db l ih => exact ih (hs.commit db)

theorem CacheInv.reconnect {s : System E} (hs : CacheInv s) : CacheInv s.reconnect where
  stocked := ⟨hs.stocked.keys, hs.stocked.distinct, hs.stocked.below, fun _ _ => rfl⟩
  unpinned := hs.unpinned
  adopted n hn := Nat.le_succ_of_le (hs.adopted n hn)
  known := hs.known
  faithful hc := absurd (hs.adopted _ hc) (Nat.not_succ_le_self _)

theorem CacheInv.adopt {s : System E} (hs : CacheInv s) :
    CacheInv s.adopt ∧ s.adopt.cacheDb = some s.adopt.connection := by
  unfold System.adopt
  split
  · next h => exact ⟨hs, h⟩
  · refine ⟨⟨Stocked.empty rfl hs.stocked.supply, hs.unpinned, ?_, ?_, ?_⟩, rfl⟩
    · intro n hn
      cases hn
      exact Nat.le_refl _
    · intro v hv
      cases hv
    · intro _ hv
      cases hv

theorem Opened.close {db : Snapshot} {v : Nat} {s : System E} (hs : Opened db v s) :
    CacheInv { s with pinned := none } where
  stocked := ⟨hs.stocked.keys, hs.stocked.distinct, hs.stocked.below, hs.stocked.supply⟩
  unpinned := rfl
  adopted n hn := by
    rw [hs.adopted] at hn
    cases hn
    exact Nat.le_refl _
  known v' hv' := by
    rw [hs.known] at hv'
    cases hv'
    exact hs.landed
  faithful := by
    intro _ hv p hp now
    rw [hs.known] at hv
    have hpresent := hs.present (Option.some.inj hv).symm
    dsimp only
    rw [hpresent]
    exact hs.exact p hp now

/-- Commits of other connections do not touch what an open transaction reads. -/
theorem Opened.land {db : Snapshot} {v : Nat} {s : System E} (hs : Opened db v s) (l : List Snapshot) :
    Opened db v (s.land l) := by
  rw [land_eq]
  refine ⟨⟨hs.stocked.keys, hs.stocked.distinct, hs.stocked.below, hs.stocked.supply⟩, hs.pinned, hs.adopted,
    hs.known, Nat.le_add_right_of_le hs.landed, ?_, hs.exact⟩
  intro hv
  dsimp only at hv ⊢
  have hlen : s.commits = v := by have := hs.landed; omega
  rw [land_snapshot (by rw [land_eq]; dsimp only; omega)]
  exact hs.present hlen

/-! ## The entry of a scope -/

section Entry

variable {db : Snapshot} {v : Nat} {s : System E} {k : ScopeKey}

/-- The documents in another order. -/
theorem Opened.permute (hs : Opened db v s) {l : List (ScopeKey × Scope E)} (hl : l.Perm s.entries) :
    Opened db v { s with entries := l } where
  stocked :=
    { keys := (hl.map Prod.fst).nodup_iff.2 hs.stocked.keys
      distinct := (hl.map _).nodup_iff.2 hs.stocked.distinct
      below := fun n hn => hs.stocked.below n ((hl.map _).mem_iff.1 hn)
      supply := hs.stocked.supply }
  pinned := hs.pinned
  adopted := hs.adopted
  known := hs.known
  landed := hs.landed
  present := hs.present
  exact p hp := hs.exact p (hl.mem_iff.1 hp)

/-- The entry of a key, moved to the end. -/
theorem moveToEnd_perm (hs : Stocked s) {p : ScopeKey × Scope E} (hp : p ∈ s.entries) :
    ((s.entries.filter fun q => decide (q.1 ≠ p.1)) ++ [p]).Perm s.entries := by
  have hnodup : s.entries.Nodup := List.Nodup.of_map _ hs.keys
  have hnot : p ∉ s.entries.filter fun q => decide (q.1 ≠ p.1) := by
    intro hmem
    exact of_decide_eq_true (List.mem_filter.1 hmem).2 rfl
  refine (List.perm_ext_iff_of_nodup ?_ hnodup).2 fun q => ?_
  · refine List.nodup_append.2 ⟨hnodup.filter _, List.nodup_singleton p, ?_⟩
    intro a ha b hb hab
    rw [List.mem_singleton] at hb
    subst hb
    subst hab
    exact hnot ha
  · rw [List.mem_append, List.mem_filter, List.mem_singleton, decide_eq_true_eq]
    constructor
    · rintro (⟨hq, -⟩ | rfl)
      · exact hq
      · exact hp
    · intro hq
      by_cases hkey : q.1 = p.1
      · exact .inr (List.inj_on_of_nodup_map hs.keys hq hp hkey)
      · exact .inl ⟨hq, hkey⟩

/-- The eviction of the oldest document, with its table. -/
theorem Opened.evict (hs : Opened db v s) :
    Opened db v { s.dropTables (s.tables.take 1) with entries := s.entries.drop 1 } := by
  have hsub : (s.entries.drop 1).Sublist s.entries := List.drop_sublist _ _
  have htables : (s.entries.drop 1).map (fun p => p.2.ftsTable) = s.tables.drop 1 := List.map_drop
  refine ⟨⟨hs.stocked.keys.sublist (hsub.map _), ?_, ?_, ?_⟩, hs.pinned, hs.adopted, hs.known, hs.landed,
    hs.present, ?_⟩
  · exact hs.stocked.distinct.sublist (hsub.map _)
  · exact fun n hn => hs.stocked.below n ((hsub.map _).subset hn)
  · intro n hn
    rw [dropTables_content]
    split
    · rfl
    · exact hs.stocked.supply n hn
  · intro p hp now
    refine (hs.exact p (hsub.subset hp) now).frame ?_
    rw [dropTables_content, if_neg]
    intro htake
    have hdrop : p.2.ftsTable ∈ s.tables.drop 1 := by
      rw [← htables]
      exact List.mem_map_of_mem hp
    have hsplit := hs.stocked.distinct
    rw [← List.take_append_drop 1 s.tables] at hsplit
    exact (List.nodup_append.1 hsplit).2.2 _ htake _ hdrop rfl

theorem Opened.makeRoom (hs : Opened db v s) : Opened db v s.makeRoom ∧ (∀ p ∈ s.makeRoom.entries, p ∈ s.entries) ∧
    s.makeRoom.nextTable = s.nextTable := by
  unfold System.makeRoom
  split
  · exact ⟨hs.evict, fun p hp => List.mem_of_mem_drop hp, rfl⟩
  · exact ⟨hs, fun p hp => hp, rfl⟩

/-- A new document for a key that has none. -/
theorem Opened.append (hs : Opened db v s) (hk : ∀ p ∈ s.entries, p.1 ≠ k) :
    Opened db v { s with entries := s.entries ++ [(k, Scope.fresh E s.nextTable)], nextTable := s.nextTable + 1 } := by
  refine ⟨⟨?_, ?_, ?_, fun n hn => hs.stocked.supply n (Nat.le_of_succ_le hn)⟩, hs.pinned, hs.adopted, hs.known,
    hs.landed, hs.present, ?_⟩
  · rw [List.map_append]
    refine List.nodup_append.2 ⟨hs.stocked.keys, List.nodup_singleton _, ?_⟩
    intro a ha b hb hab
    obtain ⟨p, hp, rfl⟩ := List.mem_map.1 ha
    exact hk p hp (hab.trans (List.mem_singleton.1 hb))
  · unfold System.tables
    rw [List.map_append]
    refine List.nodup_append.2 ⟨hs.stocked.distinct, List.nodup_singleton _, ?_⟩
    intro a ha b hb hab
    rw [List.map_cons, List.map_nil, List.mem_singleton] at hb
    have hlt := hs.stocked.below a ha
    rw [hab, hb] at hlt
    exact Nat.lt_irrefl _ hlt
  · intro n hn
    unfold System.tables at hn
    rw [List.map_append, List.mem_append] at hn
    rcases hn with hn | hn
    · exact Nat.lt_succ_of_lt (hs.stocked.below n hn)
    · rw [List.map_cons, List.map_nil, List.mem_singleton] at hn
      rw [hn]
      exact Nat.lt_succ_self _
  · intro p hp now
    rcases List.mem_append.1 hp with hp | hp
    · exact hs.exact p hp now
    · rw [List.mem_singleton] at hp
      subst hp
      exact ScopeHolds.fresh (hs.stocked.supply _ (Nat.le_refl _))

theorem placeScope_opened (hs : Opened db v s) (k : ScopeKey) :
    Opened db v (s.placeScope k) ∧ ∃ scope, (s.placeScope k).entries.getLast? = some (k, scope) := by
  unfold System.placeScope
  cases hfind : s.entries.find? fun p => decide (p.1 = k) with
  | some p =>
    have hkey := List.find?_some hfind
    rw [decide_eq_true_eq] at hkey
    subst hkey
    exact ⟨hs.permute (moveToEnd_perm hs.stocked (List.mem_of_find?_eq_some hfind)), p.2, List.getLast?_concat⟩
  | none =>
    have hk : ∀ p ∈ s.entries, p.1 ≠ k := by
      intro p hp hkey
      exact List.find?_eq_none.1 hfind p hp (decide_eq_true hkey)
    obtain ⟨hroom, hsub, hnext⟩ := hs.makeRoom
    refine ⟨?_, _, List.getLast?_concat⟩
    rw [← hnext]
    exact hroom.append fun p hp => hk p (hsub p hp)

theorem enterScope_opened (hs : Opened db v s) (k : ScopeKey) (c : CallContext E) :
    ∃ scope t, enterScope k c s = (.ok scope, t) ∧ Opened db v t ∧ (k, scope) ∈ t.entries := by
  obtain ⟨hopen, scope, hlast⟩ := placeScope_opened hs k
  refine ⟨scope, s.placeScope k, ?_, hopen, List.mem_of_getLast? hlast⟩
  unfold enterScope
  rw [hlast]

/-- The document of a key as a search leaves it, with its table. -/
theorem Opened.update (hs : Opened db v s) {scope : Scope E} (hscope : (k, scope) ∈ s.entries)
    (hfree : TimeFree E db k) {now : E.Clock} {w : Work E}
    (hw : Within (exactTyping E db k now) db k scope.ftsTable s.temp w) (n : Nat) :
    Opened db v { s with
      temp := w.temp
      statements := n
      entries := s.entries.map fun p => if p.1 = k then (p.1, w.scope) else p } := by
  have hone : ∀ p ∈ s.entries, p.1 = k → p = (k, scope) :=
    fun p hp hkey => List.inj_on_of_nodup_map hs.stocked.keys hp hscope hkey
  have hkeys : (s.entries.map fun p => if p.1 = k then (p.1, w.scope) else p).map Prod.fst =
      s.entries.map Prod.fst := by
    rw [List.map_map]
    refine List.map_congr_left fun p _ => ?_
    dsimp only [Function.comp]
    split <;> rfl
  have htables : (s.entries.map fun p => if p.1 = k then (p.1, w.scope) else p).map (fun p => p.2.ftsTable) =
      s.tables := by
    unfold System.tables
    rw [List.map_map]
    refine List.map_congr_left fun p hp => ?_
    dsimp only [Function.comp]
    split
    · next hkey => rw [hone p hp hkey]; exact hw.table
    · rfl
  refine ⟨⟨by rw [hkeys]; exact hs.stocked.keys, ?_, ?_, ?_⟩, hs.pinned, hs.adopted, hs.known, hs.landed,
    hs.present, ?_⟩
  · unfold System.tables
    rw [htables]
    exact hs.stocked.distinct
  · unfold System.tables
    rw [htables]
    exact hs.stocked.below
  · intro m hm
    have hlt := hs.stocked.below _ (List.mem_map_of_mem hscope)
    have hne : m ≠ scope.ftsTable := by
      intro heq
      rw [heq] at hm
      exact Nat.lt_irrefl _ (Nat.lt_of_lt_of_le hlt hm)
    exact (hw.others m hne).trans (hs.stocked.supply m hm)
  · intro p hp now'
    obtain ⟨q, hq, rfl⟩ := List.mem_map.1 hp
    by_cases hkey : q.1 = k
    · rw [if_pos hkey]
      dsimp only
      rw [hkey, hfree.exactTyping now' now]
      exact hw.holds
    · rw [if_neg hkey]
      refine (hs.exact q hq now').frame (hw.others _ fun htable => hkey ?_)
      have hq' := List.inj_on_of_nodup_map hs.stocked.distinct hq hscope htable
      rw [hq']

end Entry

/-! ## The search -/

section Search

variable {db : Snapshot} {v : Nat} {s : System E} {rt : Runtime E} {r : SearchRequest} {c : CallContext E}

/-- An exception that the surroundings of a cached search raise. -/
def Raised (c : CallContext E) (e : SearchError) : Prop := Injected c.toContext e

/-- The outcome of the search over an empty document of its own. -/
def FreshOutcome (rt : Runtime E) (db : Snapshot) (r : SearchRequest)
    (out : Except SearchError (List (SearchResult E.Float))) : Prop :=
  ∀ c' : Context E, c'.Quiet → out = (searchV4MemoryUncached rt db r c' (Work.fresh E)).1

theorem runScoped_served (rt : Runtime E) (c : CallContext E) (hs : Opened db v s) {scope : Scope E}
    (hscope : (r.scopeKey, scope) ∈ s.entries) (hfree : TimeFree E db r.scopeKey) :
    Interrupted Raised (runScoped rt r scope) c s ∨ FreshOutcome rt db r (runScoped rt r scope c s).1 ∧
      ∀ results t, runScoped rt r scope c s = (.ok results, t) → Opened db v t := by
  have hview : s.view.1 = db := by unfold System.view; rw [hs.pinned]; rfl
  have hwithin : Within (exactTyping E db r.scopeKey (c.clock 0)) db r.scopeKey scope.ftsTable s.temp
      ⟨scope, s.temp, s.statements, none⟩ := ⟨hs.exact _ hscope _, rfl, fun _ _ => rfl⟩
  have hrun : (runScoped rt r scope c s).1 =
      (searchV4MemoryUncached rt db r c.toContext ⟨scope, s.temp, s.statements, none⟩).1 := by
    unfold runScoped
    rw [hview]
  by_cases hend : Interrupted Injected (searchV4MemoryUncached rt db r) c.toContext
      ⟨scope, s.temp, s.statements, none⟩
  · obtain ⟨e, he, h⟩ := hend
    exact .inl ⟨e, he, hrun.trans h⟩
  · refine .inr ⟨fun c' hquiet => ?_, fun results t hout => ?_⟩
    · rw [hrun]
      rcases search_transparent hfree c.toContext _ c' (Work.fresh E) ⟨_, _, hwithin⟩ ⟨_, _, Within.fresh⟩ with
        heq | h | ⟨e, ⟨n, what, hn, -⟩, -⟩
      · exact heq
      · exact absurd h hend
      · rw [hquiet n] at hn
        cases hn
    · unfold runScoped at hout
      rw [hview] at hout
      rcases hsearch : searchV4MemoryUncached rt db r c.toContext ⟨scope, s.temp, s.statements, none⟩ with ⟨out, w⟩
      rw [hsearch] at hout
      cases hout
      obtain ⟨hw, -⟩ := search_ensures (exactTyping_rows _ hfree) (exactTyping_admits _ hfree) c.toContext _ results w
        (fun _ => trivial) hwithin hsearch
      have hland : ∀ l, (s.land l).entries = s.entries ∧ (s.land l).temp = s.temp := by
        intro l
        rw [land_eq]
        exact ⟨rfl, rfl⟩
      obtain ⟨hentries, htemp⟩ := hland ((List.range w.statements).flatMap fun n =>
        if s.statements ≤ n then c.commits n else [])
      have hopen := (hs.land _).update (by rw [hentries]; exact hscope) hfree (by rw [htemp]; exact hw) w.statements
      rw [hentries] at hopen
      exact hopen

theorem cacheStatement_cases (c : CallContext E) (s : System E) :
    Interrupted Raised cacheStatement c s ∨
      cacheStatement c s = (.ok (), s.statement (c.commits s.statements)) := by
  unfold cacheStatement
  cases h : c.interrupt s.statements with
  | none => exact .inr rfl
  | some what => exact .inl ⟨_, ⟨s.statements, what, h, rfl⟩, by simp only [h]⟩

/-- What a search reads depends on the stored snapshot and the commits before it only. -/
theorem land_snapshot_congr : ∀ (l : List Snapshot) {s t : System E}, s.snapshot = t.snapshot →
    (s.land l).snapshot = (t.land l).snapshot
  | [], _, _, h => h
  | db :: l, s, t, _ => land_snapshot_congr l (s := s.commit db) (t := t.commit db) rfl

theorem CacheInv.statement (hs : CacheInv s) (l : List Snapshot) : CacheInv (s.statement l) where
  stocked := ⟨(hs.land l).stocked.keys, (hs.land l).stocked.distinct, (hs.land l).stocked.below,
    (hs.land l).stocked.supply⟩
  unpinned := (hs.land l).unpinned
  adopted := (hs.land l).adopted
  known := (hs.land l).known
  faithful := (hs.land l).faithful

theorem Opened.statement (hs : Opened db v s) (l : List Snapshot) : Opened db v (s.statement l) where
  stocked := ⟨(hs.land l).stocked.keys, (hs.land l).stocked.distinct, (hs.land l).stocked.below,
    (hs.land l).stocked.supply⟩
  pinned := (hs.land l).pinned
  adopted := (hs.land l).adopted
  known := (hs.land l).known
  landed := (hs.land l).landed
  present := (hs.land l).present
  exact := (hs.land l).exact

/-- Commits keep the adopted connection. -/
theorem statement_adopted (h : s.cacheDb = some s.connection) (l : List Snapshot) :
    (s.statement l).cacheDb = some (s.statement l).connection := by
  unfold System.statement
  rw [land_eq]
  exact h

/-- After the version check the cache holds documents of the pinned snapshot only. -/
theorem refresh_opened (hs : CacheInv s) (hadopted : s.cacheDb = some s.connection) (l : List Snapshot) :
    Opened s.snapshot s.commits (({ s with pinned := some s.view } : System E).statement l).refresh := by
  have hview : s.view = (s.snapshot, s.commits) := by unfold System.view; rw [hs.unpinned]; rfl
  have hpresent : s.commits + l.length = s.commits →
      (({ s with pinned := some s.view } : System E).land l).snapshot = s.snapshot := by
    intro hlen
    exact land_snapshot (s := { s with pinned := some s.view }) (by rw [land_eq]; exact hlen)
  unfold System.statement
  rw [land_eq, hview]
  rw [hview] at hpresent
  unfold System.refresh
  split
  · next hversion =>
    exact ⟨⟨hs.stocked.keys, hs.stocked.distinct, hs.stocked.below, hs.stocked.supply⟩, rfl, hadopted, hversion,
      Nat.le_add_right _ _, hpresent, hs.faithful hadopted hversion⟩
  · refine ⟨Stocked.empty rfl ?_, rfl, hadopted, rfl, Nat.le_add_right _ _, hpresent, ?_⟩
    · intro m hm
      refine dropTables_content.trans ?_
      split
      · rfl
      · exact hs.stocked.supply m hm
    · intro p hp
      cases hp

/-- The first three statements of a search end it, or open its transaction. -/
theorem opening_cases (hs : CacheInv s) (hadopted : s.cacheDb = some s.connection) (hfirst : s.statements = 0)
    {α : Type} (rest : CacheM E α) :
    Interrupted Raised (do cacheStatement; pinSnapshot; refreshVersion; rest) c s ∨
      ∃ v t, (do cacheStatement; pinSnapshot; refreshVersion; rest) c s = rest c t ∧
        Opened (readSnapshot s c) v t := by
  rcases cacheStatement_cases c s with h | hbegin
  · exact .inl h.bind
  have hs₁ := hs.statement (c.commits s.statements)
  generalize ht₁ : s.statement (c.commits s.statements) = s₁ at hs₁ hbegin
  rcases cacheStatement_cases c s₁ with h | hread
  · exact .inl (Interrupted.bind_rest hbegin h.bind.bind)
  have hs₂ := hs₁.statement (c.commits s₁.statements)
  generalize ht₂ : s₁.statement (c.commits s₁.statements) = s₂ at hs₂ hread
  have hpin : pinSnapshot c s₁ = (.ok (), { s₂ with pinned := some s₂.view }) := bind_ok hread
  rcases cacheStatement_cases c { s₂ with pinned := some s₂.view } with h | hversion
  · exact .inl (Interrupted.bind_rest hbegin (Interrupted.bind_rest hpin h.bind.bind))
  refine .inr ⟨s₂.commits, _, (bind_ok hbegin).trans ((bind_ok hpin).trans (bind_ok (bind_ok hversion))), ?_⟩
  have hread : readSnapshot s c = s₂.snapshot := by
    have hone : s₁.statements = 1 := by rw [← ht₁]; exact congrArg (· + 1) hfirst
    rw [← ht₂, hone]
    unfold readSnapshot System.statement System.land
    rw [List.foldl_append]
    refine land_snapshot_congr (c.commits 1) (s := s.land (c.commits 0)) (t := s₁) ?_
    rw [← ht₁, hfirst]
    rfl
  rw [hread]
  refine refresh_opened hs₂ ?_ _
  rw [← ht₂]
  refine statement_adopted ?_ _
  rw [← ht₁]
  exact statement_adopted hadopted _

/-- The body of a search is ended from outside, or has the outcome of a search over an empty
document and leaves a sound cache where it returns. -/
theorem cachedSearch_served (rt : Runtime E) (hs : CacheInv s) (hadopted : s.cacheDb = some s.connection)
    (hfirst : s.statements = 0)
    (hfree : TimeFree E (readSnapshot s c) r.scopeKey) :
    Interrupted Raised (cachedSearch rt r) c s ∨ FreshOutcome rt (readSnapshot s c) r (cachedSearch rt r c s).1 ∧
      ∀ results t, cachedSearch rt r c s = (.ok results, t) → CacheInv { t with pinned := none } := by
  unfold cachedSearch
  rcases opening_cases (c := c) hs hadopted hfirst (do
    let scope ← enterScope r.scopeKey
    let result ← runScoped rt r scope
    cacheStatement
    pure result) with h | ⟨v, t, hopen, ht⟩
  · exact .inl h
  obtain ⟨scope, t', henter, ht', hscope⟩ := enterScope_opened ht r.scopeKey c
  unfold Interrupted
  rw [hopen, bind_ok henter]
  rcases runScoped_served rt c ht' hscope hfree with h | ⟨hfresh, hkept⟩
  · exact .inl h.bind
  rcases hrun : runScoped rt r scope c t' with ⟨out, u⟩
  rw [hrun] at hfresh
  cases out with
  | error e =>
    rw [bind_error hrun]
    exact .inr ⟨hfresh, fun results t h => by cases h⟩
  | ok results =>
    rw [bind_ok hrun]
    rcases cacheStatement_cases c u with h | hcommit
    · exact .inl h.bind
    · rw [bind_ok hcommit]
      refine .inr ⟨hfresh, fun results' t'' h => ?_⟩
      cases h
      exact ((hkept results u hrun).statement _).close

/-! ### Exceptions -/

/-- A part of a search keeps the connection and takes table names from the supply only. -/
def Carries {α : Type} (m : CacheM E α) : Prop := ∀ c s,
  (m c s).2.connection = s.connection ∧ (m c s).2.cacheDb = s.cacheDb ∧ s.nextTable ≤ (m c s).2.nextTable

theorem Carries.bind {α β : Type} {m : CacheM E α} {f : α → CacheM E β} (hm : Carries m) (hf : ∀ a, Carries (f a)) :
    Carries (m >>= f) := by
  intro c s
  have h := hm c s
  rcases hr : m c s with ⟨x, t⟩
  rw [hr] at h
  cases x with
  | ok a =>
    rw [bind_ok hr]
    have hrest := hf a c t
    exact ⟨hrest.1.trans h.1, hrest.2.1.trans h.2.1, Nat.le_trans h.2.2 hrest.2.2⟩
  | error e => rw [bind_error hr]; exact h

theorem Carries.cacheStatement : Carries (Retrieval.cacheStatement (E := E)) := by
  intro c s
  have hkept : (Retrieval.cacheStatement c s).2 = s.statement (c.commits s.statements) := by
    unfold Retrieval.cacheStatement
    split <;> rfl
  rw [hkept]
  unfold System.statement
  rw [land_eq]
  exact ⟨rfl, rfl, Nat.le_refl _⟩

theorem Carries.runScoped {scope : Scope E} : Carries (Retrieval.runScoped rt r scope) := by
  intro c s
  unfold Retrieval.runScoped
  dsimp only
  rw [land_eq]
  exact ⟨rfl, rfl, Nat.le_refl _⟩

theorem Carries.enterScope {k : ScopeKey} : Carries (Retrieval.enterScope (E := E) k) := by
  intro c s
  have hroom : s.makeRoom.connection = s.connection ∧ s.makeRoom.cacheDb = s.cacheDb := by
    unfold System.makeRoom
    split <;> exact ⟨rfl, rfl⟩
  have hplace : (s.placeScope k).connection = s.connection ∧ (s.placeScope k).cacheDb = s.cacheDb ∧
      s.nextTable ≤ (s.placeScope k).nextTable := by
    unfold System.placeScope
    split
    · exact ⟨rfl, rfl, Nat.le_refl _⟩
    · exact ⟨hroom.1, hroom.2, Nat.le_succ _⟩
  unfold Retrieval.enterScope
  split <;> exact hplace

theorem cachedSearch_carries (rt : Runtime E) (r : SearchRequest) : Carries (cachedSearch rt r) := by
  refine Carries.cacheStatement.bind fun _ => ?_
  refine Carries.bind (Carries.cacheStatement.bind fun _ => ?_) fun _ => ?_
  · exact fun c s => ⟨rfl, rfl, Nat.le_refl _⟩
  refine Carries.bind (Carries.cacheStatement.bind fun _ => ?_) fun _ => ?_
  · intro c s
    unfold Prog.modify System.refresh
    dsimp only
    split <;> exact ⟨rfl, rfl, Nat.le_refl _⟩
  refine Carries.enterScope.bind fun scope => Carries.runScoped.bind fun result => ?_
  exact Carries.cacheStatement.bind fun _ c s => ⟨rfl, rfl, Nat.le_refl _⟩

/-- After an exception no document is left, and no table that a later search would find. -/
theorem abandon_inv (hs : CacheInv s) (hadopted : s.cacheDb = some s.connection) {t : System E}
    (ht : t.connection = s.connection ∧ t.cacheDb = s.cacheDb ∧ s.nextTable ≤ t.nextTable) :
    CacheInv { s.abandon t with pinned := none } where
  stocked := by
    refine Stocked.empty rfl fun n hn => ?_
    refine dropTables_content.trans ?_
    split
    · rfl
    · refine dropTables_content.trans ?_
      split
      · rfl
      · exact hs.stocked.supply n (Nat.le_trans ht.2.2 hn)
  unpinned := rfl
  adopted n hn := by
    have hn : t.cacheDb = some n := hn
    rw [ht.2.1, hadopted] at hn
    cases hn
    exact ht.1.ge
  known v hv := by cases hv
  faithful _ hv := by cases hv

/-! ### One search -/

theorem deepened_scopeKey (rt : Runtime E) (r : SearchRequest) : (deepened rt r).scopeKey = r.scopeKey := by
  unfold deepened
  split <;> rfl

theorem CacheInv.enter (hs : CacheInv s) : CacheInv s.enter ∧ s.enter.cacheDb = some s.enter.connection ∧
    readSnapshot s.enter c = readSnapshot s c := by
  obtain ⟨hadopt, hadopted⟩ := hs.adopt
  refine ⟨⟨⟨hadopt.stocked.keys, hadopt.stocked.distinct, hadopt.stocked.below, hadopt.stocked.supply⟩, rfl,
    hadopt.adopted, hadopt.known, hadopt.faithful⟩, hadopted, land_snapshot_congr _ ?_⟩
  unfold System.enter System.adopt
  split <;> rfl

/-- A search over a sound cache serves its caller and leaves the cache sound. -/
theorem searchV4Memory_served (hs : CacheInv s) (hfree : TimeFree E (readSnapshot s c) r.scopeKey) :
    Served s rt r c ∧ CacheInv (searchV4Memory rt r c s).2 := by
  by_cases hvalid : r.valid E = true
  · obtain ⟨henter, hadopted, hread⟩ := hs.enter (c := c)
    rw [← hread, ← deepened_scopeKey rt r] at hfree
    have hserved := cachedSearch_served rt henter hadopted rfl hfree
    have hcarried := cachedSearch_carries rt (deepened rt r) c s.enter
    unfold Served uncachedSearch
    rw [← hread]
    rcases hrun : cachedSearch rt (deepened rt r) c s.enter with ⟨out, t⟩
    rw [hrun] at hcarried
    cases out with
    | ok results =>
      have hsearch : searchV4Memory rt r c s = (finish rt r results, { t with pinned := none }) := by
        unfold searchV4Memory
        rw [if_pos hvalid, hrun]
      rcases hserved with ⟨e, -, h⟩ | ⟨hfresh, hkept⟩
      · rw [hrun] at h
        cases h
      · rw [hsearch]
        refine ⟨.inr fun c' hquiet => ?_, hkept results t hrun⟩
        rw [if_pos hvalid, ← hfresh c' hquiet, hrun]
    | error e =>
      have hsearch : searchV4Memory rt r c s = (.error e, { s.enter.abandon t with pinned := none }) := by
        unfold searchV4Memory
        rw [if_pos hvalid, hrun]
      rw [hsearch]
      refine ⟨?_, abandon_inv henter hadopted hcarried⟩
      rcases hserved with ⟨e', he, h⟩ | ⟨hfresh, -⟩
      · rw [hrun] at h
        cases h
        exact .inl ⟨e, he, rfl⟩
      · refine .inr fun c' hquiet => ?_
        rw [if_pos hvalid, ← hfresh c' hquiet, hrun]
  · unfold Served uncachedSearch searchV4Memory
    rw [if_neg hvalid]
    exact ⟨.inr fun _ _ => by rw [if_neg hvalid], hs⟩

end Search

/-! ## Runs -/

theorem exec_inv {s : System E} (hs : CacheInv s) : ∀ ev : CacheEvent E, ev.TimeFree s → CacheInv (ev.exec s)
  | .commit db, _ => hs.commit db
  | .reconnect, _ => hs.reconnect
  | .search _ _ _, hfree => (searchV4Memory_served hs hfree).2

theorem exec_served {s : System E} (hs : CacheInv s) : ∀ ev : CacheEvent E, ev.TimeFree s → ev.Served s
  | .commit _, _ => trivial
  | .reconnect, _ => trivial
  | .search _ _ _, hfree => (searchV4Memory_served hs hfree).1

/-- The scope cache is transparent: along every run of commits, reconnections and searches, with
commits and exceptions at any statement, in which the clock decides no scope, every search has the
outcome that it would have without a cache on the snapshot it reads, and every document that is left
for a later search holds what that search would load. -/
theorem cache_transparent (E : SearchEnv) (db : Snapshot) (evs : List (CacheEvent E))
    (h : Along CacheEvent.exec CacheEvent.TimeFree (System.initial E db) evs) :
    Along CacheEvent.exec CacheEvent.Served (System.initial E db) evs ∧
      Throughout CacheEvent.exec System.Faithful (System.initial E db) evs := by
  have step : ∀ (s : System E) ev, CacheInv s → CacheEvent.TimeFree s ev → CacheInv (ev.exec s) :=
    fun s ev hs hfree => exec_inv hs ev hfree
  exact ⟨along_of_invariant step (fun s ev hs hfree => exec_served hs ev hfree) (CacheInv.initial db) h,
    throughout_of_invariant step (fun s hs => hs.faithful) (CacheInv.initial db) h⟩

end Cache

/-! ## A stored time that reads the clock -/

section Moments

/-- An environment with two moments, an hour apart, and a query that cites one article. -/
def momentEnv : SearchEnv where
  Clock := Bool
  Float := Nat
  Resolver := Unit
  Vector := Unit
  julianday later text := if text = "now" then some (if later then 3600000 else 0) else
    if text = "2026-01-01T00:30:00" then some 1800000 else none
  ftsMatch _ _ := false
  bm25 _ _ _ := 0
  entityMatch _ _ := false
  entityRank _ _ _ := 0
  le x y := decide (x ≤ y)
  zero := 0
  one := 1
  add x y := x + y
  mul x y := x * y
  max x y := max x y
  normalizeIdentityText s := s
  lower s := s
  strip s := s
  words _ := []
  normalizeLawName s := s
  headerName _ := ""
  decisionRefs _ := []
  extractRules _ := []
  legalEntityResolver _ := ()
  extractCitations _ _ := [⟨"tbk", "tbk", some "1", []⟩]
  extractEntities _ _ := []
  compatibilityErrors _ := []
  passageScore _ _ _ _ _ _ := 0
  assertionScore _ _ _ _ _ _ _ := 0
  legalFactor _ _ _ := 1
  vectorRelevance _ := 1
  lexicalRelevance _ := 1
  nameRelevance := 1
  entityRelevance := 1
  rrfContribution _ _ _ := 1
  graphScore s _ _ := s
  stableGraphPathId _ _ _ _ := ""
  publicMetadata _ := none
  legalItems _ := none

/-- A committed assertion about the cited article, valid from the given time on. -/
def citedAssertion (validFrom : String) : AssertionRow where
  assertionId := "a"
  tenantId := "t"
  datasetId := "d"
  subjectId := "e"
  objectEntityId := none
  documentId := "doc"
  revisionId := "rev"
  chunkId := "c"
  validFrom := validFrom
  mutationId := "m"
  pipelineRunId := "p"
  predicate := "states"
  literalValue := none
  validTo := ""
  status := .active
  sourceRef := ""
  evidenceSpan := ""
  jurisdiction := ""
  confidence := 1
  legal := ⟨"tbk", "tbk", "1", "", "", "", "catalog"⟩

def citedMutation : MutationRow where
  mutationId := "m"
  candidateId := "m"
  rawLogId := none
  tenantId := "t"
  datasetId := "d"
  documentId := "doc"
  revisionId := "rev"
  chunkId := "c"
  agentId := "g"
  sessionId := "s"
  pipelineRunId := "p"
  legalIdentity := none
  documentChunk := false
  state := .committed
  contentPayload := ""
  metadataJson := "\x7b\x7d"

/-- A database with that assertion. -/
def citedSnapshot (validFrom : String) : Snapshot where
  assertions := ⟨[citedAssertion validFrom], List.nodup_singleton _⟩
  assertionsFts := .empty
  entities := .empty
  mutations := ⟨[citedMutation], List.nodup_singleton _⟩
  registry := .empty
  sources := .empty
  catalog := ⟨[⟨⟨"t", .dataset, "dataset"⟩, "d"⟩], List.nodup_singleton _⟩
  projections := .empty
  chunks := .empty
  revisions := .empty
  documents := .empty
  entityIds _ he := by cases he

def citingRequest : SearchRequest where
  tenantId := "t"
  agentId := "g"
  datasetIds := ["dataset"]
  query := "TBK m.1"
  limit := 10
  jurisdiction := none
  validAt := some "2026-01-01T00:30:00"
  validFrom := none
  validTo := none
  rrfK := none
  rrfWeights := none
  graphEnabled := false
  certified := false

def citingRuntime : Runtime momentEnv where
  embeddingEnabled := false
  graphEnabled := false
  legalRulesEnabled := true
  rrfK := 60
  rrfWeights := []
  vec := none
  graph := none
  reranker := none

/-- A search at one moment, without commits or exceptions. -/
def momentCall (later : Bool) : CallContext momentEnv where
  clock _ := later
  interrupt _ := none
  commits _ := []

def momentSearch (later : Bool) : CacheEvent momentEnv := .search citingRuntime citingRequest (momentCall later)

instance timeFree_decidable (db : Snapshot) (k : ScopeKey) : Decidable (TimeFree momentEnv db k) :=
  inferInstanceAs (Decidable (∀ a ∈ db.assertions.rows, ∀ now now' : Bool,
    db.authorises momentEnv.julianday k (db.datasetsOf k) now a =
      db.authorises momentEnv.julianday k (db.datasetsOf k) now' a))

instance eventTimeFree_decidable (s : System momentEnv) : ∀ ev : CacheEvent momentEnv, Decidable (ev.TimeFree s)
  | .commit _ => .isTrue trivial
  | .reconnect => .isTrue trivial
  | .search _ r c => timeFree_decidable (readSnapshot s c) r.scopeKey

theorem cache_transparent_twice :
    Along CacheEvent.exec CacheEvent.Served (System.initial momentEnv (citedSnapshot "2026-01-01T00:30:00"))
        [momentSearch false, momentSearch true] ∧
      Throughout CacheEvent.exec System.Faithful
        (System.initial momentEnv (citedSnapshot "2026-01-01T00:30:00")) [momentSearch false, momentSearch true] :=
  cache_transparent momentEnv (citedSnapshot "2026-01-01T00:30:00") [momentSearch false, momentSearch true]
    (by decide +kernel)

def resultCount {α : Type} : Except SearchError (List α) → Option Nat
  | .ok l => some l.length
  | .error _ => none

/-- An assertion whose `valid_from` is the text `now` is within the validity window at the first
search and outside it at the second, which finds it in the cache and returns it. -/
theorem cache_serves_stale : ¬ Along CacheEvent.exec CacheEvent.Served
    (System.initial momentEnv (citedSnapshot "now")) [momentSearch false, momentSearch true] := by
  rintro ⟨-, hserved, -⟩
  rcases hserved with ⟨e, ⟨n, what, hn, -⟩, -⟩ | hserved
  · cases hn
  · have hcount := congrArg resultCount (hserved (momentCall true).toContext fun _ => rfl)
    revert hcount
    decide +kernel

end Moments

end Mesa.Retrieval
