/-
Contracts of the search stages. A typing of scope documents says what each memoised item may be;
every stage keeps a scope within an admissible typing and returns only authorised rows. The
typing is a parameter: exact values give the transparency of the cache, authorised rows the
confinement of the results.
-/
import Mesa.Retrieval.Search

namespace Mesa.Retrieval

open Mesa.Foundation Mesa.Foundation.Prog

/-! ## Typings of a scope document -/

/-- What the items of a scope document may be. -/
structure ScopeTyping (E : SearchEnv) where
  assertionRows : List AssertionRow → Prop
  legalContext : LegalContext → Prop
  legalResolver : E.Resolver → Prop
  corpus : List FtsRow → Prop
  passageText : FeatureKey → String × String → Prop
  passageCitations : FeatureKey → List Citation → Prop
  assertionText : FeatureKey → AssertionText → Prop
  assertionCitations : FeatureKey → List Citation → Prop
  candidateCitations : String × List String → List Citation → Prop

namespace Snapshot

variable (db : Snapshot)

/-- The physical id of a dataset. -/
def physicalDataset (tenantId externalId : String) : Option String :=
  (db.catalog.lookup ⟨tenantId, .dataset, externalId⟩).map (·.physicalId)

/-- The resolved datasets of a scope. -/
def datasetsOf (k : ScopeKey) : List String := sortedSet (k.datasetIds.filterMap (db.physicalDataset k.tenantId))

/-- Every dataset of a scope is known. -/
def Resolves (k : ScopeKey) : Prop := ∀ e ∈ k.datasetIds, (db.physicalDataset k.tenantId e).isSome

/-- The legal context of the given rows. -/
def legalContextOf (E : SearchEnv) (tenantId : String) (rows : List AssertionRow) : LegalContext :=
  buildLegalContext E rows
    (((sortedSet (rows.map (·.revisionId))).toChunks 500).map (db.legalRows tenantId)).flatten

/-- The content of the scoped index as built at a time. -/
def scopedIndex (E : SearchEnv) (k : ScopeKey) (datasets : List String) (now : E.Clock) : List FtsRow :=
  db.assertionsFts.select fun f =>
    (db.inScopeAssertions E.julianday k datasets now).any fun a => decide (a.assertionId = f.assertionId)

/-- A stored row that the scope authorises at one of the given times. -/
def Authorised (E : SearchEnv) (times : E.Clock → Prop) (k : ScopeKey) (a : AssertionRow) : Prop :=
  a ∈ db.assertions.rows ∧ ∃ now, times now ∧ db.authorises E.julianday k (db.datasetsOf k) now a = true

end Snapshot

/-- The content of a TEMP table. -/
def tableContent (temp : List (Nat × List FtsRow)) (name : Nat) : Option (List FtsRow) :=
  (temp.find? fun t => decide (t.1 = name)).map Prod.snd

section Typing

variable {E : SearchEnv}

/-- What the load of the authorised rows produces is of the typing. -/
def ScopeTyping.AdmitsRows (T : ScopeTyping E) (times : E.Clock → Prop) (db : Snapshot) (k : ScopeKey) : Prop :=
  ∀ now, times now → T.assertionRows (db.inScopeAssertions E.julianday k (db.datasetsOf k) now)

/-- What the other loads produce is of the typing, where they start from authorised rows. -/
structure ScopeTyping.Admits (T : ScopeTyping E) (times : E.Clock → Prop) (db : Snapshot) (k : ScopeKey) : Prop where
  authorised : ∀ v, T.assertionRows v → ∀ a ∈ v, db.Authorised E times k a
  legalContext : ∀ v, T.assertionRows v → T.legalContext (db.legalContextOf E k.tenantId v)
  legalResolver : ∀ v, T.legalContext v → T.legalResolver (E.legalEntityResolver v.names)
  corpus : ∀ now, times now → T.corpus (db.scopedIndex E k (db.datasetsOf k) now)
  passageText : ∀ p : PassageRow E.Float, p.row ∈ db.assertions.rows →
    T.passageText p.featureKey (passageRawText p, E.normalizeIdentityText (passageRawText p))
  passageCitations : ∀ (p : PassageRow E.Float) v l, p.row ∈ db.assertions.rows → T.passageText p.featureKey v →
    T.legalResolver l → T.passageCitations p.featureKey (E.extractCitations l v.1)
  assertionText : ∀ p : PassageRow E.Float, p.row ∈ db.assertions.rows →
    T.assertionText p.featureKey (Retrieval.assertionText E p)
  assertionCitations : ∀ (p : PassageRow E.Float) l, p.row ∈ db.assertions.rows → T.legalResolver l →
    T.assertionCitations p.featureKey (E.extractCitations l (assertionRawText p))
  candidateCitations : ∀ l x, T.legalResolver l →
    T.candidateCitations x (E.extractCitations l (" ".intercalate x.2))

/-- The items of a scope document, and its index among the TEMP tables, are of the typing. -/
structure ScopeHolds (T : ScopeTyping E) (db : Snapshot) (k : ScopeKey) (s : Scope E)
    (temp : List (Nat × List FtsRow)) : Prop where
  datasets : ∀ v, s.datasets = some v → v = db.datasetsOf k ∧ db.Resolves k
  artifactRows : ∀ v, s.artifactRows = some v → v = db.scopeArtifacts k (db.datasetsOf k)
  assertionRows : ∀ v, s.assertionRows = some v → T.assertionRows v
  legalContext : ∀ v, s.legalContext = some v → T.legalContext v
  legalResolver : ∀ v, s.legalResolver = some v → T.legalResolver v
  built : s.ftsBuilt = true → ∃ v, tableContent temp s.ftsTable = some v ∧ T.corpus v
  unbuilt : s.ftsBuilt = false → tableContent temp s.ftsTable = none
  passageTexts : ∀ x ∈ s.passageTexts, T.passageText x.1 x.2
  passageCitations : ∀ x ∈ s.passageCitations, T.passageCitations x.1 x.2
  assertionTexts : ∀ x ∈ s.assertionTexts, T.assertionText x.1 x.2
  assertionCitations : ∀ x ∈ s.assertionCitations, T.assertionCitations x.1 x.2
  candidateCitations : ∀ x ∈ s.candidateCitations, T.candidateCitations x.1 x.2

theorem ScopeHolds.fresh {T : ScopeTyping E} {db : Snapshot} {k : ScopeKey} {name : Nat}
    {temp : List (Nat × List FtsRow)} (h : tableContent temp name = none) :
    ScopeHolds T db k (Scope.fresh E name) temp where
  datasets _ hv := by cases hv
  artifactRows _ hv := by cases hv
  assertionRows _ hv := by cases hv
  legalContext _ hv := by cases hv
  legalResolver _ hv := by cases hv
  built hv := by cases hv
  unbuilt _ := h
  passageTexts _ hx := by cases hx
  passageCitations _ hx := by cases hx
  assertionTexts _ hx := by cases hx
  assertionCitations _ hx := by cases hx
  candidateCitations _ hx := by cases hx

/-- A context whose clock reads only the given times. -/
def OnTime (times : E.Clock → Prop) (c : Context E) : Prop := ∀ n, times (c.clock n)

/-- A running search: its scope is of the typing, it works on the table `name`, and the other TEMP
tables are those of `base`. -/
structure Within (T : ScopeTyping E) (db : Snapshot) (k : ScopeKey) (name : Nat)
    (base : List (Nat × List FtsRow)) (w : Work E) : Prop where
  holds : ScopeHolds T db k w.scope w.temp
  table : w.scope.ftsTable = name
  others : ∀ m, m ≠ name → tableContent w.temp m = tableContent base m

end Typing

/-! ## Statements -/

section Stages

variable {E : SearchEnv} {times : E.Clock → Prop} {T : ScopeTyping E} {rt : Runtime E} {db : Snapshot}
  {r : SearchRequest} {name : Nat} {base : List (Nat × List FtsRow)}

theorem awaiting_ok {c : Context E} {w t : Work E} {now : E.Clock} (h : awaiting c w = (.ok now, t)) :
    t = { w with statements := w.statements + 1 } ∧ now = c.clock w.statements := by
  unfold awaiting at h
  split at h
  · cases h
  · cases h; exact ⟨rfl, rfl⟩

theorem Within.awaiting : Ensures (OnTime times) (Within T db r.scopeKey name base) awaiting times := by
  intro c w now t hc hw h
  obtain ⟨rfl, rfl⟩ := awaiting_ok h
  exact ⟨⟨hw.holds, hw.table, hw.others⟩, hc _⟩

theorem Within.awaited {α : Type} {x : Except SearchError α} :
    Ensures (OnTime times) (Within T db r.scopeKey name base) (Retrieval.awaited x) fun a => x = .ok a := by
  refine Ensures.bind Within.awaiting fun _ _ => ?_
  cases x with
  | ok a => exact Ensures.pure rfl
  | error e => exact Ensures.raise

/-- A statement followed by a pure computation. -/
theorem Within.read {α : Type} {f : E.Clock → α} {Q : α → Prop} (h : ∀ now, times now → Q (f now)) :
    Ensures (OnTime times) (Within T db r.scopeKey name base) (Retrieval.awaiting >>= fun now => pure (f now)) Q :=
  Ensures.bind Within.awaiting fun now hn => Ensures.pure (h now hn)

/-- A memoised item: what the slot may hold is what the load produces. -/
theorem Within.memo {α : Type} {slot : Slot E α} {load : SearchM E α} {Q : α → Prop}
    (hload : Ensures (OnTime times) (Within T db r.scopeKey name base) load Q)
    (hget : ∀ w : Work E, Within T db r.scopeKey name base w → ∀ a, slot.get w.scope = some a → Q a)
    (hput : ∀ (w : Work E) a, Within T db r.scopeKey name base w → Q a →
      ScopeHolds T db r.scopeKey (slot.put a w.scope) w.temp)
    (htable : ∀ a s, (slot.put a s).ftsTable = s.ftsTable) :
    Ensures (OnTime times) (Within T db r.scopeKey name base) (slot.memo load) Q := by
  refine Ensures.memo hload (fun w a hw h => hget w hw a h) fun w a hw ha => ?_
  exact ⟨hput w a hw ha, (htable a w.scope).trans hw.table, hw.others⟩

/-! ## The scope data -/

theorem mem_sortedSet {l : List String} {s : String} : s ∈ sortedSet l ↔ s ∈ l := by
  rw [sortedSet, List.mem_insertionSort, List.mem_dedup]

/-- Lists with the same members have the same sorted set. -/
theorem sortedSet_congr {l m : List String} (h : ∀ s, s ∈ l ↔ s ∈ m) : sortedSet l = sortedSet m := by
  have hperm : l.dedup.Perm m.dedup := by
    refine (List.perm_ext_iff_of_nodup (List.nodup_dedup l) (List.nodup_dedup m)).2 fun s => ?_
    rw [List.mem_dedup, List.mem_dedup, h]
  refine List.Perm.eq_of_pairwise ?_ (List.pairwise_insertionSort _ _) (List.pairwise_insertionSort _ _)
    ((List.perm_insertionSort _ _).trans (hperm.trans (List.perm_insertionSort _ _).symm))
  intro a b _ _ hab hba
  exact String.le_antisymm hab hba

theorem resolveIdInTx_ensures (e : String) :
    Ensures (OnTime times) (Within T db r.scopeKey name base) (resolveIdInTx db r e)
      fun p => db.physicalDataset r.tenantId e = some p := by
  refine Ensures.bind Within.awaiting fun _ _ => ?_
  unfold Snapshot.physicalDataset
  cases hl : db.catalog.lookup ⟨r.tenantId, .dataset, e⟩ with
  | some row => exact Ensures.pure rfl
  | none => exact Ensures.raise

/-- The ids that a loop resolved are those of the scope. -/
theorem datasetsOf_resolved {ids : List String}
    (h : List.Forall₂ (fun e p => db.physicalDataset r.tenantId e = some p) r.datasetIds ids) :
    sortedSet ids = db.datasetsOf r.scopeKey ∧ db.Resolves r.scopeKey := by
  have hids : ids = r.datasetIds.filterMap (db.physicalDataset r.tenantId) := by
    generalize r.datasetIds = l at h
    induction h with
    | nil => rfl
    | cons hp _ ih => rw [List.filterMap_cons_some hp, ← ih]
  have hsome : ∀ e ∈ r.datasetIds, (db.physicalDataset r.tenantId e).isSome := by
    clear hids
    generalize r.datasetIds = l at h
    induction h with
    | nil => intro e he; cases he
    | cons hp _ ih =>
      intro e he
      rcases List.mem_cons.1 he with rfl | he
      · rw [hp]; rfl
      · exact ih e he
  constructor
  · rw [hids]
    refine sortedSet_congr fun s => ?_
    rw [List.mem_filterMap, List.mem_filterMap]
    constructor
    · rintro ⟨e, he, hs⟩
      exact ⟨e, mem_sortedSet.2 he, hs⟩
    · rintro ⟨e, he, hs⟩
      exact ⟨e, mem_sortedSet.1 he, hs⟩
  · intro e he
    exact hsome e (mem_sortedSet.1 he)

theorem scopeDatasets_ensures :
    Ensures (OnTime times) (Within T db r.scopeKey name base) (scopeDatasets db r)
      fun v => v = db.datasetsOf r.scopeKey ∧ db.Resolves r.scopeKey := by
  refine Within.memo ?_ (fun w hw a h => hw.holds.datasets a h) ?_ fun _ _ => rfl
  · refine Ensures.bind (Ensures.forEach fun e _ => resolveIdInTx_ensures e) fun ids hids => ?_
    exact Ensures.pure (datasetsOf_resolved hids)
  · intro w a hw ha
    refine { hw.holds with datasets := ?_ }
    intro v hv
    cases hv
    exact ha

theorem scopeArtifactRows_ensures :
    Ensures (OnTime times) (Within T db r.scopeKey name base) (scopeArtifactRows db r (db.datasetsOf r.scopeKey))
      fun v => v = db.scopeArtifacts r.scopeKey (db.datasetsOf r.scopeKey) := by
  refine Within.memo (Within.read fun _ _ => rfl) (fun w hw a h => hw.holds.artifactRows a h) ?_ fun _ _ => rfl
  intro w a hw ha
  refine { hw.holds with artifactRows := ?_ }
  intro v hv
  cases hv
  exact ha

theorem scopeAssertionRows_ensures (hR : T.AdmitsRows times db r.scopeKey) :
    Ensures (OnTime times) (Within T db r.scopeKey name base) (scopeAssertionRows db r (db.datasetsOf r.scopeKey))
      T.assertionRows := by
  refine Within.memo (Within.read hR) (fun w hw a h => hw.holds.assertionRows a h) ?_
    fun _ _ => rfl
  intro w a hw ha
  refine { hw.holds with assertionRows := ?_ }
  intro v hv
  cases hv
  exact ha

/-- An item that nothing later reads. -/
theorem Within.anything {α : Type} {slot : Slot E α} {load : SearchM E α}
    (hload : Ensures (OnTime times) (Within T db r.scopeKey name base) load fun _ => True)
    (hput : ∀ (w : Work E) a, Within T db r.scopeKey name base w →
      ScopeHolds T db r.scopeKey (slot.put a w.scope) w.temp)
    (htable : ∀ a s, (slot.put a s).ftsTable = s.ftsTable) :
    Ensures (OnTime times) (Within T db r.scopeKey name base) (slot.memo load) fun _ => True :=
  Within.memo hload (fun _ _ _ _ => trivial) (fun w a hw _ => hput w a hw) htable

theorem degradedLane_ensures {datasets : List String} (lane : Ledger.Lane × Bool) :
    Ensures (OnTime times) (Within T db r.scopeKey name base) (degradedLane db r datasets lane) fun _ => True := by
  unfold degradedLane
  split
  · exact Ensures.bind (Q := fun _ => True) (Within.read fun _ _ => trivial) fun _ _ => Ensures.pure trivial
  · exact Ensures.pure trivial

theorem scopeDegradedSources_ensures {datasets : List String} :
    Ensures (OnTime times) (Within T db r.scopeKey name base) (scopeDegradedSources rt db r datasets)
      fun _ => True := by
  refine Within.anything ?_ (fun w _ hw => { hw.holds with }) fun _ _ => rfl
  exact Ensures.bind (Ensures.forEach fun lane _ => degradedLane_ensures lane) fun _ _ => Ensures.pure trivial

theorem scopeAuditRows_ensures {datasets : List String} :
    Ensures (OnTime times) (Within T db r.scopeKey name base) (scopeAuditRows db r datasets) fun _ => True := by
  refine Within.anything ?_ (fun w _ hw => { hw.holds with }) fun _ _ => rfl
  exact Ensures.bind (Q := fun _ => True) (Within.read fun _ _ => trivial) fun _ _ => Ensures.pure trivial

theorem scopeAuditDecisions_ensures {datasets : List String} {rows : List AuditRow} :
    Ensures (OnTime times) (Within T db r.scopeKey name base) (scopeAuditDecisions (E := E) r datasets rows)
      fun _ => True :=
  Within.anything (Ensures.pure trivial) (fun _ _ hw => { hw.holds with }) fun _ _ => rfl

theorem certify_ensures {datasets : List String} :
    Ensures (OnTime times) (Within T db r.scopeKey name base) (certify rt db r datasets) fun _ => True := by
  unfold certify
  split
  · refine Ensures.bind scopeDegradedSources_ensures fun degraded _ => ?_
    refine Ensures.bind scopeAuditRows_ensures fun rows _ => ?_
    refine Ensures.bind scopeAuditDecisions_ensures fun audit _ => ?_
    exact Ensures.modify fun w hw => ⟨hw.holds, hw.table, hw.others⟩
  · exact Ensures.pure trivial

/-! ## The legal query -/

/-- A query with citations has a resolver, and it is of the typing. -/
structure LegalQuery.Ok (T : ScopeTyping E) (lq : LegalQuery E) : Prop where
  typed : ∀ l, lq.resolver = some l → T.legalResolver l
  resolved : lq.resolver = none → lq.citations = []

theorem forall₂_eq_map {α β : Type} {f : α → β} {l : List α} {m : List β}
    (h : List.Forall₂ (fun a b => b = f a) l m) : m = l.map f := by
  induction h with
  | nil => rfl
  | cons hb _ ih => rw [List.map_cons, hb, ih]

theorem scopeLegalContext_ensures (hT : T.Admits times db r.scopeKey) {rows : List AssertionRow}
    (hrows : T.assertionRows rows) :
    Ensures (OnTime times) (Within T db r.scopeKey name base) (scopeLegalContext db r rows) T.legalContext := by
  refine Within.memo ?_ (fun w hw a h => hw.holds.legalContext a h) ?_ fun _ _ => rfl
  · refine Ensures.bind (Ensures.forEach (S := fun b x => x = db.legalRows r.tenantId b) fun b _ =>
      Within.read fun _ _ => rfl) fun fetched hf => ?_
    rw [forall₂_eq_map hf]
    exact Ensures.pure (hT.legalContext rows hrows)
  · intro w a hw ha
    refine { hw.holds with legalContext := ?_ }
    intro v hv
    cases hv
    exact ha

theorem scopeLegalResolver_ensures (hT : T.Admits times db r.scopeKey) {ctx : LegalContext}
    (hctx : T.legalContext ctx) :
    Ensures (OnTime times) (Within T db r.scopeKey name base) (scopeLegalResolver ctx) T.legalResolver := by
  refine Within.memo (Within.read fun _ _ => hT.legalResolver ctx hctx)
    (fun w hw a h => hw.holds.legalResolver a h) ?_ fun _ _ => rfl
  intro w a hw ha
  refine { hw.holds with legalResolver := ?_ }
  intro v hv
  cases hv
  exact ha

theorem decisionQuery_ensures (ctx : LegalContext) :
    Ensures (OnTime times) (Within T db r.scopeKey name base) (decisionQuery r ctx) fun _ => True := by
  unfold decisionQuery
  split
  · exact Ensures.pure trivial
  · exact Within.awaited.mono fun _ _ => trivial

theorem legalQuery_ensures (hT : T.Admits times db r.scopeKey) {rows : List AssertionRow}
    (hrows : T.assertionRows rows) :
    Ensures (OnTime times) (Within T db r.scopeKey name base) (legalQuery rt db r rows) (LegalQuery.Ok T) := by
  unfold legalQuery
  split
  · refine Ensures.bind (scopeLegalContext_ensures hT hrows) fun ctx hctx => ?_
    refine Ensures.bind (scopeLegalResolver_ensures hT hctx) fun resolver hres => ?_
    refine Ensures.bind Within.awaited fun citations _ => ?_
    refine Ensures.bind (decisionQuery_ensures ctx) fun refs _ => ?_
    refine Ensures.pure ⟨?_, ?_⟩
    · intro l hl
      cases hl
      exact hres
    · intro hl
      cases hl
  · refine Ensures.pure ⟨?_, fun _ => rfl⟩
    intro l hl
    cases hl

theorem typedQuery_ensures {datasets : List String} {lq : LegalQuery E} :
    Ensures (OnTime times) (Within T db r.scopeKey name base) (typedQuery db r datasets lq) fun _ => True := by
  unfold typedQuery
  split
  · exact Ensures.pure trivial
  · exact Within.read fun _ _ => trivial

theorem typedLegalCandidates_ensures {datasets : List String} {lq : LegalQuery E} :
    Ensures (OnTime times) (Within T db r.scopeKey name base) (typedLegalCandidates db r datasets lq) fun _ => True :=
  Ensures.bind typedQuery_ensures fun _ _ => Ensures.pure trivial

/-! ## The vector lane -/

/-- A program that only executes statements. -/
def Tidy {α : Type} (m : SearchM E α) : Prop := ∀ c w, ∃ n, (m c w).2 = { w with statements := n }

theorem Tidy.pure {α : Type} (a : α) : Tidy (Pure.pure a : SearchM E α) := fun _ w => ⟨w.statements, rfl⟩

theorem Tidy.raise {α : Type} (e : SearchError) : Tidy (Prog.raise e : SearchM E α) :=
  fun _ w => ⟨w.statements, rfl⟩

theorem Tidy.awaiting : Tidy (Retrieval.awaiting : SearchM E E.Clock) := by
  intro c w
  refine ⟨w.statements + 1, ?_⟩
  unfold Retrieval.awaiting
  split <;> rfl

theorem Tidy.bind {α β : Type} {m : SearchM E α} {f : α → SearchM E β} (hm : Tidy m) (hf : ∀ a, Tidy (f a)) :
    Tidy (m >>= f) := by
  intro c w
  obtain ⟨n, hn⟩ := hm c w
  rcases hr : m c w with ⟨x, t⟩
  rw [hr] at hn
  cases x with
  | ok a =>
    obtain ⟨n', hn'⟩ := hf a c t
    dsimp only at hn
    exact ⟨n', by rw [bind_ok hr, hn', hn]⟩
  | error e => exact ⟨n, by rw [bind_error hr]; exact hn⟩

theorem Tidy.awaited {α : Type} (x : Except SearchError α) : Tidy (Retrieval.awaited x : SearchM E α) := by
  refine Tidy.awaiting.bind fun _ => ?_
  cases x with
  | ok a => exact Tidy.pure a
  | error e => exact Tidy.raise e

/-- The ids that the vector lane may look up. -/
def VectorLane.Ok (times : E.Clock → Prop) (db : Snapshot) (k : ScopeKey) (v : VectorLane E.Float) : Prop :=
  ∀ a ∈ v.assertions, db.Authorised E times k a

theorem mem_keepFirst {α κ : Type} [DecidableEq κ] {key : α → κ} {a : α} : ∀ {l : List α},
    a ∈ keepFirst key l → a ∈ l
  | [], h => by cases h
  | b :: l, h => by
    rw [keepFirst, List.mem_cons] at h
    rcases h with rfl | h
    · exact List.mem_cons_self ..
    · exact List.mem_cons_of_mem _ (mem_keepFirst (List.mem_filter.1 h).1)

theorem searchableVectors_tidy {vec : VectorEngine E.Float E.Vector} {allowed : List String} :
    Tidy (searchableVectors r vec allowed) := by
  unfold searchableVectors
  split
  · exact (Tidy.awaited _).bind fun _ => Tidy.pure _
  · exact Tidy.pure _

theorem vectorHits_tidy {vec : VectorEngine E.Float E.Vector} {allowed : List String} :
    Tidy (vectorHits rt r vec allowed) := by
  unfold vectorHits
  refine Tidy.bind searchableVectors_tidy fun searchable => ?_
  · split
    · exact Tidy.pure _
    · split
      · exact Tidy.raise _
      · exact Tidy.raise _
      · exact Tidy.awaited _

theorem rankVectorHits_tidy {vids eids : List String} {rows : List AssertionRow}
    {hits : List (VectorHit E.Float)} : Tidy (rankVectorHits db vids eids rows hits) := by
  unfold rankVectorHits
  dsimp only
  split
  · exact Tidy.pure _
  · exact Tidy.awaiting.bind fun _ => Tidy.pure _

/-- A row of the table with the id of an authorised row is that row. -/
theorem authorised_of_id {k : ScopeKey} {a b : AssertionRow} (hb : db.Authorised E times k b)
    (ha : a ∈ db.assertions.rows) (hid : a.assertionId = b.assertionId) : db.Authorised E times k a := by
  rw [Table.eq_of_key_eq ha hb.1 hid]
  exact hb

theorem rankVectorHits_ensures {vids eids : List String} {rows : List AssertionRow}
    {hits : List (VectorHit E.Float)} (hrows : ∀ a ∈ rows, db.Authorised E times r.scopeKey a)
    (hvids : ∀ i ∈ vids, ∃ a ∈ rows, a.assertionId = i) :
    Ensures (OnTime times) (Within T db r.scopeKey name base) (rankVectorHits db vids eids rows hits)
      (VectorLane.Ok times db r.scopeKey) := by
  unfold rankVectorHits
  dsimp only
  split
  · refine Ensures.pure ?_
    intro a ha
    cases ha
  · refine Within.read fun _ _ => ?_
    intro a ha
    obtain ⟨ha, hknown⟩ := Table.mem_select.1 ha
    obtain ⟨h, hh, hid⟩ := List.any_eq_true.1 hknown
    have hmem := (List.mem_filter.1 (mem_keepFirst hh)).2
    obtain ⟨b, hb, hbid⟩ := hvids h.nodeId (of_decide_eq_true hmem)
    exact authorised_of_id (hrows b hb) ha ((of_decide_eq_true hid).symm.trans hbid.symm)

theorem unlessDisabled_ensures {m : SearchM E (VectorLane E.Float)} (hm : Tidy m)
    (h : Ensures (OnTime times) (Within T db r.scopeKey name base) m (VectorLane.Ok times db r.scopeKey)) :
    Ensures (OnTime times) (Within T db r.scopeKey name base) (unlessDisabled m) (VectorLane.Ok times db r.scopeKey) := by
  intro c w a t hc hw hr
  unfold unlessDisabled at hr
  split at hr
  · next what w' hout =>
    cases hr
    obtain ⟨n, hn⟩ := hm c w
    rw [hout] at hn
    dsimp only at hn
    subst hn
    refine ⟨⟨hw.holds, hw.table, hw.others⟩, ?_⟩
    intro b hb
    cases hb
  · exact h c w a t hc hw hr

theorem vectorLane_ensures {vids eids : List String} {rows : List AssertionRow}
    (hrows : ∀ a ∈ rows, db.Authorised E times r.scopeKey a) (hvids : ∀ i ∈ vids, ∃ a ∈ rows, a.assertionId = i) :
    Ensures (OnTime times) (Within T db r.scopeKey name base) (vectorLane rt db r vids eids rows)
      (VectorLane.Ok times db r.scopeKey) := by
  unfold vectorLane
  split
  · next vec i rest =>
    refine unlessDisabled_ensures (vectorHits_tidy.bind fun _ => rankVectorHits_tidy) ?_
    refine Ensures.bind (Q := fun _ => True) ?_ fun hits _ => rankVectorHits_ensures hrows hvids
    intro c w a t hc hw hr
    obtain ⟨n, hn⟩ := vectorHits_tidy c w
    rw [hr] at hn
    dsimp only at hn
    subst hn
    exact ⟨⟨hw.holds, hw.table, hw.others⟩, trivial⟩
  · refine Ensures.pure ?_
    intro a ha
    cases ha

/-! ## Passages -/

theorem tableContent_cons (n m : Nat) (v : List FtsRow) (temp : List (Nat × List FtsRow)) :
    tableContent ((n, v) :: temp) m = if n = m then some v else tableContent temp m := by
  unfold tableContent
  rw [List.find?_cons]
  by_cases h : n = m <;> simp [h]

theorem tableContent_append (n m : Nat) (x : List FtsRow) : ∀ temp : List (Nat × List FtsRow),
    tableContent (temp.map fun t => if t.1 = n then (t.1, t.2 ++ x) else t) m =
      (tableContent temp m).map fun v => if m = n then v ++ x else v
  | [] => rfl
  | (k, v) :: temp => by
    rw [List.map_cons, tableContent_cons]
    have ih := tableContent_append n m x temp
    by_cases hk : k = n
    · subst hk
      rw [if_pos rfl, tableContent_cons, ih]
      by_cases hm : k = m
      · subst hm; simp
      · simp [hm]
    · rw [if_neg hk, tableContent_cons, ih]
      by_cases hm : k = m
      · subst hm; simp [hk]
      · simp [hm]

theorem createScopedFts_ok {c : Context E} {w t : Work E} {u : Unit}
    (h : createScopedFts c w = (.ok u, t)) :
    tableContent w.temp w.scope.ftsTable = none ∧
      t = { w with statements := w.statements + 1, temp := (w.scope.ftsTable, []) :: w.temp } := by
  obtain ⟨now, v, hv, ht⟩ := bind_returns h
  obtain ⟨rfl, -⟩ := awaiting_ok hv
  dsimp only at ht
  split at ht
  · cases ht
  · next hnone =>
    cases ht
    refine ⟨?_, rfl⟩
    rw [tableContent, List.find?_eq_none.2, Option.map_none]
    intro x hx
    exact fun hx' => hnone (List.any_eq_true.2 ⟨x, hx, hx'⟩)

theorem fillScopedFts_ok {c : Context E} {w t : Work E} {u : Unit} {datasets : List String}
    (h : fillScopedFts db r datasets c w = (.ok u, t)) :
    t = { w with
      statements := w.statements + 1
      temp := w.temp.map fun x => if x.1 = w.scope.ftsTable then
        (x.1, x.2 ++ db.scopedIndex E r.scopeKey datasets (c.clock w.statements)) else x } := by
  obtain ⟨now, v, hv, ht⟩ := bind_returns h
  obtain ⟨rfl, rfl⟩ := awaiting_ok hv
  cases ht
  rfl

theorem buildScopedFts_ensures (hT : T.Admits times db r.scopeKey) :
    Ensures (OnTime times) (Within T db r.scopeKey name base) (buildScopedFts db r (db.datasetsOf r.scopeKey))
      fun _ => True := by
  intro c w u t hc hw hr
  simp only [buildScopedFts, Slot.memo, Prog.memo, ftsBuiltSlot] at hr
  cases hb : w.scope.ftsBuilt with
  | true =>
    rw [hb] at hr
    cases hr
    exact ⟨hw, trivial⟩
  | false =>
    rw [hb] at hr
    obtain ⟨_, w₁, hload, hset⟩ :=
      bind_returns (f := fun a _ (t : Work E) => (.ok a, { t with scope := { t.scope with ftsBuilt := true } })) hr
    obtain ⟨_, w₂, hcreate, hfill⟩ := bind_returns hload
    obtain ⟨hnone, rfl⟩ := createScopedFts_ok hcreate
    obtain rfl := fillScopedFts_ok hfill
    cases hset
    refine ⟨⟨{ hw.holds with built := ?_, unbuilt := ?_ }, hw.table, ?_⟩, trivial⟩
    · intro _
      refine ⟨db.scopedIndex E r.scopeKey (db.datasetsOf r.scopeKey) (c.clock (w.statements + 1)), ?_,
        hT.corpus _ (hc _)⟩
      dsimp only
      rw [tableContent_append, tableContent_cons, if_pos rfl]
      simp
    · intro h
      cases h
    · intro m hm
      have hne : w.scope.ftsTable ≠ m := by rw [hw.table]; exact fun h => hm h.symm
      dsimp only
      rw [tableContent_append, tableContent_cons, if_neg hne, ← hw.others m hm]
      cases tableContent w.temp m with
      | none => rfl
      | some v => rw [Option.map_some, if_neg hne.symm]

theorem scopedCorpus_ensures :
    Ensures (OnTime times) (Within T db r.scopeKey name base) (scopedCorpus (E := E)) fun _ => True := by
  intro c w v t hc hw hr
  unfold scopedCorpus at hr
  split at hr
  · cases hr
    exact ⟨hw, trivial⟩
  · cases hr

/-- Passages whose assertions are authorised. -/
def PassagesOk (times : E.Clock → Prop) (db : Snapshot) (k : ScopeKey) (l : List (PassageRow E.Float)) : Prop :=
  ∀ p ∈ l, db.Authorised E times k p.row

theorem passages_ok (corpus : List FtsRow) {now : E.Clock} (hnow : times now) (tokens : List String) (limit : Nat) :
    PassagesOk times db r.scopeKey
      (db.passages E corpus r.scopeKey (db.datasetsOf r.scopeKey) now tokens limit) := by
  intro p hp
  have hp := (List.mem_insertionSort _).1 (List.mem_of_mem_take hp)
  obtain ⟨f, -, hf⟩ := List.mem_filterMap.1 hp
  obtain ⟨a, ha, rfl⟩ := Option.map_eq_some_iff.1 hf
  obtain ⟨hlookup, hauth⟩ := Option.filter_eq_some_iff.1 ha
  exact ⟨Table.lookup_mem hlookup, now, hnow, hauth⟩

theorem typedPassage_ensures {rows : List AssertionRow} (hrows : ∀ a ∈ rows, db.Authorised E times r.scopeKey a)
    (i : String) : Ensures (OnTime times) (Within T db r.scopeKey name base) (typedPassage (E := E) rows i)
      fun p => db.Authorised E times r.scopeKey p.row := by
  unfold typedPassage
  split
  · next a ha => exact Ensures.pure (hrows a (List.mem_of_find?_eq_some ha))
  · exact Ensures.raise

theorem forall₂_mem_right {α β : Type} {P : α → β → Prop} {l : List α} {m : List β}
    (h : List.Forall₂ P l m) : ∀ b ∈ m, ∃ a ∈ l, P a b := by
  induction h with
  | nil => intro b hb; cases hb
  | cons hab _ ih =>
    intro x hx
    rcases List.mem_cons.1 hx with rfl | hx
    · exact ⟨_, List.mem_cons_self .., hab⟩
    · obtain ⟨a, ha, h⟩ := ih x hx
      exact ⟨a, List.mem_cons_of_mem _ ha, h⟩

theorem passageCandidates_ensures (hT : T.Admits times db r.scopeKey) {rows : List AssertionRow}
    (hrows : ∀ a ∈ rows, db.Authorised E times r.scopeKey a) {tokens : QueryTokens} {typed : List String} :
    Ensures (OnTime times) (Within T db r.scopeKey name base)
      (passageCandidates db r (db.datasetsOf r.scopeKey) rows tokens typed) (PassagesOk times db r.scopeKey) := by
  unfold passageCandidates
  split
  · refine Ensures.pure ?_
    intro p hp
    cases hp
  · refine Ensures.bind (buildScopedFts_ensures hT) fun _ _ => ?_
    refine Ensures.bind Within.awaiting fun now hnow => ?_
    refine Ensures.bind scopedCorpus_ensures fun corpus _ => ?_
    refine Ensures.bind (Ensures.forEach fun i _ => typedPassage_ensures hrows i) fun added hadded => ?_
    refine Ensures.pure ?_
    intro p hp
    rcases List.mem_append.1 hp with hp | hp
    · exact passages_ok corpus hnow tokens.fts r.limit p hp
    · obtain ⟨i, -, h⟩ := forall₂_mem_right hadded p hp
      exact h

/-! ## Scoring -/

/-- A memoised text feature, kept under its key in one of the association lists. -/
theorem Within.feature {κ α : Type} [DecidableEq κ] {get : Scope E → List (κ × α)}
    {put : List (κ × α) → Scope E → Scope E} {P : κ → α → Prop} {key : κ} {load : SearchM E α}
    (hload : Ensures (OnTime times) (Within T db r.scopeKey name base) load (P key))
    (hall : ∀ w : Work E, Within T db r.scopeKey name base w → ∀ x ∈ get w.scope, P x.1 x.2)
    (hput : ∀ (w : Work E) l, Within T db r.scopeKey name base w → (∀ x ∈ l, P x.1 x.2) →
      ScopeHolds T db r.scopeKey (put l w.scope) w.temp)
    (htable : ∀ l s, (put l s).ftsTable = s.ftsTable) :
    Ensures (OnTime times) (Within T db r.scopeKey name base) ((Slot.at get put key).memo load) (P key) := by
  refine Within.memo hload ?_ ?_ fun a s => htable _ s
  · intro w hw a ha
    obtain ⟨x, hx, rfl⟩ := Option.map_eq_some_iff.1 ha
    have hkey := List.find?_some hx
    rw [decide_eq_true_eq] at hkey
    rw [← hkey]
    exact hall w hw x (List.mem_of_find?_eq_some hx)
  · intro w a hw ha
    refine hput w _ hw ?_
    intro x hx
    rcases List.mem_cons.1 hx with rfl | hx
    · exact ha
    · exact hall w hw x hx

theorem extract_ensures {lq : LegalQuery E} (hlq : lq.Ok T) (hne : lq.citations ≠ []) {Q : List Citation → Prop}
    {text : String} (h : ∀ l, T.legalResolver l → Q (E.extractCitations l text)) :
    Ensures (OnTime times) (Within T db r.scopeKey name base) (lq.extract text) Q := by
  refine Ensures.bind Within.awaiting fun _ _ => ?_
  cases hl : lq.resolver with
  | some l => exact Ensures.pure (h l (hlq.typed l hl))
  | none => exact absurd (hlq.resolved hl) hne

theorem rowCitations_ensures {lq : LegalQuery E} {p : PassageRow E.Float} {slot : Slot E (List Citation)}
    {text : String} {Q : List Citation → Prop}
    (h : lq.citations ≠ [] → Ensures (OnTime times) (Within T db r.scopeKey name base) (slot.memo (lq.extract text)) Q) :
    Ensures (OnTime times) (Within T db r.scopeKey name base) (rowCitations lq p slot text) fun _ => True := by
  unfold rowCitations
  split
  · exact Ensures.pure trivial
  · next hne =>
    refine (h ?_).mono fun _ _ => trivial
    intro hnil
    rw [hnil] at hne
    exact hne rfl

theorem passageText_ensures (hT : T.Admits times db r.scopeKey) {p : PassageRow E.Float}
    (hp : p.row ∈ db.assertions.rows) :
    Ensures (OnTime times) (Within T db r.scopeKey name base) ((passageTextSlot p.featureKey).memo
      (pure (passageRawText p, E.normalizeIdentityText (passageRawText p)))) (T.passageText p.featureKey) := by
  refine Within.feature (Ensures.pure (hT.passageText p hp)) (fun w hw => hw.holds.passageTexts) ?_ fun _ _ => rfl
  exact fun w l hw hl => { hw.holds with passageTexts := hl }

theorem passageCitations_ensures (hT : T.Admits times db r.scopeKey) {lq : LegalQuery E} (hlq : lq.Ok T)
    (hne : lq.citations ≠ []) {p : PassageRow E.Float} (hp : p.row ∈ db.assertions.rows) {text : String × String}
    (htext : T.passageText p.featureKey text) :
    Ensures (OnTime times) (Within T db r.scopeKey name base)
      ((passageCitationsSlot p.featureKey).memo (lq.extract text.1)) (T.passageCitations p.featureKey) := by
  refine Within.feature (extract_ensures hlq hne fun l hl => hT.passageCitations p text l hp htext hl)
    (fun w hw => hw.holds.passageCitations) ?_ fun _ _ => rfl
  exact fun w l hw hl => { hw.holds with passageCitations := hl }

theorem scorePassage_ensures (hT : T.Admits times db r.scopeKey) {lq : LegalQuery E} (hlq : lq.Ok T)
    {tokens : List String} {p : PassageRow E.Float} (hp : p.row ∈ db.assertions.rows) :
    Ensures (OnTime times) (Within T db r.scopeKey name base) (scorePassage lq tokens p) fun x => x.2 = p := by
  refine Ensures.bind (passageText_ensures hT hp) fun text htext => ?_
  refine Ensures.bind (rowCitations_ensures fun hne => passageCitations_ensures hT hlq hne hp htext) fun cites _ => ?_
  exact Ensures.bind Within.awaiting fun _ _ => Ensures.pure rfl

theorem assertionText_ensures (hT : T.Admits times db r.scopeKey) {p : PassageRow E.Float}
    (hp : p.row ∈ db.assertions.rows) :
    Ensures (OnTime times) (Within T db r.scopeKey name base) ((assertionTextSlot p.featureKey).memo
      (pure (Retrieval.assertionText E p))) (T.assertionText p.featureKey) := by
  refine Within.feature (Ensures.pure (hT.assertionText p hp)) (fun w hw => hw.holds.assertionTexts) ?_
    fun _ _ => rfl
  exact fun w l hw hl => { hw.holds with assertionTexts := hl }

theorem assertionCitations_ensures (hT : T.Admits times db r.scopeKey) {lq : LegalQuery E} (hlq : lq.Ok T)
    (hne : lq.citations ≠ []) {p : PassageRow E.Float} (hp : p.row ∈ db.assertions.rows) :
    Ensures (OnTime times) (Within T db r.scopeKey name base)
      ((assertionCitationsSlot p.featureKey).memo (lq.extract (assertionRawText p)))
      (T.assertionCitations p.featureKey) := by
  refine Within.feature (extract_ensures hlq hne fun l hl => hT.assertionCitations p l hp hl)
    (fun w hw => hw.holds.assertionCitations) ?_ fun _ _ => rfl
  exact fun w l hw hl => { hw.holds with assertionCitations := hl }

theorem scoreAssertion_ensures (hT : T.Admits times db r.scopeKey) {lq : LegalQuery E} (hlq : lq.Ok T)
    {tokens : List String} {p : PassageRow E.Float} (hp : p.row ∈ db.assertions.rows) :
    Ensures (OnTime times) (Within T db r.scopeKey name base) (scoreAssertion r lq tokens p) fun x => x.2 = p := by
  refine Ensures.bind (assertionText_ensures hT hp) fun text _ => ?_
  refine Ensures.bind (rowCitations_ensures fun hne => assertionCitations_ensures hT hlq hne hp) fun cites _ => ?_
  exact Ensures.bind Within.awaiting fun _ _ => Ensures.pure rfl

/-- What a scoring loop returns are the passages it scored. -/
theorem scored_mem {l : List (PassageRow E.Float)} {m : List (E.Float × PassageRow E.Float)}
    (h : List.Forall₂ (fun p (x : E.Float × PassageRow E.Float) => x.2 = p) l m) : m.map Prod.snd = l := by
  induction h with
  | nil => rfl
  | cons hx _ ih => rw [List.map_cons, hx, ih]

theorem lexicalLane_ensures (hT : T.Admits times db r.scopeKey) {lq : LegalQuery E} (hlq : lq.Ok T)
    {tokens : QueryTokens} {allowed : List String} {passages : List (PassageRow E.Float)}
    (hp : PassagesOk times db r.scopeKey passages) :
    Ensures (OnTime times) (Within T db r.scopeKey name base) (lexicalLane lq tokens allowed passages)
      (PassagesOk times db r.scopeKey) := by
  refine Ensures.bind (Ensures.forEach fun p hpm => scorePassage_ensures hT hlq (hp p hpm).1) fun marked hm => ?_
  refine Ensures.pure ?_
  intro p hpm
  have hpm := (List.mem_filter.1 (mem_keepFirst hpm)).1
  obtain ⟨x, hx, rfl⟩ := List.mem_map.1 hpm
  refine hp x.2 ?_
  rw [← scored_mem hm]
  exact List.mem_map_of_mem ((List.mem_insertionSort _).1 hx)

/-- The assertion lane holds authorised passages. -/
def RankedOk (times : E.Clock → Prop) (db : Snapshot) (k : ScopeKey) (l : List (E.Float × PassageRow E.Float)) : Prop :=
  ∀ x ∈ l, db.Authorised E times k x.2.row

theorem assertionLane_ensures (hT : T.Admits times db r.scopeKey) {lq : LegalQuery E} (hlq : lq.Ok T)
    {tokens : QueryTokens} {allowed : List String} {passages : List (PassageRow E.Float)}
    (hp : PassagesOk times db r.scopeKey passages) :
    Ensures (OnTime times) (Within T db r.scopeKey name base) (assertionLane r lq tokens allowed passages)
      (RankedOk times db r.scopeKey) := by
  refine Ensures.bind (Ensures.forEach fun p hpm =>
    scoreAssertion_ensures hT hlq (hp p (List.mem_filter.1 hpm).1).1) fun marked hm => ?_
  refine Ensures.pure ?_
  intro x hx
  have hx := (List.mem_insertionSort _).1 (mem_keepFirst (List.mem_of_mem_take hx))
  have hmem : x.2 ∈ marked.map Prod.snd := List.mem_map_of_mem hx
  rw [scored_mem hm] at hmem
  exact hp x.2 (List.mem_filter.1 hmem).1

theorem entityLane_ensures {datasets : List String} {tokens : QueryTokens} {allowed : List String} :
    Ensures (OnTime times) (Within T db r.scopeKey name base) (entityLane db r datasets tokens allowed) fun _ => True := by
  unfold entityLane
  split
  · exact Ensures.pure trivial
  · exact Within.read fun _ _ => trivial

end Stages

end Mesa.Retrieval
