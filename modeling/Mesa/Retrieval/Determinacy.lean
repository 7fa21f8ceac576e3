/-
A search is determined by its snapshot, whatever its scope document already holds, as long as the
clock does not decide which rows the scope authorises. The exact typing allows each item of a scope
document one value, the one that an empty document would load.
-/
import Mesa.Retrieval.Confinement

namespace Mesa.Retrieval

open Mesa.Foundation Mesa.Foundation.Prog

/-! ## Scopes that the clock does not decide -/

section Free

variable {E : SearchEnv} {db : Snapshot} {k : ScopeKey}

/-- Whether the scope authorises a stored row does not depend on when it is asked. -/
def TimeFree (E : SearchEnv) (db : Snapshot) (k : ScopeKey) : Prop :=
  ∀ a ∈ db.assertions.rows, ∀ now now' : E.Clock,
    db.authorises E.julianday k (db.datasetsOf k) now a = db.authorises E.julianday k (db.datasetsOf k) now' a

theorem TimeFree.inScopeAssertions (h : TimeFree E db k) (now now' : E.Clock) :
    db.inScopeAssertions E.julianday k (db.datasetsOf k) now =
      db.inScopeAssertions E.julianday k (db.datasetsOf k) now' :=
  List.filter_congr fun a ha => h a ha now now'

theorem TimeFree.scopedIndex (h : TimeFree E db k) (now now' : E.Clock) :
    db.scopedIndex E k (db.datasetsOf k) now = db.scopedIndex E k (db.datasetsOf k) now' := by
  unfold Snapshot.scopedIndex
  rw [h.inScopeAssertions now now']

theorem TimeFree.typedLegalCandidates (h : TimeFree E db k) (now now' : E.Clock) (citations : List Citation)
    (limit : Nat) : db.typedLegalCandidates E.julianday k (db.datasetsOf k) now citations limit =
      db.typedLegalCandidates E.julianday k (db.datasetsOf k) now' citations limit := by
  unfold Snapshot.typedLegalCandidates Table.select
  rw [List.filter_congr fun a ha => by rw [h a ha now now']]

theorem TimeFree.passages (h : TimeFree E db k) (now now' : E.Clock) (corpus : List FtsRow)
    (tokens : List String) (limit : Nat) :
    db.passages E corpus k (db.datasetsOf k) now tokens limit =
      db.passages E corpus k (db.datasetsOf k) now' tokens limit := by
  have hrow : ∀ f : FtsRow, (db.assertions.lookup f.assertionId).filter
      (db.authorises E.julianday k (db.datasetsOf k) now) = (db.assertions.lookup f.assertionId).filter
      (db.authorises E.julianday k (db.datasetsOf k) now') := by
    intro f
    cases hl : db.assertions.lookup f.assertionId with
    | none => rfl
    | some a => simp only [Option.filter, h a (Table.lookup_mem hl) now now']
  unfold Snapshot.passages
  simp only [hrow]

end Free

/-! ## The exact typing -/

section Exact

variable (E : SearchEnv) (db : Snapshot) (k : ScopeKey) (now : E.Clock)

/-- The authorised rows. -/
def exactRows : List AssertionRow := db.inScopeAssertions E.julianday k (db.datasetsOf k) now

def exactContext : LegalContext := db.legalContextOf E k.tenantId (exactRows E db k now)

def exactResolver : E.Resolver := E.legalEntityResolver (exactContext E db k now).names

/-- Each item is the one that an empty document would load; a text feature is that of a passage over
a stored row with its key. -/
def exactTyping : ScopeTyping E where
  assertionRows v := v = exactRows E db k now
  legalContext v := v = exactContext E db k now
  legalResolver v := v = exactResolver E db k now
  corpus v := v = db.scopedIndex E k (db.datasetsOf k) now
  passageText key v := ∃ p : PassageRow E.Float, p.row ∈ db.assertions.rows ∧ p.featureKey = key ∧
    v = (passageRawText p, E.normalizeIdentityText (passageRawText p))
  passageCitations key v := ∃ p : PassageRow E.Float, p.row ∈ db.assertions.rows ∧ p.featureKey = key ∧
    v = E.extractCitations (exactResolver E db k now) (passageRawText p)
  assertionText key v := ∃ p : PassageRow E.Float, p.row ∈ db.assertions.rows ∧ p.featureKey = key ∧
    v = assertionText E p
  assertionCitations key v := ∃ p : PassageRow E.Float, p.row ∈ db.assertions.rows ∧ p.featureKey = key ∧
    v = E.extractCitations (exactResolver E db k now) (assertionRawText p)
  candidateCitations key v := v = E.extractCitations (exactResolver E db k now) (" ".intercalate key.2)

variable {E db k now}

theorem TimeFree.exactRows (h : TimeFree E db k) (now' : E.Clock) :
    db.inScopeAssertions E.julianday k (db.datasetsOf k) now' = exactRows E db k now :=
  h.inScopeAssertions now' now

theorem TimeFree.exactTyping (h : TimeFree E db k) (now now' : E.Clock) :
    exactTyping E db k now = exactTyping E db k now' := by
  unfold Retrieval.exactTyping exactResolver exactContext Retrieval.exactRows
  rw [h.inScopeAssertions now now', h.scopedIndex now now']

theorem exactTyping_rows (now : E.Clock) (h : TimeFree E db k) :
    (exactTyping E db k now).AdmitsRows (fun _ => True) db k :=
  fun now' _ => h.exactRows now'

theorem exactTyping_admits (now : E.Clock) (h : TimeFree E db k) : (exactTyping E db k now).Admits (fun _ => True) db k where
  authorised := by
    rintro v rfl a ha
    obtain ⟨hmem, hauth⟩ := Table.mem_select.1 ha
    exact ⟨hmem, now, trivial, hauth⟩
  legalContext := by
    rintro v rfl
    exact rfl
  legalResolver := by
    rintro v rfl
    exact rfl
  corpus now' _ := h.scopedIndex now' now
  passageText p hp := ⟨p, hp, rfl, rfl⟩
  passageCitations := by
    rintro p v l - ⟨q, hq, hkey, rfl⟩ rfl
    exact ⟨q, hq, hkey, rfl⟩
  assertionText p hp := ⟨p, hp, rfl, rfl⟩
  assertionCitations := by
    rintro p l hp rfl
    exact ⟨p, hp, rfl, rfl⟩
  candidateCitations := by
    rintro l x rfl
    exact rfl

/-- Passages over stored rows with one key agree in their row and in their names. -/
theorem featureKey_inj {p q : PassageRow E.Float} (hp : p.row ∈ db.assertions.rows) (hq : q.row ∈ db.assertions.rows)
    (h : p.featureKey = q.featureKey) :
    p.row = q.row ∧ p.subjectName = q.subjectName ∧ p.objectName = q.objectName := by
  unfold PassageRow.featureKey at h
  rw [Prod.mk.injEq, Prod.mk.injEq] at h
  exact ⟨Table.eq_of_key_eq hp hq h.1, h.2.1, h.2.2⟩

/-- A text that depends on the row and the names only is determined by the key. -/
theorem feature_unique {α : Type} {f : PassageRow E.Float → α} {key : FeatureKey}
    (hf : ∀ p q : PassageRow E.Float, p.row = q.row → p.subjectName = q.subjectName →
      p.objectName = q.objectName → f p = f q) {v w : α}
    (hv : ∃ p : PassageRow E.Float, p.row ∈ db.assertions.rows ∧ p.featureKey = key ∧ v = f p)
    (hw : ∃ p : PassageRow E.Float, p.row ∈ db.assertions.rows ∧ p.featureKey = key ∧ w = f p) : v = w := by
  obtain ⟨p, hp, hkey, rfl⟩ := hv
  obtain ⟨q, hq, hkey', rfl⟩ := hw
  obtain ⟨h₁, h₂, h₃⟩ := featureKey_inj hp hq (hkey.trans hkey'.symm)
  exact hf p q h₁ h₂ h₃

/-- A running search whose scope document holds exact values. -/
def Exact (E : SearchEnv) (db : Snapshot) (k : ScopeKey) (now : E.Clock) (w : Work E) : Prop :=
  ∃ name base, Within (exactTyping E db k now) db k name base w

/-- An exception that the surroundings raise. -/
def Injected (c : Context E) (e : SearchError) : Prop := ∃ n what, c.interrupt n = some what ∧ e = .interrupted what

/-- A contract of a stage, at exact values. -/
theorem Exact.ensures {α : Type} {m : SearchM E α} {Q : α → Prop}
    (h : ∀ name base, Ensures (OnTime fun _ => True) (Within (exactTyping E db k now) db k name base) m Q) :
    Ensures (fun _ => True) (Exact E db k now) m Q := by
  intro c w a t _ ⟨name, base, hw⟩ hr
  obtain ⟨hi, hq⟩ := h name base c w a t (fun _ => trivial) hw hr
  exact ⟨⟨name, base, hi⟩, hq⟩

end Exact

section Stages

variable {E : SearchEnv} {rt : Runtime E} {db : Snapshot} {r : SearchRequest} {now : E.Clock}

/-! ## Statements -/

theorem Exact.awaiting : Ensures (fun _ => True) (Exact E db r.scopeKey now) awaiting fun _ => True :=
  Exact.ensures fun _ _ => Within.awaiting.mono fun _ _ => trivial

theorem awaiting_unfailing {I : Work E → Prop} : Unfailing I Injected awaiting := by
  intro c w _
  unfold Retrieval.awaiting
  cases h : c.interrupt w.statements with
  | none => exact .inl ⟨_, _, rfl⟩
  | some what => exact .inr ⟨_, ⟨w.statements, what, h, rfl⟩, by simp only [h]⟩

/-- A statement whose time does not matter. -/
theorem Exact.read {α : Type} {f : E.Clock → SearchM E α} (hf : ∀ n n', f n = f n')
    (ht : ∀ n, Transparent (Exact E db r.scopeKey now) Injected (f n)) :
    Transparent (Exact E db r.scopeKey now) Injected (Retrieval.awaiting >>= f) :=
  awaiting_unfailing.then_transparent Exact.awaiting hf fun n _ => ht n

theorem Exact.read_pure {α : Type} {f : E.Clock → α} (hf : ∀ n n', f n = f n') :
    Transparent (Exact E db r.scopeKey now) Injected (Retrieval.awaiting >>= fun n => Pure.pure (f n)) :=
  Exact.read (fun n n' => by rw [hf n n']) fun _ => Transparent.pure _

theorem Exact.awaited {α : Type} (x : Except SearchError α) :
    Transparent (Exact E db r.scopeKey now) Injected (Retrieval.awaited x) := by
  refine Exact.read (fun _ _ => rfl) fun _ => ?_
  cases x with
  | ok a => exact Transparent.pure a
  | error e => exact Transparent.raise e

theorem Exact.read_unfailing {α : Type} {f : E.Clock → α} :
    Unfailing (Exact E db r.scopeKey now) Injected (Retrieval.awaiting >>= fun n => Pure.pure (f n)) :=
  awaiting_unfailing.bind Exact.awaiting fun _ _ => Unfailing.pure _

/-! ## The scope data -/

theorem resolveIdInTx_transparent (e : String) :
    Transparent (Exact E db r.scopeKey now) Injected (resolveIdInTx db r e) := by
  refine Exact.read (fun _ _ => rfl) fun _ => ?_
  cases db.catalog.lookup ⟨r.tenantId, .dataset, e⟩ with
  | some row => exact Transparent.pure _
  | none => exact Transparent.raise _

theorem resolveIdInTx_unfailing {e : String} (h : (db.physicalDataset r.tenantId e).isSome) :
    Unfailing (Exact E db r.scopeKey now) Injected (resolveIdInTx db r e) := by
  refine awaiting_unfailing.bind Exact.awaiting fun _ _ => ?_
  unfold Snapshot.physicalDataset at h
  cases hl : db.catalog.lookup ⟨r.tenantId, .dataset, e⟩ with
  | some row => exact Unfailing.pure _
  | none => rw [hl] at h; cases h

theorem resolve_ensures (e : String) : Ensures (fun _ => True) (Exact E db r.scopeKey now) (resolveIdInTx db r e)
    fun p => db.physicalDataset r.tenantId e = some p :=
  Exact.ensures fun _ _ => resolveIdInTx_ensures e

theorem scopeDatasets_transparent :
    Transparent (Exact E db r.scopeKey now) Injected (scopeDatasets db r) := by
  have hloop : Ensures (fun _ => True) (Exact E db r.scopeKey now) (forEach (resolveIdInTx db r) r.datasetIds)
      (List.Forall₂ (fun e p => db.physicalDataset r.tenantId e = some p) r.datasetIds) :=
    Ensures.forEach fun e _ => resolve_ensures e
  refine Transparent.memo (v := db.datasetsOf r.scopeKey) ?_ ?_
  · refine Transparent.bind ?_ hloop fun ids _ => Transparent.pure _
    exact Transparent.forEach (fun e _ => resolveIdInTx_transparent e) fun e _ => resolve_ensures e
  · rintro w v ⟨name, base, hw⟩ hv
    obtain ⟨rfl, hall⟩ := hw.holds.datasets v hv
    refine ⟨rfl, ?_, hloop.bind fun ids hids => Ensures.pure (datasetsOf_resolved hids).1⟩
    refine Unfailing.bind ?_ hloop fun ids _ => Unfailing.pure _
    exact Unfailing.forEach (fun e he => resolveIdInTx_unfailing (hall e (mem_sortedSet.2 he)))
      fun e _ => resolve_ensures e

theorem scopeArtifactRows_transparent :
    Transparent (Exact E db r.scopeKey now) Injected (scopeArtifactRows db r (db.datasetsOf r.scopeKey)) := by
  refine Unfailing.transparent Exact.read_unfailing.memo (Exact.ensures fun _ _ => scopeArtifactRows_ensures) ?_
  rintro a b rfl rfl
  rfl

theorem scopeAssertionRows_transparent (h : TimeFree E db r.scopeKey) :
    Transparent (Exact E db r.scopeKey now) Injected (scopeAssertionRows db r (db.datasetsOf r.scopeKey)) := by
  refine Unfailing.transparent Exact.read_unfailing.memo
    (Exact.ensures fun _ _ => scopeAssertionRows_ensures (exactTyping_rows now h)) ?_
  rintro a b rfl rfl
  rfl

theorem queryInScope_unfailing {datasets : List String} :
    Unfailing (Exact E db r.scopeKey now) Injected (queryInScope db r datasets) :=
  Exact.read_unfailing

theorem queryInScope_ensures {datasets : List String} :
    Ensures (fun _ => True) (Exact E db r.scopeKey now) (queryInScope db r datasets) fun _ => True :=
  Exact.awaiting.bind fun _ _ => Ensures.pure trivial

theorem degradedLane_unfailing {datasets : List String} (lane : Ledger.Lane × Bool) :
    Unfailing (Exact E db r.scopeKey now) Injected (degradedLane db r datasets lane) := by
  unfold degradedLane
  split
  · exact queryInScope_unfailing.bind queryInScope_ensures fun _ _ => Unfailing.pure _
  · exact Unfailing.pure _

theorem certify_transparent {datasets : List String} :
    Transparent (Exact E db r.scopeKey now) Injected (certify rt db r datasets) := by
  refine Unfailing.transparent ?_ (Exact.ensures fun _ _ => certify_ensures) fun _ _ _ _ => rfl
  have hlane : ∀ lane, Ensures (fun _ => True) (Exact E db r.scopeKey now) (degradedLane db r datasets lane)
      fun _ => True := fun lane => Exact.ensures fun _ _ => degradedLane_ensures lane
  unfold certify
  split
  · refine Unfailing.bind ?_ (Exact.ensures fun _ _ => scopeDegradedSources_ensures) fun _ _ => ?_
    · refine Unfailing.memo (Unfailing.bind ?_ (Ensures.forEach fun lane _ => hlane lane) fun _ _ => Unfailing.pure _)
      exact Unfailing.forEach (fun lane _ => degradedLane_unfailing lane) fun lane _ => hlane lane
    refine Unfailing.bind ?_ (Exact.ensures fun _ _ => scopeAuditRows_ensures) fun _ _ => ?_
    · exact Unfailing.memo (queryInScope_unfailing.bind queryInScope_ensures fun _ _ => Unfailing.pure _)
    exact Unfailing.bind (Unfailing.memo (Unfailing.pure _)) (Exact.ensures fun _ _ => scopeAuditDecisions_ensures)
      fun _ _ => Unfailing.modify _
  · exact Unfailing.pure _

/-! ## The legal query -/

section Legal

variable {rows : List AssertionRow} {ctx : LegalContext}

theorem legalContext_ensures (h : TimeFree E db r.scopeKey) (hrows : rows = exactRows E db r.scopeKey now) :
    Ensures (fun _ => True) (Exact E db r.scopeKey now) (scopeLegalContext db r rows)
      (· = exactContext E db r.scopeKey now) :=
  Exact.ensures fun _ _ => scopeLegalContext_ensures (exactTyping_admits now h) hrows

theorem legalResolver_ensures (h : TimeFree E db r.scopeKey) (hctx : ctx = exactContext E db r.scopeKey now) :
    Ensures (fun _ => True) (Exact E db r.scopeKey now) (scopeLegalResolver ctx)
      (· = exactResolver E db r.scopeKey now) :=
  Exact.ensures fun _ _ => scopeLegalResolver_ensures (exactTyping_admits now h) hctx

theorem scopeLegalContext_transparent (h : TimeFree E db r.scopeKey) (hrows : rows = exactRows E db r.scopeKey now) :
    Transparent (Exact E db r.scopeKey now) Injected (scopeLegalContext db r rows) := by
  refine Unfailing.transparent (Unfailing.memo ?_) (legalContext_ensures h hrows) ?_
  · refine Unfailing.bind (Unfailing.forEach (S := fun _ _ => True) (fun _ _ => Exact.read_unfailing) fun _ _ => ?_)
      (Ensures.forEach (S := fun _ _ => True) fun _ _ => ?_) fun _ _ => Unfailing.pure _
    · exact Exact.awaiting.bind fun _ _ => Ensures.pure trivial
    · exact Exact.awaiting.bind fun _ _ => Ensures.pure trivial
  · rintro a b rfl rfl
    rfl

theorem scopeLegalResolver_transparent (h : TimeFree E db r.scopeKey) (hctx : ctx = exactContext E db r.scopeKey now) :
    Transparent (Exact E db r.scopeKey now) Injected (scopeLegalResolver ctx) := by
  refine Unfailing.transparent Exact.read_unfailing.memo (legalResolver_ensures h hctx) ?_
  rintro a b rfl rfl
  rfl

theorem decisionQuery_transparent :
    Transparent (Exact E db r.scopeKey now) Injected (decisionQuery r ctx) := by
  unfold decisionQuery
  split
  · exact Transparent.pure _
  · exact Exact.awaited _

theorem legalQuery_transparent (h : TimeFree E db r.scopeKey) (hrows : rows = exactRows E db r.scopeKey now) :
    Transparent (Exact E db r.scopeKey now) Injected (legalQuery rt db r rows) := by
  unfold legalQuery
  split
  · refine Transparent.bind (scopeLegalContext_transparent h hrows) (legalContext_ensures h hrows) fun ctx hctx => ?_
    refine Transparent.bind (scopeLegalResolver_transparent h hctx) (legalResolver_ensures h hctx) fun resolver _ => ?_
    refine Transparent.bind (Exact.awaited _) (Exact.ensures fun _ _ => Within.awaited) fun citations _ => ?_
    exact Transparent.bind decisionQuery_transparent (Exact.ensures fun _ _ => decisionQuery_ensures ctx)
      fun refs _ => Transparent.pure _
  · exact Transparent.pure _

end Legal

theorem typedLegalCandidates_transparent (h : TimeFree E db r.scopeKey) {lq : LegalQuery E} :
    Transparent (Exact E db r.scopeKey now) Injected (typedLegalCandidates db r (db.datasetsOf r.scopeKey) lq) := by
  refine Transparent.bind ?_ (Exact.ensures fun _ _ => typedQuery_ensures) fun _ _ => Transparent.pure _
  unfold typedQuery
  split
  · exact Transparent.pure _
  · exact Exact.read_pure fun n n' => h.typedLegalCandidates n n' _ _

/-! ## The vector lane -/

theorem Tidy.exact {α : Type} {m : SearchM E α} (h : Tidy m) :
    Ensures (fun _ => True) (Exact E db r.scopeKey now) m fun _ => True := by
  intro c w a t _ ⟨name, base, hw⟩ hr
  obtain ⟨n, hn⟩ := h c w
  rw [hr] at hn
  dsimp only at hn
  subst hn
  exact ⟨⟨name, base, hw.holds, hw.table, hw.others⟩, trivial⟩

theorem vectorHits_transparent {vec : VectorEngine E.Float E.Vector} {allowed : List String} :
    Transparent (Exact E db r.scopeKey now) Injected (vectorHits rt r vec allowed) := by
  unfold vectorHits
  refine Transparent.bind ?_ searchableVectors_tidy.exact fun searchable _ => ?_
  · unfold searchableVectors
    split
    · exact Transparent.bind (Exact.awaited _) (Tidy.awaited _).exact fun _ _ => Transparent.pure _
    · exact Transparent.pure _
  · split
    · exact Transparent.pure _
    · split
      · exact Transparent.raise _
      · exact Transparent.raise _
      · exact Exact.awaited _

theorem rankVectorHits_transparent {vids eids : List String} {rows : List AssertionRow}
    {hits : List (VectorHit E.Float)} :
    Transparent (Exact E db r.scopeKey now) Injected (rankVectorHits db vids eids rows hits) := by
  unfold rankVectorHits
  dsimp only
  split
  · exact Transparent.pure _
  · exact Exact.read_pure fun _ _ => rfl

/-- The outcome of `unlessDisabled` from that of its body. -/
def emptyIfDisabled {Float : Type} : Except SearchError (VectorLane Float) → Except SearchError (VectorLane Float)
  | .error (.semanticRuntimeDisabled _) => .ok ⟨[], [], []⟩
  | out => out

theorem unlessDisabled_outcome (m : SearchM E (VectorLane E.Float)) (c : Context E) (w : Work E) :
    (unlessDisabled m c w).1 = emptyIfDisabled (m c w).1 := by
  rcases hr : m c w with ⟨out, t⟩
  simp only [unlessDisabled, hr]
  cases out with
  | ok v => rfl
  | error e => cases e <;> rfl

theorem unlessDisabled_transparent {I : Work E → Prop} {m : SearchM E (VectorLane E.Float)}
    (h : Transparent I Injected m) : Transparent I Injected (unlessDisabled m) := by
  have hpass : ∀ {c w}, Interrupted Injected m c w → Interrupted Injected (unlessDisabled m) c w := by
    rintro c w ⟨e, ⟨n, what, hn, rfl⟩, he⟩
    exact ⟨_, ⟨n, what, hn, rfl⟩, by rw [unlessDisabled_outcome, he]; rfl⟩
  intro c w c' w' hw hw'
  rcases h c w c' w' hw hw' with heq | hi | hi
  · exact .inl (by rw [unlessDisabled_outcome, unlessDisabled_outcome, heq])
  · exact .inr (.inl (hpass hi))
  · exact .inr (.inr (hpass hi))

theorem vectorLane_transparent {vids eids : List String} {rows : List AssertionRow} :
    Transparent (Exact E db r.scopeKey now) Injected (vectorLane rt db r vids eids rows) := by
  unfold vectorLane
  split
  · exact unlessDisabled_transparent (Transparent.bind vectorHits_transparent vectorHits_tidy.exact
      fun _ _ => rankVectorHits_transparent)
  · exact Transparent.pure _

/-! ## Passages -/

theorem createScopedFts_unfailing :
    Unfailing (fun w => tableContent w.temp w.scope.ftsTable = none) Injected (createScopedFts (E := E)) := by
  intro c w hnone
  rcases awaiting_unfailing (I := fun _ => True) c w trivial with ⟨n, t, hr⟩ | h
  · obtain ⟨rfl, -⟩ := awaiting_ok hr
    refine .inl ⟨(), _, (bind_ok hr).trans (if_neg fun hany => ?_)⟩
    obtain ⟨x, hx, hname⟩ := List.any_eq_true.1 hany
    unfold tableContent at hnone
    rw [Option.map_eq_none_iff, List.find?_eq_none] at hnone
    exact hnone x hx hname
  · exact .inr h.bind

theorem buildScopedFts_unfailing {datasets : List String} :
    Unfailing (Exact E db r.scopeKey now) Injected (buildScopedFts db r datasets) := by
  refine Unfailing.memo_of_empty fun c w ⟨⟨name, base, hw⟩, hempty⟩ => ?_
  have hnone : tableContent w.temp w.scope.ftsTable = none := by
    refine hw.holds.unbuilt ?_
    cases hb : w.scope.ftsBuilt with
    | true => simp only [ftsBuiltSlot, hb, if_true] at hempty; cases hempty
    | false => rfl
  rcases createScopedFts_unfailing c w hnone with ⟨_, t, hcreate⟩ | h
  · rcases awaiting_unfailing (I := fun _ => True) c t trivial with ⟨n, u, hr⟩ | h
    · exact .inl ⟨_, _, (bind_ok hcreate).trans (bind_ok hr)⟩
    · exact .inr (Interrupted.bind_rest hcreate h.bind)
  · exact .inr h.bind

/-- A running search whose scoped index is built. -/
def Indexed (E : SearchEnv) (db : Snapshot) (k : ScopeKey) (now : E.Clock) (w : Work E) : Prop :=
  Exact E db k now w ∧ w.scope.ftsBuilt = true

theorem buildScopedFts_indexed (h : TimeFree E db r.scopeKey) {c : Context E} {w t : Work E} {u : Unit}
    (hw : Exact E db r.scopeKey now w)
    (hr : buildScopedFts db r (db.datasetsOf r.scopeKey) c w = (.ok u, t)) : Indexed E db r.scopeKey now t := by
  refine ⟨((Exact.ensures fun _ _ => buildScopedFts_ensures (exactTyping_admits now h)) c w u t trivial hw hr).1, ?_⟩
  simp only [buildScopedFts, Slot.memo, Prog.memo, ftsBuiltSlot] at hr
  cases hb : w.scope.ftsBuilt with
  | true => rw [hb] at hr; cases hr; exact hb
  | false =>
    rw [hb] at hr
    obtain ⟨_, v, -, hset⟩ :=
      bind_returns (f := fun a _ (t : Work E) => (.ok a, { t with scope := { t.scope with ftsBuilt := true } })) hr
    cases hset
    rfl

theorem Indexed.awaiting : Ensures (fun _ => True) (Indexed E db r.scopeKey now) awaiting fun _ => True := by
  intro c w n t _ hw hr
  refine ⟨⟨(Exact.awaiting c w n t trivial hw.1 hr).1, ?_⟩, trivial⟩
  obtain ⟨rfl, -⟩ := awaiting_ok hr
  exact hw.2

theorem scopedCorpus_transparent : Transparent (Indexed E db r.scopeKey now) Injected (scopedCorpus (E := E)) := by
  have hcorpus : ∀ c w, Indexed E db r.scopeKey now w →
      scopedCorpus c w = (.ok (db.scopedIndex E r.scopeKey (db.datasetsOf r.scopeKey) now), w) := by
    rintro c w ⟨⟨name, base, hw⟩, hbuilt⟩
    obtain ⟨v, hv, rfl⟩ := hw.holds.built hbuilt
    obtain ⟨x, hx, hx₂⟩ := Option.map_eq_some_iff.1 hv
    unfold scopedCorpus
    rw [hx]
    dsimp only
    rw [hx₂]
  intro c w c' w' hw hw'
  exact .inl (by rw [hcorpus c w hw, hcorpus c' w' hw'])

theorem typedPassage_transparent {rows : List AssertionRow} (i : String) :
    Transparent (fun _ => True) Injected (typedPassage (E := E) rows i) := by
  unfold typedPassage
  split
  · exact Transparent.pure _
  · exact Transparent.raise _

theorem passageCandidates_transparent (h : TimeFree E db r.scopeKey) {rows : List AssertionRow} {tokens : QueryTokens}
    {typed : List String} : Transparent (Exact E db r.scopeKey now) Injected
      (passageCandidates db r (db.datasetsOf r.scopeKey) rows tokens typed) := by
  unfold passageCandidates
  split
  · exact Transparent.pure _
  · have hbuild : Transparent (Exact E db r.scopeKey now) Injected
        (buildScopedFts db r (db.datasetsOf r.scopeKey)) :=
      buildScopedFts_unfailing.transparent
        (Exact.ensures fun _ _ => buildScopedFts_ensures (exactTyping_admits now h)) fun _ _ _ _ => rfl
    refine hbuild.bind_of (Q := fun _ => True) (fun c w u t hw hr => ⟨buildScopedFts_indexed h hw hr, trivial⟩)
      fun _ _ => ?_
    refine awaiting_unfailing.then_transparent Indexed.awaiting ?_ fun n _ => ?_
    · intro n n'
      simp only [h.passages n n']
    refine scopedCorpus_transparent.bind_of (J := fun _ => True) (Q := fun _ => True)
      (fun _ _ _ _ _ _ => ⟨trivial, trivial⟩) fun corpus _ => ?_
    refine Transparent.bind_of (J := fun _ => True) (Q := fun _ => True) ?_
      (fun _ _ _ _ _ _ => ⟨trivial, trivial⟩) fun _ _ => Transparent.pure _
    refine Transparent.forEach (S := fun _ _ => True) (fun i _ => typedPassage_transparent i) fun i _ => ?_
    exact fun _ _ _ _ _ _ _ => ⟨trivial, trivial⟩

/-! ## Scoring -/

section Scoring

variable {lq : LegalQuery E} {p : PassageRow E.Float}

theorem extract_unfailing {text : String} :
    Unfailing (Exact E db r.scopeKey now) Injected (lq.extract text) := by
  refine awaiting_unfailing.bind Exact.awaiting fun _ _ => ?_
  cases lq.resolver with
  | some l => exact Unfailing.pure _
  | none => exact Unfailing.pure _

theorem rowCitations_transparent {slot : Slot E (List Citation)} {text : String}
    (h : lq.citations ≠ [] → Transparent (Exact E db r.scopeKey now) Injected (slot.memo (lq.extract text))) :
    Transparent (Exact E db r.scopeKey now) Injected (rowCitations lq p slot text) := by
  unfold rowCitations
  split
  · exact Transparent.pure _
  · next hne =>
    refine h ?_
    intro hnil
    rw [hnil] at hne
    exact hne rfl

theorem scorePassage_transparent (h : TimeFree E db r.scopeKey) (hlq : lq.Ok (exactTyping E db r.scopeKey now))
    {tokens : List String} (hp : p.row ∈ db.assertions.rows) :
    Transparent (Exact E db r.scopeKey now) Injected (scorePassage lq tokens p) := by
  have hT := exactTyping_admits now h
  refine Transparent.bind ?_ (Exact.ensures fun _ _ => passageText_ensures hT hp) fun text htext => ?_
  · refine Unfailing.transparent (Unfailing.memo (Unfailing.pure _))
      (Exact.ensures fun _ _ => passageText_ensures hT hp) fun v w hv hw => feature_unique ?_ hv hw
    intro p q h₁ h₂ h₃
    simp only [passageRawText, h₁, h₂, h₃]
  refine Transparent.bind (rowCitations_transparent fun hne => ?_)
    (Exact.ensures fun _ _ => rowCitations_ensures fun hne => passageCitations_ensures hT hlq hne hp htext)
    fun cites _ => Exact.read_pure fun _ _ => rfl
  refine Unfailing.transparent (Unfailing.memo extract_unfailing)
    (Exact.ensures fun _ _ => passageCitations_ensures hT hlq hne hp htext) fun v w hv hw => feature_unique ?_ hv hw
  intro p q h₁ h₂ h₃
  simp only [passageRawText, h₁, h₂, h₃]

theorem scoreAssertion_transparent (h : TimeFree E db r.scopeKey) (hlq : lq.Ok (exactTyping E db r.scopeKey now))
    {tokens : List String} (hp : p.row ∈ db.assertions.rows) :
    Transparent (Exact E db r.scopeKey now) Injected (scoreAssertion r lq tokens p) := by
  have hT := exactTyping_admits now h
  refine Transparent.bind ?_ (Exact.ensures fun _ _ => assertionText_ensures hT hp) fun text htext => ?_
  · refine Unfailing.transparent (Unfailing.memo (Unfailing.pure _))
      (Exact.ensures fun _ _ => assertionText_ensures hT hp) fun v w hv hw => feature_unique ?_ hv hw
    intro p q h₁ h₂ h₃
    simp only [assertionText, h₁, h₂, h₃]
  refine Transparent.bind (rowCitations_transparent fun hne => ?_)
    (Exact.ensures fun _ _ => rowCitations_ensures fun hne => assertionCitations_ensures hT hlq hne hp)
    fun cites _ => Exact.read_pure fun _ _ => rfl
  refine Unfailing.transparent (Unfailing.memo extract_unfailing)
    (Exact.ensures fun _ _ => assertionCitations_ensures hT hlq hne hp) fun v w hv hw => feature_unique ?_ hv hw
  intro p q h₁ h₂ h₃
  simp only [assertionRawText, h₁, h₂, h₃]

variable {tokens : QueryTokens} {allowed : List String} {passages : List (PassageRow E.Float)}

theorem lexicalLane_transparent (h : TimeFree E db r.scopeKey) (hlq : lq.Ok (exactTyping E db r.scopeKey now))
    (hp : PassagesOk (fun _ => True) db r.scopeKey passages) :
    Transparent (Exact E db r.scopeKey now) Injected (lexicalLane lq tokens allowed passages) := by
  have hT := exactTyping_admits now h
  have hloop : ∀ p ∈ passages, Ensures (fun _ => True) (Exact E db r.scopeKey now)
      (scorePassage lq (tokens.content.take 64) p) fun x => x.2 = p :=
    fun p hpm => Exact.ensures fun _ _ => scorePassage_ensures hT hlq (hp p hpm).1
  refine Transparent.bind ?_ (Ensures.forEach hloop) fun _ _ => Transparent.pure _
  exact Transparent.forEach (fun p hpm => scorePassage_transparent h hlq (hp p hpm).1) hloop

theorem assertionLane_transparent (h : TimeFree E db r.scopeKey) (hlq : lq.Ok (exactTyping E db r.scopeKey now))
    (hp : PassagesOk (fun _ => True) db r.scopeKey passages) :
    Transparent (Exact E db r.scopeKey now) Injected (assertionLane r lq tokens allowed passages) := by
  have hT := exactTyping_admits now h
  have hstored : ∀ p ∈ passages.filter fun p => decide (p.row.subjectId ∈ allowed), p.row ∈ db.assertions.rows :=
    fun p hpm => (hp p (List.mem_filter.1 hpm).1).1
  have hloop : ∀ p ∈ passages.filter fun p => decide (p.row.subjectId ∈ allowed),
      Ensures (fun _ => True) (Exact E db r.scopeKey now) (scoreAssertion r lq (tokens.contentOrRaw.take 64) p)
        fun x => x.2 = p :=
    fun p hpm => Exact.ensures fun _ _ => scoreAssertion_ensures hT hlq (hstored p hpm)
  refine Transparent.bind ?_ (Ensures.forEach hloop) fun _ _ => Transparent.pure _
  exact Transparent.forEach (fun p hpm => scoreAssertion_transparent h hlq (hstored p hpm)) hloop

theorem entityLane_transparent {datasets : List String} :
    Transparent (Exact E db r.scopeKey now) Injected (entityLane db r datasets tokens allowed) := by
  unfold entityLane
  split
  · exact Transparent.pure _
  · exact Exact.read_pure fun _ _ => rfl

end Scoring

/-! ## The graph lane -/

section Graph

variable {lq : LegalQuery E} {allowed : List String} {vector : VectorLane E.Float}
  {lexical : List (PassageRow E.Float)} {hits : List String}

theorem citedSeeds_transparent : Transparent (Exact E db r.scopeKey now) Injected (citedSeeds db r lq allowed) := by
  unfold citedSeeds
  split
  · exact Transparent.pure _
  · exact Exact.read_pure fun _ _ => rfl

theorem namedSeeds_transparent {cited : List (String × E.Float)} :
    Transparent (Exact E db r.scopeKey now) Injected (namedSeeds db r allowed cited) := by
  unfold namedSeeds
  split
  · exact Transparent.pure _
  · exact Exact.read_pure fun _ _ => rfl

theorem seedScores_transparent :
    Transparent (Exact E db r.scopeKey now) Injected (seedScores db r lq allowed vector lexical hits) := by
  refine Transparent.bind citedSeeds_transparent (Exact.ensures fun _ _ => citedSeeds_ensures) fun cited _ => ?_
  exact Transparent.bind namedSeeds_transparent (Exact.ensures fun _ _ => namedSeeds_ensures)
    fun named _ => Transparent.pure _

theorem graphLane_transparent {rows : List AssertionRow} :
    Transparent (Exact E db r.scopeKey now) Injected (graphLane rt db r lq rows allowed vector lexical hits) := by
  unfold graphLane
  split
  · refine Transparent.bind seedScores_transparent (Exact.ensures fun _ _ => seedScores_ensures) fun scores _ => ?_
    split
    · exact Transparent.pure _
    · split
      · exact Transparent.bind (Exact.awaited _) (Tidy.awaited _).exact fun _ _ => Transparent.pure _
      · exact Transparent.raise _
  · exact Transparent.pure _

end Graph

theorem retrieveLanes_transparent (h : TimeFree E db r.scopeKey) {rows : List AssertionRow}
    (hrows : rows = exactRows E db r.scopeKey now) {lq : LegalQuery E} (hlq : lq.Ok (exactTyping E db r.scopeKey now))
    {typed : List String} : Transparent (Exact E db r.scopeKey now) Injected
      (retrieveLanes rt db r (db.datasetsOf r.scopeKey)
        (db.scopeArtifacts r.scopeKey (db.datasetsOf r.scopeKey)) rows lq typed) := by
  have hT := exactTyping_admits now h
  have hauth := hT.authorised rows hrows
  refine Transparent.bind vectorLane_transparent
    (Exact.ensures fun _ _ => vectorLane_ensures hauth allowedVectors_mem) fun vector _ => ?_
  refine Transparent.bind (passageCandidates_transparent h)
    (Exact.ensures fun _ _ => passageCandidates_ensures hT hauth) fun passages hpassages => ?_
  refine Transparent.bind (lexicalLane_transparent h hlq hpassages)
    (Exact.ensures fun _ _ => lexicalLane_ensures hT hlq hpassages) fun lexical _ => ?_
  refine Transparent.bind entityLane_transparent (Exact.ensures fun _ _ => entityLane_ensures) fun hits _ => ?_
  refine Transparent.bind (assertionLane_transparent h hlq hpassages)
    (Exact.ensures fun _ _ => assertionLane_ensures hT hlq hpassages) fun ranked _ => ?_
  exact Transparent.bind graphLane_transparent
    (Exact.ensures fun _ _ => graphLane_ensures hauth allowedEntities_ne_none) fun graph _ => Transparent.pure _

/-! ## Results -/

theorem candidateNames_transparent {ids : List String} :
    Transparent (Exact E db r.scopeKey now) Injected (candidateNames (E := E) db r ids) := by
  unfold candidateNames
  split
  · exact Transparent.pure _
  · exact Exact.read_pure fun _ _ => rfl

theorem weighCandidate_transparent (h : TimeFree E db r.scopeKey) {lq : LegalQuery E}
    (hlq : lq.Ok (exactTyping E db r.scopeKey now)) {names : List (String × String)} {c : Candidate E.Float} :
    Transparent (Exact E db r.scopeKey now) Injected (weighCandidate lq names c) := by
  have hT := exactTyping_admits now h
  unfold weighCandidate
  split
  · exact Transparent.pure _
  · next hne =>
    split
    · exact Transparent.pure _
    · have hcites : lq.citations ≠ [] := by
        intro hnil
        rw [hnil] at hne
        exact hne rfl
      refine Transparent.bind ?_ (Exact.ensures fun _ _ => candidateCitations_ensures hT hlq hcites)
        fun cites _ => Transparent.pure _
      refine Unfailing.transparent (Unfailing.memo extract_unfailing)
        (Exact.ensures fun _ _ => candidateCitations_ensures hT hlq hcites) ?_
      rintro v w rfl rfl
      rfl

theorem neededEntities_transparent {needed : List String} :
    Transparent (Exact E db r.scopeKey now) Injected (neededEntities (E := E) db r needed) := by
  unfold neededEntities
  split
  · exact Transparent.pure _
  · exact Exact.read_pure fun _ _ => rfl

theorem assemble_transparent {x : LaneResults E} {allowed : List String} {names : List (String × String)}
    {ordered : List (Candidate E.Float)} :
    Transparent (Exact E db r.scopeKey now) Injected (assemble rt db r x allowed names ordered) := by
  refine Transparent.bind neededEntities_transparent (Exact.ensures fun _ _ => neededEntities_ensures)
    fun entities _ => ?_
  refine Exact.read (fun _ _ => rfl) fun _ => ?_
  refine Unfailing.then_transparent (Q := fun _ => True) (Unfailing.forEach (S := fun _ _ => True)
    (fun _ _ => awaiting_unfailing) fun _ _ => Exact.awaiting) ?_ (fun _ _ => rfl) fun _ _ => Transparent.pure _
  exact (Ensures.forEach fun _ _ => Exact.awaiting).mono fun _ _ => trivial

theorem fuse_transparent (h : TimeFree E db r.scopeKey) {allowed : List String} {x : LaneResults E}
    (hlq : x.legal.Ok (exactTyping E db r.scopeKey now)) :
    Transparent (Exact E db r.scopeKey now) Injected (fuse rt db r allowed x) := by
  have hT := exactTyping_admits now h
  unfold fuse
  split
  · exact Transparent.raise _
  · dsimp only
    split
    · exact Transparent.pure _
    · refine Transparent.bind candidateNames_transparent (Exact.ensures fun _ _ => candidateNames_ensures)
        fun names _ => ?_
      have hround : ∀ c, Ensures (fun _ => True) (Exact E db r.scopeKey now) (weighCandidate x.legal names c)
          fun d => ∃ factor, d = { c with legalFactor := factor } :=
        fun c => Exact.ensures fun _ _ => weighCandidate_ensures hT hlq
      refine Transparent.bind ?_ (Ensures.forEach fun c _ => hround c) fun _ _ => assemble_transparent
      exact Transparent.forEach (fun c _ => weighCandidate_transparent h hlq) fun c _ => hround c

/-- The outcome of a search does not depend on its scope document, as long as that holds exact values. -/
theorem search_transparent (h : TimeFree E db r.scopeKey) :
    Transparent (Exact E db r.scopeKey now) Injected (searchV4MemoryUncached rt db r) := by
  have hT := exactTyping_admits now h
  unfold searchV4MemoryUncached
  split
  · refine Transparent.bind scopeDatasets_transparent (Exact.ensures fun _ _ => scopeDatasets_ensures)
      fun datasets hd => ?_
    obtain ⟨rfl, -⟩ := hd
    refine Transparent.bind scopeArtifactRows_transparent (Exact.ensures fun _ _ => scopeArtifactRows_ensures)
      fun artifacts ha => ?_
    subst ha
    refine Transparent.bind (scopeAssertionRows_transparent h)
      (Exact.ensures fun _ _ => scopeAssertionRows_ensures (exactTyping_rows now h)) fun rows hrows => ?_
    refine Transparent.bind certify_transparent (Exact.ensures fun _ _ => certify_ensures) fun _ _ => ?_
    refine Transparent.bind (legalQuery_transparent h hrows)
      (Exact.ensures fun _ _ => legalQuery_ensures hT hrows) fun lq hlq => ?_
    refine Transparent.bind (typedLegalCandidates_transparent h)
      (Exact.ensures fun _ _ => typedLegalCandidates_ensures) fun typed _ => ?_
    split
    · exact Transparent.pure _
    · exact Transparent.bind (retrieveLanes_transparent h hrows hlq)
        (Exact.ensures fun _ _ => retrieveLanes_ensures hT hrows hlq) fun x hx => fuse_transparent h hx.2
  · exact Transparent.raise _

end Stages

end Mesa.Retrieval
