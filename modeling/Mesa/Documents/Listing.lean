/-
The revisions of a document as the catalog lists them, under the identifiers their callers gave them. The listing has
at most one ACTIVE revision, and a document that is known stays known.
-/
import Mesa.Documents.Ingestion
import Mesa.Ledger.ExactlyOnce

namespace Mesa.Documents

open Mesa.Foundation Mesa.Ledger

/-- What a caller reads of a listed revision. -/
structure ListedRevision where
  /-- The external identifier. -/
  revisionId : String
  revisionNumber : Nat
  status : RevisionStatus
  deriving DecidableEq

/-- The external identifiers of a physical id. -/
def externalIds (identities : Table CatalogIdentity) (tenantId : String) (kind : CatalogKind) (physicalId : String) :
    List String :=
  (identities.select fun x => x.key.tenantId = tenantId && x.key.kind = kind && x.physicalId = physicalId).map
    (·.key.externalId)

/-- `list_v4_revisions`: the revisions of one document, joined with the identities of both. -/
def listV4Revisions (s : Intake) (tenantId datasetId documentId : String) :
    Except IntakeError (List ListedRevision) := do
  let dataset ← resolveId s.identities ⟨tenantId, .dataset, datasetId⟩
  let document ← resolveId s.identities ⟨tenantId, .document, documentId⟩
  let rows := (s.db.core.revisions.select fun r => r.tenantId = tenantId && r.documentId = document &&
    (s.db.core.documents.lookup r.documentId).any fun d => d.datasetId = dataset).insertionSort revisionLe
  pure (rows.flatMap fun r =>
    (externalIds s.identities r.tenantId .revision r.revisionId).flatMap fun revision =>
      (externalIds s.identities r.tenantId .document r.documentId).map fun _ =>
        ⟨revision, r.revisionNumber, r.status⟩)

theorem listV4Revisions_ok {s : Intake} {tenantId datasetId documentId dataset document : String}
    (hd : resolveId s.identities ⟨tenantId, .dataset, datasetId⟩ = .ok dataset)
    (hi : resolveId s.identities ⟨tenantId, .document, documentId⟩ = .ok document) :
    ∃ l, listV4Revisions s tenantId datasetId documentId = .ok l :=
  ⟨_, bind_eq_ok.2 ⟨dataset, hd, bind_eq_ok.2 ⟨document, hi, rfl⟩⟩⟩

/-- Every entry of a listing is a row of the document under one of its identifiers. -/
theorem mem_listV4Revisions {s : Intake} {tenantId datasetId documentId : String} {l : List ListedRevision}
    (h : listV4Revisions s tenantId datasetId documentId = .ok l) {x : ListedRevision} (hx : x ∈ l) :
    ∃ document r, resolveId s.identities ⟨tenantId, .document, documentId⟩ = .ok document ∧
      r ∈ s.db.core.revisions.rows ∧ r.documentId = document ∧
      x.revisionId ∈ externalIds s.identities r.tenantId .revision r.revisionId ∧ x.status = r.status ∧
      x.revisionNumber = r.revisionNumber := by
  obtain ⟨dataset, -, h⟩ := bind_eq_ok.1 h
  obtain ⟨document, hdocument, h⟩ := bind_eq_ok.1 h
  cases pure_eq_ok.1 h
  obtain ⟨r, hr, hx⟩ := List.mem_flatMap.1 hx
  obtain ⟨revision, hrevision, hx⟩ := List.mem_flatMap.1 hx
  obtain ⟨-, -, rfl⟩ := List.mem_map.1 hx
  obtain ⟨hrow, hp⟩ := Table.mem_select.1 ((List.mem_insertionSort _).1 hr)
  simp only [Bool.and_eq_true, decide_eq_true_eq] at hp
  exact ⟨document, r, hdocument, hrow, hp.1.2, hrevision, rfl, rfl⟩

/-! ## What the catalog keeps -/

/-- No two identifiers of one kind have the same physical id. -/
def UniquePhysical (identities : Table CatalogIdentity) : Prop :=
  ∀ x ∈ identities.rows, ∀ y ∈ identities.rows, x.key.kind = y.key.kind → x.physicalId = y.physicalId → x = y

theorem createId_unique {t u : Table CatalogIdentity} {key : CatalogKey} {physicalId id : String}
    (ht : UniquePhysical t) (h : createId t key physicalId = .ok (u, id)) : UniquePhysical u := by
  unfold createId at h
  split at h
  · cases h; exact ht
  · split at h
    · cases h
    · next hfree =>
      cases h
      rw [Bool.not_eq_true, Table.anyWhere_eq_false] at hfree
      have hnew : ∀ x ∈ t.rows, x.key.kind = key.kind → x.physicalId ≠ physicalId := fun x hx hkind hid => by
        have := hfree x hx
        simp [hkind, hid] at this
      intro x hx y hy hkind hid
      rcases Table.mem_insertOrIgnore.1 hx with hx | ⟨rfl, -⟩ <;>
        rcases Table.mem_insertOrIgnore.1 hy with hy | ⟨rfl, -⟩
      · exact ht x hx y hy hkind hid
      · exact absurd hid (hnew x hx hkind)
      · exact absurd hid.symm (hnew y hy hkind.symm)
      · rfl

theorem identify_unique {s s' : Intake} {q : AdmissionRequest} {datasetId : String} {a : Admission}
    (hs : UniquePhysical s.identities) (h : s.identify q datasetId = .ok (s', a)) : UniquePhysical s'.identities := by
  obtain ⟨⟨ids₁, document⟩, h₁, h⟩ := bind_eq_ok.1 h
  obtain ⟨⟨ids₂, revision⟩, h₂, h⟩ := bind_eq_ok.1 h
  obtain ⟨⟨ids₃, chunk⟩, h₃, h⟩ := bind_eq_ok.1 h
  obtain ⟨supersedes, -, h⟩ := bind_eq_ok.1 h
  split at h
  · cases h
  · cases pure_eq_ok.1 h
    exact createId_unique (createId_unique (createId_unique hs h₁) h₂) h₃

variable {env : IntakeEnv} {policy : QueueAdmissionPolicy}

theorem intake_uniquePhysical {s s' : Intake} {op : IntakeOp} (hs : UniquePhysical s.identities)
    (h : intakeTransact env policy s op = .ok s') : UniquePhysical s'.identities := by
  cases op with
  | ledger op plain =>
    obtain ⟨db, -, rfl⟩ := map_eq_ok.1 h
    exact hs
  | ensureScope t w d nw nd =>
    have h : ensureScope s t w d nw nd = .ok s' := h
    unfold ensureScope at h
    split at h
    · cases h
    · obtain ⟨⟨ids₁, workspace⟩, h₁, h⟩ := bind_eq_ok.1 h
      obtain ⟨⟨ids₂, dataset⟩, h₂, h⟩ := bind_eq_ok.1 h
      simp only at h
      split at h
      · cases pure_eq_ok.1 h
        exact createId_unique (createId_unique hs h₁) h₂
      · cases h
  | createId k p =>
    obtain ⟨⟨ids, id⟩, hr, rfl⟩ := map_eq_ok.1 h
    exact createId_unique hs hr
  | admitV4Memory q f =>
    obtain ⟨⟨s₁, outcome⟩, hq, rfl⟩ := map_eq_ok.1 h
    obtain ⟨datasetId, -, ⟨-, -, -, -, -, rfl, -⟩ |
      ⟨reserved, identified, a, admitted, r, hreserved, hidentify, hadmit, rfl, -⟩⟩ := admitV4Memory_cases hq
    · exact hs
    · have hkept : reserved.identities = s.identities := by
        unfold Intake.Reserved at hreserved
        split at hreserved
        · rw [hreserved]
        · rw [hreserved.2]
      obtain ⟨db, -, -, -, -, rfl⟩ := admit_cases hadmit
      have hids := identify_unique (by rw [hkept]; exact hs) hidentify
      unfold Intake.settle
      split <;> exact hids
  | admitRawLog a t p =>
    obtain ⟨⟨s₁, result⟩, hq, rfl⟩ := map_eq_ok.1 h
    rcases admitRawLog_cases hq with rfl | ⟨tenant, stored, logged, -, -, hlogged, rfl⟩
    · exact hs
    · rw [insertRawLog_cases hlogged]; exact hs
  | insertRawLog a p => rw [insertRawLog_cases h]; exact hs
  | dispatchRawLog a l w p =>
    rcases dispatchRawLog_cases h with rfl | ⟨log, -, -, -, rfl⟩ <;> exact hs
  | claimRawLog a l w t n =>
    obtain ⟨⟨s₁, claim⟩, hq, rfl⟩ := map_eq_ok.1 h
    rcases claimRawLog_cases hq with ⟨-, rfl, -⟩ | ⟨-, -, rfl⟩ <;> exact hs
  | transitionClaimedRawLog a l w t st =>
    obtain ⟨⟨s₁, b⟩, hq, rfl⟩ := map_eq_ok.1 h
    rcases transitionClaimedRawLog_cases hq with ⟨-, rfl, -⟩ | ⟨-, -, -, rfl⟩ <;> exact hs
  | recoverExpiredRawLogClaims => cases h; exact hs
  | recoverProcessingRawLogs => cases h; exact hs
  | completeDispatchQueue k w t o v =>
    have h : s.completeDispatchQueue k w t o v = .ok s' := h
    unfold Intake.completeDispatchQueue at h
    split at h
    · cases h
    · obtain ⟨db, -, h⟩ := bind_eq_ok.1 h
      split at h
      · cases pure_eq_ok.1 h; exact hs
      · split at h
        · cases pure_eq_ok.1 h; exact hs
        · split at h <;> cases pure_eq_ok.1 h <;> exact hs
  | replayPipelineRun r t =>
    obtain ⟨db, -, h⟩ := bind_eq_ok.1 h
    cases pure_eq_ok.1 h
    exact hs
  | purgeDocument t d i =>
    obtain ⟨db, -, h⟩ := bind_eq_ok.1 h
    cases pure_eq_ok.1 h
    exact hs

/-- What a listing needs of the catalog. -/
structure ListingInv (s : Intake) : Prop where
  physical : UniquePhysical s.identities
  head : UniqueHead s.db.core.revisions

theorem ListingInv.exec {s : Intake} (hs : ListingInv s) (op : IntakeOp) : ListingInv (intakeExec env policy s op) := by
  refine orKeep_invariant hs fun s' h => ⟨intake_uniquePhysical hs.physical h, ?_⟩
  rcases intake_core h with hsame | ⟨ledgerOp, db, hdb, hcore, -⟩
  · rw [hsame]; exact hs.head
  · rw [hcore]; exact transact_unique hdb hs.head

theorem listingInv_empty : ListingInv .empty where
  physical _ hx := by cases hx
  head _ hx := by cases hx

theorem run_listingInv {s : Intake} (hs : ListingInv s) (ops : List IntakeOp) :
    ListingInv (run (intakeExec env policy) s ops) :=
  stable_run (fun _ op ht => ht.exec op) hs

theorem mem_externalIds {identities : Table CatalogIdentity} {tenantId physicalId e : String} {kind : CatalogKind}
    (h : e ∈ externalIds identities tenantId kind physicalId) :
    ∃ x ∈ identities.rows, x.key = ⟨tenantId, kind, e⟩ ∧ x.physicalId = physicalId := by
  obtain ⟨x, hx, rfl⟩ := List.mem_map.1 h
  obtain ⟨hrow, hp⟩ := Table.mem_select.1 hx
  simp only [Bool.and_eq_true, decide_eq_true_eq] at hp
  obtain ⟨⟨rfl, rfl⟩, rfl⟩ := hp
  exact ⟨x, hrow, rfl, rfl⟩

/-- A listing has at most one ACTIVE revision. -/
theorem ListingInv.active {s : Intake} (hs : ListingInv s) {tenantId datasetId documentId : String}
    {l : List ListedRevision} (h : listV4Revisions s tenantId datasetId documentId = .ok l) :
    ∀ x ∈ l, ∀ y ∈ l, x.status = .active → y.status = .active → x = y := by
  intro x hx y hy hax hay
  obtain ⟨document, r, hd, hr, hrd, hrx, hxs, hxn⟩ := mem_listV4Revisions h hx
  obtain ⟨document', r', hd', hr', hrd', hry, hys, hyn⟩ := mem_listV4Revisions h hy
  rw [hd] at hd'
  cases hd'
  obtain rfl : r = r' := hs.head r hr r' hr' (hxs.symm.trans hax) (hys.symm.trans hay) (hrd.trans hrd'.symm)
  obtain ⟨i, hi, hik, hip⟩ := mem_externalIds hrx
  obtain ⟨j, hj, hjk, hjp⟩ := mem_externalIds hry
  obtain rfl : i = j := hs.physical i hi j hj (by rw [hik, hjk]) (hip.trans hjp.symm)
  rw [hik] at hjk
  cases x; cases y
  simp only [CatalogKey.mk.injEq, true_and] at hjk
  simp only [ListedRevision.mk.injEq] at *
  exact ⟨hjk, hxn.trans hyn.symm, hax.trans hay.symm⟩

end Mesa.Documents
