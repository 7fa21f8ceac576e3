/-
Ingestion is exact: whatever cuts attempts off, however the configuration changes between them and whatever the rest of
the system does meanwhile, the chunks of the revision are the beginning of a plan for the content, they only grow, the
revision leaves PENDING only with all of the content, and every accepted attempt answers with the ids of all chunks.
-/
import Mesa.Documents.Admitted
import Mesa.Documents.ArticleIdentity
import Mesa.Foundation.Run

namespace Mesa.Documents

open Mesa.Foundation Mesa.Ledger

variable {T : CharTables} {env : Env} {u : Upload} {s : Server} {entries : List Entry}

/-! ## Plans -/

theorem preferred_plan (T : CharTables) (u : Upload) (a : Request) : IsPlan u.content (a.preferred T u) := by
  unfold Request.preferred
  split
  · exact (chunkLegalDocument_plan T a.counter u.content).1
  · exact chunkDocument_plan T a.counter u.content

theorem alternative_plan (T : CharTables) (u : Upload) (a : Request) : IsPlan u.content (a.alternative T u) := by
  unfold Request.alternative
  split
  · exact chunkDocument_plan T a.counter u.content
  · exact (chunkLegalDocument_plan T a.counter u.content).1

/-- The plan that is chosen begins with the texts that are there. -/
theorem choosePlan_plan {a : Request} {stored chunks : List (List Char)} {legalPlan : Bool}
    (h : choosePlan a.auto (a.preferred T u) (a.alternative T u) (numberedTexts stored) = some (legalPlan, chunks)) :
    IsPlan u.content chunks ∧ stored <+: chunks := by
  unfold choosePlan at h
  split at h
  · next hnil =>
    cases h
    have hempty : stored = [] := by
      cases stored with
      | nil => rfl
      | cons chunk stored => cases hnil
    exact ⟨preferred_plan T u a, by rw [hempty]; exact List.nil_prefix⟩
  · split at h
    · cases h
    · split at h
      · next hmatch =>
        cases h
        exact ⟨preferred_plan T u a, matchesPlan_iff.1 hmatch⟩
      · split at h
        · next hmatch =>
          cases h
          exact ⟨alternative_plan T u a, matchesPlan_iff.1 hmatch⟩
        · cases h

/-- A part of a plan that is not all of it leaves content out. -/
theorem flatten_ne_of_lt {content : List Char} {stored chunks : List (List Char)} (hplan : IsPlan content chunks)
    (hbegin : stored <+: chunks) (hlt : stored.length < chunks.length) : stored.flatten ≠ content := by
  obtain ⟨rest, rfl⟩ := hbegin
  intro heq
  have hjoined := hplan.joined
  rw [List.flatten_append, heq] at hjoined
  cases rest with
  | nil =>
    rw [List.append_nil] at hlt
    exact Nat.lt_irrefl _ hlt
  | cons chunk rest =>
    have hnil := List.append_right_eq_self.1 hjoined
    rw [List.flatten_cons, List.append_eq_nil_iff] at hnil
    exact hplan.filled chunk (by simp) hnil.1

/-- What is still to admit after a number of chunks. -/
theorem pendingOrdinals_numbered {stored : List String} {chunks : List (List Char)} (hle : stored.length ≤ chunks.length) :
    pendingOrdinals chunks (numbered stored) = List.range' stored.length (chunks.length - stored.length) := by
  have hsplit : List.range chunks.length =
      List.range' 0 stored.length ++ List.range' stored.length (chunks.length - stored.length) := by
    have happend := @List.range'_append 0 stored.length (chunks.length - stored.length) 1
    rw [Nat.one_mul, Nat.zero_add, Nat.add_sub_cancel' hle] at happend
    rw [List.range_eq_range', happend]
  unfold pendingOrdinals
  rw [hsplit, List.filter_append, List.filter_eq_nil_iff.2, List.nil_append, List.filter_eq_self.2]
  · intro i hi
    rw [get_numbered, List.getElem?_eq_none (List.mem_range'_1.1 hi).1]
    rfl
  · intro i hi
    have hlt := (List.mem_range'_1.1 hi).2
    rw [get_numbered, List.getElem?_eq_getElem (by omega)]
    exact Bool.false_ne_true

/-! ## The invariant -/

/-- The stored texts are all of the content. -/
def Complete (u : Upload) (entries : List Entry) : Prop := (texts entries).flatten = u.content

/-- What an attempt has read still holds. -/
def Phase.Ok (env : Env) (u : Upload) (entries : List Entry) (revisions : Table Revision) : Phase → Prop
  | .opening => True
  | .missing q => q.revisionId = u.revisionId env
  | .planning r => (revisions.lookup (u.revisionId env)).isSome ∧ (r.status = .active → Complete u entries)
  | .admitting _ _ chunks admitted _ todo =>
    (revisions.lookup (u.revisionId env)).isSome ∧ IsPlan u.content chunks ∧ texts entries <+: chunks ∧
      entries.length < chunks.length ∧ admitted = numbered (ids entries) ∧
        todo = List.range' entries.length (chunks.length - entries.length)

/-- The ledger holds the entries, they begin a plan for the content, the revision is frozen with all of them only, and
the answers name all of them. -/
structure Holds (env : Env) (u : Upload) (entries : List Entry) (s : Server) : Prop where
  stored : Stored env u s.db.core entries
  begun : ∃ plan, IsPlan u.content plan ∧ texts entries <+: plan
  missing : s.db.core.revisions.lookup (u.revisionId env) = none → entries = []
  frozen : ∀ row, s.db.core.revisions.lookup (u.revisionId env) = some row →
    (row.manifestFrozen = true ↔ Complete u entries) ∧ (row.status ≠ .pending → row.manifestFrozen = true)
  phase : ∀ a phase, s.attempt = some (a, phase) → phase.Ok env u entries s.db.core.revisions
  answered : ∀ r, Answer.accepted r ∈ s.answers →
    Complete u entries ∧ r.mutationIds = ids entries ∧ r.chunkCount = entries.length

theorem Holds.conflict (h : Holds env u entries s) : Holds env u entries (s.answer .conflict) where
  stored := h.stored
  begun := h.begun
  missing := h.missing
  frozen := h.frozen
  phase := fun _ _ hnone => by cases hnone
  answered r hr := by
    rcases List.mem_append.1 hr with hr | hr
    · exact h.answered r hr
    · cases List.mem_singleton.1 hr

theorem Holds.accept (h : Holds env u entries s) {r : IngestResponse} (hcomplete : Complete u entries)
    (hids : r.mutationIds = ids entries) (hcount : r.chunkCount = entries.length) :
    Holds env u entries (s.answer (.accepted r)) where
  stored := h.stored
  begun := h.begun
  missing := h.missing
  frozen := h.frozen
  phase := fun _ _ hnone => by cases hnone
  answered r' hr := by
    rcases List.mem_append.1 hr with hr | hr
    · exact h.answered r' hr
    · cases List.mem_singleton.1 hr
      exact ⟨hcomplete, hids, hcount⟩

theorem Holds.cut (h : Holds env u entries s) : Holds env u entries { s with attempt := none } :=
  ⟨h.stored, h.begun, h.missing, h.frozen, fun _ _ hnone => absurd hnone (by simp), h.answered⟩

theorem Holds.goTo (h : Holds env u entries s) {a : Request} {phase : Phase}
    (hphase : phase.Ok env u entries s.db.core.revisions) : Holds env u entries { s with attempt := some (a, phase) } :=
  ⟨h.stored, h.begun, h.missing, h.frozen, fun _ _ hsome => (Prod.mk.inj (Option.some.inj hsome)).2 ▸ hphase, h.answered⟩

theorem Holds.fail (h : Holds env u entries s) (e : DaoError) : Holds env u entries (s.fail e) := by
  cases e with
  | valueError m => exact h.conflict
  | _ => exact h.cut

/-- Another core in which the rows of the revision are the same. -/
theorem Holds.withCore (h : Holds env u entries s) {core : Core}
    (hchunks : core.manifest (u.revisionId env) = s.db.core.manifest (u.revisionId env))
    (hpayloads : core.payloads (u.revisionId env) = s.db.core.payloads (u.revisionId env))
    (hrow : core.revisions.lookup (u.revisionId env) = s.db.core.revisions.lookup (u.revisionId env)) :
    Holds env u entries { s with db := { s.db with core } } where
  stored := h.stored.congr hchunks hpayloads
  begun := h.begun
  missing hnone := h.missing (hrow ▸ hnone)
  frozen row hlook := h.frozen row (hrow ▸ hlook)
  phase a phase hsome := by
    have hok := h.phase a phase hsome
    cases phase with
    | opening => trivial
    | missing q => exact hok
    | planning r => exact ⟨by rw [hrow]; exact hok.1, hok.2⟩
    | admitting r legalPlan chunks admitted before todo => exact ⟨by rw [hrow]; exact hok.1, hok.2⟩
  answered := h.answered

/-! ## One step -/

theorem Complete.length {chunks : List (List Char)} (hplan : IsPlan u.content chunks) (hbegin : texts entries <+: chunks)
    (hlength : entries.length = chunks.length) : Complete u entries := by
  rw [Complete, hbegin.eq_of_length (by rw [texts_length, hlength]), hplan.joined]

/-- Going on with a plan that the entries begin. -/
theorem Holds.goOn (h : Holds env u entries s) (a : Request) (r : Revision) (legalPlan : Bool) (before : Nat)
    {chunks : List (List Char)} (hrow : (s.db.core.revisions.lookup (u.revisionId env)).isSome)
    (hplan : IsPlan u.content chunks) (hbegin : texts entries <+: chunks) :
    Holds env u entries (s.goOn a r legalPlan chunks (numbered (ids entries)) before
      (List.range' entries.length (chunks.length - entries.length))) := by
  have hle : entries.length ≤ chunks.length := by
    have := hbegin.length_le
    rwa [texts_length] at this
  unfold Server.goOn
  split
  · next hnil =>
    have hlength : entries.length = chunks.length := by
      have := congrArg List.length hnil
      rw [List.length_range', List.length_nil] at this
      omega
    refine h.accept (Complete.length hplan hbegin hlength) ?_ hlength.symm
    rw [← hlength, ← ids_length entries, planIds_numbered]
  · next hne =>
    refine h.goTo ⟨hrow, hplan, hbegin, Nat.lt_of_not_le fun hge => hne ?_, rfl, rfl⟩
    rw [Nat.sub_eq_zero_of_le hge, List.range'_zero]

/-- A revision that is refused, or that the attempt goes on with. -/
theorem Holds.settle (h : Holds env u entries s) {a : Request} {r : Revision}
    (hrow : s.db.core.revisions.lookup (u.revisionId env) = some r) : Holds env u entries (s.settle a r) := by
  unfold Server.settle
  split
  · refine h.goTo ⟨by rw [hrow]; rfl, fun hactive => ?_⟩
    obtain ⟨hfrozen, hstatus⟩ := h.frozen r hrow
    exact hfrozen.1 (hstatus (by rw [hactive]; exact fun h => by cases h))
  · exact h.conflict

theorem Holds.openDocument (h : Holds env u entries s) (a : Request) : Holds env u entries (s.openDocument env u a) := by
  unfold Server.openDocument
  split
  · exact h.fail _
  · next core hcore =>
    obtain ⟨hchunks, hmutations, hrevisions⟩ : core.chunks = s.db.core.chunks ∧ core.mutations = s.db.core.mutations ∧
        core.revisions = s.db.core.revisions := by
      unfold createDocument at hcore
      dsimp only at hcore
      repeat' split at hcore
      all_goals cases hcore
      exact ⟨rfl, rfl, rfl⟩
    have hnext : Holds env u entries { s with db := { s.db with core } } :=
      h.withCore (by unfold Core.manifest; rw [hchunks]) (by unfold Core.payloads; rw [hmutations]) (by rw [hrevisions])
    dsimp only
    split
    · exact hnext.conflict
    · split
      · next r hr =>
        refine hnext.settle ?_
        have hmem := List.mem_of_find?_eq_some hr
        have hid : r.revisionId = u.revisionId env :=
          of_decide_eq_true (List.find?_some (p := fun r : Revision => decide (r.revisionId = u.revisionId env)) hr)
        have hselect := (List.mem_insertionSort _).1 hmem
        exact Table.lookup_eq_some.2 ⟨(Table.mem_select.1 hselect).1, hid⟩
      · exact hnext.goTo rfl

/-- Creating the revision leaves its row as it was, or adds one that is pending and open. -/
theorem createRevision_row {c c' : Core} {q : RevisionRequest} (h : createRevision c q = .ok c') :
    c'.chunks = c.chunks ∧ c'.mutations = c.mutations ∧
      (c'.revisions.lookup q.revisionId = c.revisions.lookup q.revisionId ∨
        c.revisions.lookup q.revisionId = none ∧ ∃ row, c'.revisions.lookup q.revisionId = some row ∧
          row.status = .pending ∧ row.manifestFrozen = false) := by
  unfold createRevision at h
  split at h
  · cases h
  · split at h
    · cases h
    · split at h
      · cases h
      · dsimp only at h
        split at h
        · cases h
          refine ⟨rfl, rfl, ?_⟩
          show (insertRevision _ _).lookup _ = _ ∨ _
          unfold insertRevision
          split
          · exact Or.inl rfl
          · cases hrow : c.revisions.lookup q.revisionId with
            | some row => exact Or.inl (by rw [Table.lookup_insertOrIgnore, hrow, Option.some_or])
            | none =>
              refine Or.inr ⟨rfl, ⟨⟨q.revisionId, q.tenantId, q.documentId, q.revisionNumber, some q.contentHash,
                q.supersedesRevisionId⟩, .pending, "", false⟩, ?_, rfl, rfl⟩
              show Table.lookup (Table.insertOrIgnore _ _) _ = _
              rw [Table.lookup_insertOrIgnore, hrow, Option.none_or]
              exact if_pos rfl
        · cases h

theorem not_complete_nil : ¬ Complete u [] := fun h => u.nonempty h.symm

theorem Holds.openRevision (h : Holds env u entries s) (a : Request) {q : RevisionRequest}
    (hq : q.revisionId = u.revisionId env) : Holds env u entries (s.openRevision a q) := by
  unfold Server.openRevision
  split
  · exact h.fail _
  · next core hcore =>
    obtain ⟨hchunks, hmutations, hrow⟩ := createRevision_row hcore
    rw [hq] at hrow
    have hmanifest : core.manifest (u.revisionId env) = s.db.core.manifest (u.revisionId env) := by
      unfold Core.manifest
      rw [hchunks]
    have hpayloads : core.payloads (u.revisionId env) = s.db.core.payloads (u.revisionId env) := by
      unfold Core.payloads
      rw [hmutations]
    have hnext : Holds env u entries { s with db := { s.db with core }, attempt := none } := by
      rcases hrow with hrow | ⟨hnone, row, hrow, hpending, hopen⟩
      · exact (h.withCore hmanifest hpayloads hrow).cut
      · obtain rfl := h.missing hnone
        refine ⟨h.stored.congr hmanifest hpayloads, h.begun, fun hnone' => absurd (hrow.symm.trans hnone') (by simp),
          fun row' hrow' => ?_, fun _ _ hsome => absurd hsome (by simp), h.answered⟩
        rw [hrow] at hrow'
        cases hrow'
        rw [hopen, hpending]
        exact ⟨iff_of_false Bool.false_ne_true not_complete_nil, fun hne => absurd rfl hne⟩
    dsimp only
    split
    · next r hr =>
      rw [hq] at hr
      have hsettle := hnext.settle (a := a) hr
      unfold Server.settle at hsettle ⊢
      split
      · next hstatus =>
        rw [if_pos hstatus] at hsettle
        exact hsettle
      · next hstatus =>
        rw [if_neg hstatus] at hsettle
        exact hsettle
    · exact hnext

theorem Holds.plan (h : Holds env u entries s) (a : Request) {r : Revision}
    (hphase : (Phase.planning r).Ok env u entries s.db.core.revisions) : Holds env u entries (s.plan T env u a r) := by
  have hlisted := h.stored.listed
  unfold Server.plan
  dsimp only
  split
  · next hactive =>
    refine h.accept (hphase.2 hactive) ?_ ?_
    · rw [hlisted, storedIds_numbered]
    · rw [hlisted, numbered_length, ids_length]
  · rw [hlisted, h.stored.storedTexts]
    dsimp only
    split
    · exact h.conflict
    · next legalPlan chunks hchoose =>
      obtain ⟨hplan, hbegin⟩ := choosePlan_plan hchoose
      have hle : (ids entries).length ≤ chunks.length := by
        have := hbegin.length_le
        rwa [texts_length, ← ids_length entries] at this
      have hgoOn := h.goOn a r legalPlan (numbered (ids entries)).length hphase.1 hplan hbegin
      rw [pendingOrdinals_numbered hle, ids_length]
      exact hgoOn

/-- The next chunk of a plan is stored as one entry more, or nothing changes but the attempt and its answer. -/
theorem Holds.admitNext (h : Holds env u entries s) (withinCapacity : Bool) (a : Request) {r : Revision} {legalPlan : Bool}
    {chunks : List (List Char)} {admitted : List (Nat × String)} {before : Nat} {todo : List Nat}
    (hattempt : s.attempt = some (a, .admitting r legalPlan chunks admitted before todo))
    (hphase : (Phase.admitting r legalPlan chunks admitted before todo).Ok env u entries s.db.core.revisions) :
    ∃ more, Holds env u (entries ++ more) (s.admitNext env u withinCapacity a r legalPlan chunks admitted before todo) := by
  have hstay : ∃ more, Holds env u (entries ++ more) s := ⟨[], by rwa [List.append_nil]⟩
  obtain ⟨hrow, hplan, hbegin, hlt, rfl, rfl⟩ := hphase
  have htodo : List.range' entries.length (chunks.length - entries.length) =
      entries.length :: List.range' (entries.length + 1) (chunks.length - (entries.length + 1)) := by
    rw [show chunks.length - entries.length = chunks.length - (entries.length + 1) + 1 by omega, List.range'_succ]
  rw [htodo]
  unfold Server.admitNext
  dsimp only
  split
  · exact ⟨[], by rw [List.append_nil]; exact h.cut⟩
  · split
    · next db hdb =>
      obtain ⟨row, hrow⟩ := Option.isSome_iff_exists.1 hrow
      have hq : (u.tenantId, u.datasetId, u.revisionId env, u.chunkId env entries.length, entries.length,
          String.ofList (chunks.getD entries.length [])) = (u.tenantId, u.datasetId, u.revisionId env,
            u.chunkId env entries.length, entries.length, String.ofList (chunks.getD entries.length [])) := rfl
      obtain ⟨-, -, hstored, row', hrow', -, hfrozen, hstatus⟩ := admit_stored hdb h.stored hrow hq
      generalize hid : admissionId env (chunkAdmission env u a r legalPlan chunks entries.length withinCapacity)
        (nextRawLogId s.db.queue.rawLogs) "mutation" = id at hstored
      have hchunk : chunks.getD entries.length [] = chunks[entries.length] := by
        rw [List.getD_eq_getElem?_getD, List.getElem?_eq_getElem hlt, Option.getD_some]
      have hbegin' : texts (entries ++ [(id, chunks.getD entries.length [])]) <+: chunks := by
        have htake : texts entries = chunks.take entries.length := by
          have := List.prefix_iff_eq_take.1 hbegin
          rwa [texts_length] at this
        rw [texts, List.map_append, List.map_singleton, ← texts, htake, hchunk]
        show chunks.take entries.length ++ [chunks[entries.length]] <+: chunks
        rw [List.take_append_getElem hlt]
        exact List.take_prefix _ _
      have hlength : (entries ++ [(id, chunks.getD entries.length [])]).length = entries.length + 1 := by
        rw [List.length_append, List.length_singleton]
      -- nothing was answered before: the entries were not all of the content
      have hincomplete : ¬ Complete u entries :=
        flatten_ne_of_lt hplan hbegin (by rw [texts_length]; exact hlt)
      have hmore : Holds env u (entries ++ [(id, chunks.getD entries.length [])]) { s with db, attempt := none } := by
        refine ⟨hstored, ⟨chunks, hplan, hbegin'⟩, fun hnone => absurd (hrow'.symm.trans hnone) (by simp),
          fun row'' hrow'' => ?_, fun _ _ hsome => absurd hsome (by simp), fun r' hr' => absurd (h.answered r' hr').1 hincomplete⟩
        cases Option.some.inj (hrow'.symm.trans hrow'')
        refine ⟨?_, hstatus⟩
        rw [hfrozen]
        show decide (entries.length + 1 = chunks.length) = true ↔ _
        rw [decide_eq_true_iff]
        constructor
        · intro heq
          exact Complete.length hplan hbegin' (hlength.trans heq)
        · intro hcomplete
          by_contra hne
          exact flatten_ne_of_lt hplan hbegin' (by rw [texts_length, hlength]; omega) hcomplete
      refine ⟨[(id, chunks.getD entries.length [])], ?_⟩
      have hgoOn := hmore.goOn a r legalPlan before (by
        show (db.core.revisions.lookup (u.revisionId env)).isSome = true
        rw [hrow']
        rfl) hplan hbegin'
      have hids : numbered (ids (entries ++ [(id, chunks.getD entries.length [])])) =
          put (numbered (ids entries)) entries.length id := by
        rw [← ids_length entries, put_numbered, ids, ids, List.map_append, List.map_singleton]
      rw [hids, hlength] at hgoOn
      unfold Server.goOn at hgoOn ⊢
      split at hgoOn
      · next hnil =>
        rw [if_pos hnil]
        exact hgoOn
      · next hne =>
        rw [if_neg hne]
        exact hgoOn
    · exact hstay
    · exact ⟨[], by rw [List.append_nil]; exact h.fail _⟩

/-- Whatever the rest of the system does, the rows of the revision stay, and only its status moves. -/
theorem Holds.background (h : Holds env u entries s) {op : Op} (hop : op.Spares env (u.revisionId env) s.db) :
    Holds env u entries { s with db := exec env s.db op } := by
  have hkept := exec_undisturbed hop
  refine ⟨h.stored.congr hkept.chunks hkept.payloads, h.begun, fun hnone => ?_, fun row hrow => ?_, fun a phase hsome => ?_,
    h.answered⟩
  · cases hlook : s.db.core.revisions.lookup (u.revisionId env) with
    | none => exact h.missing hlook
    | some row =>
      obtain ⟨row', hrow', -⟩ := hkept.goesOn row hlook
      exact absurd (hrow'.symm.trans hnone) (by simp)
  · cases hlook : s.db.core.revisions.lookup (u.revisionId env) with
    | none => exact absurd (hrow.symm.trans (hkept.missing hlook)) (by simp)
    | some row₀ =>
      obtain ⟨row', hrow', hgoes⟩ := hkept.goesOn row₀ hlook
      cases Option.some.inj (hrow'.symm.trans hrow)
      obtain ⟨hfrozen, hstatus⟩ := h.frozen row₀ hlook
      rw [hgoes.frozen]
      refine ⟨hfrozen, fun hne => ?_⟩
      rcases hgoes.status with hsame | ⟨-, hfrozen', -⟩ | ⟨hactive, -⟩
      · exact hstatus (hsame ▸ hne)
      · exact hfrozen'
      · exact hstatus (by rw [hactive]; exact fun h => by cases h)
  · have hok := h.phase a phase hsome
    have hrow : (s.db.core.revisions.lookup (u.revisionId env)).isSome →
        ((exec env s.db op).core.revisions.lookup (u.revisionId env)).isSome := by
      intro hlook
      obtain ⟨row, hrow⟩ := Option.isSome_iff_exists.1 hlook
      obtain ⟨row', hrow', -⟩ := hkept.goesOn row hrow
      exact Option.isSome_iff_exists.2 ⟨row', hrow'⟩
    cases phase with
    | opening => trivial
    | missing q => exact hok
    | planning r => exact ⟨hrow hok.1, hok.2⟩
    | admitting r legalPlan chunks admitted before todo => exact ⟨hrow hok.1, hok.2⟩

/-- One step keeps the invariant, and the entries only grow. -/
theorem Holds.step (h : Holds env u entries s) {i : Step} (hi : Spares env u s i) :
    ∃ more, Holds env u (entries ++ more) (step T env u s i) := by
  have hkeep : ∀ {s' : Server}, Holds env u entries s' → ∃ more, Holds env u (entries ++ more) s' := by
    intro s' h'
    exact ⟨[], by rwa [List.append_nil]⟩
  cases i with
  | start a =>
    unfold Documents.step
    dsimp only
    split
    · exact hkeep (h.goTo trivial)
    · exact hkeep h
  | advance withinCapacity =>
    unfold Documents.step
    dsimp only
    split
    · exact hkeep h
    · next a phase hattempt =>
      have hok := h.phase a phase hattempt
      cases phase with
      | opening => exact hkeep (h.openDocument a)
      | missing q => exact hkeep (h.openRevision a hok)
      | planning r => exact hkeep (h.plan a hok)
      | admitting r legalPlan chunks admitted before todo => exact h.admitNext withinCapacity a hattempt hok
  | cut => exact hkeep h.cut
  | background op => exact hkeep (h.background hi)

/-! ## Runs -/

theorem holds_unseen {db : Db} (h : Unseen env u db.core) : Holds env u [] ⟨db, none, []⟩ where
  stored := ⟨by rw [h.chunks]; rfl, by rw [h.mutations]; rfl⟩
  begun := ⟨[u.content], IsPlan.single u.nonempty, List.nil_prefix⟩
  missing _ := rfl
  frozen row hrow := absurd (hrow.symm.trans h.revision) (by simp)
  phase _ _ hsome := absurd hsome (by simp)
  answered r hr := absurd hr List.not_mem_nil

/-- Along every run the chunks that are stored begin a plan for the content, the revision is ACTIVE or SUPERSEDED only
with all of the content, and an accepted attempt names all chunks, each by its mutation and in order. -/
theorem ingestion_exact {db : Db} (hunseen : Unseen env u db.core) {steps : List Step}
    (hspares : Along (step T env u) (Spares env u) ⟨db, none, []⟩ steps) :
    Throughout (step T env u) (fun s => ∃ entries, Stored env u s.db.core entries ∧
      (∃ plan, IsPlan u.content plan ∧ texts entries <+: plan) ∧
      (∀ row, s.db.core.revisions.lookup (u.revisionId env) = some row → row.status ≠ .pending →
        (texts entries).flatten = u.content) ∧
      ∀ r, Answer.accepted r ∈ s.answers →
        (texts entries).flatten = u.content ∧ r.mutationIds = ids entries ∧ r.chunkCount = entries.length)
      ⟨db, none, []⟩ steps := by
  refine throughout_of_invariant (I := fun s => ∃ entries, Holds env u entries s) (fun s i ⟨entries, h⟩ hi => ?_)
    (fun s ⟨entries, h⟩ => ?_) ⟨[], holds_unseen hunseen⟩ hspares
  · obtain ⟨more, hmore⟩ := h.step (T := T) hi
    exact ⟨_, hmore⟩
  · refine ⟨entries, h.stored, h.begun, fun row hrow hstatus => ?_, h.answered⟩
    obtain ⟨hfrozen, hleft⟩ := h.frozen row hrow
    exact hfrozen.1 (hleft hstatus)

/-- One sentence, counted in characters. -/
def sampleUpload : Upload := ⟨"tenant", "dataset", "document", "Madde 1.".toList, by decide⟩

def sampleRequest : Request where
  agentId := "agent"
  sessionId := "session"
  sourceRef := "source"
  metadataValidFrom := ""
  metadataValidTo := ""
  auto := true
  counter := ⟨List.length, fun _ => Nat.le_add_left 1 511⟩
  legalIdentity _ _ _ := none
  accepts _ _ := true

/-- An attempt that is cut off, and one that follows it. -/
def sampleSteps : List Step :=
  [.start sampleRequest, .advance true, .advance true, .cut, .start sampleRequest, .advance true]

theorem ingestion_exact_interrupted :
    Throughout (step latinTables sampleEnv sampleUpload) (fun s => ∃ entries, Stored sampleEnv sampleUpload s.db.core entries ∧
      (∃ plan, IsPlan sampleUpload.content plan ∧ texts entries <+: plan) ∧
      (∀ row, s.db.core.revisions.lookup (sampleUpload.revisionId sampleEnv) = some row → row.status ≠ .pending →
        (texts entries).flatten = sampleUpload.content) ∧
      ∀ r, Answer.accepted r ∈ s.answers →
        (texts entries).flatten = sampleUpload.content ∧ r.mutationIds = ids entries ∧ r.chunkCount = entries.length)
      ⟨Db.empty, none, []⟩ sampleSteps :=
  ingestion_exact ⟨rfl, rfl, rfl⟩ ⟨trivial, trivial, trivial, trivial, trivial, trivial, trivial⟩

/-- What an attempt has admitted is never admitted again, replaced or lost: however a run goes on, the stored chunks of
an earlier moment are the first ones of every later one. -/
theorem chunks_grow {db : Db} (hunseen : Unseen env u db.core) {steps later : List Step}
    (hspares : Along (step T env u) (Spares env u) ⟨db, none, []⟩ (steps ++ later)) :
    ∃ entries more, Stored env u (run (step T env u) ⟨db, none, []⟩ steps).db.core entries ∧
      Stored env u (run (step T env u) ⟨db, none, []⟩ (steps ++ later)).db.core (entries ++ more) := by
  obtain ⟨hfirst, hlater⟩ := along_append.1 hspares
  obtain ⟨entries, h⟩ := invariant_run (I := fun s => ∃ entries, Holds env u entries s)
    (fun s i ⟨entries, h⟩ hi => (h.step (T := T) hi).imp' _ fun _ => id) ⟨[], holds_unseen hunseen⟩ hfirst
  obtain ⟨more, hmore⟩ := invariant_run (I := fun s => ∃ more, Holds env u (entries ++ more) s)
    (fun s i ⟨more, h⟩ hi => by
      obtain ⟨next, hnext⟩ := h.step (T := T) hi
      exact ⟨more ++ next, by rwa [← List.append_assoc]⟩) ⟨[], by rwa [List.append_nil]⟩ hlater
  rw [run_append]
  exact ⟨entries, more, h.stored, hmore.stored⟩

theorem chunks_grow_interrupted :
    ∃ entries more,
      Stored sampleEnv sampleUpload (run (step latinTables sampleEnv sampleUpload) ⟨Db.empty, none, []⟩ sampleSteps).db.core
        entries ∧
      Stored sampleEnv sampleUpload
        (run (step latinTables sampleEnv sampleUpload) ⟨Db.empty, none, []⟩ (sampleSteps ++ sampleSteps)).db.core
        (entries ++ more) :=
  chunks_grow ⟨rfl, rfl, rfl⟩ ⟨trivial, trivial, trivial, trivial, trivial, trivial, trivial, trivial, trivial, trivial,
    trivial, trivial, trivial⟩

end Mesa.Documents
