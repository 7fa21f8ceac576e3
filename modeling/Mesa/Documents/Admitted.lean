/-
The chunks of an upload that are admitted: how the ledger stores them, what an attempt reads back of them, and what
one more admission adds.
-/
import Mesa.Documents.Ingestion
import Mesa.Documents.Slices

namespace Mesa.Documents

open Mesa.Foundation Mesa.Ledger

/-! ## Numbered ids -/

/-- Ids by their ordinals. -/
def numbered (ids : List String) : List (Nat × String) := ids.zipIdx.map fun e => (e.2, e.1)

theorem numbered_snoc (ids : List String) (x : String) : numbered (ids ++ [x]) = numbered ids ++ [(ids.length, x)] := by
  simp [numbered, List.zipIdx_append]

theorem numbered_length (ids : List String) : (numbered ids).length = ids.length := by simp [numbered]

theorem mem_numbered {ids : List String} {e : Nat × String} : e ∈ numbered ids ↔ ids[e.1]? = some e.2 := by
  unfold numbered
  rw [List.mem_map]
  constructor
  · rintro ⟨x, hx, rfl⟩
    exact List.mem_zipIdx_iff_getElem?.1 hx
  · intro h
    exact ⟨(e.2, e.1), List.mem_zipIdx_iff_getElem?.2 h, rfl⟩

theorem get_snoc (admitted : List (Nat × String)) (n i : Nat) (x : String) (hn : ∀ e ∈ admitted, e.1 ≠ n) :
    get (admitted ++ [(n, x)]) i = if i = n then some x else get admitted i := by
  unfold get
  rw [List.find?_append]
  by_cases hi : i = n
  · subst hi
    have hnone : (admitted.find? fun e => decide (e.1 = i)) = none := by
      rw [List.find?_eq_none]
      intro e he
      simpa using hn e he
    rw [if_pos rfl, hnone]
    simp
  · rw [if_neg hi, List.find?_cons_of_neg (by simpa using fun h : n = i => hi h.symm)]
    simp

theorem numbered_lt {ids : List String} {e : Nat × String} (he : e ∈ numbered ids) : e.1 < ids.length :=
  (List.getElem?_eq_some_iff.1 (mem_numbered.1 he)).1

theorem get_numbered (ids : List String) : ∀ i, get (numbered ids) i = ids[i]? := by
  induction ids using List.reverseRecOn with
  | nil => intro i; rfl
  | append_singleton ids x ih =>
    intro i
    rw [numbered_snoc, get_snoc _ _ _ _ fun e he => Nat.ne_of_lt (numbered_lt he), ih]
    split
    · next h => rw [h, List.getElem?_concat_length]
    · next h =>
      rcases Nat.lt_or_ge i ids.length with hlt | hge
      · rw [List.getElem?_append_left hlt]
      · rw [List.getElem?_eq_none hge, List.getElem?_eq_none (by rw [List.length_append, List.length_singleton]; omega)]

theorem put_numbered (ids : List String) (x : String) : put (numbered ids) ids.length x = numbered (ids ++ [x]) := by
  rw [numbered_snoc, put, if_neg]
  rw [List.any_eq_true]
  rintro ⟨e, he, heq⟩
  have := numbered_lt he
  have := of_decide_eq_true heq
  omega

theorem foldl_put_numbered (ids : List String) :
    (numbered ids).foldl (fun admitted e => put admitted e.1 e.2) [] = numbered ids := by
  induction ids using List.reverseRecOn with
  | nil => rfl
  | append_singleton ids x ih =>
    rw [numbered_snoc, List.foldl_append, ih, List.foldl_cons, List.foldl_nil, put_numbered, numbered_snoc]

theorem keys_numbered (ids : List String) : (numbered ids).map (·.1) = List.range ids.length := by
  unfold numbered
  rw [List.map_map]
  exact List.zipIdx_map_snd 0 ids |>.trans (by rw [List.range_eq_range'])

theorem planIds_numbered (ids : List String) : planIds (numbered ids) ids.length = ids := by
  have hget : ∀ n ≤ ids.length, (List.range n).filterMap (get (numbered ids)) = ids.take n := by
    intro n hn
    induction n with
    | zero => rfl
    | succ n ih =>
      rw [List.range_succ, List.filterMap_append, ih (by omega), List.filterMap_cons, get_numbered,
        List.getElem?_eq_getElem (by omega), List.take_add_one, List.getElem?_eq_getElem (by omega)]
      rfl
  rw [planIds, hget ids.length (le_refl _), List.take_length]

theorem storedIds_numbered (ids : List String) : storedIds (numbered ids) = ids := by
  rw [storedIds, keys_numbered, List.Pairwise.insertionSort_eq (List.pairwise_le_range)]
  exact planIds_numbered ids

theorem insertionSort_numbered (ids : List String) :
    (numbered ids).insertionSort (fun a b => a.1 ≤ b.1) = numbered ids := by
  refine List.Pairwise.insertionSort_eq ?_
  have hkeys : ((numbered ids).map (·.1)).Pairwise (· ≤ ·) := by
    rw [keys_numbered]
    exact List.pairwise_le_range
  exact List.pairwise_map.1 hkeys

/-! ## Stored chunks -/

/-- A mutation id and the text it carries. -/
abbrev Entry := String × List Char

variable (env : Env) (u : Upload)

/-- The row of a chunk that the ledger keeps for an entry: mutation id, tenant, dataset, chunk id and text. -/
def Upload.payloadRow (ordinal : Nat) (e : Entry) : String × String × String × String × String :=
  (e.1, u.tenantId, u.datasetId, u.chunkId env ordinal, String.ofList e.2)

/-- The revision holds exactly the entries, each as one chunk with one mutation. -/
structure Stored (c : Core) (entries : List Entry) : Prop where
  chunks : (c.manifest (u.revisionId env)).map (fun k => (k.chunkId, k.ordinal)) =
    (List.range entries.length).map fun i => (u.chunkId env i, i)
  payloads : (c.payloads (u.revisionId env)).map
      (fun p => (p.1.mutationId, p.1.tenantId, p.1.datasetId, p.1.chunkId, p.2)) =
    entries.zipIdx.map fun e => u.payloadRow env e.2 e.1

variable {env u} {c c' : Core} {entries : List Entry}

/-- The ids and the texts of entries. -/
def ids (entries : List Entry) : List String := entries.map (·.1)

def texts (entries : List Entry) : List (List Char) := entries.map (·.2)

theorem ids_length (entries : List Entry) : (ids entries).length = entries.length := by simp [ids]

theorem texts_length (entries : List Entry) : (texts entries).length = entries.length := by simp [texts]

theorem Stored.congr (h : Stored env u c entries) (hchunks : c'.manifest (u.revisionId env) = c.manifest (u.revisionId env))
    (hpayloads : c'.payloads (u.revisionId env) = c.payloads (u.revisionId env)) : Stored env u c' entries :=
  ⟨by rw [hchunks]; exact h.chunks, by rw [hpayloads]; exact h.payloads⟩

/-- The mutation of an entry. -/
theorem Stored.mutation (h : Stored env u c entries) {i : Nat} {e : Entry} (he : entries[i]? = some e) :
    ∃ m, c.mutations.lookup e.1 = some m ∧ m.tenantId = u.tenantId ∧ m.datasetId = u.datasetId ∧
      m.revisionId = u.revisionId env ∧ m.chunkId = u.chunkId env i ∧ m.contentPayload = String.ofList e.2 := by
  have hrow : u.payloadRow env i e ∈ entries.zipIdx.map fun e => u.payloadRow env e.2 e.1 :=
    List.mem_map.2 ⟨(e, i), List.mem_zipIdx_iff_getElem?.2 he, rfl⟩
  rw [← h.payloads] at hrow
  obtain ⟨p, hp, hpe⟩ := List.mem_map.1 hrow
  obtain ⟨m, hm, rfl⟩ := List.mem_map.1 hp
  obtain ⟨hmem, hR⟩ := Table.mem_select.1 hm
  simp only [Upload.payloadRow, Prod.mk.injEq] at hpe
  obtain ⟨hid, htenant, hdataset, hchunk, htext⟩ := hpe
  exact ⟨m, Table.lookup_eq_some.2 ⟨hmem, hid⟩, htenant, hdataset, of_decide_eq_true hR, hchunk, htext⟩

/-- The entry of a mutation. -/
theorem Stored.entry (h : Stored env u c entries) {m : Mutation} (hm : m ∈ c.mutations.rows)
    (hR : m.revisionId = u.revisionId env) : ∃ i e, entries[i]? = some e ∧ m.mutationId = e.1 ∧
      m.tenantId = u.tenantId ∧ m.datasetId = u.datasetId ∧ m.chunkId = u.chunkId env i := by
  have hrow : (m.mutationId, m.tenantId, m.datasetId, m.chunkId, m.contentPayload) ∈
      (c.payloads (u.revisionId env)).map fun p => (p.1.mutationId, p.1.tenantId, p.1.datasetId, p.1.chunkId, p.2) :=
    List.mem_map.2 ⟨_, List.mem_map.2 ⟨m, Table.mem_select.2 ⟨hm, decide_eq_true hR⟩, rfl⟩, rfl⟩
  rw [h.payloads] at hrow
  obtain ⟨⟨e, i⟩, he, hrow⟩ := List.mem_map.1 hrow
  simp only [Upload.payloadRow, Prod.mk.injEq] at hrow
  obtain ⟨hid, htenant, hdataset, hchunk, -⟩ := hrow
  exact ⟨i, e, List.mem_zipIdx_iff_getElem?.1 he, hid.symm, htenant.symm, hdataset.symm, hchunk.symm⟩

/-- The chunk of an entry. -/
theorem Stored.chunk (h : Stored env u c entries) {i : Nat} (hi : i < entries.length) :
    ∃ k, c.chunks.lookup (u.chunkId env i) = some k ∧ k.ordinal = i ∧ k.revisionId = u.revisionId env := by
  have hrow : (u.chunkId env i, i) ∈ (List.range entries.length).map fun i => (u.chunkId env i, i) :=
    List.mem_map.2 ⟨i, List.mem_range.2 hi, rfl⟩
  rw [← h.chunks] at hrow
  obtain ⟨k, hk, hrow⟩ := List.mem_map.1 hrow
  obtain ⟨hmem, hR⟩ := Table.mem_select.1 hk
  rw [Prod.mk.injEq] at hrow
  exact ⟨k, Table.lookup_eq_some.2 ⟨hmem, hrow.1⟩, hrow.2, of_decide_eq_true hR⟩

/-- The ordinal of a stored chunk. -/
theorem Stored.ordinal (h : Stored env u c entries) {k : Chunk} (hk : k ∈ c.chunks.rows)
    (hR : k.revisionId = u.revisionId env) : k.ordinal < entries.length ∧ k.chunkId = u.chunkId env k.ordinal := by
  have hrow : (k.chunkId, k.ordinal) ∈ (c.manifest (u.revisionId env)).map fun k => (k.chunkId, k.ordinal) :=
    List.mem_map.2 ⟨k, Table.mem_select.2 ⟨hk, decide_eq_true hR⟩, rfl⟩
  rw [h.chunks] at hrow
  obtain ⟨i, hi, hrow⟩ := List.mem_map.1 hrow
  rw [Prod.mk.injEq] at hrow
  obtain ⟨hid, rfl⟩ := hrow
  exact ⟨List.mem_range.1 hi, hid.symm⟩

/-- An attempt lists the ids of the entries by their ordinals. -/
theorem Stored.listed (h : Stored env u c entries) : listRevisionMutations env u c = numbered (ids entries) := by
  have hselect : (c.mutations.select fun m =>
      m.tenantId = u.tenantId && m.datasetId = u.datasetId && m.revisionId = u.revisionId env) =
      c.mutations.select fun m => m.revisionId = u.revisionId env := by
    refine Table.select_congr fun m hm => ?_
    by_cases hR : m.revisionId = u.revisionId env
    · obtain ⟨i, e, -, -, htenant, hdataset, -⟩ := h.entry hm hR
      simp [hR, htenant, hdataset]
    · simp [hR]
  -- a row of the join depends on the payload of its mutation only
  have hjoin : ((c.mutations.select fun m => m.revisionId = u.revisionId env).filterMap fun m =>
      (c.chunks.lookup m.chunkId).map fun k => (k.ordinal, m.mutationId)) =
      ((c.payloads (u.revisionId env)).map
        fun p => (p.1.mutationId, p.1.tenantId, p.1.datasetId, p.1.chunkId, p.2)).filterMap fun row =>
          (c.chunks.lookup row.2.2.2.1).map fun k => (k.ordinal, row.1) := by
    unfold Core.payloads
    rw [List.filterMap_map, List.filterMap_map]
    rfl
  have hrows : (entries.zipIdx.map fun e => u.payloadRow env e.2 e.1).filterMap (fun row =>
      (c.chunks.lookup row.2.2.2.1).map fun k => (k.ordinal, row.1)) = numbered (ids entries) := by
    rw [List.filterMap_map, numbered, ids, List.zipIdx_map, List.map_map, ← List.filterMap_eq_map]
    refine List.filterMap_congr fun e he => ?_
    have hi := (List.getElem?_eq_some_iff.1 (List.mem_zipIdx_iff_getElem?.1 he)).1
    obtain ⟨k, hk, hordinal, -⟩ := h.chunk hi
    show (c.chunks.lookup (u.chunkId env e.2)).map (fun k => (k.ordinal, e.1.1)) = some (e.2, e.1.1)
    rw [hk, Option.map_some, hordinal]
  unfold listRevisionMutations
  rw [hselect, hjoin, h.payloads, hrows]
  dsimp only
  rw [insertionSort_numbered, foldl_put_numbered]

theorem mapM_eq_some_map {α β : Type} {f : α → Option β} {g : α → β} : ∀ {l : List α},
    (∀ a ∈ l, f a = some (g a)) → l.mapM f = some (l.map g)
  | [], _ => rfl
  | a :: l, h => by
    rw [List.mapM_cons, h a List.mem_cons_self, mapM_eq_some_map fun b hb => h b (List.mem_cons_of_mem _ hb)]
    rfl

/-- The texts by their ordinals. -/
def numberedTexts (chunks : List (List Char)) : List (Nat × String) :=
  chunks.zipIdx.map fun e => (e.2, String.ofList e.1)

theorem Stored.storedTexts (h : Stored env u c entries) :
    storedTexts c (numbered (ids entries)) = some (numberedTexts (texts entries)) := by
  have hg : (entries.zipIdx.map fun e => (e.2, e.1.1)).mapM (fun e =>
      (c.mutations.lookup e.2).map fun m => (e.1, m.contentPayload)) =
      some (entries.zipIdx.map fun e => (e.2, String.ofList e.1.2)) := by
    have hall : ∀ e ∈ entries.zipIdx, ((c.mutations.lookup e.1.1).map fun m => (e.2, m.contentPayload)) =
        some (e.2, String.ofList e.1.2) := by
      intro e he
      obtain ⟨m, hm, -, -, -, -, htext⟩ := h.mutation (List.mem_zipIdx_iff_getElem?.1 he)
      rw [hm, Option.map_some, htext]
    have := mapM_eq_some_map hall
    rw [← this]
    induction entries.zipIdx with
    | nil => rfl
    | cons e l ih => rw [List.map_cons, List.mapM_cons, List.mapM_cons, ih]
  unfold Documents.storedTexts numberedTexts
  rw [numbered, ids, texts, List.zipIdx_map, List.zipIdx_map, List.map_map, List.map_map]
  exact hg

/-- The admitted texts match a plan that begins with them. -/
theorem matchesPlan_iff {chunks plan : List (List Char)} :
    matchesPlan (numberedTexts chunks) plan = true ↔ chunks <+: plan := by
  unfold matchesPlan numberedTexts
  rw [List.all_eq_true, List.prefix_iff_getElem?]
  constructor
  · intro h i hi
    have hmem : (i, String.ofList chunks[i]) ∈ chunks.zipIdx.map fun e => (e.2, String.ofList e.1) :=
      List.mem_map.2 ⟨(chunks[i], i), List.mem_zipIdx_iff_getElem?.2 (List.getElem?_eq_getElem hi), rfl⟩
    obtain ⟨chunk, hchunk, heq⟩ := (Option.any_eq_true _ _).1 (h _ hmem)
    rw [hchunk, String.ofList_injective (of_decide_eq_true heq)]
  · intro h e he
    obtain ⟨⟨chunk, i⟩, hx, rfl⟩ := List.mem_map.1 he
    obtain ⟨hi, heq⟩ := List.getElem?_eq_some_iff.1 (List.mem_zipIdx_iff_getElem?.1 hx)
    have hplan := h i hi
    dsimp only
    rw [hplan, heq]
    simp

/-! ## One more admission -/

theorem insertRevision_lookup {t : Table Revision} {x r : Revision} (hr : t.lookup x.revisionId = some r) :
    (insertRevision t x).lookup x.revisionId = some r := by
  unfold insertRevision
  split
  · exact hr
  · rw [Table.lookup_insertOrIgnore, hr, Option.some_or]

/-- A chunk that is stored is the one that was asked for. -/
theorem storeChunk_found {c c' : Core} {k : Chunk} (h : storeChunk c k = .ok c') :
    (insertChunk c.chunks k).lookup k.chunkId = some k := by
  unfold storeChunk at h
  simp only at h
  split at h
  · next hfound => exact hfound
  · cases h

/-- A new chunk stands at the end of the manifest of its revision. -/
theorem insertChunk_fresh {t : Table Chunk} {k : Chunk} (hordinal : ∀ x ∈ t.rows, x.revisionId = k.revisionId →
    x.ordinal ≠ k.ordinal) (hkey : t.hasKey k.chunkId = false) : (insertChunk t k).rows = t.rows ++ [k] := by
  unfold insertChunk
  rw [if_neg, Table.rows_insertOrIgnore_fresh (Table.hasKey_eq_false.1 hkey)]
  rw [Table.anyWhere_iff]
  rintro ⟨x, hx, hp⟩
  simp only [Bool.and_eq_true, decide_eq_true_eq] at hp
  exact hordinal x hx hp.1 hp.2

/-- Storing the manifest of a pending revision that is open: it is frozen if the manifest is final. -/
theorem updateRevisionManifest_open {c c' : Core} {id : String} {fin : Bool} {r : Revision}
    (h : updateRevisionManifest env c id fin = .ok c') (hr : c.revisions.lookup id = some r)
    (hpending : r.status = .pending) (hopen : r.manifestFrozen = false) :
    ∃ r', c'.revisions.lookup id = some r' ∧ r'.toRevisionIdentity = r.toRevisionIdentity ∧
      r'.manifestFrozen = fin ∧ (r'.status ≠ .pending → fin = true) := by
  have hid : r.revisionId = id := Table.lookup_key hr
  unfold updateRevisionManifest at h
  simp only at h
  split at h
  · cases h
  · split at h
    · cases h
    · generalize env.manifestHash _ = hash at h
      have hstored : (storedManifest c.revisions id hash fin).lookup id =
          some { r with manifestHash := hash, manifestFrozen := r.manifestFrozen || fin } := by
        rw [lookup_storedManifest, hr, Option.map_some, if_pos (by simp [hid, hpending, hopen])]
      split at h
      · next hfin =>
        have h : reconcileRevisionActivation { c with revisions := storedManifest c.revisions id hash fin } id =
          .ok c' := h
        obtain ⟨r', hr', hgoes⟩ := (reconcileRevisionActivation_goesOn h id).2 _ hstored
        exact ⟨r', hr', hgoes.identity, by rw [hgoes.frozen, hfin, Bool.or_true], fun _ => hfin⟩
      · cases h
        refine ⟨_, hstored, rfl, by rw [hopen, Bool.false_or], fun hstatus => ?_⟩
        exact absurd hpending hstatus

/-- The chunk row of an admission. -/
def admittedChunk (env : Env) (q : Admission) : Chunk :=
  ⟨q.chunkId, q.tenantId, q.datasetId, q.revisionId, q.chunkOrdinal, env.sha256 q.contentPayload, q.sourceRef⟩

/-- The checks an admission has passed, and the tables it stores the manifest over. -/
theorem admitProvenance_cases {q : Admission} (h : admitProvenance env c q = .ok c') :
    (∀ r, c.revisions.lookup q.revisionId = some r → c.chunks.hasKey q.chunkId = false →
      r.status = .pending ∧ r.manifestFrozen = false) ∧
    (insertChunk c.chunks (admittedChunk env q)).lookup q.chunkId = some (admittedChunk env q) ∧
    ∃ documents, updateRevisionManifest env { c with
      documents
      revisions := insertRevision c.revisions
        (draftRevision q.revisionId q.tenantId q.documentId q.revisionNumber q.supersedesRevisionId)
      chunks := insertChunk c.chunks (admittedChunk env q) } q.revisionId q.finalizeRevision = .ok c' := by
  unfold admitProvenance at h
  simp only at h
  split at h
  · cases h
  · iterate 4
      split at h
      · cases h
    split at h
    · cases h
    · next hlate =>
      split at h
      · cases h
      obtain ⟨d, hd, h⟩ := bind_eq_ok.1 h
      have hfound := storeChunk_found hd
      cases storeChunk_cases hd
      refine ⟨fun r hr hkey => ?_, hfound, _, h⟩
      rw [hr] at hlate
      simpa [hkey] using hlate

/-- A chunk whose ordinal is free was not there under its id either. -/
theorem hasKey_of_found {t : Table Chunk} {k : Chunk} (hordinal : ∀ x ∈ t.rows, x.revisionId = k.revisionId →
    x.ordinal ≠ k.ordinal) (hfound : (insertChunk t k).lookup k.chunkId = some k) : t.hasKey k.chunkId = false := by
  rw [Bool.eq_false_iff]
  intro hkey
  obtain ⟨x, hx⟩ := Option.isSome_iff_exists.1 (Table.hasKey_iff.1 hkey)
  have hsame : (insertChunk t k).lookup k.chunkId = some x := by
    unfold insertChunk
    split
    · exact hx
    · rw [Table.lookup_insertOrIgnore, hx, Option.some_or]
  obtain rfl := Option.some.inj (hsame.symm.trans hfound)
  exact hordinal x (Table.lookup_mem hx) rfl rfl

/-- The next chunk of a plan after the entries, as the ledger sees it: it was an open revision, and what it holds now
is one entry more. -/
theorem admit_stored {db db' : Db} {q : Admission} {row : Revision} {chunk : List Char}
    (h : admitMemory env db q = .ok db') (hs : Stored env u db.core entries)
    (hrow : db.core.revisions.lookup (u.revisionId env) = some row)
    (hq : (q.tenantId, q.datasetId, q.revisionId, q.chunkId, q.chunkOrdinal, q.contentPayload) =
      (u.tenantId, u.datasetId, u.revisionId env, u.chunkId env entries.length, entries.length, String.ofList chunk)) :
    row.status = .pending ∧ row.manifestFrozen = false ∧
      Stored env u db'.core (entries ++ [(admissionId env q (nextRawLogId db.queue.rawLogs) "mutation", chunk)]) ∧
      ∃ row', db'.core.revisions.lookup (u.revisionId env) = some row' ∧
        row'.toRevisionIdentity = row.toRevisionIdentity ∧ row'.manifestFrozen = q.finalizeRevision ∧
        (row'.status ≠ .pending → row'.manifestFrozen = true) := by
  simp only [Prod.mk.injEq] at hq
  obtain ⟨htenant, hdataset, hR, hid, hordinal, htext⟩ := hq
  obtain ⟨-, core, hc, -, hconflict, hdb⟩ := admitMemory_rows h
  obtain ⟨hlate, hfound, documents, hc⟩ := admitProvenance_cases hc
  have hfree : ∀ x ∈ db.core.chunks.rows, x.revisionId = (admittedChunk env q).revisionId →
      x.ordinal ≠ (admittedChunk env q).ordinal := by
    intro x hx hxR
    have := (hs.ordinal hx (hxR.trans hR)).1
    show x.ordinal ≠ q.chunkOrdinal
    omega
  have hkey := hasKey_of_found hfree hfound
  have hrow' : db.core.revisions.lookup q.revisionId = some row := by rw [hR]; exact hrow
  obtain ⟨hpending, hopen⟩ := hlate row hrow' hkey
  have hframe := updateRevisionManifest_frame hc
  obtain ⟨row', hlook, hidentity, hfrozen, hstatus⟩ := updateRevisionManifest_open hc
    (insertRevision_lookup (x := draftRevision ..) hrow') hpending hopen
  refine ⟨hpending, hopen, ⟨?_, ?_⟩, row', ?_, hidentity, hfrozen, fun hne => hfrozen.trans (hstatus hne)⟩
  · have hchunks : db'.core.chunks.rows = db.core.chunks.rows ++ [admittedChunk env q] := by
      rw [hdb]
      show core.chunks.rows = _
      rw [hframe.chunks]
      exact insertChunk_fresh hfree hkey
    have hmanifest : db'.core.manifest (u.revisionId env) = db.core.manifest (u.revisionId env) ++ [admittedChunk env q] := by
      unfold Core.manifest Table.select
      rw [hchunks, List.filter_append]
      congr 1
      exact List.filter_eq_self.2 fun x hx => by rw [List.mem_singleton.1 hx]; exact decide_eq_true hR
    rw [hmanifest, List.map_append, hs.chunks, List.length_append, List.length_singleton, List.range_succ,
      List.map_append, List.map_singleton, List.map_singleton]
    show _ ++ [(q.chunkId, q.chunkOrdinal)] = _
    rw [hid, hordinal]
  · have hcore : core.mutations = db.core.mutations := hframe.mutations
    have hmut : db'.core.mutations =
        db.core.mutations.insertOrIgnore (admittedMutation env q (nextRawLogId db.queue.rawLogs)) := by rw [hdb, ← hcore]
    have hnew : db.core.mutations.lookup (admittedMutation env q (nextRawLogId db.queue.rawLogs)).mutationId = none := by
      rw [Table.lookup_eq_none]
      intro x hx hxid
      rw [hcore] at hconflict
      have := Table.anyWhere_eq_false.1 hconflict x hx
      simp only [Bool.or_eq_false_iff, decide_eq_false_iff_not] at this
      exact this.1.1 hxid
    have hmR : (admittedMutation env q (nextRawLogId db.queue.rawLogs)).revisionId = u.revisionId env := hR
    rw [payloads_insert hmut hnew, if_pos hmR, List.map_append, hs.payloads, List.zipIdx_append, List.map_append]
    simp only [List.zipIdx_singleton, List.map_singleton, Nat.zero_add, Upload.payloadRow]
    show _ ++ [(_, q.tenantId, q.datasetId, q.chunkId, q.contentPayload)] = _
    rw [htenant, hdataset, hid, htext]
    rfl
  · rw [hdb, ← hR]
    exact hlook

end Mesa.Documents
