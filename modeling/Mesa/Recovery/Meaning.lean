/-
What a storage root says: the bytes of its files and the contents of its databases, apart from the
files that belong to a lock, a manifest or an open database. Reading a database leaves that as it
is, and a folder that passed validation attests it.
-/
import Mesa.Foundation.Result
import Mesa.Recovery.Snapshot

namespace Mesa.Recovery

open Mesa.Foundation

variable {B X H : Type} {E : Engine B X H} {t u v : Folder B} {p q : Path}

/-! ## Writes to a folder -/

theorem Folder.file_put (t : Folder B) (p : Path) (b : B) (q : Path) :
    (t.put p b).file q = if p = q then some b else t.file q := by
  unfold Folder.file Folder.put
  rw [Table.lookup_upsert]
  by_cases h : p = q
  · rw [if_pos (show Keyed.key (⟨p, .file b⟩ : Entry B) = q from h), if_pos h]
    cases t.lookup q <;> rfl
  · rw [if_neg (show ¬ Keyed.key (⟨p, .file b⟩ : Entry B) = q from h), if_neg h]

theorem Folder.file_leave (t : Folder B) (p : Path) (o : Option B) (q : Path) :
    (t.leave p o).file q = if p = q then o else t.file q := by
  cases o with
  | some b => exact t.file_put p b q
  | none =>
    have hlookup := Table.lookup_delete_key (t := t) (k := q) (p := fun e => decide (e.path = p)) p fun _ => rfl
    change ((t.delete fun e => decide (e.path = p)).lookup q).bind _ = _
    rw [hlookup]
    by_cases h : p = q
    · rw [if_pos h, if_pos h]; rfl
    · rw [if_neg h, if_neg h]; rfl

theorem Folder.file_foldl_folder (q : Path) : ∀ (l : List Path) (t : Folder B),
    Folder.file (l.foldl (fun t q => t.insertOrIgnore ⟨q, .folder⟩) t) q = t.file q
  | [], _ => rfl
  | p :: l, t => by
    rw [List.foldl_cons, Folder.file_foldl_folder q l]
    unfold Folder.file
    rw [Table.lookup_insertOrIgnore]
    cases t.lookup q with
    | some e => rfl
    | none => by_cases h : Keyed.key (⟨p, .folder⟩ : Entry B) = q <;> simp [h, Node.bytes]

/-- Making folders changes no file. -/
@[simp] theorem Folder.file_mkdirs (t : Folder B) (p q : Path) : (t.mkdirs p).file q = t.file q :=
  Folder.file_foldl_folder q _ t

theorem Folder.file_of_mem {e : Entry B} (he : e ∈ t.rows) : t.file e.path = e.node.bytes := by
  unfold Folder.file
  rw [show t.lookup e.path = some e from Table.lookup_of_mem he]
  rfl

theorem Folder.exists_of_file {b : B} (h : t.file p = some b) : ∃ e ∈ t.rows, e.path = p ∧ e.node = .file b := by
  obtain ⟨e, he, hb⟩ := Option.bind_eq_some_iff.1 h
  refine ⟨e, Table.lookup_mem he, Table.lookup_key he, ?_⟩
  cases hn : e.node with
  | file c => rw [hn] at hb; rw [Option.some.inj hb]
  | folder => rw [hn] at hb; cases hb
  | link => rw [hn] at hb; cases hb
  | special => rw [hn] at hb; cases hb

theorem Folder.mem_walk {e : Entry B} : e ∈ t.walk ↔ e ∈ t.rows := (orderBy_perm _ t.rows).mem_iff

theorem Folder.walk_nodup (t : Folder B) : (t.walk.map Entry.path).Nodup :=
  ((orderBy_perm _ t.rows).map Entry.path).nodup_iff.2 t.unique

/-! ## Side files -/

@[simp] theorem Path.isSide_side (p : Path) (s : Side) : (p.side s).isSide = true := by
  unfold Path.isSide
  cases s with
  | wal => exact decide_eq_true (.inl (List.suffix_append ..))
  | shm => exact decide_eq_true (.inr (List.suffix_append ..))

theorem Path.side_inj {s s' : Side} (h : p.side s = q.side s') : p = q ∧ s = s' := by
  have hfolders : (p.side s).folders = (q.side s').folders := congrArg Path.folders h
  have htext : p.name.text ++ s.ending = q.name.text ++ s'.ending := congrArg (fun x : Path => x.name.text) h
  have hlength : s.ending.length = s'.ending.length := by cases s <;> cases s' <;> rfl
  obtain ⟨hname, hending⟩ := List.append_inj' htext hlength
  refine ⟨Path.ext hfolders (Part.ext hname), ?_⟩
  cases s <;> cases s' <;> first | rfl | exact absurd hending (by decide)

theorem Path.isSide_eq_true :
    p.isSide = true ↔ Side.ending .wal <:+ p.name.text ∨ Side.ending .shm <:+ p.name.text := by
  unfold Path.isSide
  rw [decide_eq_true_eq]

/-- No side file has the name of a manifest. -/
theorem Path.isSide_of_isManifest (h : p.isManifest = true) : p.isSide = false := by
  unfold Path.isManifest at h
  rw [decide_eq_true_eq] at h
  rw [← Bool.not_eq_true, Path.isSide_eq_true, h]
  unfold manifestName
  repeat rw [String.toList_ofList]
  decide

theorem Path.ne_side (h : q.isSide = false) (s : Side) : p.side s ≠ q := by
  rintro rfl
  rw [Path.isSide_side] at h
  cases h

/-- A connection changes only the side files of its database. -/
theorem Folder.file_opened (hq : ∀ s, p.side s ≠ q) : (t.opened E p).file q = t.file q := by
  unfold Folder.opened
  cases t.file p with
  | none => rfl
  | some b => rw [Folder.file_leave, if_neg (hq .shm), Folder.file_leave, if_neg (hq .wal)]

/-- Whichever database is opened, every database reads as it did before. -/
theorem Folder.content_opened (hE : E.Lawful) {b : B} (hb : t.file q = some b) :
    E.content b ((t.opened E p).file (q.side .wal)) = E.content b (t.file (q.side .wal)) := by
  by_cases hpq : p = q
  · subst hpq
    unfold Folder.opened
    rw [hb]
    have hne : p.side .shm ≠ p.side .wal := fun h => by cases (Path.side_inj h).2
    rw [Folder.file_leave, if_neg hne, Folder.file_leave, if_pos rfl, hE.peek_content]
  · rw [Folder.file_opened fun s h => hpq (Path.side_inj h).1]

/-! ## Folders that read alike -/

/-- The files of two folders are the same, side files apart, and their databases read the same. -/
structure Alike (E : Engine B X H) (t u : Folder B) : Prop where
  file : ∀ q, q.isSide = false → u.file q = t.file q
  content : ∀ q b, q.isSide = false → t.file q = some b →
    E.content b (u.file (q.side .wal)) = E.content b (t.file (q.side .wal))

theorem Alike.refl (E : Engine B X H) (t : Folder B) : Alike E t t := ⟨fun _ _ => rfl, fun _ _ _ _ => rfl⟩

theorem Alike.trans (h : Alike E t u) (h' : Alike E u v) : Alike E t v where
  file q hq := (h'.file q hq).trans (h.file q hq)
  content q b hq hb := (h'.content q b hq ((h.file q hq).trans hb)).trans (h.content q b hq hb)

theorem alike_opened (hE : E.Lawful) (p : Path) (t : Folder B) : Alike E t (t.opened E p) where
  file _ hq := Folder.file_opened fun s => Path.ne_side hq s
  content _ _ _ hb := Folder.content_opened hE hb

/-- What a file of a storage root says. -/
inductive Meaning (B X : Type)
  | bytes (b : B)
  | database (content : Option (Database X))

/-- The files that say nothing of their own. -/
def Path.omitted (p : Path) : Bool := p.skipped || p.isManifest

/-- What a storage root says. -/
def Folder.meaning (E : Engine B X H) (t : Folder B) (p : Path) : Option (Meaning B X) :=
  if p.omitted then none
  else (t.file p).map fun b => if E.isDatabase p then .database (E.content b (t.file (p.side .wal))) else .bytes b

theorem Path.not_isSide (h : p.omitted = false) : p.isSide = false := by
  unfold Path.omitted Path.skipped at h
  rw [Bool.or_eq_false_iff, decide_eq_false_iff_not, not_or] at h
  exact Bool.not_eq_true _ ▸ h.1.1

theorem Path.not_isManifest (h : p.omitted = false) : p.isManifest = false := (Bool.or_eq_false_iff.1 h).2

theorem Path.not_skipped (h : p.omitted = false) : p.skipped = false := (Bool.or_eq_false_iff.1 h).1

theorem Folder.meaning_omitted (h : p.omitted = true) : t.meaning E p = none := if_pos h

theorem Folder.meaning_eq (h : p.omitted = false) : t.meaning E p =
    (t.file p).map fun b => if E.isDatabase p then .database (E.content b (t.file (p.side .wal))) else .bytes b :=
  if_neg (by rw [h]; exact Bool.false_ne_true)

theorem Alike.meaning (h : Alike E t u) : u.meaning E = t.meaning E := by
  funext q
  cases ho : q.omitted with
  | true => rw [Folder.meaning_omitted ho, Folder.meaning_omitted ho]
  | false =>
    rw [Folder.meaning_eq ho, Folder.meaning_eq ho, h.file q (Path.not_isSide ho)]
    cases hb : t.file q with
    | none => rfl
    | some b => rw [Option.map_some, Option.map_some, h.content q b (Path.not_isSide ho) hb]

/-! ## What validation attests -/

/-- No node that a purge of this database protects is active. -/
def Database.PurgeSafe (db : Database X) : Prop :=
  ∀ records, db.purgeJournal = some records → ∀ r ∈ records, r.state ∈ protectedStates →
    ∃ targets, r.targets = some targets ∧ ∀ nodeId ∈ targets, ∀ nodes, db.nodes = some nodes →
      ∀ n, nodes.find? (fun n => n.id = nodeId ∧ n.agentId = r.agentId) = some n →
        n.invalidAt ≠ none ∧ n.deletedAt ≠ none ∧ n.purgeId = some r.purgeId

theorem of_forM {α ε : Type} {f : α → Except ε Unit} : ∀ {l : List α}, l.forM f = .ok () → ∀ a ∈ l, f a = .ok ()
  | [], _, _, ha => absurd ha List.not_mem_nil
  | a :: l, h, a', ha => by
    change (f a >>= fun _ => l.forM f) = _ at h
    obtain ⟨⟨⟩, hhead, hrest⟩ := bind_eq_ok.1 h
    rcases List.mem_cons.1 ha with rfl | ha
    · exact hhead
    · exact of_forM hrest a' ha

theorem purgeSafe_of_reconcile {db : Database X} {counts : PurgeCounts} (h : reconcilePurgeLedger db = .ok counts) :
    db.PurgeSafe := by
  intro records hrecords r hr hstate
  unfold reconcilePurgeLedger at h
  rw [hrecords] at h
  obtain ⟨verified, hverified, -⟩ := bind_eq_ok.1 h
  obtain ⟨n, -, hn⟩ := exists_of_mapM hverified r hr
  unfold reconcilePurge at hn
  cases htargets : r.targets with
  | none => rw [htargets] at hn; cases hn
  | some targets =>
    rw [htargets] at hn
    refine ⟨targets, rfl, fun nodeId hnode nodes hnodes row hrow => ?_⟩
    simp only [if_pos hstate] at hn
    obtain ⟨⟨⟩, hchecks, -⟩ := bind_eq_ok.1 hn
    have hcheck := of_forM hchecks nodeId hnode
    unfold checkTarget at hcheck
    rw [hnodes] at hcheck
    simp only [hrow] at hcheck
    split at hcheck
    · cases hcheck
    · next hsafe => simpa only [not_or, not_not] using hsafe

/-- What a validated folder attests: a manifest that it keeps to, names that are no secrets, and
listed databases that are intact and that keep what was purged. -/
structure Attested (E : Engine B X H) (t : Folder B) (manifest : Manifest H) : Prop where
  loaded : loadManifest E t = .ok manifest
  files : ∃ expected, expectedFrom [] manifest.files = .ok expected ∧
    ∀ q, q.isSide = false → q.isManifest = false →
      (t.file q).map (fun b => (E.size b, E.digest b)) = (recordOf expected q).map fun r => (r.size, r.sha256)
  names : ∀ q b, q.isSide = false → t.file q = some b → rejectSensitiveName E q = .ok ()
  databases : ∀ q ∈ manifest.sqlite.map Prod.fst, q.isSide = false → ∃ b db, t.file q = some b ∧
    E.content b (t.file (q.side .wal)) = some db ∧ db.integrityCheck = "ok" ∧ db.PurgeSafe

theorem Alike.loadManifest (h : Alike E t u) : loadManifest E u = loadManifest E t := by
  have hfile := h.file manifestPath (Path.isSide_of_isManifest (decide_eq_true rfl))
  unfold Recovery.loadManifest
  rw [hfile]

/-- Opening databases does not end what a folder attests. -/
theorem Attested.alike {manifest : Manifest H} (ha : Attested E t manifest) (h : Alike E t u) :
    Attested E u manifest where
  loaded := h.loadManifest.trans ha.loaded
  files := by
    obtain ⟨expected, hexpected, hfiles⟩ := ha.files
    exact ⟨expected, hexpected, fun q hside hmanifest => by rw [h.file q hside]; exact hfiles q hside hmanifest⟩
  names q b hside hb := ha.names q b hside ((h.file q hside).symm.trans hb)
  databases q hq hside := by
    obtain ⟨b, db, hb, hdb, hok⟩ := ha.databases q hq hside
    exact ⟨b, db, (h.file q hside).trans hb, (h.content q b hside hb).trans hdb, hok⟩

end Mesa.Recovery
