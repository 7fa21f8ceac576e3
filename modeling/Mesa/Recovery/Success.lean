/-
A backup and a restore that nothing disturbs return. A storage root without secret names and links,
whose databases are intact, can be backed up; the backup can be restored; and what is restored says
what the root says and can be backed up again.
-/
import Mesa.Foundation.Rewriting
import Mesa.Recovery.Restores

namespace Mesa.Recovery

open Mesa.Foundation

variable {B X H : Type} {E : Engine B X H} {t u v w : Folder B} {p q : Path} {d d₀ : Disk B} {j : Job B}
  {R S : Folder B → Prop} {done rest : List (Entry B)} {e : Entry B} {place : Place} {manifest : Manifest H}

/-! ## Paths of records -/

theorem Part.of?_text (n : Part) : Part.of? n.text = some n := dif_pos n.proper

theorem Path.ofParts_parts (p : Path) : Path.ofParts p.parts = some p := by
  unfold Path.ofParts Path.parts
  rw [List.getLast?_concat, List.dropLast_concat]
  rfl

theorem mapM_of?_text : ∀ l : List Part, (l.map Part.text).mapM Part.of? = some l
  | [] => rfl
  | n :: l => by
    rw [List.map_cons, List.mapM_cons, Part.of?_text, mapM_of?_text l]
    rfl

/-- A path is read back from its text. -/
theorem Path.ofText_asPosix (p : Path) : Path.ofText p.asPosix = some p := by
  have hproper : ∀ w ∈ p.parts.map Part.text, w ≠ [] ∧ ∀ c ∈ w, decide (c = '/') = false := by
    intro w hw
    obtain ⟨n, -, rfl⟩ := List.mem_map.1 hw
    refine ⟨n.proper.1, fun c hc => decide_eq_false ?_⟩
    rintro rfl
    exact n.proper.2.1 hc
  have hwords := words_intercalate (p := fun c => decide (c = '/')) (s := '/') (by decide) hproper
  have hfilter : ((p.asPosix.splitOnP (· = '/')).filter fun w => w ≠ [] ∧ w ≠ ['.']) = p.parts.map Part.text := by
    have hsplit : ((p.asPosix.splitOnP (· = '/')).filter fun w => w ≠ [] ∧ w ≠ ['.']) =
        (words (fun c => decide (c = '/')) p.asPosix).filter fun w => w ≠ ['.'] := by
      rw [words, List.filter_filter]
      refine List.filter_congr fun w _ => ?_
      cases w <;> simp
    rw [hsplit, Path.asPosix, hwords, List.filter_eq_self]
    intro w hw
    obtain ⟨n, -, rfl⟩ := List.mem_map.1 hw
    exact decide_eq_true n.proper.2.2.1
  have hhead : p.asPosix.head? ≠ some '/' := by
    have hne : p.parts ≠ [] := by simp [Path.parts]
    obtain ⟨n, l, hl⟩ := List.exists_cons_of_ne_nil hne
    intro hhead
    have hfirst : n.text.head? = some '/' := by
      unfold Path.asPosix at hhead
      rw [hl, List.map_cons] at hhead
      cases l with
      | nil => simpa using hhead
      | cons n' l =>
        rw [List.map_cons, List.intercalate_cons_cons] at hhead
        rwa [List.append_assoc, List.head?_append_of_ne_nil _ n.proper.1] at hhead
    exact n.proper.2.1 (List.mem_of_mem_head? hfirst)
  unfold Path.ofText
  rw [if_neg hhead, hfilter, mapM_of?_text]
  exact Path.ofParts_parts p

/-! ## Folders that are walked to their end -/

theorem forM_eq_ok {α ε : Type} {f : α → Except ε Unit} : ∀ {l : List α}, l.forM f = .ok () ↔ ∀ a ∈ l, f a = .ok ()
  | [] => ⟨fun _ _ h => absurd h List.not_mem_nil, fun _ => rfl⟩
  | a :: l => by
    change (f a >>= fun _ => l.forM f) = _ ↔ _
    rw [bind_eq_ok, List.forall_mem_cons, ← forM_eq_ok]
    exact ⟨fun ⟨_, ha, hl⟩ => ⟨ha, hl⟩, fun h => ⟨(), h.1, h.2⟩⟩

/-- The names that are refused are those of single parts. -/
theorem rejectSensitiveName_mono (h : rejectSensitiveName E p = .ok ()) (hsub : q.parts ⊆ p.parts) :
    rejectSensitiveName E q = .ok () := by
  unfold rejectSensitiveName at h ⊢
  rw [forM_eq_ok] at h ⊢
  intro n hn
  have hpart := h n (hsub hn)
  dsimp only at hpart ⊢
  split at hpart
  · cases hpart
  · next hname =>
    rw [if_neg hname]
    split at hpart
    · cases hpart
    · next hsuffix => rw [if_neg hsuffix]

theorem parts_of_mem_parents (h : q ∈ p.parents) : q.parts ⊆ p.parts := by
  obtain ⟨l, hl, hq⟩ := List.mem_filterMap.1 h
  obtain ⟨name, hlast, rfl⟩ := Option.map_eq_some_iff.1 hq
  have hparts : Path.parts ⟨l.dropLast, name⟩ = l := List.dropLast_append_getLast? name hlast
  rw [hparts]
  exact fun n hn => List.mem_append_left _ (((List.mem_inits ..).1 hl).subset hn)

/-- No entry stops the walk. -/
def Clean (E : Engine B X H) (t : Folder B) : Prop := ∀ q e, t.lookup q = some e → ∃ r, visitEntry E e = .ok r

theorem visitEntry_file {b : B} (hname : rejectSensitiveName E e.path = .ok ()) (hnode : e.node = .file b) :
    ∃ r, visitEntry E e = .ok r := by
  refine ⟨if e.path.isManifest then none else some (e.path, b), ?_⟩
  unfold visitEntry
  rw [hname, hnode]
  rfl

theorem Clean.put {b : B} (h : Clean E t) (hp : rejectSensitiveName E p = .ok ()) : Clean E (t.put p b) := by
  intro q e he
  unfold Folder.put at he
  rw [Table.lookup_upsert] at he
  split at he
  · next hpq =>
    obtain rfl : p = q := hpq
    cases hlookup : t.lookup p with
    | none =>
      rw [hlookup] at he
      cases he
      exact visitEntry_file (b := b) hp rfl
    | some x =>
      rw [hlookup] at he
      cases he
      have hpath : x.path = p := Table.lookup_key hlookup
      exact visitEntry_file (b := b) (show rejectSensitiveName E x.path = .ok () from hpath ▸ hp) rfl
  · exact h q e he

theorem Clean.leave {o : Option B} (h : Clean E t) (hp : rejectSensitiveName E p = .ok ()) : Clean E (t.leave p o) := by
  cases o with
  | some b => exact h.put hp
  | none =>
    intro q e he
    have hlookup := Table.lookup_delete_key (t := t) (k := q) (p := fun e => decide (e.path = p)) p fun _ => rfl
    rw [show (t.leave p none).lookup q = _ from hlookup] at he
    split at he
    · cases he
    · exact h q e he

theorem Clean.mkdirs (h : Clean E t) (hp : rejectSensitiveName E p = .ok ()) : Clean E (t.mkdirs p) := by
  intro q e he
  unfold Folder.mkdirs at he
  rw [Table.lookup_foldl_insertOrIgnore] at he
  rcases Option.or_eq_some_iff.1 he with he | ⟨-, he⟩
  · exact h q e he
  · obtain ⟨q', hfind, rfl⟩ := Option.map_eq_some_iff.1 he
    have hname := rejectSensitiveName_mono hp (parts_of_mem_parents (List.mem_of_find?_eq_some hfind))
    refine ⟨none, ?_⟩
    unfold visitEntry
    rw [hname]
    rfl

theorem Clean.opened (h : Clean E t) (hp : ∀ s, rejectSensitiveName E (p.side s) = .ok ()) :
    Clean E (t.opened E p) := by
  unfold Folder.opened
  cases t.file p with
  | none => exact h
  | some b => exact (h.leave (hp .wal)).leave (hp .shm)

theorem Clean.empty (E : Engine B X H) : Clean E (Table.empty : Folder B) := fun _ _ h => by cases h

theorem Clean.name {b : B} (h : Clean E t) (hb : t.file p = some b) : rejectSensitiveName E p = .ok () := by
  obtain ⟨e, he, rfl, -⟩ := Folder.exists_of_file hb
  obtain ⟨r, hr⟩ := h e.path e (Table.lookup_of_mem he)
  exact (visitEntry_eq_ok hr).1

theorem Clean.iterFiles (h : Clean E t) : ∃ files, iterFiles E t = .ok files := by
  have hvisits : ∀ e ∈ t.walk, ∃ r, visitEntry E e = .ok r ∧ True := fun e he =>
    (h e.path e (Table.lookup_of_mem (Folder.mem_walk.1 he))).imp fun r hr => ⟨hr, trivial⟩
  obtain ⟨visits, hvisits, -⟩ := mapM_forall₂ (R := fun _ _ => True) hvisits
  refine ⟨visits.filterMap id, ?_⟩
  unfold Recovery.iterFiles
  rw [hvisits]
  rfl

/-! ## Databases that reading leaves alone -/

/-- What else the code relies on when nothing fails: a readable database can be backed up, a second
connection leaves the side files as the first one did, and the manifest has a lower-case name. -/
structure Engine.Steady (E : Engine B X H) : Prop where
  backup_some : ∀ b w, E.content b w ≠ none → E.backup b w ≠ none
  peek_peek : ∀ b w s, E.peek b (E.peek b w s).1 (E.peek b w s).2 = E.peek b w s
  lower_manifest : E.lower manifestName = manifestName

/-- Opening the database again changes nothing. -/
def Settled (E : Engine B X H) (t : Folder B) (p : Path) : Prop :=
  ∀ b, t.file p = some b →
    E.peek b (t.file (p.side .wal)) (t.file (p.side .shm)) = (t.file (p.side .wal), t.file (p.side .shm))

theorem Settled.congr (h : Settled E t p) (hp : u.file p = t.file p) (hs : ∀ s, u.file (p.side s) = t.file (p.side s)) :
    Settled E u p := by
  intro b hb
  rw [hs, hs]
  exact h b (hp.symm.trans hb)

theorem Settled.file_opened (h : Settled E t p) (q : Path) : (t.opened E p).file q = t.file q := by
  unfold Folder.opened
  cases hb : t.file p with
  | none => rfl
  | some b =>
    dsimp only
    rw [h b hb, Folder.file_leave, Folder.file_leave]
    by_cases hshm : p.side .shm = q
    · rw [if_pos hshm, ← hshm]
    · rw [if_neg hshm]
      by_cases hwal : p.side .wal = q
      · rw [if_pos hwal, ← hwal]
      · rw [if_neg hwal]

theorem Path.side_ne_self (p : Path) (s : Side) : p.side s ≠ p := by
  intro h
  have hlength := congrArg (fun x : Path => x.name.text.length) h
  change (p.name.text ++ s.ending).length = p.name.text.length at hlength
  rw [List.length_append] at hlength
  cases s <;> simp [Side.ending] at hlength

/-- The first connection settles a database. -/
theorem settled_opened (hS : E.Steady) (t : Folder B) (p : Path) : Settled E (t.opened E p) p := by
  intro b hb
  rw [Folder.file_opened fun s => Path.side_ne_self p s] at hb
  unfold Folder.opened
  rw [hb]
  dsimp only
  have hne : p.side .shm ≠ p.side .wal := fun h => by cases (Path.side_inj h).2
  rw [Folder.file_leave, if_neg hne, Folder.file_leave, if_pos rfl, Folder.file_leave, if_pos rfl, hS.peek_peek]

/-- The files are those of `v`, and no entry stops the walk. -/
structure Same (E : Engine B X H) (v w : Folder B) : Prop where
  file : ∀ q, w.file q = v.file q
  clean : Clean E w

theorem Same.readDatabase (h : Same E v w) (p : Path) : readDatabase E w p = readDatabase E v p := by
  unfold Recovery.readDatabase
  rw [h.file, h.file]

/-- A database that validation accepts and leaves alone. -/
structure Sound (E : Engine B X H) (v : Folder B) (p : Path) : Prop where
  settled : Settled E v p
  sides : ∀ s, rejectSensitiveName E (p.side s) = .ok ()
  plain : p.isManifest = false
  intact : ∃ db counts, readDatabase E v p = some db ∧ db.integrityCheck = "ok" ∧ reconcilePurgeLedger db = .ok counts

theorem Same.opened (h : Same E v w) (hp : Sound E v p) : Same E v (w.opened E p) where
  file q := by
    rw [(hp.settled.congr (h.file p) fun s => h.file _).file_opened q, h.file]
  clean := h.clean.opened hp.sides

/-! ## Validation that accepts -/

/-- The folder keeps to the manifest that it holds. -/
structure Valid (E : Engine B X H) (v : Folder B) (manifest : Manifest H) : Prop where
  loaded : loadManifest E v = .ok manifest
  files : ∃ expected, expectedFrom [] manifest.files = .ok expected ∧
    (∀ q, q ∈ expected.map Prod.fst ↔ (∃ b, v.file q = some b) ∧ q.isManifest = false) ∧
    ∀ q b, v.file q = some b → q.isManifest = false →
      (recordOf expected q).map (fun r => (r.size, r.sha256)) = some (E.size b, E.digest b)
  databases : ∀ p ∈ manifest.sqlite.map Prod.fst, Sound E v p

theorem Path.isManifest_side (p : Path) (s : Side) : (p.side s).isManifest = false := by
  rw [← Bool.not_eq_true]
  intro h
  have hside := Path.isSide_of_isManifest h
  rw [Path.isSide_side] at hside
  cases hside

theorem Sound.congr (h : Sound E v p) (hfile : ∀ q, q.isManifest = false → w.file q = v.file q) : Sound E w p where
  settled := h.settled.congr (hfile p h.plain) fun s => hfile _ (Path.isManifest_side p s)
  sides := h.sides
  plain := h.plain
  intact := by
    obtain ⟨db, counts, hdb, hok⟩ := h.intact
    refine ⟨db, counts, ?_, hok⟩
    unfold readDatabase at hdb ⊢
    rwa [hfile p h.plain, hfile _ (Path.isManifest_side p .wal)]

/-- Manifests in folders of the folder are never looked at. -/
theorem Valid.congr (h : Valid E v manifest) (hmanifest : w.file manifestPath = v.file manifestPath)
    (hfile : ∀ q, q.isManifest = false → w.file q = v.file q) : Valid E w manifest where
  loaded := by
    rw [← h.loaded]
    unfold Recovery.loadManifest
    rw [hmanifest]
  files := by
    obtain ⟨expected, hexpected, hpaths, hrecords⟩ := h.files
    refine ⟨expected, hexpected, fun q => ?_, fun q b hb hq => hrecords q b ((hfile q hq).symm.trans hb) hq⟩
    rw [hpaths q]
    exact and_congr_left fun hq => by rw [hfile q hq]
  databases p hp := (h.databases p hp).congr hfile

theorem Valid.same (h : Valid E v manifest) (hw : Same E v w) : Valid E w manifest :=
  h.congr (hw.file _) fun q _ => hw.file q

theorem Valid.verifyHashes [DecidableEq H] (h : Valid E v manifest) (hc : Clean E v) :
    verifyHashes E v manifest = .ok () := by
  obtain ⟨expected, hexpected, hpaths, hrecords⟩ := h.files
  obtain ⟨actual, hactual⟩ := hc.iterFiles
  have hmem : ∀ q b, (q, b) ∈ actual ↔ v.file q = some b ∧ q.isManifest = false := mem_iterFiles hactual
  unfold Recovery.verifyHashes
  rw [hexpected, hactual]
  have hsets : expected.map Prod.fst ⊆ actual.map Prod.fst ∧ actual.map Prod.fst ⊆ expected.map Prod.fst := by
    constructor
    · intro q hq
      obtain ⟨⟨b, hb⟩, hq⟩ := (hpaths q).1 hq
      exact List.mem_map.2 ⟨(q, b), (hmem q b).2 ⟨hb, hq⟩, rfl⟩
    · intro q hq
      obtain ⟨⟨q', b⟩, hx, rfl⟩ := List.mem_map.1 hq
      obtain ⟨hb, hq⟩ := (hmem q' b).1 hx
      exact (hpaths q').2 ⟨⟨b, hb⟩, hq⟩
  refine (if_pos hsets).trans (forM_eq_ok.2 fun x hx => ?_)
  obtain ⟨hb, hq⟩ := (hmem x.1 x.2).1 hx
  exact if_pos (hrecords x.1 x.2 hb hq)

/-- A folder of the disk with the files of `v`. -/
def Holding (E : Engine B X H) (place : Place) (v : Folder B) (d : Disk B) : Prop := ∃ w, d place = some w ∧ Same E v w

theorem connect_returns (hp : Sound E v p) : Durable.Returns (Holding E place v) (connect E place p)
    fun db d => db = readDatabase E v p ∧ Holding E place v d := by
  refine Durable.Returns.bind_read fun d => ?_
  refine Durable.Returns.assume (fun s hs => (hs.1 ▸ hs.2 : Holding E place v d)) fun hd => ?_
  obtain ⟨w, hw, hsame⟩ := hd
  refine Durable.Returns.bind (Q := fun _ => Holding E place v) (Durable.Returns.write fun s hs => ?_) fun _ => ?_
  · rw [hs.1, hw]
    exact ⟨w.opened E p, Function.update_self .., hsame.opened hp⟩
  · refine Durable.Returns.pure fun s hs => ⟨?_, hs⟩
    rw [hw, ← hsame.readDatabase]
    rfl

theorem sqliteIntegrity_returns (hp : Sound E v p) : Durable.Returns (Holding E place v) (sqliteIntegrity E place p)
    fun result d => result = "ok" ∧ Holding E place v d := by
  obtain ⟨db, counts, hdb, hok, -⟩ := hp.intact
  refine Durable.Returns.bind (connect_returns hp) fun db' => ?_
  refine Durable.Returns.assume (fun _ hs => hs.1) fun hdb' => ?_
  rw [hdb', hdb]
  exact Durable.Returns.pure fun _ hs => ⟨hok, hs.2⟩

theorem alembicVersion_returns (hp : Sound E v p) : Durable.Returns (Holding E place v) (alembicVersion E place p)
    fun _ => Holding E place v :=
  Durable.Returns.bind (connect_returns hp) fun _ => Durable.Returns.pure fun _ hs => hs.2

theorem receipts_returns : ∀ {l : List Path}, (∀ p ∈ l, Sound E v p) →
    Durable.Returns (Holding E place v) (receipts E place l) fun _ => Holding E place v
  | [], _ => Durable.Returns.pure fun _ hs => hs
  | p :: l, hl => by
    obtain ⟨hp, hrest⟩ := List.forall_mem_cons.1 hl
    refine Durable.Returns.bind (sqliteIntegrity_returns hp) fun _ => ?_
    refine Durable.Returns.bind ((alembicVersion_returns hp).pre fun _ hs => hs.2) fun _ => ?_
    exact Durable.Returns.bind (receipts_returns hrest) fun _ => Durable.Returns.pure fun _ hs => hs

theorem reports_returns : ∀ {l : List Path}, (∀ p ∈ l, Sound E v p) →
    Durable.Returns (Holding E place v) (reports E place l) fun _ => Holding E place v
  | [], _ => Durable.Returns.pure fun _ hs => hs
  | p :: l, hl => by
    obtain ⟨hp, hrest⟩ := List.forall_mem_cons.1 hl
    obtain ⟨db, counts, hdb, -, hcounts⟩ := hp.intact
    refine Durable.Returns.bind (sqliteIntegrity_returns hp) fun integrity => ?_
    refine Durable.Returns.assume (fun _ hs => hs.1) fun hok => ?_
    rw [if_pos hok]
    refine Durable.Returns.bind ((alembicVersion_returns hp).pre fun _ hs => hs.2) fun _ => ?_
    refine Durable.Returns.bind (connect_returns hp) fun db' => ?_
    refine Durable.Returns.assume (fun _ hs => hs.1) fun hdb' => ?_
    rw [hdb', hdb]
    dsimp only
    rw [hcounts]
    refine Durable.Returns.bind (Q := fun _ => Holding E place v) (Durable.Returns.pure fun _ hs => hs.2) fun _ => ?_
    exact Durable.Returns.bind (reports_returns hrest) fun _ => Durable.Returns.pure fun _ hs => hs

theorem validateSnapshot_returns [DecidableEq H] (hv : Valid E v manifest) :
    Durable.Returns (Holding E place v) (validateSnapshot E place) fun _ => Holding E place v := by
  refine Durable.Returns.bind_read fun d => ?_
  refine Durable.Returns.assume (fun s hs => (hs.1 ▸ hs.2 : Holding E place v d)) fun hd => ?_
  refine Durable.Returns.pre ?_ fun _ hs => hs.2
  obtain ⟨w, hw, hsame⟩ := hd
  have hvalid := hv.same hsame
  rw [hw]
  dsimp only
  rw [hvalid.loaded]
  refine Durable.Returns.bind (Q := fun m d => m = manifest ∧ Holding E place v d)
    (Durable.Returns.pure fun _ hs => ⟨rfl, hs⟩) fun m => ?_
  refine Durable.Returns.assume (fun _ hs => hs.1) fun hm => ?_
  rw [hm, hvalid.verifyHashes hsame.clean]
  refine Durable.Returns.bind (Q := fun _ => Holding E place v) (Durable.Returns.pure fun _ hs => hs.2) fun _ => ?_
  exact Durable.Returns.bind (reports_returns hv.databases) fun _ => Durable.Returns.pure fun _ hs => hs

end Mesa.Recovery
