/-
The round trip: a storage root is backed up, the backup is restored, and what is restored says what
the root says, attests the manifest and can be backed up in its turn.
-/
import Mesa.Recovery.Success

namespace Mesa.Recovery

open Mesa.Foundation

variable {B X H : Type} {E : Engine B X H} {t u v w : Folder B} {p q : Path} {d d₀ : Disk B} {j : Job B}
  {R S : Folder B → Prop} {done rest : List (Entry B)} {e : Entry B} {env : Env B} {manifest : Manifest H}

/-! ## Storage roots -/

/-- Nothing outside of a call fails. -/
structure Env.Calm (env : Env B) : Prop where
  lock : env.lock = none
  prepare : env.prepareFails = none
  copy : ∀ p, env.copyFails p = none
  sync : ∀ p, env.syncFails p = none
  replace : env.replaceFails = none
  folderSync : env.folderSyncFails = none

/-- A storage root without secret names and links, with a database, all databases being intact. -/
structure Sane (E : Engine B X H) (t : Folder B) : Prop where
  clean : Clean E t
  sides : ∀ p ∈ sqliteFiles E t, ∀ s, rejectSensitiveName E (p.side s) = .ok ()
  databases : ∀ p ∈ sqliteFiles E t, ∃ db counts, readDatabase E t p = some db ∧ db.integrityCheck = "ok" ∧
    reconcilePurgeLedger db = .ok counts
  canonical : sqliteFiles E t ≠ []

theorem mem_sqliteFiles_iff : q ∈ sqliteFiles E t ↔
    q.omitted = false ∧ E.isDatabase q = true ∧ ∃ b, t.file q = some b := by
  constructor
  · intro h
    obtain ⟨e, he, rfl⟩ := List.mem_map.1 h
    obtain ⟨hwalk, hfile⟩ := List.mem_filter.1 he
    simp only [Bool.and_eq_true, Bool.not_eq_true'] at hfile
    obtain ⟨⟨⟨hbytes, hmanifest⟩, hskipped⟩, hdb⟩ := hfile
    refine ⟨by rw [Path.omitted, hskipped, hmanifest]; rfl, hdb, ?_⟩
    rw [Folder.file_of_mem (Folder.mem_walk.1 hwalk)]
    exact Option.isSome_iff_exists.1 hbytes
  · rintro ⟨ho, hdb, b, hb⟩
    refine mem_sqliteFiles (c := E.content b (t.file (q.side .wal))) ?_
    rw [Folder.meaning_eq ho, hb, Option.map_some, if_pos hdb]

theorem meaning_database (h : q ∈ sqliteFiles E t) : t.meaning E q = some (.database (readDatabase E t q)) := by
  obtain ⟨ho, hdb, b, hb⟩ := mem_sqliteFiles_iff.1 h
  rw [Folder.meaning_eq ho, readDatabase, hb, Option.map_some, if_pos hdb, Option.bind_some]

/-- What a root says decides which databases it has, and what they read. -/
theorem databases_of_meaning (h : u.meaning E = t.meaning E) :
    (q ∈ sqliteFiles E u ↔ q ∈ sqliteFiles E t) ∧ (q ∈ sqliteFiles E t → readDatabase E u q = readDatabase E t q) := by
  have hiff : q ∈ sqliteFiles E u ↔ q ∈ sqliteFiles E t := by
    constructor
    · intro hq
      exact mem_sqliteFiles ((congrFun h q).symm.trans (meaning_database hq))
    · intro hq
      exact mem_sqliteFiles ((congrFun h q).trans (meaning_database hq))
  refine ⟨hiff, fun hq => ?_⟩
  have heq := (meaning_database (hiff.2 hq)).symm.trans ((congrFun h q).trans (meaning_database hq))
  exact Meaning.database.inj (Option.some.inj heq)

theorem Sane.of_meaning (ht : Sane E t) (h : u.meaning E = t.meaning E) (hc : Clean E u) : Sane E u where
  clean := hc
  sides p hp := ht.sides p ((databases_of_meaning h).1.1 hp)
  databases p hp := by
    obtain ⟨db, counts, hdb, hok⟩ := ht.databases p ((databases_of_meaning h).1.1 hp)
    exact ⟨db, counts, ((databases_of_meaning h).2 ((databases_of_meaning h).1.1 hp)).trans hdb, hok⟩
  canonical hnil := by
    obtain ⟨p, l, hl⟩ := List.exists_cons_of_ne_nil ht.canonical
    have hp : p ∈ sqliteFiles E u := (databases_of_meaning h).1.2 (hl ▸ List.mem_cons_self)
    rw [hnil] at hp
    cases hp

/-! ## The steps of a call that nothing disturbs -/

theorem change_returns {f : Folder B → Folder B} (hf : ∀ u, R u → S (f u)) :
    Durable.Returns (j.Working E R) (change j.staging f) fun _ => j.Working E S :=
  (working_change (G := fun _ => False) hf).returns fun _ _ => ⟨(), rfl⟩

theorem failing_returns {P : Disk B → Prop} {o : Option String} (ho : o = none) :
    Durable.Returns P (failing o) fun _ => P := by
  rw [ho]
  exact Durable.Returns.pure fun _ => id

theorem copyFile_returns {b : B} (hcalm : env.Calm) (h : ∀ u, R u → S ((u.put p (env.torn p)).put p b)) :
    Durable.Returns (j.Working E R) (copyFile env j.staging p b) fun _ => j.Working E S := by
  refine Durable.Returns.bind (change_returns (S := fun u => ∃ v, R v ∧ u = v.put p (env.torn p)) fun u hu => ?_)
    fun _ => Durable.Returns.bind (failing_returns (hcalm.copy p)) fun _ => change_returns ?_
  · exact ⟨u, hu, rfl⟩
  · rintro u ⟨v, hv, rfl⟩
    exact h v hv

/-- The entries in `done` are copied, and their databases are settled. -/
structure Fetched (E : Engine B X H) (t : Folder B) (done : List (Entry B)) (u : Folder B) : Prop where
  copying : Copying E t done u
  clean : Clean E u
  settled : ∀ q ∈ done.map Entry.path, q ∈ sqliteFiles E t → Settled E u q

theorem Fetched.skip (h : Fetched E t done u) (he : t.file e.path = none ∨ e.path.omitted = true) :
    Fetched E t (done ++ [e]) u where
  copying := h.copying.skip he
  clean := h.clean
  settled q hq hdb := by
    rcases mem_snoc.1 hq with hq | rfl
    · exact h.settled q hq hdb
    · obtain ⟨ho, -, b, hb⟩ := mem_sqliteFiles_iff.1 hdb
      rcases he with he | he
      · cases he.symm.trans hb
      · cases he.symm.trans ho

/-- A database among those that are copied keeps its files when another file is written. -/
theorem Settled.put {b : B} (h : Settled E u q) (hp : p.omitted = false) (hq : p ≠ q)
    (hfile : ∀ r, v.file r = if p = r then some b else u.file r) : Settled E v q := by
  refine h.congr ((hfile q).trans (if_neg hq)) fun s => (hfile _).trans (if_neg fun heq => ?_)
  exact Path.ne_side (Path.not_isSide hp) s heq.symm

theorem copySqlite_returns (hE : E.Lawful) (hS : E.Steady) (hcalm : env.Calm) (hsane : Sane E j.content)
    (hname : rejectSensitiveName E e.path = .ok ()) (hmem : e.path ∈ sqliteFiles E j.content)
    (hnew : e.path ∉ done.map Entry.path) :
    Durable.Returns (j.Working E (Fetched E j.content done)) (copySqlite E env (.at j.source) j.staging e.path)
      fun _ => j.Working E (Fetched E j.content (done ++ [e])) := by
  obtain ⟨ho, hdb, b₀, hb₀⟩ := mem_sqliteFiles_iff.1 hmem
  obtain ⟨db, counts, hread, hok, -⟩ := hsane.databases e.path hmem
  have hside := Path.not_isSide ho
  have hcontent : E.content b₀ (j.content.file (e.path.side .wal)) = some db := by
    rwa [readDatabase, hb₀, Option.bind_some] at hread
  refine Durable.Returns.bind_read fun d => ?_
  refine Durable.Returns.assume (fun s hs => (hs.1 ▸ hs.2 : j.Working E _ d)) fun hd => ?_
  obtain ⟨t, hsource, halike⟩ := hd.1.source
  have hsome : E.backup b₀ (t.file (e.path.side .wal)) ≠ none := by
    refine hS.backup_some _ _ ?_
    rw [halike.content _ _ hside hb₀, hcontent]
    exact Option.some_ne_none db
  obtain ⟨b, hb⟩ := Option.ne_none_iff_exists'.1 hsome
  have hbackup : ((d (.at j.source)).bind fun t => (t.file e.path).bind fun b =>
      E.backup b (t.file (e.path.side .wal))) = some b := by
    rw [hsource, Option.bind_some, halike.file _ hside, hb₀, Option.bind_some, hb]
  have hcopy : E.content b none = some db :=
    (hE.backup_content hb).trans ((halike.content _ _ hside hb₀).trans hcontent)
  refine Durable.Returns.bind (Q := fun _ => j.Working E (Fetched E j.content done)) ?_ fun _ => ?_
  · exact ((working_source (G := fun _ => False) hE).returns fun _ _ => ⟨_, rfl⟩).pre fun _ hs => hs.2
  rw [hbackup]
  refine Durable.Returns.bind (copyFile_returns hcalm (S := fun u => Clean E u ∧ ∃ v, Fetched E j.content done v ∧
    ∀ q, u.file q = if e.path = q then some b else v.file q) fun u hu => ?_) fun _ => ?_
  · refine ⟨(hu.clean.put hname).put hname, u, hu, fun q => ?_⟩
    rw [Folder.file_put, Folder.file_put]
    split <;> rfl
  refine Durable.Returns.bind (Q := fun integrity d => integrity = "ok" ∧
    j.Working E (Fetched E j.content (done ++ [e])) d) ?_ fun integrity => ?_
  · refine Durable.Returns.bind (((working_connect (G := fun _ => False)
      (S := fun db' u => db' = some db ∧ Fetched E j.content (done ++ [e]) u) fun u hu => ?_)).returns
      fun _ _ => ⟨_, rfl⟩) fun db' => ?_
    · obtain ⟨hclean, v, hv, hfile⟩ := hu
      have hwal : u.file (e.path.side .wal) = none := by
        rw [hfile, if_neg (Path.side_ne_self _ _).symm]
        exact hv.copying.unopened _ hnew
      refine ⟨?_, ?_, hclean.opened (hsane.sides _ hmem), fun q hq hqdb => ?_⟩
      · rw [readDatabase, hfile, if_pos rfl, Option.bind_some, hwal, hcopy]
      · refine Copying.opened hE (hv.copying.put hnew ho hb₀ ?_ hfile) (mem_snoc.2 (.inr rfl))
        rw [if_pos hdb, hcopy, hcontent]
      · by_cases hqe : e.path = q
        · rw [← hqe]
          exact settled_opened hS u e.path
        · have hqdone := (mem_snoc.1 hq).resolve_right fun h => hqe h.symm
          have hsettled : Settled E u q := (hv.settled q hqdone hqdb).put ho hqe hfile
          refine hsettled.congr (Folder.file_opened fun s => ?_) fun s => Folder.file_opened fun s' heq => ?_
          · exact Path.ne_side (Path.not_isSide (mem_sqliteFiles_iff.1 hqdb).1) s
          · exact hqe (Path.side_inj heq).1
    · intro s hs
      have hdb' : db' = some db := hs.2.choose_spec.2.1
      subst hdb'
      exact ⟨db.integrityCheck, rfl, hok, hs.1, hs.2.imp fun u hu => ⟨hu.1, hu.2.2⟩⟩
  · refine Durable.Returns.assume (fun _ hs => hs.1) fun hintegrity => ?_
    rw [if_pos hintegrity]
    exact Durable.Returns.pure fun _ hs => hs.2

theorem copyEntry_returns (hE : E.Lawful) (hS : E.Steady) (hcalm : env.Calm) (hsane : Sane E j.content)
    (hsplit : j.content.walk = done ++ e :: rest) :
    Durable.Returns (j.Working E (Fetched E j.content done)) (copyEntry E env (.at j.source) j.staging e)
      fun _ => j.Working E (Fetched E j.content (done ++ [e])) := by
  have hmem : e ∈ j.content.rows := by
    rw [← Folder.mem_walk, hsplit]
    exact List.mem_append_right _ List.mem_cons_self
  have hnew : e.path ∉ done.map Entry.path := by
    have hnodup := Folder.walk_nodup j.content
    rw [hsplit, List.map_append, List.map_cons, List.nodup_append] at hnodup
    exact fun h => hnodup.2.2 _ h _ List.mem_cons_self rfl
  obtain ⟨r, hvisit⟩ := hsane.clean e.path e (Table.lookup_of_mem hmem)
  obtain ⟨hname, hr⟩ := visitEntry_eq_ok hvisit
  unfold copyEntry
  rw [hvisit]
  refine Durable.Returns.bind (Q := fun r' d => r' = r ∧ j.Working E (Fetched E j.content done) d)
    (Durable.Returns.pure fun _ hs => ⟨rfl, hs⟩) fun r' => ?_
  refine Durable.Returns.assume (fun _ hs => hs.1) fun hr' => Durable.Returns.pre ?_ fun _ hs => hs.2
  rw [hr']
  cases r with
  | none =>
    refine Durable.Returns.pure fun _ hs => hs.mono fun u hu => hu.skip ?_
    rw [Folder.file_of_mem hmem]
    cases hn : e.node with
    | folder => exact .inl rfl
    | link => exact .inl rfl
    | special => exact .inl rfl
    | file b =>
      cases hm : e.path.isManifest with
      | false => exact absurd ((hr e.path b).2 ⟨rfl, hn, hm⟩) (by simp)
      | true => exact .inr (by rw [Path.omitted, hm, Bool.or_true])
  | some x =>
    obtain ⟨p, b⟩ := x
    obtain ⟨rfl, hnode, hmanifest⟩ := (hr p b).1 rfl
    have hfile : j.content.file e.path = some b := by rw [Folder.file_of_mem hmem, hnode]; rfl
    dsimp only
    by_cases hskip : e.path.skipped = true
    · rw [if_pos hskip]
      refine Durable.Returns.pure fun _ hs => hs.mono fun u hu => hu.skip (.inr ?_)
      rw [Path.omitted, hskip, Bool.true_or]
    · rw [if_neg hskip]
      have ho : e.path.omitted = false := by
        rw [Path.omitted, hmanifest, Bool.or_false]
        exact Bool.not_eq_true _ ▸ hskip
      refine Durable.Returns.bind (change_returns (S := Fetched E j.content done) fun u hu => ?_) fun _ => ?_
      · have hsame : ∀ q, (u.mkdirs e.path).file q = u.file q := fun q => Folder.file_mkdirs u e.path q
        exact ⟨hu.copying.congr hsame, hu.clean.mkdirs hname, fun q hq hdb =>
          (hu.settled q hq hdb).congr (hsame q) fun s => hsame _⟩
      by_cases hdb : E.isDatabase e.path = true
      · rw [if_pos hdb]
        exact Durable.Returns.bind (copySqlite_returns hE hS hcalm hsane hname
          (mem_sqliteFiles_iff.2 ⟨ho, hdb, b, hfile⟩) hnew) fun _ => failing_returns (hcalm.sync _)
      · rw [if_neg hdb]
        refine Durable.Returns.bind (copyFile_returns hcalm fun u hu => ?_) fun _ => failing_returns (hcalm.sync _)
        have hput : ∀ q, ((u.put e.path (env.torn e.path)).put e.path b).file q =
            if e.path = q then some b else u.file q := fun q => by
          rw [Folder.file_put, Folder.file_put]
          split <;> rfl
        refine ⟨hu.copying.put hnew ho hfile (by rw [if_neg hdb]) hput, (hu.clean.put hname).put hname,
          fun q hq hqdb => ?_⟩
        have hqe : e.path ≠ q := fun h => hdb (h ▸ (mem_sqliteFiles_iff.1 hqdb).2.1)
        exact (hu.settled q ((mem_snoc.1 hq).resolve_right fun h => hqe h.symm) hqdb).put ho hqe hput

/-- All entries of a sane root: a folder that says what the root says, with sound databases. -/
structure Ready (E : Engine B X H) (t u : Folder B) : Prop where
  meaning : u.meaning E = t.meaning E
  clean : Clean E u
  sound : ∀ p ∈ sqliteFiles E t, Sound E u p

theorem Fetched.ready (hsane : Sane E t) (h : Fetched E t t.walk u) : Ready E t u where
  meaning := h.copying.meaning
  clean := h.clean
  sound p hp := by
    obtain ⟨ho, -, b, hb⟩ := mem_sqliteFiles_iff.1 hp
    obtain ⟨e, he, hpath, -⟩ := Folder.exists_of_file hb
    obtain ⟨db, counts, hdb, hok⟩ := hsane.databases p hp
    have hmem : p ∈ t.walk.map Entry.path := hpath ▸ List.mem_map_of_mem (Folder.mem_walk.2 he)
    exact ⟨h.settled p hmem hp, hsane.sides p hp, Path.not_isManifest ho, db, counts,
      ((databases_of_meaning h.copying.meaning).2 hp).trans hdb, hok⟩

theorem copies_return (hE : E.Lawful) (hS : E.Steady) (hcalm : env.Calm) (hsane : Sane E j.content) :
    Durable.Returns (j.Working E (· = Table.empty))
      (Durable.forEach (copyEntry E env (.at j.source) j.staging) j.content.walk)
      fun _ => j.Working E (Ready E j.content) := by
  refine (Durable.Returns.forEachFrom (I := fun done => j.Working E (Fetched E j.content done))
    fun done e rest hsplit => copyEntry_returns hE hS hcalm hsane hsplit).mono (fun d hd => hd.mono ?_)
    fun _ d hd => hd.mono fun u hu => hu.ready hsane
  rintro u rfl
  exact ⟨Copying.empty E j.content, Clean.empty E, fun _ h => absurd h List.not_mem_nil⟩

/-! ## The manifest of a folder -/

theorem visits_sublist : ∀ {l : List (Entry B)} {visits : List (Option (Path × B))},
    l.mapM (visitEntry E) = .ok visits → ((visits.filterMap id).map Prod.fst).Sublist (l.map Entry.path)
  | [], visits, h => by
    cases h
    exact .slnil
  | e :: l, visits, h => by
    rw [List.mapM_cons] at h
    obtain ⟨r, hr, h⟩ := bind_eq_ok.1 h
    obtain ⟨others, hothers, h⟩ := bind_eq_ok.1 h
    cases h
    cases r with
    | none => exact (visits_sublist hothers).cons _
    | some x =>
      obtain ⟨hpath, -⟩ := ((visitEntry_eq_ok hr).2 x.1 x.2).1 rfl
      change (x.1 :: (others.filterMap id).map Prod.fst).Sublist (e.path :: l.map Entry.path)
      rw [hpath]
      exact (visits_sublist hothers).cons_cons _

theorem iterFiles_nodup {files : List (Path × B)} (h : iterFiles E t = .ok files) : (files.map Prod.fst).Nodup := by
  obtain ⟨visits, hvisits, h⟩ := bind_eq_ok.1 h
  cases h
  exact (visits_sublist hvisits).nodup (Folder.walk_nodup t)

/-- The record of a file. -/
def Engine.record (E : Engine B X H) (x : Path × B) : FileRecord H := ⟨x.1.asPosix, E.digest x.2, E.size x.2⟩

theorem expectedFrom_records : ∀ {files : List (Path × B)} {expected : List (Path × FileRecord H)},
    (expected.map Prod.fst ++ files.map Prod.fst).Nodup →
    expectedFrom expected (files.map E.record) = .ok (expected ++ files.map fun x => (x.1, E.record x))
  | [], expected, _ => by
    rw [List.map_nil, List.map_nil, List.append_nil]
    rfl
  | x :: files, expected, h => by
    have hnew : x.1 ∉ expected.map Prod.fst := fun hx =>
      (List.nodup_append.1 h).2.2 _ hx _ List.mem_cons_self rfl
    rw [List.map_cons, expectedFrom]
    simp only [Engine.record, Path.ofText_asPosix, if_neg hnew]
    rw [expectedFrom_records (by simpa using h), List.append_assoc]
    rfl

theorem recordOf_records {b : B} : ∀ {files : List (Path × B)}, (files.map Prod.fst).Nodup → (q, b) ∈ files →
    recordOf (files.map fun x => (x.1, E.record x)) q = some (E.record (q, b))
  | x :: files, hnodup, h => by
    rw [List.map_cons, List.nodup_cons] at hnodup
    unfold recordOf
    rw [List.map_cons, List.find?_cons]
    rcases List.mem_cons.1 h with rfl | h
    · simp
    · have hne : x.1 ≠ q := fun heq => hnodup.1 (heq ▸ List.mem_map_of_mem (f := Prod.fst) h)
      simp only [decide_eq_false hne]
      exact recordOf_records hnodup.2 h

theorem rejectSensitiveName_manifestPath (hS : E.Steady) : rejectSensitiveName E manifestPath = .ok () := by
  refine forM_eq_ok.2 fun n hn => ?_
  obtain rfl : n = manifestPath.name := List.mem_singleton.1 hn
  dsimp only
  rw [show manifestPath.name.text = manifestName from rfl, hS.lower_manifest]
  unfold manifestName forbiddenNames forbiddenSuffixes
  repeat rw [String.toList_ofList]
  rw [if_neg (by decide), if_neg (by decide)]

theorem file_put_manifest {b : B} (hq : q.isManifest = false) : (u.put manifestPath b).file q = u.file q := by
  rw [Folder.file_put, if_neg]
  rintro rfl
  rw [isManifest_manifestPath] at hq
  cases hq

/-- A folder keeps to the manifest that is written of it. -/
theorem valid_newManifest (hE : E.Lawful) {files : List (Path × B)} {sqlite : List (Path × Receipt)} {source : Path}
    (hfiles : iterFiles E v = .ok files) (hsound : ∀ p ∈ sqlite.map Prod.fst, Sound E v p) :
    Valid E (v.put manifestPath (E.encode (newManifest E env source files sqlite)))
      (newManifest E env source files sqlite) where
  loaded := by
    unfold loadManifest
    rw [Folder.file_put, if_pos rfl, Option.bind_some, hE.decode_encode]
    simp [newManifest]
  files := by
    have hnodup := iterFiles_nodup hfiles
    have hexpected : expectedFrom [] (newManifest E env source files sqlite).files =
        .ok (files.map fun x => (x.1, E.record x)) := expectedFrom_records hnodup
    refine ⟨_, hexpected, fun q => ?_, fun q b hb hq => ?_⟩
    · have hpaths : (files.map fun x => (x.1, E.record x)).map Prod.fst = files.map Prod.fst := by
        rw [List.map_map]
        rfl
      rw [hpaths, List.mem_map]
      constructor
      · rintro ⟨⟨q', b⟩, hx, rfl⟩
        obtain ⟨hb, hq⟩ := (mem_iterFiles hfiles q' b).1 hx
        exact ⟨⟨b, (file_put_manifest hq).trans hb⟩, hq⟩
      · rintro ⟨⟨b, hb⟩, hq⟩
        exact ⟨(q, b), (mem_iterFiles hfiles q b).2 ⟨(file_put_manifest hq).symm.trans hb, hq⟩, rfl⟩
    · rw [file_put_manifest hq] at hb
      rw [recordOf_records hnodup ((mem_iterFiles hfiles q b).2 ⟨hb, hq⟩)]
      rfl
  databases p hp := (hsound p hp).congr fun q hq => file_put_manifest hq

/-! ## Backups and restores that return -/

/-- What a part of a call leaves, and what its staging folder holds then, hold of one folder. -/
theorem Returns.working {α : Type} {m : Action B α} {S : α → Folder B → Prop} {D : Failure → Disk B → Prop}
    (hleaves : Durable.Leaves (j.Working E fun _ => True) m (j.Left E fun _ => False) (fun a => j.Working E (S a)) D)
    (hreturns : Durable.Returns (Holding E j.staging v) m fun _ => Holding E j.staging v) :
    Durable.Returns (j.Working E (Same E v)) m fun a => j.Working E fun u => Same E v u ∧ S a u := by
  intro d hd
  obtain ⟨a, ha, u, hu, hsame⟩ := hreturns d hd.2
  obtain ⟨hleft, u', hu', hS⟩ := hleaves.returned d a (hd.mono fun _ _ => trivial) ha
  obtain rfl : u = u' := Option.some.inj (hu.symm.trans hu')
  exact ⟨a, ha, hleft, u, hu, hsame, hS⟩

theorem validateSnapshot_working [DecidableEq H] (hE : E.Lawful) (hv : Valid E v manifest) :
    Durable.Returns (j.Working E (Same E v)) (validateSnapshot E j.staging) fun _ => j.Working E (Same E v) :=
  (Returns.working (working_validate hE fun _ _ _ _ => trivial) (validateSnapshot_returns hv)).mono (fun _ => id)
    fun _ _ hd => hd.mono fun _ hu => hu.1

/-- A folder that says what `t` says and keeps to its manifest. -/
structure Archive (E : Engine B X H) (t v : Folder B) : Prop where
  meaning : v.meaning E = t.meaning E
  valid : ∃ manifest, Valid E v manifest

theorem Same.put {b b' : B} (h : Same E v u) (hp : rejectSensitiveName E p = .ok ()) :
    Same E (v.put p b) ((u.put p b').put p b) where
  file q := by
    rw [Folder.file_put, Folder.file_put, Folder.file_put, h.file]
    split <;> rfl
  clean := (h.clean.put hp).put hp

theorem writeManifest_returns (hE : E.Lawful) (hS : E.Steady) (hcalm : env.Calm) {t : Folder B} {source : Path} :
    Durable.Returns (j.Working E (Ready E t)) (writeManifest E env j.staging source (sqliteFiles E t))
      fun _ d => ∃ v, Archive E t v ∧ j.Working E (Same E v) d := by
  refine Durable.Returns.bind_read fun d => ?_
  refine Durable.Returns.assume (fun s hs => (hs.1 ▸ hs.2 : j.Working E _ d)) fun hd => ?_
  obtain ⟨hleft, v, hv, hready⟩ := hd
  obtain ⟨files, hfiles⟩ := hready.clean.iterFiles
  refine Durable.Returns.pre (P := j.Working E (Same E v)) ?_ fun s hs =>
    hs.1 ▸ ⟨hleft, v, hv, fun _ => rfl, hready.clean⟩
  rw [hv, Option.getD_some, hfiles]
  refine Durable.Returns.bind (Q := fun r s => r = files ∧ j.Working E (Same E v) s)
    (Durable.Returns.pure fun _ hs => ⟨rfl, hs⟩) fun r => ?_
  refine Durable.Returns.assume (fun _ hs => hs.1) fun hr => Durable.Returns.pre ?_ fun _ hs => hs.2
  rw [hr]
  refine Durable.Returns.bind (Returns.working (working_reopens
    (S := fun _ r => r.map Prod.fst = sqliteFiles E t) hE (fun _ _ _ _ => trivial) fun d₀ t' ht' => ?_)
    (receipts_returns hready.sound)) fun sqlite => ?_
  · refine (receipts_reopens hE ht' _).pre ?_
    rintro _ rfl
    exact .refl
  refine Durable.Returns.assume (fun s hs => hs.2.choose_spec.2.2.2.choose_spec.2) fun hlisted => ?_
  have hvalid : Valid E (v.put manifestPath (E.encode (newManifest E env source files sqlite)))
      (newManifest E env source files sqlite) :=
    valid_newManifest hE hfiles fun p hp => hready.sound p (hlisted ▸ hp)
  refine Durable.Returns.bind (copyFile_returns hcalm fun u hu => hu.1.put (rejectSensitiveName_manifestPath hS))
    fun _ => (failing_returns (hcalm.sync _)).mono (fun _ => id) fun _ s hs => ⟨_, ⟨?_, _, hvalid⟩, hs⟩
  exact (Folder.meaning_put_manifest v _).trans hready.meaning

theorem replace_returns (hcalm : env.Calm) (hfree : j.start (.at j.destination) = none)
    (hne : j.destination ≠ j.source) :
    Durable.Returns (j.Working E R) (replace env j.staging j.destination)
      fun _ d => ∃ u, d (.at j.destination) = some u ∧ R u := by
  refine ((replace_leaves (G := R) hfree hne).returns fun d _ => ?_).mono (fun _ => id) fun _ _ hd => hd.2
  unfold replace
  rw [hcalm.replace, hcalm.folderSync]
  exact ⟨(), rfl⟩

/-- A call whose work in the staging folder returns does so, and may use what writing there keeps. -/
theorem staged_returns {α : Type} {P : Disk B → Prop} {f : Place → Action B α} {Q : α → Disk B → Prop}
    (hcalm : env.Calm) (henv : j.random = env.random) (hP : ∀ d o, P d → P (Function.update d j.staging o))
    (h : Durable.Returns (fun d => P d ∧ d j.staging = some Table.empty) (f j.staging) Q) :
    Durable.Returns P (staged env j.destination f) Q := by
  have hstaging : Place.incomplete j.destination env.random = j.staging := by rw [← henv]; rfl
  refine Durable.Returns.bind (failing_returns hcalm.prepare) fun _ => ?_
  dsimp only
  rw [hstaging]
  refine Durable.Returns.bind (Q := fun _ d => P d ∧ d j.staging = some Table.empty)
    (Durable.Returns.write fun d hd => ?_) fun _ => Durable.Returns.handle h
  exact ⟨hP d _ hd, Function.update_self ..⟩

variable {trustedRoot : List Part} {root snapshot restored : Path}

theorem lift_returns {α : Type} {P : Disk B → Prop} {r : Except Failure α} {a : α} (h : r = .ok a) :
    Durable.Returns P (lift r) fun _ => P := by
  rw [h]
  exact Durable.Returns.pure fun _ => id

/-- A sane root is backed up. -/
theorem createBackup_returns [DecidableEq H] (hE : E.Lawful) (hS : E.Steady) (hcalm : env.Calm)
    (hroot : validatePath trustedRoot root = .ok ()) (hsnapshot : validatePath trustedRoot snapshot = .ok ())
    (ht : d₀ (.at root) = some t) (hsane : Sane E t) (hfree : d₀ (.at snapshot) = none) :
    Durable.Returns (· = d₀) (createBackup E env trustedRoot true root snapshot)
      fun _ d => ∃ v, Archive E t v ∧ Holding E (.at snapshot) v d := by
  have hne : snapshot ≠ root := by
    rintro rfl
    cases hfree.symm.trans ht
  let j : Job B := ⟨root, snapshot, env.random, t, d₀⟩
  unfold createBackup
  rw [if_neg Bool.true_eq_false.mp]
  refine Durable.Returns.bind_read fun d => ?_
  refine Durable.Returns.assume (fun s hs => hs.1.symm.trans hs.2) fun hd => ?_
  rw [hd, ht]
  refine Durable.Returns.pre (P := (· = d₀)) ?_ fun _ hs => hs.2
  refine Durable.Returns.bind (lift_returns hroot) fun _ => Durable.Returns.bind (lift_returns hsnapshot) fun _ => ?_
  rw [hfree, if_neg (by simp), hcalm.lock]
  refine Durable.Returns.pre (P := j.Left E fun _ => False) (staged_returns (j := j) hcalm rfl
    (fun d o hd => hd.stage o) ?_) ?_
  · refine Durable.Returns.bind ((copies_return (j := j) hE hS hcalm hsane).pre fun d hd => ⟨hd.1, _, hd.2, rfl⟩)
      fun _ => ?_
    rw [if_neg hsane.canonical]
    refine Durable.Returns.bind (writeManifest_returns hE hS hcalm) fun _ => Durable.Returns.exists fun v => ?_
    refine Durable.Returns.assume (fun _ hs => hs.1) fun harchive => Durable.Returns.pre ?_ fun _ hs => hs.2
    obtain ⟨manifest, hvalid⟩ := harchive.valid
    refine Durable.Returns.bind (validateSnapshot_working hE hvalid) fun _ => ?_
    refine Durable.Returns.bind (replace_returns (j := j) hcalm hfree hne) fun _ => ?_
    exact (validateSnapshot_returns hvalid).mono (fun _ => id) fun _ s hs => ⟨v, harchive, hs⟩
  · rintro _ rfl
    exact Job.Left.initial ht snapshot env.random

theorem restoreEntry_returns (hcalm : env.Calm) (hc : Clean E t) (hmem : e ∈ t.rows) :
    Durable.Returns (j.Working E (Clean E)) (restoreEntry E env j.staging e) fun _ => j.Working E (Clean E) := by
  obtain ⟨r, hvisit⟩ := hc e.path e (Table.lookup_of_mem hmem)
  obtain ⟨hname, hr⟩ := visitEntry_eq_ok hvisit
  unfold restoreEntry
  rw [hvisit]
  refine Durable.Returns.bind (Q := fun r' d => r' = r ∧ j.Working E (Clean E) d)
    (Durable.Returns.pure fun _ hs => ⟨rfl, hs⟩) fun r' => ?_
  refine Durable.Returns.assume (fun _ hs => hs.1) fun hr' => Durable.Returns.pre ?_ fun _ hs => hs.2
  rw [hr']
  cases r with
  | none => exact Durable.Returns.pure fun _ hs => hs
  | some x =>
    obtain ⟨p, b⟩ := x
    obtain ⟨rfl, -, -⟩ := (hr p b).1 rfl
    refine Durable.Returns.bind (change_returns fun u hu => hu.mkdirs hname) fun _ => ?_
    refine Durable.Returns.bind (copyFile_returns hcalm fun u hu => (hu.put hname).put hname) fun _ => ?_
    exact failing_returns (hcalm.sync _)

/-- The files of a clean folder are restored, one entry after another. -/
theorem restores_return (hcalm : env.Calm) (hc : Clean E t) :
    Durable.Returns (j.Working E (· = Table.empty)) (Durable.forEach (restoreEntry E env j.staging) t.walk)
      fun _ => j.Working E fun u => Restoring t t.walk u ∧ Clean E u := by
  have hleaves : Durable.Leaves (j.Working E (· = Table.empty))
      (Durable.forEach (restoreEntry E env j.staging) t.walk) (j.Left E fun _ => False)
      (fun _ => j.Working E (Restoring t t.walk)) fun _ => j.Left E fun _ => False := by
    refine (Durable.Leaves.forEachFrom (I := fun done => j.Working E (Restoring t done))
      fun done e rest hsplit => restoreEntry_leaves hsplit).pre fun d hd => hd.mono ?_
    rintro u rfl q
    rw [if_neg fun h => List.not_mem_nil h.1]
    rfl
  have hreturns : Durable.Returns (j.Working E (· = Table.empty))
      (Durable.forEach (restoreEntry E env j.staging) t.walk) fun _ => j.Working E (Clean E) := by
    refine (Durable.Returns.forEachFrom (I := fun _ => j.Working E (Clean E)) fun done e rest hsplit =>
      restoreEntry_returns hcalm hc ?_).pre fun d hd => hd.mono ?_
    · rw [← Folder.mem_walk, hsplit]
      exact List.mem_append_right _ List.mem_cons_self
    · rintro u rfl
      exact Clean.empty E
  refine (Durable.Returns.and hleaves hreturns).mono (fun _ => id) ?_
  rintro _ d ⟨⟨hleft, u, hu, hrestoring⟩, -, u', hu', hclean⟩
  obtain rfl : u = u' := Option.some.inj (hu.symm.trans hu')
  exact ⟨hleft, u, hu, hrestoring, hclean⟩

/-- A folder that keeps to its manifest is restored. -/
theorem restoreBackup_returns [DecidableEq H] (hE : E.Lawful) (hS : E.Steady) (hcalm : env.Calm)
    (hsnapshot : validatePath trustedRoot snapshot = .ok ()) (hrestored : validatePath trustedRoot restored = .ok ())
    (hv : Valid E v manifest) (hd₀ : Holding E (.at snapshot) v d₀) (hfree : d₀ (.at restored) = none) :
    Durable.Returns (· = d₀) (restoreBackup E env trustedRoot snapshot restored)
      fun _ d => ∃ u, d (.at restored) = some u ∧ Clean E u ∧ u.meaning E = v.meaning E := by
  obtain ⟨w, hw, hsame⟩ := hd₀
  have hne : restored ≠ snapshot := by
    rintro rfl
    cases hfree.symm.trans hw
  let j : Job B := ⟨snapshot, restored, env.random, w, d₀⟩
  unfold restoreBackup
  refine Durable.Returns.bind_read fun d => ?_
  refine Durable.Returns.assume (fun s hs => hs.1.symm.trans hs.2) fun hd => ?_
  rw [hd, hw, if_neg (by simp)]
  refine Durable.Returns.pre (P := (· = d₀)) ?_ fun _ hs => hs.2
  refine Durable.Returns.bind (lift_returns hsnapshot) fun _ =>
    Durable.Returns.bind (lift_returns hrestored) fun _ => ?_
  refine Durable.Returns.bind (Q := fun _ d => j.Left E (fun _ => False) d ∧ Holding E (.at snapshot) v d) ?_
    fun validation => ?_
  · refine (Durable.Returns.and (validateSnapshot_reopens hE) ((validateSnapshot_returns hv).pre ?_)).mono (fun _ => id)
      fun _ s hs => ⟨(Job.Left.initial hw restored env.random).reopened_source hE hs.1.1, hs.2⟩
    rintro _ rfl
    exact ⟨w, hw, hsame⟩
  rw [hfree, if_neg (by simp)]
  refine staged_returns (j := j) hcalm rfl (fun d o hd => ⟨hd.1.stage o, ?_⟩) ?_
  · obtain ⟨w', hw', hsame'⟩ := hd.2
    exact ⟨w', (Function.update_of_ne (fun h => by cases h) ..).trans hw', hsame'⟩
  refine Durable.Returns.bind_read fun d' => ?_
  refine Durable.Returns.assume (fun s hs => (hs.1 ▸ hs.2.1.2 : Holding E (.at snapshot) v d')) fun hd' => ?_
  obtain ⟨w', hw', hsame'⟩ := hd'
  rw [hw']
  refine Durable.Returns.bind ((restores_return (j := j) hcalm hsame'.clean).pre fun d hd =>
    ⟨hd.2.1.1, _, hd.2.2, rfl⟩) fun _ => ?_
  obtain ⟨b, hb, -⟩ := Option.bind_eq_some_iff.1 (decode_of_loadManifest hv.loaded)
  rw [show w'.file manifestPath = some b from (hsame'.file _).trans hb]
  refine Durable.Returns.bind (copyFile_returns hcalm (S := fun u => Clean E u ∧ u.file manifestPath =
    v.file manifestPath ∧ ∀ q, q.isManifest = false → u.file q = v.file q) fun u hu => ?_) fun _ =>
    Durable.Returns.bind (failing_returns (hcalm.sync _)) fun _ => ?_
  · have hname := rejectSensitiveName_manifestPath hS
    refine ⟨(hu.2.put hname).put hname, ?_, fun q hq => ?_⟩
    · rw [Folder.file_put, if_pos rfl, hb]
    · rw [file_put_manifest hq, file_put_manifest hq, hu.1.file hq, hsame'.file]
  · refine Durable.Returns.pre (P := fun d => ∃ u, (u.file manifestPath = v.file manifestPath ∧
      ∀ q, q.isManifest = false → u.file q = v.file q) ∧ j.Working E (Same E u) d) (Durable.Returns.exists fun u => ?_)
      fun d ⟨hleft, u, hu, hclean, hfiles⟩ => ⟨u, hfiles, hleft, u, hu, fun _ => rfl, hclean⟩
    refine Durable.Returns.assume (fun _ hs => hs.1) fun ⟨hmanifest, hfiles⟩ => Durable.Returns.pre ?_ fun _ hs => hs.2
    have hvalid := hv.congr hmanifest hfiles
    refine Durable.Returns.bind (validateSnapshot_working hE hvalid) fun _ => ?_
    refine Durable.Returns.bind (replace_returns (j := j) hcalm hfree hne) fun _ => Durable.Returns.pure fun s hs => ?_
    obtain ⟨u', hu', hsame₁⟩ := hs
    exact ⟨u', hu', hsame₁.clean, Folder.meaning_congr fun q hq => (hsame₁.file q).trans (hfiles q hq)⟩

/-! ## Round after round -/

/-- A backup and its restore to a folder of its own. -/
structure Round (B : Type) where
  backupEnv : Env B
  restoreEnv : Env B
  snapshot : Path
  restored : Path

def Round.paths (r : Round B) : List Path := [r.snapshot, r.restored]

/-- Nothing disturbs a round, and its paths are below the trusted root. -/
structure Round.Allowed (trustedRoot : List Part) (r : Round B) : Prop where
  backup : r.backupEnv.Calm
  restore : r.restoreEnv.Calm
  paths : ∀ p ∈ r.paths, validatePath trustedRoot p = .ok ()

variable {r : Round B}

/-- Each round backs up what the round before it has restored; the root that the last one leaves. -/
def rounds [DecidableEq H] (E : Engine B X H) (trustedRoot : List Part) : Path → List (Round B) → Action B Path
  | root, [] => pure root
  | root, r :: l => do
    let _ ← createBackup E r.backupEnv trustedRoot true root r.snapshot
    let _ ← restoreBackup E r.restoreEnv trustedRoot r.snapshot r.restored
    rounds E trustedRoot r.restored l

theorem Job.Left.frame {G : Folder B → Prop} (h : j.Left E G d) (hp : p ≠ j.source) (hp' : p ≠ j.destination) :
    d (.at p) = j.start (.at p) :=
  (h.others p hp).resolve_right fun hdest => hp' hdest.1

/-- A round from a sane root: its restored folder is a sane root that says the same. -/
theorem round_returns [DecidableEq H] (hE : E.Lawful) (hS : E.Steady) (hr : r.Allowed trustedRoot)
    (hroot : validatePath trustedRoot root = .ok ()) (hnodup : r.paths.Nodup) (hfree : ∀ p ∈ r.paths, d₀ (.at p) = none)
    (ht : d₀ (.at root) = some t) (hsane : Sane E t) {f : Action B Path} {Q : Path → Disk B → Prop}
    (hf : ∀ d u, d (.at r.restored) = some u → Sane E u → u.meaning E = t.meaning E →
      (∀ p, p ≠ root → p ∉ r.paths → d (.at p) = d₀ (.at p)) → Durable.Returns (· = d) f Q) :
    Durable.Returns (· = d₀) (createBackup E r.backupEnv trustedRoot true root r.snapshot >>= fun _ =>
      restoreBackup E r.restoreEnv trustedRoot r.snapshot r.restored >>= fun _ => f) Q := by
  obtain ⟨hsnapshot, hrestored⟩ : validatePath trustedRoot r.snapshot = .ok () ∧
      validatePath trustedRoot r.restored = .ok () := by simpa [Round.paths] using hr.paths
  obtain ⟨hfreeS, hfreeR⟩ : d₀ (.at r.snapshot) = none ∧ d₀ (.at r.restored) = none := by
    simpa [Round.paths] using hfree
  have hne : r.restored ≠ r.snapshot := by
    rintro heq
    simp [Round.paths, heq] at hnodup
  have hneroot : r.restored ≠ root := by
    rintro heq
    cases (heq ▸ hfreeR : d₀ (.at root) = none).symm.trans ht
  refine Durable.Returns.bind (Durable.Returns.and (createBackup_leaves hE _ _ _ _ _ _)
    (createBackup_returns hE hS hr.backup hroot hsnapshot ht hsane hfreeS)) fun _ d₁ hd₁ => ?_
  obtain ⟨⟨t', -, hleft, -⟩, v, harchive, hholding⟩ := hd₁
  obtain ⟨manifest, hvalid⟩ := harchive.valid
  have hreturns : Durable.Returns (· = d₁) (restoreBackup E r.restoreEnv trustedRoot r.snapshot r.restored) _ :=
    restoreBackup_returns hE hS hr.restore hsnapshot hrestored hvalid hholding
      ((hleft.frame hneroot hne).trans hfreeR)
  refine Durable.Returns.bind (Durable.Returns.and (restoreBackup_leaves hE _ _ _ _ _) hreturns)
    (fun _ d₂ hd₂ => ?_) d₁ rfl
  obtain ⟨⟨w, -, hleft', -⟩, u, hu, hclean, hmeaning⟩ := hd₂
  have hsame := hmeaning.trans harchive.meaning
  refine hf d₂ u hu (hsane.of_meaning hsame hclean) hsame (fun p hp hpaths => ?_) d₂ rfl
  rw [Round.paths, List.mem_pair, not_or] at hpaths
  exact (hleft'.frame hpaths.1 hpaths.2).trans (hleft.frame hp hpaths.1)

/-- Backups of a sane root and their restores, undisturbed and to free folders, all return: what is
restored last is a sane root again, and it says what the first root says. -/
theorem rounds_return [DecidableEq H] (hE : E.Lawful) (hS : E.Steady) : ∀ {l : List (Round B)} {root : Path}
    {t : Folder B} {d₀ : Disk B}, (∀ r ∈ l, r.Allowed trustedRoot) → validatePath trustedRoot root = .ok () →
    (l.flatMap Round.paths).Nodup → (∀ p ∈ l.flatMap Round.paths, d₀ (.at p) = none) → d₀ (.at root) = some t →
    Sane E t → Durable.Returns (· = d₀) (rounds E trustedRoot root l)
      fun last d => ∃ u, d (.at last) = some u ∧ u.meaning E = t.meaning E ∧ Sane E u
  | [], root, t, d₀, _, _, _, _, ht, hsane => Durable.Returns.pure fun d hd => ⟨t, by rw [hd, ht], rfl, hsane⟩
  | r :: l, root, t, d₀, hl, hroot, hnodup, hfree, ht, hsane => by
    obtain ⟨hr, hl⟩ := List.forall_mem_cons.1 hl
    rw [List.flatMap_cons] at hnodup hfree
    obtain ⟨hpaths, hrest, hdisjoint⟩ := List.nodup_append.1 hnodup
    refine round_returns hE hS hr hroot hpaths (fun p hp => hfree p (List.mem_append_left _ hp)) ht hsane
      fun d u hu hsane' hsame hframe => ?_
    refine (rounds_return hE hS hl (hr.paths _ (by simp [Round.paths])) hrest (fun p hp => ?_) hu hsane').mono
      (fun _ => id) fun last d' ⟨u', hu', hmeaning, hs⟩ => ⟨u', hu', hmeaning.trans hsame, hs⟩
    have hnone := hfree p (List.mem_append_right _ hp)
    refine (hframe p ?_ fun hp' => hdisjoint p hp' p hp rfl).trans hnone
    rintro rfl
    cases hnone.symm.trans ht

theorem smallEngine_steady : smallEngine.Steady where
  backup_some b w h := by
    cases b with
    | inl n => exact Option.some_ne_none _
    | inr m => exact absurd rfl h
  peek_peek b w s := by
    cases w with
    | none => rfl
    | some w => rfl
  lower_manifest := rfl

theorem smallDatabase_allowed (hp : p = smallDatabase ∨ ∃ s, p = smallDatabase.side s) :
    rejectSensitiveName smallEngine p = .ok () := by
  refine forM_eq_ok.2 fun n hn => ?_
  rcases hp with rfl | ⟨s, rfl⟩
  · obtain rfl : n = smallDatabase.name := List.mem_singleton.1 hn
    unfold forbiddenNames forbiddenSuffixes
    repeat rw [String.toList_ofList]
    rfl
  · obtain rfl : n = (smallDatabase.side s).name := List.mem_singleton.1 hn
    unfold forbiddenNames forbiddenSuffixes
    repeat rw [String.toList_ofList]
    cases s <;> rfl

theorem mem_sqliteFiles_small : p ∈ sqliteFiles smallEngine smallRoot ↔ p = smallDatabase := by
  rw [mem_sqliteFiles_iff]
  constructor
  · rintro ⟨ho, -, b, hb⟩
    rw [smallRoot, Folder.file_put, if_neg (Path.ne_side (Path.not_isSide ho) _), Folder.file_put] at hb
    split at hb
    · next h => exact h.symm
    · cases hb
  · rintro rfl
    refine ⟨?_, ?_, .inl 5, rfl⟩
    · unfold Path.omitted Path.skipped Path.isManifest lockName manifestName
      repeat rw [String.toList_ofList]
      decide
    · unfold Engine.isDatabase sqliteSuffixes
      repeat rw [String.toList_ofList]
      decide

theorem smallRoot_sane : Sane smallEngine smallRoot where
  clean := ((Clean.empty smallEngine).put (smallDatabase_allowed (.inl rfl))).put
    (smallDatabase_allowed (.inr ⟨.wal, rfl⟩))
  sides p hp s := smallDatabase_allowed (.inr ⟨s, by rw [mem_sqliteFiles_small.1 hp]⟩)
  databases p hp := by
    rw [mem_sqliteFiles_small.1 hp]
    exact ⟨_, ⟨0, 0⟩, rfl, rfl, rfl⟩
  canonical h := by
    have hmem := mem_sqliteFiles_small.2 rfl
    rw [h] at hmem
    cases hmem

theorem validatePath_nil (p : Path) : validatePath [] p = .ok () := if_neg (by simp [Path.parts])

theorem calmEnv_calm (n : Nat) : (calmEnv n).Calm := ⟨rfl, rfl, fun _ => rfl, fun _ => rfl, rfl, rfl⟩

def smallRounds : List (Round (Nat ⊕ Manifest Nat)) :=
  [⟨calmEnv 7, calmEnv 8, smallCopy, smallRestored⟩,
    ⟨calmEnv 9, calmEnv 10, .single ['d'] (by decide), .single ['o'] (by decide)⟩]

/-- Two rounds from the small storage root. -/
theorem rounds_return_small : Durable.Returns (· = smallDisk) (rounds smallEngine [] smallPath smallRounds)
    fun last d => ∃ u, d (.at last) = some u ∧ u.meaning smallEngine = smallRoot.meaning smallEngine ∧
      Sane smallEngine u := by
  refine rounds_return smallEngine_lawful smallEngine_steady (fun r hr => ?_) (validatePath_nil _) (by decide)
    (fun p hp => smallDisk_other ?_) smallDisk_self smallRoot_sane
  · rcases List.mem_pair.1 hr with rfl | rfl <;> exact ⟨calmEnv_calm _, calmEnv_calm _, fun p _ => validatePath_nil p⟩
  · rintro rfl
    revert hp
    decide

end Mesa.Recovery
