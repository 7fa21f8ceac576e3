/-
A backup wherever it is cut: the copies of the entries one after another, the manifest, and the
rename that makes the copy visible at once. What it puts at its destination says what the storage
root says, attests its manifest, and has intact databases only.
-/
import Mesa.Recovery.Copying

namespace Mesa.Recovery

open Mesa.Foundation

variable {B X H : Type} {E : Engine B X H} {t u v : Folder B} {p q : Path} {d d₀ d₁ : Disk B} {j : Job B}
  {G R S : Folder B → Prop}

/-! ## Copying a storage root -/

theorem Folder.meaning_congr (h : ∀ q, q.isManifest = false → v.file q = u.file q) : v.meaning E = u.meaning E := by
  funext q
  cases ho : q.omitted with
  | true => rw [Folder.meaning_omitted ho, Folder.meaning_omitted ho]
  | false =>
    have hwal : (q.side .wal).isManifest = false := by
      rw [← Bool.not_eq_true]
      intro hm
      have hside := Path.isSide_of_isManifest hm
      rw [Path.isSide_side] at hside
      cases hside
    rw [Folder.meaning_eq ho, Folder.meaning_eq ho, h q (Path.not_isManifest ho), h _ hwal]

theorem Folder.meaning_eq_none (h : t.file p = none) : t.meaning E p = none := by
  unfold Folder.meaning
  rw [h]
  exact ite_self none

/-- The entries in `done` are copied, and nothing else is there but the side files of their databases. -/
structure Copying (E : Engine B X H) (t : Folder B) (done : List (Entry B)) (u : Folder B) : Prop where
  copied : ∀ q, q.omitted = false → q ∈ done.map Entry.path → u.meaning E q = t.meaning E q
  missing : ∀ q, q.isSide = false → q ∉ done.map Entry.path ∨ q.omitted = true → u.file q = none
  unopened : ∀ q, q ∉ done.map Entry.path → u.file (q.side .wal) = none

variable {done rest : List (Entry B)} {e : Entry B}

theorem Copying.empty (E : Engine B X H) (t : Folder B) : Copying E t [] Table.empty :=
  ⟨fun _ _ h => absurd h List.not_mem_nil, fun _ _ _ => rfl, fun _ _ => rfl⟩

theorem Copying.congr (h : Copying E t done u) (hfile : ∀ q, v.file q = u.file q) : Copying E t done v where
  copied q ho hq := by
    rw [Folder.meaning_congr fun q _ => hfile q]
    exact h.copied q ho hq
  missing q hside hq := (hfile q).trans (h.missing q hside hq)
  unopened q hq := (hfile _).trans (h.unopened q hq)

theorem mem_snoc : q ∈ (done ++ [e]).map Entry.path ↔ q ∈ done.map Entry.path ∨ q = e.path := by
  rw [List.map_append, List.mem_append, List.map_singleton, List.mem_singleton]

/-- An entry that is not copied. -/
theorem Copying.skip (h : Copying E t done u) (he : t.file e.path = none ∨ e.path.omitted = true) :
    Copying E t (done ++ [e]) u where
  copied q ho hq := by
    rcases mem_snoc.1 hq with hq | rfl
    · exact h.copied q ho hq
    · by_cases hdone : e.path ∈ done.map Entry.path
      · exact h.copied _ ho hdone
      · have hmissing := h.missing e.path (Path.not_isSide ho) (.inl hdone)
        rcases he with he | he
        · rw [Folder.meaning_eq_none hmissing, Folder.meaning_eq_none he]
        · rw [he] at ho
          cases ho
  missing q hside hq := h.missing q hside (hq.imp_left fun hq hdone => hq (mem_snoc.2 (.inl hdone)))
  unopened q hq := h.unopened q fun hdone => hq (mem_snoc.2 (.inl hdone))

/-- An entry that is copied: its bytes, or a database that reads the same. -/
theorem Copying.put {b b₀ : B} (h : Copying E t done u) (hnew : e.path ∉ done.map Entry.path)
    (ho : e.path.omitted = false) (ht : t.file e.path = some b₀)
    (hb : if E.isDatabase e.path then E.content b none = E.content b₀ (t.file (e.path.side .wal)) else b = b₀)
    (hfile : ∀ q, v.file q = if e.path = q then some b else u.file q) : Copying E t (done ++ [e]) v := by
  have hside : ∀ q s, v.file (Path.side q s) = u.file (q.side s) := fun q s => by
    rw [hfile, if_neg (Path.ne_side (Path.not_isSide ho) s).symm]
  refine ⟨fun q hq hmem => ?_, fun q hq hmem => ?_, fun q hq => ?_⟩
  · by_cases hqe : e.path = q
    · subst hqe
      have hself : v.file e.path = some b := by rw [hfile, if_pos rfl]
      rw [Folder.meaning_eq ho, Folder.meaning_eq ho, hself, ht, hside, h.unopened _ hnew]
      by_cases hdb : E.isDatabase e.path = true
      · rw [if_pos hdb] at hb
        simp only [Option.map_some, if_pos hdb, hb]
      · rw [if_neg hdb] at hb
        simp only [Option.map_some, if_neg hdb, hb]
    · have hdone := (mem_snoc.1 hmem).resolve_right fun h => hqe h.symm
      have hother : v.file q = u.file q := by rw [hfile, if_neg hqe]
      rw [← h.copied q hq hdone, Folder.meaning_eq hq, Folder.meaning_eq hq, hother, hside]
  · have hqe : e.path ≠ q := by
      rintro rfl
      rcases hmem with hmem | hmem
      · exact hmem (mem_snoc.2 (.inr rfl))
      · rw [ho] at hmem
        cases hmem
    rw [hfile, if_neg hqe]
    exact h.missing q hq (hmem.imp_left fun hmem hdone => hmem (mem_snoc.2 (.inl hdone)))
  · rw [hside]
    exact h.unopened q fun hdone => hq (mem_snoc.2 (.inl hdone))

theorem Copying.opened (hE : E.Lawful) (h : Copying E t done u) (hp : p ∈ done.map Entry.path) :
    Copying E t done (u.opened E p) where
  copied q ho hq := by
    rw [(alike_opened hE p u).meaning]
    exact h.copied q ho hq
  missing q hside hq := ((alike_opened hE p u).file q hside).trans (h.missing q hside hq)
  unopened q hq := by
    rw [Folder.file_opened fun s hs => hq ?_]
    · exact h.unopened q hq
    · rw [← (Path.side_inj hs).1]
      exact hp

theorem Copying.meaning (h : Copying E t t.walk u) : u.meaning E = t.meaning E := by
  funext q
  cases ho : q.omitted with
  | true => rw [Folder.meaning_omitted ho, Folder.meaning_omitted ho]
  | false =>
    by_cases hq : q ∈ t.walk.map Entry.path
    · exact h.copied q ho hq
    · have hfile : t.file q = none := by
        rw [Option.eq_none_iff_forall_ne_some]
        intro b hb
        obtain ⟨e, he, rfl, -⟩ := Folder.exists_of_file hb
        exact hq (List.mem_map_of_mem (Folder.mem_walk.2 he))
      rw [Folder.meaning_eq_none hfile, Folder.meaning_eq_none (h.missing q (Path.not_isSide ho) (.inl hq))]

/-- The copy of a database reads what a connection to the source reads. -/
theorem copySqlite_leaves (hE : E.Lawful) {env : Env B} {b₀ : B} (ht : j.content.file e.path = some b₀)
    (hnew : e.path ∉ done.map Entry.path) (ho : e.path.omitted = false) (hdb : E.isDatabase e.path = true) :
    Durable.Leaves (j.Working E (Copying E j.content done)) (copySqlite E env (.at j.source) j.staging e.path)
      (j.Left E G) (fun _ => j.Working E (Copying E j.content (done ++ [e]))) fun _ => j.Left E G := by
  refine Durable.Leaves.bind_read fun d => ?_
  refine Durable.Leaves.assume (fun s hs => (hs.1 ▸ hs.2 : j.Working E _ d)) fun hd => ?_
  refine Durable.Leaves.bind ((working_source hE).pre fun _ hs => hs.2) fun _ => ?_
  obtain ⟨t, hsource, halike⟩ := hd.1.source
  have hside := Path.not_isSide ho
  cases hbackup : (d (.at j.source)).bind fun t => (t.file e.path).bind fun b =>
      E.backup b (t.file (e.path.side .wal)) with
  | none =>
    exact Durable.Leaves.bind (working_raise (Q := fun _ _ => False)) fun _ =>
      Durable.Leaves.assume (fun _ h => h) fun h => h.elim
  | some b =>
    rw [hsource, Option.bind_some, halike.file _ hside, ht, Option.bind_some] at hbackup
    have hcontent : E.content b none = E.content b₀ (j.content.file (e.path.side .wal)) :=
      (hE.backup_content hbackup).trans (halike.content _ _ hside ht)
    refine Durable.Leaves.bind (working_copyFile fun u hu => hu.put (b := b) hnew ho ht ?_ fun q => ?_) fun _ => ?_
    · rw [if_pos hdb]
      exact hcontent
    · rw [Folder.file_put, Folder.file_put]
      split <;> rfl
    · refine Durable.Leaves.bind (Q := fun _ => j.Working E (Copying E j.content (done ++ [e]))) ?_ fun integrity => ?_
      · refine Durable.Leaves.bind (working_connect (S := fun _ => Copying E j.content (done ++ [e])) fun u hu => ?_)
          fun db => ?_
        · exact hu.opened hE (mem_snoc.2 (.inr rfl))
        · cases db with
          | none => exact working_raise
          | some db => exact working_pure fun _ => id
      · exact Durable.Leaves.ite (fun _ => working_pure fun _ => id) fun _ => working_raise

theorem copyEntry_leaves (hE : E.Lawful) {env : Env B} (hsplit : j.content.walk = done ++ e :: rest) :
    Durable.Leaves (j.Working E (Copying E j.content done)) (copyEntry E env (.at j.source) j.staging e) (j.Left E G)
      (fun _ => j.Working E (Copying E j.content (done ++ [e]))) fun _ => j.Left E G := by
  have hmem : e ∈ j.content.rows := by
    rw [← Folder.mem_walk, hsplit]
    exact List.mem_append_right _ List.mem_cons_self
  have hnew : e.path ∉ done.map Entry.path := by
    have hnodup := Folder.walk_nodup j.content
    rw [hsplit, List.map_append, List.map_cons, List.nodup_append] at hnodup
    exact fun h => hnodup.2.2 _ h _ List.mem_cons_self rfl
  refine Durable.Leaves.bind (lift_leaves _ fun _ _ hs => hs.left) fun r => ?_
  refine Durable.Leaves.assume (fun _ hs => hs.1) fun hvisit => Durable.Leaves.pre ?_ fun _ hs => hs.2
  obtain ⟨-, hr⟩ := visitEntry_eq_ok hvisit
  cases r with
  | none =>
    refine working_pure fun u hu => hu.skip ?_
    rw [Folder.file_of_mem hmem]
    cases hn : e.node with
    | folder => exact .inl rfl
    | link => exact .inl rfl
    | special => exact .inl rfl
    | file b =>
      cases hm : e.path.isManifest with
      | false => exact absurd ((hr e.path b).2 ⟨rfl, hn, hm⟩) (by simp)
      | true => exact .inr (by rw [Path.omitted, hm, Bool.or_true])
  | some x =>
    obtain ⟨p, b⟩ := x
    obtain ⟨rfl, hnode, hmanifest⟩ := (hr p b).1 rfl
    have hfile : j.content.file e.path = some b := by rw [Folder.file_of_mem hmem, hnode]; rfl
    refine Durable.Leaves.ite (fun hskip => working_pure fun u hu => hu.skip (.inr ?_)) fun hskip => ?_
    · rw [Path.omitted, hskip, Bool.true_or]
    · have ho : e.path.omitted = false := by
        rw [Path.omitted, hmanifest, Bool.or_false]
        exact Bool.not_eq_true _ ▸ hskip
      refine Durable.Leaves.bind (working_change (S := Copying E j.content done) fun u hu =>
        hu.congr fun q => Folder.file_mkdirs u e.path q) fun _ => ?_
      refine Durable.Leaves.ite (fun hdb => ?_) fun hdb => ?_
      · exact Durable.Leaves.bind (copySqlite_leaves hE hfile hnew ho hdb) fun _ => working_failing
      · refine Durable.Leaves.bind (working_copyFile fun u hu => hu.put (b := b) hnew ho hfile ?_ fun q => ?_) fun _ =>
          working_failing
        · rw [if_neg hdb]
        · rw [Folder.file_put, Folder.file_put]
          split <;> rfl

/-- Copying all entries makes a folder that says what the storage root says. -/
theorem copies_leave (hE : E.Lawful) {env : Env B} :
    Durable.Leaves (j.Working E (· = Table.empty))
      (Durable.forEach (copyEntry E env (.at j.source) j.staging) j.content.walk) (j.Left E G)
      (fun _ => j.Working E fun u => u.meaning E = j.content.meaning E) fun _ => j.Left E G := by
  refine (Durable.Leaves.forEachFrom (I := fun done => j.Working E (Copying E j.content done))
    fun done e rest hsplit => copyEntry_leaves hE hsplit).mono (fun d hd => hd.mono ?_) (fun _ => id)
    (fun _ d hd => hd.mono fun u hu => hu.meaning) fun _ _ => id
  rintro u rfl
  exact Copying.empty E j.content

/-! ## Backups -/

/-- The folder says what the storage root says, and its manifest lists these databases. -/
structure Manifested (E : Engine B X H) (t : Folder B) (databases : List Path) (u : Folder B) : Prop where
  meaning : u.meaning E = t.meaning E
  listed : ∃ manifest, (u.file manifestPath).bind E.decode = some manifest ∧ manifest.sqlite.map Prod.fst = databases

theorem isManifest_manifestPath : manifestPath.isManifest = true := decide_eq_true rfl

theorem Folder.meaning_put_manifest (u : Folder B) (b : B) : (u.put manifestPath b).meaning E = u.meaning E := by
  refine Folder.meaning_congr fun q hq => ?_
  rw [Folder.file_put, if_neg]
  rintro rfl
  rw [isManifest_manifestPath] at hq
  cases hq

theorem Manifested.alike {databases : List Path} (h : Manifested E t databases u) (ha : Alike E u v) :
    Manifested E t databases v where
  meaning := ha.meaning.trans h.meaning
  listed := by
    rw [ha.file manifestPath (Path.isSide_of_isManifest isManifest_manifestPath)]
    exact h.listed

theorem writeManifest_leaves (hE : E.Lawful) {env : Env B} {databases : List Path} :
    Durable.Leaves (j.Working E fun u => u.meaning E = j.content.meaning E)
      (writeManifest E env j.staging j.source databases) (j.Left E G)
      (fun _ => j.Working E (Manifested E j.content databases)) fun _ => j.Left E G := by
  refine Durable.Leaves.bind_read fun d => Durable.Leaves.pre ?_ fun _ hs => hs.2
  refine Durable.Leaves.bind (lift_leaves _ fun _ _ hs => hs.left) fun files => ?_
  refine Durable.Leaves.bind (Durable.Leaves.pre (working_reopens (S := fun _ r => r.map Prod.fst = databases) hE
    (fun u v hu ha => ha.meaning.trans hu) fun d₀ t ht => ?_) fun _ hs => hs.2) fun sqlite => ?_
  · refine (receipts_reopens hE ht databases).pre ?_
    rintro _ rfl
    exact .refl
  · refine Durable.Leaves.bind (working_copyFile fun u hu => ?_) fun _ => working_failing
    obtain ⟨hmeaning, t, -, hsqlite⟩ := hu
    refine ⟨?_, newManifest E env j.source files sqlite, ?_, hsqlite⟩
    · rw [Folder.meaning_put_manifest, Folder.meaning_put_manifest, hmeaning]
    · rw [Folder.file_put, if_pos rfl]
      exact hE.decode_encode _

theorem mem_sqliteFiles {c : Option (Database X)} (h : t.meaning E q = some (.database c)) : q ∈ sqliteFiles E t := by
  have ho : q.omitted = false := by
    rw [← Bool.not_eq_true]
    intro ho
    rw [Folder.meaning_omitted ho] at h
    cases h
  rw [Folder.meaning_eq ho] at h
  obtain ⟨b, hb, hc⟩ := Option.map_eq_some_iff.1 h
  split at hc
  · next hdb =>
    obtain ⟨e, he, rfl, hnode⟩ := Folder.exists_of_file hb
    refine List.mem_map_of_mem (List.mem_filter.2 ⟨Folder.mem_walk.2 he, ?_⟩)
    rw [hnode, Path.not_isManifest ho, Path.not_skipped ho, hdb]
    rfl
  · cases hc

theorem decode_of_loadManifest {manifest : Manifest H} (h : loadManifest E t = .ok manifest) :
    (t.file manifestPath).bind E.decode = some manifest := by
  unfold loadManifest at h
  split at h
  · cases h
  · next m hm =>
    rw [hm]
    split at h
    · cases h
    · split at h
      · cases h
      · split at h
        · cases h
        · exact congrArg some (Except.ok.inj h)

/-- Databases that a validated manifest lists are intact. -/
theorem Manifested.intact {manifest : Manifest H} (h : Manifested E t (sqliteFiles E t) u)
    (ha : Attested E u manifest) : Intact (u.meaning E) := by
  intro q c hq
  obtain ⟨m, hm, hlisted⟩ := h.listed
  obtain rfl : m = manifest := Option.some.inj (hm.symm.trans (decode_of_loadManifest ha.loaded))
  have hmem : q ∈ m.sqlite.map Prod.fst := by
    rw [hlisted]
    rw [h.meaning] at hq
    exact mem_sqliteFiles hq
  have ho : q.omitted = false := by
    rw [← Bool.not_eq_true]
    intro ho
    rw [Folder.meaning_omitted ho] at hq
    cases hq
  obtain ⟨b, db, hb, hdb, hok⟩ := ha.databases q hmem (Path.not_isSide ho)
  rw [Folder.meaning_eq ho, hb, Option.map_some] at hq
  split at hq
  · cases hq
    exact ⟨db, hdb, hok⟩
  · cases hq

/-- What a backup puts at its destination. -/
def Backup (E : Engine B X H) (t u : Folder B) : Prop := Copied E t u ∧ Intact (u.meaning E)

theorem Backup.alike (h : Backup E t u) (ha : Alike E u v) : Backup E t v :=
  ⟨h.1.alike ha, ha.meaning.symm ▸ h.2⟩

theorem Job.Left.initial (hsource : d₀ (.at p) = some t) (q : Path) (random : String) :
    Job.Left ⟨p, q, random, t, d₀⟩ E G d₀ :=
  ⟨⟨t, hsource, Alike.refl E t⟩, fun _ _ => .inl rfl⟩

theorem Job.Left.reopened_destination (hE : E.Lawful) (hG : ∀ u v, G u → Alike E u v → G v)
    (hfree : j.start (.at j.destination) = none) (hne : j.destination ≠ j.source) (h : j.Left E G d)
    (hu : ∃ u, d (.at j.destination) = some u ∧ G u) (hr : Reopened E (.at j.destination) d d₁) :
    j.Left E G d₁ ∧ ∃ u, d₁ (.at j.destination) = some u ∧ G u := by
  obtain ⟨u, hu, hGu⟩ := hu
  obtain ⟨v, hv, halike⟩ := hr.alike hE hu
  refine ⟨⟨?_, fun p hp => ?_⟩, v, hv, hG u v hGu halike⟩
  · rw [hr.other fun heq => hne (Place.at.inj heq).symm]
    exact h.source
  · by_cases hdest : p = j.destination
    · subst hdest
      exact .inr ⟨rfl, hfree, v, hv, hG u v hGu halike⟩
    · rw [hr.other fun heq => hdest (Place.at.inj heq)]
      exact h.others p hp

/-- A backup, wherever it is cut: its source reads as before, its destination is missing or complete,
and no other folder changes. -/
theorem createBackup_leaves [DecidableEq H] (hE : E.Lawful) (env : Env B) (trustedRoot : List Part)
    (storesStopped : Bool) (source destination : Path) (d₀ : Disk B) :
    Durable.Leaves (· = d₀) (createBackup E env trustedRoot storesStopped source destination)
      (fun d => ∃ t, d₀ (.at source) = some t ∧ Job.Left ⟨source, destination, env.random, t, d₀⟩ E (Backup E t) d)
      (fun _ d => ∃ t, d₀ (.at source) = some t ∧
        Job.Left ⟨source, destination, env.random, t, d₀⟩ E (Backup E t) d ∧
        ∃ u, d (.at destination) = some u ∧ Backup E t u)
      (fun _ _ => True) := by
  refine Durable.Leaves.ite (fun _ => Durable.Leaves.raise fun _ _ => trivial) fun _ => ?_
  refine Durable.Leaves.bind_read fun d => ?_
  refine Durable.Leaves.assume (fun s hs => hs.1.symm.trans hs.2) fun hd => ?_
  subst hd
  refine Durable.Leaves.pre (P := (· = d)) ?_ fun _ hs => hs.1
  cases hsource : d (.at source) with
  | none => exact Durable.Leaves.raise fun _ _ => trivial
  | some t =>
    refine Durable.Leaves.bind (lift_leaves _ fun _ _ _ => trivial) fun _ => ?_
    refine Durable.Leaves.bind (lift_leaves _ fun _ _ _ => trivial) fun _ => ?_
    refine Durable.Leaves.pre (P := (· = d)) ?_ fun _ hs => hs.2.2
    refine Durable.Leaves.ite (fun _ => Durable.Leaves.raise fun _ _ => trivial) fun hfree => ?_
    rw [Bool.not_eq_true, Option.isSome_eq_false_iff, Option.isNone_iff_eq_none] at hfree
    have hne : destination ≠ source := by
      rintro rfl
      rw [hfree] at hsource
      cases hsource
    let j : Job B := ⟨source, destination, env.random, t, d⟩
    cases env.lock with
    | some e => exact Durable.Leaves.raise fun _ _ => trivial
    | none =>
      refine Durable.Leaves.mono (P := j.Left E fun _ => False) (C := j.Left E (Backup E t))
        (Q := fun _ s => j.Left E (Backup E t) s ∧ ∃ u, s (.at destination) = some u ∧ Backup E t u)
        (E := fun _ => j.Left E (Backup E t)) (staged_leaves (j := j) rfl ?_) ?_ (fun s hs => ⟨t, rfl, hs⟩)
        (fun _ s hs => ⟨t, rfl, hs⟩) fun _ _ _ => trivial
      · refine Durable.Leaves.bind (copies_leave (j := j) hE) fun _ => ?_
        refine Durable.Leaves.ite (fun _ => working_raise) fun _ => ?_
        refine Durable.Leaves.bind (writeManifest_leaves hE) fun _ => ?_
        refine Durable.Leaves.bind (working_validate hE fun u v hu ha => hu.alike ha) fun _ => ?_
        refine Durable.Leaves.bind ((replace_leaves (j := j) (G := Backup E t) hfree hne).pre fun s hs =>
          hs.mono ?_) fun _ => ?_
        · rintro u ⟨hu, manifest, hattested⟩
          exact ⟨⟨hu.meaning, manifest, hattested⟩, hu.intact hattested⟩
        · refine Durable.Leaves.pre (P := fun s => ∃ s₀, s = s₀ ∧ (j.Left E (Backup E t) s₀ ∧
            ∃ u, s₀ (.at destination) = some u ∧ Backup E t u)) (Durable.Leaves.exists fun s₀ => ?_) fun s hs =>
            ⟨s, rfl, hs⟩
          refine Durable.Leaves.assume (fun _ hs => hs.2) fun hs₀ => ?_
          have hkeep : ∀ s, Reopened E (.at destination) s₀ s →
              j.Left E (Backup E t) s ∧ ∃ u, s (.at destination) = some u ∧ Backup E t u := fun s hr =>
            Job.Left.reopened_destination (j := j) hE (fun u v hu ha => Backup.alike hu ha) hfree hne hs₀.1 hs₀.2 hr
          exact (validateSnapshot_reopens hE).mono (fun _ hs => hs.1) (fun s hr => (hkeep s hr).1)
            (fun _ s hr => hkeep s hr.1) fun _ s hr => (hkeep s hr).1
      · rintro _ rfl
        exact Job.Left.initial hsource destination env.random

end Mesa.Recovery
