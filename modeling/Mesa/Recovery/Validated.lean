/-
Validation reads a folder and leaves it alike: whatever it leaves of the disk is what a run of
read-only connections leaves, and a folder that it accepts attests its manifest.
-/
import Mesa.Recovery.Meaning

namespace Mesa.Recovery

open Mesa.Foundation

variable {B X H : Type} {E : Engine B X H} {t u : Folder B} {p q : Path} {place : Place} {d d₀ d₁ : Disk B}

/-! ## Files of a folder -/

theorem visitEntry_eq_ok {e : Entry B} {r : Option (Path × B)} (h : visitEntry E e = .ok r) :
    rejectSensitiveName E e.path = .ok () ∧
      ∀ q b, r = some (q, b) ↔ e.path = q ∧ e.node = .file b ∧ q.isManifest = false := by
  obtain ⟨⟨⟩, hname, h⟩ := bind_eq_ok.1 h
  refine ⟨hname, fun q b => ?_⟩
  cases hn : e.node with
  | link => rw [hn] at h; cases h
  | folder => rw [hn] at h; cases h; simp
  | special => rw [hn] at h; cases h; simp
  | file c =>
    rw [hn] at h
    cases hm : e.path.isManifest with
    | true =>
      rw [hm] at h
      cases h
      simp only [if_true, reduceCtorEq, false_iff, not_and, Bool.not_eq_false]
      rintro rfl -
      exact hm
    | false =>
      rw [hm] at h
      cases h
      simp only [Bool.false_eq_true, if_false, Option.some.injEq, Prod.mk.injEq, Node.file.injEq]
      constructor
      · rintro ⟨rfl, rfl⟩
        exact ⟨rfl, rfl, hm⟩
      · rintro ⟨rfl, rfl, -⟩
        exact ⟨rfl, rfl⟩

theorem mem_iterFiles {files : List (Path × B)} (h : iterFiles E t = .ok files) (q : Path) (b : B) :
    (q, b) ∈ files ↔ t.file q = some b ∧ q.isManifest = false := by
  obtain ⟨visits, hvisits, h⟩ := bind_eq_ok.1 h
  cases h
  rw [List.mem_filterMap]
  constructor
  · rintro ⟨r, hr, hrq⟩
    obtain ⟨e, he, hvisit⟩ := mem_of_mapM hvisits r hr
    obtain ⟨hpath, hnode, hmanifest⟩ := ((visitEntry_eq_ok hvisit).2 q b).1 hrq
    refine ⟨?_, hmanifest⟩
    rw [← hpath, Folder.file_of_mem (Folder.mem_walk.1 he), hnode]
    rfl
  · rintro ⟨hfile, hmanifest⟩
    obtain ⟨e, he, hpath, hnode⟩ := Folder.exists_of_file hfile
    obtain ⟨r, hr, hvisit⟩ := exists_of_mapM hvisits e (Folder.mem_walk.2 he)
    exact ⟨r, hr, ((visitEntry_eq_ok hvisit).2 q b).2 ⟨hpath, hnode, hmanifest⟩⟩

theorem names_of_iterFiles {files : List (Path × B)} (h : iterFiles E t = .ok files) {b : B} (hb : t.file q = some b) :
    rejectSensitiveName E q = .ok () := by
  obtain ⟨visits, hvisits, -⟩ := bind_eq_ok.1 h
  obtain ⟨e, he, rfl, -⟩ := Folder.exists_of_file hb
  obtain ⟨r, -, hvisit⟩ := exists_of_mapM hvisits e (Folder.mem_walk.2 he)
  exact (visitEntry_eq_ok hvisit).1

theorem recordOf_eq_none {expected : List (Path × FileRecord H)} (h : q ∉ expected.map Prod.fst) :
    recordOf expected q = none := by
  unfold recordOf
  rw [List.find?_eq_none.2 fun x hx => ?_, Option.map_none]
  rw [decide_eq_true_eq]
  rintro rfl
  exact h (List.mem_map_of_mem hx)

/-- Verified digests are those of the files that are there. -/
theorem verifyHashes_eq_ok [DecidableEq H] {manifest : Manifest H} (h : verifyHashes E t manifest = .ok ()) :
    (∃ expected, expectedFrom [] manifest.files = .ok expected ∧ ∀ q, q.isManifest = false →
      (t.file q).map (fun b => (E.size b, E.digest b)) = (recordOf expected q).map fun r => (r.size, r.sha256)) ∧
    ∀ q b, t.file q = some b → rejectSensitiveName E q = .ok () := by
  obtain ⟨expected, hexpected, h⟩ := bind_eq_ok.1 h
  obtain ⟨actual, hactual, h⟩ := bind_eq_ok.1 h
  refine ⟨⟨expected, hexpected, fun q hmanifest => ?_⟩, fun q b hb => names_of_iterFiles hactual hb⟩
  split at h
  · next hsets =>
    cases hb : t.file q with
    | some b =>
      have hmem := (mem_iterFiles hactual q b).2 ⟨hb, hmanifest⟩
      have hcheck := of_forM h (q, b) hmem
      split at hcheck
      · next hrecord => exact hrecord.symm
      · cases hcheck
    | none =>
      have hnot : q ∉ expected.map Prod.fst := by
        intro hq
        obtain ⟨⟨q', b⟩, hmem, hq'⟩ := List.mem_map.1 (hsets.1 hq)
        obtain rfl : q' = q := hq'
        rw [((mem_iterFiles hactual q' b).1 hmem).1] at hb
        cases hb
      rw [recordOf_eq_none hnot, Option.map_none, Option.map_none]
  · cases h

/-! ## Connections -/

/-- What read-only connections to databases of one folder leave of a disk. -/
inductive Reopened (E : Engine B X H) (place : Place) (d : Disk B) : Disk B → Prop
  | refl : Reopened E place d d
  | step {d₁ : Disk B} (h : Reopened E place d d₁) (p : Path) :
    Reopened E place d (Function.update d₁ place ((d₁ place).map (·.opened E p)))

theorem Reopened.other (h : Reopened E place d d₁) {other : Place} (hne : other ≠ place) : d₁ other = d other := by
  induction h with
  | refl => rfl
  | step _ p ih => rw [Function.update_of_ne hne, ih]

theorem Reopened.alike (hE : E.Lawful) (h : Reopened E place d d₁) (ht : d place = some t) :
    ∃ u, d₁ place = some u ∧ Alike E t u := by
  induction h with
  | refl => exact ⟨t, ht, Alike.refl E t⟩
  | step _ p ih =>
    obtain ⟨u, hu, halike⟩ := ih
    exact ⟨u.opened E p, by rw [Function.update_self, hu]; rfl, halike.trans (alike_opened hE p u)⟩

/-- The database that a connection to a path reads. -/
def readDatabase (E : Engine B X H) (t : Folder B) (p : Path) : Option (Database X) :=
  (t.file p).bind fun b => E.content b (t.file (p.side .wal))

theorem Alike.readDatabase (h : Alike E t u) (hp : p.isSide = false) : readDatabase E u p = readDatabase E t p := by
  unfold Recovery.readDatabase
  rw [h.file p hp]
  cases hb : t.file p with
  | none => rfl
  | some b => exact h.content p b hp hb

theorem lift_leaves {α : Type} {P C : Disk B → Prop} {D : Failure → Disk B → Prop} (r : Except Failure α)
    (hD : ∀ e d, P d → D e d) : Durable.Leaves P (lift r) C (fun a d => r = .ok a ∧ P d) D := by
  cases r with
  | ok a => exact Durable.Leaves.pure fun _ hs => ⟨rfl, hs⟩
  | error e => exact Durable.Leaves.raise fun d hs => hD e d hs

variable (hE : E.Lawful) (ht : d₀ place = some t)

include hE ht

theorem connect_reopens : Durable.Leaves (Reopened E place d₀) (connect E place p) (Reopened E place d₀)
    (fun db d => Reopened E place d₀ d ∧ (p.isSide = false → db = readDatabase E t p))
    (fun _ => Reopened E place d₀) := by
  refine Durable.Leaves.bind_read fun d => ?_
  refine Durable.Leaves.assume (fun s hs => hs.1 ▸ hs.2) fun hd => ?_
  refine Durable.Leaves.bind (Q := fun _ => Reopened E place d₀) (Durable.Leaves.write ?_ ?_) fun _ => ?_
  · rintro s ⟨-, hs⟩
    exact hs.step p
  · rintro s ⟨-, hs⟩
    exact hs.step p
  · refine Durable.Leaves.pure fun s hs => ⟨hs, fun hp => ?_⟩
    obtain ⟨u, hu, halike⟩ := hd.alike hE ht
    rw [hu, ← halike.readDatabase hp]
    rfl

theorem sqliteIntegrity_reopens : Durable.Leaves (Reopened E place d₀) (sqliteIntegrity E place p)
    (Reopened E place d₀)
    (fun result d => Reopened E place d₀ d ∧
      (p.isSide = false → ∃ db, readDatabase E t p = some db ∧ db.integrityCheck = result))
    (fun _ => Reopened E place d₀) := by
  refine Durable.Leaves.bind (connect_reopens hE ht) fun db => ?_
  cases db with
  | none => exact Durable.Leaves.raise fun _ hs => hs.1
  | some db => exact Durable.Leaves.pure fun _ hs => ⟨hs.1, fun hp => ⟨db, (hs.2 hp).symm, rfl⟩⟩

theorem alembicVersion_reopens : Durable.Leaves (Reopened E place d₀) (alembicVersion E place p)
    (Reopened E place d₀) (fun _ => Reopened E place d₀) (fun _ => Reopened E place d₀) :=
  Durable.Leaves.bind (connect_reopens hE ht) fun _ => Durable.Leaves.pure fun _ hs => hs.1

theorem receipts_reopens : ∀ l : List Path, Durable.Leaves (Reopened E place d₀) (receipts E place l)
    (Reopened E place d₀) (fun r d => Reopened E place d₀ d ∧ r.map Prod.fst = l) (fun _ => Reopened E place d₀)
  | [] => Durable.Leaves.pure fun _ hs => ⟨hs, rfl⟩
  | p :: l => by
    refine Durable.Leaves.bind (sqliteIntegrity_reopens hE ht) fun integrity => ?_
    refine Durable.Leaves.bind ((alembicVersion_reopens hE ht).pre fun _ hs => hs.1) fun version => ?_
    refine Durable.Leaves.bind (receipts_reopens l) fun others => ?_
    refine Durable.Leaves.pure fun _ hs => ⟨hs.1, ?_⟩
    rw [List.map_cons, hs.2]

theorem reports_reopens : ∀ l : List Path, Durable.Leaves (Reopened E place d₀) (reports E place l)
    (Reopened E place d₀)
    (fun _ d => Reopened E place d₀ d ∧ ∀ q ∈ l, q.isSide = false →
      ∃ db, readDatabase E t q = some db ∧ db.integrityCheck = "ok" ∧ db.PurgeSafe)
    (fun _ => Reopened E place d₀)
  | [] => Durable.Leaves.pure fun _ hs => ⟨hs, fun _ hq => absurd hq List.not_mem_nil⟩
  | p :: l => by
    refine Durable.Leaves.bind (sqliteIntegrity_reopens hE ht) fun integrity => ?_
    refine Durable.Leaves.ite (fun hok => ?_) fun _ => Durable.Leaves.raise fun _ hs => hs.1
    refine Durable.Leaves.assume (fun _ hs => hs.2) fun hintegrity => ?_
    refine Durable.Leaves.bind ((alembicVersion_reopens hE ht).pre fun _ hs => hs.1) fun version => ?_
    refine Durable.Leaves.bind (connect_reopens hE ht) fun db => ?_
    cases db with
    | none => exact Durable.Leaves.raise fun _ hs => hs.1
    | some db =>
      refine Durable.Leaves.assume (fun _ hs => hs.2) fun hdb => ?_
      refine Durable.Leaves.bind (lift_leaves _ fun _ _ hs => hs.1) fun purge => ?_
      refine Durable.Leaves.assume (fun _ hs => hs.1) fun hpurge => ?_
      refine Durable.Leaves.bind ((reports_reopens l).pre fun _ hs => hs.2.1) fun others => ?_
      refine Durable.Leaves.pure fun _ hs => ⟨hs.1, fun q hq hside => ?_⟩
      rcases List.mem_cons.1 hq with rfl | hq
      · obtain ⟨db', hdb', hresult⟩ := hintegrity hside
        obtain rfl : db = db' := Option.some.inj ((hdb hside).trans hdb')
        exact ⟨db, hdb', hresult.trans hok, purgeSafe_of_reconcile hpurge⟩
      · exact hs.2 q hq hside

omit ht in
/-- Validation only opens databases to read them, and what it accepts attests a manifest. -/
theorem validateSnapshot_reopens [DecidableEq H] : Durable.Leaves (· = d₀) (validateSnapshot E place)
    (Reopened E place d₀) (fun _ d => Reopened E place d₀ d ∧ ∃ t m, d₀ place = some t ∧ Attested E t m)
    (fun _ => Reopened E place d₀) := by
  refine Durable.Leaves.bind_read fun d => ?_
  refine Durable.Leaves.assume (fun s hs => hs.1.symm.trans hs.2) fun hd => ?_
  subst hd
  refine Durable.Leaves.pre (P := (· = d)) ?_ fun _ hs => hs.1
  cases ht : d place with
  | none =>
    refine Durable.Leaves.raise fun s hs => ?_
    rw [hs]
    exact .refl
  | some t =>
    have hstart : ∀ s, s = d → Reopened E place d s := by
      rintro s rfl
      exact .refl
    refine Durable.Leaves.bind (lift_leaves _ fun _ s hs => hstart s hs) fun manifest => ?_
    refine Durable.Leaves.assume (fun _ hs => hs.1) fun hload => ?_
    refine Durable.Leaves.bind (lift_leaves _ fun _ s hs => hstart s hs.2) fun _ => ?_
    refine Durable.Leaves.assume (fun _ hs => hs.1) fun hverify => ?_
    refine Durable.Leaves.bind ((reports_reopens hE ht _).pre fun s hs => hstart s hs.2.2) fun sqlite => ?_
    refine Durable.Leaves.pure fun s hs => ⟨hs.1, t, manifest, rfl, ?_⟩
    obtain ⟨⟨expected, hexpected, hfiles⟩, hnames⟩ := verifyHashes_eq_ok hverify
    refine ⟨hload, ⟨expected, hexpected, fun q _ hm => hfiles q hm⟩, fun q b _ hb => hnames q b hb, ?_⟩
    intro q hq hside
    obtain ⟨db, hdb, hok⟩ := hs.2 q hq hside
    obtain ⟨b, hb, hcontent⟩ := Option.bind_eq_some_iff.1 hdb
    exact ⟨b, db, hb, hcontent, hok⟩

end Mesa.Recovery
