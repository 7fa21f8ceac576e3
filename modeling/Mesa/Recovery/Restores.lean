/-
A restore wherever it is cut, and runs of backups and restores. However they are cut, a folder at a
destination is a complete copy of what the storage root said at some moment: it attests its
manifest, its databases are intact, no purged node in it is active, and it stays as it is.
-/
import Mesa.Recovery.Backups
import Mesa.Foundation.Run

namespace Mesa.Recovery

open Mesa.Foundation

variable {B X H : Type} {E : Engine B X H} {t u v : Folder B} {p q : Path} {d d₀ d₁ : Disk B} {j : Job B}
  {G R S : Folder B → Prop} {done rest : List (Entry B)} {e : Entry B}

/-! ## Restores -/

/-- The files of the entries in `done` are there, the manifest apart, and no others. -/
def Restoring (t : Folder B) (done : List (Entry B)) (u : Folder B) : Prop :=
  ∀ q, u.file q = if q ∈ done.map Entry.path ∧ q.isManifest = false then t.file q else none

theorem Restoring.put {b : B} (h : Restoring t done u) (hfile : t.file e.path = some b)
    (hm : e.path.isManifest = false) (hv : ∀ q, v.file q = if e.path = q then some b else u.file q) :
    Restoring t (done ++ [e]) v := by
  intro q
  rw [hv, h q]
  by_cases hq : e.path = q
  · subst hq
    rw [if_pos rfl, if_pos ⟨mem_snoc.2 (.inr rfl), hm⟩, hfile]
  · rw [if_neg hq]
    exact if_congr (and_congr_left' ⟨fun h => mem_snoc.2 (.inl h), fun h => (mem_snoc.1 h).resolve_right
      fun h => hq h.symm⟩) rfl rfl

theorem Restoring.skip (h : Restoring t done u) (he : t.file e.path = none ∨ e.path.isManifest = true) :
    Restoring t (done ++ [e]) u := by
  intro q
  rw [h q]
  by_cases hq : e.path = q
  · subst hq
    rcases he with he | he
    · rw [he, ite_self, ite_self]
    · rw [if_neg (by simp [he]), if_neg (by simp [he])]
  · exact if_congr (and_congr_left' ⟨fun h => mem_snoc.2 (.inl h), fun h => (mem_snoc.1 h).resolve_right
      fun h => hq h.symm⟩) rfl rfl

/-- All entries: every file but those with the name of a manifest. -/
theorem Restoring.file (h : Restoring t t.walk u) (hq : q.isManifest = false) : u.file q = t.file q := by
  rw [h q]
  by_cases hmem : q ∈ t.walk.map Entry.path
  · rw [if_pos ⟨hmem, hq⟩]
  · rw [if_neg fun hand => hmem hand.1]
    refine (Option.eq_none_iff_forall_ne_some.2 fun b hb => ?_).symm
    obtain ⟨e, he, rfl, -⟩ := Folder.exists_of_file hb
    exact hmem (List.mem_map_of_mem (Folder.mem_walk.2 he))

theorem restoreEntry_leaves {env : Env B} (hsplit : t.walk = done ++ e :: rest) :
    Durable.Leaves (j.Working E (Restoring t done)) (restoreEntry E env j.staging e) (j.Left E G)
      (fun _ => j.Working E (Restoring t (done ++ [e]))) fun _ => j.Left E G := by
  have hmem : e ∈ t.rows := by
    rw [← Folder.mem_walk, hsplit]
    exact List.mem_append_right _ List.mem_cons_self
  refine Durable.Leaves.bind (lift_leaves _ fun _ _ hs => hs.left) fun r => ?_
  refine Durable.Leaves.assume (fun _ hs => hs.1) fun hvisit => Durable.Leaves.pre ?_ fun _ hs => hs.2
  obtain ⟨-, hr⟩ := visitEntry_eq_ok hvisit
  cases r with
  | none =>
    refine working_pure fun u hu => hu.skip ?_
    rw [Folder.file_of_mem hmem]
    cases hn : e.node with
    | folder => exact .inl rfl
    | link => exact .inl rfl
    | special => exact .inl rfl
    | file b =>
      cases hm : e.path.isManifest with
      | false => exact absurd ((hr e.path b).2 ⟨rfl, hn, hm⟩) (by simp)
      | true => exact .inr rfl
  | some x =>
    obtain ⟨p, b⟩ := x
    obtain ⟨rfl, hnode, hmanifest⟩ := (hr p b).1 rfl
    have hfile : t.file e.path = some b := by rw [Folder.file_of_mem hmem, hnode]; rfl
    refine Durable.Leaves.bind (working_change (S := Restoring t done) fun u hu q => ?_) fun _ => ?_
    · rw [Folder.file_mkdirs, hu q]
    · refine Durable.Leaves.bind (working_copyFile fun u hu => hu.put hfile hmanifest fun q => ?_) fun _ =>
        working_failing
      rw [Folder.file_put, Folder.file_put]
      split <;> rfl

/-- A restore, wherever it is cut: its backup reads as before, its destination is missing or says what
the backup says, and no other folder changes. -/
theorem restoreBackup_leaves [DecidableEq H] (hE : E.Lawful) (env : Env B) (trustedRoot : List Part)
    (snapshot destination : Path) (d₀ : Disk B) :
    Durable.Leaves (· = d₀) (restoreBackup E env trustedRoot snapshot destination)
      (fun d => ∃ t, d₀ (.at snapshot) = some t ∧ Job.Left ⟨snapshot, destination, env.random, t, d₀⟩ E (Copied E t) d)
      (fun _ d => ∃ t, d₀ (.at snapshot) = some t ∧
        Job.Left ⟨snapshot, destination, env.random, t, d₀⟩ E (Copied E t) d ∧
        ∃ u, d (.at destination) = some u ∧ Copied E t u)
      (fun _ _ => True) := by
  refine Durable.Leaves.bind_read fun d => ?_
  refine Durable.Leaves.assume (fun s hs => hs.1.symm.trans hs.2) fun hd => ?_
  subst hd
  refine Durable.Leaves.pre (P := (· = d)) ?_ fun _ hs => hs.1
  refine Durable.Leaves.ite (fun _ => Durable.Leaves.raise fun _ _ => trivial) fun hsome => ?_
  rw [Bool.not_eq_true, Option.isNone_eq_false_iff, Option.isSome_iff_exists] at hsome
  obtain ⟨t, hsource⟩ := hsome
  let j : Job B := ⟨snapshot, destination, env.random, t, d⟩
  refine Durable.Leaves.bind (lift_leaves _ fun _ _ _ => trivial) fun _ => ?_
  refine Durable.Leaves.bind (lift_leaves _ fun _ _ _ => trivial) fun _ => ?_
  refine Durable.Leaves.pre (P := (· = d)) ?_ fun _ hs => hs.2.2
  refine Durable.Leaves.mono (P := (· = d)) (C := j.Left E (Copied E t))
    (Q := fun _ s => j.Left E (Copied E t) s ∧ ∃ u, s (.at destination) = some u ∧ Copied E t u)
    (E := fun _ _ => True) ?_ (fun _ => id) (fun s hs => ⟨t, hsource, hs⟩) (fun _ s hs => ⟨t, hsource, hs⟩)
    fun _ _ => id
  have hopened : ∀ G s, Reopened E (.at snapshot) d s → j.Left E G s := fun G s hs =>
    Job.Left.reopened_source hE (Job.Left.initial hsource destination env.random) hs
  refine Durable.Leaves.bind (Q := fun _ => j.Left E fun _ => False) ?_ fun validation => ?_
  · exact (validateSnapshot_reopens hE).mono (fun _ => id) (fun s hs => hopened _ s hs) (fun _ s hs => hopened _ s hs.1)
      fun _ _ _ => trivial
  refine Durable.Leaves.ite (fun _ => Durable.Leaves.raise fun _ _ => trivial) fun hfree => ?_
  rw [Bool.not_eq_true, Option.isSome_eq_false_iff, Option.isNone_iff_eq_none] at hfree
  have hne : destination ≠ snapshot := by
    rintro rfl
    rw [hfree] at hsource
    cases hsource
  refine (staged_leaves (j := j) rfl ?_).mono (fun _ => id) (fun _ => id) (fun _ _ => id) fun _ _ _ => trivial
  refine Durable.Leaves.bind_read fun d' => ?_
  refine Durable.Leaves.assume (fun s hs => (hs.1 ▸ hs.2 : j.Working E _ d')) fun hd' => ?_
  refine Durable.Leaves.pre ?_ fun _ hs => hs.2
  obtain ⟨t', ht', halike⟩ := hd'.1.source
  rw [show d' (.at snapshot) = some t' from ht']
  refine Durable.Leaves.bind (Durable.Leaves.pre (Durable.Leaves.forEachFrom
    (I := fun done => j.Working E (Restoring t' done)) fun done e rest hsplit => restoreEntry_leaves hsplit) fun s hs => hs.mono ?_) fun _ => ?_
  · rintro u rfl q
    rw [if_neg fun h => List.not_mem_nil h.1]
    rfl
  · cases t'.file manifestPath with
    | none => exact working_raise
    | some b =>
      refine Durable.Leaves.bind (working_copyFile (S := fun u => u.meaning E = t.meaning E) fun u hu => ?_) fun _ => ?_
      · rw [Folder.meaning_put_manifest, Folder.meaning_put_manifest, ← halike.meaning]
        exact Folder.meaning_congr fun q hq => hu.file hq
      · refine Durable.Leaves.bind working_failing fun _ => ?_
        refine Durable.Leaves.bind (working_validate hE fun u v hu ha => ha.meaning.trans hu) fun _ => ?_
        refine Durable.Leaves.bind ((replace_leaves (j := j) (G := Copied E t) hfree hne).pre fun s hs =>
          hs.mono fun u hu => ⟨hu.1, hu.2⟩) fun _ => ?_
        exact Durable.Leaves.pure fun _ hs => hs

/-! ## Runs -/

/-- The disk, and what the storage root has held: the present and the past. -/
structure Store (B : Type) where
  disk : Disk B
  past : List (Folder B)

/-- What operators and the running system do, a call being cut after so many writes. -/
inductive Op (B : Type)
  /-- The running system leaves the storage root with these contents. -/
  | work (contents : Folder B)
  | backup (env : Env B) (trustedRoot : List Part) (storesStopped : Bool) (destination : Path) (cut : Nat)
  | restore (env : Env B) (trustedRoot : List Part) (snapshot destination : Path) (cut : Nat)
  /-- An operator removes a folder other than the storage root. -/
  | remove (path : Path)

variable [DecidableEq H]

def Store.exec (E : Engine B X H) (root : Path) (s : Store B) : Op B → Store B
  | .work contents => { disk := Function.update s.disk (.at root) (some contents), past := contents :: s.past }
  | .backup env trustedRoot storesStopped destination cut =>
    { s with disk := (createBackup E env trustedRoot storesStopped root destination).cut cut s.disk }
  | .restore env trustedRoot snapshot destination cut =>
    { s with disk := (restoreBackup E env trustedRoot snapshot destination).cut cut s.disk }
  | .remove path => if path = root then s else { s with disk := Function.update s.disk (.at path) none }

/-- A restore of an operator is a restore of a backup. -/
def Op.Restores (root : Path) : Op B → Prop
  | .restore _ _ snapshot _ _ => snapshot ≠ root
  | _ => True

/-- The storage root alone, with what it holds. -/
def Store.Initial (root : Path) (s : Store B) : Prop :=
  ∃ t, s.disk (.at root) = some t ∧ s.past = [t] ∧ ∀ p, p ≠ root → s.disk (.at p) = none

/-- The storage root reads as it was left, and every other folder is a copy of what it once held. -/
structure Store.Faithful (E : Engine B X H) (root : Path) (s : Store B) : Prop where
  present : ∃ t u, t ∈ s.past ∧ s.disk (.at root) = some u ∧ Alike E t u
  copies : ∀ p, p ≠ root → ∀ u, s.disk (.at p) = some u → ∃ t ∈ s.past, Backup E t u

/-- A cut call leaves the disk it starts from, or one that it visits. -/
theorem cut_of_leaves {α : Type} {m : Action B α} {C : Disk B → Prop} {Q : α → Disk B → Prop}
    {D : Failure → Disk B → Prop}
    (h : Durable.Leaves (· = d₀) m C Q D) (k : Nat) : m.cut k d₀ = d₀ ∨ C (m.cut k d₀) :=
  (Durable.cut_mem m k d₀).imp_right fun hmem => h.visited d₀ rfl _ hmem

omit [DecidableEq H] in
theorem Copied.trans {w : Folder B} (h : Copied E t u) (h' : Copied E u w) : Copied E t w :=
  ⟨h'.meaning.trans h.meaning, h'.attested⟩

variable {root : Path} {s : Store B} {op : Op B}

theorem Store.Faithful.exec (hE : E.Lawful) (h : s.Faithful E root) (hop : op.Restores root) :
    (s.exec E root op).Faithful E root := by
  obtain ⟨t, u, ht, hu, halike⟩ := h.present
  cases op with
  | work contents =>
    refine ⟨⟨contents, contents, List.mem_cons_self, Function.update_self .., Alike.refl E contents⟩,
      fun p hp v hv => ?_⟩
    have hsame : (s.exec E root (.work contents)).disk (.at p) = s.disk (.at p) :=
      Function.update_of_ne (fun heq => hp (Place.at.inj heq)) ..
    obtain ⟨t', ht', hbackup⟩ := h.copies p hp v (hsame.symm.trans hv)
    exact ⟨t', List.mem_cons_of_mem _ ht', hbackup⟩
  | backup env trustedRoot storesStopped destination cut =>
    rcases cut_of_leaves (createBackup_leaves hE env trustedRoot storesStopped root destination s.disk) cut with heq |
      ⟨t', ht', hleft⟩
    · exact ⟨⟨t, u, ht, (congrFun heq _).trans hu, halike⟩, fun p hp v hv =>
        h.copies p hp v ((congrFun heq _).symm.trans hv)⟩
    · obtain rfl : u = t' := Option.some.inj (hu.symm.trans ht')
      obtain ⟨w, hw, hsource⟩ := hleft.source
      refine ⟨⟨t, w, ht, hw, halike.trans hsource⟩, fun p hp v hv => ?_⟩
      rcases hleft.others p hp with hsame | ⟨-, -, v', hv', hcopied, hintact⟩
      · exact h.copies p hp v (hsame.symm.trans hv)
      · obtain rfl : v = v' := Option.some.inj (hv.symm.trans hv')
        exact ⟨t, ht, ⟨hcopied.meaning.trans halike.meaning, hcopied.attested⟩, hintact⟩
  | restore env trustedRoot snapshot destination cut =>
    rcases cut_of_leaves (restoreBackup_leaves hE env trustedRoot snapshot destination s.disk) cut with heq |
      ⟨t', ht', hleft⟩
    · exact ⟨⟨t, u, ht, (congrFun heq _).trans hu, halike⟩, fun p hp v hv =>
        h.copies p hp v ((congrFun heq _).symm.trans hv)⟩
    · obtain ⟨t₁, ht₁, hbackup⟩ := h.copies snapshot hop t' ht'
      refine ⟨?_, fun p hp v hv => ?_⟩
      · rcases hleft.others root fun heq => hop heq.symm with hsame | ⟨-, hnone, -⟩
        · exact ⟨t, u, ht, hsame.trans hu, halike⟩
        · rw [show s.disk (.at root) = none from hnone] at hu
          cases hu
      · by_cases hsnapshot : p = snapshot
        · subst hsnapshot
          obtain ⟨w, hw, hsource⟩ := hleft.source
          obtain rfl : v = w := Option.some.inj (hv.symm.trans hw)
          exact ⟨t₁, ht₁, hbackup.alike hsource⟩
        · rcases hleft.others p hsnapshot with hsame | ⟨-, -, v', hv', hcopied⟩
          · exact h.copies p hp v (hsame.symm.trans hv)
          · obtain rfl : v = v' := Option.some.inj (hv.symm.trans hv')
            exact ⟨t₁, ht₁, hbackup.1.trans hcopied, hcopied.meaning.symm ▸ hbackup.2⟩
  | remove path =>
    by_cases hpath : path = root
    · rw [show s.exec E root (.remove path) = s from if_pos hpath]
      exact h
    · have hexec : s.exec E root (.remove path) = { s with disk := Function.update s.disk (.at path) none } :=
        if_neg hpath
      rw [hexec]
      refine ⟨⟨t, u, ht, ?_, halike⟩, fun p hp v hv => ?_⟩
      · exact (Function.update_of_ne (fun heq => hpath (Place.at.inj heq).symm) ..).trans hu
      · by_cases hp' : p = path
        · subst hp'
          have hnone : Function.update s.disk (.at p) none (.at p) = none := Function.update_self ..
          cases hnone.symm.trans hv
        · exact h.copies p hp v ((Function.update_of_ne (fun heq => hp' (Place.at.inj heq)) ..).symm.trans hv)

/-- The number that some bytes are. -/
def numeral : Option (Nat ⊕ Manifest Nat) → Nat
  | some (.inl n) => n
  | _ => 0

/-- Bytes are a number or a manifest; a database reads the sum of its file and its log. -/
def smallEngine : Engine (Nat ⊕ Manifest Nat) Nat Nat where
  content b w := b.getLeft?.map fun n => ⟨"ok", none, some [], none, none, none, none, n + numeral w⟩
  backup b w := b.getLeft?.map fun n => .inl (n + numeral w)
  peek _ w _ := (some (w.getD (.inl 0)), some (.inl 0))
  size _ := 1
  digest b := numeral (some b)
  encode := .inr
  decode := Sum.getRight?
  lower t := t

theorem smallEngine_lawful : smallEngine.Lawful where
  backup_content {b w b'} h := by
    cases b with
    | inl n =>
      cases h
      rfl
    | inr m => cases h
  peek_content b w s := by
    cases w with
    | none => rfl
    | some w => rfl
  decode_encode _ := rfl

def Path.single (text : List Char) (h : text ≠ [] ∧ '/' ∉ text ∧ text ≠ ['.'] ∧ text ≠ ['.', '.']) : Path :=
  { folders := [], name := { text, proper := h } }

def smallPath : Path := .single ['r'] (by decide)

def smallDatabase : Path := .single ['m', '.', 'd', 'b'] (by decide)

/-- A storage root of one database and its log. -/
def smallRoot : Folder (Nat ⊕ Manifest Nat) :=
  (Folder.put Table.empty smallDatabase (.inl 5)).put (smallDatabase.side .wal) (.inl 2)

def smallDisk : Disk (Nat ⊕ Manifest Nat) := Function.update (fun _ => none) (.at smallPath) (some smallRoot)

theorem smallDisk_self : smallDisk (.at smallPath) = some smallRoot := Function.update_self ..

theorem smallDisk_other {p : Path} (hp : p ≠ smallPath) : smallDisk (.at p) = none :=
  Function.update_of_ne (fun h => hp (Place.at.inj h)) ..

/-- A copy is partly written as the number `torn` before it is done. -/
def calmEnv (torn : Nat) : Env (Nat ⊕ Manifest Nat) where
  lock := none
  createdAt := "2026-01-01T00:00:00Z"
  random := "a1b2"
  prepareFails := none
  torn _ := .inl torn
  copyFails _ := none
  syncFails _ := none
  replaceFails := none
  folderSyncFails := none

def smallCopy : Path := .single ['c'] (by decide)

def smallRestored : Path := .single ['n'] (by decide)

end Mesa.Recovery
