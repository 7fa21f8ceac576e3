/-
The recovery of an interrupted swap: in which states a crash between the journal entries SWAPPING
and PROMOTED leaves the disk, and in which of them running the schema migration again promotes the
artifact. The run again takes its fingerprint from the live path, which the swap has moved.
-/
import Mesa.Migration.SchemaMigration

namespace Mesa.Migration

open Mesa.Foundation

variable {A S : Type} {env : Env}

/-! ## The states of an interrupted swap -/

section Interrupted

variable (m : String) (t : Nat) (live : Option A) (staged : A)

/-- The crash came before the first rename. -/
def BeforeRenames (d : Disk A) : Prop :=
  d.files .live = live ∧ d.files (.staging m t) = some staged ∧ d.files (.rollback m t) = none

/-- The crash came between the two renames. -/
def BetweenRenames (d : Disk A) : Prop :=
  live ≠ none ∧ d.files .live = none ∧ d.files (.staging m t) = some staged ∧ d.files (.rollback m t) = live

/-- The crash came after the second rename. -/
def AfterRenames (d : Disk A) : Prop :=
  d.files .live = some staged ∧ d.files (.staging m t) = none ∧ d.files (.rollback m t) = live

end Interrupted

/-- The row of a run whose swap is not finished. -/
def RunRequest.swapping (q : RunRequest A) (t : Nat) : Record :=
  (q.record .validated t (.staging q.migrationId t) (some (.rollback q.migrationId t))).inState .swapping none

/-- The swap of a run from a disk with this live artifact, cut between its journal entries. -/
structure Interrupted (q : RunRequest A) (t : Nat) (live : Option A) (staged : A) (d : Disk A) : Prop where
  row : d.journal.lookup q.migrationId = some (q.swapping t)
  files : BeforeRenames q.migrationId t live staged d ∨ BetweenRenames q.migrationId t live staged d ∨
    AfterRenames q.migrationId t live staged d

/-- The row of the migration is not that of an unfinished swap. -/
def Disk.Quiet (d : Disk A) (m : String) : Prop := ∀ r, d.journal.lookup m = some r → r.state ≠ .swapping

section Cuts

variable {q : RunRequest A} {t : Nat} {live : Option A}

/-- What is true of every state that a run leaves: its swap is not open, or it is cut there. -/
def CutState (q : RunRequest A) (live : Option A) (d : Disk A) : Prop :=
  d.Quiet q.migrationId ∨ ∃ t staged, q.validateStaging (some staged) = .returns ∧ Interrupted q t live staged d

theorem quiet_of_row {d : Disk A} {m : String} {r : Record} (hr : d.journal.lookup m = some r)
    (hs : r.state ≠ .swapping) : d.Quiet m := by
  intro x hx
  rw [hr] at hx
  cases hx
  exact hs

theorem row_setState {d : Disk A} {m : String} {r : Record} (hr : d.journal.lookup m = some r) (state : JournalState)
    (error : Option String) : (d.setState m state error).journal.lookup m = some (r.inState state error) := by
  rw [lookup_setState, if_pos rfl, hr]; rfl

/-- Setting a state other than SWAPPING closes the swap. -/
theorem cuts_setState {P : Disk A → Prop} {r : Record} {state : JournalState} {error : Option String}
    {Q : Unit → Disk A → Prop} {E : MigrationError → Disk A → Prop}
    (hrow : ∀ d, P d → d.journal.lookup q.migrationId = some r) (hs : state ≠ .swapping)
    (hq : ∀ d : Disk A, P d → Q () (d.setState q.migrationId state error)) :
    Durable.Leaves P (setState q.migrationId state error) (CutState q live) Q E :=
  Durable.Leaves.write (fun d hd => .inl (quiet_of_row (row_setState (hrow d hd) state error) hs)) hq

/-- A step that sets a state other than SWAPPING and raises. -/
theorem cuts_raise {r : Record} {state : JournalState} (hs : state ≠ .swapping) (error : Option String)
    (e : MigrationError) {α : Type} {Q : α → Disk A → Prop} :
    Durable.Leaves (fun d => d.journal.lookup q.migrationId = some r) (do
      setState q.migrationId state error
      Durable.raise e) (CutState q live) Q fun _ _ => True :=
  Durable.Leaves.bind (Q := fun _ _ => True) (cuts_setState (fun _ => id) hs fun _ _ => trivial) fun _ =>
    Durable.Leaves.raise fun _ _ => trivial

/-- A row of the migration, and the artifact at the live path. -/
def Holds (q : RunRequest A) (r : Record) (live : Option A) (d : Disk A) : Prop :=
  d.journal.lookup q.migrationId = some r ∧ d.files .live = live

theorem cuts_build : Durable.Leaves (Holds q (q.record .building t (.staging q.migrationId t) none) live)
    (build q (.staging q.migrationId t)) (CutState q live)
    (fun _ => Holds q ((q.record .building t (.staging q.migrationId t) none).inState .staged none) live)
    fun _ _ => True := by
  unfold build
  refine Durable.Leaves.bind (Q := fun _ => Holds q (q.record .building t (.staging q.migrationId t) none) live) ?_
    fun _ => ?_
  · refine (Durable.Leaves.forEach fun content _ => ?_).mono (fun _ => id) (fun _ => id) (fun _ _ => id)
      fun _ _ (_ : True) => trivial
    have hput : ∀ d, Holds q (q.record .building t (.staging q.migrationId t) none) live d →
        Holds q (q.record .building t (.staging q.migrationId t) none) live (d.put (.staging q.migrationId t) content) :=
      fun d hd => ⟨hd.1, by simpa [Disk.put] using hd.2⟩
    exact Durable.Leaves.write (fun d hd => .inl (quiet_of_row (hput d hd).1 (by simp [RunRequest.record]))) hput
  refine Durable.Leaves.bind_read fun d => ?_
  cases q.buildStaging.ending with
  | asksToResume e => exact (cuts_raise (by split <;> simp) _ _).pre fun s hs => hs.2.1
  | raises e => exact (cuts_raise (by simp) _ _).pre fun s hs => hs.2.1
  | returns =>
    refine Durable.Leaves.ite (fun _ => (cuts_raise (by simp) _ _).pre fun s hs => hs.2.1) fun _ => ?_
    exact cuts_setState (fun s hs => hs.2.1) (by simp) fun s hs => ⟨row_setState hs.2.1 _ _, hs.2.2⟩

/-- The cuts of the swap itself. -/
theorem cuts_swap {staged : A} (haccepts : q.validateStaging (some staged) = .returns) : Durable.Leaves
    (fun d => d.journal.lookup q.migrationId = some (q.swapping t) ∧ BeforeRenames q.migrationId t live staged d)
    (swap env q.migrationId (.staging q.migrationId t) (.rollback q.migrationId t)) (CutState q live)
    (fun _ _ => True) fun _ _ => True := by
  have hcut : ∀ d, d.journal.lookup q.migrationId = some (q.swapping t) →
      (BeforeRenames q.migrationId t live staged d ∨ BetweenRenames q.migrationId t live staged d ∨
        AfterRenames q.migrationId t live staged d) → CutState q live d :=
    fun d hrow hfiles => .inr ⟨t, staged, haccepts, hrow, hfiles⟩
  unfold swap
  -- after the first rename the live path is free
  refine Durable.Leaves.bind (Q := fun _ d => d.journal.lookup q.migrationId = some (q.swapping t) ∧
    d.files .live = none ∧ d.files (.staging q.migrationId t) = some staged ∧
      d.files (.rollback q.migrationId t) = live) ?_ fun _ => ?_
  · unfold retireLive
    refine Durable.Leaves.bind_read fun d => Durable.Leaves.ite (fun hlive => ?_) fun hlive => ?_
    · refine (leaves_replace fun s a hs ha => ?_).mono (fun _ => id) (fun _ => id) (fun _ _ => id) fun _ _ _ => trivial
      obtain ⟨-, hrow, hl, hst, hb⟩ := hs
      have hfiles : (s.move .live (.rollback q.migrationId t) a).files .live = none ∧
          (s.move .live (.rollback q.migrationId t) a).files (.staging q.migrationId t) = some staged ∧
          (s.move .live (.rollback q.migrationId t) a).files (.rollback q.migrationId t) = live := by
        rw [← hl, ha]
        simp [Disk.move, hst]
      refine ⟨hcut _ hrow (.inr (.inl ⟨?_, hfiles⟩)), hrow, hfiles⟩
      rw [← hl, ha]; simp
    · refine Durable.Leaves.pure fun s hs => ?_
      obtain ⟨rfl, hrow, hl, hst, hb⟩ := hs
      have hnone : s.files .live = none := by simpa [Disk.exists] using hlive
      exact ⟨hrow, hnone, hst, by rw [hb, ← hl, hnone]⟩
  refine Durable.Leaves.bind (Q := fun _ d => d.journal.lookup q.migrationId = some (q.swapping t)) ?_ fun _ => ?_
  · refine Durable.Leaves.handle (D := fun _ d => d.journal.lookup q.migrationId = some (q.swapping t))
      ((leaves_replace fun s a hs ha => ?_).mono (fun _ => id) (fun _ => id) (fun _ _ => id) fun _ _ hs => hs.1)
      fun e => cuts_raise (by simp) _ _
    obtain ⟨hrow, hl, hst, hb⟩ := hs
    rw [hst] at ha
    cases ha
    refine ⟨hcut _ hrow (.inr (.inr ?_)), hrow⟩
    refine ⟨by simp [Disk.move], by simp [Disk.move], ?_⟩
    simpa [Disk.move] using hb
  · refine Durable.Leaves.bind (Q := fun _ _ => True)
      (cuts_setState (fun _ => id) (by simp) fun _ _ => trivial) fun _ => ?_
    exact leaves_outcomeOf

theorem cuts_promote {d : Disk A} (hverdict : q.validateStaging (d.files (.staging q.migrationId t)) = .returns) :
    Durable.Leaves (fun s => s.files = d.files ∧
      Holds q (q.record .validated t (.staging q.migrationId t) (some (.rollback q.migrationId t))) live s)
    (promote env q.migrationId) (CutState q live) (fun _ _ => True) fun _ _ => True := by
  unfold promote
  refine Durable.Leaves.bind_read fun s₀ => ?_
  refine Durable.Leaves.assume (fun s hs => hs.1 ▸ hs.2) fun hs₀ => ?_
  obtain ⟨hfiles, hrow, hlive⟩ := hs₀
  rw [hrow]
  refine Durable.Leaves.ite (fun _ => Durable.Leaves.raise fun _ _ => trivial) fun hstaging => ?_
  refine Durable.Leaves.ite (fun _ => Durable.Leaves.raise fun _ _ => trivial) fun hbackup => ?_
  obtain ⟨staged, hstaged⟩ := Option.isSome_iff_exists.1 (not_not.1 hstaging)
  have haccepts : q.validateStaging (some staged) = .returns := by rw [← hverdict, ← hfiles, hstaged]
  refine Durable.Leaves.bind (Q := fun _ s => s.journal.lookup q.migrationId = some (q.swapping t) ∧
    BeforeRenames q.migrationId t live staged s) ?_ fun _ => cuts_swap haccepts
  have hnext : (s₀.setState q.migrationId .swapping none).journal.lookup q.migrationId = some (q.swapping t) ∧
      BeforeRenames q.migrationId t live staged (s₀.setState q.migrationId .swapping none) :=
    ⟨row_setState hrow _ _, hlive, hstaged, Option.not_isSome_iff_eq_none.1 hbackup⟩
  have hcut : CutState q live (s₀.setState q.migrationId .swapping none) :=
    .inr ⟨t, staged, haccepts, hnext.1, .inl hnext.2⟩
  refine Durable.Leaves.write (fun s hs => ?_) fun s hs => ?_
  · rw [hs.1]; exact hcut
  · rw [hs.1]; exact hnext

theorem cuts_validateAndPromote {r : Record} (hr : r.state ≠ .swapping) : Durable.Leaves (Holds q r live)
    (validateAndPromote env q t (.staging q.migrationId t)) (CutState q live) (fun _ _ => True) fun _ _ => True := by
  unfold validateAndPromote
  refine Durable.Leaves.bind_read fun d => ?_
  rcases hverdict : q.validateStaging (d.files (.staging q.migrationId t)) with _ | e | e
  · -- accepted
    have hnote : ∀ s : Disk A, ((s.files (.staging q.migrationId t)).elim s
        fun a => s.note (.accepted q.migrationId a)).journal = s.journal ∧
        ((s.files (.staging q.migrationId t)).elim s fun a => s.note (.accepted q.migrationId a)).files = s.files := by
      intro s
      cases s.files (.staging q.migrationId t) <;> exact ⟨rfl, rfl⟩
    refine Durable.Leaves.bind (Q := fun _ s => s.files = d.files ∧ Holds q r live s) ?_ fun _ => ?_
    · refine Durable.Leaves.write (fun s hs => ?_) fun s hs => ?_
      · exact .inl (quiet_of_row (by rw [(hnote s).1]; exact hs.2.1) hr)
      · obtain ⟨rfl, hrow, hlive⟩ := hs
        exact ⟨(hnote s).2, by rw [(hnote s).1, hrow], by rw [(hnote s).2, hlive]⟩
    refine Durable.Leaves.bind (Q := fun _ s => s.files = d.files ∧
      Holds q (q.record .validated t (.staging q.migrationId t) (some (.rollback q.migrationId t))) live s) ?_
      fun _ => cuts_promote hverdict
    have hrow : ∀ s : Disk A, (s.writeRecord (q.record .validated t (.staging q.migrationId t)
        (some (.rollback q.migrationId t)))).journal.lookup q.migrationId =
        some (q.record .validated t (.staging q.migrationId t) (some (.rollback q.migrationId t))) :=
      fun s => (lookup_writeRecord s _ _).trans (if_pos rfl)
    exact Durable.Leaves.write (fun s _ => .inl (quiet_of_row (hrow s) (by simp [RunRequest.record])))
      fun s hs => ⟨hs.1, hrow s, hs.2.2⟩
  · exact (cuts_raise (by simp) _ _).pre fun s hs => hs.2.1
  · exact (cuts_raise (by simp) _ _).pre fun s hs => hs.2.1

theorem cuts_resume {r : Record} (hr : r.state ≠ .swapping) (hnamed : r.Named) (hid : r.migrationId = q.migrationId) :
    Durable.Leaves (Holds q r live) (resume env q r) (CutState q live) (fun _ _ => True) fun _ _ => True := by
  unfold resume
  refine Durable.Leaves.bind_read fun d => ?_
  refine Durable.Leaves.ite (fun _ => Durable.Leaves.raise fun _ _ => trivial) fun _ => ?_
  refine Durable.Leaves.ite (fun hswapping => absurd hswapping hr) fun _ => ?_
  refine Durable.Leaves.ite (fun _ => Durable.Leaves.ite (fun _ => Durable.Leaves.pure fun _ _ => trivial)
    fun _ => Durable.Leaves.raise fun _ _ => trivial) fun _ => ?_
  refine Durable.Leaves.ite (fun _ => Durable.Leaves.raise fun _ _ => trivial) fun _ => ?_
  cases hpath : r.stagingPath with
  | none => exact Durable.Leaves.raise fun _ _ => trivial
  | some staging =>
    refine Durable.Leaves.ite (fun _ => Durable.Leaves.raise fun _ _ => trivial) fun hstaged => ?_
    have hstate : r.state = .staged := by
      by_contra hne
      exact hstaged (.inl hne)
    have hstaging : staging = .staging q.migrationId r.fencingToken := by
      rw [← hid]
      exact Option.some.inj (hpath.symm.trans (hnamed.staging (by simp [hstate])))
    rw [hstaging]
    exact (cuts_validateAndPromote hr).pre fun s hs => hs.2

/-- Where a crash can cut a run of a migration that has no unfinished swap. -/
theorem cuts_run {d : Disk A} (hinv : Inv d) (hquiet : d.Quiet q.migrationId) :
    Durable.Leaves (fun s => s = d) (run env q) (fun s => q.sourceFingerprint ≠ "" ∧ CutState q (d.files .live) s)
      (fun _ _ => True) fun _ _ => True := by
  unfold run
  refine Durable.Leaves.ite (fun _ => Durable.Leaves.raise fun _ _ => trivial) fun hids => ?_
  have hfingerprint : q.sourceFingerprint ≠ "" := fun h => hids (.inr (.inl h))
  refine Durable.Leaves.mono (C := CutState q (d.files .live)) ?_ (fun _ => id) (fun _ hs => ⟨hfingerprint, hs⟩)
    (fun _ _ => id) fun _ _ => id
  refine Durable.Leaves.ite (fun _ => Durable.Leaves.raise fun _ _ => trivial) fun _ => ?_
  refine Durable.Leaves.bind_read fun d' => ?_
  refine Durable.Leaves.assume (fun s hs => hs.1.symm.trans hs.2) fun hd => ?_
  subst hd
  rcases hr : d'.journal.lookup q.migrationId with _ | r
  · unfold begin
    refine Durable.Leaves.bind_read fun d => ?_
    refine Durable.Leaves.ite (fun _ => Durable.Leaves.raise fun _ _ => trivial) fun _ => ?_
    refine Durable.Leaves.assume (fun s hs => hs.1.symm.trans hs.2.1) fun hd => ?_
    subst hd
    have hrow : ∀ s : Disk A, (s.writeRecord (q.record .building (nextFencingToken d.journal)
        (.staging q.migrationId (nextFencingToken d.journal)) none)).journal.lookup q.migrationId =
        some (q.record .building (nextFencingToken d.journal) (.staging q.migrationId (nextFencingToken d.journal))
          none) := fun s => (lookup_writeRecord s _ _).trans (if_pos rfl)
    refine Durable.Leaves.bind (Durable.Leaves.write
      (fun s _ => .inl (quiet_of_row (hrow s) (by simp [RunRequest.record]))) fun s hs => ⟨hrow s, ?_⟩) fun _ =>
      Durable.Leaves.bind cuts_build fun _ => cuts_validateAndPromote (by simp [Record.inState])
    rw [← hs.1]; rfl
  · refine (cuts_resume (hquiet r hr) (hinv.named _ r hr) (Table.lookup_key hr)).pre fun s hs => ?_
    rw [hs.1]
    exact ⟨hr, rfl⟩

end Cuts

/-! ## The run again -/

/-- The call returns PROMOTED, with the staged artifact live and what was live at the backup path. -/
def Recovered (call : Action A MigrationOutcome) (m : String) (t : Nat) (live : Option A) (staged : A) (d : Disk A) :
    Prop :=
  ∃ outcome, call.result d = .ok outcome ∧ outcome.state = .promoted ∧ (call.final d).files .live = some staged ∧
    ∀ a, live = some a → (call.final d).files (.rollback m t) = some a

/-- What is left to a second run: the original is at the backup path, and the fingerprint of the
live path is the one that the first run has recorded. -/
def Recoverable (E : Engine A S) (m : String) (t : Nat) (live : Option A) (staged : A) (d : Disk A) : Prop :=
  ∃ a, live = some a ∧ (BetweenRenames m t live staged d ∧ E.fingerprint a = "fresh" ∨
    AfterRenames m t live staged d ∧ E.fingerprint staged = E.fingerprint a)

section Rerun

variable {E : Engine A S} {d : Disk A} {t : Nat} {live : Option A} {staged : A} {source : S}

theorem isPromoted_swapping (hlock : env.lockHeld = false) {m v : String} {r : Record} (hr : d.journal.lookup m = some r)
    (hs : r.state = .swapping) : isPromoted env m v d = ([], .ok false) := by
  unfold isPromoted
  rw [if_neg (by simp [hlock]), Durable.read_bind, hr]
  simp only [Option.any_some, hs]
  rfl

/-- A second run takes its snapshot and its fingerprint from what is at the live path now. -/
theorem migrate_eq_run (hlock : env.lockHeld = false) {r : Record} (hr : d.journal.lookup E.migrationId = some r)
    (hs : r.state = .swapping) {s : S} (hsource : E.source (d.files .live) = .ok s) :
    migrateSchemaOffline env E d = run env (E.request s (E.sourceFingerprint (d.files .live))) d := by
  have hlive : migrateSchemaOffline env E d = migrateLive env E d := by
    unfold migrateSchemaOffline
    change Durable.bind _ _ d = _
    unfold Durable.bind
    simp only [Durable.result, Durable.visited, Durable.final, isPromoted_swapping hlock hr hs]
    rfl
  rw [hlive]
  unfold migrateLive
  rw [Durable.read_bind]
  cases hfile : d.files .live with
  | none =>
    rw [hfile] at hsource
    cases hsource
    rfl
  | some a =>
    rw [hfile] at hsource
    have hsnapshot : E.snapshot a = .ok s := hsource
    simp only [hsnapshot]
    rfl

theorem migrationId_ne : E.migrationId ≠ "" := by
  unfold Engine.migrationId
  intro h
  have hlength := congrArg String.length h
  simp [currentSchemaVersion] at hlength

theorem exists_iff {p : Place} : d.exists p = true ↔ d.files p ≠ none := Option.isSome_iff_ne_none

/-- Where the fingerprint is not the recorded one, the run is refused before the swap is looked at. -/
theorem run_mismatch (hlock : env.lockHeld = false) {q : RunRequest A} {r : Record}
    (hr : d.journal.lookup q.migrationId = some r) (h : r.sourceFingerprint ≠ q.sourceFingerprint) :
    ∃ e, run env q d = ([], .error e) := by
  unfold run
  split
  · exact ⟨_, rfl⟩
  · refine ⟨.state "migration_id is already bound to a different source fingerprint or target version" none, ?_⟩
    rw [if_neg (by simp [hlock]), Durable.read_bind, hr]
    simp only [resume]
    rw [Durable.read_bind, if_pos (.inl h)]
    rfl

/-- Where the fingerprint is the recorded one, the run comes to the recovery of the swap. -/
theorem run_swapping (hlock : env.lockHeld = false) {q : RunRequest A} {r : Record}
    (hr : d.journal.lookup q.migrationId = some r) (hs : r.state = .swapping)
    (hids : q.migrationId ≠ "" ∧ q.sourceFingerprint ≠ "" ∧ q.targetVersion ≠ "")
    (hfingerprint : r.sourceFingerprint = q.sourceFingerprint) (hversion : r.targetVersion = q.targetVersion) :
    run env q d = recoverInterruptedSwap env r d := by
  unfold run
  rw [if_neg (by simp [hids]), if_neg (by simp [hlock]), Durable.read_bind, hr]
  simp only [resume]
  rw [Durable.read_bind, if_neg (by simp [hfingerprint, hversion]), if_pos hs]

/-- Any other state of the three paths is ambiguous. -/
theorem recover_ambiguous (env : Env) {q : RunRequest A}
    (hafter : ¬ (d.files .live ≠ none ∧ d.files (.staging q.migrationId t) = none ∧
      d.files (.rollback q.migrationId t) ≠ none))
    (hbetween : ¬ (d.files .live = none ∧ d.files (.staging q.migrationId t) ≠ none ∧
      d.files (.rollback q.migrationId t) ≠ none)) :
    ∃ e, recoverInterruptedSwap env (q.swapping t) d = ([], .error e) := by
  refine ⟨.state "interrupted Kùzu swap is ambiguous; operator inspection is required" none, ?_⟩
  unfold recoverInterruptedSwap
  rw [Durable.read_bind]
  change (if _ then _ else if _ then _ else _ : Action A MigrationOutcome) d = _
  rw [if_neg, if_neg]
  · rfl
  · simpa only [exists_iff, not_not] using hbetween
  · simpa only [exists_iff, not_not] using hafter

/-- The journal entry that ends a swap. -/
theorem promoted_entry {m : String} {r : Record} (hr : d.journal.lookup m = some r) :
    (do
      setState m .promoted none
      outcomeOf m : Action A MigrationOutcome) d =
      ([d.setState m .promoted none], .ok (r.inState .promoted none).outcome) := by
  have hout : outcomeOf m (d.setState m .promoted none) = ([], .ok (r.inState .promoted none).outcome) := by
    unfold outcomeOf
    rw [Durable.read_bind, row_setState hr]
    rfl
  unfold setState
  rw [Durable.write_bind, Durable.visited, Durable.result, hout]

/-- After both renames only the journal entry is missing. -/
theorem recover_after {q : RunRequest A} (hr : d.journal.lookup q.migrationId = some (q.swapping t))
    (hlive : d.files .live ≠ none) (hstaging : d.files (.staging q.migrationId t) = none)
    (hbackup : d.files (.rollback q.migrationId t) ≠ none) :
    recoverInterruptedSwap env (q.swapping t) d =
      ([d.setState q.migrationId .promoted none], .ok ((q.swapping t).inState .promoted none).outcome) := by
  unfold recoverInterruptedSwap
  rw [Durable.read_bind]
  change (if _ then _ else if _ then _ else _ : Action A MigrationOutcome) d = _
  rw [if_pos]
  · exact promoted_entry hr
  · simpa only [exists_iff, not_not] using ⟨hlive, hstaging, hbackup⟩

/-- Between the renames the second one and the journal entry are missing. -/
theorem recover_between {q : RunRequest A} (hrename : ∀ p p', env.refuses p p' = none)
    (hr : d.journal.lookup q.migrationId = some (q.swapping t)) (hlive : d.files .live = none)
    (hstaging : d.files (.staging q.migrationId t) = some staged)
    (hbackup : d.files (.rollback q.migrationId t) ≠ none) :
    recoverInterruptedSwap env (q.swapping t) d =
      ([d.move (.staging q.migrationId t) .live staged,
        (d.move (.staging q.migrationId t) .live staged).setState q.migrationId .promoted none],
        .ok ((q.swapping t).inState .promoted none).outcome) := by
  have hreplace : replace env (.staging q.migrationId t) .live d =
      ([d.move (.staging q.migrationId t) .live staged], .ok ()) := by
    unfold replace
    rw [Durable.read_bind, hrename, hstaging]
    rfl
  have hentry := promoted_entry (d := d.move (.staging q.migrationId t) .live staged) (m := q.migrationId) hr
  unfold recoverInterruptedSwap
  rw [Durable.read_bind]
  change (if _ then _ else if _ then _ else _ : Action A MigrationOutcome) d = _
  rw [if_neg, if_pos]
  · have hok : (replace env (.staging q.migrationId t) .live).result d = .ok () := by rw [Durable.result, hreplace]
    have hfinal : (replace env (.staging q.migrationId t) .live).final d =
        d.move (.staging q.migrationId t) .live staged := by
      rw [Durable.final, Durable.visited, hreplace]
      rfl
    obtain ⟨hvisited, hresult, -⟩ := Durable.bind_ok (f := fun _ => (do
      setState q.migrationId .promoted none
      outcomeOf q.migrationId : Action A MigrationOutcome)) hok
    rw [hfinal] at hvisited hresult
    refine Prod.ext ?_ ?_
    · refine hvisited.trans ?_
      rw [Durable.visited, Durable.visited, hreplace, hentry]
      rfl
    · refine hresult.trans ?_
      rw [Durable.result, hentry]
  · simpa only [exists_iff, not_not] using ⟨hlive, by rw [hstaging]; simp, hbackup⟩
  · simp only [exists_iff, hlive, ne_eq, not_true_eq_false, false_and, not_false_eq_true]

theorem not_recovered {call : Action A MigrationOutcome} {m : String} {e : MigrationError}
    (h : call d = ([], .error e)) : ¬ Recovered call m t live staged d := by
  rintro ⟨outcome, hok, -⟩
  rw [Durable.result, h] at hok
  cases hok

/-- The second run of an interrupted migration, by the fingerprint that it takes. -/
theorem migrate_interrupted (hlock : env.lockHeld = false) {recorded : String}
    (hr : d.journal.lookup E.migrationId = some ((E.request source recorded).swapping t)) {s : S}
    (hsource : E.source (d.files .live) = .ok s) (hrecorded : recorded ≠ "") :
    (recorded = E.sourceFingerprint (d.files .live) ∧
      migrateSchemaOffline env E d = recoverInterruptedSwap env ((E.request source recorded).swapping t) d) ∨
    (recorded ≠ E.sourceFingerprint (d.files .live) ∧ ∃ e, migrateSchemaOffline env E d = ([], .error e)) := by
  have hrun := migrate_eq_run hlock hr rfl hsource
  by_cases h : recorded = E.sourceFingerprint (d.files .live)
  · refine .inl ⟨h, hrun.trans ?_⟩
    exact run_swapping hlock hr rfl ⟨migrationId_ne, h ▸ hrecorded, by simp [Engine.request, currentSchemaVersion]⟩ h rfl
  · obtain ⟨e, hraise⟩ : ∃ e, run env (E.request s (E.sourceFingerprint (d.files .live))) d = ([], .error e) :=
      run_mismatch hlock hr h
    exact .inr ⟨h, e, hrun.trans hraise⟩

/-- A call that ends as this one, having left these states, has recovered the swap. -/
theorem recovered_of {call : Action A MigrationOutcome} {m : String} {visited : List (Disk A)} {d' : Disk A}
    {outcome : MigrationOutcome} (hcall : call d = (visited, .ok outcome)) (hlast : visited.getLastD d = d')
    (hpromoted : outcome.state = .promoted) (hlive : d'.files .live = some staged)
    (hbackup : d'.files (.rollback m t) = live) : Recovered call m t live staged d := by
  have hfinal : call.final d = d' := by rw [Durable.final, Durable.visited, hcall, hlast]
  refine ⟨outcome, by rw [Durable.result, hcall], hpromoted, by rw [hfinal, hlive], fun a ha => ?_⟩
  rw [hfinal, hbackup, ha]

/-- A second run of an interrupted migration recovers it in exactly the states in which it is left
to it. -/
theorem recovered_iff (hlock : env.lockHeld = false) (hrename : ∀ p p', env.refuses p p' = none)
    (hsource : E.source live = .ok source) (haccepts : E.validate source (some staged) = .returns)
    (hfingerprint : E.sourceFingerprint live ≠ "")
    (hi : Interrupted (E.request source (E.sourceFingerprint live)) t live staged d) :
    Recovered (migrateSchemaOffline env E) E.migrationId t live staged d ↔
      Recoverable E E.migrationId t live staged d := by
  obtain ⟨hrow, hfiles⟩ := hi
  rcases hfiles with ⟨hl, hst, hb⟩ | ⟨hne, hl, hst, hb⟩ | ⟨hl, hst, hb⟩
  · -- the live path still has the original: the fingerprints agree and the state is ambiguous
    have hno : ¬ Recoverable E E.migrationId t live staged d := by
      rintro ⟨a, ha, ⟨⟨hne, hnone, -⟩, -⟩ | ⟨⟨-, hnone, -⟩, -⟩⟩
      · exact hne (hl.symm.trans hnone)
      · exact absurd (hst.symm.trans hnone) (by simp)
    refine iff_of_false ?_ hno
    obtain ⟨e, hraise⟩ := recover_ambiguous env (q := E.request source (E.sourceFingerprint live)) (t := t)
      (d := d) (fun h => h.2.2 hb) (fun h => h.2.2 hb)
    rcases migrate_interrupted hlock hrow (hl ▸ hsource) hfingerprint with ⟨-, heq⟩ | ⟨-, e', heq⟩
    · exact not_recovered (heq.trans hraise)
    · exact not_recovered heq
  · -- the live path is free: the fingerprint is that of no graph
    obtain ⟨a, rfl⟩ := Option.ne_none_iff_exists'.1 hne
    have hfresh : E.sourceFingerprint (d.files .live) = "fresh" := by rw [hl]; rfl
    rcases migrate_interrupted hlock hrow (by rw [hl]; rfl) hfingerprint with ⟨hsame, heq⟩ | ⟨hdiffer, e, heq⟩
    · refine iff_of_true ?_ ⟨a, rfl, .inl ⟨⟨hne, hl, hst, hb⟩, hsame.trans hfresh⟩⟩
      refine recovered_of (heq.trans (recover_between hrename hrow hl hst (by rw [hb]; simp))) rfl rfl ?_ ?_
      · simp [Disk.setState, Disk.move]
      · have hb : d.files (.rollback E.migrationId t) = some a := hb
        simpa [Disk.setState, Disk.move] using hb
    · refine iff_of_false (not_recovered heq) ?_
      rintro ⟨b, hab, ⟨-, hsame⟩ | ⟨⟨hlive, -, -⟩, -⟩⟩
      · cases hab
        exact hdiffer (hsame.trans hfresh.symm)
      · exact absurd (hl.symm.trans hlive) (by simp)
  · -- the live path has the migrated artifact: the fingerprint is its own
    have hreads : ∃ observed, E.snapshot staged = .ok observed := by
      unfold Engine.validate at haccepts
      rcases hsnapshot : E.snapshot staged with e | observed
      · simp [hsnapshot] at haccepts
      · exact ⟨observed, rfl⟩
    obtain ⟨observed, hobserved⟩ := hreads
    have hown : E.sourceFingerprint (d.files .live) = E.fingerprint staged := by rw [hl]; rfl
    rcases migrate_interrupted hlock hrow (s := observed) (by rw [hl]; exact hobserved) hfingerprint with
      ⟨hsame, heq⟩ | ⟨hdiffer, e, heq⟩
    · rcases live with _ | a
      · -- a fresh graph has no backup, which makes the state ambiguous
        obtain ⟨e, hraise⟩ := recover_ambiguous env (q := E.request source (E.sourceFingerprint none)) (t := t)
          (d := d) (fun h => h.2.2 hb) (fun h => h.2.2 hb)
        refine iff_of_false (not_recovered (heq.trans hraise)) ?_
        rintro ⟨a, ha, -⟩
        cases ha
      · refine iff_of_true ?_ ⟨a, rfl, .inr ⟨⟨hl, hst, hb⟩, (hsame.trans hown).symm⟩⟩
        refine recovered_of (heq.trans (recover_after hrow (by rw [hl]; simp) hst (by rw [hb]; simp))) rfl rfl hl ?_
        exact hb
    · refine iff_of_false (not_recovered heq) ?_
      rintro ⟨a, rfl, ⟨⟨-, hlive, -⟩, -⟩ | ⟨-, hsame⟩⟩
      · exact absurd (hl.symm.trans hlive) (by simp)
      · exact hdiffer (hown.trans hsame).symm

end Rerun

/-! ## Every crash of a schema migration -/

variable {E : Engine A S}

theorem leaves_isPromoted {P C : Disk A → Prop} {m v : String} : Durable.Leaves P (isPromoted env m v) C
    (fun _ => P) fun _ _ => True := by
  unfold isPromoted
  refine Durable.Leaves.ite (fun _ => Durable.Leaves.raise fun _ _ => trivial) fun _ => ?_
  exact Durable.Leaves.bind_read fun d => Durable.Leaves.pure fun s hs => hs.2

theorem leaves_promotedOutcome {P C : Disk A → Prop} {m v : String} : Durable.Leaves P (promotedOutcome env m v) C
    (fun _ _ => True) fun _ _ => True := by
  unfold promotedOutcome
  refine Durable.Leaves.ite (fun _ => Durable.Leaves.raise fun _ _ => trivial) fun _ => ?_
  refine Durable.Leaves.bind_read fun d => ?_
  cases d.journal.lookup m with
  | none => exact Durable.Leaves.raise fun _ _ => trivial
  | some r =>
    exact Durable.Leaves.ite (fun _ => Durable.Leaves.pure fun _ _ => trivial) fun _ =>
      Durable.Leaves.raise fun _ _ => trivial

/-- Where a crash can cut a schema migration. -/
theorem cuts_migrate {d : Disk A} (hinv : Inv d) (hquiet : d.Quiet E.migrationId) :
    Durable.Leaves (fun s => s = d) (migrateSchemaOffline env E)
      (fun s => ∃ source, E.source (d.files .live) = .ok source ∧ E.sourceFingerprint (d.files .live) ≠ "" ∧
        CutState (E.request source (E.sourceFingerprint (d.files .live))) (d.files .live) s)
      (fun _ _ => True) fun _ _ => True := by
  unfold migrateSchemaOffline
  refine Durable.Leaves.bind (leaves_isPromoted.mono (fun _ => id) (fun _ => id) (fun _ _ => id) fun _ _ => id)
    fun promoted => ?_
  refine Durable.Leaves.ite (fun _ => leaves_promotedOutcome) fun _ => ?_
  unfold migrateLive
  refine Durable.Leaves.bind_read fun d' => ?_
  refine Durable.Leaves.assume (fun s hs => hs.1.symm.trans hs.2) fun hd => ?_
  subst hd
  cases hfile : d'.files .live with
  | none =>
    refine (cuts_run (q := E.request E.empty "fresh") hinv hquiet).mono (fun s hs => hs.1) (fun s hs => ?_)
      (fun _ _ => id) fun _ _ => id
    rw [hfile] at hs
    exact ⟨E.empty, rfl, hs.1, hs.2⟩
  | some a =>
    cases hsnapshot : E.snapshot a with
    | error e => simp only [hsnapshot]; exact Durable.Leaves.raise fun _ _ => trivial
    | ok source =>
      simp only [hsnapshot]
      refine (cuts_run (q := E.request source (E.fingerprint a)) hinv hquiet).mono (fun s hs => hs.1) (fun s hs => ?_)
        (fun _ _ => id) fun _ _ => id
      rw [hfile] at hs
      exact ⟨source, hsnapshot, hs.1, hs.2⟩

/-- A disk that some sequence of runs and rollbacks, each completed or cut, leads to. -/
def Disk.Reachable (d : Disk A) : Prop := ∃ first attempts, d = Foundation.run exec (Disk.start first) attempts

/-- A schema migration of any reachable live path without an unfinished swap is cut while its row is
SWAPPING. The cut is before, between or after the two renames, and a second run with nothing in its
way returns PROMOTED, with the artifacts in place, if and only if it takes the fingerprint that the
first has recorded and the original is at the backup path. -/
theorem interrupted_swap_recovery (E : Engine A S) (env env' : Env) (d : Disk A) (k : Nat) (r : Record)
    (hreachable : d.Reachable) (hquiet : d.Quiet E.migrationId)
    (hrow : ((migrateSchemaOffline env E).cut k d).journal.lookup E.migrationId = some r)
    (hswapping : r.state = .swapping) (hlock : env'.lockHeld = false)
    (hrename : ∀ p p', env'.refuses p p' = none) :
    ∃ source t staged, E.source (d.files .live) = .ok source ∧ E.validate source (some staged) = .returns ∧
      Interrupted (E.request source (E.sourceFingerprint (d.files .live))) t (d.files .live) staged
        ((migrateSchemaOffline env E).cut k d) ∧
      (Recovered (migrateSchemaOffline env' E) E.migrationId t (d.files .live) staged
          ((migrateSchemaOffline env E).cut k d) ↔
        Recoverable E E.migrationId t (d.files .live) staged ((migrateSchemaOffline env E).cut k d)) := by
  obtain ⟨first, attempts, hd⟩ := hreachable
  have hinv : Inv d := by
    rw [hd]
    exact Foundation.stable_run inv_exec (Inv.start first)
  rcases Durable.cut_mem (migrateSchemaOffline env E) k d with heq | hmem
  · rw [heq] at hrow
    exact absurd hswapping (hquiet r hrow)
  obtain ⟨source, hsource, hfingerprint, hcut⟩ := (cuts_migrate hinv hquiet).visited d rfl _ hmem
  rcases hcut with hquiet' | ⟨t, staged, haccepts, hi⟩
  · exact absurd hswapping (hquiet' r hrow)
  · exact ⟨source, t, staged, hsource, haccepts, hi,
      recovered_iff hlock hrename hsource haccepts hfingerprint hi⟩

/-- Graphs of one text in an old or in the current format. -/
def textEngine : Engine (Bool × String) String where
  pathHash := "0f"
  snapshot a := .ok a.2
  empty := ""
  fingerprint a := if a.1 then "current" else "old"
  build s := ⟨[some (true, s)], .returns⟩
  digest := id

def openEnv : Env := ⟨false, fun _ _ => none⟩

/-- The migration of an old graph, cut after so many of its writes. -/
def cutAfter (k : Nat) : Disk (Bool × String) :=
  (migrateSchemaOffline openEnv textEngine).cut k (Disk.start (some (false, "g")))

theorem interrupted_swap_recovery_between : ∃ source t staged,
    textEngine.source (some (false, "g")) = .ok source ∧ textEngine.validate source (some staged) = .returns ∧
      Interrupted (textEngine.request source (textEngine.sourceFingerprint (some (false, "g")))) t (some (false, "g"))
        staged (cutAfter 7) ∧
      (Recovered (migrateSchemaOffline openEnv textEngine) textEngine.migrationId t (some (false, "g")) staged
          (cutAfter 7) ↔
        Recoverable textEngine textEngine.migrationId t (some (false, "g")) staged (cutAfter 7)) :=
  interrupted_swap_recovery textEngine openEnv openEnv (Disk.start (some (false, "g"))) 7
    ((textEngine.request "g" "old").swapping 1) ⟨some (false, "g"), [], rfl⟩ (fun _ h => by cases h) (by decide +kernel)
    rfl rfl fun _ _ => rfl

/-- The migration of an old graph is cut before, between and after its renames: each time its row is
SWAPPING, and each time the second run is refused. -/
theorem interrupted_swap_refused :
    (∀ k ∈ [6, 7, 8], ((cutAfter k).journal.lookup textEngine.migrationId).map (·.state) = some .swapping ∧
      ((cutAfter k).files .live, (cutAfter k).files (.staging textEngine.migrationId 1),
        (cutAfter k).files (.rollback textEngine.migrationId 1)) =
        if k = 6 then (some (false, "g"), some (true, "g"), none)
        else if k = 7 then (none, some (true, "g"), some (false, "g"))
        else (some (true, "g"), none, some (false, "g"))) ∧
    ∀ k ∈ [6, 7, 8], ∀ t live staged, ¬ Recovered (migrateSchemaOffline openEnv textEngine) textEngine.migrationId t live
      staged (cutAfter k) := by
  refine ⟨by decide +kernel, fun k hk t live staged => ?_⟩
  rintro ⟨outcome, hok, -⟩
  have hresult : ∀ k ∈ [6, 7, 8], ¬ ((migrateSchemaOffline openEnv textEngine).result (cutAfter k)).isOk := by
    decide +kernel
  exact hresult k hk (by rw [hok]; rfl)

end Mesa.Migration
