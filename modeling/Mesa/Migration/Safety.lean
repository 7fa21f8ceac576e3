/-
No artifact is lost: an invariant of the files, the journal and the history that every commit and
every rename of a migration keeps, so that a crash anywhere leaves it, and what a rollback that
returns has restored.
-/
import Mesa.Foundation.Run
import Mesa.Migration.Coordinator

namespace Mesa.Migration

open Mesa.Foundation

variable {A : Type}

/-! ## The invariant -/

/-- The live path, and the siblings that retain what was live. -/
def Place.retained : Place → Bool
  | .staging .. => false
  | _ => true

/-- The states in which a migration may have taken the live artifact away. -/
def JournalState.swapOpen (s : JournalState) : Bool := s ∈ [.swapping, .swapRecoveryRequired, .rollingBack]

/-- The states of a migration whose swap has begun. -/
def JournalState.begun (s : JournalState) : Bool :=
  s ∈ [.swapping, .swapRecoveryRequired, .promoted, .rollingBack, .rolledBack]

/-- The states in which the staging artifact is one that was accepted. -/
def JournalState.accepts (s : JournalState) : Bool := s ∈ [.validated, .swapping, .swapRecoveryRequired]

/-- The artifact has been at the live path. -/
def Disk.wasLive (d : Disk A) (a : A) : Prop := .initial a ∈ d.history ∨ ∃ p, .arrived p a ∈ d.history

/-- The artifact was at the live path when the swap of the migration began. -/
def Disk.displaced (d : Disk A) (migrationId : String) (a : A) : Prop :=
  .journaled migrationId .swapping (some a) ∈ d.history

/-- What holds of the disk at any time: what was live is still there, the live path is empty only
while a swap is open, and only accepted or restored artifacts have come to it. -/
structure Safe (d : Disk A) : Prop where
  kept : ∀ a, d.wasLive a → ∃ p, p.retained = true ∧ d.files p = some a
  absent : d.files .live = none → (∃ r ∈ d.journal.rows, r.state.swapOpen = true) ∨ ∀ a, ¬ d.wasLive a
  arrivals : ∀ p a, .arrived p a ∈ d.history → (∃ m t, p = .staging m t ∧ .accepted m a ∈ d.history) ∨
    ∃ m t, p = .rollback m t ∧ d.displaced m a

/-- The paths that a row names. -/
structure Record.Named (r : Record) : Prop where
  staging : r.state ≠ .rolledBack → r.stagingPath = some (.staging r.migrationId r.fencingToken)
  backup : r.state.begun = true ∨ r.state = .validated → r.state ≠ .rolledBack →
    r.backupPath = some (.rollback r.migrationId r.fencingToken)

structure Inv (d : Disk A) : Prop extends Safe d where
  named : ∀ m r, d.journal.lookup m = some r → r.Named
  accepted : ∀ m r a, d.journal.lookup m = some r → r.state.accepts = true →
    d.files (.staging m r.fencingToken) = some a → .accepted m a ∈ d.history
  begun : ∀ m x, .journaled m .swapping x ∈ d.history → ∃ r, d.journal.lookup m = some r ∧ r.state.begun = true
  once : ∀ m x y, .journaled m .swapping x ∈ d.history → .journaled m .swapping y ∈ d.history → x = y
  backups : ∀ m t a, d.files (.rollback m t) = some a → d.displaced m a

theorem Inv.start (live : Option A) : Inv (Disk.start live) where
  kept a h := by
    refine ⟨.live, rfl, ?_⟩
    rcases h with h | ⟨p, h⟩ <;> cases live <;> simp [Disk.start] at h ⊢
    exact h.symm
  absent h := by
    refine .inr fun a => ?_
    rintro (ha | ⟨p, ha⟩) <;> cases live <;> simp [Disk.start] at h ha
  arrivals p a h := by cases live <;> simp [Disk.start] at h
  named m r h := by cases h
  accepted m r a h := by cases h
  begun m x h := by cases live <;> simp [Disk.start] at h
  once m x y h := by cases live <;> simp [Disk.start] at h
  backups m t a h := by simp [Disk.start] at h

/-! ## One write -/

theorem wasLive_cons {d d' : Disk A} {e : Event A} (h : d'.history = e :: d.history) {a : A}
    (he : e ≠ .initial a) (he' : ∀ p, e ≠ .arrived p a) : d'.wasLive a ↔ d.wasLive a := by
  unfold Disk.wasLive
  rw [h]
  simp only [List.mem_cons]
  constructor
  · rintro ((heq | hmem) | ⟨p, heq | hmem⟩)
    · exact absurd heq.symm he
    · exact .inl hmem
    · exact absurd heq.symm (he' p)
    · exact .inr ⟨p, hmem⟩
  · rintro (hmem | ⟨p, hmem⟩)
    · exact .inl (.inr hmem)
    · exact .inr ⟨p, .inr hmem⟩

theorem Inv.note_accepted {d : Disk A} (h : Inv d) (m : String) (a : A) : Inv (d.note (.accepted m a)) where
  kept x hx := h.kept x ((wasLive_cons rfl (by simp) (by simp)).1 hx)
  absent hlive := (h.absent hlive).imp_right fun hn x hx => hn x ((wasLive_cons rfl (by simp) (by simp)).1 hx)
  arrivals p x hx := by
    rcases h.arrivals p x (by simpa [Disk.note] using hx) with ⟨n, t, hp, hacc⟩ | ⟨n, t, hp, hdis⟩
    · exact .inl ⟨n, t, hp, List.mem_cons_of_mem _ hacc⟩
    · exact .inr ⟨n, t, hp, List.mem_cons_of_mem _ hdis⟩
  named := h.named
  accepted n r x hr hs hf := List.mem_cons_of_mem _ (h.accepted n r x hr hs hf)
  begun n x hx := h.begun n x (by simpa [Disk.note] using hx)
  once n x y hx hy := h.once n x y (by simpa [Disk.note] using hx) (by simpa [Disk.note] using hy)
  backups n t x hx := List.mem_cons_of_mem _ (h.backups n t x hx)

/-- A builder writes at the staging path of a row that is not validated yet. -/
theorem Inv.put {d : Disk A} (h : Inv d) {m : String} {t : Nat}
    (hrow : ∀ r, d.journal.lookup m = some r → r.state.accepts = false) (content : Option A) :
    Inv (d.put (.staging m t) content) where
  kept x hx := by
    obtain ⟨p, hp, hf⟩ := h.kept x hx
    refine ⟨p, hp, ?_⟩
    rw [show (d.put (.staging m t) content).files p = d.files p from
      Function.update_of_ne (by rintro rfl; cases hp) _ _, hf]
  absent hlive := h.absent (by simpa [Disk.put] using hlive)
  arrivals := h.arrivals
  named := h.named
  accepted n r x hr hs hf := by
    by_cases hn : n = m
    · subst hn; rw [hrow r hr] at hs; cases hs
    · exact h.accepted n r x hr hs (by simpa [Disk.put, Function.update_of_ne, hn] using hf)
  begun := h.begun
  once := h.once
  backups n t' x hx := h.backups n t' x (by simpa [Disk.put] using hx)

/-- The journal commits the row of one migration. -/
theorem Inv.journaled {d d' : Disk A} (h : Inv d) {r : Record} (hfiles : d'.files = d.files)
    (hhistory : d'.history = .journaled r.migrationId r.state (d.files .live) :: d.history)
    (hlookup : ∀ k, d'.journal.lookup k = if k = r.migrationId then some r else d.journal.lookup k)
    (hnamed : r.Named)
    (hopen : d.files .live = none → ∀ x, d.journal.lookup r.migrationId = some x → x.state.swapOpen = true →
      r.state.swapOpen = true)
    (haccepted : r.state.accepts = true → ∀ a, d.files (.staging r.migrationId r.fencingToken) = some a →
      .accepted r.migrationId a ∈ d.history)
    (hbegun : r.state.begun = true ∨ ∀ x, .journaled r.migrationId .swapping x ∉ d.history)
    (honce : r.state = .swapping → ∀ x, .journaled r.migrationId .swapping x ∉ d.history) : Inv d' := by
  have hlive : ∀ a, d'.wasLive a ↔ d.wasLive a := fun a => wasLive_cons hhistory (by simp) (by simp)
  have hkeep : ∀ e, e ∈ d.history → e ∈ d'.history := fun e he => by rw [hhistory]; exact List.mem_cons_of_mem _ he
  have hbegan : ∀ m x, .journaled m .swapping x ∈ d'.history →
      (m = r.migrationId ∧ r.state = .swapping ∧ x = d.files .live) ∨ .journaled m .swapping x ∈ d.history := by
    intro m x hx
    rw [hhistory] at hx
    rcases List.mem_cons.1 hx with heq | hx
    · obtain ⟨rfl, hs, rfl⟩ := Event.journaled.inj heq
      exact .inl ⟨rfl, hs.symm, rfl⟩
    · exact .inr hx
  refine { kept := fun a ha => ?_, absent := fun hnone => ?_, arrivals := fun p a ha => ?_, named := fun m x hx => ?_,
           accepted := fun m x a hx hs hf => ?_, begun := fun m x hx => ?_, once := fun m x y hx hy => ?_,
           backups := fun m t a ha => ?_ }
  · rw [hfiles]; exact h.kept a ((hlive a).1 ha)
  · rw [hfiles] at hnone
    rcases h.absent hnone with ⟨x, hx, hs⟩ | hn
    · refine .inl ?_
      have hx' := Table.lookup_of_mem hx
      by_cases hkey : x.migrationId = r.migrationId
      · have hr := hlookup r.migrationId
        rw [if_pos rfl] at hr
        exact ⟨r, Table.lookup_mem hr, hopen hnone x (hkey ▸ hx') hs⟩
      · have hr := hlookup x.migrationId
        rw [if_neg hkey] at hr
        exact ⟨x, Table.lookup_mem (hr.trans hx'), hs⟩
    · exact .inr fun a ha => hn a ((hlive a).1 ha)
  · rw [hhistory] at ha
    rcases List.mem_cons.1 ha with heq | ha
    · cases heq
    · rcases h.arrivals p a ha with ⟨m, t, hp, hacc⟩ | ⟨m, t, hp, hdis⟩
      · exact .inl ⟨m, t, hp, hkeep _ hacc⟩
      · exact .inr ⟨m, t, hp, hkeep _ hdis⟩
  · rw [hlookup] at hx
    split at hx
    · cases hx; exact hnamed
    · exact h.named m x hx
  · rw [hlookup] at hx
    rw [hfiles] at hf
    split at hx
    · next hm => cases hx; subst hm; exact hkeep _ (haccepted hs a hf)
    · exact hkeep _ (h.accepted m x a hx hs hf)
  · rw [hlookup]
    rcases hbegan m x hx with ⟨rfl, hs, -⟩ | hx
    · exact ⟨r, by rw [if_pos rfl], by rw [hs]; rfl⟩
    · split
      · next hm =>
        refine ⟨r, rfl, hbegun.resolve_right fun hn => hn x ?_⟩
        rw [← hm]; exact hx
      · exact h.begun m x hx
  · rcases hbegan m x hx with ⟨hm, hs, rfl⟩ | hx <;> rcases hbegan m y hy with ⟨hm', hs', rfl⟩ | hy
    · rfl
    · exact absurd (hm ▸ hy) (honce hs y)
    · exact absurd (hm' ▸ hx) (honce hs' x)
    · exact h.once m x y hx hy
  · rw [hfiles] at ha; exact hkeep _ (h.backups m t a ha)

/-- A rename to a free retained path. -/
theorem Inv.move {d : Disk A} (h : Inv d) {source target : Place} {a : A} (hsource : d.files source = some a)
    (htarget : d.files target = none) (hretained : target.retained = true)
    (habsent : source = .live → ∃ r ∈ d.journal.rows, r.state.swapOpen = true)
    (harrives : target = .live → (∃ m t, source = .staging m t ∧ .accepted m a ∈ d.history) ∨
      ∃ m t, source = .rollback m t ∧ d.displaced m a)
    (hbackup : ∀ m t, target = .rollback m t → d.displaced m a) : Inv (d.move source target a) := by
  have hne : source ≠ target := by rintro rfl; rw [hsource] at htarget; cases htarget
  have hkeep : ∀ e, e ∈ d.history → e ∈ (d.move source target a).history := by
    intro e he
    simp only [Disk.move]
    split
    · exact List.mem_cons_of_mem _ he
    · exact he
  have hfiles : ∀ p, (d.move source target a).files p =
      if p = target then some a else if p = source then none else d.files p := by
    intro p
    simp only [Disk.move, Function.update_apply]
  have hnew : ∀ e, e ∈ (d.move source target a).history → (target = .live ∧ e = .arrived source a) ∨ e ∈ d.history := by
    intro e he
    simp only [Disk.move] at he
    split at he
    · next hlive => exact (List.mem_cons.1 he).imp_left fun heq => ⟨hlive, heq⟩
    · exact .inr he
  have hbegan : ∀ m s x, .journaled m s x ∈ (d.move source target a).history → .journaled m s x ∈ d.history := by
    intro m s x hx
    rcases hnew _ hx with ⟨-, heq⟩ | hx
    · cases heq
    · exact hx
  refine { kept := fun x hx => ?_, absent := fun hnone => ?_, arrivals := fun p x hx => ?_, named := h.named,
           accepted := fun m r x hr hs hf => ?_, begun := fun m x hx => h.begun m x (hbegan m _ x hx),
           once := fun m x y hx hy => h.once m x y (hbegan m _ x hx) (hbegan m _ y hy), backups := fun m t x hx => ?_ }
  · have hcases : x = a ∨ d.wasLive x := by
      rcases hx with hx | ⟨p, hx⟩
      · rcases hnew _ hx with ⟨-, heq⟩ | hx
        · cases heq
        · exact .inr (.inl hx)
      · rcases hnew _ hx with ⟨-, heq⟩ | hx
        · exact .inl (Event.arrived.inj heq).2
        · exact .inr (.inr ⟨p, hx⟩)
    rcases hcases with rfl | hx
    · exact ⟨target, hretained, by rw [hfiles, if_pos rfl]⟩
    · obtain ⟨p, hp, hf⟩ := h.kept x hx
      by_cases hps : p = source
      · subst hps
        rw [hsource] at hf
        cases hf
        exact ⟨target, hretained, by rw [hfiles, if_pos rfl]⟩
      · refine ⟨p, hp, ?_⟩
        rw [hfiles, if_neg (by rintro rfl; rw [hf] at htarget; cases htarget), if_neg hps, hf]
  · rw [hfiles] at hnone
    split at hnone
    · cases hnone
    · next htl =>
      split at hnone
      · next hsl => exact .inl (habsent hsl.symm)
      · refine (h.absent hnone).imp_right fun hn x hx => hn x ?_
        refine hx.imp (fun hx => ?_) fun ⟨p, hx⟩ => ⟨p, ?_⟩
        · exact (hnew _ hx).resolve_left fun hnot => htl hnot.1.symm
        · exact (hnew _ hx).resolve_left fun hnot => htl hnot.1.symm
  · have hold : (∃ m t, p = .staging m t ∧ .accepted m x ∈ d.history) ∨ ∃ m t, p = .rollback m t ∧ d.displaced m x := by
      rcases hnew _ hx with ⟨hlive, heq⟩ | hx
      · obtain ⟨rfl, rfl⟩ := Event.arrived.inj heq
        exact harrives hlive
      · exact h.arrivals p x hx
    rcases hold with ⟨m, t, hp, hacc⟩ | ⟨m, t, hp, hdis⟩
    · exact .inl ⟨m, t, hp, hkeep _ hacc⟩
    · exact .inr ⟨m, t, hp, hkeep _ hdis⟩
  · rw [hfiles] at hf
    split at hf
    · next heq => rw [← heq] at hretained; cases hretained
    · split at hf
      · cases hf
      · exact hkeep _ (h.accepted m r x hr hs hf)
  · rw [hfiles] at hx
    split at hx
    · next heq => cases hx; exact hkeep _ (hbackup m t heq.symm)
    · split at hx
      · cases hx
      · exact hkeep _ (h.backups m t x hx)

/-! ## The journal -/

theorem lookup_setState (d : Disk A) (m : String) (state : JournalState) (error : Option String) (k : String) :
    (d.setState m state error).journal.lookup k =
      if k = m then (d.journal.lookup m).map (·.inState state error) else d.journal.lookup k := by
  simp only [Disk.setState, Table.lookup_update]
  cases hx : d.journal.lookup k with
  | none =>
    split
    · next hk => rw [← hk, hx]; rfl
    · rfl
  | some r =>
    have hkey : r.migrationId = k := Table.lookup_key hx
    split
    · next hk => rw [← hk, hx, Option.map_some, Option.map_some, if_pos (by simp [hkey, hk])]
    · next hk => rw [Option.map_some, if_neg (by simp [hkey, hk])]

theorem lookup_writeRecord (d : Disk A) (r : Record) (k : String) :
    (d.writeRecord r).journal.lookup k = if k = r.migrationId then some r else d.journal.lookup k := by
  simp only [Disk.writeRecord, Table.lookup_upsert]
  by_cases hk : r.migrationId = k
  · rw [if_pos (show Keyed.key r = k from hk), if_pos hk.symm]
    cases hx : d.journal.lookup k with
    | none => rfl
    | some x =>
      have hkey : x.migrationId = r.migrationId := (Table.lookup_key hx).trans hk.symm
      rw [Option.map_some, Option.getD_some, hkey]
  · rw [if_neg (show Keyed.key r ≠ k from hk), if_neg (Ne.symm hk)]

theorem Record.Named.inState {r : Record} (h : r.Named) {state : JournalState} {error : Option String}
    (hback : r.state ≠ .rolledBack) (hbegun : state.begun = true → r.state.begun = true ∨ r.state = .validated)
    (hvalidated : state ≠ .validated) : (r.inState state error).Named where
  staging _ := h.staging hback
  backup hs _ := h.backup (hbegun (hs.resolve_right hvalidated)) hback

/-- A row moves to another state. -/
theorem Inv.setState {d : Disk A} (h : Inv d) {m : String} {r : Record} (hr : d.journal.lookup m = some r)
    (state : JournalState) (error : Option String) (hnamed : (r.inState state error).Named)
    (hopen : d.files .live = none → r.state.swapOpen = true → state.swapOpen = true)
    (haccepts : state.accepts = true → r.state.accepts = true) (hbegun : r.state.begun = true → state.begun = true)
    (honce : state = .swapping → r.state.begun = false) :
    Inv (d.setState m state error) ∧ (d.setState m state error).journal.lookup m = some (r.inState state error) := by
  have hkey : r.migrationId = m := Table.lookup_key hr
  have hnone : r.state.begun = false → ∀ x, .journaled m .swapping x ∉ d.history := by
    intro hb x hx
    obtain ⟨y, hy, hs⟩ := h.begun m x hx
    rw [hr] at hy
    cases hy
    rw [hb] at hs
    cases hs
  have hlookup : (d.setState m state error).journal.lookup m = some (r.inState state error) := by
    rw [lookup_setState, if_pos rfl, hr]; rfl
  refine ⟨h.journaled (r := r.inState state error) rfl (by rw [← hkey]; rfl) (fun k => ?_) hnamed
    (fun hl x hx => ?_) (fun hs a hf => ?_) ?_ fun hs => ?_, hlookup⟩
  · rw [lookup_setState, hr]
    simp only [Record.inState, hkey, Option.map_some]
  · rw [show (r.inState state error).migrationId = m from hkey, hr] at hx
    cases hx
    exact hopen hl
  · rw [show (r.inState state error).migrationId = m from hkey] at hf ⊢
    exact h.accepted m r a hr (haccepts hs) hf
  · rcases hb : r.state.begun with _ | _
    · exact .inr (by rw [show (r.inState state error).migrationId = m from hkey]; exact hnone hb)
    · exact .inl (hbegun hb)
  · rw [show (r.inState state error).migrationId = m from hkey]; exact hnone (honce hs)

/-! ## The swap -/

section Programs

variable {env : Env} {m : String} {t : Nat} {C : Disk A → Prop} {E : MigrationError → Disk A → Prop}

/-- The migration has a row with this token and state. -/
def Disk.InState (d : Disk A) (m : String) (t : Nat) (state : JournalState) : Prop :=
  ∃ r, d.journal.lookup m = some r ∧ r.fencingToken = t ∧ r.state = state

theorem leaves_replace {source target : Place} {P Q : Disk A → Prop} (h : ∀ d a, P d → d.files source = some a →
    C (d.move source target a) ∧ Q (d.move source target a)) :
    Durable.Leaves P (replace env source target) C (fun _ => Q) fun _ => P := by
  unfold replace
  refine Durable.Leaves.bind_read fun d => ?_
  rcases hrefused : env.refuses source target with _ | e
  · rcases hfile : d.files source with _ | a
    · exact Durable.Leaves.raise fun s hs => hs.2
    · have hmoved : ∀ s, s = d ∧ P s → C (s.move source target a) ∧ Q (s.move source target a) :=
        fun s hs => h s a hs.2 (hs.1 ▸ hfile)
      exact Durable.Leaves.write (fun s hs => (hmoved s hs).1) fun s hs => (hmoved s hs).2
  · exact Durable.Leaves.raise fun s hs => hs.2

theorem leaves_outcomeOf {P : Disk A → Prop} :
    Durable.Leaves P (outcomeOf m) C (fun _ => P) fun _ => P := by
  unfold outcomeOf
  refine Durable.Leaves.bind_read fun d => ?_
  cases d.journal.lookup m with
  | none => exact Durable.Leaves.raise fun s hs => hs.2
  | some r => exact Durable.Leaves.pure fun s hs => hs.2

theorem leaves_setState {P Q : Disk A → Prop} {state : JournalState} {error : Option String}
    (h : ∀ d, P d → C (d.setState m state error) ∧ Q (d.setState m state error)) :
    Durable.Leaves P (setState m state error) C (fun _ => Q) E :=
  Durable.Leaves.write (fun d hd => (h d hd).1) fun d hd => (h d hd).2

/-- Promoting a migration whose artifact is in place. -/
theorem Inv.promoted {d : Disk A} (h : Inv d) (hstate : d.InState m t .swapping) (hlive : d.files .live ≠ none) :
    Inv (d.setState m .promoted none) := by
  obtain ⟨r, hr, -, hs⟩ := hstate
  refine (h.setState hr .promoted none ((h.named m r hr).inState (by rw [hs]; simp) (fun _ => .inl (by rw [hs]; rfl)) (by simp))
    (fun hnone => absurd hnone hlive) (by simp [JournalState.accepts]) (fun _ => rfl) (by simp)).1

theorem leaves_promoted : Durable.Leaves (fun d : Disk A => Inv d ∧ d.InState m t .swapping ∧ d.files .live ≠ none)
    (do
      setState m .promoted none
      outcomeOf m) Inv (fun _ => Inv) fun _ => Inv := by
  refine Durable.Leaves.bind (Q := fun _ => Inv) (leaves_setState fun d hd => ?_) fun _ => leaves_outcomeOf
  have hinv := hd.1.promoted hd.2.1 hd.2.2
  exact ⟨hinv, hinv⟩

/-- The second rename of a swap brings the accepted artifact to the free live path. -/
theorem Inv.install {d : Disk A} (h : Inv d) (hstate : d.InState m t .swapping) (hfree : d.files .live = none) {a : A}
    (ha : d.files (.staging m t) = some a) : Inv (d.move (.staging m t) .live a) := by
  obtain ⟨r, hr, rfl, hs⟩ := hstate
  refine h.move ha hfree rfl (by simp) (fun _ => .inl ⟨m, _, rfl, ?_⟩) (by simp)
  exact h.accepted m r a hr (by rw [hs]; rfl) ha

theorem live_move_live {d : Disk A} {source : Place} {a : A} : (d.move source .live a).files .live ≠ none := by
  simp [Disk.move]

theorem InState.rows {d : Disk A} {state : JournalState} (h : d.InState m t state) :
    ∃ r ∈ d.journal.rows, r.state = state := by
  obtain ⟨r, hr, -, hs⟩ := h
  exact ⟨r, Table.lookup_mem hr, hs⟩

/-- A rename of the live artifact to a free sibling. -/
theorem Inv.retire {d : Disk A} (h : Inv d) {state : JournalState} (hstate : d.InState m t state)
    (hopen : state.swapOpen = true) {target : Place} (htarget : target.retained = true) (hfree : d.files target = none)
    {a : A} (ha : d.files .live = some a) (hbackup : ∀ m t, target = .rollback m t → d.displaced m a) :
    Inv (d.move .live target a) ∧ (d.move .live target a).files .live = none := by
  have hne : target ≠ .live := by rintro rfl; rw [ha] at hfree; cases hfree
  obtain ⟨r, hr, hs⟩ := InState.rows hstate
  refine ⟨h.move ha hfree htarget (fun _ => ⟨r, hr, hs ▸ hopen⟩) (fun hlive => absurd hlive hne) hbackup, ?_⟩
  simp [Disk.move, hne.symm]

/-- The live artifact, if there is one, moves to the backup path. -/
theorem leaves_retireLive : Durable.Leaves (fun d : Disk A => Inv d ∧ d.InState m t .swapping ∧
      (∀ a, d.files .live = some a → d.displaced m a) ∧ d.files (.rollback m t) = none)
    (retireLive env (.rollback m t)) Inv (fun _ d => Inv d ∧ d.InState m t .swapping ∧ d.files .live = none)
    fun _ => Inv := by
  unfold retireLive
  refine Durable.Leaves.bind_read fun d => Durable.Leaves.ite (fun hlive => ?_) fun hlive => ?_
  · refine (leaves_replace (P := fun s => Inv s ∧ s.InState m t .swapping ∧
      (∀ a, s.files .live = some a → s.displaced m a) ∧ s.files (.rollback m t) = none) fun s a hs ha => ?_).mono
      (fun _ hs => hs.2) (fun _ => id) (fun _ _ => id) fun _ s hs => hs.1
    obtain ⟨hinv, hstate, hdisplaced, hfree⟩ := hs
    obtain ⟨hmoved, hnone⟩ := hinv.retire hstate rfl rfl hfree ha fun n u heq => by cases heq; exact hdisplaced a ha
    exact ⟨hmoved, hmoved, hstate, hnone⟩
  · refine Durable.Leaves.pure fun s hs => ⟨hs.2.1, hs.2.2.1, ?_⟩
    rw [hs.1]
    simpa [Disk.exists] using hlive

theorem leaves_swap : Durable.Leaves (fun d : Disk A => Inv d ∧ d.InState m t .swapping ∧
      (∀ a, d.files .live = some a → d.displaced m a) ∧ d.files (.rollback m t) = none)
    (swap env m (.staging m t) (.rollback m t)) Inv (fun _ => Inv) fun _ => Inv := by
  unfold swap
  refine Durable.Leaves.bind leaves_retireLive fun _ => ?_
  refine Durable.Leaves.bind (Q := fun _ d => Inv d ∧ d.InState m t .swapping ∧ d.files .live ≠ none) ?_
    fun _ => leaves_promoted
  -- the staging artifact takes its place, or the row asks for recovery
  refine Durable.Leaves.handle (leaves_replace fun s a hs ha => ?_) fun e => ?_
  · have hmoved := hs.1.install hs.2.1 hs.2.2 ha
    exact ⟨hmoved, hmoved, hs.2.1, live_move_live⟩
  · refine Durable.Leaves.bind (Q := fun _ => Inv) (leaves_setState fun s hs => ?_) fun _ =>
      Durable.Leaves.raise fun _ => id
    obtain ⟨hinv, ⟨r, hr, -, hst⟩, -⟩ := hs
    have hnext := (hinv.setState hr .swapRecoveryRequired (some e.text)
      ((hinv.named m r hr).inState (by rw [hst]; simp) (fun _ => .inl (by rw [hst]; rfl)) (by simp))
      (fun _ _ => rfl) (fun _ => by rw [hst]; rfl) (fun _ => rfl) (by simp)).1
    exact ⟨hnext, hnext⟩

theorem leaves_promote : Durable.Leaves (fun d : Disk A => Inv d ∧ d.InState m t .validated)
    (promote env m) Inv (fun _ => Inv) fun _ => Inv := by
  unfold promote
  refine Durable.Leaves.bind_read fun d => ?_
  rcases hr : d.journal.lookup m with _ | r
  · exact Durable.Leaves.raise fun s hs => hs.2.1
  by_cases hpre : Inv d ∧ d.InState m t .validated
  swap
  · exact ⟨fun s hs => absurd (hs.1 ▸ hs.2) hpre, fun s _ hs => absurd (hs.1 ▸ hs.2) hpre,
      fun s _ hs => absurd (hs.1 ▸ hs.2) hpre⟩
  obtain ⟨hinv, r', hr', rfl, hs⟩ := hpre
  rw [hr] at hr'
  cases hr'
  have hkey : r.migrationId = m := Table.lookup_key hr
  have hnamed := hinv.named m r hr
  simp only [hnamed.staging (by rw [hs]; simp), hnamed.backup (.inr hs) (by rw [hs]; simp), hkey]
  refine Durable.Leaves.ite (fun _ => Durable.Leaves.raise fun s hs => hs.2.1) fun _ => ?_
  refine Durable.Leaves.ite (fun _ => Durable.Leaves.raise fun s hs => hs.2.1) fun hbackup => ?_
  refine Durable.Leaves.bind (leaves_setState fun s hst => ?_) fun _ => leaves_swap
  obtain ⟨rfl, -⟩ := hst
  obtain ⟨hnext, hlookup⟩ := hinv.setState hr .swapping none
    (hnamed.inState (by rw [hs]; simp) (fun _ => .inr hs) (by simp)) (fun _ _ => rfl) (fun _ => by rw [hs]; rfl)
    (fun _ => rfl) (fun _ => by rw [hs]; rfl)
  refine ⟨hnext, hnext, ⟨_, hlookup, rfl, rfl⟩, fun a ha => ?_, ?_⟩
  · exact List.mem_cons.2 (.inl (by rw [← ha]; rfl))
  · exact Option.not_isSome_iff_eq_none.1 hbackup

/-! ## A run -/

/-- A row that is not validated yet moves on within the build. -/
theorem Inv.unsettled {d : Disk A} (h : Inv d) {state state' : JournalState} (hstate : d.InState m t state)
    (hs : state = .building ∨ state = .staged) (hs' : state' = .staged ∨ state' = .failed) (error : Option String) :
    Inv (d.setState m state' error) ∧ (d.setState m state' error).InState m t state' := by
  obtain ⟨r, hr, rfl, rfl⟩ := hstate
  have hstaging := (h.named m r hr).staging (by rcases hs with hs | hs <;> simp [hs])
  have hnamed : (r.inState state' error).Named := by
    refine ⟨fun _ => hstaging, fun hb => ?_⟩
    rcases hs' with rfl | rfl <;> simp [Record.inState, JournalState.begun] at hb
  obtain ⟨hinv, hlookup⟩ := h.setState hr state' error hnamed
    (fun _ ho => by rcases hs with hs | hs <;> rw [hs] at ho <;> cases ho)
    (fun ha => by rcases hs' with rfl | rfl <;> cases ha)
    (fun hb => by rcases hs with hs | hs <;> rw [hs] at hb <;> cases hb)
    (fun heq => by rcases hs' with rfl | rfl <;> cases heq)
  exact ⟨hinv, _, hlookup, rfl, rfl⟩

/-- A failed or resumable step of a run sets the state and raises. -/
theorem leaves_unsettled {state state' : JournalState} (hs : state = .building ∨ state = .staged)
    (hs' : state' = .staged ∨ state' = .failed) (error : Option String) (e : MigrationError) {Q : α → Disk A → Prop} :
    Durable.Leaves (fun d : Disk A => Inv d ∧ d.InState m t state) (do
      setState m state' error
      Durable.raise e) Inv Q fun _ => Inv := by
  refine Durable.Leaves.bind (Q := fun _ => Inv) (leaves_setState fun d hd => ?_) fun _ => Durable.Leaves.raise fun _ => id
  have hnext := (hd.1.unsettled hd.2 hs hs' error).1
  exact ⟨hnext, hnext⟩

/-- The row of a run that is not in the journal, or only in a state before the validation. -/
theorem Inv.writeRecord {d : Disk A} (h : Inv d) {q : RunRequest A} (state : JournalState) (backup : Option Place)
    (hold : ∀ r, d.journal.lookup q.migrationId = some r → r.state = .staged)
    (hstate : state = .building ∨ state = .validated ∧ backup = some (.rollback q.migrationId t))
    (haccepted : ∀ a, state = .validated → d.files (.staging q.migrationId t) = some a →
      .accepted q.migrationId a ∈ d.history) :
    Inv (d.writeRecord (q.record state t (.staging q.migrationId t) backup)) ∧
      (d.writeRecord (q.record state t (.staging q.migrationId t) backup)).InState q.migrationId t state := by
  have hnone : ∀ x, .journaled q.migrationId .swapping x ∉ d.history := by
    intro x hx
    obtain ⟨r, hr, hb⟩ := h.begun _ x hx
    rw [hold r hr] at hb
    cases hb
  refine ⟨h.journaled (r := q.record state t (.staging q.migrationId t) backup) rfl rfl
    (lookup_writeRecord d _) ⟨fun _ => rfl, fun hb _ => ?_⟩ (fun _ x hx hopen => ?_) (fun ha a hf => ?_) (.inr hnone)
    fun _ => hnone, ?_⟩
  · rcases hstate with rfl | ⟨rfl, rfl⟩
    · simp [RunRequest.record, JournalState.begun] at hb
    · rfl
  · rw [hold x hx] at hopen; cases hopen
  · refine haccepted a ?_ hf
    rcases hstate with rfl | ⟨rfl, -⟩
    · cases ha
    · rfl
  · exact ⟨_, (lookup_writeRecord d _ _).trans (if_pos rfl), rfl, rfl⟩

theorem leaves_validateAndPromote {q : RunRequest A} :
    Durable.Leaves (fun d => Inv d ∧ d.InState q.migrationId t .staged)
      (validateAndPromote env q t (.staging q.migrationId t)) Inv (fun _ => Inv) fun _ => Inv := by
  unfold validateAndPromote
  refine Durable.Leaves.bind_read fun d => ?_
  cases q.validateStaging (d.files (.staging q.migrationId t)) with
  | asksToResume e => exact (leaves_unsettled (.inr rfl) (.inl rfl) _ _).pre fun s hs => hs.2
  | raises e => exact (leaves_unsettled (.inr rfl) (.inr rfl) _ _).pre fun s hs => hs.2
  | returns =>
    -- the staging artifact is accepted, its row validated, and the swap begins
    refine Durable.Leaves.bind (Q := fun _ s => Inv s ∧ s.InState q.migrationId t .staged ∧
      ∀ a, s.files (.staging q.migrationId t) = some a → .accepted q.migrationId a ∈ s.history) ?_ fun _ => ?_
    · have hnote : ∀ s, s = d ∧ Inv s ∧ s.InState q.migrationId t .staged →
          Inv ((s.files (.staging q.migrationId t)).elim s fun a => s.note (.accepted q.migrationId a)) ∧
          ((s.files (.staging q.migrationId t)).elim s fun a => s.note (.accepted q.migrationId a)).InState
            q.migrationId t .staged ∧
          ∀ a, ((s.files (.staging q.migrationId t)).elim s fun a => s.note (.accepted q.migrationId a)).files
            (.staging q.migrationId t) = some a → .accepted q.migrationId a ∈
              ((s.files (.staging q.migrationId t)).elim s fun a => s.note (.accepted q.migrationId a)).history := by
        rintro s ⟨-, hinv, hstate⟩
        rcases hfile : s.files (.staging q.migrationId t) with _ | a
        · exact ⟨hinv, hstate, fun a ha => by rw [Option.elim, hfile] at ha; cases ha⟩
        · refine ⟨hinv.note_accepted _ a, hstate, fun b hb => ?_⟩
          have hab : a = b := Option.some.inj (hfile.symm.trans hb)
          exact hab ▸ List.mem_cons_self ..
      exact Durable.Leaves.write (fun s hs => (hnote s hs).1) hnote
    refine Durable.Leaves.bind (Q := fun _ s => Inv s ∧ s.InState q.migrationId t .validated) ?_
      fun _ => leaves_promote
    refine Durable.Leaves.write (fun s hs => ?_) fun s hs => ?_ <;>
      obtain ⟨hinv, ⟨r, hr, -, hst⟩, hacc⟩ := hs <;>
      have hnext := hinv.writeRecord (q := q) (t := t) .validated _
        (fun x hx => by rw [hr] at hx; cases hx; exact hst) (.inr ⟨rfl, rfl⟩) fun a _ => hacc a
    · exact hnext.1
    · exact hnext

theorem leaves_build {q : RunRequest A} : Durable.Leaves (fun d => Inv d ∧ d.InState q.migrationId t .building)
    (build q (.staging q.migrationId t)) Inv (fun _ d => Inv d ∧ d.InState q.migrationId t .staged) fun _ => Inv := by
  unfold build
  refine Durable.Leaves.bind (Q := fun _ d => Inv d ∧ d.InState q.migrationId t .building) ?_ fun _ => ?_
  · refine Durable.Leaves.forEach fun content _ => ?_
    have hput : ∀ d, Inv d ∧ d.InState q.migrationId t .building →
        Inv (d.put (.staging q.migrationId t) content) := by
      rintro d ⟨hinv, x, hx, -, hs⟩
      refine hinv.put (fun r hr => ?_) content
      rw [hx] at hr
      cases hr
      rw [hs]; rfl
    exact Durable.Leaves.write hput fun d hd => ⟨hput d hd, hd.2⟩
  · refine Durable.Leaves.bind_read fun d => ?_
    cases q.buildStaging.ending with
    | asksToResume e =>
      refine (leaves_unsettled (.inl rfl) ?_ _ _).pre fun s hs => hs.2
      split <;> simp
    | raises e => exact (leaves_unsettled (.inl rfl) (.inr rfl) _ _).pre fun s hs => hs.2
    | returns =>
      refine Durable.Leaves.ite (fun _ => (leaves_unsettled (.inl rfl) (.inr rfl) _ _).pre fun s hs => hs.2) fun _ => ?_
      refine leaves_setState fun s hs => ?_
      have hnext := hs.2.1.unsettled hs.2.2 (.inl rfl) (.inl rfl) none
      exact ⟨hnext.1, hnext⟩

theorem leaves_begin {q : RunRequest A} : Durable.Leaves (fun d => Inv d ∧ d.journal.lookup q.migrationId = none)
    (begin env q) Inv (fun _ => Inv) fun _ => Inv := by
  unfold begin
  refine Durable.Leaves.bind_read fun d => ?_
  refine Durable.Leaves.ite (fun _ => Durable.Leaves.raise fun s hs => hs.2.1) fun _ => ?_
  refine Durable.Leaves.bind (Q := fun _ s => Inv s ∧ s.InState q.migrationId (nextFencingToken d.journal) .building)
    ?_ fun _ => Durable.Leaves.bind leaves_build fun _ => leaves_validateAndPromote
  have hnext : ∀ s, s = d ∧ Inv s ∧ s.journal.lookup q.migrationId = none → _ := fun s hs =>
    hs.2.1.writeRecord (q := q) (t := nextFencingToken d.journal) .building none
      (fun r hr => by rw [hs.2.2] at hr; cases hr) (.inl rfl) fun a hv => by cases hv
  exact Durable.Leaves.write (fun s hs => (hnext s hs).1) hnext

theorem leaves_recover {r : Record} (hs : r.state = .swapping) :
    Durable.Leaves (fun d : Disk A => Inv d ∧ d.journal.lookup r.migrationId = some r) (recoverInterruptedSwap env r)
      Inv (fun _ => Inv) fun _ => Inv := by
  unfold recoverInterruptedSwap
  refine Durable.Leaves.bind_read fun d => ?_
  by_cases hpre : Inv d ∧ d.journal.lookup r.migrationId = some r
  swap
  · exact ⟨fun s hs => absurd (hs.1 ▸ hs.2) hpre, fun s _ hs => absurd (hs.1 ▸ hs.2) hpre,
      fun s _ hs => absurd (hs.1 ▸ hs.2) hpre⟩
  obtain ⟨hinv, hr⟩ := hpre
  have hnamed := hinv.named _ r hr
  simp only [hnamed.staging (by rw [hs]; simp), hnamed.backup (.inl (by rw [hs]; rfl)) (by rw [hs]; simp)]
  have hstate : ∀ s : Disk A, s.journal.lookup r.migrationId = some r →
      s.InState r.migrationId r.fencingToken .swapping := fun s hlook => ⟨r, hlook, rfl, hs⟩
  refine Durable.Leaves.ite (fun hlive => ?_) fun _ => Durable.Leaves.ite (fun hfree => ?_) fun _ => ?_
  · refine leaves_promoted.pre fun s hst => ⟨hst.2.1, hstate s hst.2.2, ?_⟩
    rw [hst.1]
    exact Option.isSome_iff_ne_none.1 hlive.1
  · unfold finishSwap
    refine Durable.Leaves.bind (Q := fun _ s => Inv s ∧ s.InState r.migrationId r.fencingToken .swapping ∧
      s.files .live ≠ none) ?_ fun _ => leaves_promoted
    refine (leaves_replace (P := fun s => Inv s ∧ s.journal.lookup r.migrationId = some r ∧ s.files .live = none)
      fun s a hst ha => ?_).mono (fun s hst => ⟨hst.2.1, hst.2.2, ?_⟩) (fun _ => id) (fun _ _ => id) fun _ s hst => hst.1
    · have hmoved := hst.1.install (hstate s hst.2.1) hst.2.2 ha
      exact ⟨hmoved, hmoved, hstate _ hst.2.1, live_move_live⟩
    · rw [hst.1]
      exact Option.not_isSome_iff_eq_none.1 hfree.1
  · exact Durable.Leaves.raise fun s hst => hst.2.1

theorem leaves_resume {q : RunRequest A} {r : Record} :
    Durable.Leaves (fun d => Inv d ∧ d.journal.lookup q.migrationId = some r) (resume env q r) Inv (fun _ => Inv)
      fun _ => Inv := by
  unfold resume
  refine Durable.Leaves.bind_read fun d => ?_
  refine Durable.Leaves.ite (fun _ => Durable.Leaves.raise fun s hs => hs.2.1) fun _ => ?_
  refine Durable.Leaves.ite (fun hswapping => ?_) fun _ => ?_
  · refine (leaves_recover hswapping).pre fun s hs => ⟨hs.2.1, ?_⟩
    rw [show r.migrationId = q.migrationId from Table.lookup_key hs.2.2]
    exact hs.2.2
  refine Durable.Leaves.ite (fun _ => Durable.Leaves.ite (fun _ => Durable.Leaves.pure fun s hs => hs.2.1)
    fun _ => Durable.Leaves.raise fun s hs => hs.2.1) fun _ => ?_
  refine Durable.Leaves.ite (fun _ => Durable.Leaves.raise fun s hs => hs.2.1) fun _ => ?_
  rcases hpath : r.stagingPath with _ | staging
  · exact Durable.Leaves.raise fun s hs => hs.2.1
  · refine Durable.Leaves.ite (fun _ => Durable.Leaves.raise fun s hs => hs.2.1) fun hready => ?_
    have hstaged : r.state = .staged := by
      by_contra hne
      exact hready (.inl hne)
    by_cases hpre : Inv d ∧ d.journal.lookup q.migrationId = some r
    swap
    · exact ⟨fun s hs => absurd (hs.1 ▸ hs.2) hpre, fun s _ hs => absurd (hs.1 ▸ hs.2) hpre,
        fun s _ hs => absurd (hs.1 ▸ hs.2) hpre⟩
    have hkey : r.migrationId = q.migrationId := Table.lookup_key hpre.2
    have hnamed := (hpre.1.named _ r hpre.2).staging (by rw [hstaged]; simp)
    rw [hpath, hkey] at hnamed
    cases hnamed
    exact leaves_validateAndPromote.pre fun s hs => ⟨hs.2.1, r, hs.2.2, rfl, hstaged⟩

/-- A run keeps the invariant wherever it is cut and however it ends. -/
theorem leaves_run {q : RunRequest A} : Durable.Leaves Inv (run env q) Inv (fun _ => Inv) fun _ => Inv := by
  unfold run
  refine Durable.Leaves.ite (fun _ => Durable.Leaves.raise fun _ => id) fun _ => ?_
  refine Durable.Leaves.ite (fun _ => Durable.Leaves.raise fun _ => id) fun _ => ?_
  refine Durable.Leaves.bind_read fun d => ?_
  rcases hr : d.journal.lookup q.migrationId with _ | r
  · exact leaves_begin.pre fun s hs => ⟨hs.2, hs.1 ▸ hr⟩
  · exact leaves_resume.pre fun s hs => ⟨hs.2, hs.1 ▸ hr⟩

/-! ## A rollback -/

/-- What was live when the swap of the migration began is live again. -/
def Restored (m : String) (d : Disk A) : Prop := Inv d ∧ ∃ a, d.displaced m a ∧ d.files .live = some a

/-- The row of a migration that has been rolled back. -/
theorem Inv.rolledBack {d : Disk A} (h : Inv d) (r : Record) (hlive : d.files .live ≠ none) (backup : Option Place)
    (error : Option String) :
    Inv (d.writeRecord { r with state := .rolledBack, stagingPath := none, backupPath := backup, lastError := error }) :=
  h.journaled (r := { r with state := .rolledBack, stagingPath := none, backupPath := backup, lastError := error })
    rfl rfl (lookup_writeRecord d _) ⟨fun hs => absurd rfl hs, fun _ hs => absurd rfl hs⟩
    (fun hnone => absurd hnone hlive) (fun ha => by cases ha) (.inl rfl) (fun hs => by cases hs)

theorem leaves_swapBack {r : Record} (hs : r.state = .promoted) :
    Durable.Leaves (fun d : Disk A => Inv d ∧ d.journal.lookup r.migrationId = some r ∧
        d.files (.rolledForward r.migrationId t) = none)
      (swapBack env r (.rollback r.migrationId r.fencingToken) (.rolledForward r.migrationId t)) Inv
      (fun _ => Restored r.migrationId) fun _ => Inv := by
  unfold swapBack
  refine Durable.Leaves.bind (Q := fun _ d => Inv d ∧ d.InState r.migrationId r.fencingToken .rollingBack ∧
    d.files (.rolledForward r.migrationId t) = none) ?_ fun _ => ?_
  · refine leaves_setState fun d hd => ?_
    obtain ⟨hinv, hr, hfree⟩ := hd
    obtain ⟨hnext, hlookup⟩ := hinv.setState hr .rollingBack none
      ((hinv.named _ r hr).inState (by rw [hs]; simp) (fun _ => .inl (by rw [hs]; rfl)) (by simp))
      (fun _ _ => rfl) (fun ha => by cases ha) (fun _ => rfl) (by simp)
    exact ⟨hnext, hnext, ⟨_, hlookup, rfl, rfl⟩, hfree⟩
  refine Durable.Leaves.bind (Q := fun _ d => Inv d ∧ d.InState r.migrationId r.fencingToken .rollingBack ∧
    d.files .live = none) ?_ fun _ => ?_
  · refine (leaves_replace fun d a hd ha => ?_).mono (fun _ => id) (fun _ => id) (fun _ _ => id) fun _ d hd => hd.1
    obtain ⟨hinv, hstate, hfree⟩ := hd
    obtain ⟨hmoved, hnone⟩ := hinv.retire hstate rfl rfl hfree ha fun _ _ heq => by cases heq
    exact ⟨hmoved, hmoved, hstate, hnone⟩
  refine Durable.Leaves.bind (Q := fun _ => Restored r.migrationId) ?_ fun _ => ?_
  · refine (leaves_replace fun d a hd ha => ?_).mono (fun _ => id) (fun _ => id) (fun _ _ => id) fun _ d hd => hd.1
    obtain ⟨hinv, -, hfree⟩ := hd
    have hdisplaced := hinv.backups _ _ a ha
    have hmoved := hinv.move ha hfree rfl (by simp) (fun _ => .inr ⟨_, _, rfl, hdisplaced⟩) (by simp)
    refine ⟨hmoved, hmoved, a, ?_, by simp [Disk.move]⟩
    simp only [Disk.displaced, Disk.move, if_true]
    exact List.mem_cons_of_mem _ hdisplaced
  refine Durable.Leaves.bind (Q := fun _ => Restored r.migrationId) ?_ fun _ =>
    leaves_outcomeOf.mono (fun _ => id) (fun _ => id) (fun _ _ => id) fun _ _ hd => hd.1
  have hnext : ∀ d : Disk A, Restored r.migrationId d → Restored r.migrationId (d.writeRecord { r with
      state := .rolledBack, stagingPath := none, backupPath := some (.rolledForward r.migrationId t), lastError := none }) := by
    rintro d ⟨hinv, a, hdisplaced, hlive⟩
    exact ⟨hinv.rolledBack r (by rw [hlive]; simp) _ _, a, List.mem_cons_of_mem _ hdisplaced, hlive⟩
  exact Durable.Leaves.write (fun d hd => (hnext d hd).1) hnext

/-- A rollback keeps the invariant, and one that returns has restored the displaced artifact. -/
theorem leaves_rollback : Durable.Leaves (Inv (A := A)) (rollback env m) Inv (fun _ => Restored m) fun _ => Inv := by
  unfold rollback
  refine Durable.Leaves.ite (fun _ => Durable.Leaves.raise fun _ => id) fun _ => ?_
  refine Durable.Leaves.bind_read fun d => ?_
  rcases hr : d.journal.lookup m with _ | r
  · exact Durable.Leaves.raise fun s hs => hs.2
  refine Durable.Leaves.ite (fun _ => Durable.Leaves.raise fun s hs => hs.2) fun hpromoted => ?_
  have hpromoted := not_not.1 hpromoted
  obtain rfl : r.migrationId = m := Table.lookup_key hr
  rcases hpath : r.backupPath with _ | backup
  · exact Durable.Leaves.raise fun s hs => hs.2
  refine Durable.Leaves.ite (fun _ => Durable.Leaves.raise fun s hs => hs.2) fun _ => ?_
  refine Durable.Leaves.ite (fun _ => Durable.Leaves.raise fun s hs => hs.2) fun hfree => ?_
  by_cases hinv : Inv d
  · have hbackup := (hinv.named _ r hr).backup (.inl (by rw [hpromoted]; rfl)) (by rw [hpromoted]; simp)
    rw [hpath] at hbackup
    cases hbackup
    refine (leaves_swapBack hpromoted).pre fun s hs => ⟨hs.2, hs.1 ▸ hr, ?_⟩
    rw [hs.1]
    exact Option.not_isSome_iff_eq_none.1 hfree
  · exact ⟨fun s hs => absurd (hs.1 ▸ hs.2) hinv, fun s _ hs => absurd (hs.1 ▸ hs.2) hinv,
      fun s _ hs => absurd (hs.1 ▸ hs.2) hinv⟩

end Programs

/-! ## Sequences of calls -/

theorem inv_exec (d : Disk A) (x : Attempt A) (h : Inv d) : Inv (exec d x) := by
  have hcut : ∀ k, Inv (x.call.action.cut k d) := by
    intro k
    rcases hc : x.call with ⟨env, q⟩ | ⟨env, m⟩
    · exact leaves_run.cut h k
    · exact Durable.Leaves.cut leaves_rollback h k
  unfold exec
  rcases x.crash with _ | k
  · simp only [Durable.final_eq_cut]; exact hcut _
  · exact hcut k

/-- Over every sequence of runs and rollbacks on a live path, each cut anywhere by a crash or
completed: what was ever live is at the live path or at a retained sibling, the live path is empty
only while a swap is open, only accepted or restored artifacts come to it, and a rollback that
returns has restored the artifact that was live when the swap of its migration began, which is one
artifact. -/
theorem migrations_lose_nothing (live : Option A) (attempts : List (Attempt A)) :
    Safe (Foundation.run exec (Disk.start live) attempts) ∧
      ∀ env m outcome, (rollback env m).result (Foundation.run exec (Disk.start live) attempts) = .ok outcome →
        ∃ a, ((rollback env m).final (Foundation.run exec (Disk.start live) attempts)).files .live = some a ∧
          ((rollback env m).final (Foundation.run exec (Disk.start live) attempts)).displaced m a ∧
          ∀ x, .journaled m .swapping x ∈
            ((rollback env m).final (Foundation.run exec (Disk.start live) attempts)).history → x = some a := by
  have hinv : Inv (Foundation.run exec (Disk.start live) attempts) :=
    Foundation.stable_run inv_exec (Inv.start live)
  refine ⟨hinv.toSafe, fun env m outcome hok => ?_⟩
  obtain ⟨hfinal, a, hdisplaced, hlive⟩ := leaves_rollback.returned _ outcome hinv hok
  exact ⟨a, hlive, hdisplaced, fun x hx => hfinal.once m x (some a) hx hdisplaced⟩

end Mesa.Migration
