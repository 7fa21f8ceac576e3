/-
What a backup or a restore leaves of the disk, wherever it is cut: the source reads as before, the
destination is missing or a complete copy that attests its manifest, and no other folder changes.
-/
import Mesa.Recovery.Validated

namespace Mesa.Recovery

open Mesa.Foundation

variable {B X H : Type} {E : Engine B X H} {t u : Folder B} {p q : Path} {d d₀ d₁ : Disk B} {G R S : Folder B → Prop}

/-! ## Copies -/

/-- A folder says what another one says, and attests it. -/
structure Copied (E : Engine B X H) (t u : Folder B) : Prop where
  meaning : u.meaning E = t.meaning E
  attested : ∃ manifest, Attested E u manifest

theorem Copied.alike (h : Copied E t u) {v : Folder B} (ha : Alike E u v) : Copied E t v where
  meaning := ha.meaning.trans h.meaning
  attested := h.attested.imp fun _ hm => hm.alike ha

/-- Every database is intact and keeps what was purged. -/
def Intact (f : Path → Option (Meaning B X)) : Prop :=
  ∀ q c, f q = some (.database c) → ∃ db, c = some db ∧ db.integrityCheck = "ok" ∧ db.PurgeSafe

/-! ## A call -/

/-- A backup or a restore: its source with what is in it, its destination and the disk it starts from. -/
structure Job (B : Type) where
  source : Path
  destination : Path
  random : String
  content : Folder B
  start : Disk B

def Job.staging (j : Job B) : Place := .incomplete j.destination j.random

/-- What a call leaves of the folders that operators name. -/
structure Job.Left (j : Job B) (E : Engine B X H) (G : Folder B → Prop) (d : Disk B) : Prop where
  source : ∃ t, d (.at j.source) = some t ∧ Alike E j.content t
  others : ∀ p, p ≠ j.source → d (.at p) = j.start (.at p) ∨
    p = j.destination ∧ j.start (.at p) = none ∧ ∃ u, d (.at p) = some u ∧ G u

/-- The destination is as it was, and the staging folder satisfies `R`. -/
def Job.Working (j : Job B) (E : Engine B X H) (R : Folder B → Prop) (d : Disk B) : Prop :=
  j.Left E (fun _ => False) d ∧ ∃ u, d j.staging = some u ∧ R u

variable {j : Job B}

theorem Job.Left.mono {G' : Folder B → Prop} (h : j.Left E G d) (hG : ∀ u, G u → G' u) : j.Left E G' d where
  source := h.source
  others p hp := (h.others p hp).imp_right fun ⟨hdest, hnone, u, hu, hGu⟩ => ⟨hdest, hnone, u, hu, hG u hGu⟩

theorem Job.Working.left (h : j.Working E R d) : j.Left E G d := h.1.mono fun _ hf => hf.elim

theorem Job.Working.mono (h : j.Working E R d) (hR : ∀ u, R u → S u) : j.Working E S d :=
  ⟨h.1, h.2.imp fun u hu => ⟨hu.1, hR u hu.2⟩⟩

/-- A call writes to its staging folder without touching another one. -/
theorem Job.Left.stage (h : j.Left E G d) (o : Option (Folder B)) :
    j.Left E G (Function.update d j.staging o) where
  source := by
    rw [Function.update_of_ne fun h => by cases h]
    exact h.source
  others p hp := by
    rw [Function.update_of_ne fun h => by cases h]
    exact h.others p hp

theorem Job.Left.reopened_staging (h : j.Left E G d) (hr : Reopened E j.staging d d₁) : j.Left E G d₁ where
  source := by
    rw [hr.other fun h => by cases h]
    exact h.source
  others p hp := by
    rw [hr.other fun h => by cases h]
    exact h.others p hp

theorem Job.Left.reopened_source (hE : E.Lawful) (h : j.Left E G d) (hr : Reopened E (.at j.source) d d₁) :
    j.Left E G d₁ where
  source := by
    obtain ⟨t, ht, halike⟩ := h.source
    obtain ⟨u, hu, halike'⟩ := hr.alike hE ht
    exact ⟨u, hu, halike.trans halike'⟩
  others p hp := by
    rw [hr.other fun h => hp (Place.at.inj h)]
    exact h.others p hp

/-! ## The steps of a call -/

section Steps

theorem working_pure {α : Type} {a : α} (hR : ∀ u, R u → S u) :
    Durable.Leaves (j.Working E R) (pure a : Action B α) (j.Left E G) (fun _ => j.Working E S) fun _ => j.Left E G :=
  Durable.Leaves.pure fun _ hd => hd.mono hR

theorem working_raise {α : Type} {Q : α → Disk B → Prop} {e : Failure} :
    Durable.Leaves (j.Working E R) (Durable.raise e : Action B α) (j.Left E G) Q fun _ => j.Left E G :=
  Durable.Leaves.raise fun _ hd => hd.left

theorem working_failing {o : Option String} :
    Durable.Leaves (j.Working E R) (failing o) (j.Left E G) (fun _ => j.Working E R) fun _ => j.Left E G := by
  cases o with
  | none => exact working_pure fun _ => id
  | some m => exact working_raise

theorem working_change {f : Folder B → Folder B} (hf : ∀ u, R u → S (f u)) :
    Durable.Leaves (j.Working E R) (change j.staging f) (j.Left E G) (fun _ => j.Working E S) fun _ => j.Left E G := by
  refine Durable.Leaves.write (fun d hd => ?_) fun d hd => ?_
  · exact hd.left.stage _
  · obtain ⟨u, hu, hR⟩ := hd.2
    exact ⟨hd.1.stage _, f u, by rw [Function.update_self, hu]; rfl, hf u hR⟩

/-- A copy replaces what it had written before it was done. -/
theorem working_copyFile {env : Env B} {b : B}
    (h : ∀ u, R u → S ((u.put p (env.torn p)).put p b)) :
    Durable.Leaves (j.Working E R) (copyFile env j.staging p b) (j.Left E G) (fun _ => j.Working E S)
      fun _ => j.Left E G := by
  refine Durable.Leaves.bind (working_change (S := fun u => ∃ v, R v ∧ u = v.put p (env.torn p)) fun u hu => ?_)
    fun _ => Durable.Leaves.bind working_failing fun _ => working_change ?_
  · exact ⟨u, hu, rfl⟩
  · rintro u ⟨v, hv, rfl⟩
    exact h v hv

/-- A connection to a database of the staging folder. -/
theorem working_connect {S : Option (Database X) → Folder B → Prop}
    (h : ∀ u, R u → S (readDatabase E u p) (u.opened E p)) :
    Durable.Leaves (j.Working E R) (connect E j.staging p) (j.Left E G) (fun db => j.Working E (S db))
      fun _ => j.Left E G := by
  refine Durable.Leaves.bind_read fun d => ?_
  refine Durable.Leaves.assume (fun s hs => hs.1 ▸ hs.2) fun hd => ?_
  obtain ⟨u, hu, hR⟩ := hd.2
  refine Durable.Leaves.bind (Q := fun _ => j.Working E fun v => v = u.opened E p) (Durable.Leaves.write ?_ ?_)
    fun _ => ?_
  · rintro s ⟨rfl, hs⟩
    exact hs.left.stage _
  · rintro s ⟨rfl, hs⟩
    exact ⟨hs.1.stage _, u.opened E p, by rw [Function.update_self, hu]; rfl, rfl⟩
  · refine Durable.Leaves.pure fun s hs => hs.mono ?_
    rintro v rfl
    rw [hu]
    exact h u hR

/-- A connection to a database of the source. -/
theorem working_source (hE : E.Lawful) :
    Durable.Leaves (j.Working E R) (connect E (.at j.source) p) (j.Left E G) (fun _ => j.Working E R)
      fun _ => j.Left E G := by
  have hstep : ∀ d, j.Working E R d →
      j.Working E R (Function.update d (.at j.source) ((d (.at j.source)).map (·.opened E p))) := by
    intro d hd
    refine ⟨hd.1.reopened_source hE (.step .refl p), ?_⟩
    rw [Function.update_of_ne fun h => by cases h]
    exact hd.2
  refine Durable.Leaves.bind_read fun d => Durable.Leaves.bind (Q := fun _ => j.Working E R) ?_ fun _ =>
    Durable.Leaves.pure fun _ hs => hs
  exact Durable.Leaves.write (fun s hs => (hstep s hs.2).left) fun s hs => hstep s hs.2

/-- A part that only opens databases of the staging folder, and what it finds there. -/
theorem working_reopens {α : Type} {m : Action B α} {S : Folder B → α → Prop} (hE : E.Lawful)
    (hR : ∀ u v, R u → Alike E u v → R v)
    (h : ∀ d₀ t, d₀ j.staging = some t → Durable.Leaves (· = d₀) m (Reopened E j.staging d₀)
      (fun a d => Reopened E j.staging d₀ d ∧ S t a) fun _ => Reopened E j.staging d₀) :
    Durable.Leaves (j.Working E R) m (j.Left E G) (fun a => j.Working E fun u => R u ∧ ∃ t, Alike E t u ∧ S t a)
      fun _ => j.Left E G := by
  refine Durable.Leaves.pre (P := fun d => ∃ d₀, d = d₀ ∧ j.Working E R d₀) (Durable.Leaves.exists fun d₀ => ?_)
    fun d hd => ⟨d, rfl, hd⟩
  refine Durable.Leaves.assume (fun _ hs => hs.2) fun hd₀ => ?_
  obtain ⟨t, ht, hRt⟩ := hd₀.2
  refine (h d₀ t ht).mono (fun _ hs => hs.1) (fun d hr => hd₀.left.reopened_staging hr) (fun a d hr => ?_) fun e d hr =>
    hd₀.left.reopened_staging hr
  obtain ⟨hr, hS⟩ := hr
  obtain ⟨u, hu, halike⟩ := hr.alike hE ht
  exact ⟨hd₀.1.reopened_staging hr, u, hu, hR t u hRt halike, t, halike, hS⟩

/-- Validation of the staging folder: what it satisfies and opening keeps, and what it attests. -/
theorem working_validate [DecidableEq H] (hE : E.Lawful) (hR : ∀ u v, R u → Alike E u v → R v) :
    Durable.Leaves (j.Working E R) (validateSnapshot E j.staging) (j.Left E G)
      (fun _ => j.Working E fun u => R u ∧ ∃ manifest, Attested E u manifest) fun _ => j.Left E G := by
  refine (working_reopens (S := fun t _ => ∃ manifest, Attested E t manifest) hE hR fun d₀ t ht => ?_).mono
    (fun _ => id) (fun _ => id) (fun _ d hd => hd.mono ?_) fun _ _ => id
  · refine (validateSnapshot_reopens hE).mono (fun _ => id) (fun _ => id) (fun _ d hd => ⟨hd.1, ?_⟩) fun _ _ => id
    obtain ⟨t', m, ht', hattested⟩ := hd.2
    obtain rfl : t = t' := Option.some.inj (ht.symm.trans ht')
    exact ⟨m, hattested⟩
  · rintro u ⟨hu, t, halike, m, hattested⟩
    exact ⟨hu, m, hattested.alike halike⟩

end Steps

/-! ## The staging folder and the rename -/

theorem Job.Working.replaced (h : j.Working E G d) (hfree : j.start (.at j.destination) = none)
    (hne : j.destination ≠ j.source) :
    j.Left E G (Function.update (Function.update d (.at j.destination) (d j.staging)) j.staging none) := by
  obtain ⟨u, hu, hG⟩ := h.2
  refine Job.Left.stage ⟨?_, fun p hp => ?_⟩ none
  · rw [Function.update_of_ne fun heq => hne (Place.at.inj heq).symm]
    exact h.1.source
  · by_cases hdest : p = j.destination
    · subst hdest
      exact .inr ⟨rfl, hfree, u, by rw [Function.update_self, hu], hG⟩
    · rw [Function.update_of_ne fun heq => hdest (Place.at.inj heq)]
      exact (h.1.others p hp).imp_right fun hf => hf.2.2.elim fun _ hf => hf.2.elim

/-- The rename puts the staging folder at the destination at once. -/
theorem replace_leaves {env : Env B} (hfree : j.start (.at j.destination) = none) (hne : j.destination ≠ j.source) :
    Durable.Leaves (j.Working E G) (replace env j.staging j.destination) (j.Left E G)
      (fun _ d => j.Left E G d ∧ ∃ u, d (.at j.destination) = some u ∧ G u) fun _ => j.Left E G := by
  refine Durable.Leaves.bind working_failing fun _ => ?_
  refine Durable.Leaves.bind (Q := fun _ d => j.Left E G d ∧ ∃ u, d (.at j.destination) = some u ∧ G u)
    (Durable.Leaves.write (fun d hd => hd.replaced hfree hne) fun d hd => ?_) fun _ => ?_
  · refine ⟨Job.Working.replaced hd hfree hne, hd.2.imp fun u hu => ⟨?_, hu.2⟩⟩
    rw [Function.update_of_ne (fun h => by cases h), Function.update_self, hu.1]
  · cases env.folderSyncFails with
    | none => exact Durable.Leaves.pure fun _ hd => hd
    | some m => exact Durable.Leaves.raise fun _ hd => hd.1

/-- A call whose work in the staging folder keeps to `G` does so wherever it is cut. -/
theorem staged_leaves {α : Type} {env : Env B} (henv : j.random = env.random) {rest : Place → Action B α}
    {Q : α → Disk B → Prop}
    (hrest : Durable.Leaves (j.Working E (· = Table.empty)) (rest j.staging) (j.Left E G) Q fun _ => j.Left E G) :
    Durable.Leaves (j.Left E fun _ => False) (staged env j.destination rest) (j.Left E G) Q fun _ => j.Left E G := by
  have hstaging : Place.incomplete j.destination env.random = j.staging := by rw [← henv]; rfl
  have hweak : ∀ d, j.Left E (fun _ => False) d → j.Left E G d := fun d hd => hd.mono fun _ hf => hf.elim
  refine Durable.Leaves.bind (Q := fun _ => j.Left E fun _ => False) ?_ fun _ => ?_
  · cases env.prepareFails with
    | none => exact Durable.Leaves.pure fun _ hd => hd
    | some m => exact Durable.Leaves.raise fun d hd => hweak d hd
  · dsimp only
    rw [hstaging]
    refine Durable.Leaves.bind (Q := fun _ => j.Working E (· = Table.empty)) ?_ fun _ => ?_
    · exact Durable.Leaves.write (fun d hd => (hweak d hd).stage _) fun d hd =>
        ⟨hd.stage _, .empty, Function.update_self .., rfl⟩
    · refine Durable.Leaves.handle hrest fun e => ?_
      exact Durable.Leaves.bind (Q := fun _ => j.Left E G)
        (Durable.Leaves.write (fun d hd => hd.stage none) fun d hd => hd.stage none) fun _ =>
        Durable.Leaves.raise fun _ hd => hd

end Mesa.Recovery
