/-
What the initialisation makes of a policy database, for every mix of scoped tables and every statement that fails.
The migration copies all three tables or none; what it cannot do is to copy a table that is not there.
-/
import Mesa.Security.PolicyMigration

namespace Mesa.Security

open Mesa.Foundation

variable {failing : Option InitStep} {db db' : PolicyDb}

/-! ## Statements -/

@[simp] theorem statement_eq_ok {step : InitStep} {u : Unit} : statement failing step = .ok u ↔ failing ≠ some step := by
  unfold statement
  split
  next h => exact ⟨fun h' => (by cases h'), fun h' => absurd h h'⟩
  next h => exact ⟨fun _ => h, fun _ => rfl⟩

theorem statement_eq_error {step : InitStep} {e : InitError} :
    statement failing step = .error e ↔ failing = some step ∧ e = .failed step := by
  unfold statement
  split
  next h => exact ⟨fun h' => ⟨h, by cases h'; rfl⟩, fun h' => by rw [h'.2]⟩
  next h => exact ⟨fun h' => (by cases h'), fun h' => absurd h'.1 h⟩

theorem transaction_ok {f : Option InitStep → PolicyDb → Except InitError PolicyDb} (h : f failing db = .ok db') :
    transaction f failing db = (.ok (), db') := by
  unfold transaction
  rw [h]

theorem transaction_error {f : Option InitStep → PolicyDb → Except InitError PolicyDb} {e : InitError}
    (h : f failing db = .error e) : transaction f failing db = (.error e, db) := by
  unfold transaction
  rw [h]

/-- A single statement that is committed by itself. -/
theorem single_run (step : InitStep) (f : PolicyDb → PolicyDb) (failing : Option InitStep) (db : PolicyDb) :
    transaction (fun failing db => do
      statement failing step
      pure (f db)) failing db =
    if failing = some step then (.error (.failed step), db) else (.ok (), f db) := by
  split
  next h =>
    refine transaction_error ?_
    rw [statement_eq_error.2 ⟨h, rfl⟩]
    rfl
  next h =>
    refine transaction_ok ?_
    rw [(statement_eq_ok (u := ())).2 h]
    rfl

/-- A loop of such statements stops before the one that fails. -/
theorem forEach_run {β : Type} {step : β → InitStep} {f : PolicyDb → β → PolicyDb} {m : β → Initializing Unit}
    (hm : ∀ b failing db, m b failing db =
      if failing = some (step b) then (.error (.failed (step b)), db) else (.ok (), f db b)) :
    ∀ (failing : Option InitStep) (l : List β) (db : PolicyDb),
      (∃ us, (∀ b ∈ l, failing ≠ some (step b)) ∧ Prog.forEach m l failing db = (.ok us, l.foldl f db)) ∨
      ∃ done b rest, l = done ++ b :: rest ∧ (∀ x ∈ done, failing ≠ some (step x)) ∧ failing = some (step b) ∧
        Prog.forEach m l failing db = (.error (.failed (step b)), done.foldl f db)
  | failing, [], db => .inl ⟨[], fun _ h => absurd h List.not_mem_nil, rfl⟩
  | failing, b :: l, db => by
    by_cases hb : failing = some (step b)
    · have hrun : m b failing db = (.error (.failed (step b)), db) := by rw [hm, if_pos hb]
      exact .inr ⟨[], b, l, rfl, fun _ h => absurd h List.not_mem_nil, hb, Prog.bind_error hrun⟩
    · have hrun : m b failing db = (.ok (), f db b) := by rw [hm, if_neg hb]
      rcases forEach_run hm failing l (f db b) with ⟨us, hl, hrest⟩ | ⟨done, x, rest, rfl, hdone, hx, hrest⟩
      · refine .inl ⟨() :: us, fun y hy => ?_, (Prog.bind_ok hrun).trans (Prog.bind_ok hrest)⟩
        rcases List.mem_cons.1 hy with rfl | hy
        · exact hb
        · exact hl y hy
      · refine .inr ⟨b :: done, x, rest, rfl, fun y hy => ?_, hx, (Prog.bind_ok hrun).trans (Prog.bind_error hrest)⟩
        rcases List.mem_cons.1 hy with rfl | hy
        · exact hb
        · exact hdone y hy

/-! ## Migration -/

/-- Rows that differ in a narrower key differ in the current one. -/
theorem ScopedTable.unique_key {t : Scoped} (table : ScopedTable t) :
    (table.rows.map (Grant.project t.key)).Nodup := by
  have hnarrow : table.rows.map (Grant.project table.key) =
      (table.rows.map (Grant.project t.key)).map (Grant.project table.key) := by
    rw [List.map_map]
    refine List.map_congr_left fun g _ => ?_
    unfold Grant.project
    rw [Function.comp_apply, List.filter_filter]
    refine List.filter_congr fun v _ => ?_
    rw [Bool.eq_iff_iff, Bool.and_eq_true, decide_eq_true_iff, decide_eq_true_iff]
    exact ⟨fun h => ⟨h, table.narrow h⟩, fun h => h.1⟩
  exact List.Nodup.of_map _ (hnarrow ▸ table.unique)

theorem Scoped.key_subset (t : Scoped) : t.key ⊆ t.key := List.Subset.refl t.key

/-- The same grants under the current key. -/
def ScopedTable.widen {t : Scoped} (table : ScopedTable t) : ScopedTable t :=
  ⟨t.key, t.key_subset, table.rows, table.unique_key⟩

theorem foldlM_all (step : Migrating → Scoped → Except InitError Migrating) (m : Migrating) :
    Scoped.all.foldlM step m = (do
      let m₁ ← step m .workspaceRoles
      let m₂ ← step m₁ .datasetRoles
      step m₂ .datasetPermissions) := by
  unfold Scoped.all
  simp only [List.foldlM_cons, List.foldlM_nil, bind_pure]

/-- A phase that treats each table by itself, and finds it as `J` says. -/
theorem phase_eq_ok {step : Migrating → Scoped → Except InitError Migrating} {J P : Migrating → Scoped → Prop}
    {f : Migrating → Scoped → Migrating} (h : ∀ m t m', J m t → (step m t = .ok m' ↔ P m t ∧ m' = f m t))
    (hJ : ∀ m t u, t ≠ u → J m u → J (f m t) u) (hP : ∀ m t u, t ≠ u → (P (f m t) u ↔ P m u)) {m m' : Migrating}
    (hm : ∀ t, J m t) :
    Scoped.all.foldlM step m = .ok m' ↔
      (∀ t, P m t) ∧ m' = f (f (f m .workspaceRoles) .datasetRoles) .datasetPermissions := by
  have hfirst := hP m .workspaceRoles .datasetRoles (by decide)
  have hfirst' := hP m .workspaceRoles .datasetPermissions (by decide)
  have hsecond := hP (f m .workspaceRoles) .datasetRoles .datasetPermissions (by decide)
  have hm₁ := hJ m .workspaceRoles .datasetRoles (by decide) (hm _)
  have hm₂ := hJ (f m .workspaceRoles) .datasetRoles .datasetPermissions (by decide)
    (hJ m .workspaceRoles .datasetPermissions (by decide) (hm _))
  rw [foldlM_all, bind_eq_ok]
  constructor
  · rintro ⟨m₁, h₁, hrest⟩
    obtain ⟨m₂, h₂, h₃⟩ := bind_eq_ok.1 hrest
    obtain ⟨hp₁, rfl⟩ := (h _ _ _ (hm _)).1 h₁
    obtain ⟨hp₂, rfl⟩ := (h _ _ _ hm₁).1 h₂
    obtain ⟨hp₃, rfl⟩ := (h _ _ _ hm₂).1 h₃
    refine ⟨fun t => ?_, rfl⟩
    cases t with
    | workspaceRoles => exact hp₁
    | datasetRoles => exact hfirst.1 hp₂
    | datasetPermissions => exact hfirst'.1 (hsecond.1 hp₃)
  · rintro ⟨hp, rfl⟩
    refine ⟨_, (h _ _ _ (hm _)).2 ⟨hp _, rfl⟩, bind_eq_ok.2 ⟨_, (h _ _ _ hm₁).2 ⟨hfirst.2 (hp _), rfl⟩, ?_⟩⟩
    exact (h _ _ _ hm₂).2 ⟨hsecond.2 (hfirst'.2 (hp _)), rfl⟩

/-- Three updates by table give a function of the table. -/
theorem update_all {F : Scoped → Type} (g h : (t : Scoped) → F t) :
    Function.update (Function.update (Function.update h .workspaceRoles (g .workspaceRoles)) .datasetRoles
      (g .datasetRoles)) .datasetPermissions (g .datasetPermissions) = g := by
  funext t
  cases t <;> rfl

theorem createReplacements_eq_ok {m' : Migrating} :
    Scoped.all.foldlM (Migrating.createReplacement failing) ⟨db, fun _ => none⟩ = .ok m' ↔
      (∀ t, failing ≠ some (.replace t)) ∧ m' = ⟨db, fun t => some (ScopedTable.empty t)⟩ := by
  rw [phase_eq_ok (J := fun m t => m.replacement t = none) (P := fun _ t => failing ≠ some (.replace t))
    (f := fun m t => ⟨m.db, Function.update m.replacement t (some (ScopedTable.empty t))⟩)
    (fun m t m' hm => ?_) (fun m t u hne hm => ?_) (fun _ _ _ _ => Iff.rfl) (fun _ => rfl)]
  · rw [update_all (fun t => some (ScopedTable.empty t))]
  · unfold Migrating.createReplacement
    rw [bind_eq_ok, hm]
    constructor
    · rintro ⟨u, hu, h⟩
      exact ⟨statement_eq_ok.1 hu, (Except.ok.inj h).symm⟩
    · rintro ⟨hu, rfl⟩
      exact ⟨(), statement_eq_ok.2 hu, rfl⟩
  · exact (Function.update_of_ne hne.symm _ _).trans hm

theorem copies_eq_ok {m' : Migrating} :
    Scoped.all.foldlM (Migrating.copy failing) ⟨db, fun t => some (ScopedTable.empty t)⟩ = .ok m' ↔
      (∀ t, failing ≠ some (.copy t) ∧ (db.tables t).isSome) ∧
        m' = ⟨db, fun t => (db.tables t).map ScopedTable.widen⟩ := by
  rw [phase_eq_ok (J := fun m t => m.db = db ∧ m.replacement t = some (ScopedTable.empty t))
    (P := fun _ t => failing ≠ some (.copy t) ∧ (db.tables t).isSome)
    (f := fun m t => ⟨m.db, Function.update m.replacement t ((db.tables t).map ScopedTable.widen)⟩)
    (fun m t m' hm => ?_) (fun m t u hne hm => ?_) (fun _ _ _ _ => Iff.rfl) (fun _ => ⟨rfl, rfl⟩)]
  · rw [update_all (fun t => (db.tables t).map ScopedTable.widen)]
  · obtain ⟨rfl, hr⟩ := hm
    unfold Migrating.copy
    rw [bind_eq_ok, hr]
    cases hs : m.db.tables t with
    | none =>
      constructor
      · rintro ⟨u, hu, h⟩
        cases h
      · rintro ⟨⟨-, h⟩, -⟩
        cases h
    | some source =>
      have hunique : (((ScopedTable.empty t).rows ++ source.rows).map (Grant.project (ScopedTable.empty t).key)).Nodup :=
        source.unique_key
      constructor
      · rintro ⟨u, hu, h⟩
        dsimp only at h
        rw [dif_pos hunique] at h
        exact ⟨⟨statement_eq_ok.1 hu, rfl⟩, (Except.ok.inj h).symm⟩
      · rintro ⟨⟨hu, -⟩, rfl⟩
        refine ⟨(), statement_eq_ok.2 hu, ?_⟩
        dsimp only
        rw [dif_pos hunique]
        rfl
  · exact ⟨hm.1, (Function.update_of_ne hne.symm _ _).trans hm.2⟩

theorem counts_eq_ok {m' : Migrating} :
    Scoped.all.foldlM (Migrating.count failing) ⟨db, fun t => (db.tables t).map ScopedTable.widen⟩ = .ok m' ↔
      (∀ t, failing ≠ some (.count t) ∧ (db.tables t).isSome) ∧
        m' = ⟨db, fun t => (db.tables t).map ScopedTable.widen⟩ := by
  rw [phase_eq_ok (J := fun m t => m.db = db ∧ m.replacement t = (db.tables t).map ScopedTable.widen)
    (P := fun _ t => failing ≠ some (.count t) ∧ (db.tables t).isSome) (f := fun m _ => m)
    (fun m t m' hm => ?_) (fun m t u _ hm => hm) (fun _ _ _ _ => Iff.rfl) (fun _ => ⟨rfl, rfl⟩)]
  obtain ⟨rfl, hr⟩ := hm
  unfold Migrating.count
  rw [bind_eq_ok, hr]
  cases hs : m.db.tables t with
  | none =>
    constructor
    · rintro ⟨u, hu, h⟩
      cases h
    · rintro ⟨⟨-, h⟩, -⟩
      cases h
  | some source =>
    have hcount : ¬ source.rows.length ≠ source.widen.rows.length := not_not.2 rfl
    rw [Option.map_some]
    dsimp only
    rw [if_neg hcount]
    constructor
    · rintro ⟨u, hu, h⟩
      exact ⟨⟨statement_eq_ok.1 hu, rfl⟩, (Except.ok.inj h).symm⟩
    · rintro ⟨⟨hu, -⟩, rfl⟩
      exact ⟨(), statement_eq_ok.2 hu, rfl⟩

theorem swaps_eq_ok {m' : Migrating} :
    Scoped.all.foldlM (Migrating.swap failing) ⟨db, fun t => (db.tables t).map ScopedTable.widen⟩ = .ok m' ↔
      (∀ t, failing ≠ some (.drop t) ∧ failing ≠ some (.rename t) ∧ (db.tables t).isSome) ∧
        m' = ⟨{ db with tables := fun t => (db.tables t).map ScopedTable.widen }, fun _ => none⟩ := by
  rw [phase_eq_ok (J := fun m t => m.db.tables t = db.tables t ∧ m.replacement t = (db.tables t).map ScopedTable.widen)
    (P := fun _ t => failing ≠ some (.drop t) ∧ failing ≠ some (.rename t) ∧ (db.tables t).isSome)
    (f := fun m t => ⟨{ m.db with tables := Function.update m.db.tables t ((db.tables t).map ScopedTable.widen) },
      Function.update m.replacement t none⟩)
    (fun m t m' hm => ?_) (fun m t u hne hm => ?_) (fun _ _ _ _ => Iff.rfl) (fun _ => ⟨rfl, rfl⟩)]
  · dsimp only
    rw [update_all (fun t => (db.tables t).map ScopedTable.widen), update_all (fun t => (none : Option (ScopedTable t)))]
  · obtain ⟨hd, hr⟩ := hm
    unfold Migrating.swap
    rw [bind_eq_ok, hd, hr]
    cases hs : db.tables t with
    | none =>
      constructor
      · rintro ⟨u, hu, h⟩
        cases h
      · rintro ⟨⟨-, -, h⟩, -⟩
        cases h
    | some source =>
      constructor
      · rintro ⟨u, hu, h⟩
        rw [Option.isNone_some, if_neg Bool.false_ne_true, bind_eq_ok] at h
        obtain ⟨v, hv, h⟩ := h
        exact ⟨⟨statement_eq_ok.1 hu, statement_eq_ok.1 hv, rfl⟩, (Except.ok.inj h).symm⟩
      · rintro ⟨⟨hu, hv, -⟩, rfl⟩
        refine ⟨(), statement_eq_ok.2 hu, ?_⟩
        rw [Option.isNone_some, if_neg Bool.false_ne_true, bind_eq_ok]
        exact ⟨(), statement_eq_ok.2 hv, rfl⟩
  · exact ⟨(Function.update_of_ne hne.symm _ _).trans hm.1, (Function.update_of_ne hne.symm _ _).trans hm.2⟩

/-- Some table has a narrower key than the current one. -/
def PolicyDb.outdated (db : PolicyDb) : Bool := Scoped.all.any fun t => (db.tables t).any fun table => !table.current

def PolicyDb.complete (db : PolicyDb) : Bool := Scoped.all.all fun t => (db.tables t).isSome

theorem complete_iff : db.complete = true ↔ ∀ t, (db.tables t).isSome = true := by
  unfold PolicyDb.complete Scoped.all
  simp only [List.all_cons, List.all_nil, Bool.and_true, Bool.and_eq_true]
  refine ⟨fun ⟨hw, hr, hp⟩ t => ?_, fun h => ⟨h _, h _, h _⟩⟩
  cases t with
  | workspaceRoles => exact hw
  | datasetRoles => exact hr
  | datasetPermissions => exact hp

/-- The database after the migration. -/
def PolicyDb.rebuilt (db : PolicyDb) : PolicyDb :=
  ({ db with tables := fun t => (db.tables t).map ScopedTable.widen } : PolicyDb).record

def InitStep.migrates : InitStep → Bool
  | .beginImmediate | .replace _ | .copy _ | .count _ | .drop _ | .rename _ | .recordMigration | .commitMigration => true
  | _ => false

theorem ne_of_migrates {step : InitStep} (h : failing.any InitStep.migrates = false) (hstep : step.migrates = true) :
    failing ≠ some step := by
  rintro rfl
  rw [Option.any_some, hstep] at h
  cases h

theorem rebuildTables_eq_ok :
    rebuildTables failing db = .ok db' ↔
      (failing.any InitStep.migrates = false ∧ db.complete = true) ∧ db' = db.rebuilt := by
  unfold rebuildTables
  constructor
  · intro h
    obtain ⟨u₁, hbegin, h⟩ := bind_eq_ok.1 h
    obtain ⟨m₁, h₁, h⟩ := bind_eq_ok.1 h
    obtain ⟨hreplace, rfl⟩ := createReplacements_eq_ok.1 h₁
    obtain ⟨m₂, h₂, h⟩ := bind_eq_ok.1 h
    obtain ⟨hcopy, rfl⟩ := copies_eq_ok.1 h₂
    obtain ⟨m₃, h₃, h⟩ := bind_eq_ok.1 h
    obtain ⟨hcount, rfl⟩ := counts_eq_ok.1 h₃
    obtain ⟨m₄, h₄, h⟩ := bind_eq_ok.1 h
    obtain ⟨hswap, rfl⟩ := swaps_eq_ok.1 h₄
    obtain ⟨u₂, hrecord, h⟩ := bind_eq_ok.1 h
    obtain ⟨u₃, hcommit, h⟩ := bind_eq_ok.1 h
    refine ⟨⟨?_, complete_iff.2 fun t => (hcopy t).2⟩, (Except.ok.inj h).symm⟩
    rw [Option.any_eq_false]
    rintro step rfl
    cases step with
    | beginImmediate => exact absurd rfl (statement_eq_ok.1 hbegin)
    | replace t => exact absurd rfl (hreplace t)
    | copy t => exact absurd rfl (hcopy t).1
    | count t => exact absurd rfl (hcount t).1
    | drop t => exact absurd rfl (hswap t).1
    | rename t => exact absurd rfl (hswap t).2.1
    | recordMigration => exact absurd rfl (statement_eq_ok.1 hrecord)
    | commitMigration => exact absurd rfl (statement_eq_ok.1 hcommit)
    | _ => rfl
  · rintro ⟨⟨hfine, hcomplete⟩, rfl⟩
    have hthere := complete_iff.1 hcomplete
    refine bind_eq_ok.2 ⟨(), statement_eq_ok.2 (ne_of_migrates hfine rfl), bind_eq_ok.2 ⟨_, createReplacements_eq_ok.2
      ⟨fun t => ne_of_migrates hfine rfl, rfl⟩, bind_eq_ok.2 ⟨_, copies_eq_ok.2 ⟨fun t => ⟨ne_of_migrates hfine rfl,
      hthere t⟩, rfl⟩, bind_eq_ok.2 ⟨_, counts_eq_ok.2 ⟨fun t => ⟨ne_of_migrates hfine rfl, hthere t⟩, rfl⟩, ?_⟩⟩⟩⟩
    refine bind_eq_ok.2 ⟨_, swaps_eq_ok.2 ⟨fun t => ⟨ne_of_migrates hfine rfl, ne_of_migrates hfine rfl, hthere t⟩,
      rfl⟩, bind_eq_ok.2 ⟨(), statement_eq_ok.2 (ne_of_migrates hfine rfl), ?_⟩⟩
    exact bind_eq_ok.2 ⟨(), statement_eq_ok.2 (ne_of_migrates hfine rfl), rfl⟩

/-- The migration rebuilds all tables when all are there, and otherwise it changes nothing. -/
theorem migrate_cases (failing : Option InitStep) (db : PolicyDb) :
    (failing.any InitStep.migrates = false ∧ db.complete = true ∧ migrate failing db = (.ok (), db.rebuilt)) ∨
      ¬ (failing.any InitStep.migrates = false ∧ db.complete = true) ∧ ∃ e, migrate failing db = (.error e, db) := by
  cases hrun : rebuildTables failing db with
  | ok db' =>
    obtain ⟨⟨hfine, hcomplete⟩, rfl⟩ := rebuildTables_eq_ok.1 hrun
    exact .inl ⟨hfine, hcomplete, transaction_ok hrun⟩
  | error e =>
    refine .inr ⟨fun h => ?_, e, transaction_error hrun⟩
    rw [rebuildTables_eq_ok.2 ⟨h, rfl⟩] at hrun
    cases hrun

/-! ## Inspection -/

theorem anyOutdated_ok {ts : List Scoped} {b : Bool} (h : anyOutdated failing db ts = .ok b) :
    b = ts.any fun t => (db.tables t).any fun table => !table.current := by
  induction ts with
  | nil => exact (Except.ok.inj h).symm
  | cons t rest ih =>
    unfold anyOutdated at h
    obtain ⟨-, -, h⟩ := bind_eq_ok.1 h
    rw [List.any_cons]
    split at h
    next hold => rw [hold, Bool.true_or, ← Except.ok.inj h]
    next hnew => rw [eq_false_of_ne_true hnew, Bool.false_or, ih h]

theorem anyOutdated_run {ts : List Scoped} (h : ∀ t ∈ ts, failing ≠ some (.readShape t)) :
    ∃ b, anyOutdated failing db ts = .ok b := by
  induction ts with
  | nil => exact ⟨false, rfl⟩
  | cons t rest ih =>
    obtain ⟨b, hb⟩ := ih fun u hu => h u (List.mem_cons_of_mem _ hu)
    unfold anyOutdated
    rw [(statement_eq_ok (u := ())).2 (h t List.mem_cons_self)]
    by_cases hold : ((db.tables t).any fun table => !table.current) = true
    · exact ⟨true, if_pos hold⟩
    · exact ⟨b, (if_neg hold).trans hb⟩

def PolicyDb.newer (db : PolicyDb) : Bool := decide (rbacSchemaVersion < db.version)

/-- The inspection raises, or it finds what there is. -/
theorem needsMigration_cases (failing : Option InitStep) (db : PolicyDb) :
    (db.newer = false ∧ needsMigration failing db = (.ok db.outdated, db)) ∨
      ((db.newer = true ∨ failing = some .readVersion ∨ ∃ t, failing = some (.readShape t)) ∧
        ∃ e, needsMigration failing db = (.error e, db)) := by
  by_cases hread : failing = some .readVersion
  · refine .inr ⟨.inr (.inl hread), .failed .readVersion, ?_⟩
    unfold needsMigration
    rw [statement_eq_error.2 ⟨hread, rfl⟩]
    rfl
  by_cases hnewer : rbacSchemaVersion < db.version
  · refine .inr ⟨.inl (decide_eq_true hnewer), .newerVersion, ?_⟩
    unfold needsMigration
    rw [(statement_eq_ok (u := ())).2 hread, if_pos hnewer]
    rfl
  have hneeds : needsMigration failing db = (anyOutdated failing db Scoped.all, db) := by
    unfold needsMigration
    rw [(statement_eq_ok (u := ())).2 hread, if_neg hnewer]
    rfl
  cases hshapes : anyOutdated failing db Scoped.all with
  | ok b =>
    refine .inl ⟨decide_eq_false hnewer, ?_⟩
    rw [hneeds, hshapes, anyOutdated_ok hshapes]
    rfl
  | error e =>
    refine .inr ⟨.inr (.inr ?_), e, by rw [hneeds, hshapes]⟩
    by_contra hnone
    obtain ⟨b, hb⟩ : ∃ b, anyOutdated failing db Scoped.all = .ok b := anyOutdated_run fun t _ h => hnone ⟨t, h⟩
    rw [hshapes] at hb
    cases hb

/-! ## Creation -/

/-- A table is there, empty if it was missing. -/
def PolicyDb.fill (db : PolicyDb) (t : Scoped) : PolicyDb :=
  { db with tables := Function.update db.tables t (some ((db.tables t).getD (ScopedTable.empty t))) }

theorem fill_self (db : PolicyDb) (t : Scoped) :
    (db.fill t).tables t = some ((db.tables t).getD (ScopedTable.empty t)) :=
  Function.update_self _ _ _

theorem fill_ne {t u : Scoped} (h : u ≠ t) : (db.fill t).tables u = db.tables u := Function.update_of_ne h _ _

theorem foldl_fill (u : Scoped) : ∀ (ts : List Scoped) (db : PolicyDb), (ts.foldl PolicyDb.fill db).tables u =
    if u ∈ ts then some ((db.tables u).getD (ScopedTable.empty u)) else db.tables u
  | [], db => rfl
  | t :: ts, db => by
    rw [List.foldl_cons, foldl_fill u ts]
    by_cases hut : u = t
    · subst hut
      rw [if_pos List.mem_cons_self, fill_self, Option.getD_some, ite_self]
    · rw [fill_ne hut]
      by_cases hu : u ∈ ts
      · rw [if_pos hu, if_pos (List.mem_cons_of_mem _ hu)]
      · rw [if_neg hu, if_neg fun h => (List.mem_cons.1 h).elim hut hu]

/-- Filling in tables that are all there changes nothing. -/
theorem foldl_fill_same {ts : List Scoped} (h : ∀ t ∈ ts, (db.tables t).isSome = true) :
    (ts.foldl PolicyDb.fill db).tables = db.tables := by
  funext u
  rw [foldl_fill]
  split
  next hu =>
    obtain ⟨table, htable⟩ := Option.isSome_iff_exists.1 (h u hu)
    rw [htable, Option.getD_some]
  · rfl

theorem foldl_fill_rest (ts : List Scoped) (db : PolicyDb) : (ts.foldl PolicyDb.fill db).base = db.base ∧
    (ts.foldl PolicyDb.fill db).permissions = db.permissions ∧ (ts.foldl PolicyDb.fill db).versions = db.versions := by
  induction ts generalizing db with
  | nil => exact ⟨rfl, rfl, rfl⟩
  | cons t rest ih => exact ih (db.fill t)

/-! ## All of the initialisation -/

/-- The database with its other tables created. -/
def PolicyDb.based (db : PolicyDb) : PolicyDb := { db with base := fun _ => true }

def PolicyDb.seeded (system : String × String) (db : PolicyDb) : PolicyDb :=
  { db with permissions := db.permissions.insertOrIgnore ⟨system.1, system.2, .write⟩ }

/-- The database before its last statement. -/
def PolicyDb.shaped (db : PolicyDb) : PolicyDb :=
  if db.outdated then db.based.rebuilt else (Scoped.all.foldl PolicyDb.fill db.based).record

/-- Statements whose failure leaves the scoped tables as they were. -/
def InitStep.harmless : InitStep → Bool
  | .base _ | .readVersion | .readShape _ => true
  | step => step.migrates

theorem harmless_of_migrates (h : failing.any InitStep.migrates = true) : failing.any InitStep.harmless = true := by
  cases failing with
  | none => cases h
  | some step =>
    cases step with
    | base | readVersion | readShape => rfl
    | _ => exact h

/-- The ways in which the initialisation can end. -/
inductive Initialized (system : String × String) (failing : Option InitStep) (db : PolicyDb) :
    Except InitError Unit × PolicyDb → Prop
  | untouched {e : InitError} {db' : PolicyDb} (htables : db'.tables = db.tables)
      (hreason : db.newer = true ∨ db.outdated = true ∧ db.complete = false ∨ failing.any InitStep.harmless = true) :
      Initialized system failing db (.error e, db')
  | creating {e : InitError} {db' : PolicyDb} {t : Scoped} {done rest : List Scoped}
      (hnewer : db.newer = false) (houtdated : db.outdated = false) (hall : Scoped.all = done ++ t :: rest)
      (hfailing : failing = some (.create t)) (htables : db'.tables = (done.foldl PolicyDb.fill db.based).tables) :
      Initialized system failing db (.error e, db')
  | recording {e : InitError} {db' : PolicyDb} (hnewer : db.newer = false) (houtdated : db.outdated = false)
      (hfailing : failing = some .recordVersion ∨ failing = some .commitVersion)
      (htables : db'.tables = db.shaped.tables) : Initialized system failing db (.error e, db')
  | seeding {e : InitError} {db' : PolicyDb} (hnewer : db.newer = false)
      (hcomplete : db.outdated = true → db.complete = true)
      (hfailing : failing = some .seed ∨ failing = some .commitSeed) (htables : db'.tables = db.shaped.tables) :
      Initialized system failing db (.error e, db')
  | done (hnewer : db.newer = false) (hcomplete : db.outdated = true → db.complete = true)
      (hfine : db.outdated = false → (∀ t, failing ≠ some (.create t)) ∧ failing ≠ some .recordVersion ∧
        failing ≠ some .commitVersion)
      (hseed : failing ≠ some .seed ∧ failing ≠ some .commitSeed) :
      Initialized system failing db (.ok (), db.shaped.seeded system)

theorem createBase_run (b : BaseTable) (failing : Option InitStep) (db : PolicyDb) : createBase b failing db =
    if failing = some (.base b) then (.error (.failed (.base b)), db)
    else (.ok (), { db with base := Function.update db.base b true }) :=
  single_run (.base b) (fun db => { db with base := Function.update db.base b true }) failing db

theorem createScoped_run (t : Scoped) (failing : Option InitStep) (db : PolicyDb) : createScoped t failing db =
    if failing = some (.create t) then (.error (.failed (.create t)), db) else (.ok (), db.fill t) :=
  single_run (.create t) (fun db => db.fill t) failing db

/-- Two statements that are committed together. -/
theorem pair_cases (first second : InitStep) (f : PolicyDb → PolicyDb) (failing : Option InitStep) (db : PolicyDb) :
    ((failing ≠ some first ∧ failing ≠ some second) ∧ transaction (fun failing db => do
      statement failing first
      statement failing second
      pure (f db)) failing db = (.ok (), f db)) ∨
    (failing = some first ∨ failing = some second) ∧ ∃ e, transaction (fun failing db => do
      statement failing first
      statement failing second
      pure (f db)) failing db = (.error e, db) := by
  by_cases hfirst : failing = some first
  · refine .inr ⟨.inl hfirst, .failed first, transaction_error ?_⟩
    rw [statement_eq_error.2 ⟨hfirst, rfl⟩]
    rfl
  by_cases hsecond : failing = some second
  · refine .inr ⟨.inr hsecond, .failed second, transaction_error ?_⟩
    rw [(statement_eq_ok (u := ())).2 hfirst, statement_eq_error.2 ⟨hsecond, rfl⟩]
    rfl
  · refine .inl ⟨⟨hfirst, hsecond⟩, transaction_ok ?_⟩
    rw [(statement_eq_ok (u := ())).2 hfirst, (statement_eq_ok (u := ())).2 hsecond]
    rfl

theorem seedSystem_cases (system : String × String) (failing : Option InitStep) (db : PolicyDb) :
    ((failing ≠ some .seed ∧ failing ≠ some .commitSeed) ∧ seedSystem system failing db = (.ok (), db.seeded system)) ∨
      (failing = some .seed ∨ failing = some .commitSeed) ∧ ∃ e, seedSystem system failing db = (.error e, db) :=
  pair_cases .seed .commitSeed (PolicyDb.seeded system) failing db

theorem initializePolicy_cases (system : String × String) (failing : Option InitStep) (db : PolicyDb) :
    Initialized system failing db (initializePolicy system failing db) := by
  have hbased : BaseTable.all.foldl (fun db b => { db with base := Function.update db.base b true }) db = db.based := by
    unfold BaseTable.all PolicyDb.based
    simp only [List.foldl_cons, List.foldl_nil, PolicyDb.mk.injEq, and_true]
    funext b
    cases b <;> rfl
  have hkeeps : ∀ (bs : List BaseTable) (db : PolicyDb),
      (bs.foldl (fun db b => { db with base := Function.update db.base b true }) db).tables = db.tables := by
    intro bs
    induction bs with
    | nil => exact fun db => rfl
    | cons b rest ih => exact fun db => ih _
  rcases forEach_run createBase_run failing BaseTable.all db with ⟨us, -, hbase⟩ | ⟨done, b, rest, -, -, hb, hbase⟩
  swap
  · have hrun : initializePolicy system failing db = _ := Prog.bind_error hbase
    rw [hrun]
    exact .untouched (hkeeps done db) (.inr (.inr (by rw [hb]; rfl)))
  rw [hbased] at hbase
  rcases needsMigration_cases failing db.based with ⟨hnewer, hneeds⟩ | ⟨hreason, e, hneeds⟩
  swap
  · have hrun : initializePolicy system failing db = (.error e, db.based) :=
      (Prog.bind_ok hbase).trans (Prog.bind_error hneeds)
    rw [hrun]
    refine .untouched rfl ?_
    rcases hreason with hreason | hreason | ⟨t, hreason⟩
    · exact .inl hreason
    · exact .inr (.inr (by rw [hreason]; rfl))
    · exact .inr (.inr (by rw [hreason]; rfl))
  have hnewer : db.newer = false := hnewer
  cases houtdated : db.outdated with
  | true =>
    have hneeds : needsMigration failing db.based = (.ok true, db.based) := hneeds.trans (by rw [← houtdated]; rfl)
    have hshaped : db.shaped = db.based.rebuilt := if_pos houtdated
    rcases migrate_cases failing db.based with ⟨hfine, hcomplete, hmigrate⟩ | ⟨hfails, e, hmigrate⟩
    · have hbody : initializePolicy system failing db = seedSystem system failing db.based.rebuilt :=
        (Prog.bind_ok hbase).trans ((Prog.bind_ok hneeds).trans (Prog.bind_ok hmigrate))
      rcases seedSystem_cases system failing db.based.rebuilt with ⟨hseed, hrun⟩ | ⟨hseed, e, hrun⟩
      · rw [hbody, hrun, ← hshaped]
        exact .done hnewer (fun _ => hcomplete) (fun h => absurd (houtdated.symm.trans h) (by decide)) hseed
      · rw [hbody, hrun]
        exact .seeding hnewer (fun _ => hcomplete) hseed (by rw [hshaped])
    · have hrun : initializePolicy system failing db = (.error e, db.based) :=
        (Prog.bind_ok hbase).trans ((Prog.bind_ok hneeds).trans (Prog.bind_error hmigrate))
      rw [hrun]
      refine .untouched rfl (.inr ?_)
      rcases Bool.eq_false_or_eq_true db.complete with hcomplete | hcomplete
      · refine .inr (harmless_of_migrates ?_)
        cases hany : failing.any InitStep.migrates with
        | false => exact absurd ⟨hany, hcomplete⟩ hfails
        | true => rfl
      · exact .inl ⟨houtdated, hcomplete⟩
  | false =>
    have hneeds : needsMigration failing db.based = (.ok false, db.based) := hneeds.trans (by rw [← houtdated]; rfl)
    have hshaped : db.shaped = (Scoped.all.foldl PolicyDb.fill db.based).record :=
      if_neg (by rw [houtdated]; exact Bool.false_ne_true)
    rcases forEach_run createScoped_run failing Scoped.all db.based with
      ⟨us, hcreate, hcreated⟩ | ⟨done, t, rest, hall, -, ht, hcreated⟩
    swap
    · have hrun : initializePolicy system failing db = _ :=
        (Prog.bind_ok hbase).trans ((Prog.bind_ok hneeds).trans (Prog.bind_error hcreated))
      rw [hrun]
      exact .creating hnewer houtdated hall ht rfl
    rcases pair_cases .recordVersion .commitVersion PolicyDb.record failing (Scoped.all.foldl PolicyDb.fill db.based) with
      ⟨hrecord, hrecorded⟩ | ⟨hrecord, e, hrecorded⟩
    swap
    · have hrun : initializePolicy system failing db = _ :=
        (Prog.bind_ok hbase).trans ((Prog.bind_ok hneeds).trans
          ((Prog.bind_ok hcreated).trans (Prog.bind_error hrecorded)))
      rw [hrun]
      exact .recording hnewer houtdated hrecord (by rw [hshaped]; rfl)
    have hbody : initializePolicy system failing db = seedSystem system failing _ :=
      (Prog.bind_ok hbase).trans ((Prog.bind_ok hneeds).trans ((Prog.bind_ok hcreated).trans (Prog.bind_ok hrecorded)))
    have hcomplete : db.outdated = true → db.complete = true := fun h => absurd (houtdated.symm.trans h) (by decide)
    rcases seedSystem_cases system failing (Scoped.all.foldl PolicyDb.fill db.based).record with
      ⟨hseed, hrun⟩ | ⟨hseed, e, hrun⟩
    · rw [hbody, hrun, ← hshaped]
      refine .done hnewer hcomplete (fun _ => ⟨fun t => hcreate t ?_, hrecord⟩) hseed
      cases t <;> decide
    · rw [hbody, hrun]
      exact .seeding hnewer hcomplete hseed (by rw [hshaped])

/-! ## The result -/

theorem widen_current {t : Scoped} (table : ScopedTable t) : table.widen.current = true := by
  unfold ScopedTable.current
  rw [Bool.and_eq_true]
  exact ⟨List.all_eq_true.2 fun _ h => decide_eq_true h, List.all_eq_true.2 fun _ h => decide_eq_true h⟩

theorem empty_current (t : Scoped) : (ScopedTable.empty t).current = true := by
  cases t <;> decide

theorem mem_all (t : Scoped) : t ∈ Scoped.all := by
  cases t <;> decide

theorem outdated_eq_false : db.outdated = false ↔ ∀ t table, db.tables t = some table → table.current = true := by
  unfold PolicyDb.outdated
  rw [List.any_eq_false]
  constructor
  · intro h t table htable
    have hcurrent := h t (mem_all t)
    rw [htable, Option.any_some, Bool.not_eq_true', Bool.not_eq_false] at hcurrent
    exact hcurrent
  · intro h t _
    cases htable : db.tables t with
    | none => exact Bool.false_ne_true
    | some table => rw [Option.any_some, h t table htable]; exact Bool.false_ne_true

theorem outdated_iff : db.outdated = true ↔ ∃ t table, db.tables t = some table ∧ table.current = false := by
  rw [← not_iff_not, Bool.not_eq_true, outdated_eq_false]
  constructor
  · rintro h ⟨t, table, htable, hold⟩
    rw [h t table htable] at hold
    cases hold
  · intro h t table htable
    cases hold : table.current with
    | true => rfl
    | false => exact absurd ⟨t, table, htable, hold⟩ h

theorem shaped_of_outdated (h : db.outdated = true) :
    db.shaped.tables = fun t => (db.tables t).map ScopedTable.widen := by
  unfold PolicyDb.shaped
  rw [if_pos h]
  rfl

theorem shaped_of_current (h : db.outdated = false) :
    db.shaped.tables = fun t => some ((db.tables t).getD (ScopedTable.empty t)) := by
  unfold PolicyDb.shaped
  rw [if_neg (by rw [h]; exact Bool.false_ne_true)]
  funext t
  exact (foldl_fill t Scoped.all db.based).trans (if_pos (mem_all t))

/-- The initialisation changes the scoped tables exactly when it rebuilds them or creates one. -/
theorem shaped_same_iff : db.shaped.tables = db.tables ↔ db.outdated = false ∧ db.complete = true := by
  cases houtdated : db.outdated with
  | true =>
    rw [shaped_of_outdated houtdated]
    refine ⟨fun hsame => ?_, fun hfalse => (by cases hfalse.1)⟩
    obtain ⟨t, table, htable, hcurrent⟩ := outdated_iff.1 houtdated
    have hwiden : (db.tables t).map ScopedTable.widen = db.tables t := congrFun hsame t
    rw [htable, Option.map_some, Option.some.injEq] at hwiden
    rw [← hwiden, widen_current] at hcurrent
    cases hcurrent
  | false =>
    rw [shaped_of_current houtdated, complete_iff]
    refine ⟨fun hsame => ⟨rfl, fun t => by rw [← hsame]; rfl⟩, fun hthere => ?_⟩
    funext t
    obtain ⟨table, htable⟩ := Option.isSome_iff_exists.1 (hthere.2 t)
    rw [htable, Option.getD_some]

/-- After the initialisation each table has the current key and the grants that it had before, each once. -/
def PolicyDb.Upgraded (db db' : PolicyDb) : Prop := ∀ t, ∃ table, db'.tables t = some table ∧ table.current = true ∧
  table.rows = ((db.tables t).map ScopedTable.rows).getD [] ∧ table.rows.Nodup

theorem shaped_upgraded (h : db.outdated = true → db.complete = true) : db.Upgraded db.shaped := by
  intro t
  have hunique (table : ScopedTable t) : table.rows.Nodup := List.Nodup.of_map _ table.unique
  cases houtdated : db.outdated with
  | true =>
    obtain ⟨table, htable⟩ := Option.isSome_iff_exists.1 (complete_iff.1 (h houtdated) t)
    rw [shaped_of_outdated houtdated]
    dsimp only
    rw [htable]
    exact ⟨table.widen, rfl, widen_current table, rfl, hunique table⟩
  | false =>
    rw [shaped_of_current houtdated]
    dsimp only
    cases htable : db.tables t with
    | none => exact ⟨ScopedTable.empty t, rfl, empty_current t, rfl, List.nodup_nil⟩
    | some table => exact ⟨table, rfl, outdated_eq_false.1 houtdated t table htable, rfl, hunique table⟩

/-- What a first initialisation leaves: a second one finds nothing to do. -/
structure PolicyDb.Settled (system : String × String) (db : PolicyDb) : Prop where
  based : ∀ b, db.base b = true
  newer : db.newer = false
  recorded : rbacSchemaVersion ∈ db.versions
  outdated : db.outdated = false
  complete : db.complete = true
  seeded : db.permissions.hasKey system = true

theorem record_of_mem (h : rbacSchemaVersion ∈ db.versions) : db.record = db := by
  unfold PolicyDb.record
  rw [if_pos h]

theorem mem_record (db : PolicyDb) : rbacSchemaVersion ∈ db.record.versions := by
  by_cases h : rbacSchemaVersion ∈ db.versions
  · rw [record_of_mem h]
    exact h
  · unfold PolicyDb.record
    rw [if_neg h]
    exact List.mem_append_right _ List.mem_cons_self

theorem foldr_max_le {bound : Nat} {versions : List Nat} :
    versions.foldr max 0 ≤ bound ↔ ∀ v ∈ versions, v ≤ bound := by
  induction versions with
  | nil => exact ⟨fun _ v h => absurd h List.not_mem_nil, fun _ => Nat.zero_le _⟩
  | cons v rest ih => rw [List.foldr_cons, Nat.max_le, ih, List.forall_mem_cons]

theorem newer_eq_false : db.newer = false ↔ ∀ v ∈ db.versions, v ≤ rbacSchemaVersion := by
  unfold PolicyDb.newer PolicyDb.version
  rw [decide_eq_false_iff_not, Nat.not_lt, foldr_max_le]

theorem newer_record (h : db.newer = false) : db.record.newer = false := by
  rw [newer_eq_false] at h ⊢
  unfold PolicyDb.record
  intro v hv
  dsimp only at hv
  split at hv
  · exact h v hv
  · rcases List.mem_append.1 hv with hv | hv
    · exact h v hv
    · rw [List.mem_singleton.1 hv]

theorem settled_of_run (system : String × String) (hnewer : db.newer = false)
    (hcomplete : db.outdated = true → db.complete = true) : (db.shaped.seeded system).Settled system := by
  have hup := shaped_upgraded hcomplete
  obtain ⟨before, hrecord, hbase, hbefore⟩ :
      ∃ before : PolicyDb, db.shaped = before.record ∧ (∀ b, before.base b = true) ∧ before.newer = false := by
    unfold PolicyDb.shaped
    split
    · exact ⟨_, rfl, fun _ => rfl, hnewer⟩
    · obtain ⟨hfill, -, hversions⟩ := foldl_fill_rest Scoped.all db.based
      refine ⟨_, rfl, fun b => by rw [hfill]; rfl, ?_⟩
      rw [newer_eq_false, hversions]
      exact newer_eq_false.1 hnewer
  constructor
  · show ∀ b, db.shaped.base b = true
    rw [hrecord]
    exact hbase
  · show db.shaped.newer = false
    rw [hrecord]
    exact newer_record hbefore
  · show rbacSchemaVersion ∈ db.shaped.versions
    rw [hrecord]
    exact mem_record before
  · refine outdated_eq_false.2 fun t table htable => ?_
    obtain ⟨table', htable', hcurrent, -⟩ := hup t
    have hsame : table = table' := Option.some.inj (htable.symm.trans htable')
    rw [hsame, hcurrent]
  · refine complete_iff.2 fun t => ?_
    obtain ⟨table, htable, -⟩ := hup t
    exact Option.isSome_iff_exists.2 ⟨table, htable⟩
  · show (db.shaped.permissions.insertOrIgnore ⟨system.1, system.2, .write⟩).hasKey system = true
    rw [Table.hasKey_insertOrIgnore]
    exact Bool.or_eq_true_iff.2 (.inr (decide_eq_true rfl))

theorem rerun_of_settled {system : String × String} (h : db.Settled system) :
    initializePolicy system none db = (.ok (), db) := by
  have hbased : db.based = db := by
    unfold PolicyDb.based
    rw [← funext fun b => (h.based b)]
  have hfilled : Scoped.all.foldl PolicyDb.fill db = db := by
    obtain ⟨hbase, hpermissions, hversions⟩ := foldl_fill_rest Scoped.all db
    have htables : (Scoped.all.foldl PolicyDb.fill db).tables = db.tables :=
      foldl_fill_same fun t _ => complete_iff.1 h.complete t
    rw [PolicyDb.mk.injEq]
    exact ⟨hbase, hpermissions, hversions, htables⟩
  have hshaped : db.shaped = db := by
    unfold PolicyDb.shaped
    rw [if_neg (by rw [h.outdated]; exact Bool.false_ne_true), hbased, hfilled, record_of_mem h.recorded]
  have hseeded : db.seeded system = db := by
    unfold PolicyDb.seeded
    rw [Table.insertOrIgnore_of_hasKey h.seeded]
  obtain ⟨r, hr⟩ : ∃ r, initializePolicy system none db = r := ⟨_, rfl⟩
  have hcases := initializePolicy_cases system none db
  rw [hr] at hcases
  rw [hr]
  cases hcases with
  | untouched htables hreason =>
    rcases hreason with hreason | ⟨hreason, -⟩ | hreason
    · cases h.newer.symm.trans hreason
    · cases h.outdated.symm.trans hreason
    · cases hreason
  | creating hnewer houtdated hall hfailing htables => cases hfailing
  | recording hnewer houtdated hfailing htables => rcases hfailing with hfailing | hfailing <;> cases hfailing
  | seeding hnewer hcomplete hfailing htables => rcases hfailing with hfailing | hfailing <;> cases hfailing
  | done hnewer hcomplete hfine hseed => rw [hshaped, hseeded]

/-- Without a failure the initialisation succeeds, gives each table the current key with the grants that it had and
leaves nothing to a second one; when it raises, the scoped tables are as they were. -/
def PolicySound (system : String × String) (db : PolicyDb) (failing : Option InitStep) : Prop :=
  (failing = none → ∃ db', initializePolicy system none db = (.ok (), db') ∧ db.Upgraded db' ∧
    initializePolicy system none db' = (.ok (), db')) ∧
  ∀ e db', initializePolicy system failing db = (.error e, db') → db'.tables = db.tables

/-- A migration needs all three tables, and what is done outside of it must not have changed one. -/
def PolicyDb.fits (db : PolicyDb) : Option InitStep → Bool
  | none => !db.newer && (!db.outdated || db.complete)
  | some (.create t) => db.newer || db.outdated || (Scoped.all.takeWhile (· ≠ t)).all fun u => (db.tables u).isSome
  | some .recordVersion | some .commitVersion => db.newer || db.outdated || db.complete
  | some .seed | some .commitSeed => db.newer || (db.outdated != db.complete)
  | some _ => true

theorem policySound_of_error {system : String × String} {e : InitError}
    (hrun : initializePolicy system failing db = (.error e, db')) :
    PolicySound system db failing ↔ failing.isSome = true ∧ db'.tables = db.tables := by
  constructor
  · rintro ⟨hfine, hkept⟩
    refine ⟨?_, hkept e db' hrun⟩
    cases failing with
    | some step => rfl
    | none =>
      obtain ⟨db'', hok, -⟩ := hfine rfl
      cases hrun.symm.trans hok
  · rintro ⟨hsome, hkept⟩
    refine ⟨fun hnone => ?_, fun e' db'' h => ?_⟩
    · rw [hnone] at hsome
      cases hsome
    · cases hrun.symm.trans h
      exact hkept

theorem policySound_of_done {system : String × String} (hnewer : db.newer = false)
    (hcomplete : db.outdated = true → db.complete = true)
    (hrun : initializePolicy system failing db = (.ok (), db.shaped.seeded system)) :
    PolicySound system db failing := by
  refine ⟨fun hnone => ?_, fun e db' h => by cases hrun.symm.trans h⟩
  rw [hnone] at hrun
  exact ⟨_, hrun, shaped_upgraded hcomplete, rerun_of_settled (settled_of_run system hnewer hcomplete)⟩

/-- The tables before a given one. -/
theorem before_of_split {t : Scoped} {done rest : List Scoped} (h : Scoped.all = done ++ t :: rest) :
    Scoped.all.takeWhile (· ≠ t) = done := by
  have hnodup : (done ++ t :: rest).Nodup := h ▸ (by decide)
  have hnot : ∀ u ∈ done, decide (u ≠ t) = true := by
    intro u hu
    have hdisjoint := (List.nodup_append.1 hnodup).2.2 u hu t List.mem_cons_self
    exact decide_eq_true hdisjoint
  rw [h, List.takeWhile_append_of_pos hnot, List.takeWhile_cons, if_neg (by simp), List.append_nil]

/-- A loop of creations changes nothing exactly when it finds all of its tables. -/
theorem foldl_fill_same_iff (db : PolicyDb) (ts : List Scoped) :
    (ts.foldl PolicyDb.fill db).tables = db.tables ↔ ∀ t ∈ ts, (db.tables t).isSome = true := by
  refine ⟨fun h t ht => ?_, foldl_fill_same⟩
  rw [← h, foldl_fill, if_pos ht]
  rfl

/-- The initialisation does what it is for exactly when it need not rebuild tables of which one is missing, and when
no statement fails after a table was created or rebuilt and committed. -/
theorem initialize_preserves_iff (system : String × String) (db : PolicyDb) (failing : Option InitStep) :
    PolicySound system db failing ↔ db.fits failing = true := by
  obtain ⟨r, hr⟩ : ∃ r, initializePolicy system failing db = r := ⟨_, rfl⟩
  have hcases := initializePolicy_cases system failing db
  rw [hr] at hcases
  cases hcases with
  | untouched htables hreason =>
    have hfits : db.fits failing = failing.isSome := by
      cases failing with
      | none =>
        rcases hreason with hreason | ⟨houtdated, hcomplete⟩ | hreason
        · simp [PolicyDb.fits, hreason]
        · simp [PolicyDb.fits, houtdated, hcomplete]
        · cases hreason
      | some step =>
        rcases hreason with hreason | ⟨houtdated, hcomplete⟩ | hreason
        · cases step <;> simp [PolicyDb.fits, hreason]
        · cases step <;> simp [PolicyDb.fits, houtdated, hcomplete]
        · cases step <;> first | rfl | cases hreason
    rw [policySound_of_error hr, hfits]
    exact ⟨fun h => h.1, fun h => ⟨h, htables⟩⟩
  | @creating e db' t done rest hnewer houtdated hall hfailing htables =>
    rw [policySound_of_error hr, htables, hfailing]
    dsimp only [PolicyDb.fits]
    rw [hnewer, houtdated, before_of_split hall, Bool.false_or, Bool.false_or, List.all_eq_true]
    have hsame := foldl_fill_same_iff db.based done
    exact ⟨fun h => hsame.1 h.2, fun h => ⟨rfl, hsame.2 h⟩⟩
  | recording hnewer houtdated hfailing htables =>
    rw [policySound_of_error hr, htables, shaped_same_iff]
    have hfits : db.fits failing = db.complete := by
      rcases hfailing with rfl | rfl <;> simp [PolicyDb.fits, hnewer, houtdated]
    have hsome : failing.isSome = true := by
      rcases hfailing with rfl | rfl <;> rfl
    rw [hfits]
    exact ⟨fun h => h.2.2, fun h => ⟨hsome, houtdated, h⟩⟩
  | seeding hnewer hcomplete hfailing htables =>
    rw [policySound_of_error hr, htables, shaped_same_iff]
    have hfits : db.fits failing = (db.outdated != db.complete) := by
      rcases hfailing with rfl | rfl <;> simp [PolicyDb.fits, hnewer]
    have hsome : failing.isSome = true := by
      rcases hfailing with rfl | rfl <;> rfl
    rw [hfits]
    cases houtdated : db.outdated with
    | true =>
      rw [hcomplete houtdated]
      exact ⟨fun h => h.2.1.symm, fun h => absurd h Bool.false_ne_true⟩
    | false =>
      rw [Bool.false_bne]
      exact ⟨fun h => h.2.2, fun h => ⟨hsome, rfl, h⟩⟩
  | done hnewer hcomplete hfine hseed =>
    refine ⟨fun _ => ?_, fun _ => policySound_of_done hnewer hcomplete hr⟩
    cases failing with
    | none =>
      unfold PolicyDb.fits
      rw [hnewer, Bool.not_false, Bool.true_and]
      cases houtdated : db.outdated with
      | true => rw [hcomplete houtdated]; rfl
      | false => rfl
    | some step =>
      cases houtdated : db.outdated with
      | true =>
        cases step with
        | seed => exact absurd rfl hseed.1
        | commitSeed => exact absurd rfl hseed.2
        | _ => simp [PolicyDb.fits, houtdated]
      | false =>
        obtain ⟨hcreate, hrecord, hcommit⟩ := hfine houtdated
        cases step with
        | create t => exact absurd rfl (hcreate t)
        | recordVersion => exact absurd rfl hrecord
        | commitVersion => exact absurd rfl hcommit
        | seed => exact absurd rfl hseed.1
        | commitSeed => exact absurd rfl hseed.2
        | _ => rfl

/-- A database with workspace roles under a narrower key and no other scoped table. -/
def narrowRoles : PolicyDb where
  base _ := true
  permissions := Table.empty
  versions := []
  tables
    | .workspaceRoles => some ⟨[.principalId, .workspaceId], by decide,
        [[(.principalId, "alice"), (.tenantId, "tenant-a"), (.workspaceId, "ws-1"), (.role, "EDITOR")]], by decide⟩
    | _ => none

/-- Its initialisation raises although no statement fails by itself. -/
theorem initialize_misses_table : ¬ PolicySound ("system", "system") narrowRoles none ∧
    (initializePolicy ("system", "system") none narrowRoles).1 = .error (.noSuchTable .datasetRoles) := by
  constructor
  · rintro ⟨hfine, -⟩
    obtain ⟨db', hrun, -⟩ := hfine rfl
    have hfails : (initializePolicy ("system", "system") none narrowRoles).1 = .error (.noSuchTable .datasetRoles) := by
      decide +kernel
    rw [hrun] at hfails
    cases hfails
  · decide +kernel

end Mesa.Security
