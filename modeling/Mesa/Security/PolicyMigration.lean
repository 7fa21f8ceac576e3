/-
The initialisation of the policy database. The three scoped tables are rebuilt together when one of them has a
primary key of an older version, and otherwise created where they are missing. Every statement can raise; what a
transaction has not committed by then is gone, and a statement outside of one is committed by itself.
-/
import Mesa.Foundation.Program
import Mesa.Security.AccessControl

namespace Mesa.Security

open Mesa.Foundation

/-! ## Tables -/

inductive Column
  | principalId | tenantId | workspaceId | datasetId | role | permission
  deriving DecidableEq

/-- The tables that hold grants below a tenant. -/
inductive Scoped
  | workspaceRoles | datasetRoles | datasetPermissions
  deriving DecidableEq

/-- In the order in which they are inspected, copied and created. -/
def Scoped.all : List Scoped := [.workspaceRoles, .datasetRoles, .datasetPermissions]

def Scoped.columns : Scoped → List Column
  | .workspaceRoles => [.principalId, .tenantId, .workspaceId, .role]
  | .datasetRoles => [.principalId, .tenantId, .workspaceId, .datasetId, .role]
  | .datasetPermissions => [.principalId, .tenantId, .datasetId, .permission]

/-- `required_cols - {"role"}`, the primary key of the current version. -/
def Scoped.key (t : Scoped) : List Column := t.columns.filter (· ≠ .role)

/-- A row: its values by column. -/
abbrev Grant := List (Column × String)

def Grant.project (key : List Column) (g : Grant) : Grant := List.filter (fun v => v.1 ∈ key) g

/-- A scoped table whose primary key is the current one or a narrower one. -/
structure ScopedTable (t : Scoped) where
  key : List Column
  narrow : key ⊆ t.key
  rows : List Grant
  unique : (rows.map (Grant.project key)).Nodup

/-- `pk_cols` is the current primary key. -/
def ScopedTable.current {t : Scoped} (table : ScopedTable t) : Bool :=
  table.key.all (· ∈ t.key) && t.key.all (· ∈ table.key)

def ScopedTable.empty (t : Scoped) : ScopedTable t := ⟨t.key, List.Subset.refl _, [], List.nodup_nil⟩

/-- The tables that are created before the scoped ones are looked at. -/
inductive BaseTable
  | permissions | principalAgentPermissions | principalSessionPermissions | principalTenantRoles
  | principalControlRoles | schemaVersion
  deriving DecidableEq

def BaseTable.all : List BaseTable :=
  [.permissions, .principalAgentPermissions, .principalSessionPermissions, .principalTenantRoles,
    .principalControlRoles, .schemaVersion]

/-- The policy database, as far as the initialisation reads and writes it. -/
structure PolicyDb where
  base : BaseTable → Bool
  permissions : Table Permission
  versions : List Nat
  tables : (t : Scoped) → Option (ScopedTable t)

/-- `RBAC_SCHEMA_VERSION`. -/
def rbacSchemaVersion : Nat := 2

/-- `SELECT MAX(version)`, and 0 without one. -/
def PolicyDb.version (db : PolicyDb) : Nat := db.versions.foldr max 0

/-! ## Statements -/

inductive InitStep
  | base (b : BaseTable)
  | readVersion
  | readShape (t : Scoped)
  | beginImmediate
  | replace (t : Scoped)
  | copy (t : Scoped)
  | count (t : Scoped)
  | drop (t : Scoped)
  | rename (t : Scoped)
  | recordMigration
  | commitMigration
  | create (t : Scoped)
  | recordVersion
  | commitVersion
  | seed
  | commitSeed
  deriving DecidableEq

inductive InitError
  | failed (step : InitStep)
  | newerVersion
  | noSuchTable (t : Scoped)
  | integrity (t : Scoped)
  | countMismatch (t : Scoped)
  deriving DecidableEq

/-- A part of `AccessControl.initialize`; at most one statement fails. -/
abbrev Initializing (α : Type) := Prog (Option InitStep) PolicyDb InitError α

def statement (failing : Option InitStep) (step : InitStep) : Except InitError Unit :=
  if failing = some step then .error (.failed step) else .ok ()

/-- Statements that are committed together or not at all. -/
def transaction (f : Option InitStep → PolicyDb → Except InitError PolicyDb) : Initializing Unit := fun failing db =>
  match f failing db with
  | .ok db' => (.ok (), db')
  | .error e => (.error e, db)

/-- `CREATE TABLE IF NOT EXISTS`. -/
def createBase (b : BaseTable) : Initializing Unit := transaction fun failing db => do
  statement failing (.base b)
  pure { db with base := Function.update db.base b true }

/-- The scoped tables are inspected until one has another primary key than the current one. -/
def anyOutdated (failing : Option InitStep) (db : PolicyDb) : List Scoped → Except InitError Bool
  | [] => .ok false
  | t :: rest => do
    statement failing (.readShape t)
    if (db.tables t).any fun table => !table.current then pure true else anyOutdated failing db rest

/-- The version check and `needs_migration`. -/
def needsMigration : Initializing Bool := fun failing db =>
  (do
    statement failing .readVersion
    if rbacSchemaVersion < db.version then throw .newerVersion
    else anyOutdated failing db Scoped.all, db)

/-- `INSERT INTO rbac_schema_version … ON CONFLICT(version) DO NOTHING`. -/
def PolicyDb.record (db : PolicyDb) : PolicyDb :=
  { db with versions := if rbacSchemaVersion ∈ db.versions then db.versions else db.versions ++ [rbacSchemaVersion] }

/-! ## Migration -/

/-- The database inside the migration, with the replacement tables. -/
structure Migrating where
  db : PolicyDb
  replacement : (t : Scoped) → Option (ScopedTable t)

def Migrating.createReplacement (failing : Option InitStep) (m : Migrating) (t : Scoped) : Except InitError Migrating := do
  statement failing (.replace t)
  pure { m with
    replacement := Function.update m.replacement t (some ((m.replacement t).getD (ScopedTable.empty t))) }

/-- `INSERT INTO _v2_… SELECT … FROM …`. -/
def Migrating.copy (failing : Option InitStep) (m : Migrating) (t : Scoped) : Except InitError Migrating := do
  statement failing (.copy t)
  match m.db.tables t, m.replacement t with
  | some source, some r =>
    if h : ((r.rows ++ source.rows).map (Grant.project r.key)).Nodup then
      pure { m with replacement := Function.update m.replacement t (some ⟨r.key, r.narrow, r.rows ++ source.rows, h⟩) }
    else throw (.integrity t)
  | _, _ => throw (.noSuchTable t)

def Migrating.count (failing : Option InitStep) (m : Migrating) (t : Scoped) : Except InitError Migrating := do
  statement failing (.count t)
  match m.db.tables t, m.replacement t with
  | some source, some r => if source.rows.length ≠ r.rows.length then throw (.countMismatch t) else pure m
  | _, _ => throw (.noSuchTable t)

/-- `DROP TABLE …` and `ALTER TABLE _v2_… RENAME TO …`. -/
def Migrating.swap (failing : Option InitStep) (m : Migrating) (t : Scoped) : Except InitError Migrating := do
  statement failing (.drop t)
  if (m.db.tables t).isNone then throw (.noSuchTable t)
  else do
    statement failing (.rename t)
    if (m.replacement t).isNone then throw (.noSuchTable t)
    else
      pure ⟨{ m.db with tables := Function.update m.db.tables t (m.replacement t) }, Function.update m.replacement t none⟩

/-- The statements that rebuild the scoped tables. -/
def rebuildTables (failing : Option InitStep) (db : PolicyDb) : Except InitError PolicyDb := do
  statement failing .beginImmediate
  let m ← Scoped.all.foldlM (Migrating.createReplacement failing) ⟨db, fun _ => none⟩
  let m ← Scoped.all.foldlM (Migrating.copy failing) m
  let m ← Scoped.all.foldlM (Migrating.count failing) m
  let m ← Scoped.all.foldlM (Migrating.swap failing) m
  statement failing .recordMigration
  statement failing .commitMigration
  pure m.db.record

def migrate : Initializing Unit := transaction rebuildTables

/-! ## Creation -/

def createScoped (t : Scoped) : Initializing Unit := transaction fun failing db => do
  statement failing (.create t)
  pure { db with tables := Function.update db.tables t (some ((db.tables t).getD (ScopedTable.empty t))) }

def recordVersion : Initializing Unit := transaction fun failing db => do
  statement failing .recordVersion
  statement failing .commitVersion
  pure db.record

/-- `INSERT OR IGNORE INTO permissions` for the identity of the system. -/
def seedSystem (system : String × String) : Initializing Unit := transaction fun failing db => do
  statement failing .seed
  statement failing .commitSeed
  pure { db with permissions := db.permissions.insertOrIgnore ⟨system.1, system.2, .write⟩ }

/-- `AccessControl.initialize` of an instance that has not been initialised. -/
def initializePolicy (system : String × String) : Initializing Unit := do
  let _ ← Prog.forEach createBase BaseTable.all
  let outdated ← needsMigration
  if outdated then migrate
  else do
    let _ ← Prog.forEach createScoped Scoped.all
    recordVersion
  seedSystem system

end Mesa.Security
