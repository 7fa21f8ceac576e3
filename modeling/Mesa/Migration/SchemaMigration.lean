/-
The offline migration of the graph schema, on top of the coordinator: it copies the live graph into
a staging artifact of the current schema and compares the two by their digests. How a graph is read,
written, digested and fingerprinted is a parameter here.
-/
import Mesa.Migration.Safety

namespace Mesa.Migration

open Mesa.Foundation

variable {A S : Type}

/-- `CURRENT_SCHEMA_VERSION`. -/
def currentSchemaVersion : String := "4"

/-- How the migration reads and writes graph artifacts. -/
structure Engine (A S : Type) where
  /-- The hash in `_migration_id`. -/
  pathHash : String
  /-- `_snapshot`. -/
  snapshot : A → Except String S
  /-- The snapshot of no graph. -/
  empty : S
  /-- `_fingerprint`. -/
  fingerprint : A → String
  /-- `initialize_schema_artifact` and `_load_snapshot`. -/
  build : S → Builder A
  /-- `_digest_snapshot`. -/
  digest : S → String

/-- `_migration_id`. -/
def Engine.migrationId (E : Engine A S) : String := "kuzu-schema-v" ++ currentSchemaVersion ++ "-" ++ E.pathHash

/-- `validate` of a source snapshot. -/
def Engine.validate (E : Engine A S) (source : S) (staging : Option A) : Ending :=
  match staging with
  | none => .raises "No such file or directory"
  | some a =>
    match E.snapshot a with
    | .error e => .raises e
    | .ok observed =>
      if E.digest observed ≠ E.digest source then .raises "staging graph checksum differs from source graph"
      else .returns

def Engine.request (E : Engine A S) (source : S) (fingerprint : String) : RunRequest A where
  migrationId := E.migrationId
  sourceFingerprint := fingerprint
  targetVersion := currentSchemaVersion
  buildStaging := E.build source
  validateStaging := E.validate source

/-- The run of the coordinator on what is at the live path now. -/
def migrateLive (env : Env) (E : Engine A S) : Action A MigrationOutcome := do
  let d ← Durable.read
  match d.files .live with
  | none => run env (E.request E.empty "fresh")
  | some a =>
    match E.snapshot a with
    | .error e => Durable.raise (.raised e)
    | .ok s => run env (E.request s (E.fingerprint a))

/-- `migrate_schema_offline`. -/
def migrateSchemaOffline (env : Env) (E : Engine A S) : Action A MigrationOutcome := do
  let promoted ← isPromoted env E.migrationId currentSchemaVersion
  if promoted then promotedOutcome env E.migrationId currentSchemaVersion else migrateLive env E

/-- What a builder leaves at the staging path in the end. -/
def Builder.artifact (b : Builder A) : Option A := b.contents.getLastD none

/-- The snapshot that a migration of this live artifact starts from. -/
def Engine.source (E : Engine A S) (live : Option A) : Except String S := live.elim (.ok E.empty) E.snapshot

/-- `source_fingerprint`. -/
def Engine.sourceFingerprint (E : Engine A S) (live : Option A) : String := live.elim "fresh" E.fingerprint

end Mesa.Migration
