/-
Backup and restore of an offline storage root (mesa_storage/recovery.py). A backup copies the files
of the root into a staging folder beside its destination, writes a manifest of sizes and digests,
validates what it wrote and renames the folder; a restore does the same with a validated backup.
Opening a database to read it leaves the side files of its write-ahead log behind, and a crash can
cut a call between any two of its writes.
-/
import Mesa.Foundation.Durable
import Mesa.Foundation.Ordering
import Mesa.Foundation.Table
import Mathlib.Data.List.Lex

namespace Mesa.Recovery

open Mesa.Foundation

/-! ## Paths below a root -/

/-- One of the parts of a path: a name that a directory entry can have. -/
@[ext] structure Part where
  text : List Char
  proper : text ≠ [] ∧ '/' ∉ text ∧ text ≠ ['.'] ∧ text ≠ ['.', '.']
  deriving DecidableEq

def Part.of? (text : List Char) : Option Part :=
  if h : text ≠ [] ∧ '/' ∉ text ∧ text ≠ ['.'] ∧ text ≠ ['.', '.'] then some ⟨text, h⟩ else none

/-- A path of at least one part: its folders and its name. -/
@[ext] structure Path where
  folders : List Part
  name : Part
  deriving DecidableEq

def Path.parts (p : Path) : List Part := p.folders ++ [p.name]

def Path.ofParts (l : List Part) : Option Path := l.getLast?.map fun name => ⟨l.dropLast, name⟩

/-- `as_posix`. -/
def Path.asPosix (p : Path) : List Char := ['/'].intercalate (p.parts.map Part.text)

/-- The parts by which paths are sorted. -/
def Path.order (p : Path) : List (List Char) := p.parts.map Part.text

/-- The folders that `mkdir(parents=True)` of the parent of a path makes. -/
def Path.parents (p : Path) : List Path := p.folders.inits.filterMap Path.ofParts

/-- The path of a relative path text, unless it is absolute, empty or has a part `..`. -/
def Path.ofText (t : List Char) : Option Path :=
  if t.head? = some '/' then none
  else (((t.splitOnP (· = '/')).filter fun w => w ≠ [] ∧ w ≠ ['.']).mapM Part.of?).bind Path.ofParts

/-- `PurePath.suffix`. -/
def suffix (t : List Char) : List Char :=
  let ending := (t.reverse.takeWhile (· ≠ '.')).reverse
  if ending ≠ [] ∧ ending.length + 1 < t.length then '.' :: ending else []

/-- The files that SQLite keeps beside a database. -/
inductive Side
  | wal | shm
  deriving DecidableEq

def Side.ending : Side → List Char
  | .wal => ['-', 'w', 'a', 'l']
  | .shm => ['-', 's', 'h', 'm']

theorem Part.proper_append (n : Part) (s : Side) :
    n.text ++ s.ending ≠ [] ∧ '/' ∉ n.text ++ s.ending ∧ n.text ++ s.ending ≠ ['.'] ∧
      n.text ++ s.ending ≠ ['.', '.'] := by
  have hlength : (n.text ++ s.ending).length = n.text.length + 4 := by
    rw [List.length_append]
    cases s <;> rfl
  have hslash : '/' ∉ s.ending := by cases s <;> decide
  refine ⟨fun h => ?_, fun h => ?_, fun h => ?_, fun h => ?_⟩
  · simp [h] at hlength
  · exact (List.mem_append.1 h).elim n.proper.2.1 hslash
  · simp [h] at hlength
  · simp [h] at hlength

/-- The path of a side file. -/
def Path.side (p : Path) (s : Side) : Path := { p with name := ⟨p.name.text ++ s.ending, p.name.proper_append s⟩ }

def Path.isSide (p : Path) : Bool := Side.ending .wal <:+ p.name.text ∨ Side.ending .shm <:+ p.name.text

def lockName : List Char := ".mesa-single-writer.lock".toList

def manifestName : List Char := "mesa-backup-manifest.json".toList

theorem manifestName_proper :
    manifestName ≠ [] ∧ '/' ∉ manifestName ∧ manifestName ≠ ['.'] ∧ manifestName ≠ ['.', '.'] := by
  unfold manifestName
  repeat rw [String.toList_ofList]
  decide

def manifestPath : Path := { folders := [], name := { text := manifestName, proper := manifestName_proper } }

def Path.isManifest (p : Path) : Bool := p.name.text = manifestName

/-- The files that a backup does not copy. -/
def Path.skipped (p : Path) : Bool := p.isSide ∨ p.name.text = lockName

def sqliteSuffixes : List (List Char) := [".db".toList, ".sqlite".toList, ".sqlite3".toList]

def forbiddenNames : List (List Char) := [".env".toList, "id_rsa".toList, "id_ed25519".toList]

def forbiddenSuffixes : List (List Char) := [".key".toList, ".pem".toList, ".p12".toList, ".pfx".toList]

/-! ## Folders -/

/-- What a directory entry is: a file, a folder, a symbolic link or something else. -/
inductive Node (B : Type)
  | file (bytes : B)
  | folder
  | link
  | special

structure Entry (B : Type) where
  path : Path
  node : Node B

instance {B : Type} : Keyed (Entry B) Path := ⟨Entry.path⟩

/-- The entries below a root. -/
abbrev Folder (B : Type) : Type := Table (Entry B)

variable {B X H : Type}

def Node.bytes : Node B → Option B
  | .file b => some b
  | _ => none

def Folder.file (t : Folder B) (p : Path) : Option B := (t.lookup p).bind fun e => e.node.bytes

def Folder.put (t : Folder B) (p : Path) (b : B) : Folder B := t.upsert ⟨p, .file b⟩ fun e => { e with node := .file b }

def Folder.remove (t : Folder B) (p : Path) : Folder B := t.delete fun e => e.path = p

def Folder.mkdirs (t : Folder B) (p : Path) : Folder B := p.parents.foldl (fun t q => t.insertOrIgnore ⟨q, .folder⟩) t

/-- A file is there with these bytes, or not at all. -/
def Folder.leave (t : Folder B) (p : Path) : Option B → Folder B
  | some b => t.put p b
  | none => t.remove p

/-- `sorted(root.rglob("*"))`. -/
def Folder.walk (t : Folder B) : List (Entry B) := orderBy (fun e => e.path.order) t.rows

/-! ## Databases and manifests -/

structure PurgeRow where
  purgeId : String
  agentId : String
  /-- `target_node_ids`, unless it is not the text of a list of texts. -/
  targets : Option (List String)
  state : String

structure NodeRow where
  id : String
  agentId : String
  invalidAt : Option String
  deletedAt : Option String
  purgeId : Option String

/-- What a connection reads of a database: the tables that a validation looks at, each of which may
be missing, and the rest. -/
structure Database (X : Type) where
  integrityCheck : String
  alembicVersion : Option String
  purgeJournal : Option (List PurgeRow)
  nodes : Option (List NodeRow)
  walStates : Option (List String)
  dispatchStates : Option (List String)
  finalizationStates : Option (List String)
  rest : X

structure FileRecord (H : Type) where
  path : List Char
  sha256 : H
  size : Nat

structure Receipt where
  integrityCheck : String
  alembicVersion : Option String

structure Projections where
  graph : String
  vector : String
  copyBoundary : String
  deriving DecidableEq

structure Manifest (H : Type) where
  format : String
  manifestVersion : Nat
  createdAt : String
  consistencyBoundary : String
  canonicalTruth : Option String
  sqliteSnapshotAtomicity : Option String
  derivedProjections : Option Projections
  storesStoppedInput : Option String
  sourceBasename : List Char
  files : List (FileRecord H)
  sqlite : List (Path × Receipt)

/-- SQLite, hashing and the text of a manifest, as functions of bytes. -/
structure Engine (B X H : Type) where
  /-- The database that a connection reads from a file and its write-ahead log. -/
  content : B → Option B → Option (Database X)
  /-- The file that `Connection.backup` writes. -/
  backup : B → Option B → Option B
  /-- The side files after a read-only connection was closed, from those before it was opened. -/
  peek : B → Option B → Option B → Option B × Option B
  size : B → Nat
  digest : B → H
  encode : Manifest H → B
  decode : B → Option (Manifest H)
  /-- `str.lower`. -/
  lower : List Char → List Char

/-- What the code relies on. -/
structure Engine.Lawful (E : Engine B X H) : Prop where
  backup_content : ∀ {b w b'}, E.backup b w = some b' → E.content b' none = E.content b w
  peek_content : ∀ b w s, E.content b (E.peek b w s).1 = E.content b w
  decode_encode : ∀ m, E.decode (E.encode m) = some m

def Engine.isDatabase (E : Engine B X H) (p : Path) : Bool :=
  sqliteSuffixes.any fun s => decide (s = E.lower (suffix p.name.text))

/-- A folder after a read-only connection to one of its databases was closed. -/
def Folder.opened (E : Engine B X H) (p : Path) (t : Folder B) : Folder B :=
  match t.file p with
  | none => t
  | some b =>
    let sides := E.peek b (t.file (p.side .wal)) (t.file (p.side .shm))
    (t.leave (p.side .wal) sides.1).leave (p.side .shm) sides.2

/-! ## Failures -/

inductive Failure
  | recovery (message : String)
  /-- A message that ends in a name or a path. -/
  | recoveryAt (message : String) (subject : List Char)
  /-- An exception of the operating system or of SQLite. -/
  | raised (message : String)
  deriving DecidableEq

/-- `_reject_sensitive_name`. -/
def rejectSensitiveName (E : Engine B X H) (relative : Path) : Except Failure Unit :=
  relative.parts.forM fun part =>
    let lowered := E.lower part.text
    if forbiddenNames.any (fun name => decide (name = lowered)) ∨ ".env".toList <+: lowered then
      .error (.recoveryAt "secret-bearing path is not allowed in backup: " relative.asPosix)
    else if forbiddenSuffixes.any fun s => decide (s = suffix lowered) then
      .error (.recoveryAt "key material is not allowed in backup: " relative.asPosix)
    else .ok ()

/-- One round of `_iter_files`: the file it yields, if any. -/
def visitEntry (E : Engine B X H) (e : Entry B) : Except Failure (Option (Path × B)) := do
  rejectSensitiveName E e.path
  match e.node with
  | .link => .error (.recoveryAt "symlink is not allowed in storage snapshot: " e.path.asPosix)
  | .file b => .ok (if e.path.isManifest then none else some (e.path, b))
  | .folder => .ok none
  | .special => .ok none

/-- `_iter_files`, to its end. -/
def iterFiles (E : Engine B X H) (t : Folder B) : Except Failure (List (Path × B)) := do
  let visits ← t.walk.mapM (visitEntry E)
  pure (visits.filterMap id)

/-! ## Validation -/

def consistencyBoundary : String := "sqlite-snapshot-plus-exclusive-derived-writer-lock"

def legacyConsistencyBoundary : String := "offline-stores-stopped"

def derivedProjections : Projections := ⟨"rebuildable", "rebuildable", "exclusive-storage-writer-lock"⟩

/-- `_load_manifest`. -/
def loadManifest (E : Engine B X H) (t : Folder B) : Except Failure (Manifest H) :=
  match (t.file manifestPath).bind E.decode with
  | none => .error (.recovery "backup manifest is missing or invalid")
  | some manifest =>
    if manifest.format ≠ "mesa-storage-backup" ∨ manifest.manifestVersion ≠ 1 then
      .error (.recovery "unsupported backup manifest")
    else if manifest.consistencyBoundary ∉ [consistencyBoundary, legacyConsistencyBoundary] then
      .error (.recovery "backup does not attest a supported consistency boundary")
    else if manifest.consistencyBoundary = consistencyBoundary ∧
        (manifest.canonicalTruth ≠ some "sqlite" ∨ manifest.sqliteSnapshotAtomicity ≠ some "per-database" ∨
          manifest.derivedProjections ≠ some derivedProjections ∨
          manifest.storesStoppedInput ≠ some "compatibility-precondition-not-authority") then
      .error (.recovery "backup consistency semantics are missing or invalid")
    else .ok manifest

/-- The records of a manifest by path, after those in `expected`. -/
def expectedFrom (expected : List (Path × FileRecord H)) :
    List (FileRecord H) → Except Failure (List (Path × FileRecord H))
  | [] => .ok expected
  | record :: records =>
    match Path.ofText record.path with
    | none => .error (.recovery "manifest contains an unsafe path")
    | some relative =>
      if relative ∈ expected.map Prod.fst then .error (.recovery "manifest contains a duplicate path")
      else expectedFrom (expected ++ [(relative, record)]) records

def recordOf (expected : List (Path × FileRecord H)) (p : Path) : Option (FileRecord H) :=
  (expected.find? fun x => x.1 = p).map Prod.snd

/-- `_verify_hashes`. -/
def verifyHashes [DecidableEq H] (E : Engine B X H) (t : Folder B) (manifest : Manifest H) : Except Failure Unit := do
  let expected ← expectedFrom [] manifest.files
  let actual ← iterFiles E t
  if expected.map Prod.fst ⊆ actual.map Prod.fst ∧ actual.map Prod.fst ⊆ expected.map Prod.fst then
    actual.forM fun x =>
      if (recordOf expected x.1).map (fun r => (r.size, r.sha256)) = some (E.size x.2, E.digest x.2) then .ok ()
      else .error (.recoveryAt "backup hash mismatch: " x.1.asPosix)
  else .error (.recovery "backup file set does not match manifest")

def protectedStates : List String :=
  ["TOMBSTONED", "KUZU_APPLIED", "VECTOR_APPLIED", "VERIFIED", "FINALIZED", "RETRY_PENDING", "COMPENSATION_REQUIRED",
    "BLOCKED"]

/-- The check of one target of a purge: a node that is still there is invalid and deleted by it. -/
def checkTarget (nodes : Option (List NodeRow)) (r : PurgeRow) (nodeId : String) : Except Failure Unit :=
  match nodes with
  | none => .error (.raised "no such table: nodes")
  | some nodes =>
    match nodes.find? fun n => n.id = nodeId ∧ n.agentId = r.agentId with
    | none => .ok ()
    | some n =>
      if n.invalidAt = none ∨ n.deletedAt = none ∨ n.purgeId ≠ some r.purgeId then
        .error (.recoveryAt "purged node would be active after restore: " nodeId.toList)
      else .ok ()

/-- The number of targets of a purge that are verified. -/
def reconcilePurge (nodes : Option (List NodeRow)) (r : PurgeRow) : Except Failure Nat :=
  match r.targets with
  | none => .error (.recoveryAt "purge journal has invalid target set: " r.purgeId.toList)
  | some targets =>
    if r.state ∈ protectedStates then do
      targets.forM (checkTarget nodes r)
      pure targets.length
    else .ok 0

structure PurgeCounts where
  records : Nat
  verifiedTargets : Nat
  deriving DecidableEq

/-- `_reconcile_purge_ledger`. -/
def reconcilePurgeLedger (db : Database X) : Except Failure PurgeCounts :=
  match db.purgeJournal with
  | none => .ok ⟨0, 0⟩
  | some records => do
    let verified ← records.mapM (reconcilePurge db.nodes)
    pure ⟨records.length, verified.sum⟩

/-- `_state_counts`. -/
def stateCounts (states : Option (List String)) : List (String × Nat) :=
  let column := states.getD []
  column.dedup.map fun state => (state, column.count state)

structure Report where
  alembicVersion : Option String
  purge : PurgeCounts
  walStates : List (String × Nat)
  dispatchStates : List (String × Nat)
  finalizationStates : List (String × Nat)
  deriving DecidableEq

structure Validation where
  files : Nat
  sqlite : List (Path × Report)
  completionReceiptFiles : List (List Char)
  deriving DecidableEq

/-! ## Programs -/

/-- A folder that an operator names, or the one that `mkdtemp` makes beside a destination. -/
inductive Place
  | at (path : Path)
  | incomplete (destination : Path) (random : String)
  deriving DecidableEq

abbrev Disk (B : Type) : Type := Place → Option (Folder B)

abbrev Action (B α : Type) : Type := Durable (Disk B) Failure α

/-- What a call meets outside of it. -/
structure Env (B : Type) where
  /-- How the lock of the source's writer is refused. -/
  lock : Option Failure
  createdAt : String
  /-- The name that `mkdtemp` draws. -/
  random : String
  prepareFails : Option String
  /-- What a copy has written before it is done, and how it fails. -/
  torn : Path → B
  copyFails : Path → Option String
  syncFails : Path → Option String
  replaceFails : Option String
  folderSyncFails : Option String

def lift {α : Type} : Except Failure α → Action B α
  | .ok a => pure a
  | .error e => Durable.raise e

def failing : Option String → Action B Unit
  | none => pure ()
  | some message => Durable.raise (.raised message)

/-- A write to one folder. -/
def change (place : Place) (f : Folder B → Folder B) : Action B Unit :=
  Durable.write fun d => Function.update d place ((d place).map f)

/-- A read-only connection to a database, from opening it to closing it. -/
def connect (E : Engine B X H) (place : Place) (p : Path) : Action B (Option (Database X)) := do
  let d ← Durable.read
  change place (·.opened E p)
  pure ((d place).bind fun t => (t.file p).bind fun b => E.content b (t.file (p.side .wal)))

/-- `_sqlite_integrity`. -/
def sqliteIntegrity (E : Engine B X H) (place : Place) (p : Path) : Action B String := do
  match ← connect E place p with
  | none => Durable.raise (.recoveryAt "SQLite integrity check failed for " p.name.text)
  | some db => pure db.integrityCheck

/-- `_alembic_version`. -/
def alembicVersion (E : Engine B X H) (place : Place) (p : Path) : Action B (Option String) := do
  let db ← connect E place p
  pure (db.bind Database.alembicVersion)

/-- A copy of bytes: partly written, failed or done. -/
def copyFile (env : Env B) (place : Place) (p : Path) (b : B) : Action B Unit := do
  change place (·.put p (env.torn p))
  failing (env.copyFails p)
  change place (·.put p b)

/-- `_copy_sqlite`. -/
def copySqlite (E : Engine B X H) (env : Env B) (source staging : Place) (p : Path) : Action B Unit := do
  let d ← Durable.read
  let _ ← connect E source p
  match (d source).bind fun t => (t.file p).bind fun b => E.backup b (t.file (p.side .wal)) with
  | none => Durable.raise (.recoveryAt "SQLite snapshot failed for " p.name.text)
  | some b => copyFile env staging p b
  let integrity ← sqliteIntegrity E staging p
  if integrity = "ok" then pure () else Durable.raise (.recoveryAt "SQLite snapshot is corrupt: " p.name.text)

/-- One round of `_copy_snapshot`. -/
def copyEntry (E : Engine B X H) (env : Env B) (source staging : Place) (e : Entry B) : Action B Unit := do
  match ← lift (visitEntry E e) with
  | none => pure ()
  | some (p, b) =>
    if p.skipped then pure ()
    else do
      change staging (·.mkdirs p)
      if E.isDatabase p then copySqlite E env source staging p else copyFile env staging p b
      failing (env.syncFails p)

/-- The databases that `_copy_snapshot` lists. -/
def sqliteFiles (E : Engine B X H) (t : Folder B) : List Path :=
  (t.walk.filter fun e => e.node.bytes.isSome && !e.path.isManifest && !e.path.skipped && E.isDatabase e.path).map
    Entry.path

def receipts (E : Engine B X H) (staging : Place) : List Path → Action B (List (Path × Receipt))
  | [] => pure []
  | p :: rest => do
    let integrity ← sqliteIntegrity E staging p
    let version ← alembicVersion E staging p
    let others ← receipts E staging rest
    pure ((p, ⟨integrity, version⟩) :: others)

def newManifest (E : Engine B X H) (env : Env B) (source : Path) (files : List (Path × B))
    (sqlite : List (Path × Receipt)) : Manifest H :=
  { format := "mesa-storage-backup"
    manifestVersion := 1
    createdAt := env.createdAt
    consistencyBoundary := consistencyBoundary
    canonicalTruth := some "sqlite"
    sqliteSnapshotAtomicity := some "per-database"
    derivedProjections := some derivedProjections
    storesStoppedInput := some "compatibility-precondition-not-authority"
    sourceBasename := source.name.text
    files := files.map fun x => ⟨x.1.asPosix, E.digest x.2, E.size x.2⟩
    sqlite }

/-- `_write_manifest`. -/
def writeManifest (E : Engine B X H) (env : Env B) (staging : Place) (source : Path) (databases : List Path) :
    Action B Unit := do
  let d ← Durable.read
  let files ← lift (iterFiles E ((d staging).getD .empty))
  let sqlite ← receipts E staging databases
  copyFile env staging manifestPath (E.encode (newManifest E env source files sqlite))
  failing (env.syncFails manifestPath)

/-- The databases that a manifest lists, checked one after another. -/
def reports (E : Engine B X H) (place : Place) : List Path → Action B (List (Path × Report))
  | [] => pure []
  | p :: rest => do
    let integrity ← sqliteIntegrity E place p
    if integrity = "ok" then do
      let version ← alembicVersion E place p
      match ← connect E place p with
      | none => Durable.raise (.raised "unable to open database file")
      | some db =>
        let purge ← lift (reconcilePurgeLedger db)
        let others ← reports E place rest
        pure ((p, ⟨version, purge, stateCounts db.walStates, stateCounts db.dispatchStates,
          stateCounts db.finalizationStates⟩) :: others)
    else Durable.raise (.recoveryAt "SQLite integrity check failed: " p.asPosix)

/-- `validate_snapshot`. -/
def validateSnapshot [DecidableEq H] (E : Engine B X H) (place : Place) : Action B Validation := do
  let d ← Durable.read
  match d place with
  | none => Durable.raise (.raised "No such file or directory")
  | some t =>
    let manifest ← lift (loadManifest E t)
    lift (verifyHashes E t manifest)
    let sqlite ← reports E place (manifest.sqlite.map Prod.fst)
    pure ⟨manifest.files.length, sqlite,
      orderBy id ((manifest.files.map FileRecord.path).filter (".receipts.jsonl".toList <:+ ·))⟩

/-- `_validate_path` of a path that is resolved. -/
def validatePath (trustedRoot : List Part) (candidate : Path) : Except Failure Unit :=
  if candidate.parts = trustedRoot ∨ ¬ trustedRoot <+: candidate.parts then
    .error (.recoveryAt "path must be a child of trusted root: " candidate.asPosix)
  else .ok ()

/-- `os.replace` of the staging folder. -/
def replace (env : Env B) (staging : Place) (destination : Path) : Action B Unit := do
  failing env.replaceFails
  Durable.write fun d => Function.update (Function.update d (.at destination) (d staging)) staging none
  failing env.folderSyncFails

/-- The staging folder of a call, made and removed when the rest raises. -/
def staged {α : Type} (env : Env B) (destination : Path) (rest : Place → Action B α) : Action B α := do
  failing env.prepareFails
  let staging := Place.incomplete destination env.random
  Durable.write fun d => Function.update d staging (some .empty)
  Durable.handle (rest staging) fun e => do
    Durable.write fun d => Function.update d staging none
    Durable.raise e

/-- `create_backup`. -/
def createBackup [DecidableEq H] (E : Engine B X H) (env : Env B) (trustedRoot : List Part) (storesStopped : Bool)
    (source destination : Path) : Action B Validation :=
  if storesStopped = false then
    Durable.raise (.recovery "backup requires an explicit stores-stopped consistency boundary")
  else do
    let d ← Durable.read
    match d (.at source) with
    | none => Durable.raise (.recoveryAt "path does not exist: " source.asPosix)
    | some t => do
      lift (validatePath trustedRoot source)
      lift (validatePath trustedRoot destination)
      if (d (.at destination)).isSome then Durable.raise (.recovery "backup destination already exists")
      else
        match env.lock with
        | some e => Durable.raise e
        | none =>
          staged env destination fun staging => do
            Durable.forEach (copyEntry E env (.at source) staging) t.walk
            if sqliteFiles E t = [] then
              Durable.raise (.recovery "storage root contains no canonical SQLite database")
            else do
              writeManifest E env staging source (sqliteFiles E t)
              let _ ← validateSnapshot E staging
              replace env staging destination
              validateSnapshot E (.at destination)

/-- One round of the copies of `restore_backup`. -/
def restoreEntry (E : Engine B X H) (env : Env B) (staging : Place) (e : Entry B) : Action B Unit := do
  match ← lift (visitEntry E e) with
  | none => pure ()
  | some (p, b) => do
    change staging (·.mkdirs p)
    copyFile env staging p b
    failing (env.syncFails p)

/-- `restore_backup`. -/
def restoreBackup [DecidableEq H] (E : Engine B X H) (env : Env B) (trustedRoot : List Part)
    (snapshot destination : Path) : Action B Validation := do
  let d ← Durable.read
  if (d (.at snapshot)).isNone then Durable.raise (.recoveryAt "path does not exist: " snapshot.asPosix)
  else do
    lift (validatePath trustedRoot snapshot)
    lift (validatePath trustedRoot destination)
    let validation ← validateSnapshot E (.at snapshot)
    if (d (.at destination)).isSome then
      Durable.raise (.recovery "restore destination already exists; overwrite is forbidden")
    else
      staged env destination fun staging => do
        let d ← Durable.read
        match d (.at snapshot) with
        | none => Durable.raise (.raised "No such file or directory")
        | some t =>
          Durable.forEach (restoreEntry E env staging) t.walk
          match t.file manifestPath with
          | none => Durable.raise (.raised "No such file or directory")
          | some b => do
            copyFile env staging manifestPath b
            failing (env.syncFails manifestPath)
            let _ ← validateSnapshot E staging
            replace env staging destination
            pure validation

end Mesa.Recovery
