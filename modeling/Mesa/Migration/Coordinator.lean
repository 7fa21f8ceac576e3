/-
The coordinator of offline graph migrations. A migration builds a staging artifact beside the live
one, validates it and swaps it in by two renames; a journal records every state, and a rollback
swaps the retained artifact back. A call is a program over the files and the journal that a crash
can cut between any two of its commits and renames.
-/
import Mesa.Foundation.Durable
import Mesa.Foundation.Result
import Mesa.Foundation.Table

namespace Mesa.Migration

open Mesa.Foundation

/-! ## Files and journal -/

/-- The live path and its siblings, named by a migration and its fencing token. -/
inductive Place
  | live
  | staging (migrationId : String) (fencingToken : Nat)
  | rollback (migrationId : String) (fencingToken : Nat)
  | rolledForward (migrationId : String) (fencingToken : Nat)
  deriving DecidableEq

inductive JournalState
  | building | staged | failed | validated | swapping | swapRecoveryRequired | promoted | rollingBack | rolledBack
  deriving DecidableEq

/-- A row of `kuzu_migration_journal`. -/
structure Record where
  migrationId : String
  sourceFingerprint : String
  targetVersion : String
  state : JournalState
  fencingToken : Nat
  stagingPath : Option Place
  backupPath : Option Place
  lastError : Option String
  deriving DecidableEq

instance : Keyed Record String := ⟨Record.migrationId⟩

/-- What an observer notes: it is not part of the system. -/
inductive Event (A : Type)
  /-- The artifact that is live before the first migration. -/
  | initial (artifact : A)
  /-- A rename puts an artifact at the live path. -/
  | arrived (source : Place) (artifact : A)
  /-- The validator of a migration accepts an artifact. -/
  | accepted (migrationId : String) (artifact : A)
  /-- The journal commits a state of a migration, while `live` is at the live path. -/
  | journaled (migrationId : String) (state : JournalState) (live : Option A)

/-- The files and the journal on disk, with the history of an observer. -/
structure Disk (A : Type) where
  files : Place → Option A
  journal : Table Record
  history : List (Event A)

inductive MigrationError
  | valueError (message : String)
  | locked
  | resumeRequired (message : String)
  | state (message : String) (path : Option Place)
  /-- An exception of the builder, of the validator or of a rename. -/
  | raised (message : String)
  | typeError
  | assertion
  deriving DecidableEq

/-- `str(exc)`. -/
def MigrationError.text : MigrationError → String
  | .valueError m => m
  | .locked => "Kùzu migration lock is held"
  | .resumeRequired m => m
  | .state m _ => m
  | .raised m => m
  | .typeError => "expected str, bytes or os.PathLike object, not NoneType"
  | .assertion => ""

variable {A : Type}

def Disk.exists (d : Disk A) (p : Place) : Bool := (d.files p).isSome

def Disk.move (d : Disk A) (source target : Place) (a : A) : Disk A :=
  { d with
    files := Function.update (Function.update d.files source none) target (some a)
    history := if target = .live then .arrived source a :: d.history else d.history }

def Disk.put (d : Disk A) (p : Place) (content : Option A) : Disk A :=
  { d with files := Function.update d.files p content }

def Disk.note (d : Disk A) (e : Event A) : Disk A := { d with history := e :: d.history }

def Record.inState (r : Record) (state : JournalState) (error : Option String) : Record :=
  { r with state, lastError := error }

/-- `_set_state`. -/
def Disk.setState (d : Disk A) (migrationId : String) (state : JournalState) (error : Option String) : Disk A :=
  { d with
    journal := d.journal.update (fun r => r.migrationId = migrationId) (·.inState state error)
    history := .journaled migrationId state (d.files .live) :: d.history }

/-- `_write_record`. -/
def Disk.writeRecord (d : Disk A) (r : Record) : Disk A :=
  { d with
    journal := d.journal.upsert r fun x => { r with migrationId := x.migrationId }
    history := .journaled r.migrationId r.state (d.files .live) :: d.history }

/-! ## Programs -/

abbrev Action (A α : Type) : Type := Durable (Disk A) MigrationError α

/-- What a call meets outside of it: whether another process holds the lock, and the renames that
the operating system refuses. -/
structure Env where
  lockHeld : Bool
  refuses : Place → Place → Option String

/-- `os.replace`. -/
def replace (env : Env) (source target : Place) : Action A Unit := do
  let d ← Durable.read
  match env.refuses source target, d.files source with
  | none, some a => Durable.write (·.move source target a)
  | none, none => Durable.raise (.raised "No such file or directory")
  | some e, _ => Durable.raise (.raised e)

def setState (migrationId : String) (state : JournalState) (error : Option String) : Action A Unit :=
  Durable.write (·.setState migrationId state error)

def writeRecord (r : Record) : Action A Unit := Durable.write (·.writeRecord r)

/-- How a builder or a validator ends. -/
inductive Ending
  | returns
  | asksToResume (error : String)
  | raises (error : String)

/-- A builder: what it leaves at the staging path, write after write, and how it ends. -/
structure Builder (A : Type) where
  contents : List (Option A)
  ending : Ending

structure MigrationOutcome where
  migrationId : String
  state : JournalState
  fencingToken : Nat
  stagingPath : Option Place
  backupPath : Option Place
  deriving DecidableEq

def Record.outcome (r : Record) : MigrationOutcome :=
  ⟨r.migrationId, r.state, r.fencingToken, r.stagingPath, r.backupPath⟩

/-- The row that the call has just written. -/
def outcomeOf (migrationId : String) : Action A MigrationOutcome := do
  let d ← Durable.read
  match d.journal.lookup migrationId with
  | some r => pure r.outcome
  | none => Durable.raise .assertion

/-- `_next_fencing_token`. -/
def nextFencingToken (journal : Table Record) : Nat := (journal.rows.map (·.fencingToken)).foldl max 0 + 1

/-! ## The swap -/

/-- The first rename of the swap, if there is a live artifact. -/
def retireLive (env : Env) (backup : Place) : Action A Unit := do
  let d ← Durable.read
  if d.exists .live then replace env .live backup else pure ()

/-- The renames of the swap and the journal entry after them. -/
def swap (env : Env) (migrationId : String) (staging backup : Place) : Action A MigrationOutcome := do
  retireLive env backup
  Durable.handle (replace env staging .live) fun e => do
    setState migrationId .swapRecoveryRequired (some e.text)
    Durable.raise e
  setState migrationId .promoted none
  outcomeOf migrationId

/-- `_promote`. -/
def promote (env : Env) (migrationId : String) : Action A MigrationOutcome := do
  let d ← Durable.read
  match d.journal.lookup migrationId with
  | none => Durable.raise .assertion
  | some r =>
    match r.stagingPath, r.backupPath with
    | some staging, some backup =>
      if ¬ d.exists staging then Durable.raise (.state "validated staging artifact disappeared" none)
      else if d.exists backup then
        Durable.raise (.state "refusing to overwrite retained rollback directory" (some backup))
      else do
        setState migrationId .swapping none
        swap env migrationId staging backup
    | _, _ => Durable.raise .typeError

/-- The second rename of an interrupted swap. -/
def finishSwap (env : Env) (migrationId : String) (staging : Place) : Action A MigrationOutcome := do
  replace env staging .live
  setState migrationId .promoted none
  outcomeOf migrationId

/-- `_recover_interrupted_swap` of a row that is `SWAPPING`. -/
def recoverInterruptedSwap (env : Env) (r : Record) : Action A MigrationOutcome := do
  let d ← Durable.read
  match r.stagingPath, r.backupPath with
  | some staging, some backup =>
    if d.exists .live ∧ ¬ d.exists staging ∧ d.exists backup then do
      setState r.migrationId .promoted none
      outcomeOf r.migrationId
    else if ¬ d.exists .live ∧ d.exists staging ∧ d.exists backup then finishSwap env r.migrationId staging
    else Durable.raise (.state "interrupted Kùzu swap is ambiguous; operator inspection is required" none)
  | _, _ => Durable.raise .typeError

/-! ## A run -/

/-- The arguments of `run`. -/
structure RunRequest (A : Type) where
  migrationId : String
  sourceFingerprint : String
  targetVersion : String
  buildStaging : Builder A
  validateStaging : Option A → Ending

/-- The row of a run. -/
def RunRequest.record (q : RunRequest A) (state : JournalState) (fencingToken : Nat) (staging : Place)
    (backup : Option Place) : Record :=
  ⟨q.migrationId, q.sourceFingerprint, q.targetVersion, state, fencingToken, some staging, backup, none⟩

/-- The end of a run: validate the staging artifact and promote it. -/
def validateAndPromote (env : Env) (q : RunRequest A) (fencingToken : Nat) (staging : Place) :
    Action A MigrationOutcome := do
  let d ← Durable.read
  match q.validateStaging (d.files staging) with
  | .asksToResume e => do
    setState q.migrationId .staged (some e)
    Durable.raise (.resumeRequired e)
  | .raises e => do
    setState q.migrationId .failed (some e)
    Durable.raise (.raised e)
  | .returns => do
    Durable.write fun d => (d.files staging).elim d fun a => d.note (.accepted q.migrationId a)
    writeRecord (q.record .validated fencingToken staging (some (.rollback q.migrationId fencingToken)))
    promote env q.migrationId

/-- `build_staging` and the journal entry after it. -/
def build (q : RunRequest A) (staging : Place) : Action A Unit := do
  Durable.forEach (fun content => Durable.write (·.put staging content)) q.buildStaging.contents
  let d ← Durable.read
  match q.buildStaging.ending with
  | .asksToResume e => do
    setState q.migrationId (if d.exists staging then .staged else .failed) (some e)
    Durable.raise (.resumeRequired e)
  | .raises e => do
    setState q.migrationId .failed (some e)
    Durable.raise (.raised e)
  | .returns =>
    if ¬ d.exists staging then do
      setState q.migrationId .failed (some "builder did not create a staging artifact")
      Durable.raise (.state "builder did not create a staging artifact" none)
    else setState q.migrationId .staged none

/-- A run of a migration without a row. -/
def begin (env : Env) (q : RunRequest A) : Action A MigrationOutcome := do
  let d ← Durable.read
  let fencingToken := nextFencingToken d.journal
  let staging := Place.staging q.migrationId fencingToken
  if d.exists staging then
    Durable.raise (.state "refusing to reuse unexpected staging directory" (some staging))
  else do
    writeRecord (q.record .building fencingToken staging none)
    build q staging
    validateAndPromote env q fencingToken staging

/-- A run of a migration that has a row. -/
def resume (env : Env) (q : RunRequest A) (r : Record) : Action A MigrationOutcome := do
  let d ← Durable.read
  if r.sourceFingerprint ≠ q.sourceFingerprint ∨ r.targetVersion ≠ q.targetVersion then
    Durable.raise (.state "migration_id is already bound to a different source fingerprint or target version" none)
  else if r.state = .swapping then recoverInterruptedSwap env r
  else if r.state = .promoted then
    if d.exists .live then pure r.outcome
    else Durable.raise (.state "journal says PROMOTED but live Kùzu artifact is missing" none)
  else if r.state = .failed then
    Durable.raise (.state "previous migration failed; inspect and resolve its staging directory before retrying" none)
  else
    match r.stagingPath with
    | none => Durable.raise .typeError
    | some staging =>
      if r.state ≠ .staged ∨ ¬ d.exists staging then
        Durable.raise (.state "journal has no resumable staged Kùzu artifact" none)
      else validateAndPromote env q r.fencingToken staging

/-- `run`. -/
def run (env : Env) (q : RunRequest A) : Action A MigrationOutcome := do
  if q.migrationId = "" ∨ q.sourceFingerprint = "" ∨ q.targetVersion = "" then
    Durable.raise (.valueError "migration_id, source_fingerprint, and target_version are required")
  else if env.lockHeld then Durable.raise .locked
  else do
    let d ← Durable.read
    match d.journal.lookup q.migrationId with
    | some r => resume env q r
    | none => begin env q

/-! ## A rollback -/

/-- The renames of a rollback and the journal entries around them. -/
def swapBack (env : Env) (r : Record) (backup displaced : Place) : Action A MigrationOutcome := do
  setState r.migrationId .rollingBack none
  replace env .live displaced
  replace env backup .live
  writeRecord { r with state := .rolledBack, stagingPath := none, backupPath := some displaced, lastError := none }
  outcomeOf r.migrationId

/-- `rollback`. -/
def rollback (env : Env) (migrationId : String) : Action A MigrationOutcome := do
  if env.lockHeld then Durable.raise .locked
  else do
    let d ← Durable.read
    match d.journal.lookup migrationId with
    | none => Durable.raise (.state "only a PROMOTED migration can be rolled back" none)
    | some r =>
      if r.state ≠ .promoted then Durable.raise (.state "only a PROMOTED migration can be rolled back" none)
      else
        match r.backupPath with
        | none => Durable.raise .typeError
        | some backup =>
          if ¬ d.exists backup ∨ ¬ d.exists .live then
            Durable.raise (.state "rollback requires both live and retained backup" none)
          else if d.exists (.rolledForward migrationId r.fencingToken) then
            Durable.raise (.state "refusing to overwrite retained promoted directory"
              (some (.rolledForward migrationId r.fencingToken)))
          else swapBack env r backup (.rolledForward migrationId r.fencingToken)

/-! ## Reads -/

/-- `is_promoted`. -/
def isPromoted (env : Env) (migrationId targetVersion : String) : Action A Bool := do
  if env.lockHeld then Durable.raise .locked
  else do
    let d ← Durable.read
    pure ((d.journal.lookup migrationId).any fun r =>
      r.state = .promoted && r.targetVersion = targetVersion && d.exists .live)

/-- `promoted_outcome`. -/
def promotedOutcome (env : Env) (migrationId targetVersion : String) : Action A MigrationOutcome := do
  if env.lockHeld then Durable.raise .locked
  else do
    let d ← Durable.read
    match d.journal.lookup migrationId with
    | none => Durable.raise (.state "no matching promoted Kùzu migration" none)
    | some r =>
      if r.state = .promoted ∧ r.targetVersion = targetVersion ∧ d.exists .live then pure r.outcome
      else Durable.raise (.state "no matching promoted Kùzu migration" none)

/-! ## Sequences of calls -/

inductive Call (A : Type)
  | run (env : Env) (request : RunRequest A)
  | rollback (env : Env) (migrationId : String)

def Call.action : Call A → Action A MigrationOutcome
  | .run env q => Migration.run env q
  | .rollback env m => Migration.rollback env m

/-- A call and, if a crash cuts it, the number of its writes that happen. -/
structure Attempt (A : Type) where
  call : Call A
  crash : Option Nat

def exec (d : Disk A) (x : Attempt A) : Disk A :=
  match x.crash with
  | none => x.call.action.final d
  | some k => x.call.action.cut k d

/-- A live path with an artifact, or none, and nothing beside it. -/
def Disk.start (live : Option A) : Disk A where
  files p := if p = .live then live else none
  journal := .empty
  history := (live.map Event.initial).toList

end Mesa.Migration
