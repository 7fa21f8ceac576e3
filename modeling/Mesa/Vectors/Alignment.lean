/-
The alignment of the vector space: each table of vectors is copied to a backup, its transformed rows are written to a
new table, and the new table takes the place of the old one when a golden set is still found. Every store operation
can raise, and the changes made before it stay.
-/
import Mesa.Foundation.Program
import Mesa.Foundation.Table

namespace Mesa.Vectors

open Mesa.Foundation

/-! ## Tables of vectors -/

/-- A record of a vector table. -/
structure VectorRecord (E : Type) where
  nodeId : String
  agentId : String
  embedding : E
  contentHash : Option String
  createdAt : String
  expiredAt : Option String
  deriving DecidableEq

structure VectorTable (E : Type) where
  name : String
  records : List (VectorRecord E)
  deriving DecidableEq

instance {E : Type} : Keyed (VectorTable E) String := ⟨VectorTable.name⟩

abbrev VectorStore (E : Type) := Table (VectorTable E)

/-- `_DEFAULT_TABLE_PREFIX`. -/
def tablePrefix : String := "mesa_vectors_"

def hasSuffix (text suffix : String) : Bool := suffix.toList.isSuffixOf text.toList

/-- A table of the engine that is neither a backup nor a new one. -/
def isActive (name : String) : Bool :=
  tablePrefix.toList.isPrefixOf name.toList && !hasSuffix name "_backup" && !hasSuffix name "_new"

/-- `np.dot` on one embedding, which raises when the shapes do not fit, and the search of the store. -/
structure VectorEnv (E : Type) where
  rotate : E → Option E
  /-- The ids of the five records nearest to a query among those that are not expired. -/
  nearest : List (VectorRecord E) → E → Option (List String)

variable {E : Type}

/-- The embedding column replaced by its product with the matrix. -/
def VectorEnv.transformed (env : VectorEnv E) (records : List (VectorRecord E)) : Option (List (VectorRecord E)) :=
  records.mapM fun r => (env.rotate r.embedding).map fun embedding => { r with embedding }

/-! ## Store operations -/

/-- The operations of `_sync_copy_table` and of `_sync_transform_table`. -/
inductive CopyStep
  | listing | dropping | opening | reading | creating
  deriving DecidableEq

/-- The store operations in the alignment of one table, each of which runs once at most. -/
inductive AlignStep
  | backup (step : CopyStep)
  | transform (step : CopyStep)
  | verify
  | search (query : Nat)
  | dropBackup | dropActive | rename
  | fallback (step : CopyStep)
  | dropNew
  | listNew | cleanNew | listBackup | cleanBackup
  deriving DecidableEq

/-- What the alignment of one table runs in: the operations that raise are given. -/
abbrev Aligning (E α : Type) := Prog (AlignStep → Bool) (VectorStore E) Unit α

/-- An operation that changes the store by `f`, or raises where `f` is undefined or a fault is given. -/
def storeOp (step : AlignStep) (f : VectorStore E → Option (VectorStore E)) : Aligning E Unit := fun faults s =>
  match if faults step then none else f s with
  | some s' => (.ok (), s')
  | none => (.error (), s)

def listTables (step : AlignStep) : Aligning E (List String) := fun faults s =>
  if faults step then (.error (), s) else (.ok (s.rows.map VectorTable.name), s)

/-- `drop_table` of one name. -/
def VectorStore.drop (s : VectorStore E) (name : String) : VectorStore E := s.delete fun t => t.name = name

def dropTable (step : AlignStep) (name : String) : Aligning E Unit :=
  storeOp step fun s => if s.hasKey name then some (VectorStore.drop s name) else none

def openTable (step : AlignStep) (name : String) : Aligning E Unit :=
  storeOp step fun s => if s.hasKey name then some s else none

def readTable (step : AlignStep) (name : String) : Aligning E (List (VectorRecord E)) := fun faults s =>
  match if faults step then none else s.lookup name with
  | some t => (.ok t.records, s)
  | none => (.error (), s)

def createTable (step : AlignStep) (name : String) (records : List (VectorRecord E)) : Aligning E Unit :=
  storeOp step fun s => if s.hasKey name then none else some (s.insertOrIgnore ⟨name, records⟩)

def renameTable (step : AlignStep) (source dest : String) : Aligning E Unit :=
  storeOp step fun s => (s.lookup source).bind fun t =>
    if s.hasKey dest then none else some ((VectorStore.drop s source).insertOrIgnore ⟨dest, t.records⟩)

/-- `existing = self._list_table_names()`, and a drop if the table is among them. -/
def dropExisting (list drop : AlignStep) (name : String) : Aligning E Unit := do
  let existing ← listTables list
  if name ∈ existing then dropTable drop name

/-! ## Phases -/

/-- Write what `f` makes of the records of one table to another. -/
def writeRecords (phase : CopyStep → AlignStep) (f : List (VectorRecord E) → Option (List (VectorRecord E)))
    (source dest : String) : Aligning E Unit := do
  openTable (phase .opening) source
  let records ← readTable (phase .reading) source
  match f records with
  | some records' => createTable (phase .creating) dest records'
  | none => Prog.raise ()

/-- The same, after a drop of a table that stands there already. -/
def rewriteTable (phase : CopyStep → AlignStep) (f : List (VectorRecord E) → Option (List (VectorRecord E)))
    (source dest : String) : Aligning E Unit := do
  dropExisting (phase .listing) (phase .dropping) dest
  writeRecords phase f source dest

/-- `_sync_copy_table`. -/
def copyTable (phase : CopyStep → AlignStep) (source dest : String) : Aligning E Unit :=
  rewriteTable phase some source dest

/-- `_sync_transform_table`. -/
def transformTable (env : VectorEnv E) (source new : String) : Aligning E Unit :=
  rewriteTable .transform env.transformed source new

/-- How many entries of the golden set are found; a search that raises finds nothing. -/
def VectorEnv.hits (env : VectorEnv E) (faults : AlignStep → Bool) (records : List (VectorRecord E))
    (golden : List (E × String)) : Nat :=
  golden.zipIdx.countP fun (entry, i) =>
    !faults (.search i) && (env.nearest (records.filter fun r => r.expiredAt = none) entry.1).any fun found =>
      entry.2 ∈ found

/-- `Recall@5`. -/
def VectorEnv.recallAt5 (env : VectorEnv E) (faults : AlignStep → Bool) (records : List (VectorRecord E))
    (golden : List (E × String)) : ℚ :=
  if golden = [] then 0 else (env.hits faults records golden : ℚ) / golden.length

/-- `_sync_verify_recall`. -/
def verifyRecall (env : VectorEnv E) (name : String) (golden : List (E × String)) : Aligning E ℚ := fun faults s =>
  if golden = [] then (.ok 0, s)
  else match if faults .verify then none else s.lookup name with
    | some t => (.ok (env.recallAt5 faults t.records golden), s)
    | none => (.error (), s)

/-- The statement of a `try` whose exceptions are only logged. -/
def logged (m : Aligning E Unit) : Aligning E Unit := m.handle fun _ => pure ()

/-- `_sync_promote_table`. -/
def promoteTable (active new backup : String) : Aligning E Unit := do
  logged (dropTable .dropBackup backup)
  logged (dropTable .dropActive active)
  (renameTable .rename new active).handle fun _ => do
    copyTable .fallback new active
    logged (dropTable .dropNew new)

/-- `_sync_rollback_table`. -/
def rollbackTable (new backup : String) : Aligning E Unit := do
  logged (dropExisting .listNew .cleanNew new)
  logged (dropExisting .listBackup .cleanBackup backup)

/-- The phases of one table; false when it was rolled back. -/
def alignBody (env : VectorEnv E) (golden : List (E × String)) (threshold : ℚ) (active : String) : Aligning E Bool := do
  copyTable .backup active (active ++ "_backup")
  transformTable env active (active ++ "_new")
  let recall5 ← verifyRecall env (active ++ "_new") golden
  if threshold ≤ recall5 then do
    promoteTable active (active ++ "_new") (active ++ "_backup")
    pure true
  else do
    rollbackTable (active ++ "_new") (active ++ "_backup")
    pure false

/-- The body of the loop over the active tables. -/
def alignTable (env : VectorEnv E) (golden : List (E × String)) (threshold : ℚ) (active : String) : Aligning E Bool :=
  (alignBody env golden threshold active).handle fun _ => do
    logged (rollbackTable (active ++ "_new") (active ++ "_backup"))
    pure false

/-- The operations that raise in one call. -/
structure AlignFaults where
  listing : Bool
  table : String → AlignStep → Bool

/-- The loop over the active tables. -/
def alignTables (env : VectorEnv E) (golden : List (E × String)) (threshold : ℚ) (faults : AlignFaults) :
    List String → VectorStore E → VectorStore E × Bool
  | [], s => (s, true)
  | active :: rest, s =>
    let (r, s') := alignTable env golden threshold active (faults.table active) s
    let (s'', succeeded) := alignTables env golden threshold faults rest s'
    (s'', (r.toOption.getD false) && succeeded)

def activeTables (s : VectorStore E) : List String := (s.rows.map VectorTable.name).filter isActive

/-- `apply_procrustes_and_switch`, if it returns. -/
def applyProcrustesAndSwitch (env : VectorEnv E) (golden : List (E × String)) (threshold : ℚ) (faults : AlignFaults)
    (s : VectorStore E) : Option (VectorStore E × Bool) :=
  if faults.listing then none
  else if activeTables s = [] then some (s, false)
  else some (alignTables env golden threshold faults (activeTables s) s)

end Mesa.Vectors
