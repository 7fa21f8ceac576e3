/-
The ingestion of a document: attempts that come one after another under the admission lock, each with its own
chunking setting and token counter, and that may be cut off between any two of their transactions. Between these the
rest of the system runs its own transactions on the ledger.
-/
import Mesa.Documents.Chunking
import Mesa.Documents.Undisturbed

namespace Mesa.Documents

open Mesa.Foundation Mesa.Ledger

/-! ## Requests -/

/-- The document and the content that the attempts repeat. Request validation refuses an empty content. -/
structure Upload where
  tenantId : String
  datasetId : String
  documentId : String
  content : List Char
  nonempty : content ≠ []

/-- What one attempt brings: its session and metadata, and the configuration it finds. -/
structure Request where
  agentId : String
  sessionId : String
  sourceRef : String
  metadataValidFrom : String
  metadataValidTo : String
  /-- `config.chunking == "auto"`. -/
  auto : Bool
  counter : TokenCounter
  /-- Statute code and article id that the legal plan gives a chunk. -/
  legalIdentity : Bool → List (List Char) → Nat → Option (String × String)
  /-- The insert request that carries the chunk passes its own validation. -/
  accepts : Nat → List Char → Bool

/-- `f"{ordinal:05d}"`. -/
def padded (n : Nat) : String :=
  String.ofList (List.replicate (5 - (Nat.toDigits 10 n).length) '0' ++ Nat.toDigits 10 n)

variable (T : CharTables) (env : Env) (u : Upload)

def Upload.contentHash : String := env.sha256 (String.ofList u.content)

def Upload.revisionId : String :=
  "rev-" ++ String.ofList ((env.sha256 (u.documentId ++ "\n" ++ u.contentHash env)).toList.take 32)

def Upload.chunkId (ordinal : Nat) : String := u.revisionId env ++ "-c" ++ padded ordinal

/-- The plan of the configured setting. -/
def Request.preferred (a : Request) : List (List Char) :=
  if a.auto then chunkLegalDocument T a.counter u.content else chunkDocument T a.counter u.content

/-- The plan of the other setting. -/
def Request.alternative (a : Request) : List (List Char) :=
  if a.auto then chunkDocument T a.counter u.content else chunkLegalDocument T a.counter u.content

/-! ## Admitted chunks -/

/-- An assignment to a `dict`, which keeps its insertion order. -/
def put (admitted : List (Nat × String)) (ordinal : Nat) (mutationId : String) : List (Nat × String) :=
  if admitted.any fun e => e.1 = ordinal then admitted.map fun e => if e.1 = ordinal then (ordinal, mutationId) else e
  else admitted ++ [(ordinal, mutationId)]

def get (admitted : List (Nat × String)) (ordinal : Nat) : Option String :=
  (admitted.find? fun e => e.1 = ordinal).map (·.2)

/-- `list_v4_revision_mutations`. -/
def listRevisionMutations (c : Core) : List (Nat × String) :=
  let rows := (c.mutations.select fun m =>
    m.tenantId = u.tenantId && m.datasetId = u.datasetId && m.revisionId = u.revisionId env).filterMap fun m =>
      (c.chunks.lookup m.chunkId).map fun k => (k.ordinal, m.mutationId)
  (rows.insertionSort fun a b => a.1 ≤ b.1).foldl (fun admitted e => put admitted e.1 e.2) []

/-- The ids of the admitted chunks, `[admitted[i] for i in sorted(admitted)]`. -/
def storedIds (admitted : List (Nat × String)) : List String :=
  ((admitted.map (·.1)).insertionSort (· ≤ ·)).filterMap (get admitted)

/-- The ids of a plan of `count` chunks, `[admitted[i] for i in range(count)]`. -/
def planIds (admitted : List (Nat × String)) (count : Nat) : List String := (List.range count).filterMap (get admitted)

/-- The texts of the admitted chunks, if every one of them is there. -/
def storedTexts (c : Core) (admitted : List (Nat × String)) : Option (List (Nat × String)) :=
  admitted.mapM fun e => (c.mutations.lookup e.2).map fun m => (e.1, m.contentPayload)

/-- Every admitted text is the chunk of the plan at its ordinal. -/
def matchesPlan (texts : List (Nat × String)) (plan : List (List Char)) : Bool :=
  texts.all fun e => plan[e.1]?.any fun chunk => String.ofList chunk = e.2

/-- The plan an attempt follows, and whether it is the legal one: the configured one for a fresh revision, else the
only one that the admitted texts match. -/
def choosePlan (auto : Bool) (preferred alternative : List (List Char)) (texts : List (Nat × String)) :
    Option (Bool × List (List Char)) :=
  if texts = [] then some (auto, preferred)
  else if matchesPlan texts preferred ∧ matchesPlan texts alternative ∧ preferred ≠ alternative then none
  else if matchesPlan texts preferred then some (auto, preferred)
  else if matchesPlan texts alternative then some (!auto, alternative)
  else none

/-! ## Attempts -/

/-- How far an attempt has come. -/
inductive Phase
  | opening
  | missing (request : RevisionRequest)
  | planning (revision : Revision)
  /-- `before` chunks were there when the plan was chosen; `todo` are the ordinals still to admit. -/
  | admitting (revision : Revision) (legalPlan : Bool) (chunks : List (List Char)) (admitted : List (Nat × String))
      (before : Nat) (todo : List Nat)

structure IngestResponse where
  revisionNumber : Nat
  chunkCount : Nat
  mutationIds : List String
  duplicate : Bool
  deriving DecidableEq

/-- 202 with its response, or 409. An attempt that ends in any other way was cut off. -/
inductive Answer
  | accepted (response : IngestResponse)
  | conflict
  deriving DecidableEq

structure Server where
  db : Db
  /-- The attempt that holds the admission lock. -/
  attempt : Option (Request × Phase)
  answers : List Answer

def Server.answer (s : Server) (answer : Answer) : Server := ⟨s.db, none, s.answers ++ [answer]⟩

/-- An exception of the ledger: a `ValueError` becomes 409, any other error cuts the attempt off. -/
def Server.fail (s : Server) : DaoError → Server
  | .valueError _ => s.answer .conflict
  | _ => { s with attempt := none }

def revisionLe (a b : Revision) : Prop :=
  a.revisionNumber < b.revisionNumber ∨ (a.revisionNumber = b.revisionNumber ∧ a.revisionId ≤ b.revisionId)

instance : DecidableRel revisionLe := fun a b => inferInstanceAs (Decidable (a.revisionNumber < b.revisionNumber ∨
  (a.revisionNumber = b.revisionNumber ∧ a.revisionId ≤ b.revisionId)))

/-- `list_v4_revisions`. -/
def listRevisions (c : Core) : List Revision :=
  (c.revisions.select fun r => r.tenantId = u.tenantId && r.documentId = u.documentId &&
    (c.documents.lookup r.documentId).any fun d => d.datasetId = u.datasetId).insertionSort revisionLe

/-- The revision that an upload of new content creates. -/
def newRevision (revisions : List Revision) : RevisionRequest where
  tenantId := u.tenantId
  datasetId := u.datasetId
  documentId := u.documentId
  revisionId := u.revisionId env
  revisionNumber := (revisions.map (·.revisionNumber)).foldl max 0 + 1
  contentHash := u.contentHash env
  supersedesRevisionId := (revisions.find? fun r => r.status = .active).map (·.revisionId)

/-- A revision that is neither ACTIVE nor PENDING is refused. -/
def Server.settle (s : Server) (a : Request) (r : Revision) : Server :=
  if r.status ∈ [RevisionStatus.active, .pending] then { s with attempt := some (a, .planning r) }
  else s.answer .conflict

/-- Go on with the next chunk, or answer when there is none left. -/
def Server.goOn (s : Server) (a : Request) (r : Revision) (legalPlan : Bool) (chunks : List (List Char))
    (admitted : List (Nat × String)) (before : Nat) (todo : List Nat) : Server :=
  if todo = [] then
    s.answer (.accepted ⟨r.revisionNumber, chunks.length, planIds admitted chunks.length, before = chunks.length⟩)
  else { s with attempt := some (a, .admitting r legalPlan chunks admitted before todo) }

/-- The admission that carries one chunk. -/
def chunkAdmission (a : Request) (r : Revision) (legalPlan : Bool) (chunks : List (List Char)) (ordinal : Nat)
    (withinCapacity : Bool) : Admission where
  tenantId := u.tenantId
  datasetId := u.datasetId
  agentId := a.agentId
  sessionId := a.sessionId
  documentId := u.documentId
  revisionId := u.revisionId env
  chunkId := u.chunkId env ordinal
  contentPayload := String.ofList (chunks.getD ordinal [])
  sourceRef := a.sourceRef
  evidenceSpan := ""
  revisionNumber := r.revisionNumber
  chunkOrdinal := ordinal
  supersedesRevisionId := r.supersedesRevisionId
  metadataValidFrom := a.metadataValidFrom
  metadataValidTo := a.metadataValidTo
  legalIdentity := a.legalIdentity legalPlan chunks ordinal
  documentChunk := true
  finalizeRevision := ordinal + 1 = chunks.length
  withinCapacity := withinCapacity

/-- The first transaction: the document, and the revision for its content if it is listed. -/
def Server.openDocument (s : Server) (a : Request) : Server :=
  match createDocument s.db.core u.tenantId u.datasetId u.documentId none with
  | .error e => s.fail e
  | .ok core =>
    let s : Server := { s with db := { s.db with core } }
    if (core.documents.lookup u.documentId).any fun d => d.status = .purged then s.answer .conflict
    else
      let revisions := listRevisions u core
      match revisions.find? fun r => r.revisionId = u.revisionId env with
      | some r => s.settle a r
      | none => { s with attempt := some (a, .missing (newRevision env u revisions)) }

/-- The second transaction, where the revision was not listed. -/
def Server.openRevision (s : Server) (a : Request) (q : RevisionRequest) : Server :=
  match createRevision s.db.core q with
  | .error e => s.fail e
  | .ok core =>
    let s : Server := { s with db := { s.db with core } }
    match core.revisions.lookup q.revisionId with
    | some r => s.settle a r
    | none => { s with attempt := none }

/-- The ordinals of a plan that are not admitted yet. -/
def pendingOrdinals (chunks : List (List Char)) (admitted : List (Nat × String)) : List Nat :=
  (List.range chunks.length).filter fun i => (get admitted i).isNone

/-- The choice of the plan from the admitted chunks. An ACTIVE revision is answered as it is stored. -/
def Server.plan (s : Server) (a : Request) (r : Revision) : Server :=
  let admitted := listRevisionMutations env u s.db.core
  if r.status = .active then
    s.answer (.accepted ⟨r.revisionNumber, admitted.length, storedIds admitted, true⟩)
  else match storedTexts s.db.core admitted with
    | none => s.answer .conflict
    | some texts =>
      match choosePlan a.auto (a.preferred T u) (a.alternative T u) texts with
      | none => s.answer .conflict
      | some (legalPlan, chunks) =>
        s.goOn a r legalPlan chunks admitted admitted.length (pendingOrdinals chunks admitted)

/-- The admission of the next chunk. Without capacity the attempt waits. -/
def Server.admitNext (s : Server) (withinCapacity : Bool) (a : Request) (r : Revision) (legalPlan : Bool)
    (chunks : List (List Char)) (admitted : List (Nat × String)) (before : Nat) : List Nat → Server
  | [] => s
  | ordinal :: todo =>
    if a.accepts ordinal (chunks.getD ordinal []) = false then { s with attempt := none }
    else
      let q := chunkAdmission env u a r legalPlan chunks ordinal withinCapacity
      match admitMemory env s.db q with
      | .ok db =>
        let mutationId := admissionId env q (nextRawLogId s.db.queue.rawLogs) "mutation"
        { s with db }.goOn a r legalPlan chunks (put admitted ordinal mutationId) before todo
      | .error .queueBackpressure => s
      | .error e => s.fail e

/-- `ingest_document`, one transaction at a time. -/
def Server.advance (s : Server) (withinCapacity : Bool) (a : Request) : Phase → Server
  | .opening => s.openDocument env u a
  | .missing q => s.openRevision a q
  | .planning r => s.plan T env u a r
  | .admitting r legalPlan chunks admitted before todo =>
    s.admitNext env u withinCapacity a r legalPlan chunks admitted before todo

/-! ## Runs -/

inductive Step
  /-- A request gets the lock, if it is free. -/
  | start (request : Request)
  /-- The next transaction of the attempt; the queue has room for a chunk or not. -/
  | advance (withinCapacity : Bool)
  /-- An error or a crash. -/
  | cut
  /-- A transaction of the rest of the system. -/
  | background (op : Op)

def step (s : Server) : Step → Server
  | .start a => if s.attempt.isNone then { s with attempt := some (a, .opening) } else s
  | .advance withinCapacity =>
    match s.attempt with
    | none => s
    | some (a, phase) => s.advance T env u withinCapacity a phase
  | .cut => { s with attempt := none }
  | .background op => { s with db := exec env s.db op }

/-- The rest of the system does not name the revision of the upload, and no rollback or purge undoes it. -/
def Spares (s : Server) : Step → Prop
  | .background op => op.Spares env (u.revisionId env) s.db
  | _ => True

/-- A database that has not seen the revision of the upload. -/
structure Unseen (c : Core) : Prop where
  revision : c.revisions.lookup (u.revisionId env) = none
  chunks : c.manifest (u.revisionId env) = []
  mutations : c.payloads (u.revisionId env) = []

end Mesa.Documents
