/-
The correction of a document through the MCP service. `v4_improve` derives what its caller leaves open from the
document's revisions as the server lists them, and sends one insert request; the API admits it under the caller's
idempotency key and the hash of the whole request. Between the listing and the insert, and between two calls, the
server goes on with any other transactions.
-/
import Mathlib.Data.List.MinMax
import Mesa.Documents.Listing
import Mesa.Gateway.Sessions

namespace Mesa.Gateway

open Mesa.Foundation Mesa.Ledger Mesa.Documents

/-! ## The service -/

/-- The metadata of an insert, as far as the admission reads it. -/
structure InsertMetadata where
  validFrom : String
  validTo : String
  memoryType : Option String
  idempotencyKey : Option String
  contentSha256 : Option String
  /-- The other members, as JSON text. -/
  others : String
  deriving DecidableEq

def InsertMetadata.empty : InsertMetadata := ⟨"", "", none, none, none, ""⟩

/-- The keyword arguments of `v4_improve`. -/
structure ImproveArguments where
  ids : CallIds
  documentId : String
  content : String
  idempotencyKey : Option String
  revisionId : Option String
  chunkId : Option String
  supersedesRevisionId : Option String
  revisionNumber : Option Int
  title : Option String
  sourceRef : Option String
  evidenceSpan : Option String
  metadata : Option InsertMetadata

/-- The JSON body of `POST /v4/memory/insert`, but for the session and the idempotency key. -/
structure InsertBody where
  datasetId : String
  documentId : String
  revisionId : String
  chunkId : String
  title : String
  sourceRef : String
  content : String
  evidenceSpan : String
  revisionNumber : Int
  chunkOrdinal : Nat
  finalizeRevision : Bool
  supersedesRevisionId : Option String
  metadata : InsertMetadata
  deriving DecidableEq

/-- The service with the digest it derives physical identities with. -/
structure MCPService where
  defaults : SessionScope
  sha256 : String → String

variable (m : MCPService) (a : ImproveArguments)

def MCPService.scope : SessionScope := m.defaults.resolve a.ids

/-- The idempotency key that is sent; an empty one is none. -/
def ImproveArguments.sentKey : Option String := a.idempotencyKey.filter (· ≠ "")

/-- `_physical_identity_seed`. -/
def MCPService.physicalIdentitySeed (operationType idempotencyKey : String) : String :=
  let scope := String.intercalate "\x1f"
    [(m.scope a).tenantId, (m.scope a).workspaceId, (m.scope a).datasetId, (m.scope a).actorId, operationType,
      idempotencyKey]
  String.ofList ((m.sha256 scope).toList.take 24)

/-- The seed of a call: derived from its key, or drawn by `uuid4`. -/
def MCPService.identitySeed (drawn : String) : String :=
  match a.sentKey with
  | some key => m.physicalIdentitySeed a "IMPROVE" key
  | none => drawn

/-- The ACTIVE revision with the greatest number, the first one of them. -/
def latestActive (revisions : List ListedRevision) : Option ListedRevision :=
  (revisions.filter (·.status = .active)).argmax (·.revisionNumber)

/-- The greatest revision number, 0 where there is none. -/
def maxRevisionNumber (revisions : List ListedRevision) : Nat := (revisions.map (·.revisionNumber)).foldl max 0

def ImproveArguments.supersedes (revisions : List ListedRevision) : Option String :=
  match a.supersedesRevisionId with
  | some given => some given
  | none => (latestActive revisions).map (·.revisionId)

def ImproveArguments.number (revisions : List ListedRevision) : Int :=
  match a.revisionNumber with
  | some given => given
  | none => if revisions = [] ∧ (a.supersedes revisions).any (· ≠ "") then 2 else maxRevisionNumber revisions + 1

/-- The request of a call that has read the revisions. -/
def MCPService.insertBody (drawn : String) (revisions : List ListedRevision) : InsertBody where
  datasetId := (m.scope a).datasetId
  documentId := a.documentId
  revisionId := orDefault a.revisionId ("rev_" ++ m.identitySeed a drawn)
  chunkId := orDefault a.chunkId ("chunk_" ++ m.identitySeed a drawn)
  title := a.title.getD ("Correction " ++ a.documentId)
  sourceRef := a.sourceRef.getD "mcp_correction"
  content := a.content
  evidenceSpan := a.evidenceSpan.getD ""
  revisionNumber := a.number revisions
  chunkOrdinal := 0
  finalizeRevision := true
  supersedesRevisionId := a.supersedes revisions
  metadata := a.metadata.getD .empty

/-- The revisions that a call lists. -/
def MCPService.revisions (s : Intake) : Except IntakeError (List ListedRevision) :=
  listV4Revisions s ((m.scope a).tenantId) ((m.scope a).datasetId) a.documentId

/-- `v4_improve` up to its insert request. The revisions are listed unless the caller names the predecessor. -/
def MCPService.v4Improve (drawn : String) (s : Intake) : Except IntakeError InsertBody :=
  if a.supersedesRevisionId.isSome then .ok (m.insertBody a drawn [])
  else (m.revisions a s).map (m.insertBody a drawn)

/-! ## The API -/

/-- The configuration of the API, and the functions it applies to a request. -/
structure InsertApi where
  /-- The request model and its write boundary accept the body. -/
  accepts : InsertBody → Bool
  /-- The digest of the serialised body. -/
  payloadHash : InsertBody → String
  /-- The other members of the raw payload. -/
  otherMembers : InsertBody → String
  embeddingProvider : String
  embeddingModel : String
  embeddingVersion : String
  embeddingDimension : Int
  embeddingSpaceId : Option String
  embeddingModelRevision : Option String
  embeddingNormalized : Bool
  validationMode : Int

/-- A session of the caller. -/
structure InsertSession where
  sessionId : String
  tenantId : String
  workspaceId : String
  agentId : String

/-- The physical ids that the catalog draws for an admission. -/
structure DrawnIds where
  document : String
  revision : String
  chunk : String

/-- The arguments of `admit_v4_memory`. -/
def InsertApi.admission (api : InsertApi) (session : InsertSession) (b : InsertBody) (key : Option String)
    (drawn : DrawnIds) : AdmissionRequest where
  tenantId := session.tenantId
  workspaceId := session.workspaceId
  datasetId := b.datasetId
  agentId := session.agentId
  sessionId := session.sessionId
  documentId := b.documentId
  revisionId := b.revisionId
  chunkId := b.chunkId
  title := b.title
  contentPayload := b.content
  sourceRef := b.sourceRef
  evidenceSpan := b.evidenceSpan
  revisionNumber := b.revisionNumber.toNat
  chunkOrdinal := b.chunkOrdinal
  supersedesRevisionId := b.supersedesRevisionId
  metadataValidFrom := b.metadata.validFrom
  metadataValidTo := b.metadata.validTo
  memoryType := b.metadata.memoryType
  metadataIdempotencyKey := b.metadata.idempotencyKey
  contentSha256 := b.metadata.contentSha256
  otherMembers := api.otherMembers b
  embeddingProvider := api.embeddingProvider
  embeddingModel := api.embeddingModel
  embeddingVersion := api.embeddingVersion
  embeddingDimension := api.embeddingDimension
  embeddingSpaceId := api.embeddingSpaceId
  embeddingModelRevision := api.embeddingModelRevision
  embeddingNormalized := api.embeddingNormalized
  validationMode := api.validationMode
  legalIdentity := .ok none
  documentChunk := false
  idempotencyKey := key
  payloadHash := key.map fun _ => api.payloadHash b
  finalizeRevision := b.finalizeRevision
  newDocument := drawn.document
  newRevision := drawn.revision
  newChunk := drawn.chunk

/-- How an insert fails. -/
inductive InsertError
  | unprocessable
  | intake (e : IntakeError)
  deriving DecidableEq

/-- `insert_memory` for an authorised session: the request model asks for a positive revision number. -/
def InsertApi.insertMemory (api : InsertApi) (env : IntakeEnv) (policy : QueueAdmissionPolicy) (s : Intake)
    (session : InsertSession) (b : InsertBody) (key : Option String) (drawn : DrawnIds) (failure : Option Nat) :
    Except InsertError (Intake × AdmissionOutcome) :=
  if b.revisionNumber < 1 ∨ session.sessionId = "" ∨ api.accepts b = false then .error .unprocessable
  else (s.admitV4Memory env policy (api.admission session b key drawn) failure).mapError .intake

/-- The session that the service keeps for the scope of a call. -/
def MCPService.session (sessionId : String) : InsertSession :=
  ⟨sessionId, (m.scope a).tenantId, (m.scope a).workspaceId, (m.scope a).actorId⟩

/-! ## What a call reads -/

/-- The listing has the ACTIVE revision `e`. -/
def MCPService.ListsHead (s : Intake) (e : String) : Prop :=
  ∃ l, m.revisions a s = .ok l ∧ ∃ x ∈ l, x.status = .active ∧ x.revisionId = e

/-- The listing has a revision number above `n`. -/
def MCPService.ListsAbove (s : Intake) (n : Nat) : Prop :=
  ∃ l, m.revisions a s = .ok l ∧ ∃ x ∈ l, n < x.revisionNumber

/-- Two calls with the same arguments read the same where they read at all: the caller names the predecessor, or the
document has the same ACTIVE revision and, unless the caller numbers the revision, the same greatest number. -/
def MCPService.ReadsAlike (s s' : Intake) : Prop :=
  a.supersedesRevisionId ≠ none ∨ ((∀ e, m.ListsHead a s e ↔ m.ListsHead a s' e) ∧
    (a.revisionNumber ≠ none ∨ ∀ n, m.ListsAbove a s n ↔ m.ListsAbove a s' n))

theorem lt_foldl_max {n : Nat} : ∀ {l : List Nat} {i : Nat}, n < l.foldl max i ↔ n < i ∨ ∃ x ∈ l, n < x
  | [], i => by simp
  | x :: l, i => by
    rw [List.foldl_cons, lt_foldl_max, lt_max_iff]
    simp only [List.mem_cons, exists_eq_or_imp]
    tauto

theorem lt_maxRevisionNumber {n : Nat} {l : List ListedRevision} :
    n < maxRevisionNumber l ↔ ∃ x ∈ l, n < x.revisionNumber := by
  unfold maxRevisionNumber
  rw [lt_foldl_max]
  simp

theorem maxRevisionNumber_eq_iff {l l' : List ListedRevision} : maxRevisionNumber l = maxRevisionNumber l' ↔
    ∀ n, (∃ x ∈ l, n < x.revisionNumber) ↔ ∃ x ∈ l', n < x.revisionNumber := by
  constructor
  · intro h n
    rw [← lt_maxRevisionNumber, ← lt_maxRevisionNumber, h]
  · intro h
    have hn := fun n => lt_maxRevisionNumber.trans ((h n).trans lt_maxRevisionNumber.symm)
    have hle := mt (hn (maxRevisionNumber l)).2 (lt_irrefl _)
    have hge := mt (hn (maxRevisionNumber l')).1 (lt_irrefl _)
    omega

/-- With one ACTIVE revision at most, the latest one is the one that is listed. -/
theorem latestActive_eq_some {l : List ListedRevision}
    (hl : ∀ x ∈ l, ∀ y ∈ l, x.status = .active → y.status = .active → x = y) {x : ListedRevision} :
    latestActive l = some x ↔ x ∈ l ∧ x.status = .active := by
  have hmem : ∀ y, latestActive l = some y → y ∈ l ∧ y.status = .active := by
    intro y hy
    have := List.mem_filter.1 (List.argmax_mem hy)
    exact ⟨this.1, of_decide_eq_true this.2⟩
  refine ⟨hmem x, fun ⟨hx, ha⟩ => ?_⟩
  cases h : latestActive l with
  | none =>
    have hnil := List.argmax_eq_none.1 h
    have hin : x ∈ l.filter (·.status = .active) := List.mem_filter.2 ⟨hx, decide_eq_true ha⟩
    rw [hnil] at hin
    cases hin
  | some y =>
    obtain ⟨hy, hya⟩ := hmem y h
    rw [hl y hy x hx hya ha]

theorem latestActive_id_eq_iff {l l' : List ListedRevision}
    (hl : ∀ x ∈ l, ∀ y ∈ l, x.status = .active → y.status = .active → x = y)
    (hl' : ∀ x ∈ l', ∀ y ∈ l', x.status = .active → y.status = .active → x = y) :
    (latestActive l).map (·.revisionId) = (latestActive l').map (·.revisionId) ↔
      ∀ e, (∃ x ∈ l, x.status = .active ∧ x.revisionId = e) ↔ ∃ x ∈ l', x.status = .active ∧ x.revisionId = e := by
  have hid : ∀ {k : List ListedRevision}, (∀ x ∈ k, ∀ y ∈ k, x.status = .active → y.status = .active → x = y) →
      ∀ e, (latestActive k).map (·.revisionId) = some e ↔ ∃ x ∈ k, x.status = .active ∧ x.revisionId = e := by
    intro k hk e
    rw [Option.map_eq_some_iff]
    constructor
    · rintro ⟨x, hx, rfl⟩
      obtain ⟨hmem, ha⟩ := (latestActive_eq_some hk).1 hx
      exact ⟨x, hmem, ha, rfl⟩
    · rintro ⟨x, hmem, ha, rfl⟩
      exact ⟨x, (latestActive_eq_some hk).2 ⟨hmem, ha⟩, rfl⟩
  constructor
  · intro h e
    rw [← hid hl, ← hid hl', h]
  · intro h
    exact Option.ext fun e => (hid hl e).trans ((h e).trans (hid hl' e).symm)

variable {m a}

/-- Under one idempotency key two requests differ in the predecessor and the number at most. -/
theorem insertBody_eq_iff {key : String} (hkey : a.sentKey = some key) {drawn drawn' : String}
    {l l' : List ListedRevision} : m.insertBody a drawn l = m.insertBody a drawn' l' ↔
      a.supersedes l = a.supersedes l' ∧ a.number l = a.number l' := by
  have hseed : m.identitySeed a drawn = m.identitySeed a drawn' := by
    unfold MCPService.identitySeed
    rw [hkey]
  constructor
  · intro h
    exact ⟨congrArg InsertBody.supersedesRevisionId h, congrArg InsertBody.revisionNumber h⟩
  · rintro ⟨hs, hn⟩
    unfold MCPService.insertBody
    rw [hseed, hs, hn]

theorem number_open {l : List ListedRevision} (hs : a.supersedesRevisionId = none) (hn : a.revisionNumber = none) :
    a.number l = maxRevisionNumber l + 1 := by
  unfold ImproveArguments.number
  rw [hn]
  refine if_neg ?_
  rintro ⟨rfl, h⟩
  unfold ImproveArguments.supersedes at h
  rw [hs] at h
  cases h

/-- Two calls under one key send the same request exactly when they read alike. -/
theorem v4Improve_eq_iff {key : String} (hkey : a.sentKey = some key) {s s' : Intake} (hs : ListingInv s)
    (hs' : ListingInv s') {drawn drawn' : String} {b b' : InsertBody} (hb : m.v4Improve a drawn s = .ok b)
    (hb' : m.v4Improve a drawn' s' = .ok b') : b' = b ↔ m.ReadsAlike a s s' := by
  unfold MCPService.v4Improve at hb hb'
  unfold MCPService.ReadsAlike
  cases hp : a.supersedesRevisionId with
  | some p =>
    rw [hp] at hb hb'
    cases hb
    cases hb'
    exact iff_of_true ((insertBody_eq_iff hkey).2 ⟨rfl, rfl⟩) (Or.inl (Option.some_ne_none p))
  | none =>
    rw [hp] at hb hb'
    obtain ⟨l, hl, rfl⟩ := map_eq_ok.1 hb
    obtain ⟨l', hl', rfl⟩ := map_eq_ok.1 hb'
    rw [eq_comm, insertBody_eq_iff hkey]
    have hhead : (∀ e, m.ListsHead a s e ↔ m.ListsHead a s' e) ↔ a.supersedes l = a.supersedes l' := by
      unfold ImproveArguments.supersedes MCPService.ListsHead
      rw [hp, hl, hl']
      simp only [Except.ok.injEq, exists_eq_left']
      exact (latestActive_id_eq_iff (hs.active hl) (hs'.active hl')).symm
    have habove : (∀ n, m.ListsAbove a s n ↔ m.ListsAbove a s' n) ↔ maxRevisionNumber l = maxRevisionNumber l' := by
      unfold MCPService.ListsAbove
      rw [hl, hl', maxRevisionNumber_eq_iff]
      simp only [Except.ok.injEq, exists_eq_left']
    rw [hhead, habove]
    cases hn : a.revisionNumber with
    | some n =>
      have hnumber : a.number l = a.number l' := by
        unfold ImproveArguments.number
        rw [hn]
      simp [hnumber]
    | none =>
      rw [number_open hp hn, number_open hp hn]
      simp

/-! ## A repeated call -/

variable {env : IntakeEnv} {policy : QueueAdmissionPolicy} {api : InsertApi}

theorem toOption_eq_some {ε α : Type} {x : Except ε α} {y : α} : x.toOption = some y ↔ x = .ok y := by
  cases x <;> simp [Except.toOption]

theorem insertMemory_eq_ok {s s' : Intake} {session : InsertSession} {b : InsertBody} {key : Option String}
    {drawn : DrawnIds} {failure : Option Nat} {outcome : AdmissionOutcome} :
    api.insertMemory env policy s session b key drawn failure = .ok (s', outcome) ↔
      (1 ≤ b.revisionNumber ∧ session.sessionId ≠ "" ∧ api.accepts b = true) ∧
        s.admitV4Memory env policy (api.admission session b key drawn) failure = .ok (s', outcome) := by
  unfold InsertApi.insertMemory
  split
  · next h =>
    refine iff_of_false (by intro h; cases h) ?_
    rintro ⟨⟨hn, hs, ha⟩, -⟩
    rcases h with h | h | h
    · omega
    · exact hs h
    · rw [ha] at h; cases h
  · next h =>
    push Not at h
    rw [mapError_eq_ok]
    refine (and_iff_right ⟨h.1, h.2.1, ?_⟩).symm
    simpa using h.2.2

/-- An admission that has been accepted under one session is valid under another one of the same scope. -/
theorem admission_valid {sessionId sessionId' : String} (h' : sessionId' ≠ "") {b : InsertBody} {key : Option String}
    {drawn drawn' : DrawnIds} (h : (api.admission (m.session a sessionId) b key drawn).validate = .ok ()) :
    (api.admission (m.session a sessionId') b key drawn').validate = .ok () := by
  unfold AdmissionRequest.validate at h ⊢
  obtain ⟨⟨⟩, hagent, h⟩ := bind_eq_ok.1 h
  refine bind_eq_ok.2 ⟨(), hagent, ?_⟩
  split at h
  · cases h
  · next hfilled =>
    rw [if_neg]
    · exact h
    · intro hempty
      refine hfilled ?_
      simp only [InsertApi.admission, MCPService.session, List.mem_cons, List.not_mem_nil, or_false] at hempty ⊢
      tauto

/-- A call whose listing has been answered is answered from then on. -/
theorem v4Improve_later {s s' : Intake} (h : s.Later s') {drawn drawn' : String} {b : InsertBody}
    (hb : m.v4Improve a drawn s = .ok b) : ∃ b', m.v4Improve a drawn' s' = .ok b' := by
  unfold MCPService.v4Improve at hb ⊢
  split
  · exact ⟨_, rfl⟩
  · next hp =>
    rw [if_neg hp] at hb
    obtain ⟨l, hl, -⟩ := map_eq_ok.1 hb
    obtain ⟨dataset, hd, hl⟩ := bind_eq_ok.1 hl
    obtain ⟨document, hi, -⟩ := bind_eq_ok.1 hl
    obtain ⟨l', hl'⟩ := listV4Revisions_ok (h.identities.resolveId hd) (h.identities.resolveId hi)
    exact ⟨_, map_eq_ok.2 ⟨l', hl', rfl⟩⟩

/-! ## Sample calls -/

/-- A call with nothing between its listing and its insert. -/
def MCPService.improve (m : MCPService) (api : InsertApi) (env : IntakeEnv) (policy : QueueAdmissionPolicy)
    (a : ImproveArguments) (drawn : DrawnIds) (s : Intake) : Except InsertError (Intake × AdmissionOutcome) := do
  let b ← (m.v4Improve a "" s).mapError .intake
  api.insertMemory env policy s (m.session a "s") b a.sentKey drawn none

def sampleService : MCPService := ⟨⟨"t", "w", "a", "d"⟩, id⟩

/-- An API whose digest shows what a call derives. -/
def sampleInsertApi : InsertApi where
  accepts _ := true
  payloadHash b := s!"{b.revisionId}:{b.revisionNumber}:{b.supersedesRevisionId}:{b.content}"
  otherMembers _ := ""
  embeddingProvider := "provider"
  embeddingModel := "model"
  embeddingVersion := "1"
  embeddingDimension := 8
  embeddingSpaceId := none
  embeddingModelRevision := none
  embeddingNormalized := true
  validationMode := 0

/-- A correction of the sample document under a key of its own. -/
def sampleImprove (supersedes : Option String) : ImproveArguments where
  ids := ⟨none, none, none, none⟩
  documentId := "doc"
  content := "corrected"
  idempotencyKey := some "k2"
  revisionId := none
  chunkId := none
  supersedesRevisionId := supersedes
  revisionNumber := none
  title := none
  sourceRef := none
  evidenceSpan := none
  metadata := none

def sampleDrawn : DrawnIds := ⟨"physical doc", "physical rev 2", "physical c 2"⟩

/-- The document has one revision, which is not ACTIVE yet. -/
def sampleHistory : List IntakeOp := [sampleScope, .admitV4Memory (sampleRequest "k" "h" "c" 0) none]

/-! ## Retries -/

/-- A call that is repeated, once its first request has been admitted and whatever the server has done in between,
sends the same request and gets the first admission's receipt exactly when it reads what the first one read. -/
theorem improve_retry (env : IntakeEnv) (policy : QueueAdmissionPolicy) (m : MCPService) (api : InsertApi)
    (a : ImproveArguments) (key : String) (hkey : a.sentKey = some key) (history between later last : List IntakeOp)
    (drawn drawn' sessionId sessionId' : String) (hsession : sessionId' ≠ "") (ids ids' : DrawnIds)
    (failure : Option Nat) (b : InsertBody) (s : Intake) (r : AdmissionResponse)
    (hrequest : m.v4Improve a drawn (intakeReach env policy history) = .ok b)
    (hadmitted : api.insertMemory env policy (intakeReach env policy (history ++ between)) (m.session a sessionId) b
      a.sentKey ids failure = .ok (s, .admitted r)) :
    (m.v4Improve a drawn' (run (intakeExec env policy) s later) = .ok b ∧
      api.insertMemory env policy (run (intakeExec env policy) s (later ++ last)) (m.session a sessionId') b a.sentKey
        ids' none = .ok (run (intakeExec env policy) s (later ++ last), .duplicate r)) ↔
      m.ReadsAlike a (intakeReach env policy history) (run (intakeExec env policy) s later) := by
  have hinv : ∀ ops, AdmissionInv (intakeReach env policy ops) :=
    fun ops => stable_run (fun _ op hs => hs.exec op) admissionInv_empty
  have hlisting : ∀ ops, ListingInv (intakeReach env policy ops) := fun ops => run_listingInv listingInv_empty ops
  obtain ⟨⟨hn, -, haccepts⟩, hadmit⟩ := insertMemory_eq_ok.1 hadmitted
  have hstep : intakeTransact env policy (intakeReach env policy (history ++ between))
      (.admitV4Memory (api.admission (m.session a sessionId) b a.sentKey ids) failure) = .ok s :=
    map_eq_ok.2 ⟨_, hadmit, rfl⟩
  have hs : s = intakeReach env policy (history ++ between ++ [.admitV4Memory
      (api.admission (m.session a sessionId) b a.sentKey ids) failure]) := by
    unfold intakeReach
    rw [run_snoc]
    exact (intakeExec_of_ok hstep).symm
  have hread : ∀ ops, run (intakeExec env policy) s ops = intakeReach env policy (history ++ between ++
      [.admitV4Memory (api.admission (m.session a sessionId) b a.sentKey ids) failure] ++ ops) := by
    intro ops
    rw [hs]
    exact (run_append ..).symm
  have hlater : (intakeReach env policy history).Later (run (intakeExec env policy) s later) := by
    have hfirst : (intakeReach env policy history).Later (intakeReach env policy (history ++ between)) := by
      unfold intakeReach
      rw [run_append]
      exact run_later (hinv history) between
    have hsecond := intake_later (hinv (history ++ between)).owned hstep
    have hthird : s.Later (run (intakeExec env policy) s later) := by
      refine run_later ?_ later
      rw [hs]
      exact hinv _
    exact (hfirst.trans hsecond).trans hthird
  have hsame : ∀ b', m.v4Improve a drawn' (run (intakeExec env policy) s later) = .ok b' →
      (b' = b ↔ m.ReadsAlike a (intakeReach env policy history) (run (intakeExec env policy) s later)) := by
    intro b' hb'
    refine v4Improve_eq_iff hkey (hlisting history) ?_ hrequest hb'
    rw [hread]
    exact hlisting _
  constructor
  · rintro ⟨hb, -⟩
    exact (hsame b hb).1 rfl
  · intro halike
    have hanswered : ∃ b', m.v4Improve a drawn' (run (intakeExec env policy) s later) = .ok b' :=
      v4Improve_later hlater hrequest
    obtain ⟨b', hb'⟩ := hanswered
    obtain rfl := (hsame b' hb').2 halike
    refine ⟨hb', insertMemory_eq_ok.2 ⟨⟨hn, hsession, haccepts⟩, ?_⟩⟩
    obtain ⟨datasetId, hdataset, -⟩ := admitV4Memory_cases hadmit
    obtain ⟨⟨⟩, hvalid, hrest⟩ := bind_eq_ok.1 hadmit
    obtain ⟨-, -, hrest⟩ := bind_eq_ok.1 hrest
    obtain ⟨w, hw, -⟩ := bind_eq_ok.1 hrest
    have hscope : (intakeReach env policy (history ++ between)).scopeOf
        (api.admission (m.session a sessionId) b' a.sentKey ids) =
          some ⟨(m.scope a).tenantId, (m.scope a).actorId, datasetId, key⟩ := by
      refine scopeOf_eq_some.2 ⟨datasetId, ⟨_, api.payloadHash b', none⟩, hdataset, ?_, rfl⟩
      unfold AdmissionRequest.receipt
      show (a.sentKey.bind fun key => (a.sentKey.map fun _ => api.payloadHash b').map _) = _
      rw [hkey]
      rfl
    obtain ⟨hash, hhash, honce⟩ := (admission_exactly_once env policy (history ++ between)).once _ _ _ _ _ hadmit hscope
    obtain ⟨hkept, hrepeats⟩ := honce (later ++ last)
    refine hrepeats.duplicate _ w hkept hhash (admission_valid hsession hvalid) ?_
    have hend : (intakeReach env policy (history ++ between)).Later (run (intakeExec env policy) s (later ++ last)) := by
      refine (intake_later (hinv (history ++ between)).owned hstep).trans (run_later ?_ (later ++ last))
      rw [hs]
      exact hinv _
    exact hend.identities.resolveId hw

/-- A correction that names its predecessor gets its receipt again, also after another admission. -/
theorem improve_retry_named : ∃ b s r,
    sampleInsertApi.insertMemory sampleIntakeEnv (samplePolicy 9)
      (intakeReach sampleIntakeEnv (samplePolicy 9) sampleHistory)
      (sampleService.session (sampleImprove (some "rev")) "s") b (some "k2") sampleDrawn none = .ok (s, .admitted r) ∧
    sampleInsertApi.insertMemory sampleIntakeEnv (samplePolicy 9) (run (intakeExec sampleIntakeEnv (samplePolicy 9)) s
      [.admitV4Memory (sampleRequest "k3" "h3" "c3" 1) none]) (sampleService.session (sampleImprove (some "rev")) "s'")
        b (some "k2") sampleDrawn none =
      .ok (run (intakeExec sampleIntakeEnv (samplePolicy 9)) s [.admitV4Memory (sampleRequest "k3" "h3" "c3" 1) none],
        .duplicate r) := by
  have hadmits : ((sampleInsertApi.insertMemory sampleIntakeEnv (samplePolicy 9)
      (intakeReach sampleIntakeEnv (samplePolicy 9) sampleHistory)
      (sampleService.session (sampleImprove (some "rev")) "s")
      (sampleService.insertBody (sampleImprove (some "rev")) "" []) (some "k2") sampleDrawn none).toOption.map
        (·.2 matches .admitted _)) = some true := by decide +kernel
  obtain ⟨⟨s, outcome⟩, hfirst, hsecond⟩ := Option.map_eq_some_iff.1 hadmits
  cases outcome with
  | admitted r =>
    have hfirst := toOption_eq_some.1 hfirst
    exact ⟨_, s, r, hfirst, ((improve_retry sampleIntakeEnv (samplePolicy 9) sampleService sampleInsertApi
      (sampleImprove (some "rev")) "k2" rfl sampleHistory [] [] _ "" "" "s" "s'" (by decide) sampleDrawn sampleDrawn
      none _ s r rfl hfirst).2 (Or.inl (by decide))).2⟩
  | duplicate r => cases hsecond
  | inProgress => cases hsecond

/-- A correction that leaves the predecessor to the service, repeated at once: the first call sends revision 2, the
second one sends revision 3 under the same key. -/
theorem improve_retry_conflict : ∃ s r,
    sampleService.improve sampleInsertApi sampleIntakeEnv (samplePolicy 9) (sampleImprove none) sampleDrawn
      (intakeReach sampleIntakeEnv (samplePolicy 9) sampleHistory) = .ok (s, .admitted r) ∧
    sampleService.improve sampleInsertApi sampleIntakeEnv (samplePolicy 9) (sampleImprove none) sampleDrawn s =
      .error (.intake (.dao (.valueError "idempotency_key payload mismatch"))) := by
  have hcalls : (sampleService.improve sampleInsertApi sampleIntakeEnv (samplePolicy 9) (sampleImprove none) sampleDrawn
      (intakeReach sampleIntakeEnv (samplePolicy 9) sampleHistory)).toOption.map (fun x => (x.2 matches .admitted _,
        match sampleService.improve sampleInsertApi sampleIntakeEnv (samplePolicy 9) (sampleImprove none) sampleDrawn
          x.1 with
        | .ok _ => none
        | .error e => some e)) =
      some (true, some (.intake (.dao (.valueError "idempotency_key payload mismatch")))) := by decide +kernel
  revert hcalls
  generalize intakeReach sampleIntakeEnv (samplePolicy 9) sampleHistory = start
  intro hcalls
  obtain ⟨⟨s, outcome⟩, hfirst, hsecond⟩ := Option.map_eq_some_iff.1 hcalls
  rw [Prod.mk.injEq] at hsecond
  cases outcome with
  | admitted r =>
    refine ⟨s, r, toOption_eq_some.1 hfirst, ?_⟩
    have herror := hsecond.2
    split at herror
    · cases herror
    · next e he => rw [he, Option.some.inj herror]
  | duplicate r => cases hsecond.1
  | inProgress => cases hsecond.1

end Mesa.Gateway
