/-
The bearer credentials of gateway clients: the credential rows with the clients and bindings they
join, and the operations of the repositories as transactions. Times are microseconds; the timestamps
of the source compare as texts in the same order.
-/
import Mesa.Foundation.Result
import Mesa.Foundation.Run
import Mesa.Foundation.Table
import Mesa.Foundation.Texts

namespace Mesa.Control

open Mesa.Foundation

/-! ## The environment -/

/-- What the repository takes from elsewhere: `_token_hash` and the last timestamp. -/
structure CredentialEnv where
  Digest : Type
  digestEq : DecidableEq Digest
  tokenHash : List Char → Digest
  tokenHash_injective : ∀ a b, tokenHash a = tokenHash b → a = b
  latest : Nat

attribute [instance] CredentialEnv.digestEq

variable {E : CredentialEnv}

/-! ## Rows -/

inductive CredentialStatus
  | active | revoked
  deriving DecidableEq

/-- A row of `mcp_client_credentials`. -/
structure Credential (E : CredentialEnv) where
  credentialId : List Char
  clientId : String
  bindingId : String
  tokenHash : E.Digest
  tokenPrefix : List Char
  status : CredentialStatus
  expiresAt : Option Nat

instance : Keyed (Credential E) (List Char) := ⟨Credential.credentialId⟩

/-- A row of `mcp_clients`. -/
structure Client where
  clientId : String
  enabled : Bool

instance : Keyed Client String := ⟨Client.clientId⟩

/-- A row of `mcp_project_bindings`. -/
structure ProjectBinding where
  bindingId : String
  clientId : String
  externalProjectId : String
  enabled : Bool

instance : Keyed ProjectBinding String := ⟨ProjectBinding.bindingId⟩

structure ControlDb (E : CredentialEnv) where
  credentials : Table (Credential E)
  clients : Table Client
  bindings : Table ProjectBinding

inductive ControlError
  | valueError (message : String)
  | runtimeError (message : String)
  | overflowError
  /-- A key that is there, or a reference to a row that is not. -/
  | integrityError
  deriving DecidableEq

/-! ## Tokens -/

/-- `mesa_{token_kind}_{credential_id}_{secret}`. -/
def tokenText (tokenKind credentialId secret : List Char) : List Char :=
  "mesa_".toList ++ tokenKind ++ "_".toList ++ credentialId ++ "_".toList ++ secret

/-- `cred_{uuid4().hex}`. -/
def credentialIdOf (hex : List Char) : List Char := "cred_".toList ++ hex

def tokenKinds : List (List Char) := ["codex".toList, "antigravity".toList]

/-- `_token_kind_from_prefix`. -/
def tokenKindFromPrefix (tokenPrefix : List Char) : Except ControlError (List Char) :=
  if "mesa_antigravity_".toList.isPrefixOf tokenPrefix then .ok "antigravity".toList
  else if "mesa_codex_".toList.isPrefixOf tokenPrefix then .ok "codex".toList
  else .error (.valueError "stored credential has an unsupported token kind")

/-! ## Credentials -/

/-- `DEFAULT_CREDENTIAL_TTL_SECONDS`. -/
def defaultCredentialTtlSeconds : Int := 90 * 24 * 60 * 60

def expiresAtOf (E : CredentialEnv) (now : Nat) (expiresInSeconds : Int) : Except ControlError Nat :=
  if now + expiresInSeconds.toNat * 1000000 > E.latest then .error .overflowError
  else .ok (now + expiresInSeconds.toNat * 1000000)

/-- The row of a new credential with its token. -/
def Credential.of (E : CredentialEnv) (credentialId : List Char) (clientId bindingId : String) (token : List Char)
    (expiresAt : Nat) : Credential E :=
  ⟨credentialId, clientId, bindingId, E.tokenHash token, token.take 24, .active, some expiresAt⟩

/-- The INSERT, with the constraints of the table. -/
def insertCredential (db : ControlDb E) (r : Credential E) : Except ControlError (ControlDb E) :=
  if db.credentials.hasKey r.credentialId ∨ db.credentials.anyWhere (fun r' => decide (r'.tokenHash = r.tokenHash)) ∨
      ¬ db.clients.hasKey r.clientId ∨ ¬ db.bindings.hasKey r.bindingId then
    .error .integrityError
  else .ok { db with credentials := db.credentials.insertOrIgnore r }

/-- The UPDATE that revokes an active credential. -/
def revokeWhere (db : ControlDb E) (credentialId : List Char) : ControlDb E :=
  { db with
    credentials := db.credentials.update (fun r => decide (r.credentialId = credentialId ∧ r.status = .active))
      fun r => { r with status := .revoked } }

/-- The row that `rotate` selects. -/
def activeCredential (db : ControlDb E) (credentialId : List Char) : Option (Credential E) :=
  (db.credentials.lookup credentialId).filter fun r => decide (r.status = .active)

/-- `CredentialRepository.issue`, with the hexadecimal digits and the secret it draws. -/
def issue (db : ControlDb E) (now : Nat) (clientId bindingId : String) (tokenKind : List Char)
    (expiresInSeconds : Int) (hex secret : List Char) : Except ControlError (ControlDb E × List Char × List Char) :=
  let token := tokenText tokenKind (credentialIdOf hex) secret
  if tokenKind ∉ tokenKinds then .error (.valueError "unsupported credential token kind")
  else if expiresInSeconds ≤ 0 then .error (.valueError "expires_in_seconds must be positive")
  else do
    let expiresAt ← expiresAtOf E now expiresInSeconds
    let db ← insertCredential db (.of E (credentialIdOf hex) clientId bindingId token expiresAt)
    pure (db, credentialIdOf hex, token)

/-- `CredentialRepository.rotate`. -/
def rotate (db : ControlDb E) (now : Nat) (credentialId : List Char) (expiresInSeconds : Int)
    (hex secret : List Char) : Except ControlError (ControlDb E × List Char × List Char) :=
  if expiresInSeconds ≤ 0 then .error (.valueError "expires_in_seconds must be positive")
  else do
    let expiresAt ← expiresAtOf E now expiresInSeconds
    match activeCredential db credentialId with
    | none => .error (.valueError "active credential not found")
    | some previous =>
      let tokenKind ← tokenKindFromPrefix previous.tokenPrefix
      let token := tokenText tokenKind (credentialIdOf hex) secret
      let db ← insertCredential db
        (.of E (credentialIdOf hex) previous.clientId previous.bindingId token expiresAt)
      if (activeCredential db credentialId).isNone then .error (.runtimeError "credential rotation fence lost")
      else pure (revokeWhere db credentialId, credentialIdOf hex, token)

/-- `CredentialRepository.revoke`. -/
def revoke (db : ControlDb E) (credentialId : List Char) : ControlDb E × Bool :=
  (revokeWhere db credentialId, (activeCredential db credentialId).isSome)

def Credential.expired (r : Credential E) (now : Nat) : Bool := r.expiresAt.any fun expiresAt => expiresAt ≤ now

/-- The row with its client and its binding that `authenticate` selects. -/
def selectToken (db : ControlDb E) (now : Nat) (token : List Char) :
    Option (Credential E × Client × ProjectBinding) :=
  (db.credentials.select fun r =>
    decide (r.tokenHash = E.tokenHash token ∧ r.status = .active) && !r.expired now).findSome? fun r => do
      let client ← db.clients.lookup r.clientId
      let binding ← db.bindings.lookup r.bindingId
      pure (r, client, binding)

/-- `CredentialRepository.authenticate`. -/
def authenticate (db : ControlDb E) (now : Nat) (token : List Char) : Option (Credential E) :=
  match selectToken db now token with
  | none => none
  | some (r, client, binding) => if !client.enabled || !binding.enabled then none else some r

/-! ## Clients and bindings -/

/-- `ClientRepository.create_client`. -/
def createClient (db : ControlDb E) (clientId : String) : Except ControlError (ControlDb E) :=
  if db.clients.hasKey clientId then .error .integrityError
  else .ok { db with clients := db.clients.insertOrIgnore ⟨clientId, true⟩ }

/-- `ClientRepository.toggle_client_enabled`. -/
def toggleClientEnabled (db : ControlDb E) (clientId : String) (enabled : Bool) : ControlDb E :=
  { db with clients := db.clients.update (fun c => decide (c.clientId = clientId)) fun c => { c with enabled } }

/-- An update of the column `enabled` of a binding. -/
def updateBindingEnabled (db : ControlDb E) (bindingId : String) (enabled : Bool) : ControlDb E :=
  { db with bindings := db.bindings.update (fun b => decide (b.bindingId = bindingId)) fun b => { b with enabled } }

/-- `ClientRepository.add_project_binding`. -/
def addProjectBinding (db : ControlDb E) (clientId externalProjectId : String) :
    Except ControlError (ControlDb E × String) :=
  let bindingId := "bnd_" ++ clientId ++ "_" ++ externalProjectId
  let same := fun b : ProjectBinding => decide (b.clientId = clientId ∧ b.externalProjectId = externalProjectId)
  if ¬ db.clients.hasKey clientId then .error .integrityError
  else if db.bindings.anyWhere same then
    .ok ({ db with bindings := db.bindings.update same fun b => { b with enabled := true } }, bindingId)
  else if db.bindings.hasKey bindingId then .error .integrityError
  else .ok ({ db with bindings := db.bindings.insertOrIgnore ⟨bindingId, clientId, externalProjectId, true⟩ }, bindingId)

end Mesa.Control
