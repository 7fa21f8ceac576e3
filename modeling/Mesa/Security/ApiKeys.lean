/-
The registry of API keys. A credential is a key id and a secret with a dot between them, and a text
without a dot is the secret of the key `bootstrap`. Times are microseconds; the timestamps of the
source compare as texts in the same order.
-/
import Mesa.Foundation.Result
import Mesa.Foundation.Run
import Mesa.Foundation.Table

namespace Mesa.Security

open Mesa.Foundation

/-! ## The environment -/

/-- What the registry takes from elsewhere: the salted digest, `str.isalnum` and the last timestamp. -/
structure KeyEnv where
  Salt : Type
  Digest : Type
  digestEq : DecidableEq Digest
  digest : String → Salt → Digest
  digest_injective : ∀ salt a b, digest a salt = digest b salt → a = b
  isAlnum : Char → Bool
  isAlnum_dot : isAlnum '.' = false
  latest : Nat

attribute [instance] KeyEnv.digestEq

/-- A text of `secrets.token_urlsafe`. -/
structure UrlsafeToken where
  text : String
  nonempty : text ≠ ""
  noDot : '.' ∉ text.toList

variable {E : KeyEnv}

inductive KeyStatus
  | active | revoked
  deriving DecidableEq

/-- A row of `api_keys`. -/
structure ApiKey (E : KeyEnv) where
  keyId : String
  salt : E.Salt
  digest : E.Digest
  principalId : String
  principalType : String
  status : KeyStatus
  expiresAt : Option Nat

instance : Keyed (ApiKey E) String := ⟨ApiKey.keyId⟩

inductive KeyError
  | valueError (message : String)
  | overflowError
  /-- The INSERT of a key id that is there. -/
  | integrityError
  deriving DecidableEq

structure VerifiedAPIKey where
  keyId : String
  principalId : String
  principalType : String
  deriving DecidableEq

/-- A key id with its secret, as `issue_key` and `rotate_key` return them. -/
structure Credential where
  keyId : String
  secret : String

def Credential.text (c : Credential) : String := c.keyId ++ "." ++ c.secret

/-! ## Operations -/

def ApiKey.expired (r : ApiKey E) (now : Nat) : Bool := r.expiresAt.any fun expiresAt => expiresAt ≤ now

/-- `_expiry_timestamp`. -/
def expiryTimestamp (E : KeyEnv) (now : Nat) (expiresInSeconds : Int) : Except KeyError Nat :=
  if expiresInSeconds ≤ 0 then .error (.valueError "expires_in_seconds must be positive")
  else if now + expiresInSeconds.toNat * 1000000 > E.latest then .error .overflowError
  else .ok (now + expiresInSeconds.toNat * 1000000)

/-- `DEFAULT_API_KEY_TTL_SECONDS`. -/
def defaultApiKeyTtlSeconds : Int := 90 * 24 * 60 * 60

/-- The generated ids. -/
def generatedKeyId (generated : UrlsafeToken) : String := "mk_" ++ generated.text

/-- The check of the characters of a key id. -/
def supportedKeyId (E : KeyEnv) (keyId : String) : Bool :=
  let rest := keyId.toList.filter fun c => c ≠ '_' ∧ c ≠ '-'
  !rest.isEmpty && rest.all E.isAlnum

/-- The part of `issue_key` before the INSERT: the id and the expiry of the new key. -/
def issueChecks (E : KeyEnv) (now : Nat) (principalId : String) (keyId : Option String) (generated : UrlsafeToken)
    (expiresInSeconds : Int) : Except KeyError (String × Nat) :=
  if principalId = "" then .error (.valueError "principal_id is required")
  else
    let generatedId := (keyId.filter (· ≠ "")).getD (generatedKeyId generated)
    if !supportedKeyId E generatedId then .error (.valueError "key_id contains unsupported characters")
    else (expiryTimestamp E now expiresInSeconds).map fun expiresAt => (generatedId, expiresAt)

/-- `_upsert_key` with `replace=False`. -/
def insertKey (keys : Table (ApiKey E)) (r : ApiKey E) : Except KeyError (Table (ApiKey E)) :=
  if keys.hasKey r.keyId then .error .integrityError else .ok (keys.insertOrIgnore r)

/-- The row of a new active key. -/
def ApiKey.of (c : Credential) (salt : E.Salt) (principalId principalType : String) (expiresAt : Option Nat) : ApiKey E :=
  ⟨c.keyId, salt, E.digest c.secret salt, principalId, principalType, .active, expiresAt⟩

def issueKey (keys : Table (ApiKey E)) (now : Nat) (principalId principalType : String) (keyId : Option String)
    (expiresInSeconds : Int) (generated secret : UrlsafeToken) (salt : E.Salt) :
    Except KeyError (Table (ApiKey E) × Credential) := do
  let (generatedId, expiresAt) ← issueChecks E now principalId keyId generated expiresInSeconds
  let keys ← insertKey keys (.of ⟨generatedId, secret.text⟩ salt principalId principalType (some expiresAt))
  pure (keys, ⟨generatedId, secret.text⟩)

/-- The secret and the principal of a legacy key that `bootstrap_legacy_key` inserts. -/
def legacyKey (keys : Table (ApiKey E)) (secret principalId : Option String) : Option (String × String) :=
  match secret.filter (· ≠ ""), principalId.filter (· ≠ "") with
  | some s, some p => if keys.hasKey "bootstrap" then none else some (s, p)
  | _, _ => none

def bootstrapLegacyKey (keys : Table (ApiKey E)) (secret principalId : Option String) (principalType : String)
    (salt : E.Salt) : Table (ApiKey E) :=
  match legacyKey keys secret principalId with
  | some (s, p) => keys.insertOrIgnore (.of ⟨"bootstrap", s⟩ salt p principalType none)
  | none => keys

def revokeWhere (keys : Table (ApiKey E)) (keyId : String) : Table (ApiKey E) :=
  keys.update (fun r => decide (r.keyId = keyId ∧ r.status = .active)) fun r => { r with status := .revoked }

def revokeKey (keys : Table (ApiKey E)) (keyId : String) : Table (ApiKey E) × Bool :=
  (revokeWhere keys keyId, keys.anyWhere fun r => decide (r.keyId = keyId ∧ r.status = .active))

/-- The row that `rotate_key` replaces. -/
def activeKey (keys : Table (ApiKey E)) (keyId : String) : Option (ApiKey E) :=
  (keys.lookup keyId).filter fun r => decide (r.status = .active)

def rotateKey (keys : Table (ApiKey E)) (now : Nat) (keyId : String) (generated secret : UrlsafeToken) (salt : E.Salt) :
    Except KeyError (Table (ApiKey E) × Credential) := do
  let expiresAt ← expiryTimestamp E now defaultApiKeyTtlSeconds
  match activeKey keys keyId with
  | none => throw (.valueError "active key not found")
  | some r =>
    let keys ← insertKey keys
      (.of ⟨generatedKeyId generated, secret.text⟩ salt r.principalId r.principalType (some expiresAt))
    pure (revokeWhere keys keyId, ⟨generatedKeyId generated, secret.text⟩)

/-! ## Verification -/

/-- The key id and the secret of a credential. -/
def parseCredential (credential : String) : String × String :=
  if '.' ∈ credential.toList then
    (String.ofList (credential.toList.takeWhile (· ≠ '.')),
      String.ofList ((credential.toList.dropWhile (· ≠ '.')).drop 1))
  else ("bootstrap", credential)

def ApiKey.verified (r : ApiKey E) : VerifiedAPIKey := ⟨r.keyId, r.principalId, r.principalType⟩

def verify (keys : Table (ApiKey E)) (now : Nat) (credential : String) : Option VerifiedAPIKey :=
  let (keyId, secret) := parseCredential credential
  if keyId = "" ∨ secret = "" then none
  else
    match keys.lookup keyId with
    | none => none
    | some r =>
      if r.status ≠ .active then none
      else if r.expired now then none
      else if r.digest ≠ E.digest secret r.salt then none
      else some r.verified

end Mesa.Security
