/-
The life of API keys over runs: which texts are accepted, and that a key that has ended gives no
access any more. Two texts name the key `bootstrap`, and a rotation does not ask whether the key it
replaces has expired; apart from these the registry does what it is for.
-/
import Mathlib.Data.List.TakeWhile
import Mesa.Security.ApiKeys

namespace Mesa.Security

open Mesa.Foundation

variable {E : KeyEnv}

/-! ## Runs -/

/-- A credential that was returned or bootstrapped, with its key and its principal. -/
structure GrantedKey where
  keyId : String
  credential : String
  principalId : String
  deriving DecidableEq

/-- The registry at a time. Nothing in the registry reads the other fields: the credentials so far, the
keys that have been seen revoked or expired, and those that were rotated when they had already ended. -/
structure Registry (E : KeyEnv) where
  keys : Table (ApiKey E)
  now : Nat
  granted : List GrantedKey
  ended : List String
  revived : List String

def Registry.start (E : KeyEnv) (now : Nat) : Registry E := ⟨.empty, now, [], [], []⟩

inductive KeyOperation (E : KeyEnv)
  | issueKey (principalId principalType : String) (keyId : Option String) (expiresInSeconds : Int)
    (generated secret : UrlsafeToken) (salt : E.Salt)
  | bootstrapLegacyKey (secret principalId : Option String) (principalType : String) (salt : E.Salt)
  | rotateKey (keyId : String) (generated secret : UrlsafeToken) (salt : E.Salt)
  | revokeKey (keyId : String)
  | tick (microseconds : Nat)

def ApiKey.live (r : ApiKey E) (now : Nat) : Bool := decide (r.status = .active) && !r.expired now

def Registry.issue (s : Registry E) (principalId principalType : String) (keyId : Option String)
    (expiresInSeconds : Int) (generated secret : UrlsafeToken) (salt : E.Salt) : Registry E :=
  match issueKey s.keys s.now principalId principalType keyId expiresInSeconds generated secret salt with
  | .ok (keys, c) => { s with keys, granted := ⟨c.keyId, c.text, principalId⟩ :: s.granted }
  | .error _ => s

def Registry.bootstrap (s : Registry E) (secret principalId : Option String) (principalType : String)
    (salt : E.Salt) : Registry E :=
  { s with
    keys := bootstrapLegacyKey s.keys secret principalId principalType salt
    granted := (legacyKey s.keys secret principalId).elim s.granted fun p => ⟨"bootstrap", p.1, p.2⟩ :: s.granted }

def Registry.rotate (s : Registry E) (keyId : String) (generated secret : UrlsafeToken) (salt : E.Salt) : Registry E :=
  match activeKey s.keys keyId, rotateKey s.keys s.now keyId generated secret salt with
  | some r, .ok (keys, c) =>
    { s with
      keys
      granted := ⟨c.keyId, c.text, r.principalId⟩ :: s.granted
      revived := if r.live s.now then s.revived else keyId :: s.revived }
  | _, _ => s

def Registry.step (s : Registry E) : KeyOperation E → Registry E
  | .issueKey principalId principalType keyId expiresInSeconds generated secret salt =>
    s.issue principalId principalType keyId expiresInSeconds generated secret salt
  | .bootstrapLegacyKey secret principalId principalType salt => s.bootstrap secret principalId principalType salt
  | .rotateKey keyId generated secret salt => s.rotate keyId generated secret salt
  | .revokeKey keyId => { s with keys := (revokeKey s.keys keyId).1 }
  | .tick microseconds => { s with now := s.now + microseconds }

/-- The keys that are revoked or expired are noted. -/
def Registry.note (s : Registry E) : Registry E :=
  { s with ended := ((s.keys.select fun r => !r.live s.now).map (·.keyId)) ++ s.ended }

def Registry.exec (s : Registry E) (op : KeyOperation E) : Registry E := (s.step op).note

/-! ## What the registry is for -/

/-- The texts that are accepted are the credentials of active and unexpired keys, each for the
principal of its key; no key that has ended is accepted again, and none is rotated again. -/
structure Registry.Sound (s : Registry E) : Prop where
  accepts : ∀ credential v, verify s.keys s.now credential = some v ↔
    ∃ g ∈ s.granted, g.credential = credential ∧ ∃ r, s.keys.lookup g.keyId = some r ∧ r.live s.now = true ∧
      r.principalId = g.principalId ∧ v = r.verified
  ended : ∀ credential v, verify s.keys s.now credential = some v → v.keyId ∉ s.ended
  revived : s.revived = []

/-- The operation creates no key `bootstrap`, and a rotation that goes through replaces an unexpired key. -/
def Registry.Sensible (s : Registry E) : KeyOperation E → Prop
  | .issueKey principalId _ keyId expiresInSeconds generated _ _ => ∀ expiresAt,
      issueChecks E s.now principalId keyId generated expiresInSeconds = .ok ("bootstrap", expiresAt) →
        s.keys.hasKey "bootstrap" = true
  | .bootstrapLegacyKey secret principalId _ _ => legacyKey s.keys secret principalId = none
  | .rotateKey keyId generated _ _ => ∀ r, activeKey s.keys keyId = some r →
      s.keys.hasKey (generatedKeyId generated) = false →
      (∃ expiresAt, expiryTimestamp E s.now defaultApiKeyTtlSeconds = .ok expiresAt) → r.expired s.now = false
  | _ => True

/-! ## Credentials -/

theorem parse_text {k secret : String} (hk : '.' ∉ k.toList) : parseCredential (k ++ "." ++ secret) = (k, secret) := by
  have hall : ∀ c ∈ k.toList, decide (c ≠ '.') = true := fun c hc => by
    simp only [ne_eq, decide_not, Bool.not_eq_eq_eq_not, Bool.not_true, decide_eq_false_iff_not]
    rintro rfl
    exact hk hc
  have hdot : ".".toList = ['.'] := rfl
  unfold parseCredential
  rw [String.toList_append, String.toList_append, hdot, List.append_assoc, if_pos (by simp),
    List.takeWhile_append_of_pos hall, List.dropWhile_append_of_pos hall]
  simp

theorem parse_bare {text : String} (h : '.' ∉ text.toList) : parseCredential text = ("bootstrap", text) := by
  unfold parseCredential
  rw [if_neg h]

/-- A text that names another key than `bootstrap` is the key id, a dot and the secret. -/
theorem text_of_parse {text k secret : String} (h : parseCredential text = (k, secret)) (hk : k ≠ "bootstrap") :
    text = k ++ "." ++ secret := by
  unfold parseCredential at h
  split at h
  · next hdot =>
    obtain ⟨rfl, rfl⟩ := Prod.mk.inj h
    rw [← String.toList_inj, String.toList_append, String.toList_append, String.toList_ofList, String.toList_ofList]
    have hsplit := List.takeWhile_append_dropWhile (p := fun c => decide (c ≠ '.')) (l := text.toList)
    cases hdrop : text.toList.dropWhile (fun c => decide (c ≠ '.')) with
    | nil =>
      have hall := List.dropWhile_eq_nil_iff.1 hdrop '.' hdot
      simp at hall
    | cons c rest =>
      have hc : c = '.' := by
        have := List.head?_dropWhile_not (fun c => decide (c ≠ '.')) text.toList
        rw [hdrop] at this
        simpa using this
      subst hc
      rw [hdrop] at hsplit
      simpa using hsplit.symm
  · cases h
    exact absurd rfl hk

theorem generatedKeyId_ne (generated : UrlsafeToken) : generatedKeyId generated ≠ "bootstrap" := by
  intro h
  have := congrArg String.toList h
  rw [generatedKeyId, String.toList_append] at this
  simp at this

theorem supportedKeyId_noDot {keyId : String} (h : supportedKeyId E keyId = true) : '.' ∉ keyId.toList := by
  intro hdot
  unfold supportedKeyId at h
  simp only [Bool.and_eq_true, List.all_eq_true] at h
  have := h.2 '.' (List.mem_filter.2 ⟨hdot, by decide⟩)
  rw [E.isAlnum_dot] at this
  cases this

theorem supportedKeyId_ne {keyId : String} (h : supportedKeyId E keyId = true) : keyId ≠ "" := by
  rintro rfl
  simp [supportedKeyId] at h

theorem generatedKeyId_noDot (generated : UrlsafeToken) : '.' ∉ (generatedKeyId generated).toList := by
  rw [generatedKeyId, String.toList_append, List.mem_append]
  rintro (h | h)
  · simp at h
  · exact generated.noDot h

theorem generatedKeyId_ne_empty (generated : UrlsafeToken) : generatedKeyId generated ≠ "" := by
  intro h
  have := congrArg String.toList h
  rw [generatedKeyId, String.toList_append] at this
  simp at this

theorem verify_eq_some {keys : Table (ApiKey E)} {now : Nat} {credential : String} {v : VerifiedAPIKey} :
    verify keys now credential = some v ↔ ∃ k secret r, parseCredential credential = (k, secret) ∧ k ≠ "" ∧
      secret ≠ "" ∧ keys.lookup k = some r ∧ r.live now = true ∧ r.digest = E.digest secret r.salt ∧ v = r.verified := by
  unfold verify
  rcases parseCredential credential with ⟨k, secret⟩
  simp only [Prod.mk.injEq, and_assoc]
  constructor
  · intro h
    split at h
    · cases h
    · next hne =>
      obtain ⟨hk, hs⟩ := not_or.1 hne
      split at h
      · cases h
      · next r hr =>
        split at h
        · cases h
        · next hactive =>
          split at h
          · cases h
          · next hexpired =>
            split at h
            · cases h
            · next hdigest =>
              refine ⟨k, secret, r, rfl, rfl, hk, hs, hr, ?_, not_not.1 hdigest, (Option.some.inj h).symm⟩
              simp [ApiKey.live, not_not.1 hactive, hexpired]
  · rintro ⟨k, secret, r, rfl, rfl, hk, hs, hr, hlive, hdigest, rfl⟩
    simp only [ApiKey.live, Bool.and_eq_true, decide_eq_true_eq, Bool.not_eq_eq_eq_not, Bool.not_true] at hlive
    rw [if_neg (not_or.2 ⟨hk, hs⟩), hr]
    simp [hlive, hdigest]

/-! ## The rows and the credentials -/

/-- A credential is the one of this row. -/
structure GrantedKey.Names (g : GrantedKey) (r : ApiKey E) : Prop where
  key : r.keyId = g.keyId
  principal : r.principalId = g.principalId
  noDot : '.' ∉ g.keyId.toList
  nonempty : g.keyId ≠ ""
  secret : ∃ secret, secret ≠ "" ∧ r.digest = E.digest secret r.salt ∧
    (g.credential = g.keyId ++ "." ++ secret ∧ '.' ∉ secret.toList ∨ g.keyId = "bootstrap" ∧ g.credential = secret)

/-- Each row has one credential, each credential a row, and the ended keys stay ended. -/
structure Registry.Consistent (s : Registry E) : Prop where
  row : ∀ g ∈ s.granted, ∃ r, s.keys.lookup g.keyId = some r ∧ g.Names r
  credential : ∀ r ∈ s.keys.rows, ∃ g ∈ s.granted, g.keyId = r.keyId
  unique : ∀ g ∈ s.granted, ∀ g' ∈ s.granted, g.keyId = g'.keyId → g = g'
  ended : ∀ k ∈ s.ended, ∃ r, s.keys.lookup k = some r ∧ r.live s.now = false

/-- No key `bootstrap` is active and unexpired. -/
def Registry.Unaliased (s : Registry E) : Prop := ∀ r, s.keys.lookup "bootstrap" = some r → r.live s.now = false

theorem GrantedKey.Names.kept {g : GrantedKey} {r r' : ApiKey E} (h : g.Names r) (hkey : r'.keyId = r.keyId)
    (hprincipal : r'.principalId = r.principalId) (hdigest : r'.digest = r.digest) (hsalt : r'.salt = r.salt) :
    g.Names r' where
  key := hkey.trans h.key
  principal := hprincipal.trans h.principal
  noDot := h.noDot
  nonempty := h.nonempty
  secret := by
    obtain ⟨secret, hne, hd, hform⟩ := h.secret
    exact ⟨secret, hne, by rw [hdigest, hsalt]; exact hd, hform⟩

/-- Both texts of a key are accepted while it is live. -/
theorem verify_of_secret {keys : Table (ApiKey E)} {now : Nat} {text k secret : String} {r : ApiKey E}
    (hparse : parseCredential text = (k, secret)) (hk : k ≠ "") (hs : secret ≠ "") (hr : keys.lookup k = some r)
    (hlive : r.live now = true) (hdigest : r.digest = E.digest secret r.salt) :
    verify keys now text = some r.verified :=
  verify_eq_some.2 ⟨k, secret, r, hparse, hk, hs, hr, hlive, hdigest, rfl⟩

/-- Where rows and credentials agree, the registry is sound exactly when no live key has two texts and
no ended key was rotated. -/
theorem sound_iff {s : Registry E} (h : s.Consistent) : s.Sound ↔ s.Unaliased ∧ s.revived = [] := by
  constructor
  · refine fun hs => ⟨fun r hr => ?_, hs.revived⟩
    by_contra hlive
    rw [Bool.not_eq_false] at hlive
    have hrow := Table.lookup_mem hr
    obtain ⟨g, hg, hgk⟩ := h.credential r hrow
    have hrk : r.keyId = "bootstrap" := Table.lookup_key hr
    obtain ⟨r', hr', hnames⟩ := h.row g hg
    rw [hgk, hrk, hr] at hr'
    obtain rfl := Option.some.inj hr'
    obtain ⟨secret, hne, hdigest, hform⟩ := hnames.secret
    -- whatever text is accepted for the key is the one credential of it
    have honly : ∀ text, verify s.keys s.now text = some r.verified → g.credential = text := by
      intro text htext
      obtain ⟨g', hg', hcredential, r', hr', -, -, hv⟩ := (hs.accepts text _).1 htext
      have hkey : g'.keyId = g.keyId := by
        have h₁ : r'.keyId = g'.keyId := Table.lookup_key hr'
        rw [← h₁, hgk]
        exact (congrArg VerifiedAPIKey.keyId hv).symm
      rw [h.unique g hg g' hg' hkey.symm]
      exact hcredential
    have hdotted := honly ("bootstrap" ++ "." ++ secret)
      (verify_of_secret (parse_text (by decide)) (by decide) hne hr hlive hdigest)
    rcases hform with ⟨-, hnoDot⟩ | ⟨-, hlegacy⟩
    · have hbare := honly secret (verify_of_secret (parse_bare hnoDot) (by decide) hne hr hlive hdigest)
      have hlength := congrArg String.length (hdotted.symm.trans hbare)
      rw [String.length_append, String.length_append] at hlength
      have hboot : "bootstrap".length = 9 := rfl
      omega
    · have hlength := congrArg String.length (hdotted.symm.trans hlegacy)
      rw [String.length_append, String.length_append] at hlength
      have hboot : "bootstrap".length = 9 := rfl
      omega
  · rintro ⟨halias, hrevived⟩
    refine ⟨fun text v => ?_, fun text v hv hended => ?_, hrevived⟩
    · rw [verify_eq_some]
      constructor
      · rintro ⟨k, secret, r, hparse, -, -, hr, hlive, hdigest, rfl⟩
        have hkey : r.keyId = k := Table.lookup_key hr
        obtain ⟨g, hg, hgk⟩ := h.credential r (Table.lookup_mem hr)
        have hk : k ≠ "bootstrap" := by
          rintro rfl
          rw [halias r hr] at hlive
          cases hlive
        obtain ⟨r', hr', hnames⟩ := h.row g hg
        rw [hgk, hkey, hr] at hr'
        obtain rfl := Option.some.inj hr'
        refine ⟨g, hg, ?_, r, by rw [hgk, hkey]; exact hr, hlive, hnames.principal, rfl⟩
        obtain ⟨secret', -, hdigest', hform⟩ := hnames.secret
        obtain rfl := E.digest_injective _ _ _ (hdigest.symm.trans hdigest')
        rcases hform with ⟨hform, -⟩ | ⟨hboot, -⟩
        · rw [hform, text_of_parse hparse hk, hgk, hkey]
        · exact absurd (hkey.symm.trans (hgk.symm.trans hboot)) hk
      · rintro ⟨g, hg, rfl, r, hr, hlive, -, rfl⟩
        obtain ⟨r', hr', hnames⟩ := h.row g hg
        rw [hr] at hr'
        obtain rfl := Option.some.inj hr'
        obtain ⟨secret, hne, hdigest, hform⟩ := hnames.secret
        rcases hform with ⟨hform, -⟩ | ⟨hboot, -⟩
        · rw [hform]
          exact ⟨g.keyId, secret, r, parse_text hnames.noDot, hnames.nonempty, hne, hr, hlive, hdigest, rfl⟩
        · rw [hboot] at hr
          rw [halias r hr] at hlive
          cases hlive
    · obtain ⟨k, secret, r, -, -, -, hr, hlive, -, rfl⟩ := verify_eq_some.1 hv
      have hkey : r.keyId = k := Table.lookup_key hr
      obtain ⟨r', hr', hdead⟩ := h.ended k (by rw [← hkey]; exact hended)
      rw [hr] at hr'
      obtain rfl := Option.some.inj hr'
      rw [hdead] at hlive
      cases hlive

/-! ## Steps -/

theorem live_of (c : Credential) (salt : E.Salt) (principalId principalType : String) {expiresAt : Option Nat} {now : Nat}
    (h : ∀ t, expiresAt = some t → now < t) : (ApiKey.of c salt principalId principalType expiresAt).live now = true := by
  unfold ApiKey.live ApiKey.expired ApiKey.of
  cases expiresAt with
  | none => rfl
  | some t => simpa using h t rfl

theorem expiryTimestamp_gt {now t : Nat} {seconds : Int} (h : expiryTimestamp E now seconds = .ok t) : now < t := by
  unfold expiryTimestamp at h
  split at h
  · cases h
  · next hpos =>
    split at h
    · cases h
    · cases h
      omega

/-- What `issue_key` checks before its INSERT. -/
theorem issueChecks_eq_ok {now : Nat} {principalId : String} {keyId : Option String} {generated : UrlsafeToken}
    {seconds : Int} {k : String} {t : Nat} (h : issueChecks E now principalId keyId generated seconds = .ok (k, t)) :
    supportedKeyId E k = true ∧ now < t := by
  unfold issueChecks at h
  split at h
  · cases h
  · dsimp only at h
    split at h
    · cases h
    · next hsupported =>
      obtain ⟨t', ht', heq⟩ := map_eq_ok.1 h
      cases heq
      exact ⟨by simpa using hsupported, expiryTimestamp_gt ht'⟩

theorem names_of (c : Credential) (salt : E.Salt) (principalId principalType : String) (expiresAt : Option Nat)
    (hk : '.' ∉ c.keyId.toList) (hne : c.keyId ≠ "") (hs : c.secret ≠ "") (hsDot : '.' ∉ c.secret.toList) :
    GrantedKey.Names ⟨c.keyId, c.text, principalId⟩ (ApiKey.of c salt principalId principalType expiresAt) :=
  ⟨rfl, rfl, hk, hne, c.secret, hs, rfl, .inl ⟨rfl, hsDot⟩⟩

/-- A new row with its credential. -/
theorem Registry.Consistent.insert {s : Registry E} (h : s.Consistent) {r : ApiKey E} {g : GrantedKey}
    (hfresh : s.keys.hasKey r.keyId = false) (hnames : g.Names r) :
    Registry.Consistent { s with keys := s.keys.insertOrIgnore r, granted := g :: s.granted } := by
  have hnone : s.keys.lookup r.keyId = none := Table.hasKey_eq_false.1 hfresh
  have hother : ∀ {k r'}, s.keys.lookup k = some r' → (s.keys.insertOrIgnore r).lookup k = some r' := by
    intro k r' hr'
    rw [Table.lookup_insertOrIgnore, hr']
    rfl
  have hself : (s.keys.insertOrIgnore r).lookup r.keyId = some r := by
    rw [Table.lookup_insertOrIgnore, hnone]
    simp [Keyed.key]
  have hnew : ∀ g' ∈ s.granted, g'.keyId ≠ r.keyId := by
    intro g' hg' heq
    obtain ⟨r', hr', -⟩ := h.row g' hg'
    rw [heq, hnone] at hr'
    cases hr'
  refine ⟨?_, ?_, ?_, ?_⟩
  · intro g' hg'
    rcases List.mem_cons.1 hg' with rfl | hg'
    · exact ⟨r, by rw [← hnames.key]; exact hself, hnames⟩
    · obtain ⟨r', hr', hn⟩ := h.row g' hg'
      exact ⟨r', hother hr', hn⟩
  · intro r' hr'
    rcases Table.mem_insertOrIgnore.1 hr' with hr' | ⟨rfl, -⟩
    · obtain ⟨g', hg', hk⟩ := h.credential r' hr'
      exact ⟨g', List.mem_cons_of_mem _ hg', hk⟩
    · exact ⟨g, List.mem_cons_self, hnames.key.symm⟩
  · intro a ha b hb hab
    rcases List.mem_cons.1 ha with hag | hag <;> rcases List.mem_cons.1 hb with hbg | hbg
    · rw [hag, hbg]
    · exact absurd (hab.symm.trans (hag ▸ hnames.key.symm)) (hnew b hbg)
    · exact absurd (hab.trans (hbg ▸ hnames.key.symm)) (hnew a hag)
    · exact h.unique a hag b hbg hab
  · intro k hk
    obtain ⟨r', hr', hdead⟩ := h.ended k hk
    exact ⟨r', hother hr', hdead⟩

theorem lookup_revokeWhere (keys : Table (ApiKey E)) (keyId k : String) : (revokeWhere keys keyId).lookup k =
    (keys.lookup k).map fun r => if r.keyId = keyId ∧ r.status = .active then { r with status := .revoked } else r := by
  rw [revokeWhere, Table.lookup_update]
  simp only [decide_eq_true_eq]

theorem live_revoked {r : ApiKey E} {p : Prop} [Decidable p] {now : Nat}
    (h : (if p then { r with status := .revoked } else r : ApiKey E).live now = true) : r.live now = true := by
  split at h
  · simp [ApiKey.live] at h
  · exact h

/-- A revocation. -/
theorem Registry.Consistent.revoke {s : Registry E} (h : s.Consistent) (keyId : String) :
    Registry.Consistent { s with keys := revokeWhere s.keys keyId } := by
  have hfound : ∀ {k r}, s.keys.lookup k = some r → (revokeWhere s.keys keyId).lookup k =
      some (if r.keyId = keyId ∧ r.status = .active then { r with status := .revoked } else r) := by
    intro k r hr
    rw [lookup_revokeWhere, hr]
    rfl
  refine ⟨?_, ?_, h.unique, ?_⟩
  · intro g hg
    obtain ⟨r, hr, hn⟩ := h.row g hg
    refine ⟨_, hfound hr, ?_⟩
    split
    · exact hn.kept rfl rfl rfl rfl
    · exact hn
  · intro r hr
    obtain ⟨r', hr', rfl⟩ := Table.mem_updated.1 hr
    obtain ⟨g, hg, hk⟩ := h.credential r' hr'
    refine ⟨g, hg, ?_⟩
    split <;> exact hk
  · intro k hk
    obtain ⟨r, hr, hdead⟩ := h.ended k hk
    refine ⟨_, hfound hr, ?_⟩
    rw [← Bool.not_eq_true]
    intro hlive
    rw [live_revoked hlive] at hdead
    cases hdead

theorem live_earlier {r : ApiKey E} {now d : Nat} (h : r.live (now + d) = true) : r.live now = true := by
  unfold ApiKey.live ApiKey.expired at *
  cases hexpiry : r.expiresAt with
  | none => simpa [hexpiry] using h
  | some t =>
    simp only [hexpiry, Option.any_some, Bool.and_eq_true, Bool.not_eq_eq_eq_not, Bool.not_true,
      decide_eq_false_iff_not, not_le] at h ⊢
    exact ⟨h.1, by omega⟩

theorem Registry.Consistent.note {s : Registry E} (h : s.Consistent) : s.note.Consistent := by
  refine ⟨h.row, h.credential, h.unique, fun k hk => ?_⟩
  rcases List.mem_append.1 hk with hk | hk
  · obtain ⟨r, hr, rfl⟩ := List.mem_map.1 hk
    obtain ⟨hrow, hdead⟩ := Table.mem_select.1 hr
    refine ⟨r, Table.lookup_of_mem hrow, ?_⟩
    show r.live s.now = false
    simpa using hdead
  · exact h.ended k hk

/-- A step keeps rows and credentials in agreement, and creates a live key `bootstrap` or rotates an
ended key exactly when it is not sensible. -/
def Registry.Kept (s : Registry E) (op : KeyOperation E) : Prop :=
  (s.step op).Consistent ∧ (s.Unaliased → s.revived = [] →
    ((s.step op).Unaliased ∧ (s.step op).revived = [] ↔ s.Sensible op))

theorem Registry.Kept.unchanged {s : Registry E} {op : KeyOperation E} (h : s.Consistent) (hstep : s.step op = s)
    (hsensible : s.Sensible op) : s.Kept op := by
  refine ⟨by rw [hstep]; exact h, fun halias hrevived => ?_⟩
  rw [hstep]
  exact iff_of_true ⟨halias, hrevived⟩ hsensible

theorem unaliased_insert {s : Registry E} (h : s.Unaliased) {r : ApiKey E} (hfresh : s.keys.hasKey r.keyId = false)
    (hlive : r.live s.now = true) : (∀ r', (s.keys.insertOrIgnore r).lookup "bootstrap" = some r' →
      r'.live s.now = false) ↔ r.keyId ≠ "bootstrap" := by
  rw [Table.lookup_insertOrIgnore, show Keyed.key r = r.keyId from rfl]
  constructor
  · intro halias hkey
    have hnone : s.keys.lookup "bootstrap" = none := by rw [← hkey]; exact Table.hasKey_eq_false.1 hfresh
    rw [hnone, Option.none_or, if_pos hkey] at halias
    rw [halias r rfl] at hlive
    cases hlive
  · intro hkey r' hr'
    rw [if_neg hkey, Option.or_none] at hr'
    exact h r' hr'

theorem unaliased_revoke {keys : Table (ApiKey E)} {now : Nat} {keyId : String}
    (h : ∀ r, keys.lookup "bootstrap" = some r → r.live now = false) :
    ∀ r, (revokeWhere keys keyId).lookup "bootstrap" = some r → r.live now = false := by
  intro r hr
  rw [lookup_revokeWhere] at hr
  obtain ⟨r', hr', rfl⟩ := Option.map_eq_some_iff.1 hr
  rw [← Bool.not_eq_true]
  intro hlive
  have hdead := h r' hr'
  rw [live_revoked hlive] at hdead
  cases hdead

theorem dead_later {r : ApiKey E} {now d : Nat} (h : r.live now = false) : r.live (now + d) = false := by
  rw [← Bool.not_eq_true]
  intro hlive
  rw [live_earlier hlive] at h
  cases h

theorem kept_issueKey {s : Registry E} (h : s.Consistent) (principalId principalType : String) (keyId : Option String)
    (seconds : Int) (generated secret : UrlsafeToken) (salt : E.Salt) :
    s.Kept (.issueKey principalId principalType keyId seconds generated secret salt) := by
  cases hchecks : issueChecks E s.now principalId keyId generated seconds with
  | error e =>
    refine .unchanged h ?_ fun t ht => by rw [hchecks] at ht; cases ht
    show s.issue .. = s
    rw [Registry.issue, issueKey, hchecks]
    rfl
  | ok checked =>
    obtain ⟨k, t⟩ := checked
    obtain ⟨hsupported, ht⟩ := issueChecks_eq_ok hchecks
    cases hfresh : s.keys.hasKey k with
    | true =>
      refine .unchanged h ?_ fun t' ht' => ?_
      · show s.issue .. = s
        rw [Registry.issue, issueKey, hchecks]
        simp [bind, Except.bind, insertKey, ApiKey.of, hfresh]
      · rw [hchecks] at ht'
        cases ht'
        exact hfresh
    | false =>
      have hstep : s.step (.issueKey principalId principalType keyId seconds generated secret salt) =
          { s with
            keys := s.keys.insertOrIgnore (.of ⟨k, secret.text⟩ salt principalId principalType (some t))
            granted := ⟨k, Credential.text ⟨k, secret.text⟩, principalId⟩ :: s.granted } := by
        show s.issue .. = _
        rw [Registry.issue, issueKey, hchecks]
        simp [bind, Except.bind, pure, Except.pure, insertKey, ApiKey.of, hfresh]
      have hnames := names_of ⟨k, secret.text⟩ salt principalId principalType (some t)
        (supportedKeyId_noDot hsupported) (supportedKeyId_ne hsupported) secret.nonempty secret.noDot
      refine ⟨by rw [hstep]; exact h.insert hfresh hnames, fun halias hrevived => ?_⟩
      rw [hstep, and_iff_left hrevived]
      refine (unaliased_insert halias hfresh (live_of _ _ _ _ fun t' ht' => ?_)).trans ?_
      · cases ht'
        exact ht
      · constructor
        · intro hne t' ht'
          rw [hchecks] at ht'
          cases ht'
          exact absurd rfl hne
        · rintro hsensible rfl
          rw [hsensible t hchecks] at hfresh
          cases hfresh

theorem kept_bootstrapLegacyKey {s : Registry E} (h : s.Consistent) (secret principalId : Option String)
    (principalType : String) (salt : E.Salt) : s.Kept (.bootstrapLegacyKey secret principalId principalType salt) := by
  cases hlegacy : legacyKey s.keys secret principalId with
  | none =>
    refine .unchanged h ?_ hlegacy
    show s.bootstrap .. = s
    rw [Registry.bootstrap, bootstrapLegacyKey, hlegacy]
    rfl
  | some named =>
    obtain ⟨text, principal⟩ := named
    obtain ⟨hfresh, htext⟩ : s.keys.hasKey "bootstrap" = false ∧ text ≠ "" := by
      unfold legacyKey at hlegacy
      split at hlegacy
      · next hsecret _ =>
        split at hlegacy
        · cases hlegacy
        · next hkey =>
          cases hlegacy
          exact ⟨by simpa using hkey, by simpa using (Option.filter_eq_some_iff.1 hsecret).2⟩
      · cases hlegacy
    have hstep : s.step (.bootstrapLegacyKey secret principalId principalType salt) =
        { s with
          keys := s.keys.insertOrIgnore (.of ⟨"bootstrap", text⟩ salt principal principalType none)
          granted := ⟨"bootstrap", text, principal⟩ :: s.granted } := by
      show s.bootstrap .. = _
      rw [Registry.bootstrap, bootstrapLegacyKey, hlegacy]
      rfl
    have hnames : GrantedKey.Names ⟨"bootstrap", text, principal⟩
        (ApiKey.of ⟨"bootstrap", text⟩ salt principal principalType none : ApiKey E) :=
      ⟨rfl, rfl, by simp, by simp, text, htext, rfl, .inr ⟨rfl, rfl⟩⟩
    refine ⟨by rw [hstep]; exact h.insert hfresh hnames, fun halias hrevived => ?_⟩
    rw [hstep, and_iff_left hrevived]
    refine (unaliased_insert halias hfresh (live_of _ _ _ _ fun t' ht' => by cases ht')).trans ?_
    refine iff_of_false (fun hne => hne rfl) fun hsensible => ?_
    rw [Registry.Sensible, hlegacy] at hsensible
    cases hsensible

theorem kept_rotateKey {s : Registry E} (h : s.Consistent) (keyId : String) (generated secret : UrlsafeToken)
    (salt : E.Salt) : s.Kept (.rotateKey keyId generated secret salt) := by
  cases hactive : activeKey s.keys keyId with
  | none =>
    refine .unchanged h ?_ fun r hr => by rw [hactive] at hr; cases hr
    show s.rotate .. = s
    rw [Registry.rotate, hactive]
  | some r =>
    cases hexpiry : expiryTimestamp E s.now defaultApiKeyTtlSeconds with
    | error e =>
      refine .unchanged h ?_ fun _ _ _ hok => ?_
      · show s.rotate .. = s
        rw [Registry.rotate, hactive, rotateKey, hexpiry]
        rfl
      · obtain ⟨t, ht⟩ := hok
        rw [hexpiry] at ht
        cases ht
    | ok t =>
      cases hfresh : s.keys.hasKey (generatedKeyId generated) with
      | true =>
        refine .unchanged h ?_ fun _ _ hnot _ => ?_
        · show s.rotate .. = s
          rw [Registry.rotate, hactive, rotateKey, hexpiry]
          simp [bind, Except.bind, hactive, insertKey, ApiKey.of, hfresh]
        · rw [hfresh] at hnot
          cases hnot
      | false =>
        have hstep : s.step (.rotateKey keyId generated secret salt) =
            { s with
              keys := revokeWhere (s.keys.insertOrIgnore
                (.of ⟨generatedKeyId generated, secret.text⟩ salt r.principalId r.principalType (some t))) keyId
              granted := ⟨generatedKeyId generated, Credential.text ⟨generatedKeyId generated, secret.text⟩,
                r.principalId⟩ :: s.granted
              revived := if r.live s.now then s.revived else keyId :: s.revived } := by
          show s.rotate .. = _
          rw [Registry.rotate, hactive, rotateKey, hexpiry]
          simp [bind, Except.bind, pure, Except.pure, hactive, insertKey, ApiKey.of, hfresh]
        have hnames := names_of ⟨generatedKeyId generated, secret.text⟩ salt r.principalId r.principalType (some t)
          (generatedKeyId_noDot generated) (generatedKeyId_ne_empty generated) secret.nonempty secret.noDot
        have hconsistent := (h.insert hfresh hnames).revoke keyId
        refine ⟨by rw [hstep]; exact ⟨hconsistent.row, hconsistent.credential, hconsistent.unique, hconsistent.ended⟩,
          fun halias hrevived => ?_⟩
        have hstatus : r.status = .active := of_decide_eq_true (Option.filter_eq_some_iff.1 hactive).2
        have hunaliased : (s.step (.rotateKey keyId generated secret salt)).Unaliased := by
          rw [hstep]
          exact unaliased_revoke ((unaliased_insert halias hfresh (live_of _ _ _ _ fun t' ht' => by
            cases ht'
            exact expiryTimestamp_gt hexpiry)).2 (generatedKeyId_ne generated))
        rw [and_iff_right hunaliased, hstep]
        constructor
        · intro hrev r' hr' _ _
          rw [hactive] at hr'
          obtain rfl := Option.some.inj hr'
          by_contra hexpired
          rw [Bool.not_eq_false] at hexpired
          simp [ApiKey.live, hexpired] at hrev
        · intro hsensible
          have hunexpired := hsensible r hactive hfresh ⟨t, hexpiry⟩
          simp [ApiKey.live, hstatus, hunexpired, hrevived]

theorem kept_step {s : Registry E} (h : s.Consistent) (op : KeyOperation E) : s.Kept op := by
  cases op with
  | issueKey principalId principalType keyId seconds generated secret salt => exact kept_issueKey h ..
  | bootstrapLegacyKey secret principalId principalType salt => exact kept_bootstrapLegacyKey h ..
  | rotateKey keyId generated secret salt => exact kept_rotateKey h ..
  | revokeKey keyId =>
    exact ⟨h.revoke keyId, fun halias hrevived => iff_of_true ⟨unaliased_revoke halias, hrevived⟩ trivial⟩
  | tick d =>
    refine ⟨⟨h.row, h.credential, h.unique, fun k hk => ?_⟩, fun halias hrevived =>
      iff_of_true ⟨fun r hr => ?_, hrevived⟩ trivial⟩
    · obtain ⟨r, hr, hdead⟩ := h.ended k hk
      exact ⟨r, hr, dead_later hdead⟩
    · exact dead_later (halias r hr)

/-! ## Runs -/

theorem Registry.Consistent.exec {s : Registry E} (h : s.Consistent) (op : KeyOperation E) : (s.exec op).Consistent :=
  (kept_step h op).1.note

/-- Over every run: the registry is sound in every state exactly when no operation creates a key
`bootstrap` and every rotation replaces a key that has not expired. -/
theorem keys_sound_iff (now : Nat) (operations : List (KeyOperation E)) :
    Throughout Registry.exec Registry.Sound (.start E now) operations ↔
      Along Registry.exec Registry.Sensible (.start E now) operations := by
  have hstart : (Registry.start E now).Consistent := ⟨by simp [Registry.start], by simp [Registry.start],
    by simp [Registry.start], by simp [Registry.start]⟩
  refine throughout_iff_along (I := Registry.Consistent) (fun _ op h => h.exec op) (fun s op h hp => ?_) hstart
    ((sound_iff hstart).2 ⟨fun _ hr => absurd hr (by simp [Registry.start]), rfl⟩)
  obtain ⟨halias, hrevived⟩ := (sound_iff h).1 hp
  rw [sound_iff (h.exec op)]
  exact (kept_step h op).2 halias hrevived

/-- Digests that are the secrets themselves. -/
def plainEnv : KeyEnv where
  Salt := Unit
  Digest := String
  digestEq := inferInstance
  digest secret _ := secret
  digest_injective _ _ _ h := h
  isAlnum := Char.isAlphanum
  isAlnum_dot := rfl
  latest := 10 ^ 18

def oldToken : UrlsafeToken := ⟨"old", by decide, by decide⟩

def newToken : UrlsafeToken := ⟨"new", by decide, by decide⟩

/-- A key is issued for a second, and rotated two seconds later. -/
def lateRotation : Registry plainEnv :=
  run Registry.exec (.start plainEnv 0)
    [.issueKey "p" "SERVICE" (some "k") 1 oldToken oldToken (), .tick 2000000, .rotateKey "k" newToken newToken ()]

/-- A legacy secret is bootstrapped. -/
def bootstrapped (secret : String) : Registry plainEnv :=
  run Registry.exec (.start plainEnv 0) [.bootstrapLegacyKey (some secret) (some "p") "SERVICE" ()]

/-- The rotation of the expired key gives its principal access again; a legacy secret with a dot is
refused, and one without is accepted in a second form. -/
theorem ended_key_rotates :
    (verify lateRotation.keys lateRotation.now "k.old" = none ∧
      verify lateRotation.keys lateRotation.now "mk_new.new" = some ⟨"mk_new", "p", "SERVICE"⟩ ∧
      lateRotation.revived = ["k"]) ∧
    verify (bootstrapped "a.b").keys 0 "a.b" = none ∧
    verify (bootstrapped "ab").keys 0 "bootstrap.ab" = some ⟨"bootstrap", "p", "SERVICE"⟩ := by
  decide +kernel

end Mesa.Security
