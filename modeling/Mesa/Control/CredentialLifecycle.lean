/-
The life of gateway credentials over runs: which tokens are accepted, that of the credentials one
issue leads to by rotations at most one is, and that a credential that has ended gives no access any
more. A rotation asks for the status of the credential it replaces and not for its expiry.
-/
import Mesa.Control.Credentials

namespace Mesa.Control

open Mesa.Foundation

variable {E : CredentialEnv}

/-! ## Runs -/

/-- A token that `issue` or `rotate` returned, with the credential at the root of its rotations, and
whether one of these rotations replaced a credential that had already ended. -/
structure IssuedToken where
  credentialId : List Char
  token : List Char
  root : List Char
  late : Bool
  deriving DecidableEq

/-- The control database at a time. Nothing in the repositories reads the other fields: the tokens so
far, and the credentials that have been seen revoked or expired. -/
structure Gateway (E : CredentialEnv) where
  db : ControlDb E
  now : Nat
  issued : List IssuedToken
  ended : List (List Char)

/-- No credentials yet. -/
def Gateway.start (E : CredentialEnv) (clients : Table Client) (bindings : Table ProjectBinding) (now : Nat) : Gateway E :=
  ⟨⟨.empty, clients, bindings⟩, now, [], []⟩

inductive ControlStep
  | createClient (clientId : String)
  | addProjectBinding (clientId externalProjectId : String)
  | toggleClientEnabled (clientId : String) (enabled : Bool)
  | updateBindingEnabled (bindingId : String) (enabled : Bool)
  | issue (clientId bindingId : String) (tokenKind : List Char) (expiresInSeconds : Int) (hex secret : List Char)
  | rotate (credentialId : List Char) (expiresInSeconds : Int) (hex secret : List Char)
  | revoke (credentialId : List Char)
  | tick (microseconds : Nat)

def Credential.live (r : Credential E) (now : Nat) : Bool := decide (r.status = .active) && !r.expired now

/-- The record of a rotation: the token descends from the one of the credential it replaces. -/
def Gateway.descendant (s : Gateway E) (credentialId replacementId token : List Char) : IssuedToken :=
  match s.issued.find? (·.credentialId = credentialId) with
  | none => ⟨replacementId, token, replacementId, false⟩
  | some g => ⟨replacementId, token, g.root, g.late || (s.db.credentials.lookup credentialId).any fun r => !r.live s.now⟩

def Gateway.step (s : Gateway E) : ControlStep → Gateway E
  | .createClient clientId =>
    match createClient s.db clientId with
    | .ok db => { s with db }
    | .error _ => s
  | .addProjectBinding clientId externalProjectId =>
    match addProjectBinding s.db clientId externalProjectId with
    | .ok (db, _) => { s with db }
    | .error _ => s
  | .toggleClientEnabled clientId enabled => { s with db := toggleClientEnabled s.db clientId enabled }
  | .updateBindingEnabled bindingId enabled => { s with db := updateBindingEnabled s.db bindingId enabled }
  | .issue clientId bindingId tokenKind expiresInSeconds hex secret =>
    match issue s.db s.now clientId bindingId tokenKind expiresInSeconds hex secret with
    | .ok (db, credentialId, token) => { s with db, issued := ⟨credentialId, token, credentialId, false⟩ :: s.issued }
    | .error _ => s
  | .rotate credentialId expiresInSeconds hex secret =>
    match rotate s.db s.now credentialId expiresInSeconds hex secret with
    | .ok (db, replacementId, token) => { s with db, issued := s.descendant credentialId replacementId token :: s.issued }
    | .error _ => s
  | .revoke credentialId => { s with db := (revoke s.db credentialId).1 }
  | .tick microseconds => { s with now := s.now + microseconds }

/-- The credentials that are revoked or expired are noted. -/
def Gateway.note (s : Gateway E) : Gateway E :=
  { s with ended := ((s.db.credentials.select fun r => !r.live s.now).map (·.credentialId)) ++ s.ended }

def Gateway.exec (s : Gateway E) (op : ControlStep) : Gateway E := (s.step op).note

/-! ## What the credentials are for -/

/-- The client and the binding of a credential are enabled. -/
def ControlDb.Enables (db : ControlDb E) (r : Credential E) : Prop :=
  (∃ c, db.clients.lookup r.clientId = some c ∧ c.enabled = true) ∧
    ∃ b, db.bindings.lookup r.bindingId = some b ∧ b.enabled = true

def Gateway.Accepts (s : Gateway E) (token : List Char) : Prop := (authenticate s.db s.now token).isSome

instance (s : Gateway E) (token : List Char) : Decidable (s.Accepts token) :=
  inferInstanceAs (Decidable ((authenticate s.db s.now token).isSome = true))

/-- A token is accepted exactly while its credential is active and unexpired and its client and binding
are enabled; of the tokens with one root at most one is; and no token is whose credential has ended, or
descends by a rotation from one that had. -/
structure Gateway.Sound (s : Gateway E) : Prop where
  accepts : ∀ token r, authenticate s.db s.now token = some r ↔ ∃ g ∈ s.issued, g.token = token ∧
    s.db.credentials.lookup g.credentialId = some r ∧ r.live s.now = true ∧ s.db.Enables r
  single : ∀ g ∈ s.issued, ∀ g' ∈ s.issued, g.root = g'.root → s.Accepts g.token → s.Accepts g'.token → g = g'
  ended : ∀ g ∈ s.issued, s.Accepts g.token → g.credentialId ∉ s.ended ∧ g.late = false

/-- A rotation with a valid lifetime names no active credential that has expired. -/
def Gateway.Timely (s : Gateway E) : ControlStep → Prop
  | .rotate credentialId expiresInSeconds _ _ => 0 < expiresInSeconds →
      ∀ r, activeCredential s.db credentialId = some r → r.expired s.now = false
  | _ => True

/-! ## Operations -/

theorem insertCredential_eq_ok {db db' : ControlDb E} {r : Credential E} (h : insertCredential db r = .ok db') :
    db.credentials.lookup r.credentialId = none ∧ (∀ r' ∈ db.credentials.rows, r'.tokenHash ≠ r.tokenHash) ∧
      db' = { db with credentials := db.credentials.insertOrIgnore r } := by
  unfold insertCredential at h
  split at h
  · cases h
  · next hconstraints =>
    simp only [not_or] at hconstraints
    obtain ⟨hkey, hhash, -, -⟩ := hconstraints
    refine ⟨Table.hasKey_eq_false.1 (by simpa using hkey), fun r' hr' heq => hhash ?_, (Except.ok.inj h).symm⟩
    exact Table.anyWhere_iff.2 ⟨r', hr', by simpa using heq⟩

theorem issue_eq_ok {db db' : ControlDb E} {now : Nat} {clientId bindingId : String} {tokenKind : List Char}
    {expiresInSeconds : Int} {hex secret credentialId token : List Char}
    (h : issue db now clientId bindingId tokenKind expiresInSeconds hex secret = .ok (db', credentialId, token)) :
    ∃ expiresAt, insertCredential db (.of E credentialId clientId bindingId token expiresAt) = .ok db' := by
  unfold issue at h
  dsimp only at h
  split at h
  · cases h
  split at h
  · cases h
  obtain ⟨expiresAt, -, h⟩ := bind_eq_ok.1 h
  obtain ⟨db₁, hinsert, h⟩ := bind_eq_ok.1 h
  cases h
  exact ⟨expiresAt, hinsert⟩

theorem rotate_eq_ok {db db' : ControlDb E} {now : Nat} {credentialId : List Char} {expiresInSeconds : Int}
    {hex secret replacementId token : List Char}
    (h : rotate db now credentialId expiresInSeconds hex secret = .ok (db', replacementId, token)) :
    0 < expiresInSeconds ∧ ∃ previous, activeCredential db credentialId = some previous ∧ ∃ expiresAt db₁,
      insertCredential db (.of E replacementId previous.clientId previous.bindingId token expiresAt) = .ok db₁ ∧
      db' = revokeWhere db₁ credentialId := by
  unfold rotate at h
  split at h
  · cases h
  next hpositive =>
  obtain ⟨expiresAt, -, h⟩ := bind_eq_ok.1 h
  cases hactive : activeCredential db credentialId with
  | none => rw [hactive] at h; cases h
  | some previous =>
    rw [hactive] at h
    obtain ⟨tokenKind, -, h⟩ := bind_eq_ok.1 h
    obtain ⟨db₁, hinsert, h⟩ := bind_eq_ok.1 h
    split at h
    · cases h
    · cases h
      exact ⟨by omega, previous, rfl, expiresAt, db₁, hinsert, rfl⟩

theorem live_iff {r : Credential E} {now : Nat} : r.live now = true ↔ r.status = .active ∧ r.expired now = false := by
  simp [Credential.live]

/-- Where hashes differ, `authenticate` finds the one row of a token. -/
theorem authenticate_eq_some {db : ControlDb E} {now : Nat} {token : List Char} {r : Credential E}
    (hunique : ∀ r ∈ db.credentials.rows, ∀ r' ∈ db.credentials.rows, r.tokenHash = r'.tokenHash → r = r') :
    authenticate db now token = some r ↔
      r ∈ db.credentials.rows ∧ r.tokenHash = E.tokenHash token ∧ r.live now = true ∧ db.Enables r := by
  have hselected : ∀ r', (r' ∈ db.credentials.select fun r =>
      decide (r.tokenHash = E.tokenHash token ∧ r.status = .active) && !r.expired now) ↔
        r' ∈ db.credentials.rows ∧ r'.tokenHash = E.tokenHash token ∧ r'.live now = true := by
    intro r'
    rw [Table.mem_select, live_iff, Bool.and_eq_true, decide_eq_true_iff, Bool.not_eq_eq_eq_not, Bool.not_true, and_assoc]
  unfold authenticate selectToken
  constructor
  · intro h
    split at h
    · cases h
    · next r' c b hfound =>
      split at h
      · cases h
      · next henabled =>
        cases h
        obtain ⟨r₀, hr₀, hjoin⟩ := List.exists_of_findSome?_eq_some hfound
        obtain ⟨c', hc, hjoin⟩ := Option.bind_eq_some_iff.1 hjoin
        obtain ⟨b', hb, hjoin⟩ := Option.bind_eq_some_iff.1 hjoin
        cases hjoin
        obtain ⟨hrow, hhash, hlive⟩ := (hselected _).1 hr₀
        simp only [Bool.or_eq_true, Bool.not_eq_eq_eq_not, Bool.not_true, not_or, Bool.not_eq_false] at henabled
        exact ⟨hrow, hhash, hlive, ⟨c, hc, henabled.1⟩, ⟨b, hb, henabled.2⟩⟩
  · rintro ⟨hrow, hhash, hlive, ⟨c, hc, hcEnabled⟩, ⟨b, hb, hbEnabled⟩⟩
    have honly : ∀ r' ∈ db.credentials.select (fun r =>
        decide (r.tokenHash = E.tokenHash token ∧ r.status = .active) && !r.expired now), r' = r := fun r' hr' => by
      obtain ⟨hrow', hhash', -⟩ := (hselected r').1 hr'
      exact hunique r' hrow' r hrow (hhash'.trans hhash.symm)
    have hmem := (hselected r).2 ⟨hrow, hhash, hlive⟩
    cases hlist : db.credentials.select (fun r =>
        decide (r.tokenHash = E.tokenHash token ∧ r.status = .active) && !r.expired now) with
    | nil => rw [hlist] at hmem; cases hmem
    | cons r' rest =>
      obtain rfl := honly r' (by rw [hlist]; exact List.mem_cons_self)
      simp [hc, hb, hcEnabled, hbEnabled]

/-! ## The invariant -/

/-- Each credential has one token, each token a credential with its hash, and the ended credentials stay
ended. -/
structure Gateway.Recorded (s : Gateway E) : Prop where
  row : ∀ g ∈ s.issued, ∃ r, s.db.credentials.lookup g.credentialId = some r ∧ r.tokenHash = E.tokenHash g.token
  token : ∀ r ∈ s.db.credentials.rows, ∃ g ∈ s.issued, g.credentialId = r.credentialId
  unique : ∀ g ∈ s.issued, ∀ g' ∈ s.issued, g.credentialId = g'.credentialId → g = g'
  hashes : ∀ r ∈ s.db.credentials.rows, ∀ r' ∈ s.db.credentials.rows, r.tokenHash = r'.tokenHash → r = r'
  rooted : ∀ g ∈ s.issued, s.db.credentials.lookup g.root ≠ none
  ended : ∀ k ∈ s.ended, ∃ r, s.db.credentials.lookup k = some r ∧ r.live s.now = false

/-- Of the tokens with one root at most one has an active credential. -/
def Gateway.Replaced (s : Gateway E) : Prop := ∀ g ∈ s.issued, ∀ g' ∈ s.issued, g.root = g'.root →
  (activeCredential s.db g.credentialId).isSome → (activeCredential s.db g'.credentialId).isSome → g = g'

structure Gateway.Consistent (s : Gateway E) : Prop extends s.Recorded where
  replaced : s.Replaced

/-- No rotation replaced a credential that had ended. -/
def Gateway.OnTime (s : Gateway E) : Prop := ∀ g ∈ s.issued, g.late = false

theorem activeCredential_eq_some {db : ControlDb E} {k : List Char} {r : Credential E} :
    activeCredential db k = some r ↔ db.credentials.lookup k = some r ∧ r.status = .active := by
  rw [activeCredential, Option.filter_eq_some_iff, decide_eq_true_iff]

/-- What an accepted token is in a consistent state. -/
theorem Gateway.Recorded.accepts {s : Gateway E} (h : s.Recorded) (token : List Char) (r : Credential E) :
    authenticate s.db s.now token = some r ↔ ∃ g ∈ s.issued, g.token = token ∧
      s.db.credentials.lookup g.credentialId = some r ∧ r.live s.now = true ∧ s.db.Enables r := by
  rw [authenticate_eq_some h.hashes]
  constructor
  · rintro ⟨hrow, hhash, hlive, henabled⟩
    obtain ⟨g, hg, hid⟩ := h.token r hrow
    obtain ⟨r', hr', hhash'⟩ := h.row g hg
    have hlookup : s.db.credentials.lookup r.credentialId = some r := Table.lookup_of_mem hrow
    rw [hid, hlookup] at hr'
    obtain rfl := Option.some.inj hr'
    exact ⟨g, hg, E.tokenHash_injective _ _ (hhash'.symm.trans hhash), by rw [hid]; exact hlookup, hlive, henabled⟩
  · rintro ⟨g, hg, rfl, hr, hlive, henabled⟩
    obtain ⟨r', hr', hhash⟩ := h.row g hg
    rw [hr] at hr'
    obtain rfl := Option.some.inj hr'
    exact ⟨Table.lookup_mem hr, hhash, hlive, henabled⟩

/-- The credential of an accepted token is live. -/
theorem Gateway.Recorded.live_of_accepts {s : Gateway E} (h : s.Recorded) {g : IssuedToken} (hg : g ∈ s.issued)
    (haccepts : s.Accepts g.token) :
    ∃ r, s.db.credentials.lookup g.credentialId = some r ∧ r.live s.now = true := by
  obtain ⟨r, hr⟩ := Option.isSome_iff_exists.1 haccepts
  obtain ⟨g', hg', htoken, hr', hlive, -⟩ := (h.accepts g.token r).1 hr
  obtain ⟨r₁, hr₁, hhash₁⟩ := h.row g hg
  obtain ⟨r₂, hr₂, hhash₂⟩ := h.row g' hg'
  rw [htoken, ← hhash₁] at hhash₂
  obtain rfl := h.hashes r₂ (Table.lookup_mem hr₂) r₁ (Table.lookup_mem hr₁) hhash₂
  rw [hr'] at hr₂
  obtain rfl := Option.some.inj hr₂
  exact ⟨r, hr₁, hlive⟩

theorem Gateway.Consistent.sound {s : Gateway E} (h : s.Consistent) (honTime : s.OnTime) : s.Sound := by
  have hactive : ∀ g ∈ s.issued, s.Accepts g.token → (activeCredential s.db g.credentialId).isSome := by
    intro g hg haccepts
    obtain ⟨r, hr, hlive⟩ := h.live_of_accepts hg haccepts
    exact Option.isSome_iff_exists.2 ⟨r, activeCredential_eq_some.2 ⟨hr, (live_iff.1 hlive).1⟩⟩
  refine ⟨h.accepts, fun g hg g' hg' hroot haccepts haccepts' => ?_, fun g hg haccepts => ⟨fun hended => ?_, honTime g hg⟩⟩
  · exact h.replaced g hg g' hg' hroot (hactive g hg haccepts) (hactive g' hg' haccepts')
  · obtain ⟨r, hr, hlive⟩ := h.live_of_accepts hg haccepts
    obtain ⟨r', hr', hdead⟩ := h.ended _ hended
    rw [hr] at hr'
    obtain rfl := Option.some.inj hr'
    rw [hlive] at hdead
    cases hdead

/-! ## Steps -/

/-- A new row with its token. -/
theorem Gateway.Recorded.insert {s : Gateway E} (h : s.Recorded) {r : Credential E} {g : IssuedToken}
    (hfresh : s.db.credentials.lookup r.credentialId = none)
    (hhash : ∀ r' ∈ s.db.credentials.rows, r'.tokenHash ≠ r.tokenHash) (hid : g.credentialId = r.credentialId)
    (htoken : r.tokenHash = E.tokenHash g.token)
    (hroot : g.root = r.credentialId ∨ s.db.credentials.lookup g.root ≠ none) :
    Gateway.Recorded { s with
      db := { s.db with credentials := s.db.credentials.insertOrIgnore r }, issued := g :: s.issued } := by
  have hkept : ∀ {k r'}, s.db.credentials.lookup k = some r' →
      (s.db.credentials.insertOrIgnore r).lookup k = some r' := by
    intro k r' hr'
    rw [Table.lookup_insertOrIgnore, hr']
    rfl
  have hself : (s.db.credentials.insertOrIgnore r).lookup r.credentialId = some r := by
    rw [Table.lookup_insertOrIgnore, hfresh]
    simp [Keyed.key]
  have hrows : ∀ r', r' ∈ (s.db.credentials.insertOrIgnore r).rows → r' ∈ s.db.credentials.rows ∨ r' = r :=
    fun r' hr' => (Table.mem_insertOrIgnore.1 hr').imp_right fun hr' => hr'.1
  have hother : ∀ g' ∈ s.issued, g'.credentialId ≠ r.credentialId := by
    intro g' hg' heq
    obtain ⟨r', hr', -⟩ := h.row g' hg'
    rw [heq, hfresh] at hr'
    cases hr'
  have hrooted : ∀ k, s.db.credentials.lookup k ≠ none → (s.db.credentials.insertOrIgnore r).lookup k ≠ none := by
    intro k hk
    obtain ⟨r', hr'⟩ := Option.ne_none_iff_exists'.1 hk
    rw [hkept hr']
    exact Option.some_ne_none r'
  refine ⟨?_, ?_, ?_, ?_, ?_, ?_⟩
  · intro g' hg'
    rcases List.mem_cons.1 hg' with rfl | hg'
    · exact ⟨r, by rw [hid]; exact hself, htoken⟩
    · obtain ⟨r', hr', hhash'⟩ := h.row g' hg'
      exact ⟨r', hkept hr', hhash'⟩
  · intro r' hr'
    rcases hrows r' hr' with hr' | rfl
    · obtain ⟨g', hg', hk⟩ := h.token r' hr'
      exact ⟨g', List.mem_cons_of_mem _ hg', hk⟩
    · exact ⟨g, List.mem_cons_self, hid⟩
  · intro a ha b hb hab
    rcases List.mem_cons.1 ha with hag | hag <;> rcases List.mem_cons.1 hb with hbg | hbg
    · rw [hag, hbg]
    · exact absurd (hab.symm.trans (hag ▸ hid)) (hother b hbg)
    · exact absurd (hab.trans (hbg ▸ hid)) (hother a hag)
    · exact h.unique a hag b hbg hab
  · intro a ha b hb hab
    rcases hrows a ha with har | har <;> rcases hrows b hb with hbr | hbr
    · exact h.hashes a har b hbr hab
    · exact absurd (hbr ▸ hab) (hhash a har)
    · exact absurd (har ▸ hab.symm) (hhash b hbr)
    · rw [har, hbr]
  · intro g' hg'
    rcases List.mem_cons.1 hg' with rfl | hg'
    · rcases hroot with hroot | hroot
      · show (s.db.credentials.insertOrIgnore r).lookup g'.root ≠ none
        rw [hroot, hself]
        exact Option.some_ne_none r
      · exact hrooted _ hroot
    · exact hrooted _ (h.rooted g' hg')
  · intro k hk
    obtain ⟨r', hr', hdead⟩ := h.ended k hk
    exact ⟨r', hkept hr', hdead⟩

theorem lookup_revokeWhere (db : ControlDb E) (credentialId k : List Char) :
    (revokeWhere db credentialId).credentials.lookup k = (db.credentials.lookup k).map fun r =>
      if r.credentialId = credentialId ∧ r.status = .active then { r with status := .revoked } else r := by
  rw [revokeWhere, Table.lookup_update]
  simp only [decide_eq_true_eq]

/-- A revocation leaves no active row of the credential, and the other rows as they are. -/
theorem activeCredential_revokeWhere (db : ControlDb E) (credentialId k : List Char) :
    activeCredential (revokeWhere db credentialId) k =
      if k = credentialId then none else activeCredential db k := by
  unfold activeCredential
  rw [lookup_revokeWhere]
  cases hr : db.credentials.lookup k with
  | none => simp
  | some r =>
    have hkey : r.credentialId = k := Table.lookup_key hr
    by_cases hk : k = credentialId <;> by_cases hstatus : r.status = .active <;> simp [hkey, hk, hstatus]

theorem Gateway.Recorded.revoke {s : Gateway E} (h : s.Recorded) (credentialId : List Char) :
    Gateway.Recorded { s with db := revokeWhere s.db credentialId } := by
  have hfound : ∀ {k r}, s.db.credentials.lookup k = some r → (revokeWhere s.db credentialId).credentials.lookup k =
      some (if r.credentialId = credentialId ∧ r.status = .active then { r with status := .revoked } else r) := by
    intro k r hr
    rw [lookup_revokeWhere, hr]
    rfl
  refine ⟨?_, ?_, h.unique, ?_, ?_, ?_⟩
  · intro g hg
    obtain ⟨r, hr, hhash⟩ := h.row g hg
    refine ⟨_, hfound hr, ?_⟩
    split <;> exact hhash
  · intro r hr
    obtain ⟨r', hr', rfl⟩ := Table.mem_updated.1 hr
    obtain ⟨g, hg, hk⟩ := h.token r' hr'
    refine ⟨g, hg, ?_⟩
    split <;> exact hk
  · intro a ha b hb hab
    obtain ⟨a', ha', rfl⟩ := Table.mem_updated.1 ha
    obtain ⟨b', hb', rfl⟩ := Table.mem_updated.1 hb
    have heq : a'.tokenHash = b'.tokenHash := by
      split at hab <;> split at hab <;> exact hab
    obtain rfl := h.hashes a' ha' b' hb' heq
    rfl
  · intro g hg hnone
    rw [lookup_revokeWhere, Option.map_eq_none_iff] at hnone
    exact h.rooted g hg hnone
  · intro k hk
    obtain ⟨r, hr, hdead⟩ := h.ended k hk
    refine ⟨_, hfound hr, ?_⟩
    split
    · rfl
    · exact hdead

theorem dead_later {r : Credential E} {now d : Nat} (h : r.live now = false) : r.live (now + d) = false := by
  unfold Credential.live Credential.expired at *
  cases hexpiry : r.expiresAt with
  | none => simpa [hexpiry] using h
  | some t =>
    simp only [hexpiry, Option.any_some, Bool.and_eq_false_iff, Bool.not_eq_eq_eq_not, Bool.not_false,
      decide_eq_true_eq, decide_eq_false_iff_not] at h ⊢
    exact h.imp_right fun ht => by omega

theorem Gateway.Consistent.note {s : Gateway E} (h : s.Consistent) : s.note.Consistent := by
  refine ⟨⟨h.row, h.token, h.unique, h.hashes, h.rooted, fun k hk => ?_⟩, h.replaced⟩
  rcases List.mem_append.1 hk with hk | hk
  · obtain ⟨r, hr, rfl⟩ := List.mem_map.1 hk
    obtain ⟨hrow, hdead⟩ := Table.mem_select.1 hr
    refine ⟨r, Table.lookup_of_mem hrow, ?_⟩
    show r.live s.now = false
    simpa using hdead
  · exact h.ended k hk

/-- An issue: its token is at the root of its own rotations. -/
theorem Gateway.Consistent.issue {s : Gateway E} (h : s.Consistent) {clientId bindingId : String}
    {credentialId token : List Char} {expiresAt : Nat} {db : ControlDb E}
    (hinsert : insertCredential s.db (.of E credentialId clientId bindingId token expiresAt) = .ok db) :
    Gateway.Consistent { s with db, issued := ⟨credentialId, token, credentialId, false⟩ :: s.issued } := by
  obtain ⟨hfresh, hhash, rfl⟩ := insertCredential_eq_ok hinsert
  have hactive : ∀ {k}, k ≠ credentialId → activeCredential
      { s.db with credentials := s.db.credentials.insertOrIgnore (.of E credentialId clientId bindingId token expiresAt) }
      k = activeCredential s.db k := by
    intro k hk
    unfold activeCredential
    rw [Table.lookup_insertOrIgnore_of_ne (by exact hk.symm)]
  have hother : ∀ g ∈ s.issued, g.credentialId ≠ credentialId ∧ g.root ≠ credentialId := by
    refine fun g hg => ⟨fun heq => ?_, fun heq => h.rooted g hg (by rw [heq]; exact hfresh)⟩
    obtain ⟨r, hr, -⟩ := h.row g hg
    rw [heq] at hr
    exact absurd (hfresh.symm.trans hr) (by simp)
  refine ⟨h.toRecorded.insert hfresh hhash rfl rfl (.inl rfl), fun a ha b hb hroot haActive hbActive => ?_⟩
  rcases List.mem_cons.1 ha with hag | hag <;> rcases List.mem_cons.1 hb with hbg | hbg
  · rw [hag, hbg]
  · rw [hag] at hroot
    exact absurd hroot.symm (hother b hbg).2
  · rw [hbg] at hroot
    exact absurd hroot (hother a hag).2
  · rw [hactive (hother a hag).1] at haActive
    rw [hactive (hother b hbg).1] at hbActive
    exact h.replaced a hag b hbg hroot haActive hbActive

/-- The token of an active credential. -/
theorem Gateway.Recorded.descendant {s : Gateway E} (h : s.Recorded) {credentialId : List Char} {r : Credential E}
    (hr : s.db.credentials.lookup credentialId = some r) (replacementId token : List Char) :
    ∃ g ∈ s.issued, g.credentialId = credentialId ∧
      s.descendant credentialId replacementId token = ⟨replacementId, token, g.root, g.late || !r.live s.now⟩ := by
  have hkey : r.credentialId = credentialId := Table.lookup_key hr
  obtain ⟨g, hg, hid⟩ := h.token r (Table.lookup_mem hr)
  rw [hkey] at hid
  cases hfind : s.issued.find? (·.credentialId = credentialId) with
  | none => exact absurd (List.find?_eq_none.1 hfind g hg) (by simpa using hid)
  | some g' =>
    refine ⟨g', List.mem_of_find?_eq_some hfind, by simpa using List.find?_some hfind, ?_⟩
    unfold Gateway.descendant
    rw [hfind, hr]
    rfl

/-- A rotation: the credential it replaces is the only active one with its root, and is revoked. -/
theorem Gateway.Consistent.rotate {s : Gateway E} (h : s.Consistent) {credentialId : List Char} {previous : Credential E}
    (hprevious : activeCredential s.db credentialId = some previous) {clientId bindingId : String}
    {replacementId token : List Char} {expiresAt : Nat} {db : ControlDb E}
    (hinsert : insertCredential s.db (.of E replacementId clientId bindingId token expiresAt) = .ok db) :
    Gateway.Consistent { s with
      db := revokeWhere db credentialId, issued := s.descendant credentialId replacementId token :: s.issued } := by
  obtain ⟨hfresh, hhash, rfl⟩ := insertCredential_eq_ok hinsert
  obtain ⟨hlookup, -⟩ := activeCredential_eq_some.1 hprevious
  obtain ⟨p, hp, hpid, hdescendant⟩ := h.toRecorded.descendant hlookup replacementId token
  rw [hdescendant]
  have hinserted := h.toRecorded.insert (g := ⟨replacementId, token, p.root, p.late || !previous.live s.now⟩)
    hfresh hhash rfl rfl (.inr (h.rooted p hp))
  refine ⟨hinserted.revoke credentialId, ?_⟩
  -- an older token that is still active has another root than the replaced one
  have holder : ∀ g ∈ s.issued, (activeCredential (revokeWhere
      { s.db with credentials := s.db.credentials.insertOrIgnore (.of E replacementId clientId bindingId token expiresAt) }
      credentialId) g.credentialId).isSome → (activeCredential s.db g.credentialId).isSome ∧ g.root ≠ p.root := by
    intro g hg hactive
    rw [activeCredential_revokeWhere] at hactive
    split at hactive
    · cases hactive
    · next hne =>
      obtain ⟨r, hr, -⟩ := h.row g hg
      have hid : g.credentialId ≠ replacementId := by
        intro heq
        rw [heq] at hr
        exact absurd (hfresh.symm.trans hr) (by simp)
      unfold activeCredential at hactive
      rw [Table.lookup_insertOrIgnore_of_ne (by exact hid.symm)] at hactive
      refine ⟨hactive, fun hroot => hne ?_⟩
      rw [h.replaced g hg p hp hroot hactive (by rw [hpid, hprevious]; rfl), hpid]
  intro a ha b hb hroot haActive hbActive
  rcases List.mem_cons.1 ha with hag | hag <;> rcases List.mem_cons.1 hb with hbg | hbg
  · rw [hag, hbg]
  · rw [hag] at hroot
    exact absurd hroot.symm (holder b hbg hbActive).2
  · rw [hbg] at hroot
    exact absurd hroot (holder a hag haActive).2
  · exact h.replaced a hag b hbg hroot (holder a hag haActive).1 (holder b hbg hbActive).1

theorem Gateway.Consistent.revoke {s : Gateway E} (h : s.Consistent) (credentialId : List Char) :
    Gateway.Consistent { s with db := revokeWhere s.db credentialId } := by
  have hactive : ∀ {k}, (activeCredential (revokeWhere s.db credentialId) k).isSome →
      (activeCredential s.db k).isSome := by
    intro k hk
    rw [activeCredential_revokeWhere] at hk
    split at hk
    · cases hk
    · exact hk
  exact ⟨h.toRecorded.revoke credentialId, fun a ha b hb hroot haActive hbActive =>
    h.replaced a ha b hb hroot (hactive haActive) (hactive hbActive)⟩

/-- A step that leaves the credentials as they are. -/
theorem Gateway.Consistent.kept {s : Gateway E} (h : s.Consistent) {db : ControlDb E}
    (hdb : db.credentials = s.db.credentials) : Gateway.Consistent { s with db } := by
  obtain ⟨credentials, clients, bindings⟩ := db
  obtain rfl : credentials = s.db.credentials := hdb
  exact ⟨⟨h.row, h.token, h.unique, h.hashes, h.rooted, h.ended⟩, h.replaced⟩

theorem createClient_credentials {db db' : ControlDb E} {clientId : String} (h : createClient db clientId = .ok db') :
    db'.credentials = db.credentials := by
  unfold createClient at h
  split at h <;> cases h
  rfl

theorem addProjectBinding_credentials {db db' : ControlDb E} {clientId externalProjectId bindingId : String}
    (h : addProjectBinding db clientId externalProjectId = .ok (db', bindingId)) : db'.credentials = db.credentials := by
  unfold addProjectBinding at h
  dsimp only at h
  split at h
  · cases h
  split at h
  · cases h
    rfl
  split at h <;> cases h
  rfl

theorem Gateway.Consistent.step {s : Gateway E} (h : s.Consistent) (op : ControlStep) : (s.step op).Consistent := by
  cases op with
  | createClient clientId =>
    unfold Gateway.step
    dsimp only
    split
    · next db hdb => exact h.kept (createClient_credentials hdb)
    · exact h
  | addProjectBinding clientId externalProjectId =>
    unfold Gateway.step
    dsimp only
    split
    · next db _ hdb => exact h.kept (addProjectBinding_credentials hdb)
    · exact h
  | toggleClientEnabled clientId enabled => exact h.kept rfl
  | updateBindingEnabled bindingId enabled => exact h.kept rfl
  | issue clientId bindingId tokenKind expiresInSeconds hex secret =>
    unfold Gateway.step
    dsimp only
    split
    · next hissue =>
      obtain ⟨expiresAt, hinsert⟩ := issue_eq_ok hissue
      exact h.issue hinsert
    · exact h
  | rotate credentialId expiresInSeconds hex secret =>
    unfold Gateway.step
    dsimp only
    split
    · next hrotate =>
      obtain ⟨-, previous, hprevious, expiresAt, db₁, hinsert, rfl⟩ := rotate_eq_ok hrotate
      exact h.rotate hprevious hinsert
    · exact h
  | revoke credentialId => exact h.revoke credentialId
  | tick microseconds =>
    refine ⟨⟨h.row, h.token, h.unique, h.hashes, h.rooted, fun k hk => ?_⟩, h.replaced⟩
    obtain ⟨r, hr, hdead⟩ := h.ended k hk
    exact ⟨r, hr, dead_later hdead⟩

/-- A timely step replaces no credential that has ended. -/
theorem Gateway.OnTime.step {s : Gateway E} (h : s.Consistent) (honTime : s.OnTime) {op : ControlStep}
    (htimely : s.Timely op) : (s.step op).OnTime := by
  cases op with
  | createClient clientId =>
    unfold Gateway.step
    dsimp only
    split <;> exact honTime
  | addProjectBinding clientId externalProjectId =>
    unfold Gateway.step
    dsimp only
    split <;> exact honTime
  | issue clientId bindingId tokenKind expiresInSeconds hex secret =>
    unfold Gateway.step
    dsimp only
    split
    · intro g hg
      rcases List.mem_cons.1 hg with rfl | hg
      · rfl
      · exact honTime g hg
    · exact honTime
  | rotate credentialId expiresInSeconds hex secret =>
    unfold Gateway.step
    dsimp only
    split
    · next _ replacementId token hrotate =>
      obtain ⟨hpositive, previous, hprevious, -⟩ := rotate_eq_ok hrotate
      obtain ⟨hlookup, hstatus⟩ := activeCredential_eq_some.1 hprevious
      obtain ⟨p, hp, -, hdescendant⟩ := h.toRecorded.descendant hlookup replacementId token
      have hlive : previous.live s.now = true := live_iff.2 ⟨hstatus, htimely hpositive previous hprevious⟩
      intro g hg
      rcases List.mem_cons.1 hg with rfl | hg
      · rw [hdescendant, honTime p hp, hlive]
        rfl
      · exact honTime g hg
    · exact honTime
  | toggleClientEnabled clientId enabled => exact honTime
  | updateBindingEnabled bindingId enabled => exact honTime
  | revoke credentialId => exact honTime
  | tick microseconds => exact honTime

/-! ## Over every run -/

/-- In every run whose rotations name no active credential that has expired, the credentials are sound in
every state. -/
theorem credentials_sound (clients : Table Client) (bindings : Table ProjectBinding) (now : Nat)
    (steps : List ControlStep) (h : Along Gateway.exec Gateway.Timely (.start E clients bindings now) steps) :
    Throughout Gateway.exec Gateway.Sound (.start E clients bindings now) steps := by
  have hstart : (Gateway.start E clients bindings now).Consistent := by
    refine ⟨⟨?_, ?_, ?_, ?_, ?_, ?_⟩, ?_⟩ <;> simp [Gateway.start, Gateway.Replaced]
  refine throughout_of_invariant (I := fun s => s.Consistent ∧ s.OnTime) (fun s op hs htimely => ?_)
    (fun s hs => hs.1.sound hs.2) ⟨hstart, by simp [Gateway.start, Gateway.OnTime]⟩ h
  exact ⟨(hs.1.step op).note, hs.2.step hs.1 htimely⟩

/-- Hashes that are the tokens themselves. -/
def plainEnv : CredentialEnv where
  Digest := List Char
  digestEq := inferInstance
  tokenHash token := token
  tokenHash_injective _ _ h := h
  latest := 10 ^ 18

/-- A credential is issued for a second. -/
def issuedForASecond : List ControlStep :=
  [.createClient "c", .addProjectBinding "c" "p", .issue "c" "bnd_c_p" "codex".toList 1 ['0'] ['s']]

theorem credentials_sound_rotation : Throughout Gateway.exec Gateway.Sound (.start plainEnv .empty .empty 0)
    (issuedForASecond ++ [.tick 900000, .rotate (credentialIdOf ['0']) 60 ['1'] ['t']]) := by
  refine credentials_sound .empty .empty 0 _ ?_
  refine ⟨trivial, trivial, trivial, trivial, fun _ r hr => ?_, trivial⟩
  revert r
  decide +kernel

/-- Two seconds later it has expired, is rotated all the same, and the new token is accepted. -/
theorem expired_credential_rotates :
    let s := run Gateway.exec (.start plainEnv .empty .empty 0) (issuedForASecond ++ [.tick 2000000])
    let s' := s.exec (.rotate (credentialIdOf ['0']) 60 ['1'] ['t'])
    authenticate s.db s.now (tokenText "codex".toList (credentialIdOf ['0']) ['s']) = none ∧
      credentialIdOf ['0'] ∈ s.ended ∧
      (authenticate s'.db s'.now (tokenText "codex".toList (credentialIdOf ['1']) ['t'])).isSome ∧ ¬ s'.Sound := by
  refine ⟨by decide +kernel, by decide +kernel, by decide +kernel, fun hsound => ?_⟩
  have hended := hsound.ended ⟨credentialIdOf ['1'], tokenText "codex".toList (credentialIdOf ['1']) ['t'],
    credentialIdOf ['0'], true⟩ (by decide +kernel) (by decide +kernel)
  exact absurd hended.2 (by decide)

end Mesa.Control
