/-
The adoption of a legacy embedding identity, which fills the null columns of the mutations that own an
entity vector, and what it is for: that the provider check of a rebuild accepts the database. The check
asks the owners of assertions and of assertion vectors, too.
-/
import Mesa.Operations.Repository
import Mesa.Rebuild.Snapshot

namespace Mesa.Rebuild

open Mesa.Foundation

/-! ## The command -/

/-- The canonical database, as far as the adoption and the rebuild read it. -/
structure CanonicalDb where
  snapshot : Snapshot
  operations : Table Operations.Operation

/-- The statements of the adoption; any of them can raise a `sqlite3.DatabaseError`. -/
inductive AdoptionStep
  | begin | operations | signatures | update | changes | verify | commit
  deriving DecidableEq

inductive AdoptionFailure
  | database
  | adoption (message : String)
  deriving DecidableEq

/-- `EmbeddingIdentityAdoptionError`, by its message. -/
structure EmbeddingIdentityAdoptionError where
  message : String
  deriving DecidableEq

/-- `_ACTIVE_VECTOR_SOURCE`. -/
def Snapshot.activeVectorSource (s : Snapshot) (m : MutationRow) : Bool :=
  s.sources.anyWhere fun x => decide (x.key.mutationId = m.mutationId) && decide (x.state = .active) &&
    s.registry.anyWhere fun r => decide (r.key = x.key.registry) && decide (r.state = .active) &&
      decide (r.key.artifact.storeName = .vector) && decide (r.key.artifact.artifactKind = .entityVector)

/-- The distinct identities of the mutations that own an entity vector. -/
def Snapshot.adoptedSignatures (s : Snapshot) : List EmbeddingIdentity :=
  ((s.mutations.select s.activeVectorSource).map (·.embedding)).dedup

/-- A column that is not null and differs from the asserted one. -/
def EmbeddingIdentity.conflicts (e : EmbeddingIdentity) (expected : ProviderSignature) : Bool :=
  e.provider.any (· ≠ expected.provider) || e.model.any (· ≠ expected.model) ||
    e.version.any (· ≠ expected.version) || e.dimension.any (· ≠ (expected.dimension : Int))

/-- The columns with `COALESCE`. -/
def EmbeddingIdentity.filled (e : EmbeddingIdentity) (expected : ProviderSignature) : EmbeddingIdentity :=
  ⟨e.provider.or (some expected.provider), e.model.or (some expected.model), e.version.or (some expected.version),
    e.dimension.or (some expected.dimension)⟩

def EmbeddingIdentity.hasNull (e : EmbeddingIdentity) : Bool :=
  e.provider.isNone || e.model.isNone || e.version.isNone || e.dimension.isNone

/-- The rows that the UPDATE is about. -/
def Snapshot.adopted (s : Snapshot) (m : MutationRow) : Bool := s.activeVectorSource m && m.embedding.hasNull

/-- The UPDATE. -/
def Snapshot.fill (s : Snapshot) (expected : ProviderSignature) : Snapshot :=
  { s with
    mutations := s.mutations.update s.adopted fun m => { m with embedding := m.embedding.filled expected }
    owners := fun x hx => by
      have h := s.owners x hx
      rw [Table.hasKey_iff, Table.lookup_update] at *
      simpa using h }

def adoptionStatement (failing : AdoptionStep → Bool) (step : AdoptionStep) : Except AdoptionFailure Unit :=
  if failing step then .error .database else .ok ()

/-- The checks of the pending rebuild. -/
def checkPendingRebuild (operations : List Operations.Operation) : Except AdoptionFailure Unit :=
  match operations with
  | [o] =>
    if o.sourceManifestHash.isSome then
      .error (.adoption "adoption is forbidden after source manifest capture; cancel and submit a new rebuild")
    else if o.state ≠ .pending ∨ o.attemptCount ≠ 0 then
      .error (.adoption "adoption requires a fresh pending rebuild; cancel and submit a new rebuild")
    else .ok ()
  | _ => .error (.adoption "adoption requires one maintenance-pending rebuild")

/-- The transaction: the number of rows of the UPDATE, and the tables that are committed. -/
def adoptionTransaction (failing : AdoptionStep → Bool) (expected : ProviderSignature) (db : CanonicalDb) :
    Except AdoptionFailure (Nat × CanonicalDb) := do
  adoptionStatement failing .begin
  adoptionStatement failing .operations
  checkPendingRebuild (db.operations.select fun o => decide (o.state ∈ [.pending, .retryableFailed]))
  adoptionStatement failing .signatures
  if db.snapshot.adoptedSignatures.any (·.conflicts expected) then
    .error (.adoption "legacy embedding identity conflicts with assertion")
  else do
    adoptionStatement failing .update
    let filled := db.snapshot.fill expected
    adoptionStatement failing .changes
    adoptionStatement failing .verify
    if filled.adoptedSignatures.any (· ≠ expected.identity) then
      .error (.adoption "embedding identity adoption failed")
    else do
      adoptionStatement failing .commit
      pure ((db.snapshot.mutations.select db.snapshot.adopted).length, { db with snapshot := filled })

/-- `adopt_legacy_embedding_identity`, with what `_validate_storage_boundary` finds. After an exception
the transaction is rolled back. -/
def adoptLegacyEmbeddingIdentity (boundary : Except EmbeddingIdentityAdoptionError Unit)
    (failing : AdoptionStep → Bool) (provider model version : String) (dimension : Int) (db : CanonicalDb) :
    Except EmbeddingIdentityAdoptionError Nat × CanonicalDb :=
  if provider = "" ∨ model = "" ∨ version = "" ∨ dimension < 1 then
    (.error ⟨"complete embedding identity is required"⟩, db)
  else
    match boundary with
    | .error e => (.error e, db)
    | .ok () =>
      match adoptionTransaction failing ⟨provider, model, version, dimension.toNat⟩ db with
      | .ok (updated, db') => (.ok updated, db')
      | .error (.adoption message) => (.error ⟨message⟩, db)
      | .error .database => (.error ⟨"embedding identity adoption failed"⟩, db)

/-- The manifest of a rebuild with the asserted identity. -/
def assertedManifest (provider model version : String) (dimension : Int) (graphEnabled : Bool)
    (embeddingSpaceId : Option String) (rest : String) : ProviderManifest :=
  ⟨graphEnabled, some provider, some model, some version, some dimension, embeddingSpaceId, rest⟩

/-! ## What it does -/

/-- No column that is not null is overwritten. -/
structure EmbeddingIdentity.Kept (e e' : EmbeddingIdentity) : Prop where
  provider : ∀ x, e.provider = some x → e'.provider = some x
  model : ∀ x, e.model = some x → e'.model = some x
  version : ∀ x, e.version = some x → e'.version = some x
  dimension : ∀ x, e.dimension = some x → e'.dimension = some x

/-- All tables but the mutations are as they were, and these keep their rows and what they know. -/
structure CanonicalDb.Kept (db db' : CanonicalDb) : Prop where
  operations : db'.operations = db.operations
  assertions : db'.snapshot.assertions = db.snapshot.assertions
  entities : db'.snapshot.entities = db.snapshot.entities
  registry : db'.snapshot.registry = db.snapshot.registry
  sources : db'.snapshot.sources = db.snapshot.sources
  links : db'.snapshot.links = db.snapshot.links
  mutations : List.Forall₂ (fun m m' => m'.mutationId = m.mutationId ∧ m'.agentId = m.agentId ∧
    m.embedding.Kept m'.embedding) db.snapshot.mutations.rows db'.snapshot.mutations.rows

/-- The provider check asks for the identity of the mutation. -/
def Snapshot.Inspected (s : Snapshot) (m : MutationRow) : Prop :=
  m ∈ s.mutations.rows ∧ ∃ r ∈ s.registry.rows, s.embeds r = true ∧
    ∃ x ∈ s.sources.rows, x.key.registry = r.key ∧ x.state = .active ∧ x.key.mutationId = m.mutationId

/-- The mutations that the check asks for and that own no entity vector have a complete identity, the
asserted one where the manifest names no embedding space. -/
def Snapshot.Covered (s : Snapshot) (manifest : ProviderManifest) (expected : ProviderSignature) : Prop :=
  ∀ m, s.Inspected m → s.activeVectorSource m = false →
    m.embedding.incomplete = false ∧ (manifest.embeddingSpaceId = none → m.embedding = expected.identity)

theorem mem_providerSignatures {s : Snapshot} {e : EmbeddingIdentity} :
    e ∈ s.providerSignatures ↔ ∃ m, s.Inspected m ∧ m.embedding = e := by
  unfold Snapshot.providerSignatures Snapshot.Inspected
  rw [List.mem_dedup, List.mem_flatMap]
  constructor
  · rintro ⟨r, hr, he⟩
    obtain ⟨hrow, hembeds⟩ := Table.mem_select.1 hr
    obtain ⟨x, hx, hmapped⟩ := List.mem_filterMap.1 he
    obtain ⟨hx, hsource⟩ := Table.mem_select.1 hx
    obtain ⟨m, hm, rfl⟩ := Option.map_eq_some_iff.1 hmapped
    have hkey : m.mutationId = x.key.mutationId := Table.lookup_key hm
    simp only [Bool.and_eq_true, decide_eq_true_eq] at hsource
    exact ⟨m, ⟨Table.lookup_mem hm, r, hrow, hembeds, x, hx, hsource.1, hsource.2, hkey.symm⟩, rfl⟩
  · rintro ⟨m, ⟨hm, r, hrow, hembeds, x, hx, hkey, hstate, hid⟩, rfl⟩
    refine ⟨r, Table.mem_select.2 ⟨hrow, hembeds⟩, List.mem_filterMap.2 ⟨x, Table.mem_select.2 ⟨hx, ?_⟩, ?_⟩⟩
    · simp [hkey, hstate]
    · rw [hid, show s.mutations.lookup m.mutationId = some m from Table.lookup_of_mem hm]
      rfl

/-! ## The transaction -/

theorem identity_of_filled {e : EmbeddingIdentity} {expected : ProviderSignature} (h : e.conflicts expected = false) :
    e.filled expected = expected.identity := by
  obtain ⟨provider, model, version, dimension⟩ := e
  unfold EmbeddingIdentity.conflicts at h
  simp only [Bool.or_eq_false_iff, Option.any_eq_false] at h
  obtain ⟨⟨⟨hprovider, hmodel⟩, hversion⟩, hdimension⟩ := h
  unfold EmbeddingIdentity.filled ProviderSignature.identity
  have hor : ∀ {α : Type} [DecidableEq α] (o : Option α) (a : α), (∀ x, o = some x → decide (x ≠ a) = false) →
      o.or (some a) = some a := by
    intro α _ o a ho
    cases o with
    | none => rfl
    | some x =>
      have hx : x = a := by simpa using ho x rfl
      rw [hx]
      rfl
  dsimp only
  rw [hor provider _ hprovider, hor model _ hmodel, hor version _ hversion, hor dimension _ hdimension]

theorem filled_eq_self {e : EmbeddingIdentity} (expected : ProviderSignature) (h : e.hasNull = false) :
    e.filled expected = e := by
  obtain ⟨provider, model, version, dimension⟩ := e
  unfold EmbeddingIdentity.hasNull at h
  simp only [Bool.or_eq_false_iff, Option.isNone_eq_false_iff, Option.isSome_iff_exists] at h
  obtain ⟨⟨⟨⟨_, rfl⟩, ⟨_, rfl⟩⟩, ⟨_, rfl⟩⟩, ⟨_, rfl⟩⟩ := h
  rfl

theorem EmbeddingIdentity.kept_filled (e : EmbeddingIdentity) (expected : ProviderSignature) :
    e.Kept (e.filled expected) where
  provider x hx := by rw [EmbeddingIdentity.filled, hx]; rfl
  model x hx := by rw [EmbeddingIdentity.filled, hx]; rfl
  version x hx := by rw [EmbeddingIdentity.filled, hx]; rfl
  dimension x hx := by rw [EmbeddingIdentity.filled, hx]; rfl

/-- The row of a mutation after the UPDATE. -/
def Snapshot.filledRow (s : Snapshot) (expected : ProviderSignature) (m : MutationRow) : MutationRow :=
  if s.adopted m then { m with embedding := m.embedding.filled expected } else m

theorem Snapshot.filledRow_embedding {s : Snapshot} {expected : ProviderSignature} {m : MutationRow}
    (h : s.activeVectorSource m = true) : (s.filledRow expected m).embedding = m.embedding.filled expected := by
  unfold Snapshot.filledRow Snapshot.adopted
  rw [h, Bool.true_and]
  split
  · rfl
  · next hnull => rw [filled_eq_self expected (Bool.eq_false_iff.2 hnull)]

theorem Snapshot.filledRow_other {s : Snapshot} {expected : ProviderSignature} {m : MutationRow}
    (h : s.activeVectorSource m = false) : s.filledRow expected m = m := by
  unfold Snapshot.filledRow Snapshot.adopted
  rw [h, Bool.false_and]
  rfl

theorem Snapshot.filledRow_id (s : Snapshot) (expected : ProviderSignature) (m : MutationRow) :
    (s.filledRow expected m).mutationId = m.mutationId := by
  unfold Snapshot.filledRow
  split <;> rfl

theorem Snapshot.mem_fill {s : Snapshot} {expected : ProviderSignature} {m : MutationRow} :
    m ∈ (s.fill expected).mutations.rows ↔ ∃ m₀ ∈ s.mutations.rows, s.filledRow expected m₀ = m := by
  exact Table.mem_updated

/-- What a transaction that commits has found and done. -/
theorem adoptionTransaction_ok {failing : AdoptionStep → Bool} {expected : ProviderSignature} {db db' : CanonicalDb}
    {n : Nat} (h : adoptionTransaction failing expected db = .ok (n, db')) :
    (∀ m ∈ db.snapshot.mutations.rows, db.snapshot.activeVectorSource m = true → m.embedding.conflicts expected = false) ∧
      db' = { db with snapshot := db.snapshot.fill expected } := by
  unfold adoptionTransaction at h
  obtain ⟨_, -, h⟩ := bind_eq_ok.1 h
  obtain ⟨_, -, h⟩ := bind_eq_ok.1 h
  obtain ⟨_, -, h⟩ := bind_eq_ok.1 h
  obtain ⟨_, -, h⟩ := bind_eq_ok.1 h
  split at h
  · cases h
  · next hconflicts =>
    obtain ⟨_, -, h⟩ := bind_eq_ok.1 h
    obtain ⟨_, -, h⟩ := bind_eq_ok.1 h
    obtain ⟨_, -, h⟩ := bind_eq_ok.1 h
    split at h
    · cases h
    · obtain ⟨_, -, h⟩ := bind_eq_ok.1 h
      cases h
      refine ⟨fun m hm hactive => Bool.eq_false_iff.2 fun hconflict => hconflicts ?_, rfl⟩
      refine List.any_eq_true.2 ⟨m.embedding, ?_, hconflict⟩
      exact List.mem_dedup.2 (List.mem_map_of_mem (Table.mem_select.2 ⟨hm, hactive⟩))

/-- The check asks for the same mutations as before, with their identities filled. -/
theorem Snapshot.mem_signatures_fill {s : Snapshot} {expected : ProviderSignature} {e : EmbeddingIdentity} :
    e ∈ (s.fill expected).providerSignatures ↔ ∃ m, s.Inspected m ∧ (s.filledRow expected m).embedding = e := by
  rw [mem_providerSignatures]
  constructor
  · rintro ⟨m, ⟨hm, r, hr, hembeds, x, hx, hkey, hstate, hid⟩, rfl⟩
    obtain ⟨m₀, hm₀, rfl⟩ := Snapshot.mem_fill.1 hm
    rw [Snapshot.filledRow_id] at hid
    exact ⟨m₀, ⟨hm₀, r, hr, hembeds, x, hx, hkey, hstate, hid⟩, rfl⟩
  · rintro ⟨m₀, ⟨hm₀, r, hr, hembeds, x, hx, hkey, hstate, hid⟩, rfl⟩
    refine ⟨_, ⟨Snapshot.mem_fill.2 ⟨m₀, hm₀, rfl⟩, r, hr, hembeds, x, hx, hkey, hstate, ?_⟩, rfl⟩
    rw [Snapshot.filledRow_id]
    exact hid

/-- The provider check accepts complete identities, and without an embedding space only the expected one. -/
theorem validateProvider_ok_iff {s : Snapshot} {manifest : ProviderManifest} {expected : ProviderSignature}
    (hexpected : manifest.expectedSignature = .ok expected) :
    (∃ signature, validateProvider s manifest = .ok signature) ↔ ∀ e ∈ s.providerSignatures,
      e.incomplete = false ∧ (manifest.embeddingSpaceId = none → e = expected.identity) := by
  unfold validateProvider
  split
  · next hempty =>
    rw [List.isEmpty_iff.1 hempty]
    exact iff_of_true ⟨_, rfl⟩ fun _ he => absurd he List.not_mem_nil
  · next hnonempty =>
    have hne : s.providerSignatures ≠ [] := fun hnil => hnonempty (List.isEmpty_iff.2 hnil)
    have hnodup : s.providerSignatures.Nodup := List.nodup_dedup _
    split
    · next hincomplete =>
      obtain ⟨e, he, hnull⟩ := List.any_eq_true.1 hincomplete
      refine iff_of_false (by rintro ⟨_, h⟩; cases h) fun hall => ?_
      rw [(hall e he).1] at hnull
      cases hnull
    · next hcomplete =>
      have hcomplete' : ∀ e ∈ s.providerSignatures, e.incomplete = false := fun e he =>
        Bool.eq_false_iff.2 fun hnull => hcomplete (List.any_eq_true.2 ⟨e, he, hnull⟩)
      have hone : s.providerSignatures = [expected.identity] ↔ ∀ e ∈ s.providerSignatures, e = expected.identity := by
        constructor
        · intro h e he
          rw [h] at he
          exact List.mem_singleton.1 he
        · intro h
          obtain ⟨a, l, hl⟩ := List.exists_cons_of_ne_nil hne
          rw [hl] at h hnodup ⊢
          rw [List.eq_replicate_of_mem h, List.length_cons]
          cases l with
          | nil => rfl
          | cons b l =>
            exfalso
            have hab : a = b := (h a (by simp)).trans (h b (by simp)).symm
            exact (List.nodup_cons.1 hnodup).1 (by rw [hab]; exact List.mem_cons_self)
      rw [hexpected]
      dsimp only [bind, Except.bind]
      split
      · next hconflict =>
        refine iff_of_false (by rintro ⟨_, h⟩; cases h) fun hall => hconflict.2 (hone.2 fun e he => ?_)
        exact (hall e he).2 (by simpa using hconflict.1)
      · next hagree =>
        refine iff_of_true ⟨_, rfl⟩ fun e he => ⟨hcomplete' e he, fun hspace => ?_⟩
        have hlist : s.providerSignatures = [expected.identity] := by
          by_contra hne'
          exact hagree ⟨by simp [hspace], hne'⟩
        exact hone.1 hlist e he

/-! ## The adoption -/

theorem Snapshot.kept_fill (db : CanonicalDb) (expected : ProviderSignature) :
    db.Kept { db with snapshot := db.snapshot.fill expected } where
  operations := rfl
  assertions := rfl
  entities := rfl
  registry := rfl
  sources := rfl
  links := rfl
  mutations := by
    refine List.forall₂_map_right_iff.2 (List.forall₂_same.2 fun m _ => ?_)
    beta_reduce
    split
    · exact ⟨rfl, rfl, m.embedding.kept_filled expected⟩
    · exact ⟨rfl, rfl, fun _ h => h, fun _ h => h, fun _ h => h, fun _ h => h⟩

theorem incomplete_identity {expected : ProviderSignature} (h : 0 < expected.dimension) :
    expected.identity.incomplete = false := by
  simp [EmbeddingIdentity.incomplete, ProviderSignature.identity]
  omega

/-- An adoption that raises leaves the database as it was. One that returns overwrites nothing, and the
rebuild accepts the database with the asserted identity exactly if the mutations that the check asks for
beside the owners of entity vectors had their identities already. -/
theorem adoption_admits_iff (boundary : Except EmbeddingIdentityAdoptionError Unit) (failing : AdoptionStep → Bool)
    (provider model version : String) (dimension : Int) (graphEnabled : Bool) (embeddingSpaceId : Option String)
    (rest : String) (db : CanonicalDb) :
    let manifest := assertedManifest provider model version dimension graphEnabled embeddingSpaceId rest
    (∀ e db', adoptLegacyEmbeddingIdentity boundary failing provider model version dimension db = (.error e, db') →
      db' = db) ∧
    ∀ n db', adoptLegacyEmbeddingIdentity boundary failing provider model version dimension db = (.ok n, db') →
      db.Kept db' ∧ ((∃ signature, validateProvider db'.snapshot manifest = .ok signature) ↔
        db.snapshot.Covered manifest ⟨provider, model, version, dimension.toNat⟩) := by
  intro manifest
  unfold adoptLegacyEmbeddingIdentity
  split
  · exact ⟨fun e db' h => (congrArg Prod.snd h).symm, fun n db' h => absurd (congrArg Prod.fst h) (by simp)⟩
  · next hidentity =>
    simp only [not_or, not_lt] at hidentity
    obtain ⟨hprovider, hmodel, hversion, hdimension⟩ := hidentity
    have hexpected : manifest.expectedSignature = .ok ⟨provider, model, version, dimension.toNat⟩ := by
      have hname : ∀ {t : String}, t ≠ "" → named (some t) = some t := fun ht => by simp [named, ht]
      unfold ProviderManifest.expectedSignature
      rw [show manifest.embeddingProvider = some provider from rfl, show manifest.embeddingModel = some model from rfl,
        show manifest.embeddingVersion = some version from rfl, show manifest.dimension = some dimension from rfl,
        hname hprovider, hname hmodel, hname hversion, Option.filter_some, if_pos (decide_eq_true (by omega))]
    split
    · exact ⟨fun e db' h => (congrArg Prod.snd h).symm, fun n db' h => absurd (congrArg Prod.fst h) (by simp)⟩
    · split
      · next hok =>
        obtain ⟨hconflicts, rfl⟩ := adoptionTransaction_ok hok
        refine ⟨fun e db' h => absurd (congrArg Prod.fst h) (by simp), fun n db' h => ?_⟩
        cases h
        refine ⟨Snapshot.kept_fill db _, ?_⟩
        rw [validateProvider_ok_iff hexpected]
        constructor
        · intro haccepts m hinspected hother
          have he := haccepts m.embedding
            (Snapshot.mem_signatures_fill.2 ⟨m, hinspected, by rw [Snapshot.filledRow_other hother]⟩)
          exact he
        · intro hcovered e he
          obtain ⟨m, hinspected, rfl⟩ := Snapshot.mem_signatures_fill.1 he
          cases hactive : db.snapshot.activeVectorSource m with
          | false =>
            rw [Snapshot.filledRow_other hactive]
            exact hcovered m hinspected hactive
          | true =>
            rw [Snapshot.filledRow_embedding hactive, identity_of_filled (hconflicts m hinspected.1 hactive)]
            exact ⟨incomplete_identity (by simp; omega), fun _ => rfl⟩
      · exact ⟨fun e db' h => (congrArg Prod.snd h).symm, fun n db' h => absurd (congrArg Prod.fst h) (by simp)⟩
      · exact ⟨fun e db' h => (congrArg Prod.snd h).symm, fun n db' h => absurd (congrArg Prod.fst h) (by simp)⟩

/-- The key of the artifact of an assertion. -/
def legacyKey : Ledger.RegistryKey := ⟨"t", "a", ⟨.sql, .assertion, "x"⟩⟩

/-- A legacy database: one mutation without an identity, which owns an assertion and no vector. -/
def legacySnapshot : Snapshot where
  assertions := .empty
  entities := .empty
  mutations := Table.empty.insertOrIgnore ⟨"m", "a", ⟨none, none, none, none⟩⟩
  registry := Table.empty.insertOrIgnore ⟨legacyKey, .active⟩
  sources := Table.empty.insertOrIgnore ⟨⟨legacyKey, "m", "c"⟩, "run", "d", "doc", .active⟩
  links := .empty
  objectTarget := by simp
  subjects := by simp
  owners := by decide
  assertionIds := by simp

def pendingRebuild : Operations.Operation where
  operationId := "o"
  requestedByPrincipalId := "p"
  idempotencyKey := "k"
  payloadHash := ""
  state := .pending
  claimedBy := none
  claimToken := none
  fencingToken := 0
  leaseExpiresAt := none
  attemptCount := 0
  retryLimit := 3
  progressCompleted := 0
  progressTotal := 0
  checkpointJson := "{}"
  sourceManifestHash := none
  sourceManifestJson := "{}"
  sourceGenerationId := none
  targetGenerationId := none
  lastErrorClass := none
  lastErrorCode := none

def legacyDb : CanonicalDb := ⟨legacySnapshot, Table.empty.insertOrIgnore pendingRebuild⟩

/-- The adoption succeeds and changes nothing, and the rebuild refuses the database all the same. -/
theorem adoption_leaves_incomplete :
    (adoptLegacyEmbeddingIdentity (.ok ()) (fun _ => false) "p" "m" "v" 3 legacyDb).1 = .ok 0 ∧
    validateProvider (adoptLegacyEmbeddingIdentity (.ok ()) (fun _ => false) "p" "m" "v" 3 legacyDb).2.snapshot
      (assertedManifest "p" "m" "v" 3 true (some "space") "") =
      .error ⟨.embeddingProviderConflict, "canonical vector source has incomplete embedding identity"⟩ :=
  ⟨by decide +kernel, by decide +kernel⟩

end Mesa.Rebuild
