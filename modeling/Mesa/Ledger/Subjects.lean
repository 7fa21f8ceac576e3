/-
The ids that the SQL projection stores in assertions. A fact's subject and object are resolved,
each in a transaction of its own, but the assertion is written under ids hashed from the names.
Both agree exactly when the row that a name leads to is active and has the hashed id.
-/
import Mesa.Ledger.Effects
import Mesa.Ledger.Entities
import Mesa.Ledger.Exec

namespace Mesa.Ledger

open Mesa.Foundation

/-! ## Projecting a fact -/

/-- `resolve_v4_entity` on one name after the other, each call a transaction: the tables afterwards,
with the rows returned, or the exception that stopped it. -/
def resolveNames (env : Env) (tenantId : String) : Identities → List String → Identities × Except DaoError (List Entity)
  | ids, [] => (ids, .ok [])
  | ids, name :: names =>
    match resolveV4Entity env ids (nameRequest tenantId name) with
    | .error e => (ids, .error e)
    | .ok (resolved, row) =>
      let rest := resolveNames env tenantId resolved names
      (rest.1, rest.2.map (row :: ·))

/-- The entity names of a fact: its subject, and its object unless that is a literal. -/
def FactIdentity.names (f : FactIdentity) : List String := f.head :: f.tail.toList

/-- The entity ids of a fact, hashed from its names. -/
def FactIdentity.entityIds (f : FactIdentity) : List String := f.subjectId :: f.objectEntityId.toList

/-- `project_v4_sql_assertion`, transaction by transaction: the database afterwards, with the rows that
`resolve_v4_entity` returned and the assertion's id, or the exception raised. -/
def projectV4SqlAssertion (env : Env) (db : Db) (mutationId : String) (t : Triplet) :
    Db × Except DaoError (List Entity × String) :=
  match db.core.mutations.lookup mutationId with
  | none => (db, .error (.valueError "unknown projection mutation"))
  | some m =>
    match identifyFact env m.tenantId t with
    | .error e => (db, .error e)
    | .ok f =>
      if db.core.isFenced m then (db, .error (.valueError "projection mutation is fenced or terminal"))
      else
        let resolved := resolveNames env m.tenantId db.idents f.names
        match resolved.2 with
        | .error e => ({ db with idents := resolved.1 }, .error e)
        | .ok rows =>
          match insertAssertion env { db with idents := resolved.1 } mutationId t f with
          | .error e => ({ db with idents := resolved.1 }, .error e)
          | .ok (db', assertionId) => (db', .ok (rows, assertionId))

/-- The step of the SQL lane over the facts of a mutation; a call that raises keeps what it committed. -/
def projectFact (env : Env) (mutationId : String) (db : Db) (t : Triplet) : Db :=
  (projectV4SqlAssertion env db mutationId t).1

/-- What a call stores: the rows `resolve_v4_entity` returned, and the assertion it inserted. -/
def storedBy (env : Env) (mutationId : String) (db : Db) (t : Triplet) : Option (List Entity × Assertion) :=
  match projectV4SqlAssertion env db mutationId t with
  | (db', .ok (rows, assertionId)) =>
    if db.core.assertions.hasKey assertionId then none
    else (db'.core.assertions.lookup assertionId).map fun a => (rows, a)
  | (_, .error _) => none

/-! ## Resolved ids -/

/-- The entity ids of an assertion. -/
def Assertion.entityIds (a : Assertion) : List String := a.subjectId :: a.objectEntityId.toList

/-- The entity exists, is ACTIVE and is not redirected. -/
def Identities.live (ids : Identities) (id : String) : Bool :=
  (ids.entities.lookup id).any fun e => e.status = .active && e.redirectEntityId.isNone

/-- The assertion names the resolved rows, and they are live. -/
def UsesResolved (ids : Identities) (rows : List Entity) (a : Assertion) : Prop :=
  a.entityIds = rows.map (·.entityId) ∧ ∀ id ∈ a.entityIds, ids.live id = true

instance (ids : Identities) (rows : List Entity) (a : Assertion) : Decidable (UsesResolved ids rows a) :=
  inferInstanceAs (Decidable (_ ∧ _))

/-- The type of the entities that facts name. -/
def factEntityType (env : Env) : String := env.upper (env.normalizeIdentityText "ENTITY")

/-- The row a name leads to first: its alias, its active namesake, or the row of its identity. -/
def nameOwner (env : Env) (ids : Identities) (tenantId name : String) : Option Entity :=
  ((aliasOwner ids ⟨tenantId, factEntityType env, env.normalizeIdentityText name⟩).or
    (activeNamesake ids tenantId (factEntityType env) (env.normalizeIdentityText name))).or
      (entityByIdentity ids.entities tenantId (factEntityType env) ("name:" ++ env.normalizeIdentityText name))

/-- Nothing is known under the name, or it leads to an active row with the hashed id. -/
def leadsToHash (env : Env) (tenantId : String) (ids : Identities) (name : String) : Bool :=
  (nameOwner env ids tenantId name).all fun owner =>
    match followEntityRedirect ids.entities [] redirectBudget owner,
      v4EntityId env tenantId name "ENTITY" none with
    | .ok (some row), .ok id => row.entityId = id && row.status = .active
    | _, _ => false

/-- One call of `resolve_v4_entity`; a call that raises changes nothing. -/
def resolveName (env : Env) (tenantId : String) (ids : Identities) (name : String) : Identities :=
  orKeep ids ((resolveV4Entity env ids (nameRequest tenantId name)).map (·.1))

/-- Each name of the fact leads to its hash, in the tables that its own resolution reads. -/
def hashesResolve (env : Env) (mutationId : String) (db : Db) (t : Triplet) : Prop :=
  ∀ m f, db.core.mutations.lookup mutationId = some m → identifyFact env m.tenantId t = .ok f →
    Along (resolveName env m.tenantId) (fun ids name => leadsToHash env m.tenantId ids name = true) db.idents f.names

/-! ## Resolving a name -/

/-- A name lands on its owner, or on a new row. -/
theorem locateEntity_name {env : Env} {ids ids' : Identities} {tenantId name : String} {e : Entity}
    (h : locateEntity env ids (nameRequest tenantId name) = .ok (ids', some e)) :
    (nameOwner env ids tenantId name = some e ∧ ids' = ids) ∨
      (nameOwner env ids tenantId name = none ∧
        Created env ids (nameRequest tenantId name) ("name:" ++ env.normalizeIdentityText name) ids' e) := by
  unfold locateEntity at h
  simp only [nameRequest, Option.bind_none, Option.none_or] at h
  unfold nameOwner
  cases hfound : (aliasOwner ids ⟨tenantId, factEntityType env, env.normalizeIdentityText name⟩).or
      (activeNamesake ids tenantId (factEntityType env) (env.normalizeIdentityText name)) with
  | some row =>
    unfold factEntityType at hfound
    rw [hfound] at h
    cases h; exact Or.inl ⟨rfl, rfl⟩
  | none =>
    unfold factEntityType at hfound
    rw [hfound] at h
    rw [Option.none_or]
    exact createEntity_cases h

theorem nameOwner_mem {env : Env} {ids : Identities} {tenantId name : String} {e : Entity}
    (h : nameOwner env ids tenantId name = some e) : e ∈ ids.entities.rows := by
  unfold nameOwner at h
  rcases Option.or_eq_some_iff.1 h with h | ⟨-, h⟩
  · rcases Option.or_eq_some_iff.1 h with h | ⟨-, h⟩
    · obtain ⟨x, -, hx⟩ := Option.bind_eq_some_iff.1 h
      exact Table.lookup_mem hx
    · have := (List.mem_insertionSort _).1 (List.mem_of_mem_head? h)
      exact (Table.mem_select.1 this).1
  · exact (entityByIdentity_mem h).1

/-- A located row: its table has it, no row is lost, and the name's alias, if any, leads to it. -/
theorem locateEntity_name_spec {env : Env} {ids ids' : Identities} {tenantId name : String} {e : Entity}
    (h : locateEntity env ids (nameRequest tenantId name) = .ok (ids', some e)) :
    e ∈ ids'.entities.rows ∧ (∀ k x, ids.entities.lookup k = some x → ids'.entities.lookup k = some x) ∧
      ∀ owner, aliasOwner ids' ⟨tenantId, factEntityType env, env.normalizeIdentityText name⟩ = some owner → owner = e := by
  rcases locateEntity_name h with ⟨hown, rfl⟩ | ⟨hnone, hc⟩
  · refine ⟨nameOwner_mem hown, fun _ _ h => h, fun owner ho => ?_⟩
    unfold nameOwner at hown
    rw [ho] at hown
    cases hown; rfl
  · have hnoAlias : aliasOwner ids ⟨tenantId, factEntityType env, env.normalizeIdentityText name⟩ = none := by
      unfold nameOwner at hnone
      exact (Option.or_eq_none_iff.1 (Option.or_eq_none_iff.1 hnone).1).1
    have hlook : ∀ k, ids'.entities.lookup k = (ids.entities.lookup k).or (if e.entityId = k then some e else none) := by
      intro k
      rw [hc.tables]
      exact Table.lookup_insertOrIgnore _ _ _
    refine ⟨?_, fun k x hx => by rw [hlook, hx]; rfl, fun owner ho => ?_⟩
    · rw [hc.tables]
      exact Table.mem_insertOrIgnore.2 (Or.inr ⟨rfl, hc.fresh⟩)
    · obtain ⟨x, hx, hxo⟩ := Option.bind_eq_some_iff.1 ho
      have hold : ids.entities.lookup x.entityId = none := by
        rw [hc.tables] at hx
        unfold aliasOwner at hnoAlias
        rw [show ids.aliases.lookup _ = some x from hx] at hnoAlias
        exact hnoAlias
      rw [hlook, hold, Option.none_or] at hxo
      split at hxo
      · cases hxo; rfl
      · cases hxo

/-- The specification of `resolve_v4_entity` on a name: the row is in the table and not redirected, no row
is lost, and it is the end of the owner's redirects, or the new row of the name. -/
theorem resolveName_spec {env : Env} {ids ids' : Identities} {tenantId name : String} {row : Entity}
    (h : resolveV4Entity env ids (nameRequest tenantId name) = .ok (ids', row)) :
    ids'.entities.lookup row.entityId = some row ∧ row.redirectEntityId = none ∧
      (∀ k e, ids.entities.lookup k = some e → ids'.entities.lookup k = some e) ∧
      match nameOwner env ids tenantId name with
      | some owner => followEntityRedirect ids.entities [] redirectBudget owner = .ok (some row)
      | none => v4EntityId env tenantId name (factEntityType env) none = .ok row.entityId ∧ row.status = .active := by
  unfold resolveV4Entity resolveInOrder at h
  rw [if_neg (by simp [nameRequest])] at h
  obtain ⟨⟨ids₁, located⟩, hloc, h⟩ := bind_eq_ok.1 h
  cases located with
  | none => cases h
  | some located =>
    obtain ⟨resolved, hfollow, h⟩ := bind_eq_ok.1 h
    cases resolved with
    | none => cases h
    | some row₁ =>
      obtain ⟨⟨ids₂, row₂⟩, hup, h⟩ := bind_eq_ok.1 h
      cases hup
      obtain ⟨⟨ids₃, row₃⟩, hatt, h⟩ := bind_eq_ok.1 h
      cases h
      have hnames : ([name] : List String).eraseDups = [name] := rfl
      rw [show (nameRequest tenantId name).canonicalName :: (nameRequest tenantId name).aliases = [name] from rfl,
        hnames] at hatt
      obtain ⟨⟨ids₄, row₄⟩, hone, hdone⟩ := bind_eq_ok.1 hatt
      cases hdone
      obtain ⟨hroot, hend⟩ := followEntityRedirect_spec hfollow
      obtain ⟨hmem, hkeep, halias⟩ := locateEntity_name_spec hloc
      have hrow : row₁ ∈ ids₁.entities.rows := by
        rcases hend with rfl | hend
        · exact hmem
        · exact hend
      obtain ⟨rfl, hents⟩ := attachAlias_own hroot (fun owner ho => by rw [halias owner ho]; exact hfollow) hone
      refine ⟨by rw [hents]; exact Table.lookup_of_mem hrow, hroot, fun k e hk => by rw [hents]; exact hkeep k e hk, ?_⟩
      rcases locateEntity_name hloc with ⟨hown, rfl⟩ | ⟨hnone, hc⟩
      · rw [hown]; exact hfollow
      · rw [hnone]
        rw [followEntityRedirect_root hc.root] at hfollow
        cases hfollow
        exact ⟨hc.id, hc.status⟩

/-- A name leads to its hash exactly when the row resolved is active and has the hashed id. -/
theorem leadsToHash_iff {env : Env} {ids ids' : Identities} {tenantId name id : String} {row : Entity}
    (htype : factEntityType env = "ENTITY") (hid : v4EntityId env tenantId name "ENTITY" none = .ok id)
    (h : resolveV4Entity env ids (nameRequest tenantId name) = .ok (ids', row)) :
    leadsToHash env tenantId ids name = true ↔ row.entityId = id ∧ row.status = .active := by
  obtain ⟨-, -, -, hspec⟩ := resolveName_spec h
  unfold leadsToHash
  cases hown : nameOwner env ids tenantId name with
  | none =>
    rw [hown] at hspec
    obtain ⟨hnew, hact⟩ := hspec
    rw [htype, hid] at hnew
    cases hnew
    simp [hact]
  | some owner =>
    rw [hown] at hspec
    simp [hspec, hid]

/-- Rows of the tables match the ids: those are the rows' ids, and the rows are active. -/
def MatchIds (rows : List Entity) (ids : List String) : Prop :=
  List.Forall₂ (fun (row : Entity) id => row.entityId = id ∧ row.status = .active) rows ids

/-- Resolving names one after the other loses no row, returns rows that are not redirected, and these match
the names' hashes exactly when each name leads to its hash. -/
theorem resolveNames_spec {env : Env} {tenantId : String} (htype : factEntityType env = "ENTITY")
    {names hashes : List String} {ids ids' : Identities} {rows : List Entity}
    (h : resolveNames env tenantId ids names = (ids', .ok rows))
    (hids : List.Forall₂ (fun name id => v4EntityId env tenantId name "ENTITY" none = .ok id) names hashes) :
    (∀ row ∈ rows, ids'.entities.lookup row.entityId = some row ∧ row.redirectEntityId = none) ∧
      (∀ k e, ids.entities.lookup k = some e → ids'.entities.lookup k = some e) ∧
      (Along (resolveName env tenantId) (fun ids name => leadsToHash env tenantId ids name = true) ids names ↔
        MatchIds rows hashes) := by
  induction hids generalizing ids rows with
  | nil =>
    cases h
    exact ⟨by simp, fun _ _ h => h, ⟨fun _ => .nil, fun _ => trivial⟩⟩
  | cons hid hids ih =>
    rename_i name id names hashes
    unfold resolveNames at h
    cases hres : resolveV4Entity env ids (nameRequest tenantId name) with
    | error e => rw [hres] at h; cases h
    | ok r =>
      obtain ⟨ids₁, row⟩ := r
      rw [hres] at h
      simp only [Prod.mk.injEq] at h
      obtain ⟨hids', hrows⟩ := h
      obtain ⟨rest, hrest, rfl⟩ := map_eq_ok.1 hrows
      obtain ⟨hlook, hroot, hkeep, -⟩ := resolveName_spec hres
      obtain ⟨hrow, hkeep', hiff⟩ := ih (Prod.ext hids' hrest)
      have hstep : resolveName env tenantId ids name = ids₁ := by rw [resolveName, hres]; rfl
      refine ⟨fun x hx => ?_, fun k e hk => hkeep' k e (hkeep k e hk), ?_⟩
      · rcases List.mem_cons.1 hx with rfl | hx
        · exact ⟨hkeep' _ _ hlook, hroot⟩
        · exact hrow x hx
      · unfold Along
        rw [hstep, hiff, leadsToHash_iff htype hid hres]
        unfold MatchIds
        rw [List.forall₂_cons]

/-! ## Storing a fact -/

/-- The ids of a fact are the hashes of its names. -/
theorem identifyFact_hashes {env : Env} {tenantId : String} {t : Triplet} {f : FactIdentity}
    (h : identifyFact env tenantId t = .ok f) :
    List.Forall₂ (fun name id => v4EntityId env tenantId name "ENTITY" none = .ok id) f.names f.entityIds := by
  unfold identifyFact at h
  simp only at h
  split at h
  · cases h
  · obtain ⟨subjectId, hs, h⟩ := bind_eq_ok.1 h
    split at h
    · next htail =>
      cases h
      simp only [FactIdentity.names, FactIdentity.entityIds, htail, Option.toList]
      exact .cons hs .nil
    · next tail htail =>
      obtain ⟨o, ho, h⟩ := bind_eq_ok.1 h
      obtain ⟨objectId, hid, rfl⟩ := map_eq_ok.1 ho
      cases h
      simp only [FactIdentity.names, FactIdentity.entityIds, htail, Option.toList]
      exact .cons hs (.cons hid .nil)

/-- A call that stores an assertion resolved the names of the fact, and stored the hashed ids. -/
theorem storedBy_cases {env : Env} {mutationId : String} {db : Db} {t : Triplet} {rows : List Entity} {a : Assertion}
    (h : storedBy env mutationId db t = some (rows, a)) :
    ∃ m f, db.core.mutations.lookup mutationId = some m ∧ identifyFact env m.tenantId t = .ok f ∧
      resolveNames env m.tenantId db.idents f.names = ((projectFact env mutationId db t).idents, .ok rows) ∧
      a.entityIds = f.entityIds := by
  unfold storedBy at h
  unfold projectFact
  unfold projectV4SqlAssertion at h ⊢
  cases hm : db.core.mutations.lookup mutationId with
  | none => rw [hm] at h; cases h
  | some m =>
    cases hf : identifyFact env m.tenantId t with
    | error e => simp only [hm, hf] at h; cases h
    | ok f =>
      by_cases hfenced : db.core.isFenced m = true
      · simp only [hm, hf, if_pos hfenced] at h; cases h
      · simp only [hm, hf, if_neg hfenced] at h ⊢
        cases hr : (resolveNames env m.tenantId db.idents f.names).2 with
        | error e => rw [hr] at h; cases h
        | ok rows' =>
          rw [hr] at h
          simp only at h ⊢
          cases hi : insertAssertion env { db with idents := (resolveNames env m.tenantId db.idents f.names).1 }
              mutationId t f with
          | error e => rw [hi] at h; cases h
          | ok r =>
            obtain ⟨db', aid⟩ := r
            rw [hi] at h
            simp only at h ⊢
            split at h
            · cases h
            · next hfresh =>
              obtain ⟨a', ha, hpair⟩ := Option.map_eq_some_iff.1 h
              cases hpair
              obtain ⟨m', -, -, rfl⟩ := insertAssertion_row hi
              refine ⟨m, f, rfl, hf, Prod.ext rfl hr, ?_⟩
              have hnone : db.core.assertions.lookup aid = none := Table.hasKey_eq_false.1 (by simpa using hfresh)
              rw [withAssertion, Table.lookup_insertOrIgnore] at ha
              rw [hnone, Option.none_or] at ha
              split at ha
              · cases ha; rfl
              · cases ha

/-- Resolved rows of the tables: the assertion names them and they are live exactly when they match its ids. -/
theorem usesResolved_iff {ids : Identities} {rows : List Entity} {a : Assertion}
    (hrows : ∀ row ∈ rows, ids.entities.lookup row.entityId = some row ∧ row.redirectEntityId = none) :
    UsesResolved ids rows a ↔ MatchIds rows a.entityIds := by
  have hlive : ∀ row ∈ rows, (ids.live row.entityId = true ↔ row.status = .active) := by
    intro row hrow
    obtain ⟨hl, hroot⟩ := hrows row hrow
    simp [Identities.live, hl, hroot]
  unfold UsesResolved MatchIds
  generalize a.entityIds = l
  constructor
  · rintro ⟨rfl, hall⟩
    rw [List.forall₂_map_right_iff]
    exact List.forall₂_same.2 fun row hrow => ⟨rfl, (hlive row hrow).1 (hall _ (List.mem_map_of_mem hrow))⟩
  · intro h
    have hl : rows.map (·.entityId) = l.map id := forall₂_map_eq h fun _ _ h => h.1
    rw [List.map_id] at hl
    refine ⟨hl.symm, fun id hid => ?_⟩
    rw [← hl] at hid
    obtain ⟨row, hrow, rfl⟩ := List.mem_map.1 hid
    refine (hlive row hrow).2 ?_
    rw [← hl, List.forall₂_map_right_iff, List.forall₂_same] at h
    exact (h row hrow).2

/-- For every entity table and every list of facts: each call that stores an assertion stores the ids that
`resolve_v4_entity` returned, of live entities, exactly when each name of the fact leads to its hash. -/
theorem stored_ids_resolved_iff (env : Env) (mutationId : String) (db : Db) (facts : List Triplet)
    (htype : factEntityType env = "ENTITY") :
    Along (projectFact env mutationId) (fun db t => ∀ rows a, storedBy env mutationId db t = some (rows, a) →
      UsesResolved (projectFact env mutationId db t).idents rows a) db facts ↔
    Along (projectFact env mutationId) (fun db t => (storedBy env mutationId db t).isSome = true →
      hashesResolve env mutationId db t) db facts := by
  have hstep : ∀ (db : Db) (t : Triplet),
      (∀ rows a, storedBy env mutationId db t = some (rows, a) →
        UsesResolved (projectFact env mutationId db t).idents rows a) ↔
      ((storedBy env mutationId db t).isSome = true → hashesResolve env mutationId db t) := by
    intro db t
    cases hs : storedBy env mutationId db t with
    | none => simp
    | some r =>
      obtain ⟨rows, a⟩ := r
      obtain ⟨m, f, hm, hf, hres, ha⟩ := storedBy_cases hs
      obtain ⟨hrows, -, hiff⟩ := resolveNames_spec htype hres (identifyFact_hashes hf)
      have huses : UsesResolved (projectFact env mutationId db t).idents rows a ↔ hashesResolve env mutationId db t := by
        rw [usesResolved_iff hrows, ha, ← hiff]
        unfold hashesResolve
        constructor
        · intro h m' f' hm' hf'
          rw [hm] at hm'; cases hm'
          rw [hf] at hf'; cases hf'
          exact h
        · intro h
          exact h m f hm hf
      constructor
      · intro h _
        exact huses.1 (h rows a rfl)
      · intro h rows' a' heq
        cases heq
        exact huses.2 (h rfl)
  constructor
  · intro h
    exact along_mono (fun db t => (hstep db t).1) h
  · intro h
    exact along_mono (fun db t => (hstep db t).2) h

/-! ## A merged name -/

/-- A candidate, and two names that an alias merged. -/
def mergedNames : Db :=
  reach sampleEnv [.recordMutation (sampleMutation "m1" "r1" "rev" "k1"), .resolveV4Entity (nameRequest "t" "A"),
    .resolveV4Entity (nameRequest "t" "B"), .resolveV4Entity ⟨"t", "A", "ENTITY", none, ["B"]⟩]

/-- A fact about the name that was merged away. -/
def mergedFact : Triplet := ⟨"B", "likes", none, some "x", none, "", "", "", ""⟩

theorem stored_ids_resolved_iff_merged :
    Along (projectFact sampleEnv "m1") (fun db t => ∀ rows a, storedBy sampleEnv "m1" db t = some (rows, a) →
      UsesResolved (projectFact sampleEnv "m1" db t).idents rows a) mergedNames [mergedFact] ↔
    Along (projectFact sampleEnv "m1") (fun db t => (storedBy sampleEnv "m1" db t).isSome = true →
      hashesResolve sampleEnv "m1" db t) mergedNames [mergedFact] :=
  stored_ids_resolved_iff sampleEnv "m1" mergedNames [mergedFact] rfl

/-- `resolve_v4_entity` returns the entity of "A", but the assertion is stored under the redirected one. -/
theorem merged_name_stored_redirected :
    ¬ Along (projectFact sampleEnv "m1") (fun db t => ∀ rows a, storedBy sampleEnv "m1" db t = some (rows, a) →
      UsesResolved (projectFact sampleEnv "m1" db t).idents rows a) mergedNames [mergedFact] ∧
    (storedBy sampleEnv "m1" mergedNames mergedFact).any (fun r =>
      (mergedNames.idents.entities.lookup r.2.subjectId).any fun e => e.status = .redirected) = true := by
  have hstored : (storedBy sampleEnv "m1" mergedNames mergedFact).any (fun r =>
      !decide (UsesResolved (projectFact sampleEnv "m1" mergedNames mergedFact).idents r.1 r.2)) = true := by
    decide +kernel
  refine ⟨fun h => ?_, by decide +kernel⟩
  obtain ⟨⟨rows, a⟩, hs, hbad⟩ := (Option.any_eq_true _ _).1 hstored
  simp only [Bool.not_eq_true', decide_eq_false_iff_not] at hbad
  exact hbad (h.1 rows a hs)

end Mesa.Ledger
