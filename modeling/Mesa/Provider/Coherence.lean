/-
The caches of known ids. An insert whose id is known is skipped, so a known id must denote what is
in the graph. Known ids are added after the statement of an insert and removed after those of a
deletion, and other tasks act in between; the invariant keeps, for an open transaction, where a
known id comes from if it has been created or removed in it.
-/
import Mesa.Provider.Isolation

namespace Mesa.Provider

open Mesa.Foundation

variable {P : Type} {s : State P}

/-- What the two caches are about. -/
inductive Kind
  | node | assertion
  deriving DecidableEq

def Graph.has (g : Graph P) : Kind → String → Bool
  | .node => g.entities.hasKey
  | .assertion => g.assertions.hasKey

def Caches.known (c : Caches) : Kind → List String
  | .node => c.knownNodes
  | .assertion => c.knownAssertions

def Transaction.created (tx : Transaction P) : Kind → List String
  | .node => tx.createdNodes
  | .assertion => tx.createdAssertions

def Transaction.removed (tx : Transaction P) : Kind → List String
  | .node => tx.removedNodes
  | .assertion => tx.removedAssertions

/-! ## The condition -/

/-- What a DELETE removes. -/
def Graph.removes (g : Graph P) : Statement P → Kind → String → Bool
  | .deleteNodes agentId ids, .node, id => g.named agentId ids id
  | .deleteAttached relation agentId ids, .assertion, id =>
    (g.assertions.lookup id).any (g.attached relation agentId ids)
  | .deleteAssertions agentId ids, .assertion, id =>
    (g.assertions.lookup id).any fun r => decide (r.id ∈ ids) && decide (r.agentId = agentId)
  | _, _, _ => false

/-- The id that an insert makes known, if it is not staged. -/
def Operation.inserts : Operation P → Kind → List String
  | .insertNode nodeId _ agentId, .node => [compositeId agentId nodeId]
  | .insertAssertion assertionId _ _ _ agentId _, .assertion => [compositeId agentId assertionId]
  | _, _ => []

def Caches.staged (c : Caches) : Kind → List (List String)
  | .node => c.stagedNodes
  | .assertion => c.stagedAssertions

/-- The last staged sets are the only ones. -/
def Caches.outermost (c : Caches) : Bool := (c.stagedNodes.drop 1).isEmpty || (c.stagedAssertions.drop 1).isEmpty

/-- The ids that become known when a task goes on: that of an insert while nothing is staged, and
those that a committed transaction has staged, if its sets are the only ones. -/
def State.learns (s : State P) (t : Nat) (kind : Kind) : List String :=
  match s.tasks t with
  | .calling _ op _ _ (.answered (.rows _)) => if (s.caches.staged kind).isEmpty then op.inserts kind else []
  | .committing (.answered (.rows _)) => if s.caches.outermost then (s.caches.staged kind).headD [] else []
  | _ => []

/-- A step keeps the caches in order: no known id is removed outside of a transaction; COMMIT finds
no known id removed for good, and ROLLBACK none that its transaction has created; and an id becomes
known only while it is in the graph. -/
def Tended (s : State P) : Step P → Prop
  | .execute t => ∀ statement, (s.tasks t).awaits = some statement → ∀ kind, ∀ id ∈ s.caches.known kind,
    match statement, s.transaction with
    | .commit, some tx => id ∈ tx.removed kind → s.graph.has kind id = true
    | .rollback, some tx => id ∈ tx.created kind → tx.before.has kind id = true
    | _, some _ => True
    | _, none => s.graph.removes statement kind id = false
  | .resume t => ∀ kind, ∀ id ∈ s.learns t kind, s.graph.has kind id = true
  | _ => True

/-! ## What a statement does to the keys -/

theorem mem_newKeys {ρ : Type} [Keyed ρ String] {t u : Table ρ} {k : String} :
    k ∈ newKeys t u ↔ t.hasKey k = true ∧ u.hasKey k = false := by
  unfold newKeys
  rw [List.mem_filter, Bool.not_eq_true']
  refine and_congr ?_ Iff.rfl
  unfold Table.hasKey
  rw [List.any_eq_true, List.mem_map]
  simp only [decide_eq_true_eq]

/-- What is created and removed by a statement is noted. -/
theorem record_created (tx : Transaction P) (t : Nat) (g g' : Graph P) (writes : Bool) (kind : Kind) (id : String) :
    id ∈ (tx.record t g g' writes).created kind ↔ (g'.has kind id = true ∧ g.has kind id = false) ∨ id ∈ tx.created kind := by
  cases kind <;> exact List.mem_append.trans (or_congr mem_newKeys Iff.rfl)

theorem record_removed (tx : Transaction P) (t : Nat) (g g' : Graph P) (writes : Bool) (kind : Kind) (id : String) :
    id ∈ (tx.record t g g' writes).removed kind ↔ (g.has kind id = true ∧ g'.has kind id = false) ∨ id ∈ tx.removed kind := by
  cases kind <;> exact List.mem_append.trans (or_congr mem_newKeys Iff.rfl)

theorem has_node {g : Graph P} {id : String} : g.has .node id = true ↔ (g.entities.lookup id).isSome := Table.hasKey_iff

theorem has_assertion {g : Graph P} {id : String} : g.has .assertion id = true ↔ (g.assertions.lookup id).isSome :=
  Table.hasKey_iff

/-- A deletion keeps the rows that it does not select. -/
theorem isSome_lookup_delete {ρ : Type} [Keyed ρ String] {t : Table ρ} {p : ρ → Bool} {id : String}
    (h : (t.lookup id).isSome) (hp : (t.lookup id).any p = false) : ((t.delete p).lookup id).isSome := by
  rw [Table.lookup_delete]
  obtain ⟨r, hr⟩ := Option.isSome_iff_exists.1 h
  rw [hr] at hp ⊢
  have hp : p r = false := hp
  simp [hp]

theorem has_dropAssertions {g : Graph P} {p : AssertionRow P → Bool} {kind : Kind} {id : String}
    (h : g.has kind id = true) (hp : kind = .assertion → (g.assertions.lookup id).any p = false) :
    (g.dropAssertions p).has kind id = true := by
  cases kind with
  | node => exact h
  | assertion => exact has_assertion.2 (isSome_lookup_delete (has_assertion.1 h) (hp rfl))

theorem has_dropEntities {g : Graph P} {agentId : String} {ids : List String} {kind : Kind} {id : String}
    (h : g.has kind id = true) (hnamed : kind = .node → g.named agentId ids id = false) :
    (g.dropEntities agentId ids).has kind id = true := by
  cases kind with
  | node =>
    obtain ⟨r, hr⟩ := Option.isSome_iff_exists.1 (has_node.1 h)
    refine has_node.2 (isSome_lookup_delete (has_node.1 h) ?_)
    rw [hr, Option.any_some, show r.id = id from Table.lookup_key hr]
    exact hnamed rfl
  | assertion =>
    refine has_assertion.2 ?_
    unfold Graph.dropEntities
    rw [Table.lookup_update, Option.isSome_map]
    exact has_assertion.1 h

theorem has_mergeAssertion {g : Graph P} {i agentId subject : String} {properties : P} {object : Option String}
    {kind : Kind} {id : String} (h : g.has kind id = true) :
    (g.mergeAssertion i agentId properties subject object).has kind id = true := by
  unfold Graph.mergeAssertion
  split
  · cases kind with
    | node => exact h
    | assertion =>
      refine has_assertion.2 ?_
      rw [Table.lookup_upsert]
      split
      · rfl
      · exact has_assertion.1 h
  · exact h

/-- What a statement does not remove stays. -/
theorem has_apply {g : Graph P} {statement : Statement P} {kind : Kind} {id : String} (h : g.has kind id = true)
    (hremoves : g.removes statement kind id = false) : (g.apply statement).has kind id = true := by
  cases statement with
  | mergeNode row =>
    cases kind with
    | node =>
      change (g.entities.insertOrIgnore row).hasKey id = true
      rw [Table.hasKey_insertOrIgnore, Bool.or_eq_true]
      exact .inl h
    | assertion => exact h
  | mergeAssertion i agentId properties subject object => exact has_mergeAssertion h
  | mergeLink agentId row =>
    change (g.mergeLink agentId row).has kind id = true
    unfold Graph.mergeLink
    split
    · cases kind <;> exact h
    · exact h
  | deleteAttached relation agentId ids => exact has_dropAssertions h (by rintro rfl; exact hremoves)
  | deleteNodes agentId ids => exact has_dropEntities h (by rintro rfl; exact hremoves)
  | deleteAssertions agentId ids => exact has_dropAssertions h (by rintro rfl; exact hremoves)
  | _ => exact h

/-! ## The invariant -/

/-- Known ids are in the graph; while a transaction is open, a known id that is not in the graph has
been removed in it, and one that was not there at BEGIN has been created in it. -/
structure Coherent (s : State P) : Prop where
  closed : s.transaction = none → ∀ kind, ∀ id ∈ s.caches.known kind, s.graph.has kind id = true
  kept : ∀ tx, s.transaction = some tx → ∀ kind, ∀ id ∈ s.caches.known kind,
    s.graph.has kind id = true ∨ id ∈ tx.removed kind
  older : ∀ tx, s.transaction = some tx → ∀ kind, ∀ id ∈ s.caches.known kind,
    tx.before.has kind id = true ∨ id ∈ tx.created kind
  grown : ∀ tx, s.transaction = some tx → ∀ kind id, s.graph.has kind id = true →
    tx.before.has kind id = true ∨ id ∈ tx.created kind

/-- Ids that become known while they are in the graph do no harm. -/
theorem Coherent.caches {s' : State P} (h : Coherent s) (hg : s'.graph = s.graph) (ht : s'.transaction = s.transaction)
    (hknown : ∀ kind, ∀ id ∈ s'.caches.known kind, id ∈ s.caches.known kind ∨ s.graph.has kind id = true) :
    Coherent s' := by
  refine ⟨fun hnone kind id hid => ?_, fun tx htx kind id hid => ?_, fun tx htx kind id hid => ?_,
    fun tx htx kind id hid => h.grown tx (ht ▸ htx) kind id (hg ▸ hid)⟩
  · rw [hg]
    exact (hknown kind id hid).elim (h.closed (ht ▸ hnone) kind id) fun hin => hin
  · rw [hg]
    exact (hknown kind id hid).elim (h.kept tx (ht ▸ htx) kind id) .inl
  · exact (hknown kind id hid).elim (h.older tx (ht ▸ htx) kind id) (h.grown tx (ht ▸ htx) kind id)

theorem Coherent.agrees {s' : State P} (h : Coherent s) (ha : s.Agrees s') (hc : s'.caches = s.caches) : Coherent s' :=
  h.caches ha.1 ha.2.1 fun _ _ hid => .inl (hc ▸ hid)

theorem Coherent.perform (h : Coherent s) (t : Nat) (statement : Statement P)
    (hkeeps : s.transaction = none → ∀ kind, ∀ id ∈ s.caches.known kind, s.graph.removes statement kind id = false) :
    Coherent (s.perform t statement) := by
  refine ⟨fun hnone kind id hid => ?_, ?_, ?_, ?_⟩
  · have hnone : s.transaction = none := Option.map_eq_none_iff.1 hnone
    exact has_apply (h.closed hnone kind id hid) (hkeeps hnone kind id hid)
  all_goals
    intro tx' htx'
    obtain ⟨tx, htx, rfl⟩ := Option.map_eq_some_iff.1 htx'
    intro kind id hid
  · rw [record_removed]
    rcases h.kept tx htx kind id hid with hin | hremoved
    · cases hafter : (s.graph.apply statement).has kind id with
      | true => exact .inl hafter
      | false => exact .inr (.inl ⟨hin, rfl⟩)
    · exact .inr (.inr hremoved)
  · rw [record_created]
    exact (h.older tx htx kind id hid).imp_right .inr
  · rw [record_created]
    cases hbefore : s.graph.has kind id with
    | true => exact (h.grown tx htx kind id hbefore).imp_right .inr
    | false => exact .inr (.inl ⟨hid, rfl⟩)

theorem Coherent.openTransaction (h : Coherent s) (t : Nat) : Coherent (s.openTransaction t) := by
  unfold State.openTransaction
  split
  · exact h.agrees ⟨rfl, rfl, rfl⟩ rfl
  · next hnone =>
    refine ⟨nofun, ?_, ?_, ?_⟩ <;> rintro _ ⟨⟩ kind id hid
    · exact .inl (h.closed hnone kind id hid)
    · exact .inl (h.closed hnone kind id hid)
    · exact .inl hid

theorem Coherent.commit (h : Coherent s) (t : Nat) (hremoved : ∀ tx, s.transaction = some tx → ∀ kind,
    ∀ id ∈ s.caches.known kind, id ∈ tx.removed kind → s.graph.has kind id = true) : Coherent (s.commit t) := by
  unfold State.commit
  split
  · next tx htx =>
    refine ⟨fun _ kind id hid => ?_, nofun, nofun, nofun⟩
    exact (h.kept tx htx kind id hid).elim (fun hin => hin) (hremoved tx htx kind id hid)
  · exact h.agrees ⟨rfl, rfl, rfl⟩ rfl

theorem Coherent.rollback (h : Coherent s) (t : Nat) (hcreated : ∀ tx, s.transaction = some tx → ∀ kind,
    ∀ id ∈ s.caches.known kind, id ∈ tx.created kind → tx.before.has kind id = true) : Coherent (s.rollback t) := by
  unfold State.rollback
  split
  · next tx htx =>
    refine ⟨fun _ kind id hid => ?_, nofun, nofun, nofun⟩
    exact (h.older tx htx kind id hid).elim (fun hin => hin) (hcreated tx htx kind id hid)
  · exact h.agrees ⟨rfl, rfl, rfl⟩ rfl

theorem Coherent.serve (h : Coherent s) (t : Nat) (hstep : Tended s (.execute t)) : Coherent (s.serve t) := by
  unfold State.serve
  cases hawaits : (s.tasks t).awaits with
  | none => exact h
  | some statement =>
    have hstep := hstep statement hawaits
    have hkeeps : ∀ statement', statement = statement' → s.transaction = none → ∀ kind, ∀ id ∈ s.caches.known kind,
        s.graph.removes statement' kind id = false := by
      rintro _ rfl hnone kind id hid
      have := hstep kind id hid
      rw [hnone] at this
      cases statement <;> exact this
    cases statement
    case beginTransaction => exact h.openTransaction t
    case commit =>
      refine h.commit t fun tx htx kind id hid => ?_
      have := hstep kind id hid
      rwa [htx] at this
    case rollback =>
      refine h.rollback t fun tx htx kind id hid => ?_
      have := hstep kind id hid
      rwa [htx] at this
    all_goals exact (h.perform t _ (hkeeps _ rfl)).agrees ⟨rfl, rfl, rfl⟩ rfl

/-- A skipped insert is noted in the transaction of another task, and nothing else changes. -/
theorem Coherent.skip (h : Coherent s) (t : Nat) (op : Operation P) : Coherent (s.skip t op) := by
  unfold State.skip
  split
  · next tx htx =>
    split
    · exact h
    · refine ⟨nofun, ?_, ?_, ?_⟩ <;> rintro _ ⟨⟩ kind id hid
      · exact h.kept tx htx kind id hid
      · exact h.older tx htx kind id hid
      · exact h.grown tx htx kind id hid
  · exact h

theorem Coherent.call (h : Coherent s) (t : Nat) (b : Bool) (op : Operation P) : Coherent (s.call t b op) := by
  unfold State.call
  split
  · exact h
  split
  · exact h.agrees ⟨rfl, rfl, rfl⟩ rfl
  split
  · exact (h.skip t op).agrees ⟨rfl, rfl, rfl⟩ rfl
  · exact h.agrees ⟨rfl, rfl, rfl⟩ rfl

/-! ## The caches -/

theorem mem_forget {ids known : List String} {id : String} : id ∈ forget ids known → id ∈ known :=
  fun h => (List.mem_filter.1 h).1

/-- What is known after an operation was known before or is what it inserts, with nothing staged. -/
theorem known_finish (c : Caches) (noted : List String) (op : Operation P) (kind : Kind) {id : String}
    (h : id ∈ (c.finish noted op).known kind) :
    id ∈ c.known kind ∨ (c.staged kind).isEmpty = true ∧ id ∈ op.inserts kind := by
  have hremember : ∀ {known : List String} {staged : List (List String)} {new : String},
      id ∈ (remember known staged new).1 → id ∈ known ∨ staged.isEmpty = true ∧ id ∈ [new] := by
    intro known staged new hmem
    cases staged with
    | nil => exact (List.mem_cons.1 hmem).elim (fun heq => .inr ⟨rfl, List.mem_singleton.2 heq⟩) .inl
    | cons last rest => exact .inl hmem
  cases op <;> cases kind
  case insertNode.node => exact hremember h
  case insertAssertion.assertion => exact hremember h
  case deleteNodes.node => exact .inl (mem_forget h)
  case deleteNodes.assertion => exact .inl (mem_forget h)
  case deleteAssertions.assertion => exact .inl (mem_forget h)
  all_goals exact .inl h

/-- What is known after a COMMIT was known before or was staged, with no other sets left. -/
theorem known_merge (c : Caches) (kind : Kind) {id : String} (h : id ∈ c.merge.known kind) :
    id ∈ c.known kind ∨ c.outermost = true ∧ id ∈ (c.staged kind).headD [] := by
  unfold Caches.merge at h
  unfold Caches.outermost
  split at h
  · cases kind <;> exact .inl h
  · next hrest =>
    have houtermost : ((c.stagedNodes.drop 1).isEmpty || (c.stagedAssertions.drop 1).isEmpty) = true := by
      cases hn : c.stagedNodes.drop 1 with
      | nil => rfl
      | cons nodes restNodes => cases ha : c.stagedAssertions.drop 1 with
        | nil => simp
        | cons assertions restAssertions => exact absurd ha (hrest _ _ _ _ hn)
    rw [houtermost]
    cases kind
    · exact (List.mem_append.1 h).elim (fun hs => .inr ⟨rfl, hs⟩) .inl
    · exact (List.mem_append.1 h).elim (fun hs => .inr ⟨rfl, hs⟩) .inl

/-- An operation that goes on, or returns, with ids that it may make known. -/
theorem Coherent.advance (h : Coherent s) (t : Nat) (b : Bool) (op : Operation P) (position : Nat)
    (noted rows : List String) (hinserts : ∀ kind, (s.caches.staged kind).isEmpty = true →
      ∀ id ∈ op.inserts kind, s.graph.has kind id = true) : Coherent (s.advance t b op position noted rows) := by
  unfold State.advance
  split
  · exact h.agrees ⟨rfl, rfl, rfl⟩ rfl
  · refine h.caches rfl rfl fun kind id hid => ?_
    exact (known_finish s.caches noted op kind hid).imp_right fun ⟨hstaged, hnew⟩ => hinserts kind hstaged id hnew

theorem Coherent.resume (h : Coherent s) (t : Nat) (hstep : Tended s (.resume t)) : Coherent (s.resume t) := by
  have hlearns : ∀ kind, ∀ id ∈ s.learns t kind, s.graph.has kind id = true := hstep
  unfold State.learns at hlearns
  unfold State.resume
  split
  case h_1 => exact h.caches rfl rfl fun kind _ hid => .inl (by cases kind <;> exact hid)
  case h_3 ids hcontrol =>
    simp only [hcontrol] at hlearns
    refine h.caches rfl rfl fun kind id hid => (known_merge s.caches kind hid).imp_right fun ⟨houter, hmem⟩ => ?_
    exact hlearns kind id (by rw [if_pos houter]; exact hmem)
  case h_4 => exact h.caches rfl rfl fun kind _ hid => .inl (by cases kind <;> exact hid)
  case h_6 b op position noted rows hcontrol =>
    simp only [hcontrol] at hlearns
    refine h.advance t b op position _ rows fun kind hstaged id hid => hlearns kind id ?_
    rw [if_pos hstaged]
    exact hid
  case h_7 b op position noted hcontrol =>
    split
    · next hswallows =>
      -- only a deletion goes on after an exception
      refine h.advance t b op position _ [] fun kind _ id hid => ?_
      cases op <;> simp [Operation.swallows] at hswallows
      cases kind <;> cases hid
    · exact h.agrees ⟨rfl, rfl, rfl⟩ rfl
  all_goals exact h.agrees ⟨rfl, rfl, rfl⟩ rfl

theorem coherent_exec (h : Coherent s) (step : Step P) (hstep : Tended s step) : Coherent (exec s step) := by
  cases step with
  | call t op =>
    change Coherent (s.callFrom t op)
    unfold State.callFrom
    split
    · exact h.call ..
    · exact h.call ..
    · exact h
  | enter t =>
    refine h.agrees (move_agrees t).1 ?_
    change (s.enter t).caches = s.caches
    unfold State.enter
    split <;> rfl
  | leave t =>
    refine h.agrees (move_agrees t).2.1 ?_
    change (s.leave t).caches = s.caches
    unfold State.leave
    split <;> rfl
  | fail t =>
    refine h.caches (move_agrees t).2.2.1.1 (move_agrees t).2.2.1.2.1 fun kind id hid => .inl ?_
    change id ∈ (s.fail t).caches.known kind at hid
    unfold State.fail at hid
    revert hid
    split
    · exact fun hid => by cases kind <;> exact hid
    · exact fun hid => hid
  | execute t => exact h.serve t hstep
  | refuse t =>
    refine h.agrees (move_agrees t).2.2.2 ?_
    change (s.refuse t).caches = s.caches
    unfold State.refuse
    split <;> rfl
  | resume t => exact h.resume t hstep

/-- The node or the assertion that an insert is about. -/
def Graph.holds (g : Graph P) (op : Operation P) : Prop := ∀ kind, ∀ id ∈ op.inserts kind, g.has kind id = true

theorem Coherent.start (g : Graph P) : Coherent (State.start g) where
  closed _ kind id hid := by cases kind <;> cases hid
  kept _ htx := by cases htx
  older _ htx := by cases htx
  grown _ htx := by cases htx

/-- Over every interleaving of tasks in which the caches are kept in order: whenever no transaction
is open, every known id is in the graph, and an insert that is skipped because its id is known finds
its node or its assertion there. -/
theorem known_ids_exist (g : Graph P) (steps : List (Step P)) (h : Along exec Tended (State.start g) steps) :
    (run exec (State.start g) steps).transaction = none →
      (∀ kind, ∀ id ∈ (run exec (State.start g) steps).caches.known kind,
        (run exec (State.start g) steps).graph.has kind id = true) ∧
      ∀ op, (run exec (State.start g) steps).caches.knows op = true →
        (run exec (State.start g) steps).graph.holds op := by
  have hinv : Coherent (run exec (State.start g) steps) :=
    invariant_run (I := Coherent) (fun _ step hs hstep => coherent_exec hs step hstep) (Coherent.start g) h
  intro hnone
  refine ⟨hinv.closed hnone, fun op hknows kind id hid => hinv.closed hnone kind id ?_⟩
  cases op <;> cases kind
  case insertNode.node => rw [List.mem_singleton.1 hid]; exact of_decide_eq_true hknows
  case insertAssertion.assertion => rw [List.mem_singleton.1 hid]; exact of_decide_eq_true hknows
  all_goals cases hid

/-- A node is inserted. -/
def insertRun : List (Step Unit) := [.call 0 (.insertNode "n" "Ada" "t"), .execute 0, .resume 0]

theorem known_ids_exist_insert :
    (∀ kind, ∀ id ∈ (run exec (State.start .empty) insertRun).caches.known kind,
        (run exec (State.start .empty) insertRun).graph.has kind id = true) ∧
      ∀ op, (run exec (State.start .empty) insertRun).caches.knows op = true →
        (run exec (State.start .empty) insertRun).graph.holds op :=
  known_ids_exist .empty insertRun ⟨trivial, fun _ _ kind id hid => (by cases kind <;> cases hid),
    fun kind => (by cases kind <;> decide +kernel), trivial⟩ (Option.isNone_iff_eq_none.1 (by decide +kernel))

/-- An assertion is inserted before its subject is there; then the subject, and the assertion again. -/
def earlyAssertionRun : List (Step Unit) :=
  [.call 0 (.insertAssertion "a" "n" none (some "1815") "t" ()), .execute 0, .resume 0,
    .call 0 (.insertNode "n" "Ada" "t"), .execute 0, .resume 0,
    .call 0 (.insertAssertion "a" "n" none (some "1815") "t" ())]

/-- The assertion is known without being in the graph, the second insert is skipped for that, and
the assertion stays missing although its subject is there. -/
theorem known_assertion_missing :
    (run exec (State.start .empty) earlyAssertionRun).transaction.isNone = true ∧
      (run exec (State.start .empty) earlyAssertionRun).caches.knownAssertions = ["t::a"] ∧
      (run exec (State.start .empty) earlyAssertionRun).history.length = 3 ∧
      (run exec (State.start .empty) earlyAssertionRun).graph.entities.hasKey "t::n" = true ∧
      (run exec (State.start .empty) earlyAssertionRun).graph.assertions.hasKey "t::a" = false := by
  decide +kernel

end Mesa.Provider
