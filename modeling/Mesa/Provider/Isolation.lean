/-
Writes and the rollbacks of other tasks. The graph is compared with the one that there is if a
rollback takes back the writes of its own task only; the two agree whenever no transaction is open,
as long as no transaction that another task has written into is rolled back.
-/
import Mesa.Provider.Tasks

namespace Mesa.Provider

open Mesa.Foundation

variable {P : Type} {s : State P}

/-! ## What a step leaves alone -/

@[simp] theorem goTo_graph (t : Nat) (c : Control P) : (s.goTo t c).graph = s.graph := rfl

@[simp] theorem goTo_transaction (t : Nat) (c : Control P) : (s.goTo t c).transaction = s.transaction := rfl

@[simp] theorem goTo_expected (t : Nat) (c : Control P) : (s.goTo t c).expected = s.expected := rfl

@[simp] theorem goTo_caches (t : Nat) (c : Control P) : (s.goTo t c).caches = s.caches := rfl

@[simp] theorem answer_graph (t : Nat) (a : Answer) : (s.answer t a).graph = s.graph := rfl

@[simp] theorem answer_transaction (t : Nat) (a : Answer) : (s.answer t a).transaction = s.transaction := rfl

@[simp] theorem answer_expected (t : Nat) (a : Answer) : (s.answer t a).expected = s.expected := rfl

@[simp] theorem answer_caches (t : Nat) (a : Answer) : (s.answer t a).caches = s.caches := rfl

@[simp] theorem returns_graph (t : Nat) (b : Bool) (op : Operation P) (rows : List String) :
    (s.returns t b op rows).graph = s.graph := rfl

@[simp] theorem returns_transaction (t : Nat) (b : Bool) (op : Operation P) (rows : List String) :
    (s.returns t b op rows).transaction = s.transaction := rfl

@[simp] theorem returns_expected (t : Nat) (b : Bool) (op : Operation P) (rows : List String) :
    (s.returns t b op rows).expected = s.expected := rfl

@[simp] theorem returns_caches (t : Nat) (b : Bool) (op : Operation P) (rows : List String) :
    (s.returns t b op rows).caches = s.caches := rfl

/-- The connection and what is expected of it are the same. -/
def State.Agrees (s s' : State P) : Prop :=
  s'.graph = s.graph ∧ s'.transaction = s.transaction ∧ s'.expected = s.expected

theorem advance_agrees (t : Nat) (b : Bool) (op : Operation P) (position : Nat) (noted rows : List String) :
    s.Agrees (s.advance t b op position noted rows) := by
  unfold State.advance
  split <;> exact ⟨rfl, rfl, rfl⟩

/-- A task that goes on changes the caches at most. -/
theorem resume_agrees (t : Nat) : s.Agrees (s.resume t) := by
  unfold State.resume
  split
  case h_6 => exact advance_agrees ..
  case h_7 =>
    split
    · exact advance_agrees ..
    · exact ⟨rfl, rfl, rfl⟩
  all_goals exact ⟨rfl, rfl, rfl⟩

/-! ## The invariant -/

/-- The graph is the expected one when no transaction is open; while one is open that no other task
has written into, the expected graph is the one at its BEGIN. -/
structure Isolated (s : State P) : Prop where
  closed : s.transaction = none → s.graph = s.expected
  opened : ∀ tx, s.transaction = some tx → tx.foreign = [] → s.expected = tx.before

theorem Isolated.agrees {s' : State P} (h : Isolated s) (ha : s.Agrees s') : Isolated s' := by
  obtain ⟨hg, ht, he⟩ := ha
  constructor
  · intro hnone
    rw [hg, he]
    exact h.closed (ht ▸ hnone)
  · intro tx htx hforeign
    rw [he]
    exact h.opened tx (ht ▸ htx) hforeign

/-- A task awaits the execution of ROLLBACK. -/
def Control.rollsBack : Control P → Bool
  | .rollingBack .waiting => true
  | _ => false

/-- A ROLLBACK that is executed finds no write of another task in its transaction. -/
def Undisturbed (s : State P) : Step P → Prop
  | .execute t => (s.tasks t).rollsBack = true → ∀ tx, s.transaction = some tx → tx.foreign = []
  | _ => True

/-- Reading or writing rows, inside a transaction or outside. -/
theorem Isolated.perform (h : Isolated s) (t : Nat) (statement : Statement P)
    (hwrites : statement.writes = false → ∀ g : Graph P, g.apply statement = g) : Isolated (s.perform t statement) := by
  unfold State.perform State.independent
  cases htx : s.transaction with
  | none => exact ⟨fun _ => by simp [h.closed htx], nofun⟩
  | some tx =>
    refine ⟨nofun, ?_⟩
    rintro _ ⟨⟩ hforeign
    by_cases ht : tx.owner = t
    · have hbefore : tx.foreign = [] := by simpa [Transaction.record, ht] using hforeign
      simp only [ht, ne_eq, not_true_eq_false, decide_false, Option.all_some, Bool.false_eq_true, if_false]
      exact h.opened tx htx hbefore
    · have ht' : t ≠ tx.owner := fun heq => ht heq.symm
      cases hw : statement.writes with
      | true => simp [Transaction.record, hw, ht'] at hforeign
      | false =>
        have hbefore : tx.foreign = [] := by simpa [Transaction.record, hw] using hforeign
        simp only [hwrites hw, ite_self]
        exact h.opened tx htx hbefore

theorem Isolated.openTransaction (h : Isolated s) (t : Nat) : Isolated (s.openTransaction t) := by
  unfold State.openTransaction
  split
  · exact h.agrees ⟨rfl, rfl, rfl⟩
  · refine ⟨nofun, ?_⟩
    rintro _ ⟨⟩ -
    rfl

theorem Isolated.commit (h : Isolated s) (t : Nat) : Isolated (s.commit t) := by
  unfold State.commit
  split
  · exact ⟨fun _ => rfl, nofun⟩
  · exact h.agrees ⟨rfl, rfl, rfl⟩

/-- ROLLBACK goes back to the graph at BEGIN, which is the expected one. -/
theorem Isolated.rollback (h : Isolated s) (t : Nat)
    (hforeign : ∀ tx, s.transaction = some tx → tx.foreign = []) : Isolated (s.rollback t) := by
  unfold State.rollback
  split
  · next tx htx => exact ⟨fun _ => (h.opened tx htx (hforeign tx htx)).symm, nofun⟩
  · exact h.agrees ⟨rfl, rfl, rfl⟩

theorem Isolated.execute (h : Isolated s) (t : Nat) (statement : Statement P)
    (hrollback : statement = .rollback → ∀ tx, s.transaction = some tx → tx.foreign = []) :
    Isolated (s.execute t statement) := by
  cases statement
  case beginTransaction => exact h.openTransaction t
  case commit => exact h.commit t
  case rollback => exact h.rollback t (hrollback rfl)
  all_goals exact (h.perform t _ fun hw g => by first | rfl | cases hw).agrees ⟨rfl, rfl, rfl⟩

theorem Isolated.skip (h : Isolated s) (t : Nat) (op : Operation P) : Isolated (s.skip t op) := by
  unfold State.skip
  split
  · split
    · exact h
    · refine ⟨nofun, ?_⟩
      rintro _ ⟨⟩ hforeign
      cases hforeign
  · exact h

theorem Isolated.call (h : Isolated s) (t : Nat) (b : Bool) (op : Operation P) : Isolated (s.call t b op) := by
  unfold State.call
  split
  · exact h
  split
  · exact h.agrees ⟨rfl, rfl, rfl⟩
  split
  · exact (h.skip t op).agrees ⟨rfl, rfl, rfl⟩
  · exact h.agrees ⟨rfl, rfl, rfl⟩

theorem rollsBack_of_awaits {c : Control P} (h : c.awaits = some .rollback) : c.rollsBack = true := by
  unfold Control.awaits at h
  split at h
  · cases h
  · cases h
  · rfl
  · next op position _ =>
    cases op <;> unfold Operation.statements at h <;>
      simp only [List.getElem?_cons, List.getElem?_nil] at h <;> (repeat' split at h) <;> cases h
  · cases h

theorem Isolated.serve (h : Isolated s) (t : Nat) (hstep : Undisturbed s (.execute t)) : Isolated (s.serve t) := by
  unfold State.serve
  split
  · next statement hawaits => exact h.execute t statement fun heq => hstep (rollsBack_of_awaits (heq ▸ hawaits))
  · exact h

/-- The steps that leave the connection alone. -/
theorem move_agrees (t : Nat) :
    s.Agrees (s.enter t) ∧ s.Agrees (s.leave t) ∧ s.Agrees (s.fail t) ∧ s.Agrees (s.refuse t) := by
  unfold State.enter State.leave State.fail State.refuse
  refine ⟨?_, ?_, ?_, ?_⟩ <;> split <;> exact ⟨rfl, rfl, rfl⟩

theorem isolated_exec (h : Isolated s) (step : Step P) (hstep : Undisturbed s step) : Isolated (exec s step) := by
  cases step with
  | call t op =>
    change Isolated (s.callFrom t op)
    unfold State.callFrom
    split
    · exact h.call ..
    · exact h.call ..
    · exact h
  | enter t => exact h.agrees (move_agrees t).1
  | leave t => exact h.agrees (move_agrees t).2.1
  | fail t => exact h.agrees (move_agrees t).2.2.1
  | execute t => exact h.serve t hstep
  | refuse t => exact h.agrees (move_agrees t).2.2.2
  | resume t => exact h.agrees (resume_agrees t)

/-- Over every interleaving of tasks in which no transaction is rolled back that another task has
written into, or has skipped a write in for an id that is staged: whenever no transaction is open,
the graph is the one in which rollbacks take back the writes of their own tasks only. -/
theorem acknowledged_writes_survive (g : Graph P) (steps : List (Step P))
    (h : Along exec Undisturbed (State.start g) steps) :
    (run exec (State.start g) steps).transaction = none →
      (run exec (State.start g) steps).graph = (run exec (State.start g) steps).expected :=
  (invariant_run (I := Isolated) (fun _ step hs hstep => isolated_exec hs step hstep) ⟨fun _ => rfl, fun _ htx => by cases htx⟩ h).closed

/-! ## A purge inside the transaction of another task -/

/-- Task 1 inserts a node; task 0 opens a transaction; task 1 deletes the node and verifies that it
is absent; task 0 rolls back. -/
def purgeRun : List (Step Unit) :=
  [.call 1 (.insertNode "n" "Ada" "t"), .execute 1, .resume 1, .enter 0, .execute 0, .resume 0,
    .call 1 (.deleteNodes "t" ["n"]), .execute 1, .resume 1, .execute 1, .resume 1, .execute 1, .resume 1,
    .execute 1, .resume 1, .execute 1, .resume 1, .call 1 (.verifyNodesAbsent "t" ["n"]), .execute 1, .resume 1,
    .fail 0, .execute 0, .resume 0]

/-- The purge has returned and verified that the node is absent, and after the rollback of the other
task the node is there again. -/
theorem purged_node_reappears :
    (run exec (State.start .empty) purgeRun).transaction.isNone = true ∧
      (run exec (State.start .empty) purgeRun).history.map (fun r => (r.task, r.rows)) = [(1, []), (1, []), (1, [])] ∧
      (run exec (State.start .empty) purgeRun).graph.entities.hasKey "t::n" = true ∧
      (run exec (State.start .empty) purgeRun).expected.entities.hasKey "t::n" = false := by
  decide +kernel

/-- Task 0 inserts a node in a transaction and rolls back. -/
def rollbackRun : List (Step Unit) :=
  [.enter 0, .execute 0, .resume 0, .call 0 (.insertNode "n" "Ada" "t"), .execute 0, .resume 0, .fail 0, .execute 0,
    .resume 0]

theorem unforeign_of_all (h : (s.transaction.all fun tx => tx.foreign.isEmpty) = true) :
    ∀ tx, s.transaction = some tx → tx.foreign = [] := by
  intro tx htx
  rw [htx] at h
  exact List.isEmpty_iff.1 h

theorem acknowledged_writes_survive_rollback :
    (run exec (State.start .empty) rollbackRun).graph = (run exec (State.start .empty) rollbackRun).expected :=
  acknowledged_writes_survive .empty rollbackRun ⟨trivial, fun h => absurd h (by decide +kernel), trivial, trivial,
    fun h => absurd h (by decide +kernel), trivial, trivial, fun _ => unforeign_of_all (by decide +kernel), trivial,
    trivial⟩ (Option.isNone_iff_eq_none.1 (by decide +kernel))

end Mesa.Provider
