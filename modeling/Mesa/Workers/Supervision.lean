/-
The worker supervisor. A task that ends is observed later, in a task of its own, which writes the status of the worker
whatever has happened since: it may have been started again. So the reported state is right as long as no observation
runs while a newer task of its worker is alive; that there is one live task and that restarts keep to their bound holds
in any case, as only the current task of a worker can be alive.
-/
import Mesa.Foundation.Run

namespace Mesa.Workers

open Mesa.Foundation

inductive WorkerState
  | starting | running | degraded | stopping | stopped | crashed | blocked
  deriving DecidableEq

structure WorkerStatus where
  state : WorkerState
  restartCount : Nat
  required : Bool
  deriving DecidableEq

/-- How a task ends. -/
inductive TaskEnd
  | returned | crashed | cancelled
  deriving DecidableEq

/-- A task of a worker, alive until it ends; `restart` says that an observation started it. -/
structure WorkerTask (R : Type) where
  name : String
  runner : R
  restart : Bool
  ended : Option TaskEnd
  observed : Bool

def WorkerTask.alive {R : Type} (t : WorkerTask R) : Bool := t.ended.isNone

/-- The task has ended and waits for its observation. -/
def WorkerTask.pending {R : Type} (t : WorkerTask R) : Bool := t.ended.isSome && !t.observed

/-- The supervisor, with all tasks that it has created; `tasks` are their numbers, by worker the one of the last. -/
structure Supervisor (R : Type) where
  isStopping : Bool
  /-- The workers that have a status. -/
  names : List String
  status : String → WorkerStatus
  runners : String → Option R
  tasks : String → Option Nat
  created : List (WorkerTask R)
  /-- The tasks that each shutdown waits for. -/
  gathered : List (List Nat)

variable {R : Type}

def Supervisor.init : Supervisor R := ⟨false, [], fun _ => ⟨.stopped, 0, true⟩, fun _ => none, fun _ => none, [], []⟩

def Supervisor.taskAlive (s : Supervisor R) (i : Nat) : Bool := (s.created[i]?).any (·.alive)

def Supervisor.setState (s : Supervisor R) (name : String) (state : WorkerState) : Supervisor R :=
  { s with status := Function.update s.status name { s.status name with state } }

/-! ## Operations -/

/-- `start`, which raises while the supervisor stops; `fails` says that the call of the runner raises. -/
def Supervisor.start (s : Supervisor R) (name : String) (runner : R) (required fails restart : Bool) : Supervisor R :=
  if s.isStopping then s
  else if (s.tasks name).any s.taskAlive then s
  else
    let status : WorkerStatus := if name ∈ s.names then s.status name else ⟨.stopped, 0, required⟩
    let s := { s with
      names := if name ∈ s.names then s.names else s.names ++ [name]
      status := Function.update s.status name { status with required, state := .starting }
      runners := Function.update s.runners name (some runner) }
    if fails then s
    else
      let s := { s with
        tasks := Function.update s.tasks name (some s.created.length)
        created := s.created ++ [(⟨name, runner, restart, none, false⟩ : WorkerTask R)] }
      s.setState name .running

/-- `_observe` of a task. -/
def Supervisor.observe (maxRestarts : Nat) (s : Supervisor R) (t : WorkerTask R) (fails : Bool) : Supervisor R :=
  if s.isStopping then s.setState t.name .stopped
  else
    match t.ended with
    | some .crashed =>
      let s := s.setState t.name .crashed
      if maxRestarts ≤ (s.status t.name).restartCount then s.setState t.name .blocked
      else
        let status := s.status t.name
        let s := { s with
          status := Function.update s.status t.name { status with restartCount := status.restartCount + 1, state := .degraded } }
        match s.runners t.name with
        | some runner => s.start t.name runner (s.status t.name).required fails true
        | none => s
    | _ => s.setState t.name .stopped

def Supervisor.setTask (s : Supervisor R) (i : Nat) (t : WorkerTask R) : Supervisor R := { s with created := s.created.set i t }

/-- The numbers of the tasks that are alive. -/
def Supervisor.aliveTasks (s : Supervisor R) : List Nat := (List.range s.created.length).filter s.taskAlive

inductive Op (R : Type)
  | start (name : String) (runner : R) (required fails : Bool)
  /-- A task returns, raises or ends by cancellation. -/
  | finish (task : Nat) (how : TaskEnd)
  /-- The observation of a task that has ended; `fails` is for a restart. -/
  | observe (task : Nat) (fails : Bool)
  /-- `shutdown` up to its waiting, and the rest of it. -/
  | requestShutdown
  | finishShutdown

/-- One step; what cannot happen changes nothing. -/
def Supervisor.exec (maxRestarts : Nat) (s : Supervisor R) : Op R → Supervisor R
  | .start name runner required fails => s.start name runner required fails false
  | .finish i how =>
    match s.created[i]? with
    | some t => if t.alive then s.setTask i { t with ended := some how } else s
    | none => s
  | .observe i fails =>
    match s.created[i]? with
    | some t => if t.pending then (s.setTask i { t with observed := true }).observe maxRestarts t fails else s
    | none => s
  | .requestShutdown =>
    { s with
      isStopping := true
      status := fun name =>
        if name ∈ s.names ∧ (s.status name).state = .running then { s.status name with state := .stopping } else s.status name
      gathered := s.gathered ++ [s.aliveTasks] }
  | .finishShutdown =>
    if s.gathered.any fun tasks => tasks.all fun i => !s.taskAlive i then
      { s with status := fun name => if name ∈ s.names then { s.status name with state := .stopped } else s.status name }
    else s

/-! ## Readiness -/

inductive Overall
  | blocked | degraded | healthy
  deriving DecidableEq

structure Readiness where
  status : Overall
  workers : List (String × WorkerState)
  restartCounts : List (String × Nat)

/-- `readiness`. -/
def Supervisor.readiness (s : Supervisor R) : Readiness where
  status :=
    let required := s.names.filter fun name => (s.status name).required
    if required = [] ∨ required.any fun name => decide ((s.status name).state = .blocked) then .blocked
    else if required.any fun name => decide ((s.status name).state ≠ .running) then .degraded
    else .healthy
  workers := s.names.map fun name => (name, (s.status name).state)
  restartCounts := s.names.map fun name => (name, (s.status name).restartCount)

/-! ## What holds -/

/-- The live tasks of a worker. -/
def Supervisor.liveTasks (s : Supervisor R) (name : String) : List (WorkerTask R) :=
  s.created.filter fun t => decide (t.name = name) && t.alive

/-- The tasks of a worker that were started by an observation. -/
def Supervisor.restarts (s : Supervisor R) (name : String) : List (WorkerTask R) :=
  s.created.filter fun t => decide (t.name = name) && t.restart

/-- A worker has at most one live task, and has been restarted at most as often as it may. -/
def Bounded (maxRestarts : Nat) (s : Supervisor R) : Prop :=
  ∀ name, (s.liveTasks name).length ≤ 1 ∧ (s.restarts name).length ≤ maxRestarts

/-- Without a pending observation of a worker or a shutdown, it is reported as running exactly if it has a live task. -/
def Reported (s : Supervisor R) : Prop :=
  s.isStopping = false → ∀ w ∈ s.readiness.workers, (∀ t ∈ s.created, t.name = w.1 → t.pending = false) →
    (w.2 = .running ↔ s.liveTasks w.1 ≠ [])

/-- No observation runs while its worker has a newer task that is alive. -/
def Timely (s : Supervisor R) : Op R → Prop
  | .observe i _ => ∀ t ∈ s.created[i]?, t.pending = true → s.liveTasks t.name = []
  | _ => True

/-! ## Tasks -/

section Tasks

variable {s : Supervisor R} {i j : Nat} {t u : WorkerTask R} {name : String}

def IsLive (s : Supervisor R) (name : String) : Prop :=
  ∃ (i : Nat) (t : WorkerTask R), s.created[i]? = some t ∧ t.name = name ∧ t.alive = true

def HasPending (s : Supervisor R) (name : String) : Prop :=
  ∃ (i : Nat) (t : WorkerTask R), s.created[i]? = some t ∧ t.name = name ∧ t.pending = true

theorem liveTasks_ne_nil : s.liveTasks name ≠ [] ↔ IsLive s name := by
  unfold Supervisor.liveTasks IsLive
  rw [ne_eq, List.filter_eq_nil_iff]
  push Not
  constructor
  · rintro ⟨t, ht, htask⟩
    obtain ⟨i, hi⟩ := List.mem_iff_getElem?.1 ht
    rw [Bool.and_eq_true, decide_eq_true_eq] at htask
    exact ⟨i, t, hi, htask⟩
  · rintro ⟨i, t, hi, hname, halive⟩
    exact ⟨t, List.mem_of_getElem? hi, by rw [hname, halive]; simp⟩

theorem taskAlive_iff : s.taskAlive i = true ↔ ∃ t, s.created[i]? = some t ∧ t.alive = true := by
  unfold Supervisor.taskAlive
  rw [Option.any_eq_true]

/-- A task behind the others. -/
theorem getElem?_snoc {l : List (WorkerTask R)} : (l ++ [u])[i]? = some t ↔ l[i]? = some t ∨ (i = l.length ∧ t = u) := by
  rcases Nat.lt_trichotomy i l.length with hlt | rfl | hlt
  · rw [List.getElem?_append_left hlt]
    simp only [Nat.ne_of_lt hlt, false_and, or_false]
  · simp [eq_comm]
  · have hnone : l[i]? = none := List.getElem?_eq_none (Nat.le_of_lt hlt)
    have hnone' : (l ++ [u])[i]? = none := List.getElem?_eq_none (by rw [List.length_append, List.length_singleton]; omega)
    rw [hnone, hnone']
    simp only [Nat.ne_of_gt hlt, false_and, or_false]

/-- A task in another one's place. -/
theorem getElem?_set_task {l : List (WorkerTask R)} (hi : l[i]? = some t) {v : WorkerTask R} :
    (l.set i u)[j]? = some v ↔ (j = i ∧ v = u) ∨ (j ≠ i ∧ l[j]? = some v) := by
  have hlt : i < l.length := (List.getElem?_eq_some_iff.1 hi).1
  by_cases hji : j = i
  · subst hji
    rw [List.getElem?_set_self hlt]
    simp [eq_comm]
  · rw [List.getElem?_set_ne (Ne.symm hji)]
    simp [hji]

theorem length_filter_le_one {p : WorkerTask R → Bool} : ∀ {l : List (WorkerTask R)},
    (∀ (i j : Nat) (t u : WorkerTask R), l[i]? = some t → l[j]? = some u → p t = true → p u = true → i = j) → (l.filter p).length ≤ 1
  | [], _ => Nat.zero_le _
  | t :: l, h => by
    have hrest : (l.filter p).length ≤ 1 := length_filter_le_one fun i j v w hi hj hv hw =>
      Nat.succ.inj (h (i + 1) (j + 1) v w hi hj hv hw)
    rw [List.filter_cons]
    split
    · next ht =>
      have hnone : l.filter p = [] := List.filter_eq_nil_iff.2 fun u hu hpu => by
        obtain ⟨j, hj⟩ := List.mem_iff_getElem?.1 hu
        exact absurd (h 0 (j + 1) t u rfl hj ht hpu) (Nat.succ_ne_zero j).symm
      rw [hnone]
      exact le_rfl
    · exact hrest

end Tasks

/-! ## The bounds -/

/-- Only the last task of a worker can be alive, and its restarts are counted. -/
structure Inv (maxRestarts : Nat) (s : Supervisor R) : Prop where
  current : ∀ i t, s.created[i]? = some t → t.alive = true → s.tasks t.name = some i
  named : ∀ t ∈ s.created, t.name ∈ s.names
  counted : ∀ name, (s.restarts name).length ≤ (s.status name).restartCount
  capped : ∀ name, (s.status name).restartCount ≤ maxRestarts

section Bounds

variable {maxRestarts : Nat} {s s' : Supervisor R}

theorem Inv.bounded (h : Inv maxRestarts s) : Bounded maxRestarts s := by
  refine fun name => ⟨length_filter_le_one fun i j t u hi hj ht hu => ?_, (h.counted name).trans (h.capped name)⟩
  rw [Bool.and_eq_true, decide_eq_true_eq] at ht hu
  have hti := h.current i t hi ht.2
  have huj := h.current j u hj hu.2
  rw [ht.1] at hti
  rw [hu.1] at huj
  exact Option.some.inj (hti.symm.trans huj)

/-- Assignments to the states alone. -/
theorem Inv.ofStates (h : Inv maxRestarts s) (hcreated : s'.created = s.created) (htasks : s'.tasks = s.tasks)
    (hnames : ∀ name ∈ s.names, name ∈ s'.names)
    (hcount : ∀ name, (s'.status name).restartCount = (s.status name).restartCount) : Inv maxRestarts s' where
  current := by
    rw [hcreated, htasks]
    exact h.current
  named t ht := hnames _ (h.named t (hcreated ▸ ht))
  counted name := by
    rw [hcount]
    unfold Supervisor.restarts
    rw [hcreated]
    exact h.counted name
  capped name := by
    rw [hcount]
    exact h.capped name

theorem Inv.setState (h : Inv maxRestarts s) (name : String) (state : WorkerState) : Inv maxRestarts (s.setState name state) := by
  refine h.ofStates rfl rfl (fun _ hn => hn) fun n => ?_
  unfold Supervisor.setState
  by_cases hn : n = name
  · subst hn
    simp
  · simp [hn]

/-- A task that ends or is observed. -/
theorem Inv.setTask (h : Inv maxRestarts s) {i : Nat} {t u : WorkerTask R} (hi : s.created[i]? = some t)
    (hname : u.name = t.name) (hrestart : u.restart = t.restart) (halive : u.alive = true → t.alive = true) :
    Inv maxRestarts (s.setTask i u) where
  current := by
    intro j v hj hv
    rcases (getElem?_set_task hi).1 hj with ⟨rfl, rfl⟩ | ⟨-, hj⟩
    · rw [hname]
      exact h.current _ _ hi (halive hv)
    · exact h.current j v hj hv
  named := by
    intro v hv
    rcases List.mem_or_eq_of_mem_set hv with hv | rfl
    · exact h.named v hv
    · rw [hname]
      exact h.named t (List.mem_of_getElem? hi)
  counted name := by
    obtain ⟨hlt, hget⟩ := List.getElem?_eq_some_iff.1 hi
    have hcount : ((s.setTask i u).restarts name).length = (s.restarts name).length := by
      unfold Supervisor.restarts Supervisor.setTask
      rw [← List.countP_eq_length_filter, ← List.countP_eq_length_filter, List.countP_set hlt, hget, hname, hrestart]
      have hpos : (decide (t.name = name) && t.restart) = true →
          0 < s.created.countP fun t => decide (t.name = name) && t.restart := fun ht =>
        List.countP_pos_iff.2 ⟨t, List.mem_of_getElem? hi, ht⟩
      split
      · next ht =>
        have := hpos ht
        omega
      · rfl
    rw [hcount]
    exact h.counted name
  capped := h.capped

/-- What a call of `start` does: nothing, or the status of a worker without a live task and, unless its runner raises,
a new task. -/
theorem start_cases (s : Supervisor R) (name : String) (runner : R) (required fails restart : Bool) :
    s.start name runner required fails restart = s ∨
      s.isStopping = false ∧ (s.tasks name).any s.taskAlive = false ∧
        ∃ status : WorkerStatus, status.restartCount = (if name ∈ s.names then (s.status name).restartCount else 0) ∧
          (s.start name runner required fails restart).isStopping = false ∧
          (s.start name runner required fails restart).names = (if name ∈ s.names then s.names else s.names ++ [name]) ∧
          (s.start name runner required fails restart).status = Function.update s.status name status ∧
          ((status.state = .starting ∧ (s.start name runner required fails restart).created = s.created ∧
              (s.start name runner required fails restart).tasks = s.tasks) ∨
            (status.state = .running ∧
              (s.start name runner required fails restart).created = s.created ++ [⟨name, runner, restart, none, false⟩] ∧
              (s.start name runner required fails restart).tasks =
                Function.update s.tasks name (some s.created.length))) := by
  unfold Supervisor.start
  by_cases hstopping : s.isStopping = true
  · rw [if_pos hstopping]
    exact Or.inl rfl
  rw [if_neg hstopping]
  by_cases halive : (s.tasks name).any s.taskAlive = true
  · rw [if_pos halive]
    exact Or.inl rfl
  rw [if_neg halive]
  rw [Bool.not_eq_true] at hstopping halive
  right
  refine ⟨hstopping, halive, ?_⟩
  cases fails with
  | true =>
    refine ⟨_, ?_, hstopping, rfl, rfl, Or.inl ⟨rfl, rfl, rfl⟩⟩
    dsimp only
    split <;> rfl
  | false =>
    refine ⟨_, ?_, hstopping, rfl, Function.update_idem _ _ _, Or.inr ⟨rfl, rfl, rfl⟩⟩
    dsimp only
    rw [Function.update_self]
    split <;> rfl

theorem notLive_of_start (h : Inv maxRestarts s) {name : String} (hnone : (s.tasks name).any s.taskAlive = false) :
    ¬ IsLive s name := by
  rintro ⟨i, t, hi, rfl, halive⟩
  rw [h.current i t hi halive, Option.any_some] at hnone
  rw [taskAlive_iff.2 ⟨t, hi, halive⟩] at hnone
  cases hnone

theorem Inv.start (h : Inv maxRestarts s) (name : String) (runner : R) (required fails restart : Bool)
    (hroom : restart = true → name ∈ s.names ∧ (s.restarts name).length < (s.status name).restartCount) :
    Inv maxRestarts (s.start name runner required fails restart) := by
  rcases start_cases s name runner required fails restart with heq | ⟨-, hnone, status, hcount, -, hnames, hstatus, htask⟩
  · rw [heq]
    exact h
  generalize s.start name runner required fails restart = s' at *
  have hnot := notLive_of_start h hnone
  have hmem : ∀ n ∈ s.names, n ∈ s'.names := by
    intro n hn
    rw [hnames]
    split
    · exact hn
    · exact List.mem_append_left _ hn
  have hself : name ∈ s'.names := by
    rw [hnames]
    split
    · assumption
    · exact List.mem_append_right _ List.mem_cons_self
  have hnew : name ∉ s.names → s.restarts name = [] := fun hname => List.filter_eq_nil_iff.2 fun t ht htask => by
    rw [Bool.and_eq_true, decide_eq_true_eq] at htask
    exact hname (htask.1 ▸ h.named t ht)
  have hcapped : ∀ n, (s'.status n).restartCount ≤ maxRestarts := by
    intro n
    rw [hstatus]
    by_cases hn : n = name
    · subst hn
      rw [Function.update_self, hcount]
      split
      · exact h.capped n
      · exact Nat.zero_le _
    · rw [Function.update_of_ne hn]
      exact h.capped n
  have hcounted : ∀ n, (s.restarts n).length ≤ (s'.status n).restartCount := by
    intro n
    rw [hstatus]
    by_cases hn : n = name
    · subst hn
      rw [Function.update_self, hcount]
      split
      · exact h.counted n
      · next hname =>
        rw [hnew hname]
        exact Nat.zero_le _
    · rw [Function.update_of_ne hn]
      exact h.counted n
  rcases htask with ⟨-, hcreated, htasks⟩ | ⟨-, hcreated, htasks⟩
  · refine ⟨by rw [hcreated, htasks]; exact h.current, fun t ht => hmem _ (h.named t (hcreated ▸ ht)), fun n => ?_, hcapped⟩
    unfold Supervisor.restarts
    rw [hcreated]
    exact hcounted n
  · refine ⟨fun i t hi halive => ?_, fun t ht => ?_, fun n => ?_, hcapped⟩
    · rw [hcreated] at hi
      rw [htasks]
      rcases getElem?_snoc.1 hi with hi | ⟨rfl, rfl⟩
      · have hne : t.name ≠ name := fun hname => hnot ⟨i, t, hi, hname, halive⟩
        rw [Function.update_of_ne hne]
        exact h.current i t hi halive
      · rw [Function.update_self]
    · rw [hcreated] at ht
      rcases List.mem_append.1 ht with ht | ht
      · exact hmem _ (h.named t ht)
      · rw [List.mem_singleton.1 ht]
        exact hself
    · unfold Supervisor.restarts
      rw [hcreated, List.filter_append, List.length_append]
      have hle := hcounted n
      unfold Supervisor.restarts at hle
      by_cases hn : n = name ∧ restart = true
      · obtain ⟨rfl, hrestart⟩ := hn
        obtain ⟨hname, hlt⟩ := hroom hrestart
        have hone : ([⟨n, runner, restart, none, false⟩] : List (WorkerTask R)).filter
            (fun t => decide (t.name = n) && t.restart) = [⟨n, runner, restart, none, false⟩] := by
          rw [hrestart]
          simp
        rw [hone, hstatus, Function.update_self, hcount, if_pos hname]
        exact hlt
      · have hzero : ([⟨name, runner, restart, none, false⟩] : List (WorkerTask R)).filter
            (fun t => decide (t.name = n) && t.restart) = [] := by
          refine List.filter_eq_nil_iff.2 fun t ht htask => hn ?_
          rw [List.mem_singleton.1 ht, Bool.and_eq_true, decide_eq_true_eq] at htask
          exact ⟨htask.1.symm, htask.2⟩
        rw [hzero]
        exact hle

/-- The status after a crash that is followed by a restart. -/
def Supervisor.degrade (s : Supervisor R) (name : String) : Supervisor R :=
  { s with
    status := Function.update s.status name
      { s.status name with state := .degraded, restartCount := (s.status name).restartCount + 1 } }

/-- What an observation does: it settles the state, or restarts a worker that may be restarted. -/
theorem observe_cases (s : Supervisor R) (t : WorkerTask R) (fails : Bool) :
    (∃ state : WorkerState, state ≠ .running ∧ s.observe maxRestarts t fails = s.setState t.name state) ∨
      (s.isStopping = false ∧ (s.status t.name).restartCount < maxRestarts ∧
        (s.observe maxRestarts t fails = s.degrade t.name ∨
          ∃ runner required, s.observe maxRestarts t fails = (s.degrade t.name).start t.name runner required fails true)) := by
  have hcrashed : (s.setState t.name .crashed).status t.name = { s.status t.name with state := .crashed } :=
    Function.update_self ..
  unfold Supervisor.observe
  by_cases hstopping : s.isStopping = true
  · rw [if_pos hstopping]
    exact Or.inl ⟨.stopped, by decide, rfl⟩
  rw [if_neg hstopping]
  split
  · dsimp only
    rw [hcrashed]
    dsimp only
    by_cases hmax : maxRestarts ≤ (s.status t.name).restartCount
    · rw [if_pos hmax]
      refine Or.inl ⟨.blocked, by decide, ?_⟩
      unfold Supervisor.setState
      dsimp only
      rw [Function.update_self, Function.update_idem]
    · rw [if_neg hmax]
      refine Or.inr ⟨Bool.not_eq_true _ ▸ hstopping, Nat.lt_of_not_le hmax, ?_⟩
      have hdegrade : ({ s.setState t.name .crashed with
          status := Function.update (s.setState t.name .crashed).status t.name
            { state := .degraded, restartCount := (s.status t.name).restartCount + 1,
              required := (s.status t.name).required } } : Supervisor R) = s.degrade t.name := by
        unfold Supervisor.setState Supervisor.degrade
        dsimp only
        rw [Function.update_idem]
      rw [hdegrade]
      split
      · exact Or.inr ⟨_, _, rfl⟩
      · exact Or.inl rfl
  · exact Or.inl ⟨.stopped, by decide, rfl⟩

theorem Inv.degrade (h : Inv maxRestarts s) {name : String} (hlt : (s.status name).restartCount < maxRestarts) :
    Inv maxRestarts (s.degrade name) ∧
      ((s.degrade name).restarts name).length < ((s.degrade name).status name).restartCount := by
  have hcount : ((s.degrade name).status name).restartCount = (s.status name).restartCount + 1 := by
    unfold Supervisor.degrade
    dsimp only
    rw [Function.update_self]
  have hother : ∀ n, n ≠ name → (s.degrade name).status n = s.status n := fun n hn => Function.update_of_ne hn ..
  refine ⟨⟨h.current, h.named, fun n => ?_, fun n => ?_⟩, ?_⟩
  · by_cases hn : n = name
    · subst hn
      rw [hcount]
      exact (h.counted n).trans (Nat.le_succ _)
    · rw [hother n hn]
      exact h.counted n
  · by_cases hn : n = name
    · subst hn
      rw [hcount]
      exact hlt
    · rw [hother n hn]
      exact h.capped n
  · rw [hcount]
    exact Nat.lt_succ_of_le (h.counted name)

theorem Inv.exec (h : Inv maxRestarts s) (op : Op R) : Inv maxRestarts (s.exec maxRestarts op) := by
  cases op with
  | start name runner required fails => exact h.start name runner required fails false fun hr => absurd hr Bool.false_ne_true
  | finish i how =>
    unfold Supervisor.exec
    dsimp only
    split
    · next t hi =>
      split
      · exact h.setTask hi rfl rfl fun halive => by cases halive
      · exact h
    · exact h
  | observe i fails =>
    unfold Supervisor.exec
    dsimp only
    split
    · next t hi =>
      split
      · have hset : Inv maxRestarts (s.setTask i { t with observed := true }) := h.setTask hi rfl rfl fun halive => halive
        rcases observe_cases (s.setTask i { t with observed := true }) t fails with
          ⟨state, -, heq⟩ | ⟨-, hlt, heq | ⟨runner, required, heq⟩⟩
        · rw [heq]
          exact hset.setState _ _
        · rw [heq]
          exact (hset.degrade hlt).1
        · rw [heq]
          obtain ⟨hdegrade, hroom⟩ := hset.degrade hlt
          exact hdegrade.start _ _ _ _ _ fun _ => ⟨h.named t (List.mem_of_getElem? hi), hroom⟩
      · exact h
    · exact h
  | requestShutdown =>
    refine h.ofStates rfl rfl (fun _ hn => hn) fun n => ?_
    unfold Supervisor.exec
    dsimp only
    split <;> rfl
  | finishShutdown =>
    unfold Supervisor.exec
    dsimp only
    split
    · refine h.ofStates rfl rfl (fun _ hn => hn) fun n => ?_
      dsimp only
      split <;> rfl
    · exact h

end Bounds

/-! ## The reported state -/

/-- A live worker is running, and a running one is live or has a task that ended and waits for its observation. -/
structure Fresh (s : Supervisor R) : Prop where
  live : ∀ name, IsLive s name → (s.status name).state = .running
  idle : ∀ name, (s.status name).state = .running → IsLive s name ∨ HasPending s name

section Reports

variable {maxRestarts : Nat} {s s' : Supervisor R}

theorem Fresh.reported (h : Fresh s) : Reported s := by
  rintro - ⟨name, state⟩ hw hnone
  obtain ⟨n, -, heq⟩ := List.mem_map.1 hw
  obtain ⟨rfl, rfl⟩ := Prod.mk.inj heq
  dsimp only at *
  rw [liveTasks_ne_nil]
  refine ⟨fun hrunning => (h.idle n hrunning).resolve_right ?_, h.live n⟩
  rintro ⟨i, t, hi, hname, hpending⟩
  rw [hnone t (List.mem_of_getElem? hi) hname] at hpending
  cases hpending

theorem Fresh.start (h : Fresh s) (hinv : Inv maxRestarts s) (name : String) (runner : R) (required fails restart : Bool) :
    Fresh (s.start name runner required fails restart) := by
  rcases start_cases s name runner required fails restart with heq | ⟨-, hnone, status, -, -, -, hstatus, htask⟩
  · rw [heq]
    exact h
  generalize s.start name runner required fails restart = s' at *
  have hnot := notLive_of_start hinv hnone
  rcases htask with ⟨hstate, hcreated, -⟩ | ⟨hstate, hcreated, -⟩
  · have hlive : ∀ n, IsLive s' n ↔ IsLive s n := fun n => by unfold IsLive; rw [hcreated]
    have hpending : ∀ n, HasPending s' n ↔ HasPending s n := fun n => by unfold HasPending; rw [hcreated]
    refine ⟨fun n hn => ?_, fun n hn => ?_⟩
    · rw [hlive] at hn
      have hne : n ≠ name := fun heq => hnot (heq ▸ hn)
      rw [hstatus, Function.update_of_ne hne]
      exact h.live n hn
    · rw [hlive, hpending]
      rw [hstatus] at hn
      by_cases hname : n = name
      · rw [hname, Function.update_self, hstate] at hn
        cases hn
      · rw [Function.update_of_ne hname] at hn
        exact h.idle n hn
  · have hself : IsLive s' name :=
      ⟨s.created.length, _, by rw [hcreated]; exact getElem?_snoc.2 (Or.inr ⟨rfl, rfl⟩), rfl, rfl⟩
    have hold : ∀ {i t}, s.created[i]? = some t → s'.created[i]? = some t := fun hi => by
      rw [hcreated]
      exact getElem?_snoc.2 (Or.inl hi)
    refine ⟨fun n hn => ?_, fun n hn => ?_⟩
    · by_cases hname : n = name
      · rw [hname, hstatus, Function.update_self]
        exact hstate
      · obtain ⟨i, t, hi, hn, halive⟩ := hn
        rw [hcreated] at hi
        rw [hstatus, Function.update_of_ne hname]
        rcases getElem?_snoc.1 hi with hi | ⟨-, rfl⟩
        · exact h.live n ⟨i, t, hi, hn, halive⟩
        · exact absurd hn.symm hname
    · by_cases hname : n = name
      · exact Or.inl (hname ▸ hself)
      · rw [hstatus, Function.update_of_ne hname] at hn
        rcases h.idle n hn with ⟨i, t, hi, ht⟩ | ⟨i, t, hi, ht⟩
        · exact Or.inl ⟨i, t, hold hi, ht⟩
        · exact Or.inr ⟨i, t, hold hi, ht⟩

theorem Fresh.finish (h : Fresh s) {i : Nat} {t : WorkerTask R} (hi : s.created[i]? = some t)
    (hobserved : t.observed = false) (how : TaskEnd) : Fresh (s.setTask i { t with ended := some how }) := by
  have hlive : ∀ n, IsLive (s.setTask i { t with ended := some how }) n → IsLive s n := by
    rintro n ⟨j, u, hj, hn, hu⟩
    rcases (getElem?_set_task hi).1 hj with ⟨-, rfl⟩ | ⟨-, hj⟩
    · cases hu
    · exact ⟨j, u, hj, hn, hu⟩
  have hended : HasPending (s.setTask i { t with ended := some how }) t.name :=
    ⟨i, { t with ended := some how }, (getElem?_set_task hi).2 (Or.inl ⟨rfl, rfl⟩), rfl,
      by simp [WorkerTask.pending, hobserved]⟩
  refine ⟨fun n hn => h.live n (hlive n hn), fun n hn => ?_⟩
  by_cases hname : n = t.name
  · exact Or.inr (hname ▸ hended)
  have hkept : ∀ {j : Nat} {u : WorkerTask R}, s.created[j]? = some u → u.name = n →
      (s.setTask i { t with ended := some how }).created[j]? = some u := by
    intro j u hj hu
    refine (getElem?_set_task hi).2 (Or.inr ⟨?_, hj⟩)
    rintro rfl
    rw [hi] at hj
    exact hname ((congrArg WorkerTask.name (Option.some.inj hj)).trans hu).symm
  rcases h.idle n hn with ⟨j, u, hj, hu, hrest⟩ | ⟨j, u, hj, hu, hrest⟩
  · exact Or.inl ⟨j, u, hkept hj hu, hu, hrest⟩
  · exact Or.inr ⟨j, u, hkept hj hu, hu, hrest⟩

/-- An observation of a worker that has no live task leaves it in another state than running. -/
theorem Fresh.settle (h : Fresh s) {i : Nat} {t : WorkerTask R} (hi : s.created[i]? = some t) (hnot : ¬ IsLive s t.name) {status : WorkerStatus} (hstate : status.state ≠ .running)
    (hcreated : s'.created = s.created.set i { t with observed := true })
    (hstatus : s'.status = Function.update s.status t.name status) : Fresh s' := by
  have hlive : ∀ n, IsLive s' n → IsLive s n := by
    rintro n ⟨j, u, hj, hn, hu⟩
    rw [hcreated] at hj
    rcases (getElem?_set_task hi).1 hj with ⟨-, rfl⟩ | ⟨-, hj⟩
    · exact ⟨i, t, hi, hn, hu⟩
    · exact ⟨j, u, hj, hn, hu⟩
  refine ⟨fun n hn => ?_, fun n hn => ?_⟩
  · have hne : n ≠ t.name := fun heq => hnot (heq ▸ hlive n hn)
    rw [hstatus, Function.update_of_ne hne]
    exact h.live n (hlive n hn)
  · by_cases hname : n = t.name
    · rw [hname, hstatus, Function.update_self] at hn
      exact absurd hn hstate
    rw [hstatus, Function.update_of_ne hname] at hn
    have hkept : ∀ {j : Nat} {u : WorkerTask R}, s.created[j]? = some u → u.name = n → s'.created[j]? = some u := by
      intro j u hj hu
      rw [hcreated]
      refine (getElem?_set_task hi).2 (Or.inr ⟨?_, hj⟩)
      rintro rfl
      rw [hi] at hj
      exact hname ((congrArg WorkerTask.name (Option.some.inj hj)).trans hu).symm
    rcases h.idle n hn with ⟨j, u, hj, hu, hrest⟩ | ⟨j, u, hj, hu, hrest⟩
    · exact Or.inl ⟨j, u, hkept hj hu, hu, hrest⟩
    · exact Or.inr ⟨j, u, hkept hj hu, hu, hrest⟩

/-- The invariant of runs without late observations: what is alive is not observed yet, and the state is fresh. -/
structure Sound (maxRestarts : Nat) (s : Supervisor R) : Prop extends Inv maxRestarts s where
  unobserved : ∀ t ∈ s.created, t.alive = true → t.observed = false
  gathering : s.isStopping = false → s.gathered = []
  fresh : s.isStopping = false → Fresh s

theorem unobserved_start (h : ∀ t ∈ s.created, t.alive = true → t.observed = false) (name : String) (runner : R)
    (required fails restart : Bool) :
    ∀ t ∈ (s.start name runner required fails restart).created, t.alive = true → t.observed = false := by
  rcases start_cases s name runner required fails restart with heq | ⟨-, -, status, -, -, -, -, htask⟩
  · rw [heq]
    exact h
  rcases htask with ⟨-, hcreated, -⟩ | ⟨-, hcreated, -⟩
  · rw [hcreated]
    exact h
  · rw [hcreated]
    intro t ht halive
    rcases List.mem_append.1 ht with ht | ht
    · exact h t ht halive
    · rw [List.mem_singleton.1 ht]

theorem unobserved_setTask (h : ∀ t ∈ s.created, t.alive = true → t.observed = false) {i : Nat} {u : WorkerTask R}
    (hu : u.alive = false) : ∀ t ∈ (s.setTask i u).created, t.alive = true → t.observed = false := by
  intro t ht halive
  rcases List.mem_or_eq_of_mem_set ht with ht | rfl
  · exact h t ht halive
  · rw [hu] at halive
    cases halive

/-- Neither `start` nor an observation changes what a shutdown sets. -/
theorem start_shutdown (s : Supervisor R) (name : String) (runner : R) (required fails restart : Bool) :
    (s.start name runner required fails restart).isStopping = s.isStopping ∧
      (s.start name runner required fails restart).gathered = s.gathered := by
  unfold Supervisor.start
  split
  · exact ⟨rfl, rfl⟩
  split
  · exact ⟨rfl, rfl⟩
  · dsimp only
    split <;> exact ⟨rfl, rfl⟩

theorem Sound.start (h : Sound maxRestarts s) (name : String) (runner : R) (required fails : Bool) :
    Sound maxRestarts (s.start name runner required fails false) := by
  have hinv := h.toInv.start name runner required fails false fun hr => absurd hr Bool.false_ne_true
  obtain ⟨hstopping, hgathered⟩ := start_shutdown s name runner required fails false
  refine { hinv with unobserved := ?_, gathering := ?_, fresh := ?_ }
  · exact unobserved_start h.unobserved name runner required fails false
  · rw [hstopping, hgathered]
    exact h.gathering
  · rw [hstopping]
    exact fun hrunning => (h.fresh hrunning).start h.toInv name runner required fails false

theorem Sound.finish (h : Sound maxRestarts s) {i : Nat} {t : WorkerTask R} (hi : s.created[i]? = some t)
    (halive : t.alive = true) (how : TaskEnd) : Sound maxRestarts (s.setTask i { t with ended := some how }) where
  toInv := h.toInv.setTask hi rfl rfl fun hu => by cases hu
  unobserved := unobserved_setTask h.unobserved rfl
  gathering := h.gathering
  fresh hstopping := (h.fresh hstopping).finish hi (h.unobserved t (List.mem_of_getElem? hi) halive) how

theorem dead_of_pending {t : WorkerTask R} (h : t.pending = true) : t.alive = false := by
  unfold WorkerTask.pending at h
  unfold WorkerTask.alive
  rw [Bool.and_eq_true] at h
  cases ht : t.ended with
  | none =>
    rw [ht] at h
    cases h.1
  | some how => rfl

theorem Sound.observe (h : Sound maxRestarts s) {i : Nat} {t : WorkerTask R} (hi : s.created[i]? = some t)
    (hpending : t.pending = true) (hnot : ¬ IsLive s t.name) (fails : Bool) :
    Sound maxRestarts ((s.setTask i { t with observed := true }).observe maxRestarts t fails) := by
  have hset : Inv maxRestarts (s.setTask i { t with observed := true }) := h.toInv.setTask hi rfl rfl fun halive => halive
  have hdead : t.alive = false := dead_of_pending hpending
  have hunobserved := unobserved_setTask h.unobserved (i := i) (u := { t with observed := true }) hdead
  rcases observe_cases (s.setTask i { t with observed := true }) t fails with
    ⟨state, hstate, heq⟩ | ⟨hstopping, hlt, heq | ⟨runner, required, heq⟩⟩
  · rw [heq]
    refine { hset.setState t.name state with unobserved := hunobserved, gathering := h.gathering, fresh := fun hrunning => ?_ }
    exact (h.fresh hrunning).settle hi hnot
      (show ({ s.status t.name with state } : WorkerStatus).state ≠ .running from hstate) rfl rfl
  · rw [heq]
    refine { (hset.degrade hlt).1 with unobserved := hunobserved, gathering := h.gathering, fresh := fun hrunning => ?_ }
    exact (h.fresh hrunning).settle hi hnot (show WorkerState.degraded ≠ .running by decide) rfl rfl
  · rw [heq]
    obtain ⟨hdegrade, hroom⟩ := hset.degrade hlt
    have hmem : t.name ∈ s.names := h.named t (List.mem_of_getElem? hi)
    have hsettled : Fresh ((s.setTask i { t with observed := true }).degrade t.name) :=
      (h.fresh hstopping).settle hi hnot (show WorkerState.degraded ≠ .running by decide) rfl rfl
    obtain ⟨hsame, hgathered⟩ :=
      start_shutdown ((s.setTask i { t with observed := true }).degrade t.name) t.name runner required fails true
    refine { hdegrade.start t.name runner required fails true fun _ => ⟨hmem, hroom⟩ with
      unobserved := ?_, gathering := ?_, fresh := fun _ => hsettled.start hdegrade t.name runner required fails true }
    · exact unobserved_start (s := (s.setTask i { t with observed := true }).degrade t.name) hunobserved _ _ _ _ _
    · rw [hsame, hgathered]
      exact h.gathering

theorem Sound.exec (h : Sound maxRestarts s) {op : Op R} (htimely : Timely s op) : Sound maxRestarts (s.exec maxRestarts op) := by
  cases op with
  | start name runner required fails => exact h.start name runner required fails
  | finish i how =>
    unfold Supervisor.exec
    dsimp only
    split
    · next t hi =>
      split
      · next halive => exact h.finish hi halive how
      · exact h
    · exact h
  | observe i fails =>
    unfold Supervisor.exec
    dsimp only
    split
    · next t hi =>
      split
      · next hpending => exact h.observe hi hpending (fun hlive => liveTasks_ne_nil.2 hlive (htimely t hi hpending)) fails
      · exact h
    · exact h
  | requestShutdown =>
    exact { h.toInv.exec .requestShutdown with
      unobserved := h.unobserved
      gathering := fun hstopping => by cases hstopping
      fresh := fun hstopping => by cases hstopping }
  | finishShutdown =>
    have hinv := h.toInv.exec .finishShutdown
    unfold Supervisor.exec at hinv ⊢
    dsimp only at hinv ⊢
    split
    · next hgathered =>
      rw [if_pos hgathered] at hinv
      refine { hinv with unobserved := h.unobserved, gathering := h.gathering, fresh := fun hstopping => ?_ }
      rw [h.gathering hstopping] at hgathered
      cases hgathered
    · exact h

theorem Sound.init : Sound maxRestarts (Supervisor.init : Supervisor R) where
  current _ _ h := by cases h
  named _ h := by cases h
  counted _ := Nat.le_refl 0
  capped _ := Nat.zero_le _
  unobserved _ h := by cases h
  gathering _ := rfl
  fresh _ := by
    refine ⟨fun name hlive => ?_, fun name h => by cases h⟩
    obtain ⟨i, t, h, -⟩ := hlive
    cases h

end Reports

/-- In every order of calls, ends and observations a worker has at most one live task and is restarted at most as often
as it may; and where no observation runs while a newer task of its worker is alive, the reported states are right. -/
theorem supervision_sound (maxRestarts : Nat) (ops : List (Op R)) :
    Throughout (Supervisor.exec maxRestarts) (Bounded maxRestarts) Supervisor.init ops ∧
      (Along (Supervisor.exec maxRestarts) Timely Supervisor.init ops →
        Throughout (Supervisor.exec maxRestarts) Reported Supervisor.init ops) := by
  refine ⟨?_, ?_⟩
  · exact throughout_of_invariant (C := fun _ _ => True) (fun _ op h _ => h.exec op) (fun _ h => h.bounded)
      Sound.init.toInv along_true
  · refine throughout_of_invariant (I := Sound maxRestarts) (fun _ _ h htimely => h.exec htimely) (fun s h => ?_) Sound.init
    intro hstopping
    exact (h.fresh hstopping).reported hstopping

/-- A crash that is observed after a second `start`: the worker is alive and reported as degraded. -/
theorem supervision_late :
    let s := run (Supervisor.exec 3) Supervisor.init
      [.start "worker" () true false, .finish 0 .crashed, .start "worker" () true false, .observe 0 false]
    s.isStopping = false ∧ s.readiness.workers = [("worker", .degraded)] ∧ (∀ t ∈ s.created, t.pending = false) ∧
      (s.liveTasks "worker").length = 1 := by
  decide +kernel

end Mesa.Workers
