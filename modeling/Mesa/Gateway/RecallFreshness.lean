/-
When a recall from the cache or from a shared task is as good as one of its own: what it answers is
what its own fetch would answer, at a moment after the client's last write.
-/
import Mesa.Gateway.Recall

namespace Mesa.Gateway

open Mesa.Foundation

variable {M F : Type} {env : RecallEnv M F} {s s' : RecallService F}

/-! ## The property -/

/-- The answer is the one of a fetch with the same arguments at a moment between the client's last write
and the answer. From the cache it is given within the lifetime of the result, which was stored after that
moment. -/
def RecallAnswer.Transparent (env : RecallEnv M F) (a : RecallAnswer F) : Prop :=
  ∃ moment, a.since ≤ moment ∧ moment ≤ a.moment ∧ a.result = env.fetchRecall moment a.arguments ∧
    ∀ p, a.stored = some p → moment ≤ p.1 ∧ p.1 ≤ a.moment ∧ a.now < p.2 + 45

def RecallService.Transparent (env : RecallEnv M F) (s : RecallService F) : Prop := ∀ a ∈ s.answers, a.Transparent env

/-! ## The condition -/

/-- The backend is asked the same, and both recalls filter by types, or neither does. -/
def FetchArguments.Alike (a b : FetchArguments) : Prop :=
  a.scope = b.scope ∧ a.query = b.query ∧ a.includeTypes.isSome = b.includeTypes.isSome

instance : DecidableRel FetchArguments.Alike := fun _ _ => inferInstanceAs (Decidable (_ ∧ _ ∧ _))

/-- A task has an answer of the backend and there is still a recall that gets it, or that can. -/
def RecallService.Pending (s : RecallService F) (t : FetchTask F) : Prop :=
  t.status.answer.isSome = true ∧
    ((∃ f ∈ s.inflight.rows, f.taskId = t.taskId) ∨ ∃ w ∈ s.waiting.rows, w.taskId = t.taskId)

instance RecallService.Pending.decidable (s : RecallService F) (t : FetchTask F) : Decidable (s.Pending t) :=
  inferInstanceAs (Decidable (_ ∧ (_ ∨ _)))

/-- Recalls with one key are alike. When a write of a client completes, no task of the client is pending;
and if it leaves the cache as it is, no result of the client is in it. -/
def RecallService.Fit (env : RecallEnv M F) (s : RecallService F) : RecallStep → Prop
  | .ask _ _ a scope profile policyVersion => ∀ p ∈ s.asked,
      p.1 = (a.resolve scope profile).key env.casefold policyVersion profile.revision →
        p.2.Alike (a.resolve scope profile)
  | .write clientId invalidates =>
      (∀ t ∈ s.tasks.rows, t.arguments.scope.clientId = clientId → ¬ s.Pending t) ∧
        (invalidates = false → ∀ e ∈ s.cache.cache.rows, e.value.arguments.scope.clientId = clientId →
          e.expired s.clock = true)
  | _ => True

instance RecallService.Fit.decidable (env : RecallEnv M F) (s : RecallService F) : ∀ step, Decidable (s.Fit env step)
  | .ask _ _ _ _ _ _ => inferInstanceAs (Decidable (∀ p ∈ s.asked, _))
  | .write _ _ => inferInstanceAs (Decidable (_ ∧ _))
  | .read _ | .finish _ | .fail _ | .resume _ | .tick _ => inferInstanceAs (Decidable True)

/-! ## Keys -/

/-- A recall with these arguments can have this key. -/
def RecallEnv.KeyOf (env : RecallEnv M F) (key : RecallKey) (a : FetchArguments) : Prop :=
  ∃ policyVersion revision, key = a.key env.casefold policyVersion revision

theorem mem_of_sorted_eq {l m : List String} (h : l.insertionSort (· ≤ ·) = m.insertionSort (· ≤ ·)) (x : String) :
    x ∈ l ↔ x ∈ m := by
  rw [← List.mem_insertionSort (· ≤ ·), h, List.mem_insertionSort]

/-- Recalls with one key that are alike get the same at every moment. -/
theorem fetchRecall_congr {key : RecallKey} {a b : FetchArguments} (ha : env.KeyOf key a) (hb : env.KeyOf key b)
    (h : a.Alike b) (moment : Nat) : env.fetchRecall moment a = env.fetchRecall moment b := by
  obtain ⟨p, r, rfl⟩ := ha
  obtain ⟨p', r', hkey⟩ := hb
  obtain ⟨hscope, hquery, htypes⟩ := h
  simp only [FetchArguments.key, RecallKey.mk.injEq] at hkey
  obtain ⟨-, -, hmode, hlimit, hbudget, hsorted, -, -⟩ := hkey
  have hfilter : ∀ results, env.ofTypes a.includeTypes results = env.ofTypes b.includeTypes results := by
    intro results
    cases hA : a.includeTypes with
    | none =>
      cases hB : b.includeTypes with
      | none => rfl
      | some types =>
        rw [hA, hB] at htypes
        cases htypes
    | some types =>
      cases hB : b.includeTypes with
      | none =>
        rw [hA, hB] at htypes
        cases htypes
      | some types' =>
        rw [hA, hB] at hsorted
        refine List.filter_congr fun m _ => ?_
        cases env.memoryType m with
        | none => rfl
        | some x => exact decide_eq_decide.2 (mem_of_sorted_eq hsorted x)
  simp only [RecallEnv.fetchRecall, hscope, hquery, hmode, hlimit, hbudget, hfilter]

/-! ## The invariant -/

/-- The answer of a task, if it has one, is a result for its arguments since its client's last write and
since the given moment. -/
def RecallService.Recent (s : RecallService F) (t : FetchTask F) (since : Nat) : Prop :=
  ∀ moment result, t.status.answer = some (moment, result) →
    s.written t.arguments.scope.clientId ≤ moment ∧ since ≤ moment

structure RecallService.Fresh (env : RecallEnv M F) (s : RecallService F) : Prop where
  keys : ∀ p ∈ s.asked, env.KeyOf p.1 p.2
  alike : ∀ p ∈ s.asked, ∀ p' ∈ s.asked, p.1 = p'.1 → p.2.Alike p'.2
  written : ∀ clientId, s.written clientId ≤ s.moment
  cached : ∀ e ∈ s.cache.cache.rows, (e.key, e.value.arguments) ∈ s.asked ∧
    e.value.result = env.fetchRecall e.value.read e.value.arguments ∧ e.value.read ≤ e.value.stored.1 ∧
    e.value.stored.1 ≤ s.moment ∧ e.expiresAt = some (e.value.stored.2 + 45) ∧
    (e.expired s.clock = false → s.written e.value.arguments.scope.clientId ≤ e.value.read)
  tasks : ∀ t ∈ s.tasks.rows, ∀ moment result, t.status.answer = some (moment, result) →
    moment ≤ s.moment ∧ result = env.fetchRecall moment t.arguments
  flights : ∀ f ∈ s.inflight.rows, ∃ t ∈ s.tasks.rows, t.taskId = f.taskId ∧ (f.key, t.arguments) ∈ s.asked ∧
    s.Recent t 0
  waits : ∀ w ∈ s.waiting.rows, w.since ≤ s.moment ∧ (w.key, w.arguments) ∈ s.asked ∧
    ∃ t ∈ s.tasks.rows, t.taskId = w.taskId ∧ (w.key, t.arguments) ∈ s.asked ∧ s.Recent t w.since
  answers : s.Transparent env

theorem fresh_start (clock : ℚ) : (RecallService.start F clock).Fresh env := by
  constructor <;> simp [RecallService.start, BoundedLRUCache.new, RecallService.Transparent]

/-- Time goes on. -/
theorem RecallService.Fresh.next (h : s.Fresh env) : RecallService.Fresh env { s with moment := s.moment + 1 } where
  keys := h.keys
  alike := h.alike
  written c := (h.written c).trans (Nat.le_succ _)
  cached e he := by
    obtain ⟨h₁, h₂, h₃, h₄, h₅⟩ := h.cached e he
    exact ⟨h₁, h₂, h₃, h₄.trans (Nat.le_succ _), h₅⟩
  tasks t ht m r hm := ⟨(h.tasks t ht m r hm).1.trans (Nat.le_succ _), (h.tasks t ht m r hm).2⟩
  flights := h.flights
  waits w hw := ⟨(h.waits w hw).1.trans (Nat.le_succ _), (h.waits w hw).2⟩
  answers := h.answers

theorem expired_mono {e : CacheEntry RecallKey (Cached F)} {now later : ℚ} (hle : now ≤ later)
    (h : e.expired later = false) : e.expired now = false := by
  unfold CacheEntry.expired at h ⊢
  cases he : e.expiresAt with
  | none => rfl
  | some x =>
    rw [he, Option.any_some, decide_eq_false_iff_not] at h
    rw [Option.any_some, decide_eq_false_iff_not]
    exact fun hx => h (hx.trans hle)

theorem RecallService.Fresh.tick (h : s.Fresh env) (now : ℚ) :
    RecallService.Fresh env { s with clock := max s.clock now } where
  keys := h.keys
  alike := h.alike
  written := h.written
  cached e he := by
    obtain ⟨h₁, h₂, h₃, h₄, h₅, h₆⟩ := h.cached e he
    exact ⟨h₁, h₂, h₃, h₄, h₅, fun hlive => h₆ (expired_mono (le_max_left _ _) hlive)⟩
  tasks := h.tasks
  flights := h.flights
  waits := h.waits
  answers := h.answers

/-- A task goes on: its answer is the one that it has, or a new one. -/
theorem RecallService.Fresh.progress (h : s.Fresh env) {task : FetchTask F} (htask : task ∈ s.tasks.rows)
    {status : FetchStatus F} (hstatus : ∀ moment result, status.answer = some (moment, result) →
      task.status.answer = some (moment, result) ∨ moment = s.moment ∧ result = env.fetchRecall s.moment task.arguments) :
    RecallService.Fresh env { s with tasks := s.tasks.update (·.taskId = task.taskId) (FetchTask.to status) } := by
  have hgo : ∀ t ∈ s.tasks.rows, ∀ since ≤ s.moment, s.Recent t since →
      ∃ t' ∈ (s.tasks.update (·.taskId = task.taskId) (FetchTask.to status)).rows, t'.taskId = t.taskId ∧
        t'.arguments = t.arguments ∧ s.Recent t' since := by
    intro t ht since hsince hrecent
    refine ⟨_, Table.mem_update.2 ⟨t, ht, rfl⟩, ?_⟩
    split
    · next heq =>
      obtain rfl : t = task := Table.eq_of_key_eq ht htask (of_decide_eq_true heq)
      refine ⟨rfl, rfl, fun m r hm => ?_⟩
      rcases hstatus m r hm with hm | ⟨rfl, -⟩
      · exact hrecent m r hm
      · exact ⟨h.written _, hsince⟩
    · exact ⟨rfl, rfl, hrecent⟩
  refine ⟨h.keys, h.alike, h.written, h.cached, ?_, ?_, ?_, h.answers⟩
  · intro t' ht' m r hm
    obtain ⟨t, ht, rfl⟩ := Table.mem_updated.1 ht'
    split at hm
    · next heq =>
      obtain rfl : t = task := Table.eq_of_key_eq ht htask (of_decide_eq_true heq)
      rw [if_pos heq]
      rcases hstatus m r hm with hm | ⟨rfl, rfl⟩
      · exact h.tasks t ht m r hm
      · exact ⟨le_rfl, rfl⟩
    · next heq =>
      rw [if_neg heq]
      exact h.tasks t ht m r hm
  · intro f hf
    obtain ⟨t, ht, hid, hasked, hrecent⟩ := h.flights f hf
    obtain ⟨t', ht', hid', hargs, hrecent'⟩ := hgo t ht 0 (Nat.zero_le _) hrecent
    exact ⟨t', ht', hid'.trans hid, hargs ▸ hasked, hrecent'⟩
  · intro w hw
    obtain ⟨hsince, hasked, t, ht, hid, htasked, hrecent⟩ := h.waits w hw
    obtain ⟨t', ht', hid', hargs, hrecent'⟩ := hgo t ht w.since hsince hrecent
    exact ⟨hsince, hasked, t', ht', hid'.trans hid, hargs ▸ htasked, hrecent'⟩

/-! ## Lookups -/

theorem FetchArguments.Alike.symm {a b : FetchArguments} (h : a.Alike b) : b.Alike a := ⟨h.1.symm, h.2.1.symm, h.2.2.symm⟩

/-- A key that is asked for, alike with those before. -/
theorem RecallService.Fresh.ask (h : s.Fresh env) {key : RecallKey} {a : FetchArguments} (hkey : env.KeyOf key a)
    (halike : ∀ p ∈ s.asked, p.1 = key → p.2.Alike a) :
    RecallService.Fresh env { s with asked := (key, a) :: s.asked } where
  keys := List.forall_mem_cons.2 ⟨hkey, h.keys⟩
  alike p hp p' hp' heq := by
    rcases List.mem_cons.1 hp with rfl | hp <;> rcases List.mem_cons.1 hp' with rfl | hp'
    · exact ⟨rfl, rfl, rfl⟩
    · exact (halike p' hp' heq.symm).symm
    · exact halike p hp heq
    · exact h.alike p hp p' hp' heq
  written := h.written
  cached e he := ⟨List.mem_cons_of_mem _ (h.cached e he).1, (h.cached e he).2⟩
  tasks := h.tasks
  flights f hf := by
    obtain ⟨t, ht, hid, hasked, hrecent⟩ := h.flights f hf
    exact ⟨t, ht, hid, List.mem_cons_of_mem _ hasked, hrecent⟩
  waits w hw := by
    obtain ⟨hsince, hasked, t, ht, hid, htasked, hrecent⟩ := h.waits w hw
    exact ⟨hsince, List.mem_cons_of_mem _ hasked, t, ht, hid, List.mem_cons_of_mem _ htasked, hrecent⟩
  answers := h.answers

theorem RecallService.Fresh.trim (h : s.Fresh env) {cache : BoundedLRUCache RecallKey (Cached F)}
    (hsub : ∀ e ∈ cache.cache.rows, e ∈ s.cache.cache.rows) : RecallService.Fresh env { s with cache } where
  keys := h.keys
  alike := h.alike
  written := h.written
  cached e he := h.cached e (hsub e he)
  tasks := h.tasks
  flights := h.flights
  waits := h.waits
  answers := h.answers

/-- Two recalls with one key get the same at every moment. -/
theorem RecallService.Fresh.same (h : s.Fresh env) {key : RecallKey} {a b : FetchArguments} (ha : (key, a) ∈ s.asked)
    (hb : (key, b) ∈ s.asked) : a.scope = b.scope ∧ ∀ moment, env.fetchRecall moment a = env.fetchRecall moment b :=
  ⟨(h.alike _ ha _ hb rfl).1, fetchRecall_congr (h.keys _ ha) (h.keys _ hb) (h.alike _ ha _ hb rfl)⟩

theorem RecallService.Fresh.reply (h : s.Fresh env) {answer : RecallAnswer F} (ha : answer.Transparent env) :
    RecallService.Fresh env { s with answers := answer :: s.answers } where
  keys := h.keys
  alike := h.alike
  written := h.written
  cached := h.cached
  tasks := h.tasks
  flights := h.flights
  waits := h.waits
  answers := List.forall_mem_cons.2 ⟨ha, h.answers⟩

/-- What is found in the cache is a fresh answer. -/
theorem RecallService.Fresh.hit (h : s.Fresh env) {key : RecallKey} {a : FetchArguments} {found : Cached F}
    (hasked : (key, a) ∈ s.asked) (hget : (s.cache.get key s.clock).2 = some found) :
    RecallAnswer.Transparent env ⟨a, found.result, s.written a.scope.clientId, s.moment, s.clock, some found.stored⟩ := by
  obtain ⟨e, he, rfl, rfl, hlive⟩ := get_eq_some.1 hget
  obtain ⟨hcached, hresult, hread, hstored, hexpires, hwritten⟩ := h.cached e he
  obtain ⟨hscope, hsame⟩ := h.same hcached hasked
  refine ⟨e.value.read, ?_, hread.trans hstored, hresult.trans (hsame _), ?_⟩
  · rw [← hscope]
    exact hwritten hlive
  · rintro p ⟨⟩
    rw [CacheEntry.expired, hexpires, Option.any_some, decide_eq_false_iff_not, not_le] at hlive
    exact ⟨hread, hstored, hlive⟩

/-- A recall joins a task whose answer, if it has one, is recent enough. -/
theorem RecallService.Fresh.join (h : s.Fresh env) {recallId taskId : Nat} {key : RecallKey} {a : FetchArguments}
    (hasked : (key, a) ∈ s.asked) {t : FetchTask F} (ht : t ∈ s.tasks.rows) (hid : t.taskId = taskId)
    (htasked : (key, t.arguments) ∈ s.asked) (hrecent : s.Recent t (s.written a.scope.clientId)) :
    (s.join recallId key a taskId).Fresh env where
  keys := h.keys
  alike := h.alike
  written := h.written
  cached := h.cached
  tasks := h.tasks
  flights := h.flights
  waits w hw := by
    rcases Table.mem_insertOrIgnore.1 hw with hw | ⟨rfl, -⟩
    · exact h.waits w hw
    · exact ⟨h.written _, hasked, t, ht, hid, htasked, hrecent⟩
  answers := h.answers

/-- A new task in flight. -/
theorem RecallService.Fresh.launch (h : s.Fresh env) {taskId : Nat} {key : RecallKey} {a : FetchArguments}
    (hasked : (key, a) ∈ s.asked) (hfree : s.tasks.lookup taskId = none) :
    RecallService.Fresh env { s with
      tasks := s.tasks.insertOrIgnore ⟨taskId, a, .running⟩
      inflight := s.inflight.insertOrIgnore ⟨key, taskId⟩ } where
  keys := h.keys
  alike := h.alike
  written := h.written
  cached := h.cached
  tasks t ht m r hm := by
    rcases Table.mem_insertOrIgnore.1 ht with ht | ⟨rfl, -⟩
    · exact h.tasks t ht m r hm
    · cases hm
  flights f hf := by
    rcases Table.mem_insertOrIgnore.1 hf with hf | ⟨rfl, -⟩
    · obtain ⟨t, ht, hrest⟩ := h.flights f hf
      exact ⟨t, Table.mem_insertOrIgnore.2 (.inl ht), hrest⟩
    · refine ⟨⟨taskId, a, .running⟩, Table.mem_insertOrIgnore.2 (.inr ⟨rfl, hfree⟩), rfl, hasked, ?_⟩
      rintro m r ⟨⟩
  waits w hw := by
    obtain ⟨hsince, hw, t, ht, hrest⟩ := h.waits w hw
    exact ⟨hsince, hw, t, Table.mem_insertOrIgnore.2 (.inl ht), hrest⟩
  answers := h.answers

theorem RecallService.Fresh.lookup (h : s.Fresh env) (recallId taskId : Nat) {key : RecallKey} {a : FetchArguments}
    (hkey : env.KeyOf key a) (halike : ∀ p ∈ s.asked, p.1 = key → p.2.Alike a) :
    (s.lookup recallId taskId key a).Fresh env := by
  have hask := h.ask hkey halike
  have hmem : (key, a) ∈ (key, a) :: s.asked := List.mem_cons_self
  have hsub : ∀ e ∈ (s.cache.get key s.clock).1.cache.rows, e ∈ s.cache.cache.rows := fun e he => (mem_get.1 he).1
  unfold RecallService.lookup
  split
  · exact h
  next hfree =>
  simp only [not_or, Bool.not_eq_true] at hfree
  split
  · next cache found hget =>
    rw [hget] at hsub
    exact (hask.trim hsub).reply (hask.hit hmem (by rw [hget]))
  · next cache hget =>
    rw [hget] at hsub
    split
    · next flight hflight =>
      obtain ⟨t, ht, hid, htasked, hrecent⟩ := hask.flights flight (Table.lookup_mem hflight)
      have hflightKey : flight.key = key := Table.lookup_key hflight
      rw [hflightKey] at htasked
      have hscope := (hask.same htasked hmem).1
      refine (hask.trim hsub).join hmem ht hid htasked fun m r hm => ?_
      have hwritten := (hrecent m r hm).1
      exact ⟨hwritten, hscope ▸ hwritten⟩
    · next hflight =>
      have hlaunch := (hask.trim hsub).launch hmem (Table.hasKey_eq_false.1 hfree.2)
      refine hlaunch.join hmem (Table.mem_insertOrIgnore.2 (.inr ⟨rfl, Table.hasKey_eq_false.1 hfree.2⟩)) rfl hmem ?_
      rintro m r ⟨⟩

/-! ## Ends -/

theorem RecallService.Fresh.leave (h : s.Fresh env) (w : Waiting) : (s.leave w).Fresh env where
  keys := h.keys
  alike := h.alike
  written := h.written
  cached := h.cached
  tasks := h.tasks
  flights f hf := h.flights f (Table.mem_delete.1 hf).1
  waits x hx := h.waits x (Table.mem_delete.1 hx).1
  answers := h.answers

/-- The result of a task is stored. -/
theorem RecallService.Fresh.put (h : s.Fresh env) {key : RecallKey} {t : FetchTask F} {moment : Nat}
    {result : RecallResult F} (hasked : (key, t.arguments) ∈ s.asked)
    (hresult : moment ≤ s.moment ∧ result = env.fetchRecall moment t.arguments)
    (hwritten : s.written t.arguments.scope.clientId ≤ moment) : RecallService.Fresh env { s with
      cache := s.cache.put key ⟨result, t.arguments, moment, s.moment, s.clock⟩ (some 45) s.clock } where
  keys := h.keys
  alike := h.alike
  written := h.written
  cached e he := by
    rcases mem_put he with rfl | ⟨he, -⟩
    · exact ⟨hasked, hresult.2, hresult.1, le_rfl, rfl, fun _ => hwritten⟩
    · exact h.cached e he
  tasks := h.tasks
  flights := h.flights
  waits := h.waits
  answers := h.answers

theorem RecallService.Fresh.resume (h : s.Fresh env) (recallId : Nat) : (s.resume recallId).Fresh env := by
  unfold RecallService.resume
  split
  · exact h
  next w hw =>
  obtain ⟨hsince, hasked, t, ht, hid, htasked, hrecent⟩ := h.waits w (Table.lookup_mem hw)
  split
  · next fetched moment result htask =>
    obtain rfl : t = _ := Table.eq_of_key_eq ht (Table.lookup_mem htask) (hid.trans (Table.lookup_key htask).symm)
    obtain ⟨hwritten, hsince⟩ := hrecent moment result rfl
    have hresult := h.tasks _ ht moment result rfl
    refine RecallService.Fresh.reply ((h.leave w).put htasked hresult hwritten) ⟨moment, hsince, hresult.1, ?_, ?_⟩
    · exact hresult.2.trans ((h.same htasked hasked).2 moment)
    · rintro p ⟨⟩
  · exact h.leave w
  · exact h

/-- A write completes while nothing of its client is pending. -/
theorem RecallService.Fresh.write (h : s.Fresh env) {clientId : String} {invalidates : Bool}
    (hpending : ∀ t ∈ s.tasks.rows, t.arguments.scope.clientId = clientId → ¬ s.Pending t)
    (hcached : invalidates = false → ∀ e ∈ s.cache.cache.rows, e.value.arguments.scope.clientId = clientId →
      e.expired s.clock = true) : (s.write clientId invalidates).Fresh env := by
  have hrecent : ∀ t ∈ s.tasks.rows, ∀ since, ((∃ f ∈ s.inflight.rows, f.taskId = t.taskId) ∨
      ∃ w ∈ s.waiting.rows, w.taskId = t.taskId) → s.Recent t since → (s.write clientId invalidates).Recent t since := by
    intro t ht since huse hrecent m r hm
    obtain ⟨hwritten, hsince⟩ := hrecent m r hm
    refine ⟨?_, hsince⟩
    have hne : t.arguments.scope.clientId ≠ clientId := by
      intro heq
      exact hpending t ht heq ⟨by rw [hm]; rfl, huse⟩
    change Function.update s.written clientId s.moment _ ≤ m
    rw [Function.update_of_ne hne]
    exact hwritten
  refine ⟨h.keys, h.alike, fun c => ?_, fun e he => ?_, h.tasks, fun f hf => ?_, fun w hw => ?_, h.answers⟩
  · change Function.update s.written clientId s.moment c ≤ s.moment
    by_cases hc : c = clientId
    · rw [hc, Function.update_self]
    · rw [Function.update_of_ne hc]
      exact h.written c
  · cases hinvalidates : invalidates with
    | true =>
      subst hinvalidates
      exact absurd he not_mem_clear
    | false =>
      subst hinvalidates
      have he : e ∈ s.cache.cache.rows := he
      obtain ⟨h₁, h₂, h₃, h₄, h₅, h₆⟩ := h.cached e he
      refine ⟨h₁, h₂, h₃, h₄, h₅, fun hlive => ?_⟩
      have hlive : e.expired s.clock = false := hlive
      change Function.update s.written clientId s.moment _ ≤ e.value.read
      rw [Function.update_of_ne]
      · exact h₆ hlive
      · intro heq
        rw [hcached rfl e he heq] at hlive
        cases hlive
  · obtain ⟨t, ht, hid, hasked, hold⟩ := h.flights f hf
    exact ⟨t, ht, hid, hasked, hrecent t ht 0 (.inl ⟨f, hf, hid.symm⟩) hold⟩
  · obtain ⟨hsince, hasked, t, ht, hid, htasked, hold⟩ := h.waits w hw
    exact ⟨hsince, hasked, t, ht, hid, htasked, hrecent t ht _ (.inr ⟨w, hw, hid.symm⟩) hold⟩

/-! ## Steps -/

theorem RecallService.Fresh.read (h : s.Fresh env) (taskId : Nat) : (s.read env taskId).Fresh env := by
  unfold RecallService.read
  split
  · next id a htask =>
    have hid : id = taskId := Table.lookup_key htask
    subst hid
    refine h.progress (Table.lookup_mem htask) ?_
    rintro m r ⟨⟩
    exact .inr ⟨rfl, rfl⟩
  · exact h

theorem RecallService.Fresh.finish (h : s.Fresh env) (taskId : Nat) : (s.finish taskId).Fresh env := by
  unfold RecallService.finish
  split
  · next id a moment result htask =>
    have hid : id = taskId := Table.lookup_key htask
    subst hid
    refine h.progress (Table.lookup_mem htask) ?_
    rintro m r ⟨⟩
    exact .inl rfl
  · exact h

theorem RecallService.Fresh.fail (h : s.Fresh env) (taskId : Nat) : (s.fail taskId).Fresh env := by
  have hfail : ∀ t, s.tasks.lookup taskId = some t →
      RecallService.Fresh env { s with tasks := s.tasks.update (·.taskId = taskId) (FetchTask.to .failed) } := by
    intro t htask
    have hid : t.taskId = taskId := Table.lookup_key htask
    subst hid
    refine h.progress (Table.lookup_mem htask) ?_
    rintro m r ⟨⟩
  unfold RecallService.fail
  split
  · next htask => exact hfail _ htask
  · next htask => exact hfail _ htask
  · exact h

theorem RecallService.Fresh.exec (h : s.Fresh env) (step : RecallStep) (hfit : s.Fit env step) :
    (s.exec env step).Fresh env := by
  have hnext := h.next
  cases step with
  | ask recallId taskId a scope profile policyVersion => exact hnext.lookup recallId taskId ⟨_, _, rfl⟩ hfit
  | read taskId => exact hnext.read taskId
  | finish taskId => exact hnext.finish taskId
  | fail taskId => exact hnext.fail taskId
  | resume recallId => exact hnext.resume recallId
  | write clientId invalidates => exact hnext.write hfit.1 hfit.2
  | tick now => exact hnext.tick now

/-- Over every interleaving of recalls, fetches and writes in which each step is fit, every answer is that
of a fetch with exactly the recall's arguments since the client's last write, and within the lifetime of
the cache. -/
theorem recalls_transparent (env : RecallEnv M F) (clock : ℚ) (steps : List RecallStep)
    (h : Along (RecallService.exec env) (RecallService.Fit env) (.start F clock) steps) :
    Throughout (RecallService.exec env) (RecallService.Transparent env) (.start F clock) steps :=
  throughout_of_invariant (I := RecallService.Fresh env) (fun _ step hs hfit => hs.exec step hfit)
    (fun _ hs => hs.answers) (fresh_start clock) h

/-! ## Runs -/

/-- A backend with one memory that names the query and the moment, and a `casefold` of one letter. -/
def echoEnv : RecallEnv (String × Nat) (String × Nat) where
  casefold q := if q = "A" then "a" else q
  v4Recall moment _ _ _ _ query _ := [(query, moment)]
  memoryType _ := some "fact"
  content m := m.1
  format m := m
  render ms := String.intercalate ", " (ms.map (·.1))

def echoScope : RecallScope := ⟨"binding", "client", "tenant", "workspace", "dataset", "actor"⟩

def echoProfile : RecallProfile := ⟨8, 2500, ["fact"], 0⟩

/-- A search that names its types, if it does. -/
def echoRecall (recallId : Nat) (query : String) (types : Option (List String)) : RecallStep :=
  .ask recallId recallId ⟨query, "search", none, none, types⟩ echoScope echoProfile "policy"

/-- Two recalls share a fetch, a third is answered from the cache, and after a write a fourth is not. -/
theorem recalls_transparent_shared :
    Throughout (RecallService.exec echoEnv) (RecallService.Transparent echoEnv) (.start _ 0)
      [echoRecall 0 "a" none, echoRecall 1 "a" none, .read 0, .finish 0, .resume 0, .resume 1, .tick 30,
        echoRecall 2 "a" none, .write "client" true, echoRecall 3 "a" none, .read 3, .finish 3, .resume 3] :=
  recalls_transparent echoEnv 0 _ (by decide +kernel)

/-- A recall of `a` is cached; then `A` is asked for. -/
def foldedQuery : RecallService (String × Nat) :=
  run (RecallService.exec echoEnv) (.start _ 0)
    [echoRecall 0 "a" none, .read 0, .finish 0, .resume 0, echoRecall 1 "A" none]

/-- A recall without types is cached; then one with no types is made. -/
def foldedTypes : RecallService (String × Nat) :=
  run (RecallService.exec echoEnv) (.start _ 0)
    [echoRecall 0 "a" none, .read 0, .finish 0, .resume 0, echoRecall 1 "a" (some [])]

/-- The backend answers a fetch, a write completes, and a recall after it joins the fetch. -/
def joinedFetch : RecallService (String × Nat) :=
  run (RecallService.exec echoEnv) (.start _ 0)
    [echoRecall 0 "a" none, .read 0, .write "client" true, echoRecall 1 "a" none, .finish 0, .resume 0, .resume 1]

/-- A status poll finds that a write is committed, and a recall after it is answered from the cache. -/
def polledWrite : RecallService (String × Nat) :=
  run (RecallService.exec echoEnv) (.start _ 0)
    [echoRecall 0 "a" none, .read 0, .finish 0, .resume 0, .write "client" false, echoRecall 1 "a" none]

theorem recalls_not_transparent : ¬ foldedQuery.Transparent echoEnv ∧ ¬ foldedTypes.Transparent echoEnv ∧
    ¬ joinedFetch.Transparent echoEnv ∧ ¬ polledWrite.Transparent echoEnv := by
  refine ⟨fun h => ?_, fun h => ?_, fun h => ?_, fun h => ?_⟩
  · obtain ⟨m, -, -, hresult, -⟩ := h ⟨⟨echoScope, "A", 8, "search", 2500, none⟩, .search [("a", 2)] 1, 0, 5, 0, some (4, 0)⟩
      (by decide +kernel)
    simp [RecallEnv.fetchRecall, RecallEnv.ofTypes, echoEnv] at hresult
  · obtain ⟨m, -, -, hresult, -⟩ := h ⟨⟨echoScope, "a", 8, "search", 2500, some []⟩, .search [("a", 2)] 1, 0, 5, 0,
      some (4, 0)⟩ (by decide +kernel)
    simp [RecallEnv.fetchRecall, RecallEnv.ofTypes, echoEnv] at hresult
  · obtain ⟨m, hsince, -, hresult, -⟩ := h ⟨⟨echoScope, "a", 8, "search", 2500, none⟩, .search [("a", 2)] 1, 3, 7, 0, none⟩
      (by decide +kernel)
    simp [RecallEnv.fetchRecall, RecallEnv.ofTypes, echoEnv] at hresult
    subst hresult
    exact absurd hsince (by decide)
  · obtain ⟨m, hsince, -, hresult, -⟩ := h ⟨⟨echoScope, "a", 8, "search", 2500, none⟩, .search [("a", 2)] 1, 5, 6, 0,
      some (4, 0)⟩ (by decide +kernel)
    simp [RecallEnv.fetchRecall, RecallEnv.ofTypes, echoEnv] at hresult
    subst hresult
    exact absurd hsince (by decide)

end Mesa.Gateway
