/-
Which sessions calls use. As long as different scopes have different cache keys, every call uses a
session that was started for its own scope, and a call that was told that a session is inactive is
never given that session again.
-/
import Mesa.Gateway.Sessions

namespace Mesa.Gateway

open Mesa.Foundation

/-- Each session that a call used was started for the scope of the call, and is not the one that the
call was told to be inactive. -/
def Service.Isolated (s : Service) : Prop :=
  ∀ u ∈ s.uses, (u.sessionId, u.scope) ∈ s.started ∧ u.conflicted ≠ some u.sessionId

/-- A new call has no scope whose key is the one of another scope that was called before. -/
def Service.Distinct (s : Service) : ServiceStep → Prop
  | .call _ _ ids => ∀ scope ∈ s.called,
      sessionCacheKey scope = sessionCacheKey (s.defaults.resolve ids) → scope = s.defaults.resolve ids
  | _ => True

instance Service.Distinct.decidable (s : Service) : ∀ step, Decidable (s.Distinct step)
  | .call _ _ _ => inferInstanceAs (Decidable (∀ scope ∈ s.called, _))
  | .acquire _ _ | .startSession _ _ _ | .answer _ _ _ | .cancel _ => inferInstanceAs (Decidable True)

/-! ## The invariant -/

/-- No session of this id is cached, and the server gives the id to no new one. -/
def Service.Gone (s : Service) (sessionId : String) : Prop :=
  sessionId ∈ s.started.map (·.1) ∧ ∀ e ∈ s.cache.cache.rows, e.value ≠ sessionId

/-- A call that waits for a session has lost the one that it was told to be inactive, and a call that
has a session has one of its scope. -/
def Service.Fine (s : Service) (c : ServiceCall) : Prop :=
  c.scope ∈ s.called ∧
    match c.phase with
    | .waiting conflicted | .starting conflicted => ∀ id, conflicted = some id → s.Gone id
    | .requesting sessionId _ => (sessionId, c.scope) ∈ s.started

structure Service.Scoped (s : Service) : Prop where
  keyed : ∀ scope ∈ s.called, ∀ scope' ∈ s.called, sessionCacheKey scope = sessionCacheKey scope' → scope = scope'
  unique : (s.started.map (·.1)).Nodup
  cached : ∀ e ∈ s.cache.cache.rows, ∃ scope ∈ s.called, e.key = sessionCacheKey scope ∧ (e.value, scope) ∈ s.started
  calls : ∀ t c, s.calls t = some c → s.Fine c
  uses : s.Isolated

theorem Service.Scoped.start (defaults : SessionScope) : (Service.start defaults).Scoped where
  keyed _ h := by cases h
  unique := List.nodup_nil
  cached _ h := by cases h
  calls _ _ h := by cases h
  uses _ h := by cases h

variable {s s' : Service} {t : Nat}

/-- What a step does to the fields that calls depend on. -/
structure Service.Grows (s s' : Service) : Prop where
  called : ∀ scope ∈ s.called, scope ∈ s'.called
  started : ∀ p ∈ s.started, p ∈ s'.started
  cache : ∀ e ∈ s'.cache.cache.rows, e ∈ s.cache.cache.rows ∨ e.value ∉ s.started.map (·.1)

theorem Service.Gone.grows {id : String} (h : s.Gone id) (hg : s.Grows s') : s'.Gone id := by
  obtain ⟨p, hp, rfl⟩ := List.mem_map.1 h.1
  refine ⟨List.mem_map.2 ⟨p, hg.started p hp, rfl⟩, fun e he => ?_⟩
  rcases hg.cache e he with he | hfresh
  · exact h.2 e he
  · rintro hvalue
    exact hfresh (hvalue ▸ h.1)

theorem Service.Fine.grows {c : ServiceCall} (h : s.Fine c) (hg : s.Grows s') : s'.Fine c := by
  obtain ⟨hscope, hphase⟩ := h
  refine ⟨hg.called _ hscope, ?_⟩
  cases hp : c.phase <;> rw [hp] at hphase
  · exact fun id hid => (hphase id hid).grows hg
  · exact fun id hid => (hphase id hid).grows hg
  · exact hg.started _ hphase

/-- A task that goes on, with a call that is fine. -/
theorem Service.Scoped.goTo (h : s.Scoped) (c : Option ServiceCall) (hc : ∀ call, c = some call → s.Fine call) :
    (s.goTo t c).Scoped where
  keyed := h.keyed
  unique := h.unique
  cached := h.cached
  calls t' call hcall := by
    have hcall : Function.update s.calls t c t' = some call := hcall
    by_cases ht : t' = t
    · subst ht
      rw [Function.update_self] at hcall
      exact hc call hcall
    · rw [Function.update_of_ne ht] at hcall
      exact h.calls t' call hcall
  uses := h.uses

/-- The locks play no part. -/
theorem Service.Scoped.locks (h : s.Scoped) (locks : KeyedLocks) : Service.Scoped { s with locks } :=
  ⟨h.keyed, h.unique, h.cached, h.calls, h.uses⟩

theorem Service.Scoped.finish (h : s.Scoped) (t : Nat) : (s.finish t).Scoped :=
  (h.locks _).goTo none fun _ hc => by cases hc

/-- Entries that leave the cache. -/
theorem Service.Scoped.trim (h : s.Scoped) {cache : BoundedLRUCache String String}
    (hsub : ∀ e ∈ cache.cache.rows, e ∈ s.cache.cache.rows) : Service.Scoped { s with cache } where
  keyed := h.keyed
  unique := h.unique
  cached e he := h.cached e (hsub e he)
  calls t c hc := (h.calls t c hc).grows ⟨fun _ => id, fun _ => id, fun e he => .inl (hsub e he)⟩
  uses := h.uses

theorem Service.Scoped.use (h : s.Scoped) {c : ServiceCall} {sessionId : String} {conflicted : Option String}
    (hscope : c.scope ∈ s.called) (hstarted : (sessionId, c.scope) ∈ s.started) (hne : conflicted ≠ some sessionId) :
    (s.use t c sessionId conflicted).Scoped := by
  have huses : Service.Scoped { s with
      locks := s.locks.leave t, uses := ⟨c.scope, sessionId, conflicted⟩ :: s.uses } := by
    refine ⟨h.keyed, h.unique, h.cached, h.calls, fun u hu => ?_⟩
    rcases List.mem_cons.1 hu with rfl | hu
    · exact ⟨hstarted, hne⟩
    · exact h.uses u hu
  refine huses.goTo _ fun call hcall => ?_
  cases hcall
  exact ⟨hscope, hstarted⟩

theorem Service.Scoped.enter (h : s.Scoped) {c : ServiceCall} {conflicted : Option String} (hscope : c.scope ∈ s.called)
    (hgone : ∀ id, conflicted = some id → s.Gone id) : (s.enter t c conflicted).Scoped := by
  unfold Service.enter
  split
  · refine (h.locks _).goTo _ fun call hcall => ?_
    cases hcall
    exact ⟨hscope, hgone⟩
  · exact h.finish t

/-- The server starts a session under a new id. -/
theorem Service.Scoped.begin (h : s.Scoped) {scope : SessionScope} {id : String} {now : ℚ} (hscope : scope ∈ s.called)
    (hfresh : id ∉ s.started.map (·.1)) : Service.Scoped { s with
      started := (id, scope) :: s.started
      cache := s.cache.put (sessionCacheKey scope) id none now } where
  keyed := h.keyed
  unique := List.nodup_cons.2 ⟨hfresh, h.unique⟩
  cached e he := by
    rcases mem_put he with rfl | ⟨he, -⟩
    · exact ⟨scope, hscope, rfl, List.mem_cons_self⟩
    · obtain ⟨scope', hscope', hkey, hstarted⟩ := h.cached e he
      exact ⟨scope', hscope', hkey, List.mem_cons_of_mem _ hstarted⟩
  calls t c hc := (h.calls t c hc).grows
    { called := fun _ hs => hs
      started := fun _ hp => List.mem_cons_of_mem _ hp
      cache := fun e he => by
        rcases mem_put he with rfl | ⟨he, -⟩
        · exact .inr hfresh
        · exact .inl he }
  uses u hu := ⟨List.mem_cons_of_mem _ (h.uses u hu).1, (h.uses u hu).2⟩

theorem mem_invalidate {c : BoundedLRUCache String String} {key sessionId : String} {now : ℚ}
    {e : CacheEntry String String} (h : e ∈ (c.invalidate key sessionId now).cache.rows) :
    e ∈ c.cache.rows ∧ (e.key = key → e.value ≠ sessionId) := by
  unfold BoundedLRUCache.invalidate at h
  dsimp only at h
  split at h
  · obtain ⟨he, hkey⟩ := mem_pop.1 h
    exact ⟨(mem_get.1 he).1, fun heq => absurd heq hkey⟩
  · next hfound =>
    obtain ⟨he, hlive⟩ := mem_get.1 h
    refine ⟨he, fun hkey hvalue => hfound ?_⟩
    exact get_eq_some.2 ⟨e, he, hkey, hvalue, hlive⟩

/-- A session is started for one scope. -/
theorem Service.Scoped.scope_unique (h : s.Scoped) {id : String} {scope scope' : SessionScope}
    (hs : (id, scope) ∈ s.started) (hs' : (id, scope') ∈ s.started) : scope = scope' :=
  (Prod.mk.inj (List.inj_on_of_nodup_map h.unique hs hs' rfl)).2

/-- After its invalidation a session is not in the cache. -/
theorem Service.Scoped.gone (h : s.Scoped) {scope : SessionScope} {id : String} {now : ℚ}
    (hstarted : (id, scope) ∈ s.started) :
    Service.Gone { s with cache := s.cache.invalidate (sessionCacheKey scope) id now } id := by
  refine ⟨List.mem_map.2 ⟨_, hstarted, rfl⟩, fun e he hvalue => ?_⟩
  obtain ⟨he, hkey⟩ := mem_invalidate he
  obtain ⟨scope', -, hkey', hstarted'⟩ := h.cached e he
  rw [hvalue] at hstarted'
  obtain rfl := h.scope_unique hstarted hstarted'
  exact hkey hkey' hvalue

/-! ## Steps -/

theorem Service.Scoped.acquire (h : s.Scoped) (t : Nat) (now : ℚ) : (s.acquire t now).Scoped := by
  unfold Service.acquire
  split
  case h_2 => exact h
  case h_1 kind scope conflicted hcall =>
    obtain ⟨hscope, hgone⟩ := h.calls t _ hcall
    split
    case isFalse => exact h
    case isTrue =>
      split
      · next cache sessionId hget =>
        have hsub : ∀ e ∈ cache.cache.rows, e ∈ s.cache.cache.rows := fun e he =>
          (mem_get.1 (by rw [hget]; exact he)).1
        obtain ⟨e, he, hkey, rfl, -⟩ := get_eq_some.1 (congrArg Prod.snd hget)
        obtain ⟨scope', hscope', hkey', hstarted⟩ := h.cached e he
        obtain rfl := h.keyed scope hscope scope' hscope' (hkey.symm.trans hkey')
        refine (h.trim hsub).use hscope hstarted ?_
        rintro rfl
        exact (hgone _ rfl).2 e he rfl
      · next cache hget =>
        have hsub : ∀ e ∈ cache.cache.rows, e ∈ s.cache.cache.rows := fun e he =>
          (mem_get.1 (by rw [hget]; exact he)).1
        refine ((h.trim hsub).locks _).goTo _ fun call hc => ?_
        cases hc
        exact ⟨hscope, fun id hid => (hgone id hid).grows ⟨fun _ hp => hp, fun _ hp => hp, fun e he => .inl (hsub e he)⟩⟩

theorem Service.Scoped.startSession (h : s.Scoped) (t : Nat) (sessionId : Option String) (now : ℚ) :
    (s.startSession t sessionId now).Scoped := by
  unfold Service.startSession
  split
  · next kind scope conflicted id hcall =>
    obtain ⟨hscope, hgone⟩ := h.calls t _ hcall
    split
    · exact h
    · next hfresh =>
      refine (h.begin hscope hfresh).use hscope List.mem_cons_self ?_
      rintro rfl
      exact hfresh (hgone id rfl).1
  · exact h.finish t
  · exact h

theorem Service.Scoped.answer (h : s.Scoped) (t : Nat) (inactive : Bool) (now : ℚ) :
    (s.answer t inactive now).Scoped := by
  unfold Service.answer
  split
  · next kind scope sessionId hcall =>
    obtain ⟨hscope, hstarted⟩ := h.calls t _ hcall
    split
    · refine (h.trim fun e he => (mem_invalidate he).1).enter hscope ?_
      rintro _ ⟨⟩
      exact h.gone hstarted
    · exact h.finish t
  · exact h.finish t
  · exact h

theorem Service.Scoped.call (h : s.Scoped) (t : Nat) (kind : CallKind) (ids : CallIds)
    (hdistinct : s.Distinct (.call t kind ids)) : (s.call t kind ids).Scoped := by
  unfold Service.call
  split
  · have hcalled : Service.Scoped { s with called := s.defaults.resolve ids :: s.called } := by
      refine ⟨?_, h.unique, ?_, ?_, h.uses⟩
      · intro scope hscope scope' hscope' hkey
        rcases List.mem_cons.1 hscope with rfl | hscope <;> rcases List.mem_cons.1 hscope' with rfl | hscope'
        · rfl
        · exact (hdistinct scope' hscope' hkey.symm).symm
        · exact hdistinct scope hscope hkey
        · exact h.keyed scope hscope scope' hscope' hkey
      · intro e he
        obtain ⟨scope, hscope, hrest⟩ := h.cached e he
        exact ⟨scope, List.mem_cons_of_mem _ hscope, hrest⟩
      · intro t' c hc
        exact (h.calls t' c hc).grows ⟨fun _ hm => List.mem_cons_of_mem _ hm, fun _ hp => hp, fun _ he => .inl he⟩
    exact hcalled.enter List.mem_cons_self (by rintro _ ⟨⟩)
  · exact h

theorem Service.Scoped.exec (h : s.Scoped) (step : ServiceStep) (hdistinct : s.Distinct step) : (s.exec step).Scoped := by
  cases step with
  | call t kind ids => exact h.call t kind ids hdistinct
  | acquire t now => exact h.acquire t now
  | startSession t sessionId now => exact h.startSession t sessionId now
  | answer t inactive now => exact h.answer t inactive now
  | cancel t =>
    show (s.cancel t).Scoped
    unfold Service.cancel
    split
    · exact h.finish t
    · exact h

/-! ## Runs -/

/-- Over every interleaving of calls, evictions, expiries and conflicts in which different scopes have
different keys: every call uses sessions that were started for its own scope, and after a conflict
another one than that of the conflict. -/
theorem sessions_isolated (defaults : SessionScope) (steps : List ServiceStep)
    (h : Along Service.exec Service.Distinct (.start defaults) steps) :
    Throughout Service.exec Service.Isolated (.start defaults) steps :=
  throughout_of_invariant (I := Service.Scoped) (fun _ step hs hd => hs.exec step hd) (fun _ hs => hs.uses) (.start defaults) h

/-- The settings' defaults of the two runs below. -/
def localDefaults : SessionScope := ⟨"local", "main", "agent", "notes"⟩

/-- A recall gets its first session, which expires while the request is under way: the recall is told
so and asks again, for a session of the same scope. -/
theorem sessions_isolated_conflict :
    Throughout Service.exec Service.Isolated (.start localDefaults)
      [.call 0 .recall ⟨some "a", none, none, none⟩, .acquire 0 0, .startSession 0 (some "s1") 0, .answer 0 true 1,
        .acquire 0 1, .startSession 0 (some "s2") 1, .answer 0 false 2] :=
  sessions_isolated _ _ (by decide +kernel)

/-- The tenant `a:b` with the workspace `c` has the key of the tenant `a` with the workspace `b:c`, whose
recall is made with the session of the former. -/
theorem session_crosses_tenants :
    let steps : List ServiceStep :=
      [.call 0 .recall ⟨some "a:b", some "c", none, none⟩, .acquire 0 0, .startSession 0 (some "s1") 0, .answer 0 false 0,
        .call 1 .recall ⟨some "a", some "b:c", none, none⟩, .acquire 1 1]
    ¬ Throughout Service.exec Service.Isolated (.start localDefaults) steps ∧
      (run Service.exec (.start localDefaults) steps).uses.map (fun u => (u.scope.tenantId, u.sessionId)) =
        [("a", "s1"), ("a:b", "s1")] ∧
      (run Service.exec (.start localDefaults) steps).started.map (fun p => (p.1, p.2.tenantId)) = [("s1", "a:b")] := by
  have hrun : ∀ (s : Service) (l : List ServiceStep), Throughout Service.exec Service.Isolated s l →
      (run Service.exec s l).Isolated := by
    intro s l
    induction l generalizing s with
    | nil => exact id
    | cons _ _ ih => exact fun h => ih _ h.2
  refine ⟨fun h => ?_, by decide +kernel, by decide +kernel⟩
  have hisolated := hrun _ _ h
  revert hisolated
  unfold Service.Isolated
  decide +kernel

end Mesa.Gateway
