/-
What runs of the finalization journal keep, for every interleaving of requests, workers and raw logs. The
attempts of a row are the claims of its session, and only the two waiting states are known to have attempts
left; a row whose lease has expired may have none.
-/
import Mesa.Consolidation.Finalization

namespace Mesa.Consolidation

open Mesa.Foundation

variable {s : FinalizationStore} {step : FinalizationStep} {agentId sessionId workerId token : String}

/-! ## The prefix test -/

theorem RawLogStatus.text_split (status : RawLogStatus) :
    ∃ rest, status.text.toList = status.state.text.toList ++ rest := by
  unfold RawLogStatus.text
  split
  next reason _ => exact ⟨_, String.toList_append⟩
  · exact ⟨[], (List.append_nil _).symm⟩

/-- `LIKE 'processed%'` sees the state of a status and not its reason. -/
theorem likePrefix_processed (status : RawLogStatus) :
    likePrefix "processed" status.text = decide (status.state = .processed) := by
  obtain ⟨rest, hrest⟩ := status.text_split
  unfold likePrefix
  rw [hrest, List.map_append]
  cases status.state <;> rfl

theorem likePrefix_rejected (status : RawLogStatus) :
    likePrefix "rejected" status.text = decide (status.state = .rejected) := by
  obtain ⟨rest, hrest⟩ := status.text_split
  unfold likePrefix
  rw [hrest, List.map_append]
  cases status.state <;> rfl

/-- A session that is not open has only processed and rejected raw logs. -/
theorem closed_logs (h : s.open agentId sessionId = false) {l : RawLog} (hl : l ∈ s.rawLogs.rows)
    (hagent : l.agentId = agentId) (hsession : l.session = some sessionId) :
    l.status.state = .processed ∨ l.status.state = .rejected := by
  have hpending := Table.anyWhere_eq_false.1 h l hl
  unfold RawLog.pending at hpending
  rw [likePrefix_processed, likePrefix_rejected, decide_eq_true (And.intro hagent hsession), Bool.true_and] at hpending
  by_cases hprocessed : l.status.state = .processed
  · exact .inl hprocessed
  · rw [decide_eq_false hprocessed, Bool.not_false, Bool.true_and] at hpending
    exact .inr (of_decide_eq_true (by simpa only [Bool.not_eq_false'] using hpending))

/-! ## Steps -/

/-- What one step does to the rows. -/
inductive FinalizationStore.Moves (s : FinalizationStore) (step : FinalizationStep) (r : Finalization) :
    Finalization → Prop
  | kept : s.Moves step r r
  | claimed {workerId token : String} {leaseSeconds now : Nat}
      (hstep : step = .claim r.agentId r.sessionId workerId token leaseSeconds now)
      (hadmitted : ¬ (¬ Purge.validAgentId r.agentId ∨ workerId = "" ∨ ¬ (1 ≤ leaseSeconds ∧ leaseSeconds ≤ 3600)))
      (hclaimable : r.claimable now = true) :
      s.Moves step r (r.claim workerId token (now + leaseSeconds))
  | completed {workerId token : String} (hstep : step = .complete r.agentId r.sessionId workerId token)
      (hclosed : s.open r.agentId r.sessionId = false) (hstate : r.state = .claimed) : s.Moves step r r.complete
  | failed {workerId token errorClass : String} (hstep : step = .fail r.agentId r.sessionId workerId token errorClass)
      (hstate : r.state = .claimed) : s.Moves step r (r.fail errorClass)

/-- A row stays, and its attempts grow with the claims of its session. -/
theorem exec_row (step : FinalizationStep) {r : Finalization} (h : s.journal.lookup (r.agentId, r.sessionId) = some r) :
    ∃ r', (s.exec step).journal.lookup (r.agentId, r.sessionId) = some r' ∧ s.Moves step r r' ∧
      (s.exec step).claims (r.agentId, r.sessionId) + r.attemptCount =
        s.claims (r.agentId, r.sessionId) + r'.attemptCount := by
  have hr := Table.lookup_mem h
  cases step with
  | request agentId sessionId fresh =>
    unfold FinalizationStore.exec FinalizationStore.request
    dsimp only
    split
    · exact ⟨r, h, .kept, rfl⟩
    split
    · exact ⟨r, h, .kept, rfl⟩
    split
    · exact ⟨r, h, .kept, rfl⟩
    · exact ⟨r, by rw [Table.lookup_insertOrIgnore, h, Option.some_or], .kept, rfl⟩
  | claim agentId sessionId workerId token leaseSeconds now =>
    unfold FinalizationStore.exec FinalizationStore.claim
    dsimp only
    split
    · exact ⟨r, h, .kept, rfl⟩
    next hadmitted =>
    refine ⟨_, by rw [Table.lookup_update, h, Option.map_some], ?_⟩
    by_cases hkey : r.agentId = agentId ∧ r.sessionId = sessionId
    · obtain ⟨rfl, rfl⟩ := hkey
      rw [decide_eq_true (And.intro (Eq.refl r.agentId) (Eq.refl r.sessionId)), Bool.true_and]
      by_cases hclaimable : r.claimable now = true
      · rw [if_pos hclaimable, if_pos]
        · dsimp only
          rw [Function.update_self]
          exact ⟨.claimed rfl hadmitted hclaimable, by
            show _ = _ + (r.attemptCount + 1)
            omega⟩
        · exact Table.anyWhere_iff.2 ⟨r, hr, by
            rw [decide_eq_true (And.intro (Eq.refl r.agentId) (Eq.refl r.sessionId)), Bool.true_and, hclaimable]⟩
      · rw [if_neg hclaimable, if_neg]
        · exact ⟨.kept, rfl⟩
        · intro hany
          obtain ⟨x, hx, hclaimed⟩ := Table.anyWhere_iff.1 hany
          obtain ⟨hsame, hx'⟩ := (Bool.and_eq_true _ _).mp hclaimed
          obtain ⟨hagent, hsession⟩ := of_decide_eq_true hsame
          obtain rfl : x = r := Table.eq_of_key_eq hx hr (congrArg₂ Prod.mk hagent hsession)
          exact hclaimable hx'
    · rw [decide_eq_false hkey, Bool.false_and, if_neg Bool.false_ne_true]
      refine ⟨.kept, ?_⟩
      split
      · dsimp only
        rw [Function.update_of_ne]
        intro hsame
        exact hkey ⟨congrArg Prod.fst hsame, congrArg Prod.snd hsame⟩
      · rfl
  | complete agentId sessionId workerId token =>
    unfold FinalizationStore.exec FinalizationStore.complete
    dsimp only
    split
    · exact ⟨r, h, .kept, rfl⟩
    next hclosed =>
    refine ⟨_, by rw [Table.lookup_update, h, Option.map_some], ?_⟩
    split
    next hheld =>
      obtain ⟨rfl, rfl, hstate, -⟩ := of_decide_eq_true hheld
      exact ⟨.completed rfl (eq_false_of_ne_true fun hopen => hclosed (.inr hopen)) hstate, rfl⟩
    · exact ⟨.kept, rfl⟩
  | fail agentId sessionId workerId token errorClass =>
    unfold FinalizationStore.exec FinalizationStore.fail
    dsimp only
    split
    · exact ⟨r, h, .kept, rfl⟩
    refine ⟨_, by rw [Table.lookup_update, h, Option.map_some], ?_⟩
    split
    next hheld =>
      obtain ⟨rfl, rfl, hstate, -⟩ := of_decide_eq_true hheld
      exact ⟨.failed rfl hstate, rfl⟩
    · exact ⟨.kept, rfl⟩
  | logs rawLogs => exact ⟨r, h, .kept, rfl⟩

/-- What a request writes for a session without a row. -/
structure FinalizationStore.Requested (s : FinalizationStore) (r : Finalization) : Prop where
  attemptCount : r.attemptCount = 0
  retryLimit : r.retryLimit = 3
  state : r.state = .pending ∨ r.state = .completed ∧ s.open r.agentId r.sessionId = false

/-- A session without a row is not claimed, and has one only after a request. -/
theorem exec_absent (step : FinalizationStep) {agentId sessionId : String}
    (h : s.journal.lookup (agentId, sessionId) = none) :
    (s.exec step).claims (agentId, sessionId) = s.claims (agentId, sessionId) ∧
      ∀ r, (s.exec step).journal.lookup (agentId, sessionId) = some r →
        s.Requested r ∧ (s.exec step).rawLogs = s.rawLogs := by
  have hkeep : ∀ r, s.journal.lookup (agentId, sessionId) = some r → s.Requested r ∧ s.rawLogs = s.rawLogs :=
    fun r hr => by rw [h] at hr; cases hr
  cases step with
  | request agentId' sessionId' fresh =>
    unfold FinalizationStore.exec FinalizationStore.request
    dsimp only
    split
    · exact ⟨rfl, hkeep⟩
    split
    · exact ⟨rfl, hkeep⟩
    split
    · exact ⟨rfl, hkeep⟩
    refine ⟨rfl, fun r hr => ⟨?_, rfl⟩⟩
    rcases Table.mem_insertOrIgnore.1 (Table.lookup_mem hr) with hold | ⟨rfl, -⟩
    · exact absurd (Table.lookup_key hr) (Table.lookup_eq_none.1 h r hold)
    · refine ⟨rfl, rfl, ?_⟩
      dsimp only
      split
      · exact .inl rfl
      next hclosed => exact .inr ⟨rfl, eq_false_of_ne_true hclosed⟩
  | claim agentId' sessionId' workerId token leaseSeconds now =>
    unfold FinalizationStore.exec FinalizationStore.claim
    dsimp only
    split
    · exact ⟨rfl, hkeep⟩
    refine ⟨?_, fun r hr => ?_⟩
    · split
      next hany =>
        dsimp only
        rw [Function.update_of_ne]
        intro hsame
        obtain ⟨x, hx, hclaimed⟩ := Table.anyWhere_iff.1 hany
        obtain ⟨hagent, hsession⟩ := of_decide_eq_true ((Bool.and_eq_true _ _).mp hclaimed).1
        exact Table.lookup_eq_none.1 h x hx ((congrArg₂ Prod.mk hagent hsession).trans hsame.symm)
      · rfl
    · rw [Table.lookup_update, h] at hr
      cases hr
  | complete agentId' sessionId' workerId token =>
    unfold FinalizationStore.exec FinalizationStore.complete
    dsimp only
    split
    · exact ⟨rfl, hkeep⟩
    refine ⟨rfl, fun r hr => ?_⟩
    rw [Table.lookup_update, h] at hr
    cases hr
  | fail agentId' sessionId' workerId token errorClass =>
    unfold FinalizationStore.exec FinalizationStore.fail
    dsimp only
    split
    · exact ⟨rfl, hkeep⟩
    refine ⟨rfl, fun r hr => ?_⟩
    rw [Table.lookup_update, h] at hr
    cases hr
  | logs rawLogs =>
    refine ⟨rfl, fun r hr => ?_⟩
    change s.journal.lookup (agentId, sessionId) = some r at hr
    rw [h] at hr
    cases hr

/-! ## What every run keeps -/

/-- The attempts of a row are the claims of its session, and a waiting row has attempts left. -/
structure FinalizationStore.Counted (s : FinalizationStore) : Prop where
  attempts : ∀ r, s.journal.lookup (r.agentId, r.sessionId) = some r →
    s.claims (r.agentId, r.sessionId) = r.attemptCount ∧ r.retryLimit = 3 ∧
      (r.state = .pending → r.attemptCount = 0) ∧ (r.state = .retryPending → r.attemptCount < r.retryLimit)
  absent : ∀ key, s.journal.lookup key = none → s.claims key = 0

theorem FinalizationStore.Counted.start (rawLogs : Table RawLog) : (FinalizationStore.start rawLogs).Counted :=
  ⟨fun _ hr => (by cases hr), fun _ _ => rfl⟩

theorem FinalizationStore.Moves.kept_key {r r' : Finalization} (h : s.Moves step r r') :
    r'.agentId = r.agentId ∧ r'.sessionId = r.sessionId ∧ r'.retryLimit = r.retryLimit := by
  cases h <;> exact ⟨rfl, rfl, rfl⟩

/-- A row after a step comes from a row before it or from a request. -/
theorem exec_rows (step : FinalizationStep) {r' : Finalization}
    (h : (s.exec step).journal.lookup (r'.agentId, r'.sessionId) = some r') :
    (∃ r, s.journal.lookup (r'.agentId, r'.sessionId) = some r ∧ s.Moves step r r' ∧
      (s.exec step).claims (r'.agentId, r'.sessionId) + r.attemptCount =
        s.claims (r'.agentId, r'.sessionId) + r'.attemptCount) ∨
    s.journal.lookup (r'.agentId, r'.sessionId) = none ∧ s.Requested r' ∧ (s.exec step).rawLogs = s.rawLogs ∧
      (s.exec step).claims (r'.agentId, r'.sessionId) = s.claims (r'.agentId, r'.sessionId) := by
  cases hbefore : s.journal.lookup (r'.agentId, r'.sessionId) with
  | none =>
    obtain ⟨hclaims, hnew⟩ := exec_absent step hbefore
    obtain ⟨hrequested, hlogs⟩ := hnew r' h
    exact .inr ⟨rfl, hrequested, hlogs, hclaims⟩
  | some r =>
    have hkey : (r.agentId, r.sessionId) = (r'.agentId, r'.sessionId) := Table.lookup_key hbefore
    rw [← hkey] at hbefore h ⊢
    obtain ⟨x, hx, hmoves, hclaims⟩ := exec_row step hbefore
    obtain rfl : r' = x := Option.some.inj (h.symm.trans hx)
    exact .inl ⟨r, rfl, hmoves, hclaims⟩

theorem FinalizationStore.Counted.exec (h : s.Counted) (step : FinalizationStep) : (s.exec step).Counted := by
  refine ⟨fun r' hr' => ?_, fun key hkey => ?_⟩
  · rcases exec_rows step hr' with ⟨r, hr, hmoves, hclaims⟩ | ⟨habsent, hrequested, -, hclaims⟩
    · have hsame : (r.agentId, r.sessionId) = (r'.agentId, r'.sessionId) := Table.lookup_key hr
      rw [← hsame] at hr hclaims ⊢
      obtain ⟨hcount, hlimit, hpending, hretry⟩ := h.attempts r hr
      refine ⟨by omega, hmoves.kept_key.2.2.trans hlimit, ?_, ?_⟩
      · cases hmoves with
        | kept => exact hpending
        | claimed | completed => exact fun hstate => (by cases hstate)
        | failed =>
          intro hstate
          unfold Finalization.fail at hstate
          dsimp only at hstate
          split at hstate <;> cases hstate
      · cases hmoves with
        | kept => exact hretry
        | claimed | completed => exact fun hstate => (by cases hstate)
        | failed =>
          intro hstate
          unfold Finalization.fail at hstate
          dsimp only at hstate
          split at hstate
          · cases hstate
          next hleft => exact not_le.1 hleft
    · refine ⟨by rw [hclaims, h.absent _ habsent, hrequested.attemptCount], hrequested.retryLimit,
        fun _ => hrequested.attemptCount, fun hstate => ?_⟩
      rcases hrequested.state with hp | ⟨hc, -⟩
      · rw [hp] at hstate
        cases hstate
      · rw [hc] at hstate
        cases hstate
  · obtain ⟨agentId, sessionId⟩ := key
    cases hbefore : s.journal.lookup (agentId, sessionId) with
    | none => rw [(exec_absent step hbefore).1, h.absent _ hbefore]
    | some r =>
      have hsame : (r.agentId, r.sessionId) = (agentId, sessionId) := Table.lookup_key hbefore
      rw [← hsame] at hbefore hkey
      obtain ⟨x, hx, -⟩ := exec_row step hbefore
      rw [hkey] at hx
      cases hx

def FinalizationStore.Bounded (s : FinalizationStore) : Prop :=
  ∀ r, s.journal.lookup (r.agentId, r.sessionId) = some r → r.attemptCount ≤ r.retryLimit

/-- A takeover that has attempts left keeps the bound. -/
theorem FinalizationStore.Bounded.exec (hbound : s.Bounded) (h : s.Counted) (hfit : s.fit step = true) : (s.exec step).Bounded := by
  intro r' hr'
  rcases exec_rows step hr' with ⟨r, hr, hmoves, -⟩ | ⟨-, hrequested, -, -⟩
  · have hsame : (r.agentId, r.sessionId) = (r'.agentId, r'.sessionId) := Table.lookup_key hr
    rw [← hsame] at hr
    have hr_bound := hbound r hr
    cases hmoves with
    | kept | completed | failed => exact hr_bound
    | @claimed workerId token leaseSeconds now hstep hadmitted hclaimable =>
      show r.attemptCount + 1 ≤ r.retryLimit
      obtain ⟨-, hlimit, hpending, hretry⟩ := h.attempts r hr
      rw [hstep] at hfit
      unfold FinalizationStore.fit at hfit
      dsimp only at hfit
      rw [decide_eq_false hadmitted, Bool.false_or, hr, Option.all_some] at hfit
      have hexpired := of_decide_eq_true hfit
      cases hstate : r.state with
      | pending =>
        have hzero := hpending hstate
        omega
      | retryPending => exact hretry hstate
      | claimed => exact hexpired hstate hclaimable
      | completed | blocked =>
        unfold Finalization.claimable at hclaimable
        rw [hstate] at hclaimable
        cases hclaimable
  · rw [hrequested.attemptCount]
    exact Nat.zero_le _

/-! ## What a step does -/

theorem exec_completed (step : FinalizationStep) {r : Finalization}
    (h : s.journal.lookup (r.agentId, r.sessionId) = some r) (hstate : r.state = .completed) :
    (s.exec step).journal.lookup (r.agentId, r.sessionId) = some r := by
  obtain ⟨r', hr', hmoves, -⟩ := exec_row step h
  cases hmoves with
  | kept => exact hr'
  | @claimed workerId token leaseSeconds now hstep hadmitted hclaimable =>
    unfold Finalization.claimable at hclaimable
    rw [hstate] at hclaimable
    cases hclaimable
  | completed hstep hclosed hclaimed | failed hstep hclaimed =>
    rw [hstate] at hclaimed
    cases hclaimed

theorem exec_enters (step : FinalizationStep) {r : Finalization}
    (h : (s.exec step).journal.lookup (r.agentId, r.sessionId) = some r) (hstate : r.state = .completed) :
    r ∈ s.journal.rows ∨ (s.exec step).rawLogs = s.rawLogs ∧ s.open r.agentId r.sessionId = false := by
  rcases exec_rows step h with ⟨x, hx, hmoves, -⟩ | ⟨-, hrequested, hlogs, -⟩
  · cases hmoves with
    | kept => exact .inl (Table.lookup_mem hx)
    | claimed => cases hstate
    | @completed workerId token hstep hclosed hclaimed =>
      subst hstep
      refine .inr ⟨?_, hclosed⟩
      show (s.complete _ _ _ _).rawLogs = _
      unfold FinalizationStore.complete
      split <;> rfl
    | failed =>
      unfold Finalization.fail at hstate
      dsimp only at hstate
      split at hstate <;> cases hstate
  · rcases hrequested.state with hpending | ⟨-, hclosed⟩
    · rw [hpending] at hstate
      cases hstate
    · exact .inr ⟨hlogs, hclosed⟩

/-- A call with a token that is not the current one. -/
theorem exec_stale (step : FinalizationStep) (hfence : step.fence = some (agentId, sessionId, workerId, token))
    (hstale : ∀ r, s.journal.lookup (agentId, sessionId) = some r → r.claimToken ≠ some token) : s.exec step = s := by
  have hheld (r : Finalization) (hr : r ∈ s.journal.rows) : r.heldBy agentId sessionId workerId token = false := by
    refine decide_eq_false ?_
    rintro ⟨rfl, rfl, -, -, htoken⟩
    exact hstale r (Table.lookup_of_mem hr) htoken
  cases step with
  | complete agentId' sessionId' workerId' token' =>
    obtain ⟨⟩ := hfence
    unfold FinalizationStore.exec FinalizationStore.complete
    dsimp only
    split
    · rfl
    · rw [Table.update_eq_self hheld]
  | fail agentId' sessionId' workerId' token' errorClass =>
    obtain ⟨⟩ := hfence
    unfold FinalizationStore.exec FinalizationStore.fail
    dsimp only
    split
    · rfl
    · rw [Table.update_eq_self hheld]
  | request | claim | logs => cases hfence

/-- A step does what is claimed unless it takes over a lease whose row has no attempts left. -/
theorem proper_iff (h : s.Counted) (hbound : s.Bounded) : s.Proper step ↔ s.fit step = true := by
  constructor
  · intro hproper
    cases step with
    | claim agentId sessionId workerId token leaseSeconds now =>
      unfold FinalizationStore.fit
      dsimp only
      rw [Bool.or_eq_true, or_iff_not_imp_left, decide_eq_true_eq]
      intro hadmitted
      cases hr : s.journal.lookup (agentId, sessionId) with
      | none => rfl
      | some r =>
        obtain ⟨⟩ : (r.agentId, r.sessionId) = (agentId, sessionId) := Table.lookup_key hr
        refine decide_eq_true fun hstate hclaimable => ?_
        obtain ⟨r', hr', -, hclaims⟩ :=
          exec_row (.claim r.agentId r.sessionId workerId token leaseSeconds now) hr
        -- the call takes the row over, so that the session has one more claim
        have hnow : r' = r.claim workerId token (now + leaseSeconds) := by
          unfold FinalizationStore.exec FinalizationStore.claim at hr'
          dsimp only at hr'
          rw [if_neg hadmitted, Table.lookup_update, hr, Option.map_some,
            decide_eq_true (And.intro (Eq.refl r.agentId) (Eq.refl r.sessionId)), Bool.true_and, if_pos hclaimable] at hr'
          exact (Option.some.inj hr').symm
        have hlimit := hproper.bounded r' (Table.lookup_mem hr')
        subst hnow
        have hcount := (h.attempts r hr).1
        change _ + _ = _ + (r.attemptCount + 1) at hclaims
        change (s.exec _).claims (r.agentId, r.sessionId) ≤ r.retryLimit at hlimit
        omega
    | request | complete | fail | logs => rfl
  · intro hfit
    refine ⟨fun r hr r' hr' hagent hsession => Table.eq_of_key_eq hr hr' (congrArg₂ Prod.mk hagent hsession), ?_, ?_,
      fun _ _ _ _ => exec_stale step, ?_⟩
    · intro r hr hstate
      refine (exec_enters step (Table.lookup_of_mem hr) hstate).imp_right fun ⟨hlogs, hclosed⟩ => ⟨hlogs, ?_⟩
      exact fun l hl => closed_logs hclosed hl
    · intro r hr hstate
      exact Table.lookup_mem (exec_completed step (Table.lookup_of_mem hr) hstate)
    · intro r hr
      rw [(h.exec step).attempts r (Table.lookup_of_mem hr) |>.1]
      exact hbound.exec h hfit r (Table.lookup_of_mem hr)

theorem along_proper_iff {steps : List FinalizationStep} (h : s.Counted) (hbound : s.Bounded) :
    Along FinalizationStore.exec FinalizationStore.Proper s steps ↔
      Along FinalizationStore.exec (fun s step => s.fit step = true) s steps :=
  along_iff (I := FinalizationStore.Counted) (B := FinalizationStore.Bounded) (fun _ step h => h.exec step)
    (fun _ _ h hbound => proper_iff h hbound) (fun _ _ h hbound hfit => hbound.exec h hfit) h hbound

theorem FinalizationStore.Bounded.start (rawLogs : Table RawLog) : (FinalizationStore.start rawLogs).Bounded :=
  fun _ hr => (by cases hr)

/-- A run keeps to what is claimed of the journal exactly when no claim takes over an expired lease whose row has no
attempts left. -/
theorem finalization_proper_iff (rawLogs : Table RawLog) (steps : List FinalizationStep) :
    Along FinalizationStore.exec FinalizationStore.Proper (.start rawLogs) steps ↔
      Along FinalizationStore.exec (fun s step => s.fit step = true) (.start rawLogs) steps :=
  along_proper_iff (.start rawLogs) (.start rawLogs)

/-! ## A run that meets the defect -/

/-- A session with a deferred raw log, and four workers that die holding the lease. -/
def abandonedSession : List FinalizationStep :=
  [.logs ⟨[⟨1, "agent", some "session", ⟨.deferred, none⟩⟩], by decide⟩, .request "agent" "session" "id",
    .claim "agent" "session" "worker" "first" 300 0, .claim "agent" "session" "worker" "second" 300 300,
    .claim "agent" "session" "worker" "third" 300 600, .claim "agent" "session" "worker" "fourth" 300 900]

theorem finalization_claimed_beyond_limit :
    (run FinalizationStore.exec (.start .empty) abandonedSession).claims ("agent", "session") = 4 ∧
      (run FinalizationStore.exec (.start .empty) abandonedSession).journal.rows.map Finalization.retryLimit = [3] ∧
      ¬ Along FinalizationStore.exec FinalizationStore.Proper (.start .empty) abandonedSession := by
  have hfit : ¬ Along FinalizationStore.exec (fun s step => s.fit step = true) (.start .empty) abandonedSession := by
    decide +kernel
  exact ⟨by decide +kernel, by decide +kernel, fun h => hfit ((along_proper_iff (.start .empty) (.start .empty)).1 h)⟩

end Mesa.Consolidation
