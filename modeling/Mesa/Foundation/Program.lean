/-
A small program logic for coroutines: computations that read a context, change a state and return
a value or raise, where the changes made before an exception stay. Two judgements over an
invariant of the state: what a returned value satisfies, and that the outcome does not depend on
the state it starts from.
-/
import Mathlib.Tactic

namespace Mesa.Foundation

/-- A computation that reads `ρ`, changes `σ` and returns an `α` or raises an `ε`. -/
def Prog (ρ σ ε α : Type) : Type := ρ → σ → Except ε α × σ

namespace Prog

variable {ρ σ ε α β : Type}

/-- Return `a` and touch nothing. -/
protected def pure (a : α) : Prog ρ σ ε α := fun _ s => (.ok a, s)

protected def bind (m : Prog ρ σ ε α) (f : α → Prog ρ σ ε β) : Prog ρ σ ε β := fun c s =>
  match m c s with
  | (.ok a, t) => f a c t
  | (.error e, t) => (.error e, t)

instance : Monad (Prog ρ σ ε) where
  pure := Prog.pure
  bind := Prog.bind

def raise (e : ε) : Prog ρ σ ε α := fun _ s => (.error e, s)

def modify (f : σ → σ) : Prog ρ σ ε Unit := fun _ s => (.ok (), f s)

/-- `try: m  except: h`; what `m` has changed stays. -/
def handle (m : Prog ρ σ ε α) (h : ε → Prog ρ σ ε α) : Prog ρ σ ε α := fun c s =>
  match m c s with
  | (.ok a, t) => (.ok a, t)
  | (.error e, t) => h e c t

/-- `if slot in state: return it` and otherwise load it and keep it in the slot. -/
def memo (get : σ → Option α) (put : α → σ → σ) (load : Prog ρ σ ε α) : Prog ρ σ ε α := fun c s =>
  match get s with
  | some a => (.ok a, s)
  | none => (load.bind fun a _ t => (.ok a, put a t)) c s

/-- The results of `f` over a list, from left to right. -/
def forEach (f : α → Prog ρ σ ε β) : List α → Prog ρ σ ε (List β)
  | [] => pure []
  | a :: l => do
    let b ← f a
    let bs ← forEach f l
    pure (b :: bs)

theorem bind_eq (m : Prog ρ σ ε α) (f : α → Prog ρ σ ε β) : (m >>= f) = m.bind f := rfl

theorem pure_eq (a : α) : (pure a : Prog ρ σ ε α) = Prog.pure a := rfl

/-! ## What a returned value satisfies -/

/-- Where `m` returns, in a context of `C` and from a state of the invariant, it ends in one, and the
value satisfies `Q`. -/
def Ensures (C : ρ → Prop) (I : σ → Prop) (m : Prog ρ σ ε α) (Q : α → Prop) : Prop :=
  ∀ c s a t, C c → I s → m c s = (.ok a, t) → I t ∧ Q a

section Ensures

variable {C : ρ → Prop} {I : σ → Prop} {m : Prog ρ σ ε α} {f : α → Prog ρ σ ε β} {Q : α → Prop} {R : β → Prop}

theorem bind_ok {c : ρ} {s t : σ} {a : α} (h : m c s = (.ok a, t)) : (m >>= f) c s = f a c t := by
  rw [bind_eq]; simp only [Prog.bind, h]

theorem bind_error {c : ρ} {s t : σ} {e : ε} (h : m c s = (.error e, t)) :
    (m >>= f) c s = (.error e, t) := by
  rw [bind_eq]; simp only [Prog.bind, h]

theorem handle_ok {h : ε → Prog ρ σ ε α} {c : ρ} {s t : σ} {a : α} (hm : m c s = (.ok a, t)) :
    m.handle h c s = (.ok a, t) := by
  simp only [handle, hm]

theorem handle_error {h : ε → Prog ρ σ ε α} {c : ρ} {s t : σ} {e : ε} (hm : m c s = (.error e, t)) :
    m.handle h c s = h e c t := by
  simp only [handle, hm]

/-- A sequence that returns did so in both its parts. -/
theorem bind_returns {c : ρ} {s u : σ} {b : β} (h : (m >>= f) c s = (.ok b, u)) :
    ∃ a t, m c s = (.ok a, t) ∧ f a c t = (.ok b, u) := by
  rcases hr : m c s with ⟨r, t⟩
  cases r with
  | ok a => rw [bind_ok hr] at h; exact ⟨a, t, rfl, h⟩
  | error e => rw [bind_error hr] at h; cases h

theorem Ensures.mono {P : α → Prop} (h : Ensures C I m Q) (hp : ∀ a, Q a → P a) : Ensures C I m P :=
  fun c s a t hc hs hr => ⟨(h c s a t hc hs hr).1, hp a (h c s a t hc hs hr).2⟩

theorem Ensures.pure {a : α} (h : Q a) : Ensures C I (Pure.pure a : Prog ρ σ ε α) Q := by
  intro c s b t hc hs hr
  cases hr
  exact ⟨hs, h⟩

theorem Ensures.raise {e : ε} : Ensures C I (Prog.raise e : Prog ρ σ ε α) Q := by
  intro c s b t hc hs hr
  cases hr

theorem Ensures.bind (hm : Ensures C I m Q) (hf : ∀ a, Q a → Ensures C I (f a) R) : Ensures C I (m >>= f) R := by
  intro c s b u hc hs hr
  obtain ⟨a, t, hma, hfa⟩ := bind_returns hr
  obtain ⟨hi, hq⟩ := hm c s a t hc hs hma
  exact hf a hq c t b u hc hi hfa

theorem Ensures.modify {g : σ → σ} (hg : ∀ s, I s → I (g s)) :
    Ensures C I (Prog.modify g : Prog ρ σ ε Unit) fun _ => True := by
  intro c s b t hc hs hr
  cases hr
  exact ⟨hg s hs, trivial⟩

theorem Ensures.memo {get : σ → Option α} {put : α → σ → σ} (hload : Ensures C I m Q)
    (hget : ∀ s a, I s → get s = some a → Q a) (hput : ∀ s a, I s → Q a → I (put a s)) :
    Ensures C I (Prog.memo get put m) Q := by
  intro c s b u hc hs hr
  simp only [Prog.memo] at hr
  cases hg : get s with
  | some a =>
    rw [hg] at hr
    cases hr
    exact ⟨hs, hget s _ hs hg⟩
  | none =>
    rw [hg] at hr
    obtain ⟨a, t, hma, hfa⟩ := bind_returns (f := fun a _ t => (.ok a, put a t)) hr
    obtain ⟨hi, hq⟩ := hload c s a t hc hs hma
    cases hfa
    exact ⟨hput t _ hi hq, hq⟩

/-- A loop ensures of every result what one round ensures of its own. -/
theorem Ensures.forEach {S : α → β → Prop} : ∀ {l : List α}, (∀ a ∈ l, Ensures C I (f a) (S a)) →
    Ensures C I (Prog.forEach f l) fun bs => List.Forall₂ S l bs
  | [], _ => Ensures.pure List.Forall₂.nil
  | a :: l, h => by
    refine Ensures.bind (h a (List.mem_cons_self ..)) fun b hb => ?_
    refine Ensures.bind (Ensures.forEach fun x hx => h x (List.mem_cons_of_mem _ hx)) fun bs hbs => ?_
    exact Ensures.pure (List.Forall₂.cons hb hbs)

end Ensures

/-! ## Programs that raise nothing of their own -/

/-- An exception that the context injects (`F`) ends `m`. -/
def Interrupted (F : ρ → ε → Prop) (m : Prog ρ σ ε α) (c : ρ) (s : σ) : Prop :=
  ∃ e, F c e ∧ (m c s).1 = .error e

/-- From every state of the invariant `m` returns, unless it is interrupted. -/
def Unfailing (I : σ → Prop) (F : ρ → ε → Prop) (m : Prog ρ σ ε α) : Prop :=
  ∀ c s, I s → (∃ a t, m c s = (.ok a, t)) ∨ Interrupted F m c s

section Unfailing

variable {I : σ → Prop} {F : ρ → ε → Prop} {m : Prog ρ σ ε α} {f : α → Prog ρ σ ε β} {Q : α → Prop}

theorem Interrupted.bind {c : ρ} {s : σ} (h : Interrupted F m c s) : Interrupted F (m >>= f) c s := by
  obtain ⟨e, he, h⟩ := h
  rcases hr : m c s with ⟨r, t⟩
  rw [hr] at h
  cases h
  exact ⟨e, he, by rw [bind_error hr]⟩

/-- The rest of a sequence is interrupted, and with it the sequence. -/
theorem Interrupted.bind_rest {c : ρ} {s t : σ} {a : α} (hm : m c s = (.ok a, t)) (h : Interrupted F (f a) c t) :
    Interrupted F (m >>= f) c s := by
  obtain ⟨e, he, h⟩ := h
  exact ⟨e, he, by rw [bind_ok hm]; exact h⟩

theorem Unfailing.pure (a : α) : Unfailing I F (Pure.pure a : Prog ρ σ ε α) := fun _ s _ => .inl ⟨a, s, rfl⟩

theorem Unfailing.modify (g : σ → σ) : Unfailing I F (Prog.modify g : Prog ρ σ ε Unit) :=
  fun _ s _ => .inl ⟨(), g s, rfl⟩

theorem Unfailing.bind (hm : Unfailing I F m) (hq : Ensures (fun _ => True) I m Q)
    (hf : ∀ a, Q a → Unfailing I F (f a)) : Unfailing I F (m >>= f) := by
  intro c s hs
  rcases hm c s hs with ⟨a, t, hr⟩ | h
  · obtain ⟨hi, ha⟩ := hq c s a t trivial hs hr
    rcases hf a ha c t hi with ⟨b, u, hb⟩ | h
    · exact .inl ⟨b, u, by rw [bind_ok hr, hb]⟩
    · exact .inr (h.bind_rest hr)
  · exact .inr h.bind

theorem memo_of_none {get : σ → Option α} {put : α → σ → σ} {c : ρ} {s : σ} (hg : get s = none) :
    Prog.memo get put m c s = (m.bind fun a _ t => (.ok a, put a t)) c s := by
  simp only [Prog.memo, hg]

/-- The outcome of a memoised load with an empty slot is that of the load. -/
theorem memo_outcome {get : σ → Option α} {put : α → σ → σ} {c : ρ} {s : σ} (hg : get s = none) :
    (Prog.memo get put m c s).1 = (m c s).1 := by
  rcases hr : m c s with ⟨r, t⟩
  simp only [Prog.memo, hg, Prog.bind, hr]
  cases r <;> rfl

/-- The load of a memoised item runs only while its slot is empty. -/
theorem Unfailing.memo_of_empty {get : σ → Option α} {put : α → σ → σ}
    (hload : Unfailing (fun s => I s ∧ get s = none) F m) : Unfailing I F (Prog.memo get put m) := by
  intro c s hs
  cases hg : get s with
  | some a => exact .inl ⟨a, s, by simp only [Prog.memo, hg]⟩
  | none =>
    rcases hload c s ⟨hs, hg⟩ with ⟨a, t, hr⟩ | ⟨e, he, h⟩
    · exact .inl ⟨a, put a t, by rw [memo_of_none hg]; simp only [Prog.bind, hr]⟩
    · exact .inr ⟨e, he, (memo_outcome hg).trans h⟩

theorem Unfailing.memo {get : σ → Option α} {put : α → σ → σ} (hload : Unfailing I F m) :
    Unfailing I F (Prog.memo get put m) :=
  Unfailing.memo_of_empty fun c s hs => hload c s hs.1

theorem Unfailing.forEach {g : β → Prog ρ σ ε α} {S : β → α → Prop} : ∀ {l : List β},
    (∀ b ∈ l, Unfailing I F (g b)) → (∀ b ∈ l, Ensures (fun _ => True) I (g b) (S b)) →
    Unfailing I F (Prog.forEach g l)
  | [], _, _ => Unfailing.pure []
  | b :: l, hu, he => by
    refine Unfailing.bind (hu b (List.mem_cons_self ..)) (he b (List.mem_cons_self ..)) fun a _ => ?_
    refine Unfailing.bind (Unfailing.forEach (fun x hx => hu x (List.mem_cons_of_mem _ hx)) fun x hx =>
      he x (List.mem_cons_of_mem _ hx)) (Ensures.forEach fun x hx => he x (List.mem_cons_of_mem _ hx)) ?_
    exact fun as _ => Unfailing.pure (a :: as)

end Unfailing

/-! ## Outcomes that do not depend on the starting state -/

/-- `m` has the same outcome in any two contexts and from any two states of the invariant, unless
one of the two runs is interrupted. -/
def Transparent (I : σ → Prop) (F : ρ → ε → Prop) (m : Prog ρ σ ε α) : Prop :=
  ∀ c s c' s', I s → I s' → (m c s).1 = (m c' s').1 ∨ Interrupted F m c s ∨ Interrupted F m c' s'

section Transparent

variable {I J : σ → Prop} {F : ρ → ε → Prop} {m : Prog ρ σ ε α} {f : α → Prog ρ σ ε β} {Q : α → Prop}

/-- A value that is returned for certain and determined is transparent. -/
theorem Unfailing.transparent (hm : Unfailing I F m) (hq : Ensures (fun _ => True) I m Q)
    (hone : ∀ a b, Q a → Q b → a = b) : Transparent I F m := by
  intro c s c' s' hs hs'
  rcases hm c s hs with ⟨a, t, hr⟩ | h
  · rcases hm c' s' hs' with ⟨a', t', hr'⟩ | h
    · have heq := hone a a' (hq c s a t trivial hs hr).2 (hq c' s' a' t' trivial hs' hr').2
      exact .inl (by rw [hr, hr', heq])
    · exact .inr (.inr h)
  · exact .inr (.inl h)

theorem Transparent.pure (a : α) : Transparent I F (Pure.pure a : Prog ρ σ ε α) :=
  fun _ _ _ _ _ _ => .inl rfl

theorem Transparent.raise (e : ε) : Transparent I F (Prog.raise e : Prog ρ σ ε α) :=
  fun _ _ _ _ _ _ => .inl rfl

/-- The rule of sequence. What `m` ensures of its value, and of the state it ends in, may be used
for what follows. -/
theorem Transparent.bind_of (hm : Transparent I F m) (hq : ∀ c s a t, I s → m c s = (.ok a, t) → J t ∧ Q a)
    (hf : ∀ a, Q a → Transparent J F (f a)) : Transparent I F (m >>= f) := by
  intro c s c' s' hs hs'
  rcases hm c s c' s' hs hs' with h | h | h
  · rcases hr : m c s with ⟨r, t⟩
    rcases hr' : m c' s' with ⟨r', t'⟩
    rw [hr, hr'] at h
    cases h
    cases r with
    | ok a =>
      obtain ⟨hi, hqa⟩ := hq c s a t hs hr
      have hnext := hf a hqa c t c' t' hi (hq c' s' a t' hs' hr').1
      simpa only [Interrupted, bind_ok hr, bind_ok hr'] using hnext
    | error e => exact .inl (by rw [bind_error hr, bind_error hr'])
  · exact .inr (.inl h.bind)
  · exact .inr (.inr h.bind)

theorem Transparent.bind (hm : Transparent I F m) (hq : Ensures (fun _ => True) I m Q)
    (hf : ∀ a, Q a → Transparent I F (f a)) : Transparent I F (m >>= f) :=
  hm.bind_of (fun c s a t hs hr => hq c s a t trivial hs hr) hf

/-- After a value that is not determined, and does not matter, the rest decides the outcome. -/
theorem Unfailing.then_transparent (hm : Unfailing I F m) (hq : Ensures (fun _ => True) I m Q)
    (hf : ∀ a a', f a = f a') (ht : ∀ a, Q a → Transparent I F (f a)) : Transparent I F (m >>= f) := by
  intro c s c' s' hs hs'
  rcases hm c s hs with ⟨a, t, hr⟩ | h
  · rcases hm c' s' hs' with ⟨a', t', hr'⟩ | h
    · obtain ⟨hi, ha⟩ := hq c s a t trivial hs hr
      have hnext := ht a ha c t c' t' hi (hq c' s' a' t' trivial hs' hr').1
      have hrest : (m >>= f) c' s' = f a c' t' := by rw [hf a a']; exact bind_ok hr'
      simpa only [Interrupted, bind_ok hr, hrest] using hnext
    · exact .inr (.inr h.bind)
  · exact .inr (.inl h.bind)

/-- A memoised load of which the slot holds the one value that it loads, if it holds any. -/
theorem Transparent.memo {v : α} {get : σ → Option α} {put : α → σ → σ} (hload : Transparent I F m)
    (hheld : ∀ s a, I s → get s = some a → a = v ∧ Unfailing I F m ∧ Ensures (fun _ => True) I m (· = v)) :
    Transparent I F (Prog.memo get put m) := by
  have hempty : ∀ {c s}, get s = none → Interrupted F m c s → Interrupted F (Prog.memo get put m) c s := by
    intro c s hg ⟨e, he, h⟩
    exact ⟨e, he, (memo_outcome hg).trans h⟩
  have hone : ∀ {c s c' s' a}, I s → I s' → get s = some a → get s' = none →
      (Prog.memo get put m c s).1 = (Prog.memo get put m c' s').1 ∨ Interrupted F (Prog.memo get put m) c' s' := by
    intro c s c' s' a hs hs' hg hg'
    obtain ⟨rfl, hu, hq⟩ := hheld s a hs hg
    rcases hu c' s' hs' with ⟨b, t, hr⟩ | h
    · obtain ⟨-, rfl⟩ := hq c' s' b t trivial hs' hr
      refine .inl ?_
      rw [memo_outcome hg', hr]
      simp only [Prog.memo, hg]
    · exact .inr (hempty hg' h)
  intro c s c' s' hs hs'
  cases hg : get s with
  | some a =>
    cases hg' : get s' with
    | some b =>
      refine .inl ?_
      simp only [Prog.memo, hg, hg', (hheld s a hs hg).1, (hheld s' b hs' hg').1]
    | none => exact (hone hs hs' hg hg').imp_right .inr
  | none =>
    cases hg' : get s' with
    | some b => exact (hone hs' hs hg' hg).imp Eq.symm .inl
    | none =>
      rw [memo_outcome hg, memo_outcome hg']
      exact (hload c s c' s' hs hs').imp_right (Or.imp (hempty hg) (hempty hg'))

theorem Transparent.forEach : ∀ {l : List β} {g : β → Prog ρ σ ε α} {S : β → α → Prop},
    (∀ b ∈ l, Transparent I F (g b)) → (∀ b ∈ l, Ensures (fun _ => True) I (g b) (S b)) →
    Transparent I F (Prog.forEach g l)
  | [], _, _, _, _ => Transparent.pure []
  | b :: l, _, _, ht, he => by
    refine Transparent.bind (ht b (List.mem_cons_self ..)) (he b (List.mem_cons_self ..)) fun a _ => ?_
    refine Transparent.bind (Transparent.forEach (fun x hx => ht x (List.mem_cons_of_mem _ hx)) fun x hx =>
      he x (List.mem_cons_of_mem _ hx)) (Ensures.forEach fun x hx => he x (List.mem_cons_of_mem _ hx)) ?_
    exact fun as _ => Transparent.pure (a :: as)

end Transparent

end Prog

end Mesa.Foundation
