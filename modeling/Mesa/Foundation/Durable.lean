/-
Programs over durable state that a crash can cut between any two of their writes. A program yields
the states that it leaves behind, one after another, and how it ends; a judgement about it says
what holds of every state it leaves, besides what holds when it returns and when it raises.
-/
import Mathlib.Tactic

namespace Mesa.Foundation

/-- A program over the durable state `σ`: the states after each of its writes, and its end. -/
def Durable (σ ε α : Type) : Type := σ → List σ × Except ε α

namespace Durable

variable {σ ε α β : Type}

/-- The states that a run leaves on its way, from the first write to the last. -/
def visited (m : Durable σ ε α) (s : σ) : List σ := (m s).1

def result (m : Durable σ ε α) (s : σ) : Except ε α := (m s).2

/-- The state after the last write. -/
def final (m : Durable σ ε α) (s : σ) : σ := (m.visited s).getLastD s

/-- The state after a crash that lets at most `k` writes happen. -/
def cut (m : Durable σ ε α) (k : Nat) (s : σ) : σ := ((m.visited s).take k).getLastD s

protected def pure (a : α) : Durable σ ε α := fun _ => ([], .ok a)

def raise (e : ε) : Durable σ ε α := fun _ => ([], .error e)

/-- Look at the state. -/
def read : Durable σ ε σ := fun s => ([], .ok s)

/-- One durable write. -/
def write (f : σ → σ) : Durable σ ε Unit := fun s => ([f s], .ok ())

protected def bind (m : Durable σ ε α) (f : α → Durable σ ε β) : Durable σ ε β := fun s =>
  match m.result s with
  | .ok a => (m.visited s ++ (f a).visited (m.final s), (f a).result (m.final s))
  | .error e => (m.visited s, .error e)

instance : Monad (Durable σ ε) where
  pure := Durable.pure
  bind := Durable.bind

/-- `try: m except: h`. -/
def handle (m : Durable σ ε α) (h : ε → Durable σ ε α) : Durable σ ε α := fun s =>
  match m.result s with
  | .ok a => (m.visited s, .ok a)
  | .error e => (m.visited s ++ (h e).visited (m.final s), (h e).result (m.final s))

/-- The program over every entry of a list, in order. -/
def forEach (f : β → Durable σ ε Unit) : List β → Durable σ ε Unit
  | [] => pure ()
  | b :: l => do
    f b
    forEach f l

theorem getLastD_append (l l' : List σ) (s : σ) : (l ++ l').getLastD s = l'.getLastD (l.getLastD s) := by
  induction l generalizing s with
  | nil => rfl
  | cons a l ih => simp only [List.cons_append, List.getLastD_cons, ih]

/-- A cut leaves the first state or one that was visited. -/
theorem cut_mem (m : Durable σ ε α) (k : Nat) (s : σ) : m.cut k s = s ∨ m.cut k s ∈ m.visited s := by
  unfold cut
  rcases hl : (m.visited s).take k with _ | ⟨t, l⟩
  · exact .inl rfl
  · refine .inr (List.mem_of_mem_take (i := k) ?_)
    rw [hl, List.getLastD_cons, List.getLastD_eq_getLast?]
    rcases hlast : l.getLast? with _ | u
    · exact List.mem_cons_self ..
    · exact List.mem_cons_of_mem _ (List.mem_of_getLast? hlast)

theorem final_eq_cut (m : Durable σ ε α) (s : σ) : m.final s = m.cut (m.visited s).length s := by
  unfold final cut
  rw [List.take_length]

/-! ## What a program leaves -/

/-- From a state of `P`, every state that `m` leaves satisfies `C`, a returned value and the state
it is returned in satisfy `Q`, and a raised exception and its state satisfy `E`. -/
structure Leaves (P : σ → Prop) (m : Durable σ ε α) (C : σ → Prop) (Q : α → σ → Prop) (E : ε → σ → Prop) : Prop where
  visited : ∀ s, P s → ∀ t ∈ m.visited s, C t
  returned : ∀ s a, P s → m.result s = .ok a → Q a (m.final s)
  raised : ∀ s e, P s → m.result s = .error e → E e (m.final s)

variable {P P' C C' : σ → Prop} {m : Durable σ ε α} {f : α → Durable σ ε β} {Q Q' : α → σ → Prop} {R : β → σ → Prop}
  {E D : ε → σ → Prop}

theorem Leaves.mono (h : Leaves P m C Q E) (hp : ∀ s, P' s → P s) (hc : ∀ s, C s → C' s) (hq : ∀ a s, Q a s → Q' a s)
    (he : ∀ e s, E e s → D e s) : Leaves P' m C' Q' D where
  visited s hs t ht := hc t (h.visited s (hp s hs) t ht)
  returned s a hs hr := hq a _ (h.returned s a (hp s hs) hr)
  raised s e hs hr := he e _ (h.raised s e (hp s hs) hr)

theorem Leaves.pre (h : Leaves P m C Q E) (hp : ∀ s, P' s → P s) : Leaves P' m C Q E :=
  h.mono hp (fun _ => id) (fun _ _ => id) fun _ _ => id

/-- What the states to start from have in common may be assumed. -/
theorem Leaves.assume {p : Prop} (hp : ∀ s, P s → p) (h : p → Leaves P m C Q E) : Leaves P m C Q E where
  visited s hs := (h (hp s hs)).visited s hs
  returned s a hs := (h (hp s hs)).returned s a hs
  raised s e hs := (h (hp s hs)).raised s e hs

/-- A fact about the states to start from may be named. -/
theorem Leaves.exists {ι : Type} {S : ι → σ → Prop} (h : ∀ i, Leaves (S i) m C Q E) :
    Leaves (fun s => ∃ i, S i s) m C Q E where
  visited s hs := hs.elim fun i hi => (h i).visited s hi
  returned s a hs := hs.elim fun i hi => (h i).returned s a hi
  raised s e hs := hs.elim fun i hi => (h i).raised s e hi

theorem Leaves.pure {a : α} (h : ∀ s, P s → Q a s) : Leaves P (Pure.pure a : Durable σ ε α) C Q E where
  visited _ _ t ht := by cases ht
  returned s b hs hr := by cases hr; exact h s hs
  raised _ _ _ hr := by cases hr

theorem Leaves.raise {e : ε} (h : ∀ s, P s → E e s) : Leaves P (Durable.raise e : Durable σ ε α) C Q E where
  visited _ _ t ht := by cases ht
  returned _ _ _ hr := by cases hr
  raised s e' hs hr := by cases hr; exact h s hs

theorem Leaves.read : Leaves P (Durable.read : Durable σ ε σ) C (fun a s => a = s ∧ P s) E where
  visited _ _ t ht := by cases ht
  returned s a hs hr := by cases hr; exact ⟨rfl, hs⟩
  raised _ _ _ hr := by cases hr

/-- A write leaves one state, which is the state after it. -/
theorem Leaves.write {g : σ → σ} (hc : ∀ s, P s → C (g s)) {Q : Unit → σ → Prop} (hq : ∀ s, P s → Q () (g s)) :
    Leaves P (Durable.write g : Durable σ ε Unit) C Q E where
  visited s hs t ht := by rw [List.mem_singleton.1 ht]; exact hc s hs
  returned s a hs hr := by cases hr; exact hq s hs
  raised _ _ _ hr := by cases hr

theorem bind_ok {s : σ} {a : α} (h : m.result s = .ok a) :
    (m >>= f).visited s = m.visited s ++ (f a).visited (m.final s) ∧ (m >>= f).result s = (f a).result (m.final s) ∧
      (m >>= f).final s = (f a).final (m.final s) := by
  have hrun : (m >>= f) s = (m.visited s ++ (f a).visited (m.final s), (f a).result (m.final s)) := by
    change Durable.bind m f s = _
    unfold Durable.bind
    rw [h]
  have hvisited : (m >>= f).visited s = m.visited s ++ (f a).visited (m.final s) := by rw [visited, hrun]
  refine ⟨hvisited, by rw [result, hrun], ?_⟩
  rw [final, hvisited, getLastD_append]
  rfl

theorem bind_error {s : σ} {e : ε} (h : m.result s = .error e) :
    (m >>= f).visited s = m.visited s ∧ (m >>= f).result s = .error e ∧ (m >>= f).final s = m.final s := by
  have hrun : (m >>= f) s = (m.visited s, .error e) := by
    change Durable.bind m f s = _
    unfold Durable.bind
    rw [h]
  have hvisited : (m >>= f).visited s = m.visited s := by rw [visited, hrun]
  refine ⟨hvisited, by rw [result, hrun], ?_⟩
  rw [final, hvisited]
  rfl

/-- Reading first is the rest at the state that was read. -/
theorem read_bind (f : σ → Durable σ ε β) (s : σ) : (Durable.read >>= f) s = f s s := rfl

/-- A write first: its state, and then the rest from there. -/
theorem write_bind (g : σ → σ) (f : Unit → Durable σ ε β) (s : σ) :
    (Durable.write g >>= f) s = (g s :: (f ()).visited (g s), (f ()).result (g s)) := rfl

theorem handle_ok {h : ε → Durable σ ε α} {s : σ} {a : α} (hr : m.result s = .ok a) :
    (handle m h).visited s = m.visited s ∧ (handle m h).result s = .ok a ∧ (handle m h).final s = m.final s := by
  have hrun : handle m h s = (m.visited s, .ok a) := by
    unfold handle
    rw [hr]
  have hvisited : (handle m h).visited s = m.visited s := by rw [visited, hrun]
  refine ⟨hvisited, by rw [result, hrun], ?_⟩
  rw [final, hvisited]
  rfl

theorem handle_error {h : ε → Durable σ ε α} {s : σ} {e : ε} (hr : m.result s = .error e) :
    (handle m h).visited s = m.visited s ++ (h e).visited (m.final s) ∧
      (handle m h).result s = (h e).result (m.final s) ∧ (handle m h).final s = (h e).final (m.final s) := by
  have hrun : handle m h s = (m.visited s ++ (h e).visited (m.final s), (h e).result (m.final s)) := by
    unfold handle
    rw [hr]
  have hvisited : (handle m h).visited s = m.visited s ++ (h e).visited (m.final s) := by rw [visited, hrun]
  refine ⟨hvisited, by rw [result, hrun], ?_⟩
  rw [final, hvisited, getLastD_append]
  rfl

/-- The rule of sequence: what the first part ends in is what the second part starts from. -/
theorem Leaves.bind (hm : Leaves P m C Q E) (hf : ∀ a, Leaves (Q a) (f a) C R E) : Leaves P (m >>= f) C R E where
  visited s hs t ht := by
    rcases hr : m.result s with e | a
    · rw [(bind_error hr).1] at ht; exact hm.visited s hs t ht
    · rw [(bind_ok hr).1, List.mem_append] at ht
      exact ht.elim (hm.visited s hs t) ((hf a).visited _ (hm.returned s a hs hr) t)
  returned s b hs hb := by
    rcases hr : m.result s with e | a
    · rw [(bind_error hr).2.1] at hb; cases hb
    · obtain ⟨-, hres, hfin⟩ := bind_ok (f := f) hr
      rw [hfin]
      exact (hf a).returned _ b (hm.returned s a hs hr) (hres ▸ hb)
  raised s e hs he := by
    rcases hr : m.result s with e' | a
    · obtain ⟨-, hres, hfin⟩ := bind_error (f := f) hr
      rw [hfin]
      rw [hres] at he
      cases he
      exact hm.raised s e hs hr
    · obtain ⟨-, hres, hfin⟩ := bind_ok (f := f) hr
      rw [hfin]
      exact (hf a).raised _ e (hm.returned s a hs hr) (hres ▸ he)

/-- What is read may be used for what follows, in the state it was read from. -/
theorem Leaves.bind_read {f : σ → Durable σ ε β} (h : ∀ a, Leaves (fun s => s = a ∧ P s) (f a) C R E) :
    Leaves P (Durable.read >>= f) C R E :=
  Leaves.bind Leaves.read fun a => (h a).pre fun _ hs => ⟨hs.1.symm, hs.2⟩

/-- The rule of `try`: the handler starts from the state in which the exception was raised. -/
theorem Leaves.handle {h : ε → Durable σ ε α} (hm : Leaves P m C Q D) (hh : ∀ e, Leaves (D e) (h e) C Q E) :
    Leaves P (Durable.handle m h) C Q E where
  visited s hs t ht := by
    rcases hr : m.result s with e | a
    · rw [(handle_error hr).1, List.mem_append] at ht
      exact ht.elim (hm.visited s hs t) ((hh e).visited _ (hm.raised s e hs hr) t)
    · rw [(handle_ok hr).1] at ht; exact hm.visited s hs t ht
  returned s a hs ha := by
    rcases hr : m.result s with e | b
    · obtain ⟨-, hres, hfin⟩ := handle_error (h := h) hr
      rw [hfin]
      exact (hh e).returned _ a (hm.raised s e hs hr) (hres ▸ ha)
    · obtain ⟨-, hres, hfin⟩ := handle_ok (h := h) hr
      rw [hfin]
      rw [hres] at ha
      cases ha
      exact hm.returned s a hs hr
  raised s e hs he := by
    rcases hr : m.result s with e' | b
    · obtain ⟨-, hres, hfin⟩ := handle_error (h := h) hr
      rw [hfin]
      exact (hh e').raised _ e (hm.raised s e' hs hr) (hres ▸ he)
    · rw [(handle_ok hr).2.1] at he; cases he

theorem Leaves.ite {c : Prop} [Decidable c] {m' : Durable σ ε α} (ht : c → Leaves P m C Q E)
    (hf : ¬ c → Leaves P m' C Q E) : Leaves P (if c then m else m') C Q E := by
  split
  · next h => exact ht h
  · next h => exact hf h

/-- A loop whose every round keeps `I`. -/
theorem Leaves.forEach {I : σ → Prop} {g : β → Durable σ ε Unit} : ∀ {l : List β},
    (∀ b ∈ l, Leaves I (g b) C (fun _ => I) E) → Leaves I (Durable.forEach g l) C (fun _ => I) E
  | [], _ => Leaves.pure fun _ => id
  | b :: l, h => by
    refine Leaves.bind (h b (List.mem_cons_self ..)) fun _ => ?_
    exact Leaves.forEach fun x hx => h x (List.mem_cons_of_mem _ hx)

/-- A loop over `l` with an invariant of the entries that are done. -/
theorem Leaves.forEachFrom {I : List β → σ → Prop} {g : β → Durable σ ε Unit} {l : List β}
    (h : ∀ done b rest, l = done ++ b :: rest → Leaves (I done) (g b) C (fun _ => I (done ++ [b])) E) :
    Leaves (I []) (Durable.forEach g l) C (fun _ => I l) E := by
  suffices hrest : ∀ rest done, l = done ++ rest → Leaves (I done) (Durable.forEach g rest) C (fun _ => I l) E from
    hrest l [] rfl
  intro rest
  induction rest with
  | nil =>
    intro done hl
    rw [List.append_nil] at hl
    exact Leaves.pure fun s hs => hl ▸ hs
  | cons b rest ih =>
    intro done hl
    refine Leaves.bind (h done b rest hl) fun _ => ih (done ++ [b]) ?_
    rw [List.append_assoc]
    exact hl

/-- A program that keeps an invariant keeps it wherever it is cut. -/
theorem Leaves.cut {I : σ → Prop} (h : Leaves I m I Q E) {s : σ} (hs : I s) (k : Nat) : I (m.cut k s) := by
  rcases cut_mem m k s with heq | hmem
  · rw [heq]; exact hs
  · exact h.visited s hs _ hmem

/-! ## What a program returns -/

/-- From a state of `P`, the program returns a value, and `Q` holds of it and of the state after it. -/
def Returns (P : σ → Prop) (m : Durable σ ε α) (Q : α → σ → Prop) : Prop :=
  ∀ s, P s → ∃ a, m.result s = .ok a ∧ Q a (m.final s)

/-- What a program leaves when it returns holds when it is known to return. -/
theorem Leaves.returns (h : Leaves P m C Q E) (hok : ∀ s, P s → ∃ a, m.result s = .ok a) : Returns P m Q := by
  intro s hs
  obtain ⟨a, ha⟩ := hok s hs
  exact ⟨a, ha, h.returned s a hs ha⟩

theorem Returns.and (h : Leaves P m C Q E) (hr : Returns P m Q') : Returns P m fun a s => Q a s ∧ Q' a s := by
  intro s hs
  obtain ⟨a, ha, hq⟩ := hr s hs
  exact ⟨a, ha, h.returned s a hs ha, hq⟩

theorem Returns.mono (h : Returns P m Q) (hp : ∀ s, P' s → P s) (hq : ∀ a s, Q a s → Q' a s) : Returns P' m Q' := by
  intro s hs
  obtain ⟨a, ha, hqa⟩ := h s (hp s hs)
  exact ⟨a, ha, hq a _ hqa⟩

theorem Returns.pre (h : Returns P m Q) (hp : ∀ s, P' s → P s) : Returns P' m Q := h.mono hp fun _ _ => id

theorem Returns.assume {p : Prop} (hp : ∀ s, P s → p) (h : p → Returns P m Q) : Returns P m Q := fun s hs =>
  h (hp s hs) s hs

theorem Returns.exists {ι : Type} {S : ι → σ → Prop} (h : ∀ i, Returns (S i) m Q) : Returns (fun s => ∃ i, S i s) m Q :=
  fun s hs => hs.elim fun i hi => h i s hi

theorem Returns.pure {a : α} (h : ∀ s, P s → Q a s) : Returns P (Pure.pure a : Durable σ ε α) Q := fun s hs =>
  ⟨a, rfl, h s hs⟩

theorem Returns.write {g : σ → σ} {Q : Unit → σ → Prop} (h : ∀ s, P s → Q () (g s)) :
    Returns P (Durable.write g : Durable σ ε Unit) Q := fun s hs => ⟨(), rfl, h s hs⟩

theorem Returns.bind (hm : Returns P m Q) (hf : ∀ a, Returns (Q a) (f a) R) : Returns P (m >>= f) R := by
  intro s hs
  obtain ⟨a, ha, hqa⟩ := hm s hs
  obtain ⟨b, hb, hr⟩ := hf a _ hqa
  obtain ⟨-, hresult, hfinal⟩ := bind_ok (f := f) ha
  exact ⟨b, hresult.trans hb, hfinal ▸ hr⟩

theorem Returns.bind_read {f : σ → Durable σ ε β} (h : ∀ a, Returns (fun s => s = a ∧ P s) (f a) R) :
    Returns P (Durable.read >>= f) R := by
  intro s hs
  obtain ⟨b, hb, hr⟩ := h s s ⟨rfl, hs⟩
  exact ⟨b, hb, hr⟩

theorem Returns.handle {h : ε → Durable σ ε α} (hm : Returns P m Q) : Returns P (Durable.handle m h) Q := by
  intro s hs
  obtain ⟨a, ha, hqa⟩ := hm s hs
  obtain ⟨-, hresult, hfinal⟩ := handle_ok (h := h) ha
  exact ⟨a, hresult, hfinal ▸ hqa⟩

/-- The rule of `Leaves.forEachFrom` for a loop whose rounds return. -/
theorem Returns.forEachFrom {I : List β → σ → Prop} {g : β → Durable σ ε Unit} {l : List β}
    (h : ∀ done b rest, l = done ++ b :: rest → Returns (I done) (g b) (fun _ => I (done ++ [b]))) :
    Returns (I []) (Durable.forEach g l) (fun _ => I l) := by
  suffices hrest : ∀ rest done, l = done ++ rest → Returns (I done) (Durable.forEach g rest) (fun _ => I l) from
    hrest l [] rfl
  intro rest
  induction rest with
  | nil =>
    intro done hl
    rw [List.append_nil] at hl
    exact Returns.pure fun s hs => hl ▸ hs
  | cons b rest ih =>
    intro done hl
    refine Returns.bind (h done b rest hl) fun _ => ih (done ++ [b]) ?_
    rw [List.append_assoc]
    exact hl

end Durable

end Mesa.Foundation
