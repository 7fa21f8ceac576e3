/-
Going through a list with a step that can fail: it succeeds when every element does, and its results come from elements.
-/
import Mathlib.Data.List.Basic

namespace Mesa.Foundation.Optional

variable {α β : Type} {f : α → Option β}

theorem mem_of_mapM : ∀ {l : List α} {r : List β}, l.mapM f = some r → ∀ b ∈ r, ∃ a ∈ l, f a = some b
  | [], r, h, b, hb => by
    cases h
    cases hb
  | a :: l, r, h, b, hb => by
    rw [List.mapM_cons] at h
    obtain ⟨c, hc, h⟩ := Option.bind_eq_some_iff.1 h
    obtain ⟨rest, hrest, h⟩ := Option.bind_eq_some_iff.1 h
    cases h
    rcases List.mem_cons.1 hb with rfl | hb
    · exact ⟨a, List.mem_cons_self, hc⟩
    · obtain ⟨a', ha', hfa⟩ := mem_of_mapM hrest b hb
      exact ⟨a', List.mem_cons_of_mem _ ha', hfa⟩

theorem mapM_map {g : α → β} : ∀ {l : List α}, (∀ a ∈ l, f a = some (g a)) → l.mapM f = some (l.map g)
  | [], _ => rfl
  | a :: l, h => by
    rw [List.mapM_cons, h a List.mem_cons_self, mapM_map fun b hb => h b (List.mem_cons_of_mem a hb)]
    rfl

/-- The whole list succeeds when every element does. -/
theorem mapM_isSome_iff {l : List α} : (l.mapM f).isSome ↔ ∀ a ∈ l, (f a).isSome := by
  induction l with
  | nil => exact iff_of_true rfl fun a ha => by cases ha
  | cons a l ih =>
    rw [List.mapM_cons, List.forall_mem_cons, ← ih]
    cases f a with
    | none => exact iff_of_false (fun h => by cases h) fun h => by cases h.1
    | some b =>
      cases l.mapM f with
      | none => exact iff_of_false (fun h => by cases h) fun h => by cases h.2
      | some r => exact iff_of_true rfl ⟨rfl, rfl⟩

theorem mapM_length : ∀ {l : List α} {r : List β}, l.mapM f = some r → r.length = l.length
  | [], r, h => by
    cases h
    rfl
  | a :: l, r, h => by
    rw [List.mapM_cons] at h
    obtain ⟨c, -, h⟩ := Option.bind_eq_some_iff.1 h
    obtain ⟨rest, hrest, h⟩ := Option.bind_eq_some_iff.1 h
    cases h
    rw [List.length_cons, List.length_cons, mapM_length hrest]

end Mesa.Foundation.Optional
