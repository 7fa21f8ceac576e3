/-
Lists of entries under keys, in the order in which they were added.
-/
import Mathlib.Tactic

namespace Mesa.Foundation

abbrev Buckets (κ α : Type) := List (κ × List α)

namespace Buckets

variable {κ α ι : Type} [DecidableEq κ]

/-- `setdefault(key, []).append(x)`. -/
def add (key : κ) (x : α) : Buckets κ α → Buckets κ α
  | [] => [(key, [x])]
  | (k, xs) :: b => if k = key then (k, xs ++ [x]) :: b else (k, xs) :: add key x b

/-- The entries under a key, none for a key that is not there. -/
def get (key : κ) : Buckets κ α → List α
  | [] => []
  | (k, xs) :: b => if k = key then xs else get key b

theorem get_add (k key : κ) (x : α) (b : Buckets κ α) :
    (b.add key x).get k = b.get k ++ if key = k then [x] else [] := by
  induction b with
  | nil =>
    unfold add get
    split <;> simp [get]
  | cons e b ih =>
    obtain ⟨k', xs⟩ := e
    rw [add]
    by_cases hkey : k' = key
    · subst hkey
      rw [if_pos rfl, get, get]
      split <;> simp
    · rw [if_neg hkey, get, get, ih]
      by_cases hk : k' = k
      · rw [if_pos hk, if_pos hk, if_neg fun h => hkey (hk.trans h.symm), List.append_nil]
      · rw [if_neg hk, if_neg hk]

/-- The same entry under several different keys. -/
theorem get_foldl_add (k : κ) (x : α) {keys : List κ} (hkeys : keys.Nodup) (b : Buckets κ α) :
    (keys.foldl (fun b key => b.add key x) b).get k = b.get k ++ if k ∈ keys then [x] else [] := by
  induction keys generalizing b with
  | nil => rw [if_neg List.not_mem_nil, List.append_nil]; rfl
  | cons key keys ih =>
    obtain ⟨hnew, hkeys⟩ := List.nodup_cons.1 hkeys
    rw [List.foldl_cons, ih hkeys, get_add]
    by_cases hk : key = k
    · subst hk
      rw [if_pos rfl, if_neg hnew, if_pos List.mem_cons_self, List.append_nil]
    · rw [if_neg hk, List.append_nil]
      simp only [List.mem_cons, Ne.symm hk, false_or]

end Buckets

end Mesa.Foundation
