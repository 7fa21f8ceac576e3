/-
Lawful equality of texts and of what stands before a position, by name: the membership tests of all modules use these.
-/
import Mathlib.Tactic

namespace Mesa.Foundation

instance lawfulBEq_text : LawfulBEq (List Char) := inferInstance

instance lawfulBEq_before : LawfulBEq (Option Char) := inferInstance

end Mesa.Foundation
