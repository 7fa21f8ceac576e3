/-
The content sanitiser: seven passes over a text, each of which deletes or replaces the matches of one
pattern. Tags, null bytes and backticks are gone for good after their passes; a deletion can still
bring the parts of a colour sequence or of `$(` together.
-/
import Mathlib.Data.Bool.AllAny
import Mesa.Foundation.Rewriting
import Mesa.Rebuild.Payload

namespace Mesa.Security

open Mesa.Foundation
open Mesa.Rebuild (Text isSpace)

/-! ## Patterns -/

/-- `[0-9;]`. -/
def isParameter (c : Char) : Bool := c.isDigit || c = ';'

/-- `<[^>]*>`. -/
def tag : Text → Option Nat
  | '<' :: l => if '>' ∈ l then some ((l.takeWhile (· ≠ '>')).length + 2) else none
  | _ => none

/-- The texts of the pattern of colour sequences. -/
def IsColourSequence (t : Text) : Prop := ∃ parameters c, (∀ d ∈ parameters, isParameter d = true) ∧ c.isAlpha = true ∧
  t = '\x1b' :: '[' :: (parameters ++ [c])

structure Clean (t : Text) : Prop where
  null : '\x00' ∉ t
  colour : ∀ s, IsColourSequence s → ¬ s <:+: t
  tag : ∀ body, '>' ∉ body → ¬ ('<' :: (body ++ ['>'])) <:+: t
  backtick : '\x60' ∉ t
  substitution : ¬ ['$', '('] <:+: t

/-! ## Colour sequences -/

/-- No `<` is before a `>`. -/
def Untagged (l : Text) : Prop := l.Pairwise fun x y => ¬ (x = '<' ∧ y = '>')

theorem Untagged.rest {l t : Text} (h : Untagged l) (ht : '<' :: t <:+ l) : '>' ∉ t := fun hmem =>
  (List.pairwise_cons.1 (List.Pairwise.sublist ht.sublist h)).1 '>' hmem ⟨rfl, rfl⟩

end Mesa.Security
