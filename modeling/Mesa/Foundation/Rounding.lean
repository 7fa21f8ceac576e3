/-
Arithmetic with rounding: every operation gives the rounded exact result, and rounding is monotone and leaves small
integers alone. Sums and products of such numbers are monotone where those of the exact numbers are.
-/
import Mathlib.Algebra.Order.Field.Basic
import Mathlib.Data.Rat.Cast.Order
import Mathlib.Tactic

namespace Mesa.Foundation

/-- The rounding of an exact result, without overflow. -/
structure Rounding where
  round : ℚ → ℚ
  mono : Monotone round
  natCast : ∀ n : Nat, n ≤ 2 ^ 53 → round n = n

namespace Rounding

variable (R : Rounding)

def add (a b : ℚ) : ℚ := R.round (a + b)

def sub (a b : ℚ) : ℚ := R.round (a - b)

def mul (a b : ℚ) : ℚ := R.round (a * b)

def div (a b : ℚ) : ℚ := R.round (a / b)

theorem zero : R.round 0 = 0 := by simpa using R.natCast 0 (by norm_num)

theorem one : R.round 1 = 1 := by simpa using R.natCast 1 (by norm_num)

theorem nonneg {a : ℚ} (h : 0 ≤ a) : 0 ≤ R.round a := R.zero ▸ R.mono h

theorem le_one {a : ℚ} (h : a ≤ 1) : R.round a ≤ 1 := R.one ▸ R.mono h

theorem add_le_add {a b c d : ℚ} (hab : a ≤ b) (hcd : c ≤ d) : R.add a c ≤ R.add b d := R.mono (by linarith)

theorem mul_le_mul {a b c d : ℚ} (ha : 0 ≤ a) (hc : 0 ≤ c) (hab : a ≤ b) (hcd : c ≤ d) : R.mul a c ≤ R.mul b d :=
  R.mono (by gcongr; linarith)

theorem add_nonneg {a b : ℚ} (ha : 0 ≤ a) (hb : 0 ≤ b) : 0 ≤ R.add a b := R.nonneg (by linarith)

theorem mul_nonneg {a b : ℚ} (ha : 0 ≤ a) (hb : 0 ≤ b) : 0 ≤ R.mul a b := R.nonneg (by positivity)

theorem div_nonneg {a b : ℚ} (ha : 0 ≤ a) (hb : 0 ≤ b) : 0 ≤ R.div a b := R.nonneg (by positivity)

theorem sub_nonneg {a b : ℚ} (h : b ≤ a) : 0 ≤ R.sub a b := R.nonneg (by linarith)

/-- A share of a small whole number is at most one part of it. -/
theorem div_mul_le_one {a : ℚ} (ha : a ≤ 1) {m n : Nat} (hmn : m ≤ n) (hn : n ≤ 2 ^ 53) : R.div (R.mul a m) n ≤ 1 := by
  refine R.le_one ?_
  have hmul : R.mul a m ≤ n := by
    calc R.mul a m ≤ R.round (m : ℚ) := R.mono (by
          have hm : (0 : ℚ) ≤ m := Nat.cast_nonneg m
          nlinarith)
      _ = m := R.natCast m (hmn.trans hn)
      _ ≤ n := Nat.cast_le.2 hmn
  exact div_le_one_of_le₀ hmul (Nat.cast_nonneg n)

end Rounding

end Mesa.Foundation
